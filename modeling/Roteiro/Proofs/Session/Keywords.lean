import Roteiro.Proofs.Machine.Spelled
import Roteiro.Proofs.Parser.Likeness
import Roteiro.Proofs.Scope.Likeness
import Roteiro.Proofs.Session.Lines

/-!
# Spellings of keywords

Some keywords have two spellings. For all of them but one it does not matter which one is written:
the parser looks at the kind of a keyword, and nobody looks at its spelling later, except to quote
it in a complaint. The exception is the receiver. The analysis gives `this` the depth of the name
`meu`, under which the receiver is bound, but a run looks for the name `this` there, and does not
find it.

* `Since.run_respelled`: sources that differ in the spellings of other keywords are run in the same
  way.
* `thisInMethod_not_interchangeable`: a source that is run in another way with `this` for `meu`.
-/

namespace Roteiro

open Scope Machine

/-- The same token, except that a keyword may be spelled differently unless it is the receiver. -/
structure Token.Respelled (t t' : Token) : Prop where
  kind : t'.kind = t.kind
  line : t'.line = t.line
  lexeme : t'.lexeme = t.lexeme ∨ t.kind.IsKeyword ∧ t.kind ≠ .selfKw

theorem Token.Respelled.refl (t : Token) : t.Respelled t := ⟨rfl, rfl, .inl rfl⟩

theorem Token.Respelled.eq {t t' : Token} (h : t.Respelled t')
    (hkind : ¬t.kind.IsKeyword ∨ t.kind = .selfKw) : t' = t := by
  obtain ⟨kind, lexeme, line⟩ := t
  obtain ⟨kind', lexeme', line'⟩ := t'
  obtain ⟨rfl, rfl, hlexeme⟩ := h
  rcases hlexeme with hlexeme | ⟨hkeyword, hself⟩
  · dsimp only at hlexeme
    rw [hlexeme]
  · exact (hkind.elim (fun h => h hkeyword) hself).elim

/-- Tokens that differ in the spellings of keywords correspond. -/
def Parser.respelled : Correspondence where
  token := Token.Respelled
  id i i' := i' = i
  kind h := h.kind
  made h _ _ _ _ := ⟨rfl, h.line, .inl rfl⟩

/-- Trees that differ in the spellings of keywords. -/
def Likeness.keywords : Likeness where
  token t t' := t' = t
  keyword := Token.Respelled
  occurrence _ i n i' n' := i' = i ∧ n' = n
  binder _ n n' := n' = n
  named _ n n' := n' = n
  unnamed _ := True

namespace Likeness

theorem respelled_le_keywords : Parser.respelled.likeness.Le keywords where
  token h := h.1.eq (.inl h.2)
  keyword h := h
  occurrence := by
    rintro bs i n i' n' ⟨hi, hn, hkind⟩
    refine ⟨hi, hn.eq ?_⟩
    rcases hkind with hkind | hkind
    · exact .inl (by rw [hkind]; decide)
    · exact .inr hkind
  binder h := h.1.eq (.inl (by rw [h.2]; decide))
  named h := h.1.eq (.inl (by rw [h.2]; decide))
  unnamed h := h.elim

theorem covers_keywords : keywords.Covers .same where
  token h := h.eq id
  keyword h := ⟨h.kind, h.line, .inl h.lexeme⟩
  occurrence _ hi hn := ⟨hi, hn.eq id⟩
  binder h := h.eq id
  named h := h.eq id
  unnamed := trivial

theorem resolves_keywords : keywords.Resolves .same Token.Respelled where
  id h := h.1
  occurrence h := ⟨congrArg Token.lexeme h.2, h.2 ▸ .refl _⟩
  binder h := ⟨congrArg Token.lexeme h, h ▸ .refl _⟩
  named h := ⟨congrArg Token.lexeme h, h ▸ .refl _⟩
  keyword h := h

theorem spelled_keywords : keywords.Spelled where
  kind h := congrArg Token.kind h
  lexeme h := congrArg Token.lexeme h
  keyword h := h.kind
  occurrence h := congrArg Token.lexeme h.2
  binder h := congrArg Token.lexeme h
  named h := congrArg Token.lexeme h

/-- Failures are the same, down to the tokens that they are blamed on. -/
theorem faults_keywords :
    keywords.Faults fun t failure t' failure' => t' = t ∧ failure' = failure where
  token h _ := ⟨h, rfl⟩
  noReceiver h := ⟨h ▸ rfl, rfl⟩
  missing h := ⟨h.2, h.2 ▸ rfl⟩

end Likeness

/-- The scheme of programs that differ in the spellings of keywords. -/
def Scheme.keywords : Scheme .keywords :=
  Likeness.spelled_keywords.scheme (Depths.Twin .same) (fun hn hT => hT hn.1)
    Likeness.faults_keywords

theorem Halt.Like.eq_of_keywords {e e' : Halt} (h : e.Like Scheme.keywords e') : e' = e := by
  cases h with
  | @failed e e' hfault =>
    obtain ⟨token, failure⟩ := e
    obtain ⟨token', failure'⟩ := e'
    obtain ⟨rfl, rfl⟩ : token' = token ∧ failure' = failure := hfault
    rfl
  | outOfFuel => rfl

namespace Session

/-- Sessions that differ in the spellings of keywords in the code that they have in store. -/
structure Respelled (s s' : Session) : Prop where
  machine : s.machine.Like Scheme.keywords () [] s'.machine
  nextId : s'.nextId = s.nextId

/-- The same complaints, up to the spellings of the keywords in them, and the same failure. -/
structure DiagnosticsRespelled (d d' : Diagnostics) : Prop where
  reports : List.Forall₂ (fun r r' => r' = r ∨ r.Like Token.Respelled r') d.reports d'.reports
  runtime : d'.runtime? = d.runtime?

variable {s s' : Session}

theorem DiagnosticsRespelled.refl (d : Diagnostics) : DiagnosticsRespelled d d :=
  ⟨List.forall₂_same.mpr fun _ _ => .inl rfl, rfl⟩

theorem DiagnosticsRespelled.add {d d' : Diagnostics} (h : DiagnosticsRespelled d d')
    {rs rs' : List Report} (hrs : List.Forall₂ (Report.Like Token.Respelled) rs rs') :
    DiagnosticsRespelled (d.add rs) (d'.add rs') :=
  ⟨List.rel_append h.reports (hrs.imp fun _ _ hr => .inr hr), h.runtime⟩

theorem execute_respelled (h : s.Respelled s') (fuel : Nat) {program program' : List Stmt}
    (hprogram : StmtsLike .keywords [] program program') {d d' : Diagnostics}
    (hd : DiagnosticsRespelled d d') :
    (s.execute fuel program).1.Respelled (s'.execute fuel program').1 ∧
      DiagnosticsRespelled (Ending.diagnose (s.execute fuel program).2 d)
        (Ending.diagnose (s'.execute fuel program').2 d') := by
  have hended := execProgram_like (S := Scheme.keywords) (w := ()) fuel hprogram () s.machine
    s'.machine trivial h.machine
  unfold execute
  generalize execProgram fuel program s.machine = result at hended ⊢
  generalize execProgram fuel program' s'.machine = result' at hended ⊢
  cases hended with
  | ok _ _ hm => exact ⟨⟨hm, h.nextId⟩, hd⟩
  | @error _ e e' _ _ _ he hm =>
    obtain rfl := he.eq_of_keywords
    cases e' with
    | failed e => exact ⟨⟨hm, h.nextId⟩, hd.reports, rfl⟩
    | outOfFuel => exact ⟨⟨hm, h.nextId⟩, hd⟩
  | quit he => exact he.1.elim

theorem resolve_respelled (h : s.Respelled s') {program program' : List Stmt}
    (hprogram : StmtsLike .keywords [] program program') :
    (s.resolve program).1.Respelled (s'.resolve program').1 ∧
      List.Forall₂ (Report.Like Token.Respelled) (s.resolve program).2 (s'.resolve program').2 := by
  have hanalysis := resolve_like Likeness.resolves_keywords hprogram h.machine.depths
  exact ⟨⟨⟨h.machine.store, h.machine.marked, hanalysis.depths, h.machine.host⟩,
    h.nextId⟩,
    hanalysis.reports⟩

/-- Tokens that differ in the spellings of keywords are run in parallel. -/
theorem readOn_respelled (h : s.Respelled s') {tokens tokens' : List Token}
    (htokens : List.Forall₂ Token.Respelled tokens tokens') (fuel : Nat) (d : Diagnostics) :
    (s.readOn fuel tokens d).1.Respelled (s'.readOn fuel tokens' d).1 ∧
      DiagnosticsRespelled (s.readOn fuel tokens d).2 (s'.readOn fuel tokens' d).2 := by
  have hids : ∀ i, s.nextId ≤ i → Parser.respelled.id i (i + 0) := fun _ _ => rfl
  have hparsed := Parser.parseProgram_like (C := Parser.respelled) htokens (fun _ => .refl _) hids
  rw [Nat.add_zero, ← h.nextId] at hparsed
  unfold readOn
  rw [← h.nextId]
  generalize Parser.parseProgram tokens s'.nextId = parsed at hparsed ⊢
  generalize Parser.parseProgram tokens' s'.nextId = parsed' at hparsed ⊢
  obtain ⟨tree?, nextId, reports⟩ := parsed
  obtain ⟨tree?', nextId', reports'⟩ := parsed'
  obtain ⟨htree, hnext, hreports⟩ := hparsed
  have hread : Respelled { s with nextId } { s' with nextId := nextId' } := ⟨h.machine, hnext⟩
  have hadded := (DiagnosticsRespelled.refl d).add hreports
  dsimp only at htree ⊢
  cases htree with
  | none => exact ⟨hread, hadded⟩
  | @some program program' hprogram =>
    have hlike := likeStmts_mono Likeness.respelled_le_keywords program (hprogram [])
    dsimp only
    obtain ⟨hresolved, hcomplaints⟩ := resolve_respelled hread hlike
    have hall := hadded.add hcomplaints
    generalize Session.resolve { s with nextId } program = analysed at hresolved hcomplaints hall ⊢
    generalize Session.resolve { s' with nextId := nextId' } program' = analysed'
      at hresolved hcomplaints hall ⊢
    obtain ⟨s₁, complaints⟩ := analysed
    obtain ⟨s₁', complaints'⟩ := analysed'
    dsimp only at hresolved hcomplaints hall ⊢
    cases hcomplaints with
    | nil => exact execute_respelled hresolved fuel hlike hall
    | cons => exact ⟨hresolved, hall⟩

/-- A session that has come about by running sources differs in nothing from itself. -/
theorem Since.respelled {host : Host} {past : List Played} (h : Since host s past) :
    s.Respelled s := by
  have hunmarked : ∀ r, Scheme.keywords.Unmarked () r := fun _ => ⟨[], nofun, rfl⟩
  have hstore : s.machine.store.Like Scheme.keywords () s.machine.store :=
    h.twin_same.like Likeness.covers_keywords rfl (fun _ => hunmarked _) fun _ _ _ => hunmarked _
  have hdepths : s.machine.depths.Twin .same s.machine.depths := fun hi => by rw [hi]
  exact ⟨⟨hstore, rfl, hdepths, rfl⟩, rfl⟩

/-- **Keywords other than the receiver may be spelled in either way.** In every session that has
come about by running sources, two sources whose tokens differ in such spellings only write and read
the same and stop with the same failure at the same place, or are rejected with complaints that
differ in the spellings they quote only. -/
theorem Since.run_respelled {host : Host} {past : List Played} (h : Since host s past)
    {source source' : String}
    (htokens : List.Forall₂ Token.Respelled (Token.tokenize source).1 (Token.tokenize source').1)
    (hfaults : (Token.tokenize source').2 = (Token.tokenize source).2) (fuel : Nat)
    (d : Diagnostics) :
    let run := s.run fuel source d
    let run' := s.run fuel source' d
    run'.1.machine.host = run.1.machine.host ∧ run'.1.nextId = run.1.nextId ∧
      run'.2.runtime? = run.2.runtime? ∧
      List.Forall₂ (fun r r' => r' = r ∨ r.Like Token.Respelled r') run.2.reports
        run'.2.reports := by
  intro run run'
  have hrun : run.1.Respelled run'.1 ∧ DiagnosticsRespelled run.2 run'.2 := by
    simp only [run, run', run_eq, hfaults]
    split
    · exact ⟨h.respelled, .refl _⟩
    · exact readOn_respelled h.respelled htokens fuel _
  exact ⟨hrun.1.machine.host, hrun.1.nextId, hrun.2.runtime, hrun.2.reports⟩

/-- One keyword is written with a word, the other one with an accent. -/
def plainChoice : String := "se (falso E verdadeiro) escreva nulo; senao escreva \"b\";"

def accentedChoice : String := "se (falso && verdadeiro) escreva nulo; senão escreva \"b\";"

instance (t t' : Token) : Decidable (t.Respelled t') :=
  decidable_of_iff (t'.kind = t.kind ∧ t'.line = t.line ∧
    (t'.lexeme = t.lexeme ∨ t.kind.IsKeyword ∧ t.kind ≠ .selfKw))
    ⟨fun h => ⟨h.1, h.2.1, h.2.2⟩, fun h => ⟨h.kind, h.line, h.lexeme⟩⟩

theorem accentedChoice_run_respelled :
    List.Forall₂ Token.Respelled (Token.tokenize plainChoice).1 (Token.tokenize accentedChoice).1 ∧
    (Token.tokenize accentedChoice).2 = (Token.tokenize plainChoice).2 ∧
    ((start (.withInput [])).run 9 accentedChoice .none).1.machine.host =
      ((start (.withInput [])).run 9 plainChoice .none).1.machine.host := by
  have htokens : List.Forall₂ Token.Respelled (Token.tokenize plainChoice).1
      (Token.tokenize accentedChoice).1 := by decide +kernel
  have hfaults : (Token.tokenize accentedChoice).2 = (Token.tokenize plainChoice).2 := by
    decide +kernel
  exact ⟨htokens, hfaults, (Since.run_respelled .start htokens hfaults 9 .none).1⟩

/-- A method that gives its receiver, by either of the names that the receiver has. -/
def meuInMethod : String := "classe A \x7b m() \x7b retorne meu; \x7d \x7d escreva A().m();"

def thisInMethod : String := "classe A \x7b m() \x7b retorne this; \x7d \x7d escreva A().m();"

/-- The receiver is the exception: one of its names is found when the program is run, the other one
is not. -/
theorem thisInMethod_not_interchangeable :
    List.Forall₂ (fun t t' => t'.kind = t.kind ∧ t'.line = t.line) (Token.tokenize meuInMethod).1
      (Token.tokenize thisInMethod).1 ∧
    ((start (.withInput [])).run 12 meuInMethod .none).1.output = "Instância de A" ∧
    ((start (.withInput [])).run 12 meuInMethod .none).2.texts = [] ∧
    ((start (.withInput [])).run 12 thisInMethod .none).1.output = "" ∧
    ((start (.withInput [])).run 12 thisInMethod .none).2.texts =
      ["Undefined variable 'this'.\n[line 1]"] := by
  decide +kernel

end Session

end Roteiro
