import Roteiro.Proofs.Parser.Likeness
import Roteiro.Proofs.Scope.Bound
import Roteiro.Proofs.Token.Renaming

/-!
# Reading renamed tokens

Tokens are read twice, once as they are and once with another name at some places, and each time on
the lines that a source has them on. If the places are those of a declaration and of what it binds,
then the second tree is the first one, renamed in the scope of the declaration.

What stands at a place in the tree tells whether it is to be renamed: a declaration, if it is the
one in question, since the scope of that one declares its name only once; an occurrence, if it has
the name and means that scope.

* `likeStmts_renamed`: the two trees are renamed in the scope of the declaration.
-/

namespace Roteiro

open Scope

/-! ### Scopes that declare no name twice -/

namespace Scope

/-- No scope in a node declares a name twice. -/
def Apart (node : Node) : Prop :=
  ∀ {Γ inner}, node.Inside Γ inner → ∀ names ∈ scopesOpened inner, Distinct names

theorem Apart.part {node inner : Node} (h : Apart node) (around : List Around)
    (hpart : (around, inner) ∈ node.parts) : Apart inner :=
  fun hinside => h (.part hpart hinside)

theorem Apart.opened {node : Node} (h : Apart node) : ∀ names ∈ scopesOpened node, Distinct names :=
  h (.refl node)

theorem Legal.apart {program : List Stmt} (h : Legal program) : ∀ s ∈ program, Apart (.stmt s) :=
  fun s hs _ _ hinside => h.scope ⟨s, hs, hinside⟩

/-- What is known about the innermost scope: it declares no name twice, and if a declaration in it
stands at a place it declares a certain name. -/
structure Tells (place : Nat) (name : String) (Γ : List Layer) : Prop where
  distinct : ∀ L ∈ Γ.head?, ∀ S, L.site? = some S → Distinct S.names
  lexeme : ∀ L ∈ Γ.head?, ∀ S, L.site? = some S → ∀ n ∈ S.names, n.line = place → n.lexeme = name

variable {place : Nat} {name : String} {Γ : List Layer}

theorem Tells.globals : Tells place name [] := ⟨nofun, nofun⟩

theorem Tells.congr {L L' : Layer} (h : Tells place name (L :: Γ)) (hsite : L'.site? = L.site?) :
    Tells place name (L' :: Γ) := by
  refine ⟨?_, ?_⟩
  · rintro _ ⟨⟩ S hS
    exact h.distinct L rfl S (hsite.symm.trans hS)
  · rintro _ ⟨⟩ S hS
    exact h.lexeme L rfl S (hsite.symm.trans hS)

theorem Tells.introduced (h : Tells place name Γ) (names : List Token) :
    Tells place name (introduced Γ names) := by
  cases Γ with
  | nil => exact h
  | cons L Γ => exact h.congr rfl

/-- The scope of a site. -/
theorem Tells.of_site {L : Layer} {S : Site} (hL : ∀ S', L.site? = some S' → S' = S)
    (hdistinct : Distinct S.names) (hname : ∀ n ∈ S.names, n.line = place → n.lexeme = name) :
    Tells place name (L :: Γ) := by
  refine ⟨?_, ?_⟩
  · rintro _ ⟨⟩ S' hS'
    rwa [hL S' hS']
  · rintro _ ⟨⟩ S' hS'
    rwa [hL S' hS']

/-- A name stands in the innermost scope. -/
def StandsIn (n : Token) (Γ : List Layer) : Prop :=
  ∀ L ∈ Γ.head?, ∃ S, L.site? = some S ∧ n ∈ S.names

theorem Held.standsIn {s : Stmt} (h : Held s Γ) {n : Token} (hn : n ∈ declared s) :
    StandsIn n Γ := by
  intro L hL
  obtain ⟨S, hS, hs⟩ := h.site (List.ne_nil_of_mem hn) L hL
  exact ⟨S, hS, S.mem_names hs hn⟩

theorem innermost_marksOf_cons (L : Layer) (Γ : List Layer) :
    innermost (marksOf place (L :: Γ)) = L.declaresAt place := rfl

/-- The scope of a declaration has the mark. -/
theorem StandsIn.marked {n : Token} (h : StandsIn n Γ) (hΓ : Γ ≠ []) (hn : n.line = place) :
    innermost (marksOf place Γ) = true := by
  cases Γ with
  | nil => exact absurd rfl hΓ
  | cons L Γ =>
    obtain ⟨S, hS, hmem⟩ := h L rfl
    rw [innermost_marksOf_cons, Layer.declaresAt, hS]
    exact List.any_eq_true.mpr ⟨n, hmem, decide_eq_true hn⟩

/-- In the scope that has the mark there is only one declaration of the name. -/
theorem Tells.line_of_marked (h : Tells place name Γ) {n : Token} (hn : StandsIn n Γ)
    (hmark : innermost (marksOf place Γ) = true) (hname : n.lexeme = name) : n.line = place := by
  cases Γ with
  | nil => cases hmark
  | cons L Γ =>
    obtain ⟨S, hS, hmem⟩ := hn L rfl
    rw [innermost_marksOf_cons, Layer.declaresAt, hS] at hmark
    obtain ⟨m, hm, hline⟩ := List.any_eq_true.mp hmark
    have hline : m.line = place := of_decide_eq_true hline
    have hlexeme : n.lexeme = m.lexeme := hname.trans (h.lexeme L rfl S hS m hm hline).symm
    have hsame : n = m := List.inj_on_of_nodup_map (h.distinct L rfl S hS) hmem hm hlexeme
    rw [hsame, hline]

end Scope

/-! ### Tokens at their places -/

namespace Parser

/-- Tokens with their places for lines, and the tokens of a source, on its lines, of which those at
the chosen places are names that are written differently. The receiver has no name that changes. -/
def renamed (R : Renaming) (lines : Nat → Nat) (chosen : Nat → Bool) : Correspondence where
  token n t := t = { n.withName chosen R.new n.line with line := lines n.line } ∧
    (n.kind = .selfKw → n.lexeme ≠ R.old)
  id i i' := i' = i
  kind := by
    rintro n _ ⟨rfl, -⟩
    unfold Token.withName
    split <;> rfl
  made := by
    rintro n _ ⟨rfl, -⟩ kind hkind hkeyword lexeme
    have hkept : Token.withName chosen R.new n.line ⟨kind, lexeme, n.line⟩ =
        ⟨kind, lexeme, n.line⟩ := if_neg fun h => hkind h.1
    refine ⟨by rw [hkept], ?_⟩
    rintro rfl
    exact absurd (by decide) hkeyword

/-- No place is chosen. -/
def nowhere (_ : Nat) : Bool := false

variable {R : Renaming} {lines : Nat → Nat} {chosen : Nat → Bool} {n t t' : Token}

theorem withName_of_not_chosen {name : String} {place : Nat} (h : chosen place = false)
    (n : Token) : n.withName chosen name place = n :=
  if_neg (by simp [h])

theorem withName_nowhere (name : String) (place : Nat) (n : Token) :
    n.withName nowhere name place = n :=
  withName_of_not_chosen rfl n

theorem lexeme_of_nowhere (h : (renamed R lines nowhere).token n t) : t.lexeme = n.lexeme := by
  rw [h.1, withName_nowhere]

/-- A token at a place that is not chosen. -/
theorem eq_of_not_chosen (h : (renamed R lines nowhere).token n t)
    (h' : (renamed R lines chosen).token n t') (hn : chosen n.line = false) : t' = t := by
  rw [h.1, h'.1, withName_nowhere, withName_of_not_chosen hn]

/-- A name at a place that is chosen. -/
theorem eq_of_chosen (h : (renamed R lines nowhere).token n t)
    (h' : (renamed R lines chosen).token n t') (hn : chosen n.line = true)
    (hkind : n.kind = .identifier) : t' = { t with lexeme := R.new } := by
  have hnamed : n.withName chosen R.new n.line = { n with lexeme := R.new } := if_pos ⟨hkind, hn⟩
  rw [h.1, h'.1, withName_nowhere, hnamed]

/-! ### Reading tokens at their places -/

/-- Tokens with their places among one another for lines. -/
def placed (tokens : List Token) : List Token := tokens.mapIdx fun k t => { t with line := k }

/-- The line of the token at a place. -/
def lineAt (tokens : List Token) (place : Nat) : Nat :=
  match tokens[place]? with
  | some t => t.line
  | none => place

variable {tokens : List Token}

theorem nodup_placed (tokens : List Token) : ((placed tokens).map Token.line).Nodup := by
  have hlines : (placed tokens).map Token.line = List.range tokens.length := by
    refine List.ext_getElem (by simp [placed]) fun k hk _ => ?_
    simp [placed]
  rw [hlines]
  exact List.nodup_range

/-- A token at its place is one of the tokens, except for its line. -/
theorem exists_of_mem_placed {n : Token} (hn : n ∈ placed tokens) :
    ∃ t ∈ tokens, n.kind = t.kind ∧ n.lexeme = t.lexeme := by
  obtain ⟨k, hk, rfl⟩ := List.mem_mapIdx.mp hn
  exact ⟨tokens[k], List.getElem_mem hk, rfl, rfl⟩

theorem placed_renamed (hself : ∀ t ∈ tokens, t.kind = .selfKw → t.lexeme ≠ R.old) :
    List.Forall₂ (renamed R (lineAt tokens) chosen).token (placed tokens)
      (tokens.mapIdx (Token.withName chosen R.new)) := by
  refine List.forall₂_iff_get.mpr ⟨by simp [placed], fun k hk hk' => ?_⟩
  have hlt : k < tokens.length := by simpa using hk'
  have hline : lineAt tokens k = tokens[k].line := by
    rw [lineAt, List.getElem?_eq_getElem hlt]
  simp only [placed, List.get_eq_getElem, List.getElem_mapIdx]
  refine ⟨?_, hself tokens[k] (List.getElem_mem hlt)⟩
  dsimp only
  rw [hline]
  unfold Token.withName
  dsimp only
  split <;> rfl

theorem mapIdx_nowhere (name : String) (tokens : List Token) :
    tokens.mapIdx (Token.withName nowhere name) = tokens := by
  refine List.ext_getElem (by simp) fun k _ _ => ?_
  rw [List.getElem_mapIdx, withName_nowhere]

/-- What is read from tokens at their places is like what is read from the tokens, whichever of them
have another name. -/
theorem parseProgram_placed (chosen : Nat → Bool)
    (hself : ∀ t ∈ tokens, t.kind = .selfKw → t.lexeme ≠ R.old) (firstId : Nat) :
    (parseProgram (placed tokens) firstId).Like (renamed R (lineAt tokens) chosen) 0
      (renamed R (lineAt tokens) chosen).stmts
      (parseProgram (tokens.mapIdx (Token.withName chosen R.new)) firstId) := by
  refine parseProgram_like (k := 0) (placed_renamed hself) (fun hnil => ?_) fun _ _ => rfl
  have hlength := congrArg List.length hnil
  simp only [placed, List.length_mapIdx, List.length_nil] at hlength
  rw [List.eq_nil_of_length_eq_zero hlength]
  exact ⟨rfl, nofun⟩

/-- What is read from tokens at their places is like what is read from the tokens. -/
theorem parseProgram_nowhere (hself : ∀ t ∈ tokens, t.kind = .selfKw → t.lexeme ≠ R.old)
    (firstId : Nat) :
    (parseProgram (placed tokens) firstId).Like (renamed R (lineAt tokens) nowhere) 0
      (renamed R (lineAt tokens) nowhere).stmts
      (parseProgram tokens firstId) := by
  have hread := parseProgram_placed nowhere hself firstId
  rwa [mapIdx_nowhere] at hread

/-- Other lines, and the same numbers. -/
def relined (lines : Nat → Nat) : Renumbering where
  line l l' := l' = lines l
  id i i' := i' = i
  id_iff := @Renumbering.id_iff_of_eq

theorem coveredBy_relined : (renamed R lines nowhere).likeness.CoveredBy (relined lines) := by
  have htoken : ∀ {n t}, (renamed R lines nowhere).token n t → n.Twin (relined lines) t := by
    rintro n t ⟨rfl, -⟩
    rw [withName_nowhere]
    exact ⟨rfl, rfl, rfl⟩
  exact ⟨fun h => htoken h.1, htoken, fun h => ⟨h.1, htoken h.2.1⟩, fun h => htoken h.1,
    fun h => htoken h.1⟩

end Parser

namespace Renaming

variable {R : Renaming}

/-- What a name becomes, if it is not the new one. -/
theorem spelled_eq {t : Token} (hnew : t.lexeme ≠ R.new) {mark : Bool} (renamed : Bool)
    (h : renamed = true ↔ t.lexeme = R.old ∧ mark = true) :
    R.spelled mark t = if renamed then { t with lexeme := R.new } else t := by
  unfold spelled
  cases renamed with
  | true =>
    obtain ⟨hold, rfl⟩ := h.mp rfl
    rw [hold, R.spell_old]
    rfl
  | false =>
    rcases R.spell_cases hnew mark with hsame | ⟨hmark, hold, -⟩
    · rw [hsame]
      rfl
    · exact absurd (h.mpr ⟨hold, hmark⟩) Bool.false_ne_true

end Renaming

section Trees

open Roteiro.Parser

variable {R : Renaming} {T : Depths} {place : Nat} {chosen : Nat → Bool} {lines : Nat → Nat}
  {Γ : List Layer} {n t t' : Token} {bs bs' : List Bool}

/-- A token that names nothing. -/
theorem word_renamed (hfits : (Use.word n).Fits R T place chosen)
    (h : (renamed R lines nowhere).token n t) (h' : (renamed R lines chosen).token n t') : t' = t :=
  eq_of_not_chosen h h' (hfits.word rfl)

theorem binder_renamed (hfits : (Use.declaration Γ n).Fits R T place chosen)
    (htells : Tells place R.old Γ) (hstands : StandsIn n Γ) {b b' : Bool}
    (h : (renamed R lines nowhere).likeness.binder b n t)
    (h' : (renamed R lines chosen).likeness.binder b' n t') :
    (R.freshLikeness T).binder (innermost (marksOf place Γ)) t t' := by
  obtain ⟨hplace, hlocal⟩ := hfits.declaration rfl
  have hlexeme := lexeme_of_nowhere h.1
  have hnew : t.lexeme ≠ R.new := by
    rw [hlexeme]
    exact hfits.fresh _ rfl
  have hrenamed : chosen n.line = true ↔
      t.lexeme = R.old ∧ innermost (marksOf place Γ) = true := by
    rw [hlexeme]
    constructor
    · intro hchosen
      have hline := hplace.mp hchosen
      exact ⟨(hlocal hline).1, hstands.marked (hlocal hline).2 hline⟩
    · rintro ⟨hold, hmark⟩
      exact hplace.mpr (htells.line_of_marked hstands hmark hold)
  refine ⟨?_, hnew⟩
  rw [Renaming.spelled_eq hnew (chosen n.line) hrenamed]
  split
  · next hchosen => exact eq_of_chosen h.1 h'.1 hchosen h.2
  · next hchosen => exact eq_of_not_chosen h.1 h'.1 (Bool.eq_false_iff.mpr hchosen)

theorem occurrence_renamed {id i i' : Nat} (hfits : (Use.occurrence Γ id n).Fits R T place chosen)
    (h : (renamed R lines nowhere).likeness.occurrence bs id n i t)
    (h' : (renamed R lines chosen).likeness.occurrence bs' id n i' t') :
    (R.freshLikeness T).occurrence (marksOf place Γ) i t i' t' := by
  obtain ⟨rfl, hn, hkind⟩ := h
  obtain ⟨rfl, hn', -⟩ := h'
  have hlexeme := lexeme_of_nowhere hn
  have hnew : t.lexeme ≠ R.new := by
    rw [hlexeme]
    exact hfits.fresh _ rfl
  have hrenamed := hfits.occurrence rfl _ rfl
  refine ⟨rfl, ?_, hnew⟩
  rw [Renaming.spelled_eq hnew (chosen n.line) (by rwa [hlexeme])]
  split
  · next hchosen =>
    have hold := (hrenamed.mp hchosen).1
    exact eq_of_chosen hn hn' hchosen (hkind.resolve_right fun hself => hn.2 hself hold)
  · next hchosen => exact eq_of_not_chosen hn hn' (Bool.eq_false_iff.mpr hchosen)

theorem receiver_renamed {id i i' : Nat} (hfits : (Use.receiver n).Fits R T place chosen)
    (h : (renamed R lines nowhere).likeness.occurrence bs id n i t)
    (h' : (renamed R lines chosen).likeness.occurrence bs' id n i' t') (marks : List Bool) :
    (R.freshLikeness T).occurrence marks i t i' t' := by
  obtain ⟨rfl, hn, -⟩ := h
  obtain ⟨rfl, hn', -⟩ := h'
  obtain ⟨hchosen, hold⟩ := hfits.receiver rfl
  have hspares : R.Spares t.lexeme := by
    rw [lexeme_of_nowhere hn]
    exact ⟨hold, hfits.fresh _ rfl⟩
  refine ⟨rfl, ?_, hspares.new⟩
  rw [eq_of_not_chosen hn hn' hchosen, Renaming.spelled, hspares.spell]

theorem named_renamed (hfits : (Use.named n).Fits R T place chosen) {mark b b' : Bool}
    (hmark : mark = true → n.lexeme ≠ R.old) (h : (renamed R lines nowhere).likeness.named b n t)
    (h' : (renamed R lines chosen).likeness.named b' n t') :
    (R.freshLikeness T).named mark t t' := by
  have hlexeme := lexeme_of_nowhere h.1
  refine ⟨eq_of_not_chosen h.1 h'.1 (hfits.named rfl), ?_, ?_⟩
  · rw [hlexeme]
    exact hfits.fresh _ rfl
  · rwa [hlexeme]

theorem line_of_named (hplace : chosen place = true) (hfits : (Use.named n).Fits R T place chosen) :
    n.line ≠ place := by
  rintro hline
  have hnot := hfits.named rfl
  rw [show (Use.named n).line = place from hline, hplace] at hnot
  cases hnot

/-- No function or class in the scope that has the mark has the name of the declaration. -/
theorem ne_old_of_marked (hfits : (Use.named n).Fits R T place chosen)
    (hplace : chosen place = true) (htells : Tells place R.old Γ) (hstands : StandsIn n Γ)
    (hmark : innermost (marksOf place Γ) = true) : n.lexeme ≠ R.old := by
  intro hold
  exact line_of_named hplace hfits (htells.line_of_marked hstands hmark hold)

/-! ### Scopes that open -/

variable {P : Nat → List Layer → String → Prop}

theorem lexeme_of_declaration (hfits : (Use.declaration Γ n).Fits R T place chosen)
    (hline : n.line = place) : n.lexeme = R.old :=
  ((hfits.declaration rfl).2 hline).1

/-- A statement that declares a name at the place declares the old one. -/
theorem lexeme_of_declared (hplace : chosen place = true) {s : Stmt} (hplaced : s.Placed P Γ)
    (hfits : ∀ u ∈ s.uses Γ, u.Fits R T place chosen) :
    ∀ n ∈ declared s, n.line = place → n.lexeme = R.old := by
  intro n hn hline
  match s with
  | .var name none =>
    cases List.mem_singleton.mp hn
    exact lexeme_of_declaration (hfits _ List.mem_cons_self) hline
  | .var name (some e) =>
    cases List.mem_singleton.mp hn
    exact lexeme_of_declaration (hfits _ List.mem_cons_self) hline
  | .function decl =>
    have hmem : Use.named n ∈ decl.name?.toList.map Use.named := List.mem_map_of_mem hn
    exact absurd hline (line_of_named hplace (hfits _ (List.mem_append_left _ hmem)))
  | .classDecl name methods =>
    cases List.mem_singleton.mp hn
    exact absurd hline (line_of_named hplace (hfits _ List.mem_cons_self))
  | .ifElse test yes none =>
    rw [declared, hplaced.2.2] at hn
    cases hn
  | .ifElse test yes (some no) =>
    rw [declared, hplaced.2.1.2, hplaced.2.2.2] at hn
    cases hn
  | .loop test body none =>
    rw [declared, hplaced.2.2] at hn
    cases hn
  | .loop test body (some step) =>
    rw [declared, hplaced.2.1.2] at hn
    cases hn
  | .expression _ | .print _ | .block _ | .exitLoop _ | .nextIteration _ | .result _ _ => cases hn

theorem lexeme_of_declaredBy (hplace : chosen place = true) {ss : List Stmt}
    (hplaced : placedStmts P ss Γ) (hfits : ∀ u ∈ usesOfStmts ss Γ, u.Fits R T place chosen) :
    ∀ n ∈ declaredBy ss, n.line = place → n.lexeme = R.old := by
  induction ss generalizing Γ with
  | nil => exact List.forall_mem_nil _
  | cons s ss ih =>
    obtain ⟨hs, hss⟩ := List.forall_mem_append.mp hfits
    rw [declaredBy, List.flatMap_cons]
    exact List.forall_mem_append.mpr
      ⟨lexeme_of_declared hplace hplaced.1 hs, ih hplaced.2 hss⟩

theorem tells_block (hplace : chosen place = true) {body : List Stmt}
    (hplaced : placedStmts P body (.ofBlock body :: Γ))
    (hfits : ∀ u ∈ usesOfStmts body (.ofBlock body :: Γ), u.Fits R T place chosen)
    (hdistinct : Distinct (declaredBy body)) : Tells place R.old (.ofBlock body :: Γ) :=
  .of_site (fun _ hS => site_ofBlock hS) hdistinct (lexeme_of_declaredBy hplace hplaced hfits)

theorem tells_call (hplace : chosen place = true) {f : FunctionDecl} (hplaced : f.Placed P Γ)
    (hfits : ∀ u ∈ f.uses Γ, u.Fits R T place chosen) (hdistinct : Distinct (declaredIn f)) :
    Tells place R.old (.ofCall f :: Γ) := by
  obtain ⟨name?, params, body⟩ := f
  obtain ⟨hparams, hbody⟩ := List.forall_mem_append.mp hfits
  refine .of_site (S := .call ⟨name?, params, body⟩) (fun _ hS => (Option.some.inj hS).symm)
    hdistinct (List.forall_mem_append.mpr ⟨fun n hn hline => ?_, ?_⟩)
  · exact lexeme_of_declaration (hparams _ (List.mem_map_of_mem hn)) hline
  · exact lexeme_of_declaredBy hplace hplaced.2 hbody

/-- The step of a loop declares nothing. -/
theorem tells_step {step : Stmt} (hstep : declared step = []) :
    Tells place R.old (.ofBlock [step] :: Γ) := by
  have hnames : declaredBy [step] = [] := by simp [declaredBy, hstep]
  refine .of_site (fun _ hS => site_ofBlock hS) ?_ ?_
  · rw [show Site.names (.block [step]) = [] from hnames]
    exact List.nodup_nil
  · rw [show Site.names (.block [step]) = [] from hnames]
    exact List.forall_mem_nil _

/-! ### Trees -/

theorem standsIn_call {name? : Option Token} {params : List Token} {body : List Stmt}
    (hn : n ∈ params) : StandsIn n (.ofCall ⟨name?, params, body⟩ :: Γ) := by
  rintro _ ⟨⟩
  exact ⟨.call ⟨name?, params, body⟩, rfl, List.mem_append_left _ hn⟩

theorem likeParams_renamed (htells : Tells place R.old Γ) {params ts ts' : List Token} {b b' : Bool}
    (hfits : ∀ u ∈ params.map (Use.declaration Γ), u.Fits R T place chosen)
    (hstands : ∀ n ∈ params, StandsIn n Γ)
    (h : List.Forall₂ ((renamed R lines nowhere).likeness.binder b) params ts)
    (h' : List.Forall₂ ((renamed R lines chosen).likeness.binder b') params ts') :
    List.Forall₂ ((R.freshLikeness T).binder (innermost (marksOf place Γ))) ts ts' := by
  induction h generalizing ts' with
  | nil =>
    cases h'
    exact .nil
  | cons hn _ ih =>
    cases h' with
    | cons hn' h' =>
      obtain ⟨hfn, hfns⟩ := List.forall_mem_cons.mp hfits
      obtain ⟨hsn, hsns⟩ := List.forall_mem_cons.mp hstands
      exact .cons (binder_renamed hfn htells hsn hn hn') (ih hfns hsns h')

mutual

theorem Expr.like_renamed (hplace : chosen place = true) (e : Expr) {Γ : List Layer}
    (hfits : ∀ u ∈ e.uses Γ, u.Fits R T place chosen) (hplaced : e.Placed P Γ)
    (hapart : Apart (.expr e)) {bs bs' : List Bool} {t t' : Expr}
    (h : e.Like (renamed R lines nowhere).likeness bs t)
    (h' : e.Like (renamed R lines chosen).likeness bs' t') :
    t.Like (R.freshLikeness T) (marksOf place Γ) t' := by
  match e, h, h' with
  | .literal _, .literal, .literal => exact .literal
  | .unary _ e, .unary ho he, .unary ho' he' =>
    obtain ⟨hfo, hfe⟩ := List.forall_mem_cons.mp hfits
    exact .unary (word_renamed hfo ho.1 ho'.1)
      (Expr.like_renamed hplace e hfe hplaced (hapart.part [] (by simp)) he he')
  | .group e, .group he, .group he' =>
    exact .group (Expr.like_renamed hplace e hfits hplaced (hapart.part [] (by simp)) he he')
  | .binary l _ r, .binary hl ho hr, .binary hl' ho' hr' =>
    obtain ⟨hfl, hfits⟩ := List.forall_mem_append.mp hfits
    obtain ⟨hfo, hfr⟩ := List.forall_mem_cons.mp hfits
    exact .binary (Expr.like_renamed hplace l hfl hplaced.1 (hapart.part [] (by simp)) hl hl')
      (word_renamed hfo ho.1 ho'.1)
      (Expr.like_renamed hplace r hfr hplaced.2 (hapart.part [] (by simp)) hr hr')
  | .logical l _ r, .logical hl ho hr, .logical hl' ho' hr' =>
    obtain ⟨hfl, hfits⟩ := List.forall_mem_append.mp hfits
    obtain ⟨hfo, hfr⟩ := List.forall_mem_cons.mp hfits
    exact .logical (Expr.like_renamed hplace l hfl hplaced.1 (hapart.part [] (by simp)) hl hl')
      (word_renamed hfo ho ho')
      (Expr.like_renamed hplace r hfr hplaced.2 (hapart.part [] (by simp)) hr hr')
  | .conditional test yes no, .conditional htest hyes hno, .conditional htest' hyes' hno' =>
    obtain ⟨hftest, hfits⟩ := List.forall_mem_append.mp hfits
    obtain ⟨hfyes, hfno⟩ := List.forall_mem_append.mp hfits
    exact .conditional
      (Expr.like_renamed hplace test hftest hplaced.1 (hapart.part [] (by simp)) htest htest')
      (Expr.like_renamed hplace yes hfyes hplaced.2.1 (hapart.part [] (by simp)) hyes hyes')
      (Expr.like_renamed hplace no hfno hplaced.2.2 (hapart.part [] (by simp)) hno hno')
  | .var _ _, .var hn, .var hn' =>
    exact .var (occurrence_renamed (hfits _ List.mem_cons_self) hn hn')
  | .self _ _, .self hn, .self hn' =>
    exact .self (receiver_renamed (hfits _ List.mem_cons_self) hn hn' _)
  | .assign _ _ value, .assign hn he, .assign hn' he' =>
    obtain ⟨hfn, hfe⟩ := List.forall_mem_cons.mp hfits
    exact .assign (occurrence_renamed hfn hn hn')
      (Expr.like_renamed hplace value hfe hplaced.2 (hapart.part [] (by simp)) he he')
  | .call callee _ arguments, .call hf hparen hes, .call hf' hparen' hes' =>
    obtain ⟨hff, hfits⟩ := List.forall_mem_append.mp hfits
    obtain ⟨hfes, hfparen⟩ := List.forall_mem_append.mp hfits
    exact .call (Expr.like_renamed hplace callee hff hplaced.1 (hapart.part [] (by simp)) hf hf')
      (word_renamed (hfparen _ List.mem_cons_self) hparen.1 hparen'.1)
      (likeExprs_renamed hplace arguments hfes hplaced.2
        (fun e he => hapart.part [] (by simp [he])) hes hes')
  | .lambda decl, .lambda hf, .lambda hf' =>
    obtain ⟨hfname, hfbody⟩ := List.forall_mem_append.mp hfits
    refine .lambda (FunctionDecl.like_renamed hplace false decl hfbody hplaced
      (hapart.opened _ List.mem_cons_self)
      (fun s hs => hapart.part [.function decl] (by simp [hs])) (fun n hn => ⟨?_, nofun⟩) hf hf')
    exact hfname _ (List.mem_map_of_mem (Option.mem_toList.mpr hn))
  | .array _ elements, .array hb hes, .array hb' hes' =>
    obtain ⟨hfb, hfes⟩ := List.forall_mem_cons.mp hfits
    exact .array (word_renamed hfb hb.1 hb'.1)
      (likeExprs_renamed hplace elements hfes hplaced
        (fun e he => hapart.part [] (by simp [he])) hes hes')
  | .index _ base key, .index hb hbase hkey, .index hb' hbase' hkey' =>
    obtain ⟨hfbase, hfits⟩ := List.forall_mem_append.mp hfits
    obtain ⟨hfb, hfkey⟩ := List.forall_mem_cons.mp hfits
    exact .index (word_renamed hfb hb.1 hb'.1)
      (Expr.like_renamed hplace base hfbase hplaced.1 (hapart.part [] (by simp)) hbase hbase')
      (Expr.like_renamed hplace key hfkey hplaced.2 (hapart.part [] (by simp)) hkey hkey')
  | .indexSet _ base key value, .indexSet hb hbase hkey he, .indexSet hb' hbase' hkey' he' =>
    obtain ⟨hfbase, hfits⟩ := List.forall_mem_append.mp hfits
    obtain ⟨hfb, hfits⟩ := List.forall_mem_cons.mp hfits
    obtain ⟨hfkey, hfe⟩ := List.forall_mem_append.mp hfits
    exact .indexSet (word_renamed hfb hb.1 hb'.1)
      (Expr.like_renamed hplace base hfbase hplaced.1 (hapart.part [] (by simp)) hbase hbase')
      (Expr.like_renamed hplace key hfkey hplaced.2.1 (hapart.part [] (by simp)) hkey hkey')
      (Expr.like_renamed hplace value hfe hplaced.2.2 (hapart.part [] (by simp)) he he')
  | .get object _, .get he hn, .get he' hn' =>
    obtain ⟨hfe, hfn⟩ := List.forall_mem_append.mp hfits
    exact .get (Expr.like_renamed hplace object hfe hplaced (hapart.part [] (by simp)) he he')
      (word_renamed (hfn _ List.mem_cons_self) hn.1 hn'.1)
  | .set object _ value, .set hobject hn he, .set hobject' hn' he' =>
    obtain ⟨hfobject, hfits⟩ := List.forall_mem_append.mp hfits
    obtain ⟨hfn, hfe⟩ := List.forall_mem_cons.mp hfits
    exact .set
      (Expr.like_renamed hplace object hfobject hplaced.1 (hapart.part [] (by simp)) hobject
        hobject')
      (word_renamed hfn hn.1 hn'.1)
      (Expr.like_renamed hplace value hfe hplaced.2 (hapart.part [] (by simp)) he he')
termination_by structural e

theorem likeExprs_renamed (hplace : chosen place = true) (es : List Expr) {Γ : List Layer}
    (hfits : ∀ u ∈ usesOfExprs es Γ, u.Fits R T place chosen) (hplaced : placedExprs P es Γ)
    (hapart : ∀ e ∈ es, Apart (.expr e)) {bs bs' : List Bool} {ts ts' : List Expr}
    (h : ExprsLike (renamed R lines nowhere).likeness bs es ts)
    (h' : ExprsLike (renamed R lines chosen).likeness bs' es ts') :
    ExprsLike (R.freshLikeness T) (marksOf place Γ) ts ts' := by
  match es, h, h' with
  | [], .nil, .nil => exact .nil
  | e :: es, .cons he hes, .cons he' hes' =>
    obtain ⟨hfe, hfes⟩ := List.forall_mem_append.mp hfits
    obtain ⟨hae, haes⟩ := List.forall_mem_cons.mp hapart
    exact .cons (Expr.like_renamed hplace e hfe hplaced.1 hae he he')
      (likeExprs_renamed hplace es hfes hplaced.2 haes hes hes')
termination_by structural es

theorem Stmt.like_renamed (hplace : chosen place = true) (s : Stmt) {Γ : List Layer}
    (hfits : ∀ u ∈ s.uses Γ, u.Fits R T place chosen) (hplaced : s.Placed P Γ)
    (htells : Tells place R.old Γ) (hapart : Apart (.stmt s)) {bs bs' : List Bool} {t t' : Stmt}
    (h : s.Like (renamed R lines nowhere).likeness bs t)
    (h' : s.Like (renamed R lines chosen).likeness bs' t') :
    t.Like (R.freshLikeness T) (marksOf place Γ) t' := by
  match s, h, h' with
  | .expression e, .expression he, .expression he' =>
    exact .expression (Expr.like_renamed hplace e hfits hplaced (hapart.part [] (by simp)) he he')
  | .print e, .print he, .print he' =>
    exact .print (Expr.like_renamed hplace e hfits hplaced (hapart.part [] (by simp)) he he')
  | .var _ none, .var hn, .var hn' =>
    exact .var (binder_renamed (hfits _ List.mem_cons_self) htells
      (hplaced.standsIn List.mem_cons_self) hn hn')
  | .var _ (some e), .varValue hn he, .varValue hn' he' =>
    obtain ⟨hfn, hfe⟩ := List.forall_mem_cons.mp hfits
    have hvalue := Expr.like_renamed hplace e hfe hplaced.2 (hapart.part [] (by simp)) he he'
    rw [marksOf_started] at hvalue
    exact .varValue (binder_renamed hfn htells (hplaced.1.standsIn List.mem_cons_self) hn hn')
      hvalue
  | .block body, .block hss, .block hss' =>
    have hbody := tells_block hplace hplaced hfits (hapart.opened _ List.mem_cons_self)
    exact .block (likeStmts_renamed hplace body hfits hplaced hbody
      (fun s hs => hapart.part [.block] (by simp [hs])) hss hss')
  | .ifElse test yes none, .ifThen htest hyes, .ifThen htest' hyes' =>
    obtain ⟨hftest, hfyes⟩ := List.forall_mem_append.mp hfits
    exact .ifThen
      (Expr.like_renamed hplace test hftest hplaced.1 (hapart.part [] (by simp)) htest htest')
      (Stmt.like_renamed hplace yes hfyes hplaced.2.1 htells (hapart.part [] (by simp)) hyes hyes')
  | .ifElse test yes (some no), .ifElse htest hyes hno, .ifElse htest' hyes' hno' =>
    obtain ⟨hftest, hfits⟩ := List.forall_mem_append.mp hfits
    obtain ⟨hfyes, hfno⟩ := List.forall_mem_append.mp hfits
    exact .ifElse
      (Expr.like_renamed hplace test hftest hplaced.1 (hapart.part [] (by simp)) htest htest')
      (Stmt.like_renamed hplace yes hfyes hplaced.2.1.1 htells (hapart.part [] (by simp)) hyes
        hyes')
      (Stmt.like_renamed hplace no hfno hplaced.2.2.1 htells (hapart.part [] (by simp)) hno hno')
  | .loop test body none, .loop htest hbody, .loop htest' hbody' =>
    obtain ⟨hftest, hfbody⟩ := List.forall_mem_append.mp hfits
    exact .loop
      (Expr.like_renamed hplace test hftest hplaced.1 (hapart.part [] (by simp)) htest htest')
      (Stmt.like_renamed hplace body hfbody hplaced.2.1 htells (hapart.part [.loop] (by simp)) hbody
        hbody')
  | .loop test body (some step), .loopStep htest hbody hstep, .loopStep htest' hbody' hstep' =>
    obtain ⟨hftest, hfits⟩ := List.forall_mem_append.mp hfits
    obtain ⟨hfbody, hfstep⟩ := List.forall_mem_append.mp hfits
    exact .loopStep
      (Expr.like_renamed hplace test hftest hplaced.1 (hapart.part [] (by simp)) htest htest')
      (Stmt.like_renamed hplace body hfbody hplaced.2.1.1 htells (hapart.part [.loop] (by simp))
        hbody hbody')
      (Stmt.like_renamed hplace step hfstep hplaced.2.2.1 (tells_step hplaced.2.2.2)
        (hapart.part [.step] (by simp)) hstep hstep')
  | .exitLoop _, .exitLoop hk, .exitLoop hk' =>
    exact .exitLoop (word_renamed (hfits _ List.mem_cons_self) hk hk')
  | .nextIteration _, .nextIteration hk, .nextIteration hk' =>
    exact .nextIteration (word_renamed (hfits _ List.mem_cons_self) hk hk')
  | .function decl, .function hname hf, .function _ hf' =>
    obtain ⟨hfname, hfbody⟩ := List.forall_mem_append.mp hfits
    have hdistinct : Distinct (declaredIn decl) := hapart.opened _ List.mem_cons_self
    have hnames : ∀ n ∈ decl.name?, (Use.named n).Fits R T place chosen ∧
        (innermost (marksOf place Γ) = true → n.lexeme ≠ R.old) := by
      intro n hn
      have hmem := Option.mem_toList.mpr hn
      have hfn := hfname _ (List.mem_map_of_mem hmem)
      exact ⟨hfn, ne_old_of_marked hfn hplace htells (hplaced.1.standsIn hmem)⟩
    have hdecl := FunctionDecl.like_renamed hplace _ decl hfbody hplaced.2 hdistinct
      (fun s hs => hapart.part [.function decl] (by simp [hs])) hnames hf hf'
    rw [marksOf_introduced] at hdecl
    -- a function that the parser declares has a name
    refine .function (fun hnone => (hname ?_).elim) hdecl
    cases hf with
    | mk hn _ _ =>
      cases hn with
      | none => rfl
      | some _ => cases hnone
  | .result _ none, .result hk, .result hk' =>
    exact .result (word_renamed (hfits _ List.mem_cons_self) hk hk')
  | .result _ (some e), .resultValue hk he, .resultValue hk' he' =>
    obtain ⟨hfk, hfe⟩ := List.forall_mem_cons.mp hfits
    exact .resultValue (word_renamed hfk hk hk')
      (Expr.like_renamed hplace e hfe hplaced (hapart.part [] (by simp)) he he')
  | .classDecl _ methods, .classDecl hn hfs, .classDecl hn' hfs' =>
    obtain ⟨hfn, hffs⟩ := List.forall_mem_cons.mp hfits
    have hmethods := likeMethods_renamed hplace methods hffs hplaced.2
      (fun f hf => hapart.opened _ (List.mem_map_of_mem hf))
      (fun f hf s hs => hapart.part [.method f, .classBody]
        (List.mem_flatMap.mpr ⟨f, hf, List.mem_map_of_mem hs⟩)) hfs hfs'
    rw [marksOf_introduced] at hmethods
    exact .classDecl (named_renamed hfn (ne_old_of_marked hfn hplace htells
      (hplaced.1.standsIn List.mem_cons_self)) hn hn') hmethods
termination_by structural s

theorem likeStmts_renamed (hplace : chosen place = true) (ss : List Stmt) {Γ : List Layer}
    (hfits : ∀ u ∈ usesOfStmts ss Γ, u.Fits R T place chosen) (hplaced : placedStmts P ss Γ)
    (htells : Tells place R.old Γ) (hapart : ∀ s ∈ ss, Apart (.stmt s)) {bs bs' : List Bool}
    {ts ts' : List Stmt} (h : StmtsLike (renamed R lines nowhere).likeness bs ss ts)
    (h' : StmtsLike (renamed R lines chosen).likeness bs' ss ts') :
    StmtsLike (R.freshLikeness T) (marksOf place Γ) ts ts' := by
  match ss, h, h' with
  | [], .nil, .nil => exact .nil
  | s :: ss, .cons hs hss, .cons hs' hss' =>
    obtain ⟨hfs, hfss⟩ := List.forall_mem_append.mp hfits
    obtain ⟨has, hass⟩ := List.forall_mem_cons.mp hapart
    have hothers := likeStmts_renamed hplace ss hfss hplaced.2 (htells.introduced _) hass hss hss'
    rw [marksOf_introduced] at hothers
    exact .cons (Stmt.like_renamed hplace s hfs hplaced.1 htells has hs hs') hothers
termination_by structural ss

theorem FunctionDecl.like_renamed (hplace : chosen place = true) (b : Bool) (f : FunctionDecl)
    {Γ : List Layer} (hfits : ∀ u ∈ f.uses Γ, u.Fits R T place chosen) (hplaced : f.Placed P Γ)
    (hdistinct : Distinct (declaredIn f)) (hapart : ∀ s ∈ f.body, Apart (.stmt s))
    (hname : ∀ n ∈ f.name?, (Use.named n).Fits R T place chosen ∧ (b = true → n.lexeme ≠ R.old))
    {c c' : Bool} {bs bs' : List Bool} {t t' : FunctionDecl}
    (h : f.Like (renamed R lines nowhere).likeness c bs t)
    (h' : f.Like (renamed R lines chosen).likeness c' bs' t') :
    t.Like (R.freshLikeness T) b (marksOf place Γ) t' := by
  have htells := tells_call hplace hplaced hfits hdistinct
  match f, h, h' with
  | ⟨name?, params, body⟩, .mk hn hparams hbody, .mk hn' hparams' hbody' =>
    obtain ⟨hfparams, hfbody⟩ := List.forall_mem_append.mp hfits
    refine .mk ?_ ?_ (likeStmts_renamed hplace body hfbody hplaced.2 htells hapart hbody hbody')
    · cases hn with
      | none =>
        cases hn' with
        | none => exact .none
      | some hn =>
        cases hn' with
        | some hn' => exact .some (named_renamed (hname _ rfl).1 (hname _ rfl).2 hn hn')
    · exact likeParams_renamed htells hfparams (fun n hn => standsIn_call hn) hparams hparams'
termination_by structural f

theorem likeMethods_renamed (hplace : chosen place = true) (fs : List FunctionDecl)
    {Γ : List Layer} (hfits : ∀ u ∈ usesOfMethods fs Γ, u.Fits R T place chosen)
    (hplaced : placedMethods P fs Γ) (hdistinct : ∀ f ∈ fs, Distinct (declaredIn f))
    (hapart : ∀ f ∈ fs, ∀ s ∈ f.body, Apart (.stmt s)) {bs bs' : List Bool}
    {ts ts' : List FunctionDecl} (h : FunctionsLike (renamed R lines nowhere).likeness bs fs ts)
    (h' : FunctionsLike (renamed R lines chosen).likeness bs' fs ts') :
    FunctionsLike (R.freshLikeness T) (false :: marksOf place Γ) ts ts' := by
  match fs, h, h' with
  | [], .nil, .nil => exact .nil
  | f :: fs, .cons hf hfs, .cons hf' hfs' =>
    obtain ⟨hfname, hfits⟩ := List.forall_mem_append.mp hfits
    obtain ⟨hff, hffs⟩ := List.forall_mem_append.mp hfits
    obtain ⟨hdf, hdfs⟩ := List.forall_mem_cons.mp hdistinct
    obtain ⟨haf, hafs⟩ := List.forall_mem_cons.mp hapart
    refine .cons (FunctionDecl.like_renamed hplace false f hff hplaced.1 hdf haf
      (fun n hn => ⟨?_, nofun⟩) hf hf')
      (likeMethods_renamed hplace fs hffs hplaced.2 hdfs hafs hfs hfs')
    exact hfname _ (List.mem_map_of_mem (Option.mem_toList.mpr hn))
termination_by structural fs

end

end Trees

end Roteiro
