import Mathlib.Algebra.Group.Nat.Defs
import Roteiro.Proofs.Tree.Marks
import Roteiro.Proofs.Parser.Renaming
import Roteiro.Proofs.Parser.Twins
import Roteiro.Proofs.Scope.Offences
import Roteiro.Proofs.Scope.Twins

/-!
# How often a mistake is reported

The tree of a counted loop has two copies of its step, and the analysis passes over both. So it says
everything twice that there is to say about the tokens of the step, and as many times again for each
further loop whose step this loop stands in. About every other token each thing is said once.

Tokens that are written alike, on one line, cannot be told apart in a report. So the count is that
of the reports about the tokens at their places.

* `Weighs`: what is listed is said of the tokens of a tree, each thing twice for every step.
* `reports_often`: every offence is reported, and once if its token stands in no step.
-/

namespace Roteiro

namespace Scope

/-- Complaints about the tokens that are listed, each made twice for every step around its token. -/
structure Weighs (ms : List Mark) (rs : List Report) : Prop where
  about : ∀ r ∈ rs, ∃ m ∈ ms, ∃ cause, r = .resolve m.token cause
  often : (ms.map Mark.token).Nodup → ∀ m ∈ ms, ∀ cause, .resolve m.token cause ∈ rs →
    rs.count (.resolve m.token cause) = 2 ^ m.steps

variable {ms ms' : List Mark} {rs rs' : List Report} {t : Token}

theorem Weighs.nil : Weighs [] [] where
  about _ hr := absurd hr List.not_mem_nil
  often _ _ hm := absurd hm List.not_mem_nil

/-- There is something to say about a token only where it is listed. -/
theorem Weighs.mem_token (h : Weighs ms rs) {cause : Cause} (hr : .resolve t cause ∈ rs) :
    t ∈ ms.map Mark.token := by
  obtain ⟨m, hm, cause', heq⟩ := h.about _ hr
  cases heq
  exact List.mem_map_of_mem hm

/-- A list says nothing about a token that does not stand in it. -/
theorem Weighs.count_eq_zero (h : Weighs ms rs) {cause : Cause} (ht : t ∉ ms.map Mark.token) :
    rs.count (.resolve t cause) = 0 :=
  List.count_eq_zero.mpr fun hr => ht (h.mem_token hr)

theorem Weighs.append (h : Weighs ms rs) (h' : Weighs ms' rs') :
    Weighs (ms ++ ms') (rs ++ rs') := by
  refine ⟨fun r hr => ?_, fun hnodup m hm cause hr => ?_⟩
  · rcases List.mem_append.mp hr with hr | hr
    · obtain ⟨m, hm, hr⟩ := h.about r hr
      exact ⟨m, List.mem_append_left _ hm, hr⟩
    · obtain ⟨m, hm, hr⟩ := h'.about r hr
      exact ⟨m, List.mem_append_right _ hm, hr⟩
  · rw [List.map_append, List.nodup_append'] at hnodup
    obtain ⟨hfirst, hsecond, hdisjoint⟩ := hnodup
    rw [List.count_append]
    rcases List.mem_append.mp hm with hm | hm
    · have hnone : m.token ∉ ms'.map Mark.token := hdisjoint (List.mem_map_of_mem hm)
      have hr : .resolve m.token cause ∈ rs :=
        (List.mem_append.mp hr).resolve_right fun hr => hnone (h'.mem_token hr)
      rw [h'.count_eq_zero hnone, h.often hfirst m hm cause hr, Nat.add_zero]
    · have hnone : m.token ∉ ms.map Mark.token := fun hm' => hdisjoint hm' (List.mem_map_of_mem hm)
      have hr : .resolve m.token cause ∈ rs' :=
        (List.mem_append.mp hr).resolve_left fun hr => hnone (h.mem_token hr)
      rw [h.count_eq_zero hnone, h'.often hsecond m hm cause hr, Nat.zero_add]

/-- A token with no step around it, and different things to say about it. -/
theorem Weighs.single (habout : ∀ r ∈ rs, ∃ cause, r = .resolve t cause) (hnodup : rs.Nodup) :
    Weighs [mark t] rs := by
  refine ⟨fun r hr => ⟨mark t, List.mem_singleton_self _, habout r hr⟩, fun _ m hm cause hr => ?_⟩
  cases List.mem_singleton.mp hm
  exact List.count_eq_one_of_mem hnodup hr

/-- One thing to say at most. -/
theorem Weighs.complainIf (P : Prop) [Decidable P] (t : Token) (cause : Cause) :
    Weighs [mark t] (if P then [.resolve t cause] else []) := by
  refine .single (fun r hr => ?_) ?_
  · split at hr
    · exact ⟨cause, List.mem_singleton.mp hr⟩
    · cases hr
  · split
    · exact List.nodup_singleton _
    · exact List.nodup_nil

/-- What is said about a step. -/
theorem Weighs.twice (h : Weighs ms rs) : Weighs (ms.map Mark.deeper) (rs ++ rs) := by
  refine ⟨fun r hr => ?_, fun hnodup m hm cause hr => ?_⟩
  · obtain ⟨m, hm, hr⟩ := h.about r (or_self_iff.mp (List.mem_append.mp hr))
    exact ⟨m.deeper, List.mem_map_of_mem hm, hr⟩
  · obtain ⟨n, hn, rfl⟩ := List.mem_map.mp hm
    rw [List.map_map, token_comp_deeper] at hnodup
    have hr : .resolve n.token cause ∈ rs := or_self_iff.mp (List.mem_append.mp hr)
    have honce := h.often hnodup n hn cause hr
    show (rs ++ rs).count (.resolve n.token cause) = 2 ^ (n.steps + 1)
    rw [List.count_append, honce, Nat.pow_succ, Nat.mul_two]

theorem Weighs.perm (h : Weighs ms rs) (hperm : rs.Perm rs') : Weighs ms rs' := by
  refine ⟨fun r hr => h.about r (hperm.mem_iff.mpr hr), fun hnodup m hm cause hr => ?_⟩
  rw [← hperm.count_eq]
  exact h.often hnodup m hm cause (hperm.mem_iff.mpr hr)

theorem weighs_clashes (names : List Token) (p : Place) :
    Weighs (names.map mark) (p.clashes names) := by
  induction names generalizing p with
  | nil => exact .nil
  | cons name names ih => exact (Weighs.complainIf _ name .alreadyDeclared).append (ih _)

end Scope

open Scope

mutual

theorem Expr.weighs (e : Expr) (h : e.Orderly) (p : Place) : Weighs e.marks (e.findings p) := by
  have hparts := (Node.orderly_iff.mp h).2
  match e with
  | .literal _ => exact .nil
  | .unary _ operand => exact operand.weighs (by simpa using hparts) p
  | .group inner => exact inner.weighs (by simpa using hparts) p
  | .binary left _ right | .logical left _ right =>
    obtain ⟨hleft, hright⟩ : left.Orderly ∧ right.Orderly := by simpa using hparts
    exact (left.weighs hleft p).append (right.weighs hright p)
  | .conditional test yes no =>
    obtain ⟨htest, hyes, hno⟩ : test.Orderly ∧ yes.Orderly ∧ no.Orderly := by simpa using hparts
    exact (test.weighs htest p).append ((yes.weighs hyes p).append (no.weighs hno p))
  | .var _ name => exact .complainIf _ name .ownInitializer
  | .assign _ _ value => exact value.weighs (by simpa using hparts) p
  | .call callee _ arguments =>
    obtain ⟨hcallee, harguments⟩ : callee.Orderly ∧ ∀ e ∈ arguments, e.Orderly := by
      simpa using hparts
    exact (callee.weighs hcallee p).append (weighsExprs arguments harguments p)
  | .lambda decl => exact decl.weighs (by simpa using hparts) _ p
  | .array _ elements => exact weighsExprs elements (by simpa using hparts) p
  | .index _ base key =>
    obtain ⟨hbase, hkey⟩ : base.Orderly ∧ key.Orderly := by simpa using hparts
    exact (base.weighs hbase p).append (key.weighs hkey p)
  | .indexSet _ base key value =>
    obtain ⟨hbase, hkey, hvalue⟩ : base.Orderly ∧ key.Orderly ∧ value.Orderly := by
      simpa using hparts
    exact (base.weighs hbase p).append ((key.weighs hkey p).append (value.weighs hvalue p))
  | .get object _ => exact object.weighs (by simpa using hparts) p
  | .set object _ value =>
    obtain ⟨hobject, hvalue⟩ : object.Orderly ∧ value.Orderly := by simpa using hparts
    exact (object.weighs hobject p).append (value.weighs hvalue p)
  | .self _ keyword =>
    have hkeyword := Weighs.complainIf (¬ p.inClass = true) keyword .selfOutsideClass
    rwa [ite_not] at hkeyword

theorem weighsExprs (es : List Expr) (h : ∀ e ∈ es, e.Orderly) (p : Place) :
    Weighs (marksOfExprs es) (findingsOfExprs es p) := by
  match es with
  | [] => exact .nil
  | e :: es =>
    obtain ⟨he, hes⟩ := List.forall_mem_cons.mp h
    exact (e.weighs he p).append (weighsExprs es hes p)

theorem Stmt.weighs (s : Stmt) (h : s.Orderly) (around : Body) (inLoop : Bool) (p : Place) :
    Weighs s.marks (s.findings around inLoop p) := by
  obtain ⟨hregular, hparts⟩ := Node.orderly_iff.mp h
  match s with
  | .expression expr => exact expr.weighs (by simpa using hparts) p
  | .print expr => exact expr.weighs (by simpa using hparts) p
  | .var name none => exact weighs_clashes [name] p
  | .var name (some value) =>
    exact (weighs_clashes [name] p).append (value.weighs (by simpa using hparts) _)
  | .block body => exact weighsStmts body (by simpa using hparts) around inLoop _
  | .ifElse test yes none =>
    obtain ⟨htest, hyes⟩ : test.Orderly ∧ yes.Orderly := by simpa using hparts
    exact (test.weighs htest p).append (yes.weighs hyes around inLoop p)
  | .ifElse test yes (some no) =>
    obtain ⟨htest, hyes, hno⟩ : test.Orderly ∧ yes.Orderly ∧ no.Orderly := by simpa using hparts
    refine (test.weighs htest p).append ?_
    exact (yes.weighs hyes around inLoop p).append (no.weighs hno around inLoop _)
  | .loop test body none =>
    obtain ⟨htest, hbody⟩ : test.Orderly ∧ body.Orderly := by simpa using hparts
    exact (test.weighs htest p).append (body.weighs hbody around true p)
  | .loop test body (some step) =>
    obtain ⟨htest, hbody, hstep⟩ : test.Orderly ∧ body.Orderly ∧ step.Orderly := by
      simpa using hparts
    obtain ⟨b, e, hblock, hexpression, hb⟩ := hregular
    cases body with
    | block body =>
      cases body with
      | cons first rest =>
        have hfirst : first.Orderly :=
          (Node.orderly_iff.mp hbody).2 ([.block], .stmt first) (by simp)
        have hrepeated := first.weighs hfirst around true (p.inside [])
        -- the step is listed once, and both of its copies are found fault with
        have htwice := (step.weighs hstep around inLoop (p.inside [])).twice
        cases hblock
        subst hexpression
        rw [findings_loop test e hb]
        exact (test.weighs htest p).append ((htwice.append hrepeated).perm List.perm_append_comm)
      | nil => cases hblock
    | _ => cases hblock
  | .exitLoop keyword =>
    have hkeyword := Weighs.complainIf (¬ inLoop = true) keyword .breakOutsideLoop
    rwa [ite_not] at hkeyword
  | .nextIteration keyword =>
    have hkeyword := Weighs.complainIf (¬ inLoop = true) keyword .continueOutsideLoop
    rwa [ite_not] at hkeyword
  | .function decl =>
    exact (weighs_clashes decl.name?.toList p).append (decl.weighs (by simpa using hparts) _ _)
  | .result keyword none => exact .complainIf _ keyword .topLevelReturn
  | .result keyword (some value) =>
    have hkeyword : Weighs [mark keyword]
        ((if around = .program then [.resolve keyword .topLevelReturn] else []) ++
          (if around = .initializer then [.resolve keyword .initializerReturn] else [])) := by
      refine .single (fun r hr => ?_) ?_ <;> cases around <;> simp_all
    have hboth := hkeyword.append (value.weighs (by simpa using hparts) p)
    rwa [List.append_assoc] at hboth
  | .classDecl name methods =>
    refine (weighs_clashes [name] p).append (weighsMethods methods (fun f hf s hs => ?_) _)
    exact hparts _ (List.mem_flatMap.mpr ⟨f, hf, List.mem_map_of_mem hs⟩)

theorem weighsStmts (ss : List Stmt) (h : ∀ s ∈ ss, s.Orderly) (around : Body) (inLoop : Bool)
    (p : Place) : Weighs (marksOfStmts ss) (findingsOfStmts ss around inLoop p) := by
  match ss with
  | [] => exact .nil
  | s :: ss =>
    obtain ⟨hs, hss⟩ := List.forall_mem_cons.mp h
    exact (s.weighs hs around inLoop p).append (weighsStmts ss hss around inLoop _)

theorem FunctionDecl.weighs (f : FunctionDecl) (h : f.Orderly) (body : Body) (p : Place) :
    Weighs f.marks (f.findings body p) := by
  match f with
  | ⟨_, params, statements⟩ =>
    exact (weighs_clashes params _).append (weighsStmts statements h body false _)

theorem weighsMethods (fs : List FunctionDecl) (h : ∀ f ∈ fs, f.Orderly) (p : Place) :
    Weighs (marksOfMethods fs) (findingsOfMethods fs p) := by
  match fs with
  | [] => exact .nil
  | f :: fs =>
    obtain ⟨hf, hfs⟩ := List.forall_mem_cons.mp h
    exact (f.weighs hf _ p).append (weighsMethods fs hfs p)

end

namespace Scope

open Roteiro.Parser

/-- A program is found fault with for its offences and for nothing else, and for each of them once,
and twice as often for every step of a counted loop that its token stands in. -/
structure FoundFault (program : List Stmt) (rs : List Report) : Prop where
  offence : ∀ r ∈ rs, ∃ t cause, r = .resolve t cause ∧ Offends program t cause
  often : ∀ {t cause}, Offends program t cause →
    ∃ m ∈ marksOfStmts program, m.token = t ∧ rs.count (.resolve t cause) = 2 ^ m.steps

/-- If no two tokens of the program are the same. -/
theorem foundFault_of_nodup {program : List Stmt} (h : ∀ s ∈ program, s.Orderly)
    (hnodup : ((marksOfStmts program).map Mark.token).Nodup) :
    FoundFault program (findings program) := by
  have hweighs : Weighs (marksOfStmts program) (findings program) :=
    weighsStmts program h .program false ⟨[], false⟩
  refine ⟨fun r hr => ?_, fun {t cause} hoffends => ?_⟩
  · obtain ⟨m, -, cause, rfl⟩ := hweighs.about r hr
    exact ⟨m.token, cause, rfl, (mem_findings_iff h).mp hr⟩
  · have hr := (mem_findings_iff h).mpr hoffends
    obtain ⟨m, hm, rfl⟩ := List.mem_map.mp (hweighs.mem_token hr)
    exact ⟨m, hm, rfl, hweighs.often hnodup m hm cause hr⟩

/-- What there may be complaints about in a program are tokens that it has been read from, in their
order. -/
theorem marks_of_parsed {tokens : List Token} {firstId : Nat} {program : List Stmt}
    (h : (parseProgram tokens firstId).tree? = some program) :
    ((marksOfStmts program).map Mark.token).Sublist tokens :=
  (parseProgram_derives h).among.trans (List.takeWhile_sublist _)

/-- Tokens are read in the same way when they stand on other lines. -/
theorem placed_parsed {tokens : List Token} {firstId : Nat} {program : List Stmt}
    (h : (parseProgram tokens firstId).tree? = some program) :
    ∃ located, (parseProgram (placed tokens) firstId).tree? = some located ∧
      List.Forall₂ (Stmt.Twin (relined (lineAt tokens))) located program := by
  have htokens : List.Forall₂ (Token.Twin (relined (lineAt tokens))) (placed tokens) tokens := by
    refine List.forall₂_iff_get.mpr ⟨by simp [placed], fun k hk hk' => ?_⟩
    have hline : lineAt tokens k = tokens[k].line := by
      rw [lineAt, List.getElem?_eq_getElem hk']
    simp only [placed, List.get_eq_getElem, List.getElem_mapIdx]
    exact ⟨rfl, rfl, hline.symm⟩
  have hread := parseProgram_like (C := twins (relined (lineAt tokens))) (k := 0) htokens
    (fun hnil => ?_) fun id (_ : firstId ≤ id) => rfl
  · have htree := hread.tree
    rw [Nat.add_zero, h] at htree
    generalize (parseProgram (placed tokens) firstId).tree? = located? at htree ⊢
    cases htree with
    | some hlike => exact ⟨_, rfl, twins_of_likeStmts (coveredBy_twins _) _ (hlike [])⟩
  · -- with no tokens at all, an end marker is made up
    have hnil : tokens = [] := by simpa [placed] using hnil
    subst hnil
    exact ⟨rfl, rfl, rfl⟩

/-- **Every offence is reported, and nothing else is.** Tokens that are accepted are accepted at
their places as well, with the same complaints up to their lines. What is complained about then are
the offences of the tokens at their places, each of them once if its token stands in no step of a
counted loop, and twice as often for every step that it stands in. -/
theorem reports_often {tokens : List Token} {firstId : Nat} {program : List Stmt}
    (hparsed : (parseProgram tokens firstId).tree? = some program) (T : Depths) :
    ∃ located, (parseProgram (placed tokens) firstId).tree? = some located ∧
      List.Forall₂ (Report.Twin (relined (lineAt tokens))) (resolve located T).reports.toList
        (resolve program T).reports.toList ∧
      ((marksOfStmts located).map Mark.token).Sublist (placed tokens) ∧
      FoundFault located (resolve located T).reports.toList := by
  obtain ⟨located, hlocated, htwins⟩ := placed_parsed hparsed
  have hmarks := marks_of_parsed hlocated
  have hnodup : (placed tokens).Nodup := (nodup_placed tokens).of_map _
  refine ⟨located, hlocated, ?_, hmarks, ?_⟩
  · have htables : Depths.Twin (relined (lineAt tokens)) T T := by
      rintro i _ rfl
      rfl
    exact (resolve_twins htwins htables).reports
  · rw [reports_resolve]
    exact foundFault_of_nodup (orderly_of_parsed hlocated) (hnodup.sublist hmarks)

/-- A receiver in two steps and outside of all classes, the tokens of
`repita (;; () => { repita (;; meu) pare; }) pare;`. -/
def stepInStep : List Token :=
  [⟨.forKw, "repita", 1⟩, ⟨.leftParen, "(", 1⟩, ⟨.semicolon, ";", 1⟩, ⟨.semicolon, ";", 1⟩,
   ⟨.leftParen, "(", 1⟩, ⟨.rightParen, ")", 1⟩, ⟨.arrow, "=>", 1⟩, ⟨.leftBrace, "\x7b", 1⟩,
   ⟨.forKw, "repita", 1⟩, ⟨.leftParen, "(", 1⟩, ⟨.semicolon, ";", 1⟩, ⟨.semicolon, ";", 1⟩,
   ⟨.selfKw, "meu", 1⟩, ⟨.rightParen, ")", 1⟩, ⟨.breakKw, "pare", 1⟩, ⟨.semicolon, ";", 1⟩,
   ⟨.rightBrace, "\x7d", 1⟩, ⟨.rightParen, ")", 1⟩, ⟨.breakKw, "pare", 1⟩, ⟨.semicolon, ";", 1⟩,
   ⟨.endOfInput, "", 1⟩]

theorem stepInStep_often : ∃ program, (parseProgram stepInStep 0).tree? = some program ∧
    (resolve program ∅).reports.toList =
      List.replicate 4 (.resolve ⟨.selfKw, "meu", 1⟩ .selfOutsideClass) ∧
    ∃ located, (parseProgram (placed stepInStep) 0).tree? = some located ∧
      FoundFault located (resolve located ∅).reports.toList := by
  have hfour : (parseProgram stepInStep 0).tree?.map
      (fun program => (resolve program ∅).reports.toList) =
        some (List.replicate 4 (.resolve ⟨.selfKw, "meu", 1⟩ .selfOutsideClass)) := by
    decide +kernel
  obtain ⟨program, hparsed, hreports⟩ := Option.map_eq_some_iff.mp hfour
  obtain ⟨located, hlocated, -, -, hfault⟩ := reports_often hparsed ∅
  exact ⟨program, hparsed, hreports, located, hlocated, hfault⟩

end Scope

end Roteiro
