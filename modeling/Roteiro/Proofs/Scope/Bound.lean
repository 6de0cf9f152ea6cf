import Roteiro.Proofs.Scope.Legal
import Roteiro.Proofs.Scope.Renaming
import Roteiro.Proofs.Scope.Roles

/-!
# What a declaration binds

A declaration binds the occurrences of its name whose depths lead to its scope. If the tokens of a
program are numbered by their lines, the line of the declaration tells which scope that is, and it
gives that scope a mark.

* `chosenBy`: the places of a declaration and of all that it binds.
* `fits_chosenBy`: of the tokens of a program, those at these places are the ones that are to be
  renamed.
-/

namespace Roteiro

open Scope

namespace Scope

/-! ### Marks and places -/

/-- A declaration in the scope stands on this line. -/
def Layer.declaresAt (line : Nat) (L : Layer) : Bool :=
  match L.site? with
  | some S => S.names.any fun t => t.line = line
  | none => false

/-- The marks of the scopes around a place, if the scope with a declaration on this line has one. -/
def marksOf (line : Nat) (Γ : List Layer) : List Bool := Γ.map (Layer.declaresAt line) ++ [false]

/-- A declaration of the name in a local scope, on this line. -/
def Use.isLocal (line : Nat) (name : String) (u : Use) : Bool :=
  match u.role with
  | .declaration (_ :: _) x => decide (u.line = line) && decide (x = name)
  | _ => false

/-- An occurrence of the name whose depth leads to the scope with the declaration on this line. -/
def Use.isBound (T : Depths) (line : Nat) (name : String) (u : Use) : Bool :=
  match u.role, u.id? with
  | .occurrence Γ x, some id =>
    decide (x = name) && (T[id]?.bind fun d => Γ[d]?).any (Layer.declaresAt line)
  | _, _ => false

/-- The places of a declaration and of all that it binds. -/
def chosenBy (T : Depths) (line : Nat) (name : String) (us : List Use) (place : Nat) : Bool :=
  decide (place = line) || us.any fun u => decide (u.line = place) && u.isBound T line name

theorem chosenBy_iff {T : Depths} {line : Nat} {name : String} {us : List Use} {place : Nat} :
    chosenBy T line name us place = true ↔
      place = line ∨ ∃ u ∈ us, u.line = place ∧ u.isBound T line name = true := by
  simp [chosenBy]

/-- The mark of what an occurrence means is that of the scope that its depth leads to. -/
theorem markOf_marksOf (T : Depths) (line : Nat) (Γ : List Layer) (id : Nat) :
    Renaming.markOf T (marksOf line Γ) id =
      (T[id]?.bind fun d => Γ[d]?).any (Layer.declaresAt line) := by
  unfold Renaming.markOf Renaming.markAt marksOf
  cases T[id]? with
  | none => rfl
  | some d =>
    have hlast : (Γ.map (Layer.declaresAt line) ++ [false]).getLastD false = false := by simp
    simp only [Option.bind_some, hlast]
    rcases Nat.lt_trichotomy d Γ.length with hd | rfl | hd
    · rw [List.getElem?_append_left (by simpa using hd), List.getElem?_map,
        List.getElem?_eq_getElem hd]
      rfl
    · simp
    · rw [List.getElem?_eq_none (by simp; omega), List.getElem?_eq_none (by omega)]
      rfl

theorem marksOf_congr (line : Nat) {L L' : Layer} (h : L'.site? = L.site?) (Γ : List Layer) :
    marksOf line (L' :: Γ) = marksOf line (L :: Γ) := by
  simp only [marksOf, List.map_cons, Layer.declaresAt, h]

@[simp] theorem marksOf_introduced (line : Nat) (Γ : List Layer) (names : List Token) :
    marksOf line (introduced Γ names) = marksOf line Γ := by
  cases Γ with
  | nil => rfl
  | cons L Γ => exact marksOf_congr line rfl Γ

@[simp] theorem marksOf_started (line : Nat) (Γ : List Layer) (name : Token) :
    marksOf line (started Γ name) = marksOf line Γ := by
  cases Γ with
  | nil => rfl
  | cons L Γ => exact marksOf_congr line rfl Γ

@[simp] theorem marksOf_receiver (line : Nat) (f : FunctionDecl) (Γ : List Layer) :
    marksOf line (.receiver f :: Γ) = false :: marksOf line Γ := rfl

/-! ### Occurrences in their place -/

/-- `P` holds of a use, if it is an occurrence. -/
def Use.Satisfies (P : Nat → List Layer → String → Prop) (u : Use) : Prop :=
  ∀ {Γ name}, u.role = .occurrence Γ name → ∃ id, u.id? = some id ∧ P id Γ name

end Scope

section Placed

variable {P : Nat → List Layer → String → Prop}

theorem satisfies_word (t : Token) : (Use.word t).Satisfies P := by
  intro Γ name hrole
  cases hrole

theorem satisfies_receiver (t : Token) : (Use.receiver t).Satisfies P := by
  intro Γ name hrole
  cases hrole

theorem satisfies_named (n : Token) : (Use.named n).Satisfies P := by
  intro Γ name hrole
  cases hrole

theorem satisfies_declaration (Γ : List Layer) (n : Token) : (Use.declaration Γ n).Satisfies P := by
  intro Γ' name hrole
  cases hrole

theorem satisfies_occurrence {Γ : List Layer} {id : Nat} {n : Token} (h : P id Γ n.lexeme) :
    (Use.occurrence Γ id n).Satisfies P := by
  intro Γ' name hrole
  cases hrole
  exact ⟨id, rfl, h⟩

theorem satisfies_map {make : Token → Use} (h : ∀ n, (make n).Satisfies P) (names : List Token) :
    ∀ u ∈ names.map make, u.Satisfies P := by
  intro u hu
  obtain ⟨n, -, rfl⟩ := List.mem_map.mp hu
  exact h n

mutual

/-- What holds of the occurrences in a tree holds of its uses. -/
theorem Expr.Placed.satisfies (e : Expr) {Γ : List Layer} (h : e.Placed P Γ) :
    ∀ u ∈ e.uses Γ, u.Satisfies P := by
  match e with
  | .literal _ => exact nofun
  | .unary o e => exact List.forall_mem_cons.mpr ⟨satisfies_word o, Expr.Placed.satisfies e h⟩
  | .group e => exact Expr.Placed.satisfies e h
  | .binary l o r | .logical l o r | .index o l r | .set l o r =>
    exact List.forall_mem_append.mpr ⟨Expr.Placed.satisfies l h.1,
      List.forall_mem_cons.mpr ⟨satisfies_word o, Expr.Placed.satisfies r h.2⟩⟩
  | .conditional e₁ e₂ e₃ =>
    exact List.forall_mem_append.mpr ⟨Expr.Placed.satisfies e₁ h.1,
      List.forall_mem_append.mpr ⟨Expr.Placed.satisfies e₂ h.2.1, Expr.Placed.satisfies e₃ h.2.2⟩⟩
  | .var id n => exact List.forall_mem_singleton.mpr (satisfies_occurrence h.1)
  | .assign id n value =>
    exact List.forall_mem_cons.mpr ⟨satisfies_occurrence h.1.1, Expr.Placed.satisfies value h.2⟩
  | .call callee paren arguments =>
    exact List.forall_mem_append.mpr ⟨Expr.Placed.satisfies callee h.1,
      List.forall_mem_append.mpr ⟨placedExprs_satisfies arguments h.2,
        List.forall_mem_singleton.mpr (satisfies_word paren)⟩⟩
  | .lambda decl =>
    exact List.forall_mem_append.mpr ⟨satisfies_map satisfies_named _,
      FunctionDecl.Placed.satisfies decl h⟩
  | .array b elements =>
    exact List.forall_mem_cons.mpr ⟨satisfies_word b, placedExprs_satisfies elements h⟩
  | .indexSet b e₁ e₂ e₃ =>
    exact List.forall_mem_append.mpr ⟨Expr.Placed.satisfies e₁ h.1, List.forall_mem_cons.mpr
      ⟨satisfies_word b, List.forall_mem_append.mpr
        ⟨Expr.Placed.satisfies e₂ h.2.1, Expr.Placed.satisfies e₃ h.2.2⟩⟩⟩
  | .get object n =>
    exact List.forall_mem_append.mpr ⟨Expr.Placed.satisfies object h,
      List.forall_mem_singleton.mpr (satisfies_word n)⟩
  | .self _ keyword => exact List.forall_mem_singleton.mpr (satisfies_receiver keyword)
termination_by structural e

theorem placedExprs_satisfies (es : List Expr) {Γ : List Layer} (h : placedExprs P es Γ) :
    ∀ u ∈ usesOfExprs es Γ, u.Satisfies P := by
  match es with
  | [] => exact nofun
  | e :: es =>
    exact List.forall_mem_append.mpr ⟨Expr.Placed.satisfies e h.1, placedExprs_satisfies es h.2⟩
termination_by structural es

theorem Stmt.Placed.satisfies (s : Stmt) {Γ : List Layer} (h : s.Placed P Γ) :
    ∀ u ∈ s.uses Γ, u.Satisfies P := by
  match s with
  | .expression e | .print e => exact Expr.Placed.satisfies e h
  | .var n none => exact List.forall_mem_singleton.mpr (satisfies_declaration Γ n)
  | .var n (some e) =>
    exact List.forall_mem_cons.mpr ⟨satisfies_declaration Γ n, Expr.Placed.satisfies e h.2⟩
  | .block body => exact placedStmts_satisfies body h
  | .ifElse test yes none =>
    exact List.forall_mem_append.mpr
      ⟨Expr.Placed.satisfies test h.1, Stmt.Placed.satisfies yes h.2.1⟩
  | .ifElse test yes (some no) =>
    exact List.forall_mem_append.mpr ⟨Expr.Placed.satisfies test h.1, List.forall_mem_append.mpr
      ⟨Stmt.Placed.satisfies yes h.2.1.1, Stmt.Placed.satisfies no h.2.2.1⟩⟩
  | .loop test body none =>
    exact List.forall_mem_append.mpr
      ⟨Expr.Placed.satisfies test h.1, Stmt.Placed.satisfies body h.2.1⟩
  | .loop test body (some step) =>
    exact List.forall_mem_append.mpr ⟨Expr.Placed.satisfies test h.1, List.forall_mem_append.mpr
      ⟨Stmt.Placed.satisfies body h.2.1.1, Stmt.Placed.satisfies step h.2.2.1⟩⟩
  | .exitLoop k | .nextIteration k | .result k none =>
    exact List.forall_mem_singleton.mpr (satisfies_word k)
  | .function decl =>
    exact List.forall_mem_append.mpr
      ⟨satisfies_map satisfies_named _, FunctionDecl.Placed.satisfies decl h.2⟩
  | .result k (some e) =>
    exact List.forall_mem_cons.mpr ⟨satisfies_word k, Expr.Placed.satisfies e h⟩
  | .classDecl n methods =>
    exact List.forall_mem_cons.mpr ⟨satisfies_named n, placedMethods_satisfies methods h.2⟩
termination_by structural s

theorem placedStmts_satisfies (ss : List Stmt) {Γ : List Layer} (h : placedStmts P ss Γ) :
    ∀ u ∈ usesOfStmts ss Γ, u.Satisfies P := by
  match ss with
  | [] => exact nofun
  | s :: ss =>
    exact List.forall_mem_append.mpr ⟨Stmt.Placed.satisfies s h.1, placedStmts_satisfies ss h.2⟩
termination_by structural ss

theorem FunctionDecl.Placed.satisfies (f : FunctionDecl) {Γ : List Layer} (h : f.Placed P Γ) :
    ∀ u ∈ f.uses Γ, u.Satisfies P := by
  match f with
  | ⟨name?, params, body⟩ =>
    exact List.forall_mem_append.mpr
      ⟨satisfies_map (satisfies_declaration _) _, placedStmts_satisfies body h.2⟩
termination_by structural f

theorem placedMethods_satisfies (fs : List FunctionDecl) {Γ : List Layer}
    (h : placedMethods P fs Γ) : ∀ u ∈ usesOfMethods fs Γ, u.Satisfies P := by
  match fs with
  | [] => exact nofun
  | f :: fs =>
    exact List.forall_mem_append.mpr ⟨satisfies_map satisfies_named _,
      List.forall_mem_append.mpr
        ⟨FunctionDecl.Placed.satisfies f h.1, placedMethods_satisfies fs h.2⟩⟩
termination_by structural fs

end

end Placed

namespace Scope

/-! ### What is to be renamed -/

/-- What has to hold of a use where the tokens at some places are renamed, among them the
declaration at one place. -/
structure Use.Fits (R : Renaming) (T : Depths) (place : Nat) (chosen : Nat → Bool) (u : Use) :
    Prop where
  fresh : ∀ name ∈ u.role.name?, name ≠ R.new
  declaration : ∀ {Γ name}, u.role = .declaration Γ name →
    (chosen u.line = true ↔ u.line = place) ∧ (u.line = place → name = R.old ∧ Γ ≠ [])
  occurrence : ∀ {Γ name}, u.role = .occurrence Γ name → ∀ id ∈ u.id?,
    (chosen u.line = true ↔ name = R.old ∧ Renaming.markOf T (marksOf place Γ) id = true)
  receiver : ∀ {name}, u.role = .receiver name → chosen u.line = false ∧ name ≠ R.old
  named : ∀ {name}, u.role = .named name → chosen u.line = false
  word : u.role = .word → chosen u.line = false

theorem isLocal_iff {line : Nat} {name : String} {u : Use} :
    u.isLocal line name = true ↔
      u.line = line ∧ ∃ L Γ, u.role = .declaration (L :: Γ) name := by
  obtain ⟨line', role, id?⟩ := u
  unfold Use.isLocal
  dsimp only
  split
  · next L Γ x =>
    simp only [Bool.and_eq_true, decide_eq_true_eq, Role.declaration.injEq, List.cons.injEq]
    constructor
    · rintro ⟨hline, rfl⟩
      exact ⟨hline, L, Γ, ⟨rfl, rfl⟩, rfl⟩
    · rintro ⟨hline, -, -, -, hname⟩
      exact ⟨hline, hname⟩
  · next hother =>
    refine iff_of_false Bool.false_ne_true ?_
    rintro ⟨-, L, Γ, rfl⟩
    exact hother L Γ name rfl

theorem isBound_iff {T : Depths} {line : Nat} {name : String} {u : Use} :
    u.isBound T line name = true ↔ ∃ Γ id, u.role = .occurrence Γ name ∧ u.id? = some id ∧
      Renaming.markOf T (marksOf line Γ) id = true := by
  obtain ⟨line', role, id?⟩ := u
  unfold Use.isBound
  dsimp only
  split
  · next Γ x id =>
    rw [Bool.and_eq_true, decide_eq_true_eq, ← markOf_marksOf]
    constructor
    · rintro ⟨rfl, hmark⟩
      exact ⟨Γ, id, rfl, rfl, hmark⟩
    · rintro ⟨Γ', id', hrole, hid, hmark⟩
      cases hrole
      cases hid
      exact ⟨rfl, hmark⟩
  · next hother =>
    refine iff_of_false Bool.false_ne_true ?_
    rintro ⟨Γ, id, rfl, rfl, -⟩
    exact hother Γ name id rfl rfl

/-- **The tokens of a program that are to be renamed** stand at the places of the declaration and of
what it binds. -/
theorem fits_chosenBy {R : Renaming} {T : Depths} {place : Nat} {ts : List Token} {us : List Use}
    (hcovered : Covered ts us) (hts : (ts.map Token.line).Nodup)
    (hlocal : us.any (Use.isLocal place R.old) = true)
    (hdepths : ∀ u ∈ us, u.Satisfies (HasDepths T))
    (hfresh : ∀ t ∈ ts, t.lexeme ≠ R.new) (hself : ∀ t ∈ ts, t.kind = .selfKw → t.lexeme ≠ R.old) :
    ∀ u ∈ us, u.Fits R T place (chosenBy T place R.old us) := by
  intro u hu
  obtain ⟨t, ht, hof⟩ := hcovered.exists_of hu
  obtain ⟨v, hv, hvlocal⟩ := List.any_eq_true.mp hlocal
  obtain ⟨hvline, L, Δ, hvrole⟩ := isLocal_iff.mp hvlocal
  -- a use at the place of the declaration is that declaration
  have hplace : u.line = place → u.role = .declaration (L :: Δ) R.old := fun hline =>
    (hcovered.role_unique hts hu hv (hline.trans hvline.symm)).trans hvrole
  -- and another one at a place that is chosen is a bound occurrence
  have hchosen : chosenBy T place R.old us u.line = true → u.line ≠ place →
      ∃ Γ, u.role = .occurrence Γ R.old ∧ ∃ id, T[id]? = depthIn Γ R.old ∧
        Renaming.markOf T (marksOf place Γ) id = true := by
    intro hchosen hne
    rcases chosenBy_iff.mp hchosen with hline | ⟨w, hw, hline, hbound⟩
    · exact absurd hline hne
    · obtain ⟨Γ, id, hrole, hid, hmark⟩ := isBound_iff.mp hbound
      refine ⟨Γ, (hcovered.role_unique hts hu hw hline.symm).trans hrole, id, ?_, hmark⟩
      obtain ⟨id', hid', hdepth⟩ := hdepths w hw hrole
      cases hid.symm.trans hid'
      exact hdepth
  have hother : (∀ Γ, u.role ≠ .declaration Γ R.old) → (∀ Γ, u.role ≠ .occurrence Γ R.old) →
      chosenBy T place R.old us u.line = false := by
    intro hdeclaration hoccurrence
    refine Bool.eq_false_iff.mpr fun h => ?_
    by_cases hline : u.line = place
    · exact hdeclaration _ (hplace hline)
    · obtain ⟨Γ, hrole, -⟩ := hchosen h hline
      exact hoccurrence Γ hrole
  refine ⟨fun name hname => ?_, fun {Γ name} hrole => ?_, fun {Γ name} hrole id hid => ?_,
    fun {name} hrole => ?_, fun {name} hrole => ?_, fun hrole => ?_⟩
  · rw [hof.name name hname]
    exact hfresh t ht
  · refine ⟨⟨fun h => ?_, fun h => chosenBy_iff.mpr (.inl h)⟩, fun hline => ?_⟩
    · by_contra hline
      obtain ⟨Γ', hrole', -⟩ := hchosen h hline
      rw [hrole] at hrole'
      cases hrole'
    · have heq := hrole.symm.trans (hplace hline)
      cases heq
      exact ⟨rfl, List.cons_ne_nil _ _⟩
  · constructor
    · intro h
      have hline : u.line ≠ place := by
        intro hline
        have heq := hrole.symm.trans (hplace hline)
        cases heq
      obtain ⟨Γ', hrole', id', hdepth', hmark⟩ := hchosen h hline
      cases hrole.symm.trans hrole'
      -- all numbers of the occurrence have the same depth
      obtain ⟨id'', hid'', hdepth⟩ := hdepths u hu hrole
      cases (Option.mem_def.mp hid).symm.trans hid''
      refine ⟨rfl, ?_⟩
      rw [markOf_marksOf] at hmark ⊢
      rwa [hdepth, ← hdepth']
    · rintro ⟨rfl, hmark⟩
      exact chosenBy_iff.mpr (.inr ⟨u, hu, rfl, isBound_iff.mpr ⟨Γ, id, hrole, hid, hmark⟩⟩)
  · refine ⟨hother (by simp [hrole]) (by simp [hrole]), ?_⟩
    rw [hof.name name (by rw [hrole]; rfl)]
    exact hself t ht (hof.kind .selfKw (by rw [hrole]; rfl)).symm
  · exact hother (by simp [hrole]) (by simp [hrole])
  · exact hother (by simp [hrole]) (by simp [hrole])

end Scope

end Roteiro
