import Mathlib.Data.List.Nodup
import Roteiro.Proofs.Tree.Likeness
import Roteiro.Proofs.Tree.Numbers
import Roteiro.Proofs.Tree.Orderly

/-!
# Trees of one shape, number by number

In two trees of one shape the numbers that come at one position, in the order of the source, belong
to occurrences in one place. So if the numbers are related position by position, then they are
related wherever two occurrences stand in each other's place. A number that is given out once
corresponds to one number of the other tree only: trees of one shape that differ in nothing but
lines and numbers are twins, whatever their numbers are.

The trees have to be orderly, since the two copies of the step of a loop are listed once.

* `likeStmts_pairs`: related position by position, related place by place.
* `exists_twins`: trees of one shape, each with numbers given out once, are twins.
-/

namespace Roteiro

/-- What may stand in each other's place if the numbers of the occurrences are related as well. -/
def Likeness.numbered (L : Likeness) (R : Nat → Nat → Prop) : Likeness :=
  { L with occurrence := fun bs i n i' n' => L.occurrence bs i n i' n' ∧ R i i' }

/-- There are as many numbers in one list as in the other, and `A` holds of each relation between
those at one position. -/
structure Pairs (ids ids' : List Nat) (A : (Nat → Nat → Prop) → Prop) : Prop where
  length : ids.length = ids'.length
  related : ∀ {R}, List.Forall₂ R ids ids' → A R

namespace Pairs

variable {ids ids' js js' : List Nat} {A B C : (Nat → Nat → Prop) → Prop}

theorem empty (h : ∀ R, A R) : Pairs [] [] A := ⟨rfl, fun _ => h _⟩

theorem single (i i' : Nat) : Pairs [i] [i'] (· i i') :=
  ⟨rfl, fun h => (List.forall₂_cons.mp h).1⟩

theorem imp (h : Pairs ids ids' A) (himp : ∀ R, A R → B R) : Pairs ids ids' B :=
  ⟨h.length, fun hR => himp _ (h.related hR)⟩

theorem forall₂_append {R : Nat → Nat → Prop} (hlength : ids.length = ids'.length)
    (h : List.Forall₂ R (ids ++ js) (ids' ++ js')) :
    List.Forall₂ R ids ids' ∧ List.Forall₂ R js js' := by
  have hfirst := List.forall₂_take_append _ _ _ h
  have hsecond := List.forall₂_drop_append _ _ _ h
  rw [List.take_left' hlength] at hfirst
  rw [List.drop_left' hlength] at hsecond
  exact ⟨hfirst, hsecond⟩

theorem append (h : Pairs ids ids' A) (h' : Pairs js js' B) (hboth : ∀ R, A R → B R → C R) :
    Pairs (ids ++ js) (ids' ++ js') C where
  length := by rw [List.length_append, List.length_append, h.length, h'.length]
  related hR := by
    obtain ⟨hfirst, hsecond⟩ := forall₂_append h.length hR
    exact hboth _ (h.related hfirst) (h'.related hsecond)

/-- The numbers of a step are listed in front of those of the body at whose end it stands. -/
theorem stepped (h : Pairs (ids ++ (js ++ [])) (ids' ++ (js' ++ [])) A) (h' : Pairs js js' B) :
    Pairs (js ++ ids) (js' ++ ids') fun R => A R ∧ B R := by
  have hjs := h'.length
  have hids : ids.length = ids'.length := by
    have hlength := h.length
    simp only [List.length_append, List.length_nil] at hlength
    omega
  refine ⟨by rw [List.length_append, List.length_append, hjs, hids], fun hR => ?_⟩
  obtain ⟨hstep, hbody⟩ := forall₂_append hjs hR
  exact ⟨h.related (List.rel_append hbody (List.rel_append hstep .nil)), h'.related hstep⟩

end Pairs

section Pairs

variable {L : Likeness}

theorem Node.Orderly.part {node inner : Node} (h : node.Orderly) (Γ : List Around)
    (hpart : (Γ, inner) ∈ node.parts := by simp) : inner.Orderly :=
  (Node.orderly_iff.mp h).2 _ hpart

mutual

theorem Expr.Like.pairs (e : Expr) {e' : Expr} {bs : List Bool} (h : e.Like L bs e')
    (ho : e.Orderly) (ho' : e'.Orderly) :
    Pairs e.ids e'.ids fun R => e.Like (L.numbered R) bs e' := by
  match e, h with
  | .literal _, .literal => exact .empty fun _ => .literal
  | .var _ _, .var hname => exact (Pairs.single _ _).imp fun _ hi => .var ⟨hname, hi⟩
  | .self _ _, .self hkeyword => exact (Pairs.single _ _).imp fun _ hi => .self ⟨hkeyword, hi⟩
  | .unary _ operand, .unary hoperator he =>
    exact (Expr.Like.pairs operand he (ho.part []) (ho'.part [])).imp
      fun _ => .unary hoperator
  | .group inner, .group he =>
    exact (Expr.Like.pairs inner he (ho.part []) (ho'.part [])).imp
      fun _ => .group
  | .get object _, .get he hname =>
    exact (Expr.Like.pairs object he (ho.part []) (ho'.part [])).imp
      fun _ h => .get h hname
  | .assign _ _ value, .assign hname he =>
    have hvalue := Expr.Like.pairs value he (ho.part []) (ho'.part [])
    exact (Pairs.single _ _).append hvalue fun _ hi hv => .assign ⟨hname, hi⟩ hv
  | .binary left _ right, .binary hl hoperator hr =>
    have hleft := Expr.Like.pairs left hl (ho.part []) (ho'.part [])
    have hright := Expr.Like.pairs right hr (ho.part []) (ho'.part [])
    exact hleft.append hright fun _ hl hr => .binary hl hoperator hr
  | .logical left _ right, .logical hl hoperator hr =>
    have hleft := Expr.Like.pairs left hl (ho.part []) (ho'.part [])
    have hright := Expr.Like.pairs right hr (ho.part []) (ho'.part [])
    exact hleft.append hright fun _ hl hr => .logical hl hoperator hr
  | .index _ base key, .index hbracket hb hk =>
    have hbase := Expr.Like.pairs base hb (ho.part []) (ho'.part [])
    have hkey := Expr.Like.pairs key hk (ho.part []) (ho'.part [])
    exact hbase.append hkey fun _ hb hk => .index hbracket hb hk
  | .set object _ value, .set hb hname hv =>
    have hobject := Expr.Like.pairs object hb (ho.part []) (ho'.part [])
    have hvalue := Expr.Like.pairs value hv (ho.part []) (ho'.part [])
    exact hobject.append hvalue fun _ hb hv => .set hb hname hv
  | .conditional test yes no, .conditional ht hy hn =>
    have htest := Expr.Like.pairs test ht (ho.part []) (ho'.part [])
    have hyes := Expr.Like.pairs yes hy (ho.part []) (ho'.part [])
    have hno := Expr.Like.pairs no hn (ho.part []) (ho'.part [])
    exact htest.append (hyes.append hno fun _ => And.intro) fun _ ht hrest =>
      .conditional ht hrest.1 hrest.2
  | .indexSet _ base key value, .indexSet hbracket hb hk hv =>
    have hbase := Expr.Like.pairs base hb (ho.part []) (ho'.part [])
    have hkey := Expr.Like.pairs key hk (ho.part []) (ho'.part [])
    have hvalue := Expr.Like.pairs value hv (ho.part []) (ho'.part [])
    exact hbase.append (hkey.append hvalue fun _ => And.intro) fun _ hb hrest =>
      .indexSet hbracket hb hrest.1 hrest.2
  | .call callee _ arguments, .call hf hparen hes =>
    have hcallee := Expr.Like.pairs callee hf (ho.part []) (ho'.part [])
    have harguments := likeExprs_pairs arguments hes (fun _ he => ho.part [] (by simp [he]))
      fun _ he => ho'.part [] (by simp [he])
    exact hcallee.append harguments fun _ hf hes => .call hf hparen hes
  | .array _ elements, .array hbracket hes =>
    exact (likeExprs_pairs elements hes (fun _ he => ho.part [] (by simp [he]))
      fun _ he => ho'.part [] (by simp [he])).imp fun _ => .array hbracket
  | .lambda decl, .lambda hf =>
    exact (FunctionDecl.Like.pairs decl hf
      (fun _ hs => ho.part [.function _] (List.mem_map_of_mem hs))
      fun _ hs => ho'.part [.function _] (List.mem_map_of_mem hs)).imp fun _ => .lambda
termination_by structural e

theorem likeExprs_pairs (es : List Expr) {es' : List Expr} {bs : List Bool}
    (h : ExprsLike L bs es es') (ho : ∀ e ∈ es, e.Orderly) (ho' : ∀ e ∈ es', e.Orderly) :
    Pairs (idsOfExprs es) (idsOfExprs es') fun R => ExprsLike (L.numbered R) bs es es' := by
  match es, h with
  | [], .nil => exact .empty fun _ => .nil
  | e :: es, .cons he hes =>
    have hfirst := Expr.Like.pairs e he (List.forall_mem_cons.mp ho).1
      (List.forall_mem_cons.mp ho').1
    have hothers := likeExprs_pairs es hes (List.forall_mem_cons.mp ho).2
      (List.forall_mem_cons.mp ho').2
    exact hfirst.append hothers fun _ => .cons
termination_by structural es

theorem Stmt.Like.pairs (s : Stmt) {s' : Stmt} {bs : List Bool} (h : s.Like L bs s')
    (ho : s.Orderly) (ho' : s'.Orderly) :
    Pairs s.ids s'.ids fun R => s.Like (L.numbered R) bs s' := by
  match s, h with
  | .expression e, .expression he =>
    exact (Expr.Like.pairs e he (ho.part []) (ho'.part [])).imp
      fun _ => .expression
  | .print e, .print he =>
    exact (Expr.Like.pairs e he (ho.part []) (ho'.part [])).imp
      fun _ => .print
  | .var _ none, .var hname => exact .empty fun _ => .var hname
  | .var _ (some e), .varValue hname he =>
    exact (Expr.Like.pairs e he (ho.part []) (ho'.part [])).imp
      fun _ => .varValue hname
  | .block body, .block hss =>
    exact (likeStmts_pairs body hss (fun _ hs => ho.part [.block] (by simp [hs]))
      fun _ hs => ho'.part [.block] (by simp [hs])).imp fun _ => .block
  | .ifElse test yes none, .ifThen ht hy =>
    have htest := Expr.Like.pairs test ht (ho.part []) (ho'.part [])
    have hyes := Stmt.Like.pairs yes hy (ho.part []) (ho'.part [])
    exact htest.append hyes fun _ => .ifThen
  | .ifElse test yes (some no), .ifElse ht hy hn =>
    have htest := Expr.Like.pairs test ht (ho.part []) (ho'.part [])
    have hyes := Stmt.Like.pairs yes hy (ho.part []) (ho'.part [])
    have hno := Stmt.Like.pairs no hn (ho.part []) (ho'.part [])
    exact htest.append (hyes.append hno fun _ => And.intro) fun _ ht hrest =>
      .ifElse ht hrest.1 hrest.2
  | .loop test body none, .loop ht hb =>
    have htest := Expr.Like.pairs test ht (ho.part []) (ho'.part [])
    have hbody := Stmt.Like.pairs body hb (ho.part [.loop]) (ho'.part [.loop])
    simp only [Stmt.ids]
    exact htest.append hbody fun _ => .loop
  | .loop test body (some step), .loopStep ht hb hs =>
    have htest := Expr.Like.pairs test ht (ho.part []) (ho'.part [])
    have hbody := Stmt.Like.pairs body hb (ho.part [.loop]) (ho'.part [.loop])
    have hstep := Stmt.Like.pairs step hs (ho.part [.step]) (ho'.part [.step])
    obtain ⟨b, e, rfl, rfl, -⟩ := (Node.orderly_iff.mp ho).1
    obtain ⟨b', e', rfl, rfl, -⟩ := (Node.orderly_iff.mp ho').1
    exact htest.append (hbody.stepped hstep) fun _ ht hrest => .loopStep ht hrest.1 hrest.2
  | .exitLoop _, .exitLoop hk => exact .empty fun _ => .exitLoop hk
  | .nextIteration _, .nextIteration hk => exact .empty fun _ => .nextIteration hk
  | .function decl, .function hname hf =>
    exact (FunctionDecl.Like.pairs decl hf
      (fun _ hs => ho.part [.function _] (List.mem_map_of_mem hs))
      fun _ hs => ho'.part [.function _] (List.mem_map_of_mem hs)).imp fun _ => .function hname
  | .result _ none, .result hk => exact .empty fun _ => .result hk
  | .result _ (some e), .resultValue hk he =>
    exact (Expr.Like.pairs e he (ho.part []) (ho'.part [])).imp
      fun _ => .resultValue hk
  | .classDecl _ methods, .classDecl hname hfs =>
    exact (likeFunctions_pairs methods hfs
      (fun f hf s hs => ho.part [.method f, .classBody]
        (List.mem_flatMap_of_mem hf (List.mem_map_of_mem hs)))
      fun f hf s hs => ho'.part [.method f, .classBody]
        (List.mem_flatMap_of_mem hf (List.mem_map_of_mem hs))).imp fun _ => .classDecl hname
termination_by structural s

theorem likeStmts_pairs (ss : List Stmt) {ss' : List Stmt} {bs : List Bool}
    (h : StmtsLike L bs ss ss') (ho : ∀ s ∈ ss, s.Orderly) (ho' : ∀ s ∈ ss', s.Orderly) :
    Pairs (idsOfStmts ss) (idsOfStmts ss') fun R => StmtsLike (L.numbered R) bs ss ss' := by
  match ss, h with
  | [], .nil => exact .empty fun _ => .nil
  | s :: ss, .cons hs hss =>
    have hfirst := Stmt.Like.pairs s hs (List.forall_mem_cons.mp ho).1
      (List.forall_mem_cons.mp ho').1
    have hothers := likeStmts_pairs ss hss (List.forall_mem_cons.mp ho).2
      (List.forall_mem_cons.mp ho').2
    exact hfirst.append hothers fun _ => .cons
termination_by structural ss

theorem FunctionDecl.Like.pairs (f : FunctionDecl) {f' : FunctionDecl} {b : Bool} {bs : List Bool}
    (h : f.Like L b bs f') (ho : f.Orderly) (ho' : f'.Orderly) :
    Pairs f.ids f'.ids fun R => f.Like (L.numbered R) b bs f' := by
  match f, h with
  | ⟨_, _, body⟩, .mk hname hparams hbody =>
    exact (likeStmts_pairs body hbody ho ho').imp fun _ => .mk hname hparams
termination_by structural f

theorem likeFunctions_pairs (fs : List FunctionDecl) {fs' : List FunctionDecl} {bs : List Bool}
    (h : FunctionsLike L bs fs fs') (ho : ∀ f ∈ fs, f.Orderly) (ho' : ∀ f ∈ fs', f.Orderly) :
    Pairs (idsOfFunctions fs) (idsOfFunctions fs')
      fun R => FunctionsLike (L.numbered R) bs fs fs' := by
  match fs, h with
  | [], .nil => exact .empty fun _ => .nil
  | f :: fs, .cons hf hfs =>
    have hfirst := FunctionDecl.Like.pairs f hf (List.forall_mem_cons.mp ho).1
      (List.forall_mem_cons.mp ho').1
    have hothers := likeFunctions_pairs fs hfs (List.forall_mem_cons.mp ho).2
      (List.forall_mem_cons.mp ho').2
    exact hfirst.append hothers fun _ => .cons
termination_by structural fs

end

end Pairs

/-! ### Twins -/

/-- Numbers that come at one position of two lists correspond, and all lines do. -/
def Renumbering.zip {ids ids' : List Nat} (h : ids.Nodup) (h' : ids'.Nodup) : Renumbering where
  line _ _ := True
  id i i' := (i, i') ∈ ids.zip ids'
  id_iff := by
    intro i i' j j' hi hj
    obtain ⟨n, hn, hin⟩ := List.mem_iff_getElem.mp hi
    obtain ⟨m, hm, hjm⟩ := List.mem_iff_getElem.mp hj
    rw [List.getElem_zip, Prod.mk.injEq] at hin hjm
    rw [← hin.1, ← hin.2, ← hjm.1, ← hjm.2, h.getElem_inj_iff, h'.getElem_inj_iff]

/-- **Trees of one shape are twins** if they differ in nothing but lines and numbers, and if none of
their numbers is given out twice. -/
theorem exists_twins {L : Likeness} {ss ss' : List Stmt}
    (hL : ∀ ρ : Renumbering, (∀ l l', ρ.line l l') → (L.numbered ρ.id).CoveredBy ρ)
    (h : StmtsLike L [] ss ss') (ho : ∀ s ∈ ss, s.Orderly) (ho' : ∀ s ∈ ss', s.Orderly)
    (hnodup : (idsOfStmts ss).Nodup) (hnodup' : (idsOfStmts ss').Nodup) :
    ∃ ρ : Renumbering, List.Forall₂ (Stmt.Twin ρ) ss ss' := by
  have hpairs := likeStmts_pairs ss h ho ho'
  refine ⟨.zip hnodup hnodup', twins_of_likeStmts (hL _ fun _ _ => trivial) ss (hpairs.related ?_)⟩
  exact List.forall₂_iff_zip.mpr ⟨hpairs.length, fun hi => hi⟩

end Roteiro
