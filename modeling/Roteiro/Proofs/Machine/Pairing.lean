import Roteiro.Proofs.Machine.Frames
import Roteiro.Proofs.Machine.Likeness
import Roteiro.Proofs.Tree.Orderly

/-!
# The same code in other frames

A run opens frames, and how many it has opened is all that tells one frame from another. So the same
code may be run by two machines that have numbered their frames differently, and does the same
there. A `Pairing` says which frames correspond. Two frames that correspond have the same bindings,
and the frames around them correspond.

A frame is *bare* if no name is bound in it and none ever will be, because what is run in it binds
nothing. Bare frames need not correspond one to one: as nothing can be found in them, several of
them on one side do as well as a single one on the other. Every other frame has one partner at most.

* `Stmt.like_self`: code is of one shape with itself; in a bare frame, if it binds nothing.
* `Pairing.Frames.define`, `Pairing.Frames.addFrame`, `Pairing.Frames.beside`: what may happen to
  the frames.
* `Pairing.scheme`: the scheme of the same code in other frames, in which the second machine may
  have more fuel.
-/

namespace Roteiro

/-! ### The same code -/

/-- The likeness of the same code. The scopes with a mark are those in which nothing is bound. -/
def Likeness.sameCode : Likeness where
  token t t' := t' = t
  keyword t t' := t' = t
  occurrence _ i n i' n' := i' = i ∧ n' = n
  binder b n n' := b = false ∧ n' = n
  named b n n' := b = false ∧ n' = n
  unnamed b := b = false

mutual

theorem Expr.like_self (e : Expr) (bs : List Bool) : e.Like .sameCode bs e := by
  match e with
  | .literal _ => exact .literal
  | .unary _ operand => exact .unary rfl (operand.like_self bs)
  | .group inner => exact .group (inner.like_self bs)
  | .binary left _ right => exact .binary (left.like_self bs) rfl (right.like_self bs)
  | .logical left _ right => exact .logical (left.like_self bs) rfl (right.like_self bs)
  | .conditional test yes no =>
    exact .conditional (test.like_self bs) (yes.like_self bs) (no.like_self bs)
  | .var _ _ => exact .var ⟨rfl, rfl⟩
  | .self _ _ => exact .self ⟨rfl, rfl⟩
  | .assign _ _ value => exact .assign ⟨rfl, rfl⟩ (value.like_self bs)
  | .call callee _ arguments =>
    exact .call (callee.like_self bs) rfl (likeExprs_self arguments bs)
  | .lambda decl => exact .lambda (decl.like_self bs)
  | .array _ elements => exact .array rfl (likeExprs_self elements bs)
  | .index _ base key => exact .index rfl (base.like_self bs) (key.like_self bs)
  | .indexSet _ base key value =>
    exact .indexSet rfl (base.like_self bs) (key.like_self bs) (value.like_self bs)
  | .get object _ => exact .get (object.like_self bs) rfl
  | .set object _ value => exact .set (object.like_self bs) rfl (value.like_self bs)

theorem likeExprs_self (es : List Expr) (bs : List Bool) : ExprsLike .sameCode bs es es := by
  match es with
  | [] => exact .nil
  | e :: es => exact .cons (e.like_self bs) (likeExprs_self es bs)

/-- Code is of one shape with itself. What stands in a scope with a mark has to bind nothing. -/
theorem Stmt.like_self (s : Stmt) {bs : List Bool} (h : innermost bs = false ∨ s.BindsNothing) :
    s.Like .sameCode bs s := by
  match s, h with
  | .expression e, _ => exact .expression (e.like_self bs)
  | .print e, _ => exact .print (e.like_self bs)
  | .var _ none, .inl hbs => exact .var ⟨hbs, rfl⟩
  | .var _ (some e), .inl hbs => exact .varValue ⟨hbs, rfl⟩ (e.like_self bs)
  | .block body, _ => exact .block (likeStmts_self body rfl)
  | .ifElse test yes none, h => exact .ifThen (test.like_self bs) (yes.like_self h)
  | .ifElse test yes (some no), h =>
    exact .ifElse (test.like_self bs) (yes.like_self (h.imp_right And.left))
      (no.like_self (h.imp_right And.right))
  | .loop test body none, h => exact .loop (test.like_self bs) (body.like_self h)
  | .loop test body (some step), h =>
    exact .loopStep (test.like_self bs) (body.like_self h)
      (step.like_self (.inl rfl))
  | .exitLoop _, _ => exact .exitLoop rfl
  | .nextIteration _, _ => exact .nextIteration rfl
  | .function decl, .inl hbs =>
    refine .function (fun _ => hbs) ?_
    rw [hbs]
    exact decl.like_self bs
  | .result _ none, _ => exact .result rfl
  | .result _ (some e), _ => exact .resultValue rfl (e.like_self bs)
  | .classDecl _ methods, .inl hbs =>
    exact .classDecl ⟨hbs, rfl⟩ (likeFunctions_self methods (false :: bs))

theorem likeStmts_self (ss : List Stmt) {bs : List Bool} (h : innermost bs = false) :
    StmtsLike .sameCode bs ss ss := by
  match ss with
  | [] => exact .nil
  | s :: ss => exact .cons (s.like_self (.inl h)) (likeStmts_self ss h)

theorem FunctionDecl.like_self (f : FunctionDecl) (bs : List Bool) :
    f.Like .sameCode false bs f := by
  match f with
  | ⟨name?, params, body⟩ =>
    refine .mk (c := false) ?_ (List.forall₂_same.mpr fun _ _ => ⟨rfl, rfl⟩)
      (likeStmts_self body rfl)
    cases name? with
    | none => exact .none
    | some name => exact .some ⟨rfl, rfl⟩

theorem likeFunctions_self (fs : List FunctionDecl) (bs : List Bool) :
    FunctionsLike .sameCode bs fs fs := by
  match fs with
  | [] => exact .nil
  | f :: fs => exact .cons (f.like_self bs) (likeFunctions_self fs bs)

end

/-! ### Lists that correspond -/

section Forall₂

variable {α β : Type} {R : α → β → Prop} {xs : List α} {ys : List β}

theorem rel_getElem? (h : List.Forall₂ R xs ys) (i : Nat) : Option.Rel R xs[i]? ys[i]? := by
  induction h generalizing i with
  | nil => exact .none
  | cons hxy _ ih =>
    cases i with
    | zero => exact .some hxy
    | succ i => exact ih i

theorem rel_getLastD (h : List.Forall₂ R xs ys) {x : α} {y : β} (hxy : R x y) :
    R (xs.getLastD x) (ys.getLastD y) := by
  induction h generalizing x y with
  | nil => exact hxy
  | cons hfirst _ ih => simpa only [List.getLastD_cons] using ih hfirst

/-- The first elements with a property correspond, if all that correspond have it together. -/
theorem rel_find? (h : List.Forall₂ R xs ys) {p : α → Bool} {q : β → Bool}
    (hpq : ∀ x y, R x y → q y = p x) :
    Option.Rel (fun x y => R x y ∧ p x = true) (xs.find? p) (ys.find? q) := by
  induction h with
  | nil => exact .none
  | @cons x y xs ys hxy _ ih =>
    rw [List.find?_cons, List.find?_cons, hpq x y hxy]
    cases hx : p x with
    | true => exact .some ⟨hxy, hx⟩
    | false => exact ih

end Forall₂

/-! ### Frames that correspond -/

/-- Which frames of two machines correspond, and with which mark: bare frames have one. -/
def Pairing := Bool → Ref .frames → Ref .frames → Prop

namespace Pairing

/-- At least as many frames correspond. -/
def Le (p p' : Pairing) : Prop := ∀ b r r', p b r r' → p' b r r'

/-- Two frames correspond, whether they are bare or not. -/
def Any (p : Pairing) (r r' : Ref .frames) : Prop := ∃ b, p b r r'

/-- Two more frames correspond. -/
def add (p : Pairing) (b : Bool) (r r' : Ref .frames) : Pairing :=
  fun c q q' => p c q q' ∨ c = b ∧ q = r ∧ q' = r'

/-- The frames of the second machine, with those of the first one. -/
def flip (p : Pairing) : Pairing := fun b r r' => p b r' r

/-- The same bindings, and none at all in bare frames. -/
def Bound (b : Bool) (x x' : Bindings Value) : Prop := x' = x ∧ (b = true → x = [])

/-- The frames of two stores correspond as the pairing says. -/
structure Frames (p : Pairing) (s s' : Store) : Prop where
  lt : ∀ {b r r'}, p b r r' → r.index < s.frames.size ∧ r'.index < s'.frames.size
  bound : ∀ {b r r'}, p b r r' → Bound b (s.frame r).bindings (s'.frame r').bindings
  outer : ∀ {b r r'}, p b r r' → List.Forall₂ p.Any (s.frame r).outer (s'.frame r').outer
  /-- A frame that is not bare has a single partner, under a single mark. -/
  unique : ∀ {b r r' q q'}, p false r r' → p b q q' → q = r ∨ q' = r' →
    b = false ∧ q = r ∧ q' = r'
  globals : p false Store.globals Store.globals

variable {p p' : Pairing} {s s' : Store} {b : Bool} {r r' : Ref .frames}

theorem Le.any (h : p.Le p') (hr : p.Any r r') : p'.Any r r' := hr.imp fun b => h b r r'

theorem le_add (p : Pairing) (b : Bool) (r r' : Ref .frames) : p.Le (p.add b r r') :=
  fun _ _ _ h => .inl h

theorem add_self (p : Pairing) (b : Bool) (r r' : Ref .frames) : p.add b r r' b r r' :=
  .inr ⟨rfl, rfl, rfl⟩

namespace Frames

variable (h : Frames p s s')

include h

theorem path (hr : p b r r') : List.Forall₂ p.Any (s.path r) (s'.path r') :=
  .cons ⟨b, hr⟩ (h.outer hr)

theorem bindings (hr : p.Any r r') : (s'.frame r').bindings = (s.frame r).bindings :=
  let ⟨_, hr⟩ := hr
  (h.bound hr).1

theorem bindsAt (hr : p.Any r r') (name : String) : s'.bindsAt name r' = s.bindsAt name r := by
  rw [Store.bindsAt, Store.bindsAt, h.bindings hr]

/-- What binds a name is not bare. -/
theorem of_bindsAt (hr : p.Any r r') {name : String} (hname : s.bindsAt name r = true) :
    p false r r' := by
  obtain ⟨b, hr⟩ := hr
  cases b with
  | false => exact hr
  | true =>
    rw [Store.bindsAt, (h.bound hr).2 rfl] at hname
    cases hname

theorem ancestor (hr : p b r r') (d : Nat) : p.Any (s.ancestor r d) (s'.ancestor r' d) := by
  have hpath := h.path hr
  have hfound := rel_getElem? hpath d
  unfold Store.ancestor
  generalize (s.path r)[d]? = found at hfound ⊢
  generalize (s'.path r')[d]? = found' at hfound ⊢
  cases hfound with
  | some hd => exact hd
  | none => exact rel_getLastD hpath ⟨b, hr⟩

theorem lookupAt? (hr : p b r r') (d : Nat) (name : String) :
    s'.lookupAt? r' d name = s.lookupAt? r d name := by
  rw [Store.lookupAt?, Store.lookupAt?, h.bindings (h.ancestor hr d)]

theorem lookup?_globals (name : String) :
    s'.lookup? Store.globals name = s.lookup? Store.globals name := by
  have hpath := h.path h.globals
  unfold Store.lookup?
  generalize s.path Store.globals = path at hpath ⊢
  generalize s'.path Store.globals = path' at hpath ⊢
  induction hpath with
  | nil => rfl
  | cons hfirst _ ih => rw [List.findSome?_cons, List.findSome?_cons, h.bindings hfirst, ih]

theorem owner?_globals (name : String) :
    Option.Rel (p false) (s.owner? Store.globals name) (s'.owner? Store.globals name) := by
  have hfound := rel_find? (h.path h.globals) (p := s.bindsAt name) (q := s'.bindsAt name)
    fun _ _ hr => h.bindsAt hr name
  exact rel_imp (fun _ _ hr => h.of_bindsAt hr.1 hr.2) hfound

theorem ownerAt? (hr : p b r r') (d : Nat) (name : String) :
    Option.Rel (p false) (s.ownerAt? r d name) (s'.ownerAt? r' d name) := by
  have hany := h.ancestor hr d
  unfold Store.ownerAt?
  dsimp only
  rw [h.bindsAt hany]
  split
  · next hname => exact .some (h.of_bindsAt hany hname)
  · exact .none

theorem congr {t t' : Store} (ht : t.frames = s.frames) (ht' : t'.frames = s'.frames) :
    Frames p t t' := by
  have hframe : ∀ q, t.frame q = s.frame q := fun q => by rw [Store.frame, Store.frame, ht]
  have hframe' : ∀ q, t'.frame q = s'.frame q := fun q => by rw [Store.frame, Store.frame, ht']
  refine ⟨fun hr => ?_, fun hr => ?_, fun hr => ?_, h.unique, h.globals⟩
  · rw [ht, ht']
    exact h.lt hr
  · rw [hframe, hframe']
    exact h.bound hr
  · rw [hframe, hframe']
    exact h.outer hr

theorem flip : Frames p.flip s' s := by
  refine ⟨fun hr => (h.lt hr).symm, fun hr => ?_, fun hr => (h.outer hr).flip, ?_, h.globals⟩
  · obtain ⟨heq, hbare⟩ := h.bound hr
    exact ⟨heq.symm, fun hb => heq.trans (hbare hb)⟩
  · intro b r r' q q' hr hq heq
    obtain ⟨hb, hq, hq'⟩ := h.unique hr hq heq.symm
    exact ⟨hb, hq', hq⟩

/-- A name is bound in two frames that are not bare. -/
theorem define (hr : p false r r') (name : String) (v : Value) :
    Frames p (s.define r name v) (s'.define r' name v) := by
  refine ⟨fun hq => ?_, fun {b q q'} hq => ?_, fun hq => ?_, h.unique, h.globals⟩
  · rw [Store.size_define, Store.size_define]
    exact h.lt hq
  · obtain ⟨hlt, hlt'⟩ := h.lt hq
    by_cases heq : q = r ∨ q' = r'
    · obtain ⟨rfl, rfl, rfl⟩ := h.unique hr hq heq
      rw [Store.frame_define_self hlt, Store.frame_define_self hlt']
      exact ⟨by rw [(h.bound hq).1], nofun⟩
    · obtain ⟨hne, hne'⟩ := not_or.mp heq
      rw [Store.frame_define_of_ne s hne, Store.frame_define_of_ne s' hne']
      exact h.bound hq
  · rw [Store.outer_define, Store.outer_define]
    exact h.outer hq

/-- A frame is added to the first store. -/
theorem grow (around : Ref .frames) (x : Bindings Value) :
    Frames p (s.addFrame around x).2 s' := by
  refine ⟨fun hr => ⟨?_, (h.lt hr).2⟩, fun hr => ?_, fun hr => ?_, h.unique, h.globals⟩
  · rw [Store.size_addFrame]
    exact Nat.lt_succ_of_lt (h.lt hr).1
  · rw [Store.frame_addFrame (h.lt hr).1]
    exact h.bound hr
  · rw [Store.frame_addFrame (h.lt hr).1]
    exact h.outer hr

/-- A frame is added to the second store. -/
theorem grow' (around : Ref .frames) (x : Bindings Value) :
    Frames p s (s'.addFrame around x).2 :=
  (h.flip.grow around x).flip

/-- Two frames are taken to correspond. -/
theorem pair (hlt : r.index < s.frames.size) (hlt' : r'.index < s'.frames.size)
    (hbound : Bound b (s.frame r).bindings (s'.frame r').bindings)
    (houter : List.Forall₂ p.Any (s.frame r).outer (s'.frame r').outer)
    (hfree : ∀ {c q q'}, p c q q' → c = false ∨ b = false → q ≠ r ∧ q' ≠ r') :
    Frames (p.add b r r') s s' := by
  have hle := p.le_add b r r'
  refine ⟨?_, ?_, ?_, ?_, .inl h.globals⟩
  · rintro c q q' (hq | ⟨-, rfl, rfl⟩)
    · exact h.lt hq
    · exact ⟨hlt, hlt'⟩
  · rintro c q q' (hq | ⟨rfl, rfl, rfl⟩)
    · exact h.bound hq
    · exact hbound
  · rintro c q q' (hq | ⟨-, rfl, rfl⟩)
    · exact (h.outer hq).imp fun _ _ => hle.any
    · exact houter.imp fun _ _ => hle.any
  · -- the new pair shares a frame with an old one only if both are bare
    rintro c u u' q q' (hu | ⟨hb, rfl, rfl⟩) (hq | ⟨rfl, rfl, rfl⟩) heq
    · exact h.unique hu hq heq
    · obtain ⟨hne, hne'⟩ := hfree hu (.inl rfl)
      exact (heq.elim (fun h => hne h.symm) fun h => hne' h.symm).elim
    · obtain ⟨hne, hne'⟩ := hfree hq (.inr hb.symm)
      exact (heq.elim hne hne').elim
    · exact ⟨hb.symm, rfl, rfl⟩

/-- Two frames are opened around which the frames correspond. -/
theorem addFrame {around around' : Ref .frames} {x x' : Bindings Value} {c : Bool}
    (haround : p c around around') (hx : Bound b x x') :
    Frames (p.add b (s.addFrame around x).1 (s'.addFrame around' x').1) (s.addFrame around x).2
      (s'.addFrame around' x').2 := by
  refine ((h.grow around x).grow' around' x').pair ?_ ?_ ?_ ?_ fun hq _ => ?_
  · simp [Store.addFrame]
  · simp [Store.addFrame]
  · rw [Store.frame_addFrame_self, Store.frame_addFrame_self]
    exact hx
  · rw [Store.frame_addFrame_self, Store.frame_addFrame_self]
    exact h.path haround
  · obtain ⟨hlt, hlt'⟩ := h.lt hq
    exact ⟨fun heq => Nat.lt_irrefl _ (heq ▸ hlt), fun heq => Nat.lt_irrefl _ (heq ▸ hlt')⟩

/-- A frame that is opened beside a bare frame is one more partner for it. -/
theorem beside' (hr : p true r r') {around : Ref .frames}
    (haround : (s'.frame r').outer = s'.path around) :
    ∃ p', p.Le p' ∧ p' true r (s'.addFrame around []).1 ∧
      Frames p' s (s'.addFrame around []).2 := by
  refine ⟨_, p.le_add _ _ _, p.add_self true r _, ?_⟩
  refine (h.grow' around []).pair (h.lt hr).1 (by simp [Store.addFrame]) ?_ ?_ fun hq hc => ?_
  · rw [Store.frame_addFrame_self]
    exact ⟨((h.bound hr).2 rfl).symm, (h.bound hr).2⟩
  · rw [Store.frame_addFrame_self, ← haround]
    exact h.outer hr
  · -- the one frame is bare, and the other one has not been there before
    obtain rfl := hc.resolve_right Bool.noConfusion
    constructor
    · rintro rfl
      exact Bool.noConfusion (h.unique hq hr (.inl rfl)).1
    · rintro rfl
      exact Nat.lt_irrefl _ (h.lt hq).2

theorem beside (hr : p true r r') {around : Ref .frames}
    (haround : (s.frame r).outer = s.path around) :
    ∃ p', p.Le p' ∧ p' true (s.addFrame around []).1 r' ∧
      Frames p' (s.addFrame around []).2 s' := by
  obtain ⟨p', hle, hpair, hframes⟩ := h.flip.beside' hr haround
  exact ⟨p'.flip, fun b q q' => hle b q' q, hpair, hframes.flip⟩

end Frames

/-- The scheme of the same code in other frames. -/
def scheme : Scheme .sameCode where
  World := Pairing
  le := Le
  Frames := Frames
  Marked p r r' bs := p (innermost bs) r r'
  Bound := Bound
  Depths T T' := T' = T
  Fault t failure t' failure' := t' = t ∧ failure' = failure
  patient := True
  refl _ _ _ _ h := h
  trans h h' b r r' hr := h' b r r' (h b r r' hr)
  marked_mono h hw := hw _ _ _ h
  kind h := congrArg Token.kind h
  lexeme h := congrArg Token.lexeme h
  keyword h := congrArg Token.kind h
  named h := congrArg Token.lexeme h.2
  fault h _ := ⟨h, rfl⟩
  noReceiver h := ⟨h ▸ rfl, rfl⟩
  missing h := ⟨h.2, h.2 ▸ rfl⟩
  congr h ht ht' := h.congr ht ht'
  bound_nil _ := ⟨rfl, fun _ => rfl⟩
  bound_self _ := ⟨rfl, nofun⟩
  bound_insert hx hn v := by
    obtain ⟨rfl, rfl⟩ := hn
    exact ⟨by rw [hx.1], nofun⟩
  enter h hr hx := ⟨_, le_add _ _ _ _, h.addFrame hr hx, add_self _ _ _ _⟩
  define {w s s' r r' bs n n'} h hr hn v := by
    obtain ⟨hbs, rfl⟩ := hn
    exact h.define (hbs ▸ hr) _ v
  define_named {w s s' r r' bs name} h hr hname v := by
    have hbs : innermost bs = false := hname.elim id fun ⟨_, _, hn, _⟩ => hn.1
    exact h.define (hbs ▸ hr) name v
  receiver h hr := h.lookupAt? hr 0 selfName
  read {w bs i n i' n' m m'} hn hr h hT := by
    obtain ⟨rfl, rfl⟩ := hn
    unfold Machine.valueOf?
    rw [hT]
    cases m.depths[i']? with
    | none => exact h.lookup?_globals _
    | some d => exact h.lookupAt? hr d _
  assign {w bs i n i' n' m m'} hn hr h hT := by
    obtain ⟨rfl, rfl⟩ := hn
    unfold Machine.owner?
    rw [hT]
    refine rel_imp (R := w false) (fun r r' hr v => h.define hr _ v) ?_
    cases m.depths[i']? with
    | none => exact h.owner?_globals _
    | some d => exact h.ownerAt? hr d _

end Pairing

end Roteiro
