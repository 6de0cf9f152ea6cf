import Roteiro.Proofs.Scope.Surroundings
import Roteiro.Proofs.Scope.Tidy

/-!
# What the table records

The analysis keeps a stack of scopes of its own while it walks the tree, and writes the depth of
each occurrence into a table as it passes by. `Records ids find T T'` says of two states of the
table that in between exactly the numbers `ids` were looked at, and that what the table holds about
them is what the source says: the number of scopes between the occurrence and the nearest one that
declares its name. Passing over the same occurrences twice does no harm, as long as the scopes
around are the same; this is what happens with the step of a counted loop.

* `recordsStmts`: the analysis records a tidy program.
-/

namespace Roteiro

open Scope Analysis

namespace Scope

/-! ### Stacks with the same names -/

/-- `Alike xs ys`: two stacks of scopes declare the same names at each level. -/
inductive Alike : List (Bindings Stage) → List (Bindings Stage) → Prop
  | nil : Alike [] []
  | cons {x y : Bindings Stage} {xs ys : List (Bindings Stage)}
      (h : ∀ name, x.binds name = y.binds name) (hs : Alike xs ys) : Alike (x :: xs) (y :: ys)

theorem Alike.withNames {xs ys : List (Bindings Stage)} (h : Alike xs ys) (names : List Token) :
    Alike (withNames xs names) (withNames ys names) := by
  cases h with
  | nil => exact .nil
  | @cons x y xs ys hxy hs =>
    refine .cons ?_ hs
    induction names generalizing x y with
    | nil => exact hxy
    | cons key names ih => exact ih fun name => by rw [binds_insert, binds_insert, hxy]

/-- A name that is declared is bound, whether it was bound before or not. -/
theorem Alike.declare {a : Analysis} {Γ : List Layer} (h : Alike a.scopes (scopesOf Γ))
    (name : Token) : Alike (a.declare name).scopes (scopesOf (started Γ name)) := by
  obtain ⟨scopes, body, inClass, loops, depths, reports⟩ := a
  unfold Analysis.declare
  cases Γ with
  | nil =>
    cases h
    exact .nil
  | cons L Γ =>
    cases h with
    | @cons x _ xs _ hx hs =>
      dsimp only
      split
      · next hbound =>
        refine .cons (fun key => ?_) hs
        rw [binds_insert, hx key]
        by_cases hkey : key = name.lexeme
        · simp [hkey, ← hx, hbound]
        · simp [hkey]
      · exact .cons (fun key => by rw [binds_insert, binds_insert, hx]) hs

theorem Alike.depth? {a : Analysis} {Γ : List Layer} (h : Alike a.scopes (scopesOf Γ))
    (name : String) : a.depth? name = depthIn Γ name := by
  unfold Analysis.depth? depthIn
  generalize a.scopes = scopes at h
  induction Γ generalizing scopes with
  | nil =>
    cases h
    rfl
  | cons L Γ ih =>
    cases h with
    | cons hx hs => rw [List.findIdx?_cons, List.findIdx?_cons, hx, ih _ hs]

/-- `Stands a Γ`: the analysis `a` is at a place with the scopes `Γ` around it. -/
structure Stands (a : Analysis) (Γ : List Layer) : Prop where
  scopes : Alike a.scopes (scopesOf Γ)
  /-- It is in a class if there is a receiver. -/
  inClass : a.inClass = (depthIn Γ selfName).isSome
  nested : Nested Γ

namespace Stands

variable {a b : Analysis} {Γ : List Layer}

theorem start (depths : Depths) : Stands (.start depths) [] := ⟨.nil, rfl, .nil⟩

theorem congr (h : Stands a Γ) (hscopes : b.scopes = a.scopes) (hclass : b.inClass = a.inClass) :
    Stands b Γ :=
  ⟨hscopes ▸ h.scopes, hclass.trans h.inClass, h.nested⟩

theorem expr (h : Stands a Γ) (e : Expr) : Stands (resolveExpr e a) Γ :=
  h.congr (scopes_resolveExpr e a) (resolveExpr_later e a).inClass

theorem introduced (h : Stands a Γ) {names : List Token}
    (hnames : ∀ name ∈ names, name.lexeme ≠ selfName)
    (hscopes : b.scopes = withNames a.scopes names) (hclass : b.inClass = a.inClass) :
    Stands b (introduced Γ names) := by
  refine ⟨?_, ?_, h.nested.introduced hnames⟩
  · rw [hscopes, scopesOf_introduced]
    exact h.scopes.withNames names
  · rw [hclass, depthIn_introduced Γ hnames, h.inClass]

theorem declare (h : Stands a Γ) {name : Token} (hname : name.lexeme ≠ selfName) :
    Stands (a.declare name) (started Γ name) := by
  refine ⟨h.scopes.declare name, ?_, h.nested.started hname⟩
  rw [(later_declare a name).inClass, depthIn_started Γ hname, h.inClass]

theorem stmt (h : Stands a Γ) {s : Stmt} (hs : s.Tidy) :
    Stands (resolveStmt s a) (Scope.introduced Γ (declared s)) :=
  h.introduced hs.ne_selfName (scopes_resolveStmt s a) (resolveStmt_later s a).inClass

/-- Behind a statement that declares nothing the scopes are the same. -/
theorem plain (h : Stands a Γ) {s : Stmt} (hs : declared s = []) : Stands (resolveStmt s a) Γ :=
  h.congr (by rw [scopes_resolveStmt, hs, withNames_nil]) (resolveStmt_later s a).inClass

/-- A scope without names is opened. -/
theorem opened (h : Stands a Γ) {L : Layer} (hL : L.names = []) (hmethod : L.method? = none) :
    Stands (a.openScope []) (L :: Γ) := by
  refine ⟨?_, ?_, .scope (by rw [hL]; rfl) hmethod h.nested⟩
  · exact .cons (fun name => by rw [hL]) h.scopes
  · rw [depthIn_cons, hL]
    exact h.inClass.trans Option.isSome_map.symm

/-- The inside of a class has a receiver. -/
theorem inside (h : Stands a Γ) (name : Token) :
    let inside := ({ a with inClass := true }.introduce name).openScope [(selfName, .defined)]
    Alike inside.scopes ([(selfName, .defined)] :: scopesOf (Scope.introduced Γ [name])) ∧
      inside.inClass = true := by
  refine ⟨.cons (fun _ => rfl) ?_, (later_introduce { a with inClass := true } name).inClass⟩
  rw [scopesOf_introduced, scopes_introduce]
  exact h.scopes.withNames [name]

/-- The parameters of a function are introduced in its scope. -/
theorem params {f : FunctionDecl} (h : Stands b (⟨some (.call f), []⟩ :: Γ)) (hf : f.Tidy) :
    Stands (f.params.foldl introduce b) (.ofCall f :: Γ) := by
  obtain ⟨name?, params, statements⟩ := f
  exact h.introduced hf.2.1 (scopes_introduceAll params b) (later_introduceAll params b).inClass

/-- A function is entered. -/
theorem called (h : Stands a Γ) (body : Body) {f : FunctionDecl} (hf : f.Tidy) :
    Stands (f.params.foldl introduce (a.enterFunction body)) (.ofCall f :: Γ) := by
  have hopened := h.opened (L := ⟨some (.call f), []⟩) rfl rfl
  exact params (hopened.congr rfl rfl) hf

/-- A method is entered, with a scope for its receiver around it. -/
theorem method (hscopes : Alike a.scopes ([(selfName, .defined)] :: scopesOf Γ))
    (hclass : a.inClass = true) (hnested : Nested Γ) (body : Body) {f : FunctionDecl}
    (hf : f.Tidy) :
    Stands (f.params.foldl introduce (a.enterFunction body)) (.ofCall f :: .receiver f :: Γ) :=
  params ⟨.cons (fun _ => rfl) hscopes, hclass, .method rfl rfl hnested⟩ hf

end Stands

/-! ### Steps of the table -/

/-- What the table holds about a number is what the source says. -/
def RightAt (T : Depths) (find : Nat → Option (List Layer × String)) (id : Nat) : Prop :=
  T[id]? = (find id).bind fun place => depthIn place.1 place.2

/-- The same, unless the table holds nothing yet. -/
def OpenAt (T : Depths) (find : Nat → Option (List Layer × String)) (id : Nat) : Prop :=
  T[id]? = none ∨ RightAt T find id

/-- Between two states of the table, exactly the numbers `ids` were looked at, and rightly so. -/
structure Records (ids : List Nat) (find : Nat → Option (List Layer × String)) (T T' : Depths) :
    Prop where
  frame : ∀ id, id ∉ ids → T'[id]? = T[id]?
  right : (∀ id ∈ ids, OpenAt T find id) → ∀ id ∈ ids, RightAt T' find id

theorem RightAt.congr {T T' : Depths} {find find' : Nat → Option (List Layer × String)} {id : Nat}
    (h : RightAt T find id) (hT : T'[id]? = T[id]?) (hfind : find' id = find id) :
    RightAt T' find' id := by
  rw [RightAt, hT, hfind]
  exact h

theorem OpenAt.congr {T T' : Depths} {find find' : Nat → Option (List Layer × String)} {id : Nat}
    (h : OpenAt T find id) (hT : T'[id]? = T[id]?) (hfind : find' id = find id) :
    OpenAt T' find' id :=
  h.imp hT.trans fun h => h.congr hT hfind

namespace Records

variable {ids ids' : List Nat} {find find' : Nat → Option (List Layer × String)}
  {T T' T'' : Depths}

theorem none (find : Nat → Option (List Layer × String)) (T : Depths) : Records [] find T T :=
  ⟨fun _ _ => rfl, fun _ _ h => by cases h⟩

/-- Neither the order of the numbers matters nor how they are found. -/
theorem congr (h : Records ids find T T') (hids : ∀ id, id ∈ ids' ↔ id ∈ ids)
    (hfind : ∀ id, find' id = find id) : Records ids' find' T T' := by
  refine ⟨fun id hid => h.frame id (mt (hids id).mpr hid), fun hT id hid => ?_⟩
  refine (h.right (fun id hid => ?_) id ((hids id).mp hid)).congr rfl (hfind id)
  exact (hT id ((hids id).mpr hid)).congr rfl (hfind id).symm

/-- Some of the numbers once more. -/
theorem again (h : Records ids find T T') (h' : Records ids' find' T' T'')
    (hids : ∀ id ∈ ids', id ∈ ids) (hfind : ∀ id ∈ ids', find' id = find id) :
    Records ids find T T'' := by
  constructor
  · intro id hid
    exact (h'.frame id fun hid' => hid (hids id hid')).trans (h.frame id hid)
  · intro hT id hid
    by_cases hid' : id ∈ ids'
    · refine (h'.right (fun i hi => ?_) id hid').congr rfl (hfind id hid').symm
      exact .inr ((h.right hT i (hids i hi)).congr rfl (hfind i hi))
    · exact (h.right hT id hid).congr (h'.frame id hid') rfl

/-- One piece of the tree behind another one. -/
theorem seq (h : Records ids find T T') (h' : Records ids' find' T' T'')
    (hnodup : (ids ++ ids').Nodup) (hfind : ∀ id, id ∉ ids → find id = Option.none)
    (hfind' : ∀ id, id ∉ ids' → find' id = Option.none) :
    Records (ids ++ ids') (fun id => find id <|> find' id) T T'' := by
  have hdisjoint : ∀ id ∈ ids, id ∉ ids' :=
    fun id hid hid' => (List.nodup_append.mp hnodup).2.2 id hid id hid' rfl
  -- each piece finds its own numbers, whatever the other one finds
  have hleft : ∀ id ∈ ids, (find id <|> find' id) = find id :=
    fun id hid => orElse_eq_left (hfind' id (hdisjoint id hid))
  have hright : ∀ id ∈ ids', (find id <|> find' id) = find' id :=
    fun id hid => orElse_eq_right (hfind id fun hid' => hdisjoint id hid' hid)
  constructor
  · intro id hid
    obtain ⟨hid₁, hid₂⟩ := not_or.mp (mt List.mem_append.mpr hid)
    exact (h'.frame id hid₂).trans (h.frame id hid₁)
  · intro hT id hid
    rcases List.mem_append.mp hid with hid | hid
    · refine (h.right (fun i hi => ?_) id hid).congr (h'.frame id (hdisjoint id hid)) (hleft id hid)
      exact (hT i (List.mem_append_left _ hi)).congr rfl (hleft i hi).symm
    · refine (h'.right (fun i hi => ?_) id hid).congr rfl (hright id hid)
      have hi' : i ∉ ids := fun hmem => hdisjoint i hmem hi
      exact (hT i (List.mem_append_right _ hi)).congr (h.frame i hi') (hright i hi).symm

end Records

/-- What is found neither in one piece nor in the piece behind it is not found in both. -/
theorem unfound_append {ids ids' : List Nat} {find find' : Nat → Option (List Layer × String)}
    (hfind : ∀ id, id ∉ ids → find id = none) (hfind' : ∀ id, id ∉ ids' → find' id = none) (id : Nat)
    (hid : id ∉ ids ++ ids') : (find id <|> find' id) = none := by
  obtain ⟨hid₁, hid₂⟩ := not_or.mp (mt List.mem_append.mpr hid)
  exact orElse_eq_none (hfind id hid₁) (hfind' id hid₂)

/-- The table after something was found under a number, or nothing. -/
def noted (T : Depths) (id : Nat) : Option Nat → Depths
  | some depth => T.insert id depth
  | none => T

theorem getElem?_noted (T : Depths) (id : Nat) (depth? : Option Nat) (i : Nat) :
    (noted T id depth?)[i]? = if i = id then depth?.or T[i]? else T[i]? := by
  cases depth? with
  | none => simp [noted]
  | some d =>
    by_cases hi : i = id
    · subst hi
      simp [noted]
    · have hne : compare id i ≠ .eq := fun heq => hi (Nat.compare_eq_eq.mp heq).symm
      simp [noted, Std.TreeMap.getElem?_insert, hne, hi]

theorem depths_record (a : Analysis) (id : Nat) (name : String) :
    (a.record id name).depths = noted a.depths id (a.depth? name) := by
  unfold record
  cases a.depth? name <;> rfl

/-- An occurrence is looked at. -/
theorem records_occurrence {a : Analysis} {Γ : List Layer} (h : Stands a Γ)
    (id : Nat) (name : String) :
    Records [id] (fun i => if id = i then some (Γ, name) else none) a.depths
      (a.record id name).depths := by
  have hrecord : ∀ i, (a.record id name).depths[i]? =
      if i = id then (depthIn Γ name).or a.depths[i]? else a.depths[i]? := by
    intro i
    rw [depths_record, h.scopes.depth?, getElem?_noted]
  constructor
  · intro i hi
    rw [hrecord, if_neg fun heq => hi (by simp [heq])]
  · intro hT i hi
    cases List.mem_singleton.mp hi
    have hplace : (if id = id then some (Γ, name) else none).bind
        (fun place : List Layer × String => depthIn place.1 place.2) = depthIn Γ name := by
      rw [if_pos rfl, Option.bind_some]
    rw [RightAt, hrecord, if_pos rfl, hplace]
    rcases hT id hi with hnone | hright
    · rw [hnone, Option.or_none]
    · rw [hright, hplace, Option.or_self]

@[simp] theorem depths_declare (a : Analysis) (name : Token) :
    (a.declare name).depths = a.depths := by
  unfold declare
  split
  · rfl
  · split <;> rfl

@[simp] theorem depths_define (a : Analysis) (name : Token) :
    (a.define name).depths = a.depths := by
  unfold define
  split <;> rfl

@[simp] theorem depths_introduce (a : Analysis) (name : Token) :
    (a.introduce name).depths = a.depths := by
  rw [introduce, depths_define, depths_declare]

theorem depths_introduceAll (names : List Token) (a : Analysis) :
    (names.foldl introduce a).depths = a.depths := by
  induction names generalizing a with
  | nil => rfl
  | cons name names ih => rw [List.foldl_cons, ih, depths_introduce]

theorem depths_requireLoop (a : Analysis) (keyword : Token) (cause : Cause) :
    (a.requireLoop keyword cause).depths = a.depths := by
  unfold requireLoop
  split <;> rfl

/-- Whatever is wrong with giving a value back, the value is looked at in the same scopes. -/
theorem resolveStmt_result (keyword : Token) (value : Expr) (a : Analysis) :
    ∃ b : Analysis, resolveStmt (.result keyword (some value)) a = resolveExpr value b ∧
      b.scopes = a.scopes ∧ b.inClass = a.inClass ∧ b.depths = a.depths := by
  unfold resolveStmt
  dsimp only
  refine ⟨_, rfl, ?_, ?_, ?_⟩
  all_goals split <;> split <;> rfl

end Scope

/-! ### Loops with a step -/

/-- What is known of the parts of a tidy loop with a step. The step ends the body, and it is found
there with the same scopes around it as behind the body, in a block of its own. -/
structure Stepped (test : Expr) (body step : Stmt) (Γ : List Layer) : Prop where
  tidy_test : test.Tidy
  tidy_body : body.Tidy
  tidy_step : step.Tidy
  declared_body : declared body = []
  declared_step : declared step = []
  nodup : (test.ids ++ body.ids).Nodup
  nodup_step : step.ids.Nodup
  ids_step : ∀ id ∈ step.ids, id ∈ body.ids
  around_step : ∀ id ∈ step.ids, step.around id (.ofBlock [step] :: Γ) = body.around id Γ

theorem Stmt.Tidy.stepped {test : Expr} {body step : Stmt}
    (h : (Stmt.loop test body (some step)).Tidy)
    (hnodup : (Stmt.loop test body (some step)).ids.Nodup) (Γ : List Layer) :
    Stepped test body step Γ := by
  obtain ⟨b, e, rfl, rfl, htest, he, hb, hdeclared⟩ := h.loop
  have hbodyIds : (Stmt.block [b, .expression e]).ids = b.ids ++ e.ids := by simp
  -- the numbers of the loop are given in another order, with those of the step first
  have hids : (test.ids ++ (e.ids ++ b.ids)).Nodup := hnodup
  obtain ⟨-, hrest, -⟩ := List.nodup_append.mp hids
  refine ⟨htest, ⟨hb, he, trivial⟩, he, rfl, rfl, ?_, (List.nodup_append.mp hrest).1, ?_, ?_⟩
  · rw [hbodyIds]
    exact ((List.Perm.refl _).append List.perm_append_comm).nodup hids
  · intro id hid
    rw [hbodyIds]
    exact List.mem_append_right _ hid
  · intro id hid
    have hid' : id ∉ b.ids := fun hmem => (List.nodup_append.mp hrest).2.2 id hid id hmem rfl
    have hlayer : Layer.ofBlock [b, .expression e] = Layer.ofBlock [.expression e] := by
      rw [ofBlock_of_declaredBy (by simp [declaredBy, declared, hdeclared]), ofBlock_of_declaredBy rfl]
    rw [← hlayer]
    refine Eq.symm ((orElse_eq_right (b.around_of_not_mem _ hid')).trans ?_)
    rw [hdeclared, introduced_nil]
    exact orElse_eq_left rfl

/-! ### Trees -/

mutual

theorem Expr.records (e : Expr) {a : Analysis} {Γ : List Layer} (hΓ : Stands a Γ) (htidy : e.Tidy)
    (hnodup : e.ids.Nodup) :
    Records e.ids (fun id => e.around id Γ) a.depths (resolveExpr e a).depths := by
  match e with
  | .literal _ => exact .none _ _
  | .unary _ operand => exact operand.records hΓ htidy hnodup
  | .group inner => exact inner.records hΓ htidy hnodup
  | .binary left _ right | .logical left _ right =>
    obtain ⟨hleft, hright, -⟩ := List.nodup_append.mp hnodup
    have h₁ := left.records hΓ htidy.1 hleft
    have h₂ := right.records (hΓ.expr left) htidy.2 hright
    exact h₁.seq h₂ hnodup (fun id => left.around_of_not_mem Γ) fun id => right.around_of_not_mem Γ
  | .conditional test yes no =>
    obtain ⟨htest, hrest, -⟩ := List.nodup_append.mp hnodup
    obtain ⟨hyes, hno, -⟩ := List.nodup_append.mp hrest
    have h₁ := test.records hΓ htidy.1 htest
    have h₂ := yes.records (hΓ.expr test) htidy.2.1 hyes
    have h₃ := no.records ((hΓ.expr test).expr yes) htidy.2.2 hno
    have h₂₃ := h₂.seq h₃ hrest (fun id => yes.around_of_not_mem Γ) fun id => no.around_of_not_mem Γ
    exact h₁.seq h₂₃ hnodup (fun id => test.around_of_not_mem Γ)
      (unfound_append (fun id => yes.around_of_not_mem Γ) fun id => no.around_of_not_mem Γ)
  | .var id name =>
    unfold resolveExpr
    dsimp only
    split
    · exact records_occurrence (a := a.complain name .ownInitializer) (hΓ.congr rfl rfl) id name.lexeme
    · exact records_occurrence hΓ id name.lexeme
  | .self id keyword =>
    unfold resolveExpr
    split
    · exact records_occurrence hΓ id selfName
    · next hclass =>
      -- outside of all classes there is no receiver to be found
      have hnone : depthIn Γ selfName = none := by
        rw [← Option.not_isSome_iff_eq_none, ← hΓ.inClass]
        exact hclass
      refine ⟨fun _ _ => rfl, fun hT i hi => ?_⟩
      cases List.mem_singleton.mp hi
      have hfind : ((Expr.self id keyword).around id Γ).bind
          (fun place => depthIn place.1 place.2) = none := by
        rw [Expr.around, if_pos rfl, Option.bind_some, hnone]
      exact (hT id hi).elim (fun h => h.trans hfind.symm) fun h => h
  | .assign id name value =>
    obtain ⟨hid, hvalue⟩ := List.nodup_cons.mp hnodup
    have h₁ := value.records hΓ htidy.2 hvalue
    have h₂ := records_occurrence (hΓ.expr value) id name.lexeme
    have hseq := h₁.seq h₂ ?_ (fun i => value.around_of_not_mem Γ) fun i hi => ?_
    · refine hseq.congr (fun i => ?_) fun i => ?_
      · simp [or_comm]
      · by_cases hi : id = i
        · subst hi
          simp [value.around_of_not_mem Γ hid]
        · simp [hi]
    · refine List.nodup_append.mpr ⟨hvalue, by simp, fun i hi j hj hij => ?_⟩
      cases List.mem_singleton.mp hj
      exact hid (hij ▸ hi)
    · exact if_neg fun heq => hi (by simp [heq])
  | .call callee _ arguments =>
    obtain ⟨hcallee, harguments, -⟩ := List.nodup_append.mp hnodup
    have h₁ := callee.records hΓ htidy.1 hcallee
    have h₂ := recordsExprs arguments (hΓ.expr callee) htidy.2 harguments
    exact h₁.seq h₂ hnodup (fun id => callee.around_of_not_mem Γ)
      fun id => aroundExprs_of_not_mem arguments Γ
  | .lambda decl => exact decl.records .function (hΓ.called .function htidy) htidy hnodup
  | .array _ elements => exact recordsExprs elements hΓ htidy hnodup
  | .index _ base key =>
    obtain ⟨hbase, hkey, -⟩ := List.nodup_append.mp hnodup
    have h₁ := base.records hΓ htidy.1 hbase
    have h₂ := key.records (hΓ.expr base) htidy.2 hkey
    exact h₁.seq h₂ hnodup (fun id => base.around_of_not_mem Γ) fun id => key.around_of_not_mem Γ
  | .indexSet _ base key value =>
    obtain ⟨hbase, hrest, -⟩ := List.nodup_append.mp hnodup
    obtain ⟨hkey, hvalue, -⟩ := List.nodup_append.mp hrest
    have h₁ := base.records hΓ htidy.1 hbase
    have h₂ := key.records (hΓ.expr base) htidy.2.1 hkey
    have h₃ := value.records ((hΓ.expr base).expr key) htidy.2.2 hvalue
    have h₂₃ := h₂.seq h₃ hrest (fun id => key.around_of_not_mem Γ)
      fun id => value.around_of_not_mem Γ
    exact h₁.seq h₂₃ hnodup (fun id => base.around_of_not_mem Γ)
      (unfound_append (fun id => key.around_of_not_mem Γ) fun id => value.around_of_not_mem Γ)
  | .get object _ => exact object.records hΓ htidy hnodup
  | .set object _ value =>
    obtain ⟨hobject, hvalue, -⟩ := List.nodup_append.mp hnodup
    have h₁ := object.records hΓ htidy.1 hobject
    have h₂ := value.records (hΓ.expr object) htidy.2 hvalue
    exact h₁.seq h₂ hnodup (fun id => object.around_of_not_mem Γ)
      fun id => value.around_of_not_mem Γ

theorem recordsExprs (es : List Expr) {a : Analysis} {Γ : List Layer} (hΓ : Stands a Γ)
    (htidy : tidyExprs es) (hnodup : (idsOfExprs es).Nodup) :
    Records (idsOfExprs es) (fun id => aroundExprs id es Γ) a.depths (resolveExprs es a).depths := by
  match es with
  | [] => exact .none _ _
  | e :: es =>
    obtain ⟨he, hes, -⟩ := List.nodup_append.mp hnodup
    have h₁ := e.records hΓ htidy.1 he
    have h₂ := recordsExprs es (hΓ.expr e) htidy.2 hes
    exact h₁.seq h₂ hnodup (fun id => e.around_of_not_mem Γ) fun id => aroundExprs_of_not_mem es Γ

theorem Stmt.records (s : Stmt) {a : Analysis} {Γ : List Layer} (hΓ : Stands a Γ) (htidy : s.Tidy)
    (hnodup : s.ids.Nodup) :
    Records s.ids (fun id => s.around id Γ) a.depths (resolveStmt s a).depths := by
  match s with
  | .expression expr => exact expr.records hΓ htidy hnodup
  | .print expr => exact expr.records hΓ htidy hnodup
  | .var name none =>
    unfold resolveStmt
    rw [depths_introduce]
    exact .none _ _
  | .var name (some value) =>
    have h := value.records (hΓ.declare htidy.1) htidy.2 hnodup
    rw [depths_declare] at h
    unfold resolveStmt
    rw [depths_define]
    exact h
  | .block body => exact recordsStmts body (hΓ.opened rfl (method?_ofBlock body)) htidy hnodup
  | .ifElse test yes none =>
    obtain ⟨htest, hyes, -⟩ := List.nodup_append.mp hnodup
    have h₁ := test.records hΓ htidy.1 htest
    have h₂ := yes.records (hΓ.expr test) htidy.2.1 hyes
    exact h₁.seq h₂ hnodup (fun id => test.around_of_not_mem Γ) fun id => yes.around_of_not_mem Γ
  | .ifElse test yes (some no) =>
    obtain ⟨htest, hrest, -⟩ := List.nodup_append.mp hnodup
    obtain ⟨hyes, hno, -⟩ := List.nodup_append.mp hrest
    have h₁ := test.records hΓ htidy.1 htest
    have h₂ := yes.records (hΓ.expr test) htidy.2.1.1 hyes
    have h₃ := no.records ((hΓ.expr test).plain htidy.2.1.2) htidy.2.2.1 hno
    have h₂₃ := h₂.seq h₃ hrest (fun id => yes.around_of_not_mem Γ) fun id => no.around_of_not_mem Γ
    exact h₁.seq h₂₃ hnodup (fun id => test.around_of_not_mem Γ)
      (unfound_append (fun id => yes.around_of_not_mem Γ) fun id => no.around_of_not_mem Γ)
  | .loop test body none =>
    obtain ⟨htest, hbody, -⟩ := List.nodup_append.mp hnodup
    have hΓ₁ : Stands (resolveExpr test a).enterLoop Γ := (hΓ.expr test).congr rfl rfl
    have h₁ := test.records hΓ htidy.1 htest
    have h₂ := body.records hΓ₁ htidy.2.1 hbody
    exact h₁.seq h₂ hnodup (fun id => test.around_of_not_mem Γ) fun id => body.around_of_not_mem Γ
  | .loop test body (some step) =>
    have hstepped := htidy.stepped hnodup Γ
    obtain ⟨htest, hbody, -⟩ := List.nodup_append.mp hstepped.nodup
    have hΓ₁ : Stands (resolveExpr test a).enterLoop Γ := (hΓ.expr test).congr rfl rfl
    let c := (resolveStmt body (resolveExpr test a).enterLoop).leaveLoop
    have hc : Stands c Γ := (hΓ₁.plain hstepped.declared_body).congr rfl rfl
    have h₁ := test.records hΓ hstepped.tidy_test htest
    have h₂ := body.records hΓ₁ hstepped.tidy_body hbody
    have h₃ := step.records (hc.opened rfl (method?_ofBlock [step])) hstepped.tidy_step
      hstepped.nodup_step
    -- the step is passed over once more, with the same scopes around it
    have h₂₃ := h₂.again h₃ hstepped.ids_step hstepped.around_step
    refine (h₁.seq h₂₃ hstepped.nodup (fun id => test.around_of_not_mem Γ)
      fun id => body.around_of_not_mem Γ).congr (fun id => ?_) fun id => rfl
    rw [Stmt.mem_ids_loop, List.mem_append]
  | .exitLoop keyword =>
    unfold resolveStmt
    rw [depths_requireLoop]
    exact .none _ _
  | .nextIteration keyword =>
    unfold resolveStmt
    rw [depths_requireLoop]
    exact .none _ _
  | .function decl =>
    have hnames := htidy.ne_selfName
    unfold resolveStmt
    cases hname : decl.name? with
    | none =>
      have hΓ₁ : Stands a (introduced Γ decl.name?.toList) := hΓ.introduced hnames ?_ rfl
      · exact decl.records .function (hΓ₁.called .function htidy) htidy hnodup
      · rw [hname]
        exact (withNames_nil _).symm
    | some name =>
      have hΓ₁ : Stands (a.introduce name) (introduced Γ decl.name?.toList) :=
        hΓ.introduced hnames ?_ (later_introduce a name).inClass
      · have h := decl.records .function (hΓ₁.called .function htidy) htidy hnodup
        rw [depths_introduce] at h
        exact h
      · rw [hname]
        exact scopes_introduce a name
  | .result keyword none =>
    unfold resolveStmt
    dsimp only
    split <;> exact .none _ _
  | .result keyword (some value) =>
    obtain ⟨b, hb, hscopes, hclass, hdepths⟩ := resolveStmt_result keyword value a
    rw [hb, ← hdepths]
    exact value.records (hΓ.congr hscopes hclass) htidy hnodup
  | .classDecl name methods =>
    let inside := ({ a with inClass := true }.introduce name).openScope [(selfName, .defined)]
    obtain ⟨hscopes, hclass⟩ := hΓ.inside name
    have hnested : Nested (introduced Γ [name]) :=
      hΓ.nested.introduced (List.forall_mem_singleton.mpr htidy.1)
    have h := recordsMethods methods hscopes hclass hnested htidy.2 hnodup
    have hdepths : inside.depths = a.depths := depths_introduce { a with inClass := true } name
    rw [hdepths] at h
    exact h

theorem recordsStmts (ss : List Stmt) {a : Analysis} {Γ : List Layer} (hΓ : Stands a Γ)
    (htidy : tidyStmts ss) (hnodup : (idsOfStmts ss).Nodup) :
    Records (idsOfStmts ss) (fun id => aroundStmts id ss Γ) a.depths (resolveStmts ss a).depths := by
  match ss with
  | [] => exact .none _ _
  | s :: ss =>
    obtain ⟨hs, hss, -⟩ := List.nodup_append.mp hnodup
    have h₁ := s.records hΓ htidy.1 hs
    have h₂ := recordsStmts ss (hΓ.stmt htidy.1) htidy.2 hss
    exact h₁.seq h₂ hnodup (fun id => s.around_of_not_mem Γ) fun id => aroundStmts_of_not_mem ss _

/-- A function whose inside has certain scopes around it. -/
theorem FunctionDecl.records (f : FunctionDecl) (body : Body) {a : Analysis} {Γ : List Layer}
    (hΓ : Stands (f.params.foldl introduce (a.enterFunction body)) (.ofCall f :: Γ)) (htidy : f.Tidy)
    (hnodup : f.ids.Nodup) :
    Records f.ids (fun id => f.around id Γ) a.depths (resolveFunction f body a).depths := by
  match f with
  | ⟨name?, params, statements⟩ =>
    have h := recordsStmts statements hΓ htidy.2.2 hnodup
    rw [depths_introduceAll] at h
    exact h

/-- Around each method there is a receiver. -/
theorem recordsMethods (fs : List FunctionDecl) {a : Analysis} {Γ : List Layer}
    (hscopes : Alike a.scopes ([(selfName, .defined)] :: scopesOf Γ)) (hclass : a.inClass = true)
    (hnested : Nested Γ) (htidy : tidyMethods fs) (hnodup : (idsOfFunctions fs).Nodup) :
    Records (idsOfFunctions fs) (fun id => aroundMethods id fs Γ) a.depths
      (resolveMethods fs a).depths := by
  match fs with
  | [] => exact .none _ _
  | f :: fs =>
    obtain ⟨hf, hfs, -⟩ := List.nodup_append.mp hnodup
    have hlater := resolveFunction_later f (methodBody f) a
    have h₁ := f.records (methodBody f) (.method hscopes hclass hnested _ htidy.1) htidy.1 hf
    have h₂ := recordsMethods fs (by rwa [scopes_resolveFunction]) (hlater.inClass.trans hclass)
      hnested htidy.2 hfs
    exact h₁.seq h₂ hnodup (fun id => f.around_of_not_mem _)
      fun id => aroundMethods_of_not_mem fs Γ

end

end Roteiro
