import Mathlib.Data.List.Basic
import Roteiro.Proofs.Scope.Findings
import Roteiro.Proofs.Scope.Legal

/-!
# Which rules are broken where

`Offends program t cause` says that the token `t` breaks a rule of scoping in the program, by its
place alone: a return outside of all functions, or one with a value in an initializer; the receiver
outside of all classes; an exit outside of all loops of its function; a name that its scope has
declared before; a variable that is read in its own initializer. The analysis complains about all of
these and about nothing else.

* `mem_findingsExpr`, `mem_findingsStmt` and their companions: what is complained about in a tree,
  and what its place adds to that.
* `mem_findings_iff`: the complaints about a program are its offences.
-/

namespace Roteiro

namespace Scope

/-! ### Offences -/

/-- What is wrong with the names that a scope declares, first the parameters and then those of the
statements. -/
inductive Clashes (params : List Token) (body : List Stmt) : Token → Cause → Prop
  /-- The name has been declared before. -/
  | again {before after : List Token} {name : Token}
      (hnames : params ++ declaredBy body = before ++ name :: after)
      (hbefore : name.lexeme ∈ before.map Token.lexeme) : Clashes params body name .alreadyDeclared
  /-- The variable is new, and its value is not there yet. -/
  | early {before after : List Stmt} {name read : Token} {value : Expr}
      (hbody : body = before ++ .var name (some value) :: after)
      (hnew : name.lexeme ∉ (params ++ declaredBy before).map Token.lexeme)
      (hread : read ∈ value.reads) (hname : read.lexeme = name.lexeme) :
      Clashes params body read .ownInitializer

/-- The scopes that a node opens, each by its parameters and its statements. -/
def bodies : Node → List (List Token × List Stmt)
  | .stmt (.block body) => [([], body)]
  | .stmt (.function decl) => [(decl.params, decl.body)]
  | .stmt (.classDecl _ methods) => methods.map fun f => (f.params, f.body)
  | .expr (.lambda decl) => [(decl.params, decl.body)]
  | _ => []

/-- The token breaks a rule at this node, inside of the constructs `Γ`. -/
inductive Offence (t : Token) : Cause → List Around → Node → Prop
  | topLevelReturn {Γ : List Around} {value? : Option Expr} (h : ¬ InFunction Γ) :
      Offence t .topLevelReturn Γ (.stmt (.result t value?))
  | initializerReturn {Γ : List Around} {value : Expr} (h : InInitializer Γ) :
      Offence t .initializerReturn Γ (.stmt (.result t (some value)))
  | selfOutsideClass {Γ : List Around} {id : Nat} (h : .classBody ∉ Γ) :
      Offence t .selfOutsideClass Γ (.expr (.self id t))
  | breakOutsideLoop {Γ : List Around} (h : ¬ InLoop Γ) :
      Offence t .breakOutsideLoop Γ (.stmt (.exitLoop t))
  | continueOutsideLoop {Γ : List Around} (h : ¬ InLoop Γ) :
      Offence t .continueOutsideLoop Γ (.stmt (.nextIteration t))
  | name {Γ : List Around} {node : Node} {params : List Token} {body : List Stmt} {cause : Cause}
      (hbody : (params, body) ∈ bodies node) (h : Clashes params body t cause) :
      Offence t cause Γ node

/-- The token breaks a rule somewhere in the program. -/
def Offends (program : List Stmt) (t : Token) (cause : Cause) : Prop :=
  ∃ Γ node, Written program Γ node ∧ Offence t cause Γ node

/-- Something that stands in the node has the property. -/
def Somewhere (P : List Around → Node → Prop) (Γ : List Around) (node : Node) : Prop :=
  ∃ Δ x, node.Inside Δ x ∧ P (Δ ++ Γ) x

theorem somewhere_iff {P : List Around → Node → Prop} {Γ : List Around} {node : Node} :
    Somewhere P Γ node ↔ P Γ node ∨ ∃ p ∈ node.parts, Somewhere P (p.1 ++ Γ) p.2 := by
  constructor
  · rintro ⟨Δ, x, hx, hP⟩
    cases hx with
    | refl => exact .inl hP
    | part hpart hx =>
      rw [List.append_assoc] at hP
      exact .inr ⟨_, hpart, _, _, hx, hP⟩
  · rintro (hP | ⟨p, hp, Δ, x, hx, hP⟩)
    · exact ⟨[], node, .refl node, hP⟩
    · rw [← List.append_assoc] at hP
      exact ⟨_, x, .part hp hx, hP⟩

/-- The parts of a class are the statements of its methods. -/
theorem somewhere_methods {P : List Around → Node → Prop} {Γ : List Around} {name : Token}
    {methods : List FunctionDecl} :
    (∃ p ∈ (Node.stmt (.classDecl name methods)).parts, Somewhere P (p.1 ++ Γ) p.2) ↔
      ∃ f ∈ methods, ∃ s ∈ f.body, Somewhere P (.method f :: .classBody :: Γ) (.stmt s) := by
  simp only [Node.parts, List.mem_flatMap, List.mem_map]
  constructor
  · rintro ⟨_, ⟨f, hf, s, hs, rfl⟩, hsomewhere⟩
    exact ⟨f, hf, s, hs, hsomewhere⟩
  · rintro ⟨f, hf, s, hs, hsomewhere⟩
    exact ⟨_, ⟨f, hf, s, hs, rfl⟩, hsomewhere⟩

theorem offends_iff {program : List Stmt} {t : Token} {cause : Cause} :
    Offends program t cause ↔ ∃ s ∈ program, Somewhere (Offence t cause) [] (.stmt s) := by
  constructor
  · rintro ⟨Γ, node, ⟨s, hs, hinside⟩, h⟩
    exact ⟨s, hs, Γ, node, hinside, by rwa [List.append_nil]⟩
  · rintro ⟨s, hs, Γ, node, hinside, h⟩
    rw [List.append_nil] at h
    exact ⟨Γ, node, ⟨s, hs, hinside⟩, h⟩

/-! ### Complaints about names -/

/-- The name has been declared in the scope, or is declared earlier in the list. -/
def Again (p : Place) (names : List Token) (t : Token) : Prop :=
  ∃ before after, names = before ++ t :: after ∧ (p.after before).binds t.lexeme = true

/-- Among the statements a variable is declared that is new in the scope, and it is read in its own
initializer. -/
def Early (p : Place) (ss : List Stmt) (t : Token) : Prop :=
  ∃ before name value after, ss = before ++ .var name (some value) :: after ∧ p.scopes ≠ [] ∧
    (p.after (declaredBy before)).binds name.lexeme = false ∧ t ∈ value.reads ∧
    t.lexeme = name.lexeme

/-- What statements add to the complaints about the scope that they stand in. -/
def Troubles (p : Place) (ss : List Stmt) (t : Token) (cause : Cause) : Prop :=
  cause = .alreadyDeclared ∧ Again p (declaredBy ss) t ∨ cause = .ownInitializer ∧ Early p ss t

variable {p : Place} {t : Token} {cause : Cause} {Γ : List Around}

theorem after_append (p : Place) (xs ys : List Token) :
    p.after (xs ++ ys) = (p.after xs).after ys := by
  simp only [Place.after, withNames_append]

theorem again_nil : ¬ Again p [] t := by
  rintro ⟨before, after, h, -⟩
  cases before <;> cases h

theorem again_append {xs ys : List Token} :
    Again p (xs ++ ys) t ↔ Again p xs t ∨ Again (p.after xs) ys t := by
  constructor
  · rintro ⟨before, after, h, hbound⟩
    rcases List.append_eq_append_iff.mp h with ⟨more, rfl, rfl⟩ | ⟨more, rfl, hmore⟩
    · rw [after_append] at hbound
      exact .inr ⟨more, after, rfl, hbound⟩
    · cases more with
      | nil =>
        rw [List.append_nil]
        exact .inr ⟨[], after, hmore.symm, by simpa using hbound⟩
      | cons u more =>
        cases hmore
        exact .inl ⟨before, more, rfl, hbound⟩
  · rintro (⟨before, after, rfl, hbound⟩ | ⟨before, after, rfl, hbound⟩)
    · exact ⟨before, after ++ ys, by simp, hbound⟩
    · rw [← after_append] at hbound
      exact ⟨xs ++ before, after, by simp, hbound⟩

theorem again_single {name : Token} : Again p [name] t ↔ t = name ∧ p.binds t.lexeme = true := by
  constructor
  · rintro ⟨before, after, h, hbound⟩
    cases before with
    | nil =>
      cases h
      exact ⟨rfl, by simpa using hbound⟩
    | cons u before => simp at h
  · rintro ⟨rfl, hbound⟩
    exact ⟨[], [], rfl, by simpa using hbound⟩

theorem early_cons {s : Stmt} {ss : List Stmt} :
    Early p (s :: ss) t ↔ Early p [s] t ∨ Early (p.after (declared s)) ss t := by
  have hscopes : (p.after (declared s)).scopes ≠ [] ↔ p.scopes ≠ [] :=
    not_congr withNames_eq_nil
  constructor
  · rintro ⟨before, name, value, after, h, hscope, hnew, hread, hname⟩
    cases before with
    | nil =>
      cases h
      exact .inl ⟨[], name, value, [], rfl, hscope, hnew, hread, hname⟩
    | cons u before =>
      cases h
      have hbefore : declaredBy (s :: before) = declared s ++ declaredBy before :=
        List.flatMap_cons
      rw [hbefore, after_append] at hnew
      exact .inr ⟨before, name, value, after, rfl, hscopes.mpr hscope, hnew, hread, hname⟩
  · rintro (⟨before, name, value, after, h, hscope, hnew, hread, hname⟩ |
      ⟨before, name, value, after, rfl, hscope, hnew, hread, hname⟩)
    · cases before with
      | nil =>
        cases h
        exact ⟨[], name, value, ss, rfl, hscope, hnew, hread, hname⟩
      | cons u before => simp at h
    · have hbefore : declaredBy (s :: before) = declared s ++ declaredBy before :=
        List.flatMap_cons
      rw [← after_append, ← hbefore] at hnew
      exact ⟨s :: before, name, value, after, rfl, hscopes.mp hscope, hnew, hread, hname⟩

theorem troubles_nil : ¬ Troubles p [] t cause := by
  rintro (⟨-, h⟩ | ⟨-, before, name, value, after, h, -⟩)
  · exact again_nil h
  · cases before <;> cases h

theorem troubles_cons {s : Stmt} {ss : List Stmt} :
    Troubles p (s :: ss) t cause ↔
      Troubles p [s] t cause ∨ Troubles (p.after (declared s)) ss t cause := by
  have hnames : declaredBy (s :: ss) = declared s ++ declaredBy ss := List.flatMap_cons
  have hname : declaredBy [s] = declared s := by simp [declaredBy]
  simp only [Troubles, hnames, hname, again_append]
  rw [early_cons, and_or_left, and_or_left, or_or_or_comm]

/-- A statement that is no declaration adds nothing. -/
theorem troubles_of_bindsNothing {s : Stmt} (h : s.BindsNothing) : ¬ Troubles p [s] t cause := by
  rintro (⟨-, hagain⟩ | ⟨-, before, name, value, after, hs, -⟩)
  · have hnone : declaredBy [s] = [] := by simp [declaredBy, declared_of_bindsNothing s h]
    rw [hnone] at hagain
    exact again_nil hagain
  · cases before with
    | nil =>
      cases hs
      exact h
    | cons u before => simp at hs

/-- A declaration other than that of a variable with a value adds its name. -/
theorem troubles_of_names {s : Stmt} {names : List Token} (hnames : declared s = names)
    (hvar : ∀ name value, s ≠ .var name (some value)) :
    Troubles p [s] t cause ↔ cause = .alreadyDeclared ∧ Again p names t := by
  have hname : declaredBy [s] = names := by simp [declaredBy, hnames]
  rw [Troubles, hname]
  refine or_iff_left ?_
  rintro ⟨-, before, name, value, after, hs, -⟩
  cases before with
  | nil =>
    cases hs
    exact hvar name value rfl
  | cons u before => simp at hs

theorem troubles_var {name : Token} {value : Expr} :
    Troubles p [.var name (some value)] t cause ↔
      cause = .alreadyDeclared ∧ Again p [name] t ∨
      cause = .ownInitializer ∧ p.scopes ≠ [] ∧ p.binds name.lexeme = false ∧ t ∈ value.reads ∧
        t.lexeme = name.lexeme := by
  have hname : declaredBy [.var name (some value)] = [name] := rfl
  have hearly : Early p [.var name (some value)] t ↔ p.scopes ≠ [] ∧
      p.binds name.lexeme = false ∧ t ∈ value.reads ∧ t.lexeme = name.lexeme := by
    constructor
    · rintro ⟨before, name', value', after, hs, hscope, hnew, hread, hlexeme⟩
      cases before with
      | nil =>
        cases hs
        exact ⟨hscope, by simpa [declaredBy] using hnew, hread, hlexeme⟩
      | cons u before => simp at hs
    · rintro ⟨hscope, hnew, hread, hlexeme⟩
      exact ⟨[], name, value, [], rfl, hscope, by simpa [declaredBy] using hnew, hread, hlexeme⟩
  rw [Troubles, hname, hearly]

/-- The names of a scope that has been opened for them. -/
theorem binds_opened {names : List Token} {x : String} :
    ((p.inside []).after names).binds x = true ↔ x ∈ names.map Token.lexeme := by
  have hbinds := binds_withDefined [] names x
  have hempty : ¬ Bindings.binds x ([] : Bindings Stage) = true := nofun
  rwa [or_iff_right hempty] at hbinds

/-- What is wrong with the names of a scope that has just been opened. -/
theorem clashes_iff {params : List Token} {body : List Stmt} :
    cause = .alreadyDeclared ∧ Again (p.inside []) params t ∨
      Troubles ((p.inside []).after params) body t cause ↔ Clashes params body t cause := by
  have hopened : ((p.inside []).after params).scopes ≠ [] := List.cons_ne_nil _ _
  have hnew : ∀ names (x : String), ((p.inside []).after names).binds x = false ↔
      x ∉ names.map Token.lexeme := fun names x => by
    rw [← binds_opened (p := p), Bool.not_eq_true]
  constructor
  · rintro (⟨rfl, hparam⟩ | ⟨rfl, hname⟩ | ⟨rfl, before, name, value, after, rfl, -, hfree, hread,
      hlexeme⟩)
    · obtain ⟨before, after, hnames, hbound⟩ := again_append.mpr (.inl hparam)
      exact .again hnames (binds_opened.mp hbound)
    · obtain ⟨before, after, hnames, hbound⟩ := again_append.mpr (.inr hname)
      exact .again hnames (binds_opened.mp hbound)
    · rw [← after_append, hnew] at hfree
      exact .early rfl hfree hread hlexeme
  · intro h
    cases h with
    | again hnames hbefore =>
      have hagain : Again (p.inside []) (params ++ declaredBy body) t :=
        ⟨_, _, hnames, binds_opened.mpr hbefore⟩
      rcases again_append.mp hagain with hagain | hagain
      · exact .inl ⟨rfl, hagain⟩
      · exact .inr (.inl ⟨rfl, hagain⟩)
    | early hbody hfree hread hlexeme =>
      rw [← hnew, after_append] at hfree
      exact .inr (.inr ⟨rfl, _, _, _, _, hbody, hopened, hfree, hread, hlexeme⟩)

theorem troubles_opened {body : List Stmt} :
    Troubles (p.inside []) body t cause ↔ Clashes [] body t cause := by
  rw [← clashes_iff (p := p), Place.after_nil, or_iff_right fun h => again_nil h.2]

/-- A complaint that is made where something holds. -/
theorem mem_reportIf {P : Prop} [Decidable P] {token : Token} {c : Cause} :
    .resolve t cause ∈ (if P then [Report.resolve token c] else []) ↔ t = token ∧ cause = c ∧ P := by
  split
  · next h => simp [h]
  · next h => simp [h]

theorem mem_clashes {names : List Token} :
    .resolve t cause ∈ p.clashes names ↔ cause = .alreadyDeclared ∧ Again p names t := by
  induction names generalizing p with
  | nil => simp [Place.clashes, again_nil]
  | cons name names ih =>
    have hsplit : Again p (name :: names) t ↔ Again p [name] t ∨ Again (p.after [name]) names t :=
      @again_append p t [name] names
    rw [Place.clashes, List.mem_append, ih, hsplit, again_single, mem_reportIf, and_or_left]
    refine or_congr_left ?_
    constructor
    · rintro ⟨rfl, hcause, hbound⟩
      exact ⟨hcause, rfl, hbound⟩
    · rintro ⟨hcause, rfl, hbound⟩
      exact ⟨rfl, hcause, hbound⟩

/-- While a variable waits for its value, it is the only one of its scope that does, if it is new
there. -/
theorem awaits_initializing (hcomplete : Complete p.scopes) {name : Token} {x : String} :
    (p.initializing name).awaits x = true ↔
      p.scopes ≠ [] ∧ p.binds name.lexeme = false ∧ x = name.lexeme := by
  obtain ⟨scopes, inClass⟩ := p
  cases scopes with
  | nil => simp [Place.initializing, Place.awaits]
  | cons scope outer =>
    have hold : ∀ x, scope.find? x ≠ some .declared := hcomplete scope rfl
    by_cases hbound : scope.binds name.lexeme
    · simp [Place.initializing, Place.awaits, Place.binds, hbound, hold]
    · by_cases hx : x = name.lexeme
      · subst hx
        simp [Place.initializing, Place.awaits, Place.binds, hbound]
      · simp [Place.initializing, Place.awaits, Place.binds, hbound, hx,
          Bindings.find?_insert_of_ne hx, hold]

/-- Where no name waits for its value, none is read in its own initializer. -/
theorem not_awaits (hcomplete : Complete p.scopes) (x : String) : p.awaits x = false := by
  obtain ⟨scopes, inClass⟩ := p
  cases scopes with
  | nil => rfl
  | cons scope outer => simpa [Place.awaits] using hcomplete scope rfl x

/-! ### Complaints about trees -/

/-- The place of a statement, with these constructs around it. -/
structure Lies (around : Body) (inLoop : Bool) (p : Place) (Γ : List Around) : Prop where
  body : around = bodyAt Γ
  inClass : p.inClass = true ↔ .classBody ∈ Γ
  loops : inLoop = true ↔ InLoop Γ
  complete : Complete p.scopes

/-- What is wrong at a node, by its kind. -/
theorem offence_iff {node : Node} : Offence t cause Γ node ↔
    match node with
    | .stmt (.result keyword value?) =>
      t = keyword ∧ (cause = .topLevelReturn ∧ ¬ InFunction Γ ∨
        cause = .initializerReturn ∧ value?.isSome = true ∧ InInitializer Γ)
    | .expr (.self _ keyword) => t = keyword ∧ cause = .selfOutsideClass ∧ .classBody ∉ Γ
    | .stmt (.exitLoop keyword) => t = keyword ∧ cause = .breakOutsideLoop ∧ ¬ InLoop Γ
    | .stmt (.nextIteration keyword) => t = keyword ∧ cause = .continueOutsideLoop ∧ ¬ InLoop Γ
    | node => ∃ b ∈ bodies node, Clashes b.1 b.2 t cause := by
  constructor
  · intro h
    cases h with
    | topLevelReturn h => exact ⟨rfl, .inl ⟨rfl, h⟩⟩
    | initializerReturn h => exact ⟨rfl, .inr ⟨rfl, rfl, h⟩⟩
    | selfOutsideClass h | breakOutsideLoop h | continueOutsideLoop h => exact ⟨rfl, rfl, h⟩
    | name hbody h =>
      split
      case h_5 => exact ⟨_, hbody, h⟩
      all_goals cases hbody
  · intro h
    split at h
    · obtain ⟨rfl, ⟨rfl, h⟩ | ⟨rfl, hvalue, h⟩⟩ := h
      · exact .topLevelReturn h
      · obtain ⟨value, rfl⟩ := Option.isSome_iff_exists.mp hvalue
        exact .initializerReturn h
    · obtain ⟨rfl, rfl, h⟩ := h
      exact .selfOutsideClass h
    · obtain ⟨rfl, rfl, h⟩ := h
      exact .breakOutsideLoop h
    · obtain ⟨rfl, rfl, h⟩ := h
      exact .continueOutsideLoop h
    · obtain ⟨b, hb, h⟩ := h
      exact .name hb h

theorem lies_program : Lies .program false ⟨[], false⟩ [] where
  body := rfl
  inClass := by simp
  loops := by simp [InLoop]
  complete := nofun

section Lies

variable {around : Body} {inLoop : Bool}

/-- Behind some declarations of the scope. -/
theorem Lies.after (h : Lies around inLoop p Γ) (names : List Token) :
    Lies around inLoop (p.after names) Γ :=
  ⟨h.body, h.inClass, h.loops, h.complete.withNames names⟩

theorem Lies.block (h : Lies around inLoop p Γ) :
    Lies around inLoop (p.inside []) (.block :: Γ) where
  body := h.body.trans (bodyAt_cons rfl Γ).symm
  inClass := by simpa [Place.inside] using h.inClass
  loops := by simpa [inLoop_cons, Around.isFunction] using h.loops
  complete := complete_opened _

theorem Lies.step (h : Lies around inLoop p Γ) : Lies around inLoop (p.inside []) (.step :: Γ) where
  body := h.body.trans (bodyAt_cons rfl Γ).symm
  inClass := by simpa [Place.inside] using h.inClass
  loops := by simpa [inLoop_cons, Around.isFunction] using h.loops
  complete := complete_opened _

theorem Lies.loop (h : Lies around inLoop p Γ) : Lies around true p (.loop :: Γ) where
  body := h.body.trans (bodyAt_cons rfl Γ).symm
  inClass := by simpa using h.inClass
  loops := by simp [inLoop_cons, Around.isFunction]
  complete := h.complete

/-- In a function, behind its parameters. -/
theorem lies_function {around : Around} (hfunction : around.isFunction = true)
    (hclass : p.inClass = true ↔ .classBody ∈ Γ) (params : List Token) :
    Lies (bodyAt (around :: Γ)) false (p.body params) (around :: Γ) where
  body := rfl
  inClass := by
    have hne : Around.classBody ≠ around := by
      rintro rfl
      cases hfunction
    simpa [Place.body, Place.after, Place.inside, hne] using hclass
  loops := by simp [inLoop_cons, hfunction]
  complete := (complete_opened _).withNames params

end Lies

/-- One of the names that are read waits for its value. -/
def Waits (p : Place) (reads : List Token) (t : Token) (cause : Cause) : Prop :=
  cause = .ownInitializer ∧ t ∈ reads ∧ p.awaits t.lexeme = true

theorem waits_nil : ¬ Waits p [] t cause := by simp [Waits]

theorem waits_append {xs ys : List Token} :
    Waits p (xs ++ ys) t cause ↔ Waits p xs t cause ∨ Waits p ys t cause := by
  simp only [Waits, List.mem_append, or_and_right, and_or_left]

theorem waits_of_complete (hcomplete : Complete p.scopes) (reads : List Token) :
    ¬ Waits p reads t cause := by simp [Waits, not_awaits hcomplete]

mutual

theorem mem_findingsExpr (e : Expr) (h : e.Orderly) {p : Place} {Γ : List Around}
    (hclass : p.inClass = true ↔ .classBody ∈ Γ) :
    .resolve t cause ∈ e.findings p ↔
      Somewhere (Offence t cause) Γ (.expr e) ∨ Waits p e.reads t cause := by
  have hparts := (Node.orderly_iff.mp h).2
  rw [somewhere_iff, offence_iff]
  match e with
  | .literal _ => simp [Expr.findings, bodies, waits_nil]
  | .unary _ operand =>
    have hoperand : operand.Orderly := by simpa using hparts
    simp [Expr.findings, mem_findingsExpr operand hoperand hclass, bodies]
  | .group inner =>
    have hinner : inner.Orderly := by simpa using hparts
    simp [Expr.findings, mem_findingsExpr inner hinner hclass, bodies]
  | .get object _ =>
    have hobject : object.Orderly := by simpa using hparts
    simp [Expr.findings, mem_findingsExpr object hobject hclass, bodies]
  | .assign _ _ value =>
    have hvalue : value.Orderly := by simpa using hparts
    simp [Expr.findings, mem_findingsExpr value hvalue hclass, bodies]
  | .var _ name =>
    rw [Expr.findings, mem_reportIf]
    simp only [bodies, Node.parts, List.not_mem_nil, false_and, exists_const, exists_false, or_self,
      false_or, Waits, Expr.reads, List.mem_singleton]
    grind
  | .self _ keyword =>
    rw [Expr.findings, ← ite_not, mem_reportIf, hclass]
    simp [waits_nil]
  | .binary left _ right | .logical left _ right | .index _ left right | .set left _ right =>
    obtain ⟨hleft, hright⟩ : left.Orderly ∧ right.Orderly := by simpa using hparts
    simp [Expr.findings, mem_findingsExpr left hleft hclass, mem_findingsExpr right hright hclass,
      bodies, waits_append, or_assoc, or_left_comm]
  | .conditional test yes no =>
    obtain ⟨htest, hyes, hno⟩ : test.Orderly ∧ yes.Orderly ∧ no.Orderly := by simpa using hparts
    simp [Expr.findings, mem_findingsExpr test htest hclass, mem_findingsExpr yes hyes hclass,
      mem_findingsExpr no hno hclass, bodies, waits_append, or_assoc, or_left_comm]
  | .indexSet _ base key value =>
    obtain ⟨hbase, hkey, hvalue⟩ : base.Orderly ∧ key.Orderly ∧ value.Orderly := by
      simpa using hparts
    simp [Expr.findings, mem_findingsExpr base hbase hclass, mem_findingsExpr key hkey hclass,
      mem_findingsExpr value hvalue hclass, bodies, waits_append, or_assoc, or_left_comm]
  | .call callee _ arguments =>
    obtain ⟨hcallee, harguments⟩ : callee.Orderly ∧ ∀ e ∈ arguments, e.Orderly := by
      simpa using hparts
    simp [Expr.findings, mem_findingsExpr callee hcallee hclass,
      mem_findingsExprs arguments harguments hclass, bodies, waits_append, or_assoc, or_left_comm,
      -Prod.exists]
  | .array _ elements =>
    have helements : ∀ e ∈ elements, e.Orderly := by simpa using hparts
    simp [Expr.findings, mem_findingsExprs elements helements hclass, bodies, -Prod.exists]
  | .lambda decl =>
    have hdecl : decl.Orderly := by simpa using hparts
    have hbody : bodyAt (.function decl :: Γ) = .function := rfl
    rw [Expr.findings, ← hbody, mem_findingsFunction decl hdecl rfl hclass]
    simp [bodies, waits_nil, -Prod.exists]

theorem mem_findingsExprs (es : List Expr) (h : ∀ e ∈ es, e.Orderly) {p : Place}
    {Γ : List Around} (hclass : p.inClass = true ↔ .classBody ∈ Γ) :
    .resolve t cause ∈ findingsOfExprs es p ↔
      (∃ e ∈ es, Somewhere (Offence t cause) Γ (.expr e)) ∨ Waits p (readsOfExprs es) t cause := by
  match es with
  | [] => simp [findingsOfExprs, waits_nil]
  | e :: es =>
    obtain ⟨he, hes⟩ := List.forall_mem_cons.mp h
    simp [findingsOfExprs, mem_findingsExpr e he hclass, mem_findingsExprs es hes hclass,
      waits_append, or_assoc, or_left_comm]

theorem mem_findingsStmt (s : Stmt) (h : s.Orderly) {p : Place} {Γ : List Around} {around : Body}
    {inLoop : Bool} (hlies : Lies around inLoop p Γ) :
    .resolve t cause ∈ s.findings around inLoop p ↔
      Somewhere (Offence t cause) Γ (.stmt s) ∨ Troubles p [s] t cause := by
  obtain ⟨hregular, hparts⟩ := Node.orderly_iff.mp h
  have hclass := hlies.inClass
  rw [somewhere_iff, offence_iff]
  match s with
  | .expression e =>
    have he : e.Orderly := by simpa using hparts
    have hnone : ¬ Troubles p [.expression e] t cause := troubles_of_bindsNothing trivial
    simp [Stmt.findings, mem_findingsExpr e he hclass, waits_of_complete hlies.complete, bodies,
      hnone]
  | .print e =>
    have he : e.Orderly := by simpa using hparts
    have hnone : ¬ Troubles p [.print e] t cause := troubles_of_bindsNothing trivial
    simp [Stmt.findings, mem_findingsExpr e he hclass, waits_of_complete hlies.complete, bodies,
      hnone]
  | .var name none =>
    have hname : Troubles p [.var name none] t cause ↔ _ := troubles_of_names rfl nofun
    simp [Stmt.findings, mem_clashes, hname, bodies, declared]
  | .var name (some value) =>
    have hvalue : value.Orderly := by simpa using hparts
    have hclass' : (p.initializing name).inClass = true ↔ .classBody ∈ Γ := hclass
    have hwaits : Waits (p.initializing name) value.reads t cause ↔ cause = .ownInitializer ∧
        p.scopes ≠ [] ∧ p.binds name.lexeme = false ∧ t ∈ value.reads ∧ t.lexeme = name.lexeme := by
      rw [Waits, awaits_initializing hlies.complete]
      grind
    rw [Stmt.findings, List.mem_append, mem_clashes, mem_findingsExpr value hvalue hclass', hwaits,
      troubles_var]
    simp [bodies, or_left_comm]
  | .block body =>
    have hbody : ∀ s ∈ body, s.Orderly := by simpa using hparts
    have hnone : ¬ Troubles p [.block body] t cause := troubles_of_bindsNothing trivial
    rw [Stmt.findings, mem_findingsStmts body hbody hlies.block, troubles_opened]
    simp [bodies, hnone, or_comm, -Prod.exists]
  | .ifElse test yes none =>
    obtain ⟨htest, hyes⟩ : test.Orderly ∧ yes.Orderly := by simpa using hparts
    have hplain : ¬ Troubles p [yes] t cause := troubles_of_bindsNothing hregular
    have hnone : ¬ Troubles p [.ifElse test yes none] t cause := troubles_of_bindsNothing hregular
    simp [Stmt.findings, mem_findingsExpr test htest hclass, waits_of_complete hlies.complete,
      mem_findingsStmt yes hyes hlies, hplain, hnone, bodies]
  | .ifElse test yes (some no) =>
    obtain ⟨htest, hyes, hno⟩ : test.Orderly ∧ yes.Orderly ∧ no.Orderly := by simpa using hparts
    have hplain : ¬ Troubles p [yes] t cause := troubles_of_bindsNothing hregular.1
    have hplain' : ¬ Troubles p [no] t cause := troubles_of_bindsNothing hregular.2
    have hnone : ¬ Troubles p [.ifElse test yes (some no)] t cause :=
      troubles_of_bindsNothing hregular
    simp [Stmt.findings, mem_findingsExpr test htest hclass, waits_of_complete hlies.complete,
      mem_findingsStmt yes hyes hlies, declared_of_bindsNothing yes hregular.1,
      mem_findingsStmt no hno hlies, hplain, hplain', hnone, bodies]
  | .loop test body none =>
    obtain ⟨htest, hbody⟩ : test.Orderly ∧ body.Orderly := by simpa using hparts
    have hplain : ¬ Troubles p [body] t cause := troubles_of_bindsNothing hregular
    have hnone : ¬ Troubles p [.loop test body none] t cause := troubles_of_bindsNothing hregular
    simp [Stmt.findings, mem_findingsExpr test htest hclass, waits_of_complete hlies.complete,
      mem_findingsStmt body hbody hlies.loop, hplain, hnone, bodies]
  | .loop test body (some step) =>
    obtain ⟨htest, hbody, hstep⟩ : test.Orderly ∧ body.Orderly ∧ step.Orderly := by
      simpa using hparts
    have hlies' := (hlies.after (declared body)).step
    rw [Stmt.findings, List.mem_append, List.mem_append, mem_findingsExpr test htest hclass,
      mem_findingsStmt body hbody hlies.loop, mem_findingsStmt step hstep hlies']
    obtain ⟨b, e, rfl, rfl, hb⟩ := hregular
    have hplain : ¬ Troubles p [.block [b, .expression e]] t cause :=
      troubles_of_bindsNothing trivial
    have hplain' : ∀ p, ¬ Troubles p [.expression e] t cause :=
      fun p => troubles_of_bindsNothing trivial
    have hnone : ¬ Troubles p [.loop test (.block [b, .expression e]) (some (.expression e))] t
        cause := troubles_of_bindsNothing trivial
    simp [waits_of_complete hlies.complete, hplain, hplain', hnone, bodies]
  | .exitLoop keyword =>
    have hnone : ¬ Troubles p [.exitLoop keyword] t cause := troubles_of_bindsNothing trivial
    rw [Stmt.findings, ← ite_not, mem_reportIf, hlies.loops]
    simp [hnone]
  | .nextIteration keyword =>
    have hnone : ¬ Troubles p [.nextIteration keyword] t cause := troubles_of_bindsNothing trivial
    rw [Stmt.findings, ← ite_not, mem_reportIf, hlies.loops]
    simp [hnone]
  | .function decl =>
    have hdecl : decl.Orderly := by simpa using hparts
    have hbody : bodyAt (.function decl :: Γ) = .function := rfl
    have hname : Troubles p [.function decl] t cause ↔ _ := troubles_of_names rfl nofun
    rw [Stmt.findings, List.mem_append, mem_clashes, ← hbody,
      mem_findingsFunction decl hdecl rfl (hlies.after _).inClass, hname]
    simp [bodies, declared, or_comm, -Prod.exists]
  | .result keyword none =>
    have hnone : ¬ Troubles p [.result keyword none] t cause := troubles_of_bindsNothing trivial
    rw [Stmt.findings, mem_reportIf, hlies.body, bodyAt_eq_program]
    simp [hnone]
  | .result keyword (some value) =>
    have hvalue : value.Orderly := by simpa using hparts
    have hnone : ¬ Troubles p [.result keyword (some value)] t cause :=
      troubles_of_bindsNothing trivial
    rw [Stmt.findings, List.mem_append, List.mem_append, mem_reportIf, mem_reportIf,
      mem_findingsExpr value hvalue hclass, hlies.body, bodyAt_eq_program, bodyAt_eq_initializer]
    simp [waits_of_complete hlies.complete, hnone, and_or_left, or_assoc]
  | .classDecl name methods =>
    have hmethods : ∀ f ∈ methods, f.Orderly := fun f hf s hs =>
      hparts _ (List.mem_flatMap.mpr ⟨f, hf, List.mem_map_of_mem hs⟩)
    have hname : Troubles p [.classDecl name methods] t cause ↔ _ := troubles_of_names rfl nofun
    have hclass' : (p.methods name).inClass = true ↔ .classBody ∈ .classBody :: Γ := by
      simp [Place.methods, Place.inside]
    rw [Stmt.findings, List.mem_append, mem_clashes, mem_findingsMethods methods hmethods hclass',
      hname, somewhere_methods]
    simp [bodies, declared, and_or_left, exists_or, or_comm]

theorem mem_findingsStmts (ss : List Stmt) (h : ∀ s ∈ ss, s.Orderly) {p : Place}
    {Γ : List Around} {around : Body} {inLoop : Bool} (hlies : Lies around inLoop p Γ) :
    .resolve t cause ∈ findingsOfStmts ss around inLoop p ↔
      (∃ s ∈ ss, Somewhere (Offence t cause) Γ (.stmt s)) ∨ Troubles p ss t cause := by
  match ss with
  | [] => simp [findingsOfStmts, troubles_nil]
  | s :: ss =>
    obtain ⟨hs, hss⟩ := List.forall_mem_cons.mp h
    rw [findingsOfStmts, List.mem_append, mem_findingsStmt s hs hlies,
      mem_findingsStmts ss hss (hlies.after _), or_or_or_comm, ← troubles_cons,
      List.exists_mem_cons_iff]

theorem mem_findingsFunction (f : FunctionDecl) (h : f.Orderly) {p : Place} {Γ : List Around}
    {around : Around}
    (hfunction : around.isFunction = true) (hclass : p.inClass = true ↔ .classBody ∈ Γ) :
    .resolve t cause ∈ f.findings (bodyAt (around :: Γ)) p ↔
      Clashes f.params f.body t cause ∨
        ∃ s ∈ f.body, Somewhere (Offence t cause) (around :: Γ) (.stmt s) := by
  match f with
  | ⟨_, params, body⟩ =>
    have hlies := lies_function hfunction hclass params
    rw [FunctionDecl.findings, List.mem_append, mem_clashes, mem_findingsStmts body h hlies,
      or_left_comm, Place.body, clashes_iff, or_comm]

theorem mem_findingsMethods (fs : List FunctionDecl) (h : ∀ f ∈ fs, f.Orderly) {p : Place}
    {Γ : List Around} (hclass : p.inClass = true ↔ .classBody ∈ Γ) :
    .resolve t cause ∈ findingsOfMethods fs p ↔ ∃ f ∈ fs, Clashes f.params f.body t cause ∨
      ∃ s ∈ f.body, Somewhere (Offence t cause) (.method f :: Γ) (.stmt s) := by
  match fs with
  | [] => simp [findingsOfMethods]
  | f :: fs =>
    obtain ⟨hf, hfs⟩ := List.forall_mem_cons.mp h
    have hbody : bodyAt (.method f :: Γ) = methodBody f := rfl
    rw [findingsOfMethods, List.mem_append, ← hbody, mem_findingsFunction f hf rfl hclass,
      mem_findingsMethods fs hfs hclass, List.exists_mem_cons_iff]

end

/-- Every complaint about a program is about an offence, and every offence is complained about. -/
theorem mem_findings_iff {program : List Stmt} (h : ∀ s ∈ program, s.Orderly) :
    .resolve t cause ∈ findings program ↔ Offends program t cause := by
  have hglobal : ¬ Troubles ⟨[], false⟩ program t cause := by
    rintro (⟨-, before, after, -, hbound⟩ | ⟨-, before, name, value, after, -, hscope, -⟩)
    · cases hbound
    · exact hscope rfl
  rw [findings, mem_findingsStmts program h lies_program, offends_iff, or_iff_left hglobal]

end Scope

end Roteiro
