import Roteiro.Proofs.Session.History

/-!
# What a name reaches

The analysis gives an occurrence of a name a depth, and the machine goes so many frames outwards to
find the name. That the two agree is the point of the analysis: the frame which is reached was
opened for the scope in which the source declares the name, and whatever binds the name in that
frame is the one declaration that the source has there.

The only way not to find the name is to look for it too early. The analysis knows a name from the
start of its declaration; the frame has it from the end. In between there is nothing but the
initializer of a variable.

* `Since.reaches`: an occurrence with a depth reaches the frame of the scope that declares the name.
-/

namespace Roteiro

open Scope Machine

/-! ### What the source declares -/

namespace Scope

/-- The scope that declares a name at a place, and the declaration in it. -/
def declarationIn (Γ : List Layer) (name : String) : Option (Site × Token) := do
  let d ← depthIn Γ name
  let L ← Γ[d]?
  let S ← L.site?
  let t ← S.names.find? fun t => t.lexeme = name
  return (S, t)

/-- `S` declares a name by the token `t` and by no other, around the occurrence `id`. -/
structure Site.Declares (S : Site) (id : Nat) (name : String) (t : Token) : Prop where
  inside : id ∈ S.ids
  declared : t ∈ S.names
  spelled : t.lexeme = name
  only : ∀ t' ∈ S.names, t'.lexeme = name → t' = t

/-- The occurrence stands in the initializer of the variable that `t` declares in `S`. -/
def Site.Initializes (S : Site) (t : Token) (id : Nat) : Prop :=
  ∃ e, .var t (some e) ∈ S.statements ∧ id ∈ e.ids

/-- Two tokens of one spelling among names without repetition are the same. -/
theorem eq_of_lexeme_eq {names : List Token} (h : (names.map Token.lexeme).Nodup) {t t' : Token}
    (ht : t ∈ names) (ht' : t' ∈ names) (heq : t.lexeme = t'.lexeme) : t = t' := by
  induction names with
  | nil => cases ht
  | cons name names ih =>
    obtain ⟨hname, hnames⟩ := List.nodup_cons.mp h
    rcases List.mem_cons.mp ht with hfirst | hrest
    · rcases List.mem_cons.mp ht' with hfirst' | hrest'
      · rw [hfirst, hfirst']
      · exact absurd (hfirst ▸ heq ▸ List.mem_map_of_mem hrest') hname
    · rcases List.mem_cons.mp ht' with hfirst' | hrest'
      · exact absurd (hfirst' ▸ heq ▸ List.mem_map_of_mem hrest) hname
      · exact ih hnames hrest hrest'

/-- The depth of a name leads to a scope that declares it. -/
theorem declarationIn_of_depthIn {Γ : List Layer} {id : Nat} {name : String} {d : Nat}
    (hd : depthIn Γ name = some d) (hsound : ∀ L ∈ Γ, L.Sound id) (hname : name ≠ selfName) :
    ∃ L S t, Γ[d]? = some L ∧ L ∈ Γ ∧ L.site? = some S ∧ L.names.binds name = true ∧
      declarationIn Γ name = some (S, t) ∧ S.Declares id name t := by
  obtain ⟨hlt, hbinds, -⟩ := List.findIdx?_eq_some_iff_getElem.mp hd
  have hL : Γ[d]? = some Γ[d] := List.getElem?_eq_getElem hlt
  have hmem : Γ[d] ∈ Γ := List.getElem_mem hlt
  have hlayer := hsound _ hmem
  obtain ⟨S, hS, hdeclared⟩ := (hlayer.named name hbinds).resolve_left hname
  obtain ⟨t₀, ht₀, hspelled₀⟩ := List.mem_map.mp hdeclared
  cases hfind : S.names.find? fun t => t.lexeme = name with
  | none =>
    have hnone := List.find?_eq_none.mp hfind t₀ ht₀
    simp [hspelled₀] at hnone
  | some t =>
    have hspelled : t.lexeme = name := by simpa using List.find?_some hfind
    have ht := List.mem_of_find?_eq_some hfind
    refine ⟨_, S, t, hL, hmem, hS, hbinds, ?_, hlayer.holds S hS, ht, hspelled, fun t' ht' heq => ?_⟩
    · simp only [declarationIn, hd, hL, hS, hfind, Option.bind_eq_bind, Option.bind_some]
      rfl
    · exact eq_of_lexeme_eq (hlayer.distinct S hS) ht' ht (heq.trans hspelled.symm)

end Scope

/-! ### What the machine does -/

namespace Machine

/-- `LooksUp M id name m`: the evaluation `M` of a name or of an assignment looks up the occurrence
in the machine `m`; an assignment does so behind its value. -/
inductive LooksUp : Moment → Nat → Token → Machine → Prop
  | read {n m id name} : LooksUp ⟨n + 1, .eval (.var id name), m⟩ id name m
  | write {n m id name e v m'} (hvalue : eval n e m = .ok v m') :
      LooksUp ⟨n + 1, .eval (.assign id name e), m⟩ id name m'

/-- `Declares M F t`: the evaluation `M` binds the name that the token `t` declares in the frame
`F`, as a variable, a function, a class or a parameter. -/
inductive Declares : Moment → Ref .frames → Token → Prop
  | var {n m name e?} : Declares ⟨n + 1, .exec (.var name e?), m⟩ m.current name
  | function {n m decl name} (hname : decl.name? = some name) :
      Declares ⟨n + 1, .exec (.function decl), m⟩ m.current name
  | classDecl {n m name methods} : Declares ⟨n + 1, .exec (.classDecl name methods), m⟩ m.current name
  | parameter {n m c paren vs name} (hname : name ∈ c.decl.params) :
      Declares ⟨n + 1, .apply c paren vs, m⟩ ⟨m.store.frames.size⟩ name

variable {V : Moment → Prop} {P : Nat → List Layer → String → Prop} {M : Moment} {m : Machine}

/-- When a name is looked up, the frames fit the scopes around it. -/
theorem LooksUp.fits (hV : ∀ {M' M}, V M → Within M' M → V M') {id : Nat} {name : Token}
    (hlooks : LooksUp M id name m) (h : InPlace V P M) :
    ∃ Γ, P id Γ name.lexeme ∧ name.lexeme ≠ selfName ∧ m.depths = M.machine.depths ∧
      Fits V m.store (m.store.path m.current) Γ := by
  obtain ⟨Γ, hplaced, hfits⟩ := h.code
  cases hlooks with
  | read => exact ⟨Γ, hplaced.1, hplaced.2, rfl, hfits⟩
  | @write n m id name e v m' hvalue =>
    have hpart : Task.eval e ∈ (Task.eval (.assign id name e)).parts := List.mem_singleton.mpr rfl
    have hinside := h.leads hV .assign (.part hpart (kept_continues.refl m))
    have hcontinues := hinside.continues hV
    rw [(eval_ended hvalue).1] at hcontinues
    exact ⟨Γ, hplaced.1.1, hplaced.1.2, hcontinues.depths, hcontinues.fits hfits⟩

/-- What binds a name in a frame is declared in the scope that the frame was opened for. -/
theorem Declares.site {F : Ref .frames} {t : Token} (hdeclares : Declares M F t)
    (h : InPlace V P M) (hF : F ≠ Store.globals) : ∃ S, Opened V F S ∧ t ∈ S.names := by
  obtain ⟨Γ, hplaced, hfits⟩ := h.code
  -- a declaration stands in the innermost scope, and the present frame was opened for that scope
  have hpresent : ∀ {s : Stmt} {m : Machine}, Held s Γ → t ∈ declared s → m.current ≠ Store.globals →
      Fits V m.store (m.store.path m.current) Γ → ∃ S, Opened V m.current S ∧ t ∈ S.names := by
    intro s m hheld hdeclared hne hfits
    generalize hpath : m.store.path m.current = path at hfits
    cases hfits with
    | globals => exact absurd (List.cons.inj hpath).1 hne
    | inside _ _ hopened =>
      obtain ⟨S, hS, hs⟩ := hheld.site (List.ne_nil_of_mem hdeclared) _ rfl
      rw [(List.cons.inj hpath).1]
      exact ⟨S, hopened S hS, S.mem_names hs hdeclared⟩
  cases hdeclares with
  | @var n m _ e? =>
    have hheld : Held (.var t e?) Γ := by
      cases e? with
      | none => exact hplaced
      | some e => exact hplaced.1
    exact hpresent hheld (List.mem_singleton.mpr rfl) hF hfits
  | function hname => exact hpresent hplaced.1 (Option.mem_toList.mpr hname) hF hfits
  | classDecl => exact hpresent hplaced.1 (List.mem_singleton.mpr rfl) hF hfits
  | @parameter n m c paren vs name hname =>
    exact ⟨.call c.decl, ⟨_, h.visited, .call⟩, List.mem_append_left _ hname⟩

end Machine

/-! ### Names and frames -/

namespace Session

/-- The scope that declares what an occurrence means, and the declaration in it. The occurrence only
has to be given by its number. -/
def declarationOf (past : List Played) (id : Nat) : Option (Site × Token) :=
  (surroundings past id).bind fun place => declarationIn place.1 place.2

/-- `Reaches past m id name d S t`: in the machine `m`, the frame `d` steps outwards stands for the
scope `S`, in which the token `t` declares what the occurrence `id` means. -/
structure Reaches (past : List Played) (m : Machine) (id : Nat) (name : Token) (d : Nat) (S : Site)
    (t : Token) (F : Ref .frames) : Prop where
  /-- There are so many frames along the path. -/
  path : (m.store.path m.current)[d]? = some F
  ne_globals : F ≠ Store.globals
  /-- The frame was opened for this scope and for no other. -/
  opened : ∀ S', Opened (Visited past) F S' ↔ S' = S
  /-- All that ever binds the name in the frame is this declaration. -/
  declared : ∀ M t', Visited past M → Declares M F t' → t'.lexeme = name.lexeme → t' = t
  /-- The name is there, but for its own initializer. -/
  bound : m.store.bindsAt name.lexeme F = true ∨ S.Initializes t id
  /-- A name is only looked for in vain inside of its own initializer. -/
  read : ∀ e m', readName id name m = .error e m' → S.Initializes t id
  written : ∀ v e m', assignName id name v m = .error e m' → S.Initializes t id

/-- A name that the frame binds is found. -/
theorem found_of_bindsAt {m : Machine} {id : Nat} {name : Token} {d : Nat} {F : Ref .frames}
    (hd : m.depths[id]? = some d) (hF : (m.store.path m.current)[d]? = some F)
    (hbinds : m.store.bindsAt name.lexeme F = true) :
    (∃ v, readName id name m = .ok v m) ∧ ∀ v, ∃ m', assignName id name v m = .ok () m' := by
  have hancestor : m.store.ancestor m.current d = F := by
    simp only [Store.ancestor, hF]
  constructor
  · obtain ⟨v, hv⟩ := Option.isSome_iff_exists.mp hbinds
    refine ⟨v, ?_⟩
    simp only [readName, hd, Store.lookupAt?, hancestor, hv]
  · intro v
    refine ⟨{ m with store := m.store.define F name.lexeme v }, ?_⟩
    simp only [assignName, owner?, hd, Store.ownerAt?, hancestor, hbinds, if_true]

theorem Settled.exists_reaches {s : Session} {past : List Played} (h : Settled s past) {m : Machine}
    {id nextId : Nat} {Γ : List Layer} {name : Token} {d : Nat}
    (hrecorded : Recorded past nextId m.depths id Γ name.lexeme) (hname : name.lexeme ≠ selfName)
    (hd : m.depths[id]? = some d)
    (hfits : Fits (Visited past) m.store (m.store.path m.current) Γ) :
    ∃ S t F, declarationOf past id = some (S, t) ∧ S.Declares id name.lexeme t ∧
      Reaches past m id name d S t F := by
  have hdepth : depthIn Γ name.lexeme = some d := hrecorded.depth.symm.trans hd
  obtain ⟨L, S, t, hL, hmem, hS, hbinds, hdeclaration, hdeclares⟩ :=
    declarationIn_of_depthIn hdepth hrecorded.sound hname
  obtain ⟨F, hF, hne, hopened, hcomplete, -⟩ := hfits.frame hL
  have hsite : ∀ S', Opened (Visited past) F S' ↔ S' = S := by
    refine fun S' => ⟨fun hS' => h.opened_unique hS' (hopened S hS), ?_⟩
    rintro rfl
    exact hopened S' hS
  -- the name is complete and bound, or its initializer is still being evaluated
  have hbound : m.store.bindsAt name.lexeme F = true ∨ S.Initializes t id := by
    obtain ⟨stage, hstage⟩ := Option.isSome_iff_exists.mp hbinds
    cases stage with
    | defined => exact .inl (hcomplete _ hstage)
    | declared =>
      obtain ⟨S', t', e, hS', hs, hspelled, hid⟩ := (hrecorded.sound L hmem).pending _ hstage
      cases hS.symm.trans hS'
      have ht' : t' = t :=
        hdeclares.only t' (S.mem_names hs (List.mem_singleton.mpr rfl)) hspelled
      exact .inr ⟨e, ht' ▸ hs, hid⟩
  refine ⟨S, t, F, ?_, hdeclares, hF, hne, hsite, fun M t' hM hM' heq => ?_, hbound,
    fun e m' herror => ?_, fun v e m' herror => ?_⟩
  · rw [declarationOf, hrecorded.around]
    exact hdeclaration
  · obtain ⟨S', hS', ht'⟩ := hM'.site (h.inPlace M hM) hne
    rw [(hsite S').mp hS'] at ht'
    exact hdeclares.only t' ht' heq
  · refine hbound.resolve_left fun hbinds => ?_
    obtain ⟨v, hread⟩ := (found_of_bindsAt hd hF hbinds).1
    cases hread.symm.trans herror
  · refine hbound.resolve_left fun hbinds => ?_
    obtain ⟨m₁, hwritten⟩ := (found_of_bindsAt hd hF hbinds).2 v
    cases hwritten.symm.trans herror

/-- **Names reach the frames of their scopes.** At every moment of a session at which an occurrence
with a recorded depth is looked up, the frame at that depth was opened for the scope in which the
source declares the name, and for no other; it is not that of the globals; and whatever binds the
name in it is the one declaration that belongs to the occurrence. The name is bound there already,
unless the occurrence stands in the initializer of that very declaration. -/
theorem Since.reaches {host : Host} {s : Session} {past : List Played} (h : Since host s past)
    {M : Moment} {m : Machine} {id : Nat} {name : Token} {d : Nat} (hM : Visited past M)
    (hlooks : LooksUp M id name m) (hd : m.depths[id]? = some d) :
    ∃ S t F, declarationOf past id = some (S, t) ∧ S.Declares id name.lexeme t ∧
      Reaches past m id name d S t F := by
  have hsettled := h.settled
  obtain ⟨Γ, hrecorded, hname, hdepths, hfits⟩ :=
    hlooks.fits (fun hV hin => hV.within hin) (hsettled.inPlace M hM)
  rw [← hdepths] at hrecorded
  exact hsettled.exists_reaches hrecorded hname hd hfits

/-- A name that is read in a block inside of the block that declares it. -/
def innerBlock : String := "{ var x = nulo; { x; } }"

def innerTokens : List Token :=
  [⟨.leftBrace, "\x7b", 1⟩, ⟨.varKw, "var", 1⟩, ⟨.identifier, "x", 1⟩, ⟨.equal, "=", 1⟩,
   ⟨.nullKw, "nulo", 1⟩, ⟨.semicolon, ";", 1⟩, ⟨.leftBrace, "\x7b", 1⟩, ⟨.identifier, "x", 1⟩,
   ⟨.semicolon, ";", 1⟩, ⟨.rightBrace, "\x7d", 1⟩, ⟨.rightBrace, "\x7d", 1⟩, ⟨.endOfInput, "", 1⟩]

def innerProgram : List Stmt :=
  [.block [.var ⟨.identifier, "x", 1⟩ (some (.literal .nil)),
    .block [.expression (.var 0 ⟨.identifier, "x", 1⟩)]]]

/-- The session in which it is run. -/
def innerSession : Session :=
  let started := Session.start (.withInput [])
  ⟨{ started.machine with depths := (Scope.resolve innerProgram ∅).depths }, 1⟩

theorem tokenize_innerBlock : Token.tokenize innerBlock = (innerTokens, []) := by
  decide +kernel

theorem accepts_innerBlock :
    (Session.start (.withInput [])).Accepts innerBlock innerProgram innerSession where
  scanned := by rw [tokenize_innerBlock]
  parsed := by
    rw [tokenize_innerBlock]
    rfl
  accepted := by decide +kernel
  ready := by
    rw [tokenize_innerBlock]
    rfl

/-- The inner block, once the variable has a value. -/
def innerMachine : Machine :=
  let outer := innerSession.machine.enter Store.globals []
  let m := { outer with store := outer.store.define outer.current "x" .nil }
  m.enter m.current []

/-- The name is declared one block further outwards, and so the frame is found there. -/
theorem innerBlock_reaches :
    Visited [⟨innerProgram, 7, innerSession.machine⟩]
      ⟨1, .eval (.var 0 ⟨.identifier, "x", 1⟩), innerMachine⟩ ∧
    innerMachine.depths[0]? = some 1 ∧
    ∃ S t F, Reaches [⟨innerProgram, 7, innerSession.machine⟩] innerMachine 0
      ⟨.identifier, "x", 1⟩ 1 S t F := by
  have hsince := Since.accepted .start 7 (d := .none) rfl accepts_innerBlock
  have hin : Reached 7 innerProgram innerSession.machine
      ⟨1, .eval (.var 0 ⟨.identifier, "x", 1⟩), innerMachine⟩ :=
    .here (.step .expression (.step .first (.step .block (.step .first (.step (.others rfl)
      (.step .block (.refl _)))))))
  have hM : Visited [⟨innerProgram, 7, innerSession.machine⟩] _ := ⟨_, List.mem_cons_self, hin⟩
  have hd : innerMachine.depths[0]? = some 1 := by decide +kernel
  obtain ⟨S, t, F, -, -, hreaches⟩ := hsince.reaches hM .read hd
  exact ⟨hM, hd, S, t, F, hreaches⟩

end Session

end Roteiro
