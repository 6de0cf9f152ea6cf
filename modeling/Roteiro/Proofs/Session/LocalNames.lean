import Roteiro.Proofs.Parser.Renaming
import Roteiro.Proofs.Session.Renaming

/-!
# Names of local variables

A local variable or parameter may be given another name, in its declaration and in all occurrences
that the analysis binds to it, if that name does not occur in the source. The source that comes out
is accepted again, with the same depths, and it does the same.

The tokens to be renamed are found in a tree that is read from the tokens of the source with their
places for lines.

* `Session.localPlaces`: the places of a declaration and of all that it binds.
* `Since.rename_local`: the source with another name there does the same.
-/

namespace Roteiro

open Scope

namespace Session

/-- What the tokens of a source are used for, by their places. -/
def uses (s : Session) (source : String) : List Use :=
  match (Parser.parseProgram (Parser.placed (Token.tokenize source).1) s.nextId).tree? with
  | some program => usesOfStmts program []
  | none => []

/-- A variable or a parameter with this name is declared at this place, in a local scope. -/
def DeclaresLocal (s : Session) (source : String) (place : Nat) (name : String) : Prop :=
  (s.uses source).any (Use.isLocal place name) = true

instance (s : Session) (source : String) (place : Nat) (name : String) :
    Decidable (s.DeclaresLocal source place name) :=
  inferInstanceAs (Decidable (_ = true))

/-- The places of a declaration and of the occurrences that are bound to it by the depths that the
session `s'` has. -/
def localPlaces (s s' : Session) (source : String) (place : Nat) (name : String) : Nat → Bool :=
  chosenBy s'.machine.depths place name (s.uses source)

/-! ### Programs with places for lines -/

variable {s s' : Session} {source : String} {program located : List Stmt} {past : List Played}

/-- The tokens that spell a program have one role each. -/
theorem covered_of_read {tokens : List Token} {firstId : Nat}
    (h : (Parser.parseProgram (Parser.placed tokens) firstId).tree? = some located) :
    ∃ ts ⊆ Parser.placed tokens, (ts.map Token.line).Nodup ∧
      Covered ts (usesOfStmts located []) := by
  have hsub := List.takeWhile_sublist (l := Parser.placed tokens) (·.kind ≠ .endOfInput)
  refine ⟨_, hsub.subset, (hsub.map Token.line).nodup (Parser.nodup_placed tokens), ?_⟩
  exact (Parser.parseProgram_builds h).1.covered []

theorem exists_read {place : Nat} {name : String} (h : s.DeclaresLocal source place name) :
    ∃ located, (Parser.parseProgram (Parser.placed (Token.tokenize source).1) s.nextId).tree? =
      some located ∧ s.uses source = usesOfStmts located [] := by
  unfold DeclaresLocal at h
  have huses : s.uses source = match
    (Parser.parseProgram (Parser.placed (Token.tokenize source).1) s.nextId).tree? with
    | some program => usesOfStmts program []
    | none => [] := rfl
  cases hread : (Parser.parseProgram (Parser.placed (Token.tokenize source).1) s.nextId).tree? with
  | some located => exact ⟨located, rfl, by rw [huses, hread]⟩
  | none =>
    rw [huses, hread] at h
    cases h

/-- What is declared is an identifier of the source. -/
theorem ofWord_of_declaresLocal {place : Nat} {name : String}
    (h : s.DeclaresLocal source place name) : Kind.ofWord name = .identifier := by
  obtain ⟨located, hread, huses⟩ := exists_read h
  obtain ⟨ts, hts, -, hcovered⟩ := covered_of_read hread
  unfold DeclaresLocal at h
  rw [huses] at h
  obtain ⟨u, hu, hlocal⟩ := List.any_eq_true.mp h
  obtain ⟨-, L, Γ, hrole⟩ := isLocal_iff.mp hlocal
  obtain ⟨n, hn, hof⟩ := hcovered.exists_of hu
  obtain ⟨t, ht, hkind, hlexeme⟩ := Parser.exists_of_mem_placed (hts hn)
  have hname : name = t.lexeme := (hof.name name (by rw [hrole]; rfl)).trans hlexeme
  have hidentifier : Kind.identifier = t.kind :=
    (hof.kind .identifier (by rw [hrole]; rfl)).trans hkind
  rw [hname, hidentifier]
  exact Token.ofWord_of_tokenize ht (by rw [← hidentifier]; rfl)

/-- The receiver is not spelled like a name. -/
theorem ne_of_selfKw {name : String} (hname : Kind.ofWord name = .identifier) :
    ∀ t ∈ (Token.tokenize source).1, t.kind = .selfKw → t.lexeme ≠ name := by
  rintro t ht hkind rfl
  have hself := Token.ofWord_of_tokenize ht (by rw [hkind]; rfl)
  rw [hname, hkind] at hself
  cases hself

theorem ne_selfName {name : String} (hname : Kind.ofWord name = .identifier) :
    selfName ≠ name := by
  rintro rfl
  rw [Token.ofWord_selfName] at hname
  cases hname

/-- The table that comes out for a program has the depths of its occurrences. -/
theorem Since.hasDepths_of_tokens {host : Host} (h : Since host s past) {tokens : List Token}
    (hnames : Grammar.NoSelf tokens)
    (hread : (Parser.parseProgram tokens s.nextId).tree? = some located)
    (haccepted : (Scope.resolve located s.machine.depths).accepted = true) :
    placedStmts (HasDepths (Scope.resolve located s.machine.depths).depths) located [] := by
  have hoccurs := occurs_of_tokens hnames hread haccepted
  refine placedStmts_mono (fun id Γ name hoccurs => ?_) located hoccurs
  have hnumbered := (Parser.parseProgram_builds hread).2
  have hrecords := records_of_tokens hnames hread s.machine.depths
  have hright := hrecords.right
    (fun i hi => .inl (h.settled.fresh i ((hnumbered.mem_iff i).mp hi).1)) id
    (mem_ids_of_occurs hoccurs)
  rwa [RightAt, hoccurs.around, Option.bind_some] at hright

theorem exists_of_rel_some {α β : Type} {R : α → β → Prop} {x : α} {y? : Option β}
    (h : Option.Rel R (some x) y?) : ∃ y, y? = some y ∧ R x y := by
  cases h with
  | some h => exact ⟨_, rfl, h⟩

/-- What is read from the tokens at their places is accepted with the same depths. -/
theorem Since.placed_located {host : Host} (h : Since host s past)
    (haccepts : s.Accepts source program s') {R : Renaming}
    (hread : (Parser.parseProgram (Parser.placed (Token.tokenize source).1) s.nextId).tree? =
      some located)
    (hlike : (Parser.renamed R (Parser.lineAt (Token.tokenize source).1) Parser.nowhere).stmts
      located program) :
    placedStmts (HasDepths s'.machine.depths) located [] ∧
      ∀ statement ∈ located, Apart (.stmt statement) := by
  have htwins := twins_of_likeStmts Parser.coveredBy_relined located (hlike [])
  have hdepths : Depths.Twin (Parser.relined (Parser.lineAt (Token.tokenize source).1))
      s.machine.depths s.machine.depths := by
    rintro i _ rfl
    rfl
  have hanalysis := resolve_twins htwins hdepths
  have haccepted : (Scope.resolve located s.machine.depths).accepted = true :=
    (accepted_of_twins hanalysis).symm.trans haccepts.accepted
  have hnames : Grammar.NoSelf (Parser.placed (Token.tokenize source).1) := by
    intro n hn hkind
    obtain ⟨t, ht, hkind', hlexeme⟩ := Parser.exists_of_mem_placed hn
    rw [hlexeme]
    exact Token.noSelf_tokenize source t ht (hkind'.symm.trans hkind)
  refine ⟨?_, ((accepted_iff_legal located _).mp haccepted).apart⟩
  refine placedStmts_mono (fun id Γ name hdepth => ?_) located
    (h.hasDepths_of_tokens hnames hread haccepted)
  rw [haccepts.ready]
  exact (hanalysis.depths rfl).trans hdepth

/-- The tokens at the places that are chosen are those that are to be renamed. -/
theorem fits_localPlaces {place : Nat} {old new : String}
    (hlocal : s.DeclaresLocal source place old)
    (hread : (Parser.parseProgram (Parser.placed (Token.tokenize source).1) s.nextId).tree? =
      some located)
    (huses : s.uses source = usesOfStmts located [])
    (hplaced : placedStmts (HasDepths s'.machine.depths) located [])
    (hfresh : ∀ t ∈ (Token.tokenize source).1, t.lexeme ≠ new) :
    ∀ u ∈ usesOfStmts located [],
      u.Fits ⟨old, new⟩ s'.machine.depths place (localPlaces s s' source place old) := by
  obtain ⟨ts, hts, hnodup, hcovered⟩ := covered_of_read hread
  have hself : ∀ t ∈ (Token.tokenize source).1, t.kind = .selfKw → t.lexeme ≠ old :=
    ne_of_selfKw (ofWord_of_declaresLocal hlocal)
  unfold DeclaresLocal at hlocal
  unfold localPlaces
  rw [huses] at hlocal ⊢
  refine fits_chosenBy hcovered hnodup hlocal (placedStmts_satisfies located hplaced)
    (fun n hn => ?_) fun n hn hkind => ?_
  · obtain ⟨t, ht, -, hlexeme⟩ := Parser.exists_of_mem_placed (hts hn)
    rw [hlexeme]
    exact hfresh t ht
  · obtain ⟨t, ht, hkind', hlexeme⟩ := Parser.exists_of_mem_placed (hts hn)
    rw [hlexeme]
    exact hself t ht (hkind'.symm.trans hkind)

/-- **A local variable may have another name.** If a declaration of a local variable or a parameter
and what the analysis binds to it are given a name that does not occur in the source, then the
source is accepted with the same depths; it does the same and ends in the same way, except that it
may quote the other name in what stops it. -/
theorem Since.rename_local {host : Host} (h : Since host s past)
    (haccepts : s.Accepts source program s') {place : Nat} {old new : String}
    (hlocal : s.DeclaresLocal source place old) (hnew : Token.IsName new)
    (hfresh : ∀ t ∈ (Token.tokenize source).1, t.lexeme ≠ new) :
    let source' := Token.renamedAt (localPlaces s s' source place old) new source
    ∃ program', s.Accepts source' program' s' ∧
      StmtsLike ((Renaming.mk old new).freshLikeness s'.machine.depths) [false] program program' ∧
      ∀ fuel d, d.reports = [] →
        (s.run fuel source' d).1.machine.host = (s.run fuel source d).1.machine.host ∧
        EndedRenamed old new (s'.execute fuel program).2 (s'.execute fuel program').2 := by
  intro source'
  let R : Renaming := ⟨old, new⟩
  let tokens := (Token.tokenize source).1
  let chosen := localPlaces s s' source place old
  have hold := ofWord_of_declaresLocal hlocal
  have hself : ∀ t ∈ tokens, t.kind = .selfKw → t.lexeme ≠ R.old := ne_of_selfKw hold
  have hscan : Token.tokenize source' = (tokens.mapIdx (Token.withName chosen R.new), []) :=
    Token.tokenize_renamedAt hnew haccepts.scanned
  -- the tokens at their places are read as trees of one shape, with and without the other name
  obtain ⟨located, hread, huses⟩ := exists_read hlocal
  have hsame := Parser.parseProgram_nowhere hself s.nextId
  have hrenamed : (Parser.parseProgram (Parser.placed tokens) s.nextId).Like
      (Parser.renamed R (Parser.lineAt tokens) chosen) 0
      (Parser.renamed R (Parser.lineAt tokens) chosen).stmts
      (Parser.parseProgram (tokens.mapIdx (Token.withName chosen R.new)) s.nextId) :=
    Parser.parseProgram_placed chosen hself s.nextId
  have htree := hsame.tree
  have htree' := hrenamed.tree
  rw [hread, haccepts.parsed] at htree
  rw [hread] at htree'
  obtain ⟨program', hparsed, hprogram'⟩ := exists_of_rel_some htree'
  obtain ⟨_, ⟨⟩, hprogram⟩ := exists_of_rel_some htree
  -- what is read from the places is accepted with the same depths, and so the two are alike
  have hlocated := h.placed_located haccepts hread hprogram
  have hfits := fits_localPlaces hlocal hread huses hlocated.1 hfresh
  have hlike : StmtsLike (R.freshLikeness s'.machine.depths) [false] program program' :=
    likeStmts_renamed (chosenBy_iff.mpr (.inl rfl)) located hfits hlocated.1 .globals hlocated.2
      (hprogram []) (hprogram' [])
  have hselfName : R.Spares selfName := ⟨ne_selfName hold, ne_selfName hnew.ofWord⟩
  have hnext : (Parser.parseProgram (Token.tokenize source').1 s.nextId).nextId = s'.nextId := by
    have hready := congrArg Session.nextId haccepts.ready
    rw [hscan, hready]
    exact hrenamed.nextId.trans hsame.nextId.symm
  have haccepts' : s.Accepts source' program' s' :=
    h.accepts_renamed haccepts hselfName hlike (by rw [hscan]) (by rw [hscan]; exact hparsed) hnext
  refine ⟨program', haccepts', hlike, fun fuel d hd => ?_⟩
  obtain ⟨hhost, -, hended⟩ := h.execute_renamed haccepts hselfName hlike fuel
  rw [run_of_accepts haccepts hd, run_of_accepts haccepts' hd]
  exact ⟨hhost, hended⟩

/-- A name that is declared in a block and again in a block inside of it. -/
def shadowed : String := "{ var x = nulo; { var x = verdadeiro; x; } x = x; }"

def shadowedTokens : List Token :=
  [⟨.leftBrace, "\x7b", 1⟩, ⟨.varKw, "var", 1⟩, ⟨.identifier, "x", 1⟩, ⟨.equal, "=", 1⟩,
   ⟨.nullKw, "nulo", 1⟩, ⟨.semicolon, ";", 1⟩, ⟨.leftBrace, "\x7b", 1⟩, ⟨.varKw, "var", 1⟩,
   ⟨.identifier, "x", 1⟩, ⟨.equal, "=", 1⟩, ⟨.trueKw, "verdadeiro", 1⟩, ⟨.semicolon, ";", 1⟩,
   ⟨.identifier, "x", 1⟩, ⟨.semicolon, ";", 1⟩, ⟨.rightBrace, "\x7d", 1⟩, ⟨.identifier, "x", 1⟩,
   ⟨.equal, "=", 1⟩, ⟨.identifier, "x", 1⟩, ⟨.semicolon, ";", 1⟩, ⟨.rightBrace, "\x7d", 1⟩,
   ⟨.endOfInput, "", 1⟩]

def shadowedProgram : List Stmt :=
  let x : Token := ⟨.identifier, "x", 1⟩
  [.block [.var x (some (.literal .nil)),
    .block [.var x (some (.literal (.boolean true))), .expression (.var 0 x)],
    .expression (.assign 1 x (.var 2 x))]]

/-- The session in which it is run. -/
def shadowedSession : Session :=
  let started := Session.start (.withInput [])
  ⟨{ started.machine with depths := (Scope.resolve shadowedProgram ∅).depths }, 3⟩

theorem tokenize_shadowed : Token.tokenize shadowed = (shadowedTokens, []) := by
  decide +kernel

theorem accepts_shadowed :
    (start (.withInput [])).Accepts shadowed shadowedProgram shadowedSession where
  scanned := by rw [tokenize_shadowed]
  parsed := by
    rw [tokenize_shadowed]
    rfl
  accepted := by decide +kernel
  ready := by
    rw [tokenize_shadowed]
    rfl

/-- The outer one of the two may be called `y`. -/
theorem shadowed_renamed :
    let source' := "{ var y = nulo; { var x = verdadeiro; x; } y = y; }"
    (start (.withInput [])).DeclaresLocal shadowed 2 "x" ∧ Token.IsName "y" ∧
    (∀ t ∈ (Token.tokenize shadowed).1, t.lexeme ≠ "y") ∧
    Token.renamedAt (localPlaces (start (.withInput [])) shadowedSession shadowed 2 "x") "y"
      shadowed = source' ∧
    ∃ program', (start (.withInput [])).Accepts source' program' shadowedSession ∧
      ((start (.withInput [])).run 9 source' .none).1.machine.host =
        ((start (.withInput [])).run 9 shadowed .none).1.machine.host := by
  intro source'
  have hlocal : (start (.withInput [])).DeclaresLocal shadowed 2 "x" := by decide +kernel
  have hname : Token.IsName "y" := ⟨'y', [], rfl, by rfl⟩
  have hfresh : ∀ t ∈ (Token.tokenize shadowed).1, t.lexeme ≠ "y" := by decide +kernel
  have hsource : Token.renamedAt
      (localPlaces (start (.withInput [])) shadowedSession shadowed 2 "x") "y" shadowed =
        source' := by decide +kernel
  obtain ⟨program', haccepts, -, hruns⟩ :=
    Since.rename_local .start accepts_shadowed hlocal hname hfresh
  rw [hsource] at haccepts hruns
  exact ⟨hlocal, hname, hfresh, hsource, program', haccepts, (hruns 9 .none rfl).1⟩

end Session

end Roteiro
