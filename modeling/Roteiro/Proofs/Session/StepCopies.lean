import Roteiro.Proofs.Scope.Visits
import Roteiro.Proofs.Session.CountedLoop

/-!
# The copies of a step

One table of depths serves both copies of the step of a counted loop. The analysis finds the same
for both (`Scope.looks_of_parsed`), so it does not matter which one it comes by last. And the run
finds both in the same surroundings: at the end of the block, the frame of the body is as empty as
the one that is opened behind a `continue`, and the same frames are around it.

* `bare_of_exec`: the frame of a body that binds nothing.
* `depths_wellDefined`: the table of a program that the parser accepts.
-/

namespace Roteiro

open Scope Machine

/-- A body that binds nothing leaves the frame empty in which it is run, however it ends. -/
theorem bare_of_exec {b : Stmt} (hb : b.BindsNothing) {m m₁ : Machine} (hm : m.Sound) {n : Nat}
    {flow : Flow} (h : exec n b (m.enter m.current []) = .ok flow m₁) :
    m₁.store.frame m₁.current = ⟨[], m₁.store.path m.current⟩ := by
  -- the machine is like itself with a mark on the new frame, which says that the frame stays bare
  obtain ⟨w, -, henter⟩ := hm.like_self.enter true
  have hended : Steps Pairing.scheme w [true] Same (exec n b) (exec n b) :=
    steps_exec (.inr hb) (Nat.le_refl n)
  have hended := hended w _ _ (Pairing.scheme.refl w) henter
  rw [h] at hended
  cases hended with
  | ok _ _ h₁ =>
    have hbindings := (h₁.store.frames.bound h₁.marked).2 rfl
    have houter := outer_of_exec h hm.current.lt
    cases hframe : m₁.store.frame m₁.current with
    | mk bindings outer =>
      rw [hframe] at hbindings houter
      rw [← houter, ← hbindings]

/-- **One depth for each number.** For every program that the parser accepts, and whatever the table
holds before: the table holds behind the analysis what was found, in the order in which it was
found; every occurrence in the program was come by, and no other one; all that was found under one
number is the same, the same depth or none each time; so the table holds just that under the number,
nothing else has changed, and the table would hold the same if the occurrences had been come by in
any other order and any number of times.

And it is right for both copies of a step. The analysis passes over them at the same place, inside
of one more scope than the loop. While the program is run, from every sound machine, the frame in
which the body ends, where the one copy is evaluated, and the frame that is opened for the other
copy have no names in them and the same frames around them. -/
theorem depths_wellDefined {tokens : List Token} {firstId : Nat} {program : List Stmt}
    (hparsed : (Parser.parseProgram tokens firstId).tree? = some program) :
    (∀ T, (resolve program T).depths = (visits program).foldl Visit.note T) ∧
    (∀ id, id ∈ idsOfStmts program ↔ ∃ v ∈ visits program, v.id = id) ∧
    (∀ v ∈ visits program, ∀ v' ∈ visits program, v.id = v'.id → v.depth? = v'.depth?) ∧
    (∀ (T : Depths) (vs : List Visit), (∀ v, v ∈ vs ↔ v ∈ visits program) →
      ∀ id : Nat, (vs.foldl Visit.note T)[id]? = (resolve program T).depths[id]?) ∧
    (∀ T : Depths,
      (∀ v ∈ visits program, (resolve program T).depths[v.id]? = v.depth?.or T[v.id]?) ∧
      ∀ id, id ∉ idsOfStmts program → (resolve program T).depths[id]? = T[id]?) ∧
    ∀ s ∈ program, ∀ Γ test body step,
      (Node.stmt s).Inside Γ (.stmt (.loop test body (some step))) →
      ∃ b e, body = .block [b, .expression e] ∧ step = .expression e ∧
        (∀ p, (Stmt.loop test body (some step)).visits p =
          test.visits p ++ (b.visits (p.inside []) ++ e.visits (p.inside []) ++
            e.visits (p.inside []))) ∧
        ∀ m : Machine, m.Sound → ∀ n flow m₁, exec n b (m.enter m.current []) = .ok flow m₁ →
          m₁.store.frame m₁.current = ⟨[], m₁.store.path m.current⟩ ∧
          (m₁.enter m.current []).store.frame (m₁.enter m.current []).current =
            ⟨[], m₁.store.path m.current⟩ := by
  obtain ⟨hvisited, hsame⟩ := looks_of_parsed hparsed
  have htable := fun T => getElem?_foldl_of_parsed hparsed T (visits program) fun _ => Iff.rfl
  refine ⟨depths_resolve program, hvisited, fun v hv v' hv' hid => ?_, fun T vs hvs id => ?_,
    fun T => ?_, ?_⟩
  · rw [hsame v hv v' hv' hid]
  · obtain ⟨hfound, hother⟩ := getElem?_foldl_of_parsed hparsed T vs hvs
    rw [depths_resolve]
    by_cases hid : id ∈ idsOfStmts program
    · obtain ⟨v, hv, rfl⟩ := (hvisited id).mp hid
      rw [hfound v hv, (htable T).1 v hv]
    · rw [hother id hid, (htable T).2 id hid]
  · rw [depths_resolve]
    exact htable T
  · -- what repeats a step is a counted loop, wherever it stands in the program
    intro s hs Γ test body step hinside
    have horderly := (orderly_of_parsed hparsed s hs).inside hinside
    obtain ⟨b, e, rfl, rfl, hb⟩ := (Node.orderly_iff.mp horderly).1
    refine ⟨b, e, rfl, rfl, visits_loop test e hb, fun m hm n flow m₁ hrun => ?_⟩
    exact ⟨bare_of_exec hb hm hrun, Store.frame_addFrame_self m₁.store m.current []⟩

/-- A loop in a lambda in a step, the tokens of
`{ var x = nulo; repita (; x; () => { repita (; x; x = nulo) x; }) { continue; } }`. -/
def nestedTokens : List Token :=
  [⟨.leftBrace, "\x7b", 1⟩, ⟨.varKw, "var", 1⟩, ⟨.identifier, "x", 1⟩, ⟨.equal, "=", 1⟩,
   ⟨.nullKw, "nulo", 1⟩, ⟨.semicolon, ";", 1⟩, ⟨.forKw, "repita", 1⟩, ⟨.leftParen, "(", 1⟩,
   ⟨.semicolon, ";", 1⟩, ⟨.identifier, "x", 1⟩, ⟨.semicolon, ";", 1⟩, ⟨.leftParen, "(", 1⟩,
   ⟨.rightParen, ")", 1⟩, ⟨.arrow, "=>", 1⟩, ⟨.leftBrace, "\x7b", 1⟩, ⟨.forKw, "repita", 1⟩,
   ⟨.leftParen, "(", 1⟩, ⟨.semicolon, ";", 1⟩, ⟨.identifier, "x", 1⟩, ⟨.semicolon, ";", 1⟩,
   ⟨.identifier, "x", 1⟩, ⟨.equal, "=", 1⟩, ⟨.nullKw, "nulo", 1⟩, ⟨.rightParen, ")", 1⟩,
   ⟨.identifier, "x", 1⟩, ⟨.semicolon, ";", 1⟩, ⟨.rightBrace, "\x7d", 1⟩, ⟨.rightParen, ")", 1⟩,
   ⟨.leftBrace, "\x7b", 1⟩, ⟨.continueKw, "continue", 1⟩, ⟨.semicolon, ";", 1⟩,
   ⟨.rightBrace, "\x7d", 1⟩, ⟨.rightBrace, "\x7d", 1⟩, ⟨.endOfInput, "", 1⟩]

/-- What the analysis finds in the program. The number `2` is come by four times: there are two
copies of the inner step in each copy of the outer one. -/
def nestedVisits : List Visit :=
  [⟨0, some 0⟩, ⟨1, some 2⟩, ⟨3, some 3⟩, ⟨2, some 3⟩, ⟨2, some 3⟩, ⟨1, some 2⟩, ⟨3, some 3⟩,
    ⟨2, some 3⟩, ⟨2, some 3⟩]

theorem nestedVisits_wellDefined :
    ∃ program, (Parser.parseProgram nestedTokens 0).tree? = some program ∧
      visits program = nestedVisits ∧
      ∀ v ∈ nestedVisits, ∀ v' ∈ nestedVisits, v.id = v'.id → v.depth? = v'.depth? := by
  have hvisits : (Parser.parseProgram nestedTokens 0).tree?.map visits = some nestedVisits := by
    decide +kernel
  obtain ⟨program, hparsed, hprogram⟩ := Option.map_eq_some_iff.mp hvisits
  obtain ⟨-, -, hsame, -⟩ := depths_wellDefined hparsed
  exact ⟨program, hparsed, hprogram, hprogram ▸ hsame⟩

end Roteiro
