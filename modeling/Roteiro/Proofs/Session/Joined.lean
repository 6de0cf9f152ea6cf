import Roteiro.Proofs.Parser.Seam
import Roteiro.Proofs.Session.Lines

/-!
# Two sources at once

Running two sources one after the other comes to the same as running one source that has both, with
a newline between them. Each stage is done for the first one and then for the second one: tokens
(`Token.tokenize_append`), trees (`Parser.parseProgram_append`), scopes (`Scope.resolve_append`) and
statements (`execute_append`). But the stages are not done in the same order. At once, the scopes of
the second source are known before the first one is run; that makes no difference, since the first
one has none of those occurrences (`Settled.execute_renewed`).

* `Since.joined`: step by step is the same as at once.
-/

namespace Roteiro

open Scope Machine

/-- Lines and numbers below `n` are the same. -/
def Renumbering.older (n : Nat) : Renumbering where
  line l l' := l' = l
  id i i' := i < n ∧ i' = i
  id_iff := by
    rintro i _ i₁ _ ⟨-, rfl⟩ ⟨-, rfl⟩
    rfl

theorem Renumbering.same_older (n : Nat) : (Renumbering.older n).Same :=
  ⟨fun hl => hl, fun hi => hi.2⟩

/-- Numbers from `n` on become `k` greater. Lines do not matter. -/
def Renumbering.shifted (n k : Nat) : Renumbering where
  line _ _ := True
  id i i' := n ≤ i ∧ i' = i + k
  id_iff := by
    intro i i' j j' hi hj
    omega

/-! ### The stages, one program behind another -/

namespace Scope

theorem resolveStmts_append (first second : List Stmt) (a : Analysis) :
    resolveStmts (first ++ second) a = resolveStmts second (resolveStmts first a) := by
  induction first generalizing a with
  | nil => rfl
  | cons s first ih => exact ih _

/-- Behind an accepted program, all the analysis has kept are the depths. -/
theorem resolve_eq_start {program : List Stmt} {T : Depths}
    (h : (resolve program T).accepted = true) :
    resolve program T = .start (resolve program T).depths := by
  have hlater := resolveStmts_later program (.start T)
  have hscopes := scopes_resolveStmts program (.start T)
  have hreports : (resolve program T).reports = #[] := Array.isEmpty_iff.mp h
  unfold resolve at hreports ⊢
  generalize resolveStmts program (.start T) = a at hlater hscopes hreports ⊢
  obtain ⟨scopes, body, inClass, loops, depths, reports⟩ := a
  have hbody : body = .program := hlater.body
  have hclass : inClass = false := hlater.inClass
  have hloops : loops = 0 := hlater.loops
  dsimp only at hscopes hreports
  rw [hscopes, hbody, hclass, hloops, hreports]
  rfl

theorem resolve_append {first : List Stmt} {T : Depths} (h : (resolve first T).accepted = true)
    (second : List Stmt) :
    resolve (first ++ second) T = resolve second (resolve first T).depths := by
  unfold resolve at h ⊢
  rw [resolveStmts_append]
  exact congrArg (resolveStmts second) (resolve_eq_start h)

end Scope

namespace Machine

/-- A run has no influence on the depths. -/
theorem final_depths (fuel : Nat) (program : List Stmt) (m : Machine) :
    (final (execProgram fuel program) m).depths = m.depths := by
  have hreached : (final (execProgram fuel program) m).depths = m.depths ∧
      ∀ M, Reached fuel program m M → True :=
    kept_depths.program (fun _ _ => trivial) (fun _ _ _ => trivial) fun _ _ _ _ => trivial
  exact hreached.1

theorem execProgram_append (fuel : Nat) (first second : List Stmt) :
    execProgram fuel (first ++ second) =
      (do execProgram fuel first; execProgram fuel second) := by
  induction first with
  | nil => rfl
  | cons s first ih =>
    rw [List.cons_append, execProgram, execProgram, ih]
    simp only [bind_assoc]

end Machine

namespace Session

/-- What is left of a run is where the next one starts. -/
theorem execute_append {fuel : Nat} {s : Session} {first : List Stmt}
    (h : (s.execute fuel first).2 = .finished) (second : List Stmt) :
    s.execute fuel (first ++ second) = (s.execute fuel first).1.execute fuel second := by
  unfold execute at h ⊢
  rw [execProgram_append]
  simp only [Bind.bind, EStateM.bind]
  cases hfirst : execProgram fuel first s.machine with
  | ok _ m => simp only
  | error e m =>
    rw [hfirst] at h
    cases e with
    | failed => cases h
    | outOfFuel => cases h

theorem depths_execute (fuel : Nat) (s : Session) (program : List Stmt) :
    (s.execute fuel program).1.machine.depths = s.machine.depths := by
  rw [execute_machine]
  exact final_depths fuel program s.machine

theorem nextId_execute (fuel : Nat) (s : Session) (program : List Stmt) :
    (s.execute fuel program).1.nextId = s.nextId := by
  rw [execute_machine]

/-! ### Depths of later occurrences -/

/-- The session with another table of depths, and with other numbers to give out. -/
def renewed (T : Depths) (n : Nat) (s : Session) : Session :=
  { machine := { s.machine with depths := T }, nextId := n }

variable {s s' : Session} {past : List Played} {source : String} {program : List Stmt}

/-- **Depths of occurrences that a program does not have make no difference to its run.** -/
theorem Settled.execute_renewed (h : Settled s past) (haccepts : s.Accepts source program s')
    (fuel : Nat) {T : Depths} (hT : ∀ id, id < s'.nextId → T[id]? = s'.machine.depths[id]?)
    (n : Nat) :
    (s'.renewed T n).execute fuel program =
      ((s'.execute fuel program).1.renewed T n, (s'.execute fuel program).2) := by
  have hle : s.nextId ≤ s'.nextId := haccepts.numbered.le
  have hkeeps : ∀ {past : List Played} {m : Nat} {T : Depths}, m ≤ s'.nextId →
      (Renumbering.older s'.nextId).Keeps (Recorded past m T) := fun hm =>
    ⟨fun _ => rfl, fun _ _ _ hrecorded => ⟨Nat.lt_of_lt_of_le hrecorded.lt hm, rfl⟩⟩
  have hprogram : List.Forall₂ (Stmt.Twin (.older s'.nextId)) program program :=
    placedStmts_twin (hkeeps (Nat.le_refl _)) program (h.placed haccepts fuel)
  have hstore : s'.machine.store.Twin (.older s'.nextId) s'.machine.store := by
    have hunchanged : s'.machine.store = s.machine.store := by rw [haccepts.ready]
    rw [hunchanged]
    exact Housed.twin h.housed (hkeeps hle)
  have hmachine : s'.machine.Twin (.older s'.nextId) (s'.renewed T n).machine := by
    refine ⟨hstore, rfl, ?_, rfl⟩
    rintro i _ ⟨hi, rfl⟩
    exact hT _ hi
  have hended := execProgram_twins fuel hprogram hmachine
  have hdepths := final_depths fuel program (s'.renewed T n).machine
  unfold final at hdepths
  unfold execute
  generalize execProgram fuel program s'.machine = result at hended ⊢
  generalize execProgram fuel program (s'.renewed T n).machine = result' at hended hdepths ⊢
  have hsame : ∀ {m m' : Machine}, m.Twin (.older s'.nextId) m' → m'.depths = T →
      m' = { m with depths := T } := by
    intro m m' hm hT
    obtain ⟨store, current, depths, host⟩ := m
    obtain ⟨store', current', depths', host'⟩ := m'
    have hstore : store' = store := hm.store.eq (Renumbering.same_older _)
    have hcurrent : current' = current := hm.current
    have hhost : host' = host := hm.host
    dsimp only at hT
    rw [hstore, hcurrent, hhost, hT]
  cases hended with
  | ok hm =>
    rw [hsame hm hdepths]
    rfl
  | error he hm =>
    rw [hsame hm hdepths]
    cases he with
    | outOfFuel => rfl
    | failed ht failure =>
      rw [ht.eq id]
      rfl

/-! ### Tokens that are accepted -/

/-- Nothing is wrong with the tokens, the program is their tree, and `s'` is the session in which
the program is run. -/
structure Admits (s : Session) (tokens : List Token) (program : List Stmt) (s' : Session) :
    Prop where
  parsed : (Parser.parseProgram tokens s.nextId).tree? = some program
  accepted : (Scope.resolve program s.machine.depths).accepted = true
  ready : s' = s.renewed (Scope.resolve program s.machine.depths).depths
    (Parser.parseProgram tokens s.nextId).nextId

theorem readOn_of_admits {tokens : List Token} (h : s.Admits tokens program s') (fuel : Nat)
    (d : Diagnostics) :
    s.readOn fuel tokens d =
      ((s'.execute fuel program).1, Ending.diagnose (s'.execute fuel program).2 d) := by
  have hcomplaints : (Scope.resolve program s.machine.depths).reports.toList = [] := by
    simpa [Analysis.accepted] using h.accepted
  rw [h.ready]
  unfold readOn
  simp only [Parser.reports_of_tree h.parsed, h.parsed, add_nil, Session.resolve, hcomplaints,
    List.isEmpty_nil, if_true]
  rfl

/-- **What is accepted in one session is accepted in a later one**, on whatever lines. -/
theorem Accepts.later {s₁ : Session} (h : s.Accepts source program s')
    (hfresh : ∀ id, s.nextId ≤ id → s.machine.depths[id]? = none)
    (hfresh₁ : ∀ id, s₁.nextId ≤ id → s₁.machine.depths[id]? = none) (hle : s.nextId ≤ s₁.nextId)
    (line : Nat) :
    ∃ program₁ s₁', s₁.Admits (Token.tokenizeFrom line source).1 program₁ s₁' := by
  obtain ⟨k, hk⟩ := Nat.exists_eq_add_of_le hle
  have htokens : List.Forall₂ (Token.Twin (.shifted s.nextId k)) (Token.tokenize source).1
      (Token.tokenizeFrom line source).1 :=
    Token.tokenizeFrom_twins 1 line source fun _ _ => trivial
  have hids : ∀ i, s.nextId ≤ i → (Renumbering.shifted s.nextId k).id i (i + k) :=
    fun i hi => ⟨hi, rfl⟩
  have hparsed := Parser.parseProgram_twins htokens trivial hids
  have hdepths : s.machine.depths.Twin (.shifted s.nextId k) s₁.machine.depths := by
    rintro i _ ⟨hi, rfl⟩
    rw [hfresh i hi, hfresh₁ _ (by omega)]
  have htree := hparsed.tree
  rw [h.parsed, ← hk] at htree
  cases htree' : (Parser.parseProgram (Token.tokenizeFrom line source).1 s₁.nextId).tree? with
  | none =>
    rw [htree'] at htree
    cases htree
  | some program₁ =>
    rw [htree'] at htree
    cases htree with
    | some hprogram =>
      have hanalysis := resolve_twins hprogram hdepths
      exact ⟨program₁, _, htree', (accepted_of_twins hanalysis).trans h.accepted, rfl⟩

/-- What is accepted in one session is not complained about in a later one. -/
theorem Accepts.reports_later {s₁ : Session} (h : s.Accepts source program s')
    (hfresh : ∀ id, s.nextId ≤ id → s.machine.depths[id]? = none)
    (hfresh₁ : ∀ id, s₁.nextId ≤ id → s₁.machine.depths[id]? = none) (hle : s.nextId ≤ s₁.nextId)
    (fuel : Nat) {d : Diagnostics} (hd : d.reports = []) :
    (s₁.run fuel source d).2.reports = d.reports := by
  obtain ⟨program₁, s₁', hadmits⟩ := h.later hfresh hfresh₁ hle 1
  rw [run_eq_runFrom, runFrom_of_scanned h.scanned hd, readOn_of_admits hadmits, reports_diagnose]

/-- Depths that were recorded before stay. -/
theorem Admits.depths_of_lt {line : Nat}
    (h : s.Admits (Token.tokenizeFrom line source).1 program s') {id : Nat} (hid : id < s.nextId) :
    s'.machine.depths[id]? = s.machine.depths[id]? := by
  have hnames : Grammar.NoSelf (Token.before (Token.tokenizeFrom line source).1) := fun t ht =>
    Token.noSelf_scanFrom line source.toList t (List.takeWhile_subset _ ht)
  obtain ⟨hderives, hnumbered⟩ := Parser.parseProgram_builds h.parsed
  have hrecords := recordsStmts program (.start s.machine.depths) (hderives.tidy hnames)
    hnumbered.nodup
  rw [h.ready]
  refine hrecords.frame id fun hmem => ?_
  have hge := ((hnumbered.mem_iff id).mp hmem).1
  omega

/-- Only the depths and the numbers of a session matter for what it accepts. -/
theorem Admits.after {tokens : List Token} {s₁ : Session} (h : s.Admits tokens program s')
    (hdepths : s₁.machine.depths = s.machine.depths) (hnext : s₁.nextId = s.nextId) :
    s₁.Admits tokens program (s₁.renewed s'.machine.depths s'.nextId) := by
  refine ⟨?_, ?_, ?_⟩
  · rw [hnext]
    exact h.parsed
  · rw [hdepths]
    exact h.accepted
  · rw [h.ready, hdepths, hnext]
    rfl

/-! ### At once -/

/-- The tree of both sources, if the first one ends with a token that closes. -/
theorem Accepts.join {a b : String} {first second : List Stmt} {s₁ s₂ : Session}
    (ha : s.Accepts a first s₁)
    (hcloses : ∀ t ∈ (Token.before (Token.tokenize a).1).getLast?, Parser.closes t.kind = true)
    (hb : s₁.Admits (Token.tokenizeFrom (Token.newlines a.toList + 2) b).1 second s₂)
    (hscan : (Token.tokenize b).2 = []) :
    s.Accepts (a ++ "\n" ++ b) (first ++ second) (s₁.renewed s₂.machine.depths s₂.nextId) := by
  let others := (Token.tokenizeFrom (Token.newlines a.toList + 2) b).1
  have htokens : Token.tokenize (a ++ "\n" ++ b) =
      (Token.before (Token.tokenize a).1 ++ others, []) := by
    rw [Token.tokenize_append a b ha.scanned, Token.tokenizeFrom_faults 1 _ b hscan]
  have hnext : (Parser.parseProgram (Token.tokenize a).1 s.nextId).nextId = s₁.nextId := by
    rw [ha.ready]
  have hdepths : (Scope.resolve first s.machine.depths).depths = s₁.machine.depths := by
    rw [ha.ready]
  have hlength : (Token.tokenize a).1.length ≤
      (Token.before (Token.tokenize a).1 ++ others).length := by
    obtain ⟨ending, hending⟩ := Token.exists_before 1 a
    obtain ⟨ending', hending'⟩ := Token.exists_before (Token.newlines a.toList + 2) b
    have hfirst : (Token.tokenize a).1.length = (Token.before (Token.tokenize a).1).length + 1 := by
      simpa [Token.tokenize_eq] using congrArg List.length hending
    have hsecond : others.length = (Token.before others).length + 1 := by
      simpa using congrArg List.length hending'
    rw [List.length_append]
    omega
  have hparsed : Parser.parseProgram (Token.before (Token.tokenize a).1 ++ others) s.nextId =
      ⟨some (first ++ second), (Parser.parseProgram others s₁.nextId).nextId, []⟩ := by
    rw [← hnext]
    exact Parser.parseProgram_append ha.parsed (hnext ▸ hb.parsed) hcloses hlength
  have hresolved : Scope.resolve (first ++ second) s.machine.depths =
      Scope.resolve second s₁.machine.depths := by
    rw [resolve_append ha.accepted, hdepths]
  refine ⟨?_, ?_, ?_, ?_⟩
  · rw [htokens]
  · rw [htokens, hparsed]
  · rw [hresolved]
    exact hb.accepted
  · rw [htokens, hparsed, hresolved, hb.ready, ha.ready]
    rfl

variable {host : Host} {a b : String} {first second : List Stmt} {s₁ s₂ : Session}

theorem run_of_finished (ha : s.Accepts a first s₁) {fuel : Nat}
    (hfinished : (s₁.execute fuel first).2 = .finished) {d : Diagnostics} (hd : d.reports = []) :
    s.run fuel a d = ((s₁.execute fuel first).1, d) := by
  rw [run_of_accepts ha hd, hfinished]
  rfl

/-- Where the second source stands below the first one, it is run as a part of the whole. -/
theorem Since.run_append (h : Since host s past) (ha : s.Accepts a first s₁)
    (hb : s.Accepts b second s₂)
    (hcloses : ∀ t ∈ (Token.before (Token.tokenize a).1).getLast?, Parser.closes t.kind = true)
    {fuel : Nat} (hfinished : (s₁.execute fuel first).2 = .finished) (d : Diagnostics) :
    s.run fuel (a ++ "\n" ++ b) d =
      (s.run fuel a d).1.runFrom (Token.newlines a.toList + 2) fuel b (s.run fuel a d).2 := by
  have hsettled := h.settled
  have hfresh₁ : ∀ id, s₁.nextId ≤ id → s₁.machine.depths[id]? = none := by
    intro id hid
    rw [← nextId_execute fuel s₁ first] at hid
    rw [← depths_execute fuel s₁ first]
    exact (hsettled.accepted ha fuel).fresh id hid
  obtain ⟨second', s₂', hadmits⟩ := hb.later hsettled.fresh hfresh₁ ha.numbered.le
    (Token.newlines a.toList + 2)
  have hjoined := ha.join hcloses hadmits hb.scanned
  by_cases hd : d.reports = []
  · -- the same table of depths and the same numbers from the start, or only behind the first source
    let after := (s₁.execute fuel first).1
    have hrun : s.run fuel a d = (after, d) := run_of_finished ha hfinished hd
    have hafter : after.Admits _ second' (after.renewed s₂'.machine.depths s₂'.nextId) :=
      hadmits.after (depths_execute fuel s₁ first) (nextId_execute fuel s₁ first)
    have hrenewed := hsettled.execute_renewed ha fuel (fun id hid => hadmits.depths_of_lt hid)
      s₂'.nextId
    have hexecuted :
        ((s₁.renewed s₂'.machine.depths s₂'.nextId).execute fuel first).2 = .finished := by
      rw [hrenewed]
      exact hfinished
    rw [run_of_accepts hjoined hd, execute_append hexecuted, hrenewed, hrun,
      runFrom_of_scanned hb.scanned hd, readOn_of_admits hafter]
  · have hrun : s.run fuel a d = (s, d) := runFrom_of_reports ha.scanned hd 1 fuel s
    rw [hrun, runFrom_of_reports hb.scanned hd]
    exact runFrom_of_reports hjoined.scanned hd 1 fuel s

/-- The second source is not complained about behind the first one either. -/
theorem Since.reports_second (h : Since host s past) (ha : s.Accepts a first s₁)
    (hb : s.Accepts b second s₂) {fuel : Nat} (hfinished : (s₁.execute fuel first).2 = .finished)
    (d : Diagnostics) :
    let step := s.run fuel a d
    (step.1.run fuel b step.2).2.reports = step.2.reports := by
  intro step
  by_cases hd : d.reports = []
  · have hstep : step = ((s₁.execute fuel first).1, d) := run_of_finished ha hfinished hd
    obtain ⟨past', -, hsince⟩ := h.run fuel a d
    have hle : s.nextId ≤ step.1.nextId := by
      rw [hstep, nextId_execute]
      exact ha.numbered.le
    refine hb.reports_later h.settled.fresh hsince.settled.fresh hle fuel ?_
    rw [hstep]
    exact hd
  · -- complaints are held already, and nothing is run
    have hstep : step = (s, d) := runFrom_of_reports ha.scanned hd 1 fuel s
    rw [hstep, run_eq_runFrom, runFrom_of_reports hb.scanned hd]

/-- **Step by step is the same as at once.** In every session that has come about by running
sources, if nothing is wrong with two sources, the first one ends with a token that closes and its
run comes to its end, then running both with a newline between them is the same as running the first
one and then the second one as it stands below it. And that is the same as running the second one on
its own lines: all that is written, read and left in store is the same up to lines, and so is the
failure. Code that was there before has no line behind some `K`, so put the second source below `K`
to see which lines are its own. Those are further down, by as many lines as stand above, and so is
the failure if it is blamed on a token of that source (`blamesOwn`); lines of code that was there
before are the same, and so is a failure that is blamed on a token of that code. -/
theorem Since.joined (h : Since host s past) (ha : s.Accepts a first s₁)
    (hb : s.Accepts b second s₂)
    (hcloses : ∀ t ∈ (Token.before (Token.tokenize a).1).getLast?, Parser.closes t.kind = true)
    {fuel : Nat} (hfinished : (s₁.execute fuel first).2 = .finished) (d : Diagnostics) :
    let step := s.run fuel a d
    let below (lines : Nat) := step.1.runFrom (lines + 1) fuel b step.2
    s.run fuel (a ++ "\n" ++ b) d = below (1 + Token.newlines a.toList) ∧
    ∃ K, step.1.LinesUpTo K ∧ ∀ lines, (below K).1.Twin (.carried K lines) 0 (below lines).1 ∧
      Moved (step.1.blamesOwn K fuel b step.2) lines (step.1.run fuel b step.2) (below lines) := by
  intro step below
  have hjoined := h.run_append ha hb hcloses hfinished d
  obtain ⟨past', -, hsince⟩ := h.run fuel a d
  obtain ⟨K, hK⟩ := hsince.linesUpTo
  have hlines : step.1.LinesUpTo (K + 1) := hK.mono (Nat.le_succ K)
  have hone : 1 ≤ K + 1 := Nat.le_add_left 1 K
  have hquiet : (step.1.run fuel b step.2).2.reports = step.2.reports :=
    h.reports_second ha hb hfinished d
  refine ⟨?_, K + 1, hlines, fun lines => ⟨?_, ?_⟩⟩
  · rw [hjoined, show Token.newlines a.toList + 2 = 1 + Token.newlines a.toList + 1 by omega]
  · exact runFrom_carried hlines hone hb.scanned step.2 fuel lines
  · exact runFrom_moved hlines hone hb.scanned fuel lines hquiet

/-! ### A failure of the first source during the second one -/

/-- A function that fails when it is called, and a call of it. -/
def callee : String := "funcao f() { ausente; }"

def caller : String := "f();"

def calleeTokens : List Token :=
  [⟨.functionKw, "funcao", 1⟩, ⟨.identifier, "f", 1⟩, ⟨.leftParen, "(", 1⟩, ⟨.rightParen, ")", 1⟩,
   ⟨.leftBrace, "\x7b", 1⟩, ⟨.identifier, "ausente", 1⟩, ⟨.semicolon, ";", 1⟩,
   ⟨.rightBrace, "\x7d", 1⟩, ⟨.endOfInput, "", 1⟩]

def callerTokens : List Token :=
  [⟨.identifier, "f", 1⟩, ⟨.leftParen, "(", 1⟩, ⟨.rightParen, ")", 1⟩, ⟨.semicolon, ";", 1⟩,
   ⟨.endOfInput, "", 1⟩]

def calleeProgram : List Stmt :=
  [.function ⟨some ⟨.identifier, "f", 1⟩, [], [.expression (.var 0 ⟨.identifier, "ausente", 1⟩)]⟩]

def callerProgram : List Stmt :=
  [.expression (.call (.var 0 ⟨.identifier, "f", 1⟩) ⟨.rightParen, ")", 1⟩ [])]

/-- A session in which one number has been given out, and no depth recorded. -/
def oneRead : Session := { Session.start (.withInput []) with nextId := 1 }

theorem tokenize_callee : Token.tokenize callee = (calleeTokens, []) := by
  decide +kernel

theorem tokenize_caller : Token.tokenize caller = (callerTokens, []) := by
  decide +kernel

theorem accepts_callee : (Session.start (.withInput [])).Accepts callee calleeProgram oneRead where
  scanned := by rw [tokenize_callee]
  parsed := by
    rw [tokenize_callee]
    rfl
  accepted := by decide +kernel
  ready := by
    rw [tokenize_callee]
    rfl

theorem accepts_caller : (Session.start (.withInput [])).Accepts caller callerProgram oneRead where
  scanned := by rw [tokenize_caller]
  parsed := by
    rw [tokenize_caller]
    rfl
  accepted := by decide +kernel
  ready := by
    rw [tokenize_caller]
    rfl

theorem closes_callee : ∀ t ∈ (Token.before (Token.tokenize callee).1).getLast?,
    Parser.closes t.kind = true := by
  rw [tokenize_callee]
  decide

theorem finished_callee : (oneRead.execute 9 calleeProgram).2 = .finished := by
  decide +kernel

/-- The failure is blamed on a token of the function, so it stays where it is. -/
theorem callee_joined :
    let step := (Session.start (.withInput [])).run 9 callee .none
    (Session.start (.withInput [])).run 9 (callee ++ "\n" ++ caller) .none =
        step.1.runFrom 2 9 caller step.2 ∧
      ∃ K, step.1.LinesUpTo K ∧ step.1.blamesOwn K 9 caller step.2 = false ∧
        ∀ lines, Moved false lines (step.1.run 9 caller step.2)
          (step.1.runFrom (lines + 1) 9 caller step.2) := by
  intro step
  obtain ⟨hjoined, K, hlines, hbelow⟩ :=
    Since.joined .start accepts_callee accepts_caller closes_callee finished_callee .none
  have hfirst : (step.1.run 9 caller step.2).2.runtime?.map (·.token.line) = some 1 := by
    decide +kernel
  have hsecond : (step.1.runFrom 2 9 caller step.2).2.runtime?.map (·.token.line) = some 1 := by
    decide +kernel
  have hown : step.1.blamesOwn K 9 caller step.2 = false := by
    have hmoved := (hbelow 1).2.runtime
    by_contra hown
    rw [Bool.not_eq_false] at hown
    rw [hown] at hmoved
    obtain ⟨e, he, hline⟩ := Option.map_eq_some_iff.mp hfirst
    rw [hmoved, he] at hsecond
    simp [RuntimeError.lowered, hline] at hsecond
  refine ⟨hjoined, K, hlines, hown, fun lines => ?_⟩
  rw [← hown]
  exact (hbelow lines).2

/-- The failure is blamed on a token of the function, which is on the first line either way: it is
not further down because the call is. -/
theorem callee_not_lowered :
    let s := Session.start (.withInput [])
    let step := s.run 9 callee .none
    let line? (run : Session × Diagnostics) := run.2.runtime?.map fun e => e.token.line
    s.Accepts callee calleeProgram oneRead ∧ s.Accepts caller callerProgram oneRead ∧
    (∀ t ∈ (Token.before (Token.tokenize callee).1).getLast?, Parser.closes t.kind = true) ∧
    (oneRead.execute 9 calleeProgram).2 = .finished ∧
    line? (step.1.run 9 caller step.2) = some 1 ∧
    line? (s.run 9 (callee ++ "\n" ++ caller) .none) ≠
      some (1 + (1 + Token.newlines callee.toList)) := by
  intro s step line?
  refine ⟨accepts_callee, accepts_caller, closes_callee, finished_callee, ?_, ?_⟩
  · decide +kernel
  · decide +kernel

end Session

end Roteiro
