import Roteiro.Report.Basic
import Roteiro.Tree.Basic

/-!
# The state of the parser

The parser reads tokens from left to right and looks at most at a list of parameters ahead. What it
has to know of the tokens behind it is only the last one. Everything after the first end marker is
ignored, so the state holds the tokens before it and, separately, the marker that stands for
everything beyond.

A rule either gives its result or stops. A rule that stops at a fault leaves the state where the
fault was found; the fault itself is reported by whoever recovers from it.

* `State.advance_rest_length`: reading a token makes the rest shorter.
* `State.synchronize_rest_length_le`: recovery never gives tokens back.
-/

namespace Roteiro

namespace Parser

/-- What the parser knows between two tokens. -/
structure State where
  /-- The tokens that are still to be read, none of them an end marker. -/
  rest : List Token
  /-- The end marker behind them. -/
  ending : Token
  /-- The token that was read last. -/
  last : Option Token
  /-- How many loops of the present function are open. -/
  loops : Nat
  /-- The next number for an occurrence of a name. -/
  nextId : Nat
  /-- The complaints so far. -/
  reports : Array Report

/-- Why a rule gives no result. -/
inductive Stop where
  | fault (report : Report)
  | outOfFuel

/-- A rule reads some tokens and gives a result, or stops. -/
abbrev Rule := EStateM Stop State

namespace State

/-- The state before the first token. Tokens that do not end with an end marker are followed by
one on the line of the last of them. -/
def ofTokens (tokens : List Token) (firstId : Nat) : State :=
  let line := (tokens.getLast?.map Token.line).getD 1
  { rest := tokens.takeWhile (·.kind ≠ .endOfInput)
    ending := (tokens.find? (·.kind = .endOfInput)).getD ⟨.endOfInput, "", line⟩
    last := none
    loops := 0
    nextId := firstId
    reports := #[] }

/-- The token that is read next, or the end marker. -/
def next (s : State) : Token := s.rest.head?.getD s.ending

/-- Whether a token of this kind is read next. -/
def startsWith (s : State) (kind : Kind) : Bool := s.rest.head?.any (·.kind = kind)

/-- Whether all tokens are read. -/
def atEnd (s : State) : Bool := s.rest.isEmpty

/-- The state after the next token, if there is one. -/
def advance (s : State) : State :=
  match s.rest with
  | [] => s
  | t :: rest => { s with rest := rest, last := some t }

theorem advance_rest_length (s : State) (h : s.atEnd = false) :
    s.advance.rest.length + 1 = s.rest.length := by
  unfold advance
  split
  · next hrest => simp [atEnd, hrest] at h
  · next hrest => simp [hrest]

/-- The state with one more complaint. -/
def report (s : State) (r : Report) : State := { s with reports := s.reports.push r }

end State

/-- Whether a statement starts with this keyword, so that recovery may stop in front of it. -/
def startsStatement (kind : Kind) : Bool :=
  kind = .classKw || kind = .functionKw || kind = .varKw || kind = .forKw || kind = .ifKw ||
    kind = .whileKw || kind = .printKw || kind = .returnKw

/-- The place to go on after a fault: behind a semicolon, or in front of a statement. The tokens in
front are skipped; `last` is the latest of them. -/
def resume (last : Token) : List Token → Token × List Token
  | [] => (last, [])
  | t :: rest =>
    if last.kind = .semicolon || startsStatement t.kind then (last, t :: rest) else resume t rest

theorem resume_length_le (last : Token) (tokens : List Token) :
    (resume last tokens).2.length ≤ tokens.length := by
  induction tokens generalizing last with
  | nil => exact Nat.le_refl _
  | cons t rest ih =>
    simp only [resume]
    split
    · exact Nat.le_refl _
    · exact Nat.le_trans (ih t) (Nat.le_succ _)

/-- Skips the token at fault, and then as many as it takes to find a place to go on. -/
def State.synchronize (s : State) : State :=
  match s.rest with
  | [] => s
  | t :: rest =>
    let (last, rest) := resume t rest
    { s with rest := rest, last := some last }

theorem State.synchronize_rest_length_le (s : State) :
    s.synchronize.rest.length ≤ s.rest.length := by
  unfold synchronize
  split
  · exact Nat.le_refl _
  · next t rest hrest =>
    rw [hrest]
    exact Nat.le_trans (resume_length_le t rest) (Nat.le_succ _)

/-- Whether the tokens behind an opening parenthesis are names and commas up to a closing one, and
an arrow behind that. -/
def arrowAhead : List Token → Bool
  | [] => false
  | t :: rest =>
    if t.kind = .identifier || t.kind = .comma then arrowAhead rest
    else t.kind = .rightParen && rest.head?.any (·.kind = .arrow)

/-- Whether a lambda is read next. -/
def State.startsLambda (s : State) : Bool :=
  match s.rest with
  | [] => false
  | t :: rest => t.kind = .leftParen && arrowAhead rest

/-! ### Small rules -/

/-- The kind of the next token. -/
def peekKind : Rule Kind := fun s => .ok s.next.kind s

/-- Whether a token of this kind is read next. -/
def check (kind : Kind) : Rule Bool := fun s => .ok (s.startsWith kind) s

/-- Whether all tokens are read. -/
def atEnd : Rule Bool := fun s => .ok s.atEnd s

/-- Reads the next token. -/
def takeToken : Rule Token := fun s => .ok s.next s.advance

/-- Reads the next token if it is of this kind. -/
def accept (kind : Kind) : Rule Bool := fun s =>
  if s.startsWith kind then .ok true s.advance else .ok false s

/-- Reads the next token if its kind is among these. -/
def acceptToken? (among : Kind → Bool) : Rule (Option Token) := fun s =>
  match s.rest with
  | t :: _ => if among t.kind then .ok (some t) s.advance else .ok none s
  | [] => .ok none s

/-- Stops at the next token. -/
def fail {α : Type} (cause : Cause) : Rule α := fun s => .error (.fault (.parse s.next cause)) s

/-- Reads a token of this kind, or stops. -/
def expect (kind : Kind) (cause : Cause) : Rule Token := fun s =>
  if s.startsWith kind then .ok s.next s.advance else fail cause s

/-- Complains about a token and goes on. -/
def complain (t : Token) (cause : Cause) : Rule Unit := fun s => .ok () (s.report (.parse t cause))

/-- Complains about the next token and goes on. -/
def complainNext (cause : Cause) : Rule Unit := fun s => .ok () (s.report (.parse s.next cause))

/-- A number that no occurrence has had yet. -/
def freshId : Rule Nat := fun s => .ok s.nextId { s with nextId := s.nextId + 1 }

/-- Runs a rule with another number of open loops, and goes back to the present number however it
ends. -/
def withLoops {α : Type} (loops : Nat → Nat) (rule : Rule α) : Rule α := fun s =>
  match rule { s with loops := loops s.loops } with
  | .ok a s' => .ok a { s' with loops := s.loops }
  | .error e s' => .error e { s' with loops := s.loops }

/-- Runs a rule; a fault is reported, and reading goes on at the next statement. -/
def recover {α : Type} (rule : Rule α) : Rule (Option α) := fun s =>
  match rule s with
  | .ok a s' => .ok (some a) s'
  | .error (.fault r) s' => .ok none (s'.report r).synchronize
  | .error .outOfFuel s' => .error .outOfFuel s'

/-- Ends a statement. The semicolon may have been read as a part of the expression before it, and
after a lambda it may be missing. -/
def terminate (expr : Option Expr) (cause : Cause) : Rule Unit := do
  let s ← get
  if s.last.any (·.kind = .semicolon) then return ()
  else if expr.any Expr.isLambda then
    let _ ← accept .semicolon
  else
    let _ ← expect .semicolon cause

end Parser

end Roteiro
