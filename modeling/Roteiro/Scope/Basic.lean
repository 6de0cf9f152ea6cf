import Roteiro.Bindings
import Roteiro.Report.Basic
import Roteiro.Tree.Basic
import Std.Data.TreeMap

/-!
# Scopes

Before a program runs, each occurrence of a name is matched with the declaration it means. The
scopes around an occurrence form a stack, innermost first; the global scope is not part of it. An
occurrence whose name is declared in the stack gets the number of scopes between them as its
*depth*; any other occurrence is left to the globals.
-/

namespace Roteiro

/-- The name of the receiver inside a method. -/
def selfName : String := "meu"

/-- The name of the method that sets up a new instance. -/
def initializerName : String := "init"

/-- The depths of the occurrences that mean a local declaration, by the number of the
occurrence. -/
abbrev Depths := Std.TreeMap Nat Nat

namespace Scope

/-- How far the declaration of a name has come: it is *declared* when its name is read, and
*defined* when its value is complete. -/
inductive Stage where
  | declared
  | defined
  deriving DecidableEq, Repr

/-- The kind of body an occurrence stands in. -/
inductive Body where
  | program
  | function
  | method
  | initializer
  deriving DecidableEq, Repr

/-- What the analysis knows at some point of the program, and what it has found so far. -/
structure Analysis where
  /-- The local scopes around this point, innermost first. -/
  scopes : List (Bindings Stage)
  /-- The function around this point. -/
  body : Body
  /-- Whether a class stands around this point. -/
  inClass : Bool
  /-- How many loops of the present function are open. -/
  loops : Nat
  depths : Depths
  /-- The complaints so far. -/
  reports : Array Report

namespace Analysis

/-- The start of a program, with the depths found earlier. -/
def start (depths : Depths) : Analysis :=
  { scopes := [], body := .program, inClass := false, loops := 0, depths, reports := #[] }

/-- One more complaint. -/
def complain (a : Analysis) (t : Token) (cause : Cause) : Analysis :=
  { a with reports := a.reports.push (.resolve t cause) }

/-- Enters a scope with the given names. -/
def openScope (a : Analysis) (scope : Bindings Stage) : Analysis :=
  { a with scopes := scope :: a.scopes }

/-- Leaves the innermost scope. -/
def closeScope (a : Analysis) : Analysis := { a with scopes := a.scopes.tail }

/-- Declares a name in the innermost scope, where it must be new. -/
def declare (a : Analysis) (name : Token) : Analysis :=
  match a.scopes with
  | [] => a
  | scope :: outer =>
    if scope.binds name.lexeme then a.complain name .alreadyDeclared
    else { a with scopes := scope.insert name.lexeme .declared :: outer }

/-- Marks a name of the innermost scope as defined. -/
def define (a : Analysis) (name : Token) : Analysis :=
  match a.scopes with
  | [] => a
  | scope :: outer => { a with scopes := scope.insert name.lexeme .defined :: outer }

/-- Declares and defines a name. -/
def introduce (a : Analysis) (name : Token) : Analysis := (a.declare name).define name

/-- The number of scopes between this point and the nearest one that declares the name. -/
def depth? (a : Analysis) (name : String) : Option Nat :=
  a.scopes.findIdx? fun scope => scope.binds name

/-- Records what an occurrence of a name means. -/
def record (a : Analysis) (id : Nat) (name : String) : Analysis :=
  match a.depth? name with
  | some depth => { a with depths := a.depths.insert id depth }
  | none => a

/-- Whether the innermost scope has declared this name but not defined it yet. -/
def inOwnInitializer (a : Analysis) (name : String) : Bool :=
  a.scopes.head?.any fun scope => scope.find? name = some .declared

/-- Complains about `pare` or `continue` outside of all loops of its function. -/
def requireLoop (a : Analysis) (keyword : Token) (cause : Cause) : Analysis :=
  if a.loops = 0 then a.complain keyword cause else a

/-- Enters the body of a loop. -/
def enterLoop (a : Analysis) : Analysis := { a with loops := a.loops + 1 }

/-- Leaves the body of a loop. -/
def leaveLoop (a : Analysis) : Analysis := { a with loops := a.loops - 1 }

/-- Enters a function of the given kind. -/
def enterFunction (a : Analysis) (body : Body) : Analysis :=
  { a.openScope [] with body := body, loops := 0 }

/-- Leaves the function that was entered at `outer`. -/
def leaveFunction (a outer : Analysis) : Analysis :=
  { a.closeScope with body := outer.body, loops := outer.loops }

end Analysis

end Scope

end Roteiro
