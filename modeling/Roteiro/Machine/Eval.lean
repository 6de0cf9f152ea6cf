import Roteiro.Machine.Builtin
import Roteiro.Machine.Operator

/-!
# Running programs

Statements end with a `Flow`: a loop takes up `pare` and `continue`, a call takes up `retorne`, and
anything else passes them on. Only failures stop the run.

The functions below call each other in circles, and a program need not end, so each call costs one
unit of fuel. A run that ends with some fuel ends the same way with more.
-/

namespace Roteiro

namespace Machine

/-- The value of a constant. -/
def literal : Literal → Value
  | .number x => .number x
  | .string s => .string s
  | .boolean b => .boolean b
  | .nil => .nil

/-- What `escreva` writes: the two characters `\n` in a text become a newline. -/
def printed (s : Store) : Value → String
  | .string text => text.replace "\\n" "\n"
  | v => s.text v

/-- The function that a declaration makes in the present frame. -/
def makeFunction (decl : FunctionDecl) : Run Value := do
  let here ← (fun m => .ok m.current m : Run (Ref .frames))
  let ref ← allocate fun s => s.addFunction ⟨decl, here, false⟩
  return .function ref

/-- The class that a declaration makes in the present frame. Of methods of one name the last one
counts. -/
def makeClass (name : Token) (methods : List FunctionDecl) : Run Value := do
  let here ← (fun m => .ok m.current m : Run (Ref .frames))
  let addMethod (bound : Bindings Closure) (decl : FunctionDecl) : Bindings Closure :=
    bound.insert decl.displayName ⟨decl, here, decl.displayName = initializerName⟩
  let ref ← allocate fun s => s.addClass ⟨name.lexeme, methods.foldl addMethod []⟩
  return .classRef ref

/-- A method that knows its receiver: its frame lies in a frame that holds the receiver. -/
def bindMethod (method : Closure) (receiver : Ref .instances) : Run Closure := do
  let frame ← allocate fun s => s.addFrame method.frame [(selfName, .instanceRef receiver)]
  return { method with frame }

/-- A property of an instance: a field, or else a method that knows the instance. -/
def property (receiver : Ref .instances) (name : Token) : Run Value := do
  let inst ← withStore fun s => s.instanceAt receiver
  match inst.fields.find? name.lexeme with
  | some value => return value
  | none =>
    let info ← withStore fun s => s.classInfo inst.classRef
    match info.methods.find? name.lexeme with
    | some method =>
      let bound ← bindMethod method receiver
      let ref ← allocate fun s => s.addFunction bound
      return .function ref
    | none => fail name (.undefinedProperty name.lexeme)

/-- The array of an index expression. -/
def arrayAt (bracket : Token) : Value → Run (Ref .arrays)
  | .array a => pure a
  | v => fail bracket (.notIndexable v.type)

/-- The key of an index expression. -/
def keyAt (bracket : Token) (v : Value) : Run String :=
  match v.key? with
  | some k => pure k
  | none => fail bracket .badIndex

/-- Checks the number of arguments. -/
def checkArity (paren : Token) (expected got : Nat) : Run Unit :=
  if expected = got then pure () else fail paren (.argumentCount (.fixed expected) got)

/-- Calls a builtin function; its failures are blamed on the closing parenthesis. -/
def callBuiltin (b : Builtin) (paren : Token) (arguments : List Value) : Run Value := fun m =>
  match b.call arguments m with
  | .ok v m' => .ok v m'
  | .error failure m' => fail paren failure m'

/-- The frame of a call: the parameters with the arguments, inside the frame of the function. -/
def callFrame (c : Closure) (arguments : List Value) : Run (Ref .frames) :=
  let bindings := (c.decl.params.zip arguments).foldl
    (fun (b : Bindings Value) (p : Token × Value) => b.insert p.1.lexeme p.2) []
  allocate fun s => s.addFrame c.frame bindings

/-- What a call gives once the body has ended. An initializer gives its receiver; any other
function gives what it returned, or `nulo`. -/
def callResult (c : Closure) (paren : Token) (flow : Flow) : Run Value :=
  if c.isInitializer then do
    let receiver? ← withStore fun s => s.lookupAt? c.frame 0 selfName
    match receiver? with
    | some receiver => return receiver
    | none => fail ⟨.selfKw, selfName, paren.line⟩ (.undefinedVariable selfName)
  else
    match flow with
    | .result v => return v
    | _ => return .nil

mutual

/-- Runs a statement. -/
def exec : Nat → Stmt → Run Flow
  | 0, _ => throw .outOfFuel
  | fuel + 1, stmt =>
    match stmt with
    | .expression e => do
      let _ ← eval fuel e
      return .normal
    | .print e => do
      let v ← eval fuel e
      let text ← withStore fun s => printed s v
      write text
      return .normal
    | .var name none => do
      define name.lexeme .nil
      return .normal
    | .var name (some e) => do
      let v ← eval fuel e
      define name.lexeme v
      return .normal
    | .block body => inNewFrame (execAll fuel body)
    | .ifElse test yes no? => do
      let v ← eval fuel test
      if v.truthy then exec fuel yes
      else
        match no? with
        | some no => exec fuel no
        | none => return .normal
    | .loop test body step => execLoop fuel test body step
    | .exitLoop _ => return .exitLoop
    | .nextIteration _ => return .nextIteration
    | .function decl => do
      let f ← makeFunction decl
      define decl.displayName f
      return .normal
    | .result _ none => return .result .nil
    | .result _ (some e) => do
      let v ← eval fuel e
      return .result v
    | .classDecl name methods => do
      let c ← makeClass name methods
      define name.lexeme c
      return .normal

/-- Runs statements one after the other, until one of them does not end normally. -/
def execAll : Nat → List Stmt → Run Flow
  | 0, _ => throw .outOfFuel
  | _ + 1, [] => return .normal
  | fuel + 1, s :: ss => do
    match ← exec fuel s with
    | .normal => execAll fuel ss
    | flow => return flow

/-- Runs a loop. After an iteration that ended with `continue`, the step is run in a frame of its
own. -/
def execLoop : Nat → Expr → Stmt → Option Stmt → Run Flow
  | 0, _, _, _ => throw .outOfFuel
  | fuel + 1, test, body, step => do
    let v ← eval fuel test
    if v.truthy then
      match ← exec fuel body with
      | .normal => execLoop fuel test body step
      | .exitLoop => return .normal
      | .nextIteration =>
        match step with
        | some s =>
          let _ ← inNewFrame (execAll fuel [s])
          execLoop fuel test body step
        | none => execLoop fuel test body step
      | .result v => return .result v
    else return .normal

/-- The value of an expression. -/
def eval : Nat → Expr → Run Value
  | 0, _ => throw .outOfFuel
  | fuel + 1, expr =>
    match expr with
    | .literal value => return literal value
    | .group inner => eval fuel inner
    | .unary operator operand => do
      let v ← eval fuel operand
      orFail operator (Operator.unary operator v)
    | .binary left operator right => do
      let l ← eval fuel left
      let r ← eval fuel right
      let result ← withStore fun s => Operator.binary s operator l r
      orFail operator result
    | .logical left operator right => do
      let l ← eval fuel left
      let settled := if operator.kind = .orKw then l.truthy else !l.truthy
      if settled then return l else eval fuel right
    | .conditional test yes no => do
      let v ← eval fuel test
      if v.truthy then eval fuel yes else eval fuel no
    | .var id name => readName id name
    | .self id keyword => readName id keyword
    | .assign id name e => do
      let v ← eval fuel e
      assignName id name v
      return v
    | .call callee paren arguments => do
      let f ← eval fuel callee
      let values ← evalAll fuel arguments
      call fuel f paren values
    | .lambda decl => makeFunction decl
    | .array _ elements => do
      let values ← evalAll fuel elements
      let ref ← allocate fun s => s.addArray (.ofList values)
      return .array ref
    | .index bracket base key => do
      let b ← eval fuel base
      let k ← eval fuel key
      let a ← arrayAt bracket b
      let k ← keyAt bracket k
      let found ← withStore fun s => (s.table a).get? k
      match found with
      | some v => return v
      | none => fail bracket (.undefinedKey k)
    | .indexSet bracket base key e => do
      let b ← eval fuel base
      let k ← eval fuel key
      let v ← eval fuel e
      let a ← arrayAt bracket b
      let k ← keyAt bracket k
      changeStore fun s => s.putEntry a k v
      return v
    | .get object name => do
      match ← eval fuel object with
      | .instanceRef i => property i name
      | _ => fail name .propertyOfNonInstance
    | .set object name e => do
      match ← eval fuel object with
      | .instanceRef i =>
        let v ← eval fuel e
        changeStore fun s => s.setField i name.lexeme v
        return v
      | _ => fail name .fieldOfNonInstance

/-- The values of several expressions, from left to right. -/
def evalAll : Nat → List Expr → Run (List Value)
  | 0, _ => throw .outOfFuel
  | _ + 1, [] => return []
  | fuel + 1, e :: es => do
    let v ← eval fuel e
    let vs ← evalAll fuel es
    return v :: vs

/-- Calls a value. -/
def call : Nat → Value → Token → List Value → Run Value
  | 0, _, _, _ => throw .outOfFuel
  | fuel + 1, callee, paren, arguments =>
    match callee with
    | .function f => do
      let c ← withStore fun s => s.closure f
      checkArity paren c.decl.arity arguments.length
      apply fuel c paren arguments
    | .builtin b => callBuiltin b paren arguments
    | .classRef k => do
      let info ← withStore fun s => s.classInfo k
      let initializer? := info.methods.find? initializerName
      checkArity paren ((initializer?.map fun c => c.decl.arity).getD 0) arguments.length
      let receiver ← allocate fun s => s.addInstance k
      match initializer? with
      | some initializer =>
        let bound ← bindMethod initializer receiver
        let _ ← apply fuel bound paren arguments
        return .instanceRef receiver
      | none => return .instanceRef receiver
    | _ => fail paren .notCallable

/-- Runs the body of a function with its arguments. -/
def apply : Nat → Closure → Token → List Value → Run Value
  | 0, _, _, _ => throw .outOfFuel
  | fuel + 1, c, paren, arguments => do
    let frame ← callFrame c arguments
    let flow ← inFrame frame (execAll fuel c.decl.body)
    callResult c paren flow

end

/-- Runs the statements of a program. How a statement ends makes no difference here. -/
def execProgram (fuel : Nat) : List Stmt → Run Unit
  | [] => return ()
  | s :: ss => do
    let _ ← exec fuel s
    execProgram fuel ss

end Machine

end Roteiro
