import Roteiro.Bindings
import Roteiro.Tree.Basic
import Roteiro.Value.Basic
import Roteiro.Value.Table

/-!
# The store

Everything that values refer to: frames, functions, classes, arrays and instances. The store only
grows; what is in it is never moved, so a reference stays good.

A *frame* holds the names of one scope. It knows the frames around it, from the next one outwards,
so the *path* from a frame is the frame itself and then those. A name is looked up along a path, or
in the frame a given number of steps along it. A step beyond the outermost frame stays there.
-/

namespace Roteiro

/-- The names of one scope, and the frames around it. -/
structure Frame where
  bindings : Bindings Value
  /-- The frames around this one, from the next one outwards. -/
  outer : List (Ref .frames)
  deriving Inhabited

/-- A function and the frame it was made in. -/
structure Closure where
  decl : FunctionDecl
  frame : Ref .frames
  /-- Whether this is the method that sets up a new instance. -/
  isInitializer : Bool
  deriving Inhabited

/-- A class. -/
structure ClassInfo where
  name : String
  methods : Bindings Closure
  deriving Inhabited

/-- An instance of a class. -/
structure Instance where
  classRef : Ref .classes
  fields : Bindings Value
  deriving Inhabited

/-- Everything that values refer to. -/
structure Store where
  frames : Array Frame
  functions : Array Closure
  classes : Array ClassInfo
  arrays : Array (Table Value)
  instances : Array Instance

namespace Store

/-- The frame that is around all others. -/
def globals : Ref .frames := ⟨0⟩

/-- The globals that every program finds. -/
def builtinBindings : Bindings Value :=
  Builtin.all.flatMap fun b => b.spellings.map fun name => (name, .builtin b)

/-- The store before anything is run: one frame, with the builtin functions. -/
def initial : Store :=
  { frames := #[⟨builtinBindings, []⟩], functions := #[], classes := #[], arrays := #[],
    instances := #[] }

/-! ### Reading -/

def frame (s : Store) (r : Ref .frames) : Frame := s.frames.getD r.index default

def closure (s : Store) (r : Ref .functions) : Closure := s.functions.getD r.index default

def classInfo (s : Store) (r : Ref .classes) : ClassInfo := s.classes.getD r.index default

def table (s : Store) (r : Ref .arrays) : Table Value := s.arrays.getD r.index default

def instanceAt (s : Store) (r : Ref .instances) : Instance := s.instances.getD r.index default

/-! ### Adding -/

/-- A new frame inside another one. -/
def addFrame (s : Store) (around : Ref .frames) (bindings : Bindings Value) :
    Ref .frames × Store :=
  let frame : Frame := ⟨bindings, around :: (s.frame around).outer⟩
  (⟨s.frames.size⟩, { s with frames := s.frames.push frame })

def addFunction (s : Store) (c : Closure) : Ref .functions × Store :=
  (⟨s.functions.size⟩, { s with functions := s.functions.push c })

def addClass (s : Store) (c : ClassInfo) : Ref .classes × Store :=
  (⟨s.classes.size⟩, { s with classes := s.classes.push c })

def addArray (s : Store) (t : Table Value) : Ref .arrays × Store :=
  (⟨s.arrays.size⟩, { s with arrays := s.arrays.push t })

def addInstance (s : Store) (c : Ref .classes) : Ref .instances × Store :=
  (⟨s.instances.size⟩, { s with instances := s.instances.push ⟨c, []⟩ })

/-! ### Changing -/

/-- Binds a name in a frame. -/
def define (s : Store) (r : Ref .frames) (name : String) (value : Value) : Store :=
  { s with
    frames := s.frames.modify r.index fun f =>
      { f with bindings := f.bindings.insert name value } }

/-- Puts a value into an array. -/
def putEntry (s : Store) (r : Ref .arrays) (key : String) (value : Value) : Store :=
  { s with arrays := s.arrays.modify r.index fun t => t.put key value }

/-- Sets a field of an instance. -/
def setField (s : Store) (r : Ref .instances) (name : String) (value : Value) : Store :=
  { s with
    instances := s.instances.modify r.index fun i =>
      { i with fields := i.fields.insert name value } }

/-! ### Names along a path -/

/-- A frame and the frames around it. -/
def path (s : Store) (r : Ref .frames) : List (Ref .frames) := r :: (s.frame r).outer

/-- Whether a frame binds a name. -/
def bindsAt (s : Store) (name : String) (r : Ref .frames) : Bool :=
  (s.frame r).bindings.binds name

/-- The frame so many steps along the path, or the outermost one. -/
def ancestor (s : Store) (r : Ref .frames) (distance : Nat) : Ref .frames :=
  match (s.path r)[distance]? with
  | some found => found
  | none => (s.path r).getLastD r

/-- The nearest frame along the path that binds a name. -/
def owner? (s : Store) (r : Ref .frames) (name : String) : Option (Ref .frames) :=
  (s.path r).find? (s.bindsAt name)

/-- The value of a name in the nearest frame that binds it. -/
def lookup? (s : Store) (r : Ref .frames) (name : String) : Option Value :=
  (s.path r).findSome? fun f => (s.frame f).bindings.find? name

/-- Changes a name in the nearest frame that binds it. -/
def assign? (s : Store) (r : Ref .frames) (name : String) (value : Value) : Option Store :=
  (s.owner? r name).map fun found => s.define found name value

/-- The value of a name in the frame so many steps along the path. -/
def lookupAt? (s : Store) (r : Ref .frames) (distance : Nat) (name : String) : Option Value :=
  (s.frame (s.ancestor r distance)).bindings.find? name

/-- The frame so many steps along the path, if it binds a name. -/
def ownerAt? (s : Store) (r : Ref .frames) (distance : Nat) (name : String) :
    Option (Ref .frames) :=
  let found := s.ancestor r distance
  if s.bindsAt name found then some found else none

/-- Changes a name that is bound in the frame so many steps along the path. -/
def assignAt? (s : Store) (r : Ref .frames) (distance : Nat) (name : String) (value : Value) :
    Option Store :=
  (s.ownerAt? r distance name).map fun found => s.define found name value

end Store

end Roteiro
