import Roteiro.Text.Quoted
import Roteiro.Value.Store

/-!
# The text of a value

Arrays may hold themselves, directly or through others. While an array is being written, the arrays
that are open around the present place are remembered, and one of them is written `[...]`. An array
that is met twice side by side is written twice.

Each array on the way from the outermost one is a different one, so the number of arrays in the
store bounds the nesting.
-/

namespace Roteiro

namespace Store

/-- What stands for an array inside of itself. -/
def placeholder : String := "[...]"

/-- The text of a value, at most `depth` arrays deep, inside the arrays `around`. -/
def textWithin (s : Store) : Nat → List (Ref .arrays) → Value → String
  | _, _, .number x => Decimal.display x
  | _, _, .string text => text
  | _, _, .boolean true => "verdadeiro"
  | _, _, .boolean false => "falso"
  | _, _, .nil => "nulo"
  | _, _, .function f => s!"<fn {(s.closure f).decl.displayName}>"
  | _, _, .builtin b => s!"<fn {b.name}>"
  | _, _, .classRef c => (s.classInfo c).name
  | _, _, .instanceRef i => s!"Instância de {(s.classInfo (s.instanceAt i).classRef).name}"
  | 0, _, .array _ => placeholder
  | depth + 1, around, .array a =>
    if around.contains a then placeholder
    else (s.table a).text fun v => s.textWithin depth (a :: around) v

/-- The text of a value. -/
def text (s : Store) (v : Value) : String := s.textWithin (s.arrays.size + 1) [] v

/-- The text of a table that does not count itself as being written. -/
def tableText (s : Store) (t : Table Value) : String :=
  t.text fun v => s.textWithin (s.arrays.size + 1) [] v

/-! ### Summaries -/

/-- The shape of a table: how long, and whether dense. -/
def tableSummary (t : Table Value) : String :=
  s!"ArrayValue \x7b len: {t.size}, dense: {t.dense} \x7d"

/-- The accepted argument counts, as a summary shows them. -/
def aritySummary : Arity → String
  | .fixed count => s!"Fixed({count})"
  | .oneOf counts => "OneOf([" ++ ", ".intercalate (counts.map Decimal.naturalText) ++ "])"

/-- The shape of a value that lives in the store or is builtin. -/
def summary? (s : Store) : Value → Option String
  | .function f =>
    let c := s.closure f
    let name := Text.quoteName c.decl.displayName
    some (s!"Function \x7b name: {name}, arity: {c.decl.arity}, " ++
      s!"is_initializer: {c.isInitializer} \x7d")
  | .builtin b =>
    let name := Text.quoteName b.name
    some s!"NativeFunction \x7b name: {name}, arity: {aritySummary b.arity} \x7d"
  | .array a => some (tableSummary (s.table a))
  | .instanceRef i =>
    let inst := s.instanceAt i
    let name := Text.quoteName (s.classInfo inst.classRef).name
    let fields := (inst.fields.names.mergeSort fun a b => a ≤ b).map Text.quoteName
    let listed := ", ".intercalate fields
    some s!"Instance \x7b class: {name}, fields: [{listed}] \x7d"
  | _ => none

end Store

end Roteiro
