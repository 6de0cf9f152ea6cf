import Roteiro.Text.Quoted
import Roteiro.Token.Basic

/-!
# Tokens as JSON

A list of tokens is written as a JSON array with one object for each token, indented by two blanks
a level. A kind is a string with its name; a kind that carries a value is an object from its name to
the value.
-/

namespace Roteiro

namespace Token

/-- The kind of a token, as the value of a member at the third level. -/
def kindJson (kind : Kind) : String :=
  let tagged (value : String) : String :=
    "\x7b\n      " ++ Text.quoteJson kind.name ++ ": " ++ value ++ "\n    \x7d"
  match kind with
  | .string text => tagged (Text.quoteJson text)
  | .number value => tagged (Decimal.json value)
  | _ => Text.quoteJson kind.name

/-- A token as an object at the second level. -/
def json (t : Token) : String :=
  "  \x7b\n" ++
    "    \"token_type\": " ++ kindJson t.kind ++ ",\n" ++
    "    \"lexeme\": " ++ Text.quoteJson t.lexeme ++ ",\n" ++
    "    \"line\": " ++ Decimal.naturalText t.line ++ "\n  \x7d"

/-- Some tokens as a JSON array. -/
def jsonList (tokens : List Token) : String :=
  if tokens.isEmpty then "[]" else "[\n" ++ ",\n".intercalate (tokens.map json) ++ "\n]"

end Token

end Roteiro
