import Roteiro.Decimal.Layout

/-!
# Tokens

A token is a kind, the piece of source text it was read from (its lexeme) and a line. Texts and
numbers carry their value in their kind, so that two kinds are equal exactly when they name the
same symbol with the same value.

A keyword may have several spellings; the table `Kind.keywords` lists them all.
-/

namespace Roteiro

/-- What a token is. -/
inductive Kind where
  /-- The symbol `(`. -/
  | leftParen
  /-- The symbol `)`. -/
  | rightParen
  /-- The symbol `{`. -/
  | leftBrace
  /-- The symbol `}`. -/
  | rightBrace
  /-- The symbol `[`. -/
  | leftBracket
  /-- The symbol `]`. -/
  | rightBracket
  /-- The symbol `,`. -/
  | comma
  /-- The symbol `.`. -/
  | dot
  /-- The symbol `-`. -/
  | minus
  /-- The symbol `+`. -/
  | plus
  /-- The symbol `;`. -/
  | semicolon
  /-- The symbol `/`. -/
  | slash
  /-- The symbol `*`. -/
  | star
  /-- The symbol `%`. -/
  | percent
  /-- The symbol `?`. -/
  | question
  /-- The symbol `:`. -/
  | colon
  /-- The symbol `!`. -/
  | bang
  /-- The symbol `!=`. -/
  | bangEqual
  /-- The symbol `=`. -/
  | equal
  /-- The symbol `==`. -/
  | equalEqual
  /-- The symbol `>`. -/
  | greater
  /-- The symbol `>=`. -/
  | greaterEqual
  /-- The symbol `<`. -/
  | less
  /-- The symbol `<=`. -/
  | lessEqual
  /-- The symbol `++`. -/
  | plusPlus
  /-- The symbol `--`. -/
  | minusMinus
  /-- The symbol `=>`, between the parameters and the body of a lambda. -/
  | arrow
  /-- A name. -/
  | identifier
  /-- A text, by its characters between the quotes. -/
  | string (text : String)
  /-- A number. -/
  | number (value : Float)
  /-- The operator `E` or `&&`. -/
  | andKw
  /-- The operator `OU` or `||`. -/
  | orKw
  /-- The word `classe`. -/
  | classKw
  /-- The word `senao`. -/
  | elseKw
  /-- The word `falso`. -/
  | falseKw
  /-- The word `funcao`. -/
  | functionKw
  /-- The word `repita`. -/
  | forKw
  /-- The word `se`. -/
  | ifKw
  /-- The word `nulo`. -/
  | nullKw
  /-- The word `indefinido`. -/
  | undefinedKw
  /-- The word `escreva`. -/
  | printKw
  /-- The word `retorne`. -/
  | returnKw
  /-- The word `pare`. -/
  | breakKw
  /-- The word `continue`. -/
  | continueKw
  /-- The word `meu`. -/
  | selfKw
  /-- The word `verdadeiro`. -/
  | trueKw
  /-- The word `var`. -/
  | varKw
  /-- The word `enquanto`. -/
  | whileKw
  /-- The word `NL`, a text holding one newline. -/
  | newlineKw
  /-- The end of the tokens. -/
  | endOfInput
  deriving DecidableEq, Repr, Inhabited

namespace Kind

/-- The name of a kind in listings. -/
def name : Kind → String
  | leftParen => "LEFT_PAREN"
  | rightParen => "RIGHT_PAREN"
  | leftBrace => "LEFT_BRACE"
  | rightBrace => "RIGHT_BRACE"
  | leftBracket => "LEFT_BRACKET"
  | rightBracket => "RIGHT_BRACKET"
  | comma => "COMMA"
  | dot => "DOT"
  | minus => "MINUS"
  | plus => "PLUS"
  | semicolon => "SEMICOLON"
  | slash => "SLASH"
  | star => "STAR"
  | percent => "PERCENT"
  | question => "QUESTION"
  | colon => "COLON"
  | bang => "BANG"
  | bangEqual => "BANG_EQUAL"
  | equal => "EQUAL"
  | equalEqual => "EQUAL_EQUAL"
  | greater => "GREATER"
  | greaterEqual => "GREATER_EQUAL"
  | less => "LESS"
  | lessEqual => "LESS_EQUAL"
  | plusPlus => "PLUS_PLUS"
  | minusMinus => "MINUS_MINUS"
  | arrow => "ARROW"
  | identifier => "IDENTIFIER"
  | string _ => "STRING"
  | number _ => "NUMBER"
  | andKw => "AND"
  | orKw => "OR"
  | classKw => "CLASS"
  | elseKw => "ELSE"
  | falseKw => "FALSE"
  | functionKw => "FUNCTION"
  | forKw => "FOR"
  | ifKw => "IF"
  | nullKw => "NULL"
  | undefinedKw => "UNDEFINED"
  | printKw => "PRINT"
  | returnKw => "RETURN"
  | breakKw => "BREAK"
  | continueKw => "CONTINUE"
  | selfKw => "THIS"
  | trueKw => "TRUE"
  | varKw => "VAR"
  | whileKw => "WHILE"
  | newlineKw => "NL"
  | endOfInput => "EOF"

/-- The kinds that carry no value. -/
def plain : List Kind :=
  [.leftParen, .rightParen, .leftBrace, .rightBrace, .leftBracket, .rightBracket, .comma, .dot,
   .minus, .plus, .semicolon, .slash, .star, .percent, .question, .colon, .bang, .bangEqual,
   .equal, .equalEqual, .greater, .greaterEqual, .less, .lessEqual, .plusPlus, .minusMinus,
   .arrow, .identifier, .andKw, .orKw, .classKw, .elseKw, .falseKw, .functionKw, .forKw, .ifKw,
   .nullKw, .undefinedKw, .printKw, .returnKw, .breakKw, .continueKw, .selfKw, .trueKw, .varKw,
   .whileKw, .newlineKw, .endOfInput]

/-- The reserved words and their kinds. Accents are optional, and the receiver has two names. -/
def keywords : List (String × Kind) :=
  [("E", andKw), ("OU", orKw), ("classe", classKw), ("senao", elseKw), ("senão", elseKw),
   ("falso", falseKw), ("funcao", functionKw), ("função", functionKw), ("repita", forKw),
   ("se", ifKw), ("nulo", nullKw), ("indefinido", undefinedKw), ("escreva", printKw),
   ("retorne", returnKw), ("pare", breakKw), ("continue", continueKw), ("meu", selfKw),
   ("this", selfKw), ("verdadeiro", trueKw), ("var", varKw), ("enquanto", whileKw),
   ("NL", newlineKw)]

/-- The kind of a word: a keyword if it is reserved, a name otherwise. -/
def ofWord (word : String) : Kind := (keywords.lookup word).getD identifier

end Kind

/-- A kind, the text it was read from, and the line on which that text ends. -/
structure Token where
  kind : Kind
  lexeme : String
  line : Nat
  deriving DecidableEq, Repr, Inhabited

namespace Token

/-- The value column of a listing. -/
def literalText (t : Token) : String :=
  match t.kind with
  | .string text => text
  | .number value => Decimal.literal value
  | _ => "null"

/-- The line of a listing for this token. -/
def text (t : Token) : String := s!"{t.kind.name} {t.lexeme} {t.literalText}"

end Token

end Roteiro
