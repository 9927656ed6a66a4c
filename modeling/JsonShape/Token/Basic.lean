import JsonShape.Unicode.Quoted

/-!
# Tokens

The lexical items of a JSON text. A token has a kind, a span of byte offsets into the text and the
text that it spells. The last token of a text is the end of input or the fault at which reading it
stopped.
-/

namespace JsonShape

/-- The three literal words. -/
inductive Keyword where
  /-- The word `null`. -/
  | nullWord
  /-- The word `true`. -/
  | trueWord
  /-- The word `false`. -/
  | falseWord
deriving Repr, DecidableEq

namespace Keyword

/-- How a word is written. -/
def spelling : Keyword → String
  | nullWord => "null"
  | trueWord => "true"
  | falseWord => "false"

/-- The word that begins with a character; no two words share their first one. -/
def ofInitial? (c : Char) : Option Keyword :=
  if c = 'n' then some nullWord
  else if c = 't' then some trueWord
  else if c = 'f' then some falseWord
  else none

end Keyword

/-- Why no token could be read. -/
inductive Fault where
  /-- The text ended before the closing quote of a string. -/
  | unterminatedString
  /-- Signs are not followed by a digit. -/
  | digitExpected
  /-- A word differs from the one that its first character announced. -/
  | wrongWord (word : Keyword)
  /-- The text ended inside a word. -/
  | cutWord (word : Keyword)
  /-- No token begins with this character. -/
  | unexpectedCharacter (c : Char)
  /-- A fault that another source of tokens found, in its own words. -/
  | described (detail : String)
deriving Repr, DecidableEq

namespace Fault

/-- The wording of a fault. -/
def detail : Fault → String
  | unterminatedString => "unterminated string"
  | digitExpected => "expected a digit in number literal"
  | wrongWord word => "invalid literal, expected \"" ++ word.spelling ++ "\""
  | cutWord word => "unexpected end of input in literal \"" ++ word.spelling ++ "\""
  | unexpectedCharacter c => "unexpected character " ++ Unicode.quoted c
  | described detail => detail

end Fault

namespace Token

/-- The lexical class of a token. -/
inductive Kind where
  /-- The opening brace of an object. -/
  | leftBrace
  /-- The closing brace of an object. -/
  | rightBrace
  /-- The opening bracket of an array. -/
  | leftBracket
  /-- The closing bracket of an array. -/
  | rightBracket
  /-- The comma between members or elements. -/
  | comma
  /-- The colon between a key and its value. -/
  | colon
  /-- A string; its text is what stands between the quotes, escapes left as they are. -/
  | string
  /-- A number without fraction and exponent. -/
  | integer
  /-- A number with anything after its first run of digits. -/
  | float
  /-- The word `true` or `false`. -/
  | bool
  /-- The word `null`. -/
  | null
  /-- The end of the text. -/
  | endOfInput
  /-- The place where no token could be read. -/
  | fault (cause : Fault)
deriving Repr, DecidableEq

namespace Kind

/-- The kind of a character that is a token by itself. -/
def ofPunctuation? (c : Char) : Option Kind :=
  if c = '\x7b' then some leftBrace
  else if c = '\x7d' then some rightBrace
  else if c = '[' then some leftBracket
  else if c = ']' then some rightBracket
  else if c = ',' then some comma
  else if c = ':' then some colon
  else none

/-- The kind of a word. -/
def ofKeyword : Keyword → Kind
  | .nullWord => null
  | .trueWord | .falseWord => bool

/-- Whether a token of this kind can begin a value. -/
def startsValue : Kind → Bool
  | leftBrace | leftBracket | string | integer | float | bool | null => true
  | rightBrace | rightBracket | comma | colon | endOfInput | fault _ => false

/-- The number of bytes on either side of a token's span that belong to it all the same: the quotes
of a string. -/
def margin : Kind → Nat
  | string => 1
  | _ => 0

end Kind

end Token

/-- A lexical item: its kind, the bytes from `start` up to `stop` that it covers, and its text. -/
structure Token where
  /-- The lexical class. -/
  kind : Token.Kind
  /-- The offset of the first byte. -/
  start : Nat
  /-- The offset behind the last byte. -/
  stop : Nat
  /-- The text of the span. -/
  text : String
deriving Repr, DecidableEq

namespace Token

/-- How a message names a token. -/
def describe (t : Token) : String :=
  match t.kind with
  | .leftBrace => "'\x7b'"
  | .rightBrace => "'\x7d'"
  | .leftBracket => "'['"
  | .rightBracket => "']'"
  | .comma => "','"
  | .colon => "':'"
  | .string => "string \"" ++ t.text ++ "\""
  | .integer => "integer " ++ t.text
  | .float => "float " ++ t.text
  | .bool | .null => "literal " ++ t.text
  | .endOfInput => "end of input"
  | .fault cause => "error: " ++ cause.detail

/-- The token for the end of a text of `n` bytes. -/
def atEnd (n : Nat) : Token := ⟨.endOfInput, n, n, ""⟩

/-- The token for a fault at byte `n`. -/
def atFault (cause : Fault) (n : Nat) : Token := ⟨.fault cause, n, n, ""⟩

end Token

end JsonShape
