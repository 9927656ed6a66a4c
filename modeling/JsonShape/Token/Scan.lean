import JsonShape.Token.Lexeme

/-!
# Tokens of a text

Cuts a text into tokens. Blanks are skipped and one lexeme is read after the other; the cut ends
with the end of the text or with the first fault, and nothing is read past it. Here, and only here,
offsets are counted: they are bytes of the text in UTF-8.
-/

namespace JsonShape

namespace Token

/-! ## Bytes -/

/-- The number of bytes of a text. -/
def byteLength : List Char → Nat
  | [] => 0
  | c :: rest => c.utf8Size + byteLength rest

/-! ## All tokens -/

namespace Lexeme

/-- The token of a lexeme that begins at byte `start`. -/
def token (l : Lexeme) (start : Nat) : Token :=
  ⟨l.kind, start + l.kind.margin, start + l.kind.margin + byteLength l.text, .ofList l.text⟩

/-- The offset behind a lexeme that begins at byte `start`, its quotes included. -/
def stopFrom (l : Lexeme) (start : Nat) : Nat :=
  start + l.kind.margin + byteLength l.text + l.kind.margin

end Lexeme

/-- The tokens of a text that begins at byte `offset`: those before its end or its first fault, and
then that one. -/
def tokensFrom (offset : Nat) (cs : List Char) : List Token :=
  let start := offset + byteLength (cs.takeWhile isBlank)
  match h : cs.dropWhile isBlank with
  | [] => [atEnd start]
  | c :: rest =>
    match hl : readLexeme c rest with
    | .error failure => [atFault failure.cause (start + byteLength failure.read)]
    | .ok l =>
      have : l.rest.length < cs.length := length_rest_lt h hl
      l.token start :: tokensFrom (l.stopFrom start) l.rest
termination_by cs.length

end Token

/-- The tokens of a JSON text, up to and with the end of input or the first fault. -/
def tokens (json : String) : List Token := Token.tokensFrom 0 json.toList

end JsonShape
