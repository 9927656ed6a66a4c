import JsonShape.Proofs.Document.Node

/-!
# The grammar of JSON texts

The grammar of JSON over characters, rule by rule, with the document tree that it assigns to a text.
Nothing here refers to tokens or to how a text is read.

* `Number`, `Chars` — how a number is written, and what stands between the quotes of a string.
* `Value` — a text, the tree that it is assigned, and how deep its containers nest.
* `JsonText` — a whole text: one object or array, with blanks around it.
-/

namespace JsonShape

namespace Text

/-! ## Blanks and marks -/

/-- Blanks: `ws = *( %x20 / %x09 / %x0A / %x0D )`. -/
def Blanks (cs : List Char) : Prop := ∀ c ∈ cs, c = ' ' ∨ c = '\t' ∨ c = '\n' ∨ c = '\r'

instance : DecidablePred Blanks := fun cs => List.decidableBAll _ cs

/-- A structural character with blanks around it, such as `begin-array = ws %x5B ws`. -/
inductive Mark (c : Char) : List Char → Prop where
  /-- Blanks, the character, and blanks. -/
  | around {before after : List Char} (hbefore : Blanks before) (hafter : Blanks after) :
      Mark c (before ++ c :: after)

/-- A structural character alone. -/
theorem Mark.bare (c : Char) : Mark c [c] := @Mark.around c [] [] (by decide) (by decide)

/-! ## Numbers -/

/-- A digit: `DIGIT = %x30-39`. -/
def Digit (c : Char) : Prop := '0' ≤ c ∧ c ≤ '9'

instance : DecidablePred Digit := fun c => inferInstanceAs (Decidable ('0' ≤ c ∧ c ≤ '9'))

/-- Digits, at least one: `1*DIGIT`. -/
structure Digits (cs : List Char) : Prop where
  /-- There is one. -/
  ne_nil : cs ≠ []
  /-- All are digits. -/
  all : ∀ c ∈ cs, Digit c

/-- An optional part, as in `[ minus ]`. -/
def Optional (rule : List Char → Prop) (cs : List Char) : Prop := cs = [] ∨ rule cs

/-- The sign of a number: `minus = %x2D`. -/
def Minus (cs : List Char) : Prop := cs = ['-']

/-- The whole part of a number: `int = zero / ( digit1-9 *DIGIT )`. -/
inductive Whole : List Char → Prop where
  /-- A zero, alone. -/
  | zero : Whole ['0']
  /-- Digits, of which the first is no zero. -/
  | positive {c : Char} {cs : List Char} (hc : '1' ≤ c ∧ c ≤ '9') (hcs : ∀ d ∈ cs, Digit d) :
      Whole (c :: cs)

/-- The fraction of a number: `frac = decimal-point 1*DIGIT`. -/
inductive Fraction : List Char → Prop where
  /-- A point and digits. -/
  | point {digits : List Char} (h : Digits digits) : Fraction ('.' :: digits)

/-- The exponent of a number: `exp = e [ minus / plus ] 1*DIGIT`. -/
inductive Exponent : List Char → Prop where
  /-- The letter in either case, at most one sign, and digits. -/
  | power {e : Char} {sign digits : List Char} (he : e = 'e' ∨ e = 'E')
      (hsign : Optional (fun cs => cs = ['-'] ∨ cs = ['+']) sign) (h : Digits digits) :
      Exponent (e :: (sign ++ digits))

/-- A number: `number = [ minus ] int [ frac ] [ exp ]`.  It is an integer if it has neither a
fraction nor an exponent. -/
inductive Number : Primitive → List Char → Prop where
  /-- A number without fraction and exponent. -/
  | integer {minus whole : List Char} (hminus : Optional Minus minus) (hwhole : Whole whole) :
      Number .integer (minus ++ whole)
  /-- A number with a fraction, an exponent or both. -/
  | float {minus whole frac exp : List Char} (hminus : Optional Minus minus) (hwhole : Whole whole)
      (hfrac : Optional Fraction frac) (hexp : Optional Exponent exp) (hne : frac ++ exp ≠ []) :
      Number .float (minus ++ (whole ++ (frac ++ exp)))

/-! ## Strings -/

/-- A character that stands for itself: `unescaped = %x20-21 / %x23-5B / %x5D-10FFFF`. -/
def Unescaped (c : Char) : Prop := 0x20 ≤ c.toNat ∧ c ≠ '"' ∧ c ≠ '\\'

instance : DecidablePred Unescaped :=
  fun c => inferInstanceAs (Decidable (0x20 ≤ c.toNat ∧ c ≠ '"' ∧ c ≠ '\\'))

/-- A hexadecimal digit: `HEXDIG = DIGIT / "A" / "B" / "C" / "D" / "E" / "F"`, in either case. -/
def HexDigit (c : Char) : Prop := Digit c ∨ ('A' ≤ c ∧ c ≤ 'F') ∨ ('a' ≤ c ∧ c ≤ 'f')

instance : DecidablePred HexDigit :=
  fun c => inferInstanceAs (Decidable (Digit c ∨ ('A' ≤ c ∧ c ≤ 'F') ∨ ('a' ≤ c ∧ c ≤ 'f')))

/-- What stands between the quotes of a string: `*char`. -/
inductive Chars : List Char → Prop where
  /-- Nothing. -/
  | nil : Chars []
  /-- A character that stands for itself. -/
  | unescaped {c : Char} {cs : List Char} (h : Unescaped c) (rest : Chars cs) : Chars (c :: cs)
  /-- A backslash and one of the characters that may follow it. -/
  | escape {c : Char} {cs : List Char} (h : c ∈ ['"', '\\', '/', 'b', 'f', 'n', 'r', 't'])
      (rest : Chars cs) : Chars ('\\' :: c :: cs)
  /-- A backslash, the letter `u` and four hexadecimal digits: `%x75 4HEXDIG`. -/
  | unicode {a b c d : Char} {cs : List Char} (ha : HexDigit a) (hb : HexDigit b)
      (hc : HexDigit c) (hd : HexDigit d) (rest : Chars cs) :
      Chars ('\\' :: 'u' :: a :: b :: c :: d :: cs)

/-- A string: `string = quotation-mark *char quotation-mark`. -/
def quoted (body : List Char) : List Char := '"' :: (body ++ ['"'])

/-! ## Values -/

mutual

/-- A value, its tree, and how many containers lie around its innermost part:
`value = false / null / true / object / array / number / string`. -/
inductive Value : List Char → Node → Nat → Prop where
  /-- The word for what is not so. -/
  | false : Value ['f', 'a', 'l', 's', 'e'] (.primitive .bool) 0
  /-- The word for what is not there. -/
  | null : Value ['n', 'u', 'l', 'l'] (.primitive .null) 0
  /-- The word for what is so. -/
  | true : Value ['t', 'r', 'u', 'e'] (.primitive .bool) 0
  /-- A number. -/
  | number {type : Primitive} {cs : List Char} (h : Number type cs) : Value cs (.primitive type) 0
  /-- A string. -/
  | string {body : List Char} (h : Chars body) : Value (quoted body) (.primitive .string) 0
  /-- An object without members. -/
  | emptyObject {opening closing : List Char} (hopening : Mark '\x7b' opening)
      (hclosing : Mark '\x7d' closing) : Value (opening ++ closing) (.object (.ofPairs [])) 1
  /-- An object with members: each name, as written, has its values in the order of the text. -/
  | object {opening cs closing : List Char} {pairs : List (String × Node)} {depth : Nat}
      (hopening : Mark '\x7b' opening) (hmembers : Members cs pairs depth)
      (hclosing : Mark '\x7d' closing) :
      Value (opening ++ (cs ++ closing)) (.object (.ofPairs pairs)) (1 + depth)
  /-- An array without elements. -/
  | emptyArray {opening closing : List Char} (hopening : Mark '[' opening)
      (hclosing : Mark ']' closing) : Value (opening ++ closing) (.array []) 1
  /-- An array with elements. -/
  | array {opening cs closing : List Char} {nodes : List Node} {depth : Nat}
      (hopening : Mark '[' opening) (helements : Elements cs nodes depth)
      (hclosing : Mark ']' closing) :
      Value (opening ++ (cs ++ closing)) (.array nodes) (1 + depth)

/-- A member of an object with its name and tree: `member = string name-separator value`. -/
inductive Member : List Char → String × Node → Nat → Prop where
  /-- A name, a colon and a value. -/
  | named {name colon cs : List Char} {node : Node} {depth : Nat} (hname : Chars name)
      (hcolon : Mark ':' colon) (hvalue : Value cs node depth) :
      Member (quoted name ++ (colon ++ cs)) (.ofList name, node) depth

/-- The members of an object: `member *( value-separator member )`. -/
inductive Members : List Char → List (String × Node) → Nat → Prop where
  /-- One member. -/
  | last {cs : List Char} {pair : String × Node} {depth : Nat} (h : Member cs pair depth) :
      Members cs [pair] depth
  /-- A member before others. -/
  | more {cs comma others : List Char} {pair : String × Node} {pairs : List (String × Node)}
      {depth otherDepth : Nat} (h : Member cs pair depth) (hcomma : Mark ',' comma)
      (hothers : Members others pairs otherDepth) :
      Members (cs ++ (comma ++ others)) (pair :: pairs) (max depth otherDepth)

/-- The elements of an array: `value *( value-separator value )`. -/
inductive Elements : List Char → List Node → Nat → Prop where
  /-- One element. -/
  | last {cs : List Char} {node : Node} {depth : Nat} (h : Value cs node depth) :
      Elements cs [node] depth
  /-- An element before others. -/
  | more {cs comma others : List Char} {node : Node} {nodes : List Node}
      {depth otherDepth : Nat} (h : Value cs node depth) (hcomma : Mark ',' comma)
      (hothers : Elements others nodes otherDepth) :
      Elements (cs ++ (comma ++ others)) (node :: nodes) (max depth otherDepth)

end

/-- A whole text, `JSON-text = ws value ws`, whose value is an object or an array. -/
inductive JsonText : List Char → Node → Nat → Prop where
  /-- A container with blanks around it. -/
  | container {before cs after : List Char} {root : Node} {depth : Nat} (hbefore : Blanks before)
      (hvalue : Value cs root depth) (hkind : root.kind = .object ∨ root.kind = .array)
      (hafter : Blanks after) : JsonText (before ++ (cs ++ after)) root depth

end Text

end JsonShape
