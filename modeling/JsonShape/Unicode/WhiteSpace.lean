import JsonShape.Unicode.Ranges

/-!
# White space

The property White_Space, and the words of a text that it separates.
-/

namespace JsonShape.Unicode

/-- The code points with the property White_Space. -/
def whiteSpaceRanges : Ranges :=
  [(0x0009, 0x000D), (0x0020, 0x0020), (0x0085, 0x0085), (0x00A0, 0x00A0), (0x1680, 0x1680),
   (0x2000, 0x200A), (0x2028, 0x2029), (0x202F, 0x202F), (0x205F, 0x205F), (0x3000, 0x3000)]

theorem whiteSpaceRanges_ascending : whiteSpaceRanges.ascending = true := by decide +kernel

/-- Whether a character has the property White_Space. -/
def isWhiteSpace (c : Char) : Bool := whiteSpaceRanges.contains c.toNat

theorem isWhiteSpace_iff {c : Char} :
    isWhiteSpace c = true ↔ ∃ r ∈ whiteSpaceRanges, r.1 ≤ c.toNat ∧ c.toNat ≤ r.2 :=
  Ranges.contains_iff whiteSpaceRanges_ascending c.toNat

/-- The words of a text: `word` is the one that is being read, backwards. -/
def wordsAfter (word : List Char) : List Char → List String
  | [] => if word.isEmpty then [] else [String.ofList word.reverse]
  | c :: rest =>
    if isWhiteSpace c then
      if word.isEmpty then wordsAfter [] rest
      else String.ofList word.reverse :: wordsAfter [] rest
    else wordsAfter (c :: word) rest

/-- The longest pieces of a text without white space, in order. -/
def words (text : String) : List String := wordsAfter [] text.toList

end JsonShape.Unicode
