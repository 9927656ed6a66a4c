import JsonShape.Proofs.Declaration.Tag

/-!
# The key that a tag names

A tag holds its key as the document writes it, between quotes, and whoever looks the tag up reads
that as an interpreted literal.  The escapes of JSON are left in place; most of them are escapes of
interpreted literals as well, with the same meaning, but two are not.  A literal has no escape for a
slash, and none for a surrogate, of which JSON takes two for a character beyond the first 65536.

* `Decodes` — the text that the body of a string stands for in JSON.
* `SharedEscapes` — the bodies without those two escapes.
* `interpreted_iff` — they are what can stand in a literal, and it denotes what JSON reads.
* `denotes_quoted_iff` — the tag of a key, and the literal in it.
-/

namespace JsonShape

namespace Declaration

variable {a b c d : Char} {n : Nat} {cs text : List Char} {value : List UInt8}

/-! ## What a key stands for -/

/-- The character for which a backslash and another character stand in JSON. -/
def jsonEscaped? : Char → Option Char
  | '"' => some '"'
  | '\\' => some '\\'
  | '/' => some '/'
  | 'b' => some '\x08'
  | 'f' => some '\x0c'
  | 'n' => some '\n'
  | 'r' => some '\r'
  | 't' => some '\t'
  | _ => none

/-- The character of a code point beyond those that one escape can name, by its two surrogates. -/
def ofSurrogates (high low : Nat) : Char :=
  .ofNat (0x10000 + (high - 0xd800) * 0x400 + (low - 0xdc00))

/-- What stands between the quotes of a string, and the text that it is in JSON.  A surrogate that is
not one of a pair is no text. -/
inductive Decodes : List Char → List Char → Prop
  /-- Nothing. -/
  | nil : Decodes [] []
  /-- A character that stands for itself. -/
  | unescaped {c : Char} {cs text : List Char} (h : Text.Unescaped c) (rest : Decodes cs text) :
      Decodes (c :: cs) (c :: text)
  /-- A backslash and a character. -/
  | escape {c d : Char} {cs text : List Char} (h : jsonEscaped? c = some d)
      (rest : Decodes cs text) : Decodes ('\\' :: c :: cs) (d :: text)
  /-- A character by its code point. -/
  | unicode {a b c d : Char} {n : Nat} {cs text : List Char} (h : digits? 16 [a, b, c, d] = some n)
      (valid : n.isValidChar) (rest : Decodes cs text) :
      Decodes ('\\' :: 'u' :: a :: b :: c :: d :: cs) (.ofNat n :: text)
  /-- A character by its surrogates. -/
  | surrogates {a b c d e f g h : Char} {high low : Nat} {cs text : List Char}
      (hhigh : digits? 16 [a, b, c, d] = some high) (hlow : digits? 16 [e, f, g, h] = some low)
      (first : 0xd800 ≤ high ∧ high ≤ 0xdbff) (second : 0xdc00 ≤ low ∧ low ≤ 0xdfff)
      (rest : Decodes cs text) :
      Decodes ('\\' :: 'u' :: a :: b :: c :: d :: '\\' :: 'u' :: e :: f :: g :: h :: cs)
        (ofSurrogates high low :: text)

/-- The bodies of strings whose escapes are escapes of interpreted literals too: none is for a slash
or for a surrogate. -/
inductive SharedEscapes : List Char → Prop
  /-- Nothing. -/
  | nil : SharedEscapes []
  /-- A character that stands for itself. -/
  | unescaped {c : Char} {cs : List Char} (h : Text.Unescaped c) (rest : SharedEscapes cs) :
      SharedEscapes (c :: cs)
  /-- A backslash and a character other than a slash. -/
  | escape {c d : Char} {cs : List Char} (h : jsonEscaped? c = some d) (slash : c ≠ '/')
      (rest : SharedEscapes cs) : SharedEscapes ('\\' :: c :: cs)
  /-- A character by its code point, which is not a surrogate. -/
  | unicode {a b c d : Char} {n : Nat} {cs : List Char} (h : digits? 16 [a, b, c, d] = some n)
      (valid : n.isValidChar) (rest : SharedEscapes cs) :
      SharedEscapes ('\\' :: 'u' :: a :: b :: c :: d :: cs)

/-! ## Digits -/

theorem exists_digit? (h : Text.HexDigit c) : ∃ n, digit? 16 c = some n := by
  unfold digit?
  refine ⟨_, if_pos ?_⟩
  split
  · rename_i hrange
    have hmax : c.toNat ≤ '9'.toNat := hrange.2
    simp at hmax ⊢
    omega
  · rename_i hdigit
    split
    · rename_i hrange
      have hmax : c.toNat ≤ 'f'.toNat := hrange.2
      simp at hmax ⊢
      omega
    · rename_i hlower
      have hrange : 'A' ≤ c ∧ c ≤ 'F' := (h.resolve_left hdigit).resolve_right hlower
      have hmax : c.toNat ≤ 'F'.toNat := hrange.2
      rw [if_pos hrange]
      simp at hmax ⊢
      omega

theorem exists_digits? (ha : Text.HexDigit a) (hb : Text.HexDigit b) (hc : Text.HexDigit c)
    (hd : Text.HexDigit d) : ∃ n, digits? 16 [a, b, c, d] = some n := by
  obtain ⟨i, hi⟩ := exists_digit? ha
  obtain ⟨j, hj⟩ := exists_digit? hb
  obtain ⟨k, hk⟩ := exists_digit? hc
  obtain ⟨l, hl⟩ := exists_digit? hd
  simp [digits?, hi, hj, hk, hl]

/-- A surrogate is no character. -/
theorem not_isValidChar_of_surrogate (h : 0xd800 ≤ n ∧ n ≤ 0xdbff) : ¬ n.isValidChar := by
  unfold Nat.isValidChar
  omega

/-! ## Escapes of interpreted literals -/

/-- The escapes of JSON are those of literals, but for the one of the slash. -/
theorem escaped?_of_jsonEscaped? (h : jsonEscaped? c = some d) (hslash : c ≠ '/') :
    escaped? c = some d := by
  unfold jsonEscaped? at h
  split at h
  · exact h
  · exact h
  · contradiction
  · exact h
  · exact h
  · exact h
  · exact h
  · exact h
  · cases h

theorem exists_jsonEscaped? (h : c ∈ ['"', '\\', '/', 'b', 'f', 'n', 'r', 't']) :
    ∃ d, jsonEscaped? c = some d := by
  simp at h
  rcases h with rfl | rfl | rfl | rfl | rfl | rfl | rfl | rfl
  all_goals exact ⟨_, rfl⟩

theorem not_interpreted_slash : ¬ Interpreted ('\\' :: '/' :: cs) value := by
  intro h
  rcases interpreted_backslash h (by decide) (by decide) with
    ⟨d, rest, hd, -⟩ | ⟨digits, more, n, rest, ⟨hc, -⟩ | ⟨hc, -⟩, -⟩
  · cases hd
  · exact absurd hc (by decide)
  · exact absurd hc (by decide)

/-- A code point is read by its digits, unless it is a surrogate. -/
theorem interpreted_unicode_iff (hn : digits? 16 [a, b, c, d] = some n) :
    Interpreted ('\\' :: 'u' :: a :: b :: c :: d :: cs) value ↔
      n.isValidChar ∧
        ∃ rest, value = String.utf8EncodeChar (.ofNat n) ++ rest ∧ Interpreted cs rest := by
  constructor
  · intro h
    rcases interpreted_backslash h (by decide) (by decide) with
      ⟨e, rest, he, -⟩ | ⟨digits, more, m, rest, ⟨-, hwidth⟩ | ⟨hu, -⟩, hcs, hm, valid, rfl, hrest⟩
    · cases he
    · obtain ⟨rfl, rfl⟩ := @List.append_inj _ [a, b, c, d] digits cs more hcs hwidth.symm
      obtain rfl := Option.some.inj (hn.symm.trans hm)
      exact ⟨valid, rest, rfl, hrest⟩
    · exact absurd hu (by decide)
  · rintro ⟨valid, rest, rfl, h⟩
    exact @Interpreted.unicode 'u' [a, b, c, d] cs n rest (Or.inl ⟨rfl, rfl⟩) hn valid h

/-! ## Bodies of strings -/

theorem not_unescaped_backslash : ¬ Text.Unescaped '\\' := by decide

/-- A body whose escapes are shared is a text in JSON, -/
theorem SharedEscapes.exists_decodes (h : SharedEscapes cs) : ∃ text, Decodes cs text := by
  induction h with
  | nil => exact ⟨[], .nil⟩
  | unescaped h _ ih =>
    obtain ⟨text, htext⟩ := ih
    exact ⟨_, .unescaped h htext⟩
  | escape h _ _ ih =>
    obtain ⟨text, htext⟩ := ih
    exact ⟨_, .escape h htext⟩
  | unicode h valid _ ih =>
    obtain ⟨text, htext⟩ := ih
    exact ⟨_, .unicode h valid htext⟩

/-- and a literal denotes that text. -/
theorem SharedEscapes.interpreted (hshared : SharedEscapes cs) (h : Decodes cs text) :
    Interpreted cs (utf8 text) := by
  induction h with
  | nil => exact .nil
  | @unescaped c cs text h _ ih =>
    have hnewline : c ≠ '\n' := by
      rintro rfl
      exact absurd h (by decide)
    rw [utf8_cons]
    cases hshared with
    | unescaped _ hrest => exact .plain h.2.1 h.2.2 hnewline (ih hrest)
    | escape => exact absurd rfl h.2.2
    | unicode => exact absurd rfl h.2.2
  | escape h _ ih =>
    rw [utf8_cons]
    cases hshared with
    | unescaped h => exact absurd h not_unescaped_backslash
    | escape _ hslash hrest => exact .escape (escaped?_of_jsonEscaped? h hslash) (ih hrest)
    | unicode => cases h
  | @unicode a b c d n cs text h valid _ ih =>
    rw [utf8_cons, interpreted_unicode_iff h]
    cases hshared with
    | unescaped h => exact absurd h not_unescaped_backslash
    | escape h => cases h
    | unicode _ _ hrest => exact ⟨valid, _, rfl, ih hrest⟩
  | surrogates hhigh hlow first second _ ih =>
    cases hshared with
    | unescaped h => exact absurd h not_unescaped_backslash
    | escape h => cases h
    | unicode h valid _ =>
      obtain rfl := Option.some.inj (hhigh.symm.trans h)
      exact absurd valid (not_isValidChar_of_surrogate first)

/-- What can stand in a literal as well has shared escapes, and the literal denotes what it is in
JSON. -/
theorem sharedEscapes_of_interpreted (h : Text.Chars cs) (hi : Interpreted cs value) :
    SharedEscapes cs ∧ ∃ text, Decodes cs text ∧ value = utf8 text := by
  induction h generalizing value with
  | nil => exact ⟨.nil, [], .nil, interpreted_nil_iff.1 hi⟩
  | unescaped h _ ih =>
    obtain ⟨-, rest, rfl, hrest⟩ := (interpreted_plain_iff h.2.1 h.2.2).1 hi
    obtain ⟨hshared, text, htext, rfl⟩ := ih hrest
    exact ⟨.unescaped h hshared, _, .unescaped h htext, (utf8_cons _ _).symm⟩
  | @escape c cs h _ ih =>
    have hslash : c ≠ '/' := by
      rintro rfl
      exact not_interpreted_slash hi
    obtain ⟨d, hd⟩ := exists_jsonEscaped? h
    obtain ⟨rest, rfl, hrest⟩ :=
      (interpreted_escaped_iff (escaped?_of_jsonEscaped? hd hslash)).1 hi
    obtain ⟨hshared, text, htext, rfl⟩ := ih hrest
    exact ⟨.escape hd hslash hshared, _, .escape hd htext, (utf8_cons _ _).symm⟩
  | unicode ha hb hc hd _ ih =>
    obtain ⟨n, hn⟩ := exists_digits? ha hb hc hd
    obtain ⟨valid, rest, rfl, hrest⟩ := (interpreted_unicode_iff hn).1 hi
    obtain ⟨hshared, text, htext, rfl⟩ := ih hrest
    exact ⟨.unicode hn valid hshared, _, .unicode hn valid htext, (utf8_cons _ _).symm⟩

/-! ## Tags -/

/-- The tag of a name of a JSON text denotes `json:` and then the name between its quotes, as it is
in the text.  Read as a literal in turn, that is what the name is in JSON, for the names whose
escapes are shared; for all others, those with an escape for a slash or for a surrogate, it is no
literal at all. -/
theorem denotes_quoted_iff {key : String} (h : Text.Chars key.toList) :
    Denotes (tag key).toList (utf8 ("json:".toList ++ Text.quoted key.toList)) ∧
      (∀ value, Denotes (Text.quoted key.toList) value ↔
        SharedEscapes key.toList ∧ ∃ text, Decodes key.toList text ∧ value = utf8 text) ∧
      ((∃ value, Denotes (Text.quoted key.toList) value) ↔ SharedEscapes key.toList) := by
  have hquoted : ∀ value, Denotes (Text.quoted key.toList) value ↔
      SharedEscapes key.toList ∧ ∃ text, Decodes key.toList text ∧ value = utf8 text := by
    intro value
    unfold Text.quoted
    rw [denotes_interpreted_iff]
    constructor
    · intro hvalue
      exact sharedEscapes_of_interpreted h hvalue
    · rintro ⟨hshared, text, htext, rfl⟩
      exact hshared.interpreted htext
  refine ⟨?_, hquoted, ?_⟩
  · have hown : Denotes (tag key).toList (utf8 (tagValue key).toList) := by
      rw [denotes_own_iff]
      split
      · exact not_mem_of_chars h (by decide)
      · exact not_mem_of_chars h (by decide)
    simpa [tagValue, Text.quoted] using hown
  · constructor
    · rintro ⟨value, hvalue⟩
      exact ((hquoted value).1 hvalue).1
    · intro hshared
      obtain ⟨text, htext⟩ := hshared.exists_decodes
      exact ⟨utf8 text, (hquoted _).2 ⟨hshared, text, htext, rfl⟩⟩

/-- A name with an escaped quote, a code point and the mark of raw literals. -/
def escapedName : String := "\\\"\\u00e9\x60"

theorem escapedName_chars : Text.Chars escapedName.toList :=
  .escape (by decide) (.unicode (by decide) (by decide) (by decide) (by decide)
    (.unescaped (by decide) .nil))

theorem denotes_quoted_iff_escapedName : Text.Chars escapedName.toList ∧
    Denotes (tag escapedName).toList (utf8 ("json:".toList ++ Text.quoted escapedName.toList)) ∧
      (∀ value, Denotes (Text.quoted escapedName.toList) value ↔
        SharedEscapes escapedName.toList ∧
          ∃ text, Decodes escapedName.toList text ∧ value = utf8 text) ∧
      ((∃ value, Denotes (Text.quoted escapedName.toList) value) ↔
        SharedEscapes escapedName.toList) :=
  ⟨escapedName_chars, denotes_quoted_iff escapedName_chars⟩

/-- A name with an escaped slash is a text in JSON, and no literal. -/
theorem not_denotes_slash : Text.Chars "a\\/b".toList ∧
    Decodes "a\\/b".toList "a/b".toList ∧ ∀ value, ¬ Denotes (Text.quoted "a\\/b".toList) value := by
  refine ⟨?_, ?_, ?_⟩
  · exact .unescaped (by decide) (.escape (by decide) (.unescaped (by decide) .nil))
  · exact .unescaped (by decide) (.escape rfl (.unescaped (by decide) .nil))
  · intro value h
    have hbody : Interpreted ['a', '\\', '/', 'b'] value := denotes_interpreted_iff.1 h
    obtain ⟨-, rest, -, hrest⟩ := (interpreted_plain_iff (by decide) (by decide)).1 hbody
    exact not_interpreted_slash hrest

/-- So is one with a character that is written by its surrogates. -/
example : Decodes "\\ud83d\\ude00".toList [.ofNat 0x1f600] ∧
    ∀ value, ¬ Interpreted "\\ud83d\\ude00".toList value := by
  have hhigh : digits? 16 ['d', '8', '3', 'd'] = some 0xd83d := by decide
  have hlow : digits? 16 ['d', 'e', '0', '0'] = some 0xde00 := by decide
  have hpair : ofSurrogates 0xd83d 0xde00 = .ofNat 0x1f600 := by simp [ofSurrogates]
  constructor
  · rw [← hpair]
    exact .surrogates hhigh hlow (by decide) (by decide) .nil
  · intro value h
    exact not_isValidChar_of_surrogate (by decide) ((interpreted_unicode_iff hhigh).1 h).1

end Declaration

end JsonShape
