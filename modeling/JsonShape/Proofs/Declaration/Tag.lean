import JsonShape.Declaration
import JsonShape.Proofs.Text.Reordering

/-!
# What a tag says

The string literals of the language, the strings that they denote, and which of them a tag is.  A
tag is to denote `json:"key"` with the characters of the key as they are in the document.  A raw
literal loses the carriage returns of a key, and an interpreted one cannot hold its line feeds; both
may occur in a key, since the quotes of a string enclose any characters.

* `Denotes` — a string literal and the bytes of its string.
* `interpreted_escape_iff`, `denotes_tag_iff` — what is written for a tag, and what it denotes.
* `parse_member` — every body of a string is a key in some document.
* `denotes_tagValue_iff` — the keys whose tag says what it is to say, among them those of JSON texts.
-/

namespace JsonShape

namespace Declaration

/-! ## String literals -/

/-- The bytes of a text in UTF-8. -/
def utf8 (cs : List Char) : List UInt8 := cs.flatMap String.utf8EncodeChar

/-- The value of a digit in some base. -/
def digit? (base : Nat) (c : Char) : Option Nat :=
  let value :=
    if '0' ≤ c ∧ c ≤ '9' then c.toNat - '0'.toNat
    else if 'a' ≤ c ∧ c ≤ 'f' then c.toNat - 'a'.toNat + 10
    else if 'A' ≤ c ∧ c ≤ 'F' then c.toNat - 'A'.toNat + 10
    else base
  if value < base then some value else none

/-- The value of some digits, the most significant first. -/
def digits? (base : Nat) (cs : List Char) : Option Nat :=
  cs.foldlM (fun n c => (digit? base c).map (base * n + ·)) 0

/-- The character for which a backslash and another character stand. -/
def escaped? : Char → Option Char
  | 'a' => some '\x07'
  | 'b' => some '\x08'
  | 'f' => some '\x0c'
  | 'n' => some '\n'
  | 'r' => some '\r'
  | 't' => some '\t'
  | 'v' => some '\x0b'
  | '\\' => some '\\'
  | '"' => some '"'
  | _ => none

/-- What stands in an interpreted literal, and the bytes of its string. -/
inductive Interpreted : List Char → List UInt8 → Prop
  /-- Nothing. -/
  | nil : Interpreted [] []
  /-- A character that stands for itself; neither the quote nor a line feed does. -/
  | plain {c : Char} {cs : List Char} {value : List UInt8} (quote : c ≠ '"') (backslash : c ≠ '\\')
      (newline : c ≠ '\n') (rest : Interpreted cs value) :
      Interpreted (c :: cs) (String.utf8EncodeChar c ++ value)
  /-- A backslash and a character. -/
  | escape {c d : Char} {cs : List Char} {value : List UInt8} (h : escaped? c = some d)
      (rest : Interpreted cs value) :
      Interpreted ('\\' :: c :: cs) (String.utf8EncodeChar d ++ value)
  /-- A byte, by three octal digits. -/
  | octal {digits cs : List Char} {n : Nat} {value : List UInt8} (width : digits.length = 3)
      (h : digits? 8 digits = some n) (byte : n < 256) (rest : Interpreted cs value) :
      Interpreted ('\\' :: (digits ++ cs)) (.ofNat n :: value)
  /-- A byte, by the letter `x` and two hexadecimal digits. -/
  | hex {digits cs : List Char} {n : Nat} {value : List UInt8} (width : digits.length = 2)
      (h : digits? 16 digits = some n) (rest : Interpreted cs value) :
      Interpreted ('\\' :: 'x' :: (digits ++ cs)) (.ofNat n :: value)
  /-- A character, by the letter `u` and four hexadecimal digits or `U` and eight. -/
  | unicode {mark : Char} {digits cs : List Char} {n : Nat} {value : List UInt8}
      (width : mark = 'u' ∧ digits.length = 4 ∨ mark = 'U' ∧ digits.length = 8)
      (h : digits? 16 digits = some n) (valid : n.isValidChar) (rest : Interpreted cs value) :
      Interpreted ('\\' :: mark :: (digits ++ cs)) (String.utf8EncodeChar (.ofNat n) ++ value)

/-- A complete string literal and the bytes of its string.  A raw literal holds anything but its own
mark, and its carriage returns are dropped. -/
inductive Denotes : List Char → List UInt8 → Prop
  /-- A raw literal. -/
  | raw {body : List Char} (h : backquote ∉ body) :
      Denotes (backquote :: (body ++ [backquote])) (utf8 (body.filter (· ≠ '\r')))
  /-- An interpreted literal. -/
  | interpreted {body : List Char} {value : List UInt8} (h : Interpreted body value) :
      Denotes ('"' :: (body ++ ['"'])) value

variable {c : Char} {cs body : List Char} {value : List UInt8}

/-! ## Bytes -/

theorem utf8_cons (c : Char) (cs : List Char) :
    utf8 (c :: cs) = String.utf8EncodeChar c ++ utf8 cs := List.flatMap_cons

/-- Carriage returns are a byte each. -/
theorem length_utf8_filter (cs : List Char) :
    (utf8 (cs.filter (· ≠ '\r'))).length + cs.count '\r' = (utf8 cs).length := by
  induction cs with
  | nil => rfl
  | cons c cs ih =>
    by_cases hc : c = '\r'
    · subst hc
      have hone : (String.utf8EncodeChar '\r').length = 1 := by decide
      rw [List.filter_cons_of_neg (by decide), List.count_cons_self, utf8_cons,
        List.length_append, hone, ← ih]
      omega
    · rw [List.filter_cons_of_pos (by simpa using hc), List.count_cons_of_ne hc, utf8_cons,
        utf8_cons, List.length_append, List.length_append, ← ih]
      omega

/-- Dropping the carriage returns of a text leaves its bytes only if there are none. -/
theorem utf8_filter_eq_iff (cs : List Char) :
    utf8 cs = utf8 (cs.filter (· ≠ '\r')) ↔ '\r' ∉ cs := by
  rw [← List.count_eq_zero]
  constructor
  · intro h
    have hlength := length_utf8_filter cs
    rw [← h] at hlength
    omega
  · intro h
    have hfilter : cs.filter (· ≠ '\r') = cs := by
      refine List.filter_eq_self.2 fun c hc => decide_eq_true ?_
      rintro rfl
      exact List.count_eq_zero.1 h hc
    rw [hfilter]

/-! ## Interpreted literals -/

theorem interpreted_nil_iff : Interpreted [] value ↔ value = [] := by
  constructor
  · intro h
    cases h
    rfl
  · rintro rfl
    exact .nil

theorem interpreted_plain_iff (quote : c ≠ '"') (backslash : c ≠ '\\') :
    Interpreted (c :: cs) value ↔
      c ≠ '\n' ∧ ∃ rest, value = String.utf8EncodeChar c ++ rest ∧ Interpreted cs rest := by
  constructor
  · intro h
    cases h with
    | plain _ _ newline rest => exact ⟨newline, _, rfl, rest⟩
    | escape => exact absurd rfl backslash
    | octal => exact absurd rfl backslash
    | hex => exact absurd rfl backslash
    | unicode => exact absurd rfl backslash
  · rintro ⟨newline, rest, rfl, h⟩
    exact .plain quote backslash newline h

theorem digits?_cons_none {base : Nat} {digits : List Char} (h : digit? base c = none) :
    digits? base (c :: digits) = none := by
  rw [digits?, List.foldlM_cons, h]
  rfl

/-- A backslash, other than before the digits of a byte, is read with one character behind it, or
with the letter and the digits of a code point. -/
theorem interpreted_backslash (h : Interpreted ('\\' :: c :: cs) value) (hoctal : digit? 8 c = none)
    (hhex : c ≠ 'x') :
    (∃ d rest, escaped? c = some d ∧ value = String.utf8EncodeChar d ++ rest ∧
      Interpreted cs rest) ∨
    ∃ digits more n rest, (c = 'u' ∧ digits.length = 4 ∨ c = 'U' ∧ digits.length = 8) ∧
      cs = digits ++ more ∧ digits? 16 digits = some n ∧ n.isValidChar ∧
        value = String.utf8EncodeChar (.ofNat n) ++ rest ∧ Interpreted more rest := by
  generalize hw : '\\' :: c :: cs = w at h
  cases h with
  | nil => cases hw
  | plain _ backslash => exact absurd (List.cons.inj hw).1.symm backslash
  | escape h rest =>
    obtain ⟨-, hw⟩ := List.cons.inj hw
    obtain ⟨rfl, rfl⟩ := List.cons.inj hw
    exact Or.inl ⟨_, _, h, rfl, rest⟩
  | @octal digits _ _ _ width h =>
    -- three digits would begin with the character behind the backslash, which is none
    obtain ⟨-, hw⟩ := List.cons.inj hw
    cases digits with
    | nil => cases width
    | cons e digits =>
      obtain ⟨rfl, -⟩ := List.cons.inj hw
      rw [digits?_cons_none hoctal] at h
      cases h
  | hex =>
    obtain ⟨-, hw⟩ := List.cons.inj hw
    exact absurd (List.cons.inj hw).1 hhex
  | unicode width h valid rest =>
    obtain ⟨-, hw⟩ := List.cons.inj hw
    obtain ⟨rfl, rfl⟩ := List.cons.inj hw
    exact Or.inr ⟨_, _, _, _, width, rfl, h, valid, rfl, rest⟩

theorem digit?_of_escaped? {d : Char} (h : escaped? c = some d) : digit? 8 c = none := by
  unfold escaped? at h
  split at h
  · decide
  · decide
  · decide
  · decide
  · decide
  · decide
  · decide
  · decide
  · decide
  · cases h

/-- A backslash is read together with the character behind it, if there is an escape for that. -/
theorem interpreted_escaped_iff {d : Char} (hc : escaped? c = some d) :
    Interpreted ('\\' :: c :: cs) value ↔
      ∃ rest, value = String.utf8EncodeChar d ++ rest ∧ Interpreted cs rest := by
  have hhex : c ≠ 'x' := by
    rintro rfl
    cases hc
  constructor
  · intro h
    rcases interpreted_backslash h (digit?_of_escaped? hc) hhex with
      ⟨d', rest, hd, rfl, hrest⟩ | ⟨digits, more, n, rest, ⟨rfl, -⟩ | ⟨rfl, -⟩, -⟩
    · obtain rfl := Option.some.inj (hc.symm.trans hd)
      exact ⟨rest, rfl, hrest⟩
    · cases hc
    · cases hc
  · rintro ⟨rest, rfl, h⟩
    exact .escape hc h

/-- What is written for a text in an interpreted literal denotes it, unless it has a line feed. -/
theorem interpreted_escape_iff (cs : List Char) (value : List UInt8) :
    Interpreted (cs.flatMap escape) value ↔ '\n' ∉ cs ∧ value = utf8 cs := by
  induction cs generalizing value with
  | nil => simp [interpreted_nil_iff, utf8]
  | cons c cs ih =>
    rw [List.flatMap_cons, utf8_cons, List.mem_cons, not_or]
    by_cases hc : c = '"' ∨ c = '\\'
    · have hescape : escape c = ['\\', c] := by
        rcases hc with rfl | rfl <;> rfl
      have hescaped : escaped? c = some c := by
        rcases hc with rfl | rfl <;> rfl
      have hnewline : '\n' ≠ c := by
        rcases hc with rfl | rfl <;> decide
      rw [hescape, List.cons_append, List.singleton_append, interpreted_escaped_iff hescaped]
      constructor
      · rintro ⟨rest, rfl, h⟩
        obtain ⟨hrest, rfl⟩ := (ih rest).1 h
        exact ⟨⟨hnewline, hrest⟩, rfl⟩
      · rintro ⟨⟨-, hrest⟩, rfl⟩
        exact ⟨_, rfl, (ih _).2 ⟨hrest, rfl⟩⟩
    · have hescape : escape c = [c] := by
        unfold escape
        simp [hc]
      obtain ⟨quote, backslash⟩ := not_or.1 hc
      rw [hescape, List.singleton_append, interpreted_plain_iff quote backslash]
      constructor
      · rintro ⟨newline, rest, rfl, h⟩
        obtain ⟨hrest, rfl⟩ := (ih rest).1 h
        exact ⟨⟨newline.symm, hrest⟩, rfl⟩
      · rintro ⟨⟨newline, hrest⟩, rfl⟩
        exact ⟨Ne.symm newline, _, rfl, (ih _).2 ⟨hrest, rfl⟩⟩

/-! ## Literals -/

theorem denotes_raw_iff : Denotes (backquote :: (body ++ [backquote])) value ↔
    backquote ∉ body ∧ value = utf8 (body.filter (· ≠ '\r')) := by
  constructor
  · intro h
    generalize hw : backquote :: (body ++ [backquote]) = w at h
    cases h with
    | raw h =>
      obtain rfl := (List.append_inj' (List.cons.inj hw).2 rfl).1
      exact ⟨h, rfl⟩
    | interpreted h => exact absurd (List.cons.inj hw).1 (by decide)
  · rintro ⟨h, rfl⟩
    exact .raw h

theorem denotes_interpreted_iff :
    Denotes ('"' :: (body ++ ['"'])) value ↔ Interpreted body value := by
  constructor
  · intro h
    generalize hw : '"' :: (body ++ ['"']) = w at h
    cases h with
    | raw h => exact absurd (List.cons.inj hw).1 (by decide)
    | interpreted h =>
      obtain rfl := (List.append_inj' (List.cons.inj hw).2 rfl).1
      exact h
  · exact .interpreted

/-! ## Tags -/

/-- A character other than those around the key is in a tag exactly if it is in the key. -/
theorem mem_tagValue_iff {key : String} (hc : c ∉ ['j', 's', 'o', 'n', ':', '"']) :
    c ∈ (tagValue key).toList ↔ c ∈ key.toList := by
  simp only [List.mem_cons, List.not_mem_nil, or_false, not_or] at hc
  simp [tagValue, hc]

/-- What a tag denotes.  With the mark of raw literals in its key it is an interpreted one. -/
theorem denotes_tag_iff (key : String) (value : List UInt8) :
    Denotes (tag key).toList value ↔
      if backquote ∈ key.toList then '\n' ∉ key.toList ∧ value = utf8 (tagValue key).toList
      else value = utf8 ((tagValue key).toList.filter (· ≠ '\r')) := by
  have hmark : backquote ∈ (tagValue key).toList ↔ backquote ∈ key.toList :=
    mem_tagValue_iff (by decide)
  have hnewline : '\n' ∈ (tagValue key).toList ↔ '\n' ∈ key.toList := mem_tagValue_iff (by decide)
  unfold tag
  by_cases hkey : backquote ∈ key.toList
  · rw [if_pos hkey, if_pos (List.contains_iff_mem.2 (hmark.2 hkey)), String.toList_ofList,
      List.cons_append, denotes_interpreted_iff, interpreted_escape_iff, hnewline]
  · have hvalue : ¬ backquote ∈ (tagValue key).toList := fun h => hkey (hmark.1 h)
    rw [if_neg hkey, if_neg (fun h => hvalue (List.contains_iff_mem.1 h)), String.toList_ofList,
      List.cons_append, denotes_raw_iff]
    exact and_iff_right hvalue

/-- A tag says what it is to say exactly if its key has no line feed along with the mark of raw
literals, and no carriage return without it. -/
theorem denotes_own_iff (key : String) :
    Denotes (tag key).toList (utf8 (tagValue key).toList) ↔
      if backquote ∈ key.toList then '\n' ∉ key.toList else '\r' ∉ key.toList := by
  rw [denotes_tag_iff, utf8_filter_eq_iff, mem_tagValue_iff (by decide)]
  split
  · exact and_iff_left rfl
  · exact Iff.rfl

/-! ## The keys of documents -/

/-- Names of JSON texts have no control characters. -/
theorem not_mem_of_chars (h : Text.Chars cs) (hc : c.toNat < 0x20) : c ∉ cs := by
  have hlow : ∀ {d : Char}, 0x20 ≤ d.toNat → c ≠ d := by
    rintro d hd rfl
    omega
  have hhex : ∀ {d : Char}, Text.HexDigit d → c ≠ d := by
    intro d hd
    apply hlow
    rcases hd with ⟨hd, -⟩ | ⟨hd, -⟩ | ⟨hd, -⟩
    · exact le_trans (by decide) (show '0'.toNat ≤ d.toNat from hd)
    · exact le_trans (by decide) (show 'A'.toNat ≤ d.toNat from hd)
    · exact le_trans (by decide) (show 'a'.toNat ≤ d.toNat from hd)
  have hbackslash : c ≠ '\\' := hlow (by decide)
  induction h with
  | nil => exact List.not_mem_nil
  | unescaped h _ ih => simp [hlow h.1, ih]
  | @escape d cs h _ ih =>
    have hescape : (['"', '\\', '/', 'b', 'f', 'n', 'r', 't'].all (0x20 ≤ ·.toNat)) = true := by
      decide
    have hd : 0x20 ≤ d.toNat := of_decide_eq_true (List.all_eq_true.1 hescape d h)
    simp [hbackslash, hlow hd, ih]
  | unicode ha hb hc hd _ ih =>
    have hu : c ≠ 'u' := hlow (by decide)
    simp [hbackslash, hu, hhex ha, hhex hb, hhex hc, hhex hd, ih]

/-- Every body of a string is a key of some document. -/
theorem parse_member {key : String} (h : Token.IsBody key.toList) {limit : Nat}
    (hlimit : 1 ≤ limit) : Generator.parse ("\x7b\"" ++ key ++ "\":1\x7d") limit =
      .ok (.object (.ofPairs [(key, .primitive .integer)])) := by
  have hone : Text.Reads ['1'] (.primitive .integer) 0 :=
    .token (@Token.Spelling.integer [] ['1'] (List.forall_mem_nil _)
      (List.forall_mem_singleton.2 rfl) (List.cons_ne_nil _ _))
  have hmember := Text.Reads.member h (.bare ':') hone
  rw [String.ofList_toList] at hmember
  have hmembers : List.Forall₂
      (fun part (i : (String × Node) × Nat) => Text.ReadsMember part i.1 i.2)
      [Text.quoted key.toList ++ ([':'] ++ ['1'])] [((key, .primitive .integer), 0)] :=
    .cons hmember .nil
  have hobject := Text.Enclosed.reads_object (.filled (.bare '\x7b') (.last _) (.bare '\x7d'))
    hmembers
  have hjson : ("\x7b\"" ++ key ++ "\":1\x7d").toList =
      [] ++ (['\x7b'] ++ ((Text.quoted key.toList ++ ([':'] ++ ['1'])) ++ ['\x7d']) ++ []) := by
    simp [Text.quoted]
  exact (hobject.parse_eq_ok_iff hjson (by decide) (by decide)).2 ⟨Or.inl rfl, hlimit, rfl⟩

/-- What the tag of a key denotes, and for which keys that is what it is to be.  Every name of a JSON
text is one of them, since it has no control characters. -/
theorem denotes_tagValue_iff (key : String) :
    (∀ value, Denotes (tag key).toList value ↔
      if backquote ∈ key.toList then '\n' ∉ key.toList ∧ value = utf8 (tagValue key).toList
      else value = utf8 ((tagValue key).toList.filter (· ≠ '\r'))) ∧
      (Denotes (tag key).toList (utf8 (tagValue key).toList) ↔
        if backquote ∈ key.toList then '\n' ∉ key.toList else '\r' ∉ key.toList) ∧
      (Text.Chars key.toList → Denotes (tag key).toList (utf8 (tagValue key).toList)) := by
  refine ⟨denotes_tag_iff key, denotes_own_iff key, fun hkey => (denotes_own_iff key).2 ?_⟩
  split
  · exact not_mem_of_chars hkey (by decide)
  · exact not_mem_of_chars hkey (by decide)

/-- A key with the mark of raw literals in it. -/
theorem denotes_tagValue_iff_marked : Text.Chars "a\x60b".toList ∧
    Denotes (tag "a\x60b").toList (utf8 (tagValue "a\x60b").toList) := by
  have hchars : Text.Chars "a\x60b".toList :=
    .unescaped (by decide) (.unescaped (by decide) (.unescaped (by decide) .nil))
  exact ⟨hchars, (denotes_tagValue_iff _).2.2 hchars⟩

/-- A key with a carriage return occurs in a document, and its tag is not what it is to be. -/
theorem not_denotes_carriageReturn :
    Generator.parse "\x7b\"a\rb\":1\x7d" Document.defaultMaxDepth =
        .ok (.object (.ofPairs [("a\rb", .primitive .integer)])) ∧
      ¬ Denotes (tag "a\rb").toList (utf8 (tagValue "a\rb").toList) := by
  constructor
  · have hbody : Token.IsBody "a\rb".toList :=
      .plain (by decide) (by decide) (.plain (by decide) (by decide)
        (.plain (by decide) (by decide) .nil))
    exact parse_member hbody (by decide)
  · rw [denotes_own_iff]
    decide

end Declaration

end JsonShape
