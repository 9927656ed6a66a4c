import JsonShape.Proofs.Token.Scanning

/-!
# Tokens tile their text

The spans of the tokens of a text, each with the quotes of a string, lie side by side in it, and
nothing but blanks stands around them.  So the text can be put together again from its tokens and
the blanks.

* `pulls` — the tokens of a text, asked for one at a time.
* `Scan.exists_spelling`, `Scan.last_cases` — where a token of a layout stands in the text.
* `Scan.ordered`, `Scan.blank_bytes`, `Scan.rebuilt` — how the tokens of a layout lie to each other.
* `tokens_tile` — all of it, for the tokens of a text.
-/

namespace JsonShape

namespace Token

/-! ## Tokens one at a time -/

/-- Asked for a token, a reader gives out the next one and keeps what is left to be read: the offset
and the text from there on, or nothing once the last token has been given out. -/
def next : Option (Nat × List Char) → Option Token × Option (Nat × List Char)
  | none => (none, none)
  | some (offset, cs) =>
    let start := offset + byteLength (cs.takeWhile isBlank)
    match cs.dropWhile isBlank with
    | [] => (some (atEnd start), none)
    | c :: rest =>
      match readLexeme c rest with
      | .error failure => (some (atFault failure.cause (start + byteLength failure.read)), none)
      | .ok l => (some (l.token start), some (l.stopFrom start, l.rest))

/-- What a reader answers when it is asked once more after `n` times. -/
def pulls (left : Option (Nat × List Char)) : Nat → Option Token
  | 0 => (next left).1
  | n + 1 => pulls (next left).2 n

theorem pulls_none (n : Nat) : pulls none n = none := by
  induction n with
  | zero => rfl
  | succ n ih => exact ih

/-- A reader gives out the tokens of its text one after the other, and then no more. -/
theorem pulls_some (offset : Nat) (cs : List Char) (n : Nat) :
    pulls (some (offset, cs)) n = (tokensFrom offset cs)[n]? := by
  induction n generalizing offset cs with
  | zero =>
    rw [pulls, next]
    cases hcs : cs.dropWhile isBlank with
    | nil => rw [tokensFrom_nil hcs]; rfl
    | cons c rest =>
      cases hread : readLexeme c rest with
      | error failure => rw [tokensFrom_error hcs hread]; simp [hread]
      | ok l => rw [tokensFrom_ok hcs hread]; simp [hread]
  | succ n ih =>
    rw [pulls, next]
    cases hcs : cs.dropWhile isBlank with
    | nil => rw [tokensFrom_nil hcs, pulls_none]; rfl
    | cons c rest =>
      cases hread : readLexeme c rest with
      | error failure => rw [tokensFrom_error hcs hread]; simp [hread, pulls_none]
      | ok l => rw [tokensFrom_ok hcs hread]; simp [hread, ih]

/-! ## Where a token stands -/

/-- Whether a token is the last one of its text. -/
def IsLast (t : Token) : Prop := t.kind = .endOfInput ∨ ∃ cause, t.kind = .fault cause

/-- The offset of the first byte of a token, the opening quote of a string included. -/
def outerStart (t : Token) : Nat := t.start - t.kind.margin

/-- The offset behind the last byte of a token, the closing quote of a string included. -/
def outerStop (t : Token) : Nat := t.stop + t.kind.margin

/-- How a token stands in its text: its own text, and the quotes of a string around it. -/
def written (t : Token) : String :=
  match t.kind with
  | .string => "\"" ++ t.text ++ "\""
  | _ => t.text

theorem outerStart_token (l : Lexeme) (start : Nat) : (l.token start).outerStart = start :=
  Nat.add_sub_cancel _ _

theorem outerStop_token {kind : Kind} {text whole rest : List Char} (h : Spelling kind text whole)
    (start : Nat) :
    ((⟨kind, text, rest⟩ : Lexeme).token start).outerStop = start + byteLength whole := by
  rw [h.byteLength_eq]
  simp only [outerStop, Lexeme.token]
  omega

theorem written_token {kind : Kind} {text whole rest : List Char} (h : Spelling kind text whole)
    (start : Nat) : ((⟨kind, text, rest⟩ : Lexeme).token start).written = .ofList whole := by
  cases h with
  | punctuation h =>
    have hkind := (kind_of_ofPunctuation? h).1
    cases kind <;> first | rfl | exact absurd rfl hkind
  | word word => cases word <;> rfl
  | string h =>
    show "\"" ++ String.ofList text ++ "\"" = String.ofList ('"' :: (text ++ ['"']))
    rw [String.ofList_cons, String.ofList_append]
    rfl
  | integer => rfl
  | float => rfl

theorem not_isLast_token {kind : Kind} {text whole rest : List Char} (h : Spelling kind text whole)
    (start : Nat) : ¬ ((⟨kind, text, rest⟩ : Lexeme).token start).IsLast := by
  show ¬ (kind = .endOfInput ∨ ∃ cause, kind = .fault cause)
  cases h with
  | punctuation h =>
    unfold Kind.ofPunctuation? at h
    split_ifs at h <;> cases h <;> simp
  | word word => cases word <;> simp [Kind.ofKeyword]
  | string | integer | float => simp

/-- A part of a text stands at the bytes from `start` up to `stop`. -/
def StandsAt (json part : String) (start stop : Nat) : Prop :=
  ∃ before after, json = before ++ part ++ after ∧ start = before.utf8ByteSize ∧
    stop = (before ++ part).utf8ByteSize

/-- The bytes of a text are counted as those of a string are. -/
theorem byteLength_eq_utf8ByteSize (cs : List Char) :
    byteLength cs = (String.ofList cs).utf8ByteSize := by
  induction cs with
  | nil => rfl
  | cons c cs ih =>
    rw [byteLength, ih, String.ofList_cons, String.utf8ByteSize_append,
      String.utf8ByteSize_singleton]

theorem byteLength_toList (s : String) : byteLength s.toList = s.utf8ByteSize := by
  rw [byteLength_eq_utf8ByteSize, String.ofList_toList]

theorem standsAt_of_append {json : String} {before part after : List Char}
    (h : json.toList = before ++ (part ++ after)) :
    StandsAt json (.ofList part) (byteLength before) (byteLength before + byteLength part) := by
  refine ⟨.ofList before, .ofList after, ?_, byteLength_eq_utf8ByteSize before, ?_⟩
  · rw [← String.ofList_append, ← String.ofList_append, List.append_assoc, ← h,
      String.ofList_toList]
  · rw [String.utf8ByteSize_append, byteLength_eq_utf8ByteSize, byteLength_eq_utf8ByteSize]

namespace StandsAt

variable {json part : String} {start stop : Nat}

theorem le (h : StandsAt json part start stop) : start ≤ stop ∧ stop ≤ json.utf8ByteSize := by
  obtain ⟨before, after, rfl, rfl, rfl⟩ := h
  simp only [String.utf8ByteSize_append]
  omega

/-- A part of a text begins and ends between two characters. -/
theorem isValid (h : StandsAt json part start stop) :
    String.Pos.Raw.IsValid json ⟨start⟩ ∧ String.Pos.Raw.IsValid json ⟨stop⟩ := by
  obtain ⟨before, after, rfl, rfl, rfl⟩ := h
  constructor
  · exact String.Pos.Raw.isValid_iff_exists_append.2
      ⟨before, part ++ after, String.append_assoc .., rfl⟩
  · exact String.Pos.Raw.isValid_iff_exists_append.2 ⟨before ++ part, after, rfl, rfl⟩

end StandsAt

/-! ## The tokens of a layout -/

namespace Scan

variable {offset edge : Nat} {cs : List Char} {front : List Token} {last t : Token}

/-- A token of a layout has a spelling in the text, which the text behind it does not extend. -/
theorem exists_spelling (h : Scan offset cs front edge last) (ht : t ∈ front) :
    ∃ before whole after kind text, cs = before ++ (whole ++ after) ∧ Spelling kind text whole ∧
      kind.EndsAt after ∧
        t = (⟨kind, text, after⟩ : Lexeme).token (offset + byteLength before) := by
  induction h with
  | finish | stop => exact absurd ht List.not_mem_nil
  | @token offset edge blank text whole rest kind front last hblank hspelling hends hrest ih =>
    rcases List.mem_cons.1 ht with rfl | ht
    · exact ⟨blank, whole, rest, kind, text, rfl, hspelling, hends, rfl⟩
    · obtain ⟨before, own, after, kind, text, rfl, hown, hends, rfl⟩ := ih ht
      refine ⟨blank ++ (whole ++ before), own, after, kind, text, ?_, hown, hends, ?_⟩
      · simp only [List.append_assoc]
      · simp only [byteLength_append, Nat.add_assoc]

/-- A layout ends with the text, or with a broken lexeme. -/
theorem last_cases (h : Scan offset cs front edge last) :
    (edge = offset + byteLength cs ∧ last = atEnd edge) ∨
      ∃ before read rest cause, cs = before ++ (read ++ rest) ∧ Stops isBlank (read ++ rest) ∧
        Broken cause read rest ∧ edge = offset + byteLength before ∧
          last = atFault cause (edge + byteLength read) := by
  induction h with
  | finish => exact Or.inl ⟨rfl, rfl⟩
  | @stop offset blank read rest cause hblank hstart hbroken =>
    exact Or.inr ⟨blank, read, rest, cause, rfl, hstart, hbroken, rfl, rfl⟩
  | @token offset edge blank text whole rest kind front last hblank hspelling hends hrest ih =>
    rcases ih with ⟨hedge, hlast⟩ |
      ⟨before, read, behind, cause, rfl, hstart, hbroken, hedge, hlast⟩
    · refine Or.inl ⟨?_, hlast⟩
      simp only [hedge, byteLength_append, Nat.add_assoc]
    · refine Or.inr
        ⟨blank ++ (whole ++ before), read, behind, cause, ?_, hstart, hbroken, ?_, hlast⟩
      · simp only [List.append_assoc]
      · simp only [hedge, byteLength_append, Nat.add_assoc]

/-- The tokens of a layout lie between its beginning and its edge, one behind the other. -/
theorem ordered (h : Scan offset cs front edge last) :
    offset ≤ edge ∧ (∀ t ∈ front, offset ≤ t.outerStart ∧ t.outerStop ≤ edge) ∧
      front.Pairwise fun t u => t.outerStop ≤ u.outerStart := by
  induction h with
  | finish => exact ⟨Nat.le_add_right _ _, by simp, List.Pairwise.nil⟩
  | stop => exact ⟨Nat.le_add_right _ _, by simp, List.Pairwise.nil⟩
  | @token offset edge blank text whole rest kind front last hblank hspelling hends hrest ih =>
    obtain ⟨hedge, hfront, hpairs⟩ := ih
    refine ⟨by omega, List.forall_mem_cons.2 ⟨?_, fun u hu => ?_⟩,
      List.pairwise_cons.2 ⟨?_, hpairs⟩⟩
    · rw [outerStart_token, outerStop_token hspelling]
      omega
    · have := hfront u hu
      omega
    · intro u hu
      rw [outerStop_token hspelling]
      exact (hfront u hu).1

end Scan

/-! ## What stands around the tokens -/

/-- The bytes of the four blanks. -/
def IsBlankByte (b : UInt8) : Prop := b = 0x20 ∨ b = 0x09 ∨ b = 0x0A ∨ b = 0x0D

/-- A blank is a single byte. -/
theorem utf8EncodeChar_blank {c : Char} (h : isBlank c = true) :
    ∃ b, String.utf8EncodeChar c = [b] ∧ IsBlankByte b := by
  rw [isBlank, Bool.or_eq_true, Bool.or_eq_true, Bool.or_eq_true] at h
  simp only [decide_eq_true_iff] at h
  rcases h with ((rfl | rfl) | rfl) | rfl
  · exact ⟨0x20, rfl, Or.inl rfl⟩
  · exact ⟨0x09, rfl, Or.inr (Or.inl rfl)⟩
  · exact ⟨0x0A, rfl, Or.inr (Or.inr (Or.inl rfl))⟩
  · exact ⟨0x0D, rfl, Or.inr (Or.inr (Or.inr rfl))⟩

theorem isBlankByte_of_getElem? {blank : List Char} (h : ∀ c ∈ blank, isBlank c = true) {i : Nat}
    {b : UInt8} (hb : (blank.flatMap String.utf8EncodeChar)[i]? = some b) : IsBlankByte b := by
  obtain ⟨c, hc, hmem⟩ := List.mem_flatMap.1 (List.mem_of_getElem? hb)
  obtain ⟨d, hd, hblank⟩ := utf8EncodeChar_blank (h c hc)
  rw [hd] at hmem
  rwa [List.mem_singleton.1 hmem]

theorem length_bytes (cs : List Char) :
    (cs.flatMap String.utf8EncodeChar).length = byteLength cs := by
  induction cs with
  | nil => rfl
  | cons c cs ih =>
    rw [List.flatMap_cons, List.length_append, ih, String.length_utf8EncodeChar, byteLength]

theorem getElem?_bytes (json : String) {i : Nat} (hi : i < json.toByteArray.size) :
    (json.toList.flatMap String.utf8EncodeChar)[i]? = some json.toByteArray[i] := by
  have hbytes : json.toByteArray.data = (json.toList.flatMap String.utf8EncodeChar).toArray := by
    have hencode : json.toByteArray = json.toList.utf8Encode := by
      rw [← String.toByteArray_ofList, String.ofList_toList]
    rw [hencode, List.utf8Encode, List.data_toByteArray]
  rw [← List.getElem?_toArray, ← hbytes]
  exact Array.getElem?_eq_getElem hi

namespace Scan

variable {offset edge : Nat} {cs : List Char} {front : List Token} {last : Token}

/-- Outside of the tokens a layout has only blanks, up to its edge. -/
theorem blank_bytes (h : Scan offset cs front edge last) {i : Nat} {b : UInt8}
    (hb : (cs.flatMap String.utf8EncodeChar)[i]? = some b) (hedge : offset + i < edge)
    (hout : ∀ t ∈ front, offset + i < t.outerStart ∨ t.outerStop ≤ offset + i) :
    IsBlankByte b := by
  induction h generalizing i with
  | finish hblank => exact isBlankByte_of_getElem? hblank hb
  | @stop offset blank read rest cause hblank hstart hbroken =>
    have hi : i < (blank.flatMap String.utf8EncodeChar).length := by
      rw [length_bytes]
      omega
    rw [List.flatMap_append, List.getElem?_append_left hi] at hb
    exact isBlankByte_of_getElem? hblank hb
  | @token offset edge blank text whole rest kind front last hblank hspelling hends hrest ih =>
    obtain ⟨hfirst, hothers⟩ := List.forall_mem_cons.1 hout
    rw [outerStart_token, outerStop_token hspelling] at hfirst
    by_cases hi : i < (blank.flatMap String.utf8EncodeChar).length
    · rw [List.flatMap_append, List.getElem?_append_left hi] at hb
      exact isBlankByte_of_getElem? hblank hb
    · -- The byte lies behind the blanks and outside of the first token, hence behind it.
      rw [length_bytes] at hi
      have hbehind : byteLength blank + byteLength whole ≤ i := by omega
      have hshift : offset + byteLength blank + byteLength whole +
          (i - (byteLength blank + byteLength whole)) = offset + i := by omega
      rw [← List.append_assoc, List.flatMap_append, List.getElem?_append_right, length_bytes,
        byteLength_append] at hb
      · refine ih hb (by rw [hshift]; exact hedge) ?_
        rw [hshift]
        exact hothers
      · rw [length_bytes, byteLength_append]
        exact hbehind

/-- A layout is put together again from its tokens and the blanks before them, up to its edge. -/
theorem rebuilt (h : Scan offset cs front edge last) :
    ∃ (blanks : List String) (closing rest : String), blanks.length = front.length ∧
      (∀ blank ∈ closing :: blanks, ∀ c ∈ blank.toList, isBlank c = true) ∧
        .ofList cs = String.join (List.zipWith (fun blank t => blank ++ t.written) blanks front) ++
          closing ++ rest ∧
          edge = offset +
            (String.join (List.zipWith (fun blank t => blank ++ t.written) blanks front) ++
              closing).utf8ByteSize := by
  induction h with
  | @finish offset blank hblank =>
    refine ⟨[], .ofList blank, "", rfl, ?_, ?_, ?_⟩
    · simpa using hblank
    · simp
    · simp [byteLength_eq_utf8ByteSize]
  | @stop offset blank read rest cause hblank hstart hbroken =>
    refine ⟨[], .ofList blank, .ofList (read ++ rest), rfl, ?_, ?_, ?_⟩
    · simpa using hblank
    · simp
    · simp [byteLength_eq_utf8ByteSize]
  | @token offset edge blank text whole rest kind front last hblank hspelling hends hrest ih =>
    obtain ⟨blanks, closing, behind, hlength, hblanks, heq, hedge⟩ := ih
    obtain ⟨hclosing, hblanks⟩ := List.forall_mem_cons.1 hblanks
    refine ⟨.ofList blank :: blanks, closing, behind, by simp [hlength], ?_, ?_, ?_⟩
    · refine List.forall_mem_cons.2 ⟨hclosing, List.forall_mem_cons.2 ⟨?_, hblanks⟩⟩
      simpa using hblank
    · rw [List.zipWith_cons_cons, String.join_cons, written_token hspelling, String.ofList_append,
        String.ofList_append, heq]
      simp only [String.append_assoc]
    · rw [List.zipWith_cons_cons, String.join_cons, written_token hspelling, hedge]
      simp only [String.utf8ByteSize_append, byteLength_eq_utf8ByteSize]
      omega

end Scan

/-! ## The tokens of a text -/

/-- How the tokens of a text lie in it: those before the last one, the byte up to which they and
blanks make up the text, and the last one. -/
structure Tiling (json : String) (front : List Token) (edge : Nat) (last : Token) : Prop where
  /-- No token before the last one is the end of input or a fault. -/
  inner : ∀ t ∈ front, ¬ t.IsLast
  /-- The last one is. -/
  isLast : last.IsLast
  /-- Spans lie in the text. -/
  bounded : ∀ t ∈ front ++ [last], t.start ≤ t.stop ∧ t.stop ≤ json.utf8ByteSize
  /-- Spans begin and end between two characters. -/
  boundary : ∀ t ∈ front ++ [last],
    String.Pos.Raw.IsValid json ⟨t.start⟩ ∧ String.Pos.Raw.IsValid json ⟨t.stop⟩
  /-- The text of a token is what its span covers; that of an end or a fault is empty. -/
  slice : ∀ t ∈ front ++ [last], StandsAt json t.text t.start t.stop
  /-- The quotes of a string stand on either side of its span. -/
  outer : ∀ t ∈ front, StandsAt json t.written t.outerStart t.outerStop
  /-- Tokens cover something, their quotes included. -/
  filled : ∀ t ∈ front, t.outerStart < t.outerStop
  /-- They stand in order, and none reaches into another. -/
  ordered : front.Pairwise fun t u => t.outerStop ≤ u.outerStart
  /-- They stand before the edge. -/
  within : ∀ t ∈ front, t.outerStop ≤ edge
  /-- Every byte before the edge that no token covers is a blank. -/
  blank : ∀ (i : Nat) (hi : i < json.toByteArray.size), i < edge →
    (∀ t ∈ front, i < t.outerStart ∨ t.outerStop ≤ i) → IsBlankByte json.toByteArray[i]
  /-- The end of input lies at the edge, behind the whole text. -/
  ended : last.kind = .endOfInput → last = atEnd json.utf8ByteSize ∧ edge = json.utf8ByteSize
  /-- A fault lies at or behind the edge, where a character stands that is no blank: there the
  lexeme begins that cannot be read. -/
  failed : ∀ cause, last.kind = .fault cause → last = atFault cause last.start ∧ edge ≤ last.start ∧
    ∃ c, isBlank c = false ∧ StandsAt json (.singleton c) edge (edge + c.utf8Size)
  /-- The text up to the edge is what its tokens and the blanks around them are, written one behind
  the other. -/
  rebuilt : ∃ (blanks : List String) (closing rest : String), blanks.length = front.length ∧
    (∀ blank ∈ closing :: blanks, ∀ c ∈ blank.toList, isBlank c = true) ∧
      json = String.join (List.zipWith (fun blank t => blank ++ t.written) blanks front) ++
        closing ++ rest ∧
        edge = (String.join (List.zipWith (fun blank t => blank ++ t.written) blanks front) ++
          closing).utf8ByteSize

theorem Broken.append_ne_nil {cause : Fault} {read rest : List Char} (h : Broken cause read rest) :
    read ++ rest ≠ [] := by
  cases h with
  | signs hsigns hne => exact List.append_ne_nil_of_left_ne_nil hne _
  | cut hword hshared => exact List.append_ne_nil_of_left_ne_nil hshared _
  | wrong hword hshared => exact List.append_ne_nil_of_left_ne_nil hshared _
  | string => exact List.cons_ne_nil _ _
  | character => exact List.cons_ne_nil _ _

/-- The text of a token stands in its spelling, between the quotes of a string. -/
theorem Spelling.exists_text {kind : Kind} {text whole : List Char} (h : Spelling kind text whole) :
    ∃ left right, whole = left ++ (text ++ right) ∧ byteLength left = kind.margin := by
  cases h with
  | punctuation h =>
    have hkind := (kind_of_ofPunctuation? h).1
    exact ⟨[], [], rfl, by cases kind <;> first | rfl | exact absurd rfl hkind⟩
  | word word => exact ⟨[], [], (List.append_nil _).symm, by cases word <;> rfl⟩
  | string h => exact ⟨['"'], ['"'], rfl, rfl⟩
  | integer => exact ⟨[], [], (List.append_nil _).symm, rfl⟩
  | float => exact ⟨[], [], (List.append_nil _).symm, rfl⟩

namespace Scan

variable {json : String} {front : List Token} {edge : Nat} {last t : Token}

/-- A token stands in its text, alone and with its quotes. -/
theorem standsAt (h : Scan 0 json.toList front edge last) (ht : t ∈ front) :
    StandsAt json t.text t.start t.stop ∧ StandsAt json t.written t.outerStart t.outerStop ∧
      t.outerStart < t.outerStop ∧ ¬ t.IsLast := by
  obtain ⟨before, whole, after, kind, text, hsplit, hspelling, -, rfl⟩ := h.exists_spelling ht
  rw [Nat.zero_add, written_token hspelling, outerStart_token, outerStop_token hspelling]
  refine ⟨?_, standsAt_of_append hsplit, ?_, not_isLast_token hspelling _⟩
  · obtain ⟨left, right, rfl, hleft⟩ := hspelling.exists_text
    have hinner : json.toList = (before ++ left) ++ (text ++ (right ++ after)) := by
      rw [hsplit]
      simp only [List.append_assoc]
    have hstands := standsAt_of_append hinner
    rwa [byteLength_append, hleft] at hstands
  · obtain ⟨c, cs, rfl, -⟩ := hspelling.exists_cons
    have := c.utf8Size_pos
    rw [byteLength]
    omega

/-- The last token of a layout has no text, at the end or at the fault. -/
theorem standsAt_last (h : Scan 0 json.toList front edge last) :
    StandsAt json last.text last.start last.stop := by
  rcases h.last_cases with ⟨rfl, rfl⟩ | ⟨before, read, rest, cause, hsplit, -, -, rfl, rfl⟩
  · have hend : json.toList = json.toList ++ ([] ++ []) := by simp
    have hstands := standsAt_of_append hend
    rwa [← Nat.zero_add (byteLength json.toList)] at hstands
  · have hplace : json.toList = (before ++ read) ++ ([] ++ rest) := by
      rw [hsplit]
      simp only [List.append_assoc, List.nil_append]
    have hstands := standsAt_of_append hplace
    rwa [byteLength_append, ← Nat.zero_add (byteLength before)] at hstands

/-- The tokens of a layout tile their text. -/
theorem tiling (h : Scan 0 json.toList front edge last) : Tiling json front edge last := by
  have hslice : ∀ t ∈ front ++ [last], StandsAt json t.text t.start t.stop := by
    intro t ht
    rcases List.mem_append.1 ht with ht | ht
    · exact (h.standsAt ht).1
    · rw [List.mem_singleton.1 ht]
      exact h.standsAt_last
  obtain ⟨-, hfront, hpairs⟩ := h.ordered
  refine ⟨fun t ht => (h.standsAt ht).2.2.2, ?_, fun t ht => (hslice t ht).le,
    fun t ht => (hslice t ht).isValid, hslice, fun t ht => (h.standsAt ht).2.1,
    fun t ht => (h.standsAt ht).2.2.1, hpairs, fun t ht => (hfront t ht).2, ?_, ?_, ?_, ?_⟩
  · rcases h.last_cases with ⟨-, rfl⟩ | ⟨before, read, rest, cause, -, -, -, -, rfl⟩
    · exact Or.inl rfl
    · exact Or.inr ⟨cause, rfl⟩
  · intro i hi hedge hout
    refine h.blank_bytes (getElem?_bytes json hi) (by omega) ?_
    rwa [Nat.zero_add]
  · intro hkind
    rcases h.last_cases with ⟨rfl, rfl⟩ | ⟨before, read, rest, cause, -, -, -, -, rfl⟩
    · rw [Nat.zero_add, byteLength_toList]
      exact ⟨rfl, rfl⟩
    · cases hkind
  · intro cause hkind
    rcases h.last_cases with ⟨rfl, rfl⟩ |
      ⟨before, read, rest, own, hsplit, hstart, hbroken, rfl, rfl⟩
    · cases hkind
    · cases hkind
      obtain ⟨c, others, hcons⟩ := List.exists_cons_of_ne_nil hbroken.append_ne_nil
      rw [hcons] at hsplit hstart
      refine ⟨rfl, Nat.le_add_right _ _, c, hstart c rfl, ?_⟩
      have hplace : json.toList = before ++ ([c] ++ others) := hsplit
      have hstands := standsAt_of_append hplace
      rw [← String.singleton_eq_ofList] at hstands
      rwa [Nat.zero_add]
  · obtain ⟨blanks, closing, rest, hlength, hblanks, heq, hedge⟩ := h.rebuilt
    rw [String.ofList_toList] at heq
    rw [Nat.zero_add] at hedge
    exact ⟨blanks, closing, rest, hlength, hblanks, heq, hedge⟩

end Scan

/-- Asked for the tokens of a text, a reader gives them out one after the other, and then nothing
any more.  They tile the text: the last token, and no other, is the end of input or a fault; each
covers, between characters, the part of the text that is its own; and together with blanks around
them they make up the text, to its end or to the lexeme that cannot be read. -/
theorem tokens_tile (json : String) :
    ∃ front edge last, (∀ n, pulls (some (0, json.toList)) n = (front ++ [last])[n]?) ∧
      tokens json = front ++ [last] ∧ Tiling json front edge last := by
  obtain ⟨front, edge, last, htokens, hscan⟩ := exists_scan 0 json.toList
  refine ⟨front, edge, last, ?_, htokens, hscan.tiling⟩
  intro n
  rw [pulls_some, htokens]

end Token

end JsonShape
