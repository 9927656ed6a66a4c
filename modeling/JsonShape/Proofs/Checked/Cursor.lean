import JsonShape.Proofs.Token.Tiling

/-!
# Checked access to a text

A text is a row of bytes to whoever reads it by offsets, and an offset may be out of range, or lie
inside a character.  Here each access to a text checks its offsets, each difference that it is none
below zero, and a check that fails gives nothing.

* `splitBytes?` — a text before and behind a byte; `splitBytes?_eq_some_iff`, `isSome_splitBytes?_iff`
  — at which bytes it can be split.
* `Cursor` — where a reader is in its text, and what moves it.
* `advance?_cons`, `runWhile?_run` — the moves of a cursor that stands where a text is split.
-/

namespace JsonShape

/-- The difference of two numbers, if the second is not the greater one. -/
def minus? (m n : Nat) : Option Nat := if n ≤ m then some (m - n) else none

theorem minus?_add (m n : Nat) : minus? (m + n) n = some m := by
  simp [minus?]

theorem minus?_add_left (m n : Nat) : minus? (m + n) m = some n := by
  simp [minus?]

namespace Token

/-! ## Bytes -/

/-- A text before byte `n` and from there on, if that is the first byte of a character or the end of
the text. -/
def splitBytes? : Nat → List Char → Option (List Char × List Char)
  | 0, cs => some ([], cs)
  | _ + 1, [] => none
  | n + 1, c :: cs =>
    if c.utf8Size ≤ n + 1 then
      (splitBytes? (n + 1 - c.utf8Size) cs).map fun (before, rest) => (c :: before, rest)
    else none

/-- The text from one byte up to another. -/
def slice? (start stop : Nat) (cs : List Char) : Option (List Char) := do
  let (_, rest) ← splitBytes? start cs
  let length ← minus? stop start
  let (text, _) ← splitBytes? length rest
  return text

variable {n : Nat} {json before part rest cs : List Char} {c : Char}

theorem splitBytes?_append (before rest : List Char) :
    splitBytes? (byteLength before) (before ++ rest) = some (before, rest) := by
  induction before with
  | nil => simp [byteLength, splitBytes?]
  | cons c before ih =>
    have hpos := c.utf8Size_pos
    obtain ⟨n, hn⟩ : ∃ n, byteLength (c :: before) = n + 1 :=
      ⟨c.utf8Size - 1 + byteLength before, by rw [byteLength]; omega⟩
    have hrest : n + 1 - c.utf8Size = byteLength before := by
      rw [byteLength] at hn
      omega
    rw [hn, List.cons_append, splitBytes?, if_pos (by rw [byteLength] at hn; omega), hrest, ih]
    rfl

/-- The bytes at which a text can be split are those between two characters. -/
theorem splitBytes?_eq_some_iff :
    splitBytes? n cs = some (before, rest) ↔ cs = before ++ rest ∧ n = byteLength before := by
  constructor
  · intro h
    fun_induction splitBytes? n cs generalizing before with
    | case1 cs =>
      simp at h
      obtain ⟨rfl, rfl⟩ := h
      simp [byteLength]
    | case2 => simp at h
    | case3 n c cs hsize ih =>
      obtain ⟨⟨own, after⟩, hsplit, heq⟩ := Option.map_eq_some_iff.1 h
      simp at heq
      obtain ⟨rfl, rfl⟩ := heq
      obtain ⟨rfl, hlength⟩ := ih hsplit
      simp [byteLength]
      omega
    | case4 => simp at h
  · rintro ⟨rfl, rfl⟩
    exact splitBytes?_append before rest

/-- They are the valid positions of the text. -/
theorem isSome_splitBytes?_iff (json : String) :
    (splitBytes? n json.toList).isSome ↔ String.Pos.Raw.IsValid json ⟨n⟩ := by
  rw [Option.isSome_iff_exists, String.Pos.Raw.isValid_iff_exists_append]
  constructor
  · rintro ⟨⟨before, rest⟩, h⟩
    obtain ⟨hjson, rfl⟩ := splitBytes?_eq_some_iff.1 h
    refine ⟨.ofList before, .ofList rest, ?_, ?_⟩
    · rw [← String.ofList_append, ← hjson, String.ofList_toList]
    · rw [byteLength_eq_utf8ByteSize]
      rfl
  · rintro ⟨before, rest, rfl, h⟩
    have hn : n = byteLength before.toList := by
      rw [byteLength_toList]
      exact congrArg String.Pos.Raw.byteIdx h
    exact ⟨(before.toList, rest.toList), splitBytes?_eq_some_iff.2 ⟨String.toList_append, hn⟩⟩

theorem slice?_append (before part rest : List Char) :
    slice? (byteLength before) (byteLength before + byteLength part) (before ++ (part ++ rest)) =
      some part := by
  simp [slice?, splitBytes?_append, minus?_add_left]

end Token

/-! ## Cursors -/

/-- Where a reader is in its text. -/
structure Cursor where
  /-- The offset of the first byte of the token that is being read. -/
  start : Nat
  /-- The offset of the next byte to be read. -/
  pos : Nat
  /-- The number of bytes by which the last character can be given back. -/
  width : Nat
  /-- Whether the last token has been given out. -/
  finished : Bool
deriving Repr, DecidableEq

namespace Cursor

open Token

/-- A cursor at the beginning of a text. -/
def atStart : Cursor := ⟨0, 0, 0, false⟩

/-- Takes the next character, if there is one. -/
def advance? (json : List Char) (k : Cursor) : Option (Option Char × Cursor) :=
  (splitBytes? k.pos json).map fun (_, rest) =>
    let width := (rest.head?.map Char.utf8Size).getD 0
    (rest.head?, { k with pos := k.pos + width, width := width })

/-- Gives the last character back. -/
def retreat? (k : Cursor) : Option Cursor :=
  (minus? k.pos k.width).map fun pos => { k with pos := pos, width := 0 }

/-- Begins a token. -/
def mark (k : Cursor) : Cursor := { k with start := k.pos }

/-- The token from the mark up to here. -/
def emit? (json : List Char) (kind : Kind) (k : Cursor) : Option Token :=
  (slice? k.start k.pos json).map fun text => ⟨kind, k.start, k.pos, .ofList text⟩

/-- The token for a fault, and nothing behind it. -/
def fail (cause : Fault) (offset : Nat) (k : Cursor) : Token × Cursor :=
  (atFault cause offset, { k with finished := true })

/-- The number of bytes behind a cursor, as far as the text goes. -/
def ahead (json : List Char) (k : Cursor) : Nat := byteLength json - k.pos

theorem ahead_lt_of_advance? {json : List Char} {k next : Cursor} {c : Char}
    (h : k.advance? json = some (some c, next)) : next.ahead json < k.ahead json := by
  obtain ⟨⟨before, rest⟩, hsplit, hnext⟩ := Option.map_eq_some_iff.1 h
  obtain ⟨rfl, hpos⟩ := splitBytes?_eq_some_iff.1 hsplit
  cases rest with
  | nil => simp at hnext
  | cons d cs =>
    simp at hnext
    obtain ⟨rfl, rfl⟩ := hnext
    have hsize := d.utf8Size_pos
    simp only [ahead, byteLength_append, byteLength]
    omega

/-- Takes the characters of a class, as long as there are any, and counts them. -/
def runWhile? (json : List Char) (accept : Char → Bool) (k : Cursor) : Option (Nat × Cursor) :=
  match h : k.advance? json with
  | none => none
  | some (none, next) => some (0, next)
  | some (some c, next) =>
    have : next.ahead json < k.ahead json := ahead_lt_of_advance? h
    if accept c then (runWhile? json accept next).map fun (n, last) => (n + 1, last)
    else next.retreat?.map fun last => (0, last)
termination_by k.ahead json

/-! ## Moves -/

variable {json before part rest cs : List Char} {c : Char} {k : Cursor}

/-- A cursor behind one more character. -/
def past (k : Cursor) (c : Char) : Cursor := { k with pos := k.pos + c.utf8Size, width := c.utf8Size }

/-- A cursor some bytes further on, with nothing to be given back. -/
def moved (k : Cursor) (n : Nat) : Cursor := { k with pos := k.pos + n, width := 0 }

@[simp] theorem past_start (k : Cursor) (c : Char) : (k.past c).start = k.start := rfl

@[simp] theorem past_pos (k : Cursor) (c : Char) : (k.past c).pos = k.pos + c.utf8Size := rfl

@[simp] theorem past_finished (k : Cursor) (c : Char) : (k.past c).finished = k.finished := rfl

@[simp] theorem moved_start (k : Cursor) (n : Nat) : (k.moved n).start = k.start := rfl

@[simp] theorem moved_pos (k : Cursor) (n : Nat) : (k.moved n).pos = k.pos + n := rfl

@[simp] theorem moved_finished (k : Cursor) (n : Nat) : (k.moved n).finished = k.finished := rfl

@[simp] theorem mark_start (k : Cursor) : k.mark.start = k.pos := rfl

@[simp] theorem mark_pos (k : Cursor) : k.mark.pos = k.pos := rfl

@[simp] theorem mark_finished (k : Cursor) : k.mark.finished = k.finished := rfl

/-- A cursor that stands between two parts of a text has the second one ahead. -/
structure Splits (k : Cursor) (json before rest : List Char) : Prop where
  /-- The text has the two parts. -/
  text : json = before ++ rest
  /-- The offset is that of the first byte of the second part. -/
  pos : k.pos = byteLength before

theorem Splits.past (h : k.Splits json before (c :: cs)) :
    (k.past c).Splits json (before ++ [c]) cs := by
  constructor
  · simp [h.text]
  · simp [Cursor.past, h.pos, byteLength_append, byteLength]

theorem Splits.moved (h : k.Splits json before (part ++ rest)) :
    (k.moved (byteLength part)).Splits json (before ++ part) rest := by
  constructor
  · simp [h.text]
  · simp [Cursor.moved, h.pos, byteLength_append]

/-- Nothing but the width changes where a cursor moves by no bytes. -/
theorem Splits.moved_zero (h : k.Splits json before rest) :
    (k.moved 0).Splits json before rest := ⟨h.text, h.pos⟩

theorem Splits.mark (h : k.Splits json before rest) : k.mark.Splits json before rest :=
  ⟨h.text, h.pos⟩

theorem Splits.splitBytes? (h : k.Splits json before rest) :
    Token.splitBytes? k.pos json = some (before, rest) :=
  splitBytes?_eq_some_iff.2 ⟨h.text, h.pos⟩

/-- What a cursor has ahead is the second part of the text. -/
theorem Splits.ahead (h : k.Splits json before rest) : k.ahead json = byteLength rest := by
  rw [Cursor.ahead, h.text, h.pos, byteLength_append, Nat.add_sub_cancel_left]

theorem advance?_nil (h : k.Splits json before []) :
    k.advance? json = some (none, k.moved 0) := by
  simp [advance?, h.splitBytes?, Cursor.moved]

theorem advance?_cons (h : k.Splits json before (c :: cs)) :
    k.advance? json = some (some c, k.past c) := by
  simp [advance?, h.splitBytes?, Cursor.past]

/-- A character can be given back once it has been taken. -/
theorem retreat?_past (k : Cursor) (c : Char) : (k.past c).retreat? = some (k.moved 0) := by
  simp [retreat?, Cursor.past, Cursor.moved, minus?_add]

theorem runWhile?_of_none {accept : Char → Bool} {next : Cursor}
    (h : k.advance? json = some (none, next)) : k.runWhile? json accept = some (0, next) := by
  rw [runWhile?]
  split <;> simp_all

theorem runWhile?_of_some {accept : Char → Bool} {next : Cursor}
    (h : k.advance? json = some (some c, next)) : k.runWhile? json accept =
      if accept c then (next.runWhile? json accept).map fun (n, last) => (n + 1, last)
      else next.retreat?.map fun last => (0, last) := by
  rw [runWhile?]
  split <;> simp_all

/-- A cursor takes the longest run of characters of a class. -/
theorem runWhile?_run {accept : Char → Bool} {run : List Char} (hrun : ∀ c ∈ run, accept c = true)
    (hstops : Stops accept rest) (h : k.Splits json before (run ++ rest)) :
    k.runWhile? json accept = some (run.length, k.moved (byteLength run)) := by
  induction run generalizing k before with
  | nil =>
    cases rest with
    | nil => exact runWhile?_of_none (advance?_nil h)
    | cons c cs =>
      have hc : accept c = false := hstops c rfl
      rw [runWhile?_of_some (advance?_cons h)]
      simp [hc, retreat?_past, byteLength]
  | cons c run ih =>
    obtain ⟨hc, hrun⟩ := List.forall_mem_cons.1 hrun
    rw [runWhile?_of_some (advance?_cons h), if_pos hc, ih hrun h.past]
    simp [Cursor.moved, Cursor.past, byteLength, Nat.add_assoc]

/-- What stands from the mark up to the cursor is the text of a token. -/
theorem emit?_eq (hstart : k.start = byteLength before) (h : k.Splits json (before ++ part) rest)
    (kind : Kind) : k.emit? json kind = some ⟨kind, k.start, k.pos, .ofList part⟩ := by
  have hjson : json = before ++ (part ++ rest) := by
    rw [h.text, List.append_assoc]
  have hslice : slice? k.start k.pos json = some part := by
    rw [hstart, h.pos, byteLength_append, hjson, slice?_append]
  simp [emit?, hslice]

end Cursor

end JsonShape
