/-!
# Members of an object

The members of a JSON object, where a key may occur more than once. Every value seen under a key is
kept, in the order in which it appeared; the keys are kept in code-point order.
-/

namespace JsonShape

/-- Keys in ascending order, each with all values seen under it, the first one first. -/
structure Members (α : Type) where
  /-- The keys with their values. -/
  entries : List (String × List α)
deriving Repr

namespace Members

variable {α : Type}

/-- No members. -/
def empty : Members α := ⟨[]⟩

instance : Inhabited (Members α) := ⟨empty⟩

/-- The number of distinct keys. -/
def size (m : Members α) : Nat := m.entries.length

/-- Whether there are no members. -/
def isEmpty (m : Members α) : Bool := m.entries.isEmpty

/-- The keys in ascending order. -/
def keys (m : Members α) : List String := m.entries.map Prod.fst

/-- All values seen under a key, if there are any. -/
def get? (m : Members α) (key : String) : Option (List α) := m.entries.lookup key

/-- Entries with further values under a key, which takes its place in the order if it is new. -/
def insertInto (key : String) (values : List α) : List (String × List α) → List (String × List α)
  | [] => [(key, values)]
  | (k, vs) :: rest =>
    if key = k then (k, vs ++ values) :: rest
    else if key < k then (key, values) :: (k, vs) :: rest
    else (k, vs) :: insertInto key values rest

/-- Adds values under a key, behind those that it has. -/
def append (m : Members α) (key : String) (values : List α) : Members α :=
  ⟨insertInto key values m.entries⟩

/-- Adds one value under a key, behind those that it has. -/
def push (m : Members α) (key : String) (value : α) : Members α := m.append key [value]

/-- Adds all members of another object. -/
def union (m other : Members α) : Members α :=
  other.entries.foldl (fun acc (key, values) => acc.append key values) m

/-- The members of several objects as those of one: object after object, key after key. -/
def merge (objects : List (Members α)) : Members α := objects.foldl union empty

/-- The members whose key has a value. -/
def inhabited (m : Members α) : Members α := ⟨m.entries.filter fun e => !e.2.isEmpty⟩

theorem mem_inhabited {m : Members α} {e : String × List α} :
    e ∈ m.inhabited.entries ↔ e ∈ m.entries ∧ e.2 ≠ [] := by
  simp [inhabited]

/-! ## Weight

Recursion into the values of merged objects ends because merging neither adds a value nor loses one.
To say so, values are weighed: `weight` is the weight of a list of values. -/

/-- The weight of all values of some entries. -/
def weigh (weight : List α → Nat) : List (String × List α) → Nat
  | [] => 0
  | (_, values) :: rest => weight values + weigh weight rest

/-- The weight of all values of some objects. -/
def weighAll (weight : List α → Nat) : List (Members α) → Nat
  | [] => 0
  | m :: rest => weigh weight m.entries + weighAll weight rest

section Weight

variable {weight : List α → Nat}

theorem weigh_insertInto (hadd : ∀ xs ys, weight (xs ++ ys) = weight xs + weight ys) (key : String)
    (values : List α) (entries : List (String × List α)) :
    weigh weight (insertInto key values entries) = weigh weight entries + weight values := by
  induction entries with
  | nil => simp [weigh, insertInto]
  | cons e rest ih =>
    obtain ⟨k, vs⟩ := e
    rw [insertInto]
    split
    · rw [weigh, weigh, hadd]
      omega
    · split
      · rw [weigh, weigh]
        omega
      · rw [weigh, weigh, ih]
        omega

theorem weigh_union (hadd : ∀ xs ys, weight (xs ++ ys) = weight xs + weight ys)
    (m other : Members α) :
    weigh weight (m.union other).entries =
      weigh weight m.entries + weigh weight other.entries := by
  obtain ⟨entries⟩ := other
  induction entries generalizing m with
  | nil => rfl
  | cons e rest ih =>
    have := ih (m.append e.1 e.2)
    simp only [union, List.foldl_cons] at this ⊢
    rw [this, append, weigh_insertInto hadd, weigh]
    omega

theorem weigh_merge (hadd : ∀ xs ys, weight (xs ++ ys) = weight xs + weight ys)
    (objects : List (Members α)) :
    weigh weight (merge objects).entries = weighAll weight objects := by
  suffices ∀ m : Members α, weigh weight (objects.foldl union m).entries =
      weigh weight m.entries + weighAll weight objects by
    simpa [merge, empty, weigh] using this empty
  induction objects with
  | nil => intro m; rfl
  | cons o rest ih =>
    intro m
    rw [List.foldl_cons, ih, weigh_union hadd, weighAll]
    omega

theorem weight_le_weigh (weight : List α → Nat) {entries : List (String × List α)} {key : String}
    {values : List α} (h : (key, values) ∈ entries) : weight values ≤ weigh weight entries := by
  induction entries with
  | nil => simp at h
  | cons e rest ih =>
    rw [weigh]
    rcases List.mem_cons.1 h with rfl | h
    · exact Nat.le_add_right _ _
    · exact Nat.le_trans (ih h) (Nat.le_add_left _ _)

end Weight

end Members

end JsonShape
