import JsonShape.Naming.Identifier
import JsonShape.Shape.Basic

/-!
# Distinct names

Names the fields of one struct so that no two have the same identifier. The names are given key by
key; a name depends on those given before it.
-/

namespace JsonShape

namespace Naming

/-- A name with a number behind it. -/
def numbered (name : String) (n : Int) : String := name ++ "_" ++ n.repr

/-- How often a number of 32 bits grows by one until it is zero. The greatest one is followed by the
least one. -/
def stepsToZero (n : Int32) : Nat := (-n.toInt % Int32.size).toNat

theorem stepsToZero_succ_lt {n : Int32} (h : n ≠ 0) : stepsToZero (n + 1) < stepsToZero n := by
  have hne : n.toInt ≠ 0 := fun heq => h (Int32.toInt_inj.1 heq)
  have hlow := n.le_toInt
  have hhigh := n.toInt_lt
  have hsize : (Int32.size : Int) = 2 ^ 32 := rfl
  have hsucc : (n + 1).toInt % 2 ^ 32 = (n.toInt + 1) % 2 ^ 32 := by
    rw [Int32.toInt_add, Int32.toInt_one]
    exact Int.bmod_emod
  rw [stepsToZero, stepsToZero, hsize]
  omega

/-- The first of `name_n`, `name_(n+1)`, … that is not taken. The numbers have 32 bits and go on
below zero after the greatest one; after zero they begin anew, so if all of them are taken the search
has no end. -/
def firstFree? (name : String) (n : Int32) (taken : List String) : Option String :=
  if numbered name n.toInt ∈ taken then
    if n = 0 then none else firstFree? name (n + 1) taken
  else some (numbered name n.toInt)
termination_by stepsToZero n
decreasing_by exact stepsToZero_succ_lt ‹_›

/-- What stands for the name where the search has no end. It is longer than all names that are
taken, and because of the dashes it is no identifier. -/
def unending (name : String) (taken : List String) : String :=
  name ++ "_" ++ String.ofList (List.replicate ((String.join taken).length + 1) '-')

/-- The identifier for a key where some names are taken: its own, or the first free one of those
with a number, from one on. -/
def claim (taken : List String) (key : String) : String :=
  if identifier key ∈ taken then
    (firstFree? (identifier key) 1 taken).getD (unending (identifier key) taken)
  else identifier key

/-- Fields for keys in order, none named like another or like a taken name. -/
def fieldsFrom {σ : Type} (taken : List String) : List (String × σ) → List (Field σ)
  | [] => []
  | (key, value) :: rest =>
    let ident := claim taken key
    ⟨ident, key, value⟩ :: fieldsFrom (taken ++ [ident]) rest

/-- The fields of one struct for its keys in order. -/
def fields {σ : Type} (entries : List (String × σ)) : List (Field σ) := fieldsFrom [] entries

/-- The names do not depend on what belongs to the keys. -/
theorem fieldsFrom_map {σ τ : Type} (f : σ → τ) (taken : List String)
    (entries : List (String × σ)) :
    fieldsFrom taken (entries.map fun (key, value) => (key, f value)) =
      (fieldsFrom taken entries).map (Field.map f) := by
  induction entries generalizing taken with
  | nil => rfl
  | cons e rest ih =>
    obtain ⟨key, value⟩ := e
    simp only [List.map_cons, fieldsFrom, ih, Field.map]

end Naming

end JsonShape
