import Mathlib.Data.List.Forall2
import JsonShape.Proofs.Document.Node

/-!
# Extensions of a document tree

Two trees where one says more than the other: it has further elements in its arrays and further
members in its objects, at any number of places and at any depth.

* `Node.Extends` — one tree is obtained from another by such insertions.
* `Node.Grows` — the same for the values of a group, among which others may be inserted too.
* `Grows.valuesAt` — objects that grow have growing values under each key.
* `Extends.ofPairs` — an object is extended by listing further members.
-/

namespace JsonShape

namespace Node

/-- One tree is obtained from another, which comes first, by inserting further elements into arrays
that are not empty, and further members, under new keys or under those that are there, into objects,
at any number of places and at any depth. -/
inductive Extends : Node → Node → Prop
  /-- A primitive value stays what it is. -/
  | primitive (type : Primitive) : Extends (.primitive type) (.primitive type)
  /-- The elements of an array are kept in their order, each of them may be extended, and others may
  stand between them, unless there are none. -/
  | array {xs ys : List Node} (kept : List.SublistForall₂ Extends xs ys)
      (filled : xs = [] → ys = []) : Extends (.array xs) (.array ys)
  /-- Under each key the values are kept in their order, each of them may be extended, and others
  may stand between them; a key without values gets any. -/
  | object {m n : Members Node}
      (kept : ∀ key, List.SublistForall₂ Extends (m.values key) (n.values key)) :
      Extends (.object m) (.object n)

/-- The values of a group are kept in their order, each of them may be extended, and others may
stand between them. -/
abbrev Grows : List Node → List Node → Prop := List.SublistForall₂ Extends

variable {a b : Node} {xs ys us vs : List Node}

theorem Extends.kind_eq (h : Extends a b) : a.kind = b.kind := by
  cases h <;> rfl

namespace Grows

theorem exists_of_mem (h : Grows xs ys) (ha : a ∈ xs) : ∃ b ∈ ys, Extends a b := by
  induction h with
  | nil => exact absurd ha List.not_mem_nil
  | cons head _ ih =>
    rcases List.mem_cons.1 ha with rfl | ha
    · exact ⟨_, List.mem_cons_self, head⟩
    · obtain ⟨b, hb, hab⟩ := ih ha
      exact ⟨b, List.mem_cons_of_mem _ hb, hab⟩
  | cons_right _ ih =>
    obtain ⟨b, hb, hab⟩ := ih ha
    exact ⟨b, List.mem_cons_of_mem _ hb, hab⟩

theorem length_le (h : Grows xs ys) : xs.length ≤ ys.length := by
  obtain ⟨kept, hkept, hsub⟩ := List.sublistForall₂_iff.1 h
  exact hkept.length_eq.trans_le hsub.length_le

/-- There is a value of each kind of which there was one. -/
theorem kind_mem (h : Grows xs ys) {k : Kind} (hk : k ∈ xs.map kind) : k ∈ ys.map kind := by
  obtain ⟨a, ha, rfl⟩ := List.mem_map.1 hk
  obtain ⟨b, hb, hab⟩ := h.exists_of_mem ha
  exact List.mem_map.2 ⟨b, hb, hab.kind_eq.symm⟩

theorem ne_nil (h : Grows xs ys) (hne : xs ≠ []) : ys ≠ [] := by
  obtain ⟨a, ha⟩ := List.exists_mem_of_ne_nil _ hne
  obtain ⟨b, hb, -⟩ := h.exists_of_mem ha
  exact List.ne_nil_of_mem hb

theorem append_left (h : Grows xs ys) (us : List Node) : Grows xs (us ++ ys) := by
  induction us with
  | nil => exact h
  | cons u us ih => exact .cons_right ih

theorem append (h : Grows xs ys) (h' : Grows us vs) : Grows (xs ++ us) (ys ++ vs) := by
  induction h with
  | @nil ys => exact h'.append_left ys
  | cons head _ ih => exact .cons head ih
  | cons_right _ ih => exact .cons_right ih

end Grows

/-! ## The values of objects that grow -/

theorem Extends.valuesAt (h : Extends a b) (key : String) :
    Grows (valuesAt [a] key) (valuesAt [b] key) := by
  cases h with
  | primitive type => exact .nil
  | array kept filled => exact .nil
  | object kept =>
    rw [valuesAt_object, valuesAt_object]
    exact kept key

/-- Objects that grow have growing values under each key. -/
theorem Grows.valuesAt (h : Grows xs ys) (key : String) :
    Grows (valuesAt xs key) (valuesAt ys key) := by
  induction h with
  | nil => exact .nil
  | @cons a b xs ys head _ ih =>
    have happend := (head.valuesAt key).append ih
    rwa [← valuesAt_append, ← valuesAt_append] at happend
  | @cons_right b xs ys _ ih =>
    have hleft := ih.append_left (Node.valuesAt [b] key)
    rwa [← valuesAt_append] at hleft

/-- An object whose members are listed is extended by listing others between them and extending
their values. -/
theorem Extends.ofPairs {pairs others : List (String × Node)}
    (h : List.SublistForall₂ (fun pair other => pair.1 = other.1 ∧ Extends pair.2 other.2)
      pairs others) : Extends (.object (.ofPairs pairs)) (.object (.ofPairs others)) := by
  refine .object fun key => ?_
  rw [Members.values_ofPairs, Members.values_ofPairs]
  induction h with
  | nil => exact .nil
  | @cons pair other pairs others head _ ih =>
    obtain ⟨hkey, hvalue⟩ := head
    unfold Members.valuesIn at ih ⊢
    rw [List.filterMap_cons, List.filterMap_cons, ← hkey]
    by_cases hk : pair.1 = key
    · simpa only [if_pos hk] using .cons hvalue ih
    · simpa only [if_neg hk] using ih
  | @cons_right other pairs others _ ih =>
    unfold Members.valuesIn at ih ⊢
    rw [List.filterMap_cons (a := other)]
    by_cases hk : other.1 = key
    · simpa only [if_pos hk] using .cons_right ih
    · simpa only [if_neg hk] using ih

end Node

end JsonShape
