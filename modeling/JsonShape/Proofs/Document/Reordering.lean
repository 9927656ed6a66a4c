import JsonShape.Proofs.Document.Node

/-!
# Reorderings of a document tree

Two trees that hold the same values in other orders: the elements of arrays and the values under the
keys of objects may be permuted, at any number of places and at any depth.

* `Node.Reordering` — one tree is obtained from another by such permutations.
* `Node.Regrouped` — the same for the values of a group, which may be permuted themselves.
* `Reordering.alike` — what a reordering does to a node: it keeps the kind and the keys, and regroups
  the elements and the values under each key; `Reordering.of_alike` is the converse.
* `Regrouped.valuesAt` — objects that are regrouped have regrouped values under each key.
-/

namespace JsonShape

namespace Node

/-- One tree is obtained from another by permuting the elements of arrays and the values under keys,
at any number of places and at any depth. -/
inductive Reordering : Node → Node → Prop
  /-- No permutation. -/
  | refl (node : Node) : Reordering node node
  /-- Permutations at one place after permutations at another. -/
  | trans {a b c : Node} (first : Reordering a b) (second : Reordering b c) : Reordering a c
  /-- A permutation of the elements of an array. -/
  | elements {xs ys : List Node} (perm : xs.Perm ys) : Reordering (.array xs) (.array ys)
  /-- A permutation of the values under a key of an object. -/
  | values {before after : List (String × List Node)} {key : String} {xs ys : List Node}
      (perm : xs.Perm ys) :
      Reordering (.object ⟨before ++ (key, xs) :: after⟩) (.object ⟨before ++ (key, ys) :: after⟩)
  /-- A reordering inside an element of an array. -/
  | element {before after : List Node} {a b : Node} (inner : Reordering a b) :
      Reordering (.array (before ++ a :: after)) (.array (before ++ b :: after))
  /-- A reordering inside a value under a key of an object. -/
  | value {before after : List (String × List Node)} {key : String} {left right : List Node}
      {a b : Node} (inner : Reordering a b) :
      Reordering (.object ⟨before ++ (key, left ++ a :: right) :: after⟩)
        (.object ⟨before ++ (key, left ++ b :: right) :: after⟩)

/-- The values of one group are those of another, permuted and reordered inside. -/
inductive Regrouped : List Node → List Node → Prop
  /-- No values. -/
  | nil : Regrouped [] []
  /-- A first value that is reordered, and the others. -/
  | cons {a b : Node} {xs ys : List Node} (head : Reordering a b) (tail : Regrouped xs ys) :
      Regrouped (a :: xs) (b :: ys)
  /-- The first two values in the other order. -/
  | swap (a b : Node) (xs : List Node) : Regrouped (b :: a :: xs) (a :: b :: xs)
  /-- One change after the other. -/
  | trans {xs ys zs : List Node} (first : Regrouped xs ys) (second : Regrouped ys zs) :
      Regrouped xs zs

/-! ## Groups -/

namespace Regrouped

theorem refl (xs : List Node) : Regrouped xs xs := by
  induction xs with
  | nil => exact .nil
  | cons x xs ih => exact .cons (.refl x) ih

theorem of_perm {xs ys : List Node} (h : xs.Perm ys) : Regrouped xs ys := by
  induction h with
  | nil => exact .nil
  | cons x _ ih => exact .cons (.refl x) ih
  | swap x y xs => exact .swap x y xs
  | trans _ _ ih ih' => exact .trans ih ih'

theorem append {xs ys us vs : List Node} (h : Regrouped xs ys) (h' : Regrouped us vs) :
    Regrouped (xs ++ us) (ys ++ vs) := by
  -- What stands behind is regrouped once, at the end of the induction.
  have hfront : Regrouped (xs ++ us) (ys ++ us) := by
    induction h with
    | nil => exact refl us
    | cons head _ ih => exact .cons head ih
    | swap a b xs => exact .swap a b (xs ++ us)
    | trans _ _ ih ih' => exact .trans ih ih'
  have hback : Regrouped (ys ++ us) (ys ++ vs) := by
    clear h hfront
    induction ys with
    | nil => exact h'
    | cons y ys ih => exact .cons (.refl y) ih
  exact .trans hfront hback

theorem at_place {a b : Node} (h : Reordering a b) (before after : List Node) :
    Regrouped (before ++ a :: after) (before ++ b :: after) :=
  append (refl before) (.cons h (refl after))

theorem length_eq {xs ys : List Node} (h : Regrouped xs ys) : xs.length = ys.length := by
  induction h with
  | nil => rfl
  | cons _ _ ih => simp [ih]
  | swap a b xs => simp
  | trans _ _ ih ih' => exact ih.trans ih'

theorem eq_nil_iff {xs ys : List Node} (h : Regrouped xs ys) : xs = [] ↔ ys = [] := by
  rw [← List.length_eq_zero_iff, ← List.length_eq_zero_iff, h.length_eq]

/-- A single value stays single. -/
theorem singleton {a : Node} {ys : List Node} (h : Regrouped [a] ys) :
    ∃ b, ys = [b] ∧ Reordering a b := by
  generalize hxs : [a] = xs at h
  induction h generalizing a with
  | nil => simp at hxs
  | @cons c d xs ys head tail ih =>
    simp only [List.cons.injEq] at hxs
    obtain ⟨rfl, rfl⟩ := hxs
    have hys : ys = [] := tail.eq_nil_iff.1 rfl
    exact ⟨d, by rw [hys], head⟩
  | swap a b xs => simp at hxs
  | trans _ _ ih ih' =>
    obtain ⟨b, rfl, hab⟩ := ih hxs
    obtain ⟨c, rfl, hbc⟩ := ih' rfl
    exact ⟨c, rfl, .trans hab hbc⟩

end Regrouped

/-! ## What a reordering does to a node -/

/-- Two nodes of one kind, with regrouped elements, or with the same keys and regrouped values under
each of them. -/
def Alike : Node → Node → Prop
  | .array xs, .array ys => Regrouped xs ys
  | .object m, .object n =>
    m.keys = n.keys ∧ ∀ key, Regrouped (m.values key) (n.values key)
  | .primitive s, .primitive t => s = t
  | _, _ => False

theorem Alike.refl (node : Node) : Alike node node := by
  cases node with
  | object members => exact ⟨rfl, fun key => Regrouped.refl _⟩
  | array elements => exact Regrouped.refl elements
  | primitive type => rfl

theorem Alike.trans {a b c : Node} (h : Alike a b) (h' : Alike b c) : Alike a c := by
  cases a <;> cases b <;> cases c <;> try exact h.elim
  case object.object.object m n o =>
    exact ⟨h.1.trans h'.1, fun key => (h.2 key).trans (h'.2 key)⟩
  case array.array.array xs ys zs => exact Regrouped.trans h h'
  case primitive.primitive.primitive r s t => exact Eq.trans h h'
  all_goals exact h'.elim

/-- Values that are regrouped under one key of some entries. -/
theorem regrouped_values {before after : List (String × List Node)} {key : String}
    {xs ys : List Node} (h : Regrouped xs ys) (k : String) :
    Regrouped (Members.values ⟨before ++ (key, xs) :: after⟩ k)
      (Members.values ⟨before ++ (key, ys) :: after⟩ k) := by
  induction before with
  | nil =>
    simp only [Members.values, Members.get?, List.nil_append, Members.lookup_entry]
    by_cases hk : k = key
    · simpa [hk] using h
    · simpa [hk] using Regrouped.refl _
  | cons e before ih =>
    obtain ⟨d, ds⟩ := e
    simp only [Members.values, Members.get?, List.cons_append, Members.lookup_entry] at ih ⊢
    by_cases hk : k = d
    · simpa [hk] using Regrouped.refl _
    · simpa [hk] using ih

theorem alike_object {before after : List (String × List Node)} {key : String} {xs ys : List Node}
    (h : Regrouped xs ys) :
    Alike (.object ⟨before ++ (key, xs) :: after⟩) (.object ⟨before ++ (key, ys) :: after⟩) :=
  ⟨by simp [Members.keys], regrouped_values h⟩

namespace Reordering

/-- A reordering keeps the kind and the keys of a node and regroups what it holds. -/
theorem alike {a b : Node} (h : Reordering a b) : Alike a b := by
  induction h with
  | refl node => exact Alike.refl node
  | trans _ _ ih ih' => exact ih.trans ih'
  | elements perm => exact Regrouped.of_perm perm
  | values perm => exact alike_object (.of_perm perm)
  | element inner _ => exact Regrouped.at_place inner _ _
  | value inner _ => exact alike_object (.at_place inner _ _)

theorem kind_eq {a b : Node} (h : Reordering a b) : a.kind = b.kind := by
  have := h.alike
  cases a <;> cases b <;> simp_all [Alike, kind]

theorem array {xs : List Node} {b : Node} (h : Reordering (.array xs) b) :
    ∃ ys, b = .array ys ∧ Regrouped xs ys := by
  have := h.alike
  cases b with
  | array ys => exact ⟨ys, rfl, this⟩
  | object members => exact this.elim
  | primitive type => exact this.elim

/-! ### Reorderings from regrouped parts -/

/-- Regrouping the elements of an array reorders it. -/
theorem of_regrouped {xs ys : List Node} (h : Regrouped xs ys) :
    Reordering (.array xs) (.array ys) := by
  -- The induction leaves the elements before the group in their place.
  suffices ∀ before : List Node, Reordering (.array (before ++ xs)) (.array (before ++ ys)) from
    this []
  induction h with
  | nil => exact fun before => .refl _
  | @cons a b xs ys head _ ih =>
    intro before
    have htail := ih (before ++ [b])
    simp only [List.append_assoc, List.singleton_append] at htail
    exact .trans (.element head) htail
  | swap a b xs => exact fun before => .elements (List.Perm.append_left before (List.Perm.swap a b xs))
  | trans _ _ ih ih' => exact fun before => .trans (ih before) (ih' before)

/-- Regrouping the values under one key of an object reorders it. -/
theorem of_regrouped_values {before after : List (String × List Node)} {key : String}
    {xs ys : List Node} (h : Regrouped xs ys) :
    Reordering (.object ⟨before ++ (key, xs) :: after⟩)
      (.object ⟨before ++ (key, ys) :: after⟩) := by
  suffices ∀ left : List Node, Reordering (.object ⟨before ++ (key, left ++ xs) :: after⟩)
      (.object ⟨before ++ (key, left ++ ys) :: after⟩) from this []
  induction h with
  | nil => exact fun left => .refl _
  | @cons a b xs ys head _ ih =>
    intro left
    have htail := ih (left ++ [b])
    simp only [List.append_assoc, List.singleton_append] at htail
    exact .trans (.value head) htail
  | swap a b xs => exact fun left => .values (List.Perm.append_left left (List.Perm.swap a b xs))
  | trans _ _ ih ih' => exact fun left => .trans (ih left) (ih' left)

/-- Objects with the same keys and regrouped values under each of them are reorderings. -/
theorem of_values {keys : List String} {f g : String → List Node}
    (h : ∀ key, Regrouped (f key) (g key)) :
    Reordering (.object ⟨keys.map fun key => (key, f key)⟩)
      (.object ⟨keys.map fun key => (key, g key)⟩) := by
  suffices ∀ before : List (String × List Node),
      Reordering (.object ⟨before ++ keys.map fun key => (key, f key)⟩)
        (.object ⟨before ++ keys.map fun key => (key, g key)⟩) from this []
  induction keys with
  | nil => exact fun before => .refl _
  | cons key keys ih =>
    intro before
    have htail := ih (before ++ [(key, g key)])
    simp only [List.append_assoc, List.singleton_append] at htail
    simp only [List.map_cons]
    exact .trans (of_regrouped_values (h key)) htail

end Reordering

end Node

namespace Members

variable {α : Type} {m other : Members α}

/-! ## Members by their keys -/

/-- Well-formed members are their keys with the values under them. -/
theorem entries_eq_map_keys (h : m.WellFormed) :
    m.entries = m.keys.map fun key => (key, m.values key) := by
  rw [keys, List.map_map]
  refine (List.map_id _).symm.trans (List.map_congr_left fun e he => ?_)
  have hvalues := ((mem_entries_iff h).1 he).1
  simp [hvalues]

theorem mem_keys_iff (h : m.WellFormed) {key : String} : key ∈ m.keys ↔ m.values key ≠ [] := by
  rw [keys, List.mem_map]
  constructor
  · rintro ⟨e, he, rfl⟩
    obtain ⟨hvalues, hne⟩ := (mem_entries_iff h).1 he
    rwa [hvalues]
  · intro hne
    exact ⟨(key, m.values key), (mem_entries_iff h).2 ⟨rfl, hne⟩, rfl⟩

/-- The keys of well-formed members are determined by which keys have values. -/
theorem keys_eq (h : m.WellFormed) (ho : other.WellFormed)
    (hnil : ∀ key, m.values key = [] ↔ other.values key = []) : m.keys = other.keys := by
  have hlt : m.keys.Pairwise (· < ·) := List.pairwise_map.2 h.ascending
  have hlt' : other.keys.Pairwise (· < ·) := List.pairwise_map.2 ho.ascending
  have hmem : ∀ key, key ∈ m.keys ↔ key ∈ other.keys := by
    intro key
    rw [mem_keys_iff h, mem_keys_iff ho, ne_eq, hnil, ne_eq]
  have hperm : m.keys.Perm other.keys :=
    (List.perm_ext_iff_of_nodup (hlt.imp ne_of_lt) (hlt'.imp ne_of_lt)).2 hmem
  exact hperm.eq_of_pairwise (fun a b _ _ hab hba => absurd hab (lt_asymm hba)) hlt hlt'

end Members

namespace Node

/-! ## Well-formed trees -/

namespace Reordering

/-- Well-formed objects whose values are regrouped under each key are reorderings. -/
theorem of_regrouped_object {m n : Members Node} (hm : m.WellFormed) (hn : n.WellFormed)
    (h : ∀ key, Regrouped (m.values key) (n.values key)) :
    Reordering (.object m) (.object n) := by
  have hkeys : m.keys = n.keys := Members.keys_eq hm hn fun key => (h key).eq_nil_iff
  have hm' := Members.entries_eq_map_keys hm
  have hn' := Members.entries_eq_map_keys hn
  rw [← hkeys] at hn'
  obtain ⟨entries⟩ := m
  obtain ⟨others⟩ := n
  simp only at hm' hn'
  rw [hm', hn']
  exact of_values fun key => h key

end Reordering

theorem members_wellFormed {before after : List (String × List Node)} {key : String}
    {xs ys : List Node} (h : Members.WellFormed ⟨before ++ (key, xs) :: after⟩)
    (hnil : ys = [] ↔ xs = []) : Members.WellFormed ⟨before ++ (key, ys) :: after⟩ := by
  constructor
  · have hlt : (before ++ (key, xs) :: after).Pairwise fun a b => a.1 < b.1 := h.ascending
    show (before ++ (key, ys) :: after).Pairwise fun a b => a.1 < b.1
    simpa [List.pairwise_append] using hlt
  · intro e he
    have hinhabited := h.inhabited
    simp only [List.mem_append, List.mem_cons] at he hinhabited
    rcases he with he | rfl | he
    · exact hinhabited e (Or.inl he)
    · exact fun hys => hinhabited (key, xs) (Or.inr (Or.inl rfl)) (hnil.1 hys)
    · exact hinhabited e (Or.inr (Or.inr he))

theorem WellFormed.replace {before after : List (String × List Node)} {key : String}
    {xs ys : List Node} (h : (Node.object ⟨before ++ (key, xs) :: after⟩).WellFormed)
    (hnil : ys = [] ↔ xs = []) (hys : ∀ value ∈ ys, value.WellFormed) :
    (Node.object ⟨before ++ (key, ys) :: after⟩).WellFormed := by
  cases h with
  | object own inner =>
    refine .object (members_wellFormed own hnil) fun e he value hvalue => ?_
    simp only [List.mem_append, List.mem_cons] at he inner
    rcases he with he | rfl | he
    · exact inner e (Or.inl he) value hvalue
    · exact hys value hvalue
    · exact inner e (Or.inr (Or.inr he)) value hvalue

theorem WellFormed.entry {before after : List (String × List Node)} {key : String}
    {xs : List Node} (h : (Node.object ⟨before ++ (key, xs) :: after⟩).WellFormed) :
    ∀ value ∈ xs, value.WellFormed := by
  cases h with
  | object own inner => exact fun value hvalue => inner (key, xs) (by simp) value hvalue

/-- A reordering of a well-formed tree is well-formed. -/
theorem WellFormed.reordering {a b : Node} (ha : a.WellFormed) (h : Reordering a b) :
    b.WellFormed := by
  induction h with
  | refl node => exact ha
  | trans _ _ ih ih' => exact ih' (ih ha)
  | elements perm => exact .array fun node hnode => ha.element node (perm.mem_iff.2 hnode)
  | values perm =>
    refine ha.replace ?_ fun value hvalue => ha.entry value (perm.mem_iff.2 hvalue)
    rw [← List.length_eq_zero_iff, ← List.length_eq_zero_iff, perm.length_eq]
  | @element before after a b inner ih =>
    have hin := ha.element
    refine .array fun node hnode => ?_
    simp only [List.mem_append, List.mem_cons] at hnode hin
    rcases hnode with hnode | rfl | hnode
    · exact hin node (Or.inl hnode)
    · exact ih (hin a (Or.inr (Or.inl rfl)))
    · exact hin node (Or.inr (Or.inr hnode))
  | @value before after key left right a b inner ih =>
    have hin := ha.entry
    refine ha.replace (by simp) fun value hvalue => ?_
    simp only [List.mem_append, List.mem_cons] at hvalue hin
    rcases hvalue with hvalue | rfl | hvalue
    · exact hin value (Or.inl hvalue)
    · exact ih (hin a (Or.inr (Or.inl rfl)))
    · exact hin value (Or.inr (Or.inr hvalue))

/-! ## The values of regrouped objects -/

theorem valuesAt_cons (node : Node) (group : List Node) (key : String) :
    valuesAt (node :: group) key = valuesAt [node] key ++ valuesAt group key :=
  valuesAt_append [node] group key

theorem Reordering.valuesAt {a b : Node} (h : Reordering a b) (key : String) :
    Regrouped (valuesAt [a] key) (valuesAt [b] key) := by
  have := h.alike
  cases a <;> cases b <;> try exact this.elim
  case object.object m n => simpa [Node.valuesAt, members?] using this.2 key
  all_goals exact Regrouped.refl _

/-- Objects that are regrouped have regrouped values under each key. -/
theorem Regrouped.valuesAt {group other : List Node} (h : Regrouped group other) (key : String) :
    Regrouped (valuesAt group key) (valuesAt other key) := by
  induction h with
  | nil => exact .nil
  | @cons a b xs ys head _ ih =>
    rw [valuesAt_cons a, valuesAt_cons b]
    exact (head.valuesAt key).append ih
  | swap a b xs =>
    rw [valuesAt_cons b, valuesAt_cons a, valuesAt_cons a (b :: xs), valuesAt_cons b xs,
      ← List.append_assoc, ← List.append_assoc]
    exact (Regrouped.of_perm List.perm_append_comm).append (Regrouped.refl _)
  | trans _ _ ih ih' => exact .trans ih ih'

end Node

end JsonShape
