import Mathlib.Algebra.GroupWithZero.Nat
import JsonShape.Proofs.Document.Repeats

/-!
# The objects of a document tree

In the tree of a document the values of each object lie under their keys, and which of them was read
first is told only among those of one key.  How many members were repeated is still told: of the
values under a key of an object all but the first are those of repeated members.

* `Node.objects` — the objects of a tree, at any depth.
* `Node.surplus` — how many values lie under a key behind the first one in their object.
* `Derivation.countP_members`, `Derivation.count_repeatedKeys` — so many members of a document with
  the key are repeated.
-/

namespace JsonShape

namespace Node

mutual

/-- The objects of a tree, at any depth. -/
def objects : Node → List (Members Node)
  | object ⟨entries⟩ => ⟨entries⟩ :: objectsEntries entries
  | array elements => objectsAll elements
  | primitive _ => []

/-- The objects of a list of trees. -/
def objectsAll : List Node → List (Members Node)
  | [] => []
  | node :: rest => objects node ++ objectsAll rest

/-- The objects of the trees under some keys. -/
def objectsEntries : List (String × List Node) → List (Members Node)
  | [] => []
  | (_, values) :: rest => objectsAll values ++ objectsEntries rest

end

/-- How many values lie under a key, in all objects of a tree, behind the first one in their
object. -/
def surplus (key : String) (node : Node) : Nat :=
  (node.objects.map fun m => (m.values key).length - 1).sum

theorem sum_objectsAll (f : Members Node → Nat) (nodes : List Node) :
    ((objectsAll nodes).map f).sum = (nodes.map fun node => (node.objects.map f).sum).sum := by
  induction nodes with
  | nil => rw [objectsAll]; rfl
  | cons node rest ih =>
    rw [objectsAll, List.map_append, List.sum_append, ih, List.map_cons, List.sum_cons]

theorem sum_objectsEntries (f : Members Node → Nat) (entries : List (String × List Node)) :
    ((objectsEntries entries).map f).sum =
      Members.weigh (fun values => (values.map fun node => (node.objects.map f).sum).sum)
        entries := by
  induction entries with
  | nil => rw [objectsEntries]; rfl
  | cons e rest ih =>
    rw [objectsEntries, List.map_append, List.sum_append, ih, sum_objectsAll, Members.weigh]

@[simp] theorem surplus_primitive (key : String) (type : Primitive) :
    (primitive type).surplus key = 0 := by
  rw [surplus, objects]
  rfl

theorem surplus_array (key : String) (elements : List Node) :
    (array elements).surplus key = (elements.map (surplus key)).sum := by
  rw [surplus, objects, sum_objectsAll]
  rfl

theorem surplus_object (key : String) (members : Members Node) :
    (object members).surplus key = (members.values key).length - 1 +
      Members.weigh (fun values => (values.map (surplus key)).sum) members.entries := by
  rw [surplus, objects, List.map_cons, List.sum_cons, sum_objectsEntries]
  rfl

end Node

namespace Members

variable {α : Type}

theorem length_valuesIn (pairs : List (String × α)) (key : String) :
    (valuesIn pairs key).length = (pairs.map Prod.fst).count key := by
  induction pairs with
  | nil => rfl
  | cons pair rest ih =>
    rw [List.map_cons, List.count_cons, ← ih, valuesIn, List.filterMap_cons]
    by_cases h : pair.1 = key <;> simp [h, valuesIn]

end Members

theorem Node.surplus_ofPairs (key : String) (pairs : List (String × Node)) :
    (object (.ofPairs pairs)).surplus key = (pairs.map Prod.fst).count key - 1 +
      (pairs.map fun pair => pair.2.surplus key).sum := by
  rw [surplus_object, Members.values_ofPairs, Members.length_valuesIn,
    Members.weigh_ofPairs (by simp) rfl, List.map_map]
  rfl

/-! ## Repeated members -/

namespace Member

/-- A member with the key, if it is a repeated one. -/
def Repeats (key : String) (m : Member) : Prop := m.key = key ∧ key ∈ m.before

instance (key : String) : DecidablePred (Repeats key) := fun m =>
  inferInstanceAs (Decidable (m.key = key ∧ key ∈ m.before))

/-- Among members that stand behind those with the keys `before`, all with the key are repeated but
the first, and if the key is one of `before` that one too. -/
theorem countP_cons (key : String) (m : Member) (ms : List Member) :
    (m :: ms).countP (Repeats key) + (m.before.count key - 1) =
      ms.countP (Repeats key) + ((m.before ++ [m.key]).count key - 1) := by
  rw [List.countP_cons, List.count_append, List.count_singleton, Nat.add_assoc]
  congr 1
  by_cases hkey : m.key = key
  · by_cases hmem : key ∈ m.before
    · have hpos := List.count_pos_iff.2 hmem
      simp only [Repeats, hkey, hmem, and_self, decide_true, if_true, beq_self_eq_true]
      omega
    · have hzero := List.count_eq_zero.2 hmem
      simp [Repeats, hmem, hzero, hkey]
  · simp [Repeats, hkey]

end Member

-- The members before the further ones of an object are counted on both sides, so that each further
-- member can be added to them.
mutual

/-- Of the values under a key in the objects of a document all but the first are those of repeated
members. -/
theorem Derivation.countP_members (d : Derivation) (start : Nat) (key : String) :
    (d.members start).countP (Member.Repeats key) = d.node.surplus key := by
  cases d with
  | primitive type t => rw [Derivation.node, Node.surplus_primitive]; rfl
  | emptyObject opening closing => rw [Derivation.node, Node.surplus_ofPairs]; rfl
  | object opening first colon value more closing =>
    have hvalue := value.countP_members (start + 3) key
    have hmore := more.countP_members [first.1.text] (start + 3 + value.tokens.length) key
    have hfirst := Member.countP_cons key ⟨[], first.1.text, start + 3 + value.tokens.length⟩
      (more.members [first.1.text] (start + 3 + value.tokens.length))
    rw [Derivation.members, Derivation.node, List.countP_append, Node.surplus_ofPairs, hvalue,
      List.map_cons, List.map_cons, List.sum_cons]
    simp only [List.nil_append, List.count_nil, List.singleton_append] at hmore hfirst ⊢
    omega
  | emptyArray opening closing => rw [Derivation.node, Node.surplus_array]; rfl
  | array opening value more closing =>
    rw [Derivation.members, Derivation.node, List.countP_append, Node.surplus_array,
      value.countP_members, more.countP_members, List.map_cons, List.sum_cons]

theorem MoreMembers.countP_members (m : MoreMembers) (before : List String) (start : Nat)
    (key : String) :
    (m.members before start).countP (Member.Repeats key) + (before.count key - 1) =
      (before ++ m.pairs.map Prod.fst).count key - 1 +
        (m.pairs.map fun pair => pair.2.surplus key).sum := by
  cases m with
  | none => simp [MoreMembers.members, MoreMembers.pairs]
  | next comma own colon value more =>
    have hvalue := value.countP_members (start + 3) key
    have hmore := more.countP_members (before ++ [own.1.text]) (start + 3 + value.tokens.length) key
    have hown := Member.countP_cons key ⟨before, own.1.text, start + 3 + value.tokens.length⟩
      (more.members (before ++ [own.1.text]) (start + 3 + value.tokens.length))
    rw [← List.append_cons] at hmore
    rw [MoreMembers.members, MoreMembers.pairs, List.countP_append, hvalue, List.map_cons,
      List.map_cons, List.sum_cons]
    simp only at hown ⊢
    omega

theorem MoreElements.countP_members (m : MoreElements) (start : Nat) (key : String) :
    (m.members start).countP (Member.Repeats key) = (m.nodes.map (Node.surplus key)).sum := by
  cases m with
  | none => rfl
  | next comma value more =>
    rw [MoreElements.members, MoreElements.nodes, List.countP_append, value.countP_members,
      more.countP_members, List.map_cons, List.sum_cons]

end

/-- Among all tokens of a document so many repeated members end. -/
theorem Derivation.count_repeatedKeys (d : Derivation) {n : Nat} (h : d.tokens.length ≤ n)
    (key : String) : (d.repeatedKeys n).count key = d.node.surplus key := by
  rw [← d.countP_members 0, repeatedKeys, List.count_eq_countP, List.countP_map, List.countP_filter]
  refine List.countP_congr fun m hm => ?_
  have hstop := ((d.ascend_members 0).bounded m hm).2
  have hle : m.stop ≤ n := by omega
  simp only [Function.comp_apply, hle, true_and, Bool.and_eq_true, beq_iff_eq, decide_eq_true_eq]
  exact and_congr_right fun hkey => by rw [hkey]

end JsonShape
