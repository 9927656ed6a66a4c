import JsonShape.Proofs.Document.Extension
import JsonShape.Proofs.Shape.Least

/-!
# More evidence never narrows a shape

What is inferred from a document that has further elements and members is no narrower than what is
inferred without them: a struct only gains fields, and a shape stays what it is or moves towards the
one that allows everything.

* `commonKind?_grows` — a group that grows keeps its common kind or loses it.
* `ofGroup_le_of_grows` — the shape of a group that grows becomes no narrower.
* `exists_ofRoot_le_of_extends` — nor does the shape of a document that is extended.
-/

namespace JsonShape

namespace Node

/-- A group that is of one kind when it has grown was of that kind before. -/
theorem commonKind?_grows {group other : List Node} (h : Grows group other) (hne : group ≠ [])
    {kind : Kind} (hkind : commonKind? other = some kind) : commonKind? group = some kind := by
  refine commonKind?_eq_some_iff.2 ⟨hne, fun node hnode => ?_⟩
  exact (mem_kinds_iff hkind).1 (h.kind_mem (List.mem_map_of_mem hnode))

end Node

namespace Shape

open Node (Grows Extends commonKind? commonKind?_grows valuesAt)

variable {group other : List Node}

theorem ofPrimitive_le (type : Primitive) : (ofPrimitive type).Le (ofPrimitive type) :=
  (accepts_ofPrimitive type).ofPrimitive_le

/-- Of a group that grows only those need to be compared that keep their kind: where the values are
of several kinds, nothing is told about them. -/
theorem ofGroup_le_of_kind (hne : group ≠ []) (h : Grows group other)
    (hle : ∀ kind, commonKind? group = some kind → commonKind? other = some kind →
      (ofGroup group).Le (ofGroup other)) : (ofGroup group).Le (ofGroup other) := by
  cases hkind : commonKind? other with
  | none =>
    rw [ofGroup_of_mixed hkind]
    exact .any _
  | some kind => exact hle kind (commonKind?_grows h hne hkind) hkind

/-- An array whose elements grow gets no narrower shape, if the elements get none.  An array without
elements has to stay empty, since it allows any elements. -/
theorem ofGroup_array_le {xs ys : List Node} (h : Grows xs ys) (filled : xs = [] → ys = [])
    (hle : xs ≠ [] → (ofGroup xs).Le (ofGroup ys)) :
    (ofGroup [.array xs]).Le (ofGroup [.array ys]) := by
  rw [ofGroup_array, ofGroup_array]
  refine .slice ?_
  by_cases hys : commonKind? ys = some .array
  · rw [if_pos hys]
    exact .any _
  · rw [if_neg hys]
    by_cases hxs : commonKind? xs = some .array
    · -- Among arrays there stands something else now.
      have hne : xs ≠ [] := (Node.commonKind?_eq_some_iff.1 hxs).1
      have hmixed : commonKind? ys = none := by
        refine Option.eq_none_iff_forall_ne_some.2 fun kind hkind => ?_
        rw [commonKind?_grows h hne hkind] at hxs
        exact hys (hxs ▸ hkind)
      rw [ofGroup_of_mixed hmixed]
      exact .any _
    · rw [if_neg hxs]
      by_cases hne : xs = []
      · have hempty : ofGroup [] = any := ofGroup_of_mixed rfl
        rw [filled hne, hempty]
        exact .any _
      · exact hle hne

/-- Objects that grow have a struct with no fewer fields and no narrower ones, if the values under
each key have no narrower shape. -/
theorem ofGroup_objects_le (hgroup : ∀ node ∈ group, node.WellFormed)
    (hother : ∀ node ∈ other, node.WellFormed) (h : Grows group other)
    (hkind : commonKind? group = some .object) (hkind' : commonKind? other = some .object)
    (hle : ∀ key, valuesAt group key ≠ [] →
      (ofGroup (valuesAt group key)).Le (ofGroup (valuesAt other key))) :
    (ofGroup group).Le (ofGroup other) := by
  obtain ⟨fields, hshape, hfields⟩ := ofGroup_objects hkind hgroup
  obtain ⟨others, hshape', hothers⟩ := ofGroup_objects hkind' hother
  have hvalues : ∀ key s, Field.valueAt? fields key = some s →
      valuesAt group key ≠ [] ∧ s = ofGroup (valuesAt group key) ∧
        Field.valueAt? others key = some (ofGroup (valuesAt other key)) := by
    intro key s hs
    rw [hfields] at hs
    split_ifs at hs with hne
    have hne' : valuesAt other key ≠ [] := (h.valuesAt key).ne_nil hne
    exact ⟨hne, (Option.some.inj hs).symm, by rw [hothers, if_neg hne']⟩
  rw [hshape, hshape']
  refine .struct (fun key hkey => ?_) (fun key s t hs ht => ?_)
  · obtain ⟨s, hs⟩ := Option.isSome_iff_exists.1 hkey
    rw [(hvalues key s hs).2.2]
    rfl
  · obtain ⟨hne, rfl, hothers⟩ := hvalues key s hs
    obtain rfl := Option.some.inj (hothers.symm.trans ht)
    exact hle key hne

/-- The shape of a group that grows becomes no narrower. -/
theorem ofGroup_le_of_grows (hgroup : ∀ node ∈ group, node.WellFormed)
    (hother : ∀ node ∈ other, node.WellFormed) (hne : group ≠ []) (h : Grows group other) :
    (ofGroup group).Le (ofGroup other) := by
  induction group using Node.group_induction generalizing other with
  | mixed group hmixed =>
    refine ofGroup_le_of_kind hne h fun kind hkind _ => ?_
    rw [hmixed] at hkind
    cases hkind
  | primitive group type hprimitive =>
    refine ofGroup_le_of_kind hne h fun kind hkind hkind' => ?_
    obtain rfl := Option.some.inj (hprimitive.symm.trans hkind)
    rw [ofGroup_of_primitive hkind, ofGroup_of_primitive hkind']
    exact ofPrimitive_le type
  | array elements ih =>
    refine ofGroup_le_of_kind hne h fun kind hkind hkind' => ?_
    obtain rfl : Node.Kind.array = kind := Option.some.inj hkind
    by_cases hlen : other.length = 1
    · obtain ⟨node, rfl⟩ := List.length_eq_one_iff.1 hlen
      obtain ⟨_, hnode, hextends⟩ := h.exists_of_mem (List.mem_singleton_self _)
      obtain rfl := List.mem_singleton.1 hnode
      cases hextends with
      | array kept filled =>
        refine ofGroup_array_le kept filled fun hfilled => ?_
        exact ih (hgroup _ (List.mem_singleton_self _)).element
          (hother _ (List.mem_singleton_self _)).element hfilled kept
    · -- Beside other arrays the elements of an array tell nothing.
      rw [ofGroup_array, ofGroup_arrays hkind' hlen]
      exact .slice (.any _)
  | arrays group harrays hlen =>
    refine ofGroup_le_of_kind hne h fun kind hkind hkind' => ?_
    obtain rfl := Option.some.inj (harrays.symm.trans hkind)
    have hlen' : other.length ≠ 1 := by
      have hle := h.length_le
      have hpos := List.length_pos_iff.2 hne
      omega
    rw [ofGroup_arrays hkind hlen, ofGroup_arrays hkind' hlen']
    exact .slice (.any _)
  | objects group hobjects ih =>
    refine ofGroup_le_of_kind hne h fun kind hkind hkind' => ?_
    obtain rfl := Option.some.inj (hobjects.symm.trans hkind)
    refine ofGroup_objects_le hgroup hother h hkind hkind' fun key hvalues => ?_
    exact ih key (Node.WellFormed.valuesAt hgroup key) (Node.WellFormed.valuesAt hother key)
      hvalues (h.valuesAt key)

/-- A document and one that extends it have inferred shapes, and that of the document allows no more
than that of the extension: it has no other fields, and none that is wider. -/
theorem exists_ofRoot_le_of_extends {root other : Node}
    (hkind : root.kind = .object ∨ root.kind = .array) (hroot : root.WellFormed)
    (hother : other.WellFormed) (h : root.Extends other) :
    ∃ s t, ofRoot root = .ok s ∧ ofRoot other = .ok t ∧ s.Le t := by
  refine ⟨ofGroup [root], ofGroup [other], ofRoot_eq_ok hkind, ofRoot_eq_ok (h.kind_eq ▸ hkind), ?_⟩
  exact ofGroup_le_of_grows (List.forall_mem_singleton.2 hroot) (List.forall_mem_singleton.2 hother)
    (List.cons_ne_nil _ _) (.cons h .nil)

/-- An object with a list of numbers and a nested object. -/
def numberList : Node :=
  .object (.ofPairs [
    ("a", .array [.primitive .integer]),
    ("b", .object (.ofPairs [("x", .primitive .integer)]))])

/-- The same with another list under the key of the first, a text among the numbers, a second member
under the key of the nested object, and a new key. -/
def numberListExtended : Node :=
  .object (.ofPairs [
    ("a", .array [.primitive .string, .primitive .integer]),
    ("c", .primitive .null),
    ("b", .object (.ofPairs [("x", .primitive .integer), ("x", .primitive .null)])),
    ("a", .array [])])

theorem numberList_wellFormed : numberList.WellFormed := by
  refine .ofPairs (List.forall_mem_cons.2 ⟨.array ?_, List.forall_mem_singleton.2 (.ofPairs ?_)⟩)
  · exact List.forall_mem_singleton.2 (.primitive _)
  · exact List.forall_mem_singleton.2 (.primitive _)

theorem numberListExtended_wellFormed : numberListExtended.WellFormed := by
  refine .ofPairs (List.forall_mem_cons.2 ⟨.array ?_, List.forall_mem_cons.2 ⟨.primitive _, ?_⟩⟩)
  · exact List.forall_mem_cons.2 ⟨.primitive _, List.forall_mem_singleton.2 (.primitive _)⟩
  · refine List.forall_mem_cons.2 ⟨.ofPairs ?_, List.forall_mem_singleton.2 (.array ?_)⟩
    · exact List.forall_mem_cons.2 ⟨.primitive _, List.forall_mem_singleton.2 (.primitive _)⟩
    · exact fun element helement => absurd helement List.not_mem_nil

theorem numberList_extends : numberList.Extends numberListExtended := by
  have hlist : Node.Extends (.array [.primitive .integer])
      (.array [.primitive .string, .primitive .integer]) := by
    refine .array (.cons_right (.cons (.primitive _) .nil)) ?_
    exact fun hnil => absurd hnil (List.cons_ne_nil _ _)
  have hnested : Node.Extends (.object (.ofPairs [("x", .primitive .integer)]))
      (.object (.ofPairs [("x", .primitive .integer), ("x", .primitive .null)])) :=
    .ofPairs (.cons ⟨rfl, .primitive _⟩ .nil)
  exact .ofPairs (.cons ⟨rfl, hlist⟩ (.cons_right (.cons ⟨rfl, hnested⟩ .nil)))

theorem exists_ofRoot_le_of_extends_numberList :
    numberList.kind = .object ∧ numberList.WellFormed ∧ numberListExtended.WellFormed ∧
      numberList.Extends numberListExtended ∧
        ∃ s t, ofRoot numberList = .ok s ∧ ofRoot numberListExtended = .ok t ∧ s.Le t :=
  ⟨rfl, numberList_wellFormed, numberListExtended_wellFormed, numberList_extends,
    exists_ofRoot_le_of_extends (Or.inl rfl) numberList_wellFormed numberListExtended_wellFormed
      numberList_extends⟩

end Shape

end JsonShape
