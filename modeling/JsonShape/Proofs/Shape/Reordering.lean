import JsonShape.Proofs.Document.Reordering
import JsonShape.Proofs.Shape.Group

/-!
# The order of values does not matter

What is inferred from a group of values depends on the values and not on their order, anywhere in
them: not the shape, not the identifiers of its fields, and not the renames that are noted.

* `commonKind?_regrouped` — regrouped values have the same common kind.
* `ofGroup_regrouped` — the same is inferred from regrouped values.
* `ofRoot_reordering` — the same is inferred from a document and a reordering of it.
-/

namespace JsonShape

namespace Node

/-! ## The kind of regrouped values -/

theorem kinds_regrouped {group other : List Node} (h : Regrouped group other) :
    (group.map kind).Perm (other.map kind) := by
  induction h with
  | nil => exact List.Perm.nil
  | cons head _ ih => simpa [head.kind_eq] using ih
  | swap a b xs => exact List.Perm.swap a.kind b.kind (xs.map kind)
  | trans _ _ ih ih' => exact ih.trans ih'

/-- Regrouped values are of one kind exactly if the values are. -/
theorem commonKind?_regrouped {group other : List Node} (h : Regrouped group other) :
    commonKind? group = commonKind? other := by
  exact commonKind?_congr fun k => (kinds_regrouped h).mem_iff

end Node

namespace Inferred

open Node (Regrouped)

/-! ## What is inferred from regrouped values -/

/-- The fields of merged objects, key by key. -/
theorem entries_mergeObjects {σ : Type} {group : List Node} (h : ∀ node ∈ group, node.WellFormed)
    (f : List Node → σ) :
    (Node.mergeObjects group).inhabited.entries.map (fun (key, values) => (key, f values)) =
      (Node.mergeObjects group).keys.map fun key => (key, f (Node.valuesAt group key)) := by
  obtain ⟨hwf, hvalues⟩ := Shape.values_mergeObjects h
  rw [Members.inhabited_eq_self hwf, Members.entries_eq_map_keys hwf, List.map_map]
  simp only [Function.comp_def, hvalues]

theorem keys_mergeObjects {group other : List Node} (hgroup : ∀ node ∈ group, node.WellFormed)
    (hother : ∀ node ∈ other, node.WellFormed)
    (hnil : ∀ key, Node.valuesAt group key = [] ↔ Node.valuesAt other key = []) :
    (Node.mergeObjects group).keys = (Node.mergeObjects other).keys := by
  obtain ⟨hwf, hvalues⟩ := Shape.values_mergeObjects hgroup
  obtain ⟨hwf', hvalues'⟩ := Shape.values_mergeObjects hother
  refine Members.keys_eq hwf hwf' fun key => ?_
  rw [hvalues, hvalues']
  exact hnil key

/-- The same is inferred from objects if the same is inferred from the values under each key. -/
theorem ofGroup_congr {group other : List Node} (hgroup : ∀ node ∈ group, node.WellFormed)
    (hother : ∀ node ∈ other, node.WellFormed) (hkind : Node.commonKind? group = some .object)
    (hkind' : Node.commonKind? other = some .object)
    (hnil : ∀ key, Node.valuesAt group key = [] ↔ Node.valuesAt other key = [])
    (hsame : ∀ key, ofGroup (Node.valuesAt group key) = ofGroup (Node.valuesAt other key)) :
    ofGroup group = ofGroup other := by
  rw [ofGroup_of_object hkind, ofGroup_of_object hkind', entries_mergeObjects hgroup,
    entries_mergeObjects hother, keys_mergeObjects hgroup hother hnil]
  simp only [hsame]

/-- The same is inferred from regrouped values. -/
theorem ofGroup_regrouped {group other : List Node} (hgroup : ∀ node ∈ group, node.WellFormed)
    (hother : ∀ node ∈ other, node.WellFormed) (h : Regrouped group other) :
    ofGroup group = ofGroup other := by
  induction group using Node.group_induction generalizing other with
  | mixed group hkind =>
    rw [ofGroup_of_mixed hkind, ofGroup_of_mixed (Node.commonKind?_regrouped h ▸ hkind)]
  | primitive group type hkind =>
    rw [ofGroup_of_primitive hkind,
      ofGroup_of_primitive (Node.commonKind?_regrouped h ▸ hkind)]
  | array elements ih =>
    -- A single array is regrouped as a single array, whose elements are regrouped in turn.
    obtain ⟨b, rfl, hb⟩ := h.singleton
    obtain ⟨ys, rfl, hys⟩ := hb.array
    have hin := (hgroup _ (List.mem_singleton_self _)).element
    have hin' := (hother _ (List.mem_singleton_self _)).element
    rw [ofGroup_array, ofGroup_array, Node.commonKind?_regrouped hys, ih hin hin' hys]
  | arrays group hkind hlen =>
    have hkind' := Node.commonKind?_regrouped h ▸ hkind
    have hlen' : other.length ≠ 1 := h.length_eq ▸ hlen
    rw [ofGroup_arrays hkind hlen, ofGroup_arrays hkind' hlen']
  | objects group hkind ih =>
    have hkind' := Node.commonKind?_regrouped h ▸ hkind
    refine ofGroup_congr hgroup hother hkind hkind' (fun key => (h.valuesAt key).eq_nil_iff) ?_
    intro key
    exact ih key (Node.WellFormed.valuesAt hgroup key) (Node.WellFormed.valuesAt hother key)
      (h.valuesAt key)

/-- The same is inferred from a document and from a reordering of it. -/
theorem ofRoot_reordering {root other : Node} (hroot : root.WellFormed)
    (h : Node.Reordering root other) : ofRoot root = ofRoot other := by
  have hother := hroot.reordering h
  have hsame : ofGroup [root] = ofGroup [other] :=
    ofGroup_regrouped (by simpa using hroot) (by simpa using hother) (.cons h .nil)
  rw [ofRoot, ofRoot, h.kind_eq, hsame]

end Inferred

end JsonShape
