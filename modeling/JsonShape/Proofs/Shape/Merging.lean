import JsonShape.Proofs.Document.Gathering
import JsonShape.Proofs.Shape.Accepts
import JsonShape.Proofs.Shape.Reordering

/-!
# Merging is gathering

The objects that share a place are never made into one object: the fields of their struct are looked
up in all of them.  What is inferred from them is nevertheless what is inferred from the one object
that has all their members, and it makes no difference, anywhere in a document, whether some of them
are gathered beforehand.

* `Interchangeable` — groups that inference cannot tell apart, and `Interchangeable.replaced`: it
  cannot tell apart what they stand in either, at any depth.
* `ofGroup_gathered` — what is inferred from objects is what is inferred from the one object.
* `Gives` — what is inferred wherever some objects stand, and `ofRoot_gather`: the one object, the
  array of the objects and the key that has them give the same struct.
-/

namespace JsonShape

namespace Inferred

open Node (Replaced commonKind? commonKind?_objects mem_kinds_iff valuesAt valuesAt_object)
open Members (gather Gathered)

variable {xs ys us vs : List Node} {objects parts : List (Members Node)}

/-! ## Groups that cannot be told apart -/

/-- The same is inferred from two groups, whatever other values stand before and behind them. -/
structure Interchangeable (us vs : List Node) : Prop where
  /-- They have values of the same kinds. -/
  kinds : ∀ k, k ∈ us.map Node.kind ↔ k ∈ vs.map Node.kind
  /-- The same is inferred with the one and with the other. -/
  same : ∀ {before after : List Node}, (∀ node ∈ before ++ (us ++ after), node.WellFormed) →
    (∀ node ∈ before ++ (vs ++ after), node.WellFormed) →
      ofGroup (before ++ (us ++ after)) = ofGroup (before ++ (vs ++ after))

/-- A group has the kind of each of its values. -/
theorem kind_of_middle {before after : List Node} {kind : Node.Kind}
    (h : commonKind? (before ++ (us ++ after)) = some kind) {node : Node} (hnode : node ∈ us) :
    node.kind = kind :=
  Node.kind_of_commonKind? h (List.mem_append_right before (List.mem_append_left after hnode))

theorem valuesAt_middle (before after : List Node) (m : Members Node) (key : String) :
    valuesAt (before ++ ([.object m] ++ after)) key =
      valuesAt before key ++ (m.values key ++ valuesAt after key) := by
  rw [Node.valuesAt_append, Node.valuesAt_append, valuesAt_object]

namespace Interchangeable

/-- Groups with values of the same kinds are interchangeable if they are where, with those before and
behind, all values are of one kind: from others nothing is inferred. -/
theorem of_kinds (kinds : ∀ k, k ∈ us.map Node.kind ↔ k ∈ vs.map Node.kind)
    (same : ∀ before after kind, (∀ node ∈ before ++ (us ++ after), node.WellFormed) →
      (∀ node ∈ before ++ (vs ++ after), node.WellFormed) →
      commonKind? (before ++ (us ++ after)) = some kind →
      commonKind? (before ++ (vs ++ after)) = some kind →
        ofGroup (before ++ (us ++ after)) = ofGroup (before ++ (vs ++ after))) :
    Interchangeable us vs := by
  refine ⟨kinds, fun {before after} hus hvs => ?_⟩
  have hkind : commonKind? (before ++ (us ++ after)) = commonKind? (before ++ (vs ++ after)) := by
    refine Node.commonKind?_congr fun k => ?_
    simp only [List.map_append, List.mem_append, kinds]
  cases hgroup : commonKind? (before ++ (us ++ after)) with
  | none => rw [ofGroup_of_mixed hgroup, ofGroup_of_mixed (hkind ▸ hgroup)]
  | some kind => exact same before after kind hus hvs hgroup (hkind ▸ hgroup)

theorem ofGroup_eq (h : Interchangeable us vs) (hus : ∀ node ∈ us, node.WellFormed)
    (hvs : ∀ node ∈ vs, node.WellFormed) : ofGroup us = ofGroup vs := by
  have hsame : ofGroup ([] ++ (us ++ [])) = ofGroup ([] ++ (vs ++ [])) :=
    h.same (by simpa using hus) (by simpa using hvs)
  simpa using hsame

/-- Objects with the same values under each key. -/
theorem of_objects (hxs : commonKind? xs = some .object) (hys : commonKind? ys = some .object)
    (hvalues : ∀ key, valuesAt xs key = valuesAt ys key) : Interchangeable xs ys := by
  refine of_kinds ?_ ?_
  · intro k
    rw [mem_kinds_iff hxs, mem_kinds_iff hys]
  · intro before after kind hus hvs hgroup hother
    obtain ⟨hne, hobjects⟩ := Node.commonKind?_eq_some_iff.1 hxs
    obtain ⟨node, hnode⟩ := List.exists_mem_of_ne_nil _ hne
    obtain rfl : kind = .object :=
      (kind_of_middle hgroup hnode).symm.trans (hobjects node hnode)
    have hsame : ∀ key, valuesAt (before ++ (xs ++ after)) key =
        valuesAt (before ++ (ys ++ after)) key := by
      intro key
      simp only [Node.valuesAt_append, hvalues]
    refine ofGroup_congr hus hvs hgroup hother (fun key => ?_) (fun key => ?_)
    · rw [hsame]
    · rw [hsame]

/-- Others before and behind. -/
theorem append (h : Interchangeable us vs) (left right : List Node) :
    Interchangeable (left ++ (us ++ right)) (left ++ (vs ++ right)) := by
  constructor
  · intro k
    simp only [List.map_append, List.mem_append, h.kinds]
  · intro before after hus hvs
    have hassoc : ∀ ws : List Node, before ++ ((left ++ (ws ++ right)) ++ after) =
        (before ++ left) ++ (ws ++ (right ++ after)) := by
      intro ws
      simp only [List.append_assoc]
    rw [hassoc] at hus hvs ⊢
    rw [hassoc]
    exact h.same hus hvs

/-- The arrays of them. -/
theorem array (h : Interchangeable us vs) : Interchangeable [.array us] [.array vs] := by
  refine of_kinds (fun k => Iff.rfl) fun before after kind hus hvs hgroup hother => ?_
  obtain rfl : Node.Kind.array = kind := kind_of_middle hgroup (List.mem_singleton_self _)
  by_cases hlone : before = [] ∧ after = []
  · obtain ⟨rfl, rfl⟩ := hlone
    have hsame := h.ofGroup_eq (hus _ List.mem_cons_self).element
      (hvs _ List.mem_cons_self).element
    show ofGroup [.array us] = ofGroup [.array vs]
    rw [ofGroup_array, ofGroup_array, Node.commonKind?_congr h.kinds, hsame]
  · -- Among other arrays the elements of an array tell nothing.
    have hlength : ∀ node : Node, (before ++ ([node] ++ after)).length ≠ 1 := by
      intro node hone
      simp only [List.length_append, List.length_singleton] at hone
      refine hlone ⟨List.length_eq_zero_iff.1 ?_, List.length_eq_zero_iff.1 ?_⟩ <;> omega
    rw [ofGroup_arrays hgroup (hlength _), ofGroup_arrays hother (hlength _)]

/-- The objects that have them under a key. -/
theorem object (h : Interchangeable us vs) (front back : List (String × List Node)) (key : String) :
    Interchangeable [.object ⟨front ++ (key, us) :: back⟩]
      [.object ⟨front ++ (key, vs) :: back⟩] := by
  refine of_kinds (fun k => Iff.rfl) fun before after kind hus hvs hgroup hother => ?_
  obtain rfl : Node.Kind.object = kind := kind_of_middle hgroup (List.mem_singleton_self _)
  have hnil := Node.eq_nil_iff_of_kinds h.kinds
  -- Under the key the values are interchanged between those of the other objects.
  have hkey : ∀ k,
      (valuesAt (before ++ ([.object ⟨front ++ (key, us) :: back⟩] ++ after)) k = [] ↔
        valuesAt (before ++ ([.object ⟨front ++ (key, vs) :: back⟩] ++ after)) k = []) ∧
        ofGroup (valuesAt (before ++ ([.object ⟨front ++ (key, us) :: back⟩] ++ after)) k) =
          ofGroup (valuesAt (before ++ ([.object ⟨front ++ (key, vs) :: back⟩] ++ after)) k) := by
    intro k
    have hk := Node.WellFormed.valuesAt hus k
    have hk' := Node.WellFormed.valuesAt hvs k
    rw [valuesAt_middle] at hk hk'
    rw [valuesAt_middle, valuesAt_middle]
    rcases Replaced.values_cases us vs front back key k with ⟨hleft, hright⟩ | hsame
    · rw [hleft] at hk ⊢
      rw [hright] at hk' ⊢
      exact ⟨by simp only [List.append_eq_nil_iff, hnil], h.same hk hk'⟩
    · rw [hsame]
      exact ⟨Iff.rfl, rfl⟩
  exact ofGroup_congr hus hvs hgroup hother (fun k => (hkey k).1) fun k => (hkey k).2

/-- What they stand in, at any depth. -/
theorem replaced (h : Interchangeable xs ys) (hin : Replaced xs ys us vs) :
    Interchangeable us vs := by
  induction hin with
  | here => exact h
  | append before after _ ih => exact ih.append before after
  | array _ ih => exact ih.array
  | object before after key _ ih => exact ih.object before after key

/-- Documents, at their roots. -/
theorem ofRoot_eq {root other : Node} (h : Interchangeable [root] [other])
    (hroot : root.WellFormed) (hother : other.WellFormed) : ofRoot root = ofRoot other := by
  have hkind : root.kind = other.kind := by
    have hmem := (h.kinds root.kind).1 List.mem_cons_self
    simpa using hmem
  have hsame : ofGroup [root] = ofGroup [other] :=
    h.ofGroup_eq (List.forall_mem_singleton.2 hroot) (List.forall_mem_singleton.2 hother)
  rw [ofRoot, ofRoot, hkind, hsame]

end Interchangeable

/-! ## Objects in a document -/

/-- Gathering some objects changes nothing of what they have under a key. -/
theorem valuesAt_gathered (h : ∀ m ∈ objects, (Node.object m).WellFormed)
    (hparts : Gathered objects parts) (key : String) :
    valuesAt (parts.map .object) key = valuesAt (objects.map .object) key := by
  rw [Node.valuesAt_objects, Node.valuesAt_objects]
  exact hparts.flatMap_values (fun m hm => (h m hm).members) key

/-- What is inferred from objects is what is inferred from the one object with all their members. -/
theorem ofGroup_gather (hne : objects ≠ []) (h : ∀ m ∈ objects, (Node.object m).WellFormed) :
    ofGroup (objects.map .object) = ofGroup [.object (gather objects)] := by
  have hvalues : ∀ key, valuesAt (objects.map .object) key =
      valuesAt [.object (gather objects)] key := by
    intro key
    rw [Node.valuesAt_objects, valuesAt_object, Members.values_gather fun m hm => (h m hm).members]
  have hchange := Interchangeable.of_objects (commonKind?_objects hne) rfl hvalues
  exact hchange.ofGroup_eq (List.forall_mem_map.2 h) (List.forall_mem_singleton.2 (.gather h))

/-- It is the same if some of the objects have been gathered before. -/
theorem ofGroup_gathered (hne : objects ≠ []) (h : ∀ m ∈ objects, (Node.object m).WellFormed)
    (hparts : Gathered objects parts) :
    ofGroup (parts.map .object) = ofGroup [.object (gather objects)] := by
  have hne' : parts ≠ [] := fun hnil => hne (hparts.eq_nil_iff.1 hnil)
  rw [ofGroup_gather hne' (.gathered hparts h), hparts.gather_eq fun m hm => (h m hm).members]

/-- What is inferred wherever some objects are all the values of a place. -/
structure Gives (parts : List (Members Node)) (s : Inferred) : Prop where
  /-- From the objects themselves. -/
  place : ofGroup (parts.map .object) = s
  /-- From a document that is the array of them. -/
  array : ofRoot (.array (parts.map .object)) = .ok (slice s)
  /-- From a document that has them under a key, for that key. -/
  key : ∀ m key, (Node.object m).WellFormed → m.values key = parts.map .object →
    ∃ fields, ofRoot (.object m) = .ok (struct fields) ∧ Field.valueAt? fields key = some s
  /-- From objects anywhere in a document that have them, or the array of them, under a key. -/
  inner : ∀ group, commonKind? group = some .object → (∀ node ∈ group, node.WellFormed) →
    ∃ fields, ofGroup group = struct fields ∧ ∀ key,
      (valuesAt group key = parts.map .object → Field.valueAt? fields key = some s) ∧
        (valuesAt group key = [.array (parts.map .object)] →
          Field.valueAt? fields key = some (slice s))

theorem ofGroup_array_objects (hne : objects ≠ []) :
    ofGroup [.array (objects.map .object)] = slice (ofGroup (objects.map .object)) := by
  have hkind : commonKind? (objects.map .object) ≠ some .array := by
    rw [commonKind?_objects hne]
    exact nofun
  rw [ofGroup_array, if_neg hkind]

/-- Objects give what is inferred from them. -/
theorem gives_ofGroup (hne : objects ≠ []) : Gives objects (ofGroup (objects.map .object)) := by
  have hnil : objects.map Node.object ≠ [] := by simpa using hne
  have hinner : ∀ group, commonKind? group = some .object → (∀ node ∈ group, node.WellFormed) →
      ∃ fields, ofGroup group = struct fields ∧ ∀ key,
        (valuesAt group key = objects.map .object →
          Field.valueAt? fields key = some (ofGroup (objects.map .object))) ∧
          (valuesAt group key = [.array (objects.map .object)] →
            Field.valueAt? fields key = some (slice (ofGroup (objects.map .object)))) := by
    intro group hkind hwf
    obtain ⟨fields, hfields, hvalues⟩ := ofGroup_objects hkind hwf
    refine ⟨fields, hfields, fun key => ⟨fun hkey => ?_, fun hkey => ?_⟩⟩
    · rw [hvalues, hkey, if_neg hnil]
    · rw [hvalues, hkey, if_neg (List.cons_ne_nil _ _), ofGroup_array_objects hne]
  refine ⟨rfl, ?_, fun m key hwf hkey => ?_, hinner⟩
  · rw [ofRoot_eq_ok (Or.inr rfl), ofGroup_array_objects hne]
  · obtain ⟨fields, hfields, hvalues⟩ := hinner [.object m] rfl (List.forall_mem_singleton.2 hwf)
    refine ⟨fields, ?_, (hvalues key).1 ?_⟩
    · rw [ofRoot_eq_ok (Or.inl rfl), hfields]
    · rw [valuesAt_object, hkey]

/-- The objects of a place may be gathered, all of them or group by group.  The one object that has
all their members, the values of a key and the elements of an array give the same struct; and from a
document in which they stand at some depth the same is inferred if they are gathered there. -/
theorem ofRoot_gather {objects : List (Members Node)} (hne : objects ≠ [])
    (hwf : ∀ m ∈ objects, (Node.object m).WellFormed) :
    ∃ s, ofRoot (.object (gather objects)) = .ok s ∧ ∀ parts, Gathered objects parts →
      Gives parts s ∧ ∀ root other, root.WellFormed →
        Replaced (objects.map .object) (parts.map .object) [root] [other] →
          ofRoot root = ofRoot other := by
  refine ⟨ofGroup [.object (gather objects)], ofRoot_eq_ok (Or.inl rfl), fun parts hparts => ?_⟩
  have hne' : parts ≠ [] := fun hnil => hne (hparts.eq_nil_iff.1 hnil)
  refine ⟨?_, fun root other hroot hin => ?_⟩
  · rw [← ofGroup_gathered hne hwf hparts]
    exact gives_ofGroup hne'
  · have hchange : Interchangeable (objects.map .object) (parts.map .object) :=
      .of_objects (commonKind?_objects hne) (commonKind?_objects hne') fun key =>
        (valuesAt_gathered hwf hparts key).symm
    have hother := hin.wellFormed (by simp [hne, hne'])
      (List.forall_mem_map.2 (.gathered hparts hwf)) (List.forall_mem_singleton.2 hroot)
    exact (hchange.replaced hin).ofRoot_eq hroot (List.forall_mem_singleton.1 hother)

/-- Two objects that share a key. -/
def sharedPair : List (Members Node) :=
  [.ofPairs [("a", .primitive .integer)],
    .ofPairs [("a", .array []), ("b", .object (.ofPairs [("a", .primitive .null)]))]]

theorem sharedPair_wellFormed : ∀ m ∈ sharedPair, (Node.object m).WellFormed := by
  refine List.forall_mem_cons.2 ⟨.ofPairs ?_, List.forall_mem_singleton.2 (.ofPairs ?_)⟩
  · exact List.forall_mem_singleton.2 (.primitive _)
  · refine List.forall_mem_cons.2 ⟨.array ?_, List.forall_mem_singleton.2 (.ofPairs ?_)⟩
    · exact fun element helement => absurd helement List.not_mem_nil
    · exact List.forall_mem_singleton.2 (.primitive _)

theorem ofRoot_gather_sharedPair :
    sharedPair ≠ [] ∧ (∀ m ∈ sharedPair, (Node.object m).WellFormed) ∧
      ∃ s, ofRoot (.object (gather sharedPair)) = .ok s ∧ ∀ parts, Gathered sharedPair parts →
        Gives parts s ∧ ∀ root other, root.WellFormed →
          Replaced (sharedPair.map .object) (parts.map .object) [root] [other] →
            ofRoot root = ofRoot other :=
  ⟨List.cons_ne_nil _ _, sharedPair_wellFormed,
    ofRoot_gather (List.cons_ne_nil _ _) sharedPair_wellFormed⟩

end Inferred

end JsonShape
