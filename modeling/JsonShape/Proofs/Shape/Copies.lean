import JsonShape.Proofs.Shape.Structs

/-!
# Copies of an object

Merging an object with copies of itself forgets one thing only: what is in the lists that its keys
have.  Two lists under a key are not compared, whether they are the same or not, so of a list that
has been merged no more is known than that it is one.  Everything else stays, the names of the
fields included, and further copies change nothing.

* `Shape.openLists` — a shape whose lists may hold anything, as far as structs reach.
* `ofGroup_copies` — what is inferred from a group and at least one copy of it.
* `openLists_eq_self_iff` — the shapes that have nothing to forget.
* `ofRoot_copies` — an array of copies of an object, and a key that has them.
-/

namespace JsonShape

namespace Node

/-! ## Copies of a group -/

/-- The values of a group, so many times one behind the other. -/
def copies (n : Nat) (group : List Node) : List Node := (List.replicate n group).flatten

theorem copies_singleton (n : Nat) (node : Node) : copies n [node] = List.replicate n node :=
  List.flatten_replicate_singleton

theorem length_copies (n : Nat) (group : List Node) :
    (copies n group).length = n * group.length := by
  simp [copies]

theorem mem_copies {n : Nat} {group : List Node} {node : Node} (h : node ∈ copies n group) :
    node ∈ group := by
  simp only [copies, List.mem_flatten, List.mem_replicate] at h
  obtain ⟨_, ⟨-, rfl⟩, hnode⟩ := h
  exact hnode

/-- Copies have no other kinds than the group. -/
theorem commonKind?_copies {n : Nat} (hn : n ≠ 0) (group : List Node) :
    commonKind? (copies n group) = commonKind? group := by
  apply commonKind?_congr
  intro k
  simp [copies, hn]

/-- Copies of some objects have copies of their values under each key. -/
theorem valuesAt_copies (n : Nat) (group : List Node) (key : String) :
    valuesAt (copies n group) key = copies n (valuesAt group key) := by
  induction n with
  | zero => rfl
  | succ n ih =>
    have hmore : ∀ values, copies (n + 1) values = values ++ copies n values := by
      intro values
      simp [copies, List.replicate_succ]
    rw [hmore, hmore, valuesAt_append, ih]

end Node

namespace Shape

open Node (commonKind? copies mergeObjects valuesAt)

variable {n : Nat} {group : List Node} {m : Members Node} {path : List Step} {part : Shape}

/-! ## Lists that may hold anything -/

/-- The shape with nothing known about the elements of its lists: those that are fields, at any depth
of structs.  Lists inside lists are gone with the elements. -/
def openLists : Shape → Shape
  | slice _ => slice any
  | struct fields => struct (inFields fields)
  | shape => shape
where
  /-- The fields with nothing known about the elements of their lists. -/
  inFields : List (Field Shape) → List (Field Shape)
    | [] => []
    | ⟨ident, key, shape⟩ :: rest => ⟨ident, key, openLists shape⟩ :: inFields rest

theorem inFields_eq_map (fields : List (Field Shape)) :
    openLists.inFields fields = fields.map (Field.map openLists) := by
  induction fields with
  | nil => rfl
  | cons field rest ih =>
    rw [openLists.inFields, ih]
    rfl

theorem inFields_eq_self_iff (fields : List (Field Shape)) :
    openLists.inFields fields = fields ↔ ∀ field ∈ fields, field.value.openLists = field.value := by
  induction fields with
  | nil => simp [openLists.inFields]
  | cons field rest ih =>
    cases field
    simp [openLists.inFields, ih]

@[simp] theorem openLists_any : openLists any = any := rfl

@[simp] theorem openLists_slice (element : Shape) : openLists (slice element) = slice any := rfl

@[simp] theorem openLists_ofPrimitive (type : Primitive) :
    openLists (ofPrimitive type) = ofPrimitive type := by
  cases type <;> rfl

/-- What stands in a field stands in the struct, one step further in. -/
theorem PartAt.in_field {fields : List (Field Shape)} {field : Field Shape} (hfield : field ∈ fields)
    (h : field.value.PartAt path part) :
    (struct fields).PartAt (path ++ [.key field.key]) part := by
  induction h with
  | whole => exact .field .whole hfield
  | elements _ ih => exact .elements ih
  | field _ mem ih => exact .field ih mem

/-- A shape has nothing to forget exactly if all of its lists, as far as structs reach, may already
hold anything. -/
theorem openLists_eq_self_iff (shape : Shape) : shape.openLists = shape ↔
    ∀ path element, .elements ∉ path → shape.PartAt path (.slice element) → element = .any := by
  constructor
  · intro h path element hpath hpart
    -- Every part in a struct that has nothing to forget has nothing to forget either.
    have hself : ∀ {path part}, .elements ∉ path → shape.PartAt path part →
        part.openLists = part := by
      intro path part hpath hpart
      induction hpart with
      | whole => exact h
      | elements => simp at hpath
      | @field path fields field outer mem ih =>
        have hfields := ih fun hmem => hpath (List.mem_cons_of_mem _ hmem)
        rw [openLists, struct.injEq, inFields_eq_self_iff] at hfields
        exact hfields field mem
    exact (slice.inj (hself hpath hpart)).symm
  · intro h
    induction shape using openLists.induct (motive_1 := fun fields => ∀ field ∈ fields,
      (∀ path element, .elements ∉ path → field.value.PartAt path (.slice element) →
        element = .any) → field.value.openLists = field.value) with
    | case1 element => rw [openLists_slice, h [] element List.not_mem_nil .whole]
    | case2 fields ih =>
      rw [openLists, struct.injEq, inFields_eq_self_iff]
      intro field hfield
      exact ih field hfield fun path element hpath hpart =>
        h _ element (by simpa using hpath) (hpart.in_field hfield)
    | case3 shape hslice hstruct =>
      cases shape with
      | slice element => exact absurd rfl (hslice element)
      | struct fields => exact absurd rfl (hstruct fields)
      | _ => rfl
    | case4 field hfield => exact absurd hfield List.not_mem_nil
    | case5 ident key shape rest ih ihrest field hfield hlists =>
      rcases List.mem_cons.1 hfield with rfl | hfield
      · exact ih hlists
      · exact ihrest field hfield hlists

/-! ## What is inferred from copies -/

/-- From a group and at least one copy of it the same is inferred as from the group alone, but for
the elements of lists. -/
theorem ofGroup_copies (hn : 2 ≤ n) (h : ∀ node ∈ group, node.WellFormed) :
    ofGroup (copies n group) = (ofGroup group).openLists := by
  have hkinds := Node.commonKind?_copies (n := n) (by omega)
  induction group using Node.group_induction with
  | mixed group hkind =>
    rw [ofGroup_of_mixed hkind, ofGroup_of_mixed ((hkinds group).trans hkind), openLists_any]
  | primitive group type hkind =>
    rw [ofGroup_of_primitive hkind, ofGroup_of_primitive ((hkinds group).trans hkind),
      openLists_ofPrimitive]
  | array elements =>
    -- A single array has company now.
    have hlength : (copies n [.array elements]).length ≠ 1 := by
      simp only [Node.length_copies, List.length_singleton]
      omega
    rw [ofGroup_array, ofGroup_arrays ((hkinds _).trans rfl) hlength, openLists_slice]
  | arrays group hkind hlen =>
    have hlength : (copies n group).length ≠ 1 := by
      rw [Node.length_copies]
      intro hone
      exact hlen (Nat.eq_one_of_mul_eq_one_left hone)
    rw [ofGroup_arrays hkind hlen, ofGroup_arrays ((hkinds group).trans hkind) hlength,
      openLists_slice]
  | objects group hkind ih =>
    have hcopies : ∀ node ∈ copies n group, node.WellFormed := by
      intro node hnode
      exact h node (Node.mem_copies hnode)
    have hvalues : ∀ key, ofGroup (valuesAt (copies n group) key) =
        (ofGroup (valuesAt group key)).openLists := by
      intro key
      rw [Node.valuesAt_copies]
      exact ih key (Node.WellFormed.valuesAt h key)
    have hkeys : (mergeObjects (copies n group)).keys = (mergeObjects group).keys := by
      refine Inferred.keys_mergeObjects hcopies h fun key => ?_
      rw [Node.valuesAt_copies, ← List.length_eq_zero_iff, ← List.length_eq_zero_iff,
        Node.length_copies, Nat.mul_eq_zero]
      omega
    rw [ofGroup_of_object hkind, ofGroup_of_object ((hkinds group).trans hkind),
      Inferred.entries_mergeObjects h, Inferred.entries_mergeObjects hcopies, hkeys, openLists,
      inFields_eq_map]
    simp only [hvalues]
    rw [Naming.fields, Naming.fields, ← Naming.fieldsFrom_map, List.map_map]
    rfl

/-- What is inferred from an object and copies of it, where they are all the values of a place. -/
theorem ofGroup_replicate (hn : 1 ≤ n) (hwf : (Node.object m).WellFormed) :
    ofGroup (List.replicate n (.object m)) =
      if n = 1 then ofGroup [.object m] else (ofGroup [.object m]).openLists := by
  rw [← Node.copies_singleton]
  split
  · rename_i hone
    rw [hone, Node.copies_singleton, List.replicate_one]
  · exact ofGroup_copies (by omega) (List.forall_mem_singleton.2 hwf)

/-- An array of copies of an object is a list of what is inferred from them. -/
theorem ofRoot_array_replicate (hn : 1 ≤ n) : ofRoot (.array (List.replicate n (.object m))) =
    .ok (.slice (ofGroup (List.replicate n (.object m)))) := by
  have hkind : commonKind? (List.replicate n (Node.object m)) = some .object := by
    rw [← Node.copies_singleton, Node.commonKind?_copies (by omega)]
    rfl
  rw [ofRoot_eq_ok (Or.inr rfl), ofGroup_array, if_neg (by simp [hkind])]

/-- Objects that have an object and copies of it under a key have a field for it, with what is
inferred from them. -/
theorem valueAt?_replicate {key : String} (hn : 1 ≤ n) (hkind : commonKind? group = some .object)
    (hgroup : ∀ node ∈ group, node.WellFormed)
    (hkey : valuesAt group key = List.replicate n (.object m)) :
    ∃ fields, ofGroup group = .struct fields ∧
      Field.valueAt? fields key = some (ofGroup (List.replicate n (.object m))) := by
  obtain ⟨fields, hfields, hvalues⟩ := ofGroup_objects hkind hgroup
  have hne : valuesAt group key ≠ [] := by
    rw [hkey, ne_eq, List.replicate_eq_nil_iff]
    omega
  exact ⟨fields, hfields, by rw [hvalues, if_neg hne, hkey]⟩

/-- An array of an object and copies of it has the shape of the array of the object alone, and a key
that is repeated with it has the shape of the key that is not, but for the elements of lists: those
that are fields of the object, at any depth of structs, may hold anything.  So it is the same shape
for any number of copies, and it is that of the object alone exactly if there was nothing known about
the elements of such a list. -/
theorem ofRoot_copies (hwf : (Node.object m).WellFormed) :
    ∃ shape, ofRoot (.array [.object m]) = .ok (.slice shape) ∧
      (∀ n, 2 ≤ n → ofRoot (.array (List.replicate n (.object m))) =
        .ok (.slice shape.openLists)) ∧
      (∀ n group key, 1 ≤ n → commonKind? group = some .object →
        (∀ node ∈ group, node.WellFormed) → valuesAt group key = List.replicate n (.object m) →
          ∃ fields, ofGroup group = .struct fields ∧ Field.valueAt? fields key =
            some (if n = 1 then shape else shape.openLists)) ∧
      (shape.openLists = shape ↔ ∀ path element, .elements ∉ path →
        shape.PartAt path (.slice element) → element = .any) := by
  refine ⟨ofGroup [.object m], ofRoot_array_replicate (Nat.le_refl 1), fun n hn => ?_,
    fun n group key hn hkind hgroup hkey => ?_, openLists_eq_self_iff _⟩
  · have hone : n ≠ 1 := by omega
    rw [ofRoot_array_replicate (by omega), ofGroup_replicate (by omega) hwf, if_neg hone]
  · rw [← ofGroup_replicate hn hwf]
    exact valueAt?_replicate hn hkind hgroup hkey

/-- An object with a list that holds numbers and one that is empty. -/
def twoLists : Members Node :=
  .ofPairs [("a", .object (.ofPairs [("x", .array [.primitive .integer])])), ("b", .array [])]

theorem twoLists_wellFormed : (Node.object twoLists).WellFormed := by
  refine .ofPairs (List.forall_mem_cons.2 ⟨.ofPairs ?_, List.forall_mem_singleton.2 (.array ?_)⟩)
  · refine List.forall_mem_singleton.2 (.array ?_)
    exact List.forall_mem_singleton.2 (.primitive _)
  · exact fun element helement => absurd helement List.not_mem_nil

theorem ofRoot_copies_twoLists : (Node.object twoLists).WellFormed ∧
    ∃ shape, ofRoot (.array [.object twoLists]) = .ok (.slice shape) ∧
      (∀ n, 2 ≤ n → ofRoot (.array (List.replicate n (.object twoLists))) =
        .ok (.slice shape.openLists)) ∧
      (∀ n group key, 1 ≤ n → commonKind? group = some .object →
        (∀ node ∈ group, node.WellFormed) →
          valuesAt group key = List.replicate n (.object twoLists) →
            ∃ fields, ofGroup group = .struct fields ∧ Field.valueAt? fields key =
              some (if n = 1 then shape else shape.openLists)) ∧
      (shape.openLists = shape ↔ ∀ path element, .elements ∉ path →
        shape.PartAt path (.slice element) → element = .any) :=
  ⟨twoLists_wellFormed, ofRoot_copies twoLists_wellFormed⟩

/-- An object with a list of numbers under its only key. -/
def listUnderKey : Members Node := Members.empty.push "k" (.array [.primitive .integer])

/-- The list of numbers is a list of anything once it has been merged with its copy. -/
theorem ofRoot_copies_ne :
    ofRoot (.array [.object listUnderKey]) = .ok (.slice (.struct [⟨"K", "k", .slice .integer⟩])) ∧
      ofRoot (.array (List.replicate 2 (.object listUnderKey))) =
        .ok (.slice (.struct [⟨"K", "k", .slice .any⟩])) ∧
      ofRoot (.array (List.replicate 2 (.object listUnderKey))) ≠ ofRoot (.array [.object listUnderKey]) := by
  have hname : Naming.claim [] "k" = "K" := by decide +kernel
  have hnumbers : ofGroup [.array [.primitive .integer]] = .slice .integer := by
    rw [ofGroup_array, if_neg (by decide), ofGroup_of_primitive rfl]
    rfl
  have hlists : ofGroup [.array [.primitive .integer], .array [.primitive .integer]] =
      .slice .any := ofGroup_arrays rfl (by decide)
  have hone : ofGroup [.object listUnderKey] =
      .struct (Naming.fields [("k", ofGroup [.array [.primitive .integer]])]) :=
    ofGroup_of_object rfl
  have htwo : ofGroup [.object listUnderKey, .object listUnderKey] = .struct (Naming.fields
      [("k", ofGroup [.array [.primitive .integer], .array [.primitive .integer]])]) :=
    ofGroup_of_object rfl
  rw [hnumbers, Naming.fields, Naming.fieldsFrom, Naming.fieldsFrom, hname] at hone
  rw [hlists, Naming.fields, Naming.fieldsFrom, Naming.fieldsFrom, hname] at htwo
  have halone : ofRoot (.array [.object listUnderKey]) =
      .ok (.slice (.struct [⟨"K", "k", .slice .integer⟩])) := by
    rw [← hone]
    exact ofRoot_array_replicate (Nat.le_refl 1)
  have htwice : ofRoot (.array (List.replicate 2 (.object listUnderKey))) =
      .ok (.slice (.struct [⟨"K", "k", .slice .any⟩])) := by
    rw [← htwo]
    exact ofRoot_array_replicate (Nat.le_succ 1)
  refine ⟨halone, htwice, ?_⟩
  rw [halone, htwice]
  simp

end Shape

end JsonShape
