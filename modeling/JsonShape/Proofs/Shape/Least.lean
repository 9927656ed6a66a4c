import JsonShape.Proofs.Shape.Accepts

/-!
# Inferred shapes are minimal

Inference gives up an element type on purpose in three places: for an array without elements, for
arrays in an array, and for several arrays that share a place.  Everywhere else it says as much as
the document does: no shape below the inferred one accepts the document.

* `Le` — one shape allows no more than another; identifiers do not count.
* `Node.SharePlace` — the groups of values that get one shape, and `Node.Telling`: the documents
  without the three exceptions.
* `ofGroup_le` — the shape of a group lies below every shape that accepts the group.
* `exists_ofRoot_least` — the inferred shape is the least one that accepts the document.
-/

namespace JsonShape

namespace Shape

/-! ## The order of shapes -/

/-- One shape allows no more than another.  A struct may only gain fields and widen those it has. -/
inductive Le : Shape → Shape → Prop
  /-- Everything lies below the shape that allows everything. -/
  | any (shape : Shape) : Le shape .any
  /-- Truth values. -/
  | bool : Le .bool .bool
  /-- Numbers without fraction and exponent. -/
  | integer : Le .integer .integer
  /-- Other numbers. -/
  | float : Le .float .float
  /-- Strings. -/
  | string : Le .string .string
  /-- Lists, by their elements. -/
  | slice {s t : Shape} (element : Le s t) : Le (.slice s) (.slice t)
  /-- Structs, key by key. -/
  | struct {fields others : List (Field Shape)}
      (known : ∀ key, (Field.valueAt? fields key).isSome → (Field.valueAt? others key).isSome)
      (below : ∀ key s t, Field.valueAt? fields key = some s → Field.valueAt? others key = some t →
        Le s t) : Le (.struct fields) (.struct others)

end Shape

namespace Node

/-! ## Values that share a place -/

/-- The groups of values of a document that are given one shape: the document itself, the elements
of an array that is alone in its place, and the values that all objects of one place have under a
key. -/
inductive SharePlace (root : Node) : List Node → Prop
  /-- The document. -/
  | root : SharePlace root [root]
  /-- The elements of an array. -/
  | elements {elements : List Node} (outer : SharePlace root [.array elements]) :
      SharePlace root elements
  /-- The values under a key of objects that are merged with each other. -/
  | values {group : List Node} (outer : SharePlace root group)
      (objects : ∀ node ∈ group, node.kind = .object) (key : String) :
      SharePlace root (valuesAt group key)

/-- The documents that tell the shape of all their elements. -/
structure Telling (root : Node) : Prop where
  /-- No array is empty. -/
  filled : ∀ elements, Within root (.array elements) → elements ≠ []
  /-- No array is an element of an array. -/
  flat : ∀ elements, Within root (.array elements) → ∀ node ∈ elements, node.kind ≠ .array
  /-- No two arrays share a place. -/
  lone : ∀ group, SharePlace root group → (group.filter fun node => node.kind = .array).length ≤ 1

theorem SharePlace.within {root : Node} {group : List Node} (h : SharePlace root group) :
    ∀ node ∈ group, Within root node := by
  induction h with
  | root =>
    intro node hnode
    rw [List.mem_singleton.1 hnode]
    exact .self
  | elements outer ih =>
    intro node hnode
    exact .element (ih _ (List.mem_singleton_self _)) hnode
  | values outer objects key ih =>
    intro node hnode
    obtain ⟨members, hmembers, hvalue⟩ := mem_valuesAt.1 hnode
    exact .value (ih _ hmembers) hvalue

end Node

namespace Shape

/-! ## What an accepting shape must be -/

/-- Only the shape that allows everything accepts values of two kinds. -/
theorem Accepts.eq_any {shape : Shape} {a b : Node} (ha : shape.Accepts a) (hb : shape.Accepts b)
    (hkind : a.kind ≠ b.kind) : shape = .any := by
  cases ha with
  | any => rfl
  | bool => cases hb; exact absurd rfl hkind
  | integer => cases hb; exact absurd rfl hkind
  | float => cases hb; exact absurd rfl hkind
  | string => cases hb; exact absurd rfl hkind
  | slice fit => cases hb; exact absurd rfl hkind
  | struct known fit => cases hb; exact absurd rfl hkind

theorem Accepts.ofPrimitive_le {shape : Shape} {type : Primitive}
    (h : shape.Accepts (.primitive type)) : (ofPrimitive type).Le shape := by
  cases h with
  | any => exact .any _
  | bool => exact .bool
  | integer => exact .integer
  | float => exact .float
  | string => exact .string

/-! ## The shape of a group is the least one -/

/-- The shape of a group lies below every shape that accepts the whole group. -/
theorem ofGroup_le {root : Node} (htell : root.Telling) (group : List Node)
    (hplace : root.SharePlace group) (h : ∀ node ∈ group, node.WellFormed) (hne : group ≠ [])
    {shape : Shape} (haccepts : ∀ node ∈ group, shape.Accepts node) :
    (ofGroup group).Le shape := by
  induction group using Node.group_induction generalizing shape with
  | mixed group hkind =>
    obtain ⟨a, ha, b, hb, hab⟩ := Node.commonKind?_eq_none hkind hne
    rw [(haccepts a ha).eq_any (haccepts b hb) hab]
    exact .any _
  | primitive group type hkind =>
    obtain ⟨node, hnode⟩ := List.exists_mem_of_ne_nil _ hne
    have hprim := Node.kind_eq_primitive_iff.1 (Node.kind_of_commonKind? hkind hnode)
    rw [ofGroup_of_primitive hkind]
    exact (hprim ▸ haccepts node hnode).ofPrimitive_le
  | array elements ih =>
    have hwithin := hplace.within _ (List.mem_singleton_self _)
    have hfilled := htell.filled elements hwithin
    have hkind : Node.commonKind? elements ≠ some .array := by
      intro hkind
      obtain ⟨node, hnode⟩ := List.exists_mem_of_ne_nil _ hfilled
      exact htell.flat elements hwithin node hnode (Node.kind_of_commonKind? hkind hnode)
    rw [ofGroup_array, if_neg hkind]
    cases haccepts _ (List.mem_singleton_self _) with
    | any => exact .any _
    | slice fit =>
      exact .slice (ih hplace.elements (h _ (List.mem_singleton_self _)).element hfilled fit)
  | arrays group hkind hlen =>
    have hall : (group.filter fun node => node.kind = .array) = group :=
      List.filter_eq_self.2 fun node hnode =>
        decide_eq_true (Node.kind_of_commonKind? hkind hnode)
    have hle := htell.lone group hplace
    have hpos := List.length_pos_iff.2 hne
    rw [hall] at hle
    omega
  | objects group hkind ih =>
    obtain ⟨fields, hshape, hfields⟩ := ofGroup_objects hkind h
    have hobjects : ∀ node ∈ group, node.kind = .object := fun node hnode =>
      Node.kind_of_commonKind? hkind hnode
    rw [hshape]
    obtain ⟨node, hnode⟩ := List.exists_mem_of_ne_nil _ hne
    obtain ⟨members, rfl⟩ := Node.kind_eq_object_iff.1 (hobjects node hnode)
    cases haccepts _ hnode with
    | any => exact .any _
    | @struct others _ known fit =>
      -- A key of the struct has a value in one of the objects, so the other struct knows the key
      -- too; and what it has for the key accepts the values of all objects.
      refine .struct (fun key hkey => ?_) (fun key s t hs ht => ?_)
      · have hvalues : Node.valuesAt group key ≠ [] := by
          intro hnil
          rw [hfields, if_pos hnil] at hkey
          cases hkey
        obtain ⟨value, hvalue⟩ := List.exists_mem_of_ne_nil _ hvalues
        obtain ⟨own, hown, hmem⟩ := Node.mem_valuesAt.1 hvalue
        have hentry : (key, own.values key) ∈ own.entries :=
          (Members.mem_entries_iff (h _ hown).members).2 ⟨rfl, List.ne_nil_of_mem hmem⟩
        cases haccepts _ hown with
        | struct known fit => exact known key (List.mem_map.2 ⟨_, hentry, rfl⟩)
      · rw [hfields] at hs
        split at hs
        · cases hs
        · rename_i hvalues
          cases hs
          refine ih key (hplace.values hobjects key) (Node.WellFormed.valuesAt h key) hvalues ?_
          intro value hvalue
          obtain ⟨own, hown, hmem⟩ := Node.mem_valuesAt.1 hvalue
          cases haccepts _ hown with
          | struct known fit => exact fit key t ht value hmem

/-- A document that tells the shape of all its elements has a least shape that accepts it, which is
the inferred one. -/
theorem exists_ofRoot_least {root : Node} (hkind : root.kind = .object ∨ root.kind = .array)
    (h : root.WellFormed) (htell : root.Telling) :
    ∃ shape, ofRoot root = .ok shape ∧ shape.Accepts root ∧
      ∀ other, Accepts other root → shape.Le other := by
  have hgroup : ∀ node ∈ [root], node.WellFormed := by simpa using h
  refine ⟨ofGroup [root], ofRoot_eq_ok hkind, ?_, fun other hother => ?_⟩
  · exact accepts_ofGroup [root] hgroup root (List.mem_singleton_self root)
  · exact ofGroup_le htell [root] .root hgroup (List.cons_ne_nil _ _) (by simpa using hother)

/-- Two objects that share one key and differ in another. -/
def sharedKey : List Node :=
  [.object (.ofPairs [("a", .primitive .null), ("b", .primitive .integer)]),
   .object (.ofPairs [("a", .primitive .string)])]

theorem sharedKey_wellFormed : (Node.array sharedKey).WellFormed := by
  refine .array (List.forall_mem_cons.2 ⟨.ofPairs ?_, List.forall_mem_singleton.2 (.ofPairs ?_)⟩)
  · exact List.forall_mem_cons.2 ⟨.primitive _, List.forall_mem_singleton.2 (.primitive _)⟩
  · exact List.forall_mem_singleton.2 (.primitive _)

theorem sharedKey_values {members : Members Node} {key : String} {value : Node}
    (hmembers : Node.object members ∈ sharedKey) (hvalue : value ∈ members.values key) :
    ∃ type, value = .primitive type := by
  have hpairs : ∀ pairs : List (String × Node), (∀ pair ∈ pairs, ∃ type, pair.2 = .primitive type) →
      value ∈ (Members.ofPairs pairs).values key → ∃ type, value = .primitive type := by
    intro pairs hprim hmem
    rw [Members.values_ofPairs] at hmem
    obtain ⟨pair, hpair, heq⟩ := List.mem_filterMap.1 hmem
    split at heq
    · cases heq
      exact hprim pair hpair
    · cases heq
  simp only [sharedKey, List.mem_cons, List.not_mem_nil, or_false, Node.object.injEq] at hmembers
  rcases hmembers with rfl | rfl
  · exact hpairs _ (by simp) hvalue
  · exact hpairs _ (by simp) hvalue

theorem sharedKey_within {node : Node} (h : (Node.array sharedKey).Within node) :
    node = .array sharedKey ∨ node ∈ sharedKey ∨ ∃ type, node = .primitive type := by
  induction h with
  | self => exact Or.inl rfl
  | element outer mem ih =>
    rcases ih with ih | ih | ⟨type, ih⟩
    · cases ih
      exact Or.inr (Or.inl mem)
    · simp [sharedKey] at ih
    · cases ih
  | value outer mem ih =>
    rcases ih with ih | ih | ⟨type, ih⟩
    · cases ih
    · exact Or.inr (Or.inr (sharedKey_values ih mem))
    · cases ih

theorem sharedKey_array {elements : List Node}
    (h : (Node.array sharedKey).Within (.array elements)) : elements = sharedKey := by
  rcases sharedKey_within h with h | h | ⟨type, h⟩
  · exact Node.array.inj h
  · simp [sharedKey] at h
  · cases h

theorem sharedKey_sharePlace {group : List Node} (h : (Node.array sharedKey).SharePlace group) :
    group = [.array sharedKey] ∨ group = sharedKey ∨
      ∀ node ∈ group, ∃ type, node = .primitive type := by
  induction h with
  | root => exact Or.inl rfl
  | elements outer ih =>
    exact Or.inr (Or.inl (sharedKey_array (outer.within _ (List.mem_singleton_self _))))
  | values outer objects key ih =>
    refine Or.inr (Or.inr fun node hnode => ?_)
    obtain ⟨members, hmembers, hvalue⟩ := Node.mem_valuesAt.1 hnode
    rcases ih with rfl | rfl | ih
    · cases objects _ (List.mem_singleton_self _)
    · exact sharedKey_values hmembers hvalue
    · obtain ⟨type, htype⟩ := ih _ hmembers
      cases htype

theorem sharedKey_telling : (Node.array sharedKey).Telling := by
  constructor
  · intro elements helements
    rw [sharedKey_array helements]
    exact List.cons_ne_nil _ _
  · intro elements helements node hnode
    rw [sharedKey_array helements] at hnode
    simp only [sharedKey, List.mem_cons, List.not_mem_nil, or_false] at hnode
    rcases hnode with rfl | rfl <;> exact fun hkind => by cases hkind
  · intro group hgroup
    rcases sharedKey_sharePlace hgroup with rfl | rfl | hprim
    · exact Nat.le_refl 1
    · exact Nat.zero_le 1
    · have hnone : (group.filter fun node => node.kind = .array) = [] := by
        refine List.filter_eq_nil_iff.2 fun node hnode => ?_
        obtain ⟨type, rfl⟩ := hprim node hnode
        exact fun hkind => by cases of_decide_eq_true hkind
      rw [hnone]
      exact Nat.zero_le 1

theorem exists_ofRoot_least_sharedKey :
    (Node.array sharedKey).WellFormed ∧ (Node.array sharedKey).Telling ∧
      ∃ shape, ofRoot (.array sharedKey) = .ok shape ∧ shape.Accepts (.array sharedKey) ∧
        ∀ other, Accepts other (.array sharedKey) → shape.Le other :=
  ⟨sharedKey_wellFormed, sharedKey_telling,
    exists_ofRoot_least (Or.inr rfl) sharedKey_wellFormed sharedKey_telling⟩

end Shape

end JsonShape
