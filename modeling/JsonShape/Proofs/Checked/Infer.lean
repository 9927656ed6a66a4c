import Mathlib.Data.Finset.Card
import JsonShape.Proofs.Checked.Names
import JsonShape.Proofs.Shape.Structs

/-!
# Shapes by checked access

Infers shapes by recursion from one value into the next, with the kinds of the values of a place
counted.  There must be a value where one is asked for a shape, a first element where the elements
are of one kind, and nothing but objects where objects are merged; else there is nothing.  None of
it is ever missing, and the shapes are those that are inferred from groups, unless sums are checked
and a number behind a name overflows.

* `kindCount_eq_one_iff`, `one_lt_kindCount_iff` — what the number of kinds tells.
* `NumbersFit` — the numbers behind the names of a shape do not overflow.
* `unify?`, `node?`, `list?`, `struct?` — the values of a key, one value, an array, and objects.
* `checks`, `ofRoot?_eq_some_iff` — they give the shapes of the groups, and that of a whole document.
-/

namespace JsonShape

namespace Node

variable {group : List Node}

/-! ## Counting kinds -/

/-- The number of kinds that some values are of. -/
def kindCount (group : List Node) : Nat := (group.map kind).toFinset.card

theorem kindCount_eq_one_iff : kindCount group = 1 ↔ ∃ kind, commonKind? group = some kind := by
  rw [kindCount, Finset.card_eq_one]
  constructor
  · rintro ⟨kind, hkinds⟩
    have hmem : ∀ k, k ∈ group.map Node.kind ↔ k = kind := by
      intro k
      rw [← List.mem_toFinset, hkinds, Finset.mem_singleton]
    obtain ⟨node, hnode, -⟩ := List.mem_map.1 ((hmem kind).2 rfl)
    refine ⟨kind, commonKind?_eq_some_iff.2 ⟨List.ne_nil_of_mem hnode, ?_⟩⟩
    intro other hother
    exact (hmem _).1 (List.mem_map_of_mem hother)
  · rintro ⟨kind, hkind⟩
    refine ⟨kind, Finset.ext fun k => ?_⟩
    rw [List.mem_toFinset, Finset.mem_singleton, mem_kinds_iff hkind]

theorem one_lt_kindCount_iff : 1 < kindCount group ↔ group ≠ [] ∧ commonKind? group = none := by
  rw [kindCount, Finset.one_lt_card]
  simp only [List.mem_toFinset, List.mem_map]
  constructor
  · rintro ⟨_, ⟨a, ha, rfl⟩, _, ⟨b, hb, rfl⟩, hne⟩
    refine ⟨List.ne_nil_of_mem ha, Option.eq_none_iff_forall_ne_some.2 fun kind hkind => hne ?_⟩
    rw [kind_of_commonKind? hkind ha, kind_of_commonKind? hkind hb]
  · rintro ⟨hne, hnone⟩
    obtain ⟨a, ha, b, hb, hab⟩ := commonKind?_eq_none hnone hne
    exact ⟨_, ⟨a, ha, rfl⟩, _, ⟨b, hb, rfl⟩, hab⟩

theorem exists_cons_of_commonKind? {kind : Kind} (h : commonKind? group = some kind) :
    ∃ first rest, group = first :: rest ∧ first.kind = kind ∧ kindCount (first :: rest) = 1 := by
  obtain ⟨hne, hkinds⟩ := commonKind?_eq_some_iff.1 h
  obtain ⟨first, rest, rfl⟩ := List.exists_cons_of_ne_nil hne
  exact ⟨first, rest, rfl, hkinds first List.mem_cons_self, kindCount_eq_one_iff.2 ⟨kind, h⟩⟩

/-! ## Merging objects -/

/-- The members of some objects as those of one, if all of the values are objects. -/
def mergeObjects? (group : List Node) : Option (Members Node) :=
  (group.mapM members?).map Members.merge

theorem mapM_members?_eq_some_iff {objects : List (Members Node)} :
    group.mapM members? = some objects ↔ group = objects.map object := by
  induction group generalizing objects with
  | nil => cases objects <;> simp
  | cons node rest ih =>
    cases node with
    | object members =>
      cases objects with
      | nil => simp [members?, Option.bind_eq_some_iff]
      | cons first others => simp [members?, Option.bind_eq_some_iff, ih, and_comm]
    | array elements => cases objects <;> simp [members?]
    | primitive type => cases objects <;> simp [members?]

theorem filterMap_members? (objects : List (Members Node)) :
    (objects.map object).filterMap members? = objects := by
  rw [List.filterMap_map]
  exact List.filterMap_some

theorem mergeObjects?_eq (h : commonKind? group = some .object) :
    mergeObjects? group = some (mergeObjects group) := by
  obtain ⟨objects, -, rfl⟩ := exists_objects h
  rw [mergeObjects?, mapM_members?_eq_some_iff.2 rfl, mergeObjects, filterMap_members?,
    Option.map_some]

/-- The values of merged objects weigh less than the objects, if there is one. -/
theorem weigh_lt_of_mergeObjects? {members : Members Node} (hne : group ≠ [])
    (h : mergeObjects? group = some members) :
    Members.weigh weightAll members.entries < weightAll group := by
  obtain ⟨objects, hobjects, rfl⟩ := Option.map_eq_some_iff.1 h
  obtain rfl := mapM_members?_eq_some_iff.1 hobjects
  have hle := weighAll_members_le (objects.map object)
  have hpos : 0 < objects.length := by simpa [List.length_pos_iff] using hne
  rw [filterMap_members?] at hle
  rw [Members.weigh_merge weightAll_append]
  omega

end Node

namespace Shape

open Node

/-! ## Names that are found -/

/-- The names in all structs of a shape are found before the numbers behind them overflow. -/
def NumbersFit (shape : Shape) : Prop :=
  ∀ fields, shape.HasStruct fields → Naming.NumbersFit [] fields

theorem numbersFit_any : NumbersFit .any := by
  intro fields h
  cases h

theorem numbersFit_ofPrimitive (type : Primitive) : NumbersFit (.ofPrimitive type) := by
  intro fields h
  cases type <;> cases h

theorem numbersFit_slice_iff {element : Shape} :
    NumbersFit (.slice element) ↔ element.NumbersFit := by
  constructor
  · intro h fields hstruct
    exact h fields (.element hstruct)
  · rintro h fields (_ | _ | hstruct)
    exact h fields hstruct

theorem numbersFit_struct_iff {fields : List (Field Shape)} :
    NumbersFit (.struct fields) ↔
      Naming.NumbersFit [] fields ∧ ∀ field ∈ fields, field.value.NumbersFit := by
  constructor
  · intro h
    exact ⟨h fields (.own fields), fun field hfield others hstruct => h others (.inner hfield hstruct)⟩
  · rintro ⟨hown, hinner⟩ others (_ | ⟨hfield, hstruct⟩)
    · exact hown
    · exact hinner _ hfield others hstruct

/-- The fields that are named for some keys have the shapes that belong to these. -/
theorem numbersFit_fields_iff {entries : List (String × Shape)} :
    NumbersFit (.struct (Naming.fields entries)) ↔
      Naming.NumbersFit [] (Naming.fields entries) ∧ ∀ e ∈ entries, e.2.NumbersFit := by
  rw [numbersFit_struct_iff, ← List.forall_mem_map (f := Field.value) (P := NumbersFit), Naming.fields,
    Naming.values_fieldsFrom, List.forall_mem_map]

/-- A shape is given, and no other one, unless sums are checked and the numbers in it overflow. -/
def Gives (sums : Bool) (result : Option Shape) (shape : Shape) : Prop :=
  ∀ other, result = some other ↔ other = shape ∧ (sums = true → shape.NumbersFit)

theorem gives_some {sums : Bool} {shape : Shape} (h : shape.NumbersFit) :
    Gives sums (some shape) shape := by
  intro other
  rw [Option.some.injEq, and_iff_left fun _ => h, eq_comm]

theorem Gives.slice {sums : Bool} {result : Option Shape} {element : Shape}
    (h : Gives sums result element) : Gives sums (result.map .slice) (.slice element) := by
  intro other
  rw [Option.map_eq_some_iff, numbersFit_slice_iff]
  constructor
  · rintro ⟨inner, hinner, rfl⟩
    obtain ⟨rfl, hfit⟩ := (h inner).1 hinner
    exact ⟨rfl, hfit⟩
  · rintro ⟨rfl, hfit⟩
    exact ⟨element, (h element).2 ⟨rfl, hfit⟩, rfl⟩

/-! ## Shapes -/

mutual

/-- The shape of all values of a key. -/
def unify? (sums : Bool) : List Node → Option Shape
  | [] => none
  | [only] => node? sums only
  | first :: second :: rest =>
    if 1 < kindCount (first :: second :: rest) then some .any
    else
      match first.kind with
      | .object => struct? sums first (second :: rest)
      | .array => some (.slice .any)
      | .primitive type => some (.ofPrimitive type)
termination_by values => (weightAll values, 3, 0)

/-- The shape of one value. -/
def node? (sums : Bool) : Node → Option Shape
  | .object members => struct? sums (.object members) []
  | .array elements => list? sums elements
  | .primitive type => some (.ofPrimitive type)
termination_by node => (node.weight, 2, 0)
decreasing_by
  all_goals simp [Prod.lex_def, weight_array, weightAll]

/-- The shape of an array. -/
def list? (sums : Bool) (elements : List Node) : Option Shape :=
  if kindCount elements ≠ 1 then some (.slice .any)
  else
    match elements with
    | [] => none
    | first :: rest =>
      match first.kind with
      | .object => (struct? sums first rest).map .slice
      | .array => some (.slice .any)
      | .primitive type => some (.slice (.ofPrimitive type))
termination_by (weightAll elements, 2, 0)

/-- The shape of some objects, at least one. -/
def struct? (sums : Bool) (first : Node) (rest : List Node) : Option Shape :=
  match hmerge : mergeObjects? (first :: rest) with
  | none => none
  | some members =>
    have : Members.weigh weightAll members.entries < weightAll (first :: rest) :=
      weigh_lt_of_mergeObjects? (List.cons_ne_nil first rest) hmerge
    (entries? sums members.entries).bind fun entries =>
      (Naming.fieldsFrom? sums [] entries).map .struct
termination_by (weightAll (first :: rest), 1, 0)

/-- The shapes of all values under each key. -/
def entries? (sums : Bool) : List (String × List Node) → Option (List (String × Shape))
  | [] => some []
  | (key, values) :: rest =>
    (unify? sums values).bind fun shape =>
      (entries? sums rest).map fun shapes => (key, shape) :: shapes
termination_by entries => (Members.weigh weightAll entries, 4, entries.length)
decreasing_by
  all_goals
    simp only [Prod.lex_def, Members.weigh, List.length_cons, true_and]
    omega

end

variable {sums : Bool} {group rest : List Node} {first : Node}

/-! ## Groups of one kind -/

/-- The shape of the values of a key that are of one kind, a single array apart. -/
theorem unify?_of_kindCount (h : kindCount (first :: rest) = 1)
    (hlist : first.kind = .array → rest ≠ []) :
    unify? sums (first :: rest) =
      match first.kind with
      | .object => struct? sums first rest
      | .array => some (.slice .any)
      | .primitive type => some (.ofPrimitive type) := by
  cases rest with
  | nil =>
    rw [unify?]
    cases first with
    | object members =>
      rw [node?]
      rfl
    | array elements => exact absurd rfl (hlist rfl)
    | primitive type =>
      rw [node?]
      rfl
  | cons second rest => rw [unify?, if_neg (by omega)]

/-- The shape of an array whose elements are of one kind. -/
theorem list?_of_kindCount (h : kindCount (first :: rest) = 1) :
    list? sums (first :: rest) =
      match first.kind with
      | .object => (struct? sums first rest).map .slice
      | .array => some (.slice .any)
      | .primitive type => some (.slice (.ofPrimitive type)) := by
  rw [list?, if_neg (not_not.2 h)]

/-! ## The recursion and the groups -/

/-- The shapes of the values under some keys, if each of them is what it should be. -/
theorem entries?_eq_some_iff {entries : List (String × List Node)} {shapes : List (String × Shape)}
    (h : ∀ e ∈ entries, Gives sums (unify? sums e.2) (ofGroup e.2)) :
    entries? sums entries = some shapes ↔
      shapes = entries.map (fun (key, values) => (key, ofGroup values)) ∧
        ∀ e ∈ entries, sums = true → (ofGroup e.2).NumbersFit := by
  induction entries generalizing shapes with
  | nil => simp [entries?, eq_comm]
  | cons e rest ih =>
    obtain ⟨key, values⟩ := e
    obtain ⟨hfirst, hrest⟩ := List.forall_mem_cons.1 h
    rw [entries?, List.forall_mem_cons, List.map_cons, Option.bind_eq_some_iff]
    constructor
    · rintro ⟨shape, hshape, hmap⟩
      obtain ⟨others, hothers, rfl⟩ := Option.map_eq_some_iff.1 hmap
      obtain ⟨rfl, hfit⟩ := (hfirst shape).1 hshape
      obtain ⟨rfl, hfits⟩ := (ih hrest).1 hothers
      exact ⟨rfl, hfit, hfits⟩
    · rintro ⟨rfl, hfit, hfits⟩
      refine ⟨_, (hfirst _).2 ⟨rfl, hfit⟩, Option.map_eq_some_iff.2 ⟨_, ?_, rfl⟩⟩
      exact (ih hrest).2 ⟨rfl, hfits⟩

/-- The shape of objects, if those of the values under their keys are what they should be. -/
theorem struct?_gives (hkind : commonKind? (first :: rest) = some .object)
    (hwf : ∀ node ∈ first :: rest, node.WellFormed)
    (hvalues : ∀ key, valuesAt (first :: rest) key ≠ [] →
      Gives sums (unify? sums (valuesAt (first :: rest) key))
        (ofGroup (valuesAt (first :: rest) key))) :
    Gives sums (struct? sums first rest) (ofGroup (first :: rest)) := by
  obtain ⟨hmerged, hmergedValues⟩ := values_mergeObjects hwf
  have hentry : ∀ e ∈ (mergeObjects (first :: rest)).entries,
      Gives sums (unify? sums e.2) (ofGroup e.2) := by
    intro e he
    obtain ⟨hvalue, hne⟩ := (Members.mem_entries_iff hmerged).1 he
    rw [hmergedValues] at hvalue
    rw [← hvalue] at hne ⊢
    exact hvalues e.1 hne
  intro other
  rw [ofGroup_of_object hkind, Members.inhabited_eq_self hmerged, numbersFit_fields_iff,
    List.forall_mem_map, struct?]
  split
  · rename_i hnone
    rw [mergeObjects?_eq hkind] at hnone
    cases hnone
  · rename_i members hmerge
    rw [mergeObjects?_eq hkind] at hmerge
    obtain rfl := Option.some.inj hmerge
    simp only [Option.bind_eq_some_iff, Option.map_eq_some_iff, entries?_eq_some_iff hentry,
      Naming.fieldsFrom?_eq_some_iff]
    constructor
    · rintro ⟨shapes, ⟨rfl, hfits⟩, fields, ⟨rfl, hfit⟩, rfl⟩
      exact ⟨rfl, fun hsums => ⟨hfit hsums, fun e he => hfits e he hsums⟩⟩
    · rintro ⟨rfl, hfit⟩
      exact ⟨_, ⟨rfl, fun e he hsums => (hfit hsums).2 e he⟩, _, ⟨rfl, fun hsums => (hfit hsums).1⟩,
        rfl⟩

/-- What is to be shown of a group: neither its values, as those of a key, nor an array of them
leave anything missing. -/
structure Checks (sums : Bool) (group : List Node) : Prop where
  /-- The values are those of a key. -/
  unify : group ≠ [] → Gives sums (unify? sums group) (ofGroup group)
  /-- The values are the elements of an array. -/
  list : Gives sums (list? sums group) (ofGroup [.array group])

theorem checks (hwf : ∀ node ∈ group, node.WellFormed) : Checks sums group := by
  -- Two sorts of groups lead on: a single array to its elements, objects to the values of each key.
  induction group using Node.group_induction with
  | mixed group hkind =>
    constructor
    · intro hne
      obtain ⟨first, rest, rfl⟩ := List.exists_cons_of_ne_nil hne
      cases rest with
      | nil => cases hkind
      | cons second rest =>
        rw [ofGroup_of_mixed hkind, unify?, if_pos (one_lt_kindCount_iff.2 ⟨hne, hkind⟩)]
        exact gives_some numbersFit_any
    · have hcount : kindCount group ≠ 1 := by simp [kindCount_eq_one_iff, hkind]
      rw [ofGroup_array, hkind, ofGroup_of_mixed hkind, list?.eq_def, if_pos hcount]
      exact (gives_some numbersFit_any).slice
  | primitive group type hkind =>
    obtain ⟨first, rest, rfl, hfirst, hcount⟩ := exists_cons_of_commonKind? hkind
    constructor
    · intro _
      rw [ofGroup_of_primitive hkind, unify?_of_kindCount hcount (by simp [hfirst]), hfirst]
      exact gives_some (numbersFit_ofPrimitive type)
    · rw [ofGroup_array, hkind, ofGroup_of_primitive hkind, list?_of_kindCount hcount, hfirst]
      exact (gives_some (numbersFit_ofPrimitive type)).slice
  | array elements ih =>
    have hkind : commonKind? [.array elements] = some .array := rfl
    obtain ⟨first, rest, hcons, hfirst, hcount⟩ := exists_cons_of_commonKind? hkind
    have helements := ih (hwf _ (List.mem_singleton_self _)).element
    constructor
    · intro _
      rw [unify?, node?]
      exact helements.list
    · rw [ofGroup_array, if_pos hkind, hcons, list?_of_kindCount hcount, hfirst]
      exact (gives_some numbersFit_any).slice
  | arrays group hkind hlen =>
    obtain ⟨first, rest, rfl, hfirst, hcount⟩ := exists_cons_of_commonKind? hkind
    have hrest : rest ≠ [] := by
      rintro rfl
      exact hlen rfl
    constructor
    · intro _
      rw [ofGroup_arrays hkind hlen, unify?_of_kindCount hcount fun _ => hrest, hfirst]
      exact (gives_some numbersFit_any).slice
    · rw [ofGroup_array, if_pos hkind, list?_of_kindCount hcount, hfirst]
      exact (gives_some numbersFit_any).slice
  | objects group hkind ih =>
    obtain ⟨first, rest, rfl, hfirst, hcount⟩ := exists_cons_of_commonKind? hkind
    have hstruct := struct?_gives hkind hwf fun key => (ih key (WellFormed.valuesAt hwf key)).unify
    constructor
    · intro _
      rw [unify?_of_kindCount hcount (by simp [hfirst]), hfirst]
      exact hstruct
    · rw [ofGroup_array, hkind, list?_of_kindCount hcount, hfirst]
      exact hstruct.slice

/-- Nothing is missing while the shape of a value is inferred. -/
theorem node?_gives {node : Node} (hwf : node.WellFormed) :
    Gives sums (node? sums node) (ofGroup [node]) := by
  have hchecks : Checks sums [node] := checks (List.forall_mem_singleton.2 hwf)
  have hunify := hchecks.unify (List.cons_ne_nil node [])
  rwa [unify?] at hunify

/-! ## Whole documents -/

/-- The shape of a whole document, which is an object or an array. -/
def ofRoot? (sums : Bool) (root : Node) : Option (Except Error Shape) :=
  match root.kind with
  | .object | .array => (node? sums root).map .ok
  | .primitive type => some (.error (.unsupportedRoot (.primitive type)))

theorem ofRoot?_eq_some_iff {root : Node} (hwf : root.WellFormed) {result : Except Error Shape} :
    ofRoot? sums root = some result ↔ result = ofRoot root ∧
      (sums = true → ∀ shape, ofRoot root = .ok shape → shape.NumbersFit) := by
  have hgives : Gives sums (node? sums root) (ofGroup [root]) := node?_gives hwf
  by_cases hkind : root.kind = .object ∨ root.kind = .array
  · have hroot : ofRoot? sums root = (node? sums root).map .ok := by
      rcases hkind with hkind | hkind <;> rw [ofRoot?, hkind]
    rw [hroot, ofRoot_eq_ok hkind, Option.map_eq_some_iff]
    constructor
    · rintro ⟨shape, hshape, rfl⟩
      obtain ⟨rfl, hfit⟩ := (hgives shape).1 hshape
      refine ⟨rfl, ?_⟩
      rintro hsums _ ⟨⟩
      exact hfit hsums
    · rintro ⟨rfl, hfit⟩
      exact ⟨_, (hgives _).2 ⟨rfl, fun hsums => hfit hsums _ rfl⟩, rfl⟩
  · cases root with
    | object members => exact absurd (.inl rfl) hkind
    | array elements => exact absurd (.inr rfl) hkind
    | primitive type =>
      refine ⟨fun h => ⟨(Option.some.inj h).symm, nofun⟩, ?_⟩
      rintro ⟨rfl, -⟩
      rfl

end Shape

end JsonShape
