import JsonShape.Proofs.Checked.Generate

/-!
# The renames of a shape

Renames are noted while groups of values are inferred, one note for a field that may stand for many
members.  Yet they are told by the shape alone: they are those of its fields, in the order of a walk
that meets the fields inside a field's shape before the field itself.  What was inferred and given
up has left no note.

* `Shape.postorder`, `mem_postorder_iff` — the walk, which meets each field of a shape.
* `Shape.renames` — the fields on the walk whose identifier and key differ in lower case.
* `renames_ofGroup` — these are the renames that inference notes.
* `Generator.events_run` — the events of a run: those of reading the text, and these renames behind
  them if there is a tree.
-/

namespace JsonShape

namespace Shape

/-! ## The walk -/

/-- The fields of the structs in a shape, those inside the shape of a field before the field. -/
def postorder : Shape → List (Field Shape)
  | slice element => postorder element
  | struct fields => inFields fields
  | any | bool | integer | float | string => []
where
  /-- The fields of a struct and those inside them. -/
  inFields : List (Field Shape) → List (Field Shape)
    | [] => []
    | ⟨ident, key, shape⟩ :: rest => postorder shape ++ ⟨ident, key, shape⟩ :: inFields rest

/-- The renames of a shape: the fields on the walk that are not named like their keys, but for
case. -/
def renames (shape : Shape) : List Rename :=
  (shape.postorder.filter fun field =>
    Unicode.lowerText field.ident ≠ Unicode.lowerText field.key).map fun field =>
      ⟨field.key, field.ident⟩

theorem postorder_inFields (fields : List (Field Shape)) :
    postorder.inFields fields = fields.flatMap fun field => field.value.postorder ++ [field] := by
  induction fields with
  | nil => rfl
  | cons field rest ih =>
    rw [postorder.inFields, ih, List.flatMap_cons, List.append_assoc, List.singleton_append]

theorem postorder_struct (fields : List (Field Shape)) :
    (struct fields).postorder = fields.flatMap fun field => field.value.postorder ++ [field] := by
  rw [postorder, postorder_inFields]

@[simp] theorem postorder_slice (element : Shape) :
    (slice element).postorder = element.postorder := by rw [postorder]

@[simp] theorem postorder_any : any.postorder = [] := by rw [postorder]

@[simp] theorem postorder_ofPrimitive (type : Primitive) : (ofPrimitive type).postorder = [] := by
  cases type <;> simp [ofPrimitive, postorder]

-- The recursion is that of the walk.
mutual

theorem hasField_of_mem_postorder {field : Field Shape} : ∀ (shape : Shape),
    field ∈ shape.postorder → shape.HasField field
  | slice element, h => .element (hasField_of_mem_postorder element (by rwa [postorder_slice] at h))
  | struct fields, h => hasField_of_mem_inFields fields (by rwa [postorder] at h)
  | any, h | bool, h | integer, h | float, h | string, h => by
    rw [postorder] at h
    cases h

theorem hasField_of_mem_inFields {field : Field Shape} : ∀ (fields : List (Field Shape)),
    field ∈ postorder.inFields fields → (struct fields).HasField field
  | [], h => by
    rw [postorder.inFields] at h
    cases h
  | ⟨ident, key, shape⟩ :: rest, h => by
    rw [postorder.inFields, List.mem_append, List.mem_cons] at h
    rcases h with hinner | rfl | hrest
    · exact .inner List.mem_cons_self (hasField_of_mem_postorder shape hinner)
    · exact .own List.mem_cons_self
    · cases hasField_of_mem_inFields rest hrest with
      | own hmem => exact .own (List.mem_cons_of_mem _ hmem)
      | inner houter hinner => exact .inner (List.mem_cons_of_mem _ houter) hinner

end

/-- The walk meets the fields of a shape, at any depth, and nothing else. -/
theorem mem_postorder_iff {shape : Shape} {field : Field Shape} :
    field ∈ shape.postorder ↔ shape.HasField field := by
  refine ⟨hasField_of_mem_postorder shape, fun h => ?_⟩
  induction h with
  | own hmem =>
    rw [postorder_struct]
    exact List.mem_flatMap.2 ⟨_, hmem, List.mem_append_right _ (List.mem_singleton_self _)⟩
  | inner houter _ ih =>
    rw [postorder_struct]
    exact List.mem_flatMap.2 ⟨_, houter, List.mem_append_left _ ih⟩
  | element _ ih => rwa [postorder_slice]

/-! ## What inference notes -/

theorem renames_eq_flatMap (shape : Shape) :
    shape.renames = shape.postorder.flatMap Rename.ofField := by
  rw [renames]
  induction shape.postorder with
  | nil => rfl
  | cons field rest ih =>
    rw [List.flatMap_cons, ← ih, List.filter_cons, Rename.ofField]
    split <;> simp_all

@[simp] theorem renames_slice (element : Shape) : (slice element).renames = element.renames := by
  rw [renames, postorder_slice, renames]

@[simp] theorem renames_any : any.renames = [] := by simp [renames]

@[simp] theorem renames_ofPrimitive (type : Primitive) : (ofPrimitive type).renames = [] := by
  simp [renames]

theorem renames_struct (fields : List (Field Shape)) :
    (struct fields).renames =
      fields.flatMap fun field => field.value.renames ++ Rename.ofField field := by
  simp [renames_eq_flatMap, postorder_struct, List.flatMap_assoc]

/-- A struct has noted its renames if the shapes of its fields have noted theirs. -/
theorem renames_inferred_struct {fields : List (Field Inferred)}
    (h : ∀ field ∈ fields, field.value.renames = field.value.shape.renames) :
    (Inferred.struct fields).renames = (Inferred.struct fields).shape.renames := by
  rw [Inferred.struct, renames_struct, List.flatMap_map]
  refine List.flatMap_congr fun field hfield => ?_
  rw [h field hfield]
  rfl

/-- Inference notes the renames of the shape. -/
theorem renames_ofGroup (group : List Node) :
    (Inferred.ofGroup group).renames = (ofGroup group).renames := by
  induction group using Node.merge_induction with
  | mixed group hkind =>
    rw [ofGroup_of_mixed hkind, Inferred.ofGroup_of_mixed hkind, renames_any, Inferred.plain]
  | primitive group type hkind =>
    rw [ofGroup_of_primitive hkind, Inferred.ofGroup_of_primitive hkind, renames_ofPrimitive,
      Inferred.plain]
  | array elements ih =>
    rw [ofGroup_array, Inferred.ofGroup_array, renames_slice]
    split
    · rw [renames_any, Inferred.plain]
    · exact ih
  | arrays group hkind hlen =>
    rw [ofGroup_arrays hkind hlen, Inferred.ofGroup_arrays hkind hlen, renames_slice, renames_any,
      Inferred.plain]
  | objects group hkind ih =>
    rw [ofGroup, Inferred.ofGroup_of_object hkind]
    refine renames_inferred_struct fun field hfield => ?_
    obtain ⟨hentry, -⟩ := Naming.exists_of_mem_fieldsFrom hfield
    obtain ⟨⟨key, values⟩, hvalues, heq⟩ := List.mem_map.1 hentry
    obtain ⟨-, hvalue⟩ := Prod.mk.inj heq
    rw [← hvalue]
    exact ih key values hvalues

end Shape

namespace Generator

open Shape

/-- The events of a run: that a text is read, then the keys that are repeated in it, and if the text
has a tree, and so a shape, the renames of the shape behind them. -/
theorem events_run (options : Options) (json : String) :
    let noted := .parsing json.utf8ByteSize ::
      (Document.read options.maxDepth (tokens json)).duplicates.map Event.duplicateKey
    (∀ root, parse json options.maxDepth = .ok root → ∃ shape, Shape.ofRoot root = .ok shape ∧
      (run options json).events = noted ++
        (shape.postorder.filter fun field =>
          Unicode.lowerText field.ident ≠ Unicode.lowerText field.key).map fun field =>
            .renamed ⟨field.key, field.ident⟩) ∧
    ∀ e, parse json options.maxDepth = .error e → (run options json).events = noted := by
  intro noted
  have hresult : (Document.read options.maxDepth (tokens json)).result =
      parse json options.maxDepth := rfl
  constructor
  · intro root hroot
    have hkind := (root_of_parse hroot).2
    refine ⟨ofGroup [root], ofRoot_eq_ok hkind, ?_⟩
    have hrenames := renames_ofGroup [root]
    rw [renames] at hrenames
    simp [run, hresult, hroot, Except.bind, Inferred.ofRoot_eq_ok hkind, hrenames, noted]
  · intro e he
    simp [run, hresult, he, Except.bind, noted]

/-- A document in which neither the outer key nor the inner one is an identifier. -/
def dashed : String := "\x7b\"a b\":\x7b\"-\":1\x7d\x7d"

theorem parse_dashed : parse dashed Document.defaultMaxDepth =
    .ok (.object (Members.empty.push "a b"
      (.object (Members.empty.push "-" (.primitive .integer))))) := by
  have htokens : tokens dashed = [⟨.leftBrace, 0, 1, "\x7b"⟩, ⟨.string, 2, 5, "a b"⟩,
      ⟨.colon, 6, 7, ":"⟩, ⟨.leftBrace, 7, 8, "\x7b"⟩, ⟨.string, 9, 10, "-"⟩, ⟨.colon, 11, 12, ":"⟩,
      ⟨.integer, 12, 13, "1"⟩, ⟨.rightBrace, 13, 14, "\x7d"⟩, ⟨.rightBrace, 14, 15, "\x7d"⟩,
      .atEnd 15] := by decide +kernel
  rw [parse, htokens]
  rfl

theorem ofRoot_dashed : Shape.ofRoot (.object (Members.empty.push "a b"
    (.object (Members.empty.push "-" (.primitive .integer))))) =
      .ok (.struct [⟨"A_b", "a b", .struct [⟨"_", "-", .integer⟩]⟩]) := by
  have hinner : Shape.ofGroup [.object (Members.empty.push "-" (.primitive .integer))] =
      .struct (Naming.fields [("-", Shape.ofGroup [.primitive .integer])]) :=
    Shape.ofGroup_of_object rfl
  have houter : Shape.ofGroup [.object (Members.empty.push "a b"
      (.object (Members.empty.push "-" (.primitive .integer))))] =
      .struct (Naming.fields [("a b", Shape.ofGroup
        [.object (Members.empty.push "-" (.primitive .integer))])]) :=
    Shape.ofGroup_of_object rfl
  have hinteger : Shape.ofGroup [.primitive .integer] = .integer := by
    rw [Shape.ofGroup_of_primitive rfl]
    rfl
  have hdash : Naming.claim [] "-" = "_" := by decide +kernel
  have hab : Naming.claim [] "a b" = "A_b" := by decide +kernel
  rw [Naming.fields, Naming.fieldsFrom, Naming.fieldsFrom] at hinner houter
  rw [hinteger, hdash] at hinner
  rw [hinner, hab] at houter
  exact congrArg Except.ok houter

/-- The inner rename is noted first. -/
theorem events_run_dashed : (run .default dashed).events =
    [.parsing 15, .renamed ⟨"-", "_"⟩, .renamed ⟨"a b", "A_b"⟩] := by
  obtain ⟨shape, hshape, hevents⟩ := (events_run .default dashed).1 _ parse_dashed
  rw [ofRoot_dashed] at hshape
  obtain rfl := Except.ok.inj hshape
  rw [hevents]
  decide +kernel

end Generator

end JsonShape
