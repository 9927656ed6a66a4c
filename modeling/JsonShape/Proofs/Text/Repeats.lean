import JsonShape.Generator
import JsonShape.Proofs.Document.Objects

/-!
# Events about repeated keys

* `Event.repeatedKey?` — the key that an event is about, if it is about a repeated one.
* `Generator.repeatedKeys_run` — the keys of these events: those of the members that were read to
  their end behind another one with their key in their object, whether or not the text has a tree; and
  if it has one, how often a key is among them.
-/

namespace JsonShape

namespace Event

/-- The key of an event about a repeated key. -/
def repeatedKey? : Event → Option String
  | duplicateKey key => some key
  | parsing _ | renamed _ => none

end Event

namespace Generator

/-- The events of a run about repeated keys are those of reading the tokens. -/
theorem repeatedKeys_eq (options : Options) (json : String) :
    (run options json).events.filterMap Event.repeatedKey? =
      (Document.read options.maxDepth (tokens json)).duplicates := by
  have hduplicates : ∀ keys : List String,
      (keys.map Event.duplicateKey).filterMap Event.repeatedKey? = keys := by
    intro keys
    rw [List.filterMap_map]
    exact List.filterMap_some
  have hrenames : ∀ renames : List Rename,
      (renames.map Event.renamed).filterMap Event.repeatedKey? = [] := by
    intro renames
    rw [List.filterMap_map]
    exact List.filterMap_eq_nil_iff.2 fun _ _ => rfl
  rw [run]
  split
  · exact hduplicates _
  · rw [List.filterMap_append, hrenames, List.append_nil]
    exact hduplicates _

/-- The events about repeated keys account for the repeated members.  Of the tokens of a text some are
taken, as many as some document begins with; in any such document, the members are told in the order
in which their values end, and the events are about those whose values end among the tokens taken and
whose key is that of a member before them in their object.  If the text has a tree, there are so many
events about a key as there are values under it behind the first one, over all objects of the tree. -/
theorem repeatedKeys_run (options : Options) (json : String) :
    (∃ n, Document.Takes options.maxDepth (tokens json) n ∧
      ∀ d : Derivation, d.IsContainer → (tokens json).take n <+: d.tokens →
        (d.members 0).Pairwise (·.stop < ·.stop) ∧
          (run options json).events.filterMap Event.repeatedKey? =
            ((d.members 0).filter fun m => m.stop ≤ n ∧ m.key ∈ m.before).map Member.key) ∧
    ∀ root, parse json options.maxDepth = .ok root → ∀ key,
      ((run options json).events.filterMap Event.repeatedKey?).count key =
        (root.objects.map fun m => (m.values key).length - 1).sum := by
  obtain ⟨n, htakes, hkeys⟩ := Document.duplicates_read options.maxDepth (tokens json)
  rw [repeatedKeys_eq]
  refine ⟨⟨n, htakes, fun d hcontainer hprefix => ?_⟩, fun root hroot key => ?_⟩
  · exact ⟨(d.ascend_members 0).ordered, hkeys d hcontainer hprefix⟩
  · obtain ⟨d, hcontainer, rfl, hprefix, hlength⟩ := htakes.exists_derivation hroot
    rw [hkeys d hcontainer hprefix]
    exact d.count_repeatedKeys hlength key

/-- A text that breaks off.  The inner object has its key twice; the outer one has another value under
its key only when the text is over. -/
example : (run .default "\x7b\"a\":1,\"b\":\x7b\"a\":2,\"a\":3\x7d,\"a\":").events =
    [.parsing 29, .duplicateKey "a"] := by decide +kernel

/-- An object in an object, with one key in both. -/
def nested : String := "\x7b\"a\":\x7b\"a\":1,\"a\":2\x7d,\"a\":3\x7d"

/-- The tree of that text. -/
def nestedRoot : Node :=
  .object ((Members.empty.push "a" (.object ((Members.empty.push "a" (.primitive .integer)).push "a"
    (.primitive .integer)))).push "a" (.primitive .integer))

theorem parse_nested : parse nested Document.defaultMaxDepth = .ok nestedRoot := by
  have htokens : tokens nested = [⟨.leftBrace, 0, 1, "\x7b"⟩, ⟨.string, 2, 3, "a"⟩,
      ⟨.colon, 4, 5, ":"⟩, ⟨.leftBrace, 5, 6, "\x7b"⟩, ⟨.string, 7, 8, "a"⟩, ⟨.colon, 9, 10, ":"⟩,
      ⟨.integer, 10, 11, "1"⟩, ⟨.comma, 11, 12, ","⟩, ⟨.string, 13, 14, "a"⟩, ⟨.colon, 15, 16, ":"⟩,
      ⟨.integer, 16, 17, "2"⟩, ⟨.rightBrace, 17, 18, "\x7d"⟩, ⟨.comma, 18, 19, ","⟩,
      ⟨.string, 20, 21, "a"⟩, ⟨.colon, 22, 23, ":"⟩, ⟨.integer, 23, 24, "3"⟩,
      ⟨.rightBrace, 24, 25, "\x7d"⟩, .atEnd 25] := by decide +kernel
  rw [parse, htokens]
  rfl

/-- The inner object has the key twice, and the outer one has it twice. -/
theorem repeatedKeys_run_nested :
    parse nested Document.defaultMaxDepth = .ok nestedRoot ∧
      (∃ (n : Nat) (d : Derivation), d.IsContainer ∧ (tokens nested).take n <+: d.tokens ∧
        (run .default nested).events.filterMap Event.repeatedKey? =
          ((d.members 0).filter fun m => m.stop ≤ n ∧ m.key ∈ m.before).map Member.key) ∧
      ((run .default nested).events.filterMap Event.repeatedKey?).count "a" = 2 := by
  obtain ⟨⟨n, htakes, hkeys⟩, hcount⟩ := repeatedKeys_run .default nested
  obtain ⟨d, hcontainer, -, hprefix, -⟩ := htakes.exists_derivation parse_nested
  exact ⟨parse_nested, ⟨n, d, hcontainer, hprefix, (hkeys d hcontainer hprefix).2⟩,
    (hcount nestedRoot parse_nested "a").trans rfl⟩

end Generator

end JsonShape
