import JsonShape.Proofs.Checked.Infer
import JsonShape.Proofs.Naming.Overflow
import JsonShape.Proofs.Text.Completeness

/-!
# Texts whose numbers overflow

An object may have so many keys of one name that the number for the last of them overflows.  Its
text is written as any other.

* `Text.crowdText`, `Text.jsonText_crowdText` — the text of such an object.
* `Shape.not_numbersFit_crowdPairs` — the names for its keys are not found.
-/

namespace JsonShape

namespace Text

open Naming (crowd)

/-- The members of an object, some names with a digit each. -/
def membersText (first : String) : List String → List Char
  | [] => quoted first.toList ++ ([':'] ++ ['0'])
  | next :: rest => quoted first.toList ++ ([':'] ++ ['0']) ++ ([','] ++ membersText next rest)

/-- An object with so many keys of one name with numbers, and one more key that gets that name. -/
def crowdText (n : Nat) : String :=
  .ofList (['\x7b'] ++ (membersText "a" (crowd n) ++ ['\x7d']))

/-- The keys and values of `crowdText`. -/
def crowdPairs (n : Nat) : List (String × Node) :=
  ("a" :: crowd n).map fun name => (name, .primitive .integer)

theorem chars_of_unescaped {cs : List Char} (h : ∀ c ∈ cs, Unescaped c) : Chars cs := by
  induction cs with
  | nil => exact .nil
  | cons c rest ih =>
    obtain ⟨hc, hrest⟩ := List.forall_mem_cons.1 h
    exact .unescaped hc (ih hrest)

theorem unescaped_of_isDigit {c : Char} (h : c.isDigit = true) : Unescaped c := by
  have hdigit : 0x30 ≤ c.toNat ∧ c.toNat ≤ 0x39 := by
    simpa [Char.isDigit, UInt32.le_iff_toNat_le] using h
  refine ⟨by omega, ?_, ?_⟩
  · rintro rfl
    exact absurd hdigit (by decide)
  · rintro rfl
    exact absurd hdigit (by decide)

theorem chars_of_mem_crowd {n : Nat} (h : n < 2 ^ 31) {name : String} (hname : name ∈ crowd n) :
    Chars name.toList := by
  obtain ⟨tail, htail, hchars⟩ := Naming.exists_toList_of_mem_crowd h hname
  rw [htail]
  refine chars_of_unescaped (List.forall_mem_cons.2 ⟨by decide, fun d hd => ?_⟩)
  rcases hchars d hd with rfl | rfl | hdigit
  · decide
  · decide
  · exact unescaped_of_isDigit hdigit

theorem members_membersText (first : String) (names : List String)
    (h : ∀ name ∈ first :: names, Chars name.toList) :
    Members (membersText first names)
      ((first :: names).map fun name => (name, .primitive .integer)) 0 := by
  have hmember : ∀ name : String, Chars name.toList →
      Member (quoted name.toList ++ ([':'] ++ ['0'])) (name, .primitive .integer) 0 := by
    intro name hname
    have hzero : Value ['0'] (.primitive .integer) 0 := .number (.integer (.inl rfl) .zero)
    simpa using Member.named hname (Mark.bare ':') hzero
  induction names generalizing first with
  | nil => exact .last (hmember first (h first List.mem_cons_self))
  | cons next rest ih =>
    obtain ⟨hfirst, hrest⟩ := List.forall_mem_cons.1 h
    exact .more (hmember first hfirst) (.bare ',') (ih next hrest)

theorem jsonText_crowdText {n : Nat} (h : n < 2 ^ 31) :
    JsonText (crowdText n).toList (.object (.ofPairs (crowdPairs n))) 1 := by
  have hchars : ∀ name ∈ "a" :: crowd n, Chars name.toList := by
    have ha : Chars ['a'] := .unescaped (by decide) .nil
    exact List.forall_mem_cons.2 ⟨ha, fun name hname => chars_of_mem_crowd h hname⟩
  have hvalue : Value (['\x7b'] ++ (membersText "a" (crowd n) ++ ['\x7d']))
      (.object (.ofPairs (crowdPairs n))) (1 + 0) :=
    .object (.bare _) (members_membersText "a" (crowd n) hchars) (.bare _)
  have htext := JsonText.container (List.forall_mem_nil _) hvalue (.inl rfl) (List.forall_mem_nil _)
  rwa [List.nil_append, List.append_nil, ← String.toList_ofList (l := _ ++ _)] at htext

end Text

namespace Shape

open Naming (crowd)
open Node (mergeObjects valuesAt commonKind?)

variable {n : Nat}

/-- The keys of `crowdPairs` in order: those of the crowd, and the one that gets their name. -/
theorem keys_crowdPairs (h : n < 2 ^ 31) {keys : List String}
    (hkeys : ∀ key, key ∈ keys ↔ key ∈ "a" :: crowd n) (hascending : keys.Pairwise (· < ·)) :
    ∃ before after, keys = before ++ "a" :: after ∧ before.Nodup ∧
      ∀ key, key ∈ before ↔ key ∈ crowd n := by
  obtain ⟨before, after, rfl⟩ := List.append_of_mem ((hkeys "a").2 List.mem_cons_self)
  obtain ⟨hbefore, hafter, hbetween⟩ := List.pairwise_append.1 hascending
  refine ⟨before, after, rfl, hbefore.imp ne_of_lt, fun key => ⟨fun hkey => ?_, fun hkey => ?_⟩⟩
  · have hlt : key < "a" := hbetween key hkey "a" List.mem_cons_self
    rcases List.mem_cons.1 ((hkeys key).1 (List.mem_append_left _ hkey)) with rfl | hcrowd
    · exact absurd hlt (lt_irrefl _)
    · exact hcrowd
  · have hlt := Naming.lt_a_of_mem_crowd h hkey
    rcases List.mem_append.1 ((hkeys key).2 (List.mem_cons_of_mem _ hkey)) with hin | hin
    · exact hin
    · rcases List.mem_cons.1 hin with rfl | hin
      · exact absurd hlt (lt_irrefl _)
      · exact absurd hlt (lt_asymm ((List.pairwise_cons.1 hafter).1 key hin))

/-- The numbers of the crowd leave none for the key that gets its name. -/
theorem not_numbersFit_fields {σ : Type} (hn : 2 ^ 31 - 2 ≤ n) (h : n < 2 ^ 31)
    {keys : List String} (hkeys : ∀ key, key ∈ keys ↔ key ∈ "a" :: crowd n)
    (hascending : keys.Pairwise (· < ·)) (value : String → σ) :
    ¬ Naming.NumbersFit [] (Naming.fields (keys.map fun key => (key, value key))) := by
  obtain ⟨before, after, rfl, hnodup, hbefore⟩ := keys_crowdPairs h hkeys hascending
  have hidents : (Naming.fieldsFrom [] (before.map fun key => (key, value key))).map Field.ident =
      before :=
    Naming.idents_fieldsFrom value
      (fun key hkey => Naming.identifier_of_mem_crowd ((hbefore key).1 hkey)) hnodup
      fun _ _ => List.not_mem_nil
  intro hfit
  rw [Naming.fields, List.map_append, List.map_cons, Naming.fieldsFrom_append, Naming.fieldsFrom]
    at hfit
  obtain ⟨i, hi, hfree⟩ := hfit _ _ _ rfl
  rw [hidents, List.nil_append, Naming.identifier_a, hbefore] at hfree
  exact hfree ((Naming.mem_crowd_iff h).2 ⟨i, by omega, rfl⟩)

/-- No object with the keys of a crowd and one more key that gets their name is named. -/
theorem not_numbersFit_crowdPairs (hn : 2 ^ 31 - 2 ≤ n) (h : n < 2 ^ 31) :
    ¬ NumbersFit (ofGroup [.object (.ofPairs (Text.crowdPairs n))]) := by
  have hkind : commonKind? [.object (.ofPairs (Text.crowdPairs n))] = some .object := rfl
  have hwf : ∀ node ∈ [Node.object (.ofPairs (Text.crowdPairs n))], node.WellFormed := by
    refine List.forall_mem_singleton.2 (.ofPairs (List.forall_mem_map.2 fun name _ => ?_))
    exact .primitive _
  obtain ⟨hmerged, hvalues⟩ := values_mergeObjects hwf
  obtain ⟨fields, hfields, -⟩ := ofGroup_objects hkind hwf
  obtain ⟨-, rfl⟩ := ofGroup_eq_struct hwf hfields
  have hascending : (mergeObjects [.object (.ofPairs (Text.crowdPairs n))]).keys.Pairwise (· < ·) :=
    List.pairwise_map.2 hmerged.ascending
  rw [hfields]
  intro hfit
  refine not_numbersFit_fields hn h (fun key => ?_) hascending _ (hfit _ (.own _))
  rw [Members.mem_keys_iff hmerged, hvalues, Node.valuesAt_object, Members.values_ofPairs, Ne,
    Members.valuesIn_eq_nil_iff, not_not, Text.crowdPairs, List.map_map]
  exact iff_of_eq (congrArg _ (List.map_id _))

end Shape

end JsonShape
