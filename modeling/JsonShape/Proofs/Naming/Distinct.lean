import Mathlib.Data.List.Nodup
import JsonShape.Proofs.Naming.Numbered

/-!
# Distinct names

The fields of a struct are named one after the other, each with a name that none before it has.

* `nodup_fieldsFrom` — the fields of a struct have distinct names.
* `entries_fieldsFrom` — they have the keys that they are made for, and what belongs to those.
* `fieldsFrom_append` — the fields of some keys after those of others.
-/

namespace JsonShape

namespace Naming

variable {σ : Type}

/-- Every name that is given is free, and none is given twice. -/
theorem nodup_fieldsFrom (taken : List String) (entries : List (String × σ)) :
    ((fieldsFrom taken entries).map Field.ident).Nodup ∧
      ∀ name ∈ (fieldsFrom taken entries).map Field.ident, name ∉ taken := by
  induction entries generalizing taken with
  | nil => simp [fieldsFrom]
  | cons e rest ih =>
    obtain ⟨key, value⟩ := e
    obtain ⟨hnodup, hfree⟩ := ih (taken ++ [claim taken key])
    rw [fieldsFrom, List.map_cons]
    refine ⟨List.nodup_cons.2 ⟨fun hmem => ?_, hnodup⟩, ?_⟩
    · exact hfree _ hmem (List.mem_append_right _ (List.mem_singleton_self _))
    · refine List.forall_mem_cons.2 ⟨claim_not_mem taken key, fun name hname htaken => ?_⟩
      exact hfree name hname (List.mem_append_left _ htaken)

/-- There is a field for each key, in order, and to it belongs what belongs to the key. -/
theorem entries_fieldsFrom (taken : List String) (entries : List (String × σ)) :
    (fieldsFrom taken entries).map (fun field => (field.key, field.value)) = entries := by
  induction entries generalizing taken with
  | nil => rfl
  | cons e rest ih => rw [fieldsFrom, List.map_cons, ih]

theorem length_fieldsFrom (taken : List String) (entries : List (String × σ)) :
    (fieldsFrom taken entries).length = entries.length := by
  have hlength := congrArg List.length (entries_fieldsFrom taken entries)
  rwa [List.length_map] at hlength

theorem keys_fieldsFrom (taken : List String) (entries : List (String × σ)) :
    (fieldsFrom taken entries).map Field.key = entries.map Prod.fst := by
  have hkeys := congrArg (List.map Prod.fst) (entries_fieldsFrom taken entries)
  rwa [List.map_map] at hkeys

theorem values_fieldsFrom (taken : List String) (entries : List (String × σ)) :
    (fieldsFrom taken entries).map Field.value = entries.map Prod.snd := by
  have hvalues := congrArg (List.map Prod.snd) (entries_fieldsFrom taken entries)
  rwa [List.map_map] at hvalues

/-- Claims for some keys after claims for others. -/
theorem fieldsFrom_append (taken : List String) (before after : List (String × σ)) :
    fieldsFrom taken (before ++ after) =
      fieldsFrom taken before ++
        fieldsFrom (taken ++ (fieldsFrom taken before).map Field.ident) after := by
  induction before generalizing taken with
  | nil => simp [fieldsFrom]
  | cons e rest ih =>
    obtain ⟨key, value⟩ := e
    simp only [List.cons_append, List.nil_append, fieldsFrom, ih, List.map_cons, List.append_assoc]

end Naming

end JsonShape
