import JsonShape.Proofs.Naming.Distinct
import JsonShape.Proofs.Naming.Legality
import JsonShape.Proofs.Text.Strictness

/-!
# How wide a document is

Each field of a struct is there for a value of the document, each value for a token, and each token for
a character of the text.  So no struct that is inferred from a text has more fields than the text has
characters.

* `Shape.length_le_weightAll` — a struct has no more fields than there are values.
* `Derivation.weight_node_le` — there are no more values than tokens.
* `LaidOut.length_le` — there are no more tokens than characters.
* `length_le_of_hasStruct` — the fields of a struct and the characters of the text.
-/

namespace JsonShape

/-! ## Values of an object -/

namespace Members

variable {α : Type} {weight : List α → Nat}

/-- Each key with a value weighs something. -/
theorem length_inhabited_le (hpos : ∀ values, values ≠ [] → 0 < weight values) (m : Members α) :
    m.inhabited.entries.length ≤ weigh weight m.entries := by
  obtain ⟨entries⟩ := m
  simp only [inhabited]
  induction entries with
  | nil => exact Nat.zero_le _
  | cons e rest ih =>
    obtain ⟨key, values⟩ := e
    rw [weigh, List.filter_cons]
    split
    · rename_i hne
      have hvalues := hpos values (by simpa using hne)
      rw [List.length_cons]
      omega
    · omega

end Members

/-! ## Fields and values -/

namespace Node

theorem weightAll_pos {group : List Node} (hne : group ≠ []) : 0 < weightAll group := by
  obtain ⟨first, rest, rfl⟩ := List.exists_cons_of_ne_nil hne
  rw [weightAll]
  have hfirst := first.weight_pos
  omega

end Node

namespace Shape

open Node (weightAll mergeObjects)

/-- A struct has no more fields than there are values. -/
theorem length_le_weightAll (group : List Node) {fields : List (Field Shape)}
    (h : (ofGroup group).HasStruct fields) : fields.length ≤ weightAll group := by
  induction group using Node.merge_induction with
  | mixed group hkind =>
    rw [ofGroup_of_mixed hkind] at h
    cases h
  | primitive group type hkind =>
    rw [ofGroup_of_primitive hkind] at h
    cases type <;> cases h
  | array elements ih =>
    have hlt := Node.weightAll_elements_lt elements
    rw [ofGroup_array] at h
    split at h
    · cases h with
      | element h => cases h
    · cases h with
      | element h => exact (ih h).trans (Nat.le_of_lt hlt)
  | arrays group hkind hlen =>
    rw [ofGroup_arrays hkind hlen] at h
    cases h with
    | element h => cases h
  | objects group hkind ih =>
    rw [ofGroup_of_object hkind] at h
    cases h with
    | own =>
      rw [Naming.fields, Naming.length_fieldsFrom, List.length_map]
      have hinhabited := Members.length_inhabited_le (fun _ => Node.weightAll_pos) (mergeObjects group)
      have hmerged := Node.weighAll_members_le group
      rw [mergeObjects, Members.weigh_merge Node.weightAll_append, ← mergeObjects] at hinhabited
      omega
    | inner houter h =>
      obtain ⟨hentry, -⟩ := Naming.exists_of_mem_fieldsFrom houter
      obtain ⟨⟨key, values⟩, hvalues, heq⟩ := List.mem_map.1 hentry
      obtain ⟨-, hvalue⟩ := Prod.mk.inj heq
      rw [← hvalue] at h
      exact (ih key values hvalues h).trans
        (Nat.le_of_lt (Node.weightAll_lt_of_mem_mergeObjects hkind hvalues))

end Shape

/-! ## Values and tokens -/

open Node (weightAll)

theorem Node.weight_ofPairs (pairs : List (String × Node)) :
    (Node.object (.ofPairs pairs)).weight = 1 + weightAll (pairs.map Prod.snd) := by
  have hnil : weightAll [] = 0 := by rw [weightAll]
  rw [Node.weight_object, Members.weigh_ofPairs Node.weightAll_append hnil]

mutual

/-- There are no more values than tokens. -/
theorem Derivation.weight_node_le (d : Derivation) : d.node.weight ≤ d.tokens.length := by
  cases d with
  | primitive type t => simp [Derivation.node, Derivation.tokens, Node.weight]
  | emptyObject opening closing =>
    simp [Derivation.node, Derivation.tokens, Node.weight_ofPairs, weightAll]
  | object opening key colon value more closing =>
    have hvalue := value.weight_node_le
    have hmore := more.weightAll_pairs_le
    simp only [Derivation.node, Derivation.tokens, Node.weight_ofPairs, List.map_cons, weightAll,
      List.length_cons, List.length_append]
    omega
  | emptyArray opening closing =>
    simp [Derivation.node, Derivation.tokens, Node.weight_array, weightAll]
  | array opening value more closing =>
    have hvalue := value.weight_node_le
    have hmore := more.weightAll_nodes_le
    simp only [Derivation.node, Derivation.tokens, Node.weight_array, weightAll, List.length_cons,
      List.length_append]
    omega

theorem MoreMembers.weightAll_pairs_le (more : MoreMembers) :
    weightAll (more.pairs.map Prod.snd) ≤ more.tokens.length := by
  cases more with
  | none => simp [MoreMembers.pairs, weightAll]
  | next comma key colon value more =>
    have hvalue := value.weight_node_le
    have hmore := more.weightAll_pairs_le
    simp only [MoreMembers.pairs, MoreMembers.tokens, List.map_cons, weightAll, List.length_cons,
      List.length_append]
    omega

theorem MoreElements.weightAll_nodes_le (more : MoreElements) :
    weightAll more.nodes ≤ more.tokens.length := by
  cases more with
  | none => simp [MoreElements.nodes, weightAll]
  | next comma value more =>
    have hvalue := value.weight_node_le
    have hmore := more.weightAll_nodes_le
    simp only [MoreElements.nodes, MoreElements.tokens, weightAll, List.length_cons,
      List.length_append]
    omega

end

namespace Text

/-! ## Tokens and characters -/

/-- There are no more tokens than characters. -/
theorem LaidOut.length_le {last : Token} {cs : List Char} {ts : List Token}
    (h : LaidOut last cs ts) : ts.length ≤ cs.length := by
  induction ts generalizing cs with
  | nil => exact Nat.zero_le _
  | cons t rest ih =>
    obtain ⟨blank, whole, behind, rfl, -, hspelling, hrest⟩ := h.of_cons
    obtain ⟨c, cs, rfl, -⟩ := hspelling.exists_cons
    have hlength := ih hrest
    simp only [List.length_cons, List.length_append]
    omega

/-- No struct that is inferred from a text has more fields than the text has characters. -/
theorem length_le_of_hasStruct {json : String} {limit : Nat} {root : Node}
    (h : Generator.parse json limit = .ok root) {fields : List (Field Shape)}
    (hstruct : (Shape.ofGroup [root]).HasStruct fields) : fields.length ≤ json.length := by
  obtain ⟨d, edge, -, -, rfl, -, hlaid⟩ := exists_laidOut h
  calc fields.length
      ≤ weightAll [d.node] := Shape.length_le_weightAll [d.node] hstruct
    _ = d.node.weight := by rw [weightAll, weightAll, Nat.add_zero]
    _ ≤ d.tokens.length := d.weight_node_le
    _ ≤ json.toList.length := hlaid.length_le
    _ = json.length := String.length_toList

end Text

end JsonShape
