import EndpointMonitor.Json.Document
import EndpointMonitor.Proofs.Json.Reading

/-!
Free values that are written and read back. The members of an object come in the order of their
keys already, and a value is read in full exactly if it does not nest too deep.
-/

namespace EndpointMonitor

namespace Json

mutual

/-- How deep containers nest in a value. -/
def depth : Json → Nat
  | .array items => depthOfItems items + 1
  | .object members => depthOfMembers members + 1
  | _ => 0

def depthOfItems : List Json → Nat
  | [] => 0
  | item :: rest => max (depth item) (depthOfItems rest)

def depthOfMembers : List (String × Json) → Nat
  | [] => 0
  | (_, value) :: rest => max (depth value) (depthOfMembers rest)

end

/-! ### The order of members -/

/-- All keys come before another. -/
def AllBefore (members : List (String × Json)) (key : String) : Prop := ∀ m ∈ members, m.1 < key

theorem insertMember_of_allBefore {members : List (String × Json)} {key : String}
    (h : AllBefore members key) (value : Json) :
    insertMember key value members = members ++ [(key, value)] := by
  induction members with
  | nil => rfl
  | cons m members ih =>
    have first : m.1 < key := h m List.mem_cons_self
    have notBefore : ¬ key < m.1 := fun before => String.lt_irrefl _ (String.lt_trans first before)
    have apart : key ≠ m.1 := fun same => String.lt_irrefl _ (same ▸ first)
    rw [insertMember, if_neg notBefore, if_neg apart,
      ih fun n hn => h n (List.mem_cons_of_mem m hn)]
    rfl

theorem allBefore_of_precedes {key : String} {members : List (String × Json)}
    (first : precedes key members = true) (ascending : orderedMembers members = true) :
    ∀ m ∈ members, key < m.1 := by
  induction members with
  | nil => nofun
  | cons m members ih =>
    simp only [orderedMembers, Bool.and_eq_true] at ascending
    simp only [precedes, decide_eq_true_eq] at first
    intro n hn
    rcases List.mem_cons.1 hn with rfl | hn
    · exact first
    · exact ih (precedes_trans first ascending.1.1) ascending.2 n hn

theorem foldl_insertMember {sorted members : List (String × Json)}
    (ascending : orderedMembers members = true) (later : ∀ m ∈ members, AllBefore sorted m.1) :
    members.foldl (fun sorted m => insertMember m.1 m.2 sorted) sorted = sorted ++ members := by
  induction members generalizing sorted with
  | nil => exact (List.append_nil sorted).symm
  | cons m members ih =>
    have parts := ascending
    simp only [orderedMembers, Bool.and_eq_true] at parts
    rw [List.foldl_cons, insertMember_of_allBefore (later m List.mem_cons_self)]
    have others : ∀ n ∈ members, AllBefore (sorted ++ [m]) n.1 := by
      intro n hn k hk
      rcases List.mem_append.1 hk with hk | hk
      · exact later n (List.mem_cons_of_mem m hn) k hk
      · obtain rfl := List.mem_singleton.1 hk
        exact allBefore_of_precedes parts.1.1 parts.2 n hn
    rw [ih parts.2 others, List.append_assoc]
    rfl

/-- Members that are in order stay where they are. -/
theorem sortMembers_of_ordered {members : List (String × Json)}
    (h : orderedMembers members = true) : sortMembers members = members :=
  foldl_insertMember h fun _ _ => nofun

/-! ### Values -/

mutual

/-- The value with every number as it is read back. -/
def reread : Json → Json
  | .number n => .number (n.reread.getD n)
  | .array items => .array (rereadItems items)
  | .object members => .object (rereadMembers members)
  | v => v

def rereadItems : List Json → List Json
  | [] => []
  | item :: rest => reread item :: rereadItems rest

def rereadMembers : List (String × Json) → List (String × Json)
  | [] => []
  | (key, value) :: rest => (key, reread value) :: rereadMembers rest

end

theorem precedes_rereadMembers (key : String) (members : List (String × Json)) :
    precedes key (rereadMembers members) = precedes key members := by
  cases members <;> rfl

mutual

theorem ordered_reread (v : Json) : v.reread.ordered = v.ordered := by
  cases v with
  | array items => exact orderedItems_reread items
  | object members => exact orderedMembers_reread members
  | null | bool b | number n | string s => rfl

theorem orderedItems_reread (items : List Json) :
    orderedItems (rereadItems items) = orderedItems items := by
  match items with
  | [] => rfl
  | item :: rest =>
    rw [rereadItems, orderedItems, orderedItems, ordered_reread item, orderedItems_reread rest]

theorem orderedMembers_reread (members : List (String × Json)) :
    orderedMembers (rereadMembers members) = orderedMembers members := by
  match members with
  | [] => rfl
  | (key, value) :: rest =>
    rw [rereadMembers, orderedMembers, orderedMembers, precedes_rereadMembers,
      ordered_reread value, orderedMembers_reread rest]

end

mutual

theorem reread_of_exact {v : Json} (h : v.Numbers Number.Exact) : v.reread = v := by
  match v, h with
  | .number n, h => rw [reread, Number.ReadsAs.reread h, Option.getD_some]
  | .array items, h => rw [reread, rereadItems_of_exact h]
  | .object members, h => rw [reread, rereadMembers_of_exact h]
  | .null, _ | .bool _, _ | .string _, _ => rfl

theorem rereadItems_of_exact {items : List Json} (h : NumbersOfItems Number.Exact items) :
    rereadItems items = items := by
  match items, h with
  | [], _ => rfl
  | item :: rest, ⟨first, others⟩ =>
    rw [rereadItems, reread_of_exact first, rereadItems_of_exact others]

theorem rereadMembers_of_exact {members : List (String × Json)}
    (h : NumbersOfMembers Number.Exact members) : rereadMembers members = members := by
  match members, h with
  | [], _ => rfl
  | (key, value) :: rest, ⟨first, others⟩ =>
    rw [rereadMembers, reread_of_exact first, rereadMembers_of_exact others]

end

mutual

/-- A value is read back, each number as it is read, where there is room for the value. -/
theorem json_toNode (v : Json) (readable : v.Numbers Number.Readable)
    (ordered_ : v.ordered = true) {room : Nat} (fits : v.depth ≤ room) :
    v.toNode.json? room = some v.reread := by
  match v, readable with
  | .null, _ | .bool _, _ | .string _, _ => rfl
  | .number n, ⟨m, read⟩ =>
    simp only [toNode, Node.json?, reread, read.reread, Option.map_some, Option.getD_some]
  | .array items, readable =>
    cases room with
    | zero => exact absurd fits (Nat.not_succ_le_zero _)
    | succ room =>
      have inner := items_toNodes items readable ordered_ (Nat.le_of_succ_le_succ fits)
      simp only [toNode, Node.json?, if_true, inner, Option.map_some, reread]
  | .object members, readable =>
    cases room with
    | zero => exact absurd fits (Nat.not_succ_le_zero _)
    | succ room =>
      have inner := members_toMembers members readable ordered_ (Nat.le_of_succ_le_succ fits)
      have sorted : orderedMembers (rereadMembers members) = true :=
        (orderedMembers_reread members).trans ordered_
      simp only [toNode, Node.json?, if_true, inner, Option.map_some, reread,
        sortMembers_of_ordered sorted]

theorem items_toNodes (items : List Json) (readable : NumbersOfItems Number.Readable items)
    (ordered_ : orderedItems items = true) {room : Nat} (fits : depthOfItems items ≤ room) :
    Node.items? room (toNodes items) = some (rereadItems items) := by
  match items, readable with
  | [], _ => rfl
  | item :: rest, ⟨first, others⟩ =>
    simp only [orderedItems, Bool.and_eq_true] at ordered_
    have fit := Nat.max_le.1 fits
    simp only [toNodes, Node.items?, json_toNode item first ordered_.1 fit.1,
      items_toNodes rest others ordered_.2 fit.2, Option.map_some, rereadItems]

theorem members_toMembers (members : List (String × Json))
    (readable : NumbersOfMembers Number.Readable members) (ordered_ : orderedMembers members = true)
    {room : Nat} (fits : depthOfMembers members ≤ room) :
    Node.members? room (toMembers members) = some (rereadMembers members) := by
  match members, readable with
  | [], _ => rfl
  | (key, value) :: rest, ⟨first, others⟩ =>
    simp only [orderedMembers, Bool.and_eq_true] at ordered_
    have fit := Nat.max_le.1 fits
    simp only [toMembers, Node.members?, json_toNode value first ordered_.1.2 fit.1,
      members_toMembers rest others ordered_.2 fit.2, Option.map_some, rereadMembers]

end

mutual

/-- A value whose numbers can be read is read exactly if there is room for it. -/
theorem isSome_json_toNode (v : Json) (readable : v.Numbers Number.Readable) (room : Nat) :
    (v.toNode.json? room).isSome = true ↔ v.depth ≤ room := by
  cases v with
  | null | bool b | string s => exact ⟨fun _ => Nat.zero_le _, fun _ => rfl⟩
  | number n =>
    obtain ⟨m, read⟩ := readable
    simp [toNode, Node.json?, read.reread, depth]
  | array items =>
    cases room with
    | zero => simp [toNode, Node.json?, depth]
    | succ room =>
      simp only [toNode, Node.json?, if_true, Option.isSome_map, depth, Nat.succ_le_succ_iff]
      exact isSome_items_toNodes items readable room
  | object members =>
    cases room with
    | zero => simp [toNode, Node.json?, depth]
    | succ room =>
      simp only [toNode, Node.json?, if_true, Option.isSome_map, depth, Nat.succ_le_succ_iff]
      exact isSome_members_toMembers members readable room

theorem isSome_items_toNodes (items : List Json) (readable : NumbersOfItems Number.Readable items)
    (room : Nat) :
    (Node.items? room (toNodes items)).isSome = true ↔ depthOfItems items ≤ room := by
  match items, readable with
  | [], _ => exact ⟨fun _ => Nat.zero_le _, fun _ => rfl⟩
  | item :: rest, ⟨first, others⟩ =>
    have head := isSome_json_toNode item first room
    have tail := isSome_items_toNodes rest others room
    rw [depthOfItems, Nat.max_le, ← head, ← tail, toNodes, Node.items?]
    cases item.toNode.json? room <;> simp

theorem isSome_members_toMembers (members : List (String × Json))
    (readable : NumbersOfMembers Number.Readable members) (room : Nat) :
    (Node.members? room (toMembers members)).isSome = true ↔ depthOfMembers members ≤ room := by
  match members, readable with
  | [], _ => exact ⟨fun _ => Nat.zero_le _, fun _ => rfl⟩
  | (key, value) :: rest, ⟨first, others⟩ =>
    have head := isSome_json_toNode value first room
    have tail := isSome_members_toMembers rest others room
    rw [depthOfMembers, Nat.max_le, ← head, ← tail]
    simp only [toMembers, Node.members?]
    cases value.toNode.json? room with
    | none => simp only [Option.isSome_none, Bool.false_eq_true, false_and]
    | some value => simp only [Option.isSome_map, Option.isSome_some, true_and]

end

end Json

/-- The document with every number as it is read back. -/
def Document.reread (d : Document) : Document :=
  ⟨d.value.reread, (Json.ordered_reread d.value).trans d.ordered⟩

theorem Document.reread_of_exact {d : Document} (h : d.value.Numbers Number.Exact) :
    d.reread = d := by
  obtain ⟨value, ordered⟩ := d
  simp only [reread, Json.reread_of_exact h]

theorem Document.ofNode_toNode {d : Document} (readable : d.value.Numbers Number.Readable)
    {room : Nat} (fits : d.value.depth ≤ room) :
    Document.ofNode? room d.value.toNode = some d.reread := by
  have read := Json.json_toNode d.value readable d.ordered fits
  unfold ofNode?
  split
  · next nothing => rw [read] at nothing; cases nothing
  · next value there =>
    obtain rfl : d.value.reread = value := Option.some.inj (read.symm.trans there)
    rfl

/-- What nests too deep for the room is no document there. -/
theorem Document.ofNode_toNode_none {d : Document} (readable : d.value.Numbers Number.Readable)
    {room : Nat} (deep : room < d.value.depth) : Document.ofNode? room d.value.toNode = none := by
  have unread : d.value.toNode.json? room = none := by
    rw [← Option.isSome_eq_false_iff.trans Option.isNone_iff_eq_none]
    refine Bool.eq_false_iff.2 fun read => ?_
    exact absurd ((Json.isSome_json_toNode d.value readable room).1 read) (Nat.not_le.2 deep)
  unfold ofNode?
  split
  · rfl
  · next value there => rw [unread] at there; cases there

end EndpointMonitor
