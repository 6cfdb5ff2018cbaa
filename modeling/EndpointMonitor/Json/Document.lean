import EndpointMonitor.Json.Node

/-!
Free JSON values: whatever a payload holds, with the members of every object in the order of their
keys. Reading a value keeps the last of several members with one key.
-/

namespace EndpointMonitor.Json

/-- Whether `key` comes before the first of the members. -/
def precedes (key : String) : List (String × Json) → Bool
  | [] => true
  | (k, _) :: _ => key < k

mutual

/-- In every object the keys ascend. -/
def ordered : Json → Bool
  | .array items => orderedItems items
  | .object members => orderedMembers members
  | _ => true

def orderedItems : List Json → Bool
  | [] => true
  | item :: rest => ordered item && orderedItems rest

def orderedMembers : List (String × Json) → Bool
  | [] => true
  | (key, value) :: rest => precedes key rest && ordered value && orderedMembers rest

end

theorem precedes_insertMember {k key : String} {value : Json} {members : List (String × Json)}
    (hk : k < key) (h : precedes k members) : precedes k (insertMember key value members) := by
  cases members with
  | nil => simpa [insertMember, precedes] using hk
  | cons m rest =>
    simp only [precedes, decide_eq_true_eq] at h
    unfold insertMember
    split
    · simpa [precedes] using hk
    · split
      · simpa [precedes] using hk
      · simpa [precedes] using h

theorem precedes_trans {a b : String} {members : List (String × Json)} (hab : a < b)
    (h : precedes b members) : precedes a members := by
  cases members with
  | nil => rfl
  | cons m rest =>
    simp only [precedes, decide_eq_true_eq] at h ⊢
    exact String.lt_trans hab h

theorem orderedMembers_insertMember {key : String} {value : Json} {members : List (String × Json)}
    (hv : ordered value) (h : orderedMembers members) :
    orderedMembers (insertMember key value members) := by
  induction members with
  | nil => simpa [insertMember, orderedMembers, precedes] using hv
  | cons m rest ih =>
    obtain ⟨k, v⟩ := m
    simp only [orderedMembers, Bool.and_eq_true] at h
    unfold insertMember
    split
    · simp_all [orderedMembers, precedes]
    · rename_i hlt
      split
      · rename_i he
        subst he
        simp_all [orderedMembers]
      · rename_i hne
        have hk : k < key := by
          rcases Decidable.em (k < key) with hk | hk
          · exact hk
          · exact absurd (String.le_antisymm (String.not_lt.1 hk) (String.not_lt.1 hlt)) hne
        simp only [orderedMembers, Bool.and_eq_true]
        exact ⟨⟨precedes_insertMember hk h.1.1, h.1.2⟩, ih h.2⟩

theorem orderedMembers_foldl {members sorted : List (String × Json)}
    (hm : ∀ m ∈ members, ordered m.2) (h : orderedMembers sorted) :
    orderedMembers (members.foldl (fun sorted m => insertMember m.1 m.2 sorted) sorted) := by
  induction members generalizing sorted with
  | nil => exact h
  | cons m rest ih =>
    exact ih (fun n hn => hm n (List.mem_cons_of_mem _ hn))
      (orderedMembers_insertMember (hm m List.mem_cons_self) h)

theorem orderedMembers_sortMembers {members : List (String × Json)}
    (hm : ∀ m ∈ members, ordered m.2) : orderedMembers (sortMembers members) :=
  orderedMembers_foldl hm rfl

mutual

/-- The free value of a node that can be read in full and nests at most `room` containers. -/
def Node.json? (room : Nat) : Node → Option Json
  | .null => some .null
  | .bool b => some (.bool b)
  | .number n => n.map .number
  | .string s => s.map .string
  | .array items closed =>
    match room with
    | 0 => none
    | room + 1 => if closed then (Node.items? room items).map .array else none
  | .object members closed =>
    match room with
    | 0 => none
    | room + 1 =>
      if closed then (Node.members? room members).map fun ms => .object (sortMembers ms) else none
  | .keyless _ => none
  | .broken => none

def Node.items? (room : Nat) : List Node → Option (List Json)
  | [] => some []
  | item :: rest =>
    match Node.json? room item with
    | none => none
    | some value => (Node.items? room rest).map (value :: ·)

def Node.members? (room : Nat) : List (Option String × Node) → Option (List (String × Json))
  | [] => some []
  | (key, node) :: rest =>
    match key, Node.json? room node with
    | some key, some value => (Node.members? room rest).map ((key, value) :: ·)
    | _, _ => none

end

mutual

theorem Node.ordered_of_json? (room : Nat) (node : Node) (value : Json)
    (h : Node.json? room node = some value) : ordered value := by
  cases node with
  | null => simp only [Node.json?, Option.some.injEq] at h; subst h; rfl
  | bool b => simp only [Node.json?, Option.some.injEq] at h; subst h; rfl
  | number n =>
    simp only [Node.json?, Option.map_eq_some_iff] at h
    obtain ⟨_, _, rfl⟩ := h; rfl
  | string s =>
    simp only [Node.json?, Option.map_eq_some_iff] at h
    obtain ⟨_, _, rfl⟩ := h; rfl
  | array items closed =>
    cases room with
    | zero => simp [Node.json?] at h
    | succ room =>
      cases closed with
      | false => simp [Node.json?] at h
      | true =>
        simp only [Node.json?, if_true, Option.map_eq_some_iff] at h
        obtain ⟨values, hv, rfl⟩ := h
        exact Node.orderedItems_of_items? room items values hv
  | object members closed =>
    cases room with
    | zero => simp [Node.json?] at h
    | succ room =>
      cases closed with
      | false => simp [Node.json?] at h
      | true =>
        simp only [Node.json?, if_true, Option.map_eq_some_iff] at h
        obtain ⟨values, hv, rfl⟩ := h
        exact orderedMembers_sortMembers (Node.ordered_of_members? room members values hv)
  | keyless _ => simp [Node.json?] at h
  | broken => simp [Node.json?] at h

theorem Node.orderedItems_of_items? (room : Nat) (items : List Node) (values : List Json)
    (h : Node.items? room items = some values) : orderedItems values := by
  cases items with
  | nil => simp only [Node.items?, Option.some.injEq] at h; subst h; rfl
  | cons item rest =>
    unfold Node.items? at h
    split at h
    · simp at h
    · rename_i value hv
      simp only [Option.map_eq_some_iff] at h
      obtain ⟨values, hr, rfl⟩ := h
      simp only [orderedItems, Bool.and_eq_true]
      exact ⟨Node.ordered_of_json? room item value hv,
        Node.orderedItems_of_items? room rest values hr⟩

theorem Node.ordered_of_members? (room : Nat) (members : List (Option String × Node))
    (values : List (String × Json)) (h : Node.members? room members = some values) :
    ∀ m ∈ values, ordered m.2 := by
  cases members with
  | nil => simp only [Node.members?, Option.some.injEq] at h; subst h; simp
  | cons member rest =>
    unfold Node.members? at h
    split at h
    · rename_i key value _ hv
      simp only [Option.map_eq_some_iff] at h
      obtain ⟨values, hr, rfl⟩ := h
      intro m hm
      rcases List.mem_cons.1 hm with rfl | hm
      · exact Node.ordered_of_json? room _ value hv
      · exact Node.ordered_of_members? room rest values hr m hm
    · simp at h

end

end Json

/-- A free JSON value. -/
structure Document where
  value : Json
  ordered : value.ordered = true

namespace Document

def null : Document := ⟨.null, rfl⟩

/-- How deep containers may nest in a payload. -/
def maxDepth : Nat := 127

/-- The document of a node that can be read in full within `room` levels of nesting. -/
def ofNode? (room : Nat) (node : Json.Node) : Option Document :=
  match h : node.json? room with
  | none => none
  | some value => some ⟨value, Json.Node.ordered_of_json? room node value h⟩

/-- The document that a text denotes. -/
def parse? (text : Bytes) : Option Document :=
  let reading := Json.read text
  if reading.clean then ofNode? maxDepth reading.root else none

end Document

end EndpointMonitor
