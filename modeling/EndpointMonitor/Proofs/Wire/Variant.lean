import EndpointMonitor.Proofs.Wire.Record
import EndpointMonitor.Wire.Variant

/-!
Enumerations are recovered from the name of the variant and, where it carries one, from its value.
-/

namespace EndpointMonitor.Wire

open Json (Node)

variable {α : Type} {levels : Nat}

theorem Variants.find_of_lookup {variants : Variants α} {name : String} {value : α}
    (h : variants.lookup name = some value) : variants.find name = .ok value := by
  simp only [find, h]
  rfl

/-! ### Names, and values under names -/

theorem Variants.select_name {variants : Variants α} {name : String} {value : α}
    (h : variants.lookup name = some value) (source : Source) :
    variants.select source (.string (some name)) = .ok (value, none) := by
  simp only [select, find_of_lookup h]
  rfl

theorem Variants.recovers_plain {variants : Variants α} {name : String} {value : α}
    (h : variants.lookup name = some value) :
    Recovers variants.decodePlain (.string name) value 0 := by
  refine recovers_leaf trivial rfl fun source => ?_
  simp only [Json.toNode, decodePlain, select_name h]
  rfl

theorem Variants.select_key {variants : Variants α} {name : String} {value : α}
    (h : variants.lookup name = some value) (content : Node) {source : Source} {room : Nat}
    (fits : room + 1 ≤ source.room) : ∃ inner,
    variants.select source (.object [(some name, content)] true) =
        .ok (value, some (inner, content)) ∧ room ≤ inner.room := by
  obtain ⟨inner, enters, inside⟩ := Source.enter_of_room fits
  cases source with
  | payload n =>
    refine ⟨inner, ?_, inside⟩
    simp only [select, enters, find_of_lookup h]
    rfl
  | buffered =>
    refine ⟨.buffered, ?_, Nat.le_of_succ_le fits⟩
    simp only [select, find_of_lookup h]
    rfl
  | table =>
    refine ⟨inner, ?_, inside⟩
    simp only [select, enters, find_of_lookup h]
    rfl

theorem Variants.recovers_keyed {variants : Variants (Decoder α)} {name : String}
    {decode : Decoder α} (h : variants.lookup name = some decode) {content : Json} {value : α}
    (hc : Recovers decode content value levels) :
    Recovers variants.decodeKeyed (.object [(name, content)]) value (levels + 1) where
  readable := ⟨hc.readable, trivial⟩
  depth := Nat.succ_le_succ (Nat.max_le.2 ⟨hc.depth, Nat.zero_le _⟩)
  decode source room := by
    have fits : content.depth + 1 ≤ source.room := by
      simpa [Json.depth, Json.depthOfMembers] using room
    obtain ⟨inner, selects, inside⟩ := select_key h content.toNode fits
    have ends : Variants.finish source (.object [(some name, content.toNode)] true) = .ok () := by
      cases source <;> rfl
    simp only [Json.toNode, Json.toMembers, decodeKeyed, selects]
    show (do
      let value ← decode inner content.toNode
      Variants.finish source (.object [(some name, content.toNode)] true)
      pure value) = Except.ok value
    rw [hc.decode inner inside, ends]
    rfl

/-! ### Values beside names -/

section
variable {e : Adjacent α} {name : String} {variant : Content α} {value : α}

theorem Adjacent.recovers_content (found : e.variants.lookup name = some variant)
    (apart : e.content ≠ e.tag) {content : Json}
    (hc : Recovers variant.decode content value levels) :
    Recovers e.decode (e.encode name (some content)) value (levels + 1) where
  readable := ⟨trivial, hc.readable, trivial⟩
  depth := Nat.succ_le_succ
    (Nat.max_le.2 ⟨Nat.zero_le _, Nat.max_le.2 ⟨hc.depth, Nat.zero_le _⟩⟩)
  decode source room := by
    obtain ⟨inner, enters, fits⟩ := Source.enter_of_room room
    have inside : content.depth ≤ inner.room := by
      simpa [Json.depth, Json.depthOfMembers] using fits
    have tagged : Variants.decodePlain e.variants inner (.string (some name)) = .ok variant :=
      (Variants.recovers_plain found).decode inner (Nat.zero_le _)
    have read := hc.decode inner inside
    have first : ∀ node rest, e.next true ((some e.tag, node) :: rest) =
        .ok (some (true, node, rest)) := by
      intro node rest
      simp only [next, if_true]
      rfl
    have second : ∀ node rest, e.next true ((some e.content, node) :: rest) =
        .ok (some (false, node, rest)) := by
      intro node rest
      simp only [next, if_neg apart, if_true]
      rfl
    have ends : e.finish true [] = .ok () := rfl
    simp only [Adjacent.encode, Option.map_some, Option.toList_some, Json.toNode, Json.toMembers,
      Adjacent.decode, enters]
    show e.decodeMembers inner [(some e.tag, .string (some name)), (some e.content, content.toNode)]
      true = .ok value
    simp only [decodeMembers, decodeTagged, first, second, tagged, bind, Except.bind, read, ends,
      pure, Except.pure]

theorem Adjacent.recovers_absent (found : e.variants.lookup name = some variant)
    (absent : variant.absent = some value) :
    Recovers e.decode (e.encode name none) value 1 where
  readable := ⟨trivial, trivial⟩
  depth := Nat.le_refl 1
  decode source room := by
    obtain ⟨inner, enters, -⟩ := Source.enter_of_room room
    have tagged : Variants.decodePlain e.variants inner (.string (some name)) = .ok variant :=
      (Variants.recovers_plain found).decode inner (Nat.zero_le _)
    have first : e.next true [(some e.tag, .string (some name))] =
        .ok (some (true, .string (some name), [])) := by
      simp only [next, if_true]
      rfl
    have ends : e.next true [] = .ok none := rfl
    simp only [Adjacent.encode, Option.map_none, Option.toList_none, Json.toNode, Json.toMembers,
      Adjacent.decode, enters]
    show e.decodeMembers inner [(some e.tag, .string (some name))] true = .ok value
    simp only [decodeMembers, decodeTagged, first, ends, tagged, bind, Except.bind, absent,
      pure, Except.pure]

end

/-- A variant that is built from its content. -/
theorem Adjacent.recovers_map {β : Type} [Wire β] {e : Adjacent α} {name : String} {build : β → α}
    (found : e.variants.lookup name = some (Content.map build)) (apart : e.content ≠ e.tag) {b : β}
    (h : Faithful b levels) :
    Recovers e.decode (e.encode name (some (Wire.encode b))) (build b) (levels + 1) :=
  recovers_content found apart (h.map build)

/-! ### Names among the fields -/

section
variable {e : Internal α} {variant : Fields α}

/-- Members that are not the tag are kept as they are. -/
theorem Internal.collect_toMembers {ms : List (String × Json)} {source : Source}
    (readable : Json.NumbersOfMembers Number.Readable ms)
    (room : Json.depthOfMembers ms ≤ source.room) (apart : ∀ m ∈ ms, m.1 ≠ e.tag) :
    e.collect source true (some variant) (Json.toMembers ms) =
      .ok (variant, Json.toMembers ms) := by
  induction ms with
  | nil => rfl
  | cons m ms ih =>
    have fits := Nat.max_le.1 room
    have buffers := buffer_of_readable readable.1 fits.1
    have others := ih readable.2 fits.2 fun n hn => apart n (List.mem_cons_of_mem m hn)
    simp only [Json.toMembers, collect, if_neg (apart m List.mem_cons_self), buffers, others]
    rfl

theorem Internal.recovers {name : String} (found : e.variants.lookup name = some variant)
    {ms : List (String × Json)} (readable : Json.NumbersOfMembers Number.Readable ms)
    (depth : Json.depthOfMembers ms ≤ levels) (apart : ∀ m ∈ ms, m.1 ≠ e.tag) {value : α}
    (fields : variant.members (Json.toMembers ms) = .ok value) :
    Recovers e.decode (.object ((e.tag, .string name) :: ms)) value (levels + 1) where
  readable := ⟨trivial, readable⟩
  depth := Nat.succ_le_succ (Nat.max_le.2 ⟨Nat.zero_le _, depth⟩)
  decode source room := by
    obtain ⟨inner, enters, fits⟩ := Source.enter_of_room room
    have inside : Json.depthOfMembers ms ≤ inner.room := (Nat.max_le.1 fits).2
    have tagged : e.decodeTag (.string (some name)) = .ok variant :=
      Variants.find_of_lookup found
    have others : e.collect inner true (some variant) (Json.toMembers ms) =
        .ok (variant, Json.toMembers ms) := collect_toMembers readable inside apart
    simp only [Json.toNode, Json.toMembers, Internal.decode, enters]
    show e.decodeMembers inner ((some e.tag, .string (some name)) :: Json.toMembers ms) true =
      .ok value
    simp only [decodeMembers, collect, if_true, Option.isSome_none, Bool.false_eq_true, if_false,
      tagged, bind, Except.bind, others, fields]

/-- Fields that belong to no record do not matter. -/
theorem Fields.members_none (value : α) (ms : Members) :
    (Fields.none value).members ms = .ok value := rfl

theorem Fields.members_ofRecord {ρ : Type} {record : Record ρ ρ} {r : ρ}
    (h : record.Recovers r r levels) (room : levels ≤ Document.maxDepth) (expected : String)
    (build : ρ → α) :
    (Fields.ofRecord expected record build).members (Json.toMembers (record.write r)) =
      .ok (build r) := by
  have fits : Json.depthOfMembers (record.write r) ≤ Source.buffered.room :=
    Nat.le_trans h.depth room
  have read := h.decodeMembers fits
  simp only [ofRecord, read]
  rfl

end

end EndpointMonitor.Wire
