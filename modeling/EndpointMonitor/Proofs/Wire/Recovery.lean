import EndpointMonitor.Proofs.Json.Document
import EndpointMonitor.Wire.Decoder

/-!
Decoders that recover what was encoded: from the node of the encoding, in a payload or after it was
buffered, wherever there is room for the containers that nest in it.
-/

namespace EndpointMonitor.Wire

open Json (Node)

/-- How deep containers may nest in a node. -/
def Source.room : Source → Nat
  | .payload room => room
  | .buffered | .table => Document.maxDepth

/-- The decoder reads `value` for an encoding that nests at most `levels` containers. -/
structure Recovers {α : Type} (decode : Decoder α) (encoding : Json) (value : α) (levels : Nat) :
    Prop where
  readable : encoding.Numbers Number.Readable
  depth : encoding.depth ≤ levels
  decode : ∀ source : Source, encoding.depth ≤ source.room →
    decode source encoding.toNode = .ok value

/-- What is encoded for a value is decoded as that value. -/
def Faithful {α : Type} [Wire α] (value : α) (levels : Nat) : Prop :=
  Recovers Wire.decode (Wire.encode value) value levels

section
variable {α β : Type} {decode : Decoder α} {encoding : Json} {value : α} {levels : Nat}

theorem Recovers.mono (h : Recovers decode encoding value levels) {more : Nat}
    (le : levels ≤ more) : Recovers decode encoding value more :=
  ⟨h.readable, Nat.le_trans h.depth le, h.decode⟩

theorem Recovers.map (h : Recovers decode encoding value levels) (f : α → β) :
    Recovers (fun source node => f <$> decode source node) encoding (f value) levels where
  readable := h.readable
  depth := h.depth
  decode source room := by
    rw [h.decode source room]
    rfl

/-- What is decoded goes through a check that it passes. -/
theorem Recovers.bind (h : Recovers decode encoding value levels) {f : α → Result β} {checked : β}
    (passes : f value = .ok checked) :
    Recovers (fun source node => decode source node >>= f) encoding checked levels where
  readable := h.readable
  depth := h.depth
  decode source room := by
    rw [h.decode source room]
    exact passes

/-- A value without containers. -/
theorem recovers_leaf (readable : encoding.Numbers Number.Readable) (flat : encoding.depth = 0)
    (h : ∀ source, decode source encoding.toNode = .ok value) :
    Recovers decode encoding value 0 :=
  ⟨readable, Nat.le_of_eq flat, fun source _ => h source⟩

/-- What can be decoded can be read in full before that. -/
theorem buffer_of_readable (readable : encoding.Numbers Number.Readable) {source : Source}
    (room : encoding.depth ≤ source.room) : buffer source encoding.toNode = .ok () := by
  cases source with
  | payload n =>
    have whole := (Json.isSome_json_toNode encoding readable n).2 room
    simp only [buffer, whole, if_true]
    rfl
  | buffered | table => rfl

end

/-- A container can be entered where there is room for it, and leaves room for its parts. -/
theorem Source.enter_of_room {source : Source} {levels : Nat} (room : levels + 1 ≤ source.room) :
    ∃ inner, source.enter = .ok inner ∧ levels ≤ inner.room := by
  cases source with
  | payload n =>
    cases n with
    | zero => exact absurd room (Nat.not_succ_le_zero _)
    | succ n => exact ⟨.payload n, rfl, Nat.le_of_succ_le_succ room⟩
  | buffered => exact ⟨.buffered, rfl, Nat.le_of_succ_le room⟩
  | table => exact ⟨.table, rfl, Nat.le_of_succ_le room⟩

/-! ### Single values -/

theorem exact_nat {n : Nat} (h : n < UInt64.size) : (Number.integer n).Exact := by
  apply Number.exact_integer
  have least : Int64.minValue.toInt ≤ 0 := by decide
  have most : (n : Int) < UInt64.size := Int.ofNat_lt.2 h
  simp only [Number.isWord, Bool.and_eq_true, decide_eq_true_eq]
  exact ⟨Int.le_trans least (Int.natCast_nonneg n), most⟩

theorem recovers_nat {n limit : Nat} (below : n < limit) (word : limit ≤ UInt64.size)
    (expected : String) : Recovers (decodeNat limit expected) (.nat n) n 0 := by
  have exact_ : (Number.integer n).Exact := exact_nat (Nat.lt_of_lt_of_le below word)
  refine recovers_leaf exact_.readable rfl fun source => ?_
  have inside : 0 ≤ (n : Int) ∧ (n : Int) < limit :=
    ⟨Int.natCast_nonneg n, Int.ofNat_lt.2 below⟩
  simp only [Json.nat, Json.toNode, exact_.reread, decodeNat, if_pos inside]
  rfl

theorem faithful_uint8 (n : UInt8) : Faithful n 0 := by
  have read := (recovers_nat n.toNat_lt (by decide) "u8").map UInt8.ofNat
  rwa [UInt8.ofNat_toNat] at read

theorem faithful_uint32 (n : UInt32) : Faithful n 0 := by
  have read := (recovers_nat n.toNat_lt (by decide) "u32").map UInt32.ofNat
  rwa [UInt32.ofNat_toNat] at read

theorem faithful_uint64 (n : UInt64) : Faithful n 0 := by
  have read := (recovers_nat n.toNat_lt (by decide) "u64").map UInt64.ofNat
  rwa [UInt64.ofNat_toNat] at read

theorem faithful_bool (b : Bool) : Faithful b 0 := recovers_leaf trivial rfl fun _ => rfl

theorem faithful_string (s : String) : Faithful s 0 := recovers_leaf trivial rfl fun _ => rfl

/-! ### Sequences -/

section
variable {α : Type} [Wire α] {xs : List α} {levels : Nat}

theorem depth_items (h : ∀ x ∈ xs, Faithful x levels) :
    Json.depthOfItems (xs.map Wire.encode) ≤ levels := by
  induction xs with
  | nil => exact Nat.zero_le _
  | cons x xs ih =>
    have first := (h x List.mem_cons_self).depth
    exact Nat.max_le.2 ⟨first, ih fun y hy => h y (List.mem_cons_of_mem x hy)⟩

theorem readable_items (h : ∀ x ∈ xs, Faithful x levels) :
    Json.NumbersOfItems Number.Readable (xs.map Wire.encode) := by
  induction xs with
  | nil => trivial
  | cons x xs ih =>
    exact ⟨(h x List.mem_cons_self).readable, ih fun y hy => h y (List.mem_cons_of_mem x hy)⟩

theorem mapM_decode (h : ∀ x ∈ xs, Faithful x levels) {source : Source}
    (room : Json.depthOfItems (xs.map Wire.encode) ≤ source.room) :
    (Json.toNodes (xs.map Wire.encode)).mapM (Wire.decode (α := α) source) = .ok xs := by
  induction xs with
  | nil => rfl
  | cons x xs ih =>
    have fit := Nat.max_le.1 room
    have first := (h x List.mem_cons_self).decode source fit.1
    have others := ih (fun y hy => h y (List.mem_cons_of_mem x hy)) fit.2
    rw [List.map_cons, Json.toNodes, List.mapM_cons, first, others]
    rfl

theorem faithful_list (h : ∀ x ∈ xs, Faithful x levels) : Faithful xs (levels + 1) where
  readable := readable_items h
  depth := Nat.succ_le_succ (depth_items h)
  decode source room := by
    obtain ⟨inner, enters, fits⟩ := Source.enter_of_room room
    have values := mapM_decode h fits
    simp only [Wire.encode, Json.toNode, Wire.decode, openSequence, enters]
    show (do
      let values ← (Json.toNodes (xs.map Wire.encode)).mapM (Wire.decode inner)
      if true then pure values else throw DecodeError.malformed) = Except.ok xs
    rw [values]
    rfl

/-- As many items as there are. -/
theorem takeItems_toNodes (expected : String) {source : Source} (index : Nat)
    (h : ∀ x ∈ xs, Faithful x levels)
    (room : Json.depthOfItems (xs.map Wire.encode) ≤ source.room) (closed : Bool) (taken : Nat)
    {count : Nat} (length : xs.length = count) :
    takeItems (α := α) expected source index count
        ⟨Json.toNodes (xs.map Wire.encode), closed, taken⟩ =
      .ok (⟨xs, length⟩, ⟨[], closed, taken + count⟩) := by
  induction count generalizing xs index taken with
  | zero =>
    obtain rfl := List.length_eq_zero_iff.1 length
    rfl
  | succ count ih =>
    cases xs with
    | nil => cases length
    | cons x xs =>
      have fit := Nat.max_le.1 room
      have first := (h x List.mem_cons_self).decode source fit.1
      have others := ih (index + 1) (fun y hy => h y (List.mem_cons_of_mem x hy)) fit.2 (taken + 1)
        (Nat.succ.inj length)
      simp only [takeItems, List.map_cons, Json.toNodes, Items.next, pure_bind, first, others]
      simp only [bind, Except.bind, pure, Except.pure, Nat.add_assoc, Nat.add_comm 1]

end

end EndpointMonitor.Wire
