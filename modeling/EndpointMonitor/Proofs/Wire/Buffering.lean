import EndpointMonitor.Process
import EndpointMonitor.Proofs.Wire.Order

/-!
Values that are buffered before their decoder is known. What a decoder accepts can be buffered, and
is decoded from the buffer as from the payload.
-/

namespace EndpointMonitor.Wire

open Json (Node)

variable {α β : Type} {room : Nat} {node : Node}

theorem buffer_ok : buffer (.payload room) node = .ok () ↔ (node.json? room).isSome = true := by
  simp only [buffer]
  split
  · next whole => simp [whole, pure, Except.pure]
  · next part => simp [part, throw, throwThe, MonadExceptOf.throw]

theorem Buffers.map {decode : Decoder α} (h : Buffers decode) (f : α → β) :
    Buffers fun source node => f <$> decode source node := by
  intro room node
  have mapped := (h room node).map f
  simpa only [map_bind] using mapped

/-- A decoder of values without parts. -/
theorem buffers_of_leaf {decode : Decoder α}
    (same : ∀ source node, decode source node = decode .buffered node)
    (whole : ∀ room node value,
      decode .buffered node = .ok value → (node.json? room).isSome = true) :
    Buffers decode := by
  intro room node value
  rw [same, Result.bind_ok_iff]
  constructor
  · intro read
    exact ⟨(), buffer_ok.2 (whole room node value read), read⟩
  · rintro ⟨-, -, read⟩
    exact read

theorem buffers_nat (limit : Nat) (expected : String) : Buffers (decodeNat limit expected) := by
  refine buffers_of_leaf (fun _ _ => rfl) fun room node value read => ?_
  unfold decodeNat at read
  split at read
  · rfl
  · cases read

theorem buffers_null (expected : String) : Buffers (decodeNull expected) := by
  refine buffers_of_leaf (fun _ _ => rfl) fun room node value read => ?_
  unfold decodeNull at read
  split at read
  · rfl
  · cases read

theorem buffers_uint8 : Buffers (Wire.decode (α := UInt8)) := (buffers_nat _ _).map UInt8.ofNat

theorem buffers_uint32 : Buffers (Wire.decode (α := UInt32)) := (buffers_nat _ _).map UInt32.ofNat

theorem buffers_bool : Buffers (Wire.decode (α := Bool)) := by
  refine buffers_of_leaf (fun _ _ => rfl) fun room node value read => ?_
  simp only [Wire.decode] at read
  split at read
  · rfl
  · cases read

theorem buffers_string : Buffers (Wire.decode (α := String)) := by
  refine buffers_of_leaf (fun _ _ => rfl) fun room node value read => ?_
  simp only [Wire.decode] at read
  split at read
  · rfl
  · cases read

/-! ### Sequences -/

theorem isSome_items {items : List Node} :
    (Node.items? room items).isSome = true ↔
      ∀ item ∈ items, buffer (.payload room) item = .ok () := by
  induction items with
  | nil => simp [Node.items?]
  | cons item items ih =>
    rw [List.forall_mem_cons, ← ih, buffer_ok, Node.items?]
    cases item.json? room <;> simp

theorem buffer_array {items : List Node} {closed : Bool} :
    buffer (.payload (room + 1)) (.array items closed) = .ok () ↔
      closed = true ∧ ∀ item ∈ items, buffer (.payload room) item = .ok () := by
  rw [buffer_ok, ← isSome_items]
  cases closed <;> simp [Node.json?]

/-- A sequence is entered in the same way wherever it comes from. -/
theorem buffers_of_sequence {expected : String} {decode : Decoder α}
    {items : Source → Items → Result α}
    (opens : ∀ source node, decode source node =
      openSequence expected source node >>= fun opened => items opened.1 opened.2)
    (h : ∀ room nodes closed, Agree (items (.payload room) ⟨nodes, closed, 0⟩)
      (buffer (.payload (room + 1)) (.array nodes closed) >>= fun _ =>
        items .buffered ⟨nodes, closed, 0⟩)) : Buffers decode := by
  intro room node
  rw [opens, opens]
  cases node with
  | array nodes closed =>
    cases room with
    | zero =>
      intro value
      constructor <;> intro read <;> cases read
    | succ room => exact h room nodes closed
  | null | bool _ | number _ | string _ | object _ _ | keyless _ | broken =>
    intro value
    constructor
    · intro read
      cases read
    · intro read
      obtain ⟨⟨⟩, -, read⟩ := Result.bind_ok read
      cases read

theorem mapM_buffers {decode : Decoder α} (h : Buffers decode) {nodes : List Node}
    {values : List α} :
    nodes.mapM (decode (.payload room)) = .ok values ↔
      (∀ node ∈ nodes, buffer (.payload room) node = .ok ()) ∧
        nodes.mapM (decode .buffered) = .ok values := by
  induction nodes generalizing values with
  | nil => simp
  | cons node nodes ih =>
    rw [List.mapM_cons, List.mapM_cons, List.forall_mem_cons]
    constructor
    · intro read
      obtain ⟨first, head, read⟩ := Result.bind_ok read
      obtain ⟨others, tail, same⟩ := Result.bind_ok read
      obtain ⟨⟨⟩, whole, buffered⟩ := Result.bind_ok ((h room node first).1 head)
      obtain ⟨wholes, rest⟩ := ih.1 tail
      exact ⟨⟨whole, wholes⟩, Result.bind_ok_iff.2 ⟨first, buffered,
        Result.bind_ok_iff.2 ⟨others, rest, same⟩⟩⟩
    · rintro ⟨⟨whole, wholes⟩, read⟩
      obtain ⟨first, buffered, read⟩ := Result.bind_ok read
      obtain ⟨others, rest, same⟩ := Result.bind_ok read
      have head := (h room node first).2 (Result.bind_ok_iff.2 ⟨(), whole, buffered⟩)
      have tail := ih.2 ⟨wholes, rest⟩
      exact Result.bind_ok_iff.2 ⟨first, head, Result.bind_ok_iff.2 ⟨others, tail, same⟩⟩

theorem buffers_list [Wire α] (h : Buffers (Wire.decode (α := α))) :
    Buffers (Wire.decode (α := List α)) := by
  let items : Source → Items → Result (List α) := fun inner items => do
    let values ← items.rest.mapM (Wire.decode inner)
    if items.closed then pure values else throw .malformed
  have opens : ∀ source node, Wire.decode source node =
      openSequence "a sequence" source node >>= fun opened => items opened.1 opened.2 :=
    fun _ _ => rfl
  refine buffers_of_sequence opens fun room nodes closed values => ?_
  have ends : ∀ source, items source ⟨nodes, closed, 0⟩ = .ok values ↔
      closed = true ∧ nodes.mapM (Wire.decode source) = .ok values := by
    intro source
    simp only [items, Result.bind_ok_iff]
    cases closed <;> simp [pure, Except.pure, throw, throwThe, MonadExceptOf.throw]
  rw [ends, mapM_buffers h, Result.bind_ok_iff]
  constructor
  · rintro ⟨closed, whole, read⟩
    exact ⟨(), buffer_array.2 ⟨closed, whole⟩, (ends _).2 ⟨closed, read⟩⟩
  · rintro ⟨⟨⟩, whole, read⟩
    exact ⟨((ends _).1 read).1, (buffer_array.1 whole).2, ((ends _).1 read).2⟩

section
variable [Wire α] {expected : String} {index count : Nat} {items items' : Items}
  {values : { values : List α // values.length = count }}

theorem takeItems_buffers (h : Buffers (Wire.decode (α := α))) :
    takeItems expected (.payload room) index count items = .ok (values, items') ↔
      (∀ node ∈ items.rest.take count, buffer (.payload room) node = .ok ()) ∧
        takeItems expected .buffered index count items = .ok (values, items') := by
  induction count generalizing index items items' with
  | zero => simp [takeItems]
  | succ count ih =>
    obtain ⟨_ | ⟨node, rest⟩, closed, taken⟩ := items
    · constructor
      · intro read
        cases closed <;> cases read
      · rintro ⟨-, read⟩
        cases closed <;> cases read
    · simp only [takeItems, Items.next, List.take_succ_cons, List.forall_mem_cons, pure_bind]
      constructor
      · intro read
        obtain ⟨first, head, read⟩ := Result.bind_ok read
        obtain ⟨⟨others, left⟩, tail, same⟩ := Result.bind_ok read
        obtain ⟨⟨⟩, whole, buffered⟩ := Result.bind_ok ((h room node first).1 head)
        obtain ⟨wholes, rest⟩ := ih.1 tail
        exact ⟨⟨whole, wholes⟩, Result.bind_ok_iff.2 ⟨first, buffered,
          Result.bind_ok_iff.2 ⟨(others, left), rest, same⟩⟩⟩
      · rintro ⟨⟨whole, wholes⟩, read⟩
        obtain ⟨first, buffered, read⟩ := Result.bind_ok read
        obtain ⟨⟨others, left⟩, rest, same⟩ := Result.bind_ok read
        have head := (h room node first).2 (Result.bind_ok_iff.2 ⟨(), whole, buffered⟩)
        have tail := ih.2 ⟨wholes, rest⟩
        exact Result.bind_ok_iff.2 ⟨first, head,
          Result.bind_ok_iff.2 ⟨(others, left), tail, same⟩⟩

theorem rest_takeItems {source : Source}
    (h : takeItems expected source index count items = .ok (values, items')) :
    items'.rest = items.rest.drop count ∧ items'.closed = items.closed := by
  induction count generalizing index items items' with
  | zero =>
    cases h
    exact ⟨rfl, rfl⟩
  | succ count ih =>
    obtain ⟨_ | ⟨node, rest⟩, closed, taken⟩ := items
    · cases closed <;> cases h
    · simp only [takeItems, Items.next, pure_bind] at h
      obtain ⟨first, -, read⟩ := Result.bind_ok h
      obtain ⟨⟨others, left⟩, tail, same⟩ := Result.bind_ok read
      cases same
      exact ih tail

end

theorem finish_payload {items : Items} :
    items.finish (.payload room) = .ok () ↔ items.rest = [] ∧ items.closed = true := by
  simp only [Items.finish]
  split
  · next both => simpa [pure, Except.pure] using both
  · next open_ => simpa [throw, throwThe, MonadExceptOf.throw] using open_

theorem finish_buffered {items : Items} : items.finish .buffered = .ok () ↔ items.rest = [] := by
  simp only [Items.finish]
  split
  · next none => simpa [pure, Except.pure] using none
  · next some => simpa [throw, throwThe, MonadExceptOf.throw] using some

theorem buffers_auditToken : Buffers (Wire.decode (α := AuditToken)) := by
  let items : Source → Items → Result AuditToken := fun inner items => do
    let taken ← takeItems (α := UInt32) "an array of length 8" inner 0 8 items
    taken.2.finish inner
    pure ⟨taken.1.1, taken.1.2⟩
  have opens : ∀ source node, Wire.decode source node =
      openSequence "an array of length 8" source node >>= fun opened => items opened.1 opened.2 :=
    fun _ _ => rfl
  refine buffers_of_sequence opens fun room nodes closed token => ?_
  -- In a payload the end of the array is looked for after the eighth word; a buffered array has
  -- been read to its end, so there it is enough that no word is left.
  constructor
  · intro read
    obtain ⟨⟨words, left⟩, taken, read⟩ := Result.bind_ok read
    obtain ⟨⟨⟩, ends, same⟩ := Result.bind_ok read
    obtain ⟨whole, buffered⟩ := (takeItems_buffers buffers_uint32).1 taken
    obtain ⟨dropped, shut⟩ := rest_takeItems taken
    obtain ⟨nothing, closed⟩ := finish_payload.1 ends
    have eight : nodes.take 8 = nodes :=
      List.take_of_length_le (List.drop_eq_nil_iff.1 (dropped.symm.trans nothing))
    rw [eight] at whole
    refine Result.bind_ok_iff.2 ⟨(), buffer_array.2 ⟨shut.symm.trans closed, whole⟩, ?_⟩
    exact Result.bind_ok_iff.2 ⟨(words, left), buffered,
      Result.bind_ok_iff.2 ⟨(), finish_buffered.2 nothing, same⟩⟩
  · intro read
    obtain ⟨⟨⟩, array, read⟩ := Result.bind_ok read
    obtain ⟨⟨words, left⟩, taken, read⟩ := Result.bind_ok read
    obtain ⟨⟨⟩, ends, same⟩ := Result.bind_ok read
    obtain ⟨closed, whole⟩ := buffer_array.1 array
    obtain ⟨dropped, shut⟩ := rest_takeItems taken
    have direct := (takeItems_buffers buffers_uint32).2
      ⟨fun node among => whole node (List.mem_of_mem_take among), taken⟩
    exact Result.bind_ok_iff.2 ⟨(words, left), direct,
      Result.bind_ok_iff.2 ⟨(), finish_payload.2 ⟨finish_buffered.1 ends, shut.trans closed⟩, same⟩⟩

end EndpointMonitor.Wire
