import EndpointMonitor.Proofs.Codec.RoundTrip
import EndpointMonitor.Proofs.Json.Decimal

/-!
Event messages, whose details are free: they are decoded exactly if the details do not nest too
deep, whatever numbers and texts they hold.
-/

namespace EndpointMonitor

open Wire

/-- A message as the service has it: its details hold integers of 64 bits and finite doubles. -/
def EventMessage.Native (m : EventMessage) : Prop := m.event.value.Numbers (·.isNative = true)

theorem EventMessage.Native.readable {m : EventMessage} (h : m.Native) :
    m.event.value.Numbers Number.Readable := h.imp fun _ => Number.readable_of_isNative

theorem Document.not_decode_of_deep {d : Document} (readable : d.value.Numbers Number.Readable)
    {room : Nat} (deep : room < d.value.depth) (other : Document) :
    Wire.decode (.payload room) (Wire.encode d).toNode ≠ .ok other := by
  have nothing := Document.ofNode_toNode_none readable deep
  simp only [Wire.decode, Wire.encode, nothing]
  nofun

namespace Codec

variable {codec : Codec} {m : EventMessage} {payload : Bytes}

theorem decode_message (native : m.Native) (encoded : codec.encode m = .ok payload)
    (shallow : m.event.value.depth ≤ 126) : codec.decode payload = .ok m.reread :=
  decode_of_recovers (recovers_message native.readable (show 2 ≤ 126 by decide) shallow)
    (by decide) encoded

/-- A message that nests too deep is encoded like any other, and decoded by no codec. -/
theorem not_decode_message (native : m.Native) (encoded : codec.encode m = .ok payload)
    (deep : 126 < m.event.value.depth) (other : EventMessage) :
    codec.decode payload ≠ .ok other := by
  obtain ⟨rfl, fits⟩ := write_of_encode encoded
  have recovers := EventMessage.recovers native.readable (show 2 ≤ m.event.value.depth by omega)
    (Nat.le_refl _)
  have readable : (Wire.encode m).Numbers Number.Readable := recovers.readable
  have there : lookup "event" (Json.toMembers (EventMessage.record.write m)) =
      some (Wire.encode m.event).toNode :=
    lookup_toMembers recovers.distinct ("event", Wire.encode m.event) (by
      simp [EventMessage.record, Record.field, Field.withDefault, Field.required])
  intro decoded
  have text : decodeText (Wire.encode m).write = .ok other := by
    simp only [decode, if_pos fits] at decoded
    split at decoded
    · next value read =>
      obtain rfl := Except.ok.inj decoded
      exact read
    · cases decoded
  rw [decodeText, Json.read_write readable] at text
  obtain ⟨value, root, -⟩ := Result.bind_ok text
  have members : EventMessage.record.decodeMembers (.payload 126)
      (Json.toMembers (EventMessage.record.write m)) true = .ok value := root
  obtain ⟨details, read⟩ := Record.exists_of_decodeMembers members there
  exact Document.not_decode_of_deep native.readable deep details read

end Codec

end EndpointMonitor
