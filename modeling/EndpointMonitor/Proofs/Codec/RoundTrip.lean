import EndpointMonitor.Proofs.Codec.Faithfulness
import EndpointMonitor.Service.Tables

/-!
Payloads there and back: what a codec lets out it takes in again as the same value.
-/

namespace EndpointMonitor

open Wire

namespace Codec

section
variable {α : Type} [Wire α] {codec : Codec} {sent : α} {payload : Bytes}

theorem write_of_encode (h : codec.encode sent = .ok payload) :
    payload = (Wire.encode sent).write ∧ payload.length ≤ codec.limit := by
  unfold encode at h
  simp only at h
  split at h
  · next fits =>
    obtain rfl := Except.ok.inj h
    exact ⟨rfl, fits⟩
  · cases h

theorem encode_of_fits (fits : (Wire.encode sent).write.length ≤ codec.limit) :
    codec.encode sent = .ok (Wire.encode sent).write := if_pos fits

/-- Nothing but its size keeps a value from being encoded. -/
theorem limit_lt_of_encode {e : ClientError} (h : codec.encode sent = .error e) :
    codec.limit < (Wire.encode sent).write.length := by
  unfold encode at h
  simp only at h
  split at h
  · cases h
  · next large => exact Nat.not_le.1 large

variable {received : α} {levels : Nat}

theorem decodeText_of_recovers (h : Recovers Wire.decode (Wire.encode sent) received levels)
    (room : levels ≤ Document.maxDepth) :
    decodeText (Wire.encode sent).write = .ok received := by
  have fits : (Wire.encode sent).depth ≤ (Source.payload Document.maxDepth).room :=
    Nat.le_trans h.depth room
  simp only [decodeText, Json.read_write h.readable, h.decode _ fits, bind, Except.bind, if_true]
  rfl

/-- What was encoded is decoded where there is room for its containers. -/
theorem decode_of_recovers (h : Recovers Wire.decode (Wire.encode sent) received levels)
    (room : levels ≤ Document.maxDepth) (encoded : codec.encode sent = .ok payload) :
    codec.decode payload = .ok received := by
  obtain ⟨rfl, fits⟩ := write_of_encode encoded
  simp only [decode, if_pos fits, decodeText_of_recovers h room]

end

/-- A value that comes back as it was sent, unless it is too large to be sent at all. -/
structure RoundTrips {α : Type} [Wire α] (codec : Codec) (sent : α) : Prop where
  fits : ∀ payload, codec.encode sent = .ok payload → payload.length ≤ codec.limit
  decodes : ∀ payload, codec.encode sent = .ok payload → codec.decode payload = .ok sent
  refused : ∀ e, codec.encode sent = .error e → codec.limit < (Wire.encode sent).write.length

theorem roundTrips_of_faithful {α : Type} [Wire α] {sent : α} {levels : Nat}
    (h : Faithful sent levels) (room : levels ≤ Document.maxDepth) (codec : Codec) :
    codec.RoundTrips sent where
  fits _ encoded := (write_of_encode encoded).2
  decodes _ encoded := decode_of_recovers h room encoded
  refused _ := limit_lt_of_encode

/-- A message whose details hold integers only comes back as it was sent. -/
theorem faithful_message {m : EventMessage} (integers : m.event.value.Numbers (·.isWord = true))
    (shallow : m.event.value.depth ≤ 126) : Faithful m 127 := by
  have exact_ : m.event.value.Numbers Number.Exact :=
    integers.imp fun _ => Number.exact_of_isWord
  have readable : m.event.value.Numbers Number.Readable :=
    exact_.imp fun _ => Number.Exact.readable
  have same : m.reread = m := by
    rw [EventMessage.reread, Document.reread_of_exact exact_]
  have recovers := recovers_message readable (show 2 ≤ 126 by decide) shallow
  rwa [same] at recovers

/-- The service reads the rule that the client wrote. -/
theorem decodeRule_of_encode {codec : Codec} {rule : MuteProcessRule} {payload : Bytes}
    (encoded : codec.encode rule = .ok payload) :
    ServiceTables.decodeRule codec payload = .ok rule := by
  rw [ServiceTables.decodeRule, decode_of_recovers (faithful_rule rule) (by decide) encoded]
  rfl

/-- Everything that travels comes back as it was sent, whatever the limit; a message, if its
details hold no doubles and nest at most 126 containers. -/
theorem encoded_decodes (codec : Codec) :
    (∀ process : ProcessDescriptor, codec.RoundTrips process) ∧
    (∀ token : AuditToken, codec.RoundTrips token) ∧
    (∀ m : EventMessage, m.event.value.Numbers (·.isWord = true) → m.event.value.depth ≤ 126 →
      codec.RoundTrips m) ∧
    (∀ rule : MuteProcessRule, codec.RoundTrips rule ∧
      ∀ payload, codec.encode rule = .ok payload →
        ServiceTables.decodeRule codec payload = .ok rule) ∧
    (∀ verdict : InterestVerdict, codec.RoundTrips verdict) ∧
    (∀ resolution : Resolution, codec.RoundTrips resolution) ∧
    (∀ result : AuthResult, codec.RoundTrips result) ∧
    (∀ events : EventSet, codec.RoundTrips events) ∧
    (∀ eventType : EventType, codec.RoundTrips eventType) ∧
    (∀ action : ActionKind, codec.RoundTrips action) ∧
    (∀ muteType : InvertMutingType, codec.RoundTrips muteType) ∧
    (∀ pathType : MutePathType, codec.RoundTrips pathType) ∧
    (∀ state : ConnectionState, codec.RoundTrips state) ∧
    (∀ request : ServiceRequest, codec.RoundTrips request) ∧
    (∀ reply : ServiceReply, codec.RoundTrips reply) ∧
    (∀ config : ConverterConfig, codec.RoundTrips config) ∧
    (∀ config : CodecConfig, codec.RoundTrips config) ∧
    (∀ config : ClientConfig, codec.RoundTrips config) ∧
    (∀ text : String, codec.RoundTrips text) := by
  refine ⟨fun v => ?process, fun v => ?token, fun m integers shallow => ?message,
    fun rule => ⟨?rule, fun _ => decodeRule_of_encode⟩, fun v => ?verdict, fun v => ?resolution,
    fun v => ?result, fun v => ?events, fun v => ?eventType, fun v => ?action, fun v => ?muteType,
    fun v => ?pathType, fun v => ?state, fun v => ?request, fun v => ?reply, fun v => ?converter,
    fun v => ?codec, fun v => ?client, fun v => ?text⟩
  case process => exact roundTrips_of_faithful (faithful_process v) (by decide) codec
  case token => exact roundTrips_of_faithful (faithful_auditToken v) (by decide) codec
  case message =>
    exact roundTrips_of_faithful (faithful_message integers shallow) (by decide) codec
  case rule => exact roundTrips_of_faithful (faithful_rule rule) (by decide) codec
  case verdict => exact roundTrips_of_faithful (faithful_verdict v) (by decide) codec
  case resolution => exact roundTrips_of_faithful (faithful_resolution v) (by decide) codec
  case result => exact roundTrips_of_faithful (faithful_authResult v) (by decide) codec
  case events => exact roundTrips_of_faithful (faithful_eventSet v) (by decide) codec
  case eventType => exact roundTrips_of_faithful (faithful_eventType v) (by decide) codec
  case action => exact roundTrips_of_faithful (faithful_actionKind v) (by decide) codec
  case muteType => exact roundTrips_of_faithful (faithful_invertMutingType v) (by decide) codec
  case pathType => exact roundTrips_of_faithful (faithful_mutePathType v) (by decide) codec
  case state => exact roundTrips_of_faithful (faithful_connectionState v) (by decide) codec
  case request => exact roundTrips_of_faithful (faithful_request v) (by decide) codec
  case reply => exact roundTrips_of_faithful (faithful_reply v) (by decide) codec
  case converter => exact roundTrips_of_faithful (faithful_converterConfig v) (by decide) codec
  case codec => exact roundTrips_of_faithful (faithful_codecConfig v) (by decide) codec
  case client => exact roundTrips_of_faithful (faithful_clientConfig v) (by decide) codec
  case text => exact roundTrips_of_faithful (faithful_string v) (by decide) codec

/-- The start of a program that is told two arguments, one of them a negative number. -/
def argumentsMessage : EventMessage :=
  { EventMessage.auth ⟨0⟩ (.ofPath 5 "/tmp/x") with
    event := ⟨.object [("args", .array [.string "\"", .number (.integer (-1))])], rfl⟩ }

theorem arguments_come_back :
    argumentsMessage.event.value.Numbers (·.isWord = true) ∧
      argumentsMessage.event.value.depth ≤ 126 ∧
      RoundTrips CodecConfig.default argumentsMessage := by
  have integers : argumentsMessage.event.value.Numbers (·.isWord = true) :=
    ⟨⟨trivial, rfl, trivial⟩, trivial⟩
  have shallow : argumentsMessage.event.value.depth ≤ 126 := by decide
  obtain ⟨-, -, messages, -⟩ := encoded_decodes CodecConfig.default
  exact ⟨integers, shallow, messages argumentsMessage integers shallow⟩

end Codec

end EndpointMonitor
