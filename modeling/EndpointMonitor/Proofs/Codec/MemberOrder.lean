import EndpointMonitor.Proofs.Codec.RoundTrip
import EndpointMonitor.Proofs.Json.Members
import EndpointMonitor.Proofs.Wire.Buffering

/-!
The order of members in a payload. An object is decoded as the same value with its members in any
order, also where a value comes before the name that says how to read it.
-/

namespace EndpointMonitor

open Wire
open Json (Member ObjectText)

/-! ### What travels as an object -/

theorem MuteProcessRule.buffers : ∀ v ∈ adjacent.variants, Buffers v.2.decode := by
  have token : Buffers (Content.map MuteProcessRule.token).decode := buffers_auditToken.map _
  have number : ∀ build : UInt32 → MuteProcessRule, Buffers (Content.map build).decode :=
    fun build => buffers_uint32.map build
  have text : ∀ build : String → MuteProcessRule, Buffers (Content.map build).decode :=
    fun build => buffers_string.map build
  simp only [adjacent, List.forall_mem_cons, List.not_mem_nil, false_imp_iff, implies_true,
    and_true]
  exact ⟨token, number _, number _, text _, text _, text _, text _, text _⟩

theorem ServiceReply.buffers : ∀ v ∈ adjacent.variants, Buffers v.2.decode := by
  have done : Buffers (Content.unit ServiceReply.done "unit variant ServiceReply::Done").decode :=
    (buffers_null _).map _
  have flag : Buffers (Content.map ServiceReply.flag).decode := buffers_bool.map _
  have data : Buffers (Content.map ServiceReply.data).decode := (buffers_list buffers_uint8).map _
  simp only [adjacent, List.forall_mem_cons, List.not_mem_nil, false_imp_iff, implies_true,
    and_true]
  exact ⟨done, flag, data⟩

theorem ServiceRequest.unordered_fields : ∀ v ∈ internal.variants, v.2.Unordered := by
  simp only [internal, List.forall_mem_cons, List.not_mem_nil, false_imp_iff, implies_true,
    and_true]
  refine ⟨?_, ?_, ?_, ?_, ?_, ?_, ?_, ?_, ?_, ?_, ?_, ?_, ?_, ?_, ?_⟩
  all_goals first
    | exact Fields.unordered_none _
    | exact Fields.unordered_ofRecord _ _ _

theorem MuteProcessRule.unordered : Unordered (Wire.decode (α := MuteProcessRule)) :=
  Adjacent.unordered MuteProcessRule.buffers (by decide)

theorem ServiceReply.unordered : Unordered (Wire.decode (α := ServiceReply)) :=
  Adjacent.unordered ServiceReply.buffers (by decide)

theorem ServiceRequest.unordered : Unordered (Wire.decode (α := ServiceRequest)) :=
  Internal.unordered ServiceRequest.unordered_fields

/-! ### Written members -/

/-- A member that was written without blanks. -/
def Json.Member.written (key : String) (value : Json) (readable : value.Numbers Number.Readable) :
    Member where
  text := writeString key ++ 0x3a :: value.write
  key := some key
  node := value.toNode
  reads := read_write (v := .object [(key, value)]) ⟨readable, trivial⟩

/-- An object without blanks. -/
def Json.ObjectText.written (members : List Member) : ObjectText :=
  ⟨[], [], members, [], by simp, by simp, by simp⟩

theorem readable_nat (n : UInt32) : (Json.nat n.toNat).Numbers Number.Readable :=
  (exact_nat (Nat.lt_trans n.toNat_lt (by decide))).readable

namespace Codec

/-- Two payloads of the same value, or of none. -/
def SameValue (α : Type) [Wire α] (codec : Codec) (payload payload' : Bytes) : Prop :=
  ∀ value : α, codec.decode payload = .ok value ↔ codec.decode payload' = .ok value

variable {α : Type} [Wire α] {codec : Codec}

theorem decode_ok {payload : Bytes} {value : α} :
    codec.decode payload = .ok value ↔
      payload.length ≤ codec.limit ∧ decodeText payload = .ok value := by
  unfold decode
  split
  · next fits =>
    split
    · next text => simp [text, fits]
    · next text => simp [text]
  · next large => simp [large]

theorem decodeText_object {payload : Bytes} {members : Members}
    (object : Json.read payload = ⟨.object members true, true⟩) :
    decodeText (α := α) payload =
      Wire.decode (.payload Document.maxDepth) (.object members true) := by
  simp only [decodeText, object, if_true, bind_pure]

theorem sameValue_reorder (unordered : Unordered (Wire.decode (α := α))) {text : ObjectText}
    (distinct : Distinct text.read) {members : List Member} (perm : text.members.Perm members) :
    SameValue α codec text.bytes (text.reorder members).bytes := by
  have reordered : text.read.Perm (text.reorder members).read := perm.map Member.read
  intro value
  rw [decode_ok, decode_ok, decodeText_object text.read_bytes,
    decodeText_object (text.reorder members).read_bytes, ObjectText.length_reorder perm]
  exact and_congr_right fun _ => unordered _ _ _ reordered distinct value

/-- Two payloads that are decoded as the same value of each kind that travels as an object. -/
structure Interchangeable (codec : Codec) (payload payload' : Bytes) : Prop where
  process : codec.SameValue ProcessDescriptor payload payload'
  message : codec.SameValue EventMessage payload payload'
  verdict : codec.SameValue InterestVerdict payload payload'
  resolution : codec.SameValue Resolution payload payload'
  rule : codec.SameValue MuteProcessRule payload payload'
  reply : codec.SameValue ServiceReply payload payload'
  request : codec.SameValue ServiceRequest payload payload'
  config : codec.SameValue ClientConfig payload payload'

theorem interchangeable_reorder {text : ObjectText} (distinct : Distinct text.read)
    {members : List Member} (perm : text.members.Perm members) :
    codec.Interchangeable text.bytes (text.reorder members).bytes where
  process := sameValue_reorder (Record.unordered _ _) distinct perm
  message := sameValue_reorder (Record.unordered _ _) distinct perm
  verdict := sameValue_reorder (Record.unordered _ _) distinct perm
  resolution := sameValue_reorder (Record.unordered _ _) distinct perm
  rule := sameValue_reorder MuteProcessRule.unordered distinct perm
  reply := sameValue_reorder ServiceReply.unordered distinct perm
  request := sameValue_reorder ServiceRequest.unordered distinct perm
  config := sameValue_reorder (Record.unordered _ _) distinct perm

/-- An object in which no key comes twice is a row of members, and whatever their order is, the
same value is decoded. -/
theorem member_order_irrelevant (codec : Codec) {payload : Bytes} {members : Members}
    (object : Json.read payload = ⟨.object members true, true⟩)
    (distinct : (members.map Prod.fst).Nodup) :
    (∃ text : ObjectText, text.bytes = payload ∧ text.read = members) ∧
      ∀ text : ObjectText, text.bytes = payload → ∀ reordered, text.members.Perm reordered →
        codec.Interchangeable payload (text.reorder reordered).bytes := by
  refine ⟨ObjectText.exists_of_read object, ?_⟩
  rintro text rfl reordered perm
  have same : Json.Reading.mk (.object text.read true) true = ⟨.object members true, true⟩ :=
    text.read_bytes.symm.trans object
  obtain rfl : text.read = members := by
    injection same with root
    injection root
  exact interchangeable_reorder distinct perm

/-- The kind and the process id of a rule. -/
def pidRule : ObjectText :=
  .written [.written "kind" (.string "pid") trivial, .written "value" (.nat 7) (readable_nat 7)]

/-- The name and the class of a request. -/
def invertedRequest : ObjectText :=
  .written [.written "op" (.string "muting_inverted") trivial,
    .written "mute_type" (.string "path") trivial]

/-- A value in front of its kind is accepted, and so is a request with its name at the end. -/
theorem name_may_come_last :
    Json.read pidRule.bytes = ⟨.object pidRule.read true, true⟩ ∧
      (pidRule.read.map Prod.fst).Nodup ∧
      pidRule.members.Perm pidRule.members.reverse ∧
      decode CodecConfig.default (pidRule.reorder pidRule.members.reverse).bytes =
        .ok (MuteProcessRule.pid 7) ∧
    Json.read invertedRequest.bytes = ⟨.object invertedRequest.read true, true⟩ ∧
      (invertedRequest.read.map Prod.fst).Nodup ∧
      invertedRequest.members.Perm invertedRequest.members.reverse ∧
      decode CodecConfig.default (invertedRequest.reorder invertedRequest.members.reverse).bytes =
        .ok (ServiceRequest.mutingInverted .path) := by
  have rule : decode CodecConfig.default pidRule.bytes = .ok (MuteProcessRule.pid 7) :=
    decode_of_recovers (faithful_rule (.pid 7)) (by decide) (encode_of_fits (by decide))
  have request : decode CodecConfig.default invertedRequest.bytes =
      .ok (ServiceRequest.mutingInverted .path) :=
    decode_of_recovers (faithful_request (.mutingInverted .path)) (by decide)
      (encode_of_fits (by decide))
  have ruleKeys : (pidRule.read.map Prod.fst).Nodup := by decide
  have requestKeys : (invertedRequest.read.map Prod.fst).Nodup := by decide
  have ruleOrder : pidRule.members.Perm pidRule.members.reverse := (List.reverse_perm _).symm
  have requestOrder : invertedRequest.members.Perm invertedRequest.members.reverse :=
    (List.reverse_perm _).symm
  obtain ⟨-, rules⟩ := member_order_irrelevant CodecConfig.default pidRule.read_bytes ruleKeys
  obtain ⟨-, requests⟩ :=
    member_order_irrelevant CodecConfig.default invertedRequest.read_bytes requestKeys
  have ruleSwapped := (rules pidRule rfl _ ruleOrder).rule (.pid 7)
  have requestSwapped := (requests invertedRequest rfl _ requestOrder).request
    (.mutingInverted .path)
  exact ⟨pidRule.read_bytes, ruleKeys, ruleOrder, ruleSwapped.1 rule,
    invertedRequest.read_bytes, requestKeys, requestOrder, requestSwapped.1 request⟩

end Codec

end EndpointMonitor
