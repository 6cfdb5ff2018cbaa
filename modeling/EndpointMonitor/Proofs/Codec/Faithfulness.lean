import EndpointMonitor.Config.Basic
import EndpointMonitor.Connection.State
import EndpointMonitor.Event.Message
import EndpointMonitor.Proofs.Event.Set
import EndpointMonitor.Proofs.Wire.Variant
import EndpointMonitor.Resolution
import EndpointMonitor.Service.Request

/-!
All that travels is decoded as it was encoded.
-/

namespace EndpointMonitor

open Wire

/-! ### Events -/

theorem faithful_eventType (e : EventType) : Faithful e 0 := (faithful_uint32 e.id).map EventType.mk

theorem faithful_eventSet (s : EventSet) : Faithful s 1 := by
  have events : Faithful s.toList 1 := faithful_list fun e _ => faithful_eventType e
  refine events.bind ?_
  rw [EventSet.ofList_toList]
  rfl

theorem faithful_actionKind (a : ActionKind) : Faithful a 0 := by
  cases a <;> exact Variants.recovers_plain rfl

/-! ### Processes and messages -/

theorem faithful_auditToken (t : AuditToken) : Faithful t 1 where
  readable := readable_items fun w _ => faithful_uint32 w
  depth := Nat.succ_le_succ (depth_items fun w _ => faithful_uint32 w)
  decode source room := by
    obtain ⟨inner, enters, fits⟩ := Source.enter_of_room room
    have words : ∀ w ∈ t.words, Faithful w 0 := fun w _ => faithful_uint32 w
    have taken := takeItems_toNodes "an array of length 8" 0 words fits true 0 t.eight
    have ends : Items.finish ⟨[], true, 0 + 8⟩ inner = .ok () := by cases inner <;> rfl
    show Wire.decode source (.array (Json.toNodes (t.words.map Wire.encode)) true) = .ok t
    simp only [Wire.decode, openSequence, enters, bind, Except.bind, pure, Except.pure, taken, ends]

theorem faithful_optional {text? : Option String} (text : String) (_ : text? = some text) :
    Faithful text 1 ∧ (Wire.encode text).toNode ≠ .null :=
  ⟨(faithful_string text).mono (by decide), nofun⟩

theorem ProcessDescriptor.recovers (p : ProcessDescriptor) : record.Recovers p p 1 :=
  Record.recovers_of ProcessDescriptor.mk p 1
    |>.field (.required (faithful_auditToken p.auditToken)) (by decide)
    |>.field (.required ((faithful_uint32 p.pid).mono (by decide))) (by decide)
    |>.field (.required ((faithful_uint32 p.euid).mono (by decide))) (by decide)
    |>.field (.required ((faithful_string p.path).mono (by decide))) (by decide)
    |>.field (.optional faithful_optional) (by decide)
    |>.field (.optional faithful_optional) (by decide)
    |>.field (.withDefault ((faithful_bool p.isPlatformBinary).mono (by decide)))
      (by decide)

theorem faithful_process (p : ProcessDescriptor) : Faithful p 2 := p.recovers.decode _

/-- A free value is decoded with its numbers as they are read. -/
theorem recovers_document {d : Document} (readable : d.value.Numbers Number.Readable) :
    Recovers Wire.decode (Wire.encode d) d.reread d.value.depth where
  readable := readable
  depth := Nat.le_refl _
  decode source room := by
    have read := Document.ofNode_toNode readable room
    cases source <;>
    · simp only [Source.room] at read
      simp only [Wire.decode, Wire.encode, read]
      rfl

/-- The message with the numbers in its details as they are read. -/
def EventMessage.reread (m : EventMessage) : EventMessage := { m with event := m.event.reread }

theorem EventMessage.recovers {m : EventMessage} (readable : m.event.value.Numbers Number.Readable)
    {levels : Nat} (process : 2 ≤ levels) (event : m.event.value.depth ≤ levels) :
    record.Recovers m m.reread levels :=
  Record.recovers_of EventMessage.mk m levels
    |>.field (.required ((faithful_uint32 m.version).mono (Nat.zero_le _))) (by decide)
    |>.field (.required ((faithful_uint64 m.seqNum).mono (Nat.zero_le _))) (by decide)
    |>.field (.required ((faithful_uint64 m.time).mono (Nat.zero_le _))) (by decide)
    |>.field (.required ((faithful_eventType m.eventType).mono (Nat.zero_le _))) (by decide)
    |>.field (.required ((faithful_actionKind m.action).mono (Nat.zero_le _))) (by decide)
    |>.field (.required ((faithful_process m.process).mono process)) (by decide)
    |>.field (.withDefault ((recovers_document readable).mono event)) (by decide)

theorem recovers_message {m : EventMessage} (readable : m.event.value.Numbers Number.Readable)
    {levels : Nat} (process : 2 ≤ levels) (event : m.event.value.depth ≤ levels) :
    Recovers Wire.decode (Wire.encode m) m.reread (levels + 1) :=
  (EventMessage.recovers readable process event).decode _

/-! ### Answers and verdicts -/

theorem faithful_authResult (a : AuthResult) : Faithful a 1 := by
  cases a with
  | auth allowed => exact Variants.recovers_keyed rfl ((faithful_bool allowed).map AuthResult.auth)
  | flags value => exact Variants.recovers_keyed rfl ((faithful_uint32 value).map AuthResult.flags)

theorem faithful_resolution (r : Resolution) : Faithful r 2 :=
  (Record.recovers_of Resolution.mk r 1
    |>.field (.required (faithful_authResult r.result)) (by decide)
    |>.field (.required ((faithful_bool r.cache).mono (by decide))) (by decide)).decode _

theorem faithful_verdict (v : InterestVerdict) : Faithful v 2 :=
  (Record.recovers_of InterestVerdict.mk v 1
    |>.field (.required (faithful_eventSet v.ignored)) (by decide)
    |>.field (.withDefault ((faithful_bool v.nativeMuting).mono (by decide))) (by decide)).decode _

/-! ### Mutes -/

theorem faithful_rule (rule : MuteProcessRule) : Faithful rule 2 := by
  cases rule with
  | token value => exact Adjacent.recovers_map rfl (by decide) (faithful_auditToken value)
  | pid value | euid value =>
    exact Adjacent.recovers_map rfl (by decide) ((faithful_uint32 value).mono (by decide))
  | name value | pathPrefix value | pathLiteral value | teamIdentifier value | signingId value =>
    exact Adjacent.recovers_map rfl (by decide) ((faithful_string value).mono (by decide))

theorem faithful_mutePathType (t : MutePathType) : Faithful t 0 := by
  cases t <;> exact Variants.recovers_plain rfl

theorem faithful_invertMutingType (t : InvertMutingType) : Faithful t 0 := by
  cases t <;> exact Variants.recovers_plain rfl

theorem faithful_connectionState (s : ConnectionState) : Faithful s 0 := by
  cases s <;> exact Variants.recovers_plain rfl

/-! ### Requests and replies -/

theorem faithful_bytes (bytes : Bytes) : Faithful bytes 1 :=
  faithful_list fun b _ => faithful_uint8 b

theorem faithful_events (events : List EventType) : Faithful events 1 :=
  faithful_list fun e _ => faithful_eventType e

namespace ServiceRequest

theorem recovers_converter (converter : Bytes) :
    converterRecord.Recovers converter converter 1 :=
  Record.recovers_of id converter 1
    |>.field (.required (faithful_bytes converter)) (by decide)

theorem recovers_processMute (mute : ProcessMute) : processMuteRecord.Recovers mute mute 1 :=
  Record.recovers_of ProcessMute.mk mute 1
    |>.field (.required (faithful_bytes mute.rule)) (by decide)
    |>.field (.required (faithful_events mute.events)) (by decide)

theorem recovers_pathMute (mute : PathMute) : pathMuteRecord.Recovers mute mute 1 :=
  Record.recovers_of PathMute.mk mute 1
    |>.field (.required ((faithful_string mute.path).mono (by decide))) (by decide)
    |>.field (.required ((faithful_mutePathType mute.pathType).mono (by decide))) (by decide)
    |>.field (.required (faithful_events mute.events)) (by decide)

theorem recovers_events (events : List EventType) : eventsRecord.Recovers events events 1 :=
  Record.recovers_of id events 1
    |>.field (.required (faithful_events events)) (by decide)

theorem recovers_inversion (inversion : Inversion) :
    inversionRecord.Recovers inversion inversion 1 :=
  Record.recovers_of Inversion.mk inversion 1
    |>.field (.required ((faithful_invertMutingType inversion.muteType).mono (by decide)))
      (by decide)
    |>.field (.required ((faithful_bool inversion.invert).mono (by decide))) (by decide)

theorem recovers_muteType (muteType : InvertMutingType) :
    muteTypeRecord.Recovers muteType muteType 1 :=
  Record.recovers_of id muteType 1
    |>.field (.required ((faithful_invertMutingType muteType).mono (by decide))) (by decide)

/-- A request whose fields belong to one record, none of which is called like the tag. -/
theorem recovers_fields {ρ : Type} {record : Record ρ ρ} {r : ρ} (h : record.Recovers r r 1)
    {name variant : String} {build : ρ → ServiceRequest}
    (found : internal.variants.lookup name = some (fields variant record build))
    (apart : "op" ∉ record.names) :
    Recovers internal.decode (.object (("op", .string name) :: record.write r)) (build r) 2 :=
  Internal.recovers found h.readable h.depth
    (fun m hm (same : m.1 = "op") => apart (same ▸ h.known m hm))
    (Fields.members_ofRecord h (by decide) _ build)

/-- A request without fields. -/
theorem recovers_bare {name : String} {request : ServiceRequest}
    (found : internal.variants.lookup name = some (.none request)) :
    Recovers internal.decode (.object [("op", .string name)]) request 2 := by
  have readable : Json.NumbersOfMembers Number.Readable [] := trivial
  have flat : Json.depthOfMembers [] ≤ 1 := Nat.zero_le 1
  exact Internal.recovers found readable flat nofun (Fields.members_none request _)

end ServiceRequest

open ServiceRequest in
theorem faithful_request (request : ServiceRequest) : Faithful request 2 := by
  cases request with
  | createSession converter => exact recovers_fields (recovers_converter converter) rfl (by decide)
  | muteProcess mute | unmuteProcess mute =>
    exact recovers_fields (recovers_processMute mute) rfl (by decide)
  | mutePath mute | unmutePath mute =>
    exact recovers_fields (recovers_pathMute mute) rfl (by decide)
  | subscribe events | unsubscribe events =>
    exact recovers_fields (recovers_events events) rfl (by decide)
  | invertMuting inversion =>
    exact recovers_fields (recovers_inversion inversion) rfl (by decide)
  | mutingInverted muteType =>
    exact recovers_fields (recovers_muteType muteType) rfl (by decide)
  | clearPathInterestCache | unmuteAllProcesses | unmuteAllPaths | unmuteAllTargetPaths
  | unsubscribeAll | clearCache => exact recovers_bare rfl

theorem faithful_reply (reply : ServiceReply) : Faithful reply 2 := by
  cases reply with
  | done => exact (Adjacent.recovers_absent rfl rfl).mono (by decide)
  | flag value =>
    exact Adjacent.recovers_map rfl (by decide) ((faithful_bool value).mono (by decide))
  | data value => exact Adjacent.recovers_map rfl (by decide) (faithful_bytes value)

/-! ### Configurations -/

theorem faithful_converterConfig (c : ConverterConfig) : Faithful c 1 :=
  (Record.recovers_of ConverterConfig.mk c 0
    |>.field (.withDefault (faithful_uint32 c.version)) (by decide)).decode _

theorem CodecConfig.recovers_size (n : UInt64) : Recovers decodeSize (.nat n.toNat) n 0 := by
  have read := (recovers_nat n.toNat_lt (by decide) "usize").map UInt64.ofNat
  rwa [UInt64.ofNat_toNat] at read

theorem faithful_codecConfig (c : CodecConfig) : Faithful c 1 := by
  have size := CodecConfig.recovers_size c.maxPayloadBytes
  exact (Record.recovers_of CodecConfig.mk c 0
    |>.field ⟨fun _ written => Option.some.inj written ▸ size, fun written => by cases written⟩
      (by decide)).decode _

theorem faithful_clientConfig (c : ClientConfig) : Faithful c 2 :=
  (Record.recovers_of ClientConfig.mk c 1
    |>.field (.withDefault ((faithful_uint64 c.timeoutMs).mono (by decide))) (by decide)
    |>.field (.withDefault ((faithful_uint64 c.reconnectDelayMs).mono (by decide))) (by decide)
    |>.field (.withDefault (faithful_converterConfig c.converter)) (by decide)
    |>.field (.withDefault (faithful_codecConfig c.codec)) (by decide)).decode _

end EndpointMonitor
