import EndpointMonitor.Proofs.Codec.Message
import EndpointMonitor.Proofs.Service.Emission

/-!
The caches of a service whose client has the same handlers throughout. If interest depends on paths
only, and decisions on paths and kinds of events, nobody can tell that there are any caches.
-/

namespace EndpointMonitor

/-- The handler thinks the same of all processes with one path. -/
def InterestHandler.ByPath (handler : InterestHandler) : Prop :=
  ∀ p q : ProcessDescriptor, p.path = q.path → handler p = handler q

/-- The handler always resolves, and it does so by the path of the process and the kind of event. -/
def AuthHandler.ByKey (handler : AuthHandler) : Prop :=
  ∃ resolution : String × EventType → Resolution,
    ∀ m, (handler m).reply = .send (resolution (Exchange.resolutionKey m))

namespace HandlerSet

/-- What is told about a process that can be asked about. A verdict that cannot be sent is none. -/
def view? (h : HandlerSet) (codec : Codec) (process : ProcessDescriptor) : Option InterestVerdict :=
  match h.pathInterest with
  | some handler =>
    match handler process with
    | .verdict (some verdict) => (codec.encode verdict).toOption.map fun _ => verdict
    | .verdict none | .failed => none
  | none => none

variable {h : HandlerSet} {codec : Codec} {payload : Bytes}

theorem view?_of_path (byPath : ∀ handler, h.pathInterest = some handler → handler.ByPath)
    {p q : ProcessDescriptor} (same : p.path = q.path) : h.view? codec p = h.view? codec q := by
  unfold view?
  cases installed : h.pathInterest with
  | none => rfl
  | some handler => simp only [byPath handler installed p q same]

theorem exists_ruling (byKey : ∀ handler, h.auth = some handler → handler.ByKey) :
    ∃ wire : String × EventType → UInt32 × Bool,
      ∀ m, h.ruling? m = some (wire (Exchange.resolutionKey m)) := by
  unfold ruling?
  cases installed : h.auth with
  | none => exact ⟨fun _ => Resolution.allowOnce.toWire, fun _ => rfl⟩
  | some handler =>
    obtain ⟨resolution, resolves⟩ := byKey handler installed
    exact ⟨fun key => (resolution key).toWire, fun m => by
      simp only [HandlerRun.decision?, resolves]⟩

/-- The service hears what the handler thinks of the process that it asks about. -/
theorem opinion?_of_encode {process : ProcessDescriptor}
    (encoded : codec.encode process = .ok payload) :
    ((h.opinion? codec payload).bind fun bytes => (codec.decode bytes).toOption) =
      h.view? codec process := by
  have decoded : codec.decode payload = .ok process :=
    Codec.decode_of_recovers (faithful_process process) (by decide) encoded
  unfold opinion? view?
  cases installed : h.pathInterest with
  | none => simp only [decoded, Option.bind_none]
  | some handler =>
    simp only [decoded]
    cases handler process with
    | failed => rfl
    | verdict value =>
      cases value with
      | none => rfl
      | some verdict =>
        simp only
        cases sent : codec.encode verdict with
        | error e => rfl
        | ok bytes =>
          have heard : codec.decode bytes = .ok verdict :=
            Codec.decode_of_recovers (faithful_verdict verdict) (by decide) sent
          simp only [Except.toOption, Option.bind_some, heard, Option.map_some]

end HandlerSet

/-- A message that gets to the client and whose process can be asked about. -/
structure EventMessage.Travels (codec : Codec) (m : EventMessage) : Prop where
  native : m.Native
  process : ∃ payload, codec.encode m.process = .ok payload
  decodes : ∃ payload, codec.encode m = .ok payload ∧
    ∃ received : EventMessage, codec.decode payload = .ok received

/-- It arrives with the same path and kind of event. -/
theorem EventMessage.Travels.arrives {codec : Codec} {m : EventMessage} (h : m.Travels codec) :
    ∃ payload, codec.encode m = .ok payload ∧ codec.decode payload = .ok m.reread := by
  obtain ⟨payload, encoded, received, decoded⟩ := h.decodes
  refine ⟨payload, encoded, Codec.decode_message h.native encoded (Nat.not_lt.1 fun deep => ?_)⟩
  exact Codec.not_decode_message h.native encoded deep received decoded

/-- The outcome as it is without a cache. -/
def AuthOutcome.plain : AuthOutcome → AuthOutcome
  | .cached resolution => .resolved resolution
  | outcome => outcome

namespace Exchange

variable {x y : Exchange} {codec : Codec} {handlers : HandlerSet} {m : EventMessage}

/-- Everything that is cached is what the handlers would answer now. -/
structure Sound (codec : Codec) (handlers : HandlerSet) (x : Exchange) : Prop where
  service : x.service.codec = codec
  dispatcher : x.dispatcher.Serves codec handlers
  interest : ∀ process verdict, x.service.tables.interest.find? process.path = some verdict →
    verdict = handlers.view? codec process
  resolutions : ∀ m resolution,
    x.service.tables.resolutions.find? (resolutionKey m) = some resolution →
      (handlers.ruling? m).map Resolution.ofWire = some resolution

theorem interestIn_sound (byPath : ∀ handler, handlers.pathInterest = some handler → handler.ByPath)
    (h : x.Sound codec handlers) {process : ProcessDescriptor} {payload : Bytes}
    (encoded : codec.encode process = .ok payload) :
    (x.interestIn process).1 = handlers.view? codec process ∧
      (x.interestIn process).2.Sound codec handlers := by
  unfold interestIn
  cases cached : x.service.tables.interest.find? process.path with
  | some verdict => exact ⟨h.interest process verdict cached, h⟩
  | none =>
    obtain ⟨answer, serves⟩ := h.dispatcher.pathInterest payload
    have view := HandlerSet.opinion?_of_encode (h := handlers) encoded
    have asked : x.askInterest process = (handlers.view? codec process,
        { x with dispatcher := (x.dispatcher.pathInterest payload).2 }) := by
      simp only [askInterest, h.service, encoded, answer, view]
    simp only [asked]
    refine ⟨trivial, h.service, serves, fun other verdict found => ?_, h.resolutions⟩
    simp only [cacheInterest, Table.find_put] at found
    split at found
    · next same =>
      obtain rfl := Option.some.inj found
      exact HandlerSet.view?_of_path byPath same.symm
    · exact h.interest other verdict found

theorem delivers_sound (byPath : ∀ handler, handlers.pathInterest = some handler → handler.ByPath)
    (h : x.Sound codec handlers) (travels : m.Travels codec) :
    (x.delivers m).1 = x.service.wants (handlers.view? codec m.process) m ∧
      (x.delivers m).2.Sound codec handlers := by
  obtain ⟨payload, encoded⟩ := travels.process
  obtain ⟨verdict, sound⟩ := interestIn_sound byPath h encoded
  refine ⟨by rw [delivers_eq, verdict], ?_⟩
  rcases delivers_cases x m with same | asked
  · rwa [same]
  · rwa [asked]

theorem emitNotify_sound (byPath : ∀ handler, handlers.pathInterest = some handler → handler.ByPath)
    (h : x.Sound codec handlers) (travels : m.Travels codec) :
    (x.emitNotify m).1 = x.service.wants (handlers.view? codec m.process) m ∧
      (x.emitNotify m).2.Sound codec handlers := by
  obtain ⟨reached, sound⟩ := delivers_sound byPath h travels
  obtain ⟨payload, encoded, -⟩ := travels.arrives
  rw [← reached]
  rcases delivered : x.delivers m with ⟨passes, y⟩
  replace sound : y.Sound codec handlers := by rwa [delivered] at sound
  simp only [emitNotify, delivered]
  cases passes with
  | false => exact ⟨rfl, sound⟩
  | true =>
    simp only [sound.service, encoded]
    exact ⟨trivial, sound.service, sound.dispatcher.notify payload, sound.interest,
      sound.resolutions⟩

theorem cacheResolution_sound (h : x.Sound codec handlers) {resolution : Resolution}
    (rules : ∀ other, resolutionKey other = resolutionKey m →
      (handlers.ruling? other).map Resolution.ofWire = some resolution) :
    (x.cacheResolution (resolutionKey m) resolution).Sound codec handlers := by
  unfold cacheResolution
  split
  · refine ⟨h.service, h.dispatcher, h.interest, fun other cached found => ?_⟩
    simp only [Table.find_put] at found
    split at found
    · next same =>
      rw [← Option.some.inj found]
      exact rules other same
    · exact h.resolutions other cached found
  · exact h

theorem emitAuth_sound (byPath : ∀ handler, handlers.pathInterest = some handler → handler.ByPath)
    {wire : String × EventType → UInt32 × Bool}
    (rules : ∀ m, handlers.ruling? m = some (wire (resolutionKey m)))
    (h : x.Sound codec handlers) (travels : m.Travels codec) :
    (x.emitAuth m).1.plain =
        (if x.service.wants (handlers.view? codec m.process) m then
          .resolved (.ofWire (wire (resolutionKey m))) else .notDelivered) ∧
      (x.emitAuth m).2.Sound codec handlers := by
  obtain ⟨reached, sound⟩ := delivers_sound byPath h travels
  obtain ⟨payload, encoded, decoded⟩ := travels.arrives
  rw [← reached]
  rcases delivered : x.delivers m with ⟨passes, y⟩
  replace sound : y.Sound codec handlers := by rwa [delivered] at sound
  cases passes with
  | false =>
    rw [emitAuth_filtered delivered]
    exact ⟨rfl, sound⟩
  | true =>
    cases cached : y.service.tables.resolutions.find? (resolutionKey m) with
    | some resolution =>
      have ruled := sound.resolutions m resolution cached
      rw [rules, Option.map_some] at ruled
      rw [emitAuth_cached delivered cached, Option.some.inj ruled]
      exact ⟨rfl, sound⟩
    | none =>
      obtain ⟨answer, serves⟩ := sound.dispatcher.auth payload
      rw [HandlerSet.decision?_of_decode decoded, rules] at answer
      rw [emitAuth_decided delivered cached (sound.service ▸ encoded) (Prod.ext answer rfl)]
      have resolved : Sound codec handlers { y with dispatcher := (y.dispatcher.auth payload).2 } :=
        ⟨sound.service, serves, sound.interest, sound.resolutions⟩
      refine ⟨rfl, cacheResolution_sound resolved fun other same => ?_⟩
      rw [rules, same]
      rfl

theorem sendCustom_sound (h : x.Sound codec handlers) (data : Bytes) :
    (x.sendCustom data).1 =
        (if x.service.isConnected then (handlers.result? data).getD (.error "timed out")
          else .error "not connected") ∧
      (x.sendCustom data).2.Sound codec handlers := by
  obtain ⟨result, serves⟩ := h.dispatcher.custom data
  rcases answered : x.dispatcher.custom data with ⟨answer, dispatcher⟩
  rw [answered] at result serves
  obtain rfl : answer = handlers.result? data := result
  have told : Sound codec handlers { x with dispatcher } :=
    ⟨h.service, serves, h.interest, h.resolutions⟩
  unfold sendCustom
  cases x.service.isConnected with
  | false => exact ⟨rfl, h⟩
  | true =>
    simp only [if_true, answered]
    cases handlers.result? data <;> exact ⟨rfl, told⟩

/-! ### Runs -/

def Emitted.plain : Emitted → Emitted
  | .authorized outcome => .authorized outcome.plain
  | emitted => emitted

/-- The exchange with empty caches. -/
def forget (x : Exchange) : Exchange := { x with service := x.service.forget }

/-- The caches are emptied before something is sent. -/
def performPlain (x : Exchange) : Operation → Emitted × Exchange
  | .service operation outside => x.perform (.service operation outside)
  | operation => x.forget.perform operation

def runPlain (x : Exchange) : List Operation → List Emitted
  | [] => []
  | operation :: operations =>
    let (emitted, x) := x.performPlain operation
    emitted :: x.runPlain operations

/-- Whatever an operation sends as an event gets to the client. -/
def Operation.Travels (codec : Codec) : Operation → Prop
  | .emitNotify message | .emitAuth message => message.Travels codec
  | .service _ _ | .sendCustom _ => True

theorem Sound.forget (h : x.Sound codec handlers) : x.forget.Sound codec handlers :=
  ⟨h.service, h.dispatcher, nofun, nofun⟩

theorem Sound.perform_service (h : x.Sound codec handlers) {operation : Service.Operation}
    (outside : operation.isExternal = true) :
    { x with service := x.service.perform operation }.Sound codec handlers := by
  have ages := x.service.perform_ages operation outside
  refine ⟨ages.codec.trans h.service, h.dispatcher, fun process verdict found => ?_,
    fun m resolution found => ?_⟩
  · rcases ages.interest with same | emptied
    · exact h.interest process verdict (same ▸ found)
    · rw [emptied] at found
      cases found
  · simp only [ages.resolutions] at found
    split at found
    · exact h.resolutions m resolution found
    · cases found

theorem wants_of_forget {s t : Service} (same : s.forget = t.forget)
    (view : Option InterestVerdict) (m : EventMessage) : s.wants view m = t.wants view m := by
  show s.forget.wants view m = t.forget.wants view m
  rw [same]

/-- Two exchanges with the same handlers differ in what is cached at most, and what is cached is
right. -/
structure Matches (codec : Codec) (handlers : HandlerSet) (x y : Exchange) : Prop where
  left : x.Sound codec handlers
  right : y.Sound codec handlers
  service : x.service.forget = y.service.forget

theorem perform_matches
    (byPath : ∀ handler, handlers.pathInterest = some handler → handler.ByPath)
    {wire : String × EventType → UInt32 × Bool}
    (rules : ∀ m, handlers.ruling? m = some (wire (resolutionKey m)))
    (h : Matches codec handlers x y) {operation : Operation} (travels : operation.Travels codec) :
    (x.perform operation).1.plain = (y.performPlain operation).1.plain ∧
      Matches codec handlers (x.perform operation).2 (y.performPlain operation).2 := by
  have emptied := h.right.forget
  have same : x.service.forget = y.forget.service.forget := h.service
  cases operation with
  | service operation outside =>
    refine ⟨rfl, h.left.perform_service outside, h.right.perform_service outside, ?_⟩
    show (x.service.perform operation).forget = (y.service.perform operation).forget
    rw [← Service.perform_forget _ outside, h.service, Service.perform_forget _ outside]
  | emitNotify message =>
    obtain ⟨reached, sound⟩ := emitNotify_sound byPath h.left travels
    obtain ⟨reached', sound'⟩ := emitNotify_sound byPath emptied travels
    have services := (forget_of_remembers (emitNotify_remembers x message)).trans
      (same.trans (forget_of_remembers (emitNotify_remembers y.forget message)).symm)
    refine ⟨?_, sound, sound', services⟩
    show Emitted.notified (x.emitNotify message).1 = .notified (y.forget.emitNotify message).1
    rw [reached, reached', wants_of_forget same]
  | emitAuth message =>
    obtain ⟨outcome, sound⟩ := emitAuth_sound byPath rules h.left travels
    obtain ⟨outcome', sound'⟩ := emitAuth_sound byPath rules emptied travels
    have services := (forget_of_remembers (emitAuth_remembers x message)).trans
      (same.trans (forget_of_remembers (emitAuth_remembers y.forget message)).symm)
    refine ⟨?_, sound, sound', services⟩
    show Emitted.authorized (x.emitAuth message).1.plain =
      .authorized (y.forget.emitAuth message).1.plain
    rw [outcome, outcome', wants_of_forget same]
  | sendCustom data =>
    obtain ⟨result, sound⟩ := sendCustom_sound h.left data
    obtain ⟨result', sound'⟩ := sendCustom_sound emptied data
    have services : (x.sendCustom data).2.service.forget =
        (y.forget.sendCustom data).2.service.forget := by
      rw [sendCustom_service, sendCustom_service, same]
    have connected : x.service.isConnected = y.forget.service.isConnected := by
      show x.service.forget.isConnected = y.forget.service.forget.isConnected
      rw [same]
    refine ⟨?_, sound, sound', services⟩
    show Emitted.answered (x.sendCustom data).1 = .answered (y.forget.sendCustom data).1
    rw [result, result', connected]

theorem run_matches
    (byPath : ∀ handler, handlers.pathInterest = some handler → handler.ByPath)
    {wire : String × EventType → UInt32 × Bool}
    (rules : ∀ m, handlers.ruling? m = some (wire (resolutionKey m)))
    (h : Matches codec handlers x y) {operations : List Operation}
    (travel : ∀ operation ∈ operations, operation.Travels codec) :
    (x.run operations).map Emitted.plain = (y.runPlain operations).map Emitted.plain := by
  induction operations generalizing x y with
  | nil => rfl
  | cons operation operations ih =>
    obtain ⟨first, rest⟩ := perform_matches byPath rules h (travel operation List.mem_cons_self)
    have later := ih rest fun other mem => travel other (List.mem_cons_of_mem _ mem)
    exact congrArg₂ List.cons first later

/-- The service of a client that has these handlers, before anything has happened. -/
def fresh (codec : Codec) (executor : Executor) (handlers : HandlerSet) : Exchange :=
  ⟨.new codec, { Dispatcher.new codec executor with handlers }⟩

theorem sound_fresh (codec : Codec) (executor : Executor) (handlers : HandlerSet) :
    (fresh codec executor handlers).Sound codec handlers :=
  ⟨rfl, (Dispatcher.Serves.new codec executor).install handlers, nofun, nofun⟩

/-- Whatever a service does and sends, all is as if its caches were emptied each time. -/
theorem caches_invisible (codec : Codec) (executor : Executor) (handlers : HandlerSet)
    (byPath : ∀ handler, handlers.pathInterest = some handler → handler.ByPath)
    (byKey : ∀ handler, handlers.auth = some handler → handler.ByKey) (operations : List Operation)
    (travel : ∀ operation ∈ operations, operation.Travels codec) :
    ((fresh codec executor handlers).run operations).map Emitted.plain =
      ((fresh codec executor handlers).runPlain operations).map Emitted.plain := by
  obtain ⟨wire, rules⟩ := HandlerSet.exists_ruling byKey
  have start := sound_fresh codec executor handlers
  exact run_matches byPath rules ⟨start, start, rfl⟩ travel

/-- The second request is decided by what is cached, the others by the handler. -/
theorem cached_denial_invisible :
    let handlers : HandlerSet := { HandlerSet.empty with
      pathInterest := some fun p => if p.path = "/tmp/x" then .verdict none else .failed
      auth := some fun m => .send (.deny (m.eventType = ⟨0⟩)) }
    let operations : List Operation := [
      .service (.bind 1) rfl,
      .service (.request 1 (.subscribe [⟨0⟩]) .foreign) rfl,
      .emitAuth Codec.argumentsMessage,
      .emitAuth Codec.argumentsMessage,
      .service (.request 1 .clearCache .foreign) rfl,
      .emitAuth Codec.argumentsMessage]
    Codec.argumentsMessage.Travels .default ∧
      ((fresh .default .serial handlers).run operations).map Emitted.plain =
        ((fresh .default .serial handlers).runPlain operations).map Emitted.plain := by
  intro handlers operations
  have native : Codec.argumentsMessage.Native := ⟨⟨trivial, rfl, trivial⟩, trivial⟩
  have process := Codec.encode_of_fits (show
    (Wire.encode Codec.argumentsMessage.process).write.length ≤ Codec.limit .default by
      decide +kernel)
  have encoded := Codec.encode_of_fits (show (Wire.encode Codec.argumentsMessage).write.length ≤
    Codec.limit .default by decide +kernel)
  have decoded := Codec.decode_message native encoded (by decide)
  have travels : Codec.argumentsMessage.Travels .default :=
    ⟨native, ⟨_, process⟩, _, encoded, _, decoded⟩
  refine ⟨travels, caches_invisible .default .serial handlers ?_ ?_ operations ?_⟩
  · rintro handler installed p q same
    obtain rfl := Option.some.inj installed
    simp only [same]
  · rintro handler installed
    obtain rfl := Option.some.inj installed
    exact ⟨fun key => .deny (key.2 = ⟨0⟩), fun m => rfl⟩
  · simp only [operations, List.forall_mem_cons, Operation.Travels, travels]
    simp

end Exchange

end EndpointMonitor
