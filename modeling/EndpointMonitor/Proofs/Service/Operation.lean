import EndpointMonitor.Proofs.Client.CustomMessage
import EndpointMonitor.Proofs.Service.Holdings

/-!
The runs of a service. What it holds of its client changes when a channel is made, when a request on
the current channel is carried out, and when something that it sends leaves a mark in its caches;
replies can be kept back or delivered without any effect on that.
-/

namespace EndpointMonitor

namespace Service

/-! ### Requests -/

/-- What a request is answered that arrives on a channel. -/
def answer (s : Service) (channel : Nat) (request : ServiceRequest) : RemoteResult :=
  if s.isCurrent channel then (s.apply request).1 else .error staleChannel

/-- The service after it has dealt with a request, before its reply goes anywhere. -/
def served (s : Service) (channel : Nat) (request : ServiceRequest) : Service :=
  if s.isCurrent channel then (s.apply request).2 else s

theorem request_eq (s : Service) (channel : Nat) (request : ServiceRequest)
    (deliver : RemoteResult → Delivery) :
    s.request channel request deliver =
      (s.served channel request).respond (deliver (s.answer channel request)) := by
  unfold Service.request served answer
  split <;> rfl

theorem answer_stale {s : Service} {channel : Nat} (stale : s.isCurrent channel = false)
    (request : ServiceRequest) : s.answer channel request = .error staleChannel := by
  simp [answer, stale]

theorem served_stale {s : Service} {channel : Nat} (stale : s.isCurrent channel = false)
    (request : ServiceRequest) : s.served channel request = s := by
  simp [served, stale]

/-- An operation that is asked for on the current channel is carried out and on record. -/
theorem served_control {s : Service} {channel : Nat} (current : s.isCurrent channel = true)
    {request : ServiceRequest} {control : Control}
    (asks : request.control? s.codec = some control) :
    s.answer channel request = .ok (control.reply s.tables) ∧
      ∃ after, after.holdings = control.effect s.tables.holdings ∧
        s.served channel request =
          { s with requests := s.requests ++ [request.name], tables := after } := by
  obtain ⟨after, applied, effect⟩ := ServiceTables.apply_control asks s.tables
  have carried : s.apply request = (.ok (control.reply s.tables),
      { s with requests := s.requests ++ [request.name], tables := after }) := by
    cases request with
    | createSession converter => cases asks
    | _ => simp only [apply, applied]
  refine ⟨?_, after, effect, ?_⟩
  · rw [answer, if_pos current, carried]
  · rw [served, if_pos current, carried]

/-- A session is opened on the current channel, if its configuration can be read. -/
theorem served_session {s : Service} {channel : Nat} (current : s.isCurrent channel = true)
    {payload : Bytes} {converter : ConverterConfig} (reads : s.codec.decode payload = .ok converter) :
    s.answer channel (.createSession payload) = .ok .done ∧
      s.served channel (.createSession payload) =
        { s with
          requests := s.requests ++ ["create_session"]
          converter := some converter
          sessions := s.sessions + 1 } := by
  have opened : s.apply (.createSession payload) = (.ok .done,
      { s with
        requests := s.requests ++ ["create_session"]
        converter := some converter
        sessions := s.sessions + 1 }) := by
    simp only [apply, openSession, reads, ServiceRequest.name]
  refine ⟨?_, ?_⟩
  · rw [answer, if_pos current, opened]
  · rw [served, if_pos current, opened]

/-- A request changes no table unless it asks for an operation and is accepted. -/
theorem served_other {s : Service} {channel : Nat} {request : ServiceRequest}
    (other : s.isCurrent channel = true → request.control? s.codec = none) :
    (s.served channel request).tables = s.tables := by
  cases current : s.isCurrent channel with
  | false => rw [served_stale current]
  | true =>
    rw [served, if_pos current]
    cases request with
    | createSession converter =>
      simp only [apply, openSession]
      split <;> rfl
    | _ =>
      simp only [apply]
      split
      · next reply after accepted =>
        rcases ServiceTables.asks_of_apply accepted with ⟨control, asks⟩ | ⟨⟨_, session⟩, -⟩
        · rw [other current] at asks
          cases asks
        · cases session
      · rfl

/-- The parts of a service that requests change. -/
theorem served_eq (s : Service) (channel : Nat) (request : ServiceRequest) :
    ∃ requests tables converter sessions,
      s.served channel request = { s with requests, tables, converter, sessions } := by
  unfold served
  split
  · cases request with
    | createSession converter =>
      simp only [apply, openSession]
      split <;> exact ⟨_, _, _, _, rfl⟩
    | _ =>
      simp only [apply]
      split <;> exact ⟨_, _, _, _, rfl⟩
  · exact ⟨_, _, _, _, rfl⟩

theorem served_codec (s : Service) (channel : Nat) (request : ServiceRequest) :
    (s.served channel request).codec = s.codec := by
  obtain ⟨_, _, _, _, served⟩ := s.served_eq channel request
  rw [served]

theorem served_binding (s : Service) (channel : Nat) (request : ServiceRequest) :
    (s.served channel request).binding = s.binding := by
  obtain ⟨_, _, _, _, served⟩ := s.served_eq channel request
  rw [served]

/-- Whether replies go back at once. -/
def isPrompt (s : Service) : Bool := !s.unresponsive && s.replyDelayMs.isNone

theorem respond_reply (s : Service) (delivery : Delivery) :
    (s.respond delivery).1 = if s.isPrompt then some delivery else none := by
  simp only [respond, isPrompt]
  split
  · next silent => simp [silent]
  · next answers =>
    split
    · next afterMs delays => simp [delays]
    · next at_once => simp [answers, at_once]

theorem served_isPrompt (s : Service) (channel : Nat) (request : ServiceRequest) :
    (s.served channel request).isPrompt = s.isPrompt := by
  obtain ⟨_, _, _, _, served⟩ := s.served_eq channel request
  rw [served]
  rfl

/-! ### What has no effect on the state of the service -/

/-- The service holds the same of its client, and the same channel is current. -/
structure Steady (s s' : Service) : Prop where
  codec : s'.codec = s.codec
  binding : s'.binding = s.binding
  tables : s'.tables = s.tables
  converter : s'.converter = s.converter
  sessions : s'.sessions = s.sessions
  requests : s'.requests = s.requests
  channels : s'.channels = s.channels

theorem Steady.refl (s : Service) : Steady s s := ⟨rfl, rfl, rfl, rfl, rfl, rfl, rfl⟩

theorem Steady.trans {s t u : Service} (h : Steady s t) (h' : Steady t u) : Steady s u where
  codec := h'.codec.trans h.codec
  binding := h'.binding.trans h.binding
  tables := h'.tables.trans h.tables
  converter := h'.converter.trans h.converter
  sessions := h'.sessions.trans h.sessions
  requests := h'.requests.trans h.requests
  channels := h'.channels.trans h.channels

theorem respond_steady (s : Service) (delivery : Delivery) :
    Steady s (s.respond delivery).2 := by
  simp only [respond]
  split
  · exact ⟨rfl, rfl, rfl, rfl, rfl, rfl, rfl⟩
  · split <;> exact ⟨rfl, rfl, rfl, rfl, rfl, rfl, rfl⟩

theorem customMessage_steady (s : Service) (channel : Nat) (data : Bytes)
    (deliver : Except String Bytes → Delivery) :
    Steady s (s.customMessage channel data deliver).2 := by
  unfold customMessage
  split
  · exact respond_steady s _
  · exact .refl s

theorem releaseHeld_steady (s : Service) : Steady s s.releaseHeld.2 :=
  ⟨rfl, rfl, rfl, rfl, rfl, rfl, rfl⟩

theorem deliverDelayed_steady {s s' : Service} {limitMs : Option Nat} {delivery : Delivery}
    (h : s.deliverDelayed? limitMs = some (delivery, s')) : Steady s s' := by
  simp only [deliverDelayed?] at h
  split at h
  · obtain ⟨reply, -, made⟩ := Option.map_eq_some_iff.1 h
    obtain ⟨-, rfl⟩ := Prod.mk.inj made
    exact ⟨rfl, rfl, rfl, rfl, rfl, rfl, rfl⟩
  · cases h

theorem configure_steady (s : Service) (setting : Setting) : Steady s (s.configure setting) := by
  cases setting <;> exact ⟨rfl, rfl, rfl, rfl, rfl, rfl, rfl⟩

/-! ### What sending leaves behind -/

/-- Something is cached. -/
def remember (s : Service) (interest : Table String (Option InterestVerdict))
    (resolutions : Table (String × EventType) Resolution) : Service :=
  { s with tables := { s.tables with interest, resolutions } }

/-- At most the caches are different. -/
def Remembers (s s' : Service) : Prop := ∃ interest resolutions, s' = s.remember interest resolutions

end Service

namespace Loopback

/-- The request of a blocked call reaches the service, and the reply comes back at once or not. -/
theorem request_eq {l : Loopback} (open_ : l.interception = none) (channel call : Nat)
    (request : ServiceRequest) :
    l.request channel call request =
      (if l.service.isPrompt then .answered (l.service.answer channel request) else .open,
        { l with service := ((l.service.served channel request).respond
          (.call call (l.service.answer channel request))).2 }) := by
  have back := Service.respond_reply (l.service.served channel request)
    (.call call (l.service.answer channel request))
  rw [Service.served_isPrompt] at back
  simp only [Loopback.request, open_, Service.request_eq, back]
  cases l.service.isPrompt <;> rfl

/-- A session request reaches the service, and the reply comes back at once or not. -/
theorem openSession_eq {l : Loopback} (open_ : l.interception = none) (channel generation : Nat)
    (payload : Bytes) :
    Transport.openSession l channel generation payload =
      (if l.service.isPrompt then
          [.sessionReply generation (l.service.answer channel (.createSession payload))]
        else [],
        { l with service := ((l.service.served channel (.createSession payload)).respond
          (.session generation (l.service.answer channel (.createSession payload)))).2 }) := by
  have back := Service.respond_reply (l.service.served channel (.createSession payload))
    (.session generation (l.service.answer channel (.createSession payload)))
  rw [Service.served_isPrompt] at back
  simp only [Transport.openSession, Loopback.openSession, open_, Service.request_eq, back]
  cases l.service.isPrompt <;> rfl

end Loopback

/-! ### Events that are sent -/

/-- The cached resolutions after an authorization request has been dealt with. -/
def AuthOutcome.cachedIn (outcome : AuthOutcome) (key : String × EventType)
    (resolutions : Table (String × EventType) Resolution) : Table (String × EventType) Resolution :=
  match outcome with
  | .resolved resolution =>
    if resolution.cache then resolutions.put key resolution else resolutions
  | .notDelivered | .cached _ | .timedOut => resolutions

theorem AuthOutcome.find_cachedIn {outcome : AuthOutcome} {key : String × EventType}
    {resolutions : Table (String × EventType) Resolution}
    (absent : ∀ resolution, outcome = .resolved resolution → resolutions.find? key = none)
    (other : String × EventType) (resolution : Resolution) :
    (outcome.cachedIn key resolutions).find? other = some resolution ↔
      (key = other ∧ outcome = .resolved resolution ∧ resolution.cache = true) ∨
        resolutions.find? other = some resolution := by
  cases outcome with
  | notDelivered | cached | timedOut => simp [cachedIn]
  | resolved made =>
    have nothing := absent made rfl
    cases keep : made.cache with
    | false =>
      simp only [cachedIn, keep, resolved.injEq, Bool.false_eq_true, if_false]
      refine ⟨.inr, fun h => h.resolve_left ?_⟩
      rintro ⟨-, rfl, cached⟩
      cases keep.symm.trans cached
    | true =>
      simp only [cachedIn, keep, if_true, Table.find_put, resolved.injEq]
      by_cases same : other = key
      · subst same
        simp only [if_true, nothing, Option.some.injEq, true_and, reduceCtorEq, or_false]
        exact ⟨fun h => ⟨h, h ▸ keep⟩, fun h => h.1⟩
      · simp [same, Ne.symm same]

namespace Exchange

variable {x y : Exchange} {m : EventMessage}

theorem interestIn_service (x : Exchange) (process : ProcessDescriptor) :
    ∃ interest, (x.interestIn process).2.service =
      x.service.remember interest x.service.tables.resolutions := by
  unfold interestIn
  split
  · exact ⟨x.service.tables.interest, rfl⟩
  · simp only [cacheInterest, askInterest]
    split <;> exact ⟨_, rfl⟩

theorem delivers_cases (x : Exchange) (m : EventMessage) :
    (x.delivers m).2 = x ∨ (x.delivers m).2 = (x.interestIn m.process).2 := by
  unfold delivers
  cases x.service.isConnected && x.service.tables.passes m with
  | false => exact .inl rfl
  | true =>
    simp only [if_true]
    cases (x.interestIn m.process).1 <;> exact .inr rfl

/-- No resolution is cached on the way through the filters. -/
theorem delivers_service (x : Exchange) (m : EventMessage) :
    ∃ interest, (x.delivers m).2.service =
      x.service.remember interest x.service.tables.resolutions := by
  rcases delivers_cases x m with same | asked
  · exact ⟨x.service.tables.interest, by rw [same]; rfl⟩
  · rw [asked]
    exact interestIn_service x m.process

theorem emitNotify_service (x : Exchange) (m : EventMessage) :
    ∃ interest, (x.emitNotify m).2.service =
      x.service.remember interest x.service.tables.resolutions := by
  have reached := delivers_service x m
  unfold emitNotify
  split
  · next missed => rwa [missed] at reached
  · next passed =>
    rw [passed] at reached
    split <;> exact reached

theorem emitNotify_remembers (x : Exchange) (message : EventMessage) :
    x.service.Remembers (x.emitNotify message).2.service := by
  obtain ⟨interest, made⟩ := emitNotify_service x message
  exact ⟨interest, _, made⟩

theorem emitAuth_filtered (filtered : x.delivers m = (false, y)) :
    x.emitAuth m = (.notDelivered, y) := by
  simp only [emitAuth, filtered]

theorem emitAuth_cached (passed : x.delivers m = (true, y)) {resolution : Resolution}
    (cached : y.service.tables.resolutions.find? (resolutionKey m) = some resolution) :
    x.emitAuth m = (.cached resolution, y) := by
  simp only [emitAuth, passed, cached]

section
variable {payload : Bytes} {dispatcher : Dispatcher} (passed : x.delivers m = (true, y))
    (absent : y.service.tables.resolutions.find? (resolutionKey m) = none)
    (encoded : y.service.codec.encode m = .ok payload)
include passed absent encoded

theorem emitAuth_decided {wire : UInt32 × Bool}
    (answered : y.dispatcher.auth payload = (some wire, dispatcher)) :
    x.emitAuth m = (.resolved (.ofWire wire),
      { y with dispatcher }.cacheResolution (resolutionKey m) (.ofWire wire)) := by
  simp only [emitAuth, passed, absent, encoded, answered]

theorem emitAuth_kept (answered : y.dispatcher.auth payload = (none, dispatcher)) :
    x.emitAuth m = (.timedOut, { y with dispatcher }) := by
  simp only [emitAuth, passed, absent, encoded, answered]

end

theorem cacheResolution_service (x : Exchange) (key : String × EventType)
    (resolution : Resolution) :
    (x.cacheResolution key resolution).service = x.service.remember x.service.tables.interest
      ((AuthOutcome.resolved resolution).cachedIn key x.service.tables.resolutions) := by
  simp only [cacheResolution, AuthOutcome.cachedIn]
  split <;> rfl

/-- What the handler decides is cached if it says so, and nothing else is. The handler decides only
where nothing is cached yet. -/
theorem emitAuth_service (x : Exchange) (m : EventMessage) :
    (∃ interest, (x.emitAuth m).2.service = x.service.remember interest
      ((x.emitAuth m).1.cachedIn (resolutionKey m) x.service.tables.resolutions)) ∧
    ∀ resolution, (x.emitAuth m).1 = .resolved resolution →
      x.service.tables.resolutions.find? (resolutionKey m) = none := by
  obtain ⟨interest, reached⟩ := delivers_service x m
  rcases delivered : x.delivers m with ⟨passes, y⟩
  rw [delivered] at reached
  replace reached : y.service = _ := reached
  have kept : y.service.tables.resolutions = x.service.tables.resolutions := by
    rw [reached]
    rfl
  cases passes with
  | false =>
    rw [emitAuth_filtered delivered]
    exact ⟨⟨interest, reached⟩, fun _ told => by cases told⟩
  | true =>
    cases cached : y.service.tables.resolutions.find? (resolutionKey m) with
    | some resolution =>
      rw [emitAuth_cached delivered cached]
      exact ⟨⟨interest, reached⟩, fun _ told => by cases told⟩
    | none =>
      cases encoded : y.service.codec.encode m with
      | error e =>
        have refused : x.emitAuth m = (.notDelivered, y) := by
          simp only [emitAuth, delivered, cached, encoded]
        rw [refused]
        exact ⟨⟨interest, reached⟩, fun _ told => by cases told⟩
      | ok payload =>
        rcases answered : y.dispatcher.auth payload with ⟨answer, dispatcher⟩
        cases answer with
        | none =>
          rw [emitAuth_kept delivered cached encoded answered]
          exact ⟨⟨interest, reached⟩, fun _ told => by cases told⟩
        | some wire =>
          rw [emitAuth_decided delivered cached encoded answered]
          refine ⟨⟨interest, ?_⟩, fun _ _ => kept ▸ cached⟩
          simp only [cacheResolution_service, reached]
          rfl

theorem emitAuth_remembers (x : Exchange) (message : EventMessage) :
    x.service.Remembers (x.emitAuth message).2.service := by
  obtain ⟨⟨interest, made⟩, -⟩ := emitAuth_service x message
  exact ⟨interest, _, made⟩

theorem sendCustom_service (x : Exchange) (data : Bytes) :
    (x.sendCustom data).2.service = x.service := by
  unfold sendCustom
  split
  · split <;> rfl
  · rfl

/-- Without a subscription no event gets as far as the caches. -/
theorem delivers_unsubscribed {x : Exchange} (h : x.service.tables.subscriptions = .empty)
    (message : EventMessage) : x.delivers message = (false, x) := by
  have blocked : x.service.tables.passes message = false := by
    have absent : EventSet.empty.contains message.eventType = false := rfl
    simp only [ServiceTables.passes, h, absent, Bool.false_and]
  simp only [delivers, blocked, Bool.and_false, Bool.false_eq_true, if_false]

end Exchange

namespace Service

/-! ### Runs -/

/-- What clients, users of channels and the service itself do. -/
inductive Operation where
  | bind (generation : Nat)
  | unbind (channel : Nat)
  | interrupt
  | request (channel : Nat) (request : ServiceRequest) (deliver : RemoteResult → Delivery)
  | customMessage (channel : Nat) (data : Bytes) (deliver : Except String Bytes → Delivery)
  | releaseHeld
  | deliverDelayed (limitMs : Option Nat)
  | configure (setting : Setting)
  /-- Something that was sent to the client has left a mark in the caches. -/
  | remember (interest : Table String (Option InterestVerdict))
      (resolutions : Table (String × EventType) Resolution)

/-- An operation that is not possible now does nothing. -/
def perform (s : Service) : Operation → Service
  | .bind generation => (s.bind generation).2
  | .unbind channel => s.unbind channel
  | .interrupt => s.interrupt.2
  | .request channel request deliver => (s.request channel request deliver).2
  | .customMessage channel data deliver => (s.customMessage channel data deliver).2
  | .releaseHeld => s.releaseHeld.2
  | .deliverDelayed limitMs => ((s.deliverDelayed? limitMs).map (·.2)).getD s
  | .configure setting => s.configure setting
  | .remember interest resolutions => s.remember interest resolutions

def performAll (s : Service) (operations : List Operation) : Service := operations.foldl perform s

theorem deliverDelayed_perform (s : Service) (limitMs : Option Nat) :
    Steady s (s.perform (.deliverDelayed limitMs)) := by
  cases due : s.deliverDelayed? limitMs with
  | none =>
    simp only [perform, due]
    exact .refl s
  | some delivered =>
    simp only [perform, due]
    exact deliverDelayed_steady due

theorem perform_codec (s : Service) (operation : Operation) :
    (s.perform operation).codec = s.codec := by
  cases operation with
  | bind generation =>
    simp only [perform, Service.bind]
    split <;> rfl
  | unbind channel =>
    simp only [perform, unbind]
    split <;> rfl
  | request channel request deliver =>
    rw [perform, request_eq]
    exact (respond_steady _ _).codec.trans (served_codec s channel request)
  | customMessage channel data deliver => exact (customMessage_steady s channel data deliver).codec
  | deliverDelayed limitMs => exact (deliverDelayed_perform s limitMs).codec
  | configure setting => exact (configure_steady s setting).codec
  | interrupt | releaseHeld | remember interest resolutions => rfl

end Service

end EndpointMonitor
