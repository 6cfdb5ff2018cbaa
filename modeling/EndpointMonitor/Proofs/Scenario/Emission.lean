import EndpointMonitor.Proofs.Service.Interest
import EndpointMonitor.Scenario.Demo

/-!
What the handlers of the demonstration print for an event that the service sends: one line if the
event is watched and not muted, and its message fits.
-/

namespace EndpointMonitor

namespace Exchange

variable {x : Exchange}

/-- A question about interest goes to the dispatcher of the client, or nowhere. -/
theorem interestIn_dispatcher (x : Exchange) (process : ProcessDescriptor) :
    (x.interestIn process).2.dispatcher = x.dispatcher ∨
      ∃ payload, (x.interestIn process).2.dispatcher = (x.dispatcher.pathInterest payload).2 := by
  unfold interestIn
  split
  · exact .inl rfl
  · simp only [cacheInterest, askInterest]
    split
    · exact .inl rfl
    · exact .inr ⟨_, rfl⟩

theorem delivers_dispatcher (x : Exchange) (m : EventMessage) :
    (x.delivers m).2.dispatcher = x.dispatcher ∨
      ∃ payload, (x.delivers m).2.dispatcher = (x.dispatcher.pathInterest payload).2 := by
  rcases delivers_cases x m with same | asked
  · exact .inl (congrArg _ same)
  · rw [asked]
    exact interestIn_dispatcher x m.process

end Exchange

namespace Demo

variable {codec : Codec} {muted : Mutes} {x : Exchange} {m : EventMessage}

/-- Whether an event is subscribed to, and is none of those that are muted. -/
def passes (muted : Mutes) (m : EventMessage) : Bool :=
  watched.contains m.eventType && !muted.mutes m

/-- Whether a message is small enough to be sent. -/
def fits (codec : Codec) (m : EventMessage) : Bool := (Wire.encode m).write.length ≤ codec.limit

/-- The lines that handlers have printed and nobody has taken. -/
def printed (d : Dispatcher) : List String := d.trace.filterMap handlerLine?

/-- The service remembers what the demonstration has asked of it so far, and the handlers are at
rest. No process is ignored. -/
structure Watches (codec : Codec) (muted : Mutes) (x : Exchange) : Prop where
  shares : x.Shares codec
  handlers : x.dispatcher.handlers = handlers
  idle : x.dispatcher.jobs = []
  connected : x.service.isConnected = true
  subscriptions : x.service.tables.subscriptions = watched
  mutes : x.service.tables.mutes = muted
  heeded : ∀ path verdict, x.service.tables.interest.find? path = some verdict → verdict = none

/-! ### Filters -/

/-- The handler has an opinion on one process only. -/
theorem view?_eq_none (codec : Codec) {process : ProcessDescriptor}
    (ordinary : process.name ≠ "mdworker") : handlers.view? codec process = none := by
  simp only [HandlerSet.view?, handlers, ordinary, if_false]

theorem Watches.askInterest (h : Watches codec muted x) {process : ProcessDescriptor}
    (ordinary : process.name ≠ "mdworker") :
    (x.askInterest process).1 = none ∧ (x.askInterest process).2.service = x.service := by
  cases encoded : codec.encode process with
  | error e =>
    have unasked : x.askInterest process = (none, x) := by
      simp only [Exchange.askInterest, h.shares.service, encoded]
    rw [unasked]
    exact ⟨rfl, rfl⟩
  | ok payload =>
    rw [Exchange.askInterest_eq h.shares encoded]
    refine ⟨?_, rfl⟩
    rw [Exchange.view?, h.handlers, view?_eq_none _ ordinary]

theorem Watches.interestIn (h : Watches codec muted x) {process : ProcessDescriptor}
    (ordinary : process.name ≠ "mdworker") :
    (x.interestIn process).1 = none ∧ ∀ path verdict,
      (x.interestIn process).2.service.tables.interest.find? path = some verdict →
        verdict = none := by
  unfold Exchange.interestIn
  cases cached : x.service.tables.interest.find? process.path with
  | some verdict => exact ⟨h.heeded _ _ cached, h.heeded⟩
  | none =>
    obtain ⟨silent, service⟩ := h.askInterest ordinary
    refine ⟨silent, fun path verdict found => ?_⟩
    simp only [Exchange.cacheInterest, silent, service, Table.find_put] at found
    split at found
    · exact (Option.some.inj found).symm
    · exact h.heeded path verdict found

theorem Watches.delivers (h : Watches codec muted x) (ordinary : m.process.name ≠ "mdworker") :
    ∃ y, x.delivers m = (passes muted m, y) ∧ Watches codec muted y ∧
      printed y.dispatcher = printed x.dispatcher := by
  obtain ⟨silent, heeded⟩ := h.interestIn ordinary
  obtain ⟨interest, service⟩ := x.delivers_service m
  obtain ⟨asked, trace⟩ := Exchange.delivers_trace h.idle m
  have dispatcher := x.delivers_dispatcher m
  refine ⟨(x.delivers m).2, Prod.ext ?_ rfl,
    ⟨Exchange.shares_delivers h.shares m, ?_, ?_, ?_, ?_, ?_, ?_⟩, ?_⟩
  · rw [Exchange.delivers_eq, silent, Service.wants, h.connected, Bool.true_and, Bool.and_true,
      ServiceTables.passes, h.subscriptions, h.mutes, passes]
  · rcases dispatcher with same | ⟨payload, asked⟩
    · rw [same, h.handlers]
    · rw [asked, (Dispatcher.pathInterest_steady _ _).handlers, h.handlers]
  · rcases dispatcher with same | ⟨payload, asked⟩
    · rw [same, h.idle]
    · rw [asked, Dispatcher.jobs_pathInterest h.idle]
  · rw [service]
    exact h.connected
  · rw [service]
    exact h.subscriptions
  · rw [service]
    exact h.mutes
  · rcases Exchange.delivers_cases x m with same | asked
    · rw [same]
      exact h.heeded
    · rw [asked]
      exact heeded
  · rw [printed, trace, List.filterMap_append, List.filterMap_map]
    exact (congrArg (_ ++ ·) (List.filterMap_none _)).trans (List.append_nil _)

/-! ### Events -/

/-- The handlers have come to print these lines. -/
structure Prints (codec : Codec) (muted : Mutes) (x x' : Exchange) (lines : List String) :
    Prop where
  watches : Watches codec muted x'
  lines : printed x'.dispatcher = printed x.dispatcher ++ lines

/-- The lines for an event. There are none unless it gets as far as the handler. -/
def linesFor (codec : Codec) (muted : Mutes) (m : EventMessage) (invocation : Invocation) :
    List String :=
  if passes muted m && fits codec m then (handlerLine? (.invoked invocation)).toList else []

/-- Handlers that have run are at rest again. -/
theorem Watches.received (h : Watches codec muted x) (call : InboundCall) :
    Watches codec muted { x with dispatcher := (x.dispatcher.receive call).work } where
  shares := ⟨h.shares.service, (x.dispatcher.codec_received call).trans h.shares.dispatcher⟩
  handlers := (Dispatcher.work_steady _).handlers.trans
    ((x.dispatcher.receive_frame call).2.trans h.handlers)
  idle := Dispatcher.jobs_work _
  connected := h.connected
  subscriptions := h.subscriptions
  mutes := h.mutes
  heeded := h.heeded

theorem encode_of_fits (small : fits codec m = true) :
    codec.encode m = .ok (Wire.encode m).write := Codec.encode_of_fits (of_decide_eq_true small)

theorem encode_of_not_fits (large : fits codec m = false) :
    codec.encode m = .error (.encodeFailure (codec.oversized (Wire.encode m).write)) :=
  if_neg (of_decide_eq_false large)

theorem Watches.emitNotify (h : Watches codec muted x) (ordinary : m.process.name ≠ "mdworker")
    (arrives : ∀ payload, codec.encode m = .ok payload → codec.decode payload = .ok m) :
    Prints codec muted x (x.emitNotify m).2 (linesFor codec muted m (.notify m)) := by
  obtain ⟨y, delivered, watches, same⟩ := h.delivers ordinary
  have unheard : Prints codec muted x y [] := ⟨watches, same.trans (List.append_nil _).symm⟩
  unfold Exchange.emitNotify linesFor
  rw [delivered]
  cases passes muted m with
  | false => exact unheard
  | true =>
    simp only [watches.shares.service, Bool.true_and]
    cases small : fits codec m with
    | false =>
      rw [encode_of_not_fits small]
      exact unheard
    | true =>
      have encoded := encode_of_fits small
      have decoded := arrives _ encoded
      rw [encoded]
      refine ⟨watches.received (.notify _), ?_⟩
      have installed : y.dispatcher.handlers.notify = some fun _ => false := by
        rw [watches.handlers]
        rfl
      have ran := Dispatcher.trace_notify watches.idle installed
        (watches.shares.dispatcher ▸ decoded)
      rw [printed, ran, List.filterMap_append, ← printed, same]
      rfl

theorem Watches.cacheResolution (h : Watches codec muted x) (key : String × EventType)
    (resolution : Resolution) : Watches codec muted (x.cacheResolution key resolution) := by
  unfold Exchange.cacheResolution
  split
  · exact ⟨⟨h.shares.service, h.shares.dispatcher⟩, h.handlers, h.idle, h.connected,
      h.subscriptions, h.mutes, h.heeded⟩
  · exact h

/-- A request about which nothing is cached. -/
theorem Watches.emitAuth (h : Watches codec muted x) (ordinary : m.process.name ≠ "mdworker")
    (arrives : ∀ payload, codec.encode m = .ok payload → codec.decode payload = .ok m)
    (fresh : x.service.tables.resolutions.find? (Exchange.resolutionKey m) = none) :
    Prints codec muted x (x.emitAuth m).2 (linesFor codec muted m (.auth m)) := by
  obtain ⟨y, delivered, watches, same⟩ := h.delivers ordinary
  have unheard : Prints codec muted x y [] := ⟨watches, same.trans (List.append_nil _).symm⟩
  have absent : y.service.tables.resolutions.find? (Exchange.resolutionKey m) = none := by
    obtain ⟨interest, service⟩ := x.delivers_service m
    rw [delivered] at service
    rw [service]
    exact fresh
  have codec_ : y.service.codec = codec := watches.shares.service
  unfold linesFor
  cases passed : passes muted m with
  | false =>
    rw [passed] at delivered
    rw [Exchange.emitAuth_filtered delivered]
    exact unheard
  | true =>
    rw [passed] at delivered
    cases small : fits codec m with
    | false =>
      have refused := encode_of_not_fits small
      have dropped : x.emitAuth m = (.notDelivered, y) := by
        simp only [Exchange.emitAuth, delivered, absent, codec_, refused]
      rw [dropped]
      exact unheard
    | true =>
      have encoded := encode_of_fits small
      have sent : y.service.codec.encode m = .ok (Wire.encode m).write := codec_ ▸ encoded
      have installed : y.dispatcher.handlers.auth = some fun m => .send (authorize m) := by
        rw [watches.handlers]
        rfl
      have ran := Dispatcher.trace_auth watches.idle installed
        (watches.shares.dispatcher ▸ arrives _ encoded)
      have lines : printed (y.dispatcher.auth (Wire.encode m).write).2 =
          printed x.dispatcher ++ (handlerLine? (.invoked (.auth m))).toList := by
        rw [printed, ran, List.filterMap_append, ← printed, same]
        rfl
      have received : Watches codec muted
          { y with dispatcher := (y.dispatcher.auth (Wire.encode m).write).2 } :=
        watches.received (.auth _)
      rcases answered : y.dispatcher.auth (Wire.encode m).write with ⟨answer, dispatcher⟩
      rw [answered] at received lines
      cases answer with
      | none =>
        rw [Exchange.emitAuth_kept delivered absent sent answered]
        exact ⟨received, lines⟩
      | some answer =>
        rw [Exchange.emitAuth_decided delivered absent sent answered]
        exact ⟨received.cacheResolution _ _,
          (congrArg printed (Exchange.cacheResolution_dispatcher ..)).trans lines⟩

end Demo

end EndpointMonitor
