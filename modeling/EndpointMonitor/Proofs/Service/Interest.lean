import EndpointMonitor.Proofs.Service.Notification

/-!
Questions about interest: what a handler is heard to say, which requests empty the cache of
interests, and what comes before a question is put.
-/

namespace EndpointMonitor

namespace HandlerSet

/-- A verdict is heard from a handler that has one, if it is not too large. -/
theorem view?_eq_some {h : HandlerSet} {codec : Codec} {process : ProcessDescriptor}
    {verdict : InterestVerdict} : h.view? codec process = some verdict ↔
      ∃ handler, h.pathInterest = some handler ∧ handler process = .verdict (some verdict) ∧
        ∃ payload, codec.encode verdict = .ok payload := by
  unfold view?
  cases h.pathInterest with
  | none => simp
  | some handler =>
    simp only [Option.some.injEq, exists_eq_left']
    cases handler process with
    | failed => simp
    | verdict value =>
      cases value with
      | none => simp
      | some found =>
        cases encoded : codec.encode found with
        | error e =>
          simp only [Except.toOption, Option.map_none, encoded, reduceCtorEq, false_iff, not_and,
            Opinion.verdict.injEq, Option.some.injEq, not_exists]
          rintro rfl payload fits
          rw [encoded] at fits
          cases fits
        | ok payload =>
          simp only [Except.toOption, Option.map_some, encoded, Option.some.injEq,
            Opinion.verdict.injEq]
          refine ⟨?_, fun h => h.1⟩
          rintro rfl
          exact ⟨rfl, payload, encoded⟩

end HandlerSet

namespace Dispatcher

theorem codec_received (d : Dispatcher) (call : InboundCall) :
    (d.receive call).work.codec = d.codec := (work_steady _).codec.trans ((receive_frame d call).1)

theorem codec_step (d : Dispatcher) (operation : Operation) :
    (d.step operation).codec = d.codec := by
  cases operation with
  | receive call => exact (receive_frame d call).1
  | askInterest payload => exact ((work_steady d).trans (pathInterest_steady d.work payload)).codec
  | install | setExecutor => rfl
  | work => exact (work_steady d).codec
  | run call =>
    simp only [step, takeJob]
    cases d.jobs.find? (·.answers call) with
    | some job => exact (perform_steady _ job).codec
    | none => rfl
  | discard call =>
    simp only [step, takeJob]
    cases d.jobs.find? (·.answers call) with
    | some job => exact (discard_steady _ job).codec
    | none => rfl
  | runNotification | discardNotification | useKept | useKeptCustom =>
    simp only [step]
    split <;> rfl
  | resolveKept resolution => exact (resolveKept_steady d resolution).codec

/-- What is told about a process depends on the codec and the handler only. -/
theorem answer_pathInterest (d : Dispatcher) (payload : Bytes) :
    (d.pathInterest payload).1 = d.handlers.opinion? d.codec payload := by
  unfold pathInterest HandlerSet.opinion?
  cases d.codec.decode (α := ProcessDescriptor) payload with
  | error e => rfl
  | ok process =>
    cases d.handlers.pathInterest with
    | none => rfl
    | some handler =>
      have worked := work_steady d
      simp only
      cases handler process with
      | failed => rfl
      | verdict value =>
        cases value with
        | none => rfl
        | some verdict =>
          exact congrArg (fun codec => (Codec.encode codec verdict).toOption) worked.codec

end Dispatcher

namespace Service

/-- A channel is made, or the current one is used to clear the cache of interests. -/
def emptiesInterest (s : Service) : Operation → Bool
  | .bind _ => s.available
  | .request channel .clearPathInterestCache _ => s.isCurrent channel
  | _ => false

theorem interest_apply (s : Service) (request : ServiceRequest) :
    (s.apply request).2.tables.interest =
      if request.clearsInterest then .empty else s.tables.interest := by
  by_cases session : ∃ converter, request = .createSession converter
  · obtain ⟨converter, rfl⟩ := session
    simp only [apply, openSession]
    split <;> rfl
  · rw [apply_of_tables fun converter same => session ⟨converter, same⟩]
    split
    · next accepted => exact (ServiceTables.apply_caches accepted).1
    · next refused =>
      cases request with
      | clearPathInterestCache => cases refused
      | _ => rfl

/-- Nothing else that comes from outside has to do with the interests that are cached. -/
theorem interest_perform (s : Service) {operation : Operation}
    (outside : operation.isExternal = true) : (s.perform operation).tables.interest =
      if s.emptiesInterest operation then .empty else s.tables.interest := by
  cases operation with
  | bind generation =>
    have empties : s.emptiesInterest (.bind generation) = s.available := rfl
    rw [empties, perform, Service.bind]
    by_cases ready : s.available = true
    · rw [if_pos ready, if_pos ready]
      rfl
    · rw [if_neg ready, if_neg ready]
  | unbind channel =>
    simp only [perform, unbind]
    split <;> rfl
  | request channel request deliver =>
    rw [perform, request_eq, (respond_steady _ _).tables]
    cases current : s.isCurrent channel with
    | false =>
      rw [served_stale current]
      cases request <;> simp [emptiesInterest, current]
    | true =>
      have empties : s.emptiesInterest (.request channel request deliver) =
          request.clearsInterest := by
        cases request <;> simp [emptiesInterest, ServiceRequest.clearsInterest, current]
      rw [empties, served, if_pos current]
      exact interest_apply s request
  | customMessage channel data deliver =>
    exact congrArg (·.interest) (customMessage_steady s channel data deliver).tables
  | deliverDelayed limitMs => exact congrArg (·.interest) (deliverDelayed_perform s limitMs).tables
  | configure setting => exact congrArg (·.interest) (configure_steady s setting).tables
  | interrupt | releaseHeld => rfl
  | remember interest resolutions => cases outside

/-- The service has a client, and the message is subscribed to and not muted. -/
structure Admits (s : Service) (m : EventMessage) : Prop where
  connected : s.isConnected = true
  subscribed : m.eventType ∈ s.tables.subscriptions
  unmuted : s.tables.mutes.Admits m

theorem admits_iff (s : Service) (m : EventMessage) :
    s.Admits m ↔ (s.isConnected && s.tables.passes m) = true := by
  have wanted : s.wants none m = true ↔ _ := wants_iff
  rw [wants, Bool.and_true] at wanted
  rw [wanted]
  constructor
  · intro admits
    exact ⟨admits.connected, admits.subscribed, admits.unmuted, by simp⟩
  · rintro ⟨connected, subscribed, unmuted, -⟩
    exact ⟨connected, subscribed, unmuted⟩

end Service

namespace Exchange

variable {x : Exchange} {codec : Codec}

/-- What the client thinks of a process. -/
def view? (x : Exchange) (process : ProcessDescriptor) : Option InterestVerdict :=
  x.dispatcher.handlers.view? x.service.codec process

/-- The service and its client have one codec. -/
structure Shares (codec : Codec) (x : Exchange) : Prop where
  service : x.service.codec = codec
  dispatcher : x.dispatcher.codec = codec

theorem askInterest_eq (shares : x.Shares codec) {process : ProcessDescriptor} {payload : Bytes}
    (encoded : codec.encode process = .ok payload) : x.askInterest process =
      (x.view? process, { x with dispatcher := (x.dispatcher.pathInterest payload).2 }) := by
  have answer := x.dispatcher.answer_pathInterest payload
  rw [shares.dispatcher] at answer
  have heard := HandlerSet.opinion?_of_encode (h := x.dispatcher.handlers) encoded
  simp only [askInterest, view?, shares.service, encoded, answer, heard]

theorem shares_delivers (shares : x.Shares codec) (m : EventMessage) :
    (x.delivers m).2.Shares codec := by
  obtain ⟨interest, reached⟩ := delivers_service x m
  refine ⟨by rw [reached]; exact shares.service, ?_⟩
  rcases delivers_cases x m with same | asked
  · rw [same]
    exact shares.dispatcher
  · rw [asked]
    unfold interestIn askInterest
    split
    · exact shares.dispatcher
    · simp only [cacheInterest]
      split
      · exact shares.dispatcher
      · exact (Dispatcher.pathInterest_steady _ _).codec.trans shares.dispatcher

end Exchange

end EndpointMonitor
