import EndpointMonitor.Proofs.Codec.Events
import EndpointMonitor.Proofs.Service.Operation

/-!
Requests that the service turns down: because a configuration or a rule cannot be read, because a
set cannot hold the events, or because they come over a channel that is no longer the current one.
All that such a request leaves behind is its name, and only if its channel is the current one.
-/

namespace EndpointMonitor

open EventSet (firstOutside?)

namespace ServiceRequest

/-- The events that a request lists. -/
def events : ServiceRequest → List EventType
  | .muteProcess mute | .unmuteProcess mute => mute.events
  | .mutePath mute | .unmutePath mute => mute.events
  | .subscribe listed | .unsubscribe listed => listed
  | _ => []

/-- What is wrong with the configuration or the rule that comes with a request. -/
def unreadable? (codec : Codec) : ServiceRequest → Option ClientError
  | .createSession converter =>
    match codec.decode (α := ConverterConfig) converter with
    | .ok _ => none
    | .error error => some error
  | .muteProcess mute | .unmuteProcess mute =>
    match codec.decode (α := MuteProcessRule) mute.rule with
    | .ok _ => none
    | .error error => some error
  | _ => none

/-- Why a request on the current channel is turned down. The events are looked at last. -/
def refusal? (codec : Codec) (request : ServiceRequest) : Option String :=
  match request.unreadable? codec with
  | some error => some error.message
  | none => (firstOutside? request.events).map fun e =>
      (ClientError.decodeFailure (EventOutOfRange.message ⟨e⟩)).message

theorem isSome_refusal {codec : Codec} {request : ServiceRequest} :
    (∃ reason, request.refusal? codec = some reason) ↔
      (∃ error, request.unreadable? codec = some error) ∨
        ∃ e ∈ request.events, 1023 < e.id.toNat := by
  unfold refusal?
  cases request.unreadable? codec with
  | some error => simp
  | none =>
    simp only [Option.map_eq_some_iff, firstOutside?, reduceCtorEq, exists_false, false_or]
    rw [exists_comm]
    simp only [exists_and_left, exists_eq', and_true, ← Option.isSome_iff_exists,
      List.find?_isSome, decide_eq_true_eq]

end ServiceRequest

theorem ServiceTables.eventSet_eq (events : List EventType) :
    eventSet events =
      match firstOutside? events with
      | some e => .error (ClientError.decodeFailure (EventOutOfRange.message ⟨e⟩)).message
      | none => .ok (EventSet.ofList events) := by
  rw [eventSet, Codec.decodeEvents_eq]
  cases firstOutside? events <;> rfl

namespace Service

variable {s : Service} {channel : Nat} {request : ServiceRequest} {reason : String}

/-- The service with more names in its log. -/
def logged (s : Service) (names : List String) : Service :=
  { s with requests := s.requests ++ names }

theorem logged_nil (s : Service) : s.logged [] = s := by simp [logged]

theorem logged_append (s : Service) (names more : List String) :
    s.logged (names ++ more) = (s.logged names).logged more := by simp [logged]

/-- On the current channel a request is turned down for a reason, or is carried out. -/
theorem apply_cases (s : Service) (request : ServiceRequest) :
    match request.refusal? s.codec with
    | some reason => s.apply request = (.error reason, s.logged [request.name])
    | none => ∃ reply, (s.apply request).1 = .ok reply := by
  cases request with
  | createSession converter =>
    simp only [ServiceRequest.refusal?, ServiceRequest.unreadable?, apply, openSession]
    cases s.codec.decode (α := ConverterConfig) converter with
    | ok config => exact ⟨_, rfl⟩
    | error error => rfl
  | muteProcess mute | unmuteProcess mute =>
    simp only [ServiceRequest.refusal?, ServiceRequest.unreadable?, ServiceRequest.events, apply,
      ServiceTables.apply, ServiceTables.decodeRule, ServiceTables.eventSet_eq]
    cases s.codec.decode (α := MuteProcessRule) mute.rule with
    | error error => rfl
    | ok rule =>
      cases firstOutside? mute.events with
      | some e => rfl
      | none => exact ⟨_, rfl⟩
  | mutePath mute | unmutePath mute =>
    simp only [ServiceRequest.refusal?, ServiceRequest.unreadable?, ServiceRequest.events, apply,
      ServiceTables.apply, ServiceTables.eventSet_eq]
    cases firstOutside? mute.events with
    | some e => rfl
    | none => exact ⟨_, rfl⟩
  | subscribe listed | unsubscribe listed =>
    simp only [ServiceRequest.refusal?, ServiceRequest.unreadable?, ServiceRequest.events, apply,
      ServiceTables.apply, ServiceTables.eventSet_eq]
    cases firstOutside? listed with
    | some e => rfl
    | none => exact ⟨_, rfl⟩
  | clearPathInterestCache | unmuteAllProcesses | unmuteAllPaths | unmuteAllTargetPaths
  | unsubscribeAll | clearCache | invertMuting inversion | mutingInverted muteType =>
    exact ⟨_, rfl⟩

/-- Over the current channel the service says why it turns a request down; over any other, that the
channel is gone. -/
theorem answer_eq_error : s.answer channel request = .error reason ↔
    (s.isCurrent channel = false ∧ reason = staleChannel) ∨
      (s.isCurrent channel = true ∧ request.refusal? s.codec = some reason) := by
  cases current : s.isCurrent channel with
  | false =>
    rw [answer_stale current]
    simp only [Except.error.injEq, true_and, Bool.false_eq_true, false_and, or_false, eq_comm]
  | true =>
    have carried := s.apply_cases request
    rw [answer, if_pos current]
    cases refused : request.refusal? s.codec with
    | some told =>
      rw [refused] at carried
      simp [carried]
    | none =>
      rw [refused] at carried
      obtain ⟨reply, carried⟩ := carried
      simp [carried]

/-- The service after a request that was turned down. -/
theorem served_refused (refused : s.answer channel request = .error reason) :
    s.served channel request = if s.isCurrent channel then s.logged [request.name] else s := by
  unfold served
  rcases answer_eq_error.1 refused with ⟨stale, -⟩ | ⟨current, told⟩
  · simp [stale]
  · have carried := s.apply_cases request
    rw [told] at carried
    simp only [carried]

/-! ### Operations that are turned down -/

/-- The service turns an operation down. -/
def Refuses (s : Service) : Operation → Prop
  | .request channel request _ => ∃ reason, s.answer channel request = .error reason
  | .customMessage channel _ _ | .unbind channel => s.isCurrent channel = false
  | _ => False

/-- The names that an operation leaves in the log. -/
def namesOf (s : Service) : Operation → List String
  | .request channel request _ => if s.isCurrent channel then [request.name] else []
  | _ => []

theorem perform_refused {operation : Operation} (refused : s.Refuses operation) :
    Steady (s.logged (s.namesOf operation)) (s.perform operation) := by
  cases operation with
  | request channel request deliver =>
    obtain ⟨reason, refused⟩ := refused
    have served : s.served channel request =
        s.logged (s.namesOf (.request channel request deliver)) := by
      rw [served_refused refused, namesOf]
      cases s.isCurrent channel with
      | false => exact s.logged_nil.symm
      | true => rfl
    rw [perform, request_eq, served]
    exact respond_steady _ _
  | customMessage channel data deliver =>
    show Steady (s.logged []) _
    rw [logged_nil]
    exact customMessage_steady s channel data deliver
  | unbind channel =>
    have stale : s.isCurrent channel = false := refused
    show Steady (s.logged []) (s.unbind channel)
    rw [logged_nil, unbind, stale]
    exact .refl s
  | bind | interrupt | releaseHeld | deliverDelayed | configure | remember => cases refused

/-- What is turned down depends on the limits of the codec and on the current channel only. -/
theorem refuses_congr {t : Service} (codec : t.codec = s.codec) (binding : t.binding = s.binding)
    (operation : Operation) :
    (t.Refuses operation ↔ s.Refuses operation) ∧ t.namesOf operation = s.namesOf operation := by
  have current : t.isCurrent = s.isCurrent := by
    funext channel
    rw [isCurrent, binding, isCurrent]
  cases operation with
  | request channel request deliver =>
    simp only [Refuses, namesOf, answer_eq_error, current, codec, true_and]
  | _ => simp only [Refuses, namesOf, current, and_self]

theorem Steady.logged {t : Service} (h : Steady s t) (names : List String) :
    Steady (s.logged names) (t.logged names) where
  codec := h.codec
  binding := h.binding
  tables := h.tables
  converter := h.converter
  sessions := h.sessions
  requests := congrArg (· ++ names) h.requests
  channels := h.channels

theorem performAll_refused {operations : List Operation}
    (refused : ∀ operation ∈ operations, s.Refuses operation) :
    Steady (s.logged (operations.flatMap s.namesOf)) (s.performAll operations) := by
  induction operations generalizing s with
  | nil =>
    rw [List.flatMap_nil, logged_nil]
    exact .refl s
  | cons operation operations ih =>
    have first := perform_refused (refused operation List.mem_cons_self)
    have same := refuses_congr (s := s) first.codec first.binding
    have names : (s.perform operation).namesOf = s.namesOf := funext fun o => (same o).2
    have others := ih fun o later => (same o).1.2 (refused o (List.mem_cons_of_mem _ later))
    rw [names] at others
    rw [List.flatMap_cons, logged_append]
    exact (first.logged _).trans others

theorem exists_answer_error : (∃ reason, s.answer channel request = .error reason) ↔
    s.isCurrent channel = false ∨ (∃ error, request.unreadable? s.codec = some error) ∨
      ∃ e ∈ request.events, 1023 < e.id.toNat := by
  simp only [answer_eq_error, exists_or, exists_and_left, exists_eq, and_true,
    ServiceRequest.isSome_refusal]
  cases s.isCurrent channel <;> simp

/-- A request is turned down if its channel is not the current one, if its configuration or its rule
cannot be read, or if any event in its list is out of range, and for nothing else. It changes
nothing of what the service holds, and only on the current channel it is noted. On other channels
nothing changes at all, whatever is called or sent and also if the channel is torn down. The same
holds for any number of such operations. -/
theorem refused_untouched (s : Service) :
    (∀ channel request, (∃ reason, s.answer channel request = .error reason) ↔
      s.isCurrent channel = false ∨ (∃ error, request.unreadable? s.codec = some error) ∨
        ∃ e ∈ request.events, 1023 < e.id.toNat) ∧
    (∀ channel request deliver reason, s.answer channel request = .error reason →
      s.request channel request deliver =
          (s.logged (if s.isCurrent channel then [request.name] else [])).respond
            (deliver (.error reason)) ∧
        Steady (s.logged (if s.isCurrent channel then [request.name] else []))
          (s.request channel request deliver).2) ∧
    (∀ channel, s.isCurrent channel = false →
      (∀ request deliver,
        s.request channel request deliver = s.respond (deliver (.error "connection invalid")) ∧
          Steady s (s.request channel request deliver).2) ∧
      (∀ data deliver, s.customMessage channel data deliver =
        (some (deliver (.error "connection invalid")), s)) ∧
      s.unbind channel = s) ∧
    ∀ operations, (∀ operation ∈ operations, s.Refuses operation) →
      Steady (s.logged (operations.flatMap s.namesOf)) (s.performAll operations) := by
  refine ⟨fun channel request => exists_answer_error,
    fun channel request deliver reason refused => ⟨?answered, ?kept⟩,
    fun channel stale => ⟨fun request deliver => ?called, fun data deliver => ?sent, ?torn⟩,
    fun operations => performAll_refused⟩
  case answered =>
    rw [request_eq, refused, served_refused refused]
    cases s.isCurrent channel with
    | false => simp [logged_nil]
    | true => rfl
  case kept =>
    have turned_down : s.Refuses (.request channel request deliver) := ⟨reason, refused⟩
    exact perform_refused turned_down
  case called =>
    have answered : s.request channel request deliver =
        s.respond (deliver (.error "connection invalid")) := by
      rw [request_eq, answer_stale stale, served_stale stale]
      rfl
    rw [answered]
    exact ⟨rfl, respond_steady _ _⟩
  case sent => simp only [customMessage, stale, Bool.false_eq_true, if_false, staleChannel]
  case torn => simp only [unbind, stale, Bool.false_eq_true, if_false]

/-- A service that has bound a second channel, over which an event was subscribed to. -/
def secondChannel : Service :=
  performAll (new .default)
    [.bind 1, .bind 2, .request 2 (.subscribe [⟨9⟩]) (.call 1)]

/-- Of a list with an id out of range nothing is muted, and the first channel can neither subscribe
to anything nor end the second one. -/
theorem partial_list_mutes_nothing :
    (secondChannel.request 2 (.mutePath ⟨"/tmp/", .processLiteral, [⟨9⟩, ⟨1024⟩]⟩)
        (.call 2)).2.tables = secondChannel.tables ∧
      (secondChannel.request 1 (.subscribe [⟨10⟩]) (.call 3)).2.tables = secondChannel.tables ∧
      secondChannel.unbind 1 = secondChannel := by
  obtain ⟨refuses, untouched, stale, -⟩ := refused_untouched secondChannel
  obtain ⟨reason, refused⟩ := (refuses 2 (.mutePath ⟨"/tmp/", .processLiteral, [⟨9⟩, ⟨1024⟩]⟩)).2
    (.inr (.inr ⟨⟨1024⟩, by decide, by decide⟩))
  obtain ⟨called, -, torn⟩ := stale 1 (by decide)
  exact ⟨(untouched 2 _ (.call 2) reason refused).2.tables, (called _ _).2.tables, torn⟩

end Service

end EndpointMonitor
