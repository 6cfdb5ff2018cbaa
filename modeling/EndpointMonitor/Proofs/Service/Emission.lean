import EndpointMonitor.Proofs.Dispatcher.Answer
import EndpointMonitor.Proofs.Service.Caches

/-!
What becomes of the events that a service sends. They pass the filters or not; an authorization
request that passes is decided by what is cached, or by the handler.
-/

namespace EndpointMonitor

namespace HandlerSet

/-- The decision on a message that arrives. -/
def ruling? (h : HandlerSet) (message : EventMessage) : Option (UInt32 × Bool) :=
  match h.auth with
  | some handler => (handler message).decision?
  | none => some Resolution.allowOnce.toWire

theorem decision?_of_decode {h : HandlerSet} {codec : Codec} {payload : Bytes}
    {message : EventMessage} (decoded : codec.decode payload = .ok message) :
    h.decision? codec payload = h.ruling? message := by
  unfold decision? ruling?
  cases h.auth <;> simp only [decoded]

end HandlerSet

/-- Whether a message passes the filters of a service that has this view of its process. -/
def Service.wants (s : Service) (view : Option InterestVerdict) (m : EventMessage) : Bool :=
  s.isConnected && s.tables.passes m &&
    match view with
    | some verdict => !verdict.ignored.contains m.eventType
    | none => true

namespace Exchange

/-- What the service hears when it sends something. -/
inductive Emitted where
  | nothing
  | notified (reached : Bool)
  | authorized (outcome : AuthOutcome)
  | answered (result : Except String Bytes)

/-- What the service does with its client, and what is done to it. -/
inductive Operation where
  | service (operation : Service.Operation) (outside : operation.isExternal = true)
  | emitNotify (message : EventMessage)
  | emitAuth (message : EventMessage)
  | sendCustom (data : Bytes)

def perform (x : Exchange) : Operation → Emitted × Exchange
  | .service operation _ => (.nothing, { x with service := x.service.perform operation })
  | .emitNotify message =>
    let (reached, x) := x.emitNotify message
    (.notified reached, x)
  | .emitAuth message =>
    let (outcome, x) := x.emitAuth message
    (.authorized outcome, x)
  | .sendCustom data =>
    let (result, x) := x.sendCustom data
    (.answered result, x)

def run (x : Exchange) : List Operation → List Emitted
  | [] => []
  | operation :: operations =>
    let (emitted, x) := x.perform operation
    emitted :: x.run operations

variable {x y : Exchange} {codec : Codec} {handlers : HandlerSet} {m : EventMessage}

/-! ### Filters -/

theorem delivers_eq (x : Exchange) (m : EventMessage) :
    (x.delivers m).1 = x.service.wants (x.interestIn m.process).1 m := by
  unfold delivers Service.wants
  cases x.service.isConnected && x.service.tables.passes m with
  | false => rfl
  | true =>
    simp only [if_true, Bool.true_and]
    cases (x.interestIn m.process).1 <;> rfl

/-- On the way through the filters at most a question about interest is asked. -/
theorem delivers_trace (idle : x.dispatcher.jobs = []) (m : EventMessage) :
    ∃ asked : List ProcessDescriptor, (x.delivers m).2.dispatcher.trace =
      x.dispatcher.trace ++ asked.map (.invoked ∘ .interest) := by
  have silent : ∃ asked : List ProcessDescriptor, x.dispatcher.trace =
      x.dispatcher.trace ++ asked.map (.invoked ∘ .interest) := ⟨[], (List.append_nil _).symm⟩
  rcases delivers_cases x m with same | asked
  · rwa [same]
  · rw [asked]
    unfold interestIn
    split
    · exact silent
    · simp only [cacheInterest, askInterest]
      split
      · exact silent
      · exact Dispatcher.trace_pathInterest idle _

/-- The handler that decides on authorization requests is not run by a question about interest. -/
theorem delivers_authorized (idle : x.dispatcher.jobs = []) (m : EventMessage) :
    (x.delivers m).2.dispatcher.authorized = x.dispatcher.authorized := by
  obtain ⟨asked, trace⟩ := delivers_trace idle m
  exact Dispatcher.authorized_asked trace

/-- Something sent changes nothing but the caches of the service. -/
theorem forget_of_remembers {s s' : Service} (h : s.Remembers s') : s'.forget = s.forget := by
  obtain ⟨interest, resolutions, rfl⟩ := h
  rfl

/-! ### Dispatchers with the same handlers -/

/-- One service, with either of two dispatchers. Both answer by these handlers. -/
structure Alike (codec : Codec) (handlers : HandlerSet) (x y : Exchange) : Prop where
  service : y.service = x.service
  left : x.dispatcher.Serves codec handlers
  right : y.dispatcher.Serves codec handlers

theorem askInterest_alike (h : Alike codec handlers x y) (process : ProcessDescriptor) :
    (y.askInterest process).1 = (x.askInterest process).1 ∧
      Alike codec handlers (x.askInterest process).2 (y.askInterest process).2 := by
  unfold askInterest
  rw [h.service]
  cases x.service.codec.encode process with
  | error e => exact ⟨rfl, h⟩
  | ok payload =>
    obtain ⟨answer, left⟩ := h.left.pathInterest payload
    obtain ⟨answer', right⟩ := h.right.pathInterest payload
    simp only [answer, answer']
    exact ⟨trivial, rfl, left, right⟩

theorem interestIn_alike (h : Alike codec handlers x y) (process : ProcessDescriptor) :
    (y.interestIn process).1 = (x.interestIn process).1 ∧
      Alike codec handlers (x.interestIn process).2 (y.interestIn process).2 := by
  unfold interestIn
  rw [h.service]
  cases x.service.tables.interest.find? process.path with
  | some verdict => exact ⟨rfl, h⟩
  | none =>
    obtain ⟨verdict, alike⟩ := askInterest_alike h process
    refine ⟨verdict, ?_, alike.left, alike.right⟩
    simp only [cacheInterest, verdict, alike.service]

theorem delivers_alike (h : Alike codec handlers x y) (m : EventMessage) :
    (y.delivers m).1 = (x.delivers m).1 ∧
      Alike codec handlers (x.delivers m).2 (y.delivers m).2 := by
  obtain ⟨verdict, alike⟩ := interestIn_alike h m.process
  unfold delivers
  rw [h.service]
  cases x.service.isConnected && x.service.tables.passes m with
  | false => exact ⟨rfl, h⟩
  | true =>
    simp only [if_true, verdict]
    cases (x.interestIn m.process).1 <;> exact ⟨rfl, alike⟩

theorem cacheResolution_alike (h : Alike codec handlers x y) (key : String × EventType)
    (resolution : Resolution) :
    Alike codec handlers (x.cacheResolution key resolution) (y.cacheResolution key resolution) := by
  unfold cacheResolution
  split
  · exact ⟨by rw [h.service], h.left, h.right⟩
  · exact h

theorem emitNotify_alike (h : Alike codec handlers x y) (m : EventMessage) :
    (y.emitNotify m).1 = (x.emitNotify m).1 ∧
      Alike codec handlers (x.emitNotify m).2 (y.emitNotify m).2 := by
  have delivered := delivers_alike h m
  unfold emitNotify
  revert delivered
  rcases x.delivers m with ⟨passes, service, d⟩
  rcases y.delivers m with ⟨passes', service', d'⟩
  rintro ⟨rfl : passes' = passes, alike⟩
  obtain rfl : service' = service := alike.service
  cases passes' with
  | false => exact ⟨rfl, alike⟩
  | true =>
    simp only
    cases service'.codec.encode m with
    | error e => exact ⟨rfl, alike⟩
    | ok payload => exact ⟨rfl, rfl, alike.left.notify payload, alike.right.notify payload⟩

theorem emitAuth_alike (h : Alike codec handlers x y) (m : EventMessage) :
    (y.emitAuth m).1 = (x.emitAuth m).1 ∧
      Alike codec handlers (x.emitAuth m).2 (y.emitAuth m).2 := by
  have delivered := delivers_alike h m
  unfold emitAuth
  revert delivered
  rcases x.delivers m with ⟨passes, service, d⟩
  rcases y.delivers m with ⟨passes', service', d'⟩
  rintro ⟨rfl : passes' = passes, alike⟩
  obtain rfl : service' = service := alike.service
  cases passes' with
  | false => exact ⟨rfl, alike⟩
  | true =>
    simp only
    cases service'.tables.resolutions.find? (resolutionKey m) with
    | some resolution => exact ⟨rfl, alike⟩
    | none =>
      cases service'.codec.encode m with
      | error e => exact ⟨rfl, alike⟩
      | ok payload =>
        have left := alike.left.auth payload
        have right := alike.right.auth payload
        revert left right
        simp only
        rcases d.auth payload with ⟨decision, d⟩
        rcases d'.auth payload with ⟨decision', d'⟩
        rintro ⟨rfl : decision = _, left⟩ ⟨rfl : decision' = _, right⟩
        have answered : Alike codec handlers ⟨service', d⟩ ⟨service', d'⟩ := ⟨rfl, left, right⟩
        cases handlers.decision? codec payload with
        | none => exact ⟨rfl, answered⟩
        | some wire => exact ⟨rfl, cacheResolution_alike answered _ _⟩

theorem sendCustom_alike (h : Alike codec handlers x y) (data : Bytes) :
    (y.sendCustom data).1 = (x.sendCustom data).1 ∧
      Alike codec handlers (x.sendCustom data).2 (y.sendCustom data).2 := by
  have left := h.left.custom data
  have right := h.right.custom data
  unfold sendCustom
  rw [h.service]
  revert left right
  cases x.service.isConnected with
  | false => exact fun _ _ => ⟨rfl, h⟩
  | true =>
    rcases x.dispatcher.custom data with ⟨answer, d⟩
    rcases y.dispatcher.custom data with ⟨answer', d'⟩
    rintro ⟨rfl : answer = _, left⟩ ⟨rfl : answer' = _, right⟩
    simp only [if_true]
    cases handlers.result? data <;> exact ⟨rfl, rfl, left, right⟩

/-- Neither the service nor whoever it sends something for can tell the dispatchers apart. -/
theorem perform_alike (h : Alike codec handlers x y) (operation : Operation) :
    (y.perform operation).1 = (x.perform operation).1 ∧
      Alike codec handlers (x.perform operation).2 (y.perform operation).2 := by
  cases operation with
  | service operation outside =>
    exact ⟨rfl, congrArg (Service.perform · operation) h.service, h.left, h.right⟩
  | emitNotify message =>
    obtain ⟨reached, alike⟩ := emitNotify_alike h message
    exact ⟨congrArg Emitted.notified reached, alike⟩
  | emitAuth message =>
    obtain ⟨outcome, alike⟩ := emitAuth_alike h message
    exact ⟨congrArg Emitted.authorized outcome, alike⟩
  | sendCustom data =>
    obtain ⟨result, alike⟩ := sendCustom_alike h data
    exact ⟨congrArg Emitted.answered result, alike⟩

/-! ### Who decides -/

/-- Who decides on an authorization request, and what the handler has been run on then. -/
inductive Settled (x : Exchange) (handler : AuthHandler) (m : EventMessage) : Prop where
  | filtered (blocked : x.service.wants (x.interestIn m.process).1 m = false)
      (told : (x.emitAuth m).1 = .notDelivered)
      (ran : (x.emitAuth m).2.dispatcher.authorized = x.dispatcher.authorized)
  | cached {resolution : Resolution}
      (passes : x.service.wants (x.interestIn m.process).1 m = true)
      (found : x.service.tables.resolutions.find? (resolutionKey m) = some resolution)
      (told : (x.emitAuth m).1 = .cached resolution)
      (ran : (x.emitAuth m).2.dispatcher.authorized = x.dispatcher.authorized)
  | asked (passes : x.service.wants (x.interestIn m.process).1 m = true)
      (absent : x.service.tables.resolutions.find? (resolutionKey m) = none)
      (told : (x.emitAuth m).1 =
        ((handler m).decision?.map Resolution.ofWire).elim .timedOut .resolved)
      (ran : (x.emitAuth m).2.dispatcher.authorized = x.dispatcher.authorized ++ [m])

theorem cacheResolution_dispatcher (x : Exchange) (key : String × EventType)
    (resolution : Resolution) : (x.cacheResolution key resolution).dispatcher = x.dispatcher := by
  unfold cacheResolution
  split <;> rfl

/-- A handler that is installed decides on a message that arrives as it was sent, unless the filters
or the cache do. -/
theorem settled (serves : x.dispatcher.Serves codec handlers) (same : x.service.codec = codec)
    {handler : AuthHandler} (installed : handlers.auth = some handler) {payload : Bytes}
    (encoded : codec.encode m = .ok payload) (decoded : codec.decode payload = .ok m) :
    x.Settled handler m := by
  have wants := delivers_eq x m
  obtain ⟨interest, reached⟩ := delivers_service x m
  have ran := delivers_authorized serves.idle m
  have served := (delivers_alike ⟨rfl, serves, serves⟩ m).2.left
  rcases delivered : x.delivers m with ⟨passes, y⟩
  rw [delivered] at wants reached ran served
  replace reached : y.service = _ := reached
  have kept : y.service.tables.resolutions = x.service.tables.resolutions := by
    rw [reached]
    rfl
  cases passes with
  | false =>
    have filtered := emitAuth_filtered delivered
    exact .filtered wants.symm (congrArg Prod.fst filtered) (by rw [filtered]; exact ran)
  | true =>
    cases found : x.service.tables.resolutions.find? (resolutionKey m) with
    | some resolution =>
      have cached := emitAuth_cached delivered (kept ▸ found)
      exact .cached wants.symm found (congrArg Prod.fst cached) (by rw [cached]; exact ran)
    | none =>
      have sent : y.service.codec.encode m = .ok payload := by
        rw [reached]
        exact same ▸ encoded
      obtain ⟨answer, -⟩ := served.auth payload
      rw [HandlerSet.decision?_of_decode decoded, HandlerSet.ruling?, installed] at answer
      have runs := Dispatcher.authorized_auth served.idle (served.handlers ▸ installed)
        (served.codec ▸ decoded)
      rw [show y.dispatcher.authorized = x.dispatcher.authorized from ran] at runs
      suffices h : _ ∧ _ from .asked wants.symm found h.1 h.2
      rcases answered : y.dispatcher.auth payload with ⟨decision, dispatcher⟩
      rw [answered] at answer runs
      obtain rfl : decision = (handler m).decision? := answer
      cases decides : (handler m).decision? with
      | none =>
        rw [decides] at answered
        rw [emitAuth_kept delivered (kept ▸ found) sent answered]
        exact ⟨rfl, runs⟩
      | some wire =>
        rw [decides] at answered
        rw [emitAuth_decided delivered (kept ▸ found) sent answered]
        exact ⟨rfl, (congrArg _ (cacheResolution_dispatcher ..)).trans runs⟩

end Exchange

end EndpointMonitor
