import EndpointMonitor.Proofs.Service.Operation

/-!
Replies on their way. A request or a custom message is dealt with in turns between which others can
act: whether its channel is current, what the result is, the reply is accepted and counted, and it
goes where the settings of that moment send it. Held replies are released by taking all of them and
delivering one after the other; a delayed one is delivered when its time is up. Whoever gets a reply
can begin further calls before the next one is delivered. Without interruption these turns are what
the service does in one go.
-/

namespace EndpointMonitor

/-- Where a reply goes once it is accepted. -/
inductive ReplyRoute where
  | hold
  | delay (afterMs : Nat)
  | prompt

/-- A reply that was accepted, with the number that it got then. -/
structure AcceptedReply where
  ticket : Nat
  delivery : Delivery

namespace Service

def route (s : Service) : ReplyRoute :=
  if s.unresponsive then .hold
  else
    match s.replyDelayMs with
    | some afterMs => .delay afterMs
    | none => .prompt

/-- A reply is counted from now on. -/
def accept (s : Service) : Service :=
  { s with
    inFlight := s.inFlight + 1
    maxInFlight := max s.maxInFlight (s.inFlight + 1) }

/-- A reply is not counted any more. -/
def discharge (s : Service) : Service := { s with inFlight := s.inFlight - 1 }

theorem respond_eq (s : Service) (delivery : Delivery) :
    s.respond delivery =
      match s.route with
      | .hold => (none, { s.accept with held := s.held ++ [delivery] })
      | .delay afterMs => (none, { s.accept with delayed := s.delayed ++ [⟨afterMs, delivery⟩] })
      | .prompt => (some delivery, s.accept.discharge) := by
  cases silent : s.unresponsive with
  | true => simp only [respond, route, accept, silent, if_true]
  | false =>
    cases delays : s.replyDelayMs with
    | some afterMs =>
      simp only [respond, route, accept, silent, delays, Bool.false_eq_true, if_false]
    | none =>
      simp only [respond, route, accept, discharge, silent, delays, Bool.false_eq_true, if_false]

end Service

namespace Traffic

/-- What is asked of a service: something on a channel, or to release the held replies. -/
inductive Call where
  | request (channel : Nat) (request : ServiceRequest) (deliver : RemoteResult → Delivery)
  | message (channel : Nat) (data : Bytes) (deliver : Except String Bytes → Delivery)
  | release

/-- How far a call has come. A request or a message was found to be on the current channel, its
result is known, its reply is accepted; a release has taken the held replies and has some of them
left to deliver. -/
inductive Phase where
  | begun (call : Call)
  | serving (request : ServiceRequest) (deliver : RemoteResult → Delivery)
  | responding (data : Bytes) (deliver : Except String Bytes → Delivery)
  | answered (delivery : Delivery)
  | routing (reply : AcceptedReply) (route : ReplyRoute)
  | releasing (count : Nat) (rest : List AcceptedReply)
  | done
  | returned (count : Nat)

/-- The accepted replies that a call has in its hands. -/
def Phase.hands : Phase → List AcceptedReply
  | .routing reply _ => [reply]
  | .releasing _ rest => rest
  | .begun _ | .serving _ _ | .responding _ _ | .answered _ | .done | .returned _ => []

/-- What is seen of replies. A reply is delivered by the call whose turn it is, or on its own after
its delay. A message on a stale channel is answered without being counted. -/
inductive Event where
  | delivered (call : Option Nat) (reply : AcceptedReply)
  | refused (call : Nat) (delivery : Delivery)

namespace Event

def delivery : Event → Delivery
  | .delivered _ reply => reply.delivery
  | .refused _ delivery => delivery

def reply? : Event → Option AcceptedReply
  | .delivered _ reply => some reply
  | .refused _ _ => none

def replyBy? (n : Nat) : Event → Option AcceptedReply
  | .delivered call reply => if call = some n then some reply else none
  | .refused _ _ => none

end Event

end Traffic

open Traffic (Call Phase Event)

/-- A service and the account of its replies: all that were accepted, those that are held or delayed
now, all that were ever held, each in the order in which it happened, and what was seen. -/
structure Ledger where
  service : Service
  accepted : List AcceptedReply
  held : List AcceptedReply
  delayed : List AcceptedReply
  stored : List AcceptedReply
  trace : List Event

namespace Ledger

/-- The replies that were delivered, in order. -/
def delivered (x : Ledger) : List AcceptedReply := x.trace.filterMap (·.reply?)

def deliveredBy (x : Ledger) (n : Nat) : List AcceptedReply := x.trace.filterMap (·.replyBy? n)

/-- What was delivered, counted or not. -/
def told (x : Ledger) : List Delivery := x.trace.map (·.delivery)

/-- The replies that were accepted and have not been delivered. -/
def outstanding (x : Ledger) : List AcceptedReply :=
  x.accepted.filter fun reply => reply.ticket ∉ x.delivered.map (·.ticket)

/-! ### Turns -/

def accept (x : Ledger) (reply : AcceptedReply) : Ledger :=
  { x with service := x.service.accept, accepted := x.accepted ++ [reply] }

def hold (x : Ledger) (reply : AcceptedReply) : Ledger :=
  { x with
    service := { x.service with held := x.service.held ++ [reply.delivery] }
    held := x.held ++ [reply]
    stored := x.stored ++ [reply] }

def delay (x : Ledger) (afterMs : Nat) (reply : AcceptedReply) : Ledger :=
  { x with
    service := { x.service with delayed := x.service.delayed ++ [⟨afterMs, reply.delivery⟩] }
    delayed := x.delayed ++ [reply] }

/-- A reply is taken off the count and delivered, by a call or on its own. -/
def deliver (x : Ledger) (call : Option Nat) (reply : AcceptedReply) : Ledger :=
  { x with service := x.service.discharge, trace := x.trace ++ [.delivered call reply] }

def refuse (x : Ledger) (call : Nat) (delivery : Delivery) : Ledger :=
  { x with trace := x.trace ++ [.refused call delivery] }

/-- Somebody takes all held replies. -/
def takeHeld (x : Ledger) : Ledger :=
  { x with service := { x.service with held := [] }, held := [] }

/-- The time of a delayed reply is up. -/
def takeDelayed (x : Ledger) (i : Nat) : Ledger :=
  { x with
    service := { x.service with delayed := x.service.delayed.eraseIdx i }
    delayed := x.delayed.eraseIdx i }

def ring (x : Ledger) (i : Nat) (reply : AcceptedReply) : Ledger :=
  (x.takeDelayed i).deliver none reply

/-- The next turn of a call, and how far it has come then. -/
def advance (x : Ledger) (n : Nat) : Phase → Ledger × Phase
  | .begun (.request channel request deliver) =>
    (x, if x.service.isCurrent channel then .serving request deliver
      else .answered (deliver (.error Service.staleChannel)))
  | .serving request deliver =>
    ({ x with service := (x.service.apply request).2 },
      .answered (deliver (x.service.apply request).1))
  | .begun (.message channel data deliver) =>
    if x.service.isCurrent channel then (x, .responding data deliver)
    else (x.refuse n (deliver (.error Service.staleChannel)), .done)
  | .responding data deliver => (x, .answered (deliver (x.service.responder data)))
  | .answered delivery =>
    let reply : AcceptedReply := ⟨x.accepted.length, delivery⟩
    (x.accept reply, .routing reply x.service.route)
  | .routing reply .hold => (x.hold reply, .done)
  | .routing reply (.delay afterMs) => (x.delay afterMs reply, .done)
  | .routing reply .prompt => (x.deliver (some n) reply, .done)
  | .begun .release => (x.takeHeld, .releasing x.service.held.length x.held)
  | .releasing count (reply :: rest) => (x.deliver (some n) reply, .releasing count rest)
  | .releasing count [] => (x, .returned count)
  | .done => (x, .done)
  | .returned count => (x, .returned count)

end Ledger

/-- What a service does besides dealing with replies. -/
def Service.Operation.isApart : Service.Operation → Bool
  | .bind _ | .unbind _ | .interrupt | .configure _ | .remember _ _ => true
  | .request _ _ _ | .customMessage _ _ _ | .releaseHeld | .deliverDelayed _ => false

/-- A service with its replies, and all calls that were ever begun. -/
structure Traffic where
  ledger : Ledger
  calls : List Phase

namespace Traffic

/-- A call is begun, by any thread and also by one that is just being given a reply; a call takes
its next turn; the time of a delayed reply is up; something else happens to the service. -/
inductive Step where
  | begin (call : Call)
  | proceed (n : Nat)
  | ring (i : Nat)
  | apart (operation : Service.Operation) (isApart : operation.isApart = true)

def Step.isTurnOf (n : Nat) : Step → Bool
  | .proceed m => m = n
  | .begin _ | .ring _ | .apart _ _ => false

def start (codec : Codec) : Traffic := ⟨⟨.new codec, [], [], [], [], []⟩, []⟩

def service (t : Traffic) : Service := t.ledger.service

/-- The accepted replies that calls have in their hands. -/
def hands (t : Traffic) : List AcceptedReply := t.calls.flatMap (·.hands)

def proceed (t : Traffic) (n : Nat) : Traffic :=
  match t.calls[n]? with
  | some phase => ⟨(t.ledger.advance n phase).1, t.calls.set n (t.ledger.advance n phase).2⟩
  | none => t

def ring (t : Traffic) (i : Nat) : Traffic :=
  match t.ledger.delayed[i]? with
  | some reply => { t with ledger := t.ledger.ring i reply }
  | none => t

def step (t : Traffic) : Step → Traffic
  | .begin call => { t with calls := t.calls ++ [.begun call] }
  | .proceed n => t.proceed n
  | .ring i => t.ring i
  | .apart operation _ =>
    { t with ledger := { t.ledger with service := t.service.perform operation } }

def run (t : Traffic) (steps : List Step) : Traffic := steps.foldl step t

theorem run_append (t : Traffic) (steps steps' : List Step) :
    t.run (steps ++ steps') = (t.run steps).run steps' := List.foldl_append

theorem run_snoc (t : Traffic) (steps : List Step) (step : Step) :
    t.run (steps ++ [step]) = (t.run steps).step step := run_append t steps [step]

section
variable {t : Traffic} {n : Nat} {phase : Phase}

theorem proceed_of_none (missing : t.calls[n]? = none) : t.proceed n = t := by
  simp only [proceed, missing]

theorem ledger_proceed (found : t.calls[n]? = some phase) :
    (t.proceed n).ledger = (t.ledger.advance n phase).1 := by
  simp only [proceed, found]

theorem calls_proceed (found : t.calls[n]? = some phase) :
    (t.proceed n).calls = t.calls.set n (t.ledger.advance n phase).2 := by
  simp only [proceed, found]

/-- How far a call has come after its turn. -/
theorem phase_proceed (found : t.calls[n]? = some phase) :
    (t.proceed n).calls[n]? = some (t.ledger.advance n phase).2 := by
  have inside := (List.getElem?_eq_some_iff.1 found).1
  rw [calls_proceed found, List.getElem?_set_self inside]

end

end Traffic

/-! ### What a turn can be -/

/-- Nothing happens to replies, whatever else changes. -/
structure Service.KeepsReplies (s s' : Service) : Prop where
  inFlight : s'.inFlight = s.inFlight
  maxInFlight : s'.maxInFlight = s.maxInFlight
  held : s'.held = s.held
  delayed : s'.delayed = s.delayed

namespace Service

theorem KeepsReplies.refl (s : Service) : s.KeepsReplies s := ⟨rfl, rfl, rfl, rfl⟩

theorem apply_keepsReplies (s : Service) (request : ServiceRequest) :
    s.KeepsReplies (s.apply request).2 := by
  cases request with
  | createSession converter =>
    simp only [apply, openSession]
    split <;> exact ⟨rfl, rfl, rfl, rfl⟩
  | _ =>
    simp only [apply]
    split <;> exact ⟨rfl, rfl, rfl, rfl⟩

theorem perform_keepsReplies (s : Service) {operation : Operation}
    (isApart : operation.isApart = true) : s.KeepsReplies (s.perform operation) := by
  cases operation with
  | bind generation =>
    simp only [perform, Service.bind]
    split <;> exact ⟨rfl, rfl, rfl, rfl⟩
  | unbind channel =>
    simp only [perform, unbind]
    split <;> exact ⟨rfl, rfl, rfl, rfl⟩
  | configure setting => cases setting <;> exact ⟨rfl, rfl, rfl, rfl⟩
  | interrupt | remember interest resolutions => exact ⟨rfl, rfl, rfl, rfl⟩
  | request | customMessage | releaseHeld | deliverDelayed => cases isApart

end Service

namespace Ledger

/-- What can happen to replies at once, some of which may be in the hands of a call before and
after it. -/
inductive Moves (x : Ledger) : List AcceptedReply → Ledger → List AcceptedReply → Prop where
  | keeps {service : Service} {trace : List Event} (same : x.service.KeepsReplies service)
    (silent : trace.filterMap (·.reply?) = x.delivered) (hands : List AcceptedReply) :
    Moves x hands { x with service, trace } hands
  | accepts (delivery : Delivery) :
    Moves x [] (x.accept ⟨x.accepted.length, delivery⟩) [⟨x.accepted.length, delivery⟩]
  | holds (reply : AcceptedReply) : Moves x [reply] (x.hold reply) []
  | delays (afterMs : Nat) (reply : AcceptedReply) : Moves x [reply] (x.delay afterMs reply) []
  | takes : Moves x [] x.takeHeld x.held
  | delivers (call : Option Nat) (reply : AcceptedReply) (rest : List AcceptedReply) :
    Moves x (reply :: rest) (x.deliver call reply) rest
  | rings {i : Nat} {reply : AcceptedReply} (waits : x.delayed[i]? = some reply) :
    Moves x [] (x.ring i reply) []

theorem advance_moves (x : Ledger) (n : Nat) (phase : Phase) :
    Moves x phase.hands (x.advance n phase).1 (x.advance n phase).2.hands := by
  have stays (hands : List AcceptedReply) : Moves x hands x hands :=
    .keeps (.refl x.service) rfl hands
  cases phase with
  | begun call =>
    cases call with
    | request channel request deliver =>
      simp only [advance]
      split <;> exact stays []
    | message channel data deliver =>
      simp only [advance]
      split
      · exact stays []
      · refine .keeps (.refl x.service) ?_ []
        simp [delivered, Event.reply?]
    | release => exact .takes
  | serving request deliver => exact .keeps (x.service.apply_keepsReplies request) rfl []
  | responding data deliver => exact stays []
  | answered delivery => exact .accepts delivery
  | routing reply route =>
    cases route with
    | hold => exact .holds reply
    | delay afterMs => exact .delays afterMs reply
    | prompt => exact .delivers (some n) reply []
  | releasing count rest =>
    cases rest with
    | nil => exact stays []
    | cons reply rest => exact .delivers (some n) reply rest
  | done | returned count => exact stays []

end Ledger

namespace Traffic

/-- The call whose turn it is has its own replies in its hands, and the other calls have theirs. -/
theorem hands_set {calls : List Phase} {n : Nat} {phase : Phase} (found : calls[n]? = some phase)
    (next : Phase) :
    ∃ others, (calls.flatMap (·.hands)).Perm (phase.hands ++ others) ∧
      ((calls.set n next).flatMap (·.hands)).Perm (next.hands ++ others) := by
  obtain ⟨inside, rfl⟩ := List.getElem?_eq_some_iff.1 found
  refine ⟨(calls.eraseIdx n).flatMap (·.hands), ?_, ?_⟩
  · exact (List.getElem_cons_eraseIdx_perm inside).symm.flatMap_right _
  · exact (List.set_perm_cons_eraseIdx inside next).flatMap_right _

theorem step_moves (t : Traffic) (step : Step) :
    ∃ part part' others, t.hands.Perm (part ++ others) ∧
      t.ledger.Moves part (t.step step).ledger part' ∧
      (t.step step).hands.Perm (part' ++ others) := by
  have stays : t.ledger.Moves [] t.ledger [] := .keeps (.refl _) rfl []
  cases step with
  | begin call =>
    refine ⟨[], [], t.hands, .refl _, stays, ?_⟩
    simp [Traffic.step, hands, Phase.hands]
  | proceed n =>
    cases found : t.calls[n]? with
    | none =>
      rw [Traffic.step, proceed_of_none found]
      exact ⟨[], [], t.hands, .refl _, stays, .refl _⟩
    | some phase =>
      obtain ⟨others, before, after⟩ := hands_set found (t.ledger.advance n phase).2
      rw [Traffic.step, ledger_proceed found, hands, hands, calls_proceed found]
      exact ⟨phase.hands, _, others, before, t.ledger.advance_moves n phase, after⟩
  | ring i =>
    cases waits : t.ledger.delayed[i]? with
    | none =>
      simp only [Traffic.step, ring, waits]
      exact ⟨[], [], t.hands, .refl _, stays, .refl _⟩
    | some reply =>
      simp only [Traffic.step, ring, waits]
      exact ⟨[], [], t.hands, .refl _, .rings waits, .refl _⟩
  | apart operation isApart =>
    exact ⟨[], [], t.hands, .refl _,
      .keeps (t.service.perform_keepsReplies isApart) rfl [], .refl _⟩

end Traffic

end EndpointMonitor
