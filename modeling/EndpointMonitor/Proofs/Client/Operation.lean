import EndpointMonitor.Client.Basic
import EndpointMonitor.Proofs.Connection.Operation

/-!
The runs of a client of one service. An operation is what a caller, the service, a timer or the
state queue does in one go; a run is a list of them, in any order.
-/

namespace EndpointMonitor

/-- How a service can be told to behave. -/
inductive Service.Setting where
  | available (available : Bool)
  | unresponsive (unresponsive : Bool)
  | replyDelay (ms : Option Nat)
  | responder (responder : Bytes → Except String Bytes)

def Service.configure (s : Service) : Service.Setting → Service
  | .available available => { s with available }
  | .unresponsive unresponsive => { s with unresponsive }
  | .replyDelay replyDelayMs => { s with replyDelayMs }
  | .responder responder => { s with responder }

namespace Client

variable {η : Type}

/-- What can be set on a client at any time. -/
inductive Setting (η : Type) where
  | timeout (ms : UInt64)
  | reconnectDelay (ms : UInt64)
  | converter (converter : ConverterConfig)
  | executor (executor : Executor)
  | handlers (handlers : HandlerSet)
  | stateHandler (handler : η)

def configure (c : Client η) : Setting η → Client η
  | .timeout ms => c.setTimeout ms
  | .reconnectDelay ms => c.setReconnectDelay ms
  | .converter converter => c.setConverter converter
  | .executor executor => c.setExecutor executor
  | .handlers handlers => c.setHandlers handlers
  | .stateHandler handler => { c with stateHandler := some handler }

inductive Operation (η : Type) where
  /-- A thread begins a control call: it is let in and its request goes out, or it is not let in. -/
  | beginCall (thread : Nat) (control : Control)
  | expireCall (call : Nat)
  | finishCall (call : Nat)
  | sendCustom (data : Bytes)
  | beginActivate (thread : Nat)
  | expireActivate (call : Nat)
  | finishActivate (call : Nat)
  | activateWith
  | invalidate
  | configure (setting : Setting η)
  /-- The state queue starts its next job, or ends the one that runs. -/
  | startJob
  | finishJob
  | fire (timer : Timer)
  | wait (ms : Nat)
  /-- The service interrupts or invalidates the current channel. -/
  | interrupt
  | configureService (setting : Service.Setting)
  | releaseHeld
  | deliverDelayed (limitMs : Option Nat)
  | emitNotify (message : EventMessage)
  | emitAuth (message : EventMessage)
  | customToClient (data : Bytes)
  /-- The application answers all replies that its handlers have kept. -/
  | resolveKept (resolution : Resolution)

/-- The client after a thread has wanted to call. -/
def Start.after (c : Client η) : Start η → Client η
  | .rejected | .waiting _ => c
  | .started _ begun => begun

/-- An operation that is not possible now does nothing. -/
def perform (c : Client η) : Operation η → Client η
  | .beginCall thread control =>
    match control.request c.codec with
    | .error _ => c
    | .ok request => (c.beginCall thread request).after c
  | .expireCall call => c.expireCall call
  | .finishCall call => ((c.finishCall call).map (·.2)).getD c
  | .sendCustom data => c.sendCustom data
  | .beginActivate thread => (c.beginActivate thread).after c
  | .expireActivate call => c.expireActivate call
  | .finishActivate call => ((c.finishActivate call).map (·.2)).getD c
  | .activateWith => c.activateWith
  | .invalidate => c.invalidate
  | .configure setting => c.configure setting
  | .startJob => (c.startJob?.map (·.2)).getD c
  | .finishJob => c.finishJob
  | .fire t => c.onConnection (·.perform (.fire t))
  | .wait ms => c.onConnection (·.wait ms)
  | .interrupt => c.interrupt.2
  | .configureService setting => c.withService (c.service.configure setting)
  | .releaseHeld => c.releaseHeld.2
  | .deliverDelayed limitMs => (c.deliverDelayed? limitMs).getD c
  | .emitNotify message => (c.emitNotify message).2
  | .emitAuth message => (c.emitAuth message).2
  | .customToClient data => (c.customToClient data).2
  | .resolveKept resolution =>
    { c with dispatcher := (c.dispatcher.resolveKept resolution).2 }

def performAll (c : Client η) (operations : List (Operation η)) : Client η :=
  operations.foldl perform c

@[simp] theorem performAll_nil (c : Client η) : c.performAll [] = c := rfl

@[simp] theorem performAll_cons (c : Client η) (operation : Operation η)
    (operations : List (Operation η)) :
    c.performAll (operation :: operations) = (c.perform operation).performAll operations := rfl

theorem performAll_append (c : Client η) (operations more : List (Operation η)) :
    c.performAll (operations ++ more) = (c.performAll operations).performAll more :=
  List.foldl_append

/-- What every operation keeps, every run keeps. -/
theorem performAll_invariant {P : Client η → Prop}
    (keep : ∀ c operation, P c → P (c.perform operation)) {c : Client η} (h : P c)
    (operations : List (Operation η)) : P (c.performAll operations) := by
  induction operations generalizing c with
  | nil => exact h
  | cons operation operations ih => exact ih (keep c operation h)

/-- A client of a new service. -/
def ofNewService (config : ClientConfig) (serviceCodec : Codec) : Client η :=
  .new config (.ofService (.new serviceCodec))

/-! ### What a client makes of what its connection does -/

/-- The connection does something on its own, and the client deals with what it tells. -/
def follow (c : Client η) (operation : Connection.Operation Loopback) : Client η :=
  c.onConnection (·.perform operation)

theorem follow_beginConnect {c : Client η} {thread call : Nat} {connection : Connection Loopback}
    (h : c.connection.beginConnect thread c.timeoutMs = .started call connection) :
    c.follow (.beginConnect thread c.timeoutMs) = { c with connection }.relay := by
  simp only [follow, onConnection, Connection.perform, h]

theorem follow_finishConnect {c : Client η} {call : Nat}
    {finished : Outcome × Connection Loopback}
    (h : c.connection.finishConnect call = some finished) :
    c.follow (.finishConnect call) = { c with connection := finished.2 }.relay := by
  simp only [follow, onConnection, Connection.perform, h]

theorem relayEvent_frame (c : Client η) (event : ConnectionEvent) :
    (c.relayEvent event).connection = c.connection ∧ (c.relayEvent event).sentOn = c.sentOn ∧
      (c.relayEvent event).messages = c.messages ∧
      (c.relayEvent event).trace = c.trace ++ [.connection event] := by
  cases event with
  | published subscriber outcome =>
    simp only [relayEvent, relayOutcome, note, failPending, submit]
    split <;> split <;> exact ⟨rfl, rfl, rfl, rfl⟩
  | answered waiter outcome => cases waiter <;> exact ⟨rfl, rfl, rfl, rfl⟩
  | creating generation | requested generation channel converter | closed channel =>
    exact ⟨rfl, rfl, rfl, rfl⟩

theorem foldl_relayEvent_frame (c : Client η) (events : List ConnectionEvent) :
    (events.foldl relayEvent c).connection = c.connection ∧
      (events.foldl relayEvent c).sentOn = c.sentOn ∧
      (events.foldl relayEvent c).messages = c.messages ∧
      (events.foldl relayEvent c).trace = c.trace ++ events.map .connection := by
  induction events generalizing c with
  | nil => exact ⟨rfl, rfl, rfl, (List.append_nil _).symm⟩
  | cons event events ih =>
    obtain ⟨connection, sentOn, messages, trace⟩ := relayEvent_frame c event
    obtain ⟨connection', sentOn', messages', trace'⟩ := ih (c.relayEvent event)
    refine ⟨connection'.trans connection, sentOn'.trans sentOn, messages'.trans messages, ?_⟩
    rw [List.foldl_cons, trace', trace, List.append_assoc]
    rfl

theorem relay_connection (c : Client η) :
    c.relay.connection = { c.connection with trace := [] } := (foldl_relayEvent_frame _ _).1

theorem relay_service (c : Client η) : c.relay.service = c.service := by
  rw [service, relay_connection]
  rfl

theorem relay_sentOn (c : Client η) : c.relay.sentOn = c.sentOn := (foldl_relayEvent_frame _ _).2.1

theorem relay_messages (c : Client η) : c.relay.messages = c.messages :=
  (foldl_relayEvent_frame _ _).2.2.1

theorem relay_trace (c : Client η) :
    c.relay.trace = c.trace ++ c.connection.trace.map .connection :=
  (foldl_relayEvent_frame _ _).2.2.2

end Client

end EndpointMonitor
