import EndpointMonitor.Service.Emission

/-!
What the service sends, turn by turn. The service does not hold its lock while the client is asked:
it looks at its tables, asks, and looks or stores again, each time in a turn of its own, and
anything may happen between two turns. So an answer that takes its time is stored in the tables that
the service has by then.
-/

namespace EndpointMonitor

inductive EmissionKind where
  | notify
  | auth
  deriving DecidableEq

/-- What the sender hears in the end. -/
inductive EmissionOutcome where
  | notified (reached : Bool)
  | authorized (outcome : AuthOutcome)
  deriving DecidableEq

/-- How far an emission has come. -/
inductive EmissionPhase where
  | begun
  /-- It has passed subscriptions and mutes. -/
  | admitted
  /-- Nothing was cached for its path. -/
  | unasked
  /-- The client was asked, and this is what it thinks of the process. -/
  | told (verdict : Option InterestVerdict)
  | wanted
  /-- No resolution was cached. -/
  | undecided
  | waiting (call : Nat)
  | answered (resolution : Resolution)
  | ended (outcome : EmissionOutcome)
  deriving DecidableEq

structure Emission where
  kind : EmissionKind
  message : EventMessage
  phase : EmissionPhase

namespace Emission

def new (kind : EmissionKind) (message : EventMessage) : Emission := ⟨kind, message, .begun⟩

/-- What becomes of a message that does not get to the client. -/
def missed : EmissionKind → EmissionOutcome
  | .notify => .notified false
  | .auth => .authorized .notDelivered

def enter (e : Emission) (phase : EmissionPhase) : Emission := { e with phase }

/-- The message is not sent. -/
def stop (e : Emission) : Emission := e.enter (.ended (missed e.kind))

/-- Filters the message by a verdict; without one it gets through. -/
def judge (e : Emission) (verdict : Option InterestVerdict) : Emission :=
  match verdict with
  | some v => if v.ignored.contains e.message.eventType then e.stop else e.enter .wanted
  | none => e.enter .wanted

def path (e : Emission) : String := e.message.process.path

/-- The most turns that an emission takes. -/
def maxTurns : Nat := 8

/-- Whether the client is about to be heard. -/
def isPaused (e : Emission) : Bool :=
  match e.phase with
  | .told _ | .waiting _ | .ended _ => true
  | .begun | .admitted | .unasked | .wanted | .undecided | .answered _ => false

end Emission

namespace Exchange

/-- The next turn of an emission. It is in vain while the handler has not answered. -/
def turn (x : Exchange) (e : Emission) : Exchange × Emission :=
  match e.phase with
  | .begun =>
    if x.service.isConnected && x.service.tables.passes e.message then (x, e.enter .admitted)
    else (x, e.stop)
  | .admitted =>
    match x.service.tables.interest.find? e.path with
    | some verdict => (x, e.judge verdict)
    | none => (x, e.enter .unasked)
  | .unasked =>
    let (verdict, x) := x.askInterest e.message.process
    (x, e.enter (.told verdict))
  | .told verdict => (x.cacheInterest e.path verdict, e.judge verdict)
  | .wanted =>
    match e.kind with
    | .notify =>
      match x.service.codec.encode e.message with
      | .ok payload =>
        ({ x with dispatcher := x.dispatcher.receiveNotify payload },
          e.enter (.ended (.notified true)))
      | .error _ => (x, e.stop)
    | .auth =>
      match x.service.tables.resolutions.find? (resolutionKey e.message) with
      | some resolution => (x, e.enter (.ended (.authorized (.cached resolution))))
      | none => (x, e.enter .undecided)
  | .undecided =>
    match x.service.codec.encode e.message with
    | .ok payload =>
      ({ x with dispatcher := x.dispatcher.receiveAuth payload },
        e.enter (.waiting x.dispatcher.calls))
    | .error _ => (x, e.stop)
  | .waiting call =>
    match x.dispatcher.resolution? call with
    | some answer => (x, e.enter (.answered (.ofWire answer)))
    | none => (x, e)
  | .answered resolution =>
    (x.cacheResolution (resolutionKey e.message) resolution,
      e.enter (.ended (.authorized (.resolved resolution))))
  | .ended _ => (x, e)

/-- A turn after which the handlers run that it has set off. -/
def stride (x : Exchange) (e : Emission) : Exchange × Emission :=
  let (x, e) := x.turn e
  ({ x with dispatcher := x.dispatcher.work }, e)

/-- The time of an emission is up. It makes no difference unless the answer is awaited. -/
def expire (x : Exchange) (e : Emission) : Emission :=
  match e.phase with
  | .waiting call =>
    if (x.dispatcher.resolution? call).isNone then e.enter (.ended (.authorized .timedOut)) else e
  | _ => e

end Exchange

end EndpointMonitor
