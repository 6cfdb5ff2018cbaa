import EndpointMonitor.Client.Control
import EndpointMonitor.Connection.Connect
import EndpointMonitor.Connection.Clock
import EndpointMonitor.Queue
import EndpointMonitor.Service.Emission
import EndpointMonitor.Service.Loopback

/-!
A client of the service: its connection, the bridge of its blocking calls, and the dispatcher of its
handlers.

The client watches its connection. When the connection is lost, the blocked call fails at once. The
outcomes go to the state handler of the application, and the completions of activations run in the
same queue before it.
-/

namespace EndpointMonitor

/-- What waits in the state queue: a state handler, or the completion of an activation, with the
outcome that it is for. -/
inductive StateJob (η : Type) where
  | handle (handler : η) (outcome : Outcome)
  | complete (id : Nat) (outcome : Outcome)

/-- What a client does that the application can see, beside the results of its calls. -/
inductive ClientEvent where
  | connection (event : ConnectionEvent)
  | handled (outcome : Outcome)
  | completed (id : Nat) (outcome : Outcome)
  | messageAnswered (id : Nat) (result : Except ClientError Bytes)

/-- State handlers are of a type `η` that the client does not look into. -/
structure Client (η : Type) where
  codec : Codec
  timeoutMs : UInt64
  bridge : Bridge ServiceReply
  /-- The channel on which the call in the bridge was sent. -/
  sentOn : Option Nat
  dispatcher : Dispatcher
  connection : Connection Loopback
  stateQueue : SerialQueue (StateJob η)
  stateHandler : Option η
  /-- How many activations with a completion, and custom messages, there have been. -/
  activations : Nat
  messages : Nat
  trace : List ClientEvent

namespace Client

variable {η : Type}

/-- The name under which a client watches its connection. -/
def subscriber : String := "client"

def new (config : ClientConfig) (transport : Loopback) : Client η where
  codec := config.codec
  timeoutMs := config.timeoutMs
  bridge := .empty
  sentOn := none
  dispatcher := .new config.codec .serial
  connection := { Connection.new config.codec transport with
    reconnectDelayMs := config.reconnectDelayMs
    sessionTimeoutMs := config.timeoutMs
    converter := config.converter
    subscriber := some subscriber }
  stateQueue := .empty
  stateHandler := none
  activations := 0
  messages := 0
  trace := []

def state (c : Client η) : ConnectionState := c.connection.state

def service (c : Client η) : Service := c.connection.transport.service

def withTransport (c : Client η) (transport : Loopback) : Client η :=
  { c with connection := { c.connection with transport } }

def withService (c : Client η) (service : Service) : Client η :=
  c.withTransport { c.connection.transport with service }

def exchange (c : Client η) : Exchange := ⟨c.service, c.dispatcher⟩

def withExchange (c : Client η) (x : Exchange) : Client η :=
  { c.withService x.service with dispatcher := x.dispatcher }

def note (c : Client η) (event : ClientEvent) : Client η := { c with trace := c.trace ++ [event] }

/-- Takes what happened so far. -/
def drain (c : Client η) : List ClientEvent × Client η := (c.trace, { c with trace := [] })

def submit (c : Client η) (job : StateJob η) : Client η :=
  { c with stateQueue := c.stateQueue.submit job }

/-- Fails the blocked call. -/
def failPending (c : Client η) : Client η :=
  { c with bridge := (c.bridge.failPending .notConnected).2 }

/-- Whether an outcome means that the channel is gone. -/
def isLoss : Outcome → Bool
  | .error .interrupted | .error .channelInvalidated => true
  | _ => false

/-- The connection has an outcome to tell. -/
def relayOutcome (c : Client η) (outcome : Outcome) : Client η :=
  let c := if isLoss outcome then c.failPending else c
  match c.stateHandler with
  | some handler => c.submit (.handle handler outcome)
  | none => c

/-- The connection has done something. -/
def relayEvent (c : Client η) (event : ConnectionEvent) : Client η :=
  let c := c.note (.connection event)
  match event with
  | .published _ outcome => c.relayOutcome outcome
  | .answered (.completion id) outcome => c.submit (.complete id outcome)
  | .answered (.call _) _ | .creating _ | .requested _ _ _ | .closed _ => c

/-- Deals with all that the connection has done since the last time. -/
def relay (c : Client η) : Client η :=
  let (events, connection) := c.connection.drain
  events.foldl relayEvent { c with connection }

/-- Something happens to the connection. -/
def onConnection (c : Client η) (f : Connection Loopback → Connection Loopback) : Client η :=
  { c with connection := f c.connection }.relay

/-- Starts the next job of the state queue. -/
def startJob? (c : Client η) : Option (StateJob η × Client η) :=
  c.stateQueue.start?.map fun (job, stateQueue) =>
    let c := { c with stateQueue }
    (job, match job with
      | .handle _ outcome => c.note (.handled outcome)
      | .complete id outcome => c.note (.completed id outcome))

def finishJob (c : Client η) : Client η := { c with stateQueue := c.stateQueue.finish }

/-! ### Settings -/

/-- The timeout of calls also bounds the wait for a session. -/
def setTimeout (c : Client η) (ms : UInt64) : Client η :=
  { c with timeoutMs := ms, connection := { c.connection with sessionTimeoutMs := ms } }

def setReconnectDelay (c : Client η) (ms : UInt64) : Client η :=
  { c with connection := { c.connection with reconnectDelayMs := ms } }

/-- The converter goes with the next session. -/
def setConverter (c : Client η) (converter : ConverterConfig) : Client η :=
  { c with connection := { c.connection with converter } }

def setExecutor (c : Client η) (executor : Executor) : Client η :=
  { c with dispatcher := { c.dispatcher with executor } }

def setHandlers (c : Client η) (handlers : HandlerSet) : Client η :=
  { c with dispatcher := { c.dispatcher with handlers } }

/-! ### Calls -/

/-- What becomes of a thread that wants to call. -/
inductive Start (η : Type) where
  | rejected
  | waiting (holder : Nat)
  | started (call : Nat) (c : Client η)

/-- Why there is no channel to call on. -/
def disconnectedError (c : Client η) : ClientError :=
  match c.state with
  | .invalidated => .channelInvalidated
  | .idle | .connecting | .connected | .interrupted => .notConnected

def complete (c : Client η) (call : Nat) (result : Except ClientError ServiceReply) : Client η :=
  { c with bridge := (c.bridge.complete call result).2 }

/-- Sends the request of a call that holds the bridge. -/
def send (c : Client η) (call : Nat) (request : ServiceRequest) : Client η :=
  match c.connection.proxy? with
  | none => c.complete call (.error c.disconnectedError)
  | some channel =>
    let (fate, transport) := c.connection.transport.request channel call request
    let c := { c.withTransport transport with sentOn := some channel }
    match fate with
    | .answered result => c.complete call (result.mapError .remote)
    | .dropped => { c with bridge := c.bridge.drop call }
    | .open => c

/-- Lets a thread in, one at a time, and sends its request. -/
def beginCall (c : Client η) (thread : Nat) (request : ServiceRequest) : Start η :=
  match c.bridge.enter thread c.timeoutMs with
  | .rejected => .rejected
  | .waiting holder => .waiting holder
  | .started call bridge => .started call ({ c with bridge, sentOn := none }.send call request)

/-- The time of a blocked call is up. -/
def expireCall (c : Client η) (call : Nat) : Client η :=
  { c with bridge := c.bridge.expire call }

/-- A decided call returns. -/
def finishCall (c : Client η) (call : Nat) :
    Option (Except ClientError ServiceReply × Client η) :=
  (c.bridge.leave call).map fun (result, bridge) => (result, { c with bridge, sentOn := none })

/-- A reply of the service arrives. -/
def deliver (c : Client η) : Delivery → Client η
  | .session generation result => c.onConnection (·.sessionCreated generation result)
  | .call id result => c.complete id (result.mapError .remote)
  | .message id result => c.note (.messageAnswered id (result.mapError .remote))
  | .foreign _ | .foreignMessage _ => c

/-- Sends a custom message. Its result comes later, unless there is no channel. -/
def sendCustom (c : Client η) (data : Bytes) : Client η :=
  let id := c.messages
  let c := { c with messages := id + 1 }
  match c.connection.proxy? with
  | none => c.note (.messageAnswered id (.error c.disconnectedError))
  | some channel =>
    let (delivery, service) := c.service.customMessage channel data (.message id)
    delivery.toList.foldl deliver (c.withService service)

/-! ### Activation -/

/-- Lets a thread in, one at a time, and tries to connect for it. -/
def beginActivate (c : Client η) (thread : Nat) : Start η :=
  match c.connection.beginConnect thread c.timeoutMs with
  | .rejected => .rejected
  | .waiting holder => .waiting holder
  | .started call connection => .started call { c with connection }.relay

/-- The time of a blocked activation is up. -/
def expireActivate (c : Client η) (call : Nat) : Client η :=
  c.onConnection (·.expireConnect call)

/-- A decided activation returns. -/
def finishActivate (c : Client η) (call : Nat) : Option (Outcome × Client η) :=
  (c.connection.finishConnect call).map fun (outcome, connection) =>
    (outcome, { c with connection }.relay)

/-- Activates without waiting; the completion runs in the state queue. -/
def activateWith (c : Client η) : Client η :=
  let id := c.activations
  { c with activations := id + 1 }.onConnection (·.connectWith id)

/-- Disconnects for good. -/
def invalidate (c : Client η) : Client η := (c.onConnection (·.invalidate)).failPending

/-! ### The other end -/

/-- The channel breaks; tells whether there was one. -/
def interrupt (c : Client η) : Bool × Client η :=
  match c.service.interrupt with
  | (some generation, service) =>
    (true, (c.withService service).onConnection (·.channelLost generation))
  | (none, _) => (false, c)

/-- The service delivers all held replies; tells how many. -/
def releaseHeld (c : Client η) : Nat × Client η :=
  let (held, service) := c.service.releaseHeld
  (held.length, held.foldl deliver (c.withService service))

/-- The service delivers a delayed reply, if one has a delay below the limit. -/
def deliverDelayed? (c : Client η) (limitMs : Option Nat) : Option (Client η) :=
  (c.service.deliverDelayed? limitMs).map fun (delivery, service) =>
    (c.withService service).deliver delivery

/-- Delayed replies arrive, until there is no need to wait or none comes in time. -/
def awaitReplies (c : Client η) (isDone : Client η → Bool) (limitMs : Nat) : Nat → Client η
  | 0 => c
  | n + 1 =>
    if isDone c then c
    else
      match c.deliverDelayed? (some limitMs) with
      | some c => c.awaitReplies isDone limitMs n
      | none => c

/-- All delayed replies arrive. -/
def deliverAll (c : Client η) : Client η :=
  Nat.repeat (fun c => (c.deliverDelayed? none).getD c) c.service.delayed.length c

def emitNotify (c : Client η) (message : EventMessage) : Bool × Client η :=
  let (reached, x) := c.exchange.emitNotify message
  (reached, c.withExchange x)

def emitAuth (c : Client η) (message : EventMessage) : AuthOutcome × Client η :=
  let (outcome, x) := c.exchange.emitAuth message
  (outcome, c.withExchange x)

def customToClient (c : Client η) (data : Bytes) : Except String Bytes × Client η :=
  let (result, x) := c.exchange.sendCustom data
  (result, c.withExchange x)

def text (c : Client η) : String :=
  "Client \x7b timeout: " ++ Text.duration c.timeoutMs.toNat
    ++ ", connection: " ++ c.connection.text
    ++ ", dispatcher: " ++ c.dispatcher.text ++ ", .. \x7d"

end Client

end EndpointMonitor
