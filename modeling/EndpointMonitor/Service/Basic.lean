import EndpointMonitor.ClientError
import EndpointMonitor.Config.Basic
import EndpointMonitor.Service.Tables

/-!
The service at the other end of a channel. It serves one channel at a time, the one that was made
last; a new channel starts with empty tables. It can be told to misbehave: to refuse channels, to
hold its replies back or to delay them.
-/

namespace EndpointMonitor

/-- The current channel, and the attempt for which it was made. -/
structure Binding where
  channel : Nat
  generation : Nat
  deriving DecidableEq

/-- A reply and whom it is for: the attempt that opens a session, a blocked call or a custom message
of the client, or somebody else who has used the channel. -/
inductive Delivery where
  | session (generation : Nat) (result : RemoteResult)
  | call (id : Nat) (result : RemoteResult)
  | message (id : Nat) (result : Except String Bytes)
  | foreign (result : RemoteResult)
  | foreignMessage (result : Except String Bytes)

/-- A reply that is to be delivered after some time. -/
structure DelayedReply where
  afterMs : Nat
  delivery : Delivery

structure Service where
  codec : Codec
  binding : Option Binding
  /-- How many channels there have been; they are numbered from one. -/
  channels : Nat
  tables : ServiceTables
  /-- What the latest session asked for. -/
  converter : Option ConverterConfig
  sessions : Nat
  available : Bool
  unresponsive : Bool
  replyDelayMs : Option Nat
  inFlight : Nat
  maxInFlight : Nat
  /-- The names of all requests on current channels, in order. -/
  requests : List String
  responder : Bytes → Except String Bytes
  held : List Delivery
  delayed : List DelayedReply

namespace Service

def new (codec : Codec) : Service where
  codec := codec
  binding := none
  channels := 0
  tables := .empty
  converter := none
  sessions := 0
  available := true
  unresponsive := false
  replyDelayMs := none
  inFlight := 0
  maxInFlight := 0
  requests := []
  responder := .ok
  held := []
  delayed := []

def isCurrent (s : Service) (channel : Nat) : Bool :=
  match s.binding with
  | some b => b.channel = channel
  | none => false

/-- Makes a channel for an attempt. Whatever an earlier channel had stored is forgotten. -/
def bind (s : Service) (generation : Nat) : Except ClientError Nat × Service :=
  if s.available then
    let channel := s.channels + 1
    (.ok channel, { s with
      channels := channel
      binding := some ⟨channel, generation⟩
      tables := .empty })
  else (.error (.remote "security service unavailable"), s)

/-- The client tears a channel down. -/
def unbind (s : Service) (channel : Nat) : Service :=
  if s.isCurrent channel then { s with binding := none } else s

/-- The current channel breaks. Tells for which attempt it had been made. -/
def interrupt (s : Service) : Option Nat × Service :=
  (s.binding.map (·.generation), { s with binding := none })

/-- Opens a session. -/
def openSession (s : Service) (converter : Bytes) : RemoteResult × Service :=
  match s.codec.decode (α := ConverterConfig) converter with
  | .ok config => (.ok .done, { s with converter := some config, sessions := s.sessions + 1 })
  | .error error => (.error error.message, s)

/-- Carries out a request that came over the current channel. -/
def apply (s : Service) (request : ServiceRequest) : RemoteResult × Service :=
  let s := { s with requests := s.requests ++ [request.name] }
  match request with
  | .createSession converter => s.openSession converter
  | request =>
    match s.tables.apply s.codec request with
    | .ok (reply, tables) => (.ok reply, { s with tables })
    | .error reason => (.error reason, s)

/-- The answer on a channel that is not the current one. -/
def staleChannel : String := "connection invalid"

/-- A reply is accepted for delivery: at once, after the reply delay, or when held replies are
released. Gives the reply back if it is delivered at once. -/
def respond (s : Service) (delivery : Delivery) : Option Delivery × Service :=
  let s := { s with
    inFlight := s.inFlight + 1
    maxInFlight := max s.maxInFlight (s.inFlight + 1) }
  if s.unresponsive then (none, { s with held := s.held ++ [delivery] })
  else
    match s.replyDelayMs with
    | some afterMs => (none, { s with delayed := s.delayed ++ [⟨afterMs, delivery⟩] })
    | none => (some delivery, { s with inFlight := s.inFlight - 1 })

/-- A request arrives on a channel. -/
def request (s : Service) (channel : Nat) (request : ServiceRequest)
    (deliver : RemoteResult → Delivery) : Option Delivery × Service :=
  if s.isCurrent channel then
    let (result, s) := s.apply request
    s.respond (deliver result)
  else s.respond (deliver (.error staleChannel))

/-- A custom message arrives on a channel. -/
def customMessage (s : Service) (channel : Nat) (data : Bytes)
    (deliver : Except String Bytes → Delivery) : Option Delivery × Service :=
  if s.isCurrent channel then s.respond (deliver (s.responder data))
  else (some (deliver (.error staleChannel)), s)

/-- Delivers all held replies. -/
def releaseHeld (s : Service) : List Delivery × Service :=
  (s.held, { s with held := [], inFlight := s.inFlight - s.held.length })

/-- Delivers the first delayed reply whose delay is below a limit, if there is a limit. -/
def deliverDelayed? (s : Service) (limitMs : Option Nat) : Option (Delivery × Service) :=
  let due (r : DelayedReply) : Bool :=
    match limitMs with
    | some limit => r.afterMs < limit
    | none => true
  match s.delayed.findIdx? due with
  | some i =>
    (s.delayed[i]?).map fun r =>
      (r.delivery, { s with delayed := s.delayed.eraseIdx i, inFlight := s.inFlight - 1 })
  | none => none

/-- The channel with a number, counted from zero; the newest one without. -/
def channelAt? (s : Service) : Option Nat → Option Nat
  | some index => if index < s.channels then some (index + 1) else none
  | none => if s.channels = 0 then none else some s.channels

def isConnected (s : Service) : Bool := s.binding.isSome

def text (s : Service) : String :=
  "LoopbackService \x7b connected: " ++ toString s.isConnected
    ++ ", sessions: " ++ toString s.sessions
    ++ ", subscriptions: " ++ s.tables.subscriptions.text ++ ", .. \x7d"

end Service

end EndpointMonitor
