import EndpointMonitor.Dispatcher
import EndpointMonitor.Service.Basic

/-!
What the service sends to the client: notifications, authorization requests and custom messages.
An event reaches the client if it is subscribed, not muted, and of interest for its process. The
client is asked for its interest once per path, and its cached resolutions are used again.
-/

namespace EndpointMonitor

/-- What becomes of an authorization request. -/
inductive AuthOutcome where
  | notDelivered
  | cached (resolution : Resolution)
  | resolved (resolution : Resolution)
  | timedOut
  deriving DecidableEq

/-- The service and the dispatcher of its client. -/
structure Exchange where
  service : Service
  dispatcher : Dispatcher

namespace Exchange

/-- Asks the client for its interest in a process. Without a verdict that can be read, everything
is of interest. -/
def askInterest (x : Exchange) (process : ProcessDescriptor) :
    Option InterestVerdict × Exchange :=
  match x.service.codec.encode process with
  | .error _ => (none, x)
  | .ok payload =>
    let (reply, dispatcher) := x.dispatcher.pathInterest payload
    (reply.bind fun bytes => (x.service.codec.decode bytes).toOption, { x with dispatcher })

def cacheInterest (x : Exchange) (path : String) (verdict : Option InterestVerdict) : Exchange :=
  let tables := x.service.tables
  let interest := tables.interest.put path verdict
  { x with service := { x.service with tables := { tables with interest } } }

/-- The verdict in force for a process: the cached one for its path, or the client's. -/
def interestIn (x : Exchange) (process : ProcessDescriptor) :
    Option InterestVerdict × Exchange :=
  match x.service.tables.interest.find? process.path with
  | some verdict => (verdict, x)
  | none =>
    let (verdict, x) := x.askInterest process
    (verdict, x.cacheInterest process.path verdict)

/-- Whether a message passes all filters. -/
def delivers (x : Exchange) (message : EventMessage) : Bool × Exchange :=
  if x.service.isConnected && x.service.tables.passes message then
    let (verdict, x) := x.interestIn message.process
    match verdict with
    | some v => (!v.ignored.contains message.eventType, x)
    | none => (true, x)
  else (false, x)

/-- Sends a notification; tells whether it has reached the client. -/
def emitNotify (x : Exchange) (message : EventMessage) : Bool × Exchange :=
  match x.delivers message with
  | (false, x) => (false, x)
  | (true, x) =>
    match x.service.codec.encode message with
    | .ok payload => (true, { x with dispatcher := x.dispatcher.notify payload })
    | .error _ => (false, x)

def resolutionKey (message : EventMessage) : String × EventType :=
  (message.process.path, message.eventType)

def cacheResolution (x : Exchange) (key : String × EventType) (resolution : Resolution) :
    Exchange :=
  if resolution.cache then
    let tables := x.service.tables
    let resolutions := tables.resolutions.put key resolution
    { x with service := { x.service with tables := { tables with resolutions } } }
  else x

/-- Asks the client to authorize an event. An answer that may be kept is used again for the same
path and kind of event. -/
def emitAuth (x : Exchange) (message : EventMessage) : AuthOutcome × Exchange :=
  match x.delivers message with
  | (false, x) => (.notDelivered, x)
  | (true, x) =>
    match x.service.tables.resolutions.find? (resolutionKey message) with
    | some resolution => (.cached resolution, x)
    | none =>
      match x.service.codec.encode message with
      | .error _ => (.notDelivered, x)
      | .ok payload =>
        match x.dispatcher.auth payload with
        | (some answer, dispatcher) =>
          let resolution := Resolution.ofWire answer
          (.resolved resolution, { x with dispatcher }.cacheResolution (resolutionKey message)
            resolution)
        | (none, dispatcher) => (.timedOut, { x with dispatcher })

/-- Sends a custom message to the client and waits for the answer. -/
def sendCustom (x : Exchange) (data : Bytes) : Except String Bytes × Exchange :=
  if x.service.isConnected then
    match x.dispatcher.custom data with
    | (some result, dispatcher) => (result, { x with dispatcher })
    | (none, dispatcher) => (.error "timed out", { x with dispatcher })
  else (.error "not connected", x)

end Exchange

end EndpointMonitor
