import EndpointMonitor.Client.Basic

/-!
What happens in a scenario, one thing after another, and what each thing answers.
-/

namespace EndpointMonitor

/-- What the application does, what the service does, and the passing of time. -/
inductive Action where
  | control (operation : Control)
  | activate
  | activateAsync
  | invalidate
  | sendCustom (data : Bytes)
  | setTimeout (ms : UInt64)
  | setReconnectDelay (ms : UInt64)
  | setConverter (converter : ConverterConfig)
  | setExecutor (executor : Executor)
  | setHandlers (update : HandlerSet → HandlerSet)
  /-- Installs a state handler that does these things whenever the connection is up. -/
  | setStateHandler (replay : List Action)
  | readSettings
  | readText
  | readState
  | emitNotify (message : EventMessage)
  | emitAuth (message : EventMessage)
  | customToClient (data : Bytes)
  | resolveKept (resolution : Resolution)
  | interrupt
  | setAvailable (available : Bool)
  | setUnresponsive (unresponsive : Bool)
  | setReplyDelay (ms : Option Nat)
  | setResponder (responder : Bytes → Except String Bytes)
  | releaseHeld
  | inspect
  | readProcessMutes (rule : MuteProcessRule)
  | readPathMutes (selector : PathSelector)
  | readInversion (muteType : InvertMutingType)
  | readServiceText
  /-- A request on a channel, not made by the client. -/
  | rawRequest (channel : Option Nat) (request : ServiceRequest)
  | rawCustom (channel : Option Nat) (data : Bytes)
  | intercept (interception : Interception)
  | setCreationError (error : Option ClientError)
  /-- A call on a thread of its own, and what happens before it returns. -/
  | inFlight (call : Action) (meanwhile : List Action)
  | parallel (calls : List Action)
  | advance (ms : Nat)

/-- The settings that a client can tell. -/
structure Settings where
  timeoutMs : UInt64
  reconnectDelayMs : UInt64
  converter : ConverterConfig

/-- A look at the service. -/
structure Inspection where
  connected : Bool
  sessions : Nat
  converter : Option ConverterConfig
  subscriptions : EventSet
  requests : List String
  maxInFlight : Nat

inductive Answer where
  | nothing
  | outcome (outcome : Outcome)
  | control (result : ControlResult)
  | flag (value : Bool)
  | count (n : Nat)
  | events (set : EventSet)
  | custom (result : Except String Bytes)
  | auth (outcome : AuthOutcome)
  | settings (settings : Settings)
  | inspection (inspection : Inspection)
  | reply (result : RemoteResult)
  | noReply
  | noChannel
  | text (text : String)
  | list (answers : List Answer)
  | inFlight (call : Answer) (meanwhile : List Answer)

end EndpointMonitor
