import EndpointMonitor.Codec
import EndpointMonitor.Handler.Basic

/-!
The dispatcher routes what the service sends to the handlers of the application. Every request that
needs an answer gets one: where no handler gives it, there is a default.
-/

namespace EndpointMonitor

/-- Where handlers run: at once, one after another, or in any order. -/
inductive Executor where
  | inline
  | serial
  | pool
  deriving DecidableEq

/-- What the service sends, as payloads. -/
inductive InboundCall where
  | auth (payload : Bytes)
  | notify (payload : Bytes)
  | custom (payload : Bytes)

/-- A handler that is to run, with what it runs on. Calls that are owed an answer are numbered. -/
inductive HandlerJob where
  | auth (call : Nat) (handler : AuthHandler) (message : EventMessage)
  | notify (handler : NotifyHandler) (message : EventMessage)
  | custom (call : Nat) (handler : CustomHandler) (data : Bytes)

/-- What a handler was run on. -/
inductive Invocation where
  | interest (process : ProcessDescriptor)
  | auth (message : EventMessage)
  | notify (message : EventMessage)
  | custom (data : Bytes)

/-- What a dispatcher does. -/
inductive DispatchEvent where
  | invoked (invocation : Invocation)
  | resolved (call : Nat) (answer : UInt32 × Bool)
  | replied (call : Nat) (result : Except String Bytes)

/-- A reply to an authorization request that a handler has kept. -/
structure ResolutionReply where
  call : Nat
  seqNum : UInt64
  deriving DecidableEq

namespace ResolutionReply

def text (r : ResolutionReply) : String :=
  "ResolutionReply \x7b seq_num: " ++ toString r.seqNum.toNat ++ ", pending: true \x7d"

end ResolutionReply

structure Dispatcher where
  codec : Codec
  handlers : HandlerSet
  executor : Executor
  /-- The number of the next call that is owed an answer. -/
  calls : Nat
  jobs : List HandlerJob
  kept : List ResolutionReply
  keptCustom : List Nat
  trace : List DispatchEvent

namespace Dispatcher

def new (codec : Codec) (executor : Executor) : Dispatcher :=
  ⟨codec, .empty, executor, 0, [], [], [], []⟩

/-- The answer to a custom message whose reply is lost. -/
def lostReply : Except String Bytes := .error "custom message dropped without a reply"

def note (d : Dispatcher) (event : DispatchEvent) : Dispatcher :=
  { d with trace := d.trace ++ [event] }

/-- Answers an authorization request. -/
def resolve (d : Dispatcher) (call : Nat) (resolution : Resolution) : Dispatcher :=
  d.note (.resolved call resolution.toWire)

/-- Runs a handler. A reply that it does not use is answered by default. -/
def perform (d : Dispatcher) : HandlerJob → Dispatcher
  | .auth call handler message =>
    let d := d.note (.invoked (.auth message))
    match (handler message).reply with
    | .send resolution => d.resolve call resolution
    | .drop => d.resolve call .allowOnce
    | .keep => { d with kept := d.kept ++ [⟨call, message.seqNum⟩] }
  | .notify _ message => d.note (.invoked (.notify message))
  | .custom call handler data =>
    let d := d.note (.invoked (.custom data))
    match (handler data).reply with
    | .send result => d.note (.replied call result)
    | .drop => d.note (.replied call lostReply)
    | .keep => { d with keptCustom := d.keptCustom ++ [call] }

/-- A handler is never run; the reply that it would have owed is lost. -/
def discard (d : Dispatcher) : HandlerJob → Dispatcher
  | .auth call _ _ => d.resolve call .allowOnce
  | .notify _ _ => d
  | .custom call _ _ => d.note (.replied call lostReply)

def submit (d : Dispatcher) (job : HandlerJob) : Dispatcher :=
  match d.executor with
  | .inline => d.perform job
  | .serial | .pool => { d with jobs := d.jobs ++ [job] }

/-- Runs all handlers that wait, in the order in which they were submitted. -/
def work (d : Dispatcher) : Dispatcher := d.jobs.foldl perform { d with jobs := [] }

/-- An authorization request arrives. One that cannot be read, or that nobody is there to decide,
is allowed once. -/
def receiveAuth (d : Dispatcher) (payload : Bytes) : Dispatcher :=
  let call := d.calls
  let d := { d with calls := call + 1 }
  match d.codec.decode (α := EventMessage) payload, d.handlers.auth with
  | .ok message, some handler => d.submit (.auth call handler message)
  | _, _ => d.resolve call .allowOnce

/-- A notification arrives. One that cannot be read is ignored. -/
def receiveNotify (d : Dispatcher) (payload : Bytes) : Dispatcher :=
  match d.codec.decode (α := EventMessage) payload, d.handlers.notify with
  | .ok message, some handler => d.submit (.notify handler message)
  | _, _ => d

/-- A custom message arrives. -/
def receiveCustom (d : Dispatcher) (data : Bytes) : Dispatcher :=
  let call := d.calls
  let d := { d with calls := call + 1 }
  match d.handlers.customMessage with
  | some handler => d.submit (.custom call handler data)
  | none => d.note (.replied call (.error ClientError.handlerNotSet.message))

def receive (d : Dispatcher) : InboundCall → Dispatcher
  | .auth payload => d.receiveAuth payload
  | .notify payload => d.receiveNotify payload
  | .custom payload => d.receiveCustom payload

def resolution? (d : Dispatcher) (call : Nat) : Option (UInt32 × Bool) :=
  d.trace.findSome? fun
    | .resolved c answer => if c = call then some answer else none
    | _ => none

def reply? (d : Dispatcher) (call : Nat) : Option (Except String Bytes) :=
  d.trace.findSome? fun
    | .replied c result => if c = call then some result else none
    | _ => none

/-- An authorization request, and the answer that it gets before all handlers have run. -/
def auth (d : Dispatcher) (payload : Bytes) : Option (UInt32 × Bool) × Dispatcher :=
  let call := d.calls
  let d := (d.receiveAuth payload).work
  (d.resolution? call, d)

def notify (d : Dispatcher) (payload : Bytes) : Dispatcher := (d.receiveNotify payload).work

/-- A custom message, and the answer that it gets before all handlers have run. -/
def custom (d : Dispatcher) (data : Bytes) : Option (Except String Bytes) × Dispatcher :=
  let call := d.calls
  let d := (d.receiveCustom data).work
  (d.reply? call, d)

/-- Asks for the interest in a process. There is no answer without an opinion that fits. -/
def pathInterest (d : Dispatcher) (payload : Bytes) : Option Bytes × Dispatcher :=
  match d.codec.decode (α := ProcessDescriptor) payload, d.handlers.pathInterest with
  | .ok process, some handler =>
    let d := d.work.note (.invoked (.interest process))
    match handler process with
    | .verdict (some verdict) => ((d.codec.encode verdict).toOption, d)
    | .verdict none | .failed => (none, d)
  | _, _ => (none, d)

/-- Answers all replies that handlers have kept, and lists them. -/
def resolveKept (d : Dispatcher) (resolution : Resolution) : List ResolutionReply × Dispatcher :=
  (d.kept, d.kept.foldl (fun d reply => d.resolve reply.call resolution) { d with kept := [] })

/-- Takes what happened so far. -/
def drain (d : Dispatcher) : List DispatchEvent × Dispatcher := (d.trace, { d with trace := [] })

def text (d : Dispatcher) : String := "Dispatcher \x7b handlers: " ++ d.handlers.text ++ ", .. \x7d"

end Dispatcher

end EndpointMonitor
