import EndpointMonitor.Bridge
import EndpointMonitor.Config.Basic
import EndpointMonitor.Connection.State
import EndpointMonitor.Connection.Transport
import EndpointMonitor.Text.Duration

/-!
A connection to the service, as it stands between two events.
-/

namespace EndpointMonitor

abbrev Outcome := Except ClientError Unit

/-- Attempts are started by a caller, or by the connection itself after a loss. -/
inductive AttemptKind where
  | manual
  | automatic
  deriving DecidableEq

/-- Who waits for the outcome of an attempt: a blocked call, or something to run later. -/
inductive Waiter where
  | call (id : Nat)
  | completion (id : Nat)
  deriving DecidableEq

inductive Alarm where
  | reconnect
  | sessionDeadline (generation : Nat) (timeoutMs : UInt64)
  deriving DecidableEq

/-- An alarm rings when the clock shows the time at which it is due, or later. -/
structure Timer where
  due : Nat
  alarm : Alarm
  deriving DecidableEq

/-- What a connection does that others can see. -/
inductive ConnectionEvent where
  | creating (generation : Nat)
  | requested (generation channel : Nat) (converter : Bytes)
  | closed (channel : Nat)
  | published (subscriber : String) (outcome : Outcome)
  | answered (waiter : Waiter) (outcome : Outcome)

/-- All times are in milliseconds. -/
structure Connection (σ : Type) where
  codec : Codec
  transport : σ
  state : ConnectionState
  /-- The number of attempts so far; invalidation counts as one. -/
  generation : Nat
  attempt : AttemptKind
  channel : Option Nat
  converter : ConverterConfig
  reconnectDelayMs : UInt64
  sessionTimeoutMs : UInt64
  subscriber : Option String
  waiters : List Waiter
  now : Nat
  timers : List Timer
  /-- Blocking attempts of several callers, one at a time. -/
  bridge : Bridge Unit
  /-- The attempt that the call in the bridge has started, if any. -/
  awaited : Option Nat
  trace : List ConnectionEvent

namespace Connection

variable {σ : Type}

/-- The delays of a connection that nobody has configured. -/
def defaultReconnectDelayMs : UInt64 := 3000

def defaultSessionTimeoutMs : UInt64 := 5000

def new (codec : Codec) (transport : σ) : Connection σ where
  codec := codec
  transport := transport
  state := .idle
  generation := 0
  attempt := .manual
  channel := none
  converter := .default
  reconnectDelayMs := defaultReconnectDelayMs
  sessionTimeoutMs := defaultSessionTimeoutMs
  subscriber := none
  waiters := []
  now := 0
  timers := []
  bridge := .empty
  awaited := none
  trace := []

/-- The channel, while it can be used. -/
def proxy? (c : Connection σ) : Option Nat :=
  match c.state with
  | .connected => c.channel
  | .idle | .connecting | .interrupted | .invalidated => none

/-- Whether the attempt is the current one and undecided. -/
def isAttempting (c : Connection σ) (generation : Nat) : Bool :=
  c.generation = generation && c.state = .connecting

/-- Whether the attempt is the current one, and undecided or successful. -/
def isUp (c : Connection σ) (generation : Nat) : Bool :=
  c.generation = generation && (c.state = .connecting || c.state = .connected)

def note (c : Connection σ) (event : ConnectionEvent) : Connection σ :=
  { c with trace := c.trace ++ [event] }

/-- Takes what happened so far. -/
def drain (c : Connection σ) : List ConnectionEvent × Connection σ :=
  (c.trace, { c with trace := [] })

def setTimer (c : Connection σ) (delayMs : UInt64) (alarm : Alarm) : Connection σ :=
  { c with timers := c.timers ++ [⟨c.now + delayMs.toNat, alarm⟩] }

def answer (c : Connection σ) (outcome : Outcome) (waiter : Waiter) : Connection σ :=
  let c := c.note (.answered waiter outcome)
  match waiter with
  | .call id => { c with bridge := (c.bridge.complete id outcome).2 }
  | .completion _ => c

/-- Tells an outcome to the waiters and then to the subscriber. -/
def publish (c : Connection σ) (waiters : List Waiter) (outcome : Outcome) : Connection σ :=
  let c := waiters.foldl (·.answer outcome) c
  match c.subscriber with
  | some subscriber => c.note (.published subscriber outcome)
  | none => c

/-- Gives waiters up: a blocked call learns that its answer is lost, a completion never runs. -/
def discard (c : Connection σ) (waiters : List Waiter) : Connection σ :=
  waiters.foldl (fun c waiter =>
    match waiter with
    | .call id => { c with bridge := c.bridge.drop id }
    | .completion _ => c) c

def text (c : Connection σ) : String :=
  "ConnectionManager \x7b state: " ++ c.state.name
    ++ ", generation: " ++ toString c.generation
    ++ ", reconnect_delay: " ++ Text.duration c.reconnectDelayMs.toNat ++ ", .. \x7d"

end Connection

end EndpointMonitor
