import EndpointMonitor.Connection.Basic

/-!
How a connection comes up, breaks and comes up again.

An attempt makes a channel and opens a session on it. It is decided by the reply to the session
request, by its deadline, or by the loss of the channel, whichever comes first. What comes after
that finds another generation, or a state in which nothing is being decided, and changes nothing.
-/

namespace EndpointMonitor.Connection

variable {σ : Type} [Transport σ]

/-- Tears a channel down. -/
def close (c : Connection σ) (channel : Nat) : Connection σ :=
  { c with transport := Transport.close c.transport channel }.note (.closed channel)

def closeAll (c : Connection σ) (channels : List Nat) : Connection σ := channels.foldl close c

def scheduleReconnect (c : Connection σ) : Connection σ := c.setTimer c.reconnectDelayMs .reconnect

/-- An attempt fails. A manual one is over; an automatic one will be repeated. -/
def attemptFailed (c : Connection σ) (generation : Nat) (error : ClientError) : Connection σ :=
  if c.isAttempting generation then
    match c.attempt with
    | .manual =>
      ({ c with state := .idle, channel := none, waiters := [] }.closeAll c.channel.toList).publish
        c.waiters (.error error)
    | .automatic =>
      ({ c with state := .interrupted, channel := none }.closeAll
        c.channel.toList).scheduleReconnect
  else c

/-- The service answers the session request of an attempt. -/
def sessionCreated (c : Connection σ) (generation : Nat) (reply : RemoteResult) : Connection σ :=
  match reply with
  | .error reason => c.attemptFailed generation (.remote reason)
  | .ok _ =>
    if c.isAttempting generation then
      { c with state := .connected, waiters := [] }.publish c.waiters (.ok ())
    else c

/-- The channel of an attempt is lost. Nobody is told if that happens to an automatic attempt. -/
def channelLost (c : Connection σ) (generation : Nat) : Connection σ :=
  if c.isUp generation then
    let lost : Connection σ :=
      { c with state := .interrupted, attempt := .automatic, channel := none, waiters := [] }
    let told :=
      if c.state = .connected || c.attempt = .manual then
        lost.publish c.waiters (.error .interrupted)
      else lost.discard c.waiters
    told.scheduleReconnect
  else c

/-- A channel reports. -/
def receive (c : Connection σ) : Signal → Connection σ
  | .lost generation => c.channelLost generation
  | .sessionReply generation reply => c.sessionCreated generation reply

/-- What becomes of a wish to connect. -/
inductive Admission where
  | refused (outcome : Outcome)
  | skipped
  | begun

/-- An automatic attempt follows a loss only. A manual one never interferes with another. -/
def admission : ConnectionState → AttemptKind → Admission
  | .invalidated, _ => .refused (.error .channelInvalidated)
  | .connected, .manual => .refused (.ok ())
  | .connecting, .manual =>
    .refused (.error (.unexpected "connection attempt already in progress"))
  | .idle, .manual | .interrupted, _ => .begun
  | .idle, .automatic | .connecting, .automatic | .connected, .automatic => .skipped

/-- Somebody wants to connect. An attempt that begins asks for a channel; tells what came of that. -/
def start (c : Connection σ) (kind : AttemptKind) (waiter : Option Waiter) :
    Connection σ × Option Creation :=
  match admission c.state kind with
  | .refused outcome => (waiter.toList.foldl (·.answer outcome) c, none)
  | .skipped => (c, none)
  | .begun =>
    let (creation, transport) := Transport.create c.transport (c.generation + 1)
    ({ c with
      transport
      state := .connecting
      generation := c.generation + 1
      attempt := kind
      waiters := c.waiters ++ waiter.toList }.note (.creating (c.generation + 1)), some creation)

/-- A new channel is handed over to its attempt, which opens a session on it. The channel is not
wanted if the attempt is over. Tells what came back at once, if a session request went out. -/
def handOver (c : Connection σ) (generation channel : Nat) : Connection σ × Option (List Signal) :=
  if c.isAttempting generation then
    let c := { c with channel := some channel }
    match c.codec.encode c.converter with
    | .error error => (c.attemptFailed generation error, none)
    | .ok payload =>
      let c := c.setTimer c.sessionTimeoutMs (.sessionDeadline generation c.sessionTimeoutMs)
      let c := c.note (.requested generation channel payload)
      let (signals, transport) := Transport.openSession c.transport channel generation payload
      ({ c with transport }, some signals)
  else (c.close channel, none)

/-- An attempt goes on with what it got when it asked for a channel. -/
def resume (c : Connection σ) (generation : Nat) :
    Except ClientError Nat → Connection σ × Option (List Signal)
  | .error error => (c.attemptFailed generation error, none)
  | .ok channel => c.handOver generation channel

/-- Tries to connect. Tells which attempt has sent a session request, if one has. -/
def tryConnect (c : Connection σ) (kind : AttemptKind) (waiter : Option Waiter) :
    Connection σ × Option Nat :=
  match c.start kind waiter with
  | (c, none) => (c, none)
  | (c, some creation) =>
    match (creation.losses.foldl channelLost c).resume c.generation creation.result with
    | (resumed, some signals) => (signals.foldl receive resumed, some c.generation)
    | (resumed, none) => (resumed, none)

/-- Tears the connection down for good. -/
def invalidate (c : Connection σ) : Connection σ :=
  if c.state = .invalidated then c
  else
    ({ c with
      state := .invalidated
      generation := c.generation + 1
      channel := none
      waiters := []
      timers := [] }.closeAll c.channel.toList).publish c.waiters (.error .channelInvalidated)

end EndpointMonitor.Connection
