import EndpointMonitor.Connection.Lifecycle

/-!
Connecting and waiting for the outcome.
-/

namespace EndpointMonitor.Connection

variable {σ : Type} [Transport σ]

/-- What becomes of a thread that wants to connect. -/
inductive Start (σ : Type) where
  | rejected
  | waiting (holder : Nat)
  | started (call : Nat) (c : Connection σ)

/-- Lets a thread in, one at a time, and tries to connect for it. -/
def beginConnect (c : Connection σ) (thread : Nat) (timeoutMs : UInt64) : Start σ :=
  match c.bridge.enter thread timeoutMs with
  | .rejected => .rejected
  | .waiting holder => .waiting holder
  | .started call bridge =>
    let (c, started) := { c with bridge }.tryConnect .manual (some (.call call))
    .started call { c with awaited := started }

/-- The time of a blocked call is up. -/
def expireConnect (c : Connection σ) (call : Nat) : Connection σ :=
  { c with bridge := c.bridge.expire call }

/-- A decided call returns. If its time was up, nobody waits for its attempt anymore, and the
attempt is over; but the connection may be up by then. -/
def finishConnect (c : Connection σ) (call : Nat) : Option (Outcome × Connection σ) :=
  match c.bridge.leave call with
  | none => none
  | some (result, bridge) =>
    let left : Connection σ := { c with bridge, awaited := none }
    match result, c.awaited with
    | .error (.timeout ms), some generation =>
      let ended := left.attemptFailed generation (.timeout ms)
      some (if ended.state = .connected then .ok () else .error (.timeout ms), ended)
    | _, _ => some (result, left)

/-- Connects while nothing else happens. -/
def connect (c : Connection σ) (thread : Nat) (timeoutMs : UInt64) : Outcome × Connection σ :=
  match c.beginConnect thread timeoutMs with
  | .rejected | .waiting _ => (.error Bridge.reentrant, c)
  | .started call c =>
    match (c.expireConnect call).finishConnect call with
    | some (outcome, c) => (outcome, c)
    | none => (.error .notConnected, c)

/-- Connects without waiting; the outcome goes to a completion. -/
def connectWith (c : Connection σ) (completion : Nat) : Connection σ :=
  (c.tryConnect .manual (some (.completion completion))).1

end EndpointMonitor.Connection
