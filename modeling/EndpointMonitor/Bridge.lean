import EndpointMonitor.ClientError

/-!
The bridge turns calls that are answered some time, or never, into blocking calls with a deadline.
At most one call holds the bridge. A call is decided by the first event that concerns it: a result,
the loss of its completion, a failure from outside, or its deadline.
-/

namespace EndpointMonitor

/-- A call and, once it is decided, what its caller gets. -/
structure BlockingCall (α : Type) where
  thread : Nat
  timeoutMs : UInt64
  outcome : Option (Except ClientError α)

/-- All calls in the order in which they began; a call is known by its place there. -/
structure Bridge (α : Type) where
  calls : List (BlockingCall α)
  holder : Option Nat
  owner : Option Nat
  pending : Option Nat

namespace Bridge

variable {α : Type}

def empty : Bridge α := ⟨[], none, none, none⟩

/-- The error of a call from inside of another call of the same thread. -/
def reentrant : ClientError := .unexpected "re-entrant blocking call on the same client"

def outcome? (b : Bridge α) (call : Nat) : Option (Except ClientError α) :=
  (b.calls[call]?).bind (·.outcome)

/-- Whether the call can still be decided. -/
def armed (b : Bridge α) (call : Nat) : Bool :=
  match b.calls[call]? with
  | some c => c.outcome.isNone
  | none => false

/-- What becomes of a thread that wants to call. -/
inductive Admission (α : Type) where
  | rejected
  | waiting (holder : Nat)
  | started (call : Nat) (b : Bridge α)

/-- Lets a thread in: not while it is inside of a call itself, and not before the call that holds
the bridge has returned. -/
def enter (b : Bridge α) (thread : Nat) (timeoutMs : UInt64) : Admission α :=
  if b.owner = some thread then .rejected
  else
    match b.holder with
    | some call => .waiting call
    | none =>
      let call := b.calls.length
      .started call {
        calls := b.calls ++ [⟨thread, timeoutMs, none⟩]
        holder := some call
        owner := some thread
        pending := some call }

/-- Decides a call, unless it is decided already. Tells whether it did. -/
def settle (b : Bridge α) (call : Nat) (result : Except ClientError α) : Bool × Bridge α :=
  if b.armed call then
    (true, { b with calls := b.calls.modify call fun c => { c with outcome := some result } })
  else (false, b)

/-- A completion delivers its result. -/
def complete (b : Bridge α) (call : Nat) (result : Except ClientError α) : Bool × Bridge α :=
  b.settle call result

/-- A completion is lost. -/
def drop (b : Bridge α) (call : Nat) : Bridge α := (b.settle call (.error .notConnected)).2

/-- Fails the call on record. -/
def failPending (b : Bridge α) (error : ClientError) : Bool × Bridge α :=
  match b.pending with
  | some call => b.settle call (.error error)
  | none => (false, b)

/-- The deadline of a call passes. -/
def expire (b : Bridge α) (call : Nat) : Bridge α :=
  match b.calls[call]? with
  | some c => (b.settle call (.error (.timeout c.timeoutMs))).2
  | none => b

/-- A decided call that holds the bridge returns. -/
def leave (b : Bridge α) (call : Nat) : Option (Except ClientError α × Bridge α) :=
  if b.holder = some call then
    (b.outcome? call).map fun result =>
      (result, { b with holder := none, owner := none, pending := none })
  else none

/-- The body of a call fails: its completion is lost and the bridge is free, but the call stays on
record, and its thread counts as inside of it. -/
def abandon (b : Bridge α) (call : Nat) : Bridge α :=
  { b.drop call with holder := none }

def text (b : Bridge α) : String :=
  "SyncBridge \x7b pending: " ++ (if b.pending.isSome then "Some" else "None") ++ ", .. \x7d"

end Bridge

end EndpointMonitor
