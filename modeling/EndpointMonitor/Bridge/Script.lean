import EndpointMonitor.Bridge

/-!
Callers of a bridge that follow a script: what the body of a call does with its completion, and how
calls on several threads interleave.
-/

namespace EndpointMonitor.Bridge

/-- One thing that the body of a call does. Completing, parking and dropping use the completion up,
and with it the body. -/
inductive Action (α : Type) where
  | complete (result : Except ClientError α)
  | completeLater (result : Except ClientError α) (afterMs : Nat)
  | park (name : String)
  | failPending (error : ClientError)
  | reenter
  | fail
  | drop

/-- What a body notes about its run. -/
inductive Note where
  | began (onRecord : Bool)
  | completed (accepted : Bool)
  | failedPending (accepted : Bool)
  | reentered
  deriving DecidableEq

/-- How a call ends: with a result, without having been let in, or with a failed body. -/
inductive End (α : Type) where
  | returned (result : Except ClientError α)
  | rejected
  | failed

structure Report (α : Type) where
  ending : End α
  notes : List Note

/-- The bridge and what scripts keep beside it: parked completions, and started calls that have
not been joined. -/
structure Session (α : Type) where
  bridge : Bridge α
  parked : List (String × Nat)
  started : List (String × Nat)

namespace Session

variable {α : Type}

def empty : Session α := ⟨.empty, [], []⟩

/-- How the body of a call left its completion. -/
inductive Leftover (α : Type) where
  | used
  | later (result : Except ClientError α) (afterMs : Nat)
  | failed

/-- Parks a completion; one that was parked under the same name before is lost. -/
def park (s : Session α) (name : String) (call : Nat) : Session α :=
  let bridge := match s.parked.lookup name with
    | some old => s.bridge.drop old
    | none => s.bridge
  { s with bridge, parked := (name, call) :: s.parked.filter (·.1 ≠ name) }

/-- Runs the body of a call. A call from inside of it is rejected. -/
def runBody (call : Nat) (s : Session α) : List (Action α) → Session α × List Note × Leftover α
  | [] => ({ s with bridge := s.bridge.drop call }, [], .used)
  | .complete result :: _ =>
    let (accepted, bridge) := s.bridge.complete call result
    ({ s with bridge }, [.completed accepted], .used)
  | .completeLater result afterMs :: _ => (s, [], .later result afterMs)
  | .park name :: _ => (s.park name call, [], .used)
  | .failPending error :: rest =>
    let (accepted, bridge) := s.bridge.failPending error
    let (s, notes, leftover) := runBody call { s with bridge } rest
    (s, .failedPending accepted :: notes, leftover)
  | .reenter :: rest =>
    let (s, notes, leftover) := runBody call s rest
    (s, .reentered :: notes, leftover)
  | .fail :: _ => ({ s with bridge := s.bridge.abandon call }, [], .failed)
  | .drop :: _ => ({ s with bridge := s.bridge.drop call }, [], .used)

/-- Waits until a call is decided, at the latest by its deadline, and lets it return. -/
def await (s : Session α) (call : Nat) : Option (Except ClientError α) × Session α :=
  let bridge := s.bridge.expire call
  match bridge.leave call with
  | some (result, bridge) => (some result, { s with bridge })
  | none => (none, { s with bridge })

/-- Enters the bridge once the call that holds it has returned. -/
def enter (s : Session α) (thread : Nat) (timeoutMs : UInt64) : Option (Nat × Session α) :=
  match s.bridge.enter thread timeoutMs with
  | .rejected => none
  | .started call bridge => some (call, { s with bridge })
  | .waiting holder =>
    let s := (s.await holder).2
    match s.bridge.enter thread timeoutMs with
    | .started call bridge => some (call, { s with bridge })
    | .rejected | .waiting _ => none

/-- The thread on which scripts run calls that they do not start elsewhere. -/
def mainThread : Nat := 0

/-- A call on the main thread. -/
def invoke (s : Session α) (timeoutMs : UInt64) (body : List (Action α)) :
    Report α × Session α :=
  match s.enter mainThread timeoutMs with
  | none => (⟨.rejected, []⟩, s)
  | some (call, s) =>
    let began := Note.began (s.bridge.pending = some call)
    let (s, notes, leftover) := s.runBody call body
    let s := match leftover with
      | .later result afterMs =>
        if afterMs < timeoutMs.toNat then { s with bridge := (s.bridge.complete call result).2 }
        else s
      | .used | .failed => s
    match leftover with
    | .failed => (⟨.failed, began :: notes⟩, s)
    | .used | .later _ _ =>
      match s.await call with
      | (some result, s) => (⟨.returned result, began :: notes⟩, s)
      | (none, s) => (⟨.failed, began :: notes⟩, s)

/-- A call on a thread of its own, whose body parks the completion. -/
def start (s : Session α) (name : String) (timeoutMs : UInt64) : Session α :=
  match s.enter (s.bridge.calls.length + 1) timeoutMs with
  | none => s
  | some (call, s) =>
    let s := s.park name call
    { s with started := (name, call) :: s.started.filter (·.1 ≠ name) }

/-- Waits for a started call. A call that has returned before keeps its result. -/
def join (s : Session α) (name : String) : Option (Report α) × Session α :=
  match s.started.lookup name with
  | none => (none, s)
  | some call =>
    let s := { s with started := s.started.filter (·.1 ≠ name) }
    let s := (s.await call).2
    match s.bridge.outcome? call with
    | some result => (some ⟨.returned result, [.began true]⟩, s)
    | none => (none, s)

/-- Takes a parked completion. -/
def take (s : Session α) (name : String) : Option Nat × Session α :=
  (s.parked.lookup name, { s with parked := s.parked.filter (·.1 ≠ name) })

/-- Completes a parked completion, if there is one. -/
def complete (s : Session α) (name : String) (result : Except ClientError α) :
    Option Bool × Session α :=
  match s.take name with
  | (none, s) => (none, s)
  | (some call, s) =>
    let (accepted, bridge) := s.bridge.complete call result
    (some accepted, { s with bridge })

/-- Loses a parked completion; tells whether there was one. -/
def drop (s : Session α) (name : String) : Bool × Session α :=
  match s.take name with
  | (none, s) => (false, s)
  | (some call, s) => (true, { s with bridge := s.bridge.drop call })

/-- Whether a call is pending. A started call that is decided returns at once. -/
def isPending (s : Session α) : Bool :=
  match s.bridge.pending with
  | none => false
  | some call => s.bridge.holder ≠ some call || s.bridge.armed call

end Session

end EndpointMonitor.Bridge
