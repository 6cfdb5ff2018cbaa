import EndpointMonitor.Proofs.Bridge.Serialization
import Mathlib.Logic.Function.Basic

/-!
Threads that make calls through a bridge, also from inside of a call. A call is taken apart into the
turns between which other threads can act: it asks who owns the bridge, waits for the lock, becomes
the owner, goes on record, runs its body, waits for its result, goes off record, gives up ownership
and lets go of the lock. Without interruption these turns are what it is to enter a bridge and to
leave it.
-/

namespace EndpointMonitor.Bridge

variable {α : Type}

/-! ### Calls in turns -/

/-- A call that a thread makes, the calls that its body makes, one after the other, and whether the
body fails in the end. -/
structure Call where
  timeoutMs : UInt64
  body : List Call
  fails : Bool

/-- How far a call has come that was not rejected. -/
inductive Phase (α : Type) where
  | admitted
  | locked
  | begun (call : Nat)
  | running (call : Nat)
  | awaiting (call : Nat)
  | cleared (call : Nat) (result : Except ClientError α)
  | disowned (call : Nat) (result : Except ClientError α)

/-- A call that is being made, with what is left of its body. -/
structure Frame (α : Type) where
  phase : Phase α
  rest : Call

/-- The calls that a thread is inside of, the innermost first, and those that it makes after. -/
structure Caller (α : Type) where
  frames : List (Frame α)
  todo : List Call

/-- The call that a thread makes next, if it is to make one now. -/
def Caller.next? (x : Caller α) : Option Call :=
  match x.frames with
  | [] => x.todo.head?
  | ⟨.running _, rest⟩ :: _ => rest.body.head?
  | _ :: _ => none

/-- The thread without the call that it makes next. -/
def Caller.skip (x : Caller α) : Caller α :=
  match x.frames with
  | [] => { x with todo := x.todo.tail }
  | ⟨phase, rest⟩ :: outer =>
    { x with frames := ⟨phase, { rest with body := rest.body.tail }⟩ :: outer }

/-- How a call ends. -/
inductive CallReport (α : Type) where
  | rejected (thread : Nat) (error : ClientError)
  | returned (thread call : Nat) (result : Except ClientError α)
  | failed (thread call : Nat)

/-- A thread becomes the owner, and its call begins. -/
def begin (b : Bridge α) (thread : Nat) (timeoutMs : UInt64) : Bridge α :=
  { b with calls := b.calls ++ [⟨thread, timeoutMs, none⟩], owner := some thread }

/-- The next turn of a call, if it does not have to wait: what it does to the bridge, what is left
of the call, and how it ends, if it does. -/
def proceed (b : Bridge α) (thread : Nat) (f : Frame α) :
    Option (Bridge α × Option (Frame α) × Option (CallReport α)) :=
  match f.phase with
  | .admitted =>
    if b.holder = none then
      some ({ b with holder := some b.calls.length }, some { f with phase := .locked }, none)
    else none
  | .locked =>
    some (b.begin thread f.rest.timeoutMs, some { f with phase := .begun b.calls.length }, none)
  | .begun call =>
    some ({ b with pending := some call }, some { f with phase := .running call }, none)
  | .running call =>
    if f.rest.fails then some (b.abandon call, none, some (.failed thread call))
    else some (b, some { f with phase := .awaiting call }, none)
  | .awaiting call =>
    (b.outcome? call).map fun result =>
      ({ b with pending := none }, some { f with phase := .cleared call result }, none)
  | .cleared call result =>
    some ({ b with owner := none }, some { f with phase := .disowned call result }, none)
  | .disowned call result =>
    some ({ b with holder := none }, none, some (.returned thread call result))

/-- A bridge and the threads that use it. -/
structure Crew (α : Type) where
  bridge : Bridge α
  callers : Nat → Caller α

/-- Whatever happens besides the turns of the threads: completions are used or lost, calls are
failed from outside, deadlines pass. -/
def Step.isOutside : Step α → Bool
  | .enter _ _ | .leave _ => false
  | .complete _ _ | .drop _ | .failPending _ | .abort _ _ | .expire _ => true

inductive Happening (α : Type) where
  | turn (thread : Nat)
  | event (s : Step α) (outside : s.isOutside = true)

namespace Crew

/-- All threads are outside of the bridge and have their calls before them. -/
def start (plan : Nat → List Call) : Crew α := ⟨empty, fun thread => ⟨[], plan thread⟩⟩

def set (c : Crew α) (b : Bridge α) (thread : Nat) (x : Caller α) : Crew α :=
  ⟨b, Function.update c.callers thread x⟩

/-- A thread makes its next call, or takes the next turn of the innermost call that it is inside of.
A call is rejected if the thread owns the bridge. -/
def turn (c : Crew α) (thread : Nat) : Crew α × Option (CallReport α) :=
  let x := c.callers thread
  match x.next? with
  | some call =>
    if c.bridge.owner = some thread then
      (c.set c.bridge thread x.skip, some (.rejected thread reentrant))
    else
      (c.set c.bridge thread { x.skip with frames := ⟨.admitted, call⟩ :: x.skip.frames }, none)
  | none =>
    match x.frames with
    | [] => (c, none)
    | f :: outer =>
      match proceed c.bridge thread f with
      | none => (c, none)
      | some (b, left, report) =>
        (c.set b thread { x with frames := left.toList ++ outer }, report)

def act (c : Crew α) : Happening α → Crew α × Option (CallReport α)
  | .turn thread => c.turn thread
  | .event s _ => ({ c with bridge := c.bridge.step s }, none)

def step (c : Crew α) (h : Happening α) : Crew α := (c.act h).1

def report? (c : Crew α) (h : Happening α) : Option (CallReport α) := (c.act h).2

def run (c : Crew α) (happenings : List (Happening α)) : Crew α := happenings.foldl step c

/-- All reports of a run, in order. -/
def reports (c : Crew α) : List (Happening α) → List (CallReport α)
  | [] => []
  | h :: happenings => (c.report? h).toList ++ (c.step h).reports happenings

end Crew

/-! ### What a turn can be -/

/-- The turns of a call that was not rejected. -/
inductive Proceeds (b : Bridge α) (thread : Nat) :
    Frame α → Bridge α → Option (Frame α) → Option (CallReport α) → Prop where
  | locks {rest : Call} (free : b.holder = none) :
    Proceeds b thread ⟨.admitted, rest⟩ { b with holder := some b.calls.length }
      (some ⟨.locked, rest⟩) none
  | begins {rest : Call} :
    Proceeds b thread ⟨.locked, rest⟩ (b.begin thread rest.timeoutMs)
      (some ⟨.begun b.calls.length, rest⟩) none
  | registers {call : Nat} {rest : Call} :
    Proceeds b thread ⟨.begun call, rest⟩ { b with pending := some call }
      (some ⟨.running call, rest⟩) none
  | fails {call : Nat} {rest : Call} :
    Proceeds b thread ⟨.running call, rest⟩ (b.abandon call) none (some (.failed thread call))
  | waits {call : Nat} {rest : Call} :
    Proceeds b thread ⟨.running call, rest⟩ b (some ⟨.awaiting call, rest⟩) none
  | clears {call : Nat} {rest : Call} {result : Except ClientError α}
      (decided : b.outcome? call = some result) :
    Proceeds b thread ⟨.awaiting call, rest⟩ { b with pending := none }
      (some ⟨.cleared call result, rest⟩) none
  | disowns {call : Nat} {rest : Call} {result : Except ClientError α} :
    Proceeds b thread ⟨.cleared call result, rest⟩ { b with owner := none }
      (some ⟨.disowned call result, rest⟩) none
  | returns {call : Nat} {rest : Call} {result : Except ClientError α} :
    Proceeds b thread ⟨.disowned call result, rest⟩ { b with holder := none } none
      (some (.returned thread call result))

theorem proceeds {b b' : Bridge α} {thread : Nat} {f : Frame α} {left : Option (Frame α)}
    {report : Option (CallReport α)} (h : proceed b thread f = some (b', left, report)) :
    Proceeds b thread f b' left report := by
  obtain ⟨phase, rest⟩ := f
  cases phase with
  | admitted =>
    by_cases free : b.holder = none
    · simp only [proceed, if_pos free] at h
      cases h
      exact .locks free
    · simp only [proceed, if_neg free] at h
      cases h
  | locked =>
    cases h
    exact .begins
  | begun call =>
    cases h
    exact .registers
  | running call =>
    cases fails : rest.fails with
    | true =>
      simp only [proceed, fails, if_true] at h
      cases h
      exact .fails
    | false =>
      simp only [proceed, fails, Bool.false_eq_true, if_false] at h
      cases h
      exact .waits
  | awaiting call =>
    obtain ⟨result, decided, made⟩ := Option.map_eq_some_iff.1 h
    cases made
    exact .clears decided
  | cleared call result =>
    cases h
    exact .disowns
  | disowned call result =>
    cases h
    exact .returns

namespace Crew

variable {c : Crew α} {thread : Nat}

@[simp] theorem bridge_set (c : Crew α) (b : Bridge α) (thread : Nat) (x : Caller α) :
    (c.set b thread x).bridge = b := rfl

@[simp] theorem callers_set (c : Crew α) (b : Bridge α) (thread : Nat) (x : Caller α) :
    (c.set b thread x).callers thread = x := by
  simp [set]

theorem set_set (c : Crew α) (b b' : Bridge α) (thread : Nat) (x x' : Caller α) :
    (c.set b thread x).set b' thread x' = c.set b' thread x' := by
  simp [set]

theorem turn_rejected {call : Call} (next : (c.callers thread).next? = some call)
    (owns : c.bridge.owner = some thread) :
    c.turn thread = (c.set c.bridge thread (c.callers thread).skip,
      some (.rejected thread reentrant)) := by
  simp only [turn, next, if_pos owns]

theorem turn_admitted {call : Call} (next : (c.callers thread).next? = some call)
    (disowned : c.bridge.owner ≠ some thread) :
    c.turn thread = (c.set c.bridge thread { (c.callers thread).skip with
      frames := ⟨.admitted, call⟩ :: (c.callers thread).skip.frames }, none) := by
  simp only [turn, next, if_neg disowned]

/-- What a thread can do in its turn. -/
inductive Turned (c : Crew α) (thread : Nat) : Prop where
  | rejected {call : Call} (next : (c.callers thread).next? = some call)
      (owns : c.bridge.owner = some thread)
  | admitted {call : Call} (next : (c.callers thread).next? = some call)
      (disowned : c.bridge.owner ≠ some thread)
  | proceeded {f : Frame α} {outer : List (Frame α)} {b : Bridge α} {left : Option (Frame α)}
      {report : Option (CallReport α)} (next : (c.callers thread).next? = none)
      (within : (c.callers thread).frames = f :: outer)
      (moves : proceed c.bridge thread f = some (b, left, report))
      (after : c.turn thread =
        (c.set b thread { c.callers thread with frames := left.toList ++ outer }, report))
  | blocked (next : (c.callers thread).next? = none) (after : c.turn thread = (c, none))

theorem turned (c : Crew α) (thread : Nat) : Turned c thread := by
  cases next : (c.callers thread).next? with
  | some call =>
    by_cases owns : c.bridge.owner = some thread
    · exact .rejected next owns
    · exact .admitted next owns
  | none =>
    cases within : (c.callers thread).frames with
    | nil => exact .blocked next (by simp only [turn, next, within])
    | cons f outer =>
      cases moves : proceed c.bridge thread f with
      | none => exact .blocked next (by simp only [turn, next, within, moves])
      | some taken => exact .proceeded next within moves (by simp only [turn, next, within, moves])

/-- A thread that has no call to make takes the next turn of the one that it is making. -/
theorem turn_set {b b' : Bridge α} {f : Frame α} {outer frames : List (Frame α)} {todo : List Call}
    {left : Option (Frame α)} {report : Option (CallReport α)}
    (next : (Caller.mk (f :: outer) todo).next? = none)
    (moves : proceed b thread f = some (b', left, report)) (rest : left.toList ++ outer = frames) :
    (c.set b thread ⟨f :: outer, todo⟩).turn thread = (c.set b' thread ⟨frames, todo⟩, report) := by
  simp only [turn, callers_set, bridge_set, next, moves, set_set, rest]

/-! ### Turns that are not interrupted -/

theorem enter_eq_rejected_iff (b : Bridge α) (thread : Nat) (timeoutMs : UInt64) :
    b.enter thread timeoutMs = .rejected ↔ b.owner = some thread := by
  refine ⟨enter_eq_rejected, fun owns => ?_⟩
  simp only [enter, if_pos owns]

/-- Up to its body a call is what it is to enter a free bridge. -/
theorem run_enter {call : Call} {b : Bridge α} {n : Nat}
    (next : (c.callers thread).next? = some call)
    (entered : c.bridge.enter thread call.timeoutMs = .started n b) :
    c.run [.turn thread, .turn thread, .turn thread, .turn thread] =
      c.set b thread { (c.callers thread).skip with
        frames := ⟨.running n, call⟩ :: (c.callers thread).skip.frames } := by
  obtain ⟨free, disowned, rfl, rfl⟩ := enter_eq_started entered
  have admitted := turn_admitted next disowned
  generalize (c.callers thread).skip = x at admitted ⊢
  obtain ⟨outer, todo⟩ := x
  let n := c.bridge.calls.length
  let held : Bridge α := { c.bridge with holder := some n }
  have takes : proceed c.bridge thread ⟨.admitted, call⟩ =
      some (held, some ⟨.locked, call⟩, none) := if_pos free
  have locks : (c.set c.bridge thread ⟨⟨.admitted, call⟩ :: outer, todo⟩).turn thread =
      (c.set held thread ⟨⟨.locked, call⟩ :: outer, todo⟩, none) :=
    turn_set rfl takes rfl
  have begins : (c.set held thread ⟨⟨.locked, call⟩ :: outer, todo⟩).turn thread =
      (c.set (held.begin thread call.timeoutMs) thread ⟨⟨.begun n, call⟩ :: outer, todo⟩, none) :=
    turn_set rfl rfl rfl
  have registers : (c.set (held.begin thread call.timeoutMs) thread
        ⟨⟨.begun n, call⟩ :: outer, todo⟩).turn thread =
      (c.set (c.bridge.occupy thread call.timeoutMs) thread
        ⟨⟨.running n, call⟩ :: outer, todo⟩, none) :=
    turn_set rfl rfl rfl
  simp only [run, List.foldl_cons, List.foldl_nil, step, act]
  rw [admitted, locks, begins, registers]

/-- After its body a call is what it is to leave the bridge. -/
theorem run_leave {rest : Call} {outer : List (Frame α)} {b : Bridge α} {n : Nat}
    {result : Except ClientError α}
    (within : (c.callers thread).frames = ⟨.awaiting n, rest⟩ :: outer)
    (left : c.bridge.leave n = some (result, b)) :
    c.run [.turn thread, .turn thread, .turn thread] =
        c.set b thread { c.callers thread with frames := outer } ∧
      c.reports [.turn thread, .turn thread, .turn thread] = [.returned thread n result] := by
  obtain ⟨-, decided, rfl⟩ := leave_eq_some left
  have next : (c.callers thread).next? = none := by simp only [Caller.next?, within]
  let todo := (c.callers thread).todo
  let cleared : Bridge α := { c.bridge with pending := none }
  let disowned : Bridge α := { cleared with owner := none }
  have clears : c.turn thread =
      (c.set cleared thread ⟨⟨.cleared n result, rest⟩ :: outer, todo⟩, none) := by
    simp only [turn, next, within, proceed, decided, Option.map_some]
    rfl
  have disowns : (c.set cleared thread ⟨⟨.cleared n result, rest⟩ :: outer, todo⟩).turn thread =
      (c.set disowned thread ⟨⟨.disowned n result, rest⟩ :: outer, todo⟩, none) :=
    turn_set rfl rfl rfl
  have returns : (c.set disowned thread ⟨⟨.disowned n result, rest⟩ :: outer, todo⟩).turn thread =
      (c.set c.bridge.vacate thread ⟨outer, todo⟩, some (.returned thread n result)) :=
    turn_set rfl rfl rfl
  simp only [run, reports, List.foldl_cons, List.foldl_nil, step, report?, act]
  rw [clears, disowns, returns]
  exact ⟨rfl, rfl⟩

end Crew

end EndpointMonitor.Bridge
