import EndpointMonitor.Connection.Clock
import EndpointMonitor.Connection.Connect
import EndpointMonitor.Proofs.Connection.Lifecycle

/-!
The runs of a connection, in the smallest steps in which others can take part: an attempt starts in
one step and gets its channel in another, and every report of a channel and every timer is a step of
its own. The calls that a caller makes are runs of such steps.
-/

namespace EndpointMonitor.Connection

/-- What can be set on a connection at any time. -/
inductive Setting where
  | reconnectDelay (ms : UInt64)
  | sessionTimeout (ms : UInt64)
  | converter (converter : ConverterConfig)
  | subscriber (subscriber : String)

/-- What can happen to a connection. -/
inductive Step (σ : Type) where
  /-- A caller wants to connect, and waits for the outcome. -/
  | connect (waiter : Waiter)
  /-- An attempt gets what it asked for, a channel or an error. -/
  | created (generation : Nat) (result : Except ClientError Nat)
  | signal (signal : Signal)
  | ring (timer : Timer)
  /-- A blocked caller stops waiting for its attempt. -/
  | giveUp (generation : Nat) (timeoutMs : UInt64)
  | pass (ms : Nat)
  | configure (setting : Setting)
  /-- Blocked callers come and go. -/
  | callers (bridge : Bridge Unit) (awaited : Option Nat)
  /-- The transport changes by itself. -/
  | world (transport : σ)
  | invalidate

variable {σ : Type}

def configure (c : Connection σ) : Setting → Connection σ
  | .reconnectDelay ms => { c with reconnectDelayMs := ms }
  | .sessionTimeout ms => { c with sessionTimeoutMs := ms }
  | .converter converter => { c with converter }
  | .subscriber subscriber => { c with subscriber := some subscriber }

/-- Whether a timer is set and due. -/
def isDue (c : Connection σ) (t : Timer) : Bool := t ∈ c.timers && t.due ≤ c.now

variable [Transport σ]

/-- An alarm goes off. If it starts an attempt, its channel comes later. -/
def strike (c : Connection σ) : Alarm → Connection σ
  | .reconnect => (c.start .automatic none).1
  | .sessionDeadline generation timeoutMs => c.attemptFailed generation (.timeout timeoutMs)

/-- A timer that is not set, or not yet due, does not ring. -/
def step (c : Connection σ) : Step σ → Connection σ
  | .connect waiter => (c.start .manual (some waiter)).1
  | .created generation result => (c.resume generation result).1
  | .signal signal => c.receive signal
  | .ring t => if c.isDue t then { c with timers := c.timers.erase t }.strike t.alarm else c
  | .giveUp generation timeoutMs => c.attemptFailed generation (.timeout timeoutMs)
  | .pass ms => c.wait ms
  | .configure setting => c.configure setting
  | .callers bridge awaited => { c with bridge, awaited }
  | .world transport => { c with transport }
  | .invalidate => c.invalidate

def run (c : Connection σ) (steps : List (Step σ)) : Connection σ := steps.foldl step c

@[simp] theorem run_nil (c : Connection σ) : c.run [] = c := rfl

@[simp] theorem run_cons (c : Connection σ) (s : Step σ) (steps : List (Step σ)) :
    c.run (s :: steps) = (c.step s).run steps := rfl

theorem run_append (c : Connection σ) (steps more : List (Step σ)) :
    c.run (steps ++ more) = (c.run steps).run more := List.foldl_append

/-- What every step keeps, every run keeps. -/
theorem run_invariant {P : Connection σ → Prop} (keep : ∀ c s, P c → P (c.step s))
    {c : Connection σ} (h : P c) (steps : List (Step σ)) : P (c.run steps) := by
  induction steps generalizing c with
  | nil => exact h
  | cons s steps ih => exact ih (keep c s h)

end EndpointMonitor.Connection
