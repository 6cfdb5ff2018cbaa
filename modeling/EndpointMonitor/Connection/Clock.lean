import EndpointMonitor.Connection.Lifecycle

/-!
The clock of a connection. Time passes in steps that never skip a timer.
-/

namespace EndpointMonitor.Connection

variable {σ : Type}

/-- Time passes; timers that fall due do not ring yet. -/
def wait (c : Connection σ) (ms : Nat) : Connection σ := { c with now := c.now + ms }

/-- The timer that is due first; of several, the one that was set first. -/
def nextTimer? (c : Connection σ) : Option Timer :=
  c.timers.foldl (fun best t =>
    match best with
    | none => some t
    | some b => if t.due < b.due then some t else some b) none

variable [Transport σ]

def ring (c : Connection σ) : Alarm → Connection σ
  | .reconnect => (c.tryConnect .automatic none).1
  | .sessionDeadline generation timeoutMs => c.attemptFailed generation (.timeout timeoutMs)

/-- A timer rings, once. -/
def fire (c : Connection σ) (t : Timer) : Connection σ :=
  { c with timers := c.timers.erase t }.ring t.alarm

/-- The first timer rings, if it is due. -/
def fireNext (c : Connection σ) : Connection σ :=
  match c.nextTimer? with
  | some t => if t.due ≤ c.now then c.fire t else c
  | none => c

/-- The number of timers that are due. -/
def dueCount (c : Connection σ) : Nat := c.timers.countP (·.due ≤ c.now)

/-- As many timers ring as are due. -/
def fireDue (c : Connection σ) : Connection σ := Nat.repeat fireNext c.dueCount c

/-- How long it takes until a timer can ring: until it is due, but not no time at all. -/
def delayOf (c : Connection σ) (t : Timer) : Nat := max 1 (t.due - c.now)

/-- Time passes, and timers ring as they fall due. -/
def elapse (c : Connection σ) (ms : Nat) : Connection σ :=
  match c.nextTimer? with
  | some t =>
    if c.delayOf t ≤ ms then ((c.wait (c.delayOf t)).fireDue).elapse (ms - c.delayOf t)
    else c.wait ms
  | none => c.wait ms
termination_by ms
decreasing_by
  simp only [delayOf] at *
  omega

/-- Time passes, after what is overdue has rung. -/
def advance (c : Connection σ) (ms : Nat) : Connection σ := c.fireDue.elapse ms

end EndpointMonitor.Connection
