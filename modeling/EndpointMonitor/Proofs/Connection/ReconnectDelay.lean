import EndpointMonitor.Connection.Scripted
import EndpointMonitor.Proofs.Connection.Turn
import Mathlib.Data.List.Induction

/-!
How long an interrupted connection waits before it tries again. An interruption sets a timer of its
own, but a timer that an earlier interruption has left behind rings as well, and then the delay is
cut short.
-/

namespace EndpointMonitor

def Timer.isReconnect (t : Timer) : Bool := t.alarm = .reconnect

namespace Connection

variable {σ : Type}

def reconnects (c : Connection σ) : List Timer := c.timers.filter (·.isReconnect)

/-- The timer that an interruption sets when it begins. -/
def reconnectTimer (c : Connection σ) : Timer := ⟨c.now + c.reconnectDelayMs.toNat, .reconnect⟩

variable [Transport σ]

/-- A run is interrupted since its step `s`: that step led there, and no later one away from it. -/
structure InterruptedSince (c : Connection σ) (before : List (Step σ)) (s : Step σ)
    (after : List (Step σ)) : Prop where
  entered : (c.run before).state ≠ .interrupted
  stays : ∀ part, part <+: after → (((c.run before).step s).run part).state = .interrupted

/-- At the end of a run the connection has been interrupted for the whole delay that was set when
the interruption began. -/
def DelayPassed (c : Connection σ) (steps : List (Step σ)) : Prop :=
  ∃ before s after, steps = before ++ s :: after ∧ c.InterruptedSince before s after ∧
    ((c.run before).step s).reconnectTimer.due ≤ (c.run steps).now

/-- No caller connects while the connection is interrupted. -/
def NoTakeover (c : Connection σ) (steps : List (Step σ)) : Prop :=
  ∀ before waiter after, steps = before ++ .connect waiter :: after →
    (c.run before).state ≠ .interrupted

theorem exists_interruptedSince {c : Connection σ} (idle : c.state ≠ .interrupted)
    {steps : List (Step σ)} (h : (c.run steps).state = .interrupted) :
    ∃ before s after, steps = before ++ s :: after ∧ c.InterruptedSince before s after := by
  induction steps using List.reverseRecOn with
  | nil => exact absurd h idle
  | append_singleton steps s ih =>
    by_cases hs : (c.run steps).state = .interrupted
    · obtain ⟨before, s₀, after, rfl, since⟩ := ih hs
      refine ⟨before, s₀, after ++ [s], by simp, since.entered, fun part hp => ?_⟩
      rcases List.prefix_concat_iff.1 hp with rfl | hp
      · simpa [run_append] using h
      · exact since.stays part hp
    · refine ⟨steps, s, [], by simp, hs, fun part hp => ?_⟩
      rw [List.prefix_nil.1 hp]
      simpa [run_append] using h

omit [Transport σ] in
theorem isOutside_of_turn {c : Connection σ} {s : Step σ} (h : c.turn s ≠ .rests) :
    s.isOutside = false := by
  cases s with
  | pass ms | configure setting => exact absurd rfl h
  | _ => rfl

/-- A step that makes a difference leaves the delay alone. -/
theorem reconnectTimer_step {c : Connection σ} {s : Step σ} (h : c.turn s ≠ .rests) :
    (c.step s).reconnectTimer = c.reconnectTimer := by
  have same := step_sameSettings c (isOutside_of_turn h)
  rw [reconnectTimer, same.now, same.reconnectDelayMs]
  rfl

/-- Only a failure or a loss interrupts a connection, and either sets a timer. -/
theorem reconnects_of_entered {c : Connection σ} {s : Step σ} (entered : c.state ≠ .interrupted)
    (h : (c.step s).state = .interrupted) :
    (c.step s).reconnects =
      (c.timersAfterRing s).filter (·.isReconnect) ++ [(c.step s).reconnectTimer] := by
  have turned : c.turn s ≠ .rests := by
    intro ht
    rw [(step_turns c s).state, ht] at h
    exact entered h
  rw [reconnectTimer_step turned, reconnects, (step_turns c s).timers]
  rw [(step_turns c s).state] at h
  have allowed := turn_allowed c s
  cases ht : c.turn s with
  | fails error =>
    cases ha : c.attempt with
    | manual => simp [ht, ha] at h
    | automatic => simp [ha, reconnectTimer, Timer.isReconnect]
  | loses => simp [reconnectTimer, Timer.isReconnect]
  | requests =>
    rw [ht] at h
    exact absurd h entered
  | rests => exact absurd ht turned
  | begins kind | opens | ends => simp [ht] at h

theorem turn_of_stays {c : Connection σ} {s : Step σ} (interrupted : c.state = .interrupted)
    (h : (c.step s).state = .interrupted) : c.turn s = .rests := by
  have allowed := turn_allowed c s
  rw [(step_turns c s).state] at h
  cases ht : c.turn s with
  | rests => rfl
  | begins kind | ends => simp [ht] at h
  | requests | opens | fails error | loses => simp [ht, Turn.Allowed, interrupted] at allowed

/-- While a connection stays interrupted, its reconnect timers stay as they are. -/
theorem reconnects_of_stays {c : Connection σ} {s : Step σ} (interrupted : c.state = .interrupted)
    (h : (c.step s).state = .interrupted) : (c.step s).reconnects = c.reconnects := by
  have ht := turn_of_stays interrupted h
  rw [reconnects, (step_turns c s).timers, ht, Turn.timers_of_ne_ends _ _ (by simp)]
  rw [Turn.timer?, Option.toList_none, List.append_nil]
  cases s with
  | ring t =>
    rw [timersAfterRing]
    split
    · next due =>
      have notReconnect : t.isReconnect = false := by
        cases ha : t.alarm with
        | reconnect => simp [turn, due, alarmTurn, startTurn, admission, ha, interrupted] at ht
        | sessionDeadline generation timeoutMs => simp [Timer.isReconnect, ha]
      rw [← List.erase_filter, List.erase_of_not_mem (by simp [notReconnect])]
      rfl
    · rfl
  | _ => rfl

/-- An interrupted connection still has the timer that its interruption has set. -/
theorem InterruptedSince.reconnects_eq {c : Connection σ} {before : List (Step σ)} {s : Step σ}
    {after : List (Step σ)} (since : c.InterruptedSince before s after) :
    (c.run (before ++ s :: after)).reconnects =
      ((c.run before).timersAfterRing s).filter (·.isReconnect) ++
        [((c.run before).step s).reconnectTimer] := by
  obtain ⟨entered, stays⟩ := since
  rw [run_append, run_cons]
  induction after using List.reverseRecOn with
  | nil => exact reconnects_of_entered entered (stays [] (List.prefix_refl []))
  | append_singleton after u ih =>
    have still := stays after (List.prefix_append after [u])
    have now := stays (after ++ [u]) (List.prefix_refl _)
    rw [run_append] at now ⊢
    rw [run_cons, run_nil, reconnects_of_stays still now]
    exact ih fun part hp => stays part (hp.trans (List.prefix_append after [u]))

/-- A reconnect timer is set while the connection is interrupted, and at no other time. -/
def OneReconnect (c : Connection σ) : Prop :=
  c.reconnects.length = if c.state = .interrupted then 1 else 0

omit [Transport σ] in
theorem filter_timersAfterRing_sublist (c : Connection σ) (s : Step σ) :
    ((c.timersAfterRing s).filter (·.isReconnect)).Sublist c.reconnects := by
  refine List.Sublist.filter _ ?_
  cases s with
  | ring t =>
    rw [timersAfterRing]
    split
    · exact List.erase_sublist
    · exact List.Sublist.refl _
  | _ => exact List.Sublist.refl _

/-- When an interruption ends by itself, its timer is gone. -/
theorem reconnects_of_left {c : Connection σ} (one : c.reconnects.length = 1)
    (interrupted : c.state = .interrupted) {s : Step σ} (alone : ∀ waiter, s ≠ .connect waiter)
    (left : (c.step s).state ≠ .interrupted) : (c.step s).reconnects = [] := by
  rw [reconnects, (step_turns c s).timers]
  rw [(step_turns c s).state] at left
  have allowed := turn_allowed c s
  have taken := turn_takenBy c s
  cases ht : c.turn s with
  | begins kind =>
    rw [ht] at taken
    cases kind with
    | manual =>
      obtain ⟨waiter, hs⟩ := taken
      exact absurd hs (alone waiter)
    | automatic =>
      obtain ⟨t, rfl, due, ha⟩ := taken
      have set : t ∈ c.reconnects := by
        simp only [isDue, Bool.and_eq_true, decide_eq_true_eq] at due
        simp [reconnects, Timer.isReconnect, ha, due.1]
      obtain ⟨only, ho⟩ := List.length_eq_one_iff.1 one
      rw [ho, List.mem_singleton] at set
      rw [Turn.timers_of_ne_ends _ _ (by simp), Turn.timer?, Option.toList_none, List.append_nil,
        timersAfterRing, if_pos due, ← List.erase_filter]
      change c.reconnects.erase t = []
      simp [ho, set]
  | ends => rfl
  | rests => exact absurd (by rw [ht]; exact interrupted) left
  | requests | opens | fails error | loses => simp [ht, Turn.Allowed, interrupted] at allowed

/-- Outside of interruptions no reconnect timer is set. -/
theorem reconnects_of_apart {c : Connection σ} {s : Step σ} (none : c.reconnects = [])
    (apart : (c.step s).state ≠ .interrupted) : (c.step s).reconnects = [] := by
  have kept : (c.timersAfterRing s).filter (·.isReconnect) = [] :=
    List.sublist_nil.1 (none ▸ filter_timersAfterRing_sublist c s)
  rw [reconnects, (step_turns c s).timers]
  rw [(step_turns c s).state] at apart
  cases ht : c.turn s with
  | fails error =>
    cases ha : c.attempt with
    | manual => simpa [ha] using kept
    | automatic => simp [ht, ha] at apart
  | loses => simp [ht] at apart
  | ends => rfl
  | requests => simpa [Timer.isReconnect] using kept
  | begins kind | opens | rests => simpa using kept

theorem OneReconnect.step {c : Connection σ} (h : c.OneReconnect) {s : Step σ}
    (alone : ∀ waiter, s = .connect waiter → c.state ≠ .interrupted) :
    (c.step s).OneReconnect := by
  unfold OneReconnect at h ⊢
  by_cases was : c.state = .interrupted <;> by_cases is : (c.step s).state = .interrupted
  · rw [reconnects_of_stays was is, h, if_pos was, if_pos is]
  · rw [if_pos was] at h
    rw [reconnects_of_left h was (fun waiter hs => alone waiter hs was) is, if_neg is,
      List.length_nil]
  · rw [if_neg was, List.length_eq_zero_iff] at h
    have kept := List.sublist_nil.1 (h ▸ filter_timersAfterRing_sublist c s)
    rw [reconnects_of_entered was is, kept, if_pos is, List.nil_append, List.length_singleton]
  · rw [if_neg was, List.length_eq_zero_iff] at h
    rw [reconnects_of_apart h is, if_neg is, List.length_nil]

theorem oneReconnect_of_noTakeover {c : Connection σ} (h : c.OneReconnect)
    {steps : List (Step σ)} (alone : c.NoTakeover steps) : (c.run steps).OneReconnect := by
  induction steps using List.reverseRecOn with
  | nil => exact h
  | append_singleton steps s ih =>
    rw [run_append]
    refine OneReconnect.step (ih fun before waiter after hs => ?_) fun waiter hs => ?_
    · exact alone before waiter (after ++ [s]) (by simp [hs])
    · exact alone steps waiter [] (by simp [hs])

theorem DelayPassed.newest_due {c : Connection σ} {steps : List (Step σ)}
    (passed : c.DelayPassed steps) :
    ∃ newest, (c.run steps).reconnects.getLast? = some newest ∧
      newest.due ≤ (c.run steps).now := by
  obtain ⟨before, s, after, rfl, since, due⟩ := passed
  exact ⟨_, by rw [since.reconnects_eq, List.getLast?_concat], due⟩

/-- An automatic attempt keeps to the delay exactly if the newest reconnect timer has fallen due.
Otherwise it has been started by a timer that was set before the connection was interrupted, and
that happens only after a caller has connected while the connection was interrupted. -/
theorem delayPassed_iff_newest_due (codec : Codec) (transport : σ) (steps : List (Step σ))
    (s : Step σ) (starts : ((new codec transport).run steps).turn s = .begins .automatic) :
    let c := new codec transport
    (c.DelayPassed steps ↔
      ∃ newest, (c.run steps).reconnects.getLast? = some newest ∧
        newest.due ≤ (c.run steps).now) ∧
    (¬c.DelayPassed steps →
      ∃ t before u after, s = .ring t ∧ steps = before ++ u :: after ∧
        c.InterruptedSince before u after ∧ t ∈ (c.run before).timers) ∧
    (c.NoTakeover steps → c.DelayPassed steps) := by
  intro c
  have allowed := turn_allowed (c.run steps) s
  have taken := turn_takenBy (c.run steps) s
  rw [starts] at allowed taken
  have interrupted : (c.run steps).state = .interrupted := allowed.elim id (by simp)
  obtain ⟨t, rfl, due, ha⟩ := taken
  obtain ⟨set, past⟩ : t ∈ (c.run steps).reconnects ∧ t.due ≤ (c.run steps).now := by
    simpa [isDue, reconnects, Timer.isReconnect, ha] using due
  obtain ⟨before, u, after, rfl, since⟩ :=
    exists_interruptedSince (c := c) (by simp [c, new]) interrupted
  have pending := since.reconnects_eq
  have keeps (h : ∃ newest, (c.run (before ++ u :: after)).reconnects.getLast? = some newest ∧
      newest.due ≤ (c.run (before ++ u :: after)).now) : c.DelayPassed (before ++ u :: after) := by
    obtain ⟨newest, hn, passed⟩ := h
    rw [pending, List.getLast?_concat] at hn
    exact ⟨before, u, after, rfl, since, Option.some.inj hn ▸ passed⟩
  refine ⟨⟨DelayPassed.newest_due, keeps⟩, fun early => ?_, fun alone => keeps ?_⟩
  · refine ⟨t, before, u, after, rfl, rfl, since, ?_⟩
    rw [pending, List.mem_append, List.mem_singleton] at set
    rcases set with old | rfl
    · exact mem_of_mem_timersAfterRing (List.mem_filter.1 old).1
    · exact absurd ⟨before, u, after, rfl, since, past⟩ early
  · have one := oneReconnect_of_noTakeover (by simp [OneReconnect, c, new, reconnects]) alone
    rw [OneReconnect, if_pos interrupted, List.length_eq_one_iff] at one
    obtain ⟨only, ho⟩ := one
    rw [ho, List.mem_singleton] at set
    exact ⟨t, by rw [ho, List.getLast?_singleton, set], past⟩

/-- A connection comes up, and its channel is lost. -/
def upAndLost (generation : Nat) : List (Step ScriptedTransport) :=
  [.connect (.completion generation), .created generation (.ok generation),
    .signal (.sessionReply generation (.ok .done)), .signal (.lost generation)]

theorem delayPassed_after_loss :
    let c := new ⟨4194304⟩ ScriptedTransport.initial
    let steps := upAndLost 1 ++ [.pass 3000]
    (c.run steps).turn (.ring ⟨3000, .reconnect⟩) = .begins .automatic ∧ c.DelayPassed steps := by
  have starts : ((new ⟨4194304⟩ ScriptedTransport.initial).run (upAndLost 1 ++ [.pass 3000])).turn
      (.ring ⟨3000, .reconnect⟩) = .begins .automatic := rfl
  refine ⟨starts, (delayPassed_iff_newest_due _ _ _ _ starts).1.2 ?_⟩
  exact ⟨⟨3000, .reconnect⟩, rfl, by decide⟩

/-- The timer of a first loss outlives a manual connect. It starts an automatic attempt one second
after a second loss, though the delay is three seconds. -/
theorem delay_cut_short :
    let c := new ⟨4194304⟩ ScriptedTransport.initial
    let steps := upAndLost 1 ++ (upAndLost 2).take 3 ++
      [.pass 2000, .signal (.lost 2), .pass 1000]
    (c.run steps).turn (.ring ⟨3000, .reconnect⟩) = .begins .automatic ∧ ¬c.DelayPassed steps := by
  refine ⟨rfl, fun passed => ?_⟩
  obtain ⟨newest, hn, due⟩ := passed.newest_due
  obtain rfl : ⟨5000, .reconnect⟩ = newest := Option.some.inj hn
  exact absurd due (by decide)

end Connection

end EndpointMonitor
