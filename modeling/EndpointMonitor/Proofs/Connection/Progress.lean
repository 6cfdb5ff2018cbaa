import EndpointMonitor.Proofs.Connection.Operation
import EndpointMonitor.Proofs.Connection.ReconnectDelay

/-!
No connection gets stuck. An interrupted connection always has a reconnect timer, and an attempt
under way always has its deadline, which was set when it started.
-/

namespace EndpointMonitor.Connection

variable {σ : Type} [Transport σ]

/-! ### Deadlines -/

/-- The deadline that an attempt gets if it sends its session request now. -/
def deadline (c : Connection σ) (generation : Nat) : Timer :=
  ⟨c.now + c.sessionTimeoutMs.toNat, .sessionDeadline generation c.sessionTimeoutMs⟩

/-- A deadline stays set as long as its attempt is under way. -/
theorem deadline_step {c : Connection σ} {s : Step σ} {t : Timer} {generation : Nat}
    {timeoutMs : UInt64} (ha : t.alarm = .sessionDeadline generation timeoutMs)
    (known : generation ≤ c.generation) (set : t ∈ c.timers)
    (h : (c.step s).isAttempting generation = true) : t ∈ (c.step s).timers := by
  obtain ⟨attempting, turned⟩ := turn_of_isAttempting_step known h
  have going : c.turn s ≠ .ends := by
    rcases turned with ht | ht <;> simp [ht]
  rw [(step_turns c s).timers, Turn.timers_of_ne_ends _ _ going, List.mem_append]
  left
  cases s with
  | ring u =>
    rw [timersAfterRing]
    split
    · next due =>
      refine (List.mem_erase_of_ne ?_).2 set
      rintro rfl
      simp [turn, due, alarmTurn, ha, failureTurn, attempting] at turned
    · exact set
  | _ => exact set

theorem deadline_run {c : Connection σ} {steps : List (Step σ)} {t : Timer} {generation : Nat}
    {timeoutMs : UInt64} (ha : t.alarm = .sessionDeadline generation timeoutMs)
    (known : generation ≤ c.generation) (set : c.isAttempting generation = true → t ∈ c.timers)
    (h : (c.run steps).isAttempting generation = true) : t ∈ (c.run steps).timers := by
  induction steps generalizing c with
  | nil => exact set h
  | cons s steps ih =>
    refine ih (Nat.le_trans known (generation_le_step c s)) (fun attempting => ?_) h
    have before := (turn_of_isAttempting_step known attempting).1
    exact deadline_step ha known (set before) attempting

/-- An attempt that is under way with its channel has a deadline. -/
theorem deadline_of_created {c : Connection σ} {generation : Nat}
    {result : Except ClientError Nat} (known : generation ≤ c.generation)
    (h : (c.step (.created generation result)).isAttempting generation = true) :
    c.deadline generation ∈ (c.step (.created generation result)).timers := by
  obtain ⟨attempting, turned⟩ := turn_of_isAttempting_step known h
  have requests : c.turn (.created generation result) = .requests := by
    cases result with
    | error error => simp [turn, failureTurn, attempting] at turned
    | ok channel =>
      cases he : c.codec.encode c.converter <;>
        simp_all [turn, handOverTurn, failureTurn]
  have current := ((isAttempting_iff c generation).1 attempting).1
  rw [(step_turns c _).timers, requests]
  simp [deadline, current]

theorem reports_of_begun {c : Connection σ} {kind : AttemptKind}
    (h : admission c.state kind = .begun) (waiter : Option Waiter) :
    ∃ (losses : List Nat) (result : Except ClientError Nat) (signals : List Signal),
      c.reports kind waiter =
        losses.map (.signal <| .lost ·) ++
          .created (c.generation + 1) result :: signals.map .signal := by
  rw [reports, start_begun h]
  exact ⟨_, _, _, rfl⟩

theorem generation_of_tryConnect {c : Connection σ} {kind : AttemptKind}
    (h : admission c.state kind = .begun) (waiter : Option Waiter) :
    (c.tryConnect kind waiter).1.generation = c.generation + 1 := by
  obtain ⟨losses, result, signals, hr⟩ := reports_of_begun h waiter
  have quiet : ∀ s ∈ c.reports kind waiter, s.renews = false := by
    rw [hr]
    simp only [List.mem_append, List.mem_cons, List.mem_map]
    rintro s (⟨generation, -, rfl⟩ | rfl | ⟨signal, -, rfl⟩) <;> rfl
  rw [tryConnect_eq_run, generation_run _ quiet, start_begun h]

/-- An attempt that is still under way when it has been started has its deadline. -/
theorem deadline_of_tryConnect {c : Connection σ} {kind : AttemptKind}
    (h : admission c.state kind = .begun) (waiter : Option Waiter)
    (connecting : (c.tryConnect kind waiter).1.state = .connecting) :
    c.deadline (c.generation + 1) ∈ (c.tryConnect kind waiter).1.timers := by
  have attempting : (c.tryConnect kind waiter).1.isAttempting (c.generation + 1) = true :=
    (isAttempting_iff _ _).2 ⟨generation_of_tryConnect h waiter, connecting⟩
  obtain ⟨losses, result, signals, hr⟩ := reports_of_begun h waiter
  rw [tryConnect_eq_run, hr, run_append, run_cons] at attempting ⊢
  have begun : (c.start kind waiter).1.generation = c.generation + 1 := by rw [start_begun h]
  have settings : SameSettings c
      ((c.start kind waiter).1.run (losses.map fun generation => .signal (.lost generation))) := by
    refine (start_does c kind waiter).toSameSettings.trans (run_sameSettings _ ?_)
    simp only [List.mem_map]
    rintro s ⟨generation, -, rfl⟩
    rfl
  have known := begun ▸ generation_le_run (c.start kind waiter).1
    (losses.map fun generation => .signal (.lost generation))
  refine deadline_run rfl (Nat.le_trans known (generation_le_step _ _)) (fun up => ?_) attempting
  have made := deadline_of_created known up
  rwa [deadline, settings.now, settings.sessionTimeoutMs] at made

theorem tryConnect_deadline {c : Connection σ} {kind : AttemptKind} {waiter : Option Waiter}
    (connecting : (c.tryConnect kind waiter).1.state = .connecting) :
    (c.tryConnect kind waiter).1.generation = c.generation ∨
      (c.tryConnect kind waiter).1.generation = c.generation + 1 ∧
        c.deadline (c.generation + 1) ∈ (c.tryConnect kind waiter).1.timers := by
  cases h : admission c.state kind with
  | refused outcome =>
    left
    rw [tryConnect, start_refused h]
  | skipped =>
    left
    rw [tryConnect, start_skipped h]
  | begun =>
    exact .inr ⟨generation_of_tryConnect h waiter, deadline_of_tryConnect h waiter connecting⟩

/-- After an operation an attempt is either the one from before, or it has been started just now
and has its deadline. -/
theorem perform_deadline {c : Connection σ} {operation : Operation σ}
    (connecting : (c.perform operation).state = .connecting) :
    (c.perform operation).generation = c.generation ∨
      (c.perform operation).generation = c.generation + 1 ∧
        c.deadline (c.generation + 1) ∈ (c.perform operation).timers := by
  have quiet (steps : List (Step σ)) (h : ∀ s ∈ steps, s.renews = false) :
      (c.run steps).generation = c.generation := generation_run c h
  cases operation with
  | beginConnect thread timeoutMs =>
    simp only [perform, beginConnect] at connecting ⊢
    cases he : c.bridge.enter thread timeoutMs with
    | rejected | waiting holder => exact .inl rfl
    | started call bridge =>
      rw [he] at connecting
      exact tryConnect_deadline (c := { c with bridge }) connecting
  | connectWith completion => exact tryConnect_deadline connecting
  | fire t =>
    simp only [perform] at connecting ⊢
    split
    · next due =>
      rw [if_pos due] at connecting
      cases ha : t.alarm with
      | reconnect =>
        simp only [fire, ring, ha] at connecting ⊢
        exact tryConnect_deadline (c := { c with timers := c.timers.erase t }) connecting
      | sessionDeadline generation timeoutMs =>
        simp only [fire, ring, ha]
        exact .inl (generation_step { c with timers := c.timers.erase t }
          (s := .giveUp generation timeoutMs) rfl)
    · exact .inl rfl
  | finishConnect call =>
    rw [perform_eq_run]
    refine .inl (quiet _ ?_)
    simp only [stepsOf]
    split <;> simp [Step.renews]
  | expireConnect call => exact .inl (quiet [.callers _ _] (by simp [Step.renews]))
  | receive signal => exact .inl (quiet [.signal signal] (by simp [Step.renews]))
  | wait ms => exact .inl (quiet [.pass ms] (by simp [Step.renews]))
  | configure setting => exact .inl (quiet [.configure setting] (by simp [Step.renews]))
  | world transport => exact .inl (quiet [.world transport] (by simp [Step.renews]))
  | invalidate =>
    have ends := (invalidate_does c).state
    rw [perform] at connecting
    rw [connecting, turn] at ends
    split at ends
    · next invalidated => simp [invalidated] at ends
    · cases ends

/-- The attempt under way was started by one of the operations, and it has the deadline that was
due to it then. -/
def HasDeadline (c : Connection σ) (operations : List (Operation σ)) : Prop :=
  ∃ before operation after, operations = before ++ operation :: after ∧
    ((c.performAll before).perform operation).generation =
      (c.performAll before).generation + 1 ∧
    (c.performAll operations).generation = (c.performAll before).generation + 1 ∧
    (c.performAll before).deadline ((c.performAll before).generation + 1) ∈
      (c.performAll operations).timers

theorem hasDeadline_of_connecting {c : Connection σ} (rests : c.state ≠ .connecting)
    {operations : List (Operation σ)}
    (connecting : (c.performAll operations).state = .connecting) : c.HasDeadline operations := by
  induction operations using List.reverseRecOn with
  | nil => exact absurd connecting rests
  | append_singleton operations operation ih =>
    have last : c.performAll (operations ++ [operation]) =
        (c.performAll operations).perform operation := performAll_append c operations [operation]
    rw [last] at connecting
    rcases perform_deadline connecting with same | ⟨started, set⟩
    · rw [perform_eq_run] at connecting same last
      have attempting := (isAttempting_iff _ _).2 ⟨same, connecting⟩
      have before := isAttempting_of_run (Nat.le_refl _) attempting
      obtain ⟨early, first, late, rfl, began, current, set⟩ :=
        ih ((isAttempting_iff _ _).1 before).2
      refine ⟨early, first, late ++ [operation], by simp, began, ?_, ?_⟩
      · rw [last, same, current]
      · rw [last]
        exact deadline_run rfl (Nat.le_of_eq current.symm) (fun _ => set) (current ▸ attempting)
    · exact ⟨operations, operation, [], rfl, started, last ▸ started, last ▸ set⟩

theorem reconnects_run {c : Connection σ} (h : c.state = .interrupted → c.reconnects ≠ [])
    (steps : List (Step σ)) :
    (c.run steps).state = .interrupted → (c.run steps).reconnects ≠ [] := by
  refine run_invariant (P := fun c => c.state = .interrupted → c.reconnects ≠ [])
    (fun c s h is => ?_) h steps
  by_cases was : c.state = .interrupted
  · rw [reconnects_of_stays was is]
    exact h was
  · rw [reconnects_of_entered was is]
    simp

/-! ### Moving on -/

theorem generation_of_reconnect {c : Connection σ} {t : Timer}
    (interrupted : c.state = .interrupted) (due : c.isDue t = true) (ha : t.alarm = .reconnect) :
    (c.perform (.fire t)).generation = c.generation + 1 := by
  simp only [perform, due, if_true, fire, ring, ha]
  exact generation_of_tryConnect (c := { c with timers := c.timers.erase t })
    (by simp [admission, interrupted]) none

theorem state_of_attemptFailed {c : Connection σ} {generation : Nat}
    (attempting : c.isAttempting generation = true) (error : ClientError) :
    (c.attemptFailed generation error).state ≠ .connecting := by
  rw [(attemptFailed_does c generation error).state, failureTurn, if_pos attempting, Turn.state]
  split <;> simp

theorem state_of_deadline {c : Connection σ} {t : Timer} {generation : Nat} {timeoutMs : UInt64}
    (attempting : c.isAttempting generation = true) (due : c.isDue t = true)
    (ha : t.alarm = .sessionDeadline generation timeoutMs) :
    (c.perform (.fire t)).state ≠ .connecting := by
  simp only [perform, due, if_true, fire, ring, ha]
  exact state_of_attemptFailed (c := { c with timers := c.timers.erase t }) attempting _

/-- An interrupted connection has a reconnect timer, which starts an attempt when it rings. An
attempt under way has the deadline that was due to it when it started, which ends it. -/
theorem always_scheduled (codec : Codec) (transport : σ) (operations : List (Operation σ)) :
    let c := (new codec transport).performAll operations
    (c.state = .interrupted →
      ∃ t ∈ c.timers, t.alarm = .reconnect ∧ ∀ ms, t.due ≤ c.now + ms →
        ((c.wait ms).perform (.fire t)).generation = c.generation + 1) ∧
    (c.state = .connecting →
      (new codec transport).HasDeadline operations ∧
      ∀ t ∈ c.timers, ∀ timeoutMs, t.alarm = .sessionDeadline c.generation timeoutMs →
        ∀ ms, t.due ≤ c.now + ms → ((c.wait ms).perform (.fire t)).state ≠ .connecting) := by
  intro c
  refine ⟨fun interrupted => ?_, fun connecting => ⟨?_, fun t ht timeoutMs ha ms due => ?_⟩⟩
  · obtain ⟨steps, hs⟩ := performAll_eq_run (new codec transport) operations
    have set : c.reconnects ≠ [] := by
      have h := reconnects_run (c := new codec transport) (by simp [new]) steps
      rw [← hs] at h
      exact h interrupted
    obtain ⟨t, ht⟩ := List.exists_mem_of_ne_nil _ set
    obtain ⟨ht, ha⟩ : t ∈ c.timers ∧ t.alarm = .reconnect := by
      simpa [reconnects, Timer.isReconnect] using ht
    refine ⟨t, ht, ha, fun ms due => ?_⟩
    exact generation_of_reconnect (c := c.wait ms) interrupted (by simp [isDue, wait, ht, due]) ha
  · exact hasDeadline_of_connecting (by simp [new]) connecting
  · exact state_of_deadline (c := c.wait ms) ((isAttempting_iff _ _).2 ⟨rfl, connecting⟩)
      (by simp [isDue, wait, ht, due]) ha

theorem scheduled_without_reply :
    let operations : List (Operation ScriptedTransport) :=
      [.world { ScriptedTransport.initial with session := .drop }, .wait 7, .connectWith 0]
    let c := (new ⟨4194304⟩ ScriptedTransport.initial).performAll operations
    c.state = .connecting ∧ (new ⟨4194304⟩ ScriptedTransport.initial).HasDeadline operations ∧
      ((c.wait 5000).perform (.fire ⟨5007, .sessionDeadline 1 5000⟩)).state ≠ .connecting := by
  intro operations c
  have connecting : c.state = .connecting := rfl
  obtain ⟨set, ends⟩ :=
    (always_scheduled ⟨4194304⟩ ScriptedTransport.initial operations).2 connecting
  refine ⟨connecting, set, ?_⟩
  exact ends ⟨5007, .sessionDeadline 1 5000⟩ (by decide) 5000 rfl 5000 (by decide)

end EndpointMonitor.Connection
