import EndpointMonitor.Proofs.Connection.Operation

/-!
What a connection has told so far. That makes no difference to what it does next.
-/

namespace EndpointMonitor.Connection

variable {σ : Type}

/-- The connection, if these events have come before all others. -/
def preceded (c : Connection σ) (earlier : List ConnectionEvent) : Connection σ :=
  { c with trace := earlier ++ c.trace }

/-- The connection, with all that it has told taken away. -/
def drained (c : Connection σ) : Connection σ := { c with trace := [] }

theorem preceded_drained (c : Connection σ) : c.drained.preceded c.trace = c := by
  simp only [preceded, drained, List.append_nil]

theorem channelLost_preceded (c : Connection σ) (earlier : List ConnectionEvent)
    (generation : Nat) :
    (c.preceded earlier).channelLost generation =
      (c.channelLost generation).preceded earlier := by
  cases up : c.isUp generation with
  | false => rw [channelLost_stale up, channelLost_stale (c := c.preceded earlier) up]
  | true =>
    by_cases told : c.state = .connected ∨ c.attempt = .manual
    · rw [channelLost_told up told, channelLost_told (c := c.preceded earlier) up told]
      simp only [preceded, interrupt, List.append_assoc]
    · rw [channelLost_untold up told, channelLost_untold (c := c.preceded earlier) up told]
      rfl

variable [Transport σ] (c : Connection σ) (earlier : List ConnectionEvent)

theorem attemptFailed_preceded (generation : Nat) (error : ClientError) :
    (c.preceded earlier).attemptFailed generation error =
      (c.attemptFailed generation error).preceded earlier := by
  cases attempting : c.isAttempting generation with
  | false =>
    rw [attemptFailed_stale attempting, attemptFailed_stale (c := c.preceded earlier) attempting]
  | true =>
    cases kind : c.attempt with
    | manual =>
      rw [attemptFailed_manual attempting kind,
        attemptFailed_manual (c := c.preceded earlier) attempting kind]
      simp only [preceded, List.append_assoc]
    | automatic =>
      rw [attemptFailed_automatic attempting kind,
        attemptFailed_automatic (c := c.preceded earlier) attempting kind]
      simp only [preceded, List.append_assoc]

theorem receive_preceded (signal : Signal) :
    (c.preceded earlier).receive signal = (c.receive signal).preceded earlier := by
  rcases signal with generation | ⟨generation, reason | reply⟩
  · exact channelLost_preceded c earlier generation
  · exact attemptFailed_preceded c earlier generation _
  · cases attempting : c.isAttempting generation with
    | false =>
      simp only [receive, sessionCreated_stale attempting,
        sessionCreated_stale (c := c.preceded earlier) attempting]
    | true =>
      simp only [receive, sessionCreated_ok attempting,
        sessionCreated_ok (c := c.preceded earlier) attempting]
      simp only [preceded, List.append_assoc]

theorem start_preceded (kind : AttemptKind) (waiter : Option Waiter) :
    ((c.preceded earlier).start kind waiter).1 = (c.start kind waiter).1.preceded earlier := by
  cases admitted : admission c.state kind with
  | refused outcome =>
    rw [start_refused admitted, start_refused (c := c.preceded earlier) admitted]
    simp only [preceded, List.append_assoc]
  | skipped => rw [start_skipped admitted, start_skipped (c := c.preceded earlier) admitted]
  | begun =>
    rw [start_begun admitted, start_begun (c := c.preceded earlier) admitted]
    simp only [preceded, List.append_assoc]

theorem handOver_preceded (generation channel : Nat) :
    ((c.preceded earlier).handOver generation channel).1 =
      (c.handOver generation channel).1.preceded earlier := by
  cases attempting : c.isAttempting generation with
  | false =>
    rw [handOver_stale attempting, handOver_stale (c := c.preceded earlier) attempting]
    simp only [preceded, List.append_assoc]
  | true =>
    cases encoded : c.codec.encode c.converter with
    | error error =>
      rw [handOver_unencoded attempting encoded,
        handOver_unencoded (c := c.preceded earlier) attempting encoded]
      exact attemptFailed_preceded { c with channel := some channel } earlier generation error
    | ok payload =>
      rw [handOver_requested attempting encoded,
        handOver_requested (c := c.preceded earlier) attempting encoded]
      simp only [preceded, List.append_assoc]

theorem invalidate_preceded :
    (c.preceded earlier).invalidate = c.invalidate.preceded earlier := by
  by_cases final : c.state = .invalidated
  · rw [invalidate_invalidated final, invalidate_invalidated (c := c.preceded earlier) final]
  · rw [invalidate_eq final, invalidate_eq (c := c.preceded earlier) final]
    simp only [preceded, List.append_assoc]

/-- A step does not depend on what the connection has told before. -/
theorem step_preceded (s : Step σ) :
    (c.preceded earlier).step s = (c.step s).preceded earlier := by
  cases s with
  | connect waiter => exact start_preceded c earlier .manual (some waiter)
  | created generation result =>
    cases result with
    | error error => exact attemptFailed_preceded c earlier generation error
    | ok channel => exact handOver_preceded c earlier generation channel
  | signal signal => exact receive_preceded c earlier signal
  | ring t =>
    have due : (c.preceded earlier).isDue t = c.isDue t := rfl
    simp only [step, due]
    split
    · cases alarm : t.alarm with
      | reconnect =>
        exact start_preceded { c with timers := c.timers.erase t } earlier .automatic none
      | sessionDeadline generation timeoutMs =>
        exact attemptFailed_preceded { c with timers := c.timers.erase t } earlier generation _
    · rfl
  | giveUp generation timeoutMs => exact attemptFailed_preceded c earlier generation _
  | configure setting => cases setting <;> rfl
  | invalidate => exact invalidate_preceded c earlier
  | pass ms | callers bridge awaited | world transport => rfl

theorem run_preceded (steps : List (Step σ)) :
    (c.preceded earlier).run steps = (c.run steps).preceded earlier := by
  induction steps generalizing c with
  | nil => rfl
  | cons s steps ih => rw [run_cons, run_cons, step_preceded, ih]

end EndpointMonitor.Connection
