import EndpointMonitor.Proofs.Connection.Operation

/-!
The transport below a connection. What it keeps when it is asked for channels and sessions, and when
channels are torn down, every operation of the connection keeps.
-/

namespace EndpointMonitor.Connection

variable {σ : Type} [Transport σ]

/-- What the transport keeps whatever it is asked to do. -/
structure Endures (P : σ → Prop) : Prop where
  create : ∀ transport generation, P transport → P (Transport.create transport generation).2
  openSession : ∀ transport channel generation payload, P transport →
    P (Transport.openSession transport channel generation payload).2
  close : ∀ transport channel, P transport → P (Transport.close transport channel)

theorem Endures.closeAll {P : σ → Prop} (lasts : Endures P) (channels : List Nat) {transport : σ}
    (h : P transport) : P (channels.foldl Transport.close transport) := by
  induction channels generalizing transport with
  | nil => exact h
  | cons channel channels ih => exact ih (lasts.close transport channel h)

theorem Endures.attemptFailed {P : σ → Prop} (lasts : Endures P) {c : Connection σ}
    (h : P c.transport) (generation : Nat) (error : ClientError) :
    P (c.attemptFailed generation error).transport := by
  cases attempting : c.isAttempting generation with
  | false =>
    rw [attemptFailed_stale attempting]
    exact h
  | true =>
    cases ha : c.attempt with
    | manual =>
      rw [attemptFailed_manual attempting ha]
      exact lasts.closeAll _ h
    | automatic =>
      rw [attemptFailed_automatic attempting ha]
      exact lasts.closeAll _ h

theorem Endures.receive {P : σ → Prop} (lasts : Endures P) {c : Connection σ} (h : P c.transport)
    (signal : Signal) : P (c.receive signal).transport := by
  rcases signal with generation | ⟨generation, reason | reply⟩
  · cases up : c.isUp generation with
    | false =>
      rw [Connection.receive, channelLost_stale up]
      exact h
    | true =>
      by_cases told : c.state = .connected ∨ c.attempt = .manual
      · rw [Connection.receive, channelLost_told up told]
        exact h
      · rw [Connection.receive, channelLost_untold up told]
        exact h
  · exact lasts.attemptFailed h generation _
  · cases attempting : c.isAttempting generation with
    | false =>
      rw [Connection.receive, sessionCreated_stale attempting]
      exact h
    | true =>
      rw [Connection.receive, sessionCreated_ok attempting]
      exact h

theorem Endures.start {P : σ → Prop} (lasts : Endures P) {c : Connection σ} (h : P c.transport)
    (kind : AttemptKind) (waiter : Option Waiter) : P (c.start kind waiter).1.transport := by
  cases ha : admission c.state kind with
  | refused outcome =>
    rw [start_refused ha]
    exact h
  | skipped =>
    rw [start_skipped ha]
    exact h
  | begun =>
    rw [start_begun ha]
    exact lasts.create _ _ h

theorem Endures.handOver {P : σ → Prop} (lasts : Endures P) {c : Connection σ} (h : P c.transport)
    (generation channel : Nat) : P (c.handOver generation channel).1.transport := by
  cases attempting : c.isAttempting generation with
  | false =>
    rw [handOver_stale attempting]
    exact lasts.close _ _ h
  | true =>
    cases he : c.codec.encode c.converter with
    | error error =>
      rw [handOver_unencoded attempting he]
      exact lasts.attemptFailed (c := { c with channel := some channel }) h generation error
    | ok payload =>
      rw [handOver_requested attempting he]
      exact lasts.openSession _ _ _ _ h

theorem Endures.step {P : σ → Prop} (lasts : Endures P) {c : Connection σ} (h : P c.transport)
    {s : Step σ} (own : s.isOwn = true) : P (c.step s).transport := by
  cases s with
  | connect waiter => exact lasts.start h .manual (some waiter)
  | created generation result =>
    cases result with
    | error error => exact lasts.attemptFailed h generation error
    | ok channel => exact lasts.handOver h generation channel
  | signal signal => exact lasts.receive h signal
  | ring t =>
    simp only [Connection.step]
    split
    · cases ha : t.alarm with
      | reconnect =>
        exact lasts.start (c := { c with timers := c.timers.erase t }) h .automatic none
      | sessionDeadline generation timeoutMs =>
        exact lasts.attemptFailed (c := { c with timers := c.timers.erase t }) h generation _
    · exact h
  | giveUp generation timeoutMs => exact lasts.attemptFailed h generation _
  | invalidate =>
    by_cases final : c.state = .invalidated
    · rw [Connection.step, invalidate_invalidated final]
      exact h
    · rw [Connection.step, invalidate_eq final]
      exact lasts.closeAll _ h
  | pass ms | callers bridge awaited => exact h
  | configure setting | world transport => cases own

theorem Endures.perform {P : σ → Prop} (lasts : Endures P) {c : Connection σ} (h : P c.transport)
    {operation : Operation σ} (own : operation.isOwn = true) :
    P (c.perform operation).transport := by
  rw [perform_eq_run]
  have each : ∀ s ∈ c.stepsOf operation, s.isOwn = true := fun s hs => isOwn_of_mem_stepsOf own hs
  revert each
  generalize c.stepsOf operation = steps
  intro each
  induction steps generalizing c with
  | nil => exact h
  | cons s steps ih =>
    exact ih (lasts.step h (each s List.mem_cons_self)) fun u hu =>
      each u (List.mem_cons_of_mem s hu)

end EndpointMonitor.Connection
