import EndpointMonitor.Proofs.Connection.Caller
import EndpointMonitor.Proofs.Connection.Waiting

/-!
What can happen while a call is in. Nobody else comes in or goes, so the call keeps the result that
it gets first, and waits for the attempt that it has started.
-/

namespace EndpointMonitor.Connection

variable {σ : Type} [Transport σ]

/-! ### What steps leave alone -/

theorem attemptFailed_awaited (c : Connection σ) (generation : Nat) (error : ClientError) :
    (c.attemptFailed generation error).awaited = c.awaited := by
  by_cases h : c.isAttempting generation = true
  · cases ha : c.attempt with
    | manual => rw [attemptFailed_manual h ha]
    | automatic => rw [attemptFailed_automatic h ha]
  · rw [attemptFailed_stale (by simpa using h)]

theorem receive_awaited (c : Connection σ) (signal : Signal) :
    (c.receive signal).awaited = c.awaited := by
  rcases signal with generation | ⟨generation, reason | reply⟩
  · by_cases h : c.isUp generation = true
    · by_cases told : c.state = .connected ∨ c.attempt = .manual
      · rw [receive, channelLost_told h told]
        rfl
      · rw [receive, channelLost_untold h told]
        rfl
    · rw [receive, channelLost_stale (by simpa using h)]
  · exact attemptFailed_awaited c generation _
  · by_cases h : c.isAttempting generation = true
    · rw [receive, sessionCreated_ok h]
    · rw [receive, sessionCreated_stale (by simpa using h)]

theorem start_awaited (c : Connection σ) (kind : AttemptKind) (waiter : Option Waiter) :
    (c.start kind waiter).1.awaited = c.awaited := by
  cases h : admission c.state kind with
  | refused outcome => rw [start_refused h]
  | skipped => rw [start_skipped h]
  | begun => rw [start_begun h]

theorem handOver_awaited (c : Connection σ) (generation channel : Nat) :
    (c.handOver generation channel).1.awaited = c.awaited := by
  by_cases h : c.isAttempting generation = true
  · cases he : c.codec.encode c.converter with
    | error error =>
      rw [handOver_unencoded h he]
      exact attemptFailed_awaited _ generation error
    | ok payload => rw [handOver_requested h he]
  · rw [handOver_stale (by simpa using h)]

theorem step_awaited (c : Connection σ) {s : Step σ} (h : s.movesCallers = false) :
    (c.step s).awaited = c.awaited := by
  cases s with
  | callers bridge awaited => cases h
  | connect waiter => exact start_awaited c .manual _
  | created generation result =>
    cases result with
    | error error => exact attemptFailed_awaited c generation error
    | ok channel => exact handOver_awaited c generation channel
  | signal signal => exact receive_awaited c signal
  | ring t =>
    simp only [step]
    split
    · cases ha : t.alarm with
      | reconnect => exact start_awaited _ .automatic none
      | sessionDeadline generation timeoutMs => exact attemptFailed_awaited _ generation _
    · rfl
  | giveUp generation timeoutMs => exact attemptFailed_awaited c generation _
  | configure setting => cases setting <;> rfl
  | invalidate =>
    by_cases hs : c.state = .invalidated
    · rw [step, invalidate_invalidated hs]
    · rw [step, invalidate_eq hs]
  | pass ms | world transport => rfl

theorem asks_of_mem_stepsOf {c : Connection σ} {operation : Operation σ}
    (h : operation.isCaller = false) {s : Step σ} (mem : s ∈ c.stepsOf operation) (call : Nat) :
    s.asks (.call call) = false := by
  cases operation with
  | beginConnect thread timeoutMs | expireConnect other | finishConnect other => cases h
  | connectWith completion =>
    rcases List.mem_cons.1 mem with rfl | later
    · rfl
    · exact asks_of_mem_reports later _
  | fire t =>
    simp only [stepsOf] at mem
    split at mem
    · rcases List.mem_cons.1 mem with rfl | later
      · rfl
      · exact asks_of_mem_reports later _
    · obtain rfl := List.mem_singleton.1 mem
      rfl
  | receive signal | wait ms | configure setting | world transport | invalidate =>
    obtain rfl := List.mem_singleton.1 mem
    rfl

/-! ### While a call is in -/

/-- No caller comes or goes in this step, but the time of one may be up. -/
def Quiet (c : Connection σ) (s : Step σ) : Prop :=
  s.movesCallers = false ∨ ∃ call, s = .callers (c.bridge.expire call) c.awaited

/-- No caller comes or goes in these steps, one after the other. -/
def Meanwhile (c : Connection σ) : List (Step σ) → Prop
  | [] => True
  | s :: steps => c.Quiet s ∧ (c.step s).Meanwhile steps

theorem meanwhile_append (c : Connection σ) (steps more : List (Step σ)) :
    c.Meanwhile (steps ++ more) ↔ c.Meanwhile steps ∧ (c.run steps).Meanwhile more := by
  induction steps generalizing c with
  | nil => simp [Meanwhile]
  | cons s steps ih => simp [Meanwhile, ih, and_assoc]

theorem meanwhile_of_still (c : Connection σ) {steps : List (Step σ)}
    (h : ∀ s ∈ steps, s.movesCallers = false) : c.Meanwhile steps := by
  induction steps generalizing c with
  | nil => trivial
  | cons s steps ih =>
    exact ⟨.inl (h s List.mem_cons_self), ih _ fun u hu => h u (List.mem_cons_of_mem s hu)⟩

/-- What has been decided stays, and a call waits for the attempt for which it did. -/
structure Keeps (c c' : Connection σ) : Prop where
  bridge : c.bridge.Advances c'.bridge
  awaited : c'.awaited = c.awaited

omit [Transport σ] in
theorem Keeps.open_ {c c' : Connection σ} (h : c.Keeps c') {call : Nat}
    (after : c'.bridge.outcome? call = none) : c.bridge.outcome? call = none := by
  cases ho : c.bridge.outcome? call with
  | none => rfl
  | some result =>
    rw [h.bridge.outcome call result ho] at after
    cases after

theorem Quiet.keeps {c : Connection σ} {s : Step σ} (h : c.Quiet s) : c.Keeps (c.step s) := by
  rcases h with still | ⟨call, rfl⟩
  · exact ⟨step_advances c still, step_awaited c still⟩
  · exact ⟨Bridge.expire_advances c.bridge call, rfl⟩

theorem Meanwhile.keeps {c : Connection σ} {steps : List (Step σ)} (h : c.Meanwhile steps) :
    c.Keeps (c.run steps) := by
  induction steps generalizing c with
  | nil => exact ⟨.refl _, rfl⟩
  | cons s steps ih =>
    have first := h.1.keeps
    have rest := ih h.2
    exact ⟨first.bridge.trans rest.bridge, rest.awaited.trans first.awaited⟩

/-- As long as a call is in, the others can only wait. -/
theorem meanwhile_stepsOf {c : Connection σ} {call : Nat} (holds : c.bridge.holder = some call)
    {operation : Operation σ} (stays : operation ≠ .finishConnect call) :
    c.Meanwhile (c.stepsOf operation) ∧
      ∀ s ∈ c.stepsOf operation, s.asks (.call call) = false := by
  cases operation with
  | beginConnect thread timeoutMs =>
    cases entry : c.bridge.enter thread timeoutMs with
    | rejected | waiting holder => simp [stepsOf, entry, Meanwhile]
    | started entered bridge =>
      have free := (Bridge.enter_eq_started entry).1
      exact absurd (free.symm.trans holds) (by simp)
  | expireConnect other => exact ⟨⟨.inr ⟨other, rfl⟩, trivial⟩, by simp [stepsOf, Step.asks]⟩
  | finishConnect other =>
    -- Only the call that is in can return.
    have apart : call ≠ other := fun same => stays (by rw [same])
    have stuck : c.bridge.leave other = none := by simp [Bridge.leave, holds, apart]
    simp [stepsOf, stuck, Meanwhile]
  | _ =>
    exact ⟨meanwhile_of_still c fun s hs => movesCallers_of_mem_stepsOf rfl hs,
      fun s hs => asks_of_mem_stepsOf rfl hs call⟩

theorem meanwhile_stepsOfAll {c : Connection σ} {call : Nat} (holds : c.bridge.holder = some call)
    {operations : List (Operation σ)} (stays : .finishConnect call ∉ operations) :
    c.Meanwhile (c.stepsOfAll operations) ∧
      ∀ s ∈ c.stepsOfAll operations, s.asks (.call call) = false := by
  induction operations generalizing c with
  | nil => exact ⟨trivial, by simp [stepsOfAll]⟩
  | cons operation operations ih =>
    have first : operation ≠ .finishConnect call := fun same => stays (by simp [same])
    obtain ⟨quiet, apart⟩ := meanwhile_stepsOf holds first
    have held : (c.perform operation).bridge.holder = some call := by
      rw [perform_eq_run, quiet.keeps.bridge.holder]
      exact holds
    obtain ⟨later, apart'⟩ := ih held fun mem => stays (List.mem_cons_of_mem _ mem)
    refine ⟨(meanwhile_append _ _ _).2 ⟨quiet, by rwa [← perform_eq_run]⟩, fun s hs => ?_⟩
    exact (List.mem_append.1 hs).elim (apart s) (apart' s)

end EndpointMonitor.Connection
