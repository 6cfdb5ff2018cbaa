import EndpointMonitor.Proofs.Connection.Effect
import EndpointMonitor.Proofs.Connection.Operation
import EndpointMonitor.Proofs.Connection.Publication

/-!
A connection in use. Whatever it does by itself, it stays up on the same channel, or its loss is
told.
-/

namespace EndpointMonitor.Connection

variable {σ : Type}

/-- The connection is up, on this channel of this attempt. -/
structure Uses (c : Connection σ) (generation channel : Nat) : Prop where
  state : c.state = .connected
  generation : c.generation = generation
  channel : c.channel = some channel

theorem uses_of_proxy {c : Connection σ} {channel : Nat} (h : c.proxy? = some channel) :
    c.Uses c.generation channel := by
  unfold proxy? at h
  split at h
  · next up => exact ⟨up, rfl, h⟩
  all_goals cases h

theorem Uses.proxy {c : Connection σ} {generation channel : Nat} (h : c.Uses generation channel) :
    c.proxy? = some channel := by
  simp only [proxy?, h.state, h.channel]

theorem Step.keepsSubscriber_of_isOwn {s : Step σ} (h : s.isOwn = true) :
    s.keepsSubscriber = true := by
  cases s with
  | configure setting => cases h
  | _ => rfl

variable [Transport σ]

theorem mem_outcomes_step {c : Connection σ} {outcome : Outcome} (h : outcome ∈ c.outcomes)
    (s : Step σ) : outcome ∈ (c.step s).outcomes := by
  rw [(step_turns c s).outcomes]
  exact List.mem_append_left _ h

theorem mem_outcomes_run {c : Connection σ} {outcome : Outcome} (h : outcome ∈ c.outcomes)
    (steps : List (Step σ)) : outcome ∈ (c.run steps).outcomes :=
  run_invariant (P := fun c => outcome ∈ c.outcomes) (fun _ s told => mem_outcomes_step told s) h
    steps

/-- A step that takes a connection in use to no other turn leaves its channel alone. -/
theorem channel_of_rests {c : Connection σ} {s : Step σ} (up : c.state = .connected)
    (rests : c.turn s = .rests) : (c.step s).channel = c.channel := by
  rcases step_effects c s with
    effects | ⟨waiter, rfl⟩ | ⟨bridge, awaited, rfl⟩ | ⟨generation, channel, rfl⟩
  · rw [effects.channel, rests]
    rfl
  · have refused : refusal? c.state = some (.ok ()) := by simp [refusal?, admission, up]
    rw [step_connect_refused refused]
  · rfl
  · have idle : c.isAttempting generation = false := by simp [isAttempting, up]
    rcases created_cases c generation channel with
      ⟨_, attempting, -⟩ | ⟨_, attempting, -⟩ | ⟨-, -, same, -⟩
    · rw [idle] at attempting
      cases attempting
    · rw [idle] at attempting
      cases attempting
    · exact same

/-- The outcomes that tell of the loss of a connection. -/
def losses : List Outcome := [.error .interrupted, .error .channelInvalidated]

theorem uses_step {c : Connection σ} {generation channel : Nat} {subscriber : String}
    (watched : c.subscriber = some subscriber) (uses : c.Uses generation channel) (s : Step σ) :
    (c.step s).Uses generation channel ∨ ∃ outcome ∈ losses, outcome ∈ (c.step s).outcomes := by
  have turns := step_turns c s
  have allowed := turn_allowed c s
  have told : ∀ {outcome}, (c.turn s).outcome? c = some outcome →
      outcome ∈ (c.step s).outcomes := by
    intro outcome news
    rw [turns.outcomes, news_of_subscriber watched, news]
    exact List.mem_append_right _ List.mem_cons_self
  cases ht : c.turn s with
  | rests =>
    rw [ht] at turns
    exact .inl ⟨turns.state.trans uses.state, turns.generation.trans uses.generation,
      (channel_of_rests uses.state ht).trans uses.channel⟩
  | loses => exact .inr ⟨.error .interrupted, by simp [losses], told (by simp [ht, uses.state])⟩
  | ends => exact .inr ⟨.error .channelInvalidated, by simp [losses], told (by simp [ht])⟩
  | begins kind | requests | opens | fails error =>
    rw [ht] at allowed
    simp [Turn.Allowed, uses.state] at allowed

theorem uses_run {c : Connection σ} {generation channel : Nat} {subscriber : String}
    (watched : c.subscriber = some subscriber) (uses : c.Uses generation channel)
    {steps : List (Step σ)} (own : ∀ s ∈ steps, s.isOwn = true) :
    (c.run steps).Uses generation channel ∨
      ∃ outcome ∈ losses, outcome ∈ (c.run steps).outcomes := by
  induction steps generalizing c with
  | nil => exact .inl uses
  | cons s steps ih =>
    rcases uses_step watched uses s with still | ⟨outcome, loss, told⟩
    · have first := Step.keepsSubscriber_of_isOwn (own s List.mem_cons_self)
      exact ih ((step_subscriber c first).trans watched) still
        fun u hu => own u (List.mem_cons_of_mem s hu)
    · exact .inr ⟨outcome, loss, mem_outcomes_run told steps⟩

theorem run_subscriber (c : Connection σ) {steps : List (Step σ)}
    (own : ∀ s ∈ steps, s.isOwn = true) : (c.run steps).subscriber = c.subscriber := by
  induction steps generalizing c with
  | nil => rfl
  | cons s steps ih =>
    have first := Step.keepsSubscriber_of_isOwn (own s List.mem_cons_self)
    exact (ih (c.step s) fun u hu => own u (List.mem_cons_of_mem s hu)).trans
      (step_subscriber c first)

theorem perform_subscriber (c : Connection σ) {operation : Operation σ}
    (own : operation.isOwn = true) : (c.perform operation).subscriber = c.subscriber := by
  rw [perform_eq_run]
  exact run_subscriber c fun s hs => isOwn_of_mem_stepsOf own hs

/-- A connection in use stays so with all that it does by itself, or tells of its loss. -/
theorem perform_uses {c : Connection σ} {generation channel : Nat} {subscriber : String}
    (watched : c.subscriber = some subscriber) (uses : c.Uses generation channel)
    {operation : Operation σ} (own : operation.isOwn = true) :
    (c.perform operation).Uses generation channel ∨
      ∃ outcome ∈ losses, outcome ∈ (c.perform operation).outcomes := by
  rw [perform_eq_run]
  exact uses_run watched uses fun s hs => isOwn_of_mem_stepsOf own hs

end EndpointMonitor.Connection
