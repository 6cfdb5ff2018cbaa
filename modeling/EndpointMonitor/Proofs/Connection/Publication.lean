import EndpointMonitor.Connection.Scripted
import EndpointMonitor.Proofs.Connection.Turn

/-!
What a state handler hears. Its last outcome tells whether the connection is up, and every loss and
every failure of an attempt that somebody asked for is told once.
-/

namespace EndpointMonitor.Connection

variable {σ : Type}

/-- Whether a step leaves the state handler in place. -/
def Step.keepsSubscriber : Step σ → Bool
  | .configure (.subscriber _) => false
  | _ => true

/-- An attempt that has failed, or whose channel has been lost, is over. -/
theorem isUp_eq_false_of_turn [Transport σ] {c : Connection σ} {s : Step σ}
    (h : c.turn s = .loses ∨ ∃ error, c.turn s = .fails error) (more : List (Step σ)) :
    ((c.step s).run more).isUp c.generation = false := by
  refine Bool.eq_false_iff.2 fun still => ?_
  have up := ((isUp_iff _ _).1 (isUp_of_run (generation_le_step c s) still)).2
  rw [(step_turns c s).state] at up
  rcases h with ht | ⟨error, ht⟩
  · simp [ht] at up
  · cases ha : c.attempt <;> simp [ht, ha] at up

/-- A new connection with a state handler. -/
def watched (codec : Codec) (transport : σ) (subscriber : String) : Connection σ :=
  { new codec transport with subscriber := some subscriber }

/-- The handler knows whether the connection is up. -/
structure Informed (c : Connection σ) (subscriber : String) : Prop where
  watching : c.subscriber = some subscriber
  last : c.outcomes.getLast? = some (.ok ()) ↔ c.state = .connected

theorem watched_informed (codec : Codec) (transport : σ) (subscriber : String) :
    Informed (watched codec transport subscriber) subscriber where
  watching := rfl
  last := by simp [watched, new, outcomes]

variable [Transport σ]

theorem step_subscriber (c : Connection σ) {s : Step σ} (h : s.keepsSubscriber = true) :
    (c.step s).subscriber = c.subscriber := by
  cases s with
  | pass ms => rfl
  | configure setting =>
    cases setting with
    | subscriber subscriber => simp [Step.keepsSubscriber] at h
    | _ => rfl
  | _ => exact (step_sameSettings c rfl).subscriber

theorem step_informed {c : Connection σ} {subscriber : String} (h : Informed c subscriber)
    {s : Step σ} (keep : s.keepsSubscriber = true) : Informed (c.step s) subscriber := by
  refine ⟨(step_subscriber c keep).trans h.watching, ?_⟩
  rw [(step_turns c s).outcomes, (step_turns c s).state, news_of_subscriber h.watching]
  have hl := h.last
  have allowed := turn_allowed c s
  cases ht : c.turn s with
  | begins kind =>
    have hs : c.state ≠ .connected := by
      rw [ht] at allowed
      rcases allowed with hs | ⟨hs, -⟩ <;> simp [hs]
    simpa [hs] using hl
  | requests | rests => simpa using hl
  | opens => simp
  | fails error =>
    have hs : c.state = .connecting := by rwa [ht] at allowed
    cases ha : c.attempt with
    | manual => simp [ha]
    | automatic => simpa [ha, hs] using hl
  | loses =>
    by_cases told : c.state = .connected ∨ c.attempt = .manual
    · simp [told]
    · obtain ⟨hs, ha⟩ := not_or.1 told
      simpa [ha, hs] using hl
  | ends => simp

theorem run_informed {c : Connection σ} {subscriber : String} (h : Informed c subscriber)
    {steps : List (Step σ)} (keep : ∀ s ∈ steps, s.keepsSubscriber = true) :
    Informed (c.run steps) subscriber := by
  induction steps generalizing c with
  | nil => exact h
  | cons s steps ih =>
    exact ih (step_informed h (keep s (by simp))) fun s' hs' => keep s' (by simp [hs'])

theorem Informed.step_outcomes {c : Connection σ} {subscriber : String}
    (h : Informed c subscriber) (s : Step σ) :
    (c.step s).outcomes = c.outcomes ++ ((c.turn s).outcome? c).toList := by
  rw [(step_turns c s).outcomes, news_of_subscriber h.watching]

/-- What the handler hears of a step that ends an attempt or finds the connection up. -/
structure Tells (c : Connection σ) (s : Step σ) : Prop where
  lost : ∀ generation, s = .signal (.lost generation) → c.isUp generation = true →
    (c.step s).state = .interrupted ∧
      (c.step s).outcomes =
        c.outcomes ++
          if c.state = .connected ∨ c.attempt = .manual then [.error .interrupted] else []
  failed : ∀ error, c.turn s = .fails error →
    match c.attempt with
    | .manual => (c.step s).state = .idle ∧ (c.step s).outcomes = c.outcomes ++ [.error error]
    | .automatic => (c.step s).state = .interrupted ∧ (c.step s).outcomes = c.outcomes
  /-- Attempts are given up in these two ways only. -/
  ended : c.state = .connecting → (c.step s).state = .idle ∨ (c.step s).state = .interrupted →
    (∃ generation, s = .signal (.lost generation) ∧ c.isUp generation = true) ∨
      ∃ error, c.turn s = .fails error
  /-- A second loss or failure of the same attempt cannot follow. -/
  gone : c.turn s = .loses ∨ (∃ error, c.turn s = .fails error) →
    ∀ more, ((c.step s).run more).isUp c.generation = false
  connect : ∀ waiter, s = .connect waiter → (c.step s).outcomes = c.outcomes

theorem Informed.tells {c : Connection σ} {subscriber : String} (h : Informed c subscriber)
    (s : Step σ) : Tells c s where
  lost := by
    rintro generation rfl up
    have ht : c.turn (.signal (.lost generation)) = .loses := if_pos up
    rw [h.step_outcomes, (step_turns c _).state, ht, Turn.outcome?]
    refine ⟨rfl, ?_⟩
    split <;> rfl
  failed := by
    intro error ht
    rw [h.step_outcomes, (step_turns c _).state, ht]
    cases ha : c.attempt <;> simp [ha]
  ended := by
    intro connecting ends
    rw [(step_turns c s).state] at ends
    have taken := turn_takenBy c s
    cases ht : c.turn s with
    | fails error => exact .inr ⟨error, rfl⟩
    | loses =>
      rw [ht] at taken
      exact .inl taken
    | _ => simp [ht, connecting] at ends
  gone := isUp_eq_false_of_turn
  connect := by
    rintro waiter rfl
    rw [h.step_outcomes]
    simp only [turn, startTurn]
    split <;> simp

/-- A handler that was there from the start always knows whether the connection is up, and hears
once of each loss and each failure that concerns anybody. -/
theorem outcomes_tell_state (codec : Codec) (transport : σ) (subscriber : String)
    (steps : List (Step σ)) (keep : ∀ s ∈ steps, s.keepsSubscriber = true) :
    let c := (watched codec transport subscriber).run steps
    (c.outcomes.getLast? = some (.ok ()) ↔ c.state = .connected) ∧
      ∀ s : Step σ, s.keepsSubscriber = true → Tells c s := by
  intro c
  have informed : Informed c subscriber :=
    run_informed (watched_informed codec transport subscriber) keep
  exact ⟨informed.last, fun s _ => informed.tells s⟩

theorem outcomes_tell_loss :
    let steps : List (Step ScriptedTransport) :=
      [.connect (.completion 0), .created 1 (.ok 1), .signal (.sessionReply 1 (.ok .done))]
    let c := (watched ⟨4194304⟩ ScriptedTransport.initial "first").run steps
    (∀ s ∈ steps, s.keepsSubscriber = true) ∧ c.outcomes.getLast? = some (.ok ()) ∧
      (c.step (.signal (.lost 1))).outcomes = c.outcomes ++ [.error .interrupted] := by
  intro steps c
  have keep : ∀ s ∈ steps, s.keepsSubscriber = true := by decide
  obtain ⟨last, tells⟩ := outcomes_tell_state ⟨4194304⟩ ScriptedTransport.initial "first" steps keep
  exact ⟨keep, last.2 rfl, ((tells (.signal (.lost 1)) rfl).lost 1 rfl rfl).2⟩

end EndpointMonitor.Connection
