import EndpointMonitor.Proofs.Connection.Ownership
import EndpointMonitor.Proofs.Connection.Waiting

/-!
An attempt that somebody asked for, from its start to its end. One step ends it and tells why, and
nothing is left of it then. Unless something else happens meanwhile, the connection is idle again.
-/

namespace EndpointMonitor.Connection

variable {σ : Type}

theorem isUp_of_isAttempting {c : Connection σ} {generation : Nat}
    (h : c.isAttempting generation = true) : c.isUp generation = true := by
  obtain ⟨current, connecting⟩ := (isAttempting_iff c generation).1 h
  exact (isUp_iff c generation).2 ⟨current, .inl connecting⟩

theorem isAttempting_of_over {c : Connection σ} {generation : Nat}
    (finished : c.isUp generation = false) : c.isAttempting generation = false := by
  refine Bool.eq_false_iff.2 fun attempting => ?_
  rw [isUp_of_isAttempting attempting] at finished
  cases finished

/-- Whether a turn is the loss of a channel, the start of an attempt, or the end. -/
def Turn.disturbs : Turn → Bool
  | .begins _ | .loses | .ends => true
  | .requests | .opens | .fails _ | .rests => false

/-- An attempt that somebody asked for is under way, or has succeeded. -/
structure Going (c : Connection σ) (generation : Nat) : Prop where
  up : c.isUp generation = true
  manual : c.state = .connecting → c.attempt = .manual

variable [Transport σ]

theorem over_run {c : Connection σ} {generation : Nat} (known : generation ≤ c.generation)
    (finished : c.isUp generation = false) (steps : List (Step σ)) :
    (c.run steps).isUp generation = false := by
  refine Bool.eq_false_iff.2 fun up => ?_
  rw [isUp_of_run known up] at finished
  cases finished

/-- A reply to an attempt that is over changes nothing, however late it comes. -/
theorem deaf_of_over {c : Connection σ} {generation : Nat} (known : generation ≤ c.generation)
    (finished : c.isUp generation = false) (more : List (Step σ)) (reply : RemoteResult) :
    (c.run more).step (.signal (.sessionReply generation reply)) = c.run more :=
  sessionCreated_stale (isAttempting_of_over (over_run known finished more)) reply

/-! ### The end of an attempt -/

/-- Nothing is published in these steps but that the attempt has succeeded. -/
def OnlySuccess (c : Connection σ) (steps : List (Step σ)) : Prop :=
  ∃ earlier, (c.run steps).outcomes = c.outcomes ++ earlier ∧ ∀ outcome ∈ earlier, outcome = .ok ()

theorem OnlySuccess.cons {c : Connection σ} {s : Step σ} {steps : List (Step σ)}
    (first : c.OnlySuccess [s]) (rest : (c.step s).OnlySuccess steps) :
    c.OnlySuccess (s :: steps) := by
  obtain ⟨earlier, told, good⟩ := first
  obtain ⟨later, told', good'⟩ := rest
  refine ⟨earlier ++ later, ?_, fun outcome mem => ?_⟩
  · rw [run_cons, told', ← List.append_assoc, ← told]
    rfl
  · exact (List.mem_append.1 mem).elim (good outcome) (good' outcome)

/-- The attempt ends in this step, which publishes why, and it does not come back. If it has just
failed, the connection is idle. -/
structure Ends (c : Connection σ) (generation : Nat) (s : Step σ) (error : ClientError) :
    Prop where
  up : c.isUp generation = true
  finished : ∀ more, ((c.step s).run more).isUp generation = false
  told : (c.step s).outcomes = c.outcomes ++ c.news (some (.error error))
  idle : (c.turn s).disturbs = false →
    (c.step s).state = .idle ∧ (c.step s).generation = generation

/-- In these steps the failure of the attempt is published, once, when it ends. -/
def FailsOnce (c : Connection σ) (generation : Nat) (steps : List (Step σ)) : Prop :=
  ∃ before s after error, steps = before ++ s :: after ∧ c.OnlySuccess before ∧
    (c.run before).Ends generation s error

/-- A step leaves the attempt going, or ends it and publishes why. -/
theorem Going.step {c : Connection σ} {generation : Nat} (h : c.Going generation) (s : Step σ) :
    ((c.step s).Going generation ∧ c.OnlySuccess [s]) ∨ ∃ error, c.Ends generation s error := by
  have turns := step_turns c s
  have allowed := turn_allowed c s
  obtain ⟨current, state⟩ := (isUp_iff c generation).1 h.up
  have known : generation ≤ (c.step s).generation := current ▸ generation_le_step c s
  have ends : ∀ {error}, (c.turn s).outcome? c = some (.error error) →
      (c.step s).isUp generation = false → ((c.turn s).disturbs = false →
        (c.step s).state = .idle ∧ (c.step s).generation = generation) →
      ∃ error, c.Ends generation s error :=
    fun outcome finished idle => ⟨_, h.up, over_run known finished, outcome ▸ turns.outcomes, idle⟩
  cases ht : c.turn s with
  | begins kind =>
    -- No attempt begins while one is up.
    rw [ht] at allowed
    rcases allowed with hs | ⟨hs, -⟩ <;> simp [hs] at state
  | requests | rests =>
    rw [ht] at turns
    refine .inl ⟨⟨(isUp_iff _ _).2 ⟨turns.generation.trans current, ?_⟩, fun connecting => ?_⟩,
      [], turns.outcomes, by simp⟩
    · rw [turns.state]
      exact state
    · exact turns.attempt.trans (h.manual (turns.state.symm.trans connecting))
  | opens =>
    rw [ht] at turns
    refine .inl ⟨⟨(isUp_iff _ _).2 ⟨turns.generation.trans current, .inr turns.state⟩,
      fun connecting => ?_⟩, _, turns.outcomes, by simp⟩
    exact absurd (turns.state.symm.trans connecting) (by simp)
  | fails error =>
    rw [ht] at allowed
    have manual := h.manual allowed
    have told : (c.turn s).outcome? c = some (.error error) := by simp [ht, manual]
    refine .inr (ends told ?_ fun _ => ?_)
    · simp [isUp, turns.state, ht, manual]
    · rw [turns.state, turns.generation, ht, Turn.state, manual]
      exact ⟨rfl, current⟩
  | loses =>
    have concerned : c.state = .connected ∨ c.attempt = .manual := state.symm.imp_right h.manual
    have told : (c.turn s).outcome? c = some (.error .interrupted) := by simp [ht, concerned]
    exact .inr (ends told (by simp [isUp, turns.state, ht])
      (by simp [ht, Turn.disturbs]))
  | ends =>
    have told : (c.turn s).outcome? c = some (.error .channelInvalidated) := by simp [ht]
    exact .inr (ends told (by simp [isUp, turns.state, ht])
      (by simp [ht, Turn.disturbs]))

/-- An attempt that is over by now has ended in one of the steps. -/
theorem Going.failsOnce {c : Connection σ} {generation : Nat} (h : c.Going generation)
    {steps : List (Step σ)} (finished : (c.run steps).isUp generation = false) :
    c.FailsOnce generation steps := by
  induction steps generalizing c with
  | nil => exact absurd (h.up.symm.trans finished) (by simp)
  | cons s steps ih =>
    rcases h.step s with ⟨still, first⟩ | ⟨error, ends⟩
    · obtain ⟨before, last, after, error, rfl, rest, ends⟩ := ih still finished
      exact ⟨s :: before, last, after, error, rfl, first.cons rest, ends⟩
    · exact ⟨[], s, steps, error, rfl, ⟨[], (List.append_nil _).symm, by simp⟩, ends⟩

/-! ### Nothing else happens -/

/-- No channel is lost in these steps, no attempt begins, and the connection is not invalidated. -/
def Undisturbed (c : Connection σ) : List (Step σ) → Prop
  | [] => True
  | s :: steps => (c.turn s).disturbs = false ∧ (c.step s).Undisturbed steps

/-- Unless an attempt is under way, nothing changes then. -/
theorem Undisturbed.same {c : Connection σ} {steps : List (Step σ)} (h : c.Undisturbed steps)
    (decided : c.state ≠ .connecting) :
    (c.run steps).state = c.state ∧ (c.run steps).generation = c.generation := by
  induction steps generalizing c with
  | nil => exact ⟨rfl, rfl⟩
  | cons s steps ih =>
    obtain ⟨quiet, rest⟩ := h
    have turns := step_turns c s
    have allowed := turn_allowed c s
    cases ht : c.turn s with
    | rests =>
      rw [ht] at turns
      obtain ⟨state, generation⟩ := ih rest fun hs => decided (turns.state.symm.trans hs)
      exact ⟨state.trans turns.state, generation.trans turns.generation⟩
    | begins kind | loses | ends =>
      rw [ht] at quiet
      cases quiet
    | requests | opens | fails error =>
      rw [ht] at allowed
      exact absurd allowed decided

/-- An attempt that fails by itself leaves the connection idle. -/
theorem Undisturbed.idle {c : Connection σ} {generation : Nat} {steps : List (Step σ)}
    (h : c.Undisturbed steps) (going : c.Going generation)
    (finished : (c.run steps).isUp generation = false) :
    (c.run steps).state = .idle ∧ (c.run steps).generation = generation := by
  induction steps generalizing c with
  | nil => exact absurd (going.up.symm.trans finished) (by simp)
  | cons s steps ih =>
    obtain ⟨quiet, rest⟩ := h
    rcases going.step s with ⟨still, -⟩ | ⟨error, ends⟩
    · exact ih rest still finished
    · obtain ⟨idle, current⟩ := ends.idle quiet
      obtain ⟨state, same⟩ := rest.same (by simp [idle])
      exact ⟨state.trans idle, same.trans current⟩

/-! ### What is left of an attempt -/

/-- An attempt that began when these steps were over has come to nothing in the steps after them. It
is over, its failure has been published once, its channel is gone, and no reply can bring it back.
Unless something else has happened, the connection is idle, and accepts whoever wants to connect. -/
structure CameToNothing (c : Connection σ) (earlier later : List (Step σ)) (generation : Nat) :
    Prop where
  finished : (c.run (earlier ++ later)).isUp generation = false
  published : (c.run earlier).FailsOnce generation later
  gone : ∀ h : Handout (earlier ++ later), h.generation = generation → h.IsGone c
  deaf : ∀ more reply,
    (c.run (earlier ++ later ++ more)).step (.signal (.sessionReply generation reply)) =
      c.run (earlier ++ later ++ more)
  idle : (c.run earlier).Undisturbed later →
    (c.run (earlier ++ later)).state = .idle ∧
      (c.run (earlier ++ later)).generation = generation ∧
      ∀ waiter, (c.run (earlier ++ later)).Accepts waiter

theorem going_of_connect {c : Connection σ} (welcome : refusal? c.state = none)
    (waiter : Waiter) : (c.step (.connect waiter)).Going (c.generation + 1) := by
  rw [step_connect_begun welcome]
  exact ⟨(isUp_iff _ _).2 ⟨rfl, .inl rfl⟩, fun _ => rfl⟩

theorem Going.cameToNothing {c : Connection σ} (down : c.state ≠ .connected)
    (attended : c.Attended) {earlier later : List (Step σ)} {generation : Nat}
    (orderly : c.Orderly [] (earlier ++ later)) (going : (c.run earlier).Going generation)
    (finished : (c.run (earlier ++ later)).isUp generation = false) :
    c.CameToNothing earlier later generation := by
  have current := ((isUp_iff _ generation).1 going.up).1
  have known : generation ≤ (c.run (earlier ++ later)).generation := by
    rw [run_append, ← current]
    exact generation_le_run _ _
  refine ⟨finished, ?_, fun h same => ?_, fun more reply => ?_, fun quiet => ?_⟩
  · rw [run_append] at finished
    exact going.failsOnce finished
  · rcases h.fate down orderly with held | ⟨-, gone⟩
    · have up := held.up
      rw [same, finished] at up
      cases up
    · exact gone
  · rw [run_append c (earlier ++ later) more]
    exact deaf_of_over known finished more reply
  · rw [run_append] at finished
    obtain ⟨idle, same⟩ := quiet.idle going finished
    rw [← run_append] at idle same
    exact ⟨idle, same, accepts_of_no_attempt (run_attended attended _) (.inl idle)⟩

end EndpointMonitor.Connection
