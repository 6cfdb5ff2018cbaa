import EndpointMonitor.Connection.Scripted
import EndpointMonitor.Proofs.Connection.Effect
import EndpointMonitor.Proofs.Connection.Progress

/-!
Who owns the channels. A channel that an attempt gets is stored as long as it can be used, and else
it has been torn down or reported lost, so there is never more than one.
-/

namespace EndpointMonitor.Connection

variable {σ : Type}

/-- An attempt that fails, and the end, tear the channel down. A lost channel needs no more. -/
theorem closed_of_turn (c : Connection σ) {t : Turn} (h : t = .ends ∨ ∃ error, t = .fails error) :
    (t.events c).filterMap (·.closed?) = c.channel.toList := by
  rcases h with rfl | ⟨error, rfl⟩
  · simp [Turn.events, announcement, Function.comp_def, List.filterMap_none]
  · cases ha : c.attempt <;>
      simp [Turn.events, ha, announcement, Function.comp_def, List.filterMap_none]

/-- The channel is stored that the attempt has got, and can be used or will be. -/
structure Holds (c : Connection σ) (generation channel : Nat) : Prop where
  channel : c.channel = some channel
  up : c.isUp generation = true

variable [Transport σ]

theorem closures_run (c : Connection σ) (steps : List (Step σ)) :
    ∃ later, (c.run steps).closures = c.closures ++ later := by
  induction steps generalizing c with
  | nil => exact ⟨[], (List.append_nil _).symm⟩
  | cons s steps ih =>
    obtain ⟨first, hf⟩ := trace_step c s
    obtain ⟨rest, hr⟩ := ih (c.step s)
    refine ⟨first.filterMap (·.closed?) ++ rest, ?_⟩
    rw [run_cons, hr, closures_of_trace hf, List.append_assoc]

/-! ### What becomes of a channel -/

/-- A channel is torn down in the course of these steps, or reported lost while it is stored. -/
def Parts (c : Connection σ) (generation channel : Nat) (steps : List (Step σ)) : Prop :=
  (∃ later, (c.run steps).closures = c.closures ++ later ∧ channel ∈ later) ∨
    ∃ early late, steps = early ++ .signal (.lost generation) :: late ∧
      (c.run early).Holds generation channel

theorem Parts.cons {c : Connection σ} {generation channel : Nat} {s : Step σ}
    {steps : List (Step σ)} (h : (c.step s).Parts generation channel steps) :
    c.Parts generation channel (s :: steps) := by
  rcases h with ⟨later, closed, mem⟩ | ⟨early, late, rfl, held⟩
  · obtain ⟨first, hf⟩ := trace_step c s
    refine .inl ⟨first.filterMap (·.closed?) ++ later, ?_, List.mem_append_right _ mem⟩
    rw [run_cons, closed, closures_of_trace hf, List.append_assoc]
  · exact .inr ⟨s :: early, late, rfl, held⟩

theorem parts_of_closed {c : Connection σ} {generation channel : Nat} {s : Step σ}
    (h : (c.step s).closures = c.closures ++ [channel]) (steps : List (Step σ)) :
    c.Parts generation channel (s :: steps) := by
  obtain ⟨rest, hr⟩ := closures_run (c.step s) steps
  refine .inl ⟨[channel] ++ rest, ?_, by simp⟩
  rw [run_cons, hr, h, List.append_assoc]

/-- A step that takes a channel away tears it down, or is the report of its loss. -/
theorem holds_step {c : Connection σ} {generation channel : Nat}
    (holds : c.Holds generation channel) {s : Step σ}
    (apart : ∀ result, s ≠ .created generation result) :
    (c.step s).Holds generation channel ∨
      (c.step s).isUp generation = false ∧
        ((c.step s).closures = c.closures ++ [channel] ∨ s = .signal (.lost generation)) := by
  obtain ⟨stored, up⟩ := holds
  obtain ⟨current, going⟩ := (isUp_iff c generation).1 up
  have turns := step_turns c s
  have kept : (c.step s).channel = c.channel → c.turn s = .requests ∨ c.turn s = .rests →
      (c.step s).Holds generation channel := by
    intro same turned
    refine ⟨same.trans stored, ?_⟩
    rw [isUp_iff, turns.state, turns.generation]
    rcases turned with ht | ht <;> rw [ht] <;> exact ⟨current, going⟩
  rcases step_effects c s with
    effects | ⟨waiter, rfl⟩ | ⟨bridge, awaited, rfl⟩ | ⟨other, handed, rfl⟩
  · have closed : c.turn s = .ends ∨ (∃ error, c.turn s = .fails error) →
        (c.step s).closures = c.closures ++ [channel] := by
      intro past
      rw [closures_of_trace effects.trace, closed_of_turn c past, stored]
      rfl
    have allowed := turn_allowed c s
    have taken := turn_takenBy c s
    cases ht : c.turn s with
    | begins kind =>
      -- No attempt begins while one is up, so the stored channel is never left to another.
      rw [ht] at allowed
      rcases allowed with hs | ⟨hs, -⟩ <;> simp [hs] at going
    | requests => exact .inl (kept (by rw [effects.channel, ht]; rfl) (.inl ht))
    | rests => exact .inl (kept (by rw [effects.channel, ht]; rfl) (.inr ht))
    | opens =>
      refine .inl ⟨by rw [effects.channel, ht]; exact stored, ?_⟩
      rw [isUp_iff, turns.state, turns.generation, ht]
      exact ⟨current, .inr rfl⟩
    | fails error =>
      refine .inr ⟨?_, .inl (closed (.inr ⟨error, ht⟩))⟩
      cases ha : c.attempt <;> simp [isUp, turns.state, ht, ha]
    | ends =>
      refine .inr ⟨?_, .inl (closed (.inl ht))⟩
      simp [isUp, turns.state, ht]
    | loses =>
      rw [ht] at taken
      obtain ⟨lost, rfl, concerned⟩ := taken
      have same : lost = generation := ((isUp_iff c lost).1 concerned).1.symm.trans current
      refine .inr ⟨?_, .inr (by rw [same])⟩
      simp [isUp, turns.state, ht]
  · have refused : ∃ outcome, refusal? c.state = some outcome := by
      rcases going with hs | hs <;> simp [hs, refusal?, admission]
    obtain ⟨outcome, hr⟩ := refused
    have rests : c.turn (.connect waiter) = .rests := by simp [turn_connect, hr]
    exact .inl (kept (by rw [step_connect_refused hr]) (.inr rests))
  · exact .inl (kept rfl (.inr rfl))
  · -- Only a second channel for the same attempt could displace the stored one.
    have concerned : c.isAttempting other = true → False := by
      intro attempting
      have same : other = generation :=
        ((isAttempting_iff c other).1 attempting).1.symm.trans current
      exact apart (.ok handed) (by rw [same])
    rcases created_cases c other handed with ⟨_, h, -⟩ | ⟨_, h, -⟩ | ⟨-, rests, same, -⟩
    · exact (concerned h).elim
    · exact (concerned h).elim
    · exact .inl (kept same (.inr rests))

theorem holds_run {c : Connection σ} {generation channel : Nat} (holds : c.Holds generation channel)
    {steps : List (Step σ)} (apart : ∀ result, .created generation result ∉ steps) :
    (c.run steps).Holds generation channel ∨
      (c.run steps).isUp generation = false ∧ c.Parts generation channel steps := by
  induction steps generalizing c with
  | nil => exact .inl holds
  | cons s steps ih =>
    have first : ∀ result, s ≠ .created generation result := by
      rintro result rfl
      exact apart result List.mem_cons_self
    have rest : ∀ result, .created generation result ∉ steps :=
      fun result mem => apart result (List.mem_cons_of_mem s mem)
    rcases holds_step holds first with still | ⟨down, how⟩
    · rcases ih still rest with held | ⟨down, parts⟩
      · exact .inl held
      · exact .inr ⟨down, parts.cons⟩
    · -- Once the channel is gone its attempt is over, and does not come back.
      have known : generation ≤ (c.step s).generation := by
        rw [← ((isUp_iff c generation).1 holds.up).1]
        exact generation_le_step c s
      refine .inr ⟨?_, ?_⟩
      · refine Bool.eq_false_iff.2 fun up => ?_
        rw [isUp_of_run known up] at down
        cases down
      · rcases how with closed | rfl
        · exact parts_of_closed closed steps
        · exact .inr ⟨[], steps, rfl, holds⟩

/-! ### Orderly runs -/

/-- Whether a step can come after these. An attempt asks for a channel once, so it gets one once,
and the session of the attempt under way is opened on the channel that it got. -/
def Expected (c : Connection σ) (before : List (Step σ)) : Step σ → Prop
  | .created generation _ =>
    generation ≤ (c.run before).generation ∧ ∀ result, .created generation result ∉ before
  | .signal (.sessionReply generation _) =>
    (c.run before).isAttempting generation = true →
      ∃ channel, .created generation (.ok channel) ∈ before
  | _ => True

/-- Whether these steps can come after those, one by one. -/
def Orderly (c : Connection σ) (before : List (Step σ)) : List (Step σ) → Prop
  | [] => True
  | s :: steps => c.Expected before s ∧ Orderly c (before ++ [s]) steps

theorem orderly_append (c : Connection σ) (before steps more : List (Step σ)) :
    c.Orderly before (steps ++ more) ↔
      c.Orderly before steps ∧ c.Orderly (before ++ steps) more := by
  induction steps generalizing before with
  | nil => simp [Orderly]
  | cons s steps ih => simp [Orderly, ih, and_assoc]

theorem Orderly.expected {c : Connection σ} {before after : List (Step σ)} {s : Step σ}
    (h : c.Orderly [] (before ++ s :: after)) : c.Expected before s :=
  ((orderly_append c [] before _).1 h).2.1

theorem Orderly.snoc {c : Connection σ} {steps : List (Step σ)} {s : Step σ}
    (h : c.Orderly [] steps) (expected : c.Expected steps s) : c.Orderly [] (steps ++ [s]) :=
  (orderly_append c [] steps [s]).2 ⟨h, expected, trivial⟩

theorem Orderly.known {c : Connection σ} {steps : List (Step σ)} (h : c.Orderly [] steps)
    {generation : Nat} {result : Except ClientError Nat}
    (mem : .created generation result ∈ steps) : generation ≤ (c.run steps).generation := by
  obtain ⟨before, after, rfl⟩ := List.append_of_mem mem
  have bound : generation ≤ (c.run before).generation := h.expected.1
  rw [run_append]
  exact Nat.le_trans bound (generation_le_run _ _)

theorem Orderly.once {c : Connection σ} {before after : List (Step σ)} {generation : Nat}
    {result : Except ClientError Nat}
    (h : c.Orderly [] (before ++ .created generation result :: after))
    (other : Except ClientError Nat) : .created generation other ∉ after := by
  intro again
  obtain ⟨early, late, rfl⟩ := List.append_of_mem again
  rw [← List.cons_append, ← List.append_assoc] at h
  exact h.expected.2 result (by simp)

omit [Transport σ] in
theorem opened_of_turn {c : Connection σ} {s : Step σ} (h : c.turn s = .opens) :
    ∃ generation reply, s = .signal (.sessionReply generation reply) ∧
      c.isAttempting generation = true := by
  have failure : ∀ generation error, c.failureTurn generation error ≠ .opens := by
    intro generation error
    unfold failureTurn
    split <;> simp
  have start : ∀ kind, c.startTurn kind ≠ .opens := by
    intro kind
    unfold startTurn
    split <;> simp
  cases s with
  | connect waiter => exact absurd h (start _)
  | created generation result =>
    cases result with
    | error error => exact absurd h (failure _ _)
    | ok channel =>
      simp only [turn, handOverTurn] at h
      split at h
      · exact absurd h (failure _ _)
      · split at h <;> cases h
  | signal signal =>
    rcases signal with generation | ⟨generation, reason | reply⟩
    · simp only [turn, signalTurn] at h
      split at h <;> cases h
    · exact absurd h (failure _ _)
    · simp only [turn, signalTurn] at h
      split at h
      · next attempting => exact ⟨generation, .ok reply, rfl, attempting⟩
      · cases h
  | ring t =>
    simp only [turn] at h
    split at h
    · cases ha : t.alarm with
      | reconnect => exact absurd (by simpa [ha, alarmTurn] using h) (start _)
      | sessionDeadline generation timeoutMs =>
        exact absurd (by simpa [ha, alarmTurn] using h) (failure _ _)
    · cases h
  | giveUp generation timeoutMs => exact absurd h (failure _ _)
  | invalidate =>
    simp only [turn] at h
    split at h <;> cases h
  | pass ms | configure setting | callers bridge awaited | world transport => cases h

/-- A connection that is up has got its channel. -/
theorem Orderly.handed {c : Connection σ} (down : c.state ≠ .connected) {steps : List (Step σ)}
    (orderly : c.Orderly [] steps) (up : (c.run steps).state = .connected) :
    ∃ channel, .created (c.run steps).generation (.ok channel) ∈ steps := by
  induction steps using List.reverseRecOn with
  | nil => exact absurd up down
  | append_singleton steps s ih =>
    have expected : c.Expected steps s := orderly.expected
    have before : c.Orderly [] steps := ((orderly_append c [] steps [s]).1 orderly).1
    have last : c.run (steps ++ [s]) = (c.run steps).step s := run_append c steps [s]
    have turns := step_turns (c.run steps) s
    have allowed := turn_allowed (c.run steps) s
    rw [last, turns.state] at up
    rw [last, turns.generation]
    cases ht : (c.run steps).turn s with
    | opens =>
      obtain ⟨generation, reply, rfl, attempting⟩ := opened_of_turn ht
      obtain ⟨channel, mem⟩ := expected attempting
      rw [← ((isAttempting_iff _ generation).1 attempting).1] at mem
      exact ⟨channel, List.mem_append_left _ mem⟩
    | rests =>
      rw [ht] at up
      obtain ⟨channel, mem⟩ := ih before up
      exact ⟨channel, List.mem_append_left _ mem⟩
    | requests =>
      rw [ht] at up allowed
      exact absurd (up.symm.trans allowed) (by simp)
    | fails error => cases ha : (c.run steps).attempt <;> simp [ht, ha] at up
    | begins kind | loses | ends => simp [ht] at up

/-! ### Every channel is accounted for -/

/-- A channel that comes in the course of these steps. -/
@[ext]
structure Handout (steps : List (Step σ)) where
  before : List (Step σ)
  after : List (Step σ)
  generation : Nat
  channel : Nat
  split : steps = before ++ .created generation (.ok channel) :: after

/-- Whether the channel has been torn down or lost by now. -/
def Handout.IsGone {steps : List (Step σ)} (h : Handout steps) (c : Connection σ) : Prop :=
  (c.run h.before).Parts h.generation h.channel (.created h.generation (.ok h.channel) :: h.after)

theorem created_holds {c : Connection σ} {generation : Nat} (channel : Nat)
    (open_ : c.isAttempting generation = false → c.isUp generation = false) :
    (c.step (.created generation (.ok channel))).Holds generation channel ∨
      (c.step (.created generation (.ok channel))).isUp generation = false ∧
        (c.step (.created generation (.ok channel))).closures = c.closures ++ [channel] := by
  have turns := step_turns c (.created generation (.ok channel))
  rcases created_cases c generation channel with
    ⟨payload, attempting, requests, stored, -, -⟩ | ⟨error, -, fails, -, -, -, trace⟩ |
      ⟨past, rests, -, -, -, trace⟩
  · have current := (isAttempting_iff c generation).1 attempting
    refine .inl ⟨stored, ?_⟩
    rw [isUp_iff, turns.state, turns.generation, requests]
    exact ⟨current.1, .inl current.2⟩
  · refine .inr ⟨?_, ?_⟩
    · cases ha : c.attempt <;> simp [isUp, turns.state, fails, ha]
    · rw [fails] at trace
      rw [closures_of_trace trace, closed_of_turn _ (.inr ⟨error, rfl⟩)]
      rfl
  · refine .inr ⟨?_, ?_⟩
    · have down := open_ past
      simpa [isUp, turns.state, turns.generation, rests] using down
    · rw [closures_of_trace trace]
      rfl

/-- A channel that has come is stored, or it is gone and its attempt is over. -/
theorem Handout.fate {c : Connection σ} (down : c.state ≠ .connected) {steps : List (Step σ)}
    (orderly : c.Orderly [] steps) (h : Handout steps) :
    (c.run steps).Holds h.generation h.channel ∨
      (c.run steps).isUp h.generation = false ∧ h.IsGone c := by
  obtain ⟨before, after, generation, channel, rfl⟩ := h
  have expected : c.Expected before (.created generation (.ok channel)) := orderly.expected
  have earlier : c.Orderly [] before := ((orderly_append c [] before _).1 orderly).1
  have open_ : (c.run before).isAttempting generation = false →
      (c.run before).isUp generation = false := by
    intro past
    refine Bool.eq_false_iff.2 fun up => ?_
    obtain ⟨current, connecting | connected⟩ := (isUp_iff _ generation).1 up
    · rw [(isAttempting_iff _ generation).2 ⟨current, connecting⟩] at past
      cases past
    · -- The session would be open on a channel that came before this one.
      obtain ⟨other, mem⟩ := earlier.handed down connected
      rw [current] at mem
      exact expected.2 _ mem
  rw [run_append, run_cons]
  rcases created_holds channel open_ with holds | ⟨past, closed⟩
  · rcases holds_run holds orderly.once with held | ⟨past, parts⟩
    · exact .inl held
    · exact .inr ⟨past, parts.cons⟩
  · refine .inr ⟨?_, parts_of_closed closed after⟩
    refine Bool.eq_false_iff.2 fun up => ?_
    have known := Nat.le_trans expected.1 (generation_le_step _ (.created generation (.ok channel)))
    rw [isUp_of_run known up] at past
    cases past

/-- A channel is stored only while an attempt is under way, or has succeeded. -/
def Tidy (c : Connection σ) : Prop :=
  c.channel ≠ none → c.state = .connecting ∨ c.state = .connected

theorem step_tidy {c : Connection σ} (tidy : c.Tidy) (s : Step σ) : (c.step s).Tidy := by
  intro stored
  have turns := step_turns c s
  have allowed := turn_allowed c s
  rw [turns.state]
  rcases step_effects c s with
    effects | ⟨waiter, rfl⟩ | ⟨bridge, awaited, rfl⟩ | ⟨generation, channel, rfl⟩
  · rw [effects.channel] at stored
    cases ht : c.turn s with
    | begins kind => exact .inl rfl
    | opens => exact .inr rfl
    | requests | rests =>
      rw [ht] at stored
      exact tidy stored
    | fails error | loses | ends =>
      rw [ht] at stored
      exact absurd rfl stored
  · cases hr : refusal? c.state with
    | none =>
      have begins : c.turn (.connect waiter) = .begins .manual := by simp [turn_connect, hr]
      exact .inl (by rw [begins]; rfl)
    | some outcome =>
      have rests : c.turn (.connect waiter) = .rests := by simp [turn_connect, hr]
      rw [step_connect_refused hr] at stored
      rw [rests]
      exact tidy stored
  · exact tidy stored
  · rcases created_cases c generation channel with
      ⟨_, -, requests, -⟩ | ⟨_, -, -, gone, -⟩ | ⟨-, rests, same, -⟩
    · rw [requests] at allowed ⊢
      exact .inl allowed
    · exact absurd gone stored
    · rw [rests]
      exact tidy (same ▸ stored)

/-- No attempt gets two channels. -/
theorem Orderly.handout_ext {c : Connection σ} {steps : List (Step σ)}
    (orderly : c.Orderly [] steps) {h h' : Handout steps}
    (same : h.generation = h'.generation) : h = h' := by
  obtain ⟨before, after, generation, channel, split⟩ := h
  obtain ⟨before', after', generation', channel', split'⟩ := h'
  obtain rfl : generation = generation' := same
  have once := (split ▸ orderly).once
  have once' := (split' ▸ orderly).once
  rcases List.append_eq_append_iff.1 (split.symm.trans split') with ⟨l, rfl, hl⟩ | ⟨l, rfl, hl⟩
  · cases l with
    | nil => simp_all
    | cons s l =>
      obtain ⟨-, rfl⟩ := List.cons_eq_cons.1 hl
      exact absurd (by simp) (once (.ok channel'))
  · cases l with
    | nil => simp_all
    | cons s l =>
      obtain ⟨-, rfl⟩ := List.cons_eq_cons.1 hl
      exact absurd (by simp) (once' (.ok channel))

/-! ### Operations run in order -/

/-- These steps can come one by one, and the attempt under way has got its channel. -/
structure Accounted (c : Connection σ) (steps : List (Step σ)) : Prop where
  orderly : c.Orderly [] steps
  handed : ∀ generation, (c.run steps).isAttempting generation = true →
    ∃ channel, .created generation (.ok channel) ∈ steps

def Step.concernsStart : Step σ → Bool
  | .connect _ | .ring _ | .created _ _ => true
  | _ => false

theorem Accounted.snoc {c : Connection σ} {steps : List (Step σ)} (h : c.Accounted steps)
    {s : Step σ} (apart : ∀ generation result, s ≠ .created generation result)
    (going : ∀ kind, (c.run steps).turn s ≠ .begins kind) : c.Accounted (steps ++ [s]) := by
  refine ⟨h.orderly.snoc ?_, fun generation attempting => ?_⟩
  · cases s with
    | created generation result => exact absurd rfl (apart generation result)
    | signal signal =>
      cases signal with
      | lost generation => trivial
      | sessionReply generation reply => exact h.handed generation
    | _ => trivial
  · rw [run_append, run_cons, run_nil, isAttempting_iff, (step_turns _ s).state,
      (step_turns _ s).generation] at attempting
    have before : (c.run steps).isAttempting generation = true := by
      rw [isAttempting_iff]
      cases ht : (c.run steps).turn s with
      | begins kind => exact absurd ht (going kind)
      | requests | rests => simpa [ht] using attempting
      | fails error => cases ha : (c.run steps).attempt <;> simp [ht, ha] at attempting
      | opens | loses | ends => simp [ht] at attempting
    obtain ⟨channel, mem⟩ := h.handed generation before
    exact ⟨channel, List.mem_append_left _ mem⟩

theorem Accounted.append {c : Connection σ} {steps : List (Step σ)} (h : c.Accounted steps)
    (more : List (Step σ)) (quiet : ∀ s ∈ more, s.concernsStart = false) :
    c.Accounted (steps ++ more) := by
  induction more generalizing steps with
  | nil => rwa [List.append_nil]
  | cons s more ih =>
    have first : s.concernsStart = false := quiet s List.mem_cons_self
    have next : c.Accounted (steps ++ [s]) := by
      refine h.snoc ?_ ?_
      · rintro generation result rfl
        cases first
      · intro kind ht
        have taken := turn_takenBy (c.run steps) s
        rw [ht] at taken
        cases kind with
        | manual =>
          obtain ⟨waiter, rfl⟩ := taken
          cases first
        | automatic =>
          obtain ⟨t, rfl, -⟩ := taken
          cases first
    have rest := ih next fun u hu => quiet u (List.mem_cons_of_mem s hu)
    rwa [List.append_assoc] at rest

theorem orderly_losses (c : Connection σ) (before : List (Step σ)) (losses : List Nat) :
    c.Orderly before (losses.map (.signal <| .lost ·)) := by
  induction losses generalizing before with
  | nil => trivial
  | cons generation losses ih => exact ⟨trivial, ih _⟩

/-- After the start of an attempt come losses of channels, then the channel or an error, and then
what the service answers at once. -/
theorem Accounted.attempt {c : Connection σ} {steps : List (Step σ)} (h : c.Accounted steps)
    {s : Step σ} (expected : c.Expected steps s)
    (apart : ∀ generation result, s ≠ .created generation result) {d : Connection σ}
    {kind : AttemptKind} {waiter : Option Waiter}
    (starts : (c.run steps).step s = (d.start kind waiter).1)
    (same : d.generation = (c.run steps).generation) :
    c.Accounted (steps ++ s :: d.reports kind waiter) := by
  have still : (d.start kind waiter).1.generation = d.generation →
      c.Accounted (steps ++ [s]) := by
    intro kept
    refine h.snoc apart fun kind ht => ?_
    have renewed := (step_turns (c.run steps) s).generation
    rw [ht, starts, kept, same, Turn.generation] at renewed
    omega
  cases hb : admission d.state kind with
  | refused outcome =>
    have silent : d.reports kind waiter = [] := by rw [reports, start_refused hb]
    rw [silent]
    exact still (by rw [start_refused hb])
  | skipped =>
    have silent : d.reports kind waiter = [] := by rw [reports, start_skipped hb]
    rw [silent]
    exact still (by rw [start_skipped hb])
  | begun =>
    obtain ⟨losses, result, signals, hr⟩ := reports_of_begun hb waiter
    let before : List (Step σ) := steps ++ s :: losses.map (.signal <| .lost ·)
    have early : c.Orderly [] before :=
      (orderly_append c [] steps _).2 ⟨h.orderly, expected, orderly_losses c _ losses⟩
    have generation : (c.run before).generation = d.generation + 1 := by
      have quiet : ∀ u ∈ losses.map fun generation => (.signal (.lost generation) : Step σ),
          u.renews = false := by
        simp only [List.mem_map]
        rintro u ⟨generation, -, rfl⟩
        rfl
      rw [run_append, run_cons, generation_run _ quiet, starts, start_begun hb]
    -- The generation is new, so no channel can have come for it.
    have fresh : ∀ other, .created (d.generation + 1) other ∉ before := by
      intro other mem
      rcases List.mem_append.1 mem with old | new
      · have known := h.orderly.known old
        omega
      · rcases List.mem_cons.1 new with rfl | lost
        · exact apart _ other rfl
        · simp at lost
    have handed : c.Accounted (before ++ [.created (d.generation + 1) result]) := by
      refine ⟨early.snoc ⟨Nat.le_of_eq generation.symm, fresh⟩, fun other attempting => ?_⟩
      rw [run_append, run_cons, run_nil] at attempting
      have current : d.generation + 1 = other := by
        rw [← generation, ← generation_step (c.run before) (s := .created _ result) rfl]
        exact ((isAttempting_iff _ other).1 attempting).1
      obtain ⟨attempted, turned⟩ := turn_of_isAttempting_step (by omega) attempting
      cases result with
      | error error =>
        -- An error ends the attempt, which is then not under way.
        simp [turn, failureTurn, current, attempted] at turned
      | ok channel => exact ⟨channel, by simp [current]⟩
    have answered : c.Accounted (before ++ [.created (d.generation + 1) result] ++
        signals.map .signal) := by
      refine handed.append _ ?_
      simp only [List.mem_map]
      rintro u ⟨signal, -, rfl⟩
      rfl
    rw [hr]
    simpa [before] using answered

theorem Accounted.connect {c : Connection σ} {steps : List (Step σ)} (h : c.Accounted steps)
    (waiter : Waiter) :
    c.Accounted (steps ++ .connect waiter :: (c.run steps).reports .manual (some waiter)) :=
  h.attempt (s := .connect waiter) trivial (by simp) rfl rfl

theorem Accounted.perform {c : Connection σ} {steps : List (Step σ)} (h : c.Accounted steps)
    (operation : Operation σ) : c.Accounted (steps ++ (c.run steps).stepsOf operation) := by
  cases operation with
  | beginConnect thread timeoutMs =>
    simp only [stepsOf]
    cases (c.run steps).bridge.enter thread timeoutMs with
    | rejected | waiting holder => exact h.append _ (by simp)
    | started call bridge =>
      let d : Connection σ := { c.run steps with bridge }
      have entered : c.Accounted (steps ++ [.callers bridge (c.run steps).awaited]) :=
        h.append _ (by simp [Step.concernsStart])
      have inside : c.run (steps ++ [.callers bridge (c.run steps).awaited]) = d :=
        run_append c steps _
      have tried := entered.connect (.call call)
      rw [inside] at tried
      have left := tried.append
        [.callers (d.tryConnect .manual (some (.call call))).1.bridge
          (d.tryConnect .manual (some (.call call))).2] (by simp [Step.concernsStart])
      simpa using left
  | connectWith completion => exact h.connect (.completion completion)
  | fire t =>
    simp only [stepsOf]
    split
    · next due reconnect =>
      refine h.attempt (s := .ring t) trivial (by simp) ?_ rfl
      simp only [step, due, if_true, strike, reconnect]
    · next other =>
      refine h.snoc (by simp) fun kind begins => ?_
      have taken := turn_takenBy (c.run steps) (.ring t)
      rw [begins] at taken
      cases kind with
      | manual =>
        obtain ⟨waiter, he⟩ := taken
        cases he
      | automatic =>
        obtain ⟨u, he, due, reconnect⟩ := taken
        cases he
        exact other due reconnect
  | finishConnect call =>
    simp only [stepsOf]
    rcases (c.run steps).bridge.leave call with _ | ⟨error | result, bridge⟩
    · exact h.append _ (by simp)
    · cases error <;> refine h.append _ ?_ <;> simp [Step.concernsStart]
    · exact h.append _ (by simp [Step.concernsStart])
  | expireConnect call | receive signal | wait ms | configure setting | world transport
  | invalidate =>
    exact h.append _ (by simp [stepsOf, Step.concernsStart])

theorem Accounted.stepsOfAll {c : Connection σ} {steps : List (Step σ)} (h : c.Accounted steps)
    (operations : List (Operation σ)) :
    c.Accounted (steps ++ (c.run steps).stepsOfAll operations) := by
  induction operations generalizing steps with
  | nil => rwa [Connection.stepsOfAll, List.append_nil]
  | cons operation operations ih =>
    have rest := ih (h.perform operation)
    rwa [run_append, ← perform_eq_run, List.append_assoc] at rest

theorem Accounted.performAll {c : Connection σ} {steps : List (Step σ)} (h : c.Accounted steps)
    (operations : List (Operation σ)) :
    ∃ all, c.Accounted all ∧ (c.run steps).performAll operations = c.run all := by
  refine ⟨_, h.stepsOfAll operations, ?_⟩
  rw [run_append, performAll_eq_run_stepsOfAll]

/-- A channel can be used exactly while the connection is up, and none is stored where there is no
attempt. Every channel that came is stored or gone, and no two of them are not gone. -/
theorem channels_owned (codec : Codec) (transport : σ) :
    (∀ steps : List (Step σ), (new codec transport).Orderly [] steps →
      let c := (new codec transport).run steps
      (c.proxy?.isSome = true ↔ c.state = .connected) ∧
      (c.state = .idle ∨ c.state = .interrupted ∨ c.state = .invalidated → c.channel = none) ∧
      (∀ h : Handout steps, c.Holds h.generation h.channel ∨ h.IsGone (new codec transport)) ∧
      ∀ h h' : Handout steps, ¬h.IsGone (new codec transport) → ¬h'.IsGone (new codec transport) →
        h = h') ∧
    ∀ operations : List (Operation σ), ∃ steps, (new codec transport).Orderly [] steps ∧
      (new codec transport).performAll operations = (new codec transport).run steps := by
  have down : (new codec transport).state ≠ .connected := by simp [new]
  refine ⟨fun steps orderly => ?_, fun operations => ?_⟩
  · intro c
    have fate := fun h : Handout steps => h.fate down orderly
    have live : ∀ h : Handout steps, ¬h.IsGone (new codec transport) →
        c.Holds h.generation h.channel := by
      intro h here
      rcases fate h with held | ⟨-, gone⟩
      · exact held
      · exact absurd gone here
    refine ⟨⟨?_, ?_⟩, ?_, ?_, ?_⟩
    · intro usable
      cases hs : c.state <;> simp [proxy?, hs] at usable ⊢
    · intro up
      obtain ⟨channel, mem⟩ := orderly.handed down up
      obtain ⟨before, after, split⟩ := List.append_of_mem mem
      have current : c.isUp c.generation = true := (isUp_iff c _).2 ⟨rfl, .inr up⟩
      rcases fate ⟨before, after, _, channel, split⟩ with held | ⟨past, -⟩
      · have stored : c.channel = some channel := held.channel
        simp [proxy?, up, stored]
      · rw [current] at past
        cases past
    · intro nowhere
      have tidy : c.Tidy := run_invariant (P := Tidy) (fun _ s h => step_tidy h s)
        (fun stored => absurd rfl stored) steps
      by_contra stored
      rcases tidy stored with hs | hs <;> simp [hs] at nowhere
    · intro h
      exact (fate h).imp_right (·.2)
    · intro h h' here here'
      have first := ((isUp_iff c _).1 (live h here).up).1
      have second := ((isUp_iff c _).1 (live h' here').up).1
      exact orderly.handout_ext (first.symm.trans second)
  · have start : (new codec transport).Accounted [] :=
      ⟨trivial, fun generation attempting => by simp [isAttempting, new] at attempting⟩
    obtain ⟨steps, accounted, performed⟩ := start.performAll operations
    exact ⟨steps, accounted.orderly, performed⟩

/-- A channel that is lost while it is made is torn down when it comes, and the next is stored. -/
theorem lost_channel_replaced :
    let first : List (Step ScriptedTransport) := [.connect (.completion 0), .signal (.lost 1)]
    let second : List (Step ScriptedTransport) :=
      [.pass 3000, .ring ⟨3000, .reconnect⟩, .created 2 (.ok 2),
        .signal (.sessionReply 2 (.ok .done))]
    let steps := first ++ .created 1 (.ok 1) :: second
    let start := new ⟨4194304⟩ ScriptedTransport.initial
    let lost : Handout steps := ⟨first, second, 1, 1, rfl⟩
    start.Orderly [] steps ∧ (start.run steps).state = .connected ∧
      (start.run steps).proxy?.isSome = true ∧ lost.IsGone start := by
  intro first second steps start lost
  have orderly : start.Orderly [] steps := by
    have begun : 2 ≤ (start.run (first ++ .created 1 (.ok 1) :: second.take 2)).generation := by
      decide +kernel
    exact ⟨trivial, trivial, ⟨Nat.le_refl _, by simp⟩, trivial, trivial, ⟨begun, by simp⟩,
      fun _ => ⟨2, by simp⟩, trivial⟩
  obtain ⟨usable, -, fate, -⟩ :=
    (channels_owned ⟨4194304⟩ ScriptedTransport.initial).1 steps orderly
  have up : (start.run steps).state = .connected := by decide +kernel
  refine ⟨orderly, up, usable.2 up, (fate lost).resolve_left fun held => ?_⟩
  have other : (start.run steps).channel = some 2 := by decide +kernel
  exact absurd (held.channel.symm.trans other) (by simp [lost])

end EndpointMonitor.Connection
