import EndpointMonitor.Connection.Scripted
import EndpointMonitor.Proofs.Connection.Effect
import EndpointMonitor.Proofs.Connection.Operation

/-!
Those who wait for an attempt. Each is told one outcome, in the step that decides the attempt, and
nobody waits for anything but a manual attempt under way.
-/

namespace EndpointMonitor

/-- Who is answered, and what. -/
def ConnectionEvent.answer? : ConnectionEvent → Option (Waiter × Outcome)
  | .answered waiter outcome => some (waiter, outcome)
  | .creating _ | .requested _ _ _ | .closed _ | .published _ _ => none

namespace ConnectionEvent

@[simp] theorem answer_creating (generation : Nat) : (creating generation).answer? = none := rfl

@[simp] theorem answer_requested (generation channel : Nat) (converter : Bytes) :
    (requested generation channel converter).answer? = none := rfl

@[simp] theorem answer_closed (channel : Nat) : (closed channel).answer? = none := rfl

@[simp] theorem answer_answered (waiter : Waiter) (outcome : Outcome) :
    (answered waiter outcome).answer? = some (waiter, outcome) := rfl

@[simp] theorem answer_published (subscriber : String) (outcome : Outcome) :
    (published subscriber outcome).answer? = none := rfl

end ConnectionEvent

namespace Connection

variable {σ : Type}

def answers (c : Connection σ) : List (Waiter × Outcome) := c.trace.filterMap (·.answer?)

/-- Nobody waits, unless for a manual attempt under way. -/
def Attended (c : Connection σ) : Prop :=
  c.waiters ≠ [] → c.state = .connecting ∧ c.attempt = .manual

theorem Attended.waiters_of_ne {c : Connection σ} (h : c.Attended)
    (apart : c.state ≠ .connecting ∨ c.attempt ≠ .manual) : c.waiters = [] := by
  by_contra some_
  obtain ⟨connecting, manual⟩ := h some_
  rcases apart with hs | ha
  · exact hs connecting
  · exact ha manual

namespace Turn

/-- The outcome that a turn tells those who wait, if it tells them one. -/
@[simp] def verdict? : Turn → Option Outcome
  | .opens => some (.ok ())
  | .fails error => some (.error error)
  | .loses => some (.error .interrupted)
  | .ends => some (.error .channelInvalidated)
  | .begins _ | .requests | .rests => none

def replies (c : Connection σ) (t : Turn) : List (Waiter × Outcome) :=
  match t.verdict? with
  | some outcome => c.waiters.map (·, outcome)
  | none => []

def left (c : Connection σ) (t : Turn) : List Waiter :=
  match t.verdict? with
  | some _ => []
  | none => c.waiters

theorem replies_append_left (c : Connection σ) (t : Turn) :
    (t.replies c).map (·.1) ++ t.left c = c.waiters := by
  cases hv : t.verdict? <;> simp only [replies, left, hv] <;> simp [Function.comp_def]

end Turn

/-! ### Who is answered in a step -/

theorem Attended.waiters_turn {c : Connection σ} (attended : c.Attended) (t : Turn) :
    t.waiters c = t.left c := by
  cases t with
  | fails error =>
    cases ha : c.attempt with
    | manual => simp [Turn.waiters, Turn.left, ha]
    | automatic =>
      have nobody : c.waiters = [] := attended.waiters_of_ne (.inr (by simp [ha]))
      simp [Turn.waiters, Turn.left, ha, nobody]
  | _ => rfl

theorem Attended.answers_turn {c : Connection σ} (attended : c.Attended) (t : Turn) :
    (t.events c).filterMap (·.answer?) = t.replies c := by
  cases t with
  | fails error =>
    cases ha : c.attempt with
    | manual =>
      simp [Turn.events, Turn.replies, ha, announcement, Function.comp_def, List.filterMap_none]
    | automatic =>
      have nobody : c.waiters = [] := attended.waiters_of_ne (.inr (by simp [ha]))
      simp [Turn.events, Turn.replies, ha, nobody, Function.comp_def, List.filterMap_none]
  | loses =>
    by_cases told : c.state = .connected ∨ c.attempt = .manual
    · simp [Turn.events, Turn.replies, told, announcement, Function.comp_def, List.filterMap_none]
    · have nobody : c.waiters = [] := attended.waiters_of_ne (.inr (not_or.1 told).2)
      simp [Turn.events, Turn.replies, told, nobody]
  | opens | ends =>
    simp [Turn.events, Turn.replies, announcement, Function.comp_def, List.filterMap_none]
  | begins kind | requests | rests => rfl

/-- A turn is done to those who wait, and nobody else is answered. -/
structure Serves (c : Connection σ) (t : Turn) (c' : Connection σ) : Prop where
  waiters : c'.waiters = t.left c
  answers : c'.answers = c.answers ++ t.replies c

theorem Serves.of_same {c c' : Connection σ} {t : Turn} (quiet : t.verdict? = none)
    (waiters : c'.waiters = c.waiters) (answers : c'.answers = c.answers) : Serves c t c' where
  waiters := by simp only [Turn.left, quiet, waiters]
  answers := by simp only [Turn.replies, quiet, answers, List.append_nil]

theorem Effects.serves {c c' : Connection σ} {t : Turn} (h : Effects c t c')
    (attended : c.Attended) : Serves c t c' where
  waiters := h.waiters.trans (attended.waiters_turn t)
  answers := by rw [answers, h.trace, List.filterMap_append, attended.answers_turn, answers]

variable [Transport σ]

theorem created_serves {c : Connection σ} (attended : c.Attended) (generation channel : Nat) :
    Serves c (c.turn (.created generation (.ok channel)))
      (c.step (.created generation (.ok channel))) := by
  rcases created_cases c generation channel with
    ⟨payload, -, turned, -, waiters, -, trace⟩ | ⟨error, -, turned, -, waiters, -, trace⟩ |
      ⟨-, turned, -, waiters, -, trace⟩
  · rw [turned]
    refine .of_same rfl waiters ?_
    simp [answers, trace]
  · have stored : Attended { c with channel := some channel } := attended
    have told := stored.answers_turn (.fails error)
    rw [turned] at waiters trace ⊢
    refine ⟨waiters.trans (attended.waiters_turn _), ?_⟩
    rw [answers, trace, List.filterMap_append, told]
    rfl
  · rw [turned]
    refine .of_same rfl waiters ?_
    simp [answers, trace]

/-- A step answers those who wait, if its turn has an outcome for them, and no others; only a wish
to connect can be answered besides. -/
theorem step_serves {c : Connection σ} (attended : c.Attended) {s : Step σ}
    (apart : ∀ waiter, s ≠ .connect waiter) : Serves c (c.turn s) (c.step s) := by
  rcases step_effects c s with
    effects | ⟨waiter, rfl⟩ | ⟨bridge, awaited, rfl⟩ | ⟨generation, channel, rfl⟩
  · exact effects.serves attended
  · exact absurd rfl (apart waiter)
  · exact .of_same rfl rfl rfl
  · exact created_serves attended generation channel

theorem connect_waiters (c : Connection σ) (waiter : Waiter) :
    (c.step (.connect waiter)).waiters =
      c.waiters ++ if (refusal? c.state).isSome then [] else [waiter] := by
  cases h : refusal? c.state with
  | some outcome =>
    rw [step_connect_refused h]
    exact (List.append_nil _).symm
  | none =>
    rw [step_connect_begun h]
    rfl

theorem connect_answers (c : Connection σ) (waiter : Waiter) :
    (c.step (.connect waiter)).answers =
      c.answers ++ (refusal? c.state).toList.map (waiter, ·) := by
  cases h : refusal? c.state with
  | some outcome =>
    rw [step_connect_refused h]
    simp [answers]
  | none =>
    rw [step_connect_begun h]
    simp [answers]

theorem step_attended {c : Connection σ} (attended : c.Attended) (s : Step σ) :
    (c.step s).Attended := by
  intro some_
  rw [(step_turns c s).state, (step_turns c s).attempt]
  by_cases asks : ∃ waiter, s = .connect waiter
  · obtain ⟨waiter, rfl⟩ := asks
    rw [turn_connect]
    split
    · next refused =>
      have kept : (c.step (.connect waiter)).waiters = c.waiters := by
        rw [connect_waiters, if_pos refused, List.append_nil]
      rw [kept] at some_
      exact attended some_
    · exact ⟨rfl, rfl⟩
  · have apart : ∀ waiter, s ≠ .connect waiter := fun waiter hs => asks ⟨waiter, hs⟩
    have serves := step_serves attended apart
    have allowed := turn_allowed c s
    have taken := turn_takenBy c s
    rw [serves.waiters] at some_
    cases ht : c.turn s with
    | begins kind =>
      -- Somebody waits, so an attempt is under way already.
      have waiting : c.waiters ≠ [] := by simpa [ht, Turn.left] using some_
      have connecting := (attended waiting).1
      simp [ht, Turn.Allowed, connecting] at allowed
    | requests | rests =>
      have waiting : c.waiters ≠ [] := by simpa [ht, Turn.left] using some_
      exact attended waiting
    | opens | fails error | loses | ends => simp [ht, Turn.left] at some_

theorem run_attended {c : Connection σ} (attended : c.Attended) (steps : List (Step σ)) :
    (c.run steps).Attended :=
  run_invariant (P := Attended) (fun _ s h => step_attended h s) attended steps

/-! ### Nobody is lost, and nobody is answered twice -/

def Step.asks (waiter : Waiter) : Step σ → Bool
  | .connect other => other = waiter
  | _ => false

/-- How often a waiter has been answered, and still waits. -/
def served (c : Connection σ) (waiter : Waiter) : Nat :=
  (c.answers.map (·.1)).count waiter + c.waiters.count waiter

theorem served_step {c : Connection σ} (attended : c.Attended) (s : Step σ) (waiter : Waiter) :
    (c.step s).served waiter = c.served waiter + if s.asks waiter then 1 else 0 := by
  by_cases asks : ∃ other, s = .connect other
  · obtain ⟨other, rfl⟩ := asks
    rw [served, connect_waiters, connect_answers, served]
    cases hr : refusal? c.state with
    | some outcome =>
      simp only [List.map_append, List.count_append, Option.toList_some, List.map_cons,
        List.map_nil, Option.isSome_some, if_true, List.count_nil, List.count_singleton,
        Step.asks, beq_iff_eq, decide_eq_true_eq]
      omega
    | none =>
      simp only [List.map_append, List.count_append, Option.toList_none, List.map_nil,
        Option.isSome_none, Bool.false_eq_true, if_false, List.count_nil, List.count_singleton,
        Step.asks, beq_iff_eq, decide_eq_true_eq]
      omega
  · have apart : ∀ other, s ≠ .connect other := fun other hs => asks ⟨other, hs⟩
    have silent : s.asks waiter = false := by
      cases s with
      | connect other => exact absurd rfl (apart other)
      | _ => rfl
    have serves := step_serves attended apart
    -- Whoever is answered now was waiting before, and waits no longer.
    have moved := congrArg (List.count waiter) (Turn.replies_append_left c (c.turn s))
    rw [List.count_append] at moved
    rw [served, serves.waiters, serves.answers, List.map_append, List.count_append, served, silent]
    simp only [Bool.false_eq_true, if_false]
    omega

theorem served_run {c : Connection σ} (attended : c.Attended) (steps : List (Step σ))
    (waiter : Waiter) :
    (c.run steps).served waiter = c.served waiter + steps.countP (·.asks waiter) := by
  induction steps generalizing c with
  | nil => rfl
  | cons s steps ih =>
    have rest := ih (step_attended attended s)
    have first := served_step attended s waiter
    rw [run_cons, rest, first, List.countP_cons]
    omega

/-! ### Calls that go on later -/

def Operation.connectsWith (completion : Nat) : Operation σ → Bool
  | .connectWith other => other = completion
  | _ => false

theorem asks_of_mem_reports {c : Connection σ} {kind : AttemptKind} {asker : Option Waiter}
    {s : Step σ} (h : s ∈ c.reports kind asker) (waiter : Waiter) : s.asks waiter = false := by
  obtain ⟨signal, rfl⟩ | ⟨generation, result, rfl⟩ := cases_of_mem_reports h <;> rfl

/-- A completion asks in its own call, and there once. -/
theorem countP_asks_stepsOf (c : Connection σ) (operation : Operation σ) (completion : Nat) :
    (c.stepsOf operation).countP (·.asks (.completion completion)) =
      if operation.connectsWith completion then 1 else 0 := by
  have silent : ∀ {connection : Connection σ} {kind asker},
      (connection.reports kind asker).countP (·.asks (.completion completion)) = 0 := by
    intro connection kind asker
    apply List.countP_eq_zero.2
    intro s hs
    simp [asks_of_mem_reports hs]
  cases operation with
  | connectWith other =>
    rw [stepsOf, List.countP_cons, silent]
    simp [Step.asks, Operation.connectsWith]
  | beginConnect thread timeoutMs =>
    simp only [stepsOf]
    cases c.bridge.enter thread timeoutMs with
    | rejected | waiting holder => rfl
    | started call bridge =>
      simp only [List.cons_append, List.countP_cons, List.countP_append, silent, List.countP_nil]
      rfl
  | fire t =>
    simp only [stepsOf]
    split
    · simp only [List.countP_cons, silent]
      rfl
    · rfl
  | finishConnect call =>
    simp only [stepsOf]
    rcases c.bridge.leave call with _ | ⟨error | result, bridge⟩
    · rfl
    · cases error <;> cases c.awaited <;> rfl
    · rfl
  | _ => rfl

theorem served_performAll {c : Connection σ} (attended : c.Attended)
    (operations : List (Operation σ)) (completion : Nat) :
    (c.performAll operations).served (.completion completion) =
      c.served (.completion completion) + operations.countP (·.connectsWith completion) := by
  induction operations generalizing c with
  | nil => rfl
  | cons operation operations ih =>
    have first := served_run attended (c.stepsOf operation) (.completion completion)
    rw [countP_asks_stepsOf, ← perform_eq_run] at first
    have still : (c.perform operation).Attended := by
      rw [perform_eq_run]
      exact run_attended attended _
    have rest : (c.performAll (operation :: operations)).served (.completion completion) =
      (c.perform operation).served (.completion completion) +
        operations.countP (·.connectsWith completion) := ih still
    rw [rest, first, List.countP_cons]
    omega

/-! ### What is told -/

/-- All who wait are told this outcome in a step, nobody else is, and nobody waits any longer. -/
structure Dismisses (c : Connection σ) (s : Step σ) (outcome : Outcome) : Prop where
  waiters : (c.step s).waiters = []
  answers : (c.step s).answers = c.answers ++ c.waiters.map (·, outcome)

theorem dismisses_of_verdict {c : Connection σ} (attended : c.Attended) {s : Step σ}
    {outcome : Outcome} (h : (c.turn s).verdict? = some outcome) : c.Dismisses s outcome := by
  have apart : ∀ waiter, s ≠ .connect waiter := by
    rintro waiter rfl
    rw [turn_connect] at h
    split at h <;> cases h
  have serves := step_serves attended apart
  refine ⟨?_, ?_⟩
  · simpa only [Turn.left, h] using serves.waiters
  · simpa only [Turn.replies, h] using serves.answers

/-- What those who wait are told when their attempt is over. -/
structure Verdicts (c : Connection σ) : Prop where
  opened : ∀ generation reply, c.isAttempting generation = true →
    c.Dismisses (.signal (.sessionReply generation (.ok reply))) (.ok ())
  refused : ∀ generation reason, c.isAttempting generation = true →
    c.Dismisses (.signal (.sessionReply generation (.error reason))) (.error (.remote reason))
  factory : ∀ generation error, c.isAttempting generation = true →
    c.Dismisses (.created generation (.error error)) (.error error)
  encoder : ∀ generation channel error, c.isAttempting generation = true →
    c.codec.encode c.converter = .error error →
    c.Dismisses (.created generation (.ok channel)) (.error error)
  deadline : ∀ t generation timeoutMs, c.isAttempting generation = true → c.isDue t = true →
    t.alarm = .sessionDeadline generation timeoutMs →
    c.Dismisses (.ring t) (.error (.timeout timeoutMs))
  givenUp : ∀ generation timeoutMs, c.isAttempting generation = true →
    c.Dismisses (.giveUp generation timeoutMs) (.error (.timeout timeoutMs))
  lost : ∀ generation, c.isUp generation = true →
    c.Dismisses (.signal (.lost generation)) (.error .interrupted)
  invalidated : c.state ≠ .invalidated →
    c.Dismisses .invalidate (.error .channelInvalidated)
  /-- An attempt is over in one of these ways, and then it has an outcome. -/
  decided : ∀ s, c.state = .connecting → (c.step s).isAttempting c.generation = false →
    ∃ outcome, c.Dismisses s outcome
  /-- Until then nobody is told anything but who asks in between. -/
  kept : ∀ s, (c.step s).isAttempting c.generation = true → (∀ waiter, s ≠ .connect waiter) →
    (c.step s).waiters = c.waiters ∧ (c.step s).answers = c.answers

theorem Attended.verdicts {c : Connection σ} (attended : c.Attended) : Verdicts c where
  opened generation reply h := dismisses_of_verdict attended (by simp [turn, signalTurn, h])
  refused generation reason h :=
    dismisses_of_verdict attended (by simp [turn, signalTurn, failureTurn, h])
  factory generation error h := dismisses_of_verdict attended (by simp [turn, failureTurn, h])
  encoder generation channel error h he :=
    dismisses_of_verdict attended (by simp [turn, handOverTurn, he, failureTurn, h])
  deadline t generation timeoutMs h due ha :=
    dismisses_of_verdict attended (by simp [turn, due, alarmTurn, ha, failureTurn, h])
  givenUp generation timeoutMs h := dismisses_of_verdict attended (by simp [turn, failureTurn, h])
  lost generation h := dismisses_of_verdict attended (by simp [turn, signalTurn, h])
  invalidated h := dismisses_of_verdict attended (by simp [turn, h])
  decided s connecting gone := by
    have still : ¬(c.turn s = .requests ∨ c.turn s = .rests) := by
      intro same
      have here : (c.step s).isAttempting c.generation = true := by
        rw [isAttempting_iff, (step_turns c s).state, (step_turns c s).generation]
        rcases same with ht | ht <;> simp [ht, connecting]
      rw [gone] at here
      cases here
    have allowed := turn_allowed c s
    cases ht : c.turn s with
    | requests => exact absurd (.inl ht) still
    | rests => exact absurd (.inr ht) still
    | begins kind => simp [ht, Turn.Allowed, connecting] at allowed
    | opens | fails error | loses | ends =>
      exact ⟨_, dismisses_of_verdict attended (by rw [ht]; rfl)⟩
  kept s here apart := by
    have serves := step_serves attended apart
    have turned := (turn_of_isAttempting_step (Nat.le_refl _) here).2
    have quiet : (c.turn s).verdict? = none := by
      rcases turned with ht | ht <;> rw [ht] <;> rfl
    refine ⟨?_, ?_⟩
    · simpa only [Turn.left, quiet] using serves.waiters
    · simpa only [Turn.replies, quiet, List.append_nil] using serves.answers

/-- A caller is told this at once, and no attempt begins for it. -/
structure Refuses (c : Connection σ) (waiter : Waiter) (outcome : Outcome) : Prop where
  state : (c.step (.connect waiter)).state = c.state
  generation : (c.step (.connect waiter)).generation = c.generation
  waiters : (c.step (.connect waiter)).waiters = c.waiters
  answers : (c.step (.connect waiter)).answers = c.answers ++ [(waiter, outcome)]

theorem refuses_of_refusal {c : Connection σ} {outcome : Outcome}
    (h : refusal? c.state = some outcome) (waiter : Waiter) : c.Refuses waiter outcome := by
  have rests : c.turn (.connect waiter) = .rests := by simp [turn_connect, h]
  have turns := step_turns c (.connect waiter)
  rw [rests] at turns
  refine ⟨turns.state, turns.generation, ?_, ?_⟩
  · rw [connect_waiters, h]
    exact List.append_nil _
  · rw [connect_answers, h]
    rfl

/-- A caller waits alone for the attempt that begins for it. -/
structure Accepts (c : Connection σ) (waiter : Waiter) : Prop where
  attempting : (c.step (.connect waiter)).isAttempting (c.generation + 1) = true
  attempt : (c.step (.connect waiter)).attempt = .manual
  waiters : (c.step (.connect waiter)).waiters = [waiter]
  answers : (c.step (.connect waiter)).answers = c.answers

theorem accepts_of_no_attempt {c : Connection σ} (attended : c.Attended)
    (h : c.state = .idle ∨ c.state = .interrupted) (waiter : Waiter) : c.Accepts waiter := by
  have nobody : c.waiters = [] := by
    refine attended.waiters_of_ne (.inl ?_)
    rcases h with hs | hs <;> simp [hs]
  have welcome : refusal? c.state = none := by
    rcases h with hs | hs <;> simp [hs, refusal?, admission]
  have begins : c.turn (.connect waiter) = .begins .manual := by simp [turn_connect, welcome]
  have turns := step_turns c (.connect waiter)
  rw [begins] at turns
  refine ⟨(isAttempting_iff _ _).2 ⟨turns.generation, turns.state⟩, turns.attempt, ?_, ?_⟩
  · rw [connect_waiters, nobody, welcome]
    rfl
  · rw [connect_answers, welcome]
    exact List.append_nil _

omit [Transport σ] in
theorem new_attended (codec : Codec) (transport : σ) : (new codec transport).Attended :=
  fun some_ => absurd rfl some_

/-- Whoever asks for a connection is answered once, or still waits. Those who wait do so for a
manual attempt, and are told its outcome in the step in which it is over. Where no attempt begins,
the answer is given at once. A completion is run no more often than it was passed on. -/
theorem waiters_answered_once (codec : Codec) (transport : σ) :
    (∀ steps : List (Step σ),
      let c := (new codec transport).run steps
      (c.waiters ≠ [] → c.state = .connecting ∧ c.attempt = .manual) ∧
      (∀ waiter, (c.answers.map (·.1)).count waiter + c.waiters.count waiter =
        steps.countP (·.asks waiter)) ∧
      Verdicts c ∧
      ∀ waiter,
        (c.state = .connected → c.Refuses waiter (.ok ())) ∧
        (c.state = .connecting →
          c.Refuses waiter (.error (.unexpected "connection attempt already in progress"))) ∧
        (c.state = .invalidated → c.Refuses waiter (.error .channelInvalidated)) ∧
        (c.state = .idle ∨ c.state = .interrupted → c.Accepts waiter)) ∧
    ∀ operations : List (Operation σ),
      let c := (new codec transport).performAll operations
      (∃ steps, c = (new codec transport).run steps) ∧
      ∀ completion, (c.answers.map (·.1)).count (.completion completion) +
        c.waiters.count (.completion completion) =
          operations.countP (·.connectsWith completion) := by
  have start : ∀ waiter, (new codec transport).served waiter = 0 := fun _ => rfl
  refine ⟨fun steps => ?_, fun operations => ⟨performAll_eq_run _ operations, ?_⟩⟩
  · intro c
    have attended : c.Attended := run_attended (new_attended codec transport) steps
    refine ⟨attended, fun waiter => ?_, attended.verdicts, fun waiter => ⟨?_, ?_, ?_, ?_⟩⟩
    · have count := served_run (new_attended codec transport) steps waiter
      rw [start, Nat.zero_add] at count
      exact count
    · exact fun hs => refuses_of_refusal (by rw [hs]; rfl) waiter
    · exact fun hs => refuses_of_refusal (by rw [hs]; rfl) waiter
    · exact fun hs => refuses_of_refusal (by rw [hs]; rfl) waiter
    · exact fun h => accepts_of_no_attempt attended h waiter
  · intro completion
    have count := served_performAll (new_attended codec transport) operations completion
    rw [start, Nat.zero_add] at count
    exact count

/-- A completion waits for a session that is not answered. A second one is refused meanwhile. -/
theorem waiter_told_of_deadline :
    let steps : List (Step ScriptedTransport) :=
      [.connect (.completion 0), .created 1 (.ok 1), .pass 5000]
    let c := (new ⟨4194304⟩ ScriptedTransport.initial).run steps
    c.waiters = [.completion 0] ∧ c.state = .connecting ∧ c.attempt = .manual ∧
      c.Refuses (.completion 1) (.error (.unexpected "connection attempt already in progress")) ∧
      (c.step (.ring ⟨5000, .sessionDeadline 1 5000⟩)).answers =
        [(.completion 0, .error (.timeout 5000))] ∧
      (c.step (.signal (.lost 1))).answers = [(.completion 0, .error .interrupted)] ∧
      (c.step .invalidate).answers = [(.completion 0, .error .channelInvalidated)] := by
  intro steps c
  have waiting : c.waiters = [.completion 0] := rfl
  obtain ⟨manual, -, verdicts, refusals⟩ :=
    (waiters_answered_once ⟨4194304⟩ ScriptedTransport.initial).1 steps
  obtain ⟨connecting, attempt⟩ := manual (by rw [waiting]; simp)
  have attempting : c.isAttempting 1 = true := rfl
  refine ⟨waiting, connecting, attempt, (refusals _).2.1 connecting, ?_, ?_, ?_⟩
  · exact (verdicts.deadline ⟨5000, .sessionDeadline 1 5000⟩ 1 5000 attempting
      (by decide) rfl).answers
  · exact (verdicts.lost 1 rfl).answers
  · exact (verdicts.invalidated (by rw [connecting]; simp)).answers

end Connection

end EndpointMonitor
