import EndpointMonitor.Proofs.Connection.Turn

/-!
What a step does to the channel and to those who wait, and all that others see of it. A turn decides
that alone, unless the step brings callers, somebody who waits, or a channel.
-/

namespace EndpointMonitor

/-- The channel that is torn down. -/
def ConnectionEvent.closed? : ConnectionEvent → Option Nat
  | .closed channel => some channel
  | .creating _ | .requested _ _ _ | .published _ _ | .answered _ _ => none

namespace ConnectionEvent

@[simp] theorem closed_creating (generation : Nat) : (creating generation).closed? = none := rfl

@[simp] theorem closed_requested (generation channel : Nat) (converter : Bytes) :
    (requested generation channel converter).closed? = none := rfl

@[simp] theorem closed_closed (channel : Nat) : (closed channel).closed? = some channel := rfl

@[simp] theorem closed_published (subscriber : String) (outcome : Outcome) :
    (published subscriber outcome).closed? = none := rfl

@[simp] theorem closed_answered (waiter : Waiter) (outcome : Outcome) :
    (answered waiter outcome).closed? = none := rfl

end ConnectionEvent

namespace Connection

variable {σ : Type}

def closures (c : Connection σ) : List Nat := c.trace.filterMap (·.closed?)

theorem closures_of_trace {c c' : Connection σ} {later : List ConnectionEvent}
    (h : c'.trace = c.trace ++ later) :
    c'.closures = c.closures ++ later.filterMap (·.closed?) := by
  rw [closures, h, List.filterMap_append, closures]

/-- An outcome goes to those who wait and then to the subscriber. -/
def announcement (c : Connection σ) (outcome : Outcome) : List ConnectionEvent :=
  c.waiters.map (.answered · outcome) ++ c.subscriber.toList.map (.published · outcome)

namespace Turn

/-- The channel after a turn that brings none. -/
def channel (c : Connection σ) : Turn → Option Nat
  | .fails _ | .loses | .ends => none
  | .begins _ | .requests | .opens | .rests => c.channel

/-- Those who wait after a turn that brings nobody. -/
def waiters (c : Connection σ) : Turn → List Waiter
  | .fails _ =>
    match c.attempt with
    | .manual => []
    | .automatic => c.waiters
  | .opens | .loses | .ends => []
  | .begins _ | .requests | .rests => c.waiters

/-- The blocked callers after a turn that brings none. -/
def bridge (c : Connection σ) : Turn → Bridge Unit
  | .opens => c.waiters.foldl (Bridge.tell (.ok ())) c.bridge
  | .fails error =>
    match c.attempt with
    | .manual => c.waiters.foldl (Bridge.tell (.error error)) c.bridge
    | .automatic => c.bridge
  | .loses =>
    if c.state = .connected ∨ c.attempt = .manual then
      c.waiters.foldl (Bridge.tell (.error .interrupted)) c.bridge
    else c.waiters.foldl Bridge.forget c.bridge
  | .ends => c.waiters.foldl (Bridge.tell (.error .channelInvalidated)) c.bridge
  | .begins _ | .requests | .rests => c.bridge

/-- What others see of a turn. -/
def events (c : Connection σ) : Turn → List ConnectionEvent
  | .begins _ => [.creating (c.generation + 1)]
  | .opens => c.announcement (.ok ())
  | .fails error =>
    c.channel.toList.map .closed ++
      match c.attempt with
      | .manual => c.announcement (.error error)
      | .automatic => []
  | .loses =>
    if c.state = .connected ∨ c.attempt = .manual then c.announcement (.error .interrupted) else []
  | .ends => c.channel.toList.map .closed ++ c.announcement (.error .channelInvalidated)
  | .requests | .rests => []

end Turn

/-- A turn is done, which brings neither callers nor anybody who waits nor a channel. -/
structure Effects (c : Connection σ) (t : Turn) (c' : Connection σ) : Prop where
  channel : c'.channel = t.channel c
  waiters : c'.waiters = t.waiters c
  bridge : c'.bridge = t.bridge c
  trace : c'.trace = c.trace ++ t.events c

theorem Effects.rest {c c' : Connection σ} (channel : c'.channel = c.channel)
    (waiters : c'.waiters = c.waiters) (bridge : c'.bridge = c.bridge)
    (trace : c'.trace = c.trace) : Effects c .rests c' where
  channel := channel
  waiters := waiters
  bridge := bridge
  trace := trace.trans (List.append_nil _).symm

theorem channelLost_effects (c : Connection σ) (generation : Nat) :
    Effects c (c.signalTurn (.lost generation)) (c.channelLost generation) := by
  by_cases h : c.isUp generation = true
  · rw [signalTurn, if_pos h]
    by_cases told : c.state = .connected ∨ c.attempt = .manual
    · rw [channelLost_told h told]
      refine ⟨rfl, rfl, (if_pos told).symm, ?_⟩
      simp [Turn.events, told, announcement]
    · rw [channelLost_untold h told]
      -- Whoever still waits is not answered here, only given up.
      refine ⟨rfl, rfl, (if_neg told).symm, ?_⟩
      simp [Turn.events, told, interrupt]
  · rw [signalTurn, if_neg h, channelLost_stale (by simpa using h)]
    exact .rest rfl rfl rfl rfl

variable [Transport σ]

theorem attemptFailed_effects (c : Connection σ) (generation : Nat) (error : ClientError) :
    Effects c (c.failureTurn generation error) (c.attemptFailed generation error) := by
  by_cases h : c.isAttempting generation = true
  · rw [failureTurn, if_pos h]
    cases ha : c.attempt with
    | manual =>
      rw [attemptFailed_manual h ha]
      refine ⟨rfl, by simp [Turn.waiters, ha], by simp [Turn.bridge, ha], ?_⟩
      simp [Turn.events, ha, announcement]
    | automatic =>
      rw [attemptFailed_automatic h ha]
      refine ⟨rfl, by simp [Turn.waiters, ha], by simp [Turn.bridge, ha], ?_⟩
      simp [Turn.events, ha]
  · rw [failureTurn, if_neg h, attemptFailed_stale (by simpa using h)]
    exact .rest rfl rfl rfl rfl

theorem receive_effects (c : Connection σ) (signal : Signal) :
    Effects c (c.signalTurn signal) (c.receive signal) := by
  rcases signal with generation | ⟨generation, reason | reply⟩
  · exact channelLost_effects c generation
  · exact attemptFailed_effects c generation (.remote reason)
  · by_cases h : c.isAttempting generation = true
    · rw [signalTurn, if_pos h, receive, sessionCreated_ok h]
      refine ⟨rfl, rfl, rfl, ?_⟩
      simp [Turn.events, announcement]
    · rw [signalTurn, if_neg h, receive, sessionCreated_stale (by simpa using h)]
      exact .rest rfl rfl rfl rfl

theorem invalidate_effects (c : Connection σ) :
    Effects c (c.turn .invalidate) c.invalidate := by
  by_cases h : c.state = .invalidated
  · rw [turn, if_pos h, invalidate_invalidated h]
    exact .rest rfl rfl rfl rfl
  · rw [turn, if_neg h, invalidate_eq h]
    refine ⟨rfl, rfl, rfl, ?_⟩
    simp [Turn.events, announcement]

theorem strike_effects (c : Connection σ) (alarm : Alarm) :
    Effects c (c.alarmTurn alarm) (c.strike alarm) := by
  cases alarm with
  | sessionDeadline generation timeoutMs => exact attemptFailed_effects c generation _
  | reconnect =>
    rw [alarmTurn, startTurn, strike]
    cases h : admission c.state .automatic with
    | refused outcome =>
      rw [start_refused h]
      exact .rest rfl rfl rfl (List.append_nil _)
    | skipped =>
      rw [start_skipped h]
      exact .rest rfl rfl rfl rfl
    | begun =>
      rw [start_begun h]
      exact ⟨rfl, List.append_nil _, rfl, rfl⟩

/-- The turn decides it all, unless the step brings somebody who waits, callers, or a channel. -/
theorem step_effects (c : Connection σ) (s : Step σ) :
    Effects c (c.turn s) (c.step s) ∨ (∃ waiter, s = .connect waiter) ∨
      (∃ bridge awaited, s = .callers bridge awaited) ∨
      ∃ generation channel, s = .created generation (.ok channel) := by
  cases s with
  | connect waiter => exact .inr (.inl ⟨waiter, rfl⟩)
  | callers bridge awaited => exact .inr (.inr (.inl ⟨bridge, awaited, rfl⟩))
  | created generation result =>
    cases result with
    | error error => exact .inl (attemptFailed_effects c generation error)
    | ok channel => exact .inr (.inr (.inr ⟨generation, channel, rfl⟩))
  | signal signal => exact .inl (receive_effects c signal)
  | ring t =>
    left
    simp only [turn, step]
    split
    · have rings := strike_effects { c with timers := c.timers.erase t } t.alarm
      exact ⟨rings.channel, rings.waiters, rings.bridge, rings.trace⟩
    · exact .rest rfl rfl rfl rfl
  | giveUp generation timeoutMs => exact .inl (attemptFailed_effects c generation _)
  | configure setting => cases setting <;> exact .inl (.rest rfl rfl rfl rfl)
  | invalidate => exact .inl (invalidate_effects c)
  | pass ms | world transport => exact .inl (.rest rfl rfl rfl rfl)

/-! ### Those who ask -/

/-- What a caller is told at once who wants to connect now. -/
def refusal? (state : ConnectionState) : Option Outcome :=
  match admission state .manual with
  | .refused outcome => some outcome
  | .begun | .skipped => none

omit [Transport σ] in
theorem admission_of_refusal {state : ConnectionState} {outcome : Outcome}
    (h : refusal? state = some outcome) : admission state .manual = .refused outcome := by
  cases state <;> simp_all [refusal?, admission]

omit [Transport σ] in
theorem admission_of_no_refusal {state : ConnectionState} (h : refusal? state = none) :
    admission state .manual = .begun := by
  cases state <;> simp_all [refusal?, admission]

omit [Transport σ] in
theorem turn_connect (c : Connection σ) (waiter : Waiter) :
    c.turn (.connect waiter) = if (refusal? c.state).isSome then .rests else .begins .manual := by
  cases hs : c.state <;> simp [turn, startTurn, refusal?, admission, hs]

theorem step_connect_refused {c : Connection σ} {outcome : Outcome}
    (h : refusal? c.state = some outcome) (waiter : Waiter) :
    c.step (.connect waiter) =
      { c with
        bridge := c.bridge.tell outcome waiter
        trace := c.trace ++ [.answered waiter outcome] } := by
  rw [step, start_refused (admission_of_refusal h)]
  rfl

theorem step_connect_begun {c : Connection σ} (h : refusal? c.state = none) (waiter : Waiter) :
    c.step (.connect waiter) =
      { c with
        transport := (Transport.create c.transport (c.generation + 1)).2
        state := .connecting
        generation := c.generation + 1
        attempt := .manual
        waiters := c.waiters ++ [waiter]
        trace := c.trace ++ [.creating (c.generation + 1)] } := by
  rw [step, start_begun (admission_of_no_refusal h)]
  rfl

/-! ### Channels that come -/

/-- What becomes of a channel that is handed over: it is stored and a session request goes out, or
it is torn down at once, because the attempt has failed now or is over. -/
theorem created_cases (c : Connection σ) (generation channel : Nat) :
    let c' := c.step (.created generation (.ok channel))
    let t := c.turn (.created generation (.ok channel))
    (∃ payload, c.isAttempting generation = true ∧ t = .requests ∧ c'.channel = some channel ∧
      c'.waiters = c.waiters ∧ c'.bridge = c.bridge ∧
      c'.trace = c.trace ++ [.requested generation channel payload]) ∨
    (∃ error, c.isAttempting generation = true ∧ t = .fails error ∧ c'.channel = none ∧
      c'.waiters = t.waiters c ∧ c'.bridge = t.bridge c ∧
      c'.trace = c.trace ++ t.events { c with channel := some channel }) ∨
    (c.isAttempting generation = false ∧ t = .rests ∧ c'.channel = c.channel ∧
      c'.waiters = c.waiters ∧ c'.bridge = c.bridge ∧
      c'.trace = c.trace ++ [.closed channel]) := by
  intro c' t
  by_cases h : c.isAttempting generation = true
  · cases he : c.codec.encode c.converter with
    | ok payload =>
      left
      have requests : t = .requests := by simp [t, turn, handOverTurn, he, h]
      have handed := congrArg Prod.fst (handOver_requested h he channel)
      refine ⟨payload, h, requests, ?_⟩
      rw [show c' = _ from handed]
      exact ⟨rfl, rfl, rfl, rfl⟩
    | error error =>
      right; left
      have fails : t = .fails error := by simp [t, turn, handOverTurn, he, failureTurn, h]
      -- The failure finds the new channel stored, and so tears it down.
      have done := attemptFailed_effects { c with channel := some channel } generation error
      have turned : Connection.failureTurn { c with channel := some channel } generation error =
        .fails error := if_pos h
      rw [turned] at done
      have handed := congrArg Prod.fst (handOver_unencoded h he channel)
      refine ⟨error, h, fails, ?_⟩
      rw [show c' = _ from handed, fails]
      exact ⟨done.channel, done.waiters, done.bridge, done.trace⟩
  · right; right
    have rests : t = .rests := by
      simp only [t, turn, handOverTurn]
      split <;> simp [failureTurn, h]
    have past : c.isAttempting generation = false := by simpa using h
    have handed := congrArg Prod.fst (handOver_stale past channel)
    refine ⟨past, rests, ?_⟩
    rw [show c' = _ from handed]
    exact ⟨rfl, rfl, rfl, rfl⟩

theorem trace_step (c : Connection σ) (s : Step σ) :
    ∃ later, (c.step s).trace = c.trace ++ later := by
  rcases step_effects c s with
    effects | ⟨waiter, rfl⟩ | ⟨bridge, awaited, rfl⟩ | ⟨generation, channel, rfl⟩
  · exact ⟨_, effects.trace⟩
  · cases hr : refusal? c.state with
    | some outcome => exact ⟨_, by rw [step_connect_refused hr]⟩
    | none => exact ⟨_, by rw [step_connect_begun hr]⟩
  · exact ⟨[], (List.append_nil _).symm⟩
  · rcases created_cases c generation channel with
      ⟨_, -, -, -, -, -, seen⟩ | ⟨_, -, -, -, -, -, seen⟩ | ⟨-, -, -, -, -, seen⟩ <;>
      exact ⟨_, seen⟩

end Connection

end EndpointMonitor
