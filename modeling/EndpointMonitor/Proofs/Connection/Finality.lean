import EndpointMonitor.Connection.Scripted
import EndpointMonitor.Proofs.Connection.Meanwhile

/-!
The end of a connection. After it only channels that come late are torn down, and callers are turned
away; nothing is published, and nothing begins.
-/

namespace EndpointMonitor

/-- What can still be seen of a connection after its end. -/
inductive ConnectionEvent.IsLate : ConnectionEvent → Prop where
  | closed (channel : Nat) : IsLate (.closed channel)
  | answered (waiter : Waiter) : IsLate (.answered waiter (.error .channelInvalidated))

theorem ConnectionEvent.IsLate.heard_eq_none {event : ConnectionEvent} (h : event.IsLate) :
    event.heard? = none := by
  cases h <;> rfl

namespace Connection

variable {σ : Type}

/-- A connection at its end. -/
structure Ended (c : Connection σ) : Prop where
  state : c.state = .invalidated
  timers : c.timers = []
  waiters : c.waiters = []

theorem Ended.isAttempting {c : Connection σ} (h : c.Ended) (generation : Nat) :
    c.isAttempting generation = false := by
  simp [Connection.isAttempting, h.state]

theorem Ended.isUp {c : Connection σ} (h : c.Ended) (generation : Nat) :
    c.isUp generation = false := by
  simp [Connection.isUp, h.state]

theorem Ended.admission {c : Connection σ} (h : c.Ended) (kind : AttemptKind) :
    admission c.state kind = .refused (.error .channelInvalidated) := by
  rw [h.state]
  rfl

variable [Transport σ]

/-- What a step still does at the end. -/
def aftermath (c : Connection σ) : Step σ → Connection σ
  | .connect waiter =>
    { c with
      bridge := c.bridge.tell (.error .channelInvalidated) waiter
      trace := c.trace ++ [.answered waiter (.error .channelInvalidated)] }
  | .created _ (.ok channel) => c.close channel
  | .pass ms => c.wait ms
  | .configure setting => c.configure setting
  | .callers bridge awaited => { c with bridge, awaited }
  | .world transport => { c with transport }
  | .created _ (.error _) | .signal _ | .ring _ | .giveUp _ _ | .invalidate => c

theorem Ended.step_eq {c : Connection σ} (h : c.Ended) (s : Step σ) : c.step s = c.aftermath s := by
  cases s with
  | connect waiter =>
    rw [step, start_refused (h.admission .manual)]
    rfl
  | created generation result =>
    cases result with
    | error error => exact attemptFailed_stale (h.isAttempting generation) error
    | ok channel => exact congrArg Prod.fst (handOver_stale (h.isAttempting generation) channel)
  | signal signal =>
    cases signal with
    | lost generation => exact channelLost_stale (h.isUp generation)
    | sessionReply generation reply => exact sessionCreated_stale (h.isAttempting generation) reply
  | ring t =>
    have unset : c.isDue t = false := by simp [isDue, h.timers]
    simp [step, unset, aftermath]
  | giveUp generation timeoutMs => exact attemptFailed_stale (h.isAttempting generation) _
  | invalidate => exact invalidate_invalidated h.state
  | pass ms | configure setting | callers bridge awaited | world transport => rfl

/-- Even a timer that escapes the end does nothing. -/
theorem Ended.strike_eq {c : Connection σ} (h : c.Ended) (alarm : Alarm) : c.strike alarm = c := by
  cases alarm with
  | reconnect =>
    rw [strike, start_refused (h.admission .automatic)]
    simp
  | sessionDeadline generation timeoutMs => exact attemptFailed_stale (h.isAttempting generation) _

theorem ended_step {c : Connection σ} (h : c.Ended) (s : Step σ) : (c.step s).Ended := by
  obtain ⟨state, timers, waiters⟩ := h
  rw [Ended.step_eq ⟨state, timers, waiters⟩]
  cases s with
  | created generation result => cases result <;> exact ⟨state, timers, waiters⟩
  | configure setting => cases setting <;> exact ⟨state, timers, waiters⟩
  | _ => exact ⟨state, timers, waiters⟩

/-- After the end there are these events, and the transport has only torn down channels. -/
structure Fades (c : Connection σ) (steps : List (Step σ)) (late : List ConnectionEvent) :
    Prop where
  only : ∀ event ∈ late, event.IsLate
  trace : (c.run steps).trace = c.trace ++ late
  transport : (∀ transport, .world transport ∉ steps) →
    (c.run steps).transport = (late.filterMap (·.closed?)).foldl Transport.close c.transport

theorem fades_step {c : Connection σ} (h : c.Ended) (s : Step σ) : ∃ late, c.Fades [s] late := by
  have silent : (c.step s).trace = c.trace →
      ((∀ transport, s ≠ .world transport) → (c.step s).transport = c.transport) →
      ∃ late, c.Fades [s] late := by
    intro trace transport
    refine ⟨[], by simp, trace.trans (List.append_nil _).symm, fun alone => ?_⟩
    exact transport fun other hs => alone other (by simp [hs])
  cases s with
  | connect waiter =>
    refine ⟨[.answered waiter (.error .channelInvalidated)], ?_, ?_, ?_⟩
    · simpa using .answered waiter
    · rw [run_cons, h.step_eq]
      rfl
    · intro _
      rw [run_cons, h.step_eq]
      rfl
  | created generation result =>
    cases result with
    | error error => exact silent (by rw [h.step_eq]; rfl) fun _ => by rw [h.step_eq]; rfl
    | ok channel =>
      refine ⟨[.closed channel], by simpa using .closed channel, ?_, ?_⟩
      · rw [run_cons, h.step_eq]
        rfl
      · intro _
        rw [run_cons, h.step_eq]
        rfl
  | configure setting => cases setting <;> exact silent rfl fun _ => rfl
  | world transport => exact silent rfl fun alone => absurd rfl (alone transport)
  | pass ms | callers bridge awaited => exact silent rfl fun _ => rfl
  | signal signal | ring t | giveUp generation timeoutMs | invalidate =>
    exact silent (by rw [h.step_eq]; rfl) fun _ => by rw [h.step_eq]; rfl

theorem Fades.append {c : Connection σ} {steps more : List (Step σ)}
    {late later : List ConnectionEvent} (h : c.Fades steps late)
    (h' : (c.run steps).Fades more later) : c.Fades (steps ++ more) (late ++ later) where
  only event mem := (List.mem_append.1 mem).elim (h.only event) (h'.only event)
  trace := by rw [run_append, h'.trace, h.trace, List.append_assoc]
  transport alone := by
    have first := h.transport fun transport mem => alone transport (List.mem_append_left _ mem)
    have second := h'.transport fun transport mem => alone transport (List.mem_append_right _ mem)
    rw [run_append, second, first, List.filterMap_append, List.foldl_append]

theorem ended_run {c : Connection σ} (h : c.Ended) (steps : List (Step σ)) :
    (c.run steps).Ended ∧ ∃ late, c.Fades steps late := by
  induction steps generalizing c with
  | nil => exact ⟨h, [], by simp, (List.append_nil _).symm, fun _ => rfl⟩
  | cons s steps ih =>
    obtain ⟨ended, later, rest⟩ := ih (ended_step h s)
    obtain ⟨late, first⟩ := fades_step h s
    exact ⟨ended, late ++ later, first.append rest⟩

/-! ### How the end comes -/

theorem ended_invalidate {c : Connection σ} (h : c.state ≠ .invalidated) : c.invalidate.Ended := by
  rw [invalidate_eq h]
  exact ⟨rfl, rfl, rfl⟩

theorem invalidate_of_step {c : Connection σ} (alive : c.state ≠ .invalidated) {s : Step σ}
    (past : (c.step s).state = .invalidated) : s = .invalidate := by
  have taken := turn_takenBy c s
  rw [(step_turns c s).state] at past
  cases ht : c.turn s with
  | ends =>
    rw [ht] at taken
    exact taken
  | fails error => cases ha : c.attempt <;> simp [ht, ha] at past
  | requests | rests =>
    rw [ht] at past
    exact absurd past alive
  | begins kind | opens | loses => simp [ht] at past

/-- The end comes once, with the first invalidation. -/
theorem first_invalidate {c : Connection σ} (alive : c.state ≠ .invalidated) (steps : List (Step σ))
    (past : (c.run steps).state = .invalidated) :
    ∃ before after, steps = before ++ .invalidate :: after ∧
      (c.run before).state ≠ .invalidated := by
  induction steps generalizing c with
  | nil => exact absurd past alive
  | cons s steps ih =>
    by_cases now : (c.step s).state = .invalidated
    · obtain rfl := invalidate_of_step alive now
      exact ⟨[], steps, rfl, alive⟩
    · obtain ⟨before, after, rfl, still⟩ := ih now past
      exact ⟨s :: before, after, rfl, still⟩

theorem ended_of_reached {c : Connection σ} (alive : c.state ≠ .invalidated) (steps : List (Step σ))
    (past : (c.run steps).state = .invalidated) : (c.run steps).Ended := by
  obtain ⟨before, after, rfl, still⟩ := first_invalidate alive steps past
  rw [run_append]
  exact (ended_run (ended_invalidate still) after).1

theorem outcomes_of_fades {c : Connection σ} {steps : List (Step σ)} {late : List ConnectionEvent}
    (h : c.Fades steps late) : (c.run steps).outcomes = c.outcomes := by
  have silent : late.filterMap (·.heard?) = [] :=
    List.filterMap_eq_nil_iff.2 fun event mem => (h.only event mem).heard_eq_none
  rw [outcomes, h.trace, List.filterMap_append, silent, List.append_nil, outcomes]

/-- The end is told, and nothing after it. -/
theorem outcomes_of_end {c : Connection σ} (alive : c.state ≠ .invalidated)
    (after : List (Step σ)) :
    (c.run (.invalidate :: after)).outcomes =
      c.outcomes ++ c.news (some (.error .channelInvalidated)) := by
  obtain ⟨-, late, fades⟩ := ended_run (ended_invalidate alive) after
  have told := (step_turns c .invalidate).outcomes
  have ends : c.turn .invalidate = .ends := if_neg alive
  rw [ends] at told
  rw [run_cons, step, outcomes_of_fades fades]
  exact told

/-! ### Callers after the end -/

theorem Ended.tryConnect_eq {c : Connection σ} (h : c.Ended) (waiter : Waiter) :
    c.tryConnect .manual (some waiter) = (c.aftermath (.connect waiter), none) := by
  rw [tryConnect, start_refused (h.admission .manual)]
  rfl

structure Told (c : Connection σ) (call : Nat) : Prop where
  ended : c.Ended
  holds : c.bridge.holder = some call
  told : c.bridge.outcome? call = some (.error .channelInvalidated)

theorem told_of_beginConnect {c begun : Connection σ} (h : c.Ended) {thread call : Nat}
    {timeoutMs : UInt64} (started : c.beginConnect thread timeoutMs = .started call begun) :
    begun.Told call := by
  unfold beginConnect at started
  cases entry : c.bridge.enter thread timeoutMs with
  | rejected | waiting holder => simp [entry] at started
  | started entered bridge =>
    obtain ⟨-, -, rfl, rfl⟩ := Bridge.enter_eq_started entry
    have ended : Ended { c with bridge := c.bridge.occupy thread timeoutMs } :=
      ⟨h.state, h.timers, h.waiters⟩
    simp only [entry, ended.tryConnect_eq] at started
    obtain ⟨rfl, rfl⟩ := (Start.started.injEq ..).mp started
    have known : c.bridge.calls.length < (c.bridge.occupy thread timeoutMs).calls.length := by
      simp [Bridge.occupy]
    have told := Bridge.tell_advances (c.bridge.occupy thread timeoutMs)
      (.error .channelInvalidated) (.call c.bridge.calls.length)
    refine ⟨⟨h.state, h.timers, h.waiters⟩, told.holder, ?_⟩
    have decided := Bridge.outcome_tell known (.error .channelInvalidated)
    rw [Bridge.outcome_occupy_self, Option.none_or] at decided
    exact decided

theorem Told.performAll {c : Connection σ} {call : Nat} (h : c.Told call)
    {operations : List (Operation σ)} (stays : .finishConnect call ∉ operations) :
    (c.performAll operations).Told call := by
  have kept := (meanwhile_stepsOfAll h.holds stays).1.keeps.bridge
  rw [performAll_eq_run_stepsOfAll]
  exact ⟨(ended_run h.ended _).1, kept.holder.trans h.holds, kept.outcome _ _ h.told⟩

theorem Told.finishConnect_eq {c : Connection σ} {call : Nat} (h : c.Told call) :
    ∃ left, c.finishConnect call = some (.error .channelInvalidated, left) := by
  unfold finishConnect
  rw [Bridge.leave_of_decided h.holds h.told]
  exact ⟨_, rfl⟩

/-- Whoever wants to connect is turned away, at once or when the call that is in has returned, which
it can. Only a thread that is inside of a call itself is not let in. -/
structure TurnsAway (c : Connection σ) : Prop where
  connectWith : ∀ completion, (c.connectWith completion).trace =
    c.trace ++ [.answered (.completion completion) (.error .channelInvalidated)]
  rejected : ∀ thread timeoutMs, c.beginConnect thread timeoutMs = .rejected →
    c.bridge.owner = some thread
  waiting : ∀ thread timeoutMs holder, c.beginConnect thread timeoutMs = .waiting holder →
    ∃ outcome left, c.finishConnect holder = some (outcome, left)
  started : ∀ thread timeoutMs call begun, c.beginConnect thread timeoutMs = .started call begun →
    ∀ further, .finishConnect call ∉ further →
      ∃ left, (begun.performAll further).finishConnect call =
        some (.error .channelInvalidated, left)
  connect : ∀ thread timeoutMs, c.bridge.holder = none → c.bridge.owner ≠ some thread →
    (c.connect thread timeoutMs).1 = .error .channelInvalidated

theorem Ended.turnsAway {c : Connection σ} (h : c.Ended) (heard : c.Heard) : c.TurnsAway where
  connectWith completion := by
    rw [Connection.connectWith, h.tryConnect_eq]
    rfl
  rejected _ _ refused := beginConnect_eq_rejected refused
  waiting thread timeoutMs holder waits := by
    have holds := beginConnect_eq_waiting waits
    cases decided : c.bridge.outcome? holder with
    | some result => exact finishConnect_of_decided holds decided
    | none =>
      -- An undecided call would still wait for an attempt, but there is none.
      have waiting := heard.waits holder holds decided
      rw [h.waiters] at waiting
      cases waiting
  started thread timeoutMs call begun started further stays :=
    ((told_of_beginConnect h started).performAll stays).finishConnect_eq
  connect thread timeoutMs free outside := by
    unfold Connection.connect
    cases entry : c.beginConnect thread timeoutMs with
    | rejected => exact absurd (beginConnect_eq_rejected entry) outside
    | waiting holder =>
      have held := beginConnect_eq_waiting entry
      exact absurd (free.symm.trans held) (by simp)
    | started call begun =>
      have stays : .finishConnect call ∉ ([.expireConnect call] : List (Operation σ)) := by simp
      have told : (begun.expireConnect call).Told call :=
        (told_of_beginConnect h entry).performAll stays
      obtain ⟨left, returned⟩ := told.finishConnect_eq
      simp only [returned]

/-- Invalidation is the end, whatever was going on and whatever comes later. The end is published
once, and nothing is after that. -/
theorem invalidation_final (codec : Codec) (transport : σ) :
    (∀ steps more : List (Step σ),
      let c := (new codec transport).run steps
      let e := c.invalidate.run more
      e.state = .invalidated ∧ e.proxy? = none ∧
      (∃ late, c.invalidate.Fades more late) ∧
      (∃ before after, steps ++ .invalidate :: more = before ++ .invalidate :: after ∧
        ((new codec transport).run before).state ≠ .invalidated ∧
        e.outcomes = ((new codec transport).run before).outcomes ++
          ((new codec transport).run before).news (some (.error .channelInvalidated))) ∧
      (∀ waiter, (e.step (.connect waiter)).trace =
        e.trace ++ [.answered waiter (.error .channelInvalidated)]) ∧
      ∀ alarm, e.strike alarm = e) ∧
    ∀ operations more : List (Operation σ),
      let c := (new codec transport).performAll operations
      let e := c.invalidate.performAll more
      (∃ steps later, c = (new codec transport).run steps ∧ e = c.invalidate.run later) ∧
      e.TurnsAway := by
  have alive : (new codec transport).state ≠ .invalidated := by simp [new]
  have past : ∀ c : Connection σ, c.invalidate.state = .invalidated := by
    intro c
    by_cases h : c.state = .invalidated
    · rw [invalidate_invalidated h, h]
    · exact (ended_invalidate h).state
  have reached : ∀ steps : List (Step σ), ((new codec transport).run steps).invalidate.Ended := by
    intro steps
    have last := ended_of_reached alive (steps ++ [.invalidate])
    rw [run_append] at last
    exact last (past _)
  refine ⟨fun steps more => ?_, fun operations more => ?_⟩
  · intro c e
    obtain ⟨ended, late, fades⟩ := ended_run (reached steps) more
    refine ⟨ended.state, ?_, ⟨late, fades⟩, ?_, ?_, ended.strike_eq⟩
    · have down : e.state = .invalidated := ended.state
      simp [proxy?, down]
    · have all : e = (new codec transport).run (steps ++ .invalidate :: more) := by
        rw [run_append]
        rfl
      obtain ⟨before, after, split, still⟩ :=
        first_invalidate alive (steps ++ .invalidate :: more) (all ▸ ended.state)
      refine ⟨before, after, split, still, ?_⟩
      rw [all, split, run_append]
      exact outcomes_of_end still after
    · intro waiter
      rw [ended.step_eq]
      rfl
  · intro c e
    obtain ⟨steps, run⟩ := performAll_eq_run (new codec transport) operations
    obtain ⟨later, rest⟩ := performAll_eq_run c.invalidate more
    have ended : e.Ended := by
      have last := (ended_run (reached steps) later).1
      rw [← run] at last
      rw [show e = c.invalidate.run later from rest]
      exact last
    have heard : e.Heard := by
      have first := performAll_heard (new_heard codec transport) operations
      exact performAll_heard (perform_heard first .invalidate) more
    exact ⟨⟨steps, later, run, rest⟩, ended.turnsAway heard⟩

/-- A channel that comes after the end is torn down, and its loss is not told. A thread that wants
to connect is told of the end, even if it hears that when its time is up. -/
theorem late_channel_torn_down :
    let start := new ⟨4194304⟩ ScriptedTransport.initial
    let c := start.run [.configure (.subscriber "first"), .connect (.completion 0)]
    let later : List (Step ScriptedTransport) := [.created 1 (.ok 1), .signal (.lost 1)]
    let e := c.invalidate.run later
    e.state = .invalidated ∧ e.closures = [1] ∧ e.outcomes = [.error .channelInvalidated] ∧
      ∃ begun left, start.invalidate.beginConnect 7 1000 = .started 0 begun ∧
        (begun.performAll [.expireConnect 0]).finishConnect 0 =
          some (.error .channelInvalidated, left) := by
  intro start c later e
  obtain ⟨final, turns⟩ := invalidation_final ⟨4194304⟩ ScriptedTransport.initial
  obtain ⟨down, -⟩ := final [.configure (.subscriber "first"), .connect (.completion 0)] later
  obtain ⟨-, away⟩ := turns [] []
  obtain ⟨left, returned⟩ := away.started 7 1000 0 _ rfl [.expireConnect 0] (by simp)
  exact ⟨down, rfl, rfl, _, left, rfl, returned⟩

end Connection

end EndpointMonitor
