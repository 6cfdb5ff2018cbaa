import EndpointMonitor.Proofs.Client.StateQueue

/-!
What becomes of an activation. Its completion is answered at once if no attempt begins for it, and
otherwise when its attempt is over, right before the state handler hears of that.
-/

namespace EndpointMonitor

/-- The completions that are answered are those that are run. -/
theorem count_completions (events : List ConnectionEvent) (id : Nat) :
    ((events.filterMap (·.job?)).filterMap (·.completion?)).count id =
      ((events.filterMap (·.answer?)).map (·.1)).count (.completion id) := by
  induction events with
  | nil => rfl
  | cons event events ih =>
    cases event with
    | answered waiter outcome =>
      cases waiter with
      | call call =>
        have other : Waiter.call call ≠ .completion id := nofun
        exact ih.trans (List.count_cons_of_ne other).symm
      | completion answered =>
        have first := congrArg (· + if answered = id then 1 else 0) ih
        simpa [ConnectionEvent.job?, completed?, ClientEvent.completion?, List.count_cons]
          using first
    | published subscriber outcome => exact ih
    | creating generation | requested generation channel converter | closed channel => exact ih

/-- An attempt goes on as long as it has no outcome. -/
theorem Connection.isAttempting_of_no_verdict {σ : Type} [Transport σ] {c : Connection σ}
    {s : Connection.Step σ} {generation : Nat} (attempting : c.isAttempting generation = true)
    (untold : (c.turn s).verdict? = none) : (c.step s).isAttempting generation = true := by
  obtain ⟨current, connecting⟩ := (isAttempting_iff c generation).1 attempting
  have turns := step_turns c s
  have allowed := turn_allowed c s
  rw [isAttempting_iff, turns.state, turns.generation]
  cases turn : c.turn s with
  | begins kind =>
    rw [turn] at allowed
    simp [Turn.Allowed, connecting] at allowed
  | requests | rests => exact ⟨current, connecting⟩
  | opens | fails error | loses | ends =>
    rw [turn] at untold
    cases untold

theorem Connection.idle_of_no_refusal {state : ConnectionState}
    (welcome : Connection.refusal? state = none) : state = .idle ∨ state = .interrupted := by
  cases state with
  | idle => exact .inl rfl
  | interrupted => exact .inr rfl
  | connecting | connected | invalidated => cases welcome

namespace Client

variable {η : Type}

/-- How often the completion of an activation has been put into the queue, and still waits for an
attempt. -/
def accounted (c : Client η) (id : Nat) : Nat :=
  (c.submitted.filterMap (·.completion?)).count id + c.connection.waiters.count (.completion id)

/-- Every completion that was passed on is in one place. -/
def Accounted (c : Client η) : Prop := ∀ id, c.accounted id = if id < c.activations then 1 else 0

theorem Hears.accounted {c c' : Client η} {handler : η} {s : Connection.Step Loopback}
    (h : Hears handler c s c') (relays : Relays c) (id : Nat) :
    c'.accounted id = c.accounted id + if s.asks (.completion id) then 1 else 0 := by
  have served := Connection.served_step relays.attended s (.completion id)
  have before : c.connection.served (.completion id) =
      c.connection.waiters.count (.completion id) := by
    simp only [Connection.served, Connection.answers,
      show c.connection.trace = [] from relays.heard]
    exact Nat.zero_add _
  have after := count_completions (c.connection.step s).trace id
  have waiters : c'.connection.waiters = (c.connection.step s).waiters := by
    rw [h.connection]
    rfl
  rw [before, Connection.served, Connection.answers, ← after] at served
  simp only [Client.accounted, h.submitted, waiters, List.filterMap_append, List.count_append]
  exact (Nat.add_assoc _ _ _).trans
    ((congrArg _ served).trans (Nat.add_assoc _ _ _).symm)

theorem Relays.numbered {c : Client η} (relays : Relays c) :
    Relays { c with activations := c.activations + 1 } :=
  relays.of_same rfl (Option.isSome_iff_exists.2 relays.installed) rfl rfl rfl

theorem Relays.activate_hears {c : Client η} (relays : Relays c) :
    ∃ handler, Hears handler { c with activations := c.activations + 1 }
      (.connect (.completion c.activations)) (c.step .activate) := by
  obtain ⟨handler, installed⟩ := relays.installed
  exact ⟨handler,
    onConnection_hears (c := { c with activations := c.activations + 1 }) installed _⟩

theorem not_asks_of_isApart {s : Connection.Step Loopback} (apart : s.isApart = true) (id : Nat) :
    s.asks (.completion id) = false := by
  cases s with
  | connect waiter =>
    cases waiter with
    | call call => rfl
    | completion other => cases apart
  | _ => rfl

theorem step_accounted {c : Client η} (relays : Relays c) (accounted : Accounted c) (s : Step η) :
    Accounted (c.step s) := by
  intro id
  cases s with
  | activate =>
    obtain ⟨handler, hears⟩ := relays.activate_hears
    have before := accounted id
    have asks : (Connection.Step.connect (σ := Loopback) (.completion c.activations)).asks
        (.completion id) = decide (c.activations = id) := by
      simp only [Connection.Step.asks, Waiter.completion.injEq]
    have after := hears.accounted relays.numbered id
    have same : Client.accounted { c with activations := c.activations + 1 } id = c.accounted id :=
      rfl
    rw [after, hears.activations, same, before, asks]
    simp only [decide_eq_true_eq]
    split_ifs <;> omega
  | connection s apart =>
    obtain ⟨handler, installed⟩ := relays.installed
    have hears := onConnection_hears installed s
    have after := hears.accounted relays id
    rw [not_asks_of_isApart apart, if_neg Bool.false_ne_true, Nat.add_zero] at after
    rw [step, after, hears.activations]
    exact accounted id
  | startJob =>
    cases begins : c.stateQueue.start? with
    | none =>
      rw [step, startJob_of_empty begins]
      exact accounted id
    | some first =>
      have starts := starts_of_start begins
      rw [Client.accounted, starts.submitted, starts.connection, starts.activations]
      exact accounted id
  | endJob failed | stateHandler other | beside rest => exact accounted id
  | messageAnswered other result =>
    have kept : (c.note (.messageAnswered other result)).submitted = c.submitted :=
      List.filterMap_append.trans (List.append_nil _)
    rw [step, Client.accounted, kept]
    exact accounted id

theorem stepAll_accounted {c : Client η} (relays : Relays c) (accounted : Accounted c)
    (steps : List (Step η)) : Accounted (c.stepAll steps) := by
  induction steps generalizing c with
  | nil => exact accounted
  | cons s steps ih => exact ih (step_relays relays s) (step_accounted relays accounted s)

/-! ### Waiting for an attempt -/

/-- A completion waits, alone, for an attempt under way. -/
structure Awaits (c : Client η) (id generation : Nat) : Prop where
  attempting : c.connection.isAttempting generation = true
  waiters : c.connection.waiters = [.completion id]

/-- The attempt is over in this step, which puts the completion into the queue, and right after it
the state handler. -/
structure Settles (c : Client η) (s : Connection.Step Loopback) (apart : s.isApart = true)
    (id : Nat) (outcome : Outcome) : Prop where
  decides : c.connection.Decides s outcome
  submitted : (c.step (.connection s apart)).submitted =
    c.submitted ++ [.completed id outcome, .handled outcome]

/-- A wish to connect has no part in the attempt under way. -/
theorem Awaits.connect {c c' : Client η} {id generation : Nat} (awaits : Awaits c id generation)
    {waiter : Waiter} (connection : c'.connection = (c.connection.step (.connect waiter)).drained) :
    Awaits c' id generation := by
  obtain ⟨current, connecting⟩ := (Connection.isAttempting_iff _ _).1 awaits.attempting
  have refused : Connection.refusal? c.connection.state =
      some (.error (.unexpected "connection attempt already in progress")) := by
    rw [connecting]
    rfl
  rw [Connection.step_connect_refused refused] at connection
  refine ⟨?_, ?_⟩
  · rw [connection]
    exact awaits.attempting
  · rw [connection]
    exact awaits.waiters

theorem Awaits.of_same {c c' : Client η} {id generation : Nat} (awaits : Awaits c id generation)
    (connection : c'.connection = c.connection) : Awaits c' id generation :=
  ⟨connection ▸ awaits.attempting, connection ▸ awaits.waiters⟩

theorem Awaits.connection {c : Client η} {id generation : Nat} (awaits : Awaits c id generation)
    (relays : Relays c) (s : Connection.Step Loopback) (apart : s.isApart = true) :
    Awaits (c.step (.connection s apart)) id generation ∨
      ∃ outcome, Settles c s apart id outcome := by
  obtain ⟨handler, installed⟩ := relays.installed
  have hears := onConnection_hears installed s
  obtain ⟨current, connecting⟩ := (Connection.isAttempting_iff _ _).1 awaits.attempting
  have manual : c.connection.attempt = .manual :=
    (relays.attended (by rw [awaits.waiters]; exact List.cons_ne_nil _ _)).2
  by_cases asks : ∃ waiter, s = .connect waiter
  · obtain ⟨waiter, rfl⟩ := asks
    exact .inl (awaits.connect hears.connection)
  · have unasked : ∀ waiter, s ≠ .connect waiter := fun waiter same => asks ⟨waiter, same⟩
    have serves := Connection.step_serves relays.attended unasked
    cases verdict : (c.connection.turn s).verdict? with
    | some outcome =>
      refine .inr ⟨outcome, Connection.decides_of_verdict verdict, ?_⟩
      have untold : c.connection.jobs = [] := by
        rw [Connection.jobs, show c.connection.trace = [] from relays.heard]
        rfl
      have jobs := Connection.step_jobs relays.attended relays.watched unasked
      rw [Connection.Turn.jobs_of_verdict manual verdict, awaits.waiters, untold] at jobs
      rw [step, hears.submitted, jobs]
      rfl
    | none =>
      left
      have still := Connection.isAttempting_of_no_verdict awaits.attempting verdict
      refine ⟨?_, ?_⟩
      · rw [step, hears.connection]
        exact still
      · rw [step, hears.connection]
        refine serves.waiters.trans ?_
        rw [Connection.Turn.left, verdict]
        exact awaits.waiters

theorem awaits_step {c : Client η} {id generation : Nat} (awaits : Awaits c id generation)
    (relays : Relays c) (s : Step η) :
    Awaits (c.step s) id generation ∨
      ∃ t apart outcome, s = .connection t apart ∧ Settles c t apart id outcome := by
  cases s with
  | activate =>
    obtain ⟨handler, hears⟩ := relays.activate_hears
    exact .inl (awaits.connect hears.connection)
  | connection s apart =>
    refine (awaits.connection relays s apart).imp_right ?_
    rintro ⟨outcome, settles⟩
    exact ⟨s, apart, outcome, rfl, settles⟩
  | startJob => exact .inl (awaits.of_same (startJob_connection c))
  | endJob failed | stateHandler other | messageAnswered other result | beside rest =>
    exact .inl (awaits.of_same rfl)

/-- A completion waits for its attempt until that is over. -/
theorem awaits_stepAll {c : Client η} {id generation : Nat} (awaits : Awaits c id generation)
    (relays : Relays c) (later : List (Step η)) :
    Awaits (c.stepAll later) id generation ∨
      ∃ before s apart after outcome, later = before ++ .connection s apart :: after ∧
        Awaits (c.stepAll before) id generation ∧
        Settles (c.stepAll before) s apart id outcome := by
  induction later generalizing c with
  | nil => exact .inl awaits
  | cons s later ih =>
    rcases awaits_step awaits relays s with still | ⟨t, apart, outcome, rfl, settles⟩
    · rcases ih still (step_relays relays s) with
        waits | ⟨before, t, apart, after, outcome, rfl, waits, settles⟩
      · exact .inl waits
      · exact .inr ⟨s :: before, t, apart, after, outcome, rfl, waits, settles⟩
    · exact .inr ⟨[], t, apart, later, outcome, rfl, awaits, settles⟩

/-! ### Activations -/

/-- What becomes of a completion that is passed on now. -/
structure Activates (c : Client η) : Prop where
  /-- No attempt begins for it: it is run, and the state handler hears nothing of it. -/
  refused : ∀ outcome, Connection.refusal? c.state = some outcome →
    (c.step .activate).connection.generation = c.connection.generation ∧
      (c.step .activate).submitted = c.submitted ++ [.completed c.activations outcome]
  /-- An attempt begins: the completion waits for it, until it is over. -/
  begun : Connection.refusal? c.state = none →
    Awaits (c.step .activate) c.activations (c.connection.generation + 1) ∧
      (c.step .activate).submitted = c.submitted ∧
      ∀ later,
        Awaits ((c.step .activate).stepAll later) c.activations (c.connection.generation + 1) ∨
        ∃ before s apart after outcome, later = before ++ .connection s apart :: after ∧
          Awaits ((c.step .activate).stepAll before) c.activations (c.connection.generation + 1) ∧
          Settles ((c.step .activate).stepAll before) s apart c.activations outcome

theorem Relays.activates {c : Client η} (relays : Relays c) : Activates c := by
  obtain ⟨handler, hears⟩ := relays.activate_hears
  have untold : c.connection.jobs = [] := by
    rw [Connection.jobs, show c.connection.trace = [] from relays.heard]
    rfl
  have submitted : (c.step .activate).submitted = c.submitted ++
      (c.connection.step (.connect (.completion c.activations))).jobs := hears.submitted
  rw [Connection.connect_jobs, untold] at submitted
  have connection : (c.step .activate).connection =
    (c.connection.step (.connect (.completion c.activations))).drained := hears.connection
  refine ⟨fun outcome refused => ⟨?_, ?_⟩, fun welcome => ?_⟩
  · rw [connection, Connection.step_connect_refused refused]
    rfl
  · rw [submitted, show Connection.refusal? c.connection.state = some outcome from refused]
    rfl
  · have accepts := Connection.accepts_of_no_attempt relays.attended
      (Connection.idle_of_no_refusal welcome) (.completion c.activations)
    have waiting : Awaits (c.step .activate) c.activations (c.connection.generation + 1) := by
      refine ⟨?_, ?_⟩ <;> rw [connection]
      · exact accepts.attempting
      · exact accepts.waiters
    refine ⟨waiting, ?_, fun later => awaits_stepAll waiting (step_relays relays .activate) later⟩
    rw [submitted, show Connection.refusal? c.connection.state = none from welcome]
    exact List.append_nil _

/-- A new client with a state handler. -/
def watched (config : ClientConfig) (transport : Loopback) (handler : η) : Client η :=
  (Client.new config transport).configure (.stateHandler handler)

theorem watched_relays (config : ClientConfig) (transport : Loopback) (handler : η) :
    Relays (watched config transport handler) where
  heard := rfl
  attended := Connection.new_attended config.codec transport
  watched := rfl
  installed := ⟨handler, rfl⟩
  queue := rfl

theorem watched_accounted (config : ClientConfig) (transport : Loopback) (handler : η) :
    Accounted (watched config transport handler) := fun _ => rfl

theorem watched_employs (config : ClientConfig) (transport : Loopback) (handler : η) :
    Employs handler (watched config transport handler) where
  installed := rfl
  waiting job member := by cases member
  running job member := by cases member

/-- The state handler hears of exactly the outcomes that are published, in that order, and failures
of jobs do not keep it from that. A completion is run once at most, with the outcome of its own
attempt and right before the state handler hears of that; if no attempt begins for it, it is run
alone. All that can happen in one go is a run of the steps of which this is said. -/
theorem application_hears_in_order (config : ClientConfig) (transport : Loopback) (handler : η)
    (steps : List (Step η)) :
    let c := (watched config transport handler).stepAll steps
    (c.submitted = c.started ++ c.outstanding ∧
      c.submitted.filterMap (·.handled?) = c.published) ∧
    (∀ failures : List Bool, c.stateQueue.waiting.length ≤ failures.length →
      (c.stepAll (rounds failures)).started = c.submitted) ∧
    ((∀ s ∈ steps, ∀ other, s ≠ .stateHandler other) → Employs handler c) ∧
    (∀ id, (c.submitted.filterMap (·.completion?)).count id ≤ 1) ∧
    Activates c ∧
    (∀ operation, Runs c (c.perform operation)) ∧
    Runs (c.step .activate) (c.perform .activateWith) := by
  intro c
  have relays : Relays c := stepAll_relays (watched_relays config transport handler) steps
  refine ⟨⟨relays.queue, handled_submitted c⟩, fun failures enough => relays.drained enough,
    fun kept => ?_, fun id => ?_, relays.activates, perform_runs relays.heard,
    activateWith_runs relays.heard⟩
  · exact stepAll_employs (watched_employs config transport handler) kept
  · have once := stepAll_accounted (watched_relays config transport handler)
      (watched_accounted config transport handler) steps id
    have whole : (c.submitted.filterMap (·.completion?)).count id +
      c.connection.waiters.count (.completion id) = if id < c.activations then 1 else 0 := once
    split at whole <;> omega

/-- Two activations, of which the second is refused, before the attempt of the first one fails. All
three jobs fail as well. -/
theorem failing_jobs_run_in_order :
    let new : Client Unit := watched .default (.ofService (.new .default)) ()
    let steps : List (Step Unit) :=
      [.activate, .activate, .connection (.created 1 (.error .notConnected)) rfl]
    let c := new.stepAll steps
    Awaits (new.step .activate) 0 1 ∧
      ((new.step .activate).step .activate).submitted =
        [.completed 1 (.error (.unexpected "connection attempt already in progress"))] ∧
      Employs () c ∧ c.published = [.error .notConnected] ∧
      (c.stepAll (rounds [true, true, true])).started =
        [.completed 1 (.error (.unexpected "connection attempt already in progress")),
          .completed 0 (.error .notConnected), .handled (.error .notConnected)] := by
  intro new steps c
  obtain ⟨-, -, -, -, first, -⟩ :=
    application_hears_in_order .default (.ofService (.new .default)) () []
  obtain ⟨-, -, -, -, second, -⟩ :=
    application_hears_in_order .default (.ofService (.new .default)) () [.activate]
  obtain ⟨-, drained, employs, -⟩ :=
    application_hears_in_order .default (.ofService (.new .default)) () steps
  have waits : Awaits (new.step .activate) 0 1 := (first.begun rfl).1
  have refused := (second.refused _ rfl).2
  have employed : Employs () c := employs (by simp [steps])
  exact ⟨waits, refused, employed, rfl, drained [true, true, true] (by decide)⟩

end Client

end EndpointMonitor
