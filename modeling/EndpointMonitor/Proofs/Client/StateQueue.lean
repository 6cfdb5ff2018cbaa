import EndpointMonitor.Proofs.Client.Step
import EndpointMonitor.Proofs.Dispatcher.Serial

/-!
What an application hears of the connection of its client. Each outcome that is published goes to
the state handler, and each completion gets the outcome of its own attempt before. All of them pass
through one queue, in the order in which they came up.
-/

namespace EndpointMonitor

/-- What the run of a job looks like. -/
def StateJob.event {η : Type} : StateJob η → ClientEvent
  | .handle _ outcome => .handled outcome
  | .complete id outcome => .completed id outcome

/-- A job that runs no state handler but this one. -/
def StateJob.IsFor {η : Type} (handler : η) : StateJob η → Prop
  | .handle other _ => other = handler
  | .complete _ _ => True

/-- A completion that is answered is run with that answer. -/
def completed? : Waiter × Outcome → Option ClientEvent
  | (.completion id, outcome) => some (.completed id outcome)
  | (.call _, _) => none

/-- The run of a job that an event asks for. -/
def ConnectionEvent.job? : ConnectionEvent → Option ClientEvent
  | .published _ outcome => some (.handled outcome)
  | .answered waiter outcome => completed? (waiter, outcome)
  | .creating _ | .requested _ _ _ | .closed _ => none

/-- The job that an event brings, for this state handler. -/
def stateJob? {η : Type} (handler : η) : ConnectionEvent → Option (StateJob η)
  | .published _ outcome => some (.handle handler outcome)
  | .answered (.completion id) outcome => some (.complete id outcome)
  | .answered (.call _) _ | .creating _ | .requested _ _ _ | .closed _ => none

theorem ConnectionEvent.event_stateJob? {η : Type} (event : ConnectionEvent) (handler : η) :
    (stateJob? handler event).map StateJob.event = event.job? := by
  cases event with
  | answered waiter outcome => cases waiter <;> rfl
  | published _ _ | creating _ | requested _ _ _ | closed _ => rfl

theorem isFor_of_stateJob? {η : Type} {handler : η} {event : ConnectionEvent} {job : StateJob η}
    (brings : stateJob? handler event = some job) : job.IsFor handler := by
  cases event with
  | answered waiter outcome =>
    cases waiter with
    | call id => cases brings
    | completion id =>
      obtain rfl := Option.some.inj brings
      trivial
  | published subscriber outcome =>
    obtain rfl := Option.some.inj brings
    rfl
  | creating _ | requested _ _ _ | closed _ => cases brings

namespace ClientEvent

/-- The outcome that is published. -/
def published? : ClientEvent → Option Outcome
  | .connection event => event.heard?
  | .handled _ | .completed _ _ | .messageAnswered _ _ => none

/-- The run of a job that is asked for. -/
def submitted? : ClientEvent → Option ClientEvent
  | .connection event => event.job?
  | .handled _ | .completed _ _ | .messageAnswered _ _ => none

/-- A job that is run. -/
def started? : ClientEvent → Option ClientEvent
  | .handled outcome => some (.handled outcome)
  | .completed id outcome => some (.completed id outcome)
  | .connection _ | .messageAnswered _ _ => none

def handled? : ClientEvent → Option Outcome
  | .handled outcome => some outcome
  | .completed _ _ | .connection _ | .messageAnswered _ _ => none

def completion? : ClientEvent → Option Nat
  | .completed id _ => some id
  | .handled _ | .connection _ | .messageAnswered _ _ => none

end ClientEvent

/-! ### What a step of the connection asks for -/

namespace Connection

variable {σ : Type}

/-- The runs of jobs that the connection has asked for. -/
def jobs (c : Connection σ) : List ClientEvent := c.trace.filterMap (·.job?)

/-- The jobs that a turn asks for: the completions first, and then the state handler. -/
def Turn.jobs (c : Connection σ) (t : Turn) : List ClientEvent :=
  (t.replies c).filterMap completed? ++ (t.outcome? c).toList.map .handled

/-- An attempt under way ends with this outcome. -/
inductive Decides (c : Connection σ) : Step σ → Outcome → Prop where
  | opened (reply : ServiceReply) :
    Decides c (.signal (.sessionReply c.generation (.ok reply))) (.ok ())
  | refused (reason : String) :
    Decides c (.signal (.sessionReply c.generation (.error reason))) (.error (.remote reason))
  | factory (error : ClientError) : Decides c (.created c.generation (.error error)) (.error error)
  | encoder (channel : Nat) (error : ClientError) (h : c.codec.encode c.converter = .error error) :
    Decides c (.created c.generation (.ok channel)) (.error error)
  | deadline (t : Timer) (timeoutMs : UInt64) (due : c.isDue t = true)
      (alarm : t.alarm = .sessionDeadline c.generation timeoutMs) :
    Decides c (.ring t) (.error (.timeout timeoutMs))
  | givenUp (timeoutMs : UInt64) :
    Decides c (.giveUp c.generation timeoutMs) (.error (.timeout timeoutMs))
  | lost : Decides c (.signal (.lost c.generation)) (.error .interrupted)
  | invalidated : Decides c .invalidate (.error .channelInvalidated)

theorem announcement_jobs {c : Connection σ} {subscriber : String}
    (watched : c.subscriber = some subscriber) (outcome : Outcome) :
    (c.announcement outcome).filterMap (·.job?) =
      (c.waiters.map (·, outcome)).filterMap completed? ++ [.handled outcome] := by
  rw [announcement, watched, List.filterMap_append, List.filterMap_map, List.filterMap_map,
    List.filterMap_map]
  rfl

theorem closures_jobs (channels : List Nat) :
    (channels.map ConnectionEvent.closed).filterMap (·.job?) = [] := by
  rw [List.filterMap_map]
  exact List.filterMap_eq_nil_iff.2 fun _ _ => rfl

theorem Attended.jobs_turn {c : Connection σ} (attended : c.Attended) {subscriber : String}
    (watched : c.subscriber = some subscriber) (t : Turn) :
    (t.events c).filterMap (·.job?) = t.jobs c := by
  cases t with
  | fails error =>
    rw [Turn.events, List.filterMap_append, closures_jobs, List.nil_append]
    cases kind : c.attempt with
    | manual => simp [announcement_jobs watched, Turn.jobs, Turn.replies, kind]
    | automatic =>
      have nobody : c.waiters = [] := attended.waiters_of_ne (.inr (by simp [kind]))
      simp [Turn.jobs, Turn.replies, kind, nobody]
  | loses =>
    by_cases told : c.state = .connected ∨ c.attempt = .manual
    · simp [Turn.events, announcement_jobs watched, Turn.jobs, Turn.replies, told]
    · have nobody : c.waiters = [] := attended.waiters_of_ne (.inr (not_or.1 told).2)
      simp [Turn.events, Turn.jobs, Turn.replies, told, nobody]
  | opens => exact announcement_jobs watched (.ok ())
  | ends =>
    rw [Turn.events, List.filterMap_append, closures_jobs, List.nil_append]
    exact announcement_jobs watched (.error .channelInvalidated)
  | begins kind | requests | rests => rfl

theorem failureTurn_verdict {c : Connection σ} {generation : Nat} {error : ClientError}
    {outcome : Outcome} (told : (c.failureTurn generation error).verdict? = some outcome) :
    generation = c.generation ∧ outcome = .error error := by
  unfold failureTurn at told
  split at told
  · next attempting =>
    exact ⟨((isAttempting_iff c generation).1 attempting).1.symm, (Option.some.inj told).symm⟩
  · cases told

theorem startTurn_verdict (c : Connection σ) (kind : AttemptKind) :
    (c.startTurn kind).verdict? = none := by
  unfold startTurn
  split <;> rfl

/-- An attempt is over in no other ways. -/
theorem decides_of_verdict {c : Connection σ} {s : Step σ} {outcome : Outcome}
    (told : (c.turn s).verdict? = some outcome) : c.Decides s outcome := by
  cases s with
  | connect waiter =>
    rw [turn, startTurn_verdict] at told
    cases told
  | created generation result =>
    cases result with
    | error error =>
      obtain ⟨rfl, rfl⟩ := failureTurn_verdict told
      exact .factory error
    | ok channel =>
      simp only [turn, handOverTurn] at told
      split at told
      · next error encoded =>
        obtain ⟨rfl, rfl⟩ := failureTurn_verdict told
        exact .encoder channel error encoded
      · split at told <;> cases told
  | signal signal =>
    rcases signal with generation | ⟨generation, reason | reply⟩
    · simp only [turn, signalTurn] at told
      split at told
      · next up =>
        obtain ⟨rfl, -⟩ := (isUp_iff c generation).1 up
        obtain rfl := Option.some.inj told
        exact .lost
      · cases told
    · obtain ⟨rfl, rfl⟩ := failureTurn_verdict told
      exact .refused reason
    · simp only [turn, signalTurn] at told
      split at told
      · next attempting =>
        obtain ⟨rfl, -⟩ := (isAttempting_iff c generation).1 attempting
        obtain rfl := Option.some.inj told
        exact .opened reply
      · cases told
  | ring t =>
    simp only [turn] at told
    split at told
    · next due =>
      cases alarm : t.alarm with
      | reconnect =>
        rw [alarm, alarmTurn, startTurn_verdict] at told
        cases told
      | sessionDeadline generation timeoutMs =>
        rw [alarm] at told
        obtain ⟨rfl, rfl⟩ := failureTurn_verdict told
        exact .deadline t timeoutMs due alarm
    · cases told
  | giveUp generation timeoutMs =>
    obtain ⟨rfl, rfl⟩ := failureTurn_verdict told
    exact .givenUp timeoutMs
  | invalidate =>
    simp only [turn] at told
    split at told
    · cases told
    · obtain rfl := Option.some.inj told
      exact .invalidated
  | pass ms | configure setting | callers bridge awaited | world transport => cases told

/-- The state handler hears of a manual attempt that is over, after all who wait for it. -/
theorem Turn.jobs_of_verdict {c : Connection σ} (manual : c.attempt = .manual) {t : Turn}
    {outcome : Outcome} (told : t.verdict? = some outcome) :
    t.jobs c = (c.waiters.map (·, outcome)).filterMap completed? ++ [.handled outcome] := by
  cases t with
  | opens | ends | fails error | loses =>
    obtain rfl := Option.some.inj told
    simp [Turn.jobs, Turn.replies, manual]
  | begins kind | requests | rests => cases told

/-! ### Steps -/

variable [Transport σ]

/-- A turn asks for its jobs, and nothing else does but a wish to connect. -/
theorem step_jobs {c : Connection σ} (attended : c.Attended) {subscriber : String}
    (watched : c.subscriber = some subscriber) {s : Step σ}
    (unasked : ∀ waiter, s ≠ .connect waiter) :
    (c.step s).jobs = c.jobs ++ (c.turn s).jobs c := by
  rcases step_effects c s with
    effects | ⟨waiter, rfl⟩ | ⟨bridge, awaited, rfl⟩ | ⟨generation, channel, rfl⟩
  · rw [jobs, effects.trace, List.filterMap_append, attended.jobs_turn watched, jobs]
  · exact absurd rfl (unasked waiter)
  · exact (List.append_nil _).symm
  · rcases created_cases c generation channel with
      ⟨payload, -, turned, -, -, -, trace⟩ | ⟨error, -, turned, -, -, -, trace⟩ |
        ⟨-, turned, -, -, -, trace⟩
    · rw [jobs, trace, turned, List.filterMap_append]
      rfl
    · have stored : Attended { c with channel := some channel } := attended
      rw [jobs, trace, turned, List.filterMap_append,
        stored.jobs_turn (c := { c with channel := some channel }) watched]
      rfl
    · rw [jobs, trace, turned, List.filterMap_append]
      rfl

/-- Whoever wants to connect and is refused is answered, and nobody else is told anything. -/
theorem connect_jobs (c : Connection σ) (waiter : Waiter) :
    (c.step (.connect waiter)).jobs =
      c.jobs ++ (refusal? c.state).toList.filterMap fun outcome =>
        completed? (waiter, outcome) := by
  cases refused : refusal? c.state with
  | some outcome =>
    rw [step_connect_refused refused, jobs, List.filterMap_append, jobs]
    rfl
  | none =>
    rw [step_connect_begun refused, jobs, List.filterMap_append, jobs]
    rfl

end Connection

namespace Client

variable {η : Type}

/-- The outcomes that the connection has published. -/
def published (c : Client η) : List Outcome := c.trace.filterMap (·.published?)

/-- The jobs that have been put into the state queue, as they are or will be run. -/
def submitted (c : Client η) : List ClientEvent := c.trace.filterMap (·.submitted?)

/-- The jobs that have been run so far. -/
def started (c : Client η) : List ClientEvent := c.trace.filterMap (·.started?)

/-- The jobs that wait in the state queue. -/
def outstanding (c : Client η) : List ClientEvent := c.stateQueue.waiting.map StateJob.event

/-- The state handler is run on what is published. -/
theorem handled_submitted (c : Client η) :
    c.submitted.filterMap (·.handled?) = c.published := by
  rw [submitted, published, List.filterMap_filterMap]
  refine List.filterMap_congr fun event _ => ?_
  cases event with
  | connection event =>
    cases event with
    | answered waiter outcome => cases waiter <;> rfl
    | published _ _ | creating _ | requested _ _ _ | closed _ => rfl
  | handled _ | completed _ _ | messageAnswered _ _ => rfl

/-! ### What the client makes of a step of its connection -/

/-- The jobs that events bring have been put into the queue, behind all others. -/
structure Queues (handler : η) (events : List ConnectionEvent) (c c' : Client η) : Prop where
  stateHandler : c'.stateHandler = some handler
  activations : c'.activations = c.activations
  running : c'.stateQueue.running = c.stateQueue.running
  waiting : c'.stateQueue.waiting = c.stateQueue.waiting ++ events.filterMap (stateJob? handler)

theorem relayEvent_queues {c : Client η} {handler : η} (installed : c.stateHandler = some handler)
    (event : ConnectionEvent) : Queues handler [event] c (c.relayEvent event) := by
  cases event with
  | published subscriber outcome =>
    simp only [relayEvent, relayOutcome]
    cases isLoss outcome <;>
      simp only [note, failPending, if_true, Bool.false_eq_true, if_false, installed] <;>
      exact ⟨rfl, rfl, rfl, rfl⟩
  | answered waiter outcome =>
    cases waiter with
    | call id => exact ⟨installed, rfl, rfl, (List.append_nil _).symm⟩
    | completion id => exact ⟨installed, rfl, rfl, rfl⟩
  | creating generation | requested generation channel converter | closed channel =>
    exact ⟨installed, rfl, rfl, (List.append_nil _).symm⟩

theorem foldl_relayEvent_queues {c : Client η} {handler : η}
    (installed : c.stateHandler = some handler) (events : List ConnectionEvent) :
    Queues handler events c (events.foldl relayEvent c) := by
  induction events generalizing c with
  | nil => exact ⟨installed, rfl, rfl, (List.append_nil _).symm⟩
  | cons event events ih =>
    have first := relayEvent_queues installed event
    have rest := ih first.stateHandler
    refine ⟨rest.stateHandler, rest.activations.trans first.activations,
      rest.running.trans first.running, ?_⟩
    rw [List.foldl_cons, rest.waiting, first.waiting, List.append_assoc, ← List.filterMap_append]
    rfl

/-- The client has put the jobs of a step of its connection into the queue. -/
structure Hears (handler : η) (c : Client η) (s : Connection.Step Loopback) (c' : Client η) :
    Prop extends Queues handler (c.connection.step s).trace c c' where
  connection : c'.connection = (c.connection.step s).drained
  submitted : c'.submitted = c.submitted ++ (c.connection.step s).jobs
  started : c'.started = c.started

theorem onConnection_hears {c : Client η} {handler : η} (installed : c.stateHandler = some handler)
    (s : Connection.Step Loopback) : Hears handler c s (c.onConnection (·.step s)) := by
  let next : Client η := { c with connection := (c.connection.step s).drained }
  have queues := foldl_relayEvent_queues (c := next) installed (c.connection.step s).trace
  have trace := relay_trace { c with connection := c.connection.step s }
  refine ⟨⟨queues.stateHandler, queues.activations, queues.running, queues.waiting⟩,
    relay_connection _, ?_, ?_⟩
  · rw [submitted, onConnection, trace, List.filterMap_append, List.filterMap_map]
    rfl
  · rw [started, onConnection, trace, List.filterMap_append, List.filterMap_map]
    exact (congrArg _ (List.filterMap_eq_nil_iff.2 fun _ _ => rfl)).trans (List.append_nil _)

theorem Hears.outstanding {c c' : Client η} {handler : η} {s : Connection.Step Loopback}
    (h : Hears handler c s c') :
    c'.outstanding = c.outstanding ++ (c.connection.step s).jobs := by
  rw [Client.outstanding, h.waiting, List.map_append, List.map_filterMap]
  exact congrArg _ (List.filterMap_congr fun event _ => event.event_stateJob? handler)

/-! ### Nothing is dropped -/

/-- A client that tells a state handler all that it hears: what was put into the state queue has
been run or still waits there. -/
structure Relays (c : Client η) : Prop where
  heard : c.Heard
  attended : c.connection.Attended
  watched : c.connection.subscriber = some subscriber
  installed : ∃ handler, c.stateHandler = some handler
  queue : c.submitted = c.started ++ c.outstanding

theorem Hears.relays {c c' : Client η} {handler : η} {s : Connection.Step Loopback}
    (h : Hears handler c s c') (relays : Relays c) (keeps : s.keepsSubscriber = true) :
    Relays c' where
  heard := by rw [Heard, h.connection, Connection.drained]
  attended := by
    rw [h.connection]
    exact Connection.step_attended relays.attended s
  watched := by
    rw [h.connection]
    exact (Connection.step_subscriber c.connection keeps).trans relays.watched
  installed := ⟨handler, h.stateHandler⟩
  queue := by
    rw [h.submitted, h.started, h.outstanding, relays.queue, List.append_assoc]

/-- Nothing has come into the queue or left it. -/
theorem Relays.of_same {c c' : Client η} (relays : Relays c)
    (connection : c'.connection = c.connection) (installed : c'.stateHandler.isSome = true)
    (queue : c'.stateQueue.waiting = c.stateQueue.waiting)
    (submitted : c'.submitted = c.submitted) (started : c'.started = c.started) : Relays c' where
  heard := by rw [Heard, connection, relays.heard]
  attended := by rw [connection]; exact relays.attended
  watched := by rw [connection, relays.watched]
  installed := Option.isSome_iff_exists.1 installed
  queue := by rw [submitted, started, outstanding, queue, relays.queue, outstanding]

theorem startJob_of_empty {c : Client η} (empty : c.stateQueue.start? = none) :
    (c.startJob?.map (·.2)).getD c = c := by
  rw [startJob?, empty]
  rfl

/-- The first job that waits is run. -/
structure Starts (c c' : Client η) (job : StateJob η) : Prop where
  waiting : c.stateQueue.waiting = job :: c'.stateQueue.waiting
  running : c'.stateQueue.running = some job
  trace : c'.trace = c.trace ++ [job.event]
  connection : c'.connection = c.connection
  stateHandler : c'.stateHandler = c.stateHandler
  activations : c'.activations = c.activations

theorem starts_of_start {c : Client η} {job : StateJob η} {rest : SerialQueue (StateJob η)}
    (begins : c.stateQueue.start? = some (job, rest)) : Starts c (c.step .startJob) job := by
  have waiting := SerialQueue.waiting_of_start begins
  have running := SerialQueue.running_of_start begins
  rw [step, startJob?, begins]
  cases job <;> exact ⟨waiting, running, rfl, rfl, rfl, rfl⟩

theorem Starts.submitted {c c' : Client η} {job : StateJob η} (h : Starts c c' job) :
    c'.submitted = c.submitted := by
  rw [Client.submitted, h.trace, List.filterMap_append, Client.submitted]
  cases job <;> exact List.append_nil _

theorem Starts.started {c c' : Client η} {job : StateJob η} (h : Starts c c' job) :
    c'.started = c.started ++ [job.event] := by
  rw [Client.started, h.trace, List.filterMap_append, Client.started]
  cases job <;> rfl

theorem Starts.relays {c c' : Client η} {job : StateJob η} (h : Starts c c' job)
    (relays : Relays c) : Relays c' where
  heard := by rw [Heard, h.connection, relays.heard]
  attended := by rw [h.connection]; exact relays.attended
  watched := by rw [h.connection, relays.watched]
  installed := by rw [h.stateHandler]; exact relays.installed
  queue := by
    rw [h.submitted, h.started, relays.queue, outstanding, outstanding, h.waiting, List.map_cons,
      List.append_assoc]
    rfl

theorem keepsSubscriber_of_isApart {s : Connection.Step Loopback} (apart : s.isApart = true) :
    s.keepsSubscriber = true := by
  cases s with
  | configure setting => cases setting <;> first | rfl | cases apart
  | _ => rfl

theorem step_relays {c : Client η} (relays : Relays c) (s : Step η) : Relays (c.step s) := by
  obtain ⟨handler, installed⟩ := relays.installed
  have some_ : c.stateHandler.isSome = true := Option.isSome_iff_exists.2 relays.installed
  cases s with
  | activate =>
    have numbered : Relays { c with activations := c.activations + 1 } :=
      relays.of_same rfl some_ rfl rfl rfl
    exact (onConnection_hears (c := { c with activations := c.activations + 1 }) installed _).relays
      numbered rfl
  | connection s apart =>
    exact (onConnection_hears installed s).relays relays (keepsSubscriber_of_isApart apart)
  | startJob =>
    cases begins : c.stateQueue.start? with
    | none =>
      rw [step, startJob_of_empty begins]
      exact relays
    | some first => exact (starts_of_start begins).relays relays
  | endJob failed => exact relays.of_same rfl some_ rfl rfl rfl
  | stateHandler other => exact relays.of_same rfl rfl rfl rfl rfl
  | messageAnswered id result =>
    refine relays.of_same rfl some_ rfl ?_ ?_ <;>
      exact List.filterMap_append.trans (List.append_nil _)
  | beside rest => exact relays.of_same rfl some_ rfl rfl rfl

theorem stepAll_relays {c : Client η} (relays : Relays c) (steps : List (Step η)) :
    Relays (c.stepAll steps) :=
  stepAll_invariant (P := Relays) (fun _ s h => step_relays h s) relays steps

/-! ### One job after the other -/

/-- The running job ends, well or not, and the next one is started; so often. -/
def rounds (failures : List Bool) : List (Step η) :=
  failures.flatMap fun failed => [.endJob failed, .startJob]

/-- The queue goes on whatever becomes of its jobs. -/
theorem stepAll_rounds {c : Client η} {failures : List Bool}
    (enough : c.stateQueue.waiting.length ≤ failures.length) :
    (c.stepAll (rounds failures)).submitted = c.submitted ∧
      (c.stepAll (rounds failures)).stateQueue.waiting = [] := by
  induction failures generalizing c with
  | nil => exact ⟨rfl, List.eq_nil_of_length_eq_zero (Nat.le_zero.1 enough)⟩
  | cons failed failures ih =>
    have round : c.stepAll (rounds (failed :: failures)) =
      (c.finishJob.step .startJob).stepAll (rounds failures) := rfl
    rw [round]
    cases waiting : c.stateQueue.waiting with
    | nil =>
      have empty : c.finishJob.stateQueue.start? = none := by
        simp only [finishJob, SerialQueue.finish, SerialQueue.start?, waiting]
      have idle : c.finishJob.step .startJob = c.finishJob := startJob_of_empty empty
      have rest := ih (c := c.finishJob) (by
        simp [finishJob, SerialQueue.finish, waiting])
      rwa [idle]
    | cons job jobs =>
      have begins : c.finishJob.stateQueue.start? = some (job, ⟨jobs, some job⟩) := by
        simp only [finishJob, SerialQueue.finish, SerialQueue.start?, waiting]
      have starts := starts_of_start begins
      have left : (c.finishJob.step .startJob).stateQueue.waiting = jobs :=
        (List.cons.inj (starts.waiting.symm.trans waiting)).2
      rw [waiting, List.length_cons, List.length_cons] at enough
      have rest := ih (c := c.finishJob.step .startJob) (by rw [left]; omega)
      exact ⟨rest.1.trans starts.submitted, rest.2⟩

/-- All jobs are run in the end, each at its place. -/
theorem Relays.drained {c : Client η} (relays : Relays c) {failures : List Bool}
    (enough : c.stateQueue.waiting.length ≤ failures.length) :
    (c.stepAll (rounds failures)).started = c.submitted := by
  obtain ⟨submitted, waiting⟩ := stepAll_rounds enough
  have queue := (stepAll_relays relays (rounds failures)).queue
  rw [submitted, outstanding, waiting, List.map_nil, List.append_nil] at queue
  exact queue.symm

/-! ### Which state handler is run -/

/-- The client has this state handler, and jobs for no other. -/
structure Employs (handler : η) (c : Client η) : Prop where
  installed : c.stateHandler = some handler
  waiting : ∀ job ∈ c.stateQueue.waiting, job.IsFor handler
  running : ∀ job ∈ c.stateQueue.running, job.IsFor handler

theorem Queues.employs {handler : η} {events : List ConnectionEvent} {c c' : Client η}
    (h : Queues handler events c c') (employs : Employs handler c) : Employs handler c' where
  installed := h.stateHandler
  waiting job member := by
    rw [h.waiting, List.mem_append, List.mem_filterMap] at member
    obtain old | ⟨event, -, brings⟩ := member
    · exact employs.waiting job old
    · exact isFor_of_stateJob? brings
  running job member := employs.running job (h.running ▸ member)

theorem step_employs {handler : η} {c : Client η} (employs : Employs handler c) {s : Step η}
    (kept : ∀ other, s ≠ .stateHandler other) : Employs handler (c.step s) := by
  cases s with
  | activate =>
    let numbered : Client η := { c with activations := c.activations + 1 }
    have hears := onConnection_hears (c := numbered) employs.installed
      (.connect (.completion c.activations))
    exact hears.employs ⟨employs.installed, employs.waiting, employs.running⟩
  | connection s apart => exact (onConnection_hears employs.installed s).employs employs
  | startJob =>
    cases begins : c.stateQueue.start? with
    | none =>
      rw [step, startJob_of_empty begins]
      exact employs
    | some first =>
      have starts := starts_of_start begins
      have head := employs.waiting
      rw [starts.waiting] at head
      refine ⟨starts.stateHandler.trans employs.installed,
        fun job member => head job (List.mem_cons_of_mem _ member), fun job member => ?_⟩
      obtain rfl := Option.some.inj (starts.running.symm.trans member)
      exact head _ List.mem_cons_self
  | endJob failed =>
    exact ⟨employs.installed, employs.waiting,
      fun job running => absurd running (Option.not_mem_none job)⟩
  | stateHandler other => exact absurd rfl (kept other)
  | messageAnswered id result | beside rest =>
    exact ⟨employs.installed, employs.waiting, employs.running⟩

theorem stepAll_employs {handler : η} {c : Client η} (employs : Employs handler c)
    {steps : List (Step η)} (kept : ∀ s ∈ steps, ∀ other, s ≠ .stateHandler other) :
    Employs handler (c.stepAll steps) := by
  induction steps generalizing c with
  | nil => exact employs
  | cons s steps ih =>
    exact ih (step_employs employs (kept s List.mem_cons_self)) fun u member =>
      kept u (List.mem_cons_of_mem s member)

end Client

end EndpointMonitor
