import EndpointMonitor.Proofs.Client.ControlCall
import EndpointMonitor.Proofs.Client.Step
import EndpointMonitor.Proofs.Service.Caches
import EndpointMonitor.Scenario.Basic

/-!
Scenarios in which nothing waits, and calls of a client that is up and whose service answers at
once. Such a call returns in the step in which it is made, with the answer of the service.
-/

namespace EndpointMonitor.Scenario

open Client (Attached Joined)

variable {s : Scenario}

/-! ### Nothing waits -/

/-- No job waits or runs, no timer is due, and nothing is on its way in either direction. -/
structure Idle (s : Scenario) : Prop where
  alone : s.emissions = []
  jobs : s.client.startJob? = none
  heard : s.client.Heard
  timers : ∀ t ∈ s.client.connection.timers, s.client.connection.now < t.due
  replies : s.client.service.delayed = []

theorem settle_of_no_job (nothing : s.client.startJob? = none) (depth : Nat) :
    s.settle depth = s := by
  cases depth with
  | zero => rfl
  | succ depth => simp only [settle, nothing]

theorem Idle.fireDue (idle : s.Idle) : s.fireDue = s := by
  have silent : s.client.connection.dueCount = 0 := by
    rw [Connection.dueCount, List.countP_eq_zero]
    intro t set
    simpa using idle.timers t set
  have still : s.client.onConnection (·.fireDue) = s.client := by
    rw [Client.onConnection, Connection.fireDue, silent]
    exact idle.heard.relay
  rw [Scenario.fireDue, still, Client.deliverAll, idle.replies]
  rfl

/-- All is over when the last job is. -/
theorem quiesce_of_settle {s' : Scenario} (settles : s.settle maxDepth = s') (idle : s'.Idle) :
    s.quiesce = s' := by
  rw [Scenario.quiesce, settles, idle.fireDue, settle_of_no_job idle.jobs]

/-- What has set nothing off is over. -/
theorem Idle.quiesce (idle : s.Idle) : s.quiesce = s :=
  quiesce_of_settle (settle_of_no_job idle.jobs _) idle

/-! ### Calls that are answered at once -/

/-- The client is up, all its calls have returned, and its service answers at once and sends nothing
by itself. -/
structure Calm (s : Scenario) : Prop where
  alone : s.emissions = []
  attached : Attached s.client
  joined : Joined s.client
  up : s.client.state = .connected
  free : s.client.bridge.holder = none
  prompt : s.client.service.isPrompt = true
  timers : ∀ t ∈ s.client.connection.timers, s.client.connection.now < t.due
  replies : s.client.service.delayed = []
  /-- Results are known of calls that have begun only. -/
  begun : ∀ call ∈ s.calls, call.1 < s.client.bridge.calls.length

theorem Calm.idle (calm : s.Calm) (jobs : s.client.startJob? = none) : s.Idle :=
  ⟨calm.alone, jobs, calm.joined.heard, calm.timers, calm.replies⟩

/-- A service that has changed its tables for its client, and does what it did before. -/
structure Alters (before service : Service) (after : ServiceTables) : Prop where
  tables : service.tables = after
  codec : service.codec = before.codec
  binding : service.binding = before.binding
  isPrompt : service.isPrompt = before.isPrompt
  delayed : service.delayed = before.delayed
  responder : service.responder = before.responder

/-- A reply that goes back at once leaves no trace but in the counts. -/
theorem respond_alters {service : Service} (prompt : service.isPrompt = true)
    (delivery : Delivery) : Alters service (service.respond delivery).2 service.tables := by
  obtain ⟨responsive, undelayed⟩ := Bool.and_eq_true_iff.1 prompt
  rw [Bool.not_eq_true'] at responsive
  rw [Option.isNone_iff_eq_none] at undelayed
  simp only [Service.respond, responsive, undelayed, Bool.false_eq_true, if_false]
  exact ⟨rfl, rfl, rfl, by simp only [Service.isPrompt, responsive, undelayed], rfl, rfl⟩

/-- A result is not known before its call. -/
theorem Calm.unknown (calm : s.Calm) : s.calls.lookup s.client.bridge.calls.length = none := by
  rw [List.lookup_eq_none_iff]
  intro call known
  have before := calm.begun call known
  simp only [bne_iff_ne, ne_eq]
  omega

theorem expire_of_decided {α : Type} {b : Bridge α} {call : Nat} {result : Except ClientError α}
    (decided : b.outcome? call = some result) : b.expire call = b := by
  have disarmed : b.armed call = false := by
    rw [Bool.eq_false_iff, ne_eq, Bridge.armed_iff, decided]
    exact fun armed => nomatch armed.2
  unfold Bridge.expire
  split
  · rw [Bridge.settle_of_not_armed disarmed]
  · rfl

/-- A decided call returns, without any waiting. -/
theorem joinCall_of_decided {begun : Client (List Action)} {call : Nat}
    {result : Except ClientError ServiceReply} (unknown : s.calls.lookup call = none)
    (replies : begun.service.delayed = []) (holds : begun.bridge.holder = some call)
    (decided : begun.bridge.outcome? call = some result) :
    { s with client := begun }.joinCall call = (result, { s with
      client := { begun with bridge := begun.bridge.vacate, sentOn := none }
      calls := (call, result) :: s.calls }) := by
  have expired : begun.expireCall call = begun := by
    rw [Client.expireCall, expire_of_decided decided]
  have finished := Client.finishCall_of_decided holds decided
  simp only [joinCall, unknown, replies, List.length_nil, Client.awaitReplies, expired, finished]

/-- A request of an operation changes the tables, and is answered at once. -/
theorem Calm.asked (calm : s.Calm) {channel : Nat}
    (usable : s.client.connection.proxy? = some channel) {control : Control}
    {request : ServiceRequest} (made : control.request s.client.codec = .ok request)
    {after : ServiceTables}
    (applied : s.client.service.tables.apply s.client.codec request =
      .ok (control.reply s.client.service.tables, after)) (delivery : Delivery) :
    s.client.service.answer channel request = .ok (control.reply s.client.service.tables) ∧
      Alters s.client.service ((s.client.service.served channel request).respond delivery).2
        after := by
  have current := calm.joined.isCurrent usable
  have codec : s.client.service.codec = s.client.codec :=
    calm.joined.connection.codec.trans calm.joined.codec
  have other : ∀ converter, request ≠ .createSession converter := by
    rintro converter rfl
    cases (Control.asks_of_request made).control
  have carried : s.client.service.apply request = (.ok (control.reply s.client.service.tables),
      { s.client.service with
        requests := s.client.service.requests ++ [request.name], tables := after }) := by
    rw [← codec] at applied
    rw [Service.apply_of_tables other, applied]
  have served : s.client.service.served channel request = { s.client.service with
      requests := s.client.service.requests ++ [request.name], tables := after } := by
    rw [Service.served, if_pos current, carried]
  have prompt := (Service.served_isPrompt s.client.service channel request).trans calm.prompt
  have responded := respond_alters prompt delivery
  rw [served] at prompt responded ⊢
  refine ⟨?_, responded.tables, responded.codec, responded.binding, responded.isPrompt,
    responded.delayed, responded.responder⟩
  rw [Service.answer, if_pos current, carried]

/-- The scenario after a control call that has left the service like this. -/
def called (s : Scenario) (service : Service) (bridge : Bridge ServiceReply)
    (calls : List (Nat × Except ClientError ServiceReply)) : Scenario :=
  { s with client := { s.client.withService service with bridge, sentOn := none }, calls }

/-- A control call returns what the service answers. All that it changes at the service is what is
remembered there. -/
theorem Calm.control (calm : s.Calm) {control : Control} {request : ServiceRequest}
    (made : control.request s.client.codec = .ok request) {after : ServiceTables}
    (applied : s.client.service.tables.apply s.client.codec request =
      .ok (control.reply s.client.service.tables, after)) (thread : Nat) :
    ∃ service bridge calls,
      s.act thread (.control control) =
        (.control (.ok (control.value s.client.service.tables)), s.called service bridge calls) ∧
      (s.called service bridge calls).Calm ∧ Alters s.client.service service after := by
  let n := s.client.bridge.calls.length
  let reply := control.reply s.client.service.tables
  obtain ⟨channel, usable⟩ := calm.joined.usable calm.up
  obtain ⟨answer, alters⟩ :=
    calm.asked usable made applied (.call n (s.client.service.answer channel request))
  let begun := (s.client.entered thread).asked n channel request
  have starts : s.client.beginCall thread request = .started n begun :=
    (Client.beginCall_of_free calm.attached calm.free thread request).trans
      (congrArg _ (Client.send_eq_asked (c := s.client.entered thread)
        calm.joined.connection.interception usable n request))
  obtain ⟨holds, decided⟩ := Client.entered_settle s.client thread (.ok reply)
  rw [← Client.asked_bridge_of_prompt calm.prompt answer] at holds decided
  have begins : s.beginControl thread control =
      (.control n control, { s with client := begun }) := by
    simp only [beginControl, made, starts]
  have undelayed : begun.service.delayed = [] := alters.delayed.trans calm.replies
  have returns := joinCall_of_decided calm.unknown undelayed holds decided
  refine ⟨_, begun.bridge.vacate, (n, .ok reply) :: s.calls, ?_, ?_, alters⟩
  · simp only [act, begins, join]
    rw [returns]
    exact congrArg (fun result => (Answer.control result, _)) (Control.interpret_reply control _)
  · have performs : s.client.perform (.beginCall thread control) = begun :=
      Client.perform_beginCall_asked calm.attached calm.joined usable calm.free thread made
    have finished := Client.finishCall_of_decided (c := begun) holds decided
    have left : begun.perform (.finishCall n) =
        { begun with bridge := begun.bridge.vacate, sentOn := none } := by
      rw [Client.perform, finished]
      rfl
    have attached := (calm.attached.perform (.beginCall thread control)).perform (.finishCall n)
    have joined := Client.perform_joined
      (Client.perform_joined calm.joined (.beginCall thread control)) (.finishCall n)
    rw [performs, left] at attached joined
    refine ⟨calm.alone, attached, joined, calm.up, rfl, alters.isPrompt.trans calm.prompt,
      calm.timers, alters.delayed.trans calm.replies, fun call known => ?_⟩
    have length : begun.bridge.calls.length = n + 1 := by
      have deadlines := congrArg List.length
        (Client.asked_deadlines (s.client.entered thread) n channel request)
      rw [List.length_map, List.length_map, Client.entered_length] at deadlines
      exact deadlines
    show call.1 < begun.bridge.calls.length
    rw [length]
    rcases List.mem_cons.1 known with rfl | before
    · exact Nat.lt_succ_self n
    · exact Nat.lt_succ_of_lt (calm.begun call before)

/-- What else the client holds is no matter. -/
theorem Calm.of_same {s' : Scenario} (calm : s.Calm)
    (connection : s'.client.connection = s.client.connection)
    (bridge : s'.client.bridge = s.client.bridge) (sentOn : s'.client.sentOn = s.client.sentOn)
    (codec : s'.client.codec = s.client.codec) (calls : s'.calls = s.calls)
    (emissions : s'.emissions = s.emissions) : s'.Calm := by
  obtain ⟨alone, attached, joined, up, free, prompt, timers, replies, begun⟩ := calm
  have blocked : ∀ call, s'.client.Blocked call → s.client.Blocked call := fun call waits => by
    rwa [Client.Blocked, bridge] at waits
  refine ⟨emissions.trans alone, ⟨?_, ?_, fun call waits => ?_⟩, joined.of_same connection codec,
    ?_, ?_, ?_, ?_, ?_, ?_⟩
  · rw [bridge]
    exact attached.serial
  · rw [connection]
    exact attached.subscriber
  · rw [connection, sentOn]
    exact attached.sent call (blocked call waits)
  · rwa [Client.state, connection]
  · rwa [bridge]
  · rwa [Client.service, connection]
  · rwa [connection]
  · rwa [Client.service, connection]
  · rwa [bridge, calls]

/-! ### Steps -/

/-- Whether an action is neither made of others nor the passing of time. -/
def isPlain : Action → Bool
  | .inFlight _ _ | .parallel _ | .advance _ => false
  | _ => true

theorem goOn_of_none (alone : s.emissions = []) : s.goOn = s := by
  obtain ⟨client, threads, replayed, calls, activations, emissions⟩ := s
  obtain rfl : emissions = [] := alone
  rfl

theorem perform_plain {action : Action} (plain : isPlain action = true) {thread : Nat}
    {answer : Answer} {s' : Scenario} (acts : s.act thread action = (answer, s'))
    (alone : s'.emissions = []) (depth : Nat) :
    s.perform thread action (depth + 1) = (answer, s') := by
  have performs : s.perform thread action (depth + 1) =
      ((s.act thread action).1, (s.act thread action).2.goOn) := by
    cases action with
    | inFlight | parallel | advance => cases plain
    | _ => rfl
  rw [performs, acts, goOn_of_none alone]

theorem step_plain {action : Action} (plain : isPlain action = true) {answer : Answer}
    {s' : Scenario} (acts : s.act 0 action = (answer, s')) (alone : s'.emissions = []) :
    s.step action = (answer, s'.quiesce) := by
  have performs : s.perform 0 action maxDepth = (answer, s') := perform_plain plain acts alone 9999
  simp only [step, performs]

/-- An action that sets nothing off. -/
theorem step_of_idle {action : Action} (plain : isPlain action = true) {answer : Answer}
    {s' : Scenario} (acts : s.act 0 action = (answer, s')) (idle : s'.Idle) :
    s.step action = (answer, s') := by
  rw [step_plain plain acts idle.alone, idle.quiesce]

/-- A state handler that does one thing when the connection is up. -/
theorem settle_handle {client : Client (List Action)} {action : Action}
    (starts : s.client.startJob? = some (.handle [action] (.ok ()), client))
    (plain : isPlain action = true) {answer : Answer} {s' : Scenario}
    (acts : { s with client }.act stateThread action = (answer, s')) (alone : s'.emissions = [])
    (last : s'.client.finishJob.startJob? = none) (depth : Nat) :
    s.settle (depth + 2) = { s' with
      client := s'.client.finishJob, replayed := s'.replayed ++ [answer] } := by
  rw [settle, starts]
  simp only [List.foldl_cons, List.foldl_nil, perform_plain plain acts alone]
  exact settle_of_no_job last _

/-- A state handler that does nothing, as the connection is not up. -/
theorem settle_lost {client : Client (List Action)} {replay : List Action} {error : ClientError}
    (starts : s.client.startJob? = some (.handle replay (.error error), client))
    (last : client.finishJob.startJob? = none) (depth : Nat) :
    s.settle (depth + 2) = { s with client := client.finishJob } := by
  rw [settle, starts]
  exact settle_of_no_job last _

/-- A state handler has yet to hear that the connection is not up. -/
theorem quiesce_lost {replay : List Action} {error : ClientError} (alone : s.emissions = [])
    (queue : s.client.stateQueue = ⟨[.handle replay (.error error)], none⟩)
    (heard : s.client.Heard)
    (timers : ∀ t ∈ s.client.connection.timers, s.client.connection.now < t.due)
    (replies : s.client.service.delayed = []) :
    s.quiesce = { s with client :=
      { s.client with stateQueue := .empty }.note (.handled (.error error)) } := by
  have starts : s.client.startJob? = some (.handle replay (.error error),
      { s.client with stateQueue := ⟨[], some (.handle replay (.error error))⟩ }.note
        (.handled (.error error))) := by
    rw [Client.startJob?, queue]
    rfl
  exact quiesce_of_settle (settle_lost starts rfl 9998) ⟨alone, rfl, heard, timers, replies⟩

end EndpointMonitor.Scenario
