import EndpointMonitor.Proofs.Client.Operation
import EndpointMonitor.Proofs.Connection.InUse
import EndpointMonitor.Proofs.Connection.Trace
import EndpointMonitor.Proofs.Connection.Waiting

/-!
The runs of a client, in the smallest steps in which others can take part: each step of its
connection is one of its own, and the client deals at once with what that step tells. Whatever a
caller, the service, a timer or the state queue does in one go is a run of such steps.
-/

namespace EndpointMonitor

/-- Whether a step of a connection asks for no completion and leaves the state handler in place.
Whatever passes completions on or watches the connection is the client's own business. -/
def Connection.Step.isApart {σ : Type} : Connection.Step σ → Bool
  | .connect (.completion _) | .configure (.subscriber _) => false
  | _ => true

namespace Client

variable {η : Type}

/-- What can happen to a client. -/
inductive Step (η : Type) where
  /-- The application wants to connect and passes a completion on. The channel comes later. -/
  | activate
  | connection (s : Connection.Step Loopback) (apart : s.isApart = true)
  | startJob
  /-- The job that runs in the state queue ends, well or not. -/
  | endJob (failed : Bool)
  | stateHandler (handler : η)
  | messageAnswered (id : Nat) (result : Except ClientError Bytes)
  /-- Calls, handlers and custom messages come and go. -/
  | beside (rest : Client η)

/-- The connection, the state queue and what others have seen stay as they are. -/
def beside (c rest : Client η) : Client η :=
  { rest with
    connection := c.connection
    stateQueue := c.stateQueue
    stateHandler := c.stateHandler
    activations := c.activations
    trace := c.trace }

def step (c : Client η) : Step η → Client η
  | .activate =>
    { c with activations := c.activations + 1 }.onConnection
      (·.step (.connect (.completion c.activations)))
  | .connection s _ => c.onConnection (·.step s)
  | .startJob => (c.startJob?.map (·.2)).getD c
  | .endJob _ => c.finishJob
  | .stateHandler handler => { c with stateHandler := some handler }
  | .messageAnswered id result => c.note (.messageAnswered id result)
  | .beside rest => c.beside rest

def stepAll (c : Client η) (steps : List (Step η)) : Client η := steps.foldl step c

@[simp] theorem stepAll_nil (c : Client η) : c.stepAll [] = c := rfl

@[simp] theorem stepAll_cons (c : Client η) (s : Step η) (steps : List (Step η)) :
    c.stepAll (s :: steps) = (c.step s).stepAll steps := rfl

theorem stepAll_append (c : Client η) (steps more : List (Step η)) :
    c.stepAll (steps ++ more) = (c.stepAll steps).stepAll more := List.foldl_append

/-- What every step keeps, every run keeps. -/
theorem stepAll_invariant {P : Client η → Prop} (keep : ∀ c s, P c → P (c.step s)) {c : Client η}
    (h : P c) (steps : List (Step η)) : P (c.stepAll steps) := by
  induction steps generalizing c with
  | nil => exact h
  | cons s steps ih => exact ih (keep c s h)

/-! ### What the client has heard -/

/-- The client has dealt with all that its connection has told. -/
def Heard (c : Client η) : Prop := c.connection.trace = []

theorem heard_relay (c : Client η) : c.relay.Heard := by
  rw [Heard, relay_connection]

theorem Heard.relay {c : Client η} (h : c.Heard) : c.relay = c := by
  have told : c.connection.drained = c.connection := by
    rw [Connection.drained, ← h]
  have relayed : c.relay = c.connection.trace.foldl relayEvent
    { c with connection := c.connection.drained } := rfl
  rw [relayed, h, told]
  rfl

theorem startJob_connection (c : Client η) :
    ((c.startJob?.map (·.2)).getD c).connection = c.connection := by
  unfold startJob?
  cases c.stateQueue.start? with
  | none => rfl
  | some started =>
    obtain ⟨job, queue⟩ := started
    cases job <;> rfl

theorem Heard.step {c : Client η} (h : c.Heard) (s : Step η) : (c.step s).Heard := by
  cases s with
  | activate | connection s apart => exact heard_relay _
  | startJob =>
    rw [Heard, Client.step, startJob_connection]
    exact h
  | endJob failed | stateHandler handler | messageAnswered id result | beside rest => exact h

theorem Heard.stepAll {c : Client η} (h : c.Heard) (steps : List (Step η)) :
    (c.stepAll steps).Heard :=
  stepAll_invariant (fun _ s heard => heard.step s) h steps

/-! ### The steps of the connection, one by one -/

theorem relayEvent_withConnection (c : Client η) (connection : Connection Loopback)
    (event : ConnectionEvent) :
    ({ c with connection } : Client η).relayEvent event =
      { c.relayEvent event with connection } := by
  cases event with
  | published subscriber outcome =>
    simp only [relayEvent, relayOutcome]
    cases isLoss outcome <;> cases handler : c.stateHandler <;>
      simp [note, failPending, submit, handler]
  | answered waiter outcome => cases waiter <;> rfl
  | creating generation | requested generation channel converter | closed channel => rfl

theorem foldl_relayEvent_withConnection (c : Client η) (connection : Connection Loopback)
    (events : List ConnectionEvent) :
    events.foldl relayEvent { c with connection } =
      { events.foldl relayEvent c with connection } := by
  induction events generalizing c with
  | nil => rfl
  | cons event events ih => rw [List.foldl_cons, List.foldl_cons, relayEvent_withConnection, ih]

/-- It makes no difference whether the client deals with some events before the others happen. -/
theorem relay_preceded (c : Client η) (connection : Connection Loopback)
    (earlier : List ConnectionEvent) :
    ({ c with connection := connection.preceded earlier } : Client η).relay =
      ({ earlier.foldl relayEvent c with connection } : Client η).relay := by
  have drains : (connection.preceded earlier).drained = connection.drained := rfl
  have relayed : ({ c with connection := connection.preceded earlier } : Client η).relay =
      (earlier ++ connection.trace).foldl relayEvent
        { c with connection := connection.drained } := rfl
  rw [relayed, List.foldl_append, foldl_relayEvent_withConnection c connection.drained earlier]
  rfl

theorem relay_eq (c : Client η) :
    c.relay =
      { c.connection.trace.foldl relayEvent c with connection := c.connection.drained } :=
  foldl_relayEvent_withConnection c c.connection.drained c.connection.trace

/-- What the connection does in several steps, the client deals with step by step. -/
theorem onConnection_run {c : Client η} (heard : c.Heard)
    (steps : List (Connection.Step Loopback)) :
    c.onConnection (·.run steps) = steps.foldl (fun c s => c.onConnection (·.step s)) c := by
  induction steps generalizing c with
  | nil => exact heard.relay
  | cons s steps ih =>
    let told := (c.connection.step s).trace
    have rest := ih (heard_relay { c with connection := c.connection.step s })
    have onwards : (c.connection.step s).run steps =
        ((c.connection.step s).drained.run steps).preceded told := by
      rw [← Connection.run_preceded, Connection.preceded_drained]
    have first : c.onConnection (·.step s) =
        { told.foldl relayEvent c with connection := (c.connection.step s).drained } := by
      rw [onConnection, relay_eq, foldl_relayEvent_withConnection]
    calc c.onConnection (·.run (s :: steps))
        = ({ c with connection := (c.connection.step s).run steps } : Client η).relay := rfl
      _ = ({ told.foldl relayEvent c with
            connection := (c.connection.step s).drained.run steps } : Client η).relay := by
          rw [onwards, relay_preceded]
      _ = (c.onConnection (·.step s)).onConnection (·.run steps) := by
          rw [first]
          rfl
      _ = (s :: steps).foldl (fun c s => c.onConnection (·.step s)) c := rest

/-! ### Operations as runs -/

/-- A run of steps leads from one client to the other. -/
def Runs (c c' : Client η) : Prop := ∃ steps, c' = c.stepAll steps

theorem Runs.refl (c : Client η) : Runs c c := ⟨[], rfl⟩

theorem Runs.trans {c d e : Client η} (h : Runs c d) (h' : Runs d e) : Runs c e := by
  obtain ⟨steps, rfl⟩ := h
  obtain ⟨more, rfl⟩ := h'
  exact ⟨steps ++ more, (stepAll_append c steps more).symm⟩

theorem runs_step (c : Client η) (s : Step η) : Runs c (c.step s) := ⟨[s], rfl⟩

theorem Runs.heard {c c' : Client η} (h : Runs c c') (heard : c.Heard) : c'.Heard := by
  obtain ⟨steps, rfl⟩ := h
  exact heard.stepAll steps

/-- Nothing has happened to the connection, but maybe to the service, and nothing in the state
queue. -/
structure Unmoved (c c' : Client η) : Prop where
  connection : c'.connection = { c.connection with transport := c'.connection.transport }
  stateQueue : c'.stateQueue = c.stateQueue
  stateHandler : c'.stateHandler = c.stateHandler
  activations : c'.activations = c.activations
  trace : c'.trace = c.trace

theorem Unmoved.runs {c c' : Client η} (h : Unmoved c c') (heard : c.Heard) : Runs c c' := by
  refine ⟨[.connection (.world c'.connection.transport) rfl, .beside c'], ?_⟩
  have moved : c.step (.connection (.world c'.connection.transport) rfl) =
      c.withTransport c'.connection.transport :=
    Heard.relay (c := c.withTransport c'.connection.transport) heard
  rw [stepAll_cons, moved, stepAll_cons, stepAll_nil, step, beside]
  have connection : (c.withTransport c'.connection.transport).connection = c'.connection :=
    h.connection.symm
  rw [connection]
  change c' = { c' with
    stateQueue := c.stateQueue
    stateHandler := c.stateHandler
    activations := c.activations
    trace := c.trace }
  rw [← h.stateQueue, ← h.stateHandler, ← h.activations, ← h.trace]

theorem withService_unmoved (c : Client η) (service : Service) :
    Unmoved c (c.withService service) := ⟨rfl, rfl, rfl, rfl, rfl⟩

theorem withExchange_unmoved (c : Client η) (x : Exchange) : Unmoved c (c.withExchange x) :=
  ⟨rfl, rfl, rfl, rfl, rfl⟩

theorem send_unmoved (c : Client η) (call : Nat) (request : ServiceRequest) :
    Unmoved c (c.send call request) := by
  unfold send
  cases c.connection.proxy? with
  | none => exact ⟨rfl, rfl, rfl, rfl, rfl⟩
  | some channel =>
    rcases sent : c.connection.transport.request channel call request with ⟨fate, transport⟩
    simp only [sent]
    cases fate <;> exact ⟨rfl, rfl, rfl, rfl, rfl⟩

theorem beginCall_unmoved (c : Client η) (thread : Nat) (request : ServiceRequest) :
    Unmoved c ((c.beginCall thread request).after c) := by
  unfold beginCall
  cases c.bridge.enter thread c.timeoutMs with
  | rejected | waiting holder => exact ⟨rfl, rfl, rfl, rfl, rfl⟩
  | started call bridge =>
    obtain ⟨connection, stateQueue, stateHandler, activations, trace⟩ :=
      send_unmoved { c with bridge, sentOn := none } call request
    exact ⟨connection, stateQueue, stateHandler, activations, trace⟩

theorem finishCall_unmoved (c : Client η) (call : Nat) :
    Unmoved c (((c.finishCall call).map (·.2)).getD c) := by
  unfold finishCall
  cases c.bridge.leave call <;> exact ⟨rfl, rfl, rfl, rfl, rfl⟩

theorem runs_of_apart (c : Client η) {steps : List (Connection.Step Loopback)}
    (apart : ∀ s ∈ steps, s.isApart = true) :
    Runs c (steps.foldl (fun c s => c.onConnection (·.step s)) c) := by
  induction steps generalizing c with
  | nil => exact .refl c
  | cons s steps ih =>
    have first := runs_step c (.connection s (apart s List.mem_cons_self))
    exact first.trans (ih _ fun u hu => apart u (List.mem_cons_of_mem s hu))

/-- A step that the connection tells nothing of. -/
theorem connection_runs {c : Client η} {s : Connection.Step Loopback} (apart : s.isApart = true)
    (untold : (c.connection.step s).trace = []) :
    Runs c { c with connection := c.connection.step s } := by
  refine ⟨[.connection s apart], ?_⟩
  exact (Heard.relay (c := { c with connection := c.connection.step s }) untold).symm

/-- What the connection does by itself passes no completion on, unless it is asked to. -/
theorem isApart_of_mem_stepsOf {c : Connection Loopback} {operation : Connection.Operation Loopback}
    (own : operation.isOwn = true) (silent : ∀ id, operation.connectsWith id = false)
    {s : Connection.Step Loopback} (member : s ∈ c.stepsOf operation) : s.isApart = true := by
  cases s with
  | connect waiter =>
    cases waiter with
    | call id => rfl
    | completion id =>
      have asks := c.countP_asks_stepsOf operation id
      rw [silent id, if_neg Bool.false_ne_true, List.countP_eq_zero] at asks
      exact absurd (decide_eq_true rfl) (asks _ member)
  | configure setting => exact absurd (Connection.isOwn_of_mem_stepsOf own member) nofun
  | _ => rfl

theorem follow_runs {c : Client η} (heard : c.Heard) (operation : Connection.Operation Loopback)
    (own : operation.isOwn = true) (silent : ∀ id, operation.connectsWith id = false) :
    Runs c (c.follow operation) := by
  have steps : c.follow operation = c.onConnection (·.run (c.connection.stepsOf operation)) := by
    simp only [follow, onConnection, Connection.perform_eq_run]
  rw [steps, onConnection_run heard]
  exact runs_of_apart c fun s member => isApart_of_mem_stepsOf own silent member

theorem deliver_runs {c : Client η} (heard : c.Heard) (delivery : Delivery) :
    Runs c (c.deliver delivery) := by
  cases delivery with
  | session generation result =>
    exact follow_runs heard (.receive (.sessionReply generation result)) rfl fun _ => rfl
  | call id result => exact Unmoved.runs ⟨rfl, rfl, rfl, rfl, rfl⟩ heard
  | message id result => exact runs_step c (.messageAnswered id (result.mapError .remote))
  | foreign result | foreignMessage result => exact .refl c

theorem foldl_deliver_runs {c : Client η} (heard : c.Heard) (deliveries : List Delivery) :
    Runs c (deliveries.foldl deliver c) := by
  induction deliveries generalizing c with
  | nil => exact .refl c
  | cons delivery deliveries ih =>
    have first := deliver_runs heard delivery
    exact first.trans (ih (first.heard heard))

theorem sendCustom_runs {c : Client η} (heard : c.Heard) (data : Bytes) :
    Runs c (c.sendCustom data) := by
  have numbered : Runs c { c with messages := c.messages + 1 } :=
    Unmoved.runs ⟨rfl, rfl, rfl, rfl, rfl⟩ heard
  simp only [sendCustom]
  split
  · exact numbered.trans (runs_step _ (.messageAnswered c.messages (.error c.disconnectedError)))
  · next channel _ =>
    let sent := c.service.customMessage channel data (.message c.messages)
    have served := (withService_unmoved { c with messages := c.messages + 1 } sent.2).runs heard
    exact (numbered.trans served).trans (foldl_deliver_runs (served.heard heard) _)

theorem beginActivate_runs {c : Client η} (heard : c.Heard) (thread : Nat) :
    Runs c ((c.beginActivate thread).after c) := by
  have follows := follow_runs heard (.beginConnect thread c.timeoutMs) rfl fun _ => rfl
  unfold beginActivate
  cases begins : c.connection.beginConnect thread c.timeoutMs with
  | rejected | waiting holder => exact .refl c
  | started call connection => rwa [follow_beginConnect begins] at follows

theorem finishActivate_runs {c : Client η} (heard : c.Heard) (call : Nat) :
    Runs c (((c.finishActivate call).map (·.2)).getD c) := by
  have follows := follow_runs heard (.finishConnect call) rfl fun _ => rfl
  unfold finishActivate
  cases finishes : c.connection.finishConnect call with
  | none => exact .refl c
  | some finished => rwa [follow_finishConnect finishes] at follows

/-- An activation passes its completion on, and then the channel comes, or not. -/
theorem activateWith_runs {c : Client η} (heard : c.Heard) :
    Runs (c.step .activate) c.activateWith := by
  let numbered : Client η := { c with activations := c.activations + 1 }
  let wish : Connection.Operation Loopback := .connectWith c.activations
  have steps : c.activateWith = numbered.onConnection (·.run (c.connection.stepsOf wish)) :=
    congrArg (fun connection => ({ numbered with connection } : Client η).relay)
      (c.connection.perform_eq_run wish)
  rw [steps, onConnection_run (c := numbered) heard]
  refine runs_of_apart _ fun s reported => ?_
  obtain ⟨signal, rfl⟩ | ⟨generation, result, rfl⟩ := Connection.cases_of_mem_reports reported <;>
    rfl

theorem invalidate_runs {c : Client η} (heard : c.Heard) : Runs c c.invalidate := by
  have follows := follow_runs heard .invalidate rfl fun _ => rfl
  have failed : Unmoved (c.follow .invalidate) c.invalidate := ⟨rfl, rfl, rfl, rfl, rfl⟩
  exact follows.trans (failed.runs (follows.heard heard))

theorem interrupt_runs {c : Client η} (heard : c.Heard) : Runs c c.interrupt.2 := by
  unfold interrupt
  rcases c.service.interrupt with ⟨_ | generation, service⟩
  · exact .refl c
  · have served := (withService_unmoved c service).runs heard
    exact served.trans (follow_runs (served.heard heard) (.receive (.lost generation))
      rfl fun _ => rfl)

theorem configure_runs {c : Client η} (heard : c.Heard) (setting : Setting η) :
    Runs c (c.configure setting) := by
  cases setting with
  | timeout ms =>
    have limits := connection_runs (c := c) (s := .configure (.sessionTimeout ms)) rfl heard
    exact limits.trans (Unmoved.runs ⟨rfl, rfl, rfl, rfl, rfl⟩ heard)
  | reconnectDelay ms =>
    exact connection_runs (c := c) (s := .configure (.reconnectDelay ms)) rfl heard
  | converter converter =>
    exact connection_runs (c := c) (s := .configure (.converter converter)) rfl heard
  | executor executor | handlers handlers =>
    exact Unmoved.runs ⟨rfl, rfl, rfl, rfl, rfl⟩ heard
  | stateHandler handler => exact runs_step c (.stateHandler handler)

/-- Whatever happens to a client in one go is a run of steps. -/
theorem perform_runs {c : Client η} (heard : c.Heard) (operation : Operation η) :
    Runs c (c.perform operation) := by
  cases operation with
  | beginCall thread control =>
    simp only [perform]
    cases control.request c.codec with
    | error error => exact .refl c
    | ok request => exact (beginCall_unmoved c thread request).runs heard
  | finishCall call => exact (finishCall_unmoved c call).runs heard
  | sendCustom data => exact sendCustom_runs heard data
  | beginActivate thread => exact beginActivate_runs heard thread
  | expireActivate call => exact follow_runs heard (.expireConnect call) rfl fun _ => rfl
  | finishActivate call => exact finishActivate_runs heard call
  | activateWith => exact (runs_step c .activate).trans (activateWith_runs heard)
  | invalidate => exact invalidate_runs heard
  | configure setting => exact configure_runs heard setting
  | startJob => exact runs_step c .startJob
  | finishJob => exact runs_step c (.endJob false)
  | fire t => exact follow_runs heard (.fire t) rfl fun _ => rfl
  | wait ms => exact follow_runs heard (.wait ms) rfl fun _ => rfl
  | interrupt => exact interrupt_runs heard
  | configureService setting => exact (withService_unmoved c _).runs heard
  | releaseHeld =>
    have served := (withService_unmoved c c.service.releaseHeld.2).runs heard
    exact served.trans (foldl_deliver_runs (served.heard heard) _)
  | deliverDelayed limitMs =>
    simp only [perform, deliverDelayed?]
    cases c.service.deliverDelayed? limitMs with
    | none => exact .refl c
    | some delivered =>
      have served := (withService_unmoved c delivered.2).runs heard
      exact served.trans (deliver_runs (served.heard heard) delivered.1)
  | emitNotify message | emitAuth message | customToClient data =>
    exact (withExchange_unmoved c _).runs heard
  | expireCall call | resolveKept resolution =>
    exact Unmoved.runs ⟨rfl, rfl, rfl, rfl, rfl⟩ heard

theorem performAll_runs {c : Client η} (heard : c.Heard) (operations : List (Operation η)) :
    Runs c (c.performAll operations) := by
  induction operations generalizing c with
  | nil => exact .refl c
  | cons operation operations ih =>
    have first := perform_runs heard operation
    exact first.trans (ih (first.heard heard))

end Client

end EndpointMonitor
