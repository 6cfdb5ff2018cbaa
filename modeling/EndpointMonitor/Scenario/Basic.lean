import EndpointMonitor.Scenario.Action
import EndpointMonitor.Service.Turns

/-!
Scenarios: a client and its service, and all that happens to them. Each action runs to its end, and
then what it has set off: state handlers and completions, and timers that are due. Calls on threads
of their own begin one after another; what they have set off by then is done before they end.
-/

namespace EndpointMonitor

structure Scenario where
  client : Client (List Action)
  /-- The number of the next thread. -/
  threads : Nat
  /-- What the actions of state handlers have answered. -/
  replayed : List Answer
  /-- The results of blocking calls and activations, by their numbers. -/
  calls : List (Nat × Except ClientError ServiceReply)
  activations : List (Nat × Outcome)
  /-- What the service sends on threads of their own, by their numbers. -/
  emissions : List Emission

namespace Scenario

/-- The thread of the state queue; the first thread is zero, and others follow. -/
def stateThread : Nat := 1

def new (config : ClientConfig) (serviceCodec : Codec) : Scenario :=
  ⟨.new config (.ofService (.new serviceCodec)), stateThread + 1, [], [], [], []⟩

/-- A blocking call, activation or emission on its way, or what is known to come of it. -/
inductive Task where
  | returned (answer : Answer)
  | control (call : Nat) (operation : Control)
  | activation (call : Nat)
  | emission (number : Nat)

/-- How long a call waits at most. -/
def limitOf {α : Type} (b : Bridge α) (call : Nat) : Nat :=
  ((b.calls[call]?).map fun c => c.timeoutMs.toNat).getD 0

/-- Waits for a control call. -/
def joinCall (s : Scenario) (call : Nat) : Except ClientError ServiceReply × Scenario :=
  match s.calls.lookup call with
  | some result => (result, s)
  | none =>
    let client := s.client.awaitReplies (fun c => !c.bridge.armed call)
      (limitOf s.client.bridge call) s.client.service.delayed.length
    match (client.expireCall call).finishCall call with
    | some (result, client) => (result, { s with client, calls := (call, result) :: s.calls })
    | none => (.error .notConnected, s)

/-- Waits for an activation. -/
def joinActivation (s : Scenario) (call : Nat) : Outcome × Scenario :=
  match s.activations.lookup call with
  | some outcome => (outcome, s)
  | none =>
    let client := s.client.awaitReplies (fun c => !c.connection.bridge.armed call)
      (limitOf s.client.connection.bridge call) s.client.service.delayed.length
    match (client.expireActivate call).finishActivate call with
    | some (outcome, client) =>
      (outcome, { s with client, activations := (call, outcome) :: s.activations })
    | none => (.error .notConnected, s)

/-- Begins a control operation. It waits for the call that holds the bridge. -/
def beginControl (s : Scenario) (thread : Nat) (operation : Control) : Task × Scenario :=
  match operation.request s.client.codec with
  | .error error => (.returned (.control (.error error)), s)
  | .ok request =>
    let enter (s : Scenario) : Client.Start (List Action) := s.client.beginCall thread request
    let rejected : Task := .returned (.control (.error Bridge.reentrant))
    match enter s with
    | .rejected => (rejected, s)
    | .started call client => (.control call operation, { s with client })
    | .waiting holder =>
      let (_, s) := s.joinCall holder
      match enter s with
      | .started call client => (.control call operation, { s with client })
      | .rejected | .waiting _ => (rejected, s)

/-- Begins an activation. It waits for the one that holds the bridge. -/
def beginActivation (s : Scenario) (thread : Nat) : Task × Scenario :=
  let enter (s : Scenario) : Client.Start (List Action) := s.client.beginActivate thread
  let rejected : Task := .returned (.outcome (.error Bridge.reentrant))
  match enter s with
  | .rejected => (rejected, s)
  | .started call client => (.activation call, { s with client })
  | .waiting holder =>
    let (_, s) := s.joinActivation holder
    match enter s with
    | .started call client => (.activation call, { s with client })
    | .rejected | .waiting _ => (rejected, s)

/-- An emission takes a turn. -/
def turn (s : Scenario) (e : Emission) : Scenario × Emission :=
  let (x, e) := s.client.exchange.stride e
  ({ s with client := s.client.withExchange x }, e)

/-- An emission takes its turns as long as it does not pause. -/
def follow (s : Scenario) (isPaused : Emission → Bool) (e : Emission) : Scenario × Emission :=
  Nat.repeat (fun r => if isPaused r.2 then r else r.1.turn r.2) Emission.maxTurns (s, e)

/-- Begins an emission. Its thread gets as far as to hear what the client has to say. -/
def beginEmission (s : Scenario) (kind : EmissionKind) (message : EventMessage) :
    Task × Scenario :=
  let (s, e) := s.follow (·.isPaused) (.new kind message)
  (.emission s.emissions.length, { s with emissions := s.emissions ++ [e] })

/-- All emissions go on until only an answer can help them. -/
def goOn (s : Scenario) : Scenario :=
  let (s, emissions) := s.emissions.foldl (fun (r : Scenario × List Emission) e =>
    let (s, e) := r.1.follow (fun _ => false) e
    (s, r.2 ++ [e])) (s, [])
  { s with emissions }

/-- Waits for an emission, but not for an answer that nobody gives. -/
def joinEmission (s : Scenario) (number : Nat) : Answer × Scenario :=
  match s.emissions[number]? with
  | none => (.nothing, s)
  | some e =>
    let e := s.client.exchange.expire e
    let answer := match e.phase with
      | .ended (.notified reached) => Answer.flag reached
      | .ended (.authorized outcome) => .auth outcome
      | _ => .nothing
    (answer, { s with emissions := s.emissions.set number e })

def join (s : Scenario) : Task → Answer × Scenario
  | .returned answer => (answer, s)
  | .control call operation =>
    let (result, s) := s.joinCall call
    (.control (result.bind operation.interpret), s)
  | .activation call =>
    let (outcome, s) := s.joinActivation call
    (.outcome outcome, s)
  | .emission number => s.joinEmission number

def updateService (s : Scenario) (f : Service → Service) : Answer × Scenario :=
  (.nothing, { s with client := s.client.withService (f s.client.service) })

def updateClient (s : Scenario) (f : Client (List Action) → Client (List Action)) :
    Answer × Scenario :=
  (.nothing, { s with client := f s.client })

def updateTransport (s : Scenario) (f : Loopback → Loopback) : Answer × Scenario :=
  s.updateClient fun c => c.withTransport (f c.connection.transport)

/-- The answer to something that did not come from the client: at once, after the reply delay, or
not before held replies are released. -/
def foreignAnswer (s : Scenario) (now : Option Delivery) (service : Service) : Answer × Scenario :=
  let delivery := now <|> (service.delayed.getLast?.map (·.delivery)).filter fun _ =>
    !service.unresponsive
  let answer := match delivery with
    | some (.foreign result) => Answer.reply result
    | some (.foreignMessage result) => .custom result
    | _ => .noReply
  (answer, { s with client := s.client.withService service })

/-- Does a thing that sets nothing else in motion than the client does. -/
def act (s : Scenario) (thread : Nat) : Action → Answer × Scenario
  | .control operation =>
    let (task, s) := s.beginControl thread operation
    s.join task
  | .activate =>
    let (task, s) := s.beginActivation thread
    s.join task
  | .activateAsync => s.updateClient (·.activateWith)
  | .invalidate => s.updateClient (·.invalidate)
  | .sendCustom data => s.updateClient (·.sendCustom data)
  | .setTimeout ms => s.updateClient (·.setTimeout ms)
  | .setReconnectDelay ms => s.updateClient (·.setReconnectDelay ms)
  | .setConverter converter => s.updateClient (·.setConverter converter)
  | .setExecutor executor => s.updateClient (·.setExecutor executor)
  | .setHandlers update => s.updateClient fun c => c.setHandlers (update c.dispatcher.handlers)
  | .setStateHandler replay => s.updateClient ({ · with stateHandler := some replay })
  | .readSettings =>
    (.settings ⟨s.client.timeoutMs, s.client.connection.reconnectDelayMs,
      s.client.connection.converter⟩, s)
  | .readText => (.text s.client.text, s)
  | .readState => (.nothing, s)
  | .emitNotify message =>
    let (reached, client) := s.client.emitNotify message
    (.flag reached, { s with client })
  | .emitAuth message =>
    let (outcome, client) := s.client.emitAuth message
    (.auth outcome, { s with client })
  | .customToClient data =>
    let (result, client) := s.client.customToClient data
    (.custom result, { s with client })
  | .resolveKept resolution =>
    let (kept, dispatcher) := s.client.dispatcher.resolveKept resolution
    (.count kept.length, { s with client := { s.client with dispatcher } })
  | .interrupt =>
    let (was, client) := s.client.interrupt
    (.flag was, { s with client })
  | .setAvailable available => s.updateService ({ · with available })
  | .setUnresponsive unresponsive => s.updateService ({ · with unresponsive })
  | .setReplyDelay replyDelayMs => s.updateService ({ · with replyDelayMs })
  | .setResponder responder => s.updateService ({ · with responder })
  | .releaseHeld =>
    let (count, client) := s.client.releaseHeld
    (.count count, { s with client })
  | .inspect =>
    let service := s.client.service
    (.inspection ⟨service.isConnected, service.sessions, service.converter,
      service.tables.subscriptions, service.requests, service.maxInFlight⟩, s)
  | .readProcessMutes rule => (.events (s.client.service.tables.mutes.processes.muted rule), s)
  | .readPathMutes selector => (.events (s.client.service.tables.mutes.paths.muted selector), s)
  | .readInversion muteType => (.flag (s.client.service.tables.mutes.inversions.get muteType), s)
  | .readServiceText => (.text s.client.service.text, s)
  | .rawRequest index request =>
    match s.client.service.channelAt? index with
    | none => (.noChannel, s)
    | some channel =>
      let (now, service) := s.client.service.request channel request .foreign
      s.foreignAnswer now service
  | .rawCustom index data =>
    match s.client.service.channelAt? index with
    | none => (.noChannel, s)
    | some channel =>
      let (now, service) := s.client.service.customMessage channel data .foreignMessage
      s.foreignAnswer now service
  | .intercept interception => s.updateTransport ({ · with interception := some interception })
  | .setCreationError creationError => s.updateTransport ({ · with creationError })
  | .inFlight _ _ | .parallel _ | .advance _ => (.nothing, s)

/-- Begins an action on a thread of its own. -/
def begin (s : Scenario) (thread : Nat) : Action → Task × Scenario
  | .control operation => s.beginControl thread operation
  | .activate => s.beginActivation thread
  | .emitNotify message => s.beginEmission .notify message
  | .emitAuth message => s.beginEmission .auth message
  | action =>
    let (answer, s) := s.act thread action
    (.returned answer, s)

/-- Time passes, timers ring as they fall due, and each time all that they set off is done. -/
def elapse (settle : Scenario → Scenario) (s : Scenario) (ms : Nat) : Scenario :=
  match s.client.connection.nextTimer? with
  | some t =>
    let d := s.client.connection.delayOf t
    if d ≤ ms then
      let client := s.client.onConnection fun c => (c.wait d).fireDue
      (settle { s with client }).elapse settle (ms - d)
    else { s with client := s.client.onConnection (·.wait ms) }
  | none => { s with client := s.client.onConnection (·.wait ms) }
termination_by ms
decreasing_by
  simp only [d, Connection.delayOf] at *
  omega

/-- Timers that are due ring, and delayed replies arrive. -/
def fireDue (s : Scenario) : Scenario :=
  { s with client := (s.client.onConnection (·.fireDue)).deliverAll }

mutual

/-- Does a thing, at a depth of handlers within handlers that is bounded. -/
def perform (s : Scenario) (thread : Nat) (action : Action) (depth : Nat) : Answer × Scenario :=
  match depth with
  | 0 => (.nothing, s)
  | depth + 1 =>
    match action with
    | .inFlight call meanwhile =>
      let (task, s) := { s with threads := s.threads + 1 }.begin s.threads call
      let (answers, s) := meanwhile.foldl (fun (r : List Answer × Scenario) action =>
        let (answer, s) := r.2.perform thread action depth
        (r.1 ++ [answer], s)) ([], s.goOn)
      let (answer, s) := (s.settle depth).join task
      (.inFlight answer answers, s)
    | .parallel calls =>
      let (tasks, s) := calls.foldl (fun (r : List Task × Scenario) call =>
        let next : Scenario := { r.2 with threads := r.2.threads + 1 }
        match call with
        | .inFlight _ _ | .parallel _ | .advance _ =>
          let (answer, s) := next.perform r.2.threads call depth
          (r.1 ++ [.returned answer], s)
        | call =>
          let (task, s) := next.begin r.2.threads call
          (r.1 ++ [task], s)) ([], s)
      let (answers, s) := tasks.foldl (fun (r : List Answer × Scenario) task =>
        let (answer, s) := r.2.join task
        (r.1 ++ [answer], s)) ([], s.goOn.settle depth)
      (.list answers, s)
    | .advance ms =>
      let settled := (s.settle depth).fireDue.settle depth
      (.nothing, settled.elapse (fun s => s.settle depth) ms)
    | action =>
      let (answer, s) := s.act thread action
      (answer, s.goOn)

/-- Runs all that waits in the state queue. -/
def settle (s : Scenario) (depth : Nat) : Scenario :=
  match depth with
  | 0 => s
  | depth + 1 =>
    match s.client.startJob? with
    | none => s
    | some (job, client) =>
      let s := { s with client }
      let s := match job with
        | .handle replay (.ok ()) =>
          replay.foldl (fun (s : Scenario) action =>
            let (answer, s) := s.perform stateThread action depth
            { s with replayed := s.replayed ++ [answer] }) s
        | .handle _ (.error _) | .complete _ _ => s
      { s with client := s.client.finishJob }.settle depth

end

/-- State handlers that set themselves off without end are cut off here. -/
def maxDepth : Nat := 10000

/-- Runs what the last action has set off. -/
def quiesce (s : Scenario) : Scenario := (s.settle maxDepth).fireDue.settle maxDepth

/-- Does a thing, and all that it sets off. -/
def step (s : Scenario) (action : Action) : Answer × Scenario :=
  let (answer, s) := s.perform 0 action maxDepth
  (answer, s.quiesce)

/-- Time passes; what falls due happens with the next action. -/
def wait (s : Scenario) (ms : Nat) : Scenario :=
  { s with client := s.client.onConnection (·.wait ms) }

end Scenario

end EndpointMonitor
