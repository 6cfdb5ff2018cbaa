import EndpointMonitor.Proofs.Scenario.Calm
import EndpointMonitor.Proofs.Scenario.Emission

/-!
The demonstration, action by action: what each of them prints, and that it leaves everything ready
for the next one.
-/

namespace EndpointMonitor.Demo

open Client (Attached Joined)
open Scenario (Alters)

variable {codec : Codec} {muted : Mutes} {s : Scenario} {r : Run} {lines : List String}

/-- What the state handler does when the connection is up. -/
def replay : List Action := [.control (.subscribe watched)]

/-- A scenario in which the client is connected, and nothing is left to be done. -/
structure Ready (codec : Codec) (muted : Mutes) (s : Scenario) : Prop where
  calm : s.Calm
  installed : s.client.stateHandler = some replay
  queue : s.client.stateQueue = .empty
  unawaited : s.client.connection.waiters = []
  watches : Watches codec muted s.client.exchange
  responder : s.client.service.responder = .ok

/-- The demonstration has got as far as this: it is ready for what comes next, and these lines have
been printed. -/
structure Stands (codec : Codec) (muted : Mutes) (r : Run) (lines : List String) : Prop where
  ready : Ready codec muted r.scenario
  quiet : r.scenario.client.trace = []
  heard : r.scenario.client.dispatcher.trace = []
  fine : r.failure = none
  lines : r.lines.toList = lines

/-- The lines for what has happened to a scenario. -/
def told (s : Scenario) : List String :=
  s.client.trace.filterMap clientLine? ++ printed s.client.dispatcher

theorem Ready.idle (ready : Ready codec muted s) : s.Idle := by
  refine ready.calm.idle ?_
  rw [Client.startJob?, ready.queue]
  rfl

theorem Ready.codec_eq (ready : Ready codec muted s) : s.client.codec = codec :=
  (ready.calm.joined.connection.codec.trans ready.calm.joined.codec).symm.trans
    ready.watches.shares.service

/-- The handlers do not see that someone takes what they have printed. -/
theorem Watches.drain {x : Exchange} (h : Watches codec muted x) :
    Watches codec muted { x with dispatcher := x.dispatcher.drain.2 } where
  shares := ⟨h.shares.service, h.shares.dispatcher⟩
  handlers := h.handlers
  idle := h.idle
  connected := h.connected
  subscriptions := h.subscriptions
  mutes := h.mutes
  heeded := h.heeded

theorem Stands.print (ready : Ready codec muted s) (before : r.lines.toList = lines) :
    Stands codec muted (Run.print { r with scenario := s, failure := none }) (lines ++ told s) where
  ready :=
    { calm := ready.calm.of_same rfl rfl rfl rfl rfl rfl
      installed := ready.installed
      queue := ready.queue
      unawaited := ready.unawaited
      watches := ready.watches.drain
      responder := ready.responder }
  quiet := rfl
  heard := rfl
  fine := rfl
  lines := Array.toList_appendList.trans (congrArg (· ++ told s) before)

/-- A step without an error prints what it has made happen. -/
theorem act_of_step (fine : r.failure = none) {action : Action} {answer : Answer}
    (steps : r.scenario.step action = (answer, s)) (good : Run.failure? answer = none) :
    r.act action = Run.print { r with scenario := s, failure := none } := by
  simp only [Run.act, fine, steps, good]

/-- An action that sets nothing off, and after which everything is ready again. -/
theorem Stands.act (h : Stands codec muted r lines) {action : Action} {answer : Answer}
    (plain : Scenario.isPlain action = true) (acts : r.scenario.act 0 action = (answer, s))
    (good : Run.failure? answer = none) {muted' : Mutes} (ready : Ready codec muted' s) :
    Stands codec muted' (r.act action) (lines ++ told s) ∧
      (r.act action).scenario.client.service = s.client.service := by
  rw [act_of_step h.fine (Scenario.step_of_idle plain acts ready.idle) good]
  exact ⟨.print ready h.lines, rfl⟩

/-! ### Events -/

/-- The service has sent something, and that is all that has happened. -/
structure Sends (s : Scenario) (action : Action) (x' : Exchange) : Prop where
  acts : ∃ answer, s.act 0 action = (answer, { s with client := s.client.withExchange x' }) ∧
    Run.failure? answer = none
  attached : Attached (s.client.withExchange x')
  joined : Joined (s.client.withExchange x')
  service : s.client.service.Remembers x'.service

theorem Stands.sends (h : Stands codec muted r lines) {action : Action}
    (plain : Scenario.isPlain action = true) {x' : Exchange} (sends : Sends r.scenario action x')
    {more : List String} (prints : Prints codec muted r.scenario.client.exchange x' more) :
    Stands codec muted (r.act action) (lines ++ more) ∧
      (r.act action).scenario.client.service = x'.service := by
  obtain ⟨answer, acts, good⟩ := sends.acts
  obtain ⟨interest, resolutions, service⟩ := sends.service
  obtain ⟨calm, installed, queue, unawaited, -, responder⟩ := h.ready
  let s' : Scenario := { r.scenario with client := r.scenario.client.withExchange x' }
  have same : s'.client.service = r.scenario.client.service.remember interest resolutions := service
  have ready : Ready codec muted s' := by
    refine ⟨⟨calm.alone, sends.attached, sends.joined, calm.up, calm.free, ?_, calm.timers, ?_,
      calm.begun⟩, installed, queue, unawaited, prints.watches, ?_⟩
    · rw [same]
      exact calm.prompt
    · rw [same]
      exact calm.replies
    · rw [same]
      exact responder
  have lines : told s' = more := by
    have quiet : s'.client.trace = [] := h.quiet
    have before : printed r.scenario.client.exchange.dispatcher = [] :=
      congrArg (List.filterMap handlerLine?) h.heard
    rw [told, quiet]
    exact prints.lines.trans (congrArg (· ++ more) before)
  rw [← lines]
  exact h.act plain acts good ready

variable {m : EventMessage}

/-- A notification prints its line, and nothing is cached for it. -/
theorem Stands.emitNotify (h : Stands codec muted r lines) (ordinary : m.process.name ≠ "mdworker")
    (arrives : ∀ payload, codec.encode m = .ok payload → codec.decode payload = .ok m) :
    Stands codec muted (r.act (.emitNotify m)) (lines ++ linesFor codec muted m (.notify m)) ∧
      (r.act (.emitNotify m)).scenario.client.service.tables.resolutions =
        r.scenario.client.service.tables.resolutions := by
  have sends : Sends r.scenario (.emitNotify m) (r.scenario.client.exchange.emitNotify m).2 :=
    { acts := ⟨.flag (r.scenario.client.emitNotify m).1, rfl, rfl⟩
      attached := h.ready.calm.attached.perform (.emitNotify m)
      joined := Client.perform_joined h.ready.calm.joined (.emitNotify m)
      service := Exchange.emitNotify_remembers r.scenario.client.exchange m }
  obtain ⟨stands, service⟩ := h.sends rfl sends (h.ready.watches.emitNotify ordinary arrives)
  obtain ⟨interest, made⟩ := Exchange.emitNotify_service r.scenario.client.exchange m
  refine ⟨stands, ?_⟩
  rw [service, made]
  rfl

/-- A request about which nothing is cached prints its line, and nothing is cached for others. -/
theorem Stands.emitAuth (h : Stands codec muted r lines) (ordinary : m.process.name ≠ "mdworker")
    (arrives : ∀ payload, codec.encode m = .ok payload → codec.decode payload = .ok m)
    (fresh : r.scenario.client.service.tables.resolutions.find? (Exchange.resolutionKey m) = none) :
    Stands codec muted (r.act (.emitAuth m)) (lines ++ linesFor codec muted m (.auth m)) ∧
      ∀ key ≠ Exchange.resolutionKey m,
        r.scenario.client.service.tables.resolutions.find? key = none →
          (r.act (.emitAuth m)).scenario.client.service.tables.resolutions.find? key = none := by
  have sends : Sends r.scenario (.emitAuth m) (r.scenario.client.exchange.emitAuth m).2 :=
    { acts := ⟨.auth (r.scenario.client.emitAuth m).1, rfl, rfl⟩
      attached := h.ready.calm.attached.perform (.emitAuth m)
      joined := Client.perform_joined h.ready.calm.joined (.emitAuth m)
      service := Exchange.emitAuth_remembers r.scenario.client.exchange m }
  obtain ⟨stands, service⟩ := h.sends rfl sends (h.ready.watches.emitAuth ordinary arrives fresh)
  obtain ⟨⟨interest, made⟩, absent⟩ := Exchange.emitAuth_service r.scenario.client.exchange m
  refine ⟨stands, fun key other unknown => ?_⟩
  rw [service, made]
  refine Option.eq_none_iff_forall_ne_some.2 fun resolution found => ?_
  rcases (AuthOutcome.find_cachedIn absent key resolution).1 found with ⟨same, -⟩ | cached
  · exact other same.symm
  · rw [Client.exchange, unknown] at cached
    cases cached

/-- Notifications print their lines one after the other. -/
theorem Stands.emitAll (h : Stands codec muted r lines) {messages : List EventMessage}
    (ordinary : ∀ m ∈ messages, m.process.name ≠ "mdworker")
    (arrives : ∀ m ∈ messages, ∀ payload,
      codec.encode m = .ok payload → codec.decode payload = .ok m) :
    Stands codec muted ((messages.map .emitNotify).foldl Run.act r)
        (lines ++ messages.flatMap fun m => linesFor codec muted m (.notify m)) ∧
      ((messages.map .emitNotify).foldl Run.act r).scenario.client.service.tables.resolutions =
        r.scenario.client.service.tables.resolutions := by
  induction messages generalizing r lines with
  | nil => exact ⟨(List.append_nil lines).symm ▸ h, rfl⟩
  | cons m messages ih =>
    rw [List.forall_mem_cons] at ordinary arrives
    obtain ⟨first, kept⟩ := h.emitNotify ordinary.1 arrives.1
    obtain ⟨rest, still⟩ := ih first ordinary.2 arrives.2
    rw [List.append_assoc] at rest
    exact ⟨rest, still.trans kept⟩

/-! ### Control calls and messages of the client -/

/-- The client is heard of what it has not muted, as long as it is subscribed. -/
theorem Watches.altered {x : Exchange} (h : Watches codec muted x) {service : Service}
    {after : ServiceTables} (alters : Alters x.service service after)
    (subscriptions : after.subscriptions = watched)
    (interest : after.interest = x.service.tables.interest) :
    Watches codec after.mutes ⟨service, x.dispatcher⟩ where
  shares := ⟨alters.codec.trans h.shares.service, h.shares.dispatcher⟩
  handlers := h.handlers
  idle := h.idle
  connected := (congrArg Option.isSome alters.binding).trans h.connected
  subscriptions := (congrArg _ alters.tables).trans subscriptions
  mutes := congrArg _ alters.tables
  heeded path verdict found := by
    have same : service.tables.interest = x.service.tables.interest :=
      (congrArg _ alters.tables).trans interest
    exact h.heeded path verdict (same ▸ found)

/-- A control call prints nothing. The client is still heard, whatever it has muted. -/
theorem Stands.control (h : Stands codec muted r lines) {control : Control}
    {request : ServiceRequest} (made : control.request codec = .ok request) {after : ServiceTables}
    (applied : r.scenario.client.service.tables.apply codec request =
      .ok (control.reply r.scenario.client.service.tables, after))
    (subscriptions : after.subscriptions = watched)
    (interest : after.interest = r.scenario.client.service.tables.interest) :
    Stands codec after.mutes (r.act (.control control)) lines ∧
      (r.act (.control control)).scenario.client.service.tables = after := by
  obtain ⟨calm, installed, queue, unawaited, watches, responder⟩ := h.ready
  rw [← h.ready.codec_eq] at made applied
  obtain ⟨service, bridge, calls, acts, calm', alters⟩ := calm.control made applied 0
  have ready : Ready codec after.mutes (r.scenario.called service bridge calls) :=
    { calm := calm'
      installed
      queue
      unawaited
      watches := watches.altered alters subscriptions interest
      responder := alters.responder.trans responder }
  obtain ⟨stands, same⟩ := h.act rfl acts rfl ready
  have nothing : told (r.scenario.called service bridge calls) = [] := by
    have quiet : (r.scenario.called service bridge calls).client.trace = [] := h.quiet
    have heard : (r.scenario.called service bridge calls).client.dispatcher.trace = [] := h.heard
    rw [told, quiet, printed, heard]
    rfl
  rw [nothing, List.append_nil] at stands
  exact ⟨stands, (congrArg _ same).trans alters.tables⟩

/-- A custom message prints what the service sends back: the message. -/
theorem Stands.sendCustom (h : Stands codec muted r lines) (data : Bytes) :
    Stands codec muted (r.act (.sendCustom data))
      (lines ++ ["custom " ++ (Bytes.text? data).getD ""]) := by
  obtain ⟨calm, installed, queue, unawaited, watches, responder⟩ := h.ready
  let c := r.scenario.client
  obtain ⟨channel, usable⟩ := calm.joined.usable calm.up
  have current : c.service.isCurrent channel = true := calm.joined.isCurrent usable
  obtain ⟨service, answered, alters⟩ : ∃ service,
      c.service.customMessage channel data (.message c.messages) =
        (some (.message c.messages (.ok data)), service) ∧
      Alters c.service service c.service.tables := by
    have back := Service.respond_reply c.service (.message c.messages (.ok data))
    rw [if_pos calm.prompt] at back
    refine ⟨(c.service.respond (.message c.messages (.ok data))).2, ?_,
      Scenario.respond_alters calm.prompt _⟩
    rw [Service.customMessage, if_pos current, responder]
    exact Prod.ext back rfl
  let sent : Client (List Action) := { c with messages := c.messages + 1 }
  let c' := (sent.withService service).note (.messageAnswered c.messages (.ok data))
  have sends : c.sendCustom data = c' := by
    have proxy : c.connection.proxy? = some channel := usable
    have asked : sent.service.customMessage channel data (.message c.messages) =
      (some (.message c.messages (.ok data)), service) := answered
    simp only [Client.sendCustom, proxy]
    rw [asked]
    rfl
  have ready : Ready codec muted { r.scenario with client := c' } := by
    have attached := calm.attached.perform (.sendCustom data)
    have joined := Client.perform_joined calm.joined (.sendCustom data)
    rw [Client.perform, sends] at attached joined
    have same := watches.altered alters watches.subscriptions rfl
    have mutes : c.service.tables.mutes = muted := watches.mutes
    rw [mutes] at same
    exact ⟨⟨calm.alone, attached, joined, calm.up, calm.free,
      alters.isPrompt.trans calm.prompt, calm.timers, alters.delayed.trans calm.replies,
      calm.begun⟩, installed, queue, unawaited, same, alters.responder.trans responder⟩
  have acts : r.scenario.act 0 (.sendCustom data) =
      (.nothing, { r.scenario with client := c' }) := by
    rw [← sends]
    rfl
  have lines : told { r.scenario with client := c' } =
      ["custom " ++ (Bytes.text? data).getD ""] := by
    have trace : c'.trace = [.messageAnswered c.messages (.ok data)] :=
      congrArg (· ++ _) h.quiet
    have heard : c'.dispatcher.trace = [] := h.heard
    rw [told, printed, trace, heard]
    rfl
  rw [← lines]
  exact (h.act rfl acts rfl ready).1

/-! ### The end -/

/-- A connection in use is invalidated while nobody waits for it. -/
theorem invalidate_unawaited {c : Connection Loopback} {generation channel : Nat}
    {subscriber : String} (uses : c.Uses generation channel) (heard : c.trace = [])
    (unawaited : c.waiters = []) (watched : c.subscriber = some subscriber) :
    c.invalidate.trace = [.closed channel, .published subscriber (.error .channelInvalidated)] ∧
      c.invalidate.timers = [] ∧
      c.invalidate.transport.service.delayed = c.transport.service.delayed := by
  have alive : c.state ≠ .invalidated := by
    rw [uses.state]
    decide
  have kept : (c.transport.service.unbind channel).delayed = c.transport.service.delayed := by
    unfold Service.unbind
    split <;> rfl
  rw [Connection.invalidate_eq alive, uses.channel, heard, unawaited, watched]
  exact ⟨rfl, rfl, kept⟩

/-- A client is down for good, and its state handler has yet to hear of it. -/
structure Down (c c' : Client (List Action)) : Prop where
  queue : c'.stateQueue = c.stateQueue.submit (.handle replay (.error .channelInvalidated))
  heard : c'.Heard
  timers : c'.connection.timers = []
  replies : c'.service.delayed = c.service.delayed
  dispatcher : c'.dispatcher = c.dispatcher
  untold : c'.trace.filterMap clientLine? = c.trace.filterMap clientLine?

theorem Ready.down (ready : Ready codec muted s) : Down s.client s.client.invalidate := by
  obtain ⟨calm, installed, -, unawaited, -, -⟩ := ready
  obtain ⟨channel, usable⟩ := calm.joined.usable calm.up
  obtain ⟨trace, timers, replies⟩ := invalidate_unawaited (Connection.uses_of_proxy usable)
    calm.joined.heard unawaited calm.attached.subscriber
  have relayed : s.client.invalidate = { s.client with
      connection := { s.client.connection.invalidate with trace := [] }
      bridge := ((s.client.bridge.failPending .notConnected).2.failPending .notConnected).2
      stateQueue := s.client.stateQueue.submit (.handle replay (.error .channelInvalidated))
      trace := s.client.trace ++ [.connection (.closed channel)] ++
        [.connection (.published Client.subscriber (.error .channelInvalidated))] } := by
    simp only [Client.invalidate, Client.onConnection, Client.relay, Connection.drain, trace,
      List.foldl_cons, List.foldl_nil, Client.relayEvent, Client.relayOutcome, Client.isLoss,
      Client.note, Client.failPending, Client.submit, installed, if_true]
  rw [relayed]
  refine ⟨rfl, rfl, timers, replies, rfl, ?_⟩
  rw [List.append_assoc, List.filterMap_append]
  exact List.append_nil _

/-- The state handler hears of the invalidation last. -/
theorem Stands.invalidate (h : Stands codec muted r lines) :
    (r.act .invalidate).lines.toList = lines ++ ["state  Connection invalidated"] ∧
      (r.act .invalidate).failure = none := by
  let c := r.scenario.client.invalidate
  have down : Down r.scenario.client c := h.ready.down
  have queued : c.stateQueue = ⟨[.handle replay (.error .channelInvalidated)], none⟩ := by
    rw [down.queue, h.ready.queue]
    rfl
  have undue : ∀ t ∈ c.connection.timers, c.connection.now < t.due := by
    rw [down.timers]
    exact fun t set => nomatch set
  have silent : c.service.delayed = [] := down.replies.trans h.ready.calm.replies
  let s : Scenario := { r.scenario with client :=
    { c with stateQueue := .empty }.note (.handled (.error .channelInvalidated)) }
  let ended : Scenario := { r.scenario with client := c }
  have acts : r.scenario.act 0 .invalidate = (.nothing, ended) := rfl
  have quiet : ended.quiesce = s := Scenario.quiesce_lost h.ready.calm.alone queued down.heard undue silent
  have steps : r.scenario.step .invalidate = (.nothing, s) := by
    rw [Scenario.step_plain rfl acts h.ready.calm.alone, quiet]
  have lines : told s = ["state  Connection invalidated"] := by
    have trace : c.trace.filterMap clientLine? = [] := by
      rw [down.untold, h.quiet]
      rfl
    have heard : c.dispatcher.trace = [] := by rw [down.dispatcher, h.heard]
    show (c.trace ++ [_]).filterMap clientLine? ++ printed c.dispatcher = _
    rw [List.filterMap_append, trace, printed, heard]
    rfl
  rw [act_of_step h.fine steps rfl, ← lines, ← h.lines]
  exact ⟨Array.toList_appendList, rfl⟩

end EndpointMonitor.Demo
