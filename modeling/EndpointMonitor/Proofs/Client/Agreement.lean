import EndpointMonitor.Proofs.Client.Verdict
import EndpointMonitor.Proofs.Connection.Joined
import EndpointMonitor.Proofs.Service.ControlRequest

/-!
A client and its service agree on the channel between them, whatever callers, timers and the service
do: while the client is connecting or connected, the service has bound the channel that the client
has stored, and otherwise none.
-/

namespace EndpointMonitor

/-- The attempt whose session request goes out. -/
def ClientEvent.requested? : ClientEvent → Option Nat
  | .connection event => event.requested?
  | .handled _ | .completed _ _ | .messageAnswered _ _ => none

namespace Exchange

/-- Nothing is sent without a channel. -/
theorem delivers_disconnected {x : Exchange} (h : x.service.binding = none)
    (message : EventMessage) : x.delivers message = (false, x) := by
  simp [delivers, Service.isConnected, h]

/-- An event that is not delivered leaves the service as it is. -/
theorem emit_undelivered {x : Exchange} {message : EventMessage}
    (h : x.delivers message = (false, x)) :
    (x.emitNotify message).2.service = x.service ∧ (x.emitAuth message).2.service = x.service := by
  simp only [emitNotify, emitAuth, h, and_self]

end Exchange

namespace Client

variable {η : Type}

/-- The attempts whose session requests have gone out, in order. -/
def requested (c : Client η) : List Nat := c.trace.filterMap (·.requested?)

/-- The client has one codec with its service, has heard all that its connection had to tell, and
agrees with the service on the channel. -/
structure Joined (c : Client η) : Prop where
  connection : c.connection.Joined
  codec : c.connection.codec = c.codec
  heard : c.connection.trace = []

theorem Joined.of_same {c c' : Client η} (joined : Joined c)
    (connection : c'.connection = c.connection) (codec : c'.codec = c.codec) : Joined c' where
  connection := connection ▸ joined.connection
  codec := by rw [connection, codec, joined.codec]
  heard := by rw [connection, joined.heard]

/-- What happens in the service is no matter to the agreement, as long as its channel stays and its
tables are still empty when they have to be, their caches apart. -/
theorem Joined.withService {c : Client η} (joined : Joined c) {service : Service}
    (codec : service.codec = c.service.codec) (binding : service.binding = c.service.binding)
    (tables : c.state = .connecting → service.tables.forget = c.service.tables.forget) :
    Joined (c.withService service) where
  connection := by
    refine ⟨⟨codec.trans joined.connection.codec, joined.connection.interception,
      binding.trans joined.connection.binding⟩, joined.connection.channel, fun connecting => ?_⟩
    exact (tables connecting).trans (joined.connection.fresh connecting)
  codec := joined.codec
  heard := joined.heard

/-! ### Moves -/

/-- The attempt goes on or is successful, or nothing happens to the connection. -/
structure Waits (c c' : Client η) : Prop where
  state : c'.state = c.state ∨ c.state = .connecting ∧ c'.state = .connected
  generation : c'.connection.generation = c.connection.generation
  service : c.service.Steady c'.service
  requested : c'.requested = c.requested

/-- A new attempt opens a session with the converter that is set. -/
structure Opens (c c' : Client η) : Prop where
  generation : c'.connection.generation = c.connection.generation + 1
  tables : c'.service.tables = .empty
  session : c'.service.converter = some c.connection.converter
  sessions : c'.service.sessions = c.service.sessions + 1
  requested : c'.requested = c.requested ++ [c'.connection.generation]

/-- What an operation means for the connection between the client and the service. -/
inductive Moves (c c' : Client η) : Prop where
  | waits (h : Waits c c')
  | falls (down : ¬ c'.connection.Live)
  | opens (h : Opens c c')
  | works (before : c.state = .connected) (after : c'.state = .connected)

theorem Waits.refl (c : Client η) : Waits c c := ⟨.inl rfl, rfl, .refl _, rfl⟩

theorem Waits.trans {c d e : Client η} (h : Waits c d) (h' : Waits d e) : Waits c e where
  state := by
    rcases h'.state with same | ⟨connecting, up⟩
    · rw [same]
      exact h.state
    · rcases h.state with before | ⟨-, after⟩
      · exact .inr ⟨before ▸ connecting, up⟩
      · rw [after] at connecting
        cases connecting
  generation := h'.generation.trans h.generation
  service := h.service.trans h'.service
  requested := h'.requested.trans h.requested

theorem Waits.live {c d : Client η} (h : Waits c d) (live : d.connection.Live) :
    c.connection.Live := by
  rcases h.state with same | ⟨connecting, -⟩
  · rcases live with connecting | connected
    · exact .inl (same.symm.trans connecting)
    · exact .inr (same.symm.trans connected)
  · exact .inl connecting

theorem Waits.of_same {c c' : Client η} (connection : c'.connection = c.connection)
    (requested : c'.requested = c.requested) : Waits c c' where
  state := .inl (congrArg Connection.state connection)
  generation := congrArg Connection.generation connection
  service := by
    have same : c'.service = c.service := congrArg (·.transport.service) connection
    rw [same]
    exact .refl _
  requested := requested

/-- At most the attempt under way is decided, and then the two sides still agree. -/
structure Concludes (c c' : Client η) : Prop where
  joined : Joined c'
  converter : c'.connection.converter = c.connection.converter
  cases : Waits c c' ∨ ¬ c'.connection.Live

theorem Concludes.trans {c d e : Client η} (h : Concludes c d) (h' : Concludes d e) :
    Concludes c e where
  joined := h'.joined
  converter := h'.converter.trans h.converter
  cases := by
    rcases h'.cases with waits' | down
    · rcases h.cases with waits | down
      · exact .inl (waits.trans waits')
      · exact .inr fun live => down (waits'.live live)
    · exact .inr down

/-- The two sides agree after an operation, whatever it means for the connection. -/
structure Leads (c c' : Client η) : Prop where
  joined : Joined c'
  converter : c'.connection.converter = c.connection.converter
  moves : Moves c c'

theorem Concludes.leads {c c' : Client η} (h : Concludes c c') : Leads c c' :=
  ⟨h.joined, h.converter, h.cases.elim .waits .falls⟩

theorem Concludes.of_same {c c' : Client η} (joined : Joined c)
    (connection : c'.connection = c.connection) (codec : c'.codec = c.codec)
    (requested : c'.requested = c.requested) : Concludes c c' :=
  ⟨joined.of_same connection codec, congrArg Connection.converter connection,
    .inl (.of_same connection requested)⟩

theorem Leads.of_unmoved {c c' : Client η} (joined : Joined c)
    (connection : c'.connection = c.connection) (codec : c'.codec = c.codec)
    (requested : c'.requested = c.requested) : Leads c c' :=
  (Concludes.of_same joined connection codec requested).leads

theorem Concludes.refl {c : Client η} (joined : Joined c) : Concludes c c :=
  ⟨joined, rfl, .inl (.refl c)⟩

theorem Concludes.withService {c : Client η} (joined : Joined c) {service : Service}
    (steady : c.service.Steady service) : Concludes c (c.withService service) :=
  ⟨joined.withService steady.codec steady.binding
      fun _ => congrArg ServiceTables.forget steady.tables, rfl,
    .inl ⟨.inl rfl, rfl, steady, rfl⟩⟩

/-! ### What the connection does by itself -/

theorem relayEvent_codec (c : Client η) (event : ConnectionEvent) :
    (c.relayEvent event).codec = c.codec := by
  cases event with
  | published subscriber outcome =>
    simp only [relayEvent, relayOutcome, note, failPending, submit]
    split <;> split <;> rfl
  | answered waiter outcome => cases waiter <;> rfl
  | creating generation | requested generation channel converter | closed channel => rfl

theorem foldl_relayEvent_codec (c : Client η) (events : List ConnectionEvent) :
    (events.foldl relayEvent c).codec = c.codec := by
  induction events generalizing c with
  | nil => rfl
  | cons event events ih => exact (ih _).trans (relayEvent_codec c event)

theorem relay_codec (c : Client η) : c.relay.codec = c.codec := foldl_relayEvent_codec _ _

theorem relay_requested (c : Client η) :
    c.relay.requested = c.requested ++ c.connection.requested := by
  rw [requested, relay_trace, List.filterMap_append, List.filterMap_map]
  rfl

section
variable {c : Client η} {connection : Connection Loopback}

theorem relay_joined (joined : Joined c) (connected : connection.Joined)
    (codec : connection.codec = c.connection.codec) :
    Joined { c with connection }.relay where
  connection := by
    rw [relay_connection]
    exact ⟨⟨connected.codec, connected.interception, connected.binding⟩, connected.channel,
      connected.fresh⟩
  codec := by
    rw [relay_connection, relay_codec]
    exact codec.trans joined.codec
  heard := by rw [relay_connection]

theorem relay_waits (joined : Joined c) (h : c.connection.Waits connection) :
    Waits c { c with connection }.relay where
  state := by
    rw [state, relay_connection]
    exact h.state
  generation := by
    rw [relay_connection]
    exact h.generation
  service := by
    rw [service, service, relay_connection, ← h.transport]
    exact .refl _
  requested := by
    have silent : c.connection.requested = [] := by rw [Connection.requested, joined.heard]; rfl
    have none_ : connection.requested = [] := h.requested.trans silent
    rw [relay_requested, none_, List.append_nil]
    rfl

theorem relay_opens (joined : Joined c) (h : c.connection.Opens connection) :
    Opens c { c with connection }.relay where
  generation := by
    rw [relay_connection]
    exact h.generation
  tables := by
    rw [service, relay_connection]
    exact h.tables
  session := by
    rw [service, relay_connection]
    exact h.session
  sessions := by
    rw [service, relay_connection]
    exact h.sessions
  requested := by
    have silent : c.connection.requested = [] := by rw [Connection.requested, joined.heard]; rfl
    have one : connection.requested = [connection.generation] := by
      rw [h.requested, silent, List.nil_append]
    rw [relay_requested, relay_connection, one]
    rfl

theorem relay_down (down : ¬ connection.Live) :
    ¬ ({ c with connection }.relay).connection.Live := by
  rw [relay_connection]
  exact down

theorem relay_leads (joined : Joined c) (moves : c.connection.Moves connection) :
    Leads c { c with connection }.relay where
  joined := relay_joined joined (moves.joined joined.connection) moves.codec
  converter := by
    rw [relay_connection]
    exact moves.converter
  moves := by
    cases moves with
    | waits h => exact .waits (relay_waits joined h)
    | falls h => exact .falls (relay_down h.state)
    | opens h => exact .opens (relay_opens joined h)

end

theorem follow_leads {c : Client η} (joined : Joined c) (operation : Connection.Operation Loopback)
    (intact : operation.isIntact = true) : Leads c (c.follow operation) :=
  relay_leads joined (Connection.perform_moves joined.connection intact)

theorem note_requested (c : Client η) {event : ClientEvent} (h : event.requested? = none) :
    (c.note event).requested = c.requested := by
  rw [requested, note, List.filterMap_append, List.filterMap_cons_none h, List.filterMap_nil,
    List.append_nil]
  rfl

theorem deliver_concludes {c : Client η} (joined : Joined c) (delivery : Delivery) :
    Concludes c (c.deliver delivery) := by
  cases delivery with
  | session generation result =>
    have moves := Connection.sessionCreated_cases joined.connection.toBound generation result
    have leads := relay_leads joined (moves.elim .waits .falls)
    refine ⟨leads.joined, leads.converter, ?_⟩
    exact moves.imp (relay_waits joined) fun falls => relay_down falls.state
  | call id result => exact .of_same joined rfl rfl rfl
  | message id result => exact .of_same joined rfl rfl (note_requested c rfl)
  | foreign result | foreignMessage result => exact .refl joined

theorem foldl_deliver_concludes {c : Client η} (joined : Joined c) (deliveries : List Delivery) :
    Concludes c (deliveries.foldl deliver c) := by
  induction deliveries generalizing c with
  | nil => exact .refl joined
  | cons delivery deliveries ih =>
    have first := deliver_concludes joined delivery
    exact first.trans (ih first.joined)

/-! ### Operations -/

/-- An operation begins or ends with something that is no matter to the connection. -/
theorem Leads.of_same {c d e : Client η} (h : Leads d e) (connection : d.connection = c.connection)
    (requested : d.requested = c.requested) : Leads c e where
  joined := h.joined
  converter := by rw [h.converter, connection]
  moves := by
    have first : Waits c d := .of_same connection requested
    cases h.moves with
    | waits waits => exact .waits (first.trans waits)
    | falls down => exact .falls down
    | opens opens =>
      exact .opens ⟨by rw [opens.generation, connection], opens.tables,
        by rw [opens.session, connection], by rw [opens.sessions, first.service.sessions],
        by rw [opens.requested, requested]⟩
    | works before after => exact .works (by rw [← before, state, state, connection]) after

theorem Leads.then_same {c d e : Client η} (h : Leads c d) (connection : e.connection = d.connection)
    (codec : e.codec = d.codec) (requested : e.requested = d.requested) : Leads c e where
  joined := h.joined.of_same connection codec
  converter := by rw [connection, h.converter]
  moves := by
    have last : Waits d e := .of_same connection requested
    cases h.moves with
    | waits waits => exact .waits (waits.trans last)
    | falls down => exact .falls (by rwa [connection])
    | opens opens =>
      exact .opens ⟨by rw [connection, opens.generation], by rw [last.service.tables, opens.tables],
        by rw [last.service.converter, opens.session],
        by rw [last.service.sessions, opens.sessions],
        by rw [requested, connection, opens.requested]⟩
    | works before after => exact .works before (by rw [← after, state, state, connection])

/-- A connected client may have its requests carried out and its events cached. -/
theorem Leads.works {c : Client η} (joined : Joined c) (up : c.state = .connected) {service : Service}
    (codec : service.codec = c.service.codec) (binding : service.binding = c.service.binding) :
    Leads c (c.withService service) where
  joined := by
    refine joined.withService codec binding fun connecting => ?_
    rw [up] at connecting
    cases connecting
  converter := rfl
  moves := .works up up

theorem send_leads {c : Client η} (joined : Joined c) (call : Nat) (request : ServiceRequest) :
    Leads c (c.send call request) := by
  cases usable : c.connection.proxy? with
  | none =>
    simp only [send, usable]
    exact .of_unmoved joined rfl rfl rfl
  | some channel =>
    have up : c.state = .connected := (Connection.uses_of_proxy usable).state
    have steady := Service.respond_steady (c.service.served channel request)
      (.call call (c.service.answer channel request))
    have worked := Leads.works joined up (steady.codec.trans (Service.served_codec _ _ _))
      (steady.binding.trans (Service.served_binding _ _ _))
    have sent := Loopback.request_eq joined.connection.interception channel call request
    simp only [send, usable, sent]
    cases c.connection.transport.service.isPrompt <;> exact worked.then_same rfl rfl rfl

theorem beginCall_leads {c : Client η} (joined : Joined c) (thread : Nat)
    (request : ServiceRequest) : Leads c ((c.beginCall thread request).after c) := by
  unfold beginCall
  cases c.bridge.enter thread c.timeoutMs with
  | rejected | waiting holder => exact (Concludes.refl joined).leads
  | started call bridge =>
    have inside : Joined { c with bridge, sentOn := none } := joined.of_same rfl rfl
    exact (send_leads inside call request).of_same rfl rfl

theorem finishCall_leads {c : Client η} (joined : Joined c) (call : Nat) :
    Leads c (((c.finishCall call).map (·.2)).getD c) := by
  unfold finishCall
  cases c.bridge.leave call with
  | none => exact (Concludes.refl joined).leads
  | some left => exact .of_unmoved joined rfl rfl rfl

theorem sendCustom_concludes {c : Client η} (joined : Joined c) (data : Bytes) :
    Concludes c (c.sendCustom data) := by
  have numbered : Concludes c { c with messages := c.messages + 1 } := .of_same joined rfl rfl rfl
  simp only [sendCustom]
  split
  · exact numbered.trans (.of_same numbered.joined rfl rfl (note_requested _ rfl))
  · next channel usable =>
    have sent := Concludes.withService numbered.joined
      (Service.customMessage_steady c.service channel data (.message c.messages))
    exact numbered.trans (sent.trans (foldl_deliver_concludes sent.joined _))

theorem beginActivate_leads {c : Client η} (joined : Joined c) (thread : Nat) :
    Leads c ((c.beginActivate thread).after c) := by
  have follows := follow_leads joined (.beginConnect thread c.timeoutMs) rfl
  unfold beginActivate
  cases begins : c.connection.beginConnect thread c.timeoutMs with
  | rejected | waiting holder => exact (Concludes.refl joined).leads
  | started call connection => rwa [follow_beginConnect begins] at follows

theorem finishActivate_leads {c : Client η} (joined : Joined c) (call : Nat) :
    Leads c (((c.finishActivate call).map (·.2)).getD c) := by
  have follows := follow_leads joined (.finishConnect call) rfl
  unfold finishActivate
  cases finishes : c.connection.finishConnect call with
  | none => exact (Concludes.refl joined).leads
  | some finished => rwa [follow_finishConnect finishes] at follows

theorem activateWith_leads {c : Client η} (joined : Joined c) : Leads c c.activateWith := by
  have numbered : Joined { c with activations := c.activations + 1 } := joined.of_same rfl rfl
  exact (follow_leads numbered (.connectWith c.activations) rfl).of_same rfl rfl

theorem interrupt_leads {c : Client η} (joined : Joined c) : Leads c c.interrupt.2 := by
  unfold interrupt Service.interrupt
  cases bound : c.service.binding with
  | none => exact (Concludes.refl joined).leads
  | some binding =>
    exact relay_leads joined (.falls (Connection.channelLost_falls joined.connection bound))

theorem deliverDelayed_concludes {c : Client η} (joined : Joined c) (limitMs : Option Nat) :
    Concludes c ((c.deliverDelayed? limitMs).getD c) := by
  unfold deliverDelayed?
  cases due : c.service.deliverDelayed? limitMs with
  | none => exact .refl joined
  | some delivered =>
    have sent := Concludes.withService joined (Service.deliverDelayed_steady due)
    exact sent.trans (deliver_concludes sent.joined _)

/-- Until the client is connected nothing that the service sends gets as far as its caches. -/
theorem undelivered {c : Client η} (joined : Joined c) (idle : c.state ≠ .connected)
    (message : EventMessage) : c.exchange.delivers message = (false, c.exchange) := by
  by_cases connecting : c.state = .connecting
  · refine Exchange.delivers_unsubscribed ?_ message
    exact congrArg ServiceTables.subscriptions (joined.connection.fresh connecting)
  · refine Exchange.delivers_disconnected ?_ message
    have none_ : c.connection.channel = none := by
      rw [← Option.not_isSome_iff_eq_none, joined.connection.channel]
      exact fun live => live.elim connecting idle
    have binding := joined.connection.binding
    rw [none_] at binding
    exact binding

theorem withExchange_leads {c : Client η} (joined : Joined c) {x : Exchange}
    (remembers : c.service.Remembers x.service)
    (idle : c.state ≠ .connected → x.service = c.service) : Leads c (c.withExchange x) := by
  by_cases up : c.state = .connected
  · obtain ⟨interest, resolutions, made⟩ := remembers
    have codec : x.service.codec = c.service.codec := by rw [made]; rfl
    have binding : x.service.binding = c.service.binding := by rw [made]; rfl
    exact (Leads.works joined up codec binding).then_same rfl rfl rfl
  · have same : (c.withExchange x).connection = c.connection := by
      simp only [withExchange, withService, idle up]
      rfl
    exact .of_unmoved joined same rfl rfl

theorem emit_leads {c : Client η} (joined : Joined c) (message : EventMessage) :
    Leads c (c.emitNotify message).2 ∧ Leads c (c.emitAuth message).2 := by
  have still := fun idle => Exchange.emit_undelivered (undelivered joined idle message)
  exact ⟨withExchange_leads joined (Exchange.emitNotify_remembers c.exchange message)
      fun idle => (still idle).1,
    withExchange_leads joined (Exchange.emitAuth_remembers c.exchange message)
      fun idle => (still idle).2⟩

theorem startJob_concludes {c : Client η} (joined : Joined c) :
    Concludes c ((c.startJob?.map (·.2)).getD c) := by
  unfold startJob?
  cases c.stateQueue.start? with
  | none => exact .refl joined
  | some started =>
    obtain ⟨job, queue⟩ := started
    cases job <;> exact .of_same joined rfl rfl (note_requested { c with stateQueue := queue } rfl)

/-- The converter that an operation sets. -/
def Operation.converter? : Operation η → Option ConverterConfig
  | .configure (.converter converter) => some converter
  | _ => none

theorem setConverter_joined {c : Client η} (joined : Joined c) (converter : ConverterConfig) :
    Joined (c.setConverter converter) where
  connection := ⟨⟨joined.connection.codec, joined.connection.interception,
    joined.connection.binding⟩, joined.connection.channel, joined.connection.fresh⟩
  codec := joined.codec
  heard := joined.heard

theorem configure_concludes {c : Client η} (joined : Joined c) {setting : Setting η}
    (h : (Operation.configure setting).converter? = none) : Concludes c (c.configure setting) := by
  have connected := joined.connection
  cases setting with
  | converter converter => cases h
  | timeout ms | reconnectDelay ms =>
    exact ⟨⟨⟨⟨connected.codec, connected.interception, connected.binding⟩, connected.channel,
      connected.fresh⟩, joined.codec, joined.heard⟩, rfl, .inl ⟨.inl rfl, rfl, .refl _, rfl⟩⟩
  | executor executor | handlers handlers | stateHandler handler =>
    exact .of_same joined rfl rfl rfl

/-- Whatever is done to a client and its service, they agree on their channel. -/
theorem perform_leads {c : Client η} (joined : Joined c) {operation : Operation η}
    (h : operation.converter? = none) : Leads c (c.perform operation) := by
  cases operation with
  | beginCall thread control =>
    cases asked : control.request c.codec with
    | error error =>
      simp only [perform, asked]
      exact (Concludes.refl joined).leads
    | ok request =>
      simp only [perform, asked]
      exact beginCall_leads joined thread request
  | finishCall call => exact finishCall_leads joined call
  | sendCustom data => exact (sendCustom_concludes joined data).leads
  | beginActivate thread => exact beginActivate_leads joined thread
  | expireActivate call => exact follow_leads joined (.expireConnect call) rfl
  | finishActivate call => exact finishActivate_leads joined call
  | activateWith => exact activateWith_leads joined
  | invalidate =>
    exact (follow_leads joined .invalidate rfl).then_same rfl rfl rfl
  | configure setting => exact (configure_concludes joined h).leads
  | startJob => exact (startJob_concludes joined).leads
  | fire t => exact follow_leads joined (.fire t) rfl
  | wait ms => exact follow_leads joined (.wait ms) rfl
  | interrupt => exact interrupt_leads joined
  | configureService setting =>
    exact (Concludes.withService joined (Service.configure_steady _ setting)).leads
  | releaseHeld =>
    have released := Concludes.withService joined c.service.releaseHeld_steady
    exact (released.trans (foldl_deliver_concludes released.joined _)).leads
  | deliverDelayed limitMs => exact (deliverDelayed_concludes joined limitMs).leads
  | emitNotify message => exact (emit_leads joined message).1
  | emitAuth message => exact (emit_leads joined message).2
  | customToClient data =>
    have still := Exchange.sendCustom_service c.exchange data
    exact withExchange_leads joined ⟨_, _, still⟩ fun _ => still
  | expireCall call | finishJob | resolveKept resolution =>
    exact .of_unmoved joined rfl rfl rfl

theorem perform_setConverter {c : Client η} {operation : Operation η} {converter : ConverterConfig}
    (h : operation.converter? = some converter) :
    c.perform operation = c.setConverter converter := by
  cases operation with
  | configure setting =>
    cases setting with
    | converter set =>
      obtain rfl := Option.some.inj h
      rfl
    | _ => cases h
  | _ => cases h

theorem perform_joined {c : Client η} (joined : Joined c) (operation : Operation η) :
    Joined (c.perform operation) := by
  cases sets : operation.converter? with
  | none => exact (perform_leads joined sets).joined
  | some converter =>
    rw [perform_setConverter sets]
    exact setConverter_joined joined converter

theorem perform_moves {c : Client η} (joined : Joined c) (operation : Operation η) :
    Moves c (c.perform operation) := by
  cases sets : operation.converter? with
  | none => exact (perform_leads joined sets).moves
  | some converter =>
    rw [perform_setConverter sets]
    exact .waits ⟨.inl rfl, rfl, .refl _, rfl⟩

theorem perform_converter {c : Client η} (joined : Joined c) (operation : Operation η) :
    (c.perform operation).connection.converter =
      operation.converter?.getD c.connection.converter := by
  cases sets : operation.converter? with
  | none => exact (perform_leads joined sets).converter
  | some converter =>
    rw [perform_setConverter sets]
    rfl

theorem joined_ofNewService (config : ClientConfig) :
    Joined (ofNewService config config.codec : Client η) where
  connection := ⟨⟨rfl, rfl, rfl⟩, by simp [Connection.Live, ofNewService, Client.new,
    Connection.new], fun _ => rfl⟩
  codec := rfl
  heard := rfl

theorem Joined.performAll {c : Client η} (joined : Joined c) (operations : List (Operation η)) :
    Joined (c.performAll operations) :=
  performAll_invariant (P := Joined) (fun _ operation joined => perform_joined joined operation)
    joined operations

/-- A client of a new service that has the same codec, after a run. -/
def run (config : ClientConfig) (operations : List (Operation η)) : Client η :=
  (ofNewService config config.codec).performAll operations

theorem run_snoc (config : ClientConfig) (operations : List (Operation η)) (operation : Operation η) :
    run config (operations ++ [operation]) = (run config operations).perform operation :=
  performAll_append _ _ _

theorem joined_run (config : ClientConfig) (operations : List (Operation η)) :
    Joined (run config operations) := (joined_ofNewService config).performAll operations

/-! ### Answers -/

/-- A connected client uses the channel that the service has bound. -/
theorem Joined.isCurrent {c : Client η} (joined : Joined c) {channel : Nat}
    (usable : c.connection.proxy? = some channel) : c.service.isCurrent channel = true :=
  (joined.connection.isCurrent_iff channel).2 (Connection.uses_of_proxy usable).channel

theorem Joined.usable {c : Client η} (joined : Joined c) (up : c.state = .connected) :
    ∃ channel, c.connection.proxy? = some channel := by
  obtain ⟨channel, held⟩ := Option.isSome_iff_exists.1 (joined.connection.channel.2 (.inr up))
  have uses : c.connection.Uses c.connection.generation channel := ⟨up, rfl, held⟩
  exact ⟨channel, uses.proxy⟩

/-- A control request that can go out is carried out. -/
theorem Joined.answer {c : Client η} (joined : Joined c) {channel : Nat}
    (usable : c.connection.proxy? = some channel) {control : Control} {request : ServiceRequest}
    (made : control.request c.codec = .ok request) :
    c.service.answer channel request = .ok (control.reply c.service.tables) := by
  rw [← joined.codec, ← joined.connection.codec] at made
  exact (Service.served_control (joined.isCurrent usable) (Control.asks_of_request made).control).1

/-- No request of a blocked call was or will be refused by the service. -/
structure Accepted (c : Client η) : Prop where
  joined : Joined c
  pending : ∀ call result, .call call result ∈ c.service.pending → ∃ reply, result = .ok reply
  decided : ∀ call result, c.bridge.outcome? call = some result →
    ∀ reason, result ≠ .error (.remote reason)

theorem Accepted.perform {c : Client η} (h : Accepted c) (operation : Operation η) :
    Accepted (c.perform operation) := by
  have follows := perform_follows h.joined.connection.interception operation
  have answers : ∀ {request channel}, c.Issues request channel →
      ∃ reply, c.service.answer channel request = .ok reply := by
    intro request channel issues
    obtain ⟨control, made⟩ := issues.made
    exact ⟨_, h.joined.answer issues.usable made⟩
  refine ⟨perform_joined h.joined operation, fun call result later => ?_,
    fun call result later reason => ?_⟩
  · rcases follows.pending call result later with before |
      ⟨-, -, request, channel, issues, rfl⟩
    · exact h.pending call result before
    · exact answers issues
  · rcases follows.decided call result later with before | verdict
    · exact h.decided call result before reason
    · cases verdict with
      | lost | expired known => exact fun same => by cases same
      | refused begins =>
        unfold disconnectedError
        split <;> exact fun same => by cases same
      | replied pending =>
        obtain ⟨reply, rfl⟩ := h.pending call _ pending
        exact fun same => by cases same
      | answered begins issues =>
        obtain ⟨reply, ok⟩ := answers issues
        rw [ok]
        exact fun same => by cases same

theorem accepted_run (config : ClientConfig) (operations : List (Operation η)) :
    Accepted (run config operations) := by
  have new : Accepted (ofNewService config config.codec : Client η) := by
    refine ⟨joined_ofNewService config, fun _ _ owed => ?_, fun _ _ decided => ?_⟩
    · cases owed
    · cases decided
  exact performAll_invariant (fun _ operation accepted => accepted.perform operation) new operations

/-- The service has a channel exactly while the client is connecting or connected, and it is the one
that the client has stored. So the service carries out what a connected client asks for, and no
caller ever hears that the channel is not valid. -/
theorem channel_agreed (config : ClientConfig) (operations : List (Operation η)) :
    let c := run config operations
    (c.service.isConnected = true ↔ c.state = .connecting ∨ c.state = .connected) ∧
    (∀ channel, c.service.isCurrent channel = true ↔ c.connection.channel = some channel) ∧
    (c.state = .connected → ∃ channel, c.connection.proxy? = some channel ∧
      ∀ (control : Control) request, control.request c.codec = .ok request →
        c.service.answer channel request = .ok (control.reply c.service.tables)) ∧
    ∀ call, c.bridge.outcome? call ≠ some (.error (.remote Service.staleChannel)) := by
  intro c
  have accepted : Accepted c := accepted_run config operations
  have connection := accepted.joined.connection
  refine ⟨?_, connection.isCurrent_iff, fun up => ?_, fun call refused => ?_⟩
  · have bound : c.service.binding = c.connection.channel.map (⟨·, c.connection.generation⟩) :=
      connection.binding
    rw [Service.isConnected, bound, Option.isSome_map]
    exact connection.channel
  · obtain ⟨channel, usable⟩ := accepted.joined.usable up
    exact ⟨channel, usable, fun control request => accepted.joined.answer usable⟩
  · exact accepted.decided call _ refused _ rfl

/-- The reply to the session request of a reconnect is held back until the client has stored a second
channel; a request on it is carried out. -/
theorem second_channel_agreed :
    let c : Client Unit := run .default
      [.activateWith, .configureService (.unresponsive true), .interrupt, .wait 3000,
        .fire ⟨3000, .reconnect⟩, .releaseHeld]
    c.state = .connected ∧ c.connection.proxy? = some 2 ∧
      c.service.answer 2 .unsubscribeAll = .ok .done := by
  intro c
  obtain ⟨-, -, serves, -⟩ := channel_agreed .default
    [.activateWith, .configureService (.unresponsive true), .interrupt, .wait 3000,
      .fire ⟨3000, .reconnect⟩, (.releaseHeld : Operation Unit)]
  have up : c.state = .connected := by decide +kernel
  have second : c.connection.proxy? = some 2 := by decide +kernel
  obtain ⟨channel, usable, carriesOut⟩ := serves up
  obtain rfl : channel = 2 := Option.some.inj (usable.symm.trans second)
  exact ⟨up, usable, carriesOut .unsubscribeAll .unsubscribeAll rfl⟩

end Client

end EndpointMonitor
