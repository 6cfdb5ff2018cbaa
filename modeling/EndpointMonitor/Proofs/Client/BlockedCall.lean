import EndpointMonitor.Proofs.Bridge.Serialization
import EndpointMonitor.Proofs.Client.Operation
import EndpointMonitor.Proofs.Connection.InUse

/-!
Callers that are blocked in the bridge of a client. A call that waits was sent on the channel that
is in use now: when that channel goes, the call fails at once, so nobody waits on an old channel.
-/

namespace EndpointMonitor

theorem Bridge.failPending_failPending {α : Type} (b : Bridge α) (error other : ClientError) :
    ((b.failPending error).2.failPending other).2 = (b.failPending error).2 := by
  cases hp : b.pending with
  | none => simp only [failPending, hp]
  | some call =>
    have first : b.failPending error = b.settle call (.error error) := by
      simp only [failPending, hp]
    have still : (b.settle call (.error error)).2.pending = some call :=
      (settle_advances b call _).pending.trans hp
    have second : (b.settle call (.error error)).2.failPending other =
        (b.settle call (.error error)).2.settle call (.error other) := by
      simp only [failPending, still]
    rw [first, second, settle_settle]

namespace Client

variable {η : Type}

/-- A thread waits in the bridge for the result of this call. -/
def Blocked (c : Client η) (call : Nat) : Prop :=
  c.bridge.pending = some call ∧ c.bridge.armed call = true

theorem Blocked.undecided {c : Client η} {call : Nat} (h : c.Blocked call) :
    c.bridge.outcome? call = none :=
  ((Bridge.armed_iff _ _).1 h.2).2

theorem Blocked.begun {c : Client η} {call : Nat} (h : c.Blocked call) :
    call < c.bridge.calls.length :=
  ((Bridge.armed_iff _ _).1 h.2).1

theorem Blocked.failed {c : Client η} {call : Nat} (h : c.Blocked call) (error : ClientError) :
    (c.bridge.failPending error).2.outcome? call = some (.error error) := by
  have settles : c.bridge.failPending error = c.bridge.settle call (.error error) := by
    simp only [Bridge.failPending, h.1]
  rw [settles, Bridge.outcome_settle h.begun, h.undecided]
  rfl

/-- A call that is blocked after its bridge has only decided calls was blocked before. -/
theorem Blocked.of_advances {c c' : Client η} (advances : c.bridge.Advances c'.bridge) {call : Nat}
    (h : c'.Blocked call) : c.Blocked call := by
  refine ⟨advances.pending.symm.trans h.1, (Bridge.armed_iff _ _).2 ⟨?_, ?_⟩⟩
  · rw [← advances.length_eq]
    exact h.begun
  · cases ho : c.bridge.outcome? call with
    | none => rfl
    | some result =>
      have kept := advances.outcome call result ho
      rw [h.undecided] at kept
      cases kept

/-! ### What the client hears of a loss -/

theorem relayOutcome_bridge (c : Client η) (outcome : Outcome) :
    (c.relayOutcome outcome).bridge =
      if isLoss outcome then (c.bridge.failPending .notConnected).2 else c.bridge := by
  simp only [relayOutcome]
  cases isLoss outcome
  all_goals
    simp only [if_true, Bool.false_eq_true, if_false]
    split <;> rfl

theorem relayEvent_bridge (c : Client η) (event : ConnectionEvent) :
    (c.relayEvent event).bridge =
      if event.heard?.any isLoss then (c.bridge.failPending .notConnected).2 else c.bridge := by
  cases event with
  | published subscriber outcome => exact relayOutcome_bridge _ outcome
  | answered waiter outcome => cases waiter <;> rfl
  | creating generation | requested generation channel converter | closed channel => rfl

theorem foldl_relayEvent_bridge (c : Client η) (events : List ConnectionEvent) :
    (events.foldl relayEvent c).bridge =
      if (events.filterMap (·.heard?)).any isLoss then (c.bridge.failPending .notConnected).2
      else c.bridge := by
  induction events generalizing c with
  | nil => rfl
  | cons event events ih =>
    rw [List.foldl_cons, ih, relayEvent_bridge]
    cases heard : event.heard? with
    | none =>
      rw [List.filterMap_cons_none heard]
      rfl
    | some outcome =>
      rw [List.filterMap_cons_some heard, List.any_cons, Option.any_some]
      cases isLoss outcome <;> cases (events.filterMap (·.heard?)).any isLoss <;>
        simp [Bridge.failPending_failPending]

/-- The blocked call fails if a loss is among the outcomes, and only then. -/
theorem relay_bridge (c : Client η) :
    c.relay.bridge =
      if c.connection.outcomes.any isLoss then (c.bridge.failPending .notConnected).2
      else c.bridge :=
  foldl_relayEvent_bridge _ _

theorem isLoss_of_mem_losses {outcome : Outcome} (h : outcome ∈ Connection.losses) :
    isLoss outcome = true := by
  rcases List.mem_cons.1 h with rfl | h
  · rfl
  · obtain rfl := List.mem_singleton.1 h
    rfl

/-! ### Operations that leave the calls in the bridge where they are -/

/-- Calls are decided at most, and a connection in use stays so, or every blocked call fails. -/
structure Carries (c c' : Client η) : Prop where
  bridge : c.bridge.Advances c'.bridge
  sentOn : c'.sentOn = c.sentOn
  subscriber : c'.connection.subscriber = c.connection.subscriber
  uses : ∀ generation channel, c.connection.subscriber = some Client.subscriber →
    c.connection.Uses generation channel →
    c'.connection.Uses generation channel ∨
      ∀ call, c.Blocked call → c'.bridge.outcome? call = some (.error .notConnected)

/-- The same, where a connection in use is left alone. -/
structure Calm (c c' : Client η) : Prop where
  bridge : c.bridge.Advances c'.bridge
  sentOn : c'.sentOn = c.sentOn
  subscriber : c'.connection.subscriber = c.connection.subscriber
  uses : ∀ generation channel, c.connection.Uses generation channel →
    c'.connection.Uses generation channel

theorem Calm.carries {c c' : Client η} (h : Calm c c') : Carries c c' where
  bridge := h.bridge
  sentOn := h.sentOn
  subscriber := h.subscriber
  uses generation channel _ uses := .inl (h.uses generation channel uses)

theorem Calm.refl (c : Client η) : Calm c c where
  bridge := .refl _
  sentOn := rfl
  subscriber := rfl
  uses _ _ h := h

theorem Calm.trans {c d e : Client η} (h : Calm c d) (h' : Calm d e) : Calm c e where
  bridge := h.bridge.trans h'.bridge
  sentOn := h'.sentOn.trans h.sentOn
  subscriber := h'.subscriber.trans h.subscriber
  uses generation channel uses := h'.uses generation channel (h.uses generation channel uses)

theorem Carries.of_calm {c d e : Client η} (h : Calm c d) (same : d.bridge = c.bridge)
    (h' : Carries d e) : Carries c e where
  bridge := h.bridge.trans h'.bridge
  sentOn := h'.sentOn.trans h.sentOn
  subscriber := h'.subscriber.trans h.subscriber
  uses generation channel watched uses := by
    have blocked : ∀ {call}, c.Blocked call → d.Blocked call := by
      intro call waits
      simpa only [Blocked, same] using waits
    rcases h'.uses generation channel (h.subscriber.trans watched)
      (h.uses generation channel uses) with still | failed
    · exact .inl still
    · exact .inr fun call waits => failed call (blocked waits)

/-- What the service does between two reports is no business of the connection. -/
theorem withTransport_calm (c : Client η) (transport : Loopback) :
    Calm c (c.withTransport transport) where
  bridge := .refl _
  sentOn := rfl
  subscriber := rfl
  uses _ _ uses := ⟨uses.state, uses.generation, uses.channel⟩

theorem withService_calm (c : Client η) (service : Service) : Calm c (c.withService service) :=
  withTransport_calm c _

theorem complete_calm (c : Client η) (call : Nat) (result : Except ClientError ServiceReply) :
    Calm c (c.complete call result) where
  bridge := Bridge.settle_advances _ call result
  sentOn := rfl
  subscriber := rfl
  uses _ _ uses := uses

theorem relay_advances (c : Client η) : c.bridge.Advances c.relay.bridge := by
  rw [relay_bridge]
  split
  · exact Bridge.failPending_advances _ _
  · exact .refl _

/-- What a connection does by itself leaves it in use, or fails the blocked call. -/
theorem follow_carries (c : Client η) (operation : Connection.Operation Loopback)
    (own : operation.isOwn = true) : Carries c (c.follow operation) where
  bridge := relay_advances { c with connection := c.connection.perform operation }
  sentOn := relay_sentOn _
  subscriber := by
    rw [follow, onConnection, relay_connection]
    exact Connection.perform_subscriber c.connection own
  uses generation channel watched uses := by
    rcases Connection.perform_uses watched uses own with still | ⟨outcome, loss, told⟩
    · left
      rw [follow, onConnection, relay_connection]
      exact ⟨still.state, still.generation, still.channel⟩
    · refine .inr fun call waits => ?_
      have heard : (c.connection.perform operation).outcomes.any isLoss = true :=
        List.any_eq_true.2 ⟨outcome, told, isLoss_of_mem_losses loss⟩
      rw [follow, onConnection, relay_bridge, if_pos heard]
      exact waits.failed .notConnected

theorem deliver_calm (c : Client η) (delivery : Delivery) : Calm c (c.deliver delivery) := by
  cases delivery with
  | session generation result =>
    -- A connection in use is not waiting for the reply to a session request.
    have carries := follow_carries c (.receive (.sessionReply generation result)) rfl
    refine ⟨carries.bridge, carries.sentOn, carries.subscriber, fun current channel uses => ?_⟩
    have idle : c.connection.isAttempting generation = false := by
      simp [Connection.isAttempting, uses.state]
    have same : c.connection.sessionCreated generation result = c.connection :=
      Connection.sessionCreated_stale idle result
    rw [deliver, onConnection, relay_connection, same]
    exact ⟨uses.state, uses.generation, uses.channel⟩
  | call id result => exact complete_calm c id _
  | message id result => exact ⟨.refl _, rfl, rfl, fun _ _ uses => uses⟩
  | foreign result | foreignMessage result => exact .refl c

theorem foldl_deliver_calm (c : Client η) (deliveries : List Delivery) :
    Calm c (deliveries.foldl deliver c) := by
  induction deliveries generalizing c with
  | nil => exact .refl c
  | cons delivery deliveries ih => exact (deliver_calm c delivery).trans (ih _)

theorem configure_calm (c : Client η) (setting : Setting η) : Calm c (c.configure setting) := by
  cases setting <;>
    exact ⟨.refl _, rfl, rfl, fun _ _ uses => ⟨uses.state, uses.generation, uses.channel⟩⟩

theorem withExchange_calm (c : Client η) (x : Exchange) : Calm c (c.withExchange x) where
  bridge := .refl _
  sentOn := rfl
  subscriber := rfl
  uses _ _ uses := ⟨uses.state, uses.generation, uses.channel⟩

theorem sendCustom_calm (c : Client η) (data : Bytes) : Calm c (c.sendCustom data) := by
  have numbered : Calm c { c with messages := c.messages + 1 } :=
    ⟨.refl _, rfl, rfl, fun _ _ uses => uses⟩
  simp only [sendCustom]
  split
  · exact numbered.trans ⟨.refl _, rfl, rfl, fun _ _ uses => uses⟩
  · exact numbered.trans ((withService_calm _ _).trans (foldl_deliver_calm _ _))

/-! ### Where calls begin and return -/

/-- Every blocked call was sent on the channel in use. -/
structure Attached (c : Client η) : Prop where
  serial : c.bridge.Serial
  subscriber : c.connection.subscriber = some Client.subscriber
  sent : ∀ call, c.Blocked call → ∃ channel, c.sentOn = some channel ∧
    c.connection.proxy? = some channel

theorem Attached.carry {c c' : Client η} (h : Attached c) (carries : Carries c c') :
    Attached c' where
  serial := h.serial.of_advances carries.bridge
  subscriber := carries.subscriber.trans h.subscriber
  sent call waits := by
    have before : c.Blocked call := waits.of_advances carries.bridge
    obtain ⟨channel, sent, usable⟩ := h.sent call before
    rcases carries.uses _ channel h.subscriber (Connection.uses_of_proxy usable) with
      still | failed
    · exact ⟨channel, carries.sentOn.trans sent, still.proxy⟩
    · have decided := failed call before
      rw [waits.undecided] at decided
      cases decided

/-- The request of a call goes out on the channel in use, or the call is decided. -/
theorem send_cases (c : Client η) (call : Nat) (request : ServiceRequest) :
    (∃ channel, (c.send call request).sentOn = some channel ∧
      (c.send call request).connection.proxy? = some channel) ∨
      ∃ result, (c.send call request).bridge = (c.bridge.settle call result).2 := by
  cases usable : c.connection.proxy? with
  | none =>
    right
    simp only [send, usable]
    exact ⟨_, rfl⟩
  | some channel =>
    left
    refine ⟨channel, ?_⟩
    simp only [send, usable]
    split <;> exact ⟨rfl, usable⟩

theorem send_advances (c : Client η) (call : Nat) (request : ServiceRequest) :
    c.bridge.Advances (c.send call request).bridge := by
  simp only [send]
  split
  · exact Bridge.settle_advances _ _ _
  · split
    · exact Bridge.settle_advances _ _ _
    · exact Bridge.settle_advances _ _ _
    · exact .refl _

theorem send_subscriber (c : Client η) (call : Nat) (request : ServiceRequest) :
    (c.send call request).connection.subscriber = c.connection.subscriber := by
  simp only [send]
  split
  · rfl
  · split <;> rfl

/-- A call begins or returns; before that, nobody is blocked. -/
structure Relieves (c c' : Client η) : Prop where
  idle : ∀ call, ¬ c.Blocked call
  attached : Attached c'
  outcome : ∀ call result, c.bridge.outcome? call = some result →
    c'.bridge.outcome? call = some result

/-- A thread that is let in is blocked only on the channel in use. -/
theorem beginCall_relieves {c begun : Client η} (h : Attached c) {thread call : Nat}
    {request : ServiceRequest} (started : c.beginCall thread request = .started call begun) :
    Relieves c begun := by
  unfold beginCall at started
  cases entry : c.bridge.enter thread c.timeoutMs with
  | rejected | waiting holder => simp [entry] at started
  | started first entered =>
    obtain ⟨free, -, rfl, rfl⟩ := Bridge.enter_eq_started entry
    simp only [entry, Start.started.injEq] at started
    obtain ⟨rfl, rfl⟩ := started
    let inside : Client η :=
      { c with bridge := c.bridge.occupy thread c.timeoutMs, sentOn := none }
    have idle : c.bridge.pending = none := h.serial.holder.symm.trans free
    have advances := send_advances inside c.bridge.calls.length request
    refine ⟨fun other waits => ?_, ⟨(Bridge.serial_occupy _ _ _).of_advances advances, ?_, ?_⟩,
      fun other result decided => ?_⟩
    · rw [waits.1] at idle
      cases idle
    · exact (send_subscriber inside _ request).trans h.subscriber
    · intro other waits
      have only : c.bridge.calls.length = other :=
        Option.some.inj (advances.pending.symm.trans waits.1)
      rcases send_cases inside c.bridge.calls.length request with sent | ⟨result, settled⟩
      · exact sent
      · -- Without a channel the call is decided on the spot.
        have undecided := waits.undecided
        rw [settled, ← only, Bridge.outcome_settle (by simp [inside, Bridge.occupy])] at undecided
        simp at undecided
    · refine advances.outcome other result ?_
      rw [Bridge.outcome_occupy (Bridge.lt_of_decided decided)]
      exact decided

/-- A call returns when it is decided. -/
theorem finishCall_relieves {c left : Client η} (h : Attached c) {call : Nat}
    {result : Except ClientError ServiceReply}
    (finished : c.finishCall call = some (result, left)) : Relieves c left := by
  unfold finishCall at finished
  obtain ⟨⟨first, bridge⟩, leaves, made⟩ := Option.map_eq_some_iff.1 finished
  obtain ⟨rfl, rfl⟩ := Prod.mk.inj made
  obtain ⟨holds, decided, rfl⟩ := Bridge.leave_eq_some leaves
  refine ⟨fun other waits => ?_, ⟨Bridge.serial_vacate _, h.subscriber, fun other waits => ?_⟩,
    fun _ _ first => first⟩
  · obtain rfl : call = other :=
      Option.some.inj (holds.symm.trans (h.serial.holder.trans waits.1))
    rw [waits.undecided] at decided
    cases decided
  · cases waits.1

theorem beginActivate_carries (c : Client η) (thread : Nat) :
    Carries c ((c.beginActivate thread).after c) := by
  have follows := follow_carries c (.beginConnect thread c.timeoutMs) rfl
  unfold beginActivate
  cases begins : c.connection.beginConnect thread c.timeoutMs with
  | rejected | waiting holder => exact (Calm.refl c).carries
  | started call connection => rwa [follow_beginConnect begins] at follows

theorem finishActivate_carries (c : Client η) (call : Nat) :
    Carries c (((c.finishActivate call).map (·.2)).getD c) := by
  have follows := follow_carries c (.finishConnect call) rfl
  unfold finishActivate
  cases finishes : c.connection.finishConnect call with
  | none => exact (Calm.refl c).carries
  | some finished => rwa [follow_finishConnect finishes] at follows

theorem invalidate_carries (c : Client η) : Carries c c.invalidate := by
  have follows := follow_carries c .invalidate rfl
  have failed := Bridge.failPending_advances (c.follow .invalidate).bridge .notConnected
  refine ⟨follows.bridge.trans failed, follows.sentOn, follows.subscriber, ?_⟩
  intro generation channel watched uses
  exact (follows.uses generation channel watched uses).imp_right fun told call waits =>
    failed.outcome call _ (told call waits)

theorem interrupt_carries (c : Client η) : Carries c c.interrupt.2 := by
  unfold interrupt
  cases binding : c.service.interrupt with
  | mk generation? service =>
    cases generation? with
    | none => exact (Calm.refl c).carries
    | some generation =>
      exact .of_calm (withService_calm c service) rfl
        (follow_carries _ (.receive (.lost generation)) rfl)

theorem deliverDelayed_calm (c : Client η) (limitMs : Option Nat) :
    Calm c ((c.deliverDelayed? limitMs).getD c) := by
  unfold deliverDelayed?
  cases c.service.deliverDelayed? limitMs with
  | none => exact .refl c
  | some delivered => exact (withService_calm c _).trans (deliver_calm _ _)

theorem startJob_calm (c : Client η) : Calm c ((c.startJob?.map (·.2)).getD c) := by
  unfold startJob?
  cases c.stateQueue.start? with
  | none => exact .refl c
  | some started =>
    obtain ⟨job, queue⟩ := started
    cases job <;> exact ⟨.refl _, rfl, rfl, fun _ _ uses => uses⟩

/-! ### Operations -/

/-- An operation leaves the blocked call where it is or fails it with the connection; calls come
and go only when nobody is blocked. -/
theorem perform_cases {c : Client η} (h : Attached c) (operation : Operation η) :
    Carries c (c.perform operation) ∨ Relieves c (c.perform operation) := by
  cases operation with
  | beginCall thread control =>
    cases asked : control.request c.codec with
    | error error =>
      simp only [perform, asked]
      exact .inl (Calm.refl c).carries
    | ok request =>
      simp only [perform, asked]
      cases begins : c.beginCall thread request with
      | rejected | waiting holder => exact .inl (Calm.refl c).carries
      | started call begun => exact .inr (beginCall_relieves h begins)
  | finishCall call =>
    simp only [perform]
    cases finishes : c.finishCall call with
    | none => exact .inl (Calm.refl c).carries
    | some finished => exact .inr (finishCall_relieves h finishes)
  | expireCall call =>
    exact .inl ⟨Bridge.expire_advances _ _, rfl, rfl, fun _ _ _ uses => .inl uses⟩
  | sendCustom data => exact .inl (sendCustom_calm c data).carries
  | beginActivate thread => exact .inl (beginActivate_carries c thread)
  | expireActivate call => exact .inl (follow_carries c (.expireConnect call) rfl)
  | finishActivate call => exact .inl (finishActivate_carries c call)
  | activateWith =>
    have numbered : Calm c { c with activations := c.activations + 1 } :=
      ⟨.refl _, rfl, rfl, fun _ _ uses => uses⟩
    exact .inl (.of_calm numbered rfl
      (follow_carries _ (.connectWith c.activations) rfl))
  | invalidate => exact .inl (invalidate_carries c)
  | configure setting => exact .inl (configure_calm c setting).carries
  | startJob => exact .inl (startJob_calm c).carries
  | finishJob => exact .inl ⟨.refl _, rfl, rfl, fun _ _ _ uses => .inl uses⟩
  | fire t => exact .inl (follow_carries c (.fire t) rfl)
  | wait ms => exact .inl (follow_carries c (.wait ms) rfl)
  | interrupt => exact .inl (interrupt_carries c)
  | configureService setting => exact .inl (withService_calm c _).carries
  | releaseHeld =>
    exact .inl ((withService_calm c _).trans (foldl_deliver_calm _ _)).carries
  | deliverDelayed limitMs => exact .inl (deliverDelayed_calm c limitMs).carries
  | emitNotify message | emitAuth message | customToClient data =>
    exact .inl (withExchange_calm c _).carries
  | resolveKept resolution => exact .inl ⟨.refl _, rfl, rfl, fun _ _ _ uses => .inl uses⟩

theorem Attached.perform {c : Client η} (h : Attached c) (operation : Operation η) :
    Attached (c.perform operation) :=
  (perform_cases h operation).elim h.carry (·.attached)

theorem Attached.performAll {c : Client η} (h : Attached c) (operations : List (Operation η)) :
    Attached (c.performAll operations) :=
  performAll_invariant (fun _ operation attached => attached.perform operation) h operations

/-- What has decided a call is never taken back. -/
theorem Attached.outcome_performAll {c : Client η} (h : Attached c) {call : Nat}
    {result : Except ClientError ServiceReply} (decided : c.bridge.outcome? call = some result)
    (operations : List (Operation η)) :
    (c.performAll operations).bridge.outcome? call = some result := by
  induction operations generalizing c with
  | nil => exact decided
  | cons operation operations ih =>
    refine ih (h.perform operation) ?_
    exact (perform_cases h operation).elim (·.bridge.outcome call result decided)
      (·.outcome call result decided)

/-- An operation keeps the channel of a blocked call in use, or fails that call. -/
theorem Attached.uses_perform {c : Client η} (h : Attached c) {call generation channel : Nat}
    (waits : c.Blocked call) (uses : c.connection.Uses generation channel)
    (operation : Operation η) :
    (c.perform operation).connection.Uses generation channel ∨
      (c.perform operation).bridge.outcome? call = some (.error .notConnected) := by
  rcases perform_cases h operation with carries | relieves
  · exact (carries.uses generation channel h.subscriber uses).imp_right fun failed =>
      failed call waits
  · exact absurd waits (relieves.idle call)

/-- A call that is still blocked is so on its own channel: there has been no reconnect. -/
theorem Attached.uses_performAll {c : Client η} (h : Attached c) {call generation channel : Nat}
    (waits : c.Blocked call) (uses : c.connection.Uses generation channel)
    {operations : List (Operation η)} (still : (c.performAll operations).Blocked call) :
    (c.performAll operations).connection.Uses generation channel := by
  induction operations generalizing c with
  | nil => exact uses
  | cons operation operations ih =>
    have undecided := still.undecided
    rcases h.uses_perform waits uses operation with up | failed
    · refine ih (h.perform operation) ?_ up still
      -- The call is decided after one operation only if it is decided in the end.
      rcases perform_cases h operation with carries | relieves
      · refine ⟨carries.bridge.pending.trans waits.1, (Bridge.armed_iff _ _).2 ⟨?_, ?_⟩⟩
        · exact carries.bridge.length_eq.symm ▸ waits.begun
        · cases decided : (c.perform operation).bridge.outcome? call with
          | none => rfl
          | some result =>
            rw [performAll_cons, (h.perform operation).outcome_performAll decided] at undecided
            cases undecided
      · exact absurd waits (relieves.idle call)
    · rw [performAll_cons, (h.perform operation).outcome_performAll failed] at undecided
      cases undecided

theorem attached_ofNewService (config : ClientConfig) (serviceCodec : Codec) :
    Attached (ofNewService config serviceCodec : Client η) where
  serial := Bridge.empty_serial
  subscriber := rfl
  sent _ waits := by cases waits.1

/-- A blocked call was sent on the channel that is in use. The operation that ends this use fails
the call, and as long as the call is blocked there has been no other channel. -/
theorem blocked_calls_attached (config : ClientConfig) (serviceCodec : Codec)
    (operations : List (Operation η)) :
    let c := (ofNewService config serviceCodec : Client η).performAll operations
    ∀ call, c.Blocked call → ∃ channel,
      (c.state = .connected ∧ c.connection.channel = some channel ∧ c.sentOn = some channel) ∧
      (∀ operation, ¬ (c.perform operation).connection.Uses c.connection.generation channel →
        ∃ left, (c.perform operation).finishCall call = some (.error .notConnected, left)) ∧
      ∀ more, (c.performAll more).Blocked call →
        (c.performAll more).connection.Uses c.connection.generation channel ∧
          (c.performAll more).sentOn = some channel := by
  intro c call waits
  have attached : Attached c := (attached_ofNewService config serviceCodec).performAll operations
  obtain ⟨channel, sent, usable⟩ := attached.sent call waits
  have uses := Connection.uses_of_proxy usable
  refine ⟨channel, ⟨uses.state, uses.channel, sent⟩, fun operation ended => ?_,
    fun more still => ?_⟩
  · rcases attached.uses_perform waits uses operation with up | failed
    · exact absurd up ended
    · rcases perform_cases attached operation with carries | relieves
      · have holds : (c.perform operation).bridge.holder = some call :=
          (carries.bridge.holder.trans attached.serial.holder).trans waits.1
        have leaves := Bridge.leave_of_decided holds failed
        simp only [finishCall, leaves, Option.map_some]
        exact ⟨_, rfl⟩
      · exact absurd waits (relieves.idle call)
  · have up := attached.uses_performAll waits uses still
    obtain ⟨current, sentOn, used⟩ := (attached.performAll more).sent call still
    have same : current = channel := Option.some.inj (used.symm.trans up.proxy)
    exact ⟨up, same ▸ sentOn⟩

/-- A call to a service that keeps its reply is blocked, and fails when the channel breaks. -/
theorem blocked_call_interrupted :
    let c := (ofNewService .default .default : Client Unit).performAll
      [.activateWith, .configureService (.unresponsive true), .beginCall 1 .clearCache]
    c.Blocked 0 ∧ c.sentOn = some 1 ∧ (c.perform .interrupt).state = .interrupted ∧
      ∃ left, (c.perform .interrupt).finishCall 0 = some (.error .notConnected, left) := by
  intro c
  have waits : c.Blocked 0 := ⟨rfl, rfl⟩
  have lost : (c.perform .interrupt).state = .interrupted := rfl
  obtain ⟨channel, -, fails, -⟩ := blocked_calls_attached .default .default
    [.activateWith, .configureService (.unresponsive true), .beginCall 1 .clearCache] 0 waits
  refine ⟨waits, rfl, lost, fails .interrupt fun uses => ?_⟩
  have up : (c.perform .interrupt).state = .connected := uses.state
  rw [lost] at up
  cases up

end Client

end EndpointMonitor
