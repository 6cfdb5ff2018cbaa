import EndpointMonitor.Proofs.Client.Operation
import EndpointMonitor.Proofs.Connection.Transport
import EndpointMonitor.Proofs.Service.Emission

/-!
A client beside its dispatcher. Whatever a client does that sends no event to its handlers, its
dispatcher has no part in it, and neither have the caches of the service.
-/

namespace EndpointMonitor

/-- The transport of a connection deals with channels and sessions, not with what is cached. -/
theorem Loopback.endures_ages (s : Service) :
    Connection.Endures fun transport : Loopback => s.Ages transport.service where
  create transport generation h := by
    simp only [Transport.create]
    split
    · exact h
    · exact h.trans (transport.service.bind_ages generation)
  openSession transport channel generation payload h := by
    simp only [Transport.openSession, openSession]
    split
    · split <;> exact h
    · exact h.trans (transport.service.perform_ages
        (.request channel (.createSession payload) (.session generation)) rfl)
  close transport channel h := h.trans (transport.service.unbind_ages channel)

namespace Client

variable {η : Type}

/-- The client with another dispatcher. -/
def withDispatcher (c : Client η) (dispatcher : Dispatcher) : Client η := { c with dispatcher }

/-- Whether an operation leaves the dispatcher alone. -/
def Operation.isSilent : Operation η → Bool
  | .configure (.executor _) | .configure (.handlers _) | .emitNotify _ | .emitAuth _
  | .customToClient _ | .resolveKept _ => false
  | _ => true

section
variable (c : Client η) (d : Dispatcher)

theorem withDispatcher_self : c.withDispatcher c.dispatcher = c := rfl

theorem relayEvent_aside (event : ConnectionEvent) :
    (c.withDispatcher d).relayEvent event = (c.relayEvent event).withDispatcher d := by
  cases event with
  | published subscriber outcome =>
    simp only [relayEvent, relayOutcome]
    cases isLoss outcome <;> cases handler : c.stateHandler <;>
      simp [note, failPending, submit, withDispatcher, handler]
  | answered waiter outcome => cases waiter <;> rfl
  | creating generation | requested generation channel converter | closed channel => rfl

theorem foldl_relayEvent_aside (events : List ConnectionEvent) :
    events.foldl relayEvent (c.withDispatcher d) =
      (events.foldl relayEvent c).withDispatcher d := by
  induction events generalizing c with
  | nil => rfl
  | cons event events ih => rw [List.foldl_cons, List.foldl_cons, relayEvent_aside, ih]

theorem relay_aside : (c.withDispatcher d).relay = c.relay.withDispatcher d :=
  foldl_relayEvent_aside { c with connection := c.connection.drain.2 } d c.connection.drain.1

theorem onConnection_aside (f : Connection Loopback → Connection Loopback) :
    (c.withDispatcher d).onConnection f = (c.onConnection f).withDispatcher d :=
  relay_aside { c with connection := f c.connection } d

theorem deliver_aside (delivery : Delivery) :
    (c.withDispatcher d).deliver delivery = (c.deliver delivery).withDispatcher d := by
  cases delivery with
  | session generation result => exact onConnection_aside c d (·.sessionCreated generation result)
  | call id result | message id result | foreign result | foreignMessage result => rfl

theorem foldl_deliver_aside (deliveries : List Delivery) :
    deliveries.foldl deliver (c.withDispatcher d) =
      (deliveries.foldl deliver c).withDispatcher d := by
  induction deliveries generalizing c with
  | nil => rfl
  | cons delivery deliveries ih => rw [List.foldl_cons, List.foldl_cons, deliver_aside, ih]

theorem send_aside (call : Nat) (request : ServiceRequest) :
    (c.withDispatcher d).send call request = (c.send call request).withDispatcher d := by
  have usable : (c.withDispatcher d).connection = c.connection := rfl
  unfold send
  rw [usable]
  cases c.connection.proxy? with
  | none => rfl
  | some channel =>
    rcases sent : c.connection.transport.request channel call request with ⟨fate, transport⟩
    simp only [sent]
    cases fate <;> rfl

theorem beginCall_aside (thread : Nat) (request : ServiceRequest) :
    ((c.withDispatcher d).beginCall thread request).after (c.withDispatcher d) =
      ((c.beginCall thread request).after c).withDispatcher d := by
  have bridge : (c.withDispatcher d).bridge.enter thread (c.withDispatcher d).timeoutMs =
      c.bridge.enter thread c.timeoutMs := rfl
  unfold beginCall
  rw [bridge]
  cases c.bridge.enter thread c.timeoutMs with
  | rejected | waiting holder => rfl
  | started call bridge => exact send_aside { c with bridge, sentOn := none } d call request

theorem finishCall_aside (call : Nat) :
    (((c.withDispatcher d).finishCall call).map (·.2)).getD (c.withDispatcher d) =
      (((c.finishCall call).map (·.2)).getD c).withDispatcher d := by
  have bridge : (c.withDispatcher d).bridge = c.bridge := rfl
  unfold finishCall
  rw [bridge]
  cases c.bridge.leave call <;> rfl

theorem sendCustom_aside (data : Bytes) :
    (c.withDispatcher d).sendCustom data = (c.sendCustom data).withDispatcher d := by
  have connection : (c.withDispatcher d).connection = c.connection := rfl
  unfold sendCustom
  simp only [connection]
  cases c.connection.proxy? with
  | none => rfl
  | some channel =>
    exact foldl_deliver_aside ({ c with messages := c.messages + 1 }.withService
      (c.service.customMessage channel data (.message c.messages)).2) d _

theorem beginActivate_aside (thread : Nat) :
    ((c.withDispatcher d).beginActivate thread).after (c.withDispatcher d) =
      ((c.beginActivate thread).after c).withDispatcher d := by
  have begins : (c.withDispatcher d).connection.beginConnect thread (c.withDispatcher d).timeoutMs =
      c.connection.beginConnect thread c.timeoutMs := rfl
  unfold beginActivate
  rw [begins]
  cases c.connection.beginConnect thread c.timeoutMs with
  | rejected | waiting holder => rfl
  | started call connection => exact relay_aside { c with connection } d

theorem finishActivate_aside (call : Nat) :
    (((c.withDispatcher d).finishActivate call).map (·.2)).getD (c.withDispatcher d) =
      (((c.finishActivate call).map (·.2)).getD c).withDispatcher d := by
  have connection : (c.withDispatcher d).connection = c.connection := rfl
  unfold finishActivate
  rw [connection]
  cases c.connection.finishConnect call with
  | none => rfl
  | some finished => exact relay_aside { c with connection := finished.2 } d

theorem interrupt_aside :
    (c.withDispatcher d).interrupt.2 = c.interrupt.2.withDispatcher d := by
  have service : (c.withDispatcher d).service = c.service := rfl
  unfold interrupt
  rw [service]
  rcases c.service.interrupt with ⟨generation?, service⟩
  cases generation? with
  | none => rfl
  | some generation => exact onConnection_aside (c.withService service) d _

theorem startJob_aside :
    ((c.withDispatcher d).startJob?.map (·.2)).getD (c.withDispatcher d) =
      ((c.startJob?.map (·.2)).getD c).withDispatcher d := by
  have queue : (c.withDispatcher d).stateQueue = c.stateQueue := rfl
  unfold startJob?
  rw [queue]
  cases c.stateQueue.start? with
  | none => rfl
  | some started =>
    obtain ⟨job, queue⟩ := started
    cases job <;> rfl

theorem deliverDelayed_aside (limitMs : Option Nat) :
    ((c.withDispatcher d).deliverDelayed? limitMs).getD (c.withDispatcher d) =
      ((c.deliverDelayed? limitMs).getD c).withDispatcher d := by
  have service : (c.withDispatcher d).service = c.service := rfl
  unfold deliverDelayed?
  rw [service]
  cases c.service.deliverDelayed? limitMs with
  | none => rfl
  | some delivered => exact deliver_aside (c.withService delivered.2) d delivered.1

/-- What a silent operation does, it does with any dispatcher. -/
theorem perform_aside {operation : Operation η} (silent : operation.isSilent = true) :
    (c.withDispatcher d).perform operation = (c.perform operation).withDispatcher d := by
  cases operation with
  | beginCall thread control =>
    have codec : (c.withDispatcher d).codec = c.codec := rfl
    simp only [perform, codec]
    cases control.request c.codec with
    | error e => rfl
    | ok request => exact beginCall_aside c d thread request
  | finishCall call => exact finishCall_aside c d call
  | sendCustom data => exact sendCustom_aside c d data
  | beginActivate thread => exact beginActivate_aside c d thread
  | expireActivate call => exact onConnection_aside c d (·.expireConnect call)
  | finishActivate call => exact finishActivate_aside c d call
  | activateWith =>
    exact onConnection_aside { c with activations := c.activations + 1 } d
      (·.connectWith c.activations)
  | invalidate => exact congrArg failPending (onConnection_aside c d (·.invalidate))
  | configure setting => cases setting <;> first | rfl | cases silent
  | startJob => exact startJob_aside c d
  | fire t => exact onConnection_aside c d (·.perform (.fire t))
  | wait ms => exact onConnection_aside c d (·.wait ms)
  | interrupt => exact interrupt_aside c d
  | releaseHeld => exact foldl_deliver_aside (c.withService c.service.releaseHeld.2) d _
  | deliverDelayed limitMs => exact deliverDelayed_aside c d limitMs
  | expireCall call | finishJob | configureService setting => rfl
  | emitNotify | emitAuth | customToClient | resolveKept => cases silent

theorem perform_dispatcher {operation : Operation η} (silent : operation.isSilent = true) :
    (c.perform operation).dispatcher = c.dispatcher := by
  have aside := perform_aside c c.dispatcher silent
  rw [withDispatcher_self] at aside
  rw [aside]
  rfl

end

/-! ### What the service has cached -/

theorem relay_ages {c : Client η} {connection : Connection Loopback}
    (h : c.service.Ages connection.transport.service) :
    c.service.Ages { c with connection }.relay.service := by
  rw [relay_service]
  exact h

theorem follow_ages (c : Client η) (operation : Connection.Operation Loopback)
    (own : operation.isOwn = true) : c.service.Ages (c.follow operation).service :=
  relay_ages ((Loopback.endures_ages c.service).perform (c := c.connection) (.refl _) own)

theorem deliver_ages (c : Client η) (delivery : Delivery) :
    c.service.Ages (c.deliver delivery).service := by
  cases delivery with
  | session generation result =>
    exact follow_ages c (.receive (.sessionReply generation result)) rfl
  | call id result | message id result | foreign result | foreignMessage result => exact .refl _

theorem foldl_deliver_ages (c : Client η) (deliveries : List Delivery) :
    c.service.Ages (deliveries.foldl deliver c).service := by
  induction deliveries generalizing c with
  | nil => exact .refl _
  | cons delivery deliveries ih => exact (deliver_ages c delivery).trans (ih _)

theorem send_ages (c : Client η) (call : Nat) (request : ServiceRequest) :
    c.service.Ages (c.send call request).service := by
  unfold send
  cases c.connection.proxy? with
  | none => exact .refl _
  | some channel =>
    have sent : c.service.Ages (c.connection.transport.request channel call request).2.service := by
      simp only [Loopback.request]
      split
      · split <;> exact .refl _
      · exact c.service.perform_ages (.request channel request (.call call)) rfl
    simp only
    split <;> exact sent

theorem beginCall_ages (c : Client η) (thread : Nat) (request : ServiceRequest) :
    c.service.Ages ((c.beginCall thread request).after c).service := by
  unfold beginCall
  cases c.bridge.enter thread c.timeoutMs with
  | rejected | waiting holder => exact .refl _
  | started call bridge => exact send_ages { c with bridge, sentOn := none } call request

theorem finishCall_ages (c : Client η) (call : Nat) :
    c.service.Ages (((c.finishCall call).map (·.2)).getD c).service := by
  unfold finishCall
  cases c.bridge.leave call <;> exact .refl _

theorem sendCustom_ages (c : Client η) (data : Bytes) :
    c.service.Ages (c.sendCustom data).service := by
  unfold sendCustom
  simp only
  cases c.connection.proxy? with
  | none => exact .refl _
  | some channel =>
    have sent := c.service.customMessage_steady channel data (.message c.messages)
    simp only
    exact (Service.Ages.of_steady sent).trans (foldl_deliver_ages (.withService _ _) _)

theorem beginActivate_ages (c : Client η) (thread : Nat) :
    c.service.Ages ((c.beginActivate thread).after c).service := by
  have follows := follow_ages c (.beginConnect thread c.timeoutMs) rfl
  unfold beginActivate
  cases begins : c.connection.beginConnect thread c.timeoutMs with
  | rejected | waiting holder => exact .refl _
  | started call connection => rwa [follow_beginConnect begins] at follows

theorem finishActivate_ages (c : Client η) (call : Nat) :
    c.service.Ages (((c.finishActivate call).map (·.2)).getD c).service := by
  have follows := follow_ages c (.finishConnect call) rfl
  unfold finishActivate
  cases finishes : c.connection.finishConnect call with
  | none => exact .refl _
  | some finished => rwa [follow_finishConnect finishes] at follows

theorem interrupt_ages (c : Client η) : c.service.Ages c.interrupt.2.service := by
  have interrupted := c.service.perform_ages (.interrupt) rfl
  unfold interrupt
  rcases broken : c.service.interrupt with ⟨generation?, service⟩
  rw [Service.perform, broken] at interrupted
  cases generation? with
  | none => exact .refl _
  | some generation =>
    exact interrupted.trans (follow_ages (c.withService service) (.receive (.lost generation)) rfl)

theorem startJob_ages (c : Client η) :
    c.service.Ages ((c.startJob?.map (·.2)).getD c).service := by
  unfold startJob?
  cases c.stateQueue.start? with
  | none => exact .refl _
  | some started =>
    obtain ⟨job, queue⟩ := started
    cases job <;> exact .refl _

theorem deliverDelayed_ages (c : Client η) (limitMs : Option Nat) :
    c.service.Ages ((c.deliverDelayed? limitMs).getD c).service := by
  unfold deliverDelayed?
  cases due : c.service.deliverDelayed? limitMs with
  | none => exact .refl _
  | some delivered =>
    exact (Service.Ages.of_steady (Service.deliverDelayed_steady due)).trans
      (deliver_ages (c.withService delivered.2) delivered.1)

theorem perform_ages (c : Client η) {operation : Operation η} (silent : operation.isSilent = true) :
    c.service.Ages (c.perform operation).service := by
  cases operation with
  | beginCall thread control =>
    simp only [perform]
    cases control.request c.codec with
    | error e => exact .refl _
    | ok request => exact beginCall_ages c thread request
  | finishCall call => exact finishCall_ages c call
  | sendCustom data => exact sendCustom_ages c data
  | beginActivate thread => exact beginActivate_ages c thread
  | expireActivate call => exact follow_ages c (.expireConnect call) rfl
  | finishActivate call => exact finishActivate_ages c call
  | activateWith =>
    exact follow_ages { c with activations := c.activations + 1 } (.connectWith c.activations) rfl
  | invalidate => exact follow_ages c (.invalidate) rfl
  | configure setting => cases setting <;> exact .refl _
  | startJob => exact startJob_ages c
  | fire t => exact follow_ages c (.fire t) rfl
  | wait ms => exact follow_ages c (.wait ms) rfl
  | interrupt => exact interrupt_ages c
  | configureService setting => exact .of_steady (c.service.configure_steady setting)
  | releaseHeld =>
    exact (Service.Ages.of_steady c.service.releaseHeld_steady).trans
      (foldl_deliver_ages (c.withService c.service.releaseHeld.2) c.service.held)
  | deliverDelayed limitMs => exact deliverDelayed_ages c limitMs
  | expireCall call | finishJob => exact .refl _
  | emitNotify | emitAuth | customToClient | resolveKept => cases silent

end Client

end EndpointMonitor
