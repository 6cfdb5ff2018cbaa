import EndpointMonitor.Proofs.Client.BlockedCall
import EndpointMonitor.Proofs.Connection.Transport
import Mathlib.Data.List.Perm.Basic

/-!
The custom messages of a client. Each is answered once, when its reply arrives. The loss of a
channel answers none: a message whose reply the service keeps stays without an answer.
-/

namespace EndpointMonitor

/-- The custom message that a reply is for. -/
def Delivery.message? : Delivery → Option Nat
  | .message id _ => some id
  | _ => none

/-- The custom message whose completion has run. -/
def ClientEvent.answered? : ClientEvent → Option Nat
  | .messageAnswered id _ => some id
  | _ => none

namespace Service

/-- The custom messages whose replies are held back or under way. -/
def owes (s : Service) : List Nat :=
  (s.held ++ s.delayed.map (·.delivery)).filterMap (·.message?)

theorem owes_eq (s : Service) :
    s.owes = s.held.filterMap (·.message?) ++ s.delayed.filterMap (·.delivery.message?) := by
  rw [owes, List.filterMap_append, List.filterMap_map]
  rfl

/-- A reply is held back, is under way, or goes back at once. -/
theorem respond_cases (s : Service) (delivery : Delivery) :
    ((s.respond delivery).1 = none ∧ (s.respond delivery).2.held = s.held ++ [delivery] ∧
      (s.respond delivery).2.delayed = s.delayed) ∨
    (∃ afterMs, (s.respond delivery).1 = none ∧ (s.respond delivery).2.held = s.held ∧
      (s.respond delivery).2.delayed = s.delayed ++ [⟨afterMs, delivery⟩]) ∨
    ((s.respond delivery).1 = some delivery ∧ (s.respond delivery).2.held = s.held ∧
      (s.respond delivery).2.delayed = s.delayed) := by
  simp only [respond]
  split
  · exact .inl ⟨rfl, rfl, rfl⟩
  · split
    · exact .inr (.inl ⟨_, rfl, rfl, rfl⟩)
    · exact .inr (.inr ⟨rfl, rfl, rfl⟩)

/-- What a reply that has been accepted is for comes back at once, or it is owed. -/
theorem respond_owes (s : Service) (delivery : Delivery) :
    ((s.respond delivery).1.toList.filterMap (·.message?) ++ (s.respond delivery).2.owes).Perm
      ([delivery].filterMap (·.message?) ++ s.owes) := by
  rcases respond_cases s delivery with ⟨back, held, delayed⟩ | ⟨afterMs, back, held, delayed⟩ |
    ⟨back, held, delayed⟩
  · simp only [owes_eq, back, held, delayed, List.filterMap_append, Option.toList_none,
      List.filterMap_nil, List.nil_append]
    rw [← List.append_assoc]
    exact List.perm_append_comm.append_right _
  · have one : [(⟨afterMs, delivery⟩ : DelayedReply)].filterMap (·.delivery.message?) =
        [delivery].filterMap (·.message?) := rfl
    simp only [owes_eq, back, held, delayed, List.filterMap_append, Option.toList_none,
      List.filterMap_nil, List.nil_append, one]
    rw [← List.append_assoc]
    exact List.perm_append_comm
  · simp only [owes_eq, back, held, delayed, Option.toList_some]
    exact .refl _

/-- A reply that is for no custom message changes nothing that is owed. -/
theorem respond_owes_of_none (s : Service) {delivery : Delivery} (h : delivery.message? = none) :
    (s.respond delivery).2.owes = s.owes := by
  rcases respond_cases s delivery with ⟨-, held, delayed⟩ | ⟨afterMs, -, held, delayed⟩ |
    ⟨-, held, delayed⟩
  all_goals simp [owes_eq, held, delayed, List.filterMap_append, h]

theorem openSession_owes (s : Service) (converter : Bytes) :
    (s.openSession converter).2.owes = s.owes := by
  unfold openSession
  split <;> rfl

theorem apply_owes (s : Service) (request : ServiceRequest) :
    (s.apply request).2.owes = s.owes := by
  cases request with
  | createSession converter => exact openSession_owes _ converter
  | _ =>
    simp only [apply]
    split <;> rfl

theorem request_owes (s : Service) (channel : Nat) (request : ServiceRequest)
    {deliver : RemoteResult → Delivery} (h : ∀ result, (deliver result).message? = none) :
    (s.request channel request deliver).2.owes = s.owes := by
  unfold Service.request
  split
  · exact (respond_owes_of_none _ (h _)).trans (apply_owes s request)
  · exact respond_owes_of_none _ (h _)

/-- A custom message is answered at once, or its reply is owed. -/
theorem customMessage_owes (s : Service) (channel : Nat) (data : Bytes) (id : Nat) :
    ((s.customMessage channel data (.message id)).1.toList.filterMap (·.message?) ++
      (s.customMessage channel data (.message id)).2.owes).Perm (id :: s.owes) := by
  unfold customMessage
  split
  · exact respond_owes s _
  · exact .refl _

theorem deliverDelayed_owes {s s' : Service} {limitMs : Option Nat} {delivery : Delivery}
    (h : s.deliverDelayed? limitMs = some (delivery, s')) :
    ([delivery].filterMap (·.message?) ++ s'.owes).Perm s.owes := by
  simp only [deliverDelayed?] at h
  split at h
  · next i found =>
    obtain ⟨reply, at_, made⟩ := Option.map_eq_some_iff.1 h
    obtain ⟨rfl, rfl⟩ := Prod.mk.inj made
    obtain ⟨inside, rfl⟩ := List.getElem?_eq_some_iff.1 at_
    have parts := (List.getElem_cons_eraseIdx_perm inside).filterMap (·.delivery.message?)
    rw [← List.singleton_append, List.filterMap_append] at parts
    simp only [owes_eq]
    rw [← List.append_assoc]
    refine (List.perm_append_comm.append_right _).trans ?_
    rw [List.append_assoc]
    exact parts.append_left _
  · cases h

end Service

namespace Loopback

/-- The transport of a connection deals with sessions, not with custom messages. -/
theorem endures_owes (owed : List Nat) :
    Connection.Endures fun transport : Loopback => transport.service.owes = owed where
  create transport generation h := by
    simp only [Transport.create]
    split
    · exact h
    · simp only [Service.bind]
      split <;> exact h
  openSession transport channel generation payload h := by
    simp only [Transport.openSession, openSession]
    split
    · split <;> exact h
    · exact (Service.request_owes _ _ _ fun _ => rfl).trans h
  close transport channel h := by
    simp only [Transport.close, Service.unbind]
    split <;> exact h

end Loopback

namespace Exchange

theorem interestIn_owes (x : Exchange) (process : ProcessDescriptor) :
    (x.interestIn process).2.service.owes = x.service.owes := by
  unfold interestIn
  split
  · rfl
  · simp only [cacheInterest, askInterest]
    split <;> rfl

theorem delivers_owes (x : Exchange) (message : EventMessage) :
    (x.delivers message).2.service.owes = x.service.owes := by
  unfold delivers
  split
  · have asked := interestIn_owes x message.process
    simp only
    split <;> exact asked
  · rfl

theorem emitNotify_owes (x : Exchange) (message : EventMessage) :
    (x.emitNotify message).2.service.owes = x.service.owes := by
  have reached := delivers_owes x message
  unfold emitNotify
  split
  · next missed => rwa [missed] at reached
  · next passed =>
    rw [passed] at reached
    split <;> exact reached

theorem cacheResolution_owes (x : Exchange) (key : String × EventType) (resolution : Resolution) :
    (x.cacheResolution key resolution).service.owes = x.service.owes := by
  unfold cacheResolution
  split <;> rfl

theorem emitAuth_owes (x : Exchange) (message : EventMessage) :
    (x.emitAuth message).2.service.owes = x.service.owes := by
  have reached := delivers_owes x message
  unfold emitAuth
  split
  · next missed => rwa [missed] at reached
  · next passed =>
    rw [passed] at reached
    split
    · exact reached
    · split
      · exact reached
      · split
        · exact (cacheResolution_owes _ _ _).trans reached
        · exact reached

theorem sendCustom_owes (x : Exchange) (data : Bytes) :
    (x.sendCustom data).2.service.owes = x.service.owes := by
  unfold sendCustom
  split
  · split <;> rfl
  · rfl

end Exchange

namespace Client

variable {η : Type}

/-- The custom messages whose completions have run, in this order. -/
def answered (c : Client η) : List Nat := c.trace.filterMap (·.answered?)

/-- No custom message is sent, and none is answered. -/
structure Quiet (c c' : Client η) : Prop where
  answered : c'.answered = c.answered
  owes : c'.service.owes = c.service.owes
  messages : c'.messages = c.messages

theorem Quiet.refl (c : Client η) : Quiet c c := ⟨rfl, rfl, rfl⟩

theorem Quiet.trans {c d e : Client η} (h : Quiet c d) (h' : Quiet d e) : Quiet c e where
  answered := h'.answered.trans h.answered
  owes := h'.owes.trans h.owes
  messages := h'.messages.trans h.messages

theorem relay_quiet (c : Client η) : Quiet c c.relay where
  answered := by
    have none_ : (c.connection.trace.map ClientEvent.connection).filterMap (·.answered?) = [] := by
      rw [List.filterMap_map]
      exact List.filterMap_eq_nil_iff.2 fun _ _ => rfl
    rw [answered, relay_trace, List.filterMap_append, none_, List.append_nil]
    rfl
  owes := by
    rw [service, relay_connection]
    rfl
  messages := relay_messages c

theorem follow_quiet (c : Client η) (operation : Connection.Operation Loopback)
    (own : operation.isOwn = true) : Quiet c (c.follow operation) := by
  have kept := (Loopback.endures_owes c.service.owes).perform (c := c.connection) rfl own
  have moved : Quiet c { c with connection := c.connection.perform operation } := ⟨rfl, kept, rfl⟩
  exact moved.trans (relay_quiet _)

theorem withService_quiet (c : Client η) {service : Service} (h : service.owes = c.service.owes) :
    Quiet c (c.withService service) := ⟨rfl, h, rfl⟩

/-- The answer to a custom message is on record once its reply is delivered. -/
structure Answers (c c' : Client η) (replies : List Nat) : Prop where
  answered : c'.answered = c.answered ++ replies
  owes : c'.service.owes = c.service.owes
  messages : c'.messages = c.messages

theorem Quiet.answers {c c' : Client η} (h : Quiet c c') : Answers c c' [] :=
  ⟨h.answered.trans (List.append_nil _).symm, h.owes, h.messages⟩

theorem note_answers (c : Client η) (event : ClientEvent) :
    Answers c (c.note event) ([event].filterMap (·.answered?)) where
  answered := List.filterMap_append
  owes := rfl
  messages := rfl

theorem deliver_answers (c : Client η) (delivery : Delivery) :
    Answers c (c.deliver delivery) ([delivery].filterMap (·.message?)) := by
  cases delivery with
  | session generation result =>
    exact (follow_quiet c (.receive (.sessionReply generation result)) rfl).answers
  | call id result => exact Quiet.answers ⟨rfl, rfl, rfl⟩
  | message id result => exact note_answers c _
  | foreign result | foreignMessage result => exact (Quiet.refl c).answers

theorem foldl_deliver_answers (c : Client η) (deliveries : List Delivery) :
    Answers c (deliveries.foldl deliver c) (deliveries.filterMap (·.message?)) := by
  induction deliveries generalizing c with
  | nil => exact (Quiet.refl c).answers
  | cons delivery deliveries ih =>
    have first := deliver_answers c delivery
    have others := ih (c.deliver delivery)
    refine ⟨?_, others.owes.trans first.owes, others.messages.trans first.messages⟩
    rw [List.foldl_cons, others.answered, first.answered, ← List.singleton_append (l := deliveries),
      List.filterMap_append, List.append_assoc]

/-! ### Operations -/

theorem send_quiet (c : Client η) (call : Nat) (request : ServiceRequest) :
    Quiet c (c.send call request) := by
  simp only [send]
  split
  · exact ⟨rfl, rfl, rfl⟩
  · next channel usable =>
    have kept : (c.connection.transport.request channel call request).2.service.owes =
        c.service.owes := by
      unfold Loopback.request
      split
      · split <;> rfl
      · exact Service.request_owes _ _ _ fun _ => rfl
    split <;> exact ⟨rfl, kept, rfl⟩

theorem beginCall_quiet (c : Client η) (thread : Nat) (request : ServiceRequest) :
    Quiet c ((c.beginCall thread request).after c) := by
  unfold beginCall
  cases c.bridge.enter thread c.timeoutMs with
  | rejected | waiting holder => exact .refl c
  | started call bridge =>
    have entered : Quiet c { c with bridge, sentOn := none } := ⟨rfl, rfl, rfl⟩
    exact entered.trans (send_quiet _ call request)

theorem finishCall_quiet (c : Client η) (call : Nat) :
    Quiet c (((c.finishCall call).map (·.2)).getD c) := by
  unfold finishCall
  cases c.bridge.leave call with
  | none => exact .refl c
  | some left => exact ⟨rfl, rfl, rfl⟩

theorem beginActivate_quiet (c : Client η) (thread : Nat) :
    Quiet c ((c.beginActivate thread).after c) := by
  have follows := follow_quiet c (.beginConnect thread c.timeoutMs) rfl
  unfold beginActivate
  cases begins : c.connection.beginConnect thread c.timeoutMs with
  | rejected | waiting holder => exact .refl c
  | started call connection => rwa [follow_beginConnect begins] at follows

theorem finishActivate_quiet (c : Client η) (call : Nat) :
    Quiet c (((c.finishActivate call).map (·.2)).getD c) := by
  have follows := follow_quiet c (.finishConnect call) rfl
  unfold finishActivate
  cases finishes : c.connection.finishConnect call with
  | none => exact .refl c
  | some finished => rwa [follow_finishConnect finishes] at follows

theorem interrupt_quiet (c : Client η) : Quiet c c.interrupt.2 := by
  unfold interrupt
  cases binding : c.service.interrupt with
  | mk generation? service =>
    have kept : service.owes = c.service.owes :=
      congrArg (·.2.owes) binding.symm
    cases generation? with
    | none => exact .refl c
    | some generation =>
      exact (withService_quiet c kept).trans
        (follow_quiet _ (.receive (.lost generation)) rfl)

theorem startJob_quiet (c : Client η) : Quiet c ((c.startJob?.map (·.2)).getD c) := by
  unfold startJob?
  cases c.stateQueue.start? with
  | none => exact .refl c
  | some started =>
    obtain ⟨job, queue⟩ := started
    cases job with
    | handle handler outcome =>
      have noted := note_answers { c with stateQueue := queue } (.handled outcome)
      exact ⟨noted.answered.trans (List.append_nil _), rfl, rfl⟩
    | complete id outcome =>
      have noted := note_answers { c with stateQueue := queue } (.completed id outcome)
      exact ⟨noted.answered.trans (List.append_nil _), rfl, rfl⟩

theorem configure_quiet (c : Client η) (setting : Setting η) : Quiet c (c.configure setting) := by
  cases setting <;> exact ⟨rfl, rfl, rfl⟩

/-- Whether custom messages are sent or answered. -/
def Operation.isMessaging : Operation η → Bool
  | .sendCustom _ | .releaseHeld | .deliverDelayed _ => true
  | _ => false

theorem perform_quiet (c : Client η) (operation : Operation η)
    (other : operation.isMessaging = false) : Quiet c (c.perform operation) := by
  cases operation with
  | sendCustom data | releaseHeld | deliverDelayed limitMs => cases other
  | beginCall thread control =>
    cases asked : control.request c.codec with
    | error error =>
      simp only [perform, asked]
      exact .refl c
    | ok request =>
      simp only [perform, asked]
      exact beginCall_quiet c thread request
  | finishCall call => exact finishCall_quiet c call
  | beginActivate thread => exact beginActivate_quiet c thread
  | expireActivate call => exact follow_quiet c (.expireConnect call) rfl
  | finishActivate call => exact finishActivate_quiet c call
  | activateWith =>
    have numbered : Quiet c { c with activations := c.activations + 1 } := ⟨rfl, rfl, rfl⟩
    exact numbered.trans (follow_quiet _ (.connectWith c.activations) rfl)
  | invalidate =>
    exact .trans (follow_quiet c .invalidate rfl) ⟨rfl, rfl, rfl⟩
  | configure setting => exact configure_quiet c setting
  | startJob => exact startJob_quiet c
  | fire t => exact follow_quiet c (.fire t) rfl
  | wait ms => exact follow_quiet c (.wait ms) rfl
  | interrupt => exact interrupt_quiet c
  | configureService setting =>
    refine withService_quiet c ?_
    cases setting <;> rfl
  | emitNotify message => exact ⟨rfl, Exchange.emitNotify_owes c.exchange message, rfl⟩
  | emitAuth message => exact ⟨rfl, Exchange.emitAuth_owes c.exchange message, rfl⟩
  | customToClient data => exact ⟨rfl, Exchange.sendCustom_owes c.exchange data, rfl⟩
  | expireCall call | finishJob | resolveKept resolution => exact ⟨rfl, rfl, rfl⟩

/-- Each custom message is answered or its reply is owed, once. -/
def Settled (c : Client η) : Prop :=
  (c.answered ++ c.service.owes).Perm (List.range c.messages)

theorem Settled.of_quiet {c c' : Client η} (h : Settled c) (quiet : Quiet c c') : Settled c' := by
  rw [Settled, quiet.answered, quiet.owes, quiet.messages]
  exact h

theorem sendCustom_messages (c : Client η) (data : Bytes) :
    (c.sendCustom data).messages = c.messages + 1 := by
  simp only [sendCustom]
  split
  · rfl
  · exact (foldl_deliver_answers _ _).messages

/-- What comes back from the service is answered on the spot. -/
theorem delivered_balance (c : Client η) (service : Service) (deliveries : List Delivery) :
    (deliveries.foldl deliver (c.withService service)).answered ++
        (deliveries.foldl deliver (c.withService service)).service.owes =
      c.answered ++ (deliveries.filterMap (·.message?) ++ service.owes) := by
  have answers := foldl_deliver_answers (c.withService service) deliveries
  rw [answers.answered, answers.owes, List.append_assoc]
  rfl

theorem Settled.sendCustom {c : Client η} (h : Settled c) (data : Bytes) :
    Settled (c.sendCustom data) := by
  rw [Settled, sendCustom_messages, List.range_succ]
  refine List.Perm.trans ?_ (h.append_right [c.messages])
  rw [List.append_assoc]
  simp only [Client.sendCustom]
  split
  · have noted := note_answers { c with messages := c.messages + 1 }
      (.messageAnswered c.messages
        (.error ({ c with messages := c.messages + 1 } : Client η).disconnectedError))
    rw [noted.answered, noted.owes, List.append_assoc]
    exact List.perm_append_comm.append_left _
  · next channel usable =>
    rw [delivered_balance]
    refine List.Perm.append_left _ ?_
    exact (Service.customMessage_owes _ _ _ _).trans (List.perm_append_singleton _ _).symm

theorem Settled.releaseHeld {c : Client η} (h : Settled c) : Settled c.releaseHeld.2 := by
  have messages : c.releaseHeld.2.messages = c.messages := (foldl_deliver_answers _ _).messages
  rw [Settled, messages]
  refine List.Perm.trans ?_ h
  simp only [Client.releaseHeld]
  rw [delivered_balance]
  refine List.Perm.append_left _ ?_
  simp only [Service.owes_eq, Service.releaseHeld, List.filterMap_nil, List.nil_append]
  exact .refl _

theorem Settled.deliverDelayed {c : Client η} (h : Settled c) (limitMs : Option Nat) :
    Settled ((c.deliverDelayed? limitMs).getD c) := by
  unfold deliverDelayed?
  cases due : c.service.deliverDelayed? limitMs with
  | none => exact h
  | some delivered =>
    obtain ⟨delivery, service⟩ := delivered
    have answers := foldl_deliver_answers (c.withService service) [delivery]
    have balance := delivered_balance c service [delivery]
    simp only [List.foldl_cons, List.foldl_nil] at answers balance
    simp only [Option.map_some, Option.getD_some]
    rw [Settled, balance, answers.messages]
    exact ((Service.deliverDelayed_owes due).append_left _).trans h

theorem Settled.perform {c : Client η} (h : Settled c) (operation : Operation η) :
    Settled (c.perform operation) := by
  cases operation with
  | sendCustom data => exact h.sendCustom data
  | releaseHeld => exact h.releaseHeld
  | deliverDelayed limitMs => exact h.deliverDelayed limitMs
  | _ => exact h.of_quiet (perform_quiet c _ rfl)

theorem settled_performAll (config : ClientConfig) (serviceCodec : Codec)
    (operations : List (Operation η)) :
    Settled ((ofNewService config serviceCodec : Client η).performAll operations) := by
  have new : Settled (ofNewService config serviceCodec : Client η) := .refl _
  exact performAll_invariant (fun _ operation settled => settled.perform operation) new operations

/-- What takes a channel out of use answers no custom message. -/
theorem quiet_of_ended {c : Client η} {generation channel : Nat}
    (uses : c.connection.Uses generation channel) {operation : Operation η}
    (ended : ¬ (c.perform operation).connection.Uses generation channel) :
    Quiet c (c.perform operation) := by
  have calm : operation.isMessaging = true → Calm c (c.perform operation) := by
    intro messaging
    cases operation with
    | sendCustom data => exact sendCustom_calm c data
    | releaseHeld => exact (withService_calm c _).trans (foldl_deliver_calm _ _)
    | deliverDelayed limitMs => exact deliverDelayed_calm c limitMs
    | _ => cases messaging
  cases messaging : operation.isMessaging with
  | false => exact perform_quiet c operation messaging
  | true => exact absurd ((calm messaging).uses generation channel uses) ended

/-- The completion of a custom message runs once: when its reply arrives, or at once without a
channel. The end of a channel runs none, so a message is answered by then exactly if the service
does not owe its reply any more. -/
theorem custom_messages_answered (config : ClientConfig) (serviceCodec : Codec)
    (operations : List (Operation η)) :
    let c := (ofNewService config serviceCodec : Client η).performAll operations
    c.answered.Nodup ∧
    (∀ id, id < c.messages ↔ id ∈ c.answered ∨ id ∈ c.service.owes) ∧
    (∀ id < c.messages, id ∈ c.answered ↔ id ∉ c.service.owes) ∧
    (∀ data, (c.perform (.sendCustom data)).messages = c.messages + 1) ∧
    ∀ generation channel, c.connection.Uses generation channel →
      ∀ operation, ¬ (c.perform operation).connection.Uses generation channel →
        ∀ id < c.messages, id ∈ (c.perform operation).answered ↔ id ∉ c.service.owes := by
  intro c
  have settled : Settled c := settled_performAll config serviceCodec operations
  obtain ⟨once, -, disjoint⟩ :=
    List.nodup_append.1 (settled.nodup_iff.2 (List.nodup_range (n := c.messages)))
  have known : ∀ id, id < c.messages ↔ id ∈ c.answered ∨ id ∈ c.service.owes := by
    intro id
    rw [← List.mem_append, settled.mem_iff, List.mem_range]
  have apart : ∀ id < c.messages, id ∈ c.answered ↔ id ∉ c.service.owes := by
    intro id sent
    refine ⟨fun answered owed => ?_, ((known id).1 sent).resolve_right⟩
    exact disjoint id answered id owed rfl
  refine ⟨once, known, apart, sendCustom_messages c, ?_⟩
  intro generation channel uses operation ended id sent
  rw [(quiet_of_ended uses ended).answered]
  exact apart id sent

/-- One message is answered, and the reply to the next is kept back, before the channel breaks. -/
theorem answered_before_interruption :
    let c := (ofNewService .default .default : Client Unit).performAll
      [.activateWith, .sendCustom [97], .configureService (.unresponsive true), .sendCustom [98]]
    0 ∈ (c.perform .interrupt).answered ∧ 1 ∉ (c.perform .interrupt).answered := by
  intro c
  obtain ⟨-, -, -, -, ends⟩ := custom_messages_answered .default .default
    [.activateWith, .sendCustom [97], .configureService (.unresponsive true), .sendCustom [98]]
  have uses : c.connection.Uses 1 1 := ⟨rfl, rfl, rfl⟩
  have ended : ¬ (c.perform .interrupt).connection.Uses 1 1 := fun up => nomatch up.channel
  have answered := ends 1 1 uses .interrupt ended
  have owed : c.service.owes = [1] := rfl
  have sent : c.messages = 2 := rfl
  rw [owed, sent] at answered
  exact ⟨(answered 0 (by decide)).2 (by decide),
    fun late => (answered 1 (by decide)).1 late (by decide)⟩

/-- A channel breaks, or is torn down, while the service keeps the reply to a custom message. -/
theorem message_unanswered_after_loss :
    let c := (ofNewService .default .default : Client Unit).performAll
      [.activateWith, .configureService (.unresponsive true)]
    let sent := c.perform (.sendCustom [97])
    c.connection.proxy? = some 1 ∧ sent.messages = 1 ∧ sent.connection.proxy? = some 1 ∧
      (sent.perform .interrupt).state = .interrupted ∧ (sent.perform .interrupt).answered = [] ∧
      (sent.perform .invalidate).state = .invalidated ∧
      (sent.perform .invalidate).answered = [] :=
  ⟨rfl, rfl, rfl, rfl, rfl, rfl, rfl⟩

end Client

end EndpointMonitor
