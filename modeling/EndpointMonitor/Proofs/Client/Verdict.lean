import EndpointMonitor.Proofs.Service.Operation

/-!
What decides the blocked calls of a client: the loss of the channel, the deadline, or the reply that
the service has had for the call since the moment at which its request arrived. No operation brings
anything else.
-/

namespace EndpointMonitor

namespace Bridge

variable {α : Type} {b : Bridge α} {call other : Nat} {result verdict : Except ClientError α}

theorem decided_of_failPending {error : ClientError}
    (h : (b.failPending error).2.outcome? other = some verdict) :
    b.outcome? other = some verdict ∨ verdict = .error error := by
  unfold failPending at h
  split at h
  · exact (decided_of_settle h).imp_right (·.2)
  · exact .inl h

theorem deadlines_occupy (b : Bridge α) (thread : Nat) (timeoutMs : UInt64) :
    b.calls.map (·.timeoutMs) <+: (b.occupy thread timeoutMs).calls.map (·.timeoutMs) := by
  simp [occupy]

theorem decided_of_occupy {thread : Nat} {timeoutMs : UInt64}
    (h : (b.occupy thread timeoutMs).outcome? call = some result) :
    b.outcome? call = some result := by
  have known : call < b.calls.length + 1 := by simpa [occupy] using lt_of_decided h
  by_cases newest : call = b.calls.length
  · rw [newest, outcome_occupy_self] at h
    cases h
  · have begun : call < b.calls.length := by omega
    rwa [outcome_occupy begun] at h

/-- A call keeps its number and its deadline. -/
theorem HasCall.of_prefix {b b' : Bridge α} {timeoutMs : UInt64} (h : b.HasCall call timeoutMs)
    (grows : b.calls.map (·.timeoutMs) <+: b'.calls.map (·.timeoutMs)) :
    b'.HasCall call timeoutMs := by
  obtain ⟨more, grown⟩ := grows
  have known : call < (b.calls.map (·.timeoutMs)).length := by simpa using h.lt
  rw [HasCall, ← grown, List.getElem?_append_left known]
  exact h

end Bridge

/-- Whether a reply is for a blocked call. -/
def Delivery.isCall : Delivery → Bool
  | .call _ _ => true
  | .session _ _ | .message _ _ | .foreign _ | .foreignMessage _ => false

namespace Service

/-- The replies that are held back or under way. -/
def pending (s : Service) : List Delivery := s.held ++ s.delayed.map (·.delivery)

/-- No reply to a blocked call has been added. -/
def AddsNone (s s' : Service) : Prop :=
  ∀ call result, .call call result ∈ s'.pending → .call call result ∈ s.pending

theorem AddsNone.refl (s : Service) : AddsNone s s := fun _ _ h => h

theorem AddsNone.trans {s t u : Service} (h : AddsNone s t) (h' : AddsNone t u) : AddsNone s u :=
  fun call result later => h call result (h' call result later)

theorem AddsNone.of_eq {s s' : Service} (h : s'.pending = s.pending) : AddsNone s s' :=
  fun _ _ mem => h ▸ mem

/-- Of the replies that are pending after one was accepted, that one is the only new one. -/
theorem mem_pending_respond {s : Service} {delivery other : Delivery}
    (h : other ∈ (s.respond delivery).2.pending) : other ∈ s.pending ∨ other = delivery := by
  unfold pending at h ⊢
  rcases respond_cases s delivery with ⟨-, held, delayed⟩ | ⟨afterMs, -, held, delayed⟩ |
    ⟨-, held, delayed⟩
  all_goals
    rw [held, delayed] at h
    simp only [List.map_append, List.map_cons, List.map_nil, List.mem_append, List.mem_cons,
      List.not_mem_nil, or_false] at h ⊢
    tauto

/-- A reply that does not go back at once is pending. -/
theorem mem_pending_of_late {s : Service} (late : s.isPrompt = false) (delivery : Delivery) :
    delivery ∈ (s.respond delivery).2.pending := by
  have back := respond_reply s delivery
  unfold pending
  rcases respond_cases s delivery with ⟨-, held, -⟩ | ⟨afterMs, -, -, delayed⟩ | ⟨now, -, -⟩
  · rw [held]
    exact List.mem_append_left _ List.mem_concat_self
  · rw [delayed, List.map_append]
    exact List.mem_append_right _ (List.mem_append_right _ List.mem_cons_self)
  · rw [now, late] at back
    cases back

theorem served_pending (s : Service) (channel : Nat) (request : ServiceRequest) :
    (s.served channel request).pending = s.pending := by
  unfold served
  split
  · cases request with
    | createSession converter =>
      simp only [apply, openSession]
      split <;> rfl
    | _ =>
      simp only [apply]
      split <;> rfl
  · rfl

theorem respond_addsNone (s : Service) {delivery : Delivery} (other : delivery.isCall = false) :
    AddsNone s (s.respond delivery).2 := by
  intro call result later
  rcases mem_pending_respond later with before | rfl
  · exact before
  · cases other

theorem customMessage_addsNone (s : Service) (channel : Nat) (data : Bytes) (id : Nat) :
    AddsNone s (s.customMessage channel data (.message id)).2 := by
  unfold customMessage
  split
  · exact respond_addsNone s rfl
  · exact .refl s

theorem deliverDelayed_pending {s s' : Service} {limitMs : Option Nat} {delivery : Delivery}
    (h : s.deliverDelayed? limitMs = some (delivery, s')) :
    delivery ∈ s.pending ∧ AddsNone s s' := by
  simp only [deliverDelayed?] at h
  split at h
  · next i found =>
    obtain ⟨reply, at_, made⟩ := Option.map_eq_some_iff.1 h
    obtain ⟨rfl, rfl⟩ := Prod.mk.inj made
    refine ⟨List.mem_append_right _ (List.mem_map_of_mem (List.mem_of_getElem? at_)), ?_⟩
    intro call result later
    rcases List.mem_append.1 later with held | delayed
    · exact List.mem_append_left _ held
    · obtain ⟨other, mem, same⟩ := List.mem_map.1 delayed
      exact List.mem_append_right _ (List.mem_map.2 ⟨other, List.mem_of_mem_eraseIdx mem, same⟩)
  · cases h

end Service

/-- The transport of a connection deals with sessions, not with blocked calls. -/
theorem Loopback.endures_addsNone (s : Service) :
    Connection.Endures fun transport : Loopback => s.AddsNone transport.service where
  create transport generation h := by
    simp only [Transport.create]
    split
    · exact h
    · simp only [Service.bind]
      split <;> exact h
  openSession transport channel generation payload h := by
    simp only [Transport.openSession, openSession]
    split
    · split <;> exact h
    · rw [Service.request_eq]
      exact h.trans (.trans (.of_eq (Service.served_pending _ _ _))
        (Service.respond_addsNone _ rfl))
  close transport channel h := by
    simp only [Transport.close, Service.unbind]
    split <;> exact h

namespace Client

variable {η : Type}

/-- A control request that can go out now, and what the service answers to it. -/
structure Issues (c : Client η) (request : ServiceRequest) (channel : Nat) : Prop where
  made : ∃ control : Control, control.request c.codec = .ok request
  usable : c.connection.proxy? = some channel

/-- What can decide a call that has begun, or that begins now. -/
inductive Verdict (c : Client η) (call : Nat) : Except ClientError ServiceReply → Prop where
  | lost : Verdict c call (.error .notConnected)
  | expired {timeoutMs : UInt64} (known : c.bridge.HasCall call timeoutMs) :
    Verdict c call (.error (.timeout timeoutMs))
  | replied {result : RemoteResult} (pending : .call call result ∈ c.service.pending) :
    Verdict c call (result.mapError .remote)
  | refused (begins : call = c.bridge.calls.length) : Verdict c call (.error c.disconnectedError)
  | answered {request : ServiceRequest} {channel : Nat} (begins : call = c.bridge.calls.length)
    (issues : c.Issues request channel) :
    Verdict c call ((c.service.answer channel request).mapError .remote)

/-- What an operation can do to blocked calls and to replies that are for them. -/
structure Follows (c c' : Client η) : Prop where
  deadlines : c.bridge.calls.map (·.timeoutMs) <+: c'.bridge.calls.map (·.timeoutMs)
  decided : ∀ call result, c'.bridge.outcome? call = some result →
    c.bridge.outcome? call = some result ∨ c.Verdict call result
  pending : ∀ call result, .call call result ∈ c'.service.pending →
    .call call result ∈ c.service.pending ∨
      call = c.bridge.calls.length ∧ call < c'.bridge.calls.length ∧
        ∃ request channel, c.Issues request channel ∧ result = c.service.answer channel request

/-- An operation that has no reply for a call can decide it by the loss of the channel only. -/
structure Spares (c c' : Client η) : Prop where
  deadlines : c'.bridge.calls.map (·.timeoutMs) = c.bridge.calls.map (·.timeoutMs)
  decided : ∀ call result, c'.bridge.outcome? call = some result →
    c.bridge.outcome? call = some result ∨ result = .error .notConnected
  pending : c.service.AddsNone c'.service

theorem Spares.refl (c : Client η) : Spares c c := ⟨rfl, fun _ _ => .inl, .refl _⟩

theorem Spares.trans {c d e : Client η} (h : Spares c d) (h' : Spares d e) : Spares c e where
  deadlines := h'.deadlines.trans h.deadlines
  decided call result later :=
    (h'.decided call result later).elim (h.decided call result) .inr
  pending := h.pending.trans h'.pending

theorem Spares.follows {c c' : Client η} (h : Spares c c') : Follows c c' where
  deadlines := h.deadlines ▸ List.prefix_refl _
  decided call result later := by
    rcases h.decided call result later with before | rfl
    · exact .inl before
    · exact .inr .lost
  pending call result later := .inl (h.pending call result later)

theorem Spares.of_same {c c' : Client η} (bridge : c'.bridge = c.bridge)
    (pending : c.service.AddsNone c'.service) : Spares c c' where
  deadlines := by rw [bridge]
  decided _ _ later := .inl (bridge ▸ later)
  pending := pending

theorem Follows.of_same {c c' : Client η} (bridge : c'.bridge = c.bridge)
    (pending : c.service.AddsNone c'.service) : Follows c c' := (Spares.of_same bridge pending).follows

/-! ### What spares calls -/

theorem failPending_spares (c : Client η) : Spares c c.failPending where
  deadlines := (Bridge.failPending_advances _ _).deadlines
  decided _ _ later := Bridge.decided_of_failPending later
  pending := .refl _

theorem relay_spares (c : Client η) : Spares c c.relay where
  deadlines := (relay_advances c).deadlines
  decided call result later := by
    rw [relay_bridge] at later
    split at later
    · exact Bridge.decided_of_failPending later
    · exact .inl later
  pending := by
    rw [relay_service]
    exact .refl _

theorem follow_spares (c : Client η) (operation : Connection.Operation Loopback)
    (own : operation.isOwn = true) : Spares c (c.follow operation) := by
  have kept := (Loopback.endures_addsNone c.service).perform (c := c.connection) (.refl _) own
  have moved : Spares c { c with connection := c.connection.perform operation } :=
    .of_same rfl kept
  exact moved.trans (relay_spares _)

theorem withService_spares (c : Client η) {service : Service} (h : c.service.AddsNone service) :
    Spares c (c.withService service) := .of_same rfl h

theorem beginActivate_spares (c : Client η) (thread : Nat) :
    Spares c ((c.beginActivate thread).after c) := by
  have follows := follow_spares c (.beginConnect thread c.timeoutMs) rfl
  unfold beginActivate
  cases begins : c.connection.beginConnect thread c.timeoutMs with
  | rejected | waiting holder => exact .refl c
  | started call connection => rwa [follow_beginConnect begins] at follows

theorem finishActivate_spares (c : Client η) (call : Nat) :
    Spares c (((c.finishActivate call).map (·.2)).getD c) := by
  have follows := follow_spares c (.finishConnect call) rfl
  unfold finishActivate
  cases finishes : c.connection.finishConnect call with
  | none => exact .refl c
  | some finished => rwa [follow_finishConnect finishes] at follows

theorem interrupt_spares (c : Client η) : Spares c c.interrupt.2 := by
  unfold interrupt
  cases binding : c.service.interrupt with
  | mk generation? service =>
    have kept : service.pending = c.service.pending := congrArg (·.2.pending) binding.symm
    cases generation? with
    | none => exact .refl c
    | some generation =>
      exact (withService_spares c (.of_eq kept)).trans
        (follow_spares _ (.receive (.lost generation)) rfl)

theorem startJob_spares (c : Client η) : Spares c ((c.startJob?.map (·.2)).getD c) := by
  unfold startJob?
  cases c.stateQueue.start? with
  | none => exact .refl c
  | some started =>
    obtain ⟨job, queue⟩ := started
    cases job <;> exact .of_same rfl (.refl _)

theorem configure_spares (c : Client η) (setting : Setting η) : Spares c (c.configure setting) := by
  cases setting <;> exact .of_same rfl (.refl _)

theorem withExchange_spares (c : Client η) {x : Exchange} (h : c.service.Remembers x.service) :
    Spares c (c.withExchange x) := by
  obtain ⟨interest, resolutions, made⟩ := h
  refine .of_same rfl (.of_eq ?_)
  have same : x.service.pending = c.service.pending := by rw [made]; rfl
  exact same

/-! ### Replies that arrive -/

/-- A reply decides the call that it is for. -/
theorem deliver_decided (c : Client η) (delivery : Delivery) {call : Nat}
    {result : Except ClientError ServiceReply}
    (later : (c.deliver delivery).bridge.outcome? call = some result) :
    c.bridge.outcome? call = some result ∨ result = .error .notConnected ∨
      ∃ reply, delivery = .call call reply ∧ result = reply.mapError .remote := by
  cases delivery with
  | session generation reply =>
    have spares := follow_spares c (.receive (.sessionReply generation reply)) rfl
    exact (spares.decided call result later).imp_right .inl
  | call id reply =>
    rcases Bridge.decided_of_settle later with before | ⟨rfl, now⟩
    · exact .inl before
    · exact .inr (.inr ⟨reply, rfl, now⟩)
  | message id reply => exact .inl later
  | foreign reply | foreignMessage reply => exact .inl later

theorem deliver_keeps (c : Client η) (delivery : Delivery) :
    (c.deliver delivery).bridge.calls.map (·.timeoutMs) = c.bridge.calls.map (·.timeoutMs) ∧
      c.service.AddsNone (c.deliver delivery).service := by
  cases delivery with
  | session generation reply =>
    have spares := follow_spares c (.receive (.sessionReply generation reply)) rfl
    exact ⟨spares.deadlines, spares.pending⟩
  | call id reply => exact ⟨(Bridge.settle_advances _ _ _).deadlines, .refl _⟩
  | message id reply => exact ⟨rfl, .refl _⟩
  | foreign reply | foreignMessage reply => exact ⟨rfl, .refl _⟩

/-- Replies that were pending are delivered. -/
theorem Follows.foldl_deliver {c d : Client η} (h : Follows c d) {deliveries : List Delivery}
    (owed : ∀ call result, .call call result ∈ deliveries →
      .call call result ∈ c.service.pending) : Follows c (deliveries.foldl deliver d) := by
  induction deliveries generalizing d with
  | nil => exact h
  | cons delivery deliveries ih =>
    obtain ⟨deadlines, pending⟩ := deliver_keeps d delivery
    have length : (d.deliver delivery).bridge.calls.length = d.bridge.calls.length := by
      simpa using congrArg List.length deadlines
    have first : Follows c (d.deliver delivery) := by
      refine ⟨deadlines ▸ h.deadlines, fun call result later => ?_, fun call result later => ?_⟩
      swap
      · rw [length]
        exact h.pending call result (pending call result later)
      rcases deliver_decided d delivery later with before | rfl | ⟨reply, rfl, rfl⟩
      · exact h.decided call result before
      · exact .inr .lost
      · exact .inr (.replied (owed call reply List.mem_cons_self))
    exact ih first fun call result mem => owed call result (List.mem_cons_of_mem _ mem)

/-! ### Operations -/

/-- The client with a new call that has the bridge and has sent nothing so far. -/
def entered (c : Client η) (thread : Nat) : Client η :=
  { c with bridge := c.bridge.occupy thread c.timeoutMs, sentOn := none }

theorem entered_length (c : Client η) (thread : Nat) :
    (c.entered thread).bridge.calls.length = c.bridge.calls.length + 1 :=
  List.length_append

/-- The client after a request of its call has arrived at the service: a prompt reply decides the
call. -/
def asked (c : Client η) (call channel : Nat) (request : ServiceRequest) : Client η :=
  let answer := c.service.answer channel request
  { c.withService ((c.service.served channel request).respond (.call call answer)).2 with
    bridge :=
      if c.service.isPrompt then (c.bridge.settle call (answer.mapError .remote)).2 else c.bridge
    sentOn := some channel }

theorem send_eq_asked {c : Client η} (open_ : c.connection.transport.interception = none)
    {channel : Nat} (usable : c.connection.proxy? = some channel) (call : Nat)
    (request : ServiceRequest) : c.send call request = c.asked call channel request := by
  have sent := Loopback.request_eq open_ channel call request
  cases prompt : c.service.isPrompt with
  | true =>
    rw [service] at prompt
    simp only [send, usable, sent, asked, service, prompt]
    rfl
  | false =>
    rw [service] at prompt
    simp only [send, usable, sent, asked, service, prompt]
    rfl

theorem asked_deadlines (c : Client η) (call channel : Nat) (request : ServiceRequest) :
    (c.asked call channel request).bridge.calls.map (·.timeoutMs) =
      c.bridge.calls.map (·.timeoutMs) := by
  rw [asked]
  split
  · exact (Bridge.settle_advances _ _ _).deadlines
  · rfl

theorem send_eq_complete {c : Client η} (unusable : c.connection.proxy? = none) (call : Nat)
    (request : ServiceRequest) :
    c.send call request = c.complete call (.error c.disconnectedError) := by
  simp only [send, unusable]

/-- The request of a new call goes out over the channel in use, or the call is refused. -/
theorem send_follows {c : Client η} (open_ : c.connection.transport.interception = none)
    (thread : Nat) {request : ServiceRequest}
    (made : ∃ control : Control, control.request c.codec = .ok request) :
    Follows c ((c.entered thread).send c.bridge.calls.length request) := by
  have settles : ∀ (result : Except ClientError ServiceReply),
      c.Verdict c.bridge.calls.length result → ∀ other verdict,
      ((c.entered thread).bridge.settle c.bridge.calls.length result).2.outcome? other =
        some verdict → c.bridge.outcome? other = some verdict ∨ c.Verdict other verdict := by
    intro result valid other verdict later
    rcases Bridge.decided_of_settle later with before | ⟨rfl, rfl⟩
    · exact .inl (Bridge.decided_of_occupy before)
    · exact .inr valid
  have longer := c.bridge.deadlines_occupy thread c.timeoutMs
  cases usable : c.connection.proxy? with
  | none =>
    rw [send_eq_complete (c := c.entered thread) usable]
    refine ⟨?_, settles _ (.refused rfl), fun _ _ => .inl⟩
    exact (Bridge.settle_advances (c.entered thread).bridge _ _).deadlines ▸ longer
  | some channel =>
    have issues : c.Issues request channel := ⟨made, usable⟩
    have deadlines := (c.entered thread).asked_deadlines c.bridge.calls.length channel request
    rw [send_eq_asked (c := c.entered thread) open_ usable]
    refine ⟨deadlines ▸ longer, fun other verdict later => ?_, fun call result later => ?_⟩
    · rw [asked] at later
      split at later
      · exact settles _ (.answered rfl issues) other verdict later
      · exact .inl (Bridge.decided_of_occupy later)
    · rcases Service.mem_pending_respond later with before | new
      · rw [Service.served_pending] at before
        exact .inl before
      · cases new
        have length := congrArg List.length deadlines
        simp only [List.length_map, entered_length] at length
        exact .inr ⟨rfl, length ▸ Nat.lt_succ_self _, request, channel, issues, rfl⟩

/-- A thread that is let in opens a new call. -/
theorem beginCall_follows {c : Client η} (open_ : c.connection.transport.interception = none)
    (thread : Nat) {request : ServiceRequest}
    (made : ∃ control : Control, control.request c.codec = .ok request) :
    Follows c ((c.beginCall thread request).after c) := by
  unfold beginCall
  cases entry : c.bridge.enter thread c.timeoutMs with
  | rejected | waiting holder => exact (Spares.refl c).follows
  | started call entered =>
    obtain ⟨-, -, rfl, rfl⟩ := Bridge.enter_eq_started entry
    exact send_follows open_ thread made

theorem finishCall_follows (c : Client η) (call : Nat) :
    Follows c (((c.finishCall call).map (·.2)).getD c) := by
  unfold finishCall
  cases leaves : c.bridge.leave call with
  | none => exact (Spares.refl c).follows
  | some left =>
    obtain ⟨result, bridge⟩ := left
    obtain ⟨-, -, rfl⟩ := Bridge.leave_eq_some leaves
    exact ⟨List.prefix_refl _, fun _ _ => .inl, fun _ _ => .inl⟩

theorem sendCustom_follows (c : Client η) (data : Bytes) : Follows c (c.sendCustom data) := by
  simp only [sendCustom]
  split
  · exact .of_same rfl (.refl _)
  · next channel usable =>
    have kept := Service.customMessage_addsNone c.service channel data c.messages
    have none_ : ∀ call result, .call call result ∈
        (c.service.customMessage channel data (.message c.messages)).1.toList →
        .call call result ∈ c.service.pending := by
      intro call result mem
      unfold Service.customMessage at mem
      split at mem
      · rw [Service.respond_reply] at mem
        split at mem <;> cases mem
        rename_i later
        cases later
      · cases mem
        rename_i later
        cases later
    let numbered : Client η := { c with messages := c.messages + 1 }
    have sent : Follows c (numbered.withService
        (numbered.service.customMessage channel data (.message c.messages)).2) := .of_same rfl kept
    exact sent.foldl_deliver none_

theorem expireCall_follows (c : Client η) (call : Nat) : Follows c (c.expireCall call) where
  deadlines := (Bridge.expire_advances c.bridge call).deadlines ▸ List.prefix_refl _
  decided other result later := by
    rcases Bridge.decided_of_expire later with before | ⟨timeoutMs, known, rfl⟩
    · exact .inl before
    · exact .inr (.expired known)
  pending _ _ := .inl

theorem deliverDelayed_follows (c : Client η) (limitMs : Option Nat) :
    Follows c ((c.deliverDelayed? limitMs).getD c) := by
  unfold deliverDelayed?
  cases due : c.service.deliverDelayed? limitMs with
  | none => exact (Spares.refl c).follows
  | some delivered =>
    obtain ⟨delivery, service⟩ := delivered
    obtain ⟨owed, rest⟩ := Service.deliverDelayed_pending due
    have one : ∀ call result, .call call result ∈ [delivery] →
        .call call result ∈ c.service.pending := fun _ _ mem => List.mem_singleton.1 mem ▸ owed
    have sent : Follows c (c.withService service) := .of_same rfl rest
    exact sent.foldl_deliver one

/-- What any operation can bring for the blocked calls. -/
theorem perform_follows {c : Client η} (open_ : c.connection.transport.interception = none)
    (operation : Operation η) : Follows c (c.perform operation) := by
  cases operation with
  | beginCall thread control =>
    cases asked : control.request c.codec with
    | error error =>
      simp only [perform, asked]
      exact (Spares.refl c).follows
    | ok request =>
      simp only [perform, asked]
      exact beginCall_follows open_ thread ⟨control, asked⟩
  | expireCall call => exact expireCall_follows c call
  | finishCall call => exact finishCall_follows c call
  | sendCustom data => exact sendCustom_follows c data
  | beginActivate thread => exact (beginActivate_spares c thread).follows
  | expireActivate call => exact (follow_spares c (.expireConnect call) rfl).follows
  | finishActivate call => exact (finishActivate_spares c call).follows
  | activateWith =>
    have numbered : Spares c { c with activations := c.activations + 1 } := .of_same rfl (.refl _)
    exact (numbered.trans (follow_spares _ (.connectWith c.activations) rfl)).follows
  | invalidate =>
    exact ((follow_spares c .invalidate rfl).trans (failPending_spares _)).follows
  | configure setting => exact (configure_spares c setting).follows
  | startJob => exact (startJob_spares c).follows
  | fire t => exact (follow_spares c (.fire t) rfl).follows
  | wait ms => exact (follow_spares c (.wait ms) rfl).follows
  | interrupt => exact (interrupt_spares c).follows
  | configureService setting =>
    refine (withService_spares c (.of_eq ?_)).follows
    cases setting <;> rfl
  | releaseHeld =>
    have released : Follows c (c.withService c.service.releaseHeld.2) :=
      .of_same rfl fun _ _ later => List.mem_append_right _ later
    exact released.foldl_deliver fun _ _ mem => List.mem_append_left _ mem
  | deliverDelayed limitMs => exact deliverDelayed_follows c limitMs
  | emitNotify message =>
    exact (withExchange_spares c (Exchange.emitNotify_remembers c.exchange message)).follows
  | emitAuth message =>
    exact (withExchange_spares c (Exchange.emitAuth_remembers c.exchange message)).follows
  | customToClient data =>
    exact (withExchange_spares c ⟨_, _, Exchange.sendCustom_service c.exchange data⟩).follows
  | finishJob | resolveKept resolution => exact .of_same rfl (.refl _)

end Client

end EndpointMonitor
