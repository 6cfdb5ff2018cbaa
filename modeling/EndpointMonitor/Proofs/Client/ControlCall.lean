import EndpointMonitor.Proofs.Client.Agreement
import EndpointMonitor.Proofs.Service.ControlRequest

/-!
What a control call does. Without a channel it is refused at once, and the service does not hear of
it. With a channel the service carries it out once, when the request arrives, whatever its caller
gets and however late.
-/

namespace EndpointMonitor

namespace Control

/-- What an operation returns when the service answers it on these tables. -/
def value (t : ServiceTables) : Control → ControlValue
  | .mutingInverted muteType => .flag (t.mutes.inversions.get muteType)
  | _ => .done

theorem interpret_reply (control : Control) (t : ServiceTables) :
    control.interpret (control.reply t) = .ok (control.value t) := by
  cases control <;> rfl

end Control

namespace Client

variable {η : Type}

/-! ### Calls that return -/

/-- A call returns, and its caller makes of the reply what the operation says. -/
def Returns (c : Client η) (control : Control) (call : Nat) (result : ControlResult)
    (left : Client η) : Prop :=
  ∃ reply, c.finishCall call = some (reply, left) ∧ reply.bind control.interpret = result

theorem Returns.decided {c left : Client η} {control : Control} {call : Nat}
    {result : ControlResult} (h : c.Returns control call result left) :
    ∃ reply, c.bridge.outcome? call = some reply ∧ reply.bind control.interpret = result ∧
      left.service = c.service := by
  obtain ⟨reply, finished, made⟩ := h
  obtain ⟨⟨first, bridge⟩, leaves, same⟩ := Option.map_eq_some_iff.1 finished
  obtain ⟨rfl, rfl⟩ := Prod.mk.inj same
  exact ⟨first, (Bridge.leave_eq_some leaves).2.1, made, rfl⟩

theorem finishCall_of_decided {c : Client η} {call : Nat}
    {result : Except ClientError ServiceReply} (holds : c.bridge.holder = some call)
    (decided : c.bridge.outcome? call = some result) :
    c.finishCall call = some (result, { c with bridge := c.bridge.vacate, sentOn := none }) := by
  rw [finishCall, Bridge.leave_of_decided holds decided, Option.map_some]

/-- A decided call returns, and nothing else happens. -/
theorem returns_of_decided {c : Client η} {control : Control} {call : Nat}
    {reply : Except ClientError ServiceReply} {result : ControlResult}
    (holds : c.bridge.holder = some call) (decided : c.bridge.outcome? call = some reply)
    (made : reply.bind control.interpret = result) :
    ∃ left, left.service = c.service ∧ c.Returns control call result left := by
  have finished := finishCall_of_decided holds decided
  exact ⟨{ c with bridge := c.bridge.vacate, sentOn := none }, rfl, reply, finished, made⟩

theorem disconnectedError_eq (c : Client η) :
    c.disconnectedError =
      if c.state = .invalidated then .channelInvalidated else .notConnected := by
  unfold disconnectedError
  cases c.state <;> rfl

theorem unusable_of_state {c : Client η} (down : c.state ≠ .connected) :
    c.connection.proxy? = none := by
  cases usable : c.connection.proxy? with
  | none => rfl
  | some channel => exact absurd (Connection.uses_of_proxy usable).state down

/-- Whoever holds the bridge of a client that is not connected has a result and can return. -/
theorem Attached.holder_returns {c : Client η} (h : Attached c) (down : c.state ≠ .connected)
    {holder : Nat} (holds : c.bridge.holder = some holder) :
    ∃ result left, c.finishCall holder = some (result, left) ∧ left.bridge.holder = none ∧
      left.connection = c.connection := by
  have pending : c.bridge.pending = some holder := h.serial.holder.symm.trans holds
  have begun : holder < c.bridge.calls.length := by
    have newest := h.serial.newest holder pending
    omega
  cases decided : c.bridge.outcome? holder with
  | none =>
    have waits : c.Blocked holder := ⟨pending, (Bridge.armed_iff _ _).2 ⟨begun, decided⟩⟩
    obtain ⟨channel, -, usable⟩ := h.sent holder waits
    rw [unusable_of_state down] at usable
    cases usable
  | some result => exact ⟨result, _, finishCall_of_decided holds decided, rfl, rfl⟩

/-! ### Calls that begin -/

theorem beginCall_of_free {c : Client η} (h : Attached c) (free : c.bridge.holder = none)
    (thread : Nat) (request : ServiceRequest) :
    c.beginCall thread request =
      .started c.bridge.calls.length ((c.entered thread).send c.bridge.calls.length request) := by
  have nobody : c.bridge.owner = none := h.serial.owner (h.serial.holder.symm.trans free)
  have outside : c.bridge.owner ≠ some thread := by
    rw [nobody]
    nofun
  simp only [beginCall, Bridge.enter_of_free free outside, entered]

theorem beginCall_of_held {c : Client η} {holder : Nat} (held : c.bridge.holder = some holder)
    (thread : Nat) (request : ServiceRequest) : (c.beginCall thread request).after c = c := by
  unfold beginCall
  cases entry : c.bridge.enter thread c.timeoutMs with
  | rejected | waiting other => rfl
  | started call begun =>
    have free := (Bridge.enter_eq_started entry).1
    rw [held] at free
    cases free

/-- The newest call, which holds the bridge, after it has been decided or not. -/
theorem entered_settle (c : Client η) (thread : Nat) (result : Except ClientError ServiceReply) :
    let b := ((c.entered thread).bridge.settle c.bridge.calls.length result).2
    b.holder = some c.bridge.calls.length ∧ b.outcome? c.bridge.calls.length = some result := by
  intro b
  refine ⟨(Bridge.settle_advances _ _ result).holder, ?_⟩
  have begun : c.bridge.calls.length < (c.entered thread).bridge.calls.length := by
    rw [entered_length]
    exact Nat.lt_succ_self _
  have undecided : (c.entered thread).bridge.outcome? c.bridge.calls.length = none :=
    Bridge.outcome_occupy_self c.bridge thread c.timeoutMs
  rw [Bridge.outcome_settle begun, undecided, Option.none_or]

/-! ### Without a channel -/

/-- A call that is refused: its caller gets the error at once and nothing else later, and the service
has not heard of it. -/
structure Declined (c : Client η) (control : Control) (error : ClientError) (begun : Client η) :
    Prop where
  service : begun.service = c.service
  returns : ∃ left, left.service = c.service ∧
    begun.Returns control c.bridge.calls.length (.error error) left
  only : ∀ more result left,
    (begun.performAll more).Returns control c.bridge.calls.length result left →
      result = .error error

theorem declined_of_down {c : Client η} (h : Attached c) (down : c.state ≠ .connected)
    (free : c.bridge.holder = none) (thread : Nat) {control : Control} {request : ServiceRequest}
    (made : control.request c.codec = .ok request) :
    Declined c control c.disconnectedError (c.perform (.beginCall thread control)) := by
  let refused : Client η :=
    (c.entered thread).complete c.bridge.calls.length (.error c.disconnectedError)
  have sends : (c.entered thread).send c.bridge.calls.length request = refused :=
    send_eq_complete (c := c.entered thread) (unusable_of_state down) _ request
  have begun : c.perform (.beginCall thread control) = refused := by
    simp only [perform, made, beginCall_of_free h free, sends]
    rfl
  have attached := h.perform (.beginCall thread control)
  obtain ⟨holds, decided⟩ := entered_settle c thread (.error c.disconnectedError)
  rw [begun] at attached ⊢
  refine ⟨rfl, ?_, fun more result left returned => ?_⟩
  · exact returns_of_decided (c := refused) holds decided rfl
  · obtain ⟨reply, later, made, -⟩ := returned.decided
    rw [attached.outcome_performAll decided more] at later
    obtain rfl := Option.some.inj later
    exact made.symm

/-! ### With a channel -/

/-- The only reply that there can be for a call is this one; if it does not come, the call fails with
the channel or at its deadline. -/
structure Expects (call : Nat) (timeoutMs : UInt64) (reply : ServiceReply) (c : Client η) : Prop where
  joined : Joined c
  known : c.bridge.HasCall call timeoutMs
  pending : ∀ result, .call call result ∈ c.service.pending → result = .ok reply
  decided : ∀ result, c.bridge.outcome? call = some result →
    result = .ok reply ∨ result = .error .notConnected ∨ result = .error (.timeout timeoutMs)

theorem Expects.perform {call : Nat} {timeoutMs : UInt64} {reply : ServiceReply} {c : Client η}
    (h : Expects call timeoutMs reply c) (operation : Operation η) :
    Expects call timeoutMs reply (c.perform operation) := by
  have follows := perform_follows h.joined.connection.interception operation
  have old : call ≠ c.bridge.calls.length := Nat.ne_of_lt h.known.lt
  refine ⟨perform_joined h.joined operation, h.known.of_prefix follows.deadlines,
    fun result later => ?_, fun result later => ?_⟩
  · rcases follows.pending call result later with before | ⟨begins, -⟩
    · exact h.pending result before
    · exact absurd begins old
  · rcases follows.decided call result later with before | verdict
    · exact h.decided result before
    · cases verdict with
      | lost => exact .inr (.inl rfl)
      | expired known =>
        obtain rfl := Option.some.inj (known.symm.trans h.known)
        exact .inr (.inr rfl)
      | replied pending =>
        obtain rfl := h.pending _ pending
        exact .inl rfl
      | refused begins | answered begins issues => exact absurd begins old

theorem Expects.performAll {call : Nat} {timeoutMs : UInt64} {reply : ServiceReply} {c : Client η}
    (h : Expects call timeoutMs reply c) (operations : List (Operation η)) :
    Expects call timeoutMs reply (c.performAll operations) :=
  performAll_invariant (fun _ operation expects => expects.perform operation) h operations

/-- A call that is still blocked at its deadline returns with that, and nothing else happens. -/
theorem Expects.expires {call : Nat} {timeoutMs : UInt64} {reply : ServiceReply} {c : Client η}
    (h : Expects call timeoutMs reply c) (attached : Attached c) (waits : c.Blocked call)
    (control : Control) :
    ∃ left, left.service = c.service ∧
      (c.expireCall call).Returns control call (.error (.timeout timeoutMs)) left := by
  have expired : (c.expireCall call).bridge =
      (c.bridge.settle call (.error (.timeout timeoutMs))).2 := Bridge.expire_eq_settle h.known
  have holds : (c.expireCall call).bridge.holder = some call := by
    rw [expired, (Bridge.settle_advances _ _ _).holder, attached.serial.holder]
    exact waits.1
  have decided : (c.expireCall call).bridge.outcome? call = some (.error (.timeout timeoutMs)) := by
    rw [expired, Bridge.outcome_settle waits.begun, waits.undecided, Option.none_or]
  exact returns_of_decided holds decided rfl

/-- What the caller can get. -/
theorem Expects.returned {call : Nat} {timeoutMs : UInt64} {c left : Client η} {control : Control}
    {t : ServiceTables} {result : ControlResult}
    (h : Expects call timeoutMs (control.reply t) c)
    (returned : c.Returns control call result left) :
    left.service = c.service ∧ (result = .ok (control.value t) ∨ result = .error .notConnected ∨
      result = .error (.timeout timeoutMs)) := by
  obtain ⟨reply, decided, made, same⟩ := returned.decided
  refine ⟨same, ?_⟩
  rcases h.decided reply decided with rfl | rfl | rfl
  · exact .inl (made.symm.trans (Control.interpret_reply control t))
  · exact .inr (.inl made.symm)
  · exact .inr (.inr made.symm)

/-- There are no replies for calls that have not begun. -/
structure Owing (c : Client η) : Prop where
  joined : Joined c
  begun : ∀ call result, .call call result ∈ c.service.pending → call < c.bridge.calls.length

theorem Owing.perform {c : Client η} (h : Owing c) (operation : Operation η) :
    Owing (c.perform operation) := by
  have follows := perform_follows h.joined.connection.interception operation
  refine ⟨perform_joined h.joined operation, fun call result later => ?_⟩
  rcases follows.pending call result later with before | ⟨-, begun, -⟩
  · have grows := follows.deadlines.length_le
    simp only [List.length_map] at grows
    exact Nat.lt_of_lt_of_le (h.begun call result before) grows
  · exact begun

theorem owing_run (config : ClientConfig) (operations : List (Operation η)) :
    Owing (run config operations) := by
  have new : Owing (ofNewService config config.codec : Client η) :=
    ⟨joined_ofNewService config, nofun⟩
  exact performAll_invariant (fun _ operation owing => owing.perform operation) new operations

/-- A call that is carried out: the service has done once what the operation says, and has a reply
for it. The call returns that reply, or it fails with the channel or at its deadline, and by then the
service has nothing more to do for it. -/
structure CarriedOut (c : Client η) (control : Control) (begun : Client η) : Prop where
  requests : begun.service.requests = c.service.requests ++ [control.name]
  holdings : begun.service.tables.holdings = control.effect c.service.tables.holdings
  session : begun.service.converter = c.service.converter ∧
    begun.service.sessions = c.service.sessions
  prompt : c.service.isPrompt = true → ∃ left, left.service = begun.service ∧
    begun.Returns control c.bridge.calls.length (.ok (control.value c.service.tables)) left
  late : c.service.isPrompt = false → begun.Blocked c.bridge.calls.length ∧
    .call c.bridge.calls.length (.ok (control.reply c.service.tables)) ∈ begun.service.pending
  expires : ∀ more, (begun.performAll more).Blocked c.bridge.calls.length →
    ∃ left, left.service = (begun.performAll more).service ∧
      ((begun.performAll more).expireCall c.bridge.calls.length).Returns control
        c.bridge.calls.length (.error (.timeout c.timeoutMs)) left
  only : ∀ more result left,
    (begun.performAll more).Returns control c.bridge.calls.length result left →
      left.service = (begun.performAll more).service ∧
        (result = .ok (control.value c.service.tables) ∨ result = .error .notConnected ∨
          result = .error (.timeout c.timeoutMs))

section
variable {c : Client η} {control : Control} {request : ServiceRequest} {channel : Nat}

/-- The request of a call that is let in arrives at the service. -/
theorem perform_beginCall_asked (attached : Attached c) (joined : Joined c)
    (usable : c.connection.proxy? = some channel) (free : c.bridge.holder = none) (thread : Nat)
    (made : control.request c.codec = .ok request) :
    c.perform (.beginCall thread control) =
      (c.entered thread).asked c.bridge.calls.length channel request := by
  have sends : (c.entered thread).send c.bridge.calls.length request =
      (c.entered thread).asked c.bridge.calls.length channel request :=
    send_eq_asked (c := c.entered thread) joined.connection.interception usable _ request
  simp only [perform, made, beginCall_of_free attached free, sends]
  rfl

theorem asked_bridge_of_prompt (prompt : c.service.isPrompt = true) {thread : Nat}
    {reply : ServiceReply} (answer : c.service.answer channel request = .ok reply) :
    ((c.entered thread).asked c.bridge.calls.length channel request).bridge =
      ((c.entered thread).bridge.settle c.bridge.calls.length (.ok reply)).2 := by
  have decides : (c.service.answer channel request).mapError ClientError.remote = .ok reply := by
    rw [answer]
    rfl
  rw [← decides]
  exact if_pos prompt

theorem asked_bridge_of_late (late : c.service.isPrompt = false) {thread : Nat} :
    ((c.entered thread).asked c.bridge.calls.length channel request).bridge =
      c.bridge.occupy thread c.timeoutMs :=
  if_neg (ne_true_of_eq_false late)

theorem expects_of_asked (owing : Owing c)
    (usable : c.connection.proxy? = some channel) {thread : Nat}
    (made : control.request c.codec = .ok request)
    (joined : Joined ((c.entered thread).asked c.bridge.calls.length channel request)) :
    Expects c.bridge.calls.length c.timeoutMs (control.reply c.service.tables)
      ((c.entered thread).asked c.bridge.calls.length channel request) := by
  have answer : (c.entered thread).service.answer channel request =
      .ok (control.reply c.service.tables) := owing.joined.answer usable made
  refine ⟨joined, ?_, fun result later => ?_, fun result later => ?_⟩
  · rw [Bridge.HasCall, asked_deadlines]
    exact Bridge.hasCall_occupy c.bridge thread c.timeoutMs
  · rcases Service.mem_pending_respond later with before | new
    · rw [Service.served_pending] at before
      exact absurd (owing.begun _ _ before) (Nat.lt_irrefl _)
    · cases new
      exact answer
  · rw [asked] at later
    split at later
    · rw [(entered_settle c thread _).2, answer] at later
      exact .inl (Option.some.inj later).symm
    · have undecided := Bridge.outcome_occupy_self c.bridge thread c.timeoutMs
      cases undecided.symm.trans later

theorem carriedOut_of_up (attached : Attached c) (owing : Owing c)
    (up : c.state = .connected) (free : c.bridge.holder = none) (thread : Nat)
    (made : control.request c.codec = .ok request) :
    CarriedOut c control (c.perform (.beginCall thread control)) := by
  obtain ⟨channel, usable⟩ := owing.joined.usable up
  have attached' := attached.perform (.beginCall thread control)
  have joined := perform_joined owing.joined (.beginCall thread control)
  rw [perform_beginCall_asked attached owing.joined usable free thread made] at attached' joined ⊢
  have expects := expects_of_asked owing usable made joined
  have asks := Control.asks_of_request made
  rw [← owing.joined.codec, ← owing.joined.connection.codec] at asks
  obtain ⟨answer, after, effect, served⟩ :=
    Service.served_control (owing.joined.isCurrent usable) asks.control
  have steady : Service.Steady (c.service.served channel request)
      ((c.entered thread).asked c.bridge.calls.length channel request).service :=
    Service.respond_steady _ _
  refine ⟨?_, ?_, ⟨?_, ?_⟩, fun prompt => ?_, fun late => ⟨?_, ?_⟩, fun more waits => ?_,
    fun more result left returned => ?_⟩
  · rw [steady.requests, served, asks.name]
  · rw [steady.tables, served, effect]
  · rw [steady.converter, served]
  · rw [steady.sessions, served]
  · obtain ⟨holds, decided⟩ := entered_settle c thread (.ok (control.reply c.service.tables))
    rw [← asked_bridge_of_prompt prompt answer] at holds decided
    exact returns_of_decided holds decided (Control.interpret_reply control _)
  · rw [Blocked, asked_bridge_of_late late, Bridge.armed_iff]
    exact ⟨rfl, by simp [Bridge.occupy], Bridge.outcome_occupy_self c.bridge thread c.timeoutMs⟩
  · rw [← answer]
    exact Service.mem_pending_of_late ((Service.served_isPrompt _ _ _).trans late) _
  · exact (expects.performAll more).expires (attached'.performAll more) waits control
  · exact (expects.performAll more).returned returned

end

/-- A control call in any state that a run can lead to. A rule that is too large is refused before
anything else. A call that finds another one in the bridge waits, and without a channel that one can
return. Once it is let in, it is declined without a channel, and carried out with one. -/
theorem control_called (config : ClientConfig) (operations : List (Operation η)) (thread : Nat)
    (control : Control) :
    let c := run config operations
    let begun := c.perform (.beginCall thread control)
    (¬ control.Fits c.codec → begun = c ∧ ∃ rule, control.rule? = some rule ∧
      control.request c.codec =
        .error (.encodeFailure (c.codec.oversized (Wire.encode rule).write))) ∧
    (∀ holder, c.bridge.holder = some holder → begun = c ∧
      (c.state ≠ .connected → ∃ result left, c.finishCall holder = some (result, left) ∧
        left.bridge.holder = none ∧ left.connection = c.connection)) ∧
    (control.Fits c.codec → c.bridge.holder = none →
      (∃ request, control.request c.codec = .ok request ∧
        c.beginCall thread request = .started c.bridge.calls.length begun) ∧
      (c.state ≠ .connected → Declined c control
        (if c.state = .invalidated then .channelInvalidated else .notConnected) begun) ∧
      (c.state = .connected → CarriedOut c control begun)) := by
  intro c begun
  have attached : Attached c := (attached_ofNewService config config.codec).performAll operations
  have owing : Owing c := owing_run config operations
  refine ⟨fun large => ?_, fun holder held => ⟨?_, fun down => ?_⟩, fun fits free => ?_⟩
  · obtain ⟨rule, named, -, refused⟩ := Control.request_of_oversized large
    refine ⟨?_, rule, named, refused⟩
    simp only [begun, perform, refused]
  · simp only [begun, perform]
    cases control.request c.codec with
    | error error => rfl
    | ok request => exact beginCall_of_held held thread request
  · exact attached.holder_returns down held
  · obtain ⟨request, made, -⟩ := Control.request_of_fits fits
    have starts := beginCall_of_free attached free thread request
    refine ⟨⟨request, made, ?_⟩, fun down => ?_, fun up => ?_⟩
    · simp only [begun, perform, made, starts]
      rfl
    · rw [← disconnectedError_eq]
      exact declined_of_down attached down free thread made
    · exact carriedOut_of_up attached owing up free thread made

/-- A service that keeps its replies has subscribed its client all the same when the time of the call
is up. A client that has never had a channel is refused. -/
theorem late_call_carried_out :
    let events : EventSet := .ofList [.authExec]
    let c : Client Unit := run .default [.activateWith, .configureService (.unresponsive true)]
    let begun := c.perform (.beginCall 1 (.subscribe events))
    (begun.service.requests = ["create_session", "subscribe"] ∧
      begun.service.tables.holdings.subscribed = events.members ∧
      ∃ left, left.service = begun.service ∧ (begun.expireCall 0).Returns (.subscribe events) 0
        (.error (.timeout c.timeoutMs)) left) ∧
    Declined (run .default [] : Client Unit) .clearCache .notConnected
      ((run .default []).perform (.beginCall 1 .clearCache)) := by
  intro events c begun
  have up : c.state = .connected := by decide +kernel
  have free : c.bridge.holder = none := by decide +kernel
  have first : c.bridge.calls.length = 0 := by decide +kernel
  have before : c.service.requests = ["create_session"] := by decide +kernel
  have unsubscribed : c.service.tables.subscriptions = .empty := by decide +kernel
  obtain ⟨-, -, serves⟩ := control_called .default
    [.activateWith, (.configureService (.unresponsive true) : Operation Unit)] 1 (.subscribe events)
  have carried : CarriedOut c (.subscribe events) begun := (serves nofun free).2.2 up
  obtain ⟨-, -, refuses⟩ := control_called .default ([] : List (Operation Unit)) 1 .clearCache
  obtain ⟨-, declines, -⟩ := refuses nofun rfl
  refine ⟨⟨?_, ?_, ?_⟩, declines nofun⟩
  · rw [carried.requests, before]
    rfl
  · have added : begun.service.tables.holdings.subscribed =
        c.service.tables.subscriptions.members ∪ events.members := by
      rw [carried.holdings]
      rfl
    rw [added, unsubscribed, EventSet.members_empty, Set.empty_union]
  · have late : c.service.isPrompt = false := by decide +kernel
    have timeout := carried.expires []
    rw [performAll_nil, first] at timeout
    exact timeout (first ▸ (carried.late late).1)

end Client

end EndpointMonitor
