import EndpointMonitor.Proofs.Connection.Operation
import EndpointMonitor.Proofs.Service.Caches

/-!
A connection and the service at the other end. Each keeps its own account of the channel between
them: the connection by its state, the service by what is bound. Whatever the connection does by
itself, the two accounts agree. It goes on as before, or it gives its channel up, or it opens a
session on a new one.
-/

namespace EndpointMonitor

/-- The attempt whose session request goes out. -/
def ConnectionEvent.requested? : ConnectionEvent → Option Nat
  | .requested generation _ _ => some generation
  | .creating _ | .closed _ | .published _ _ | .answered _ _ => none

namespace Connection

section
variable {σ : Type}

/-- Whether a connection can do this by itself while its channel stays intact. -/
def Operation.isIntact : Operation σ → Bool
  | .receive (.lost _) | .configure _ | .world _ => false
  | _ => true

/-- The attempts whose session requests have gone out, in order. -/
def requested (c : Connection σ) : List Nat := c.trace.filterMap (·.requested?)

/-- Whether there is a channel, be it in use already or not. -/
def Live (c : Connection σ) : Prop := c.state = .connecting ∨ c.state = .connected

theorem not_live_of_begun {c : Connection σ} {kind : AttemptKind}
    (h : admission c.state kind = .begun) : ¬ c.Live := by
  rintro (connecting | connected)
  · cases kind <;> simp [admission, connecting] at h
  · cases kind <;> simp [admission, connected] at h

/-- To tell an outcome is no session request. -/
theorem filterMap_requested_told (trace : List ConnectionEvent) (waiters : List Waiter)
    (subscriber : Option String) (outcome : Outcome) :
    (trace ++ waiters.map (ConnectionEvent.answered · outcome) ++
      subscriber.toList.map (ConnectionEvent.published · outcome)).filterMap (·.requested?) =
        trace.filterMap (·.requested?) := by
  have answered : (waiters.map (ConnectionEvent.answered · outcome)).filterMap (·.requested?) = [] := by
    rw [List.filterMap_map]
    exact List.filterMap_eq_nil_iff.2 fun _ _ => rfl
  have published : (subscriber.toList.map (ConnectionEvent.published · outcome)).filterMap
      (·.requested?) = [] := by
    rw [List.filterMap_map]
    exact List.filterMap_eq_nil_iff.2 fun _ _ => rfl
  rw [List.filterMap_append, List.filterMap_append, answered, published, List.append_nil,
    List.append_nil]

end

variable {c d e : Connection Loopback}

/-- What is bound at the service is the channel of the connection, for its latest attempt. -/
structure Bound (c : Connection Loopback) : Prop where
  codec : c.transport.service.codec = c.codec
  interception : c.transport.interception = none
  binding : c.transport.service.binding = c.channel.map (⟨·, c.generation⟩)

/-- Besides, there is a channel in the states that need one, and until it is in use the service
remembers nothing but what it may have cached. -/
structure Joined (c : Connection Loopback) : Prop extends Bound c where
  channel : c.channel.isSome = true ↔ c.Live
  fresh : c.state = .connecting → c.transport.service.tables.forget = .empty

theorem Bound.isCurrent_iff (h : Bound c) (channel : Nat) :
    c.transport.service.isCurrent channel = true ↔ c.channel = some channel := by
  unfold Service.isCurrent
  rw [h.binding]
  cases c.channel <;> simp

/-! ### Moves -/

/-- The connection stays as it is, or its attempt is successful. Nothing reaches the service. -/
structure Waits (c c' : Connection Loopback) : Prop where
  state : c'.state = c.state ∨ c.state = .connecting ∧ c'.state = .connected
  generation : c'.generation = c.generation
  channel : c'.channel = c.channel
  codec : c'.codec = c.codec
  converter : c'.converter = c.converter
  transport : c'.transport = c.transport
  requested : c'.requested = c.requested

/-- The connection has no channel any more, and the service none either. -/
structure Falls (c c' : Connection Loopback) : Prop where
  state : ¬ c'.Live
  channel : c'.channel = none
  binding : c'.transport.service.binding = none
  codec : c'.codec = c.codec
  converter : c'.converter = c.converter
  interception : c'.transport.interception = c.transport.interception
  serviceCodec : c'.transport.service.codec = c.transport.service.codec

/-- A new attempt has a channel, and has opened a session on it with the converter that is set. -/
structure Opens (c c' : Connection Loopback) : Prop where
  state : c'.Live
  generation : c'.generation = c.generation + 1
  channel : c'.channel.isSome = true
  bound : Bound c'
  codec : c'.codec = c.codec
  converter : c'.converter = c.converter
  tables : c'.transport.service.tables = .empty
  session : c'.transport.service.converter = some c.converter
  sessions : c'.transport.service.sessions = c.transport.service.sessions + 1
  requested : c'.requested = c.requested ++ [c'.generation]

inductive Moves (c c' : Connection Loopback) : Prop where
  | waits (h : Waits c c')
  | falls (h : Falls c c')
  | opens (h : Opens c c')

theorem Waits.refl (c : Connection Loopback) : Waits c c :=
  ⟨.inl rfl, rfl, rfl, rfl, rfl, rfl, rfl⟩

theorem Waits.live_iff (h : Waits c d) : d.Live ↔ c.Live := by
  unfold Live
  rcases h.state with same | ⟨before, after⟩
  · rw [same]
  · simp [before, after]

theorem Waits.joined (h : Waits c d) (joined : Joined c) : Joined d where
  codec := by rw [h.transport, h.codec, joined.codec]
  interception := by rw [h.transport, joined.interception]
  binding := by rw [h.transport, h.channel, h.generation, joined.binding]
  channel := by rw [h.channel, h.live_iff, joined.channel]
  fresh connecting := by
    rw [h.transport]
    refine joined.fresh ?_
    rcases h.state with same | ⟨-, after⟩
    · exact same.symm.trans connecting
    · rw [after] at connecting
      cases connecting

theorem Falls.joined (h : Falls c d) (bound : Bound c) : Joined d where
  codec := by rw [h.serviceCodec, h.codec, bound.codec]
  interception := by rw [h.interception, bound.interception]
  binding := by rw [h.binding, h.channel, Option.map_none]
  channel := by simp [h.channel, h.state]
  fresh connecting := absurd (.inl connecting) h.state

theorem Opens.joined (h : Opens c d) : Joined d where
  toBound := h.bound
  channel := iff_of_true h.channel h.state
  fresh _ := congrArg ServiceTables.forget h.tables

theorem Moves.joined (h : Moves c d) (joined : Joined c) : Joined d := by
  cases h with
  | waits h => exact h.joined joined
  | falls h => exact h.joined joined.toBound
  | opens h => exact h.joined

theorem Moves.codec (h : Moves c d) : d.codec = c.codec := by
  cases h with
  | waits h | falls h | opens h => exact h.codec

theorem Moves.converter (h : Moves c d) : d.converter = c.converter := by
  cases h with
  | waits h | falls h | opens h => exact h.converter

/-- What an operation does to anything else before it moves the connection is no matter. -/
theorem Moves.of_same (h : Moves d e) (state : d.state = c.state)
    (generation : d.generation = c.generation) (channel : d.channel = c.channel)
    (codec : d.codec = c.codec) (converter : d.converter = c.converter)
    (transport : d.transport = c.transport) (requested : d.requested = c.requested) :
    Moves c e := by
  cases h with
  | waits h =>
    refine .waits ⟨?_, h.generation.trans generation, h.channel.trans channel,
      h.codec.trans codec, h.converter.trans converter, h.transport.trans transport,
      h.requested.trans requested⟩
    rw [← state]
    exact h.state
  | falls h =>
    exact .falls ⟨h.state, h.channel, h.binding, h.codec.trans codec, h.converter.trans converter,
      transport ▸ h.interception, transport ▸ h.serviceCodec⟩
  | opens h =>
    exact .opens ⟨h.state, generation ▸ h.generation, h.channel, h.bound, h.codec.trans codec,
      h.converter.trans converter, h.tables, converter ▸ h.session, transport ▸ h.sessions,
      requested ▸ h.requested⟩

/-! ### The end of an attempt -/

theorem closeAll_unbinds (bound : Bound c) :
    (c.channel.toList.foldl Transport.close c.transport).service.binding = none ∧
      (c.channel.toList.foldl Transport.close c.transport).interception =
        c.transport.interception ∧
      (c.channel.toList.foldl Transport.close c.transport).service.codec =
        c.transport.service.codec := by
  have binding := bound.binding
  cases held : c.channel with
  | none =>
    rw [held] at binding
    exact ⟨binding, rfl, rfl⟩
  | some channel =>
    have current := (bound.isCurrent_iff channel).2 held
    have closed : Transport.close c.transport channel =
        { c.transport with service := { c.transport.service with binding := none } } := by
      simp only [Transport.close, Service.unbind, current, if_true]
    rw [Option.toList_some, List.foldl_cons, List.foldl_nil, closed]
    exact ⟨rfl, rfl, rfl⟩

theorem attemptFailed_falls (bound : Bound c) {generation : Nat}
    (attempting : c.isAttempting generation = true) (error : ClientError) :
    Falls c (c.attemptFailed generation error) := by
  obtain ⟨binding, interception, codec⟩ := closeAll_unbinds bound
  cases ha : c.attempt with
  | manual =>
    rw [attemptFailed_manual attempting ha]
    exact ⟨by simp [Live], rfl, binding, rfl, rfl, interception, codec⟩
  | automatic =>
    rw [attemptFailed_automatic attempting ha]
    exact ⟨by simp [Live], rfl, binding, rfl, rfl, interception, codec⟩

theorem attemptFailed_cases (bound : Bound c) (generation : Nat) (error : ClientError) :
    Waits c (c.attemptFailed generation error) ∨ Falls c (c.attemptFailed generation error) := by
  cases attempting : c.isAttempting generation with
  | false =>
    rw [attemptFailed_stale attempting]
    exact .inl (.refl c)
  | true => exact .inr (attemptFailed_falls bound attempting error)

theorem attemptFailed_moves (bound : Bound c) (generation : Nat) (error : ClientError) :
    Moves c (c.attemptFailed generation error) :=
  (attemptFailed_cases bound generation error).elim .waits .falls

/-- A session that is opened makes the attempt successful. -/
theorem sessionCreated_waits (c : Connection Loopback) (generation : Nat) (reply : ServiceReply) :
    Waits c (c.sessionCreated generation (.ok reply)) := by
  cases attempting : c.isAttempting generation with
  | false =>
    rw [sessionCreated_stale attempting]
    exact .refl c
  | true =>
    have connecting := ((isAttempting_iff c generation).1 attempting).2
    rw [sessionCreated_ok attempting]
    exact ⟨.inr ⟨connecting, rfl⟩, rfl, rfl, rfl, rfl, rfl, filterMap_requested_told _ _ _ _⟩

/-- The reply to a session request decides the attempt at most. -/
theorem sessionCreated_cases (bound : Bound c) (generation : Nat) (reply : RemoteResult) :
    Waits c (c.sessionCreated generation reply) ∨ Falls c (c.sessionCreated generation reply) := by
  cases reply with
  | error reason => exact attemptFailed_cases bound generation _
  | ok value => exact .inl (sessionCreated_waits c generation value)

theorem invalidate_moves (bound : Bound c) : Moves c c.invalidate := by
  by_cases final : c.state = .invalidated
  · rw [invalidate_invalidated final]
    exact .waits (.refl c)
  · obtain ⟨binding, interception, codec⟩ := closeAll_unbinds bound
    rw [invalidate_eq final]
    exact .falls ⟨by simp [Live], rfl, binding, rfl, rfl, interception, codec⟩

/-- The service breaks the channel, and the connection hears of it. -/
theorem channelLost_falls (joined : Joined c) {binding : Binding}
    (bound : c.transport.service.binding = some binding) :
    Falls c ({ c with
      transport := { c.transport with
        service := { c.transport.service with binding := none } } }.channelLost
          binding.generation) := by
  have known := joined.binding
  rw [bound] at known
  obtain ⟨channel, held, same⟩ := Option.map_eq_some_iff.1 known.symm
  have live : c.Live := joined.channel.1 (by rw [held]; rfl)
  let broken : Connection Loopback := { c with
    transport := { c.transport with service := { c.transport.service with binding := none } } }
  have up : broken.isUp binding.generation = true :=
    (isUp_iff broken _).2 ⟨by rw [← same], live⟩
  by_cases told : broken.state = .connected ∨ broken.attempt = .manual
  · rw [channelLost_told up told]
    exact ⟨by simp [Live, interrupt], rfl, rfl, rfl, rfl, rfl, rfl⟩
  · rw [channelLost_untold up told]
    exact ⟨by simp [Live, interrupt], rfl, rfl, rfl, rfl, rfl, rfl⟩

/-! ### A new attempt -/

/-- An attempt has begun, and the service has made a channel for it. -/
structure Prepared (c c' : Connection Loopback) (channel : Nat) : Prop where
  state : c'.state = .connecting
  generation : c'.generation = c.generation + 1
  codec : c'.codec = c.codec
  converter : c'.converter = c.converter
  requested : c'.requested = c.requested
  serviceCodec : c'.transport.service.codec = c.codec
  interception : c'.transport.interception = none
  binding : c'.transport.service.binding = some ⟨channel, c'.generation⟩
  tables : c'.transport.service.tables = .empty
  sessions : c'.transport.service.sessions = c.transport.service.sessions

theorem Prepared.bound {channel : Nat} (h : Prepared c d channel) :
    Bound { d with channel := some channel } :=
  ⟨h.serviceCodec.trans h.codec.symm, h.interception, h.binding⟩

theorem Prepared.isAttempting {channel : Nat} (h : Prepared c d channel) :
    d.isAttempting d.generation = true := (isAttempting_iff d _).2 ⟨rfl, h.state⟩

/-- The service makes a channel and forgets what was before, or nothing happens. -/
theorem create_cases (l : Loopback) (generation : Nat) :
    (∃ error, Transport.create l generation = (⟨[], .error error⟩, l)) ∨
      Transport.create l generation = (⟨[], .ok (l.service.channels + 1)⟩, { l with
        service := { l.service with
          channels := l.service.channels + 1
          binding := some ⟨l.service.channels + 1, generation⟩
          tables := .empty } }) := by
  simp only [Transport.create]
  split
  · exact .inl ⟨_, rfl⟩
  · unfold Service.bind
    split
    · exact .inr rfl
    · exact .inl ⟨_, rfl⟩

/-- A session request on a new channel is answered well, be it now or later. -/
theorem Prepared.opens {channel : Nat} (h : Prepared c d channel) {payload : Bytes}
    (encoded : d.codec.encode d.converter = .ok payload) :
    ∃ opened signals, d.resume d.generation (.ok channel) = (opened, some signals) ∧
      Opens c opened ∧ Waits opened (signals.foldl receive opened) := by
  have current : d.transport.service.isCurrent channel = true :=
    (h.bound.isCurrent_iff channel).2 rfl
  have reads : d.transport.service.codec.decode payload = .ok d.converter := by
    rw [h.serviceCodec, ← h.codec]
    exact Codec.decode_of_recovers (faithful_converterConfig d.converter) (by decide) encoded
  obtain ⟨answered, served⟩ := Service.served_session current reads
  have sent := Loopback.openSession_eq h.interception channel d.generation payload
  rw [served, answered] at sent
  have steady := Service.respond_steady { d.transport.service with
      requests := d.transport.service.requests ++ ["create_session"]
      converter := some d.converter
      sessions := d.transport.service.sessions + 1 } (.session d.generation (.ok .done))
  have resumed := handOver_requested h.isAttempting encoded channel
  rw [sent] at resumed
  have asked : (d.trace ++ [ConnectionEvent.requested d.generation channel payload]).filterMap
      (·.requested?) = c.requested ++ [d.generation] := by
    rw [List.filterMap_append, ← h.requested]
    rfl
  refine ⟨_, _, resumed, ?_, ?_⟩
  · refine ⟨.inl h.state, h.generation, rfl, ⟨steady.codec.trans h.bound.codec, h.interception,
      steady.binding.trans h.binding⟩, h.codec, h.converter, steady.tables.trans h.tables,
      steady.converter.trans (congrArg some h.converter),
      steady.sessions.trans (congrArg (· + 1) h.sessions), asked⟩
  · cases d.transport.service.isPrompt with
    | false => exact .refl _
    | true => exact sessionCreated_waits _ d.generation .done

theorem Opens.then_waits (h : Opens c d) (h' : Waits d e) : Opens c e where
  state := h'.live_iff.2 h.state
  generation := h'.generation.trans h.generation
  channel := h'.channel ▸ h.channel
  bound := (h'.joined h.joined).toBound
  codec := h'.codec.trans h.codec
  converter := h'.converter.trans h.converter
  tables := by rw [h'.transport, h.tables]
  session := by rw [h'.transport, h.session]
  sessions := by rw [h'.transport, h.sessions]
  requested := by rw [h'.requested, h'.generation, h.requested]

theorem Prepared.falls {channel : Nat} (h : Prepared c d channel) (bound : Bound c)
    {error : ClientError} (refused : d.codec.encode d.converter = .error error) :
    ∃ failed, d.resume d.generation (.ok channel) = (failed, none) ∧ Falls c failed := by
  refine ⟨_, handOver_unencoded h.isAttempting refused channel, ?_⟩
  have falls := attemptFailed_falls h.bound h.isAttempting error
  exact ⟨falls.state, falls.channel, falls.binding, falls.codec.trans h.codec,
    falls.converter.trans h.converter,
    falls.interception.trans (h.interception.trans bound.interception.symm),
    falls.serviceCodec.trans (h.serviceCodec.trans bound.codec.symm)⟩

theorem Prepared.resume {channel : Nat} (h : Prepared c d channel) (bound : Bound c) :
    ∃ resumed signals?, d.resume d.generation (.ok channel) = (resumed, signals?) ∧
      Moves c ((signals?.getD []).foldl receive resumed) := by
  cases encoded : d.codec.encode d.converter with
  | error error =>
    obtain ⟨failed, resumed, falls⟩ := h.falls bound encoded
    exact ⟨failed, none, resumed, .falls falls⟩
  | ok payload =>
    obtain ⟨opened, signals, resumed, opens, waits⟩ := h.opens encoded
    exact ⟨opened, some signals, resumed, .opens (opens.then_waits waits)⟩

/-- An attempt that begins gets a channel from the service, or fails at once. -/
theorem start_cases (joined : Joined c) {kind : AttemptKind}
    (begun : admission c.state kind = .begun) (waiter : Option Waiter) :
    (∃ started error, c.start kind waiter = (started, some ⟨[], .error error⟩) ∧
      Falls c (started.attemptFailed started.generation error)) ∨
    ∃ started channel, c.start kind waiter = (started, some ⟨[], .ok channel⟩) ∧
      Prepared c started channel := by
  have untold : (c.trace ++ [ConnectionEvent.creating (c.generation + 1)]).filterMap
      (·.requested?) = c.requested := by
    rw [List.filterMap_append]
    exact List.append_nil _
  have started := start_begun begun waiter
  rcases create_cases c.transport (c.generation + 1) with ⟨error, made⟩ | made
  · rw [made] at started
    refine .inl ⟨_, error, started, ?_⟩
    have idle : c.channel = none := by
      rw [← Option.not_isSome_iff_eq_none, joined.channel]
      exact not_live_of_begun begun
    have unbound : c.transport.service.binding = none := by
      rw [joined.binding, idle, Option.map_none]
    have bound : Bound (c.start kind waiter).1 := by
      rw [started]
      exact ⟨joined.codec, joined.interception, by rw [unbound, idle]; rfl⟩
    have attempting : (c.start kind waiter).1.isAttempting (c.generation + 1) = true := by
      rw [started]
      simp [isAttempting]
    have falls := attemptFailed_falls bound attempting error
    rw [started] at falls
    exact ⟨falls.state, falls.channel, falls.binding, falls.codec, falls.converter,
      falls.interception, falls.serviceCodec⟩
  · rw [made] at started
    refine .inr ⟨_, _, started, ?_⟩
    exact ⟨rfl, rfl, rfl, rfl, untold, joined.codec, joined.interception, rfl, rfl, rfl⟩

/-- An attempt that begins comes to an end at once, or opens a session. -/
theorem begun_moves (joined : Joined c) {kind : AttemptKind}
    (begun : admission c.state kind = .begun) (waiter : Option Waiter) :
    Moves c (c.tryConnect kind waiter).1 := by
  rcases start_cases joined begun waiter with ⟨started, error, starts, falls⟩ |
    ⟨started, channel, starts, prepared⟩
  · simp only [tryConnect, starts, List.foldl_nil, Connection.resume]
    exact .falls falls
  · obtain ⟨resumed, signals?, resumes, moves⟩ := prepared.resume joined.toBound
    simp only [tryConnect, starts, List.foldl_nil, resumes]
    cases signals? <;> exact moves

theorem tryConnect_moves (joined : Joined c) (kind : AttemptKind) (waiter : Option Waiter) :
    Moves c (c.tryConnect kind waiter).1 := by
  cases admitted : admission c.state kind with
  | refused outcome =>
    simp only [tryConnect, start_refused admitted]
    have untold := filterMap_requested_told c.trace waiter.toList none outcome
    rw [Option.toList_none, List.map_nil, List.append_nil] at untold
    exact .waits ⟨.inl rfl, rfl, rfl, rfl, rfl, rfl, untold⟩
  | skipped =>
    simp only [tryConnect, start_skipped admitted]
    exact .waits (.refl c)
  | begun => exact begun_moves joined admitted waiter

/-! ### Operations -/

theorem Waits.trans (h : Waits c d) (h' : Waits d e) : Waits c e where
  state := by
    rcases h'.state with same | ⟨connecting, up⟩
    · rw [same]
      exact h.state
    · rcases h.state with before | ⟨-, after⟩
      · exact .inr ⟨before ▸ connecting, up⟩
      · rw [after] at connecting
        cases connecting
  generation := h'.generation.trans h.generation
  channel := h'.channel.trans h.channel
  codec := h'.codec.trans h.codec
  converter := h'.converter.trans h.converter
  transport := h'.transport.trans h.transport
  requested := h'.requested.trans h.requested

theorem Falls.then_waits (h : Falls c d) (h' : Waits d e) : Falls c e where
  state live := h.state (h'.live_iff.1 live)
  channel := h'.channel.trans h.channel
  binding := by rw [h'.transport, h.binding]
  codec := h'.codec.trans h.codec
  converter := h'.converter.trans h.converter
  interception := by rw [h'.transport, h.interception]
  serviceCodec := by rw [h'.transport, h.serviceCodec]

theorem Moves.then_waits (h : Moves c d) (h' : Waits d e) : Moves c e := by
  cases h with
  | waits h => exact .waits (h.trans h')
  | falls h => exact .falls (h.then_waits h')
  | opens h => exact .opens (h.then_waits h')

theorem beginConnect_moves (joined : Joined c) (thread : Nat) (timeoutMs : UInt64) :
    Moves c (c.perform (.beginConnect thread timeoutMs)) := by
  cases entry : c.bridge.enter thread timeoutMs with
  | rejected | waiting holder =>
    simp only [perform, beginConnect, entry]
    exact .waits (.refl c)
  | started call bridge =>
    simp only [perform, beginConnect, entry]
    have inside : Joined { c with bridge } :=
      ⟨⟨joined.codec, joined.interception, joined.binding⟩, joined.channel, joined.fresh⟩
    have moves := tryConnect_moves inside .manual (some (.call call))
    have entered : Moves c (tryConnect { c with bridge } .manual (some (.call call))).1 :=
      moves.of_same rfl rfl rfl rfl rfl rfl rfl
    exact entered.then_waits ⟨.inl rfl, rfl, rfl, rfl, rfl, rfl, rfl⟩

theorem finishConnect_moves (joined : Joined c) (call : Nat) :
    Moves c (c.perform (.finishConnect call)) := by
  simp only [perform]
  cases finishes : c.finishConnect call with
  | none => exact .waits (.refl c)
  | some finished =>
    unfold finishConnect at finishes
    cases leaves : c.bridge.leave call with
    | none =>
      rw [leaves] at finishes
      cases finishes
    | some left =>
      obtain ⟨result, bridge⟩ := left
      rw [leaves] at finishes
      simp only at finishes
      have bound : Bound { c with bridge, awaited := none } :=
        ⟨joined.codec, joined.interception, joined.binding⟩
      split at finishes
      · next ms generation awaited =>
        obtain rfl := Option.some.inj finishes
        exact (attemptFailed_moves bound generation (.timeout ms)).of_same
          rfl rfl rfl rfl rfl rfl rfl
      · obtain rfl := Option.some.inj finishes
        exact .waits ⟨.inl rfl, rfl, rfl, rfl, rfl, rfl, rfl⟩

theorem fire_moves (joined : Joined c) (t : Timer) : Moves c (c.perform (.fire t)) := by
  simp only [perform]
  split
  · have struck : Joined { c with timers := c.timers.erase t } :=
      ⟨⟨joined.codec, joined.interception, joined.binding⟩, joined.channel, joined.fresh⟩
    cases alarm : t.alarm with
    | reconnect =>
      simp only [fire, alarm, ring]
      exact (tryConnect_moves struck .automatic none).of_same rfl rfl rfl rfl rfl rfl rfl
    | sessionDeadline generation timeoutMs =>
      simp only [fire, alarm, ring]
      exact (attemptFailed_moves struck.toBound generation _).of_same rfl rfl rfl rfl rfl rfl rfl
  · exact .waits (.refl c)

/-- What a connection does by itself keeps it joined to the service. A loss is not its own: there the
service breaks the channel first. -/
theorem perform_moves (joined : Joined c) {operation : Operation Loopback}
    (intact : operation.isIntact = true) : Moves c (c.perform operation) := by
  cases operation with
  | beginConnect thread timeoutMs => exact beginConnect_moves joined thread timeoutMs
  | finishConnect call => exact finishConnect_moves joined call
  | connectWith completion => exact tryConnect_moves joined .manual (some (.completion completion))
  | receive signal =>
    cases signal with
    | lost generation => cases intact
    | sessionReply generation reply =>
      exact (sessionCreated_cases joined.toBound generation reply).elim .waits .falls
  | fire t => exact fire_moves joined t
  | invalidate => exact invalidate_moves joined.toBound
  | expireConnect call | wait ms => exact .waits ⟨.inl rfl, rfl, rfl, rfl, rfl, rfl, rfl⟩
  | configure setting | world transport => cases intact

end Connection

end EndpointMonitor
