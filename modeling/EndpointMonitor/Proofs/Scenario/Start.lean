import EndpointMonitor.Proofs.Scenario.Demo
import Mathlib.Data.Nat.Digits.Lemmas

/-!
The beginning of the demonstration: the client is set up and activated, it subscribes to events, and
it mutes one process.
-/

namespace EndpointMonitor.Demo

open Client (Attached Joined)

variable {config : ClientConfig} {payload : Bytes}

/-- The client as it is set up. -/
def setUp (config : ClientConfig) : Client (List Action) :=
  { (Client.new config (.ofService (.new config.codec))).setHandlers handlers with
    stateHandler := some replay }

/-- The demonstration when the client is set up. -/
def atSetUp (config : ClientConfig) : Run :=
  ⟨{ Scenario.new config config.codec with client := setUp config }, #[], none⟩

/-! ### The first session -/

/-- The service with the channel of the first attempt. -/
def bound (config : ClientConfig) : Service :=
  { Service.new config.codec with channels := 1, binding := some ⟨1, 1⟩ }

/-- The service with its first session. -/
def served (config : ClientConfig) : Service :=
  { bound config with
    converter := some config.converter
    sessions := 1
    maxInFlight := 1
    requests := ["create_session"] }

/-- The connection with a caller in its bridge. -/
def entered (config : ClientConfig) : Connection Loopback :=
  { (setUp config).connection with
    bridge := ⟨[⟨0, config.timeoutMs, none⟩], some 0, some 0, some 0⟩ }

/-- The connection with a channel that has not been handed over. -/
def attempting (config : ClientConfig) : Connection Loopback :=
  { entered config with
    transport := .ofService (bound config)
    state := .connecting
    generation := 1
    waiters := [.call 0]
    trace := [.creating 1] }

/-- The connection with its first session, which it has told nobody about. -/
def connected (config : ClientConfig) (payload : Bytes) : Connection Loopback :=
  { (setUp config).connection with
    transport := .ofService (served config)
    state := .connected
    generation := 1
    channel := some 1
    timers := [⟨0 + config.timeoutMs.toNat, .sessionDeadline 1 config.timeoutMs⟩]
    bridge := ⟨[⟨0, config.timeoutMs, some (.ok ())⟩], some 0, some 0, some 0⟩
    awaited := some 1
    trace := [.creating 1, .requested 1 1 payload, .answered (.call 0) (.ok ()),
      .published Client.subscriber (.ok ())] }

/-- The service opens a session if the converter fits into a request. -/
theorem openSession_attempting
    (encoded : Codec.encode config.codec config.converter = .ok payload) :
    Transport.openSession (attempting config).transport 1 1 payload =
      ([.sessionReply 1 (.ok .done)], .ofService (served config)) := by
  have decoded : Codec.decode config.codec payload = .ok config.converter :=
    Codec.decode_of_recovers (faithful_converterConfig config.converter) (by decide) encoded
  have current : (bound config).isCurrent 1 = true := rfl
  obtain ⟨answer, serves⟩ := Service.served_session current decoded
  have sends := Loopback.openSession_eq (l := .ofService (bound config)) rfl 1 1 payload
  have service : (Loopback.ofService (bound config)).service = bound config := rfl
  rw [service, answer, serves] at sends
  exact sends

theorem tryConnect_entered (encoded : Codec.encode config.codec config.converter = .ok payload) :
    (entered config).tryConnect .manual (some (.call 0)) =
      ({ connected config payload with awaited := none }, some 1) := by
  have starts : (entered config).start .manual (some (.call 0)) =
    (attempting config, some ⟨[], .ok 1⟩) := Connection.start_begun rfl _
  have attempts : (attempting config).isAttempting 1 = true := rfl
  have hands := Connection.handOver_requested attempts encoded 1
  rw [openSession_attempting encoded] at hands
  have generation : (attempting config).generation = 1 := rfl
  simp only [Connection.tryConnect, starts, List.foldl_nil, Connection.resume, generation, hands]
  rfl

/-- The client when its activation has returned. The state handler has not run. -/
def activated (config : ClientConfig) (payload : Bytes) : Client (List Action) :=
  { setUp config with
    connection := { connected config payload with
      bridge := ⟨[⟨0, config.timeoutMs, some (.ok ())⟩], none, none, none⟩
      awaited := none
      trace := [] }
    stateQueue := ⟨[.handle replay (.ok ())], none⟩
    trace := (connected config payload).trace.map .connection }

/-- The scenario when the activation has returned. -/
def activation (config : ClientConfig) (payload : Bytes) : Scenario :=
  { Scenario.new config config.codec with
    client := activated config payload
    activations := [(0, .ok ())] }

theorem beginConnect_setUp (encoded : Codec.encode config.codec config.converter = .ok payload) :
    (setUp config).connection.beginConnect 0 config.timeoutMs =
      .started 0 (connected config payload) := by
  have enters : (setUp config).connection.bridge.enter 0 config.timeoutMs =
    .started 0 (entered config).bridge := rfl
  have same : { (setUp config).connection with bridge := (entered config).bridge } =
    entered config := rfl
  simp only [Connection.beginConnect, enters, same, tryConnect_entered encoded]
  rfl

/-- The client while the caller is still in the bridge. -/
def answered (config : ClientConfig) (payload : Bytes) : Client (List Action) :=
  { activated config payload with
    connection := { connected config payload with trace := [] } }

theorem beginActivate_setUp (encoded : Codec.encode config.codec config.converter = .ok payload) :
    (setUp config).beginActivate 0 = .started 0 (answered config payload) := by
  have begins : (setUp config).connection.beginConnect 0 (setUp config).timeoutMs =
    .started 0 (connected config payload) := beginConnect_setUp encoded
  simp only [Client.beginActivate, begins]
  rfl

theorem joinActivation_answered :
    { Scenario.new config config.codec with client := answered config payload }.joinActivation 0 =
      (.ok (), activation config payload) := rfl

theorem act_activate (encoded : Codec.encode config.codec config.converter = .ok payload) :
    (atSetUp config).scenario.act 0 .activate =
      (.outcome (.ok ()), activation config payload) := by
  simp only [Scenario.act, atSetUp, Scenario.beginActivation, beginActivate_setUp encoded,
    Scenario.join, joinActivation_answered]

/-! ### The first subscription -/

theorem request_subscribe (codec : Codec) : (Control.subscribe watched).request codec =
    .ok (.subscribe (Codec.encodeEvents watched)) := rfl

theorem apply_subscribe (codec : Codec) (t : ServiceTables) (events : EventSet) :
    t.apply codec (.subscribe (Codec.encodeEvents events)) =
      .ok (.done, { t with subscriptions := t.subscriptions.union events }) := by
  simp only [ServiceTables.apply, Control.eventSet_encodeEvents]
  rfl

theorem union_watched : EventSet.empty.union watched = watched := by decide

/-- The client while its state handler runs. -/
def handling (config : ClientConfig) (payload : Bytes) : Client (List Action) :=
  { activated config payload with stateQueue := ⟨[], some (.handle replay (.ok ()))⟩ }.note
    (.handled (.ok ()))

/-- How a new client gets there. -/
def operations : List (Client.Operation (List Action)) :=
  [.configure (.handlers handlers), .configure (.stateHandler replay), .beginActivate 0,
    .finishActivate 0, .startJob]

theorem performAll_operations (encoded : Codec.encode config.codec config.converter = .ok payload) :
    (Client.ofNewService config config.codec).performAll operations = handling config payload := by
  have begins : (setUp config).perform (.beginActivate 0) = answered config payload := by
    rw [Client.perform, beginActivate_setUp encoded]
    rfl
  show (((setUp config).perform (.beginActivate 0)).perform (.finishActivate 0)).perform
    .startJob = _
  rw [begins]
  rfl

/-- The scenario while the state handler runs. -/
def subscribing (config : ClientConfig) (payload : Bytes) : Scenario :=
  { activation config payload with client := handling config payload }

theorem calm_subscribing (encoded : Codec.encode config.codec config.converter = .ok payload)
    (timed : config.timeoutMs ≠ 0) : (subscribing config payload).Calm := by
  have attached := (Client.attached_ofNewService config config.codec).performAll operations
  have joined := (Client.joined_ofNewService config).performAll operations
  rw [performAll_operations encoded] at attached joined
  refine ⟨rfl, attached, joined, rfl, rfl, rfl, fun t set => ?_, rfl, nofun⟩
  obtain rfl := List.mem_singleton.1 set
  have positive : 0 < config.timeoutMs.toNat :=
    Nat.pos_of_ne_zero fun zero => timed (UInt64.toNat_inj.1 zero)
  exact Nat.lt_of_lt_of_eq positive (Nat.zero_add _).symm

/-- The state handler subscribes, and then all is ready. -/
theorem ready_activation (encoded : Codec.encode config.codec config.converter = .ok payload)
    (timed : config.timeoutMs ≠ 0) : ∃ s, (activation config payload).quiesce = s ∧
      Ready config.codec .empty s ∧ told s = ["state  connected"] ∧
      s.client.service.tables.resolutions = .empty := by
  obtain ⟨service, bridge, calls, acts, calm, alters⟩ :=
    (calm_subscribing encoded timed).control (request_subscribe _) (apply_subscribe _ _ _)
      Scenario.stateThread
  let called := (subscribing config payload).called service bridge calls
  let s : Scenario := { called with
    client := called.client.finishJob
    replayed := [.control (.ok .done)] }
  have settles : (activation config payload).settle Scenario.maxDepth = s :=
    Scenario.settle_handle (s := activation config payload) rfl rfl acts rfl rfl 9998
  have ready : Ready config.codec .empty s :=
    { calm := calm.of_same rfl rfl rfl rfl rfl rfl
      installed := rfl
      queue := rfl
      unawaited := rfl
      watches :=
        { shares := ⟨alters.codec, rfl⟩
          handlers := rfl
          idle := rfl
          connected := congrArg Option.isSome alters.binding
          subscriptions := (congrArg _ alters.tables).trans union_watched
          mutes := congrArg _ alters.tables
          heeded := fun path verdict found => by
            have nothing : service.tables.interest = .empty := congrArg _ alters.tables
            have absent : service.tables.interest.find? path = none := by
              rw [nothing]
              rfl
            cases absent.symm.trans found }
      responder := alters.responder }
  exact ⟨s, Scenario.quiesce_of_settle settles ready.idle, ready, rfl, congrArg _ alters.tables⟩

/-! ### The preparation -/

/-- A demonstration that has not begun. -/
def start (config : ClientConfig) : Run := ⟨.new config config.codec, #[], none⟩

theorem act_setUp (config : ClientConfig) :
    ((start config).act (.setHandlers fun _ => handlers)).act (.setStateHandler replay) =
      atSetUp config := by
  let s : Scenario := { Scenario.new config config.codec with
    client := (Scenario.new config config.codec).client.setHandlers handlers }
  have first : (Scenario.new config config.codec).step (.setHandlers fun _ => handlers) =
    (.nothing, s) := Scenario.step_of_idle rfl rfl ⟨rfl, rfl, rfl, nofun, rfl⟩
  have second : s.step (.setStateHandler replay) = (.nothing, (atSetUp config).scenario) :=
    Scenario.step_of_idle rfl rfl ⟨rfl, rfl, rfl, nofun, rfl⟩
  have one : (start config).act (.setHandlers fun _ => handlers) = ⟨s, #[], none⟩ :=
    act_of_step (r := start config) rfl first rfl
  rw [one]
  exact act_of_step (r := ⟨s, #[], none⟩) rfl second rfl

/-- The client connects, and says so. -/
theorem stands_activated (encoded : Codec.encode config.codec config.converter = .ok payload)
    (timed : config.timeoutMs ≠ 0) :
    Stands config.codec .empty ((atSetUp config).act .activate) ["state  connected"] ∧
      ((atSetUp config).act .activate).scenario.client.service.tables.resolutions = .empty := by
  obtain ⟨s, quiet, ready, lines, uncached⟩ := ready_activation encoded timed
  have steps : (atSetUp config).scenario.step .activate = (.outcome (.ok ()), s) := by
    rw [Scenario.step_plain rfl (act_activate encoded) rfl, quiet]
  rw [act_of_step (r := atSetUp config) rfl steps rfl]
  refine ⟨?_, uncached⟩
  have blank : (atSetUp config).lines.toList = [] := rfl
  have stands := Stands.print ready blank
  rwa [lines] at stands

/-- The rule of the process that is muted. -/
def mutedRule : MuteProcessRule := .name "backupd"

/-- The mutes of the demonstration. -/
def mutes : Mutes :=
  { Mutes.empty with processes := MuteTable.mute .empty mutedRule (.ofList [.notifyExec]) }

theorem apply_muteProcess {codec : Codec} {rule : MuteProcessRule}
    (encoded : codec.encode rule = .ok payload) (t : ServiceTables) (events : EventSet) :
    t.apply codec (.muteProcess ⟨payload, Codec.encodeEvents events⟩) =
      .ok (.done, t.mapProcesses (·.mute rule events)) := by
  simp only [ServiceTables.apply, Codec.decodeRule_of_encode encoded,
    Control.eventSet_encodeEvents]
  rfl

/-- The converter takes less room than the rule of the mute. -/
theorem length_converter_le (converter : ConverterConfig) :
    (Wire.encode converter).write.length ≤ (Wire.encode mutedRule).write.length := by
  have digits : (Json.writeNat converter.version.toNat).length ≤ 10 := by
    rw [Json.writeNat, List.length_map]
    exact Nat.toDigits_length 10 _ 10 (by decide)
      (Nat.lt_trans converter.version.toNat_lt (by decide))
  have text : (Wire.encode converter).write = 0x7b :: ((Json.writeString "version" ++ 0x3a ::
    Json.writeNat converter.version.toNat) ++ [0x7d]) := rfl
  have key : (Json.writeString "version").length = 9 := by decide
  have rule : (Wire.encode mutedRule).write.length = 33 := by decide
  simp only [text, rule, List.length_cons, List.length_append, key, List.length_nil]
  omega

/-- To subscribe once more changes nothing. -/
theorem Stands.subscribe {codec : Codec} {muted : Mutes} {r : Run} {lines : List String}
    (h : Stands codec muted r lines) :
    Stands codec muted (r.act (.control (.subscribe watched))) lines ∧
      (r.act (.control (.subscribe watched))).scenario.client.service.tables.resolutions =
        r.scenario.client.service.tables.resolutions := by
  have subscriptions : r.scenario.client.service.tables.subscriptions = watched :=
    h.ready.watches.subscriptions
  have mutes : r.scenario.client.service.tables.mutes = muted := h.ready.watches.mutes
  have still : r.scenario.client.service.tables.subscriptions.union watched = watched := by
    rw [subscriptions]
    decide
  obtain ⟨stands, tables⟩ := h.control (request_subscribe codec) (apply_subscribe _ _ _) still rfl
  rw [tables]
  exact ⟨mutes ▸ stands, rfl⟩

/-- One process is muted, if the service can be told so. -/
theorem Stands.mute {codec : Codec} {r : Run} {lines : List String}
    (h : Stands codec .empty r lines)
    (admits : (Wire.encode mutedRule).write.length ≤ codec.limit) :
    Stands codec mutes (r.act (.control (.muteProcess mutedRule (.ofList [.notifyExec])))) lines ∧
      (r.act (.control (.muteProcess mutedRule
        (.ofList [.notifyExec])))).scenario.client.service.tables.resolutions =
        r.scenario.client.service.tables.resolutions := by
  have encoded := Codec.encode_of_fits admits
  have unmuted : r.scenario.client.service.tables.mutes = .empty := h.ready.watches.mutes
  have request : (Control.muteProcess mutedRule (.ofList [.notifyExec])).request codec =
      .ok (.muteProcess ⟨(Wire.encode mutedRule).write,
        Codec.encodeEvents (.ofList [.notifyExec])⟩) := by
    rw [Control.request, encoded]
    rfl
  obtain ⟨stands, tables⟩ := h.control request (apply_muteProcess encoded _ _)
    h.ready.watches.subscriptions rfl
  have muted : (r.scenario.client.service.tables.mapProcesses
      (·.mute mutedRule (.ofList [.notifyExec]))).mutes = mutes := by
    rw [ServiceTables.mapProcesses, unmuted]
    rfl
  rw [tables]
  exact ⟨muted ▸ stands, rfl⟩

/-- The client listens to what it is going to be told, and has muted one process. -/
theorem stands_prepared
    (admits : (Wire.encode mutedRule).write.length ≤ Codec.limit config.codec)
    (timed : config.timeoutMs ≠ 0) :
    Stands config.codec mutes (prepare.foldl Run.act (start config)) ["state  connected"] ∧
      (prepare.foldl Run.act (start config)).scenario.client.service.tables.resolutions =
        .empty := by
  have converter : Codec.encode config.codec config.converter = .ok _ :=
    Codec.encode_of_fits (Nat.le_trans (length_converter_le _) admits)
  obtain ⟨active, uncached⟩ := stands_activated converter timed
  obtain ⟨subscribed, kept⟩ := active.subscribe
  obtain ⟨muted, still⟩ := subscribed.mute admits
  have runs : prepare.foldl Run.act (start config) =
      (((atSetUp config).act .activate).act (.control (.subscribe watched))).act
        (.control (.muteProcess mutedRule (.ofList [.notifyExec]))) := by
    simp only [prepare, List.foldl_cons, List.foldl_nil, ← act_setUp, replay, mutedRule]
  rw [runs]
  exact ⟨muted, still.trans (kept.trans uncached)⟩

end EndpointMonitor.Demo
