import EndpointMonitor.Proofs.Service.Operation

/-!
What a service holds, read off the requests that it has accepted. Each subscription, mute and
inversion is as the last accepted request that concerns it says, among those on the latest channel
that was made.
-/

namespace EndpointMonitor

/-! ### What an operation says of one entry -/

/-- An entry is there after an operation that says so, or if it was there before one that says
nothing of it. -/
def Decides (verdict : Option Bool) (before after : Prop) : Prop :=
  after ↔ verdict = some true ∨ verdict = none ∧ before

/-- What the last of some operations says that says anything. -/
def lastVerdict? {α : Type} (verdict : α → Option Bool) (operations : List α) : Option Bool :=
  (operations.filterMap verdict).getLast?

theorem lastVerdict_snoc {α : Type} (verdict : α → Option Bool) (operations : List α)
    (operation : α) :
    lastVerdict? verdict (operations ++ [operation]) =
      (verdict operation).or (lastVerdict? verdict operations) := by
  rw [lastVerdict?, List.filterMap_append]
  cases last : verdict operation with
  | none => simp [lastVerdict?, last]
  | some value => simp [last]

theorem Decides.lastVerdict {α : Type} {verdict : α → Option Bool} {operations : List α}
    {operation : α} {before after : Prop} (decides : Decides (verdict operation) before after)
    (known : before ↔ lastVerdict? verdict operations = some true) :
    after ↔ lastVerdict? verdict (operations ++ [operation]) = some true := by
  rw [Decides, known] at decides
  rw [decides, lastVerdict_snoc]
  cases verdict operation <;> simp

namespace Control

/-- Whether the event is subscribed after the operation, if the operation concerns that. -/
def subscribes? (event : EventType) : Control → Option Bool
  | .subscribe events => if event ∈ events then some true else none
  | .unsubscribe events => if event ∈ events then some false else none
  | .unsubscribeAll => some false
  | _ => none

def mutesProcess? (rule : MuteProcessRule) (event : EventType) : Control → Option Bool
  | .muteProcess named events => if named = rule ∧ event ∈ events then some true else none
  | .unmuteProcess named events => if named = rule ∧ event ∈ events then some false else none
  | .unmuteAllProcesses => some false
  | _ => none

/-- Each of the two bulk operations covers one kind of path. -/
def mutesPath? (path : String) (pathType : MutePathType) (event : EventType) :
    Control → Option Bool
  | .mutePath named namedType events =>
    if (named, namedType) = (path, pathType) ∧ event ∈ events then some true else none
  | .unmutePath named namedType events =>
    if (named, namedType) = (path, pathType) ∧ event ∈ events then some false else none
  | .unmuteAllPaths => if pathType.isTarget then none else some false
  | .unmuteAllTargetPaths => if pathType.isTarget then some false else none
  | _ => none

def inverts? (muteType : InvertMutingType) : Control → Option Bool
  | .invertMuting named invert => if named = muteType then some invert else none
  | _ => none

theorem subscribed_effect (control : Control) (h : Holdings) (event : EventType) :
    Decides (control.subscribes? event) (event ∈ h.subscribed)
      (event ∈ (control.effect h).subscribed) := by
  cases control with
  | subscribe events | unsubscribe events =>
    by_cases named : event ∈ events <;> simp [Decides, effect, subscribes?, named]
  | invertMuting muteType invert => cases invert <;> simp [Decides, effect, subscribes?]
  | _ => simp [Decides, effect, subscribes?]

theorem processMutes_effect (control : Control) (h : Holdings) (rule : MuteProcessRule)
    (event : EventType) :
    Decides (control.mutesProcess? rule event) (event ∈ h.processMutes rule)
      (event ∈ (control.effect h).processMutes rule) := by
  cases control with
  | muteProcess named events | unmuteProcess named events =>
    by_cases same : named = rule
    · subst same
      by_cases listed : event ∈ events <;> simp [Decides, effect, mutesProcess?, listed]
    · simp [Decides, effect, mutesProcess?, same, Function.update_of_ne (Ne.symm same)]
  | invertMuting muteType invert => cases invert <;> simp [Decides, effect, mutesProcess?]
  | _ => simp [Decides, effect, mutesProcess?]

theorem pathMutes_effect (control : Control) (h : Holdings) (path : String)
    (pathType : MutePathType) (event : EventType) :
    Decides (control.mutesPath? path pathType event) (event ∈ h.pathMutes (path, pathType))
      (event ∈ (control.effect h).pathMutes (path, pathType)) := by
  cases control with
  | mutePath named namedType events | unmutePath named namedType events =>
    by_cases same : (named, namedType) = (path, pathType)
    · rw [← same]
      by_cases listed : event ∈ events <;> simp [Decides, effect, mutesPath?, same, listed]
    · simp [Decides, effect, mutesPath?, same, Function.update_of_ne (Ne.symm same)]
  | unmuteAllPaths | unmuteAllTargetPaths =>
    cases target : pathType.isTarget <;> simp [Decides, effect, mutesPath?, target]
  | invertMuting muteType invert => cases invert <;> simp [Decides, effect, mutesPath?]
  | _ => simp [Decides, effect, mutesPath?]

theorem inverted_effect (control : Control) (h : Holdings) (muteType : InvertMutingType) :
    Decides (control.inverts? muteType) (muteType ∈ h.inverted)
      (muteType ∈ (control.effect h).inverted) := by
  cases control with
  | invertMuting named invert =>
    by_cases same : named = muteType
    · subst same
      cases invert <;> simp [Decides, effect, inverts?]
    · cases invert <;> simp [Decides, effect, inverts?, same, Ne.symm same]
  | _ => simp [Decides, effect, inverts?]

end Control

/-! ### What a request says of one entry -/

namespace ServiceRequest

def subscribes? (event : EventType) : ServiceRequest → Option Bool
  | .subscribe events => if event ∈ events then some true else none
  | .unsubscribe events => if event ∈ events then some false else none
  | .unsubscribeAll => some false
  | _ => none

/-- Whether the request names a process rule and an event. -/
def namesProcess (codec : Codec) (rule : MuteProcessRule) (event : EventType) (mute : ProcessMute) :
    Bool :=
  (ServiceTables.decodeRule codec mute.rule).toOption = some rule && event ∈ mute.events

def mutesProcess? (codec : Codec) (rule : MuteProcessRule) (event : EventType) :
    ServiceRequest → Option Bool
  | .muteProcess mute => if namesProcess codec rule event mute then some true else none
  | .unmuteProcess mute => if namesProcess codec rule event mute then some false else none
  | .unmuteAllProcesses => some false
  | _ => none

def namesPath (path : String) (pathType : MutePathType) (event : EventType) (mute : PathMute) :
    Bool :=
  (mute.path, mute.pathType) = (path, pathType) && event ∈ mute.events

def mutesPath? (path : String) (pathType : MutePathType) (event : EventType) :
    ServiceRequest → Option Bool
  | .mutePath mute => if namesPath path pathType event mute then some true else none
  | .unmutePath mute => if namesPath path pathType event mute then some false else none
  | .unmuteAllPaths => if pathType.isTarget then none else some false
  | .unmuteAllTargetPaths => if pathType.isTarget then some false else none
  | _ => none

def inverts? (muteType : InvertMutingType) : ServiceRequest → Option Bool
  | .invertMuting ⟨named, invert⟩ => if named = muteType then some invert else none
  | _ => none

/-- A request and an operation say the same of every entry. -/
structure Agrees (codec : Codec) (request : ServiceRequest) (control : Control) : Prop where
  subscribes : ∀ event, request.subscribes? event = control.subscribes? event
  mutesProcess : ∀ rule event,
    request.mutesProcess? codec rule event = control.mutesProcess? rule event
  mutesPath : ∀ path pathType event,
    request.mutesPath? path pathType event = control.mutesPath? path pathType event
  inverts : ∀ muteType, request.inverts? muteType = control.inverts? muteType

theorem agrees_of_asks {codec : Codec} {request : ServiceRequest} {control : Control}
    (asks : request.control? codec = some control) : Agrees codec request control := by
  cases request with
  | createSession converter => cases asks
  | muteProcess mute | unmuteProcess mute =>
    obtain ⟨rule, hr, asks⟩ := Option.bind_eq_some_iff.1 asks
    obtain ⟨events, he, made⟩ := Option.bind_eq_some_iff.1 asks
    obtain rfl := Option.some.inj made
    have listed := fun event =>
      ServiceTables.mem_eventSet (Wire.eq_ok_of_toOption he) (e := event)
    refine ⟨fun _ => rfl, fun named event => ?_, fun _ _ _ => rfl, fun _ => rfl⟩
    simp [mutesProcess?, namesProcess, Control.mutesProcess?, hr, listed]
  | mutePath mute | unmutePath mute =>
    obtain ⟨events, he, made⟩ := Option.bind_eq_some_iff.1 asks
    obtain rfl := Option.some.inj made
    have listed := fun event =>
      ServiceTables.mem_eventSet (Wire.eq_ok_of_toOption he) (e := event)
    refine ⟨fun _ => rfl, fun _ _ => rfl, fun path pathType event => ?_, fun _ => rfl⟩
    simp [mutesPath?, namesPath, Control.mutesPath?, listed]
  | subscribe listed | unsubscribe listed =>
    obtain ⟨events, he, made⟩ := Option.bind_eq_some_iff.1 asks
    obtain rfl := Option.some.inj made
    refine ⟨fun event => ?_, fun _ _ => rfl, fun _ _ _ => rfl, fun _ => rfl⟩
    simp [subscribes?, Control.subscribes?,
      ServiceTables.mem_eventSet (Wire.eq_ok_of_toOption he)]
  | clearPathInterestCache | unmuteAllProcesses | unmuteAllPaths | unmuteAllTargetPaths
  | unsubscribeAll | clearCache | invertMuting inversion | mutingInverted muteType =>
    obtain rfl := Option.some.inj asks
    exact ⟨fun _ => rfl, fun _ _ => rfl, fun _ _ _ => rfl, fun _ => rfl⟩

end ServiceRequest

/-! ### The record of a service -/

namespace Service

/-- The request that an operation brings, if the service accepts it. -/
def accepted? (s : Service) : Operation → Option ServiceRequest
  | .request channel request _ =>
    match s.answer channel request with
    | .ok _ => some request
    | .error _ => none
  | _ => none

/-- Whether an operation makes a new channel. -/
def makesChannel (s : Service) : Operation → Bool
  | .bind _ => s.available
  | _ => false

/-- The record after an operation. It starts anew with each channel. -/
def noted (s : Service) (record : List ServiceRequest) (operation : Operation) :
    List ServiceRequest :=
  if s.makesChannel operation then [] else record ++ (s.accepted? operation).toList

/-- What is on record after a run: the requests that the service has accepted since it made the
latest channel, in order. -/
def record (s : Service) (earlier : List ServiceRequest) : List Operation → List ServiceRequest
  | [] => earlier
  | operation :: operations => (s.perform operation).record (s.noted earlier operation) operations

theorem refused_tables {s : Service} {channel : Nat} {request : ServiceRequest} {reason : String}
    (refused : s.answer channel request = .error reason) :
    (s.served channel request).tables = s.tables := by
  refine served_other fun current => ?_
  cases asks : request.control? s.codec with
  | none => rfl
  | some control =>
    rw [(served_control current asks).1] at refused
    cases refused

theorem applied_of_accepted {s : Service} {channel : Nat} {request : ServiceRequest}
    {reply : ServiceReply} (ok : s.answer channel request = .ok reply) :
    ∃ reply, s.tables.apply s.codec request = .ok (reply, (s.served channel request).tables) := by
  cases current : s.isCurrent channel with
  | false =>
    rw [answer_stale current] at ok
    cases ok
  | true =>
    cases request with
    | createSession converter =>
      rw [served_other fun _ => rfl]
      exact ⟨.done, rfl⟩
    | _ =>
      simp only [answer, served, current, if_true, apply] at ok ⊢
      split at ok
      · next reply after accepted => exact ⟨reply, accepted⟩
      · cases ok

/-- What holds of empty tables and an empty record, and is kept by each request that is accepted, is
kept by every operation. The caches are no part of it. -/
theorem noted_of_kept {P : ServiceTables → List ServiceRequest → Prop} {s : Service}
    (nothing : P .empty [])
    (kept : ∀ {t after record request reply}, P t record →
      t.apply s.codec request = .ok (reply, after) → P after (record ++ [request]))
    (aside : ∀ {t record} interest resolutions, P t record →
      P { t with interest := interest, resolutions := resolutions } record)
    {record : List ServiceRequest} (h : P s.tables record) (operation : Operation) :
    P (s.perform operation).tables (s.noted record operation) := by
  have unnoted : ∀ {operation}, s.makesChannel operation = false → s.accepted? operation = none →
      P s.tables (s.noted record operation) := by
    intro operation old ignored
    simpa [noted, old, ignored] using h
  cases operation with
  | bind generation =>
    cases ready : s.available with
    | true =>
      have anew : s.noted record (.bind generation) = [] := by simp [noted, makesChannel, ready]
      simp only [Service.perform, Service.bind, ready, if_true, anew]
      exact nothing
    | false =>
      simp only [Service.perform, Service.bind, ready, Bool.false_eq_true, if_false]
      exact unnoted ready rfl
  | request channel request deliver =>
    rw [perform, request_eq, (respond_steady _ _).tables]
    simp only [noted, makesChannel, accepted?, Bool.false_eq_true, if_false]
    cases answered : s.answer channel request with
    | error reason =>
      rw [refused_tables answered, Option.toList_none, List.append_nil]
      exact h
    | ok reply =>
      obtain ⟨reply, accepted⟩ := applied_of_accepted answered
      exact kept h accepted
  | unbind channel =>
    have same : (s.perform (.unbind channel)).tables = s.tables := by
      simp only [Service.perform, unbind]
      split <;> rfl
    rw [same]
    exact unnoted rfl rfl
  | customMessage channel data deliver =>
    rw [Service.perform, (customMessage_steady s channel data deliver).tables]
    exact unnoted rfl rfl
  | deliverDelayed limitMs =>
    rw [(deliverDelayed_perform s limitMs).tables]
    exact unnoted rfl rfl
  | configure setting =>
    rw [Service.perform, (configure_steady s setting).tables]
    exact unnoted rfl rfl
  | interrupt | releaseHeld => exact unnoted rfl rfl
  | remember interest resolutions => exact aside interest resolutions (unnoted rfl rfl)

theorem recorded_of_kept {P : ServiceTables → List ServiceRequest → Prop} {codec : Codec}
    (nothing : P .empty [])
    (kept : ∀ {t after record request reply}, P t record →
      t.apply codec request = .ok (reply, after) → P after (record ++ [request]))
    (aside : ∀ {t record} interest resolutions, P t record →
      P { t with interest := interest, resolutions := resolutions } record)
    {s : Service} (same : s.codec = codec) {earlier : List ServiceRequest} (h : P s.tables earlier)
    (operations : List Operation) :
    P (s.performAll operations).tables (s.record earlier operations) := by
  induction operations generalizing s earlier with
  | nil => exact h
  | cons operation operations further =>
    have first := noted_of_kept nothing (same ▸ kept) aside h operation
    exact further ((perform_codec s operation).trans same) first

/-- Every entry is as the last request on record says that concerns it. -/
structure Recorded (codec : Codec) (t : ServiceTables) (record : List ServiceRequest) : Prop where
  subscribed : ∀ event, event ∈ t.subscriptions ↔
    lastVerdict? (·.subscribes? event) record = some true
  processMutes : ∀ rule event, event ∈ MuteTable.muted t.mutes.processes rule ↔
    lastVerdict? (·.mutesProcess? codec rule event) record = some true
  pathMutes : ∀ path pathType event, event ∈ MuteTable.muted t.mutes.paths (path, pathType) ↔
    lastVerdict? (·.mutesPath? path pathType event) record = some true
  inverted : ∀ muteType, t.mutes.inversions.get muteType = true ↔
    lastVerdict? (·.inverts? muteType) record = some true

theorem recorded_empty (codec : Codec) : Recorded codec .empty [] where
  subscribed event := by simp [ServiceTables.empty, lastVerdict?]
  processMutes rule event := by simp [ServiceTables.empty, Mutes.empty, lastVerdict?]
  pathMutes path pathType event := by simp [ServiceTables.empty, Mutes.empty, lastVerdict?]
  inverted muteType := by
    cases muteType <;>
      simp [ServiceTables.empty, Mutes.empty, Inversions.none, Inversions.get, lastVerdict?]

/-- An operation that is carried out goes on record. -/
theorem Recorded.carryOut {codec : Codec} {t after : ServiceTables} {record : List ServiceRequest}
    (h : Recorded codec t record) {request : ServiceRequest} {control : Control}
    (asks : request.control? codec = some control)
    (effect : after.holdings = control.effect t.holdings) :
    Recorded codec after (record ++ [request]) := by
  have agrees := ServiceRequest.agrees_of_asks asks
  refine ⟨fun event => ?_, fun rule event => ?_, fun path pathType event => ?_, fun muteType => ?_⟩
  · have decides := control.subscribed_effect t.holdings event
    rw [← effect, ← agrees.subscribes event] at decides
    exact decides.lastVerdict (h.subscribed event)
  · have decides := control.processMutes_effect t.holdings rule event
    rw [← effect, ← agrees.mutesProcess rule event] at decides
    exact decides.lastVerdict (h.processMutes rule event)
  · have decides := control.pathMutes_effect t.holdings path pathType event
    rw [← effect, ← agrees.mutesPath path pathType event] at decides
    exact decides.lastVerdict (h.pathMutes path pathType event)
  · have decides := control.inverted_effect t.holdings muteType
    rw [← effect, ← agrees.inverts muteType] at decides
    exact decides.lastVerdict (h.inverted muteType)

theorem Recorded.openSession {codec : Codec} {t : ServiceTables} {record : List ServiceRequest}
    (h : Recorded codec t record) (converter : Bytes) :
    Recorded codec t (record ++ [.createSession converter]) where
  subscribed event := by
    rw [lastVerdict_snoc]
    exact h.subscribed event
  processMutes rule event := by
    rw [lastVerdict_snoc]
    exact h.processMutes rule event
  pathMutes path pathType event := by
    rw [lastVerdict_snoc]
    exact h.pathMutes path pathType event
  inverted muteType := by
    rw [lastVerdict_snoc]
    exact h.inverted muteType

theorem Recorded.note {codec : Codec} {t after : ServiceTables} {record : List ServiceRequest}
    {request : ServiceRequest} {reply : ServiceReply} (h : Recorded codec t record)
    (accepted : t.apply codec request = .ok (reply, after)) :
    Recorded codec after (record ++ [request]) := by
  rcases ServiceTables.asks_of_apply accepted with ⟨control, asks⟩ | ⟨⟨converter, rfl⟩, rfl⟩
  · obtain ⟨_, applied, effect⟩ := ServiceTables.apply_control asks t
    rw [applied] at accepted
    cases accepted
    exact h.carryOut asks effect
  · exact h.openSession converter

theorem Recorded.performAll {s : Service} {earlier : List ServiceRequest}
    (h : Recorded s.codec s.tables earlier) (operations : List Operation) :
    Recorded s.codec (s.performAll operations).tables (s.record earlier operations) :=
  recorded_of_kept (recorded_empty s.codec) Recorded.note
    (fun _ _ kept => ⟨kept.subscribed, kept.processMutes, kept.pathMutes, kept.inverted⟩) rfl h
    operations

/-- Whatever has happened to a service, the tables are what its record says. An event is subscribed
if the last accepted request that concerns this is a subscription, and so it is with mutes and
inversions. Requests on earlier channels count for nothing, and neither do those that are refused. -/
theorem tables_follow_record (codec : Codec) (operations : List Operation) :
    let s := (new codec).performAll operations
    let record := (new codec).record [] operations
    (∀ event, event ∈ s.tables.subscriptions ↔
      lastVerdict? (·.subscribes? event) record = some true) ∧
    (∀ rule event, event ∈ MuteTable.muted s.tables.mutes.processes rule ↔
      lastVerdict? (·.mutesProcess? codec rule event) record = some true) ∧
    (∀ path pathType event, event ∈ MuteTable.muted s.tables.mutes.paths (path, pathType) ↔
      lastVerdict? (·.mutesPath? path pathType event) record = some true) ∧
    ∀ muteType, s.tables.mutes.inversions.get muteType = true ↔
      lastVerdict? (·.inverts? muteType) record = some true := by
  intro s record
  have recorded : Recorded codec s.tables record :=
    Recorded.performAll (s := new codec) (recorded_empty codec) operations
  exact ⟨recorded.subscribed, recorded.processMutes, recorded.pathMutes, recorded.inverted⟩

/-- The second request is refused, since no set can hold one of its events, and so is the last, which
comes on an earlier channel. -/
example :
    let operations : List Operation := [.bind 1, .bind 2,
      .request 2 (.subscribe [⟨3⟩, ⟨9⟩]) .foreign, .request 2 (.unsubscribe [⟨9⟩, ⟨1024⟩]) .foreign,
      .request 2 (.unsubscribe [⟨3⟩]) .foreign, .request 1 .unsubscribeAll .foreign]
    (new .default).record [] operations = [.subscribe [⟨3⟩, ⟨9⟩], .unsubscribe [⟨3⟩]] ∧
      ⟨3⟩ ∉ ((new .default).performAll operations).tables.subscriptions ∧
      ⟨9⟩ ∈ ((new .default).performAll operations).tables.subscriptions := by
  decide +kernel

end Service

end EndpointMonitor
