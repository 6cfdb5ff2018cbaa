import EndpointMonitor.Proofs.Service.Notification
import EndpointMonitor.Proofs.Service.Refusal

/-!
Requests to mute and to unmute. Such a request has no effect on messages that its selector does not
select or whose kind of event it does not list, whatever else is muted and inverted.
-/

namespace EndpointMonitor

/-- What is muted: the events of some processes, or events with some path. -/
inductive MuteSelector where
  | process (rule : MuteProcessRule)
  | path (selector : PathSelector)
  deriving DecidableEq

namespace MuteSelector

/-- The class of mutes to which a selector belongs. -/
def muteType : MuteSelector → InvertMutingType
  | .process _ => .process
  | .path (_, pathType) => if pathType.isTarget then .targetPath else .path

/-- A selector looks at the process of a message, at the path of the process, or at the target. No
message without a target is selected by its target. -/
def Selects (m : EventMessage) : MuteSelector → Prop
  | .process rule => rule.selects m.process = true
  | .path (start, pathType) =>
    if pathType.isTarget then
      ∃ target, m.target? = some target ∧ pathType.covers start target = true
    else pathType.covers start m.process.path = true

end MuteSelector

/-- A request to mute the listed events under a selector, or to unmute them. -/
structure MuteChange where
  mutes : Bool
  selector : MuteSelector
  events : List EventType

/-- What a request wants muted or unmuted, if its rule can be read. -/
def ServiceRequest.muteChange? (codec : Codec) : ServiceRequest → Option MuteChange
  | .muteProcess ⟨rule, events⟩ =>
    (codec.decode rule).toOption.map fun rule => ⟨true, .process rule, events⟩
  | .unmuteProcess ⟨rule, events⟩ =>
    (codec.decode rule).toOption.map fun rule => ⟨false, .process rule, events⟩
  | .mutePath ⟨path, pathType, events⟩ => some ⟨true, .path (path, pathType), events⟩
  | .unmutePath ⟨path, pathType, events⟩ => some ⟨false, .path (path, pathType), events⟩
  | _ => none

/-! ### What is muted -/

theorem MuteTable.mem_muted {κ : Type} [DecidableEq κ] {t : MuteTable κ} {key : κ} {e : EventType} :
    e ∈ MuteTable.muted t key ↔ ∃ events, t.find? key = some events ∧ e ∈ events := by
  unfold MuteTable.muted
  cases t.find? key with
  | none => simp
  | some events => simp

/-- The class of targets has nothing to do with a message without one. -/
def InvertMutingType.Concerns (m : EventMessage) (muteType : InvertMutingType) : Prop :=
  muteType = .targetPath → ∃ target, m.target? = some target

theorem InvertMutingType.concerns_of_ne (muteType : InvertMutingType)
    (other : muteType ≠ .targetPath) (m : EventMessage) : muteType.Concerns m :=
  fun target => absurd target other

namespace Holdings

/-- The events that are muted under a selector. -/
def muted (h : Holdings) : MuteSelector → Set EventType
  | .process rule => h.processMutes rule
  | .path selector => h.pathMutes selector

/-- Some selector of a class selects a message for its kind of event. -/
def Matches (h : Holdings) (m : EventMessage) (muteType : InvertMutingType) : Prop :=
  ∃ selector : MuteSelector,
    selector.muteType = muteType ∧ m.eventType ∈ h.muted selector ∧ selector.Selects m

/-- A class blocks the messages that match it, or all others if it is inverted. -/
def Blocks (h : Holdings) (m : EventMessage) (muteType : InvertMutingType) : Prop :=
  muteType.Concerns m ∧ (h.Matches m muteType ↔ muteType ∉ h.inverted)

end Holdings

namespace ServiceTables

variable {t : ServiceTables} {m : EventMessage}

theorem matches_process : t.holdings.Matches m .process ↔ t.mutes.SelectsProcess m := by
  constructor
  · rintro ⟨selector, class_, muted, selects⟩
    cases selector with
    | process rule =>
      obtain ⟨events, found, listed⟩ := MuteTable.mem_muted.1 muted
      exact ⟨rule, events, found, listed, selects⟩
    | path selector =>
      simp only [MuteSelector.muteType] at class_
      split at class_ <;> cases class_
  · rintro ⟨rule, events, found, listed, selects⟩
    exact ⟨.process rule, rfl, MuteTable.mem_muted.2 ⟨events, found, listed⟩, selects⟩

theorem matches_path :
    t.holdings.Matches m .path ↔ t.mutes.Covers m.eventType m.process.path false := by
  constructor
  · rintro ⟨selector, class_, muted, selects⟩
    cases selector with
    | process rule => cases class_
    | path selector =>
      obtain ⟨path, pathType⟩ := selector
      obtain ⟨events, found, listed⟩ := MuteTable.mem_muted.1 muted
      cases target : pathType.isTarget with
      | true => simp [MuteSelector.muteType, target] at class_
      | false =>
        simp only [MuteSelector.Selects, target, Bool.false_eq_true, if_false] at selects
        exact ⟨path, pathType, events, found, target, listed, selects⟩
  · rintro ⟨path, pathType, events, found, target, listed, covers⟩
    refine ⟨.path (path, pathType), ?_, MuteTable.mem_muted.2 ⟨events, found, listed⟩, ?_⟩
    · simp [MuteSelector.muteType, target]
    · simpa [MuteSelector.Selects, target] using covers

theorem matches_target {aim : String} (aims : m.target? = some aim) :
    t.holdings.Matches m .targetPath ↔ t.mutes.Covers m.eventType aim true := by
  constructor
  · rintro ⟨selector, class_, muted, selects⟩
    cases selector with
    | process rule => cases class_
    | path selector =>
      obtain ⟨path, pathType⟩ := selector
      obtain ⟨events, found, listed⟩ := MuteTable.mem_muted.1 muted
      cases target : pathType.isTarget with
      | false => simp [MuteSelector.muteType, target] at class_
      | true =>
        simp only [MuteSelector.Selects, target, if_true, aims, Option.some.injEq,
          exists_eq_left'] at selects
        exact ⟨path, pathType, events, found, target, listed, selects⟩
  · rintro ⟨path, pathType, events, found, target, listed, covers⟩
    refine ⟨.path (path, pathType), ?_, MuteTable.mem_muted.2 ⟨events, found, listed⟩, ?_⟩
    · simp [MuteSelector.muteType, target]
    · simpa [MuteSelector.Selects, target, aims] using covers

theorem not_blocks {muteType : InvertMutingType} (concerns : muteType.Concerns m) :
    ¬t.holdings.Blocks m muteType ↔
      (t.holdings.Matches m muteType ↔ t.mutes.inversions.get muteType = true) := by
  have inverted : muteType ∈ t.holdings.inverted ↔ t.mutes.inversions.get muteType = true := Iff.rfl
  rw [Holdings.Blocks, and_iff_right concerns, inverted]
  tauto

/-- A message is muted if any class blocks it. -/
theorem mutes_iff : t.mutes.mutes m = true ↔ ∃ muteType, t.holdings.Blocks m muteType := by
  have process := not_blocks (t := t) (InvertMutingType.process.concerns_of_ne (by decide) m)
  have path := not_blocks (t := t) (InvertMutingType.path.concerns_of_ne (by decide) m)
  rw [← not_iff_not, Bool.not_eq_true, Mutes.not_mutes_iff, not_exists]
  constructor
  · intro admits muteType
    cases muteType with
    | process => exact process.2 (matches_process.trans admits.process)
    | path => exact path.2 (matches_path.trans admits.path)
    | targetPath =>
      intro blocks
      obtain ⟨aim, aims⟩ := blocks.1 rfl
      have admitted := (matches_target aims).trans (admits.target aim aims)
      exact (not_blocks blocks.1).2 admitted blocks
  · intro free
    refine ⟨?_, ?_, ?_⟩
    · exact matches_process.symm.trans (process.1 (free .process))
    · exact matches_path.symm.trans (path.1 (free .path))
    · intro aim aims
      have concerns : InvertMutingType.targetPath.Concerns m := fun _ => ⟨aim, aims⟩
      exact (matches_target aims).symm.trans ((not_blocks concerns).1 (free .targetPath))

end ServiceTables

/-! ### What a request changes -/

namespace MuteChange

/-- The operation on a set of events. -/
def control (change : MuteChange) (events : EventSet) : Control :=
  match change.mutes, change.selector with
  | true, .process rule => .muteProcess rule events
  | false, .process rule => .unmuteProcess rule events
  | true, .path (path, pathType) => .mutePath path pathType events
  | false, .path (path, pathType) => .unmutePath path pathType events

/-- Nothing changes under other selectors. -/
theorem muted_control (change : MuteChange) (events : EventSet) (h : Holdings) :
    ((change.control events).effect h).muted = Function.update h.muted change.selector
      (if change.mutes then h.muted change.selector ∪ events.members
        else h.muted change.selector \ events.members) := by
  obtain ⟨mutes, selector, listed⟩ := change
  funext other
  cases selector with
  | process rule =>
    cases other with
    | process other =>
      by_cases same : other = rule
      · subst same
        cases mutes <;> simp [control, Control.effect, Holdings.muted]
      · cases mutes <;> simp [control, Control.effect, Holdings.muted, same]
    | path other => cases mutes <;> simp [control, Control.effect, Holdings.muted]
  | path selector =>
    cases other with
    | process other => cases mutes <;> simp [control, Control.effect, Holdings.muted]
    | path other =>
      by_cases same : other = selector
      · subst same
        cases mutes <;> simp [control, Control.effect, Holdings.muted]
      · cases mutes <;> simp [control, Control.effect, Holdings.muted, same]

theorem inverted_control (change : MuteChange) (events : EventSet) (h : Holdings) :
    ((change.control events).effect h).inverted = h.inverted := by
  obtain ⟨mutes, selector, listed⟩ := change
  cases selector <;> cases mutes <;> rfl

theorem reply_control (change : MuteChange) (events : EventSet) (t : ServiceTables) :
    (change.control events).reply t = .done := by
  obtain ⟨mutes, selector, listed⟩ := change
  cases selector <;> cases mutes <;> rfl

variable {change : MuteChange} {events : EventSet} {h : Holdings} {m : EventMessage}

/-- A message is out of reach if it is not selected or its kind of event is not listed. -/
theorem matches_control_of_not (apart : m.eventType ∉ events ∨ ¬change.selector.Selects m)
    (muteType : InvertMutingType) :
    ((change.control events).effect h).Matches m muteType ↔ h.Matches m muteType := by
  refine exists_congr fun selector => and_congr_right fun _ => ?_
  rw [muted_control]
  by_cases same : selector = change.selector
  · subst same
    rcases apart with unlisted | unselected
    · have unlisted : m.eventType ∉ events.members := unlisted
      cases change.mutes <;> simp [unlisted]
    · simp only [unselected, and_false]
  · rw [Function.update_of_ne same]

/-- Once more has been muted, what matched before matches and what is selected matches too. -/
theorem matches_mute (mutes : change.mutes = true) (muteType : InvertMutingType) :
    ((change.control events).effect h).Matches m muteType ↔ h.Matches m muteType ∨
      (change.selector.muteType = muteType ∧ m.eventType ∈ events ∧ change.selector.Selects m) := by
  constructor
  · rintro ⟨selector, class_, muted, selects⟩
    rw [muted_control, mutes] at muted
    by_cases same : selector = change.selector
    · subst same
      rw [Function.update_self] at muted
      rcases muted with before | listed
      · exact .inl ⟨_, class_, before, selects⟩
      · exact .inr ⟨class_, listed, selects⟩
    · rw [Function.update_of_ne same] at muted
      exact .inl ⟨selector, class_, muted, selects⟩
  · rintro (⟨selector, class_, muted, selects⟩ | ⟨class_, listed, selects⟩)
    · refine ⟨selector, class_, ?_, selects⟩
      rw [muted_control, mutes]
      by_cases same : selector = change.selector
      · subst same
        rw [Function.update_self]
        exact .inl muted
      · rwa [Function.update_of_ne same]
    · refine ⟨change.selector, class_, ?_, selects⟩
      rw [muted_control, mutes, Function.update_self]
      exact .inr listed

theorem concerns_of_selects {selector : MuteSelector} (selects : selector.Selects m) :
    selector.muteType.Concerns m := by
  intro class_
  cases selector with
  | process rule => cases class_
  | path selector =>
    obtain ⟨path, pathType⟩ := selector
    cases target : pathType.isTarget with
    | false => simp [MuteSelector.muteType, target] at class_
    | true =>
      simp only [MuteSelector.Selects, target, if_true] at selects
      obtain ⟨aim, aims, -⟩ := selects
      exact ⟨aim, aims⟩

variable {t after : ServiceTables}

theorem get_control (effect : after.holdings = (change.control events).effect t.holdings)
    (muteType : InvertMutingType) :
    after.mutes.inversions.get muteType = t.mutes.inversions.get muteType := by
  have inverted : after.holdings.inverted = t.holdings.inverted := by
    rw [effect, inverted_control]
  exact Bool.eq_iff_iff.2 (Set.ext_iff.1 inverted muteType)

/-- A message that is out of reach is muted as before. -/
theorem mutes_control_of_not (effect : after.holdings = (change.control events).effect t.holdings)
    (apart : m.eventType ∉ events ∨ ¬change.selector.Selects m) :
    after.mutes.mutes m = t.mutes.mutes m := by
  rw [Bool.eq_iff_iff, ServiceTables.mutes_iff, ServiceTables.mutes_iff]
  refine exists_congr fun muteType => ?_
  rw [effect, Holdings.Blocks, matches_control_of_not apart, inverted_control, Holdings.Blocks]

/-- A message that is selected is muted, if its class is not inverted. -/
theorem mutes_of_selects (effect : after.holdings = (change.control events).effect t.holdings)
    (mutes : change.mutes = true) (listed : m.eventType ∈ events)
    (selects : change.selector.Selects m)
    (upright : t.mutes.inversions.get change.selector.muteType = false) :
    after.mutes.mutes m = true := by
  have matched : after.holdings.Matches m change.selector.muteType := by
    rw [effect]
    exact (matches_mute mutes _).2 (.inr ⟨rfl, listed, selects⟩)
  by_contra free
  rw [ServiceTables.mutes_iff, not_exists] at free
  have inverted := ((ServiceTables.not_blocks (concerns_of_selects selects)).1 (free _)).1 matched
  rw [get_control effect, upright] at inverted
  cases inverted

/-- Muting under an inverted class lets more through. -/
theorem not_mutes_of_inverted
    (effect : after.holdings = (change.control events).effect t.holdings)
    (mutes : change.mutes = true)
    (inverted : t.mutes.inversions.get change.selector.muteType = true)
    (free : t.mutes.mutes m = false) : after.mutes.mutes m = false := by
  rw [← Bool.not_eq_true, ServiceTables.mutes_iff, not_exists] at free ⊢
  rintro muteType ⟨concerns, blocks⟩
  have before := (ServiceTables.not_blocks concerns).1 (free muteType)
  refine (ServiceTables.not_blocks concerns).2 ?_ ⟨concerns, blocks⟩
  rw [get_control effect, ← before, effect, matches_mute mutes]
  constructor
  · rintro (matched | ⟨rfl, -⟩)
    · exact matched
    · exact before.2 inverted
  · exact .inl

end MuteChange

/-! ### Requests that are carried out -/

namespace ServiceRequest

variable {codec : Codec} {request : ServiceRequest} {change : MuteChange}

theorem control?_of_muteChange (asks : request.muteChange? codec = some change) :
    request.control? codec =
      (ServiceTables.eventSet change.events).toOption.map change.control := by
  cases request with
  | muteProcess mute | unmuteProcess mute =>
    obtain ⟨rule, read, rfl⟩ := Option.map_eq_some_iff.1 asks
    have read := Wire.eq_ok_of_toOption read
    simp only [control?, ServiceTables.decodeRule, read]
    cases ServiceTables.eventSet mute.events <;> rfl
  | mutePath mute | unmutePath mute =>
    obtain rfl := Option.some.inj asks
    simp only [control?]
    cases ServiceTables.eventSet mute.events <;> rfl
  | _ => cases asks

/-- The rule of such a request can be read. -/
theorem readable_of_muteChange (asks : request.muteChange? codec = some change) :
    request.unreadable? codec = none ∧ request.events = change.events := by
  cases request with
  | muteProcess mute | unmuteProcess mute =>
    obtain ⟨rule, read, rfl⟩ := Option.map_eq_some_iff.1 asks
    have read := Wire.eq_ok_of_toOption read
    simp only [unreadable?, read, events, and_self]
  | mutePath mute | unmutePath mute =>
    obtain rfl := Option.some.inj asks
    exact ⟨rfl, rfl⟩
  | _ => cases asks

end ServiceRequest

namespace Service

variable {s : Service} {request : ServiceRequest} {change : MuteChange}

/-- Whether a request to mute or to unmute is accepted, and what it has changed then. -/
inductive Changed (s : Service) (channel : Nat) (request : ServiceRequest) (change : MuteChange) :
    Prop where
  | accepted {events : EventSet} (current : s.isCurrent channel = true)
      (inRange : ∀ e ∈ change.events, e.id.toNat ≤ 1023)
      (answered : s.answer channel request = .ok .done)
      (listed : ∀ e, e ∈ events ↔ e ∈ change.events)
      (effect : (s.served channel request).tables.holdings =
        (change.control events).effect s.tables.holdings)
  | refused {reason : String}
      (why : s.isCurrent channel = false ∨ ∃ e ∈ change.events, 1023 < e.id.toNat)
      (answered : s.answer channel request = .error reason)
      (untouched : (s.served channel request).tables = s.tables)

theorem changed (asks : request.muteChange? s.codec = some change) (channel : Nat) :
    s.Changed channel request change := by
  have control := ServiceRequest.control?_of_muteChange asks
  obtain ⟨readable, events⟩ := ServiceRequest.readable_of_muteChange asks
  by_cases why : s.isCurrent channel = false ∨ ∃ e ∈ change.events, 1023 < e.id.toNat
  · obtain ⟨reason, answered⟩ : ∃ reason, s.answer channel request = .error reason := by
      rw [exists_answer_error, events]
      exact why.imp_right .inr
    refine .refused why answered ?_
    rw [served_refused answered]
    split <;> rfl
  · rw [not_or, Bool.not_eq_false] at why
    obtain ⟨current, noneOutside⟩ := why
    have inRange : ∀ e ∈ change.events, e.id.toNat ≤ 1023 :=
      fun e listed => Nat.not_lt.1 fun outside => noneOutside ⟨e, listed, outside⟩
    have made := ServiceTables.eventSet_eq change.events
    rw [Codec.firstOutside?_eq_none_iff.2 inRange] at made
    rw [made] at control
    obtain ⟨answered, after, effect, served⟩ := served_control current control
    rw [change.reply_control] at answered
    refine .accepted current inRange answered (fun e => ServiceTables.mem_eventSet made) ?_
    rw [served, effect]

/-- Requests to mute and to unmute act locally. Whatever becomes of the request, a message is muted
afterwards if and only if it was before, if its kind of event is not listed or it is not selected.
If it is listed and selected, it is muted once the request to mute has been accepted, unless the
class of the selector is inverted; if the class is inverted, such a request mutes nothing that was
not muted. A request is accepted if its channel is the current one and all events are in range. -/
theorem mute_requests_local {s : Service} {request : ServiceRequest} {change : MuteChange}
    (asks : request.muteChange? s.codec = some change) (channel : Nat)
    (deliver : RemoteResult → Delivery) (m : EventMessage) :
    let before := s.tables.mutes
    let after := (s.request channel request deliver).2.tables.mutes
    let inverted := before.inversions.get change.selector.muteType
    (s.answer channel request = .ok .done ↔
      s.isCurrent channel = true ∧ ∀ e ∈ change.events, e.id.toNat ≤ 1023) ∧
    ((m.eventType ∉ change.events ∨ ¬change.selector.Selects m) →
      after.mutes m = before.mutes m) ∧
    (change.mutes = true → m.eventType ∈ change.events → change.selector.Selects m →
      inverted = false → s.answer channel request = .ok .done → after.mutes m = true) ∧
    (change.mutes = true → inverted = true → before.mutes m = false → after.mutes m = false) := by
  intro before after inverted
  have tables : (s.request channel request deliver).2.tables =
      (s.served channel request).tables := by
    rw [request_eq]
    exact (respond_steady _ _).tables
  have mutes : after = (s.served channel request).tables.mutes := congrArg (·.mutes) tables
  rw [mutes]
  cases changed asks channel with
  | accepted current inRange answered listed effect =>
    refine ⟨⟨fun _ => ⟨current, inRange⟩, fun _ => answered⟩, fun apart => ?_,
      fun mutes kind selects upright _ => ?_, fun mutes turned free => ?_⟩
    · refine MuteChange.mutes_control_of_not effect ?_
      rwa [listed]
    · exact MuteChange.mutes_of_selects effect mutes ((listed _).2 kind) selects upright
    · exact MuteChange.not_mutes_of_inverted effect mutes turned free
  | refused why answered untouched =>
    rw [untouched, answered]
    refine ⟨⟨nofun, fun fits => ?_⟩, fun _ => rfl, fun _ _ _ _ => nofun, fun _ _ free => free⟩
    rcases why with stale | ⟨e, listed, outside⟩
    · rw [fits.1] at stale
      cases stale
    · exact absurd (fits.2 e listed) (Nat.not_le.2 outside)

/-- The class of paths is inverted, so that only what runs from the directory of temporary files is
let through. -/
def onlyTemporary : Service :=
  secondChannel.performAll
    [.request 2 (.invertMuting ⟨.path, true⟩) (.call 2),
      .request 2 (.mutePath ⟨"/tmp/", .processPrefix, [⟨9⟩]⟩) (.call 3)]

/-- Muting the directory of temporary files mutes what runs from there, and nothing else. While the
class is inverted, muting a single file there does not keep it from being let through. -/
theorem temporary_directory_muted :
    let message (path : String) : EventMessage := .notify ⟨9⟩ (.ofPath 7 path)
    let mutes (s : Service) (path : String) : Bool := s.tables.mutes.mutes (message path)
    let directory : ServiceRequest := .mutePath ⟨"/tmp/", .processPrefix, [⟨9⟩]⟩
    let file : ServiceRequest := .mutePath ⟨"/tmp/a", .processLiteral, [⟨9⟩]⟩
    mutes (secondChannel.request 2 directory (.call 2)).2 "/tmp/a" = true ∧
      mutes (secondChannel.request 2 directory (.call 2)).2 "/bin/a" = false ∧
      mutes (onlyTemporary.request 2 file (.call 4)).2 "/tmp/a" = false := by
  intro message mutes directory file
  have whole : directory.muteChange? secondChannel.codec =
      some ⟨true, .path ("/tmp/", .processPrefix), [⟨9⟩]⟩ := rfl
  have single : file.muteChange? onlyTemporary.codec =
      some ⟨true, .path ("/tmp/a", .processLiteral), [⟨9⟩]⟩ := rfl
  obtain ⟨accepted, -, muted, -⟩ := mute_requests_local whole 2 (.call 2) (message "/tmp/a")
  obtain ⟨-, apart, -⟩ := mute_requests_local whole 2 (.call 2) (message "/bin/a")
  obtain ⟨-, -, -, turned⟩ := mute_requests_local single 2 (.call 4) (message "/tmp/a")
  have selects (path : String) :
      (MuteSelector.path ("/tmp/", .processPrefix)).Selects (message path) ↔
        beginsWith "/tmp/" path = true := Iff.rfl
  refine ⟨muted rfl (by decide) ((selects _).2 (by decide)) rfl (accepted.2 (by decide)), ?_, ?_⟩
  · have unselected := (selects "/bin/a").not.2 (by decide)
    exact (apart (.inr unselected)).trans (by decide)
  · exact turned rfl rfl (by decide)

end Service

end EndpointMonitor
