import EndpointMonitor.Client.Control
import EndpointMonitor.Proofs.Codec.RoundTrip
import EndpointMonitor.Proofs.Mute.Table
import Mathlib.Data.Set.Insert
import Mathlib.Logic.Function.Basic

/-!
What control operations do to what the service remembers of a client. The tables are seen as sets of
events and functions of selectors; on these an operation is one equation. A request that the service
accepts is an operation, and changes the tables as that operation says.
-/

namespace EndpointMonitor

/-- What the service remembers of a client: the sets of events that are subscribed and muted, the
classes of mutes that are inverted, and what is cached. -/
structure Holdings where
  subscribed : Set EventType
  processMutes : MuteProcessRule → Set EventType
  pathMutes : PathSelector → Set EventType
  inverted : Set InvertMutingType
  interest : String → Option (Option InterestVerdict)
  resolutions : String × EventType → Option Resolution

def ServiceTables.holdings (t : ServiceTables) : Holdings where
  subscribed := t.subscriptions.members
  processMutes rule := (MuteTable.muted t.mutes.processes rule).members
  pathMutes selector := (MuteTable.muted t.mutes.paths selector).members
  inverted := {muteType | t.mutes.inversions.get muteType = true}
  interest := t.interest.find?
  resolutions := t.resolutions.find?

namespace Control

/-- What an operation changes. All that it does not name stays. -/
def effect : Control → Holdings → Holdings
  | .subscribe events, h => { h with subscribed := h.subscribed ∪ events.members }
  | .unsubscribe events, h => { h with subscribed := h.subscribed \ events.members }
  | .unsubscribeAll, h => { h with subscribed := ∅ }
  | .clearCache, h => { h with resolutions := fun _ => none }
  | .clearPathInterestCache, h => { h with interest := fun _ => none }
  | .muteProcess rule events, h =>
    { h with
      processMutes :=
        Function.update h.processMutes rule (h.processMutes rule ∪ events.members) }
  | .unmuteProcess rule events, h =>
    { h with
      processMutes :=
        Function.update h.processMutes rule (h.processMutes rule \ events.members) }
  | .mutePath path pathType events, h =>
    { h with
      pathMutes := Function.update h.pathMutes (path, pathType)
        (h.pathMutes (path, pathType) ∪ events.members) }
  | .unmutePath path pathType events, h =>
    { h with
      pathMutes := Function.update h.pathMutes (path, pathType)
        (h.pathMutes (path, pathType) \ events.members) }
  | .unmuteAllProcesses, h => { h with processMutes := fun _ => ∅ }
  | .unmuteAllPaths, h =>
    { h with
      pathMutes := fun selector => if selector.2.isTarget then h.pathMutes selector else ∅ }
  | .unmuteAllTargetPaths, h =>
    { h with
      pathMutes := fun selector => if selector.2.isTarget then ∅ else h.pathMutes selector }
  | .invertMuting muteType true, h => { h with inverted := insert muteType h.inverted }
  | .invertMuting muteType false, h => { h with inverted := h.inverted \ {muteType} }
  | .mutingInverted _, h => h

/-- What an operation is answered on these tables. -/
def reply (t : ServiceTables) : Control → ServiceReply
  | .mutingInverted muteType => .flag (t.mutes.inversions.get muteType)
  | _ => .done

end Control

/-! ### Requests as operations -/

/-- The operation that a request asks for, if its rule and its events can be read. -/
def ServiceRequest.control? (codec : Codec) : ServiceRequest → Option Control
  | .createSession _ => none
  | .clearPathInterestCache => some .clearPathInterestCache
  | .muteProcess ⟨rule, events⟩ => do
    some (.muteProcess (← (ServiceTables.decodeRule codec rule).toOption)
      (← (ServiceTables.eventSet events).toOption))
  | .unmuteProcess ⟨rule, events⟩ => do
    some (.unmuteProcess (← (ServiceTables.decodeRule codec rule).toOption)
      (← (ServiceTables.eventSet events).toOption))
  | .mutePath ⟨path, pathType, events⟩ => do
    some (.mutePath path pathType (← (ServiceTables.eventSet events).toOption))
  | .unmutePath ⟨path, pathType, events⟩ => do
    some (.unmutePath path pathType (← (ServiceTables.eventSet events).toOption))
  | .unmuteAllProcesses => some .unmuteAllProcesses
  | .unmuteAllPaths => some .unmuteAllPaths
  | .unmuteAllTargetPaths => some .unmuteAllTargetPaths
  | .subscribe events => do some (.subscribe (← (ServiceTables.eventSet events).toOption))
  | .unsubscribe events => do some (.unsubscribe (← (ServiceTables.eventSet events).toOption))
  | .unsubscribeAll => some .unsubscribeAll
  | .clearCache => some .clearCache
  | .invertMuting ⟨muteType, invert⟩ => some (.invertMuting muteType invert)
  | .mutingInverted muteType => some (.mutingInverted muteType)

namespace ServiceTables

theorem mem_eventSet {events : List EventType} {set : EventSet} (h : eventSet events = .ok set)
    {e : EventType} : e ∈ set ↔ e ∈ events := by
  unfold eventSet Codec.decodeEvents at h
  cases made : EventSet.ofList? events with
  | error error =>
    rw [made] at h
    cases h
  | ok first =>
    rw [made] at h
    obtain rfl : first = set := Except.ok.inj h
    exact EventSet.mem_of_ofList made

/-! ### Changes to one table -/

section
variable {κ : Type} [DecidableEq κ] (t : MuteTable κ)

theorem members_mute (key : κ) (events : EventSet) :
    (fun other => (MuteTable.muted (MuteTable.mute t key events) other).members) =
      Function.update (fun other => (MuteTable.muted t other).members) key
        ((MuteTable.muted t key).members ∪ events.members) := by
  funext other
  by_cases same : other = key
  · subst same
    simp [MuteTable.muted_mute]
  · simp [MuteTable.muted_mute, same]

theorem members_unmute (key : κ) (events : EventSet) :
    (fun other => (MuteTable.muted (MuteTable.unmute t key events) other).members) =
      Function.update (fun other => (MuteTable.muted t other).members) key
        ((MuteTable.muted t key).members \ events.members) := by
  funext other
  by_cases same : other = key
  · subst same
    simp [MuteTable.muted_unmute]
  · simp [MuteTable.muted_unmute, same]

theorem members_filter (keep : κ → Bool) :
    (fun key => (MuteTable.muted (t.filter keep) key).members) =
      fun key => if keep key then (MuteTable.muted t key).members else ∅ := by
  funext key
  rw [MuteTable.muted_filter]
  split <;> simp

end

theorem inverted_set (i : Inversions) (muteType : InvertMutingType) (invert : Bool) :
    {other | (i.set muteType invert).get other = true} =
      if invert then insert muteType {other | i.get other = true}
      else {other | i.get other = true} \ {muteType} := by
  ext other
  cases invert <;> by_cases same : other = muteType <;>
    simp [Inversions.get_set, same, Set.mem_insert_iff, Set.mem_singleton_iff]

/-! ### Changes to the holdings -/

section
variable (t : ServiceTables)

theorem holdings_mapProcesses (f : MuteTable MuteProcessRule → MuteTable MuteProcessRule) :
    (t.mapProcesses f).holdings =
      { t.holdings with
        processMutes := fun rule => (MuteTable.muted (f t.mutes.processes) rule).members } := rfl

theorem holdings_mapPaths (f : MuteTable PathSelector → MuteTable PathSelector) :
    (t.mapPaths f).holdings =
      { t.holdings with
        pathMutes := fun selector => (MuteTable.muted (f t.mutes.paths) selector).members } := rfl

theorem holdings_muteProcess (rule : MuteProcessRule) (events : EventSet) :
    (t.mapProcesses (MuteTable.mute · rule events)).holdings =
      (Control.muteProcess rule events).effect t.holdings := by
  rw [holdings_mapProcesses, members_mute]
  rfl

theorem holdings_unmuteProcess (rule : MuteProcessRule) (events : EventSet) :
    (t.mapProcesses (MuteTable.unmute · rule events)).holdings =
      (Control.unmuteProcess rule events).effect t.holdings := by
  rw [holdings_mapProcesses, members_unmute]
  rfl

theorem holdings_mutePath (path : String) (pathType : MutePathType) (events : EventSet) :
    (t.mapPaths (MuteTable.mute · (path, pathType) events)).holdings =
      (Control.mutePath path pathType events).effect t.holdings := by
  rw [holdings_mapPaths, members_mute]
  rfl

theorem holdings_unmutePath (path : String) (pathType : MutePathType) (events : EventSet) :
    (t.mapPaths (MuteTable.unmute · (path, pathType) events)).holdings =
      (Control.unmutePath path pathType events).effect t.holdings := by
  rw [holdings_mapPaths, members_unmute]
  rfl

theorem holdings_unmuteAllProcesses :
    (t.mapProcesses fun _ => .empty).holdings = Control.unmuteAllProcesses.effect t.holdings := by
  rw [holdings_mapProcesses]
  simp only [MuteTable.muted_empty, EventSet.members_empty, Control.effect]

theorem holdings_unmuteAllPaths :
    (t.mapPaths (·.filter fun key => key.2.isTarget)).holdings =
      Control.unmuteAllPaths.effect t.holdings := by
  rw [holdings_mapPaths, members_filter]
  rfl

theorem holdings_unmuteAllTargetPaths :
    (t.mapPaths (·.filter fun key => !key.2.isTarget)).holdings =
      Control.unmuteAllTargetPaths.effect t.holdings := by
  rw [holdings_mapPaths, members_filter]
  refine congrArg (fun paths => { t.holdings with pathMutes := paths }) (funext fun selector => ?_)
  cases selector.2.isTarget <;> rfl

theorem holdings_subscribe (events : EventSet) :
    ({ t with subscriptions := t.subscriptions.union events } : ServiceTables).holdings =
      (Control.subscribe events).effect t.holdings := by
  simp only [holdings, Control.effect, EventSet.members_union]

theorem holdings_unsubscribe (events : EventSet) :
    ({ t with subscriptions := t.subscriptions.subtract events } : ServiceTables).holdings =
      (Control.unsubscribe events).effect t.holdings := by
  simp only [holdings, Control.effect, EventSet.members_subtract]

theorem holdings_unsubscribeAll :
    ({ t with subscriptions := .empty } : ServiceTables).holdings =
      Control.unsubscribeAll.effect t.holdings := by
  simp only [holdings, Control.effect, EventSet.members_empty]

theorem holdings_invertMuting (muteType : InvertMutingType) (invert : Bool) :
    ({ t with mutes := { t.mutes with
        inversions := t.mutes.inversions.set muteType invert } } : ServiceTables).holdings =
      (Control.invertMuting muteType invert).effect t.holdings := by
  have turned := inverted_set t.mutes.inversions muteType invert
  cases invert <;> simp only [holdings, Control.effect, turned] <;> rfl

end

/-! ### Requests that are accepted -/

/-- The service carries out the operation that a request asks for. -/
theorem apply_control {codec : Codec} {request : ServiceRequest} {control : Control}
    (asks : request.control? codec = some control) (t : ServiceTables) :
    ∃ after, t.apply codec request = .ok (control.reply t, after) ∧
      after.holdings = control.effect t.holdings := by
  cases request with
  | createSession converter => cases asks
  | muteProcess mute =>
    obtain ⟨rule, hr, asks⟩ := Option.bind_eq_some_iff.1 asks
    obtain ⟨events, he, made⟩ := Option.bind_eq_some_iff.1 asks
    obtain rfl := Option.some.inj made
    simp only [apply, Wire.eq_ok_of_toOption hr, Wire.eq_ok_of_toOption he]
    exact ⟨_, rfl, t.holdings_muteProcess rule events⟩
  | unmuteProcess mute =>
    obtain ⟨rule, hr, asks⟩ := Option.bind_eq_some_iff.1 asks
    obtain ⟨events, he, made⟩ := Option.bind_eq_some_iff.1 asks
    obtain rfl := Option.some.inj made
    simp only [apply, Wire.eq_ok_of_toOption hr, Wire.eq_ok_of_toOption he]
    exact ⟨_, rfl, t.holdings_unmuteProcess rule events⟩
  | mutePath mute =>
    obtain ⟨events, he, made⟩ := Option.bind_eq_some_iff.1 asks
    obtain rfl := Option.some.inj made
    simp only [apply, Wire.eq_ok_of_toOption he]
    exact ⟨_, rfl, t.holdings_mutePath mute.path mute.pathType events⟩
  | unmutePath mute =>
    obtain ⟨events, he, made⟩ := Option.bind_eq_some_iff.1 asks
    obtain rfl := Option.some.inj made
    simp only [apply, Wire.eq_ok_of_toOption he]
    exact ⟨_, rfl, t.holdings_unmutePath mute.path mute.pathType events⟩
  | subscribe listed =>
    obtain ⟨events, he, made⟩ := Option.bind_eq_some_iff.1 asks
    obtain rfl := Option.some.inj made
    simp only [apply, Wire.eq_ok_of_toOption he]
    exact ⟨_, rfl, t.holdings_subscribe events⟩
  | unsubscribe listed =>
    obtain ⟨events, he, made⟩ := Option.bind_eq_some_iff.1 asks
    obtain rfl := Option.some.inj made
    simp only [apply, Wire.eq_ok_of_toOption he]
    exact ⟨_, rfl, t.holdings_unsubscribe events⟩
  | unsubscribeAll =>
    obtain rfl := Option.some.inj asks
    exact ⟨_, rfl, t.holdings_unsubscribeAll⟩
  | unmuteAllProcesses =>
    obtain rfl := Option.some.inj asks
    exact ⟨_, rfl, t.holdings_unmuteAllProcesses⟩
  | unmuteAllPaths =>
    obtain rfl := Option.some.inj asks
    exact ⟨_, rfl, t.holdings_unmuteAllPaths⟩
  | unmuteAllTargetPaths =>
    obtain rfl := Option.some.inj asks
    exact ⟨_, rfl, t.holdings_unmuteAllTargetPaths⟩
  | invertMuting inversion =>
    obtain rfl := Option.some.inj asks
    exact ⟨_, rfl, t.holdings_invertMuting inversion.muteType inversion.invert⟩
  | clearPathInterestCache | clearCache | mutingInverted muteType =>
    obtain rfl := Option.some.inj asks
    exact ⟨_, rfl, rfl⟩

/-- A request that is accepted asks for an operation, or opens a session and changes no table. -/
theorem asks_of_apply {codec : Codec} {t after : ServiceTables} {request : ServiceRequest}
    {reply : ServiceReply} (accepted : t.apply codec request = .ok (reply, after)) :
    (∃ control, request.control? codec = some control) ∨
      (∃ converter, request = .createSession converter) ∧ after = t := by
  cases request with
  | createSession converter =>
    obtain ⟨-, rfl⟩ := Prod.mk.inj (Except.ok.inj accepted)
    exact .inr ⟨⟨converter, rfl⟩, rfl⟩
  | muteProcess mute | unmuteProcess mute =>
    simp only [apply] at accepted
    cases hr : decodeRule codec mute.rule with
    | error reason =>
      rw [hr] at accepted
      cases accepted
    | ok rule =>
      rw [hr] at accepted
      cases he : eventSet mute.events with
      | error reason =>
        rw [he] at accepted
        cases accepted
      | ok events => exact .inl ⟨_, by simp only [ServiceRequest.control?, hr, he]; rfl⟩
  | mutePath mute | unmutePath mute =>
    simp only [apply] at accepted
    cases he : eventSet mute.events with
    | error reason =>
      rw [he] at accepted
      cases accepted
    | ok events => exact .inl ⟨_, by simp only [ServiceRequest.control?, he]; rfl⟩
  | subscribe listed | unsubscribe listed =>
    simp only [apply] at accepted
    cases he : eventSet listed with
    | error reason =>
      rw [he] at accepted
      cases accepted
    | ok events => exact .inl ⟨_, by simp only [ServiceRequest.control?, he]; rfl⟩
  | invertMuting inversion => exact .inl ⟨.invertMuting inversion.muteType inversion.invert, rfl⟩
  | clearPathInterestCache | unmuteAllProcesses | unmuteAllPaths | unmuteAllTargetPaths
  | unsubscribeAll | clearCache | mutingInverted muteType => exact .inl ⟨_, rfl⟩

end ServiceTables

end EndpointMonitor
