import EndpointMonitor.Proofs.Service.History

/-!
Which selectors have an entry in the tables of mutes. An entry without events is left by a request
to mute no events at all, and by nothing else; all other requests leave an entry only if there is
something muted under it.
-/

namespace EndpointMonitor

/-! ### Entries and changes to them -/

/-- What a request does to an entry: it leaves one, maybe without events; it leaves none without
events; it leaves the entry as it was. -/
def Leaves (hollow : Option Bool) (before after : Option EventSet) : Prop :=
  match hollow with
  | some true => after.isSome = true
  | some false => after ≠ some .empty
  | none => after = before

/-- An entry is there after a request that leaves one, and without events only after such a one. -/
structure Marks (hollow : Option Bool) (entry : Option EventSet) : Prop where
  isSome : hollow = some true → entry.isSome = true
  hollow : entry = some .empty → hollow = some true

theorem Leaves.marks {hollow last : Option Bool} {before after : Option EventSet}
    (leaves : Leaves hollow before after) (h : Marks last before) :
    Marks (hollow.or last) after := by
  cases hollow with
  | none =>
    obtain rfl : after = before := leaves
    exact h
  | some value =>
    cases value with
    | true => exact ⟨fun _ => leaves, fun _ => rfl⟩
    | false => exact ⟨nofun, fun hollow => absurd hollow leaves⟩

theorem Marks.eq_empty_iff {last : Option Bool} {entry : Option EventSet} (h : Marks last entry) :
    entry = some .empty ↔ entry.getD .empty = .empty ∧ last = some true := by
  constructor
  · intro hollow
    exact ⟨by rw [hollow, Option.getD_some], h.hollow hollow⟩
  · rintro ⟨nothing, left⟩
    obtain ⟨events, there⟩ := Option.isSome_iff_exists.1 (h.isSome left)
    rw [there, Option.getD_some] at nothing
    rw [there, nothing]

/-- An entry that is not empty is there for some event. -/
theorem Marks.exists_mem {last : Option Bool} {entry : Option EventSet} (h : Marks last entry)
    (others : last ≠ some true) {events : EventSet} (there : entry = some events) :
    ∃ event, event ∈ events := by
  by_contra none
  have nothing : events = .empty := EventSet.ext fun event =>
    iff_of_false (fun within => none ⟨event, within⟩) (by simp)
  rw [nothing] at there
  exact others (h.hollow there)

namespace MuteTable

variable {κ : Type} [DecidableEq κ]

/-- To mute events leaves an entry, and if there are any to mute, one with events. -/
theorem leaves_mute (t : MuteTable κ) (named key : κ) {listed : List EventType} {events : EventSet}
    (decoded : ServiceTables.eventSet listed = .ok events) :
    Leaves (if named = key then some listed.isEmpty else none) (t.find? key)
      ((MuteTable.mute t named events).find? key) := by
  by_cases same : named = key
  · subst same
    rw [find_mute, if_pos rfl, if_pos rfl]
    cases listed with
    | nil => exact Option.isSome_some
    | cons event others =>
      intro hollow
      have within : event ∈ events := (ServiceTables.mem_eventSet decoded).2 List.mem_cons_self
      have muted : event ∈ (MuteTable.muted t named).union events :=
        EventSet.mem_union.2 (.inr within)
      -- The entry would be empty, but the event is in it.
      rw [Option.some.inj hollow] at muted
      simp at muted
  · rw [find_mute, if_neg same, if_neg (Ne.symm same)]
    rfl

/-- To unmute events leaves no entry without events. -/
theorem leaves_unmute (t : MuteTable κ) (named key : κ) (events : EventSet) :
    Leaves (if named = key then some false else none) (t.find? key)
      ((MuteTable.unmute t named events).find? key) := by
  by_cases same : named = key
  · subst same
    rw [find_unmute, if_pos rfl, if_pos rfl]
    intro hollow
    split at hollow
    · cases hollow
    · next left =>
      rw [Option.some.inj hollow] at left
      exact left rfl
  · rw [find_unmute, if_neg same, if_neg (Ne.symm same)]
    rfl

theorem leaves_filter (t : MuteTable κ) (keep : κ → Bool) (key : κ) :
    Leaves (if keep key then none else some false) (t.find? key) ((t.filter keep).find? key) := by
  rw [Table.find_filter]
  cases keep key with
  | true => rfl
  | false => nofun

end MuteTable

/-! ### What a request does to the entries -/

namespace ServiceRequest

/-- Whether the request names the rule, and then whether it is one to mute no events at all. -/
def hollowsProcess? (codec : Codec) (rule : MuteProcessRule) : ServiceRequest → Option Bool
  | .muteProcess mute =>
    if (ServiceTables.decodeRule codec mute.rule).toOption = some rule then
      some mute.events.isEmpty
    else none
  | .unmuteProcess mute =>
    if (ServiceTables.decodeRule codec mute.rule).toOption = some rule then some false else none
  | .unmuteAllProcesses => some false
  | _ => none

/-- Each of the two bulk operations names one kind of path. -/
def hollowsPath? (path : String) (pathType : MutePathType) : ServiceRequest → Option Bool
  | .mutePath mute =>
    if (mute.path, mute.pathType) = (path, pathType) then some mute.events.isEmpty else none
  | .unmutePath mute =>
    if (mute.path, mute.pathType) = (path, pathType) then some false else none
  | .unmuteAllPaths => if pathType.isTarget then none else some false
  | .unmuteAllTargetPaths => if pathType.isTarget then some false else none
  | _ => none

/-- A request to mute no events at all. -/
def mutesNothing : ServiceRequest → Bool
  | .muteProcess mute => mute.events.isEmpty
  | .mutePath mute => mute.events.isEmpty
  | _ => false

theorem mutesNothing_of_hollowsProcess {codec : Codec} {rule : MuteProcessRule}
    {request : ServiceRequest} (hollows : request.hollowsProcess? codec rule = some true) :
    request.mutesNothing = true := by
  cases request with
  | muteProcess mute =>
    simp only [hollowsProcess?] at hollows
    split at hollows
    · exact Option.some.inj hollows
    · cases hollows
  | unmuteProcess mute =>
    simp only [hollowsProcess?] at hollows
    split at hollows <;> cases hollows
  | _ => cases hollows

theorem mutesNothing_of_hollowsPath {path : String} {pathType : MutePathType}
    {request : ServiceRequest} (hollows : request.hollowsPath? path pathType = some true) :
    request.mutesNothing = true := by
  cases request with
  | mutePath mute =>
    simp only [hollowsPath?] at hollows
    split at hollows
    · exact Option.some.inj hollows
    · cases hollows
  | unmutePath mute | unmuteAllPaths | unmuteAllTargetPaths =>
    simp only [hollowsPath?] at hollows
    split at hollows <;> cases hollows
  | _ => cases hollows

end ServiceRequest

namespace ServiceTables

variable {codec : Codec} {t after : ServiceTables} {reply : ServiceReply}

theorem ok_of_bind {α β : Type} {x : Except String α} {f : α → Except String β} {b : β}
    (ok : x >>= f = .ok b) : ∃ a, x = .ok a ∧ f a = .ok b := by
  cases x with
  | error reason => cases ok
  | ok a => exact ⟨a, rfl, ok⟩

/-- A request about a rule is accepted if the rule and the events can be read. -/
theorem read_of_ok {rule : Bytes} {listed : List EventType}
    {change : MuteProcessRule → EventSet → ServiceTables}
    (accepted : (do
      let rule ← decodeRule codec rule
      let events ← eventSet listed
      pure (ServiceReply.done, change rule events)) = Except.ok (reply, after)) :
    ∃ named events, decodeRule codec rule = .ok named ∧ eventSet listed = .ok events ∧
      after = change named events := by
  obtain ⟨named, hr, accepted⟩ := ok_of_bind accepted
  obtain ⟨events, he, made⟩ := ok_of_bind accepted
  cases made
  exact ⟨named, events, hr, he, rfl⟩

theorem leaves_process {request : ServiceRequest}
    (accepted : t.apply codec request = .ok (reply, after)) (rule : MuteProcessRule) :
    Leaves (request.hollowsProcess? codec rule) (t.mutes.processes.find? rule)
      (after.mutes.processes.find? rule) := by
  cases request with
  | muteProcess mute =>
    obtain ⟨named, events, hr, he, rfl⟩ := read_of_ok accepted
    simp only [ServiceRequest.hollowsProcess?, hr, Except.toOption, Option.some.injEq]
    exact t.mutes.processes.leaves_mute named rule he
  | unmuteProcess mute =>
    obtain ⟨named, events, hr, -, rfl⟩ := read_of_ok accepted
    simp only [ServiceRequest.hollowsProcess?, hr, Except.toOption, Option.some.injEq]
    exact t.mutes.processes.leaves_unmute named rule events
  | unmuteAllProcesses =>
    cases accepted
    intro hollow
    cases hollow
  | mutePath mute | unmutePath mute | subscribe listed | unsubscribe listed =>
    obtain ⟨events, -, made⟩ := ok_of_bind accepted
    cases made
    rfl
  | _ =>
    cases accepted
    rfl

theorem leaves_path {request : ServiceRequest}
    (accepted : t.apply codec request = .ok (reply, after)) (path : String)
    (pathType : MutePathType) :
    Leaves (request.hollowsPath? path pathType) (t.mutes.paths.find? (path, pathType))
      (after.mutes.paths.find? (path, pathType)) := by
  cases request with
  | mutePath mute =>
    obtain ⟨events, he, made⟩ := ok_of_bind accepted
    cases made
    exact t.mutes.paths.leaves_mute (mute.path, mute.pathType) (path, pathType) he
  | unmutePath mute =>
    obtain ⟨events, -, made⟩ := ok_of_bind accepted
    cases made
    exact t.mutes.paths.leaves_unmute (mute.path, mute.pathType) (path, pathType) events
  | unmuteAllPaths =>
    cases accepted
    exact t.mutes.paths.leaves_filter (fun key => key.2.isTarget) (path, pathType)
  | unmuteAllTargetPaths =>
    cases accepted
    have named : ServiceRequest.unmuteAllTargetPaths.hollowsPath? path pathType =
        if !pathType.isTarget then none else some false := by
      cases pathType <;> rfl
    rw [named]
    exact t.mutes.paths.leaves_filter (fun key => !key.2.isTarget) (path, pathType)
  | muteProcess mute | unmuteProcess mute =>
    obtain ⟨named, events, -, -, rfl⟩ := read_of_ok accepted
    rfl
  | subscribe listed | unsubscribe listed =>
    obtain ⟨events, -, made⟩ := ok_of_bind accepted
    cases made
    rfl
  | _ =>
    cases accepted
    rfl

end ServiceTables

namespace Service

/-! ### What is on record and which entries there are -/

/-- Each entry is there and has events, as the last request on record says that names it. -/
structure Entries (codec : Codec) (t : ServiceTables) (record : List ServiceRequest) : Prop where
  processes : ∀ rule, Marks (lastVerdict? (·.hollowsProcess? codec rule) record)
    (t.mutes.processes.find? rule)
  paths : ∀ path pathType, Marks (lastVerdict? (·.hollowsPath? path pathType) record)
    (t.mutes.paths.find? (path, pathType))

theorem entries_empty (codec : Codec) : Entries codec .empty [] where
  processes _ := ⟨nofun, nofun⟩
  paths _ _ := ⟨nofun, nofun⟩

theorem Entries.note {codec : Codec} {t after : ServiceTables} {record : List ServiceRequest}
    {request : ServiceRequest} {reply : ServiceReply} (h : Entries codec t record)
    (accepted : t.apply codec request = .ok (reply, after)) :
    Entries codec after (record ++ [request]) where
  processes rule := by
    rw [lastVerdict_snoc]
    exact (ServiceTables.leaves_process accepted rule).marks (h.processes rule)
  paths path pathType := by
    rw [lastVerdict_snoc]
    exact (ServiceTables.leaves_path accepted path pathType).marks (h.paths path pathType)

theorem Entries.performAll {s : Service} {earlier : List ServiceRequest}
    (h : Entries s.codec s.tables earlier) (operations : List Operation) :
    Entries s.codec (s.performAll operations).tables (s.record earlier operations) :=
  recorded_of_kept (entries_empty s.codec) Entries.note
    (fun _ _ kept => ⟨kept.processes, kept.paths⟩) rfl h operations

theorem exists_of_lastVerdict {verdict : ServiceRequest → Option Bool}
    {record : List ServiceRequest} {value : Bool}
    (last : lastVerdict? verdict record = some value) :
    ∃ request ∈ record, verdict request = some value :=
  List.mem_filterMap.1 (List.mem_of_getLast? last)

/-- An entry of a table of mutes is empty exactly if there is nothing muted under its selector and
the last accepted request that names the selector asked to mute no events. So as long as no such
request is accepted, each entry is there for at least one event. -/
theorem entry_empty_iff (codec : Codec) (operations : List Operation) :
    let s := (new codec).performAll operations
    let record := (new codec).record [] operations
    (∀ rule, s.tables.mutes.processes.find? rule = some .empty ↔
      MuteTable.muted s.tables.mutes.processes rule = .empty ∧
        lastVerdict? (·.hollowsProcess? codec rule) record = some true) ∧
    (∀ path pathType, s.tables.mutes.paths.find? (path, pathType) = some .empty ↔
      MuteTable.muted s.tables.mutes.paths (path, pathType) = .empty ∧
        lastVerdict? (·.hollowsPath? path pathType) record = some true) ∧
    ((∀ request ∈ record, request.mutesNothing = false) →
      (∀ rule events, s.tables.mutes.processes.find? rule = some events →
        ∃ event, event ∈ events) ∧
      ∀ key events, s.tables.mutes.paths.find? key = some events → ∃ event, event ∈ events) := by
  intro s record
  have entries : Entries codec s.tables record :=
    Entries.performAll (s := new codec) (entries_empty codec) operations
  refine ⟨fun rule => (entries.processes rule).eq_empty_iff,
    fun path pathType => (entries.paths path pathType).eq_empty_iff, fun all => ⟨?_, ?_⟩⟩
  · intro rule events there
    refine (entries.processes rule).exists_mem (fun last => ?_) there
    obtain ⟨request, within, hollows⟩ := exists_of_lastVerdict last
    have nothing := ServiceRequest.mutesNothing_of_hollowsProcess hollows
    rw [all request within] at nothing
    cases nothing
  · intro key events there
    refine (entries.paths key.1 key.2).exists_mem (fun last => ?_) there
    obtain ⟨request, within, hollows⟩ := exists_of_lastVerdict last
    have nothing := ServiceRequest.mutesNothing_of_hollowsPath hollows
    rw [all request within] at nothing
    cases nothing

/-- A path of which one event is unmuted again stays for the other one. -/
theorem path_kept_for_rest :
    let operations : List Operation := [.bind 1,
      .request 1 (.mutePath ⟨"/tmp/", .processPrefix, [⟨3⟩, ⟨9⟩]⟩) .foreign,
      .request 1 (.unmutePath ⟨"/tmp/", .processPrefix, [⟨3⟩]⟩) .foreign]
    let s := (new .default).performAll operations
    let record := (new .default).record [] operations
    (∀ request ∈ record, request.mutesNothing = false) ∧
      ∀ key events, s.tables.mutes.paths.find? key = some events → ∃ event, event ∈ events := by
  intro operations s record
  have all : ∀ request ∈ record, request.mutesNothing = false := by decide +kernel
  exact ⟨all, ((entry_empty_iff .default operations).2.2 all).2⟩

/-- A request to mute no events of a path leaves an entry for the path, for no event. -/
theorem entry_without_events :
    ¬ ∀ (codec : Codec) (operations : List Operation),
      let s := (new codec).performAll operations
      (∀ rule, s.tables.mutes.processes.find? rule ≠ some .empty) ∧
        ∀ key, s.tables.mutes.paths.find? key ≠ some .empty := by
  intro always
  let operations : List Operation :=
    [.bind 1, .request 1 (.mutePath ⟨"/tmp/", .processPrefix, []⟩) .foreign]
  exact (always .default operations).2 ("/tmp/", .processPrefix) (by decide +kernel)

end Service

end EndpointMonitor
