import EndpointMonitor.Proofs.Service.Transparency

/-!
What becomes of a notification: which filters it has to pass, and what the handler is run on.
-/

namespace EndpointMonitor

theorem Table.mem_entries {κ α : Type} [DecidableEq κ] {t : Table κ α} {key : κ} {value : α} :
    (key, value) ∈ t.entries ↔ t.find? key = some value := by
  obtain ⟨entries, nodup⟩ := t
  show _ ↔ entries.lookup key = some value
  induction entries with
  | nil => simp
  | cons entry entries ih =>
    obtain ⟨first, found⟩ := entry
    obtain ⟨absent, others⟩ := List.nodup_cons.1 nodup
    rw [List.mem_cons, List.lookup_cons, ih others, Prod.mk.injEq]
    by_cases same : key = first
    · subst same
      have once : entries.lookup key ≠ some value := fun again =>
        absent (List.mem_map.2 ⟨(key, value), (ih others).2 again, rfl⟩)
      simp only [beq_self_eq_true, true_and, or_iff_left once, Option.some.injEq]
      exact eq_comm
    · simp only [same, false_and, false_or, beq_false_of_ne same]

theorem Table.any_iff {κ α : Type} [DecidableEq κ] {t : Table κ α} {p : κ → α → Bool} :
    t.any p = true ↔ ∃ key value, t.find? key = some value ∧ p key value = true := by
  simp only [any, List.any_eq_true, Prod.exists, mem_entries]

namespace Mutes

variable {m : Mutes} {message : EventMessage}

/-- A rule selects the process, for this kind of event. -/
def SelectsProcess (m : Mutes) (message : EventMessage) : Prop :=
  ∃ rule events, m.processes.find? rule = some events ∧ message.eventType ∈ events ∧
    rule.selects message.process = true

/-- A path covers another, of a process or of a target, for this kind of event. -/
def Covers (m : Mutes) (event : EventType) (candidate : String) (target : Bool) : Prop :=
  ∃ path pathType events, m.paths.find? (path, pathType) = some events ∧
    pathType.isTarget = target ∧ event ∈ events ∧ pathType.covers path candidate = true

theorem coversPath_iff {event : EventType} {candidate : String} {target : Bool} :
    m.coversPath event candidate target = true ↔ m.Covers event candidate target := by
  simp only [coversPath, Table.any_iff, Covers, Prod.exists, Bool.and_eq_true, decide_eq_true_eq,
    and_assoc]
  rfl

theorem not_mutesProcess_iff : m.mutesProcess message = false ↔
    (m.SelectsProcess message ↔ m.inversions.process = true) := by
  have selected : (m.processes.any fun rule events =>
      events.contains message.eventType && rule.selects message.process) = true ↔
        m.SelectsProcess message := by
    simp only [Table.any_iff, Bool.and_eq_true]
    rfl
  rw [mutesProcess, bne_eq_false_iff_eq, Bool.eq_iff_iff, selected]

theorem not_mutesPath_iff : m.mutesPath message = false ↔
    (m.Covers message.eventType message.process.path false ↔ m.inversions.path = true) := by
  rw [mutesPath, bne_eq_false_iff_eq, Bool.eq_iff_iff, coversPath_iff]

theorem not_mutesTarget_iff : m.mutesTarget message = false ↔
    ∀ target, message.target? = some target →
      (m.Covers message.eventType target true ↔ m.inversions.targetPath = true) := by
  unfold mutesTarget
  cases message.target? with
  | none => simp
  | some target =>
    simp only [Option.some.injEq, forall_eq']
    rw [bne_eq_false_iff_eq, Bool.eq_iff_iff, coversPath_iff]

/-- A message is let through if no class mutes it; one without a target belongs to no class of
targets. -/
structure Admits (m : Mutes) (message : EventMessage) : Prop where
  process : m.SelectsProcess message ↔ m.inversions.process = true
  path : m.Covers message.eventType message.process.path false ↔ m.inversions.path = true
  target : ∀ target, message.target? = some target →
    (m.Covers message.eventType target true ↔ m.inversions.targetPath = true)

theorem not_mutes_iff : m.mutes message = false ↔ m.Admits message := by
  rw [mutes, Bool.or_eq_false_iff, Bool.or_eq_false_iff, not_mutesProcess_iff, not_mutesPath_iff,
    not_mutesTarget_iff]
  exact ⟨fun h => ⟨h.1.1, h.1.2, h.2⟩, fun h => ⟨⟨h.process, h.path⟩, h.target⟩⟩

end Mutes

/-- What a message has to pass before it is sent. -/
theorem Service.wants_iff {s : Service} {view : Option InterestVerdict} {m : EventMessage} :
    s.wants view m = true ↔ s.binding.isSome = true ∧ m.eventType ∈ s.tables.subscriptions ∧
      s.tables.mutes.Admits m ∧ ∀ verdict, view = some verdict → m.eventType ∉ verdict.ignored := by
  have passes : s.tables.passes m = true ↔
      m.eventType ∈ s.tables.subscriptions ∧ s.tables.mutes.Admits m := by
    rw [ServiceTables.passes, Bool.and_eq_true, Bool.not_eq_true', Mutes.not_mutes_iff]
    rfl
  cases view with
  | none => simp only [wants, isConnected, Bool.and_eq_true, passes, and_assoc, reduceCtorEq,
      false_implies, implies_true]
  | some verdict =>
    have wanted : (!verdict.ignored.contains m.eventType) = true ↔
        m.eventType ∉ verdict.ignored := by
      rw [Bool.not_eq_true']
      exact Bool.eq_false_iff
    simp only [wants, isConnected, Bool.and_eq_true, passes, wanted, and_assoc, Option.some.injEq,
      forall_eq']

namespace Exchange

variable {x : Exchange} {codec : Codec} {handlers : HandlerSet} {m : EventMessage}

/-- The verdict in force for a process: the one that is cached for its path, or else what the client
thinks of the process, if it is not too large to be asked about. -/
def verdictOn (x : Exchange) (process : ProcessDescriptor) : Option InterestVerdict :=
  match x.service.tables.interest.find? process.path with
  | some verdict => verdict
  | none =>
    match x.service.codec.encode process with
    | .ok _ => x.dispatcher.handlers.view? x.service.codec process
    | .error _ => none

theorem interestIn_eq (serves : x.dispatcher.Serves codec handlers)
    (same : x.service.codec = codec) (process : ProcessDescriptor) :
    (x.interestIn process).1 = x.verdictOn process := by
  unfold interestIn verdictOn
  cases x.service.tables.interest.find? process.path with
  | some verdict => rfl
  | none =>
    simp only [askInterest, same]
    cases encoded : codec.encode process with
    | error e => rfl
    | ok payload =>
      obtain ⟨answer, -⟩ := serves.pathInterest payload
      simp only [answer, serves.handlers]
      exact HandlerSet.opinion?_of_encode encoded

/-- What is told of a notification, and what the handler has been run on then. -/
inductive Notified (x : Exchange) (m : EventMessage) : Prop where
  | filtered (blocked : x.service.wants (x.verdictOn m.process) m = false)
      (told : (x.emitNotify m).1 = false)
      (ran : (x.emitNotify m).2.dispatcher.notified = x.dispatcher.notified)
  | oversized {error : ClientError} (refused : x.service.codec.encode m = .error error)
      (told : (x.emitNotify m).1 = false)
      (ran : (x.emitNotify m).2.dispatcher.notified = x.dispatcher.notified)
  | received {payload : Bytes} (passes : x.service.wants (x.verdictOn m.process) m = true)
      (encoded : x.service.codec.encode m = .ok payload) (told : (x.emitNotify m).1 = true)
      (ran : (x.emitNotify m).2.dispatcher.notified = x.dispatcher.notified ++ [m])

/-- A handler that is installed is run on a message that arrives as it was sent, if the message
passes the filters and is not too large. -/
theorem notified (serves : x.dispatcher.Serves codec handlers) (same : x.service.codec = codec)
    {handler : NotifyHandler} (installed : handlers.notify = some handler)
    (arrives : ∀ payload, codec.encode m = .ok payload → codec.decode payload = .ok m) :
    x.Notified m := by
  have wants := delivers_eq x m
  obtain ⟨interest, reached⟩ := delivers_service x m
  obtain ⟨asked, trace⟩ := delivers_trace serves.idle m
  have served := (delivers_alike ⟨rfl, serves, serves⟩ m).2.left
  rw [interestIn_eq serves same] at wants
  rcases delivered : x.delivers m with ⟨passes, y⟩
  rw [delivered] at wants reached trace served
  have ran : y.dispatcher.notified = x.dispatcher.notified := Dispatcher.notified_asked trace
  have kept : y.service.codec = x.service.codec := congrArg (·.codec) reached
  cases passes with
  | false =>
    have filtered : x.emitNotify m = (false, y) := by simp only [emitNotify, delivered]
    exact .filtered wants.symm (congrArg Prod.fst filtered) (by rw [filtered]; exact ran)
  | true =>
    cases encoded : x.service.codec.encode m with
    | error e =>
      have refused : x.emitNotify m = (false, y) := by
        simp only [emitNotify, delivered, kept, encoded]
      exact .oversized encoded (congrArg Prod.fst refused) (by rw [refused]; exact ran)
    | ok payload =>
      have sent :
          x.emitNotify m = (true, { y with dispatcher := y.dispatcher.notify payload }) := by
        simp only [emitNotify, delivered, kept, encoded]
      have runs := Dispatcher.notified_notify served.idle (served.handlers ▸ installed)
        (served.codec ▸ arrives payload (same ▸ encoded))
      rw [ran] at runs
      exact .received wants.symm encoded (congrArg Prod.fst sent) (by rw [sent]; exact runs)

end Exchange

end EndpointMonitor
