import EndpointMonitor.Proofs.Client.Authorization
import EndpointMonitor.Proofs.Service.Notification

/-!
Notifications to a client that has any past. The service and the handler agree on what has been
received.
-/

namespace EndpointMonitor

namespace Client

variable {η : Type}

theorem notified_course (config : ClientConfig) (past : List (Occurrence η))
    {handler : NotifyHandler}
    (installed : (course config past).dispatcher.handlers.notify = some handler) {m : EventMessage}
    (integers : m.event.value.Numbers (·.isWord = true)) (shallow : m.event.value.depth ≤ 126) :
    (course config past).exchange.Notified m := by
  obtain ⟨handlers, serves⟩ := (Alike.course config past).serves
  have faithful := Codec.faithful_message integers shallow
  have arrives := (Codec.roundTrips_of_faithful faithful (by decide) config.codec).decodes
  exact Exchange.notified serves (service_codec config past) (serves.handlers ▸ installed) arrives

/-- A notification is reported as received if a channel is bound, the kind of event is subscribed
to, no class of mutes blocks the message, the verdict in force for the path of the process does not
ignore the event, and the message is not too large. Then the handler has been run on it, once, and
otherwise it has not been run. -/
theorem notification_received (config : ClientConfig) (past : List (Occurrence η))
    {handler : NotifyHandler} {m : EventMessage}
    (installed : (course config past).dispatcher.handlers.notify = some handler)
    (integers : m.event.value.Numbers (·.isWord = true)) (shallow : m.event.value.depth ≤ 126) :
    let c := course config past
    let received := (c.emitNotify m).1
    let notified := (c.emitNotify m).2.dispatcher.notified
    (received = true ↔
      c.service.binding.isSome = true ∧
      m.eventType ∈ c.service.tables.subscriptions ∧
      c.service.tables.mutes.Admits m ∧
      (∀ verdict, c.exchange.verdictOn m.process = some verdict →
        m.eventType ∉ verdict.ignored) ∧
      ∃ payload, Codec.encode config.codec m = .ok payload) ∧
    (received = true → notified = c.dispatcher.notified ++ [m]) ∧
    (received = false → notified = c.dispatcher.notified) := by
  intro c received notified
  have codec : c.exchange.service.codec = config.codec := service_codec config past
  have filters : c.exchange.service.wants (c.exchange.verdictOn m.process) m = true ↔
      c.service.binding.isSome = true ∧ m.eventType ∈ c.service.tables.subscriptions ∧
        c.service.tables.mutes.Admits m ∧ ∀ verdict, c.exchange.verdictOn m.process = some verdict →
          m.eventType ∉ verdict.ignored := Service.wants_iff
  obtain ⟨told, once, never⟩ : (received = true ↔
      c.exchange.service.wants (c.exchange.verdictOn m.process) m = true ∧
        ∃ payload, Codec.encode config.codec m = .ok payload) ∧
      (received = true → notified = c.dispatcher.notified ++ [m]) ∧
      (received = false → notified = c.dispatcher.notified) := by
    cases notified_course config past installed integers shallow with
    | filtered blocked told ran =>
      have told : received = false := told
      refine ⟨iff_of_false (by simp [told]) fun h => ?_, by simp [told], fun _ => ran⟩
      exact absurd (blocked.symm.trans h.1) nofun
    | oversized refused told ran =>
      have told : received = false := told
      refine ⟨iff_of_false (by simp [told]) fun h => ?_, by simp [told], fun _ => ran⟩
      obtain ⟨payload, encoded⟩ := h.2
      rw [codec, encoded] at refused
      cases refused
    | received passes encoded told ran =>
      have told : received = true := told
      rw [codec] at encoded
      exact ⟨iff_of_true told ⟨passes, _, encoded⟩, fun _ => ran, by simp [told]⟩
  refine ⟨told.trans ?_, once, never⟩
  rw [filters, and_assoc, and_assoc, and_assoc]

/-- Muting by target is inverted while no target is muted. A message without a target gets through,
and one with a target does not. -/
theorem inverted_targets_received :
    let handler : NotifyHandler := fun _ => false
    let past : List (Occurrence Unit) := [
      .operation .activateWith,
      .operation (.configure (.handlers { HandlerSet.empty with notify := some handler })),
      .operation (.beginCall 1 (.subscribe (.ofList [⟨0⟩]))),
      .operation (.finishCall 0),
      .operation (.beginCall 1 (.invertMuting .targetPath true))]
    let aimless := Codec.argumentsMessage
    let aimed := { aimless with event := ⟨.object [("target", .string "/etc/hosts")], rfl⟩ }
    (course .default past).dispatcher.handlers.notify = some handler ∧
      aimless.event.value.Numbers (·.isWord = true) ∧ aimless.event.value.depth ≤ 126 ∧
      ((course .default past).emitNotify aimless).1 = true ∧
      ((course .default past).emitNotify aimless).2.dispatcher.notified = [aimless] ∧
      ((course .default past).emitNotify aimed).1 = false ∧
      ((course .default past).emitNotify aimed).2.dispatcher.notified = [] := by
  intro handler past aimless aimed
  have installed : (course .default past).dispatcher.handlers.notify = some handler := rfl
  have integers : aimless.event.value.Numbers (·.isWord = true) :=
    ⟨⟨trivial, rfl, trivial⟩, trivial⟩
  have shallow : aimless.event.value.depth ≤ 126 := by decide
  have received : ((course .default past).emitNotify aimless).1 = true := by decide +kernel
  have missed : ((course .default past).emitNotify aimed).1 = false := by decide +kernel
  have before : (course .default past).dispatcher.notified = [] := rfl
  have once := (notification_received .default past installed integers shallow).2.1 received
  have never := (notification_received .default past (m := aimed) installed ⟨trivial, trivial⟩
    (by decide)).2.2 missed
  rw [before] at once never
  exact ⟨installed, integers, shallow, received, once, missed, never⟩

end Client

end EndpointMonitor
