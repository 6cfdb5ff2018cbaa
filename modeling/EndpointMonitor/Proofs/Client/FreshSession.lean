import EndpointMonitor.Proofs.Client.Dialogue

/-!
What the service holds when a client becomes connected: the converter that was set when the attempt
sent its session request, however late the reply, and nothing of what earlier channels had stored.
Answers to what was sent over earlier channels may have been cached since.
-/

namespace EndpointMonitor.Dialogue

open Client (Waits Opens Moves)

variable {η : Type}

/-- The converter that an event sets. -/
def Event.converter? : Event η → Option ConverterConfig
  | .client operation => operation.converter?
  | .handlers _ | .emit _ _ | .turn _ | .expire _ => none

/-- The converter that was set last. -/
def latestConverter (first : ConverterConfig) (events : List (Event η)) : ConverterConfig :=
  (events.filterMap (·.converter?)).getLastD first

theorem step_converter {t : Dialogue η} (joined : t.client.Joined) (event : Event η) :
    (t.step event).client.connection.converter =
      event.converter?.getD t.client.connection.converter := by
  by_cases own : ∃ operation, event = .client operation
  · obtain ⟨operation, rfl⟩ := own
    exact Client.perform_converter joined operation
  · have other := fun operation same => own ⟨operation, same⟩
    obtain ⟨dispatcher, aside⟩ := step_aside (t := t) other
    have unset : event.converter? = none := by
      cases event with
      | client operation => exact absurd rfl (other operation)
      | _ => rfl
    rw [aside, unset]
    rfl

theorem converter_run (config : ClientConfig) (events : List (Event η)) :
    (run config events).client.connection.converter = latestConverter config.converter events := by
  induction events using List.reverseRecOn with
  | nil => rfl
  | append_singleton events event ih =>
    rw [run_snoc, step_converter (joined_run config events), ih, latestConverter, latestConverter,
      List.filterMap_append]
    cases sets : event.converter? with
    | none => rw [List.filterMap_cons_none sets, List.filterMap_nil, List.append_nil]; rfl
    | some converter =>
      rw [List.filterMap_cons_some sets, List.filterMap_nil, List.getLastD_concat, Option.getD_some]

/-- The attempt under way has begun with this operation, and has sent its session request with the
converter that was set last before. It has opened the latest session. -/
structure OpenedBy (config : ClientConfig) (before : List (Event η))
    (sending : Client.Operation η) (c : Client η) : Prop where
  begins : c.connection.generation = (run config before).client.connection.generation + 1
  sends : ((run config before).client.perform sending).requested =
    (run config before).client.requested ++ [c.connection.generation]
  latest : c.requested = ((run config before).client.perform sending).requested
  sessions : c.service.sessions = (run config before).client.service.sessions + 1
  converter : c.service.converter = some (latestConverter config.converter before)

/-- A message has been let through, and nobody knows yet what becomes of it. -/
def OnItsWay (t : Dialogue η) (number : Nat) : Prop :=
  ∃ e, t.emissions[number]? = some e ∧ e.UnderWay

/-- What has been cached since an operation of the client, and by which emission. -/
def cachedSince (config : ClientConfig) (before : List (Event η)) (sending : Client.Operation η)
    (after : List (Event η)) : List (Nat × CachedAnswer) :=
  yields step stores (run config (before ++ [.client sending])) after

/-- The session is one that this run has opened. Since then the service has been told nothing, but
it may have heard answers to what had been sent before. -/
structure Anew (config : ClientConfig) (before : List (Event η)) (sending : Client.Operation η)
    (after : List (Event η)) (t : Dialogue η) : Prop where
  opened : OpenedBy config before sending t.client
  tables : t.client.service.tables =
    ((cachedSince config before sending after).map (·.2)).foldl .store .empty
  early : ∀ number answer, (number, answer) ∈ cachedSince config before sending after →
    (run config before).OnItsWay number
  underWay : ∀ number e, t.emissions[number]? = some e → e.UnderWay →
    (run config before).OnItsWay number

/-- The events split at the operation that has opened the session. -/
def Fresh (config : ClientConfig) (events : List (Event η)) : Prop :=
  ∃ before sending after, events = before ++ .client sending :: after ∧
    Anew config before sending after (run config events)

variable {config : ClientConfig} {events : List (Event η)} {event : Event η}

theorem cachedSince_snoc (config : ClientConfig) {before after : List (Event η)}
    {sending : Client.Operation η} (split : events = before ++ .client sending :: after)
    (event : Event η) :
    cachedSince config before sending (after ++ [event]) =
      cachedSince config before sending after ++ (run config events).stores event := by
  have reached : run config events =
      after.foldl step (run config (before ++ [.client sending])) := by
    rw [split, ← List.singleton_append, ← List.append_assoc, run, List.foldl_append]
    rfl
  rw [cachedSince, yields_snoc, reached]
  rfl

/-- What is stored by an emission that was let through before the attempt. -/
theorem Anew.early_stores {before after : List (Event η)} {sending : Client.Operation η}
    {t : Dialogue η} (h : Anew config before sending after t) {number : Nat}
    {answer : CachedAnswer} (stored : (number, answer) ∈ t.stores event) :
    (run config before).OnItsWay number := by
  cases event with
  | turn n =>
    cases held : t.emissions[n]? with
    | none => simp [stores, held] at stored
    | some e =>
      simp only [stores, held, Option.elim_some, List.mem_map] at stored
      obtain ⟨answer, stores, same⟩ := stored
      obtain ⟨rfl, -⟩ := Prod.mk.inj same
      exact h.underWay n e held (Emission.underWay_of_stores stores)
  | client | handlers | emit | expire => cases stored

/-- The attempt goes on or is successful, and nothing happens to the service but that answers are
stored. -/
structure Lasts (t : Dialogue η) (event : Event η) : Prop where
  generation : (t.step event).client.connection.generation = t.client.connection.generation
  requested : (t.step event).client.requested = t.client.requested
  sessions : (t.step event).client.service.sessions = t.client.service.sessions
  converter : (t.step event).client.service.converter = t.client.service.converter
  tables : (t.step event).client.service.tables =
    ((t.stores event).map (·.2)).foldl .store t.client.service.tables

theorem Lasts.of_waits {t : Dialogue η} {operation : Client.Operation η}
    (waits : Waits t.client (t.step (.client operation)).client) : Lasts t (.client operation) :=
  ⟨waits.generation, waits.requested, waits.service.sessions, waits.service.converter,
    waits.service.tables⟩

theorem Lasts.of_aside {t : Dialogue η} (other : ∀ operation, event ≠ .client operation) :
    Lasts t event := by
  obtain ⟨dispatcher, aside⟩ := step_aside (t := t) other
  refine ⟨?_, ?_, ?_, ?_, ?_⟩ <;> rw [aside] <;> rfl

/-- While the client waits for the reply, the session stays the latest. -/
theorem Fresh.lasts (h : Fresh config events)
    (connecting : (run config events).client.state = .connecting)
    (lasts : Lasts (run config events) event) : Fresh config (events ++ [event]) := by
  obtain ⟨before, sending, after, split, anew⟩ := h
  have cached := cachedSince_snoc config split event
  refine ⟨before, sending, after ++ [event], by rw [split, List.append_assoc, List.cons_append], ?_⟩
  rw [run_snoc]
  exact
    { opened := ⟨lasts.generation.trans anew.opened.begins,
        lasts.generation ▸ anew.opened.sends, lasts.requested.trans anew.opened.latest,
        lasts.sessions.trans anew.opened.sessions, lasts.converter.trans anew.opened.converter⟩
      tables := by rw [lasts.tables, anew.tables, cached, List.map_append, List.foldl_append]
      early := fun number answer stored => by
        rw [cached, List.mem_append] at stored
        exact stored.elim (anew.early number answer) anew.early_stores
      underWay := fun number e found underWay => by
        obtain ⟨e, held, already⟩ :=
          underWay_of_step (joined_run config events) connecting found underWay
        exact anew.underWay number e held already }

theorem fresh_of_opens {operation : Client.Operation η}
    (opens : Opens (run config events).client ((run config events).client.perform operation)) :
    Fresh config (events ++ [.client operation]) := by
  refine ⟨events, operation, [], rfl, ?_⟩
  rw [run_snoc]
  exact
    { opened := ⟨opens.generation, opens.requested, rfl, opens.sessions, by
        rw [← converter_run]
        exact opens.session⟩
      tables := opens.tables
      early := fun number answer stored => nomatch stored
      underWay := fun number e found underWay => ⟨e, found, underWay⟩ }

/-- A session is fresh as long as its reply is awaited, and when the reply arrives. -/
theorem fresh_step
    (waiting : (run config events).client.state = .connecting → Fresh config events)
    (enters : (run config (events ++ [event])).client.state = .connecting ∨
      (run config events).client.state ≠ .connected ∧
        (run config (events ++ [event])).client.state = .connected) :
    Fresh config (events ++ [event]) := by
  rw [run_snoc] at enters
  by_cases own : ∃ operation, event = .client operation
  · obtain ⟨operation, rfl⟩ := own
    cases Client.perform_moves (joined_run config events) operation with
    | waits waits =>
      have connecting : (run config events).client.state = .connecting := by
        rcases waits.state with same | ⟨connecting, -⟩
        · rcases enters with after | ⟨idle, after⟩
          · exact same.symm.trans after
          · exact absurd (same.symm.trans after) idle
        · exact connecting
      exact (waiting connecting).lasts connecting (.of_waits waits)
    | falls down => exact absurd (enters.imp_right (·.2)) down
    | opens opens => exact fresh_of_opens opens
    | works before after =>
      rcases enters with connecting | ⟨idle, -⟩
      · cases after.symm.trans connecting
      · exact absurd before idle
  · have other := fun operation same => own ⟨operation, same⟩
    have same :
        ((run config events).step event).client.state = (run config events).client.state := by
      obtain ⟨dispatcher, aside⟩ := step_aside (t := run config events) other
      rw [aside]
      rfl
    rw [same] at enters
    have connecting := enters.resolve_right fun ⟨idle, connected⟩ => idle connected
    exact (waiting connecting).lasts connecting (.of_aside other)

theorem fresh_of_connecting (config : ClientConfig) (events : List (Event η))
    (connecting : (run config events).client.state = .connecting) : Fresh config events := by
  induction events using List.reverseRecOn with
  | nil => cases connecting
  | append_singleton events event ih => exact fresh_step ih (.inl connecting)

/-- Whenever a client becomes connected, the latest session of its service is the one that the
client's attempt has opened, with the converter that was set last before the session request went
out. Settings that came later do not matter, and neither do replies to earlier attempts. The service
holds no subscription, no mute and no inversion. Its caches hold what it has heard since the session
was opened, in answer to messages that it had let through before the attempt; they are empty exactly
if it has heard nothing. -/
theorem session_anew (config : ClientConfig) (events : List (Event η)) (event : Event η)
    (idle : (run config events).client.state ≠ .connected)
    (connected : ((run config events).step event).client.state = .connected) :
    let tables := ((run config events).step event).client.service.tables
    ∃ before sending after, events ++ [event] = before ++ .client sending :: after ∧
      OpenedBy config before sending ((run config events).step event).client ∧
      tables.forget = .empty ∧
      tables = ((cachedSince config before sending after).map (·.2)).foldl .store .empty ∧
      (tables = .empty ↔ cachedSince config before sending after = []) ∧
      ∀ number answer, (number, answer) ∈ cachedSince config before sending after →
        (run config before).OnItsWay number := by
  intro tables
  have reached := run_snoc config events event
  obtain ⟨before, sending, after, split, anew⟩ : Fresh config (events ++ [event]) :=
    fresh_step (fresh_of_connecting config events) (.inr ⟨idle, reached ▸ connected⟩)
  rw [reached] at anew
  have held : tables = _ := anew.tables
  refine ⟨before, sending, after, split, anew.opened, ?_, held, ?_, anew.early⟩
  · rw [held, ServiceTables.forget_foldl_store]
    rfl
  · rw [held, ServiceTables.foldl_store_eq_empty, List.map_eq_nil_iff]

/-- The first channel has a subscription. The converter is set while the client waits to reconnect,
and once more while the reply to the second session request is held back; the former one counts. -/
theorem second_session_anew :
    let t : Dialogue Unit := run .default <| List.map .client
      [.activateWith, .beginCall 1 (.subscribe (.ofList [.authExec])), .finishCall 0,
        .configureService (.unresponsive true), .interrupt, .configure (.converter ⟨2⟩),
        .wait 3000, .fire ⟨3000, .reconnect⟩, .configure (.converter ⟨3⟩)]
    let t' := t.step (.client .releaseHeld)
    t.client.state ≠ .connected ∧ t'.client.state = .connected ∧
      t'.client.service.tables.forget = .empty ∧ t'.client.service.converter = some ⟨2⟩ := by
  intro t t'
  have idle : t.client.state ≠ .connected := by decide +kernel
  have connected : t'.client.state = .connected := by decide +kernel
  obtain ⟨_, _, _, -, -, forgotten, -⟩ :=
    session_anew .default _ (.client .releaseHeld) idle connected
  exact ⟨idle, connected, forgotten, by decide +kernel⟩

/-- An authorization request goes out over the first channel, and its handler keeps the reply. It is
used when the second channel has been made, and before the session on it is open: the client becomes
connected, and the service has already cached a resolution. -/
theorem late_answer_cached :
    let m : EventMessage := .auth .authExec (.ofPath 7 "/tmp/x")
    let keeps : HandlerSet := { HandlerSet.empty with auth := some fun _ => .keep }
    let t : Dialogue Unit := run .default
      [.client (.configure (.handlers keeps)), .client .activateWith,
        .client (.beginCall 1 (.subscribe (.ofList [.authExec]))), .client (.finishCall 0),
        .emit .auth m, .turn 0, .turn 0, .turn 0, .turn 0, .turn 0, .turn 0, .handlers .work,
        .client (.configureService (.unresponsive true)), .client .interrupt,
        .client .activateWith, .client (.resolveKept (.allow true)), .turn 0, .turn 0]
    let t' := t.step (.client .releaseHeld)
    t.client.state ≠ .connected ∧ t'.client.state = .connected ∧
      t'.client.service.tables.resolutions.find? (Exchange.resolutionKey m) =
        some (.allow true) := by
  decide +kernel

end EndpointMonitor.Dialogue
