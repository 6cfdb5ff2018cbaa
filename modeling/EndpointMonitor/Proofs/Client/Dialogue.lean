import EndpointMonitor.Proofs.Client.Agreement
import EndpointMonitor.Proofs.Service.Turns
import Mathlib.Data.List.Induction

/-!
A client and what its service is sending to it, turn by turn. Anything may happen between two turns
of an emission: the client loses its channel and gets another one, a handler answers late. The two
sides agree on the channel all the same, but what is cached for an earlier channel may be the answer
to something that was sent over it.
-/

namespace EndpointMonitor

structure Dialogue (η : Type) where
  client : Client η
  emissions : List Emission

namespace Dialogue

variable {η : Type}

inductive Event (η : Type) where
  | client (operation : Client.Operation η)
  /-- Handlers run, or the application uses a reply that one of them has kept. -/
  | handlers (operation : Dispatcher.Operation)
  | emit (kind : EmissionKind) (message : EventMessage)
  /-- An emission takes its next turn. -/
  | turn (number : Nat)
  /-- The time of an emission is up. -/
  | expire (number : Nat)

/-- What does not exist takes no turn. -/
def step (t : Dialogue η) : Event η → Dialogue η
  | .client operation => { t with client := t.client.perform operation }
  | .handlers operation =>
    { t with client := { t.client with dispatcher := t.client.dispatcher.step operation } }
  | .emit kind message => { t with emissions := t.emissions ++ [.new kind message] }
  | .turn number =>
    match t.emissions[number]? with
    | some e =>
      ⟨t.client.withExchange (t.client.exchange.turn e).1,
        t.emissions.set number (t.client.exchange.turn e).2⟩
    | none => t
  | .expire number =>
    match t.emissions[number]? with
    | some e => { t with emissions := t.emissions.set number (t.client.exchange.expire e) }
    | none => t

/-- A client of a new service that has the same codec, after a run. -/
def run (config : ClientConfig) (events : List (Event η)) : Dialogue η :=
  events.foldl step ⟨.ofNewService config config.codec, []⟩

theorem run_snoc (config : ClientConfig) (events : List (Event η)) (event : Event η) :
    run config (events ++ [event]) = (run config events).step event := List.foldl_append

/-- What is stored, and by which emission. -/
def stores (t : Dialogue η) : Event η → List (Nat × CachedAnswer)
  | .turn number => (t.emissions[number]?).elim [] fun e => e.stores.map (number, ·)
  | _ => []

/-! ### Without interruption -/

/-- A turn of an emission, and the handlers run that it has set off. -/
def stride (number : Nat) : List (Event η) := [.turn number, .handlers .work]

/-- The newest emission takes a number of turns. -/
theorem foldl_strides (c : Client η) (emissions : List Emission) (e : Emission) (k : Nat) :
    ((List.replicate k (stride emissions.length)).flatten).foldl step ⟨c, emissions ++ [e]⟩ =
      ⟨c.withExchange (c.exchange.strides k e).1,
        emissions ++ [(c.exchange.strides k e).2]⟩ := by
  induction k generalizing c e with
  | zero => rfl
  | succ k ih =>
    have newest : (emissions ++ [e])[emissions.length]? = some e := List.getElem?_concat_length
    have replaced (e' : Emission) : (emissions ++ [e]).set emissions.length e' =
        emissions ++ [e'] := by
      rw [List.set_append_right _ _ (Nat.le_refl _), Nat.sub_self, List.set_cons_zero]
    have first : (stride emissions.length).foldl step ⟨c, emissions ++ [e]⟩ =
        ⟨c.withExchange (c.exchange.stride e).1, emissions ++ [(c.exchange.stride e).2]⟩ := by
      simp only [stride, List.foldl_cons, List.foldl_nil, step, newest, replaced]
      rfl
    rw [List.replicate_succ, List.flatten_cons, List.foldl_append, first, ih]
    rfl

/-- What it is to send a message whose turns are not interrupted. -/
def uninterrupted (kind : EmissionKind) (m : EventMessage) (number : Nat) : List (Event η) :=
  .emit kind m :: (List.replicate Emission.maxTurns (stride number)).flatten ++ [.expire number]

/-- Without interruption a message is sent in one go, as long as no handler waits. -/
theorem foldl_uninterrupted {t : Dialogue η} (idle : t.client.dispatcher.jobs = [])
    (kind : EmissionKind) (m : EventMessage) :
    ∃ e, e.phase = .ended (t.client.exchange.emit kind m).1 ∧
      (uninterrupted kind m t.emissions.length).foldl step t =
        ⟨t.client.withExchange (t.client.exchange.emit kind m).2, t.emissions ++ [e]⟩ := by
  obtain ⟨e, strides, ended⟩ := Exchange.strides_emit (x := t.client.exchange) idle kind m
  refine ⟨_, ended, ?_⟩
  generalize (t.client.exchange.emit kind m).2 = x at strides
  have newest : (t.emissions ++ [e])[t.emissions.length]? = some e := List.getElem?_concat_length
  have begun : t.step (.emit kind m) = ⟨t.client, t.emissions ++ [.new kind m]⟩ := rfl
  have last : step ⟨t.client.withExchange x, t.emissions ++ [e]⟩ (.expire t.emissions.length) =
      ⟨t.client.withExchange x, t.emissions ++ [x.expire e]⟩ := by
    simp only [step, newest]
    rw [List.set_append_right _ _ (Nat.le_refl _), Nat.sub_self, List.set_cons_zero]
    rfl
  rw [uninterrupted, List.cons_append, List.foldl_cons, begun, List.foldl_append, foldl_strides,
    strides, List.foldl_cons, List.foldl_nil, last]

/-! ### The two sides -/

variable {t : Dialogue η} {event : Event η}

/-- What happens besides the operations of the client leaves its connection alone, and does nothing
to the service but to store answers. -/
theorem step_aside (other : ∀ operation, event ≠ .client operation) :
    ∃ dispatcher, (t.step event).client = { t.client.withService { t.client.service with
      tables := ((t.stores event).map (·.2)).foldl .store t.client.service.tables } with
        dispatcher } := by
  cases event with
  | client operation => exact absurd rfl (other operation)
  | handlers | emit => exact ⟨_, rfl⟩
  | turn number =>
    simp only [step, stores]
    cases t.emissions[number]? with
    | none => exact ⟨_, rfl⟩
    | some e =>
      have service := t.client.exchange.turn_service e
      refine ⟨(t.client.exchange.turn e).1.dispatcher, ?_⟩
      simp only [Client.withExchange, service, Option.elim_some, List.map_map]
      have same : (Prod.snd ∘ fun answer : CachedAnswer => (number, answer)) = id := rfl
      rw [same, List.map_id]
      rfl
  | expire number =>
    simp only [step]
    split <;> exact ⟨_, rfl⟩

theorem step_joined (joined : t.client.Joined) (event : Event η) :
    (t.step event).client.Joined := by
  by_cases own : ∃ operation, event = .client operation
  · obtain ⟨operation, rfl⟩ := own
    exact Client.perform_joined joined operation
  · obtain ⟨dispatcher, aside⟩ := step_aside (t := t) fun operation same => own ⟨operation, same⟩
    have served : (t.client.withService { t.client.service with
        tables := ((t.stores event).map (·.2)).foldl .store t.client.service.tables }).Joined :=
      joined.withService rfl rfl fun _ => ServiceTables.forget_foldl_store _ _
    rw [aside]
    exact served.of_same rfl rfl

theorem joined_run (config : ClientConfig) (events : List (Event η)) :
    (run config events).client.Joined := by
  induction events using List.reverseRecOn with
  | nil => exact Client.joined_ofNewService config
  | append_singleton events event ih =>
    rw [run_snoc]
    exact step_joined ih event

/-- While the client is connecting, no message gets under way. -/
theorem underWay_of_step (joined : t.client.Joined) (connecting : t.client.state = .connecting)
    {number : Nat} {e : Emission} (found : (t.step event).emissions[number]? = some e)
    (underWay : e.UnderWay) : ∃ e, t.emissions[number]? = some e ∧ e.UnderWay := by
  have blocked (m : EventMessage) : t.client.service.tables.passes m = false := by
    have nothing : t.client.service.tables.subscriptions = .empty :=
      congrArg ServiceTables.subscriptions (joined.connection.fresh connecting)
    have absent : EventSet.empty.contains m.eventType = false := rfl
    simp only [ServiceTables.passes, nothing, absent, Bool.false_and]
  cases event with
  | client | handlers => exact ⟨e, found, underWay⟩
  | emit kind message =>
    rw [step, List.getElem?_append] at found
    split at found
    · exact ⟨e, found, underWay⟩
    · obtain rfl := List.mem_singleton.1 (List.mem_of_getElem? found)
      exact absurd rfl underWay.1
  | turn n =>
    cases held : t.emissions[n]? with
    | none =>
      simp only [step, held] at found
      exact ⟨e, found, underWay⟩
    | some before =>
      simp only [step, held] at found
      rcases getElem?_of_set found with ⟨rfl, rfl⟩ | ⟨-, other⟩
      · rcases Exchange.underWay_of_turn underWay with already | ⟨-, passed⟩
        · exact ⟨before, held, already⟩
        · have passes : t.client.exchange.service.tables.passes before.message = false := blocked _
          rw [passes, Bool.and_false] at passed
          cases passed
      · exact ⟨e, other, underWay⟩
  | expire n =>
    cases held : t.emissions[n]? with
    | none =>
      simp only [step, held] at found
      exact ⟨e, found, underWay⟩
    | some before =>
      simp only [step, held] at found
      rcases getElem?_of_set found with ⟨rfl, rfl⟩ | ⟨-, other⟩
      · exact ⟨before, held, Exchange.underWay_of_expire underWay⟩
      · exact ⟨e, other, underWay⟩

end Dialogue

end EndpointMonitor
