import EndpointMonitor.Proofs.Service.Interest
import EndpointMonitor.Proofs.Service.Turns
import Mathlib.Data.List.Induction
import Mathlib.Logic.Function.Basic

/-!
A service with all clients that it ever has, and what it is sending to them, turn by turn. Between
two turns of an emission anything else may happen. For one path, the turns that matter are those in
which an emission finds that nothing is cached, asks, and stores the answer.
-/

namespace EndpointMonitor

/-- A turn leaves the service and its client with one codec. -/
theorem Exchange.shares_turn {codec : Codec} {x : Exchange} (shares : x.Shares codec)
    (e : Emission) : (x.turn e).1.Shares codec := by
  refine ⟨by rw [turn_service]; exact shares.service, ?_⟩
  obtain ⟨kind, m, phase⟩ := e
  have received (call : InboundCall) : (x.dispatcher.receive call).codec = codec :=
    (Dispatcher.receive_frame x.dispatcher call).1.trans shares.dispatcher
  cases phase with
  | unasked =>
    simp only [turn, askInterest]
    split
    · exact shares.dispatcher
    · exact (Dispatcher.pathInterest_steady _ _).codec.trans shares.dispatcher
  | wanted =>
    cases kind with
    | notify =>
      simp only [turn]
      split
      · exact received (.notify _)
      · exact shares.dispatcher
    | auth =>
      simp only [turn]
      split <;> exact shares.dispatcher
  | undecided =>
    simp only [turn]
    split
    · exact received (.auth _)
    · exact shares.dispatcher
  | begun | admitted | waiting =>
    simp only [turn]
    split <;> exact shares.dispatcher
  | answered resolution =>
    simp only [turn, cacheResolution_dispatcher]
    exact shares.dispatcher
  | told | ended => exact shares.dispatcher

structure Switchboard where
  service : Service
  /-- The dispatcher of each client. -/
  clients : Nat → Dispatcher
  /-- The client that has made the latest channel. -/
  bound : Nat
  /-- What is being sent, and to which client. -/
  emissions : List (Nat × Emission)

namespace Switchboard

inductive Event where
  | service (operation : Service.Operation) (outside : operation.isExternal = true)
  /-- A client tries to make a channel. -/
  | connect (client generation : Nat)
  /-- Something else happens at a client; it may install other handlers. -/
  | client (number : Nat) (operation : Dispatcher.Operation)
  | emit (kind : EmissionKind) (message : EventMessage)
  /-- An emission takes its next turn. -/
  | turn (number : Nat)
  /-- The time of an emission is up. -/
  | expire (number : Nat)

/-- The service and one of the clients. -/
def line (t : Switchboard) (client : Nat) : Exchange := ⟨t.service, t.clients client⟩

/-- An emission goes to the client that has the channel at its first turn. -/
def addressee (t : Switchboard) (client : Nat) (e : Emission) : Nat :=
  if e.phase = .begun then t.bound else client

/-- What does not exist takes no turn. -/
def step (t : Switchboard) : Event → Switchboard
  | .service operation _ => { t with service := t.service.perform operation }
  | .connect client generation =>
    match t.service.bind generation with
    | (.ok _, service) => { t with service, bound := client }
    | (.error _, service) => { t with service }
  | .client number operation =>
    { t with clients := Function.update t.clients number ((t.clients number).step operation) }
  | .emit kind message => { t with emissions := t.emissions ++ [(t.bound, .new kind message)] }
  | .turn number =>
    match t.emissions[number]? with
    | some (client, e) =>
      let client := t.addressee client e
      let (x, e) := (t.line client).turn e
      { t with
        service := x.service
        clients := Function.update t.clients client x.dispatcher
        emissions := t.emissions.set number (client, e) }
    | none => t
  | .expire number =>
    match t.emissions[number]? with
    | some (client, e) =>
      { t with emissions := t.emissions.set number (client, (t.line client).expire e) }
    | none => t

/-- A new service and clients that have the same codec, after a run. -/
def run (codec : Codec) (events : List Event) : Switchboard :=
  events.foldl step ⟨.new codec, fun _ => .new codec .inline, 0, []⟩

theorem run_snoc (codec : Codec) (events : List Event) (event : Event) :
    run codec (events ++ [event]) = (run codec events).step event := List.foldl_append

theorem bound_emit (t : Switchboard) (kind : EmissionKind) (m : EventMessage) :
    (t.step (.emit kind m)).bound = t.bound := rfl

theorem emission_new (t : Switchboard) (kind : EmissionKind) (m : EventMessage) :
    (t.step (.emit kind m)).emissions[t.emissions.length]? = some (t.bound, .new kind m) :=
  List.getElem?_concat_length

/-- Whether the cache of interests is emptied. -/
def empties (t : Switchboard) : Event → Bool
  | .service operation _ => t.service.emptiesInterest operation
  | .connect _ generation => t.service.emptiesInterest (.bind generation)
  | .client _ _ | .emit _ _ | .turn _ | .expire _ => false

/-- The client can be asked about what is sent. -/
def Event.Fits (codec : Codec) : Event → Prop
  | .emit _ m => ∃ payload, codec.encode m.process = .ok payload
  | .service _ _ | .connect _ _ | .client _ _ | .turn _ | .expire _ => True

variable {codec : Codec} {events : List Event} {t : Switchboard} {event : Event} {path : String}

/-! ### What holds of every run -/

/-- The service and all clients have one codec. -/
structure Shares (codec : Codec) (t : Switchboard) : Prop where
  service : t.service.codec = codec
  clients : ∀ client, (t.clients client).codec = codec

theorem Shares.line (shares : t.Shares codec) (client : Nat) : (t.line client).Shares codec :=
  ⟨shares.service, shares.clients client⟩

/-- What a client becomes has the codec that all have. -/
theorem Shares.update (shares : t.Shares codec) {client : Nat} {dispatcher : Dispatcher}
    (same : dispatcher.codec = codec) (other : Nat) :
    (Function.update t.clients client dispatcher other).codec = codec := by
  by_cases new : other = client
  · subst new
    rwa [Function.update_self]
  · rw [Function.update_of_ne new]
    exact shares.clients other

theorem shares_step (shares : t.Shares codec) (event : Event) : (t.step event).Shares codec := by
  cases event with
  | service operation outside =>
    exact ⟨(Service.perform_codec _ operation).trans shares.service, shares.clients⟩
  | connect client generation =>
    have same : (t.service.bind generation).2.codec = t.service.codec := by
      unfold Service.bind
      split <;> rfl
    simp only [step]
    split
    · next bound =>
      rw [bound] at same
      exact ⟨same.trans shares.service, shares.clients⟩
    · next refused =>
      rw [refused] at same
      exact ⟨same.trans shares.service, shares.clients⟩
  | client number operation =>
    have same := (t.clients number).codec_step operation
    exact ⟨shares.service, shares.update (same.trans (shares.clients number))⟩
  | emit kind message => exact ⟨shares.service, shares.clients⟩
  | turn number =>
    simp only [step]
    split
    · next client e found =>
      have line := Exchange.shares_turn (shares.line (t.addressee client e)) e
      exact ⟨line.service, shares.update line.dispatcher⟩
    · exact shares
  | expire number =>
    simp only [step]
    split <;> exact ⟨shares.service, shares.clients⟩

theorem shares_run (codec : Codec) (events : List Event) : (run codec events).Shares codec := by
  induction events using List.reverseRecOn with
  | nil => exact ⟨rfl, fun _ => rfl⟩
  | append_singleton events event ih =>
    rw [run_snoc]
    exact shares_step ih event

/-- Where an emission comes from that there is after an event. -/
inductive Arises (t : Switchboard) (number client : Nat) (e : Emission) : Event → Prop
  | stays {event : Event} (held : t.emissions[number]? = some (client, e)) :
    Arises t number client e event
  | begins {kind : EmissionKind} {m : EventMessage} (new : e = .new kind m) :
    Arises t number client e (.emit kind m)
  | turns {former : Nat} {e' : Emission} (held : t.emissions[number]? = some (former, e'))
    (same : client = t.addressee former e') (turned : e = ((t.line client).turn e').2) :
    Arises t number client e (.turn number)
  | expires {e' : Emission} (held : t.emissions[number]? = some (client, e'))
    (expired : e = (t.line client).expire e') : Arises t number client e (.expire number)

theorem arises {number client : Nat} {e : Emission}
    (found : (t.step event).emissions[number]? = some (client, e)) :
    t.Arises number client e event := by
  cases event with
  | service operation outside => exact .stays found
  | connect client generation =>
    simp only [step] at found
    split at found <;> exact .stays found
  | client number operation => exact .stays found
  | emit kind m =>
    rw [step, List.getElem?_append] at found
    split at found
    · exact .stays found
    · obtain ⟨-, new⟩ := Prod.mk.inj (List.mem_singleton.1 (List.mem_of_getElem? found))
      exact .begins new
  | turn n =>
    simp only [step] at found
    split at found
    · next former e' held =>
      rcases getElem?_of_set found with ⟨rfl, same⟩ | ⟨-, other⟩
      · obtain ⟨rfl, rfl⟩ := Prod.mk.inj same
        exact .turns held rfl rfl
      · exact .stays other
    · exact .stays found
  | expire n =>
    simp only [step] at found
    split at found
    · next former e' held =>
      rcases getElem?_of_set found with ⟨rfl, same⟩ | ⟨-, other⟩
      · obtain ⟨rfl, rfl⟩ := Prod.mk.inj same
        exact .expires held rfl
      · exact .stays other
    · exact .stays found

theorem encodes_run (fits : ∀ event ∈ events, event.Fits codec) {number client : Nat}
    {e : Emission} (found : (run codec events).emissions[number]? = some (client, e)) :
    ∃ payload, codec.encode e.message.process = .ok payload := by
  induction events using List.reverseRecOn generalizing number client e with
  | nil => cases found
  | append_singleton events event ih =>
    have before := fun event mem => fits event (List.mem_append_left _ mem)
    have last := fits event (List.mem_append_right _ List.mem_cons_self)
    rw [run_snoc] at found
    cases arises found with
    | stays held => exact ih before held
    | begins new =>
      rw [new]
      exact last
    | turns held _ turned =>
      have same := ih before held
      rw [turned, Exchange.turn_enter]
      exact same
    | expires held expired =>
      have same := ih before held
      rw [expired, Exchange.expire_enter]
      exact same

/-- The first turn of an emission found that its message is subscribed to and not muted. -/
def LetThrough (codec : Codec) (events : List Event) (number client : Nat) (e : Emission) : Prop :=
  ∃ before after former, events = before ++ .turn number :: after ∧
    (run codec before).emissions[number]? = some (former, e.enter .begun) ∧
    (run codec before).bound = client ∧ (run codec before).service.Admits e.message

theorem LetThrough.later {number client : Nat} {e : Emission}
    (h : LetThrough codec events number client e) (event : Event) :
    LetThrough codec (events ++ [event]) number client e := by
  obtain ⟨before, after, former, split, begun⟩ := h
  refine ⟨before, after ++ [event], former, ?_, begun⟩
  rw [split, List.append_assoc, List.cons_append]

theorem letThrough_run {number client : Nat} {e : Emission}
    (found : (run codec events).emissions[number]? = some (client, e)) (underWay : e.UnderWay) :
    LetThrough codec events number client e := by
  induction events using List.reverseRecOn generalizing number client e with
  | nil => cases found
  | append_singleton events event ih =>
    rw [run_snoc] at found
    cases arises found with
    | stays held => exact (ih held underWay).later event
    | begins new => exact absurd (congrArg (·.phase) new) underWay.1
    | @turns former e' held same turned =>
      subst turned
      rw [Exchange.turn_enter]
      rcases Exchange.underWay_of_turn underWay with already | ⟨begun, passed⟩
      · rw [addressee, if_neg already.1] at same
        subst same
        exact (ih held already).later _
      · rw [addressee, if_pos begun] at same
        refine ⟨events, [], former, rfl, ?_, same.symm, (Service.admits_iff _ _).2 passed⟩
        rw [held, ← begun]
        rfl
    | expires held expired =>
      subst expired
      rw [Exchange.expire_enter]
      exact (ih held (Exchange.underWay_of_expire underWay)).later _

end Switchboard

end EndpointMonitor
