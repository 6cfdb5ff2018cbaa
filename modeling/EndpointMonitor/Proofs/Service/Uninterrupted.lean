import EndpointMonitor.Proofs.Service.Accounting
import Mathlib.Logic.Function.Iterate

/-!
Calls whose turns follow one another without interruption. They do to the service what it does in
one go, and deliver the same replies, so that every run of whole operations is a run of turns.
-/

namespace EndpointMonitor

open Traffic (Call Phase)

namespace Service

/-- The replies that an operation delivers. -/
def replies (s : Service) : Operation → List Delivery
  | .request channel request deliver => (s.request channel request deliver).1.toList
  | .customMessage channel data deliver => (s.customMessage channel data deliver).1.toList
  | .releaseHeld => s.releaseHeld.1
  | .deliverDelayed limitMs => ((s.deliverDelayed? limitMs).map (·.1)).toList
  | .bind _ | .unbind _ | .interrupt | .configure _ | .remember _ _ => []

def repliesAll (s : Service) : List Operation → List Delivery
  | [] => []
  | operation :: operations =>
    s.replies operation ++ (s.perform operation).repliesAll operations

end Service

namespace Ledger

variable {x : Ledger} {n : Nat}

/-- A number of turns of one call, one after the other. -/
def turns (x : Ledger) (n k : Nat) (phase : Phase) : Ledger × Phase :=
  (fun y : Ledger × Phase => y.1.advance n y.2)^[k] (x, phase)

theorem turns_succ (x : Ledger) (n k : Nat) (phase : Phase) :
    x.turns n (k + 1) phase =
      (x.advance n phase).1.turns n k (x.advance n phase).2 := rfl

/-- What turns amount to: a service, some replies that are delivered, and nothing in anybody's
hands. -/
structure Amounts (x : Ledger) (y : Ledger × Phase) (s : Service) (replies : List Delivery) :
    Prop where
  service : y.1.service = s
  told : y.1.told = x.told ++ replies
  hands : y.2.hands = []

theorem told_deliver (x : Ledger) (call : Option Nat) (reply : AcceptedReply) :
    (x.deliver call reply).told = x.told ++ [reply.delivery] := by
  simp [deliver, told, Traffic.Event.delivery]

/-- From its result on, a call is what it is to respond. -/
theorem turns_answered (x : Ledger) (n : Nat) (delivery : Delivery) :
    x.Amounts (x.turns n 2 (.answered delivery)) (x.service.respond delivery).2
      (x.service.respond delivery).1.toList := by
  let reply : AcceptedReply := ⟨x.accepted.length, delivery⟩
  have routed : x.turns n 2 (.answered delivery) =
      (x.accept reply).advance n (.routing reply x.service.route) := rfl
  rw [routed, Service.respond_eq]
  cases x.service.route with
  | hold | delay => exact ⟨rfl, (List.append_nil _).symm, rfl⟩
  | prompt => exact ⟨rfl, told_deliver _ (some n) reply, rfl⟩

theorem turns_request (x : Ledger) (n channel : Nat) (request : ServiceRequest)
    (deliver : RemoteResult → Delivery) :
    ∃ k, x.Amounts (x.turns n k (.begun (.request channel request deliver)))
      (x.service.request channel request deliver).2
      (x.service.request channel request deliver).1.toList := by
  cases current : x.service.isCurrent channel with
  | true =>
    let y : Ledger := { x with service := (x.service.apply request).2 }
    have served : x.turns n 4 (.begun (.request channel request deliver)) =
        y.turns n 2 (.answered (deliver (x.service.apply request).1)) := by
      rw [turns_succ, turns_succ]
      simp only [advance, current, if_true, y]
    obtain ⟨service, told, hands⟩ := y.turns_answered n (deliver (x.service.apply request).1)
    refine ⟨4, ?_⟩
    rw [served, Service.request, if_pos current]
    exact ⟨service, told, hands⟩
  | false =>
    have refused : x.turns n 3 (.begun (.request channel request deliver)) =
        x.turns n 2 (.answered (deliver (.error Service.staleChannel))) := by
      rw [turns_succ]
      simp only [advance, current, Bool.false_eq_true, if_false]
    refine ⟨3, ?_⟩
    rw [refused, Service.request, if_neg (by simp [current])]
    exact x.turns_answered n _

theorem turns_message (x : Ledger) (n channel : Nat) (data : Bytes)
    (deliver : Except String Bytes → Delivery) :
    ∃ k, x.Amounts (x.turns n k (.begun (.message channel data deliver)))
      (x.service.customMessage channel data deliver).2
      (x.service.customMessage channel data deliver).1.toList := by
  cases current : x.service.isCurrent channel with
  | true =>
    have served : x.turns n 4 (.begun (.message channel data deliver)) =
        x.turns n 2 (.answered (deliver (x.service.responder data))) := by
      rw [turns_succ, turns_succ]
      simp only [advance, current, if_true]
    refine ⟨4, ?_⟩
    rw [served, Service.customMessage, if_pos current]
    exact x.turns_answered n _
  | false =>
    have refused : x.turns n 1 (.begun (.message channel data deliver)) =
        (x.refuse n (deliver (.error Service.staleChannel)), .done) := by
      rw [turns_succ]
      simp only [advance, current, Bool.false_eq_true, if_false]
      rfl
    refine ⟨1, ?_⟩
    rw [refused, Service.customMessage, if_neg (by simp [current])]
    exact ⟨rfl, by simp [refuse, told, Traffic.Event.delivery], rfl⟩

/-- A release that has taken its replies delivers them and returns. -/
theorem turns_releasing (x : Ledger) (n count : Nat) (rest : List AcceptedReply) :
    x.Amounts (x.turns n (rest.length + 1) (.releasing count rest))
      { x.service with inFlight := x.service.inFlight - rest.length }
      (rest.map (·.delivery)) := by
  induction rest generalizing x with
  | nil => exact ⟨rfl, (List.append_nil _).symm, rfl⟩
  | cons reply rest further =>
    obtain ⟨service, told, hands⟩ := further (x.deliver (some n) reply)
    have less : x.service.inFlight - 1 - rest.length =
        x.service.inFlight - (rest.length + 1) := by omega
    refine ⟨?_, ?_, hands⟩
    · rw [List.length_cons, turns_succ, ← less]
      exact service
    · rw [List.length_cons, turns_succ, List.map_cons]
      rw [told_deliver, List.append_assoc] at told
      exact told

theorem turns_release (held : x.service.held = x.held.map (·.delivery)) (n : Nat) :
    ∃ k, x.Amounts (x.turns n k (.begun .release)) x.service.releaseHeld.2
      x.service.releaseHeld.1 := by
  have count : x.service.held.length = x.held.length := by rw [held, List.length_map]
  obtain ⟨service, told, hands⟩ :=
    turns_releasing x.takeHeld n x.service.held.length x.held
  refine ⟨x.held.length + 2, ?_, ?_, hands⟩
  · rw [turns_succ, Service.releaseHeld, count]
    exact service
  · rw [turns_succ, Service.releaseHeld, held]
    exact told

/-- The first delayed reply that is due is one with a number. -/
theorem exists_waiting (delayed : x.service.delayed.map (·.delivery) = x.delayed.map (·.delivery))
    {limitMs : Option Nat} {delivery : Delivery} {after : Service}
    (due : x.service.deliverDelayed? limitMs = some (delivery, after)) :
    ∃ i reply, x.delayed[i]? = some reply ∧ reply.delivery = delivery ∧
      (x.ring i reply).service = after := by
  simp only [Service.deliverDelayed?] at due
  split at due
  · next i found =>
    obtain ⟨slot, waiting, made⟩ := Option.map_eq_some_iff.1 due
    obtain ⟨rfl, rfl⟩ := Prod.mk.inj made
    have same := congrArg (·[i]?) delayed
    simp only [List.getElem?_map, waiting, Option.map_some] at same
    obtain ⟨reply, waits, told⟩ := Option.map_eq_some_iff.1 same.symm
    exact ⟨i, reply, waits, told, rfl⟩
  · cases due

end Ledger

namespace Traffic

variable {t : Traffic}

/-- A call that is begun and has its turns before anything else happens. -/
theorem run_turns (x : Ledger) (calls : List Phase) (phase : Phase) (k : Nat) :
    (⟨x, calls ++ [phase]⟩ : Traffic).run (List.replicate k (.proceed calls.length)) =
      ⟨(x.turns calls.length k phase).1, calls ++ [(x.turns calls.length k phase).2]⟩ := by
  induction k generalizing x phase with
  | zero => rfl
  | succ k further =>
    have found : (calls ++ [phase])[calls.length]? = some phase := by simp
    have placed (next : Phase) : (calls ++ [phase]).set calls.length next = calls ++ [next] := by
      simp
    have turn : (⟨x, calls ++ [phase]⟩ : Traffic).proceed calls.length =
        ⟨(x.advance calls.length phase).1, calls ++ [(x.advance calls.length phase).2]⟩ := by
      simp only [proceed, found, placed]
    rw [List.replicate_succ, Ledger.turns_succ, ← further, ← turn]
    rfl

theorem run_call {call : Call} {k : Nat} {s : Service} {replies : List Delivery}
    (amounts : t.ledger.Amounts (t.ledger.turns t.calls.length k (.begun call)) s replies) :
    ∃ steps, (t.run steps).service = s ∧ (t.run steps).ledger.told = t.ledger.told ++ replies ∧
      (t.run steps).hands = t.hands := by
  have alone : t.run (.begin call :: List.replicate k (.proceed t.calls.length)) =
      ⟨(t.ledger.turns t.calls.length k (.begun call)).1,
        t.calls ++ [(t.ledger.turns t.calls.length k (.begun call)).2]⟩ :=
    run_turns t.ledger t.calls (.begun call) k
  refine ⟨.begin call :: List.replicate k (.proceed t.calls.length), ?_, ?_, ?_⟩
  · rw [alone]
    exact amounts.service
  · rw [alone]
    exact amounts.told
  · rw [alone]
    simp [hands, amounts.hands]

/-- Every operation of a service can be done without interruption. -/
theorem run_operation (h : t.ledger.Accounted t.hands) (operation : Service.Operation) :
    ∃ steps, (t.run steps).service = t.service.perform operation ∧
      (t.run steps).ledger.told = t.ledger.told ++ t.service.replies operation ∧
      (t.run steps).hands = t.hands := by
  have aside (isApart : operation.isApart = true) (nothing : t.service.replies operation = []) :
      ∃ steps, (t.run steps).service = t.service.perform operation ∧
        (t.run steps).ledger.told = t.ledger.told ++ t.service.replies operation ∧
        (t.run steps).hands = t.hands := by
    rw [nothing, List.append_nil]
    exact ⟨[.apart operation isApart], rfl, rfl, rfl⟩
  cases operation with
  | request channel request deliver =>
    obtain ⟨k, amounts⟩ := t.ledger.turns_request t.calls.length channel request deliver
    exact run_call amounts
  | customMessage channel data deliver =>
    obtain ⟨k, amounts⟩ := t.ledger.turns_message t.calls.length channel data deliver
    exact run_call amounts
  | releaseHeld =>
    obtain ⟨k, amounts⟩ := Ledger.turns_release h.held t.calls.length
    exact run_call amounts
  | deliverDelayed limitMs =>
    cases due : t.service.deliverDelayed? limitMs with
    | none => exact ⟨[], by simp [Service.perform, Service.replies, due, run]⟩
    | some delivered =>
      obtain ⟨delivery, after⟩ := delivered
      obtain ⟨i, reply, waits, rfl, rfl⟩ := Ledger.exists_waiting h.delayed due
      refine ⟨[.ring i], ?_⟩
      have rings : t.run [.ring i] = { t with ledger := t.ledger.ring i reply } := by
        simp only [run, List.foldl_cons, List.foldl_nil, step, ring, waits]
      rw [rings]
      simp only [Service.perform, Service.replies, due]
      exact ⟨rfl, Ledger.told_deliver _ none reply, rfl⟩
  | bind | unbind | interrupt | configure | remember => exact aside rfl rfl

/-- So can any number of operations, one after the other. -/
theorem run_operations (h : t.ledger.Accounted t.hands) (operations : List Service.Operation) :
    ∃ steps, (t.run steps).service = t.service.performAll operations ∧
      (t.run steps).ledger.told = t.ledger.told ++ t.service.repliesAll operations ∧
      (t.run steps).hands = t.hands := by
  induction operations generalizing t with
  | nil => exact ⟨[], rfl, (List.append_nil _).symm, rfl⟩
  | cons operation operations further =>
    obtain ⟨first, service, told, hands⟩ := run_operation h operation
    obtain ⟨others, service', told', hands'⟩ := further (accounted_run h first)
    refine ⟨first ++ others, ?_, ?_, ?_⟩
    · rw [run_append, service', service]
      rfl
    · rw [run_append, told', told, service, List.append_assoc]
      rfl
    · rw [run_append, hands', hands]

end Traffic

end EndpointMonitor
