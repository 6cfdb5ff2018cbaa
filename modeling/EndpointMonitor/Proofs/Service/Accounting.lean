import EndpointMonitor.Proofs.Service.Replies
import Mathlib.Data.List.Induction

/-!
The account of replies. Every accepted reply was delivered, is held, is delayed, or is in the hands
of a call, and only one of these. Those that were not delivered are the ones that are counted.
-/

namespace EndpointMonitor

namespace Ledger

variable {x y : Ledger} {hands part part' others : List AcceptedReply}

theorem delivered_deliver (x : Ledger) (call : Option Nat) (reply : AcceptedReply) :
    (x.deliver call reply).delivered = x.delivered ++ [reply] := by
  simp [deliver, delivered, Traffic.Event.reply?]

theorem delivered_ring (x : Ledger) (i : Nat) (reply : AcceptedReply) :
    (x.ring i reply).delivered = x.delivered ++ [reply] :=
  delivered_deliver _ none reply

/-- Where the accepted replies are, with some in the hands of calls. -/
structure Accounted (x : Ledger) (hands : List AcceptedReply) : Prop where
  numbered : x.accepted.map (·.ticket) = List.range x.accepted.length
  balance : (x.delivered ++ (x.held ++ x.delayed ++ hands)).Perm x.accepted
  counted : x.service.inFlight = (x.held ++ x.delayed ++ hands).length
  held : x.service.held = x.held.map (·.delivery)
  delayed : x.service.delayed.map (·.delivery) = x.delayed.map (·.delivery)
  stored : x.held <:+ x.stored

namespace Accounted

/-- Replies that were not delivered can change their places. -/
theorem rearrange (h : Accounted x hands) {held delayed stored hands' : List AcceptedReply}
    {service : Service} (moved : (held ++ delayed ++ hands').Perm (x.held ++ x.delayed ++ hands))
    (counter : service.inFlight = x.service.inFlight)
    (inHold : service.held = held.map (·.delivery))
    (inDelay : service.delayed.map (·.delivery) = delayed.map (·.delivery))
    (inStore : held <:+ stored) :
    Accounted { x with service, held, delayed, stored } hands' where
  numbered := h.numbered
  balance := (moved.append_left _).trans h.balance
  counted := by rw [counter, h.counted, moved.length_eq]
  held := inHold
  delayed := inDelay
  stored := inStore

theorem of_perm (h : Accounted x part) (same : part.Perm part') : Accounted x part' :=
  h.rearrange (same.symm.append_left _) rfl h.held h.delayed h.stored

theorem keep (h : Accounted x hands) {service : Service} {trace : List Traffic.Event}
    (same : x.service.KeepsReplies service) (silent : trace.filterMap (·.reply?) = x.delivered) :
    Accounted { x with service, trace } hands where
  numbered := h.numbered
  balance := by
    rw [delivered, silent]
    exact h.balance
  counted := same.inFlight.trans h.counted
  held := same.held.trans h.held
  delayed := by
    rw [same.delayed]
    exact h.delayed
  stored := h.stored

theorem accept (h : Accounted x others) (delivery : Delivery) :
    Accounted (x.accept ⟨x.accepted.length, delivery⟩)
      (⟨x.accepted.length, delivery⟩ :: others) where
  numbered := by
    simp [Ledger.accept, h.numbered, List.range_succ]
  balance := by
    classical
    rw [List.perm_iff_count]
    intro reply
    have before := h.balance.count_eq reply
    simp only [Ledger.accept, delivered, List.count_append, List.count_cons, List.count_nil] at *
    omega
  counted := by
    have before := h.counted
    simp only [Ledger.accept, Service.accept, List.length_append, List.length_cons] at *
    omega
  held := h.held
  delayed := h.delayed
  stored := h.stored

theorem hold {reply : AcceptedReply} (h : Accounted x (reply :: others)) :
    Accounted (x.hold reply) others := by
  have moved : (x.held ++ [reply] ++ x.delayed ++ others).Perm
      (x.held ++ x.delayed ++ reply :: others) := by
    simpa using List.perm_middle.symm.append_left x.held
  have stored : x.held ++ [reply] <:+ x.stored ++ [reply] := by
    obtain ⟨gone, all⟩ := h.stored
    exact ⟨gone, by rw [← all, List.append_assoc]⟩
  exact h.rearrange moved rfl (by simp [h.held]) h.delayed stored

theorem delay {reply : AcceptedReply} (h : Accounted x (reply :: others)) (afterMs : Nat) :
    Accounted (x.delay afterMs reply) others := by
  have moved : (x.held ++ (x.delayed ++ [reply]) ++ others).Perm
      (x.held ++ x.delayed ++ reply :: others) := by
    simp
  exact h.rearrange moved rfl h.held (by simp [h.delayed]) h.stored

theorem takeHeld (h : Accounted x others) : Accounted x.takeHeld (x.held ++ others) := by
  have moved : ([] ++ x.delayed ++ (x.held ++ others)).Perm (x.held ++ x.delayed ++ others) := by
    rw [List.nil_append, List.append_assoc]
    exact List.perm_append_comm_assoc ..
  exact h.rearrange moved rfl rfl h.delayed List.nil_suffix

theorem takeDelayed {i : Nat} {reply : AcceptedReply} (h : Accounted x others)
    (waits : x.delayed[i]? = some reply) : Accounted (x.takeDelayed i) (reply :: others) := by
  obtain ⟨inside, rfl⟩ := List.getElem?_eq_some_iff.1 waits
  have moved : (x.held ++ x.delayed.eraseIdx i ++ x.delayed[i] :: others).Perm
      (x.held ++ x.delayed ++ others) := by
    have first : (x.delayed.eraseIdx i ++ x.delayed[i] :: others).Perm
        (x.delayed[i] :: x.delayed.eraseIdx i ++ others) := List.perm_middle
    have back := (List.getElem_cons_eraseIdx_perm inside).append_right others
    rw [List.append_assoc, List.append_assoc]
    exact (first.trans back).append_left x.held
  exact h.rearrange moved rfl h.held (by simp only [← List.eraseIdx_map, h.delayed]) h.stored

theorem deliver {reply : AcceptedReply} (h : Accounted x (reply :: others)) (call : Option Nat) :
    Accounted (x.deliver call reply) others where
  numbered := h.numbered
  balance := by
    classical
    rw [List.perm_iff_count, delivered_deliver]
    intro other
    have before := h.balance.count_eq other
    simp only [Ledger.deliver, List.count_append, List.count_cons, List.count_nil] at *
    omega
  counted := by
    have before := h.counted
    simp only [Ledger.deliver, Service.discharge, List.length_append, List.length_cons] at *
    omega
  held := h.held
  delayed := h.delayed
  stored := h.stored

/-- A delayed reply passes through the hands of the one who delivers it. -/
theorem ring {i : Nat} {reply : AcceptedReply} (h : Accounted x others)
    (waits : x.delayed[i]? = some reply) : Accounted (x.ring i reply) others :=
  (h.takeDelayed waits).deliver none

theorem move (h : Accounted x (part ++ others)) (moves : x.Moves part y part') :
    Accounted y (part' ++ others) := by
  cases moves with
  | keeps same silent => exact h.keep same silent
  | accepts delivery => exact h.accept delivery
  | holds reply => exact h.hold
  | delays afterMs reply => exact h.delay afterMs
  | takes => exact h.takeHeld
  | delivers call reply rest => exact h.deliver call
  | rings waits => exact h.ring waits

/-! ### What the account says -/

/-- No two accepted replies have the same number, wherever they are. -/
theorem nodup (h : Accounted x hands) :
    ((x.delivered ++ (x.held ++ x.delayed ++ hands)).map (·.ticket)).Nodup := by
  rw [(h.balance.map _).nodup_iff, h.numbered]
  exact List.nodup_range

theorem delivered_nodup (h : Accounted x hands) : (x.delivered.map (·.ticket)).Nodup := by
  have all := h.nodup
  rw [List.map_append] at all
  exact (List.nodup_append.1 all).1

theorem mem_accepted (h : Accounted x hands) {reply : AcceptedReply} (told : reply ∈ x.delivered) :
    reply ∈ x.accepted :=
  h.balance.mem_iff.1 (List.mem_append_left _ told)

theorem outstanding_perm (h : Accounted x hands) :
    x.outstanding.Perm (x.held ++ x.delayed ++ hands) := by
  have all := h.nodup
  rw [List.map_append, List.nodup_append] at all
  obtain ⟨-, -, apart⟩ := all
  let late (reply : AcceptedReply) : Bool := reply.ticket ∉ x.delivered.map (·.ticket)
  have none_delivered : x.delivered.filter late = [] := by
    rw [List.filter_eq_nil_iff]
    intro reply told
    have known : reply.ticket ∈ x.delivered.map (·.ticket) := List.mem_map_of_mem told
    simpa [late] using known
  have all_others :
      (x.held ++ x.delayed ++ hands).filter late = x.held ++ x.delayed ++ hands := by
    rw [List.filter_eq_self]
    intro reply waits
    have unknown : reply.ticket ∉ x.delivered.map (·.ticket) := by
      intro known
      exact apart _ known _ (List.mem_map_of_mem waits) rfl
    simpa [late] using unknown
  have parts := (h.balance.filter late).symm
  rw [List.filter_append, none_delivered, all_others] at parts
  exact parts

theorem inFlight_eq (h : Accounted x hands) : x.service.inFlight = x.outstanding.length :=
  h.counted.trans h.outstanding_perm.length_eq.symm

theorem length_accepted (h : Accounted x hands) :
    x.accepted.length = x.delivered.length + x.service.inFlight := by
  rw [h.counted, ← h.balance.length_eq, List.length_append]

/-- With nothing in anybody's hands the counter says how many replies are held or delayed. -/
theorem inFlight_at_rest (h : Accounted x []) :
    x.service.inFlight = x.service.held.length + x.service.delayed.length := by
  have held := congrArg List.length h.held
  have delayed := congrArg List.length h.delayed
  have counted := h.counted
  simp only [List.length_map, List.length_append, List.length_nil] at *
  omega

end Accounted

namespace Moves

/-- At most one reply is delivered at once, and then none is accepted. -/
theorem delivered_cases (moves : x.Moves part y part') :
    y.delivered = x.delivered ∨
      ∃ reply, y.delivered = x.delivered ++ [reply] ∧ y.accepted = x.accepted := by
  cases moves with
  | keeps same silent => exact .inl silent
  | accepts | holds | delays | takes => exact .inl rfl
  | delivers call reply rest => exact .inr ⟨reply, delivered_deliver x call reply, rfl⟩
  | @rings i reply waits => exact .inr ⟨reply, delivered_ring x i reply, rfl⟩

/-- The counter is taken down by one for each reply that is delivered. -/
theorem inFlight_of_delivered (moves : x.Moves part y part') (before : Accounted x hands)
    {hands' : List AcceptedReply} (after : Accounted y hands')
    (delivers : x.delivered.length < y.delivered.length) :
    y.service.inFlight + 1 = x.service.inFlight := by
  rcases moves.delivered_cases with same | ⟨reply, one, accepted⟩
  · rw [same] at delivers
    omega
  · have total := before.length_accepted
    have total' := after.length_accepted
    rw [accepted, one, List.length_append, List.length_singleton] at total'
    omega

/-- The maximum follows the counter upwards. -/
theorem maxInFlight_eq (moves : x.Moves part y part')
    (below : x.service.inFlight ≤ x.service.maxInFlight) :
    y.service.maxInFlight = max x.service.maxInFlight y.service.inFlight := by
  cases moves with
  | keeps same silent =>
    have counter := same.inFlight
    have maximum := same.maxInFlight
    simp only [counter, maximum]
    omega
  | accepts => rfl
  | holds | delays | takes => exact (Nat.max_eq_left below).symm
  | delivers | rings =>
    have less : x.service.inFlight - 1 ≤ x.service.maxInFlight := by omega
    exact (Nat.max_eq_left less).symm

end Moves

end Ledger

namespace Traffic

variable {t : Traffic}

/-! ### Runs -/

theorem accounted_step (h : t.ledger.Accounted t.hands) (step : Step) :
    (t.step step).ledger.Accounted (t.step step).hands := by
  obtain ⟨part, part', others, before, moves, after⟩ := t.step_moves step
  exact ((h.of_perm before).move moves).of_perm after.symm

theorem accounted_start (codec : Codec) : (start codec).ledger.Accounted (start codec).hands where
  numbered := rfl
  balance := .refl _
  counted := rfl
  held := rfl
  delayed := rfl
  stored := List.nil_suffix

theorem accounted_run (h : t.ledger.Accounted t.hands) (steps : List Step) :
    (t.run steps).ledger.Accounted (t.run steps).hands := by
  induction steps generalizing t with
  | nil => exact h
  | cons step steps further => exact further (accounted_step h step)

/-- The maximum is reached by the counter at some moment, and never exceeded. -/
theorem maxInFlight_run (codec : Codec) (steps : List Step) :
    (∀ earlier, earlier <+: steps → ((start codec).run earlier).service.inFlight ≤
      ((start codec).run steps).service.maxInFlight) ∧
    ∃ earlier, earlier <+: steps ∧ ((start codec).run earlier).service.inFlight =
      ((start codec).run steps).service.maxInFlight := by
  induction steps using List.reverseRecOn with
  | nil =>
    refine ⟨?_, [], List.prefix_refl _, rfl⟩
    intro earlier before
    rw [List.prefix_nil.1 before]
    exact Nat.le_refl _
  | append_singleton steps step ih =>
    obtain ⟨below, moment, before, reached⟩ := ih
    obtain ⟨part, part', others, -, moves, -⟩ := ((start codec).run steps).step_moves step
    have maximum : ((start codec).run (steps ++ [step])).service.maxInFlight =
        max ((start codec).run steps).service.maxInFlight
          ((start codec).run (steps ++ [step])).service.inFlight := by
      rw [run_snoc]
      exact moves.maxInFlight_eq (below steps (List.prefix_refl _))
    constructor
    · intro earlier inside
      rcases List.prefix_concat_iff.1 inside with rfl | inside
      · omega
      · have old := below earlier inside
        omega
    · by_cases higher : ((start codec).run steps).service.maxInFlight ≤
          ((start codec).run (steps ++ [step])).service.inFlight
      · exact ⟨steps ++ [step], List.prefix_refl _, by omega⟩
      · exact ⟨moment, before.trans (List.prefix_append _ _), by omega⟩

end Traffic

end EndpointMonitor
