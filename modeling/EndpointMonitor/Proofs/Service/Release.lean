import EndpointMonitor.Proofs.Service.Uninterrupted

/-!
The release of held replies. It takes the replies that are held at that moment and delivers them one
after the other, one in each of its turns, whatever happens in between. After as many turns as there
were replies it takes one more to return their number. With this the account of replies is complete.
-/

namespace EndpointMonitor

namespace Ledger

open Traffic (Phase Event)

/-- In its turn a call delivers replies in its own name only. -/
theorem advance_trace (x : Ledger) (m : Nat) (phase : Phase) :
    ∃ events, (x.advance m phase).1.trace = x.trace ++ events ∧
      ∀ n, n ≠ m → events.filterMap (·.replyBy? n) = [] := by
  have silent : ∃ events, x.trace = x.trace ++ events ∧
      ∀ n, n ≠ m → events.filterMap (·.replyBy? n) = [] := ⟨[], by simp⟩
  have delivers (reply : AcceptedReply) : ∃ events,
      (x.deliver (some m) reply).trace = x.trace ++ events ∧
        ∀ n, n ≠ m → events.filterMap (·.replyBy? n) = [] := by
    refine ⟨[.delivered (some m) reply], rfl, ?_⟩
    intro n other
    simp [Event.replyBy?, Ne.symm other]
  cases phase with
  | begun call =>
    cases call with
    | request | release => exact silent
    | message channel data deliver =>
      simp only [advance]
      split
      · exact silent
      · exact ⟨[.refused m (deliver (.error Service.staleChannel))], rfl, by simp [Event.replyBy?]⟩
  | routing reply route =>
    cases route with
    | hold | delay => exact silent
    | prompt => exact delivers reply
  | releasing count rest =>
    cases rest with
    | nil => exact silent
    | cons reply rest => exact delivers reply
  | serving | responding | answered | done | returned => exact silent

/-- A call that has had a turn is not at its beginning any more. -/
theorem advance_ne_begun (x : Ledger) (n : Nat) (phase : Phase) (call : Traffic.Call) :
    (x.advance n phase).2 ≠ .begun call := by
  cases phase with
  | begun call =>
    cases call with
    | request | message =>
      simp only [advance]
      split <;> simp
    | release => simp [advance]
  | routing reply route => cases route <;> simp [advance]
  | releasing count rest => cases rest <;> simp [advance]
  | serving | responding | answered | done | returned => simp [advance]

theorem deliveredBy_deliver (x : Ledger) (n : Nat) (reply : AcceptedReply) :
    (x.deliver (some n) reply).deliveredBy n = x.deliveredBy n ++ [reply] := by
  simp [deliver, deliveredBy, Event.replyBy?]

end Ledger

namespace Traffic

variable {t : Traffic} {n k : Nat} {phase : Phase} {all : List AcceptedReply}

/-! ### The turns of others -/

theorem calls_of_other {step : Step} (found : t.calls[n]? = some phase)
    (other : step.isTurnOf n = false) : (t.step step).calls[n]? = some phase := by
  cases step with
  | begin call =>
    have inside := (List.getElem?_eq_some_iff.1 found).1
    simpa [Traffic.step, List.getElem?_append_left inside] using found
  | proceed m =>
    have apart : m ≠ n := by simpa [Step.isTurnOf] using other
    cases turn : t.calls[m]? with
    | none => rwa [Traffic.step, proceed_of_none turn]
    | some phase => rwa [Traffic.step, calls_proceed turn, List.getElem?_set_ne apart]
  | ring i =>
    simp only [Traffic.step, ring]
    split <;> exact found
  | apart operation isApart => exact found

theorem deliveredBy_of_other {step : Step} (other : step.isTurnOf n = false) :
    (t.step step).ledger.deliveredBy n = t.ledger.deliveredBy n := by
  cases step with
  | proceed m =>
    have apart : n ≠ m := by
      rintro rfl
      simp [Step.isTurnOf] at other
    cases turn : t.calls[m]? with
    | none => rw [Traffic.step, proceed_of_none turn]
    | some phase =>
      obtain ⟨events, trace, silent⟩ := t.ledger.advance_trace m phase
      rw [Traffic.step, ledger_proceed turn]
      simp [Ledger.deliveredBy, trace, silent n apart]
  | ring i =>
    simp only [Traffic.step, ring]
    split
    · next reply waits =>
      simp [Ledger.deliveredBy, Ledger.ring, Ledger.takeDelayed, Ledger.deliver, Event.replyBy?]
    · rfl
  | begin | apart => rfl

/-! ### The turns of a release -/

/-- A call that has not had a turn has delivered nothing. -/
theorem deliveredBy_of_begun (codec : Codec) (steps : List Step) (n : Nat)
    (fresh : ∀ phase, ((start codec).run steps).calls[n]? = some phase →
      ∃ call, phase = .begun call) :
    ((start codec).run steps).ledger.deliveredBy n = [] := by
  induction steps using List.reverseRecOn with
  | nil => rfl
  | append_singleton steps step ih =>
    rw [run_snoc] at fresh ⊢
    cases turn : step.isTurnOf n with
    | false =>
      rw [deliveredBy_of_other turn]
      exact ih fun phase found => fresh phase (calls_of_other found turn)
    | true =>
      cases step with
      | begin | ring | apart => cases turn
      | proceed m =>
        obtain rfl : m = n := by simpa [Step.isTurnOf] using turn
        cases found : ((start codec).run steps).calls[m]? with
        | none =>
          rw [Traffic.step, proceed_of_none found] at fresh ⊢
          exact ih fresh
        | some phase =>
          obtain ⟨call, begun⟩ := fresh _ (phase_proceed found)
          exact absurd begun (Ledger.advance_ne_begun _ m phase call)

/-- A release has taken some replies and has had a number of turns since. -/
structure Releases (t : Traffic) (n : Nat) (all : List AcceptedReply) (turns : Nat) : Prop where
  phase : t.calls[n]? = some
    (if turns ≤ all.length then .releasing all.length (all.drop turns) else .returned all.length)
  delivered : t.ledger.deliveredBy n = all.take turns

theorem Releases.turn (h : Releases t n all k) : Releases (t.proceed n) n all (k + 1) := by
  obtain ⟨found, delivered⟩ := h
  by_cases left : k < all.length
  · -- One more reply goes out.
    rw [if_pos (by omega), List.drop_eq_getElem_cons left] at found
    constructor
    · rw [phase_proceed found, if_pos (by omega)]
      rfl
    · rw [ledger_proceed found, List.take_succ_eq_append_getElem left, ← delivered]
      exact Ledger.deliveredBy_deliver _ n _
  · have nothing : all.drop k = [] := List.drop_eq_nil_of_le (by omega)
    have everything : all.take (k + 1) = all.take k := by
      rw [List.take_of_length_le (by omega), List.take_of_length_le (by omega)]
    -- With nothing left the release returns, and later turns do nothing.
    have returns : t.ledger.advance n
        (if k ≤ all.length then .releasing all.length (all.drop k) else .returned all.length) =
          (t.ledger, .returned all.length) := by
      rw [nothing]
      split <;> rfl
    constructor
    · rw [phase_proceed found, returns, if_neg (by omega)]
    · rw [ledger_proceed found, returns, everything]
      exact delivered

theorem Releases.run (h : Releases t n all k) (steps : List Step) :
    Releases (t.run steps) n all (k + steps.countP (·.isTurnOf n)) := by
  induction steps generalizing t k with
  | nil => exact h
  | cons step steps further =>
    cases turn : step.isTurnOf n with
    | false =>
      have same : Releases (t.step step) n all k :=
        ⟨calls_of_other h.phase turn, (deliveredBy_of_other turn).trans h.delivered⟩
      rw [List.countP_cons_of_neg (by simp [turn])]
      exact further same
    | true =>
      cases step with
      | begin | ring | apart => cases turn
      | proceed m =>
        obtain rfl : m = n := by simpa [Step.isTurnOf] using turn
        rw [List.countP_cons_of_pos (by simp [Step.isTurnOf]), Nat.add_comm (List.countP _ _),
          ← Nat.add_assoc]
        exact further h.turn

/-- In its first turn a release takes what is held. -/
theorem releases_of_begun (fresh : t.ledger.deliveredBy n = [])
    (accounted : t.ledger.Accounted t.hands) (found : t.calls[n]? = some (.begun .release)) :
    Releases (t.proceed n) n t.ledger.held 0 := by
  have count : t.ledger.service.held.length = t.ledger.held.length := by
    rw [accounted.held, List.length_map]
  constructor
  · rw [phase_proceed found, if_pos (Nat.zero_le _), List.drop_zero, ← count]
    rfl
  · rw [ledger_proceed found, List.take_zero, ← fresh]
    rfl

/-! ### The whole account -/

/-- At every moment of a run the counter is the number of replies that were accepted and have not
been delivered: those that are held, those that are delayed, and those in the hands of calls that
are just dealing with them. Every delivery takes it down by one, so it never goes below zero, and
the maximum is the highest number that there ever was. No reply is delivered twice, and none that
was not accepted. A release delivers the replies that are held when it takes them, in the order in
which they were held, one in each of its turns, and then returns their number, whatever else happens
in between. What the service does by whole operations can be done in such runs, with the same
replies, so that after them the counter is the number of replies that are held or delayed. -/
theorem replies_accounted (codec : Codec) (steps : List Step) :
    let t := (start codec).run steps
    (t.service.inFlight = t.ledger.outstanding.length ∧
      t.ledger.outstanding.Perm (t.ledger.held ++ t.ledger.delayed ++ t.hands) ∧
      t.service.held = t.ledger.held.map (·.delivery) ∧
      t.service.delayed.map (·.delivery) = t.ledger.delayed.map (·.delivery) ∧
      (t.hands = [] → t.service.inFlight = t.service.held.length + t.service.delayed.length) ∧
      ∀ step, t.ledger.delivered.length < (t.step step).ledger.delivered.length →
        (t.step step).service.inFlight + 1 = t.service.inFlight) ∧
    ((∀ earlier, earlier <+: steps →
        ((start codec).run earlier).ledger.outstanding.length ≤ t.service.maxInFlight) ∧
      ∃ earlier, earlier <+: steps ∧
        ((start codec).run earlier).ledger.outstanding.length = t.service.maxInFlight) ∧
    (t.ledger.accepted.map (·.ticket) = List.range t.ledger.accepted.length ∧
      (t.ledger.delivered.map (·.ticket)).Nodup ∧ t.ledger.delivered ⊆ t.ledger.accepted) ∧
    (∀ n, t.calls[n]? = some (.begun .release) →
      t.ledger.held <:+ t.ledger.stored ∧
      ∀ later,
        let u := (t.proceed n).run later
        let turns := later.countP (·.isTurnOf n)
        u.ledger.deliveredBy n = t.ledger.held.take turns ∧
        u.calls[n]? = some (if turns ≤ t.ledger.held.length
          then .releasing t.ledger.held.length (t.ledger.held.drop turns)
          else .returned t.ledger.held.length)) ∧
    ∀ operations,
      let s := (Service.new codec).performAll operations
      s.inFlight = s.held.length + s.delayed.length ∧
      ∃ steps,
        let u := (start codec).run steps
        u.service = s ∧ u.ledger.told = (Service.new codec).repliesAll operations ∧
          u.hands = [] := by
  intro t
  have account (earlier : List Step) :
      ((start codec).run earlier).ledger.Accounted ((start codec).run earlier).hands :=
    accounted_run (accounted_start codec) earlier
  have now : t.ledger.Accounted t.hands := account steps
  obtain ⟨below, moment, before, reached⟩ := maxInFlight_run codec steps
  refine ⟨⟨now.inFlight_eq, now.outstanding_perm, now.held, now.delayed, ?_, ?_⟩, ⟨?_, ?_⟩,
    ⟨now.numbered, now.delivered_nodup, fun _ => now.mem_accepted⟩, ?_, ?_⟩
  · intro nothing
    rw [nothing] at now
    exact now.inFlight_at_rest
  · intro step delivers
    obtain ⟨part, part', others, -, moves, -⟩ := t.step_moves step
    exact moves.inFlight_of_delivered now (accounted_step now step) delivers
  · intro earlier inside
    rw [← (account earlier).inFlight_eq]
    exact below earlier inside
  · refine ⟨moment, before, ?_⟩
    rw [← (account moment).inFlight_eq]
    exact reached
  · intro n found
    have fresh : t.ledger.deliveredBy n = [] := by
      refine deliveredBy_of_begun codec steps n ?_
      intro phase other
      exact ⟨.release, Option.some.inj (other.symm.trans found)⟩
    refine ⟨now.stored, ?_⟩
    intro later u turns
    have released := (releases_of_begun fresh now found).run later
    rw [Nat.zero_add] at released
    exact ⟨released.delivered, released.phase⟩
  · intro operations s
    obtain ⟨steps, same, told, nothing⟩ := run_operations (accounted_start codec) operations
    have rest := account steps
    rw [nothing] at rest
    refine ⟨?_, steps, same, told, nothing⟩
    have whole : s = ((start codec).run steps).service := same.symm
    rw [whole]
    exact rest.inFlight_at_rest

/-- Two messages are sent by somebody who is just being given the first of two held replies. The
release delivers the second one and returns, and three replies were in flight at once. -/
theorem messages_sent_during_release :
    let message (data : Bytes) : Step := .begin (.message 1 data .foreignMessage)
    let answered (n : Nat) : List Step := List.replicate 4 (.proceed n)
    let earlier : List Step :=
      [.apart (.bind 1) rfl, .apart (.configure (.unresponsive true)) rfl, message [97],
        message [98]] ++ answered 0 ++ answered 1
    let later : List Step :=
      [.proceed 2, message [99], message [100]] ++ answered 3 ++ answered 4 ++
        [.proceed 2, .proceed 2]
    let t := (start .default).run (earlier ++ [.begin .release])
    let u := (t.proceed 2).run later
    t.calls[2]? = some (.begun .release) ∧ t.ledger.held.length = 2 ∧
      u.ledger.deliveredBy 2 = t.ledger.held ∧ u.calls[2]? = some (.returned 2) ∧
      u.service.maxInFlight = 3 ∧ u.service.inFlight = 2 ∧ u.service.held.length = 2 := by
  intro message answered earlier later t u
  have others : ((start .default).run earlier).calls.length = 2 := by decide +kernel
  have found : t.calls[2]? = some (.begun .release) := by
    simp only [t, run_snoc, step, ← others, List.getElem?_concat_length]
  have two : t.ledger.held.length = 2 := by decide +kernel
  have turns : later.countP (·.isTurnOf 2) = 3 := rfl
  obtain ⟨-, -, -, releases, -⟩ := replies_accounted .default (earlier ++ [.begin .release])
  obtain ⟨-, released⟩ := releases 2 found
  obtain ⟨delivered, phase⟩ := released later
  have everything : t.ledger.held.take 3 = t.ledger.held := List.take_of_length_le (by omega)
  rw [turns, everything] at delivered
  rw [turns, two, if_neg (by decide)] at phase
  refine ⟨found, two, delivered, phase, ?_, ?_, ?_⟩
  · decide +kernel
  · decide +kernel
  · decide +kernel

end Traffic

end EndpointMonitor
