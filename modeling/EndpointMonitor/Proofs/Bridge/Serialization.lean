import EndpointMonitor.Proofs.Bridge.Settlement

/-!
The calls of a bridge, one after the other. Whatever the order of events, a call returns once,
before the next one begins, with the result of the first event that concerns it.
-/

namespace EndpointMonitor.Bridge

variable {α : Type}

/-- What can happen to a bridge. -/
inductive Step (α : Type) where
  | enter (thread : Nat) (timeoutMs : UInt64)
  | complete (call : Nat) (result : Except ClientError α)
  | drop (call : Nat)
  | failPending (error : ClientError)
  /-- A failure from outside reaches the call that was on record when it looked. -/
  | abort (call : Nat) (error : ClientError)
  | expire (call : Nat)
  | leave (call : Nat)

/-- A thread that is not let in, and a call that cannot return yet, change nothing. -/
def step (b : Bridge α) : Step α → Bridge α
  | .enter thread timeoutMs =>
    match b.enter thread timeoutMs with
    | .rejected | .waiting _ => b
    | .started _ begun => begun
  | .complete call result => (b.complete call result).2
  | .drop call => b.drop call
  | .failPending error => (b.failPending error).2
  | .abort call error => (b.settle call (.error error)).2
  | .expire call => b.expire call
  | .leave call =>
    match b.leave call with
    | none => b
    | some (_, left) => left

def run (b : Bridge α) (steps : List (Step α)) : Bridge α := steps.foldl step b

/-- The call that begins with a step. -/
def begun? (b : Bridge α) : Step α → Option Nat
  | .enter thread timeoutMs =>
    match b.enter thread timeoutMs with
    | .rejected | .waiting _ => none
    | .started call _ => some call
  | _ => none

/-- The call that returns with a step, and what it returns. -/
def returned? (b : Bridge α) : Step α → Option (Nat × Except ClientError α)
  | .leave call => (b.leave call).map fun (result, _) => (call, result)
  | _ => none

def begins (b : Bridge α) : List (Step α) → List Nat
  | [] => []
  | s :: steps => (b.begun? s).toList ++ (b.step s).begins steps

def returns (b : Bridge α) : List (Step α) → List (Nat × Except ClientError α)
  | [] => []
  | s :: steps => (b.returned? s).toList ++ (b.step s).returns steps

/-- The result that a step has for a call with this deadline, if it concerns the call. -/
def verdict? (b : Bridge α) (call : Nat) (timeoutMs : UInt64) :
    Step α → Option (Except ClientError α)
  | .complete other result => if other = call then some result else none
  | .drop other => if other = call then some (.error .notConnected) else none
  | .failPending error => if b.pending = some call then some (.error error) else none
  | .abort other error => if other = call then some (.error error) else none
  | .expire other => if other = call then some (.error (.timeout timeoutMs)) else none
  | .enter _ _ | .leave _ => none

/-- The result that the first step which concerns a call has for it. -/
def decision? (b : Bridge α) (call : Nat) (timeoutMs : UInt64) :
    List (Step α) → Option (Except ClientError α)
  | [] => none
  | s :: steps => (b.verdict? call timeoutMs s).or ((b.step s).decision? call timeoutMs steps)

theorem run_append (b : Bridge α) (steps more : List (Step α)) :
    b.run (steps ++ more) = (b.run steps).run more := List.foldl_append

theorem returns_append (b : Bridge α) (steps more : List (Step α)) :
    b.returns (steps ++ more) = b.returns steps ++ (b.run steps).returns more := by
  induction steps generalizing b with
  | nil => rfl
  | cons s steps ih =>
    have rest := ih (b.step s)
    simp only [List.cons_append, returns, rest, List.append_assoc]
    rfl

/-! ### One call at a time -/

/-- Only the newest call can be pending, and then it holds the bridge. -/
structure Serial (b : Bridge α) : Prop where
  holder : b.holder = b.pending
  owner : b.pending = none → b.owner = none
  newest : ∀ call, b.pending = some call → call + 1 = b.calls.length

theorem empty_serial : Serial (empty : Bridge α) where
  holder := rfl
  owner _ := rfl
  newest _ h := by cases h

theorem Serial.of_advances {b b' : Bridge α} (h : Serial b) (further : Advances b b') :
    Serial b' where
  holder := by rw [further.holder, further.pending, h.holder]
  owner := by
    rw [further.pending, further.owner]
    exact h.owner
  newest := by
    rw [further.pending, further.length_eq]
    exact h.newest

theorem serial_occupy (b : Bridge α) (thread : Nat) (timeoutMs : UInt64) :
    Serial (b.occupy thread timeoutMs) where
  holder := rfl
  owner h := by cases h
  newest call h := by
    obtain rfl : b.calls.length = call := Option.some.inj h
    simp [occupy]

theorem serial_vacate (b : Bridge α) : Serial b.vacate where
  holder := rfl
  owner _ := rfl
  newest _ h := by cases h

/-- A step lets a call in or out, or else it decides calls at most. -/
theorem step_cases (b : Bridge α) (s : Step α) :
    (∃ thread timeoutMs, s = .enter thread timeoutMs ∧ b.holder = none ∧
      b.begun? s = some b.calls.length ∧ b.returned? s = none ∧
      b.step s = b.occupy thread timeoutMs) ∨
    (∃ call result, s = .leave call ∧ b.holder = some call ∧ b.outcome? call = some result ∧
      b.begun? s = none ∧ b.returned? s = some (call, result) ∧ b.step s = b.vacate) ∨
    (b.begun? s = none ∧ b.returned? s = none ∧ Advances b (b.step s)) := by
  cases s with
  | enter thread timeoutMs =>
    cases h : b.enter thread timeoutMs with
    | rejected | waiting holder =>
      right; right
      simp only [begun?, returned?, step, h]
      exact ⟨trivial, trivial, .refl b⟩
    | started call begun =>
      obtain ⟨free, -, rfl, rfl⟩ := enter_eq_started h
      left
      refine ⟨thread, timeoutMs, rfl, free, ?_⟩
      simp only [begun?, returned?, step, h, and_self]
  | leave call =>
    cases h : b.leave call with
    | none =>
      right; right
      simp only [begun?, returned?, step, h, Option.map_none]
      exact ⟨trivial, trivial, .refl b⟩
    | some out =>
      obtain ⟨result, left⟩ := out
      obtain ⟨holds, decided, rfl⟩ := leave_eq_some h
      right; left
      refine ⟨call, result, rfl, holds, decided, ?_⟩
      simp only [begun?, returned?, step, h, Option.map_some, and_self]
  | complete call result => exact .inr (.inr ⟨rfl, rfl, settle_advances b call result⟩)
  | drop call => exact .inr (.inr ⟨rfl, rfl, settle_advances b call _⟩)
  | failPending error => exact .inr (.inr ⟨rfl, rfl, failPending_advances b error⟩)
  | abort call error => exact .inr (.inr ⟨rfl, rfl, settle_advances b call _⟩)
  | expire call => exact .inr (.inr ⟨rfl, rfl, expire_advances b call⟩)

theorem Serial.step {b : Bridge α} (h : Serial b) (s : Step α) : Serial (b.step s) := by
  rcases step_cases b s with
    ⟨thread, timeoutMs, -, -, -, -, entered⟩ | ⟨call, result, -, -, -, -, -, left⟩ | ⟨-, -, further⟩
  · rw [entered]
    exact serial_occupy b thread timeoutMs
  · rw [left]
    exact serial_vacate b
  · exact h.of_advances further

theorem Serial.run {b : Bridge α} (h : Serial b) (steps : List (Step α)) :
    Serial (b.run steps) := by
  induction steps generalizing b with
  | nil => exact h
  | cons s steps ih => exact ih (h.step s)

/-- What is pending and what begins will return or be pending, in this order. -/
theorem Serial.balance_step {b : Bridge α} (h : Serial b) (s : Step α) :
    b.pending.toList ++ (b.begun? s).toList =
      (b.returned? s).toList.map (·.1) ++ (b.step s).pending.toList := by
  rcases step_cases b s with
    ⟨thread, timeoutMs, -, free, begins, returns, entered⟩ |
    ⟨call, result, -, holds, -, begins, returns, left⟩ | ⟨begins, returns, further⟩
  · have idle : b.pending = none := h.holder.symm.trans free
    rw [idle, begins, returns, entered]
    rfl
  · have busy : b.pending = some call := h.holder.symm.trans holds
    rw [busy, begins, returns, left]
    rfl
  · rw [begins, returns, further.pending]
    exact List.append_nil _

theorem Serial.balance {b : Bridge α} (h : Serial b) (steps : List (Step α)) :
    b.pending.toList ++ b.begins steps =
      (b.returns steps).map (·.1) ++ (b.run steps).pending.toList := by
  induction steps generalizing b with
  | nil => exact List.append_nil _
  | cons s steps ih =>
    have first := h.balance_step s
    have rest := ih (h.step s)
    calc b.pending.toList ++ b.begins (s :: steps)
        = (b.pending.toList ++ (b.begun? s).toList) ++ (b.step s).begins steps := by
          rw [begins, List.append_assoc]
      _ = (b.returned? s).toList.map (·.1) ++
            ((b.step s).pending.toList ++ (b.step s).begins steps) := by
          rw [first, List.append_assoc]
      _ = (b.returns (s :: steps)).map (·.1) ++ (b.run (s :: steps)).pending.toList := by
          rw [rest, returns, List.map_append, List.append_assoc]
          rfl

/-- Calls are numbered in the order in which they begin. -/
theorem range_append_begins (b : Bridge α) (steps : List (Step α)) :
    List.range b.calls.length ++ b.begins steps = List.range (b.run steps).calls.length := by
  induction steps generalizing b with
  | nil => exact List.append_nil _
  | cons s steps ih =>
    have first : List.range b.calls.length ++ (b.begun? s).toList =
        List.range (b.step s).calls.length := by
      rcases step_cases b s with
        ⟨thread, timeoutMs, -, -, begins, -, entered⟩ | ⟨call, result, -, -, -, begins, -, left⟩ |
        ⟨begins, -, further⟩
      · rw [begins, entered]
        simp [occupy, List.range_succ]
      · rw [begins, left]
        exact List.append_nil _
      · rw [begins, further.length_eq]
        exact List.append_nil _
    rw [begins, ← List.append_assoc, first]
    exact ih (b.step s)

theorem begins_empty (steps : List (Step α)) :
    empty.begins steps = List.range ((empty : Bridge α).run steps).calls.length :=
  range_append_begins empty steps

/-! ### The first event decides -/

theorem HasCall.step {b : Bridge α} {call : Nat} {timeoutMs : UInt64}
    (h : b.HasCall call timeoutMs) (s : Step α) : (b.step s).HasCall call timeoutMs := by
  rcases step_cases b s with
    ⟨thread, other, -, -, -, -, entered⟩ | ⟨_, result, -, -, -, -, -, left⟩ | ⟨-, -, further⟩
  · have known : call < (b.calls.map (·.timeoutMs)).length := by simpa using h.lt
    rw [entered, HasCall, occupy, List.map_append, List.getElem?_append_left known]
    exact h
  · rw [left]
    exact h
  · rw [HasCall, further.deadlines]
    exact h

theorem outcome_step {b : Bridge α} {call : Nat} {timeoutMs : UInt64}
    (h : b.HasCall call timeoutMs) (s : Step α) :
    (b.step s).outcome? call = (b.outcome? call).or (b.verdict? call timeoutMs s) := by
  have settled (other : Nat) (result : Except ClientError α) :
      (b.settle other result).2.outcome? call =
        (b.outcome? call).or (if other = call then some result else none) := by
    split
    · next same =>
      rw [same]
      exact outcome_settle h.lt result
    · next apart => rw [outcome_settle_of_ne b (Ne.symm apart), Option.or_none]
  cases s with
  | complete other result => exact settled other result
  | drop other => exact settled other _
  | abort other error => exact settled other _
  | failPending error =>
    simp only [step, failPending, verdict?]
    cases hp : b.pending with
    | none => simp
    | some other => simpa using settled other (.error error)
  | expire other =>
    by_cases same : other = call
    · subst same
      have now := settled other (.error (.timeout timeoutMs))
      rw [step, expire_eq_settle h, verdict?]
      exact now
    · simp only [step, verdict?, if_neg same, Option.or_none]
      unfold expire
      split
      · exact outcome_settle_of_ne b (Ne.symm same) _
      · rfl
  | enter thread other =>
    rw [verdict?, Option.or_none]
    cases he : b.enter thread other with
    | rejected | waiting holder => simp only [step, he]
    | started _ begun =>
      obtain ⟨-, -, -, rfl⟩ := enter_eq_started he
      simp only [step, he]
      exact outcome_occupy h.lt thread other
  | leave other =>
    rw [verdict?, Option.or_none]
    cases hl : b.leave other with
    | none => simp only [step, hl]
    | some out =>
      obtain ⟨result, left⟩ := out
      obtain ⟨-, -, rfl⟩ := leave_eq_some hl
      simp only [step, hl]
      rfl

theorem outcome_run {b : Bridge α} {call : Nat} {timeoutMs : UInt64}
    (h : b.HasCall call timeoutMs) (steps : List (Step α)) :
    (b.run steps).outcome? call = (b.outcome? call).or (b.decision? call timeoutMs steps) := by
  induction steps generalizing b with
  | nil => exact (Option.or_none).symm
  | cons s steps ih =>
    have rest := ih (h.step s)
    rw [outcome_step h s, Option.or_assoc] at rest
    exact rest

theorem HasCall.run {b : Bridge α} {call : Nat} {timeoutMs : UInt64}
    (h : b.HasCall call timeoutMs) (steps : List (Step α)) :
    (b.run steps).HasCall call timeoutMs := by
  induction steps generalizing b with
  | nil => exact h
  | cons s steps ih => exact ih (h.step s)

theorem decided_of_returned {b : Bridge α} {s : Step α} {call : Nat} {result : Except ClientError α}
    (h : b.returned? s = some (call, result)) : b.outcome? call = some result := by
  rcases step_cases b s with
    ⟨_, _, -, -, -, returns, -⟩ | ⟨other, first, -, -, decided, -, returns, -⟩ | ⟨-, returns, -⟩
  · rw [returns] at h
    cases h
  · obtain ⟨rfl, rfl⟩ := Prod.mk.inj (Option.some.inj (returns.symm.trans h))
    exact decided
  · rw [returns] at h
    cases h

/-- A call returns what has decided it. -/
theorem decided_of_mem_returns {b : Bridge α} {call : Nat} {timeoutMs : UInt64}
    (h : b.HasCall call timeoutMs) {steps : List (Step α)} {result : Except ClientError α}
    (returned : (call, result) ∈ b.returns steps) :
    (b.outcome? call).or (b.decision? call timeoutMs steps) = some result := by
  induction steps generalizing b with
  | nil => cases returned
  | cons s steps ih =>
    rw [returns, List.mem_append, Option.mem_toList] at returned
    rcases returned with now | later
    · rw [decided_of_returned now]
      rfl
    · have rest := ih (h.step s) later
      rwa [outcome_step h s, Option.or_assoc] at rest

/-- A call whose deadline has passed can return. -/
theorem returns_of_expired {b : Bridge α} (serial : Serial b) {call : Nat} {timeoutMs : UInt64}
    (h : b.HasCall call timeoutMs) (busy : b.pending = some call) :
    ∃ result, (call, result) ∈ b.returns [.expire call, .leave call] := by
  have decided : ((b.step (.expire call)).outcome? call).isSome := by
    rw [outcome_step h]
    simp [verdict?]
  obtain ⟨result, hr⟩ := Option.isSome_iff_exists.1 decided
  have holds : (b.step (.expire call)).holder = some call := by
    rw [(serial.step _).holder, step, (expire_advances b call).pending, busy]
  refine ⟨result, ?_⟩
  have leaves := leave_of_decided holds hr
  simp [returns, returned?, leaves]

/-! ### What callers can count on -/

/-- What a call can count on that has just begun, whatever happens after. -/
structure Served (begun : Bridge α) (call : Nat) (timeoutMs : UInt64) (after : List (Step α)) :
    Prop where
  outcome : (begun.run after).outcome? call = begun.decision? call timeoutMs after
  returned : ∀ result, (call, result) ∈ begun.returns after →
    begun.decision? call timeoutMs after = some result
  /-- At the latest when its deadline has passed, the call returns. -/
  returns : ∃ result, (call, result) ∈ begun.returns (after ++ [.expire call, .leave call])

theorem served_of_entered {b begun : Bridge α} {thread call : Nat} {timeoutMs : UInt64}
    (h : b.enter thread timeoutMs = .started call begun) (after : List (Step α)) :
    Served begun call timeoutMs after := by
  obtain ⟨-, -, rfl, rfl⟩ := enter_eq_started h
  have serial : Serial (b.occupy thread timeoutMs) := serial_occupy b thread timeoutMs
  have known : (b.occupy thread timeoutMs).HasCall b.calls.length timeoutMs :=
    hasCall_occupy b thread timeoutMs
  have undecided := outcome_occupy_self b thread timeoutMs
  refine ⟨?_, fun result returned => ?_, ?_⟩
  · rw [outcome_run known, undecided, Option.none_or]
  · have decided := decided_of_mem_returns known returned
    rwa [undecided, Option.none_or] at decided
  · have kept : b.calls.length ∈ ((b.occupy thread timeoutMs).returns after).map (·.1) ++
        ((b.occupy thread timeoutMs).run after).pending.toList := by
      rw [← serial.balance]
      simp [occupy]
    rw [List.mem_append, Option.mem_toList] at kept
    rw [returns_append]
    rcases kept with out | busy
    · obtain ⟨⟨_, result⟩, returned, rfl⟩ := List.mem_map.1 out
      exact ⟨result, List.mem_append_left _ returned⟩
    · obtain ⟨result, returned⟩ := returns_of_expired (serial.run after) (known.run after) busy
      exact ⟨result, List.mem_append_right _ returned⟩

/-- What comes for a call that is decided comes too late. -/
structure Inert (b : Bridge α) (call : Nat) : Prop where
  complete : ∀ result, b.complete call result = (false, b)
  drop : b.drop call = b
  fail : b.pending = some call → ∀ error, b.failPending error = (false, b)
  abort : ∀ error, b.settle call (.error error) = (false, b)
  expire : b.expire call = b

theorem inert_of_decided {b : Bridge α} {call : Nat} (h : b.outcome? call ≠ none) :
    Inert b call := by
  have disarmed : b.armed call = false := by
    refine Bool.eq_false_iff.2 fun armed => ?_
    exact h ((armed_iff b call).1 armed).2
  have late := settle_of_not_armed disarmed
  refine ⟨late, ?_, fun busy error => ?_, fun error => late _, ?_⟩
  · rw [drop, late]
  · simp only [failPending, busy, late]
  · unfold expire
    split
    · rw [late]
    · rfl

/-- A bridge in which no call is pending has nothing to fail, and lets every thread in. It stays so
until a call begins. -/
structure Free (b : Bridge α) : Prop where
  fail : ∀ error, b.failPending error = (false, b)
  enter : ∀ thread timeoutMs, ∃ call begun, b.enter thread timeoutMs = .started call begun
  stays : ∀ s, b.begun? s = none → (b.step s).pending = none

theorem pending_of_returned {b : Bridge α} {s : Step α} (h : b.returned? s ≠ none) :
    (b.step s).pending = none := by
  rcases step_cases b s with
    ⟨_, _, -, -, -, returns, -⟩ | ⟨_, _, -, -, -, -, -, left⟩ | ⟨-, returns, -⟩
  · exact absurd returns h
  · rw [left]
    rfl
  · exact absurd returns h

theorem Serial.free {b : Bridge α} (h : Serial b) (idle : b.pending = none) : Free b where
  fail error := by simp only [failPending, idle]
  enter thread timeoutMs := by
    have outside : b.owner ≠ some thread := by simp [h.owner idle]
    exact ⟨_, _, enter_of_free (h.holder.trans idle) outside timeoutMs⟩
  stays s quiet := by
    have balance := h.balance_step s
    rw [idle, quiet] at balance
    have nothing := (List.append_eq_nil_iff.1 balance.symm).2
    exact Option.toList_eq_nil_iff.1 nothing

/-- The calls that have begun are those that have returned, each once and in this order, and the one
that is pending, if there is one. Each returns what the first event that concerns it says. What
comes later is refused and changes nothing. -/
theorem calls_return_in_turn (steps : List (Step α)) :
    let b := (empty : Bridge α).run steps
    (empty.begins steps = (empty.returns steps).map (·.1) ++ b.pending.toList ∧
      (empty.begins steps).Nodup) ∧
    (∀ thread timeoutMs call begun, b.enter thread timeoutMs = .started call begun →
      ∀ after, Served begun call timeoutMs after) ∧
    (∀ call result,
      (b.complete call result).1 = true ↔ call ∈ empty.begins steps ∧ b.outcome? call = none) ∧
    (∀ call, b.outcome? call ≠ none → Inert b call) ∧
    (∀ s, b.returned? s ≠ none → (b.step s).pending = none) ∧ (b.pending = none → Free b) := by
  intro b
  have serial : Serial b := empty_serial.run steps
  have numbered : empty.begins steps = List.range b.calls.length := begins_empty steps
  refine ⟨⟨?_, ?_⟩, fun thread timeoutMs call begun h => served_of_entered h, fun call result => ?_,
    fun call => inert_of_decided, fun s => pending_of_returned, serial.free⟩
  · exact empty_serial.balance steps
  · rw [numbered]
    exact List.nodup_range
  · have accepted : (b.complete call result).1 = b.armed call := by
      unfold complete settle
      split
      · next armed => exact armed.symm
      · next disarmed => exact (Bool.eq_false_iff.2 disarmed).symm
    rw [accepted, armed_iff, numbered, List.mem_range]

/-- A call times out, and its completion comes late, before a second call and during it. -/
theorem late_completion_refused :
    let steps : List (Step Nat) := [.enter 1 100, .expire 0, .leave 0]
    let b := (empty : Bridge Nat).run steps
    b.complete 0 (.ok 7) = (false, b) ∧ b.failPending .interrupted = (false, b) ∧
      b.enter 2 50 = .started 1 (b.occupy 2 50) ∧
      ((b.occupy 2 50).run [.complete 0 (.ok 7), .expire 1]).outcome? 1 =
        some (.error (.timeout 50)) ∧
      ∃ result, (1, result) ∈
        (b.occupy 2 50).returns ([.complete 0 (.ok 7)] ++ [.expire 1, .leave 1]) := by
  intro steps b
  obtain ⟨-, served, -, inert, -, free⟩ := calls_return_in_turn steps
  have decided : b.outcome? 0 ≠ none := nofun
  have idle : b.pending = none := rfl
  have entered : b.enter 2 50 = .started 1 (b.occupy 2 50) := rfl
  have second := served 2 50 1 (b.occupy 2 50) entered
  refine ⟨(inert 0 decided).complete (.ok 7), (free idle).fail .interrupted, entered, ?_, ?_⟩
  · exact (second [.complete 0 (.ok 7), .expire 1]).outcome
  · exact (second [.complete 0 (.ok 7)]).returns

end EndpointMonitor.Bridge
