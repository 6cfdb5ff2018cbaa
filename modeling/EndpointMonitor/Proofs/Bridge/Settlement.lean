import EndpointMonitor.Bridge

/-!
What decides the calls of a bridge. The first result that reaches a call stays, and the calls before
and after it keep theirs.
-/

namespace EndpointMonitor.Bridge

variable {α : Type}

theorem armed_iff (b : Bridge α) (call : Nat) :
    b.armed call = true ↔ call < b.calls.length ∧ b.outcome? call = none := by
  unfold armed outcome?
  cases h : b.calls[call]? with
  | none =>
    have absent : b.calls.length ≤ call := List.getElem?_eq_none_iff.1 h
    simp only [Bool.false_eq_true, false_iff, not_and]
    omega
  | some c =>
    have present : call < b.calls.length := (List.getElem?_eq_some_iff.1 h).1
    simp [present]

theorem lt_of_decided {b : Bridge α} {call : Nat} {result : Except ClientError α}
    (h : b.outcome? call = some result) : call < b.calls.length := by
  obtain ⟨made, found, -⟩ := Option.bind_eq_some_iff.1 h
  exact (List.getElem?_eq_some_iff.1 found).1

theorem settle_of_armed {b : Bridge α} {call : Nat} (h : b.armed call = true)
    (result : Except ClientError α) :
    b.settle call result =
      (true, { b with calls := b.calls.modify call fun c => { c with outcome := some result } }) :=
  if_pos h

theorem settle_of_not_armed {b : Bridge α} {call : Nat} (h : b.armed call = false)
    (result : Except ClientError α) : b.settle call result = (false, b) := by
  simp [settle, h]

theorem outcome_settle_of_ne (b : Bridge α) {call other : Nat} (h : other ≠ call)
    (result : Except ClientError α) :
    (b.settle call result).2.outcome? other = b.outcome? other := by
  cases ha : b.armed call with
  | false => rw [settle_of_not_armed ha]
  | true =>
    rw [settle_of_armed ha]
    simp [outcome?, Ne.symm h]

/-- What is undecided is decided, and what is decided stays. -/
theorem outcome_settle {b : Bridge α} {call : Nat} (begun : call < b.calls.length)
    (result : Except ClientError α) :
    (b.settle call result).2.outcome? call = (b.outcome? call).or (some result) := by
  cases ha : b.armed call with
  | false =>
    have decided : b.outcome? call ≠ none := by
      intro open_
      rw [(armed_iff b call).2 ⟨begun, open_⟩] at ha
      cases ha
    rw [settle_of_not_armed ha]
    cases ho : b.outcome? call with
    | none => exact absurd ho decided
    | some first => rfl
  | true =>
    have open_ : b.outcome? call = none := ((armed_iff b call).1 ha).2
    rw [settle_of_armed ha, open_]
    simp [outcome?, begun]

/-- What decides a call besides what was decided before. -/
theorem decided_of_settle {b : Bridge α} {call other : Nat} {result verdict : Except ClientError α}
    (h : (b.settle call result).2.outcome? other = some verdict) :
    b.outcome? other = some verdict ∨ other = call ∧ verdict = result := by
  by_cases same : other = call
  · subst same
    cases armed : b.armed other with
    | false =>
      rw [settle_of_not_armed armed] at h
      exact .inl h
    | true =>
      have known := (armed_iff b other).1 armed
      rw [outcome_settle known.1, known.2, Option.none_or] at h
      exact .inr ⟨rfl, (Option.some.inj h).symm⟩
  · rw [outcome_settle_of_ne b same] at h
    exact .inl h

/-- What has been decided cannot be decided again. -/
theorem settle_settle (b : Bridge α) (call : Nat) (result other : Except ClientError α) :
    ((b.settle call result).2.settle call other).2 = (b.settle call result).2 := by
  cases ha : b.armed call with
  | false => rw [settle_of_not_armed ha, settle_of_not_armed ha]
  | true =>
    have begun : call < b.calls.length := ((armed_iff b call).1 ha).1
    have decided : (b.settle call result).2.armed call = false := by
      refine Bool.eq_false_iff.2 fun armed => ?_
      have open_ := ((armed_iff _ call).1 armed).2
      rw [outcome_settle begun, ((armed_iff b call).1 ha).2] at open_
      cases open_
    rw [settle_of_not_armed decided]

/-! ### Calls are decided, and nothing else changes -/

/-- The same calls under the same roof, of which more may be decided. -/
structure Advances (b b' : Bridge α) : Prop where
  holder : b'.holder = b.holder
  owner : b'.owner = b.owner
  pending : b'.pending = b.pending
  deadlines : b'.calls.map (·.timeoutMs) = b.calls.map (·.timeoutMs)
  outcome : ∀ call result, b.outcome? call = some result → b'.outcome? call = some result

theorem Advances.refl (b : Bridge α) : Advances b b where
  holder := rfl
  owner := rfl
  pending := rfl
  deadlines := rfl
  outcome _ _ h := h

theorem Advances.trans {b c d : Bridge α} (h : Advances b c) (h' : Advances c d) :
    Advances b d where
  holder := h'.holder.trans h.holder
  owner := h'.owner.trans h.owner
  pending := h'.pending.trans h.pending
  deadlines := h'.deadlines.trans h.deadlines
  outcome call result decided := h'.outcome call result (h.outcome call result decided)

theorem Advances.length_eq {b b' : Bridge α} (h : Advances b b') :
    b'.calls.length = b.calls.length := by
  have same := congrArg List.length h.deadlines
  simpa using same

theorem settle_advances (b : Bridge α) (call : Nat) (result : Except ClientError α) :
    Advances b (b.settle call result).2 := by
  cases ha : b.armed call with
  | false =>
    rw [settle_of_not_armed ha]
    exact .refl b
  | true =>
    have kept : ∀ other first, b.outcome? other = some first →
        (b.settle call result).2.outcome? other = some first := by
      intro other first decided
      have apart : other ≠ call := by
        rintro rfl
        rw [((armed_iff b other).1 ha).2] at decided
        cases decided
      rw [outcome_settle_of_ne b apart]
      exact decided
    rw [settle_of_armed ha] at kept ⊢
    refine ⟨rfl, rfl, rfl, ?_, kept⟩
    apply List.ext_getElem?
    intro i
    by_cases hi : call = i <;> simp [hi, Function.comp_def]

theorem failPending_advances (b : Bridge α) (error : ClientError) :
    Advances b (b.failPending error).2 := by
  unfold failPending
  split
  · exact settle_advances b _ _
  · exact .refl b

theorem expire_advances (b : Bridge α) (call : Nat) : Advances b (b.expire call) := by
  unfold expire
  split
  · exact settle_advances b call _
  · exact .refl b

/-- A call that began with this deadline. -/
def HasCall (b : Bridge α) (call : Nat) (timeoutMs : UInt64) : Prop :=
  (b.calls.map (·.timeoutMs))[call]? = some timeoutMs

theorem HasCall.lt {b : Bridge α} {call : Nat} {timeoutMs : UInt64} (h : b.HasCall call timeoutMs) :
    call < b.calls.length := by
  have known := (List.getElem?_eq_some_iff.1 h).1
  simpa using known

theorem expire_eq_settle {b : Bridge α} {call : Nat} {timeoutMs : UInt64}
    (h : b.HasCall call timeoutMs) :
    b.expire call = (b.settle call (.error (.timeout timeoutMs))).2 := by
  obtain ⟨c, hc, rfl⟩ : ∃ c, b.calls[call]? = some c ∧ c.timeoutMs = timeoutMs := by
    simpa [HasCall] using h
  simp only [expire, hc]

theorem decided_of_expire {b : Bridge α} {call other : Nat} {verdict : Except ClientError α}
    (h : (b.expire call).outcome? other = some verdict) :
    b.outcome? other = some verdict ∨
      ∃ timeoutMs, b.HasCall other timeoutMs ∧ verdict = .error (.timeout timeoutMs) := by
  unfold expire at h
  split at h
  · next c found =>
    rcases decided_of_settle h with before | ⟨rfl, now⟩
    · exact .inl before
    · refine .inr ⟨c.timeoutMs, ?_, now⟩
      simp [HasCall, found]
  · exact .inl h

/-- A call whose time is up is decided. -/
theorem outcome_expire_ne_none {b : Bridge α} {call : Nat} (begun : call < b.calls.length) :
    (b.expire call).outcome? call ≠ none := by
  have found : b.calls[call]? = some b.calls[call] := List.getElem?_eq_getElem begun
  simp only [expire, found]
  rw [outcome_settle begun]
  cases b.outcome? call <;> simp

/-! ### Entering and leaving -/

/-- The bridge after a call has begun in it. -/
def occupy (b : Bridge α) (thread : Nat) (timeoutMs : UInt64) : Bridge α where
  calls := b.calls ++ [⟨thread, timeoutMs, none⟩]
  holder := some b.calls.length
  owner := some thread
  pending := some b.calls.length

theorem enter_eq_started {b begun : Bridge α} {thread call : Nat} {timeoutMs : UInt64}
    (h : b.enter thread timeoutMs = .started call begun) :
    b.holder = none ∧ b.owner ≠ some thread ∧ call = b.calls.length ∧
      begun = b.occupy thread timeoutMs := by
  unfold enter at h
  split at h
  · cases h
  · next outside =>
    split at h
    · cases h
    · next free =>
      cases h
      exact ⟨free, outside, rfl, rfl⟩

theorem enter_eq_rejected {b : Bridge α} {thread : Nat} {timeoutMs : UInt64}
    (h : b.enter thread timeoutMs = .rejected) : b.owner = some thread := by
  unfold enter at h
  split at h
  · next inside => exact inside
  · split at h <;> cases h

theorem enter_eq_waiting {b : Bridge α} {thread holder : Nat} {timeoutMs : UInt64}
    (h : b.enter thread timeoutMs = .waiting holder) : b.holder = some holder := by
  unfold enter at h
  split at h
  · cases h
  · split at h
    · next held =>
      cases h
      exact held
    · cases h

theorem enter_of_free {b : Bridge α} {thread : Nat} (free : b.holder = none)
    (outside : b.owner ≠ some thread) (timeoutMs : UInt64) :
    b.enter thread timeoutMs = .started b.calls.length (b.occupy thread timeoutMs) := by
  simp only [enter, if_neg outside, free, occupy]

theorem hasCall_occupy (b : Bridge α) (thread : Nat) (timeoutMs : UInt64) :
    (b.occupy thread timeoutMs).HasCall b.calls.length timeoutMs := by
  simp [HasCall, occupy]

theorem outcome_occupy_self (b : Bridge α) (thread : Nat) (timeoutMs : UInt64) :
    (b.occupy thread timeoutMs).outcome? b.calls.length = none := by
  simp [outcome?, occupy]

theorem outcome_occupy {b : Bridge α} {call : Nat} (begun : call < b.calls.length) (thread : Nat)
    (timeoutMs : UInt64) : (b.occupy thread timeoutMs).outcome? call = b.outcome? call := by
  simp [outcome?, occupy, List.getElem?_append_left begun]

/-- The bridge after its call has returned. -/
def vacate (b : Bridge α) : Bridge α := { b with holder := none, owner := none, pending := none }

theorem leave_of_decided {b : Bridge α} {call : Nat} {result : Except ClientError α}
    (holds : b.holder = some call) (decided : b.outcome? call = some result) :
    b.leave call = some (result, b.vacate) := by
  simp only [leave, if_pos holds, decided, Option.map_some, vacate]

theorem leave_eq_some {b left : Bridge α} {call : Nat} {result : Except ClientError α}
    (h : b.leave call = some (result, left)) :
    b.holder = some call ∧ b.outcome? call = some result ∧ left = b.vacate := by
  unfold leave at h
  split at h
  · next holds =>
    obtain ⟨first, decided, he⟩ := Option.map_eq_some_iff.1 h
    obtain ⟨rfl, rfl⟩ := Prod.mk.inj he
    exact ⟨holds, decided, rfl⟩
  · cases h

end EndpointMonitor.Bridge
