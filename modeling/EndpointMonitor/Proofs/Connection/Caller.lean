import EndpointMonitor.Proofs.Bridge.Settlement
import EndpointMonitor.Proofs.Connection.Effect
import EndpointMonitor.Proofs.Connection.Operation

/-!
Callers that block until they are connected. A call that is in is decided, or it waits for the
attempt under way, so it is decided when that attempt is.
-/

namespace EndpointMonitor

namespace Bridge

theorem forget_eq_tell : forget = tell (.error .notConnected) := by
  funext b waiter
  cases waiter <;> rfl

theorem tell_advances (b : Bridge Unit) (outcome : Outcome) (waiter : Waiter) :
    Advances b (b.tell outcome waiter) := by
  cases waiter with
  | call id => exact settle_advances b id outcome
  | completion id => exact .refl b

theorem foldl_tell_advances (b : Bridge Unit) (outcome : Outcome) (waiters : List Waiter) :
    Advances b (waiters.foldl (tell outcome) b) := by
  induction waiters generalizing b with
  | nil => exact .refl b
  | cons waiter waiters ih => exact (tell_advances b outcome waiter).trans (ih _)

theorem outcome_tell {b : Bridge Unit} {call : Nat} (begun : call < b.calls.length)
    (outcome : Outcome) :
    (b.tell outcome (.call call)).outcome? call = (b.outcome? call).or (some outcome) :=
  outcome_settle begun outcome

theorem decided_of_foldl_tell {b : Bridge Unit} {call : Nat} (begun : call < b.calls.length)
    (outcome : Outcome) {waiters : List Waiter} (mem : .call call ∈ waiters) :
    (waiters.foldl (tell outcome) b).outcome? call ≠ none := by
  intro open_
  induction waiters generalizing b with
  | nil => cases mem
  | cons waiter waiters ih =>
    have first := tell_advances b outcome waiter
    -- Told first, the call keeps its result whatever the others do to it.
    rcases List.mem_cons.1 mem with rfl | later
    · have told : ∃ result, (b.tell outcome (.call call)).outcome? call = some result := by
        rw [outcome_tell begun]
        cases b.outcome? call <;> exact ⟨_, rfl⟩
      obtain ⟨result, told⟩ := told
      have kept := (foldl_tell_advances (b.tell outcome (.call call)) outcome waiters).outcome
      rw [List.foldl_cons, kept call result told] at open_
      cases open_
    · exact ih (by rw [first.length_eq]; exact begun) later open_

/-- A call has its result from before, or it has been told this one. -/
theorem outcome_of_foldl_tell {b : Bridge Unit} {call : Nat} {outcome result : Outcome}
    {waiters : List Waiter}
    (h : (waiters.foldl (tell outcome) b).outcome? call = some result) :
    b.outcome? call = some result ∨ result = outcome := by
  induction waiters generalizing b with
  | nil => exact .inl h
  | cons waiter waiters ih =>
    refine (ih h).elim (fun first => ?_) .inr
    cases waiter with
    | completion id => exact .inl first
    | call id => exact (decided_of_settle first).imp_right (·.2)

/-- A call that waits and is undecided is told the outcome. -/
theorem outcome_of_told {b : Bridge Unit} {call : Nat} (begun : call < b.calls.length)
    (open_ : b.outcome? call = none) (outcome : Outcome) {waiters : List Waiter}
    (mem : .call call ∈ waiters) :
    (waiters.foldl (tell outcome) b).outcome? call = some outcome := by
  cases ho : (waiters.foldl (tell outcome) b).outcome? call with
  | none => exact absurd ho (decided_of_foldl_tell begun outcome mem)
  | some result =>
    rcases outcome_of_foldl_tell ho with before | rfl
    · rw [open_] at before
      cases before
    · rfl

end Bridge

namespace Connection

variable {σ : Type}

/-! ### What a turn decides -/

theorem Turn.bridge_advances (c : Connection σ) (t : Turn) : c.bridge.Advances (t.bridge c) := by
  cases t with
  | opens | ends => exact Bridge.foldl_tell_advances _ _ _
  | fails error =>
    cases ha : c.attempt with
    | manual =>
      simp only [Turn.bridge, ha]
      exact Bridge.foldl_tell_advances _ _ _
    | automatic =>
      simp only [Turn.bridge, ha]
      exact .refl _
  | loses =>
    simp only [Turn.bridge, Bridge.forget_eq_tell]
    split <;> exact Bridge.foldl_tell_advances _ _ _
  | begins kind | requests | rests => exact .refl _

/-- A call that still waits is decided when it does so no longer. -/
theorem Turn.waits_of_open {c : Connection σ} {call : Nat} (begun : call < c.bridge.calls.length)
    (waits : .call call ∈ c.waiters) {t : Turn} (open_ : (t.bridge c).outcome? call = none) :
    .call call ∈ t.waiters c := by
  have told := fun outcome => Bridge.decided_of_foldl_tell begun outcome waits
  cases t with
  | opens | ends => exact absurd open_ (told _)
  | fails error =>
    cases ha : c.attempt with
    | manual =>
      simp only [Turn.bridge, ha] at open_
      exact absurd open_ (told _)
    | automatic => simpa only [Turn.waiters, ha] using waits
  | loses =>
    simp only [Turn.bridge, Bridge.forget_eq_tell] at open_
    split at open_ <;> exact absurd open_ (told _)
  | begins kind | requests | rests => exact waits

/-- The call that is in has begun, and is decided or waits. -/
structure Heard (c : Connection σ) : Prop where
  begun : ∀ call, c.bridge.holder = some call → call < c.bridge.calls.length
  waits : ∀ call, c.bridge.holder = some call → c.bridge.outcome? call = none →
    .call call ∈ c.waiters

theorem Heard.of_advances {c c' : Connection σ} (heard : c.Heard)
    (advances : c.bridge.Advances c'.bridge)
    (kept : ∀ call, c.bridge.holder = some call → c'.bridge.outcome? call = none →
      .call call ∈ c.waiters → .call call ∈ c'.waiters) : c'.Heard where
  begun call holds := by
    rw [advances.length_eq]
    exact heard.begun call (advances.holder.symm.trans holds)
  waits call holds open_ := by
    have held : c.bridge.holder = some call := advances.holder.symm.trans holds
    have before : c.bridge.outcome? call = none := by
      cases ho : c.bridge.outcome? call with
      | none => rfl
      | some result =>
        rw [advances.outcome call result ho] at open_
        cases open_
    exact kept call held open_ (heard.waits call held before)

theorem Heard.of_turn {c c' : Connection σ} (heard : c.Heard) {t : Turn}
    (bridge : c'.bridge = t.bridge c) (waiters : c'.waiters = t.waiters c) : c'.Heard := by
  refine heard.of_advances (by rw [bridge]; exact t.bridge_advances c) ?_
  intro call holds open_ waits
  rw [bridge] at open_
  rw [waiters]
  exact Turn.waits_of_open (heard.begun call holds) waits open_

variable [Transport σ]

/-! ### What a step decides -/

def Step.movesCallers : Step σ → Bool
  | .callers _ _ => true
  | _ => false

/-- No step takes a result back. -/
theorem step_advances (c : Connection σ) {s : Step σ} (h : s.movesCallers = false) :
    c.bridge.Advances (c.step s).bridge := by
  rcases step_effects c s with
    effects | ⟨waiter, rfl⟩ | ⟨bridge, awaited, rfl⟩ | ⟨generation, channel, rfl⟩
  · rw [effects.bridge]
    exact Turn.bridge_advances c _
  · cases hr : refusal? c.state with
    | some outcome =>
      rw [step_connect_refused hr]
      exact Bridge.tell_advances _ _ _
    | none =>
      rw [step_connect_begun hr]
      exact .refl _
  · cases h
  · rcases created_cases c generation channel with
      ⟨_, -, -, -, -, bridge, -⟩ | ⟨_, -, -, -, -, bridge, -⟩ | ⟨-, -, -, -, bridge, -⟩
    · rw [bridge]
      exact .refl _
    · rw [bridge]
      exact Turn.bridge_advances c _
    · rw [bridge]
      exact .refl _

theorem step_heard {c : Connection σ} (heard : c.Heard) {s : Step σ} (h : s.movesCallers = false) :
    (c.step s).Heard := by
  rcases step_effects c s with
    effects | ⟨waiter, rfl⟩ | ⟨bridge, awaited, rfl⟩ | ⟨generation, channel, rfl⟩
  · exact heard.of_turn effects.bridge effects.waiters
  · refine heard.of_advances (step_advances c h) fun call holds open_ waits => ?_
    cases hr : refusal? c.state with
    | some outcome =>
      rw [step_connect_refused hr]
      exact waits
    | none =>
      rw [step_connect_begun hr]
      exact List.mem_append_left _ waits
  · cases h
  · rcases created_cases c generation channel with
      ⟨_, -, turned, -, waiters, bridge, -⟩ | ⟨_, -, turned, -, waiters, bridge, -⟩ |
        ⟨-, turned, -, waiters, bridge, -⟩
    · exact heard.of_turn (t := .requests) bridge waiters
    · exact heard.of_turn bridge waiters
    · exact heard.of_turn (t := .rests) bridge waiters

theorem run_heard {c : Connection σ} (heard : c.Heard) {steps : List (Step σ)}
    (h : ∀ s ∈ steps, s.movesCallers = false) : (c.run steps).Heard := by
  induction steps generalizing c with
  | nil => exact heard
  | cons s steps ih =>
    have first := step_heard heard (h s List.mem_cons_self)
    exact ih first fun u hu => h u (List.mem_cons_of_mem s hu)

/-! ### What an operation decides -/

theorem movesCallers_of_mem_reports {c : Connection σ} {kind : AttemptKind} {waiter : Option Waiter}
    {s : Step σ} (h : s ∈ c.reports kind waiter) : s.movesCallers = false := by
  obtain ⟨signal, rfl⟩ | ⟨generation, result, rfl⟩ := cases_of_mem_reports h <;> rfl

/-- The call that is in asks for a connection. It is answered, or waits. -/
theorem connect_heard {c : Connection σ} {call : Nat} (holds : c.bridge.holder = some call)
    (begun : call < c.bridge.calls.length) : (c.step (.connect (.call call))).Heard := by
  have only : ∀ {other}, c.bridge.holder = some other → call = other := by
    intro other held
    exact Option.some.inj (holds.symm.trans held)
  cases hr : refusal? c.state with
  | some outcome =>
    rw [step_connect_refused hr]
    have told := Bridge.tell_advances c.bridge outcome (.call call)
    have decided : (c.bridge.tell outcome (.call call)).outcome? call ≠ none := by
      rw [Bridge.outcome_tell begun]
      cases c.bridge.outcome? call <;> simp
    refine ⟨fun other held => ?_, fun other held open_ => ?_⟩
    · obtain rfl := only (told.holder.symm.trans held)
      exact told.length_eq ▸ begun
    · obtain rfl := only (told.holder.symm.trans held)
      exact absurd open_ decided
  | none =>
    rw [step_connect_begun hr]
    refine ⟨fun other held => ?_, fun other held _ => ?_⟩
    · obtain rfl := only held
      exact begun
    · obtain rfl := only held
      exact List.mem_append_right _ List.mem_cons_self

theorem tryConnect_heard {c : Connection σ} {call : Nat} (holds : c.bridge.holder = some call)
    (begun : call < c.bridge.calls.length) :
    (c.tryConnect .manual (some (.call call))).1.Heard := by
  rw [tryConnect_eq_run]
  exact run_heard (connect_heard holds begun) fun s hs => movesCallers_of_mem_reports hs

def Operation.isCaller : Operation σ → Bool
  | .beginConnect _ _ | .expireConnect _ | .finishConnect _ => true
  | _ => false

theorem movesCallers_of_mem_stepsOf {c : Connection σ} {operation : Operation σ}
    (h : operation.isCaller = false) {s : Step σ} (mem : s ∈ c.stepsOf operation) :
    s.movesCallers = false := by
  cases operation with
  | beginConnect thread timeoutMs | expireConnect call | finishConnect call => cases h
  | connectWith completion =>
    rcases List.mem_cons.1 mem with rfl | later
    · rfl
    · exact movesCallers_of_mem_reports later
  | fire t =>
    simp only [stepsOf] at mem
    split at mem
    · rcases List.mem_cons.1 mem with rfl | later
      · rfl
      · exact movesCallers_of_mem_reports later
    · obtain rfl := List.mem_singleton.1 mem
      rfl
  | receive signal | wait ms | configure setting | world transport | invalidate =>
    obtain rfl := List.mem_singleton.1 mem
    rfl

theorem perform_heard {c : Connection σ} (heard : c.Heard) (operation : Operation σ) :
    (c.perform operation).Heard := by
  cases operation with
  | beginConnect thread timeoutMs =>
    cases entry : c.bridge.enter thread timeoutMs with
    | rejected | waiting holder =>
      simp only [perform, beginConnect, entry]
      exact heard
    | started call begun =>
      obtain ⟨-, -, rfl, rfl⟩ := Bridge.enter_eq_started entry
      let entered : Connection σ := { c with bridge := c.bridge.occupy thread timeoutMs }
      have holds : entered.bridge.holder = some c.bridge.calls.length := rfl
      have tried := tryConnect_heard holds (by simp [entered, Bridge.occupy])
      simp only [perform, beginConnect, entry]
      exact ⟨tried.begun, tried.waits⟩
  | expireConnect call =>
    exact heard.of_advances (Bridge.expire_advances _ call) fun _ _ _ waits => waits
  | finishConnect call =>
    -- Nobody is in afterwards, so there is nothing left to ask of the bridge.
    have vacant : (c.step (.callers c.bridge.vacate none)).Heard :=
      ⟨fun _ holds => (by cases holds), fun _ holds => (by cases holds)⟩
    rw [perform_eq_run, stepsOf]
    cases left : c.bridge.leave call with
    | none => exact heard
    | some returned =>
      obtain ⟨result, bridge⟩ := returned
      obtain ⟨-, -, rfl⟩ := Bridge.leave_eq_some left
      rcases result with error | result
      · cases error with
        | timeout ms =>
          cases c.awaited with
          | none => exact vacant
          | some generation => exact step_heard (s := .giveUp generation ms) vacant rfl
        | _ => exact vacant
      · exact vacant
  | _ =>
    rw [perform_eq_run]
    exact run_heard heard fun s hs => movesCallers_of_mem_stepsOf rfl hs

theorem performAll_heard {c : Connection σ} (heard : c.Heard) (operations : List (Operation σ)) :
    (c.performAll operations).Heard := by
  induction operations generalizing c with
  | nil => exact heard
  | cons operation operations ih => exact ih (perform_heard heard operation)

omit [Transport σ] in
theorem new_heard (codec : Codec) (transport : σ) : (new codec transport).Heard where
  begun _ holds := by cases holds
  waits _ holds := by cases holds

theorem beginConnect_eq_rejected {c : Connection σ} {thread : Nat} {timeoutMs : UInt64}
    (h : c.beginConnect thread timeoutMs = .rejected) : c.bridge.owner = some thread := by
  unfold beginConnect at h
  cases entry : c.bridge.enter thread timeoutMs with
  | rejected => exact Bridge.enter_eq_rejected entry
  | waiting holder | started call bridge => simp [entry] at h

theorem beginConnect_eq_waiting {c : Connection σ} {thread holder : Nat} {timeoutMs : UInt64}
    (h : c.beginConnect thread timeoutMs = .waiting holder) : c.bridge.holder = some holder := by
  unfold beginConnect at h
  cases entry : c.bridge.enter thread timeoutMs with
  | rejected | started call bridge => simp [entry] at h
  | waiting first =>
    simp only [entry, Start.waiting.injEq] at h
    exact h ▸ Bridge.enter_eq_waiting entry

theorem finishConnect_of_decided {c : Connection σ} {call : Nat} {result : Outcome}
    (holds : c.bridge.holder = some call) (decided : c.bridge.outcome? call = some result) :
    ∃ outcome left, c.finishConnect call = some (outcome, left) := by
  unfold finishConnect
  rw [Bridge.leave_of_decided holds decided]
  dsimp only
  split <;> exact ⟨_, _, rfl⟩

end Connection

end EndpointMonitor
