import EndpointMonitor.Proofs.Connection.Step

/-!
What callers, channels and the clock do to a connection in one go. What the transport answers at
once belongs to the operation that asked for it. Each operation is a run of steps.
-/

namespace EndpointMonitor.Connection

variable {σ : Type}

inductive Operation (σ : Type) where
  | beginConnect (thread : Nat) (timeoutMs : UInt64)
  | expireConnect (call : Nat)
  | finishConnect (call : Nat)
  | connectWith (completion : Nat)
  | receive (signal : Signal)
  | fire (timer : Timer)
  | wait (ms : Nat)
  | configure (setting : Setting)
  | world (transport : σ)
  | invalidate

variable [Transport σ]

/-- An operation that is not possible now does nothing. -/
def perform (c : Connection σ) : Operation σ → Connection σ
  | .beginConnect thread timeoutMs =>
    match c.beginConnect thread timeoutMs with
    | .rejected | .waiting _ => c
    | .started _ c => c
  | .expireConnect call => c.expireConnect call
  | .finishConnect call =>
    match c.finishConnect call with
    | none => c
    | some (_, c) => c
  | .connectWith completion => c.connectWith completion
  | .receive signal => c.receive signal
  | .fire t => if c.isDue t then c.fire t else c
  | .wait ms => c.wait ms
  | .configure setting => c.configure setting
  | .world transport => { c with transport }
  | .invalidate => c.invalidate

def performAll (c : Connection σ) (operations : List (Operation σ)) : Connection σ :=
  operations.foldl perform c

theorem performAll_append (c : Connection σ) (operations more : List (Operation σ)) :
    c.performAll (operations ++ more) = (c.performAll operations).performAll more :=
  List.foldl_append

/-! ### Operations as runs -/

/-- What the transport reports in the course of an attempt, if one starts now. -/
def reports (c : Connection σ) (kind : AttemptKind) (waiter : Option Waiter) : List (Step σ) :=
  match c.start kind waiter with
  | (_, none) => []
  | (c, some creation) =>
    let signals :=
      ((creation.losses.foldl channelLost c).resume c.generation creation.result).2.getD []
    creation.losses.map (.signal <| .lost ·) ++
      .created c.generation creation.result :: signals.map .signal

/-- The transport reports through channels, or hands one over. -/
theorem cases_of_mem_reports {c : Connection σ} {kind : AttemptKind} {waiter : Option Waiter}
    {s : Step σ} (h : s ∈ c.reports kind waiter) :
    (∃ signal, s = .signal signal) ∨ ∃ generation result, s = .created generation result := by
  unfold reports at h
  split at h
  · cases h
  · simp only [List.mem_append, List.mem_map, List.mem_cons] at h
    obtain ⟨generation, -, rfl⟩ | rfl | ⟨signal, -, rfl⟩ := h
    · exact .inl ⟨_, rfl⟩
    · exact .inr ⟨_, _, rfl⟩
    · exact .inl ⟨_, rfl⟩

/-- The steps of an operation. -/
def stepsOf (c : Connection σ) : Operation σ → List (Step σ)
  | .beginConnect thread timeoutMs =>
    match c.bridge.enter thread timeoutMs with
    | .rejected | .waiting _ => []
    | .started call bridge =>
      let entered := { c with bridge }
      let (connection, started) := entered.tryConnect .manual (some (.call call))
      .callers bridge c.awaited :: .connect (.call call) ::
        entered.reports .manual (some (.call call)) ++ [.callers connection.bridge started]
  | .expireConnect call => [.callers (c.bridge.expire call) c.awaited]
  | .finishConnect call =>
    match c.bridge.leave call with
    | none => []
    | some (.error (.timeout ms), bridge) =>
      .callers bridge none :: (c.awaited.map (.giveUp · ms)).toList
    | some (_, bridge) => [.callers bridge none]
  | .connectWith completion =>
    .connect (.completion completion) :: c.reports .manual (some (.completion completion))
  | .receive signal => [.signal signal]
  | .fire t =>
    match c.isDue t, t.alarm with
    | true, .reconnect =>
      .ring t :: ({ c with timers := c.timers.erase t } : Connection σ).reports .automatic none
    | _, _ => [.ring t]
  | .wait ms => [.pass ms]
  | .configure setting => [.configure setting]
  | .world transport => [.world transport]
  | .invalidate => [.invalidate]

theorem foldl_channelLost (c : Connection σ) (losses : List Nat) :
    losses.foldl channelLost c = c.run (losses.map (.signal <| .lost ·)) := by
  rw [run, List.foldl_map]
  rfl

theorem foldl_receive (c : Connection σ) (signals : List Signal) :
    signals.foldl receive c = c.run (signals.map .signal) := by
  rw [run, List.foldl_map]
  rfl

theorem tryConnect_eq_run (c : Connection σ) (kind : AttemptKind) (waiter : Option Waiter) :
    (c.tryConnect kind waiter).1 = (c.start kind waiter).1.run (c.reports kind waiter) := by
  unfold tryConnect reports
  rcases c.start kind waiter with ⟨started, _ | creation⟩
  · rfl
  · dsimp only
    rw [run_append, run_cons, ← foldl_channelLost, ← foldl_receive, step]
    rcases (creation.losses.foldl channelLost started).resume started.generation creation.result
      with ⟨resumed, _ | signals⟩ <;> rfl

theorem perform_of_started {c begun : Connection σ} {thread call : Nat} {timeoutMs : UInt64}
    (h : c.beginConnect thread timeoutMs = .started call begun) :
    c.perform (.beginConnect thread timeoutMs) = begun := by
  rw [perform, h]

theorem perform_beginConnect (c : Connection σ) (thread : Nat) (timeoutMs : UInt64) :
    c.perform (.beginConnect thread timeoutMs) =
      c.run (c.stepsOf (.beginConnect thread timeoutMs)) := by
  simp only [perform, beginConnect, stepsOf]
  cases c.bridge.enter thread timeoutMs with
  | rejected | waiting holder => rfl
  | started call bridge =>
    have connects := tryConnect_eq_run { c with bridge } .manual (some (.call call))
    have entered : c.step (.callers bridge c.awaited) = { c with bridge } := rfl
    have begun : Connection.step { c with bridge } (.connect (.call call)) =
      (Connection.start { c with bridge } .manual (some (.call call))).1 := rfl
    dsimp only
    rw [List.cons_append, List.cons_append, run_cons, run_cons, run_append, entered, begun,
      ← connects]
    rfl

theorem perform_finishConnect (c : Connection σ) (call : Nat) :
    c.perform (.finishConnect call) = c.run (c.stepsOf (.finishConnect call)) := by
  simp only [perform, finishConnect, stepsOf]
  rcases c.bridge.leave call with _ | ⟨error | result, bridge⟩
  · rfl
  · cases error <;> cases ha : c.awaited <;> rfl
  · rfl

theorem perform_fire (c : Connection σ) (t : Timer) :
    c.perform (.fire t) = c.run (c.stepsOf (.fire t)) := by
  simp only [perform, stepsOf]
  cases due : c.isDue t with
  | false => simp [run, step, due]
  | true =>
    cases ha : t.alarm with
    | reconnect =>
      have connects := tryConnect_eq_run { c with timers := c.timers.erase t } .automatic none
      simpa [run_cons, step, due, strike, fire, ring, ha] using connects
    | sessionDeadline generation timeoutMs => simp [run, step, due, fire, ring, strike, ha]

/-- Every operation is a run of steps. -/
theorem perform_eq_run (c : Connection σ) (operation : Operation σ) :
    c.perform operation = c.run (c.stepsOf operation) := by
  cases operation with
  | beginConnect thread timeoutMs => exact perform_beginConnect c thread timeoutMs
  | finishConnect call => exact perform_finishConnect c call
  | connectWith completion => exact tryConnect_eq_run c .manual (some (.completion completion))
  | fire t => exact perform_fire c t
  | _ => rfl

/-- The steps of operations, one after the other. -/
def stepsOfAll (c : Connection σ) : List (Operation σ) → List (Step σ)
  | [] => []
  | operation :: operations => c.stepsOf operation ++ (c.perform operation).stepsOfAll operations

theorem performAll_eq_run_stepsOfAll (c : Connection σ) (operations : List (Operation σ)) :
    c.performAll operations = c.run (c.stepsOfAll operations) := by
  induction operations generalizing c with
  | nil => rfl
  | cons operation operations ih =>
    rw [stepsOfAll, run_append, ← perform_eq_run]
    exact ih (c.perform operation)

theorem stepsOfAll_append (c : Connection σ) (operations more : List (Operation σ)) :
    c.stepsOfAll (operations ++ more) =
      c.stepsOfAll operations ++ (c.performAll operations).stepsOfAll more := by
  induction operations generalizing c with
  | nil => rfl
  | cons operation operations ih =>
    have rest := ih (c.perform operation)
    rw [List.cons_append, stepsOfAll, rest, ← List.append_assoc]
    rfl

theorem performAll_eq_run (c : Connection σ) (operations : List (Operation σ)) :
    ∃ steps, c.performAll operations = c.run steps :=
  ⟨c.stepsOfAll operations, performAll_eq_run_stepsOfAll c operations⟩

/-! ### What a connection does by itself -/

/-- Whether a step is the connection's own, and nothing that is done to it or its transport. -/
def Step.isOwn : Step σ → Bool
  | .configure _ | .world _ => false
  | _ => true

def Operation.isOwn : Operation σ → Bool
  | .configure _ | .world _ => false
  | _ => true

theorem isOwn_of_mem_reports {c : Connection σ} {kind : AttemptKind} {waiter : Option Waiter}
    {s : Step σ} (h : s ∈ c.reports kind waiter) : s.isOwn = true := by
  obtain ⟨signal, rfl⟩ | ⟨generation, result, rfl⟩ := cases_of_mem_reports h <;> rfl

theorem isOwn_of_mem_stepsOf {c : Connection σ} {operation : Operation σ}
    (own : operation.isOwn = true) {s : Step σ} (h : s ∈ c.stepsOf operation) : s.isOwn = true := by
  cases operation with
  | configure setting | world transport => cases own
  | beginConnect thread timeoutMs =>
    simp only [stepsOf] at h
    split at h
    · cases h
    · cases h
    · simp only [List.cons_append, List.mem_cons, List.mem_append, List.not_mem_nil,
        or_false] at h
      obtain rfl | rfl | reported | rfl := h
      · rfl
      · rfl
      · exact isOwn_of_mem_reports reported
      · rfl
  | finishConnect call =>
    simp only [stepsOf] at h
    split at h
    · cases h
    · simp only [List.mem_cons, Option.mem_toList, Option.map_eq_some_iff] at h
      obtain rfl | ⟨generation, -, rfl⟩ := h <;> rfl
    · obtain rfl := List.mem_singleton.1 h
      rfl
  | connectWith completion =>
    rcases List.mem_cons.1 h with rfl | reported
    · rfl
    · exact isOwn_of_mem_reports reported
  | fire t =>
    simp only [stepsOf] at h
    split at h
    · rcases List.mem_cons.1 h with rfl | reported
      · rfl
      · exact isOwn_of_mem_reports reported
    · obtain rfl := List.mem_singleton.1 h
      rfl
  | expireConnect call | receive signal | wait ms | invalidate =>
    obtain rfl := List.mem_singleton.1 h
    rfl

/-! ### The clock, and calls that block -/

omit [Transport σ] in
theorem nextTimer_mem {c : Connection σ} {t : Timer} (h : c.nextTimer? = some t) :
    t ∈ c.timers := by
  unfold nextTimer? at h
  refine List.foldlRecOn (motive := fun best => ∀ t, best = some t → t ∈ c.timers) c.timers _
    (by simp) (fun best known u hu t ht => ?_) t h
  cases best with
  | none => rwa [← Option.some.inj ht]
  | some b =>
    dsimp only at ht
    split at ht
    · rwa [← Option.some.inj ht]
    · exact known t ht

theorem fireNext_performs (c : Connection σ) :
    ∃ operations, c.fireNext = c.performAll operations := by
  unfold fireNext
  split
  · next t ht =>
    split
    · next due =>
      refine ⟨[.fire t], ?_⟩
      simp [performAll, perform, isDue, nextTimer_mem ht, due]
    · exact ⟨[], rfl⟩
  · exact ⟨[], rfl⟩

theorem fireDue_performs (c : Connection σ) :
    ∃ operations, c.fireDue = c.performAll operations := by
  unfold fireDue
  generalize c.dueCount = n
  induction n with
  | zero => exact ⟨[], rfl⟩
  | succ n ih =>
    obtain ⟨operations, ho⟩ := ih
    obtain ⟨last, hl⟩ := fireNext_performs (Nat.repeat fireNext n c)
    exact ⟨operations ++ last, by rw [performAll_append, ← ho, ← hl, Nat.repeat]⟩

theorem elapse_performs (c : Connection σ) (ms : Nat) :
    ∃ operations, c.elapse ms = c.performAll operations := by
  fun_induction elapse c ms with
  | case1 c ms t ht passes ih =>
    obtain ⟨operations, ho⟩ := ih
    obtain ⟨rings, hr⟩ := fireDue_performs (c.wait (c.delayOf t))
    refine ⟨.wait (c.delayOf t) :: rings ++ operations, ?_⟩
    rw [ho, hr, performAll_append]
    rfl
  | case2 c ms | case3 c ms => exact ⟨[.wait ms], rfl⟩

theorem advance_performs (c : Connection σ) (ms : Nat) :
    ∃ operations, c.advance ms = c.performAll operations := by
  obtain ⟨rings, hr⟩ := fireDue_performs c
  obtain ⟨operations, ho⟩ := elapse_performs c.fireDue ms
  exact ⟨rings ++ operations, by rw [advance, ho, performAll_append, hr]⟩

theorem connect_performs (c : Connection σ) (thread : Nat) (timeoutMs : UInt64) :
    ∃ operations, (c.connect thread timeoutMs).2 = c.performAll operations := by
  unfold connect
  cases h : c.beginConnect thread timeoutMs with
  | rejected | waiting holder => exact ⟨[], rfl⟩
  | started call begun =>
    have begins := perform_of_started h
    dsimp only
    split
    · next outcome finished hf =>
      refine ⟨[.beginConnect thread timeoutMs, .expireConnect call, .finishConnect call], ?_⟩
      simp only [performAll, List.foldl_cons, List.foldl_nil, begins]
      simp only [perform, hf]
    · exact ⟨[.beginConnect thread timeoutMs], begins.symm⟩

end EndpointMonitor.Connection
