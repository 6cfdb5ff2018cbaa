import EndpointMonitor.Connection.Scripted
import EndpointMonitor.Proofs.Connection.Turn

/-!
Reports and deadlines of abandoned attempts. They change nothing when they come, and a run from
which they are deleted ends like the full run, except that deadlines of abandoned attempts may still
be waiting to ring for nobody.
-/

namespace EndpointMonitor.Connection

variable {σ : Type}

/-- Whether a timer can still do something. The deadline of an attempt that is over cannot. -/
def isLive (c : Connection σ) (t : Timer) : Bool :=
  match t.alarm with
  | .reconnect => true
  | .sessionDeadline generation _ => c.isAttempting generation

/-- Whether a step is the report or the deadline of an attempt for which it comes too late. -/
def isStale (c : Connection σ) : Step σ → Bool
  | .signal (.lost generation) => !c.isUp generation
  | .signal (.sessionReply generation _) => !c.isAttempting generation
  | .ring t => !c.isLive t
  | .giveUp generation _ => !c.isAttempting generation
  | _ => false

/-- A connection without the deadlines of abandoned attempts. -/
def settled (c : Connection σ) : Connection σ := { c with timers := c.timers.filter c.isLive }

/-- The same connection with other timers. -/
def withTimers (c : Connection σ) (timers : List Timer) : Connection σ := { c with timers }

/-- Connections that differ in their timers only. -/
def SameButTimers (c d : Connection σ) : Prop := c.withTimers [] = d.withTimers []

theorem SameButTimers.withTimers (c : Connection σ) (timers : List Timer) :
    SameButTimers c (c.withTimers timers) := rfl

theorem sameButTimers_of_settled_eq {c d : Connection σ} (h : c.settled = d.settled) :
    SameButTimers c d := by
  have bare := congrArg (fun c : Connection σ => c.withTimers []) h
  exact bare

theorem SameButTimers.eq {c d : Connection σ} (h : SameButTimers c d) :
    d = c.withTimers d.timers := by
  cases c
  cases d
  simp_all [SameButTimers, Connection.withTimers]

/-- A timer is not the deadline of an attempt that has not begun. -/
def Knows (c : Connection σ) (t : Timer) : Prop :=
  ∀ generation timeoutMs, t.alarm = .sessionDeadline generation timeoutMs →
    generation ≤ c.generation

variable [Transport σ]

theorem step_of_isStale {c : Connection σ} {s : Step σ} (h : c.isStale s = true) :
    c.step s = { c with timers := c.timersAfterRing s } := by
  cases s with
  | signal signal =>
    cases signal with
    | lost generation => exact channelLost_stale (by simpa [isStale] using h)
    | sessionReply generation reply => exact sessionCreated_stale (by simpa [isStale] using h) reply
  | ring t =>
    simp only [step, timersAfterRing]
    split
    · cases ha : t.alarm with
      | reconnect => simp [isStale, isLive, ha] at h
      | sessionDeadline generation timeoutMs =>
        have stale : c.isAttempting generation = false := by simpa [isStale, isLive, ha] using h
        exact attemptFailed_stale (c := { c with timers := c.timers.erase t }) stale _
    · rfl
  | giveUp generation timeoutMs => exact attemptFailed_stale (by simpa [isStale] using h) _
  | _ => simp [isStale] at h

/-! ### Timers do not matter until they ring -/

theorem attemptFailed_sameButTimers (c : Connection σ) (timers : List Timer) (generation : Nat)
    (error : ClientError) :
    SameButTimers (c.attemptFailed generation error)
      ((c.withTimers timers).attemptFailed generation error) := by
  cases h : c.isAttempting generation with
  | false =>
    rw [attemptFailed_stale h, attemptFailed_stale (c := c.withTimers timers) h]
    rfl
  | true =>
    rcases ha : c.attempt with _ | _
    · rw [attemptFailed_manual h ha, attemptFailed_manual (c := c.withTimers timers) h ha]
      rfl
    · rw [attemptFailed_automatic h ha, attemptFailed_automatic (c := c.withTimers timers) h ha]
      rfl

omit [Transport σ] in
theorem channelLost_sameButTimers (c : Connection σ) (timers : List Timer) (generation : Nat) :
    SameButTimers (c.channelLost generation) ((c.withTimers timers).channelLost generation) := by
  cases h : c.isUp generation with
  | false =>
    rw [channelLost_stale h, channelLost_stale (c := c.withTimers timers) h]
    rfl
  | true =>
    by_cases told : c.state = .connected ∨ c.attempt = .manual
    · rw [channelLost_told h told, channelLost_told (c := c.withTimers timers) h told]
      rfl
    · rw [channelLost_untold h told, channelLost_untold (c := c.withTimers timers) h told]
      rfl

theorem receive_sameButTimers (c : Connection σ) (timers : List Timer) (signal : Signal) :
    SameButTimers (c.receive signal) ((c.withTimers timers).receive signal) := by
  rcases signal with generation | ⟨generation, reason | reply⟩
  · exact channelLost_sameButTimers c timers generation
  · exact attemptFailed_sameButTimers c timers generation (.remote reason)
  · simp only [receive]
    cases h : c.isAttempting generation with
    | false =>
      rw [sessionCreated_stale h, sessionCreated_stale (c := c.withTimers timers) h]
      rfl
    | true =>
      rw [sessionCreated_ok h, sessionCreated_ok (c := c.withTimers timers) h]
      rfl

theorem start_sameButTimers (c : Connection σ) (timers : List Timer) (kind : AttemptKind)
    (waiter : Option Waiter) :
    SameButTimers (c.start kind waiter).1 ((c.withTimers timers).start kind waiter).1 := by
  rcases h : admission c.state kind with outcome | _ | _
  · rw [start_refused h, start_refused (c := c.withTimers timers) h]
    rfl
  · rw [start_skipped h, start_skipped (c := c.withTimers timers) h]
    rfl
  · rw [start_begun h, start_begun (c := c.withTimers timers) h]
    rfl

theorem handOver_sameButTimers (c : Connection σ) (timers : List Timer)
    (generation channel : Nat) :
    SameButTimers (c.handOver generation channel).1
      ((c.withTimers timers).handOver generation channel).1 := by
  cases h : c.isAttempting generation with
  | false =>
    rw [handOver_stale h, handOver_stale (c := c.withTimers timers) h]
    rfl
  | true =>
    rcases he : c.codec.encode c.converter with error | payload
    · rw [handOver_unencoded h he, handOver_unencoded (c := c.withTimers timers) h he]
      exact attemptFailed_sameButTimers { c with channel := some channel } timers generation error
    · rw [handOver_requested h he, handOver_requested (c := c.withTimers timers) h he]
      rfl

theorem invalidate_sameButTimers (c : Connection σ) (timers : List Timer) :
    SameButTimers c.invalidate (c.withTimers timers).invalidate := by
  by_cases h : c.state = .invalidated
  · rw [invalidate_invalidated h, invalidate_invalidated (c := c.withTimers timers) h]
    rfl
  · rw [invalidate_eq h, invalidate_eq (c := c.withTimers timers) h]
    rfl

theorem strike_sameButTimers (c : Connection σ) (timers : List Timer) (alarm : Alarm) :
    SameButTimers (c.strike alarm) ((c.withTimers timers).strike alarm) := by
  cases alarm with
  | reconnect => exact start_sameButTimers c timers .automatic none
  | sessionDeadline generation timeoutMs =>
    exact attemptFailed_sameButTimers c timers generation (.timeout timeoutMs)

/-- A step does the same with other timers, if they agree on whether one rings now. -/
theorem step_sameButTimers (c : Connection σ) (timers : List Timer) (s : Step σ)
    (agree : ∀ t, s = .ring t → (c.withTimers timers).isDue t = c.isDue t) :
    SameButTimers (c.step s) ((c.withTimers timers).step s) := by
  cases s with
  | connect waiter => exact start_sameButTimers c timers .manual (some waiter)
  | created generation result =>
    cases result with
    | error error => exact attemptFailed_sameButTimers c timers generation error
    | ok channel => exact handOver_sameButTimers c timers generation channel
  | signal signal => exact receive_sameButTimers c timers signal
  | ring t =>
    simp only [step, agree t rfl]
    split
    · exact strike_sameButTimers (c.withTimers (c.timers.erase t)) (timers.erase t) t.alarm
    · rfl
  | giveUp generation timeoutMs => exact attemptFailed_sameButTimers c timers generation _
  | configure setting => cases setting <;> rfl
  | invalidate => exact invalidate_sameButTimers c timers
  | pass ms | callers bridge awaited | world transport => rfl

/-! ### Runs without stale steps -/

omit [Transport σ] in
theorem generation_of_timer? {c : Connection σ} {t : Turn} {timer : Timer} {generation : Nat}
    {timeoutMs : UInt64} (h : t.timer? c = some timer)
    (ha : timer.alarm = .sessionDeadline generation timeoutMs) : generation = c.generation := by
  cases t with
  | requests =>
    simp only [Turn.timer?, Option.some.injEq] at h
    subst h
    exact (Alarm.sessionDeadline.inj ha).1.symm
  | fails error =>
    simp only [Turn.timer?] at h
    split at h
    · simp at h
    · simp only [Option.some.injEq] at h
      subst h
      simp at ha
  | loses =>
    simp only [Turn.timer?, Option.some.injEq] at h
    subst h
    simp at ha
  | begins kind | opens | ends | rests => simp at h

theorem step_knows {c : Connection σ} (known : ∀ t ∈ c.timers, c.Knows t) (s : Step σ) :
    ∀ t ∈ (c.step s).timers, (c.step s).Knows t := by
  intro t ht generation timeoutMs ha
  refine Nat.le_trans ?_ (generation_le_step c s)
  rcases mem_step_timers ht with old | new
  · exact known t (mem_of_mem_timersAfterRing old) generation timeoutMs ha
  · exact Nat.le_of_eq (generation_of_timer? new ha)

/-- What is not live does not come to life. -/
theorem isLive_of_step {c : Connection σ} {s : Step σ} {t : Timer} (known : c.Knows t)
    (live : (c.step s).isLive t = true) : c.isLive t = true := by
  unfold isLive at live ⊢
  cases ha : t.alarm with
  | reconnect => rfl
  | sessionDeadline generation timeoutMs =>
    rw [ha] at live
    exact (turn_of_isAttempting_step (known generation timeoutMs ha) live).1

theorem filter_isLive_step {c : Connection σ} (s : Step σ) {timers : List Timer}
    (known : ∀ t ∈ timers, c.Knows t) :
    (timers.filter c.isLive).filter (c.step s).isLive = timers.filter (c.step s).isLive := by
  rw [List.filter_filter]
  refine List.filter_congr fun t ht => ?_
  cases live : (c.step s).isLive t with
  | false => rfl
  | true => exact isLive_of_step (known t ht) live

omit [Transport σ] in
theorem settled_eq_of_sameButTimers {c d : Connection σ} (h : SameButTimers c d)
    (live : c.timers.filter c.isLive = d.timers.filter c.isLive) : c.settled = d.settled := by
  rw [h.eq]
  exact congrArg c.withTimers live

section

variable {c : Connection σ} {timers : List Timer} {s : Step σ}

omit [Transport σ] in
/-- Timers that agree on what is live agree on whether a live one rings. -/
theorem isDue_withTimers (same : c.timers.filter c.isLive = timers.filter c.isLive) {t : Timer}
    (live : c.isLive t = true) : (c.withTimers timers).isDue t = c.isDue t := by
  have hm : t ∈ c.timers.filter c.isLive ↔ t ∈ timers.filter c.isLive := by rw [same]
  simp only [List.mem_filter, live, and_true] at hm
  exact congrArg (· && decide (t.due ≤ c.now)) (decide_eq_decide.2 hm.symm)

omit [Transport σ] in
theorem turn_withTimers (agree : ∀ t, s = .ring t → (c.withTimers timers).isDue t = c.isDue t) :
    (c.withTimers timers).turn s = c.turn s := by
  cases s with
  | created generation result => cases result <;> rfl
  | ring t =>
    simp only [turn, agree t rfl]
    rfl
  | _ => rfl

omit [Transport σ] in
theorem filter_timersAfterRing (same : c.timers.filter c.isLive = timers.filter c.isLive)
    (agree : ∀ t, s = .ring t → (c.withTimers timers).isDue t = c.isDue t) :
    (c.timersAfterRing s).filter c.isLive =
      ((c.withTimers timers).timersAfterRing s).filter c.isLive := by
  cases s with
  | ring t =>
    simp only [timersAfterRing, agree t rfl]
    split
    · rw [← List.erase_filter, same, List.erase_filter]
      rfl
    · exact same
  | _ => exact same

end

theorem step_settled {c d : Connection σ} (hc : ∀ t ∈ c.timers, c.Knows t)
    (hd : ∀ t ∈ d.timers, d.Knows t) (same : c.settled = d.settled) {s : Step σ}
    (fresh : c.isStale s = false) : (c.step s).settled = (d.step s).settled := by
  obtain ⟨timers, rfl⟩ : ∃ timers, d = c.withTimers timers :=
    ⟨d.timers, (sameButTimers_of_settled_eq same).eq⟩
  have live : c.timers.filter c.isLive = timers.filter c.isLive := congrArg Connection.timers same
  have agree : ∀ t, s = .ring t → (c.withTimers timers).isDue t = c.isDue t := by
    rintro t rfl
    exact isDue_withTimers live (by simpa [isStale] using fresh)
  refine settled_eq_of_sameButTimers (step_sameButTimers c timers s agree) ?_
  rw [(step_turns c s).timers, (step_turns (c.withTimers timers) s).timers, turn_withTimers agree]
  by_cases ht : c.turn s = .ends
  · simp [ht]
  · have here : ∀ t ∈ c.timersAfterRing s, c.Knows t :=
      fun t h => hc t (mem_of_mem_timersAfterRing h)
    have there : ∀ t ∈ (c.withTimers timers).timersAfterRing s, c.Knows t :=
      fun t h => hd t (mem_of_mem_timersAfterRing h)
    rw [Turn.timers_of_ne_ends _ _ ht, Turn.timers_of_ne_ends _ _ ht, List.filter_append,
      List.filter_append, ← filter_isLive_step s here, filter_timersAfterRing live agree,
      filter_isLive_step s there]
    rfl

/-- The steps of a run that are not stale when their turn comes. -/
def withoutStale (c : Connection σ) : List (Step σ) → List (Step σ)
  | [] => []
  | s :: steps =>
    if c.isStale s then (c.step s).withoutStale steps else s :: (c.step s).withoutStale steps

omit [Transport σ] in
theorem settled_timersAfterRing {c : Connection σ} {s : Step σ} (h : c.isStale s = true) :
    (c.withTimers (c.timersAfterRing s)).settled = c.settled := by
  refine congrArg c.withTimers ?_
  cases s with
  | ring t =>
    simp only [timersAfterRing]
    split
    · have notLive : t ∉ c.timers.filter c.isLive := by
        simp [List.mem_filter, show c.isLive t = false by simpa [isStale] using h]
      rw [← List.erase_of_not_mem notLive, List.erase_filter]
      rfl
    · rfl
  | _ => rfl

theorem run_withoutStale_settled {c d : Connection σ} (hc : ∀ t ∈ c.timers, c.Knows t)
    (hd : ∀ t ∈ d.timers, d.Knows t) (same : c.settled = d.settled) (steps : List (Step σ)) :
    (d.run (c.withoutStale steps)).settled = (c.run steps).settled := by
  induction steps generalizing c d with
  | nil => exact same.symm
  | cons s steps ih =>
    simp only [withoutStale]
    cases h : c.isStale s with
    | true =>
      have rest : (c.step s).settled = c.settled := by
        rw [step_of_isStale h]
        exact settled_timersAfterRing h
      simpa [run] using ih (step_knows hc s) hd (rest.trans same)
    | false =>
      simpa [run] using ih (step_knows hc s) (step_knows hd s) (step_settled hc hd same h)

theorem run_knows (codec : Codec) (transport : σ) (steps : List (Step σ)) :
    ∀ t ∈ ((new codec transport).run steps).timers, ((new codec transport).run steps).Knows t :=
  run_invariant (P := fun c => ∀ t ∈ c.timers, c.Knows t) (fun _ s h => step_knows h s)
    (by simp [new]) steps

/-- Nothing that comes too late changes anything but the timer that rings, and without all that
comes too late every run ends in the same state and has told the same. -/
theorem stale_steps_inert (codec : Codec) (transport : σ) (steps : List (Step σ)) :
    let c := (new codec transport).run steps
    (∀ s, c.isStale s = true → c.step s = { c with timers := c.timersAfterRing s }) ∧
    ∀ more, (c.run (c.withoutStale more)).outcomes = (c.run more).outcomes ∧
      (c.run (c.withoutStale more)).settled = (c.run more).settled := by
  intro c
  have known := run_knows codec transport steps
  refine ⟨fun s h => step_of_isStale h, fun more => ?_⟩
  have same := run_withoutStale_settled known known rfl more
  have told := congrArg (fun c : Connection σ => c.outcomes) same
  exact ⟨told, same⟩

/-- The channel of a first attempt reports its loss when a second attempt is under way. -/
theorem late_loss_inert :
    let steps : List (Step ScriptedTransport) :=
      [.connect (.completion 0), .created 1 (.error .notConnected), .connect (.completion 1)]
    let c := (new ⟨4194304⟩ ScriptedTransport.initial).run steps
    c.isStale (.signal (.lost 1)) = true ∧ c.step (.signal (.lost 1)) = c :=
  ⟨rfl, (stale_steps_inert ⟨4194304⟩ ScriptedTransport.initial _).1 (.signal (.lost 1)) rfl⟩

end EndpointMonitor.Connection
