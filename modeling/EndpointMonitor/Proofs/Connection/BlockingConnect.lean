import EndpointMonitor.Connection.Scripted
import EndpointMonitor.Proofs.Connection.Attempt
import EndpointMonitor.Proofs.Connection.Meanwhile

/-!
What a caller gets who connects and waits. If it is told that the connection is up, that is so at
that moment. If it gets an error, the attempt that it has started has come to nothing.
-/

namespace EndpointMonitor.Connection

variable {σ : Type} [Transport σ]

/-! ### A call that is told that the connection is up -/

/-- In this step a call is told that the connection is up, and it is. It stays so until it is
disturbed. -/
structure Welcomes (c : Connection σ) (call : Nat) (s : Step σ) : Prop where
  open_ : c.bridge.outcome? call = none
  told : (c.step s).bridge.outcome? call = some (.ok ())
  connected : (c.step s).state = .connected
  lasts : ∀ more, (c.step s).Undisturbed more → ((c.step s).run more).state = .connected

omit [Transport σ] in
theorem opens_of_told {c : Connection σ} {call : Nat} (open_ : c.bridge.outcome? call = none)
    {t : Turn} (told : (t.bridge c).outcome? call = some (.ok ())) : t = .opens := by
  have failed : ∀ error, (c.waiters.foldl (Bridge.tell (.error error)) c.bridge).outcome? call ≠
      some (.ok ()) := by
    intro error good
    rcases Bridge.outcome_of_foldl_tell good with before | same
    · rw [open_] at before
      cases before
    · cases same
  cases t with
  | opens => rfl
  | ends => exact absurd told (failed _)
  | fails error =>
    cases ha : c.attempt with
    | manual =>
      simp only [Turn.bridge, ha] at told
      exact absurd told (failed _)
    | automatic =>
      simp only [Turn.bridge, ha, open_] at told
      cases told
  | loses =>
    simp only [Turn.bridge, Bridge.forget_eq_tell] at told
    split at told <;> exact absurd told (failed _)
  | begins kind | requests | rests =>
    rw [Turn.bridge, open_] at told
    cases told

/-- A call is told that the connection is up when its session opens, or because it was up before. -/
theorem connected_of_told {c : Connection σ} {call : Nat} (open_ : c.bridge.outcome? call = none)
    {s : Step σ} (quiet : c.Quiet s) (told : (c.step s).bridge.outcome? call = some (.ok ())) :
    (c.step s).state = .connected := by
  have opened : ∀ t, c.turn s = t → (t.bridge c).outcome? call = some (.ok ()) →
      (c.step s).state = .connected := by
    intro t turned told
    obtain rfl := opens_of_told open_ told
    rw [(step_turns c s).state, turned, Turn.state]
  rcases step_effects c s with
    effects | ⟨waiter, rfl⟩ | ⟨bridge, awaited, rfl⟩ | ⟨generation, channel, rfl⟩
  · exact opened _ rfl (by rwa [← effects.bridge])
  · cases hr : refusal? c.state with
    | none =>
      rw [step_connect_begun hr] at told
      exact absurd (open_.symm.trans told) (by simp)
    | some outcome =>
      rw [step_connect_refused hr] at told ⊢
      have heard : ([waiter].foldl (Bridge.tell outcome) c.bridge).outcome? call =
          some (.ok ()) := told
      rcases Bridge.outcome_of_foldl_tell heard with before | rfl
      · exact absurd (open_.symm.trans before) (by simp)
      · cases hs : c.state <;> simp [hs, refusal?, admission] at hr ⊢
  · rcases quiet with still | ⟨other, he⟩
    · cases still
    · obtain ⟨rfl, rfl⟩ := (Step.callers.injEq ..).mp he
      rcases Bridge.decided_of_expire told with before | ⟨_, -, late⟩
      · exact absurd (open_.symm.trans before) (by simp)
      · cases late
  · rcases created_cases c generation channel with
      ⟨_, -, turned, -, -, bridge, -⟩ | ⟨_, -, turned, -, -, bridge, -⟩ |
        ⟨-, turned, -, -, bridge, -⟩
    · exact absurd (open_.symm.trans (bridge ▸ told)) (by simp)
    · exact opened _ rfl (bridge ▸ told)
    · exact absurd (open_.symm.trans (bridge ▸ told)) (by simp)

theorem Meanwhile.welcomes {c : Connection σ} {steps : List (Step σ)} (h : c.Meanwhile steps)
    {call : Nat} (open_ : c.bridge.outcome? call = none)
    (told : (c.run steps).bridge.outcome? call = some (.ok ())) :
    ∃ before s after, steps = before ++ s :: after ∧ (c.run before).Welcomes call s := by
  induction steps generalizing c with
  | nil => exact absurd (open_.symm.trans told) (by simp)
  | cons s steps ih =>
    obtain ⟨quiet, rest⟩ := h
    cases ho : (c.step s).bridge.outcome? call with
    | none =>
      obtain ⟨before, last, after, rfl, welcomes⟩ := ih rest ho told
      exact ⟨s :: before, last, after, rfl, welcomes⟩
    | some result =>
      -- It keeps the first result that it gets, so this is it.
      have first := (rest.keeps.bridge.outcome call result ho).symm.trans told
      rw [Option.some.inj first] at ho
      have up := connected_of_told open_ quiet ho
      refine ⟨[], s, steps, rfl, open_, ho, up, fun more undisturbed => ?_⟩
      exact (undisturbed.same (by simp [up])).1.trans up

/-! ### A call and its attempt -/

/-- The call that is in has started this attempt, which is under way as long as the call waits. If
the call has been told of a failure, the attempt is over. Its time may be up before (`late`). -/
structure Abides (c : Connection σ) (call generation : Nat) (late : Prop) : Prop where
  holds : c.bridge.holder = some call
  heard : c.Heard
  attended : c.Attended
  known : generation ≤ c.generation
  going : c.bridge.outcome? call = none → c.isAttempting generation = true
  finished : ∀ error, c.bridge.outcome? call = some (.error error) →
    c.isUp generation = false ∨ late ∧ ∃ ms, error = .timeout ms

/-- A call that waits is told what the turn has to tell. -/
theorem outcome_of_waiting {c : Connection σ} {call : Nat} (heard : c.Heard)
    (attended : c.Attended) (holds : c.bridge.holder = some call)
    (open_ : c.bridge.outcome? call = none) {s : Step σ} (still : s.movesCallers = false)
    (apart : s.asks (.call call) = false) :
    (c.step s).bridge.outcome? call = (c.turn s).verdict? := by
  have begun := heard.begun call holds
  have waits := heard.waits call holds open_
  obtain ⟨connecting, manual⟩ := attended (List.ne_nil_of_mem waits)
  have told := fun outcome => Bridge.outcome_of_told begun open_ outcome waits
  have turned : ∀ t : Turn, (t.bridge c).outcome? call = t.verdict? := by
    intro t
    cases t with
    | opens | ends => exact told _
    | fails error =>
      simp only [Turn.bridge, manual]
      exact told _
    | loses =>
      simp only [Turn.bridge, manual, or_true, if_true]
      exact told _
    | begins kind | requests | rests => exact open_
  rcases step_effects c s with
    effects | ⟨waiter, rfl⟩ | ⟨bridge, awaited, rfl⟩ | ⟨generation, channel, rfl⟩
  · rw [effects.bridge]
    exact turned _
  · -- Somebody else asks, and is refused.
    obtain ⟨outcome, hr⟩ : ∃ outcome, refusal? c.state = some outcome := by
      simp [connecting, refusal?, admission]
    rw [step_connect_refused hr, turn_connect, hr]
    cases waiter with
    | completion id => exact open_
    | call other =>
      have ne : call ≠ other := by
        rintro rfl
        simp [Step.asks] at apart
      exact (Bridge.outcome_settle_of_ne c.bridge ne outcome).trans open_
  · cases still
  · rcases created_cases c generation channel with
      ⟨_, -, ht, -, -, bridge, -⟩ | ⟨_, -, ht, -, -, bridge, -⟩ | ⟨-, ht, -, -, bridge, -⟩
    · rw [bridge, ht]
      exact open_
    · rw [bridge, ht]
      exact turned _
    · rw [bridge, ht]
      exact open_

theorem Abides.step {c : Connection σ} {call generation : Nat} {late : Prop}
    (h : c.Abides call generation late) {s : Step σ} (still : s.movesCallers = false)
    (apart : s.asks (.call call) = false) : (c.step s).Abides call generation late := by
  have keeps := Quiet.keeps (c := c) (s := s) (.inl still)
  have turns := step_turns c s
  have allowed := turn_allowed c s
  refine ⟨keeps.bridge.holder.trans h.holds, step_heard h.heard still, step_attended h.attended s,
    Nat.le_trans h.known (generation_le_step c s), fun after => ?_, fun error told => ?_⟩
  · have open_ := keeps.open_ after
    obtain ⟨current, connecting⟩ := (isAttempting_iff c _).1 (h.going open_)
    have verdict := outcome_of_waiting h.heard h.attended h.holds open_ still apart
    rw [after] at verdict
    rw [isAttempting_iff, turns.state, turns.generation]
    cases ht : c.turn s with
    | requests | rests => exact ⟨current, connecting⟩
    | begins kind =>
      rw [ht] at allowed
      rcases allowed with hs | ⟨hs, -⟩ <;> simp [hs] at connecting
    | opens | fails error | loses | ends => simp [ht] at verdict
  · cases ho : c.bridge.outcome? call with
    | some result =>
      have same := (keeps.bridge.outcome call result ho).symm.trans told
      rw [Option.some.inj same] at ho
      exact (h.finished error ho).imp_left fun past => over_run h.known past [s]
    | none =>
      have verdict := outcome_of_waiting h.heard h.attended h.holds ho still apart
      obtain ⟨connecting, manual⟩ :=
        h.attended (List.ne_nil_of_mem (h.heard.waits call h.holds ho))
      rw [told] at verdict
      left
      cases ht : c.turn s with
      | fails error => simp [isUp, turns.state, ht, manual]
      | loses | ends => simp [isUp, turns.state, ht]
      | opens | begins kind | requests | rests => simp [ht] at verdict

theorem Abides.run {c : Connection σ} {call generation : Nat} {late : Prop}
    (h : c.Abides call generation late) {steps : List (Step σ)}
    (still : ∀ s ∈ steps, s.movesCallers = false)
    (apart : ∀ s ∈ steps, s.asks (.call call) = false) :
    (c.run steps).Abides call generation late := by
  induction steps generalizing c with
  | nil => exact h
  | cons s steps ih =>
    have first := h.step (still s List.mem_cons_self) (apart s List.mem_cons_self)
    exact ih first (fun u hu => still u (List.mem_cons_of_mem s hu))
      fun u hu => apart u (List.mem_cons_of_mem s hu)

omit [Transport σ] in
/-- The time of a call is up. If it still waits, that is its result. -/
theorem Abides.expire {c : Connection σ} {call generation : Nat} {late : Prop}
    (h : c.Abides call generation late) (excused : c.bridge.outcome? call = none → late)
    (other : Nat) : (c.expireConnect other).Abides call generation late := by
  have advances := Bridge.expire_advances c.bridge other
  have keeps : c.Keeps (c.expireConnect other) := ⟨advances, rfl⟩
  have heard : (c.expireConnect other).Heard :=
    h.heard.of_advances advances fun _ _ _ waits => waits
  refine ⟨advances.holder.trans h.holds, heard, h.attended, h.known,
    fun after => h.going (keeps.open_ after), fun error told => ?_⟩
  rcases Bridge.decided_of_expire told with before | ⟨ms, -, same⟩
  · exact h.finished error before
  · cases ho : c.bridge.outcome? call with
    | none => exact .inr ⟨excused ho, ms, Except.error.inj same⟩
    | some result =>
      have first := (advances.outcome call result ho).symm.trans told
      rw [Option.some.inj first] at ho
      exact h.finished error ho

theorem Abides.meanwhile {c : Connection σ} {call generation : Nat} {late : Prop}
    (h : c.Abides call generation late) (excused : c.bridge.outcome? call = none → late)
    {steps : List (Step σ)} (quiet : c.Meanwhile steps)
    (apart : ∀ s ∈ steps, s.asks (.call call) = false) :
    (c.run steps).Abides call generation late := by
  induction steps generalizing c with
  | nil => exact h
  | cons s steps ih =>
    have first : (c.step s).Abides call generation late := by
      rcases quiet.1 with still | ⟨other, rfl⟩
      · exact h.step still (apart s List.mem_cons_self)
      · exact h.expire excused other
    exact ih first (fun after => excused (quiet.1.keeps.open_ after)) quiet.2
      fun u hu => apart u (List.mem_cons_of_mem s hu)

/-! ### The call begins -/

theorem isAttempting_attemptFailed (c : Connection σ) (generation : Nat) (error : ClientError) :
    (c.attemptFailed generation error).isAttempting generation = false := by
  cases h : c.isAttempting generation with
  | true =>
    refine Bool.eq_false_iff.2 fun still => ?_
    exact state_of_attemptFailed h error ((isAttempting_iff _ generation).1 still).2
  | false => rwa [attemptFailed_stale h]

theorem isAttempting_of_resume {c : Connection σ} {generation : Nat}
    {result : Except ClientError Nat} (unsent : (c.resume generation result).2 = none) :
    (c.resume generation result).1.isAttempting generation = false := by
  cases result with
  | error error => exact isAttempting_attemptFailed c generation error
  | ok channel =>
    cases h : c.isAttempting generation with
    | false =>
      rw [resume, handOver_stale h]
      exact h
    | true =>
      cases he : c.codec.encode c.converter with
      | error error =>
        rw [resume, handOver_unencoded h he]
        exact isAttempting_attemptFailed _ generation error
      | ok payload =>
        rw [resume, handOver_requested h he] at unsent
        cases unsent

/-- Unless a session request has gone out, the attempt is over when it has been started. -/
theorem tryConnect_sent {c : Connection σ} {kind : AttemptKind}
    (h : admission c.state kind = .begun) (waiter : Option Waiter) :
    (c.tryConnect kind waiter).2 = some (c.generation + 1) ∨
      (c.tryConnect kind waiter).2 = none ∧
        (c.tryConnect kind waiter).1.isAttempting (c.generation + 1) = false := by
  unfold tryConnect
  rw [start_begun h]
  dsimp only
  split
  · exact .inl rfl
  · next resumed hr =>
    have finished := isAttempting_of_resume (congrArg Prod.snd hr)
    rw [hr] at finished
    exact .inr ⟨rfl, finished⟩

/-- A connection that has let a thread in. -/
def letIn (c : Connection σ) (thread : Nat) (timeoutMs : UInt64) : Connection σ :=
  { c with bridge := c.bridge.occupy thread timeoutMs }

theorem beginConnect_eq_started {c begun : Connection σ} {thread call : Nat} {timeoutMs : UInt64}
    (h : c.beginConnect thread timeoutMs = .started call begun) :
    c.bridge.enter thread timeoutMs = .started call (c.bridge.occupy thread timeoutMs) ∧
      call = c.bridge.calls.length ∧
      begun = { ((c.letIn thread timeoutMs).tryConnect .manual (some (.call call))).1 with
        awaited := ((c.letIn thread timeoutMs).tryConnect .manual (some (.call call))).2 } := by
  unfold beginConnect at h
  cases entry : c.bridge.enter thread timeoutMs with
  | rejected | waiting holder => simp [entry] at h
  | started entered bridge =>
    obtain ⟨-, -, rfl, rfl⟩ := Bridge.enter_eq_started entry
    simp only [entry] at h
    obtain ⟨rfl, rfl⟩ := (Start.started.injEq ..).mp h
    exact ⟨rfl, rfl, rfl⟩

/-- A caller comes in, asks, and learns in the end which attempt it has started. -/
theorem stepsOf_beginConnect {c begun : Connection σ} {thread call : Nat} {timeoutMs : UInt64}
    (h : c.beginConnect thread timeoutMs = .started call begun) :
    ∃ rest, c.stepsOf (.beginConnect thread timeoutMs) =
        .callers (c.bridge.occupy thread timeoutMs) c.awaited :: .connect (.call call) :: rest ++
          [.callers begun.bridge begun.awaited] ∧
      (c.letIn thread timeoutMs).Meanwhile (.connect (.call call) :: rest) ∧
      ((c.letIn thread timeoutMs).run (.connect (.call call) :: rest)).bridge = begun.bridge := by
  obtain ⟨entry, -, tried⟩ := beginConnect_eq_started h
  refine ⟨(c.letIn thread timeoutMs).reports .manual (some (.call call)), ?_, ?_, ?_⟩
  · rw [tried]
    simp only [stepsOf, entry]
    rfl
  · refine meanwhile_of_still _ fun s hs => ?_
    rcases List.mem_cons.1 hs with rfl | later
    · rfl
    · exact movesCallers_of_mem_reports later
  · have all := tryConnect_eq_run (c.letIn thread timeoutMs) .manual (some (.call call))
    rw [tried, all]
    rfl

theorem holds_of_beginConnect {c begun : Connection σ} {thread call : Nat} {timeoutMs : UInt64}
    (h : c.beginConnect thread timeoutMs = .started call begun) :
    begun.bridge.holder = some call ∧ call < begun.bridge.calls.length := by
  obtain ⟨rest, -, quiet, same⟩ := stepsOf_beginConnect h
  obtain ⟨-, rfl, -⟩ := beginConnect_eq_started h
  rw [← same, quiet.keeps.bridge.holder, quiet.keeps.bridge.length_eq]
  exact ⟨rfl, by simp [letIn, Bridge.occupy]⟩

/-- A call that starts an attempt waits for it, or is told at once what came of it. -/
theorem abides_of_beginConnect {c begun : Connection σ} {thread call : Nat} {timeoutMs : UInt64}
    (attended : c.Attended) (welcome : refusal? c.state = none)
    (h : c.beginConnect thread timeoutMs = .started call begun) :
    begun.Abides call (c.generation + 1) (begun.awaited = some (c.generation + 1)) ∧
      (begun.bridge.outcome? call = none → begun.awaited = some (c.generation + 1)) ∧
      ∀ generation, begun.awaited = some generation → generation = c.generation + 1 := by
  obtain ⟨-, rfl, rfl⟩ := beginConnect_eq_started h
  let entered := c.letIn thread timeoutMs
  let waiter : Waiter := .call c.bridge.calls.length
  have open_ : entered.bridge.outcome? c.bridge.calls.length = none :=
    Bridge.outcome_occupy_self c.bridge thread timeoutMs
  have asked : (entered.step (.connect waiter)).Abides c.bridge.calls.length (c.generation + 1)
      False := by
    have heard : (entered.step (.connect waiter)).Heard :=
      connect_heard rfl (by simp [entered, letIn, Bridge.occupy])
    have attending : (entered.step (.connect waiter)).Attended :=
      step_attended (c := entered) attended _
    rw [step_connect_begun (c := entered) welcome waiter] at heard attending ⊢
    refine ⟨rfl, heard, attending, Nat.le_refl _, fun _ => ?_, fun error told => ?_⟩
    · exact (isAttempting_iff _ _).2 ⟨rfl, rfl⟩
    · exact absurd (open_.symm.trans told) (by simp)
  have eq : (entered.step (.connect waiter)).run (entered.reports .manual (some waiter)) =
      (entered.tryConnect .manual (some waiter)).1 := (tryConnect_eq_run entered _ _).symm
  have tried : ((entered.step (.connect waiter)).run
      (entered.reports .manual (some waiter))).Abides c.bridge.calls.length (c.generation + 1)
      False :=
    asked.run (fun s hs => movesCallers_of_mem_reports hs) fun s hs => asks_of_mem_reports hs _
  rw [eq] at tried
  have sent := tryConnect_sent (c := entered) (admission_of_no_refusal welcome) (some waiter)
  refine ⟨⟨tried.holds, ⟨tried.heard.begun, tried.heard.waits⟩, tried.attended, tried.known,
    tried.going, fun error told => ?_⟩, fun undecided => ?_, fun generation awaited => ?_⟩
  · exact .inl ((tried.finished error told).resolve_right fun late => late.1)
  · rcases sent with sent | ⟨-, finished⟩
    · exact sent
    · exact absurd ((tried.going undecided).symm.trans finished) (by simp)
  · rcases sent with sent | ⟨unsent, -⟩
    · exact Option.some.inj (awaited.symm.trans sent)
    · exact absurd (awaited.symm.trans unsent) (by simp)

theorem welcomes_of_beginConnect {c begun : Connection σ} {thread call : Nat} {timeoutMs : UInt64}
    (h : c.beginConnect thread timeoutMs = .started call begun)
    (told : begun.bridge.outcome? call = some (.ok ())) :
    ∃ before s after, c.stepsOf (.beginConnect thread timeoutMs) = before ++ s :: after ∧
      (c.run before).Welcomes call s := by
  obtain ⟨rest, steps, quiet, same⟩ := stepsOf_beginConnect h
  obtain ⟨-, rfl, -⟩ := beginConnect_eq_started h
  have open_ := Bridge.outcome_occupy_self c.bridge thread timeoutMs
  obtain ⟨before, s, after, split, welcomes⟩ := quiet.welcomes open_ (by rw [same]; exact told)
  refine ⟨.callers (c.bridge.occupy thread timeoutMs) c.awaited :: before, s,
    after ++ [.callers begun.bridge begun.awaited], ?_, welcomes⟩
  rw [steps, List.cons_append, split]
  simp

/-! ### The call returns -/

/-- A call whose time is up gives its attempt up and looks again. Any other takes its result. -/
theorem finishConnect_eq_some {c left : Connection σ} {call : Nat} {outcome : Outcome}
    (h : c.finishConnect call = some (outcome, left)) :
    c.bridge.holder = some call ∧ ∃ result, c.bridge.outcome? call = some result ∧
      let vacated := c.step (.callers c.bridge.vacate none)
      ((∃ ms generation, result = .error (.timeout ms) ∧ c.awaited = some generation ∧
          left = vacated.step (.giveUp generation ms) ∧
          outcome = if left.state = .connected then .ok () else .error (.timeout ms)) ∨
        (∀ ms, result = .error (.timeout ms) → c.awaited = none) ∧
          left = vacated ∧ outcome = result) := by
  unfold finishConnect at h
  cases leaves : c.bridge.leave call with
  | none => simp [leaves] at h
  | some returned =>
    obtain ⟨result, bridge⟩ := returned
    obtain ⟨holds, decided, rfl⟩ := Bridge.leave_eq_some leaves
    refine ⟨holds, result, decided, ?_⟩
    simp only [leaves] at h
    split at h
    · next ms generation awaited =>
      obtain ⟨rfl, rfl⟩ := Prod.mk.inj (Option.some.inj h)
      exact .inl ⟨ms, generation, rfl, awaited, rfl, rfl⟩
    · next other =>
      obtain ⟨rfl, rfl⟩ := Prod.mk.inj (Option.some.inj h)
      refine .inr ⟨fun ms same => ?_, rfl, rfl⟩
      cases awaited : c.awaited with
      | none => rfl
      | some generation => exact absurd awaited (other ms generation same)

/-- The connection is up after these steps, or it was when the call was told so. -/
def WasUp (c : Connection σ) (call : Nat) (steps : List (Step σ)) : Prop :=
  (c.run steps).state = .connected ∨
    ∃ before s after, steps = before ++ s :: after ∧ (c.run before).Welcomes call s

/-- Whoever connects now is let in and starts an attempt of its own. -/
def StartsAfresh (c : Connection σ) : Prop :=
  ∀ thread timeoutMs, ∃ call begun later,
    c.beginConnect thread timeoutMs = .started call begun ∧
      begun.trace = c.trace ++ .creating (c.generation + 1) :: later

/-- The attempt that a call has started in these steps has come to nothing. Unless something else
has happened since, the next call starts another. -/
def FailedCall (c : Connection σ) (call generation : Nat) (steps : List (Step σ)) : Prop :=
  ∃ before after, steps = before ++ .connect (.call call) :: after ∧
    c.CameToNothing (before ++ [.connect (.call call)]) after generation ∧
    ((c.run (before ++ [.connect (.call call)])).Undisturbed after → (c.run steps).StartsAfresh)

theorem trace_run (c : Connection σ) (steps : List (Step σ)) :
    ∃ later, (c.run steps).trace = c.trace ++ later := by
  induction steps generalizing c with
  | nil => exact ⟨[], (List.append_nil _).symm⟩
  | cons s steps ih =>
    obtain ⟨first, hf⟩ := trace_step c s
    obtain ⟨rest, hr⟩ := ih (c.step s)
    exact ⟨first ++ rest, by rw [run_cons, hr, hf, List.append_assoc]⟩

theorem startsAfresh {c : Connection σ} (idle : c.state = .idle) (free : c.bridge.holder = none)
    (outside : c.bridge.owner = none) : c.StartsAfresh := by
  intro thread timeoutMs
  let entered := c.letIn thread timeoutMs
  let waiter : Waiter := .call c.bridge.calls.length
  have welcome : refusal? entered.state = none := by
    simp [entered, letIn, idle, refusal?, admission]
  have absent : c.bridge.owner ≠ some thread := by simp [outside]
  have entry := Bridge.enter_of_free free absent timeoutMs
  obtain ⟨later, seen⟩ :=
    trace_run (entered.step (.connect waiter)) (entered.reports .manual (some waiter))
  have all : (entered.tryConnect .manual (some waiter)).1 =
    (entered.step (.connect waiter)).run (entered.reports .manual (some waiter)) :=
      tryConnect_eq_run entered .manual (some waiter)
  rw [← all, step_connect_begun welcome, List.append_assoc] at seen
  have begins : c.beginConnect thread timeoutMs = .started c.bridge.calls.length
      { (entered.tryConnect .manual (some waiter)).1 with
        awaited := (entered.tryConnect .manual (some waiter)).2 } := by
    simp only [beginConnect, entry]
    rfl
  exact ⟨_, _, later, begins, seen⟩

/-- A call that is in returns when its time is up, if it has not returned before. -/
theorem returns_of_expired {c : Connection σ} {call : Nat} (holds : c.bridge.holder = some call)
    (begun : call < c.bridge.calls.length) {operations : List (Operation σ)}
    (stays : .finishConnect call ∉ operations) (expired : .expireConnect call ∈ operations) :
    ∃ outcome left, (c.performAll operations).finishConnect call = some (outcome, left) := by
  obtain ⟨before, after, rfl⟩ := List.append_of_mem expired
  simp only [List.mem_append, List.mem_cons, not_or] at stays
  obtain ⟨earlier, -, later⟩ := stays
  have first := (meanwhile_stepsOfAll holds earlier).1.keeps
  rw [← performAll_eq_run_stepsOfAll] at first
  let d := (c.performAll before).expireConnect call
  have expires : (c.performAll before).bridge.Advances d.bridge :=
    Bridge.expire_advances _ call
  have inside : d.bridge.holder = some call :=
    expires.holder.trans (first.bridge.holder.trans holds)
  have rest := (meanwhile_stepsOfAll inside later).1.keeps
  rw [← performAll_eq_run_stepsOfAll] at rest
  have decided := Bridge.outcome_expire_ne_none (first.bridge.length_eq.symm ▸ begun)
  obtain ⟨result, ho⟩ := Option.ne_none_iff_exists'.1 decided
  have all : c.performAll (before ++ .expireConnect call :: after) = d.performAll after := by
    rw [performAll_append]
    rfl
  rw [all]
  exact finishConnect_of_decided (rest.bridge.holder.trans inside)
    (rest.bridge.outcome call result ho)

theorem finishConnect_of_connect {c begun left : Connection σ} {thread call : Nat}
    {timeoutMs : UInt64} {outcome : Outcome}
    (entry : c.beginConnect thread timeoutMs = .started call begun)
    (connects : c.connect thread timeoutMs = (outcome, left)) :
    (begun.performAll [.expireConnect call]).finishConnect call = some (outcome, left) := by
  obtain ⟨holds, known⟩ := holds_of_beginConnect entry
  have stays : .finishConnect call ∉ ([.expireConnect call] : List (Operation σ)) := by simp
  obtain ⟨result, ended, returned⟩ := returns_of_expired holds known stays List.mem_cons_self
  have finishes : (begun.expireConnect call).finishConnect call = some (result, ended) := returned
  rw [connect, entry] at connects
  simp only [finishes] at connects
  rw [returned, connects]

/-- Nobody is inside of the bridge when a call has returned. -/
theorem free_of_finishConnect {c left : Connection σ} {call : Nat} {outcome : Outcome}
    (h : c.finishConnect call = some (outcome, left)) :
    left.bridge.holder = none ∧ left.bridge.owner = none := by
  obtain ⟨-, result, -, ⟨ms, generation, -, -, rfl, -⟩ | ⟨-, rfl, -⟩⟩ := finishConnect_eq_some h
  · have kept := step_advances (c.step (.callers c.bridge.vacate none))
      (s := .giveUp generation ms) rfl
    exact ⟨kept.holder, kept.owner⟩
  · exact ⟨rfl, rfl⟩

/-- A call that returns with an error leaves no attempt behind. -/
theorem Abides.over_of_finishConnect {c left : Connection σ} {call generation : Nat}
    (h : c.Abides call generation (c.awaited = some generation))
    (awaits : ∀ other, c.awaited = some other → other = generation) {error : ClientError}
    (returned : c.finishConnect call = some (.error error, left)) :
    left.isUp generation = false := by
  obtain ⟨-, result, decided, ⟨ms, other, rfl, awaited, rfl, failed⟩ | ⟨untimed, rfl, same⟩⟩ :=
    finishConnect_eq_some returned
  · obtain rfl := awaits other awaited
    let vacated := c.step (.callers c.bridge.vacate none)
    have finished : (vacated.step (.giveUp other ms)).isAttempting other = false :=
      isAttempting_attemptFailed vacated other _
    have down : (vacated.step (.giveUp other ms)).state ≠ .connected := by
      intro up
      rw [if_pos up] at failed
      cases failed
    refine Bool.eq_false_iff.2 fun up => ?_
    obtain ⟨current, connecting | connected⟩ := (isUp_iff _ other).1 up
    · rw [(isAttempting_iff _ other).2 ⟨current, connecting⟩] at finished
      cases finished
    · exact down connected
  · rw [← same] at decided
    rcases h.finished error decided with finished | ⟨sent, ms, rfl⟩
    · exact finished
    · exact absurd ((untimed ms same.symm).symm.trans sent) (by simp)

/-- A call that returns without an error has been told the truth. -/
theorem connected_of_finishConnect {c left : Connection σ} {call : Nat}
    (returned : c.finishConnect call = some (.ok (), left)) :
    left.state = .connected ∨ c.bridge.outcome? call = some (.ok ()) := by
  obtain ⟨-, result, decided, ⟨ms, generation, -, -, -, up⟩ | ⟨-, -, rfl⟩⟩ :=
    finishConnect_eq_some returned
  · left
    by_contra down
    rw [if_neg down] at up
    cases up
  · exact .inr decided

/-- The steps of all who come before a call, of the call's beginning, of what happens while it is
in, and of its return. -/
theorem stepsOfAll_call {start begun : Connection σ} {before more : List (Operation σ)}
    {thread call : Nat} {timeoutMs : UInt64}
    (entry : (start.performAll before).beginConnect thread timeoutMs = .started call begun) :
    start.stepsOfAll (before ++ .beginConnect thread timeoutMs :: more ++ [.finishConnect call]) =
      start.stepsOfAll before ++
        ((start.performAll before).stepsOf (.beginConnect thread timeoutMs) ++
          (begun.stepsOfAll more ++ (begun.performAll more).stepsOf (.finishConnect call))) := by
  have begins := perform_of_started entry
  have all : (start.performAll before).performAll (.beginConnect thread timeoutMs :: more) =
      begun.performAll more := by
    rw [← begins]
    rfl
  simp only [stepsOfAll_append, all, stepsOfAll, begins, List.append_nil, List.append_assoc]

theorem run_stepsOfAll_call {start begun left : Connection σ} {before more : List (Operation σ)}
    {thread call : Nat} {timeoutMs : UInt64} {outcome : Outcome}
    (entry : (start.performAll before).beginConnect thread timeoutMs = .started call begun)
    (returned : (begun.performAll more).finishConnect call = some (outcome, left)) :
    start.run (start.stepsOfAll
      (before ++ .beginConnect thread timeoutMs :: more ++ [.finishConnect call])) = left := by
  have begins := perform_of_started entry
  have finishes : (begun.performAll more).perform (.finishConnect call) = left := by
    rw [perform, returned]
  rw [← performAll_eq_run_stepsOfAll, performAll_append, performAll_append, ← finishes, ← begins]
  rfl

theorem wasUp_of_finishConnect {start begun left : Connection σ} {before more : List (Operation σ)}
    {thread call : Nat} {timeoutMs : UInt64}
    (entry : (start.performAll before).beginConnect thread timeoutMs = .started call begun)
    (stays : .finishConnect call ∉ more)
    (returned : (begun.performAll more).finishConnect call = some (.ok (), left)) :
    start.WasUp call (start.stepsOfAll
      (before ++ .beginConnect thread timeoutMs :: more ++ [.finishConnect call])) := by
  have begins := perform_of_started entry
  rcases connected_of_finishConnect returned with up | told
  · exact .inl (by rwa [run_stepsOfAll_call entry returned])
  right
  rw [stepsOfAll_call entry]
  have quiet := (meanwhile_stepsOfAll (holds_of_beginConnect entry).1 stays).1
  rw [performAll_eq_run_stepsOfAll] at told
  cases ho : begun.bridge.outcome? call with
  | none =>
    obtain ⟨earlier, s, later, split, welcomes⟩ := quiet.welcomes ho told
    refine ⟨start.stepsOfAll before ++
      ((start.performAll before).stepsOf (.beginConnect thread timeoutMs) ++ earlier), s,
      later ++ (begun.performAll more).stepsOf (.finishConnect call), by simp [split], ?_⟩
    rwa [run_append, ← performAll_eq_run_stepsOfAll, run_append, ← perform_eq_run, begins]
  | some result =>
    have first := (quiet.keeps.bridge.outcome call result ho).symm.trans told
    rw [Option.some.inj first] at ho
    obtain ⟨earlier, s, later, split, welcomes⟩ := welcomes_of_beginConnect entry ho
    refine ⟨start.stepsOfAll before ++ earlier, s, later ++ (begun.stepsOfAll more ++
      (begun.performAll more).stepsOf (.finishConnect call)), by simp [split], ?_⟩
    rwa [run_append, ← performAll_eq_run_stepsOfAll]

theorem failedCall_of_finishConnect {start begun left : Connection σ}
    (down : start.state ≠ .connected) (attended : start.Attended) (accounted : start.Accounted [])
    {before more : List (Operation σ)} {thread call : Nat} {timeoutMs : UInt64}
    (entry : (start.performAll before).beginConnect thread timeoutMs = .started call begun)
    (stays : .finishConnect call ∉ more)
    (welcome : refusal? (start.performAll before).state = none) {error : ClientError}
    (returned : (begun.performAll more).finishConnect call = some (.error error, left)) :
    start.FailedCall call ((start.performAll before).generation + 1) (start.stepsOfAll
      (before ++ .beginConnect thread timeoutMs :: more ++ [.finishConnect call])) := by
  let c := start.performAll before
  have ran := run_stepsOfAll_call entry returned
  have orderly := (accounted.stepsOfAll
    (before ++ .beginConnect thread timeoutMs :: more ++ [.finishConnect call])).orderly
  have finished : left.isUp (c.generation + 1) = false := by
    obtain ⟨abides, sent, only⟩ := abides_of_beginConnect
      (by rw [performAll_eq_run_stepsOfAll]; exact run_attended attended _) welcome entry
    obtain ⟨quiet, apart⟩ := meanwhile_stepsOfAll (holds_of_beginConnect entry).1 stays
    have later := abides.meanwhile sent quiet apart
    rw [← quiet.keeps.awaited, ← performAll_eq_run_stepsOfAll] at later
    refine later.over_of_finishConnect (fun other awaited => only other ?_) returned
    rwa [performAll_eq_run_stepsOfAll, quiet.keeps.awaited] at awaited
  obtain ⟨rest, body, -, -⟩ := stepsOf_beginConnect entry
  let earlier : List (Step σ) :=
    start.stepsOfAll before ++ [.callers (c.bridge.occupy thread timeoutMs) c.awaited]
  let later : List (Step σ) := rest ++ [.callers begun.bridge begun.awaited] ++
    (begun.stepsOfAll more ++ (begun.performAll more).stepsOf (.finishConnect call))
  have parts : start.stepsOfAll
      (before ++ .beginConnect thread timeoutMs :: more ++ [.finishConnect call]) =
        earlier ++ [.connect (.call call)] ++ later := by
    rw [stepsOfAll_call entry, body]
    simp [earlier, later, c]
  have asked : start.run (earlier ++ [.connect (.call call)]) =
      (c.letIn thread timeoutMs).step (.connect (.call call)) := by
    rw [run_append, run_append, ← performAll_eq_run_stepsOfAll]
    rfl
  have going : (start.run (earlier ++ [.connect (.call call)])).Going (c.generation + 1) := by
    rw [asked]
    exact going_of_connect (c := c.letIn thread timeoutMs) welcome _
  have nothing : start.CameToNothing (earlier ++ [.connect (.call call)]) later
      (c.generation + 1) := by
    refine going.cameToNothing down attended ?_ (by rwa [← parts, ran])
    rw [← parts]
    exact orderly
  refine ⟨earlier, later, by rw [parts]; simp, nothing, fun undisturbed => ?_⟩
  obtain ⟨idle, -⟩ := nothing.idle undisturbed
  rw [← parts, ran] at idle
  rw [ran]
  obtain ⟨free, outside⟩ := free_of_finishConnect returned
  exact startsAfresh idle free outside

/-- A caller that is told that the connection is up can rely on it, and one that gets an error can
try again: its attempt has come to nothing, whatever has ended it and whatever comes late. -/
theorem connect_returns (codec : Codec) (transport : σ) :
    (∀ (steps more : List (Step σ)) (waiter : Waiter),
      let start := new codec transport
      let c := start.run steps
      let generation := c.generation + 1
      refusal? c.state = none → start.Orderly [] (steps ++ [.connect waiter] ++ more) →
      let e := start.run (steps ++ [.connect waiter] ++ more)
      (e.isUp generation = false →
        start.CameToNothing (steps ++ [.connect waiter]) more generation) ∧
      ∀ timeoutMs, (e.step (.giveUp generation timeoutMs)).isUp generation = true →
        (e.step (.giveUp generation timeoutMs)).state = .connected) ∧
    ∀ (before more : List (Operation σ)) (thread : Nat) (timeoutMs : UInt64) (call : Nat)
      (begun : Connection σ),
      let start := new codec transport
      let c := start.performAll before
      c.beginConnect thread timeoutMs = .started call begun → .finishConnect call ∉ more →
      (.expireConnect call ∈ more →
        ∃ outcome left, (begun.performAll more).finishConnect call = some (outcome, left)) ∧
      (∀ outcome left, c.connect thread timeoutMs = (outcome, left) →
        (begun.performAll [.expireConnect call]).finishConnect call = some (outcome, left)) ∧
      ∀ outcome left, (begun.performAll more).finishConnect call = some (outcome, left) →
        let steps := start.stepsOfAll
          (before ++ .beginConnect thread timeoutMs :: more ++ [.finishConnect call])
        left = start.run steps ∧
        (outcome = .ok () → start.WasUp call steps) ∧
        ∀ error, outcome = .error error → refusal? c.state = none →
          start.FailedCall call (c.generation + 1) steps := by
  have down : (new codec transport).state ≠ .connected := by simp [new]
  have attended := new_attended codec transport
  refine ⟨fun steps more waiter => ?_, fun before more thread timeoutMs call begun => ?_⟩
  · intro start c generation welcome orderly e
    have asked : start.run (steps ++ [.connect waiter]) = c.step (.connect waiter) :=
      run_append start steps _
    have going : (start.run (steps ++ [.connect waiter])).Going generation := by
      rw [asked]
      exact going_of_connect welcome waiter
    refine ⟨going.cameToNothing down attended orderly, fun timeoutMs up => ?_⟩
    have finished := isAttempting_attemptFailed e generation (.timeout timeoutMs)
    obtain ⟨current, connecting | connected⟩ := (isUp_iff _ generation).1 up
    · have still := (isAttempting_iff _ generation).2 ⟨current, connecting⟩
      exact absurd (still.symm.trans finished) (by simp)
    · exact connected
  · intro start c entry stays
    have accounted : start.Accounted [] :=
      ⟨trivial, fun generation attempting => by simp [start, isAttempting, new] at attempting⟩
    obtain ⟨holds, known⟩ := holds_of_beginConnect entry
    refine ⟨returns_of_expired holds known stays,
      fun outcome left => finishConnect_of_connect entry, fun outcome left returned => ?_⟩
    refine ⟨(run_stepsOfAll_call entry returned).symm, ?_, ?_⟩
    · rintro rfl
      exact wasUp_of_finishConnect entry stays returned
    · rintro error rfl welcome
      exact failedCall_of_finishConnect down attended accounted entry stays welcome returned

/-- A session is not opened in time. The call returns, and its attempt has come to nothing; so has
one that a completion waited for. -/
theorem timed_out_connect_over :
    let start := new ⟨4194304⟩ { ScriptedTransport.initial with session := .hold }
    (∃ begun left, start.beginConnect 7 1000 = .started 0 begun ∧
      (begun.performAll [.expireConnect 0]).finishConnect 0 =
        some (.error (.timeout 1000), left) ∧
      left.state = .idle ∧ start.FailedCall 0 1
        (start.stepsOfAll [.beginConnect 7 1000, .expireConnect 0, .finishConnect 0])) ∧
    start.CameToNothing [.connect (.completion 0)] [.created 1 (.ok 1), .giveUp 1 1000] 1 := by
  obtain ⟨begun, left, entry, returned, idle⟩ : ∃ begun left,
      (new ⟨4194304⟩ { ScriptedTransport.initial with session := .hold }).beginConnect 7 1000 =
        .started 0 begun ∧
      (begun.performAll [.expireConnect 0]).finishConnect 0 =
        some (.error (.timeout 1000), left) ∧
      left.state = .idle := ⟨_, _, rfl, rfl, rfl⟩
  intro start
  obtain ⟨attempts, calls⟩ :=
    connect_returns ⟨4194304⟩ { ScriptedTransport.initial with session := .hold }
  obtain ⟨-, -, outcome⟩ := calls [] [.expireConnect 0] 7 1000 0 begun entry (by simp)
  obtain ⟨-, -, failed⟩ := outcome _ left returned
  refine ⟨⟨begun, left, entry, returned, idle, failed _ rfl rfl⟩, ?_⟩
  have orderly : start.Orderly []
      ([] ++ [.connect (.completion 0)] ++ [.created 1 (.ok 1), .giveUp 1 1000]) :=
    ⟨trivial, ⟨Nat.le_refl _, by simp⟩, trivial, trivial⟩
  exact (attempts [] [.created 1 (.ok 1), .giveUp 1 1000] (.completion 0) rfl orderly).1 rfl

/-- A transport whose channels are lost as soon as their session is open. -/
inductive Fleeting where
  | fleeting

instance : Transport Fleeting where
  create s generation := (⟨[], .ok generation⟩, s)
  openSession s _ generation _ := ([.sessionReply generation (.ok .done), .lost generation], s)
  close s _ := s

/-- The connection need not be up anymore when a call returns that has been told so. Its channel may
be lost on the spot, or the connection invalidated before the caller goes on. -/
theorem told_before_lost :
    (∃ left, (new ⟨4194304⟩ Fleeting.fleeting).connect 7 1000 = (.ok (), left) ∧
      left.state = .interrupted) ∧
    ∃ begun left,
      (new ⟨4194304⟩ { ScriptedTransport.initial with session := .hold }).beginConnect 7 1000 =
        .started 0 begun ∧
      (begun.performAll [.receive (.sessionReply 1 (.ok .done)), .invalidate]).finishConnect 0 =
        some (.ok (), left) ∧
      left.state = .invalidated :=
  ⟨⟨_, rfl, rfl⟩, _, _, rfl, rfl, rfl⟩

end EndpointMonitor.Connection
