import EndpointMonitor.Proofs.Bridge.Ownership

/-!
Calls from inside of a call. They are rejected, and all else goes on as if they had not been made.
Calls from outside are not rejected, unless the body of the latest call has failed: then its thread
counts as inside of it until another thread begins a call.
-/

namespace EndpointMonitor.Bridge

variable {α : Type}

namespace Crew

/-! ### Calls that are left out -/

/-- A thread makes a call from inside of another one. -/
def nests (c : Crew α) : Happening α → Bool
  | .turn thread => !(c.callers thread).frames.isEmpty && (c.callers thread).next?.isSome
  | .event _ _ => false

/-- What happens besides. -/
def others (c : Crew α) : List (Happening α) → List (Happening α)
  | [] => []
  | happening :: happenings =>
    if c.nests happening then (c.step happening).others happenings
    else happening :: (c.step happening).others happenings

end Crew

def Call.bare (call : Call) : Call := { call with body := [] }

def Frame.bare (f : Frame α) : Frame α := { f with rest := f.rest.bare }

def Caller.bare (x : Caller α) : Caller α := ⟨x.frames.map Frame.bare, x.todo.map Call.bare⟩

/-- The same threads in the same places, but no body makes a call. -/
def Crew.bare (c : Crew α) : Crew α := ⟨c.bridge, fun thread => (c.callers thread).bare⟩

theorem proceed_bare (b : Bridge α) (thread : Nat) (f : Frame α) :
    proceed b thread f.bare =
      (proceed b thread f).map fun taken => (taken.1, taken.2.1.map Frame.bare, taken.2.2) := by
  obtain ⟨phase, rest⟩ := f
  cases phase with
  | admitted =>
    simp only [proceed, Frame.bare]
    split <;> rfl
  | running call =>
    obtain ⟨timeoutMs, body, fails⟩ := rest
    cases fails <;> rfl
  | awaiting call =>
    simp only [proceed, Frame.bare, Option.map_map]
    rfl
  | _ => rfl

namespace Caller

variable {x : Caller α}

theorem bare_next (outside : x.frames = []) : x.bare.next? = x.next?.map Call.bare := by
  simp [bare, next?, outside]

theorem bare_next_eq_none (inside : x.frames ≠ []) : x.bare.next? = none := by
  obtain ⟨frames, todo⟩ := x
  cases frames with
  | nil => exact absurd rfl inside
  | cons f outer =>
    obtain ⟨phase, rest⟩ := f
    cases phase <;> rfl

theorem bare_skip (outside : x.frames = []) : x.bare.skip = x.skip.bare := by
  simp [bare, skip, outside]

theorem bare_skip_of_inside (inside : x.frames ≠ []) : x.skip.bare = x.bare := by
  obtain ⟨frames, todo⟩ := x
  cases frames with
  | nil => exact absurd rfl inside
  | cons f outer => rfl

end Caller

namespace Crew

variable {c : Crew α} {log : List (CallReport α)} {thread : Nat}

theorem bare_set (c : Crew α) (b : Bridge α) (thread : Nat) (x : Caller α) :
    (c.set b thread x).bare = c.bare.set b thread x.bare := by
  simp only [bare, set]
  congr 1
  funext t
  by_cases same : t = thread
  · subst same
    simp
  · simp [same]

theorem bare_turn (inner : c.nests (.turn thread) = false) :
    c.bare.turn thread = ((c.turn thread).1.bare, (c.turn thread).2) := by
  have callers : c.bare.callers thread = (c.callers thread).bare := rfl
  cases next : (c.callers thread).next? with
  | some call =>
    have outside : (c.callers thread).frames = [] := by simpa [nests, next] using inner
    have nextBare : (c.bare.callers thread).next? = some call.bare := by
      rw [callers, Caller.bare_next outside, next, Option.map_some]
    by_cases owns : c.bridge.owner = some thread
    · rw [turn_rejected next owns, turn_rejected nextBare owns, bare_set, callers,
        Caller.bare_skip outside]
      rfl
    · rw [turn_admitted next owns, turn_admitted nextBare owns, bare_set, callers,
        Caller.bare_skip outside]
      rfl
  | none =>
    cases within : (c.callers thread).frames with
    | nil =>
      have nextBare : (c.bare.callers thread).next? = none := by
        rw [callers, Caller.bare_next within, next, Option.map_none]
      have withinBare : (c.bare.callers thread).frames = [] := by
        simp [callers, Caller.bare, within]
      simp only [turn, next, within, nextBare, withinBare]
    | cons f outer =>
      have nextBare : (c.bare.callers thread).next? = none :=
        Caller.bare_next_eq_none (by simp [within])
      have withinBare : (c.bare.callers thread).frames = f.bare :: outer.map Frame.bare := by
        simp [callers, Caller.bare, within]
      have bridge : c.bare.bridge = c.bridge := rfl
      simp only [turn, next, within, nextBare, withinBare, bridge, proceed_bare]
      cases moves : proceed c.bridge thread f with
      | none => rfl
      | some taken =>
        obtain ⟨b, left, report⟩ := taken
        simp only [Option.map_some, bare_set]
        cases left <;> rfl

/-- A call from inside of another one is rejected, and only the threads that make such calls see
the difference. -/
theorem step_nested (h : Kept c.bridge c.places log) {happening : Happening α}
    (inner : c.nests happening = true) :
    (c.step happening).bare = c.bare ∧
      ∃ t, c.report? happening = some (.rejected t reentrant) := by
  cases happening with
  | event s outside => cases inner
  | turn thread =>
    obtain ⟨within, call, next⟩ :
        (c.callers thread).frames ≠ [] ∧ ∃ call, (c.callers thread).next? = some call := by
      simpa [nests, Option.isSome_iff_exists] using inner
    have owns := (owns_iff h next).2 (.inl within)
    have rejected := turn_rejected next owns
    refine ⟨?_, thread, congrArg Prod.snd rejected⟩
    rw [step, act, rejected, bare_set, Caller.bare_skip_of_inside within]
    exact congrArg (Crew.mk c.bridge) (Function.update_eq_self _ _)

theorem step_bare {happening : Happening α} (inner : c.nests happening = false) :
    c.bare.step happening = (c.step happening).bare ∧
      c.bare.report? happening = c.report? happening := by
  cases happening with
  | event s outside => exact ⟨rfl, rfl⟩
  | turn thread => simp only [step, report?, act, bare_turn inner, and_self]

/-- Without the calls from inside of calls the bridge and all ends of calls are the same. -/
theorem run_bare (h : Kept c.bridge c.places log) (happenings : List (Happening α)) :
    c.bare.run (c.others happenings) = (c.run happenings).bare ∧
      (c.bare.reports (c.others happenings)).filter (·.ended?.isSome) =
        (c.reports happenings).filter (·.ended?.isSome) := by
  induction happenings generalizing c log with
  | nil => exact ⟨rfl, rfl⟩
  | cons happening happenings further =>
    obtain ⟨runs, ends⟩ := further (kept_step h happening)
    cases inner : c.nests happening with
    | true =>
      obtain ⟨same, t, rejected⟩ := step_nested h inner
      rw [same] at runs ends
      simp only [others, inner, if_true, reports, rejected]
      exact ⟨runs, by simpa [CallReport.ended?] using ends⟩
    | false =>
      obtain ⟨same, reported⟩ := step_bare inner
      rw [← same] at runs ends
      simp only [others, inner, Bool.false_eq_true, if_false, reports, reported,
        List.filter_append, ends, and_true]
      exact runs

/-! ### Which calls are rejected -/

def Inside (c : Crew α) (thread : Nat) : Prop := (c.callers thread).frames ≠ []

theorem report_eq_rejected_iff {call : Call} (next : (c.callers thread).next? = some call) :
    c.report? (.turn thread) = some (.rejected thread reentrant) ↔
      c.bridge.owner = some thread := by
  by_cases owns : c.bridge.owner = some thread
  · simp only [report?, act, turn_rejected next owns, owns]
  · simp only [report?, act, turn_admitted next owns, owns, reduceCtorEq]

end Crew

/-- The latest call of the thread that has ended has ended because its body failed. -/
def LastFailed (log : List (CallReport α)) (thread : Nat) : Prop :=
  ∃ before call after, log = before ++ .failed thread call :: after ∧
    ∀ n result, .returned thread n result ∉ after

theorem LeftBehind.lastFailed {b : Bridge α} {places : Nat → List Standing}
    {log : List (CallReport α)} {thread : Nat} (left : LeftBehind b log thread)
    (h : Kept b places log) : LastFailed log thread := by
  obtain ⟨call, failed, last⟩ := left
  obtain ⟨before, after, rfl⟩ := List.append_of_mem failed
  refine ⟨before, call, after, rfl, fun n result returned => ?_⟩
  -- Calls end in the order in which they begin, so a later end would be that of a later call.
  have inOrder : ended (before ++ .failed thread call :: after) =
      ended before ++ call :: ended after := by
    rw [ended_append]
    exact congrArg _ (List.filterMap_cons_some rfl)
  have ends : n ∈ ended after := List.mem_filterMap.2 ⟨_, returned, rfl⟩
  have later : call < n := by
    have ordered := h.ordered
    rw [inOrder, List.pairwise_append, List.pairwise_cons] at ordered
    exact ordered.2.1.1 n ends
  have known : n < b.calls.length := h.known n (by simp [inOrder, ends])
  omega

theorem not_lastFailed_of_returned (log : List (CallReport α)) (thread call : Nat)
    (result : Except ClientError α) :
    ¬ LastFailed (log ++ [.returned thread call result]) thread := by
  rintro ⟨before, other, after, same, unreturned⟩
  rcases List.eq_nil_or_concat after with rfl | ⟨initial, report, rfl⟩
  · cases (List.append_inj' same rfl).2
  · have last : log ++ [.returned thread call result] =
        (before ++ .failed thread other :: initial) ++ [report] := by simpa using same
    cases (List.append_inj' last rfl).2
    exact unreturned call result (by simp)

namespace Crew

variable {c : Crew α} {log : List (CallReport α)}

/-- When a call returns its thread is outside of the bridge. -/
theorem outside_of_returned (h : Kept c.bridge c.places log) {happening : Happening α}
    {thread call : Nat} {result : Except ClientError α}
    (returned : c.report? happening = some (.returned thread call result)) :
    ((c.step happening).callers thread).frames = [] := by
  cases happening with
  | event s outside => cases returned
  | turn t =>
    rw [report?, act] at returned
    rw [step, act]
    cases turned c t with
    | rejected next owns =>
      rw [turn_rejected next owns] at returned
      cases returned
    | admitted next disowned =>
      rw [turn_admitted next disowned] at returned
      cases returned
    | blocked next after =>
      rw [after] at returned
      cases returned
    | proceeded next within moves after =>
      rw [after] at returned ⊢
      obtain rfl := outer_eq_nil h within
      cases returned
      cases proceeds moves
      simp

/-- Nothing of a call that has returned has the next one of its thread rejected. -/
theorem disowned_of_returned (h : Kept c.bridge c.places log) {happening : Happening α}
    {thread call : Nat} {result : Except ClientError α}
    (returned : c.report? happening = some (.returned thread call result)) :
    (c.step happening).bridge.owner ≠ some thread := by
  have after := kept_step h happening
  rw [returned, Option.toList_some] at after
  intro owns
  rcases (after.owner thread).1 owns with ⟨n, inside⟩ | left
  · have outside := outside_of_returned h returned
    simp [places, Caller.standings, outside] at inside
  · exact not_lastFailed_of_returned log thread call result (left.lastFailed after)

/-- A call is rejected exactly if its thread is inside of an earlier one, or was left behind in one
whose body failed, which takes that its latest call has failed. After a call has returned, with
whatever result, its thread is outside and can make the next one. A rejected call changes nothing
but that its thread has made it; its body is dropped. Without the calls from inside of calls a run
has the same bridge at its end, and the calls the same results. A call that nobody interrupts enters
the bridge and leaves it as a whole. -/
theorem rejected_without_trace (plan : Nat → List Call) (happenings : List (Happening α)) :
    let c := (start plan).run happenings
    let log := (start plan).reports happenings
    (∀ t call, (c.callers t).next? = some call →
      (c.report? (.turn t) = some (.rejected t reentrant) ↔
        c.bridge.enter t call.timeoutMs = .rejected) ∧
      (c.bridge.enter t call.timeoutMs = .rejected ↔ c.Inside t ∨ LeftBehind c.bridge log t) ∧
      (¬ LastFailed log t →
        (c.bridge.enter t call.timeoutMs = .rejected ↔ c.Inside t)) ∧
      (c.bridge.enter t call.timeoutMs = .rejected →
        c.step (.turn t) = c.set c.bridge t (c.callers t).skip)) ∧
    (∀ happening t n result, c.report? happening = some (.returned t n result) →
      ¬ (c.step happening).Inside t ∧
        ∀ timeoutMs, (c.step happening).bridge.enter t timeoutMs ≠ .rejected) ∧
    (start fun t => (plan t).map Call.bare).run ((start plan).others happenings) = c.bare ∧
    ((start fun t => (plan t).map Call.bare).reports ((start plan).others happenings)).filter
        (·.ended?.isSome) = log.filter (·.ended?.isSome) ∧
    (∀ t call n b, (c.callers t).next? = some call →
      c.bridge.enter t call.timeoutMs = .started n b →
      c.run [.turn t, .turn t, .turn t, .turn t] =
        c.set b t { (c.callers t).skip with
          frames := ⟨.running n, call⟩ :: (c.callers t).skip.frames }) ∧
    ∀ t rest outer n result b, (c.callers t).frames = ⟨.awaiting n, rest⟩ :: outer →
      c.bridge.leave n = some (result, b) →
      c.run [.turn t, .turn t, .turn t] = c.set b t { c.callers t with frames := outer } ∧
        c.reports [.turn t, .turn t, .turn t] = [.returned t n result] := by
  intro c log
  have kept : Kept c.bridge c.places log := kept_start plan happenings
  obtain ⟨same, ends⟩ := run_bare (kept_start plan []) happenings
  refine ⟨fun t call next => ⟨?_, ?_, fun returned => ?_, fun rejected => ?_⟩, ?_, same, ends,
    fun t call n b next entered => run_enter next entered,
    fun t rest outer n result b within left => run_leave within left⟩
  · rw [enter_eq_rejected_iff]
    exact report_eq_rejected_iff next
  · rw [enter_eq_rejected_iff]
    exact owns_iff kept next
  · rw [enter_eq_rejected_iff, owns_iff kept next]
    exact or_iff_left fun left => returned (left.lastFailed kept)
  · have owns := enter_eq_rejected rejected
    rw [step, act, turn_rejected next owns]
  · intro happening t n result returned
    refine ⟨fun inside => inside (outside_of_returned kept returned), fun timeoutMs rejected => ?_⟩
    exact disowned_of_returned kept returned (enter_eq_rejected rejected)

/-- A call from inside of a call is rejected, that of another thread at the same time is not. -/
theorem nested_call_rejected :
    let nested : Call := ⟨50, [], false⟩
    let other : Call := ⟨70, [], false⟩
    let plan : Nat → List Call := fun t =>
      if t = 1 then [⟨100, [nested], false⟩] else if t = 2 then [other] else []
    let happenings : List (Happening Nat) := [.turn 1, .turn 1, .turn 1, .turn 1]
    let c := (start plan).run happenings
    (c.callers 1).next? = some nested ∧ (c.callers 2).next? = some other ∧
      c.report? (.turn 1) = some (.rejected 1 reentrant) ∧
      c.step (.turn 1) = c.set c.bridge 1 (c.callers 1).skip ∧
      c.report? (.turn 2) ≠ some (.rejected 2 reentrant) := by
  intro nested other plan happenings c
  obtain ⟨calls, -⟩ := rejected_without_trace plan happenings
  have next₁ : (c.callers 1).next? = some nested := rfl
  have next₂ : (c.callers 2).next? = some other := rfl
  have inside : c.Inside 1 := List.cons_ne_nil _ _
  have outside : ¬ c.Inside 2 := fun inside => inside rfl
  have unfailed (t : Nat) : ¬ LastFailed ((start plan).reports happenings) t := by
    rintro ⟨before, call, after, log, -⟩
    have none : (start plan).reports happenings = [] := rfl
    rw [none] at log
    cases before <;> cases log
  obtain ⟨reported₁, -, enters₁, dropped⟩ := calls 1 nested next₁
  obtain ⟨reported₂, -, enters₂, -⟩ := calls 2 other next₂
  have rejected := (enters₁ (unfailed 1)).2 inside
  refine ⟨next₁, next₂, reported₁.2 rejected, dropped rejected, fun reported => ?_⟩
  exact outside ((enters₂ (unfailed 2)).1 (reported₂.1 reported))

/-- The thread of a failed body is outside of the bridge, and its next call is rejected. -/
theorem rejected_after_failure :
    ¬ ∀ (plan : Nat → List Call) (happenings : List (Happening Nat)) (t : Nat) (call : Call),
      let c := (start plan).run happenings
      (c.callers t).next? = some call →
        (c.report? (.turn t) = some (.rejected t reentrant) ↔ c.Inside t) := by
  intro always
  let plan : Nat → List Call := fun _ => [⟨5000, [], true⟩, ⟨5000, [], false⟩]
  let happenings : List (Happening Nat) := [.turn 0, .turn 0, .turn 0, .turn 0, .turn 0]
  have rejected : ((start plan).run happenings).report? (.turn 0) = some (.rejected 0 reentrant) :=
    rfl
  exact (always plan happenings 0 ⟨5000, [], false⟩ rfl).1 rejected rfl

end Crew

end EndpointMonitor.Bridge
