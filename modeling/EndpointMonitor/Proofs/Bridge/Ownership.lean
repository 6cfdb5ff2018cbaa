import EndpointMonitor.Proofs.Bridge.Callers

/-!
Who owns a bridge: in every run it is the thread that is inside of a call, or else the one whose
latest call has failed in its body; that one is left behind as the owner until another thread begins
a call.
-/

namespace EndpointMonitor.Bridge

variable {α : Type}

/-! ### Who owns the bridge -/

/-- How far a thread has come with a call: it stands in front of the lock; it has the lock; it is
inside of the call; it still has the lock, but has left the call. -/
inductive Standing where
  | waiting
  | locked
  | inside (call : Nat)
  | leaving (call : Nat)

def Standing.call? : Standing → Option Nat
  | .waiting | .locked => none
  | .inside call | .leaving call => some call

def Phase.standing : Phase α → Standing
  | .admitted => .waiting
  | .locked => .locked
  | .begun call | .running call | .awaiting call | .cleared call _ => .inside call
  | .disowned call _ => .leaving call

def Caller.standings (x : Caller α) : List Standing := x.frames.map (·.phase.standing)

def CallReport.ended? : CallReport α → Option Nat
  | .rejected _ _ => none
  | .returned _ call _ | .failed _ call => some call

/-- The calls that have ended, in order. -/
def ended (log : List (CallReport α)) : List Nat := log.filterMap CallReport.ended?

@[simp] theorem ended_append (log after : List (CallReport α)) :
    ended (log ++ after) = ended log ++ ended after := List.filterMap_append

theorem mem_ended_of_failed {log : List (CallReport α)} {thread call : Nat}
    (failed : .failed thread call ∈ log) : call ∈ ended log :=
  List.mem_filterMap.2 ⟨_, failed, rfl⟩

/-- The latest call that has begun was made by the thread, and its body has failed. -/
def LeftBehind (b : Bridge α) (log : List (CallReport α)) (thread : Nat) : Prop :=
  ∃ call, .failed thread call ∈ log ∧ call + 1 = b.calls.length

/-- At most one thread is past the lock. The owner is the thread that is inside of a call, or the
one that was left behind there. Calls end in the order in which they begin. -/
structure Kept (b : Bridge α) (places : Nat → List Standing) (log : List (CallReport α)) :
    Prop where
  single : ∀ t, (places t).length ≤ 1
  free : b.holder = none → ∀ t, ∀ s ∈ places t, s = .waiting
  alone : ∀ t t' s s', s ∈ places t → s' ∈ places t' → s ≠ .waiting → s' ≠ .waiting → t = t'
  owner : ∀ t, b.owner = some t ↔ (∃ call, .inside call ∈ places t) ∨ LeftBehind b log t
  newest : ∀ t s call, s ∈ places t → s.call? = some call →
    call + 1 = b.calls.length ∧ call ∉ ended log
  known : ∀ call ∈ ended log, call < b.calls.length
  ordered : (ended log).Pairwise (· < ·)

theorem mem_update {places : Nat → List Standing} {t t' : Nat} {l : List Standing} {s : Standing} :
    s ∈ Function.update places t l t' ↔ if t' = t then s ∈ l else s ∈ places t' := by
  by_cases same : t' = t
  · subst same
    simp
  · simp [same]

theorem kept_empty (places : Nat → List Standing) (outside : ∀ t, places t = []) :
    Kept (empty : Bridge α) places [] where
  single t := by simp [outside t]
  free _ t s within := by simp [outside t] at within
  alone t _ s _ within := by simp [outside t] at within
  owner t := by simp [outside t, LeftBehind, empty]
  newest t s _ within := by simp [outside t] at within
  known _ logged := by cases logged
  ordered := .nil

namespace Kept

variable {b b' : Bridge α} {places : Nat → List Standing} {log : List (CallReport α)} {t call : Nat}

/-- Neither the results of calls nor what is on record matter for who owns the bridge. -/
theorem of_same (h : Kept b places log) (holder : b'.holder = b.holder) (owner : b'.owner = b.owner)
    (length : b'.calls.length = b.calls.length) : Kept b' places log where
  single := h.single
  free := by
    rw [holder]
    exact h.free
  alone := h.alone
  owner := by
    rw [owner]
    simp only [LeftBehind, length]
    exact h.owner
  newest := by
    rw [length]
    exact h.newest
  known := by
    rw [length]
    exact h.known
  ordered := h.ordered

/-- A turn that leaves the thread where it stands. -/
theorem stay {s : Standing} (h : Kept b places log) (place : places t = [s]) (b' : Bridge α)
    (holder : b'.holder = b.holder) (owner : b'.owner = b.owner)
    (length : b'.calls.length = b.calls.length) :
    Kept b' (Function.update places t [s]) log := by
  rw [← place, Function.update_eq_self]
  exact h.of_same holder owner length

/-- A rejection does not matter. -/
theorem note (h : Kept b places log) (error : ClientError) :
    Kept b places (log ++ [.rejected t error]) := by
  have same : ended (log ++ [.rejected t error]) = ended log := by
    rw [ended_append, ended, ended, List.filterMap_cons_none rfl, List.filterMap_nil,
      List.append_nil]
  refine ⟨h.single, h.free, h.alone, ?_, ?_, ?_, ?_⟩
  · simpa [LeftBehind] using h.owner
  · rw [same]
    exact h.newest
  · rw [same]
    exact h.known
  · rw [same]
    exact h.ordered

/-- A call that ends is the latest one. -/
theorem close (h : Kept b places log) {report : CallReport α} (ends : report.ended? = some call)
    (newest : call + 1 = b.calls.length ∧ call ∉ ended log) :
    ended (log ++ [report]) = ended log ++ [call] ∧
      (∀ n ∈ ended log ++ [call], n < b.calls.length) ∧
      (ended log ++ [call]).Pairwise (· < ·) := by
  obtain ⟨last, unended⟩ := newest
  refine ⟨?_, fun n within => ?_, ?_⟩
  · rw [ended_append]
    exact congrArg _ (List.filterMap_cons_some ends)
  · rcases List.mem_append.1 within with before | now
    · exact h.known n before
    · obtain rfl := List.mem_singleton.1 now
      omega
  · refine List.pairwise_append.2
      ⟨h.ordered, List.pairwise_singleton _ _, fun n before m now => ?_⟩
    obtain rfl := List.mem_singleton.1 now
    have known := h.known n before
    have other : n ≠ m := by
      rintro rfl
      exact unended before
    omega

theorem arrive (h : Kept b places log) (outside : places t = []) :
    Kept b (Function.update places t [.waiting]) log := by
  have others {t' : Nat} {s : Standing} (within : s ∈ Function.update places t [.waiting] t') :
      s = .waiting ∨ s ∈ places t' := by
    rw [mem_update] at within
    split at within
    · exact .inl (List.mem_singleton.1 within)
    · exact .inr within
  constructor
  · intro t'
    by_cases same : t' = t
    · subst same
      simp
    · simpa [same] using h.single t'
  · intro free t' s within
    rcases others within with here | before
    · exact here
    · exact h.free free t' s before
  · intro t₁ t₂ s s' within within' past past'
    have before := (others within).resolve_left past
    have before' := (others within').resolve_left past'
    exact h.alone t₁ t₂ s s' before before' past past'
  · intro t'
    rw [h.owner t']
    by_cases same : t' = t
    · subst same
      simp [outside]
    · simp [same]
  · intro t' s call within known
    rcases others within with rfl | before
    · cases known
    · exact h.newest t' s call before known
  · exact h.known
  · exact h.ordered

/-- When one thread is past the others at the lock, only its place decides. -/
theorem move {places' : List Standing} {log' : List (CallReport α)} (h : Kept b places log)
    (waiting : ∀ t' ≠ t, ∀ s ∈ places t', s = .waiting) (single : places'.length ≤ 1)
    (free : b'.holder = none → ∀ s ∈ places', s = .waiting)
    (owner : ∀ t', b'.owner = some t' ↔
      (t' = t ∧ ∃ call, .inside call ∈ places') ∨ LeftBehind b' log' t')
    (newest : ∀ s call, s ∈ places' → s.call? = some call →
      call + 1 = b'.calls.length ∧ call ∉ ended log')
    (known : ∀ call ∈ ended log', call < b'.calls.length)
    (ordered : (ended log').Pairwise (· < ·)) :
    Kept b' (Function.update places t places') log' := by
  have past {t' : Nat} {s : Standing} (within : s ∈ Function.update places t places' t')
      (past : s ≠ .waiting) : t' = t ∧ s ∈ places' := by
    rw [mem_update] at within
    split at within
    · next same => exact ⟨same, within⟩
    · next other => exact absurd (waiting t' other s within) past
  constructor
  · intro t'
    by_cases same : t' = t
    · subst same
      simpa using single
    · simpa [same] using h.single t'
  · intro unheld t' s within
    by_contra beyond
    exact beyond (free unheld s (past within beyond).2)
  · intro t₁ t₂ s s' within within' beyond beyond'
    exact (past within beyond).1.trans (past within' beyond').1.symm
  · intro t'
    rw [owner t']
    refine or_congr_left ⟨?_, ?_⟩
    · rintro ⟨rfl, call, inside⟩
      exact ⟨call, by simpa using inside⟩
    · rintro ⟨call, inside⟩
      obtain ⟨same, here⟩ := past inside (by simp)
      exact ⟨same, call, here⟩
  · intro t' s call within known
    have beyond : s ≠ .waiting := by
      rintro rfl
      cases known
    exact newest s call (past within beyond).2 known
  · exact known
  · exact ordered

theorem waiting_of_past (h : Kept b places log) {s : Standing} (place : places t = [s])
    (beyond : s ≠ .waiting) : ∀ t' ≠ t, ∀ s' ∈ places t', s' = .waiting := by
  intro t' other s' within
  by_contra past
  exact other (h.alone t' t s' s within (by simp [place]) past beyond)

theorem lock (h : Kept b places log) (free : b.holder = none) (t n : Nat) :
    Kept { b with holder := some n } (Function.update places t [.locked]) log := by
  refine h.move (fun t' _ => h.free free t') (by simp) (by simp) (fun t' => ?_) ?_ h.known h.ordered
  · have nobody (call : Nat) : .inside call ∉ places t' := by
      intro inside
      cases h.free free t' _ inside
    simpa [nobody, LeftBehind] using h.owner t'
  · intro s call within known
    obtain rfl := List.mem_singleton.1 within
    cases known

/-- The thread that begins a call becomes the owner, even if another one was left behind. -/
theorem begin (h : Kept b places log) (place : places t = [.locked]) (timeoutMs : UInt64) :
    Kept (b.begin t timeoutMs) (Function.update places t [.inside b.calls.length]) log := by
  have longer : (b.begin t timeoutMs).calls.length = b.calls.length + 1 := by simp [Bridge.begin]
  refine h.move (h.waiting_of_past place (by simp)) (by simp) ?_ (fun t' => ?_) ?_ ?_ h.ordered
  · intro unheld
    have locked := h.free unheld t .locked (by simp [place])
    cases locked
  · have current : ¬ LeftBehind (b.begin t timeoutMs) log t' := by
      rintro ⟨call, failed, last⟩
      have before := h.known call (mem_ended_of_failed failed)
      omega
    have owns : (b.begin t timeoutMs).owner = some t := rfl
    simp [current, owns, eq_comm]
  · intro s call within known
    obtain rfl := List.mem_singleton.1 within
    cases known
    exact ⟨longer.symm, fun before => Nat.lt_irrefl _ (h.known _ before)⟩
  · intro call before
    have known := h.known call before
    omega

/-- The thread of a failed body is left behind as the owner. -/
theorem fail (h : Kept b places log) (place : places t = [.inside call]) :
    Kept (b.abandon call) (Function.update places t []) (log ++ [.failed t call]) := by
  have inside : .inside call ∈ places t := by simp [place]
  have newest := h.newest t _ call inside rfl
  have ends : (CallReport.failed t call : CallReport α).ended? = some call := rfl
  obtain ⟨grown, known, ordered⟩ := h.close ends newest
  have settled := settle_advances b call (.error .notConnected)
  have length : (b.abandon call).calls.length = b.calls.length := settled.length_eq
  have owns : (b.abandon call).owner = some t :=
    settled.owner.trans ((h.owner t).2 (.inl ⟨call, inside⟩))
  rw [← grown, ← length] at known
  refine h.move (h.waiting_of_past place (by simp)) (by simp) (by simp) (fun t' => ?_) (by simp)
    known (grown ▸ ordered)
  rw [owns]
  constructor
  · rintro ⟨⟩
    exact .inr ⟨call, by simp, by omega⟩
  · rintro (⟨-, _, none⟩ | ⟨other, failed, last⟩)
    · cases none
    · obtain rfl : other = call := by omega
      rcases List.mem_append.1 failed with before | now
      · exact absurd (mem_ended_of_failed before) newest.2
      · cases List.mem_singleton.1 now
        rfl

theorem disown (h : Kept b places log) (place : places t = [.inside call]) :
    Kept { b with owner := none } (Function.update places t [.leaving call]) log := by
  have newest := h.newest t (.inside call) call (by simp [place]) rfl
  refine h.move (h.waiting_of_past place (by simp)) (by simp) ?_ (fun t' => ?_) ?_ h.known h.ordered
  · intro unheld
    have inside := h.free unheld t (.inside call) (by simp [place])
    cases inside
  · have nobody : ¬ LeftBehind { b with owner := none } log t' := by
      rintro ⟨other, failed, last⟩
      obtain rfl : other = call := by
        have same := newest.1
        simp only at last
        omega
      exact newest.2 (mem_ended_of_failed failed)
    simp [nobody]
  · intro s other within known
    obtain rfl := List.mem_singleton.1 within
    cases known
    exact newest

theorem unlock (h : Kept b places log) (place : places t = [.leaving call])
    (result : Except ClientError α) :
    Kept { b with holder := none } (Function.update places t [])
      (log ++ [.returned t call result]) := by
  have waiting := h.waiting_of_past place (by simp)
  have newest := h.newest t (.leaving call) call (by simp [place]) rfl
  have ends : (CallReport.returned t call result).ended? = some call := rfl
  obtain ⟨grown, known, ordered⟩ := h.close ends newest
  refine h.move waiting (by simp) (by simp) (fun t' => ?_) (by simp) (grown ▸ known)
    (grown ▸ ordered)
  have nobody (other : Nat) : .inside other ∉ places t' := by
    intro inside
    by_cases same : t' = t
    · subst same
      simp [place] at inside
    · cases waiting t' same _ inside
  simpa [nobody, LeftBehind] using h.owner t'

end Kept

/-! ### Turns and events -/

theorem advances_of_outside {b : Bridge α} {s : Step α} (outside : s.isOutside = true) :
    Advances b (b.step s) := by
  rcases step_cases b s with
    ⟨_, _, rfl, -⟩ | ⟨_, _, rfl, -⟩ | ⟨-, -, further⟩
  · cases outside
  · cases outside
  · exact further

theorem Caller.standings_skip (x : Caller α) : x.skip.standings = x.standings := by
  obtain ⟨frames, todo⟩ := x
  cases frames <;> rfl

/-- A thread that makes a call is inside of one that runs its body, or outside. -/
theorem Caller.next_cases {x : Caller α} {call : Call} (next : x.next? = some call) :
    x.frames = [] ∨ ∃ n rest outer, x.frames = ⟨.running n, rest⟩ :: outer := by
  obtain ⟨frames, todo⟩ := x
  cases frames with
  | nil => exact .inl rfl
  | cons f outer =>
    obtain ⟨phase, rest⟩ := f
    cases phase with
    | running n => exact .inr ⟨n, rest, outer, rfl⟩
    | _ => cases next

namespace Crew

variable {c : Crew α} {log : List (CallReport α)} {thread : Nat}

def places (c : Crew α) (thread : Nat) : List Standing := (c.callers thread).standings

theorem places_set (c : Crew α) (b : Bridge α) (thread : Nat) (x : Caller α) :
    (c.set b thread x).places = Function.update c.places thread x.standings := by
  funext t
  by_cases same : t = thread
  · subst same
    simp [places]
  · simp [places, set, same]

theorem inside_of_running {n : Nat} {rest : Call} {outer : List (Frame α)}
    (within : (c.callers thread).frames = ⟨.running n, rest⟩ :: outer) :
    .inside n ∈ c.places thread := by
  simp [places, Caller.standings, within, Phase.standing]

/-- A thread that can make a call owns the bridge if it is inside of a call, or was left behind. -/
theorem owns_iff (h : Kept c.bridge c.places log) {call : Call}
    (next : (c.callers thread).next? = some call) :
    c.bridge.owner = some thread ↔
      (c.callers thread).frames ≠ [] ∨ LeftBehind c.bridge log thread := by
  rw [h.owner thread]
  refine or_congr_left ⟨?_, fun within => ?_⟩
  · rintro ⟨n, inside⟩ outside
    simp [places, Caller.standings, outside] at inside
  · rcases Caller.next_cases next with outside | ⟨n, rest, outer, running⟩
    · exact absurd outside within
    · exact ⟨n, inside_of_running running⟩

/-- A thread that has no call inside of the one that it is making is inside of that one only. -/
theorem outer_eq_nil (h : Kept c.bridge c.places log) {f : Frame α} {outer : List (Frame α)}
    (within : (c.callers thread).frames = f :: outer) : outer = [] := by
  have single := h.single thread
  simp only [places, Caller.standings, within, List.map_cons, List.length_cons,
    List.length_map] at single
  exact List.length_eq_zero_iff.1 (by omega)

theorem kept_turn (h : Kept c.bridge c.places log) (thread : Nat) :
    Kept (c.turn thread).1.bridge (c.turn thread).1.places
      (log ++ (c.turn thread).2.toList) := by
  cases turned c thread with
  | rejected next owns =>
    rw [turn_rejected next owns]
    simp only [bridge_set, places_set, Caller.standings_skip]
    rw [show (c.callers thread).standings = c.places thread from rfl, Function.update_eq_self]
    exact h.note reentrant
  | admitted next disowned =>
    rw [turn_admitted next disowned]
    have outside : (c.callers thread).frames = [] := by
      by_contra within
      exact disowned ((owns_iff h next).2 (.inl within))
    have place : c.places thread = [] := by simp [places, Caller.standings, outside]
    have waits := h.arrive place
    simpa [places_set, Caller.standings, Caller.skip, outside, Phase.standing] using waits
  | @proceeded f outer b left report next within moves after =>
    rw [after]
    obtain rfl := outer_eq_nil h within
    have place : c.places thread = [f.phase.standing] := by
      simp only [places, Caller.standings, within, List.map_cons, List.map_nil]
    simp only [bridge_set, places_set, Caller.standings]
    -- Three of the turns leave the thread where it stands, whatever else they change.
    cases proceeds moves with
    | locks free => simpa [Phase.standing] using h.lock free thread _
    | begins => simpa [Phase.standing] using h.begin place _
    | @registers call =>
      have stays := h.stay place { c.bridge with pending := some call } rfl rfl rfl
      simpa [Phase.standing] using stays
    | waits =>
      have stays := h.stay place c.bridge rfl rfl rfl
      simpa [Phase.standing] using stays
    | clears decided =>
      have stays := h.stay place { c.bridge with pending := none } rfl rfl rfl
      simpa [Phase.standing] using stays
    | fails => simpa using h.fail place
    | disowns => simpa [Phase.standing] using h.disown place
    | returns => simpa using h.unlock place _
  | blocked next after =>
    rw [after]
    simpa using h

theorem kept_step (h : Kept c.bridge c.places log) (happening : Happening α) :
    Kept (c.step happening).bridge (c.step happening).places
      (log ++ (c.report? happening).toList) := by
  cases happening with
  | turn thread => exact kept_turn h thread
  | event s outside =>
    have further := advances_of_outside (b := c.bridge) outside
    rw [report?, act, Option.toList_none, List.append_nil]
    exact h.of_same further.holder further.owner further.length_eq

theorem kept_run (h : Kept c.bridge c.places log) (happenings : List (Happening α)) :
    Kept (c.run happenings).bridge (c.run happenings).places (log ++ c.reports happenings) := by
  induction happenings generalizing c log with
  | nil => simpa [run, reports] using h
  | cons happening happenings further =>
    have kept := further (kept_step h happening)
    rw [List.append_assoc] at kept
    exact kept

/-- In every run the owner is known from where the threads stand and from which bodies failed. -/
theorem kept_start (plan : Nat → List Call) (happenings : List (Happening α)) :
    Kept ((start plan).run happenings).bridge ((start plan).run happenings).places
      ((start plan).reports happenings) := by
  have outside (t : Nat) : (start plan : Crew α).places t = [] := rfl
  have before : Kept (start plan : Crew α).bridge (start plan).places [] := kept_empty _ outside
  have kept := kept_run before happenings
  rwa [List.nil_append] at kept

end Crew

end EndpointMonitor.Bridge
