import EndpointMonitor.Proofs.Queue.Task

/-!
What a serial queue promises. Its jobs run one at a time and in the order of their submission, all
of them can be run from wherever the task is, and how a job ends makes no difference to the others.
-/

namespace EndpointMonitor

variable {α : Type}

namespace Workshop

variable {w : Workshop α} {done : List (α × Bool)} {q : SerialQueue α} {submitted : List α}

/-! ### The task makes progress -/

/-- The task and the pool can get from here to where these jobs have ended and those are left. -/
def Serves (w : Workshop α) (done : List (α × Bool)) (rest submitted : List α) : Prop :=
  ∃ own : List (WorkStep α), (∀ step ∈ own, step.isOwn = true) ∧
    ∃ q, q.outstanding = rest ∧ Orderly (w.run own) done q submitted

theorem serves_of_step (step : WorkStep α) {rest : List α} (isOwn : step.isOwn = true)
    (serves : (w.step step).Serves done rest submitted) : w.Serves done rest submitted := by
  obtain ⟨own, all, further⟩ := serves
  exact ⟨step :: own, List.forall_mem_cons.2 ⟨isOwn, all⟩, further⟩

theorem serves_running (h : Orderly w done q submitted) {job : α} (running : q.running = some job)
    (failed : Bool) : w.Serves (done ++ [(job, failed)]) q.waiting submitted :=
  ⟨[.finish done.length failed], by simp [WorkStep.isOwn], q.finish, rfl,
    finish_running h running failed⟩

theorem serves_awaiting (h : Orderly w done q submitted) (place : w.place = .awaiting done.length)
    {job : α} {rest : List α} (next : q.outstanding = job :: rest) (failed : Bool) :
    w.Serves (done ++ [(job, failed)]) rest submitted := by
  cases h.stands with
  | receiving | holding | ended => cases place
  | unnoticed last =>
    have apart := TaskPlace.awaiting.inj place
    simp at apart
  | queued =>
    cases next
    exact serves_of_step (.begin done.length) rfl
      (serves_running (begin_queued h rfl rfl) rfl failed)
  | running =>
    cases next
    exact serves_running h rfl failed

theorem serves_holding (h : Orderly w done q submitted) {other : α}
    (place : w.place = .holding other) {job : α} {rest : List α}
    (next : q.outstanding = job :: rest) (failed : Bool) :
    w.Serves (done ++ [(job, failed)]) rest submitted := by
  have awaits : w.handOver.place = .awaiting done.length := by
    cases h.stands <;> cases place
    simp [handOver]
  exact serves_of_step .handOver rfl
    (serves_awaiting (orderly_handOver h) awaits next failed)

theorem serves_receiving (h : Orderly w done q submitted) (place : w.place = .receiving)
    {job : α} {rest : List α} (next : q.outstanding = job :: rest) (failed : Bool) :
    w.Serves (done ++ [(job, failed)]) rest submitted := by
  have holds : w.receive.place = .holding job := by
    cases h.stands <;> cases place
    cases next
    rfl
  exact serves_of_step .receive rfl (serves_holding (orderly_receive h) holds next failed)

/-- From wherever the task is, the next job can be run, and it can end in either way. -/
theorem serves_next (h : Orderly w done q submitted) {job : α} {rest : List α}
    (next : q.outstanding = job :: rest) (failed : Bool) :
    w.Serves (done ++ [(job, failed)]) rest submitted := by
  cases h.stands with
  | receiving => exact serves_receiving h rfl next failed
  | holding => exact serves_holding h rfl next failed
  | queued | running => exact serves_awaiting h rfl next failed
  | unnoticed last =>
    refine serves_of_step .resume rfl (serves_receiving (orderly_resume h) ?_ next failed)
    simp [resume, gone]
  | ended => cases next

/-- The task can go through all that is left, in order, and each job can end in either way. -/
theorem serves_all (h : Orderly w done q submitted) (failures : List Bool)
    (all : failures.length = q.outstanding.length) :
    w.Serves (done ++ q.outstanding.zip failures) [] submitted := by
  induction failures generalizing w done q with
  | nil =>
    have nothing : q.outstanding = [] := List.length_eq_zero_iff.1 all.symm
    refine ⟨[], by simp, q, nothing, ?_⟩
    rw [nothing, List.zip_nil_left, List.append_nil]
    exact h
  | cons failed failures further =>
    obtain ⟨job, rest, next⟩ := List.exists_cons_of_length_eq_add_one all.symm
    obtain ⟨own, isOwn, q', left, orderly⟩ := serves_next h next failed
    rw [next, List.length_cons, List.length_cons, ← left] at all
    obtain ⟨own', isOwn', served⟩ := further orderly (Nat.succ.inj all)
    refine ⟨own ++ own', fun step within => ?_, ?_⟩
    · exact (List.mem_append.1 within).elim (isOwn step) (isOwn' step)
    · rw [run_append, next, ← left, List.zip_cons_cons, List.append_cons]
      exact served

/-- Once the task has ended nothing happens any more. -/
theorem run_of_ended (h : Orderly w done q submitted) (closed : w.place = .ended)
    (steps : List (WorkStep α)) : w.run steps = w := by
  have still (step : WorkStep α) : w.step step = w := by
    cases h.stands <;> cases closed
    cases step with
    | begin n =>
      rcases begin_cases _ n with same | ⟨job, found⟩
      · exact same
      · cases isEnded_of_gone found
    | finish n failed =>
      rcases finish_cases _ n failed with same | ⟨job, found⟩
      · exact same
      · cases isEnded_of_gone found
    | _ => rfl
  induction steps with
  | nil => rfl
  | cons step steps further =>
    rw [run, List.foldl_cons, still step]
    exact further

end Workshop

/-! ### How jobs end makes no difference -/

def Stage.blind : Stage → Stage
  | .queued => .queued
  | .running => .running
  | .ended _ => .ended false

def JobEvent.blind : JobEvent α → JobEvent α
  | .began job => .began job
  | .ended job _ => .ended job false

def WorkStep.blind : WorkStep α → WorkStep α
  | .finish n _ => .finish n false
  | step => step

namespace Workshop

/-- All of it without how the jobs ended. -/
def blind (w : Workshop α) : Workshop α :=
  { w with
    pool := w.pool.map fun x => (x.1, x.2.blind)
    trace := w.trace.map JobEvent.blind }

theorem blind_step (w : Workshop α) (step : WorkStep α) :
    (w.step step).blind = w.blind.step step.blind := by
  obtain ⟨buffer, handles, place, pool, trace⟩ := w
  cases step with
  | clone | release => rfl
  | submit job =>
    by_cases given : handles = 0 <;> simp [Workshop.step, WorkStep.blind, blind, given]
  | receive =>
    cases place with
    | receiving =>
      cases buffer with
      | nil =>
        by_cases given : handles = 0 <;>
          simp [Workshop.step, WorkStep.blind, receive, blind, given]
      | cons job rest => rfl
    | _ => rfl
  | handOver =>
    cases place with
    | holding job => simp [Workshop.step, WorkStep.blind, handOver, blind, Stage.blind]
    | _ => rfl
  | resume =>
    cases place with
    | awaiting n =>
      cases found : pool[n]? with
      | none => simp [Workshop.step, WorkStep.blind, resume, blind, found]
      | some x =>
        obtain ⟨job, stage⟩ := x
        cases stage <;> simp [Workshop.step, WorkStep.blind, resume, blind, Stage.blind, found]
    | _ => rfl
  -- Whether a job can begin or end depends on its stage, but not on how it ended.
  | begin n =>
    cases found : pool[n]? with
    | none => simp [Workshop.step, WorkStep.blind, begin, blind, found]
    | some x =>
      obtain ⟨job, stage⟩ := x
      cases stage <;>
        simp [Workshop.step, WorkStep.blind, begin, blind, Stage.blind, JobEvent.blind, found,
          List.map_set]
  | finish n failed =>
    cases found : pool[n]? with
    | none => simp [Workshop.step, WorkStep.blind, finish, blind, found]
    | some x =>
      obtain ⟨job, stage⟩ := x
      cases stage <;>
        simp [Workshop.step, WorkStep.blind, finish, blind, Stage.blind, JobEvent.blind, found,
          List.map_set]

theorem blind_run (w : Workshop α) (steps : List (WorkStep α)) :
    (w.run steps).blind = w.blind.run (steps.map WorkStep.blind) := by
  induction steps generalizing w with
  | nil => rfl
  | cons step steps further =>
    rw [run, List.foldl_cons, List.map_cons, run, List.foldl_cons, ← blind_step]
    exact further (w.step step)

/-! ### One job after another -/

/-- At every moment of a run the pool runs at most one job, the jobs that have ended have had their
turns one after the other, and those that have begun are a prefix of what was submitted; the queue
has come there by what a serial queue does. When the task waits and the channel is empty, all jobs
have ended; it only ends itself when they have, and then nothing happens any more. From every moment
on it can go through all that is left, and each job can end in either way; how jobs end is all that
changes with it. -/
theorem one_job_after_another (steps : List (WorkStep α)) :
    let w := (start : Workshop α).run steps
    let submitted := WorkStep.submissions 1 steps
    w.running.length ≤ 1 ∧ w.started <+: submitted ∧ w.started = w.finished ++ w.running ∧
    (∃ done q, Relation.ReflTransGen SerialQueue.Moves (.empty : SerialQueue α) q ∧
      w.running = q.running.toList ∧ w.started ++ q.waiting = submitted ∧
      w.trace = done.flatMap turnOf ++ w.running.map .began ∧
      (q.isIdle = true → w.finished = submitted) ∧
      ∀ failures : List Bool, failures.length = q.outstanding.length →
        ∃ own : List (WorkStep α), (∀ step ∈ own, step.isOwn = true) ∧
          (w.run own).finished = submitted ∧
          (w.run own).trace = (done ++ q.outstanding.zip failures).flatMap turnOf) ∧
    (w.place = .receiving → w.buffer = [] → w.finished = submitted) ∧
    (w.place = .ended → w.finished = submitted ∧ ∀ further, w.run further = w) ∧
    ∀ steps', steps'.map WorkStep.blind = steps.map WorkStep.blind →
      ((start : Workshop α).run steps').blind = w.blind := by
  intro w submitted
  obtain ⟨done, q, moves, orderly⟩ : ∃ done q, Relation.ReflTransGen SerialQueue.Moves .empty q ∧
      Orderly w done q submitted := orderly_run orderly_start steps
  have began := started_eq orderly
  have ended := finished_eq orderly
  have runs := running_eq orderly
  have accounted := orderly.accounted
  have all : w.started ++ q.waiting = submitted := by
    rw [began, List.append_assoc]
    exact accounted
  have through (nothing : q.outstanding = []) : w.finished = submitted := by
    rw [ended, ← List.append_nil (done.map Prod.fst), ← nothing]
    exact accounted
  refine ⟨?_, ⟨q.waiting, all⟩, ?_, ⟨done, q, moves, runs, all, ?_, fun idle => ?_,
    fun failures length => ?_⟩, fun place buffer => ?_, fun closed => ⟨?_, ?_⟩,
    fun steps' same => ?_⟩
  · rw [runs]
    exact Option.length_toList_le
  · rw [began, ended, runs]
  · rw [runs]
    exact orderly.seen
  · exact through (SerialQueue.isIdle_iff.1 idle)
  · obtain ⟨own, isOwn, q', nothing, served⟩ := serves_all orderly failures length
    refine ⟨own, isOwn, ?_, ?_⟩
    · rw [finished_eq served, ← served.accounted, nothing, List.append_nil]
    · have idle : q'.running = none := by
        cases running : q'.running with
        | none => rfl
        | some job => simp [SerialQueue.outstanding, running] at nothing
      rw [served.seen, idle, Option.toList_none, List.map_nil, List.append_nil]
  · exact through (outstanding_of_waiting orderly place buffer)
  · exact through (outstanding_of_ended orderly closed)
  · exact run_of_ended orderly closed
  · rw [blind_run, blind_run, same]

/-- A job that fails is followed by the next one, and the task ends after both. -/
theorem failed_job_followed :
    let steps : List (WorkStep Nat) :=
      [.submit 1, .clone, .submit 2, .receive, .handOver, .begin 0, .finish 0 true, .resume,
        .receive, .handOver, .begin 1, .finish 1 false, .resume]
    let calm : List (WorkStep Nat) :=
      [.submit 1, .clone, .submit 2, .receive, .handOver, .begin 0, .finish 0 false, .resume,
        .receive, .handOver, .begin 1, .finish 1 false, .resume]
    let w := (start : Workshop Nat).run steps
    let closed := (start : Workshop Nat).run (steps ++ [.release, .release, .receive])
    (w.place = .receiving ∧ w.buffer = [] ∧ w.finished = [1, 2]) ∧
      (closed.place = .ended ∧ closed.finished = [1, 2] ∧
        closed.run [.submit 3, .receive] = closed) ∧
      ((start : Workshop Nat).run calm).blind = w.blind := by
  intro steps calm w closed
  obtain ⟨-, -, -, -, idle, -, alike⟩ := one_job_after_another steps
  obtain ⟨-, -, -, -, -, ends, -⟩ :=
    one_job_after_another (steps ++ [.release, .release, .receive])
  obtain ⟨all, still⟩ := ends rfl
  exact ⟨⟨rfl, rfl, idle rfl rfl⟩, ⟨rfl, all, still _⟩, alike calm rfl⟩

end Workshop

end EndpointMonitor
