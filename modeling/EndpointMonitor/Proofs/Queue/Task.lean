import EndpointMonitor.Queue
import Mathlib.Logic.Relation

/-!
A serial queue at work. Jobs are submitted through any of its handles into a channel. A task takes
them from there one by one, hands each to a pool of threads, which runs it some time, and waits for
its end. The task ends when there are no handles left and the channel is empty. At every moment the
jobs that have not ended stand in a serial queue, one behind the other.
-/

namespace EndpointMonitor

variable {α : Type}

namespace SerialQueue

variable {q rest : SerialQueue α} {job : α}

theorem waiting_of_start (turn : q.start? = some (job, rest)) :
    q.waiting = job :: rest.waiting := by
  unfold start? at turn
  split at turn
  · next first others free waiting =>
    obtain ⟨rfl, rfl⟩ := Prod.mk.inj (Option.some.inj turn)
    exact waiting
  · cases turn

theorem running_of_start (turn : q.start? = some (job, rest)) : rest.running = some job := by
  unfold start? at turn
  split at turn
  · next first others free waiting =>
    obtain ⟨rfl, rfl⟩ := Prod.mk.inj (Option.some.inj turn)
    rfl
  · cases turn

/-- The jobs that have not ended. -/
def outstanding (q : SerialQueue α) : List α := q.running.toList ++ q.waiting

theorem isIdle_iff : q.isIdle = true ↔ q.outstanding = [] := by
  simp [isIdle, outstanding, and_comm]

/-- What can become of a queue at once. -/
inductive Moves : SerialQueue α → SerialQueue α → Prop where
  | submits (q : SerialQueue α) (job : α) : Moves q (q.submit job)
  | starts {q rest : SerialQueue α} {job : α} (turn : q.start? = some (job, rest)) : Moves q rest
  | finishes {q : SerialQueue α} {job : α} (running : q.running = some job) : Moves q q.finish

end SerialQueue

/-! ### The task and its pool -/

/-- How far a job has come that was handed to the pool. -/
inductive Stage where
  | queued
  | running
  | ended (failed : Bool)

def Stage.isEnded : Stage → Bool
  | .queued | .running => false
  | .ended _ => true

/-- Where the task is: it waits for a job, it has one in its hands, it waits for the end of one on
the pool, or it has ended itself. -/
inductive TaskPlace (α : Type) where
  | receiving
  | holding (job : α)
  | awaiting (n : Nat)
  | ended

/-- What is seen of a job: it begins to run, and it ends, well or not. -/
inductive JobEvent (α : Type) where
  | began (job : α)
  | ended (job : α) (failed : Bool)

/-- The jobs in the channel, the number of handles, the task, all jobs that were ever handed to the
pool, and all that was seen of them. -/
structure Workshop (α : Type) where
  buffer : List α
  handles : Nat
  place : TaskPlace α
  pool : List (α × Stage)
  trace : List (JobEvent α)

/-- A handle is cloned or given up, or a job is submitted through some handle; the task takes a job,
hands it on, or notices its end; the pool begins to run a job, or a job ends. -/
inductive WorkStep (α : Type) where
  | clone
  | release
  | submit (job : α)
  | receive
  | handOver
  | resume
  | begin (n : Nat)
  | finish (n : Nat) (failed : Bool)

namespace WorkStep

/-- How many handles there are after the step. -/
def handles (n : Nat) : WorkStep α → Nat
  | .clone => if n = 0 then 0 else n + 1
  | .release => n - 1
  | _ => n

/-- Nobody can submit a job without a handle. -/
def submitted? (n : Nat) : WorkStep α → Option α
  | .submit job => if n = 0 then none else some job
  | _ => none

/-- The jobs that are submitted in a run that begins with some number of handles. -/
def submissions : Nat → List (WorkStep α) → List α
  | _, [] => []
  | n, step :: steps => (step.submitted? n).toList ++ submissions (step.handles n) steps

theorem of_submitted {step : WorkStep α} {n : Nat} {job : α}
    (submits : step.submitted? n = some job) : step = .submit job ∧ n ≠ 0 := by
  cases step with
  | submit other =>
    by_cases given : n = 0
    · simp [submitted?, given] at submits
    · rw [submitted?, if_neg given] at submits
      cases submits
      exact ⟨rfl, given⟩
  | _ => cases submits

/-- The step is one of the task or of the pool. -/
def isOwn : WorkStep α → Bool
  | .clone | .release | .submit _ => false
  | .receive | .handOver | .resume | .begin _ | .finish _ _ => true

end WorkStep

namespace Workshop

def start : Workshop α := ⟨[], 1, .receiving, [], []⟩

def receive (w : Workshop α) : Workshop α :=
  match w.place, w.buffer with
  | .receiving, job :: rest => { w with place := .holding job, buffer := rest }
  | .receiving, [] => if w.handles = 0 then { w with place := .ended } else w
  | _, _ => w

def handOver (w : Workshop α) : Workshop α :=
  match w.place with
  | .holding job =>
    { w with place := .awaiting w.pool.length, pool := w.pool ++ [(job, .queued)] }
  | _ => w

def resume (w : Workshop α) : Workshop α :=
  match w.place with
  | .awaiting n =>
    match w.pool[n]? with
    | some (_, .ended _) => { w with place := .receiving }
    | _ => w
  | _ => w

def begin (w : Workshop α) (n : Nat) : Workshop α :=
  match w.pool[n]? with
  | some (job, .queued) =>
    { w with pool := w.pool.set n (job, .running), trace := w.trace ++ [.began job] }
  | _ => w

def finish (w : Workshop α) (n : Nat) (failed : Bool) : Workshop α :=
  match w.pool[n]? with
  | some (job, .running) =>
    { w with pool := w.pool.set n (job, .ended failed), trace := w.trace ++ [.ended job failed] }
  | _ => w

def step (w : Workshop α) : WorkStep α → Workshop α
  | .clone => { w with handles := if w.handles = 0 then 0 else w.handles + 1 }
  | .release => { w with handles := w.handles - 1 }
  | .submit job => if w.handles = 0 then w else { w with buffer := w.buffer ++ [job] }
  | .receive => w.receive
  | .handOver => w.handOver
  | .resume => w.resume
  | .begin n => w.begin n
  | .finish n failed => w.finish n failed

def run (w : Workshop α) (steps : List (WorkStep α)) : Workshop α := steps.foldl step w

theorem run_append (w : Workshop α) (steps steps' : List (WorkStep α)) :
    w.run (steps ++ steps') = (w.run steps).run steps' := List.foldl_append

/-! ### What is seen -/

/-- The jobs that have begun, in order. -/
def started (w : Workshop α) : List α :=
  w.trace.filterMap fun
    | .began job => some job
    | .ended _ _ => none

/-- The jobs that have ended, in order. -/
def finished (w : Workshop α) : List α :=
  w.trace.filterMap fun
    | .began _ => none
    | .ended job _ => some job

/-- The jobs that the pool is running. -/
def running (w : Workshop α) : List α :=
  w.pool.filterMap fun
    | (job, .running) => some job
    | _ => none

end Workshop

/-- All that is seen of a job once it has ended. -/
def turnOf (job : α × Bool) : List (JobEvent α) := [.began job.1, .ended job.1 job.2]

/-- A job on the pool that has ended. -/
def gone (job : α × Bool) : α × Stage := (job.1, .ended job.2)

/-- Where the jobs are: those that have ended on the pool, the others in a serial queue. Only the
latest job on the pool can be one that has not ended, and then the task waits for it. -/
inductive Stands : Workshop α → List (α × Bool) → SerialQueue α → Prop where
  | receiving {buffer : List α} {handles : Nat} {done : List (α × Bool)}
      {trace : List (JobEvent α)} :
    Stands ⟨buffer, handles, .receiving, done.map gone, trace⟩ done ⟨buffer, none⟩
  | holding {buffer : List α} {handles : Nat} {done : List (α × Bool)} {job : α}
      {trace : List (JobEvent α)} :
    Stands ⟨buffer, handles, .holding job, done.map gone, trace⟩ done ⟨job :: buffer, none⟩
  | queued {buffer : List α} {handles : Nat} {done : List (α × Bool)} {job : α}
      {trace : List (JobEvent α)} :
    Stands ⟨buffer, handles, .awaiting done.length, done.map gone ++ [(job, .queued)], trace⟩
      done ⟨job :: buffer, none⟩
  | running {buffer : List α} {handles : Nat} {done : List (α × Bool)} {job : α}
      {trace : List (JobEvent α)} :
    Stands ⟨buffer, handles, .awaiting done.length, done.map gone ++ [(job, .running)], trace⟩
      done ⟨buffer, some job⟩
  | unnoticed {buffer : List α} {handles : Nat} {done : List (α × Bool)} {trace : List (JobEvent α)}
      (job : α × Bool) :
    Stands ⟨buffer, handles, .awaiting done.length, done.map gone ++ [gone job], trace⟩
      (done ++ [job]) ⟨buffer, none⟩
  | ended {done : List (α × Bool)} {trace : List (JobEvent α)} :
    Stands ⟨[], 0, .ended, done.map gone, trace⟩ done ⟨[], none⟩

/-- The jobs that have ended have had their turns one after the other, and the running one has
begun. Those that have ended, the running one and those that wait are what was submitted, in
order. -/
structure Orderly (w : Workshop α) (done : List (α × Bool)) (q : SerialQueue α)
    (submitted : List α) : Prop where
  stands : Stands w done q
  seen : w.trace = done.flatMap turnOf ++ q.running.toList.map .began
  accounted : done.map Prod.fst ++ q.outstanding = submitted

namespace Workshop

variable {w : Workshop α} {done : List (α × Bool)} {q : SerialQueue α} {submitted : List α}
  {n : Nat}

/-! ### What a step does -/

theorem isEnded_of_gone {x : α × Stage} (found : (done.map gone)[n]? = some x) :
    x.2.isEnded = true := by
  rw [List.getElem?_map] at found
  obtain ⟨job, -, rfl⟩ := Option.map_eq_some_iff.1 found
  rfl

/-- A job on the pool that has not ended is the latest one. -/
theorem latest_of_going {entry x : α × Stage} (found : (done.map gone ++ [entry])[n]? = some x)
    (going : x.2.isEnded = false) : n = done.length ∧ entry = x := by
  have length : (done.map gone).length = done.length := List.length_map _
  by_cases earlier : n < done.length
  · rw [List.getElem?_append_left (by omega)] at found
    rw [isEnded_of_gone found] at going
    cases going
  · rw [List.getElem?_append_right (by omega), List.getElem?_singleton, length] at found
    split at found
    · exact ⟨by omega, Option.some.inj found⟩
    · cases found

theorem set_latest (entry entry' : α × Stage) :
    (done.map gone ++ [entry]).set done.length entry' = done.map gone ++ [entry'] := by
  simp

theorem getElem_latest (entry : α × Stage) :
    (done.map gone ++ [entry])[done.length]? = some entry := by
  simp

theorem begin_cases (w : Workshop α) (n : Nat) :
    w.begin n = w ∨ ∃ job, w.pool[n]? = some (job, .queued) := by
  unfold begin
  split
  · next job found => exact .inr ⟨job, found⟩
  · exact .inl rfl

theorem finish_cases (w : Workshop α) (n : Nat) (failed : Bool) :
    w.finish n failed = w ∨ ∃ job, w.pool[n]? = some (job, .running) := by
  unfold finish
  split
  · next job found => exact .inr ⟨job, found⟩
  · exact .inl rfl

theorem receive_cases (w : Workshop α) :
    w.receive = w ∨
      (∃ job rest, w.place = .receiving ∧ w.buffer = job :: rest ∧
        w.receive = { w with place := .holding job, buffer := rest }) ∨
      (w.place = .receiving ∧ w.buffer = [] ∧ w.handles = 0 ∧
        w.receive = { w with place := .ended }) := by
  unfold receive
  split
  · next job rest place buffer => exact .inr (.inl ⟨job, rest, place, buffer, rfl⟩)
  · next place buffer =>
    split
    · next given => exact .inr (.inr ⟨place, buffer, given, rfl⟩)
    · exact .inl rfl
  · exact .inl rfl

theorem handOver_cases (w : Workshop α) :
    w.handOver = w ∨ ∃ job, w.place = .holding job ∧ w.handOver =
      { w with place := .awaiting w.pool.length, pool := w.pool ++ [(job, .queued)] } := by
  unfold handOver
  split
  · next job place => exact .inr ⟨job, place, rfl⟩
  · exact .inl rfl

theorem resume_cases (w : Workshop α) :
    w.resume = w ∨ ∃ n job failed, w.place = .awaiting n ∧ w.pool[n]? = some (job, .ended failed) ∧
      w.resume = { w with place := .receiving } := by
  unfold resume
  split
  · next n place =>
    split
    · next job failed found => exact .inr ⟨n, job, failed, place, found, rfl⟩
    · exact .inl rfl
  · exact .inl rfl

/-! ### What every step keeps -/

/-- The pool begins to run the job that the task waits for. -/
theorem begin_queued (h : Orderly w done q submitted) (place : w.place = .awaiting done.length)
    {job : α} {rest : SerialQueue α} (turn : q.start? = some (job, rest)) :
    Orderly (w.begin done.length) done rest submitted := by
  obtain ⟨stands, seen, accounted⟩ := h
  cases stands with
  | receiving | holding | ended => cases place
  | running => cases turn
  | unnoticed last =>
    have apart := TaskPlace.awaiting.inj place
    simp at apart
  | queued =>
    cases turn
    simp only [begin, getElem_latest, set_latest]
    exact ⟨.running, by simpa using seen, accounted⟩

/-- The running job ends, and has had its turn. -/
theorem finish_running (h : Orderly w done q submitted) {job : α} (running : q.running = some job)
    (failed : Bool) :
    Orderly (w.finish done.length failed) (done ++ [(job, failed)]) q.finish submitted := by
  obtain ⟨stands, seen, accounted⟩ := h
  cases stands with
  | receiving | holding | queued | unnoticed | ended => cases running
  | running =>
    cases running
    simp only [finish, getElem_latest, set_latest]
    refine ⟨.unnoticed (job, failed), ?_, ?_⟩
    · simp only at seen
      simp [seen, turnOf, SerialQueue.finish]
    · rw [← accounted]
      simp [SerialQueue.outstanding, SerialQueue.finish]

theorem orderly_begin (h : Orderly w done q submitted) (n : Nat) :
    ∃ q', (q' = q ∨ q.Moves q') ∧ Orderly (w.begin n) done q' submitted := by
  rcases begin_cases w n with same | ⟨job, found⟩
  · rw [same]
    exact ⟨q, .inl rfl, h⟩
  · cases h.stands with
    | receiving | holding | ended => cases isEnded_of_gone found
    | running | unnoticed last => cases (latest_of_going found rfl).2
    | @queued buffer =>
      obtain ⟨rfl, same⟩ := latest_of_going found rfl
      cases same
      exact ⟨⟨buffer, some job⟩, .inr (.starts rfl), begin_queued h rfl rfl⟩

theorem orderly_finish (h : Orderly w done q submitted) (n : Nat) (failed : Bool) :
    ∃ done' q', (q' = q ∨ q.Moves q') ∧ Orderly (w.finish n failed) done' q' submitted := by
  rcases finish_cases w n failed with same | ⟨job, found⟩
  · rw [same]
    exact ⟨done, q, .inl rfl, h⟩
  · cases h.stands with
    | receiving | holding | ended => cases isEnded_of_gone found
    | queued | unnoticed last => cases (latest_of_going found rfl).2
    | running =>
      obtain ⟨rfl, same⟩ := latest_of_going found rfl
      cases same
      exact ⟨done ++ [(job, failed)], _, .inr (.finishes rfl), finish_running h rfl failed⟩

/-- The task takes the job that was submitted first of those in the channel. -/
theorem orderly_receive (h : Orderly w done q submitted) : Orderly w.receive done q submitted := by
  rcases receive_cases w with
    same | ⟨job, rest, place, buffer, after⟩ | ⟨place, buffer, given, after⟩
  · rw [same]
    exact h
  · rw [after]
    obtain ⟨stands, seen, accounted⟩ := h
    cases stands <;> cases place
    cases buffer
    exact ⟨.holding, seen, accounted⟩
  · rw [after]
    obtain ⟨stands, seen, accounted⟩ := h
    cases stands <;> cases place
    cases buffer
    cases given
    exact ⟨.ended, seen, accounted⟩

theorem orderly_handOver (h : Orderly w done q submitted) :
    Orderly w.handOver done q submitted := by
  rcases handOver_cases w with same | ⟨job, place, after⟩
  · rw [same]
    exact h
  · rw [after]
    obtain ⟨stands, seen, accounted⟩ := h
    cases stands <;> cases place
    simp only [List.length_map]
    exact ⟨.queued, seen, accounted⟩

theorem orderly_resume (h : Orderly w done q submitted) : Orderly w.resume done q submitted := by
  rcases resume_cases w with same | ⟨n, job, failed, place, found, after⟩
  · rw [same]
    exact h
  · rw [after]
    obtain ⟨stands, seen, accounted⟩ := h
    cases stands with
    | receiving | holding | ended => cases place
    | queued | running =>
      cases place
      simp at found
    -- Until here the job was the latest on the pool; now it is one of those that have ended.
    | @unnoticed buffer handles done trace job =>
      have all : done.map gone ++ [gone job] = (done ++ [job]).map gone := by simp
      simp only [all]
      exact ⟨.receiving, seen, accounted⟩

theorem orderly_submit (h : Orderly w done q submitted) (job : α) (held : w.handles ≠ 0) :
    Orderly { w with buffer := w.buffer ++ [job] } done (q.submit job) (submitted ++ [job]) := by
  obtain ⟨stands, seen, accounted⟩ := h
  have grown : (q.submit job).outstanding = q.outstanding ++ [job] := by
    simp [SerialQueue.outstanding, SerialQueue.submit]
  refine ⟨?_, seen, by rw [grown, ← List.append_assoc, accounted]⟩
  cases stands with
  | receiving => exact .receiving
  | holding => exact .holding
  | queued => exact .queued
  | running => exact .running
  | unnoticed job => exact .unnoticed job
  | ended => exact absurd rfl held

/-- As long as the task has not ended the number of handles does not matter. -/
theorem orderly_handles (h : Orderly w done q submitted) (handles : Nat)
    (given : w.handles = 0 → handles = 0) :
    Orderly { w with handles := handles } done q submitted := by
  obtain ⟨stands, seen, accounted⟩ := h
  refine ⟨?_, seen, accounted⟩
  cases stands with
  | receiving => exact .receiving
  | holding => exact .holding
  | queued => exact .queued
  | running => exact .running
  | unnoticed job => exact .unnoticed job
  | ended =>
    obtain rfl := given rfl
    exact .ended

theorem orderly_quiet (h : Orderly w done q submitted) {step : WorkStep α}
    (quiet : step.submitted? w.handles = none) :
    ∃ done' q', (q' = q ∨ q.Moves q') ∧ Orderly (w.step step) done' q' submitted := by
  cases step with
  | clone => exact ⟨done, q, .inl rfl, orderly_handles h _ fun given => if_pos given⟩
  | release => exact ⟨done, q, .inl rfl, orderly_handles h _ fun given => by omega⟩
  | submit job =>
    by_cases given : w.handles = 0
    · rw [Workshop.step, if_pos given]
      exact ⟨done, q, .inl rfl, h⟩
    · rw [WorkStep.submitted?, if_neg given] at quiet
      cases quiet
  | receive => exact ⟨done, q, .inl rfl, orderly_receive h⟩
  | handOver => exact ⟨done, q, .inl rfl, orderly_handOver h⟩
  | resume => exact ⟨done, q, .inl rfl, orderly_resume h⟩
  | begin n => exact ⟨done, orderly_begin h n⟩
  | finish n failed => exact orderly_finish h n failed

theorem orderly_step (h : Orderly w done q submitted) (step : WorkStep α) :
    ∃ done' q', (q' = q ∨ q.Moves q') ∧
      Orderly (w.step step) done' q' (submitted ++ (step.submitted? w.handles).toList) := by
  cases submits : step.submitted? w.handles with
  | none =>
    rw [Option.toList_none, List.append_nil]
    exact orderly_quiet h submits
  | some job =>
    obtain ⟨rfl, held⟩ := WorkStep.of_submitted submits
    rw [Workshop.step, if_neg held]
    exact ⟨done, q.submit job, .inr (.submits q job), orderly_submit h job held⟩

theorem handles_step (w : Workshop α) (step : WorkStep α) :
    (w.step step).handles = step.handles w.handles := by
  cases step with
  | clone | release => rfl
  | submit job =>
    simp only [Workshop.step]
    split <;> rfl
  | receive =>
    simp only [Workshop.step, receive]
    split
    · rfl
    · split <;> rfl
    · rfl
  | handOver =>
    simp only [Workshop.step, handOver]
    split <;> rfl
  | resume =>
    simp only [Workshop.step, resume]
    split
    · split <;> rfl
    · rfl
  | begin n =>
    simp only [Workshop.step, begin]
    split <;> rfl
  | finish n failed =>
    simp only [Workshop.step, finish]
    split <;> rfl

theorem orderly_run (h : Orderly w done q submitted) (steps : List (WorkStep α)) :
    ∃ done' q', Relation.ReflTransGen SerialQueue.Moves q q' ∧
      Orderly (w.run steps) done' q' (submitted ++ WorkStep.submissions w.handles steps) := by
  induction steps generalizing w done q submitted with
  | nil =>
    rw [WorkStep.submissions, List.append_nil]
    exact ⟨done, q, .refl, h⟩
  | cons step steps further =>
    obtain ⟨done', q', moved, orderly⟩ := orderly_step h step
    obtain ⟨done'', q'', moves, orderly⟩ := further orderly
    rw [WorkStep.submissions, ← List.append_assoc, ← handles_step]
    refine ⟨done'', q'', ?_, orderly⟩
    rcases moved with rfl | moved
    · exact moves
    · exact moves.head moved

theorem orderly_start : Orderly (start : Workshop α) [] .empty [] where
  stands := @Stands.receiving α [] 1 [] []
  seen := rfl
  accounted := rfl

/-! ### What is seen of the jobs -/

theorem started_eq (h : Orderly w done q submitted) :
    w.started = done.map Prod.fst ++ q.running.toList := by
  rw [started, h.seen, List.filterMap_append, List.filterMap_flatMap]
  refine congrArg₂ (· ++ ·) List.map_eq_flatMap.symm ?_
  cases q.running <;> rfl

theorem finished_eq (h : Orderly w done q submitted) : w.finished = done.map Prod.fst := by
  rw [finished, h.seen, List.filterMap_append, List.filterMap_flatMap]
  refine (congrArg₂ (· ++ ·) List.map_eq_flatMap.symm ?_).trans (List.append_nil _)
  cases q.running <;> rfl

theorem running_eq (h : Orderly w done q submitted) : w.running = q.running.toList := by
  have none (jobs : List (α × Bool)) : (jobs.map gone).filterMap (fun
      | (job, .running) => some job
      | _ => none : α × Stage → Option α) = [] := by
    induction jobs with
    | nil => rfl
    | cons job jobs further => exact further
  obtain ⟨stands, -, -⟩ := h
  cases stands <;> simp [running, none, gone]

theorem outstanding_of_waiting (h : Orderly w done q submitted) (place : w.place = .receiving)
    (buffer : w.buffer = []) : q.outstanding = [] := by
  cases h.stands <;> cases place
  exact buffer

theorem outstanding_of_ended (h : Orderly w done q submitted) (closed : w.place = .ended) :
    q.outstanding = [] := by
  cases h.stands <;> cases closed
  rfl

end Workshop

end EndpointMonitor
