import EndpointMonitor.Proofs.Dispatcher.Operation
import EndpointMonitor.Proofs.Queue.Task
import Mathlib.Data.List.Forall2

/-!
A dispatcher whose handlers run one after another. Calls come in and handlers are replaced at any
time, also while a handler runs; the handlers run in the order in which the calls came in.
-/

namespace EndpointMonitor

/-! ### What the handlers are to do -/

/-- A handler and what it is to be run on. -/
inductive Commission where
  | auth (handler : AuthHandler) (message : EventMessage)
  | notify (handler : NotifyHandler) (message : EventMessage)
  | custom (handler : CustomHandler) (data : Bytes)

/-- What is seen of it when the handler runs. -/
def Commission.invocation : Commission → Invocation
  | .auth _ message => .auth message
  | .notify _ message => .notify message
  | .custom _ data => .custom data

def HandlerJob.commission : HandlerJob → Commission
  | .auth _ handler message => .auth handler message
  | .notify handler message => .notify handler message
  | .custom _ handler data => .custom handler data

namespace HandlerSet

/-- Which of the handlers is to be run for a call, if the call can be read and the handler is
there. -/
def commission? (h : HandlerSet) (codec : Codec) : InboundCall → Option Commission
  | .auth payload =>
    match codec.decode (α := EventMessage) payload, h.auth with
    | .ok message, some handler => some (.auth handler message)
    | _, _ => none
  | .notify payload =>
    match codec.decode (α := EventMessage) payload, h.notify with
    | .ok message, some handler => some (.notify handler message)
    | _, _ => none
  | .custom data => h.customMessage.map (.custom · data)

/-- There are handlers for the same calls. They may do different things. -/
structure Alike (h h' : HandlerSet) : Prop where
  auth : h.auth.isSome = h'.auth.isSome
  notify : h.notify.isSome = h'.notify.isSome
  customMessage : h.customMessage.isSome = h'.customMessage.isSome

theorem Alike.refl (h : HandlerSet) : h.Alike h := ⟨rfl, rfl, rfl⟩

theorem invocation_commission? (h : HandlerSet) (codec : Codec) (call : InboundCall) :
    (h.commission? codec call).map Commission.invocation =
      match call with
      | .auth payload =>
        if h.auth.isSome then (codec.decode payload).toOption.map .auth else none
      | .notify payload =>
        if h.notify.isSome then (codec.decode payload).toOption.map .notify else none
      | .custom data => if h.customMessage.isSome then some (.custom data) else none := by
  cases call with
  | auth payload =>
    simp only [commission?]
    cases codec.decode (α := EventMessage) payload <;> cases h.auth <;> rfl
  | notify payload =>
    simp only [commission?]
    cases codec.decode (α := EventMessage) payload <;> cases h.notify <;> rfl
  | custom data =>
    simp only [commission?]
    cases h.customMessage <;> rfl

theorem Alike.invocation {h h' : HandlerSet} (alike : h.Alike h') (codec : Codec)
    (call : InboundCall) :
    (h.commission? codec call).map Commission.invocation =
      (h'.commission? codec call).map Commission.invocation := by
  rw [invocation_commission?, invocation_commission?, alike.auth, alike.notify, alike.customMessage]

/-- No handler is run for what cannot be read. -/
theorem commission?_unread {codec : Codec} {payload : Bytes}
    (unread : ∀ m : EventMessage, codec.decode payload ≠ .ok m) (h : HandlerSet) :
    h.commission? codec (.auth payload) = none ∧ h.commission? codec (.notify payload) = none := by
  cases decoded : codec.decode (α := EventMessage) payload with
  | ok message => exact absurd decoded (unread message)
  | error e => simp only [commission?, decoded, and_self]

end HandlerSet

/-- The run of a handler, if the event is one. -/
def DispatchEvent.invocation? : DispatchEvent → Option Invocation
  | .invoked invocation => some invocation
  | .resolved _ _ | .replied _ _ => none

namespace Dispatcher

variable {d : Dispatcher}

/-- What handlers have been run on, in order. -/
def invocations (d : Dispatcher) : List Invocation := d.trace.filterMap DispatchEvent.invocation?

theorem invocations_perform (d : Dispatcher) (job : HandlerJob) :
    (d.perform job).invocations = d.invocations ++ [job.commission.invocation] := by
  rw [invocations, trace_perform, List.filterMap_append]
  refine congrArg (d.invocations ++ ·) ?_
  cases job with
  | notify handler message => rfl
  | auth call handler message =>
    simp only [HandlerJob.outcome]
    cases (handler message).reply <;> rfl
  | custom call handler data =>
    simp only [HandlerJob.outcome]
    cases (handler data).reply <;> rfl

theorem invocations_work (d : Dispatcher) :
    d.work.invocations = d.invocations ++ d.jobs.map (·.commission.invocation) := by
  have performed (jobs : List HandlerJob) (d : Dispatcher) : (jobs.foldl perform d).invocations =
      d.invocations ++ jobs.map (·.commission.invocation) := by
    induction jobs generalizing d with
    | nil => exact (List.append_nil _).symm
    | cons job jobs ih =>
      rw [List.foldl_cons, ih, invocations_perform, List.append_assoc]
      rfl
  exact performed d.jobs { d with jobs := [] }

/-- A handler has nothing to do with the jobs that wait. -/
theorem perform_jobs (d : Dispatcher) (jobs : List HandlerJob) (job : HandlerJob) :
    ({ d with jobs := jobs } : Dispatcher).perform job = { d.perform job with jobs := jobs } := by
  cases job with
  | notify handler message => rfl
  | auth call handler message =>
    simp only [perform, note]
    cases (handler message).reply <;> rfl
  | custom call handler data =>
    simp only [perform, note]
    cases (handler data).reply <;> rfl

theorem work_of_cons {job : HandlerJob} {jobs : List HandlerJob} (waiting : d.jobs = job :: jobs) :
    (({ d with jobs := jobs } : Dispatcher).perform job).work = d.work := by
  have left := jobs_perform { d with jobs := jobs } job
  have emptied : { d.perform job with jobs := [] } =
      ({ d with jobs := [] } : Dispatcher).perform job := (perform_jobs d [] job).symm
  rw [work, left, perform_jobs, work, waiting, List.foldl_cons, ← emptied]

/-- A dispatcher has the same settings and the same jobs, and no handler has run. -/
structure Undisturbed (d d' : Dispatcher) : Prop where
  codec : d'.codec = d.codec
  executor : d'.executor = d.executor
  handlers : d'.handlers = d.handlers
  jobs : d'.jobs = d.jobs
  invocations : d'.invocations = d.invocations

theorem Undisturbed.refl (d : Dispatcher) : Undisturbed d d := ⟨rfl, rfl, rfl, rfl, rfl⟩

/-- An answer that is given outside of a handler disturbs nothing. -/
theorem undisturbed_note {calls : Nat} {kept : List ResolutionReply} {keptCustom : List Nat}
    {event : DispatchEvent} (answer : event.invocation? = none) :
    Undisturbed d ({ d with calls, kept, keptCustom }.note event) := by
  refine ⟨rfl, rfl, rfl, rfl, ?_⟩
  simp only [invocations, note, List.filterMap_append, List.filterMap_cons, answer,
    List.filterMap_nil, List.append_nil]

theorem submit_serial (serial : d.executor = .serial) (job : HandlerJob) :
    d.submit job = { d with jobs := d.jobs ++ [job] } := by
  simp only [submit, serial]

/-- A handler is to be told of a call that comes in, or the call is settled without one. -/
inductive Received (d : Dispatcher) (call : InboundCall) : Prop where
  | submitted {calls : Nat} {job : HandlerJob}
      (told : d.handlers.commission? d.codec call = some job.commission)
      (after : d.receive call = { d with calls := calls, jobs := d.jobs ++ [job] })
  | settled (untold : d.handlers.commission? d.codec call = none)
      (undisturbed : Undisturbed d (d.receive call))

theorem received (serial : d.executor = .serial) (call : InboundCall) : d.Received call := by
  cases call with
  | auth payload =>
    cases decoded : d.codec.decode (α := EventMessage) payload with
    | error e =>
      refine .settled (by simp only [HandlerSet.commission?, decoded]) ?_
      simp only [receive, receiveAuth, decoded]
      exact undisturbed_note rfl
    | ok message =>
      cases installed : d.handlers.auth with
      | none =>
        refine .settled (by simp only [HandlerSet.commission?, decoded, installed]) ?_
        simp only [receive, receiveAuth, decoded, installed]
        exact undisturbed_note rfl
      | some handler =>
        have after : d.receive (.auth payload) = { d with
            calls := d.calls + 1, jobs := d.jobs ++ [.auth d.calls handler message] } := by
          rw [receive, receiveAuth_of_decode installed decoded]
          exact submit_serial (d := { d with calls := d.calls + 1 }) serial _
        refine .submitted ?_ after
        simp only [HandlerSet.commission?, decoded, installed, HandlerJob.commission]
  | notify payload =>
    cases decoded : d.codec.decode (α := EventMessage) payload with
    | error e =>
      refine .settled (by simp only [HandlerSet.commission?, decoded]) ?_
      simp only [receive, receiveNotify, decoded]
      exact .refl d
    | ok message =>
      cases installed : d.handlers.notify with
      | none =>
        refine .settled (by simp only [HandlerSet.commission?, decoded, installed]) ?_
        simp only [receive, receiveNotify, decoded, installed]
        exact .refl d
      | some handler =>
        have after : d.receive (.notify payload) =
            { d with jobs := d.jobs ++ [.notify handler message] } := by
          simp only [receive, receiveNotify, decoded, installed]
          exact submit_serial serial _
        refine .submitted ?_ after
        simp only [HandlerSet.commission?, decoded, installed, HandlerJob.commission]
  | custom data =>
    cases installed : d.handlers.customMessage with
    | none =>
      refine .settled (by simp only [HandlerSet.commission?, installed, Option.map_none]) ?_
      simp only [receive, receiveCustom, installed]
      exact undisturbed_note rfl
    | some handler =>
      have after : d.receive (.custom data) = { d with
          calls := d.calls + 1, jobs := d.jobs ++ [.custom d.calls handler data] } := by
        simp only [receive, receiveCustom, installed]
        exact submit_serial (d := { d with calls := d.calls + 1 }) serial _
      refine .submitted ?_ after
      simp only [HandlerSet.commission?, installed, Option.map_some, HandlerJob.commission]

theorem undisturbed_useKept (d : Dispatcher) (call : Nat) (resolution : Option Resolution) :
    Undisturbed d (d.step (.useKept call resolution)) := by
  simp only [step]
  split
  · exact undisturbed_note rfl
  · exact .refl d

theorem undisturbed_useKeptCustom (d : Dispatcher) (call : Nat)
    (result : Option (Except String Bytes)) :
    Undisturbed d (d.step (.useKeptCustom call result)) := by
  simp only [step]
  split
  · exact undisturbed_note rfl
  · exact .refl d

end Dispatcher

/-! ### Runs -/

/-- A dispatcher and the job that runs, if any. -/
structure SerialRun where
  dispatcher : Dispatcher
  running : Option HandlerJob

namespace SerialRun

inductive Step where
  | receive (call : InboundCall)
  | install (handlers : HandlerSet)
  /-- The handler of the job that has waited longest is run, unless another one runs. -/
  | start
  /-- The handler that runs returns, or fails. -/
  | finish
  /-- A reply that a handler has kept is used. -/
  | useKept (call : Nat) (resolution : Option Resolution)
  | useKeptCustom (call : Nat) (result : Option (Except String Bytes))

def queue (r : SerialRun) : SerialQueue HandlerJob := ⟨r.dispatcher.jobs, r.running⟩

def step (r : SerialRun) : Step → SerialRun
  | .receive call => { r with dispatcher := r.dispatcher.receive call }
  | .install handlers => { r with dispatcher := { r.dispatcher with handlers } }
  | .start =>
    match r.queue.start? with
    | some (job, queue) =>
      ⟨{ r.dispatcher with jobs := queue.waiting }.perform job, queue.running⟩
    | none => r
  | .finish => { r with running := r.queue.finish.running }
  | .useKept call resolution =>
    { r with dispatcher := r.dispatcher.step (.useKept call resolution) }
  | .useKeptCustom call result =>
    { r with dispatcher := r.dispatcher.step (.useKeptCustom call result) }

def run (r : SerialRun) (steps : List Step) : SerialRun := steps.foldl step r

/-- The job that a step starts. -/
def started? (r : SerialRun) : Step → Option HandlerJob
  | .start => r.queue.start?.map (·.1)
  | _ => none

/-- All jobs that are started, in order. -/
def started : SerialRun → List Step → List HandlerJob
  | _, [] => []
  | r, step :: steps => (r.started? step).toList ++ started (r.step step) steps

/-- All calls that come in, in order, each with the handlers that are installed at that time. -/
def arrivals : HandlerSet → List Step → List (HandlerSet × InboundCall)
  | _, [] => []
  | handlers, .receive call :: steps => (handlers, call) :: arrivals handlers steps
  | _, .install handlers :: steps => arrivals handlers steps
  | handlers, _ :: steps => arrivals handlers steps

/-- What the handlers are to do about the calls that come in. -/
def commissions (codec : Codec) (handlers : HandlerSet) (steps : List Step) : List Commission :=
  (arrivals handlers steps).filterMap fun (handlers, call) => handlers.commission? codec call

variable {r r' : SerialRun}

/-! #### One step -/

/-- What a call makes the handlers do. -/
def told? (r : SerialRun) : Step → Option Commission
  | .receive call => r.dispatcher.handlers.commission? r.dispatcher.codec call
  | _ => none

def Step.installed (handlers : HandlerSet) : Step → HandlerSet
  | .install handlers => handlers
  | _ => handlers

/-- What a step does to the jobs that wait and to the handlers. -/
structure Advances (r : SerialRun) (step : Step) : Prop where
  codec : (r.step step).dispatcher.codec = r.dispatcher.codec
  executor : (r.step step).dispatcher.executor = r.dispatcher.executor
  handlers : (r.step step).dispatcher.handlers = step.installed r.dispatcher.handlers
  jobs : (r.started? step).toList.map HandlerJob.commission ++
      (r.step step).dispatcher.jobs.map HandlerJob.commission =
    r.dispatcher.jobs.map HandlerJob.commission ++ (r.told? step).toList
  invocations : (r.step step).dispatcher.invocations = r.dispatcher.invocations ++
    (r.started? step).toList.map (·.commission.invocation)

theorem advances_of_undisturbed {step : Step} (unstarted : r.started? step = none)
    (untold : r.told? step = none)
    (handlers : step.installed r.dispatcher.handlers = r.dispatcher.handlers)
    (undisturbed : Dispatcher.Undisturbed r.dispatcher (r.step step).dispatcher) :
    r.Advances step where
  codec := undisturbed.codec
  executor := undisturbed.executor
  handlers := undisturbed.handlers.trans handlers.symm
  jobs := by
    rw [unstarted, untold, undisturbed.jobs]
    exact (List.append_nil _).symm
  invocations := by
    rw [unstarted, undisturbed.invocations]
    exact (List.append_nil _).symm

theorem advances (serial : r.dispatcher.executor = .serial) (step : Step) : r.Advances step := by
  cases step with
  | receive call =>
    cases Dispatcher.received serial call with
    | submitted told after =>
      constructor
      case jobs => simp [SerialRun.step, after, started?, told?, told]
      case invocations => simp [SerialRun.step, after, started?, Dispatcher.invocations]
      all_goals simp only [SerialRun.step, after, Step.installed]
    | settled untold undisturbed => exact advances_of_undisturbed rfl untold rfl undisturbed
  | install handlers =>
    constructor
    case jobs => exact (List.append_nil _).symm
    case invocations => exact (List.append_nil _).symm
    all_goals rfl
  | finish => exact advances_of_undisturbed rfl rfl rfl (.refl _)
  | useKept call resolution =>
    exact advances_of_undisturbed rfl rfl rfl (Dispatcher.undisturbed_useKept _ call resolution)
  | useKeptCustom call result =>
    exact advances_of_undisturbed rfl rfl rfl (Dispatcher.undisturbed_useKeptCustom _ call result)
  | start =>
    cases turn : r.queue.start? with
    | none =>
      refine advances_of_undisturbed ?_ rfl rfl ?_
      · simp only [started?, turn, Option.map_none]
      · simp only [SerialRun.step, turn]
        exact .refl _
    | some taken =>
      obtain ⟨job, queue⟩ := taken
      have first : r.dispatcher.jobs = job :: queue.waiting := SerialQueue.waiting_of_start turn
      have steady := Dispatcher.perform_steady { r.dispatcher with jobs := queue.waiting } job
      constructor
      · simp only [SerialRun.step, turn, steady.codec]
      · simp only [SerialRun.step, turn, steady.executor]
      · simp only [SerialRun.step, turn, steady.handlers, Step.installed]
      · simp [SerialRun.step, turn, started?, told?, Dispatcher.jobs_perform, first]
      · simp only [SerialRun.step, turn, started?, Dispatcher.invocations_perform, Option.map_some,
          Option.toList_some, List.map_cons, List.map_nil]
        rfl

/-! #### Whole runs -/

theorem commissions_cons (codec : Codec) (handlers : HandlerSet) (step : Step) (steps : List Step) :
    commissions codec handlers (step :: steps) =
      (match step with
        | .receive call => handlers.commission? codec call
        | _ => none).toList ++ commissions codec (step.installed handlers) steps := by
  cases step with
  | receive call =>
    simp only [commissions, arrivals, List.filterMap_cons, Step.installed]
    cases handlers.commission? codec call <;> rfl
  | _ => rfl

/-- Of what the handlers are to do, that which came in first has been started, and the rest
waits. -/
theorem started_append_jobs (serial : r.dispatcher.executor = .serial) (steps : List Step) :
    (r.started steps).map HandlerJob.commission ++
        (r.run steps).dispatcher.jobs.map HandlerJob.commission =
      r.dispatcher.jobs.map HandlerJob.commission ++
        commissions r.dispatcher.codec r.dispatcher.handlers steps := by
  induction steps generalizing r with
  | nil => exact (List.append_nil _).symm
  | cons step steps ih =>
    have first := advances serial step
    have others := ih (first.executor.trans serial)
    rw [first.codec, first.handlers] at others
    rw [started, List.map_append, List.append_assoc, run, List.foldl_cons, ← run, others,
      ← List.append_assoc, first.jobs, List.append_assoc, commissions_cons]
    cases step <;> rfl

theorem invocations_run (serial : r.dispatcher.executor = .serial) (steps : List Step) :
    (r.run steps).dispatcher.invocations =
      r.dispatcher.invocations ++ (r.started steps).map (·.commission.invocation) := by
  induction steps generalizing r with
  | nil => exact (List.append_nil _).symm
  | cons step steps ih =>
    have first := advances serial step
    rw [run, List.foldl_cons, ← run, ih (first.executor.trans serial), first.invocations, started,
      List.map_append, List.append_assoc]

theorem run_settings (serial : r.dispatcher.executor = .serial) (steps : List Step) :
    (r.run steps).dispatcher.executor = .serial ∧
      (r.run steps).dispatcher.codec = r.dispatcher.codec := by
  induction steps generalizing r with
  | nil => exact ⟨serial, rfl⟩
  | cons step steps ih =>
    have first := advances serial step
    obtain ⟨executor, codec⟩ := ih (first.executor.trans serial)
    exact ⟨executor, codec.trans first.codec⟩

/-- The handler that runs returns and the next one is started, for so many times. -/
def turns : Nat → List Step
  | 0 => []
  | n + 1 => .finish :: .start :: turns n

/-- When no more calls come in, all handlers that wait are run. -/
theorem run_turns (r : SerialRun) :
    (r.run (turns r.dispatcher.jobs.length)).dispatcher = r.dispatcher.work := by
  generalize waiting : r.dispatcher.jobs = jobs
  induction jobs generalizing r with
  | nil => exact (Dispatcher.work_of_idle waiting).symm
  | cons job jobs ih =>
    have turn : (r.step .finish).queue.start? = some (job, ⟨jobs, some job⟩) := by
      simp only [SerialRun.step, queue, SerialQueue.finish, SerialQueue.start?, waiting]
    have next : (r.step .finish).step .start =
        ⟨{ r.dispatcher with jobs := jobs }.perform job, some job⟩ := by
      simp only [SerialRun.step] at turn ⊢
      rw [turn]
    have left := Dispatcher.jobs_perform { r.dispatcher with jobs := jobs } job
    have others := ih ⟨{ r.dispatcher with jobs := jobs }.perform job, some job⟩ left
    rw [List.length_cons, turns, run, List.foldl_cons, List.foldl_cons, ← run, next, others]
    exact Dispatcher.work_of_cons waiting

theorem started_append (r : SerialRun) (before after : List Step) :
    r.started (before ++ after) = r.started before ++ (r.run before).started after := by
  induction before generalizing r with
  | nil => rfl
  | cons step before ih =>
    rw [List.cons_append, started, ih, started, List.append_assoc]
    rfl

/-! #### Runs that differ in what the handlers do -/

/-- The same calls come in, and handlers are installed for the same calls. -/
inductive Step.Alike : Step → Step → Prop where
  | receive (call : InboundCall) : Alike (.receive call) (.receive call)
  | install {handlers handlers' : HandlerSet} (alike : handlers.Alike handlers') :
    Alike (.install handlers) (.install handlers')
  | start : Alike .start .start
  | finish : Alike .finish .finish
  | useKept {call call' : Nat} {resolution resolution' : Option Resolution} :
    Alike (.useKept call resolution) (.useKept call' resolution')
  | useKeptCustom {call call' : Nat} {result result' : Option (Except String Bytes)} :
    Alike (.useKeptCustom call result) (.useKeptCustom call' result')

theorem Step.Alike.refl (step : Step) : step.Alike step := by
  cases step with
  | receive call => exact .receive call
  | install handlers => exact .install (.refl handlers)
  | start => exact .start
  | finish => exact .finish
  | useKept => exact .useKept
  | useKeptCustom => exact .useKeptCustom

/-- The jobs that wait are for the same messages, and the handlers are there for the same calls. -/
structure Alike (r r' : SerialRun) : Prop where
  codec : r.dispatcher.codec = r'.dispatcher.codec
  serial : r.dispatcher.executor = .serial
  serial' : r'.dispatcher.executor = .serial
  handlers : r.dispatcher.handlers.Alike r'.dispatcher.handlers
  jobs : r.dispatcher.jobs.map (·.commission.invocation) =
    r'.dispatcher.jobs.map (·.commission.invocation)
  running : r.running.isSome = r'.running.isSome

theorem started?_start (r : SerialRun) :
    r.started? .start = if r.running.isSome then none else r.dispatcher.jobs.head? := by
  simp only [started?, queue, SerialQueue.start?]
  cases r.running <;> cases r.dispatcher.jobs <;> rfl

theorem isSome_running_start (r : SerialRun) :
    (r.step .start).running.isSome = (r.running.isSome || (r.started? .start).isSome) := by
  simp only [SerialRun.step, started?]
  cases turn : r.queue.start? with
  | none => simp
  | some taken =>
    obtain ⟨job, rest⟩ := taken
    simp [SerialQueue.running_of_start turn]

namespace Alike

variable {a a' : Step}

theorem started (alike : r.Alike r') (same : a.Alike a') :
    (r.started? a).map (·.commission.invocation) =
      (r'.started? a').map (·.commission.invocation) := by
  cases same with
  | start =>
    rw [started?_start, started?_start, alike.running]
    cases r'.running.isSome with
    | true => rfl
    | false =>
      have heads := congrArg List.head? alike.jobs
      rwa [List.head?_map, List.head?_map] at heads
  | _ => rfl

theorem told (alike : r.Alike r') (same : a.Alike a') :
    (r.told? a).map Commission.invocation = (r'.told? a').map Commission.invocation := by
  cases same with
  | receive call =>
    rw [told?, told?, alike.codec]
    exact alike.handlers.invocation _ call
  | _ => rfl

theorem step (alike : r.Alike r') (same : a.Alike a') : (r.step a).Alike (r'.step a') := by
  have one := advances alike.serial a
  have other := advances alike.serial' a'
  refine ⟨?_, one.executor.trans alike.serial, other.executor.trans alike.serial', ?_, ?_, ?_⟩
  · rw [one.codec, other.codec, alike.codec]
  · rw [one.handlers, other.handlers]
    cases same with
    | install alike => exact alike
    | _ => exact alike.handlers
  · have jobs := congrArg (List.map Commission.invocation) one.jobs
    have jobs' := congrArg (List.map Commission.invocation) other.jobs
    have started := congrArg Option.toList (alike.started same)
    have told := congrArg Option.toList (alike.told same)
    have waiting := alike.jobs
    simp only [List.map_append, List.map_map, ← Option.toList_map, Option.map_map,
      Function.comp_def] at jobs jobs'
    rw [started, waiting, told, ← jobs'] at jobs
    exact List.append_cancel_left jobs
  · cases same with
    | start =>
      have started := congrArg Option.isSome (alike.started .start)
      rw [Option.isSome_map, Option.isSome_map] at started
      rw [isSome_running_start, isSome_running_start, alike.running, started]
    | finish => rfl
    | _ => exact alike.running

theorem started_run (alike : r.Alike r') {steps steps' : List Step}
    (same : List.Forall₂ Step.Alike steps steps') :
    (r.started steps).map (·.commission.invocation) =
      (r'.started steps').map (·.commission.invocation) := by
  induction same generalizing r r' with
  | nil => rfl
  | cons first others ih =>
    rw [SerialRun.started, SerialRun.started, List.map_append, List.map_append,
      ih (alike.step first)]
    refine congrArg (· ++ _) ?_
    rw [← Option.toList_map, ← Option.toList_map, alike.started first]

end Alike

/-- A call for which no handler is to be run makes no difference to the others. -/
theorem started_without (serial : r.dispatcher.executor = .serial) {call : InboundCall}
    (untold : ∀ h : HandlerSet, h.commission? r.dispatcher.codec call = none)
    (before after : List Step) :
    (r.started (before ++ .receive call :: after)).map (·.commission.invocation) =
      (r.started (before ++ after)).map (·.commission.invocation) := by
  obtain ⟨executor, codec⟩ := run_settings serial before
  have alike : ((r.run before).step (.receive call)).Alike (r.run before) := by
    cases Dispatcher.received executor call with
    | submitted told after =>
      rw [codec, untold] at told
      cases told
    | settled untold undisturbed =>
      exact {
        codec := undisturbed.codec
        serial := undisturbed.executor.trans executor
        serial' := executor
        handlers := undisturbed.handlers ▸ .refl _
        jobs := congrArg (List.map (·.commission.invocation)) undisturbed.jobs
        running := rfl }
  have same : List.Forall₂ Step.Alike after after :=
    List.forall₂_same.2 fun step _ => Step.Alike.refl step
  have others := alike.started_run same
  rw [started_append, started_append, List.map_append, List.map_append, ← others]
  rfl

/-- With a serial executor the handlers run in the order in which the calls have come in. A handler
is run for each call that can be read and that comes in while there is one for it: once, by the one
that is installed at that time, on the message that has been read. Payloads that cannot be read make
no difference to the other calls, and neither does what the handlers do. -/
theorem handlers_run_in_order {r : SerialRun} (serial : r.dispatcher.executor = .serial)
    (steps : List Step) :
    let d := r.dispatcher
    let last := (r.run steps).dispatcher
    let told := d.jobs.map HandlerJob.commission ++ commissions d.codec d.handlers steps
    ((r.started steps).map HandlerJob.commission ++ last.jobs.map HandlerJob.commission = told ∧
      last.invocations = d.invocations ++ (r.started steps).map (·.commission.invocation)) ∧
    (((r.run steps).run (turns last.jobs.length)).dispatcher = last.work ∧ last.work.jobs = [] ∧
      last.work.invocations = d.invocations ++ told.map Commission.invocation) ∧
    (∀ before payload after, (∀ m : EventMessage, d.codec.decode payload ≠ .ok m) →
      ∀ call ∈ [InboundCall.auth payload, .notify payload],
        (r.started (before ++ .receive call :: after)).map (·.commission.invocation) =
          (r.started (before ++ after)).map (·.commission.invocation)) ∧
    ∀ r' steps', r.Alike r' → List.Forall₂ Step.Alike steps steps' →
      (r.started steps).map (·.commission.invocation) =
        (r'.started steps').map (·.commission.invocation) := by
  intro d last told
  have order : _ = told := started_append_jobs serial steps
  have invocations := invocations_run serial steps
  have drained := run_turns (r.run steps)
  refine ⟨⟨order, invocations⟩, ⟨drained, Dispatcher.jobs_work _, ?_⟩, ?_, ?_⟩
  · rw [Dispatcher.invocations_work, invocations, List.append_assoc, ← order, List.map_append,
      List.map_map, List.map_map]
    rfl
  · intro before payload after unread call listed
    refine started_without serial (fun h => ?_) before after
    obtain ⟨auth, notify⟩ := h.commission?_unread unread
    rcases List.mem_pair.1 listed with rfl | rfl
    · exact auth
    · exact notify
  · intro r' steps' alike same
    exact alike.started_run same

/-- A notification whose handler fails, a payload that cannot be read and a request whose reply is
kept; a notification that comes in when its handler is gone is ignored. -/
theorem mixed_calls_in_order :
    let fails : HandlerSet := { HandlerSet.empty with notify := some fun _ => true }
    let keeps : HandlerSet := { HandlerSet.empty with auth := some fun _ => .keep }
    let m := Codec.argumentsMessage
    let payload := (Wire.encode m).write
    let r : SerialRun := ⟨.new .default .serial, none⟩
    let steps : List Step := [.install fails, .receive (.notify payload), .receive (.auth []),
      .install keeps, .start, .receive (.auth payload), .receive (.notify payload)]
    (r.run steps).dispatcher.work.invocations = [.notify m, .auth m] := by
  intro fails keeps m payload r steps
  have serial : r.dispatcher.executor = .serial := rfl
  have integers : m.event.value.Numbers (·.isWord = true) := ⟨⟨trivial, rfl, trivial⟩, trivial⟩
  have faithful := Codec.faithful_message integers (by decide)
  have encoded := Codec.encode_of_fits (show (Wire.encode m).write.length ≤
    Codec.limit .default by decide +kernel)
  have decoded : Codec.decode .default payload = .ok m :=
    Codec.decode_of_recovers faithful (by decide) encoded
  have told : commissions r.dispatcher.codec r.dispatcher.handlers steps =
      [.notify (fun _ => true) m, .auth (fun _ => .keep) m] := by
    have unread : fails.commission? .default (.auth []) = none := rfl
    have first : fails.commission? .default (.notify payload) =
        some (.notify (fun _ => true) m) := by
      simp only [HandlerSet.commission?, decoded, fails]
    have second : keeps.commission? .default (.auth payload) = some (.auth (fun _ => .keep) m) := by
      simp only [HandlerSet.commission?, decoded, keeps]
    have third : keeps.commission? .default (.notify payload) = none := by
      simp only [HandlerSet.commission?, decoded, keeps, HandlerSet.empty]
    have codec : r.dispatcher.codec = .default := rfl
    simp only [commissions, steps, arrivals, List.filterMap_cons, List.filterMap_nil, codec, unread,
      first, second, third]
  obtain ⟨-, ⟨-, -, all⟩, -⟩ := handlers_run_in_order serial steps
  rw [all, told]
  rfl

end SerialRun

end EndpointMonitor
