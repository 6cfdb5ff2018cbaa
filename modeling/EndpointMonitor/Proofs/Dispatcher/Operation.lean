import EndpointMonitor.Proofs.Dispatcher.Auth

/-!
The runs of a dispatcher. Its executor may run the handlers that wait in any order, or never; a
handler may keep the reply that it owes until some later time.
-/

namespace EndpointMonitor

namespace HandlerJob

/-- Whether the job is to answer a call. -/
def answers (call : Nat) : HandlerJob → Bool
  | .auth c _ _ | .custom c _ _ => c = call
  | .notify _ _ => false

end HandlerJob

namespace Dispatcher

/-- What can happen to a dispatcher. Jobs run, or are discarded, in any order. -/
inductive Operation where
  | receive (call : InboundCall)
  /-- Asks for the interest in a process after all handlers that wait have run. -/
  | askInterest (payload : Bytes)
  | install (handlers : HandlerSet)
  | setExecutor (executor : Executor)
  | work
  /-- Runs the handler that is to answer a call. -/
  | run (call : Nat)
  | discard (call : Nat)
  /-- Runs the handler of a notification, by its place among the jobs that wait. -/
  | runNotification (index : Nat)
  | discardNotification (index : Nat)
  /-- The reply to an authorization request that was kept is resolved or dropped. -/
  | useKept (call : Nat) (resolution : Option Resolution)
  | useKeptCustom (call : Nat) (result : Option (Except String Bytes))
  | resolveKept (resolution : Resolution)

/-- The job that is to answer a call, and the dispatcher without it. -/
def takeJob (d : Dispatcher) (call : Nat) : Option (HandlerJob × Dispatcher) :=
  (d.jobs.find? (·.answers call)).map fun job =>
    (job, { d with jobs := d.jobs.eraseP (·.answers call) })

def step (d : Dispatcher) : Operation → Dispatcher
  | .receive call => d.receive call
  | .askInterest payload => (d.work.pathInterest payload).2
  | .install handlers => { d with handlers := handlers }
  | .setExecutor executor => { d with executor := executor }
  | .work => d.work
  | .run call =>
    match d.takeJob call with
    | some (job, d) => d.perform job
    | none => d
  | .discard call =>
    match d.takeJob call with
    | some (job, d) => d.discard job
    | none => d
  | .runNotification index =>
    match d.jobs[index]? with
    | some (.notify handler message) =>
      { d with jobs := d.jobs.eraseIdx index }.perform (.notify handler message)
    | _ => d
  | .discardNotification index =>
    match d.jobs[index]? with
    | some (.notify handler message) =>
      { d with jobs := d.jobs.eraseIdx index }.discard (.notify handler message)
    | _ => d
  | .useKept call resolution =>
    match d.kept.find? (·.call = call) with
    | some _ =>
      { d with kept := d.kept.eraseP (·.call = call) }.resolve call (resolution.getD .allowOnce)
    | none => d
  | .useKeptCustom call result =>
    if call ∈ d.keptCustom then
      { d with keptCustom := d.keptCustom.erase call }.note (.replied call (result.getD lostReply))
    else d
  | .resolveKept resolution => (d.resolveKept resolution).2

def run (d : Dispatcher) (operations : List Operation) : Dispatcher := operations.foldl step d

variable {d d' : Dispatcher}

/-! ### What handlers leave alone -/

/-- A dispatcher has the same settings, and has had no other calls. -/
structure Steady (d d' : Dispatcher) : Prop where
  codec : d'.codec = d.codec
  handlers : d'.handlers = d.handlers
  executor : d'.executor = d.executor
  calls : d'.calls = d.calls

theorem Steady.refl (d : Dispatcher) : Steady d d := ⟨rfl, rfl, rfl, rfl⟩

theorem Steady.trans {e : Dispatcher} (h : Steady d d') (h' : Steady d' e) : Steady d e where
  codec := h'.codec.trans h.codec
  handlers := h'.handlers.trans h.handlers
  executor := h'.executor.trans h.executor
  calls := h'.calls.trans h.calls

theorem perform_steady (d : Dispatcher) (job : HandlerJob) : Steady d (d.perform job) := by
  cases job with
  | auth call handler message =>
    simp only [perform]
    split <;> exact ⟨rfl, rfl, rfl, rfl⟩
  | notify handler message => exact ⟨rfl, rfl, rfl, rfl⟩
  | custom call handler data =>
    simp only [perform]
    split <;> exact ⟨rfl, rfl, rfl, rfl⟩

theorem discard_steady (d : Dispatcher) (job : HandlerJob) : Steady d (d.discard job) := by
  cases job <;> exact ⟨rfl, rfl, rfl, rfl⟩

theorem submit_steady (d : Dispatcher) (job : HandlerJob) : Steady d (d.submit job) := by
  unfold submit
  split
  · exact perform_steady d job
  all_goals exact ⟨rfl, rfl, rfl, rfl⟩

theorem foldl_steady {α : Type} {f : Dispatcher → α → Dispatcher}
    (steady : ∀ d a, Steady d (f d a)) (l : List α) (d : Dispatcher) : Steady d (l.foldl f d) := by
  induction l generalizing d with
  | nil => exact .refl d
  | cons a l ih => exact (steady d a).trans (ih (f d a))

theorem work_steady (d : Dispatcher) : Steady d d.work :=
  have emptied : Steady d { d with jobs := [] } := ⟨rfl, rfl, rfl, rfl⟩
  emptied.trans (foldl_steady perform_steady d.jobs _)

theorem resolveKept_steady (d : Dispatcher) (resolution : Resolution) :
    Steady d (d.resolveKept resolution).2 :=
  have emptied : Steady d { d with kept := [] } := ⟨rfl, rfl, rfl, rfl⟩
  have resolved (d : Dispatcher) (reply : ResolutionReply) :
      Steady d (d.resolve reply.call resolution) := ⟨rfl, rfl, rfl, rfl⟩
  emptied.trans (foldl_steady resolved d.kept _)

theorem pathInterest_steady (d : Dispatcher) (payload : Bytes) :
    Steady d (d.pathInterest payload).2 := by
  unfold pathInterest
  split
  · next process _ _ _ =>
    have noted : Steady d.work (d.work.note (.invoked (.interest process))) := ⟨rfl, rfl, rfl, rfl⟩
    split <;> exact (work_steady d).trans noted
  · exact .refl d

theorem jobs_work (d : Dispatcher) : d.work.jobs = [] := by
  have kept (jobs : List HandlerJob) (d : Dispatcher) : (jobs.foldl perform d).jobs = d.jobs := by
    induction jobs generalizing d with
    | nil => rfl
    | cons job jobs ih => exact (ih _).trans (jobs_perform d job)
  exact kept d.jobs { d with jobs := [] }

/-- Without a handler that waits there is nothing to run. -/
theorem work_of_idle (idle : d.jobs = []) : d.work = d := by
  obtain ⟨codec, handlers, executor, calls, jobs, kept, keptCustom, trace⟩ := d
  obtain rfl : jobs = [] := idle
  rfl

theorem jobs_pathInterest (idle : d.jobs = []) (payload : Bytes) :
    (d.pathInterest payload).2.jobs = [] := by
  unfold pathInterest
  rw [work_of_idle idle]
  split
  · split <;> exact idle
  · exact idle

/-- A question about a process is as good as none, or it is asked after all handlers that wait. -/
theorem pathInterest_step (d : Dispatcher) (payload : Bytes) :
    (d.pathInterest payload).2 = d ∨
      (d.pathInterest payload).2 = d.step (.askInterest payload) := by
  have worked := work_of_idle (jobs_work d)
  have steady := work_steady d
  cases decoded : d.codec.decode (α := ProcessDescriptor) payload with
  | error e => exact .inl (by simp only [pathInterest, decoded])
  | ok process =>
    cases installed : d.handlers.pathInterest with
    | none => exact .inl (by simp only [pathInterest, decoded, installed])
    | some handler =>
      refine .inr ?_
      simp only [step, pathInterest, steady.codec, steady.handlers, decoded, installed, worked]

/-! ### Calls -/

/-- How many replies an operation makes the dispatcher owe. -/
def Operation.owed : Operation → Nat
  | .receive (.auth _) | .receive (.custom _) => 1
  | _ => 0

theorem calls_receiveAuth (d : Dispatcher) (payload : Bytes) :
    (d.receiveAuth payload).calls = d.calls + 1 := by
  simp only [receiveAuth]
  split
  · exact (submit_steady _ _).calls
  · rfl

theorem calls_receiveCustom (d : Dispatcher) (data : Bytes) :
    (d.receiveCustom data).calls = d.calls + 1 := by
  simp only [receiveCustom]
  split
  · exact (submit_steady _ _).calls
  · rfl

theorem receiveNotify_steady (d : Dispatcher) (payload : Bytes) :
    Steady d (d.receiveNotify payload) := by
  simp only [receiveNotify]
  split
  · exact submit_steady d _
  · exact .refl d

/-- What arrives changes neither the codec nor the handlers. -/
theorem receive_frame (d : Dispatcher) (call : InboundCall) :
    (d.receive call).codec = d.codec ∧ (d.receive call).handlers = d.handlers := by
  cases call with
  | auth payload =>
    simp only [receive, receiveAuth]
    split
    · exact ⟨(submit_steady _ _).codec, (submit_steady _ _).handlers⟩
    · exact ⟨rfl, rfl⟩
  | notify payload =>
    exact ⟨(receiveNotify_steady d payload).codec, (receiveNotify_steady d payload).handlers⟩
  | custom data =>
    simp only [receive, receiveCustom]
    split
    · exact ⟨(submit_steady _ _).codec, (submit_steady _ _).handlers⟩
    · exact ⟨rfl, rfl⟩

theorem calls_step (d : Dispatcher) (operation : Operation) :
    (d.step operation).calls = d.calls + operation.owed := by
  cases operation with
  | receive call =>
    cases call with
    | auth payload => exact calls_receiveAuth d payload
    | notify payload => exact (receiveNotify_steady d payload).calls
    | custom data => exact calls_receiveCustom d data
  | askInterest payload => exact ((work_steady d).trans (pathInterest_steady d.work payload)).calls
  | install | setExecutor => rfl
  | work => exact (work_steady d).calls
  | run call =>
    simp only [step, takeJob]
    cases d.jobs.find? (·.answers call) with
    | some job => exact (perform_steady _ job).calls
    | none => rfl
  | discard call =>
    simp only [step, takeJob]
    cases d.jobs.find? (·.answers call) with
    | some job => exact (discard_steady _ job).calls
    | none => rfl
  | runNotification | discardNotification | useKept | useKeptCustom =>
    simp only [step]
    split <;> rfl
  | resolveKept resolution => exact (resolveKept_steady d resolution).calls

end Dispatcher

end EndpointMonitor
