import EndpointMonitor.Proofs.Dispatcher.Reply

/-!
What a dispatcher answers before all handlers have run. That depends on its codec and its handlers
only, whatever has happened before.
-/

namespace EndpointMonitor

/-- The answer that a handler gives to an authorization request while it runs, if it does. -/
def HandlerRun.decision? (run : HandlerRun Resolution) : Option (UInt32 × Bool) :=
  match run.reply with
  | .send resolution => some resolution.toWire
  | .drop => some Resolution.allowOnce.toWire
  | .keep => none

/-- The answer that a handler gives to a custom message while it runs, if it does. -/
def HandlerRun.result? (run : HandlerRun (Except String Bytes)) : Option (Except String Bytes) :=
  match run.reply with
  | .send result => some result
  | .drop => some Dispatcher.lostReply
  | .keep => none

def Reply.decision? : Reply → Option (UInt32 × Bool)
  | .decision answer => some answer
  | .result _ => none

def Reply.result? : Reply → Option (Except String Bytes)
  | .decision _ => none
  | .result value => some value

namespace HandlerSet

/-- The decision on a payload. -/
def decision? (h : HandlerSet) (codec : Codec) (payload : Bytes) : Option (UInt32 × Bool) :=
  match codec.decode (α := EventMessage) payload, h.auth with
  | .ok message, some handler => (handler message).decision?
  | _, _ => some Resolution.allowOnce.toWire

def result? (h : HandlerSet) (data : Bytes) : Option (Except String Bytes) :=
  match h.customMessage with
  | some handler => (handler data).result?
  | none => some (.error ClientError.handlerNotSet.message)

/-- What is told about the interest in a process. -/
def opinion? (h : HandlerSet) (codec : Codec) (payload : Bytes) : Option Bytes :=
  match codec.decode (α := ProcessDescriptor) payload, h.pathInterest with
  | .ok process, some handler =>
    match handler process with
    | .verdict (some verdict) => (codec.encode verdict).toOption
    | .verdict none | .failed => none
  | _, _ => none

end HandlerSet

namespace Dispatcher

variable {d : Dispatcher}

/-- No handler waits, and every reply is accounted for. So requests are answered by these handlers
alone. -/
structure Serves (codec : Codec) (handlers : HandlerSet) (d : Dispatcher) : Prop where
  accounted : d.Accounted
  idle : d.jobs = []
  codec : d.codec = codec
  handlers : d.handlers = handlers

/-! ### What is seen of a reply -/

theorem resolution?_eq (d : Dispatcher) (n : Nat) :
    d.resolution? n = ((d.replies n).filterMap Reply.decision?).head? := by
  rw [replies, List.filterMap_filterMap, List.head?_filterMap, resolution?]
  congr 1
  funext event
  cases event with
  | invoked => rfl
  | resolved call answer | replied call result =>
    by_cases same : call = n <;> simp [DispatchEvent.replyTo?, same, Reply.decision?]

theorem reply?_eq (d : Dispatcher) (n : Nat) :
    d.reply? n = ((d.replies n).filterMap Reply.result?).head? := by
  rw [replies, List.filterMap_filterMap, List.head?_filterMap, reply?]
  congr 1
  funext event
  cases event with
  | invoked => rfl
  | resolved call answer | replied call result =>
    by_cases same : call = n <;> simp [DispatchEvent.replyTo?, same, Reply.result?]

theorem ran_submitted (d : Dispatcher) (place : ReplyPlace) :
    (d.submitted place).ran = place.ran := by
  unfold submitted
  split
  · exact ran_ran place
  all_goals rfl

/-! ### Which handlers run -/

/-- The messages that the authorization handler has been run on. -/
def authorized (d : Dispatcher) : List EventMessage :=
  d.trace.filterMap fun
    | .invoked (.auth message) => some message
    | _ => none

theorem trace_work_submit_of_idle (idle : d.jobs = []) (job : HandlerJob) :
    (d.submit job).work.trace = d.trace ++ job.outcome := by
  unfold submit
  split
  · rw [work_of_idle ((jobs_perform d job).trans idle), trace_perform]
  all_goals
    rw [trace_work, idle]
    exact congrArg (d.trace ++ ·) (List.append_nil _)

theorem trace_auth (idle : d.jobs = []) {handler : AuthHandler} {m : EventMessage}
    {payload : Bytes} (installed : d.handlers.auth = some handler)
    (decoded : d.codec.decode payload = .ok m) :
    (d.auth payload).2.trace = d.trace ++ (HandlerJob.auth d.calls handler m).outcome := by
  rw [auth, receiveAuth_of_decode installed decoded]
  exact trace_work_submit_of_idle (d := { d with calls := d.calls + 1 }) idle _

/-- The handler runs once, on the message that has arrived. -/
theorem authorized_auth (idle : d.jobs = []) {handler : AuthHandler} {m : EventMessage}
    {payload : Bytes} (installed : d.handlers.auth = some handler)
    (decoded : d.codec.decode payload = .ok m) :
    (d.auth payload).2.authorized = d.authorized ++ [m] := by
  rw [authorized, authorized, trace_auth idle installed decoded, List.filterMap_append]
  refine congrArg (_ ++ ·) ?_
  simp only [HandlerJob.outcome]
  cases (handler m).reply <;> rfl

/-- The messages that the handler of notifications has been run on. -/
def notified (d : Dispatcher) : List EventMessage :=
  d.trace.filterMap fun
    | .invoked (.notify message) => some message
    | _ => none

theorem trace_notify (idle : d.jobs = []) {handler : NotifyHandler} {m : EventMessage}
    {payload : Bytes} (installed : d.handlers.notify = some handler)
    (decoded : d.codec.decode payload = .ok m) :
    (d.notify payload).trace = d.trace ++ [.invoked (.notify m)] := by
  simp only [notify, receiveNotify, installed, decoded]
  exact trace_work_submit_of_idle idle _

/-- The handler runs once, on the message that has arrived. -/
theorem notified_notify (idle : d.jobs = []) {handler : NotifyHandler} {m : EventMessage}
    {payload : Bytes} (installed : d.handlers.notify = some handler)
    (decoded : d.codec.decode payload = .ok m) :
    (d.notify payload).notified = d.notified ++ [m] := by
  rw [notified, notified, trace_notify idle installed decoded, List.filterMap_append]
  rfl

/-- A question about interest runs no other handler. -/
theorem trace_pathInterest (idle : d.jobs = []) (payload : Bytes) :
    ∃ asked : List ProcessDescriptor,
      (d.pathInterest payload).2.trace = d.trace ++ asked.map (.invoked ∘ .interest) := by
  unfold pathInterest
  rw [work_of_idle idle]
  split
  · next process _ _ _ =>
    refine ⟨[process], ?_⟩
    split <;> rfl
  · exact ⟨[], (List.append_nil _).symm⟩

theorem authorized_asked {d' : Dispatcher} {asked : List ProcessDescriptor}
    (h : d'.trace = d.trace ++ asked.map (.invoked ∘ .interest)) :
    d'.authorized = d.authorized := by
  rw [authorized, h, List.filterMap_append, List.filterMap_map]
  exact (congrArg (_ ++ ·) (List.filterMap_none _)).trans (List.append_nil _)

theorem notified_asked {d' : Dispatcher} {asked : List ProcessDescriptor}
    (h : d'.trace = d.trace ++ asked.map (.invoked ∘ .interest)) :
    d'.notified = d.notified := by
  rw [notified, h, List.filterMap_append, List.filterMap_map]
  exact (congrArg (_ ++ ·) (List.filterMap_none _)).trans (List.append_nil _)

/-! ### Requests -/

theorem decision?_ran (handler : AuthHandler) (message : EventMessage) :
    ((ReplyPlace.authWaits handler message).ran.reply?.toList.filterMap Reply.decision?).head? =
      (handler message).decision? := by
  simp only [ReplyPlace.ran, HandlerRun.decision?]
  cases (handler message).reply <;> rfl

theorem result?_ran (handler : CustomHandler) (data : Bytes) :
    ((ReplyPlace.customWaits handler data).ran.reply?.toList.filterMap Reply.result?).head? =
      (handler data).result? := by
  simp only [ReplyPlace.ran, HandlerRun.result?]
  cases (handler data).reply <;> rfl

variable {codec : Codec} {handlers : HandlerSet}

namespace Serves

theorem new (codec : Codec) (executor : Executor) : (new codec executor).Serves codec .empty :=
  ⟨.new codec executor, rfl, rfl, rfl⟩

theorem install (h : d.Serves codec handlers) (handlers' : HandlerSet) :
    { d with handlers := handlers' }.Serves codec handlers' :=
  ⟨h.accounted.step (.install handlers'), h.idle, h.codec, rfl⟩

theorem setExecutor (h : d.Serves codec handlers) (executor : Executor) :
    { d with executor }.Serves codec handlers :=
  ⟨h.accounted.step (.setExecutor executor), h.idle, h.codec, h.handlers⟩

/-- It is so again when a call that has come in has been worked on. -/
theorem of_received (h : d.Serves codec handlers) (call : InboundCall) :
    (d.receive call).work.Serves codec handlers := by
  have received := d.receive_frame call
  have worked := work_steady (d.receive call)
  exact ⟨(h.accounted.step (.receive call)).step .work, jobs_work _,
    worked.codec.trans (received.1.trans h.codec),
    worked.handlers.trans (received.2.trans h.handlers)⟩

theorem notify (h : d.Serves codec handlers) (payload : Bytes) :
    (d.notify payload).Serves codec handlers := h.of_received (.notify payload)

/-- The answer is what the handlers decide. -/
theorem auth (h : d.Serves codec handlers) (payload : Bytes) :
    (d.auth payload).1 = handlers.decision? codec payload ∧
      (d.auth payload).2.Serves codec handlers := by
  refine ⟨?_, h.of_received (.auth payload)⟩
  have replies : (d.receiveAuth payload).work.replies d.calls =
      (d.authPlace payload).ran.reply?.toList :=
    h.accounted.replies_of_arrival (.receive (.auth payload)) rfl
      (places_receiveAuth d payload _) [.work]
  show (d.receiveAuth payload).work.resolution? d.calls = _
  rw [resolution?_eq, replies, authPlace, h.codec, h.handlers]
  cases decoded : codec.decode (α := EventMessage) payload with
  | error e =>
    simp only [HandlerSet.decision?, decoded]
    rfl
  | ok message =>
    cases installed : handlers.auth with
    | none =>
      simp only [HandlerSet.decision?, decoded, installed]
      rfl
    | some handler =>
      simp only [HandlerSet.decision?, decoded, installed, ran_submitted, decision?_ran]

theorem custom (h : d.Serves codec handlers) (data : Bytes) :
    (d.custom data).1 = handlers.result? data ∧ (d.custom data).2.Serves codec handlers := by
  refine ⟨?_, h.of_received (.custom data)⟩
  have replies : (d.receiveCustom data).work.replies d.calls =
      (d.customPlace data).ran.reply?.toList :=
    h.accounted.replies_of_arrival (.receive (.custom data)) rfl
      (places_receiveCustom d data _) [.work]
  show (d.receiveCustom data).work.reply? d.calls = _
  rw [reply?_eq, replies, customPlace, h.handlers]
  cases installed : handlers.customMessage with
  | none =>
    simp only [HandlerSet.result?, installed]
    rfl
  | some handler => simp only [HandlerSet.result?, installed, ran_submitted, result?_ran]

theorem resolveKept (h : d.Serves codec handlers) (resolution : Resolution) :
    (d.resolveKept resolution).2.Serves codec handlers := by
  have keeps (replies : List ResolutionReply) (d : Dispatcher) :
      (replies.foldl (fun d reply => d.resolve reply.call resolution) d).jobs = d.jobs := by
    induction replies generalizing d with
    | nil => rfl
    | cons reply replies ih => exact ih _
  have steady := resolveKept_steady d resolution
  exact ⟨h.accounted.step (.resolveKept resolution), (keeps d.kept _).trans h.idle,
    steady.codec.trans h.codec, steady.handlers.trans h.handlers⟩

theorem useKept (h : d.Serves codec handlers) (call : Nat) (resolution : Option Resolution) :
    (d.step (.useKept call resolution)).Serves codec handlers := by
  have accounted := h.accounted.step (.useKept call resolution)
  revert accounted
  simp only [step]
  split
  · exact fun accounted => ⟨accounted, h.idle, h.codec, h.handlers⟩
  · exact fun _ => h

/-- The interest in a process is what the handlers think of it. -/
theorem pathInterest (h : d.Serves codec handlers) (payload : Bytes) :
    (d.pathInterest payload).1 = handlers.opinion? codec payload ∧
      (d.pathInterest payload).2.Serves codec handlers := by
  have steady := pathInterest_steady d payload
  have accounted : (d.pathInterest payload).2.Accounted := by
    rcases pathInterest_step d payload with same | asked
    · rw [same]
      exact h.accounted
    · rw [asked]
      exact h.accounted.step (.askInterest payload)
  have idle : (d.pathInterest payload).2.jobs = [] := by
    unfold Dispatcher.pathInterest
    rw [work_of_idle h.idle]
    split
    · split <;> exact h.idle
    · exact h.idle
  refine ⟨?_, accounted, idle, steady.codec.trans h.codec, steady.handlers.trans h.handlers⟩
  unfold Dispatcher.pathInterest HandlerSet.opinion?
  rw [h.codec, h.handlers, work_of_idle h.idle]
  cases codec.decode (α := ProcessDescriptor) payload with
  | error e => rfl
  | ok process =>
    cases handlers.pathInterest with
    | none => rfl
    | some handler =>
      simp only
      cases handler process with
      | failed => rfl
      | verdict value =>
        cases value with
        | none => rfl
        | some verdict => exact congrArg (fun c => (Codec.encode c verdict).toOption) h.codec

end Serves

end Dispatcher

end EndpointMonitor
