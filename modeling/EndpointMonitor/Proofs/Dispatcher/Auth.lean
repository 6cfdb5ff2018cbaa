import EndpointMonitor.Dispatcher
import EndpointMonitor.Proofs.Codec.Message

/-!
Authorization requests at a dispatcher whose codec has encoded them. The handler decides on those
that do not nest too deep; all others are allowed without it.
-/

namespace EndpointMonitor

/-- What can be seen of a run of the handler. A reply that it keeps is not given yet. -/
def HandlerJob.outcome : HandlerJob → List DispatchEvent
  | .auth call handler message =>
    .invoked (.auth message) ::
      match (handler message).reply with
      | .send resolution => [.resolved call resolution.toWire]
      | .drop => [.resolved call Resolution.allowOnce.toWire]
      | .keep => []
  | .notify _ message => [.invoked (.notify message)]
  | .custom call handler data =>
    .invoked (.custom data) ::
      match (handler data).reply with
      | .send result => [.replied call result]
      | .drop => [.replied call Dispatcher.lostReply]
      | .keep => []

namespace Dispatcher

variable {d : Dispatcher} {handler : AuthHandler} {m : EventMessage} {payload : Bytes}

/-! ### Running handlers -/

theorem trace_perform (d : Dispatcher) (job : HandlerJob) :
    (d.perform job).trace = d.trace ++ job.outcome := by
  cases job with
  | auth call handler message =>
    cases used : (handler message).reply <;>
      simp [perform, HandlerJob.outcome, used, resolve, note]
  | notify handler message => rfl
  | custom call handler data =>
    cases used : (handler data).reply <;> simp [perform, HandlerJob.outcome, used, note]

theorem jobs_perform (d : Dispatcher) (job : HandlerJob) : (d.perform job).jobs = d.jobs := by
  cases job with
  | auth call handler message =>
    cases used : (handler message).reply <;> simp [perform, used, resolve, note]
  | notify handler message => rfl
  | custom call handler data =>
    cases used : (handler data).reply <;> simp [perform, used, note]

theorem trace_foldl_perform (jobs : List HandlerJob) (d : Dispatcher) :
    (jobs.foldl perform d).trace = d.trace ++ jobs.flatMap HandlerJob.outcome := by
  induction jobs generalizing d with
  | nil => exact (List.append_nil _).symm
  | cons job jobs ih =>
    rw [List.foldl_cons, ih, trace_perform, List.append_assoc, List.flatMap_cons]

/-- Every handler that waits runs once. -/
theorem trace_work (d : Dispatcher) :
    d.work.trace = d.trace ++ d.jobs.flatMap HandlerJob.outcome :=
  trace_foldl_perform d.jobs { d with jobs := [] }

/-- Wherever it runs, a submitted handler runs once, besides those that wait already. -/
theorem trace_work_submit (d : Dispatcher) (job : HandlerJob) :
    (d.submit job).work.trace.Perm (d.work.trace ++ job.outcome) := by
  rw [trace_work, trace_work, List.append_assoc]
  unfold submit
  split
  · rw [trace_perform, jobs_perform, List.append_assoc]
    exact List.perm_append_comm.append_left d.trace
  all_goals
    have waits : (d.jobs ++ [job]).flatMap HandlerJob.outcome =
        d.jobs.flatMap HandlerJob.outcome ++ job.outcome := by
      rw [List.flatMap_append, List.flatMap_singleton]
    exact .of_eq (congrArg (d.trace ++ ·) waits)

/-! ### Authorization requests -/

theorem receiveAuth_of_decode (installed : d.handlers.auth = some handler)
    (decoded : d.codec.decode payload = .ok m) :
    d.receiveAuth payload = { d with calls := d.calls + 1 }.submit (.auth d.calls handler m) := by
  simp only [receiveAuth, installed, decoded]

theorem receiveAuth_of_not_decode (unread : ∀ m : EventMessage, d.codec.decode payload ≠ .ok m) :
    d.receiveAuth payload = { d with calls := d.calls + 1 }.resolve d.calls .allowOnce := by
  cases decoded : d.codec.decode (α := EventMessage) payload with
  | ok m => exact absurd decoded (unread m)
  | error e => simp only [receiveAuth, decoded]

/-- The installed handler runs once on each message that nests at most 126 containers in its
details, and nobody else answers; on a message that nests more it does not run at all. -/
theorem encoded_message_decided (installed : d.handlers.auth = some handler) (native : m.Native)
    (encoded : d.codec.encode m = .ok payload) :
    (m.event.value.depth ≤ 126 → (d.receiveAuth payload).work.trace.Perm
      (d.work.trace ++ (HandlerJob.auth d.calls handler m.reread).outcome)) ∧
    (126 < m.event.value.depth → (d.receiveAuth payload).work.trace.Perm
      (d.work.trace ++ [.resolved d.calls Resolution.allowOnce.toWire])) := by
  refine ⟨fun shallow => ?_, fun deep => ?_⟩
  · have submitted := trace_work_submit { d with calls := d.calls + 1 }
      (.auth d.calls handler m.reread)
    rw [receiveAuth_of_decode installed (Codec.decode_message native encoded shallow)]
    rwa [trace_work { d with calls := d.calls + 1 }, ← trace_work d] at submitted
  · have unread := Codec.not_decode_message native encoded deep
    rw [receiveAuth_of_not_decode unread, trace_work, trace_work, List.append_assoc]
    show (d.trace ++ [_] ++ d.jobs.flatMap HandlerJob.outcome).Perm _
    rw [List.append_assoc]
    exact List.perm_append_comm.append_left d.trace

/-- A dispatcher whose handler denies everything. -/
def guarded : Dispatcher :=
  { new .default .inline with
    handlers := { HandlerSet.empty with auth := some fun _ => .send (.deny true) } }

theorem arguments_denied : ∃ payload, guarded.codec.encode Codec.argumentsMessage = .ok payload ∧
    (guarded.receiveAuth payload).work.trace.Perm [
      .invoked (.auth Codec.argumentsMessage.reread),
      .resolved 0 (Resolution.deny true).toWire] := by
  have installed : guarded.handlers.auth = some fun _ => .send (.deny true) := rfl
  have native : Codec.argumentsMessage.Native := ⟨⟨trivial, rfl, trivial⟩, trivial⟩
  have shallow : Codec.argumentsMessage.event.value.depth ≤ 126 := by decide
  have encoded := Codec.encode_of_fits (show (Wire.encode Codec.argumentsMessage).write.length ≤
    guarded.codec.limit by decide +kernel)
  exact ⟨_, encoded, (encoded_message_decided installed native encoded).1 shallow⟩

/-! ### Details that nest too deep -/

/-- So many arrays inside each other. -/
def nested : Nat → Json
  | 0 => .null
  | n + 1 => .array [nested n]

theorem ordered_nested (n : Nat) : (nested n).ordered = true := by
  induction n with
  | zero => rfl
  | succ n ih => simp only [nested, Json.ordered, Json.orderedItems, ih, Bool.and_self]

theorem depth_nested (n : Nat) : (nested n).depth = n := by
  induction n with
  | zero => rfl
  | succ n ih => simp only [nested, Json.depth, Json.depthOfItems, ih, Nat.max_zero]

theorem numbers_nested (P : Number → Prop) (n : Nat) : (nested n).Numbers P := by
  induction n with
  | zero => trivial
  | succ n ih => exact ⟨ih, trivial⟩

/-- The start of a program, with arrays as its details. -/
def nestedMessage (n : Nat) : EventMessage :=
  { EventMessage.auth ⟨0⟩ (.ofPath 5 "/tmp/x") with event := ⟨nested n, ordered_nested n⟩ }

/-- A message that the codec has encoded is allowed although the handler would deny it. -/
theorem nested_message_allowed : (nestedMessage 127).Native ∧
    ∃ payload, guarded.codec.encode (nestedMessage 127) = .ok payload ∧
      (guarded.receiveAuth payload).work.trace = [.resolved 0 Resolution.allowOnce.toWire] := by
  have native : (nestedMessage 127).Native := numbers_nested _ 127
  have deep : 126 < (nestedMessage 127).event.value.depth := Nat.le_of_eq (depth_nested 127).symm
  have encoded := Codec.encode_of_fits (show (Wire.encode (nestedMessage 127)).write.length ≤
    guarded.codec.limit by decide +kernel)
  refine ⟨native, _, encoded, ?_⟩
  rw [receiveAuth_of_not_decode (Codec.not_decode_message native encoded deep)]
  rfl

end Dispatcher

end EndpointMonitor
