import EndpointMonitor.Connection.Lifecycle

/-!
What the parts of a connection's life do to it, said in full: one equation for each way in which
an attempt, a reply, a loss or the invalidation can turn out.
-/

namespace EndpointMonitor

namespace Bridge

/-- A waiter is told an outcome: if it is a blocked call, that decides the call. -/
def tell (outcome : Outcome) (b : Bridge Unit) : Waiter → Bridge Unit
  | .call id => (b.complete id outcome).2
  | .completion _ => b

/-- A waiter is given up: if it is a blocked call, its completion is lost. -/
def forget (b : Bridge Unit) : Waiter → Bridge Unit
  | .call id => b.drop id
  | .completion _ => b

end Bridge

namespace Connection

variable {σ : Type}

theorem isAttempting_iff (c : Connection σ) (generation : Nat) :
    c.isAttempting generation = true ↔ c.generation = generation ∧ c.state = .connecting := by
  simp [isAttempting]

theorem isUp_iff (c : Connection σ) (generation : Nat) :
    c.isUp generation = true ↔
      c.generation = generation ∧ (c.state = .connecting ∨ c.state = .connected) := by
  simp [isUp]

/-! ### Telling an outcome -/

theorem answer_eq (c : Connection σ) (outcome : Outcome) (waiter : Waiter) :
    c.answer outcome waiter =
      { c with
        bridge := c.bridge.tell outcome waiter
        trace := c.trace ++ [.answered waiter outcome] } := by
  cases waiter <;> rfl

theorem foldl_answer_eq (c : Connection σ) (outcome : Outcome) (waiters : List Waiter) :
    waiters.foldl (·.answer outcome) c =
      { c with
        bridge := waiters.foldl (Bridge.tell outcome) c.bridge
        trace := c.trace ++ waiters.map (.answered · outcome) } := by
  induction waiters generalizing c with
  | nil => simp
  | cons waiter waiters ih => simp [ih, answer_eq]

theorem publish_eq (c : Connection σ) (waiters : List Waiter) (outcome : Outcome) :
    c.publish waiters outcome =
      { c with
        bridge := waiters.foldl (Bridge.tell outcome) c.bridge
        trace := c.trace ++ waiters.map (.answered · outcome) ++
          c.subscriber.toList.map (.published · outcome) } := by
  unfold publish
  rw [foldl_answer_eq]
  cases hs : c.subscriber <;> simp [note]

theorem discard_eq (c : Connection σ) (waiters : List Waiter) :
    c.discard waiters = { c with bridge := waiters.foldl Bridge.forget c.bridge } := by
  induction waiters generalizing c with
  | nil => rfl
  | cons waiter waiters ih => cases waiter <;> exact ih _

/-! ### The loss of a channel -/

/-- What becomes of a connection whose channel is lost, apart from those who are told. -/
def interrupt (c : Connection σ) : Connection σ :=
  { c with
    state := .interrupted
    attempt := .automatic
    channel := none
    waiters := []
    timers := c.timers ++ [⟨c.now + c.reconnectDelayMs.toNat, .reconnect⟩] }

theorem channelLost_stale {c : Connection σ} {generation : Nat}
    (h : c.isUp generation = false) : c.channelLost generation = c := by
  simp [channelLost, h]

theorem channelLost_told {c : Connection σ} {generation : Nat} (h : c.isUp generation = true)
    (ht : c.state = .connected ∨ c.attempt = .manual) :
    c.channelLost generation =
      { c.interrupt with
        bridge := c.waiters.foldl (Bridge.tell (.error .interrupted)) c.bridge
        trace := c.trace ++ c.waiters.map (.answered · (.error .interrupted)) ++
          c.subscriber.toList.map (.published · (.error .interrupted)) } := by
  unfold channelLost
  rw [if_pos h]
  dsimp only
  rw [if_pos (by simpa using ht), publish_eq]
  rfl

theorem channelLost_untold {c : Connection σ} {generation : Nat} (h : c.isUp generation = true)
    (ht : ¬(c.state = .connected ∨ c.attempt = .manual)) :
    c.channelLost generation =
      { c.interrupt with bridge := c.waiters.foldl Bridge.forget c.bridge } := by
  unfold channelLost
  rw [if_pos h]
  dsimp only
  rw [if_neg (by simpa using ht), discard_eq]
  rfl

variable [Transport σ]

theorem closeAll_eq (c : Connection σ) (channels : List Nat) :
    c.closeAll channels =
      { c with
        transport := channels.foldl Transport.close c.transport
        trace := c.trace ++ channels.map .closed } := by
  induction channels generalizing c with
  | nil => simp [closeAll]
  | cons channel channels ih =>
    change (c.close channel).closeAll channels = _
    simp [ih, close, note]

/-! ### The failure of an attempt -/

theorem attemptFailed_stale {c : Connection σ} {generation : Nat}
    (h : c.isAttempting generation = false) (error : ClientError) :
    c.attemptFailed generation error = c := by
  simp [attemptFailed, h]

theorem attemptFailed_manual {c : Connection σ} {generation : Nat}
    (h : c.isAttempting generation = true) (ha : c.attempt = .manual) (error : ClientError) :
    c.attemptFailed generation error =
      { c with
        state := .idle
        channel := none
        waiters := []
        transport := c.channel.toList.foldl Transport.close c.transport
        bridge := c.waiters.foldl (Bridge.tell (.error error)) c.bridge
        trace := c.trace ++ c.channel.toList.map .closed ++
          c.waiters.map (.answered · (.error error)) ++
          c.subscriber.toList.map (.published · (.error error)) } := by
  simp only [attemptFailed, h, if_true, ha, closeAll_eq, publish_eq]

theorem attemptFailed_automatic {c : Connection σ} {generation : Nat}
    (h : c.isAttempting generation = true) (ha : c.attempt = .automatic) (error : ClientError) :
    c.attemptFailed generation error =
      { c with
        state := .interrupted
        channel := none
        transport := c.channel.toList.foldl Transport.close c.transport
        trace := c.trace ++ c.channel.toList.map .closed
        timers := c.timers ++ [⟨c.now + c.reconnectDelayMs.toNat, .reconnect⟩] } := by
  simp only [attemptFailed, h, if_true, ha, closeAll_eq, scheduleReconnect, setTimer]

/-! ### The reply to a session request -/

theorem sessionCreated_stale {c : Connection σ} {generation : Nat}
    (h : c.isAttempting generation = false) (reply : RemoteResult) :
    c.sessionCreated generation reply = c := by
  cases reply <;> simp [sessionCreated, attemptFailed_stale h, h]

theorem sessionCreated_ok {c : Connection σ} {generation : Nat}
    (h : c.isAttempting generation = true) (reply : ServiceReply) :
    c.sessionCreated generation (.ok reply) =
      { c with
        state := .connected
        waiters := []
        bridge := c.waiters.foldl (Bridge.tell (.ok ())) c.bridge
        trace := c.trace ++ c.waiters.map (.answered · (.ok ())) ++
          c.subscriber.toList.map (.published · (.ok ())) } := by
  simp only [sessionCreated, h, if_true, publish_eq]

/-! ### The start of an attempt, and the channel it asked for -/

theorem start_refused {c : Connection σ} {kind : AttemptKind} {outcome : Outcome}
    (h : admission c.state kind = .refused outcome) (waiter : Option Waiter) :
    c.start kind waiter =
      ({ c with
        bridge := waiter.toList.foldl (Bridge.tell outcome) c.bridge
        trace := c.trace ++ waiter.toList.map (.answered · outcome) }, none) := by
  simp only [start, h, foldl_answer_eq]

theorem start_skipped {c : Connection σ} {kind : AttemptKind}
    (h : admission c.state kind = .skipped) (waiter : Option Waiter) :
    c.start kind waiter = (c, none) := by
  simp only [start, h]

theorem start_begun {c : Connection σ} {kind : AttemptKind}
    (h : admission c.state kind = .begun) (waiter : Option Waiter) :
    c.start kind waiter =
      ({ c with
        transport := (Transport.create c.transport (c.generation + 1)).2
        state := .connecting
        generation := c.generation + 1
        attempt := kind
        waiters := c.waiters ++ waiter.toList
        trace := c.trace ++ [.creating (c.generation + 1)] },
        some (Transport.create c.transport (c.generation + 1)).1) := by
  simp only [start, h, note]

theorem handOver_stale {c : Connection σ} {generation : Nat}
    (h : c.isAttempting generation = false) (channel : Nat) :
    c.handOver generation channel =
      ({ c with
        transport := Transport.close c.transport channel
        trace := c.trace ++ [.closed channel] }, none) := by
  simp [handOver, h, close, note]

theorem handOver_unencoded {c : Connection σ} {generation : Nat} {error : ClientError}
    (h : c.isAttempting generation = true) (he : c.codec.encode c.converter = .error error)
    (channel : Nat) :
    c.handOver generation channel =
      ({ c with channel := some channel }.attemptFailed generation error, none) := by
  simp only [handOver, h, if_true, he]

theorem handOver_requested {c : Connection σ} {generation : Nat} {payload : Bytes}
    (h : c.isAttempting generation = true) (he : c.codec.encode c.converter = .ok payload)
    (channel : Nat) :
    c.handOver generation channel =
      ({ c with
        channel := some channel
        transport := (Transport.openSession c.transport channel generation payload).2
        timers := c.timers ++ [⟨c.now + c.sessionTimeoutMs.toNat,
          .sessionDeadline generation c.sessionTimeoutMs⟩]
        trace := c.trace ++ [.requested generation channel payload] },
        some (Transport.openSession c.transport channel generation payload).1) := by
  simp only [handOver, h, if_true, he, setTimer, note]

/-! ### The end -/

theorem invalidate_invalidated {c : Connection σ} (h : c.state = .invalidated) :
    c.invalidate = c := by
  simp [invalidate, h]

theorem invalidate_eq {c : Connection σ} (h : c.state ≠ .invalidated) :
    c.invalidate =
      { c with
        state := .invalidated
        generation := c.generation + 1
        channel := none
        waiters := []
        timers := []
        transport := c.channel.toList.foldl Transport.close c.transport
        bridge := c.waiters.foldl (Bridge.tell (.error .channelInvalidated)) c.bridge
        trace := c.trace ++ c.channel.toList.map .closed ++
          c.waiters.map (.answered · (.error .channelInvalidated)) ++
          c.subscriber.toList.map (.published · (.error .channelInvalidated)) } := by
  simp only [invalidate, h, if_false, closeAll_eq, publish_eq]

end Connection

end EndpointMonitor
