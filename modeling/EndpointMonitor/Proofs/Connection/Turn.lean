import EndpointMonitor.Proofs.Connection.Step
import Mathlib.Data.List.Basic

/-!
What a step comes to for the life of a connection. There are seven turns that a step can take, and
the turn alone decides the next state, generation and kind of attempt, which timer is set and which
outcome is told. Whatever holds of each turn holds of each step.
-/

namespace EndpointMonitor

/-- The outcome that a subscriber hears. -/
def ConnectionEvent.heard? : ConnectionEvent → Option Outcome
  | .published _ outcome => some outcome
  | .creating _ | .requested _ _ _ | .closed _ | .answered _ _ => none

namespace ConnectionEvent

@[simp] theorem heard_creating (generation : Nat) : (creating generation).heard? = none := rfl

@[simp] theorem heard_requested (generation channel : Nat) (converter : Bytes) :
    (requested generation channel converter).heard? = none := rfl

@[simp] theorem heard_closed (channel : Nat) : (closed channel).heard? = none := rfl

@[simp] theorem heard_answered (waiter : Waiter) (outcome : Outcome) :
    (answered waiter outcome).heard? = none := rfl

@[simp] theorem heard_published (subscriber : String) (outcome : Outcome) :
    (published subscriber outcome).heard? = some outcome := rfl

end ConnectionEvent

namespace Connection

variable {σ : Type}

/-- The outcomes published so far. -/
def outcomes (c : Connection σ) : List Outcome := c.trace.filterMap (·.heard?)

/-- What a step means for the connection, whatever else it does. -/
inductive Turn where
  | begins (kind : AttemptKind)
  /-- The session request of the attempt under way goes out. -/
  | requests
  | opens
  | fails (error : ClientError)
  | loses
  | ends
  | rests

/-- A failure concerns the attempt under way, or nobody. -/
def failureTurn (c : Connection σ) (generation : Nat) (error : ClientError) : Turn :=
  if c.isAttempting generation then .fails error else .rests

def startTurn (c : Connection σ) (kind : AttemptKind) : Turn :=
  match admission c.state kind with
  | .begun => .begins kind
  | .refused _ | .skipped => .rests

def handOverTurn (c : Connection σ) (generation : Nat) : Turn :=
  match c.codec.encode c.converter with
  | .error error => c.failureTurn generation error
  | .ok _ => if c.isAttempting generation then .requests else .rests

def signalTurn (c : Connection σ) : Signal → Turn
  | .lost generation => if c.isUp generation then .loses else .rests
  | .sessionReply generation (.error reason) => c.failureTurn generation (.remote reason)
  | .sessionReply generation (.ok _) => if c.isAttempting generation then .opens else .rests

def alarmTurn (c : Connection σ) : Alarm → Turn
  | .reconnect => c.startTurn .automatic
  | .sessionDeadline generation timeoutMs => c.failureTurn generation (.timeout timeoutMs)

def turn (c : Connection σ) : Step σ → Turn
  | .connect _ => c.startTurn .manual
  | .created generation (.error error) => c.failureTurn generation error
  | .created generation (.ok _) => c.handOverTurn generation
  | .signal signal => c.signalTurn signal
  | .ring t => if c.isDue t then c.alarmTurn t.alarm else .rests
  | .giveUp generation timeoutMs => c.failureTurn generation (.timeout timeoutMs)
  | .invalidate => if c.state = .invalidated then .rests else .ends
  | .pass _ | .configure _ | .callers _ _ | .world _ => .rests

namespace Turn

/-- The states in which a turn can be taken. -/
def Allowed (c : Connection σ) : Turn → Prop
  | .begins kind => c.state = .interrupted ∨ c.state = .idle ∧ kind = .manual
  | .requests | .opens | .fails _ => c.state = .connecting
  | .loses => c.state = .connecting ∨ c.state = .connected
  | .ends => c.state ≠ .invalidated
  | .rests => True

/-- The steps by which a turn can be taken. -/
def TakenBy (c : Connection σ) (s : Step σ) : Turn → Prop
  | .begins .manual => ∃ waiter, s = .connect waiter
  | .begins .automatic => ∃ t, s = .ring t ∧ c.isDue t = true ∧ t.alarm = .reconnect
  | .loses => ∃ generation, s = .signal (.lost generation) ∧ c.isUp generation = true
  | .ends => s = .invalidate
  | .requests | .opens | .fails _ | .rests => True

/-- The state that a turn leads to. -/
@[simp] def state (c : Connection σ) : Turn → ConnectionState
  | .begins _ => .connecting
  | .requests | .rests => c.state
  | .opens => .connected
  | .fails _ =>
    match c.attempt with
    | .manual => .idle
    | .automatic => .interrupted
  | .loses => .interrupted
  | .ends => .invalidated

@[simp] def generation (c : Connection σ) : Turn → Nat
  | .begins _ | .ends => c.generation + 1
  | .requests | .opens | .fails _ | .loses | .rests => c.generation

@[simp] def attempt (c : Connection σ) : Turn → AttemptKind
  | .begins kind => kind
  | .loses => .automatic
  | .requests | .opens | .fails _ | .ends | .rests => c.attempt

/-- The timer that a turn sets, if any. -/
@[simp] def timer? (c : Connection σ) : Turn → Option Timer
  | .requests =>
    some ⟨c.now + c.sessionTimeoutMs.toNat, .sessionDeadline c.generation c.sessionTimeoutMs⟩
  | .fails _ =>
    match c.attempt with
    | .manual => none
    | .automatic => some ⟨c.now + c.reconnectDelayMs.toNat, .reconnect⟩
  | .loses => some ⟨c.now + c.reconnectDelayMs.toNat, .reconnect⟩
  | .begins _ | .opens | .ends | .rests => none

/-- The timers after a turn, if these are left of those that were set before. -/
@[simp] def timers (c : Connection σ) (left : List Timer) : Turn → List Timer
  | .ends => []
  | t => left ++ (t.timer? c).toList

theorem timers_of_ne_ends (c : Connection σ) (left : List Timer) {t : Turn} (h : t ≠ .ends) :
    t.timers c left = left ++ (t.timer? c).toList := by
  cases t <;> first | rfl | exact absurd rfl h

/-- The outcome that a turn tells the subscriber, if there is one. -/
@[simp] def outcome? (c : Connection σ) : Turn → Option Outcome
  | .opens => some (.ok ())
  | .fails error =>
    match c.attempt with
    | .manual => some (.error error)
    | .automatic => none
  | .loses =>
    if c.state = .connected ∨ c.attempt = .manual then some (.error .interrupted) else none
  | .ends => some (.error .channelInvalidated)
  | .begins _ | .requests | .rests => none

end Turn

/-! ### When the turns are taken -/

theorem failureTurn_taken (c : Connection σ) (s : Step σ) (generation : Nat)
    (error : ClientError) :
    (c.failureTurn generation error).Allowed c ∧ (c.failureTurn generation error).TakenBy c s := by
  unfold failureTurn
  split
  · next h => exact ⟨((isAttempting_iff c generation).1 h).2, trivial⟩
  · exact ⟨trivial, trivial⟩

theorem startTurn_allowed (c : Connection σ) (kind : AttemptKind) :
    (c.startTurn kind).Allowed c := by
  cases hs : c.state <;> cases kind <;> simp [startTurn, admission, Turn.Allowed, hs]

theorem signalTurn_taken (c : Connection σ) (signal : Signal) :
    (c.signalTurn signal).Allowed c ∧ (c.signalTurn signal).TakenBy c (.signal signal) := by
  rcases signal with generation | ⟨generation, reason | reply⟩
  · simp only [signalTurn]
    split
    · next up => exact ⟨((isUp_iff c generation).1 up).2, generation, rfl, up⟩
    · exact ⟨trivial, trivial⟩
  · exact failureTurn_taken c _ generation _
  · simp only [signalTurn]
    split
    · next h => exact ⟨((isAttempting_iff c generation).1 h).2, trivial⟩
    · exact ⟨trivial, trivial⟩

theorem ringTurn_taken {c : Connection σ} {t : Timer} (due : c.isDue t = true) :
    (c.alarmTurn t.alarm).Allowed c ∧ (c.alarmTurn t.alarm).TakenBy c (.ring t) := by
  cases ha : t.alarm with
  | reconnect =>
    refine ⟨startTurn_allowed c .automatic, ?_⟩
    simp only [alarmTurn, startTurn]
    split
    · exact ⟨t, rfl, due, ha⟩
    all_goals trivial
  | sessionDeadline generation timeoutMs => exact failureTurn_taken c _ generation _

/-- A turn is taken only in a state and by a step where it can be. -/
theorem turn_taken (c : Connection σ) (s : Step σ) :
    (c.turn s).Allowed c ∧ (c.turn s).TakenBy c s := by
  cases s with
  | connect waiter =>
    refine ⟨startTurn_allowed c .manual, ?_⟩
    simp only [turn, startTurn]
    split
    · exact ⟨waiter, rfl⟩
    all_goals trivial
  | created generation result =>
    cases result with
    | error error => exact failureTurn_taken c _ generation error
    | ok channel =>
      simp only [turn, handOverTurn]
      split
      · exact failureTurn_taken c _ generation _
      · split
        · next h => exact ⟨((isAttempting_iff c generation).1 h).2, trivial⟩
        · exact ⟨trivial, trivial⟩
  | signal signal => exact signalTurn_taken c signal
  | ring t =>
    simp only [turn]
    split
    · next due => exact ringTurn_taken due
    · exact ⟨trivial, trivial⟩
  | giveUp generation timeoutMs => exact failureTurn_taken c _ generation _
  | invalidate =>
    simp only [turn]
    split
    · exact ⟨trivial, trivial⟩
    · next h => exact ⟨h, rfl⟩
  | pass ms | configure setting | callers bridge awaited | world transport =>
    exact ⟨trivial, trivial⟩

theorem turn_allowed (c : Connection σ) (s : Step σ) : (c.turn s).Allowed c := (turn_taken c s).1

theorem turn_takenBy (c : Connection σ) (s : Step σ) : (c.turn s).TakenBy c s := (turn_taken c s).2

/-! ### What the turns do -/

/-- The outcomes that are published when there is this one to tell. -/
@[simp] def news (c : Connection σ) : Option Outcome → List Outcome
  | some outcome => c.subscriber.toList.map fun _ => outcome
  | none => []

theorem news_of_subscriber {c : Connection σ} {subscriber : String}
    (h : c.subscriber = some subscriber) (outcome : Option Outcome) :
    c.news outcome = outcome.toList := by
  cases outcome <;> simp [h]

/-- A turn is done to a connection that has these timers left. -/
structure Turns (c : Connection σ) (left : List Timer) (t : Turn) (c' : Connection σ) : Prop where
  state : c'.state = t.state c
  generation : c'.generation = t.generation c
  attempt : c'.attempt = t.attempt c
  timers : c'.timers = t.timers c left
  outcomes : c'.outcomes = c.outcomes ++ c.news (t.outcome? c)

/-- What is set on a connection, and its clock, stay as they are. -/
structure SameSettings (c c' : Connection σ) : Prop where
  now : c'.now = c.now
  subscriber : c'.subscriber = c.subscriber
  reconnectDelayMs : c'.reconnectDelayMs = c.reconnectDelayMs
  sessionTimeoutMs : c'.sessionTimeoutMs = c.sessionTimeoutMs

theorem SameSettings.trans {c d e : Connection σ} (h : SameSettings c d) (h' : SameSettings d e) :
    SameSettings c e where
  now := h'.now.trans h.now
  subscriber := h'.subscriber.trans h.subscriber
  reconnectDelayMs := h'.reconnectDelayMs.trans h.reconnectDelayMs
  sessionTimeoutMs := h'.sessionTimeoutMs.trans h.sessionTimeoutMs

/-- A turn is done, and nothing else. -/
structure Does (c : Connection σ) (t : Turn) (c' : Connection σ) : Prop extends
  Turns c c.timers t c', SameSettings c c'

theorem Does.rest (c : Connection σ) : Does c .rests c where
  state := rfl
  generation := rfl
  attempt := rfl
  timers := (List.append_nil _).symm
  outcomes := (List.append_nil _).symm
  now := rfl
  subscriber := rfl
  reconnectDelayMs := rfl
  sessionTimeoutMs := rfl

theorem channelLost_does (c : Connection σ) (generation : Nat) :
    Does c (c.signalTurn (.lost generation)) (c.channelLost generation) := by
  by_cases h : c.isUp generation = true
  · rw [signalTurn, if_pos h]
    by_cases ht : c.state = .connected ∨ c.attempt = .manual
    · rw [channelLost_told h ht]
      refine ⟨⟨?_, ?_, ?_, ?_, ?_⟩, ⟨rfl, rfl, rfl, rfl⟩⟩ <;>
        simp [ht, outcomes, interrupt, Function.comp_def, List.filterMap_none]
    · rw [channelLost_untold h ht]
      refine ⟨⟨?_, ?_, ?_, ?_, ?_⟩, ⟨rfl, rfl, rfl, rfl⟩⟩ <;>
        simp [ht, outcomes, interrupt]
  · rw [signalTurn, if_neg h, channelLost_stale (by simpa using h)]
    exact .rest c

variable [Transport σ]

theorem attemptFailed_does (c : Connection σ) (generation : Nat) (error : ClientError) :
    Does c (c.failureTurn generation error) (c.attemptFailed generation error) := by
  by_cases h : c.isAttempting generation = true
  · rw [failureTurn, if_pos h]
    cases ha : c.attempt with
    | manual =>
      rw [attemptFailed_manual h ha]
      refine ⟨⟨?_, ?_, ?_, ?_, ?_⟩, ⟨rfl, rfl, rfl, rfl⟩⟩ <;>
        simp [ha, outcomes, Function.comp_def, List.filterMap_none]
    | automatic =>
      rw [attemptFailed_automatic h ha]
      refine ⟨⟨?_, ?_, ?_, ?_, ?_⟩, ⟨rfl, rfl, rfl, rfl⟩⟩ <;>
        simp [ha, outcomes, Function.comp_def, List.filterMap_none]
  · rw [failureTurn, if_neg h, attemptFailed_stale (by simpa using h)]
    exact .rest c

theorem receive_does (c : Connection σ) (signal : Signal) :
    Does c (c.signalTurn signal) (c.receive signal) := by
  cases signal with
  | lost generation => exact channelLost_does c generation
  | sessionReply generation reply =>
    cases reply with
    | error reason => exact attemptFailed_does c generation (.remote reason)
    | ok reply =>
      by_cases h : c.isAttempting generation = true
      · rw [signalTurn, if_pos h, receive, sessionCreated_ok h]
        refine ⟨⟨?_, ?_, ?_, ?_, ?_⟩, ⟨rfl, rfl, rfl, rfl⟩⟩ <;>
          simp [outcomes, Function.comp_def, List.filterMap_none]
      · rw [signalTurn, if_neg h, receive, sessionCreated_stale (by simpa using h)]
        exact .rest c

theorem start_does (c : Connection σ) (kind : AttemptKind) (waiter : Option Waiter) :
    Does c (c.startTurn kind) (c.start kind waiter).1 := by
  cases h : admission c.state kind with
  | refused outcome =>
    rw [startTurn, h, start_refused h]
    refine ⟨⟨?_, ?_, ?_, ?_, ?_⟩, ⟨rfl, rfl, rfl, rfl⟩⟩ <;>
      simp [outcomes, Function.comp_def, List.filterMap_none]
  | skipped =>
    rw [startTurn, h, start_skipped h]
    exact .rest c
  | begun =>
    rw [startTurn, h, start_begun h]
    refine ⟨⟨?_, ?_, ?_, ?_, ?_⟩, ⟨rfl, rfl, rfl, rfl⟩⟩ <;>
      simp [outcomes]

theorem handOver_does (c : Connection σ) (generation channel : Nat) :
    Does c (c.handOverTurn generation) (c.handOver generation channel).1 := by
  by_cases h : c.isAttempting generation = true
  · cases he : c.codec.encode c.converter with
    | error error =>
      have hd := attemptFailed_does { c with channel := some channel } generation error
      rw [handOverTurn, he, handOver_unencoded h he]
      exact ⟨⟨hd.state, hd.generation, hd.attempt, hd.timers, hd.outcomes⟩,
        ⟨hd.now, hd.subscriber, hd.reconnectDelayMs, hd.sessionTimeoutMs⟩⟩
    | ok payload =>
      have hg : c.generation = generation := ((isAttempting_iff c generation).1 h).1
      rw [handOverTurn, he, if_pos h, handOver_requested h he]
      refine ⟨⟨?_, ?_, ?_, ?_, ?_⟩, ⟨rfl, rfl, rfl, rfl⟩⟩ <;>
        simp [outcomes, hg]
  · have hr : c.handOverTurn generation = .rests := by
      unfold handOverTurn
      split <;> simp [failureTurn, h]
    rw [hr, handOver_stale (by simpa using h)]
    refine ⟨⟨?_, ?_, ?_, ?_, ?_⟩, ⟨rfl, rfl, rfl, rfl⟩⟩ <;>
      simp [outcomes]

theorem invalidate_does (c : Connection σ) : Does c (c.turn .invalidate) c.invalidate := by
  by_cases h : c.state = .invalidated
  · rw [turn, if_pos h, invalidate_invalidated h]
    exact .rest c
  · rw [turn, if_neg h, invalidate_eq h]
    refine ⟨⟨?_, ?_, ?_, ?_, ?_⟩, ⟨rfl, rfl, rfl, rfl⟩⟩ <;>
      simp [outcomes, Function.comp_def, List.filterMap_none]

theorem strike_does (c : Connection σ) (alarm : Alarm) :
    Does c (c.alarmTurn alarm) (c.strike alarm) := by
  cases alarm with
  | reconnect => exact start_does c .automatic none
  | sessionDeadline generation timeoutMs => exact attemptFailed_does c generation _

/-! ### Steps -/

/-- The timers that are left when a step has taken away the one that rings, if one does. -/
def timersAfterRing (c : Connection σ) : Step σ → List Timer
  | .ring t => if c.isDue t then c.timers.erase t else c.timers
  | _ => c.timers

omit [Transport σ] in
theorem mem_of_mem_timersAfterRing {c : Connection σ} {s : Step σ} {t : Timer}
    (h : t ∈ c.timersAfterRing s) : t ∈ c.timers := by
  cases s with
  | ring u =>
    simp only [timersAfterRing] at h
    split at h
    · exact List.mem_of_mem_erase h
    · exact h
  | _ => exact h

theorem step_turns (c : Connection σ) (s : Step σ) :
    Turns c (c.timersAfterRing s) (c.turn s) (c.step s) := by
  cases s with
  | connect waiter => exact (start_does c .manual (some waiter)).toTurns
  | created generation result =>
    cases result with
    | error error => exact (attemptFailed_does c generation error).toTurns
    | ok channel => exact (handOver_does c generation channel).toTurns
  | signal signal => exact (receive_does c signal).toTurns
  | ring t =>
    by_cases h : c.isDue t = true
    · have hd := strike_does { c with timers := c.timers.erase t } t.alarm
      simp only [timersAfterRing, turn, step, h, if_true]
      exact ⟨hd.state, hd.generation, hd.attempt, hd.timers, hd.outcomes⟩
    · simp only [timersAfterRing, turn, step, h]
      exact (Does.rest c).toTurns
  | giveUp generation timeoutMs => exact (attemptFailed_does c generation _).toTurns
  | invalidate => exact (invalidate_does c).toTurns
  | configure setting =>
    have hd := (Does.rest c).toTurns
    cases setting <;> exact ⟨rfl, rfl, rfl, hd.timers, hd.outcomes⟩
  | pass ms | callers bridge awaited | world transport =>
    have hd := (Does.rest c).toTurns
    exact ⟨rfl, rfl, rfl, hd.timers, hd.outcomes⟩

theorem mem_step_timers {c : Connection σ} {s : Step σ} {t : Timer}
    (h : t ∈ (c.step s).timers) :
    t ∈ c.timersAfterRing s ∨ (c.turn s).timer? c = some t := by
  rw [(step_turns c s).timers] at h
  by_cases ht : c.turn s = .ends
  · simp [ht] at h
  · rw [Turn.timers_of_ne_ends c _ ht, List.mem_append, Option.mem_toList] at h
    exact h

/-- Whether a step is the passing of time or a setting. -/
def Step.isOutside : Step σ → Bool
  | .pass _ | .configure _ => true
  | _ => false

theorem step_sameSettings (c : Connection σ) {s : Step σ} (h : s.isOutside = false) :
    SameSettings c (c.step s) := by
  cases s with
  | connect waiter => exact (start_does c .manual (some waiter)).toSameSettings
  | created generation result =>
    cases result with
    | error error => exact (attemptFailed_does c generation error).toSameSettings
    | ok channel => exact (handOver_does c generation channel).toSameSettings
  | signal signal => exact (receive_does c signal).toSameSettings
  | ring t =>
    by_cases hd : c.isDue t = true
    · have hs := (strike_does { c with timers := c.timers.erase t } t.alarm).toSameSettings
      simp only [step, hd, if_true]
      exact ⟨hs.now, hs.subscriber, hs.reconnectDelayMs, hs.sessionTimeoutMs⟩
    · simp only [step, hd]
      exact (Does.rest c).toSameSettings
  | giveUp generation timeoutMs => exact (attemptFailed_does c generation _).toSameSettings
  | invalidate => exact (invalidate_does c).toSameSettings
  | callers bridge awaited | world transport => exact ⟨rfl, rfl, rfl, rfl⟩
  | pass ms | configure setting => simp [Step.isOutside] at h

theorem run_sameSettings (c : Connection σ) {steps : List (Step σ)}
    (h : ∀ s ∈ steps, s.isOutside = false) : SameSettings c (c.run steps) := by
  induction steps generalizing c with
  | nil => exact (Does.rest c).toSameSettings
  | cons s steps ih =>
    exact (step_sameSettings c (h s (by simp))).trans (ih (c.step s) fun u hu => h u (by simp [hu]))

/-! ### Generations are never used again -/

/-- Whether a step can lead to a new generation. -/
def Step.renews : Step σ → Bool
  | .connect _ | .ring _ | .invalidate => true
  | _ => false

theorem generation_step (c : Connection σ) {s : Step σ} (h : s.renews = false) :
    (c.step s).generation = c.generation := by
  rw [(step_turns c s).generation]
  have taken := turn_takenBy c s
  cases ht : c.turn s with
  | begins kind =>
    rw [ht] at taken
    cases kind with
    | manual =>
      obtain ⟨waiter, rfl⟩ := taken
      simp [Step.renews] at h
    | automatic =>
      obtain ⟨t, rfl, -⟩ := taken
      simp [Step.renews] at h
  | ends =>
    rw [ht] at taken
    obtain rfl := taken
    simp [Step.renews] at h
  | _ => rfl

theorem generation_run (c : Connection σ) {steps : List (Step σ)}
    (h : ∀ s ∈ steps, s.renews = false) : (c.run steps).generation = c.generation := by
  induction steps generalizing c with
  | nil => rfl
  | cons s steps ih =>
    exact (ih (c.step s) fun u hu => h u (by simp [hu])).trans (generation_step c (h s (by simp)))

theorem generation_le_step (c : Connection σ) (s : Step σ) :
    c.generation ≤ (c.step s).generation := by
  rw [(step_turns c s).generation]
  cases c.turn s <;> simp

theorem generation_le_run (c : Connection σ) (steps : List (Step σ)) :
    c.generation ≤ (c.run steps).generation := by
  induction steps generalizing c with
  | nil => exact Nat.le_refl _
  | cons s steps ih => exact Nat.le_trans (generation_le_step c s) (ih (c.step s))

/-- An attempt that was under way and still is has at most sent its session request. -/
theorem turn_of_isAttempting_step {c : Connection σ} {s : Step σ} {generation : Nat}
    (known : generation ≤ c.generation) (h : (c.step s).isAttempting generation = true) :
    c.isAttempting generation = true ∧ (c.turn s = .requests ∨ c.turn s = .rests) := by
  rw [isAttempting_iff, (step_turns c s).state, (step_turns c s).generation] at h
  rw [isAttempting_iff]
  cases ht : c.turn s with
  | begins kind | ends =>
    simp only [ht, Turn.generation] at h
    omega
  | requests | rests => simpa [ht] using h
  | fails error => cases ha : c.attempt <;> simp [ht, ha] at h
  | opens | loses => simp [ht] at h

theorem isAttempting_of_run {c : Connection σ} {steps : List (Step σ)} {generation : Nat}
    (known : generation ≤ c.generation) (h : (c.run steps).isAttempting generation = true) :
    c.isAttempting generation = true := by
  induction steps generalizing c with
  | nil => exact h
  | cons s steps ih =>
    exact (turn_of_isAttempting_step known (ih (Nat.le_trans known (generation_le_step c s)) h)).1

/-- An attempt that is over does not come back. -/
theorem isUp_of_step {c : Connection σ} {s : Step σ} {generation : Nat}
    (known : generation ≤ c.generation) (up : (c.step s).isUp generation = true) :
    c.isUp generation = true := by
  rw [isUp_iff, (step_turns c s).state, (step_turns c s).generation] at up
  rw [isUp_iff]
  have allowed := turn_allowed c s
  cases ht : c.turn s with
  | begins kind | ends =>
    simp only [ht, Turn.generation] at up
    omega
  | requests | rests => simpa [ht, Turn.generation, Turn.state] using up
  | opens | fails error =>
    rw [ht] at allowed up
    exact ⟨up.1, .inl allowed⟩
  | loses =>
    rw [ht] at allowed up
    exact ⟨up.1, allowed⟩

theorem isUp_of_run {c : Connection σ} {steps : List (Step σ)} {generation : Nat}
    (known : generation ≤ c.generation) (up : (c.run steps).isUp generation = true) :
    c.isUp generation = true := by
  induction steps generalizing c with
  | nil => exact up
  | cons s steps ih =>
    exact isUp_of_step known (ih (Nat.le_trans known (generation_le_step c s)) up)

end Connection

end EndpointMonitor
