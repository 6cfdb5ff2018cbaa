import EndpointMonitor.Proofs.Service.Emission
import EndpointMonitor.Service.Turns
import Mathlib.Logic.Function.Iterate

/-!
What the turns of an emission do. A turn does nothing to the service, unless it stores an answer of
the client. Turns that follow one another without interruption are what it is to send a message in
one go.
-/

namespace EndpointMonitor

/-- Where something stands in a list with one place overwritten. -/
theorem getElem?_of_set {α : Type} {l : List α} {m n : Nat} {a b : α}
    (found : (l.set m a)[n]? = some b) : (m = n ∧ a = b) ∨ (m ≠ n ∧ l[n]? = some b) := by
  rw [List.getElem?_set] at found
  split at found
  · next same =>
    split at found
    · exact .inl ⟨same, Option.some.inj found⟩
    · cases found
  · next other => exact .inr ⟨other, found⟩

/-- What a run yields, event by event. -/
def yields {σ ε α : Type} (step : σ → ε → σ) (what : σ → ε → List α) (s : σ) : List ε → List α
  | [] => []
  | event :: events => what s event ++ yields step what (step s event) events

theorem yields_append {σ ε α : Type} (step : σ → ε → σ) (what : σ → ε → List α) (s : σ)
    (events later : List ε) : yields step what s (events ++ later) =
      yields step what s events ++ yields step what (events.foldl step s) later := by
  induction events generalizing s with
  | nil => rfl
  | cons first events ih =>
    rw [List.cons_append, yields, ih, yields, List.append_assoc, List.foldl_cons]

theorem yields_snoc {σ ε α : Type} (step : σ → ε → σ) (what : σ → ε → List α) (s : σ)
    (events : List ε) (event : ε) : yields step what s (events ++ [event]) =
      yields step what s events ++ what (events.foldl step s) event := by
  rw [yields_append, yields, yields, List.append_nil]

/-- An answer of the client that the service stores. -/
inductive CachedAnswer where
  | interest (path : String) (verdict : Option InterestVerdict)
  | resolution (key : String × EventType) (resolution : Resolution)

def ServiceTables.store (t : ServiceTables) : CachedAnswer → ServiceTables
  | .interest path verdict => { t with interest := t.interest.put path verdict }
  | .resolution key resolution => { t with resolutions := t.resolutions.put key resolution }

@[simp] theorem ServiceTables.forget_store (t : ServiceTables) (answer : CachedAnswer) :
    (t.store answer).forget = t.forget := by
  cases answer <;> rfl

/-- A cache with an entry is not empty. -/
theorem ServiceTables.store_ne_empty (t : ServiceTables) (answer : CachedAnswer) :
    t.store answer ≠ .empty := by
  intro same
  cases answer with
  | interest path verdict => exact List.cons_ne_nil _ _ (congrArg (·.interest.entries) same)
  | resolution key resolution => exact List.cons_ne_nil _ _ (congrArg (·.resolutions.entries) same)

/-- The tables are empty as long as nothing has been stored. -/
theorem ServiceTables.foldl_store_eq_empty {answers : List CachedAnswer} :
    answers.foldl ServiceTables.store .empty = .empty ↔ answers = [] := by
  constructor
  · intro empty
    rcases List.eq_nil_or_concat' answers with rfl | ⟨before, last, rfl⟩
    · rfl
    · rw [List.foldl_append] at empty
      exact absurd empty (store_ne_empty _ last)
  · rintro rfl
    rfl

theorem ServiceTables.forget_foldl_store (t : ServiceTables) (answers : List CachedAnswer) :
    (answers.foldl store t).forget = t.forget := by
  induction answers generalizing t with
  | nil => rfl
  | cons answer answers ih => rw [List.foldl_cons, ih, forget_store]

/-- What the next turn of an emission stores. -/
def Emission.stores (e : Emission) : List CachedAnswer :=
  match e.phase with
  | .told verdict => [.interest e.path verdict]
  | .answered resolution =>
    if resolution.cache then [.resolution (Exchange.resolutionKey e.message) resolution] else []
  | .begun | .admitted | .unasked | .wanted | .undecided | .waiting _ | .ended _ => []

/-- The message has been let through, and nobody knows yet what becomes of it. -/
def Emission.UnderWay (e : Emission) : Prop :=
  e.phase ≠ .begun ∧ ∀ outcome, e.phase ≠ .ended outcome

theorem Emission.underWay_of_stores {e : Emission} {answer : CachedAnswer}
    (stores : answer ∈ e.stores) : e.UnderWay := by
  obtain ⟨kind, m, phase⟩ := e
  cases phase with
  | told | answered => exact ⟨nofun, nofun⟩
  | _ => cases stores

@[simp] theorem Emission.enter_phase (e : Emission) (phase : EmissionPhase) :
    (e.enter phase).phase = phase := rfl

@[simp] theorem Emission.stop_phase (e : Emission) :
    e.stop.phase = .ended (Emission.missed e.kind) := rfl

theorem Emission.judge_cases (e : Emission) (verdict : Option InterestVerdict) :
    e.judge verdict = e.stop ∨ e.judge verdict = e.enter .wanted := by
  cases verdict with
  | none => exact .inr rfl
  | some v =>
    simp only [judge]
    split
    · exact .inl rfl
    · exact .inr rfl

namespace Exchange

variable {x y : Exchange} {m : EventMessage}

theorem askInterest_service (x : Exchange) (process : ProcessDescriptor) :
    (x.askInterest process).2.service = x.service := by
  unfold askInterest
  split <;> rfl

/-- All that a turn does to the service is to store an answer. -/
theorem turn_service (x : Exchange) (e : Emission) : (x.turn e).1.service =
    { x.service with tables := e.stores.foldl .store x.service.tables } := by
  obtain ⟨kind, m, phase⟩ := e
  cases phase with
  | begun =>
    simp only [turn]
    split <;> rfl
  | admitted =>
    simp only [turn]
    split <;> rfl
  | unasked => exact askInterest_service x m.process
  | told verdict => rfl
  | wanted =>
    cases kind with
    | notify =>
      simp only [turn]
      split <;> rfl
    | auth =>
      simp only [turn]
      split <;> rfl
  | undecided =>
    simp only [turn]
    split <;> rfl
  | waiting call =>
    simp only [turn]
    split <;> rfl
  | answered resolution =>
    simp only [turn, cacheResolution, Emission.stores]
    split <;> rfl
  | ended outcome => rfl

/-- An emission keeps its message. -/
theorem turn_enter (x : Exchange) (e : Emission) : (x.turn e).2 = e.enter (x.turn e).2.phase := by
  have judged (verdict : Option InterestVerdict) :
      e.judge verdict = e.enter (e.judge verdict).phase := by
    rcases e.judge_cases verdict with same | same <;> rw [same] <;> rfl
  obtain ⟨kind, m, phase⟩ := e
  cases phase with
  | begun | undecided | waiting =>
    simp only [turn]
    split <;> rfl
  | admitted =>
    simp only [turn]
    split
    · exact judged _
    · rfl
  | told verdict => exact judged verdict
  | wanted => cases kind <;> simp only [turn] <;> split <;> rfl
  | unasked | answered | ended => rfl

theorem expire_enter (x : Exchange) (e : Emission) : x.expire e = e.enter (x.expire e).phase := by
  obtain ⟨kind, m, phase⟩ := e
  cases phase with
  | waiting call =>
    simp only [expire]
    split <;> rfl
  | _ => rfl

/-- An emission gets under way by its first turn only, and if the message passes then. -/
theorem underWay_of_turn {e : Emission} (after : (x.turn e).2.UnderWay) : e.UnderWay ∨
    e.phase = .begun ∧ (x.service.isConnected && x.service.tables.passes e.message) = true := by
  obtain ⟨kind, m, phase⟩ := e
  cases phase with
  | begun =>
    refine .inr ⟨rfl, ?_⟩
    cases passes : x.service.isConnected && x.service.tables.passes m with
    | true => rfl
    | false =>
      simp only [turn, passes, Bool.false_eq_true, if_false] at after
      exact absurd rfl (after.2 _)
  | ended outcome => exact absurd rfl (after.2 outcome)
  | _ => exact .inl ⟨nofun, nofun⟩

theorem underWay_of_expire {e : Emission} (after : (x.expire e).UnderWay) : e.UnderWay := by
  obtain ⟨kind, m, phase⟩ := e
  cases phase with
  | waiting call => exact ⟨nofun, nofun⟩
  | _ => exact after

/-! ### Without interruption -/

/-- Sends a message in one go. -/
def emit (x : Exchange) (kind : EmissionKind) (m : EventMessage) : EmissionOutcome × Exchange :=
  match kind with
  | .notify => ((.notified (x.emitNotify m).1), (x.emitNotify m).2)
  | .auth => ((.authorized (x.emitAuth m).1), (x.emitAuth m).2)

/-- A number of turns of one emission, one after the other. -/
def strides (x : Exchange) (k : Nat) (e : Emission) : Exchange × Emission :=
  (fun y : Exchange × Emission => y.1.stride y.2)^[k] (x, e)

theorem strides_succ (x : Exchange) (k : Nat) (e : Emission) :
    x.strides (k + 1) e = (x.stride e).1.strides k (x.stride e).2 := rfl

theorem strides_add (x : Exchange) (j k : Nat) (e : Emission) :
    x.strides (j + k) e = (x.strides j e).1.strides k (x.strides j e).2 := by
  rw [strides, Nat.add_comm, Function.iterate_add_apply]
  rfl

variable {e : Emission}

/-- While no handler waits, a turn is all that happens. -/
theorem stride_of_turn {e' : Emission} (turns : x.turn e = (y, e'))
    (idle : y.dispatcher.jobs = []) : x.stride e = (y, e') := by
  obtain ⟨service, dispatcher⟩ := y
  simp only [stride, turns, Dispatcher.work_of_idle idle]

theorem strides_of_still (still : x.stride e = (x, e)) (k : Nat) : x.strides k e = (x, e) :=
  Function.iterate_fixed (f := fun y : Exchange × Emission => y.1.stride y.2) still k

theorem stride_of_ended (idle : x.dispatcher.jobs = []) {outcome : EmissionOutcome}
    (ended : e.phase = .ended outcome) : x.stride e = (x, e) := by
  refine stride_of_turn ?_ idle
  simp only [turn, ended]

/-- The end of an emission is the same however many turns are left. -/
theorem strides_mono {j k : Nat} {e' : Emission} (le : j ≤ k) (reached : x.strides j e = (y, e'))
    (still : y.stride e' = (y, e')) : x.strides k e = (y, e') := by
  obtain ⟨more, rfl⟩ := Nat.exists_eq_add_of_le le
  rw [strides_add, reached]
  exact strides_of_still still more

/-- What the filters make of a message. -/
def filtered (e : Emission) (passes : Bool) : Emission := if passes then e.enter .wanted else e.stop

theorem judge_eq (e : Emission) (verdict : Option InterestVerdict) : e.judge verdict =
    filtered e (match verdict with
      | some v => !v.ignored.contains e.message.eventType
      | none => true) := by
  unfold Emission.judge filtered
  cases verdict with
  | none => rfl
  | some v => by_cases ignored : v.ignored.contains e.message.eventType = true <;> simp [ignored]

theorem jobs_askInterest (idle : x.dispatcher.jobs = []) (process : ProcessDescriptor) :
    (x.askInterest process).2.dispatcher.jobs = [] := by
  unfold askInterest
  split
  · exact idle
  · exact Dispatcher.jobs_pathInterest idle _

/-- The turns up to the filters. -/
theorem strides_filters (idle : x.dispatcher.jobs = []) (kind : EmissionKind) (m : EventMessage) :
    ∃ k ≤ 4, x.strides k (.new kind m) =
      ((x.delivers m).2, filtered (.new kind m) (x.delivers m).1) := by
  cases passes : x.service.isConnected && x.service.tables.passes m with
  | false =>
    have blocked : x.turn (.new kind m) = (x, (Emission.new kind m).stop) := by
      simp only [turn, Emission.new, passes, Bool.false_eq_true, if_false]
    refine ⟨1, by decide, (stride_of_turn blocked idle).trans ?_⟩
    simp only [delivers, passes, Bool.false_eq_true, if_false]
    rfl
  | true =>
    have admitted : x.turn (.new kind m) = (x, (Emission.new kind m).enter .admitted) := by
      simp only [turn, Emission.new, passes, if_true]
    cases cached : x.service.tables.interest.find? m.process.path with
    | some verdict =>
      have looked : x.turn ((Emission.new kind m).enter .admitted) =
          (x, (Emission.new kind m).judge verdict) := by
        simp only [turn, Emission.enter, Emission.path, Emission.new, cached]
        cases verdict <;> rfl
      refine ⟨2, by decide, ?_⟩
      rw [strides_succ, stride_of_turn admitted idle]
      refine (stride_of_turn looked idle).trans ?_
      simp only [delivers, passes, interestIn, cached, judge_eq]
      cases verdict <;> rfl
    | none =>
      rcases asked : x.askInterest m.process with ⟨verdict, y⟩
      have resting : y.dispatcher.jobs = [] := by
        have rests := jobs_askInterest idle m.process
        rwa [asked] at rests
      have looked : x.turn ((Emission.new kind m).enter .admitted) =
          (x, (Emission.new kind m).enter .unasked) := by
        simp only [turn, Emission.enter, Emission.path, Emission.new, cached]
      have told : x.turn ((Emission.new kind m).enter .unasked) =
          (y, (Emission.new kind m).enter (.told verdict)) := by
        simp only [turn, Emission.enter, Emission.new, asked]
      have judged : y.turn ((Emission.new kind m).enter (.told verdict)) =
          (y.cacheInterest m.process.path verdict, (Emission.new kind m).judge verdict) := by
        cases verdict <;> rfl
      refine ⟨4, by decide, ?_⟩
      rw [strides_succ, stride_of_turn admitted idle, strides_succ, stride_of_turn looked idle,
        strides_succ, stride_of_turn told resting]
      refine (stride_of_turn judged resting).trans ?_
      simp only [delivers, passes, interestIn, cached, asked, judge_eq]
      cases verdict <;> rfl

theorem jobs_delivers (idle : x.dispatcher.jobs = []) (m : EventMessage) :
    (x.delivers m).2.dispatcher.jobs = [] := by
  rcases delivers_cases x m with same | asked
  · rwa [same]
  · rw [asked]
    unfold interestIn
    split
    · exact idle
    · exact jobs_askInterest idle m.process

/-- A notification that has passed the filters goes out in one turn. -/
theorem stride_notify (idle : y.dispatcher.jobs = []) (passed : x.delivers m = (true, y)) :
    y.stride ⟨.notify, m, .wanted⟩ =
      ((x.emitNotify m).2, ⟨.notify, m, .ended (.notified (x.emitNotify m).1)⟩) := by
  cases encoded : y.service.codec.encode m with
  | error error =>
    have missed : y.turn ⟨.notify, m, .wanted⟩ = (y, ⟨.notify, m, .ended (.notified false)⟩) := by
      simp only [turn, encoded]
      rfl
    simp only [emitNotify, passed, encoded]
    exact stride_of_turn missed idle
  | ok payload =>
    simp only [emitNotify, passed, encoded, stride, turn]
    rfl

/-- An authorization request that has passed the filters is decided by what is cached, or it goes to
the handler, whose answer is stored. -/
theorem strides_auth (idle : y.dispatcher.jobs = []) (passed : x.delivers m = (true, y)) :
    ∃ k ≤ 4, ∃ e, y.strides k ⟨.auth, m, .wanted⟩ = ((x.emitAuth m).2, e) ∧
      (x.emitAuth m).2.stride e = ((x.emitAuth m).2, e) ∧
      ((x.emitAuth m).2.expire e).phase = .ended (.authorized (x.emitAuth m).1) := by
  cases cached : y.service.tables.resolutions.find? (resolutionKey m) with
  | some resolution =>
    have looked : y.turn ⟨.auth, m, .wanted⟩ =
        (y, ⟨.auth, m, .ended (.authorized (.cached resolution))⟩) := by
      simp only [turn, cached]
      rfl
    rw [emitAuth_cached passed cached]
    exact ⟨1, by decide, _, stride_of_turn looked idle, stride_of_ended idle rfl, rfl⟩
  | none =>
    have looked : y.turn ⟨.auth, m, .wanted⟩ = (y, ⟨.auth, m, .undecided⟩) := by
      simp only [turn, cached]
      rfl
    cases encoded : y.service.codec.encode m with
    | error error =>
      have missed : y.turn ⟨.auth, m, .undecided⟩ =
          (y, ⟨.auth, m, .ended (.authorized .notDelivered)⟩) := by
        simp only [turn, encoded]
        rfl
      have told : x.emitAuth m = (.notDelivered, y) := by
        simp only [emitAuth, passed, cached, encoded]
      rw [told]
      refine ⟨2, by decide, ⟨.auth, m, .ended (.authorized .notDelivered)⟩, ?_,
        stride_of_ended idle rfl, rfl⟩
      rw [strides_succ, stride_of_turn looked idle]
      exact stride_of_turn missed idle
    | ok payload =>
      let z : Exchange := { y with dispatcher := (y.dispatcher.auth payload).2 }
      have resting : z.dispatcher.jobs = [] := Dispatcher.jobs_work _
      have sent : y.stride ⟨.auth, m, .undecided⟩ =
          (z, ⟨.auth, m, .waiting y.dispatcher.calls⟩) := by
        simp only [stride, turn, encoded]
        rfl
      have answer : (y.dispatcher.auth payload).1 =
          z.dispatcher.resolution? y.dispatcher.calls := rfl
      cases decided : z.dispatcher.resolution? y.dispatcher.calls with
      | none =>
        have kept := emitAuth_kept passed cached encoded (Prod.ext (answer.trans decided) rfl)
        have waits : z.turn ⟨.auth, m, .waiting y.dispatcher.calls⟩ =
            (z, ⟨.auth, m, .waiting y.dispatcher.calls⟩) := by
          simp only [turn, decided]
        rw [kept]
        refine ⟨2, by decide, _, ?_, stride_of_turn waits resting, ?_⟩
        · rw [strides_succ, stride_of_turn looked idle]
          exact sent
        · have unanswered : (z.dispatcher.resolution? y.dispatcher.calls).isNone = true := by
            rw [decided]
            rfl
          simp only [expire]
          exact congrArg Emission.phase (if_pos unanswered)
      | some wire =>
        have resolved :=
          emitAuth_decided passed cached encoded (Prod.ext (answer.trans decided) rfl)
        have heard : z.turn ⟨.auth, m, .waiting y.dispatcher.calls⟩ =
            (z, ⟨.auth, m, .answered (.ofWire wire)⟩) := by
          simp only [turn, decided]
          rfl
        have stored : z.turn ⟨.auth, m, .answered (.ofWire wire)⟩ =
            (z.cacheResolution (resolutionKey m) (.ofWire wire),
              ⟨.auth, m, .ended (.authorized (.resolved (.ofWire wire)))⟩) := rfl
        have last : (z.cacheResolution (resolutionKey m) (.ofWire wire)).dispatcher.jobs = [] := by
          rw [cacheResolution_dispatcher]
          exact resting
        rw [resolved]
        refine ⟨4, by decide, ⟨.auth, m, .ended (.authorized (.resolved (.ofWire wire)))⟩, ?_,
          stride_of_ended last rfl, rfl⟩
        rw [strides_succ, stride_of_turn looked idle, strides_succ, sent, strides_succ,
          stride_of_turn heard resting]
        exact stride_of_turn stored last

/-- Turns without interruption come to the same as to send the message in one go. -/
theorem strides_emit (idle : x.dispatcher.jobs = []) (kind : EmissionKind) (m : EventMessage) :
    ∃ e, x.strides Emission.maxTurns (.new kind m) = ((x.emit kind m).2, e) ∧
      ((x.emit kind m).2.expire e).phase = .ended (x.emit kind m).1 := by
  obtain ⟨k, few, reached⟩ := strides_filters idle kind m
  have resting := jobs_delivers idle m
  rcases delivered : x.delivers m with ⟨passes, y⟩
  rw [delivered] at reached resting
  have on (j : Nat) : x.strides (k + j) (.new kind m) =
      y.strides j (filtered (.new kind m) passes) := by
    rw [strides_add, reached]
  cases passes with
  | false =>
    have missed : (x.emit kind m) = (Emission.missed kind, y) := by
      cases kind with
      | notify => simp only [emit, emitNotify, delivered]; rfl
      | auth => simp only [emit, emitAuth_filtered delivered]; rfl
    rw [missed]
    exact ⟨_, strides_mono (Nat.le_trans few (by decide)) reached
      (stride_of_ended resting rfl), rfl⟩
  | true =>
    cases kind with
    | notify =>
      have sent := stride_notify resting delivered
      have left : (x.emitNotify m).2.dispatcher.jobs = [] := by
        simp only [emitNotify, delivered]
        split
        · exact Dispatcher.jobs_work _
        · exact resting
      refine ⟨_, strides_mono (j := k + 1) ?_ ((on 1).trans sent) (stride_of_ended left rfl), rfl⟩
      exact Nat.le_trans (Nat.add_le_add_right few 1) (by decide)
    | auth =>
      obtain ⟨j, more, e, sent, still, ends⟩ := strides_auth resting delivered
      exact ⟨e, strides_mono (Nat.add_le_add few more) ((on j).trans sent) still, ends⟩

end Exchange

end EndpointMonitor
