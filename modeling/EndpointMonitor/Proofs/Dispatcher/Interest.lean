import EndpointMonitor.Proofs.Codec.RoundTrip
import EndpointMonitor.Proofs.Dispatcher.Serial

/-!
Questions about the interest in a process. The handler is run by the executor, some time after the
question has come in, or its job is lost there. The verdict that it comes to arrives as it is, or
there is no answer.
-/

namespace EndpointMonitor

/-- What the executor does with the handler of a question. -/
inductive QuestionFate where
  | run
  | lost

/-- The handlers that are run for a question. -/
def QuestionFate.invocations (process : ProcessDescriptor) : QuestionFate → List Invocation
  | .run => [.interest process]
  | .lost => []

/-- The answer that an opinion makes, if it makes one that fits. -/
def Opinion.reply? (codec : Codec) : Opinion → Option Bytes
  | .verdict (some told) => (codec.encode told).toOption
  | .verdict none | .failed => none

theorem Opinion.reply?_eq_some {codec : Codec} {opinion : Opinion} {bytes : Bytes} :
    opinion.reply? codec = some bytes ↔ ∃ verdict, opinion = .verdict (some verdict) ∧
      (Wire.encode verdict).write.length ≤ codec.limit ∧ bytes = (Wire.encode verdict).write := by
  cases opinion with
  | failed => simp [Opinion.reply?]
  | verdict value =>
    cases value with
    | none => simp [Opinion.reply?]
    | some verdict =>
      simp only [Opinion.reply?, Opinion.verdict.injEq, Option.some.injEq, exists_eq_left']
      constructor
      · intro told
        cases encoded : codec.encode verdict with
        | error e =>
          rw [encoded] at told
          cases told
        | ok payload =>
          rw [encoded] at told
          obtain rfl := Option.some.inj told
          obtain ⟨rfl, fits⟩ := Codec.write_of_encode encoded
          exact ⟨fits, rfl⟩
      · rintro ⟨fits, rfl⟩
        rw [Codec.encode_of_fits fits]
        rfl

namespace Dispatcher

/-- A question comes in, other things happen, and then the executor comes to its handler. The
question is not put to anybody if it cannot be read or there is no handler for it. -/
def pathInterestAmid (d : Dispatcher) (payload : Bytes) (meanwhile : List Operation)
    (fate : QuestionFate) : Option Bytes × Dispatcher :=
  match d.codec.decode (α := ProcessDescriptor) payload, d.handlers.pathInterest with
  | .ok process, some handler =>
    match fate with
    | .run =>
      ((handler process).reply? d.codec, (d.run meanwhile).note (.invoked (.interest process)))
    | .lost => (none, d.run meanwhile)
  | _, _ => (none, d)

variable {d : Dispatcher} {payload : Bytes} {process : ProcessDescriptor}
  {handler : InterestHandler}

/-- A question is as good as one that waits for all handlers that wait already. -/
theorem pathInterest_eq (d : Dispatcher) (payload : Bytes) :
    d.pathInterest payload = d.pathInterestAmid payload [.work] .run := by
  have worked : d.run [.work] = d.work := rfl
  have codec := (work_steady d).codec
  unfold pathInterest pathInterestAmid
  cases d.codec.decode (α := ProcessDescriptor) payload with
  | error e => rfl
  | ok process =>
    cases d.handlers.pathInterest with
    | none => rfl
    | some handler =>
      simp only [worked]
      cases opinion : handler process with
      | failed => rfl
      | verdict value =>
        cases value with
        | none => rfl
        | some verdict =>
          exact congrArg (fun c => ((Codec.encode c verdict).toOption, _)) codec

/-! ### Whom the question is put to -/

/-- The question can be read, and there is a handler for it. -/
structure Puts (d : Dispatcher) (payload : Bytes) (process : ProcessDescriptor)
    (handler : InterestHandler) : Prop where
  small : payload.length ≤ d.codec.limit
  read : Codec.decodeText payload = .ok process
  installed : d.handlers.pathInterest = some handler

theorem Puts.decoded (h : d.Puts payload process handler) :
    d.codec.decode payload = .ok process := by
  simp only [Codec.decode, if_pos h.small, h.read]

theorem puts_of_decoded (decoded : d.codec.decode payload = .ok process)
    (installed : d.handlers.pathInterest = some handler) : d.Puts payload process handler := by
  unfold Codec.decode at decoded
  split at decoded
  · next small =>
    cases read : Codec.decodeText (α := ProcessDescriptor) payload with
    | error e =>
      simp only [read] at decoded
      cases decoded
    | ok other =>
      simp only [read] at decoded
      obtain rfl := Except.ok.inj decoded
      exact ⟨small, read, installed⟩
  · cases decoded

theorem Puts.amid (h : d.Puts payload process handler) (meanwhile : List Operation) :
    d.pathInterestAmid payload meanwhile .run =
        ((handler process).reply? d.codec,
          (d.run meanwhile).note (.invoked (.interest process))) ∧
      d.pathInterestAmid payload meanwhile .lost = (none, d.run meanwhile) := by
  simp only [pathInterestAmid, h.decoded, h.installed, and_self]

/-- A question that is put to nobody leaves the dispatcher as it is. -/
theorem amid_of_not_puts (unput : ∀ process handler, ¬ d.Puts payload process handler)
    (meanwhile : List Operation) (fate : QuestionFate) :
    d.pathInterestAmid payload meanwhile fate = (none, d) := by
  unfold pathInterestAmid
  cases decoded : d.codec.decode (α := ProcessDescriptor) payload with
  | error e => rfl
  | ok process =>
    cases installed : d.handlers.pathInterest with
    | none => rfl
    | some handler => exact absurd (puts_of_decoded decoded installed) (unput process handler)

/-! ### What is answered -/

/-- The handler comes to a verdict on the process in question, and the verdict is not too large. -/
structure Concludes (d : Dispatcher) (payload : Bytes) (process : ProcessDescriptor)
    (verdict : InterestVerdict) : Prop where
  put : ∃ handler, d.Puts payload process handler ∧ handler process = .verdict (some verdict)
  fits : (Wire.encode verdict).write.length ≤ d.codec.limit

theorem Concludes.answer {verdict : InterestVerdict} (h : d.Concludes payload process verdict)
    (meanwhile : List Operation) :
    (d.pathInterestAmid payload meanwhile .run).1 = some (Wire.encode verdict).write := by
  obtain ⟨handler, puts, comes⟩ := h.put
  rw [(puts.amid meanwhile).1, comes]
  exact Opinion.reply?_eq_some.2 ⟨verdict, rfl, h.fits, rfl⟩

/-- A verdict is read as it was written. -/
theorem Concludes.decoded {verdict : InterestVerdict} (h : d.Concludes payload process verdict) :
    d.codec.decode (Wire.encode verdict).write = .ok verdict :=
  Codec.decode_of_recovers (faithful_verdict verdict) (by decide) (Codec.encode_of_fits h.fits)

/-- There is an answer if the question can be read, somebody is there to be asked, the executor runs
the handler, the handler comes to a verdict and the verdict is not too large; and in no other case.
The answer is read as that verdict. The handler is run once, or not at all. -/
theorem verdict_arrives (d : Dispatcher) (payload : Bytes) :
    d.pathInterest payload = d.pathInterestAmid payload [.work] .run ∧
    ∀ meanwhile fate,
      let asked := d.pathInterestAmid payload meanwhile fate
      (∀ bytes, asked.1 = some bytes ↔ fate = .run ∧ ∃ process verdict,
        d.Concludes payload process verdict ∧ bytes = (Wire.encode verdict).write) ∧
      (∀ process verdict, d.Concludes payload process verdict → ∀ bytes, asked.1 = some bytes →
        d.codec.decode bytes = .ok verdict) ∧
      ((∃ process handler, d.Puts payload process handler ∧
          asked.2.invocations = (d.run meanwhile).invocations ++ fate.invocations process) ∨
        (∀ process handler, ¬ d.Puts payload process handler) ∧ asked = (none, d)) := by
  refine ⟨pathInterest_eq d payload, fun meanwhile fate => ?_⟩
  intro asked
  by_cases puts : ∃ process handler, d.Puts payload process handler
  · obtain ⟨process, handler, puts⟩ := puts
    obtain ⟨run, lost⟩ := puts.amid meanwhile
    have told : ∀ bytes, asked.1 = some bytes ↔ fate = .run ∧ ∃ process verdict,
        d.Concludes payload process verdict ∧ bytes = (Wire.encode verdict).write := by
      intro bytes
      constructor
      · intro answered
        cases fate with
        | lost =>
          rw [show asked = _ from lost] at answered
          cases answered
        | run =>
          rw [show asked = _ from run] at answered
          obtain ⟨verdict, comes, fits, rfl⟩ := Opinion.reply?_eq_some.1 answered
          exact ⟨rfl, process, verdict, ⟨⟨handler, puts, comes⟩, fits⟩, rfl⟩
      · rintro ⟨rfl, process, verdict, concludes, rfl⟩
        exact concludes.answer meanwhile
    refine ⟨told, fun process verdict concludes bytes answered => ?_,
      .inl ⟨process, handler, puts, ?_⟩⟩
    · obtain ⟨rfl, -⟩ := (told bytes).1 answered
      obtain rfl := Option.some.inj ((concludes.answer meanwhile).symm.trans answered)
      exact concludes.decoded
    · cases fate with
      | run =>
        rw [show asked = _ from run]
        simp only [invocations, note, List.filterMap_append]
        rfl
      | lost =>
        rw [show asked = _ from lost]
        exact (List.append_nil _).symm
  · have unput : ∀ process handler, ¬ d.Puts payload process handler :=
      fun process handler put => puts ⟨process, handler, put⟩
    have nobody : asked = (none, d) := amid_of_not_puts unput meanwhile fate
    refine ⟨fun bytes => ?_, fun process verdict concludes => ?_, .inr ⟨unput, nobody⟩⟩
    · rw [nobody]
      refine iff_of_false (Option.some_ne_none bytes).symm ?_
      rintro ⟨-, process, verdict, ⟨⟨handler, put, -⟩, -⟩, -⟩
      exact unput process handler put
    · obtain ⟨handler, put, -⟩ := concludes.put
      exact absurd put (unput process handler)

/-- Two kinds of events of noisy processes are ignored, among them the last that a set can hold. -/
def selective : Dispatcher :=
  { new .default .serial with
    handlers := { HandlerSet.empty with
      pathInterest := some fun process =>
        .verdict (if process.name = "noisy" then some ⟨.ofList [⟨9⟩, ⟨1023⟩], true⟩ else none) } }

/-- The handler has been replaced by the time at which the executor comes to it. -/
theorem noisy_process_ignored :
    let process : ProcessDescriptor :=
      { ProcessDescriptor.ofPath 2 "/usr/bin/noisy" with teamId := some "AB" }
    let verdict : InterestVerdict := ⟨.ofList [⟨9⟩, ⟨1023⟩], true⟩
    let payload := (Wire.encode process).write
    selective.Concludes payload process verdict ∧
      ∃ bytes, (selective.pathInterestAmid payload [.install .empty] .run).1 = some bytes ∧
        selective.codec.decode bytes = .ok verdict := by
  intro process verdict payload
  have sent : selective.codec.encode process = .ok payload :=
    Codec.encode_of_fits (show payload.length ≤ selective.codec.limit by decide +kernel)
  have decoded : selective.codec.decode payload = .ok process :=
    Codec.decode_of_recovers (faithful_process process) (by decide) sent
  have named : process.name = "noisy" := by decide
  have concludes : selective.Concludes payload process verdict := by
    refine ⟨⟨_, puts_of_decoded decoded rfl, ?_⟩, by decide +kernel⟩
    simp only [named, if_true]
    rfl
  obtain ⟨-, answers⟩ := verdict_arrives selective payload
  obtain ⟨told, read, -⟩ := answers [.install .empty] .run
  have answered := (told _).2 ⟨rfl, process, verdict, concludes, rfl⟩
  exact ⟨concludes, _, answered, read process verdict concludes _ answered⟩

end Dispatcher

end EndpointMonitor
