import EndpointMonitor.Proofs.Service.PathInterest

/-!
Whose answer decides about the messages of a path. From one time that the cache of interests is
emptied to the next, a message asks unless an answer has been stored before it looks; otherwise the
answer that was stored last decides. So there is one answer, if no two messages of the path are
between looking and storing at the same time.
-/

namespace EndpointMonitor.Switchboard

variable {codec : Codec} {event : Event} {path : String}

section Interval

variable (codec : Codec) (past during : List Event) (path : String)

/-- The cache of interests is not emptied. -/
def Keeps : Prop := true ∉ yields step (fun t event => [t.empties event]) (run codec past) during

/-- The questions about the path, with what is said. -/
def answers : List (Nat × Option InterestVerdict) :=
  yields step (asked path) (run codec past) during

/-- What is stored about the path. -/
def stores : List (Nat × Option InterestVerdict) :=
  yields step (stored path) (run codec past) during

/-- The answer to a question of the interval, or one that is not stored yet when it begins. -/
def Heard (number : Nat) (verdict : Option InterestVerdict) : Prop :=
  (run codec past).Outstanding path number verdict ∨
    (number, verdict) ∈ answers codec past during path

/-- No two emissions of the path are between looking and storing at the same time. -/
def Apart : Prop :=
  ∀ before, before <+: during → ∀ m n, (run codec (past ++ before)).Asking path m →
    (run codec (past ++ before)).Asking path n → m = n

end Interval

variable {past during : List Event}

theorem run_append (codec : Codec) (past during : List Event) :
    run codec (past ++ during) = during.foldl step (run codec past) := List.foldl_append

theorem run_within (codec : Codec) (past during : List Event) (event : Event) :
    run codec (past ++ (during ++ [event])) = (run codec (past ++ during)).step event := by
  rw [← List.append_assoc, run_snoc]

theorem answers_snoc (codec : Codec) (past during : List Event) (path : String) (event : Event) :
    answers codec past (during ++ [event]) path =
      answers codec past during path ++ (run codec (past ++ during)).asked path event := by
  rw [answers, yields_snoc, run_append]
  rfl

theorem stores_snoc (codec : Codec) (past during : List Event) (path : String) (event : Event) :
    stores codec past (during ++ [event]) path =
      stores codec past during path ++ (run codec (past ++ during)).stored path event := by
  rw [stores, yields_snoc, run_append]
  rfl

theorem keeps_snoc : Keeps codec past (during ++ [event]) ↔
    Keeps codec past during ∧ (run codec (past ++ during)).empties event = false := by
  rw [Keeps, yields_snoc, ← run_append, List.mem_append, not_or, List.mem_singleton, Keeps,
    eq_comm, Bool.not_eq_true]

theorem heard_snoc {number : Nat} {verdict : Option InterestVerdict} :
    Heard codec past (during ++ [event]) path number verdict ↔
      Heard codec past during path number verdict ∨
        (number, verdict) ∈ (run codec (past ++ during)).asked path event := by
  rw [Heard, answers_snoc, List.mem_append, Heard, or_assoc]

theorem Heard.later {number : Nat} {verdict : Option InterestVerdict}
    (h : Heard codec past during path number verdict) (event : Event) :
    Heard codec past (during ++ [event]) path number verdict := heard_snoc.2 (.inl h)

theorem heard_of_unasked (unasked : (run codec (past ++ during)).asked path event = [])
    {number : Nat} {verdict : Option InterestVerdict}
    (h : Heard codec past (during ++ [event]) path number verdict) :
    Heard codec past during path number verdict := by
  rw [heard_snoc, unasked] at h
  exact h.resolve_right List.not_mem_nil

/-- What is cached has been stored last, and all answers are the client's. -/
structure Kept (codec : Codec) (past during : List Event) (path : String) : Prop where
  cached : (run codec (past ++ during)).cached? path =
    ((stores codec past during path).getLast?).map (·.2)
  told : ∀ number verdict, (run codec (past ++ during)).Outstanding path number verdict →
    Heard codec past during path number verdict
  stored : ∀ number verdict, (number, verdict) ∈ stores codec past during path →
    Heard codec past during path number verdict

theorem Kept.step (kept : Kept codec past during path)
    (keeps : (run codec (past ++ during)).empties event = false) :
    Kept codec past (during ++ [event]) path := by
  have reached := run_within codec past during event
  have stores := stores_snoc codec past during path event
  refine ⟨?_, fun number verdict told => ?_, fun number verdict mem => ?_⟩
  · rw [reached, cached_step keeps, kept.cached, stores, List.getLast?_append, Option.map_or]
  · rw [reached] at told
    rcases outstanding_of_step keeps told with before | asked
    · exact (kept.told number verdict before).later event
    · exact heard_snoc.2 (.inr asked)
  · rw [stores, List.mem_append] at mem
    rcases mem with before | now
    · exact (kept.stored number verdict before).later event
    · exact (kept.told number verdict (outstanding_of_stored now)).later event

theorem kept (unknown : (run codec past).cached? path = none) (keeps : Keeps codec past during) :
    Kept codec past during path := by
  induction during using List.reverseRecOn with
  | nil =>
    rw [← List.append_nil past] at unknown
    refine ⟨unknown, fun number verdict told => .inl ?_, fun number verdict mem => nomatch mem⟩
    rwa [List.append_nil] at told
  | append_singleton during event ih =>
    obtain ⟨before, last⟩ := keeps_snoc.1 keeps
    exact (ih before).step last

/-! ### One question for each emission -/

theorem answers_once (codec : Codec) (past during : List Event) (path : String) :
    ((answers codec past during path).map (·.1)).Nodup ∧
      ∀ number ∈ (answers codec past during path).map (·.1),
        ∃ client e, (run codec (past ++ during)).emissions[number]? = some (client, e) ∧
          e.HasAsked := by
  induction during using List.reverseRecOn with
  | nil => exact ⟨List.nodup_nil, fun _ mem => absurd mem List.not_mem_nil⟩
  | append_singleton during event ih =>
    obtain ⟨once, past⟩ := ih
    have still (number : Nat) (mem : number ∈ (answers codec _ during path).map (·.1)) :=
      have ⟨client, e, held, asked⟩ := past number mem
      hasAsked_step held asked event
    rw [answers_snoc, run_within, List.map_append]
    rcases asked_cases path _ event with none | ⟨number, client, e, verdict, rfl, held, phase, puts⟩
    · rw [none, List.map_nil, List.append_nil]
      exact ⟨once, still⟩
    · rw [puts, List.map_singleton]
      have new : number ∉ (answers codec _ during path).map (·.1) := fun mem => by
        obtain ⟨_, e', held', asked⟩ := past number mem
        obtain ⟨-, rfl⟩ := Prod.mk.inj (Option.some.inj (held.symm.trans held'))
        exact asked.2.2 phase
      refine ⟨List.nodup_append'.2 ⟨once, List.nodup_singleton _, ?_⟩, fun k mem => ?_⟩
      · exact List.disjoint_singleton.2 new
      · rcases List.mem_append.1 mem with before | now
        · exact still k before
        · obtain rfl := List.mem_singleton.1 now
          rw [step_turn held (by simp [phase])]
          refine ⟨client, _, List.getElem?_set_self (List.getElem?_eq_some_iff.1 held).1, ?_⟩
          simp only [Exchange.turn, phase]
          simp [Emission.HasAsked]

/-! ### One answer -/

theorem Apart.before (apart : Apart codec past (during ++ [event]) path) :
    Apart codec past during path :=
  fun before within => apart before (within.trans (List.prefix_append _ _))

/-- How far an interval has come in which there is at most one answer. -/
inductive Stage (codec : Codec) (past during : List Event) (path : String) : Prop
  | silent (unheard : ∀ number verdict, ¬Heard codec past during path number verdict)
    (unknown : (run codec (past ++ during)).cached? path = none)
  | told {number : Nat} {verdict : Option InterestVerdict}
    (only : ∀ n v, Heard codec past during path n v → n = number ∧ v = verdict)
    (once : (answers codec past during path).length ≤ 1)
    (outstanding : (run codec (past ++ during)).Outstanding path number verdict)
  | settled {number : Nat} {verdict : Option InterestVerdict}
    (only : ∀ n v, Heard codec past during path n v → n = number ∧ v = verdict)
    (once : (answers codec past during path).length ≤ 1)
    (known : (run codec (past ++ during)).cached? path ≠ none)
    (idle : ∀ n, ¬(run codec (past ++ during)).Asking path n)

section Stages

variable (keeps : (run codec (past ++ during)).empties event = false)

include keeps

/-- Nobody has been asked yet. -/
theorem Stage.of_silent (kept : Kept codec past during path)
    (unheard : ∀ number verdict, ¬Heard codec past during path number verdict)
    (unknown : (run codec (past ++ during)).cached? path = none) :
    Stage codec past (during ++ [event]) path := by
  have reached := run_within codec past during event
  cases happens path keeps with
  | aside cached asking unasked unstored =>
    refine .silent (fun number verdict heard => ?_) (by rw [reached, cached, unknown])
    exact unheard number verdict (heard_of_unasked unasked heard)
  | looks held same phase _ cached after =>
    have unasked := asked_of_phase path held (by simp [phase])
    refine .silent (fun number verdict heard => ?_) (by rw [reached, cached, unknown])
    exact unheard number verdict (heard_of_unasked unasked heard)
  | @asks number client e verdict held same phase puts cached after =>
    have only (n : Nat) (v : Option InterestVerdict)
        (heard : Heard codec past (during ++ [.turn number]) path n v) :
        n = number ∧ v = verdict := by
      rw [heard_snoc, puts, List.mem_singleton, Prod.mk.injEq] at heard
      exact heard.resolve_left (unheard n v)
    refine .told only ?_ ?_
    · have none : answers codec past during path = [] :=
        List.eq_nil_iff_forall_not_mem.2 fun (n, v) mem => unheard n v (.inr mem)
      rw [answers_snoc, puts, none]
      exact Nat.le_refl 1
    · rw [reached]
      refine ⟨client, e.enter (.told verdict), ?_, same, rfl⟩
      rw [after]
      exact List.getElem?_set_self (List.getElem?_eq_some_iff.1 held).1
  | @stores number client e verdict held same phase puts cached after =>
    exact absurd (kept.told number verdict ⟨client, e, held, same, phase⟩) (unheard number verdict)

/-- Somebody has been asked, and the answer is not stored yet. -/
theorem Stage.of_told {number : Nat} {verdict : Option InterestVerdict}
    (apart : ∀ n, (run codec (past ++ during)).Asking path n → n = number)
    (only : ∀ n v, Heard codec past during path n v → n = number ∧ v = verdict)
    (once : (answers codec past during path).length ≤ 1)
    (outstanding : (run codec (past ++ during)).Outstanding path number verdict) :
    Stage codec past (during ++ [event]) path := by
  have reached := run_within codec past during event
  have quiet (unasked : (run codec (past ++ during)).asked path event = []) :
      (∀ n v, Heard codec past (during ++ [event]) path n v → n = number ∧ v = verdict) ∧
        (answers codec past (during ++ [event]) path).length ≤ 1 := by
    refine ⟨fun n v heard => only n v (heard_of_unasked unasked heard), ?_⟩
    rwa [answers_snoc, unasked, List.append_nil]
  obtain ⟨client, e, waits, same, told⟩ := outstanding
  cases happens path keeps with
  | aside cached asking unasked unstored =>
    obtain ⟨only, once⟩ := quiet unasked
    refine .told only once ?_
    rw [reached]
    exact ⟨client, e, (asking number client e ⟨same, .inr ⟨verdict, told⟩⟩).2 waits, same, told⟩
  | @looks n c e' held _ phase unknown cached after =>
    have unasked := asked_of_phase path held (by simp [phase])
    obtain ⟨only, once⟩ := quiet unasked
    have other : n ≠ number := by
      rintro rfl
      obtain ⟨-, rfl⟩ := Prod.mk.inj (Option.some.inj (held.symm.trans waits))
      cases phase.symm.trans told
    refine .told only once ?_
    rw [reached]
    exact ⟨client, e, by rw [after, List.getElem?_set_ne other, waits], same, told⟩
  | @asks n c e' v held here phase puts cached after =>
    obtain rfl := apart n ⟨c, e', held, here, .inl phase⟩
    obtain ⟨-, rfl⟩ := Prod.mk.inj (Option.some.inj (held.symm.trans waits))
    cases phase.symm.trans told
  | @stores n c e' v held here phase puts cached after =>
    obtain rfl := apart n ⟨c, e', held, here, .inr ⟨v, phase⟩⟩
    have unasked := asked_of_phase path held (by simp [phase])
    obtain ⟨only, once⟩ := quiet unasked
    refine .settled only once (by rw [reached, cached]; nofun) fun k asking => ?_
    obtain ⟨c', a, found, asks⟩ := asking
    rw [reached, after] at found
    rcases getElem?_of_set found with ⟨-, judged⟩ | ⟨other, old⟩
    · obtain ⟨-, rfl⟩ := Prod.mk.inj judged
      exact Emission.not_asks_judge path e' v asks
    · exact other (apart k ⟨c', a, old, asks⟩).symm

/-- The answer has been stored. -/
theorem Stage.of_settled {number : Nat} {verdict : Option InterestVerdict}
    (only : ∀ n v, Heard codec past during path n v → n = number ∧ v = verdict)
    (once : (answers codec past during path).length ≤ 1)
    (known : (run codec (past ++ during)).cached? path ≠ none)
    (idle : ∀ n, ¬(run codec (past ++ during)).Asking path n) :
    Stage codec past (during ++ [event]) path := by
  have reached := run_within codec past during event
  cases happens path keeps with
  | aside cached asking unasked unstored =>
    refine .settled (fun n v heard => only n v (heard_of_unasked unasked heard)) ?_ ?_ ?_
    · rwa [answers_snoc, unasked, List.append_nil]
    · rwa [reached, cached]
    · rintro n ⟨client, e, found, asks⟩
      rw [reached] at found
      exact idle n ⟨client, e, (asking n client e asks).1 found, asks⟩
  | looks held same phase unknown cached after => exact absurd unknown known
  | asks held same phase puts cached after => exact absurd ⟨_, _, held, same, .inl phase⟩ (idle _)
  | stores held same phase puts cached after =>
    exact absurd ⟨_, _, held, same, .inr ⟨_, phase⟩⟩ (idle _)

end Stages

theorem stage (unknown : (run codec past).cached? path = none) (keeps : Keeps codec past during)
    (apart : Apart codec past during path) : Stage codec past during path := by
  induction during using List.reverseRecOn with
  | nil =>
    have start : past ++ [] = past := List.append_nil past
    have heard {number : Nat} {verdict : Option InterestVerdict}
        (h : Heard codec past [] path number verdict) :
        (run codec past).Outstanding path number verdict := h.resolve_right List.not_mem_nil
    by_cases outstanding : ∃ number verdict, (run codec past).Outstanding path number verdict
    · obtain ⟨number, verdict, told⟩ := outstanding
      have alone := apart [] (List.prefix_refl _)
      rw [start] at alone
      refine .told (fun n v h => ?_) (Nat.zero_le 1) (start.symm ▸ told)
      obtain rfl := alone n number (heard h).asking told.asking
      exact ⟨rfl, (heard h).unique told⟩
    · exact .silent (fun n v h => outstanding ⟨n, v, heard h⟩) (start.symm ▸ unknown)
  | append_singleton during event ih =>
    obtain ⟨before, last⟩ := keeps_snoc.1 keeps
    have alone := apart during (List.prefix_append _ _)
    have kept := kept unknown before
    cases ih before apart.before with
    | silent unheard unknown => exact .of_silent last kept unheard unknown
    | told only once outstanding =>
      have apart := fun n asking => alone n _ asking outstanding.asking
      exact .of_told last apart only once outstanding
    | settled only once known idle => exact .of_settled last only once known idle

/-! ### Messages -/

/-- What becomes of an emission at its next turn. -/
def next (codec : Codec) (events : List Event) (number : Nat) : Option (Nat × Emission) :=
  ((run codec events).step (.turn number)).emissions[number]?

/-- What the next turn of an emission of the path does, as long as the cache has not been emptied.
It is about `before`, what has happened since then. -/
structure Treated (codec : Codec) (past before : List Event) (path : String) (number client : Nat)
    (e : Emission) : Prop where
  admits : e.phase = .begun → (run codec (past ++ before)).service.Admits e.message →
    next codec (past ++ before) number =
      some ((run codec (past ++ before)).bound, e.enter .admitted)
  blocks : e.phase = .begun → ¬(run codec (past ++ before)).service.Admits e.message →
    next codec (past ++ before) number = some ((run codec (past ++ before)).bound, e.stop)
  /-- Nothing has been stored, so the client is going to be asked. -/
  unknown : e.phase = .admitted → stores codec past before path = [] →
    next codec (past ++ before) number = some (client, e.enter .unasked)
  /-- What was stored last decides. -/
  known : e.phase = .admitted → ∀ n verdict,
    (stores codec past before path).getLast? = some (n, verdict) →
      Heard codec past before path n verdict ∧
        next codec (past ++ before) number = some (client, e.judge verdict)
  /-- The client has had the channel when the message was let through. Its handler is asked. -/
  asks : e.phase = .unasked →
    LetThrough codec (past ++ before) number client e ∧
    ∃ payload, codec.encode e.message.process = .ok payload ∧
      let dispatcher := (run codec (past ++ before)).clients client
      let verdict := dispatcher.handlers.view? codec e.message.process
      answers codec past (before ++ [.turn number]) path =
        answers codec past before path ++ [(number, verdict)] ∧
      (run codec (past ++ before)).step (.turn number) = { run codec (past ++ before) with
        clients := Function.update (run codec (past ++ before)).clients client
          (dispatcher.pathInterest payload).2
        emissions := (run codec (past ++ before)).emissions.set number
          (client, e.enter (.told verdict)) }
  /-- The answer to the emission's own question is stored, and decides. -/
  judges : ∀ verdict, e.phase = .told verdict →
    Heard codec past before path number verdict ∧
    stores codec past (before ++ [.turn number]) path =
      stores codec past before path ++ [(number, verdict)] ∧
    next codec (past ++ before) number = some (client, e.judge verdict)

theorem next_eq {events : List Event} {number client : Nat} {e : Emission}
    (held : (run codec events).emissions[number]? = some (client, e)) :
    next codec events number =
      let client := (run codec events).addressee client e
      some (client, (((run codec events).line client).turn e).2) := by
  simp only [next, step, held]
  exact List.getElem?_set_self (List.getElem?_eq_some_iff.1 held).1

theorem treated (fits : ∀ event ∈ past ++ during, event.Fits codec)
    (unknown : (run codec past).cached? path = none) (keeps : Keeps codec past during)
    {number client : Nat} {e : Emission}
    (held : (run codec (past ++ during)).emissions[number]? = some (client, e))
    (same : e.path = path) : Treated codec past during path number client e := by
  have kept := kept unknown keeps
  have turned := next_eq held
  have later (on : e.phase ≠ .begun) : (run codec (past ++ during)).addressee client e = client :=
    if_neg on
  constructor
  case admits =>
    intro begun admits
    have passes := (Service.admits_iff _ _).1 admits
    rw [turned, addressee, if_pos begun]
    simp only [Exchange.turn, begun, line, passes, if_true]
  case blocks =>
    intro begun admits
    rw [Service.admits_iff] at admits
    rw [turned, addressee, if_pos begun]
    simp only [Exchange.turn, begun, line, admits, if_false, Bool.false_eq_true]
  case unknown =>
    intro phase nothing
    have uncached : (run codec (past ++ during)).service.tables.interest.find? e.path = none := by
      rw [same]
      exact kept.cached.trans (by rw [nothing]; rfl)
    rw [turned, later (by simp [phase])]
    simp only [Exchange.turn, phase, line, uncached]
  case known =>
    intro phase n verdict last
    have cached : (run codec (past ++ during)).service.tables.interest.find? e.path =
        some verdict := by
      rw [same]
      exact kept.cached.trans (by rw [last]; rfl)
    refine ⟨kept.stored n verdict (List.mem_of_getLast? last), ?_⟩
    rw [turned, later (by simp [phase])]
    simp only [Exchange.turn, phase, line, cached]
  case asks =>
    intro phase
    have shares := (shares_run codec (past ++ during)).line client
    obtain ⟨payload, encoded⟩ := encodes_run fits held
    have told := Exchange.askInterest_eq shares encoded
    have view : ((run codec (past ++ during)).line client).view? e.message.process =
        ((run codec (past ++ during)).clients client).handlers.view? codec e.message.process := by
      rw [Exchange.view?, shares.service]
      rfl
    rw [view] at told
    refine ⟨letThrough_run held ⟨by simp [phase], fun _ ended => ?_⟩, payload, encoded, ?_, ?_⟩
    · cases phase.symm.trans ended
    · rw [answers_snoc]
      simp only [asked, held, Option.elim_some, told]
      rw [if_pos ⟨same, phase⟩]
    · rw [step_turn held (by simp [phase])]
      simp only [Exchange.turn, phase, told]
      rfl
  case judges =>
    intro verdict phase
    refine ⟨kept.told number verdict ⟨client, e, held, same, phase⟩, ?_, ?_⟩
    · rw [stores_snoc]
      simp only [stored, held, Option.elim_some, phase]
      rw [if_pos same]
    · rw [turned, later (by simp [phase])]
      simp only [Exchange.turn, phase]

theorem Heard.of_prefix {before : List Event} (within : before <+: during) {number : Nat}
    {verdict : Option InterestVerdict} (h : Heard codec past before path number verdict) :
    Heard codec past during path number verdict := by
  obtain ⟨after, rfl⟩ := within
  rw [Heard, answers, yields_append]
  exact h.imp_right (List.mem_append_left _)

theorem Keeps.of_prefix {before : List Event} (within : before <+: during)
    (keeps : Keeps codec past during) : Keeps codec past before := by
  obtain ⟨after, rfl⟩ := within
  rw [Keeps, yields_append] at keeps
  exact fun empties => keeps (List.mem_append_left _ empties)

theorem one_answer (unknown : (run codec past).cached? path = none)
    (keeps : Keeps codec past during) (apart : Apart codec past during path) :
    (answers codec past during path).length ≤ 1 ∧
      ∀ m n v w, Heard codec past during path m v → Heard codec past during path n w →
        m = n ∧ v = w := by
  cases stage unknown keeps apart with
  | silent unheard _ =>
    have nothing : answers codec past during path = [] :=
      List.eq_nil_iff_forall_not_mem.2 fun (n, v) mem => unheard n v (.inr mem)
    exact ⟨by rw [nothing]; exact Nat.zero_le 1, fun m _ v _ heard => absurd heard (unheard m v)⟩
  | told only once _ | settled only once _ _ =>
    refine ⟨once, fun m n v w heard heard' => ?_⟩
    obtain ⟨rfl, rfl⟩ := only m v heard
    obtain ⟨rfl, rfl⟩ := only n w heard'
    exact ⟨rfl, rfl⟩

/-- Until the cache of interests is emptied, the client is asked about a path only for a message
that was let through, at most once for each, and only if no answer has been stored before. If no two
messages of the path overlap between looking and storing, there is one answer at most. Messages of
the path are filtered by the answer to their own question, or by the one that was stored last before
they looked. Without a verdict that is small enough to be sent, they get through. -/
theorem answers_decide (codec : Codec) {past during : List Event} {path : String}
    (fits : ∀ event ∈ past ++ during, event.Fits codec)
    (emptied : (run codec past).cached? path = none) (keeps : Keeps codec past during) :
    ((answers codec past during path).map (·.1)).Nodup ∧
    (Apart codec past during path → (answers codec past during path).length ≤ 1 ∧
      ∀ m n v w, Heard codec past during path m v → Heard codec past during path n w →
        m = n ∧ v = w) ∧
    (∀ before, before <+: during → ∀ number client e,
      (run codec (past ++ before)).emissions[number]? = some (client, e) → e.path = path →
        Treated codec past before path number client e) ∧
    (∀ before, before <+: during → ∀ number verdict,
      Heard codec past before path number verdict →
        Heard codec past during path number verdict) ∧
    (∀ (e : Emission) (verdict : Option InterestVerdict),
      ((∀ v, verdict = some v → e.message.eventType ∉ v.ignored) →
        e.judge verdict = e.enter .wanted) ∧
      ∀ v, verdict = some v → e.message.eventType ∈ v.ignored → e.judge verdict = e.stop) ∧
    ∀ (handlers : HandlerSet) process verdict, handlers.view? codec process = some verdict ↔
      ∃ handler, handlers.pathInterest = some handler ∧
        handler process = .verdict (some verdict) ∧
          ∃ payload, codec.encode verdict = .ok payload := by
  refine ⟨(answers_once codec past during path).1, one_answer emptied keeps, ?treated, ?heard,
    ?judged, fun handlers process verdict => HandlerSet.view?_eq_some⟩
  case treated =>
    intro before within number client e held same
    refine treated (fun event mem => fits event ?_) emptied (keeps.of_prefix within) held same
    exact List.mem_append.2 ((List.mem_append.1 mem).imp_right fun mem => within.subset mem)
  case heard => exact fun before within number verdict heard => heard.of_prefix within
  case judged =>
    intro e verdict
    refine ⟨fun wanted => ?_, fun v same refused => ?_⟩
    · cases verdict with
      | none => rfl
      | some v => exact if_neg (wanted v rfl)
    · subst same
      exact if_pos refused

/-- The first handler refuses one kind of event. It is replaced by another one, which is not asked:
about the second process with the same path the first answer decides. -/
theorem later_handler_unasked :
    let verdict : InterestVerdict := ⟨.ofList [⟨9⟩], false⟩
    let refuses : HandlerSet :=
      { HandlerSet.empty with pathInterest := some fun _ => .verdict (some verdict) }
    let fails : HandlerSet := { HandlerSet.empty with pathInterest := some fun _ => .failed }
    let m (event : EventType) (pid : UInt32) : EventMessage := .notify event (.ofPath pid "/tmp/x")
    let past : List Event := [.client 0 (.install refuses), .connect 0 1,
      .service (.request 1 (.subscribe [⟨9⟩, ⟨10⟩]) .foreign) rfl]
    let first : List Event := [.emit .notify (m ⟨10⟩ 7), .turn 0, .turn 0, .turn 0, .turn 0,
      .client 0 (.install fails)]
    let during : List Event := first ++ [.emit .notify (m ⟨9⟩ 8), .turn 1]
    answers .default past during "/tmp/x" = [(0, some verdict)] ∧
      next .default (past ++ during) 1 = some (0, (Emission.new .notify (m ⟨9⟩ 8)).stop) := by
  intro verdict refuses fails m past first during
  have small := Codec.encode_of_fits (show (Wire.encode (m ⟨10⟩ 7).process).write.length ≤
    Codec.limit .default by decide +kernel)
  have small' := Codec.encode_of_fits (show (Wire.encode (m ⟨9⟩ 8).process).write.length ≤
    Codec.limit .default by decide +kernel)
  have fits : ∀ event ∈ past ++ during, event.Fits .default := by
    simp only [past, during, first, List.cons_append, List.nil_append, List.forall_mem_cons]
    refine ⟨trivial, trivial, trivial, ⟨_, small⟩, trivial, trivial, trivial, trivial, trivial,
      ⟨_, small'⟩, trivial, fun _ mem => absurd mem List.not_mem_nil⟩
  have emptied : (run .default past).cached? "/tmp/x" = none := by decide +kernel
  have keeps : Keeps .default past during := by
    unfold Keeps
    decide +kernel
  obtain ⟨-, -, treated, -, judged, -⟩ := answers_decide .default fits emptied keeps
  have bound : (run .default (past ++ first)).bound = 0 := by decide +kernel
  have one : (run .default (past ++ first)).emissions.length = 1 := by decide +kernel
  have begun := emission_new (run .default (past ++ first)) .notify (m ⟨9⟩ 8)
  rw [one, bound, ← run_within] at begun
  have split : during = (first ++ [.emit .notify (m ⟨9⟩ 8)]) ++ [.turn 1] :=
    (List.append_assoc first [_] [_]).symm
  have admitted := (treated _ ⟨_, split.symm⟩ 1 0 _ begun rfl).admits rfl
    ((Service.admits_iff _ _).2 (by decide +kernel))
  have still : (run .default (past ++ (first ++ [.emit .notify (m ⟨9⟩ 8)]))).bound = 0 := by
    rw [run_within, bound_emit, bound]
  rw [next, still, ← run_within, ← split] at admitted
  have asked : answers .default past during "/tmp/x" = [(0, some verdict)] := by decide +kernel
  have stored : (stores .default past during "/tmp/x").getLast? = some (0, some verdict) := by
    decide +kernel
  have known := (treated during (List.prefix_refl _) 1 0 _ admitted rfl).known rfl 0 (some verdict)
    stored
  refine ⟨asked, known.2.trans ?_⟩
  rw [(judged _ (some verdict)).2 verdict rfl (by decide)]
  rfl

/-- Two messages of one path look before the answer for the first one is stored, and between the two
questions another handler is installed. The client is asked twice, and the second message is not
filtered by the first answer. -/
theorem asked_twice :
    let verdict : InterestVerdict := ⟨.ofList [⟨9⟩], false⟩
    let refuses : HandlerSet :=
      { HandlerSet.empty with pathInterest := some fun _ => .verdict (some verdict) }
    let m : EventMessage := .notify ⟨9⟩ (.ofPath 7 "/tmp/x")
    let past : List Event := [.client 0 (.install refuses), .connect 0 1,
      .service (.request 1 (.subscribe [⟨9⟩]) .foreign) rfl]
    let during : List Event := [.emit .notify m, .emit .notify m, .turn 0, .turn 1, .turn 0,
      .turn 1, .turn 0, .client 0 (.install .empty), .turn 1, .turn 0, .turn 1]
    (∀ event ∈ past ++ during, event.Fits .default) ∧
      (run .default past).cached? "/tmp/x" = none ∧ Keeps .default past during ∧
      answers .default past during "/tmp/x" = [(0, some verdict), (1, none)] ∧
      (run .default (past ++ during)).emissions.map (·.2.phase) =
        [.ended (.notified false), .wanted] := by
  intro verdict refuses m past during
  have small := Codec.encode_of_fits (show (Wire.encode m.process).write.length ≤
    Codec.limit .default by decide +kernel)
  refine ⟨?_, by decide +kernel, by unfold Keeps; decide +kernel, by decide +kernel,
    by decide +kernel⟩
  simp only [past, during, List.cons_append, List.nil_append, List.forall_mem_cons]
  refine ⟨trivial, trivial, trivial, ⟨_, small⟩, ⟨_, small⟩, trivial, trivial, trivial, trivial,
    trivial, trivial, trivial, trivial, trivial, ?_⟩
  intro event mem
  cases mem

end EndpointMonitor.Switchboard
