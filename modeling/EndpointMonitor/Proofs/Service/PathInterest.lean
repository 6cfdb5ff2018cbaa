import EndpointMonitor.Proofs.Service.Switchboard

/-!
What one event has to do with the interest in a path. An emission of the path finds that nothing is
cached, asks the client, and stores the answer; nothing else matters, unless the cache is emptied.
-/

namespace EndpointMonitor

/-- The emission is between finding that nothing is cached for the path and storing an answer. -/
def Emission.Asks (path : String) (e : Emission) : Prop :=
  e.path = path ∧ (e.phase = .unasked ∨ ∃ verdict, e.phase = .told verdict)

/-- The client is not asked for this emission any more. -/
def Emission.HasAsked (e : Emission) : Prop :=
  e.phase ≠ .begun ∧ e.phase ≠ .admitted ∧ e.phase ≠ .unasked

theorem Emission.not_asks_judge (path : String) (e : Emission) (verdict : Option InterestVerdict) :
    ¬(e.judge verdict).Asks path := by
  rcases e.judge_cases verdict with same | same <;> simp [same, Emission.Asks]

/-- What a turn stores has to do with the path only if the emission has asked about it. -/
theorem Emission.interest_stores {path : String} {e : Emission} (quiet : ¬e.Asks path)
    (t : ServiceTables) :
    (e.stores.foldl .store t).interest.find? path = t.interest.find? path := by
  obtain ⟨kind, m, phase⟩ := e
  cases phase with
  | told verdict =>
    have other : path ≠ m.process.path := fun same => quiet ⟨same.symm, .inr ⟨verdict, rfl⟩⟩
    exact (Table.find_put ..).trans (if_neg other)
  | answered resolution =>
    simp only [stores]
    split <;> rfl
  | _ => rfl

namespace Exchange

/-- What a turn has to do with the interest in a path. -/
inductive Treats (path : String) (x : Exchange) (e : Emission) : Exchange × Emission → Prop
  | aside {y : Exchange} {e' : Emission} (before : ¬e.Asks path) (after : ¬e'.Asks path)
    (cached : y.service.tables.interest.find? path = x.service.tables.interest.find? path) :
    Treats path x e (y, e')
  | looks (same : e.path = path) (phase : e.phase = .admitted)
    (unknown : x.service.tables.interest.find? path = none) : Treats path x e (x, e.enter .unasked)
  | asks (same : e.path = path) (phase : e.phase = .unasked) : Treats path x e
    ((x.askInterest e.message.process).2, e.enter (.told (x.askInterest e.message.process).1))
  | stores {verdict : Option InterestVerdict} (same : e.path = path)
    (phase : e.phase = .told verdict) :
    Treats path x e (x.cacheInterest path verdict, e.judge verdict)

theorem Treats.of_after {path : String} {x : Exchange} {e : Emission} (before : ¬e.Asks path)
    (after : ¬(x.turn e).2.Asks path) : Treats path x e (x.turn e) := by
  have cached : (x.turn e).1.service.tables.interest.find? path =
      x.service.tables.interest.find? path := by
    rw [turn_service]
    exact Emission.interest_stores before _
  exact .aside before after cached

theorem treats (path : String) (x : Exchange) (e : Emission) : Treats path x e (x.turn e) := by
  by_cases same : e.path = path
  · obtain ⟨kind, m, phase⟩ := e
    cases phase with
    | admitted =>
      have before : ¬Emission.Asks path ⟨kind, m, .admitted⟩ := by simp [Emission.Asks]
      cases cached : x.service.tables.interest.find? m.process.path with
      | some verdict =>
        refine .of_after before ?_
        simp only [turn, Emission.path, cached]
        exact Emission.not_asks_judge path _ verdict
      | none =>
        have looked : x.turn ⟨kind, m, .admitted⟩ = (x, ⟨kind, m, .unasked⟩) := by
          simp only [turn, Emission.path, cached]
          rfl
        rw [looked]
        exact .looks same rfl (same ▸ cached)
    | unasked => exact .asks same rfl
    | told verdict =>
      subst same
      exact .stores rfl rfl
    | begun | undecided | waiting =>
      refine .of_after (by simp [Emission.Asks]) ?_
      simp only [turn]
      split <;> simp [Emission.Asks]
    | wanted =>
      refine .of_after (by simp [Emission.Asks]) ?_
      cases kind <;> simp only [turn] <;> split <;> simp [Emission.Asks]
    | answered | ended => exact .of_after (by simp [Emission.Asks]) (by simp [turn, Emission.Asks])
  · refine .of_after (fun asks => same asks.1) fun asks => same ?_
    rw [turn_enter] at asks
    exact asks.1

/-- An emission that does not ask any more does not ask again. -/
theorem hasAsked_turn {x : Exchange} {e : Emission} (asked : e.HasAsked) :
    (x.turn e).2.HasAsked := by
  obtain ⟨kind, m, phase⟩ := e
  cases phase with
  | begun => exact absurd rfl asked.1
  | admitted => exact absurd rfl asked.2.1
  | unasked => exact absurd rfl asked.2.2
  | told verdict =>
    rcases Emission.judge_cases ⟨kind, m, .told verdict⟩ verdict with same | same <;>
      simp [turn, same, Emission.HasAsked]
  | wanted => cases kind <;> simp only [turn] <;> split <;> simp [Emission.HasAsked]
  | undecided | waiting => simp only [turn]; split <;> simp [Emission.HasAsked]
  | answered | ended => simp [turn, Emission.HasAsked]

theorem hasAsked_expire {x : Exchange} {e : Emission} (asked : e.HasAsked) :
    (x.expire e).HasAsked := by
  obtain ⟨kind, m, phase⟩ := e
  cases phase with
  | waiting call =>
    simp only [expire]
    split
    · simp [Emission.HasAsked]
    · exact asked
  | _ => exact asked

theorem expire_of_asks {path : String} {x : Exchange} {e : Emission} (asks : e.Asks path) :
    x.expire e = e := by
  obtain ⟨kind, m, phase⟩ := e
  obtain ⟨-, rfl | ⟨verdict, rfl⟩⟩ := asks <;> rfl

theorem asks_of_expire {path : String} {x : Exchange} {e : Emission}
    (asks : (x.expire e).Asks path) : e.Asks path := by
  obtain ⟨kind, m, phase⟩ := e
  cases phase with
  | waiting call =>
    simp only [expire] at asks
    split at asks <;> simp [Emission.Asks] at asks
  | _ => exact asks

end Exchange

namespace Switchboard

variable {codec : Codec} {t : Switchboard} {event : Event} {path : String}

/-- What is cached for a path. -/
def cached? (t : Switchboard) (path : String) : Option (Option InterestVerdict) :=
  t.service.tables.interest.find? path

/-- The client is asked about the path: for which emission, and what it says. -/
def asked (path : String) (t : Switchboard) : Event → List (Nat × Option InterestVerdict)
  | .turn number => (t.emissions[number]?).elim [] fun (client, e) =>
    if e.path = path ∧ e.phase = .unasked then
      [(number, ((t.line client).askInterest e.message.process).1)]
    else []
  | _ => []

/-- An answer about the path is stored, and for which emission. -/
def stored (path : String) (t : Switchboard) : Event → List (Nat × Option InterestVerdict)
  | .turn number => (t.emissions[number]?).elim [] fun (_, e) =>
    match e.phase with
    | .told verdict => if e.path = path then [(number, verdict)] else []
    | _ => []
  | _ => []

/-- What an event has to do with the interest in a path. -/
inductive Happens (path : String) (t : Switchboard) : Event → Prop
  | aside {event : Event} (cached : (t.step event).cached? path = t.cached? path)
    (asking : ∀ (number client : Nat) (e : Emission), e.Asks path →
      ((t.step event).emissions[number]? = some (client, e) ↔
        t.emissions[number]? = some (client, e)))
    (unasked : t.asked path event = []) (unstored : t.stored path event = []) :
    Happens path t event
  | looks {number client : Nat} {e : Emission} (held : t.emissions[number]? = some (client, e))
    (same : e.path = path) (phase : e.phase = .admitted) (unknown : t.cached? path = none)
    (cached : (t.step (.turn number)).cached? path = t.cached? path)
    (after : (t.step (.turn number)).emissions =
      t.emissions.set number (client, e.enter .unasked)) :
    Happens path t (.turn number)
  | asks {number client : Nat} {e : Emission} {verdict : Option InterestVerdict}
    (held : t.emissions[number]? = some (client, e)) (same : e.path = path)
    (phase : e.phase = .unasked) (asked : t.asked path (.turn number) = [(number, verdict)])
    (cached : (t.step (.turn number)).cached? path = t.cached? path)
    (after : (t.step (.turn number)).emissions =
      t.emissions.set number (client, e.enter (.told verdict))) :
    Happens path t (.turn number)
  | stores {number client : Nat} {e : Emission} {verdict : Option InterestVerdict}
    (held : t.emissions[number]? = some (client, e)) (same : e.path = path)
    (phase : e.phase = .told verdict)
    (stored : t.stored path (.turn number) = [(number, verdict)])
    (cached : (t.step (.turn number)).cached? path = some verdict)
    (after : (t.step (.turn number)).emissions = t.emissions.set number (client, e.judge verdict)) :
    Happens path t (.turn number)

theorem step_turn {number client : Nat} {e : Emission}
    (held : t.emissions[number]? = some (client, e)) (on : e.phase ≠ .begun) :
    t.step (.turn number) =
      { t with
        service := ((t.line client).turn e).1.service
        clients := Function.update t.clients client ((t.line client).turn e).1.dispatcher
        emissions := t.emissions.set number (client, ((t.line client).turn e).2) } := by
  simp only [step, held, addressee, if_neg on]

/-- An emission goes on that has nothing to do with the path, before or after. -/
theorem asking_set {emissions : List (Nat × Emission)} {number client client' : Nat}
    {e e' : Emission} (held : emissions[number]? = some (client, e)) (before : ¬e.Asks path)
    (after : ¬e'.Asks path) (k c : Nat) (a : Emission) (asks : a.Asks path) :
    (emissions.set number (client', e'))[k]? = some (c, a) ↔ emissions[k]? = some (c, a) := by
  constructor
  · intro found
    rcases getElem?_of_set found with ⟨-, new⟩ | ⟨-, old⟩
    · obtain ⟨-, rfl⟩ := Prod.mk.inj new
      exact absurd asks after
    · exact old
  · intro found
    have other : number ≠ k := by
      rintro rfl
      obtain ⟨-, rfl⟩ := Prod.mk.inj (Option.some.inj (held.symm.trans found))
      exact before asks
    rwa [List.getElem?_set_ne other]

theorem asked_of_held (path : String) {number client : Nat} {e : Emission}
    (held : t.emissions[number]? = some (client, e))
    (quiet : ¬(e.path = path ∧ e.phase = .unasked)) : t.asked path (.turn number) = [] := by
  simp only [asked, held, Option.elim_some]
  exact if_neg quiet

theorem stored_of_held (path : String) {number client : Nat} {e : Emission}
    (held : t.emissions[number]? = some (client, e))
    (quiet : ¬∃ verdict, e.path = path ∧ e.phase = .told verdict) :
    t.stored path (.turn number) = [] := by
  simp only [stored, held, Option.elim_some]
  split
  · next verdict told => exact if_neg fun same => quiet ⟨verdict, same, told⟩
  · rfl

/-- The client is asked, and an answer is stored, in one phase of an emission only. -/
theorem asked_of_phase (path : String) {number client : Nat} {e : Emission}
    (held : t.emissions[number]? = some (client, e)) (other : e.phase ≠ .unasked) :
    t.asked path (.turn number) = [] := asked_of_held path held fun asks => other asks.2

theorem stored_of_phase (path : String) {number client : Nat} {e : Emission}
    (held : t.emissions[number]? = some (client, e)) (other : ∀ verdict, e.phase ≠ .told verdict) :
    t.stored path (.turn number) = [] := by
  refine stored_of_held path held ?_
  rintro ⟨verdict, -, told⟩
  exact other verdict told

theorem happens_turn (path : String) (t : Switchboard) (number : Nat) :
    Happens path t (.turn number) := by
  cases held : t.emissions[number]? with
  | none =>
    have still : t.step (.turn number) = t := by simp only [step, held]
    refine .aside (by rw [still]) (fun _ _ _ _ => by rw [still]) ?_ ?_
    · simp only [asked, held, Option.elim_none]
    · simp only [stored, held, Option.elim_none]
  | some entry =>
    obtain ⟨client, e⟩ := entry
    have treats := Exchange.treats path (t.line (t.addressee client e)) e
    rcases turned : (t.line (t.addressee client e)).turn e with ⟨x, e'⟩
    have stepped : t.step (.turn number) =
        { t with
          service := x.service
          clients := Function.update t.clients (t.addressee client e) x.dispatcher
          emissions := t.emissions.set number (t.addressee client e, e') } := by
      simp only [step, held, turned]
    have later (on : e.phase ≠ .begun) : t.addressee client e = client := if_neg on
    rw [turned] at treats
    cases treats with
    | aside before after cached =>
      have unasked : t.asked path (.turn number) = [] :=
        asked_of_held path held fun asks => before ⟨asks.1, .inl asks.2⟩
      have untold : t.stored path (.turn number) = [] := by
        refine stored_of_held path held ?_
        rintro ⟨verdict, same, told⟩
        exact before ⟨same, .inr ⟨verdict, told⟩⟩
      refine .aside ?_ ?_ unasked untold
      · rw [stepped]
        exact cached
      · rw [stepped]
        exact asking_set held before after
    | looks same phase unknown =>
      rw [later (by simp [phase])] at stepped
      exact .looks held same phase unknown (by rw [stepped]; rfl) (by rw [stepped])
    | asks same phase =>
      rw [later (by simp [phase])] at stepped
      have puts : t.asked path (.turn number) =
          [(number, ((t.line client).askInterest e.message.process).1)] := by
        simp only [asked, held, Option.elim_some]
        exact if_pos ⟨same, phase⟩
      refine .asks held same phase puts ?_ (by rw [stepped])
      rw [stepped, cached?, Exchange.askInterest_service]
      rfl
    | @stores verdict same phase =>
      rw [later (by simp [phase])] at stepped
      refine .stores held same phase ?_ ?_ (by rw [stepped])
      · simp only [stored, held, Option.elim_some, phase]
        exact if_pos same
      · rw [stepped]
        exact (Table.find_put ..).trans (if_pos rfl)

/-- All that an event has to do with a path, unless it empties the cache. -/
theorem happens (path : String) (keeps : t.empties event = false) : Happens path t event := by
  cases event with
  | service operation outside =>
    have cached := Service.interest_perform t.service outside
    have kept : ¬t.service.emptiesInterest operation = true := by
      rw [Bool.not_eq_true]
      exact keeps
    rw [if_neg kept] at cached
    exact .aside (congrArg (·.find? path) cached) (fun _ _ _ _ => .rfl) rfl rfl
  | connect client generation =>
    have refused : t.service.available = false := keeps
    have still : t.step (.connect client generation) = t := by
      simp only [step, Service.bind, refused, Bool.false_eq_true, if_false]
    exact .aside (by rw [still]) (fun _ _ _ _ => by rw [still]) rfl rfl
  | client number operation => exact .aside rfl (fun _ _ _ _ => .rfl) rfl rfl
  | emit kind m =>
    refine .aside rfl (fun number client e asks => ?_) rfl rfl
    constructor
    · intro found
      cases arises found with
      | stays held => exact held
      | begins new => simp [new, Emission.Asks, Emission.new] at asks
    · intro held
      exact (List.getElem?_append_left (List.getElem?_eq_some_iff.1 held).1).trans held
  | turn number => exact happens_turn path t number
  | expire number =>
    refine .aside ?_ (fun k client e asks => ?_) rfl rfl
    · simp only [step]
      split <;> rfl
    · cases held : t.emissions[number]? with
      | none => simp only [step, held]
      | some entry =>
        obtain ⟨c, waits⟩ := entry
        simp only [step, held]
        by_cases asking : waits.Asks path
        · obtain ⟨inside, same⟩ := List.getElem?_eq_some_iff.1 held
          rw [Exchange.expire_of_asks asking, ← same, List.set_getElem_self]
        · refine asking_set held asking (fun after => ?_) k client e asks
          exact asking (Exchange.asks_of_expire after)

/-! ### Answers on their way -/

/-- A client has been asked about the path for an emission. What it has said is not stored yet. -/
def Outstanding (t : Switchboard) (path : String) (number : Nat)
    (verdict : Option InterestVerdict) : Prop :=
  ∃ client e, t.emissions[number]? = some (client, e) ∧ e.path = path ∧ e.phase = .told verdict

/-- An emission is between looking and storing. -/
def Asking (t : Switchboard) (path : String) (number : Nat) : Prop :=
  ∃ client e, t.emissions[number]? = some (client, e) ∧ e.Asks path

theorem Outstanding.asking {number : Nat} {verdict : Option InterestVerdict}
    (h : t.Outstanding path number verdict) : t.Asking path number := by
  obtain ⟨client, e, held, same, told⟩ := h
  exact ⟨client, e, held, same, .inr ⟨verdict, told⟩⟩

theorem Outstanding.unique {number : Nat} {verdict other : Option InterestVerdict}
    (h : t.Outstanding path number verdict) (h' : t.Outstanding path number other) :
    verdict = other := by
  obtain ⟨_, e, held, -, told⟩ := h
  obtain ⟨_, e', held', -, told'⟩ := h'
  obtain ⟨-, rfl⟩ := Prod.mk.inj (Option.some.inj (held.symm.trans held'))
  exact EmissionPhase.told.inj (told.symm.trans told')

/-- What an emission becomes stands in its place. -/
theorem outstanding_of_set {number k client : Nat} {e : Emission} {verdict : Option InterestVerdict}
    {emissions : List (Nat × Emission)} (after : emissions = t.emissions.set number (client, e))
    (found : ∃ client' e', emissions[k]? = some (client', e') ∧ e'.path = path ∧
      e'.phase = .told verdict) :
    t.Outstanding path k verdict ∨ k = number ∧ e.phase = .told verdict := by
  obtain ⟨client', e', held, same, told⟩ := found
  rw [after] at held
  rcases getElem?_of_set held with ⟨rfl, new⟩ | ⟨-, old⟩
  · obtain ⟨-, rfl⟩ := Prod.mk.inj new
    exact .inr ⟨rfl, told⟩
  · exact .inl ⟨client', e', old, same, told⟩

theorem outstanding_of_stored {number : Nat} {verdict : Option InterestVerdict}
    (mem : (number, verdict) ∈ t.stored path event) : t.Outstanding path number verdict := by
  cases event with
  | turn n =>
    cases held : t.emissions[n]? with
    | none =>
      simp only [stored, held, Option.elim_none] at mem
      cases mem
    | some entry =>
      obtain ⟨client, e⟩ := entry
      simp only [stored, held, Option.elim_some] at mem
      split at mem
      · next v told =>
        split at mem
        · next same =>
          obtain ⟨rfl, rfl⟩ := Prod.mk.inj (List.mem_singleton.1 mem)
          exact ⟨client, e, held, same, told⟩
        · cases mem
      · cases mem
  | _ => cases mem

section Step

variable (keeps : t.empties event = false)

include keeps

theorem outstanding_of_step {number : Nat} {verdict : Option InterestVerdict}
    (h : (t.step event).Outstanding path number verdict) :
    t.Outstanding path number verdict ∨ (number, verdict) ∈ t.asked path event := by
  cases happens path keeps with
  | aside cached asking unasked unstored =>
    obtain ⟨client, e, held, same, told⟩ := h
    exact .inl ⟨client, e, (asking number client e ⟨same, .inr ⟨verdict, told⟩⟩).1 held, same, told⟩
  | looks held same phase unknown cached after =>
    rcases outstanding_of_set after h with old | ⟨-, told⟩
    · exact .inl old
    · cases told
  | asks held same phase puts cached after =>
    rcases outstanding_of_set after h with old | ⟨rfl, told⟩
    · exact .inl old
    · rw [puts, EmissionPhase.told.inj told]
      exact .inr List.mem_cons_self
  | @stores n client e v held same phase puts cached after =>
    rcases outstanding_of_set after h with old | ⟨-, told⟩
    · exact .inl old
    · rcases e.judge_cases v with judged | judged <;> rw [judged] at told <;> cases told

theorem cached_step (path : String) : (t.step event).cached? path =
    ((t.stored path event).getLast?.map (·.2)).or (t.cached? path) := by
  cases happens path keeps with
  | aside cached asking unasked unstored =>
    rw [cached, unstored]
    rfl
  | looks held same phase unknown cached after =>
    rw [cached, stored_of_phase path held (by simp [phase])]
    rfl
  | asks held same phase puts cached after =>
    rw [cached, stored_of_phase path held (by simp [phase])]
    rfl
  | stores held same phase puts cached after =>
    rw [puts, cached]
    rfl

end Step

/-! ### One question for each emission -/

theorem hasAsked_set {emissions : List (Nat × Emission)} {n number client client' former : Nat}
    {e e' before : Emission} (held : emissions[number]? = some (client, e)) (asked : e.HasAsked)
    (found : emissions[n]? = some (former, before)) (next : before.HasAsked → e'.HasAsked) :
    ∃ c a, (emissions.set n (client', e'))[number]? = some (c, a) ∧ a.HasAsked := by
  by_cases same : n = number
  · subst same
    obtain ⟨-, rfl⟩ := Prod.mk.inj (Option.some.inj (held.symm.trans found))
    exact ⟨client', e', List.getElem?_set_self (List.getElem?_eq_some_iff.1 held).1, next asked⟩
  · exact ⟨client, e, (List.getElem?_set_ne same).trans held, asked⟩

theorem hasAsked_step {number client : Nat} {e : Emission}
    (held : t.emissions[number]? = some (client, e)) (asked : e.HasAsked) (event : Event) :
    ∃ client e, (t.step event).emissions[number]? = some (client, e) ∧ e.HasAsked := by
  cases event with
  | service | client => exact ⟨client, e, held, asked⟩
  | connect =>
    simp only [step]
    split <;> exact ⟨client, e, held, asked⟩
  | emit kind m =>
    have inside : number < t.emissions.length := (List.getElem?_eq_some_iff.1 held).1
    exact ⟨client, e, (List.getElem?_append_left inside).trans held, asked⟩
  | turn n =>
    simp only [step]
    split
    · next found => exact hasAsked_set held asked found Exchange.hasAsked_turn
    · exact ⟨client, e, held, asked⟩
  | expire n =>
    simp only [step]
    split
    · next found => exact hasAsked_set held asked found Exchange.hasAsked_expire
    · exact ⟨client, e, held, asked⟩

theorem asked_cases (path : String) (t : Switchboard) (event : Event) : t.asked path event = [] ∨
    ∃ number client e verdict, event = .turn number ∧
      t.emissions[number]? = some (client, e) ∧ e.phase = .unasked ∧
        t.asked path event = [(number, verdict)] := by
  cases event with
  | turn number =>
    cases held : t.emissions[number]? with
    | none => exact .inl (by simp only [asked, held, Option.elim_none])
    | some entry =>
      obtain ⟨client, e⟩ := entry
      by_cases puts : e.path = path ∧ e.phase = .unasked
      · refine .inr ⟨number, client, e, ((t.line client).askInterest e.message.process).1, rfl,
          held, puts.2, ?_⟩
        simp only [asked, held, Option.elim_some]
        exact if_pos puts
      · exact .inl (asked_of_held path held puts)
  | _ => exact .inl rfl

end Switchboard

end EndpointMonitor
