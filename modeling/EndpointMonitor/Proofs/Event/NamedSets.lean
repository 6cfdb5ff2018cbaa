import EndpointMonitor.Event.Wire
import EndpointMonitor.Proofs.Event.Set
import Mathlib.Data.Finset.Sort
import Mathlib.Logic.Function.Basic

/-!
Runs of operations on any number of sets of events that have names. The stored masks and finite sets
of numbers to which the same is done stay in step: they give the same answers and list the same ids.
-/

namespace EndpointMonitor

open Json (Node)
open Wire

namespace EventSet

/-- What can be done to sets that have names. -/
inductive Step where
  | clear (name : String)
  | insert (name : String) (event : EventType)
  /-- Inserts an event that has to be in range. -/
  | insertChecked (name : String) (event : EventType)
  | remove (name : String) (event : EventType)
  | union (name other : String)
  | subtract (name other : String)
  /-- Collects those events of a list that are in range. -/
  | collect (name : String) (events : List EventType)
  /-- Makes a set of events that all have to be in range. -/
  | make (name : String) (events : List EventType)
  /-- Reads a set from a payload, or from a part of one. -/
  | read (name : String) (source : Source) (node : Node)

inductive Answer where
  | nothing
  | flag (value : Bool)
  | outOfRange (error : EventOutOfRange)
  | unreadable (error : DecodeError)

/-- A step that fails leaves all sets as they are. -/
def Step.perform (sets : String → EventSet) : Step → Answer × (String → EventSet)
  | .clear name => (.nothing, Function.update sets name .empty)
  | .insert name event =>
    let (added, s) := (sets name).insert event
    (.flag added, Function.update sets name s)
  | .insertChecked name event =>
    match (sets name).insert? event with
    | .ok (added, s) => (.flag added, Function.update sets name s)
    | .error error => (.outOfRange error, sets)
  | .remove name event =>
    let (removed, s) := (sets name).remove event
    (.flag removed, Function.update sets name s)
  | .union name other => (.nothing, Function.update sets name ((sets name).union (sets other)))
  | .subtract name other =>
    (.nothing, Function.update sets name ((sets name).subtract (sets other)))
  | .collect name events => (.nothing, Function.update sets name (.ofList events))
  | .make name events =>
    match EventSet.ofList? events with
    | .ok s => (.nothing, Function.update sets name s)
    | .error error => (.outOfRange error, sets)
  | .read name source node =>
    match Wire.decode source node with
    | .ok s => (.nothing, Function.update sets name s)
    | .error error => (.unreadable error, sets)

/-- The ids of listed events. -/
def idsOf (events : List EventType) : Finset ℕ := (events.map (·.id.toNat)).toFinset

/-- The first event of a list that no set can hold. -/
def firstOutside? (events : List EventType) : Option EventType :=
  events.find? fun e => 1023 < e.id.toNat

/-- What a step does to finite sets of numbers up to 1023. -/
def Step.expected (ids : String → Finset ℕ) : Step → Answer × (String → Finset ℕ)
  | .clear name => (.nothing, Function.update ids name ∅)
  | .insert name event =>
    if event.id.toNat ≤ 1023 then
      (.flag (event.id.toNat ∉ ids name),
        Function.update ids name (Insert.insert event.id.toNat (ids name)))
    else (.flag false, ids)
  | .insertChecked name event =>
    if event.id.toNat ≤ 1023 then
      (.flag (event.id.toNat ∉ ids name),
        Function.update ids name (Insert.insert event.id.toNat (ids name)))
    else (.outOfRange ⟨event⟩, ids)
  | .remove name event =>
    (.flag (event.id.toNat ∈ ids name),
      Function.update ids name ((ids name).erase event.id.toNat))
  | .union name other => (.nothing, Function.update ids name (ids name ∪ ids other))
  | .subtract name other => (.nothing, Function.update ids name (ids name \ ids other))
  | .collect name events =>
    (.nothing, Function.update ids name ((idsOf events).filter (· ≤ 1023)))
  | .make name events =>
    match firstOutside? events with
    | none => (.nothing, Function.update ids name (idsOf events))
    | some event => (.outOfRange ⟨event⟩, ids)
  | .read name source node =>
    match Wire.decode (α := List EventType) source node with
    | .error error => (.unreadable error, ids)
    | .ok events =>
      match firstOutside? events with
      | none => (.nothing, Function.update ids name (idsOf events))
      | some event => (.unreadable (.eventOutOfRange ⟨event⟩), ids)

/-- Steps one after another, with their answers. -/
def runSteps {σ : Type} (perform : σ → Step → Answer × σ) (start : σ) :
    List Step → List Answer × σ
  | [] => ([], start)
  | step :: steps =>
    let (answer, next) := perform start step
    let (answers, last) := runSteps perform next steps
    (answer :: answers, last)

/-! ### Sets as finite sets of numbers -/

variable {s t : EventSet} {e : EventType}

/-- The ids of the members. -/
def ids (s : EventSet) : Finset ℕ := idsOf s.toList

theorem mem_idsOf {events : List EventType} : e.id.toNat ∈ idsOf events ↔ e ∈ events := by
  rw [idsOf, List.mem_toFinset, List.mem_map]
  constructor
  · rintro ⟨f, mem, same⟩
    rwa [event_eq_iff.1 same] at mem
  · exact fun mem => ⟨e, mem, rfl⟩

theorem mem_ids : e.id.toNat ∈ s.ids ↔ e ∈ s := mem_idsOf.trans mem_toList

theorem exists_of_mem_idsOf {events : List EventType} {i : ℕ} (h : i ∈ idsOf events) :
    ∃ e ∈ events, e.id.toNat = i := List.mem_map.1 (List.mem_toFinset.1 h)

theorem exists_of_mem_ids {i : ℕ} (h : i ∈ s.ids) : ∃ e ∈ s, e.id.toNat = i := by
  obtain ⟨e, mem, id⟩ := exists_of_mem_idsOf h
  exact ⟨e, mem_toList.1 mem, id⟩

theorem le_of_mem_ids {i : ℕ} (h : i ∈ s.ids) : i ≤ 1023 := by
  obtain ⟨e, mem, rfl⟩ := exists_of_mem_ids h
  exact le_maxId_of_mem mem

/-- Ids are numbers of 32 bits, so a finite set of ids is told by its events. -/
theorem ids_eq {S : Finset ℕ} (small : ∀ i ∈ S, i < UInt32.size)
    (members : ∀ e, e ∈ s ↔ e.id.toNat ∈ S) : s.ids = S := by
  ext i
  constructor
  · intro mem
    obtain ⟨e, member, rfl⟩ := exists_of_mem_ids mem
    exact (members e).1 member
  · intro mem
    have value : i.toUInt32.toNat = i := by
      rw [Nat.toUInt32_eq, UInt32.toNat_ofNat']
      exact Nat.mod_eq_of_lt (small i mem)
    have member : (⟨i.toUInt32⟩ : EventType) ∈ s := (members _).2 (value.symm ▸ mem)
    exact value ▸ mem_ids.2 member

theorem eq_iff_ids : s = t ↔ s.ids = t.ids := by
  refine ⟨fun same => same ▸ rfl, fun same => ext fun e => ?_⟩
  rw [← mem_ids, same, mem_ids]

theorem small_of_mem_ids {i : ℕ} (h : i ∈ s.ids) : i < UInt32.size :=
  Nat.lt_of_le_of_lt (le_of_mem_ids h) (by decide)

theorem ids_empty : empty.ids = ∅ := ids_eq (by simp) fun e => by simp

theorem ids_insert (inside : e.id.toNat ≤ maxId) :
    (s.insert e).2.ids = Insert.insert e.id.toNat s.ids := by
  refine ids_eq (fun i mem => ?_) fun f => ?_
  · rcases Finset.mem_insert.1 mem with rfl | mem
    · exact e.id.toNat_lt
    · exact small_of_mem_ids mem
  · rw [EventSet.mem_insert, Finset.mem_insert, mem_ids, event_eq_iff, @eq_comm _ f e]
    have both : e = f ∧ f.id.toNat ≤ maxId ↔ e = f := and_iff_left_of_imp (· ▸ inside)
    rw [both, or_comm]

theorem ids_remove : (s.remove e).2.ids = s.ids.erase e.id.toNat := by
  refine ids_eq (fun i mem => small_of_mem_ids (Finset.mem_of_mem_erase mem)) fun f => ?_
  rw [mem_remove, Finset.mem_erase, mem_ids, ne_eq, ne_eq, event_eq_iff, @eq_comm _ f e, and_comm]

theorem ids_union : (s.union t).ids = s.ids ∪ t.ids := by
  refine ids_eq (fun i mem => ?_) fun e => ?_
  · exact (Finset.mem_union.1 mem).elim small_of_mem_ids small_of_mem_ids
  · rw [mem_union, Finset.mem_union, mem_ids, mem_ids]

theorem ids_subtract : (s.subtract t).ids = s.ids \ t.ids := by
  refine ids_eq (fun i mem => small_of_mem_ids (Finset.mem_sdiff.1 mem).1) fun e => ?_
  rw [mem_subtract, Finset.mem_sdiff, mem_ids, mem_ids]

theorem ids_ofList (events : List EventType) :
    (ofList events).ids = (idsOf events).filter (· ≤ 1023) := by
  refine ids_eq (fun i mem => ?_) fun e => ?_
  · obtain ⟨e, -, rfl⟩ := exists_of_mem_idsOf (Finset.mem_filter.1 mem).1
    exact e.id.toNat_lt
  · rw [EventSet.mem_ofList, Finset.mem_filter, mem_idsOf]
    rfl

theorem firstOutside?_eq_none {events : List EventType} (h : firstOutside? events = none) :
    (ofList events).ids = idsOf events := by
  rw [ids_ofList]
  refine Finset.filter_true_of_mem fun i mem => ?_
  obtain ⟨e, listed, rfl⟩ := exists_of_mem_idsOf mem
  have inside := List.find?_eq_none.1 h e listed
  exact Nat.not_lt.1 fun outside => inside (decide_eq_true outside)

theorem ofList?_eq_firstOutside (events : List EventType) :
    ofList? events =
      match firstOutside? events with
      | some event => .error ⟨event⟩
      | none => .ok (ofList events) := ofList?_eq events

/-! ### Steps -/

/-- The ids of all sets. -/
def allIds (sets : String → EventSet) (name : String) : Finset ℕ := (sets name).ids

theorem allIds_update (sets : String → EventSet) (name : String) (s : EventSet) :
    allIds (Function.update sets name s) = Function.update (allIds sets) name s.ids :=
  Function.comp_update ids sets name s

theorem contains_eq (s : EventSet) (e : EventType) :
    s.contains e = decide (e.id.toNat ∈ s.ids) :=
  Bool.eq_iff_iff.2 (mem_ids.symm.trans decide_eq_true_iff.symm)

theorem isNew_eq (s : EventSet) (e : EventType) :
    (!s.contains e) = decide (e.id.toNat ∉ s.ids) := by
  rw [contains_eq, decide_not]

/-- A set is read as a list of events that all have to be in range. -/
theorem decode_eq (source : Source) (node : Node) :
    Wire.decode (α := EventSet) source node =
      match Wire.decode (α := List EventType) source node with
      | .error error => .error error
      | .ok events =>
        match ofList? events with
        | .ok s => .ok s
        | .error error => .error (DecodeError.eventOutOfRange error) := by
  show (Wire.decode (α := List EventType) source node >>= _) = _
  cases Wire.decode (α := List EventType) source node with
  | error error => rfl
  | ok events =>
    show (match ofList? events with
      | .ok s => (pure s : Result EventSet)
      | .error e => throw (DecodeError.eventOutOfRange e)) =
      match ofList? events with
      | .ok s => .ok s
      | .error error => .error (DecodeError.eventOutOfRange error)
    cases ofList? events <;> rfl

/-- Sets and their ids stay in step. -/
theorem Step.expected_allIds (sets : String → EventSet) (step : Step) :
    step.expected (allIds sets) = ((step.perform sets).1, allIds (step.perform sets).2) := by
  cases step with
  | clear name => simp only [perform, expected, allIds_update, ids_empty]
  | insert name event =>
    rcases Nat.lt_or_ge maxId event.id.toNat with outside | inside
    · have unchanged := (insert_of_gt (s := sets name) outside).2
      have refused : ¬event.id.toNat ≤ 1023 := Nat.not_le.2 outside
      simp only [perform, expected, unchanged, if_neg refused, Function.update_eq_self]
    · have accepted : event.id.toNat ≤ 1023 := inside
      simp only [perform, expected, if_pos accepted, allIds_update, ids_insert inside,
        insert_isNew inside, isNew_eq]
      rfl
  | insertChecked name event =>
    rcases Nat.lt_or_ge maxId event.id.toNat with outside | inside
    · have error := (insert_of_gt (s := sets name) outside).1
      have refused : ¬event.id.toNat ≤ 1023 := Nat.not_le.2 outside
      simp only [perform, expected, error, if_neg refused]
    · have accepted : event.id.toNat ≤ 1023 := inside
      simp only [perform, expected, if_pos accepted, insert_of_le inside, allIds_update,
        ids_insert inside, insert_isNew inside, isNew_eq]
      rfl
  | remove name event =>
    simp only [perform, expected, allIds_update, ids_remove, remove_wasThere, contains_eq]
    rfl
  | union name other => simp only [perform, expected, allIds_update, ids_union, allIds]
  | subtract name other => simp only [perform, expected, allIds_update, ids_subtract, allIds]
  | collect name events => simp only [perform, expected, allIds_update, ids_ofList]
  | make name events =>
    simp only [perform, expected, ofList?_eq_firstOutside]
    cases outside : firstOutside? events with
    | some event => rfl
    | none => simp only [allIds_update, firstOutside?_eq_none outside]
  | read name source node =>
    simp only [perform, expected, decode_eq]
    cases Wire.decode (α := List EventType) source node with
    | error error => rfl
    | ok events =>
      simp only [ofList?_eq_firstOutside]
      cases outside : firstOutside? events with
      | some event => rfl
      | none => simp only [allIds_update, firstOutside?_eq_none outside]

theorem runSteps_expected (sets : String → EventSet) (steps : List Step) :
    runSteps Step.expected (allIds sets) steps =
      ((runSteps Step.perform sets steps).1, allIds (runSteps Step.perform sets steps).2) := by
  induction steps generalizing sets with
  | nil => rfl
  | cons step steps ih => simp only [runSteps, Step.expected_allIds, ih]

/-- A step with an id out of range changes no set. -/
theorem perform_of_gt (sets : String → EventSet) (name : String) (event : EventType)
    (outside : maxId < event.id.toNat) :
    (Step.insert name event).perform sets = (.flag false, sets) ∧
      (Step.insertChecked name event).perform sets = (.outOfRange ⟨event⟩, sets) ∧
      (Step.remove name event).perform sets = (.flag false, sets) := by
  have absent : event ∉ sets name := fun mem => Nat.not_le.2 outside (le_maxId_of_mem mem)
  have kept : ((sets name).remove event).2 = sets name := by
    refine ext fun f => mem_remove.trans ⟨And.left, fun mem => ⟨mem, ?_⟩⟩
    rintro rfl
    exact absent mem
  refine ⟨?_, ?_, ?_⟩
  · simp only [Step.perform, (insert_of_gt outside).2, Function.update_eq_self]
  · simp only [Step.perform, (insert_of_gt outside).1]
  · simp only [Step.perform, kept, Function.update_eq_self, remove_wasThere]
    exact congrArg (fun flag => (Answer.flag flag, sets)) (Bool.eq_false_iff.2 absent)

/-! ### What a set shows -/

theorem pairwise_toList (s : EventSet) : (s.toList.map (·.id.toNat)).Pairwise (· < ·) :=
  List.pairwise_map.2 (EventMask.pairwise_toList s.canonical)

/-- The members are listed in the one ascending order. -/
theorem toList_eq_sort (s : EventSet) : s.toList.map (·.id.toNat) = s.ids.sort (· ≤ ·) := by
  have distinct : (s.toList.map (·.id.toNat)).Nodup := (pairwise_toList s).imp Nat.ne_of_lt
  have ascending := (pairwise_toList s).imp Nat.le_of_lt
  exact ((List.toFinset_sort _ distinct).2 ascending).symm

/-- What a set shows if the ids of its members are `S`. -/
structure Represents (s : EventSet) (S : Finset ℕ) : Prop where
  bounded : ∀ i ∈ S, i ≤ 1023
  words_le : s.words.length ≤ 16
  /-- No zero word ends the mask. -/
  trimmed : s.words.getLast? ≠ some 0
  contains : ∀ e, s.contains e = decide (e.id.toNat ∈ S)
  size : s.size = S.card
  isEmpty : s.isEmpty = decide (S = ∅)
  toList : s.toList.map (·.id.toNat) = S.sort (· ≤ ·)
  ascending : (s.toList.map (·.id.toNat)).Pairwise (· < ·)
  text : s.text = "\x7b" ++ ", ".intercalate ((S.sort (· ≤ ·)).map toString) ++ "\x7d"

theorem isEmpty_eq (s : EventSet) : s.isEmpty = decide (s.ids = ∅) := by
  refine Bool.eq_iff_iff.2 (Iff.trans ?_ decide_eq_true_iff.symm)
  rw [← ids_empty, ← eq_iff_ids]
  exact ⟨eq_empty_of_isEmpty, fun same => same ▸ rfl⟩

theorem represents_ids (s : EventSet) : s.Represents s.ids where
  bounded _ := le_of_mem_ids
  words_le := s.canonical.short
  trimmed := s.canonical.trimmed
  contains := s.contains_eq
  size := by
    rw [← Finset.length_sort (· ≤ ·), ← toList_eq_sort, List.length_map]
    exact EventMask.size_eq_length s.words
  isEmpty := s.isEmpty_eq
  toList := s.toList_eq_sort
  ascending := s.pairwise_toList
  text := by
    rw [← toList_eq_sort, List.map_map]
    rfl

/-- After any steps on sets that start out empty, each set is the canonical form of the finite set
to which the same was done, and the steps have given the same answers. -/
theorem named_sets_canonical (steps : List Step) :
    let (answers, sets) := runSteps Step.perform (fun _ => empty) steps
    let (expected, ids) := runSteps Step.expected (fun _ => ∅) steps
    answers = expected ∧
      (∀ name, (sets name).Represents (ids name)) ∧
      (∀ name other, sets name = sets other ↔ ids name = ids other) ∧
      ∀ name event, 1023 < event.id.toNat →
        (Step.insert name event).perform sets = (.flag false, sets) ∧
          (Step.insertChecked name event).perform sets = (.outOfRange ⟨event⟩, sets) ∧
          (Step.remove name event).perform sets = (.flag false, sets) := by
  have start : allIds (fun _ => empty) = fun _ => ∅ := funext fun _ => ids_empty
  have both := runSteps_expected (fun _ => empty) steps
  rw [start] at both
  rw [both]
  exact ⟨rfl, fun name => represents_ids _, fun name other => eq_iff_ids,
    fun name event outside => perform_of_gt _ name event outside⟩

/-- What is over the first word is removed again, and the mask has one word as before. -/
theorem removed_set_equal :
    let sets := (runSteps Step.perform (fun _ => empty)
      [.insert "a" ⟨3⟩, .insert "b" ⟨3⟩, .insert "b" ⟨64⟩, .remove "b" ⟨64⟩]).2
    sets "a" = sets "b" ∧
      (Step.insert "a" ⟨1024⟩).perform sets = (.flag false, sets) := by
  intro sets
  obtain ⟨-, -, equal, outside⟩ := named_sets_canonical
    [.insert "a" ⟨3⟩, .insert "b" ⟨3⟩, .insert "b" ⟨64⟩, .remove "b" ⟨64⟩]
  exact ⟨(equal "a" "b").2 (by decide), (outside "a" ⟨1024⟩ (by decide)).1⟩

end EventSet

end EndpointMonitor
