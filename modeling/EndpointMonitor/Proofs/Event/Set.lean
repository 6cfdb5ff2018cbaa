import EndpointMonitor.Event.Set
import EndpointMonitor.Proofs.Event.Mask

/-!
What is a member of a set after each operation. A set is determined by its members.
-/

namespace EndpointMonitor

namespace EventSet

variable {s t : EventSet} {e f : EventType} {events : List EventType}

theorem mem_iff : e ∈ s ↔ s.words.has e.id.toNat = true := by
  rw [← EventMask.contains_eq_has]
  rfl

/-- No set holds an event whose id is out of range. -/
theorem le_maxId_of_mem (h : e ∈ s) : e.id.toNat ≤ maxId := by
  rcases Nat.lt_or_ge e.id.toNat EventMask.capacity with inside | outside
  · exact Nat.le_sub_one_of_lt inside
  · have absent := EventMask.has_of_capacity_le s.canonical outside
    rw [mem_iff, absent] at h
    cases h

theorem eq_of_words_eq (h : s.words = t.words) : s = t := by
  cases s
  cases t
  cases h
  rfl

/-- Sets with the same members are equal, word for word. -/
theorem ext (h : ∀ e, e ∈ s ↔ e ∈ t) : s = t := by
  refine eq_of_words_eq (s.canonical.ext t.canonical fun i => ?_)
  rcases Nat.lt_or_ge i EventMask.capacity with inside | outside
  · have value : i.toUInt32.toNat = i := by
      have small : i < 1024 := inside
      rw [Nat.toUInt32_eq, UInt32.toNat_ofNat']
      omega
    have both := h ⟨i.toUInt32⟩
    rw [mem_iff, mem_iff] at both
    simp only [value] at both
    exact Bool.eq_iff_iff.2 both
  · rw [EventMask.has_of_capacity_le s.canonical outside,
      EventMask.has_of_capacity_le t.canonical outside]

@[simp] theorem not_mem_empty : e ∉ empty := by
  rw [mem_iff, EventMask.has_of_none rfl]
  exact Bool.false_ne_true

theorem eq_empty_of_isEmpty (h : s.isEmpty = true) : s = empty :=
  eq_of_words_eq ((EventMask.isEmpty_iff s.canonical).1 h)

@[simp] theorem mem_union : e ∈ s.union t ↔ e ∈ s ∨ e ∈ t := by
  simp only [mem_iff, union, EventMask.has_union, Bool.or_eq_true]

@[simp] theorem mem_subtract : e ∈ s.subtract t ↔ e ∈ s ∧ e ∉ t := by
  simp only [mem_iff, subtract, EventMask.has_subtract, Bool.and_eq_true, Bool.not_eq_true',
    Bool.not_eq_true]

/-! ### Single events -/

theorem insert_of_le (h : e.id.toNat ≤ maxId) : s.insert? e = .ok (s.insert e) := by
  simp only [insert, insert?, dif_pos h]

theorem insert_of_gt (h : maxId < e.id.toNat) :
    s.insert? e = .error ⟨e⟩ ∧ s.insert e = (false, s) := by
  simp only [insert, insert?, dif_neg (Nat.not_le.2 h), and_self]

theorem insert_isNew (h : e.id.toNat ≤ maxId) : (s.insert e).1 = !s.contains e := by
  simp only [insert, insert?, dif_pos h]
  exact EventMask.insert_isNew s.words e

theorem event_eq_iff : e.id.toNat = f.id.toNat ↔ e = f :=
  ⟨fun same => congrArg EventType.mk (UInt32.toNat.inj same), fun same => same ▸ rfl⟩

theorem mem_insert : f ∈ (s.insert e).2 ↔ f ∈ s ∨ e = f ∧ f.id.toNat ≤ maxId := by
  rcases Nat.lt_or_ge maxId e.id.toNat with outside | inside
  · rw [(insert_of_gt outside).2]
    refine ⟨.inl, fun h => h.elim id ?_⟩
    rintro ⟨rfl, inside⟩
    exact absurd inside (Nat.not_le.2 outside)
  · have bits := EventMask.has_insert s.words e f.id.toNat
    have member : f ∈ (s.insert e).2 ↔ f ∈ s ∨ e = f := by
      simp only [mem_iff, insert, insert?, dif_pos inside, bits, Bool.or_eq_true,
        decide_eq_true_eq, event_eq_iff]
    rw [member]
    exact or_congr_right ⟨fun same => ⟨same, same ▸ inside⟩, And.left⟩

theorem remove_wasThere : (s.remove e).1 = s.contains e := EventMask.remove_wasThere s.words e

theorem mem_remove : f ∈ (s.remove e).2 ↔ f ∈ s ∧ e ≠ f := by
  simp only [mem_iff, remove, EventMask.has_remove, Bool.and_eq_true, Bool.not_eq_true',
    decide_eq_false_iff_not, event_eq_iff, ne_eq]

/-! ### Lists of events -/

theorem foldlM_insert (events : List EventType) (s : EventSet) :
    events.foldlM (fun s e => (·.2) <$> s.insert? e) s =
      match events.find? fun e => maxId < e.id.toNat with
      | some e => .error ⟨e⟩
      | none => .ok (events.foldl (fun s e => (s.insert e).2) s) := by
  induction events generalizing s with
  | nil => rfl
  | cons e events ih =>
    rw [List.foldlM_cons, List.find?_cons]
    rcases Nat.lt_or_ge maxId e.id.toNat with outside | inside
    · rw [(insert_of_gt outside).1, decide_eq_true outside]
      rfl
    · rw [insert_of_le inside, decide_eq_false (Nat.not_lt.2 inside)]
      exact ih (s.insert e).2

/-- A list makes a set if a set can hold all that is listed. -/
theorem ofList?_eq (events : List EventType) :
    ofList? events =
      match events.find? fun e => maxId < e.id.toNat with
      | some e => .error ⟨e⟩
      | none => .ok (ofList events) := foldlM_insert events empty

theorem mem_foldl_insert : f ∈ events.foldl (fun s e => (s.insert e).2) s ↔
    f ∈ s ∨ f ∈ events ∧ f.id.toNat ≤ maxId := by
  induction events generalizing s with
  | nil => simp
  | cons e events ih =>
    rw [List.foldl_cons, ih, mem_insert, List.mem_cons, or_and_right, or_assoc, @eq_comm _ e f]

theorem mem_ofList : f ∈ ofList events ↔ f ∈ events ∧ f.id.toNat ≤ maxId := by
  rw [ofList, mem_foldl_insert]
  simp

/-- The set of a list that was accepted has the members of the list. -/
theorem mem_of_ofList (h : ofList? events = .ok s) : e ∈ s ↔ e ∈ events := by
  rw [ofList?_eq] at h
  split at h
  · cases h
  · next inside =>
    obtain rfl := Except.ok.inj h
    rw [mem_ofList]
    refine ⟨And.left, fun mem => ⟨mem, ?_⟩⟩
    exact Nat.not_lt.1 (of_decide_eq_false (by simpa using List.find?_eq_none.1 inside e mem))

theorem mem_toList : e ∈ s.toList ↔ e ∈ s := EventMask.mem_toList s.canonical

/-- A set is what its members make up. -/
theorem ofList_toList (s : EventSet) : ofList? s.toList = .ok s := by
  have inside : s.toList.find? (fun e => maxId < e.id.toNat) = none := by
    refine List.find?_eq_none.2 fun e mem => ?_
    simpa using le_maxId_of_mem (mem_toList.1 mem)
  rw [ofList?_eq, inside]
  refine congrArg Except.ok (ext fun e => ?_)
  rw [mem_ofList, mem_toList]
  exact ⟨And.left, fun mem => ⟨mem, le_maxId_of_mem mem⟩⟩

end EventSet

end EndpointMonitor
