import EndpointMonitor.Event.Mask

/-!
Which ids a mask has bits for. Every operation is one equation on these, and a mask that is no
longer than its last bit needs is determined by them.
-/

namespace EndpointMonitor

namespace EventMask

variable {m other : EventMask} {e : EventType}

/-- Whether a mask has the bit for an id. -/
def has (m : EventMask) (i : Nat) : Bool := (m[i / 64]?.getD 0).toBitVec.getLsbD (i % 64)

/-! ### One word -/

theorem toBitVec_bitAt (i : UInt64) : (bitAt i).toBitVec = BitVec.twoPow 64 (i.toNat % 64) := by
  simp [bitAt, BitVec.twoPow]

theorem getLsbD_bitAt (i : UInt64) (j : Nat) :
    (bitAt i).toBitVec.getLsbD j = decide (i.toNat % 64 = j) := by
  have inside : i.toNat % 64 < 64 := Nat.mod_lt _ (by decide)
  rw [toBitVec_bitAt, BitVec.getLsbD_twoPow, decide_eq_true inside, Bool.true_and]

theorem and_bitAt (word i : UInt64) :
    word &&& bitAt i = if word.toBitVec.getLsbD (i.toNat % 64) then bitAt i else 0 := by
  refine UInt64.toBitVec_inj.1 ?_
  rw [UInt64.toBitVec_and, toBitVec_bitAt, BitVec.and_twoPow]
  split
  · exact (toBitVec_bitAt i).symm
  · rfl

/-- A bit is set if masking the word with it leaves something. -/
theorem and_bitAt_ne_zero (word i : UInt64) :
    decide (word &&& bitAt i ≠ 0) = word.toBitVec.getLsbD (i.toNat % 64) := by
  rw [and_bitAt]
  split
  · next set => simpa [set] using bitAt_ne_zero i
  · next clear => simpa using clear

theorem place_of_event (e : EventType) : (e.id % 64).toUInt64.toNat % 64 = e.id.toNat % 64 := by
  simp

theorem getLsbD_bit (e : EventType) (j : Nat) :
    (bit e).toBitVec.getLsbD j = decide (e.id.toNat % 64 = j) := by
  rw [bit, getLsbD_bitAt, place_of_event]

theorem and_bit_ne_zero (word : UInt64) (e : EventType) :
    decide (word &&& bit e ≠ 0) = word.toBitVec.getLsbD (e.id.toNat % 64) := by
  rw [bit, and_bitAt_ne_zero, place_of_event]

theorem getLsbD_clear (word : UInt64) (e : EventType) {j : Nat} (inside : j < 64) :
    (word &&& ~~~bit e).toBitVec.getLsbD j =
      (word.toBitVec.getLsbD j && !decide (e.id.toNat % 64 = j)) := by
  rw [UInt64.toBitVec_and, BitVec.getLsbD_and, UInt64.toBitVec_not, BitVec.getLsbD_not,
    getLsbD_bit, decide_eq_true inside, Bool.true_and]

theorem slot_eq (e : EventType) : slot e = e.id.toNat / 64 := UInt32.toNat_div _ _

/-! ### All words -/

theorem has_of_getElem {i : Nat} {word : UInt64} (found : m[i / 64]? = some word) :
    m.has i = word.toBitVec.getLsbD (i % 64) := by
  rw [has, found, Option.getD_some]

theorem has_of_none {i : Nat} (absent : m[i / 64]? = none) : m.has i = false := by
  rw [has, absent]
  exact BitVec.getLsbD_zero

theorem contains_eq_has (m : EventMask) (e : EventType) : m.contains e = m.has e.id.toNat := by
  unfold contains
  rw [slot_eq]
  split
  · next word found => rw [has_of_getElem found, and_bit_ne_zero]
  · next absent => rw [has_of_none absent]

theorem has_widen (m : EventMask) (length i : Nat) : (m.widen length).has i = m.has i := by
  rw [has, has, getElem_widen]
  split
  · rfl
  · next beyond =>
    rw [List.getElem?_eq_none (Nat.not_lt.1 beyond)]
    split <;> rfl

theorem getD_trim (m : EventMask) (i : Nat) : m.trim[i]?.getD 0 = m[i]?.getD 0 := by
  induction m generalizing i with
  | nil => rfl
  | cons word rest ih =>
    rw [trim]
    split
    · next zero =>
      cases i with
      | zero => simp [zero.2]
      | succ i =>
        have same := ih i
        rw [zero.1] at same
        exact same
    · cases i with
      | zero => rfl
      | succ i => exact ih i

theorem has_trim (m : EventMask) (i : Nat) : m.trim.has i = m.has i := by
  rw [has, has, getD_trim]

theorem has_union (m other : EventMask) (i : Nat) :
    (m.union other).has i = (m.has i || other.has i) := by
  rw [union, has, getElem_overlay, ← has_widen m other.length, has, has]
  cases there : (m.widen other.length)[i / 64]? with
  | none =>
    have short : (m.widen other.length).length ≤ i / 64 := List.getElem?_eq_none_iff.1 there
    have absent : other[i / 64]? = none := by
      rw [length_widen] at short
      exact List.getElem?_eq_none (by omega)
    simp [absent]
  | some word => cases other[i / 64]? <;> simp

theorem has_subtract (m other : EventMask) (i : Nat) :
    (m.subtract other).has i = (m.has i && !other.has i) := by
  have inside : i % 64 < 64 := Nat.mod_lt _ (by decide)
  rw [subtract, has_trim, has, getElem_overlay, has, has]
  cases m[i / 64]? with
  | none => simp
  | some word => cases other[i / 64]? <;> simp [inside]

theorem slot_lt_widen (m : EventMask) (e : EventType) :
    e.id.toNat / 64 < (m.widen (slot e + 1)).length := by
  rw [length_widen, slot_eq]
  omega

theorem insert_isNew (m : EventMask) (e : EventType) : (m.insert e).1 = !m.contains e := by
  have test := and_bit_ne_zero ((m.widen (slot e + 1)).getD (slot e) 0) e
  rw [contains_eq_has, ← has_widen m (slot e + 1), has, ← slot_eq, ← List.getD_eq_getElem?_getD,
    ← test, insert, decide_not, Bool.not_not]

/-- Ids that share a word differ in their places. -/
theorem place_eq_iff {i j : Nat} (same : i / 64 = j / 64) : i % 64 = j % 64 ↔ i = j := by omega

theorem has_insert (m : EventMask) (e : EventType) (i : Nat) :
    (m.insert e).2.has i = (m.has i || decide (e.id.toNat = i)) := by
  have long := slot_lt_widen m e
  rw [← has_widen m (slot e + 1), insert, has, List.getElem?_modify, has, slot_eq]
  rw [slot_eq] at long
  by_cases here : e.id.toNat / 64 = i / 64
  · rw [here] at long
    simp [List.getElem?_eq_getElem long, here, getLsbD_bit, place_eq_iff here]
  · have other : e.id.toNat ≠ i := fun same => here (congrArg (· / 64) same)
    simp [here, other]

theorem remove_wasThere (m : EventMask) (e : EventType) : (m.remove e).1 = m.contains e := by
  unfold remove contains
  split <;> rfl

theorem has_remove (m : EventMask) (e : EventType) (i : Nat) :
    (m.remove e).2.has i = (m.has i && !decide (e.id.toNat = i)) := by
  have inside : i % 64 < 64 := Nat.mod_lt _ (by decide)
  unfold remove
  split
  · next word found =>
    rw [has_trim, has, List.getElem?_set]
    rw [slot_eq] at found ⊢
    by_cases here : e.id.toNat / 64 = i / 64
    · rw [here] at found
      have known : i / 64 < m.length := (List.getElem?_eq_some_iff.1 found).1
      have bits := getLsbD_clear word e inside
      simp only [place_eq_iff here] at bits
      simp only [here, known, if_true, Option.getD_some, bits, has_of_getElem found]
    · have other : e.id.toNat ≠ i := fun same => here (congrArg (· / 64) same)
      simp [here, has, other]
  · next absent =>
    have clear : m.has e.id.toNat = false := has_of_none (slot_eq e ▸ absent)
    by_cases same : e.id.toNat = i
    · rw [← same, clear]
      rfl
    · simp [same]

/-! ### Masks that are as long as they need to be -/

theorem has_of_capacity_le (h : m.Canonical) {i : Nat} (large : capacity ≤ i) :
    m.has i = false := by
  have short : m.length ≤ capacity / 64 := h.short
  exact has_of_none (List.getElem?_eq_none (Nat.le_trans short (Nat.div_le_div_right large)))

theorem word_eq_of_has {i : Nat} (same : ∀ j, m.has j = other.has j) :
    m[i]?.getD 0 = other[i]?.getD 0 := by
  refine UInt64.toBitVec_inj.1 (BitVec.eq_of_getLsbD_eq fun j inside => ?_)
  have word : (i * 64 + j) / 64 = i := by omega
  have place : (i * 64 + j) % 64 = j := by omega
  have bits := same (i * 64 + j)
  rwa [has, has, word, place] at bits

/-- The last word of one mask is there in the other too, since it is not zero. -/
theorem length_le_of_has (h : m.Canonical) (same : ∀ i, m.has i = other.has i) :
    m.length ≤ other.length := by
  rcases Nat.lt_or_ge other.length m.length with longer | short
  · have inside : m.length - 1 < m.length := by omega
    have last := trimmed_iff.1 h.trimmed _ (List.getElem?_eq_getElem inside)
    have word := word_eq_of_has (i := m.length - 1) same
    rw [List.getElem?_eq_getElem inside, List.getElem?_eq_none (by omega)] at word
    exact absurd word last
  · exact short

theorem Canonical.ext (h : m.Canonical) (h' : other.Canonical)
    (same : ∀ i, m.has i = other.has i) : m = other := by
  have length : m.length = other.length :=
    Nat.le_antisymm (length_le_of_has h same) (length_le_of_has h' fun i => (same i).symm)
  refine List.ext_getElem length fun i inside inside' => ?_
  have word := word_eq_of_has (i := i) same
  rwa [List.getElem?_eq_getElem inside, List.getElem?_eq_getElem inside'] at word

/-- Only the mask without words has no bits. -/
theorem isEmpty_iff (h : m.Canonical) : m.isEmpty = true ↔ m = [] := by
  constructor
  · intro zero
    by_cases none_ : m.length = 0
    · exact List.length_eq_zero_iff.1 none_
    · have inside : m.length - 1 < m.length := by omega
      have last := trimmed_iff.1 h.trimmed _ (List.getElem?_eq_getElem inside)
      have clear := List.all_eq_true.1 zero _ (List.getElem_mem inside)
      exact absurd (of_decide_eq_true clear) last
  · rintro rfl
    rfl

/-! ### Lists of events -/

theorem filter_bits (word : UInt64) :
    ((List.range 64).filter fun i => decide (word &&& bitAt i.toUInt64 ≠ 0)) =
      (List.range 64).filter word.toBitVec.getLsbD := by
  refine List.filter_congr fun i mem => ?_
  have inside : i < 64 := List.mem_range.1 mem
  have place : i.toUInt64.toNat % 64 = i := by
    rw [Nat.toUInt64_eq, UInt64.toNat_ofNat']
    omega
  rw [and_bitAt_ne_zero, place]

theorem length_wordToList (slot : Nat) (word : UInt64) :
    (wordToList slot word).length = ones word := by
  rw [wordToList, List.length_map, filter_bits, ones, List.countP_eq_length_filter]

theorem size_eq_length (m : EventMask) : m.size = m.toList.length := by
  have counts : m.zipIdx.map (fun entry => (wordToList entry.2 entry.1).length) =
      (m.zipIdx.map Prod.fst).map ones := by
    rw [List.map_map]
    exact List.map_congr_left fun entry _ => length_wordToList entry.2 entry.1
  rw [toList, List.length_flatMap, counts, List.zipIdx_map_fst, List.sum_eq_foldl, List.foldl_map,
    size]

theorem toNat_id {slot i : Nat} (known : slot < capacity / 64) (inside : i < 64) :
    (slot * 64 + i).toUInt32.toNat = slot * 64 + i := by
  have slots : slot < 16 := known
  rw [Nat.toUInt32_eq, UInt32.toNat_ofNat']
  omega

/-- The ids in a word follow those in the words before it. -/
theorem mem_wordToList {slot : Nat} {word : UInt64} (known : slot < capacity / 64) :
    e ∈ wordToList slot word ↔
      e.id.toNat / 64 = slot ∧ word.toBitVec.getLsbD (e.id.toNat % 64) = true := by
  rw [wordToList, filter_bits]
  constructor
  · intro mem
    obtain ⟨i, found, rfl⟩ := List.mem_map.1 mem
    obtain ⟨range, set⟩ := List.mem_filter.1 found
    have inside : i < 64 := List.mem_range.1 range
    have id := toNat_id known inside
    have place : (slot * 64 + i) % 64 = i := by omega
    show (slot * 64 + i).toUInt32.toNat / 64 = slot ∧
      word.toBitVec.getLsbD ((slot * 64 + i).toUInt32.toNat % 64) = true
    rw [id, place]
    exact ⟨by omega, set⟩
  · rintro ⟨rfl, set⟩
    have inside : e.id.toNat % 64 < 64 := Nat.mod_lt _ (by decide)
    refine List.mem_map.2 ⟨e.id.toNat % 64, List.mem_filter.2 ⟨List.mem_range.2 inside, set⟩, ?_⟩
    have id := toNat_id known inside
    have whole : e.id.toNat / 64 * 64 + e.id.toNat % 64 = e.id.toNat := by omega
    rw [whole] at id ⊢
    exact congrArg EventType.mk (UInt32.toNat.inj id)

theorem Canonical.slot_lt (h : m.Canonical) {entry : UInt64 × Nat} (mem : entry ∈ m.zipIdx) :
    entry.2 < capacity / 64 := by
  have found := List.mem_zipIdx_iff_getElem?.1 mem
  exact Nat.lt_of_lt_of_le (List.getElem?_eq_some_iff.1 found).1 h.short

theorem mem_toList (h : m.Canonical) : e ∈ m.toList ↔ m.contains e = true := by
  rw [toList, List.mem_flatMap, contains_eq_has]
  constructor
  · rintro ⟨entry, mem, listed⟩
    obtain ⟨slot, set⟩ := (mem_wordToList (h.slot_lt mem)).1 listed
    have found := List.mem_zipIdx_iff_getElem?.1 mem
    rw [← slot] at found
    rw [has_of_getElem found, set]
  · intro set
    cases found : m[e.id.toNat / 64]? with
    | none =>
      rw [has_of_none found] at set
      cases set
    | some word =>
      have mem : (word, e.id.toNat / 64) ∈ m.zipIdx := List.mem_zipIdx_iff_getElem?.2 found
      rw [has_of_getElem found] at set
      exact ⟨_, mem, (mem_wordToList (h.slot_lt mem)).2 ⟨rfl, set⟩⟩

theorem pairwise_wordToList {slot : Nat} (known : slot < capacity / 64) (word : UInt64) :
    (wordToList slot word).Pairwise fun e f => e.id.toNat < f.id.toNat := by
  rw [wordToList, List.pairwise_map]
  refine (List.pairwise_lt_range.filter _).imp_of_mem fun {i j} hi hj less => ?_
  have inside : i < 64 := List.mem_range.1 (List.mem_filter.1 hi).1
  have inside' : j < 64 := List.mem_range.1 (List.mem_filter.1 hj).1
  rw [toNat_id known inside, toNat_id known inside']
  exact Nat.add_lt_add_left less _

/-- The events are listed in ascending order, each once. -/
theorem pairwise_toList (h : m.Canonical) :
    m.toList.Pairwise fun e f => e.id.toNat < f.id.toNat := by
  have slots : m.zipIdx.Pairwise fun entry later => entry.2 < later.2 := by
    rw [← List.pairwise_map (f := Prod.snd) (R := (· < ·)), List.zipIdx_map_snd]
    exact List.pairwise_lt_range'
  rw [toList, List.pairwise_flatMap]
  refine ⟨fun entry mem => pairwise_wordToList (h.slot_lt mem) entry.1, ?_⟩
  refine slots.imp_of_mem fun mem mem' less e he f hf => ?_
  obtain ⟨slot, -⟩ := (mem_wordToList (h.slot_lt mem)).1 he
  obtain ⟨slot', -⟩ := (mem_wordToList (h.slot_lt mem')).1 hf
  omega

end EventMask

end EndpointMonitor
