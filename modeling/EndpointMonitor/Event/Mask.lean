import EndpointMonitor.Event.Basic

/-!
Bit masks in words of 64 bits. They are as long as their last bit needs: what makes a mask longer
sets a bit in its last word, and what clears bits drops the zero words at the end.
-/

namespace EndpointMonitor

/-- Words of 64 bits, the least significant first. Bit `i % 64` of word `i / 64` is for id `i`. -/
abbrev EventMask := List UInt64

namespace EventMask

/-- The number of ids that a mask can have bits for. -/
def capacity : Nat := 1024

/-- The word in which an event has its bit. -/
def slot (e : EventType) : Nat := (e.id / 64).toNat

/-- The bit at a place in a word. -/
def bitAt (i : UInt64) : UInt64 := 1 <<< i

/-- The bit of an event in its word. -/
def bit (e : EventType) : UInt64 := bitAt (e.id % 64).toUInt64

def contains (m : EventMask) (e : EventType) : Bool :=
  match m[slot e]? with
  | some word => word &&& bit e ≠ 0
  | none => false

def isEmpty (m : EventMask) : Bool := m.all (· = 0)

/-- The number of bits that are set in a word. -/
def ones (word : UInt64) : Nat := (List.range 64).countP word.toBitVec.getLsbD

def size (m : EventMask) : Nat := m.foldl (fun n word => n + ones word) 0

/-- The events of a word, given how many words come before it. -/
def wordToList (slot : Nat) (word : UInt64) : List EventType :=
  ((List.range 64).filter fun i => word &&& bitAt i.toUInt64 ≠ 0).map fun i =>
    ⟨(slot * 64 + i).toUInt32⟩

/-- The events in ascending order. -/
def toList (m : EventMask) : List EventType :=
  m.zipIdx.flatMap fun (word, slot) => wordToList slot word

/-- Drops the zero words at the end. -/
def trim : EventMask → EventMask
  | [] => []
  | word :: rest => if trim rest = [] ∧ word = 0 then [] else word :: trim rest

/-- Adds zero words up to a length. -/
def widen (m : EventMask) (length : Nat) : EventMask :=
  m ++ List.replicate (length - m.length) 0

/-- Changes each word that has a counterpart. -/
def overlay (f : UInt64 → UInt64 → UInt64) : EventMask → EventMask → EventMask
  | word :: rest, other :: others => f word other :: overlay f rest others
  | m, _ => m

/-- Sets the bit of an event and tells whether it was clear. -/
def insert (m : EventMask) (e : EventType) : Bool × EventMask :=
  let m := m.widen (slot e + 1)
  (m.getD (slot e) 0 &&& bit e = 0, m.modify (slot e) (· ||| bit e))

/-- Clears the bit of an event and tells whether it was set. -/
def remove (m : EventMask) (e : EventType) : Bool × EventMask :=
  match m[slot e]? with
  | some word => (word &&& bit e ≠ 0, trim (m.set (slot e) (word &&& ~~~bit e)))
  | none => (false, m)

def union (m other : EventMask) : EventMask := (m.widen other.length).overlay (· ||| ·) other

/-- Clears the bits that are set in the other mask. -/
def subtract (m other : EventMask) : EventMask :=
  (m.overlay (fun word other => word &&& ~~~other) other).trim

/-- A mask that has no more words than there are ids for, and no zero word at the end. -/
structure Canonical (m : EventMask) : Prop where
  short : m.length ≤ capacity / 64
  trimmed : m.getLast? ≠ some 0

/-! ### Lengths and words -/

variable {m other : EventMask}

theorem length_trim (m : EventMask) : m.trim.length ≤ m.length := by
  induction m with
  | nil => exact Nat.le_refl 0
  | cons word rest ih =>
    rw [trim]
    split
    · exact Nat.zero_le _
    · exact Nat.succ_le_succ ih

theorem getLast_trim (m : EventMask) : m.trim.getLast? ≠ some 0 := by
  induction m with
  | nil => exact nofun
  | cons word rest ih =>
    rw [trim]
    split
    · exact nofun
    · next kept =>
      cases trimmed : trim rest with
      | nil =>
        have set : word ≠ 0 := fun zero => kept ⟨trimmed, zero⟩
        simpa using set
      | cons first others =>
        rw [List.getLast?_cons_cons, ← trimmed]
        exact ih

theorem canonical_trim (short : m.length ≤ capacity / 64) : m.trim.Canonical :=
  ⟨Nat.le_trans m.length_trim short, m.getLast_trim⟩

theorem length_widen (m : EventMask) (length : Nat) :
    (m.widen length).length = max m.length length := by
  rw [widen, List.length_append, List.length_replicate]
  omega

theorem getElem_widen (m : EventMask) (length i : Nat) :
    (m.widen length)[i]? = if i < m.length then m[i]? else if i < length then some 0 else none := by
  rw [widen, List.getElem?_append]
  split
  · rfl
  · rw [List.getElem?_replicate]
    split <;> split <;> first | rfl | omega

theorem widen_of_le {length : Nat} (h : length ≤ m.length) : m.widen length = m := by
  rw [widen, Nat.sub_eq_zero_of_le h, List.replicate_zero, List.append_nil]

theorem length_overlay (f : UInt64 → UInt64 → UInt64) (m other : EventMask) :
    (m.overlay f other).length = m.length := by
  fun_induction overlay f m other with
  | case1 word rest other others ih => exact congrArg (· + 1) ih
  | case2 => rfl

theorem getElem_overlay (f : UInt64 → UInt64 → UInt64) (m other : EventMask) (i : Nat) :
    (m.overlay f other)[i]? = m[i]?.map fun word => (other[i]?.map (f word)).getD word := by
  fun_induction overlay f m other generalizing i with
  | case1 word rest other others ih =>
    cases i with
    | zero => rfl
    | succ i => exact ih i
  | case2 m other unpaired =>
    cases m with
    | nil => rfl
    | cons word rest =>
      cases other with
      | nil => simp
      | cons first others => exact absurd rfl (unpaired word rest first others rfl)

/-! ### What keeps masks short -/

theorem trimmed_iff : m.getLast? ≠ some 0 ↔ ∀ word, m[m.length - 1]? = some word → word ≠ 0 := by
  rw [List.getLast?_eq_getElem?]
  exact ⟨fun h word found zero => h (found.trans (congrArg some zero)), fun h zero => h 0 zero rfl⟩

theorem slot_lt {e : EventType} (h : e.id.toNat < capacity) : slot e < capacity / 64 := by
  rw [slot, UInt32.toNat_div]
  exact Nat.div_lt_of_lt_mul h

theorem or_ne_zero {word other : UInt64} (h : word ≠ 0 ∨ other ≠ 0) : word ||| other ≠ 0 := by
  rw [Ne, UInt64.or_eq_zero_iff]
  exact fun both => h.elim (· both.1) (· both.2)

theorem bitAt_ne_zero (i : UInt64) : bitAt i ≠ 0 := by
  intro zero
  have clear : (bitAt i).toBitVec.getLsbD (i.toNat % 64) = false := by
    rw [zero]
    exact BitVec.getLsbD_zero
  have inside : i.toNat % 64 < 64 := Nat.mod_lt _ (by decide)
  simp [bitAt, inside] at clear

/-- The bit of an event is in the last word if the mask had to be made longer for it. -/
theorem Canonical.insert (h : m.Canonical) {e : EventType} (inRange : e.id.toNat < capacity) :
    (m.insert e).2.Canonical where
  short := by
    have slots := slot_lt inRange
    have short := h.short
    simp only [EventMask.insert, List.length_modify, length_widen]
    omega
  trimmed := by
    rw [trimmed_iff]
    simp only [EventMask.insert, List.length_modify, List.getElem?_modify]
    intro word found
    obtain ⟨before, there, rfl⟩ := Option.map_eq_some_iff.1 found
    rw [length_widen] at there ⊢
    by_cases longer : m.length < slot e + 1
    · rw [if_pos (by omega)]
      exact or_ne_zero (.inr (bitAt_ne_zero _))
    · rw [widen_of_le (by omega), Nat.max_eq_left (by omega)] at there
      have kept := trimmed_iff.1 h.trimmed before there
      split
      · exact or_ne_zero (.inl kept)
      · exact kept

theorem Canonical.remove (h : m.Canonical) (e : EventType) : (m.remove e).2.Canonical := by
  unfold EventMask.remove
  split
  · refine canonical_trim ?_
    rw [List.length_set]
    exact h.short
  · exact h

theorem Canonical.union (h : m.Canonical) (h' : other.Canonical) : (m.union other).Canonical where
  short := by
    have short := h.short
    have short' := h'.short
    rw [EventMask.union, length_overlay, length_widen]
    omega
  trimmed := by
    rw [trimmed_iff, EventMask.union, length_overlay, length_widen, getElem_overlay]
    intro word found
    obtain ⟨before, there, rfl⟩ := Option.map_eq_some_iff.1 found
    by_cases longer : m.length < other.length
    · have last : max m.length other.length - 1 = other.length - 1 := by omega
      have inside : other.length - 1 < other.length := by omega
      rw [last, List.getElem?_eq_getElem inside]
      exact or_ne_zero (.inr (trimmed_iff.1 h'.trimmed _ (List.getElem?_eq_getElem inside)))
    · rw [widen_of_le (Nat.not_lt.1 longer), Nat.max_eq_left (Nat.not_lt.1 longer)] at there
      have kept := trimmed_iff.1 h.trimmed before there
      cases other[max m.length other.length - 1]? with
      | none => exact kept
      | some added => exact or_ne_zero (.inl kept)

theorem Canonical.subtract (h : m.Canonical) (other : EventMask) :
    (m.subtract other).Canonical := by
  refine canonical_trim ?_
  rw [length_overlay]
  exact h.short

end EventMask

end EndpointMonitor
