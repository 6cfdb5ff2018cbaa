import EndpointMonitor.Mute.Table
import EndpointMonitor.Proofs.Codec.Faithfulness
import Mathlib.Data.Set.Basic

/-!
Sets of events as sets, and what is muted under each selector. A change to one selector leaves all
others alone.
-/

namespace EndpointMonitor

namespace EventSet

variable {s t : EventSet} {e : EventType}

/-- The members as a set. -/
def members (s : EventSet) : Set EventType := {e | e ∈ s}

@[simp] theorem mem_members : e ∈ s.members ↔ e ∈ s := Iff.rfl

@[simp] theorem members_empty : empty.members = ∅ := by
  ext e
  simp

@[simp] theorem members_union : (s.union t).members = s.members ∪ t.members := by
  ext e
  simp

@[simp] theorem members_subtract : (s.subtract t).members = s.members \ t.members := by
  ext e
  simp

theorem empty_subtract : empty.subtract t = empty := ext fun e => by simp

end EventSet

namespace Table

variable {κ α : Type} [DecidableEq κ]

@[simp] theorem find_empty (key : κ) : (empty : Table κ α).find? key = none := rfl

theorem find_filter (t : Table κ α) (keep : κ → Bool) (key : κ) :
    (t.filter keep).find? key = if keep key then t.find? key else none := by
  obtain ⟨entries, nodup⟩ := t
  simp only [find?, filter]
  clear nodup
  induction entries with
  | nil => exact (ite_self none).symm
  | cons entry entries ih =>
    obtain ⟨first, value⟩ := entry
    by_cases same : key = first
    · subst same
      cases kept : keep key <;> simp [kept, ih]
    · have passed : (key == first) = false := beq_false_of_ne same
      cases kept : keep first <;> simp [kept, passed, List.lookup_cons, ih]

theorem find_erase (t : Table κ α) (key other : κ) :
    (t.erase key).find? other = if other = key then none else t.find? other := by
  rw [erase, find_filter]
  by_cases same : other = key <;> simp [same]

theorem find_put (t : Table κ α) (key other : κ) (value : α) :
    (t.put key value).find? other = if other = key then some value else t.find? other := by
  have rest := find_erase t key other
  by_cases same : other = key
  · simp [find?, put, same]
  · have passed : (other == key) = false := beq_false_of_ne same
    simp only [if_neg same, find?] at rest ⊢
    rw [put, List.lookup_cons, passed]
    exact rest

end Table

namespace MuteTable

variable {κ : Type} [DecidableEq κ]

@[simp] theorem muted_empty (key : κ) : MuteTable.muted (.empty : MuteTable κ) key = .empty := rfl

theorem find_mute (t : MuteTable κ) (key other : κ) (events : EventSet) :
    (MuteTable.mute t key events).find? other =
      if other = key then some ((MuteTable.muted t key).union events) else t.find? other :=
  Table.find_put t key other _

theorem find_unmute (t : MuteTable κ) (key other : κ) (events : EventSet) :
    (MuteTable.unmute t key events).find? other =
      if other = key then
        if ((MuteTable.muted t key).subtract events).isEmpty then none
        else some ((MuteTable.muted t key).subtract events)
      else t.find? other := by
  have muted : MuteTable.muted t key = (t.find? key).getD .empty := rfl
  rw [muted]
  obtain found | ⟨old, found⟩ := (t.find? key).eq_none_or_eq_some
  · have nothing : EventSet.empty.isEmpty = true := rfl
    by_cases same : other = key
    · simp [MuteTable.unmute, same, found, EventSet.empty_subtract, nothing]
    · simp [MuteTable.unmute, same, found]
  · by_cases nothing : (old.subtract events).isEmpty = true
    · simp only [MuteTable.unmute, found, nothing, if_true, Table.find_erase, Option.getD_some]
    · simp only [MuteTable.unmute, found, nothing, Bool.false_eq_true, if_false, Table.find_put,
        Option.getD_some]

theorem muted_mute (t : MuteTable κ) (key other : κ) (events : EventSet) :
    MuteTable.muted (MuteTable.mute t key events) other =
      if other = key then (MuteTable.muted t key).union events else MuteTable.muted t other := by
  rw [MuteTable.muted, find_mute]
  split <;> rfl

/-- A selector under which nothing is left counts as one that was never there. -/
theorem muted_unmute (t : MuteTable κ) (key other : κ) (events : EventSet) :
    MuteTable.muted (MuteTable.unmute t key events) other =
      if other = key then (MuteTable.muted t key).subtract events else MuteTable.muted t other := by
  rw [MuteTable.muted, find_unmute]
  split
  · split
    · next nothing => exact (EventSet.eq_empty_of_isEmpty nothing).symm
    · rfl
  · rfl

theorem muted_filter (t : MuteTable κ) (keep : κ → Bool) (key : κ) :
    MuteTable.muted (t.filter keep) key = if keep key then MuteTable.muted t key else .empty := by
  simp only [MuteTable.muted, Table.find_filter]
  split <;> rfl

end MuteTable

namespace Inversions

theorem get_set (i : Inversions) (muteType other : InvertMutingType) (invert : Bool) :
    (i.set muteType invert).get other = if other = muteType then invert else i.get other := by
  cases muteType <;> cases other <;> rfl

end Inversions

end EndpointMonitor
