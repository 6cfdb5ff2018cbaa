import EndpointMonitor.Proofs.Wire.Recovery
import EndpointMonitor.Wire.Record

/-!
Records are recovered field by field: a field that was written is found under its name, and one
that was left out is filled in.
-/

namespace EndpointMonitor.Wire

open Json (Node)

variable {ρ α β : Type} {levels : Nat}

/-- What is read for a field of `r`, whether it was written or left out. -/
structure Field.Recovers (f : Field ρ α) (r : ρ) (value : α) (levels : Nat) : Prop where
  present : ∀ encoding, f.encode (f.get r) = some encoding →
    Wire.Recovers f.decode encoding value levels
  absent : f.encode (f.get r) = none → f.absent = some value

/-- What is read for a record that was written for `r`. -/
structure Record.Recovers (record : Record ρ α) (r : ρ) (value : α) (levels : Nat) : Prop where
  known : ∀ m ∈ record.write r, m.1 ∈ record.names
  distinct : (record.write r).Pairwise fun m n => m.1 ≠ n.1
  readable : Json.NumbersOfMembers Number.Readable (record.write r)
  depth : Json.depthOfMembers (record.write r) ≤ levels
  probe : ∀ m ∈ record.write r, ∀ source : Source, m.2.depth ≤ source.room →
    record.probe source m.1 m.2.toNode = .ok ()
  gather : ∀ (source : Source) (find : String → Option Node),
    (∀ m ∈ record.write r, m.2.depth ≤ source.room ∧ find m.1 = some m.2.toNode) →
    (∀ name ∈ record.names, (∀ m ∈ record.write r, m.1 ≠ name) → find name = none) →
    record.gather source find = .ok value

theorem Result.bind_ok {result : Result α} {f : α → Result β} {value : β}
    (h : result >>= f = .ok value) : ∃ a, result = .ok a ∧ f a = .ok value := by
  cases result with
  | ok a => exact ⟨a, rfl, h⟩
  | error e => cases h

theorem Result.map_ok {f : α → β} {result : Result α} {value : β}
    (h : f <$> result = .ok value) : ∃ a, result = .ok a ∧ value = f a := by
  cases result with
  | ok a => exact ⟨a, rfl, (Except.ok.inj h).symm⟩
  | error e => cases h

theorem eq_ok_of_toOption {ε α : Type} {x : Except ε α} {a : α} (h : x.toOption = some a) :
    x = .ok a := by
  cases x with
  | error e => cases h
  | ok b => exact congrArg Except.ok (Option.some.inj h)

/-! ### Fields -/

theorem Field.Recovers.required [Wire α] {name : String} {get : ρ → α} {r : ρ} {value : α}
    (h : Wire.Recovers Wire.decode (Wire.encode (get r)) value levels) :
    (Field.required name get).Recovers r value levels where
  present encoding written := by
    obtain rfl := Option.some.inj written
    exact h
  absent written := by cases written

theorem Field.Recovers.withDefault [Wire α] {name : String} {get : ρ → α} {default value : α}
    {r : ρ} (h : Wire.Recovers Wire.decode (Wire.encode (get r)) value levels) :
    (Field.withDefault name get default).Recovers r value levels where
  present encoding written := by
    obtain rfl := Option.some.inj written
    exact h
  absent written := by cases written

/-- What stands for a value is not null, which stands for none. -/
theorem Field.Recovers.optional [Wire α] {name : String} {get : ρ → Option α} {r : ρ}
    (h : ∀ value, get r = some value → Faithful value levels ∧ (Wire.encode value).toNode ≠ .null) :
    (Field.optional name get).Recovers r (get r) levels where
  present encoding written := by
    obtain ⟨value, there, rfl⟩ := Option.map_eq_some_iff.1 written
    replace there : get r = some value := there
    obtain ⟨faithful, notNull⟩ := h value there
    refine ⟨faithful.readable, faithful.depth, fun source room => ?_⟩
    have read := faithful.decode source room
    have some_ : Field.decodeOption (α := α) source (Wire.encode value).toNode =
        some <$> Wire.decode source (Wire.encode value).toNode := by
      unfold Field.decodeOption
      split
      · next null => exact absurd null notNull
      · rfl
    show Field.decodeOption (α := α) source (Wire.encode value).toNode = .ok (get r)
    rw [some_, read, there]
    rfl
  absent written := by
    have nothing : get r = none := Option.map_eq_none_iff.1 written
    exact congrArg some nothing.symm

/-! ### Records -/

theorem Record.recovers_of (value : α) (r : ρ) (levels : Nat) :
    (Record.of value : Record ρ α).Recovers r value levels where
  known _ h := by cases h
  distinct := .nil
  readable := trivial
  depth := Nat.zero_le _
  probe _ h := by cases h
  gather _ _ _ _ := rfl

theorem numbersOfMembers_append {P : Number → Prop} {ms ns : List (String × Json)}
    (h : Json.NumbersOfMembers P ms) (h' : Json.NumbersOfMembers P ns) :
    Json.NumbersOfMembers P (ms ++ ns) := by
  induction ms with
  | nil => exact h'
  | cons m ms ih => exact ⟨h.1, ih h.2⟩

theorem depthOfMembers_append {ms ns : List (String × Json)} (h : Json.depthOfMembers ms ≤ levels)
    (h' : Json.depthOfMembers ns ≤ levels) : Json.depthOfMembers (ms ++ ns) ≤ levels := by
  induction ms with
  | nil => exact h'
  | cons m ms ih =>
    have fit := Nat.max_le.1 h
    exact Nat.max_le.2 ⟨fit.1, ih fit.2⟩

/-- The members that are written for a field: one, or none where the field is left out. -/
inductive Field.Members (f : Field ρ α) (value : α) (levels : Nat) : List (String × Json) → Prop
  | absent (h : f.absent = some value) : Members f value levels []
  | present (encoding : Json) (h : Wire.Recovers f.decode encoding value levels) :
    Members f value levels [(f.name, encoding)]

section
variable {f : Field ρ α} {r : ρ} {value : α} {ms : List (String × Json)}

theorem Field.Recovers.members (h : f.Recovers r value levels) :
    f.Members value levels ((f.encode (f.get r)).map fun value => (f.name, value)).toList := by
  cases written : f.encode (f.get r) with
  | none => exact .absent (h.absent written)
  | some encoding => exact .present encoding (h.present encoding written)

namespace Field.Members

theorem recovers (h : f.Members value levels ms) :
    ∀ m ∈ ms, m.1 = f.name ∧ Wire.Recovers f.decode m.2 value levels := by
  intro m hm
  cases h with
  | absent => cases hm
  | present encoding read =>
    obtain rfl := List.mem_singleton.1 hm
    exact ⟨rfl, read⟩

theorem distinct (h : f.Members value levels ms) : ms.Pairwise fun m n => m.1 ≠ n.1 := by
  cases h with
  | absent => exact .nil
  | present encoding => exact List.pairwise_singleton _ _

theorem readable (h : f.Members value levels ms) :
    Json.NumbersOfMembers Number.Readable ms := by
  cases h with
  | absent => trivial
  | present encoding read => exact ⟨read.readable, trivial⟩

theorem depth (h : f.Members value levels ms) : Json.depthOfMembers ms ≤ levels := by
  cases h with
  | absent => exact Nat.zero_le _
  | present encoding read => exact Nat.max_le.2 ⟨read.depth, Nat.zero_le _⟩

end Field.Members

/-- A further field, which no earlier one is named like. -/
theorem Record.Recovers.field {record : Record ρ (α → β)} {build : α → β}
    (h : record.Recovers r build levels) (hf : f.Recovers r value levels)
    (new : f.name ∉ record.names) : (record.field f).Recovers r (build value) levels := by
  obtain ⟨ms, write, written⟩ : ∃ ms, (record.field f).write r = record.write r ++ ms ∧
    f.Members value levels ms := ⟨_, rfl, hf.members⟩
  have apart : ∀ m ∈ record.write r, m.1 ≠ f.name := fun m hm same => new (same ▸ h.known m hm)
  constructor <;> rw [write]
  case known =>
    intro m hm
    rcases List.mem_append.1 hm with hm | hm
    · exact List.mem_append_left _ (h.known m hm)
    · exact List.mem_append_right _ (List.mem_singleton.2 (written.recovers m hm).1)
  case distinct =>
    refine List.pairwise_append.2 ⟨h.distinct, written.distinct, fun m hm n hn => ?_⟩
    exact (written.recovers n hn).1 ▸ apart m hm
  case readable => exact numbersOfMembers_append h.readable written.readable
  case depth => exact depthOfMembers_append h.depth written.depth
  case probe =>
    intro m hm source room
    rcases List.mem_append.1 hm with hm | hm
    · simp only [Record.field, if_neg (apart m hm)]
      exact h.probe m hm source room
    · obtain ⟨same, read⟩ := written.recovers m hm
      simp only [Record.field, if_pos same, read.decode source room]
      rfl
  case gather =>
    intro source find found others
    have built : record.gather source find = .ok build := by
      refine h.gather source find (fun m hm => found m (List.mem_append_left _ hm)) ?_
      intro name hname missing
      refine others name (List.mem_append_left _ hname) fun m hm => ?_
      rcases List.mem_append.1 hm with hm | hm
      · exact missing m hm
      · rintro rfl
        exact new ((written.recovers m hm).1 ▸ hname)
    cases written with
    | absent left =>
      have missing : find f.name = none := by
        refine others f.name (List.mem_append_right _ (List.mem_singleton.2 rfl)) ?_
        rwa [List.append_nil]
      simp only [Record.field, built, missing, left]
      rfl
    | present encoding read =>
      obtain ⟨room, there⟩ := found (f.name, encoding) (List.mem_append_right _ (.head _))
      simp only [Record.field, built, there, read.decode source room]
      rfl

end

/-! ### Decoding -/

theorem lookup_toMembers {ms : List (String × Json)} (distinct : ms.Pairwise fun m n => m.1 ≠ n.1) :
    ∀ m ∈ ms, lookup m.1 (Json.toMembers ms) = some m.2.toNode := by
  induction ms with
  | nil => nofun
  | cons n ms ih =>
    intro m hm
    obtain ⟨apart, others⟩ := List.pairwise_cons.1 distinct
    rcases List.mem_cons.1 hm with rfl | hm
    · simp [lookup, Json.toMembers]
    · have other : n.1 ≠ m.1 := apart m hm
      have found := ih others m hm
      simp only [lookup] at found ⊢
      rw [Json.toMembers, List.find?_cons_of_neg (by simpa using other)]
      exact found

theorem lookup_toMembers_none {ms : List (String × Json)} {name : String}
    (missing : ∀ m ∈ ms, m.1 ≠ name) : lookup name (Json.toMembers ms) = none := by
  induction ms with
  | nil => rfl
  | cons n ms ih =>
    have other : n.1 ≠ name := missing n List.mem_cons_self
    have nothing := ih fun m hm => missing m (List.mem_cons_of_mem n hm)
    simp only [lookup] at nothing ⊢
    rw [Json.toMembers, List.find?_cons_of_neg (by simpa using other)]
    exact nothing

theorem depth_of_mem {ms : List (String × Json)} {m : String × Json} (h : m ∈ ms) :
    m.2.depth ≤ Json.depthOfMembers ms := by
  induction ms with
  | nil => cases h
  | cons n ms ih =>
    rw [Json.depthOfMembers]
    rcases List.mem_cons.1 h with rfl | h
    · exact Nat.le_max_left _ _
    · exact Nat.le_trans (ih h) (Nat.le_max_right _ _)

variable {record : Record ρ α} {r : ρ} {value : α}

theorem Record.Recovers.scan (h : record.Recovers r value levels) {source : Source}
    (room : Json.depthOfMembers (record.write r) ≤ source.room) :
    ∀ (ms : List (String × Json)) (seen : List String), (∀ m ∈ ms, m ∈ record.write r) →
      (ms.Pairwise fun m n => m.1 ≠ n.1) → (∀ m ∈ ms, m.1 ∉ seen) →
      record.scan source seen (Json.toMembers ms) = .ok () := by
  intro ms
  induction ms with
  | nil => exact fun _ _ _ _ => rfl
  | cons m ms ih =>
    intro seen among distinct fresh
    obtain ⟨apart, others⟩ := List.pairwise_cons.1 distinct
    have known : m.1 ∈ record.names := h.known m (among m List.mem_cons_self)
    have unseen : m.1 ∉ seen := fresh m List.mem_cons_self
    have fits := Nat.le_trans (depth_of_mem (among m List.mem_cons_self)) room
    have probed := h.probe m (among m List.mem_cons_self) source fits
    have rest := ih (m.1 :: seen) (fun n hn => among n (List.mem_cons_of_mem m hn)) others (by
      intro n hn again
      rcases List.mem_cons.1 again with same | again
      · exact apart n hn same.symm
      · exact fresh n (List.mem_cons_of_mem m hn) again)
    rw [Json.toMembers, Record.scan, if_pos known, if_neg unseen, probed]
    exact rest

theorem Record.Recovers.decodeMembers (h : record.Recovers r value levels) {source : Source}
    (room : Json.depthOfMembers (record.write r) ≤ source.room) :
    record.decodeMembers source (Json.toMembers (record.write r)) true = .ok value := by
  have scanned := h.scan room (record.write r) [] (fun _ hm => hm) h.distinct (by simp)
  have gathered := h.gather source (lookup · (Json.toMembers (record.write r)))
    (fun m hm => ⟨Nat.le_trans (depth_of_mem hm) room, lookup_toMembers h.distinct m hm⟩)
    (fun name _ missing => lookup_toMembers_none missing)
  rw [Record.decodeMembers, scanned]
  exact gathered

/-- A record is recovered from the object that was written for it. -/
theorem Record.Recovers.decode (h : record.Recovers r value levels) (expected : String) :
    Wire.Recovers (record.decode expected) (record.encode r) value (levels + 1) where
  readable := h.readable
  depth := Nat.succ_le_succ h.depth
  decode source room := by
    obtain ⟨inner, enters, fits⟩ := Source.enter_of_room room
    simp only [Record.encode, Json.toNode, Record.decode, enters]
    exact h.decodeMembers fits

/-- No record is read from an object in which the last field cannot be read. -/
theorem Record.exists_of_decodeMembers {record : Record ρ (α → β)} {f : Field ρ α}
    {source : Source} {members : Members} {closed : Bool} {value : β}
    (h : (record.field f).decodeMembers source members closed = .ok value) {node : Node}
    (there : lookup f.name members = some node) : ∃ a, f.decode source node = .ok a := by
  unfold Record.decodeMembers at h
  obtain ⟨⟨⟩, -, h⟩ := Result.bind_ok h
  split at h
  · simp only [Record.field, there] at h
    obtain ⟨build, -, h⟩ := Result.bind_ok h
    cases read : f.decode source node with
    | ok a => exact ⟨a, rfl⟩
    | error e =>
      rw [read] at h
      cases h
  · cases h

end EndpointMonitor.Wire
