import EndpointMonitor.Proofs.Codec.RoundTrip
import EndpointMonitor.Proofs.Event.NamedSets
import Mathlib.Data.Nat.Digits.Lemmas

/-!
The two ways a set of events travels: as a list of numbers, and as a payload. Both take the same
lists for the same sets, and both bring back every set.
-/

namespace EndpointMonitor

open Wire

namespace Codec

open EventSet (firstOutside? idsOf)

variable {events : List EventType} {s : EventSet}

/-! ### Lists of numbers -/

theorem message_outOfRange (e : EventType) : EventOutOfRange.message ⟨e⟩ =
    "event id " ++ toString e.id.toNat ++ " exceeds the maximum of 1023" := by
  have ending : " exceeds the maximum of " ++ toString EventSet.maxId =
      " exceeds the maximum of 1023" := by decide
  rw [EventOutOfRange.message, String.append_assoc, ending]

theorem decodeEvents_eq (events : List EventType) :
    decodeEvents events =
      match firstOutside? events with
      | some e => .error (.decodeFailure (EventOutOfRange.message ⟨e⟩))
      | none => .ok (EventSet.ofList events) := by
  rw [decodeEvents, EventSet.ofList?_eq_firstOutside]
  cases firstOutside? events <;> rfl

theorem firstOutside?_eq_none_iff :
    firstOutside? events = none ↔ ∀ e ∈ events, e.id.toNat ≤ 1023 := by
  simp only [firstOutside?, List.find?_eq_none, decide_eq_true_eq, Nat.not_lt]

theorem firstOutside?_eq_some_iff {e : EventType} :
    firstOutside? events = some e ↔ 1023 < e.id.toNat ∧
      ∃ before after, events = before ++ e :: after ∧ ∀ f ∈ before, f.id.toNat ≤ 1023 := by
  simp only [firstOutside?, List.find?_eq_some_iff_append, decide_eq_true_eq, Bool.not_eq_true',
    decide_eq_false_iff_not, Nat.not_lt]

/-- A list is refused for the first of its numbers that no set can hold. -/
theorem decodeEvents_eq_error {error : ClientError} :
    decodeEvents events = .error error ↔
      ∃ before e after, events = before ++ e :: after ∧ (∀ f ∈ before, f.id.toNat ≤ 1023) ∧
        1023 < e.id.toNat ∧ error = .decodeFailure
          ("event id " ++ toString e.id.toNat ++ " exceeds the maximum of 1023") := by
  rw [decodeEvents_eq]
  constructor
  · intro refused
    cases first : firstOutside? events with
    | none =>
      rw [first] at refused
      cases refused
    | some e =>
      rw [first] at refused
      obtain ⟨outside, before, after, split, inside⟩ := firstOutside?_eq_some_iff.1 first
      obtain rfl := Except.error.inj refused
      exact ⟨before, e, after, split, inside, outside, congrArg _ (message_outOfRange e)⟩
  · rintro ⟨before, e, after, split, inside, outside, rfl⟩
    rw [firstOutside?_eq_some_iff.2 ⟨outside, before, after, split, inside⟩]
    simp only [message_outOfRange]

/-- A list that is taken makes the set that lists its numbers once each, in ascending order. -/
theorem decodeEvents_eq_ok :
    decodeEvents events = .ok s ↔ (∀ e ∈ events, e.id.toNat ≤ 1023) ∧
      (encodeEvents s).map (·.id.toNat) = (idsOf events).sort (· ≤ ·) := by
  rw [decodeEvents_eq, encodeEvents, EventSet.toList_eq_sort, ← firstOutside?_eq_none_iff]
  cases first : firstOutside? events with
  | some e => simp only [reduceCtorEq, false_and]
  | none =>
    have members := EventSet.firstOutside?_eq_none first
    constructor
    · rintro ⟨⟩
      exact ⟨rfl, congrArg (·.sort (· ≤ ·)) members⟩
    · rintro ⟨-, sorted⟩
      have same : s.ids = idsOf events := by
        rw [← Finset.sort_toFinset s.ids (· ≤ ·), sorted, Finset.sort_toFinset]
      exact congrArg Except.ok (EventSet.eq_iff_ids.2 (members.trans same.symm))

theorem decodeEvents_encodeEvents (s : EventSet) : decodeEvents (encodeEvents s) = .ok s := by
  rw [decodeEvents, encodeEvents, EventSet.ofList_toList]

/-! ### Payloads -/

/-- As a payload, a set is the list of its numbers. -/
theorem encode_eventSet (codec : Codec) (s : EventSet) :
    codec.encode s = codec.encode (encodeEvents s) := rfl

/-- A payload of numbers is read as the set that the numbers make. -/
theorem decodeText_events (events : List EventType) :
    decodeText (α := EventSet) (Wire.encode events).write =
      match EventSet.ofList? events with
      | .ok s => .ok s
      | .error e => .error (.eventOutOfRange e) := by
  have faithful := faithful_events events
  have read := faithful.decode (.payload Document.maxDepth)
    (Nat.le_trans faithful.depth (by decide))
  simp only [decodeText, Json.read_write faithful.readable, EventSet.decode_eq, read]
  cases EventSet.ofList? events <;> rfl

theorem decode_events {codec : Codec} {payload : Bytes}
    (encoded : codec.encode events = .ok payload) :
    codec.decode payload = .ok s ↔ decodeEvents events = .ok s := by
  obtain ⟨rfl, fits⟩ := write_of_encode encoded
  simp only [decode, if_pos fits, decodeText_events, decodeEvents]
  cases EventSet.ofList? events <;> simp only [reduceCtorEq]

/-! ### The size of a payload -/

theorem length_writeNat_le {n : ℕ} (small : n ≤ 1023) : (Json.writeNat n).length ≤ 4 := by
  rw [Json.writeNat, List.length_map]
  exact Nat.toDigits_length 10 n 4 (by decide) (Nat.lt_of_le_of_lt small (by decide))

theorem length_writeItems_le (inside : ∀ e ∈ events, e.id.toNat ≤ 1023) :
    (Json.writeItems (events.map Wire.encode)).length ≤ 5 * events.length := by
  induction events with
  | nil => exact Nat.le_refl 0
  | cons e events ih =>
    have number : (Json.write (Wire.encode e)).length ≤ 4 := length_writeNat_le (inside e (by simp))
    have others := ih fun f listed => inside f (List.mem_cons_of_mem e listed)
    cases events with
    | nil =>
      simp only [List.map_cons, List.map_nil, Json.writeItems, List.length_cons, List.length_nil]
      omega
    | cons next events =>
      simp only [List.map_cons, Json.writeItems, List.length_append, List.length_cons] at others ⊢
      omega

theorem length_toList_le (s : EventSet) : s.toList.length ≤ 1024 := by
  have bounded : s.ids ⊆ Finset.range 1024 := fun i member =>
    Finset.mem_range.2 (Nat.lt_succ_of_le (EventSet.le_of_mem_ids member))
  calc s.toList.length
      = s.ids.card := by
        rw [← Finset.length_sort (· ≤ ·), ← EventSet.toList_eq_sort, List.length_map]
    _ ≤ (Finset.range 1024).card := Finset.card_le_card bounded
    _ = 1024 := Finset.card_range 1024

/-- Four digits and a comma for each of 1024 events, and the brackets. -/
theorem length_write_le (s : EventSet) : (Wire.encode s).write.length ≤ 5122 := by
  have items : (Json.writeItems (s.toList.map Wire.encode)).length ≤ 5 * s.toList.length :=
    length_writeItems_le fun e listed => EventSet.le_maxId_of_mem (EventSet.mem_toList.1 listed)
  have count := length_toList_le s
  show (Json.write (.array (s.toList.map Wire.encode))).length ≤ 5122
  simp only [Json.write, List.length_cons, List.length_append, List.length_nil]
  omega

/-! ### Both ways -/

/-- A list of numbers is taken if a set can hold them all, and is refused for the first that none
can hold. The set it makes lists the numbers once each, in ascending order. Every set comes back
from its numbers, and from the payload that is written of them. The payload of any list makes a set
if the list does, and the same one. -/
theorem numbers_and_payloads (codec : Codec) :
    (∀ events, (∃ s, decodeEvents events = .ok s) ↔ ∀ e ∈ events, e.id.toNat ≤ 1023) ∧
    (∀ events error, decodeEvents events = .error error ↔
      ∃ before e after, events = before ++ e :: after ∧ (∀ f ∈ before, f.id.toNat ≤ 1023) ∧
        1023 < e.id.toNat ∧ error = .decodeFailure
          ("event id " ++ toString e.id.toNat ++ " exceeds the maximum of 1023")) ∧
    (∀ events s, decodeEvents events = .ok s →
      ((encodeEvents s).map (·.id.toNat)).Pairwise (· < ·) ∧
        (encodeEvents s).map (·.id.toNat) =
          (events.map (·.id.toNat)).toFinset.sort (· ≤ ·)) ∧
    (∀ s, decodeEvents (encodeEvents s) = .ok s) ∧
    (∀ s, decodeText (Wire.encode s).write = .ok s ∧
      codec.encode s = codec.encode (encodeEvents s) ∧
      (5122 ≤ codec.limit → ∃ payload, codec.encode s = .ok payload) ∧
      ∀ payload, codec.encode s = .ok payload → codec.decode payload = .ok s) ∧
    ∀ events payload s, codec.encode (α := List EventType) events = .ok payload →
      (codec.decode payload = .ok s ↔ decodeEvents events = .ok s) := by
  refine ⟨fun events => ⟨?taken, ?takes⟩, fun events error => decodeEvents_eq_error,
    fun events s decoded => ⟨EventSet.pairwise_toList s, (decodeEvents_eq_ok.1 decoded).2⟩,
    decodeEvents_encodeEvents, fun s => ⟨?text, encode_eventSet codec s, ?fits, ?decodes⟩,
    fun events payload s => decode_events⟩
  case taken =>
    rintro ⟨s, decoded⟩
    exact (decodeEvents_eq_ok.1 decoded).1
  case takes =>
    intro inside
    rw [decodeEvents_eq, firstOutside?_eq_none_iff.2 inside]
    exact ⟨_, rfl⟩
  case text => exact decodeText_of_recovers (faithful_eventSet s) (by decide)
  case fits =>
    exact fun roomy => ⟨_, encode_of_fits (Nat.le_trans (length_write_le s) roomy)⟩
  case decodes => exact (roundTrips_of_faithful (faithful_eventSet s) (by decide) codec).decodes

/-- A list with a number twice makes a set that the default codec brings back. In another list the
first of two numbers out of range is the one that is refused. -/
theorem repeated_number_once :
    ∃ s payload, decodeEvents [⟨15⟩, ⟨9⟩, ⟨15⟩] = .ok s ∧ encodeEvents s = [⟨9⟩, ⟨15⟩] ∧
      encode .default s = .ok payload ∧ decode .default payload = .ok s ∧
      decodeEvents [⟨9⟩, ⟨2000⟩, ⟨1024⟩] =
        .error (.decodeFailure "event id 2000 exceeds the maximum of 1023") := by
  obtain ⟨taken, refused, -, -, sets, -⟩ := numbers_and_payloads CodecConfig.default
  obtain ⟨s, decoded⟩ := (taken [⟨15⟩, ⟨9⟩, ⟨15⟩]).2 (by decide)
  have listed : encodeEvents s = [⟨9⟩, ⟨15⟩] := by
    obtain rfl := Except.ok.inj decoded
    decide
  obtain ⟨-, -, encodes, decodes⟩ := sets s
  obtain ⟨payload, encoded⟩ := encodes (by decide)
  refine ⟨s, payload, decoded, listed, encoded, decodes payload encoded, (refused _ _).2 ?_⟩
  exact ⟨[⟨9⟩], ⟨2000⟩, [⟨1024⟩], rfl, by decide, by decide, by decide⟩

end Codec

end EndpointMonitor
