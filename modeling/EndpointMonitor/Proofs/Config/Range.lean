import EndpointMonitor.Proofs.Config.Text

/-!
The numbers of a configuration that was read. Whatever a document says, they are integers of TOML,
or the defaults.
-/

namespace EndpointMonitor

open Json (Node)

namespace Wire

variable {ρ α β : Type}

/-- Whatever is read for a record, field by field from nodes of one kind, has a property. -/
structure Record.Yields (record : Record ρ α) (source : Source) (Kind : Node → Prop)
    (P : α → Prop) : Prop where
  gather : ∀ (find : String → Option Node) (value : α),
    (∀ name node, find name = some node → Kind node) → record.gather source find = .ok value →
      P value
  take : ∀ (expected : String) (items left : Items) (value : α),
    (∀ node ∈ items.rest, Kind node) → record.take source expected items = .ok (value, left) →
      P value ∧ ∀ node ∈ left.rest, Kind node

/-- Whatever is read for a field has a property, and so has what stands in for it. -/
structure Field.Yields (f : Field ρ α) (source : Source) (Kind : Node → Prop) (P : α → Prop) :
    Prop where
  read : ∀ node value, Kind node → f.decode source node = .ok value → P value
  absent : ∀ value, f.absent = some value → P value

theorem Record.yields_of {source : Source} {Kind : Node → Prop} {P : α → Prop} {value : α}
    (h : P value) : (Record.of value : Record ρ α).Yields source Kind P where
  gather find other _ read := by
    obtain rfl := Except.ok.inj read
    exact h
  take expected items left other kinds read := by
    obtain ⟨rfl, rfl⟩ := Prod.mk.inj (Except.ok.inj read)
    exact ⟨h, kinds⟩

theorem Items.mem_of_next {items left : Items} {node : Node}
    (more : items.next = .ok (some (node, left))) : items.rest = node :: left.rest := by
  unfold Items.next at more
  split at more
  · next rest _ =>
    obtain ⟨rfl, rfl⟩ := Prod.mk.inj (Option.some.inj (Except.ok.inj more))
    assumption
  · split at more <;> cases more

/-- What stands in for a field that is missing. -/
theorem Field.Yields.filled {f : Field ρ α} {source : Source} {Kind : Node → Prop} {P : α → Prop}
    (h : f.Yields source Kind P) {make : α → β} {error : DecodeError} {value : β}
    (read : (match f.absent with
      | some value => pure (make value)
      | none => throw error : Result β) = .ok value) : ∃ a, P a ∧ value = make a := by
  cases missing : f.absent with
  | some a =>
    rw [missing] at read
    exact ⟨a, h.absent a missing, (Except.ok.inj read).symm⟩
  | none =>
    rw [missing] at read
    cases read

theorem Record.Yields.field {record : Record ρ (α → β)} {f : Field ρ α} {source : Source}
    {Kind : Node → Prop} {P : (α → β) → Prop} {Q : α → Prop} (h : record.Yields source Kind P)
    (hf : f.Yields source Kind Q) :
    (record.field f).Yields source Kind fun value =>
      ∃ build a, P build ∧ Q a ∧ value = build a where
  gather find value kinds read := by
    simp only [Record.field] at read
    obtain ⟨build, gathered, read⟩ := Result.bind_ok read
    have built := h.gather find build kinds gathered
    cases found : find f.name with
    | some node =>
      rw [found] at read
      obtain ⟨a, decoded, rfl⟩ := Result.map_ok read
      exact ⟨build, a, built, hf.read node a (kinds f.name node found) decoded, rfl⟩
    | none =>
      rw [found] at read
      obtain ⟨a, missing, rfl⟩ := hf.filled read
      exact ⟨build, a, built, missing, rfl⟩
  take expected items left value kinds read := by
    simp only [Record.field] at read
    obtain ⟨⟨build, between⟩, taken, read⟩ := Result.bind_ok read
    obtain ⟨built, kinds⟩ := h.take expected items between build kinds taken
    obtain ⟨more, next, read⟩ := Result.bind_ok read
    cases more with
    | some first =>
      obtain ⟨node, rest⟩ := first
      have members := Items.mem_of_next next
      rw [members] at kinds
      obtain ⟨a, decoded, read⟩ := Result.bind_ok read
      obtain ⟨rfl, rfl⟩ := Prod.mk.inj (Except.ok.inj read)
      have kind := kinds node List.mem_cons_self
      exact ⟨⟨build, a, built, hf.read node a kind decoded, rfl⟩,
        fun other inside => kinds other (List.mem_cons_of_mem _ inside)⟩
    | none =>
      obtain ⟨a, missing, same⟩ := hf.filled read
      obtain ⟨rfl, rfl⟩ := Prod.mk.inj same
      exact ⟨⟨build, a, built, missing, rfl⟩, kinds⟩

end Wire

/-! ### Nodes of a TOML document -/

namespace Toml

open Wire

/-- The node of some value. -/
def IsNode (node : Node) : Prop := ∃ v : Value, v.node = node

theorem isNode_member {entries : Entries} {member : Option String × Node}
    (inside : member ∈ Value.members entries) : IsNode member.2 := by
  induction entries with
  | nil => cases inside
  | cons entry entries ih =>
    rcases List.mem_cons.1 inside with rfl | later
    · exact ⟨entry.2, rfl⟩
    · exact ih later

theorem isNode_item {items : List Value} {node : Node} (inside : node ∈ Value.nodes items) :
    IsNode node := by
  induction items with
  | nil => cases inside
  | cons item items ih =>
    rcases List.mem_cons.1 inside with rfl | later
    · exact ⟨item, rfl⟩
    · exact ih later

theorem isNode_record {elements : List Entries} {node : Node}
    (inside : node ∈ Value.records elements) : IsNode node := by
  induction elements with
  | nil => cases inside
  | cons element elements ih =>
    rcases List.mem_cons.1 inside with rfl | later
    · exact ⟨.table .inlined element, rfl⟩
    · exact ih later

theorem isNode_lookup {name : String} {members : Members} {node : Node}
    (all : ∀ member ∈ members, IsNode member.2) (found : lookup name members = some node) :
    IsNode node := by
  obtain ⟨member, first, rfl⟩ := Option.map_eq_some_iff.1 found
  exact all member (List.mem_of_find?_eq_some first)

end Toml

namespace Wire

open Toml (IsNode Value)

variable {ρ α : Type} {record : Record ρ α} {P : α → Prop} {expected : String} {value : α}

theorem Record.Yields.members (h : record.Yields .table IsNode P) {members : Members}
    (all : ∀ member ∈ members, IsNode member.2)
    (read : record.decode expected .table (.object members true) = .ok value) : P value := by
  obtain ⟨source, entered, read⟩ := Result.bind_ok read
  obtain rfl := Except.ok.inj entered
  obtain ⟨_, _, read⟩ := Result.bind_ok read
  exact h.gather (lookup · members) value (fun _ _ => Toml.isNode_lookup all) read

theorem Record.Yields.items (h : record.Yields .table IsNode P) {items : List Node}
    (all : ∀ node ∈ items, IsNode node)
    (read : record.decode expected .table (.array items true) = .ok value) : P value := by
  obtain ⟨source, entered, read⟩ := Result.bind_ok read
  obtain rfl := Except.ok.inj entered
  obtain ⟨⟨taken, left⟩, took, read⟩ := Result.bind_ok read
  obtain ⟨_, _, read⟩ := Result.bind_ok read
  obtain rfl := Except.ok.inj read
  exact (h.take _ _ left taken all took).1

/-- Records are read from tables and from arrays. -/
theorem Record.Yields.decode (h : record.Yields .table IsNode P) {v : Value}
    (read : record.decode expected .table v.node = .ok value) : P value := by
  cases v with
  | string | integer | float | bool => cases read
  | date => exact h.members (fun _ inside => by cases inside) read
  | table origin entries => exact h.members (fun _ => Toml.isNode_member) read
  | array items => exact h.items (fun _ => Toml.isNode_item) read
  | tables elements => exact h.items (fun _ => Toml.isNode_record) read

/-- Integers of TOML have a sign, so that half of the numbers of 64 bits are out of their range. -/
theorem decodeNat_inRange {limit n : Nat} {v : Value}
    (read : decodeNat limit expected .table v.node = .ok n) : (n : Int) ≤ Toml.maxInteger := by
  cases v with
  | integer i =>
    have most : i.toInt ≤ Toml.maxInteger := i.toInt_le
    simp only [Value.node, decodeNat] at read
    split at read
    · next bounds =>
      obtain rfl := Except.ok.inj read
      omega
    · cases read
  | string | float | bool | date | table | array | tables => cases read

end Wire

/-! ### The numbers of a configuration -/

namespace ClientConfig

open Wire Toml

theorem inRange_ofNat {n : Nat} (inRange : (n : Int) ≤ maxInteger) :
    ((UInt64.ofNat n).toNat : Int) ≤ maxInteger := by
  have least := Nat.mod_le n (2 ^ 64)
  rw [UInt64.toNat_ofNat']
  omega

theorem yields_number {ρ : Type} {f : Field ρ UInt64} {expected : String}
    (decode : f.decode =
      fun source node => UInt64.ofNat <$> decodeNat UInt64.size expected source node)
    {default : UInt64} (absent : f.absent = some default)
    (inRange : (default.toNat : Int) ≤ maxInteger) :
    f.Yields .table IsNode fun n => (n.toNat : Int) ≤ maxInteger where
  read node value kind read := by
    obtain ⟨v, rfl⟩ := kind
    rw [decode] at read
    obtain ⟨n, decoded, rfl⟩ := Result.map_ok read
    exact inRange_ofNat (decodeNat_inRange decoded)
  absent value same := by
    obtain rfl := Option.some.inj (absent.symm.trans same)
    exact inRange

/-- Any field has the property that says nothing. -/
theorem yields_anything {ρ α : Type} (f : Field ρ α) :
    f.Yields .table IsNode fun _ => True := ⟨fun _ _ _ _ => trivial, fun _ _ => trivial⟩

/-- The limit of a codec that was read. -/
theorem codec_inRange {v : Value} {codec : CodecConfig}
    (read : Wire.decode .table v.node = .ok codec) :
    (codec.maxPayloadBytes.toNat : Int) ≤ maxInteger := by
  have built := (Record.yields_of (P := (· = CodecConfig.mk)) rfl).field
    (yields_number (f := {
      Field.withDefault "max_payload_bytes" CodecConfig.maxPayloadBytes
        CodecConfig.default.maxPayloadBytes with decode := CodecConfig.decodeSize })
      rfl rfl (by decide))
  obtain ⟨_, limit, rfl, inRange, rfl⟩ := built.decode read
  exact inRange

theorem codec_yields {ρ : Type} (name : String) (get : ρ → CodecConfig) :
    (Field.withDefault name get .default).Yields .table IsNode fun codec =>
      (codec.maxPayloadBytes.toNat : Int) ≤ maxInteger where
  read node codec kind read := by
    obtain ⟨v, rfl⟩ := kind
    exact codec_inRange read
  absent codec same := by
    obtain rfl := Option.some.inj same
    decide

/-- The numbers of a configuration that was read are in the range of TOML's integers, those that the
text leaves out with them. -/
theorem printable_of_ofToml {text : String} {c : ClientConfig} (read : ofToml? text = some c) :
    c.Printable := by
  obtain ⟨entries, -, decoded⟩ := Option.bind_eq_some_iff.1 read
  have built := ((((Record.yields_of (P := (· = ClientConfig.mk)) rfl).field
    (yields_number (f := .withDefault "timeout_ms" timeoutMs default.timeoutMs)
      rfl rfl (by decide))).field
    (yields_number (f := .withDefault "reconnect_delay_ms" reconnectDelayMs
      default.reconnectDelayMs) rfl rfl (by decide))).field
    (yields_anything (.withDefault "converter" converter .default))).field
    (codec_yields "codec" codec)
  have done : Wire.decode .table (Value.table .header entries).node = .ok c :=
    eq_ok_of_toOption decoded
  obtain ⟨_, codec, ⟨_, converter, ⟨_, delay, ⟨_, timeout, rfl, timeoutFits, rfl⟩, delayFits, rfl⟩,
    -, rfl⟩, limitFits, rfl⟩ := built.decode done
  exact ⟨timeoutFits, delayFits, limitFits⟩

end ClientConfig

end EndpointMonitor
