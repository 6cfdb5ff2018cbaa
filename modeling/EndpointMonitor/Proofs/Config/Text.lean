import EndpointMonitor.Config.Text
import EndpointMonitor.Proofs.Codec.Faithfulness
import EndpointMonitor.Proofs.Config.Statement

/-!
The text of a configuration. It is read as the configuration that it was written for.
-/

namespace EndpointMonitor.ClientConfig

open Toml

/-- The numbers of the configuration are in the range of TOML's integers. -/
structure Printable (c : ClientConfig) : Prop where
  timeout : (c.timeoutMs.toNat : Int) ≤ maxInteger
  delay : (c.reconnectDelayMs.toNat : Int) ≤ maxInteger
  limit : (c.codec.maxPayloadBytes.toNat : Int) ≤ maxInteger

/-- The lines of the text. -/
def document (c : ClientConfig) : List Char :=
  numberLine "timeout_ms" c.timeoutMs.toNat <|
  numberLine "reconnect_delay_ms" c.reconnectDelayMs.toNat <|
  '\n' :: (headerLine "converter" <|
  numberLine "version" c.converter.version.toNat <|
  '\n' :: (headerLine "codec" <|
  numberLine "max_payload_bytes" c.codec.maxPayloadBytes.toNat []))

/-- The entries of the document. -/
def entries (c : ClientConfig) : Entries :=
  [("timeout_ms", .integer (Int64.ofInt c.timeoutMs.toNat)),
    ("reconnect_delay_ms", .integer (Int64.ofInt c.reconnectDelayMs.toNat)),
    ("converter", .table .header [("version", .integer (Int64.ofInt c.converter.version.toNat))]),
    ("codec",
      .table .header [("max_payload_bytes", .integer (Int64.ofInt c.codec.maxPayloadBytes.toNat))])]

variable {c : ClientConfig}

theorem version_inRange (c : ClientConfig) : (c.converter.version.toNat : Int) ≤ maxInteger := by
  have small : c.converter.version.toNat < UInt32.size := c.converter.version.toNat_lt
  have most : (UInt32.size : Int) ≤ maxInteger := by decide
  omega

theorem Printable.text (h : c.Printable) :
    ∃ text, c.toToml? = some text ∧ text.toList = c.document := by
  simp only [toToml?, tomlNat?, if_pos h.timeout, if_pos h.delay, if_pos h.limit]
  refine ⟨_, rfl, ?_⟩
  simp only [String.toList_append, List.append_assoc]
  rfl

theorem Printable.statements (h : c.Printable) (fuel : Nat) :
    ∃ d, statements? (fuel + 8) .empty c.document = some d ∧ d.close = some c.entries := by
  have timeout := statement_number "timeout_ms" (bareKey_of_all (by decide) (by decide)) h.timeout
  have delay := statement_number "reconnect_delay_ms" (bareKey_of_all (by decide) (by decide))
    h.delay
  have converter := statement_header "converter" (bareKey_of_all (by decide) (by decide))
  have version := statement_number "version" (bareKey_of_all (by decide) (by decide))
    (version_inRange c)
  have codec := statement_header "codec" (bareKey_of_all (by decide) (by decide))
  have limit := statement_number "max_payload_bytes" (bareKey_of_all (by decide) (by decide))
    h.limit
  unfold document
  rw [statements_step ((timeout _ _).trans rfl) (by simp [numberLine]),
    statements_step ((delay _ _).trans rfl) (by simp [numberLine]),
    statements_step (statement_blank _ _) (by simp),
    statements_step ((converter _ _).trans rfl) (by simp [headerLine]),
    statements_step ((version _ _).trans rfl) (by simp [numberLine]),
    statements_step (statement_blank _ _) (by simp),
    statements_step ((codec _ _).trans rfl) (by simp [headerLine]),
    statements_step ((limit _ _).trans rfl) (by simp [numberLine]), statements_end]
  exact ⟨_, rfl, by rfl⟩

/-- The document is read as its entries. -/
theorem Printable.parse (h : c.Printable) {text : String} (lines : text.toList = c.document) :
    parse? text = some c.entries := by
  have long : 8 ≤ c.document.length := by
    simp only [document, numberLine, List.length_append, List.length_cons]
    omega
  obtain ⟨fuel, length⟩ := Nat.exists_eq_add_of_le' long
  obtain ⟨d, read, closed⟩ := h.statements fuel
  have marked : dropMark c.document = c.document := rfl
  rw [parse?, lines, marked, length, read]
  exact closed

/-! ### Entries as a configuration -/

theorem node_integer {n : Nat} (fits : (n : Int) ≤ maxInteger) :
    (Value.integer (Int64.ofInt n)).node = (Json.nat n).toNode := by
  have most : maxInteger = 9223372036854775807 := by decide
  have size : UInt64.size = 18446744073709551616 := rfl
  have exact_ : (Number.integer n).Exact := Wire.exact_nat (by omega)
  have kept : (Int64.ofInt n).toInt = n := Int64.toInt_ofInt_of_le (by omega) (by omega)
  rw [Value.node, kept, Json.nat, Json.toNode, exact_.reread]

theorem Printable.node (h : c.Printable) :
    (Value.table .header c.entries).node = (Wire.encode c).toNode := by
  have timeout := node_integer h.timeout
  have delay := node_integer h.delay
  have version := node_integer (version_inRange c)
  have limit := node_integer h.limit
  have written : (Value.table .header c.entries).node =
    .object [(some "timeout_ms", (Value.integer (Int64.ofInt c.timeoutMs.toNat)).node),
      (some "reconnect_delay_ms", (Value.integer (Int64.ofInt c.reconnectDelayMs.toNat)).node),
      (some "converter", .object
        [(some "version", (Value.integer (Int64.ofInt c.converter.version.toNat)).node)] true),
      (some "codec", .object [(some "max_payload_bytes",
        (Value.integer (Int64.ofInt c.codec.maxPayloadBytes.toNat)).node)] true)] true := rfl
  rw [written, timeout, delay, version, limit]
  rfl

/-- The text of a configuration is read as that configuration. -/
theorem Printable.ofToml (h : c.Printable) {text : String} (written : c.toToml? = some text) :
    ofToml? text = some c := by
  obtain ⟨other, same, lines⟩ := h.text
  obtain rfl := Option.some.inj (written.symm.trans same)
  have faithful := faithful_clientConfig c
  have decoded := faithful.decode .table (Nat.le_trans faithful.depth (by decide))
  rw [ofToml?, h.parse lines]
  show (Wire.decode .table (Value.table .header c.entries).node).toOption = some c
  rw [h.node, decoded]
  rfl

end EndpointMonitor.ClientConfig
