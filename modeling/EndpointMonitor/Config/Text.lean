import EndpointMonitor.Config.Basic
import EndpointMonitor.Config.Toml.Document

/-!
The text of a configuration.
-/

namespace EndpointMonitor.ClientConfig

/-- A number as TOML holds it, if it is in range there. -/
def tomlNat? (n : UInt64) : Option String :=
  if (n.toNat : Int) ≤ Toml.maxInteger then some (toString n.toNat) else none

/-- The text that denotes the configuration: plain values first, then the tables. -/
def toToml? (c : ClientConfig) : Option String := do
  let timeout ← tomlNat? c.timeoutMs
  let delay ← tomlNat? c.reconnectDelayMs
  let limit ← tomlNat? c.codec.maxPayloadBytes
  pure ("timeout_ms = " ++ timeout ++ "\nreconnect_delay_ms = " ++ delay
    ++ "\n\n[converter]\nversion = " ++ toString c.converter.version.toNat
    ++ "\n\n[codec]\nmax_payload_bytes = " ++ limit ++ "\n")

/-- The configuration that a text denotes. -/
def ofToml? (text : String) : Option ClientConfig := do
  let entries ← Toml.parse? text
  (Wire.decode .table (Toml.Value.table .header entries).node).toOption

end EndpointMonitor.ClientConfig
