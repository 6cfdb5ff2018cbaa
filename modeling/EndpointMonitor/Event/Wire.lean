import EndpointMonitor.Wire.Decoder

/-!
Event kinds and event sets as they travel: an id, and the ascending list of ids.
-/

namespace EndpointMonitor

open Wire

instance : Wire EventType where
  encode e := Wire.encode e.id
  decode source node := EventType.mk <$> Wire.decode source node

instance : Wire EventSet where
  encode s := Wire.encode s.toList
  decode source node := do
    let events ← Wire.decode source node
    match EventSet.ofList? events with
    | .ok s => pure s
    | .error e => throw (.eventOutOfRange e)

end EndpointMonitor
