import EndpointMonitor.ClientError
import EndpointMonitor.Json.Writer
import EndpointMonitor.Wire.Record

/-!
The codec: JSON payloads of limited size.
-/

namespace EndpointMonitor

open Wire

/-- Limits that a codec applies in both directions. -/
structure CodecConfig where
  maxPayloadBytes : UInt64
  deriving DecidableEq

namespace CodecConfig

def default : CodecConfig := ⟨4194304⟩

instance : Inhabited CodecConfig := ⟨default⟩

/-- The limit is the size of something in memory. -/
def decodeSize : Decoder UInt64 := fun source node =>
  UInt64.ofNat <$> decodeNat UInt64.size "usize" source node

def record : Record CodecConfig CodecConfig :=
  (Record.of CodecConfig.mk)
    |>.field {
      Field.withDefault "max_payload_bytes" (·.maxPayloadBytes) default.maxPayloadBytes with
      decode := decodeSize }

instance : Wire CodecConfig where
  encode := record.encode
  decode := record.decode "struct CodecConfig"

end CodecConfig

/-- A codec is its limits. -/
abbrev Codec := CodecConfig

namespace Codec

def limit (codec : Codec) : Nat := codec.maxPayloadBytes.toNat

def oversized (codec : Codec) (payload : Bytes) : String :=
  "payload of " ++ toString payload.length ++ " bytes exceeds limit of " ++ toString codec.limit

/-- The payload of a value, unless it is too large. -/
def encode {α : Type} [Wire α] (codec : Codec) (value : α) : Except ClientError Bytes :=
  let payload := (Wire.encode value).write
  if payload.length ≤ codec.limit then .ok payload
  else .error (.encodeFailure (codec.oversized payload))

/-- The value of a text that holds nothing else. -/
def decodeText {α : Type} [Wire α] (text : Bytes) : Wire.Result α := do
  let reading := Json.read text
  let value ← Wire.decode (.payload Document.maxDepth) reading.root
  if reading.clean then pure value else throw .malformed

/-- The value of a payload; an oversized one is not looked at. -/
def decode {α : Type} [Wire α] (codec : Codec) (payload : Bytes) : Except ClientError α :=
  if payload.length ≤ codec.limit then
    match decodeText payload with
    | .ok value => .ok value
    | .error e => .error (.decodeFailure e.message)
  else .error (.decodeFailure (codec.oversized payload))

/-- The ids of a set as a list of numbers. -/
def encodeEvents (s : EventSet) : List EventType := s.toList

/-- The set of a list of numbers. -/
def decodeEvents (events : List EventType) : Except ClientError EventSet :=
  match EventSet.ofList? events with
  | .ok s => .ok s
  | .error e => .error (.decodeFailure e.message)

end Codec

end EndpointMonitor
