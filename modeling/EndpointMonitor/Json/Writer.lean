import EndpointMonitor.Binary64.Shortest
import EndpointMonitor.Json.Basic
import EndpointMonitor.Text.Bytes

/-!
Compact JSON text. Only quotes, backslashes and control characters are escaped.
-/

namespace EndpointMonitor.Json

/-- One lower-case hexadecimal digit. -/
def hexDigit (n : Nat) : UInt8 := (if n < 10 then 0x30 + n else 0x57 + n).toUInt8

/-- The escape of a control character: a letter where JSON has one, four digits otherwise. -/
def writeControl (code : Nat) : Bytes :=
  match code with
  | 0x08 => [0x5c, 0x62]
  | 0x09 => [0x5c, 0x74]
  | 0x0a => [0x5c, 0x6e]
  | 0x0c => [0x5c, 0x66]
  | 0x0d => [0x5c, 0x72]
  | n => [0x5c, 0x75, 0x30, 0x30, hexDigit (n / 16), hexDigit (n % 16)]

def writeChar (c : Char) : Bytes :=
  if c = '"' then [0x5c, 0x22]
  else if c = '\\' then [0x5c, 0x5c]
  else if c.toNat < 0x20 then writeControl c.toNat
  else String.utf8EncodeChar c

def writeString (s : String) : Bytes := 0x22 :: (s.toList.flatMap writeChar ++ [0x22])

/-- The decimal digits of a natural number. -/
def writeNat (n : Nat) : Bytes := (Nat.toDigits 10 n).map fun c => c.toNat.toUInt8

def writeNumber : Number → Bytes
  | .integer (.ofNat n) => writeNat n
  | .integer (.negSucc n) => 0x2d :: writeNat (n + 1)
  | .float x => Bytes.ofText x.text

mutual

/-- The compact text of a value. -/
def write : Json → Bytes
  | .null => [0x6e, 0x75, 0x6c, 0x6c]
  | .bool true => [0x74, 0x72, 0x75, 0x65]
  | .bool false => [0x66, 0x61, 0x6c, 0x73, 0x65]
  | .number n => writeNumber n
  | .string s => writeString s
  | .array items => 0x5b :: (writeItems items ++ [0x5d])
  | .object members => 0x7b :: (writeMembers members ++ [0x7d])

def writeItems : List Json → Bytes
  | [] => []
  | [item] => write item
  | item :: next :: rest => write item ++ 0x2c :: writeItems (next :: rest)

def writeMembers : List (String × Json) → Bytes
  | [] => []
  | [(key, value)] => writeString key ++ 0x3a :: write value
  | (key, value) :: next :: rest =>
    writeString key ++ 0x3a :: (write value ++ 0x2c :: writeMembers (next :: rest))

end

end EndpointMonitor.Json
