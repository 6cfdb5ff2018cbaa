import EndpointMonitor.Json.Numeral
import EndpointMonitor.Text.Bytes

/-!
JSON tokens, read byte by byte.
-/

namespace EndpointMonitor.Json

/-- A part of a quoted text: a byte, or a code unit of UTF-16 given by its number. -/
inductive Piece where
  | byte (value : UInt8)
  | unit (value : Nat)
  deriving DecidableEq, Repr

def highSurrogate (n : Nat) : Bool := 0xd800 ≤ n && n < 0xdc00

def lowSurrogate (n : Nat) : Bool := 0xdc00 ≤ n && n < 0xe000

/-- The character beyond the basic plane that two surrogates stand for. -/
def pairedChar (high low : Nat) : Char :=
  Char.ofNat ((high - 0xd800) * 0x400 + (low - 0xdc00) + 0x10000)

/-- The bytes of a quoted text; surrogates have to come in pairs. -/
def Piece.bytes? : List Piece → Option Bytes
  | [] => some []
  | .byte b :: rest => (bytes? rest).map (b :: ·)
  | [.unit n] =>
    if highSurrogate n || lowSurrogate n then none else some (String.utf8EncodeChar (Char.ofNat n))
  | .unit n :: .byte b :: rest =>
    if highSurrogate n || lowSurrogate n then none
    else (bytes? (.byte b :: rest)).map (String.utf8EncodeChar (Char.ofNat n) ++ ·)
  | .unit n :: .unit m :: rest =>
    if highSurrogate n then
      if lowSurrogate m then (bytes? rest).map (String.utf8EncodeChar (pairedChar n m) ++ ·)
      else none
    else if lowSurrogate n then none
    else (bytes? (.unit m :: rest)).map (String.utf8EncodeChar (Char.ofNat n) ++ ·)

/-- The text of the pieces, if it is UTF-8. -/
def Piece.text? (pieces : List Piece) : Option String := (bytes? pieces).bind Bytes.text?

/-- A token. A quoted text that is no text and a numeral that is no number are still tokens: a
reader that skips them never finds out. -/
inductive Token where
  | openArray
  | closeArray
  | openObject
  | closeObject
  | comma
  | colon
  | null
  | bool (value : Bool)
  | number (value : Option Number)
  | string (value : Option String)
  | broken
  deriving DecidableEq, Repr

/-- What a lexer is in the middle of. Pieces are held in reverse. -/
inductive Lexer where
  | gap
  | word (next : UInt8) (rest : Bytes) (token : Token)
  | numeral (phase : Numeral.Phase) (x : Numeral)
  | quoted (pieces : List Piece)
  | escape (pieces : List Piece)
  | hex (pieces : List Piece) (code left : Nat)

namespace Lexer

/-- The first byte of a token, or a blank. -/
def start (b : UInt8) : Option (List Token × Lexer) :=
  match b with
  | 0x20 | 0x09 | 0x0a | 0x0d => some ([], .gap)
  | 0x5b => some ([.openArray], .gap)
  | 0x5d => some ([.closeArray], .gap)
  | 0x7b => some ([.openObject], .gap)
  | 0x7d => some ([.closeObject], .gap)
  | 0x2c => some ([.comma], .gap)
  | 0x3a => some ([.colon], .gap)
  | 0x22 => some ([], .quoted [])
  | 0x6e => some ([], .word 0x75 [0x6c, 0x6c] .null)
  | 0x74 => some ([], .word 0x72 [0x75, 0x65] (.bool true))
  | 0x66 => some ([], .word 0x61 [0x6c, 0x73, 0x65] (.bool false))
  | 0x2d => some ([], .numeral .sign { negative := true })
  | b =>
    match Numeral.step .sign {} b with
    | .next phase x => some ([], .numeral phase x)
    | _ => none

def escaped? (b : UInt8) : Option UInt8 :=
  match b with
  | 0x22 => some 0x22
  | 0x5c => some 0x5c
  | 0x2f => some 0x2f
  | 0x62 => some 0x08
  | 0x66 => some 0x0c
  | 0x6e => some 0x0a
  | 0x72 => some 0x0d
  | 0x74 => some 0x09
  | _ => none

def hexValue? (b : UInt8) : Option Nat :=
  if 0x30 ≤ b ∧ b ≤ 0x39 then some (b.toNat - 0x30)
  else if 0x61 ≤ b ∧ b ≤ 0x66 then some (b.toNat - 0x57)
  else if 0x41 ≤ b ∧ b ≤ 0x46 then some (b.toNat - 0x37)
  else none

/-- Takes one byte and gives the tokens that it completes; nothing if no text goes on like this. -/
def step (lexer : Lexer) (b : UInt8) : Option (List Token × Lexer) :=
  match lexer with
  | .gap => start b
  | .word next [] token => if b = next then some ([token], .gap) else none
  | .word next (c :: rest) token => if b = next then some ([], .word c rest token) else none
  | .numeral phase x =>
    match x.step phase b with
    | .next phase x => some ([], .numeral phase x)
    | .ended => (start b).map fun (tokens, next) => (.number x.number? :: tokens, next)
    | .bad => none
  | .quoted pieces =>
    if b = 0x22 then some ([.string (Piece.text? pieces.reverse)], .gap)
    else if b = 0x5c then some ([], .escape pieces)
    else if b < 0x20 then none
    else some ([], .quoted (.byte b :: pieces))
  | .escape pieces =>
    if b = 0x75 then some ([], .hex pieces 0 4)
    else (escaped? b).map fun c => ([], .quoted (.byte c :: pieces))
  | .hex pieces code left =>
    (hexValue? b).map fun d =>
      let code := code * 16 + d
      if left ≤ 1 then ([], .quoted (.unit code :: pieces)) else ([], .hex pieces code (left - 1))

/-- The tokens that the end of the text completes. -/
def finish : Lexer → List Token
  | .gap => []
  | .numeral phase x => if phase.final then [.number x.number?] else [.broken]
  | _ => [.broken]

end Lexer

end EndpointMonitor.Json
