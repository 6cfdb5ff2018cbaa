import EndpointMonitor.Json.Basic

/-!
JSON numerals, read digit by digit.
-/

namespace EndpointMonitor.Json

/-- A numeral in the course of being read: `±significand · 10 ^ (scale ± exponent)`. Digits that
would take the significand past 64 bits are dropped; in front of the point each of them counts in
the scale. -/
structure Numeral where
  negative : Bool := false
  significand : Nat := 0
  scale : Int := 0
  dropping : Bool := false
  integral : Bool := true
  exponentNegative : Bool := false
  exponent : Nat := 0
  deriving DecidableEq, Repr

namespace Numeral

/-- Where in the grammar of numerals a reader stands. -/
inductive Phase where
  | sign
  | zero
  | whole
  | point
  | fraction
  | mark
  | markSign
  | exponent
  deriving DecidableEq, Repr

/-- Whether a numeral may end here. -/
def Phase.final : Phase → Bool
  | .zero | .whole | .fraction | .exponent => true
  | .sign | .point | .mark | .markSign => false

def wordMax : Nat := UInt64.size - 1

def pushWhole (x : Numeral) (d : Nat) : Numeral :=
  if !x.dropping && x.significand * 10 + d ≤ wordMax then
    { x with significand := x.significand * 10 + d }
  else { x with dropping := true, scale := x.scale + 1 }

/-- The first digit after the point gets a new chance to fit. -/
def openFraction (x : Numeral) : Numeral := { x with integral := false, dropping := false }

def pushFraction (x : Numeral) (d : Nat) : Numeral :=
  if !x.dropping && x.significand * 10 + d ≤ wordMax then
    { x with significand := x.significand * 10 + d, scale := x.scale - 1 }
  else { x with dropping := true }

def pushExponent (x : Numeral) (d : Nat) : Numeral := { x with exponent := x.exponent * 10 + d }

inductive Step where
  | next (phase : Phase) (x : Numeral)
  | ended
  | bad

def digit? (b : UInt8) : Option Nat :=
  if 0x30 ≤ b ∧ b ≤ 0x39 then some (b.toNat - 0x30) else none

/-- The continuations that all four final phases share. -/
def leave (phase : Phase) (x : Numeral) (b : UInt8) : Step :=
  if b = 0x2e ∧ (phase = .zero ∨ phase = .whole) then .next .point x.openFraction
  else if (b = 0x65 ∨ b = 0x45) ∧ phase ≠ .exponent then .next .mark { x with integral := false }
  else .ended

def step (phase : Phase) (x : Numeral) (b : UInt8) : Step :=
  match phase, digit? b with
  | .sign, some 0 => .next .zero x
  | .sign, some d => .next .whole (x.pushWhole d)
  | .zero, some _ => .bad
  | .whole, some d => .next .whole (x.pushWhole d)
  | .point, some d | .fraction, some d => .next .fraction (x.pushFraction d)
  | .mark, some d | .markSign, some d | .exponent, some d => .next .exponent (x.pushExponent d)
  | .mark, none =>
    if b = 0x2b then .next .markSign x
    else if b = 0x2d then .next .markSign { x with exponentNegative := true }
    else .bad
  | .sign, none | .point, none | .markSign, none => .bad
  | .zero, none => leave .zero x b
  | .whole, none => leave .whole x b
  | .fraction, none => leave .fraction x b
  | .exponent, none => leave .exponent x b

/-- The double that a numeral denotes, if it is finite. -/
def float? (x : Numeral) : Option Number :=
  let exponent := if x.exponentNegative then x.scale - x.exponent else x.scale + x.exponent
  (Binary64.scale? x.significand exponent).map fun units => .float ⟨x.negative, units⟩

/-- The number of a complete numeral: an integer of 64 bits, signed or unsigned, stays one. -/
def number? (x : Numeral) : Option Number :=
  if x.integral && !x.dropping then
    if !x.negative then some (.integer x.significand)
    else if 0 < x.significand ∧ Int64.minValue.toInt ≤ -x.significand then
      some (.integer (-x.significand))
    else x.float?
  else x.float?

end Numeral

end EndpointMonitor.Json
