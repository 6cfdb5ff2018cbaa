/-!
Finite binary64 numbers as exact integers, with the three rounded operations that reading a decimal
numeral takes: conversion, multiplication and division.
-/

namespace EndpointMonitor

/-- A finite binary64 number, `±units · 2⁻¹⁰⁷⁴`: every finite double is an integer multiple of the
least subnormal one. -/
structure Binary64 where
  negative : Bool
  units : Nat
  deriving DecidableEq, Repr

namespace Binary64

/-- The number of bits of `n` beyond the 53 that a significand holds. -/
def excess (n : Nat) : Nat := n.log2 + 1 - 53

/-- `num / den` rounded to an integer, a half to the even one. -/
def roundDiv (num den : Nat) : Nat :=
  let q := num / den
  let r := num % den
  if den < 2 * r ∨ (2 * r = den ∧ q % 2 = 1) then q + 1 else q

/-- The count of units of the double nearest to `num / den` units, a tie to the even significand.
The range of exponents is not bounded here. -/
def nearest (num den : Nat) : Nat :=
  let step := Nat.pow 2 (excess (num / den))
  roundDiv num (den * step) * step

/-- The number of units in one. -/
def one : Nat := Nat.pow 2 1074

/-- The least count of units that is too large for a finite double. -/
def overflow : Nat := Nat.pow 2 2098

/-- The double nearest to a natural number. -/
def ofNat (n : Nat) : Nat := nearest (n * one) 1

def mul (a b : Nat) : Nat := nearest (a * b) one

def div (a b : Nat) : Nat := nearest (a * one) b

/-- The double nearest to `10 ^ k`. -/
def pow10 (k : Nat) : Nat := ofNat (Nat.pow 10 k)

/-- Divides by `10 ^ k` in steps of at most `10 ^ 308`, each of them rounded. No significand below
`2 ^ 64` survives more than two such steps. -/
def divPow10 (a k : Nat) : Nat :=
  if k ≤ 308 then div a (pow10 k)
  else if k ≤ 616 then div (div a (pow10 308)) (pow10 (k - 308))
  else 0

/-- Multiplies by `10 ^ k`, unless the product is no finite double. -/
def mulPow10 (a k : Nat) : Option Nat :=
  if a = 0 then some 0
  else if 308 < k then none
  else
    let product := mul a (pow10 k)
    if product < overflow then some product else none

/-- The units of `significand · 10 ^ exponent`, or nothing if it is too large. The significand and
the power are rounded before they are combined. -/
def scale? (significand : Nat) (exponent : Int) : Option Nat :=
  if 0 ≤ exponent then mulPow10 (ofNat significand) exponent.toNat
  else some (divPow10 (ofNat significand) (-exponent).toNat)

end Binary64

end EndpointMonitor
