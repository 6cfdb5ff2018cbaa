import EndpointMonitor.Binary64

/-!
The shortest decimal text of a double: the fewest digits that read back as the same number, and of
those the nearest to it.
-/

namespace EndpointMonitor.Binary64

/-- The reals that round to a number lie between `low` and `high`, both in quarters of a unit; the
ends belong to them when `closed`. -/
structure Interval where
  low : Nat
  high : Nat
  closed : Bool

/-- Below a power of two the neighbours are half as far apart as above it. -/
def interval (units : Nat) : Interval :=
  let step := Nat.pow 2 (excess units)
  let below := if 1 < step ∧ units = Nat.pow 2 52 * step then step else 2 * step
  { low := 4 * units - below, high := 4 * units + 2 * step, closed := units / step % 2 = 0 }

/-- The number of decimal digits. -/
def digitCount (n : Nat) : Nat := (Nat.toDigits 10 n).length

/-- The exponent of the leading decimal digit of `units > 0`. -/
def leadingExponent (units : Nat) : Int :=
  (digitCount (units * Nat.pow 10 400 / one) : Int) - 401

/-- The points `d · 10 ^ k` of one decimal grid, as fractions of a quarter unit. -/
structure Grid where
  num : Nat
  den : Nat

def Grid.ofExponent (k : Int) : Grid :=
  if 0 ≤ k then ⟨Nat.pow 10 k.toNat * (4 * one), 1⟩ else ⟨4 * one, Nat.pow 10 (-k).toNat⟩

def Grid.within (g : Grid) (i : Interval) (d : Nat) : Bool :=
  let x := d * g.num
  if i.closed then i.low * g.den ≤ x ∧ x ≤ i.high * g.den
  else i.low * g.den < x ∧ x < i.high * g.den

/-- The point of the grid nearest to `units` that reads back as it, an even digit on a tie. -/
def Grid.pick (g : Grid) (units : Nat) : Option Nat :=
  let i := interval units
  let value := 4 * units * g.den
  let d := value / g.num
  match g.within i d, g.within i (d + 1) with
  | false, false => none
  | true, false => some d
  | false, true => some (d + 1)
  | true, true =>
    let below := value - d * g.num
    let above := (d + 1) * g.num - value
    if below < above ∨ (below = above ∧ d % 2 = 0) then some d else some (d + 1)

/-- The digits of a number and the exponent of the first of them. -/
structure Digits where
  digits : List Char
  exponent : Int

/-- Tries grids of increasing fineness, from `count` digits on. -/
def search (units : Nat) (top : Int) (count : Nat) : Nat → Digits
  | 0 => ⟨['0'], 0⟩
  | fuel + 1 =>
    let k := top - (count - 1 : Nat)
    match (Grid.ofExponent k).pick units with
    | some d =>
      let digits := Nat.toDigits 10 d
      ⟨(digits.reverse.dropWhile (· = '0')).reverse, k + ((digits.length - 1 : Nat) : Int)⟩
    | none => search units top (count + 1) fuel

/-- Seventeen digits are always enough. -/
def shortest (units : Nat) : Digits := search units (leadingExponent units) 1 17

def zeros (n : Nat) : List Char := List.replicate n '0'

/-- Positional from `1e-5` up to `1e16`, always with a point; outside of that one digit, a point if
more digits follow, and an exponent that always has its sign. -/
def Digits.text (x : Digits) : List Char :=
  let count : Int := x.digits.length
  if x.exponent < -5 ∨ 15 < x.exponent then
    let point := match x.digits.drop 1 with
      | [] => []
      | rest => '.' :: rest
    let sign := if x.exponent < 0 then '-' else '+'
    x.digits.take 1 ++ point ++ 'e' :: sign :: Nat.toDigits 10 x.exponent.natAbs
  else if x.exponent < 0 then
    '0' :: '.' :: zeros (-x.exponent - 1).toNat ++ x.digits
  else if count - 1 ≤ x.exponent then
    x.digits ++ zeros (x.exponent - (count - 1)).toNat ++ ['.', '0']
  else
    x.digits.take (x.exponent.toNat + 1) ++ '.' :: x.digits.drop (x.exponent.toNat + 1)

/-- The shortest text that reads back as the number. -/
def text (x : Binary64) : String :=
  let sign := if x.negative then ['-'] else []
  String.ofList (sign ++ if x.units = 0 then ['0', '.', '0'] else (shortest x.units).text)

end EndpointMonitor.Binary64
