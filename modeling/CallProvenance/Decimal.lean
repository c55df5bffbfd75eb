/-! The shortest decimal that reads back as a given binary floating-point number. All
comparisons are made between natural numbers, so nothing is rounded on the way. -/
namespace CallProvenance

structure FloatLayout where
  fractionBits : Nat
  exponentBits : Nat
  deriving DecidableEq, Repr

namespace FloatLayout

def single : FloatLayout := ⟨23, 8⟩

def double : FloatLayout := ⟨52, 11⟩

def isNegative (layout : FloatLayout) (bits : Nat) : Bool :=
  bits.testBit (layout.fractionBits + layout.exponentBits)

def exponentField (layout : FloatLayout) (bits : Nat) : Nat :=
  bits / 1 <<< layout.fractionBits % 1 <<< layout.exponentBits

def fraction (layout : FloatLayout) (bits : Nat) : Nat := bits % 1 <<< layout.fractionBits

def isFinite (layout : FloatLayout) (bits : Nat) : Bool :=
  layout.exponentField bits ≠ 1 <<< layout.exponentBits - 1

/-- The integer significand; subnormal numbers lack the leading bit. -/
def significand (layout : FloatLayout) (bits : Nat) : Nat :=
  if layout.exponentField bits = 0 then layout.fraction bits
  else 1 <<< layout.fractionBits + layout.fraction bits

def scale (layout : FloatLayout) (bits : Nat) : Int :=
  let bias : Int := (1 <<< (layout.exponentBits - 1) : Nat) - 1
  (max 1 (layout.exponentField bits) : Nat) - bias - layout.fractionBits

/-- The next smaller number is only half as far away as the next larger one. -/
def isNarrowBelow (layout : FloatLayout) (bits : Nat) : Bool :=
  layout.fraction bits = 0 && layout.exponentField bits > 1

end FloatLayout

inductive TieRule where
  | even
  | away
  deriving DecidableEq, Repr

def TieRule.takesLower (rule : TieRule) (below : Nat) : Bool :=
  match rule with
  | .even => below % 2 = 0
  | .away => false

/-- `digits` without trailing zeros, with the decimal exponent of the first digit. -/
structure Decimal where
  digits : List Char
  exponent : Int
  deriving DecidableEq, Repr

namespace Decimal

/-- The reals that round to a number, in units of `1 / denominator`. The ends belong to the
interval when `closed`. -/
structure Interval where
  low : Nat
  value : Nat
  high : Nat
  denominator : Nat
  closed : Bool
  deriving DecidableEq, Repr

def Interval.ofBits (layout : FloatLayout) (bits : Nat) : Interval :=
  let m := layout.significand bits
  let quarter := layout.scale bits - 2
  let factor := 1 <<< quarter.toNat
  { low := (4 * m - if layout.isNarrowBelow bits then 1 else 2) * factor
    value := 4 * m * factor
    high := (4 * m + 2) * factor
    denominator := 1 <<< (-quarter).toNat
    closed := m % 2 = 0 }

def digitCount (n : Nat) : Nat := (Nat.toDigits 10 n).length

/-- The decimal exponent of the first digit of `value / denominator`. -/
def Interval.exponent (interval : Interval) : Int :=
  if interval.denominator ≤ interval.value then
    (digitCount (interval.value / interval.denominator) : Int) - 1
  else
    let inverse := (interval.denominator + interval.value - 1) / interval.value
    Int.negOfNat (digitCount (inverse - 1))

/-- The multiple `n` of ten to the power `unit` lies in the interval. -/
def Interval.contains (interval : Interval) (unit : Int) (n : Nat) : Bool :=
  let point := n * Nat.pow 10 unit.toNat * interval.denominator
  let grain := Nat.pow 10 (-unit).toNat
  if interval.closed then interval.low * grain ≤ point && point ≤ interval.high * grain
  else interval.low * grain < point && point < interval.high * grain

/-- The neighbour of the value on the grid of ten to the power `unit` that lies in the interval; the
nearer one if both do. -/
def Interval.onGrid (interval : Interval) (ties : TieRule) (unit : Int) : Option Nat :=
  let grain := Nat.pow 10 (-unit).toNat
  let step := Nat.pow 10 unit.toNat * interval.denominator
  let below := interval.value * grain / step
  let rest := interval.value * grain % step
  match interval.contains unit below, interval.contains unit (below + 1) with
  | true, true =>
    some (if 2 * rest < step || (2 * rest = step && ties.takesLower below) then below else below + 1)
  | true, false => some below
  | false, true => some (below + 1)
  | false, false => none

def dropTrailingZeros (digits : List Char) : List Char :=
  (digits.reverse.dropWhile (· = '0')).reverse

def ofGrid (unit : Int) (n : Nat) : Decimal :=
  let digits := Nat.toDigits 10 n
  ⟨dropTrailingZeros digits, unit + digits.length - 1⟩

/-- Tries grids from the coarsest; `places` digits are enough to tell all numbers apart. -/
def Interval.shortest (interval : Interval) (ties : TieRule) (places : Nat) : Option Decimal :=
  (List.range places).findSome? fun (k : Nat) =>
    let unit := interval.exponent - k
    (interval.onGrid ties unit).map (ofGrid unit)

/-- Seventeen digits tell all numbers of both formats apart. -/
def maxPlaces : Nat := 17

def ofBits (layout : FloatLayout) (ties : TieRule) (bits : Nat) : Option Decimal :=
  (Interval.ofBits layout bits).shortest ties maxPlaces

/-- A decimal is written without an exponent when `lowest ≤ exponent ≤ highest`. -/
structure Style where
  ties : TieRule
  lowest : Int
  highest : Int
  /-- Positive exponents are written with a sign. -/
  plus : Bool
  deriving DecidableEq, Repr

/-- Positional text always has a fraction; exponents are not padded. -/
def render (style : Style) (decimal : Decimal) : String :=
  let count : Int := decimal.digits.length
  let zeros (n : Int) := List.replicate n.toNat '0'
  if style.lowest ≤ decimal.exponent ∧ decimal.exponent ≤ style.highest then
    String.ofList <|
      if decimal.exponent < 0 then
        ['0', '.'] ++ zeros (-decimal.exponent - 1) ++ decimal.digits
      else if count ≤ decimal.exponent + 1 then
        decimal.digits ++ zeros (decimal.exponent + 1 - count) ++ ['.', '0']
      else
        let whole := (decimal.exponent + 1).toNat
        decimal.digits.take whole ++ '.' :: decimal.digits.drop whole
  else
    let fraction := decimal.digits.drop 1
    let mantissa := decimal.digits.take 1 ++ (if fraction.isEmpty then [] else '.' :: fraction)
    let sign := if decimal.exponent < 0 then "-" else if style.plus then "+" else ""
    s!"{String.ofList mantissa}e{sign}{decimal.exponent.natAbs}"

/-- The text of a finite number; `none` for an infinity or a value that is no number. -/
def text? (layout : FloatLayout) (style : Style) (bits : Nat) : Option String :=
  if layout.isFinite bits then
    let magnitude :=
      if layout.significand bits = 0 then "0.0"
      else ((ofBits layout style.ties bits).map (render style)).getD "0.0"
    some (if layout.isNegative bits then s!"-{magnitude}" else magnitude)
  else none

end Decimal
end CallProvenance
