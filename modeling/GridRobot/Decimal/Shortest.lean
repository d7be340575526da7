import GridRobot.Decimal.Binary64
import GridRobot.Text.Numeral

/-!
# Shortest decimal form

A binary number is written with the fewest decimal digits that are still nearer to it than to any other
binary number, and of those the ones nearest to it. Sixteen digits before the point and five places of
zeros behind it are written out; beyond them an exponent with its sign is used.
-/

namespace GridRobot

namespace Binary64

/-- The distance from a number to the end of the decimals that read as it, below and above, in quarters
of its last place. Below a power of two the numbers lie twice as close. -/
def reach (b : Binary64) : Nat × Nat :=
  if b.significand = Nat.pow 2 52 && minExponent < b.exponent then (1, 2) else (2, 2)

/-- Whether a fraction reads as a number: it lies within reach, the ends counting for an even
significand. -/
def isRead (b : Binary64) (num den : Nat) : Bool :=
  let (below, above) := b.reach
  let (unit, unitDen) := shift 1 4 b.exponent
  let low := (4 * b.significand - below) * unit * den
  let high := (4 * b.significand + above) * unit * den
  let value := num * unitDen
  if b.significand % 2 = 0 then low ≤ value && value ≤ high else low < value && value < high

/-- A whole number times a power of ten, as a fraction. -/
def scaleTen (n : Nat) (power : Int) : Nat × Nat :=
  if power < 0 then (n, Nat.pow 10 power.natAbs) else (n * Nat.pow 10 power.natAbs, 1)

/-- The whole part of the decimal logarithm of a positive fraction. -/
def logTen (num den : Nat) : Int :=
  let guess := (logTwo num den * 30103) / 100000
  let isBelow (power : Int) : Bool :=
    let (n, d) := scaleTen 1 power
    n * den ≤ num * d
  if isBelow (guess + 1) then guess + 1 else if isBelow guess then guess else guess - 1

/-- The nearest decimal of a given place that reads as a number, if there is one. -/
def decimalAt? (b : Binary64) (place : Int) : Option Nat :=
  let (num, den) := b.ratio
  let (unit, unitDen) := scaleTen 1 place
  let n := num * unitDen
  let d := den * unit
  let below := n / d
  let reads (k : Nat) : Bool :=
    let (kn, kd) := scaleTen k place
    b.isRead kn kd
  let nearest := roundDiv n d
  if reads nearest then some nearest
  else if reads below then some below
  else if reads (below + 1) then some (below + 1)
  else none

/-- The shortest decimal that reads as a number: its digits as a whole number, and their last place. -/
def shortest (b : Binary64) : Nat × Int :=
  let (num, den) := b.ratio
  let top := logTen num den
  let places := (List.range 17).map fun (digits : Nat) => top - digits
  match places.findSome? fun place => (b.decimalAt? place).map (·, place) with
  | some found => found
  | none => (num / den, 0)

/-- The digits without zeros at their end, and the place of the last one. -/
def dropZeros : (digits : Nat) → Nat → Int → Nat × Int
  | 0, n, place => (n, place)
  | digits + 1, n, place => if n % 10 = 0 ∧ n ≠ 0 then dropZeros digits (n / 10) (place + 1) else (n, place)

/-- Digits with their point after `whole` of them. -/
def withPoint (digits : Text) (whole : Nat) : Text :=
  digits.take whole ++ '.' :: (if digits.length ≤ whole then ['0'] else digits.drop whole)

/-- A whole number of units of a place, written out. -/
def renderDecimal (n : Nat) (place : Int) : Text :=
  let digits := Text.numeral n
  let top : Int := place + digits.length - 1
  if 0 ≤ top ∧ top ≤ 15 then
    withPoint (digits ++ List.replicate place.toNat '0') (top.toNat + 1)
  else if -5 ≤ top ∧ top < 0 then
    '0' :: '.' :: List.replicate (top.natAbs - 1) '0' ++ digits
  else
    let mantissa := if digits.length = 1 then digits else withPoint digits 1
    mantissa ++ (if top < 0 then ['e', '-'] else ['e', '+']) ++ Text.numeral top.natAbs

/-- The shortest decimal form, with at least one digit behind the point where a point is written. -/
def render (b : Binary64) : Text :=
  if b.significand = 0 then ['0', '.', '0']
  else
    let (n, place) := b.shortest
    let (n, place) := dropZeros 20 n place
    renderDecimal n place

end Binary64

end GridRobot
