/-!
# Binary floating point, exactly

Finite numbers of 64-bit binary floating point, without their sign, as a significand and an exponent of
two. Results are rounded from exact fractions: to the nearest number, ties to the even significand.
-/

namespace GridRobot

/-- The number `significand * 2 ^ exponent`, where the significand is below `2 ^ 53`. -/
structure Binary64 where
  significand : Nat
  exponent : Int
  deriving DecidableEq, Repr

namespace Binary64

def zero : Binary64 := ⟨0, 0⟩

/-- The exponent of the smallest numbers. -/
def minExponent : Int := -1074

/-- The exponent of the greatest numbers. -/
def maxExponent : Int := 971

/-- The quotient rounded to a whole number, a half going to the even neighbour. -/
def roundDiv (num den : Nat) : Nat :=
  let quotient := num / den
  let twice := 2 * (num % den)
  if twice < den then quotient
  else if den < twice then quotient + 1
  else quotient + quotient % 2

/-- A fraction times a power of two, as a fraction. -/
def shift (num den : Nat) (power : Int) : Nat × Nat :=
  if power < 0 then (num, den * Nat.pow 2 power.natAbs) else (num * Nat.pow 2 power.natAbs, den)

/-- The whole part of the binary logarithm of a positive fraction. -/
def logTwo (num den : Nat) : Int :=
  let guess : Int := (Nat.log2 num : Int) - (Nat.log2 den : Int)
  let scaled := shift num den (-guess)
  if scaled.1 < scaled.2 then guess - 1 else guess

/-- The number nearest to a fraction; none where it is too great for any. -/
def ofRatio? (num den : Nat) : Option Binary64 :=
  if num = 0 then some zero
  else
    let exponent := max minExponent (logTwo num den - 52)
    let scaled := shift num den (-exponent)
    let rounded := roundDiv scaled.1 scaled.2
    let result : Binary64 :=
      if rounded = Nat.pow 2 53 then ⟨Nat.pow 2 52, exponent + 1⟩ else ⟨rounded, exponent⟩
    if maxExponent < result.exponent then none
    else if result.significand = 0 then some zero else some result

def ofNat? (n : Nat) : Option Binary64 := ofRatio? n 1

/-- The number as a fraction. -/
def ratio (b : Binary64) : Nat × Nat := shift b.significand 1 b.exponent

def mul? (a b : Binary64) : Option Binary64 :=
  ofRatio? (a.ratio.1 * b.ratio.1) (a.ratio.2 * b.ratio.2)

def div? (a b : Binary64) : Option Binary64 :=
  ofRatio? (a.ratio.1 * b.ratio.2) (a.ratio.2 * b.ratio.1)

/-- The greatest power of ten that has a nearest number. -/
def maxPowerOfTen : Nat := 308

/-- A number over a power of ten. Where the power has no nearest number of its own, the division goes in
steps, each rounded. `stages` bounds their number: three of them bring every number down to zero. -/
def divPowerOfTen? : (stages : Nat) → Binary64 → (power : Nat) → Option Binary64
  | 0, _, _ => some zero
  | stages + 1, b, power =>
      if b.significand = 0 then some zero
      else if power ≤ maxPowerOfTen then (ofNat? (Nat.pow 10 power)).bind b.div?
      else do
        let q ← b.div? (← ofNat? (Nat.pow 10 maxPowerOfTen))
        divPowerOfTen? stages q (power - maxPowerOfTen)

/-- A decimal number, read as its significand rounded first and then scaled. This is not always the
number nearest to the decimal. None where the number is too great. -/
def ofDecimal? (significand : Nat) (exponent : Int) : Option Binary64 := do
  let b ← ofNat? significand
  if exponent < 0 then divPowerOfTen? 3 b exponent.natAbs
  else if exponent.natAbs ≤ maxPowerOfTen then b.mul? (← ofNat? (Nat.pow 10 exponent.natAbs))
  else if significand = 0 then some zero else none

end Binary64

end GridRobot
