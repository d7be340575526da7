import GridRobot.Text.Word

/-!
# Decimal numerals

Numerals are runs of ASCII digits. Coordinates and counts are 32-bit words: a longer value is no
number at all, except where a reader says otherwise.
-/

namespace GridRobot

namespace Text

def digitValue (c : Char) : Nat := c.toNat - '0'.toNat

/-- The number a run of digits stands for. -/
def numeralValue (digits : Text) : Nat :=
  digits.foldl (fun n c => 10 * n + digitValue c) 0

/-- The longest run of digits at the front, and what follows it. -/
def spanDigits (t : Text) : Text × Text := (t.takeWhile Char.isDigit, t.dropWhile Char.isDigit)

/-- The 32-bit word a run of digits stands for; none for an empty run or a value that does not fit. -/
def word32? (digits : Text) : Option UInt32 :=
  let n := numeralValue digits
  if digits.isEmpty then none else if n < UInt32.size then some (UInt32.ofNat n) else none

def numeral (n : Nat) : Text := Nat.toDigits 10 n

end Text

/-- The decimal numeral of a number. -/
def showNat (n : Nat) : String := String.ofList (Text.numeral n)

def showWord (n : UInt32) : String := showNat n.toNat

end GridRobot
