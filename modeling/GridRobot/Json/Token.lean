import GridRobot.Decimal.Shortest
import GridRobot.Text.Word

/-!
# The pieces of JSON text

Spaces, string literals and numerals. A string is read into its characters, where surrogates have to
pair up; a string that is only passed over may hold any four hexadecimal digits.
-/

namespace GridRobot

namespace Json

def isSpace (c : Char) : Bool := c == ' ' || c == '\n' || c == '\t' || c == '\r'

def skipSpace (t : Text) : Text := t.dropWhile isSpace

def hexValue? (c : Char) : Option Nat :=
  if c.isDigit then some (c.toNat - '0'.toNat)
  else if 'a' ≤ c ∧ c ≤ 'f' then some (c.toNat - 'a'.toNat + 10)
  else if 'A' ≤ c ∧ c ≤ 'F' then some (c.toNat - 'A'.toNat + 10)
  else none

/-- Four hexadecimal digits. -/
def hexFour? : Text → Option (Nat × Text)
  | a :: b :: c :: d :: rest => do
      let n := 16 * (16 * (16 * (← hexValue? a) + (← hexValue? b)) + (← hexValue? c)) + (← hexValue? d)
      return (n, rest)
  | _ => none

def isHighSurrogate (n : Nat) : Bool := 0xD800 ≤ n && n ≤ 0xDBFF

def isLowSurrogate (n : Nat) : Bool := 0xDC00 ≤ n && n ≤ 0xDFFF

/-- The character of an escape with hexadecimal digits, whose `\u` has been read. -/
def hexEscape? (t : Text) : Option (Char × Text) := do
  let (high, t) ← hexFour? t
  if isLowSurrogate high then none
  else if isHighSurrogate high then
    let t ← Text.after? ['\\', 'u'] t
    let (low, t) ← hexFour? t
    if isLowSurrogate low then
      return (Char.ofNat (0x10000 + (high - 0xD800) * 0x400 + (low - 0xDC00)), t)
    else none
  else return (Char.ofNat high, t)

/-- The character that a letter behind a backslash stands for. -/
def simpleEscape? (c : Char) : Option Char :=
  if c = '"' ∨ c = '\\' ∨ c = '/' then some c
  else if c = 'b' then some '\x08'
  else if c = 'f' then some '\x0c'
  else if c = 'n' then some '\n'
  else if c = 'r' then some '\r'
  else if c = 't' then some '\t'
  else none

/-- The character of an escape whose backslash has been read. -/
def escaped? : Text → Option (Char × Text)
  | [] => none
  | c :: rest => if c = 'u' then hexEscape? rest else (simpleEscape? c).map (·, rest)

theorem length_hexFour? {t rest : Text} {n : Nat} (h : hexFour? t = some (n, rest)) :
    rest.length < t.length := by
  unfold hexFour? at h
  split at h
  · simp only [Option.bind_eq_bind, Option.bind_eq_some_iff, Option.pure_def, Option.some.injEq,
      Prod.mk.injEq] at h
    obtain ⟨_, _, _, _, _, _, _, _, _, rfl⟩ := h
    simp only [List.length_cons]
    omega
  · simp at h

theorem length_hexEscape? {t rest : Text} {c : Char} (h : hexEscape? t = some (c, rest)) :
    rest.length < t.length := by
  simp only [hexEscape?, Option.bind_eq_bind, Option.bind_eq_some_iff] at h
  obtain ⟨⟨high, t₁⟩, h₁, h⟩ := h
  have h₁ := length_hexFour? h₁
  simp only at h
  split at h
  · simp at h
  · split at h
    · simp only [Option.bind_eq_some_iff] at h
      obtain ⟨t₂, h₂, ⟨low, t₃⟩, h₃, h⟩ := h
      have h₂ := congrArg List.length (Text.eq_append_of_after? h₂)
      have h₃ := length_hexFour? h₃
      simp only [List.length_append, List.length_cons, List.length_nil] at h₂
      simp only at h
      split at h
      · simp only [Option.pure_def, Option.some.injEq, Prod.mk.injEq] at h
        obtain ⟨_, rfl⟩ := h
        omega
      · simp at h
    · simp only [Option.pure_def, Option.some.injEq, Prod.mk.injEq] at h
      obtain ⟨_, rfl⟩ := h
      exact h₁

theorem length_escaped? {t rest : Text} {c : Char} (h : escaped? t = some (c, rest)) :
    rest.length < t.length := by
  unfold escaped? at h
  split at h
  · simp at h
  · split at h
    · have := length_hexEscape? h
      simp only [List.length_cons]
      omega
    · simp only [Option.map_eq_some_iff, Prod.mk.injEq] at h
      obtain ⟨_, _, _, rfl⟩ := h
      simp

/-- A string whose opening quote has been read. Control characters have to be escaped. -/
def stringBody? : Text → Option (Text × Text)
  | [] => none
  | c :: rest =>
      if c = '"' then some ([], rest)
      else if c = '\\' then
        match _h : escaped? rest with
        | some (d, rest') => (stringBody? rest').map fun (s, t) => (d :: s, t)
        | none => none
      else if c.toNat < 0x20 then none
      else (stringBody? rest).map fun (s, t) => (c :: s, t)
termination_by t => t.length
decreasing_by
  · have := length_escaped? _h
    simp only [List.length_cons]
    omega
  · simp

/-- What follows a string that is not looked at, whose opening quote has been read. -/
def skipString? : Text → Option Text
  | [] => none
  | c :: rest =>
      if c = '"' then some rest
      else if c = '\\' then
        match rest with
        | [] => none
        | 'u' :: a :: b :: c :: d :: rest' =>
            if (hexFour? [a, b, c, d]).isSome then skipString? rest' else none
        | d :: rest' => if (simpleEscape? d).isSome then skipString? rest' else none
      else if c.toNat < 0x20 then none
      else skipString? rest

/-- A numeral taken apart; the sign in front has been read. -/
structure Numeral where
  whole : Text
  fraction : Option Text
  /-- Whether the exponent is negative, and its digits. -/
  exponent : Option (Bool × Text)
  deriving DecidableEq, Repr

/-- One digit or more. -/
def digits? (t : Text) : Option (Text × Text) :=
  let (digits, rest) := Text.spanDigits t
  if digits.isEmpty then none else some (digits, rest)

/-- The digits behind a point, if there is one. -/
def fraction? (t : Text) : Option (Option Text × Text) :=
  match t with
  | '.' :: rest => (digits? rest).map fun (ds, t) => (some ds, t)
  | _ => some (none, t)

/-- The exponent, if there is one. -/
def exponent? (t : Text) : Option (Option (Bool × Text) × Text) :=
  match t with
  | [] => some (none, t)
  | c :: rest =>
      if c = 'e' ∨ c = 'E' then
        match rest with
        | '-' :: rest => (digits? rest).map fun (ds, t) => (some (true, ds), t)
        | '+' :: rest => (digits? rest).map fun (ds, t) => (some (false, ds), t)
        | _ => (digits? rest).map fun (ds, t) => (some (false, ds), t)
      else some (none, t)

/-- A numeral. A zero at the front stands alone. -/
def numeral? (t : Text) : Option (Numeral × Text) := do
  let (whole, t) ← digits? t
  if whole.head? = some '0' ∧ whole.length ≠ 1 then none
  else
    let (fraction, t) ← fraction? t
    let (exponent, t) ← exponent? t
    return (⟨whole, fraction, exponent⟩, t)

/-- A number as it is told apart by its readers: whole numbers of up to 64 bits, and all others, which
are only ever shown. -/
inductive Number where
  | natural (value : Nat)
  | negative (magnitude : Nat)
  | real (shown : Text)
  deriving DecidableEq, Repr

/-- The greatest significand that is kept. -/
def maxSignificand : Nat := UInt64.size - 1

/-- The digits of the whole part that fit into a significand, and the number of those that do not. -/
def takeWhole : (significand : Nat) → Text → Nat × Nat
  | n, [] => (n, 0)
  | n, d :: ds =>
      let next := 10 * n + Text.digitValue d
      if maxSignificand < next then (n, ds.length + 1) else takeWhole next ds

/-- The digits of a fraction that still fit into a significand, and how many they are; from the first
that does not fit on they are dropped. -/
def takeFraction : (significand : Nat) → Text → Nat × Nat
  | n, [] => (n, 0)
  | n, d :: ds =>
      let next := 10 * n + Text.digitValue d
      if maxSignificand < next then (n, 0)
      else
        let (m, taken) := takeFraction next ds
        (m, taken + 1)

/-- The greatest exponent that is looked at. -/
def maxExponent : Nat := Nat.pow 2 31 - 1

/-- The value of a numeral that is not a whole number of 64 bits; none where it is too great. -/
def Numeral.binary? (n : Numeral) : Option Binary64 :=
  let (significand, dropped) := takeWhole 0 n.whole
  let (significand, taken) := takeFraction significand (n.fraction.getD [])
  let place : Int := (dropped : Int) - (taken : Int)
  match n.exponent with
  | none => Binary64.ofDecimal? significand place
  | some (isNegative, digits) =>
      let e := Text.numeralValue digits
      if maxExponent < e then
        if significand ≠ 0 ∧ !isNegative then none else some .zero
      else Binary64.ofDecimal? significand (if isNegative then place - e else place + e)

def Numeral.isWhole (n : Numeral) : Bool := n.fraction.isNone && n.exponent.isNone

/-- The number a numeral stands for. Zero with a minus sign is no whole number. -/
def Numeral.number? (n : Numeral) (isNegative : Bool) : Option Number :=
  let value := Text.numeralValue n.whole
  if n.isWhole && !isNegative && value ≤ maxSignificand then some (.natural value)
  else if n.isWhole && isNegative && value ≠ 0 && value ≤ Nat.pow 2 63 then some (.negative value)
  else n.binary?.map fun b => .real (if isNegative then '-' :: b.render else b.render)

/-- A number with its sign. -/
def number? (t : Text) : Option (Number × Text) :=
  match t with
  | '-' :: rest => (numeral? rest).bind fun (n, t) => (n.number? true).map (·, t)
  | _ => (numeral? t).bind fun (n, t) => (n.number? false).map (·, t)

end Json

end GridRobot
