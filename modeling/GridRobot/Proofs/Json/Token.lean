import GridRobot.Json.Token
import GridRobot.Json.Value
import GridRobot.Proofs.Text.Basic

/-!
# Strings and numerals read back

Whatever is written between quotes is read back character by character, escaped or not
(`stringBody?_quoted`). A numeral is read back as its number (`number?_numeral`) as long as nothing behind
it carries it on; it is written without a zero at its front, which a reader would refuse.
-/

namespace GridRobot

namespace Json

theorem skipSpace_of_head {t : Text} (h : ∀ c ∈ t.head?, isSpace c = false) : skipSpace t = t := by
  cases t with
  | nil => rfl
  | cons c t => exact List.dropWhile_cons_of_neg (by simp [h c rfl])

/-! ### Strings -/

theorem hexValue?_hexDigit : ∀ n < 16, hexValue? (hexDigit n) = some n := by decide

theorem hexEscape?_control {c : Char} (hc : c.toNat < 0x20) (rest : Text) :
    hexEscape? ('0' :: '0' :: hexDigit (c.toNat / 16) :: hexDigit (c.toNat % 16) :: rest) =
      some (c, rest) := by
  have hzero : hexValue? '0' = some 0 := by decide
  have hhigh := hexValue?_hexDigit (c.toNat / 16) (by omega)
  have hlow := hexValue?_hexDigit (c.toNat % 16) (by omega)
  have hfour : hexFour? ('0' :: '0' :: hexDigit (c.toNat / 16) :: hexDigit (c.toNat % 16) :: rest) =
      some (c.toNat, rest) := by
    simp [hexFour?, hzero, hhigh, hlow, Nat.div_add_mod]
  have hnotLow : isLowSurrogate c.toNat = false := by
    simp only [isLowSurrogate, Bool.and_eq_false_iff, decide_eq_false_iff_not]
    omega
  have hnotHigh : isHighSurrogate c.toNat = false := by
    simp only [isHighSurrogate, Bool.and_eq_false_iff, decide_eq_false_iff_not]
    omega
  simp [hexEscape?, hfour, hnotLow, hnotHigh, Char.ofNat_toNat]

/-- A backslash and what follows it stand for one character. -/
theorem stringBody?_backslash {c : Char} {t rest : Text} (h : escaped? t = some (c, rest)) :
    stringBody? ('\\' :: t) = (stringBody? rest).map fun (s, t) => (c :: s, t) := by
  rw [stringBody?]
  simp only [show ('\\' : Char) ≠ '"' by decide, if_false, if_true]
  split
  · next d rest' heq =>
      rw [h, Option.some.injEq, Prod.mk.injEq] at heq
      obtain ⟨rfl, rfl⟩ := heq
      rfl
  · next heq =>
      rw [h] at heq
      cases heq

theorem stringBody?_plain {c : Char} (hquote : c ≠ '"') (hbackslash : c ≠ '\\') (hcontrol : ¬ c.toNat < 0x20)
    (rest : Text) : stringBody? (c :: rest) = (stringBody? rest).map fun (s, t) => (c :: s, t) := by
  rw [stringBody?, if_neg hquote, if_neg hbackslash, if_neg hcontrol]

/-- The characters that are written as a letter behind a backslash. -/
def lettered : List Char := ['"', '\\', '\n', '\r', '\t', '\x08', '\x0c']

theorem escape_of_mem_lettered {c : Char} (h : c ∈ lettered) :
    ∃ d, escape c = ['\\', d] ∧ d ≠ 'u' ∧ simpleEscape? d = some c := by
  simp only [lettered, List.mem_cons, List.not_mem_nil, or_false] at h
  rcases h with rfl | rfl | rfl | rfl | rfl | rfl | rfl
  all_goals exact ⟨_, rfl, by decide, rfl⟩

theorem escape_of_not_mem_lettered {c : Char} (h : c ∉ lettered) : escape c =
    if c.toNat < 0x20 then ['\\', 'u', '0', '0', hexDigit (c.toNat / 16), hexDigit (c.toNat % 16)]
    else [c] := by
  simp only [lettered, List.mem_cons, List.not_mem_nil, or_false, not_or] at h
  simp only [escape, h, if_false]

theorem stringBody?_escape (c : Char) (rest : Text) :
    stringBody? (escape c ++ rest) = (stringBody? rest).map fun (s, t) => (c :: s, t) := by
  by_cases hc : c ∈ lettered
  · obtain ⟨d, hescape, hu, hd⟩ := escape_of_mem_lettered hc
    rw [hescape]
    apply stringBody?_backslash
    show escaped? (d :: rest) = some (c, rest)
    rw [escaped?, if_neg hu, hd, Option.map_some]
  · rw [escape_of_not_mem_lettered hc]
    split
    · next hcontrol => exact stringBody?_backslash (hexEscape?_control hcontrol rest)
    · next hcontrol =>
        have hquote : c ≠ '"' := fun h => hc (h ▸ by decide)
        have hbackslash : c ≠ '\\' := fun h => hc (h ▸ by decide)
        exact stringBody?_plain hquote hbackslash hcontrol rest

theorem stringBody?_quoted (s rest : Text) :
    stringBody? (s.flatMap escape ++ '"' :: rest) = some (s, rest) := by
  induction s with
  | nil => rw [List.flatMap_nil, List.nil_append, stringBody?, if_pos rfl]
  | cons c s ih => rw [List.flatMap_cons, List.append_assoc, stringBody?_escape, ih, Option.map_some]

/-! ### Numerals -/

/-- A text that does not carry on a numeral in front of it. -/
def EndsNumeral (rest : Text) : Prop :=
  ∀ c ∈ rest.head?, c.isDigit = false ∧ c ≠ '.' ∧ c ≠ 'e' ∧ c ≠ 'E'

theorem eq_zero_of_head?_numeral {n : Nat} (h : (Text.numeral n).head? = some '0') : n = 0 := by
  induction n using Nat.strongRecOn with
  | ind n ih =>
      rw [Text.numeral, Nat.toDigits_eq_if (by decide)] at h
      split at h
      · next hlt =>
          have hdigit : ∀ k < 10, Nat.digitChar k = '0' → k = 0 := by decide
          exact hdigit n hlt (by simpa using h)
      · next hle =>
          rw [List.head?_append, Option.or_of_isSome (by simp [Nat.toDigits_ne_nil])] at h
          have htenth := ih (n / 10) (by omega) h
          omega

theorem numeral?_numeral (n : Nat) {rest : Text} (hrest : EndsNumeral rest) :
    numeral? (Text.numeral n ++ rest) = some (⟨Text.numeral n, none, none⟩, rest) := by
  have hspan := Text.spanDigits_numeral_append n rest fun c hc => (hrest c hc).1
  have hwhole : ¬ ((Text.numeral n).head? = some '0' ∧ (Text.numeral n).length ≠ 1) := by
    rintro ⟨hhead, hlength⟩
    rw [eq_zero_of_head?_numeral hhead] at hlength
    exact hlength rfl
  have hfraction : fraction? rest = some (none, rest) := by
    unfold fraction?
    split
    · next more => exact absurd rfl (hrest '.' rfl).2.1
    · rfl
  have hexponent : exponent? rest = some (none, rest) := by
    unfold exponent?
    split
    · rfl
    · next c more =>
        obtain ⟨-, -, hsmall, hcapital⟩ := hrest c rfl
        exact if_neg (not_or.2 ⟨hsmall, hcapital⟩)
  simp [numeral?, digits?, hspan, Text.numeral_ne_nil, hwhole, hfraction, hexponent]

theorem number?_numeral {n : Nat} (hn : n ≤ maxSignificand) {rest : Text} (hrest : EndsNumeral rest) :
    number? (Text.numeral n ++ rest) = some (.natural n, rest) := by
  have hnumeral := numeral?_numeral n hrest
  obtain ⟨c, digits, hdigits⟩ := List.exists_cons_of_ne_nil (Text.numeral_ne_nil n)
  have hsign : c ≠ '-' := by
    rintro rfl
    have hminus : '-' ∈ Text.numeral n := hdigits ▸ List.mem_cons_self
    exact absurd (Text.isDigit_of_mem_numeral hminus) (by decide)
  unfold number?
  split
  · next more heq =>
      rw [hdigits, List.cons_append] at heq
      exact absurd (List.cons.inj heq).1 hsign
  · simp [hnumeral, Numeral.number?, Numeral.isWhole, Text.numeralValue_numeral, hn]

end Json

end GridRobot
