import GridRobot.Text.Lines

/-!
# Byte offsets

An offset counts the bytes of the text in front of it. At the offset where one part of a text ends the other
part starts, the line feeds before it are those of the first part, and no other part of the text ends there
(`Text.append_inj_of_byteLength`). An offset may also lie inside a character or past the end. The line feeds
before it are then still the bytes before it that stand for one (`Text.breaksBefore_eq_count`), since no other
character has that byte in it.
-/

namespace GridRobot

namespace Text

@[simp] theorem byteLength_nil : byteLength [] = 0 := rfl

@[simp] theorem byteLength_append (t t' : Text) : byteLength (t ++ t') = t.byteLength + t'.byteLength := by
  rw [byteLength, String.ofList_append, String.utf8ByteSize_append]
  rfl

@[simp] theorem byteLength_cons (c : Char) (t : Text) : byteLength (c :: t) = c.utf8Size + t.byteLength := by
  have hsingle : byteLength [c] = c.utf8Size := String.utf8ByteSize_singleton
  rw [← List.singleton_append, byteLength_append, hsingle]

/-- The offset at which the rest of a text starts. -/
theorem byteLength_append_sub (t t' : Text) : byteLength (t ++ t') - t'.byteLength = t.byteLength := by
  rw [byteLength_append, Nat.add_sub_cancel]

/-- An offset behind a first character, in the form in which offsets are counted down. -/
theorem exists_byteLength_cons (c : Char) (t : Text) :
    ∃ n, byteLength (c :: t) = n + 1 ∧ c.utf8Size ≤ n + 1 ∧ n + 1 - c.utf8Size = byteLength t := by
  have hpos := c.utf8Size_pos
  have hsum := byteLength_cons c t
  exact ⟨byteLength (c :: t) - 1, by omega, by omega, by omega⟩

theorem fromOffset?_byteLength (t rest : Text) : fromOffset? t.byteLength (t ++ rest) = some rest := by
  induction t with
  | nil =>
      rw [byteLength_nil, fromOffset?]
      rfl
  | cons c t ih =>
      obtain ⟨n, hn, hle, hrest⟩ := exists_byteLength_cons c t
      rw [hn, List.cons_append, fromOffset?, if_pos hle, hrest, ih]

/-- The text from an offset on is what stands behind a part of the text that is as long as the offset. -/
theorem fromOffset?_eq_some_iff {t rest : Text} {offset : Nat} :
    fromOffset? offset t = some rest ↔ ∃ before, t = before ++ rest ∧ before.byteLength = offset := by
  constructor
  · intro h
    fun_induction fromOffset? offset t with
    | case1 t => exact ⟨[], Option.some.inj h, rfl⟩
    | case2 => cases h
    | case3 n c cs hle ih =>
        obtain ⟨before, rfl, hlength⟩ := ih h
        refine ⟨c :: before, rfl, ?_⟩
        rw [byteLength_cons, hlength]
        omega
    | case4 => cases h
  · rintro ⟨before, rfl, rfl⟩
    exact fromOffset?_byteLength before rest

theorem breaksBefore_byteLength (t rest : Text) : breaksBefore t.byteLength (t ++ rest) = t.breaks := by
  induction t with
  | nil =>
      rw [byteLength_nil, breaksBefore]
      rfl
  | cons c t ih =>
      obtain ⟨n, hn, -, hrest⟩ := exists_byteLength_cons c t
      rw [hn, List.cons_append, breaksBefore, hrest, ih, breaks, breaks, List.count_cons]
      simp only [beq_iff_eq, Nat.add_comm]

/-! ### Bytes -/

/-- The bytes of the UTF-8 form. -/
def bytes (t : Text) : List UInt8 := (String.ofList t).toUTF8.data.toList

theorem bytes_cons (c : Char) (t : Text) : bytes (c :: t) = String.utf8EncodeChar c ++ t.bytes := by
  have hbytes (t : Text) : t.bytes = t.flatMap String.utf8EncodeChar := by
    rw [bytes, String.toUTF8_eq_toByteArray, String.toByteArray_ofList, List.utf8Encode, List.data_toByteArray]
  rw [hbytes, hbytes, List.flatMap_cons]

theorem feed_ne_ofNat {n : Nat} (hlow : 128 ≤ n) (hhigh : n < 256) : 10 ≠ UInt8.ofNat n := by
  intro h
  have hn : 10 = n % 256 := congrArg UInt8.toNat h
  omega

/-- The bytes of a character that takes more than one are none of those that stand for themselves. -/
theorem feed_not_mem_utf8EncodeChar {c : Char} (h : 127 < c.toNat) : 10 ∉ String.utf8EncodeChar c := by
  have hone : ¬ c.val.toNat ≤ 127 := Nat.not_le.2 h
  rw [String.utf8EncodeChar, if_neg hone]
  repeat' split
  all_goals
    simp only [List.mem_cons, List.not_mem_nil, or_false, not_or]
    and_intros
    all_goals exact feed_ne_ofNat (by omega) (by omega)

/-- A line feed is one byte, and no other character has this byte in it. -/
theorem feed_not_mem_of_ne {c : Char} (hc : c ≠ '\n') : 10 ∉ String.utf8EncodeChar c := by
  by_cases hone : c.toNat ≤ 127
  · have hval : c.val.toNat ≤ 127 := hone
    rw [String.utf8EncodeChar, if_pos hval, List.mem_singleton]
    intro hbyte
    have hfeed : '\n'.toNat = c.toNat % 256 := congrArg UInt8.toNat hbyte
    rw [Nat.mod_eq_of_lt (by omega)] at hfeed
    exact hc (Char.toNat_inj.1 hfeed.symm)
  · exact feed_not_mem_utf8EncodeChar (Nat.not_le.1 hone)

/-- The line feeds before an offset are the bytes before it that stand for one. -/
theorem breaksBefore_eq_count (offset : Nat) (t : Text) :
    breaksBefore offset t = (t.bytes.take offset).count 10 := by
  induction t generalizing offset with
  | nil => cases offset <;> rfl
  | cons c t ih =>
      cases offset with
      | zero => rfl
      | succ n =>
          have hc : ((String.utf8EncodeChar c).take (n + 1)).count 10 = if c = '\n' then 1 else 0 := by
            split
            · next hfeed =>
                have hencoded : String.utf8EncodeChar '\n' = [10] := rfl
                rw [hfeed, hencoded, List.take_succ_cons, List.take_nil]
                rfl
            · next hne =>
                exact List.count_eq_zero.2 fun hmem => feed_not_mem_of_ne hne (List.mem_of_mem_take hmem)
          rw [breaksBefore, ih, bytes_cons, List.take_append, List.count_append, hc,
            String.length_utf8EncodeChar]

theorem breaksBefore_mono {offset offset' : Nat} (h : offset ≤ offset') (t : Text) :
    breaksBefore offset t ≤ breaksBefore offset' t := by
  rw [breaksBefore_eq_count, breaksBefore_eq_count]
  exact (List.take_prefix_take_left h).sublist.count_le 10

theorem breaksBefore_le_breaks (offset : Nat) (t : Text) : breaksBefore offset t ≤ t.breaks := by
  have hlength : t.bytes.length = t.byteLength := rfl
  have hwhole := breaksBefore_byteLength t []
  rw [List.append_nil, breaksBefore_eq_count, ← hlength, List.take_length] at hwhole
  rw [breaksBefore_eq_count, ← hwhole]
  exact (List.take_sublist offset t.bytes).count_le 10

end Text

end GridRobot
