import GridRobot.Json.Record
import GridRobot.Json.Value
import GridRobot.Proofs.Except
import GridRobot.Proofs.Json.Token

/-!
# Values read back

`Reads reader j a` says that a reader gets `a` out of the text that `j` is written as, whatever follows in a
document, and leaves what follows. Readers of lists and records read back what their items and fields
read back (`reads_list`, `reads_record`), so that a kind of record needs no more than its fields, one after
the other, each with what it puts into the draft.

In the other direction, `Ensures reader P` says that whatever a reader makes of a text has a property. What
every field of a record keeps up in the draft holds of the draft in the end (`ensures_reader`).
-/

namespace GridRobot

namespace Json

/-- A text that may follow a value in a document. -/
def Follows (rest : Text) : Prop := ∀ c ∈ rest.head?, c = ',' ∨ c = ']' ∨ c = '\x7d'

theorem follows_nil : Follows [] := fun _ hc => by cases hc

theorem follows_cons {c : Char} (h : c = ',' ∨ c = ']' ∨ c = '\x7d') (rest : Text) :
    Follows (c :: rest) := fun _ hd => by
  cases hd
  exact h

theorem Follows.endsNumeral {rest : Text} (h : Follows rest) : EndsNumeral rest := by
  intro c hc
  rcases h c hc with rfl | rfl | rfl <;> decide

def Reads {α : Type} (reader : Reader α) (j : Json) (a : α) : Prop :=
  ∀ rest, Follows rest → reader (j.render ++ rest) = .ok (a, rest)

theorem isSpace_eq_false_of_isDigit {c : Char} (h : c.isDigit = true) : isSpace c = false := by
  have hgap := Text.isGap_eq_false_of_isWordChar (Text.isWordChar_of_isDigit h)
  simp only [Text.isGap, Bool.or_eq_false_iff] at hgap
  obtain ⟨⟨⟨⟨hspace, htab⟩, hfeed⟩, -⟩, hreturn⟩ := hgap
  rw [isSpace, hspace, hfeed, htab, hreturn]
  rfl

/-- A value starts with a character of its own, by which no reader takes it for the end of a list. -/
theorem exists_render_eq_cons (j : Json) : ∃ c t, j.render = c :: t ∧ isSpace c = false ∧ c ≠ ']' := by
  cases j with
  | null => exact ⟨_, _, rfl, by decide, by decide⟩
  | bool value => cases value <;> exact ⟨_, _, rfl, by decide, by decide⟩
  | num n =>
      rw [render, renderInt]
      split
      · exact ⟨_, _, rfl, by decide, by decide⟩
      · obtain ⟨c, digits, hdigits⟩ := List.exists_cons_of_ne_nil (Text.numeral_ne_nil n.natAbs)
        have hc : c.isDigit = true := Text.isDigit_of_mem_numeral (hdigits ▸ List.mem_cons_self)
        exact ⟨c, digits, hdigits, isSpace_eq_false_of_isDigit hc, fun h => by simp [h] at hc⟩
  | str s => exact ⟨_, _, by rw [render, quote, List.cons_append], by decide, by decide⟩
  | arr items => exact ⟨_, _, by rw [render, List.cons_append], by decide, by decide⟩
  | obj fields => exact ⟨_, _, by rw [render, List.cons_append], by decide, by decide⟩

/-! ### Numbers and strings -/

theorem render_word (n : UInt32) : (word n).render = Text.numeral n.toNat := by
  rw [word, render, renderInt, if_neg (by omega), Int.natAbs_natCast]

theorem startsNumber_word (n : UInt32) (rest : Text) :
    startsNumber ((word n).render ++ rest) = true ∧
      skipSpace ((word n).render ++ rest) = (word n).render ++ rest := by
  rw [render_word]
  obtain ⟨c, digits, hdigits⟩ := List.exists_cons_of_ne_nil (Text.numeral_ne_nil n.toNat)
  have hc : c.isDigit = true := Text.isDigit_of_mem_numeral (hdigits ▸ List.mem_cons_self)
  rw [hdigits, List.cons_append]
  constructor
  · simp [startsNumber, hc]
  · apply skipSpace_of_head
    intro d hd
    cases hd
    exact isSpace_eq_false_of_isDigit hc

theorem number?_word (n : UInt32) {rest : Text} (hrest : Follows rest) :
    number? ((word n).render ++ rest) = some (.natural n.toNat, rest) := by
  have hle : n.toNat ≤ maxSignificand := by
    have hlt : n.toNat < UInt32.size := n.toNat_lt_size
    have hsize : UInt32.size ≤ maxSignificand := by decide
    omega
  rw [render_word]
  exact number?_numeral hle hrest.endsNumeral

theorem reads_word32 (n : UInt32) : Reads word32 (word n) n := by
  intro rest hrest
  obtain ⟨hstarts, hskip⟩ := startsNumber_word n rest
  have hlt : n.toNat < UInt32.size := n.toNat_lt_size
  unfold word32
  simp only [hskip, hstarts, if_true, number?_word n hrest]
  show (if n.toNat < UInt32.size then _ else _) = _
  rw [if_pos hlt, UInt32.ofNat_toNat]

theorem render_str (s : String) (rest : Text) :
    (str s).render ++ rest = '"' :: (s.toList.flatMap escape ++ '"' :: rest) := by
  simp [render, quote]

theorem quotedString_quote (s : String) (rest : Text) :
    quotedString ((str s).render ++ rest) = .ok (s.toList, rest) := by
  rw [render_str, quotedString]
  show orMalformed (stringBody? (s.toList.flatMap escape ++ '"' :: rest)) = _
  rw [stringBody?_quoted]
  rfl

theorem reads_variant {α : Type} {choices : List (String × α)} {name : String} {a : α}
    (h : choices.lookup name = some a) : Reads (variant choices) (str name) a := by
  intro rest _
  have hone : oneOf choices name.toList = .ok a := by
    rw [oneOf, String.ofList_toList, h]
  rw [render_str, variant]
  show (orMalformed (stringBody? (name.toList.flatMap escape ++ '"' :: rest)) >>= _) = _
  rw [stringBody?_quoted]
  show (oneOf choices name.toList >>= _) = _
  rw [hone]
  rfl

/-! ### Lists -/

section Lists

variable {α : Type} {item : Reader α} {toJson : α → Json}

theorem length_le_renderItems (js : List Json) : js.length ≤ (renderItems js).length := by
  induction js with
  | nil => exact Nat.zero_le _
  | cons j js ih =>
      obtain ⟨c, t, hc, -⟩ := exists_render_eq_cons j
      cases js with
      | nil => simp [renderItems, hc]
      | cons j' js =>
          simp only [renderItems, List.length_append, List.length_cons] at ih ⊢
          omega

theorem items_renderItems (h : ∀ a, Reads item (toJson a) a) (a : α) (as : List α) {fuel : Nat}
    (hfuel : as.length < fuel) (rest : Text) :
    items item fuel (renderItems ((a :: as).map toJson) ++ ']' :: rest) = .ok (a :: as, rest) := by
  induction as generalizing a fuel with
  | nil =>
      obtain ⟨fuel, rfl⟩ := Nat.exists_eq_succ_of_ne_zero (Nat.ne_of_gt hfuel)
      have hitem := h a (']' :: rest) (follows_cons (.inr (.inl rfl)) rest)
      show items item (fuel + 1) ((toJson a).render ++ ']' :: rest) = _
      rw [items, hitem]
      rfl
  | cons a' as ih =>
      obtain ⟨fuel, rfl⟩ := Nat.exists_eq_succ_of_ne_zero (Nat.ne_of_gt (Nat.zero_lt_of_lt hfuel))
      have hmore := ih a' (Nat.lt_of_succ_lt_succ hfuel)
      have hitem := h a (',' :: (renderItems ((a' :: as).map toJson) ++ ']' :: rest))
        (follows_cons (.inl rfl) _)
      have htext : renderItems ((a :: a' :: as).map toJson) ++ ']' :: rest =
          (toJson a).render ++ ',' :: (renderItems ((a' :: as).map toJson) ++ ']' :: rest) := by
        simp [renderItems]
      rw [htext, items, hitem]
      show (items item fuel (renderItems ((a' :: as).map toJson) ++ ']' :: rest) >>= _) = _
      rw [hmore]
      rfl

theorem exists_renderItems_eq_cons (j : Json) (js : List Json) :
    ∃ c t, renderItems (j :: js) = c :: t ∧ isSpace c = false ∧ c ≠ ']' := by
  obtain ⟨c, t, hc, hspace, hbracket⟩ := exists_render_eq_cons j
  cases js with
  | nil => exact ⟨c, t, hc, hspace, hbracket⟩
  | cons j' js =>
      refine ⟨c, t ++ ',' :: renderItems (j' :: js), ?_, hspace, hbracket⟩
      rw [renderItems, hc, List.cons_append]

theorem reads_list (h : ∀ a, Reads item (toJson a) a) (as : List α) :
    Reads (list item) (arr (as.map toJson)) as := by
  intro rest _
  have htext : (arr (as.map toJson)).render ++ rest =
      '[' :: (renderItems (as.map toJson) ++ ']' :: rest) := by simp [render]
  rw [htext]
  cases as with
  | nil => rfl
  | cons a as =>
      have hfuel : as.length < (renderItems ((a :: as).map toJson) ++ ']' :: rest).length := by
        have hlength := length_le_renderItems ((a :: as).map toJson)
        rw [List.length_map, List.length_cons] at hlength
        rw [List.length_append]
        omega
      have hitems := items_renderItems h a as hfuel rest
      obtain ⟨c, t, hc, hspace, hbracket⟩ := exists_renderItems_eq_cons (toJson a) (as.map toJson)
      have hskip : skipSpace (renderItems ((a :: as).map toJson) ++ ']' :: rest) =
          renderItems ((a :: as).map toJson) ++ ']' :: rest := by
        apply skipSpace_of_head
        intro d hd
        rw [List.map_cons, hc] at hd
        cases hd
        exact hspace
      have hopen : skipSpace ('[' :: (renderItems ((a :: as).map toJson) ++ ']' :: rest)) =
          '[' :: (renderItems ((a :: as).map toJson) ++ ']' :: rest) := rfl
      simp only [list, hopen, hskip]
      split
      · next more heq =>
          rw [List.map_cons, hc] at heq
          exact absurd (List.cons.inj heq).1 hbracket
      · exact hitems

end Lists

/-! ### Records -/

namespace Record

variable {δ α : Type} {r : Record δ α}

/-- The members of an object, one after the other, fill a draft. -/
inductive Fills (r : Record δ α) : List (String × Json) → δ → δ → Prop where
  | nil (d : δ) : Fills r [] d d
  | cons {key : String} {j : Json} {fields : List (String × Json)} {f : Field δ} {d d' d'' : δ}
      (hfield : r.fields.find? (·.name == key) = some f) (hunset : f.isSet d = false)
      (hread : Reads (f.read d) j d') (hmore : Fills r fields d' d'') : Fills r ((key, j) :: fields) d d''

theorem member_of_find? {key : String} {f : Field δ} {d d' : δ} {j : Json}
    (hfield : r.fields.find? (·.name == key) = some f) (hunset : f.isSet d = false)
    (hread : Reads (f.read d) j d') {rest : Text} (hrest : Follows rest) :
    r.member key.toList d (':' :: (j.render ++ rest)) = .ok (d', rest) := by
  unfold member
  rw [String.ofList_toList, hfield]
  simp only [hunset]
  exact hread rest hrest

theorem members_succ {key : String} {f : Field δ} {d d' : δ} {j : Json}
    (hfield : r.fields.find? (·.name == key) = some f) (hunset : f.isSet d = false)
    (hread : Reads (f.read d) j d') (fuel : Nat) {rest : Text} (hrest : Follows rest) :
    r.members (fuel + 1) d ((str key).render ++ ':' :: (j.render ++ rest)) =
      match skipSpace rest with
      | '\x7d' :: rest => .ok (d', rest)
      | ',' :: rest => r.members fuel d' rest
      | _ => .error .malformed := by
  have hskip : ∀ t, skipSpace ((str key).render ++ t) = (str key).render ++ t := by
    intro t
    rw [render_str]
    rfl
  rw [members, hskip, quotedString_quote]
  show (r.member key.toList d (':' :: (j.render ++ rest)) >>= _) = _
  rw [member_of_find? hfield hunset hread hrest]
  rfl

theorem members_renderFields {field : String × Json} {fields : List (String × Json)} {d d' : δ}
    (h : r.Fills (field :: fields) d d') {fuel : Nat} (hfuel : fields.length < fuel) (rest : Text) :
    r.members fuel d (renderFields (field :: fields) ++ '\x7d' :: rest) = .ok (d', rest) := by
  induction fields generalizing field d fuel with
  | nil =>
      obtain ⟨fuel, rfl⟩ := Nat.exists_eq_succ_of_ne_zero (Nat.ne_of_gt hfuel)
      cases h with
      | @cons key j _ f _ _ _ hfield hunset hread hmore =>
          cases hmore
          have htext : renderFields [(key, j)] ++ '\x7d' :: rest =
              (str key).render ++ ':' :: (j.render ++ '\x7d' :: rest) := by
            simp [renderFields, render]
          rw [htext, members_succ hfield hunset hread fuel (follows_cons (.inr (.inr rfl)) rest)]
          rfl
  | cons next fields ih =>
      obtain ⟨fuel, rfl⟩ := Nat.exists_eq_succ_of_ne_zero (Nat.ne_of_gt (Nat.zero_lt_of_lt hfuel))
      cases h with
      | @cons key j _ f _ _ _ hfield hunset hread hmore =>
          have htext : renderFields ((key, j) :: next :: fields) ++ '\x7d' :: rest =
              (str key).render ++
                ':' :: (j.render ++ ',' :: (renderFields (next :: fields) ++ '\x7d' :: rest)) := by
            simp [renderFields, render]
          rw [htext, members_succ hfield hunset hread fuel (follows_cons (.inl rfl) _)]
          exact ih hmore (Nat.lt_of_succ_lt_succ hfuel)

theorem length_le_renderFields (fields : List (String × Json)) :
    fields.length ≤ (renderFields fields).length := by
  induction fields with
  | nil => exact Nat.zero_le _
  | cons field fields ih =>
      cases fields with
      | nil =>
          simp only [renderFields, List.length_append, List.length_cons, List.length_nil]
          omega
      | cons next fields =>
          simp only [renderFields, List.length_append, List.length_cons] at ih ⊢
          omega

theorem reads_record {field : String × Json} {fields : List (String × Json)} {d : δ} {a : α}
    (h : r.Fills (field :: fields) r.draft d) (hcomplete : r.complete d = .ok a) :
    Reads r.reader (obj (field :: fields)) a := by
  intro rest _
  have htext : (obj (field :: fields)).render ++ rest =
      '\x7b' :: (renderFields (field :: fields) ++ '\x7d' :: rest) := by simp [render]
  have hfuel : fields.length < (renderFields (field :: fields) ++ '\x7d' :: rest).length := by
    have hlength := length_le_renderFields (field :: fields)
    rw [List.length_cons] at hlength
    rw [List.length_append]
    omega
  have hmembers := members_renderFields h hfuel rest
  have hquote : ∃ t, renderFields (field :: fields) ++ '\x7d' :: rest = '"' :: t := by
    cases fields <;> simp [renderFields, quote]
  obtain ⟨t, ht⟩ := hquote
  rw [ht] at hmembers
  rw [htext, ht, reader]
  show (r.members ('"' :: t).length r.draft ('"' :: t) >>= _) = _
  rw [hmembers]
  show (r.complete d >>= _) = _
  rw [hcomplete]
  rfl

end Record

theorem Field.reads_of {δ α : Type} {name : String} {get : δ → Option α} {set : δ → α → δ}
    {reader : Reader α} {j : Json} {a : α} (h : Reads reader j a) (d : δ) :
    Reads ((Field.of name get set reader).read d) j (set d a) := by
  intro rest hrest
  show (reader (j.render ++ rest) >>= _) = _
  rw [h rest hrest]
  rfl

theorem decode_compact {α : Type} {reader : Reader α} {j : Json} {a : α} (h : Reads reader j a) :
    decode reader j.compact = .ok a := by
  have hread := h [] follows_nil
  rw [List.append_nil] at hread
  rw [decode, compact, String.toList_ofList, hread]
  rfl

/-! ### What is read from any text -/

def Ensures {α : Type} (reader : Reader α) (P : α → Prop) : Prop :=
  ∀ t a rest, reader t = .ok (a, rest) → P a

theorem Field.ensures_of {δ α : Type} {name : String} {get : δ → Option α} {set : δ → α → δ}
    {reader : Reader α} {P : δ → Prop} {Q : α → Prop} {d : δ} (hreader : Ensures reader Q)
    (hset : ∀ a, Q a → P (set d a)) : Ensures ((Field.of name get set reader).read d) P := by
  intro t d' rest hread
  obtain ⟨⟨a, t'⟩, ha, hread⟩ := bind_eq_ok hread
  cases hread
  exact hset a (hreader _ _ _ ha)

namespace Record

section Invariant

variable {δ α : Type} {r : Record δ α} {P : δ → Prop}

theorem ensures_member (hfields : ∀ f ∈ r.fields, ∀ d, P d → Ensures (f.read d) P) (key : Text) {d : δ}
    (hd : P d) : Ensures (r.member key d) P := by
  intro t d' rest hread
  unfold member at hread
  split at hread
  · next f hfind =>
      split at hread
      · cases hread
      · obtain ⟨t', -, hread⟩ := bind_eq_ok hread
        exact hfields f (List.mem_of_find?_eq_some hfind) d hd _ _ _ hread
  · obtain ⟨t', -, hread⟩ := bind_eq_ok hread
    obtain ⟨t'', -, hread⟩ := bind_eq_ok hread
    cases hread
    exact hd

theorem ensures_members (hfields : ∀ f ∈ r.fields, ∀ d, P d → Ensures (f.read d) P) (fuel : Nat) {d : δ}
    (hd : P d) : Ensures (r.members fuel d) P := by
  induction fuel generalizing d with
  | zero =>
      intro t d' rest hread
      cases hread
  | succ fuel ih =>
      intro t d' rest hread
      rw [members] at hread
      obtain ⟨⟨key, t₁⟩, -, hread⟩ := bind_eq_ok hread
      obtain ⟨⟨d₁, t₂⟩, hmember, hread⟩ := bind_eq_ok hread
      dsimp only at hread
      have hd₁ : P d₁ := ensures_member hfields key hd _ _ _ hmember
      split at hread
      · cases hread
        exact hd₁
      · exact ih hd₁ _ _ _ hread
      · cases hread

theorem ensures_entries {fs : List (Field δ)} (hfields : ∀ f ∈ fs, ∀ d, P d → Ensures (f.read d) P)
    (before : Nat) {d : δ} (hd : P d) : Ensures (r.entries fs before d) P := by
  induction fs generalizing before d with
  | nil =>
      intro t d' rest hread
      obtain ⟨t', -, hread⟩ := bind_eq_ok hread
      cases hread
      exact hd
  | cons f fs ih =>
      obtain ⟨hf, hfs⟩ := List.forall_mem_cons.1 hfields
      intro t d' rest hread
      have hmore : ∀ {t}, (f.read d t >>= fun x => r.entries fs (before + 1) x.1 x.2) = .ok (d', rest) →
          P d' := by
        intro t hread
        obtain ⟨⟨d₁, t₁⟩, hentry, hread⟩ := bind_eq_ok hread
        exact ih hfs (before + 1) (hf d hd _ _ _ hentry) _ _ _ hread
      unfold entries at hread
      split at hread
      · cases hread
      · exact hmore hread
      · exact hmore hread
      · cases hread

theorem finish_of_complete {d : δ} {a : α} (h : r.complete d = .ok a) : r.finish d = some a := by
  unfold complete at h
  split at h
  · cases h
  · cases hfinish : r.finish d with
    | none =>
        rw [hfinish] at h
        cases h
    | some a' =>
        rw [hfinish] at h
        cases h
        rfl

/-- A record comes from a draft that has what all its fields keep up, in either form. -/
theorem ensures_reader (hdraft : P r.draft)
    (hfields : ∀ f ∈ r.fields, ∀ d, P d → Ensures (f.read d) P) :
    Ensures r.reader fun a => ∃ d, P d ∧ r.finish d = some a := by
  intro t a rest hread
  have hend : ∀ {form : Except Fault (δ × Text)}, (∀ d t, form = .ok (d, t) → P d) →
      (form >>= fun x => r.complete x.1 >>= fun a => .ok (a, x.2)) = .ok (a, rest) →
        ∃ d, P d ∧ r.finish d = some a := by
    intro form hform hread
    obtain ⟨⟨d, t⟩, hd, hread⟩ := bind_eq_ok hread
    obtain ⟨a', hcomplete, hread⟩ := bind_eq_ok hread
    cases hread
    exact ⟨d, hform d _ hd, finish_of_complete hcomplete⟩
  unfold reader at hread
  dsimp only at hread
  split at hread
  · exact hend (ensures_entries hfields 0 hdraft _) hread
  · split at hread
    · exact hend (fun _ _ hd => by cases hd; exact hdraft) hread
    · exact hend (ensures_members hfields _ hdraft _) hread
  · refine hend (fun _ _ hd => ?_) hread
    obtain ⟨_, -, hd⟩ := bind_eq_ok hd
    cases hd

end Invariant

end Record

theorem Ensures.decode {α : Type} {reader : Reader α} {P : α → Prop} (h : Ensures reader P) {s : String}
    {a : α} (hs : Json.decode reader s = .ok a) : P a := by
  unfold Json.decode at hs
  obtain ⟨⟨a', rest⟩, hread, hs⟩ := bind_eq_ok hs
  dsimp only at hs
  split at hs
  · cases hs
    exact h _ _ _ hread
  · cases hs

end Json

end GridRobot
