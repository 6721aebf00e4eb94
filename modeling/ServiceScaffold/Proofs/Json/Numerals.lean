import ServiceScaffold.Proofs.Json.RoundTrip
import ServiceScaffold.Proofs.Number.Decimal

/-!
# Numerals

The texts that numbers are written as, and what they are read as.  A numeral is read in its parts;
its digits are a significand as long as they fit into 64 bits, which the digits of a double always
do.

* `Numeral.numeral?_text` : **a numeral is read from its text**;
* `Numeral.Writes`, `Numeral.exists_scientificText` : the text of a double is that of a numeral;
* `Numeral.Writes.value?` : a numeral with a point or an exponent is scaled;
* `Numeral.value?_ofNat`, `Numeral.value?_ofNat_of_lt` : a whole number that fits is read as itself.
-/

namespace ServiceScaffold.Json

open Number

/-! ### Parts of numerals -/

/-- No digit stands at the start. -/
def StartsApart (cs : List Char) : Prop := ∀ c ∈ cs.head?, c.isDigit = false

theorem spanDigits_append {ds rest : List Char} (hds : ∀ c ∈ ds, c.isDigit = true)
    (hrest : StartsApart rest) : spanDigits (ds ++ rest) = (ds, rest) := by
  have hend : rest.takeWhile Char.isDigit = [] ∧ rest.dropWhile Char.isDigit = rest := by
    rcases rest with _ | ⟨c, rest⟩
    · exact ⟨rfl, rfl⟩
    · have hc := hrest c rfl
      exact ⟨List.takeWhile_cons_of_neg (by simp [hc]), List.dropWhile_cons_of_neg (by simp [hc])⟩
  rw [spanDigits, List.takeWhile_append_of_pos hds, List.dropWhile_append_of_pos hds, hend.1, hend.2,
    List.append_nil]

namespace Numeral

/-- The sign of a numeral. -/
def signText (n : Numeral) : List Char := if n.negative then ['-'] else []

/-- The digits after the point, with their point. -/
def fractionText (n : Numeral) : List Char := if n.fraction = [] then [] else '.' :: n.fraction

/-- The exponent with its mark and a sign. -/
def exponentText (n : Numeral) : List Char :=
  match n.exponent with
  | none => []
  | some e => 'e' :: (if e < 0 then '-' else '+') :: digitsOf e.natAbs

/-- The numeral as it is written. -/
def text (n : Numeral) : List Char := n.signText ++ (n.whole ++ (n.fractionText ++ n.exponentText))

/-- The parts of a numeral that is written: digits, the first of which is no zero unless it stands
alone. -/
structure IsWritten (n : Numeral) : Prop where
  whole : ∀ c ∈ n.whole, c.isDigit = true
  nonempty : n.whole ≠ []
  leading : n.whole.length = 1 ∨ n.whole.head? ≠ some '0'
  fraction : ∀ c ∈ n.fraction, c.isDigit = true

variable {n : Numeral} {rest : List Char}

theorem exponent?_text (hrest : EndsBefore rest) :
    exponent? (n.exponentText ++ rest) = some (n.exponent, rest) := by
  unfold exponentText
  have hapart : StartsApart rest := fun c hc => by
    obtain rfl | rfl := hrest c hc <;> decide
  rcases n.exponent with _ | e
  · rcases rest with _ | ⟨c, rest⟩
    · rfl
    · rw [List.nil_append, exponent?, if_neg]
      obtain rfl | rfl := hrest c rfl <;> decide
  · have hdigits : spanDigits (digitsOf e.natAbs ++ rest) = (digitsOf e.natAbs, rest) :=
      spanDigits_append (fun c hc => isDigit_digitsOf hc) hapart
    have hne : (digitsOf e.natAbs).isEmpty = false := by
      simp [digitsOf]
    have hread (negative : Bool) : exponent? ('e' :: (if negative then '-' else '+') ::
        (digitsOf e.natAbs ++ rest)) = some (some (if negative then -(e.natAbs : ℤ) else e.natAbs),
          rest) := by
      cases negative <;> simp [exponent?, spanSign, hdigits, hne, natOfDigits_digitsOf]
    have := hread (decide (e < 0))
    simp only [decide_eq_true_eq] at this
    simp only [List.cons_append, this]
    by_cases he : e < 0
    · rw [if_pos he]
      congr 3
      omega
    · rw [if_neg he]
      congr 3
      omega

theorem startsApart_exponentText (n : Numeral) (hrest : EndsBefore rest) :
    StartsApart (n.exponentText ++ rest) := by
  unfold exponentText
  rcases n.exponent with _ | e
  · intro c hc
    obtain rfl | rfl := hrest c hc <;> decide
  · rintro c ⟨⟩
    decide

theorem fraction?_text (h : n.IsWritten) (hrest : EndsBefore rest) :
    fraction? (n.fractionText ++ (n.exponentText ++ rest)) =
      some (n.fraction, n.exponentText ++ rest) := by
  have hapart := n.startsApart_exponentText hrest
  unfold fractionText
  split_ifs with hnil
  · rw [List.nil_append, hnil]
    rcases htail : n.exponentText ++ rest with _ | ⟨c, tail⟩
    · rfl
    · rw [fraction?]
      rintro _ ⟨⟩
      unfold exponentText at htail
      rcases hexponent : n.exponent with _ | e
      · rw [hexponent, List.nil_append] at htail
        obtain h | h := hrest '.' (by rw [htail]; rfl) <;> cases h
      · rw [hexponent] at htail
        cases htail
  · rw [List.cons_append, fraction?, spanDigits_append h.fraction hapart]
    simp [hnil]

/-- **A numeral is read from its text.** -/
theorem numeral?_text (h : n.IsWritten) (hrest : EndsBefore rest) :
    numeral? (n.text ++ rest) = some (n, rest) := by
  have hapart : StartsApart (n.fractionText ++ (n.exponentText ++ rest)) := by
    unfold fractionText
    split_ifs
    · exact n.startsApart_exponentText hrest
    · rintro c ⟨⟩
      decide
  have hlead : (n.whole.isEmpty || (1 < n.whole.length && n.whole.head? == some '0')) = false := by
    obtain hone | hhead := h.leading
    · simp [hone, h.nonempty]
    · simp [hhead, h.nonempty]
  have hparts : spanDigits (n.whole ++ (n.fractionText ++ (n.exponentText ++ rest))) =
      (n.whole, n.fractionText ++ (n.exponentText ++ rest)) := spanDigits_append h.whole hapart
  have htext : n.text ++ rest =
      n.signText ++ (n.whole ++ (n.fractionText ++ (n.exponentText ++ rest))) := by
    simp [text]
  rw [htext, signText]
  rcases hneg : n.negative
  · have hhead : ∀ body, n.whole ++ (n.fractionText ++ (n.exponentText ++ rest)) =
        '-' :: body → False := by
      intro body hbody
      obtain ⟨c, cs, hwhole⟩ := List.exists_cons_of_ne_nil h.nonempty
      rw [hwhole] at hbody
      cases hbody
      exact absurd (h.whole '-' (by simp [hwhole])) (by decide)
    rw [if_neg (by decide), List.nil_append, numeral?.eq_2 _ hhead]
    simp only [hparts, hlead, fraction?_text h hrest]
    simp [← hneg, exponent?_text hrest]
  · simp only [if_true, List.singleton_append, numeral?, hparts, hlead, fraction?_text h hrest]
    simp [← hneg, exponent?_text hrest]

end Numeral

/-! ### Significands -/

/-- Digits that fit into a significand are all read. -/
theorem significand_of_le {n dropped : Nat} {cs : List Char}
    (h : Nat.ofDigitChars 10 cs n ≤ maxSignificand) :
    significand false n dropped cs = (Nat.ofDigitChars 10 cs n, dropped) := by
  induction cs generalizing n with
  | nil => rfl
  | cons c cs ih =>
    have hnext : Nat.ofDigitChars 10 (c :: cs) n =
        Nat.ofDigitChars 10 cs (10 * n + digitValue c) := by
      rw [Nat.ofDigitChars_cons]
      rfl
    rw [hnext] at h ⊢
    have hle : 10 * n + digitValue c ≤ maxSignificand := by
      refine le_trans ?_ h
      rw [Nat.ofDigitChars_eq_ofDigitChars_zero]
      exact le_add_right (Nat.le_mul_of_pos_left _ (by positivity))
    rw [significand]
    simp only [Bool.false_or, decide_eq_true_eq, not_lt.2 hle, if_false]
    exact ih h

/-- Digits are only ever dropped. -/
theorem le_significand (full : Bool) (n dropped : Nat) (cs : List Char) :
    dropped ≤ (significand full n dropped cs).2 := by
  induction cs generalizing full n dropped with
  | nil => exact le_rfl
  | cons c cs ih =>
    rw [significand]
    split_ifs
    · exact (Nat.le_succ _).trans (ih _ _ _)
    · exact ih _ _ _

/-- Of digits that do not fit into a significand some are dropped. -/
theorem significand_of_lt {n dropped : Nat} {cs : List Char} (hn : n ≤ maxSignificand)
    (h : maxSignificand < Nat.ofDigitChars 10 cs n) :
    dropped < (significand false n dropped cs).2 := by
  induction cs generalizing n with
  | nil => exact absurd h (not_lt.2 hn)
  | cons c cs ih =>
    rw [significand]
    simp only [Bool.false_or, decide_eq_true_eq]
    split_ifs with hfull
    · exact le_significand _ _ _ _
    · exact ih (not_lt.1 hfull) h

namespace Numeral

variable {n : Numeral}

/-- A numeral with a point or an exponent is a significand times a power of ten. -/
theorem value?_of_le (hmark : n.fraction ≠ [] ∨ n.exponent ≠ none)
    (h : natOfDigits (n.whole ++ n.fraction) ≤ maxSignificand) :
    n.value? = (scaled? n.negative (natOfDigits (n.whole ++ n.fraction))
      (n.exponent.getD 0 - n.fraction.length)).map .float := by
  have hsplit : natOfDigits (n.whole ++ n.fraction) =
      Nat.ofDigitChars 10 n.fraction (natOfDigits n.whole) := by
    rw [natOfDigits_eq, Nat.ofDigitChars_append, natOfDigits_eq]
  have hwhole : natOfDigits n.whole ≤ maxSignificand := by
    refine le_trans ?_ h
    rw [natOfDigits_append]
    exact le_add_right (Nat.le_mul_of_pos_left _ (by positivity))
  rw [value?, significand_of_le hwhole]
  simp only
  rw [if_neg, ← natOfDigits_eq, significand_of_le (hsplit ▸ h)]
  · simp [hsplit]
  · intro hplain
    obtain hfraction | hexponent := hmark
    · simp [hfraction] at hplain
    · simp [hexponent] at hplain

/-! ### Numerals of doubles -/

/-- The numeral writes a decimal with a point or an exponent. -/
structure Writes (n : Numeral) (decimal : Nat × Int) : Prop where
  isWritten : n.IsWritten
  marked : n.fraction ≠ [] ∨ n.exponent ≠ none
  digits : natOfDigits (n.whole ++ n.fraction) = decimal.1
  exponent : n.exponent.getD 0 - n.fraction.length = decimal.2

variable {negative : Bool} {d : Nat} {k : ℤ}

/-- A whole number with a point. -/
theorem writes_whole (hd : 0 < d) (j : ℕ) :
    Writes ⟨negative, digitsOf d ++ zeros j, ['0'], none⟩ (d * 10 ^ (j + 1), -1) where
  isWritten :=
    { whole := fun c hc => (List.mem_append.1 hc).elim isDigit_digitsOf isDigit_zeros
      nonempty := by simp [digitsOf_ne_nil]
      leading := .inr (by
        rw [List.head?_append_of_ne_nil _ (digitsOf_ne_nil d)]
        exact head?_digitsOf hd)
      fraction := by simp }
  marked := .inl (by simp)
  digits := by
    rw [natOfDigits_append, natOfDigits_digitsOf_zeros]
    simp only [List.length_singleton, show natOfDigits ['0'] = 0 from rfl]
    ring
  exponent := rfl

/-- A number with a point among its digits. -/
theorem writes_split (hd : 0 < d) {places : ℕ} (hpos : 0 < places)
    (hplaces : places < (digitsOf d).length) :
    Writes ⟨negative, (digitsOf d).take ((digitsOf d).length - places),
      (digitsOf d).drop ((digitsOf d).length - places), none⟩ (d, -places) where
  isWritten :=
    { whole := fun c hc => isDigit_digitsOf (List.mem_of_mem_take hc)
      nonempty := by
        rw [Ne, List.take_eq_nil_iff, not_or]
        exact ⟨by omega, digitsOf_ne_nil d⟩
      leading := .inr (by
        rw [List.head?_take, if_neg (by omega)]
        exact head?_digitsOf hd)
      fraction := fun c hc => isDigit_digitsOf (List.mem_of_mem_drop hc) }
  marked := .inl (by
    rw [Ne, List.drop_eq_nil_iff]
    omega)
  digits := by rw [List.take_append_drop, natOfDigits_digitsOf]
  exponent := by
    simp only [Option.getD_none, List.length_drop]
    omega

/-- A number whose digits stand behind the point. -/
theorem writes_behind {places : ℕ} (hplaces : (digitsOf d).length ≤ places) :
    Writes ⟨negative, ['0'], zeros (places - (digitsOf d).length) ++ digitsOf d, none⟩
      (d, -places) where
  isWritten :=
    { whole := by simp
      nonempty := by simp
      leading := .inl rfl
      fraction := fun c hc => (List.mem_append.1 hc).elim isDigit_zeros isDigit_digitsOf }
  marked := .inl (by simp [digitsOf_ne_nil])
  digits := by
    rw [natOfDigits_append, natOfDigits_append, natOfDigits_zeros, natOfDigits_digitsOf]
    simp [natOfDigits, digitValue]
  exponent := by
    simp only [Option.getD_none, List.length_append, zeros, List.length_replicate]
    omega

/-- A number with one digit before the point and an exponent. -/
theorem writes_scientific {c : Char} {more : List Char}
    (hdigits : digitsOf d = c :: more) :
    Writes ⟨negative, [c], more, some ((digitsOf d).length + k - 1)⟩ (d, k) where
  isWritten :=
    { whole := by simpa using isDigit_digitsOf (by rw [hdigits]; exact List.mem_cons_self)
      nonempty := by simp
      leading := .inl rfl
      fraction := fun c hc => isDigit_digitsOf (by rw [hdigits]; exact List.mem_cons_of_mem _ hc) }
  marked := .inr (by simp)
  digits := by rw [List.singleton_append, ← hdigits, natOfDigits_digitsOf]
  exponent := by
    rw [hdigits, Option.getD_some, List.length_cons]
    push_cast
    ring

/-- The sign and the digits of an exponent are an integer behind a sign for those that are not
negative. -/
theorem signed_digitsOf (e : ℤ) : (if e < 0 then '-' else '+') :: digitsOf e.natAbs =
    (if 1 ≤ e + 1 then ['+'] else []) ++ intText e := by
  unfold intText
  by_cases he : e < 0
  · rw [if_pos he, if_pos he, if_neg (by omega), List.nil_append]
  · rw [if_neg he, if_neg he, if_pos (by omega), List.singleton_append]

/-- **The text of a double is that of a numeral**, which writes its decimal. -/
theorem exists_scientificText {x : Binary64} (hx : x.isFinite = true) :
    ∃ n : Numeral, n.negative = x.isNegative ∧ n.text = scientificText (-5) true x ∧
      n.Writes (writtenDecimal x) := by
  rw [scientificText, writtenDecimal]
  by_cases hzero : x.magnitude = 0
  · rw [if_pos hzero, if_pos hzero]
    exact ⟨⟨x.isNegative, ['0'], ['0'], none⟩, rfl, by
      simp [text, Numeral.signText, Number.signText, fractionText, exponentText],
      ⟨⟨by simp, by simp, .inl rfl, by simp⟩, .inl (by simp), rfl, rfl⟩⟩
  have hd : 0 < (shortest x).1 := (shortest_spec hx (Binary64.parts_pos hzero)).2.1
  rw [if_neg hzero, if_neg hzero]
  generalize shortest x = decimal at hd ⊢
  obtain ⟨d, k⟩ := decimal
  simp only [Int.ofNat_eq_natCast, Bool.and_eq_true, decide_eq_true_eq]
  simp only at hd
  by_cases hwhole : 0 ≤ k ∧ (digitsOf d).length + k ≤ 16
  · rw [if_pos hwhole, if_pos hwhole]
    obtain ⟨j, rfl⟩ := Int.eq_ofNat_of_zero_le hwhole.1
    refine ⟨_, rfl, ?_, @writes_whole x.isNegative d hd j⟩
    simp [text, Numeral.signText, Number.signText, fractionText, exponentText, positional]
  rw [if_neg hwhole, if_neg hwhole]
  by_cases hpoint : -5 < (digitsOf d).length + k ∧ (digitsOf d).length + k ≤ 16
  · rw [if_pos hpoint]
    obtain ⟨places, rfl, hpos⟩ : ∃ places : ℕ, k = -places ∧ 0 < places :=
      ⟨(-k).toNat, by omega, by omega⟩
    rw [positional, if_neg (by omega)]
    simp only [neg_neg, Int.toNat_natCast]
    split_ifs with hsplit
    · refine ⟨_, rfl, ?_, @writes_split x.isNegative d hd places hpos hsplit⟩
      have hfraction : (digitsOf d).drop ((digitsOf d).length - places) ≠ [] := by
        rw [Ne, List.drop_eq_nil_iff]
        omega
      simp [text, Numeral.signText, Number.signText, fractionText, exponentText, hfraction]
    · refine ⟨_, rfl, ?_, @writes_behind x.isNegative d places (not_lt.1 hsplit)⟩
      simp [text, Numeral.signText, Number.signText, fractionText, exponentText, digitsOf_ne_nil]
  · rw [if_neg hpoint]
    obtain ⟨c, more, hdigits⟩ := List.exists_cons_of_ne_nil (digitsOf_ne_nil d)
    refine ⟨_, rfl, ?_, @writes_scientific x.isNegative d k c more hdigits⟩
    simp only [text, Numeral.signText, Number.signText, fractionText, exponentText,
      signed_digitsOf, sub_add_cancel, true_and, hdigits]
    rcases more with _ | ⟨c', more⟩ <;> simp

/-- A decimal that fits into a significand is scaled as it is written. -/
theorem Writes.value? {n : Numeral} {decimal : Nat × Int} (h : n.Writes decimal)
    (hfits : decimal.1 ≤ maxSignificand) :
    n.value? = (scaled? n.negative decimal.1 decimal.2).map .float := by
  rw [value?_of_le h.marked (h.digits ▸ hfits), h.digits, h.exponent]

/-! ### Whole numbers -/

/-- The digits of a whole number. -/
def ofNat (n : Nat) : Numeral := ⟨false, digitsOf n, [], none⟩

theorem isWritten_ofNat (n : Nat) : (ofNat n).IsWritten where
  whole _ hc := isDigit_digitsOf hc
  nonempty := Nat.toDigits_ne_nil
  leading := by
    rcases Nat.eq_zero_or_pos n with rfl | hn
    · exact .inl rfl
    · exact .inr (head?_digitsOf hn)
  fraction := by simp [ofNat]

theorem text_ofNat (n : Nat) : (ofNat n).text = intText n := by
  simp [ofNat, text, signText, fractionText, exponentText, intText]

/-- A whole number that fits is read as itself. -/
theorem value?_ofNat {n : Nat} (hn : n ≤ maxSignificand) : (ofNat n).value? = some (.int n) := by
  have hdigits : Nat.ofDigitChars 10 (digitsOf n) 0 = n := natOfDigits_digitsOf n
  simp [value?, ofNat, significand_of_le (hdigits.trans_le hn), hdigits]

/-- A whole number that does not fit is not read as one. -/
theorem value?_ofNat_of_lt {n : Nat} (hn : maxSignificand < n) (m : ℤ) :
    (ofNat n).value? ≠ some (.int m) := by
  have hdigits : Nat.ofDigitChars 10 (digitsOf n) 0 = n := natOfDigits_digitsOf n
  have hdropped := @significand_of_lt 0 0 (digitsOf n) (Nat.zero_le _) (hdigits.symm ▸ hn)
  simp [value?, ofNat, hdropped.ne']

/-! ### Reading -/

variable {rest : List Char}

/-- A character that a number starts with. -/
def isStart (c : Char) : Bool := c == '-' || c.isDigit

theorem text_starts (h : n.IsWritten) (rest : List Char) :
    ∃ c cs, n.text ++ rest = c :: cs ∧ isStart c = true := by
  rw [text, signText]
  split_ifs
  · exact ⟨'-', _, rfl, rfl⟩
  · obtain ⟨c, cs, hwhole⟩ := List.exists_cons_of_ne_nil h.nonempty
    have hdigit := h.whole c (by rw [hwhole]; exact List.mem_cons_self)
    exact ⟨c, _, by rw [hwhole]; rfl, by rw [isStart, hdigit, Bool.or_true]⟩

theorem ne_of_isStart {c d : Char} (hc : isStart c = true) (hd : isStart d = false) : c ≠ d := by
  rintro rfl
  rw [hc] at hd
  cases hd

theorem isGapChar_of_isStart {c : Char} (hc : isStart c = true) : isGapChar c = false := by
  simp [isGapChar, ne_of_isStart hc (show isStart ' ' = false by decide),
    ne_of_isStart hc (show isStart '\n' = false by decide),
    ne_of_isStart hc (show isStart '\r' = false by decide),
    ne_of_isStart hc (show isStart '\t' = false by decide)]

/-- A numeral is read as its value. -/
theorem readValue?_text (h : n.IsWritten) (fuel : Nat) (hrest : EndsBefore rest) :
    readValue? (fuel + 1) .whole (n.text ++ rest) = n.value?.map (·, rest) := by
  have hnumber : number? .whole (n.text ++ rest) = n.value?.map (·, rest) := by
    rw [number?, numeral?_text h hrest]
    rcases hvalue : n.value? with _ | v <;> simp [Shape.isUnused, hvalue]
  obtain ⟨c, cs, htext, hc⟩ := text_starts h rest
  rw [← hnumber, htext, readValue?, skipSpace_cons (isGapChar_of_isStart hc)]
  split
  case h_7 => rfl
  -- no other value starts as a number does
  all_goals
    rename_i heq
    exact absurd (List.cons.inj heq).1 (ne_of_isStart hc (by decide))

end Numeral

end ServiceScaffold.Json
