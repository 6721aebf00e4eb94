import ServiceScaffold.Proofs.Json.Numerals

/-!
# Numbers read back

A double is read as the decimal of its text, rounded at each step of its scaling.  With one exact
step it is kept; with more roundings, or where it is infinite, it need not be.

* `rereadNumber?` : what the text of a double is read as;
* `rereadNumber?_of_lt`, `rereadNumber?_ofInt` : **doubles with few digits and whole numbers that
  are not too great are kept**;
* `readsAs_float`, `readsAs_infinite`, `readsAs_count` : numbers as parts of values.
-/

namespace ServiceScaffold.Json

open Number Binary64

variable {x : Binary64}

/-! ### Scaling -/

/-- The number that the text of a finite double is read as. -/
def rereadNumber? (x : Binary64) : Option Binary64 :=
  scaled? x.isNegative (writtenDecimal x).1 (writtenDecimal x).2

theorem value_powerOfTen {n : ℕ} (hn : n ≤ 22) : (powerOfTen n).value = 10 ^ n := by
  have hexact : ∀ n < 23, (powerOfTen n).quotient.1 = 10 ^ n * (powerOfTen n).quotient.2 := by
    decide +kernel
  rw [← quotient_eq, div_eq_iff (by exact_mod_cast (quotient_pos _).ne'), hexact n (by omega)]
  push_cast
  rfl

/-- A significand and a power of ten that are doubles are scaled with one rounding. -/
theorem scaled?_eq_some {d : ℕ} {e : ℤ} (hx : x.isFinite = true) (hzero : x.magnitude ≠ 0)
    (hd : d < 2 ^ 53) (he : e.natAbs ≤ 22) (h : RoundsTo x.parts.1 x.parts.2 (d * 10 ^ e)) :
    scaled? x.isNegative d e = some x := by
  have hm := parts_pos hzero
  have hparts := isParts_parts hx
  have hpattern : patternOf x.parts.1 x.parts.2 < infinityPattern := by
    rw [patternOf_parts]
    exact of_decide_eq_true hx
  have hvalue : (ofInt d).value = d := by
    have := (value_ofInt (n := d) (by simpa using hd)).1
    simpa using this
  have hpower := value_powerOfTen he
  have hpos : (0 : ℚ) < (powerOfTen e.natAbs).quotient.1 := by
    refine lt_of_le_of_ne (by positivity) fun heq => ?_
    rw [← quotient_eq, ← heq, zero_div] at hpower
    exact absurd hpower.symm (by positivity)
  -- one product or one quotient is rounded
  have hscaled : (if 0 ≤ e then product (ofInt d) (powerOfTen e.natAbs)
      else ratio (ofInt d) (powerOfTen e.natAbs)) =
        ofPattern false (patternOf x.parts.1 x.parts.2) := by
    split_ifs with hsign
    · refine nearest_eq hparts hm (Nat.mul_pos (quotient_pos _) (quotient_pos _)) ?_ hpattern
      have hproduct : (d : ℚ) * 10 ^ e = (ofInt d).value * (powerOfTen e.natAbs).value := by
        rw [hvalue, hpower, ← zpow_natCast, Int.natAbs_of_nonneg hsign]
      rw [hproduct, ← quotient_eq, ← quotient_eq, div_mul_div_comm] at h
      exact_mod_cast h
    · refine nearest_eq hparts hm (Nat.mul_pos (quotient_pos _) (by exact_mod_cast hpos)) ?_ hpattern
      have hquotient : (d : ℚ) * 10 ^ e = (ofInt d).value / (powerOfTen e.natAbs).value := by
        rw [hvalue, hpower, ← zpow_natCast, Int.ofNat_natAbs_of_nonpos (by omega), zpow_neg,
          div_inv_eq_mul]
      rw [hquotient, ← quotient_eq, ← quotient_eq, div_div_div_eq] at h
      exact_mod_cast h
  rw [patternOf_parts] at hscaled
  have hfinite : (ofPattern false x.magnitude).isFinite = true :=
    isFinite_ofPattern (of_decide_eq_true hx)
  rw [scaled?, scale?, if_pos (he.trans (by decide))]
  simp only [hscaled, hfinite, if_true, Option.map_some]
  exact congrArg some (signed_ofPattern x)

/-- Zeros are kept. -/
theorem rereadNumber?_of_zero (hzero : x.magnitude = 0) : rereadNumber? x = some x := by
  have hscale : scale? 4 (ofInt 0) (-1) = some (ofPattern false 0) := by decide +kernel
  rw [rereadNumber?, writtenDecimal, if_pos hzero, scaled?, Nat.cast_zero, hscale, ← hzero,
    Option.map_some, signed_ofPattern]

/-- **A double is kept** if it is written with a significand and an exponent that are small enough
for one exact step. -/
theorem rereadNumber?_of_lt (hx : x.isFinite = true) (hd : (writtenDecimal x).1 < 2 ^ 53)
    (he : (writtenDecimal x).2.natAbs ≤ 22) : rereadNumber? x = some x := by
  by_cases hzero : x.magnitude = 0
  · exact rereadNumber?_of_zero hzero
  · exact scaled?_eq_some hx hzero hd he (writtenDecimal_spec hx hzero).1

/-- **A whole number is kept** if ten times the number is below `2 ^ 53`. -/
theorem rereadNumber?_ofInt {n : ℤ} (hn : 10 * n.natAbs < 2 ^ 53) :
    rereadNumber? (ofInt n) = some (ofInt n) := by
  by_cases hzero : (ofInt n).magnitude = 0
  · exact rereadNumber?_of_zero hzero
  · have hwritten := writtenDecimal_ofInt hn hzero
    refine rereadNumber?_of_lt (value_ofInt (by omega)).2 ?_ ?_
    · rw [hwritten]
      exact hn
    · rw [hwritten]
      exact (by decide : (-1 : ℤ).natAbs ≤ 22)

/-! ### Numbers as parts of values -/

theorem writtenDecimal_le (hx : x.isFinite = true) : (writtenDecimal x).1 ≤ Json.maxSignificand := by
  by_cases hzero : x.magnitude = 0
  · rw [writtenDecimal, if_pos hzero]
    exact Nat.zero_le _
  · exact (writtenDecimal_spec hx hzero).2.2.trans (by decide)

/-- A value that is printed as a numeral is read as the value of the numeral. -/
theorem readsAs_numeral {v : Json} {n : Numeral} (h : n.IsWritten)
    (htext : ∀ depth, (prettyAt depth v).toList = n.text) : ReadsAs .whole v n.value? where
  starts depth := by
    obtain ⟨c, cs, hcs, hc⟩ := Numeral.text_starts h []
    rw [List.append_nil] at hcs
    exact ⟨c, cs, by rw [htext, hcs], Numeral.isGapChar_of_isStart hc,
      Numeral.ne_of_isStart hc (by decide)⟩
  reads depth {fuel rest} _ hrest := by
    rw [htext, Numeral.readValue?_text h fuel hrest]

/-- **A finite number is read as what its decimal is scaled to.** -/
theorem readsAs_float (hx : x.isFinite = true) :
    ReadsAs .whole (.float x) ((rereadNumber? x).map .float) := by
  obtain ⟨n, hnegative, htext, hwrites⟩ := Numeral.exists_scientificText hx
  have hvalue : n.value? = (rereadNumber? x).map .float := by
    rw [hwrites.value? (writtenDecimal_le hx), hnegative, rereadNumber?]
  rw [← hvalue]
  refine readsAs_numeral hwrites.isWritten fun depth => ?_
  simp [prettyAt, scalarText, floatText, hx, htext]

/-- An infinite number is read as null. -/
theorem readsAs_infinite (shape : Shape) (hx : x.isFinite = false) :
    ReadsAs shape (.float x) (some .null) := by
  have htext (depth : Nat) : (prettyAt depth (.float x)).toList = "null".toList := by
    simp [prettyAt, scalarText, floatText, hx]
  refine ⟨fun depth => ⟨'n', "ull".toList, htext depth, by decide, by decide⟩,
    fun depth fuel rest _ _ => ?_⟩
  rw [htext, readValue?]
  rfl

/-- A count is read as the value of its digits. -/
theorem readsAs_count (n : Nat) : ReadsAs .whole (.int n) (Numeral.ofNat n).value? :=
  readsAs_numeral (Numeral.isWritten_ofNat n) fun depth => by
    simp [prettyAt, scalarText, Numeral.text_ofNat]

end ServiceScaffold.Json
