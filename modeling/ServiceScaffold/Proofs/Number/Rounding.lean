import Mathlib.Algebra.Order.Field.Power
import Mathlib.Algebra.Order.Ring.Abs
import Mathlib.Data.Rat.Cast.Order
import Mathlib.Tactic.FieldSimp
import Mathlib.Tactic.Linarith
import Mathlib.Tactic.Positivity
import Mathlib.Tactic.Ring
import ServiceScaffold.Number.Arithmetic

/-!
# Rounding to doubles

What the arithmetic on whole numbers means for the numbers that they write: a double is a whole
number of at most 53 binary digits times a power of two, and `Binary64.nearest` gives the double
whose neighbours are further away.

* `Number.roundHalfEven_eq`, `Number.binaryExponent_spec` : halves and exponents;
* `Binary64.IsParts`, `Binary64.patternOf` : the parts of a double, and its pattern;
* `Binary64.RoundsTo` : the numbers that round to a double;
* `Binary64.nearest_eq` : **what rounds to a double is rounded to it**;
* `Binary64.nearest_eq_infinity` : what is too great for a double is rounded to infinity;
* `Binary64.value_ofInt`, `Binary64.wholeNumber?_ofInt` : whole numbers below `2 ^ 53` are doubles.
-/

namespace ServiceScaffold

namespace Number

/-! ### Halves -/

/-- What is at most a half away from a whole number rounds to it, if it is even or the distance is
less. -/
theorem roundHalfEven_eq {num den n : Nat} (hden : 0 < den)
    (hnear : |(num : ℚ) / den - n| ≤ 1 / 2) (htie : |(num : ℚ) / den - n| = 1 / 2 → n % 2 = 0) :
    roundHalfEven num den = n := by
  obtain ⟨q, r, hr, rfl⟩ : ∃ q r, r < den ∧ num = den * q + r :=
    ⟨num / den, num % den, Nat.mod_lt _ hden, (Nat.div_add_mod num den).symm⟩
  have hq : (den * q + r) / den = q := by
    rw [Nat.mul_add_div hden, Nat.div_eq_of_lt hr, Nat.add_zero]
  have hmod : (den * q + r) % den = r := by rw [Nat.mul_add_mod, Nat.mod_eq_of_lt hr]
  have hdenQ : (0 : ℚ) < den := by exact_mod_cast hden
  obtain ⟨x, hx⟩ : ∃ x : ℚ, x = r / den := ⟨_, rfl⟩
  have hxr : x * den = r := by rw [hx, div_mul_cancel₀ _ hdenQ.ne']
  have hx0 : 0 ≤ x := hx ▸ by positivity
  have hx1 : x < 1 := by rw [hx, div_lt_one hdenQ]; exact_mod_cast hr
  have hsplit : ((den * q + r : ℕ) : ℚ) / den - n = q + x - n := by
    rw [hx]
    push_cast
    field_simp
  rw [hsplit] at hnear htie
  obtain ⟨hlow, hhigh⟩ := abs_le.1 hnear
  have hn : n = q ∨ n = q + 1 := by
    have hle : (n : ℚ) < (q + 2 : ℕ) := by push_cast; linarith
    have hge : (q : ℚ) < (n + 1 : ℕ) := by push_cast; linarith
    norm_cast at hle hge
    omega
  simp only [roundHalfEven, hq, hmod]
  rcases Nat.lt_trichotomy (2 * r) den with hlt | heq | hgt
  · have hhalf : x < 1 / 2 := by
      rw [hx, div_lt_iff₀ hdenQ]
      have : (2 * r : ℚ) < den := by exact_mod_cast hlt
      linarith
    obtain rfl | rfl := hn
    · rw [if_pos hlt]
    · push_cast at hlow
      linarith
  · have hhalf : x = 1 / 2 := by
      rw [hx, div_eq_iff hdenQ.ne']
      have : (2 * r : ℚ) = den := by exact_mod_cast heq
      linarith
    rw [if_neg heq.not_lt, if_neg heq.not_gt]
    obtain rfl | rfl := hn
    · rw [if_pos (htie (by rw [hhalf]; norm_num))]
    · rw [if_neg]
      have hodd := htie (by rw [hhalf]; push_cast; norm_num)
      omega
  · have hhalf : 1 / 2 < x := by
      rw [hx, lt_div_iff₀ hdenQ]
      have : (den : ℚ) < 2 * r := by exact_mod_cast hgt
      linarith
    rw [if_neg hgt.not_gt, if_pos hgt]
    obtain rfl | rfl := hn
    · linarith
    · rfl

/-! ### Exponents -/

/-- A quotient lies between powers of two that are told by the logarithms of both sides. -/
theorem log2_bounds {num den : Nat} (hnum : 0 < num) (hden : 0 < den) :
    (2 : ℚ) ^ ((num.log2 : ℤ) - den.log2 - 1) < num / den ∧
      (num : ℚ) / den < 2 ^ ((num.log2 : ℤ) - den.log2 + 1) := by
  have hdenQ : (0 : ℚ) < den := by exact_mod_cast hden
  have hlow : (2 : ℚ) ^ (num.log2 : ℤ) ≤ num := by
    exact_mod_cast Nat.log2_self_le hnum.ne'
  have hhigh : (num : ℚ) < 2 ^ ((num.log2 : ℤ) + 1) := by
    exact_mod_cast Nat.lt_log2_self (n := num)
  have hlow' : (2 : ℚ) ^ (den.log2 : ℤ) ≤ den := by
    exact_mod_cast Nat.log2_self_le hden.ne'
  have hhigh' : (den : ℚ) < 2 ^ ((den.log2 : ℤ) + 1) := by
    exact_mod_cast Nat.lt_log2_self (n := den)
  constructor
  · rw [lt_div_iff₀ hdenQ]
    calc (2 : ℚ) ^ ((num.log2 : ℤ) - den.log2 - 1) * den
        < 2 ^ ((num.log2 : ℤ) - den.log2 - 1) * 2 ^ ((den.log2 : ℤ) + 1) := by gcongr
      _ = 2 ^ (num.log2 : ℤ) := by rw [← zpow_add₀ two_ne_zero]; congr 1; ring
      _ ≤ num := hlow
  · rw [div_lt_iff₀ hdenQ]
    calc (num : ℚ) < 2 ^ ((num.log2 : ℤ) + 1) := hhigh
      _ = 2 ^ ((num.log2 : ℤ) - den.log2 + 1) * 2 ^ (den.log2 : ℤ) := by
        rw [← zpow_add₀ two_ne_zero]; congr 1; ring
      _ ≤ 2 ^ ((num.log2 : ℤ) - den.log2 + 1) * den := by gcongr

/-- The test for an exponent compares the quotient with a power of two. -/
theorem fits_iff {num den : Nat} (hden : 0 < den) (e : ℤ) :
    (if 0 ≤ e then decide (den * Nat.pow 2 (e.toNat + 52) ≤ num)
      else decide (den * Nat.pow 2 52 ≤ num * Nat.pow 2 (-e).toNat)) = true ↔
        (2 : ℚ) ^ (e + 52) ≤ num / den := by
  rw [le_div_iff₀ (by exact_mod_cast hden)]
  split_ifs with he
  · obtain ⟨n, rfl⟩ := Int.eq_ofNat_of_zero_le he
    have hpow : (2 : ℚ) ^ ((n : ℤ) + 52) = (2 ^ (n + 52) : ℕ) := by
      push_cast
      exact zpow_natCast 2 (n + 52)
    rw [decide_eq_true_eq, hpow, ← Nat.cast_mul, Nat.cast_le, Nat.mul_comm]
    rfl
  · obtain ⟨n, rfl⟩ : ∃ n : ℕ, e = -n := ⟨(-e).toNat, by omega⟩
    have hpow : (2 : ℚ) ^ (-(n : ℤ) + 52) = (2 ^ 52 : ℕ) / (2 ^ n : ℕ) := by
      rw [zpow_add₀ two_ne_zero, zpow_neg, zpow_natCast]
      push_cast
      field_simp
    rw [decide_eq_true_eq, hpow, div_mul_eq_mul_div, div_le_iff₀ (by positivity), neg_neg,
      Int.toNat_natCast, ← Nat.cast_mul, ← Nat.cast_mul, Nat.cast_le, Nat.mul_comm]
    rfl

/-- The exponent of a quotient leaves a whole number of at most 53 digits, and of exactly as many
unless it is the least exponent. -/
theorem binaryExponent_spec {num den : Nat} (hnum : 0 < num) (hden : 0 < den) :
    -1074 ≤ binaryExponent num den ∧ (num : ℚ) / den < 2 ^ (binaryExponent num den + 53) ∧
      (binaryExponent num den = -1074 ∨ 2 ^ (binaryExponent num den + 52) ≤ (num : ℚ) / den) := by
  obtain ⟨hlow, hhigh⟩ := log2_bounds hnum hden
  obtain ⟨e, he, hbounds⟩ : ∃ e, binaryExponent num den = max (-1074) e ∧
      (2 : ℚ) ^ (e + 52) ≤ num / den ∧ (num : ℚ) / den < 2 ^ (e + 53) := by
    obtain ⟨guess, hguess⟩ : ∃ guess : ℤ, guess = (num.log2 : ℤ) - den.log2 - 52 := ⟨_, rfl⟩
    have hspan : (2 : ℚ) ^ (guess + 51) < num / den ∧ (num : ℚ) / den < 2 ^ (guess + 53) := by
      refine ⟨?_, ?_⟩
      · rwa [show guess + 51 = (num.log2 : ℤ) - den.log2 - 1 by omega]
      · rwa [show guess + 53 = (num.log2 : ℤ) - den.log2 + 1 by omega]
    refine ⟨_, by rw [binaryExponent], ?_⟩
    simp only [Int.ofNat_eq_natCast, ← hguess]
    by_cases hfit : (2 : ℚ) ^ (guess + 52) ≤ num / den
    · rw [if_pos ((fits_iff hden guess).2 hfit)]
      exact ⟨hfit, hspan.2⟩
    · rw [if_neg (mt (fits_iff hden guess).1 hfit), show guess - 1 + 52 = guess + 51 by ring,
        show guess - 1 + 53 = guess + 52 by ring]
      exact ⟨hspan.1.le, not_le.1 hfit⟩
  obtain ⟨hle, hlt⟩ := hbounds
  rw [he]
  refine ⟨le_max_left _ _, hlt.trans_le ?_, ?_⟩
  · exact zpow_le_zpow_right₀ (by norm_num) (by omega)
  · obtain hleast | hmost := max_choice (-1074) e
    · exact .inl hleast
    · rw [hmost]
      exact .inr hle

theorem div_le_roundHalfEven (num den : Nat) : num / den ≤ roundHalfEven num den := by
  unfold roundHalfEven
  simp only
  split_ifs <;> omega

/-- Scaling a quotient by a power of two moves the power to one of its sides. -/
theorem roundHalfEven_scaled {num den n : Nat} (hden : 0 < den) (e : ℤ)
    (hnear : |(num : ℚ) / den / 2 ^ e - n| ≤ 1 / 2)
    (htie : |(num : ℚ) / den / 2 ^ e - n| = 1 / 2 → n % 2 = 0) :
    (if 0 ≤ e then roundHalfEven num (den * Nat.pow 2 e.toNat)
      else roundHalfEven (num * Nat.pow 2 (-e).toNat) den) = n := by
  split_ifs with he
  · obtain ⟨k, rfl⟩ := Int.eq_ofNat_of_zero_le he
    have hquotient : (num : ℚ) / (den * Nat.pow 2 (k : ℤ).toNat : ℕ) = num / den / 2 ^ (k : ℤ) := by
      rw [Int.toNat_natCast, Nat.pow_eq, zpow_natCast, div_div]
      push_cast
      rfl
    refine roundHalfEven_eq (Nat.mul_pos hden (Nat.pow_pos two_pos)) ?_ ?_ <;> rwa [hquotient]
  · obtain ⟨k, rfl⟩ : ∃ k : ℕ, e = -k := ⟨(-e).toNat, by omega⟩
    have hquotient : ((num * Nat.pow 2 (- -(k : ℤ)).toNat : ℕ) : ℚ) / den =
        num / den / 2 ^ (-(k : ℤ)) := by
      rw [neg_neg, Int.toNat_natCast, Nat.pow_eq, zpow_neg, zpow_natCast, div_inv_eq_mul]
      push_cast
      ring
    refine roundHalfEven_eq hden ?_ ?_ <;> rwa [hquotient]

end Number

namespace Binary64

open Number

/-! ### Patterns -/

/-- A whole number and an exponent that a double may have: all digits are used, unless the exponent
is the least. -/
structure IsParts (m : Nat) (q : ℤ) : Prop where
  least : -1074 ≤ q
  lt : m < 2 ^ 53
  full : q = -1074 ∨ 2 ^ 52 ≤ m

/-- The pattern without a sign. -/
def patternOf (m : Nat) (q : ℤ) : Nat := (q + 1074).toNat * 2 ^ 52 + m

variable {x : Binary64} {m num den : Nat} {q : ℤ} {negative : Bool}

theorem isParts_parts (hx : x.isFinite = true) : IsParts x.parts.1 x.parts.2 := by
  have hfield : x.magnitude / 2 ^ 52 < 2047 := by
    have hlt := of_decide_eq_true hx
    rw [infinityPattern, Nat.pow_eq] at hlt
    omega
  unfold parts
  simp only [Nat.pow_eq, Int.ofNat_eq_natCast]
  split_ifs with hzero
  · exact ⟨le_refl _, by omega, .inl rfl⟩
  · exact ⟨by omega, by omega, .inr (by omega)⟩

theorem patternOf_parts (x : Binary64) : patternOf x.parts.1 x.parts.2 = x.magnitude := by
  unfold patternOf parts
  simp only [Nat.pow_eq, Int.ofNat_eq_natCast]
  split_ifs with hzero
  · simp only
    omega
  · simp only
    omega

theorem toNat_ofPattern {p : Nat} (hp : p < 2 ^ 63) :
    (ofPattern negative p).bits.toNat = signBit negative + p := by
  have hsign : signBit negative ≤ 2 ^ 63 := by cases negative <;> decide
  rw [ofPattern, UInt64.toNat_ofNat', Nat.mod_eq_of_lt (by omega)]

theorem magnitude_ofPattern {p : Nat} (hp : p < 2 ^ 63) : (ofPattern negative p).magnitude = p := by
  rw [magnitude, toNat_ofPattern hp, Nat.pow_eq]
  cases negative <;> simp only [signBit, Nat.pow_eq] <;> norm_num <;> omega

theorem isNegative_ofPattern {p : Nat} (hp : p < 2 ^ 63) :
    (ofPattern negative p).isNegative = negative := by
  rw [isNegative, toNat_ofPattern hp, Nat.pow_eq]
  cases negative
  · simpa [signBit] using hp
  · simp [signBit]

theorem magnitude_lt (x : Binary64) : x.magnitude < 2 ^ 63 := Nat.mod_lt _ (by decide)

/-- A double is its sign and its pattern without the sign. -/
theorem ofPattern_magnitude (x : Binary64) : ofPattern x.isNegative x.magnitude = x := by
  obtain ⟨bits⟩ := x
  rw [ofPattern, mk.injEq, ← UInt64.toNat_inj, UInt64.toNat_ofNat']
  have hbits := bits.toNat_lt
  simp only [isNegative, magnitude, signBit, Nat.pow_eq, decide_eq_true_eq]
  split_ifs <;> omega

theorem neg_ofPattern {p : Nat} (hp : p < 2 ^ 63) :
    (ofPattern negative p).neg = ofPattern (!negative) p := by
  rw [neg, isNegative_ofPattern hp, magnitude_ofPattern hp]

/-- A double is its absolute value with its sign. -/
theorem signed_ofPattern (x : Binary64) :
    (if x.isNegative then (ofPattern false x.magnitude).neg else ofPattern false x.magnitude) =
      x := by
  rw [neg_ofPattern x.magnitude_lt]
  have hsame := ofPattern_magnitude x
  rcases hneg : x.isNegative
  · rwa [hneg] at hsame
  · rwa [hneg] at hsame

theorem parts_pos (hx : x.magnitude ≠ 0) : 0 < x.parts.1 := by
  unfold parts
  simp only [Nat.pow_eq]
  split_ifs with hfield
  · exact Nat.pos_of_ne_zero fun hfraction => hx (by omega)
  · exact Nat.add_pos_right _ (by decide)

theorem infinityPattern_lt : infinityPattern < 2 ^ 63 := by decide

theorem isFinite_ofPattern {p : Nat} (hp : p < infinityPattern) :
    (ofPattern negative p).isFinite = true := by
  rw [isFinite, magnitude_ofPattern (hp.trans infinityPattern_lt)]
  exact decide_eq_true hp

theorem parts_ofPattern (h : IsParts m q) (hfinite : patternOf m q < infinityPattern) :
    (ofPattern negative (patternOf m q)).parts = (m, q) := by
  obtain ⟨hleast, hlt, hfull⟩ := h
  unfold parts
  rw [magnitude_ofPattern (hfinite.trans infinityPattern_lt)]
  simp only [patternOf, Nat.pow_eq, Int.ofNat_eq_natCast]
  obtain ⟨n, hn⟩ : ∃ n : ℕ, q = n - 1074 := ⟨(q + 1074).toNat, by omega⟩
  obtain rfl := hn
  simp only [sub_add_cancel, Int.toNat_natCast]
  have hcases : n * 2 ^ 52 + m < 2 ^ 52 ∧ n = 0 ∨ 2 ^ 52 ≤ m := by omega
  obtain ⟨hsmall, rfl⟩ | hlarge := hcases
  · rw [if_pos (by omega)]
    simp only [Prod.mk.injEq]
    omega
  · rw [if_neg (by omega)]
    simp only [Prod.mk.injEq]
    omega

/-! ### Values -/

/-- The absolute value of a finite double. -/
def value (x : Binary64) : ℚ := x.parts.1 * 2 ^ x.parts.2

theorem parts_pos_of_value {n : ℕ} (h : x.value = n) (hn : 0 < n) : 0 < x.parts.1 := by
  refine Nat.pos_of_ne_zero fun hzero => ?_
  rw [value, hzero, Nat.cast_zero, zero_mul] at h
  exact hn.ne (by exact_mod_cast h)

theorem quotient_pos (x : Binary64) : 0 < x.quotient.2 := by
  unfold quotient
  simp only
  split_ifs
  · exact one_pos
  · exact Nat.pow_pos two_pos

theorem quotient_eq (x : Binary64) : (x.quotient.1 : ℚ) / x.quotient.2 = x.value := by
  unfold quotient value
  obtain ⟨m, q⟩ := x.parts
  simp only
  split_ifs with hq
  · obtain ⟨k, rfl⟩ := Int.eq_ofNat_of_zero_le hq
    simp
  · obtain ⟨k, rfl⟩ : ∃ k : ℕ, q = -k := ⟨(-q).toNat, by omega⟩
    simp [div_eq_mul_inv]

/-! ### Rounding -/

/-- The distance to the least number that rounds up, in units of the last digit: the gap below a
power of two is half as wide. -/
def gapBelow (m : Nat) (q : ℤ) : ℚ := if m = 2 ^ 52 ∧ -1074 < q then 1 / 4 else 1 / 2

/-- The number is closer to `m · 2 ^ q` than to any other double, or lies half way to another and
`m` is even. -/
structure RoundsTo (m : Nat) (q : ℤ) (v : ℚ) : Prop where
  low : (m - gapBelow m q) * 2 ^ q ≤ v
  high : v ≤ (m + 1 / 2) * 2 ^ q
  ends : v = (m - gapBelow m q) * 2 ^ q ∨ v = (m + 1 / 2) * 2 ^ q → m % 2 = 0

theorem gapBelow_le (m : Nat) (q : ℤ) : gapBelow m q ≤ 1 / 2 := by
  unfold gapBelow
  split_ifs <;> norm_num

theorem gapBelow_pos (m : Nat) (q : ℤ) : 0 < gapBelow m q := by
  unfold gapBelow
  split_ifs <;> norm_num

theorem roundsTo_self (m : Nat) (q : ℤ) : RoundsTo m q (m * 2 ^ q) := by
  have hpos : (0 : ℚ) < 2 ^ q := by positivity
  have hgap := gapBelow_pos m q
  refine ⟨?_, ?_, ?_⟩
  · gcongr
    linarith
  · gcongr
    linarith
  · rintro (heq | heq)
    · have := mul_right_cancel₀ hpos.ne' heq
      linarith
    · have := mul_right_cancel₀ hpos.ne' heq
      linarith

theorem two_zpow_add (q : ℤ) (n : ℕ) : (2 : ℚ) ^ (q + n) = 2 ^ n * 2 ^ q := by
  rw [zpow_add₀ two_ne_zero, zpow_natCast, mul_comm]

theorem RoundsTo.pos {v : ℚ} (h : RoundsTo m q v) (hm : 0 < m) : 0 < v := by
  have hmQ : (1 : ℚ) ≤ m := by exact_mod_cast hm
  have hgap := gapBelow_le m q
  refine lt_of_lt_of_le (mul_pos ?_ (by positivity)) h.low
  linarith

theorem lt_of_two_zpow_lt {a b : ℤ} (h : (2 : ℚ) ^ a < 2 ^ b) : a < b :=
  (zpow_lt_zpow_iff_right₀ (by norm_num)).1 h

section Exponent

variable {v : ℚ} {e : ℤ}

theorem RoundsTo.exponent_le (h : IsParts m q) (hv : RoundsTo m q v)
    (habove : e = -1074 ∨ 2 ^ (e + 52) ≤ v) : e ≤ q := by
  obtain hleast | hfull := habove
  · exact hleast.trans_le h.least
  · have hlt : (m : ℚ) + 1 ≤ 2 ^ 53 := by exact_mod_cast h.lt
    have hpow : (2 : ℚ) ^ (e + 52) < 2 ^ (q + (53 : ℕ)) := by
      calc (2 : ℚ) ^ (e + 52) ≤ v := hfull
        _ ≤ (m + 1 / 2) * 2 ^ q := hv.high
        _ < 2 ^ 53 * 2 ^ q := by
          gcongr
          linarith
        _ = 2 ^ (q + (53 : ℕ)) := (two_zpow_add q 53).symm
    have := lt_of_two_zpow_lt hpow
    omega

/-- What rounds to a full number of digits from below all of them rounds to a power of two. -/
theorem RoundsTo.eq_of_lt (hv : RoundsTo m q v) (hfull : 2 ^ 52 ≤ m) (hlt : v < 2 ^ 52 * 2 ^ q) :
    m = 2 ^ 52 := by
  by_contra hne
  have hmore : (2 ^ 52 : ℚ) + 1 ≤ m := by exact_mod_cast lt_of_le_of_ne hfull (Ne.symm hne)
  have hlow := lt_of_mul_lt_mul_right (hv.low.trans_lt hlt) (by positivity)
  have hgap := gapBelow_le m q
  linarith

theorem RoundsTo.le_exponent (hv : RoundsTo m q v) (hfull : 2 ^ 52 ≤ m)
    (hbelow : v < 2 ^ (e + 53)) : q - 1 ≤ e := by
  have hhalf : (2 : ℚ) ^ (q - 1 + (52 : ℕ)) < 2 ^ (e + 53) := by
    refine lt_of_le_of_lt ?_ hbelow
    calc (2 : ℚ) ^ (q - 1 + (52 : ℕ)) = 2 ^ 51 * 2 ^ q := by
          rw [show q - 1 + (52 : ℕ) = q + (51 : ℕ) by push_cast; ring, two_zpow_add]
      _ ≤ (m - gapBelow m q) * 2 ^ q := by
        have hgap := gapBelow_le m q
        have hmQ : (2 : ℚ) ^ 52 ≤ m := by exact_mod_cast hfull
        gcongr
        linarith
      _ ≤ v := hv.low
  have := lt_of_two_zpow_lt hhalf
  push_cast at this
  omega

/-- The exponent of what rounds to `m · 2 ^ q` is `q`, or the one before it just below a power of
two. -/
theorem RoundsTo.exponent_cases (h : IsParts m q) (hv : RoundsTo m q v)
    (hleast : -1074 ≤ e) (hbelow : v < 2 ^ (e + 53)) (habove : e = -1074 ∨ 2 ^ (e + 52) ≤ v) :
    e = q ∨ (e = q - 1 ∧ m = 2 ^ 52 ∧ -1074 < q ∧ v < 2 ^ 52 * 2 ^ q) := by
  have hle := hv.exponent_le h habove
  obtain rfl | hlt := hle.eq_or_lt
  · exact .inl rfl
  have hfull : 2 ^ 52 ≤ m := h.full.resolve_left (by omega)
  have hge := hv.le_exponent hfull hbelow
  have hmin : v < 2 ^ 52 * 2 ^ q := by
    refine hbelow.trans_le ?_
    rw [show (2 : ℚ) ^ 52 * 2 ^ q = 2 ^ (q + (52 : ℕ)) from (two_zpow_add q 52).symm]
    exact zpow_le_zpow_right₀ (by norm_num) (by push_cast; omega)
  exact .inr ⟨by omega, hv.eq_of_lt hfull hmin, by omega, hmin⟩

end Exponent

/-- **What rounds to a double is rounded to it.** -/
theorem nearest_eq (h : IsParts m q) (hm : 0 < m) (hden : 0 < den)
    (hv : RoundsTo m q ((num : ℚ) / den)) (hfinite : patternOf m q < infinityPattern) :
    nearest negative num den = ofPattern negative (patternOf m q) := by
  have hnum : 0 < num := by
    refine Nat.pos_of_ne_zero fun hzero => ?_
    have hpos := hv.pos hm
    rw [hzero, Nat.cast_zero, zero_div] at hpos
    exact hpos.false
  have hunit : (0 : ℚ) < 2 ^ q := by positivity
  -- the whole number that comes of the rounding, and its exponent, have the same pattern
  obtain ⟨e, n, he, hn, hpattern⟩ : ∃ e n, binaryExponent num den = e ∧
      (if 0 ≤ e then roundHalfEven num (den * Nat.pow 2 e.toNat)
        else roundHalfEven (num * Nat.pow 2 (-e).toNat) den) = n ∧
      (e + 1074).toNat * Nat.pow 2 52 + n = patternOf m q := by
    obtain ⟨hleast, hlt, hfull⟩ := binaryExponent_spec hnum hden
    obtain he | ⟨he, rfl, hq, hbelow⟩ := hv.exponent_cases h hleast hlt hfull
    · have hlow : (m : ℚ) - gapBelow m q ≤ num / den / 2 ^ q := (le_div_iff₀ hunit).2 hv.low
      have hhigh : (num : ℚ) / den / 2 ^ q ≤ m + 1 / 2 := (div_le_iff₀ hunit).2 hv.high
      have hgap := gapBelow_le m q
      refine ⟨q, m, he, roundHalfEven_scaled hden q (abs_le.2 ⟨by linarith, by linarith⟩) ?_, rfl⟩
      intro hhalf
      refine hv.ends ?_
      obtain hend | hend := (abs_eq (by norm_num)).1 hhalf
      · exact .inr ((div_eq_iff hunit.ne').1 (by linarith))
      · exact .inl ((div_eq_iff hunit.ne').1 (by linarith))
    · refine ⟨q - 1, 2 ^ 53, he, roundHalfEven_scaled hden _ ?_ (fun _ => by decide), ?_⟩
      · have hscale : (num : ℚ) / den / 2 ^ (q - 1) = num / den / 2 ^ q * 2 := by
          rw [zpow_sub_one₀ two_ne_zero, div_mul_eq_div_div, div_inv_eq_mul]
        have hlow := (le_div_iff₀ hunit).2 hv.low
        have hhigh := (div_lt_iff₀ hunit).2 hbelow
        rw [gapBelow, if_pos ⟨rfl, hq⟩] at hlow
        push_cast at hlow ⊢
        rw [hscale, abs_le]
        exact ⟨by linarith, by linarith⟩
      · rw [patternOf, Nat.pow_eq]
        omega
  rw [nearest, if_neg hnum.ne']
  simp only [he, hn, hpattern, min_eq_left hfinite.le]

/-- What is a double is rounded to itself. -/
theorem nearest_value (h : IsParts m q) (hm : 0 < m) (hden : 0 < den)
    (hv : (num : ℚ) / den = m * 2 ^ q) (hfinite : patternOf m q < infinityPattern) :
    (nearest negative num den).value = num / den ∧
      (nearest negative num den).isFinite = true := by
  rw [nearest_eq h hm hden (hv ▸ roundsTo_self m q) hfinite]
  exact ⟨by rw [value, parts_ofPattern h hfinite, hv], isFinite_ofPattern hfinite⟩

/-- What is too great for a double is rounded to infinity. -/
theorem nearest_eq_infinity {k : Nat} (hden : 0 < den) (hk : 1024 ≤ k)
    (hlarge : 2 ^ k * den ≤ num) :
    nearest negative num den = ofPattern negative infinityPattern := by
  have hnum : 0 < num := (Nat.mul_pos (Nat.pow_pos two_pos) hden).trans_le hlarge
  have hdenQ : (0 : ℚ) < den := by exact_mod_cast hden
  obtain ⟨-, hlt, hfull⟩ := binaryExponent_spec hnum hden
  have hexponent : 972 ≤ binaryExponent num den := by
    have hquotient : (2 : ℚ) ^ (k : ℤ) ≤ num / den := by
      rw [le_div_iff₀ hdenQ, zpow_natCast]
      exact_mod_cast hlarge
    have := lt_of_two_zpow_lt (hquotient.trans_lt hlt)
    omega
  obtain ⟨e, he⟩ := Int.eq_ofNat_of_zero_le (show 0 ≤ binaryExponent num den by omega)
  have hscaled : 2 ^ 52 ≤ roundHalfEven num (den * Nat.pow 2 e) := by
    refine le_trans ?_ (div_le_roundHalfEven _ _)
    have hfull := hfull.resolve_left (by omega)
    rw [he, show (e : ℤ) + 52 = (e + 52 : ℕ) by push_cast; rfl, zpow_natCast,
      le_div_iff₀ hdenQ] at hfull
    refine (Nat.le_div_iff_mul_le (Nat.mul_pos hden (Nat.pow_pos two_pos))).2 ?_
    calc 2 ^ 52 * (den * Nat.pow 2 e) = 2 ^ (e + 52) * den := by rw [Nat.pow_eq, pow_add]; ring
      _ ≤ num := by exact_mod_cast hfull
  have hpattern : infinityPattern ≤ (binaryExponent num den + 1074).toNat * Nat.pow 2 52 +
      roundHalfEven num (den * Nat.pow 2 e) := by
    rw [infinityPattern, Nat.pow_eq]
    omega
  rw [nearest, if_neg hnum.ne']
  simp only [he, Int.toNat_natCast, Int.natCast_nonneg, if_true] at hpattern ⊢
  rw [min_eq_right hpattern]

theorem isNegative_nearest (negative : Bool) (num den : Nat) :
    (nearest negative num den).isNegative = negative := by
  unfold nearest
  split_ifs
  · exact isNegative_ofPattern (by decide)
  · exact isNegative_ofPattern ((min_le_right _ _).trans_lt infinityPattern_lt)

/-- Whole numbers below `2 ^ 53` are doubles. -/
theorem value_ofInt {n : ℤ} (hn : n.natAbs < 2 ^ 53) :
    (ofInt n).value = n.natAbs ∧ (ofInt n).isFinite = true := by
  rcases Nat.eq_zero_or_pos n.natAbs with hzero | hpos
  · rw [Int.natAbs_eq_zero.1 hzero]
    have hparts : (ofInt 0).parts = (0, -1074) := by decide
    exact ⟨by simp [value, hparts], by decide⟩
  have hlog : n.natAbs.log2 ≤ 52 := by
    have := (Nat.log2_lt hpos.ne').2 hn
    omega
  obtain ⟨k, hk⟩ : ∃ k, n.natAbs.log2 + k = 52 := ⟨52 - n.natAbs.log2, by omega⟩
  have hlow : 2 ^ 52 ≤ n.natAbs * 2 ^ k := by
    rw [← hk, pow_add]
    exact Nat.mul_le_mul_right _ (Nat.log2_self_le hpos.ne')
  have hhigh : n.natAbs * 2 ^ k < 2 ^ 53 := by
    rw [show 53 = n.natAbs.log2 + 1 + k by omega, pow_add]
    exact Nat.mul_lt_mul_of_pos_right Nat.lt_log2_self (by positivity)
  have hparts : IsParts (n.natAbs * 2 ^ k) (-k) := ⟨by omega, hhigh, .inr hlow⟩
  have hvalue : (n.natAbs : ℚ) / (1 : ℕ) = (n.natAbs * 2 ^ k : ℕ) * 2 ^ (-(k : ℤ)) := by
    rw [zpow_neg, zpow_natCast]
    push_cast
    field_simp
  have hfinite : patternOf (n.natAbs * 2 ^ k) (-k) < infinityPattern := by
    rw [patternOf, infinityPattern, Nat.pow_eq]
    omega
  have hnearest : (nearest (decide (n < 0)) n.natAbs 1).value = (n.natAbs : ℚ) / (1 : ℕ) ∧
      (nearest (decide (n < 0)) n.natAbs 1).isFinite = true :=
    nearest_value hparts (by omega) one_pos hvalue hfinite
  simpa [ofInt] using hnearest

/-- The whole number that the double nearest to it is. -/
theorem wholeNumber?_ofInt {n : ℤ} (hn : n.natAbs < 2 ^ 53) : (ofInt n).wholeNumber? = some n := by
  obtain ⟨hvalue, hfinite⟩ := value_ofInt hn
  have hden := (ofInt n).quotient_pos
  have hnum : (ofInt n).quotient.1 = n.natAbs * (ofInt n).quotient.2 := by
    rw [← quotient_eq, div_eq_iff (by exact_mod_cast hden.ne')] at hvalue
    exact_mod_cast hvalue
  have hsign : (ofInt n).isNegative = decide (n < 0) := isNegative_nearest _ _ _
  have htruncated : (ofInt n).truncated = n := by
    unfold truncated
    simp only [hnum, Nat.mul_div_cancel _ hden, hsign, decide_eq_true_eq, Int.ofNat_eq_natCast]
    omega
  rw [wholeNumber?, hfinite, htruncated]
  simp only [hnum, Nat.mul_mod_left, if_true]
  rfl

end Binary64

end ServiceScaffold
