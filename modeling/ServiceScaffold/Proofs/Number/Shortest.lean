import ServiceScaffold.Number.Shortest
import ServiceScaffold.Proofs.Number.Rounding

/-!
# The shortest decimal rounds to its number

* `Number.decimalExponent_spec` : the power of ten below a number;
* `Number.Interval.holds_iff` : the interval of a double holds the decimals that round to it;
* `Number.Interval.search_spec` : the search ends on the first grid that meets the interval;
* `Number.shortest_spec` : **the shortest decimal of a double rounds to it**;
* `Number.shortest_ofInt` : that of a whole number below `2 ^ 53` is the number itself.
-/

namespace ServiceScaffold.Number

open Binary64

variable {num den m d : Nat} {q k : ℤ}

/-! ### The greatest power of ten -/

theorem decimalExponentBelow_spec {fuel down : Nat} (hdown : 0 < down)
    (habove : num * 10 ^ (down - 1) < den) (hfuel : den ≤ num * 10 ^ (down + fuel)) :
    ∃ n : ℕ, decimalExponentBelow num den fuel down = -n ∧ 0 < n ∧
      num * 10 ^ (n - 1) < den ∧ den ≤ num * 10 ^ n := by
  induction fuel generalizing down with
  | zero => exact ⟨down, rfl, hdown, habove, hfuel⟩
  | succ fuel ih =>
    rw [decimalExponentBelow]
    split_ifs with hle
    · exact ⟨down, rfl, hdown, habove, hle⟩
    · refine ih (Nat.succ_pos down) (not_le.1 hle) ?_
      rwa [Nat.add_right_comm]

/-- The power of ten below a number that is not too small. -/
theorem decimalExponent_spec (hden : 0 < den) (hsmall : ∃ n ≤ 330, den ≤ num * 10 ^ n) :
    (10 : ℚ) ^ decimalExponent num den ≤ num / den ∧
      (num : ℚ) / den < 10 ^ (decimalExponent num den + 1) := by
  have hdenQ : (0 : ℚ) < den := by exact_mod_cast hden
  unfold decimalExponent
  split_ifs with hle
  · obtain ⟨n, hn⟩ : ∃ n, (Nat.toDigits 10 (num / den)).length = n + 1 :=
      Nat.exists_eq_succ_of_ne_zero (by simp)
    have hpos : 0 < num / den := Nat.div_pos hle hden
    have hlt : num / den < 10 ^ (n + 1) :=
      (Nat.length_toDigits_le_iff (by decide) (Nat.succ_pos n)).1 hn.le
    have hge : 10 ^ n ≤ num / den := by
      rcases Nat.eq_zero_or_pos n with rfl | hn0
      · exact hpos
      · refine not_lt.1 fun hlt => ?_
        have := (Nat.length_toDigits_le_iff (by decide) hn0).2 hlt
        omega
    rw [hn, Nat.add_sub_cancel, Int.ofNat_eq_natCast]
    constructor
    · rw [zpow_natCast, le_div_iff₀ hdenQ]
      exact_mod_cast (Nat.le_div_iff_mul_le hden).1 hge
    · rw [div_lt_iff₀ hdenQ, show ((n : ℤ) + 1) = ((n + 1 : ℕ) : ℤ) by rfl, zpow_natCast]
      exact_mod_cast (Nat.div_lt_iff_lt_mul hden).1 hlt
  · have hfuel : ∀ fuel, 330 ≤ fuel → den ≤ num * 10 ^ (1 + fuel) := fun fuel hfuel => by
      obtain ⟨n, hn, hsmall⟩ := hsmall
      exact hsmall.trans (Nat.mul_le_mul_left _ (Nat.pow_le_pow_right (by decide) (by omega)))
    obtain ⟨n, hn, hpos, hlt, hge⟩ : ∃ n : ℕ, decimalExponentBelow num den 330 1 = -n ∧ 0 < n ∧
        num * 10 ^ (n - 1) < den ∧ den ≤ num * 10 ^ n :=
      decimalExponentBelow_spec one_pos (by simpa using not_le.1 hle) (hfuel 330 le_rfl)
    rw [hn]
    obtain ⟨j, rfl⟩ : ∃ j, n = j + 1 := ⟨n - 1, by omega⟩
    constructor
    · rw [zpow_neg, zpow_natCast, inv_le_iff_one_le_mul₀ (by positivity), div_mul_eq_mul_div,
        one_le_div hdenQ]
      exact_mod_cast hge
    · rw [show -((j + 1 : ℕ) : ℤ) + 1 = -(j : ℤ) by push_cast; ring, zpow_neg, zpow_natCast,
        div_lt_iff₀ hdenQ, ← div_eq_inv_mul, lt_div_iff₀ (by positivity)]
      exact_mod_cast hlt

/-! ### The interval of a double -/

namespace Interval

theorem ofParts_den_pos (m : Nat) (q : ℤ) : 0 < (ofParts m q).den := by
  unfold ofParts
  simp only
  split_ifs
  · decide
  · exact Nat.mul_pos four_pos (Nat.pow_pos two_pos)

theorem ofParts_value (m : Nat) (q : ℤ) :
    ((ofParts m q).value : ℚ) / (ofParts m q).den = m * 2 ^ q := by
  unfold ofParts
  simp only [Nat.pow_eq]
  split_ifs with hq
  · obtain ⟨n, rfl⟩ := Int.eq_ofNat_of_zero_le hq
    rw [Int.toNat_natCast, zpow_natCast]
    push_cast
    field_simp
  · obtain ⟨n, rfl⟩ : ∃ n : ℕ, q = -n := ⟨(-q).toNat, by omega⟩
    rw [neg_neg, Int.toNat_natCast, zpow_neg, zpow_natCast]
    push_cast
    field_simp

theorem ofParts_high (m : Nat) (q : ℤ) :
    ((ofParts m q).high : ℚ) / (ofParts m q).den = (m + 1 / 2) * 2 ^ q := by
  unfold ofParts
  simp only [Nat.pow_eq]
  split_ifs with hq
  · obtain ⟨n, rfl⟩ := Int.eq_ofNat_of_zero_le hq
    rw [Int.toNat_natCast, zpow_natCast]
    push_cast
    ring
  · obtain ⟨n, rfl⟩ : ∃ n : ℕ, q = -n := ⟨(-q).toNat, by omega⟩
    rw [neg_neg, Int.toNat_natCast, zpow_neg, zpow_natCast]
    push_cast
    field_simp
    ring

theorem ofParts_low (hm : 0 < m) (q : ℤ) :
    ((ofParts m q).low : ℚ) / (ofParts m q).den = (m - gapBelow m q) * 2 ^ q := by
  have hsub (unit : ℕ) : ((4 * m * unit - (if m = 2 ^ 52 ∧ -1074 < q then unit else 2 * unit) : ℕ)
      : ℚ) = (m - gapBelow m q) * (4 * unit) := by
    have hle : unit ≤ m * unit := Nat.le_mul_of_pos_left unit hm
    rw [gapBelow]
    split_ifs <;> rw [Nat.cast_sub (by rw [Nat.mul_assoc]; omega)] <;> push_cast <;> ring
  unfold ofParts
  simp only [Nat.pow_eq, hsub]
  split_ifs with hq
  · obtain ⟨n, rfl⟩ := Int.eq_ofNat_of_zero_le hq
    rw [Int.toNat_natCast, zpow_natCast]
    push_cast
    field_simp
  · obtain ⟨n, rfl⟩ : ∃ n : ℕ, q = -n := ⟨(-q).toNat, by omega⟩
    rw [neg_neg, Int.toNat_natCast, zpow_neg, zpow_natCast]
    push_cast
    field_simp

/-- The two sides of the comparisons of an interval with a decimal. -/
theorem exists_scale (i : Interval) (d : Nat) (k : ℤ) : ∃ point scale : ℕ, 0 < scale ∧
    (point : ℚ) = d * 10 ^ k * i.den * scale ∧ i.holds d k =
      if i.closed then decide (i.low * scale ≤ point) && decide (point ≤ i.high * scale)
      else decide (i.low * scale < point) && decide (point < i.high * scale) := by
  refine ⟨_, _, ?_, ?_, rfl⟩
  · split_ifs
    · exact one_pos
    · exact Nat.pow_pos (by decide)
  · split_ifs with hk
    · obtain ⟨n, rfl⟩ := Int.eq_ofNat_of_zero_le hk
      simp
    · obtain ⟨n, rfl⟩ : ∃ n : ℕ, k = -n := ⟨(-k).toNat, by omega⟩
      simp only [Nat.pow_eq, neg_neg, Int.toNat_natCast, zpow_neg, zpow_natCast]
      push_cast
      field_simp

/-- **The interval of a double** holds the decimals that round to it. -/
theorem holds_iff (hm : 0 < m) : (ofParts m q).holds d k = true ↔ RoundsTo m q (d * 10 ^ k) := by
  obtain ⟨point, scale, hscale, hpoint, hholds⟩ := exists_scale (ofParts m q) d k
  have hden : (0 : ℚ) < (ofParts m q).den := by exact_mod_cast ofParts_den_pos m q
  have hscaleQ : (0 : ℚ) < scale := by exact_mod_cast hscale
  have hunit : (0 : ℚ) < (ofParts m q).den * scale := by positivity
  have hside (a : ℕ) : (a * scale : ℕ) = (a : ℚ) / (ofParts m q).den *
      ((ofParts m q).den * scale) := by
    push_cast
    field_simp
  have hpoint' : (point : ℚ) = d * 10 ^ k * ((ofParts m q).den * scale) := by rw [hpoint]; ring
  have hlow := ofParts_low hm q
  have hhigh := ofParts_high m q
  have hclosed : (ofParts m q).closed = decide (m % 2 = 0) := rfl
  rw [hholds, hclosed]
  simp only [decide_eq_true_eq, ← Nat.cast_le (α := ℚ), ← Nat.cast_lt (α := ℚ), hside, hpoint',
    hlow, hhigh, mul_le_mul_iff_left₀ hunit, mul_lt_mul_iff_left₀ hunit]
  split_ifs with heven
  · simp only [Bool.and_eq_true, decide_eq_true_eq]
    exact ⟨fun ⟨hl, hh⟩ => ⟨hl, hh, fun _ => heven⟩, fun h => ⟨h.low, h.high⟩⟩
  · simp only [Bool.and_eq_true, decide_eq_true_eq]
    refine ⟨fun ⟨hl, hh⟩ => ⟨hl.le, hh.le, ?_⟩, fun h => ⟨h.low.lt_of_ne ?_, h.high.lt_of_ne ?_⟩⟩
    · rintro (heq | heq)
      · exact absurd heq hl.ne'
      · exact absurd heq hh.ne
    · exact fun heq => heven (h.ends (.inl heq.symm))
    · exact fun heq => heven (h.ends (.inr heq))

end Interval

/-! ### The search -/

namespace Interval

variable {i : Interval}

/-- The value of an interval in units of a power of ten. -/
theorem exists_quotient (hden : 0 < i.den) (k : ℤ) : ∃ num den : ℕ, 0 < den ∧
    (num : ℚ) / den = i.value / i.den / 10 ^ k ∧ i.onGrid? k =
      let first := if 2 * (num % den) ≤ den then num / den else num / den + 1
      let second := if first = num / den then num / den + 1 else num / den
      if i.holds first k then some first else if i.holds second k then some second else none := by
  refine ⟨_, _, ?_, ?_, rfl⟩
  · split_ifs
    · exact Nat.mul_pos hden (Nat.pow_pos (by decide))
    · exact hden
  · split_ifs with hk
    · obtain ⟨n, rfl⟩ := Int.eq_ofNat_of_zero_le hk
      simp [div_div]
    · obtain ⟨n, rfl⟩ : ∃ n : ℕ, k = -n := ⟨(-k).toNat, by omega⟩
      simp only [Nat.pow_eq, neg_neg, Int.toNat_natCast, zpow_neg, zpow_natCast]
      push_cast
      field_simp

/-- What is found on a grid lies in the interval, and not far above the value. -/
theorem onGrid?_eq_some (hden : 0 < i.den) (h : i.onGrid? k = some d) :
    i.holds d k = true ∧ (d : ℚ) ≤ i.value / i.den / 10 ^ k + 1 := by
  obtain ⟨num, den, hpos, hvalue, hgrid⟩ := exists_quotient hden k
  have hdown : ((num / den : ℕ) : ℚ) ≤ num / den := by
    rw [le_div_iff₀ (by exact_mod_cast hpos)]
    exact_mod_cast Nat.div_mul_le_self num den
  have hle : ∀ n ≤ num / den + 1, (n : ℚ) ≤ i.value / i.den / 10 ^ k + 1 := fun n hn => by
    have : (n : ℚ) ≤ (num / den + 1 : ℕ) := by exact_mod_cast hn
    push_cast at this
    rw [← hvalue]
    linarith
  rw [hgrid] at h
  simp only at h
  split_ifs at h with hfirst hsecond hfirst hsecond
  all_goals
    obtain rfl := Option.some.inj h
    exact ⟨by assumption, hle _ (by omega)⟩

/-- A grid meets the interval if the points closest to the value lie in it. -/
theorem onGrid?_isSome (hden : 0 < i.den)
    (h : ∀ d : ℕ, |(d : ℚ) - i.value / i.den / 10 ^ k| ≤ 1 / 2 → i.holds d k = true) :
    (i.onGrid? k).isSome = true := by
  obtain ⟨num, den, hpos, hvalue, hgrid⟩ := exists_quotient hden k
  have hposQ : (0 : ℚ) < den := by exact_mod_cast hpos
  have hsplit : (num : ℚ) / den = (num / den : ℕ) + (num % den : ℕ) / den := by
    rw [add_div' _ _ _ hposQ.ne', div_left_inj' hposQ.ne']
    exact_mod_cast (Nat.div_add_mod' num den).symm
  have hrest : (0 : ℚ) ≤ (num % den : ℕ) / den := by positivity
  rw [hgrid]
  simp only
  rw [if_pos (h _ ?_)]
  · rfl
  rw [← hvalue, hsplit, abs_le]
  split_ifs with hhalf
  · have : ((num % den : ℕ) : ℚ) / den ≤ 1 / 2 := by
      rw [div_le_div_iff₀ hposQ two_pos]
      exact_mod_cast by omega
    constructor <;> linarith
  · have : 1 / 2 < ((num % den : ℕ) : ℚ) / den := by
      rw [div_lt_div_iff₀ two_pos hposQ]
      exact_mod_cast by omega
    have : ((num % den : ℕ) : ℚ) / den < 1 := by
      rw [div_lt_one hposQ]
      exact_mod_cast Nat.mod_lt num hpos
    push_cast
    constructor <;> linarith

theorem search_spec {top : ℤ} {fuel places p : Nat} (hp : places ≤ p) (hp' : p ≤ places + fuel)
    (h : (i.onGrid? (top - p + 1)).isSome = true) :
    i.onGrid? (i.search top fuel places).2 = some (i.search top fuel places).1 ∧
      top - p + 1 ≤ (i.search top fuel places).2 := by
  induction fuel generalizing places with
  | zero =>
    obtain rfl : p = places := by omega
    obtain ⟨d, hd⟩ := Option.isSome_iff_exists.1 h
    simp [search, hd]
  | succ fuel ih =>
    rw [search, Int.ofNat_eq_natCast]
    rcases hgrid : i.onGrid? (top - places + 1) with _ | d
    · refine ih (Nat.lt_of_le_of_ne hp ?_) (by omega)
      rintro rfl
      rw [hgrid] at h
      cases h
    · refine ⟨hgrid, ?_⟩
      change top - p + 1 ≤ top - places + 1
      omega

end Interval

theorem dropTrailingZeros_spec {fuel : Nat} (hd : 0 < d) :
    ((dropTrailingZeros fuel d k).1 : ℚ) * 10 ^ (dropTrailingZeros fuel d k).2 = d * 10 ^ k ∧
      0 < (dropTrailingZeros fuel d k).1 ∧ (dropTrailingZeros fuel d k).1 ≤ d ∧
      k ≤ (dropTrailingZeros fuel d k).2 := by
  induction fuel generalizing d k with
  | zero => exact ⟨rfl, hd, le_rfl, le_rfl⟩
  | succ fuel ih =>
    rw [dropTrailingZeros]
    split_ifs with hzero
    · obtain ⟨e, rfl⟩ : ∃ e, d = 10 * e := ⟨d / 10, by omega⟩
      rw [Nat.mul_div_cancel_left e (by decide)]
      obtain ⟨heq, hpos, hle, hk⟩ := ih (k := k + 1) (show 0 < e by omega)
      refine ⟨?_, hpos, by omega, by omega⟩
      rw [heq, zpow_add_one₀ (by norm_num)]
      push_cast
      ring
    · exact ⟨rfl, hd, le_rfl, le_rfl⟩

/-! ### The shortest decimal -/

variable {x : Binary64}

theorem roundsTo_of_near {v : ℚ} (h : |v - m * 2 ^ q| < gapBelow m q * 2 ^ q) : RoundsTo m q v := by
  have hunit : (0 : ℚ) < 2 ^ q := by positivity
  have hgap : gapBelow m q * 2 ^ q ≤ 1 / 2 * 2 ^ q := by
    gcongr
    exact gapBelow_le m q
  obtain ⟨hlow, hhigh⟩ := abs_lt.1 h
  refine ⟨?_, ?_, ?_⟩
  · rw [sub_mul]
    linarith
  · rw [add_mul]
    linarith
  · rintro (rfl | rfl)
    · rw [sub_mul] at hlow
      linarith
    · rw [add_mul] at hhigh
      linarith

theorem quotient_small (hx : x.isFinite = true) (hm : 0 < x.parts.1) :
    ∃ n ≤ 330, x.quotient.2 ≤ x.quotient.1 * 10 ^ n := by
  have hleast := (isParts_parts hx).least
  have hpow : 2 ^ 1074 ≤ 10 ^ 330 := by decide +kernel
  refine ⟨330, le_rfl, ?_⟩
  unfold quotient
  rcases hparts : x.parts with ⟨m, q⟩
  rw [hparts] at hm hleast
  simp only [Nat.pow_eq] at hleast ⊢
  split_ifs with hq
  · exact Nat.mul_pos (Nat.mul_pos hm (by positivity)) (by positivity)
  · calc 2 ^ (-q).toNat ≤ 2 ^ 1074 := Nat.pow_le_pow_right (by decide) (by omega)
      _ ≤ 10 ^ 330 := hpow
      _ ≤ m * 10 ^ 330 := Nat.le_mul_of_pos_left _ hm

/-- Seventeen digits are enough. -/
theorem onGrid?_isSome_seventeen (hx : x.isFinite = true) (hm : 0 < x.parts.1) :
    ((Interval.ofParts x.parts.1 x.parts.2).onGrid?
      (decimalExponent x.quotient.1 x.quotient.2 - (17 : ℕ) + 1)).isSome = true := by
  obtain ⟨hlow, -⟩ := decimalExponent_spec x.quotient_pos (quotient_small hx hm)
  rw [quotient_eq] at hlow
  have hparts := isParts_parts hx
  generalize decimalExponent x.quotient.1 x.quotient.2 = top at hlow ⊢
  rw [value] at hlow
  generalize x.parts.1 = m at *
  generalize x.parts.2 = q at *
  have hunit : (0 : ℚ) < 2 ^ q := by positivity
  have hpos : (0 : ℚ) < 10 ^ (top - (17 : ℕ) + 1) := by positivity
  have hstep : 1 / 2 * (10 : ℚ) ^ (top - (17 : ℕ) + 1) < gapBelow m q * 2 ^ q := by
    have hgrid : (10 : ℚ) ^ (top - (17 : ℕ) + 1) * 10 ^ 16 = 10 ^ top := by
      rw [← zpow_natCast (10 : ℚ) 16, ← zpow_add₀ (by norm_num)]
      congr 1
      push_cast
      ring
    generalize (10 : ℚ) ^ (top - (17 : ℕ) + 1) = step at hgrid
    rw [gapBelow]
    split_ifs with hpower
    · rw [hpower.1] at hlow
      push_cast at hlow
      linarith
    · have hlt : (m : ℚ) * 2 ^ q < 2 ^ 53 * 2 ^ q := by
        gcongr
        exact_mod_cast hparts.lt
      linarith
  refine Interval.onGrid?_isSome (Interval.ofParts_den_pos m q) fun d hd => ?_
  rw [Interval.holds_iff hm]
  refine roundsTo_of_near (lt_of_le_of_lt ?_ hstep)
  rw [Interval.ofParts_value] at hd
  calc |(d : ℚ) * 10 ^ (top - (17 : ℕ) + 1) - m * 2 ^ q|
      = |(d : ℚ) - m * 2 ^ q / 10 ^ (top - (17 : ℕ) + 1)| * 10 ^ (top - (17 : ℕ) + 1) := by
        rw [← abs_of_pos hpos, ← abs_mul, abs_of_pos hpos, sub_mul, div_mul_cancel₀ _ hpos.ne']
    _ ≤ 1 / 2 * 10 ^ (top - (17 : ℕ) + 1) := by gcongr

/-- If a grid meets the interval, the shortest decimal is found on it or on a coarser one. -/
theorem exists_search {p : Nat} (hp : 1 ≤ p) (hp' : p ≤ 17)
    (h : ((Interval.ofParts x.parts.1 x.parts.2).onGrid?
      (decimalExponent x.quotient.1 x.quotient.2 - p + 1)).isSome = true) :
    ∃ d k, shortest x = dropTrailingZeros 20 d k ∧
      (Interval.ofParts x.parts.1 x.parts.2).onGrid? k = some d ∧
      decimalExponent x.quotient.1 x.quotient.2 - p + 1 ≤ k := by
  obtain ⟨hgrid, hle⟩ := Interval.search_spec hp (show p ≤ 1 + 16 from hp') h
  exact ⟨_, _, rfl, hgrid, hle⟩

/-- **The shortest decimal of a double rounds to it**, and has at most seventeen digits. -/
theorem shortest_spec (hx : x.isFinite = true) (hm : 0 < x.parts.1) :
    RoundsTo x.parts.1 x.parts.2 ((shortest x).1 * 10 ^ (shortest x).2) ∧ 0 < (shortest x).1 ∧
      (shortest x).1 ≤ 10 ^ 17 := by
  obtain ⟨d, k, hsearch, hgrid, hle⟩ :=
    exists_search (by decide) le_rfl (onGrid?_isSome_seventeen hx hm)
  have hhigh := (decimalExponent_spec x.quotient_pos (quotient_small hx hm)).2
  rw [quotient_eq] at hhigh
  obtain ⟨hholds, hfew⟩ := Interval.onGrid?_eq_some (Interval.ofParts_den_pos _ _) hgrid
  rw [Interval.holds_iff hm] at hholds
  have hd : 0 < d := by
    have := hholds.pos hm
    refine Nat.pos_of_ne_zero ?_
    rintro rfl
    simp at this
  have hdigits : d ≤ 10 ^ 17 := by
    rw [Interval.ofParts_value, ← value] at hfew
    have hscale : x.value / 10 ^ k < 10 ^ 17 := by
      rw [div_lt_iff₀ (by positivity)]
      calc x.value < 10 ^ (decimalExponent x.quotient.1 x.quotient.2 + 1) := hhigh
        _ ≤ 10 ^ ((17 : ℕ) + k) := zpow_le_zpow_right₀ (by norm_num) (by omega)
        _ = 10 ^ 17 * 10 ^ k := by rw [zpow_add₀ (by norm_num), zpow_natCast]
    have : (d : ℚ) < (10 ^ 17 + 1 : ℕ) := by
      push_cast
      linarith
    have : d < 10 ^ 17 + 1 := by exact_mod_cast this
    omega
  obtain ⟨hvalue, hpos, hmore, -⟩ := @dropTrailingZeros_spec d k 20 hd
  rw [hsearch, hvalue]
  exact ⟨hholds, hpos, hmore.trans hdigits⟩

/-- A whole number is closest to a double of this value only if it is the value. -/
theorem eq_of_roundsTo {n p : Nat} (hq : q ≤ 0) (hn : (n : ℚ) = m * 2 ^ q)
    (h : RoundsTo m q p) : p = n := by
  have hunit : (2 : ℚ) ^ q ≤ 1 := zpow_le_one_of_nonpos₀ (by norm_num) hq
  have hpos : (0 : ℚ) < 2 ^ q := by positivity
  have hgap : gapBelow m q * 2 ^ q ≤ 1 / 2 * 2 ^ q := by
    gcongr
    exact gapBelow_le m q
  have hlow := h.low
  have hhigh := h.high
  rw [sub_mul, ← hn] at hlow
  rw [add_mul, ← hn] at hhigh
  have hle : (n : ℚ) < (p + 1 : ℕ) := by push_cast; linarith
  have hge : (p : ℚ) < (n + 1 : ℕ) := by push_cast; linarith
  norm_cast at hle hge
  omega

/-- The exponent of a double below `2 ^ 53` is not positive. -/
theorem parts_exponent_nonpos (hx : x.isFinite = true) (h : x.value < 2 ^ 53) :
    x.parts.2 ≤ 0 := by
  refine not_lt.1 fun hq => ?_
  obtain hleast | hfull := (isParts_parts hx).full
  · omega
  have hunit : (2 : ℚ) ^ (1 : ℤ) ≤ 2 ^ x.parts.2 := zpow_le_zpow_right₀ (by norm_num) hq
  have hfullQ : (2 : ℚ) ^ 52 ≤ x.parts.1 := by exact_mod_cast hfull
  have hlarge : (2 : ℚ) ^ 53 ≤ x.value := by
    calc (2 : ℚ) ^ 53 = (2 : ℚ) ^ 52 * (2 : ℚ) ^ (1 : ℤ) := by norm_num
      _ ≤ (x.parts.1 : ℚ) * (2 : ℚ) ^ x.parts.2 := by gcongr
  exact absurd h (not_lt.2 hlarge)

/-- The decimal exponent of a whole number is one of a digit before the point. -/
theorem decimalExponent_of_nat {n : ℕ} (hx : x.isFinite = true) (hvalue : x.value = n)
    (hpos : 0 < n) (hn : n < 10 ^ 16) :
    ∃ top : ℕ, decimalExponent x.quotient.1 x.quotient.2 = top ∧ top ≤ 15 := by
  have hsmall := quotient_small hx (parts_pos_of_value hvalue hpos)
  obtain ⟨hlow, hhigh⟩ := decimalExponent_spec x.quotient_pos hsmall
  rw [quotient_eq, hvalue] at hlow hhigh
  generalize decimalExponent x.quotient.1 x.quotient.2 = top at *
  have hpow {a b : ℤ} (hab : (10 : ℚ) ^ a < 10 ^ b) : a < b :=
    (zpow_lt_zpow_iff_right₀ (by norm_num)).1 hab
  have hge : 0 < top + 1 := by
    refine hpow ?_
    rw [zpow_zero]
    exact lt_of_le_of_lt (by exact_mod_cast hpos) hhigh
  have hlt : top < 16 := hpow (hlow.trans_lt (by exact_mod_cast hn))
  exact ⟨top.toNat, by omega, by omega⟩

/-- The grid of whole numbers meets the interval of a whole number. -/
theorem onGrid?_isSome_zero {n : ℕ} (hvalue : x.value = n) (hm : 0 < x.parts.1) :
    ((Interval.ofParts x.parts.1 x.parts.2).onGrid? 0).isSome = true := by
  refine Interval.onGrid?_isSome (Interval.ofParts_den_pos _ _) fun d hd => ?_
  rw [Interval.ofParts_value, ← value, hvalue, zpow_zero, div_one, abs_le] at hd
  have hd' : d = n := by
    have hle : (n : ℚ) < (d + 1 : ℕ) := by push_cast; linarith
    have hge : (d : ℚ) < (n + 1 : ℕ) := by push_cast; linarith
    norm_cast at hle hge
    omega
  rw [Interval.holds_iff hm, zpow_zero, mul_one, hd', ← hvalue]
  exact roundsTo_self _ _

/-- **The shortest decimal of a whole number** below `2 ^ 53` is that number. -/
theorem shortest_ofInt {n : ℤ} (hn : n.natAbs < 2 ^ 53) (hpos : 0 < n.natAbs) :
    ∃ j : ℕ, (shortest (ofInt n)).2 = j ∧ (shortest (ofInt n)).1 * 10 ^ j = n.natAbs := by
  obtain ⟨hvalue, hx⟩ := value_ofInt hn
  generalize ofInt n = x at *
  generalize n.natAbs = n at *
  have hm : 0 < x.parts.1 := parts_pos_of_value hvalue hpos
  have hq : x.parts.2 ≤ 0 := parts_exponent_nonpos hx (by rw [hvalue]; exact_mod_cast hn)
  obtain ⟨top, htop, hfew⟩ := decimalExponent_of_nat hx hvalue hpos (hn.trans (by decide))
  have hgrid := onGrid?_isSome_zero hvalue hm
  rw [show (0 : ℤ) = top - (top + 1 : ℕ) + 1 by omega, ← htop] at hgrid
  obtain ⟨d, k, hsearch, hgrid, hle⟩ := exists_search (by omega) (by omega) hgrid
  obtain ⟨j, rfl⟩ := Int.eq_ofNat_of_zero_le (show 0 ≤ k by omega)
  have hholds := (Interval.onGrid?_eq_some (Interval.ofParts_den_pos _ _) hgrid).1
  rw [Interval.holds_iff hm] at hholds
  have hexact : d * 10 ^ j = n := by
    refine eq_of_roundsTo hq hvalue.symm ?_
    push_cast
    exact_mod_cast hholds
  have hd : 0 < d := Nat.pos_of_mul_pos_right (hexact ▸ hpos)
  -- dropping zeros changes neither the number nor the sign of its exponent
  obtain ⟨hsame, -, -, hmore⟩ := @dropTrailingZeros_spec d j 20 hd
  rw [← hsearch] at hsame hmore
  obtain ⟨j', hj'⟩ := Int.eq_ofNat_of_zero_le (show 0 ≤ (shortest x).2 by omega)
  rw [hj'] at hsame
  refine ⟨j', hj', ?_⟩
  rw [← hexact]
  exact_mod_cast hsame

end ServiceScaffold.Number
