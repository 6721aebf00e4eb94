import ServiceScaffold.Number.Decimal
import ServiceScaffold.Proofs.Number.Shortest

/-!
# Decimals of doubles

Digits write the whole number that they were made of, and a double is written with the digits of a
decimal that rounds to it.

* `Number.natOfDigits_digitsOf`, `Number.head?_digitsOf` : the digits of a number;
* `Number.parseDecimal?_digits` : digits are read as the double nearest to what they write;
* `Number.writtenDecimal` : the decimal that the text of a double writes;
* `Number.writtenDecimal_spec` : **it rounds to the double**, and has at most seventeen digits;
* `Number.writtenDecimal_ofInt` : the decimal of a whole number that is not too great.
-/

namespace ServiceScaffold.Number

open Binary64

/-! ### Digits -/

theorem natOfDigits_eq (cs : List Char) : natOfDigits cs = Nat.ofDigitChars 10 cs 0 := rfl

theorem natOfDigits_digitsOf (n : Nat) : natOfDigits (digitsOf n) = n := by
  rw [natOfDigits_eq]
  exact Nat.ofDigitChars_ten_toDigits

theorem isDigit_digitsOf {n : Nat} {c : Char} (h : c ∈ digitsOf n) : c.isDigit = true :=
  Nat.isDigit_of_mem_toDigits (by decide) (by decide) h

theorem natOfDigits_append (cs ds : List Char) :
    natOfDigits (cs ++ ds) = 10 ^ ds.length * natOfDigits cs + natOfDigits ds := by
  rw [natOfDigits_eq, natOfDigits_eq, natOfDigits_eq, Nat.ofDigitChars_append,
    Nat.ofDigitChars_eq_ofDigitChars_zero]

theorem natOfDigits_zeros (n : Nat) : natOfDigits (zeros n) = 0 := by
  rw [natOfDigits_eq, zeros, Nat.ofDigitChars_replicate_zero, Nat.mul_zero]

theorem lt_pow_length_digitsOf (n : Nat) : n < 10 ^ (digitsOf n).length :=
  (Nat.length_toDigits_le_iff (by decide) Nat.length_toDigits_pos).1 le_rfl

/-- The digits of a positive number do not start with a zero. -/
theorem head?_digitsOf {n : Nat} (hn : 0 < n) : (digitsOf n).head? ≠ some '0' := by
  induction n using Nat.strongRecOn with
  | ind n ih =>
    rw [digitsOf, Nat.toDigits_eq_if (by decide)]
    split_ifs with hlt
    · simp
      omega
    · rw [List.head?_append]
      have hhead := ih (n / 10) (by omega) (by omega)
      rw [digitsOf] at hhead
      rcases h : (Nat.toDigits 10 (n / 10)).head? with _ | c
      · simp at h
      · rw [h] at hhead
        simpa using hhead

theorem digitsOf_ne_nil (d : Nat) : digitsOf d ≠ [] := Nat.toDigits_ne_nil

theorem isDigit_zeros {n : Nat} {c : Char} (h : c ∈ zeros n) : c.isDigit = true := by
  rw [List.eq_of_mem_replicate h]
  rfl

theorem natOfDigits_digitsOf_zeros (d n : Nat) :
    natOfDigits (digitsOf d ++ zeros n) = d * 10 ^ n := by
  rw [natOfDigits_append, natOfDigits_digitsOf, natOfDigits_zeros, zeros, List.length_replicate]
  ring

/-! ### Whole numbers -/

theorem natOfDigits_dropWhile (ds : List Char) :
    natOfDigits (ds.dropWhile (· == '0')) = natOfDigits ds := by
  induction ds with
  | nil => rfl
  | cons d ds ih =>
    by_cases hd : d = '0'
    · subst hd
      rw [List.dropWhile_cons_of_pos (by decide), ih]
      rfl
    · rw [List.dropWhile_cons_of_neg (by simpa using hd)]

theorem pow_le_natOfDigits {d : Char} (hdigit : d.isDigit = true) (hd : d ≠ '0') (ds : List Char) :
    10 ^ ds.length ≤ natOfDigits (d :: ds) := by
  have hpos : 1 ≤ natOfDigits [d] := by
    have hcode : d.toNat ≠ '0'.toNat := fun h => hd (Char.toNat_inj.1 h)
    have hlow : '0'.toNat ≤ d.toNat := (Char.isDigit_iff_toNat.1 hdigit).1
    simp only [natOfDigits, List.foldl_cons, List.foldl_nil, digitValue]
    omega
  rw [← List.singleton_append, natOfDigits_append]
  exact le_add_right (Nat.le_mul_of_pos_right _ hpos)

/-- The decimals that are settled before any power is computed are too great for a double. -/
theorem scaledDecimal_whole {ds : List Char} (hds : ∀ c ∈ ds, c.isDigit = true) :
    scaledDecimal false ds 0 = ofInt (natOfDigits ds) := by
  have hvalue := natOfDigits_dropWhile ds
  rcases hsignificant : ds.dropWhile (· == '0') with _ | ⟨d, rest⟩
  · rw [hsignificant] at hvalue
    rw [scaledDecimal, ← hvalue, hsignificant]
    rfl
  have hd : d ≠ '0' := by
    have hhead := List.head?_dropWhile_not (· == '0') ds
    simpa [hsignificant] using hhead
  have hdigit : d.isDigit = true :=
    hds d ((List.dropWhile_suffix _).subset (hsignificant ▸ List.mem_cons_self))
  rw [hsignificant] at hvalue
  rw [scaledDecimal, hsignificant, ← hvalue, ofInt]
  simp only [List.isEmpty_cons, Bool.false_or, Int.zero_add, Int.natAbs_natCast, decide_eq_true_eq]
  rw [if_neg (by omega), if_pos le_rfl, decide_eq_false (by omega)]
  split_ifs with hlong
  · rw [List.length_cons] at hlong
    refine (nearest_eq_infinity (k := 3 * rest.length) one_pos (by omega) ?_).symm
    calc 2 ^ (3 * rest.length) * 1 = (2 ^ 3) ^ rest.length := by rw [Nat.mul_one, pow_mul]
      _ ≤ 10 ^ rest.length := Nat.pow_le_pow_left (by decide) _
      _ ≤ natOfDigits (d :: rest) := pow_le_natOfDigits hdigit hd rest
  · rw [Int.toNat_zero, Nat.pow_eq, pow_zero, Nat.mul_one]

/-- A text of digits is read as the double nearest to the number that they write. -/
theorem parseDecimal?_digits {ds : List Char} (hds : ∀ c ∈ ds, c.isDigit = true) (hne : ds ≠ []) :
    parseDecimal? ds = some (ofInt (natOfDigits ds)) := by
  obtain ⟨d, rest, rfl⟩ := List.exists_cons_of_ne_nil hne
  have hd := hds d List.mem_cons_self
  have hother : ∀ c : Char, c.isDigit = false → d ≠ c := by
    rintro c hc rfl
    rw [hd] at hc
    cases hc
  have hsign : spanSign (d :: rest) = (false, d :: rest) := by
    simp [spanSign, hother '-' rfl, hother '+' rfl]
  have hlower : d.toLower = d := by
    refine dif_neg fun hupper => ?_
    exact absurd (le_trans hupper.1 (Char.isDigit_iff_toNat.1 hd).2) (by decide)
  have hspan : spanDigits (d :: rest) = (d :: rest, []) := by
    rw [spanDigits, ← List.append_nil (d :: rest), List.takeWhile_append_of_pos hds,
      List.dropWhile_append_of_pos hds]
    rfl
  rw [parseDecimal?, hsign]
  simp [hlower, hother 'i' rfl, hother 'n' rfl, hspan, parseExponent?, scaledDecimal_whole hds]

/-! ### Decimals -/

/-- Whole number and exponent of the decimal that the text of a double writes: those of the shortest
decimal, with the zeros up to the point and one behind it if the number is whole and written
without an exponent. -/
def writtenDecimal (x : Binary64) : Nat × Int :=
  if x.magnitude = 0 then (0, -1)
  else
    let (d, k) := shortest x
    if 0 ≤ k ∧ (digitsOf d).length + k ≤ 16 then (d * 10 ^ (k.toNat + 1), -1) else (d, k)

variable {x : Binary64}

theorem writtenDecimal_whole (hx : x.magnitude ≠ 0)
    (h : 0 ≤ (shortest x).2 ∧ (digitsOf (shortest x).1).length + (shortest x).2 ≤ 16) :
    writtenDecimal x = ((shortest x).1 * 10 ^ ((shortest x).2.toNat + 1), -1) := by
  rw [writtenDecimal, if_neg hx]
  exact if_pos h

theorem writtenDecimal_shortest (hx : x.magnitude ≠ 0)
    (h : ¬(0 ≤ (shortest x).2 ∧ (digitsOf (shortest x).1).length + (shortest x).2 ≤ 16)) :
    writtenDecimal x = shortest x := by
  rw [writtenDecimal, if_neg hx]
  exact if_neg h

/-- **The decimal that a double is written as rounds to it**, and has at most seventeen digits. -/
theorem writtenDecimal_spec (hx : x.isFinite = true) (hzero : x.magnitude ≠ 0) :
    RoundsTo x.parts.1 x.parts.2 ((writtenDecimal x).1 * 10 ^ (writtenDecimal x).2) ∧
      0 < (writtenDecimal x).1 ∧ (writtenDecimal x).1 ≤ 10 ^ 17 := by
  obtain ⟨hrounds, hpos, hle⟩ := shortest_spec hx (parts_pos hzero)
  by_cases hwhole : 0 ≤ (shortest x).2 ∧ (digitsOf (shortest x).1).length + (shortest x).2 ≤ 16
  · rw [writtenDecimal_whole hzero hwhole]
    generalize shortest x = decimal at *
    obtain ⟨d, k⟩ := decimal
    simp only at *
    obtain ⟨j, rfl⟩ := Int.eq_ofNat_of_zero_le hwhole.1
    rw [Int.toNat_natCast]
    refine ⟨?_, by positivity, ?_⟩
    · have hsame : ((d * 10 ^ (j + 1) : ℕ) : ℚ) * 10 ^ (-1 : ℤ) = d * 10 ^ (j : ℤ) := by
        rw [zpow_neg_one, zpow_natCast]
        push_cast
        ring
      rwa [hsame]
    · calc d * 10 ^ (j + 1) ≤ 10 ^ (digitsOf d).length * 10 ^ (j + 1) :=
            Nat.mul_le_mul_right _ (lt_pow_length_digitsOf d).le
        _ = 10 ^ ((digitsOf d).length + (j + 1)) := (pow_add ..).symm
        _ ≤ 10 ^ 17 := Nat.pow_le_pow_right (by decide) (by omega)
  · rw [writtenDecimal_shortest hzero hwhole]
    exact ⟨hrounds, hpos, hle⟩

/-- A whole number is written with one zero behind its point if ten times the number is below
`2 ^ 53`. -/
theorem writtenDecimal_ofInt {n : ℤ} (hn : 10 * n.natAbs < 2 ^ 53)
    (hzero : (ofInt n).magnitude ≠ 0) : writtenDecimal (ofInt n) = (10 * n.natAbs, -1) := by
  have hpos : 0 < n.natAbs := by
    refine Nat.pos_of_ne_zero fun h => hzero ?_
    rw [Int.natAbs_eq_zero.1 h]
    decide
  obtain ⟨j, hj, heq⟩ := shortest_ofInt (by omega) hpos
  have hlength : (digitsOf (shortest (ofInt n)).1).length + (j : ℤ) ≤ 16 := by
    generalize (shortest (ofInt n)).1 = d at heq
    have hj : j < 16 := by
      refine (Nat.pow_lt_pow_iff_right (show 1 < 10 by decide)).1 ?_
      have hd : 0 < d := Nat.pos_of_mul_pos_right (heq ▸ hpos)
      have := Nat.le_mul_of_pos_left (10 ^ j) hd
      omega
    have hd : d < 10 ^ (16 - j) := by
      refine Nat.lt_of_mul_lt_mul_right (a := 10 ^ j) ?_
      rw [heq, ← pow_add, Nat.sub_add_cancel hj.le]
      omega
    have := (Nat.length_toDigits_le_iff (by decide) (by omega)).2 hd
    rw [digitsOf]
    omega
  have hwritten := writtenDecimal_whole hzero (by rw [hj]; exact ⟨Int.natCast_nonneg j, hlength⟩)
  rwa [hj, Int.toNat_natCast, pow_succ, ← Nat.mul_assoc, heq, Nat.mul_comm] at hwritten

end ServiceScaffold.Number
