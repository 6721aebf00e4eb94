import Mathlib.Data.List.Basic
import Mathlib.Tactic.SplitIfs
import ServiceScaffold.Text.Case

/-!
# Letters under the lower case map

Rules about the end of a word look at its last letters in lower case.  These can be told from the
word itself: every letter of ASCII but the `k`, which the Kelvin sign has for its lower case, comes
from the two letters of its name only.

* `Text.shifted_cases` : what the rows of a case map do;
* `Text.lowerChars_beyond` : what the lower case of a character beyond ASCII may be;
* `Text.eq_of_mem_lowerChars` : the characters that are in no other's lower case;
* `Text.exists_lowerChars` : the lower case of one character, as far as plain letters go;
* `Text.exists_toLower_concat` : **the last two characters of a text in lower case**, as far as
  plain letters go, are told by the last two of the text.
-/

namespace ServiceScaffold.Text

/-! ### Codes -/

theorem toNat_toLower (c : Char) :
    c.toLower.toNat = if 65 ≤ c.toNat ∧ c.toNat ≤ 90 then c.toNat + 32 else c.toNat := by
  unfold Char.toLower
  have hiff : (c.val ≥ 'A'.val ∧ c.val ≤ 'Z'.val) ↔ 65 ≤ c.toNat ∧ c.toNat ≤ 90 := Iff.rfl
  split_ifs with hval hnat hnat
  · have hle : c.val.toNat ≤ 90 := hnat.2
    change (c.val + 32).toNat = c.val.toNat + 32
    rw [UInt32.toNat_add]
    change (c.val.toNat + 32) % 4294967296 = _
    omega
  · exact absurd (hiff.1 hval) hnat
  · exact absurd (hiff.2 hnat) hval
  · rfl

theorem toNat_toUpper (c : Char) :
    c.toUpper.toNat = if 97 ≤ c.toNat ∧ c.toNat ≤ 122 then c.toNat - 32 else c.toNat := by
  unfold Char.toUpper
  have hiff : (c.val ≥ 'a'.val ∧ c.val ≤ 'z'.val) ↔ 97 ≤ c.toNat ∧ c.toNat ≤ 122 := Iff.rfl
  split_ifs with hval hnat hnat
  · have hle : 97 ≤ c.val.toNat ∧ c.val.toNat ≤ 122 := hnat
    -- the letters are moved down by adding what overflows
    change (c.val + 4294967264).toNat = c.val.toNat - 32
    rw [UInt32.toNat_add]
    change (c.val.toNat + 4294967264) % 4294967296 = _
    omega
  · exact absurd (hiff.1 hval) hnat
  · exact absurd (hiff.2 hnat) hval
  · rfl

theorem toNat_ofNat (n : Nat) : (Char.ofNat n).toNat = n ∨ (Char.ofNat n).toNat = 0 := by
  by_cases h : n.isValidChar
  · exact .inl (by rw [Char.ofNat, dif_pos h]; rfl)
  · exact .inr (by rw [Char.ofNat, dif_neg h]; rfl)

/-- A case map moves a character by the row that holds it, if there is one. -/
theorem shifted_cases (rows : List (Nat × Nat × Nat × Int)) (n : Nat) :
    shifted rows n = n ∨ ∃ row ∈ rows, row.1 ≤ n ∧ n ≤ row.2.1 ∧
      shifted rows n = (n + row.2.2.2 : Int).toNat := by
  induction rows with
  | nil => exact .inl rfl
  | cons row rows ih =>
    obtain ⟨first, last, step, shift⟩ := row
    unfold shifted
    split_ifs with hin
    · simp only [Bool.and_eq_true, decide_eq_true_eq] at hin
      exact .inr ⟨_, List.mem_cons_self, hin.1.1, hin.1.2, rfl⟩
    · obtain hself | ⟨row, hrow, hshift⟩ := ih
      · exact .inl hself
      · exact .inr ⟨row, List.mem_cons_of_mem _ hrow, hshift⟩

/-- A case map whose rows lead beyond ASCII, or from one character to the `k`. -/
theorem shifted_beyond {rows : List (Nat × Nat × Nat × Int)} {n : Nat}
    (hrows : ∀ row ∈ rows, (128 : Int) ≤ row.1 + row.2.2.2 ∨
      row.1 = row.2.1 ∧ (row.1 + row.2.2.2 : Int) = 107)
    (hn : 128 ≤ n) : 128 ≤ shifted rows n ∨ shifted rows n = 107 := by
  obtain hself | ⟨row, hmem, hfirst, hlast, hshift⟩ := shifted_cases rows n
  · exact .inl (by omega)
  · have hrow := hrows row hmem
    omega

/-- Beyond ASCII, the lower case of a character is beyond ASCII too, but for the `k` of the Kelvin
sign and the `i` of the dotted capital. -/
theorem lowerChars_beyond {c : Char} (hc : 128 ≤ c.toNat) :
    ∃ front x, lowerChars c = front ++ [x] ∧ (front = [] ∨ front = ['i']) ∧
      (128 ≤ x.toNat ∨ x = 'k' ∨ x.toNat = 0) := by
  unfold lowerChars
  rw [if_neg (by omega)]
  split_ifs with hdotted
  · exact ⟨['i'], '\u0307', rfl, .inr rfl, .inl (by decide)⟩
  · refine ⟨[], Char.ofNat (shifted toLowerRows c.toNat), rfl, .inl rfl, ?_⟩
    obtain hbeyond | hk := @shifted_beyond toLowerRows c.toNat (by decide +kernel) hc
    · obtain hcode | hcode := toNat_ofNat (shifted toLowerRows c.toNat)
      · exact .inl (by omega)
      · exact .inr (.inr hcode)
    · exact .inr (.inl (by rw [hk]))

/-- No other character has the character of code `n` in its lower case: no row of the case map leads
across it, and it is no small letter of ASCII and not the dot of the dotted capital. -/
def comesFromItself (n : Nat) : Bool :=
  n != 0 && n != 0x307 && !(97 ≤ n && n ≤ 122) &&
    toLowerRows.all fun row =>
      (n : Int) < row.1 + row.2.2.2 || (row.2.1 + row.2.2.2 : Int) < n

theorem eq_of_mem_lowerChars {c d : Char} (hd : d ∈ lowerChars c)
    (hself : comesFromItself d.toNat = true) : d = c := by
  simp only [comesFromItself, Bool.and_eq_true, Bool.or_eq_true, bne_iff_ne, Bool.not_eq_true',
    Bool.and_eq_false_iff, decide_eq_false_iff_not, decide_eq_true_eq, List.all_eq_true] at hself
  obtain ⟨⟨⟨hzero, hdot⟩, hletter⟩, hrows⟩ := hself
  unfold lowerChars at hd
  split_ifs at hd with hascii hdotted
  · obtain rfl := List.mem_singleton.1 hd
    have hlower := toNat_toLower c
    rw [← Char.toNat_inj]
    split_ifs at hlower <;> omega
  · obtain rfl | rfl : d = 'i' ∨ d = '\u0307' := by simpa using hd
    · exact absurd hletter (by decide)
    · exact absurd rfl hdot
  · obtain rfl := List.mem_singleton.1 hd
    obtain hstays | ⟨row, hrow, hfirst, hlast, hshift⟩ := shifted_cases toLowerRows c.toNat
    · rw [hstays, Char.ofNat_toNat]
    · obtain hcode | hcode := toNat_ofNat (shifted toLowerRows c.toNat)
      · have hapart := hrows row hrow
        omega
      · exact absurd hcode hzero

/-! ### Letters -/

/-- `c` is the letter `d`, in lower or in upper case. -/
def isLetter (d c : Char) : Bool := c == d || c == d.toUpper

/-- A small letter of ASCII which is the lower case of itself and of its capital only. -/
def isPlain (d : Char) : Bool := d.isLower && d != 'k'

/-- As far as plain letters go, `x` is `c` in lower case. -/
def LowersTo (c x : Char) : Prop :=
  ∀ d, isPlain d = true → (x == d) = isLetter d c ∧ isLetter d x = isLetter d c

theorem isPlain_iff {d : Char} : isPlain d = true ↔ 97 ≤ d.toNat ∧ d.toNat ≤ 122 ∧ d ≠ 'k' := by
  have hlower : d.isLower = true ↔ 97 ≤ d.toNat ∧ d.toNat ≤ 122 := by
    have hval : d.isLower = (decide (d.val ≥ 'a'.val) && decide (d.val ≤ 'z'.val)) := rfl
    rw [hval, Bool.and_eq_true, decide_eq_true_eq, decide_eq_true_eq]
    exact Iff.rfl
  rw [isPlain, Bool.and_eq_true, hlower, bne_iff_ne, and_assoc]

theorem isLetter_iff {d c : Char} : isLetter d c = true ↔ c = d ∨ c = d.toUpper := by
  simp [isLetter]

/-- No letter comes from or leads to a character beyond ASCII. -/
theorem lowersTo_beyond {c x : Char} (hc : 128 ≤ c.toNat)
    (hx : 128 ≤ x.toNat ∨ x = 'k' ∨ x.toNat = 0) : LowersTo c x := by
  intro d hd
  obtain ⟨hfirst, hlast, hk⟩ := isPlain_iff.1 hd
  have hupper := toNat_toUpper d
  rw [if_pos ⟨hfirst, hlast⟩] at hupper
  have hne : ∀ y : Char, y.toNat ≠ d.toNat → y.toNat ≠ d.toNat - 32 → isLetter d y = false := by
    intro y hlow hup
    rw [Bool.eq_false_iff, ne_eq, isLetter_iff]
    rintro (rfl | rfl)
    · exact hlow rfl
    · exact hup hupper
  have hxd : x ≠ d ∧ isLetter d x = false := by
    obtain hx | rfl | hx := hx
    · exact ⟨by rintro rfl; omega, hne x (by omega) (by omega)⟩
    · have hcode : ('k' : Char).toNat = 107 := rfl
      have hkd : ('k' : Char).toNat ≠ d.toNat := fun h => hk (Char.toNat_inj.1 h).symm
      exact ⟨Ne.symm hk, hne 'k' hkd (by omega)⟩
    · exact ⟨by rintro rfl; omega, hne x (by omega) (by omega)⟩
  rw [hxd.2, hne c (by omega) (by omega)]
  exact ⟨by simpa using hxd.1, rfl⟩

theorem lowersTo_toLower (c : Char) : LowersTo c c.toLower := by
  intro d hd
  obtain ⟨hfirst, hlast, -⟩ := isPlain_iff.1 hd
  have hlower := toNat_toLower c
  have hupper := toNat_toUpper d
  rw [if_pos ⟨hfirst, hlast⟩] at hupper
  constructor <;> rw [Bool.eq_iff_iff]
  · rw [beq_iff_eq, isLetter_iff, ← Char.toNat_inj, ← Char.toNat_inj, ← Char.toNat_inj, hupper]
    split_ifs at hlower <;> omega
  · rw [isLetter_iff, isLetter_iff, ← Char.toNat_inj, ← Char.toNat_inj, ← Char.toNat_inj,
      ← Char.toNat_inj, hupper]
    split_ifs at hlower <;> omega

/-- The lower case of a character ends in a plain letter only if the character is that letter, and
then it is nothing else. -/
theorem exists_lowerChars (c : Char) :
    ∃ front x, lowerChars c = front ++ [x] ∧ LowersTo c x ∧
      ∀ d, isPlain d = true → isLetter d c = true → front = [] := by
  by_cases hc : c.toNat < 128
  · refine ⟨[], c.toLower, ?_, lowersTo_toLower c, fun _ _ _ => rfl⟩
    rw [lowerChars, if_pos hc, List.nil_append]
  · obtain ⟨front, x, hlower, hfront, hx⟩ := lowerChars_beyond (Nat.not_lt.1 hc)
    refine ⟨front, x, hlower, lowersTo_beyond (Nat.not_lt.1 hc) hx, fun d hd hletter => ?_⟩
    obtain ⟨hfirst, hlast, -⟩ := isPlain_iff.1 hd
    have hupper := toNat_toUpper d
    rw [if_pos ⟨hfirst, hlast⟩] at hupper
    obtain rfl | rfl := isLetter_iff.1 hletter <;> omega

theorem lowerChars_ne_nil (c : Char) : lowerChars c ≠ [] := by
  obtain ⟨front, x, hlower, -, -⟩ := exists_lowerChars c
  simp [hlower]

/-! ### Texts -/

/-- A character in a text keeps to its lower case, and a sigma becomes one of two letters. -/
theorem exists_toLowerAfter_cons (before : List Char) (c : Char) (rest : List Char) :
    ∃ front x, toLowerAfter before (c :: rest) =
        front ++ x :: toLowerAfter (c :: before) rest ∧ LowersTo c x ∧
      ∀ d, isPlain d = true → isLetter d c = true → front = [] := by
  rw [toLowerAfter]
  split_ifs with hsigma hfinal
  · subst hsigma
    exact ⟨[], 'ς', rfl, lowersTo_beyond (by decide) (.inl (by decide)), fun _ _ _ => rfl⟩
  · subst hsigma
    exact ⟨[], 'σ', rfl, lowersTo_beyond (by decide) (.inl (by decide)), fun _ _ _ => rfl⟩
  · obtain ⟨front, x, hlower, hx, hfront⟩ := exists_lowerChars c
    exact ⟨front, x, by rw [hlower, List.append_assoc, List.singleton_append], hx, hfront⟩

theorem exists_toLowerAfter_append (before a b : List Char) :
    ∃ front, toLowerAfter before (a ++ b) = front ++ toLowerAfter (a.reverse ++ before) b := by
  induction a generalizing before with
  | nil => exact ⟨[], rfl⟩
  | cons c a ih =>
    obtain ⟨front, hfront⟩ := ih (c :: before)
    rw [List.cons_append, toLowerAfter, hfront, List.reverse_cons, List.append_assoc,
      ← List.append_assoc]
    exact ⟨_, rfl⟩

/-- The last two characters of a text in lower case are those of the text, as far as plain letters
go. -/
theorem exists_toLower_concat (word : List Char) (c : Char) :
    ∃ front x, toLower (word ++ [c]) = front ++ [x] ∧ LowersTo c x ∧
      ∀ d, isPlain d = true → isLetter d c = true →
        Option.Rel LowersTo word.getLast? front.getLast? := by
  obtain rfl | ⟨word, p, rfl⟩ := List.eq_nil_or_concat' word
  · obtain ⟨front, x, hc, hx, hfront⟩ := exists_toLowerAfter_cons [] c []
    refine ⟨front, x, hc, hx, fun d hd hletter => ?_⟩
    rw [hfront d hd hletter]
    exact .none
  · obtain ⟨start, hstart⟩ := exists_toLowerAfter_append [] word [p, c]
    obtain ⟨middle, y, hp, hy, -⟩ := exists_toLowerAfter_cons (word.reverse ++ []) p [c]
    obtain ⟨front, x, hc, hx, hfront⟩ := exists_toLowerAfter_cons (p :: (word.reverse ++ [])) c []
    refine ⟨start ++ middle ++ [y] ++ front, x, ?_, hx, fun d hd hletter => ?_⟩
    · rw [toLower, List.append_assoc, List.singleton_append, hstart, hp, hc]
      simp [toLowerAfter]
    · rw [hfront d hd hletter, List.append_nil, List.getLast?_concat, List.getLast?_concat]
      exact .some hy

end ServiceScaffold.Text
