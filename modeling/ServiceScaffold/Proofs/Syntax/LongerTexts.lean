import ServiceScaffold.Proofs.Syntax.Tokens

/-!
# Tokens of longer texts

A blank or a semicolon ends every token before it.  Whatever stands behind one, the token at the
start of a text is the same, so that texts can be cut there and read piece by piece.

* `endsToken` : a text before which every token ends;
* `endsName` : a text before which every name ends;
* `Token.ofText_append` : **the token at the start of a longer text is the one at the start of the
  text**;
* `isName_of_word`, `IsName.between` : words are names by themselves, and as parts of longer names;
* `Token.ofText_lt` : a token takes at least one character.
-/

namespace ServiceScaffold.Syntax

/-! ### Texts that end tokens -/

/-- Every token before the text ends there: the text starts with a blank or a semicolon. -/
def endsToken : List Char → Bool
  | [] => true
  | c :: _ => isSpace c || c == ';'

/-- Every name before the text ends there. -/
def endsName : List Char → Bool
  | [] => true
  | c :: _ => !isNameChar c && !(['\\', '\x7b', '\x7d'].contains c)

/-- The numbers of the characters that end every token before them. -/
theorem toNat_of_ends {c : Char} (h : (isSpace c || c == ';') = true) :
    c.toNat ≤ 32 ∨ c.toNat = 59 ∨ 160 ≤ c.toNat := by
  obtain hspace | hmark := (Bool.or_eq_true _ _).mp h
  · simp only [isSpace, isAsciiSpace, Bool.or_eq_true, Bool.and_eq_true, beq_iff_eq,
      decide_eq_true_eq] at hspace
    by_cases hblank : c = ' '
    · subst hblank
      exact .inl (by decide)
    · simp only [hblank, false_or] at hspace
      omega
  · obtain rfl := beq_iff_eq.1 hmark
    exact .inr (.inl rfl)

theorem isNameChar_of_ends {c : Char} (h : (isSpace c || c == ';') = true) :
    isNameChar c = false := by
  obtain hspace | hmark := (Bool.or_eq_true _ _).mp h
  · simp [isNameChar, hspace]
  · obtain rfl := beq_iff_eq.1 hmark
    decide

theorem isDigit_of_ends {c : Char} (h : (isSpace c || c == ';') = true) : c.isDigit = false := by
  have hrange := toNat_of_ends h
  rw [Bool.eq_false_iff]
  intro hdigit
  simp only [Char.isDigit, Bool.and_eq_true, decide_eq_true_eq] at hdigit
  have hlow : 48 ≤ c.toNat := hdigit.1
  have hhigh : c.toNat ≤ 57 := hdigit.2
  omega

/-- The test for hexadecimal digits in an escape. -/
abbrev isHex (c : Char) : Bool := (Number.hexValue? c).isSome

theorem toNat_of_isHex {c : Char} (h : isHex c = true) : c.toNat < 128 := by
  by_contra hlarge
  have hdigit : c.isDigit = false := by
    rw [Bool.eq_false_iff]
    intro hdigit
    simp only [Char.isDigit, Bool.and_eq_true, decide_eq_true_eq] at hdigit
    have hhigh : c.toNat ≤ 57 := hdigit.2
    omega
  have hlower : ¬('a' ≤ c ∧ c ≤ 'f') := by
    rintro ⟨-, hhigh⟩
    have hhigh : c.toNat ≤ 102 := hhigh
    omega
  have hupper : ¬('A' ≤ c ∧ c ≤ 'F') := by
    rintro ⟨-, hhigh⟩
    have hhigh : c.toNat ≤ 70 := hhigh
    omega
  simp [isHex, Number.hexValue?, hdigit, hlower, hupper] at h

theorem isNameChar_of_isHex {c : Char} (h : isHex c = true) : isNameChar c = true := by
  have hsmall : ∀ n < 128, isHex (Char.ofNat n) = true → isNameChar (Char.ofNat n) = true := by
    decide +kernel
  have hc := toNat_of_isHex h
  rw [← Char.ofNat_toNat c] at h ⊢
  exact hsmall _ hc h

theorem isHex_of_ends {c : Char} (h : (isSpace c || c == ';') = true) : isHex c = false := by
  rw [Bool.eq_false_iff]
  exact fun hhex => absurd (isNameChar_of_isHex hhex) (by simp [isNameChar_of_ends h])

section Longer

variable {k : List Char}

theorem ne_of_endsToken {c d : Char} (hk : endsToken (c :: k) = true)
    (hd : (isSpace d || d == ';') = false) : c ≠ d := by
  rintro rfl
  exact absurd (hd.symm.trans hk) (by decide)

/-- A character that ends no token does not start a text that ends every token. -/
theorem head?_ne_of_endsToken (hk : endsToken k = true) {c : Char}
    (hc : (isSpace c || c == ';') = false) : k.head? ≠ some c := by
  rcases k with _ | ⟨d, k⟩
  · simp
  · simpa using ne_of_endsToken hk hc

theorem takeWhile_append_of_ends {p : Char → Bool} (hk : ∀ c ∈ k.head?, p c = false)
    (cs : List Char) : (cs ++ k).takeWhile p = cs.takeWhile p := by
  induction cs with
  | nil =>
    rcases k with _ | ⟨c, k⟩
    · rfl
    · rw [List.nil_append, List.takeWhile_cons_of_neg (by simp [hk c rfl]), List.takeWhile_nil]
  | cons c cs ih =>
    rw [List.cons_append, List.takeWhile_cons, List.takeWhile_cons, ih]

theorem dropWhile_append_of_ends {p : Char → Bool} (hk : ∀ c ∈ k.head?, p c = false)
    (cs : List Char) : (cs ++ k).dropWhile p = cs.dropWhile p ++ k := by
  induction cs with
  | nil =>
    rcases k with _ | ⟨c, k⟩
    · rfl
    · exact List.dropWhile_cons_of_neg (by simp [hk c rfl])
  | cons c cs ih =>
    rw [List.cons_append, List.dropWhile_cons, List.dropWhile_cons]
    split_ifs
    · exact ih
    · rfl

/-! ### Longer names -/

theorem nameEscape?_of_ne {cs : List Char} (h : cs.head? ≠ some '\\') : nameEscape? cs = none := by
  unfold nameEscape?
  split
  · exact absurd rfl h
  · exact absurd rfl h
  · rfl

theorem isHex_of_endsName (hk : endsName k = true) : ∀ c ∈ k.head?, isHex c = false := by
  rcases k with _ | ⟨c, k⟩
  · simp
  · rintro d hd
    obtain rfl := Option.some.inj hd
    simp only [endsName, Bool.and_eq_true, Bool.not_eq_true'] at hk
    rw [Bool.eq_false_iff]
    exact fun h => absurd (isNameChar_of_isHex h) (by simp [hk.1])

/-- Neither a character of a name nor one of an escape starts a text that ends every name. -/
theorem head?_ne_of_endsName (hk : endsName k = true) {c : Char}
    (hc : (isNameChar c || ['\\', '\x7b', '\x7d'].contains c) = true) : k.head? ≠ some c := by
  rcases k with _ | ⟨d, k⟩
  · simp
  · intro heq
    obtain rfl := Option.some.inj heq
    simp only [endsName, Bool.and_eq_true, Bool.not_eq_true'] at hk
    rw [hk.1, hk.2] at hc
    cases hc

theorem endsName_of_endsToken (hk : endsToken k = true) : endsName k = true := by
  rcases k with _ | ⟨c, k⟩
  · rfl
  · have hmarks : ['\\', '\x7b', '\x7d'].contains c = false := by
      have hbackslash : c ≠ '\\' := ne_of_endsToken hk (by decide)
      have hopen : c ≠ '\x7b' := ne_of_endsToken hk (by decide)
      have hclose : c ≠ '\x7d' := ne_of_endsToken hk (by decide)
      simp [hbackslash, hopen, hclose]
    rw [endsName, isNameChar_of_ends hk, hmarks]
    rfl

theorem nameEscape?_hex {cs : List Char} (hbrace : cs.head? ≠ some '\x7b') :
    nameEscape? ('\\' :: 'u' :: cs) = if (cs.take 4).length = 4 ∧ (cs.take 4).all isHex = true then
      some ('\\' :: 'u' :: cs.take 4, cs.drop 4) else none := by
  rcases cs with _ | ⟨a, _ | ⟨b, _ | ⟨c, _ | ⟨d, cs⟩⟩⟩⟩
  · rfl
  · have ha : a ≠ '\x7b' := fun ha => hbrace (ha ▸ rfl)
    simp [nameEscape?, ha]
  · have ha : a ≠ '\x7b' := fun ha => hbrace (ha ▸ rfl)
    simp [nameEscape?, ha]
  · have ha : a ≠ '\x7b' := fun ha => hbrace (ha ▸ rfl)
    simp [nameEscape?, ha]
  · have ha : a ≠ '\x7b' := fun ha => hbrace (ha ▸ rfl)
    simp [nameEscape?]

theorem nameEscape?_brace (cs : List Char) :
    nameEscape? ('\\' :: 'u' :: '\x7b' :: cs) = match cs.dropWhile isHex with
      | '\x7d' :: rest => if (cs.takeWhile isHex).isEmpty then none
        else some ("\\u\x7b".toList ++ cs.takeWhile isHex ++ ['\x7d'], rest)
      | _ => none := rfl

/-- The digits of an escape in braces end before the longer text does. -/
theorem nameEscape?_brace_append (hk : endsName k = true) (cs : List Char) :
    nameEscape? ('\\' :: 'u' :: '\x7b' :: (cs ++ k)) =
      (nameEscape? ('\\' :: 'u' :: '\x7b' :: cs)).map fun (escape, rest) => (escape, rest ++ k) := by
  simp only [nameEscape?_brace, takeWhile_append_of_ends (isHex_of_endsName hk),
    dropWhile_append_of_ends (isHex_of_endsName hk)]
  rcases cs.dropWhile isHex with _ | ⟨a, rest⟩
  · rcases k with _ | ⟨a, k⟩
    · rfl
    · have ha : a ≠ '\x7d' := fun ha =>
        head?_ne_of_endsName hk (c := '\x7d') (by decide) (ha ▸ rfl)
      simp [ha]
  · by_cases ha : a = '\x7d'
    · subst ha
      dsimp only [List.cons_append]
      split_ifs <;> rfl
    · simp [ha]

/-- The character after a shorter text is no digit. -/
theorem not_four_digits_append (hk : endsName k = true) {cs : List Char} (hlength : cs.length < 4) :
    ¬(((cs ++ k).take 4).length = 4 ∧ ((cs ++ k).take 4).all isHex = true) := by
  rintro ⟨hfour, hall⟩
  rcases k with _ | ⟨a, k⟩
  · simp only [List.append_nil, List.length_take] at hfour
    omega
  · have hmem : a ∈ (cs ++ a :: k).take 4 := by
      rw [List.take_append]
      obtain ⟨n, hn⟩ := Nat.exists_eq_succ_of_ne_zero (show 4 - cs.length ≠ 0 by omega)
      simp [hn]
    exact absurd (List.all_eq_true.1 hall a hmem) (by simp [isHex_of_endsName hk a rfl])

theorem nameEscape?_hex_append (hk : endsName k = true) {cs : List Char}
    (hbrace : cs.head? ≠ some '\x7b') :
    nameEscape? ('\\' :: 'u' :: (cs ++ k)) =
      (nameEscape? ('\\' :: 'u' :: cs)).map fun (escape, rest) => (escape, rest ++ k) := by
  have hbrace' : (cs ++ k).head? ≠ some '\x7b' := by
    rcases cs with _ | ⟨a, cs⟩
    · exact head?_ne_of_endsName hk (by decide)
    · exact hbrace
  rw [nameEscape?_hex hbrace, nameEscape?_hex hbrace']
  by_cases hlength : 4 ≤ cs.length
  · rw [List.take_append_of_le_length hlength, List.drop_append_of_le_length hlength]
    split_ifs <;> rfl
  · have hshort : ¬((cs.take 4).length = 4 ∧ (cs.take 4).all isHex = true) := by
      simp only [List.length_take]
      omega
    rw [if_neg hshort, if_neg (not_four_digits_append hk (Nat.lt_of_not_le hlength))]
    rfl

/-- An escape at the start of a longer text is one at the start of the text. -/
theorem nameEscape?_append (hk : endsName k = true) (cs : List Char) :
    nameEscape? (cs ++ k) = (nameEscape? cs).map fun (escape, rest) => (escape, rest ++ k) := by
  rcases cs with _ | ⟨c, cs⟩
  · rw [List.nil_append, nameEscape?_of_ne (head?_ne_of_endsName hk (by decide))]
    rfl
  by_cases hc : c = '\\'
  swap
  · rw [nameEscape?_of_ne (by simp [hc]), nameEscape?_of_ne (by simp [hc])]
    rfl
  subst hc
  rcases cs with _ | ⟨d, cs⟩
  · have hu : ∀ more, k ≠ 'u' :: more := fun more h =>
      head?_ne_of_endsName hk (c := 'u') (by decide) (h ▸ rfl)
    have hnone : nameEscape? ('\\' :: k) = none := by
      unfold nameEscape?
      split
      · rename_i heq
        exact absurd (List.cons.inj heq).2 (hu _)
      · rename_i heq
        exact absurd (List.cons.inj heq).2 (hu _)
      · rfl
    exact hnone
  by_cases hd : d = 'u'
  swap
  · simp [nameEscape?, hd]
  subst hd
  by_cases hbrace : cs.head? = some '\x7b'
  · obtain ⟨cs, rfl⟩ : ∃ rest, cs = '\x7b' :: rest := by
      rcases cs with _ | ⟨a, rest⟩
      · cases hbrace
      · obtain rfl := Option.some.inj hbrace
        exact ⟨rest, rfl⟩
    exact nameEscape?_brace_append hk cs
  · exact nameEscape?_hex_append hk hbrace

theorem nameEscape?_ne_nil {cs escape rest : List Char}
    (h : nameEscape? cs = some (escape, rest)) : escape ≠ [] := by
  unfold nameEscape? at h
  split at h
  · dsimp only at h
    split at h
    · split_ifs at h
      obtain ⟨rfl, -⟩ := Prod.mk.inj (Option.some.inj h)
      simp
    · cases h
  · split_ifs at h
    obtain ⟨rfl, -⟩ := Prod.mk.inj (Option.some.inj h)
    simp
  · cases h

/-- What of a longer text belongs to a name is what belongs to it in the text. -/
theorem nameTail_append (hk : endsName k = true) {fuel fuel' : Nat} {cs : List Char}
    (hfuel : cs.length ≤ fuel) (hfuel' : cs.length ≤ fuel') :
    nameTail fuel' (cs ++ k) = ((nameTail fuel cs).1, (nameTail fuel cs).2 ++ k) := by
  have hend : ∀ n, nameTail n k = ([], k) := by
    intro n
    rcases n with _ | n
    · rfl
    rcases k with _ | ⟨c, k⟩
    · rfl
    · have hescape : nameEscape? (c :: k) = none :=
        nameEscape?_of_ne (head?_ne_of_endsName hk (by decide))
      have hchar : isNameChar c = false := by
        simp only [endsName, Bool.and_eq_true, Bool.not_eq_true'] at hk
        exact hk.1
      simp [nameTail, hchar, hescape]
  induction fuel generalizing fuel' cs with
  | zero =>
    obtain rfl := List.eq_nil_of_length_eq_zero (Nat.le_zero.1 hfuel)
    exact hend _
  | succ fuel ih =>
    rcases cs with _ | ⟨c, cs⟩
    · exact hend _
    rw [List.length_cons] at hfuel hfuel'
    obtain ⟨fuel', rfl⟩ := Nat.exists_eq_succ_of_ne_zero (show fuel' ≠ 0 by omega)
    have hlonger := nameEscape?_append hk (c :: cs)
    rw [List.cons_append] at hlonger ⊢
    rw [nameTail, nameTail]
    by_cases hc : isNameChar c = true
    · rw [if_pos hc, if_pos hc, ih (by omega) (by omega)]
    · rw [if_neg hc, if_neg hc, hlonger]
      rcases hescape : nameEscape? (c :: cs) with _ | ⟨escape, rest⟩
      · rfl
      · have hlength := congrArg List.length (nameEscape?_eq hescape).1
        have hne := List.length_pos_iff.2 (nameEscape?_ne_nil hescape)
        rw [List.length_cons, List.length_append] at hlength
        simp only [Option.map_some]
        rw [ih (by omega) (by omega)]

/-- A name at the start of a longer text is one at the start of the text. -/
theorem name?_append (hk : endsName k = true) {cs : List Char} (hcs : cs ≠ []) :
    name? (cs ++ k) = (name? cs).map fun (name, rest) => (name, rest ++ k) := by
  rcases cs with _ | ⟨c, cs⟩
  · exact absurd rfl hcs
  have hescape : (nameEscape? (c :: (cs ++ k))).isSome = (nameEscape? (c :: cs)).isSome := by
    have hlonger := nameEscape?_append hk (c :: cs)
    rw [List.cons_append] at hlonger
    rw [hlonger, Option.isSome_map]
  rw [List.cons_append, name?, name?, hescape]
  split_ifs
  · have htail : nameTail ((cs ++ k).length + 1) (c :: cs ++ k) = _ :=
      nameTail_append hk (show (c :: cs).length ≤ cs.length + 1 from Nat.le_refl _) (by simp)
    rw [← List.cons_append, htail]
    rfl
  · rfl

/-! ### Longer numbers -/

theorem digitRun_append (hk : endsToken k = true) {p : Char → Bool}
    (hp : ∀ c, (isSpace c || c == ';') = true → p c = false) (after : Bool) (cs : List Char) :
    digitRun p after (cs ++ k) = digitRun p after cs ++ k := by
  fun_induction digitRun p after cs with
  | case1 after =>
    rcases k with _ | ⟨c, k⟩
    · rfl
    · have hunder : c ≠ '_' := ne_of_endsToken hk (by decide)
      rw [List.nil_append, digitRun.eq_def]
      simp [hp c hk, hunder]
  | case2 after c cs hc ih =>
    rw [List.cons_append, digitRun.eq_def]
    simp only [hc, if_true, ih]
  | case3 after d rest hboth hd ih =>
    rw [List.cons_append, List.cons_append, digitRun.eq_def]
    simp only [hd, hboth, if_true, ih]
    rfl
  | case4 after d rest hboth hd =>
    rw [List.cons_append, List.cons_append, digitRun.eq_def]
    simp only [hd, hboth]
    rfl
  | case5 after c cs hc hno =>
    rw [List.cons_append, digitRun.eq_def]
    simp only [if_neg hc]
    rcases cs with _ | ⟨d, cs⟩
    · -- a digit after the underscore would stand in the longer text only
      rcases k with _ | ⟨d, k⟩
      · split <;> simp_all
      · rw [List.nil_append]
        split
        · rename_i heq
          obtain ⟨rfl, rfl⟩ := List.cons.inj heq
          simp [hp _ hk]
        · rfl
    · rw [List.cons_append]
      split
      · exact absurd rfl (hno d cs rfl)
      · rfl

theorem decimalRun?_append (hk : endsToken k = true) (cs : List Char) :
    decimalRun? (cs ++ k) = (decimalRun? cs).map (· ++ k) := by
  rcases cs with _ | ⟨c, cs⟩
  · rcases k with _ | ⟨c, k⟩
    · rfl
    · simp [decimalRun?, isDigit_of_ends hk]
  · have hrun := digitRun_append hk (fun c => isDigit_of_ends) false (c :: cs)
    rw [List.cons_append] at hrun
    rw [List.cons_append, decimalRun?, decimalRun?, hrun]
    split_ifs <;> rfl

theorem spanSign_append (hk : endsToken k = true) (cs : List Char) :
    (Number.spanSign (cs ++ k)).2 = (Number.spanSign cs).2 ++ k := by
  rcases cs with _ | ⟨c, cs⟩
  · rcases k with _ | ⟨c, k⟩
    · rfl
    · have hminus : c ≠ '-' := ne_of_endsToken hk (by decide)
      have hplus : c ≠ '+' := ne_of_endsToken hk (by decide)
      simp [Number.spanSign, hminus, hplus]
  · by_cases hminus : c = '-'
    · subst hminus
      rfl
    · by_cases hplus : c = '+'
      · subst hplus
        rfl
      · simp [Number.spanSign, hminus, hplus]

theorem exponentTail_append (hk : endsToken k = true) (cs : List Char) :
    exponentTail (cs ++ k) = exponentTail cs ++ k := by
  rcases cs with _ | ⟨c, cs⟩
  · rcases k with _ | ⟨c, k⟩
    · rfl
    · have hne : ¬(c = 'e' ∨ c = 'E') :=
        not_or.2 ⟨ne_of_endsToken hk (by decide), ne_of_endsToken hk (by decide)⟩
      simp [exponentTail, hne]
  · rw [List.cons_append, exponentTail, exponentTail, spanSign_append hk, decimalRun?_append hk]
    split_ifs
    · rcases decimalRun? (Number.spanSign cs).2 with _ | rest <;> rfl
    · rfl

theorem bigTail_append (hk : endsToken k = true) (cs : List Char) :
    bigTail (cs ++ k) = bigTail cs ++ k := by
  rcases cs with _ | ⟨c, cs⟩
  · rcases k with _ | ⟨c, k⟩
    · rfl
    · have hne : c ≠ 'n' := ne_of_endsToken hk (by decide)
      simp [bigTail, hne]
  · by_cases hc : c = 'n'
    · subst hc
      rfl
    · simp [bigTail, hc]

theorem baseRun?_append (hk : endsToken k = true) {p : Char → Bool}
    (hp : ∀ c, (isSpace c || c == ';') = true → p c = false) (cs : List Char) :
    baseRun? p (cs ++ k) = (baseRun? p cs).map (· ++ k) := by
  rcases cs with _ | ⟨c, cs⟩
  · rcases k with _ | ⟨c, k⟩
    · rfl
    · simp [baseRun?, hp c hk]
  · have hrun := digitRun_append hk hp false (c :: cs)
    rw [List.cons_append] at hrun
    rw [List.cons_append, baseRun?, baseRun?, hrun, bigTail_append hk]
    split_ifs <;> rfl

/-- The part of a number after the mark of a base. -/
def basedTail? (cs : List Char) : Option (List Char) :=
  match cs with
  | '0' :: x :: rest =>
    if x = 'x' ∨ x = 'X' then baseRun? (fun c => (Number.hexValue? c).isSome) rest
    else if x = 'o' ∨ x = 'O' then baseRun? (fun c => '0' ≤ c && c ≤ '7') rest
    else if x = 'b' ∨ x = 'B' then baseRun? (fun c => c == '0' || c == '1') rest
    else none
  | _ => none

/-- What follows the digits before the point of a number. -/
def fractionTail (cs : List Char) : List Char :=
  match cs with
  | '.' :: more => exponentTail ((decimalRun? more).getD more)
  | 'n' :: more => more
  | _ => exponentTail cs

/-- The rest after a number without a base. -/
def plainTail? (cs : List Char) : Option (List Char) :=
  match cs with
  | '.' :: rest => (decimalRun? rest).map exponentTail
  | _ => (decimalRun? cs).map fractionTail

theorem number?_eq (cs : List Char) :
    number? cs = (basedTail? cs).orElse fun _ => plainTail? cs := by
  unfold number? basedTail? plainTail? fractionTail
  rfl

theorem basedTail?_append (hk : endsToken k = true) (cs : List Char) :
    basedTail? (cs ++ k) = (basedTail? cs).map (· ++ k) := by
  rcases cs with _ | ⟨c, cs⟩
  · rcases k with _ | ⟨c, k⟩
    · rfl
    · have hzero : c ≠ '0' := ne_of_endsToken hk (by decide)
      simp [basedTail?, hzero]
  by_cases hc : c = '0'
  swap
  · simp [basedTail?, hc]
  subst hc
  rcases cs with _ | ⟨x, cs⟩
  · rcases k with _ | ⟨x, k⟩
    · rfl
    · have hx : ∀ letter, (isSpace letter || letter == ';') = false → x ≠ letter :=
        fun letter => ne_of_endsToken hk
      simp [basedTail?, hx 'x', hx 'X', hx 'o', hx 'O', hx 'b', hx 'B', isSpace, isAsciiSpace]
  · have hhex := baseRun?_append hk (p := isHex) (fun c => isHex_of_ends) cs
    have hoctal : ∀ c, (isSpace c || c == ';') = true → ('0' ≤ c && c ≤ '7') = false := by
      intro c hc
      have hrange := toNat_of_ends hc
      rw [Bool.eq_false_iff]
      intro hdigit
      simp only [Bool.and_eq_true, decide_eq_true_eq] at hdigit
      have hlow : 48 ≤ c.toNat := hdigit.1
      have hhigh : c.toNat ≤ 55 := hdigit.2
      omega
    have hbinary : ∀ c, (isSpace c || c == ';') = true → (c == '0' || c == '1') = false := by
      intro c hc
      have hdigit := isDigit_of_ends hc
      rw [Bool.eq_false_iff]
      rintro hbit
      obtain h | h := (Bool.or_eq_true _ _).mp hbit <;> obtain rfl := beq_iff_eq.1 h <;>
        exact absurd hdigit (by decide)
    have height := baseRun?_append hk (p := fun c => '0' ≤ c && c ≤ '7') hoctal cs
    have htwo := baseRun?_append hk (p := fun c => c == '0' || c == '1') hbinary cs
    simp only [List.cons_append, basedTail?]
    split_ifs
    · exact hhex
    · exact height
    · exact htwo
    · rfl

theorem fractionTail_append (hk : endsToken k = true) (cs : List Char) :
    fractionTail (cs ++ k) = fractionTail cs ++ k := by
  rcases cs with _ | ⟨c, cs⟩
  · rcases k with _ | ⟨c, k⟩
    · rfl
    · have hpoint : c ≠ '.' := ne_of_endsToken hk (by decide)
      have hbig : c ≠ 'n' := ne_of_endsToken hk (by decide)
      simpa [fractionTail, hpoint, hbig] using exponentTail_append hk []
  by_cases hpoint : c = '.'
  · subst hpoint
    simp only [List.cons_append, fractionTail, decimalRun?_append hk]
    rcases decimalRun? cs with _ | rest <;> exact exponentTail_append hk _
  by_cases hbig : c = 'n'
  · subst hbig
    rfl
  · simpa [fractionTail, hpoint, hbig] using exponentTail_append hk (c :: cs)

theorem plainTail?_append (hk : endsToken k = true) (cs : List Char) :
    plainTail? (cs ++ k) = (plainTail? cs).map (· ++ k) := by
  have hrun (cs : List Char) :
      (decimalRun? (cs ++ k)).map fractionTail = ((decimalRun? cs).map fractionTail).map (· ++ k) := by
    rw [decimalRun?_append hk]
    rcases decimalRun? cs with _ | rest
    · rfl
    · exact congrArg some (fractionTail_append hk rest)
  rcases cs with _ | ⟨c, cs⟩
  · rcases k with _ | ⟨c, k⟩
    · rfl
    · have hpoint : c ≠ '.' := ne_of_endsToken hk (by decide)
      simpa [plainTail?, hpoint] using hrun []
  by_cases hpoint : c = '.'
  · subst hpoint
    simp only [List.cons_append, plainTail?, decimalRun?_append hk]
    rcases decimalRun? cs with _ | rest
    · rfl
    · exact congrArg some (exponentTail_append hk rest)
  · simpa [plainTail?, hpoint] using hrun (c :: cs)

/-- A number at the start of a longer text is one at the start of the text. -/
theorem number?_append (hk : endsToken k = true) (cs : List Char) :
    number? (cs ++ k) = (number? cs).map (· ++ k) := by
  rw [number?_eq, number?_eq, basedTail?_append hk, plainTail?_append hk]
  rcases basedTail? cs with _ | rest <;> rfl

/-! ### Longer tokens -/

theorem startsWithHex_append {n : Nat} {cs : List Char} (k : List Char)
    (h : startsWithHex n cs = true) : startsWithHex n (cs ++ k) = true := by
  have hlength : n ≤ cs.length := by
    simp only [startsWithHex, Bool.and_eq_true, beq_iff_eq, List.length_take] at h
    omega
  rwa [startsWithHex, List.take_append_of_le_length hlength]

theorem isEscape_append {cs : List Char} (k : List Char) (h : isEscape cs = true) :
    isEscape (cs ++ k) = true := by
  unfold isEscape at h
  split at h
  · cases h
  · exact startsWithHex_append k h
  · rename_i rest
    dsimp only at h
    obtain ⟨hlength, hhead⟩ := Bool.and_eq_true_iff.1 h
    have hne : (rest.dropWhile fun c => (Number.hexValue? c).isSome) ≠ [] := by
      intro hnil
      simp [hnil] at hhead
    have hdrop : (rest ++ k).dropWhile (fun c => (Number.hexValue? c).isSome) =
        (rest.dropWhile fun c => (Number.hexValue? c).isSome) ++ k := by
      rw [List.dropWhile_append, if_neg (by simpa using hne)]
    simp only [isEscape, List.cons_append, hdrop]
    rw [List.head?_append_of_ne_nil _ hne, hhead, Bool.and_true]
    simpa using hlength
  · rename_i rest hbrace
    -- four digits stand there, so that no brace follows
    rcases rest with _ | ⟨c, rest⟩
    · cases h
    · have hne : c ≠ '{' := by
        rintro rfl
        exact hbrace rest rfl
      rw [List.cons_append, List.cons_append, isEscape]
      · exact startsWithHex_append k h
      · exact fun more heq => hne (List.cons.inj heq).1
  · rename_i hnil hx _ hu
    rcases cs with _ | ⟨c, cs⟩
    · exact absurd rfl hnil
    · unfold isEscape
      split
      · rename_i heq
        cases heq
      · rename_i heq
        exact absurd (congrArg (· :: cs) (List.cons.inj heq).1) (hx cs)
      · rename_i heq
        exact absurd (congrArg (· :: cs) (List.cons.inj heq).1) (hu cs)
      · rename_i heq
        exact absurd (congrArg (· :: cs) (List.cons.inj heq).1) (hu cs)
      · rfl

theorem stringTail?_cons {quote c : Char} (h : c ≠ '\\') (rest : List Char) :
    stringTail? quote (c :: rest) = if c = quote then some rest
      else if c = '\n' ∨ c = '\r' ∨ c = '\\' then none else stringTail? quote rest := by
  rw [stringTail?.eq_def]
  split
  · rename_i heq
    cases heq
  · rename_i heq
    exact absurd (List.cons.inj heq).1 h
  · rename_i heq
    obtain ⟨rfl, rfl⟩ := List.cons.inj heq
    rfl

/-- A string ends where it ends on its own. -/
theorem stringTail?_append {quote : Char} (hquote : quote ≠ '\\') {cs rest : List Char}
    (k : List Char) (h : stringTail? quote cs = some rest) :
    stringTail? quote (cs ++ k) = some (rest ++ k) := by
  fun_induction stringTail? quote cs with
  | case1 => cases h
  | case2 c d more hreturn ih =>
    rw [List.cons_append, List.cons_append, List.cons_append, stringTail?, if_pos hreturn]
    exact ih h
  | case3 c d more hreturn hescape ih =>
    have hlonger : isEscape (c :: d :: (more ++ k)) = true := isEscape_append k hescape
    rw [List.cons_append, List.cons_append, List.cons_append, stringTail?, if_neg hreturn,
      if_pos hlonger]
    exact ih h
  | case4 => cases h
  | case5 more =>
    obtain rfl := Option.some.inj h
    rw [List.cons_append, stringTail?_cons hquote, if_pos rfl]
  | case6 => cases h
  | case7 c more _ hne hplain ih =>
    rw [List.cons_append, stringTail?_cons fun hc => hplain (.inr (.inr hc)), if_neg hne,
      if_neg hplain]
    exact ih h

theorem isPrefixOf_append_of_ends (hk : endsToken k = true) {m : List Char}
    (hm : ∀ c ∈ m, (isSpace c || c == ';') = false) (cs : List Char) :
    m.isPrefixOf (cs ++ k) = m.isPrefixOf cs := by
  induction m generalizing cs with
  | nil => rfl
  | cons d m ih =>
    rcases cs with _ | ⟨c, cs⟩
    · rcases k with _ | ⟨c, k⟩
      · rfl
      · have hne : d ≠ c := (ne_of_endsToken hk (hm d List.mem_cons_self)).symm
        simp [List.isPrefixOf, hne]
    · simp only [List.cons_append, List.isPrefixOf]
      rw [ih fun c hc => hm c (List.mem_cons_of_mem _ hc)]

/-- The mark at the start of a longer text is the one at the start of the text. -/
theorem find?_marks_append (hk : endsToken k = true) {marks : List (List Char)}
    (hmarks : ∀ m ∈ marks, m.any (fun c => isSpace c || c == ';') = false) (cs : List Char) :
    marks.find? (·.isPrefixOf (cs ++ k)) = marks.find? (·.isPrefixOf cs) := by
  induction marks with
  | nil => rfl
  | cons m marks ih =>
    have hm : ∀ c ∈ m, (isSpace c || c == ';') = false := fun c hc =>
      Bool.eq_false_iff.2 (List.any_eq_false.1 (hmarks m List.mem_cons_self) c hc)
    rw [List.find?_cons, List.find?_cons, ih fun m hm => hmarks m (List.mem_cons_of_mem _ hm),
      isPrefixOf_append_of_ends hk hm]

theorem drop_append_of_found {cs found : List Char} {marks : List (List Char)}
    (h : marks.find? (·.isPrefixOf cs) = some found) :
    (cs ++ k).drop found.length = cs.drop found.length ++ k := by
  have hprefix := List.find?_some h
  exact List.drop_append_of_le_length (List.isPrefixOf_iff_prefix.1 hprefix).length_le

/-- The mark of an optional member starts a longer text where it starts the text. -/
theorem chainMark_append (hk : endsToken k = true) (c : Char) (cs : List Char) :
    (c = '?' ∧ (cs ++ k).head? = some '.' ∧
        (!((cs ++ k).drop 1).head?.any Char.isDigit) = true) ↔
      (c = '?' ∧ cs.head? = some '.' ∧ (!(cs.drop 1).head?.any Char.isDigit) = true) := by
  rcases cs with _ | ⟨d, _ | ⟨e, cs⟩⟩
  · simp [head?_ne_of_endsToken hk (c := '.') (by decide)]
  · have hdigit : k.head?.any Char.isDigit = false := by
      rcases k with _ | ⟨e, k⟩
      · rfl
      · exact isDigit_of_ends hk
    simp [hdigit]
  · rfl

/-- **The token at the start of a longer text is the one at the start of the text.** -/
theorem Token.ofText_append (hk : endsToken k = true) {cs : List Char} (hcs : cs ≠ [])
    (hstray : (Token.ofText cs).1 ≠ .stray) :
    Token.ofText (cs ++ k) = ((Token.ofText cs).1, (Token.ofText cs).2 ++ k) := by
  rcases cs with _ | ⟨c, cs⟩
  · exact absurd rfl hcs
  have hname := name?_append (endsName_of_endsToken hk) (List.cons_ne_nil c cs)
  have hnumber := number?_append hk (c :: cs)
  have hmark : longMarks.find? _ = _ := find?_marks_append hk (by decide) (c :: cs)
  rw [List.cons_append] at hname hnumber hmark ⊢
  rw [Token.ofText] at hstray ⊢
  rw [Token.ofText]
  rw [hname, hnumber, hmark]
  rcases hname' : name? (c :: cs) with _ | ⟨name, rest⟩
  swap
  · rfl
  rcases hnumber' : number? (c :: cs) with _ | rest
  swap
  · rfl
  simp only [hname', hnumber', Option.map_none, chainMark_append hk] at hstray ⊢
  split_ifs at hstray ⊢ with hquote hback hhash hchain
  · have hne : c ≠ '\\' := by
      obtain rfl | rfl := hquote <;> decide
    rcases hstring : stringTail? c cs with _ | rest
    · simp [hstring] at hstray
    · rw [stringTail?_append hne k hstring]
  · rfl
  · rcases cs with _ | ⟨d, cs⟩
    · simp [name?] at hstray
    · rw [name?_append (endsName_of_endsToken hk) (List.cons_ne_nil d cs)]
      rcases hprivate : name? (d :: cs) with _ | ⟨name, rest⟩
      · simp [hprivate] at hstray
      · rfl
  · rcases cs with _ | ⟨d, cs⟩
    · simp at hchain
    · rfl
  · rcases hfound : longMarks.find? (·.isPrefixOf (c :: cs)) with _ | found
    · simp only [hfound]
    · have hdrop := drop_append_of_found (k := k) hfound
      rw [List.cons_append] at hdrop
      simp only [hfound, hdrop]
  · rcases hfound : longMarks.find? (·.isPrefixOf (c :: cs)) with _ | found
    · simp [hfound] at hstray
    · have hdrop := drop_append_of_found (k := k) hfound
      rw [List.cons_append] at hdrop
      simp only [hfound, hdrop]

/-- A word at the start of a longer text is one at the start of the text. -/
theorem Token.ofText_append_of_word (hk : endsName k = true) {cs w : List Char}
    (h : (Token.ofText cs).1 = .word w) :
    Token.ofText (cs ++ k) = (.word w, (Token.ofText cs).2 ++ k) := by
  have hname := name?_of_word h
  have hcs : cs ≠ [] := by
    rintro rfl
    cases hname
  exact Token.ofText_of_name (by rw [name?_append hk hcs, hname]; rfl)

/-! ### Names by themselves -/

/-- An escape is read the same whatever follows it. -/
theorem nameEscape?_self {cs escape rest : List Char} (h : nameEscape? cs = some (escape, rest))
    (more : List Char) : nameEscape? (escape ++ more) = some (escape, more) := by
  unfold nameEscape? at h
  split at h
  · rename_i digits
    dsimp only at h
    split at h
    · rename_i after hdrop
      split_ifs at h with hempty
      obtain ⟨rfl, rfl⟩ := Prod.mk.inj (Option.some.inj h)
      have hdigits : ∀ c ∈ digits.takeWhile isHex, isHex c = true := fun c => List.mem_takeWhile_imp
      have hends : ∀ c ∈ ('\x7d' :: more).head?, isHex c = false := by
        simpa using by decide
      have hread := nameEscape?_brace (digits.takeWhile isHex ++ '\x7d' :: more)
      rw [takeWhile_append_of_ends hends, dropWhile_append_of_ends hends,
        List.takeWhile_eq_self_iff.2 hdigits, List.dropWhile_eq_nil_iff.2 hdigits] at hread
      simpa [hempty] using hread
    · cases h
  · rename_i a b c d after _
    split_ifs at h with hall
    obtain ⟨rfl, rfl⟩ := Prod.mk.inj (Option.some.inj h)
    have hbrace : (a :: b :: c :: d :: more).head? ≠ some '\x7b' := by
      rw [List.head?_cons, Ne, Option.some.injEq]
      rintro rfl
      exact absurd (List.all_eq_true.1 hall '\x7b' List.mem_cons_self) (by decide)
    exact (nameEscape?_hex hbrace).trans (if_pos ⟨rfl, hall⟩)
  · cases h

/-- The text is what a name goes on with, up to its end. -/
def IsNameTail (w : List Char) : Prop := ∀ fuel, w.length ≤ fuel → nameTail fuel w = (w, [])

theorem isNameTail_nil : IsNameTail [] := by rintro (_ | fuel) - <;> rfl

/-- What is read of a name goes on with what any name goes on with. -/
theorem IsNameTail.after {w : List Char} (h : IsNameTail w) (fuel : Nat) (cs : List Char) :
    IsNameTail ((nameTail fuel cs).1 ++ w) := by
  fun_induction nameTail fuel cs with
  | case1 cs => exact h
  | case2 => exact h
  | case3 fuel c cs hc name rest hrec ih =>
    rw [hrec] at ih
    intro fuel' hfuel'
    rw [List.cons_append, List.length_cons] at hfuel'
    obtain ⟨fuel', rfl⟩ := Nat.exists_eq_succ_of_ne_zero (show fuel' ≠ 0 by omega)
    rw [List.cons_append, nameTail, if_pos hc, ih fuel' (Nat.le_of_succ_le_succ hfuel')]
  | case4 fuel c cs hc escape rest hescape name rest' hrec ih =>
    rw [hrec] at ih
    intro fuel' hfuel'
    have hcut := (nameEscape?_eq hescape).1
    have hself := nameEscape?_self hescape (name ++ w)
    rcases escape with _ | ⟨d, escape⟩
    · exact absurd rfl (nameEscape?_ne_nil hescape)
    obtain ⟨rfl, -⟩ := List.cons.inj hcut
    rw [List.append_assoc, List.length_append, List.length_cons] at hfuel'
    obtain ⟨fuel', rfl⟩ := Nat.exists_eq_succ_of_ne_zero (show fuel' ≠ 0 by omega)
    dsimp only at ih ⊢
    rw [List.cons_append] at hself
    rw [List.append_assoc, List.cons_append, nameTail, if_neg hc, hself]
    dsimp only
    rw [ih fuel' (by omega)]
    rfl
  | case5 fuel c cs => exact h

/-- A word of a text is a name. -/
theorem isName_of_word {cs w : List Char} (h : (Token.ofText cs).1 = .word w) : IsName w := by
  have hname := name?_of_word h
  rcases cs with _ | ⟨c, cs⟩
  · cases hname
  rw [name?] at hname
  split_ifs at hname with hstart
  have hself := isNameTail_nil.after (cs.length + 1) (c :: cs)
  have hw : (nameTail (cs.length + 1) (c :: cs)).1 = w := congrArg Prod.fst (Option.some.inj hname)
  rw [hw, List.append_nil] at hself
  -- the word starts as the text does
  have hstart' : ∃ d more, w = d :: more ∧ (isNameStart d || (nameEscape? w).isSome) = true := by
    rw [nameTail] at hw
    split_ifs at hw with hc
    · obtain hfirst | hescape := (Bool.or_eq_true _ _).mp hstart
      · exact ⟨c, _, hw.symm, by simp [hfirst]⟩
      · have hbackslash : c = '\\' := by
          by_contra hne
          rw [nameEscape?_of_ne (by simpa using hne)] at hescape
          cases hescape
        subst hbackslash
        exact absurd hc (by decide)
    · obtain hfirst | hescape := (Bool.or_eq_true _ _).mp hstart
      · simp [isNameStart, hc] at hfirst
      · obtain ⟨⟨escape, rest⟩, hescape⟩ := Option.isSome_iff_exists.1 hescape
        simp only [hescape] at hw
        rcases escape with _ | ⟨d, escape⟩
        · exact absurd rfl (nameEscape?_ne_nil hescape)
        · refine ⟨d, _, hw.symm, ?_⟩
          rw [← hw, nameEscape?_self hescape, Option.isSome_some, Bool.or_true]
  obtain ⟨d, more, rfl, hfirst⟩ := hstart'
  refine Token.ofText_of_name ?_
  rw [name?, if_pos hfirst, hself _ (by simp)]

theorem IsName.isNameTail {w v : List Char} (h : IsName w) (hv : IsNameTail v) :
    IsNameTail (w ++ v) := by
  have hname := name?_of_word (congrArg Prod.fst h)
  rcases w with _ | ⟨c, w⟩
  · cases hname
  rw [name?] at hname
  split_ifs at hname
  have hw : (nameTail (w.length + 1) (c :: w)).1 = c :: w := congrArg Prod.fst (Option.some.inj hname)
  exact hw ▸ hv.after (w.length + 1) (c :: w)

theorem IsNameTail.append {cs w : List Char} (h : IsNameTail w)
    (hcs : cs.all isNameChar = true) : IsNameTail (cs ++ w) := by
  induction cs with
  | nil => exact h
  | cons c cs ih =>
    rw [List.all_cons, Bool.and_eq_true] at hcs
    intro fuel hfuel
    rw [List.cons_append, List.length_cons] at hfuel
    obtain ⟨fuel, rfl⟩ := Nat.exists_eq_succ_of_ne_zero (show fuel ≠ 0 by omega)
    rw [List.cons_append, nameTail, if_pos hcs.1, ih hcs.2 fuel (Nat.le_of_succ_le_succ hfuel)]

/-- A name between other characters of names is part of a longer name. -/
theorem IsName.between {w : List Char} (h : IsName w) {c : Char} {front back : List Char}
    (hstart : isNameStart c = true) (hfront : (c :: front).all isNameChar = true)
    (hback : back.all isNameChar = true) : IsName (c :: front ++ (w ++ back)) := by
  have hback' : IsNameTail back := by simpa using isNameTail_nil.append hback
  have htail := (h.isNameTail hback').append hfront
  refine Token.ofText_of_name ?_
  rw [List.cons_append] at htail ⊢
  rw [name?, if_pos (by simp [hstart]), htail _ (by simp)]

end Longer

/-! ### What is left of a text -/

theorem name?_lt {cs name rest : List Char} (h : name? cs = some (name, rest)) :
    rest.length < cs.length := by
  have hcut := (name?_eq h).1
  have hname : name ≠ [] := by
    rcases cs with _ | ⟨c, cs⟩
    · cases h
    rw [name?] at h
    split_ifs at h with hstart
    have hfirst := congrArg Prod.fst (Option.some.inj h)
    by_cases hc : isNameChar c = true
    · simp only [nameTail, if_pos hc] at hfirst
      rw [← hfirst]
      exact List.cons_ne_nil _ _
    · -- the name starts with an escape
      obtain hstart | hescape := (Bool.or_eq_true _ _).mp hstart
      · simp [isNameStart, hc] at hstart
      · obtain ⟨⟨escape, more⟩, hescape⟩ := Option.isSome_iff_exists.1 hescape
        simp only [nameTail, if_neg hc, hescape] at hfirst
        rw [← hfirst]
        simp [nameEscape?_ne_nil hescape]
  have hlength := List.length_pos_iff.2 hname
  rw [hcut, List.length_append]
  omega

theorem decimalRun?_lt {cs rest : List Char} (h : decimalRun? cs = some rest) :
    rest.length < cs.length := by
  rcases cs with _ | ⟨c, cs⟩
  · cases h
  · rw [decimalRun?] at h
    split_ifs at h with hc
    obtain rfl := Option.some.inj h
    rw [digitRun.eq_def]
    simp only [hc, if_true, List.length_cons]
    exact Nat.lt_succ_of_le (digitRun_suffix _ _ _).length_le

theorem fractionTail_suffix (cs : List Char) : fractionTail cs <:+ cs := by
  unfold fractionTail
  split
  · rename_i more
    refine suffix_cons_of_suffix ((exponentTail_suffix _).trans ?_)
    rcases hrun : decimalRun? more with _ | after
    · exact List.suffix_rfl
    · exact decimalRun?_suffix hrun
  · exact List.suffix_cons _ _
  · exact exponentTail_suffix _

theorem number?_lt {cs rest : List Char} (h : number? cs = some rest) :
    rest.length < cs.length := by
  rw [number?_eq] at h
  rcases hbased : basedTail? cs with _ | more
  · rw [hbased] at h
    have hplain : plainTail? cs = some rest := h
    unfold plainTail? at hplain
    split at hplain
    · rename_i cs
      rcases hrun : decimalRun? cs with _ | more
      · rw [hrun] at hplain
        cases hplain
      · rw [hrun] at hplain
        obtain rfl := Option.some.inj hplain
        have hlt := decimalRun?_lt hrun
        have hle := (exponentTail_suffix more).length_le
        rw [List.length_cons]
        omega
    · rcases hrun : decimalRun? cs with _ | more
      · rw [hrun] at hplain
        cases hplain
      · rw [hrun] at hplain
        obtain rfl := Option.some.inj hplain
        have hlt := decimalRun?_lt hrun
        have hle := (fractionTail_suffix more).length_le
        omega
  · rw [hbased] at h
    obtain rfl := Option.some.inj h
    unfold basedTail? at hbased
    split at hbased
    · split_ifs at hbased
      all_goals
        have hle := (baseRun?_suffix hbased).length_le
        rw [List.length_cons, List.length_cons]
        omega
    · cases hbased

/-- What follows a token is shorter than what starts with it. -/
theorem Token.ofText_lt {cs : List Char} (hcs : cs ≠ []) :
    (Token.ofText cs).2.length < cs.length := by
  rcases cs with _ | ⟨c, cs⟩
  · exact absurd rfl hcs
  rw [Token.ofText]
  have hrest : cs.length < (c :: cs).length := Nat.lt_succ_self _
  split
  · rename_i hname
    exact name?_lt hname
  split
  · rename_i hnumber
    exact number?_lt hnumber
  split_ifs
  · split
    · rename_i hstring
      exact Nat.lt_succ_of_le (stringTail?_suffix hstring).length_le
    · exact hrest
  · exact hrest
  · split
    · rename_i hname
      exact (name?_lt hname).trans hrest
    · exact hrest
  · exact Nat.lt_succ_of_le (List.drop_suffix _ _).length_le
  all_goals
    have hmarks : ∀ m ∈ longMarks, 0 < m.length := by decide
    split
    · rename_i hfound
      have hlength := hmarks _ (List.mem_of_find?_eq_some hfound)
      rw [List.length_drop, List.length_cons]
      omega
    · exact hrest

end ServiceScaffold.Syntax
