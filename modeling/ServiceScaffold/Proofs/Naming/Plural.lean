import ServiceScaffold.Proofs.Naming

/-!
# Plurals of names and of their kebab cases

How a plural is formed is told by the last two characters of the word (`Naming.endingOf`).  Kebab
case keeps these two, unless it puts a hyphen between them: then the last one stands alone.

* `Naming.pluralChars_concat` : the plural of a word, by its last two characters;
* `Naming.PluralPair` : two words with one plural, and `Naming.pluralChars_eq_iff_pair` : there are
  no others;
* `Naming.pluralChars_kebab` : the plural of the kebab case of a name, by the same two;
* `Naming.PluralTwins` : two names with one plural, of which one ends in a capital after a small
  letter;
* `Naming.plural_eq_iff` : **names with different route segments have one plural if and only if they
  are such twins.**
-/

namespace ServiceScaffold.Naming

open Text

/-! ### Endings -/

/-- How the plural of a word is formed. -/
inductive Ending where
  | hissing
  | hardY
  | other
  deriving DecidableEq

/-- The plural of a word with an ending. -/
def Ending.plural : Ending → List Char → List Char
  | .hissing, word => word ++ ['e', 's']
  | .hardY, word => word.dropLast ++ ['i', 'e', 's']
  | .other, word => word ++ ['s']

/-- The ending of a word whose last character is `c`, given the one before it; `is d c` says that
`c` counts as the letter `d`. -/
def endingBy (is : Char → Char → Bool) (before : Option Char) (c : Char) : Ending :=
  if is 's' c || is 'x' c || is 'z' c ||
      is 'h' c && before.any (fun p => is 'c' p || is 's' p) then .hissing
  else if is 'y' c && before.any (fun p => !(['a', 'e', 'i', 'o', 'u'].any (is · p))) then .hardY
  else .other

/-- The ending of a word, in lower or upper case. -/
def endingOf (before : Option Char) (c : Char) : Ending := endingBy isLetter before c

theorem rel_imp {r r' : Char → Char → Prop} {before before' : Option Char}
    (himp : ∀ {p y}, r p y → r' p y) (h : Option.Rel r before before') :
    Option.Rel r' before before' := by
  cases h with
  | none => exact .none
  | some hp => exact .some (himp hp)

/-- Only plain letters count. -/
theorem endingBy_congr {is is' : Char → Char → Bool} {before before' : Option Char} {c x : Char}
    (hx : ∀ d, isPlain d = true → is' d x = is d c)
    (hbefore : ∀ d, isPlain d = true → is d c = true →
      Option.Rel (fun p y => ∀ d, isPlain d = true → is' d y = is d p) before before') :
    endingBy is' before' x = endingBy is before c := by
  have hcs : (is 'h' c && before'.any fun p => is' 'c' p || is' 's' p) =
      (is 'h' c && before.any fun p => is 'c' p || is 's' p) := by
    cases hletter : is 'h' c with
    | false => rfl
    | true =>
      cases hbefore 'h' rfl hletter with
      | none => rfl
      | some hp => simp only [Option.any_some, hp 'c' rfl, hp 's' rfl]
  have hvowels : (is 'y' c && before'.any fun p => !(['a', 'e', 'i', 'o', 'u'].any (is' · p))) =
      (is 'y' c && before.any fun p => !(['a', 'e', 'i', 'o', 'u'].any (is · p))) := by
    cases hletter : is 'y' c with
    | false => rfl
    | true =>
      cases hbefore 'y' rfl hletter with
      | none => rfl
      | some hp =>
        simp only [Option.any_some, List.any_cons, List.any_nil, hp 'a' rfl, hp 'e' rfl,
          hp 'i' rfl, hp 'o' rfl, hp 'u' rfl]
  simp only [endingBy, hx 's' rfl, hx 'x' rfl, hx 'z' rfl, hx 'h' rfl, hx 'y' rfl, hcs, hvowels]

theorem pair_suffix_concat_iff {d e x : Char} {front : List Char} :
    [d, e] <:+ front ++ [x] ↔ x = e ∧ front.getLast? = some d := by
  rw [List.suffix_concat_iff]
  constructor
  · rintro (hnil | ⟨start, hstart, hsuffix⟩)
    · cases hnil
    · have hsplit : [d] ++ [e] = start ++ [x] := hstart
      obtain ⟨rfl, he⟩ := List.append_inj' hsplit rfl
      exact ⟨(List.singleton_inj.1 he).symm, List.singleton_suffix_iff_getLast?_eq_some.1 hsuffix⟩
  · rintro ⟨rfl, hlast⟩
    exact .inr ⟨[d], rfl, List.singleton_suffix_iff_getLast?_eq_some.2 hlast⟩

theorem endsHissing_concat (front : List Char) (x : Char) :
    endsHissing (front ++ [x]) = (x == 's' || x == 'x' || x == 'z' ||
      x == 'h' && front.getLast?.any fun p => p == 'c' || p == 's') := by
  rw [Bool.eq_iff_iff]
  simp only [endsHissing, hissingEnds, List.any_cons, List.any_nil, Bool.or_false, Bool.or_eq_true,
    List.isSuffixOf_iff_suffix, List.singleton_suffix_iff_getLast?_eq_some, List.getLast?_concat,
    pair_suffix_concat_iff, Bool.and_eq_true, Option.any_eq_true, beq_iff_eq, Option.some.injEq]
  grind

theorem endsInHardY_concat (front : List Char) (x : Char) :
    endsInHardY (front ++ [x]) = (x == 'y' && front.getLast?.any (!isVowel ·)) := by
  obtain rfl | ⟨front, p, rfl⟩ := List.eq_nil_or_concat' front
  · simp [endsInHardY]
  · by_cases hx : x = 'y'
    · simp [endsInHardY, hx]
    · simp [endsInHardY, hx]

/-- How a plural is formed is told by the last two characters in lower case. -/
theorem pluralChars_eq {word front : List Char} {x : Char} (h : toLower word = front ++ [x]) :
    pluralChars word = (endingBy (fun d c => c == d) front.getLast? x).plural word := by
  have hempty : word.isEmpty = false := by
    cases word with
    | nil => simp [toLower, toLowerAfter] at h
    | cons c word => rfl
  simp only [pluralChars, hempty, h, endsHissing_concat, endsInHardY_concat, endingBy, isVowel,
    List.contains_eq_any_beq, Bool.false_eq_true, if_false]
  split_ifs <;> rfl

/-- The ending of a word can be read off its lower case. -/
theorem endingBy_toLower {word front : List Char} {c x : Char}
    (h : toLower (word ++ [c]) = front ++ [x]) :
    endingBy (fun d c => c == d) front.getLast? x = endingOf word.getLast? c := by
  obtain ⟨front', x', hlower, hx, hbefore⟩ := exists_toLower_concat word c
  obtain ⟨rfl, hlast⟩ := List.append_inj' (h.symm.trans hlower) rfl
  obtain rfl := List.singleton_inj.1 hlast
  exact endingBy_congr (fun d hd => (hx d hd).1) fun d hd hletter =>
    rel_imp (fun hp d hd => (hp d hd).1) (hbefore d hd hletter)

theorem endsHissing_toLower (word : List Char) (c : Char) :
    endsHissing (toLower (word ++ [c])) = true ↔ endingOf word.getLast? c = .hissing := by
  obtain ⟨front, x, hlower, -, -⟩ := exists_toLower_concat word c
  rw [hlower, endsHissing_concat, ← endingBy_toLower hlower, endingBy]
  split_ifs <;> simp_all

theorem endsInHardY_toLower (word : List Char) (c : Char) :
    endsInHardY (toLower (word ++ [c])) = true ↔ endingOf word.getLast? c = .hardY := by
  obtain ⟨front, x, hlower, -, -⟩ := exists_toLower_concat word c
  rw [hlower, endsInHardY_concat, ← endingBy_toLower hlower, endingBy]
  simp only [isVowel, List.contains_eq_any_beq]
  split_ifs with hhissing hhard
  · -- a `y` is none of the letters of a hissing end
    have hx : x ≠ 'y' := by rintro rfl; simp at hhissing
    simp [hx]
  · simpa using hhard
  · simpa using hhard

/-- The plural of a word is told by its last two characters. -/
theorem pluralChars_concat (word : List Char) (c : Char) :
    pluralChars (word ++ [c]) = (endingOf word.getLast? c).plural (word ++ [c]) := by
  obtain ⟨front, x, hlower, -, -⟩ := exists_toLower_concat word c
  rw [pluralChars_eq hlower, endingBy_toLower hlower]

theorem pluralChars_of_hissing {word : List Char} {c : Char}
    (h : endingOf word.getLast? c = .hissing) :
    pluralChars (word ++ [c]) = word ++ [c] ++ ['e', 's'] := by
  rw [pluralChars_concat, h, Ending.plural]

theorem pluralChars_of_hardY {word : List Char} {c : Char}
    (h : endingOf word.getLast? c = .hardY) :
    pluralChars (word ++ [c]) = word ++ ['i', 'e', 's'] := by
  rw [pluralChars_concat, h, Ending.plural, List.dropLast_concat]

theorem pluralChars_of_other {word : List Char} {c : Char}
    (h : endingOf word.getLast? c = .other) :
    pluralChars (word ++ [c]) = word ++ [c] ++ ['s'] := by
  rw [pluralChars_concat, h, Ending.plural]

theorem endingOf_e (before : Option Char) : endingOf before 'e' = .other := rfl

theorem pluralChars_concat_e (word : List Char) :
    pluralChars (word ++ ['e']) = word ++ ['e', 's'] := by
  rw [pluralChars_of_other (endingOf_e _), List.append_assoc]
  rfl

/-! ### Words with one plural -/

/-- Two words with one plural, of which the first one has a rule of its own. -/
inductive PluralPair : List Char → List Char → Prop where
  /-- `tax` and `taxe`. -/
  | hissing {u : List Char} {c : Char} (h : endingOf u.getLast? c = .hissing) :
      PluralPair (u ++ [c]) (u ++ [c] ++ ['e'])
  /-- `city` and `citY`. -/
  | hardY {u : List Char} {c d : Char} (hc : endingOf u.getLast? c = .hardY)
      (hd : endingOf u.getLast? d = .hardY) : PluralPair (u ++ [c]) (u ++ [d])
  /-- `city` and `citie`. -/
  | spelledOut {u : List Char} {c : Char} (h : endingOf u.getLast? c = .hardY) :
      PluralPair (u ++ [c]) (u ++ ['i'] ++ ['e'])

theorem PluralPair.pluralChars_eq {a b : List Char} (h : PluralPair a b) :
    pluralChars a = pluralChars b := by
  cases h with
  | hissing h => rw [pluralChars_of_hissing h, pluralChars_concat_e]
  | hardY hc hd => rw [pluralChars_of_hardY hc, pluralChars_of_hardY hd]
  | spelledOut h => rw [pluralChars_of_hardY h, pluralChars_concat_e, List.append_assoc]; rfl

section

variable {u v : List Char} {c d : Char}

/-- A plural by a rule that adds letters is the plain plural of one word only. -/
theorem pair_of_other (hc : endingOf u.getLast? c ≠ .other) (hd : endingOf v.getLast? d = .other)
    (hplural : pluralChars (u ++ [c]) = pluralChars (v ++ [d])) :
    PluralPair (u ++ [c]) (v ++ [d]) := by
  rw [pluralChars_of_other hd] at hplural
  cases hending : endingOf u.getLast? c with
  | hissing =>
    have hlonger : v ++ [d] ++ ['s'] = u ++ [c] ++ ['e'] ++ ['s'] := by
      rw [← hplural, pluralChars_of_hissing hending]
      simp
    rw [List.append_cancel_right hlonger]
    exact .hissing hending
  | hardY =>
    have hlonger : v ++ [d] ++ ['s'] = u ++ ['i'] ++ ['e'] ++ ['s'] := by
      rw [← hplural, pluralChars_of_hardY hending]
      simp
    rw [List.append_cancel_right hlonger]
    exact .spelledOut hending
  | other => exact absurd hending hc

/-- No plural that adds `es` is one that adds `ies`. -/
theorem pluralChars_ne (hc : endingOf u.getLast? c = .hissing)
    (hd : endingOf v.getLast? d = .hardY) : pluralChars (u ++ [c]) ≠ pluralChars (v ++ [d]) := by
  rw [pluralChars_of_hissing hc, pluralChars_of_hardY hd]
  intro heq
  have hsplit : u ++ [c] ++ ['e', 's'] = v ++ ['i'] ++ ['e', 's'] := by simpa using heq
  obtain ⟨rfl, hci⟩ := List.append_inj' (List.append_cancel_right hsplit) rfl
  obtain rfl := List.singleton_inj.1 hci
  cases hc

end

/-- Different words with one plural make a pair: one case for each two rules. -/
theorem pluralChars_eq_iff_pair {a b : List Char} (hne : a ≠ b) :
    pluralChars a = pluralChars b ↔ PluralPair a b ∨ PluralPair b a := by
  constructor
  · intro hplural
    obtain rfl | ⟨u, c, rfl⟩ := List.eq_nil_or_concat' a
    · obtain ⟨stem, hstem⟩ := pluralChars_ends hne.symm
      rw [hstem] at hplural
      simp [pluralChars] at hplural
    obtain rfl | ⟨v, d, rfl⟩ := List.eq_nil_or_concat' b
    · obtain ⟨stem, hstem⟩ := pluralChars_ends hne
      rw [hstem] at hplural
      simp [pluralChars] at hplural
    cases hc : endingOf u.getLast? c <;> cases hd : endingOf v.getLast? d
    case hissing.hissing =>
      rw [pluralChars_of_hissing hc, pluralChars_of_hissing hd] at hplural
      exact absurd (List.append_cancel_right hplural) hne
    case hissing.hardY => exact absurd hplural (pluralChars_ne hc hd)
    case hissing.other => exact .inl (pair_of_other (by simp [hc]) hd hplural)
    case hardY.hissing => exact absurd hplural.symm (pluralChars_ne hd hc)
    case hardY.hardY =>
      rw [pluralChars_of_hardY hc, pluralChars_of_hardY hd] at hplural
      obtain rfl := List.append_cancel_right hplural
      exact .inl (.hardY hc hd)
    case hardY.other => exact .inl (pair_of_other (by simp [hc]) hd hplural)
    case other.hissing => exact .inr (pair_of_other (by simp [hd]) hc hplural.symm)
    case other.hardY => exact .inr (pair_of_other (by simp [hd]) hc hplural.symm)
    case other.other =>
      rw [pluralChars_of_other hc, pluralChars_of_other hd] at hplural
      exact absurd (List.append_cancel_right hplural) hne
  · rintro (hpair | hpair)
    · exact hpair.pluralChars_eq
    · exact hpair.pluralChars_eq.symm

/-! ### Kebab case -/

/-- Kebab case puts a hyphen between two characters. -/
def breaksBefore (before : Option Char) (c : Char) : Bool := before.any isLower && isUpper c

theorem kebabAfter_append (before : Option Char) (a b : List Char) :
    kebabAfter before (a ++ b) = kebabAfter before a ++ kebabAfter (a.getLast?.or before) b := by
  induction a generalizing before with
  | nil => rfl
  | cons c a ih =>
    have hlast : (a.getLast?.or (some c)) = ((c :: a).getLast?.or before) := by
      rw [List.getLast?_cons]
      cases a.getLast? <;> rfl
    simp only [List.cons_append, kebabAfter, ih, hlast, List.append_assoc]

theorem kebabChars_concat (word : List Char) (c : Char) :
    kebabChars (word ++ [c]) =
      kebabChars word ++ (if breaksBefore word.getLast? c then ['-'] else []) ++ lowerChars c := by
  rw [kebabChars, kebabAfter_append, Option.or_none]
  simp [kebabAfter, breaksBefore, kebabChars]

/-- Kebab case keeps the last character, as far as plain letters go. -/
theorem rel_getLast?_kebab (word : List Char) :
    Option.Rel LowersTo word.getLast? (kebabChars word).getLast? := by
  obtain rfl | ⟨word, p, rfl⟩ := List.eq_nil_or_concat' word
  · exact .none
  · obtain ⟨front, y, hlower, hy, -⟩ := exists_lowerChars p
    rw [kebabChars_concat, hlower, ← List.append_assoc, List.getLast?_concat, List.getLast?_concat]
    exact .some hy

/-- The kebab case of a name has the plural of the name's last two characters, unless there is a
hyphen between them. -/
theorem pluralChars_kebab (word : List Char) (c : Char) :
    pluralChars (kebabChars (word ++ [c])) =
      (endingOf (if breaksBefore word.getLast? c then some '-' else word.getLast?) c).plural
        (kebabChars (word ++ [c])) := by
  obtain ⟨front, x, hlower, hx, hfront⟩ := exists_lowerChars c
  rw [kebabChars_concat, hlower, ← List.append_assoc, pluralChars_concat]
  congr 1
  refine endingBy_congr (fun d hd => (hx d hd).2) fun d hd hletter => ?_
  rw [hfront d hd hletter, List.append_nil]
  split_ifs
  · rw [List.getLast?_concat]
    exact .some fun _ _ => rfl
  · rw [List.append_nil]
    exact rel_imp (fun hp d hd => (hp d hd).2) (rel_getLast?_kebab word)

/-! ### Twins -/

/-- Two names with one plural.  The first ends in a capital that stands after a small letter; as
kebab case puts a hyphen between these two, its route segment is formed by another rule. -/
inductive PluralTwins : List Char → List Char → Prop where
  /-- `TacH` and `TacHe`. -/
  | hissing (stem : List Char) {c : Char} (hc : c = 'c' ∨ c = 's') :
      PluralTwins (stem ++ [c, 'H']) (stem ++ [c, 'H', 'e'])
  /-- `CategorY` and `Category`. -/
  | hardY (stem : List Char) {c : Char} (hlower : isLower c = true) (hvowel : isVowel c = false) :
      PluralTwins (stem ++ [c, 'Y']) (stem ++ [c, 'y'])
  /-- `CategorY` and `Categorie`. -/
  | spelledOut (stem : List Char) {c : Char} (hlower : isLower c = true)
      (hvowel : isVowel c = false) : PluralTwins (stem ++ [c, 'Y']) (stem ++ [c, 'i', 'e'])

theorem endingOf_eq_hissing {before : Option Char} {c : Char} :
    endingOf before c = .hissing ↔
      (isLetter 's' c = true ∨ isLetter 'x' c = true ∨ isLetter 'z' c = true) ∨
        isLetter 'h' c = true ∧
          ∃ p, before = some p ∧ (isLetter 'c' p = true ∨ isLetter 's' p = true) := by
  unfold endingOf endingBy
  split_ifs with hhissing hhard <;>
    simp only [Bool.or_eq_true, Bool.and_eq_true, Option.any_eq_true, or_assoc] at hhissing ⊢ <;>
    simp_all

theorem endingOf_eq_hardY {before : Option Char} {c : Char} :
    endingOf before c = .hardY ↔ (c = 'y' ∨ c = 'Y') ∧
      ∃ p, before = some p ∧ ∀ v ∈ ['a', 'e', 'i', 'o', 'u'], isLetter v p = false := by
  have hletter : isLetter 'y' c = true ↔ c = 'y' ∨ c = 'Y' := isLetter_iff
  rw [← hletter]
  constructor
  · intro h
    unfold endingOf endingBy at h
    split_ifs at h with hhissing hhard
    simpa [Option.any_eq_true] using hhard
  · rintro ⟨hy, p, rfl, hvowels⟩
    -- a `y` is none of the letters of a hissing end
    obtain rfl | rfl := hletter.1 hy <;> simp_all [endingOf, endingBy, isLetter]

theorem kebabChars_concat_small (word : List Char) {c : Char} (hupper : isUpper c = false)
    (hlower : lowerChars c = [c]) : kebabChars (word ++ [c]) = kebabChars word ++ [c] := by
  rw [kebabChars_concat, hlower, breaksBefore, hupper, Bool.and_false, if_neg Bool.false_ne_true,
    List.append_nil]

/-- A name that ends in an `e` has the plain plural, also in kebab case. -/
theorem pluralChars_kebab_e (word : List Char) :
    pluralChars (kebabChars (word ++ ['e'])) = kebabChars word ++ ['e', 's'] := by
  rw [kebabChars_concat_small word rfl rfl, pluralChars_concat_e]

/-- The route segment of a name whose plural replaces the `y`: a hyphen before the `y` stays. -/
theorem pluralChars_kebab_hardY {word : List Char} {c : Char}
    (h : endingOf word.getLast? c = .hardY) :
    pluralChars (kebabChars (word ++ [c])) =
      kebabChars word ++ (if breaksBefore word.getLast? c then ['-'] else []) ++
        ['i', 'e', 's'] := by
  have hlower : lowerChars c = ['y'] := by
    obtain ⟨rfl | rfl, -⟩ := endingOf_eq_hardY.1 h <;> rfl
  have hending :
      endingOf (if breaksBefore word.getLast? c then some '-' else word.getLast?) c = .hardY := by
    split_ifs
    · exact endingOf_eq_hardY.2 ⟨(endingOf_eq_hardY.1 h).1, '-', rfl, by simp [isLetter]⟩
    · exact h
  rw [pluralChars_kebab, hending, kebabChars_concat, hlower, Ending.plural,
    List.dropLast_concat]

/-- Of the small letters, the vowels are those that are vowels in either case. -/
theorem isVowel_eq_false_iff {p : Char} (hlower : isLower p = true) :
    isVowel p = false ↔ ∀ v ∈ ['a', 'e', 'i', 'o', 'u'], isLetter v p = false := by
  have hcapital : ∀ v ∈ ['a', 'e', 'i', 'o', 'u'], p ≠ v.toUpper := by
    rintro v hv rfl
    simp only [List.mem_cons, List.not_mem_nil, or_false] at hv
    obtain rfl | rfl | rfl | rfl | rfl := hv <;> exact absurd hlower (by decide)
  simp only [isVowel, isLetter, List.contains_eq_any_beq, List.any_eq_false, beq_iff_eq,
    Bool.or_eq_false_iff, beq_eq_false_iff_ne]
  exact ⟨fun h v hv => ⟨h v hv, hcapital v hv⟩, fun h v hv => (h v hv).1⟩

/-- A break before a `y` is one between a small consonant and a capital. -/
theorem exists_of_breaksBefore_hardY {word : List Char} {c : Char}
    (h : endingOf word.getLast? c = .hardY) (hbreak : breaksBefore word.getLast? c = true) :
    c = 'Y' ∧ ∃ stem p, word = stem ++ [p] ∧ isLower p = true ∧ isVowel p = false := by
  obtain ⟨hc, p, hp, hvowels⟩ := endingOf_eq_hardY.1 h
  rw [breaksBefore, hp, Option.any_some, Bool.and_eq_true] at hbreak
  obtain ⟨stem, rfl⟩ := List.getLast?_eq_some_iff.1 hp
  refine ⟨?_, stem, p, rfl, hbreak.1, (isVowel_eq_false_iff hbreak.1).2 hvowels⟩
  obtain rfl | rfl := hc
  · exact absurd hbreak.2 (by decide)
  · rfl

/-- A hissing end that kebab case no longer sees is cut by a hyphen. -/
theorem twins_of_hissing {word : List Char} {c : Char} (h : endingOf word.getLast? c = .hissing)
    (hroute : pluralChars (kebabChars (word ++ [c])) ≠
      pluralChars (kebabChars (word ++ [c] ++ ['e']))) :
    PluralTwins (word ++ [c]) (word ++ [c] ++ ['e']) := by
  rw [pluralChars_kebab_e, pluralChars_kebab] at hroute
  have hbreak : breaksBefore word.getLast? c = true := by
    by_contra hno
    rw [if_neg hno, h] at hroute
    exact hroute rfl
  have hending : endingOf (some '-') c ≠ .hissing := by
    rw [if_pos hbreak] at hroute
    exact fun hhissing => hroute (by rw [hhissing]; rfl)
  obtain hletter | ⟨hh, p, hp, hcs⟩ := endingOf_eq_hissing.1 h
  · exact absurd (endingOf_eq_hissing.2 (.inl hletter)) hending
  · rw [breaksBefore, hp, Option.any_some, Bool.and_eq_true] at hbreak
    obtain ⟨stem, rfl⟩ := List.getLast?_eq_some_iff.1 hp
    obtain rfl : c = 'H' := by
      obtain rfl | rfl := isLetter_iff.1 hh
      · exact absurd hbreak.2 (by decide)
      · rfl
    have hsmall : p = 'c' ∨ p = 's' := by
      obtain ⟨hlower, -⟩ := hbreak
      obtain hletter | hletter := hcs <;> obtain rfl | rfl := isLetter_iff.1 hletter
      · exact .inl rfl
      · exact absurd hlower (by decide)
      · exact .inr rfl
      · exact absurd hlower (by decide)
    simpa using PluralTwins.hissing stem hsmall

/-- Of two names whose plurals replace a `y` after the same stem, one has a capital there. -/
theorem twins_of_hardY {word : List Char} {c d : Char} (hc : endingOf word.getLast? c = .hardY)
    (hd : endingOf word.getLast? d = .hardY) (hbreak : breaksBefore word.getLast? c = true)
    (hroute : pluralChars (kebabChars (word ++ [c])) ≠ pluralChars (kebabChars (word ++ [d]))) :
    PluralTwins (word ++ [c]) (word ++ [d]) := by
  obtain ⟨rfl, stem, p, rfl, hlower, hvowel⟩ := exists_of_breaksBefore_hardY hc hbreak
  obtain ⟨rfl | rfl, -⟩ := endingOf_eq_hardY.1 hd
  · simpa using PluralTwins.hardY stem hlower hvowel
  · exact absurd rfl hroute

/-- A name whose plural replaces a `y`, and the name that is spelled like that plural. -/
theorem twins_of_spelledOut {word : List Char} {c : Char} (h : endingOf word.getLast? c = .hardY)
    (hroute : pluralChars (kebabChars (word ++ [c])) ≠
      pluralChars (kebabChars (word ++ ['i'] ++ ['e']))) :
    PluralTwins (word ++ [c]) (word ++ ['i'] ++ ['e']) := by
  rw [pluralChars_kebab_e, kebabChars_concat_small (c := 'i') word rfl rfl,
    pluralChars_kebab_hardY h] at hroute
  have hbreak : breaksBefore word.getLast? c = true := by
    by_contra hno
    rw [if_neg hno] at hroute
    exact hroute (by simp)
  obtain ⟨rfl, stem, p, rfl, hlower, hvowel⟩ := exists_of_breaksBefore_hardY h hbreak
  simpa using PluralTwins.spelledOut stem hlower hvowel

theorem PluralTwins.pair {a b : List Char} (h : PluralTwins a b) : PluralPair a b := by
  have hhardY : ∀ (stem : List Char) {p c : Char}, (c = 'y' ∨ c = 'Y') → isLower p = true →
      isVowel p = false → endingOf (stem ++ [p]).getLast? c = .hardY := by
    intro stem p c hc hlower hvowel
    exact endingOf_eq_hardY.2 ⟨hc, p, List.getLast?_concat, (isVowel_eq_false_iff hlower).1 hvowel⟩
  cases h with
  | @hissing stem c hc =>
    have hletter : isLetter 'c' c = true ∨ isLetter 's' c = true := by
      obtain rfl | rfl := hc <;> decide
    have hending : endingOf (stem ++ [c]).getLast? 'H' = .hissing :=
      endingOf_eq_hissing.2 (.inr ⟨rfl, c, List.getLast?_concat, hletter⟩)
    simpa using PluralPair.hissing hending
  | @hardY stem c hlower hvowel =>
    simpa using PluralPair.hardY (hhardY stem (.inr rfl) hlower hvowel)
      (hhardY stem (.inl rfl) hlower hvowel)
  | @spelledOut stem c hlower hvowel =>
    simpa using PluralPair.spelledOut (hhardY stem (.inr rfl) hlower hvowel)

theorem PluralTwins.pluralChars_eq {a b : List Char} (h : PluralTwins a b) :
    pluralChars a = pluralChars b := h.pair.pluralChars_eq

theorem PluralTwins.ne {a b : List Char} (h : PluralTwins a b) : a ≠ b := by
  cases h <;> simp

/-- Twins are found by the last two characters of the first name. -/
def isPluralTwin (a b : List Char) : Bool :=
  match a.reverse with
  | 'H' :: c :: stem => (c == 'c' || c == 's') && b == stem.reverse ++ [c, 'H', 'e']
  | 'Y' :: c :: stem => isLower c && !isVowel c &&
      (b == stem.reverse ++ [c, 'y'] || b == stem.reverse ++ [c, 'i', 'e'])
  | _ => false

theorem isPluralTwin_iff {a b : List Char} : isPluralTwin a b = true ↔ PluralTwins a b := by
  constructor
  · intro h
    unfold isPluralTwin at h
    split at h
    · rename_i c stem hreverse
      obtain rfl := List.reverse_eq_iff.1 hreverse
      simp only [Bool.and_eq_true, Bool.or_eq_true, beq_iff_eq] at h
      obtain ⟨hc, rfl⟩ := h
      simpa using PluralTwins.hissing stem.reverse hc
    · rename_i c stem hreverse
      obtain rfl := List.reverse_eq_iff.1 hreverse
      simp only [Bool.and_eq_true, Bool.or_eq_true, beq_iff_eq, Bool.not_eq_true'] at h
      obtain ⟨⟨hlower, hvowel⟩, rfl | rfl⟩ := h
      · simpa using PluralTwins.hardY stem.reverse hlower hvowel
      · simpa using PluralTwins.spelledOut stem.reverse hlower hvowel
    · cases h
  · intro h
    cases h with
    | hissing stem hc => simpa [isPluralTwin] using hc
    | hardY stem hlower hvowel => simp [isPluralTwin, hlower, hvowel]
    | spelledOut stem hlower hvowel => simp [isPluralTwin, hlower, hvowel]

instance (a b : List Char) : Decidable (PluralTwins a b) :=
  decidable_of_iff (isPluralTwin a b = true) isPluralTwin_iff

/-- A pair with different route segments are twins. -/
theorem PluralPair.twins {a b : List Char} (h : PluralPair a b)
    (hroute : pluralChars (kebabChars a) ≠ pluralChars (kebabChars b)) :
    PluralTwins a b ∨ PluralTwins b a := by
  cases h with
  | hissing h => exact .inl (twins_of_hissing h hroute)
  | @hardY u c d hc hd =>
    by_cases hbreak : breaksBefore u.getLast? c = true
    · exact .inl (twins_of_hardY hc hd hbreak hroute)
    by_cases hbreak' : breaksBefore u.getLast? d = true
    · exact .inr (twins_of_hardY hd hc hbreak' hroute.symm)
    · rw [pluralChars_kebab_hardY hc, pluralChars_kebab_hardY hd, if_neg hbreak, if_neg hbreak']
        at hroute
      exact absurd rfl hroute
  | spelledOut h => exact .inl (twins_of_spelledOut h hroute)

/-- One plural and different route segments make twins. -/
theorem pluralChars_eq_iff {a b : List Char}
    (hroute : pluralChars (kebabChars a) ≠ pluralChars (kebabChars b)) :
    pluralChars a = pluralChars b ↔ PluralTwins a b ∨ PluralTwins b a := by
  have hne : a ≠ b := fun heq => hroute (by rw [heq])
  constructor
  · intro hplural
    obtain hpair | hpair := (pluralChars_eq_iff_pair hne).1 hplural
    · exact hpair.twins hroute
    · exact (hpair.twins hroute.symm).symm
  · rintro (htwins | htwins)
    · exact htwins.pluralChars_eq
    · exact htwins.pluralChars_eq.symm

/-- **Names with different route segments have one plural if and only if they are twins.** -/
theorem plural_eq_iff {a b : String} (hroute : routeSegment a ≠ routeSegment b) :
    plural a = plural b ↔ PluralTwins a.toList b.toList ∨ PluralTwins b.toList a.toList := by
  have hsegment : ∀ name : String,
      routeSegment name = String.ofList (pluralChars (kebabChars name.toList)) := fun name => by
    rw [routeSegment, plural, kebab, String.toList_ofList]
  rw [hsegment, hsegment, ne_eq, String.ofList_inj] at hroute
  rw [plural, plural, String.ofList_inj]
  exact pluralChars_eq_iff hroute

end ServiceScaffold.Naming
