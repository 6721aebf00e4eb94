import ServiceScaffold.Proofs.Naming.Plural

/-!
# The rule of plurals

Which words have one plural, and which words the rule treats as it is stated: `es` after a hissing
end, `ies` for a `y` that follows a consonant, `s` for all else.  The plural of a word takes every
character but a vowel for a consonant, so that it also replaces a `y` after a hyphen or a digit; and
kebab case puts a hyphen before each capital that follows a small letter.

* `Naming.Hisses`, `Naming.EndsInHardY` : the ends of a word in lower case;
* `Naming.SharesPlural` : two words with one plural;
* `Naming.plurals_agree_iff` : **there are no other words with one plural**; the stem that is kept
  when a `y` is replaced ends at the end of a character, and no other word than the empty one has an
  empty plural;
* `Naming.documentedPlural` : the rule as it is stated;
* `Naming.plural_documented_iff` : **the plural of a word is that of the rule if and only if no `y`
  at its end follows a character that is no letter.**
-/

namespace ServiceScaffold.Naming

open Text

/-! ### The ends of a word -/

/-- In lower case, the word ends in `s`, `x`, `z`, `ch` or `sh`. -/
def Hisses (word : String) : Prop :=
  ∃ ending ∈ ["s", "x", "z", "ch", "sh"], ending.toList <:+ toLower word.toList

/-- In lower case, the word ends in a `y`, and the character before it is no vowel. -/
def EndsInHardY (word : String) : Prop :=
  ∃ front c, toLower word.toList = front ++ [c, 'y'] ∧ c ∉ ['a', 'e', 'i', 'o', 'u']

theorem hisses_iff {word : String} : Hisses word ↔ endsHissing (toLower word.toList) = true := by
  simp [Hisses, endsHissing, hissingEnds]

theorem endsInHardY_eq_true {lower : List Char} :
    endsInHardY lower = true ↔
      ∃ front c, lower = front ++ [c, 'y'] ∧ c ∉ ['a', 'e', 'i', 'o', 'u'] := by
  constructor
  · intro h
    unfold endsInHardY at h
    split at h
    · rename_i c front hreverse
      exact ⟨front.reverse, c, by simpa using List.reverse_eq_iff.1 hreverse, by
        simpa [isVowel] using h⟩
    · cases h
  · rintro ⟨front, c, rfl, hc⟩
    simpa [endsInHardY, isVowel] using hc

instance (word : String) : Decidable (Hisses word) := decidable_of_iff _ hisses_iff.symm

instance (word : String) : Decidable (EndsInHardY word) :=
  decidable_of_iff _ endsInHardY_eq_true

theorem hisses_concat {u : List Char} {c : Char} :
    Hisses (String.ofList (u ++ [c])) ↔ endingOf u.getLast? c = .hissing := by
  rw [hisses_iff, String.toList_ofList, endsHissing_toLower]

theorem endsInHardY_ofList {u : List Char} {c : Char} :
    EndsInHardY (String.ofList (u ++ [c])) ↔ endingOf u.getLast? c = .hardY := by
  rw [EndsInHardY, ← endsInHardY_eq_true, String.toList_ofList, endsInHardY_toLower]

theorem not_endsInHardY_empty : ¬EndsInHardY "" := by decide

/-! ### Words with one plural -/

/-- Two words with one plural. -/
inductive SharesPlural : String → String → Prop where
  /-- `Tax` and `Taxe`. -/
  | silentE {a : String} (h : Hisses a) : SharesPlural a (a ++ "e")
  /-- `City` and `CitY`. -/
  | capital {w : String} (h : EndsInHardY (w ++ "y")) : SharesPlural (w ++ "y") (w ++ "Y")
  /-- `City` and `Citie`. -/
  | spelledOut {w y : String} (hy : y = "y" ∨ y = "Y") (h : EndsInHardY (w ++ y)) :
      SharesPlural (w ++ y) (w ++ "ie")

theorem hardY_capital {before : Option Char} {c d : Char} (h : endingOf before c = .hardY)
    (hd : d = 'y' ∨ d = 'Y') : endingOf before d = .hardY :=
  endingOf_eq_hardY.2 ⟨hd, (endingOf_eq_hardY.1 h).2⟩

theorem SharesPlural.pair {a b : String} (h : SharesPlural a b) :
    PluralPair a.toList b.toList := by
  have hlast : ∀ (w : String) (c : Char), EndsInHardY (w ++ String.ofList [c]) →
      endingOf w.toList.getLast? c = .hardY := by
    intro w c h
    rw [← String.ofList_toList (s := w), ← String.ofList_append] at h
    exact endsInHardY_ofList.1 h
  cases h with
  | silentE h =>
    obtain hnil | ⟨u, c, hu⟩ := List.eq_nil_or_concat' a.toList
    · rw [hisses_iff, hnil] at h
      exact absurd h (by decide)
    · rw [← String.ofList_toList (s := a), hu] at h
      simpa [hu] using PluralPair.hissing (hisses_concat.1 h)
  | @capital w h =>
    have hy := hlast w 'y' h
    simpa using PluralPair.hardY hy (hardY_capital hy (.inr rfl))
  | @spelledOut w y hy h =>
    obtain ⟨c, rfl⟩ : ∃ c, y = String.ofList [c] := by
      obtain rfl | rfl := hy
      · exact ⟨'y', rfl⟩
      · exact ⟨'Y', rfl⟩
    simpa using PluralPair.spelledOut (hlast w c h)

theorem PluralPair.shares {a b : List Char} (h : PluralPair a b) (hne : a ≠ b) :
    SharesPlural (String.ofList a) (String.ofList b) ∨
      SharesPlural (String.ofList b) (String.ofList a) := by
  cases h with
  | @hissing u c h =>
    have hsplit : String.ofList (u ++ [c] ++ ['e']) = String.ofList (u ++ [c]) ++ "e" :=
      String.ofList_append
    rw [hsplit]
    exact .inl (.silentE (hisses_concat.2 h))
  | @hardY u c d hc hd =>
    obtain ⟨rfl | rfl, -⟩ := endingOf_eq_hardY.1 hc <;>
      obtain ⟨rfl | rfl, -⟩ := endingOf_eq_hardY.1 hd
    · exact absurd rfl hne
    · rw [String.ofList_append, String.ofList_append]
      exact .inl (.capital (String.ofList_append ▸ endsInHardY_ofList.2 hc))
    · rw [String.ofList_append, String.ofList_append]
      exact .inr (.capital (String.ofList_append ▸ endsInHardY_ofList.2 hd))
    · exact absurd rfl hne
  | @spelledOut u c h =>
    have hy : String.ofList [c] = "y" ∨ String.ofList [c] = "Y" := by
      obtain ⟨rfl | rfl, -⟩ := endingOf_eq_hardY.1 h
      · exact .inl rfl
      · exact .inr rfl
    have hend : EndsInHardY (String.ofList u ++ String.ofList [c]) :=
      String.ofList_append ▸ endsInHardY_ofList.2 h
    rw [List.append_assoc, String.ofList_append, String.ofList_append]
    exact .inl (.spelledOut hy hend)

theorem plural_eq_empty_iff {word : String} : plural word = "" ↔ word = "" := by
  constructor
  · intro h
    by_contra hne
    have hchars : word.toList ≠ [] := by simpa using hne
    obtain ⟨stem, hstem⟩ := pluralChars_ends hchars
    rw [plural, hstem, String.ofList_append] at h
    simpa using congrArg String.length h
  · rintro rfl
    rfl

/-- A `y` that is replaced takes one byte, so that the stem before it ends at the end of a
character. -/
theorem plural_of_endsInHardY {word : String} (h : EndsInHardY word) :
    ∃ stem last : String, word = stem ++ last ∧ last.utf8ByteSize = 1 ∧
      plural word = stem ++ "ies" := by
  obtain hnil | ⟨u, c, hu⟩ := List.eq_nil_or_concat' word.toList
  · obtain rfl : word = "" := by simpa using hnil
    exact absurd h not_endsInHardY_empty
  · obtain rfl : word = String.ofList (u ++ [c]) := by rw [← hu, String.ofList_toList]
    have hending := endsInHardY_ofList.1 h
    refine ⟨String.ofList u, String.ofList [c], String.ofList_append, ?_, ?_⟩
    · obtain ⟨rfl | rfl, -⟩ := endingOf_eq_hardY.1 hending <;> rfl
    · rw [plural, String.toList_ofList, pluralChars_of_hardY hending, String.ofList_append]

/-- **Two words have one plural if and only if they share it by one of three rules.** -/
theorem plurals_agree_iff :
    (∀ a b : String, a ≠ b → (plural a = plural b ↔ SharesPlural a b ∨ SharesPlural b a)) ∧
      ∀ word : String,
        (EndsInHardY word → ∃ stem last : String, word = stem ++ last ∧ last.utf8ByteSize = 1 ∧
          plural word = stem ++ "ies") ∧
        (plural word = "" ↔ word = "") ∧ (word ≠ "" → ∃ stem, plural word = stem ++ "s") := by
  refine ⟨fun a b hne => ?_, fun word => ⟨plural_of_endsInHardY, plural_eq_empty_iff, ?_⟩⟩
  · have hlists : a.toList ≠ b.toList := fun heq => hne (String.toList_inj.1 heq)
    rw [plural, plural, String.ofList_inj]
    constructor
    · intro hplural
      obtain hpair | hpair := (pluralChars_eq_iff_pair hlists).1 hplural
      · simpa using hpair.shares hlists
      · simpa using (hpair.shares hlists.symm).symm
    · rintro (h | h)
      · exact h.pair.pluralChars_eq
      · exact h.pair.pluralChars_eq.symm
  · intro hword
    have hchars : word.toList ≠ [] := by simpa using hword
    obtain ⟨stem, hstem⟩ := pluralChars_ends hchars
    exact ⟨String.ofList stem, by rw [plural, hstem, String.ofList_append]⟩

theorem plurals_agree_categorie :
    "CategorY" ≠ "Categorie" ∧ plural "CategorY" = plural "Categorie" ∧
      EndsInHardY "CategorY" ∧ (∃ stem last : String, "CategorY" = stem ++ last ∧
        last.utf8ByteSize = 1 ∧ plural "CategorY" = stem ++ "ies") ∧
      ∃ stem, plural "CategorY" = stem ++ "s" := by
  have hne : "CategorY" ≠ "Categorie" := by decide
  have hend : EndsInHardY ("Categor" ++ "Y") := by decide
  obtain ⟨hcut, -, hends⟩ := plurals_agree_iff.2 "CategorY"
  exact ⟨hne, (plurals_agree_iff.1 _ _ hne).2 (.inl (.spelledOut (.inr rfl) hend)), hend,
    hcut hend, hends (by decide)⟩

/-! ### The rule as it is stated -/

/-- The word ends in a `y`, small or capital, right after a consonant: an alphabetic character that
is no vowel. -/
def endsInConsonantY (isAlphabetic : Char → Bool) (word : List Char) : Bool :=
  match word.reverse with
  | y :: c :: _ => (y == 'y' || y == 'Y') && isAlphabetic c && !isVowel c.toLower
  | _ => false

/-- The plural of the rule as it is stated, given which characters are alphabetic. -/
def documentedChars (isAlphabetic : Char → Bool) (word : List Char) : List Char :=
  if endsHissing (toLower word) then word ++ ['e', 's']
  else if endsInConsonantY isAlphabetic word then word.dropLast ++ ['i', 'e', 's']
  else word ++ ['s']

/-- The plural of the rule as it is stated. -/
def documentedPlural (isAlphabetic : Char → Bool) (word : String) : String :=
  String.ofList (documentedChars isAlphabetic word.toList)

/-- The word ends in a `y`, small or capital, right after a character that is no letter. -/
def EndsInLooseY (isAlphabetic : Char → Bool) (word : List Char) : Prop :=
  ∃ stem c y, word = stem ++ [c, y] ∧ (y = 'y' ∨ y = 'Y') ∧ isAlphabetic c = false ∧
    isVowel c.toLower = false

theorem isVowel_toLower_iff {p : Char} :
    isVowel p.toLower = false ↔ ∀ v ∈ ['a', 'e', 'i', 'o', 'u'], isLetter v p = false := by
  have hletter : ∀ v ∈ ['a', 'e', 'i', 'o', 'u'], (p.toLower == v) = isLetter v p := by
    intro v hv
    have hplain : ∀ v ∈ ['a', 'e', 'i', 'o', 'u'], isPlain v = true :=
      List.all_eq_true.1 (by decide)
    exact (lowersTo_toLower p v (hplain v hv)).1
  rw [isVowel, List.contains_eq_any_beq, List.any_eq_false]
  constructor
  · intro h v hv
    rw [← hletter v hv]
    simpa using h v hv
  · intro h v hv
    simpa [hletter v hv] using h v hv

section

variable {isAlphabetic : Char → Bool} {u : List Char} {c p : Char}

theorem endsInConsonantY_concat :
    endsInConsonantY isAlphabetic (u ++ [p] ++ [c]) =
      ((c == 'y' || c == 'Y') && isAlphabetic p && !isVowel p.toLower) := by
  simp [endsInConsonantY]

theorem endsInLooseY_concat :
    EndsInLooseY isAlphabetic (u ++ [p] ++ [c]) ↔
      (c = 'y' ∨ c = 'Y') ∧ isAlphabetic p = false ∧ isVowel p.toLower = false := by
  constructor
  · rintro ⟨stem, q, y, hword, h⟩
    have hsplit : u ++ [p] ++ [c] = stem ++ [q] ++ [y] := by simpa using hword
    obtain ⟨hfront, hlast⟩ := List.append_inj' hsplit rfl
    obtain ⟨-, hbefore⟩ := List.append_inj' hfront rfl
    obtain rfl := List.singleton_inj.1 hlast
    obtain rfl := List.singleton_inj.1 hbefore
    exact h
  · intro h
    exact ⟨u, p, c, by simp, h⟩

theorem endingOf_concat_eq_hardY :
    endingOf (u ++ [p]).getLast? c = .hardY ↔ (c = 'y' ∨ c = 'Y') ∧ isVowel p.toLower = false := by
  rw [endingOf_eq_hardY, isVowel_toLower_iff, List.getLast?_concat]
  simp

/-- A word of two characters or more, one case for each rule that its plural is formed by. -/
theorem pluralChars_concat_documented :
    pluralChars (u ++ [p] ++ [c]) = documentedChars isAlphabetic (u ++ [p] ++ [c]) ↔
      ¬EndsInLooseY isAlphabetic (u ++ [p] ++ [c]) := by
  rw [endsInLooseY_concat, documentedChars, endsInConsonantY_concat, List.dropLast_concat]
  have hrule := endsHissing_toLower (u ++ [p]) c
  cases hending : endingOf (u ++ [p]).getLast? c with
  | hissing =>
    have hy : ¬(c = 'y' ∨ c = 'Y') := by
      rintro (rfl | rfl) <;> simp [endingOf_eq_hissing, isLetter] at hending
    rw [if_pos (hrule.2 hending), pluralChars_of_hissing hending]
    exact iff_of_true rfl fun h => hy h.1
  | hardY =>
    obtain ⟨hy, hvowel⟩ := endingOf_concat_eq_hardY.1 hending
    rw [if_neg (mt hrule.1 (by rw [hending]; decide)), pluralChars_of_hardY hending]
    cases hletter : isAlphabetic p
    · simp [hy, hvowel]
    · simp [hy, hvowel]
  | other =>
    have hhard : ¬((c = 'y' ∨ c = 'Y') ∧ isVowel p.toLower = false) := by
      rw [← endingOf_concat_eq_hardY, hending]
      decide
    have hno : ((c == 'y' || c == 'Y') && isAlphabetic p && !isVowel p.toLower) = false := by
      grind
    rw [if_neg (mt hrule.1 (by rw [hending]; decide)), hno, if_neg Bool.false_ne_true,
      pluralChars_of_other hending]
    exact iff_of_true rfl fun h => hhard ⟨h.1, h.2.2⟩

/-- A single character has nothing before it that could be a consonant. -/
theorem pluralChars_single_documented (c : Char) :
    pluralChars [c] = documentedChars isAlphabetic [c] := by
  have hno : endsInConsonantY isAlphabetic [c] = false := rfl
  have hrule := endsHissing_toLower [] c
  have hplural := pluralChars_concat [] c
  rw [List.nil_append] at hrule hplural
  rw [documentedChars, hno, hplural]
  cases hending : endingOf ([] : List Char).getLast? c with
  | hissing => rw [if_pos (hrule.2 hending), Ending.plural]
  | hardY =>
    obtain ⟨-, p, hnone, -⟩ := endingOf_eq_hardY.1 hending
    cases hnone
  | other =>
    rw [if_neg (mt hrule.1 (by rw [hending]; decide)), if_neg Bool.false_ne_true, Ending.plural]

/-- A hyphen stands before the capital `Y` after a small letter, and the `Y` is replaced. -/
theorem pluralChars_kebab_capital (u : List Char) (hlower : isLower c = true) :
    pluralChars (kebabChars (u ++ [c] ++ ['Y'])) =
      kebabChars (u ++ [c]) ++ ['-', 'i', 'e', 's'] := by
  have hbreak : breaksBefore (u ++ [c]).getLast? 'Y' = true := by
    rw [List.getLast?_concat, breaksBefore, Option.any_some, hlower]
    rfl
  have hending : endingOf (some '-') 'Y' = .hardY := rfl
  have hy : lowerChars 'Y' = ['y'] := rfl
  rw [pluralChars_kebab, if_pos hbreak, hending, kebabChars_concat, if_pos hbreak, hy,
    Ending.plural, List.dropLast_concat, List.append_assoc]
  rfl

end

/-- **The plural of a word is that of the rule as it is stated if and only if no `y` at its end
follows a character that is no letter.**  Kebab case makes such ends: it puts a hyphen before a
capital `Y` that follows a small letter. -/
theorem plural_documented_iff (isAlphabetic : Char → Bool) :
    (∀ word : String, word ≠ "" → (plural word = documentedPlural isAlphabetic word ↔
      ¬EndsInLooseY isAlphabetic word.toList)) ∧
    ∀ (stem : String) (c : Char), isLower c = true →
      routeSegment (stem.push c ++ "Y") = kebab (stem.push c) ++ "-ies" := by
  refine ⟨fun word hword => ?_, fun stem c hlower => ?_⟩
  · rw [plural, documentedPlural, String.ofList_inj]
    obtain hnil | ⟨u, c, hu⟩ := List.eq_nil_or_concat' word.toList
    · exact absurd (by simpa using hnil) hword
    obtain rfl | ⟨u, p, rfl⟩ := List.eq_nil_or_concat' u
    · rw [hu]
      refine iff_of_true (pluralChars_single_documented c) ?_
      rintro ⟨stem, q, y, hlong, -⟩
      simpa using congrArg List.length hlong
    · rw [hu]
      exact pluralChars_concat_documented
  · have hword : (stem.push c ++ "Y").toList = stem.toList ++ [c] ++ ['Y'] := by simp
    rw [routeSegment, plural, kebab, kebab, String.toList_ofList, hword, String.toList_push,
      pluralChars_kebab_capital _ hlower, String.ofList_append]

/-- Of the letters of ASCII: a `y` after a consonant, and one after a hyphen. -/
theorem plural_documented_city :
    "city" ≠ "" ∧ plural "city" = documentedPlural Char.isAlpha "city" ∧ isLower 'r' = true ∧
      routeSegment "CategorY" = kebab "Categor" ++ "-ies" := by
  have hne : "city" ≠ "" := by decide
  refine ⟨hne, ((plural_documented_iff Char.isAlpha).1 "city" hne).2 ?_, by decide,
    (plural_documented_iff Char.isAlpha).2 "Catego" 'r' (by decide)⟩
  rintro ⟨stem, c, y, hword, -, hletter, -⟩
  have hsplit : ['c', 'i'] ++ ['t', 'y'] = stem ++ [c, y] := by simpa using hword
  obtain ⟨-, hlast⟩ := List.append_inj' hsplit rfl
  obtain ⟨rfl, -⟩ := List.cons_eq_cons.1 hlast
  cases hletter

/-- A `y` after a hyphen is replaced, which the rule as it is stated does not do. -/
theorem plural_undocumented :
    routeSegment "CategorY" = "categor-ies" ∧
      documentedPlural Char.isAlpha (kebab "CategorY") = "categor-ys" := by
  decide +kernel

end ServiceScaffold.Naming
