import Mathlib.Tactic.ByContra
import ServiceScaffold.Naming
import ServiceScaffold.Proofs.Text.Case

/-!
# Camel case and kebab case

Camel case starts a word at every separator, after a digit and at the end of a run of capitals;
kebab case puts hyphens between a small letter and a capital only.  Where a name has no such other
words (`Naming.isCutAtHyphens`), its kebab case can be read off its camel case
(`Naming.hyphenate_camelChars`), so that **two such names of one camel case have one kebab case**
(`Naming.kebab_eq_of_camel_eq`).
-/

namespace ServiceScaffold.Naming

open Text

/-- The case of the character can be told: there is no capital in its lower case, and if it is a
capital itself, it is the one of its lower case. -/
def showsCase (c : Char) : Bool :=
  (lowerChars c).all (!isUpper ·) && (!isUpper c || capitalize (lowerChars c) == [c])

/-- After the character `before`, words start where kebab case puts a hyphen and nowhere else. -/
def isCutAfter : Char → List Char → Bool
  | _, [] => true
  | before, c :: cs =>
    !isSeparator c && showsCase c && (!startsWord before c cs.head? || isLower before) &&
      isCutAfter c cs

/-- The words of the name are cut where its kebab case has hyphens. -/
def isCutAtHyphens : List Char → Bool
  | [] => true
  | c :: cs => !isSeparator c && showsCase c && isCutAfter c cs

/-- A hyphen before every capital, and all in lower case. -/
def hyphenate (cs : List Char) : List Char :=
  cs.flatMap fun c => if isUpper c then '-' :: lowerChars c else [c]

theorem hyphenate_append (a b : List Char) : hyphenate (a ++ b) = hyphenate a ++ hyphenate b :=
  List.flatMap_append

theorem hyphenate_small {cs : List Char} (h : ∀ c ∈ cs, isUpper c = false) :
    hyphenate cs = cs := by
  induction cs with
  | nil => rfl
  | cons c cs ih =>
    have hc := h c List.mem_cons_self
    rw [hyphenate, List.flatMap_cons, if_neg (by simp [hc]), ← hyphenate,
      ih fun d hd => h d (List.mem_cons_of_mem _ hd)]
    rfl

theorem hyphenate_capital {c : Char} (h : isUpper c = true) :
    hyphenate [c] = '-' :: lowerChars c := by
  rw [hyphenate, List.flatMap_singleton, if_pos h]

theorem hyphenate_lowerChars {c : Char} (h : showsCase c = true) :
    hyphenate (lowerChars c) = lowerChars c := by
  rw [showsCase, Bool.and_eq_true, List.all_eq_true] at h
  exact hyphenate_small fun d hd => by simpa using h.1 d hd

theorem capitalize_append {a : List Char} (h : a ≠ []) (b : List Char) :
    capitalize (a ++ b) = capitalize a ++ b := by
  cases a with
  | nil => exact absurd rfl h
  | cons c a => simp [capitalize]

/-- The first word goes on from what has been read of it, and hyphens stand before the others. -/
theorem exists_wordsAfter {current : List Char} (hcurrent : current ≠ []) (before : Char)
    (cs : List Char) (h : isCutAfter before cs = true) :
    ∃ more others, wordsAfter current before cs = (current ++ more) :: others ∧
      hyphenate (more ++ others.flatMap capitalize) = kebabAfter (some before) cs := by
  induction cs generalizing current before with
  | nil =>
    refine ⟨[], [], ?_, rfl⟩
    simp [wordsAfter, hcurrent]
  | cons c cs ih =>
    simp only [isCutAfter, Bool.and_eq_true, Bool.not_eq_true', Bool.or_eq_true] at h
    obtain ⟨⟨⟨hseparator, hcase⟩, hstart⟩, hrest⟩ := h
    have hfull : current.isEmpty = false := by simpa using hcurrent
    simp only [wordsAfter, hseparator, hfull, kebabAfter, Option.any_some]
    by_cases hword : startsWord before c cs.head? = true
    -- a word starts at the capital, and there is a hyphen before it
    · obtain ⟨more, others, hwords, hkebab⟩ := ih (lowerChars_ne_nil c) c hrest
      have hbefore : isLower before = true := by simpa [hword] using hstart
      have hupper : isUpper c = true := by
        rw [startsWord, Bool.and_eq_true] at hword
        exact hword.1
      have hcapital : capitalize (lowerChars c) = [c] := by
        rw [showsCase, Bool.and_eq_true] at hcase
        simpa [hupper] using hcase.2
      refine ⟨[], (lowerChars c ++ more) :: others, ?_, ?_⟩
      · simp [hword, hwords]
      · rw [List.nil_append, List.flatMap_cons, capitalize_append (lowerChars_ne_nil c), hcapital,
          List.append_assoc, hyphenate_append, hyphenate_capital hupper, hkebab]
        simp [hbefore, hupper]
    -- the character goes to the word before it
    · obtain ⟨more, others, hwords, hkebab⟩ :=
        ih (List.append_ne_nil_of_left_ne_nil hcurrent (lowerChars c)) c hrest
      have hno : (isLower before && isUpper c) = false := by
        by_contra hhyphen
        rw [Bool.not_eq_false, Bool.and_eq_true] at hhyphen
        exact hword (by simp [startsWord, hhyphen])
      refine ⟨lowerChars c ++ more, others, ?_, ?_⟩
      · simp [hword, hwords]
      · rw [List.append_assoc, hyphenate_append, hyphenate_lowerChars hcase, hkebab,
          if_neg (Bool.eq_false_iff.1 hno), List.nil_append]

/-- The kebab case of a name can be read off its camel case. -/
theorem hyphenate_camelChars {cs : List Char} (h : isCutAtHyphens cs = true) :
    hyphenate (camelChars cs) = kebabChars cs := by
  cases cs with
  | nil => rfl
  | cons c cs =>
    simp only [isCutAtHyphens, Bool.and_eq_true, Bool.not_eq_true'] at h
    obtain ⟨⟨hseparator, hcase⟩, hrest⟩ := h
    obtain ⟨more, others, hwords, hkebab⟩ := exists_wordsAfter (lowerChars_ne_nil c) c cs hrest
    have hall : words (c :: cs) = (lowerChars c ++ more) :: others := by
      simp [words, wordsAfter, hseparator, hwords]
    rw [camelChars, hall]
    simp only
    rw [List.append_assoc, hyphenate_append, hyphenate_lowerChars hcase, hkebab]
    rfl

/-- **Two names of one camel case have one kebab case**, if both are cut at hyphens. -/
theorem kebab_eq_of_camel_eq {a b : String} (ha : isCutAtHyphens a.toList = true)
    (hb : isCutAtHyphens b.toList = true) (h : camel a = camel b) : kebab a = kebab b := by
  rw [camel, camel, String.ofList_inj] at h
  rw [kebab, kebab, ← hyphenate_camelChars ha, ← hyphenate_camelChars hb, h]

end ServiceScaffold.Naming
