import ServiceScaffold.Json.Parser
import ServiceScaffold.Json.Printer
import Mathlib.Tactic.SplitIfs

/-!
# Quoted texts read back

A quoted text ends at its first quote that is not escaped, and every escape stands for the
character that it was printed for.

* `stringTail?_escapeChar` : a character is read back from its escape;
* `stringTail?_flatMap_escapeChar` : **a text is read back from its quoted form**, by induction on
  the text.
-/

namespace ServiceScaffold.Json

open Number

theorem hexValue?_hexDigit : ∀ n, n < 16 → hexValue? (hexDigit n) = some n := by
  decide

theorem hex4Value?_hex4 {n : Nat} (h : n < 65536) :
    hex4Value? (hexDigit (n / 4096 % 16)) (hexDigit (n / 256 % 16)) (hexDigit (n / 16 % 16))
      (hexDigit (n % 16)) = some n := by
  have hdigit (m : Nat) : hexValue? (hexDigit (m % 16)) = some (m % 16) :=
    hexValue?_hexDigit _ (Nat.mod_lt _ (by decide))
  simp only [hex4Value?, hdigit, Option.bind_eq_bind, Option.bind_some, Option.pure_def]
  congr 1
  omega

/-- A character is read back from its escape. -/
theorem stringTail?_escapeChar (done : List Char) (c : Char) (cs : List Char) :
    stringTail? done (escapeChar c ++ cs) = stringTail? (c :: done) cs := by
  unfold escapeChar
  split_ifs with hquote hback hnewline hreturn htab hbell hfeed hcontrol
  · subst hquote
    rfl
  · subst hback
    rfl
  · subst hnewline
    rfl
  · subst hreturn
    rfl
  · subst htab
    rfl
  · have hc : c = Char.ofNat 8 := by rw [← hbell, Char.ofNat_toNat]
    subst hc
    rfl
  · have hc : c = Char.ofNat 12 := by rw [← hfeed, Char.ofNat_toNat]
    subst hc
    rfl
  -- the number of a control character is too small to be that of half a pair
  · have hhex := hex4Value?_hex4 (n := c.toNat) (by omega)
    have hhigh : isHighHalf c.toNat = false := by simp [isHighHalf]; omega
    have hlow : isLowHalf c.toNat = false := by simp [isLowHalf]; omega
    simp only [hex4, List.cons_append, List.nil_append, stringTail?, hhex, hhigh, hlow,
      Char.ofNat_toNat, Bool.false_eq_true, if_false]
  · rw [List.singleton_append, stringTail?.eq_def]
    split
    · rename_i heq
      cases heq
    · rename_i heq
      exact absurd (List.cons.inj heq).1 hquote
    · rename_i heq
      exact absurd (List.cons.inj heq).1 hback
    · rename_i heq
      exact absurd (List.cons.inj heq).1 hback
    · rename_i heq
      obtain ⟨rfl, rfl⟩ := List.cons.inj heq
      rw [if_neg (by simp [hcontrol, hback])]

/-- **A text is read back from its quoted form.** -/
theorem stringTail?_flatMap_escapeChar (done cs rest : List Char) :
    stringTail? done (cs.flatMap escapeChar ++ '"' :: rest) =
      some (String.ofList (done.reverse ++ cs), rest) := by
  induction cs generalizing done with
  | nil => simp [stringTail?]
  | cons c cs ih =>
    rw [List.flatMap_cons, List.append_assoc, stringTail?_escapeChar, ih]
    simp

/-- What follows the opening quote of a quoted text is read as the text, if it is of use. -/
theorem text?_quote {shape : Shape} (h : shape.isUnused = false) (s : String) (rest : List Char) :
    text? shape (s.toList.flatMap escapeChar ++ '"' :: rest) = some (s, rest) := by
  rw [text?, h, if_neg (by simp), stringTail?_flatMap_escapeChar, List.reverse_nil, List.nil_append,
    String.ofList_toList]

theorem toList_quote (s : String) :
    (quote s).toList = '"' :: (s.toList.flatMap escapeChar ++ ['"']) := by
  simp [quote]

end ServiceScaffold.Json
