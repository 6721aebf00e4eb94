import ServiceScaffold.Naming
import ServiceScaffold.Proofs.Text.Case

/-!
# Forms of names

* `Naming.plural_ends` : the plural of a word ends in an `s`, whichever rule it is formed by;
* `Naming.slash_notMem_kebab` : kebab case brings no slash into a name.
-/

namespace ServiceScaffold.Naming

/-- The plural of a word ends in an `s`, whichever rule it is formed by. -/
theorem pluralChars_ends {word : List Char} (h : word ≠ []) :
    ∃ stem, pluralChars word = stem ++ ['s'] := by
  have hempty : word.isEmpty = false := by simpa using h
  unfold pluralChars
  simp only [hempty, Bool.false_eq_true, if_false]
  split_ifs
  · exact ⟨word ++ ['e'], by simp⟩
  · exact ⟨word.dropLast ++ ['i', 'e'], by simp⟩
  · exact ⟨word, rfl⟩

theorem plural_ends {word : String} (h : plural word ≠ "") :
    ∃ stem, (plural word).toList = stem ++ ['s'] := by
  have hword : word.toList ≠ [] := fun hnil => by simp [plural, hnil, pluralChars] at h
  obtain ⟨stem, hstem⟩ := pluralChars_ends hword
  exact ⟨stem, by rw [plural, String.toList_ofList, hstem]⟩

/-! ### Slashes -/

open Text

theorem slash_notMem_lowerChars {c : Char} (hc : c ≠ '/') : '/' ∉ lowerChars c := by
  have hself : comesFromItself ('/' : Char).toNat = true := by decide +kernel
  exact fun hmem => hc (eq_of_mem_lowerChars hmem hself).symm

theorem slash_notMem_kebabAfter {before : Option Char} {cs : List Char} (h : '/' ∉ cs) :
    '/' ∉ kebabAfter before cs := by
  induction cs generalizing before with
  | nil => exact h
  | cons c cs ih =>
    obtain ⟨hc, hcs⟩ := not_or.1 (mt List.mem_cons.2 h)
    simp only [kebabAfter, List.mem_append, not_or]
    refine ⟨⟨?_, slash_notMem_lowerChars (Ne.symm hc)⟩, ih hcs⟩
    split_ifs <;> decide

/-- Kebab case brings no slash into a name. -/
theorem slash_notMem_kebab {name : String} (h : '/' ∉ name.toList) : '/' ∉ (kebab name).toList := by
  rw [kebab, String.toList_ofList]
  exact slash_notMem_kebabAfter h

end ServiceScaffold.Naming
