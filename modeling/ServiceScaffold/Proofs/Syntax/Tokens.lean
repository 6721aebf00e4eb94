import Mathlib.Data.List.Infix
import Mathlib.Data.List.TakeWhile
import Mathlib.Tactic.SplitIfs
import ServiceScaffold.Syntax.Token

/-!
# What tokens leave of a text

Every function that reads a token returns a rest of its text.

* `Token.ofText_suffix` : so does the reading of a token;
* `Token.ofText_word` : a word is what stands before that rest, and it has the characters of names.
-/

namespace ServiceScaffold.Syntax

open Number

/-! ### Rests -/

theorem suffix_cons_of_suffix {c : Char} {cs rest : List Char} (h : rest <:+ cs) :
    rest <:+ c :: cs := h.trans (List.suffix_cons c cs)

theorem digitRun_suffix (p : Char → Bool) (after : Bool) (cs : List Char) :
    digitRun p after cs <:+ cs := by
  fun_induction digitRun p after cs <;> grind [suffix_cons_of_suffix]

theorem decimalRun?_suffix {cs rest : List Char} (h : decimalRun? cs = some rest) :
    rest <:+ cs := by
  unfold decimalRun? at h
  split at h
  · split_ifs at h
    obtain rfl := Option.some.inj h
    exact digitRun_suffix _ _ _
  · simp at h

theorem spanSign_suffix (cs : List Char) : (spanSign cs).2 <:+ cs := by
  unfold spanSign
  split
  · exact List.suffix_cons _ _
  · exact List.suffix_cons _ _
  · exact List.suffix_rfl

theorem exponentTail_suffix (cs : List Char) : exponentTail cs <:+ cs := by
  unfold exponentTail
  split
  · rename_i c rest
    split_ifs
    · rcases h : decimalRun? (spanSign rest).2 with _ | more
      · exact List.suffix_rfl
      · exact suffix_cons_of_suffix ((decimalRun?_suffix h).trans (spanSign_suffix rest))
    · exact List.suffix_rfl
  · exact List.suffix_rfl

theorem bigTail_suffix (cs : List Char) : bigTail cs <:+ cs := by
  unfold bigTail
  split
  · exact List.suffix_cons _ _
  · exact List.suffix_rfl

theorem baseRun?_suffix {p : Char → Bool} {cs rest : List Char} (h : baseRun? p cs = some rest) :
    rest <:+ cs := by
  unfold baseRun? at h
  split at h
  · split_ifs at h
    obtain rfl := Option.some.inj h
    exact (bigTail_suffix _).trans (digitRun_suffix _ _ _)
  · simp at h

/-- The rest after a number without a base. -/
theorem plainNumber_suffix {cs more : List Char} (h : decimalRun? cs = some more) :
    (match more with
      | '.' :: tail => exponentTail ((decimalRun? tail).getD tail)
      | 'n' :: tail => tail
      | _ => exponentTail more) <:+ cs := by
  refine List.IsSuffix.trans ?_ (decimalRun?_suffix h)
  split
  · rename_i tail
    refine suffix_cons_of_suffix ((exponentTail_suffix _).trans ?_)
    rcases hrun : decimalRun? tail with _ | after
    · exact List.suffix_rfl
    · exact decimalRun?_suffix hrun
  · exact List.suffix_cons _ _
  · exact exponentTail_suffix _

theorem number?_suffix {cs rest : List Char} (h : number? cs = some rest) : rest <:+ cs := by
  simp only [number?, Option.orElse_eq_or, Option.or_eq_some_iff] at h
  obtain hbased | ⟨-, hplain⟩ := h
  · split at hbased
    · split_ifs at hbased
      all_goals exact suffix_cons_of_suffix (suffix_cons_of_suffix (baseRun?_suffix hbased))
    · simp at hbased
  · split at hplain
    · obtain ⟨more, hmore, rfl⟩ := Option.map_eq_some_iff.1 hplain
      exact suffix_cons_of_suffix ((exponentTail_suffix more).trans (decimalRun?_suffix hmore))
    · obtain ⟨more, hmore, rfl⟩ := Option.map_eq_some_iff.1 hplain
      exact plainNumber_suffix hmore

theorem stringTail?_suffix {quote : Char} {cs rest : List Char}
    (h : stringTail? quote cs = some rest) : rest <:+ cs := by
  fun_induction stringTail? quote cs <;> grind [suffix_cons_of_suffix, List.suffix_cons]

theorem regexTail?_suffix {inClass : Bool} {cs rest : List Char}
    (h : regexTail? inClass cs = some rest) : rest <:+ cs := by
  fun_induction regexTail? inClass cs <;>
    grind [suffix_cons_of_suffix, List.dropWhile_suffix]

theorem blockCommentTail?_suffix {cs rest : List Char} (h : blockCommentTail? cs = some rest) :
    rest <:+ cs := by
  fun_induction blockCommentTail? cs <;> grind [suffix_cons_of_suffix]

theorem comment?_suffix {cs rest : List Char} (h : comment? cs = some rest) : rest <:+ cs := by
  unfold comment? at h
  split at h
  · obtain rfl := Option.some.inj h
    exact suffix_cons_of_suffix (suffix_cons_of_suffix (List.dropWhile_suffix _))
  · exact suffix_cons_of_suffix (suffix_cons_of_suffix (blockCommentTail?_suffix h))
  · simp at h

theorem blockCommentTail?_length {cs rest : List Char} (h : blockCommentTail? cs = some rest) :
    rest.length < cs.length := by
  fun_induction blockCommentTail? cs <;> grind

theorem comment?_length {cs rest : List Char} (h : comment? cs = some rest) :
    rest.length < cs.length := by
  unfold comment? at h
  split at h
  · obtain rfl := Option.some.inj h
    exact Nat.lt_succ_of_lt (Nat.lt_succ_of_le (List.dropWhile_suffix _).length_le)
  · exact Nat.lt_succ_of_lt (Nat.lt_succ_of_lt (blockCommentTail?_length h))
  · cases h

theorem blockCommentTail?_front {cs rest : List Char}
    (h : blockCommentTail? (cs ++ rest) = some rest) : blockCommentTail? cs = some [] := by
  fun_induction blockCommentTail? cs with
  | case1 => exact absurd (blockCommentTail?_length h) (Nat.lt_irrefl _)
  | case2 more =>
    have hmore : more ++ rest = rest := Option.some.inj h
    rw [List.append_left_eq_self.1 hmore]
  | case3 c cs hno ih =>
    rw [List.cons_append, blockCommentTail?.eq_def] at h
    split at h
    · cases h
    · rename_i more heq
      obtain ⟨rfl, htail⟩ := List.cons.inj heq
      obtain rfl := Option.some.inj h
      rcases cs with _ | ⟨d, cs⟩
      -- the closer would be part of what is left after it
      · have hlength := congrArg List.length htail
        simp at hlength
      · obtain ⟨rfl, -⟩ := List.cons.inj htail
        exact absurd rfl (hno cs rfl)
    · rename_i heq
      obtain ⟨rfl, rfl⟩ := List.cons.inj heq
      exact ih h

/-- What has been read as a comment is one, whatever follows it. -/
theorem comment?_front {cs rest : List Char} (h : comment? (cs ++ rest) = some rest) :
    comment? cs = some [] := by
  generalize htext : cs ++ rest = text at h
  unfold comment? at h
  split at h
  · rename_i more
    have hend := Option.some.inj h
    obtain ⟨front, hmore⟩ : rest <:+ more := hend ▸ List.dropWhile_suffix _
    obtain rfl : cs = '/' :: '/' :: front := by
      rw [← hmore] at htext
      exact List.append_cancel_right htext
    rw [← hmore, List.dropWhile_append] at hend
    split_ifs at hend with hfront
    · rw [comment?, List.isEmpty_iff.1 hfront]
    -- a line end in the comment would be left over
    · exact absurd (List.append_left_eq_self.1 hend) (by simpa using hfront)
  · rename_i more
    obtain ⟨front, hmore⟩ := blockCommentTail?_suffix h
    obtain rfl : cs = '/' :: '*' :: front := by
      rw [← hmore] at htext
      exact List.append_cancel_right htext
    exact blockCommentTail?_front (hmore ▸ h)
  · cases h

theorem templateTail_suffix (cs : List Char) : templateTail cs <:+ cs := by
  fun_induction templateTail cs <;> grind [suffix_cons_of_suffix]

/-! ### Names -/

/-- A character that may stand in a name or in one of its escapes. -/
def isNamePart (c : Char) : Bool :=
  isNameChar c || (hexValue? c).isSome || ['\\', '\x7b', '\x7d'].contains c

theorem isNamePart_of_mem_takeWhile {c : Char} {cs : List Char}
    (h : c ∈ cs.takeWhile fun c => (hexValue? c).isSome) : isNamePart c = true := by
  have hhex := List.mem_takeWhile_imp h
  simp [isNamePart, hhex]

theorem nameEscape?_eq {cs escape rest : List Char} (h : nameEscape? cs = some (escape, rest)) :
    cs = escape ++ rest ∧ ∀ c ∈ escape, isNamePart c = true := by
  unfold nameEscape? at h
  split at h
  · rename_i tail
    dsimp only at h
    split at h
    · rename_i after hafter
      split_ifs at h
      obtain ⟨rfl, rfl⟩ := Prod.mk.inj (Option.some.inj h)
      have hcut := List.takeWhile_append_dropWhile (p := fun c => (hexValue? c).isSome) (l := tail)
      rw [hafter] at hcut
      refine ⟨?_, fun c hc => ?_⟩
      · conv_lhs => rw [← hcut]
        simp
      · obtain hfront | hbrace := List.mem_append.1 hc
        · obtain hmark | hdigit := List.mem_append.1 hfront
          · exact List.all_eq_true.1 (by decide) c hmark
          · exact isNamePart_of_mem_takeWhile hdigit
        · obtain rfl := List.mem_singleton.1 hbrace
          decide
    · simp at h
  · rename_i a b c d tail _
    split_ifs at h with hall
    obtain ⟨rfl, rfl⟩ := Prod.mk.inj (Option.some.inj h)
    refine ⟨rfl, fun c' hc => ?_⟩
    obtain hmark | hdigit := List.mem_append.1 (show c' ∈ ['\\', 'u'] ++ [a, b, c, d] from hc)
    · exact List.all_eq_true.1 (by decide) c' hmark
    · have hhex := List.all_eq_true.1 hall c' hdigit
      simp only [isNamePart, hhex, Bool.or_true, Bool.true_or]
  · simp at h

/-- A name is what stands before the rest. -/
theorem nameTail_eq (fuel : Nat) (cs : List Char) :
    cs = (nameTail fuel cs).1 ++ (nameTail fuel cs).2 ∧
      ∀ c ∈ (nameTail fuel cs).1, isNamePart c = true := by
  fun_induction nameTail fuel cs with
  | case1 cs => simp
  | case2 => simp
  | case3 fuel c cs hc name rest hrec ih =>
    rw [hrec] at ih
    refine ⟨by rw [List.cons_append, ← ih.1], List.forall_mem_cons.2 ⟨?_, ih.2⟩⟩
    rw [isNamePart, hc, Bool.true_or, Bool.true_or]
  | case4 fuel c cs hc escape rest hescape name rest' hrec ih =>
    obtain ⟨hcut, hparts⟩ := nameEscape?_eq hescape
    rw [hrec] at ih
    exact ⟨by rw [List.append_assoc, ← ih.1, hcut], List.forall_mem_append.2 ⟨hparts, ih.2⟩⟩
  | case5 => simp

theorem name?_eq {cs name rest : List Char} (h : name? cs = some (name, rest)) :
    cs = name ++ rest ∧ ∀ c ∈ name, isNamePart c = true := by
  unfold name? at h
  split at h
  · simp at h
  · rename_i c tail
    split_ifs at h
    have hname := nameTail_eq (tail.length + 1) (c :: tail)
    rwa [Option.some.inj h] at hname

theorem name?_suffix {cs name rest : List Char} (h : name? cs = some (name, rest)) :
    rest <:+ cs := ⟨name, (name?_eq h).1.symm⟩

/-! ### Tokens -/

/-- What a token leaves of a text. -/
theorem Token.ofText_suffix (cs : List Char) : (Token.ofText cs).2 <:+ cs := by
  unfold Token.ofText
  split
  · exact List.suffix_rfl
  rename_i c rest
  split
  · rename_i hname
    exact name?_suffix hname
  split
  · rename_i hnumber
    exact number?_suffix hnumber
  have hrest : rest <:+ c :: rest := List.suffix_cons _ _
  -- strings, private names and marks; what does not end takes one character only
  split_ifs
  · split
    · rename_i hstring
      exact suffix_cons_of_suffix (stringTail?_suffix hstring)
    · exact hrest
  · exact hrest
  · split
    · rename_i hname
      exact suffix_cons_of_suffix (name?_suffix hname)
    · exact hrest
  · exact suffix_cons_of_suffix (List.drop_suffix _ _)
  all_goals
    split
    · exact List.drop_suffix _ _
    · exact hrest

/-- A word is what stands before the rest, and it has the characters of names. -/
theorem Token.ofText_word {cs w : List Char} (h : (Token.ofText cs).1 = .word w) :
    cs = w ++ (Token.ofText cs).2 ∧ ∀ c ∈ w, isNamePart c = true := by
  unfold Token.ofText at h ⊢
  split at h
  · simp at h
  rename_i c rest
  split at h
  · rename_i hname
    obtain rfl := Token.word.inj h
    exact name?_eq hname
  -- only names are words
  · exfalso
    revert h
    split_ifs <;> (repeat' split) <;> simp

/-! ### Names -/

theorem Token.ofText_of_name {cs w rest : List Char} (h : name? cs = some (w, rest)) :
    Token.ofText cs = (.word w, rest) := by
  rcases cs with _ | ⟨c, cs⟩
  · cases h
  · simp only [Token.ofText, h]

theorem name?_of_word {cs w : List Char} (h : (Token.ofText cs).1 = .word w) :
    name? cs = some (w, (Token.ofText cs).2) := by
  unfold Token.ofText at h ⊢
  split at h
  · cases h
  split at h
  · rename_i hname
    obtain rfl := Token.word.inj h
    simp only [hname]
  · exfalso
    revert h
    split_ifs <;> (repeat' split) <;> simp

/-- The text is one name. -/
def IsName (w : List Char) : Prop := Token.ofText w = (.word w, [])

instance (w : List Char) : Decidable (IsName w) := inferInstanceAs (Decidable (_ = _))

theorem IsName.ne_nil {w : List Char} (h : IsName w) : w ≠ [] := by
  rintro rfl
  cases h

theorem IsName.isNamePart {w : List Char} (h : IsName w) : ∀ c ∈ w, isNamePart c = true :=
  (Token.ofText_word (congrArg Prod.fst h)).2

theorem IsName.slash_notMem {w : List Char} (h : IsName w) : '/' ∉ w := fun hslash =>
  absurd (h.isNamePart _ hslash) (by decide)

theorem IsName.not_isLineEnd {w : List Char} (h : IsName w) :
    w.all (!isLineEnd ·) = true := by
  refine List.all_eq_true.2 fun c hc => ?_
  have hpart := h.isNamePart c hc
  by_contra hend
  simp only [isLineEnd, Bool.not_eq_true', Bool.not_eq_false, Bool.or_eq_true, beq_iff_eq] at hend
  obtain ((rfl | rfl) | hc) | hc := hend
  · exact absurd hpart (by decide)
  · exact absurd hpart (by decide)
  · rw [← Char.ofNat_toNat c, hc] at hpart
    exact absurd hpart (by decide)
  · rw [← Char.ofNat_toNat c, hc] at hpart
    exact absurd hpart (by decide)

end ServiceScaffold.Syntax
