import ServiceScaffold.Proofs.Naming.Camel
import ServiceScaffold.Proofs.Text.Splitting

/-!
# Words of names

Separators end a word of a name, and so do some capitals, which are told by the characters before
and after them.  `Naming.words` goes along the name and keeps the character before.  Here a name is
split place by place: the character before a place is looked up, which fails at the first place.

* `Naming.Splitting` : a text being split, and `Splitting.read?`, which reads one character;
* `Naming.Splitting.IsAt` : what holds of it when a part of the text has been read;
* `Naming.Splitting.IsAt.exists_read?` : **reading a character does not fail and keeps to it**, and
  so does reading a whole text (`Splitting.IsAt.exists_run`), by induction;
* `Naming.wordsByPlace?_eq` : so the words are the same, and no look-up fails;
* `Naming.words_snakeChars` : the words come back from the name that joins them, if none of their
  characters starts a word;
* `Naming.words_exact` : **splitting loses nothing but separators**, and what follows from it for
  the forms of a name.
-/

namespace ServiceScaffold.Naming

open Text

/-! ### Separators and case -/

/-- The codes of the separators. -/
def separatorCodes : List Nat :=
  [0x2d, 0x5f] ++ List.range' 9 5 ++ [0x20, 0x85, 0xa0, 0x1680] ++ List.range' 0x2000 11 ++
    [0x2028, 0x2029, 0x202f, 0x205f, 0x3000]

theorem mem_separatorCodes {c : Char} (h : isSeparator c = true) : c.toNat ∈ separatorCodes := by
  have hunderscore : ('_' : Char).toNat = 0x5f := rfl
  have hhyphen : ('-' : Char).toNat = 0x2d := rfl
  simp only [isSeparator, isBlank, Bool.or_eq_true, Bool.and_eq_true, beq_iff_eq,
    decide_eq_true_eq, ← Char.toNat_inj] at h
  simp only [separatorCodes, List.mem_append, List.mem_cons, List.mem_range'_1, List.not_mem_nil,
    or_false]
  omega

theorem isSeparator_eq_false_iff {c : Char} :
    isSeparator c = false ↔ c ≠ '_' ∧ c ≠ '-' ∧ isBlank c = false := by
  simp [isSeparator, and_assoc]

/-- There is no separator in the lower case of another character. -/
theorem not_isSeparator_lowerChars {c : Char} (hc : isSeparator c = false) :
    ∀ d ∈ lowerChars c, isSeparator d = false := by
  have hself : ∀ n ∈ separatorCodes, comesFromItself n = true := by decide +kernel
  intro d hd
  by_contra hseparator
  rw [Bool.not_eq_false] at hseparator
  have hsame := eq_of_mem_lowerChars hd (hself _ (mem_separatorCodes hseparator))
  rw [hsame, hc] at hseparator
  cases hseparator

/-- The character is its own lower case and starts no word. -/
def isSettled (c : Char) : Bool := lowerChars c == [c] && !isUpper c

theorem isSettled_of_mem_lowerChars {c : Char} (hc : c.toNat < 128) :
    ∀ d ∈ lowerChars c, isSettled d = true := by
  have hascii : ∀ n < 128, (lowerChars (Char.ofNat n)).all isSettled = true := by decide +kernel
  have hcode := hascii c.toNat hc
  rwa [Char.ofNat_toNat, List.all_eq_true] at hcode

/-! ### Splitting, place by place -/

/-- A word of a name: there is something in it, and no separator. -/
structure IsWord (w : List Char) : Prop where
  ne_nil : w ≠ []
  not_isSeparator : ∀ c ∈ w, isSeparator c = false

/-- The characters of a text but the separators, in lower case. -/
def letters (cs : List Char) : List Char := (cs.filter (!isSeparator ·)).flatMap lowerChars

/-- A text being split: the words that are finished, and what has been read of the next one. -/
structure Splitting where
  finished : List (List Char) := []
  current : List Char := []

/-- The character before place `i` of the text; before the first place there is none. -/
def before? (text : List Char) (i : Nat) : Option Char := if i = 0 then none else text[i - 1]?

namespace Splitting

/-- The word that has been begun is finished. -/
def cut (s : Splitting) : Splitting :=
  if s.current.isEmpty then s else ⟨s.finished ++ [s.current], []⟩

/-- The word goes on with the character, or begins with it. -/
def extend (s : Splitting) (c : Char) : Splitting := ⟨s.finished, s.current ++ lowerChars c⟩

/-- Reads a character and its place in the text.  Where a capital comes after something of a word,
the character before it is looked up; `none`: there is no such place. -/
def read? (text : List Char) (s : Splitting) : Char × Nat → Option Splitting
  | (c, i) =>
    if isSeparator c then some s.cut
    else if isUpper c && !s.current.isEmpty then
      (before? text i).map fun before =>
        if startsWord before c text[i + 1]? then s.cut.extend c else s.extend c
    else some (s.extend c)

end Splitting

/-- The words of a text that is read from its first place to its last; `none`: a character has been
looked up at a place that the text does not have. -/
def wordsByPlace? (text : List Char) : Option (List (List Char)) :=
  (text.zipIdx.foldlM (Splitting.read? text) {}).map fun s => s.cut.finished

theorem letters_concat (front : List Char) (c : Char) :
    letters (front ++ [c]) = letters front ++ if isSeparator c then [] else lowerChars c := by
  cases hc : isSeparator c <;> simp [letters, hc]

theorem before?_length (front rest : List Char) :
    before? (front ++ rest) front.length = front.getLast? := by
  obtain rfl | ⟨front, p, rfl⟩ := List.eq_nil_or_concat' front
  · rfl
  · simp [before?]

theorem after_length (front : List Char) (c : Char) (rest : List Char) :
    (front ++ c :: rest)[front.length + 1]? = rest.head? := by
  simp [List.getElem?_append_right, List.head?_eq_getElem?]

/-- No character before the first one is looked at. -/
theorem wordsAfter_nil (before : Char) (cs : List Char) : wordsAfter [] before cs = words cs := by
  cases cs <;> simp [words, wordsAfter]

/-- Where a word ends, the words after it are told without it. -/
theorem wordsAfter_nil_append {current rest : List Char} {before c : Char}
    (h : isSeparator c = true ∨ startsWord before c rest.head? = true) :
    wordsAfter current before [] ++ wordsAfter [] before (c :: rest) =
      wordsAfter current before (c :: rest) := by
  cases hempty : current.isEmpty with
  | true => simp [List.isEmpty_iff.1 hempty, wordsAfter]
  | false =>
    cases hc : isSeparator c with
    | true => simp [wordsAfter, hc, hempty]
    | false =>
      have hstart : startsWord before c rest.head? = true := by simpa [hc] using h
      simp [wordsAfter, hc, hempty, hstart]

namespace Splitting

variable {s : Splitting} {front rest : List Char} {c : Char}

theorem current_cut (s : Splitting) : s.cut.current = [] := by
  unfold cut
  split_ifs with h
  · simpa using h
  · rfl

theorem finished_cut (s : Splitting) (before : Char) :
    s.cut.finished = s.finished ++ wordsAfter s.current before [] := by
  unfold cut
  rw [wordsAfter]
  split_ifs <;> simp

theorem flatten_cut (s : Splitting) : s.cut.finished.flatten = s.finished.flatten ++ s.current := by
  unfold cut
  split_ifs with h
  · simp [List.isEmpty_iff.1 h]
  · simp

theorem isWord_cut (hfinished : ∀ w ∈ s.finished, IsWord w)
    (hcurrent : ∀ c ∈ s.current, isSeparator c = false) : ∀ w ∈ s.cut.finished, IsWord w := by
  unfold cut
  split_ifs with h
  · exact hfinished
  · intro w hw
    obtain hw | hw := List.mem_append.1 hw
    · exact hfinished w hw
    · obtain rfl := List.mem_singleton.1 hw
      exact ⟨by simpa using h, hcurrent⟩

/-- What holds when `front` has been read of a text and `rest` is still to be read. -/
structure IsAt (s : Splitting) (front rest : List Char) : Prop where
  isWord : ∀ w ∈ s.finished, IsWord w
  not_isSeparator : ∀ c ∈ s.current, isSeparator c = false
  /-- Every character that has been read is kept, once and in its place. -/
  flatten : s.finished.flatten ++ s.current = letters front
  /-- With the words that are still to come, those of the text are complete.  The space stands for
  the character before the first place, where there is none. -/
  words : s.finished ++ wordsAfter s.current (front.getLast?.getD ' ') rest = words (front ++ rest)

theorem isAt_start (text : List Char) : IsAt {} [] text where
  isWord := by simp
  not_isSeparator := by simp
  flatten := rfl
  words := rfl

/-- A word is finished where a separator stands, and where another word starts. -/
theorem IsAt.cut (h : s.IsAt front (c :: rest))
    (hends : isSeparator c = true ∨ startsWord (front.getLast?.getD ' ') c rest.head? = true) :
    s.cut.IsAt front (c :: rest) where
  isWord := isWord_cut h.isWord h.not_isSeparator
  not_isSeparator := by simp [current_cut]
  flatten := by rw [current_cut, List.append_nil, flatten_cut, h.flatten]
  words := by
    rw [current_cut, finished_cut, List.append_assoc, wordsAfter_nil_append hends, h.words]

/-- A separator goes to no word. -/
theorem IsAt.skip (h : s.IsAt front (c :: rest)) (hc : isSeparator c = true)
    (hnil : s.current = []) : s.IsAt (front ++ [c]) rest where
  isWord := h.isWord
  not_isSeparator := h.not_isSeparator
  flatten := by rw [h.flatten, letters_concat, hc, if_pos rfl, List.append_nil]
  words := by
    rw [List.append_assoc, List.singleton_append, ← h.words, hnil, wordsAfter, hc, if_pos rfl,
      wordsAfter_nil, wordsAfter_nil]
    rfl

/-- A character that starts no word goes to the word before it, if there is one. -/
theorem IsAt.extend (h : s.IsAt front (c :: rest)) (hc : isSeparator c = false)
    (hgo : s.current = [] ∨ startsWord (front.getLast?.getD ' ') c rest.head? = false) :
    (s.extend c).IsAt (front ++ [c]) rest where
  isWord := h.isWord
  not_isSeparator := by
    intro d hd
    obtain hd | hd := List.mem_append.1 hd
    · exact h.not_isSeparator d hd
    · exact not_isSeparator_lowerChars hc d hd
  flatten := by
    rw [letters_concat, hc, if_neg Bool.false_ne_true, ← h.flatten, List.append_assoc]
    rfl
  words := by
    have hstart :
        (!s.current.isEmpty && startsWord (front.getLast?.getD ' ') c rest.head?) = false := by
      obtain hnil | hno := hgo
      · rw [hnil]
        rfl
      · rw [hno, Bool.and_false]
    rw [List.append_assoc, List.singleton_append, ← h.words, wordsAfter, hc, hstart,
      List.getLast?_concat, Option.getD_some]
    rfl

/-- **Reading a character does not fail, and what holds of the splitting goes on to hold.** -/
theorem IsAt.exists_read? (h : s.IsAt front (c :: rest)) :
    ∃ s', s.read? (front ++ c :: rest) (c, front.length) = some s' ∧
      s'.IsAt (front ++ [c]) rest := by
  simp only [read?]
  cases hc : isSeparator c with
  | true => exact ⟨_, rfl, (h.cut (.inl hc)).skip hc s.current_cut⟩
  | false =>
    rw [if_neg Bool.false_ne_true]
    by_cases hlook : (isUpper c && !s.current.isEmpty) = true
    · have hbegun : s.current ≠ [] := by simpa using (Bool.and_eq_true_iff.1 hlook).2
      -- something has been read of a word, so that this is not the first place
      obtain rfl | ⟨front, p, rfl⟩ := List.eq_nil_or_concat' front
      · exact absurd (List.append_eq_nil_iff.1 h.flatten).2 hbegun
      rw [if_pos hlook, before?_length, List.getLast?_concat, after_length, Option.map_some]
      refine ⟨_, rfl, ?_⟩
      split_ifs with hstart
      · exact (h.cut (.inr (by simpa using hstart))).extend hc (.inl s.current_cut)
      · exact h.extend hc (.inr (by simpa using hstart))
    · rw [if_neg hlook]
      refine ⟨_, rfl, h.extend hc ?_⟩
      by_cases hbegun : s.current = []
      · exact .inl hbegun
      · have hsmall : isUpper c = false := by simpa [hbegun] using hlook
        exact .inr (by simp [startsWord, hsmall])

/-- Reading the rest of a text does not fail either. -/
theorem IsAt.exists_run (h : s.IsAt front rest) :
    ∃ s', (rest.zipIdx front.length).foldlM (read? (front ++ rest)) s = some s' ∧
      s'.IsAt (front ++ rest) [] := by
  induction rest generalizing s front with
  | nil => exact ⟨s, rfl, by simpa using h⟩
  | cons c rest ih =>
    obtain ⟨s₁, hread, h₁⟩ := h.exists_read?
    obtain ⟨s₂, hrun, h₂⟩ := ih h₁
    refine ⟨s₂, ?_, by simpa using h₂⟩
    rw [List.zipIdx_cons, List.foldlM_cons, hread]
    simpa using hrun

/-- A text that has been read has the words that are finished then. -/
theorem IsAt.finished_eq (h : s.IsAt front []) : s.cut.finished = Naming.words front := by
  rw [s.finished_cut, h.words, List.append_nil]

end Splitting

/-- Where the splitting of a text ends. -/
theorem exists_isAt_end (text : List Char) :
    ∃ s : Splitting, text.zipIdx.foldlM (Splitting.read? text) {} = some s ∧ s.IsAt text [] := by
  simpa using (Splitting.isAt_start text).exists_run

/-- Every character is looked up at a place of the text. -/
theorem wordsByPlace?_eq (text : List Char) : wordsByPlace? text = some (words text) := by
  obtain ⟨s, hrun, hs⟩ := exists_isAt_end text
  rw [wordsByPlace?, hrun, Option.map_some, hs.finished_eq]

theorem isWord_of_mem_words {text : List Char} : ∀ w ∈ words text, IsWord w := by
  obtain ⟨s, -, hs⟩ := exists_isAt_end text
  rw [← hs.finished_eq]
  exact Splitting.isWord_cut hs.isWord hs.not_isSeparator

/-- Nothing is lost but the separators. -/
theorem flatten_words (text : List Char) : (words text).flatten = letters text := by
  obtain ⟨s, -, hs⟩ := exists_isAt_end text
  rw [← hs.finished_eq, s.flatten_cut, hs.flatten]

/-! ### Words that are joined -/

/-- Settled characters go to the word before them. -/
theorem wordsAfter_append {w : List Char} (hword : ∀ c ∈ w, isSeparator c = false)
    (hsettled : ∀ c ∈ w, isSettled c = true) (current : List Char) (before : Char)
    (cs : List Char) :
    ∃ last, wordsAfter current before (w ++ cs) = wordsAfter (current ++ w) last cs := by
  induction w generalizing current before with
  | nil => exact ⟨before, by simp⟩
  | cons c w ih =>
    obtain ⟨hc, hw⟩ := List.forall_mem_cons.1 hword
    obtain ⟨hsettle, hsettled⟩ := List.forall_mem_cons.1 hsettled
    simp only [isSettled, Bool.and_eq_true, beq_iff_eq, Bool.not_eq_true'] at hsettle
    obtain ⟨hlower, hsmall⟩ := hsettle
    obtain ⟨last, hrest⟩ := ih hw hsettled (current ++ [c]) c
    refine ⟨last, ?_⟩
    have hstart : startsWord before c (w ++ cs).head? = false := by simp [startsWord, hsmall]
    rw [List.cons_append, wordsAfter, hc, hstart, hlower, Bool.and_false, if_neg Bool.false_ne_true,
      if_neg Bool.false_ne_true, hrest, List.append_assoc, List.singleton_append]

/-- Words of settled characters come back from the text that joins them. -/
theorem words_joinWith {ws : List (List Char)} (hwords : ∀ w ∈ ws, IsWord w)
    (hsettled : ∀ w ∈ ws, ∀ c ∈ w, isSettled c = true) : words (joinWith ['_'] ws) = ws := by
  induction ws with
  | nil => rfl
  | cons w ws ih =>
    obtain ⟨hw, hws⟩ := List.forall_mem_cons.1 hwords
    obtain ⟨hsettle, hsettled⟩ := List.forall_mem_cons.1 hsettled
    have hfull : w.isEmpty = false := by simpa using hw.ne_nil
    have hgo := wordsAfter_append hw.not_isSeparator hsettle [] ' '
    by_cases hlast : ws = []
    · obtain ⟨last, hgo⟩ := hgo []
      rw [List.append_nil] at hgo
      rw [hlast, joinWith, words, hgo, List.nil_append, wordsAfter, hfull]
      rfl
    · obtain ⟨last, hgo⟩ := hgo ('_' :: joinWith ['_'] ws)
      have hunderscore : isSeparator '_' = true := rfl
      rw [joinWith_cons hlast, List.append_assoc, List.singleton_append, words, hgo,
        List.nil_append, wordsAfter, hunderscore, if_pos rfl, hfull, if_neg Bool.false_ne_true,
        wordsAfter_nil, ih hws hsettled]

/-- The words of a name come back from its snake case, if none of their characters starts a word. -/
theorem words_snakeChars {cs : List Char}
    (h : ∀ c ∈ cs, ∀ d ∈ lowerChars c, isSettled d = true) : words (snakeChars cs) = words cs := by
  refine words_joinWith isWord_of_mem_words fun w hw d hd => ?_
  have hletter : d ∈ letters cs := flatten_words cs ▸ List.mem_flatten.2 ⟨w, hw, hd⟩
  obtain ⟨c, hc, hlower⟩ := List.mem_flatMap.1 hletter
  exact h c (List.mem_filter.1 hc).1 d hlower

/-- A capital that has no small letter may start a word when the joined words are split. -/
example : words (snakeChars ['A', '𝐁']) ≠ words ['A', '𝐁'] := by decide +kernel

/-- Pascal case is camel case, capitalized. -/
theorem pascalChars_eq (cs : List Char) : pascalChars cs = capitalize (camelChars cs) := by
  unfold pascalChars camelChars
  cases hwords : words cs with
  | nil => rfl
  | cons w ws =>
    have hw : IsWord w := isWord_of_mem_words w (hwords ▸ List.mem_cons_self)
    rw [List.flatMap_cons, capitalize_append hw.ne_nil]

/-- **Splitting a name into words loses nothing but separators.**  The words hold something, and no
separator; the characters before a place are looked up at places of the name, and what stands before
the name makes no difference; and put together, the words are the characters of the name but the
separators, in lower case.  So Pascal case is camel case with its first character in upper case, and
the snake case of a name of ASCII has the words of the name and is its own snake case. -/
theorem words_exact (name : String) :
    (∀ w ∈ words name.toList, w ≠ [] ∧ ∀ c ∈ w, c ≠ '_' ∧ c ≠ '-' ∧ isBlank c = false) ∧
    wordsByPlace? name.toList = some (words name.toList) ∧
    (∀ before, wordsAfter [] before name.toList = words name.toList) ∧
    (words name.toList).flatten =
      (name.toList.filter fun c => c ≠ '_' ∧ c ≠ '-' ∧ isBlank c = false).flatMap lowerChars ∧
    (pascal name).toList = capitalize (camel name).toList ∧
    ((∀ c ∈ name.toList, c.toNat < 128) →
      words (snake name).toList = words name.toList ∧ snake (snake name) = snake name) := by
  refine ⟨fun w hw => ?_, wordsByPlace?_eq name.toList,
    fun before => wordsAfter_nil before name.toList, ?_, ?_, fun hascii => ?_⟩
  · obtain ⟨hne, hseparator⟩ := isWord_of_mem_words w hw
    exact ⟨hne, fun c hc => isSeparator_eq_false_iff.1 (hseparator c hc)⟩
  · rw [flatten_words, letters]
    congr 1
    refine List.filter_congr fun c _ => ?_
    rw [Bool.eq_iff_iff, Bool.not_eq_true', decide_eq_true_eq, isSeparator_eq_false_iff]
  · rw [pascal, camel, String.toList_ofList, String.toList_ofList, pascalChars_eq]
  · have hwords : words (snake name).toList = words name.toList := by
      rw [snake, String.toList_ofList]
      exact words_snakeChars fun c hc => isSettled_of_mem_lowerChars (hascii c hc)
    refine ⟨hwords, ?_⟩
    rw [snake, snakeChars, hwords, snake, snakeChars]

/-- Separators at both ends and between words, digits and a run of capitals. -/
theorem words_exact_acronym :
    (∀ c ∈ "_parseHTTPResponse2 to-URL_".toList, c.toNat < 128) ∧
      snake (snake "_parseHTTPResponse2 to-URL_") = "parse_http_response2_to_url" := by
  have hascii : ∀ c ∈ "_parseHTTPResponse2 to-URL_".toList, c.toNat < 128 := by
    simp
  have hsnake : snake "_parseHTTPResponse2 to-URL_" = "parse_http_response2_to_url" := by
    decide +kernel
  obtain ⟨-, -, -, -, -, hrepeat⟩ := words_exact "_parseHTTPResponse2 to-URL_"
  exact ⟨hascii, (hrepeat hascii).2.trans hsnake⟩

end ServiceScaffold.Naming
