import ServiceScaffold.Proofs.ScalarType.TypeExpr
import ServiceScaffold.Proofs.Text.Occurrence
import ServiceScaffold.ScalarType

/-!
# The meaning of mapped types

A declared type is mapped by the start and the end of its text, not by its parts: what ends in `[]`
is an array, and so is what starts with `Array<` or `ReadonlyArray<` and ends in `>`.  The mapped
type is a text again, and what it means is what it is read as.

* `TypeExpr.mapped` : the expression that a mapped type should mean;
* `TypeExpr.looksRepeated` : an expression whose text starts and ends as those of arrays do;
* `TypeExpr.IsFaithful` : the mapped type means what it should;
* `TypeExpr.isMisread` : an operator or a function whose text looks repeated, an array form in
  parentheses, or a name of the table in more parentheses than are looked through;
* `TypeExpr.isFaithful_iff` : **these expressions, and no others, are mapped to something else.**
-/

namespace ServiceScaffold

open Text ScalarType

/-! ### Names of the table -/

/-- The names that the table gives. -/
def scalarNames : List String := ["number", "string", "boolean", "Uint8Array", "Date"]

theorem mapScalar_mem (name : String) : mapScalar name = name ∨ mapScalar name ∈ scalarNames := by
  unfold mapScalar
  split_ifs
  · exact .inr (by decide)
  · exact .inr (by decide)
  · exact .inr (by decide)
  · exact .inr (by decide)
  · exact .inr (by decide)
  · exact .inl rfl

/-- What the table gives for another name is a name. -/
theorem mapScalar_cases (name : String) : mapScalar name = name ∨
    ((mapScalar name).toList ≠ [] ∧ ∀ c ∈ (mapScalar name).toList, isWordChar c = true) := by
  have hnames : ∀ name ∈ scalarNames, name.toList ≠ [] ∧ name.toList.all isWordChar = true := by
    decide +kernel
  refine (mapScalar_mem name).imp_right fun hmem => ?_
  rw [← List.all_eq_true]
  exact hnames _ hmem

/-- A type that is no array is mapped by the table. -/
theorem map_of_not_repeated {declared : String} (h : (map declared).repeated = false) :
    (map declared).type = mapScalar (String.ofList (trim declared.toList)) := by
  unfold map at h ⊢
  dsimp only at h ⊢
  split at h
  · cases h
  · rfl

/-- What has a character that is none of names is not in the table. -/
theorem mapScalar_of_mark {text : String} {c : Char} (hc : c ∈ text.toList)
    (hword : isWordChar c = false) : mapScalar text = text := by
  have hout : ∀ names : List String, (∀ name ∈ names, name.toList.all isWordChar = true) →
      names.contains text = false := by
    intro names hnames
    by_contra hmem
    have htext := List.all_eq_true.1 (hnames text (by simpa using hmem)) c hc
    rw [hword] at htext
    cases htext
  have hstring : text ≠ "string" := by
    have hsingle := hout ["string"] (by decide +kernel)
    simpa using hsingle
  rw [mapScalar, hout _ (by decide +kernel), hout _ (by decide +kernel), hout _ (by decide +kernel),
    hout _ (by decide +kernel)]
  simp [hstring]

/-- The name that the table gives. -/
def TypeName.renamed (n : TypeName) : TypeName where
  chars := (mapScalar (String.ofList n.chars)).toList
  nonempty := by
    obtain hsame | ⟨hne, -⟩ := mapScalar_cases (String.ofList n.chars)
    · rw [hsame, String.toList_ofList]
      exact n.nonempty
    · exact hne
  isWord := by
    obtain hsame | ⟨-, hword⟩ := mapScalar_cases (String.ofList n.chars)
    · rw [hsame, String.toList_ofList]
      exact n.isWord
    · exact hword

theorem TypeName.head? (n : TypeName) : ∃ c, n.chars.head? = some c ∧ isWordChar c = true := by
  rcases hchars : n.chars with _ | ⟨c, cs⟩
  · exact absurd hchars n.nonempty
  · exact ⟨c, rfl, n.isWord c (by rw [hchars]; exact List.mem_cons_self)⟩

namespace TypeExpr

/-! ### Expressions that are mapped -/

/-- A name as the table gives it; all else stays. -/
def renamed : TypeExpr → TypeExpr
  | name n => name n.renamed
  | e => e

/-- The outermost part is an array form. -/
def isArray : TypeExpr → Bool
  | array _ => true
  | applied _ _ => true
  | _ => false

/-- What an expression without parentheses should be mapped to. -/
def mapped : TypeExpr → TypeExpr
  | array t => array t.renamed
  | applied _ t => array t.renamed
  | e => e.renamed

/-- The mapped type means what it should, and is repeated if the declared type is an array. -/
def IsFaithful (e : TypeExpr) : Prop :=
  (map (String.ofList (e.text 0))).repeated = e.bare.isArray ∧
    parse? (map (String.ofList (e.text 0))).type.toList = some e.bare.mapped

instance (e : TypeExpr) : Decidable e.IsFaithful := inferInstanceAs (Decidable (_ ∧ _))

/-! ### Starts and ends of texts -/

/-- How a text ends. -/
inductive Closing where
  | name
  | brackets
  | angle
  | parenthesis
  deriving DecidableEq

/-- How the text of an expression ends. -/
def closing : TypeExpr → Closing
  | name _ => .name
  | array _ => .brackets
  | applied _ _ => .angle
  | union _ b => if b.level < 2 then .parenthesis else b.closing
  | intersection _ b => if b.level < 3 then .parenthesis else b.closing
  | function t => t.closing
  | parens _ => .parenthesis

/-- The array type with whose name and angle bracket the text of an expression starts. -/
def opening : TypeExpr → Option Bool
  | applied isReadonly _ => some isReadonly
  | array t => if t.level < 3 then none else t.opening
  | union a _ => if a.level < 1 then none else a.opening
  | intersection a _ => if a.level < 2 then none else a.opening
  | _ => none

/-- The text starts and ends as that of an array form does. -/
def looksRepeated (e : TypeExpr) : Bool :=
  e.closing == .brackets || (e.opening.isSome && e.closing == .angle)

/-- The expression in a pair of parentheses. -/
def peel : TypeExpr → TypeExpr
  | parens t => t
  | e => e

/-- A name that the table changes, in parentheses. -/
def hidesName (e : TypeExpr) : Bool := e != e.bare && e.bare.renamed != e.bare

/-- The expressions that are mapped to something else than they should be. -/
def isMisread : TypeExpr → Bool
  | name _ => false
  | array t => t.peel.hidesName
  | applied _ t => t.hidesName
  | parens t => t.bare.isArray || (parens t).hidesName
  | e => e.looksRepeated

/-! ### Texts that start and end so -/

/-- What a text ends with. -/
def Closing.Ends : Closing → List Char → Prop
  | .name, cs => ∃ c, cs.getLast? = some c ∧ isWordChar c = true
  | .brackets, cs => ['[', ']'] <:+ cs
  | .angle, cs => ['>'] <:+ cs
  | .parenthesis, cs => [')'] <:+ cs

theorem Closing.Ends.append {k : Closing} {cs : List Char} (h : k.Ends cs) (front : List Char) :
    k.Ends (front ++ cs) := by
  cases k with
  | name =>
    obtain ⟨c, hc, hword⟩ := h
    exact ⟨c, by rw [List.getLast?_append, hc, Option.some_or], hword⟩
  | brackets | angle | parenthesis => exact List.IsSuffix.trans h (List.suffix_append front cs)

/-- The last character of a text. -/
theorem Closing.Ends.getLast? {k : Closing} {cs : List Char} (h : k.Ends cs) :
    ∃ c, cs.getLast? = some c ∧ isBlank c = false ∧ (c = ']' ↔ k = .brackets) ∧
      (c = '>' ↔ k = .angle) ∧ (c = ')' ↔ k = .parenthesis) := by
  cases k with
  | name =>
    obtain ⟨c, hc, hword⟩ := h
    have hapart : ∀ d, isWordChar d = false → c ≠ d := by
      rintro d hd rfl
      rw [hword] at hd
      cases hd
    refine ⟨c, hc, ?_, ?_⟩
    · simp only [isWordChar, Bool.and_eq_true, Bool.not_eq_true'] at hword
      exact hword.2
    · simp [hapart ']' (by decide), hapart '>' (by decide), hapart ')' (by decide)]
  | brackets | angle | parenthesis =>
    obtain ⟨front, rfl⟩ := h
    exact ⟨_, List.getLast?_append_of_ne_nil _ (by simp), by decide⟩

theorem closing_enclose {m : Nat} {e : TypeExpr} (h : e.closing.Ends e.body) :
    (if e.level < m then Closing.parenthesis else e.closing).Ends (e.text m) := by
  by_cases hm : e.level < m
  · rw [if_pos hm, text_of_lt hm]
    exact ⟨'(' :: e.body, by simp⟩
  · rwa [if_neg hm, text_of_le (Nat.le_of_not_lt hm)]

theorem closing_body (e : TypeExpr) : e.closing.Ends e.body := by
  induction e with
  | name n =>
    obtain ⟨c, hc⟩ := Option.ne_none_iff_exists'.1 (mt List.getLast?_eq_none_iff.1 n.nonempty)
    exact ⟨c, hc, n.isWord c (List.mem_of_getLast? hc)⟩
  | array t => exact List.suffix_append _ _
  | applied isReadonly t => exact ⟨arrayName isReadonly ++ '<' :: t.text 0, by simp [body, text]⟩
  | union a b _ ih =>
    have hend := (closing_enclose (m := 2) ih).append (a.text 1 ++ [' ', '|', ' '])
    rwa [List.append_assoc] at hend
  | intersection a b _ ih =>
    have hend := (closing_enclose (m := 3) ih).append (a.text 2 ++ [' ', '&', ' '])
    rwa [List.append_assoc] at hend
  | function t ih =>
    have hend := ih.append ['(', ')', ' ', '=', '>', ' ']
    rwa [← text_zero] at hend
  | parens t => exact ⟨'(' :: t.text 0, rfl⟩

/-- What a text starts with: the name of an array type and an angle bracket, a parenthesis, or a
name and no angle bracket. -/
def Starts (opening : Option Bool) (cs : List Char) : Prop :=
  match opening with
  | some isReadonly => arrayName isReadonly ++ ['<'] <+: cs
  | none => cs.head? = some '(' ∨
    ∃ (n : TypeName) (rest : List Char), cs = n.chars ++ rest ∧ ∀ c ∈ rest.head?, c = ' ' ∨ c = '['

theorem Starts.append {opening : Option Bool} {cs : List Char} (h : Starts opening cs)
    {rest : List Char} (hrest : ∀ c ∈ rest.head?, c = ' ' ∨ c = '[') :
    Starts opening (cs ++ rest) := by
  cases opening with
  | some isReadonly => exact List.IsPrefix.trans h (List.prefix_append cs rest)
  | none =>
    obtain hparen | ⟨n, tail, rfl, htail⟩ := h
    · exact .inl (by rw [List.head?_append, hparen, Option.some_or])
    · refine .inr ⟨n, tail ++ rest, List.append_assoc _ _ _, fun c hc => ?_⟩
      rcases tail with _ | ⟨d, tail⟩
      · exact hrest c hc
      · exact htail c hc

theorem Starts.head? {opening : Option Bool} {cs : List Char} (h : Starts opening cs) :
    ∃ c, cs.head? = some c ∧ isBlank c = false := by
  cases opening with
  | some isReadonly =>
    obtain ⟨rest, rfl⟩ := h
    cases isReadonly
    · exact ⟨'A', rfl, by decide⟩
    · exact ⟨'R', rfl, by decide⟩
  | none =>
    obtain hparen | ⟨n, rest, rfl, -⟩ := h
    · exact ⟨'(', hparen, by decide⟩
    · obtain ⟨c, hc, hword⟩ := n.head?
      refine ⟨c, by rw [List.head?_append, hc, Option.some_or], ?_⟩
      simp only [isWordChar, Bool.and_eq_true, Bool.not_eq_true'] at hword
      exact hword.2

theorem opening_enclose {m : Nat} {e : TypeExpr} (h : Starts e.opening e.body) :
    Starts (if e.level < m then none else e.opening) (e.text m) := by
  by_cases hm : e.level < m
  · rw [if_pos hm, text_of_lt hm]
    exact .inl rfl
  · rwa [if_neg hm, text_of_le (Nat.le_of_not_lt hm)]

theorem opening_body (e : TypeExpr) : Starts e.opening e.body := by
  induction e with
  | name n => exact .inr ⟨n, [], (List.append_nil _).symm, by simp⟩
  | array t ih => exact (opening_enclose (m := 3) ih).append (by simp)
  | applied isReadonly t => exact ⟨t.text 0 ++ ['>'], by simp [body, text]⟩
  | union a b ih _ => exact (opening_enclose (m := 1) ih).append (by simp)
  | intersection a b ih _ => exact (opening_enclose (m := 2) ih).append (by simp)
  | function t => exact .inl rfl
  | parens t => exact .inl rfl

/-! ### How the texts are cut -/

theorem stripBack?_of_last {back cs : List Char} {b c : Char} (hb : back.getLast? = some b)
    (hc : cs.getLast? = some c) (hne : c ≠ b) : stripBack? back cs = none := by
  rw [stripBack?, Option.eq_none_iff_forall_ne_some]
  intro front hfront
  rw [← List.isSuffixOf?_eq_some_iff_append_eq.1 hfront, List.getLast?_append, hb,
    Option.some_or] at hc
  exact hne (Option.some.inj hc).symm

theorem stripFront?_append (front rest : List Char) :
    stripFront? front (front ++ rest) = some rest :=
  List.isPrefixOf?_eq_some_iff_append_eq.2 rfl

theorem stripBack?_append (front back : List Char) :
    stripBack? back (front ++ back) = some front :=
  List.isSuffixOf?_eq_some_iff_append_eq.2 rfl

theorem between?_eq_some {front back cs inner : List Char} :
    between? front back cs = some inner ↔ front ++ (inner ++ back) = cs := by
  rw [between?, Option.bind_eq_some_iff]
  constructor
  · rintro ⟨rest, hfront, hback⟩
    rw [List.isSuffixOf?_eq_some_iff_append_eq.1 hback,
      List.isPrefixOf?_eq_some_iff_append_eq.1 hfront]
  · rintro rfl
    exact ⟨inner ++ back, stripFront?_append _ _, stripBack?_append _ _⟩

/-- Only the array type that stands at the start is found there. -/
theorem not_isPrefix_body {e : TypeExpr} {isReadonly : Bool} (h : e.opening ≠ some isReadonly) :
    ¬arrayName isReadonly ++ ['<'] <+: e.body := by
  rintro ⟨rest, hrest⟩
  have hstart := opening_body e
  rw [← hrest] at hstart
  cases hopening : e.opening with
  | some other =>
    rw [hopening] at h hstart
    obtain ⟨tail, htail⟩ := hstart
    cases other <;> cases isReadonly <;> simp [arrayName] at h htail
  | none =>
    rw [hopening] at hstart
    obtain hparen | ⟨n, tail, hname, htail⟩ := hstart
    · cases isReadonly <;> simp [arrayName] at hparen
    · rw [List.append_assoc, List.singleton_append] at hname
      have htokens := congrArg tokens hname
      rw [tokens_name n fun c hc => by obtain rfl | rfl := htail c hc <;> decide] at htokens
      rw [show arrayName isReadonly = (arrayWord isReadonly).chars from rfl,
        tokens_name (arrayWord isReadonly) (by simp; decide), List.cons.injEq, Token.word.injEq]
        at htokens
      obtain rfl := htokens.1
      obtain rfl := List.append_cancel_left hname
      simpa using htail '<' rfl

/-- What stands between the name of an array type and the angle bracket at the end. -/
theorem exists_between (e : TypeExpr) :
    (∃ isReadonly inner, arrayName isReadonly ++ ['<'] ++ (inner ++ ['>']) = e.body) ↔
      e.opening.isSome = true ∧ e.closing = .angle := by
  constructor
  · rintro ⟨isReadonly, inner, hbody⟩
    have hopening : e.opening = some isReadonly := by
      by_contra h
      exact not_isPrefix_body h ⟨inner ++ ['>'], hbody⟩
    obtain ⟨c, hc, -, -, hangle, -⟩ := (closing_body e).getLast?
    rw [← hbody, ← List.append_assoc, List.getLast?_concat] at hc
    exact ⟨by rw [hopening]; rfl, hangle.1 (Option.some.inj hc).symm⟩
  · rintro ⟨hopening, hclosing⟩
    obtain ⟨isReadonly, hsome⟩ := Option.isSome_iff_exists.1 hopening
    have hstart := opening_body e
    have hend := closing_body e
    rw [hsome] at hstart
    rw [hclosing] at hend
    obtain ⟨rest, hrest⟩ := hstart
    obtain rfl | ⟨inner, last, rfl⟩ := List.eq_nil_or_concat' rest
    · obtain ⟨front, hfront⟩ := hend
      rw [← hrest, List.append_nil] at hfront
      obtain ⟨-, hlast⟩ := List.append_inj' hfront rfl
      simp at hlast
    · obtain ⟨front, hfront⟩ := hend
      rw [← hrest, ← List.append_assoc] at hfront
      obtain ⟨-, hlast⟩ := List.append_inj' hfront rfl
      rw [← hlast] at hrest
      exact ⟨isReadonly, inner, hrest⟩

/-- Whether an element is found in the text of an expression. -/
theorem isSome_element?_body (e : TypeExpr) : (element? e.body).isSome = e.looksRepeated := by
  have hend := closing_body e
  rw [Bool.eq_iff_iff, element?, looksRepeated]
  rcases hback : stripBack? "[]".toList e.body with _ | front
  · have hclosing : e.closing ≠ .brackets := by
      intro h
      rw [h] at hend
      obtain ⟨front, hfront⟩ := hend
      have hcut := stripBack?_append front "[]".toList
      rw [show front ++ "[]".toList = e.body from hfront, hback] at hcut
      cases hcut
    have hfound (isReadonly : Bool) :
        (∃ inner, arrayName isReadonly ++ ['<'] ++ (inner ++ ['>']) = e.body) ↔
          (between? (arrayName isReadonly ++ ['<']) ['>'] e.body).isSome = true := by
      simp only [Option.isSome_iff_exists, between?_eq_some]
    have hangle := exists_between e
    rw [Bool.exists_bool, hfound, hfound, show arrayName false ++ ['<'] = "Array<".toList from rfl,
      show arrayName true ++ ['<'] = "ReadonlyArray<".toList from rfl] at hangle
    simpa [hclosing] using hangle
  · obtain ⟨c, hc, -, hbrackets, -⟩ := hend.getLast?
    rw [← List.isSuffixOf?_eq_some_iff_append_eq.1 hback,
      List.getLast?_append_of_ne_nil _ (by decide)] at hc
    have hclosing : e.closing = .brackets := hbrackets.1 (Option.some.inj hc).symm
    simp [hclosing]

theorem trim_text (m : Nat) (e : TypeExpr) : trim (e.text m) = e.text m := by
  obtain ⟨first, hfirst, hblank⟩ := (opening_enclose (m := m) (opening_body e)).head?
  obtain ⟨last, hlast, hblank', -⟩ := (closing_enclose (m := m) (closing_body e)).getLast?
  exact trim_eq_self hfirst hlast hblank hblank'

theorem dropParens_text (e : TypeExpr) : dropParens (e.text 3) = e.peel.body := by
  have henclosed (cs : List Char) : dropParens ('(' :: (cs ++ [')'])) = cs := by
    have hfront := stripFront?_append ['('] (cs ++ [')'])
    rw [List.singleton_append] at hfront
    rw [dropParens, hfront, Option.bind_some, stripBack?_append, Option.getD_some]
  have hother {cs : List Char} (hcs : cs.head? ≠ some '(' ∨ cs.getLast? ≠ some ')') :
      dropParens cs = cs := by
    rcases hinner : between? ['('] [')'] cs with _ | inner
    · rw [dropParens, ← between?, hinner, Option.getD_none]
    · rw [← between?_eq_some.1 hinner] at hcs
      obtain hfirst | hlast := hcs
      · exact absurd rfl hfirst
      · exact absurd (by rw [← List.append_assoc, List.getLast?_concat]) hlast
  cases e with
  | name n =>
    obtain ⟨c, hc, hword⟩ := n.head?
    refine hother (.inl ?_)
    rw [text_of_le (Nat.le_refl 3), body, hc]
    rintro ⟨⟩
    revert hword
    decide
  | array t =>
    refine hother (.inr ?_)
    rw [text_of_le (Nat.le_refl 3), body, List.getLast?_append_of_ne_nil _ (by decide)]
    decide
  | applied isReadonly t =>
    refine hother (.inl ?_)
    cases isReadonly <;> simp [text, enclose, level, body, arrayName]
  | parens t =>
    rw [text_of_le (Nat.le_refl 3), body, henclosed]
    exact text_zero t
  | union a b => exact henclosed _
  | intersection a b => exact henclosed _
  | function t => exact henclosed _

/-- The element of `T[]` is looked for in one pair of parentheses. -/
theorem element?_array (t : TypeExpr) : element? (array t).body = some t.peel.body := by
  have hinner := trim_text 0 t.peel
  rw [text_zero] at hinner
  rw [body, ← text, element?, show "[]".toList = ['[', ']'] from rfl, stripBack?_append]
  simp only [trim_text, dropParens_text, hinner]

theorem element?_applied (isReadonly : Bool) (t : TypeExpr) :
    element? (applied isReadonly t).body = some t.body := by
  have hbody : (applied isReadonly t).body =
      arrayName isReadonly ++ ['<'] ++ (t.body ++ ['>']) := by
    rw [body, ← text, text_zero, List.append_assoc, List.singleton_append]
  have hbrackets : stripBack? "[]".toList (applied isReadonly t).body = none := by
    refine stripBack?_of_last (b := ']') (c := '>') rfl ?_ (by decide)
    rw [hbody, ← List.append_assoc, List.getLast?_concat]
  have hinner := trim_text 0 t
  rw [text_zero] at hinner
  have hfound := between?_eq_some.2 hbody.symm
  rw [element?, hbrackets]
  cases isReadonly with
  | false =>
    rw [show "Array<".toList = arrayName false ++ ['<'] from rfl, hfound]
    simp [hinner]
  | true =>
    have hother : between? "Array<".toList ['>'] (applied true t).body = none := rfl
    rw [hother, show "ReadonlyArray<".toList = arrayName true ++ ['<'] from rfl, hfound]
    simp [hinner]

/-! ### Mapped texts -/

/-- The table changes the texts of names only. -/
theorem mapScalar_body (e : TypeExpr) :
    mapScalar (String.ofList e.body) = String.ofList e.renamed.body := by
  have hmark {c : Char} (hc : c ∈ e.body) (hword : isWordChar c = false) :
      mapScalar (String.ofList e.body) = String.ofList e.body :=
    mapScalar_of_mark (by rwa [String.toList_ofList]) hword
  cases e with
  | name n => exact (String.ofList_toList).symm
  | array t => exact hmark (c := '[') (by simp [body]) (by decide)
  | applied isReadonly t => exact hmark (c := '<') (by simp [body]) (by decide)
  | union a b => exact hmark (c := '|') (by simp [body]) (by decide)
  | intersection a b => exact hmark (c := '&') (by simp [body]) (by decide)
  | function t => exact hmark (c := '(') (by simp [body]) (by decide)
  | parens t => exact hmark (c := '(') (by simp [body]) (by decide)

/-- What holds together less tightly than an array gets parentheses. -/
theorem needsParens_body {e : TypeExpr} (h : e.level < 3) :
    needsParens (String.ofList e.body) = true := by
  rw [needsParens, String.toList_ofList]
  cases e with
  | union a b => simp [body]
  | intersection a b => simp [body]
  | function t => simp [body]
  | name | array | applied | parens => exact absurd h (Nat.lt_irrefl 3)

/-- The text of an array of the given elements is read as that array, whether or not there are
parentheses around the element. -/
theorem parse?_brackets (e : TypeExpr) :
    parse? ((if needsParens (String.ofList e.body) then "(" ++ String.ofList e.body ++ ")"
      else String.ofList e.body) ++ "[]").toList = some (array e.bare) := by
  by_cases hparens : needsParens (String.ofList e.body) = true
  · have htext : (array (parens e)).text 0 =
        ("(" ++ String.ofList e.body ++ ")" ++ "[]").toList := by
      simp [body, enclose, level]
    rw [if_pos hparens, ← htext, parse?_text]
    rfl
  · have hlevel : ¬e.level < 3 := mt needsParens_body hparens
    have htext : (array e).text 0 = (String.ofList e.body ++ "[]").toList := by
      simp [body, enclose, hlevel]
    rw [if_neg hparens, ← htext, parse?_text]
    rfl

/-- The text of an expression that is declared. -/
theorem trim_declared (e : TypeExpr) : trim (String.ofList (e.text 0)).toList = e.body := by
  rw [String.toList_ofList, trim_text, text_zero]

/-- What an array form is mapped to, given its element. -/
theorem map_of_element {e element : TypeExpr} (h : element? e.body = some element.body) :
    (map (String.ofList (e.text 0))).repeated = true ∧
      parse? (map (String.ofList (e.text 0))).type.toList = some (array element.renamed.bare) := by
  simp only [map, trim_declared, h, mapScalar_body]
  exact ⟨trivial, parse?_brackets element.renamed⟩

/-- What does not look repeated is mapped as a name. -/
theorem map_of_plain {e : TypeExpr} (h : e.looksRepeated = false) :
    (map (String.ofList (e.text 0))).repeated = false ∧
      parse? (map (String.ofList (e.text 0))).type.toList = some e.renamed.bare := by
  have helement : element? e.body = none :=
    Option.not_isSome_iff_eq_none.1 (by simp [isSome_element?_body, h])
  simp only [map, trim_declared, helement, mapScalar_body]
  exact ⟨trivial, by rw [String.toList_ofList, ← text_zero, parse?_text]⟩

theorem repeated_of_looks {e : TypeExpr} (h : e.looksRepeated = true) :
    (map (String.ofList (e.text 0))).repeated = true := by
  obtain ⟨inner, hinner⟩ := Option.isSome_iff_exists.1 ((isSome_element?_body e).trans h)
  simp only [map, trim_declared, hinner]

theorem bare_ne_parens (e t : TypeExpr) : e.bare ≠ parens t := by
  induction e with
  | parens e ih => exact ih
  | name | array | applied | union | intersection | function => exact TypeExpr.noConfusion

/-- The table is looked up before the parentheses are taken off, which makes a difference to a name
that it changes. -/
theorem renamed_bare_iff (e : TypeExpr) :
    e.renamed.bare = e.bare.renamed ↔ e.hidesName = false := by
  cases e with
  | parens t =>
    have hne : (parens t != t.bare) = true := bne_iff_ne.2 (bare_ne_parens t t).symm
    rw [hidesName, bare, hne, Bool.true_and, bne_eq_false_iff_eq]
    exact eq_comm
  | name | array | applied | union | intersection | function => simp [renamed, bare, hidesName]

theorem bare_peel (e : TypeExpr) : e.peel.bare = e.bare := by
  cases e <;> rfl

theorem mapped_of_not_isArray {e : TypeExpr} (h : e.isArray = false) : e.mapped = e.renamed := by
  cases e <;> first | rfl | cases h

/-- **The mapped type means something else than it should for exactly these expressions.** -/
theorem isFaithful_iff (e : TypeExpr) : e.IsFaithful ↔ e.isMisread = false := by
  -- a name, an operator or a function stays what it is unless it looks repeated
  have hother (hbare : e.bare.isArray = false) (hmapped : e.renamed.bare = e.bare.mapped) :
      e.IsFaithful ↔ e.looksRepeated = false := by
    rw [IsFaithful, hbare, ← hmapped]
    cases hlooks : e.looksRepeated
    · exact iff_of_true (map_of_plain hlooks) rfl
    · rw [repeated_of_looks hlooks]
      simp
  cases e with
  | name n => exact hother rfl rfl
  | union a b => exact hother rfl rfl
  | intersection a b => exact hother rfl rfl
  | function t => exact hother rfl rfl
  | array t =>
    obtain ⟨hrepeated, htype⟩ := map_of_element (element?_array t)
    rw [IsFaithful, hrepeated, htype, isMisread, ← renamed_bare_iff, bare_peel]
    simp [bare, isArray, mapped]
  | applied isReadonly t =>
    obtain ⟨hrepeated, htype⟩ := map_of_element (element?_applied isReadonly t)
    rw [IsFaithful, hrepeated, htype, isMisread, ← renamed_bare_iff]
    simp [bare, isArray, mapped]
  | parens t =>
    obtain ⟨hrepeated, htype⟩ := map_of_plain (e := parens t) rfl
    rw [IsFaithful, hrepeated, htype, isMisread, Bool.or_eq_false_iff, ← renamed_bare_iff]
    by_cases harray : t.bare.isArray = false
    · simp [bare, harray, mapped_of_not_isArray harray]
    · simp [bare, harray]

/-- The union `A | B[]` is mapped to an array of unions. -/
theorem union_misread : ∃ e : TypeExpr, e.text 0 = "A | B[]".toList ∧
    e.bare.isArray = false ∧ map (String.ofList (e.text 0)) = ⟨"(A | B)[]", true⟩ ∧
    ¬e.IsFaithful := by
  refine ⟨union (name ⟨['A'], by decide, List.all_eq_true.1 (by decide)⟩)
    (array (name ⟨['B'], by decide, List.all_eq_true.1 (by decide)⟩)), ?_⟩
  decide +kernel

end TypeExpr

end ServiceScaffold
