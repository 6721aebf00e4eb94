import ServiceScaffold.Proofs.Syntax.Programs
import ServiceScaffold.Proofs.Syntax.TypeTexts

/-!
# Declarations laid out on lines

A text that declares types on lines of their own, with comments before them and before their
properties.

* `IsGap` : blanks and comments, which change nothing of what comes next;
* `isBareName` : the name of a property without quotes;
* `DeclarationLines` : a declaration on lines;
* `program_lines` : **declarations on lines are a program of these declarations**.
-/

namespace ServiceScaffold.Syntax

open Grammar Rule

variable {source cs g g' d w t x k rest : List Char} {deep : Nat}

/-! ### Gaps -/

/-- The text changes nothing of what comes next behind it. -/
def IsGap (g : List Char) : Prop := ∀ cs, ∃ isBroken isPlain,
  Sight.ofText (g ++ cs) = { Sight.ofText cs with isBroken := isBroken, isPlain := isPlain }

theorem isGap_nil : IsGap [] := fun _ => ⟨_, _, rfl⟩

theorem IsGap.append (h : IsGap g) (h' : IsGap g') : IsGap (g ++ g') := by
  intro cs
  obtain ⟨_, _, hfront⟩ := h (g' ++ cs)
  obtain ⟨_, _, hback⟩ := h' cs
  exact ⟨_, _, by rw [List.append_assoc, hfront, hback]⟩

theorem isGap_space : IsGap [' '] := fun cs => ⟨_, _, Sight.ofText_space cs⟩

theorem isGap_newline : IsGap ['\n'] := fun cs => ⟨true, _, Sight.ofText_newline cs⟩

theorem IsGap.ofComment (h : ∀ cs, comment? (g ++ cs) = some cs) : IsGap g :=
  fun cs => ⟨_, _, Sight.ofText_comment (h cs)⟩

theorem blockCommentTail?_closed (hd : ¬['*', '/'] <:+: d) (cs : List Char) :
    blockCommentTail? (d ++ ' ' :: '*' :: '/' :: cs) = some cs := by
  induction d with
  | nil => rfl
  | cons c d ih =>
    have hrest := ih fun hinner => hd (hinner.trans (List.suffix_cons c d).isInfix)
    rw [List.cons_append, blockCommentTail?.eq_def]
    split
    · rename_i heq
      cases heq
    · rename_i rest' heq
      -- the closer would start here
      obtain ⟨rfl, htail⟩ := List.cons.inj heq
      rcases d with _ | ⟨c, d⟩
      · cases htail
      · obtain ⟨rfl, -⟩ := List.cons.inj htail
        exact absurd ⟨[], d, rfl⟩ hd
    · rename_i heq
      obtain ⟨rfl, rfl⟩ := List.cons.inj heq
      exact hrest

/-- A text in a comment, with spaces around it. -/
theorem isGap_blockComment (hd : ¬['*', '/'] <:+: d) :
    IsGap ("/** ".toList ++ d ++ " */".toList) := by
  refine .ofComment fun cs => ?_
  have htext : "/** ".toList ++ d ++ " */".toList ++ cs =
      '/' :: '*' :: '*' :: ' ' :: (d ++ ' ' :: '*' :: '/' :: cs) := by simp
  rw [htext]
  exact blockCommentTail?_closed hd cs

/-- A text in a comment up to the end of its line. -/
theorem isGap_lineComment (hd : d.all (!isLineEnd ·) = true) :
    IsGap ("//".toList ++ d ++ ['\n']) := by
  intro cs
  have hcomment : comment? ("//".toList ++ d ++ ['\n'] ++ cs) = some ('\n' :: cs) := by
    have htext : "//".toList ++ d ++ ['\n'] ++ cs = '/' :: '/' :: (d ++ '\n' :: cs) := by simp
    rw [htext, comment?, List.dropWhile_append_of_pos (by simpa using hd),
      List.dropWhile_cons_of_neg (by decide)]
  obtain ⟨_, _, hnewline⟩ := isGap_newline cs
  exact ⟨_, _, (Sight.ofText_comment hcomment).trans hnewline⟩

theorem BeforeBrace.gap (hg : IsGap g) (h : BeforeBrace cs) : BeforeBrace (g ++ cs) := by
  obtain ⟨k, hk⟩ := h
  obtain ⟨_, _, hsight⟩ := hg cs
  exact ⟨k, .cons ⟨by rw [hsight]; exact hk.look, by simp [Sign.loose]⟩
    (by rw [hsight]; exact hk.next)⟩

theorem PropertyText.Spans.gap {p : PropertyText} (hg : IsGap g) (h : p.Spans source deep cs rest) :
    p.Spans source deep (g ++ cs) rest := by
  obtain ⟨_, _, hsight⟩ := hg cs
  refine ⟨h.named, ?_, ?_, ?_, ?_⟩
  · rw [hsight]
    exact h.look
  · rw [hsight]
    exact h.body
  · rw [List.length_append]
    exact Nat.lt_add_left _ h.short
  · rw [hsight]
    exact h.type

theorem Program.gap {ds : List DeclarationText} (hg : IsGap g) (h : Program source deep ds cs) :
    Program source deep ds (g ++ cs) := by
  obtain ⟨_, _, hsight⟩ := hg cs
  cases h with
  | done finish => exact .done (by rw [hsight]; exact finish)
  | more first others =>
    refine .more ⟨?_, ?_, ?_⟩ others
    · rw [hsight]
      exact first.word
    · rw [hsight]
      exact first.declares
    · rw [List.length_append]
      exact Nat.lt_add_left _ first.short

/-! ### Names without quotes -/

/-- The token is a name of a property without quotes. -/
def Token.isBareName : Token → Bool
  | .word w => String.ofList w != "abstract"
  | .number | .privateName => true
  | _ => false

/-- The text is a name of a property without quotes, all of it one token. -/
def isBareName (w : List Char) : Bool :=
  w.head?.any (fun c => !isSpace c && c != '/') && [false, true].all fun isOptional =>
    let (token, rest) := Token.ofText (w ++ propertyMarks isOptional)
    token.isBareName && rest == propertyMarks isOptional

theorem Token.exists_of_isBareName {token : Token} (h : token.isBareName = true) :
    ∃ b : BareName, b.look.Fits token := by
  cases token with
  | word w => exact ⟨.word, w, rfl, by simpa [isBareName] using h⟩
  | number => exact ⟨.number, List.mem_singleton.2 rfl⟩
  | privateName => exact ⟨.privateName, List.mem_singleton.2 rfl⟩
  | _ => cases h

theorem ne_nil_of_isBareName (h : isBareName w = true) : w ≠ [] := by
  rintro rfl
  cases h

/-- What comes next where a name stands before its marks. -/
theorem sight_bareName (h : isBareName w = true) (isOptional : Bool) (k : List Char) :
    ∃ token, (∃ b : BareName, b.look.Fits token) ∧
      Sight.ofText (w ++ (propertyMarks isOptional ++ ' ' :: k)) =
        ⟨token, propertyMarks isOptional ++ ' ' :: k, w ++ (propertyMarks isOptional ++ ' ' :: k),
          false, true⟩ := by
  obtain ⟨hhead, hall⟩ := Bool.and_eq_true_iff.1 h
  obtain ⟨c, hc, hfirst⟩ := (Option.any_eq_true _ _).1 hhead
  simp only [Bool.and_eq_true, Bool.not_eq_true', bne_iff_ne] at hfirst
  have hmarks := List.all_eq_true.1 hall isOptional (by cases isOptional <;> simp)
  simp only [Bool.and_eq_true, beq_iff_eq] at hmarks
  obtain ⟨hbare, hrest⟩ := hmarks
  obtain ⟨more, rfl⟩ := List.head?_eq_some_iff.1 hc
  have hstray : (Token.ofText (c :: more ++ propertyMarks isOptional)).1 ≠ .stray := by
    intro hstray
    rw [hstray] at hbare
    cases hbare
  have hlonger := Token.ofText_append (k := ' ' :: k) rfl (by simp) hstray
  rw [hrest, List.append_assoc] at hlonger
  refine ⟨_, Token.exists_of_isBareName hbare, ?_⟩
  have hstarts : StartsToken (c :: more ++ (propertyMarks isOptional ++ ' ' :: k)) :=
    startsToken_cons hfirst.1 hfirst.2 _
  rw [Sight.ofText_token hstarts, hlonger]

/-! ### Properties on lines -/

/-- A property on a line of its own, with what stands before it. -/
structure MemberLine where
  gap : List Char
  property : PropertyText

/-- The line of a property. -/
def MemberLine.text (m : MemberLine) : List Char :=
  m.gap ++ (m.property.name ++ (propertyMarks m.property.isOptional ++
    ' ' :: (m.property.type ++ ";\n".toList)))

/-- The line is read as its property. -/
structure MemberLine.IsRead (deep : Nat) (m : MemberLine) : Prop where
  gap : IsGap m.gap
  name : isBareName m.property.name = true
  type : IsType deep m.property.type

theorem MemberLine.IsRead.mono {m : MemberLine} {deep' : Nat} (h : m.IsRead deep)
    (hdeep : deep ≤ deep') : m.IsRead deep' :=
  { h with type := h.type.mono hdeep }

theorem MemberLine.IsRead.spans {m : MemberLine} (h : m.IsRead deep) (k : List Char) :
    m.property.Spans source deep (m.text ++ k) (';' :: '\n' :: k) := by
  have htext : m.text ++ k = m.gap ++ (m.property.name ++ (propertyMarks m.property.isOptional ++
      ' ' :: (m.property.type ++ ';' :: '\n' :: k))) := by simp [MemberLine.text]
  obtain ⟨token, hbare, hsight⟩ := sight_bareName h.name m.property.isOptional
    (m.property.type ++ ';' :: '\n' :: k)
  rw [htext]
  refine .gap h.gap ⟨ne_nil_of_isBareName h.name, by rwa [hsight], ?_, ?_, _,
    congrArg Sight.tail hsight, ?_, h.type.reads source (endsType_semicolon _)⟩
  · rw [hsight]
  · simp only [List.length_append, List.length_cons]
    omega
  · rw [startsClear_space]
    exact (h.type.starts _).startsClear

theorem sight_closeBrace (k : List Char) :
    Sight.ofText ('\x7d' :: k) = ⟨.mark ['\x7d'], k, '\x7d' :: k, false, true⟩ := by
  rw [Sight.ofText_token (startsToken_cons (by decide) (by decide) _)]
  rfl

theorem beforeBrace_newline (k : List Char) : BeforeBrace ('\n' :: '\x7d' :: k) :=
  .gap (g := ['\n']) isGap_newline ⟨k, (Signs.seen (sight_closeBrace k) .nil).loose⟩

/-- The lines of properties, between braces. -/
def bodyLines (members : List MemberLine) (k : List Char) : List Char :=
  '\n' :: (members.flatMap MemberLine.text ++ '\x7d' :: k)

theorem MemberLine.IsRead.spans_body {m : MemberLine} (h : m.IsRead deep)
    (members : List MemberLine) (k : List Char) :
    m.property.Spans source deep (bodyLines (m :: members) k) (';' :: bodyLines members k) := by
  have htext : bodyLines (m :: members) k =
      ['\n'] ++ (m.text ++ (members.flatMap MemberLine.text ++ '\x7d' :: k)) := by simp [bodyLines]
  rw [htext]
  exact (h.spans _).gap isGap_newline

theorem moreMembers_lines {members : List MemberLine} (h : ∀ m ∈ members, m.IsRead deep)
    (k : List Char) : MoreMembers source deep (members.map MemberLine.property)
      (';' :: bodyLines members k) ('\n' :: '\x7d' :: k) := by
  induction members with
  | nil => exact .ended (beforeBrace_newline k)
  | cons m members ih =>
    obtain ⟨hm, hothers⟩ := List.forall_mem_cons.1 h
    exact .more (hm.spans_body members k) (ih hothers)

/-- Lines of properties between braces hold the properties. -/
theorem members_lines {members : List MemberLine} (h : ∀ m ∈ members, m.IsRead deep)
    (k : List Char) : Members source deep (members.map MemberLine.property) (bodyLines members k)
      ('\n' :: '\x7d' :: k) := by
  cases members with
  | nil => exact .none (beforeBrace_newline k)
  | cons m members =>
    obtain ⟨hm, hothers⟩ := List.forall_mem_cons.1 h
    exact .some (hm.spans_body members k) (moreMembers_lines hothers k)

/-! ### Declarations on lines -/

/-- A declaration on lines, with what stands before it. -/
inductive DeclarationLines where
  | typeAlias (gap name type : List Char)
  | interface (gap name : List Char) (members : List MemberLine)

namespace DeclarationLines

/-- What is declared. -/
def declaration : DeclarationLines → DeclarationText
  | typeAlias _ x t => .typeAlias x t
  | interface _ x members => .interface x (members.map MemberLine.property)

/-- The lines, with an empty one behind them. -/
def text : DeclarationLines → List Char
  | typeAlias gap x t => gap ++ ("export".toList ++ aliasText x (t ++ ";\n\n".toList))
  | interface gap x members =>
    gap ++ ("export".toList ++ interfaceText x (bodyLines members "\n\n".toList))

/-- The lines are read as what they declare. -/
def IsRead (deep : Nat) : DeclarationLines → Prop
  | typeAlias gap x t => IsGap gap ∧ IsName x ∧ IsType deep t
  | interface gap x members => IsGap gap ∧ IsName x ∧ ∀ m ∈ members, m.IsRead deep

end DeclarationLines

/-- **Declarations on lines are a program** of these declarations. -/
theorem program_lines {lines : List DeclarationLines} (h : ∀ e ∈ lines, e.IsRead deep) :
    Program source deep (lines.map DeclarationLines.declaration)
      (lines.flatMap DeclarationLines.text) := by
  induction lines with
  | nil => exact .done rfl
  | cons e lines ih =>
    obtain ⟨he, hothers⟩ := List.forall_mem_cons.1 h
    have hmore := (ih hothers).gap (isGap_newline.append isGap_newline)
    cases e with
    | typeAlias gap x t =>
      obtain ⟨hgap, hx, ht⟩ := he
      have hdeclares := DeclarationText.Declares.typeAlias hx (ht.reads source (endsType_semicolon
        (['\n'] ++ ['\n'] ++ lines.flatMap DeclarationLines.text)))
      have htext : (DeclarationLines.typeAlias gap x t :: lines).flatMap DeclarationLines.text =
          gap ++ ("export".toList ++ aliasText x (t ++ ';' ::
            (['\n'] ++ ['\n'] ++ lines.flatMap DeclarationLines.text))) := by
        simp [DeclarationLines.text, aliasText]
      rw [htext]
      exact .gap hgap (.more (hdeclares.spans (by simp [aliasText]; omega)) hmore)
    | interface gap x members =>
      obtain ⟨hgap, hx, hmembers⟩ := he
      have hbody : Members source deep _ _ _ :=
        members_lines hmembers (['\n'] ++ ['\n'] ++ lines.flatMap DeclarationLines.text)
      have hdeclares := DeclarationText.Declares.interface hx hbody
      rw [Sight.ofText_newline, sight_closeBrace] at hdeclares
      have htext : (DeclarationLines.interface gap x members :: lines).flatMap
          DeclarationLines.text = gap ++ ("export".toList ++ interfaceText x (bodyLines members
            (['\n'] ++ ['\n'] ++ lines.flatMap DeclarationLines.text))) := by
        simp [DeclarationLines.text, interfaceText, bodyLines]
      rw [htext]
      refine .gap hgap (.more (hdeclares.spans ?_) hmore)
      simp only [interfaceText, bodyLines, List.length_append, List.length_cons]
      omega

end ServiceScaffold.Syntax
