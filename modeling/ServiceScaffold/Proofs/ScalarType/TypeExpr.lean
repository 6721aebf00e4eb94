import ServiceScaffold.Syntax.Token
import ServiceScaffold.Text.Blank

/-!
# Type expressions

The types that are built from names with `T[]`, `Array<T>`, `ReadonlyArray<T>`, unions,
intersections, function types and parentheses: how they are written, and how such a text is read.
Brackets bind tighter than `&`, which binds tighter than `|`, which binds tighter than `=>`.

A text is read from the left.  What has been read to the left of the operand at hand is a stack of
frames; an operator takes the operand and all frames above it that bind at least as tightly.

* `TypeExpr.text` : the text of an expression, with parentheses where they are needed;
* `TypeExpr.bare` : the expression without the parentheses that are written out;
* `TypeExpr.parse?` : the expression that a text writes;
* `TypeExpr.parse?_text` : **an expression is read from its text.**
-/

namespace ServiceScaffold

open Text

/-! ### Expressions -/

/-- A character of names, and no blank. -/
def isWordChar (c : Char) : Bool := Syntax.isNameChar c && !isBlank c

/-- The name of a type. -/
structure TypeName where
  chars : List Char
  nonempty : chars ≠ []
  isWord : ∀ c ∈ chars, isWordChar c = true
  deriving DecidableEq

/-- A type that is written out. -/
inductive TypeExpr where
  | name (n : TypeName)
  /-- `T[]`. -/
  | array (element : TypeExpr)
  /-- `Array<T>`, or `ReadonlyArray<T>`. -/
  | applied (isReadonly : Bool) (element : TypeExpr)
  | union (left right : TypeExpr)
  | intersection (left right : TypeExpr)
  /-- `() => T`. -/
  | function (result : TypeExpr)
  /-- Parentheses, whether they are needed or not. -/
  | parens (inner : TypeExpr)
  deriving DecidableEq

namespace TypeExpr

/-- How tightly an expression holds together. -/
def level : TypeExpr → Nat
  | function _ => 0
  | union _ _ => 1
  | intersection _ _ => 2
  | _ => 3

/-- The name before the angle brackets. -/
def arrayName (isReadonly : Bool) : List Char :=
  if isReadonly then "ReadonlyArray".toList else "Array".toList

/-- A text in parentheses, if it needs them. -/
def enclose (isEnclosed : Bool) (cs : List Char) : List Char :=
  if isEnclosed then '(' :: (cs ++ [')']) else cs

/-- The text of an expression where nothing around it binds more tightly. -/
def body : TypeExpr → List Char
  | name n => n.chars
  | array t => enclose (t.level < 3) t.body ++ ['[', ']']
  | applied isReadonly t => arrayName isReadonly ++ '<' :: (enclose (t.level < 0) t.body ++ ['>'])
  | union a b => enclose (a.level < 1) a.body ++ ' ' :: '|' :: ' ' :: enclose (b.level < 2) b.body
  | intersection a b =>
    enclose (a.level < 2) a.body ++ ' ' :: '&' :: ' ' :: enclose (b.level < 3) b.body
  | function t => '(' :: ')' :: ' ' :: '=' :: '>' :: ' ' :: enclose (t.level < 0) t.body
  | parens t => '(' :: (enclose (t.level < 0) t.body ++ [')'])

/-- The text of an expression as an operand of the given level. -/
def text (m : Nat) (e : TypeExpr) : List Char := enclose (e.level < m) e.body

/-- The expression without its parentheses. -/
def bare : TypeExpr → TypeExpr
  | name n => name n
  | array t => array t.bare
  | applied isReadonly t => applied isReadonly t.bare
  | union a b => union a.bare b.bare
  | intersection a b => intersection a.bare b.bare
  | function t => function t.bare
  | parens t => t.bare

theorem text_of_le {m : Nat} {e : TypeExpr} (h : m ≤ e.level) : e.text m = e.body := by
  simp [text, enclose, Nat.not_lt.2 h]

theorem text_of_lt {m : Nat} {e : TypeExpr} (h : e.level < m) :
    e.text m = '(' :: (e.body ++ [')']) := by
  simp [text, enclose, h]

@[simp]
theorem text_zero (e : TypeExpr) : e.text 0 = e.body := text_of_le (Nat.zero_le _)

/-! ### Tokens -/

/-- A name, or a character that is none of names. -/
inductive Token where
  | word (n : TypeName)
  | mark (c : Char)
  deriving DecidableEq

/-- A character before a name. -/
def wordFrom (c : Char) (h : isWordChar c = true) (n : Option TypeName) : TypeName where
  chars := c :: n.elim [] TypeName.chars
  nonempty := List.cons_ne_nil _ _
  isWord := by
    intro d hd
    rcases n with _ | n
    · obtain rfl := List.mem_singleton.1 hd
      exact h
    · obtain rfl | hd := List.mem_cons.1 hd
      · exact h
      · exact n.isWord d hd

/-- The tokens of a text; blanks only separate. -/
def tokens : List Char → List Token
  | [] => []
  | c :: cs =>
    if h : isWordChar c = true then
      match cs.head?.any isWordChar, tokens cs with
      | true, .word n :: rest => .word (wordFrom c h (some n)) :: rest
      | _, rest => .word (wordFrom c h none) :: rest
    else if isBlank c then tokens cs
    else .mark c :: tokens cs

/-! ### Reading -/

/-- What stands to the left of an operand. -/
inductive Frame where
  | function
  | union (left : TypeExpr)
  | intersection (left : TypeExpr)
  | group
  | argument (isReadonly : Bool)
  deriving DecidableEq

/-- Gives an operand to the frames on top that bind at least as tightly as `m`. -/
def settle (m : Nat) : List Frame → TypeExpr → List Frame × TypeExpr
  | .function :: frames, e =>
    if m = 0 then settle m frames (.function e) else (.function :: frames, e)
  | .union left :: frames, e =>
    if m ≤ 1 then settle m frames (.union left e) else (.union left :: frames, e)
  | .intersection left :: frames, e =>
    if m ≤ 2 then settle m frames (.intersection left e) else (.intersection left :: frames, e)
  | frames, e => (frames, e)

/-- Which of the two array types a name is. -/
def arrayName? (n : TypeName) : Option Bool :=
  if n.chars = arrayName false then some false
  else if n.chars = arrayName true then some true
  else none

/-- Reads what follows an operand, or an operand and what follows it. -/
def readFrom : List Frame → Option TypeExpr → List Token → Option TypeExpr
  | frames, none, .word n :: .mark '<' :: rest =>
    (arrayName? n).bind fun isReadonly => readFrom (.argument isReadonly :: frames) none rest
  | frames, none, .word n :: rest => readFrom frames (some (.name n)) rest
  | frames, none, .mark '(' :: rest => readFrom (.group :: frames) none rest
  | .group :: frames, none, .mark ')' :: .mark '=' :: .mark '>' :: rest =>
    readFrom (.function :: frames) none rest
  | frames, some e, .mark '[' :: .mark ']' :: rest => readFrom frames (some (.array e)) rest
  | frames, some e, .mark '&' :: rest =>
    readFrom (.intersection (settle 2 frames e).2 :: (settle 2 frames e).1) none rest
  | frames, some e, .mark '|' :: rest =>
    readFrom (.union (settle 1 frames e).2 :: (settle 1 frames e).1) none rest
  | frames, some e, .mark ')' :: rest =>
    match settle 0 frames e with
    | (.group :: below, inner) => readFrom below (some inner) rest
    | _ => none
  | frames, some e, .mark '>' :: rest =>
    match settle 0 frames e with
    | (.argument isReadonly :: below, inner) =>
      readFrom below (some (.applied isReadonly inner)) rest
    | _ => none
  | frames, some e, [] =>
    match settle 0 frames e with
    | ([], whole) => some whole
    | _ => none
  | _, _, _ => none

/-- The expression that a text writes. -/
def parse? (cs : List Char) : Option TypeExpr := readFrom [] none (tokens cs)

/-! ### Tokens of texts -/

/-- The characters that are written around names. -/
def marks : List Char := ['(', ')', '[', ']', '<', '>', '|', '&', '=']

theorem isWordChar_mark {c : Char} (hc : c ∈ marks) : isWordChar c = false ∧ isBlank c = false := by
  have hall : marks.all (fun c => !isWordChar c && !isBlank c) = true := by decide
  simpa using List.all_eq_true.1 hall c hc

theorem tokens_mark {c : Char} (hc : c ∈ marks) (rest : List Char) :
    tokens (c :: rest) = .mark c :: tokens rest := by
  obtain ⟨hword, hblank⟩ := isWordChar_mark hc
  simp [tokens, hword, hblank]

theorem tokens_space (rest : List Char) : tokens (' ' :: rest) = tokens rest := rfl

/-- What may stand after a name: no more of the name, and no angle bracket. -/
structure Follows (rest : List Char) : Prop where
  apart : ∀ c ∈ rest.head?, isWordChar c = false
  plain : ∀ more, tokens rest ≠ .mark '<' :: more

theorem follows_nil : Follows [] := ⟨by simp, by simp [tokens]⟩

theorem follows_mark {c : Char} (hc : c ∈ marks) (hne : c ≠ '<') (rest : List Char) :
    Follows (c :: rest) := by
  refine ⟨fun d hd => ?_, ?_⟩
  · obtain rfl : c = d := by simpa using hd
    exact (isWordChar_mark hc).1
  · simp [tokens_mark hc, hne]

theorem follows_space {c : Char} (hc : c ∈ marks) (hne : c ≠ '<') (rest : List Char) :
    Follows (' ' :: c :: rest) := by
  refine ⟨fun d hd => ?_, (follows_mark hc hne rest).plain⟩
  obtain rfl : ' ' = d := by simpa using hd
  decide

theorem tokens_name (n : TypeName) {rest : List Char}
    (hrest : ∀ c ∈ rest.head?, isWordChar c = false) :
    tokens (n.chars ++ rest) = .word n :: tokens rest := by
  obtain ⟨chars, hne, hword⟩ := n
  induction chars with
  | nil => contradiction
  | cons c cs ih =>
    have hc : isWordChar c = true := hword c List.mem_cons_self
    rw [List.cons_append, tokens, dif_pos hc]
    rcases cs with _ | ⟨d, cs⟩
    · have hhead : rest.head?.any isWordChar = false := by
        rw [Option.any_eq_false]
        exact fun c hc => by simpa using hrest c hc
      simp [hhead, wordFrom]
    · have hd : isWordChar d = true := hword d (by simp)
      rw [ih (List.cons_ne_nil _ _) fun e he => hword e (List.mem_cons_of_mem _ he)]
      simp [hd, wordFrom]

/-! ### Expressions are read from their texts -/

/-- Frames that the operand of the given level leaves alone. -/
def Fits (m : Nat) : List Frame → Prop
  | .union _ :: _ => 2 ≤ m
  | .intersection _ :: _ => 3 ≤ m
  | _ => True

theorem Fits.mono {m k : Nat} {frames : List Frame} (h : Fits m frames) (hmk : m ≤ k) :
    Fits k frames := by
  rcases frames with _ | ⟨frame, below⟩
  · trivial
  · cases frame with
    | union left => exact Nat.le_trans h hmk
    | intersection left => exact Nat.le_trans h hmk
    | function | group | argument => trivial

theorem Fits.settle {m k : Nat} {frames : List Frame} (h : Fits m frames) (hk : 1 ≤ k) (hmk : m ≤ k)
    (e : TypeExpr) : settle k frames e = (frames, e) := by
  rcases frames with _ | ⟨frame, below⟩
  · rfl
  · cases frame with
    | function => exact if_neg (by omega)
    | union left =>
      have hm : 2 ≤ m := h
      exact if_neg (by omega)
    | intersection left =>
      have hm : 3 ≤ m := h
      exact if_neg (by omega)
    | group | argument => rfl

theorem fits_three (frames : List Frame) : Fits 3 frames := by
  unfold Fits
  split <;> decide

/-- A text is read as an expression that is an operand of level `m`, once the frames that it leaves
behind are settled. -/
def IsReadAt (m : Nat) (cs : List Char) (e : TypeExpr) : Prop :=
  ∀ frames rest, Fits m frames → Follows rest →
    ∃ below c, readFrom frames none (tokens (cs ++ rest)) = readFrom below (some c) (tokens rest) ∧
      ∀ k ≤ m, settle k below c = settle k frames e

theorem IsReadAt.parens {cs : List Char} {e : TypeExpr} (h : IsReadAt 0 cs e) (m : Nat) :
    IsReadAt m ('(' :: (cs ++ [')'])) e := by
  intro frames rest _ _
  obtain ⟨below, c, hread, hsettle⟩ := h (.group :: frames) (')' :: rest) trivial
    (follows_mark (by decide) (by decide) rest)
  refine ⟨frames, e, ?_, fun k _ => rfl⟩
  have hgroup : settle 0 below c = (.group :: frames, e) := hsettle 0 (Nat.le_refl 0)
  rw [List.cons_append, List.append_assoc, tokens_mark (by decide), readFrom, List.singleton_append,
    hread, tokens_mark (by decide), readFrom, hgroup]

theorem IsReadAt.text {e : TypeExpr} (h : ∀ k ≤ e.level, IsReadAt k e.body e.bare) (m : Nat) :
    IsReadAt m (e.text m) e.bare := by
  by_cases hm : m ≤ e.level
  · rw [text_of_le hm]
    exact h m hm
  · rw [text_of_lt (Nat.lt_of_not_le hm)]
    exact (h 0 (Nat.zero_le _)).parens m

/-- An operator between two operands: its frame gives the left one back when it is settled. -/
theorem IsReadAt.operator {p : Nat} {mark : Char} {op : TypeExpr → TypeExpr → TypeExpr}
    {f : TypeExpr → Frame} {as bs : List Char} {a b : TypeExpr}
    (hp : 1 ≤ p) (hmark : mark ∈ marks) (hangle : mark ≠ '<')
    (hframe : ∀ frames c rest, readFrom frames (some c) (.mark mark :: rest) =
      readFrom (f (settle p frames c).2 :: (settle p frames c).1) none rest)
    (hgives : ∀ left e frames, ∀ k ≤ p,
      settle k (f left :: frames) e = settle k frames (op left e))
    (hkeeps : ∀ left frames, Fits (p + 1) (f left :: frames))
    (ha : IsReadAt p as a) (hb : IsReadAt (p + 1) bs b) :
    ∀ m ≤ p, IsReadAt m (as ++ ' ' :: mark :: ' ' :: bs) (op a b) := by
  intro m hm frames rest hfits hrest
  obtain ⟨above, c, hread, hsettle⟩ := ha frames (' ' :: mark :: ' ' :: (bs ++ rest))
    (hfits.mono hm) (follows_space hmark hangle _)
  obtain ⟨below, d, hread', hsettle'⟩ := hb (f a :: frames) rest (hkeeps a frames) hrest
  have hleft : settle p above c = (frames, a) := by
    rw [hsettle p (Nat.le_refl p), hfits.settle hp hm]
  refine ⟨below, d, ?_, fun k hk => ?_⟩
  · rw [List.append_assoc, List.cons_append, List.cons_append, List.cons_append, hread,
      tokens_space, tokens_mark hmark, tokens_space, hframe, hleft, hread']
  · rw [hsettle' k (by omega), hgives a b frames k (Nat.le_trans hk hm)]

/-- The name before the angle brackets is a name. -/
def arrayWord (isReadonly : Bool) : TypeName where
  chars := arrayName isReadonly
  nonempty := by cases isReadonly <;> decide
  isWord := List.all_eq_true.1 (by cases isReadonly <;> decide)

theorem arrayName?_arrayWord (isReadonly : Bool) :
    arrayName? (arrayWord isReadonly) = some isReadonly := by
  cases isReadonly <;> rfl

theorem isReadAt_body (e : TypeExpr) : ∀ m ≤ e.level, IsReadAt m e.body e.bare := by
  induction e with
  | name n =>
    intro m _ frames rest _ hrest
    refine ⟨frames, .name n, ?_, fun k _ => rfl⟩
    rw [body, tokens_name n hrest.apart, readFrom]
    exact fun more => hrest.plain more
  | array t ih =>
    intro m _ frames rest _ _
    obtain ⟨below, c, hread, hsettle⟩ := IsReadAt.text ih 3 frames ('[' :: ']' :: rest)
      (fits_three frames) (follows_mark (by decide) (by decide) _)
    have hkept := hsettle 3 (Nat.le_refl 3)
    rw [(fits_three below).settle (by decide) (Nat.le_refl 3),
      (fits_three frames).settle (by decide) (Nat.le_refl 3), Prod.mk.injEq] at hkept
    obtain ⟨rfl, rfl⟩ := hkept
    refine ⟨below, .array t.bare, ?_, fun k _ => rfl⟩
    rw [body, ← text, List.append_assoc, List.cons_append, List.cons_append, List.nil_append, hread,
      tokens_mark (by decide), tokens_mark (by decide), readFrom]
  | applied isReadonly t ih =>
    intro m _ frames rest _ _
    obtain ⟨below, c, hread, hsettle⟩ := IsReadAt.text ih 0 (.argument isReadonly :: frames)
      ('>' :: rest) trivial (follows_mark (by decide) (by decide) rest)
    refine ⟨frames, .applied isReadonly t.bare, ?_, fun k _ => rfl⟩
    have hword : tokens (arrayName isReadonly ++ '<' :: (t.text 0 ++ '>' :: rest)) =
        .word (arrayWord isReadonly) :: tokens ('<' :: (t.text 0 ++ '>' :: rest)) :=
      tokens_name (arrayWord isReadonly) (by simp; decide)
    have hargument : settle 0 below c = (.argument isReadonly :: frames, t.bare) :=
      hsettle 0 (Nat.le_refl 0)
    rw [body, ← text, List.append_assoc, List.cons_append, List.append_assoc, List.singleton_append,
      hword, tokens_mark (by decide), readFrom, arrayName?_arrayWord, Option.bind_some, hread,
      tokens_mark (by decide), readFrom, hargument]
  | union a b iha ihb =>
    exact IsReadAt.operator (p := 1) (f := .union) (by decide) (by decide) (by decide)
      (fun frames c rest => by rw [readFrom]) (fun left e frames k hk => if_pos hk)
      (fun left frames => Nat.le_refl 2) (IsReadAt.text iha 1) (IsReadAt.text ihb 2)
  | intersection a b iha ihb =>
    exact IsReadAt.operator (p := 2) (f := .intersection) (by decide) (by decide) (by decide)
      (fun frames c rest => by rw [readFrom]) (fun left e frames k hk => if_pos hk)
      (fun left frames => Nat.le_refl 3) (IsReadAt.text iha 2) (IsReadAt.text ihb 3)
  | function t ih =>
    intro m hm frames rest _ hrest
    have hm : m ≤ 0 := hm
    obtain ⟨below, c, hread, hsettle⟩ := IsReadAt.text ih 0 (.function :: frames) rest trivial hrest
    refine ⟨below, c, ?_, fun k hk => ?_⟩
    · rw [body, ← text]
      simp only [List.cons_append]
      rw [tokens_mark (by decide), readFrom, tokens_mark (by decide), tokens_space,
        tokens_mark (by decide), tokens_mark (by decide), tokens_space, readFrom, hread]
    · obtain rfl : k = 0 := Nat.le_zero.1 (Nat.le_trans hk hm)
      exact hsettle 0 (Nat.le_refl 0)
  | parens t ih =>
    intro m _
    exact (IsReadAt.text ih 0).parens m

/-- **An expression is read from its text**, whichever parentheses are written out. -/
theorem parse?_text (e : TypeExpr) : parse? (e.text 0) = some e.bare := by
  obtain ⟨below, c, hread, hsettle⟩ := IsReadAt.text (isReadAt_body e) 0 [] [] trivial follows_nil
  have hwhole : settle 0 below c = ([], e.bare) := hsettle 0 (Nat.le_refl 0)
  rw [List.append_nil] at hread
  rw [parse?, hread, tokens, readFrom, hwhole]

end TypeExpr

end ServiceScaffold
