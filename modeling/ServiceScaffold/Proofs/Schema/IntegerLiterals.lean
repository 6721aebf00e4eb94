import Mathlib.Data.Nat.Digits.Defs
import ServiceScaffold.Proofs.Number.Decimal
import ServiceScaffold.Proofs.Syntax.LongerTexts
import ServiceScaffold.Proofs.Text.Occurrence
import ServiceScaffold.Schema.Extraction

/-!
# Integer literals

Which whole numbers of a text are read, and as what.  A literal is given by its parts: a base with
its mark, digits of the base with an underscore before any but the first, and the mark of big
integers.  The digits of every base are read, but the mark of big integers is dropped from decimal
literals alone, and a based number is read by way of a signed number of 64 bits.

* `IntegerLiteral`, `IntegerLiteral.text`, `IntegerLiteral.value` : the literals, their texts and
  the numbers that they write;
* `IntegerLiteral.number?_text` : the text is one number of the grammar;
* `IntegerLiteral.IsDropped` : a literal with a base, and either marked as big or `2 ^ 63` or more;
* `IntegerLiteral.numberOf?_text_exact` : **a literal has no value if and only if it is one of
  these**, and its value is the nearest double, which is the number itself below `2 ^ 53`.
-/

namespace ServiceScaffold

open Text Syntax

/-! ### Literals -/

/-- The bases that a whole number is written in. -/
inductive NumberBase where
  | decimal
  | hexadecimal
  | octal
  | binary
  deriving DecidableEq, Repr

namespace NumberBase

/-- How many digits there are. -/
def radix : NumberBase → Nat
  | decimal => 10
  | hexadecimal => 16
  | octal => 8
  | binary => 2

/-- What stands before the digits. -/
def mark : NumberBase → List Char
  | decimal => []
  | hexadecimal => ['0', 'x']
  | octal => ['0', 'o']
  | binary => ['0', 'b']

/-- The characters that the grammar takes for digits of a base. -/
def takes : NumberBase → Char → Bool
  | .decimal, c => c.isDigit
  | .hexadecimal, c => (Number.hexValue? c).isSome
  | .octal, c => '0' ≤ c && c ≤ '7'
  | .binary, c => c == '0' || c == '1'

theorem radix_le (base : NumberBase) : base.radix ≤ 16 := by cases base <;> decide

end NumberBase

/-- A digit of a base; a letter may be a capital. -/
structure BaseDigit (base : NumberBase) where
  value : Fin base.radix
  isCapital : Bool
  deriving DecidableEq

/-- The character of the digit. -/
def BaseDigit.char {base : NumberBase} (d : BaseDigit base) : Char :=
  if d.isCapital then (Nat.digitChar d.value).toUpper else Nat.digitChar d.value

/-- A whole number as it is written: each digit but the first may follow an underscore, and no
decimal digit follows a zero at the start. -/
structure IntegerLiteral where
  base : NumberBase
  hasCapitalMark : Bool
  first : BaseDigit base
  rest : List (Bool × BaseDigit base)
  isBig : Bool
  noLeadingZero : base = .decimal → first.value.val = 0 → rest = []

namespace IntegerLiteral

/-- The digits after the first, with their underscores. -/
def restText {base : NumberBase} (rest : List (Bool × BaseDigit base)) : List Char :=
  rest.flatMap fun (isSeparated, d) => if isSeparated then ['_', d.char] else [d.char]

/-- The mark of big integers, if it is there. -/
def bigMark (l : IntegerLiteral) : List Char := if l.isBig then ['n'] else []

/-- The literal after the mark of its base. -/
def body (l : IntegerLiteral) : List Char := l.first.char :: (restText l.rest ++ l.bigMark)

/-- The literal as it is written. -/
def text (l : IntegerLiteral) : List Char :=
  (if l.hasCapitalMark then l.base.mark.map Char.toUpper else l.base.mark) ++ l.body

/-- The values of the digits. -/
def digits (l : IntegerLiteral) : List Nat := l.first.value :: l.rest.map (·.2.value.val)

/-- The number that the literal writes. -/
def value (l : IntegerLiteral) : Nat := Nat.ofDigits l.base.radix l.digits.reverse

/-- The literal has a base, and is marked as big or too great for a signed number of 64 bits. -/
def IsDropped (l : IntegerLiteral) : Prop :=
  l.base ≠ .decimal ∧ (l.isBig = true ∨ 2 ^ 63 ≤ l.value)

instance (l : IntegerLiteral) : Decidable l.IsDropped := inferInstanceAs (Decidable (_ ∧ _))

/-! ### Digits -/

/-- A digit of a base of at most sixteen, whichever way it is written. -/
theorem digit_char : ∀ (v : Fin 16) (isCapital : Bool),
    let c := if isCapital then (Nat.digitChar v).toUpper else Nat.digitChar v
    c.toLower = Nat.digitChar v ∧ c ≠ '_' ∧ Number.hexValue? (Nat.digitChar v) = some v.val := by
  decide

theorem lt_sixteen {base : NumberBase} (v : Fin base.radix) : v.val < 16 :=
  v.isLt.trans_le base.radix_le

theorem toLower_char {base : NumberBase} (d : BaseDigit base) :
    d.char.toLower = Nat.digitChar d.value :=
  (digit_char ⟨d.value, lt_sixteen d.value⟩ d.isCapital).1

theorem char_ne_underscore {base : NumberBase} (d : BaseDigit base) : d.char ≠ '_' :=
  (digit_char ⟨d.value, lt_sixteen d.value⟩ d.isCapital).2.1

theorem hexValue?_digitChar {v : Nat} (hv : v < 16) :
    Number.hexValue? (Nat.digitChar v) = some v :=
  (digit_char ⟨v, hv⟩ false).2.2

theorem mem_digits {l : IntegerLiteral} {v : Nat} (hv : v ∈ l.digits) : v < l.base.radix := by
  rw [digits, List.mem_cons, List.mem_map] at hv
  obtain rfl | ⟨p, -, rfl⟩ := hv
  · exact l.first.value.isLt
  · exact p.2.value.isLt

/-- Digits are summed up from the first to the last. -/
theorem ofDigits_reverse (radix : Nat) (ds : List Nat) :
    Nat.ofDigits radix ds.reverse = ds.foldl (fun n d => radix * n + d) 0 := by
  rw [Nat.ofDigits_eq_foldr, List.foldr_reverse]
  simp only [Nat.cast_id, Nat.add_comm]

/-! ### Numbers with a base -/

theorem natOfBase?_digits {radix : Nat} (hradix : radix ≤ 16) {ds : List Nat}
    (hds : ∀ d ∈ ds, d < radix) (hne : ds ≠ []) :
    natOfBase? radix (ds.map Nat.digitChar) = some (Nat.ofDigits radix ds.reverse) := by
  have hfold : ∀ start, (ds.map Nat.digitChar).foldl (fun total c => total.bind fun n =>
      (Number.hexValue? c).bind fun d => if d < radix then some (radix * n + d) else none)
        (some start) = some (ds.foldl (fun n d => radix * n + d) start) := by
    clear hne
    induction ds with
    | nil =>
      intro start
      rfl
    | cons d ds ih =>
      intro start
      have hd := hds d List.mem_cons_self
      rw [List.map_cons, List.foldl_cons, Option.bind_some,
        hexValue?_digitChar (hd.trans_le hradix), Option.bind_some, if_pos hd,
        ih fun e he => hds e (List.mem_cons_of_mem _ he), List.foldl_cons]
  rw [natOfBase?, if_neg (by simpa using hne), hfold, ofDigits_reverse]

/-- The mark of big integers is no digit of a base. -/
theorem natOfBase?_big (radix : Nat) (cs : List Char) : natOfBase? radix (cs ++ ['n']) = none := by
  have hn : Number.hexValue? 'n' = none := by decide
  rw [natOfBase?, if_neg (by simp), List.foldl_append, List.foldl_cons, List.foldl_nil]
  simp [hn]

theorem basedNumber?_of_mark (mark : String) (radix : Nat) (cs : List Char) :
    basedNumber? mark radix (mark.toList ++ cs) = (natOfBase? radix cs).bind fun n =>
      if n < 2 ^ 63 then some (Binary64.ofInt n) else none := by
  have hstrip : stripFront? mark.toList (mark.toList ++ cs) = some cs :=
    List.isPrefixOf?_eq_some_iff_append_eq.2 rfl
  rw [basedNumber?, hstrip]
  rfl

/-- A number with a base has no value as a decimal: it goes on with a letter after the zero. -/
theorem parseDecimal?_based {letter : Char} (hletter : letter ∈ ['x', 'o', 'b']) (cs : List Char) :
    Number.parseDecimal? (dropEndWhile (· == 'n') ('0' :: letter :: cs)) = none := by
  have hn : (letter == 'n') = false := by
    rw [beq_eq_false_iff_ne]
    rintro rfl
    revert hletter
    decide
  have hkept := dropEndWhile_append_cons (p := (· == 'n')) hn ['0'] cs
  rw [List.singleton_append, List.singleton_append] at hkept
  rw [hkept]
  simp only [List.mem_cons, List.not_mem_nil, or_false] at hletter
  obtain rfl | rfl | rfl := hletter <;>
    simp [Number.parseDecimal?, Number.spanSign, Number.spanDigits, Number.parseExponent?]

/-! ### Texts of literals -/

/-- The text without underscores and in small letters. -/
theorem cleaned_restText {base : NumberBase} (rest : List (Bool × BaseDigit base)) :
    ((restText rest).filter (· != '_')).map Char.toLower =
      rest.map fun p => Nat.digitChar p.2.value := by
  induction rest with
  | nil => rfl
  | cons p rest ih =>
    obtain ⟨isSeparated, d⟩ := p
    have hd : (d.char != '_') = true := by simpa using char_ne_underscore d
    rw [restText, List.flatMap_cons, List.filter_append, List.map_append, ← restText, ih]
    cases isSeparated <;> simp [hd, toLower_char]

theorem cleaned_text (l : IntegerLiteral) :
    (l.text.filter (· != '_')).map Char.toLower =
      l.base.mark ++ (l.digits.map Nat.digitChar ++ l.bigMark) := by
  have hmark : ((if l.hasCapitalMark then l.base.mark.map Char.toUpper else l.base.mark).filter
      (· != '_')).map Char.toLower = l.base.mark := by
    cases l.base <;> cases l.hasCapitalMark <;> decide
  have hbig : (l.bigMark.filter (· != '_')).map Char.toLower = l.bigMark := by
    unfold bigMark
    cases l.isBig <;> decide
  have hd : (l.first.char != '_') = true := by simpa using char_ne_underscore l.first
  rw [text, body, List.filter_append, List.map_append, hmark,
    List.filter_cons_of_pos (p := (· != '_')) hd, List.map_cons, List.filter_append,
    List.map_append, hbig, cleaned_restText, toLower_char, digits, List.map_cons, List.map_map]
  rfl

theorem natOfDigits_digitChar {ds : List Nat} (hds : ∀ d ∈ ds, d < 10) :
    Number.natOfDigits (ds.map Nat.digitChar) = Nat.ofDigits 10 ds.reverse := by
  have hdigit : ∀ v : Fin 10, Number.digitValue (Nat.digitChar v) = v.val := by decide
  rw [Number.natOfDigits, List.foldl_map, ofDigits_reverse]
  refine List.foldl_ext _ _ 0 fun n d hd => ?_
  rw [hdigit ⟨d, hds d hd⟩]

/-- The digits of a decimal literal, as they are read. -/
theorem isDigit_decimal {l : IntegerLiteral} (hbase : l.base = .decimal) {c : Char}
    (hc : c ∈ l.digits.map Nat.digitChar) : c.isDigit = true := by
  have hchar : ∀ v : Fin 10, (Nat.digitChar v).isDigit = true := by decide
  obtain ⟨d, hd, rfl⟩ := List.mem_map.1 hc
  have hlt := mem_digits hd
  rw [hbase] at hlt
  exact hchar ⟨d, hlt⟩

/-- The mark of big integers does not count. -/
theorem parseDecimal?_literal {l : IntegerLiteral} (hbase : l.base = .decimal) :
    Number.parseDecimal? (dropEndWhile (· == 'n') (l.digits.map Nat.digitChar ++ l.bigMark)) =
      some (Binary64.ofInt l.value) := by
  have hdigit : ∀ c ∈ l.digits.map Nat.digitChar, c.isDigit = true := fun c => isDigit_decimal hbase
  have hne : l.digits.map Nat.digitChar ≠ [] := by simp [digits]
  have hkept : dropEndWhile (· == 'n') (l.digits.map Nat.digitChar ++ l.bigMark) =
      l.digits.map Nat.digitChar := by
    obtain ⟨front, last, hlast⟩ := (List.eq_nil_or_concat' _).resolve_left hne
    have hother : (last == 'n') = false := by
      have hdigit := hdigit last (by simp [hlast])
      rw [beq_eq_false_iff_ne]
      rintro rfl
      cases hdigit
    rw [hlast, List.append_assoc, List.singleton_append,
      dropEndWhile_append_cons (p := (· == 'n')) hother, bigMark]
    cases l.isBig <;> rfl
  have hvalue : Number.natOfDigits (l.digits.map Nat.digitChar) = l.value := by
    have hds : ∀ d ∈ l.digits, d < 10 := fun d hd => by
      simpa [hbase, NumberBase.radix] using mem_digits hd
    rw [natOfDigits_digitChar hds, value, hbase]
    rfl
  rw [hkept, Number.parseDecimal?_digits hdigit hne, hvalue]

theorem basedNumber?_of_not_mem {mark : String} {c : Char} (hmark : c ∈ mark.toList)
    (radix : Nat) {cs : List Char} (hc : c ∉ cs) : basedNumber? mark radix cs = none := by
  have hstrip : stripFront? mark.toList cs = none := by
    rw [Option.eq_none_iff_forall_ne_some]
    intro rest hrest
    rw [← List.isPrefixOf?_eq_some_iff_append_eq.1 hrest] at hc
    exact hc (List.mem_append_left _ hmark)
  rw [basedNumber?, hstrip]
  rfl

/-- A number with the mark of its base is read by its base. -/
theorem basedNumber?_literal (l : IntegerLiteral) (mark : String) :
    basedNumber? mark l.base.radix (mark.toList ++ (l.digits.map Nat.digitChar ++ l.bigMark)) =
      if l.isBig = true ∨ 2 ^ 63 ≤ l.value then none else some (Binary64.ofInt l.value) := by
  rw [basedNumber?_of_mark, bigMark]
  cases l.isBig
  · have hvalue : natOfBase? l.base.radix (l.digits.map Nat.digitChar) = some l.value :=
      natOfBase?_digits l.base.radix_le (fun d => mem_digits) (List.cons_ne_nil _ _)
    simp only [Bool.false_eq_true, if_false, List.append_nil, hvalue, Option.bind_some, false_or]
    rw [← ite_not]
    simp only [Nat.not_lt]
  · simp [natOfBase?_big]

theorem numberOf?_decimal {l : IntegerLiteral} (hbase : l.base = .decimal) :
    numberOf? l.text = some (Binary64.ofInt l.value) := by
  have hplain := parseDecimal?_literal hbase
  have hletter : ∀ letter ∈ ['x', 'o', 'b'], letter ∉ l.digits.map Nat.digitChar ++ l.bigMark := by
    intro letter h hmem
    obtain hdigit | hbig := List.mem_append.1 hmem
    · have hapart : letter.isDigit = false := by
        have hall : ['x', 'o', 'b'].all (fun c => !c.isDigit) = true := by decide
        simpa using List.all_eq_true.1 hall letter h
      rw [isDigit_decimal hbase hdigit] at hapart
      cases hapart
    · unfold bigMark at hbig
      split at hbig
      · obtain rfl := List.mem_singleton.1 hbig
        revert h
        decide
      · cases hbig
  rw [numberOf?, cleaned_text, hbase]
  simp only [NumberBase.mark, List.nil_append]
  rw [basedNumber?_of_not_mem (c := 'x') (by decide) 16 (hletter 'x' (by decide)),
    basedNumber?_of_not_mem (c := 'o') (by decide) 8 (hletter 'o' (by decide)),
    basedNumber?_of_not_mem (c := 'b') (by decide) 2 (hletter 'b' (by decide)), hplain]
  rfl

theorem numberOf?_based {l : IntegerLiteral} (hbase : l.base ≠ .decimal) :
    numberOf? l.text =
      if l.isBig = true ∨ 2 ^ 63 ≤ l.value then none else some (Binary64.ofInt l.value) := by
  have hbased := basedNumber?_literal l
  unfold numberOf?
  simp only [cleaned_text]
  generalize l.digits.map Nat.digitChar ++ l.bigMark = cs at hbased
  generalize (if l.isBig = true ∨ 2 ^ 63 ≤ l.value then none else some (Binary64.ofInt l.value)) =
    outcome at hbased
  generalize l.base = base at hbase hbased
  have hother : ∀ letter ∈ ['x', 'o', 'b'],
      Number.parseDecimal? (dropEndWhile (· == 'n') ('0' :: letter :: cs)) = none := fun letter h =>
    parseDecimal?_based h cs
  -- of the four attempts, only the one for the base itself can succeed
  cases base with
  | decimal => contradiction
  | hexadecimal =>
    have hread : basedNumber? "0x" 16 ('0' :: 'x' :: cs) = outcome := hbased "0x"
    have hapart : basedNumber? "0o" 8 ('0' :: 'x' :: cs) = none ∧
        basedNumber? "0b" 2 ('0' :: 'x' :: cs) = none := ⟨rfl, rfl⟩
    simp only [NumberBase.mark, List.cons_append, List.nil_append, hread, hapart,
      hother 'x' (by decide)]
    cases outcome <;> rfl
  | octal =>
    have hread : basedNumber? "0o" 8 ('0' :: 'o' :: cs) = outcome := hbased "0o"
    have hapart : basedNumber? "0x" 16 ('0' :: 'o' :: cs) = none ∧
        basedNumber? "0b" 2 ('0' :: 'o' :: cs) = none := ⟨rfl, rfl⟩
    simp only [NumberBase.mark, List.cons_append, List.nil_append, hread, hapart,
      hother 'o' (by decide)]
    cases outcome <;> rfl
  | binary =>
    have hread : basedNumber? "0b" 2 ('0' :: 'b' :: cs) = outcome := hbased "0b"
    have hapart : basedNumber? "0x" 16 ('0' :: 'b' :: cs) = none ∧
        basedNumber? "0o" 8 ('0' :: 'b' :: cs) = none := ⟨rfl, rfl⟩
    simp only [NumberBase.mark, List.cons_append, List.nil_append, hread, hapart,
      hother 'b' (by decide)]
    cases outcome <;> rfl

/-! ### The grammar of numbers -/

theorem takes_char {base : NumberBase} (d : BaseDigit base) : base.takes d.char = true := by
  obtain ⟨v, isCapital⟩ := d
  cases base <;> revert v isCapital <;> decide

theorem takes_other (base : NumberBase) : base.takes '_' = false ∧ base.takes 'n' = false := by
  cases base <;> decide

theorem digitRun_restText {base : NumberBase} (rest : List (Bool × BaseDigit base))
    {tail : List Char} (htail : digitRun base.takes true tail = tail) :
    digitRun base.takes true (restText rest ++ tail) = tail := by
  induction rest with
  | nil => exact htail
  | cons p rest ih =>
    obtain ⟨isSeparated, d⟩ := p
    rw [restText, List.flatMap_cons, ← restText, List.append_assoc, digitRun.eq_def]
    cases isSeparated
    · simpa [takes_char] using ih
    · simpa [takes_char, takes_other] using ih

theorem digitRun_body (l : IntegerLiteral) : digitRun l.base.takes false l.body = l.bigMark := by
  have htail : digitRun l.base.takes true l.bigMark = l.bigMark := by
    unfold bigMark
    cases l.isBig
    · rfl
    · simp [digitRun, takes_other]
  rw [body, digitRun.eq_def]
  simp [takes_char, digitRun_restText l.rest htail]

theorem number?_marked {l : IntegerLiteral} (hbase : l.base ≠ .decimal) :
    Syntax.number? l.text = some [] := by
  have hread : baseRun? l.base.takes l.body = some [] := by
    rw [body, baseRun?, if_pos (takes_char l.first), ← body, digitRun_body, bigMark]
    cases l.isBig <;> rfl
  have htail : basedTail? l.text = some [] := by
    rw [text]
    generalize l.body = cs at hread
    generalize l.base = base at hbase hread
    cases base with
    | decimal => contradiction
    | hexadecimal | octal | binary => cases l.hasCapitalMark <;> exact hread
  rw [number?_eq, htail]
  rfl

theorem number?_decimal {l : IntegerLiteral} (hbase : l.base = .decimal) :
    Syntax.number? l.text = some [] := by
  have hmark : l.text = l.body := by
    rw [text, hbase]
    cases l.hasCapitalMark <;> rfl
  have htakes : l.base.takes = Char.isDigit := by rw [hbase]; rfl
  have hdigit : l.first.char.isDigit = true := by
    rw [← htakes]
    exact takes_char l.first
  rw [hmark]
  by_cases hzero : l.first.value.val = 0
  · have hchar : l.first.char = '0' := by
      rw [BaseDigit.char, hzero]
      cases l.first.isCapital <;> rfl
    rw [body, l.noLeadingZero hbase hzero, hchar, bigMark]
    cases l.isBig <;> rfl
  · have hrun := digitRun_body l
    have hhead : l.first.char ≠ '0' := by
      intro h
      have hvalue := hexValue?_digitChar (lt_sixteen l.first.value)
      rw [← toLower_char, h] at hvalue
      exact hzero (Option.some.inj hvalue).symm
    have hpoint : l.first.char ≠ '.' := by
      intro h
      rw [h] at hdigit
      cases hdigit
    have htail : fractionTail l.bigMark = [] := by
      rw [bigMark]
      cases l.isBig <;> rfl
    rw [htakes, body] at hrun
    rw [number?_eq, body]
    simp [basedTail?, plainTail?, decimalRun?, hhead, hpoint, hdigit, hrun, htail]

theorem number?_text (l : IntegerLiteral) : Syntax.number? l.text = some [] := by
  by_cases hbase : l.base = .decimal
  · exact number?_decimal hbase
  · exact number?_marked hbase

/-- **A literal has no value if and only if it has a base and is marked as big or too great.**  Else
its value is the double nearest to the number that it writes, and below `2 ^ 53` the number. -/
theorem numberOf?_text_exact (l : IntegerLiteral) :
    Syntax.number? l.text = some [] ∧ (numberOf? l.text = none ↔ l.IsDropped) ∧
      (¬l.IsDropped → numberOf? l.text = some (Binary64.ofInt l.value) ∧
        (l.value < 2 ^ 53 → (Binary64.ofInt l.value).wholeNumber? = some (l.value : Int))) := by
  refine ⟨number?_text l, ?_, fun hkept => ⟨?_, fun hsmall => Binary64.wholeNumber?_ofInt hsmall⟩⟩
  · by_cases hbase : l.base = .decimal
    · simp [numberOf?_decimal hbase, IsDropped, hbase]
    · rw [numberOf?_based hbase, IsDropped, and_iff_right hbase]
      by_cases hdropped : l.isBig = true ∨ 2 ^ 63 ≤ l.value
      · exact iff_of_true (if_pos hdropped) hdropped
      · rw [if_neg hdropped]
        exact iff_of_false (Option.some_ne_none _) hdropped
  · by_cases hbase : l.base = .decimal
    · exact numberOf?_decimal hbase
    · rw [numberOf?_based hbase, if_neg fun h => hkept ⟨hbase, h⟩]

/-- The literal `0xF_F`. -/
def masked : IntegerLiteral where
  base := .hexadecimal
  hasCapitalMark := false
  first := ⟨⟨15, by decide⟩, true⟩
  rest := [(true, ⟨⟨15, by decide⟩, true⟩)]
  isBig := false
  noLeadingZero := by decide

theorem masked_read : masked.text = "0xF_F".toList ∧ ¬masked.IsDropped ∧ masked.value < 2 ^ 53 ∧
    (numberOf? masked.text).bind Binary64.wholeNumber? = some 255 := by
  have hkept : ¬masked.IsDropped := by decide
  have hsmall : masked.value < 2 ^ 53 := by decide
  obtain ⟨-, -, hread⟩ := numberOf?_text_exact masked
  obtain ⟨hvalue, hwhole⟩ := hread hkept
  refine ⟨by decide, hkept, hsmall, ?_⟩
  rw [hvalue, Option.bind_some, hwhole hsmall]
  rfl

/-- The literal `0xFFn` writes 255 and has no value. -/
theorem big_dropped : ∃ l : IntegerLiteral, l.text = "0xFFn".toList ∧ l.value = 255 ∧
    numberOf? l.text = none := by
  refine ⟨⟨.hexadecimal, false, ⟨⟨15, by decide⟩, true⟩, [(false, ⟨⟨15, by decide⟩, true⟩)], true,
    by decide⟩, ?_⟩
  decide

end IntegerLiteral

end ServiceScaffold
