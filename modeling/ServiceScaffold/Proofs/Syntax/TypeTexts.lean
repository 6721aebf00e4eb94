import ServiceScaffold.Proofs.Syntax.ExportedTypes

/-!
# Texts that read as types

A text reads as a type if the rule of types takes it, all of it, wherever it is written down.

* `EndsType` : what may follow a type that is written down;
* `IsType` : a text that reads as a type before all that;
* `isType_of_signs` : a text whose tokens the rule of types takes;
* `IsTypeName.isType`, `isType_list`, `isType_partial` : names of types, and types over them.
-/

namespace ServiceScaffold.Syntax

open Grammar Rule

variable {cs t k k' x : List Char} {gs gs' : List Sign} {deep : Nat}

/-! ### What follows a type -/

/-- What stands behind a type: a semicolon or a closing brace on the same line. -/
def typeEnd : Sign := ⟨.among [.mark [';'], .mark ['\x7d']], true⟩

/-- Types may be written down before the text. -/
structure EndsType (k : List Char) : Prop where
  token : endsToken k = true
  sign : typeEnd.Fits (Sight.ofText k)
  /-- A brace that closes the type is not the end of a name before a colon. -/
  colon : (k.dropWhile isAsciiSpace).head? ≠ some ':'

theorem EndsType.signs (h : EndsType k) : Signs (Sight.ofText k).tail k [typeEnd] :=
  .cons h.sign .nil

theorem endsType_semicolon (k : List Char) : EndsType (';' :: k) :=
  ⟨rfl, by rw [sight_semicolon]; exact ⟨by simp [typeEnd, Look.Fits], fun _ => ⟨rfl, rfl⟩⟩,
    by simp [isAsciiSpace]⟩

/-! ### Types -/

/-- The text reads as a type wherever types may be written down, behind a space. -/
structure IsType (deep : Nat) (t : List Char) : Prop where
  starts (k : List Char) : StartsToken (t ++ k)
  reads (source : List Char) {k : List Char} (hk : EndsType k) :
    ReadsType source deep t (' ' :: (t ++ k)) k

theorem IsType.mono {deep' : Nat} (h : IsType deep t) (hdeep : deep ≤ deep') : IsType deep' t :=
  ⟨h.starts, fun source _ hk fuel hfuel => h.reads source hk fuel (hdeep.trans hfuel)⟩

theorem Signs.append (h : Signs k cs gs) (h' : Signs k' k gs') : Signs k' cs (gs ++ gs') := by
  induction h with
  | nil => exact h'
  | cons fits _ ih => exact .cons fits ih

theorem Signs.afterTokens (h : Signs k cs gs) : afterTokens gs.length cs = k := by
  induction h with
  | nil => rfl
  | cons fits _ ih => exact ih

theorem Signs.space {g : Sign} (h : Signs k cs (g :: gs)) : Signs k (' ' :: cs) (g :: gs) := by
  cases h with
  | cons fits rest => exact .cons (by rwa [Sight.ofText_space]) (by rwa [Sight.ofText_space])

/-- What the node of a type holds. -/
def typeInner : R :=
  all [.many unionMark, unionMember, .many (all [.many1 unionMark, unionMember]), opt condition]

/-- A text whose tokens the rule of types takes reads as a type. -/
theorem isType_of_signs (g : Sign) (gs : List Sign) (hstarts : ∀ k, StartsToken (t ++ k))
    (hsigns : ∀ k, EndsType k → Signs k (t ++ k) (g :: gs))
    (hforesee : typeInner.foresee (foreseeGoal grammar deep) false (g :: gs ++ [typeEnd]) =
      some [some [typeEnd]]) : IsType (deep + 1) t := by
  refine ⟨hstarts, fun source k hk fuel hfuel => ?_⟩
  obtain ⟨fuel, rfl⟩ := Nat.exists_eq_succ_of_ne_zero (Nat.ne_of_gt (Nat.zero_lt_of_lt hfuel))
  have hsigns := hsigns k hk
  have hall : Signs _ (' ' :: (t ++ k)) (g :: gs ++ [typeEnd]) := (hsigns.append hk.signs).space
  have hread := makes_of_foresee source hall (Nat.le_of_succ_le_succ hfuel) hforesee
  have hrest : afterTokens ((g :: gs ++ [typeEnd]).length - [typeEnd].length) (' ' :: (t ++ k)) =
      k := by
    rw [List.length_append, Nat.add_sub_cancel, List.length_cons, afterTokens, Sight.ofText_space]
    exact hsigns.afterTokens
  rw [hrest] at hread
  refine Makes.mono (.ofRule (hread.node _)) fun made hmade => hmade.mono fun n hn => ?_
  refine ⟨hn.1, hn.2.1 t ?_, hn.2.2.1⟩
  rw [Sight.ofText_space, Sight.ofText_token (hstarts k)]

/-! ### Names of types -/

/-- A name that may be the name of a type. -/
structure IsTypeName (x : List Char) : Prop where
  name : IsName x
  free : String.ofList x ∉ typeWords

/-- What is known of a name of a type. -/
def typeNameSign : Sign := nameSign typeWords

theorem IsTypeName.isType (h : IsTypeName x) : IsType (depth + 1) x := by
  refine isType_of_signs typeNameSign [] h.name.startsToken (fun k hk => ?_) (by decide +kernel)
  exact .seenAs (sight_name h.name (endsName_of_endsToken hk.token)) ⟨x, rfl, h.free⟩ .nil

theorem sight_brackets (cs : List Char) :
    Sight.ofText ('[' :: ']' :: cs) = ⟨.mark ['['], ']' :: cs, '[' :: ']' :: cs, false, true⟩ ∧
      Sight.ofText (']' :: cs) = ⟨.mark [']'], cs, ']' :: cs, false, true⟩ := by
  constructor <;> rw [Sight.ofText_token (startsToken_cons (by decide) (by decide) _)] <;> rfl

/-- The type of lists of a type. -/
theorem IsTypeName.isType_list (h : IsTypeName x) : IsType (depth + 1) (x ++ "[]".toList) := by
  refine isType_of_signs typeNameSign [markSign "[", markSign "]"] (fun k => ?_)
    (fun k hk => ?_) (by decide +kernel)
  · rw [List.append_assoc]
    exact h.name.startsToken _
  · have htext : x ++ "[]".toList ++ k = x ++ '[' :: ']' :: k := by simp
    obtain ⟨hopen, hclose⟩ := sight_brackets k
    rw [htext]
    exact .seenAs (sight_name h.name rfl) ⟨x, rfl, h.free⟩ (.seen hopen (.seen hclose .nil))

theorem sight_openAngle (h : IsName x) (cs : List Char) :
    Sight.ofText ('<' :: (x ++ cs)) = ⟨.mark ['<'], x ++ cs, '<' :: (x ++ cs), false, true⟩ := by
  rw [Sight.ofText_token (startsToken_cons (by decide) (by decide) _)]
  obtain ⟨c, rest, rfl, -⟩ := h.head
  have hequals : c ≠ '=' := h.head_ne rfl (by decide) (by decide)
  have hangle : c ≠ '<' := h.head_ne rfl (by decide) (by decide)
  have hname : name? ('<' :: (c :: rest ++ cs)) = none := rfl
  have hnumber : number? ('<' :: (c :: rest ++ cs)) = none := rfl
  have hlong : longMarks.find? (·.isPrefixOf ('<' :: (c :: rest ++ cs))) = none := by
    simp [longMarks, List.isPrefixOf, hequals.symm, hangle.symm]
  simp only [Token.ofText, hname, hnumber, hlong]
  rfl

theorem sight_closeAngle (hk : endsToken k = true) :
    Sight.ofText ('>' :: k) = ⟨.mark ['>'], k, '>' :: k, false, true⟩ := by
  have hlonger : Sight.ofText (['>'] ++ k) = _ :=
    Sight.ofText_append hk (by decide +kernel) (by decide +kernel) (by decide +kernel)
  exact hlonger

/-- The type of parts of a type. -/
theorem IsTypeName.isType_partial (h : IsTypeName x) :
    IsType (depth + 1) ("Partial<".toList ++ x ++ ['>']) := by
  have htext : ∀ k, "Partial<".toList ++ x ++ ['>'] ++ k =
      "Partial".toList ++ '<' :: (x ++ '>' :: k) := fun k => by simp
  refine isType_of_signs (wordSign "Partial") [markSign "<", typeNameSign, markSign ">"]
    (fun k => ?_) (fun k hk => ?_) (by decide +kernel)
  · rw [htext]
    exact startsToken_cons (by decide) (by decide) _
  · have hpartial : Sight.ofText ("Partial".toList ++ '<' :: (x ++ '>' :: k)) = _ :=
      sight_name (by decide) rfl
    rw [htext]
    exact .seen hpartial (.seen (sight_openAngle h.name _) (.seenAs (sight_name h.name rfl)
      ⟨x, rfl, h.free⟩ (.seen (sight_closeAngle hk.token) .nil)))

end ServiceScaffold.Syntax
