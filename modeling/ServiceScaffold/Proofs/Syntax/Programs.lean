import ServiceScaffold.Proofs.Syntax.ExportedTypes

/-!
# Programs of exported types

The tree of a text that exports interfaces and aliases, one after the other, with comments and
blanks between them.

* `DeclarationText` : an interface or an alias as it stands in a text;
* `Program` : the text consists of exports of given declarations;
* `parse_program` : **the tree of such a text has these exports, and comments, below its root**.
-/

namespace ServiceScaffold.Syntax

open Grammar Rule

/-- A declaration as it stands in a text. -/
inductive DeclarationText where
  | typeAlias (name type : List Char)
  | interface (name : List Char) (properties : List PropertyText)
  deriving DecidableEq

/-- The node is the declaration. -/
def DeclarationText.IsNode (source : List Char) : DeclarationText → Node → Prop
  | typeAlias x t => Node.IsAlias source x t
  | interface x ps => Node.IsInterface source x ps

variable {source cs mid rest k : List Char} {deep fuel : Nat}

/-- The text `cs` up to `rest`, from behind the word for an export on, declares a type. -/
inductive DeclarationText.Declares (source : List Char) (deep : Nat) :
    DeclarationText → List Char → List Char → Prop where
  | typeAlias {x t k rest : List Char} (name : IsName x)
      (type : ReadsType source deep t (' ' :: k) (';' :: rest)) :
      Declares source deep (.typeAlias x t) (aliasText x k) rest
  | interface {x : List Char} {ps : List PropertyText} {k rest : List Char} (name : IsName x)
      (members : Members source deep ps k rest) :
      Declares source deep (.interface x ps) (interfaceText x k) (Sight.ofText rest).tail

/-- The text `cs` up to `rest` exports a declaration. -/
structure DeclarationText.Spans (source : List Char) (deep : Nat) (d : DeclarationText)
    (cs rest : List Char) : Prop where
  word : (Sight.ofText cs).token = .word "export".toList
  declares : d.Declares source deep (Sight.ofText cs).tail rest
  short : rest.length < cs.length

theorem DeclarationText.Declares.endsName {d : DeclarationText}
    (h : d.Declares source deep cs rest) : endsName cs = true := by
  cases h <;> rfl

/-- The word for an export and a declaration behind it. -/
theorem DeclarationText.Declares.spans {d : DeclarationText} (h : d.Declares source deep cs rest)
    (hshort : rest.length ≤ cs.length) : d.Spans source deep ("export".toList ++ cs) rest := by
  have hsight := sight_name (w := "export".toList) (by decide) h.endsName
  refine ⟨congrArg Sight.token hsight, by rwa [hsight], ?_⟩
  rw [List.length_append]
  have hword : "export".toList.length = 6 := rfl
  omega

theorem makes_declaration {d : DeclarationText} (hfuel : depth + 2 < fuel) (hdeep : deep + 2 < fuel)
    (h : d.Declares source deep cs rest) :
    Makes source (declaration.read (readGoal grammar fuel)) cs rest (Lone cs (d.IsNode source)) := by
  cases h with
  | typeAlias name type =>
    refine makes_any [interfaceDeclaration] _ (fun r hr => ?_)
      (makes_alias (by omega) (by omega) name type)
    obtain rfl := List.mem_singleton.1 hr
    exact fails_of_foresee _ _ (signs_aliasText name _) (show depth ≤ fuel by omega) (by decide +kernel)
  | interface name members =>
    exact Makes.choice_first (makes_interface hfuel hdeep name members)

theorem DeclarationText.Declares.signs {d : DeclarationText} (h : d.Declares source deep cs rest) :
    ∃ k signs, Signs k cs signs ∧ (signs = aliasSigns ∨ signs = interfaceSigns) := by
  cases h with
  | typeAlias name type => exact ⟨_, _, signs_aliasText name _, .inl rfl⟩
  | interface name members => exact ⟨_, _, signs_interfaceText name _, .inr rfl⟩

/-- An exported declaration is read as a statement. -/
theorem makes_exported {d : DeclarationText} (hfuel : depth + 5 < fuel) (hdeep : deep + 5 < fuel)
    (h : d.Spans source deep cs rest) :
    Makes source (readGoal grammar fuel .statement) cs rest
      (Lone cs (Node.Exports (d.IsNode source))) := by
  obtain ⟨k, signs, htail, hsigns⟩ := h.declares.signs
  exact makes_export (by omega) hsigns h.word htail fun fuel' hfuel' =>
    makes_declaration (by omega) (by omega) h.declares

/-! ### Programs -/

/-- The text consists of exports of declarations, and comments and blanks around them. -/
inductive Program (source : List Char) (deep : Nat) : List DeclarationText → List Char → Prop where
  | done {cs : List Char} (finish : (Sight.ofText cs).token = .finish) : Program source deep [] cs
  | more {d : DeclarationText} {ds : List DeclarationText} {cs rest : List Char}
      (first : d.Spans source deep cs rest) (others : Program source deep ds rest) :
      Program source deep (d :: ds) cs

/-- The nodes are comments and exports of the declarations, in order. -/
inductive HoldExports (source : List Char) : List DeclarationText → List Node → Prop where
  | nil : HoldExports source [] []
  | comment {n : Node} {ds : List DeclarationText} {nodes : List Node} (first : n.IsComment)
      (others : HoldExports source ds nodes) : HoldExports source ds (n :: nodes)
  | exported {d : DeclarationText} {n : Node} {ds : List DeclarationText} {nodes : List Node}
      (first : n.Exports (d.IsNode source)) (others : HoldExports source ds nodes) :
      HoldExports source (d :: ds) (n :: nodes)

theorem HoldExports.append {ds ds' : List DeclarationText} {front back : List Node}
    (h : HoldExports source ds front) (h' : HoldExports source ds' back) :
    HoldExports source (ds ++ ds') (front ++ back) := by
  induction h with
  | nil => exact h'
  | comment first _ ih => exact .comment first ih
  | exported first _ ih => exact .exported first ih

theorem AllComments.holdExports {nodes : List Node} (h : AllComments nodes) :
    HoldExports source [] nodes := by
  induction nodes with
  | nil => exact .nil
  | cons n nodes ih =>
    exact .comment (h n List.mem_cons_self) (ih fun m hm => h m (List.mem_cons_of_mem _ hm))

/-- The items of a program are read to its end. -/
theorem makesMany_program {ds : List DeclarationText} (hfuel : depth + 5 < fuel)
    (hdeep : deep + 5 < fuel) (h : Program source deep ds cs) : ∃ rest,
    MakesMany source (rootItem.read (readGoal grammar fuel)) cs rest (HoldExports source ds) := by
  induction h with
  | @done cs finish =>
    have hsigns : Signs _ cs [⟨.among [.finish], false⟩] :=
      .cons ⟨List.mem_singleton.2 finish, by simp⟩ .nil
    have hstop := fails_of_foresee source rootItem hsigns
      (show depth ≤ fuel by omega) (by decide +kernel)
    exact ⟨cs, (makesMany_nil hstop).mono fun made hmade => hmade ▸ .nil⟩
  | more first _ ih =>
    obtain ⟨rest, hothers⟩ := ih
    have hitem : Makes source (rootItem.read (readGoal grammar fuel)) _ _ _ :=
      Makes.choice_first ((makes_exported hfuel hdeep first).goal (readGoal grammar fuel))
    refine ⟨rest, (makesMany_cons hitem first.short hothers).mono fun made hmade => ?_⟩
    obtain ⟨_, back, rfl, ⟨comments, n, rfl, hcomments, -, hn⟩, hback⟩ := hmade
    exact (hcomments.holdExports.append (.exported hn .nil)).append hback

/-- A program names no interpreter. -/
theorem Program.interpreterLine? {ds : List DeclarationText} (h : Program source deep ds cs) :
    interpreterLine? cs = none := by
  unfold Syntax.interpreterLine?
  split
  · rename_i rest
    have hsight := Sight.ofText_token (startsToken_cons (c := '#') (by decide) (by decide)
      ('!' :: rest))
    have htoken : (Sight.ofText ('#' :: '!' :: rest)).token = .stray := by
      rw [hsight]
      rfl
    cases h with
    | done finish => cases htoken.symm.trans finish
    | more first _ => cases htoken.symm.trans first.word
  · rfl

/-- **The tree of a program** has its exports and comments below the root, and nothing else. -/
theorem parse_program {ds : List DeclarationText} (hdeep : deep + 5 < 40 * (source.length + 10))
    (h : Program source deep ds source) :
    ∃ stop nodes, parse source = .mk .program none {} stop false nodes ∧
      HoldExports source ds nodes := by
  obtain ⟨rest, hmany⟩ : ∃ rest, MakesMany source _ _ rest _ := makesMany_program
    (by rw [depth]; omega) hdeep h
  have hstart : startOf source = Scan.ofText {} source := by
    rw [startOf, h.interpreterLine?]
  have hsees : (Scan.ofText {} source).Sees source source [] :=
    .moveTo (s := Scan.ofText {} source) (placed_start source) .nil
  obtain ⟨t, ht, hsees', -, made, hmade, hholds⟩ :=
    hmany (source.length + 1) (Nat.lt_succ_self _) _ hsees rfl
  rw [← hstart] at ht
  refine ⟨t.pushComments.stop, t.pushComments.children.reverse, ?_, ?_⟩
  · rw [parse, Except.ok.inj ht]
  · have hchildren : t.pushComments.children.reverse =
        made ++ (t.next.gap.far ++ t.next.gap.near).reverse := by
      simp [Scan.pushComments, hmade, Scan.ofText]
    rw [hchildren]
    simpa using hholds.append hsees'.allComments.holdExports

end ServiceScaffold.Syntax
