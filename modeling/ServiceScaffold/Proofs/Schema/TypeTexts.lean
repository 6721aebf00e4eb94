import ServiceScaffold.Proofs.Results
import ServiceScaffold.Proofs.Schema.DeclaredTypes
import ServiceScaffold.Proofs.Schema.Programs
import ServiceScaffold.Proofs.Syntax.TypeTexts
import ServiceScaffold.Proofs.Text.Blank

/-!
# Types that are extracted again

A schema keeps types as text with every run of blanks as one space.  Declared once more under a
name, such a text is the same type again, if it still has the tokens of the type that was declared:
the spaces that were line breaks may have ended a comment, or parted members of an object type.

* `Schema.isCollapsed` : the types of a schema have no other blanks than single spaces;
* `Schema.types_read_back` : **a type of a schema that has kept its tokens is extracted again as it
  is**;
* `Schema.type_lost` : a type after a comment is cut off, without a warning.
-/

namespace ServiceScaffold

open Syntax Text

/-! ### Collapsed types -/

/-- The blanks of the text are single spaces. -/
def IsCollapsed (t : String) : Prop := collapseBlanks t.toList = t.toList

theorem isCollapsed_collapsedText (source : List Char) (n : Node) :
    IsCollapsed (collapsedText source n) := by
  rw [IsCollapsed, collapsedText, String.toList_ofList, collapseBlanks_idem]

theorem isCollapsed_propertyType (source : List Char) (n : Node) :
    IsCollapsed (propertyType source n) := by
  unfold propertyType
  split
  · exact isCollapsed_collapsedText source _
  · rw [IsCollapsed]
    decide

/-- The types of a schema have no other blanks than single spaces. -/
theorem Schema.isCollapsed {source path : String} {x : Extraction}
    (h : ofSource source path = .ok x) :
    (∀ name a, (name, a) ∈ x.schema.types → IsCollapsed a.type) ∧
      ∀ name i, (name, i) ∈ x.schema.interfaces → ∀ p ∈ i.properties, IsCollapsed p.type := by
  obtain rfl := eq_ofTree_of_ofSource h
  obtain ⟨hinterfaces, htypes⟩ := isFrom source.toList path (parse source.toList)
  refine ⟨fun name a ha => ?_, fun name i hi p hp => ?_⟩
  · obtain ⟨c, -, hfrom⟩ := htypes _ ha
    obtain ⟨n, -, hn⟩ := hfrom.type
    rw [hn]
    exact isCollapsed_collapsedText source.toList n
  · obtain ⟨c, -, hfrom⟩ := hinterfaces _ hi
    obtain ⟨m, -, hproperty⟩ := hfrom.properties hp
    rw [hproperty.type]
    exact isCollapsed_propertyType source.toList m.node

/-! ### Types read back -/

/-- The text that declares an alias. -/
def aliasSource (x t : String) : String := "export type " ++ x ++ " = " ++ t ++ ";"

/-- The text that declares an interface with one property. -/
def propertySource (x w t : String) : String :=
  "export interface " ++ x ++ " \x7b " ++ w ++ ": " ++ t ++ " \x7d"

theorem program_aliasSource {x t : String} {deep : Nat} (hx : IsName x.toList)
    (ht : IsType deep t.toList) : Program (aliasSource x t).toList deep
      [.typeAlias x.toList t.toList] (aliasSource x t).toList := by
  have htext : (aliasSource x t).toList =
      "export".toList ++ aliasText x.toList (t.toList ++ [';']) := by
    unfold aliasSource
    simp [aliasText]
  have hdeclares := DeclarationText.Declares.typeAlias hx
    (ht.reads (aliasSource x t).toList (endsType_semicolon []))
  have hspans := hdeclares.spans (Nat.zero_le _)
  rw [← htext] at hspans
  exact .more hspans (.done rfl)

/-- What stands behind the type in a text with one property. -/
def bodyEnd : List Char := [' ', '\x7d']

/-- The body of a text with one property. -/
def propertyBody (w t : List Char) : List Char := ' ' :: (w ++ ':' :: ' ' :: (t ++ bodyEnd))

theorem sight_bodyEnd : Sight.ofText bodyEnd = ⟨.mark ['\x7d'], [], ['\x7d'], false, true⟩ := rfl

theorem endsType_bodyEnd : EndsType bodyEnd :=
  ⟨rfl, by rw [sight_bodyEnd]; exact ⟨by simp [typeEnd, Look.Fits], fun _ => ⟨rfl, rfl⟩⟩, by decide⟩

theorem members_propertyBody (source : List Char) {w t : List Char} {deep : Nat} (hw : IsName w)
    (habstract : String.ofList w ≠ "abstract") (ht : IsType deep t) :
    Members source deep [⟨w, false, t⟩] (propertyBody w t) bodyEnd := by
  have hname : Sight.ofText (propertyBody w t) = _ :=
    (Sight.ofText_space _).trans (sight_name hw rfl)
  have hword : BareName.word.look.Fits (Sight.ofText (propertyBody w t)).token :=
    ⟨w, congrArg Sight.token hname, by simpa using habstract⟩
  have hspans : PropertyText.Spans source deep ⟨w, false, t⟩ (propertyBody w t) bodyEnd := by
    refine ⟨hw.ne_nil, ⟨_, hword⟩, ?_, ?_, ' ' :: (t ++ bodyEnd), congrArg Sight.tail hname, ?_,
      ht.reads source endsType_bodyEnd⟩
    · rw [hname]
    · simp only [propertyBody, List.length_cons, List.length_append]
      omega
    · rw [startsClear_space]
      exact (ht.starts _).startsClear
  exact .some hspans (.done ⟨[], (Signs.seen sight_bodyEnd .nil).loose⟩)

theorem program_propertySource {x w t : String} {deep : Nat} (hx : IsName x.toList)
    (hw : IsName w.toList) (habstract : w ≠ "abstract") (ht : IsType deep t.toList) :
    Program (propertySource x w t).toList deep
      [.interface x.toList [⟨w.toList, false, t.toList⟩]] (propertySource x w t).toList := by
  have htext : (propertySource x w t).toList =
      "export".toList ++ interfaceText x.toList (propertyBody w.toList t.toList) := by
    unfold propertySource
    simp [interfaceText, propertyBody, bodyEnd]
  have hdeclares := DeclarationText.Declares.interface hx
    (members_propertyBody (propertySource x w t).toList hw (by simpa using habstract) ht)
  have hspans := hdeclares.spans (Nat.zero_le _)
  rw [← htext] at hspans
  exact .more hspans (.done rfl)

namespace Schema

/-- An alias is extracted again as it is. -/
theorem ofSource_aliasSource {x t : String} (hx : IsName x.toList)
    (ht : IsType (40 * (t.toList.length + 2)) t.toList) (hcollapsed : IsCollapsed t) (path : String) :
    ∃ y d, ofSource (aliasSource x t) path = .ok y ∧ y.warnings = [] ∧
      y.schema.types = [(x, ⟨x, t, d⟩)] ∧ y.schema.interfaces = [] := by
  have hlength : t.toList.length ≤ (aliasSource x t).toList.length := by
    unfold aliasSource
    simp only [String.toList_append, List.length_append]
    omega
  obtain ⟨xs, htells, hsource⟩ :=
    ofSource_program (by omega) (program_aliasSource hx ht) path
  cases htells with
  | @cons _ d _ rest first others =>
    cases others
    cases first with
    | typeAlias a roles name type =>
      obtain ⟨aname, atype, adescription⟩ := a
      obtain rfl : aname = x := name.trans String.ofList_toList
      obtain rfl : atype = t := type.trans (by rw [hcollapsed, String.ofList_toList])
      exact ⟨_, adescription, hsource, rfl, rfl, rfl⟩

/-- A property is extracted again as it is. -/
theorem ofSource_propertySource {x w t : String} (hx : IsName x.toList) (hw : IsName w.toList)
    (habstract : w ≠ "abstract") (ht : IsType (40 * (t.toList.length + 2)) t.toList)
    (hcollapsed : IsCollapsed t) (path : String) :
    ∃ y d d', ofSource (propertySource x w t) path = .ok y ∧ y.warnings = [] ∧
      y.schema.interfaces = [(x, ⟨x, d, [], [⟨w, t, false, d'⟩]⟩)] ∧ y.schema.types = [] := by
  have hlength : t.toList.length ≤ (propertySource x w t).toList.length := by
    unfold propertySource
    simp only [String.toList_append, List.length_append]
    omega
  obtain ⟨xs, htells, hsource⟩ :=
    ofSource_program (by omega) (program_propertySource hx hw habstract ht) path
  cases htells with
  | @cons _ d _ rest first others =>
    cases others
    cases first with
    | interface i roles name parents properties =>
      obtain ⟨iname, idescription, iparents, iproperties⟩ := i
      obtain rfl : iname = x := name.trans String.ofList_toList
      obtain rfl : iparents = [] := parents
      obtain _ | ⟨hproperty, hnone⟩ := properties
      cases hnone
      rename_i p
      obtain ⟨pname, ptype, poptional, pdescription⟩ := p
      obtain rfl : pname = w := hproperty.name.trans String.ofList_toList
      obtain rfl : ptype = t := hproperty.type.trans (by rw [hcollapsed, String.ofList_toList])
      obtain rfl : poptional = false := hproperty.isOptional
      exact ⟨_, idescription, pdescription, hsource, rfl, rfl, rfl⟩

/-- The type of a property without one reads as a type. -/
theorem isType_any : IsType (40 * ("any".toList.length + 2)) "any".toList := by
  have hany : IsType (depth + 1) "any".toList := isType_of_signs (wordSign "any") []
    (fun k => startsToken_cons (by decide) (by decide) _)
    (fun k hk => .seen (sight_name (by decide) (endsName_of_endsToken hk.token)) .nil)
    (by decide +kernel)
  exact hany.mono (by decide)

/-- **A type of a schema that has kept its tokens is extracted again as it is**: as an alias under
its name, and as the type of a property.  Neither brings a warning.  Every type of a schema is the
text of a type that the source declares, but for properties without a type. -/
theorem types_read_back {source path : String} {x : Extraction} (h : ofSource source path = .ok x)
    (path' : String) :
    (∀ name a, (name, a) ∈ x.schema.types →
      IsTypeText source.toList (parse source.toList).exportedTypes a.type ∧
      (IsDeclaredIn source.toList a.type →
        ∃ y d, ofSource (aliasSource name a.type) path' = .ok y ∧ y.warnings = [] ∧
          y.schema.types = [(name, ⟨name, a.type, d⟩)] ∧ y.schema.interfaces = [])) ∧
    ∀ name i, (name, i) ∈ x.schema.interfaces → ∀ p ∈ i.properties,
      (p.type = "any" ∨ IsTypeText source.toList (parse source.toList).exportedTypes p.type) ∧
      (p.type = "any" ∨ IsDeclaredIn source.toList p.type → ∀ other w, IsName other.toList →
        IsName w.toList → w ≠ "abstract" →
        ∃ y d d', ofSource (propertySource other w p.type) path' = .ok y ∧ y.warnings = [] ∧
          y.schema.interfaces = [(other, ⟨other, d, [], [⟨w, p.type, false, d'⟩]⟩)] ∧
          y.schema.types = []) := by
  obtain ⟨haliases, hproperties⟩ := isCollapsed h
  have hnames : ∀ name a, (name, a) ∈ x.schema.types → IsName name.toList :=
    fun name a ha => isName_of_declared h (.inr (List.mem_map.2 ⟨_, ha, rfl⟩))
  obtain rfl := eq_ofTree_of_ofSource h
  obtain ⟨htyped, htypes⟩ := hasTypes source.toList path (parse source.toList)
  refine ⟨fun name a ha => ⟨htypes _ ha, fun hkept => ?_⟩, fun name i hi p hp =>
    ⟨htyped _ hi p hp, fun hkept other w hother hw habstract => ?_⟩⟩
  · exact ofSource_aliasSource (hnames name a ha) hkept.isType (haliases name a ha) path'
  · have htype : IsType (40 * (p.type.toList.length + 2)) p.type.toList := by
      obtain hany | hkept := hkept
      · rw [hany]
        exact isType_any
      · exact hkept.isType
    exact ofSource_propertySource hother hw habstract htype (hproperties name i hi p hp) path'

/-- An alias and an interface whose types go over several lines. -/
def spacedSource : String :=
  "export type T =\n  | A\n  | `a $\x7bB\x7d`;\nexport interface N \x7b\n  a?: \x7b\n    [k.l]: S<\n" ++
  "      T>;\n    2: B\n  \x7d\n\x7d"

theorem types_read_back_spaced : ∃ x, ofSource spacedSource "note.ts" = .ok x ∧
    x.schema.types = [("T", ⟨"T", "| A | `a $\x7bB\x7d`", none⟩)] ∧
    (∃ y d, ofSource (aliasSource "T" "| A | `a $\x7bB\x7d`") "types.ts" = .ok y ∧ y.warnings = [] ∧
      y.schema.types = [("T", ⟨"T", "| A | `a $\x7bB\x7d`", d⟩)] ∧ y.schema.interfaces = []) ∧
    ∃ y d d', ofSource (propertySource "I" "p0" "\x7b [k.l]: S< T>; 2: B \x7d") "types.ts" = .ok y ∧
      y.warnings = [] ∧ y.schema.interfaces =
        [("I", ⟨"I", d, [], [⟨"p0", "\x7b [k.l]: S< T>; 2: B \x7d", false, d'⟩]⟩)] ∧
      y.schema.types = [] := by
  have hkernel : (ofSource spacedSource "note.ts").toOption.any (fun x =>
      x.schema.types == [("T", ⟨"T", "| A | `a $\x7bB\x7d`", none⟩)] &&
      x.schema.interfaces ==
        [("N", ⟨"N", none, [], [⟨"a", "\x7b [k.l]: S< T>; 2: B \x7d", true, none⟩]⟩)] &&
      decide (IsDeclaredIn spacedSource.toList "| A | `a $\x7bB\x7d`") &&
      decide (IsDeclaredIn spacedSource.toList "\x7b [k.l]: S< T>; 2: B \x7d")) = true := by
    have hletters : spacedSource.toList = _ :=
      String.toList_append.trans (congrArg₂ _ String.toList_ofList String.toList_ofList)
    rw [ofSource, hletters]
    decide +kernel
  obtain ⟨x, hx, hpassed⟩ := exists_ok_of_any hkernel
  simp only [Bool.and_eq_true, beq_iff_eq, decide_eq_true_eq] at hpassed
  obtain ⟨⟨⟨htypes, hinterfaces⟩, hkept⟩, hkept'⟩ := hpassed
  obtain ⟨haliases, hproperties⟩ := types_read_back hx "types.ts"
  refine ⟨x, hx, htypes, ?_, ?_⟩
  · exact (haliases "T" ⟨"T", "| A | `a $\x7bB\x7d`", none⟩
      (by rw [htypes]; exact List.mem_cons_self)).2 hkept
  · exact (hproperties "N" ⟨"N", none, [], [⟨"a", "\x7b [k.l]: S< T>; 2: B \x7d", true, none⟩]⟩
      (by rw [hinterfaces]; exact List.mem_cons_self) _ List.mem_cons_self).2
      (.inr hkept') "I" "p0" (by decide +kernel) (by decide +kernel) (by decide)

/-- The end of a line that ends a comment is lost with the other blanks: what stood behind it is
taken for the comment, and the alias loses it without a warning. -/
theorem type_lost :
    ((ofSource "export type X =\n  | A // first\n  | B;" "note.ts").toOption.map fun x =>
      (x.schema.types, x.warnings.length)) = some ([("X", ⟨"X", "| A // first | B", none⟩)], 0) ∧
    ((ofSource (aliasSource "X" "| A // first | B") "note.ts").toOption.map fun x =>
      (x.schema.types, x.warnings.length)) = some ([("X", ⟨"X", "| A", none⟩)], 0) := by
  constructor <;> decide +kernel

end Schema

end ServiceScaffold
