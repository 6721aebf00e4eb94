import Mathlib.Logic.Basic
import ServiceScaffold.Proofs.Keyed
import ServiceScaffold.Proofs.Syntax.DeclaredNames
import ServiceScaffold.Proofs.Syntax.Walk
import ServiceScaffold.Schema.Extraction

/-!
# Nothing is left out without a warning

An extraction takes up what it can read and warns about the rest.  Here is what the visit of one
node comes to, and from it what the warnings of a whole tree are.

* `Cursor.isLeftOut` : when the declaration of an export statement cannot be taken up;
* `Exported` : what reading the declaration of an export statement comes to;
* `Findings.Skips`, `Findings.TakesUpInterface`, `Findings.TakesUpAlias` : what a visit does that
  leaves a declaration out, and one that takes a type up;
* `Findings.visit_declared` : **a declaration is left out, or taken up if it is one of a type**;
* `Findings.exists_warnings_visit` : **a visit brings a warning for each thing that it leaves out**;
* `Schema.ofTree_accounts` : each exported type of a tree is left out with one warning or found in
  the schema, and there are as many warnings as things that are left out.
-/

namespace ServiceScaffold

open Syntax

/-! ### Places -/

/-- The failure tells where the node starts. -/
structure Failure.IsAt (path : String) (n : Node) (f : Failure) : Prop where
  path : f.detail? "path" = some (.str path)
  line : f.detail? "line" = some (.int (n.start.row + 1))
  column : f.detail? "column" = some (.int (n.start.column + 1))

theorem Failure.isAt_located (path : String) (n : Node) (f : Failure) :
    (f.located path n).IsAt path n := by
  constructor <;>
    simp [detail?, details, located, withText, withDetail, Keyed.lookup_insertSorted]

/-! ### What a declaration can come to -/

namespace Syntax.Cursor

/-- The parent of the node is the program. -/
def standsOnTop (c : Cursor) : Bool := (c.parent?.map fun p => p.node.kind == .program).getD false

/-- The declaration of an export statement, if it belongs to a schema. -/
def declared? (c : Cursor) : Option Cursor :=
  if c.node.kind = .exportStatement then
    (c.child? .declaration).filter fun d => isSupported c.standsOnTop d.node.kind
  else none

/-- The declaration `d` of an export statement cannot be taken up: the statement holds an error, or
it declares a type without a name or an alias without a value. -/
def isLeftOut (source : List Char) (c d : Cursor) : Bool :=
  c.node.hasError ||
    d.node.kind.declaresType && ((nameText? source d.node).getD "").isEmpty ||
    d.node.kind == .typeAliasDeclaration && (d.node.child? .value).isNone

/-- The members of an interface that are properties. -/
def propertyMembers (d : Cursor) : List Cursor :=
  (((d.child? .body).map (·.namedChildren)).getD []).filter (·.node.kind == .propertySignature)

/-- An export statement without a declaration that holds an error. -/
def isMalformedExport (c : Cursor) : Bool :=
  c.node.kind == .exportStatement && (c.child? .declaration).isNone && c.node.hasError

end Syntax.Cursor

/-- What a member of an interface comes to: a property, or a warning. -/
def memberResult (source : List Char) (path name : String) (m : Cursor) : Property ⊕ Failure :=
  match propertyOf source m with
  | .ok p => .inl p
  | .error f => .inr ((f.withText "declaration" name).located path m.node)

variable {source : List Char} {path name : String} {c d m : Cursor} {f : Failure} {s : Findings}

theorem code_propertyName {n : Node} (h : propertyName source n = .error f) :
    f.code = .declaration := by
  unfold propertyName at h
  simp only at h
  split at h
  · obtain rfl := Except.error.inj h
    rfl
  · obtain rfl := Except.error.inj h
    rfl
  · cases h

/-- The warning about a member tells where the member starts. -/
theorem isAt_memberResult (h : memberResult source path name m = .inr f) :
    f.code = .declaration ∧ f.IsAt path m.node := by
  unfold memberResult at h
  rcases hproperty : propertyOf source m with g | p <;> rw [hproperty] at h
  · obtain rfl := Sum.inr.inj h
    refine ⟨?_, Failure.isAt_located path m.node _⟩
    change g.code = .declaration
    unfold propertyOf at hproperty
    rcases hchild : m.node.child? .name with _ | n <;> rw [hchild] at hproperty
    · obtain rfl := Except.error.inj hproperty
      rfl
    · simp only at hproperty
      rcases hname : propertyName source n with g' | p <;> rw [hname] at hproperty
      · obtain rfl := Except.error.inj hproperty
        exact code_propertyName hname
      · cases hproperty
  · cases h

theorem propertiesOf_eq (source : List Char) (path name : String) (members : List Cursor) :
    propertiesOf source path name members =
      ((members.filter (·.node.kind == .propertySignature)).map
          (memberResult source path name) |>.filterMap Sum.getLeft?,
        (members.filter (·.node.kind == .propertySignature)).map
          (memberResult source path name) |>.filterMap Sum.getRight?) := by
  have hleft (m : Cursor) : (propertyOf source m).toOption =
      (memberResult source path name m).getLeft? := by
    rw [memberResult]
    rcases propertyOf source m with _ | _ <;> rfl
  have hright (m : Cursor) : (match propertyOf source m with
      | .ok _ => none
      | .error f => some ((f.withText "declaration" name).located path m.node)) =
        (memberResult source path name m).getRight? := by
    rw [memberResult]
    rcases propertyOf source m with _ | _ <;> rfl
  rw [propertiesOf]
  simp only [List.filterMap_map, Function.comp_def, hleft]
  exact Prod.ext rfl (List.filterMap_congr fun m _ => hright m)

/-! ### Export statements -/

/-- What the declaration of an export statement comes to. -/
inductive Exported (source : List Char) (path : String) (c d : Cursor) :
    Except Failure Declaration → Prop
  | leftOut (f : Failure) : c.isLeftOut source d = true → f.code = .declaration →
      f.IsAt path d.node → Exported source path c d (.error f)
  | interface (i : Interface) (roles : List Role) : c.isLeftOut source d = false →
      d.node.kind = .interfaceDeclaration → nameText? source d.node = some i.name →
      i.properties = (d.propertyMembers.map (memberResult source path i.name)).filterMap
        Sum.getLeft? →
      Exported source path c d (.ok (.interface i roles
        ((d.propertyMembers.map (memberResult source path i.name)).filterMap Sum.getRight?)))
  | typeAlias (a : TypeAlias) (roles : List Role) : c.isLeftOut source d = false →
      d.node.kind = .typeAliasDeclaration → nameText? source d.node = some a.name →
      Exported source path c d (.ok (.typeAlias a roles))
  | constants (values : List (String × ConstantValue)) : c.isLeftOut source d = false →
      d.node.kind.declaresType = false → Exported source path c d (.ok (.constants values))

theorem declaredName_cases (source : List Char) (what : String) (n : Node) :
    (((nameText? source n).getD "").isEmpty = true ∧
      ∃ f, declaredName source what n = .error f ∧ f.code = .declaration) ∨
    (((nameText? source n).getD "").isEmpty = false ∧
      ∃ name, nameText? source n = some name ∧ declaredName source what n = .ok name) := by
  unfold declaredName
  rcases nameText? source n with _ | name
  · exact .inl ⟨rfl, _, rfl, rfl⟩
  · rcases hempty : name.isEmpty
    · exact .inr ⟨hempty, name, rfl, by simp only [hempty]; rfl⟩
    · exact .inl ⟨hempty, _, by simp only [hempty]; rfl, rfl⟩

theorem interfaceOf_ok (path : String) (h : declaredName source "interface" d.node = .ok name) :
    ∃ (i : Interface) (roles : List Role), i.name = name ∧
      i.properties = (d.propertyMembers.map (memberResult source path name)).filterMap
        Sum.getLeft? ∧
      interfaceOf source path d = .ok (.interface i roles
        ((d.propertyMembers.map (memberResult source path name)).filterMap Sum.getRight?)) := by
  unfold interfaceOf
  rw [h]
  simp only [propertiesOf_eq]
  exact ⟨_, _, rfl, rfl, rfl⟩

theorem exported_interfaceOf (herror : c.node.hasError = false)
    (hkind : d.node.kind = .interfaceDeclaration) :
    Exported source path c d ((interfaceOf source path d).mapError (·.located path d.node)) := by
  obtain ⟨hempty, f, hf, hcode⟩ | ⟨hempty, name, hname, hok⟩ :=
    declaredName_cases source "interface" d.node
  · have hresult : interfaceOf source path d = .error f := by
      unfold interfaceOf
      rw [hf]
      rfl
    rw [hresult]
    refine .leftOut _ ?_ hcode (f.isAt_located path d.node)
    simp [Cursor.isLeftOut, herror, hkind, hempty, NodeKind.declaresType]
  · obtain ⟨i, roles, rfl, hproperties, hresult⟩ := interfaceOf_ok path hok
    rw [hresult]
    refine .interface i roles ?_ hkind hname hproperties
    simp [Cursor.isLeftOut, herror, hkind, hempty]

theorem exported_typeAliasOf (path : String) (herror : c.node.hasError = false)
    (hkind : d.node.kind = .typeAliasDeclaration) :
    Exported source path c d ((typeAliasOf source d).mapError (·.located path d.node)) := by
  obtain ⟨hempty, f, hf, hcode⟩ | ⟨hempty, name, hname, hok⟩ :=
    declaredName_cases source "type alias" d.node
  · have hresult : typeAliasOf source d = .error f := by
      unfold typeAliasOf
      rw [hf]
      rfl
    rw [hresult]
    refine .leftOut _ ?_ hcode (f.isAt_located path d.node)
    simp [Cursor.isLeftOut, herror, hkind, hempty, NodeKind.declaresType]
  · unfold typeAliasOf
    rw [hok]
    rcases hvalue : d.node.child? .value with _ | value
    · refine .leftOut _ ?_ rfl (Failure.isAt_located path d.node _)
      simp [Cursor.isLeftOut, herror, hkind, hempty, hvalue]
    · refine .typeAlias ⟨name, _, _⟩ _ ?_ hkind hname
      simp [Cursor.isLeftOut, herror, hkind, hempty, hvalue]

/-- An export statement with a declaration that belongs to a schema: an error goes before what is
declared. -/
theorem exportOf_declared (source : List Char) (path : String) (h : c.declared? = some d) :
    exportOf source path c = some (if c.node.hasError then
      .error ((brokenDeclaration source d.node).located path d.node)
      else (declarationOf source path d).mapError (·.located path d.node)) := by
  unfold Cursor.declared? at h
  split_ifs at h with hkind
  obtain ⟨hchild, hsupported⟩ := Option.filter_eq_some_iff.1 h
  unfold exportOf
  rw [hchild]
  simp only [Cursor.standsOnTop] at hsupported
  simp only [hsupported, Bool.not_true, Bool.false_eq_true, if_false]
  split_ifs <;> rfl

/-- An export statement without such a declaration: it is an error itself, or nothing. -/
theorem exportOf_undeclared (source : List Char) (path : String)
    (hkind : c.node.kind = .exportStatement) (h : c.declared? = none) :
    exportOf source path c = if c.isMalformedExport then
      some (.error ((Failure.new .declaration "malformed export statement skipped").located path
        c.node))
      else none := by
  unfold exportOf
  rcases hchild : c.child? .declaration with _ | d
  · simp [Cursor.isMalformedExport, hkind, hchild]
  -- the declaration does not belong to a schema
  · have hsupported : isSupported c.standsOnTop d.node.kind = false := by
      rw [Cursor.declared?, if_pos hkind, hchild] at h
      simpa using h
    simp only [Cursor.standsOnTop] at hsupported
    simp [Cursor.isMalformedExport, hchild, hsupported]

/-- A declaration that belongs to a schema is always read, with one of these results. -/
theorem exported_exportOf (source : List Char) (path : String) (h : c.declared? = some d) :
    ∃ x, exportOf source path c = some x ∧ Exported source path c d x := by
  refine ⟨_, exportOf_declared source path h, ?_⟩
  by_cases herror : c.node.hasError = true
  · rw [if_pos herror]
    exact .leftOut _ (by simp [Cursor.isLeftOut, herror]) rfl (Failure.isAt_located path d.node _)
  rw [if_neg herror]
  rw [Bool.not_eq_true] at herror
  unfold declarationOf
  split
  · rename_i hinterface
    exact exported_interfaceOf herror hinterface
  · rename_i halias
    exact exported_typeAliasOf path herror halias
  · rename_i hinterface halias
    have hother : d.node.kind.declaresType = false := by
      unfold NodeKind.declaresType
      split <;> simp_all
    have hkind : d.node.kind ≠ .typeAliasDeclaration := halias
    refine .constants _ ?_ hother
    simp [Cursor.isLeftOut, herror, hother, hkind]

/-! ### Visits -/

namespace Findings

/-- The visit of an export statement leaves its declaration out: there is one warning, which tells
where the declaration starts, and nothing else changes. -/
structure Skips (source : List Char) (path : String) (c d : Cursor) (f : Failure) : Prop where
  code : f.code = .declaration
  place : f.IsAt path d.node
  only (s : Findings) : s.visit source path c = { s with warnings := f :: s.warnings }

/-- The visit of an export statement takes an interface up.  Each of its property members is a
property of the interface or brings a warning, both in the order of the text. -/
structure TakesUpInterface (source : List Char) (path : String) (c d : Cursor) (i : Interface) :
    Prop where
  name : nameText? source d.node = some i.name
  properties : i.properties =
    (d.propertyMembers.map (memberResult source path i.name)).filterMap Sum.getLeft?
  rejected : ∀ m ∈ d.propertyMembers, ∀ f, memberResult source path i.name m = .inr f →
    f.code = .declaration ∧ f.IsAt path m.node
  put (s : Findings) : (s.visit source path c).interfaces = Keyed.put i.name i s.interfaces
  warnings (s : Findings) : (s.visit source path c).warnings =
    ((d.propertyMembers.map (memberResult source path i.name)).filterMap Sum.getRight?).reverse ++
      s.warnings

/-- The visit of an export statement takes a type alias up. -/
structure TakesUpAlias (source : List Char) (path : String) (c d : Cursor) (a : TypeAlias) :
    Prop where
  name : nameText? source d.node = some a.name
  put (s : Findings) : (s.visit source path c).types = Keyed.put a.name a s.types
  warnings (s : Findings) : (s.visit source path c).warnings = s.warnings

theorem foldl_warn (s : Findings) (warnings : List Failure) :
    warnings.foldl warn s = { s with warnings := warnings.reverse ++ s.warnings } := by
  induction warnings generalizing s with
  | nil => rfl
  | cons f warnings ih => simp [ih, warn]

/-- Constants change the constants and the version, and nothing else. -/
theorem foldl_addConstant (s : Findings) (values : List (String × ConstantValue)) :
    ∃ version constants, values.foldl (fun s (name, value) => s.addConstant name value) s =
      { s with version := version, constants := constants } := by
  induction values generalizing s with
  | nil => exact ⟨s.version, s.constants, rfl⟩
  | cons v values ih => exact ih (s.addConstant v.1 v.2)

/-- Takes up what could be read, and warns about what could not. -/
def take (s : Findings) : Except Failure Declaration → Findings
  | .ok d => s.add d
  | .error f => s.warn f

theorem visit_exportStatement (hkind : c.node.kind = .exportStatement)
    {x : Except Failure Declaration} (hx : exportOf source path c = some x) (s : Findings) :
    s.visit source path c = s.take x := by
  unfold visit
  rw [if_pos hkind, hx]
  cases x <;> rfl

/-- **A declaration that belongs to a schema** is left out, or taken up if it is one of a type. -/
theorem visit_declared (source : List Char) (path : String) (h : c.declared? = some d) :
    (c.isLeftOut source d = true ∧ ∃ f, Skips source path c d f) ∨
    (c.isLeftOut source d = false ∧ d.node.kind = .interfaceDeclaration ∧
      ∃ i, TakesUpInterface source path c d i) ∨
    (c.isLeftOut source d = false ∧ d.node.kind = .typeAliasDeclaration ∧
      ∃ a, TakesUpAlias source path c d a) ∨
    (c.isLeftOut source d = false ∧ d.node.kind.declaresType = false ∧
      ∀ s : Findings, (s.visit source path c).warnings = s.warnings ∧
        (s.visit source path c).interfaces = s.interfaces ∧
        (s.visit source path c).types = s.types) := by
  have hkind : c.node.kind = .exportStatement := by
    unfold Cursor.declared? at h
    split_ifs at h with hkind
    exact hkind
  obtain ⟨x, hx, hexported⟩ := exported_exportOf source path h
  have hvisit := visit_exportStatement hkind hx
  cases hexported with
  | leftOut f hout hcode hplace => exact .inl ⟨hout, f, hcode, hplace, hvisit⟩
  | interface i roles hin hinterface hname hproperties =>
    refine .inr (.inl ⟨hin, hinterface, i, hname, hproperties, fun _ _ _ => isAt_memberResult,
      fun s => ?_, fun s => ?_⟩)
    · rw [hvisit, take, add, foldl_warn]
    · rw [hvisit, take, add, foldl_warn]
  | typeAlias a roles hin halias hname =>
    refine .inr (.inr (.inl ⟨hin, halias, a, hname, fun s => ?_, fun s => ?_⟩))
    · rw [hvisit, take, add]
    · rw [hvisit, take, add]
  | constants values hin hother =>
    refine .inr (.inr (.inr ⟨hin, hother, fun s => ?_⟩))
    obtain ⟨version, constants, hadded⟩ := foldl_addConstant s values
    rw [hvisit, take, add, hadded]
    exact ⟨rfl, rfl, rfl⟩

/-! ### Warnings -/

end Findings

namespace Syntax.Cursor

/-- The declaration of an export statement is left out. -/
def leavesOut (source : List Char) (c : Cursor) : Bool := c.declared?.any (c.isLeftOut source)

/-- The property members of the interface that an export statement declares, if it is taken up. -/
def takenMembers (source : List Char) (c : Cursor) : List Cursor :=
  match c.declared? with
  | some d =>
    if d.node.kind == .interfaceDeclaration && !c.isLeftOut source d then d.propertyMembers else []
  | none => []

/-- A member of an interface that is no property. -/
def isRejected (source : List Char) (m : Cursor) : Bool := (propertyOf source m).toOption.isNone

/-- The number of things that are left out at a node. -/
def losses (source : List Char) (c : Cursor) : Nat :=
  (c.leavesOut source).toNat + (c.takenMembers source).countP (isRejected source) +
    c.isMalformedExport.toNat + (Findings.isSkippedRegion c).toNat

end Syntax.Cursor

theorem length_memberResults (source : List Char) (path name : String) (members : List Cursor) :
    ((members.map (memberResult source path name)).filterMap Sum.getRight?).length =
      members.countP (Cursor.isRejected source) := by
  rw [List.filterMap_map, List.length_filterMap_eq_countP]
  refine List.countP_congr fun m _ => ?_
  rw [Function.comp_apply, memberResult, Cursor.isRejected]
  rcases propertyOf source m with _ | _ <;> simp [Except.toOption]

namespace Findings

theorem isSkippedRegion_of_exportStatement (hkind : c.node.kind = .exportStatement) :
    isSkippedRegion c = false := by
  simp [isSkippedRegion, Node.isError, hkind]

/-- The visit of an export statement with a declaration brings a warning for each thing that it
leaves out. -/
theorem exists_warnings_declared (path : String) (h : c.declared? = some d) :
    ∃ ws, (∀ s : Findings, (s.visit source path c).warnings = ws ++ s.warnings) ∧
      ws.length = c.losses source := by
  have hexport : c.node.kind = .exportStatement ∧ c.child? .declaration = some d := by
    unfold Cursor.declared? at h
    split_ifs at h with hkind
    exact ⟨hkind, (Option.filter_eq_some_iff.1 h).1⟩
  have hlosses : c.losses source =
      (c.isLeftOut source d).toNat + (c.takenMembers source).countP (Cursor.isRejected source) := by
    simp [Cursor.losses, Cursor.leavesOut, Cursor.isMalformedExport, h, hexport.2,
      isSkippedRegion_of_exportStatement hexport.1]
  obtain ⟨hout, f, hskips⟩ | ⟨hin, hkind, i, htakes⟩ | ⟨hin, hkind, a, htakes⟩ |
    ⟨hin, hother, hkeeps⟩ := visit_declared source path h
  · refine ⟨[f], fun s => by rw [hskips.only]; rfl, ?_⟩
    simp [hlosses, hout, Cursor.takenMembers, h]
  · refine ⟨_, htakes.warnings, ?_⟩
    rw [List.length_reverse, length_memberResults]
    simp [hlosses, hin, Cursor.takenMembers, h, hkind]
  · refine ⟨[], htakes.warnings, ?_⟩
    simp [hlosses, hin, Cursor.takenMembers, h, hkind]
  · refine ⟨[], fun s => (hkeeps s).1, ?_⟩
    have hkind : d.node.kind ≠ .interfaceDeclaration := by
      rintro hkind
      simp [hkind, NodeKind.declaresType] at hother
    simp [hlosses, hin, Cursor.takenMembers, h, hkind]

/-- The visit of an export statement without a declaration brings a warning if it holds an error. -/
theorem exists_warnings_undeclared (source : List Char) (path : String)
    (hkind : c.node.kind = .exportStatement) (h : c.declared? = none) :
    ∃ ws, (∀ s : Findings, (s.visit source path c).warnings = ws ++ s.warnings) ∧
      ws.length = c.losses source := by
  have hlosses : c.losses source = c.isMalformedExport.toNat := by
    simp [Cursor.losses, Cursor.leavesOut, Cursor.takenMembers, h,
      isSkippedRegion_of_exportStatement hkind]
  have hexport := exportOf_undeclared source path hkind h
  by_cases hmalformed : c.isMalformedExport = true
  · rw [if_pos hmalformed] at hexport
    refine ⟨[_], fun s => congrArg warnings (visit_exportStatement hkind hexport s), ?_⟩
    simp [hlosses, hmalformed]
  · rw [if_neg hmalformed] at hexport
    refine ⟨[], fun s => ?_, by simp [hlosses, hmalformed]⟩
    rw [visit, if_pos hkind, hexport]
    rfl

/-- The visit of any other node brings a warning if it is an error right below the root. -/
theorem exists_warnings_other (source : List Char) (path : String)
    (hkind : c.node.kind ≠ .exportStatement) :
    ∃ ws, (∀ s : Findings, (s.visit source path c).warnings = ws ++ s.warnings) ∧
      ws.length = c.losses source := by
  have hdeclared : c.declared? = none := if_neg hkind
  have hlosses : c.losses source = (isSkippedRegion c).toNat := by
    simp [Cursor.losses, Cursor.leavesOut, Cursor.takenMembers, Cursor.isMalformedExport,
      hdeclared, hkind]
  by_cases hregion : isSkippedRegion c = true
  · let f := (Failure.new .declaration "unparseable source region skipped").located path c.node
    refine ⟨[f], fun s => ?_, ?_⟩
    · rw [visit, if_neg hkind, if_pos hregion]
      rfl
    · simp [hlosses, hregion]
  · refine ⟨[], fun s => ?_, ?_⟩
    · rw [visit, if_neg hkind, if_neg hregion]
      rfl
    · simp [hlosses, hregion]

/-- **A visit brings a warning for each thing that it leaves out.** -/
theorem exists_warnings_visit (source : List Char) (path : String) (c : Cursor) :
    ∃ ws, (∀ s : Findings, (s.visit source path c).warnings = ws ++ s.warnings) ∧
      ws.length = c.losses source := by
  by_cases hkind : c.node.kind = .exportStatement
  · rcases hdeclared : c.declared? with _ | d
    · exact exists_warnings_undeclared source path hkind hdeclared
    · exact exists_warnings_declared path hdeclared
  · exact exists_warnings_other source path hkind

/-- After visits, there is a warning for each thing that was left out. -/
theorem length_warnings_foldl (source : List Char) (path : String) (cs : List Cursor)
    (s : Findings) : (cs.foldl (visit source path) s).warnings.length = s.warnings.length +
      (cs.countP (Cursor.leavesOut source) +
        (cs.flatMap (Cursor.takenMembers source)).countP (Cursor.isRejected source) +
        cs.countP Cursor.isMalformedExport + cs.countP isSkippedRegion) := by
  induction cs generalizing s with
  | nil => simp
  | cons c cs ih =>
    obtain ⟨ws, hws, hlength⟩ := exists_warnings_visit source path c
    have htoNat (b : Bool) : b.toNat = if b = true then 1 else 0 := by cases b <;> rfl
    rw [Cursor.losses, htoNat, htoNat, htoNat] at hlength
    rw [List.foldl_cons, ih, hws, List.length_append, hlength, List.flatMap_cons,
      List.countP_append, List.countP_cons, List.countP_cons, List.countP_cons]
    omega

/-! ### Names that stay -/

/-- No type is lost. -/
structure Grows (s s' : Findings) : Prop where
  interfaces {name : String} : name ∈ Keyed.keys s.interfaces → name ∈ Keyed.keys s'.interfaces
  types {name : String} : name ∈ Keyed.keys s.types → name ∈ Keyed.keys s'.types

theorem grows_add (s : Findings) (x : Declaration) : s.Grows (s.add x) := by
  cases x with
  | interface i roles warnings =>
    rw [add, foldl_warn]
    exact ⟨fun hname => Keyed.mem_keys_put.2 (.inr hname), id⟩
  | typeAlias a roles => exact ⟨id, fun hname => Keyed.mem_keys_put.2 (.inr hname)⟩
  | constants values =>
    obtain ⟨version, constants, hadded⟩ := foldl_addConstant s values
    rw [add, hadded]
    exact ⟨id, id⟩

theorem grows_visit (source : List Char) (path : String) (c : Cursor) (s : Findings) :
    s.Grows (s.visit source path c) := by
  unfold visit
  split_ifs
  · split
    · exact grows_add s _
    · exact ⟨id, id⟩
    · exact ⟨id, id⟩
  · exact ⟨id, id⟩
  · exact ⟨id, id⟩

theorem grows_foldl (source : List Char) (path : String) (cs : List Cursor) (s : Findings) :
    s.Grows (cs.foldl (visit source path) s) := by
  induction cs generalizing s with
  | nil => exact ⟨id, id⟩
  | cons c cs ih =>
    have hfirst := grows_visit source path c s
    have hrest := ih (s.visit source path c)
    exact ⟨fun hname => hrest.interfaces (hfirst.interfaces hname),
      fun hname => hrest.types (hfirst.types hname)⟩

/-- A warning stays, whatever is visited later. -/
theorem mem_warnings_foldl (source : List Char) (path : String) (cs : List Cursor) {f : Failure}
    {s : Findings} (h : f ∈ s.warnings) : f ∈ (cs.foldl (visit source path) s).warnings := by
  induction cs generalizing s with
  | nil => exact h
  | cons c cs ih =>
    obtain ⟨ws, hws, -⟩ := exists_warnings_visit source path c
    exact ih (by rw [hws]; exact List.mem_append_right _ h)

/-! ### Exported types -/

theorem not_skips_of_takesUpInterface {i : Interface} (h : TakesUpInterface source path c d i) :
    ¬∃ f, Skips source path c d f := by
  rintro ⟨f, hskips⟩
  have hput := h.put {}
  rw [hskips.only] at hput
  simp [Keyed.put] at hput

theorem not_skips_of_takesUpAlias {a : TypeAlias} (h : TakesUpAlias source path c d a) :
    ¬∃ f, Skips source path c d f := by
  rintro ⟨f, hskips⟩
  have hput := h.put {}
  rw [hskips.only] at hput
  simp [Keyed.put] at hput

/-- An exported interface is left out or taken up. -/
theorem skips_or_takesUpInterface (source : List Char) (path : String) (h : c.declared? = some d)
    (hkind : d.node.kind = .interfaceDeclaration) :
    (∃ f, Skips source path c d f) ∨ ∃ i, TakesUpInterface source path c d i := by
  obtain ⟨-, hskips⟩ | ⟨-, -, htakes⟩ | ⟨-, halias, -⟩ | ⟨-, hother, -⟩ :=
    visit_declared source path h
  · exact .inl hskips
  · exact .inr htakes
  · rw [hkind] at halias
    cases halias
  · rw [hkind] at hother
    cases hother

/-- An exported type alias is left out or taken up. -/
theorem skips_or_takesUpAlias (source : List Char) (path : String) (h : c.declared? = some d)
    (hkind : d.node.kind = .typeAliasDeclaration) :
    (∃ f, Skips source path c d f) ∨ ∃ a, TakesUpAlias source path c d a := by
  obtain ⟨-, hskips⟩ | ⟨-, hinterface, -⟩ | ⟨-, -, htakes⟩ | ⟨-, hother, -⟩ :=
    visit_declared source path h
  · exact .inl hskips
  · rw [hkind] at hinterface
    cases hinterface
  · exact .inr htakes
  · rw [hkind] at hother
    cases hother

/-- A declaration that belongs to a schema is left out if it cannot be taken up, and only then. -/
theorem leavesOut_iff (path : String) (h : c.declared? = some d) :
    c.leavesOut source = true ↔ ∃ f, Skips source path c d f := by
  have hout : c.leavesOut source = c.isLeftOut source d := by rw [Cursor.leavesOut, h]; rfl
  rw [hout]
  obtain ⟨hleft, hskips⟩ | ⟨hin, -, i, htakes⟩ | ⟨hin, -, a, htakes⟩ | ⟨hin, -, hkeeps⟩ :=
    visit_declared source path h
  · exact iff_of_true hleft hskips
  · exact iff_of_false (by simp [hin]) (not_skips_of_takesUpInterface htakes)
  · exact iff_of_false (by simp [hin]) (not_skips_of_takesUpAlias htakes)
  · refine iff_of_false (by simp [hin]) ?_
    rintro ⟨f, hskips⟩
    have hwarnings := (hkeeps {}).1
    rw [hskips.only] at hwarnings
    cases hwarnings

end Findings

namespace Schema

open Findings

theorem countP_isSkippedRegion (root : Node) :
    (Cursor.walk root).countP isSkippedRegion = root.children.countP Node.isError := by
  have hregion (c : Cursor) : isSkippedRegion c = (c.node.isError && c.way.length == 1) := by
    obtain ⟨node, way⟩ := c
    rcases way with _ | ⟨step, _ | ⟨next, way⟩⟩ <;> simp [isSkippedRegion, Cursor.parent?]
  have hnodes := Cursor.map_node_siblings root [] [] root.children
  calc (Cursor.walk root).countP isSkippedRegion
      = ((Cursor.walk root).filter (·.way.length == 1)).countP (·.node.isError) := by
        rw [List.countP_filter]
        exact List.countP_congr fun c _ => by rw [hregion, Bool.and_eq_true]
    _ = ((Cursor.siblings root [] [] root.children).map Cursor.node).countP Node.isError := by
        rw [Cursor.filter_walk_children, List.countP_map]
        rfl
    _ = root.children.countP Node.isError := by rw [hnodes]

/-- What a visit of the walk takes up or warns about is still there at the end. -/
theorem exists_visit (source : List Char) (path : String) {root : Node} {c : Cursor}
    (hc : c ∈ Cursor.walk root) : ∃ s : Findings,
      (∀ f, f ∈ (s.visit source path c).warnings → f ∈ (ofTree source path root).warnings) ∧
      (∀ name, name ∈ Keyed.keys (s.visit source path c).interfaces →
        name ∈ Keyed.keys (ofTree source path root).schema.interfaces) ∧
      ∀ name, name ∈ Keyed.keys (s.visit source path c).types →
        name ∈ Keyed.keys (ofTree source path root).schema.types := by
  obtain ⟨before, after, hwalk⟩ := List.append_of_mem hc
  have hgrows := grows_foldl source path after ((before.foldl (visit source path) {}).visit source
    path c)
  refine ⟨before.foldl (visit source path) {}, fun f hf => ?_, fun name hname => ?_,
    fun name hname => ?_⟩ <;> simp only [ofTree, hwalk, List.foldl_append, List.foldl_cons]
  · exact List.mem_reverse.2 (mem_warnings_foldl source path after hf)
  · exact hgrows.interfaces hname
  · exact hgrows.types hname

/-- **Nothing is left out without a warning.**  Each node of a tree is visited once.  An exported
interface or type alias is left out with one warning that tells its place, and nothing else changes
then, or it is taken up under its name, but not both.  Each property member of an interface that is
taken up is one of its properties or brings one warning.  The warnings are as many as the exported
declarations that are left out, the members that are, the export statements without a declaration
that hold an error, and the errors right below the root. -/
theorem ofTree_accounts (source : List Char) (path : String) (root : Node) :
    (Cursor.walk root).map Cursor.node = root.preorder ∧
    (∀ c ∈ Cursor.walk root, ∀ d, c.node.kind = .exportStatement →
      c.child? .declaration = some d →
      (d.node.kind = .interfaceDeclaration →
        Xor (∃ f ∈ (ofTree source path root).warnings, Skips source path c d f)
          (∃ i, i.name ∈ Keyed.keys (ofTree source path root).schema.interfaces ∧
            TakesUpInterface source path c d i)) ∧
      (d.node.kind = .typeAliasDeclaration →
        Xor (∃ f ∈ (ofTree source path root).warnings, Skips source path c d f)
          (∃ a, a.name ∈ Keyed.keys (ofTree source path root).schema.types ∧
            TakesUpAlias source path c d a))) ∧
    (∀ c d, c.declared? = some d → (c.leavesOut source = true ↔ ∃ f, Skips source path c d f)) ∧
    (ofTree source path root).warnings.length =
      (Cursor.walk root).countP (Cursor.leavesOut source) +
      ((Cursor.walk root).flatMap (Cursor.takenMembers source)).countP
        (Cursor.isRejected source) +
      (Cursor.walk root).countP Cursor.isMalformedExport + root.children.countP Node.isError := by
  refine ⟨Cursor.map_node_walk root, fun c hc d hexport hchild => ?_,
    fun c d => leavesOut_iff path, ?_⟩
  · obtain ⟨s, hwarnings, hinterfaces, htypes⟩ := exists_visit source path hc
    have hdeclared (hsupported : isSupported c.standsOnTop d.node.kind = true) :
        c.declared? = some d := by
      rw [Cursor.declared?, if_pos hexport, hchild]
      exact Option.filter_eq_some_iff.2 ⟨rfl, hsupported⟩
    have hwarned {f : Failure} (h : Skips source path c d f) :
        f ∈ (ofTree source path root).warnings := by
      refine hwarnings f ?_
      rw [h.only]
      exact List.mem_cons_self
    refine ⟨fun hkind => ?_, fun hkind => ?_⟩
    · obtain ⟨f, h⟩ | ⟨i, h⟩ :=
        skips_or_takesUpInterface source path (hdeclared (by rw [hkind]; rfl)) hkind
      · refine .inl ⟨⟨f, hwarned h, h⟩, fun ⟨i, _, htakes⟩ => ?_⟩
        exact not_skips_of_takesUpInterface htakes ⟨f, h⟩
      · have hkey := hinterfaces i.name (by rw [h.put]; exact Keyed.mem_keys_put.2 (.inl rfl))
        refine .inr ⟨⟨i, hkey, h⟩, fun ⟨f, _, hskips⟩ => ?_⟩
        exact not_skips_of_takesUpInterface h ⟨f, hskips⟩
    · obtain ⟨f, h⟩ | ⟨a, h⟩ :=
        skips_or_takesUpAlias source path (hdeclared (by rw [hkind]; rfl)) hkind
      · refine .inl ⟨⟨f, hwarned h, h⟩, fun ⟨a, _, htakes⟩ => ?_⟩
        exact not_skips_of_takesUpAlias htakes ⟨f, h⟩
      · have hkey := htypes a.name (by rw [h.put]; exact Keyed.mem_keys_put.2 (.inl rfl))
        refine .inr ⟨⟨a, hkey, h⟩, fun ⟨f, _, hskips⟩ => ?_⟩
        exact not_skips_of_takesUpAlias h ⟨f, hskips⟩
  · rw [ofTree, List.length_reverse, length_warnings_foldl, countP_isSkippedRegion]
    simp

/-- A text with a member, a declaration, an export statement and a region that cannot be read. -/
def brokenSource : String :=
  "export interface N \x7b '': 1; b: 1 \x7d export type T = ; export interface \x7b \x7d )"

theorem ofTree_accounts_broken :
    (ofTree brokenSource.toList "note.ts" (parse brokenSource.toList)).warnings.length =
      1 + 1 + 1 + 1 := by
  obtain ⟨-, -, -, hlength⟩ :=
    ofTree_accounts brokenSource.toList "note.ts" (parse brokenSource.toList)
  have hcounts : ((Cursor.walk (parse brokenSource.toList)).countP
        (Cursor.leavesOut brokenSource.toList),
      ((Cursor.walk (parse brokenSource.toList)).flatMap
        (Cursor.takenMembers brokenSource.toList)).countP (Cursor.isRejected brokenSource.toList),
      (Cursor.walk (parse brokenSource.toList)).countP Cursor.isMalformedExport,
      (parse brokenSource.toList).children.countP Node.isError) = (1, 1, 1, 1) := by
    have hletters : brokenSource.toList = _ := String.toList_ofList
    rw [hletters]
    decide +kernel
  obtain ⟨hleft, hrejected, hmalformed, hregions⟩ := by simpa only [Prod.mk.injEq] using hcounts
  rw [hlength, hleft, hrejected, hmalformed, hregions]

end Schema

end ServiceScaffold
