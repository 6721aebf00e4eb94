import ServiceScaffold.Proofs.Results
import ServiceScaffold.Proofs.Schema.Accounting
import ServiceScaffold.Proofs.Schema.Names

/-!
# What the lists of roles hold

A schema gives a role to the types whose documentation has its tag, and then to those whose names
follow its convention.  Each list of a schema is given here exactly, with the order of its names.

* `Cursor.taken?` : the type that a statement declares, with the roles that its documentation gives
  it, if it is taken up;
* `Findings.Gives` : the names and the roles that are added to the findings;
* `Findings.gives_visit` : **a visit adds the type that is taken up**;
* `Findings.gives_foldl` : a walk adds those of all its nodes, by induction on it;
* `Schema.list_ofTree` : the tagged names first, then the others that follow the convention;
* `Schema.roles_exact` : **what classification adds, and what the lists of a schema hold**.
-/

namespace ServiceScaffold

open Syntax

variable {source : List Char} {path : String} {c d : Cursor} {t : RoleLists} {role : Role}

/-! ### Classification -/

namespace RoleLists

theorem eq_of_list {t' : RoleLists} (h : ∀ role, t.list role = t'.list role) : t = t' := by
  cases t
  cases t'
  simp only [mk.injEq]
  exact ⟨h .resource, h .tool, h .prompt, h .capability⟩

/-- Names that were classified stay as they are. -/
theorem classify_classify (t : RoleLists) (names : List String) :
    (t.classify names).classify names = t.classify names := by
  refine eq_of_list fun role => ?_
  have hold : (names.filter role.matchesName).filter (· ∉ (t.classify names).list role) = [] := by
    refine List.filter_eq_nil_iff.2 fun name hname => ?_
    have hmem : name ∈ (t.classify names).list role :=
      mem_classify.2 (.inr (List.mem_filter.1 hname))
    simp [hmem]
  rw [list_classify _ names, hold, List.eraseDups_nil, List.append_nil]

end RoleLists

/-! ### Roles of a declaration -/

/-- The roles that a declaration is given. -/
def Declaration.roles : Declaration → List Role
  | .interface _ roles _ => roles
  | .typeAlias _ roles => roles
  | .constants _ => []

theorem roles_interfaceOf {x : Declaration} (h : interfaceOf source path d = .ok x) :
    x.roles = rolesIn (d.doc? source) := by
  unfold interfaceOf at h
  rcases hname : declaredName source "interface" d.node with f | name <;> rw [hname] at h
  · cases h
  · obtain rfl := Except.ok.inj h
    rfl

theorem roles_typeAliasOf {x : Declaration} (h : typeAliasOf source d = .ok x) :
    x.roles = rolesIn (d.doc? source) := by
  unfold typeAliasOf at h
  rcases hname : declaredName source "type alias" d.node with f | name <;> rw [hname] at h
  · cases h
  · rcases hvalue : d.node.child? .value with _ | value <;> simp only [hvalue] at h
    · cases h
    · obtain rfl := Except.ok.inj h
      rfl

/-- The roles of a type that an export statement declares come from its documentation. -/
theorem roles_exportOf {x : Declaration} (h : c.declared? = some d)
    (hkind : d.node.kind.declaresType = true) (hx : exportOf source path c = some (.ok x)) :
    x.roles = rolesIn (d.doc? source) := by
  rw [exportOf_declared source path h] at hx
  have hresult := Option.some.inj hx
  split_ifs at hresult
  unfold declarationOf at hresult
  split at hresult
  · rcases hread : interfaceOf source path d with f | y <;> rw [hread] at hresult
    · cases hresult
    · obtain rfl := Except.ok.inj hresult
      exact roles_interfaceOf hread
  · rcases hread : typeAliasOf source d with f | y <;> rw [hread] at hresult
    · cases hresult
    · obtain rfl := Except.ok.inj hresult
      exact roles_typeAliasOf hread
  · simp_all [NodeKind.declaresType]

namespace Syntax.Cursor

/-- The type that a statement declares, if it is taken up: its name, and the roles that its
documentation gives it. -/
def taken? (source : List Char) (c : Cursor) : Option (String × List Role) :=
  (c.declared?.filter fun d => d.node.kind.declaresType && !c.isLeftOut source d).bind fun d =>
    (nameText? source d.node).map fun name => (name, rolesIn (d.doc? source))

theorem taken?_of_declared {name : String} (h : c.declared? = some d)
    (hdeclares : d.node.kind.declaresType = true) (hin : c.isLeftOut source d = false)
    (hname : nameText? source d.node = some name) :
    c.taken? source = some (name, rolesIn (d.doc? source)) := by
  rw [taken?, h, Option.filter_some, if_pos (by simp [hdeclares, hin]), Option.bind_some, hname]
  rfl

end Syntax.Cursor

/-! ### Visits -/

namespace Findings

/-- The names of the entries are added to the names that were found, and get their roles. -/
structure Gives (entries : List (String × List Role)) (s s' : Findings) : Prop where
  names : s'.names = s.names ++ entries.map Prod.fst
  roles : s'.roles = s.roles.insertEach entries

theorem gives_nothing (h : c.taken? source = none) {s s' : Findings} (hnames : s'.names = s.names)
    (hroles : s'.roles = s.roles) : s.Gives (c.taken? source).toList s' := by
  rw [h]
  exact ⟨by simp [hnames], hroles⟩

/-- A visit adds the type that is taken up, if there is one. -/
theorem gives_visit (source : List Char) (path : String) (c : Cursor) (s : Findings) :
    s.Gives (c.taken? source).toList (s.visit source path c) := by
  by_cases hkind : c.node.kind = .exportStatement
  · rcases hdeclared : c.declared? with _ | d
    · refine gives_nothing (by simp [Cursor.taken?, hdeclared]) ?_ ?_ <;>
        rw [visit, if_pos hkind, exportOf_undeclared source path hkind hdeclared] <;>
        split_ifs <;> rfl
    obtain ⟨x, hx, hexported⟩ := exported_exportOf source path hdeclared
    rw [visit_exportStatement hkind hx]
    cases hexported with
    | leftOut f hout => exact gives_nothing (by simp [Cursor.taken?, hdeclared, hout]) rfl rfl
    | interface i roles hin hinterface hname =>
      have hdeclares : d.node.kind.declaresType = true := by rw [hinterface]; rfl
      have hroles : roles = _ := roles_exportOf hdeclared hdeclares hx
      rw [Cursor.taken?_of_declared hdeclared hdeclares hin hname, ← hroles, take, add, foldl_warn]
      exact ⟨rfl, rfl⟩
    | typeAlias a roles hin halias hname =>
      have hdeclares : d.node.kind.declaresType = true := by rw [halias]; rfl
      have hroles : roles = _ := roles_exportOf hdeclared hdeclares hx
      rw [Cursor.taken?_of_declared hdeclared hdeclares hin hname, ← hroles]
      exact ⟨rfl, rfl⟩
    | constants values hin hother =>
      obtain ⟨version, constants, hadded⟩ := foldl_addConstant s values
      rw [take, add, hadded]
      exact gives_nothing (by simp [Cursor.taken?, hdeclared, hother]) rfl rfl
  · have hdeclared : c.declared? = none := if_neg hkind
    refine gives_nothing (by simp [Cursor.taken?, hdeclared]) ?_ ?_ <;>
      rw [visit, if_neg hkind] <;> split_ifs <;> rfl

theorem gives_foldl (source : List Char) (path : String) (cs : List Cursor) (s : Findings) :
    s.Gives (cs.filterMap (Cursor.taken? source)) (cs.foldl (visit source path) s) := by
  induction cs generalizing s with
  | nil => exact ⟨by simp, rfl⟩
  | cons c cs ih =>
    have hfirst := gives_visit source path c s
    have hrest := ih (s.visit source path c)
    have hentries : (c :: cs).filterMap (Cursor.taken? source) =
        (c.taken? source).toList ++ cs.filterMap (Cursor.taken? source) := by
      rw [List.filterMap_cons]
      rcases c.taken? source with _ | entry <;> rfl
    rw [hentries]
    refine ⟨?_, ?_⟩
    · rw [List.foldl_cons, hrest.names, hfirst.names, List.map_append, List.append_assoc]
    · rw [List.foldl_cons, hrest.roles, hfirst.roles, RoleLists.insertEach_append]

end Findings

namespace Schema

/-- The types of a tree that are taken up, with the roles that their documentation gives them. -/
def takenTypes (source : List Char) (root : Node) : List (String × List Role) :=
  (Cursor.walk root).filterMap (Cursor.taken? source)

theorem gives_takenTypes (source : List Char) (path : String) (root : Node) :
    Findings.Gives (takenTypes source root) {}
      ((Cursor.walk root).foldl (Findings.visit source path) {}) :=
  Findings.gives_foldl source path _ _

/-- The list of a role in the schema of a tree: the names that are tagged with the role, as they
were tagged first, and behind them the other names that follow its convention, as they were declared
first. -/
theorem list_ofTree (source : List Char) (path : String) (root : Node) (role : Role) :
    (ofTree source path root).schema.roles.list role =
      (RoleLists.namesWith role (takenTypes source root)).eraseDups ++
        ((((takenTypes source root).map Prod.fst).filter role.matchesName).filter
          (· ∉ RoleLists.namesWith role (takenTypes source root))).eraseDups := by
  obtain ⟨hnames, hroles⟩ := gives_takenTypes source path root
  have hschema : (ofTree source path root).schema.roles =
      RoleLists.classify (RoleLists.insertEach {} (takenTypes source root))
        ((takenTypes source root).map Prod.fst) := by
    change RoleLists.classify (Findings.roles _) (Findings.names _) = _
    rw [hroles, hnames]
    rfl
  have htagged : (RoleLists.insertEach {} (takenTypes source root)).list role =
      (RoleLists.namesWith role (takenTypes source root)).eraseDups := by
    have hempty : RoleLists.list {} role = [] := by cases role <;> rfl
    rw [RoleLists.list_insertEach, hempty]
    simp
  rw [hschema, RoleLists.list_classify, htagged]
  simp

/-- The types of a tree that are taken up are those of its schema. -/
theorem mem_takenTypes_iff (source : List Char) (path : String) (root : Node) (name : String) :
    name ∈ (takenTypes source root).map Prod.fst ↔
      name ∈ Keyed.keys (ofTree source path root).schema.interfaces ∨
        name ∈ Keyed.keys (ofTree source path root).schema.types := by
  have hsound := Findings.sound_empty.foldl_visit source path (Cursor.walk root)
  have hnamed : ((Cursor.walk root).foldl (Findings.visit source path) {}).KeysNamed :=
    Findings.foldl_visit_of (fun name hname => by simp [Keyed.keys] at hname)
      (fun s f hs => hs) fun s c d _ _ _ hs => hs.add d
  have hnames := (gives_takenTypes source path root).names
  rw [List.nil_append] at hnames
  rw [← hnames]
  exact ⟨hsound.names, hnamed name⟩

/-- **What the lists of roles hold.**  Classification leaves each list as it is, and adds to it the
names that follow the convention of its role and are new, each once, in the order in which they came
first.  So names that were classified stay as they are, and names may be classified one part after
the other.  In the schema of a tree, and so in that of a text, each list has the names that are tagged
with its role, as they were tagged first, and behind them the other names of types that follow its
convention, as they were declared first. -/
theorem roles_exact (t : RoleLists) (names more : List String) (source path : String) :
    (∀ role, (t.classify names).list role = t.list role ++
      ((names.filter role.matchesName).filter (· ∉ t.list role)).eraseDups) ∧
    (∀ role, t.list role <+: (t.classify names).list role) ∧
    (t.classify names).classify names = t.classify names ∧
    t.classify (names ++ more) = (t.classify names).classify more ∧
    (∀ root : Node,
      (∀ name, name ∈ (takenTypes source.toList root).map Prod.fst ↔
        name ∈ Keyed.keys (ofTree source.toList path root).schema.interfaces ∨
          name ∈ Keyed.keys (ofTree source.toList path root).schema.types) ∧
      ∀ role, (ofTree source.toList path root).schema.roles.list role =
        (RoleLists.namesWith role (takenTypes source.toList root)).eraseDups ++
          ((((takenTypes source.toList root).map Prod.fst).filter role.matchesName).filter
            (· ∉ RoleLists.namesWith role (takenTypes source.toList root))).eraseDups) ∧
    ∀ x, ofSource source path = .ok x →
      x = ofTree source.toList path (parse source.toList) := by
  refine ⟨t.list_classify names, fun role => ?_, t.classify_classify names, List.foldl_append,
    fun root => ⟨mem_takenTypes_iff _ _ _, list_ofTree _ _ _⟩, fun x => eq_ofTree_of_ofSource⟩
  rw [RoleLists.list_classify]
  exact List.prefix_append _ _

/-- Types that are tagged, behind one that is not and follows the convention. -/
def taggedLate : String :=
  "export type BTool = 1; /** @tool */ export type Note = 1; /** @tool */ export type ATool = 1"

theorem roles_exact_taggedLate : ∃ x, ofSource taggedLate "note.ts" = .ok x ∧
    x.schema.roles.list .tool = ["Note", "ATool", "BTool"] := by
  have hkernel : takenTypes taggedLate.toList (parse taggedLate.toList) =
        [("BTool", []), ("Note", [.tool]), ("ATool", [.tool])] ∧
      (ofSource taggedLate "note.ts").toOption.isSome = true := by
    decide +kernel
  obtain ⟨htaken, hread⟩ := hkernel
  obtain ⟨x, hx⟩ := exists_ok_of_isSome hread
  obtain ⟨-, -, -, -, hschema, htree⟩ := roles_exact {} [] [] taggedLate "note.ts"
  refine ⟨x, hx, ?_⟩
  rw [htree x hx, (hschema _).2, htaken]
  decide

end Schema

end ServiceScaffold
