import ServiceScaffold.Proofs.Keyed
import ServiceScaffold.Proofs.Results
import ServiceScaffold.Proofs.Schema.Roles
import ServiceScaffold.Schema.Extraction

/-!
# Schemas that come of a text

Whatever tree a text is read as, the schema that is collected from it agrees with itself.

* `Schema.WellFormed` : declarations stand under their own names, roles are given to declared names
  only and once, and the counts and the version are those of the declarations;
* `Findings.Sound` : what holds of the findings while the tree is walked;
* `Findings.Sound.visit` : **visiting a node keeps the findings sound**, one case for each kind of
  declaration;
* `Schema.wellFormed_ofSource` : every schema of a text is well formed.
-/

namespace ServiceScaffold

open Syntax

/-- The keys are different, none of them is empty, and each value stands under its own name. -/
structure NamedBy {α : Type} (nameOf : α → String) (entries : List (String × α)) : Prop where
  distinct : (Keyed.keys entries).Nodup
  own {key : String} {value : α} : (key, value) ∈ entries → key = nameOf value ∧ key ≠ ""

namespace NamedBy

variable {α : Type} {nameOf : α → String} {entries : List (String × α)}

theorem empty : NamedBy nameOf [] := ⟨List.nodup_nil, fun h => by simp at h⟩

theorem put (h : NamedBy nameOf entries) {value : α} (hname : nameOf value ≠ "") :
    NamedBy nameOf (Keyed.put (nameOf value) value entries) := by
  refine ⟨Keyed.nodup_keys_put h.distinct, fun {k v} hmem => ?_⟩
  obtain hnew | hold := Keyed.mem_of_mem_put hmem
  · obtain ⟨rfl, rfl⟩ := Prod.mk.inj hnew
    exact ⟨rfl, hname⟩
  · exact h.own hold

end NamedBy

/-- The version that constants declare. -/
def versionIn (constants : List (String × ConstantValue)) : Option String :=
  (Keyed.lookup Schema.versionConstant constants).map ConstantValue.show

/-- A schema that agrees with itself. -/
structure Schema.WellFormed (s : Schema) : Prop where
  interfaces : NamedBy Interface.name s.interfaces
  types : NamedBy TypeAlias.name s.types
  /-- Only declared names have roles. -/
  declared {role : Role} {name : String} : name ∈ s.roles.list role →
    name ∈ Keyed.keys s.interfaces ∨ name ∈ Keyed.keys s.types
  /-- No name has a role twice. -/
  distinct (role : Role) : (s.roles.list role).Nodup
  summary : s.summary =
    { interfaces := s.interfaces.length
      types := s.types.length
      constants := s.constants.length
      resources := (s.roles.list .resource).length
      tools := (s.roles.list .tool).length
      prompts := (s.roles.list .prompt).length
      capabilities := (s.roles.list .capability).length }
  constants : (Keyed.keys s.constants).Nodup
  version : s.version = (versionIn s.constants).getD Schema.unknownVersion

/-! ### Declarations -/

/-- The declaration has a name, if it is one of a type. -/
def Declaration.IsNamed : Declaration → Prop
  | .interface i _ _ => i.name ≠ ""
  | .typeAlias a _ => a.name ≠ ""
  | .constants _ => True

theorem declaredName_ne_empty {source : List Char} {what name : String} {n : Node}
    (h : declaredName source what n = .ok name) : name ≠ "" := by
  unfold declaredName at h
  split at h
  · split_ifs at h with hempty
    obtain rfl := Except.ok.inj h
    simpa [String.isEmpty_iff] using hempty
  · simp at h

/-- The name of the declaration, none if it is not one of a type. -/
def Declaration.name? : Declaration → Option String
  | .interface i _ _ => some i.name
  | .typeAlias a _ => some a.name
  | .constants _ => none

theorem declaredName_interfaceOf {source : List Char} {path : String} {c : Cursor}
    {d : Declaration} (h : interfaceOf source path c = .ok d) :
    ∃ name, d.name? = some name ∧ declaredName source "interface" c.node = .ok name := by
  unfold interfaceOf at h
  rcases hname : declaredName source "interface" c.node with f | name
  · rw [hname] at h
    cases h
  · rw [hname] at h
    obtain rfl := Except.ok.inj h
    exact ⟨name, rfl, rfl⟩

theorem declaredName_typeAliasOf {source : List Char} {c : Cursor} {d : Declaration}
    (h : typeAliasOf source c = .ok d) :
    ∃ name, d.name? = some name ∧ declaredName source "type alias" c.node = .ok name := by
  unfold typeAliasOf at h
  rcases hname : declaredName source "type alias" c.node with f | name
  · rw [hname] at h
    cases h
  · rw [hname] at h
    rcases hvalue : c.node.child? .value with _ | value
    · simp only [hvalue] at h
      cases h
    · simp only [hvalue] at h
      obtain rfl := Except.ok.inj h
      exact ⟨name, rfl, rfl⟩

/-- What an export statement declares has the name of the node in the part of the declaration. -/
theorem declaredName_exportOf {source : List Char} {path name : String} {c : Cursor}
    {d : Declaration} (h : exportOf source path c = some (.ok d)) (hname : d.name? = some name) :
    ∃ inner what, c.child? .declaration = some inner ∧
      (inner.node.kind = .interfaceDeclaration ∨ inner.node.kind = .typeAliasDeclaration) ∧
      declaredName source what inner.node = .ok name := by
  unfold exportOf at h
  split at h
  · split_ifs at h
    simp at h
  · rename_i inner hinner
    simp only at h
    split_ifs at h
    · simp at h
    · rcases hd : declarationOf source path inner with f | d'
      · simp [hd, Except.mapError] at h
      · obtain rfl : d' = d := by simpa [hd, Except.mapError] using h
        unfold declarationOf at hd
        split at hd
        · rename_i hkind
          obtain ⟨own, hown, hdeclared⟩ := declaredName_interfaceOf hd
          obtain rfl : own = name := Option.some.inj (hown.symm.trans hname)
          exact ⟨inner, _, hinner, .inl hkind, hdeclared⟩
        · rename_i hkind
          obtain ⟨own, hown, hdeclared⟩ := declaredName_typeAliasOf hd
          obtain rfl : own = name := Option.some.inj (hown.symm.trans hname)
          exact ⟨inner, _, hinner, .inr hkind, hdeclared⟩
        · obtain rfl := Except.ok.inj hd
          cases hname

/-- What an export statement declares has a name. -/
theorem isNamed_exportOf {source : List Char} {path : String} {c : Cursor} {d : Declaration}
    (h : exportOf source path c = some (.ok d)) : d.IsNamed := by
  have hne : ∀ name, d.name? = some name → name ≠ "" := fun name hname => by
    obtain ⟨inner, what, -, -, hdeclared⟩ := declaredName_exportOf h hname
    exact declaredName_ne_empty hdeclared
  cases d with
  | interface i roles warnings => exact hne i.name rfl
  | typeAlias a roles => exact hne a.name rfl
  | constants values => trivial

/-! ### Findings -/

namespace Findings

/-- What holds of the findings while a tree is walked. -/
structure Sound (s : Findings) : Prop where
  interfaces : NamedBy Interface.name s.interfaces
  types : NamedBy TypeAlias.name s.types
  names {name : String} : name ∈ s.names →
    name ∈ Keyed.keys s.interfaces ∨ name ∈ Keyed.keys s.types
  /-- Roles are given to names that were found. -/
  roles {role : Role} {name : String} : name ∈ s.roles.list role → name ∈ s.names
  distinct : s.roles.Distinct
  constants : (Keyed.keys s.constants).Nodup
  version : s.version = versionIn s.constants

theorem sound_empty : Sound {} where
  interfaces := .empty
  types := .empty
  names h := by simp at h
  roles {role _} h := by cases role <;> simp [RoleLists.list] at h
  distinct := RoleLists.distinct_empty
  constants := List.nodup_nil
  version := rfl

namespace Sound

variable {s : Findings}

theorem warn (h : s.Sound) (f : Failure) : (s.warn f).Sound := { h with }

theorem foldl_warn (h : s.Sound) (warnings : List Failure) :
    (warnings.foldl Findings.warn s).Sound := by
  induction warnings generalizing s with
  | nil => exact h
  | cons f warnings ih => exact ih (h.warn f)

theorem addConstant (h : s.Sound) (name : String) (value : ConstantValue) :
    (s.addConstant name value).Sound := by
  refine { h with constants := Keyed.nodup_keys_put h.constants, version := ?_ }
  simp only [Findings.addConstant, versionIn, Keyed.lookup_put]
  -- only a constant of that name changes the version, and the last one counts
  by_cases hname : name = Schema.versionConstant
  · simp [hname]
  · simpa [hname, Ne.symm hname, versionIn] using h.version

theorem foldl_addConstant (h : s.Sound) (values : List (String × ConstantValue)) :
    (values.foldl (fun s (name, value) => s.addConstant name value) s).Sound := by
  induction values generalizing s with
  | nil => exact h
  | cons v values ih => exact ih (h.addConstant v.1 v.2)

/-- A role that is given together with the name that gets it. -/
theorem roles_insertAll (h : s.Sound) {roles : List Role} {new name : String} {role : Role}
    (hmem : name ∈ (s.roles.insertAll roles new).list role) : name ∈ s.names ++ [new] := by
  obtain hold | ⟨-, rfl⟩ := RoleLists.mem_insertAll.1 hmem
  · exact List.mem_append_left _ (h.roles hold)
  · simp

/-- Adding a declaration keeps the findings sound: its name is declared before its roles count, and
a declaration that takes the place of another one has the same name. -/
theorem add (h : s.Sound) {d : Declaration} (hd : d.IsNamed) : (s.add d).Sound := by
  cases d with
  | interface i roles warnings =>
    -- its warnings come after it, and add nothing
    refine foldl_warn ?_ warnings
    exact
      { h with
        interfaces := h.interfaces.put hd
        names := fun {name} hname => by
          obtain hold | hnew := List.mem_append.1 hname
          · exact (h.names hold).imp_left fun hk => Keyed.mem_keys_put.2 (.inr hk)
          · exact .inl (Keyed.mem_keys_put.2 (.inl (List.mem_singleton.1 hnew)))
        roles := h.roles_insertAll
        distinct := h.distinct.insertAll roles i.name }
  | typeAlias a roles =>
    exact
      { h with
        types := h.types.put hd
        names := fun {name} hname => by
          obtain hold | hnew := List.mem_append.1 hname
          · exact (h.names hold).imp_right fun hk => Keyed.mem_keys_put.2 (.inr hk)
          · exact .inr (Keyed.mem_keys_put.2 (.inl (List.mem_singleton.1 hnew)))
        roles := h.roles_insertAll
        distinct := h.distinct.insertAll roles a.name }
  | constants values => exact h.foldl_addConstant values

/-- Visiting a node keeps the findings sound. -/
theorem visit (h : s.Sound) (source : List Char) (path : String) (c : Cursor) :
    (s.visit source path c).Sound := by
  unfold Findings.visit
  split_ifs
  · split
    · rename_i hexport
      exact h.add (isNamed_exportOf hexport)
    · exact h.warn _
    · exact h
  · exact h.warn _
  · exact h

theorem foldl_visit (h : s.Sound) (source : List Char) (path : String) (cs : List Cursor) :
    (cs.foldl (Findings.visit source path) s).Sound := by
  induction cs generalizing s with
  | nil => exact h
  | cons c cs ih => exact ih (h.visit source path c)

theorem wellFormed (h : s.Sound) : s.schema.WellFormed where
  interfaces := h.interfaces
  types := h.types
  declared hname := h.names <| (RoleLists.mem_classify.1 hname).elim h.roles And.left
  distinct := h.distinct.classify s.names
  summary := rfl
  constants := h.constants
  version := congrArg (·.getD Schema.unknownVersion) h.version

end Sound

end Findings

namespace Schema

theorem isDeclared_iff {s : Schema} {name : String} : s.isDeclared name = true ↔
    name ∈ Keyed.keys s.interfaces ∨ name ∈ Keyed.keys s.types := by
  rw [isDeclared, Bool.or_eq_true, interface?, alias?, Keyed.lookup_isSome, Keyed.lookup_isSome]

/-- The schema of a text is that of the tree that the text is read as. -/
theorem eq_ofTree_of_ofSource {source path : String} {x : Extraction}
    (h : ofSource source path = .ok x) : x = ofTree source.toList path (parse source.toList) := by
  simp only [ofSource] at h
  split_ifs at h
  exact (Except.ok.inj h).symm

theorem wellFormed_ofTree (source : List Char) (path : String) (root : Node) :
    (ofTree source path root).schema.WellFormed :=
  (Findings.sound_empty.foldl_visit source path (Cursor.walk root)).wellFormed

theorem wellFormed_of_ofSource {source path : String} {x : Extraction}
    (h : ofSource source path = .ok x) : x.schema.WellFormed := by
  rw [eq_ofTree_of_ofSource h]
  exact wellFormed_ofTree _ _ _

/-- The schema is that of a tree, whatever text and tree it is. -/
def IsOfTree (s : Schema) : Prop := ∃ source path root, s = (ofTree source path root).schema

theorem isOfTree_of_ofSource {source path : String} {x : Extraction}
    (h : ofSource source path = .ok x) : x.schema.IsOfTree := by
  rw [eq_ofTree_of_ofSource h]
  exact ⟨_, _, _, rfl⟩

theorem IsOfTree.wellFormed {s : Schema} (h : s.IsOfTree) : s.WellFormed := by
  obtain ⟨source, path, root, rfl⟩ := h
  exact wellFormed_ofTree source path root

/-- **Every schema of a text is well formed**, whatever tree the text is read as. -/
theorem wellFormed_ofSource (source path : String) :
    (∀ root, (ofTree source.toList path root).schema.WellFormed) ∧
      ∀ x, ofSource source path = .ok x → x.schema.WellFormed := by
  refine ⟨wellFormed_ofTree source.toList path, fun x hx => ?_⟩
  exact wellFormed_of_ofSource hx

/-- An interface and a type alias of one name, which follows a convention. -/
def redeclared : String :=
  "/** @resource */ export interface ATool \x7b\x7d export type ATool = 1;"

theorem wellFormed_redeclared : ∃ x, ofSource redeclared "note.ts" = .ok x ∧
    x.schema.roles.resources = ["ATool"] ∧ x.schema.roles.tools = ["ATool"] ∧
    x.schema.WellFormed := by
  have hkernel : (ofSource redeclared "note.ts").toOption.any (fun x =>
      x.schema.roles.resources == ["ATool"] && x.schema.roles.tools == ["ATool"]) = true := by
    decide +kernel
  obtain ⟨x, hx, hpassed⟩ := exists_ok_of_any hkernel
  simp only [Bool.and_eq_true, beq_iff_eq] at hpassed
  obtain ⟨hresources, htools⟩ := hpassed
  exact ⟨x, hx, hresources, htools, (wellFormed_ofSource redeclared "note.ts").2 x hx⟩

end Schema

end ServiceScaffold
