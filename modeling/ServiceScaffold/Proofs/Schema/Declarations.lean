import ServiceScaffold.Proofs.Schema.Names

/-!
# Where the declarations of a schema come from

Every interface, property and alias of a schema has been read at a position of the syntax tree,
which gives its type and its description.

* `Property.IsFrom`, `Interface.IsFrom` and `TypeAlias.IsFrom` : the parts come from a position;
* `Schema.isFrom` : **all declarations of the schema of a tree come from positions in it**.
-/

namespace ServiceScaffold

open Syntax

/-- The property has been read at a position. -/
structure Property.IsFrom (source : List Char) (c : Cursor) (p : Property) : Prop where
  type : p.type = propertyType source c.node
  description : p.description = descriptionIn (c.doc? source)

/-- The interface has been read at a position of a tree, and its properties below it. -/
structure Interface.IsFrom (source : List Char) (root : Node) (c : Cursor) (i : Interface) :
    Prop where
  description : i.description = descriptionIn (c.doc? source)
  properties {p : Property} : p ∈ i.properties → ∃ m : Cursor, m.IsIn root ∧ p.IsFrom source m

/-- The alias has been read at a position. -/
structure TypeAlias.IsFrom (source : List Char) (c : Cursor) (a : TypeAlias) : Prop where
  type : ∃ n, c.node.child? .value = some n ∧ a.type = collapsedText source n
  description : a.description = descriptionIn (c.doc? source)

/-- The declared type has been read at a position of a tree. -/
def Declaration.IsFrom (source : List Char) (root : Node) : Declaration → Prop
  | .interface i _ _ => ∃ c : Cursor, c.IsIn root ∧ i.IsFrom source root c
  | .typeAlias a _ => ∃ c : Cursor, c.IsIn root ∧ a.IsFrom source c
  | .constants _ => True

variable {source : List Char} {path : String} {root : Node} {c : Cursor}

theorem isFrom_propertyOf {p : Property} (h : propertyOf source c = .ok p) :
    p.IsFrom source c := by
  unfold propertyOf at h
  split at h
  · cases h
  · rename_i n _
    rcases hname : propertyName source n with f | name
    · rw [hname] at h
      cases h
    · rw [hname] at h
      obtain rfl := Except.ok.inj h
      exact ⟨rfl, rfl⟩

/-- A property of an interface has been read at one of its members. -/
theorem exists_of_mem_propertiesOf (path name : String) {members : List Cursor} {p : Property}
    (h : p ∈ (propertiesOf source path name members).1) :
    ∃ m ∈ members.filter (·.node.kind == .propertySignature), propertyOf source m = .ok p := by
  obtain ⟨⟨m, r⟩, hm, hr⟩ := List.mem_filterMap.1 h
  obtain ⟨m, hmember, heq⟩ := List.mem_map.1 hm
  obtain ⟨rfl, rfl⟩ := Prod.mk.inj heq
  refine ⟨m, hmember, ?_⟩
  rcases hproperty : propertyOf source m with f | q
  · simp [hproperty, Except.toOption] at hr
  · obtain rfl : q = p := by simpa [hproperty, Except.toOption] using hr
    rfl

theorem isFrom_interfaceOf (hc : c.IsIn root) {d : Declaration}
    (h : interfaceOf source path c = .ok d) : d.IsFrom source root := by
  unfold interfaceOf at h
  rcases hname : declaredName source "interface" c.node with f | name
  · rw [hname] at h
    cases h
  · rw [hname] at h
    obtain rfl := Except.ok.inj h
    refine ⟨c, hc, rfl, fun {p} hp => ?_⟩
    obtain ⟨m, hm, hproperty⟩ := exists_of_mem_propertiesOf path name hp
    have hm := (List.mem_filter.1 hm).1
    refine ⟨m, ?_, isFrom_propertyOf hproperty⟩
    -- the members stand in the body
    rcases hbody : c.child? .body with _ | body
    · simp [hbody] at hm
    · have hmember : m ∈ body.namedChildren := by simpa [hbody] using hm
      exact (hc.child? hbody).child (List.mem_filter.1 hmember).1

theorem isFrom_typeAliasOf (hc : c.IsIn root) {d : Declaration}
    (h : typeAliasOf source c = .ok d) : d.IsFrom source root := by
  unfold typeAliasOf at h
  rcases hname : declaredName source "type alias" c.node with f | name
  · rw [hname] at h
    cases h
  · rw [hname] at h
    rcases hvalue : c.node.child? .value with _ | value
    · simp only [hvalue] at h
      cases h
    · simp only [hvalue] at h
      obtain rfl := Except.ok.inj h
      exact ⟨c, hc, ⟨value, hvalue, rfl⟩, rfl⟩

theorem isFrom_exportOf (hc : c.IsIn root) {d : Declaration}
    (h : exportOf source path c = some (.ok d)) : d.IsFrom source root := by
  unfold exportOf at h
  split at h
  · split_ifs at h
    simp at h
  · rename_i inner hinner
    simp only at h
    split_ifs at h
    · simp at h
    · rcases hd : declarationOf source path inner with f | d'
      · simp [hd, Except.mapError] at h
      · obtain rfl : d' = d := by simpa [hd, Except.mapError] using h
        have hin := hc.child? hinner
        unfold declarationOf at hd
        split at hd
        · exact isFrom_interfaceOf hin hd
        · exact isFrom_typeAliasOf hin hd
        · obtain rfl := Except.ok.inj hd
          trivial

/-- The declarations that have been found come from positions in a tree. -/
structure Findings.AreFrom (source : List Char) (root : Node) (s : Findings) : Prop where
  interfaces : ∀ e ∈ s.interfaces, ∃ c : Cursor, c.IsIn root ∧ e.2.IsFrom source root c
  types : ∀ e ∈ s.types, ∃ c : Cursor, c.IsIn root ∧ e.2.IsFrom source c

theorem Findings.AreFrom.add {s : Findings} (h : s.AreFrom source root) {d : Declaration}
    (hd : d.IsFrom source root) : (s.add d).AreFrom source root := by
  cases d with
  | interface i roles warnings =>
    rw [Findings.add, foldl_warn]
    refine ⟨fun e he => ?_, h.types⟩
    obtain rfl | hold := Keyed.mem_of_mem_put he
    · exact hd
    · exact h.interfaces e hold
  | typeAlias a roles =>
    refine ⟨h.interfaces, fun e he => ?_⟩
    obtain rfl | hold := Keyed.mem_of_mem_put he
    · exact hd
    · exact h.types e hold
  | constants values =>
    obtain ⟨version, constants, hadded⟩ := foldl_addConstant s values
    rw [Findings.add, hadded]
    exact ⟨h.interfaces, h.types⟩

/-- **All declarations of the schema of a tree come from positions in it.** -/
theorem Schema.isFrom (source : List Char) (path : String) (root : Node) :
    (∀ e ∈ (ofTree source path root).schema.interfaces,
      ∃ c : Cursor, c.IsIn root ∧ e.2.IsFrom source root c) ∧
    ∀ e ∈ (ofTree source path root).schema.types,
      ∃ c : Cursor, c.IsIn root ∧ e.2.IsFrom source c := by
  have hfound : ((Cursor.walk root).foldl (Findings.visit source path) {}).AreFrom source root :=
    Findings.foldl_visit_of ⟨by simp, by simp⟩ (fun s f hs => ⟨hs.interfaces, hs.types⟩)
      fun s c d hc _ hexport hs => hs.add (isFrom_exportOf (Cursor.mem_walk_iff.1 hc) hexport)
  unfold ofTree
  generalize (Cursor.walk root).foldl _ _ = s at hfound
  exact ⟨hfound.interfaces, hfound.types⟩

end ServiceScaffold
