import ServiceScaffold.Proofs.Schema.Accounting
import ServiceScaffold.Proofs.Schema.WellFormed
import ServiceScaffold.Proofs.Syntax.DeclaredNames
import ServiceScaffold.Proofs.Syntax.Traversal

/-!
# Names in the schema of a text

The names of the declared types come from the tree of the text, so that they are words of it and no
slash stands in them.

* `Node.Sound.of_isIn` : all nodes of a sound tree are sound;
* `Schema.isName_of_declared` : the names of the interfaces and aliases are words;
* `Schema.slash_notMem_resource` : **the name of a resource has no slash.**
-/

namespace ServiceScaffold

namespace Syntax

/-- All nodes of a sound tree are sound. -/
theorem Node.Sound.of_isIn {source : List Char} {root : Node} {c : Cursor} (h : root.Sound source)
    (hc : c.IsIn root) : c.node.Sound source := by
  induction hc with
  | root => exact h
  | child _ hm ih => exact ih.child (Cursor.node_mem_children hm)

end Syntax

open Syntax

/-- The declared name of a sound node is a word. -/
theorem isName_declaredName {source : List Char} {what name : String} {n : Node}
    (h : n.Sound source) (hkind : n.kind.declaresType)
    (hname : declaredName source what n = .ok name) : IsName name.toList := by
  unfold declaredName nameText? at hname
  rcases hchild : n.child? .name with _ | child
  · simp [hchild] at hname
  · simp only [hchild, Option.map_some] at hname
    split_ifs at hname
    obtain rfl := Except.ok.inj hname
    have hfield : child.field = some .name := by simpa using List.find?_some hchild
    have hword := h.name hkind (List.mem_of_find?_eq_some hchild) hfield
    rwa [String.toList_ofList]

namespace Findings

variable {source : List Char} {s : Findings} {name : String}

/-- A declaration of a type adds its name. -/
theorem names_add (s : Findings) (d : Declaration) :
    (s.add d).names = s.names ++ d.name?.toList := by
  cases d with
  | interface i roles warnings =>
    rw [add, foldl_warn]
    rfl
  | typeAlias a roles => rfl
  | constants values =>
    obtain ⟨version, constants, hadded⟩ := foldl_addConstant s values
    rw [add, hadded]
    simp [Declaration.name?]

/-- What holds at the start of a walk holds at its end, if declarations that are read and warnings
keep it. -/
theorem foldl_visit_of {P : Findings → Prop} {path : String} {cs : List Cursor} (h : P s)
    (hwarn : ∀ s f, P s → P (s.warn f))
    (hadd : ∀ s c d, c ∈ cs → c.node.kind = .exportStatement → exportOf source path c = some (.ok d) →
      P s → P (s.add d)) :
    P (cs.foldl (visit source path) s) := by
  induction cs generalizing s with
  | nil => exact h
  | cons c cs ih =>
    refine ih ?_ fun s d x hd => hadd s d x (List.mem_cons_of_mem _ hd)
    unfold visit
    split_ifs with hkind
    · split
      · rename_i hexport
        exact hadd s c _ List.mem_cons_self hkind hexport h
      · exact hwarn s _ h
      · exact h
    · exact hwarn s _ h
    · exact h

theorem isName_foldl_visit {path : String} {root : Node} (hroot : root.Sound source)
    {cs : List Cursor} (hcs : ∀ c ∈ cs, c.IsIn root) (h : ∀ name ∈ s.names, IsName name.toList) :
    ∀ name ∈ (cs.foldl (visit source path) s).names, IsName name.toList := by
  refine foldl_visit_of (P := fun s => ∀ name ∈ s.names, IsName name.toList) h
    (fun s f hs => hs) fun s c d hc _ hexport hs name hname => ?_
  rw [names_add] at hname
  obtain hold | hnew := List.mem_append.1 hname
  · exact hs name hold
  -- a new name is that of a node in the part of the declaration
  · obtain ⟨inner, what, hinner, hkind, hdeclared⟩ :=
      declaredName_exportOf hexport (by simpa using hnew)
    have hdeclares : inner.node.kind.declaresType := by
      obtain hkind | hkind := hkind <;> rw [hkind] <;> rfl
    have hsound := hroot.of_isIn ((hcs c hc).child? hinner)
    exact isName_declaredName hsound hdeclares hdeclared

/-- Every declared type has its name among those found. -/
def KeysNamed (s : Findings) : Prop :=
  ∀ name, name ∈ Keyed.keys s.interfaces ∨ name ∈ Keyed.keys s.types → name ∈ s.names

theorem KeysNamed.add (h : s.KeysNamed) (d : Declaration) : (s.add d).KeysNamed := by
  intro name hname
  rw [names_add]
  cases d with
  | interface i roles warnings =>
    rw [Findings.add, foldl_warn] at hname
    obtain hkey | hkey := hname
    · obtain rfl | hold := Keyed.mem_keys_put.1 hkey
      · simp [Declaration.name?]
      · exact List.mem_append_left _ (h name (.inl hold))
    · exact List.mem_append_left _ (h name (.inr hkey))
  | typeAlias a roles =>
    obtain hkey | hkey := hname
    · exact List.mem_append_left _ (h name (.inl hkey))
    · obtain rfl | hold := Keyed.mem_keys_put.1 hkey
      · simp [Declaration.name?]
      · exact List.mem_append_left _ (h name (.inr hold))
  | constants values =>
    obtain ⟨version, constants, hadded⟩ := foldl_addConstant s values
    rw [Findings.add, hadded] at hname
    exact List.mem_append_left _ (h name hname)

theorem mem_names_of_mem_resources (h : s.Sound) (hname : name ∈ s.schema.roles.resources) :
    name ∈ s.names := by
  have hlist : name ∈ s.schema.roles.list .resource := hname
  obtain htagged | ⟨hnamed, -⟩ := RoleLists.mem_classify.1 hlist
  · exact h.roles htagged
  · exact hnamed

end Findings

namespace Schema

/-- The findings of a text are collected from its tree; the names among them are words. -/
theorem exists_findings {source path : String} {x : Extraction} (h : ofSource source path = .ok x) :
    ∃ s : Findings, x.schema = s.schema ∧ s.Sound ∧ s.KeysNamed ∧
      ∀ name ∈ s.names, IsName name.toList := by
  obtain rfl := eq_ofTree_of_ofSource h
  have hwalk : ∀ c ∈ Cursor.walk (parse source.toList), c.IsIn (parse source.toList) :=
    fun c => Cursor.mem_walk_iff.1
  refine ⟨_, rfl, Findings.sound_empty.foldl_visit source.toList path _, ?_,
    Findings.isName_foldl_visit (sound_parse source.toList) hwalk (by simp)⟩
  exact Findings.foldl_visit_of (P := Findings.KeysNamed) (fun _ h => by simp [Keyed.keys] at h)
    (fun _ _ h => h) fun _ _ d _ _ _ h => h.add d

/-- **The name of a resource has no slash.** -/
theorem slash_notMem_resource {source path : String} {x : Extraction} {name : String}
    (h : ofSource source path = .ok x) (hname : name ∈ x.schema.roles.resources) :
    '/' ∉ name.toList := by
  obtain ⟨s, hschema, hsound, -, hnames⟩ := exists_findings h
  rw [hschema] at hname
  exact (hnames name (Findings.mem_names_of_mem_resources hsound hname)).slash_notMem

/-- The names of interfaces and aliases are words. -/
theorem isName_of_declared {source path : String} {x : Extraction} {name : String}
    (h : ofSource source path = .ok x)
    (hname : name ∈ Keyed.keys x.schema.interfaces ∨ name ∈ Keyed.keys x.schema.types) :
    IsName name.toList := by
  obtain ⟨s, hschema, -, hkeys, hnames⟩ := exists_findings h
  rw [hschema] at hname
  exact hnames name (hkeys name hname)

end Schema

end ServiceScaffold
