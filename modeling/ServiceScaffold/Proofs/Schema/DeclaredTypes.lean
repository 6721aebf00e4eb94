import ServiceScaffold.Proofs.Schema.Declarations
import ServiceScaffold.Proofs.Syntax.KeptTokens

/-!
# Where the types of a schema stand

Every type of a schema is the text of a node in an export without errors: what stands behind the
name of an alias, or behind the colon of a property.

* `Node.exportedTypes` : these nodes, for a whole tree;
* `Node.isReadAsType_of_mem_exportedTypes` : they have been read by the rule of types;
* `Schema.hasTypes` : **the types of the schema of a tree are the texts of these nodes**, but for
  properties without a type, which have any.
-/

namespace ServiceScaffold

open Syntax Text

/-! ### The nodes -/

namespace Syntax.Node

/-- The type of a property, if it has one. -/
def annotation? (n : Node) : Option Node := (n.child? .type).bind (·.namedChildren.head?)

/-- The properties of an interface. -/
def propertyNodes (n : Node) : List Node :=
  (((n.child? .body).map (·.namedChildren)).getD []).filter (·.kind == .propertySignature)

/-- The types that an export declares: that of an alias, and those of the properties of an
interface. -/
def declaredTypes (n : Node) : List Node :=
  (n.child? .declaration).toList.flatMap fun d =>
    match d.kind with
    | .typeAliasDeclaration => (d.child? .value).toList
    | .interfaceDeclaration => d.propertyNodes.filterMap annotation?
    | _ => []

/-- The types that are declared in exports without errors. -/
def exportedTypes (root : Node) : List Node :=
  (root.preorder.filter fun n => n.kind == .exportStatement && !n.hasError).flatMap declaredTypes

variable {source : List Char} {n m : Node} {f : FieldName}

theorem mem_of_child? (h : n.child? f = some m) : m ∈ n.children ∧ m.field = some f :=
  ⟨List.mem_of_find?_eq_some h, by simpa using List.find?_some h⟩

/-- A type that is exported has been read by the rule of types, unless a comment stands in its
place. -/
theorem isReadAsType_of_mem_exportedTypes (h : n ∈ (parse source).exportedTypes)
    (hcomment : n.kind ≠ .comment) : n.IsReadAsType source := by
  obtain ⟨e, he, hn⟩ := List.mem_flatMap.1 h
  obtain ⟨he, hexport⟩ := List.mem_filter.1 he
  simp only [Bool.and_eq_true, beq_iff_eq, Bool.not_eq_true'] at hexport
  have htyped := exportsTyped_parse source e he hexport.1 hexport.2
  obtain ⟨d, hd, hn⟩ := List.mem_flatMap.1 hn
  obtain ⟨hd, -⟩ := mem_of_child? (Option.mem_toList.1 hd)
  have hdeclaration := htyped.child (by simp [hexport.1]) hd
  split at hn
  · rename_i hkind
    obtain ⟨hvalue, hfield⟩ := mem_of_child? (Option.mem_toList.1 hn)
    exact (hdeclaration.part (by rw [hkind]; rfl) hvalue).value hfield
  · rename_i hkind
    obtain ⟨p, hp, hannotation⟩ := List.mem_filterMap.1 hn
    obtain ⟨hp, hproperty⟩ := List.mem_filter.1 hp
    rw [beq_iff_eq] at hproperty
    rcases hbody : d.child? .body with _ | b
    · simp [hbody] at hp
    simp only [hbody, Option.map_some, Option.getD_some] at hp
    obtain ⟨hb, hfield⟩ := mem_of_child? hbody
    have hinterface := (hdeclaration.part (by rw [hkind]; rfl) hb).body hfield
    have htypedProperty := (hdeclaration.child (by simp [hkind]) hb).child (by simp [hinterface])
      (List.mem_filter.1 hp).1
    obtain ⟨a, ha, hhead⟩ := Option.bind_eq_some_iff.1 hannotation
    obtain ⟨ha, hascription⟩ := mem_of_child? ha
    obtain ⟨hn, hnamed⟩ := List.mem_filter.1 (List.mem_of_head? hhead)
    exact (htypedProperty.part (by rw [hproperty]; rfl) ha).type hascription n hn hnamed hcomment
  · cases hn

end Syntax.Node

/-- The text `v` has the tokens of a node, which is no comment. -/
def Syntax.Node.keepsTokens (source : List Char) (n : Node) (v : List Char) : Bool :=
  n.kind != .comment && Syntax.keepsTokens (n.text source) (n.textBehind source) v

/-- The text has the tokens of a type that the source declares. -/
def IsDeclaredIn (source : List Char) (t : String) : Prop :=
  ∃ n ∈ (parse source).exportedTypes, n.keepsTokens source t.toList = true

instance (source : List Char) (t : String) : Decidable (IsDeclaredIn source t) :=
  inferInstanceAs (Decidable (∃ n ∈ _, _))

/-- **What has the tokens of a declared type reads as a type.** -/
theorem IsDeclaredIn.isType {source : List Char} {t : String} (h : IsDeclaredIn source t) :
    IsType (40 * (t.toList.length + 2)) t.toList := by
  obtain ⟨n, hn, hkeeps⟩ := h
  obtain ⟨hkind, hkeeps⟩ := Bool.and_eq_true_iff.1 hkeeps
  exact (Node.isReadAsType_of_mem_exportedTypes hn (bne_iff_ne.1 hkind)).isType hkeeps

/-! ### Declarations -/

variable {source : List Char} {path : String} {root : Node} {c : Cursor}

/-- The text is that of one of the types. -/
def IsTypeText (source : List Char) (types : List Node) (t : String) : Prop :=
  ∃ n ∈ types, t = collapsedText source n

/-- The types of what is declared are among those given; a property may have no type. -/
def Declaration.HasTypes (source : List Char) (types : List Node) : Declaration → Prop
  | .interface i _ _ => ∀ p ∈ i.properties, p.type = "any" ∨ IsTypeText source types p.type
  | .typeAlias a _ => IsTypeText source types a.type
  | .constants _ => True

theorem IsTypeText.mono {types more : List Node} {t : String} (h : IsTypeText source types t)
    (hmore : ∀ n ∈ types, n ∈ more) : IsTypeText source more t := by
  obtain ⟨n, hn, ht⟩ := h
  exact ⟨n, hmore n hn, ht⟩

theorem Declaration.HasTypes.mono {types more : List Node} {d : Declaration}
    (h : d.HasTypes source types) (hmore : ∀ n ∈ types, n ∈ more) : d.HasTypes source more := by
  cases d with
  | interface i roles warnings => exact fun p hp => (h p hp).imp_right fun hp => hp.mono hmore
  | typeAlias a roles => exact IsTypeText.mono h hmore
  | constants values => trivial

/-- The properties of an interface, as nodes. -/
theorem map_node_members (c : Cursor) :
    ((((c.child? .body).map (·.namedChildren)).getD []).filter
      (·.node.kind == .propertySignature)).map Cursor.node = c.node.propertyNodes := by
  rw [Node.propertyNodes, ← Cursor.node_child?]
  rcases c.child? .body with _ | b
  · rfl
  · have hchildren := Cursor.map_node_siblings b.node b.way [] b.node.children
    simp only [Option.map_some, Option.getD_some, Node.namedChildren, Cursor.namedChildren,
      Cursor.children]
    conv_rhs => rw [← hchildren]
    rw [List.filter_map, List.filter_map]
    rfl

theorem hasTypes_interfaceOf {d : Declaration} (h : interfaceOf source path c = .ok d) :
    d.HasTypes source (c.node.propertyNodes.filterMap Node.annotation?) := by
  unfold interfaceOf at h
  rcases hname : declaredName source "interface" c.node with f | name <;> rw [hname] at h
  · cases h
  obtain rfl := Except.ok.inj h
  intro p hp
  obtain ⟨m, hm, hproperty⟩ := exists_of_mem_propertiesOf path name hp
  have hnode : m.node ∈ c.node.propertyNodes := by
    rw [← map_node_members]
    exact List.mem_map_of_mem hm
  have htype := (isFrom_propertyOf hproperty).type
  rw [propertyType] at htype
  split at htype
  · rename_i n hn
    exact .inr ⟨n, List.mem_filterMap.2 ⟨m.node, hnode, hn⟩, htype⟩
  · exact .inl htype

theorem hasTypes_typeAliasOf {d : Declaration} (h : typeAliasOf source c = .ok d) :
    d.HasTypes source (c.node.child? .value).toList := by
  unfold typeAliasOf at h
  rcases hname : declaredName source "type alias" c.node with f | name <;> rw [hname] at h
  · cases h
  rcases hvalue : c.node.child? .value with _ | value <;> simp only [hvalue] at h
  · cases h
  obtain rfl := Except.ok.inj h
  exact ⟨value, List.mem_singleton.2 rfl, rfl⟩

theorem hasTypes_exportOf (hc : c.IsIn root) (hkind : c.node.kind = .exportStatement)
    {d : Declaration} (h : exportOf source path c = some (.ok d)) :
    d.HasTypes source root.exportedTypes := by
  unfold exportOf at h
  split at h
  · split_ifs at h
    simp at h
  rename_i inner hinner
  simp only at h
  split_ifs at h with hunsupported herror
  · simp at h
  rcases hd : declarationOf source path inner with f | d' <;>
    simp only [hd, Except.mapError, Option.some.injEq, reduceCtorEq, Except.ok.injEq] at h
  subst h
  -- what the declaration holds is declared in the export
  have hexport : ∀ n ∈ c.node.declaredTypes, n ∈ root.exportedTypes := by
    intro n hn
    refine List.mem_flatMap.2 ⟨c.node, List.mem_filter.2 ⟨?_, ?_⟩, hn⟩
    · rw [← Cursor.map_node_walk]
      exact List.mem_map_of_mem (Cursor.mem_walk_iff.2 hc)
    · simp [hkind, herror]
  have hchild : c.node.child? .declaration = some inner.node := by
    rw [← Cursor.node_child?, hinner]
    rfl
  have hdeclared : ∀ types, types = c.node.declaredTypes → d'.HasTypes source types →
      d'.HasTypes source root.exportedTypes := by
    rintro _ rfl htypes
    exact htypes.mono hexport
  unfold declarationOf at hd
  split at hd
  · rename_i hinterface
    refine hdeclared _ ?_ (hasTypes_interfaceOf hd)
    simp [Node.declaredTypes, hchild, hinterface]
  · rename_i halias
    refine hdeclared _ ?_ (hasTypes_typeAliasOf hd)
    simp [Node.declaredTypes, hchild, halias]
  · obtain rfl := Except.ok.inj hd
    trivial

/-- The types of what has been found are among those given. -/
structure Findings.HasTypes (source : List Char) (types : List Node) (s : Findings) : Prop where
  interfaces : ∀ e ∈ s.interfaces, ∀ p ∈ e.2.properties,
    p.type = "any" ∨ IsTypeText source types p.type
  types : ∀ e ∈ s.types, IsTypeText source types e.2.type

theorem Findings.HasTypes.add {s : Findings} {types : List Node} (h : s.HasTypes source types)
    {d : Declaration} (hd : d.HasTypes source types) : (s.add d).HasTypes source types := by
  cases d with
  | interface i roles warnings =>
    rw [Findings.add, foldl_warn]
    refine ⟨fun e he => ?_, h.types⟩
    obtain rfl | hold := Keyed.mem_of_mem_put he
    · exact hd
    · exact h.interfaces e hold
  | typeAlias a roles =>
    refine ⟨h.interfaces, fun e he => ?_⟩
    obtain rfl | hold := Keyed.mem_of_mem_put he
    · exact hd
    · exact h.types e hold
  | constants values =>
    obtain ⟨version, constants, hadded⟩ := foldl_addConstant s values
    rw [Findings.add, hadded]
    exact ⟨h.interfaces, h.types⟩

/-- **The types of the schema of a tree are those that it exports.** -/
theorem Schema.hasTypes (source : List Char) (path : String) (root : Node) :
    (∀ e ∈ (ofTree source path root).schema.interfaces, ∀ p ∈ e.2.properties,
      p.type = "any" ∨ IsTypeText source root.exportedTypes p.type) ∧
    ∀ e ∈ (ofTree source path root).schema.types,
      IsTypeText source root.exportedTypes e.2.type := by
  have hfound : ((Cursor.walk root).foldl (Findings.visit source path) {}).HasTypes source
      root.exportedTypes :=
    Findings.foldl_visit_of ⟨by simp, by simp⟩ (fun s f hs => ⟨hs.interfaces, hs.types⟩)
      fun s c d hc hkind hexport hs =>
        hs.add (hasTypes_exportOf (Cursor.mem_walk_iff.1 hc) hkind hexport)
  unfold ofTree
  generalize (Cursor.walk root).foldl _ _ = s at hfound
  exact ⟨hfound.interfaces, hfound.types⟩

end ServiceScaffold
