import ServiceScaffold.Proofs.Results
import ServiceScaffold.Proofs.Schema.Descriptions
import ServiceScaffold.Proofs.Service.Routes

/-!
# The declared types of a service

A service declares its resources, and the other interfaces and aliases of its schema.  Whatever the
role of a name, the type that is declared under it is the one that the schema has there.

* `DeclaredType.ofResource_cases` : a resource is an interface, or else an alias without fields;
* `Service.types_ofSchema` : the resources, the other interfaces and the other aliases, in order;
* `DeclaredType.IsOf` : the type is the interface or the alias of its name in a schema;
* `Service.isOf_ofSchema` : **the types of a service are those of its schema**;
* `Service.types_exact` : **the types of a service, exactly**: their order, how often each name is
  declared, and what a resource holds.
-/

namespace ServiceScaffold

/-- Values that stand under their names are filtered by name as their entries are by key. -/
theorem NamedBy.filter_values {α : Type} {nameOf : α → String} {entries : List (String × α)}
    (h : NamedBy nameOf entries) (p : String → Bool) :
    (entries.map Prod.snd).filter (fun a => p (nameOf a)) =
      (entries.filter fun e => p e.1).map Prod.snd := by
  rw [List.filter_map]
  congr 1
  refine List.filter_congr fun e he => ?_
  rw [Function.comp_apply, ← (h.own he).1]

/-- The type is the interface or the alias of its name in the schema. -/
structure DeclaredType.IsOf (schema : Schema) (t : DeclaredType) : Prop where
  interface : t.aliasOf = none → ∃ i, schema.interface? t.name = some i ∧
    t.fields = i.properties.map Field.ofProperty
  typeAlias {a : String} : t.aliasOf = some a → ∃ b, schema.alias? t.name = some b ∧ a = b.type
  /-- A resource that is not described is described by its name. -/
  description : t.description = "" ∨ t.description ∈ schema.descriptions ∨
    t.description = t.name ++ " resource"

namespace Schema

variable {schema : Schema} {name : String}

theorem mem_descriptions_of_interface? {i : Interface} {d : String}
    (h : schema.interface? name = some i) (hd : i.description = some d) :
    d ∈ schema.descriptions :=
  List.mem_append_left _ (List.mem_flatMap.2 ⟨(name, i), Keyed.mem_of_lookup h, by simp [hd]⟩)

theorem mem_descriptions_of_alias? {a : TypeAlias} {d : String}
    (h : schema.alias? name = some a) (hd : a.description = some d) : d ∈ schema.descriptions :=
  List.mem_append_right _ (List.mem_filterMap.2 ⟨(name, a), Keyed.mem_of_lookup h, hd⟩)

theorem mem_descriptions_of_descriptionOf {d : String} (h : schema.descriptionOf name = some d) :
    d ∈ schema.descriptions := by
  rw [descriptionOf, Option.orElse_eq_or, Option.or_eq_some_iff] at h
  obtain hinterface | ⟨-, halias⟩ := h
  · obtain ⟨i, hi, hd⟩ := Option.bind_eq_some_iff.1 hinterface
    exact mem_descriptions_of_interface? hi hd
  · obtain ⟨a, ha, hd⟩ := Option.bind_eq_some_iff.1 halias
    exact mem_descriptions_of_alias? ha hd

/-- The description of a field is that of a property. -/
theorem description_ofProperty {i : Interface} {p : Property} (h : schema.interface? name = some i)
    (hp : p ∈ i.properties) : (Field.ofProperty p).description = "" ∨
      (Field.ofProperty p).description ∈ schema.descriptions := by
  rcases hd : p.description with _ | d
  · exact .inl (by simp [Field.ofProperty, hd])
  · have hmem : d ∈ schema.descriptions := List.mem_append_left _
      (List.mem_flatMap.2 ⟨(name, i), Keyed.mem_of_lookup h,
        List.mem_append_right _ (List.mem_filterMap.2 ⟨p, hp, hd⟩)⟩)
    exact .inr (by simpa [Field.ofProperty, hd] using hmem)

end Schema

namespace DeclaredType

variable {schema : Schema}

/-- A resource has the fields of its interface, or it is an alias without fields. -/
theorem ofResource_cases {name : String} {r : Resource}
    (h : Resource.ofName schema name = .ok r) :
    (∃ i, schema.interface? r.name = some i ∧ (ofResource schema r).aliasOf = none ∧
      (ofResource schema r).fields = i.properties.map Field.ofProperty) ∨
    (schema.interface? r.name = none ∧ ∃ a, schema.alias? r.name = some a ∧
      (ofResource schema r).aliasOf = some a.type ∧ (ofResource schema r).fields = []) := by
  simp only [Resource.ofName] at h
  split_ifs at h with hdeclared hempty
  obtain rfl := Except.ok.inj h
  rcases hi : schema.interface? name with _ | i
  · rcases ha : schema.alias? name with _ | a
    · simp [Schema.isDeclared, hi, ha] at hdeclared
    · exact .inr ⟨rfl, a, rfl, by simp [ofResource, hi, ha], by simp [ofResource, hi]⟩
  · exact .inl ⟨i, rfl, by simp [ofResource, hi], by simp [ofResource, hi]⟩

/-- A resource is declared as the interface of its name, or else as the alias. -/
theorem isOf_ofResource {name : String} {r : Resource}
    (h : Resource.ofName schema name = .ok r) : (ofResource schema r).IsOf schema := by
  refine ⟨fun hnone => ?_, fun {a} hsome => ?_, ?_⟩
  · obtain ⟨i, hi, -, hfields⟩ | ⟨-, b, -, halias, -⟩ := ofResource_cases h
    · exact ⟨i, hi, hfields⟩
    · rw [hnone] at halias
      cases halias
  · obtain ⟨i, -, halias, -⟩ | ⟨-, b, hb, halias, -⟩ := ofResource_cases h
    · rw [hsome] at halias
      cases halias
    · exact ⟨b, hb, Option.some.inj (hsome.symm.trans halias)⟩
  · simp only [Resource.ofName] at h
    split_ifs at h
    obtain rfl := Except.ok.inj h
    rcases hd : schema.descriptionOf name with _ | d
    · exact .inr (.inr (by simp [ofResource]))
    · have hmem := Schema.mem_descriptions_of_descriptionOf hd
      exact .inr (.inl (by simpa [ofResource, hd] using hmem))

theorem isOf_ofInterface {i : Interface} (h : schema.interface? i.name = some i) :
    (ofInterface i).IsOf schema := by
  refine ⟨fun _ => ⟨i, h, rfl⟩, fun {a} hsome => (by cases hsome), ?_⟩
  rcases hd : i.description with _ | d
  · exact .inl (by simp [ofInterface, hd])
  · have hmem := Schema.mem_descriptions_of_interface? h hd
    exact .inr (.inl (by simpa [ofInterface, hd] using hmem))

theorem isOf_ofAlias {b : TypeAlias} (h : schema.alias? b.name = some b) :
    (ofAlias b).IsOf schema := by
  refine ⟨fun hnone => (by cases hnone), fun {a} hsome => ⟨b, h, (Option.some.inj hsome).symm⟩, ?_⟩
  rcases hd : b.description with _ | d
  · exact .inl (by simp [ofAlias, hd])
  · have hmem := Schema.mem_descriptions_of_alias? h hd
    exact .inr (.inl (by simpa [ofAlias, hd] using hmem))

end DeclaredType

/-! ### The list of types -/

namespace Service

variable {name : String} {schema : Schema} {service : Service}

/-- The types of a service, part by part. -/
theorem types_ofSchema (hschema : schema.WellFormed) (h : ofSchema name schema = .ok service) :
    service.types = service.resources.map (DeclaredType.ofResource schema) ++
      ((schema.interfaces.filter (·.1 ∉ schema.roles.resources)).map fun e =>
        DeclaredType.ofInterface e.2) ++
      ((schema.types.filter (·.1 ∉ schema.roles.resources)).map fun e =>
        DeclaredType.ofAlias e.2) := by
  obtain ⟨-, hnames⟩ := isRouted_ofSchema h
  unfold ofSchema at h
  split at h
  · cases h
  rename_i rs hrs
  obtain rfl := Except.ok.inj h
  have hresource (n : String) : (!rs.any (·.name == n)) = decide (n ∉ schema.roles.resources) := by
    rw [← hnames, Bool.eq_iff_iff]
    simp
  simp only [declaredTypes, hresource]
  rw [hschema.interfaces.filter_values fun n => decide (n ∉ schema.roles.resources),
    hschema.types.filter_values fun n => decide (n ∉ schema.roles.resources), List.map_map,
    List.map_map]
  rfl

/-- Every resource of a service is the one that is made of its name. -/
theorem ofName_ofSchema (h : ofSchema name schema = .ok service) :
    ∀ r ∈ service.resources, Resource.ofName schema r.name = .ok r := by
  unfold ofSchema at h
  split at h
  · cases h
  rename_i rs hrs
  obtain rfl := Except.ok.inj h
  exact (Resource.ofName_of_ofNames hrs).1

/-- **The types of a service are those of its schema.** -/
theorem isOf_ofSchema (hschema : schema.WellFormed) (h : ofSchema name schema = .ok service) :
    ∀ t ∈ service.types, t.IsOf schema := by
  intro t ht
  rw [types_ofSchema hschema h] at ht
  obtain ht | halias := List.mem_append.1 ht
  · obtain hresource | hinterface := List.mem_append.1 ht
    · obtain ⟨r, hr, rfl⟩ := List.mem_map.1 hresource
      exact DeclaredType.isOf_ofResource (ofName_ofSchema h r hr)
    · obtain ⟨⟨key, i⟩, he, rfl⟩ := List.mem_map.1 hinterface
      replace he := List.mem_of_mem_filter he
      obtain ⟨rfl, -⟩ := hschema.interfaces.own he
      exact DeclaredType.isOf_ofInterface (Keyed.lookup_of_mem hschema.interfaces.distinct he)
  · obtain ⟨⟨key, a⟩, he, rfl⟩ := List.mem_map.1 halias
    replace he := List.mem_of_mem_filter he
    obtain ⟨rfl, -⟩ := hschema.types.own he
    exact DeclaredType.isOf_ofAlias (Keyed.lookup_of_mem hschema.types.distinct he)

/-- The names of the types of a service, part by part. -/
theorem typeNames_ofSchema (hschema : schema.WellFormed) (h : ofSchema name schema = .ok service) :
    service.types.map DeclaredType.name = schema.roles.resources ++
      (Keyed.keys schema.interfaces).filter (· ∉ schema.roles.resources) ++
      (Keyed.keys schema.types).filter (· ∉ schema.roles.resources) := by
  have hinterfaces : ((schema.interfaces.filter (·.1 ∉ schema.roles.resources)).map
      fun e => (DeclaredType.ofInterface e.2).name) =
      (Keyed.keys schema.interfaces).filter (· ∉ schema.roles.resources) := by
    rw [Keyed.keys, List.filter_map]
    exact List.map_congr_left fun e he =>
      ((hschema.interfaces.own (List.mem_of_mem_filter he)).1).symm
  have htypes : ((schema.types.filter (·.1 ∉ schema.roles.resources)).map
      fun e => (DeclaredType.ofAlias e.2).name) =
      (Keyed.keys schema.types).filter (· ∉ schema.roles.resources) := by
    rw [Keyed.keys, List.filter_map]
    exact List.map_congr_left fun e he => ((hschema.types.own (List.mem_of_mem_filter he)).1).symm
  rw [types_ofSchema hschema h, List.map_append, List.map_append, List.map_map, List.map_map,
    List.map_map]
  exact congrArg₂ _ (congrArg₂ _ (isRouted_ofSchema h).2 hinterfaces) htypes

/-- The types of the resources among the types of a service. -/
def resourceTypes (service : Service) : List DeclaredType := service.types.filter (·.isResource)

/-- The types of the resources are the first part of the types of a service. -/
theorem resourceTypes_ofSchema (hschema : schema.WellFormed)
    (h : ofSchema name schema = .ok service) :
    service.resourceTypes = service.resources.map (DeclaredType.ofResource schema) := by
  rw [resourceTypes, types_ofSchema hschema h, List.filter_append, List.filter_append]
  simp [List.filter_map, Function.comp_def, DeclaredType.ofResource, DeclaredType.ofInterface,
    DeclaredType.ofAlias]

/-- How often a name stands among different names, less those of a list. -/
theorem count_filter_notMem {names others : List String} (h : names.Nodup) (n : String) :
    (names.filter (· ∉ others)).count n = if n ∈ others then 0 else if n ∈ names then 1 else 0 := by
  split_ifs with hother hname
  · exact List.count_eq_zero.2 fun hmem => by simp [hother] at hmem
  · rw [List.count_filter (by simpa using hother), h.count, if_pos hname]
  · exact List.count_eq_zero.2 fun hmem => hname (List.mem_of_mem_filter hmem)

/-- How often a name stands among the types of a service. -/
theorem count_typeNames (hschema : schema.WellFormed) (h : ofSchema name schema = .ok service)
    (n : String) :
    (service.types.map DeclaredType.name).count n = if n ∈ schema.roles.resources then 1
      else (schema.interface? n).isSome.toNat + (schema.alias? n).isSome.toNat := by
  have hisSome {α : Type} (entries : List (String × α)) :
      (if n ∈ Keyed.keys entries then 1 else 0) = (Keyed.lookup n entries).isSome.toNat := by
    simp only [← Keyed.lookup_isSome]
    cases (Keyed.lookup n entries).isSome <;> rfl
  have hresources : schema.roles.resources.Nodup := hschema.distinct .resource
  rw [typeNames_ofSchema hschema h, List.count_append, List.count_append,
    count_filter_notMem hschema.interfaces.distinct, count_filter_notMem hschema.types.distinct,
    hisSome, hisSome, hresources.count]
  split_ifs
  · rfl
  · rw [Nat.zero_add]
    rfl

/-- **The types of a service, exactly**, if its schema is that of a tree.  They are the resources, in
the order of their names, then the interfaces and then the aliases that are none, in the order of
their declarations.  So a name stands there once if it is that of a resource, and else as often as it
is declared.  A resource that is declared as an alias only is an alias without fields, every other one
has the fields of its interface. -/
theorem types_exact (hx : schema.IsOfTree) (h : ofSchema name schema = .ok service) :
    (service.types = service.resourceTypes ++
      ((schema.interfaces.filter (·.1 ∉ schema.roles.resources)).map fun e =>
        DeclaredType.ofInterface e.2) ++
      ((schema.types.filter (·.1 ∉ schema.roles.resources)).map fun e =>
        DeclaredType.ofAlias e.2)) ∧
    service.resourceTypes.map DeclaredType.name = schema.roles.resources ∧
    (∀ n, (n ∈ schema.roles.resources → (service.types.map DeclaredType.name).count n = 1) ∧
      (schema.isDeclared n = false → (service.types.map DeclaredType.name).count n = 0) ∧
      (n ∉ schema.roles.resources → (service.types.map DeclaredType.name).count n =
        (schema.interface? n).isSome.toNat + (schema.alias? n).isSome.toNat)) ∧
    ∀ t ∈ service.resourceTypes,
      (∃ i, schema.interface? t.name = some i ∧ t.aliasOf = none ∧
        t.fields = i.properties.map Field.ofProperty) ∨
      (schema.interface? t.name = none ∧ ∃ a, schema.alias? t.name = some a ∧
        t.aliasOf = some a.type ∧ t.fields = []) := by
  have hschema := hx.wellFormed
  have htypes := resourceTypes_ofSchema hschema h
  refine ⟨?_, ?_, fun n => ?_, fun t ht => ?_⟩
  · rw [htypes, types_ofSchema hschema h]
  · rw [htypes, List.map_map]
    exact (isRouted_ofSchema h).2
  · rw [count_typeNames hschema h]
    refine ⟨fun hresource => if_pos hresource, fun hnone => ?_, fun hother => if_neg hother⟩
    -- what is not declared is no resource either
    have hother : n ∉ schema.roles.resources := fun hresource => by
      have hdeclared := Schema.isDeclared_iff.2 (@hschema.declared .resource n hresource)
      rw [hnone] at hdeclared
      cases hdeclared
    obtain ⟨hinterface, halias⟩ := Bool.or_eq_false_iff.1 hnone
    rw [if_neg hother, hinterface, halias]
    rfl
  · rw [htypes] at ht
    obtain ⟨r, hr, rfl⟩ := List.mem_map.1 ht
    exact DeclaredType.ofResource_cases (ofName_ofSchema h r hr)

/-- A resource, and a name that is declared twice. -/
def declaredTwice : String :=
  "/** @resource */ export type Tag = 1; export interface Label \x7b\x7d export type Label = 1;"

theorem types_exact_declaredTwice : ∃ x service,
    Schema.ofSource declaredTwice "note.ts" = .ok x ∧
    ofSchema "notes" x.schema = .ok service ∧
    service.resourceTypes.map DeclaredType.name = ["Tag"] ∧
    (service.types.map DeclaredType.name).count "Tag" = 1 ∧
    (service.types.map DeclaredType.name).count "Label" = 2 := by
  have hkernel : (Schema.ofSource declaredTwice "note.ts").toOption.any (fun x =>
      x.schema.roles.resources == ["Tag"] && (x.schema.interface? "Label").isSome &&
        (x.schema.alias? "Label").isSome && (ofSchema "notes" x.schema).toOption.isSome) = true := by
    decide +kernel
  obtain ⟨x, hx, hpassed⟩ := exists_ok_of_any hkernel
  simp only [Bool.and_eq_true, beq_iff_eq] at hpassed
  obtain ⟨⟨⟨hroles, hinterface⟩, halias⟩, hmapped⟩ := hpassed
  obtain ⟨service, hservice⟩ := exists_ok_of_isSome hmapped
  obtain ⟨-, hnames, hcount, -⟩ := types_exact (Schema.isOfTree_of_ofSource hx) hservice
  refine ⟨x, service, hx, hservice, hnames.trans hroles, (hcount "Tag").1 (by simp [hroles]), ?_⟩
  rw [(hcount "Label").2.2 (by simp [hroles]), hinterface, halias]
  rfl

end Service

end ServiceScaffold
