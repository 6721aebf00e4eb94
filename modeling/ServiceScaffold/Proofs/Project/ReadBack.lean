import ServiceScaffold.Proofs.Project.Definitions
import ServiceScaffold.Proofs.Results
import ServiceScaffold.Proofs.ScalarType.Mapping
import ServiceScaffold.Proofs.Schema.Programs
import ServiceScaffold.Proofs.Schema.TypeTexts
import ServiceScaffold.Proofs.Service.DeclaredTypes

/-!
# Type definitions that are read back

The type definitions of a project are TypeScript as the schema that they come from.  They are pasted
together from texts of that schema, and say the same only if each text can stand where it is
pasted: a property has a name that needs no quotes, a type keeps the tokens with which it was
declared, and a description does not close its comment.

* `Schema.IsWritable` : the texts of a schema can stand where they are pasted;
* `Service.isRead_definitionLines` : then every line is read as what it is meant to declare;
* `Schema.definitions_read_back` : **the type definitions of a writable schema are extracted without
  warnings, and the interfaces among them have the properties of the service**;
* `Schema.definitions_differ` : a property that was quoted is read back as another one.
-/

namespace ServiceScaffold

open Syntax DocComment

/-! ### What can be written -/

/-- The type to which a declared type is mapped can be written down: the declared type keeps its
tokens, and a type of a list is one of the source, or a type by itself. -/
def IsWritableType (source : List Char) (declared : String) : Prop :=
  let mapped := ScalarType.map declared
  if mapped.repeated then
    IsDeclaredIn source mapped.type ∨ IsDeclaredIn (aliasSource "T" mapped.type).toList mapped.type
  else declared = "any" ∨ IsDeclaredIn source declared

instance (source : List Char) (declared : String) : Decidable (IsWritableType source declared) :=
  inferInstanceAs (Decidable (ite _ _ _))

/-- The texts of the schema of a source can stand where the template of type definitions pastes
them. -/
structure Schema.IsWritable (source : List Char) (s : Schema) : Prop where
  /-- A property has a name that needs no quotes. -/
  names : ∀ e ∈ s.interfaces, ∀ p ∈ e.2.properties, isBareName p.name.toList = true
  types : ∀ e ∈ s.interfaces, ∀ p ∈ e.2.properties, IsWritableType source p.type
  aliases : ∀ e ∈ s.types, IsDeclaredIn source e.2.type
  /-- The name of a resource is no word that starts a type of another kind. -/
  resources : ∀ name ∈ s.roles.resources, name ∉ Grammar.typeWords
  /-- No description is the one comment that closes itself. -/
  descriptions : ∀ d ∈ s.descriptions, d.toList ≠ shortest
  version : s.version.toList.all (!isLineEnd ·) = true

instance (source : List Char) (s : Schema) : Decidable (s.IsWritable source) :=
  decidable_of_iff
    ((∀ e ∈ s.interfaces, ∀ p ∈ e.2.properties, isBareName p.name.toList = true) ∧
      (∀ e ∈ s.interfaces, ∀ p ∈ e.2.properties, IsWritableType source p.type) ∧
      (∀ e ∈ s.types, IsDeclaredIn source e.2.type) ∧
      (∀ name ∈ s.roles.resources, name ∉ Grammar.typeWords) ∧
      (∀ d ∈ s.descriptions, d.toList ≠ shortest) ∧ s.version.toList.all (!isLineEnd ·) = true)
    ⟨fun ⟨names, types, aliases, resources, descriptions, version⟩ =>
      ⟨names, types, aliases, resources, descriptions, version⟩,
      fun h => ⟨h.names, h.types, h.aliases, h.resources, h.descriptions, h.version⟩⟩

theorem isTypeName_of_mem_scalarNames {name : String} (h : name ∈ scalarNames) :
    IsTypeName name.toList := by
  have hnames : ∀ name ∈ scalarNames,
      IsName name.toList ∧ String.ofList name.toList ∉ Grammar.typeWords := by decide +kernel
  exact ⟨(hnames name h).1, (hnames name h).2⟩

theorem IsDeclaredIn.ne_empty {source : List Char} {t : String} (h : IsDeclaredIn source t) :
    t ≠ "" := by
  rintro rfl
  obtain ⟨n, -, hkeeps⟩ := h
  cases (Bool.and_eq_true_iff.1 hkeeps).2

/-- A type that can be written down reads as a type. -/
theorem IsWritableType.isType {source : List Char} {declared : String}
    (h : IsWritableType source declared) (hcollapsed : IsCollapsed declared) :
    IsType (40 * ((ScalarType.map declared).type.toList.length + 2))
      (ScalarType.map declared).type.toList := by
  unfold IsWritableType at h
  dsimp only at h
  split_ifs at h with hrepeated
  · obtain hkept | halone := h
    · exact hkept.isType
    · exact halone.isType
  · have htrim : Text.trim declared.toList = declared.toList := by
      rw [← hcollapsed, Text.trim_collapseBlanks]
    rw [map_of_not_repeated (by simpa using hrepeated), htrim, String.ofList_toList]
    obtain hsame | hscalar := mapScalar_mem declared
    · rw [hsame]
      obtain rfl | hkept := h
      · exact Schema.isType_any
      · exact hkept.isType
    · refine (isTypeName_of_mem_scalarNames hscalar).isType.mono ?_
      rw [depth]
      omega

/-! ### Lines that are read -/

/-- How deep goals may be nested in the types of a text of a length. -/
def linesDepth (n : Nat) : Nat := 40 * (n + 2)

theorem depth_lt_linesDepth (n : Nat) : depth + 1 ≤ linesDepth n := by
  rw [depth, linesDepth]
  omega

theorem isType_of_length {t : String} {n : Nat} (h : IsType (linesDepth t.toList.length) t.toList)
    (hn : t.toList.length ≤ n) : IsType (linesDepth n) t.toList := by
  refine h.mono ?_
  rw [linesDepth, linesDepth]
  omega

theorem isGap_remark {indent description : String} (hindent : IsGap indent.toList)
    (h : ¬closer <:+: description.toList) : IsGap (remark indent description) := by
  unfold remark
  split_ifs
  · exact isGap_nil
  · exact hindent.append ((isGap_blockComment h).append isGap_newline)

theorem isGap_indent : IsGap "  ".toList := isGap_space.append isGap_space

/-- The line of a field is read as the field. -/
theorem Field.isRead_line {f : Field} {n : Nat} (hname : isBareName f.name.toList = true)
    (htype : IsType (linesDepth n) f.type.toList)
    (hdescription : ¬closer <:+: f.description.toList) : f.line.IsRead (linesDepth n) :=
  ⟨(isGap_remark isGap_indent hdescription).append isGap_indent, hname, htype⟩

theorem DeclaredType.lines_of_interface {t : DeclaredType} (h : t.aliasOf = none) :
    t.lines = .interface (remark "" t.description) t.name.toList (t.fields.map Field.line) := by
  rw [lines, h]
  rfl

theorem DeclaredType.lines_of_alias {t : DeclaredType} {a : String} (h : t.aliasOf = some a)
    (ha : a ≠ "") :
    t.lines = .typeAlias (remark "" t.description) t.name.toList a.toList := by
  rw [lines, h]
  simp [String.isEmpty_iff, ha]

/-! ### Messages -/

theorem isName_messageName {verb resource role : String} (h : IsName resource.toList)
    (hverb : (verb.toList.head?.any isNameStart && verb.toList.all isNameChar) = true)
    (hrole : role.toList.all isNameChar = true) : IsName (messageName verb resource role) := by
  obtain ⟨hstart, hverb⟩ := Bool.and_eq_true _ _ ▸ hverb
  unfold messageName
  rcases hcs : verb.toList with _ | ⟨c, front⟩ <;> rw [hcs] at hstart hverb
  · cases hstart
  · exact h.between hstart hverb hrole

theorem isRead_messageLine (name : String) (isOptional : Bool) {type : List Char}
    (hname : isBareName name.toList = true) (htype : IsType (depth + 1) type) :
    (messageLine name isOptional type).IsRead (depth + 1) :=
  ⟨isGap_indent, hname, htype⟩

/-- The messages of a resource have names, and their lines are read. -/
theorem Resource.isRead_messages {r : Resource} (h : IsTypeName r.name.toList) :
    ∀ m ∈ r.messages, IsName m.1 ∧ ∀ line ∈ m.2, line.IsRead (depth + 1) := by
  have hstring : IsType (depth + 1) "string".toList := IsTypeName.isType ⟨by decide, by decide⟩
  have hnumber : IsType (depth + 1) "number".toList := IsTypeName.isType ⟨by decide, by decide⟩
  have hboolean : IsType (depth + 1) "boolean".toList := IsTypeName.isType ⟨by decide, by decide⟩
  have hid := isRead_messageLine "id" false (by decide) hstring
  have hcursor := isRead_messageLine "cursor" true (by decide) hstring
  have hlimit := isRead_messageLine "limit" true (by decide) hnumber
  have hitems := isRead_messageLine "items" false (by decide) h.isType_list
  have hnext := isRead_messageLine "nextCursor" true (by decide) hstring
  have hdata := isRead_messageLine "data" false (by decide) h.isType
  have hpart := isRead_messageLine "data" false (by decide) h.isType_partial
  have hdeleted := isRead_messageLine "deleted" false (by decide) hboolean
  exact List.forall_iff_forall_mem.1 ⟨
    ⟨isName_messageName h.name (by decide) (by decide), by simpa using hid⟩,
    ⟨isName_messageName h.name (by decide) (by decide), by simpa using ⟨hcursor, hlimit⟩⟩,
    ⟨isName_messageName h.name (by decide) (by decide), by simpa using ⟨hitems, hnext⟩⟩,
    ⟨isName_messageName h.name (by decide) (by decide), by simpa using hdata⟩,
    ⟨isName_messageName h.name (by decide) (by decide), by simpa using ⟨hid, hpart⟩⟩,
    ⟨isName_messageName h.name (by decide) (by decide), by simpa using hid⟩,
    ⟨isName_messageName h.name (by decide) (by decide), by simpa using hdeleted⟩⟩

/-- A line of a message, with what stands before it. -/
theorem Resource.exists_of_mem_messageLines {r : Resource} {e : DeclarationLines}
    (h : e ∈ r.messageLines) : ∃ gap, (gap = [] ∨ gap = r.messagesHeading) ∧
      ∃ m ∈ r.messages, e = .interface gap m.1 m.2 := by
  unfold messageLines at h
  split at h
  · cases h
  · rename_i first rest hmessages
    rw [hmessages]
    obtain rfl | hrest := List.mem_cons.1 h
    · exact ⟨_, .inr rfl, first, List.mem_cons_self, rfl⟩
    · obtain ⟨m, hm, rfl⟩ := List.mem_map.1 hrest
      exact ⟨[], .inl rfl, m, List.mem_cons_of_mem _ hm, rfl⟩

theorem Resource.isGap_messagesHeading {r : Resource} (h : IsName r.name.toList) :
    IsGap r.messagesHeading := by
  refine (isGap_lineComment ?_).append isGap_newline
  rw [List.all_cons, List.all_append, h.not_isLineEnd]
  decide

theorem Resource.isRead_messageLines {r : Resource} (h : IsTypeName r.name.toList) (n : Nat) :
    ∀ e ∈ r.messageLines, e.IsRead (linesDepth n) := by
  intro e he
  obtain ⟨gap, hgap, m, hm, rfl⟩ := exists_of_mem_messageLines he
  obtain ⟨hname, hlines⟩ := isRead_messages h m hm
  refine ⟨?_, hname, fun line hline => (hlines line hline).mono (depth_lt_linesDepth n)⟩
  obtain rfl | rfl := hgap
  · exact isGap_nil
  · exact isGap_messagesHeading h.name

/-! ### Services -/

theorem Service.isGap_definitionsHeading {s : Service} {schema : FilePath}
    (hversion : s.protocolVersion.toList.all (!isLineEnd ·) = true)
    (hschema : schema.text.toList.all (!isLineEnd ·) = true) :
    IsGap (s.definitionsHeading schema) := by
  refine ((isGap_lineComment ?_).append (isGap_lineComment ?_)).append isGap_newline
  · simp only [List.all_append, hschema]
    decide
  · simp only [List.all_append, hversion]
    decide

section

variable {source path name : String} {x : Extraction} {service : Service}

theorem Service.protocolVersion_ofSchema {schema : Schema}
    (h : Service.ofSchema name schema = .ok service) :
    service.protocolVersion = schema.version := by
  unfold Service.ofSchema at h
  split at h
  · cases h
  · obtain rfl := Except.ok.inj h
    rfl

/-- No description closes its comment. -/
theorem Schema.IsWritable.not_isInfix (hx : x.schema.IsWritable source.toList)
    (h : Schema.ofSource source path = .ok x) {d : String} (hd : d ∈ x.schema.descriptions) :
    ¬closer <:+: d.toList := by
  intro hcloser
  have hshortest := ((closer_isInfix_description h hd).1 hcloser).1
  exact hx.descriptions d hd hshortest

theorem not_isInfix_of_slash_notMem {cs : List Char} (h : '/' ∉ cs) : ¬closer <:+: cs :=
  fun hcloser => h (hcloser.subset (by decide))

/-- A type is written in one piece. -/
theorem length_type_le {members : List MemberLine} {m : MemberLine} (h : m ∈ members)
    (gap w : List Char) :
    m.property.type.length ≤ (DeclarationLines.interface gap w members).text.length := by
  have hline : m.text.length ≤ (members.flatMap MemberLine.text).length :=
    (List.sublist_flatten_of_mem (List.mem_map_of_mem h)).length_le
  simp only [MemberLine.text, List.length_append, List.length_cons] at hline
  simp only [DeclarationLines.text, interfaceText, bodyLines, List.length_append, List.length_cons]
  omega

theorem DeclaredType.IsOf.isName {t : DeclaredType} (ht : t.IsOf x.schema)
    (h : Schema.ofSource source path = .ok x) : IsName t.name.toList := by
  refine Schema.isName_of_declared h ?_
  rcases hof : t.aliasOf with _ | a
  · obtain ⟨i, hi, -⟩ := ht.interface hof
    exact .inl (Keyed.lookup_isSome.1 (Option.isSome_of_eq_some hi))
  · obtain ⟨b, hb, -⟩ := ht.typeAlias hof
    exact .inr (Keyed.lookup_isSome.1 (Option.isSome_of_eq_some hb))

namespace Schema.IsWritable

theorem not_isInfix_description (hx : x.schema.IsWritable source.toList)
    (h : Schema.ofSource source path = .ok x) {t : DeclaredType} (ht : t.IsOf x.schema) :
    ¬closer <:+: t.description.toList := by
  obtain hnone | hd | hresource := ht.description
  · rw [hnone]
    decide
  · exact hx.not_isInfix h hd
  · rw [hresource, String.toList_append]
    refine not_isInfix_of_slash_notMem fun hslash => ?_
    obtain hname | hrest := List.mem_append.1 hslash
    · exact (ht.isName h).slash_notMem hname
    · exact absurd hrest (by decide)

/-- The line of a field is read as the field. -/
theorem isRead_line (hx : x.schema.IsWritable source.toList)
    (h : Schema.ofSource source path = .ok x) {i : Interface}
    (hi : x.schema.interface? name = some i) {p : Property} (hp : p ∈ i.properties)
    {n : Nat} (hn : (Field.ofProperty p).type.toList.length ≤ n) :
    (Field.ofProperty p).line.IsRead (linesDepth n) := by
  have he := Keyed.mem_of_lookup hi
  have hcollapsed := (Schema.isCollapsed h).2 _ i he p hp
  refine Field.isRead_line (hx.names _ he p hp)
    (isType_of_length ((hx.types _ he p hp).isType hcollapsed) hn) ?_
  obtain hnone | hd := description_ofProperty hi hp
  · rw [hnone]
    decide
  · exact hx.not_isInfix h hd

/-- The lines of a type are read as what it declares. -/
theorem isRead_lines (hx : x.schema.IsWritable source.toList)
    (h : Schema.ofSource source path = .ok x) {t : DeclaredType} (ht : t.IsOf x.schema) {n : Nat}
    (hn : t.lines.text.length ≤ n) : t.lines.IsRead (linesDepth n) := by
  have hgap : IsGap (remark "" t.description) :=
    isGap_remark isGap_nil (hx.not_isInfix_description h ht)
  rcases hof : t.aliasOf with _ | a
  · obtain ⟨i, hi, hfields⟩ := ht.interface hof
    rw [DeclaredType.lines_of_interface hof, hfields] at hn ⊢
    refine ⟨hgap, ht.isName h, fun m hm => ?_⟩
    have hlength := length_type_le hm (remark "" t.description) t.name.toList
    obtain ⟨f, hf, rfl⟩ := List.mem_map.1 hm
    obtain ⟨p, hp, rfl⟩ := List.mem_map.1 hf
    simp only [Field.line_property] at hlength
    exact hx.isRead_line h hi hp (hlength.trans hn)
  · obtain ⟨b, hb, rfl⟩ := ht.typeAlias hof
    have hkept := hx.aliases _ (Keyed.mem_of_lookup hb)
    rw [DeclaredType.lines_of_alias hof hkept.ne_empty] at hn ⊢
    refine ⟨hgap, ht.isName h, isType_of_length hkept.isType (le_trans ?_ hn)⟩
    simp only [DeclarationLines.text, aliasText, List.length_append, List.length_cons]
    omega

/-- **Every line of the type definitions is read as what it is meant to declare.** -/
theorem isRead_definitionLines (hx : x.schema.IsWritable source.toList)
    (h : Schema.ofSource source path = .ok x)
    (hservice : Service.ofSchema name x.schema = .ok service) {n : Nat}
    (hn : (service.definitionLines.flatMap DeclarationLines.text).length ≤ n) :
    ∀ e ∈ service.definitionLines, e.IsRead (linesDepth n) := by
  intro e he
  have hlength : e.text.length ≤ n :=
    (List.sublist_flatten_of_mem (List.mem_map_of_mem he)).length_le.trans hn
  obtain htype | hmessage := List.mem_append.1 he
  · obtain ⟨t, ht, rfl⟩ := List.mem_map.1 htype
    exact hx.isRead_lines h (Service.isOf_ofSchema (wellFormed_of_ofSource h) hservice t ht) hlength
  · obtain ⟨r, hr, her⟩ := List.mem_flatMap.1 hmessage
    have hrole : r.name ∈ x.schema.roles.resources := by
      rw [← (Service.isRouted_ofSchema hservice).2]
      exact List.mem_map_of_mem hr
    have hdeclared := @(wellFormed_of_ofSource h).declared .resource r.name hrole
    have hname := isName_of_declared h hdeclared
    have hfree := hx.resources r.name hrole
    exact Resource.isRead_messageLines ⟨hname, by simpa using hfree⟩ n e her

theorem aliasOf_eq_none (hx : x.schema.IsWritable source.toList) {t : DeclaredType}
    (ht : t.IsOf x.schema)
    (hempty : (t.aliasOf.getD "").isEmpty = true) : t.aliasOf = none := by
  rcases hof : t.aliasOf with _ | a
  · rfl
  · obtain ⟨b, hb, rfl⟩ := ht.typeAlias hof
    have hnil : b.type = "" := by simpa [hof] using hempty
    exact absurd hnil (hx.aliases _ (Keyed.mem_of_lookup hb)).ne_empty

end Schema.IsWritable

/-! ### Declarations that are read back -/

/-- Lines below a gap are extracted as their declarations, without warnings. -/
theorem Schema.ofSource_lines {heading : List Char} {lines : List DeclarationLines} {n : Nat}
    (hheading : IsGap heading) (hlines : ∀ e ∈ lines, e.IsRead (linesDepth n))
    (hn : n = (lines.flatMap DeclarationLines.text).length) (path : String) :
    ∃ xs, List.Forall₂ DeclarationText.Tells (lines.map DeclarationLines.declaration) xs ∧
      ofSource (String.ofList (heading ++ lines.flatMap DeclarationLines.text)) path =
        .ok ⟨(xs.foldl Findings.add {}).schema, []⟩ := by
  refine ofSource_program (?_ : linesDepth n + 5 < _) ?_ path
  · rw [String.toList_ofList, List.length_append, ← hn, linesDepth]
    omega
  · rw [String.toList_ofList]
    exact (program_lines hlines).gap hheading

theorem Syntax.PropertyText.map_of_tells {ps : List PropertyText} {ys : List Property}
    (h : List.Forall₂ PropertyText.Tells ps ys) :
    ys.map (fun y => (y.name, y.isOptional)) =
      ps.map fun p => (String.ofList p.name, p.isOptional) := by
  induction h with
  | nil => rfl
  | cons first _ ih => rw [List.map_cons, List.map_cons, first.name, first.isOptional, ih]

/-- An interface in the type definitions is that of a message or that of a type. -/
theorem Service.mem_declarations {w : List Char} {ps : List PropertyText}
    (h : .interface w ps ∈ service.definitionLines.map DeclarationLines.declaration) :
    String.ofList w ∈ service.messageNames ∨ ∃ t ∈ service.types,
      (t.aliasOf.getD "").isEmpty = true ∧ w = t.name.toList ∧
        ps = (t.fields.map Field.line).map MemberLine.property := by
  obtain ⟨e, he, hdeclared⟩ := List.mem_map.1 h
  obtain htype | hmessage := List.mem_append.1 he
  · obtain ⟨t, ht, rfl⟩ := List.mem_map.1 htype
    by_cases hempty : (t.aliasOf.getD "").isEmpty = true
    · obtain ⟨rfl, rfl⟩ : t.name.toList = w ∧
          (t.fields.map Field.line).map MemberLine.property = ps := by
        simpa [DeclaredType.lines, hempty, DeclarationLines.declaration] using hdeclared
      exact .inr ⟨t, ht, hempty, rfl, rfl⟩
    · simp [DeclaredType.lines, hempty, DeclarationLines.declaration] at hdeclared
  · obtain ⟨r, hr, her⟩ := List.mem_flatMap.1 hmessage
    obtain ⟨gap, -, m, hm, rfl⟩ := Resource.exists_of_mem_messageLines her
    obtain ⟨rfl, -⟩ := DeclarationText.interface.inj hdeclared
    exact .inl (List.mem_flatMap.2 ⟨r, hr, List.mem_map_of_mem hm⟩)

/-- **The type definitions of a writable schema are read back**, without warnings: every type that
is no alias and shares its name with no message is an interface with the properties of its fields,
in order, and those that are not required are optional. -/
theorem Schema.definitions_read_back (h : Schema.ofSource source path = .ok x)
    (hx : x.schema.IsWritable source.toList) (hservice : Service.ofSchema name x.schema = .ok service)
    (schemaFile : FilePath) (hfile : schemaFile.text.toList.all (!isLineEnd ·) = true)
    (now : Instant) (targetVersion path' : String) :
    ∃ text y, Template.render Project.definitionsTemplate (Project.taskData
          (Project.metadata now targetVersion schemaFile) service none) = .ok text ∧
      Schema.ofSource text path' = .ok y ∧ y.warnings = [] ∧
      ∀ t ∈ service.types, t.aliasOf = none → t.name ∉ service.messageNames →
        ∃ i, y.schema.interface? t.name = some i ∧
          i.properties.map (fun p => (p.name, p.isOptional)) =
            t.fields.map fun f => (f.name, !f.required) := by
  have hof := Service.isOf_ofSchema (Schema.wellFormed_of_ofSource h) hservice
  have hversion : service.protocolVersion.toList.all (!isLineEnd ·) = true := by
    rw [Service.protocolVersion_ofSchema hservice]
    exact hx.version
  obtain ⟨xs, htells, hread⟩ := Schema.ofSource_lines
    (Service.isGap_definitionsHeading hversion hfile)
    (hx.isRead_definitionLines h hservice le_rfl) rfl path'
  refine ⟨_, _, Project.render_definitionsTemplate now targetVersion schemaFile service, hread, rfl,
    fun t ht hnone hmessage => ?_⟩
  obtain ⟨i, hi, hfields⟩ := (hof t ht).interface hnone
  have hmem : .interface t.name.toList ((t.fields.map Field.line).map MemberLine.property) ∈
      service.definitionLines.map DeclarationLines.declaration := by
    refine List.mem_map.2 ⟨t.lines, List.mem_append_left _ (List.mem_map_of_mem ht), ?_⟩
    rw [DeclaredType.lines_of_interface hnone, DeclarationLines.declaration]
  -- all types of that name are the one interface of the schema
  have hsame : ∀ qs, .interface t.name.toList qs ∈
      service.definitionLines.map DeclarationLines.declaration →
      qs = (t.fields.map Field.line).map MemberLine.property := by
    intro qs hqs
    obtain hclash | ⟨other, hother, hempty, hname, rfl⟩ := Service.mem_declarations hqs
    · exact absurd (by simpa using hclash) hmessage
    · have hotherOf := hof other hother
      obtain ⟨j, hj, hothers⟩ := hotherOf.interface (hx.aliasOf_eq_none hotherOf hempty)
      rw [← String.toList_inj.1 hname, hi] at hj
      obtain rfl := Option.some.inj hj
      rw [hothers, hfields]
  obtain ⟨j, hj, hproperties⟩ := Findings.exists_lookup_foldl_add htells hsame {} (.inl hmem)
  rw [String.ofList_toList] at hj
  refine ⟨j, hj, ?_⟩
  rw [PropertyText.map_of_tells hproperties, List.map_map, List.map_map]
  exact List.map_congr_left fun f _ => by simp [Field.line_property]

end

/-- An interface with descriptions and quoted names, a resource and an alias. -/
def describedTypes : String :=
  "/** A note.\n * With text. */\nexport interface Note \x7b\n  /** Its title. */\n" ++
  "  \"title\": string;\n  tags?: Array<Tag>;\n  size: int32;\n  2: `a $\x7bLabel\x7d`;\n\x7d\n" ++
  "/** @resource */ export interface Tag \x7b label: Label \x7d\nexport type Label = 'a' | 'b';\n"

theorem Schema.definitions_read_back_described : ∃ x service text y,
    ofSource describedTypes "note.ts" = .ok x ∧ x.schema.IsWritable describedTypes.toList ∧
    Service.ofSchema "notes" x.schema = .ok service ∧
    Template.render Project.definitionsTemplate (Project.taskData
      (Project.metadata ⟨0⟩ "latest" (.ofString "note.ts")) service none) = .ok text ∧
    ofSource text "types.ts" = .ok y ∧ y.warnings = [] ∧
    ∃ i, y.schema.interface? "Note" = some i ∧
      i.properties.map (fun p => (p.name, p.isOptional)) =
        [("title", false), ("tags", true), ("size", false), ("2", false)] := by
  have hkernel : (ofSource describedTypes "note.ts").toOption.any (fun x =>
      decide (x.schema.IsWritable describedTypes.toList) &&
        (Service.ofSchema "notes" x.schema).toOption.any fun service =>
          service.types.any fun t => t.name == "Note" && t.aliasOf == none &&
            !service.messageNames.contains t.name &&
            t.fields.map (fun f => (f.name, !f.required)) ==
              [("title", false), ("tags", true), ("size", false), ("2", false)]) = true := by
    have hletters : describedTypes.toList = _ :=
      String.toList_append.trans (congrArg₂ _
        (String.toList_append.trans (congrArg₂ _ String.toList_ofList String.toList_ofList))
        String.toList_ofList)
    rw [ofSource, hletters]
    decide +kernel
  obtain ⟨x, hx, hpassed⟩ := exists_ok_of_any hkernel
  obtain ⟨hwritable, hmapped⟩ := Bool.and_eq_true_iff.1 hpassed
  rw [decide_eq_true_eq] at hwritable
  obtain ⟨service, hservice, htypes⟩ := exists_ok_of_any hmapped
  obtain ⟨t, ht, ⟨⟨hname, hnone⟩, hclash⟩, hfields⟩ : ∃ t ∈ service.types,
      ((t.name = "Note" ∧ t.aliasOf = none) ∧ t.name ∉ service.messageNames) ∧
        t.fields.map (fun f => (f.name, !f.required)) =
          [("title", false), ("tags", true), ("size", false), ("2", false)] := by
    simpa using htypes
  obtain ⟨text, y, htext, hy, hwarnings, hread⟩ := definitions_read_back hx hwritable hservice
    (.ofString "note.ts") (by decide) ⟨0⟩ "latest" "types.ts"
  obtain ⟨i, hi, hproperties⟩ := hread t ht hnone hclash
  exact ⟨x, service, text, y, hx, hwritable, hservice, htext, hy, hwarnings, i, hname ▸ hi,
    hproperties.trans hfields⟩

/-- An interface with a property whose name ends with a question mark. -/
def questionedName : String := "export interface Note \x7b \"x?\": string; \x7d"

/-- With its quotes, such a property loses its question mark: it is read back as an optional one,
under another name and without a warning. -/
theorem Schema.definitions_differ : ∃ x service text y,
    ofSource questionedName "schema.ts" = .ok x ∧ x.warnings = [] ∧
    Service.ofSchema "schema" x.schema = .ok service ∧
    service.types.map (fun t => (t.name, t.aliasOf, t.fields.map fun f => (f.name, f.required))) =
      [("Note", none, [("x?", true)])] ∧
    Template.render Project.definitionsTemplate (Project.taskData
      (Project.metadata ⟨0⟩ "latest" (.ofString "schema.ts")) service none) = .ok text ∧
    ofSource text "types.ts" = .ok y ∧ y.warnings = [] ∧
    y.schema.interfaces.map (fun e => (e.1, e.2.properties.map fun p => (p.name, p.isOptional))) =
      [("Note", [("x", true)])] := by
  have hkernel : (ofSource questionedName "schema.ts").toOption.any (fun x =>
      x.warnings.isEmpty && (Service.ofSchema "schema" x.schema).toOption.any fun service =>
        service.types.map (fun t =>
          (t.name, t.aliasOf, t.fields.map fun f => (f.name, f.required))) ==
            [("Note", none, [("x?", true)])] &&
        (ofSource (service.definitionsText (.ofString "schema.ts")) "types.ts").toOption.any fun y =>
          y.warnings.isEmpty && y.schema.interfaces.map (fun e =>
            (e.1, e.2.properties.map fun p => (p.name, p.isOptional))) ==
              [("Note", [("x", true)])]) = true := by
    have hletters : questionedName.toList = _ := String.toList_ofList
    rw [ofSource, hletters]
    decide +kernel
  obtain ⟨x, hx, hpassed⟩ := exists_ok_of_any hkernel
  obtain ⟨hquiet, hmapped⟩ := Bool.and_eq_true_iff.1 hpassed
  obtain ⟨service, hservice, hwritten⟩ := exists_ok_of_any hmapped
  obtain ⟨htypes, hread⟩ := Bool.and_eq_true_iff.1 hwritten
  obtain ⟨y, hy, hagain⟩ := exists_ok_of_any hread
  obtain ⟨hquietly, hinterfaces⟩ := Bool.and_eq_true_iff.1 hagain
  have htext := Project.render_definitionsTemplate ⟨0⟩ "latest" (.ofString "schema.ts") service
  exact ⟨x, service, _, y, hx, List.isEmpty_iff.1 hquiet, hservice, beq_iff_eq.1 htypes, htext, hy,
    List.isEmpty_iff.1 hquietly, beq_iff_eq.1 hinterfaces⟩

end ServiceScaffold
