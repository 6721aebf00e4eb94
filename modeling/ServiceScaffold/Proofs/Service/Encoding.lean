import Mathlib.Data.List.Basic
import ServiceScaffold.Dump
import ServiceScaffold.Proofs.Json.Records

/-!
# Dumps of services read back

The written form of every record of a service names all that the record is read from: each part is
written under the name under which it is read, and a kind or a method as the text that stands for
it.  An alias that is left out is read as none.

* `Service.decode?_encode` : a service is read back from its written form, record by record;
* `Service.readsBack_encode` : the text of the written form is read as the written form;
* `Service.dump_readsBack` : **every service is read back from its dump**.
-/

namespace ServiceScaffold

open Json

/-! ### Records of a service -/

theorem OperationKind.ofText?_text (k : OperationKind) : OperationKind.ofText? k.text = some k := by
  cases k <;> rfl

theorem HttpMethod.ofText?_text (m : HttpMethod) : HttpMethod.ofText? m.text = some m := by
  cases m <;> rfl

theorem Field.decode?_encode (f : Field) : Field.decode? f.encode = some f := rfl

theorem Field.readsBack_encode (f : Field) : ReadsBack (.record Field.layout) f.encode :=
  readsBack_obj (List.forall_iff_forall_mem.1 ⟨keepsField_str rfl _, keepsField_str rfl _,
    keepsField_bool rfl _, keepsField_bool rfl _, keepsField_str rfl _⟩)

theorem Operation.decode?_encode (o : Operation) : Operation.decode? o.encode = some o := by
  have hread : Record.read? layout o.encode = some [some (.str o.name), some (.str o.kind.text),
      some (.str o.method.text), some (.str o.route), some (.str o.inputType),
      some (.str o.outputType), some (.str o.description)] := rfl
  simp [Operation.decode?, hread, Record.text?, Record.caseName?, OperationKind.ofText?_text,
    HttpMethod.ofText?_text]

theorem Operation.readsBack_encode (o : Operation) :
    ReadsBack (.record Operation.layout) o.encode :=
  readsBack_obj (List.forall_iff_forall_mem.1 ⟨keepsField_str rfl _, keepsField_str rfl _,
    keepsField_str rfl _, keepsField_str rfl _, keepsField_str rfl _, keepsField_str rfl _,
    keepsField_str rfl _⟩)

theorem Resource.decode?_encode (r : Resource) : Resource.decode? r.encode = some r := by
  have hread : Record.read? layout r.encode = some [some (.str r.name), some (.str r.description),
      some (.str r.pluralPath), some (.arr (r.fields.map Field.encode)),
      some (.arr (r.operations.map Operation.encode))] := rfl
  simp [Resource.decode?, hread, Record.text?, Record.list?_map Field.decode?_encode,
    Record.list?_map Operation.decode?_encode]

theorem Resource.readsBack_encode (r : Resource) : ReadsBack (.record Resource.layout) r.encode :=
  readsBack_obj (List.forall_iff_forall_mem.1 ⟨keepsField_str rfl _, keepsField_str rfl _,
    keepsField_str rfl _, keepsField_list rfl Field.readsBack_encode _,
    keepsField_list rfl Operation.readsBack_encode _⟩)

/-- An alias that is none is left out, and read as none where it is absent. -/
theorem DeclaredType.decode?_encode (t : DeclaredType) :
    DeclaredType.decode? t.encode = some t := by
  obtain ⟨name, description, fields, aliasOf, isResource⟩ := t
  have hread : Record.read? layout (DeclaredType.mk name description fields aliasOf
      isResource).encode = some [some (.str name), some (.str description),
      some (.arr (fields.map Field.encode)), aliasOf.map .str, some (.bool isResource)] := by
    cases aliasOf <;> rfl
  cases aliasOf <;>
    simp [DeclaredType.decode?, hread, Record.text?, Record.bool?, Record.optionalText?,
      Record.list?_map Field.decode?_encode]

theorem DeclaredType.readsBack_encode (t : DeclaredType) :
    ReadsBack (.record DeclaredType.layout) t.encode := by
  obtain ⟨name, description, fields, aliasOf, isResource⟩ := t
  have hfields : KeepsField (.record DeclaredType.layout)
      ("fields", .arr (fields.map Field.encode)) :=
    keepsField_list rfl Field.readsBack_encode fields
  cases aliasOf with
  | none => exact readsBack_obj (List.forall_iff_forall_mem.1 ⟨keepsField_str rfl _,
      keepsField_str rfl _, hfields, keepsField_bool rfl _⟩)
  | some a => exact readsBack_obj (List.forall_iff_forall_mem.1 ⟨keepsField_str rfl _,
      keepsField_str rfl _, hfields, keepsField_str rfl _, keepsField_bool rfl _⟩)

namespace Service

/-- A service is read back from its written form. -/
theorem decode?_encode (s : Service) : Service.decode? s.encode = some s := by
  have hread : Record.read? layout s.encode = some [some (.str s.name),
      some (.str s.protocolVersion), some (.arr (s.resources.map Resource.encode)),
      some (.arr (s.types.map DeclaredType.encode))] := rfl
  simp [Service.decode?, hread, Record.text?, Record.list?_map Resource.decode?_encode,
    Record.list?_map DeclaredType.decode?_encode]

theorem readsBack_encode (s : Service) : ReadsBack (.record Service.layout) s.encode :=
  readsBack_obj (List.forall_iff_forall_mem.1 ⟨keepsField_str rfl _, keepsField_str rfl _,
    keepsField_list rfl Resource.readsBack_encode _,
    keepsField_list rfl DeclaredType.readsBack_encode _⟩)

/-- **Every service is read back from its dump.** -/
theorem dump_readsBack (s : Service) :
    Service.ofText? (DumpFormat.json.dump s.encode) = some s := by
  have hparse : parseAs? (.record Service.layout) s.encode.pretty = some s.encode :=
    parseAs?_pretty s.readsBack_encode
  rw [Service.ofText?, DumpFormat.dump, hparse, Option.bind_some, decode?_encode]

end Service

end ServiceScaffold
