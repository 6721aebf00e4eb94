import ServiceScaffold.Dump
import ServiceScaffold.Proofs.Json.Numbers
import ServiceScaffold.Proofs.Json.Records
import ServiceScaffold.Proofs.Results
import ServiceScaffold.Proofs.Schema.WellFormed

/-!
# Dumps of schemas read back

A description that is absent and parents that are none are left out of the written form of a
declaration, and absent is what they are read as.  Numbers are written with few digits, and read by
scaling these digits: a constant is read back as itself only if that scaling gives its number again,
and an infinite one, which is written as null, is not read at all.

* `Interface.decode?_encode`, `Interface.readsBack_encode` and their like : declarations and roles
  are read back;
* `ConstantValue.reread?` : what a constant is read back as, with the numbers that are kept;
* `Summary.decode?_rereadJson?` : counts are read back if and only if they fit into 64 bits;
* `Schema.readsAs_encode`, `Schema.decode?_rereadJson?` : what the written form of a schema is read
  as, from its text and from its value;
* `Schema.dump_readsBack_iff` : **what is read of a dump, and when nothing is lost**.
-/

namespace ServiceScaffold

open Json

/-! ### Declarations -/

/-- A description that is none is left out, and read as none where it is absent. -/
theorem Property.decode?_encode (p : Property) : Property.decode? p.encode = some p := by
  obtain ⟨name, type, isOptional, description⟩ := p
  have hread : Record.read? layout (Property.mk name type isOptional description).encode =
      some [some (.str name), some (.str type), some (.bool isOptional),
        description.map .str] := by
    cases description <;> rfl
  cases description <;>
    simp [Property.decode?, hread, Record.text?, Record.bool?, Record.optionalText?]

theorem Property.readsBack_encode (p : Property) :
    ReadsBack (.record Property.layout) p.encode := by
  obtain ⟨name, type, isOptional, description⟩ := p
  cases description with
  | none => exact readsBack_obj (List.forall_iff_forall_mem.1 ⟨keepsField_str rfl _,
      keepsField_str rfl _, keepsField_bool rfl _⟩)
  | some d => exact readsBack_obj (List.forall_iff_forall_mem.1 ⟨keepsField_str rfl _,
      keepsField_str rfl _, keepsField_bool rfl _, keepsField_str rfl _⟩)

theorem TypeAlias.decode?_encode (t : TypeAlias) : TypeAlias.decode? t.encode = some t := by
  obtain ⟨name, type, description⟩ := t
  have hread : Record.read? layout (TypeAlias.mk name type description).encode =
      some [some (.str name), some (.str type), description.map .str] := by
    cases description <;> rfl
  cases description <;> simp [TypeAlias.decode?, hread, Record.text?, Record.optionalText?]

theorem TypeAlias.readsBack_encode (t : TypeAlias) :
    ReadsBack (.record TypeAlias.layout) t.encode := by
  obtain ⟨name, type, description⟩ := t
  cases description with
  | none => exact readsBack_obj (List.forall_iff_forall_mem.1 ⟨keepsField_str rfl _,
      keepsField_str rfl _⟩)
  | some d => exact readsBack_obj (List.forall_iff_forall_mem.1 ⟨keepsField_str rfl _,
      keepsField_str rfl _, keepsField_str rfl _⟩)

/-- Parents that are none are left out, and read as none where they are absent. -/
theorem Interface.decode?_encode (i : Interface) : Interface.decode? i.encode = some i := by
  obtain ⟨name, description, parents, properties⟩ := i
  have hread : Record.read? layout (Interface.mk name description parents properties).encode =
      some [some (.str name), description.map .str,
        if parents.isEmpty then none else some (Json.ofStrings parents),
        some (.arr (properties.map Property.encode))] := by
    cases description <;> cases parents <;> rfl
  cases description <;> rcases parents with _ | ⟨parent, parents⟩ <;>
    simp [Interface.decode?, hread, Record.text?, Record.optionalText?, Record.optionalList?,
      Record.list?_ofStrings, Record.list?_map Property.decode?_encode]

theorem Interface.readsBack_encode (i : Interface) :
    ReadsBack (.record Interface.layout) i.encode := by
  obtain ⟨name, description, parents, properties⟩ := i
  have hproperties : KeepsField (.record Interface.layout)
      ("properties", .arr (properties.map Property.encode)) :=
    keepsField_list rfl Property.readsBack_encode properties
  have hparents (parents : List String) : KeepsField (.record Interface.layout)
      ("extends", Json.ofStrings parents) := keepsField_strings rfl parents
  have hdescription (d : String) : KeepsField (.record Interface.layout)
      ("description", .str d) := keepsField_str rfl d
  rcases description with _ | d <;> rcases parents with _ | ⟨parent, parents⟩
  · exact readsBack_obj (List.forall_iff_forall_mem.1 ⟨keepsField_str rfl _, hproperties⟩)
  · exact readsBack_obj (List.forall_iff_forall_mem.1 ⟨keepsField_str rfl _, hparents _,
      hproperties⟩)
  · exact readsBack_obj (List.forall_iff_forall_mem.1 ⟨keepsField_str rfl _, hdescription d,
      hproperties⟩)
  · exact readsBack_obj (List.forall_iff_forall_mem.1 ⟨keepsField_str rfl _, hdescription d,
      hparents _, hproperties⟩)

theorem RoleLists.decode?_encode (t : RoleLists) : RoleLists.decode? t.encode = some t := by
  have hread : Record.read? layout t.encode = some [some (Json.ofStrings t.resources),
      some (Json.ofStrings t.tools), some (Json.ofStrings t.prompts),
      some (Json.ofStrings t.capabilities)] := rfl
  simp [RoleLists.decode?, hread, Record.list?_ofStrings]

theorem RoleLists.readsBack_encode (t : RoleLists) :
    ReadsBack (.record RoleLists.layout) t.encode :=
  readsBack_obj (List.forall_iff_forall_mem.1 ⟨keepsField_strings rfl _, keepsField_strings rfl _,
    keepsField_strings rfl _, keepsField_strings rfl _⟩)

/-! ### Constants -/

namespace ConstantValue

/-- What the written form of a constant is read as. -/
def rereadJson? : ConstantValue → Option Json
  | .number x => if x.isFinite then (rereadNumber? x).map .float else some .null
  | v => some v.encode

/-- What a constant is read back as: the number of its digits, none where it is infinite. -/
def reread? : ConstantValue → Option ConstantValue
  | .number x => if x.isFinite then (rereadNumber? x).map .number else none
  | v => some v

theorem readsAs_encode (v : ConstantValue) : ReadsAs .whole v.encode v.rereadJson? := by
  cases v with
  | bool b => exact readsBack_bool _ b
  | text s => exact readsBack_str rfl s
  | number x =>
    rw [rereadJson?, encode]
    split_ifs with hx
    · exact readsAs_float hx
    · exact readsAs_infinite _ (by simpa using hx)

theorem decode?_rereadJson? (v : ConstantValue) :
    v.rereadJson?.bind ConstantValue.decode? = v.reread? := by
  cases v with
  | bool b => rfl
  | text s => rfl
  | number x =>
    rw [rereadJson?, reread?]
    split_ifs
    · rcases rereadNumber? x with _ | y <;> rfl
    · rfl

/-- A number is kept if its digits and its exponent are few enough for one exact step. -/
theorem reread?_of_lt {x : Binary64} (hx : x.isFinite = true)
    (hdigits : (Number.writtenDecimal x).1 < 2 ^ 53)
    (hexponent : (Number.writtenDecimal x).2.natAbs ≤ 22) :
    (number x).reread? = some (number x) := by
  rw [reread?, if_pos hx, rereadNumber?_of_lt hx hdigits hexponent, Option.map_some]

/-- Whole numbers are kept up to a tenth of `2 ^ 53`. -/
theorem reread?_ofInt {n : ℤ} (hn : 10 * n.natAbs < 2 ^ 53) :
    (number (Binary64.ofInt n)).reread? = some (number (Binary64.ofInt n)) := by
  rw [reread?, if_pos (Binary64.value_ofInt (by omega)).2, rereadNumber?_ofInt hn, Option.map_some]

/-- A number that is infinite or none. -/
def IsInfinite (v : ConstantValue) : Prop := ∃ x, v = .number x ∧ x.isFinite = false

/-- Truth values, texts, whole numbers up to a tenth of `2 ^ 53`, and the finite numbers that are
written with a significand and an exponent that are small enough for one exact step. -/
inductive IsKept : ConstantValue → Prop
  | bool (b : Bool) : IsKept (.bool b)
  | text (s : String) : IsKept (.text s)
  | whole {n : ℤ} : 10 * n.natAbs < 2 ^ 53 → IsKept (.number (Binary64.ofInt n))
  | short {x : Binary64} : x.isFinite = true → (Number.writtenDecimal x).1 < 2 ^ 53 →
      (Number.writtenDecimal x).2.natAbs ≤ 22 → IsKept (.number x)

theorem IsKept.reread?_eq {v : ConstantValue} (h : v.IsKept) : v.reread? = some v := by
  cases h with
  | bool b => rfl
  | text s => rfl
  | whole hn => exact reread?_ofInt hn
  | short hx hdigits hexponent => exact reread?_of_lt hx hdigits hexponent

theorem IsInfinite.reread?_eq {v : ConstantValue} (h : v.IsInfinite) : v.reread? = none := by
  obtain ⟨x, rfl, hx⟩ := h
  rw [reread?, if_neg (by simp [hx])]

/-- Beyond, they need not be: the greatest whole number below `2 ^ 53` comes back as another one. -/
example : (number (Binary64.ofInt 9007199254740991)).reread? =
    some (number (Binary64.ofInt 9007199254740990)) := by
  decide +kernel

end ConstantValue

/-! ### Counts -/

namespace Summary

/-- The counts under their names. -/
def counts (s : Summary) : List (String × Nat) :=
  [("interfaces", s.interfaces), ("types", s.types), ("constants", s.constants),
    ("resources", s.resources), ("tools", s.tools), ("prompts", s.prompts),
    ("capabilities", s.capabilities)]

/-- The counts fit into 64 bits. -/
def Fits (s : Summary) : Prop := ∀ e ∈ s.counts, e.2 ≤ maxSignificand

instance (s : Summary) : Decidable s.Fits := inferInstanceAs (Decidable (∀ e ∈ s.counts, _))

/-- What the written form of the counts is read as. -/
def rereadJson? (s : Summary) : Option Json :=
  (Keyed.mapValues? (fun n => (Numeral.ofNat n).value?) s.counts).map .obj

theorem readsAs_encode (s : Summary) : ReadsAs (.record layout) s.encode s.rereadJson? := by
  have hcounts : s.encode = .obj (s.counts.map fun e => (e.1, countJson e.2)) := rfl
  rw [hcounts]
  refine readsAs_entries fun e he => ?_
  have hfield : (Shape.record layout).field e.1 = .whole := by
    simp only [counts, List.mem_cons, List.not_mem_nil, or_false] at he
    obtain rfl | rfl | rfl | rfl | rfl | rfl | rfl := he <;> rfl
  exact ⟨by rw [hfield]; rfl, by rw [hfield]; exact readsAs_count e.2⟩

/-- Counts that fit are read back. -/
theorem decode?_encode (s : Summary) : Summary.decode? s.encode = some s := by
  have hread : Record.read? layout s.encode = some (s.counts.map fun e => some (countJson e.2)) :=
    rfl
  simp [Summary.decode?, hread, counts, Record.count?, countJson]

/-- A whole number that is read as a count fits. -/
theorem le_of_count? {n m : Nat} {v : Json} (hv : (Numeral.ofNat n).value? = some v)
    (hcount : Record.count? (some v) = some m) : n ≤ maxSignificand := by
  by_contra hn
  cases v with
  | int i => exact Numeral.value?_ofNat_of_lt (not_le.1 hn) i hv
  | _ => cases hcount

/-- Counts that are read fit. -/
theorem fits_of_decode? {s t : Summary} {v : Json} (hv : s.rereadJson? = some v)
    (hdecode : Summary.decode? v = some t) : s.Fits := by
  simp only [rereadJson?, counts, Keyed.mapValues?_cons, Keyed.mapValues?_nil,
    Option.map_eq_some_iff, Option.bind_eq_some_iff, Option.some_inj] at hv
  obtain ⟨_, ⟨v₁, h₁, _, ⟨v₂, h₂, _, ⟨v₃, h₃, _, ⟨v₄, h₄, _, ⟨v₅, h₅, _, ⟨v₆, h₆, _, ⟨v₇, h₇, _, rfl,
    rfl⟩, rfl⟩, rfl⟩, rfl⟩, rfl⟩, rfl⟩, rfl⟩, rfl⟩ := hv
  have hread : Record.read? layout (.obj [("interfaces", v₁), ("types", v₂), ("constants", v₃),
      ("resources", v₄), ("tools", v₅), ("prompts", v₆), ("capabilities", v₇)]) =
        some [some v₁, some v₂, some v₃, some v₄, some v₅, some v₆, some v₇] := rfl
  rw [Summary.decode?, hread] at hdecode
  simp only [Option.bind_eq_bind, Option.bind_some] at hdecode
  simp only [Option.bind_eq_some_iff] at hdecode
  obtain ⟨n₁, c₁, n₂, c₂, n₃, c₃, n₄, c₄, n₅, c₅, n₆, c₆, n₇, c₇, -⟩ := hdecode
  simp only [Fits, counts, List.forall_mem_cons]
  exact ⟨le_of_count? h₁ c₁, le_of_count? h₂ c₂, le_of_count? h₃ c₃, le_of_count? h₄ c₄,
    le_of_count? h₅ c₅, le_of_count? h₆ c₆, le_of_count? h₇ c₇, by simp⟩

/-- **Counts are read back** if and only if they fit. -/
theorem decode?_rereadJson? (s : Summary) :
    s.rereadJson?.bind Summary.decode? = if s.Fits then some s else none := by
  split_ifs with hfits
  · have hvalues : Keyed.mapValues? (fun n => (Numeral.ofNat n).value?) s.counts =
        some (s.counts.map fun e => (e.1, countJson e.2)) :=
      Keyed.mapValues?_of_forall fun e he => Numeral.value?_ofNat (hfits e he)
    rw [rereadJson?, hvalues]
    exact s.decode?_encode
  · refine Option.eq_none_iff_forall_not_mem.2 fun t ht => hfits ?_
    obtain ⟨v, hv, hdecode⟩ := Option.bind_eq_some_iff.1 ht
    exact fits_of_decode? hv hdecode

end Summary

/-! ### Schemas -/

namespace Schema

/-- The written form of a schema with other constants and counts. -/
def encodeWith (s : Schema) (constants : List (String × Json)) (summary : Json) : Json :=
  .obj [("version", .str s.version), ("interfaces", encodeEntries Interface.encode s.interfaces),
    ("types", encodeEntries TypeAlias.encode s.types), ("constants", .obj constants),
    ("component_tags", s.roles.encode), ("summary", summary)]

/-- What the written form of a schema is read as. -/
def rereadJson? (s : Schema) : Option Json :=
  (Keyed.mapValues? ConstantValue.rereadJson? s.constants).bind fun constants =>
    s.summary.rereadJson?.map (s.encodeWith constants)

/-- The fields of the written form of a schema, with what their values are read as. -/
def fieldResults (s : Schema) : FieldResults :=
  [(("version", .str s.version), some (.str s.version)),
    (("interfaces", encodeEntries Interface.encode s.interfaces),
      some (encodeEntries Interface.encode s.interfaces)),
    (("types", encodeEntries TypeAlias.encode s.types),
      some (encodeEntries TypeAlias.encode s.types)),
    (("constants", encodeEntries ConstantValue.encode s.constants),
      (Keyed.mapValues? ConstantValue.rereadJson? s.constants).map .obj),
    (("component_tags", s.roles.encode), some s.roles.encode),
    (("summary", s.summary.encode), s.summary.rereadJson?)]

theorem fieldReadsAs_fieldResults (s : Schema) :
    ∀ p ∈ s.fieldResults, FieldReadsAs (.record layout) p.1 p.2 := by
  have hconstants : FieldReadsAs (.record layout)
      ("constants", encodeEntries ConstantValue.encode s.constants)
      ((Keyed.mapValues? ConstantValue.rereadJson? s.constants).map .obj) :=
    ⟨rfl, readsAs_entries fun e _ => ⟨rfl, e.2.readsAs_encode⟩⟩
  exact List.forall_iff_forall_mem.1 ⟨keepsField_str rfl s.version,
    keepsField_map rfl rfl Interface.readsBack_encode s.interfaces,
    keepsField_map rfl rfl TypeAlias.readsBack_encode s.types, hconstants,
    ⟨rfl, s.roles.readsBack_encode⟩, ⟨rfl, s.summary.readsAs_encode⟩⟩

theorem read?_fieldResults (s : Schema) : s.fieldResults.read?.map .obj = s.rereadJson? := by
  simp only [fieldResults, FieldResults.read?_cons, rereadJson?]
  rcases Keyed.mapValues? ConstantValue.rereadJson? s.constants with _ | constants
  · rfl
  · rcases s.summary.rereadJson? with _ | summary <;> rfl

/-- **A schema is read as what its constants and its counts are read as.** -/
theorem readsAs_encode (s : Schema) : ReadsAs (.record layout) s.encode s.rereadJson? := by
  rw [← read?_fieldResults]
  exact readsAs_obj s.fieldReadsAs_fieldResults

/-- The schema with its constants as they are read back. -/
def reread? (s : Schema) : Option Schema :=
  (Keyed.mapValues? ConstantValue.reread? s.constants).map fun constants =>
    { s with constants := constants }

/-- The keys of a schema are different. -/
structure DistinctKeys (s : Schema) : Prop where
  interfaces : (Keyed.keys s.interfaces).Nodup
  types : (Keyed.keys s.types).Nodup
  constants : (Keyed.keys s.constants).Nodup

variable {s : Schema}

/-- Other constants and counts are read in the place of those of the schema. -/
theorem decode?_encodeWith (h : s.DistinctKeys) {constants : List (String × Json)}
    (hkeys : Keyed.keys constants = Keyed.keys s.constants) (summary : Json) :
    Schema.decode? (s.encodeWith constants summary) =
      (Keyed.mapValues? ConstantValue.decode? constants).bind fun constants =>
        (Summary.decode? summary).map fun summary =>
          { s with constants := constants, summary := summary } := by
  have hread : Record.read? layout (s.encodeWith constants summary) =
      some [some (.str s.version), some (encodeEntries Interface.encode s.interfaces),
        some (encodeEntries TypeAlias.encode s.types), some (.obj constants),
        some s.roles.encode, some summary] := rfl
  rw [Schema.decode?, hread]
  simp only [Option.bind_eq_bind, Option.bind_some, Record.text?,
    Record.map?_entries Interface.decode?_encode h.interfaces,
    Record.map?_entries TypeAlias.decode?_encode h.types, Record.map?_obj (hkeys ▸ h.constants),
    RoleLists.decode?_encode]
  rcases Summary.decode? summary with _ | counts <;> rfl

/-- **What is read of a schema** is the schema with its constants as they are read back. -/
theorem decode?_rereadJson? (h : s.DistinctKeys) :
    s.rereadJson?.bind Schema.decode? = if s.summary.Fits then s.reread? else none := by
  have hvalues : (Keyed.mapValues? ConstantValue.rereadJson? s.constants).bind
      (Keyed.mapValues? ConstantValue.decode?) =
        Keyed.mapValues? ConstantValue.reread? s.constants := by
    rw [Keyed.mapValues?_bind, funext ConstantValue.decode?_rereadJson?]
  have hcounts := s.summary.decode?_rereadJson?
  rw [rereadJson?, reread?, ← hvalues]
  rcases hfields : Keyed.mapValues? ConstantValue.rereadJson? s.constants with _ | fields
  · split_ifs <;> rfl
  have hsteps : ((some fields).bind fun constants =>
      s.summary.rereadJson?.map (s.encodeWith constants)).bind Schema.decode? =
        s.summary.rereadJson?.bind fun summary => Schema.decode? (s.encodeWith fields summary) := by
    rcases s.summary.rereadJson? with _ | summary <;> rfl
  rw [hsteps, Option.bind_some]
  simp only [decode?_encodeWith h (Keyed.keys_of_mapValues? hfields)]
  rcases Keyed.mapValues? ConstantValue.decode? fields with _ | constants
  · simp
  · have hmap : (s.summary.rereadJson?.bind fun summary => (Summary.decode? summary).map
        fun counts => { s with constants := constants, summary := counts }) =
          (s.summary.rereadJson?.bind Summary.decode?).map
            fun counts => { s with constants := constants, summary := counts } :=
      (Option.map_bind ..).symm
    simp only [Option.bind_some, Option.map_some, hmap, hcounts]
    split_ifs <;> rfl

/-- The keys of every schema of a text are different. -/
theorem WellFormed.distinctKeys (h : s.WellFormed) : s.DistinctKeys :=
  ⟨h.interfaces.distinct, h.types.distinct, h.constants⟩

theorem reread?_eq_self : s.reread? = some s ↔ ∀ e ∈ s.constants, e.2.reread? = some e.2 := by
  rw [← Keyed.mapValues?_eq_self, reread?, Option.map_eq_some_iff]
  constructor
  · rintro ⟨constants, hconstants, hs⟩
    rw [hconstants, ← congrArg Schema.constants hs]
  · intro hsame
    exact ⟨s.constants, hsame, rfl⟩

/-- No constant is read back of a schema with an infinite one. -/
theorem reread?_eq_none (h : ∃ e ∈ s.constants, e.2.IsInfinite) : s.reread? = none := by
  obtain ⟨e, he, hinfinite⟩ := h
  have hconstants := Keyed.mapValues?_eq_none he hinfinite.reread?_eq
  rw [reread?, hconstants, Option.map_none]

/-- What is read of the dump of a schema with different keys. -/
theorem ofText?_dump (h : s.DistinctKeys) :
    Schema.ofText? (DumpFormat.json.dump s.encode) = if s.summary.Fits then s.reread? else none := by
  rw [Schema.ofText?, DumpFormat.dump, parseAs?_pretty s.readsAs_encode, decode?_rereadJson? h]

/-- **What is read of the dump of a schema** of a tree is the schema with its constants as they are
read back, as long as its counts fit into 64 bits; nothing is lost if and only if every constant is
read back as itself.  Truth values, texts, and numbers that are whole or have few digits are
(`ConstantValue.IsKept`); an infinite number is not, and then nothing is read. -/
theorem dump_readsBack_iff (hs : s.IsOfTree) :
    Schema.ofText? (DumpFormat.json.dump s.encode) =
        (if s.summary.Fits then s.reread? else none) ∧
      (Schema.ofText? (DumpFormat.json.dump s.encode) = some s ↔
        s.summary.Fits ∧ ∀ e ∈ s.constants, e.2.reread? = some e.2) ∧
      (s.summary.Fits → (∀ e ∈ s.constants, e.2.IsKept) →
        Schema.ofText? (DumpFormat.json.dump s.encode) = some s) ∧
      ((∃ e ∈ s.constants, e.2.IsInfinite) →
        Schema.ofText? (DumpFormat.json.dump s.encode) = none) := by
  have hread := ofText?_dump hs.wellFormed.distinctKeys
  rw [hread, ← reread?_eq_self]
  refine ⟨rfl, ?_, fun hfits hkept => ?_, fun hinfinite => ?_⟩
  · by_cases hfits : s.summary.Fits
    · rw [if_pos hfits]
      exact ⟨fun h => ⟨hfits, h⟩, And.right⟩
    · rw [if_neg hfits]
      exact ⟨fun h => (by cases h), fun h => absurd h.1 hfits⟩
  · rw [if_pos hfits]
    exact reread?_eq_self.2 fun e he => (hkept e he).reread?_eq
  · rw [reread?_eq_none hinfinite, ite_self]

/-- Constants of every kind. -/
def constantsOfEveryKind : String :=
  "export const FLAG = true; export const COUNT = -42; export const RATE = 0.25; " ++
    "export const LATEST_PROTOCOL_VERSION = \"1.0\"; export interface Note \x7b id: string; \x7d"

/-- Truth values, texts, whole numbers and numbers with few digits are all kept. -/
theorem dump_readsBack_constantsOfEveryKind : ∃ x, ofSource constantsOfEveryKind "note.ts" = .ok x ∧
    x.schema.constants.length = 4 ∧
    Schema.ofText? (DumpFormat.json.dump x.schema.encode) = some x.schema := by
  have hkernel : (ofSource constantsOfEveryKind "note.ts").toOption.any (fun x =>
      x.schema.constants.length == 4 && decide x.schema.summary.Fits &&
        x.schema.constants.all fun e => decide (e.2.reread? = some e.2)) = true := by
    have hletters : constantsOfEveryKind.toList = _ :=
      String.toList_append.trans (congrArg₂ _ String.toList_ofList String.toList_ofList)
    rw [ofSource, hletters]
    decide +kernel
  obtain ⟨x, hx, hpassed⟩ := exists_ok_of_any hkernel
  simp only [Bool.and_eq_true, beq_iff_eq, decide_eq_true_eq, List.all_eq_true] at hpassed
  obtain ⟨⟨hlength, hfits⟩, hconstants⟩ := hpassed
  exact ⟨x, hx, hlength,
    (dump_readsBack_iff (isOfTree_of_ofSource hx)).2.1.2 ⟨hfits, hconstants⟩⟩

/-- A constant that is too great for a double. -/
def greatConstant : String := "export const N = 1e999;"

/-- An infinite constant is written as null, which is read as no constant at all. -/
theorem dump_readsBack_infinite : ∃ x, ofSource greatConstant "note.ts" = .ok x ∧
    Schema.ofText? (DumpFormat.json.dump x.schema.encode) = none := by
  have hkernel : (ofSource greatConstant "note.ts").toOption.any (fun x =>
      decide (x.schema.reread? = none)) = true := by
    decide +kernel
  obtain ⟨x, hx, hnone⟩ := exists_ok_of_any hkernel
  refine ⟨x, hx, ?_⟩
  rw [ofText?_dump (isOfTree_of_ofSource hx).wellFormed.distinctKeys, of_decide_eq_true hnone,
    ite_self]

end Schema

end ServiceScaffold
