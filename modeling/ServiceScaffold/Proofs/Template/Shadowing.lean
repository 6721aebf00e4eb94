import ServiceScaffold.Proofs.Template.Evaluation
import ServiceScaffold.Template.Engine

/-!
# Data beside helpers

A template sees its data under their names, and the helpers.  The helpers come last, so that each of
them takes the place of data of its name: what stands there has no influence on what is written.

* `rootNames_congr` : data that agree under all names but those of the helpers give the same names;
* `SeenAlike` : two data that no template can tell apart;
* `Renderer.ofLibrary_congr` : **every library makes the same of both**, be it a text or a failure;
* `helpers_prevail` : so does what an engine renders by it.
-/

namespace ServiceScaffold.Template

variable {data data' : Json}

/-! ### The names of data -/

theorem keys_helperNames : Keyed.keys helperNames =
    ["camel_case", "pascal_case", "snake_case", "kebab_case", "pluralize", "to_json"] := rfl

theorem lookup_dataNames_obj (fields : List (String × Json)) (key : String) :
    Keyed.lookup key (dataNames (.obj fields)) =
      ((Json.obj fields).field? key).map Value.ofJson := by
  rw [dataNames, Keyed.lookup_map, Keyed.lookup_sortedFields, Json.field?]

theorem sorted_dataNames (data : Json) : Keyed.Sorted (dataNames data) := by
  cases data with
  | obj fields => exact Keyed.sorted_map _ (Keyed.sorted_sortedFields fields)
  | null => exact Keyed.sorted_nil
  | _ => exact List.pairwise_singleton _ _

/-- Data that agree under all names but those of the helpers give the same names. -/
theorem rootNames_congr (h : ∀ key, key ∉ Keyed.keys helperNames →
    Keyed.lookup key (dataNames data) = Keyed.lookup key (dataNames data')) :
    rootNames data = rootNames data' := by
  refine (Keyed.sorted_insertAll (sorted_dataNames data) _).ext
    (Keyed.sorted_insertAll (sorted_dataNames data') _) fun key => ?_
  change Keyed.lookup key (rootNames data) = Keyed.lookup key (rootNames data')
  rw [lookup_rootNames_eq_or, lookup_rootNames_eq_or]
  rcases hhelper : Keyed.lookup key helperNames with _ | v
  · rw [h key (Keyed.lookup_eq_none.1 hhelper)]
  · rfl

/-! ### Data that are seen alike -/

/-- Two data that no template can tell apart. -/
inductive SeenAlike : Json → Json → Prop
  /-- Objects with the same values, as far as templates see them, under all names but those of the
  helpers. -/
  | objects {fields fields' : List (String × Json)}
      (h : ∀ key, key ∉ Keyed.keys helperNames →
        ((Json.obj fields).field? key).map Value.ofJson =
          ((Json.obj fields').field? key).map Value.ofJson) :
      SeenAlike (.obj fields) (.obj fields')
  /-- No data, and an object without fields. -/
  | null : SeenAlike .null (.obj [])
  /-- Any other value, and the object that has it under a name of its own. -/
  | value {v : Json} (hobj : v.fields? = none) (hnull : v ≠ .null) :
      SeenAlike v (.obj [("data", v)])

theorem SeenAlike.rootNames_eq (h : SeenAlike data data') : rootNames data = rootNames data' := by
  cases h with
  | objects h =>
    refine rootNames_congr fun key hkey => ?_
    rw [lookup_dataNames_obj, lookup_dataNames_obj, h key hkey]
  | null => rfl
  | value hobj hnull =>
    refine rootNames_congr fun key _ => ?_
    cases data with
    | null => exact absurd rfl hnull
    | obj fields => cases hobj
    | _ => rfl

/-- A library makes the same of data that are seen alike. -/
theorem Renderer.ofLibrary_congr (library : Library) (h : SeenAlike data data')
    (name source : String) :
    Renderer.ofLibrary library name source data = Renderer.ofLibrary library name source data' := by
  rw [Renderer.ofLibrary, Renderer.ofLibrary, h.rootNames_eq]

/-- **Data have no influence on helpers.**  Whatever the data are, the name of a helper stands for
the helper.  With data that are seen alike every library makes the same of every template, be it a
text or a failure; and an engine that renders by the library makes a text of a template for one of
them exactly if it does for the other, and then the same text. -/
theorem helpers_prevail (library : Library) (data data' : Json) :
    (∀ helper ∈ helperNames, Keyed.lookup helper.1 (rootNames data) = some helper.2) ∧
    (SeenAlike data data' →
      (∀ name source, Renderer.ofLibrary library name source data =
        Renderer.ofLibrary library name source data') ∧
      ∀ e : Engine, e.renderer = .ofLibrary library → ∀ name source text,
        e.renderSource name source data = .ok text ↔
          e.renderSource name source data' = .ok text) := by
  refine ⟨fun helper hmem => ?_, fun h => ⟨Renderer.ofLibrary_congr library h, ?_⟩⟩
  · rw [lookup_rootNames_eq_or, Keyed.lookup_of_mem nodup_keys_helperNames hmem, Option.some_or]
  intro e he name source text
  rw [Engine.renderSource, Engine.renderSource, he, Loaded.render, Loaded.render,
    Renderer.ofLibrary_congr library h]
  -- the failures differ, since they name the keys of the data
  rcases Renderer.ofLibrary library name source data' with s | _ | ⟨message, causes⟩
  · exact Iff.rfl
  · exact iff_of_false nofun nofun
  · exact iff_of_false nofun nofun

/-- Data under the names of two helpers, and under a name of their own. -/
def shadowingData : Json :=
  .obj [("to_json", .arr [.int 1]), ("name", .str "a_b"), ("pascal_case", .str "shadowed")]

/-- The same data, without those under names of helpers. -/
def plainData : Json := .obj [("name", .str "a_b"), ("kebab_case", .null)]

/-- An engine with the standard renderer. -/
def inlineEngine : Engine := ⟨.ofString "t", none, .standard⟩

theorem helpers_prevail_shadowed : SeenAlike shadowingData plainData ∧
    inlineEngine.renderSource "inline" "{{ pascal_case(name) }} {{ to_json(name) }}"
      shadowingData = .ok "AB \"a_b\"" ∧
    inlineEngine.renderSource "inline" "{{ data | length }}" (.arr [.null, .null]) = .ok "2" := by
  have halike : SeenAlike shadowingData plainData := by
    refine .objects fun key hkey => ?_
    rw [keys_helperNames] at hkey
    simp only [List.mem_cons, not_or] at hkey
    obtain ⟨-, hpascal, -, hkebab, -, hto, -⟩ := hkey
    simp [Json.field?, Keyed.lookup, Ne.symm hto, Ne.symm hpascal, Ne.symm hkebab]
  have hlist : SeenAlike (.arr [.null, .null]) (.obj [("data", .arr [.null, .null])]) :=
    .value rfl (by simp)
  have hok {r : Except Failure String} {text : String} (h : r.toOption = some text) :
      r = .ok text := by
    cases r with
    | ok s => exact congrArg Except.ok (Option.some.inj h)
    | error f => cases h
  refine ⟨halike, ?_, ?_⟩
  · rw [((helpers_prevail .standard _ _).2 halike).2 inlineEngine rfl]
    exact hok (by decide +kernel)
  · rw [((helpers_prevail .standard _ _).2 hlist).2 inlineEngine rfl]
    exact hok (by decide +kernel)

end ServiceScaffold.Template
