import Mathlib.Data.List.Basic
import ServiceScaffold.Proofs.Json.RoundTrip
import ServiceScaffold.Schema.Encoding

/-!
# Records read back

The fields of a record as its shape keeps them, and the lists and maps that they hold.

* `Record.list?_map`, `Record.map?_entries` : lists and maps are decoded if their values are;
* `keepsField_str`, `keepsField_bool`, `keepsField_list`, `keepsField_strings`, `keepsField_map` :
  the fields that are read back.
-/

namespace ServiceScaffold

open Json

namespace Record

theorem list?_map {α : Type} {encode : α → Json} {decode : Json → Option α}
    (h : ∀ a, decode (encode a) = some a) (items : List α) :
    list? decode (some (.arr (items.map encode))) = some items := by
  have hpure : decode ∘ encode = fun a => (pure a : Option α) := funext h
  rw [list?, List.mapM_map, hpure, List.mapM_pure, List.map_id']
  rfl

theorem list?_ofStrings (texts : List String) :
    list? decodeText? (some (Json.ofStrings texts)) = some texts := by
  have hdecode (s : String) : decodeText? (.str s) = some s := rfl
  exact list?_map hdecode texts

/-- A map is decoded as its entries, if the keys are different. -/
theorem map?_obj {α : Type} {decode : Json → Option α} {fields : List (String × Json)}
    (h : (Keyed.keys fields).Nodup) :
    map? decode (some (.obj fields)) = Keyed.mapValues? decode fields := by
  have hread : map? decode (some (.obj fields)) =
      (Keyed.mapValues? decode fields).map Keyed.dropRepeated := rfl
  rw [hread]
  rcases hresults : Keyed.mapValues? decode fields with _ | results
  · rfl
  · rw [Option.map_some, Keyed.dropRepeated_of_nodup (Keyed.keys_of_mapValues? hresults ▸ h)]

theorem keys_entries {α : Type} (encode : α → Json) (entries : List (String × α)) :
    Keyed.keys (entries.map fun e => (e.1, encode e.2)) = Keyed.keys entries := by
  rw [Keyed.keys, List.map_map]
  rfl

theorem map?_entries {α : Type} {encode : α → Json} {decode : Json → Option α}
    {entries : List (String × α)} (h : ∀ a, decode (encode a) = some a)
    (hkeys : (Keyed.keys entries).Nodup) :
    map? decode (some (encodeEntries encode entries)) = some entries := by
  refine (map?_obj ((keys_entries encode entries).symm ▸ hkeys)).trans ?_
  rw [Keyed.mapValues?_map, Keyed.mapValues?_eq_self]
  exact fun e _ => h e.2

end Record

namespace Json

variable {α : Type} {shape item : Shape} {key : String} {encode : α → Json}

theorem keepsField_str (h : shape.field key = .whole) (s : String) :
    KeepsField shape (key, .str s) :=
  ⟨by rw [h]; rfl, readsBack_str (by rw [h]; rfl) s⟩

theorem keepsField_bool (h : shape.field key = .whole) (b : Bool) :
    KeepsField shape (key, .bool b) :=
  ⟨by rw [h]; rfl, readsBack_bool _ b⟩

theorem keepsField_list (h : shape.field key = .list item)
    (hitem : ∀ a, ReadsBack item (encode a)) (items : List α) :
    KeepsField shape (key, .arr (items.map encode)) := by
  refine ⟨by rw [h]; rfl, readsBack_arr fun i v hv => ?_⟩
  obtain ⟨a, -, rfl⟩ := List.mem_map.1 (List.mem_of_getElem? hv)
  rw [h]
  exact hitem a

theorem keepsField_strings (h : shape.field key = .whole) (texts : List String) :
    KeepsField shape (key, Json.ofStrings texts) := by
  refine ⟨by rw [h]; rfl, readsBack_arr fun i v hv => ?_⟩
  obtain ⟨s, -, rfl⟩ := List.mem_map.1 (List.mem_of_getElem? hv)
  rw [h]
  exact readsBack_str rfl s

theorem keepsField_map (h : shape.field key = .map item) (hused : item.isUnused = false)
    (hitem : ∀ a, ReadsBack item (encode a)) (entries : List (String × α)) :
    KeepsField shape (key, encodeEntries encode entries) := by
  refine ⟨by rw [h]; rfl, readsBack_obj fun e he => ?_⟩
  obtain ⟨entry, -, rfl⟩ := List.mem_map.1 he
  rw [h]
  exact ⟨hused, hitem entry.2⟩

end Json

end ServiceScaffold
