import ServiceScaffold.Proofs.Store.Reading
import ServiceScaffold.Proofs.Template.Engine

/-!
# When a template is loaded

An engine reads a template when it first needs it, which may be after files have been written.  If
these are none of the places where templates are looked for, that makes no difference.

* `Engine.fromDisk` : the template that an engine without a cache loads from a disk;
* `Engine.Faithful` : an engine's workspace gives the templates of an earlier disk;
* `Engine.Faithful.loadEntry` : **loading gives the template of the earlier disk**, and the
  workspace stays faithful.
-/

namespace ServiceScaffold.Template.Engine

variable {e : Engine} {d c : Disk} {w : Workspace Disk} {name : String}

/-- The places where templates are looked for read the same from two disks. -/
def ReadsAlike (e : Engine) (d c : Disk) : Prop :=
  ∀ name q, isValidName name = true → q ∈ e.candidates name →
    ∀ b, c.readBytes q = .ok b ↔ d.readBytes q = .ok b

theorem ReadsAlike.find (h : e.ReadsAlike d c) (name : String) : e.find c name = e.find d name := by
  refine find_congr fun hname q hq => ?_
  have hiff : c.isFile q = true ↔ d.isFile q = true := by
    rw [Disk.isFile_iff, Disk.isFile_iff]
    exact exists_congr (h name q hname hq)
  exact Bool.eq_iff_iff.2 hiff

theorem ReadsAlike.readText (h : e.ReadsAlike d c) {path : FilePath}
    (hfind : e.find d name = .ok path) : c.readText path = d.readText path := by
  obtain ⟨hname, hmem, hfile⟩ := find_ok hfind
  obtain ⟨b, hb⟩ := Disk.isFile_iff.1 hfile
  rw [Disk.readText, Disk.readText, hb, (h name path hname hmem b).2 hb]

/-- The template that an engine without a cache loads from a disk. -/
def fromDisk (e : Engine) (d : Disk) (name : String) : Except Failure Loaded :=
  ((e.loadEntry name).on ⟨d, .empty⟩).1

theorem fromDisk_eq (e : Engine) (d : Disk) (name : String) :
    e.fromDisk d name =
      match e.find d name with
      | .error f => .error f
      | .ok path =>
        match d.readText path with
        | .error p => .error (unreadable name path p)
        | .ok source => .ok ⟨path, source⟩ :=
  result_loadEntry (Cache.get?_empty name)

/-- A workspace gives the templates of an earlier disk. -/
structure Faithful (e : Engine) (d : Disk) (w : Workspace Disk) : Prop where
  alike : e.ReadsAlike d w.store
  cached {name : String} {t : Loaded} : w.cache.get? name = some t → e.fromDisk d name = .ok t

/-- Loading gives the template of the earlier disk, and the workspace stays faithful. -/
theorem Faithful.loadEntry (h : e.Faithful d w) (name : String) :
    ((e.loadEntry name).on w).1 = e.fromDisk d name ∧
      e.Faithful d ((e.loadEntry name).on w).2 := by
  have hresult : ((e.loadEntry name).on w).1 = e.fromDisk d name := by
    rcases hcached : w.cache.get? name with _ | t
    -- not in the cache: what is found and read now is what was there before
    · rw [result_loadEntry hcached, e.fromDisk_eq, h.alike.find]
      rcases hfind : e.find d name with f | path
      · rfl
      · have hread : (FileStore.read w.store path).1 = d.readText path := h.alike.readText hfind
        rcases htext : d.readText path with _ | _ <;> simp only [hread, htext]
    · rw [on_loadEntry, hcached, h.cached hcached]
  refine ⟨hresult, ?_, fun {other t} hget => ?_⟩
  · rw [store_loadEntry]
    exact h.alike
  · rw [get?_loadEntry, hresult] at hget
    split_ifs at hget with hother
    · exact hother ▸ hget
    · exact h.cached hget

/-- Rendering gives the text of the earlier disk, and the workspace stays faithful. -/
theorem Faithful.render (h : e.Faithful d w) (name : String) (data : Json) :
    ((e.render name data).on w).1 = ((e.render name data).on ⟨d, .empty⟩).1 ∧
      e.Faithful d ((e.render name data).on w).2 := by
  obtain ⟨hload, hfaithful⟩ := h.loadEntry name
  have hcold : ((e.loadEntry name).on ⟨d, .empty⟩).1 = e.fromDisk d name := rfl
  rw [on_render, on_render, hload, hcold]
  exact ⟨rfl, hfaithful⟩

end ServiceScaffold.Template.Engine
