import ServiceScaffold.Proofs.Store.Memory
import ServiceScaffold.Proofs.Template.Engine

/-!
# Rendering to a file is all or nothing

An engine renders a template to a file in steps: it finds the template, reads it, writes the data as
JSON, renders, and writes the text.  Each of them may fail, and then no file has changed.

* `Engine.texts_loadEntry` : loading changes no text;
* `Engine.cache_loadEntry` : **a load that succeeds adds the template that it gives, unless one was
  there**, and nothing else comes into the cache;
* `Engine.renderToFile_atomic` : **either nothing is written, or the output path has the text.**
-/

namespace ServiceScaffold

theorem MemoryStore.texts_read (s : MemoryStore) (path : FilePath) :
    (s.read path).2.texts = s.texts := by
  unfold read
  split <;> rfl

namespace Template.Engine

section

variable {σ : Type} [FileStore σ]

/-- What a load brings into the cache is the template that it gives. -/
theorem cache_loadEntry (e : Engine) (name : String) (w : Workspace σ) :
    ((e.loadEntry name).on w).2.cache = w.cache ∨
      w.cache.get? name = none ∧ ∃ t, ((e.loadEntry name).on w).1 = .ok t ∧
        ((e.loadEntry name).on w).2.cache = ⟨w.cache.entries ++ [(name, t)]⟩ := by
  rw [on_loadEntry]
  rcases hcached : w.cache.get? name with _ | t
  · rcases e.find w.store name with f | path
    · exact .inl rfl
    · simp only
      rcases FileStore.read w.store path with ⟨p | source, store⟩
      · exact .inl rfl
      · exact .inr ⟨trivial, _, rfl, rfl⟩
  · exact .inl rfl

end

variable (e : Engine) (name : String) (w : Workspace MemoryStore)

/-- Loading changes no text. -/
theorem texts_loadEntry : ((e.loadEntry name).on w).2.store.texts = w.store.texts := by
  rw [on_loadEntry]
  rcases w.cache.get? name with _ | t
  · rcases e.find w.store name with f | path
    · rfl
    · have htexts := w.store.texts_read path
      change (FileStore.read w.store path).2.texts = _ at htexts
      simp only
      rcases hread : FileStore.read w.store path with ⟨p | source, store⟩ <;>
        rw [hread] at htexts <;> exact htexts
  · rfl

/-- **Rendering to a file is all or nothing.**  It fails as rendering does, and then the files are
as before; or rendering gives a text, and the file at the output path has this text while no other
file has changed.  In both cases the cache is the one that rendering leaves: the old one, or the old
one with a new entry under the name, which is there exactly if the template can be loaded. -/
theorem renderToFile_atomic (out : FilePath) (data : Encoded) :
    ∃ rendered w₁ result w₂, (e.renderEncoded name data).on w = (rendered, w₁) ∧
      (e.renderEncodedToFile name out data).on w = (result, w₂) ∧
      ((∃ f, rendered = .error f ∧ result = .error f ∧ w₂.store.texts = w.store.texts) ∨
        ∃ text, rendered = .ok text ∧ result = .ok () ∧
          w₂.store.texts = (w.store.insert out text).texts ∧
          ∀ q, w₂.store.contents q = if q.same out then some text else w.store.contents q) ∧
      w₂.cache = w₁.cache ∧
      (w₂.cache = w.cache ∨
        w.cache.get? name = none ∧ ∃ t, w₂.cache = ⟨w.cache.entries ++ [(name, t)]⟩) ∧
      ∀ t, w₂.cache.get? name = some t ↔ ((e.loadEntry name).on w).1 = .ok t := by
  have htexts := texts_loadEntry e name w
  have hcache := cache_loadEntry e name w
  have hentry (t : Loaded) := get?_loadEntry e name w name t
  have hwritten := e.on_renderEncodedToFile name out data w
  rw [on_renderEncoded] at hwritten
  rw [on_renderEncoded]
  generalize (e.loadEntry name).on w = loading at *
  obtain ⟨loaded, w₁⟩ := loading
  simp only [if_true] at hentry
  rcases hrendered : loaded.bind (fun t => t.renderEncoded e.renderer name data) with f | text
  · simp only [hrendered] at hwritten
    refine ⟨_, w₁, _, w₁, rfl, hwritten, .inl ⟨f, rfl, rfl, htexts⟩, rfl, ?_, hentry⟩
    exact hcache.imp_right fun ⟨hnone, t, _, ht⟩ => ⟨hnone, t, ht⟩
  -- a store in memory takes every text
  · have hwrite : FileStore.write w₁.store out text = (.ok (), w₁.store.insert out text) := rfl
    simp only [hrendered, hwrite] at hwritten
    refine ⟨_, w₁, _, _, rfl, hwritten, .inr ⟨text, rfl, rfl, ?_, fun q => ?_⟩, rfl, ?_,
      hentry⟩
    · rw [MemoryStore.insert, MemoryStore.insert, htexts]
    · rw [MemoryStore.contents_insert, MemoryStore.contents, htexts]
      rfl
    · exact hcache.imp_right fun ⟨hnone, t, _, ht⟩ => ⟨hnone, t, ht⟩

end Template.Engine

end ServiceScaffold
