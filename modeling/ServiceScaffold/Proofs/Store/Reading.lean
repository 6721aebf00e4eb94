import ServiceScaffold.Proofs.Store.Writing

/-!
# Reading files of a disk that changes

* `Disk.readBytes_eq_ok_iff` : what reading a path gives is what stands where the path leads;
* `Disk.hasDirectory_of_follow` : a path that can be followed leads through directories;
* `Disk.KeepsKinds.readBytes_iff` : **a path reads the same from a later disk**, if the files that
  stand where it leads are the same;
* `Disk.readBytes_write`, `Disk.readBytes_write_self` : what is read after a file was written.
-/

namespace ServiceScaffold.Disk

variable {d d' : Disk} {t : Trail} {p : FilePath} {cs : List Component} {b : ByteArray}

theorem readBytes_eq_ok_iff : d.readBytes p = .ok b ↔ (∃ x, d.place p = .ok x) ∧
    d.standing? (d.trailOf p) = some (.file b) ∧ wantsDirectory p = false := by
  rcases hp : d.place p with x | x
  · simp [readBytes, stat, hp]
  · have hx := trail_of_place_ok hp
    subst hx
    simp only [readBytes, stat, hp]
    rcases hs : d.standing? (d.trailOf p) with _ | ⟨bytes | r⟩
    · simp
    · by_cases hwants : wantsDirectory p = true <;> simp [hwants]
    · simp

theorem readText_of_readBytes {text : String} (h : d.readBytes p = .ok text.toUTF8) :
    d.readText p = .ok text := by
  have hdecode : String.fromUTF8? text.toUTF8 = some text := by
    have hvalid : text.toUTF8.IsValidUTF8 := text.isValidUTF8
    rw [String.fromUTF8?, dif_pos hvalid]
    rfl
  rw [readText, h]
  simp only [Except.bind, hdecode]

theorem isFile_iff : d.isFile p = true ↔ ∃ b, d.readBytes p = .ok b := by
  unfold isFile readBytes
  rcases d.stat p with x | ⟨trail, b | r⟩
  · simp
  · simp
  · simp

/-- A path that can be followed leads through directories. -/
theorem hasDirectory_of_follow (hd : d.IsTree) (ht : d.HasDirectory t) {more : List Component}
    (hmore : more ≠ []) {x : DiskPlace} (h : d.follow t (cs ++ more) = .ok x) :
    d.HasDirectory (trailFrom t cs) := by
  induction cs generalizing t with
  | nil => exact ht
  | cons c cs ih =>
    cases c with
    | root => exact ih d.hasDirectory_nil h
    | current => exact ih ht h
    | parent => exact ih (hd.dropLast ht) h
    | normal name =>
      rcases hs : d.standing? (t ++ [name]) with _ | ⟨bytes | r⟩
      · simp [follow, hs, hmore] at h
      · simp [follow, hs, hmore] at h
      · exact ih (t := t ++ [name]) ⟨r, hs⟩ (by simpa [follow, hs] using h)

/-- The last name of a path may be that of anything. -/
theorem exists_follow_name (d : Disk) (t : Trail) (name : List Char) :
    ∃ y, d.follow t [.normal name] = .ok y := by
  rcases hs : d.standing? (t ++ [name]) with _ | ⟨bytes | r⟩ <;> simp [follow, hs]

theorem KeepsKinds.follow_ok (h : d.KeepsKinds d') {x : DiskPlace}
    (hf : d.follow t cs = .ok x) : ∃ y, d'.follow t cs = .ok y := by
  fun_induction follow d t cs with
  | case1 t => exact ⟨_, rfl⟩
  | case2 t rest ih => exact ih hf
  | case3 t rest ih => exact ih hf
  | case4 t rest ih => exact ih hf
  | case5 t name rest r hs ih =>
    obtain ⟨r', hs'⟩ := h.directory ⟨r, hs⟩
    obtain ⟨y, hy⟩ := ih hf
    exact ⟨y, by simpa [follow, hs'] using hy⟩
  | case6 t name b hs => exact d'.exists_follow_name t name
  | case7 => simp at hf
  | case8 t name hs => exact d'.exists_follow_name t name
  | case9 => simp at hf

theorem KeepsKinds.place_ok (h : d.KeepsKinds d') {x : DiskPlace} (hp : d.place p = .ok x) :
    ∃ y, d'.place p = .ok y := by
  obtain ⟨hne, hf⟩ := Disk.place_ok hp
  obtain ⟨y, hy⟩ := h.follow_ok hf
  refine ⟨y, ?_⟩
  rw [place, if_neg (by simpa using hne), h.home]
  exact hy

theorem KeepsKinds.exists_standing (h : d.KeepsKinds d') {e : DiskEntry}
    (hs : d.standing? t = some e) : ∃ e, d'.standing? t = some e := by
  cases e with
  | directory r =>
    obtain ⟨r', hr'⟩ := h.directory ⟨r, hs⟩
    exact ⟨_, hr'⟩
  | file b =>
    obtain ⟨b', hb'⟩ := h.file hs
    exact ⟨_, hb'⟩

theorem KeepsKinds.trailOf (h : d.KeepsKinds d') (p : FilePath) : d'.trailOf p = d.trailOf p := by
  rw [Disk.trailOf, h.home, Disk.trailOf]

/-- A path reads the same from a disk that keeps the kinds of everything, if the files that stand
where it leads are the same. -/
theorem KeepsKinds.readBytes_iff (h : d.KeepsKinds d') (hd : d.IsTree) (hc : d.climbs p = false)
    (hsame : ∀ b, d'.standing? (d.trailOf p) = some (.file b) ↔
      d.standing? (d.trailOf p) = some (.file b)) :
    d'.readBytes p = .ok b ↔ d.readBytes p = .ok b := by
  rw [readBytes_eq_ok_iff, readBytes_eq_ok_iff, h.trailOf, hsame b]
  constructor
  · rintro ⟨⟨x, hx⟩, hstand, hplain⟩
    obtain ⟨hne, hf'⟩ := Disk.place_ok hx
    refine ⟨?_, hstand, hplain⟩
    -- a path that can be followed later only would lead below a place where nothing stands
    rcases hf : d.follow d.home p.components with e | y
    · exfalso
      obtain rfl | rfl := follow_error hf
      · have hnone := standing?_of_missing hd hf hc
        rw [← Disk.trailOf, hstand] at hnone
        cases hnone
      · rw [h.home, h.follow_notDirectory hf] at hf'
        cases hf'
    · exact ⟨y, by rw [place, if_neg (by simpa using hne), hf]⟩
  · rintro ⟨⟨x, hx⟩, hstand, hplain⟩
    exact ⟨h.place_ok hx, hstand, hplain⟩

/-- Writing a file changes none that is read elsewhere. -/
theorem readBytes_write {q : FilePath} {b' : ByteArray} (h : d.write p b = (.ok (), d'))
    (hq : d.readBytes q = .ok b') (hne : d.trailOf q ≠ d.trailOf p) : d'.readBytes q = .ok b' := by
  obtain ⟨⟨x, hx⟩, hstand, hplain⟩ := readBytes_eq_ok_iff.1 hq
  have hkinds := write_kinds h
  rw [readBytes_eq_ok_iff, hkinds.trailOf]
  exact ⟨hkinds.place_ok hx, write_frame h hstand hne, hplain⟩

/-- A file that could be written is read as it was written. -/
theorem readBytes_write_self (h : d.write p b = (.ok (), d')) : d'.readBytes p = .ok b := by
  have hstand := standing?_write_self h
  rw [readBytes_eq_ok_iff, (write_kinds h).trailOf]
  obtain ⟨mid, hgrows, ⟨x, hplace⟩, hdir, hplain, rfl⟩ := write_ok h
  have hkinds : mid.KeepsKinds (mid.put (d.trailOf p) (.file b)) := .put_file hdir b
  exact ⟨hkinds.place_ok hplace, hstand, hplain⟩

end ServiceScaffold.Disk
