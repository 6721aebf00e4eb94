import ServiceScaffold.Proofs.Json.Texts
import ServiceScaffold.Proofs.Keyed

/-!
# Printed values read back

What is printed over several lines is read as the value that was printed, as far as the shape of the
reader keeps it and its numbers are kept.  What a part of a value is read as does not depend on what
stands behind it, so that the parts of a value can be put together.

* `ReadsAs`, `ReadsBack` : what a value is read as under a shape, at every level and from every
  longer text, and the values that are read back;
* `readsBack_bool`, `readsBack_str` : scalars are read back;
* `readsBack_arr`, `readsAs_obj`, `readsBack_obj` : **a list is read back if its items are, and an
  object is read as what its fields are read as**;
* `parseAs?_pretty` : a text that holds a value alone is read as what the value is read as.
-/

namespace ServiceScaffold.Json

/-! ### Blanks -/

/-- A blank between tokens. -/
def isGapChar (c : Char) : Bool := c == ' ' || c == '\n' || c == '\r' || c == '\t'

theorem skipSpace_cons {c : Char} (h : isGapChar c = false) (cs : List Char) :
    skipSpace (c :: cs) = c :: cs := by
  unfold isGapChar at h
  rw [skipSpace, List.dropWhile_cons, h]
  simp

theorem skipSpace_newLine (depth : Nat) (cs : List Char) :
    skipSpace ((newLine depth).toList ++ cs) = skipSpace cs := by
  unfold newLine skipSpace
  rw [String.toList_ofList, List.dropWhile_append_of_pos]
  intro c hc
  obtain rfl | hspace := List.mem_cons.1 hc
  · rfl
  · rw [List.eq_of_mem_replicate hspace]
    rfl

theorem skipSpace_skipSpace (cs : List Char) : skipSpace (skipSpace cs) = skipSpace cs := by
  induction cs with
  | nil => rfl
  | cons c cs ih =>
    by_cases hc : isGapChar c
    · have hstep : skipSpace (c :: cs) = skipSpace cs := List.dropWhile_cons_of_pos hc
      rw [hstep, ih]
    · rw [skipSpace_cons (by simpa using hc), skipSpace_cons (by simpa using hc)]

/-- Blanks before a value do not matter. -/
theorem readValue?_skipSpace (fuel : Nat) (shape : Shape) (cs : List Char) :
    readValue? fuel shape (skipSpace cs) = readValue? fuel shape cs := by
  cases fuel with
  | zero => simp only [readValue?]
  | succ fuel => simp only [readValue?, skipSpace_skipSpace]

/-! ### Values -/

/-- A value that is printed before `rest` ends there. -/
def EndsBefore (rest : List Char) : Prop := ∀ c ∈ rest.head?, c = ',' ∨ c = '\n'

/-- The printed value is read as `result` under a shape, wherever it stands. -/
structure ReadsAs (shape : Shape) (v : Json) (result : Option Json) : Prop where
  starts (depth : Nat) : ∃ c cs, (prettyAt depth v).toList = c :: cs ∧ isGapChar c = false ∧
    c ≠ ']'
  reads (depth : Nat) {fuel : Nat} {rest : List Char}
    (hfuel : 2 * (prettyAt depth v).toList.length ≤ fuel) (hrest : EndsBefore rest) :
    readValue? (fuel + 1) shape ((prettyAt depth v).toList ++ rest) = result.map (·, rest)

/-- The printed value is read back. -/
abbrev ReadsBack (shape : Shape) (v : Json) : Prop := ReadsAs shape v (some v)

theorem prettyAt_bool (depth : Nat) (b : Bool) :
    (prettyAt depth (.bool b)).toList = if b then "true".toList else "false".toList := by
  cases b <;> simp [prettyAt, scalarText]

theorem prettyAt_str (depth : Nat) (s : String) :
    (prettyAt depth (.str s)).toList = '"' :: (s.toList.flatMap escapeChar ++ ['"']) := by
  simp [prettyAt, scalarText, toList_quote]

theorem readsBack_bool (shape : Shape) (b : Bool) : ReadsBack shape (.bool b) where
  starts depth := by
    rw [prettyAt_bool]
    cases b
    · exact ⟨'f', "alse".toList, rfl, by decide, by decide⟩
    · exact ⟨'t', "rue".toList, rfl, by decide, by decide⟩
  reads depth {fuel rest} _ _ := by
    rw [prettyAt_bool, readValue?]
    cases b <;> rfl

theorem readsBack_str {shape : Shape} (h : shape.isUnused = false) (s : String) :
    ReadsBack shape (.str s) where
  starts depth := ⟨'"', _, prettyAt_str depth s, by decide, by decide⟩
  reads depth {fuel rest} _ _ := by
    rw [prettyAt_str, List.cons_append, List.append_assoc, List.singleton_append, readValue?,
      skipSpace_cons (by decide)]
    simp only [text?_quote h, Option.map_some]

/-! ### Lists -/

theorem endsBefore_prettyItems (depth depth' : Nat) (items : List Json) (rest : List Char) :
    EndsBefore ((prettyItems depth items).toList ++ ((newLine depth').toList ++ rest)) := by
  cases items <;> simp [EndsBefore, prettyItems, newLine]

theorem prettyItems_cons (depth : Nat) (w : Json) (items : List Json) :
    (prettyItems depth (w :: items)).toList = ',' :: ((newLine depth).toList ++
      ((prettyAt depth w).toList ++ (prettyItems depth items).toList)) := by
  simp [prettyItems]

theorem prettyAt_arr_cons (depth : Nat) (v : Json) (items : List Json) :
    (prettyAt depth (.arr (v :: items))).toList = '[' :: ((newLine (depth + 1)).toList ++
      ((prettyAt (depth + 1) v).toList ++ ((prettyItems (depth + 1) items).toList ++
        ((newLine depth).toList ++ [']'])))) := by
  simp [prettyAt]

/-- An item is read, and what stands behind it says whether there are more. -/
theorem readItems?_item {shape : Shape} {v : Json} {done : List Json} {depth fuel : Nat}
    {tail cs : List Char} (h : ReadsBack (shape.item done.length) v)
    (hcs : skipSpace cs = (prettyAt depth v).toList ++ tail) (htail : EndsBefore tail)
    (hfuel : 2 * (prettyAt depth v).toList.length ≤ fuel) :
    readItems? (fuel + 2) shape done cs = match skipSpace tail with
      | ',' :: rest => readItems? (fuel + 1) shape (v :: done) rest
      | ']' :: rest => some ((v :: done).reverse, rest)
      | _ => none := by
  have hv := h.reads depth hfuel htail
  rw [← hcs, readValue?_skipSpace, Option.map_some] at hv
  rewrite [readItems?, hv]
  rfl

/-- Items are read one after the other, up to the end of their list. -/
theorem readItems?_prettyItems {shape : Shape} {v : Json} {items done : List Json}
    {depth depth' fuel : Nat} {rest cs : List Char}
    (hitems : ∀ i w, (v :: items)[i]? = some w → ReadsBack (shape.item (done.length + i)) w)
    (hcs : skipSpace cs = (prettyAt depth v).toList ++
      ((prettyItems depth items).toList ++ ((newLine depth').toList ++ ']' :: rest)))
    (hfuel : 2 * ((prettyAt depth v).toList.length + (prettyItems depth items).toList.length) ≤
      fuel) :
    readItems? (fuel + 2) shape done cs = some (done.reverse ++ v :: items, rest) := by
  induction items generalizing v done cs fuel with
  | nil =>
    rw [readItems?_item (hitems 0 v rfl) hcs (endsBefore_prettyItems depth depth' [] _) (by omega),
      prettyItems, String.toList_empty, List.nil_append, skipSpace_newLine,
      skipSpace_cons (by decide)]
    simp only [List.reverse_cons]
  | cons w items ih =>
    rw [readItems?_item (hitems 0 v rfl) hcs (endsBefore_prettyItems depth depth' _ _) (by omega),
      prettyItems_cons, List.cons_append, skipSpace_cons (by decide)]
    rw [prettyItems_cons] at hfuel
    simp only [List.length_cons, List.length_append] at hfuel
    obtain ⟨less, rfl⟩ : ∃ less, fuel = less + 1 := ⟨fuel - 1, by omega⟩
    -- the further items stand on lines of their own
    obtain ⟨c, text, htext, hc, -⟩ := (hitems 1 w rfl).starts depth
    simp only [List.append_assoc]
    rw [ih (fun i x hx => ?_) (by rw [skipSpace_newLine, htext, List.cons_append,
      skipSpace_cons hc]) (by omega)]
    · simp
    · have hlater := hitems (i + 1) x hx
      rwa [List.length_cons, Nat.add_right_comm, Nat.add_assoc]

/-- **A list is read back if its items are.** -/
theorem readsBack_arr {shape : Shape} {items : List Json}
    (h : ∀ i v, items[i]? = some v → ReadsBack (shape.item i) v) : ReadsBack shape (.arr items) := by
  rcases items with _ | ⟨v, items⟩
  · have htext (depth : Nat) : (prettyAt depth (.arr [])).toList = ['[', ']'] := by
      simp [prettyAt, scalarText]
    refine ⟨fun depth => ⟨'[', [']'], htext depth, by decide, by decide⟩,
      fun depth fuel rest _ _ => ?_⟩
    rw [htext, readValue?, List.cons_append, skipSpace_cons (by decide), List.cons_append]
    simp only [List.nil_append, skipSpace_cons (show isGapChar ']' = false by decide),
      Option.map_some]
  · refine ⟨fun depth => ⟨'[', _, prettyAt_arr_cons depth v items, by decide, by decide⟩,
      fun depth fuel rest hfuel _ => ?_⟩
    rw [prettyAt_arr_cons] at hfuel ⊢
    simp only [List.length_cons, List.length_append] at hfuel
    obtain ⟨more, rfl⟩ : ∃ more, fuel = more + 2 := ⟨fuel - 2, by omega⟩
    obtain ⟨c, text, htext, hc, hbracket⟩ := (h 0 v rfl).starts (depth + 1)
    have hskip : skipSpace ((newLine (depth + 1)).toList ++
        ((prettyAt (depth + 1) v).toList ++ ((prettyItems (depth + 1) items).toList ++
          ((newLine depth).toList ++ ']' :: rest)))) = (prettyAt (depth + 1) v).toList ++
            ((prettyItems (depth + 1) items).toList ++ ((newLine depth).toList ++ ']' :: rest)) := by
      rw [skipSpace_newLine, htext, List.cons_append, skipSpace_cons hc]
    have hitems : readItems? (more + 2) shape [] (skipSpace ((newLine (depth + 1)).toList ++
        ((prettyAt (depth + 1) v).toList ++ ((prettyItems (depth + 1) items).toList ++
          ((newLine depth).toList ++ ']' :: rest))))) = some (v :: items, rest) :=
      readItems?_prettyItems (by simpa using h) ((skipSpace_skipSpace _).trans hskip) (by omega)
    rw [List.cons_append, readValue?, skipSpace_cons (by decide)]
    simp only [List.append_assoc, List.singleton_append]
    split
    -- a list with items does not end before the first of them
    · rename_i heq
      rw [hskip, htext] at heq
      exact absurd (List.cons.inj heq).1 hbracket
    · rw [hitems, Option.map_some, Option.map_some]

/-! ### Objects -/

theorem endsBefore_prettyFields (depth depth' : Nat) (fields : List (String × Json))
    (rest : List Char) :
    EndsBefore ((prettyFields depth fields).toList ++ ((newLine depth').toList ++ rest)) := by
  cases fields <;> simp [EndsBefore, prettyFields, newLine]

/-- A field as it is printed. -/
def fieldText (depth : Nat) (field : String × Json) : List Char :=
  (quote field.1).toList ++ (':' :: ' ' :: (prettyAt depth field.2).toList)

theorem prettyFields_cons (depth : Nat) (field : String × Json) (fields : List (String × Json)) :
    (prettyFields depth (field :: fields)).toList = ',' :: ((newLine depth).toList ++
      (fieldText depth field ++ (prettyFields depth fields).toList)) := by
  simp [prettyFields, fieldText]

theorem prettyAt_obj_cons (depth : Nat) (field : String × Json) (fields : List (String × Json)) :
    (prettyAt depth (.obj (field :: fields))).toList = '\x7b' :: ((newLine (depth + 1)).toList ++
      (fieldText (depth + 1) field ++ ((prettyFields (depth + 1) fields).toList ++
        ((newLine depth).toList ++ ['\x7d'])))) := by
  simp [prettyAt, fieldText]

/-- A field that the shape keeps, with a value that is read as `result`. -/
structure FieldReadsAs (shape : Shape) (field : String × Json) (result : Option Json) : Prop where
  used : (shape.field field.1).isUnused = false
  reads : ReadsAs (shape.field field.1) field.2 result

/-- A field that the shape keeps, with a value that is read back. -/
abbrev KeepsField (shape : Shape) (field : String × Json) : Prop :=
  FieldReadsAs shape field (some field.2)

theorem FieldReadsAs.isUsed {shape : Shape} {field : String × Json} {result : Option Json}
    (h : FieldReadsAs shape field result) : shape.isUnused = false := by
  have hused := h.used
  cases shape <;> first | rfl | cases hused

theorem fieldText_starts (depth : Nat) (field : String × Json) :
    ∃ text, fieldText depth field = '"' :: text := by
  simp [fieldText, toList_quote]

/-- A field is read, and what stands behind it says whether there are more. -/
theorem readFields?_field {shape : Shape} {field : String × Json} {result : Option Json}
    {done : List (String × Json)} {depth fuel : Nat} {tail cs : List Char}
    (h : FieldReadsAs shape field result) (hcs : skipSpace cs = fieldText depth field ++ tail)
    (htail : EndsBefore tail) (hfuel : 2 * (fieldText depth field).length ≤ fuel) :
    readFields? (fuel + 2) shape done cs = result.bind fun v => match skipSpace tail with
      | ',' :: rest => readFields? (fuel + 1) shape ((field.1, v) :: done) rest
      | '\x7d' :: rest => some (((field.1, v) :: done).reverse, rest)
      | _ => none := by
  have htext : fieldText depth field ++ tail = '"' :: (field.1.toList.flatMap escapeChar ++
      '"' :: ':' :: ' ' :: ((prettyAt depth field.2).toList ++ tail)) := by
    simp [fieldText, toList_quote]
  have hlength : (prettyAt depth field.2).toList.length ≤ (fieldText depth field).length := by
    simp [fieldText]
    omega
  have hv := h.reads.reads depth (show _ ≤ fuel by omega) htail
  have hspace : skipSpace (' ' :: ((prettyAt depth field.2).toList ++ tail)) =
      skipSpace ((prettyAt depth field.2).toList ++ tail) := rfl
  rw [← readValue?_skipSpace, ← hspace, readValue?_skipSpace] at hv
  rw [readFields?, hcs, htext]
  simp only [text?_quote h.isUsed, skipSpace_cons (show isGapChar ':' = false by decide), hv,
    h.used]
  cases result <;> rfl

/-- Fields with what their values are read as. -/
abbrev FieldResults := List ((String × Json) × Option Json)

/-- The fields as they are read, if all their values are. -/
def FieldResults.read? (parts : FieldResults) : Option (List (String × Json)) :=
  Keyed.mapValues? id (parts.map fun part => (part.1.1, part.2))

theorem FieldResults.read?_cons (part : (String × Json) × Option Json) (parts : FieldResults) :
    read? (part :: parts) = part.2.bind fun v => (read? parts).map ((part.1.1, v) :: ·) :=
  Keyed.mapValues?_cons id _ _

/-- Fields are read one after the other, up to the end of their object. -/
theorem readFields?_prettyFields {shape : Shape} {part : (String × Json) × Option Json}
    {parts : FieldResults} {done : List (String × Json)} {depth depth' fuel : Nat}
    {rest cs : List Char} (hparts : ∀ p ∈ part :: parts, FieldReadsAs shape p.1 p.2)
    (hcs : skipSpace cs = fieldText depth part.1 ++
      ((prettyFields depth (parts.map Prod.fst)).toList ++
        ((newLine depth').toList ++ '\x7d' :: rest)))
    (hfuel : 2 * ((fieldText depth part.1).length +
      (prettyFields depth (parts.map Prod.fst)).toList.length) ≤ fuel) :
    readFields? (fuel + 2) shape done cs =
      (FieldResults.read? (part :: parts)).map fun fields => (done.reverse ++ fields, rest) := by
  have hfirst := hparts part List.mem_cons_self
  induction parts generalizing part done cs fuel with
  | nil =>
    rw [readFields?_field hfirst hcs (endsBefore_prettyFields depth depth' [] _) (by omega),
      List.map_nil, prettyFields, String.toList_empty, List.nil_append, skipSpace_newLine,
      skipSpace_cons (by decide), FieldResults.read?_cons]
    cases part.2 <;> simp [FieldResults.read?, Keyed.mapValues?]
  | cons other parts ih =>
    rw [readFields?_field hfirst hcs (endsBefore_prettyFields depth depth' _ _) (by omega),
      List.map_cons, prettyFields_cons, List.cons_append, skipSpace_cons (by decide),
      FieldResults.read?_cons]
    rw [List.map_cons, prettyFields_cons] at hfuel
    simp only [List.length_cons, List.length_append] at hfuel
    obtain ⟨less, rfl⟩ : ∃ less, fuel = less + 1 := ⟨fuel - 1, by omega⟩
    obtain ⟨text, htext⟩ := fieldText_starts depth other.1
    rcases part.2 with _ | v
    · rfl
    simp only [List.append_assoc, Option.bind_some]
    rw [ih (fun p hp => hparts p (List.mem_cons_of_mem _ hp)) (by rw [skipSpace_newLine, htext,
      List.cons_append, skipSpace_cons (by decide)]) (by omega) (hparts other (by simp))]
    simp [Function.comp_def]

/-- **An object is read as what its fields are read as**, if all of them are kept. -/
theorem readsAs_obj {shape : Shape} {parts : FieldResults}
    (h : ∀ p ∈ parts, FieldReadsAs shape p.1 p.2) :
    ReadsAs shape (.obj (parts.map Prod.fst)) (parts.read?.map .obj) := by
  rcases parts with _ | ⟨part, parts⟩
  · have htext (depth : Nat) : (prettyAt depth (.obj [])).toList = ['\x7b', '\x7d'] := by
      simp [prettyAt, scalarText]
    refine ⟨fun depth => ⟨'\x7b', ['\x7d'], htext depth, by decide, by decide⟩,
      fun depth fuel rest _ _ => ?_⟩
    rw [List.map_nil, htext, readValue?, List.cons_append, skipSpace_cons (by decide),
      List.cons_append]
    simp only [List.nil_append, skipSpace_cons (show isGapChar '\x7d' = false by decide)]
    rfl
  · refine ⟨fun depth => ⟨'\x7b', _, prettyAt_obj_cons depth part.1 _, by decide, by decide⟩,
      fun depth fuel rest hfuel _ => ?_⟩
    rw [List.map_cons, prettyAt_obj_cons] at hfuel ⊢
    simp only [List.length_cons, List.length_append] at hfuel
    obtain ⟨more, rfl⟩ : ∃ more, fuel = more + 2 := ⟨fuel - 2, by omega⟩
    obtain ⟨text, htext⟩ := fieldText_starts (depth + 1) part.1
    have hskip : skipSpace ((newLine (depth + 1)).toList ++ (fieldText (depth + 1) part.1 ++
        ((prettyFields (depth + 1) (parts.map Prod.fst)).toList ++
          ((newLine depth).toList ++ '\x7d' :: rest)))) = fieldText (depth + 1) part.1 ++
            ((prettyFields (depth + 1) (parts.map Prod.fst)).toList ++
              ((newLine depth).toList ++ '\x7d' :: rest)) := by
      rw [skipSpace_newLine, htext, List.cons_append, skipSpace_cons (by decide)]
    have hfields : readFields? (more + 2) shape [] (skipSpace ((newLine (depth + 1)).toList ++
        (fieldText (depth + 1) part.1 ++ ((prettyFields (depth + 1) (parts.map Prod.fst)).toList ++
          ((newLine depth).toList ++ '\x7d' :: rest))))) =
            (FieldResults.read? (part :: parts)).map fun fields => (fields, rest) :=
      readFields?_prettyFields h ((skipSpace_skipSpace _).trans hskip) (by omega)
    rw [List.cons_append, readValue?, skipSpace_cons (by decide)]
    simp only [List.append_assoc, List.singleton_append]
    split
    -- an object with fields does not end before the first of them
    · rename_i heq
      rw [hskip, htext] at heq
      cases heq
    · rw [hfields, Option.map_map, Option.map_map]
      rfl

/-- Entries are read as what their values are read as. -/
theorem readsAs_entries {α : Type} {shape : Shape} {encode : α → Json} {result : α → Option Json}
    {entries : List (String × α)}
    (h : ∀ e ∈ entries, FieldReadsAs shape (e.1, encode e.2) (result e.2)) :
    ReadsAs shape (.obj (entries.map fun e => (e.1, encode e.2)))
      ((Keyed.mapValues? result entries).map .obj) := by
  have hobj : ReadsAs shape
      (.obj ((entries.map fun e => ((e.1, encode e.2), result e.2)).map Prod.fst))
      ((FieldResults.read? (entries.map fun e => ((e.1, encode e.2), result e.2))).map .obj) := by
    refine readsAs_obj fun p hp => ?_
    obtain ⟨e, he, rfl⟩ := List.mem_map.1 hp
    exact h e he
  rw [List.map_map, FieldResults.read?, List.map_map] at hobj
  have hresults : Keyed.mapValues? id (entries.map fun e => (e.1, result e.2)) =
      Keyed.mapValues? result entries := Keyed.mapValues?_map id result entries
  rwa [← hresults]

/-- **An object is read back if its fields are kept and read back.** -/
theorem readsBack_obj {shape : Shape} {fields : List (String × Json)}
    (h : ∀ e ∈ fields, KeepsField shape e) : ReadsBack shape (.obj fields) := by
  have hobj : ReadsAs shape (.obj (fields.map fun e => (e.1, id e.2)))
      ((Keyed.mapValues? some fields).map .obj) := readsAs_entries h
  have hsame : fields.map (fun e => (e.1, id e.2)) = fields := List.map_id fields
  rwa [Keyed.mapValues?_eq_self.2 fun _ _ => rfl, hsame] at hobj

/-- **A text that holds a value alone** is read as what the value is read as. -/
theorem parseAs?_pretty {shape : Shape} {v : Json} {result : Option Json}
    (h : ReadsAs shape v result) : parseAs? shape v.pretty = result := by
  have hread : readValue? (2 * v.pretty.length + 3 + 1) shape (v.pretty.toList ++ []) =
      result.map (·, []) :=
    h.reads 0 (by rw [pretty, String.length_toList]; omega) (by simp [EndsBefore])
  rw [List.append_nil] at hread
  rw [parseAs?, hread]
  cases result <;> rfl

end ServiceScaffold.Json
