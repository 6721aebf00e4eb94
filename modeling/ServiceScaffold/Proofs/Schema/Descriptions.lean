import ServiceScaffold.Proofs.Results
import ServiceScaffold.Proofs.Schema.Declarations
import ServiceScaffold.Proofs.Schema.DocComment

/-!
# Descriptions

The description of a declaration is read from a comment of the text, so that no closer of a comment
stands in it: pasted into a comment, it cannot end that comment.  There is one exception, the
comment `/**/`, which becomes a description as it stands.

* `Cursor.exists_doc?` : a documentation comment has been read from a block of the text;
* `Schema.closer_isInfix_iff` : **a description that holds a closer is `/**/`, and so for the texts
  that are read from one comment**;
* `Schema.closer_in_description` : a schema with such a description.
-/

namespace ServiceScaffold

open Syntax Text DocComment

theorem Text.isPrefix_takeBytes (n : Nat) (cs : List Char) : takeBytes n cs <+: cs := by
  induction cs generalizing n with
  | nil => exact List.prefix_rfl
  | cons c cs ih =>
    rw [takeBytes]
    split_ifs
    · exact List.nil_prefix
    · exact List.cons_prefix_cons.2 ⟨rfl, ih _⟩

theorem Text.dropBytes_suffix (n : Nat) (cs : List Char) : dropBytes n cs <:+ cs := by
  induction cs generalizing n with
  | nil => exact List.suffix_rfl
  | cons c cs ih =>
    rw [dropBytes]
    split_ifs
    · exact List.suffix_rfl
    · exact (ih _).trans (List.suffix_cons c cs)

theorem Syntax.Node.text_isInfix (source : List Char) (n : Node) : n.text source <:+: source :=
  (isPrefix_takeBytes _ _).isInfix.trans (dropBytes_suffix _ source).isInfix

/-- A documentation comment as it stands in a text: it encloses a body, or it is the shortest one. -/
def DocComment.IsBlock (raw : List Char) : Prop := raw = shortest ∨ ∃ inner, Encloses raw inner

theorem DocComment.IsBlock.texts {raw text : List Char} (h : IsBlock raw)
    (htext : text ∈ (DocComment.parse raw).texts) : closer <:+: text ↔ raw = shortest := by
  obtain rfl | ⟨inner, hinner⟩ := h
  · rw [parse_shortest] at htext
    obtain rfl : text = shortest := by simpa [DocComment.texts] using htext
    simp only [iff_true]
    decide
  · have hunclosed : ¬closer <:+: text := hinner.unclosed_parse text htext
    have hraw : raw ≠ shortest := by
      rintro rfl
      have hlength := congrArg List.length hinner.text
      simp [shortest, opener, closer] at hlength
    simp [hunclosed, hraw]

namespace Syntax.Node

/-- The node is no comment, or it is one comment of the text and no more. -/
def IsWholeComment (source : List Char) (n : Node) : Prop :=
  n.kind = .comment → comment? (n.text source) = some []

/-- The comments in the tree are those of the text. -/
def HasWholeComments (source : List Char) (root : Node) : Prop :=
  ∀ n ∈ root.preorder, n.IsWholeComment source

theorem Sound.hasWholeComments {source : List Char} {root : Node} (h : root.Sound source) :
    root.HasWholeComments source := by
  intro n hn
  obtain ⟨c, hc, rfl⟩ := Cursor.IsIn.exists_of_mem_preorder hn
  exact (h.of_isIn hc).comment

end Syntax.Node

namespace Syntax.Cursor

variable {source : List Char}

theorem isBlock_of_adjacentDoc? {nodes : List Node} {raw : List Char}
    (hnodes : ∀ n ∈ nodes, n.IsWholeComment source) (h : adjacentDoc? source nodes = some raw) :
    raw <:+: source ∧ IsBlock raw := by
  induction nodes with
  | nil => cases h
  | cons n nodes ih =>
    have hrest := ih fun m hm => hnodes m (List.mem_cons_of_mem _ hm)
    rw [adjacentDoc?] at h
    dsimp only at h
    split_ifs at h with hkind hopener
    · obtain rfl := Option.some.inj h
      have hcomment := hnodes n List.mem_cons_self hkind
      exact ⟨n.text_isInfix source,
        encloses_of_comment? (List.isPrefixOf_iff_prefix.1 hopener) hcomment⟩
    · exact hrest h
    · exact hrest h

theorem isIn_exported {root : Node} {c : Cursor} (h : c.IsIn root) : c.exported.IsIn root := by
  unfold exported
  split
  · rename_i parent hparent
    split_ifs
    · exact h.parent hparent
    · exact h
  · exact h

/-- The documentation comment of a node has been read from a block of the text. -/
theorem exists_doc? {root : Node} {c : Cursor} {doc : DocComment}
    (hroot : root.HasWholeComments source) (h : c.IsIn root) (hdoc : c.doc? source = some doc) :
    ∃ raw, raw <:+: source ∧ IsBlock raw ∧ doc = DocComment.parse raw := by
  obtain ⟨raw, hraw, rfl⟩ := Option.map_eq_some_iff.1 hdoc
  refine ⟨raw, ?_⟩
  have hbefore {c : Cursor} (h : c.IsIn root) : ∀ n ∈ c.before, n.IsWholeComment source :=
    fun n hn => hroot n (h.before n hn)
  rw [Option.orElse_eq_or, Option.or_eq_some_iff] at hraw
  obtain hown | ⟨-, hother⟩ := hraw
  · obtain ⟨hin, hblock⟩ := isBlock_of_adjacentDoc? (hbefore h) hown
    exact ⟨hin, hblock, rfl⟩
  rw [Option.orElse_eq_or, Option.or_eq_some_iff] at hother
  obtain hexport | ⟨-, htrailing⟩ := hother
  · obtain ⟨hin, hblock⟩ := isBlock_of_adjacentDoc? (hbefore (isIn_exported h)) hexport
    exact ⟨hin, hblock, rfl⟩
  · obtain ⟨hin, hencloses⟩ := encloses_of_trailingBlock? htrailing
    exact ⟨hin.trans (isPrefix_takeBytes _ source).isInfix, .inr hencloses, rfl⟩

/-- A description with a closer is the shortest comment, as it stands in the text. -/
theorem closer_isInfix_descriptionIn {root : Node} {c : Cursor} {d : String}
    (hroot : root.HasWholeComments source) (h : c.IsIn root)
    (hd : descriptionIn (c.doc? source) = some d) :
    closer <:+: d.toList ↔ d.toList = shortest ∧ shortest <:+: source := by
  rcases hdoc : c.doc? source with _ | doc
  · simp [hdoc, descriptionIn] at hd
  obtain ⟨raw, hin, hblock, rfl⟩ := exists_doc? hroot h hdoc
  obtain ⟨text, htext, rfl⟩ : ∃ text, (DocComment.parse raw).description = some text ∧
      String.ofList text = d := by simpa [hdoc, descriptionIn] using hd
  have hmem : text ∈ (DocComment.parse raw).texts := by simp [DocComment.texts, htext]
  rw [String.toList_ofList, hblock.texts hmem]
  constructor
  · rintro rfl
    rw [parse_shortest] at htext
    exact ⟨(Option.some.inj htext).symm, hin⟩
  · rintro ⟨rfl, -⟩
    exact (hblock.texts hmem).1 (by decide)

end Syntax.Cursor

namespace Schema

/-- All descriptions in a schema: those of the interfaces and of their properties, and those of the
type aliases. -/
def descriptions (s : Schema) : List String :=
  s.interfaces.flatMap (fun e =>
    e.2.description.toList ++ e.2.properties.filterMap (·.description)) ++
  s.types.filterMap (·.2.description)

/-- A description has been read at a position of the tree. -/
theorem exists_of_mem_descriptions {source : List Char} {path : String} {root : Node} {d : String}
    (hd : d ∈ (ofTree source path root).schema.descriptions) :
    ∃ c : Cursor, c.IsIn root ∧ descriptionIn (c.doc? source) = some d := by
  obtain ⟨hinterfaces, htypes⟩ := isFrom source path root
  obtain hinterface | halias := List.mem_append.1 hd
  · obtain ⟨e, he, hin⟩ := List.mem_flatMap.1 hinterface
    obtain ⟨c, hc, hfrom⟩ := hinterfaces e he
    obtain hown | hproperty := List.mem_append.1 hin
    · exact ⟨c, hc, hfrom.description.symm.trans (by simpa using hown)⟩
    · obtain ⟨p, hp, hpd⟩ := List.mem_filterMap.1 hproperty
      obtain ⟨m, hm, hpfrom⟩ := hfrom.properties hp
      exact ⟨m, hm, hpfrom.description.symm.trans hpd⟩
  · obtain ⟨e, he, hed⟩ := List.mem_filterMap.1 halias
    obtain ⟨c, hc, hfrom⟩ := htypes e he
    exact ⟨c, hc, hfrom.description.symm.trans hed⟩

/-- A description with a closer is the shortest comment, in every tree whose comments are whole. -/
theorem closer_isInfix_ofTree {source : List Char} {path : String} {root : Node} {d : String}
    (hroot : root.HasWholeComments source)
    (hd : d ∈ (ofTree source path root).schema.descriptions) :
    closer <:+: d.toList ↔ d.toList = shortest ∧ shortest <:+: source := by
  obtain ⟨c, hc, hdescription⟩ := exists_of_mem_descriptions hd
  exact Cursor.closer_isInfix_descriptionIn hroot hc hdescription

theorem closer_isInfix_description {source path : String} {x : Extraction} {d : String}
    (h : ofSource source path = .ok x) (hd : d ∈ x.schema.descriptions) :
    closer <:+: d.toList ↔ d.toList = shortest ∧ shortest <:+: source.toList := by
  obtain rfl := eq_ofTree_of_ofSource h
  exact closer_isInfix_ofTree (sound_parse source.toList).hasWholeComments hd

/-- **A description that holds a closer is the comment `/**/`**, which then stands in the text; and
of all comments with the opener of a documentation comment, that is the only one that gives a
description or the text of a tag with a closer.  What is said of descriptions holds for every tree
whose comments are whole, and so for every text. -/
theorem closer_isInfix_iff (source path : String) :
    (∀ raw, opener <+: raw → comment? raw = some [] →
      ((∃ text ∈ (DocComment.parse raw).texts, closer <:+: text) ↔ raw = shortest)) ∧
    (∀ root : Node, root.HasWholeComments source.toList →
      ∀ d ∈ (ofTree source.toList path root).schema.descriptions,
        (closer <:+: d.toList ↔ d.toList = shortest ∧ shortest <:+: source.toList)) ∧
    ∀ x, ofSource source path = .ok x → ∀ d ∈ x.schema.descriptions,
      (closer <:+: d.toList ↔ d.toList = shortest ∧ shortest <:+: source.toList) := by
  refine ⟨fun raw hopener hraw => ?_, fun root hroot d => closer_isInfix_ofTree hroot,
    fun x h d => closer_isInfix_description h⟩
  · have hblock : IsBlock raw := encloses_of_comment? hopener hraw
    constructor
    · rintro ⟨text, htext, hcloser⟩
      exact (hblock.texts htext).1 hcloser
    · rintro rfl
      exact ⟨shortest, by simp [parse_shortest, DocComment.texts], by decide⟩

/-- An interface with a description and a property with one. -/
def describedSource : String :=
  "/** A note. */ export interface Note \x7b id: string; " ++
    "/** Its text.\n * All of it. */ text: string; \x7d"

theorem closer_isInfix_described : ∃ x, ofSource describedSource "note.ts" = .ok x ∧
    x.schema.descriptions = ["A note.", "Its text.\nAll of it."] ∧
    (∀ d ∈ x.schema.descriptions, ¬closer <:+: d.toList) ∧
    ¬∃ text ∈ (DocComment.parse "/** A note.\n * @role for * / */".toList).texts,
      closer <:+: text := by
  have hkernel : (ofSource describedSource "note.ts").toOption.any (fun x =>
      x.schema.descriptions == ["A note.", "Its text.\nAll of it."]) = true := by
    have hletters : describedSource.toList = _ :=
      String.toList_append.trans (congrArg₂ _ String.toList_ofList String.toList_ofList)
    rw [ofSource, hletters]
    decide +kernel
  obtain ⟨x, hx, hdescriptions⟩ := exists_ok_of_any hkernel
  refine ⟨x, hx, beq_iff_eq.1 hdescriptions, fun d hd hcloser => ?_, fun hcloser => ?_⟩
  · have hshortest := (((closer_isInfix_iff describedSource "note.ts").2.2 x hx d hd).1 hcloser).2
    exact absurd hshortest (by decide +kernel)
  · have hraw := ((closer_isInfix_iff describedSource "note.ts").1 _ (by decide) (by decide)).1
      hcloser
    exact absurd hraw (by decide)

/-- The shortest comment is read as a description, so that a comment around this description ends
within it. -/
theorem closer_in_description :
    ((ofSource "/**/ export interface X \x7b id: string; \x7d" "schema.ts").toOption.map fun x =>
      (x.schema.descriptions, x.warnings.length)) = some (["/**/"], 0) ∧
    closer <:+: "/**/".toList ∧
    opener <+: shortest ∧ comment? shortest = some [] ∧
    closer <:+: shortest ∧ (DocComment.parse shortest).description = some shortest := by
  refine ⟨?_, ?_, ?_, ?_, ?_, ?_⟩
  · decide +kernel
  all_goals decide

end Schema

end ServiceScaffold
