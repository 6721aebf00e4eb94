import ServiceScaffold.Proofs.Schema.Accounting
import ServiceScaffold.Proofs.Syntax.Programs

/-!
# Schemas of programs

What the extraction of a text comes to that exports interfaces and aliases, one after the other:
each of them is taken up as it stands there, and there is nothing to warn about.

* `DeclarationText.Tells` : a declaration is the one in the text, documentation aside;
* `Findings.visit_exports` : the visit of an export takes its declaration up;
* `Schema.ofSource_program` : **a program becomes the schema of its declarations, without
  warnings**.
-/

namespace ServiceScaffold

open Syntax Text

variable {source : List Char} {path : String}

/-! ### Declarations as they stand in a text -/

/-- The property is the one in the text, documentation aside. -/
structure Syntax.PropertyText.Tells (p : PropertyText) (x : Property) : Prop where
  name : x.name = String.ofList p.name
  type : x.type = String.ofList (collapseBlanks p.type)
  isOptional : x.isOptional = p.isOptional

/-- The declaration is the one in the text, documentation aside. -/
inductive Syntax.DeclarationText.Tells : DeclarationText → Declaration → Prop where
  | typeAlias {x t : List Char} (a : TypeAlias) (roles : List Role) (name : a.name = String.ofList x)
      (type : a.type = String.ofList (collapseBlanks t)) :
      Tells (.typeAlias x t) (.typeAlias a roles)
  | interface {x : List Char} {ps : List PropertyText} (i : Interface) (roles : List Role)
      (name : i.name = String.ofList x) (parents : i.parents = [])
      (properties : List.Forall₂ PropertyText.Tells ps i.properties) :
      Tells (.interface x ps) (.interface i roles [])

/-! ### Quiet nodes -/

theorem anyError_of_isQuiet {nodes : List Node} (hnodes : ∀ n ∈ nodes, n.IsQuiet → n.hasError = false)
    (h : AllQuiet nodes) : Node.anyError nodes = false := by
  induction nodes with
  | nil => rfl
  | cons n nodes ih =>
    rw [Node.anyError, hnodes n List.mem_cons_self (h n List.mem_cons_self),
      ih (fun m hm => hnodes m (List.mem_cons_of_mem _ hm))
        fun m hm => h m (List.mem_cons_of_mem _ hm)]
    rfl

theorem hasError_of_isQuiet (n : Node) : n.IsQuiet → n.hasError = false := by
  induction n using Node.induct with
  | mk kind field start stop missing children ih =>
    intro h
    have hroot := h (.mk kind field start stop missing children) (by simp [Node.preorder])
    have hkind : (kind == .error) = false := by
      have hquiet : kind.isQuiet = true := hroot.1
      simp only [NodeKind.isQuiet, Bool.and_eq_true, bne_iff_ne] at hquiet
      simpa using hquiet.1
    have hmissing : missing = false := hroot.2
    have hbelow := anyError_of_isQuiet ih fun m hm n hn =>
      h n (by rw [Node.preorder]; exact List.mem_cons_of_mem _ (mem_preorderAll.2 ⟨m, hm, hn⟩))
    simp [Node.hasError, hkind, hmissing, hbelow]

theorem hasError_of_children {n : Node} (hkind : n.kind ≠ .error) (hmissing : n.missing = false)
    (h : AllQuiet n.children) : n.hasError = false := by
  obtain ⟨kind, field, start, stop, missing, children⟩ := n
  have hkind : kind ≠ .error := hkind
  have hmissing : missing = false := hmissing
  have hbelow : Node.anyError children = false :=
    anyError_of_isQuiet (fun n _ => hasError_of_isQuiet n) h
  simp [Node.hasError, hkind, hmissing, hbelow]

namespace Findings

theorem visit_quiet {c : Cursor} (h : c.node.kind.isQuiet = true) (s : Findings) :
    s.visit source path c = s := by
  simp only [NodeKind.isQuiet, Bool.and_eq_true, bne_iff_ne] at h
  rw [visit, if_neg h.2, if_neg (by simp [isSkippedRegion, Node.isError, h.1])]

/-- Visits of quiet nodes find nothing. -/
theorem foldl_quiet {cs : List Cursor} (h : ∀ c ∈ cs, c.node.kind.isQuiet = true) (s : Findings) :
    cs.foldl (visit source path) s = s := by
  induction cs generalizing s with
  | nil => rfl
  | cons c cs ih =>
    rw [List.foldl_cons, visit_quiet (h c List.mem_cons_self),
      ih fun d hd => h d (List.mem_cons_of_mem _ hd)]

theorem foldl_listing_quiet {n : Node} (h : n.IsQuiet) (way : List Step) (s : Findings) :
    (Cursor.listing way n).foldl (visit source path) s = s := by
  refine foldl_quiet (fun c hc => ?_) s
  have hmem : c.node ∈ n.preorder := by
    rw [← Cursor.map_node_listing way n]
    exact List.mem_map_of_mem hc
  exact (h _ hmem).1

theorem foldl_listingAll_quiet {parent : Node} {way : List Step} {nodes : List Node}
    (h : AllQuiet nodes) (before : List Node) (s : Findings) :
    (Cursor.listingAll parent way before nodes).foldl (visit source path) s = s := by
  refine foldl_quiet (fun c hc => ?_) s
  have hmem : c.node ∈ Node.preorderAll nodes := by
    rw [← Cursor.map_node_listingAll parent way before nodes]
    exact List.mem_map_of_mem hc
  obtain ⟨n, hn, hc⟩ := mem_preorderAll.1 hmem
  exact (h n hn _ hc).1

end Findings

/-! ### Declarations -/

/-- A property is read as it stands in the text. -/
theorem propertyOf_isProperty {p : PropertyText} {c : Cursor} (h : p.IsNode source c.node) :
    ∃ x, propertyOf source c = .ok x ∧ p.Tells x := by
  obtain ⟨m, hchild, ⟨b, hkind⟩, htext⟩ := h.name
  obtain ⟨a, htype, hhead⟩ := h.type
  have hname : propertyName source m = .ok (String.ofList p.name) := by
    rcases hp : p.name with _ | ⟨first, more⟩
    · exact absurd hp h.named
    · cases b <;> simp only [propertyName, hkind, BareName.kind, htext, hp]
  have hresult : propertyType source c.node = String.ofList (collapseBlanks p.type) := by
    obtain ⟨v, hv, hvtext⟩ := Option.map_eq_some_iff.1 hhead
    rw [propertyType, htype, Option.bind_some, hv]
    exact congrArg (fun t => String.ofList (collapseBlanks t)) hvtext
  refine ⟨⟨String.ofList p.name, propertyType source c.node, _, descriptionIn (c.doc? source)⟩, ?_,
    rfl, hresult, h.isOptional⟩
  rw [propertyOf, hchild]
  simp only [hname]
  rfl

/-- Properties are read as they stand in the text, without warnings. -/
theorem propertiesOf_isProperty (path name : String) {ps : List PropertyText}
    {members : List Cursor} (h : List.Forall₂ (PropertyText.IsNode source) ps
      ((members.filter (·.node.kind == .propertySignature)).map Cursor.node)) :
    (propertiesOf source path name members).2 = [] ∧
      List.Forall₂ PropertyText.Tells ps (propertiesOf source path name members).1 := by
  rw [propertiesOf]
  generalize members.filter (·.node.kind == .propertySignature) = found at h
  induction found generalizing ps with
  | nil =>
    cases h
    exact ⟨rfl, .nil⟩
  | cons c found ih =>
    cases h with
    | @cons p _ ps _ first others =>
      obtain ⟨x, hx, htells⟩ := propertyOf_isProperty first
      obtain ⟨hwarnings, hproperties⟩ := ih others
      simp only [List.map_cons, hx]
      exact ⟨hwarnings, .cons htells hproperties⟩

theorem declaredName_of_child? {n m : Node} {x : List Char} (what : String)
    (hchild : n.child? .name = some m) (htext : m.text source = x) (hx : x ≠ []) :
    declaredName source what n = .ok (String.ofList x) := by
  have hname : nameText? source n = some (String.ofList x) := by rw [nameText?, hchild, ← htext]; rfl
  have hempty : (String.ofList x).isEmpty = false := by
    simp [Bool.eq_false_iff, hx]
  simp only [declaredName, hname, hempty]
  rfl

/-- An interface is read as it stands in the text. -/
theorem interfaceOf_isInterface {x : List Char} {ps : List PropertyText} {c : Cursor}
    (path : String) (h : c.node.IsInterface source x ps) :
    ∃ d, interfaceOf source path c = .ok d ∧ (DeclarationText.interface x ps).Tells d := by
  obtain ⟨m, hchild, htext⟩ := h.name
  obtain ⟨b, hbody, hholds⟩ := h.body
  obtain ⟨body, hcursor, rfl⟩ := Cursor.exists_child? hbody
  have hmembers : List.Forall₂ (PropertyText.IsNode source) ps
      ((body.namedChildren.filter (·.node.kind == .propertySignature)).map Cursor.node) := by
    have hnamed : (body.namedChildren.filter (·.node.kind == .propertySignature)).map Cursor.node =
        body.node.children.filter (·.kind == .propertySignature) := by
      have hchildren := Cursor.map_node_siblings body.node body.way [] body.node.children
      rw [Cursor.namedChildren, List.filter_filter, Cursor.children]
      conv_rhs => rw [← hchildren, List.filter_map]
      refine congrArg _ (List.filter_congr fun c _ => ?_)
      by_cases hkind : c.node.kind = .propertySignature <;> simp [hkind, NodeKind.isNamed]
    rw [hnamed]
    exact hholds.properties
  obtain ⟨hwarnings, hproperties⟩ :=
    propertiesOf_isProperty path (String.ofList x) hmembers
  have hparents : parentsOf source c.node = [] := by
    have hnone : c.node.namedChildren.filter (·.kind == .extendsClause) = [] := by
      rw [List.filter_eq_nil_iff]
      intro n hn
      simpa using h.bare n (List.mem_of_mem_filter hn)
    rw [parentsOf, hnone]
    rfl
  unfold interfaceOf
  rw [declaredName_of_child? "interface" hchild htext h.named, hcursor]
  simp only [Option.map_some, Option.getD_some]
  refine ⟨_, rfl, ?_⟩
  rw [hwarnings]
  exact .interface _ _ rfl hparents hproperties

/-- An alias is read as it stands in the text. -/
theorem typeAliasOf_isAlias {x t : List Char} {c : Cursor} (h : c.node.IsAlias source x t) :
    ∃ d, typeAliasOf source c = .ok d ∧ (DeclarationText.typeAlias x t).Tells d := by
  obtain ⟨m, hchild, htext⟩ := h.name
  obtain ⟨v, hvalue, hvtext⟩ := h.value
  unfold typeAliasOf
  rw [declaredName_of_child? "type alias" hchild htext h.named, hvalue]
  refine ⟨_, rfl, .typeAlias _ _ rfl ?_⟩
  rw [collapsedText, hvtext]

/-! ### Exports -/

theorem Syntax.DeclarationText.IsNode.withField {d : DeclarationText} {n : Node}
    (h : d.IsNode source n) (f : FieldName) : d.IsNode source (n.withField f) := by
  cases d with
  | typeAlias x t =>
    obtain ⟨hnamed, hkind, hquiet, hname, hvalue⟩ : n.IsAlias source x t := h
    exact ⟨hnamed, by simpa using hkind, hquiet.withField f, by simpa using hname,
      by simpa using hvalue⟩
  | interface x ps =>
    obtain ⟨hnamed, hkind, hquiet, hname, hbody, hbare⟩ : n.IsInterface source x ps := h
    exact ⟨hnamed, by simpa using hkind, hquiet.withField f, by simpa using hname,
      by simpa using hbody, by simpa using hbare⟩

theorem Syntax.DeclarationText.IsNode.quiet {d : DeclarationText} {n : Node}
    (h : d.IsNode source n) : n.IsQuiet := by
  cases d with
  | typeAlias x t => exact Node.IsAlias.quiet h
  | interface x ps => exact Node.IsInterface.quiet h

theorem Syntax.Node.Exports.allQuiet {d : DeclarationText} {n : Node}
    (h : n.Exports (d.IsNode source)) : AllQuiet n.children := by
  obtain ⟨front, m, hchildren, hfront, hm⟩ := h.children
  rw [hchildren]
  exact hfront.allQuiet.append (.cons (hm.withField _).quiet (by simp [AllQuiet]))

/-- A declaration is read as it stands in the text. -/
theorem declarationOf_isNode (path : String) {d : DeclarationText} {c : Cursor}
    (h : d.IsNode source c.node) :
    ∃ x, declarationOf source path c = .ok x ∧ d.Tells x := by
  cases d with
  | typeAlias x t =>
    have halias : c.node.IsAlias source x t := h
    obtain ⟨x, hx, htells⟩ := typeAliasOf_isAlias halias
    exact ⟨x, by rw [declarationOf, halias.kind]; exact hx, htells⟩
  | interface x ps =>
    have hinterface : c.node.IsInterface source x ps := h
    obtain ⟨x, hx, htells⟩ := interfaceOf_isInterface path hinterface
    exact ⟨x, by rw [declarationOf, hinterface.kind]; exact hx, htells⟩

theorem Syntax.DeclarationText.IsNode.isSupported {d : DeclarationText} {n : Node}
    (h : d.IsNode source n) (isTop : Bool) : isSupported isTop n.kind = true := by
  cases d with
  | typeAlias x t => rw [Node.IsAlias.kind h]; rfl
  | interface x ps => rw [Node.IsInterface.kind h]; rfl

namespace Findings

/-- The visit of an export takes its declaration up. -/
theorem visit_exports (path : String) {d : DeclarationText} {c : Cursor}
    (h : c.node.Exports (d.IsNode source)) :
    ∃ x, (∀ s : Findings, s.visit source path c = s.add x) ∧ d.Tells x := by
  obtain ⟨front, m, hchildren, hfront, hm⟩ := h.children
  have hnode : d.IsNode source (m.withField .declaration) := hm.withField _
  have hchild : c.node.child? .declaration = some (m.withField .declaration) :=
    child?_of_split hchildren (fun n hn => by simp [(hfront n hn).field]) (field_withField _ _)
  obtain ⟨e, hcursor, hcnode⟩ := Cursor.exists_child? hchild
  rw [← hcnode] at hnode
  obtain ⟨x, hx, htells⟩ := declarationOf_isNode path hnode
  have herror : c.node.hasError = false :=
    hasError_of_children (by simp [h.is.kind]) h.is.missing h.allQuiet
  have hexport : exportOf source path c = some (.ok x) := by
    simp only [exportOf, hcursor, hnode.isSupported, herror, hx]
    rfl
  refine ⟨x, fun s => ?_, htells⟩
  rw [visit_exportStatement h.is.kind hexport]
  rfl

/-- The visits of the exports and comments of a program take its declarations up, in order. -/
theorem foldl_holdExports (path : String) (parent : Node) (way : List Step) {ds : List DeclarationText}
    {nodes : List Node} (h : HoldExports source ds nodes) (before : List Node) (s : Findings) :
    ∃ xs, List.Forall₂ DeclarationText.Tells ds xs ∧
      (Cursor.listingAll parent way before nodes).foldl (visit source path) s =
        xs.foldl add s := by
  induction h generalizing before s with
  | nil => exact ⟨[], .nil, rfl⟩
  | @comment n ds nodes first _ ih =>
    obtain ⟨xs, htells, hfold⟩ := ih (n :: before) s
    refine ⟨xs, htells, ?_⟩
    rw [Cursor.listingAll, List.foldl_append, foldl_listing_quiet first.isQuiet, hfold]
  | @exported d n ds nodes first _ ih =>
    obtain ⟨x, hvisit, htell⟩ := visit_exports path (c := ⟨n, ⟨parent, before, nodes⟩ :: way⟩) first
    obtain ⟨xs, htells, hfold⟩ := ih (n :: before) (s.add x)
    refine ⟨x :: xs, .cons htell htells, ?_⟩
    rw [Cursor.listingAll, List.foldl_append, Cursor.listing_eq, List.foldl_cons, hvisit,
      foldl_listingAll_quiet first.allQuiet, hfold, List.foldl_cons]

theorem warnings_foldl_add {ds : List DeclarationText} {xs : List Declaration}
    (h : List.Forall₂ DeclarationText.Tells ds xs) (s : Findings) :
    (xs.foldl add s).warnings = s.warnings := by
  induction h generalizing s with
  | nil => rfl
  | cons first _ ih =>
    rw [List.foldl_cons, ih]
    cases first <;> rfl

/-- An interface that is declared keeps its place up to the end, if it is always declared with the
same properties. -/
theorem exists_lookup_foldl_add {ds : List DeclarationText} {xs : List Declaration}
    (h : List.Forall₂ DeclarationText.Tells ds xs) {w : List Char} {ps : List PropertyText}
    (hsame : ∀ qs, .interface w qs ∈ ds → qs = ps) (s : Findings)
    (hs : .interface w ps ∈ ds ∨ ∃ i, Keyed.lookup (String.ofList w) s.interfaces = some i ∧
      List.Forall₂ PropertyText.Tells ps i.properties) :
    ∃ i, Keyed.lookup (String.ofList w) (xs.foldl add s).interfaces = some i ∧
      List.Forall₂ PropertyText.Tells ps i.properties := by
  induction h generalizing s with
  | nil => exact hs.resolve_left List.not_mem_nil
  | @cons d x ds xs first _ ih =>
    rw [List.foldl_cons]
    refine ih (fun qs hqs => hsame qs (List.mem_cons_of_mem _ hqs)) (s.add x) ?_
    cases first with
    | typeAlias a roles name type => exact hs.imp_left fun hmem => by simpa using hmem
    | @interface y qs i roles name parents properties =>
      have hput : (s.add (.interface i roles [])).interfaces = Keyed.put i.name i s.interfaces := rfl
      rw [hput, Keyed.lookup_put, name]
      by_cases heq : w = y
      · subst heq
        obtain rfl := hsame qs List.mem_cons_self
        exact .inr ⟨i, by simp, properties⟩
      · have hother : String.ofList w ≠ String.ofList y := fun h => heq (String.ofList_injective h)
        rw [if_neg hother]
        exact hs.imp_left fun hmem => by simpa [heq] using hmem

end Findings

theorem not_isError_of_holdExports {ds : List DeclarationText} {nodes : List Node}
    (h : HoldExports source ds nodes) : ∀ n ∈ nodes, n.isError = false := by
  induction h with
  | nil => simp
  | comment first _ ih => exact List.forall_mem_cons.2 ⟨by simp [Node.isError, first.kind], ih⟩
  | exported first _ ih =>
    exact List.forall_mem_cons.2 ⟨by simp [Node.isError, first.is.kind], ih⟩

theorem not_isHopeless_of_holdExports {ds : List DeclarationText} {nodes : List Node}
    {stop : Location} (h : HoldExports source ds nodes) :
    Schema.isHopeless (.mk .program none {} stop false nodes) = false := by
  have hroot : (Node.mk .program none {} stop false nodes).isError = false := rfl
  rw [Schema.isHopeless, hroot, Bool.false_or]
  have hnone : ∀ n ∈ (Node.mk .program none {} stop false nodes).namedChildren.filter
      (·.kind != .comment), n.isError = false := fun n hn =>
    not_isError_of_holdExports h n (List.mem_of_mem_filter (List.mem_of_mem_filter hn))
  revert hnone
  generalize (Node.mk .program none {} stop false nodes).namedChildren.filter
    (·.kind != .comment) = statements
  intro hnone
  rcases statements with _ | ⟨n, more⟩
  · rfl
  · simp [hnone n List.mem_cons_self]

/-- **A program becomes the schema of its declarations**, without warnings. -/
theorem Schema.ofSource_program {text : String} {deep : Nat} {ds : List DeclarationText}
    (hdeep : deep + 5 < 40 * (text.toList.length + 10))
    (h : Program text.toList deep ds text.toList) (path : String) :
    ∃ xs, List.Forall₂ DeclarationText.Tells ds xs ∧
      ofSource text path = .ok ⟨(xs.foldl Findings.add {}).schema, []⟩ := by
  obtain ⟨stop, nodes, hparse, hholds⟩ := parse_program hdeep h
  obtain ⟨xs, htells, hfold⟩ :=
    Findings.foldl_holdExports path (parse text.toList) [] hholds [] {}
  refine ⟨xs, htells, ?_⟩
  have hhope : isHopeless (parse text.toList) = false := by
    rw [hparse]
    exact not_isHopeless_of_holdExports hholds
  have hvisits : (Cursor.walk (parse text.toList)).foldl (Findings.visit text.toList path) {} =
      xs.foldl Findings.add {} := by
    rw [Cursor.walk_eq_listing, Cursor.listing_eq, List.foldl_cons,
      Findings.visit_quiet (by rw [hparse]; rfl), ← hfold, hparse]
    rfl
  simp only [ofSource, hhope, ofTree, hvisits, Findings.warnings_foldl_add htells]
  rfl

end ServiceScaffold
