import ServiceScaffold.Proofs.Syntax.InterfaceBodies

/-!
# Types that have been read

Whatever errors a text holds, the types that an export without errors declares have been read by the
rule of types, without making up for absent tokens.

* `Node.IsReadAsType` : the node has been made so;
* `Node.Typed` : the types of declarations in a tree have been read so;
* `Node.typesLaw` : what holds of a node when it is made;
* `Rule.keepsTypes` : a rule makes such nodes only, as can be read off the rule;
* `exportsTyped_parse` : **the types in exports without errors have been read**.
-/

namespace ServiceScaffold.Syntax

variable {source : List Char}

/-! ### Trees -/

/-- The node declares something that has a type. -/
def NodeKind.holdsType : NodeKind → Bool
  | .interfaceDeclaration | .typeAliasDeclaration | .propertySignature => true
  | _ => false

namespace Node

/-- The node has been read by the goal of types, without making up for absent tokens, where the end
of a line may end a statement, and its goals could be nested deep enough. -/
def IsReadAsType (source : List Char) (n : Node) : Prop :=
  ∃ fuel, ∃ s t : Scan, s.Agrees source ∧ s.isLenient = false ∧ s.breaks = true ∧
    40 * s.rest.length + Goal.type.rank < fuel ∧ readGoal grammar fuel .type s = .ok t ∧
    Placed source n.start (Sight.ofText s.rest).body ∧ Placed source n.stop t.rest

/-- A type in the part of a value or after a colon has been read, and a body is one of an
interface. -/
structure IsTypedPart (source : List Char) (n : Node) : Prop where
  value : n.field = some .value → n.IsReadAsType source
  type : n.field = some .type → ∀ m ∈ n.children, m.kind.isNamed → m.kind ≠ .comment →
    m.IsReadAsType source
  body : n.field = some .body → n.kind = .interfaceBody

/-- The types of declarations in the tree have been read.  What stands in other statements does not
matter. -/
inductive Typed (source : List Char) : Node → Prop where
  | statement {field : Option FieldName} {start stop : Location} {missing : Bool}
      {children : List Node} : Typed source (.mk .statement field start stop missing children)
  | mk {kind : NodeKind} {field : Option FieldName} {start stop : Location} {missing : Bool}
      {children : List Node} (typed : ∀ n ∈ children, n.Typed source)
      (parts : kind.holdsType → ∀ n ∈ children, n.IsTypedPart source) :
      Typed source (.mk kind field start stop missing children)

/-- The types in exports without errors have been read. -/
def ExportsTyped (source : List Char) (n : Node) : Prop :=
  ∀ m ∈ n.preorder, m.kind = .exportStatement → m.hasError = false → m.Typed source

variable {n : Node} {kind : NodeKind} {field : Option FieldName} {start stop : Location}
  {missing : Bool} {children : List Node}

theorem exportsTyped_mk (h : ∀ n ∈ children, n.ExportsTyped source)
    (hkind : kind = .exportStatement →
      (Node.mk kind field start stop missing children).hasError = false →
      (Node.mk kind field start stop missing children).Typed source) :
    (Node.mk kind field start stop missing children).ExportsTyped source := by
  intro m hm
  rw [preorder] at hm
  obtain rfl | hbelow := List.mem_cons.1 hm
  · exact hkind
  · obtain ⟨n, hn, hmn⟩ := mem_preorderAll.1 hbelow
    exact h n hn m hmn

theorem isTypedPart_of_none (h : n.field = none) : n.IsTypedPart source :=
  ⟨by simp [h], by simp [h], by simp [h]⟩

theorem typed_mk (htyped : kind ≠ .statement → ∀ n ∈ children, n.Typed source)
    (hparts : kind.holdsType → ∀ n ∈ children, n.IsTypedPart source) :
    (Node.mk kind field start stop missing children).Typed source := by
  rcases eq_or_ne kind .statement with rfl | hkind
  · exact .statement
  · exact .mk (htyped hkind) hparts

theorem Typed.child {m : Node} (h : n.Typed source) (hkind : n.kind ≠ .statement)
    (hm : m ∈ n.children) : m.Typed source := by
  cases h with
  | statement => exact absurd rfl hkind
  | mk typed _ => exact typed m hm

theorem Typed.part {m : Node} (h : n.Typed source) (hkind : n.kind.holdsType)
    (hm : m ∈ n.children) : m.IsTypedPart source := by
  cases h with
  | statement => cases hkind
  | mk _ parts => exact parts hkind m hm

theorem Typed.withField (h : n.Typed source) (f : FieldName) : (n.withField f).Typed source := by
  cases h with
  | statement => exact .statement
  | mk typed parts => exact .mk typed parts

theorem ExportsTyped.withField (h : n.ExportsTyped source) (f : FieldName) :
    (n.withField f).ExportsTyped source := by
  obtain ⟨kind, field, start, stop, missing, children⟩ := n
  have hroot := h (.mk kind field start stop missing children) (by simp [preorder])
  refine exportsTyped_mk (fun n hn m hm => h m ?_) fun hkind herror => (hroot hkind herror).withField f
  rw [preorder]
  exact List.mem_cons_of_mem _ (mem_preorderAll.2 ⟨n, hn, hm⟩)

/-- Where a node stands. -/
inductive Setting where
  /-- Absent tokens are made up for. -/
  | loose
  /-- In no export. -/
  | free
  /-- In an export, or in a part of one. -/
  | inner
  /-- In a declaration that has a type. -/
  | declaring
  deriving DecidableEq

namespace Setting

/-- In an export. -/
def isInner : Setting → Bool
  | inner | declaring => true
  | _ => false

/-- Where the children of a node stand. -/
def inside (i : Setting) (kind : NodeKind) : Setting :=
  match i with
  | loose => loose
  | free => if kind = .exportStatement then inner else free
  | _ => if kind = .statement then free else if kind.holdsType then declaring else inner

variable {i : Setting}

theorem inside_eq_loose : i.inside kind = loose ↔ i = loose := by
  cases i <;> simp only [inside] <;> split_ifs <;> simp

theorem isInner_inside (h : i.isInner ∨ i = free ∧ kind = .exportStatement)
    (hkind : kind ≠ .statement) : (i.inside kind).isInner := by
  obtain h | ⟨rfl, rfl⟩ := h
  · cases i with
    | loose | free => cases h
    | inner | declaring =>
      simp only [inside, if_neg hkind]
      split_ifs <;> rfl
  · rfl

theorem inside_eq_declaring (h : i.isInner) (hkind : kind.holdsType) :
    i.inside kind = declaring := by
  have hstatement : kind ≠ .statement := by
    rintro rfl
    cases hkind
  cases i with
  | loose | free => cases h
  | inner | declaring => simp only [inside, if_neg hstatement, if_pos hkind]

end Setting

/-- Where a node stands, and what is known of lines there. -/
structure Surroundings where
  setting : Setting
  /-- The end of a line is known to end statements. -/
  breaks : Bool

/-- What is known of a node where it stands. -/
structure Fulfills (source : List Char) (i : Setting) (n : Node) : Prop where
  exports : n.ExportsTyped source
  typed : i.isInner → n.Typed source
  part : i = .declaring → n.IsTypedPart source

theorem Fulfills.anywhere {i : Setting} (hexports : n.ExportsTyped source) (htyped : n.Typed source)
    (hpart : n.IsTypedPart source) : n.Fulfills source i :=
  ⟨hexports, fun _ => htyped, fun _ => hpart⟩

theorem fulfills_leaf {i : Setting} :
    (Node.mk kind none start stop missing []).Fulfills source i := by
  have htyped : (Node.mk kind none start stop missing []).Typed source := typed_mk (by simp) (by simp)
  exact .anywhere (exportsTyped_mk (by simp) fun _ _ => htyped) htyped (isTypedPart_of_none rfl)

theorem fulfills_node {i : Setting} (hkind : i = .loose → kind ≠ .exportStatement)
    (h : ∀ n ∈ children, n.Fulfills source (i.inside kind)) :
    (Node.mk kind none start stop false children).Fulfills source i := by
  have htyped (hi : i.isInner ∨ i = .free ∧ kind = .exportStatement) :
      (Node.mk kind none start stop false children).Typed source := by
    refine typed_mk (fun hstatement n hn => (h n hn).typed (Setting.isInner_inside hi hstatement))
      fun hholds n hn => (h n hn).part ?_
    obtain hi | ⟨-, rfl⟩ := hi
    · exact Setting.inside_eq_declaring hi hholds
    · cases hholds
  refine ⟨exportsTyped_mk (fun n hn => (h n hn).exports) fun hexport _ => htyped ?_,
    fun hi => htyped (.inl hi), fun _ => isTypedPart_of_none rfl⟩
  cases i with
  | loose => exact absurd hexport (hkind rfl)
  | free => exact .inr ⟨rfl, hexport⟩
  | inner | declaring => exact .inl rfl

theorem IsPlain.fulfills {i : Setting} (h : n.IsPlain source) : n.Fulfills source i := by
  obtain ⟨kind, field, start, stop, missing, children⟩ := n
  obtain ⟨rfl, rfl, -⟩ := h
  exact fulfills_leaf

end Node

open Node (Setting Surroundings)

/-- Goals that are read only where the end of a line may end a statement. -/
def Goal.isLined : Goal → Bool
  | .item | .statement | .declaration | .exportStatement | .typeMember => true
  | _ => false

/-- The goal may be read where a node stands. -/
def Goal.isAdmitted (i : Surroundings) (g : Goal) : Bool :=
  (g != .item || i.setting == .loose || i.setting == .free) && (!g.isLined || i.breaks)

/-- The types in an export have been read, if it holds no errors. -/
def Node.typesLaw (source : List Char) : NodeLaw source Surroundings where
  Holds i n := n.Fulfills source i.setting
  Makes i kind := i.setting = .loose → kind ≠ .exportStatement
  inside i kind := { i with setting := i.setting.inside kind }
  Allows i isLenient := isLenient = true ↔ i.setting = .loose
  loose i := { i with setting := .loose }
  Lines i breaks := i.breaks = true → breaks = true
  lined i breaks := { i with breaks := breaks }
  Admits i g := g.isAdmitted i = true
  makes _ hexport _ := hexport
  comment := IsPlain.fulfills
  leaf _ := fulfills_leaf
  node := fulfills_node
  allows_inside := iff_congr Iff.rfl Setting.inside_eq_loose
  lines_lined := id

/-! ### Rules -/

namespace Rule

/-- The rule makes no exports without errors in them but by the goal of exports, and reads the types
of what is declared in them by the goal of types. -/
def keepsTypes : Surroundings → Rule Goal → Bool
  | ⟨.declaring, true⟩, part .value (goal .type) => true
  | ⟨.declaring, true⟩, part .type (goal .typeAscription) => true
  | ⟨.declaring, _⟩, part .body (goal .interfaceBody) => true
  | i, part field rule =>
    (i.setting != .declaring || !List.contains [.value, .type, .body] field) && rule.keepsTypes i
  | i, name kind _ | i, literal _ kind | i, missing kind =>
    i.setting != .loose || kind != .exportStatement
  | i, seq first second => first.keepsTypes i && second.keepsTypes i
  | i, choice first second => first.keepsTypes i && second.keepsTypes i
  | i, many rule => rule.keepsTypes i
  | i, breaking breaks rule => rule.keepsTypes { i with breaks := breaks }
  | i, lenient rule =>
    (i.setting == .loose || i.setting == .free) && rule.keepsTypes { i with setting := .loose }
  | i, mended (node .exportStatement rule) =>
    rule.keepsTypes { i with setting := .inner } && rule.keepsTypes { i with setting := .loose }
  | _, mended _ => false
  | i, node kind rule =>
    (i.setting != .loose || kind != .exportStatement) &&
      rule.keepsTypes { i with setting := i.setting.inside kind }
  | i, wrap kind rule =>
    kind != .exportStatement && kind != .statement && !kind.holdsType &&
      rule.keepsTypes { i with setting := i.setting.inside kind }
  | i, goal g => g.isAdmitted i
  -- what is read ahead or tried behind an error makes no nodes
  | _, _ => true

variable {self : Goal → Scan → Reading} {s t : Scan} {i : Surroundings}

/-! ### Parts of declarations -/

/-- The goal of types makes one node, behind the comments before it. -/
theorem exists_of_readType {fuel : Nat} (h : s.Agrees source) (hstrict : s.isLenient = false)
    (hbreaks : s.breaks = true) (hread : guardGoal fuel .type s = .ok t) :
    ∃ n nodes, t.children = n :: (nodes ++ s.children) ∧ (∀ m ∈ nodes, m.kind = .comment) ∧
      n.IsReadAsType source := by
  rcases fuel with _ | fuel
  · cases hread
  have hdeep : 40 * s.rest.length + Goal.type.rank ≤ fuel := by
    rw [guardGoal] at hread
    split_ifs at hread with hdeep
    exact hdeep
  obtain ⟨hsame, hwithin⟩ := readGoal_eq_guardGoal h (Nat.lt_succ_of_le hdeep)
  rw [← hsame] at hread
  have hplaced := (hwithin t hread).placed
  obtain ⟨inner, -, rfl⟩ := Reading.exists_of_map_eq hread
  refine ⟨_, s.next.gap.far ++ s.next.gap.near, rfl, fun m hm => (h.comments m hm).kind,
    fuel + 1, s, _, h, hstrict, hbreaks, Nat.lt_succ_of_le hdeep, hread, ?_, hplaced⟩
  have hstart := h.next.gap.placed
  rwa [show s.next.gap.rest = (Sight.ofText s.rest).body from congrArg Sight.body h.sight] at hstart

/-- What is read after a colon is a type. -/
theorem exists_of_readAscription {fuel : Nat} (h : s.Agrees source) (hstrict : s.isLenient = false)
    (hbreaks : s.breaks = true) (hread : guardGoal fuel .typeAscription s = .ok t) :
    ∃ n nodes, t.children = n :: nodes ∧ ∀ m ∈ n.children, m.kind.isNamed → m.kind ≠ .comment →
      m.IsReadAsType source := by
  rcases fuel with _ | fuel
  · cases hread
  rw [guardGoal] at hread
  split_ifs at hread
  obtain ⟨inner, hinner, rfl⟩ := Reading.exists_of_map_eq hread
  refine ⟨_, _, rfl, fun m hm hnamed hcomment => ?_⟩
  -- the colon is read, and a type after it
  let start : Scan := { s.pushComments with children := [] }
  have hstart : start.Agrees source := h.pushComments.ofSame rfl rfl rfl
  by_cases hcolon : (start.next.token == .mark ":".toList) = true
  · simp only [all, read, Scan.accept] at hinner
    rw [if_pos hcolon] at hinner
    have hafter : (start.take (.token ":")).Agrees source := .moveTo hstart.next.placed
    obtain ⟨n, nodes, hchildren, hnodes, hn⟩ := exists_of_readType hafter hstrict hbreaks hinner
    have hm : m ∈ inner.children := List.mem_reverse.1 hm
    rw [hchildren] at hm
    obtain rfl | hm := List.mem_cons.1 hm
    · exact hn
    obtain hm | hm := List.mem_append.1 hm
    · exact absurd (hnodes m hm) hcomment
    · obtain rfl : m = _ := List.mem_singleton.1 hm
      cases hnamed
  · simp only [all, read, Scan.accept] at hinner
    rw [if_neg hcolon] at hinner
    cases hinner

/-- A part of a declaration is known when it has been read. -/
theorem keeps_part {field : FieldName} {g : Goal}
    (hsetting : i.setting = .declaring) (hgoal : (goal g).Keeps (Node.typesLaw source) self i)
    (hpart : ∀ s t : Scan, s.Agrees source → s.isLenient = false → (i.breaks → s.breaks) →
      self g s = .ok t →
        ∃ n nodes, t.children = n :: nodes ∧ (n.withField field).IsTypedPart source) :
    (part field (goal g)).Keeps (Node.typesLaw source) self i := by
  intro s t h hread
  obtain ⟨mid, hmid, rfl⟩ := Reading.exists_of_map_eq hread
  have hin := hgoal s mid h hmid
  have hstrict : s.isLenient = false := by simpa [Node.typesLaw, hsetting] using h.allowed
  obtain ⟨n, nodes, hchildren, hn⟩ := hpart s mid h.toAgrees hstrict h.lines hmid
  simp only [hchildren]
  refine hin.withChildren hin.allowed hin.lines fun m hm => ?_
  obtain rfl | hold := List.mem_cons.1 hm
  · have hlast := hin.children (n := n) (by simp [hchildren])
    exact .anywhere (hlast.exports.withField field)
      ((hlast.typed (by rw [hsetting]; rfl)).withField field) hn
  · exact hin.children (by simp [hchildren, hold])

/-! ### Exports -/

/-- An export is read without making up for absent tokens, or else it holds an error. -/
theorem keeps_mended (hself : ∀ g i, (Node.typesLaw source).Admits i g →
      (goal g).Keeps (Node.typesLaw source) self i) {rule : Rule Goal}
    (hinner : rule.Respects (Node.typesLaw source) self { i with setting := .inner })
    (hloose : rule.Respects (Node.typesLaw source) self { i with setting := .loose }) :
    (mended (node .exportStatement rule)).Keeps (Node.typesLaw source) self i := by
  obtain ⟨setting, breaks⟩ := i
  intro s t h hread
  have hnode (j : Setting) (hj : j ≠ .loose) :
      (node .exportStatement rule).Keeps (Node.typesLaw source) self ⟨j, breaks⟩ := by
    have hinside : (Node.typesLaw source).inside ⟨j, breaks⟩ .exportStatement =
        ⟨.inner, breaks⟩ := by
      cases j <;> first | rfl | exact absurd rfl hj
    exact read_obeys hself _ ⟨fun hloose => absurd hloose hj, by rwa [hinside]⟩
  have hallowed : s.isLenient = true ↔ setting = .loose := h.allowed
  obtain ⟨hstrict, hread⟩ | ⟨hmild, ⟨next, hnext, rfl⟩ | ⟨hread, hmended⟩⟩ := of_read_mended hread
  · have hi : setting ≠ .loose := fun hi => by simp [hallowed.2 hi] at hstrict
    exact hnode setting hi s t h hread
  · obtain rfl := hallowed.1 hmild
    have hfree : ({ s with isLenient := false } : Scan).Obeys (Node.typesLaw source)
        ⟨.free, breaks⟩ :=
      ⟨h.toAgrees.ofSame rfl rfl rfl, by simp [Node.typesLaw], h.lines,
        fun hn => ⟨(h.children hn).exports, nofun, nofun⟩⟩
    have hin := hnode .free nofun _ next hfree hnext
    exact ⟨hin.toAgrees.ofSame rfl rfl rfl, by simp [Node.typesLaw], hin.lines,
      fun hn => ⟨(hin.children hn).exports, nofun, nofun⟩⟩
  · obtain rfl := hallowed.1 hmild
    obtain ⟨inner, hinner, rfl⟩ := Reading.exists_of_map_eq hread
    have hin := read_obeys hself rule hloose _ inner
      (h.pushComments.fresh .exportStatement) hinner
    refine ⟨hin.toAgrees.ofSame rfl rfl rfl, hin.allowed, hin.lines, fun {n} hn => ?_⟩
    obtain rfl | hold := List.mem_cons.1 hn
    · refine ⟨Node.exportsTyped_mk (fun m hm => (hin.children (List.mem_reverse.1 hm)).exports)
        fun _ herror => ?_, nofun, nofun⟩
      -- the node that has been made holds an error
      simp only [Scan.isMended, Scan.close, List.head?_cons, Option.any_some] at hmended
      rw [herror] at hmended
      cases hmended
    · exact h.pushComments.children hold

theorem respects_of_keepsTypes (hself : ∀ g i, (Node.typesLaw source).Admits i g →
      (goal g).Keeps (Node.typesLaw source) self i)
    (hvalue : (part .value (goal .type)).Keeps (Node.typesLaw source) self ⟨.declaring, true⟩)
    (htype : (part .type (goal .typeAscription)).Keeps (Node.typesLaw source) self
      ⟨.declaring, true⟩)
    (hbody : ∀ breaks, (part .body (goal .interfaceBody)).Keeps (Node.typesLaw source) self
      ⟨.declaring, breaks⟩) {rule : Rule Goal} (h : rule.keepsTypes i) :
    rule.Respects (Node.typesLaw source) self i := by
  have hmakes {i : Surroundings} {kind : NodeKind}
      (h : (i.setting != .loose || kind != .exportStatement) = true) :
      (Node.typesLaw source).Makes i kind := by
    intro hloose
    simpa [hloose] using h
  fun_induction keepsTypes i rule with
  | case1 => exact .inl hvalue
  | case2 => exact .inl htype
  | case3 breaks => exact .inl (hbody breaks)
  | case4 i field rule _ _ _ ih =>
    obtain ⟨hfield, hrule⟩ := Bool.and_eq_true_iff.1 h
    refine .inr ⟨fun n hn => ⟨hn.exports.withField field, fun hi => (hn.typed hi).withField field,
      fun hi => ?_⟩, ih hrule⟩
    -- the part of a declaration is one that is not asked for
    rw [hi] at hfield
    obtain ⟨kind, _, start, stop, missing, children⟩ := n
    refine ⟨fun hsome => ?_, fun hsome => ?_, fun hsome => ?_⟩ <;>
      · obtain rfl := Option.some.inj hsome
        cases hfield
  | case5 i kind except => exact hmakes h
  | case6 i token kind => exact hmakes h
  | case7 i kind => exact hmakes h
  | case8 i first second ihfirst ihsecond | case9 i first second ihfirst ihsecond =>
    obtain ⟨hfirst, hsecond⟩ := Bool.and_eq_true_iff.1 h
    exact ⟨ihfirst hfirst, ihsecond hsecond⟩
  | case10 i rule ih | case11 i breaks rule ih => exact ih h
  | case12 i rule ih =>
    obtain ⟨hi, hrule⟩ := Bool.and_eq_true_iff.1 h
    refine ⟨by simp [Node.typesLaw], fun n => ?_, ih hrule⟩
    have houter : i.setting.isInner = false ∧ i.setting ≠ .declaring := by
      cases hsetting : i.setting <;> rw [hsetting] at hi <;>
        first | cases hi; done | exact ⟨rfl, nofun⟩
    exact ⟨fun hn => ⟨hn.exports, nofun, nofun⟩,
      fun hn => ⟨hn.exports, by simp [houter.1], fun hi => absurd hi houter.2⟩⟩
  | case13 i rule ihinner ihloose =>
    obtain ⟨hinner, hloose⟩ := Bool.and_eq_true_iff.1 h
    exact .inl (keeps_mended hself (ihinner hinner) (ihloose hloose))
  | case14 => cases h
  | case15 i kind rule ih =>
    obtain ⟨hkind, hrule⟩ := Bool.and_eq_true_iff.1 h
    exact ⟨hmakes hkind, ih hrule⟩
  | case16 i kind rule ih =>
    simp only [Bool.and_eq_true, bne_iff_ne, Bool.not_eq_true'] at h
    obtain ⟨⟨⟨hexport, hstatement⟩, hholds⟩, hrule⟩ := h
    refine ⟨fun _ => hexport, fun n hn => ?_, ih hrule⟩
    obtain ⟨setting, breaks⟩ := i
    have hinside : (setting.inside kind).isInner → setting.isInner := by
      cases setting <;> simp [Setting.inside, Setting.isInner, hexport]
    refine ⟨hn.exports, fun hi => hn.typed (hinside hi), fun hi => absurd hi ?_⟩
    cases setting <;> simp [Node.typesLaw, Setting.inside, hexport, hstatement, hholds]
  | case17 i g => exact h
  | case18 rule => cases rule <;> first | trivial | simp_all

end Rule

/-! ### The grammar -/

/-- Every rule of the grammar reads the types of what is declared by the goal of types. -/
theorem keepsTypes_grammar (g : Goal) (i : Surroundings) (h : g.isAdmitted i = true) :
    (grammar g).keepsTypes i := by
  obtain ⟨setting, breaks⟩ := i
  cases g <;> cases setting <;> cases breaks <;> first | decide +kernel | cases h

theorem isTypedPart_value {n : Node} (h : n.IsReadAsType source) :
    (n.withField .value).IsTypedPart source := by
  cases n
  exact ⟨fun _ => h, by simp [Node.withField, Node.field], by simp [Node.withField, Node.field]⟩

theorem isTypedPart_type {n : Node} (h : ∀ m ∈ n.children, m.kind.isNamed → m.kind ≠ .comment →
    m.IsReadAsType source) : (n.withField .type).IsTypedPart source := by
  cases n
  exact ⟨by simp [Node.withField, Node.field], fun _ => h, by simp [Node.withField, Node.field]⟩

theorem isTypedPart_body {n : Node} (h : n.kind = .interfaceBody) :
    (n.withField .body).IsTypedPart source := by
  cases n
  exact ⟨by simp [Node.withField, Node.field], by simp [Node.withField, Node.field], fun _ => h⟩

/-- **The types in exports without errors have been read**, whatever errors the text holds. -/
theorem exportsTyped_parse (source : List Char) : (parse source).ExportsTyped source := by
  have hrules (fuel : Nat) (hgoals : ∀ g i, (Node.typesLaw source).Admits i g →
        (Rule.goal g).Keeps (Node.typesLaw source) (guardGoal fuel) i) {rule : Rule Goal}
      {i : Surroundings} (h : rule.keepsTypes i) :
      rule.Respects (Node.typesLaw source) (guardGoal fuel) i := by
    refine Rule.respects_of_keepsTypes hgoals
      (Rule.keeps_part rfl (hgoals _ _ rfl) ?_)
      (Rule.keeps_part rfl (hgoals _ _ rfl) ?_)
      (fun breaks => Rule.keeps_part rfl (hgoals _ _ rfl) ?_) h
    · intro s t hs hstrict hbreaks hread
      obtain ⟨n, nodes, hchildren, -, hn⟩ := Rule.exists_of_readType hs hstrict (hbreaks rfl) hread
      exact ⟨n, _, hchildren, isTypedPart_value hn⟩
    · intro s t hs hstrict hbreaks hread
      obtain ⟨n, nodes, hchildren, hn⟩ :=
        Rule.exists_of_readAscription hs hstrict (hbreaks rfl) hread
      exact ⟨n, _, hchildren, isTypedPart_type hn⟩
    · intro s t _ _ _ hread
      obtain ⟨n, nodes, hchildren, hn⟩ := kind_of_readInterfaceBody hread
      exact ⟨n, _, hchildren, isTypedPart_body hn⟩
  have hroot : Grammar.rootItem.keepsTypes ⟨.free, true⟩ := by decide +kernel
  obtain ⟨stop, nodes, htree, hnodes⟩ := obeys_parse (Node.typesLaw source) ⟨.free, true⟩
    (by simp [Node.typesLaw]) (fun _ => rfl)
    (fun fuel hgoals g i hg => hrules fuel hgoals (keepsTypes_grammar g i hg))
    fun fuel hgoals => hrules fuel hgoals hroot
  rw [htree]
  exact Node.exportsTyped_mk (fun n hn => (hnodes n hn).exports) nofun

end ServiceScaffold.Syntax
