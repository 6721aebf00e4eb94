import ServiceScaffold.Proofs.Syntax.Readings

/-!
# Reading exported types

What `export type X = T;` and an exported interface are read as, for every name and for every text
that reads as a type, wherever they stand in a text.
-/

namespace ServiceScaffold.Syntax

open Grammar Rule

/-! ### Signs of fixed tokens -/

/-- A fixed word. -/
def wordSign (letters : String) : Sign := ⟨.among [.word letters.toList], true⟩

/-- A fixed mark. -/
def markSign (characters : String) : Sign := ⟨.among [.mark characters.toList], true⟩

/-- Any word but some. -/
def nameSign (except : List String) : Sign := ⟨.wordBut except, true⟩

/-- The same sign, with nothing known of what stands before the token. -/
def Sign.loose (g : Sign) : Sign := { g with isFlat := false }

/-- How deep foresight goes for everything but the types themselves. -/
def depth : Nat := 60

section

variable {source cs rest k : List Char} {g : Sign} {gs : List Sign} {fuel : Nat}
  {self : Goal → Scan → Reading}

theorem Signs.look (h : Signs k cs (g :: gs)) : g.look.Fits (Sight.ofText cs).token := by
  cases h with
  | cons fits _ => exact fits.look

theorem Signs.next (h : Signs k cs (g :: gs)) : Signs k (Sight.ofText cs).tail gs := by
  cases h with
  | cons _ rest => exact rest

/-- What stands before the first token need not be known. -/
theorem Signs.loose (h : Signs k cs (g :: gs)) : Signs k cs (g.loose :: gs) := by
  cases h with
  | cons fits rest => exact .cons ⟨fits.look, by simp [Sign.loose]⟩ rest

theorem token_of_fits {t t' : Token} (h : (Look.among [t]).Fits t') : t' = t :=
  List.mem_singleton.1 h

/-- A token of a fixed text, as a node. -/
abbrev LeafOf (source cs rest : List Char) (kind : NodeKind) (n : Node) : Prop :=
  n.Is kind ∧ n.Takes source cs rest ∧ n.children = []

theorem makes_word (source : List Char) (self : Goal → Scan → Reading) (letters : String)
    (h : (Look.among [.word letters.toList]).Fits (Sight.ofText cs).token) :
    Makes source ((Rule.word letters : R).read self) cs (Sight.ofText cs).tail
      (Lone cs (LeafOf source cs (Sight.ofText cs).tail (.token letters))) :=
  makes_accept (.isWord letters) (by simp [Test.holds, token_of_fits h])

theorem makes_mark (source : List Char) (self : Goal → Scan → Reading) (characters : String)
    (h : (Look.among [.mark characters.toList]).Fits (Sight.ofText cs).token) :
    Makes source ((Rule.mark characters : R).read self) cs (Sight.ofText cs).tail
      (Lone cs (LeafOf source cs (Sight.ofText cs).tail (.token characters))) :=
  makes_accept (.isMark characters) (by simp [Test.holds, token_of_fits h])

theorem makes_anyName (source : List Char) (self : Goal → Scan → Reading) (kind : NodeKind)
    {except : List String} (h : (Look.wordBut except).Fits (Sight.ofText cs).token) :
    Makes source ((anyName kind).read self) cs (Sight.ofText cs).tail
      (Lone cs (LeafOf source cs (Sight.ofText cs).tail kind)) := by
  obtain ⟨w, hw, -⟩ := h
  exact makes_accept (.isName []) (by simp [Test.holds, hw])

/-! ### Parts of a node -/

@[simp] theorem kind_withField (n : Node) (f : FieldName) : (n.withField f).kind = n.kind := by
  cases n
  rfl

@[simp] theorem field_withField (n : Node) (f : FieldName) : (n.withField f).field = some f := by
  cases n
  rfl

@[simp] theorem children_withField (n : Node) (f : FieldName) :
    (n.withField f).children = n.children := by
  cases n
  rfl

@[simp] theorem namedChildren_withField (n : Node) (f : FieldName) :
    (n.withField f).namedChildren = n.namedChildren := by
  simp [Node.namedChildren]

@[simp] theorem child?_withField (n : Node) (f g : FieldName) :
    (n.withField f).child? g = n.child? g := by
  simp [Node.child?]

@[simp] theorem text_withField (n : Node) (f : FieldName) (source : List Char) :
    (n.withField f).text source = n.text source := by
  cases n
  rfl

/-- The child that is the first one in its part. -/
theorem child?_of_split {n m : Node} {f : FieldName} {front back : List Node}
    (hchildren : n.children = front ++ m :: back) (hfront : ∀ x ∈ front, x.field ≠ some f)
    (hm : m.field = some f) : n.child? f = some m := by
  unfold Node.child?
  rw [hchildren, List.find?_append, List.find?_eq_none.2, Option.none_or,
    List.find?_cons_of_pos (by simp [hm])]
  intro x hx
  simpa using hfront x hx

/-- All trees are quiet. -/
def AllQuiet (nodes : List Node) : Prop := ∀ n ∈ nodes, n.IsQuiet

theorem AllQuiet.append {front back : List Node} (h : AllQuiet front) (h' : AllQuiet back) :
    AllQuiet (front ++ back) :=
  fun n hn => (List.mem_append.1 hn).elim (h n) (h' n)

theorem AllQuiet.cons {n : Node} {nodes : List Node} (h : n.IsQuiet) (h' : AllQuiet nodes) :
    AllQuiet (n :: nodes) :=
  List.forall_mem_cons.2 ⟨h, h'⟩

theorem Node.Is.isQuiet {kind : NodeKind} {n : Node} (h : n.Is kind) (hkind : kind.isQuiet = true)
    (hchildren : AllQuiet n.children) : n.IsQuiet := by
  obtain ⟨kind', field, start, stop, missing, children⟩ := n
  obtain ⟨rfl, -, rfl⟩ := h
  exact isQuiet_mk hkind hchildren

theorem LeafOf.isQuiet {kind : NodeKind} {n : Node} (h : LeafOf source cs rest kind n)
    (hkind : kind.isQuiet = true) : n.IsQuiet :=
  h.1.isQuiet hkind (by simp [AllQuiet, h.2.2])

/-- The node is a comment or a token without a name, and plays no part. -/
structure Node.IsFiller (n : Node) : Prop where
  quiet : n.IsQuiet
  field : n.field = none
  kind : n.kind = .comment ∨ ∃ text, n.kind = .token text

/-- The nodes are comments and tokens without names. -/
def Fillers (nodes : List Node) : Prop := ∀ n ∈ nodes, n.IsFiller

theorem fillers_nil : Fillers [] := by simp [Fillers]

theorem Fillers.append {front back : List Node} (h : Fillers front) (h' : Fillers back) :
    Fillers (front ++ back) :=
  fun n hn => (List.mem_append.1 hn).elim (h n) (h' n)

theorem Fillers.allQuiet {nodes : List Node} (h : Fillers nodes) : AllQuiet nodes :=
  fun n hn => (h n hn).quiet

theorem AllComments.fillers {nodes : List Node} (h : AllComments nodes) : Fillers nodes :=
  fun n hn => ⟨(h n hn).isQuiet, (h n hn).field, .inl (h n hn).kind⟩

theorem Lone.fillers {text : String} {nodes : List Node}
    (h : Lone cs (LeafOf source cs rest (.token text)) nodes) : Fillers nodes := by
  obtain ⟨comments, n, rfl, hcomments, -, hn⟩ := h
  refine hcomments.fillers.append fun m hm => ?_
  obtain rfl := List.mem_singleton.1 hm
  exact ⟨hn.isQuiet (by simp [NodeKind.isQuiet]), hn.1.field, .inr ⟨text, hn.1.kind⟩⟩

/-- Two children in parts, with nothing but fillers around them. -/
structure Node.HasParts (n : Node) (f : FieldName) (a : Node) (g : FieldName) (b : Node) :
    Prop where
  ne : f ≠ g
  first : a.field = some f
  second : b.field = some g
  children : ∃ front mid back, n.children = front ++ a :: (mid ++ b :: back) ∧ Fillers front ∧
    Fillers mid ∧ Fillers back

section

variable {n a b : Node} {f g : FieldName}

theorem Node.HasParts.child?_first (h : n.HasParts f a g b) : n.child? f = some a := by
  obtain ⟨front, mid, back, hchildren, hfront, -, -⟩ := h.children
  exact child?_of_split hchildren (fun x hx => by simp [(hfront x hx).field]) h.first

theorem Node.HasParts.child?_second (h : n.HasParts f a g b) : n.child? g = some b := by
  obtain ⟨front, mid, back, hchildren, hfront, hmid, -⟩ := h.children
  have hsplit : n.children = (front ++ a :: mid) ++ b :: back := by simpa using hchildren
  refine child?_of_split hsplit (fun x hx => ?_) h.second
  simp only [List.mem_append, List.mem_cons] at hx
  obtain hx | rfl | hx := hx
  · simp [(hfront x hx).field]
  · simpa [h.first] using h.ne
  · simp [(hmid x hx).field]

theorem Node.HasParts.allQuiet (h : n.HasParts f a g b) (ha : a.IsQuiet) (hb : b.IsQuiet) :
    AllQuiet n.children := by
  obtain ⟨front, mid, back, hchildren, hfront, hmid, hback⟩ := h.children
  rw [hchildren]
  exact hfront.allQuiet.append (.cons ha (hmid.allQuiet.append (.cons hb hback.allQuiet)))

/-- There is no child of a named kind but the two, comments aside. -/
theorem Node.HasParts.kind_ne (h : n.HasParts f a g b) {kind : NodeKind}
    (hnamed : kind.isNamed = true) (hcomment : kind ≠ .comment) (ha : a.kind ≠ kind)
    (hb : b.kind ≠ kind) : ∀ c ∈ n.children, c.kind ≠ kind := by
  obtain ⟨front, mid, back, hchildren, hfront, hmid, hback⟩ := h.children
  have hfillers : ∀ nodes, Fillers nodes → ∀ c ∈ nodes, c.kind ≠ kind := by
    rintro nodes hnodes c hc rfl
    obtain hkind | ⟨text, hkind⟩ := (hnodes c hc).kind
    · exact hcomment hkind
    · rw [hkind] at hnamed
      cases hnamed
  intro c hc
  rw [hchildren] at hc
  simp only [List.mem_append, List.mem_cons] at hc
  obtain hc | rfl | hc | rfl | hc := hc
  · exact hfillers _ hfront c hc
  · exact ha
  · exact hfillers _ hmid c hc
  · exact hb
  · exact hfillers _ hback c hc

end

/-! ### Types and their ascription -/

/-- The text `cs` up to `rest` reads as a type with the text `t`, if goals may be nested `deep`
deep. -/
def ReadsType (source : List Char) (deep : Nat) (t cs rest : List Char) : Prop :=
  ∀ fuel, deep ≤ fuel → Makes source (readGoal grammar fuel .type) cs rest
    (Lone cs fun n => n.Is .typeNode ∧ n.text source = t ∧ AllQuiet n.children)

/-- The node is a type after a colon. -/
structure Node.Ascribes (source t : List Char) (n : Node) : Prop where
  is : n.Is .typeAscription
  quiet : AllQuiet n.children
  type : ∃ v, n.namedChildren.head? = some v ∧ v.text source = t

variable {t : List Char} {deep : Nat}

theorem makes_ascription (hfuel : deep < fuel) (hsigns : Signs k cs [markSign ":"])
    (hcolon : startsClear cs = true) (hclear : startsClear k = true)
    (htype : ReadsType source deep t k rest) :
    Makes source (readGoal grammar fuel .typeAscription) cs rest
      (Lone cs (Node.Ascribes source t)) := by
  obtain ⟨fuel, rfl⟩ := Nat.exists_eq_succ_of_ne_zero (Nat.ne_of_gt (Nat.zero_lt_of_lt hfuel))
  have htail : (Sight.ofText cs).tail = k := by
    have hnext := hsigns.next
    cases hnext
    rfl
  have hmark := makes_mark source (readGoal grammar fuel) ":" hsigns.look
  rw [htail] at hmark
  have hread := (hmark.seq ((htype fuel (Nat.le_of_lt_succ hfuel)).goal _)).node .typeAscription
  refine Makes.mono hread fun made hmade => hmade.mono fun n hn => ?_
  obtain ⟨his, -, front, back, hchildren, hfront, hback⟩ := hn
  obtain ⟨comments, colon, rfl, -, hnone, hleaf⟩ := hfront
  obtain rfl := hnone hcolon
  obtain ⟨comments, v, rfl, -, hnone, hv, htext, hquiet⟩ := hback
  obtain rfl := hnone hclear
  refine ⟨his, ?_, v, ?_, htext⟩
  · rw [hchildren]
    intro m hm
    obtain rfl | rfl : m = colon ∨ m = v := by simpa using hm
    · exact hleaf.isQuiet rfl
    · exact hv.isQuiet rfl hquiet
  · simp [Node.namedChildren, hchildren, hleaf.1.kind, hv.kind, NodeKind.isNamed]

/-! ### Names without quotes -/

/-- What the name of a property can be without quotes. -/
inductive BareName where
  | word
  | number
  | privateName

namespace BareName

/-- What is known of the token of the name. -/
def look : BareName → Look
  | word => .wordBut ["abstract"]
  | number => .among [.number]
  | privateName => .among [.privateName]

/-- The kind of the node of the name. -/
def kind : BareName → NodeKind
  | word => .propertyIdentifier
  | number => .number
  | privateName => .privateIdentifier

/-- What is known of the token, whatever blanks stand before it. -/
def sign (b : BareName) : Sign := ⟨b.look, false⟩

variable {b : BareName}

theorem signs (h : b.look.Fits (Sight.ofText cs).token) (hrest : Signs k (Sight.ofText cs).tail gs) :
    Signs k cs (b.sign :: gs) :=
  .cons ⟨h, by simp [sign]⟩ hrest

theorem isQuiet_kind (b : BareName) : b.kind.isQuiet = true := by cases b <;> rfl

theorem kind_ne_token (b : BareName) (text : String) : (b.kind == .token text) = false := by
  cases b <;> rfl

end BareName

/-- The rules that are tried before the one of the name, and those after it. -/
theorem makes_bareName (source : List Char) {b : BareName} (hfuel : depth ≤ fuel)
    (hlook : b.look.Fits (Sight.ofText cs).token) :
    Makes source (propertyName.read (readGoal grammar fuel)) cs (Sight.ofText cs).tail
      (Lone cs (LeafOf source cs (Sight.ofText cs).tail b.kind)) := by
  have hsigns : Signs (Sight.ofText cs).tail cs [b.sign] := b.signs hlook .nil
  have hfails (r : R) (hr : r.foresee (foreseeGoal grammar depth) false [b.sign] = some [none]) :
      Fails source (r.read (readGoal grammar fuel)) cs :=
    fails_of_foresee source r hsigns hfuel hr
  cases b with
  | word => exact makes_any [] _ (by simp) (makes_anyName source _ .propertyIdentifier hlook)
  | number =>
    refine makes_any [anyName .propertyIdentifier, privateName, string] _ ?_
      (makes_accept (.isToken .number) (by simpa [Test.holds] using token_of_fits hlook))
    simp only [List.forall_mem_cons, List.not_mem_nil, false_implies, implies_true, and_true]
    exact ⟨hfails _ (by decide +kernel), hfails _ (by decide +kernel), hfails _ (by decide +kernel)⟩
  | privateName =>
    refine makes_any [anyName .propertyIdentifier] _ ?_
      (makes_accept (.isToken .privateName) (by simpa [Test.holds] using token_of_fits hlook))
    simp only [List.forall_mem_cons, List.not_mem_nil, false_implies, implies_true, and_true]
    exact hfails _ (by decide +kernel)

/-! ### Properties -/

/-- The node is a property of an object type. -/
structure Node.IsProperty (source w : List Char) (isOptional : Bool) (t : List Char) (n : Node) :
    Prop where
  named : w ≠ []
  kind : n.kind = .propertySignature
  quiet : n.IsQuiet
  name : ∃ m, n.child? .name = some m ∧ (∃ b : BareName, m.kind = b.kind) ∧ m.text source = w
  isOptional : (n.children.any (·.kind == .token "?")) = isOptional
  type : ∃ a, n.child? .type = some a ∧ a.namedChildren.head?.map (·.text source) = some t

/-- What stands between the name and the type of a property. -/
def propertyMarks (isOptional : Bool) : List Char := if isOptional then ['?', ':'] else [':']

/-- What is known of the tokens between the name and the type of a property. -/
def markSigns (isOptional : Bool) : List Sign :=
  if isOptional then [markSign "?", markSign ":"] else [markSign ":"]

/-- What is known of the tokens before the type of a property. -/
def propertySigns (b : BareName) (isOptional : Bool) : List Sign := b.sign :: markSigns isOptional

/-- What a member of an object type can be but a property. -/
def otherMembers : List R :=
  [.goal .exportStatement, constructSignature, callSignature, indexSignature, methodSignature]

/-- Before the type of a property nothing else fits. -/
theorem foresee_otherMembers (b : BareName) (isOptional : Bool) : ∀ r ∈ otherMembers,
    r.foresee (foreseeGoal grammar depth) false (propertySigns b isOptional) = some [none] := by
  cases b <;> cases isOptional <;> decide +kernel

/-- A name before marks is no modifier of a property. -/
theorem foresee_memberModifiers (b : BareName) (isOptional : Bool) :
    memberModifiers.foresee (foreseeGoal grammar depth) false (propertySigns b isOptional) =
      some [some (propertySigns b isOptional)] := by
  cases b <;> cases isOptional <;> decide +kernel

theorem sight_colon (cs : List Char) :
    Sight.ofText (':' :: cs) = ⟨.mark [':'], cs, ':' :: cs, false, true⟩ := by
  rw [Sight.ofText_token (startsToken_cons (by decide) (by decide) cs)]
  rfl

theorem sight_questionColon (cs : List Char) :
    Sight.ofText ('?' :: ':' :: cs) = ⟨.mark ['?'], ':' :: cs, '?' :: ':' :: cs, false, true⟩ := by
  rw [Sight.ofText_token (startsToken_cons (by decide) (by decide) _)]
  rfl

/-- A token that is seen, with signs behind it. -/
theorem Signs.seenAs {look : Look} {t : Token} {tail body : List Char} (hsight : Sight.ofText cs =
    ⟨t, tail, body, false, true⟩) (hlook : look.Fits t) (h : Signs k tail gs) :
    Signs k cs (⟨look, true⟩ :: gs) := by
  refine .cons ⟨?_, fun _ => ?_⟩ (by rwa [hsight])
  · rwa [hsight]
  · rw [hsight]
    exact ⟨rfl, rfl⟩

theorem Signs.seen {t : Token} {tail body : List Char} (hsight : Sight.ofText cs =
    ⟨t, tail, body, false, true⟩) (h : Signs k tail gs) : Signs k cs (⟨.among [t], true⟩ :: gs) :=
  .seenAs hsight (List.mem_singleton.2 rfl) h

theorem signs_colon (k : List Char) : Signs k (':' :: k) [markSign ":"] :=
  .seen (sight_colon k) .nil

theorem signs_propertyMarks (isOptional : Bool) (k : List Char) :
    Signs k (propertyMarks isOptional ++ k) (markSigns isOptional) := by
  cases isOptional
  · exact signs_colon k
  · exact .seen (sight_questionColon k) (signs_colon k)

/-- The mark of an optional property. -/
theorem makes_questionMark (source : List Char) (isOptional : Bool) (hfuel : depth ≤ fuel) :
    Makes source ((opt (.mark "?") : R).read (readGoal grammar fuel))
      (propertyMarks isOptional ++ k) (':' :: k)
      (fun made => Fillers made ∧ made.any (·.kind == .token "?") = isOptional) := by
  cases isOptional
  · have hfails := fails_of_foresee source (.mark "?") (signs_colon k) hfuel (by decide +kernel)
    refine hfails.opt.mono fun made hmade => ?_
    subst hmade
    exact ⟨fillers_nil, rfl⟩
  · have hmark := makes_mark source (readGoal grammar fuel) "?" (signs_propertyMarks true k).look
    rw [show propertyMarks true ++ k = '?' :: ':' :: k from rfl, sight_questionColon] at hmark
    refine hmark.opt.mono fun made hmade => ⟨hmade.fillers, ?_⟩
    obtain ⟨comments, n, rfl, -, -, hn⟩ := hmade
    simp [hn.1.kind]

theorem AllComments.no_token {nodes : List Node} (h : AllComments nodes) (text : String) :
    (nodes.any fun n => n.kind == .token text) = false := by
  rw [List.any_eq_false]
  intro n hn
  simp [(h n hn).kind]

/-- The name of a property. -/
theorem makes_memberName (source : List Char) {w : List Char} {b : BareName} (hfuel : depth < fuel)
    (hlook : b.look.Fits (Sight.ofText cs).token)
    (hbody : (Sight.ofText cs).body = w ++ (Sight.ofText cs).tail) :
    Makes source (memberName.read (readGoal grammar fuel)) cs (Sight.ofText cs).tail
      (Lone cs fun n => n.Is b.kind ∧ n.text source = w ∧ n.children = []) := by
  obtain ⟨fuel, rfl⟩ := Nat.exists_eq_succ_of_ne_zero (Nat.ne_of_gt (Nat.zero_lt_of_lt hfuel))
  have hsigns : Signs (Sight.ofText cs).tail cs [b.sign] := b.signs hlook .nil
  have hnot := (fails_of_foresee source (.word "abstract") hsigns (Nat.le_of_lt hfuel)
    (by cases b <;> decide +kernel)).notAhead
  have hgoal : Makes source (readGoal grammar (fuel + 1) .propertyName) cs _ _ :=
    .ofRule (makes_bareName source (Nat.le_of_lt_succ hfuel) hlook)
  refine (hnot.seq (hgoal.goal _)).mono fun made hmade => ?_
  obtain ⟨_, back, rfl, rfl, hback⟩ := hmade
  rw [List.nil_append]
  exact hback.mono fun n hn => ⟨hn.1, hn.2.1 w hbody, hn.2.2⟩

/-- A name, its mark and a type are read as a property. -/
theorem makes_property {w : List Char} {b : BareName} {isOptional : Bool} (hfuel : depth < fuel)
    (hdeep : deep < fuel) (hw : w ≠ []) (hlook : b.look.Fits (Sight.ofText cs).token)
    (htail : (Sight.ofText cs).tail = propertyMarks isOptional ++ k)
    (hbody : (Sight.ofText cs).body = w ++ (Sight.ofText cs).tail) (hclear : startsClear k = true)
    (htype : ReadsType source deep t k rest) :
    Makes source (propertySignature.read (readGoal grammar fuel)) cs rest
      (Lone cs (Node.IsProperty source w isOptional t)) := by
  have hsigns : Signs k cs (propertySigns b isOptional) := by
    refine b.signs hlook ?_
    rw [htail]
    exact signs_propertyMarks isOptional k
  have hmodifiers := passes_of_foresee source _ hsigns (Nat.le_of_lt hfuel)
    (foresee_memberModifiers b isOptional)
  have hname := (makes_memberName source hfuel hlook hbody).part .name
  rw [htail] at hname
  have hmark := makes_questionMark (k := k) source isOptional (Nat.le_of_lt hfuel)
  have htyped := ((makes_ascription hdeep (signs_colon k) rfl hclear htype).goal
    (readGoal grammar fuel)).part .type
  have hread := (hmodifiers.seq (hname.seq (hmark.seq htyped.opt))).node .propertySignature
  refine Makes.mono hread fun made hmade => hmade.mono fun n hn => ?_
  obtain ⟨his, -, front, _, hchildren, hfront, _, _, rfl, ⟨front', _, rfl, hfront', -, m, hm, rfl⟩,
    marks, _, rfl, ⟨hmarks, hany⟩, back, _, rfl, hback, -, a, ha, rfl⟩ := hn
  have hparts : n.HasParts .name (m.withField .name) .type (a.withField .type) :=
    ⟨by decide, field_withField _ _, field_withField _ _, front ++ front', marks ++ back, [],
      by simp [hchildren], hfront.fillers.append hfront'.fillers, hmarks.append hback.fillers,
      fillers_nil⟩
  have hquietName : (m.withField .name).IsQuiet :=
    (hm.1.isQuiet b.isQuiet_kind (by simp [AllQuiet, hm.2.2])).withField _
  have hquietType : (a.withField .type).IsQuiet := (ha.is.isQuiet rfl ha.quiet).withField _
  refine ⟨hw, his.kind, his.isQuiet rfl (hparts.allQuiet hquietName hquietType),
    ⟨m.withField .name, hparts.child?_first, ⟨b, by simp [hm.1.kind]⟩, by simp [hm.2.1]⟩, ?_,
    a.withField .type, hparts.child?_second, ?_⟩
  · have htype : (NodeKind.typeAscription == .token "?") = false := rfl
    simp [hchildren, hfront.no_token, hfront'.no_token, hback.no_token, hm.1.kind, ha.is.kind, hany,
      b.kind_ne_token, htype]
  · obtain ⟨v, hv, htext⟩ := ha.type
    exact Option.map_eq_some_iff.2 ⟨v, by simpa using hv, htext⟩

/-! ### Members -/

/-- A property as it stands in a text. -/
structure PropertyText where
  name : List Char
  isOptional : Bool
  type : List Char
  deriving DecidableEq

/-- The text `cs` up to `rest` is a property, with its marks right behind its name. -/
structure PropertyText.Spans (source : List Char) (deep : Nat) (p : PropertyText)
    (cs rest : List Char) : Prop where
  named : p.name ≠ []
  look : ∃ b : BareName, b.look.Fits (Sight.ofText cs).token
  body : (Sight.ofText cs).body = p.name ++ (Sight.ofText cs).tail
  short : rest.length < cs.length
  type : ∃ k, (Sight.ofText cs).tail = propertyMarks p.isOptional ++ k ∧ startsClear k = true ∧
    ReadsType source deep p.type k rest

/-- The node is the property. -/
abbrev PropertyText.IsNode (source : List Char) (p : PropertyText) (n : Node) : Prop :=
  n.IsProperty source p.name p.isOptional p.type

theorem PropertyText.Spans.signs {p : PropertyText} (h : p.Spans source deep cs rest) :
    ∃ k b, Signs k cs (propertySigns b p.isOptional) := by
  obtain ⟨k, htail, -, -⟩ := h.type
  obtain ⟨b, hlook⟩ := h.look
  refine ⟨k, b, b.signs hlook ?_⟩
  rw [htail]
  exact signs_propertyMarks p.isOptional k

/-- A property is read as a member. -/
theorem makes_member {p : PropertyText} (hfuel : depth + 1 < fuel) (hdeep : deep + 1 < fuel)
    (h : p.Spans source deep cs rest) :
    Makes source (readGoal grammar fuel .typeMember) cs rest (Lone cs (p.IsNode source)) := by
  obtain ⟨fuel, rfl⟩ := Nat.exists_eq_succ_of_ne_zero (Nat.ne_of_gt (Nat.zero_lt_of_lt hfuel))
  obtain ⟨k, htail, hclear, htype⟩ := h.type
  obtain ⟨b, hlook⟩ := h.look
  obtain ⟨_, c, hsigns⟩ := h.signs
  refine .ofRule (makes_any otherMembers [] (fun r hr => ?_) ?_)
  · exact fails_of_foresee _ _ hsigns (by omega) (foresee_otherMembers c p.isOptional r hr)
  · exact makes_property (by omega) (by omega) h.named hlook htail h.body hclear htype

/-- A closing brace comes next. -/
def BeforeBrace (cs : List Char) : Prop := ∃ k, Signs k cs [(markSign "\x7d").loose]

/-- The text `cs` up to `rest`, which follows a property, goes on with properties that follow
semicolons, and one more semicolon may stand before the closing brace. -/
inductive MoreMembers (source : List Char) (deep : Nat) :
    List PropertyText → List Char → List Char → Prop where
  | done {cs : List Char} (brace : BeforeBrace cs) : MoreMembers source deep [] cs cs
  | ended {cs : List Char} (brace : BeforeBrace cs) : MoreMembers source deep [] (';' :: cs) cs
  | more {p : PropertyText} {ps : List PropertyText} {cs mid rest : List Char}
      (first : p.Spans source deep cs mid) (others : MoreMembers source deep ps mid rest) :
      MoreMembers source deep (p :: ps) (';' :: cs) rest

/-- The text `cs` up to `rest`, which stands in braces, holds properties. -/
inductive Members (source : List Char) (deep : Nat) :
    List PropertyText → List Char → List Char → Prop where
  | none {cs : List Char} (brace : BeforeBrace cs) : Members source deep [] cs cs
  | some {p : PropertyText} {ps : List PropertyText} {cs mid rest : List Char}
      (first : p.Spans source deep cs mid) (others : MoreMembers source deep ps mid rest) :
      Members source deep (p :: ps) cs rest

/-- The properties among the nodes are those given, in order, and all nodes are quiet. -/
structure HoldProperties (source : List Char) (ps : List PropertyText) (nodes : List Node) :
    Prop where
  quiet : AllQuiet nodes
  properties : List.Forall₂ (PropertyText.IsNode source) ps
    (nodes.filter (·.kind == .propertySignature))

theorem HoldProperties.append {ps ps' : List PropertyText} {front back : List Node}
    (h : HoldProperties source ps front) (h' : HoldProperties source ps' back) :
    HoldProperties source (ps ++ ps') (front ++ back) :=
  ⟨h.quiet.append h'.quiet, by
    rw [List.filter_append]
    exact List.rel_append h.properties h'.properties⟩

theorem Fillers.holdProperties {nodes : List Node} (h : Fillers nodes) :
    HoldProperties source [] nodes := by
  refine ⟨h.allQuiet, ?_⟩
  rw [List.filter_eq_nil_iff.2 fun n hn => ?_]
  · exact .nil
  · obtain hkind | ⟨text, hkind⟩ := (h n hn).kind <;> simp [hkind]

theorem Lone.holdProperties {p : PropertyText} {nodes : List Node}
    (h : Lone cs (p.IsNode source) nodes) : HoldProperties source [p] nodes := by
  obtain ⟨comments, n, rfl, hcomments, -, hn⟩ := h
  suffices hlast : HoldProperties source [p] [n] from
    hcomments.fillers.holdProperties.append hlast
  refine ⟨?_, ?_⟩
  · intro m hm
    obtain rfl := List.mem_singleton.1 hm
    exact hn.quiet
  · rw [List.filter_cons_of_pos (by simp [hn.kind]), List.filter_nil]
    exact .cons hn .nil

/-! ### Semicolons and member lists -/

theorem sight_semicolon (cs : List Char) :
    Sight.ofText (';' :: cs) = ⟨.mark [';'], cs, ';' :: cs, false, true⟩ := by
  rw [Sight.ofText_token (startsToken_cons (by decide) (by decide) cs)]
  rfl

/-- A semicolon ends a statement. -/
theorem makes_semicolon {inExpression : Bool} :
    Makes source ((Rule.semicolon inExpression : R).read self) (';' :: cs) cs
      (Lone (';' :: cs) (LeafOf source (';' :: cs) cs (.token ";"))) := by
  have hmark := makes_mark source self ";"
    (Signs.seen (sight_semicolon cs) .nil).look
  rw [sight_semicolon] at hmark
  intro s hs hlenient
  have htoken : s.next.token = .mark [';'] := by
    have hsight := congrArg Sight.token hs.sight
    rwa [hs.rest_eq, sight_semicolon] at hsight
  obtain ⟨t, ht, hmakes⟩ := hmark s hs hlenient
  refine ⟨t, ?_, hmakes⟩
  have htake : s.acceptSemicolon inExpression = .ok (s.take (.token ";")) :=
    if_pos (by simp [htoken])
  have haccept : (Rule.mark ";" : R).read self s = .ok (s.take (.token ";")) :=
    if_pos (by simp [htoken])
  rw [Rule.read, htake, ← haccept, ht]

/-- A semicolon stands between members. -/
theorem makes_memberEnd (source : List Char) (hfuel : depth ≤ fuel) :
    Makes source (memberEnd.read (readGoal grammar fuel)) (';' :: cs) cs Fillers := by
  refine Makes.mono (makes_any [.mark ","] [] (fun r hr => ?_)
    makes_semicolon) fun made hmade => hmade.fillers
  obtain rfl := List.mem_singleton.1 hr
  exact fails_of_foresee _ _ (.seen (sight_semicolon cs) .nil) hfuel (by decide +kernel)

theorem BeforeBrace.signs_semicolon (h : BeforeBrace cs) :
    ∃ k, Signs k (';' :: cs) [markSign ";", (markSign "\x7d").loose] := by
  obtain ⟨k, hk⟩ := h
  exact ⟨k, .seen (sight_semicolon cs) hk⟩

/-- The text after a property is read to the closing brace. -/
theorem makes_moreMembers {ps : List PropertyText} (hfuel : depth + 1 < fuel)
    (hdeep : deep + 1 < fuel) (h : MoreMembers source deep ps cs rest) :
    Makes source ((Rule.seq (.many (.seq memberEnd (.goal .typeMember))) (opt memberEnd)).read
      (readGoal grammar fuel)) cs rest (HoldProperties source ps) := by
  have hdepth : depth ≤ fuel := by omega
  have hmany : ∃ mid, MakesMany source ((Rule.seq memberEnd (.goal .typeMember)).read
      (readGoal grammar fuel)) cs mid (HoldProperties source ps) ∧
      Makes source ((opt memberEnd).read (readGoal grammar fuel)) mid rest Fillers := by
    induction h with
    | @done cs brace =>
      obtain ⟨k, hk⟩ := brace
      have hstop := fails_of_foresee source
        (.seq memberEnd (.goal .typeMember)) hk hdepth (by decide +kernel)
      have hend := passes_of_foresee source (opt memberEnd) hk hdepth
        (by decide +kernel)
      exact ⟨cs, (makesMany_nil hstop).mono fun made hmade => hmade ▸ fillers_nil.holdProperties,
        hend.mono fun made hmade => hmade.fillers⟩
    | @ended cs brace =>
      obtain ⟨k, hk⟩ := brace.signs_semicolon
      have hstop := fails_of_foresee source
        (.seq memberEnd (.goal .typeMember)) hk hdepth (by decide +kernel)
      exact ⟨';' :: cs, (makesMany_nil hstop).mono fun made hmade => hmade ▸ fillers_nil.holdProperties,
        (makes_memberEnd source hdepth).opt⟩
    | @more p ps cs mid rest first others ih =>
      obtain ⟨stop, hmany, hend⟩ := ih
      have hitem := (makes_memberEnd source hdepth).seq
        ((makes_member hfuel hdeep first).goal (readGoal grammar fuel))
      refine ⟨stop, (makesMany_cons hitem (Nat.lt_succ_of_lt first.short) hmany).mono
        fun made hmade => ?_, hend⟩
      obtain ⟨_, back, rfl, ⟨front, mid, rfl, hfront, hmid⟩, hback⟩ := hmade
      exact (hfront.holdProperties.append hmid.holdProperties).append hback
  obtain ⟨mid, hmany, hend⟩ := hmany
  refine (hmany.many.seq hend).mono fun made hmade => ?_
  obtain ⟨front, back, rfl, hfront, hback⟩ := hmade
  simpa using hfront.append hback.holdProperties

theorem MoreMembers.brace {ps : List PropertyText} (h : MoreMembers source deep ps cs rest) :
    BeforeBrace rest := by
  induction h with
  | done brace => exact brace
  | ended brace => exact brace
  | more _ _ ih => exact ih

theorem Members.brace {ps : List PropertyText} (h : Members source deep ps cs rest) :
    BeforeBrace rest := by
  cases h with
  | none brace => exact brace
  | some _ others => exact others.brace

/-- Properties in braces are read to the closing brace. -/
theorem makes_memberList {ps : List PropertyText} (hfuel : depth + 1 < fuel)
    (hdeep : deep + 1 < fuel) (h : Members source deep ps cs rest) :
    Makes source (memberList.read (readGoal grammar fuel)) cs rest (HoldProperties source ps) := by
  have hdepth : depth ≤ fuel := by omega
  cases h with
  | none brace =>
    obtain ⟨k, hk⟩ := brace
    exact (passes_of_foresee _ _ hk hdepth (by decide +kernel)).mono fun made hmade =>
      hmade.fillers.holdProperties
  | @some p ps _ mid _ first others =>
    obtain ⟨_, b, hsigns⟩ := first.signs
    have hseparator := passes_of_foresee source (opt (any [.mark ",", .mark ";"])) hsigns hdepth
      (by cases b <;> cases p.isOptional <;> decide +kernel)
    have hmember := (makes_member hfuel hdeep first).goal (readGoal grammar fuel)
    have hmore := (hmember.seq (makes_moreMembers hfuel hdeep others)).regroup
    refine Makes.mono (hseparator.seq hmore).opt fun made hmade => ?_
    obtain ⟨front, _, rfl, hfront, mid, back, rfl, hmid, hback⟩ := hmade
    exact hfront.fillers.holdProperties.append (hmid.holdProperties.append hback)

/-- A mark is a filler. -/
theorem makes_bareMark (source : List Char) (self : Goal → Scan → Reading) (characters : String)
    (h : (Sight.ofText cs).token = .mark characters.toList) :
    Makes source ((Rule.mark characters : R).read self) cs (Sight.ofText cs).tail Fillers :=
  (makes_mark source self characters (List.mem_singleton.2 h)).mono fun _ hmade => hmade.fillers

theorem BeforeBrace.token (h : BeforeBrace cs) : (Sight.ofText cs).token = .mark ['\x7d'] := by
  obtain ⟨k, hk⟩ := h
  exact token_of_fits hk.look

/-- Properties in braces are read as the body of an interface. -/
theorem makes_interfaceBody {ps : List PropertyText} (hfuel : depth + 2 < fuel)
    (hdeep : deep + 2 < fuel) (hbrace : (Sight.ofText cs).token = .mark ['\x7b'])
    (h : Members source deep ps (Sight.ofText cs).tail rest) :
    Makes source (readGoal grammar fuel .interfaceBody) cs (Sight.ofText rest).tail
      (Lone cs fun n => n.Is .interfaceBody ∧ HoldProperties source ps n.children) := by
  obtain ⟨fuel, rfl⟩ := Nat.exists_eq_succ_of_ne_zero (Nat.ne_of_gt (Nat.zero_lt_of_lt hfuel))
  have hopen := makes_bareMark source (readGoal grammar fuel) "\x7b" hbrace
  have hmembers : Makes source (memberList.read (readGoal grammar fuel)) _ _ _ :=
    makes_memberList (by omega) (by omega) h
  have hclose := makes_any [] [.seq (.skippedTo "\x7d") closeBrace] (by simp)
    (makes_any [] [.seq .finish (.missing (.token "\x7d"))] (by simp)
      (makes_bareMark source (readGoal grammar fuel) "\x7d" h.brace.token))
  refine Makes.ofRule (Makes.mono (Makes.node _ (Makes.breaking
    (hopen.seq (hmembers.seq hclose)))) fun made hmade => hmade.mono fun n hn => ⟨hn.1, ?_⟩)
  obtain ⟨front, _, hchildren, hfront, mid, back, rfl, hmid, hback⟩ := hn.2.2
  rw [hchildren]
  simpa using hfront.holdProperties.append (hmid.append hback.holdProperties)

/-! ### Names and headers -/

/-- The first character of a name is one of a name, or it starts an escape. -/
theorem IsName.head {w : List Char} (h : IsName w) :
    ∃ c rest, w = c :: rest ∧ (isNameStart c = true ∨ c = '\\') := by
  have hname := name?_of_word (congrArg Prod.fst h)
  rcases w with _ | ⟨c, w⟩
  · cases hname
  rw [name?] at hname
  split_ifs at hname with hstart
  obtain hstart | hescape := (Bool.or_eq_true _ _).mp hstart
  · exact ⟨c, w, rfl, .inl hstart⟩
  · refine ⟨c, w, rfl, .inr ?_⟩
    by_contra hc
    rw [nameEscape?_of_ne (by simpa using hc)] at hescape
    cases hescape

/-- Neither a blank nor a mark is the first character of a name. -/
theorem IsName.head_ne {w : List Char} (h : IsName w) {c : Char} {rest : List Char}
    (hw : w = c :: rest) {d : Char} (hd : isNameStart d = false) (hslash : d ≠ '\\') : c ≠ d := by
  rintro rfl
  obtain ⟨c', rest', rfl, hstart | rfl⟩ := h.head <;> obtain ⟨rfl, -⟩ := List.cons.inj hw
  · rw [hstart] at hd
    cases hd
  · exact hslash rfl

theorem IsName.startsToken {w : List Char} (h : IsName w) (k : List Char) :
    StartsToken (w ++ k) := by
  obtain ⟨c, rest, rfl, hstart⟩ := h.head
  refine startsToken_cons ?_ (h.head_ne rfl (by decide) (by decide)) _
  obtain hstart | rfl := hstart
  · simp only [isNameStart, isNameChar, Bool.and_eq_true, Bool.not_eq_true'] at hstart
    exact hstart.1.1.2
  · decide

/-- What comes next where a name stands. -/
theorem sight_name {w : List Char} (h : IsName w) (hk : endsName k = true) :
    Sight.ofText (w ++ k) = ⟨.word w, k, w ++ k, false, true⟩ := by
  rw [Sight.ofText_token (h.startsToken k),
    Token.ofText_append_of_word hk (congrArg Prod.fst h), h]
  rfl

theorem StartsToken.startsClear (h : StartsToken cs) : startsClear cs = true := by
  rcases cs with _ | ⟨c, cs⟩
  · rfl
  · rw [Syntax.startsClear, List.dropWhile_cons_of_neg (by simp [h.1 c rfl]), h.2]
    rfl

theorem startsClear_space : startsClear (' ' :: cs) = startsClear cs := rfl

theorem sight_equals (cs : List Char) :
    Sight.ofText ('=' :: ' ' :: cs) = ⟨.mark ['='], ' ' :: cs, '=' :: ' ' :: cs, false, true⟩ := by
  rw [Sight.ofText_token (startsToken_cons (by decide) (by decide) _)]
  rfl

theorem sight_openBrace (cs : List Char) :
    Sight.ofText ('\x7b' :: cs) = ⟨.mark ['\x7b'], cs, '\x7b' :: cs, false, true⟩ := by
  rw [Sight.ofText_token (startsToken_cons (by decide) (by decide) _)]
  rfl

/-- What comes next where a name stands behind a space. -/
theorem sight_spacedName {w : List Char} (h : IsName w) (k : List Char) :
    Sight.ofText (' ' :: (w ++ ' ' :: k)) = ⟨.word w, ' ' :: k, w ++ ' ' :: k, false, true⟩ := by
  rw [Sight.ofText_space, sight_name h rfl]

/-! ### Aliases -/

/-- The node is an alias. -/
structure Node.IsAlias (source x t : List Char) (n : Node) : Prop where
  named : x ≠ []
  kind : n.kind = .typeAliasDeclaration
  quiet : n.IsQuiet
  name : ∃ m, n.child? .name = some m ∧ m.text source = x
  value : ∃ v, n.child? .value = some v ∧ v.text source = t

/-- The text from the word for an alias to its type. -/
def aliasText (x k : List Char) : List Char :=
  ' ' :: ("type".toList ++ ' ' :: (x ++ ' ' :: '=' :: ' ' :: k))

/-- What is known of the tokens before the type of an alias. -/
def aliasSigns : List Sign := [wordSign "type", nameSign [], markSign "="]

theorem signs_aliasText {x : List Char} (hx : IsName x) (k : List Char) :
    Signs (' ' :: k) (aliasText x k) aliasSigns := by
  have hequals : Sight.ofText (' ' :: '=' :: ' ' :: k) = _ :=
    (Sight.ofText_space _).trans (sight_equals k)
  exact .seen (sight_spacedName (by decide) _) (.seenAs (sight_spacedName hx _)
    ⟨x, rfl, List.not_mem_nil⟩ (.seen hequals .nil))

/-- The name of a declared type. -/
theorem makes_declaredName (source : List Char) (self : Goal → Scan → Reading) {x : List Char}
    (hx : IsName x) (k : List Char) :
    Makes source (declaredName.read self) (' ' :: (x ++ ' ' :: k)) (' ' :: k)
      (Lone (' ' :: (x ++ ' ' :: k)) fun n => n.IsQuiet ∧ n.field = some .name ∧
        n.text source = x ∧ n.kind = .typeIdentifier) := by
  have hsight := sight_spacedName hx k
  have hlook : (Look.wordBut []).Fits (Sight.ofText (' ' :: (x ++ ' ' :: k))).token :=
    ⟨x, congrArg Sight.token hsight, List.not_mem_nil⟩
  have hname := (makes_anyName source self .typeIdentifier hlook).part .name
  rw [hsight] at hname
  refine hname.mono fun made hmade => hmade.mono fun n hn => ?_
  obtain ⟨m, hm, rfl⟩ := hn
  exact ⟨(hm.isQuiet rfl).withField _, field_withField _ _,
    (text_withField _ _ _).trans (hm.2.1 x (congrArg Sight.body hsight)), by simp [hm.1.kind]⟩

/-- A type with a name for it is read as an alias. -/
theorem makes_alias {x : List Char} (hfuel : depth ≤ fuel) (hdeep : deep ≤ fuel) (hx : IsName x)
    (htype : ReadsType source deep t (' ' :: k) (';' :: rest)) :
    Makes source (typeAlias.read (readGoal grammar fuel)) (aliasText x k) rest
      (Lone (aliasText x k) (Node.IsAlias source x t)) := by
  have hsigns := signs_aliasText hx k
  have hword := makes_word source (readGoal grammar fuel) "type" hsigns.look
  have htail : (Sight.ofText (aliasText x k)).tail = ' ' :: (x ++ ' ' :: '=' :: ' ' :: k) :=
    congrArg Sight.tail (sight_spacedName (by decide) _)
  rw [htail] at hword
  have hname := makes_declaredName source (readGoal grammar fuel) hx
    ('=' :: ' ' :: k)
  have hequals : Sight.ofText (' ' :: '=' :: ' ' :: k) = _ :=
    (Sight.ofText_space _).trans (sight_equals k)
  have hparameters := passes_of_foresee source (opt (.goal .typeParameters))
    (Signs.seen hequals .nil) hfuel (by decide +kernel)
  have hmark := makes_mark source (readGoal grammar fuel) "="
    (Signs.seen hequals .nil).look
  rw [hequals] at hmark
  have hvalue := ((htype fuel hdeep).goal (readGoal grammar fuel)).part .value
  have hend : Makes source ((declarationEnd false).read (readGoal grammar fuel)) (';' :: rest) rest _ :=
    Makes.choice_first makes_semicolon
  refine Makes.mono (Makes.node _ (hword.seq (hname.seq (hparameters.seq (hmark.seq
    (hvalue.seq hend)))))) fun made hmade => hmade.mono fun n hn => ?_
  obtain ⟨his, -, words, _, hchildren, hwords, _, _, rfl, ⟨comments, m, rfl, hcomments, -, hm⟩,
    parameters, _, rfl, hparameters, marks, _, rfl, hmarks, _, ends, rfl,
    ⟨comments', _, rfl, hcomments', -, v, hv, rfl⟩, hends⟩ := hn
  have hparts : n.HasParts .name m .value (v.withField .value) :=
    ⟨by decide, hm.2.1, field_withField _ _, words ++ comments, parameters ++ marks ++ comments',
      ends, by simp [hchildren], hwords.fillers.append hcomments.fillers,
      (hparameters.fillers.append hmarks.fillers).append hcomments'.fillers, hends.fillers⟩
  exact ⟨hx.ne_nil, his.kind,
    his.isQuiet rfl (hparts.allQuiet hm.1 ((hv.1.isQuiet rfl hv.2.2).withField _)),
    ⟨m, hparts.child?_first, hm.2.2.1⟩, v.withField .value, hparts.child?_second,
    by simp [hv.2.1]⟩

/-! ### Interfaces -/

/-- The node is an interface that extends nothing. -/
structure Node.IsInterface (source x : List Char) (ps : List PropertyText) (n : Node) : Prop where
  named : x ≠ []
  kind : n.kind = .interfaceDeclaration
  quiet : n.IsQuiet
  name : ∃ m, n.child? .name = some m ∧ m.text source = x
  body : ∃ b, n.child? .body = some b ∧ HoldProperties source ps b.children
  bare : ∀ m ∈ n.children, m.kind ≠ .extendsClause

/-- The text from the word for an interface to its opening brace. -/
def interfaceText (x k : List Char) : List Char :=
  ' ' :: ("interface".toList ++ ' ' :: (x ++ ' ' :: '\x7b' :: k))

/-- What is known of the tokens before the members of an interface. -/
def interfaceSigns : List Sign := [wordSign "interface", nameSign [], markSign "\x7b"]

theorem signs_interfaceText {x : List Char} (hx : IsName x) (k : List Char) :
    Signs k (interfaceText x k) interfaceSigns := by
  have hbrace : Sight.ofText (' ' :: '\x7b' :: k) = _ :=
    (Sight.ofText_space _).trans (sight_openBrace k)
  exact .seen (sight_spacedName (by decide) _) (.seenAs (sight_spacedName hx _)
    ⟨x, rfl, List.not_mem_nil⟩ (.seen hbrace .nil))

/-- Properties in braces with a name for them are read as an interface. -/
theorem makes_interface {x : List Char} {ps : List PropertyText} (hfuel : depth + 2 < fuel)
    (hdeep : deep + 2 < fuel) (hx : IsName x) (h : Members source deep ps k rest) :
    Makes source (interfaceDeclaration.read (readGoal grammar fuel)) (interfaceText x k)
      (Sight.ofText rest).tail (Lone (interfaceText x k) (Node.IsInterface source x ps)) := by
  have hdepth : depth ≤ fuel := by omega
  have hword := makes_word source (readGoal grammar fuel) "interface"
    (signs_interfaceText hx k).look
  have htail : (Sight.ofText (interfaceText x k)).tail = ' ' :: (x ++ ' ' :: '\x7b' :: k) :=
    congrArg Sight.tail (sight_spacedName (by decide) _)
  rw [htail] at hword
  have hname := makes_declaredName source (readGoal grammar fuel) hx
    ('\x7b' :: k)
  have hbrace : Sight.ofText (' ' :: '\x7b' :: k) = _ :=
    (Sight.ofText_space _).trans (sight_openBrace k)
  have hsigns : Signs k (' ' :: '\x7b' :: k) [markSign "\x7b"] := .seen hbrace .nil
  have hparameters := passes_of_foresee source (opt (.goal .typeParameters))
    hsigns hdepth (by decide +kernel)
  have hparents := passes_of_foresee source (opt (.node .extendsClause
    (all [.word "extends", list1 (.mark ",") namedType]))) hsigns hdepth (by decide +kernel)
  have hskip := passes_of_foresee source (opt (.skippedTo "\x7b"))
    hsigns hdepth (by decide +kernel)
  have htoken : (Sight.ofText (' ' :: '\x7b' :: k)).token = .mark ['\x7b'] :=
    congrArg Sight.token hbrace
  have hbody := ((makes_interfaceBody hfuel hdeep htoken (by rwa [hbrace])).goal
    (readGoal grammar fuel)).part .body
  refine Makes.mono (Makes.node _ (hword.seq (hname.seq (hparameters.seq (hparents.seq (hskip.seq
    hbody)))))) fun made hmade => hmade.mono fun n hn => ?_
  obtain ⟨his, -, words, _, hchildren, hwords, _, _, rfl, ⟨comments, m, rfl, hcomments, -, hm⟩,
    parameters, _, rfl, hparameters, parents, _, rfl, hparents, skip, _, rfl, hskip,
    comments', _, rfl, hcomments', -, b, hb, rfl⟩ := hn
  have hparts : n.HasParts .name m .body (b.withField .body) :=
    ⟨by decide, hm.2.1, field_withField _ _, words ++ comments,
      parameters ++ parents ++ skip ++ comments', [], by simp [hchildren],
      hwords.fillers.append hcomments.fillers,
      ((hparameters.fillers.append hparents.fillers).append hskip.fillers).append
        hcomments'.fillers, fillers_nil⟩
  refine ⟨hx.ne_nil, his.kind,
    his.isQuiet rfl (hparts.allQuiet hm.1 ((hb.1.isQuiet rfl hb.2.quiet).withField _)),
    ⟨m, hparts.child?_first, hm.2.2.1⟩, ⟨b.withField .body, hparts.child?_second, by simp [hb.2]⟩,
    hparts.kind_ne rfl (by decide) (by simp [hm.2.2.2]) (by simp [hb.1.kind])⟩

/-! ### Exports -/

/-- The node is an export of a declaration. -/
structure Node.Exports (P : Node → Prop) (n : Node) : Prop where
  is : n.Is .exportStatement
  children : ∃ front d, n.children = front ++ [d.withField .declaration] ∧ Fillers front ∧ P d

/-- What an export can be but one of a declaration or of something broken. -/
def otherExports : List R :=
  [all [.mark "*", opt (all [.word "as", any [anyName .identifier, string]]), fromClause,
      .semicolon true],
    all [opt (.word "type"), nameList, opt fromClause, .semicolon true],
    all [.word "default", any [
      .part .declaration (.goal .declaration),
      all [.part .value (.goal .expression), .semicolon true]]],
    all [.mark "=", .goal .expression, .semicolon true],
    all [.word "as", .word "namespace", anyName .identifier, .semicolon true]]

theorem foresee_otherExports {signs : List Sign} (hsigns : signs = aliasSigns ∨
    signs = interfaceSigns) : ∀ r ∈ otherExports,
    r.foresee (foreseeGoal grammar depth) false signs = some [none] := by
  obtain rfl | rfl := hsigns <;> decide +kernel

/-- An export is read as a statement, if what follows its word is read as a declaration. -/
theorem makes_export {signs : List Sign} {P : Node → Prop} (hfuel : depth + 3 < fuel)
    (hsigns : signs = aliasSigns ∨ signs = interfaceSigns)
    (hword : (Sight.ofText cs).token = .word "export".toList)
    (htail : Signs k (Sight.ofText cs).tail signs)
    (hread : ∀ fuel', fuel ≤ fuel' + 3 → Makes source (declaration.read (readGoal grammar fuel'))
      (Sight.ofText cs).tail rest (Lone (Sight.ofText cs).tail P)) :
    Makes source (readGoal grammar fuel .statement) cs rest (Lone cs (Node.Exports P)) := by
  obtain ⟨fuel, rfl⟩ : ∃ fuel', fuel = fuel' + 3 := ⟨fuel - 3, by omega⟩
  have hdepth : depth ≤ fuel + 1 := by omega
  have hexport : Signs _ cs [(wordSign "export").loose] :=
    .cons ⟨List.mem_singleton.2 hword, by simp [Sign.loose]⟩ .nil
  have hdecorators := passes_of_foresee source (.many (.goal .decorator))
    hexport hdepth (by decide +kernel)
  have hword' := makes_word source (readGoal grammar (fuel + 1)) "export" hexport.look
  have hgoes := passes_of_foresee source (.goesOn true) htail hdepth
    (by obtain rfl | rfl := hsigns <;> decide +kernel)
  have hdeclaration : Makes source (readGoal grammar (fuel + 1) .declaration) _ _ _ :=
    .ofRule (hread fuel le_rfl)
  have hchoice := makes_any otherExports [brokenInterface, brokenAssignment]
    (fun r hr => fails_of_foresee _ _ htail hdepth (foresee_otherExports hsigns r hr))
    ((hdeclaration.goal _).part .declaration)
  have hnode : Makes source (readGoal grammar (fuel + 2) .exportStatement) _ _ _ :=
    .ofRule (Makes.node _ (hdecorators.seq (hword'.seq (hgoes.seq hchoice)))).mended
  refine Makes.mono (.ofRule (Makes.choice_first (hnode.goal _))) fun made hmade =>
    hmade.mono fun n hn => ?_
  obtain ⟨his, -, decorators, _, hchildren, hdecorators, words, _, rfl, hwords, gaps, _, rfl,
    hgaps, comments, _, rfl, hcomments, -, d, hd, rfl⟩ := hn
  exact ⟨his, decorators ++ words ++ gaps ++ comments, d, by simp [hchildren],
    ((hdecorators.fillers.append hwords.fillers).append hgaps.fillers).append hcomments.fillers,
    hd⟩

end

end ServiceScaffold.Syntax
