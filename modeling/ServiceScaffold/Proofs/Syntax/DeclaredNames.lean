import ServiceScaffold.Proofs.Syntax.NodeLaws

/-!
# Names of declared types, and comments

The name of an interface or of a type alias is a word of the text, whatever errors the text holds, so
that no slash stands in it.  A node that is a comment has the text of one.

* `Node.Sound` : the names of the types that a tree declares are words, and its comments are
  comments of the text;
* `Node.namesLaw` : what holds of a node of such a tree when it is made;
* `Rule.namesPlainly` : a rule makes such nodes only, as can be read off the rule;
* `Rule.respects_of_namesPlainly` : such a rule respects the law;
* `sound_parse` : **the tree of every text is sound**.
-/

namespace ServiceScaffold.Syntax

/-- The node declares a type. -/
def NodeKind.declaresType : NodeKind → Bool
  | .interfaceDeclaration | .typeAliasDeclaration => true
  | _ => false

namespace Node

variable {source : List Char}

/-- The node is a word, if it is a name. -/
def NamesPlainly (source : List Char) (n : Node) : Prop :=
  n.field = some .name → IsName (n.text source)

/-- Every type in the tree is declared by a word, and every comment is one of the text. -/
inductive Sound (source : List Char) : Node → Prop where
  | mk {kind : NodeKind} {field : Option FieldName} {start stop : Location} {missing : Bool}
      {children : List Node} (sound : ∀ n ∈ children, n.Sound source)
      (plainly : kind.declaresType → ∀ n ∈ children, n.NamesPlainly source)
      (comment : kind = .comment → comment? (Text.slice start.offset stop.offset source) = some []) :
      Sound source (.mk kind field start stop missing children)

theorem Sound.child {n m : Node} (h : n.Sound source) (hm : m ∈ n.children) : m.Sound source := by
  cases h with
  | mk sound _ _ => exact sound m hm

theorem Sound.name {n m : Node} (h : n.Sound source) (hkind : n.kind.declaresType)
    (hm : m ∈ n.children) : m.NamesPlainly source := by
  cases h with
  | mk _ plainly _ => exact plainly hkind m hm

theorem Sound.comment {n : Node} (h : n.Sound source) (hkind : n.kind = .comment) :
    comment? (n.text source) = some [] := by
  cases h with
  | mk _ _ comment => exact comment hkind

theorem Sound.withField {n : Node} (h : n.Sound source) (f : FieldName) :
    (n.withField f).Sound source := by
  cases h with
  | mk sound plainly comment => exact .mk sound plainly comment

theorem sound_leaf {kind : NodeKind} {field : Option FieldName} {start stop : Location}
    {missing : Bool} (hkind : kind ≠ .comment) :
    Sound source (.mk kind field start stop missing []) :=
  .mk (fun n hn => by simp at hn) (fun _ n hn => by simp at hn) fun h => absurd h hkind

theorem namesPlainly_of_field {n : Node} (h : n.field ≠ some .name) : n.NamesPlainly source :=
  fun hname => absurd hname h

/-- The node can stand where, if `strict`, names are words. -/
def Fits (source : List Char) (strict : Bool) (n : Node) : Prop :=
  n.Sound source ∧ (strict → n.NamesPlainly source)

theorem fits_leaf {strict : Bool} {kind : NodeKind} {start stop : Location} {missing : Bool}
    (hkind : kind ≠ .comment) : Fits source strict (.mk kind none start stop missing []) :=
  ⟨sound_leaf hkind, fun _ => namesPlainly_of_field (by simp [Node.field])⟩

theorem IsPlain.fits {strict : Bool} {n : Node} (h : n.IsPlain source) :
    n.Fits source strict := by
  obtain ⟨kind, field, start, stop, missing, children⟩ := n
  obtain ⟨rfl, rfl, htext⟩ := h
  exact ⟨.mk (fun n hn => by simp at hn) (fun _ n hn => by simp at hn) fun _ => htext,
    fun _ => namesPlainly_of_field (by simp [Node.field])⟩

/-- The nodes of a declaration fit where names are words. -/
def namesLaw (source : List Char) : NodeLaw source Bool where
  Holds strict n := n.Fits source strict
  Makes _ kind := kind ≠ .comment
  inside _ := NodeKind.declaresType
  makes hcomment _ := hcomment
  comment := IsPlain.fits
  leaf := fits_leaf
  node hkind hchildren :=
    ⟨.mk (fun n hn => (hchildren n hn).1) (fun hdeclares n hn => (hchildren n hn).2 hdeclares)
      (absurd · hkind), fun _ => namesPlainly_of_field nofun⟩

end Node

/-! ### Rules -/

namespace Rule

variable {G : Type}

/-- The rule names the types that it declares by words and makes no comments, and if `strict`, it
reads no other names for the node under construction. -/
def namesPlainly : Bool → Rule G → Bool
  | _, part .name (name kind _) => kind != .comment
  | strict, part field rule => (field != .name || !strict) && rule.namesPlainly strict
  | _, name kind _ => kind != .comment
  | _, literal _ kind => kind != .comment
  | _, missing kind => kind != .comment
  | strict, seq first second => first.namesPlainly strict && second.namesPlainly strict
  | strict, choice first second => first.namesPlainly strict && second.namesPlainly strict
  | strict, many rule => rule.namesPlainly strict
  | strict, breaking _ rule => rule.namesPlainly strict
  | strict, lenient rule => rule.namesPlainly strict
  | strict, mended rule => rule.namesPlainly strict
  | _, node kind rule => kind != .comment && rule.namesPlainly kind.declaresType
  | _, wrap kind rule => kind != .comment && !kind.declaresType && rule.namesPlainly false
  -- what is read ahead or tried behind an error makes no nodes
  | _, _ => true

theorem namesPlainly_part {field : FieldName} {rule : Rule G} {strict : Bool}
    (h : (part field rule).namesPlainly strict) :
    (∃ kind except, field = .name ∧ rule = .name kind except ∧ kind ≠ .comment) ∨
      (strict → field ≠ .name) ∧ rule.namesPlainly strict := by
  by_cases hword : ∃ kind except, field = .name ∧ rule = .name kind except
  · obtain ⟨kind, except, rfl, rfl⟩ := hword
    exact .inl ⟨kind, except, rfl, rfl, by simpa [namesPlainly] using h⟩
  · have hother : ∀ kind except, field = .name → rule = .name kind except → False :=
      fun kind except hfield hrule => hword ⟨kind, except, hfield, hrule⟩
    rw [namesPlainly.eq_2 _ _ _ hother] at h
    obtain ⟨hfield, hrule⟩ := Bool.and_eq_true_iff.1 h
    exact .inr ⟨fun hstrict => by simpa [hstrict] using hfield, hrule⟩

variable {source : List Char} {self : Goal → Scan → Reading} {strict : Bool} {s t : Scan}

/-- What is read in the part of the name is a word. -/
theorem keeps_name {kind : NodeKind} {except : List String} (hkind : kind ≠ .comment) :
    (part .name (name kind except)).Keeps (Node.namesLaw source) self strict := by
  intro s t h hread
  obtain ⟨mid, hmid, rfl⟩ := Reading.exists_of_map_eq hread
  simp only [read, Scan.accept] at hmid
  split_ifs at hmid with htoken
  obtain rfl := Except.ok.inj hmid
  -- only a word is read as a name
  obtain ⟨w, hw⟩ : ∃ w, s.next.token = .word w := by
    split at htoken
    · exact ⟨_, ‹_›⟩
    · cases htoken
  obtain ⟨htext, hword⟩ := h.next.word hw
  refine (h.take hkind).withChildren trivial trivial fun n hn => ?_
  obtain rfl | hold := List.mem_cons.1 hn
  · refine ⟨Node.sound_leaf hkind, fun _ _ => ?_⟩
    change IsName (Text.slice s.next.start.offset s.next.stop.offset source)
    rwa [htext]
  · exact (h.take hkind).children (List.mem_cons_of_mem _ hold)

theorem respects_of_namesPlainly {rule : Rule Goal} (h : rule.namesPlainly strict) :
    rule.Respects (Node.namesLaw source) self strict := by
  induction rule generalizing strict with
  | name kind except | literal token kind | missing kind =>
    exact bne_iff_ne.1 h
  | seq first second ihfirst ihsecond | choice first second ihfirst ihsecond =>
    obtain ⟨hfirst, hsecond⟩ := Bool.and_eq_true_iff.1 h
    exact ⟨ihfirst hfirst, ihsecond hsecond⟩
  | many rule ih | breaking breaks rule ih => exact ih h
  | lenient rule ih => exact ⟨trivial, fun _ => Iff.rfl, ih h⟩
  | mended rule ih => exact .inr ⟨fun _ => trivial, ih h⟩
  | node kind rule ih =>
    obtain ⟨hkind, hrule⟩ := Bool.and_eq_true_iff.1 h
    exact ⟨bne_iff_ne.1 hkind, ih hrule⟩
  | wrap kind rule ih =>
    obtain ⟨hkinds, hrule⟩ := Bool.and_eq_true_iff.1 h
    obtain ⟨hcomment, hkind⟩ := Bool.and_eq_true_iff.1 hkinds
    -- the new node does not declare a type
    have hnone : (Node.namesLaw source).inside strict kind = false := by
      simpa [Node.namesLaw] using hkind
    refine ⟨bne_iff_ne.1 hcomment, fun n hn => ?_, ?_⟩
    · rw [hnone]
      exact ⟨hn.1, nofun⟩
    · rw [hnone]
      exact ih hrule
  | part field rule ih =>
    obtain ⟨kind, except, rfl, rfl, hkind⟩ | ⟨hfield, hrule⟩ := namesPlainly_part h
    · exact .inl (keeps_name hkind)
    · refine .inr ⟨fun n hn => ⟨hn.1.withField field, fun hstrict => ?_⟩, ih hrule⟩
      exact Node.namesPlainly_of_field (by
        cases n
        simp [Node.withField, Node.field, hfield hstrict])
  | _ => trivial

end Rule

/-! ### The grammar -/

variable {source : List Char}

/-- Every rule of the grammar names the types that it declares by words, makes no comments and reads
no names for the node around it. -/
theorem namesPlainly_grammar (g : Goal) (strict : Bool) : (grammar g).namesPlainly strict := by
  cases g <;> cases strict <;> decide +kernel

/-- **Every type in the tree of a text is declared by a word, and every comment is one of the
text.** -/
theorem sound_parse (source : List Char) : (parse source).Sound source := by
  -- the root declares no type, so that its items may have any names
  have hroot : Grammar.rootItem.namesPlainly false := by decide +kernel
  obtain ⟨stop, nodes, htree, hnodes⟩ := obeys_parse (Node.namesLaw source) false trivial trivial
    (fun _ _ g strict _ => Rule.respects_of_namesPlainly (namesPlainly_grammar g strict))
    fun _ _ => Rule.respects_of_namesPlainly hroot
  rw [htree]
  exact .mk (fun n hn => (hnodes n hn).1) nofun nofun

end ServiceScaffold.Syntax
