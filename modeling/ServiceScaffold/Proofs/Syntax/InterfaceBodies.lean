import ServiceScaffold.Proofs.Syntax.NodeLaws
import ServiceScaffold.Proofs.Syntax.Traversal

/-!
# Bodies of interfaces

An interface has a child in the part of its body, which is no export statement, whatever errors the
text holds.  The grammar gives bodies to interfaces only, so that this can be read off its rules.

* `Node.InterfacesApart` : the body of no interface is an export statement;
* `Node.BodiesApart`, `Node.bodiesLaw` : the same of every body, which the rules keep;
* `Rule.bodied` : a rule makes the bodies of interfaces and no others, as can be read off the rule;
* `Rule.respects_of_bodied` : such a rule respects the law;
* `interfacesApart_parse` : **in the tree of a text the body of no interface is an export statement**.
-/

namespace ServiceScaffold.Syntax

/-! ### Trees -/

namespace Node

/-- The body of no interface in the tree is an export statement. -/
def InterfacesApart (root : Node) : Prop :=
  ∀ n ∈ root.preorder, n.kind = .interfaceDeclaration → ∀ b, n.child? .body = some b →
    b.kind ≠ .exportStatement

/-- No node in the tree that stands in the part of a body is an export statement. -/
def BodiesApart (n : Node) : Prop :=
  ∀ m ∈ n.preorder, m.field = some .body → m.kind ≠ .exportStatement

theorem bodiesApart_mk {kind : NodeKind} {field : Option FieldName} {start stop : Location}
    {missing : Bool} {children : List Node} (hbody : field = some .body → kind ≠ .exportStatement)
    (h : ∀ n ∈ children, n.BodiesApart) :
    (Node.mk kind field start stop missing children).BodiesApart := by
  intro m hm
  rw [preorder] at hm
  obtain rfl | hbelow := List.mem_cons.1 hm
  · exact hbody
  · obtain ⟨n, hn, hmn⟩ := mem_preorderAll.1 hbelow
    exact h n hn m hmn

theorem BodiesApart.interfacesApart {root : Node} (h : root.BodiesApart) :
    root.InterfacesApart := by
  intro n hn _ b hb
  have hfield : b.field = some .body := by simpa using List.find?_some hb
  obtain ⟨c, hc, rfl⟩ := Cursor.IsIn.exists_of_mem_preorder hn
  obtain ⟨d, hd, rfl⟩ := Cursor.exists_child? hb
  exact h d.node (hc.child? hd).mem_preorder hfield

theorem bodiesApart_leaf {kind : NodeKind} {start stop : Location} {missing : Bool} :
    (Node.mk kind none start stop missing []).BodiesApart :=
  bodiesApart_mk nofun nofun

theorem BodiesApart.withField {n : Node} {f : FieldName} (h : n.BodiesApart)
    (hbody : f = .body → n.kind ≠ .exportStatement) : (n.withField f).BodiesApart := by
  obtain ⟨kind, field, start, stop, missing, children⟩ := n
  refine bodiesApart_mk (fun hfield => hbody (Option.some.inj hfield)) fun m hm k hk => ?_
  exact h k (by rw [preorder]; exact List.mem_cons_of_mem _ (mem_preorderAll.2 ⟨m, hm, hk⟩))

theorem IsPlain.bodiesApart {source : List Char} {n : Node} (h : n.IsPlain source) :
    n.BodiesApart := by
  obtain ⟨kind, field, start, stop, missing, children⟩ := n
  obtain ⟨rfl, rfl, -⟩ := h
  exact bodiesApart_leaf

/-- Where a node stands does not matter for the bodies in it. -/
def bodiesLaw (source : List Char) : NodeLaw source Unit where
  Holds _ n := n.BodiesApart
  Makes _ _ := True
  inside _ _ := ()
  makes _ _ := trivial
  comment := IsPlain.bodiesApart
  leaf _ := bodiesApart_leaf
  node _ hchildren := bodiesApart_mk nofun hchildren

end Node

/-! ### Rules -/

namespace Rule

/-- What the rule reads as a body is read as the body of an interface. -/
def bodied : Rule Goal → Bool
  | part .body (goal .interfaceBody) => true
  | part field rule => field != .body && rule.bodied
  | seq first second => first.bodied && second.bodied
  | choice first second => first.bodied && second.bodied
  | many rule => rule.bodied
  | breaking _ rule => rule.bodied
  | lenient rule => rule.bodied
  | mended rule => rule.bodied
  | node _ rule => rule.bodied
  | wrap _ rule => rule.bodied
  -- what is read ahead or tried behind an error makes no nodes
  | _ => true

theorem bodied_part {field : FieldName} {rule : Rule Goal} (h : (part field rule).bodied) :
    (field = .body ∧ rule = .goal .interfaceBody) ∨ field ≠ .body ∧ rule.bodied := by
  by_cases hbody : field = .body ∧ rule = .goal .interfaceBody
  · exact .inl hbody
  · rw [bodied.eq_2 _ _ fun hfield hrule => hbody ⟨hfield, hrule⟩] at h
    simpa using Or.inr h

variable {source : List Char} {self : Goal → Scan → Reading}

/-- What is read as the body of an interface is one. -/
theorem keeps_body (hself : (goal .interfaceBody).Keeps (Node.bodiesLaw source) self ())
    (hbody : ∀ s t, self .interfaceBody s = .ok t →
      ∃ n nodes, t.children = n :: nodes ∧ n.kind = .interfaceBody) :
    (part .body (goal .interfaceBody)).Keeps (Node.bodiesLaw source) self () := by
  intro s t h hread
  obtain ⟨mid, hmid, rfl⟩ := Reading.exists_of_map_eq hread
  obtain ⟨n, nodes, hchildren, hkind⟩ := hbody s mid hmid
  have hmidObeys := hself s mid h hmid
  simp only [hchildren]
  refine hmidObeys.withChildren trivial trivial fun m hm => ?_
  obtain rfl | hold := List.mem_cons.1 hm
  · exact (hmidObeys.children (by simp [hchildren])).withField fun _ => by simp [hkind]
  · exact hmidObeys.children (by simp [hchildren, hold])

theorem respects_of_bodied {rule : Rule Goal}
    (hbody : (part .body (goal .interfaceBody)).Keeps (Node.bodiesLaw source) self ())
    (h : rule.bodied) : rule.Respects (Node.bodiesLaw source) self () := by
  induction rule with
  | seq first second ihfirst ihsecond | choice first second ihfirst ihsecond =>
    obtain ⟨hfirst, hsecond⟩ := Bool.and_eq_true_iff.1 h
    exact ⟨ihfirst hfirst, ihsecond hsecond⟩
  | many rule ih | breaking breaks rule ih => exact ih h
  | lenient rule ih => exact ⟨trivial, fun _ => Iff.rfl, ih h⟩
  | mended rule ih => exact .inr ⟨fun _ => trivial, ih h⟩
  | node kind rule ih => exact ⟨trivial, ih h⟩
  | wrap kind rule ih => exact ⟨trivial, fun _ hn => hn, ih h⟩
  | part field rule ih =>
    obtain ⟨rfl, rfl⟩ | ⟨hfield, hrule⟩ := bodied_part h
    · exact .inl hbody
    · exact .inr ⟨fun n hn => hn.withField (absurd · hfield), ih hrule⟩
  | _ => trivial

end Rule

/-! ### The grammar -/

/-- Every rule of the grammar reads the bodies of interfaces as bodies, and nothing else. -/
theorem bodied_grammar (g : Goal) : (grammar g).bodied := by
  cases g <;> decide +kernel

/-- The body of an interface is read as one. -/
theorem kind_of_readInterfaceBody {fuel : Nat} {s t : Scan}
    (hread : guardGoal fuel .interfaceBody s = .ok t) :
    ∃ n nodes, t.children = n :: nodes ∧ n.kind = .interfaceBody := by
  cases fuel with
  | zero => cases hread
  | succ fuel =>
    rw [guardGoal] at hread
    split_ifs at hread
    obtain ⟨inner, -, rfl⟩ := Reading.exists_of_map_eq hread
    exact ⟨_, _, rfl, rfl⟩

/-- **In the tree of a text the body of no interface is an export statement.** -/
theorem interfacesApart_parse (source : List Char) : (parse source).InterfacesApart := by
  have hbody (fuel : Nat) (hgoals : ∀ g i,
      True → (Rule.goal g).Keeps (Node.bodiesLaw source) (guardGoal fuel) i) :=
    Rule.keeps_body (hgoals .interfaceBody () trivial) fun _ _ => kind_of_readInterfaceBody
  have hroot : Grammar.rootItem.bodied := by decide +kernel
  obtain ⟨stop, nodes, htree, hnodes⟩ := obeys_parse (Node.bodiesLaw source) () trivial trivial
    (fun fuel hgoals g _ _ => Rule.respects_of_bodied (hbody fuel hgoals) (bodied_grammar g))
    fun fuel hgoals => Rule.respects_of_bodied (hbody fuel hgoals) hroot
  have hbodies : (parse source).BodiesApart := by
    rw [htree]
    exact Node.bodiesApart_mk nofun hnodes
  exact hbodies.interfacesApart

end ServiceScaffold.Syntax
