import ServiceScaffold.Proofs.Results
import ServiceScaffold.Proofs.Schema.WellFormed
import ServiceScaffold.Proofs.Service.Routes

/-!
# When a schema has no service

A resource is refused if its name is not declared or empty, and for no other reason: however a name
is written, its route segment is empty only if the name is.  The first resource that is refused is
the one that is reported.

* `Naming.routeSegment_eq_empty_iff` : only the empty name has an empty route segment;
* `Schema.Refuses` : no resource can be made of the name;
* `Resource.ofNames_error_iff` : the names of resources are gone through up to the first that is
  refused;
* `Findings.Sound.not_refuses` : the resources that come of a text are not refused;
* `Service.ofSchema_exact` : **when there is no service, what is reported then, what a service
  consists of otherwise**, and that every schema of a text has one.
-/

namespace ServiceScaffold

namespace Naming

open Text

theorem kebabChars_ne_nil {cs : List Char} (h : cs ≠ []) : kebabChars cs ≠ [] := by
  obtain ⟨c, cs, rfl⟩ := List.exists_cons_of_ne_nil h
  rw [kebabChars, kebabAfter]
  simp [lowerChars_ne_nil]

/-- Only the empty name has an empty route segment. -/
theorem routeSegment_eq_empty_iff {name : String} : routeSegment name = "" ↔ name = "" := by
  refine ⟨fun h => ?_, fun h => by rw [h]; rfl⟩
  by_contra hne
  have hname : name.toList ≠ [] := fun hnil => hne (String.toList_eq_nil_iff.1 hnil)
  obtain ⟨stem, hstem⟩ := pluralChars_ends (kebabChars_ne_nil hname)
  have hlist := congrArg String.toList h
  rw [routeSegment, plural, kebab, String.toList_ofList, String.toList_ofList, hstem] at hlist
  simp at hlist

end Naming

namespace Schema

/-- No resource can be made of the name. -/
def Refuses (s : Schema) (name : String) : Prop :=
  (name ∉ Keyed.keys s.interfaces ∧ name ∉ Keyed.keys s.types) ∨ name = ""

instance (s : Schema) (name : String) : Decidable (s.Refuses name) :=
  inferInstanceAs (Decidable (_ ∨ _))

/-- Why no resource can be made of the name. -/
def problemWith (s : Schema) (name : String) : ResourceProblem :=
  if name ∉ Keyed.keys s.interfaces ∧ name ∉ Keyed.keys s.types then .undeclared name
  else .emptyRoute name

end Schema

namespace Resource

variable {schema : Schema} {name : String} {names : List String} {problem : ResourceProblem}

/-- A name is refused, or a resource is made of it. -/
theorem ofName_cases (schema : Schema) (name : String) :
    (schema.Refuses name ∧ ofName schema name = .error (schema.problemWith name)) ∨
    (¬schema.Refuses name ∧ ∃ r, ofName schema name = .ok r) := by
  have hsegment : (Naming.routeSegment name).isEmpty = true ↔ name = "" := by
    rw [String.isEmpty_iff, Naming.routeSegment_eq_empty_iff]
  rw [ofName, Schema.Refuses, Schema.problemWith]
  simp only [← not_or, ← Schema.isDeclared_iff, Bool.not_eq_true', Bool.not_eq_true]
  by_cases hdeclared : schema.isDeclared name = false
  · exact .inl ⟨.inl hdeclared, by rw [if_pos hdeclared, if_pos hdeclared]⟩
  · rw [if_neg hdeclared, if_neg hdeclared]
    by_cases hempty : name = ""
    · exact .inl ⟨.inr hempty, if_pos (hsegment.2 hempty)⟩
    · rw [if_neg (mt hsegment.1 hempty)]
      exact .inr ⟨not_or.2 ⟨hdeclared, hempty⟩, _, rfl⟩

/-- The names of resources are gone through up to the first that is refused. -/
theorem ofNames_error_iff : ofNames schema names = .error (name, problem) ↔
    problem = schema.problemWith name ∧ ∃ before after, names = before ++ name :: after ∧
      (∀ other ∈ before, ¬schema.Refuses other) ∧ schema.Refuses name := by
  induction names with
  | nil => simp [ofNames]
  | cons first names ih =>
    rw [ofNames]
    obtain ⟨hrefuses, herror⟩ | ⟨hfit, r, hok⟩ := ofName_cases schema first
    · rw [herror]
      constructor
      · intro h
        obtain ⟨rfl, rfl⟩ := Prod.mk.inj (Except.error.inj h)
        exact ⟨rfl, [], names, rfl, List.forall_mem_nil _, hrefuses⟩
      · rintro ⟨rfl, before, after, hnames, hbefore, -⟩
        -- nothing comes before a name that is refused
        cases before with
        | nil => rw [(List.cons.inj hnames).1]
        | cons other before =>
          obtain rfl := (List.cons.inj hnames).1
          exact absurd hrefuses (hbefore first List.mem_cons_self)
    · have hmap : (ofNames schema names).map (r :: ·) = .error (name, problem) ↔
          ofNames schema names = .error (name, problem) := by
        rcases ofNames schema names with _ | _ <;> simp [Except.map]
      rw [hok]
      simp only [hmap, ih]
      refine and_congr_right fun _ => ⟨?_, ?_⟩
      · rintro ⟨before, after, rfl, hbefore, hname⟩
        exact ⟨first :: before, after, rfl, List.forall_mem_cons.2 ⟨hfit, hbefore⟩, hname⟩
      · rintro ⟨before, after, hnames, hbefore, hname⟩
        cases before with
        | nil =>
          obtain rfl := (List.cons.inj hnames).1
          exact absurd hname hfit
        | cons other before =>
          exact ⟨before, after, (List.cons.inj hnames).2, (List.forall_mem_cons.1 hbefore).2, hname⟩

/-- Resources can be made of names if none of them is refused. -/
theorem exists_ofNames_iff :
    (∃ rs, ofNames schema names = .ok rs) ↔ ∀ name ∈ names, ¬schema.Refuses name := by
  induction names with
  | nil => simp [ofNames]
  | cons first names ih =>
    rw [ofNames, List.forall_mem_cons, ← ih]
    obtain ⟨hrefuses, herror⟩ | ⟨hfit, r, hok⟩ := ofName_cases schema first
    · simp [herror, hrefuses]
    · rw [hok]
      rcases ofNames schema names with _ | rs <;> simp [Except.map, hfit]

end Resource

/-- The names with the resource role are not refused. -/
theorem Schema.WellFormed.not_refuses {s : Schema} (h : s.WellFormed) {name : String}
    (hname : name ∈ s.roles.resources) : ¬s.Refuses name := by
  have hdeclared : name ∈ Keyed.keys s.interfaces ∨ name ∈ Keyed.keys s.types :=
    @h.declared .resource name hname
  rintro (⟨hinterface, htype⟩ | rfl)
  · exact hdeclared.elim hinterface htype
  · obtain hkey | hkey := hdeclared
    · obtain ⟨entry, hentry, hempty⟩ := List.mem_map.1 hkey
      exact (h.interfaces.own hentry).2 hempty
    · obtain ⟨entry, hentry, hempty⟩ := List.mem_map.1 hkey
      exact (h.types.own hentry).2 hempty

namespace Service

variable {name : String} {schema : Schema}

theorem ofSchema_error_iff {f : Failure} : ofSchema name schema = .error f ↔
    ∃ before resource after, schema.roles.resources = before ++ resource :: after ∧
      (∀ other ∈ before, ¬schema.Refuses other) ∧ schema.Refuses resource ∧
      f = mappingFailure name resource (schema.problemWith resource) := by
  rw [ofSchema]
  constructor
  · intro h
    split at h
    · rename_i resource problem hnames
      obtain ⟨rfl, before, after, hsplit, hbefore, hrefuses⟩ := Resource.ofNames_error_iff.1 hnames
      exact ⟨before, resource, after, hsplit, hbefore, hrefuses, (Except.error.inj h).symm⟩
    · cases h
  · rintro ⟨before, resource, after, hsplit, hbefore, hrefuses, rfl⟩
    rw [Resource.ofNames_error_iff.2 ⟨rfl, before, after, hsplit, hbefore, hrefuses⟩]

theorem exists_ofSchema_iff : (∃ service, ofSchema name schema = .ok service) ↔
    ∀ resource ∈ schema.roles.resources, ¬schema.Refuses resource := by
  rw [← Resource.exists_ofNames_iff, ofSchema]
  rcases Resource.ofNames schema schema.roles.resources with ⟨_, _⟩ | rs <;> simp

/-- **When a schema has a service.**  There is none if and only if a name with the resource role is
refused, and the failure is about the first such name.  Otherwise a service has one resource for
each of these names, in order, each with its route segment and its five operations.  Every schema
of a tree has a service, and so has that of a text. -/
theorem ofSchema_exact (name : String) (schema : Schema) :
    ((∃ f, ofSchema name schema = .error f) ↔
      ∃ resource ∈ schema.roles.resources, schema.Refuses resource) ∧
    (∀ f, ofSchema name schema = .error f →
      ∃ before resource after, schema.roles.resources = before ++ resource :: after ∧
        (∀ other ∈ before, ¬schema.Refuses other) ∧ schema.Refuses resource ∧
        f.code = .mapper ∧ f.detail? "service" = some (.str name) ∧
        f.causeTexts =
          ["resource `" ++ resource ++ "`", (schema.problemWith resource).message] ∧
        f.message = "mapping service `" ++ name ++ "` failed: " ++
          ("resource `" ++ resource ++ "`") ++ ": " ++ (schema.problemWith resource).message) ∧
    (∀ service, ofSchema name schema = .ok service →
      service.resources.map Resource.name = schema.roles.resources ∧
        ∀ r ∈ service.resources, r.pluralPath = Naming.routeSegment r.name ∧ r.pluralPath ≠ "" ∧
          r.operations = Operation.allOf r.name r.pluralPath ∧
          r.operations.map Operation.kind = [.get, .list, .create, .update, .delete]) ∧
    (schema.IsOfTree → ∃ service, ofSchema name schema = .ok service) ∧
    ∀ source path x, Schema.ofSource source path = .ok x →
      ∃ service, ofSchema name x.schema = .ok service := by
  have hserved {s : Schema} (hs : s.IsOfTree) : ∃ service, ofSchema name s = .ok service :=
    exists_ofSchema_iff.2 fun resource hmem => hs.wellFormed.not_refuses hmem
  refine ⟨?_, fun f hf => ?_, fun service hservice => ?_, hserved,
    fun source path x hx => hserved (Schema.isOfTree_of_ofSource hx)⟩
  · constructor
    · rintro ⟨f, hf⟩
      obtain ⟨before, resource, after, hsplit, -, hrefuses, -⟩ := ofSchema_error_iff.1 hf
      exact ⟨resource, by simp [hsplit], hrefuses⟩
    · rintro ⟨resource, hmem, hrefuses⟩
      rcases hresult : ofSchema name schema with f | service
      · exact ⟨f, rfl⟩
      · exact absurd hrefuses (exists_ofSchema_iff.1 ⟨service, hresult⟩ resource hmem)
  · obtain ⟨before, resource, after, hsplit, hbefore, hrefuses, rfl⟩ := ofSchema_error_iff.1 hf
    exact ⟨before, resource, after, hsplit, hbefore, hrefuses, rfl, rfl, rfl, rfl⟩
  · obtain ⟨hrouted, hnames⟩ := isRouted_ofSchema hservice
    refine ⟨hnames, fun r hr => ⟨(hrouted r hr).segment, (hrouted r hr).nonempty,
      (hrouted r hr).operations, ?_⟩⟩
    rw [(hrouted r hr).operations]
    rfl

/-- A schema with a resource that has no name, before one that is not declared. -/
def partlyDeclared : Schema :=
  .ofDeclarations "1" [("Note", ⟨"Note", none, [], []⟩), ("", ⟨"", none, [], []⟩)] [] []
    { resources := ["Note", "", "Tag"] }

/-- A resource of a text. -/
def noteSource : String := "/** @resource */ export interface Note \x7b id: string; \x7d"

theorem ofSchema_exact_partlyDeclared :
    (∃ f, ofSchema "notes" partlyDeclared = .error f ∧ f.code = .mapper ∧
      f.detail? "service" = some (.str "notes")) ∧
    ∃ x service, Schema.ofSource noteSource "note.ts" = .ok x ∧
      ofSchema "notes" x.schema = .ok service ∧
      service.resources.map Resource.name = ["Note"] ∧
      ∀ r ∈ service.resources, r.pluralPath ≠ "" := by
  constructor
  · obtain ⟨hiff, herror, -⟩ := ofSchema_exact "notes" partlyDeclared
    obtain ⟨f, hf⟩ := hiff.2 ⟨"", by decide, by decide⟩
    obtain ⟨-, -, -, -, -, -, hcode, hservice, -⟩ := herror f hf
    exact ⟨f, hf, hcode, hservice⟩
  · have hkernel : (Schema.ofSource noteSource "note.ts").toOption.any (fun x =>
        x.schema.roles.resources == ["Note"]) = true := by decide +kernel
    obtain ⟨x, hx, hresources⟩ := exists_ok_of_any hkernel
    obtain ⟨-, -, hok, -, hsource⟩ := ofSchema_exact "notes" x.schema
    obtain ⟨service, hservice⟩ := hsource noteSource "note.ts" x hx
    obtain ⟨hnames, hrouted⟩ := hok service hservice
    exact ⟨x, service, hx, hservice, hnames.trans (beq_iff_eq.1 hresources),
      fun r hr => (hrouted r hr).2.1⟩

end Service

end ServiceScaffold
