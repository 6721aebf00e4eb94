import ServiceScaffold.Proofs.Lint.RouteCollisions
import ServiceScaffold.Proofs.Naming.Plural
import ServiceScaffold.Proofs.Results
import ServiceScaffold.Schema.Extraction

/-!
# Names of operations

A generated server finds the handler of a call by the name of the operation alone.  The first
letter of that name tells the kind of the operation, so that two names can only be the same if both
are lists and their resources have one plural.

* `OperationKind.operationName_eq_iff` : when two operations have one name;
* `Service.nodup_operationNames_iff` : the names of a service differ if and only if the plurals of
  its resources do;
* `Service.operationNames_unambiguous_iff` : **for a service without lint errors**, the names differ
  if and only if no two resources are plural twins, and none is a name of the protocol itself;
* `Service.operationNames_clash` : the lint does not see such twins.
-/

namespace ServiceScaffold

open Naming (PluralTwins plural)

/-! ### One name -/

namespace OperationKind

theorem head?_operationName (k : OperationKind) (resource : String) :
    (k.operationName resource).toList.head? = k.text.toList.head? := by
  cases k <;> simp [operationName, text, String.toList_append]

theorem eq_of_head?_text {k k' : OperationKind}
    (h : k.text.toList.head? = k'.text.toList.head?) : k = k' := by
  cases k <;> cases k' <;> first | rfl | exact absurd h (by decide)

/-- Two operations have one name if they are of one kind and about one resource, or about one plural
if they are lists. -/
theorem operationName_eq_iff {k k' : OperationKind} {a b : String} :
    k.operationName a = k'.operationName b ↔
      k = k' ∧ if k = .list then plural a = plural b else a = b := by
  constructor
  · intro h
    obtain rfl : k = k' := by
      refine eq_of_head?_text ?_
      rw [← head?_operationName k a, h, head?_operationName]
    refine ⟨rfl, ?_⟩
    cases k <;> simpa [operationName] using h
  · rintro ⟨rfl, h⟩
    cases k <;> simp_all [operationName]

/-- No operation has a name that starts with another letter than its kind. -/
theorem operationName_ne {k : OperationKind} {resource name : String}
    (h : ∀ k : OperationKind, k.text.toList.head? ≠ name.toList.head?) :
    k.operationName resource ≠ name := by
  rintro rfl
  exact h k (head?_operationName k resource).symm

theorem operationName_ne_initialize (k : OperationKind) (resource : String) :
    k.operationName resource ≠ "initialize" :=
  operationName_ne fun k => by cases k <;> decide

theorem operationName_ne_ping (k : OperationKind) (resource : String) :
    k.operationName resource ≠ "ping" :=
  operationName_ne fun k => by cases k <;> decide

end OperationKind

/-! ### All names -/

/-- The names of all operations of a service, which are the keys of its handlers. -/
def Service.operationNames (service : Service) : List String :=
  service.resources.flatMap fun r => r.operations.map Operation.name

namespace Resource.IsRouted

variable {r r' : Resource}

theorem mem_names (h : r.IsRouted) {name : String} : name ∈ r.operations.map Operation.name ↔
    ∃ k : OperationKind, name = k.operationName r.name := by
  constructor
  · intro hmem
    obtain ⟨o, ho, rfl⟩ := List.mem_map.1 hmem
    obtain ⟨k, rfl⟩ := h.mem_operations.1 ho
    exact ⟨k, rfl⟩
  · rintro ⟨k, rfl⟩
    exact List.mem_map.2 ⟨_, h.mem_operations.2 ⟨k, rfl⟩, rfl⟩

theorem nodup_names (h : r.IsRouted) : (r.operations.map Operation.name).Nodup := by
  rw [h.operations, Operation.allOf, List.map_map]
  have hall : OperationKind.all.Nodup := by decide
  exact hall.map fun k k' hname => (OperationKind.operationName_eq_iff.1 hname).1

theorem disjoint_names_iff (h : r.IsRouted) (h' : r'.IsRouted) :
    List.Disjoint (r.operations.map Operation.name) (r'.operations.map Operation.name) ↔
      r.name ≠ r'.name ∧ plural r.name ≠ plural r'.name := by
  have hdisj : List.Disjoint (r.operations.map Operation.name) (r'.operations.map Operation.name) ↔
      ∀ k k' : OperationKind, k.operationName r.name ≠ k'.operationName r'.name := by
    constructor
    · intro hdisj k k' heq
      exact hdisj (h.mem_names.2 ⟨k, rfl⟩) (heq ▸ h'.mem_names.2 ⟨k', rfl⟩)
    · intro hne name hmem hmem'
      obtain ⟨k, rfl⟩ := h.mem_names.1 hmem
      obtain ⟨k', heq⟩ := h'.mem_names.1 hmem'
      exact hne k k' heq
  rw [hdisj]
  constructor
  · intro hne
    refine ⟨fun hname => hne .get .get ?_, fun hplural => hne .list .list ?_⟩
    · exact OperationKind.operationName_eq_iff.2 ⟨rfl, hname⟩
    · exact OperationKind.operationName_eq_iff.2 ⟨rfl, hplural⟩
  · rintro ⟨hname, hplural⟩ k k' heq
    obtain ⟨-, hsame⟩ := OperationKind.operationName_eq_iff.1 heq
    split_ifs at hsame
    · exact hplural hsame
    · exact hname hsame

end Resource.IsRouted

/-- The names of a service differ if and only if those of its resources do, and their plurals. -/
theorem Service.nodup_operationNames_iff {service : Service}
    (h : ∀ r ∈ service.resources, r.IsRouted) :
    service.operationNames.Nodup ↔ (service.resources.map Resource.name).Nodup ∧
      (service.resources.map fun r => plural r.name).Nodup := by
  rw [operationNames, List.nodup_flatMap, List.nodup_iff_pairwise_ne, List.nodup_iff_pairwise_ne,
    List.pairwise_map, List.pairwise_map, ← List.pairwise_and_iff]
  constructor
  · rintro ⟨-, hpair⟩
    exact hpair.imp_of_mem fun hr hr' hdisj =>
      ((h _ hr).disjoint_names_iff (h _ hr')).1 hdisj
  · intro hpair
    exact ⟨fun r hr => (h r hr).nodup_names, hpair.imp_of_mem fun hr hr' hne =>
      ((h _ hr).disjoint_names_iff (h _ hr')).2 hne⟩

/-- **The names of the operations of a service without lint errors.**  They differ if and only if no
two resources are plural twins; none of them is a name of the protocol itself. -/
theorem Service.operationNames_unambiguous_iff {name : String} {schema : Schema}
    {service : Service} (h : Service.ofSchema name schema = .ok service)
    (hlint : Lint.hasErrors (Lint.issues schema service) = false) :
    (service.operationNames.Nodup ↔ ∀ r ∈ service.resources, ∀ r' ∈ service.resources,
      ¬PluralTwins r.name.toList r'.name.toList) ∧
    ∀ operation ∈ service.operationNames, operation ≠ "initialize" ∧ operation ≠ "ping" := by
  obtain ⟨hrouted, -⟩ := Service.isRouted_ofSchema h
  obtain ⟨hnodup, hsegment⟩ := Lint.resources_of_hasErrors hlint
  refine ⟨?_, ?_⟩
  · rw [Service.nodup_operationNames_iff hrouted, List.nodup_map_iff_inj_on hnodup,
      List.nodup_map_iff_inj_on hnodup]
    constructor
    · rintro ⟨-, hplural⟩ r hr r' hr' htwin
      have heq : plural r.name = plural r'.name := by rw [plural, plural, htwin.pluralChars_eq]
      exact htwin.ne (by rw [hplural r hr r' hr' heq])
    · intro hno
      refine ⟨fun r hr r' hr' hname => hsegment r hr r' hr' ?_, fun r hr r' hr' hplural => ?_⟩
      · rw [(hrouted r hr).segment, (hrouted r' hr').segment, hname]
      -- one plural and two segments would make twins
      · by_contra hne
        have hroute := mt (hsegment r hr r' hr') hne
        rw [(hrouted r hr).segment, (hrouted r' hr').segment] at hroute
        obtain htwin | htwin := (Naming.plural_eq_iff hroute).1 hplural
        · exact hno r hr r' hr' htwin
        · exact hno r' hr' r hr htwin
  · intro operation hmem
    obtain ⟨r, hr, hname⟩ := List.mem_flatMap.1 hmem
    obtain ⟨k, rfl⟩ := (hrouted r hr).mem_names.1 hname
    exact ⟨k.operationName_ne_initialize r.name, k.operationName_ne_ping r.name⟩

/-- A word and the same word with a capital at its end, beside a name of another plural. -/
def threeEndings : Schema :=
  Schema.ofDeclarations "1" [] [("Match", ⟨"Match", "1", none⟩), ("MatcH", ⟨"MatcH", "1", none⟩),
    ("Axis", ⟨"Axis", "1", none⟩)] [] { resources := ["Match", "MatcH", "Axis"] }

theorem Service.operationNames_unambiguous_threeEndings : ∃ service,
    Service.ofSchema "endings" threeEndings = .ok service ∧
    Lint.hasErrors (Lint.issues threeEndings service) = false ∧ service.operationNames.Nodup := by
  have hkernel : (Service.ofSchema "endings" threeEndings).toOption.any (fun service =>
      !Lint.hasErrors (Lint.issues threeEndings service) &&
        service.resources.all fun r => service.resources.all fun r' =>
          !decide (PluralTwins r.name.toList r'.name.toList)) = true := by
    decide +kernel
  obtain ⟨service, h, hpassed⟩ := exists_ok_of_any hkernel
  simp only [Bool.and_eq_true, Bool.not_eq_true', List.all_eq_true, decide_eq_false_iff_not]
    at hpassed
  obtain ⟨hlint, hno⟩ := hpassed
  exact ⟨service, h, hlint, (Service.operationNames_unambiguous_iff h hlint).1.2 hno⟩

/-- Two resources with one plural, whose routes differ by a hyphen. -/
def twoCategories : String :=
  "/** @resource */ export type Category = 1; /** @resource */ export type CategorY = 1;"

/-- The lint does not see two operations of one name. -/
theorem Service.operationNames_clash : ∃ x service,
    Schema.ofSource twoCategories "schema.ts" = .ok x ∧
    Service.ofSchema "store" x.schema = .ok service ∧
    Lint.hasErrors (Lint.issues x.schema service) = false ∧ ¬service.operationNames.Nodup := by
  have hkernel : (Schema.ofSource twoCategories "schema.ts").toOption.any (fun x =>
      (Service.ofSchema "store" x.schema).toOption.any fun service =>
        !Lint.hasErrors (Lint.issues x.schema service) &&
          !decide service.operationNames.Nodup) = true := by
    have hletters : twoCategories.toList = _ := String.toList_ofList
    rw [Schema.ofSource, hletters]
    decide +kernel
  obtain ⟨x, hx, hmapped⟩ := exists_ok_of_any hkernel
  obtain ⟨service, hservice, hclash⟩ := exists_ok_of_any hmapped
  exact ⟨x, service, hx, hservice, by simpa using hclash⟩

end ServiceScaffold
