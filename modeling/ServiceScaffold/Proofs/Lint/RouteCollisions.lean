import Mathlib.Data.List.Induction
import Mathlib.Data.List.Nodup
import ServiceScaffold.Proofs.Keyed
import ServiceScaffold.Proofs.Lint.Checks
import ServiceScaffold.Proofs.Results
import ServiceScaffold.Proofs.Service.Routes

/-!
# Collisions of routes

The lint groups resources by their segments alone.

* `Lint.lookup_byRoute` : the group of a segment names its resources in the order of the service;
* `Lint.routeCollisions_eq` : the collisions are the segments that several resources share, in
  order, each once;
* `Lint.hasErrors_iff` : a schema without errors is one whose segments differ;
* `Lint.issues_exact` : **the lint is exact**: it finds an error if and only if two requests of the
  service are the same.
-/

namespace ServiceScaffold

open Keyed (lookup keys Sorted)

/-- The names of the resources with a segment, in order. -/
def namesAt (resources : List Resource) (path : String) : List String :=
  (resources.filter (·.pluralPath == path)).map Resource.name

/-- The finding is a collision of routes. -/
def Finding.isCollision : Finding → Bool
  | .routeCollision _ _ => true
  | _ => false

namespace Lint

variable {resources : List Resource} {path : String}

/-! ### Groups -/

theorem byRoute_append (resources : List Resource) (r : Resource) :
    byRoute (resources ++ [r]) = Keyed.insertSorted
      (r.pluralPath, (lookup r.pluralPath (byRoute resources)).getD [] ++ [r.name])
      (byRoute resources) := by
  simp [byRoute, List.foldl_append]

theorem namesAt_append (resources : List Resource) (r : Resource) (path : String) :
    namesAt (resources ++ [r]) path =
      namesAt resources path ++ if path = r.pluralPath then [r.name] else [] := by
  by_cases h : path = r.pluralPath
  · simp [namesAt, h]
  · simp [namesAt, h, Ne.symm h]

/-- The group of a segment names its resources in the order of the service. -/
theorem lookup_byRoute (resources : List Resource) (path : String) :
    lookup path (byRoute resources) =
      if namesAt resources path = [] then none else some (namesAt resources path) := by
  induction resources using List.reverseRecOn with
  | nil => rfl
  | append_singleton resources r ih =>
    -- the fold adds a resource at the end of its group, so that the induction goes from the end
    rw [byRoute_append, Keyed.lookup_insertSorted, namesAt_append]
    by_cases h : path = r.pluralPath
    · subst h
      rw [ih]
      split_ifs <;> simp_all
    · simp [h, ih]

theorem sorted_byRoute (resources : List Resource) : Sorted (byRoute resources) := by
  induction resources using List.reverseRecOn with
  | nil => exact List.Pairwise.nil
  | append_singleton resources r ih =>
    rw [byRoute_append]
    exact Keyed.sorted_insertSorted ih

theorem mem_byRoute {names : List String} : (path, names) ∈ byRoute resources ↔
    names = namesAt resources path ∧ names ≠ [] := by
  constructor
  · intro hmem
    have h := Keyed.lookup_of_mem (sorted_byRoute resources).nodup hmem
    rw [lookup_byRoute] at h
    split_ifs at h with hnil
    obtain rfl := Option.some.inj h
    exact ⟨rfl, hnil⟩
  · rintro ⟨rfl, hnil⟩
    exact Keyed.mem_of_lookup (by rw [lookup_byRoute, if_neg hnil])

/-! ### Collisions -/

/-- The segments that several resources share, in order. -/
def sharedPaths (resources : List Resource) : List String :=
  keys ((byRoute resources).filter fun (_, names) => 1 < names.length)

theorem mem_sharedPaths : path ∈ sharedPaths resources ↔ 1 < (namesAt resources path).length := by
  simp only [sharedPaths, keys, List.mem_map, List.mem_filter, decide_eq_true_eq]
  constructor
  · rintro ⟨⟨path, names⟩, ⟨hmem, hlen⟩, rfl⟩
    obtain ⟨rfl, -⟩ := mem_byRoute.1 hmem
    exact hlen
  · intro hlen
    refine ⟨(path, namesAt resources path), ⟨mem_byRoute.2 ⟨rfl, ?_⟩, hlen⟩, rfl⟩
    rintro hnil
    simp [hnil] at hlen

theorem pairwise_sharedPaths (resources : List Resource) :
    (sharedPaths resources).Pairwise (· < ·) :=
  (sorted_byRoute resources).sublist (List.filter_sublist.map Prod.fst)

/-- The collisions are the shared segments, each once and in order. -/
theorem routeCollisions_eq (service : Service) :
    routeCollisions service = (sharedPaths service.resources).map fun path =>
      .routeCollision path (namesAt service.resources path) := by
  rw [routeCollisions, sharedPaths, keys, List.map_map]
  refine List.map_congr_left fun x hx => ?_
  obtain ⟨path, names⟩ := x
  obtain ⟨rfl, -⟩ := mem_byRoute.1 (List.mem_filter.1 hx).1
  rfl

/-- No segment is shared if and only if the segments differ. -/
theorem sharedPaths_eq_nil : sharedPaths resources = [] ↔
    (resources.map Resource.pluralPath).Nodup := by
  have hlen : ∀ path, (namesAt resources path).length =
      (resources.map Resource.pluralPath).count path := fun path => by
    rw [namesAt, List.length_map, List.count_eq_countP, List.countP_map,
      List.countP_eq_length_filter]
    rfl
  rw [List.nodup_iff_count_le_one, List.eq_nil_iff_forall_not_mem]
  refine forall_congr' fun path => ?_
  rw [mem_sharedPaths, hlen, Nat.not_lt]

/-! ### Issues -/

theorem kind_issue (f : Finding) : (f.issue.kind == "route_collision") = f.isCollision := by
  cases f <;> rfl

theorem severity_issue (f : Finding) : (f.issue.severity == .error) = f.isCollision := by
  cases f <;> rfl

/-- The other checks find no collisions. -/
theorem filter_findings (schema : Schema) (service : Service) :
    (findings schema service).filter Finding.isCollision = routeCollisions service := by
  have hfound : (findings schema service).filter (·.issue.kind == "route_collision") =
      routeCollisions service := findings_of_kind (by simp [checks])
  rw [← hfound]
  exact List.filter_congr fun f _ => (kind_issue f).symm

theorem filter_issues (schema : Schema) (service : Service) :
    (issues schema service).filter (·.kind == "route_collision") =
      (sharedPaths service.resources).map fun path =>
        (Finding.routeCollision path (namesAt service.resources path)).issue := by
  have hkind : ((fun i : Issue => i.kind == "route_collision") ∘ Finding.issue) =
      Finding.isCollision := funext kind_issue
  rw [issues, List.filter_map, hkind, filter_findings, routeCollisions_eq, List.map_map]
  rfl

/-- A schema has no errors if and only if the segments of its resources differ. -/
theorem hasErrors_iff (schema : Schema) (service : Service) :
    hasErrors (issues schema service) = false ↔
      (service.resources.map Resource.pluralPath).Nodup := by
  have hseverity : ((fun i : Issue => i.severity == .error) ∘ Finding.issue) =
      Finding.isCollision := funext severity_issue
  rw [← sharedPaths_eq_nil, hasErrors, issues, List.any_map, hseverity, ← Bool.not_eq_true,
    List.any_eq_true]
  have hfilter := filter_findings schema service
  rw [routeCollisions_eq] at hfilter
  constructor
  · intro hno
    rw [← List.map_eq_nil_iff, ← hfilter, List.filter_eq_nil_iff]
    exact fun f hf hcol => hno ⟨f, hf, hcol⟩
  · rintro hnil ⟨f, hf, hcol⟩
    rw [hnil, List.map_nil, List.filter_eq_nil_iff] at hfilter
    exact hfilter f hf hcol

/-- The resources of a service without lint errors are told apart by their segments. -/
theorem resources_of_hasErrors {schema : Schema} {service : Service}
    (h : hasErrors (issues schema service) = false) :
    service.resources.Nodup ∧ ∀ r ∈ service.resources, ∀ r' ∈ service.resources,
      r.pluralPath = r'.pluralPath → r = r' := by
  have hnodup := (hasErrors_iff schema service).1 h
  exact ⟨hnodup.of_map _, fun r hr r' hr' => List.inj_on_of_nodup_map hnodup hr hr'⟩

/-- **The lint of routes is exact.**  It finds an error if and only if two requests of the service
are the same, and it reports each shared segment once, in order, with its resources in the order of
the service; no collection of a resource is an item of another. -/
theorem issues_exact {name : String} {schema : Schema} {service : Service}
    (h : Service.ofSchema name schema = .ok service) :
    (hasErrors (issues schema service) = false ↔ service.requests.Nodup) ∧
    (∃ paths : List String, paths.Pairwise (· < ·) ∧
      (∀ path, path ∈ paths ↔ 2 ≤ (namesAt service.resources path).length) ∧
      (issues schema service).filter (·.kind == "route_collision") = paths.map fun path =>
        (Finding.routeCollision path (namesAt service.resources path)).issue) ∧
    ∀ r ∈ service.resources, ∀ r' ∈ service.resources, ∀ o ∈ r.operations, ∀ o' ∈ r'.operations,
      o.kind.onItem = false → o'.kind.onItem = true → o.route ≠ o'.route := by
  obtain ⟨hrouted, -⟩ := Service.isRouted_ofSchema h
  refine ⟨?_, ⟨sharedPaths service.resources, pairwise_sharedPaths _, fun _ => mem_sharedPaths,
    filter_issues schema service⟩, ?_⟩
  · rw [hasErrors_iff, Service.nodup_requests_iff hrouted]
  · intro r hr r' hr' o ho o' ho' hcollection hitem
    obtain ⟨k, rfl⟩ := (hrouted r hr).mem_operations.1 ho
    obtain ⟨k', rfl⟩ := (hrouted r' hr').mem_operations.1 ho'
    exact (hrouted r hr).route_ne hcollection hitem r'.pluralPath

/-- Two resources whose names differ in the case of one letter. -/
def twoSpellings : Schema :=
  Schema.ofDeclarations "1"
    [("UserID", ⟨"UserID", none, [], []⟩), ("UserId", ⟨"UserId", none, [], []⟩)] [] []
    { resources := ["UserID", "UserId"] }

theorem issues_exact_twoSpellings : ∃ service, Service.ofSchema "users" twoSpellings = .ok service ∧
    hasErrors (issues twoSpellings service) = true ∧ ¬service.requests.Nodup := by
  have hkernel : ((Service.ofSchema "users" twoSpellings).toOption.any fun service =>
      hasErrors (issues twoSpellings service)) = true := by decide +kernel
  obtain ⟨service, h, herr⟩ := exists_ok_of_any hkernel
  refine ⟨service, h, herr, fun hnodup => ?_⟩
  simp [(issues_exact h).1.2 hnodup] at herr

end Lint

end ServiceScaffold
