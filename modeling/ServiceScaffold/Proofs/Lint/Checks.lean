import Mathlib.Data.List.Basic
import ServiceScaffold.Lint

/-!
# Issues by kind

Every check of the lint reports issues of a kind of its own, so that what one check found can be
told from the kinds of the issues.

* `Lint.checks` : the checks, in order, each with the kind of its issues and what it found;
* `Lint.findings_of_kind` : **the findings of a kind are those of its check**, in order.
-/

namespace ServiceScaffold.Lint

/-- What each check found, under the kind of its issues. -/
def checks (schema : Schema) (service : Service) : List (String × List Finding) :=
  [("route_collision", routeCollisions service),
    ("multiple_roles", multipleRoles schema.roles),
    ("resource_without_fields", emptyResources service),
    ("missing_protocol_version", missingVersion schema),
    ("unresolved_extends", unresolvedParents schema),
    ("irregular_plural", irregularPlurals service)]

variable {schema : Schema} {service : Service} {kind : String} {found : List Finding}

theorem findings_eq_checks (schema : Schema) (service : Service) :
    findings schema service = (checks schema service).flatMap Prod.snd := by
  simp [findings, checks]

/-- The issues of a check have its kind. -/
theorem kind_of_mem_checks (h : (kind, found) ∈ checks schema service) :
    ∀ f ∈ found, f.issue.kind = kind := by
  simp only [checks, List.mem_cons, Prod.mk.injEq, List.not_mem_nil, or_false] at h
  intro f hf
  obtain ⟨rfl, rfl⟩ | ⟨rfl, rfl⟩ | ⟨rfl, rfl⟩ | ⟨rfl, rfl⟩ | ⟨rfl, rfl⟩ | ⟨rfl, rfl⟩ := h
  · obtain ⟨x, -, rfl⟩ := List.mem_map.1 hf
    rfl
  · obtain ⟨name, -, hname⟩ := List.mem_filterMap.1 hf
    simp only [Option.ite_none_right_eq_some, Option.some.injEq] at hname
    obtain ⟨-, rfl⟩ := hname
    rfl
  · obtain ⟨r, -, rfl⟩ := List.mem_map.1 hf
    rfl
  · unfold missingVersion at hf
    split at hf
    · obtain rfl := List.mem_singleton.1 hf
      rfl
    · simp at hf
  · obtain ⟨i, -, hi⟩ := List.mem_flatMap.1 hf
    obtain ⟨parent, -, rfl⟩ := List.mem_map.1 hi
    rfl
  · obtain ⟨r, -, hr⟩ := List.mem_filterMap.1 hf
    obtain ⟨noun, -, rfl⟩ := Option.map_eq_some_iff.1 hr
    rfl

/-- Of groups that are told apart by the kinds of their findings, a kind selects its own. -/
theorem filter_kind_flatMap {groups : List (String × List Finding)}
    (hdistinct : (groups.map Prod.fst).Nodup)
    (hkind : ∀ x ∈ groups, ∀ f ∈ x.2, f.issue.kind = x.1) (h : (kind, found) ∈ groups) :
    (groups.flatMap Prod.snd).filter (·.issue.kind == kind) = found := by
  induction groups with
  | nil => cases h
  | cons group groups ih =>
    obtain ⟨hnew, hdistinct⟩ := List.nodup_cons.1 hdistinct
    have hhere := hkind group List.mem_cons_self
    have hthere := fun x hx => hkind x (List.mem_cons_of_mem _ hx)
    rw [List.flatMap_cons, List.filter_append]
    obtain rfl | hrest := List.mem_cons.1 h
    · have hnone : (groups.flatMap Prod.snd).filter (·.issue.kind == kind) = [] := by
        rw [List.filter_eq_nil_iff]
        intro f hf
        obtain ⟨x, hx, hfx⟩ := List.mem_flatMap.1 hf
        simp only [hthere x hx f hfx, beq_iff_eq]
        rintro rfl
        exact hnew (List.mem_map.2 ⟨x, hx, rfl⟩)
      rw [hnone, List.append_nil, List.filter_eq_self]
      exact fun f hf => beq_iff_eq.2 (hhere f hf)
    · have hnone : group.2.filter (·.issue.kind == kind) = [] := by
        rw [List.filter_eq_nil_iff]
        intro f hf
        simp only [hhere f hf, beq_iff_eq]
        rintro rfl
        exact hnew (List.mem_map.2 ⟨_, hrest, rfl⟩)
      rw [hnone, List.nil_append, ih hdistinct hthere hrest]

/-- The findings of a kind are those of its check, in order. -/
theorem findings_of_kind (h : (kind, found) ∈ checks schema service) :
    (findings schema service).filter (·.issue.kind == kind) = found := by
  rw [findings_eq_checks]
  refine filter_kind_flatMap ?_ (fun x hx => kind_of_mem_checks hx) h
  change ["route_collision", "multiple_roles", "resource_without_fields",
    "missing_protocol_version", "unresolved_extends", "irregular_plural"].Nodup
  decide

end ServiceScaffold.Lint
