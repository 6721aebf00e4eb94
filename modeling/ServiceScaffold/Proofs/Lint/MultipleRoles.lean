import Mathlib.Data.Finset.Card
import Mathlib.Data.List.Induction
import Mathlib.Data.List.Nodup
import Mathlib.Tactic.SplitIfs
import ServiceScaffold.Proofs.Lint.Checks

/-!
# Names with several roles

The lint goes through the names of all roles, role after role, and takes each name where it first
occurs.  A list of a role may name a type twice; that is no second role.

* `Lint.mem_firstOccurrences`, `Lint.pairwise_firstOccurrences` : the names that are gone through
  are those of the lists, each once, in the order in which they first occur;
* `RoleLists.mem_rolesOf` : the roles of a name are those whose lists have it;
* `RoleLists.one_lt_length_rolesOf` : a name has several roles if two lists have it;
* `Lint.multipleRoles_exact` : **there is one issue for each name that two lists have**, and none
  for other names.
-/

namespace ServiceScaffold

/-! ### First occurrences -/

namespace Lint

variable {names : List String} {name : String}

theorem firstOccurrences_append (names : List String) (name : String) :
    firstOccurrences (names ++ [name]) =
      if (firstOccurrences names).contains name then firstOccurrences names
      else firstOccurrences names ++ [name] := by
  simp [firstOccurrences, List.foldl_append]

@[simp] theorem mem_firstOccurrences : name ∈ firstOccurrences names ↔ name ∈ names := by
  induction names using List.reverseRecOn with
  | nil => rfl
  | append_singleton names last ih =>
    rw [firstOccurrences_append, List.mem_append, List.mem_singleton, ← ih]
    split_ifs with hseen
    · refine ⟨.inl, fun h => h.elim id ?_⟩
      rintro rfl
      exact List.contains_iff_mem.1 hseen
    · simp

/-- The names stand in the order in which they first occur. -/
theorem pairwise_firstOccurrences (names : List String) :
    (firstOccurrences names).Pairwise fun a b => names.idxOf a < names.idxOf b := by
  induction names using List.reverseRecOn with
  | nil => exact .nil
  | append_singleton names last ih =>
    -- one more name at the end does not change where the others first occur
    have hold : (firstOccurrences names).Pairwise fun a b =>
        (names ++ [last]).idxOf a < (names ++ [last]).idxOf b := by
      refine ih.imp_of_mem fun {a b} ha hb hlt => ?_
      rwa [List.idxOf_append_of_mem (mem_firstOccurrences.1 ha),
        List.idxOf_append_of_mem (mem_firstOccurrences.1 hb)]
    rw [firstOccurrences_append]
    split_ifs with hseen
    · exact hold
    · refine List.pairwise_append.2 ⟨hold, List.pairwise_singleton _ _, fun a ha b hb => ?_⟩
      obtain rfl := List.mem_singleton.1 hb
      have hnew : b ∉ names := fun hmem =>
        hseen (List.contains_iff_mem.2 (mem_firstOccurrences.2 hmem))
      have hmem := mem_firstOccurrences.1 ha
      rw [List.idxOf_append_of_mem hmem, List.idxOf_append_of_notMem hnew]
      exact Nat.lt_add_right _ (List.idxOf_lt_length_of_mem hmem)

end Lint

/-! ### The roles of a name -/

namespace RoleLists

variable {t : RoleLists} {role : Role} {name : String}

theorem mem_rolesOf : role ∈ t.rolesOf name ↔ name ∈ t.list role := by
  have hall : role ∈ Role.all := by cases role <;> decide
  simp [rolesOf, contains, hall]

/-- The roles of a name stand in the order of roles, each once. -/
theorem rolesOf_sublist (t : RoleLists) (name : String) : (t.rolesOf name).Sublist Role.all :=
  List.filter_sublist

theorem one_lt_length_rolesOf : 1 < (t.rolesOf name).length ↔
    ∃ role other, role ≠ other ∧ name ∈ t.list role ∧ name ∈ t.list other := by
  have hdistinct : (t.rolesOf name).Nodup := (t.rolesOf_sublist name).nodup (by decide)
  rw [← List.toFinset_card_of_nodup hdistinct, Finset.one_lt_card]
  simp only [List.mem_toFinset, mem_rolesOf]
  constructor
  · rintro ⟨role, hrole, other, hother, hne⟩
    exact ⟨role, other, hne, hrole, hother⟩
  · rintro ⟨role, other, hne, hrole, hother⟩
    exact ⟨role, hrole, other, hother, hne⟩

theorem allNames_eq (t : RoleLists) :
    t.allNames = t.resources ++ t.tools ++ t.prompts ++ t.capabilities := by
  simp [allNames, Role.all, list]

end RoleLists

/-! ### Issues -/

namespace Lint

/-- The names with several roles, in the order in which they first occur. -/
def ambiguousNames (roles : RoleLists) : List String :=
  (firstOccurrences roles.allNames).filter fun name => 1 < (roles.rolesOf name).length

theorem multipleRoles_eq (roles : RoleLists) : multipleRoles roles =
    (ambiguousNames roles).map fun name => .multipleRoles name (roles.rolesOf name) := by
  rw [multipleRoles, ambiguousNames, ← List.filterMap_eq_map, List.filterMap_filter]
  exact List.filterMap_congr fun name _ => by simp

theorem mem_ambiguousNames {roles : RoleLists} {name : String} : name ∈ ambiguousNames roles ↔
    ∃ role other, role ≠ other ∧ name ∈ roles.list role ∧ name ∈ roles.list other := by
  rw [ambiguousNames, List.mem_filter, mem_firstOccurrences, decide_eq_true_iff,
    RoleLists.one_lt_length_rolesOf]
  refine ⟨And.right, fun h => ⟨?_, h⟩⟩
  obtain ⟨role, -, -, hmem, -⟩ := h
  exact List.mem_flatMap.2 ⟨role, by cases role <;> decide, hmem⟩

/-- **The lint reports each name with several roles once.**  The issues about roles are those of
some names, one issue for each: of the names that two lists of roles have, and no others.  They
stand in the order in which they first occur in the lists, read one after the other.  The message
names the roles whose lists have the name, each once and in the order of roles. -/
theorem multipleRoles_exact (schema : Schema) (service : Service) : ∃ names : List String,
    (issues schema service).filter (·.kind == "multiple_roles") = names.map (fun name =>
      { location := "declaration:" ++ name
        severity := .warning
        kind := "multiple_roles"
        message := "`" ++ name ++ "` is classified as " ++
          joinTexts " and " ((schema.roles.rolesOf name).map Role.tag)
        suggestion := some "Keep one role tag or rename the declaration" }) ∧
    names.Nodup ∧
    (∀ name, name ∈ names ↔ ∃ role other, role ≠ other ∧
      name ∈ schema.roles.list role ∧ name ∈ schema.roles.list other) ∧
    names.Pairwise (fun a b =>
      (schema.roles.resources ++ schema.roles.tools ++ schema.roles.prompts ++
        schema.roles.capabilities).idxOf a <
      (schema.roles.resources ++ schema.roles.tools ++ schema.roles.prompts ++
        schema.roles.capabilities).idxOf b) ∧
    ∀ name, (schema.roles.rolesOf name).Sublist [.resource, .tool, .prompt, .capability] ∧
      ∀ role, role ∈ schema.roles.rolesOf name ↔ name ∈ schema.roles.list role := by
  have horder : (ambiguousNames schema.roles).Pairwise fun a b =>
      schema.roles.allNames.idxOf a < schema.roles.allNames.idxOf b :=
    (pairwise_firstOccurrences schema.roles.allNames).filter _
  refine ⟨ambiguousNames schema.roles, ?_, ?_, fun name => mem_ambiguousNames, ?_,
    fun name => ⟨schema.roles.rolesOf_sublist name, fun role => RoleLists.mem_rolesOf⟩⟩
  · have hfound : (findings schema service).filter (·.issue.kind == "multiple_roles") =
        multipleRoles schema.roles := findings_of_kind (by simp [checks])
    rw [issues, List.filter_map]
    change ((findings schema service).filter (·.issue.kind == "multiple_roles")).map _ = _
    rw [hfound, multipleRoles_eq, List.map_map]
    rfl
  · exact horder.imp fun hlt => by
      rintro rfl
      exact Nat.lt_irrefl _ hlt
  · rwa [← RoleLists.allNames_eq]

end Lint

end ServiceScaffold
