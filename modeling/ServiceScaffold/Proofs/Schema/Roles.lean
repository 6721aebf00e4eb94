import Mathlib.Data.List.Nodup
import Mathlib.Tactic.SplitIfs
import ServiceScaffold.Schema.Roles

/-!
# Lists of roles

Each role has its own list, and a name is only ever added to the end of one.

* `RoleLists.insertEach` : each of some names is given roles of its own;
* `RoleLists.list_insertEach` : **what a list is afterwards**: what it was, and behind it the names
  that were given the role and are new, each once, in the order in which they came first;
* `RoleLists.list_classify` : the same for the names that follow a convention;
* `RoleLists.mem_insertAll`, `RoleLists.mem_classify` : which names a list has afterwards;
* `RoleLists.Distinct` : no list names anything twice, which every addition keeps.
-/

namespace ServiceScaffold.RoleLists

variable {t : RoleLists} {role other : Role} {name n : String}

@[simp] theorem list_setList (t : RoleLists) (role : Role) (names : List String) (other : Role) :
    (t.setList role names).list other = if other = role then names else t.list other := by
  cases role <;> cases other <;> rfl

theorem list_insert (t : RoleLists) (role : Role) (name : String) (other : Role) :
    (t.insert role name).list other =
      if other = role ∧ name ∉ t.list role then t.list other ++ [name] else t.list other := by
  unfold insert contains
  by_cases hmem : name ∈ t.list role
  · simp [hmem]
  · by_cases ho : other = role
    · subst ho; simp [hmem]
    · simp [hmem, ho]

theorem list_insertAll (t : RoleLists) (roles : List Role) (name : String) (other : Role) :
    (t.insertAll roles name).list other =
      if other ∈ roles ∧ name ∉ t.list other then t.list other ++ [name] else t.list other := by
  induction roles generalizing t with
  | nil => simp [insertAll]
  | cons role roles ih =>
    have hfirst : t.insertAll (role :: roles) name = (t.insert role name).insertAll roles name := rfl
    rw [hfirst, ih, list_insert]
    by_cases ho : other = role
    · subst ho
      by_cases hmem : name ∈ t.list other <;> simp [hmem]
    · simp [ho]

/-! ### Several names -/

/-- Gives each name its roles. -/
def insertEach (t : RoleLists) (entries : List (String × List Role)) : RoleLists :=
  entries.foldl (fun t (name, roles) => t.insertAll roles name) t

/-- The names that are given a role. -/
def namesWith (role : Role) (entries : List (String × List Role)) : List String :=
  (entries.filter (role ∈ ·.2)).map Prod.fst

@[simp] theorem insertEach_append (t : RoleLists) (entries more : List (String × List Role)) :
    t.insertEach (entries ++ more) = (t.insertEach entries).insertEach more := List.foldl_append

/-- The names that were given the role stand behind those that had it before, each once, in the
order in which they came first. -/
theorem list_insertEach (t : RoleLists) (entries : List (String × List Role)) (role : Role) :
    (t.insertEach entries).list role =
      t.list role ++ ((namesWith role entries).filter (· ∉ t.list role)).eraseDups := by
  induction entries generalizing t with
  | nil => simp [insertEach, namesWith]
  | cons entry entries ih =>
    obtain ⟨name, roles⟩ := entry
    have hfirst : t.insertEach ((name, roles) :: entries) =
        (t.insertAll roles name).insertEach entries := rfl
    rw [hfirst, ih, list_insertAll]
    by_cases hrole : role ∈ roles
    · have hnames : namesWith role ((name, roles) :: entries) = name :: namesWith role entries := by
        simp [namesWith, hrole]
      rw [hnames]
      by_cases hmem : name ∈ t.list role
      · simp [hmem]
      -- a name that is new stands in the list from now on
      · have hnew : (namesWith role entries).filter (· ∉ t.list role ++ [name]) =
            ((namesWith role entries).filter (· ∉ t.list role)).filter (· != name) := by
          rw [List.filter_filter]
          exact List.filter_congr fun n _ => by simp [and_comm, bne, Bool.beq_eq_decide_eq]
        rw [if_pos ⟨hrole, hmem⟩, List.filter_cons_of_pos (by simpa using hmem),
          List.eraseDups_cons, hnew, List.append_assoc]
        rfl
    · have hnames : namesWith role ((name, roles) :: entries) = namesWith role entries := by
        simp [namesWith, hrole]
      rw [hnames, if_neg fun h => hrole h.1]

theorem classify_eq_insertEach (t : RoleLists) (names : List String) : t.classify names =
    t.insertEach (names.map fun name => (name, Role.all.filter (·.matchesName name))) := by
  rw [insertEach, List.foldl_map]
  rfl

/-- The names that follow the convention of the role stand behind those that had it before. -/
theorem list_classify (t : RoleLists) (names : List String) (role : Role) :
    (t.classify names).list role =
      t.list role ++ ((names.filter role.matchesName).filter (· ∉ t.list role)).eraseDups := by
  have hall : role ∈ Role.all := by cases role <;> decide
  have hnames : namesWith role
      (names.map fun name => (name, Role.all.filter (·.matchesName name))) =
        names.filter role.matchesName := by
    simp [namesWith, List.filter_map, Function.comp_def, hall]
  rw [classify_eq_insertEach, list_insertEach, hnames]

/-! ### Members -/

theorem mem_insertAll {roles : List Role} : n ∈ (t.insertAll roles name).list other ↔
    n ∈ t.list other ∨ (other ∈ roles ∧ n = name) := by
  rw [list_insertAll]
  split_ifs with h
  · simp [h.1]
  · refine ⟨.inl, fun hn => hn.elim id fun ⟨ho, hname⟩ => ?_⟩
    subst hname
    by_contra hmem
    exact h ⟨ho, hmem⟩

/-- Classification adds to a role the names that follow its convention, and no others. -/
theorem mem_classify {names : List String} : n ∈ (t.classify names).list role ↔
    n ∈ t.list role ∨ (n ∈ names ∧ role.matchesName n = true) := by
  rw [list_classify, List.mem_append, List.mem_eraseDups, List.mem_filter, List.mem_filter]
  by_cases hmem : n ∈ t.list role <;> simp [hmem]

/-! ### Repetition -/

/-- No list names anything twice. -/
def Distinct (t : RoleLists) : Prop := ∀ role, (t.list role).Nodup

theorem distinct_empty : Distinct {} := fun role => by cases role <;> exact List.nodup_nil

namespace Distinct

theorem insert (h : t.Distinct) (role : Role) (name : String) : (t.insert role name).Distinct := by
  intro other
  rw [list_insert]
  split_ifs with hnew
  · obtain ⟨rfl, hmem⟩ := hnew
    rw [← List.concat_eq_append]
    exact (h other).concat hmem
  · exact h other

theorem insertAll (h : t.Distinct) (roles : List Role) (name : String) :
    (t.insertAll roles name).Distinct := by
  induction roles generalizing t with
  | nil => exact h
  | cons role roles ih => exact ih (h.insert role name)

theorem classify (h : t.Distinct) (names : List String) : (t.classify names).Distinct := by
  induction names generalizing t with
  | nil => exact h
  | cons name names ih => exact ih (h.insertAll _ name)

end Distinct

end ServiceScaffold.RoleLists
