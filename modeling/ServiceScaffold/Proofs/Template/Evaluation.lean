import Mathlib.Tactic.SplitIfs
import ServiceScaffold.Proofs.Keyed
import ServiceScaffold.Template.Rendering

/-!
# Evaluation, step by step

What a statement or an expression of a template comes to, from what its parts come to, and the text
of the two simplest kinds of templates.

* `render_plain` : a template without markup is its own text;
* `render_filtered` : **a template with one substitution is the text before it, the value, and the
  text after it.**
-/

namespace ServiceScaffold.Template

variable {call : Caller} {s s' : Scope} {e : Expr} {v w : Value}

/-! ### Expressions -/

theorem eval_name (line : Nat) {id : String} (h : s.lookup id = some v) :
    (Expr.name line id).eval call s = .ok (v, s) := by
  have hget : (get : Eval Scope) s = .ok (s, s) := rfl
  rw [Expr.eval]
  simp only [bind, StateT.bind, hget, Except.bind, h]
  rfl

theorem eval_member (line : Nat) {name : String} (h : e.eval call s = .ok (v, s'))
    (hw : v.attribute? name = some w) : (Expr.member line e name).eval call s = .ok (w, s') := by
  rw [Expr.eval]
  simp only [bind, StateT.bind, h, Except.bind, hw, partOf]
  rfl

theorem eval_filter (line : Nat) {name : String} (h : e.eval call s = .ok (v, s'))
    (hw : applyFilter name v [] = .ok w) :
    (Expr.filter line name e []).eval call s = .ok (w, s') := by
  have hgather : Given.gather [] = .ok [] := rfl
  have harguments : evalArguments call [] s' = .ok ([], s') := by
    rw [evalArguments]
    rfl
  rw [Expr.eval]
  simp only [bind, StateT.bind, h, Except.bind, harguments, hgather, hw]
  rfl

/-! ### Statements -/

theorem execAll_nil (call : Caller) (s : Scope) : execAll call [] s = .ok ((), s) := by
  rw [execAll]
  rfl

theorem execAll_cons {st : Stmt} (rest : List Stmt) (h : st.exec call s = .ok ((), s')) :
    execAll call (st :: rest) s = execAll call rest s' := by
  rw [execAll]
  simp only [bind, StateT.bind, h, Except.bind]

theorem exec_data (call : Caller) (text : String) (s : Scope) :
    (Stmt.data text).exec call s = .ok ((), { s with output := s.output ++ text }) := by
  rw [Stmt.exec]
  rfl

theorem exec_output (h : e.eval call s = .ok (v, s')) :
    (Stmt.output e).exec call s = .ok ((), { s' with output := s'.output ++ v.display }) := by
  rw [Stmt.exec]
  simp only [bind, StateT.bind, h, Except.bind]
  rfl

/-! ### Templates -/

theorem nodup_keys_helperNames : (Keyed.keys helperNames).Nodup := by decide +kernel

/-- A name stands for the helper of that name, or else for what the data have under it. -/
theorem lookup_rootNames_eq_or (id : String) (data : Json) :
    Keyed.lookup id (rootNames data) =
      (Keyed.lookup id helperNames).or (Keyed.lookup id (dataNames data)) := by
  rw [rootNames, Keyed.lookup_insertAll, Keyed.lookup_reverse nodup_keys_helperNames]

/-- Data stand under their names, unless a helper hides them. -/
theorem lookup_rootNames {id : String} (h : Keyed.has id helperNames = false)
    (fields : List (String × Json)) :
    Keyed.lookup id (rootNames (.obj fields)) =
      (Keyed.lookup id (Keyed.sortedFields fields)).map Value.ofJson := by
  have hhelper : Keyed.lookup id helperNames = none :=
    Option.not_isSome_iff_eq_none.1 (Bool.eq_false_iff.1 h)
  rw [lookup_rootNames_eq_or, hhelper, Option.none_or, dataNames, Keyed.lookup_map]

theorem lookup_ofNames (blocks : List (String × List Stmt)) {names : Names} {id : String}
    (h : Keyed.lookup id names = some v) (hid : id ≠ "loop") :
    (Scope.ofNames blocks names).lookup id = some v := by
  simp [Scope.ofNames, Scope.lookup, Frame.lookup, Frame.ofNames, Keyed.lookup, hid, h]

/-- A template that evaluates to a text is rendered to it, whatever its name is. -/
theorem Renderer.standard_eq_text {source text : String} {data : Json} (name : String)
    (h : render source data = .ok text) : Renderer.standard name source data = .text text := by
  have hevaluate : evaluate source (rootNames data) = .ok text := h
  rw [Renderer.standard, Renderer.ofLibrary, Library.standard, hevaluate]

/-- A template that is one text. -/
def isPlain (text : String) : Result Script → Bool
  | .ok ⟨[.data s], []⟩ => s == text
  | _ => false

/-- A template without markup is its own text. -/
theorem render_plain {source text : String} (h : isPlain text (Script.parse source) = true)
    (data : Json) : render source data = .ok text := by
  unfold isPlain at h
  split at h
  · rename_i s hs
    obtain rfl : s = text := by simpa using h
    rw [render, evaluate, hs]
    simp only [bind, Except.bind, execAll_cons _ (exec_data _ _ _), execAll_nil]
    simp [Scope.ofNames, pure, Except.pure]
  · simp at h

/-- A template with one substitution: a field of a name, by way of a filter. -/
def isFiltered (front name field filter back : String) : Result Script → Bool
  | .ok ⟨[.data a, .output (.filter _ f (.member _ (.name _ n) m) []), .data b], []⟩ =>
    a == front && n == name && m == field && f == filter && b == back
  | _ => false

/-- A template with one substitution is the text before it, the value, and the text after it. -/
theorem render_filtered {source front name field filter back : String}
    (h : isFiltered front name field filter back (Script.parse source) = true) {data : Json}
    {u : Value} (hname : Keyed.lookup name (rootNames data) = some u) (hloop : name ≠ "loop")
    (hfield : u.attribute? field = some v) (hfilter : applyFilter filter v [] = .ok w) :
    render source data = .ok (front ++ w.display ++ back) := by
  unfold isFiltered at h
  split at h
  · rename_i a l f l' l'' n m b hs
    simp only [Bool.and_eq_true, beq_iff_eq] at h
    obtain ⟨⟨⟨⟨rfl, rfl⟩, rfl⟩, rfl⟩, rfl⟩ := h
    rw [render, evaluate, hs]
    -- the output that is written before does not change what the name stands for
    have heval : ∀ call s, s.lookup n = some u →
        (Expr.filter l f (.member l' (.name l'' n) m) []).eval call s = .ok (w, s) :=
      fun call s hs => eval_filter l (eval_member l' (eval_name l'' hs) hfield) hfilter
    have hroot : ∀ text,
        { Scope.ofNames [] (rootNames data) with output := text }.lookup n = some u :=
      fun _ => lookup_ofNames [] hname hloop
    simp only [bind, Except.bind, execAll_cons _ (exec_data _ _ _),
      execAll_cons _ (exec_output (heval _ _ (hroot _))), execAll_nil]
    simp [Scope.ofNames, pure, Except.pure]
  · simp at h

end ServiceScaffold.Template
