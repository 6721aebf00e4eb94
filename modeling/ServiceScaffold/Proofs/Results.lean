import ServiceScaffold.Failure

/-!
# Results

A test that a result passes is a test of the value it gives.
-/

namespace ServiceScaffold

variable {ε α : Type} {e : Except ε α}

theorem exists_ok_of_any {p : α → Bool} (h : e.toOption.any p = true) :
    ∃ a, e = .ok a ∧ p a = true := by
  cases e with
  | error f => cases h
  | ok a => exact ⟨a, rfl, h⟩

theorem exists_ok_of_isSome (h : e.toOption.isSome = true) : ∃ a, e = .ok a := by
  cases e with
  | error f => cases h
  | ok a => exact ⟨a, rfl⟩

theorem exists_ok_of_toBool (h : e.toBool = true) : ∃ a, e = .ok a := by
  cases e with
  | error f => cases h
  | ok a => exact ⟨a, rfl⟩

end ServiceScaffold
