import Mathlib.Logic.Relation

/-!
# Runs of a bounded length

Runs of a step relation with their number of steps. A weight that every step lowers bounds that
number, and a run can be continued until no step is left.
-/

namespace KernelFromScratch

variable {α : Type*} {step : α → α → Prop}

/-- So many steps. -/
inductive Steps (step : α → α → Prop) : Nat → α → α → Prop where
  | refl (x : α) : Steps step 0 x x
  | head {n : Nat} {x y z : α} (hstep : step x y) (hsteps : Steps step n y z) :
      Steps step (n + 1) x z

/-- No step is left. -/
def Final (step : α → α → Prop) (x : α) : Prop := ∀ y, ¬ step x y

/-- An invariant of the steps, and a weight that every step lowers. -/
structure Lowers (step : α → α → Prop) (invariant : α → Prop) (weight : α → Nat) : Prop where
  keeps : ∀ {x y}, invariant x → step x y → invariant y
  drops : ∀ {x y}, invariant x → step x y → weight y < weight x

namespace Lowers

variable {invariant : α → Prop} {weight : α → Nat} {x y : α} {n : Nat}

theorem steps (hlowers : Lowers step invariant weight) (hstart : invariant x)
    (hsteps : Steps step n x y) : invariant y ∧ n + weight y ≤ weight x := by
  induction hsteps with
  | refl x => exact ⟨hstart, Nat.le_of_eq (Nat.zero_add _)⟩
  | head hstep hsteps ih =>
      have hlt := hlowers.drops hstart hstep
      obtain ⟨hinvariant, hle⟩ := ih (hlowers.keeps hstart hstep)
      exact ⟨hinvariant, by omega⟩

/-- Every state can run until no step is left. -/
theorem exists_final (hlowers : Lowers step invariant weight) (hstart : invariant x) :
    ∃ n y, Steps step n x y ∧ Final step y := by
  have hfrom : ∀ (bound : Nat) (x : α), weight x < bound → invariant x →
      ∃ n y, Steps step n x y ∧ Final step y := by
    intro bound
    induction bound with
    | zero => exact fun x hlt => absurd hlt (Nat.not_lt_zero _)
    | succ bound ih =>
        intro x hlt hinvariant
        by_cases hfinal : Final step x
        · exact ⟨0, x, .refl x, hfinal⟩
        · obtain ⟨y, hstep⟩ := Classical.not_forall_not.mp hfinal
          have hdrop := hlowers.drops hinvariant hstep
          obtain ⟨n, z, hsteps, hfinal⟩ := ih y (by omega) (hlowers.keeps hinvariant hstep)
          exact ⟨n + 1, z, .head hstep hsteps, hfinal⟩
  exact hfrom (weight x + 1) x (Nat.lt_succ_self _) hstart

end Lowers

end KernelFromScratch
