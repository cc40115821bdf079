import Mathlib.Logic.Function.Iterate

/-!
# While loops

`while (test) body` over an explicit state, with fuel for its turns. The result does not depend on
the fuel, and a measure that drops at every turn makes the loop end.
-/

namespace KernelFromScratch

variable {σ : Type*}

/-- The state after `while (test(state)) state = body(state);`, if it ends within `fuel` turns. -/
def whileLoop (test : σ → Bool) (body : σ → σ) : Nat → σ → Option σ
  | 0, state => if test state then none else some state
  | fuel + 1, state => if test state then whileLoop test body fuel (body state) else some state

/-- The states in which the test is made. -/
inductive Turn (test : σ → Bool) (body : σ → σ) (start : σ) : σ → Prop
  | start : Turn test body start start
  | next {state : σ} (hturn : Turn test body start state) (htest : test state = true) :
      Turn test body start (body state)

variable {test : σ → Bool} {body : σ → σ} {state result : σ} {fuel : Nat}

theorem whileLoop_of_false (htest : test state = false) (fuel : Nat) :
    whileLoop test body fuel state = some state := by
  cases fuel with
  | zero => rw [whileLoop, htest, if_neg Bool.false_ne_true]
  | succ fuel => rw [whileLoop, htest, if_neg Bool.false_ne_true]

theorem whileLoop_of_true (htest : test state = true) (fuel : Nat) :
    whileLoop test body (fuel + 1) state = whileLoop test body fuel (body state) := by
  rw [whileLoop, if_pos htest]

theorem whileLoop_succ (hends : whileLoop test body fuel state = some result) :
    whileLoop test body (fuel + 1) state = some result := by
  induction fuel generalizing state with
  | zero =>
      by_cases htest : test state = true
      · rw [whileLoop, if_pos htest] at hends
        cases hends
      · rw [whileLoop_of_false (Bool.eq_false_iff.mpr htest)] at hends ⊢
        exact hends
  | succ fuel ih =>
      by_cases htest : test state = true
      · rw [whileLoop_of_true htest] at hends ⊢
        exact ih hends
      · rw [whileLoop_of_false (Bool.eq_false_iff.mpr htest)] at hends ⊢
        exact hends

theorem whileLoop_of_le {fuel' : Nat} (hle : fuel ≤ fuel')
    (hends : whileLoop test body fuel state = some result) :
    whileLoop test body fuel' state = some result := by
  induction hle with
  | refl => exact hends
  | step _ ih => exact whileLoop_succ ih

theorem whileLoop_unique {fuel' : Nat} {result' : σ}
    (hends : whileLoop test body fuel state = some result)
    (hends' : whileLoop test body fuel' state = some result') : result = result' := by
  have hmore : ∀ {fuel result} (extra : Nat), whileLoop test body fuel state = some result →
      whileLoop test body (fuel + extra) state = some result := by
    intro fuel result extra h
    induction extra with
    | zero => exact h
    | succ extra ih => exact whileLoop_succ ih
  have heq : some result = some result' :=
    calc some result = whileLoop test body (fuel + fuel') state := (hmore fuel' hends).symm
      _ = whileLoop test body (fuel' + fuel) state := by rw [Nat.add_comm]
      _ = some result' := hmore fuel hends'
  exact Option.some.inj heq

/-- An invariant, and a measure that drops at every turn: the loop ends, with the invariant and
without the test. -/
theorem whileLoop_rule (invariant : σ → Prop) (measure : σ → Nat) (hstart : invariant state)
    (hbody : ∀ s, invariant s → test s = true → invariant (body s) ∧ measure (body s) < measure s) :
    ∃ fuel result, whileLoop test body fuel state = some result ∧ invariant result
      ∧ test result = false := by
  have hfrom : ∀ (bound : Nat) (s : σ), measure s < bound → invariant s →
      ∃ result, whileLoop test body bound s = some result ∧ invariant result
        ∧ test result = false := by
    intro bound
    induction bound with
    | zero => exact fun s hlt => absurd hlt (Nat.not_lt_zero _)
    | succ bound ih =>
        intro s hlt hs
        by_cases htest : test s = true
        · obtain ⟨hnext, hdrops⟩ := hbody s hs htest
          rw [whileLoop_of_true htest]
          exact ih (body s) (Nat.lt_of_lt_of_le hdrops (Nat.le_of_lt_succ hlt)) hnext
        · have hfalse := Bool.eq_false_iff.mpr htest
          exact ⟨s, whileLoop_of_false hfalse _, hs, hfalse⟩
  exact ⟨measure state + 1, hfrom _ state (Nat.lt_succ_self _) hstart⟩

/-- What every turn preserves holds when the loop has ended. -/
theorem whileLoop_preserves (invariant : σ → Prop) (hstart : invariant state)
    (hbody : ∀ s, invariant s → test s = true → invariant (body s))
    (hends : whileLoop test body fuel state = some result) :
    invariant result ∧ test result = false := by
  induction fuel generalizing state with
  | zero =>
      by_cases htest : test state = true
      · rw [whileLoop, if_pos htest] at hends
        cases hends
      · rw [whileLoop_of_false (Bool.eq_false_iff.mpr htest)] at hends
        cases hends
        exact ⟨hstart, Bool.eq_false_iff.mpr htest⟩
  | succ fuel ih =>
      by_cases htest : test state = true
      · rw [whileLoop_of_true htest] at hends
        exact ih (hbody state hstart htest) hends
      · rw [whileLoop_of_false (Bool.eq_false_iff.mpr htest)] at hends
        cases hends
        exact ⟨hstart, Bool.eq_false_iff.mpr htest⟩

/-- The loop ends when a measure drops at every turn it makes. -/
theorem whileLoop_ends (measure : σ → Nat)
    (hdrops : ∀ s, Turn test body state s → test s = true → measure (body s) < measure s) :
    ∃ fuel result, whileLoop test body fuel state = some result := by
  obtain ⟨fuel, result, hends, -⟩ := whileLoop_rule (Turn test body state) measure .start
    fun s hturn htest => ⟨hturn.next htest, hdrops s hturn htest⟩
  exact ⟨fuel, result, hends⟩

/-- A loop that comes back to the same place before every test does not end. -/
theorem whileLoop_diverges (invariant : σ → Prop) (hstart : invariant state)
    (hbody : ∀ s, invariant s → test s = true ∧ invariant (body s)) (fuel : Nat) :
    whileLoop test body fuel state = none := by
  induction fuel generalizing state with
  | zero => rw [whileLoop, if_pos (hbody state hstart).1]
  | succ fuel ih =>
      rw [whileLoop_of_true (hbody state hstart).1]
      exact ih (hbody state hstart).2

end KernelFromScratch
