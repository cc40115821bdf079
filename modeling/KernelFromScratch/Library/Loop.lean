import Mathlib.Data.List.Range

/-!
# Counting loops

`for (i = start; i < stop; i++) body` and `for (i = start; i > 0; i--) body` over an explicit state,
and their invariant rules.
-/

namespace KernelFromScratch

variable {σ : Type*}

/-- The state after `for (i = start; i < stop; i++) state = body(i, state);`. -/
def forLoop (start stop : Nat) (body : Nat → σ → σ) (state : σ) : σ :=
  (List.range' start (stop - start)).foldl (fun state i => body i state) state

theorem forLoop_of_le {start stop : Nat} (hle : stop ≤ start) (body : Nat → σ → σ) (state : σ) :
    forLoop start stop body state = state := by
  simp [forLoop, Nat.sub_eq_zero_of_le hle]

theorem forLoop_succ {start stop : Nat} (hle : start ≤ stop) (body : Nat → σ → σ) (state : σ) :
    forLoop start (stop + 1) body state = body stop (forLoop start stop body state) := by
  have hlength : stop + 1 - start = (stop - start) + 1 := by omega
  have hlast : start + (stop - start) = stop := by omega
  simp [forLoop, hlength, List.range'_1_concat, hlast]

/-- An invariant indexed by the loop counter. -/
theorem forLoop_rule {start stop : Nat} {body : Nat → σ → σ} {state : σ}
    (invariant : Nat → σ → Prop) (hle : start ≤ stop) (hstart : invariant start state)
    (hbody : ∀ i current, start ≤ i → i < stop → invariant i current →
      invariant (i + 1) (body i current)) :
    invariant stop (forLoop start stop body state) := by
  induction stop, hle using Nat.le_induction with
  | base => rwa [forLoop_of_le le_rfl]
  | succ stop hle ih =>
      rw [forLoop_succ hle]
      exact hbody stop _ hle (Nat.lt_succ_self stop)
        (ih fun i current hi hlt => hbody i current hi (Nat.lt_succ_of_lt hlt))

/-- An invariant that does not mention the counter. -/
theorem forLoop_preserves {start stop : Nat} {body : Nat → σ → σ} {state : σ}
    (invariant : σ → Prop) (hstart : invariant state)
    (hbody : ∀ i current, start ≤ i → i < stop → invariant current → invariant (body i current)) :
    invariant (forLoop start stop body state) := by
  rcases Nat.le_total start stop with hle | hle
  · exact forLoop_rule (fun _ => invariant) hle hstart hbody
  · rwa [forLoop_of_le hle]

theorem forLoop_unchanged {α : Type*} {start stop : Nat} {body : Nat → σ → σ} (field : σ → α)
    (hbody : ∀ i current, field (body i current) = field current) (state : σ) :
    field (forLoop start stop body state) = field state :=
  forLoop_preserves (fun current => field current = field state) rfl
    fun i current _ _ hcurrent => (hbody i current).trans hcurrent

/-- A loop runs like the one whose body does the same to what `field` sees. -/
theorem forLoop_map {τ : Type*} {start stop : Nat} {body : Nat → σ → σ} {body' : Nat → τ → τ}
    (field : σ → τ) (hbody : ∀ i current, field (body i current) = body' i (field current))
    (state : σ) : field (forLoop start stop body state) = forLoop start stop body' (field state) := by
  rcases Nat.le_total start stop with hle | hle
  · induction stop, hle using Nat.le_induction with
    | base => rw [forLoop_of_le le_rfl, forLoop_of_le le_rfl]
    | succ stop hle ih => rw [forLoop_succ hle, forLoop_succ hle, hbody, ih]
  · rw [forLoop_of_le hle, forLoop_of_le hle]

/-- The state after `for (i = start; i > 0; i--) state = body(i, state);`. -/
def forDownLoop : Nat → (Nat → σ → σ) → σ → σ
  | 0, _, state => state
  | i + 1, body, state => forDownLoop i body (body (i + 1) state)

theorem forDownLoop_rule {start : Nat} {body : Nat → σ → σ} {state : σ}
    (invariant : Nat → σ → Prop) (hstart : invariant start state)
    (hbody : ∀ i current, i < start → invariant (i + 1) current →
      invariant i (body (i + 1) current)) :
    invariant 0 (forDownLoop start body state) := by
  induction start generalizing state with
  | zero => exact hstart
  | succ start ih =>
      exact ih (hbody start state (Nat.lt_succ_self start) hstart)
        fun i current hi => hbody i current (Nat.lt_succ_of_lt hi)

attribute [irreducible] forLoop

end KernelFromScratch
