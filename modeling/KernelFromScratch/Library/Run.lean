import Mathlib.Data.List.Induction

/-!
# Runs that may stop

A run folds a step over a list of events. A step that does not return stops the run in an error
state. The rules: an invariant of the steps that return, and two runs kept in step by a relation.
-/

namespace KernelFromScratch

variable {α β γ ε δ : Type*}

/-- Both computations return in states related by `returned`, or both stop in states related by
`stopped`. -/
inductive Both (returned : β → γ → Prop) (stopped : ε → δ → Prop) : Except ε β → Except δ γ → Prop
  where
  | ok {x : β} {y : γ} (hreturned : returned x y) : Both returned stopped (.ok x) (.ok y)
  | error {x : ε} {y : δ} (hstopped : stopped x y) : Both returned stopped (.error x) (.error y)

/-- How a computation that has been evaluated returned. -/
theorem exists_ok_of_toOption_map {run : Except ε β} {f : β → γ} {value : γ}
    (heval : run.toOption.map f = some value) : ∃ x, run = .ok x ∧ f x = value := by
  cases run with
  | error e => cases heval
  | ok x => exact ⟨x, rfl, Option.some_inj.mp heval⟩

namespace Both

variable {returned returned' : β → γ → Prop} {stopped stopped' : ε → δ → Prop} {x : β} {y : γ}
  {result : Except ε β} {result' : Except δ γ}

theorem ok_left (hboth : Both returned stopped (.ok x) result') :
    ∃ y, result' = .ok y ∧ returned x y := by
  cases hboth with
  | ok hreturned => exact ⟨_, rfl, hreturned⟩

theorem ok_right (hboth : Both returned stopped result (.ok y)) :
    ∃ x, result = .ok x ∧ returned x y := by
  cases hboth with
  | ok hreturned => exact ⟨_, rfl, hreturned⟩

theorem mono (hboth : Both returned stopped result result')
    (hreturned : ∀ x y, returned x y → returned' x y)
    (hstopped : ∀ x y, stopped x y → stopped' x y) : Both returned' stopped' result result' := by
  cases hboth with
  | ok h => exact .ok (hreturned _ _ h)
  | error h => exact .error (hstopped _ _ h)

end Both

section Fold

variable {step : β → α → Except ε β} {step' : γ → α → Except δ γ}

theorem foldlM_cons_ok {x z : β} {event : α} {events : List α}
    (hrun : (event :: events).foldlM step x = .ok z) :
    ∃ y, step x event = .ok y ∧ events.foldlM step y = .ok z := by
  rw [List.foldlM_cons] at hrun
  cases hstep : step x event with
  | ok y =>
      rw [hstep] at hrun
      exact ⟨y, rfl, hrun⟩
  | error e =>
      rw [hstep] at hrun
      cases hrun

theorem foldlM_cons_of_ok {x y z : β} {event : α} {events : List α} (hfirst : step x event = .ok y)
    (hrest : events.foldlM step y = .ok z) : (event :: events).foldlM step x = .ok z := by
  rw [List.foldlM_cons, hfirst]
  exact hrest

theorem foldlM_concat_ok {x z : β} {event : α} {events : List α} :
    (events ++ [event]).foldlM step x = .ok z
      ↔ ∃ y, events.foldlM step x = .ok y ∧ step y event = .ok z := by
  rw [List.foldlM_append]
  have hlast : ∀ y, [event].foldlM step y = step y event := by
    intro y
    rw [List.foldlM_cons]
    cases step y event with
    | ok z => rfl
    | error e => rfl
  cases events.foldlM step x with
  | ok y =>
      change [event].foldlM step y = .ok z ↔ _
      rw [hlast]
      simp
  | error e =>
      constructor
      · intro hrun
        cases hrun
      · rintro ⟨y, hrun, -⟩
        cases hrun

/-- What every step that returns preserves, a run that returns preserves. -/
theorem foldlM_invariant (invariant : β → Prop)
    (hstep : ∀ x event y, invariant x → step x event = .ok y → invariant y) {events : List α}
    {x z : β} (hstart : invariant x) (hrun : events.foldlM step x = .ok z) : invariant z := by
  induction events generalizing x with
  | nil =>
      cases hrun
      exact hstart
  | cons event events ih =>
      obtain ⟨y, hfirst, hrest⟩ := foldlM_cons_ok hrun
      exact ih (hstep x event y hstart hfirst) hrest

/-- Every step of the run is `good` in the state it is taken in. -/
def Along (step : β → α → Except ε β) (good : β → α → Prop) : List α → β → Prop
  | [], _ => True
  | event :: events, x => good x event ∧ ∀ y, step x event = .ok y → Along step good events y

theorem along_cons {good : β → α → Prop} {event : α} {events : List α} {x y : β}
    (hgood : good x event) (hfirst : step x event = .ok y) (hrest : Along step good events y) :
    Along step good (event :: events) x := by
  refine ⟨hgood, fun y' hfirst' => ?_⟩
  obtain rfl := Except.ok.inj (hfirst.symm.trans hfirst')
  exact hrest

/-- Steps that are good wherever a prefix of the run returns are good along the run. -/
theorem along_of_prefixes {good : β → α → Prop} {events : List α} {x : β}
    (hreached : ∀ before event y, before ++ [event] <+: events →
      before.foldlM step x = .ok y → good y event) : Along step good events x := by
  induction events generalizing x with
  | nil => exact trivial
  | cons event events ih =>
      refine ⟨hreached [] event x ⟨events, rfl⟩ rfl, fun y hfirst => ih ?_⟩
      intro before next z hbefore hrun
      exact hreached (event :: before) next z
        (List.cons_prefix_cons.mpr ⟨rfl, hbefore⟩) (foldlM_cons_of_ok hfirst hrun)

theorem Along.of_append {good : β → α → Prop} {before after : List α} {x : β}
    (hgood : Along step good (before ++ after) x) : Along step good before x := by
  induction before generalizing x with
  | nil => exact trivial
  | cons event before ih => exact ⟨hgood.1, fun y hfirst => ih (hgood.2 y hfirst)⟩

/-- What every good step preserves, a run of good steps preserves. -/
theorem foldlM_invariant_along (invariant : β → Prop) {good : β → α → Prop}
    (hstep : ∀ x event y, invariant x → good x event → step x event = .ok y → invariant y)
    {events : List α} {x z : β} (hgood : Along step good events x) (hstart : invariant x)
    (hrun : events.foldlM step x = .ok z) : invariant z := by
  induction events generalizing x with
  | nil =>
      cases hrun
      exact hstart
  | cons event events ih =>
      obtain ⟨y, hfirst, hrest⟩ := foldlM_cons_ok hrun
      exact ih (hgood.2 y hfirst) (hstep x event y hstart hgood.1 hfirst) hrest

/-- Two runs over the same events, kept in step. -/
theorem foldlM_both {returned : β → γ → Prop} {stopped : ε → δ → Prop}
    (hstep : ∀ x y event, returned x y → Both returned stopped (step x event) (step' y event))
    {events : List α} {x : β} {y : γ} (hstart : returned x y) :
    Both returned stopped (events.foldlM step x) (events.foldlM step' y) := by
  induction events generalizing x y with
  | nil => exact .ok hstart
  | cons event events ih =>
      rw [List.foldlM_cons, List.foldlM_cons]
      have hfirst := hstep x y event hstart
      revert hfirst
      generalize step x event = first
      generalize step' y event = first'
      intro hfirst
      cases hfirst with
      | ok hreturned => exact ih hreturned
      | error hstopped => exact .error hstopped

end Fold

end KernelFromScratch
