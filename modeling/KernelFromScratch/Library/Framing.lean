import Mathlib.Data.List.Basic

/-!
# Frames in a stream

A decoder collects elements of a stream into frames of one size. It takes an element as the first of
a frame only if that element is marked.
-/

namespace KernelFromScratch

variable {α : Type*}

/-- What is collected after one more element, and the frame it completes. -/
def collect (size : Nat) (marked : α → Bool) (collected : List α) (x : α) :
    List α × Option (List α) :=
  if collected.isEmpty && !marked x then
    ([], none)
  else if collected.length + 1 < size then
    (collected ++ [x], none)
  else
    ([], some (collected ++ [x]))

/-- What is collected after a stream, and the frames it completes. -/
def collectAll (size : Nat) (marked : α → Bool) :
    List α → List α → List α × List (List α)
  | collected, [] => (collected, [])
  | collected, x :: xs =>
    let (next, frame) := collect size marked collected x
    let (last, frames) := collectAll size marked next xs
    (last, frame.toList ++ frames)

variable {size : Nat} {marked : α → Bool} {collected : List α} {x : α}

theorem collectAll_cons (size : Nat) (marked : α → Bool) (collected : List α) (x : α)
    (xs : List α) :
    collectAll size marked collected (x :: xs)
      = ((collectAll size marked (collect size marked collected x).1 xs).1,
        (collect size marked collected x).2.toList
          ++ (collectAll size marked (collect size marked collected x).1 xs).2) := rfl

theorem collectAll_append (collected first second : List α) :
    collectAll size marked collected (first ++ second)
      = ((collectAll size marked (collectAll size marked collected first).1 second).1,
        (collectAll size marked collected first).2
          ++ (collectAll size marked (collectAll size marked collected first).1 second).2) := by
  induction first generalizing collected with
  | nil => rfl
  | cons x first ih =>
      rw [List.cons_append, collectAll_cons, ih, collectAll_cons, List.append_assoc]

theorem collect_unmarked (hx : marked x = false) : collect size marked [] x = ([], none) := by
  rw [collect, hx]
  rfl

/-- An element that is marked, or not the first one, is taken. -/
theorem not_dropped (hfirst : collected = [] → marked x = true) :
    ¬(collected.isEmpty && !marked x) = true := by
  intro hdropped
  rw [Bool.and_eq_true, List.isEmpty_iff] at hdropped
  rw [hfirst hdropped.1] at hdropped
  cases hdropped.2

theorem collect_short (hfirst : collected = [] → marked x = true)
    (hlength : collected.length + 1 < size) :
    collect size marked collected x = (collected ++ [x], none) := by
  rw [collect, if_neg (not_dropped hfirst), if_pos hlength]

theorem collect_full (hfirst : collected = [] → marked x = true)
    (hlength : size ≤ collected.length + 1) :
    collect size marked collected x = ([], some (collected ++ [x])) := by
  rw [collect, if_neg (not_dropped hfirst), if_neg (Nat.not_lt.mpr hlength)]

theorem collectAll_frame {xs : List α} (hfirst : collected = [] → ∀ x ∈ xs.head?, marked x = true)
    (hxs : xs ≠ []) (hlength : collected.length + xs.length = size) :
    collectAll size marked collected xs = ([], [collected ++ xs]) := by
  induction xs generalizing collected with
  | nil => exact absurd rfl hxs
  | cons x xs ih =>
      have hmarked : collected = [] → marked x = true := fun h => hfirst h x rfl
      rw [List.length_cons] at hlength
      rw [collectAll_cons]
      cases xs with
      | nil =>
          rw [collect_full hmarked (Nat.le_of_eq hlength.symm)]
          rfl
      | cons y ys =>
          rw [List.length_cons] at hlength
          have hnext : collected ++ [x] = [] → ∀ z ∈ (y :: ys).head?, marked z = true := by
            intro hempty
            cases List.append_eq_nil_iff.mp hempty |>.2
          rw [collect_short hmarked (by omega),
            ih hnext (List.cons_ne_nil y ys) (by
              rw [List.length_append, List.length_singleton, List.length_cons]
              omega),
            List.append_assoc]
          rfl

/-- A stream of frames that start with a mark is decoded frame by frame. -/
theorem collectAll_frames (hsize : 0 < size) {frames : List (List α)}
    (hframes : ∀ frame ∈ frames, frame.length = size ∧ ∀ x ∈ frame.head?, marked x = true) :
    collectAll size marked [] frames.flatten = ([], frames) := by
  induction frames with
  | nil => rfl
  | cons frame frames ih =>
      obtain ⟨hlength, hmark⟩ := hframes frame List.mem_cons_self
      have hne : frame ≠ [] := by
        rintro rfl
        exact absurd hlength (Nat.ne_of_lt hsize)
      rw [List.flatten_cons, collectAll_append,
        collectAll_frame (fun _ => hmark) hne (by rw [List.length_nil, Nat.zero_add, hlength]),
        ih fun other hother => hframes other (List.mem_cons_of_mem _ hother)]
      rfl

theorem collectAll_unmarked {xs : List α} (hxs : ∀ x ∈ xs, marked x = false) :
    collectAll size marked [] xs = ([], []) := by
  induction xs with
  | nil => rfl
  | cons x xs ih =>
      rw [collectAll_cons, collect_unmarked (hxs x List.mem_cons_self),
        ih fun other hother => hxs other (List.mem_cons_of_mem _ hother)]
      rfl

/-- A frame with a mark on its first element only completes one frame, whatever was collected
before, and leaves nothing collected. -/
theorem collectAll_resync {rest : List α} (hcollected : collected.length < size)
    (hx : marked x = true) (hrest : ∀ y ∈ rest, marked y = false)
    (hlength : (x :: rest).length = size) :
    ∃ frame, collectAll size marked collected (x :: rest) = ([], [frame]) := by
  rw [List.length_cons] at hlength
  -- The first frame ends after `size - collected.length` elements, the mark among them.
  obtain ⟨needed, hneeded⟩ : ∃ needed, collected.length + (needed + 1) = size :=
    ⟨size - collected.length - 1, by omega⟩
  have htake : (rest.take needed).length = needed := List.length_take_of_le (by omega)
  have hsplit : x :: rest = (x :: rest.take needed) ++ rest.drop needed := by
    rw [List.cons_append, List.take_append_drop]
  have hmark : collected = [] → ∀ y ∈ (x :: rest.take needed).head?, marked y = true := by
    rintro - y hy
    rwa [← Option.some.inj hy]
  refine ⟨collected ++ x :: rest.take needed, ?_⟩
  rw [hsplit, collectAll_append,
    collectAll_frame hmark (List.cons_ne_nil _ _) (by rw [List.length_cons, htake, hneeded]),
    collectAll_unmarked fun y hy => hrest y (List.mem_of_mem_drop hy)]
  rfl

end KernelFromScratch
