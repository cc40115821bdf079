import Mathlib.Data.List.Basic
import Mathlib.Logic.Function.Iterate

/-!
# A line cut at a cursor

The line is `before ++ after` and the cursor stands between the two.
-/

namespace KernelFromScratch

variable {α : Type*}

structure Zipper (α : Type*) where
  before : List α
  after : List α
  deriving DecidableEq

namespace Zipper

def empty : Zipper α := ⟨[], []⟩

def line (z : Zipper α) : List α := z.before ++ z.after

def size (z : Zipper α) : Nat := z.before.length + z.after.length

/-- Insert before the cursor, unless the line already has `capacity` characters. -/
def insert (capacity : Nat) (c : α) (z : Zipper α) : Zipper α :=
  if z.size = capacity then z else { z with before := z.before ++ [c] }

/-- Drop the last `min n |before|` characters before the cursor. -/
def deleteBefore (n : Nat) (z : Zipper α) : Zipper α :=
  { z with before := z.before.take (z.before.length - n) }

/-- Drop the first `min n |after|` characters after the cursor. -/
def deleteAfter (n : Nat) (z : Zipper α) : Zipper α :=
  { z with after := z.after.drop n }

def moveLeft (z : Zipper α) : Zipper α :=
  match z.before.getLast? with
  | none => z
  | some c => ⟨z.before.dropLast, c :: z.after⟩

def moveRight (z : Zipper α) : Zipper α :=
  match z.after with
  | [] => z
  | c :: after => ⟨z.before ++ [c], after⟩

@[simp]
theorem line_length (z : Zipper α) : z.line.length = z.size := by
  simp [line, size]

@[simp]
theorem line_empty : (empty : Zipper α).line = [] := rfl

@[simp]
theorem size_empty : (empty : Zipper α).size = 0 := rfl

theorem insert_of_size_ne {capacity : Nat} {z : Zipper α} (hne : z.size ≠ capacity) (c : α) :
    z.insert capacity c = { z with before := z.before ++ [c] } := by
  simp [insert, hne]

theorem size_insert_le {capacity : Nat} {z : Zipper α} (hle : z.size ≤ capacity) (c : α) :
    (z.insert capacity c).size ≤ capacity := by
  unfold insert
  split
  · exact hle
  · rename_i hne
    simp only [size, List.length_append, List.length_singleton] at *
    omega

/-- Deleting more than there is deletes everything. -/
theorem deleteBefore_min (n : Nat) (z : Zipper α) :
    z.deleteBefore (min n z.before.length) = z.deleteBefore n := by
  have hsub : z.before.length - min n z.before.length = z.before.length - n := by omega
  simp only [deleteBefore, hsub]

theorem deleteAfter_min (n : Nat) (z : Zipper α) :
    z.deleteAfter (min n z.after.length) = z.deleteAfter n := by
  rcases Nat.le_total n z.after.length with hle | hle
  · rw [Nat.min_eq_left hle]
  · rw [Nat.min_eq_right hle]
    simp [deleteAfter, List.drop_eq_nil_of_le hle]

theorem moveLeft_concat (before : List α) (c : α) (after : List α) :
    moveLeft ⟨before ++ [c], after⟩ = ⟨before, c :: after⟩ := by
  simp [moveLeft]

theorem moveRight_cons (before : List α) (c : α) (after : List α) :
    moveRight ⟨before, c :: after⟩ = ⟨before ++ [c], after⟩ := rfl

theorem line_moveLeft (z : Zipper α) : z.moveLeft.line = z.line := by
  obtain ⟨before, after⟩ := z
  rcases List.eq_nil_or_concat before with rfl | ⟨before, c, rfl⟩
  · rfl
  · rw [List.concat_eq_append, moveLeft_concat]
    simp [line]

theorem line_moveRight (z : Zipper α) : z.moveRight.line = z.line := by
  obtain ⟨before, after⟩ := z
  cases after with
  | nil => rfl
  | cons c after => simp [moveRight_cons, line]

theorem size_moveLeft (z : Zipper α) : z.moveLeft.size = z.size := by
  rw [← line_length, line_moveLeft, line_length]

theorem length_before_moveLeft (z : Zipper α) :
    z.moveLeft.before.length = z.before.length - 1 := by
  obtain ⟨before, after⟩ := z
  rcases List.eq_nil_or_concat before with rfl | ⟨before, c, rfl⟩
  · rfl
  · rw [List.concat_eq_append, moveLeft_concat, List.length_append, List.length_singleton,
      Nat.add_sub_cancel]

theorem mem_line_insert {capacity : Nat} {c x : α} {z : Zipper α}
    (hmem : x ∈ (z.insert capacity c).line) : x = c ∨ x ∈ z.line := by
  unfold insert at hmem
  split at hmem
  · exact Or.inr hmem
  · simp only [line, List.mem_append, List.mem_singleton] at *
    tauto

theorem mem_line_deleteBefore {n : Nat} {x : α} {z : Zipper α}
    (hmem : x ∈ (z.deleteBefore n).line) : x ∈ z.line := by
  simp only [deleteBefore, line, List.mem_append] at *
  exact hmem.imp List.mem_of_mem_take id

theorem mem_line_deleteAfter {n : Nat} {x : α} {z : Zipper α}
    (hmem : x ∈ (z.deleteAfter n).line) : x ∈ z.line := by
  simp only [deleteAfter, line, List.mem_append] at *
  exact hmem.imp id List.mem_of_mem_drop

theorem deleteBefore_iterate (n : Nat) (z : Zipper α) :
    (deleteBefore 1)^[n] z = z.deleteBefore n := by
  induction n generalizing z with
  | zero => simp [deleteBefore]
  | succ n ih =>
      have hlength : min (z.before.length - 1) z.before.length - n = z.before.length - (n + 1) := by
        omega
      rw [Function.iterate_succ_apply, ih]
      simp only [deleteBefore, List.length_take, List.take_take, hlength]
      congr 2
      omega

theorem deleteAfter_iterate (n : Nat) (z : Zipper α) :
    (deleteAfter 1)^[n] z = z.deleteAfter n := by
  induction n generalizing z with
  | zero => simp [deleteAfter]
  | succ n ih =>
      rw [Function.iterate_succ_apply, ih]
      simp only [deleteAfter, List.drop_drop, Nat.add_comm]

/-- Deleting in both directions as often as there are characters leaves nothing. -/
theorem deleteAfter_deleteBefore_iterate {n : Nat} {z : Zipper α} (hsize : z.size ≤ n) :
    (deleteAfter 1)^[n] ((deleteBefore 1)^[n] z) = empty := by
  obtain ⟨before, after⟩ := z
  have hle : before.length + after.length ≤ n := hsize
  rw [deleteBefore_iterate, deleteAfter_iterate]
  have hbefore : before.take (before.length - n) = [] := by
    rw [Nat.sub_eq_zero_of_le (by omega), List.take_zero]
  have hafter : after.drop n = [] := List.drop_eq_nil_of_le (by omega)
  simp only [deleteBefore, deleteAfter, hbefore, hafter, empty]

/-- Characters that all fit are inserted before the cursor. -/
theorem foldl_insert {capacity : Nat} {chars : List α} {z : Zipper α}
    (hfits : z.size + chars.length ≤ capacity) :
    chars.foldl (fun z c => z.insert capacity c) z = { z with before := z.before ++ chars } := by
  induction chars generalizing z with
  | nil => simp
  | cons c chars ih =>
      rw [List.length_cons] at hfits
      have hinsert := insert_of_size_ne (show z.size ≠ capacity by omega) c
      have hsize : (z.insert capacity c).size = z.size + 1 := by
        rw [hinsert]
        simp only [size, List.length_append, List.length_singleton]
        omega
      rw [List.foldl_cons, ih (by omega), hinsert, List.append_assoc]
      rfl

end Zipper

end KernelFromScratch
