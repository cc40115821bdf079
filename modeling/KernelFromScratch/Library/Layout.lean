import Mathlib.Logic.Function.Basic
import Mathlib.Data.List.Induction

/-!
# Laying out a text in rows

A text is written character by character on an unbounded page of rows of a fixed width. Positions
are linear: position `row * width + column`. A newline moves to the start of the next row; any other
character fills its cell and moves one cell on, so after the last column to the next row at once.
-/

namespace KernelFromScratch

variable {α : Type*}

/-- `cells` with `line` written over it from `pos` on. -/
def overwrite (cells : Nat → α) (pos : Nat) (line : List α) : Nat → α :=
  fun q => if pos ≤ q then line.getD (q - pos) (cells q) else cells q

@[simp]
theorem overwrite_nil (cells : Nat → α) (pos : Nat) : overwrite cells pos [] = cells := by
  funext q
  simp [overwrite]

theorem overwrite_of_lt {cells : Nat → α} {pos q : Nat} {line : List α} (hlt : q < pos) :
    overwrite cells pos line q = cells q := by
  simp [overwrite, Nat.not_le.mpr hlt]

theorem overwrite_of_le {cells : Nat → α} {pos q : Nat} {line : List α}
    (hle : pos + line.length ≤ q) : overwrite cells pos line q = cells q := by
  have hpos : pos ≤ q := by omega
  have hlength : line.length ≤ q - pos := by omega
  simp [overwrite, hpos, List.getD_eq_getElem?_getD, List.getElem?_eq_none hlength]

theorem overwrite_add {cells : Nat → α} {pos i : Nat} {chars : List α} (hi : i < chars.length) :
    overwrite cells pos chars (pos + i) = chars[i] := by
  simp [overwrite, List.getD_eq_getElem?_getD, hi]

theorem overwrite_concat (cells : Nat → α) (pos : Nat) (line : List α) (c : α) :
    Function.update (overwrite cells pos line) (pos + line.length) c
      = overwrite cells pos (line ++ [c]) := by
  funext q
  by_cases heq : q = pos + line.length
  · subst heq
    rw [Function.update_self, overwrite_add (by simp)]
    simp
  · rw [Function.update_of_ne heq]
    rcases Nat.lt_or_ge q pos with hlt | hge
    · rw [overwrite_of_lt hlt, overwrite_of_lt hlt]
    · obtain ⟨i, rfl⟩ := Nat.exists_eq_add_of_le hge
      rcases Nat.lt_or_ge i line.length with hi | hi
      · rw [overwrite_add hi, overwrite_add (by simp; omega), List.getElem_append_left hi]
      · rw [overwrite_of_le (by omega), overwrite_of_le (by simp; omega)]

theorem overwrite_cons (cells : Nat → α) (pos : Nat) (line : List α) (c : α) :
    Function.update (overwrite cells (pos + 1) line) pos c = overwrite cells pos (c :: line) := by
  funext q
  by_cases heq : q = pos
  · subst heq
    simp [overwrite]
  · rw [Function.update_of_ne heq]
    rcases Nat.lt_or_ge q pos with hlt | hge
    · rw [overwrite_of_lt (by omega), overwrite_of_lt hlt]
    · have hsub : q - pos = (q - (pos + 1)) + 1 := by omega
      have hle : pos + 1 ≤ q := by omega
      simp only [overwrite, hge, hle, if_true, hsub, List.getD_cons_succ]

/-- Writing a tail over an older, shorter one. -/
theorem overwrite_overwrite_tail (cells : Nat → α) (pos : Nat) (line : List α) {old new : List α}
    (hlength : old.length ≤ new.length) :
    overwrite (overwrite cells pos (line ++ old)) (pos + line.length) new
      = overwrite cells pos (line ++ new) := by
  funext q
  rcases Nat.lt_or_ge q (pos + line.length) with hlt | hge
  · rw [overwrite_of_lt hlt]
    rcases Nat.lt_or_ge q pos with hq | hq
    · rw [overwrite_of_lt hq, overwrite_of_lt hq]
    · obtain ⟨i, rfl⟩ := Nat.exists_eq_add_of_le hq
      have hi : i < line.length := by omega
      rw [overwrite_add (by simp; omega), overwrite_add (by simp; omega),
        List.getElem_append_left hi, List.getElem_append_left hi]
  · obtain ⟨i, rfl⟩ := Nat.exists_eq_add_of_le hge
    rcases Nat.lt_or_ge i new.length with hi | hi
    · rw [overwrite_add hi, Nat.add_assoc, overwrite_add (by simp; omega),
        List.getElem_append_right (by omega)]
      simp
    · rw [overwrite_of_le (by omega), overwrite_of_le (by simp; omega),
        overwrite_of_le (by simp; omega)]

theorem overwrite_overwrite (cells : Nat → α) (pos : Nat) {old new : List α}
    (hlength : old.length ≤ new.length) :
    overwrite (overwrite cells pos old) pos new = overwrite cells pos new :=
  overwrite_overwrite_tail cells pos [] hlength

theorem overwrite_append (cells : Nat → α) (pos : Nat) (line rest : List α) :
    overwrite (overwrite cells pos line) (pos + line.length) rest
      = overwrite cells pos (line ++ rest) := by
  have hlength : ([] : List α).length ≤ rest.length := Nat.zero_le rest.length
  have htail := overwrite_overwrite_tail cells pos line hlength
  rwa [List.append_nil] at htail

theorem overwrite_singleton (cells : Nat → α) (pos : Nat) (c : α) :
    overwrite cells pos [c] = Function.update cells pos c := by
  rw [← overwrite_cons, overwrite_nil]

/-- Blanks written past the end of a line, where the page is blank, do not show. -/
theorem overwrite_append_replicate {cells : Nat → α} {pos : Nat} {blank : α}
    (hblank : ∀ q, pos ≤ q → cells q = blank) (line : List α) (n : Nat) :
    overwrite cells pos (line ++ List.replicate n blank) = overwrite cells pos line := by
  induction n with
  | zero => simp
  | succ n ih =>
      rw [List.replicate_succ', ← List.append_assoc, ← overwrite_concat, ih]
      have hcell : overwrite cells pos line (pos + (line ++ List.replicate n blank).length)
          = blank := by
        rw [overwrite_of_le (by simp), hblank _ (by omega)]
      exact Function.update_eq_self_iff.mpr hcell.symm

structure Page (α : Type*) where
  cells : Nat → α
  pos : Nat

structure PageFormat (α : Type*) where
  width : Nat
  newline : α
  blank : α
  width_pos : 0 < width

namespace PageFormat

variable [DecidableEq α] (format : PageFormat α)

def nextRow (pos : Nat) : Nat := (pos / format.width + 1) * format.width

def emptyPage : Page α := ⟨fun _ => format.blank, 0⟩

def write (page : Page α) (c : α) : Page α :=
  if c = format.newline then
    { page with pos := format.nextRow page.pos }
  else
    { cells := Function.update page.cells page.pos c, pos := page.pos + 1 }

def layout (text : List α) : Page α := text.foldl format.write format.emptyPage

omit [DecidableEq α] in
theorem lt_nextRow (pos : Nat) : pos < format.nextRow pos := by
  have hlt := Nat.lt_div_mul_add format.width_pos (a := pos)
  rw [nextRow, Nat.add_mul]
  omega

theorem write_newline (page : Page α) :
    format.write page format.newline = { page with pos := format.nextRow page.pos } := by
  simp [write]

theorem write_of_ne {c : α} (hne : c ≠ format.newline) (page : Page α) :
    format.write page c
      = { cells := Function.update page.cells page.pos c, pos := page.pos + 1 } := by
  simp [write, hne]

@[simp]
theorem layout_nil : format.layout [] = format.emptyPage := rfl

theorem layout_append (text line : List α) :
    format.layout (text ++ line) = line.foldl format.write (format.layout text) :=
  List.foldl_append

theorem layout_concat (text : List α) (c : α) :
    format.layout (text ++ [c]) = format.write (format.layout text) c :=
  layout_append format text [c]

theorem pos_lt_write (page : Page α) (c : α) : page.pos < (format.write page c).pos := by
  unfold write
  split
  · exact format.lt_nextRow page.pos
  · exact Nat.lt_succ_self page.pos

/-- The page is blank from the end of the text on. -/
theorem layout_blank (text : List α) {q : Nat} (hle : (format.layout text).pos ≤ q) :
    (format.layout text).cells q = format.blank := by
  induction text using List.reverseRecOn with
  | nil => rfl
  | append_singleton text c ih =>
      rw [layout_concat] at hle ⊢
      have hlt := Nat.lt_of_lt_of_le (format.pos_lt_write (format.layout text) c) hle
      have hblank := ih (Nat.le_of_lt hlt)
      unfold write
      split
      · exact hblank
      · simpa only [Function.update_of_ne (Nat.ne_of_gt hlt)] using hblank

/-- A line without newlines fills the cells from the end of the text on. -/
theorem layout_append_line (text : List α) {line : List α} (hline : format.newline ∉ line) :
    format.layout (text ++ line)
      = { cells := overwrite (format.layout text).cells (format.layout text).pos line
          pos := (format.layout text).pos + line.length } := by
  induction line using List.reverseRecOn with
  | nil => simp
  | append_singleton line c ih =>
      have hmem : format.newline ∉ line ∧ c ≠ format.newline := by
        simp only [List.mem_append, List.mem_singleton, not_or] at hline
        exact ⟨hline.1, Ne.symm hline.2⟩
      rw [← List.append_assoc, layout_concat, ih hmem.1, write_of_ne format hmem.2]
      simp only [overwrite_concat, List.length_append, List.length_singleton, Nat.add_assoc]

end PageFormat

end KernelFromScratch
