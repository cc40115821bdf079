import Mathlib.Data.List.Range
import Mathlib.Logic.Function.Basic

/-!
# Ring buffers

A queue in `size` slots, from the slot `tail` up to the slot `head`, which stays free: the buffer is
empty when the two indices are equal and full when the next `head` would be `tail`.
-/

namespace KernelFromScratch

variable {α : Type*} {size : Nat}

structure Ring (α : Type*) (size : Nat) where
  slot : Nat → α
  head : Nat
  tail : Nat
  head_lt : head < size
  tail_lt : tail < size

namespace Ring

theorem size_pos (r : Ring α size) : 0 < size := (Nat.zero_le _).trans_lt r.head_lt

def next (size index : Nat) : Nat := (index + 1) % size

def count (r : Ring α size) : Nat := (r.head + size - r.tail) % size

/-- What the buffer holds, the oldest first. -/
def contents (r : Ring α size) : List α :=
  (List.range r.count).map fun i => r.slot ((r.tail + i) % size)

def push (a : α) (r : Ring α size) : Ring α size where
  slot := Function.update r.slot r.head a
  head := next size r.head
  tail := r.tail
  head_lt := Nat.mod_lt _ r.size_pos
  tail_lt := r.tail_lt

def pop (r : Ring α size) : Ring α size :=
  { r with tail := next size r.tail, tail_lt := Nat.mod_lt _ r.size_pos }

theorem next_eq {index : Nat} (hlt : index < size) :
    next size index = if index + 1 = size then 0 else index + 1 := by
  rw [next]
  split_ifs with hlast
  · rw [hlast, Nat.mod_self]
  · exact Nat.mod_eq_of_lt (by omega)

theorem count_eq (r : Ring α size) :
    r.count = if r.tail ≤ r.head then r.head - r.tail else r.head + size - r.tail := by
  have hhead := r.head_lt
  have htail := r.tail_lt
  rw [count]
  split_ifs with hle
  · have hsplit : r.head + size - r.tail = (r.head - r.tail) + size := by omega
    rw [hsplit, Nat.add_mod_right, Nat.mod_eq_of_lt (by omega)]
  · exact Nat.mod_eq_of_lt (by omega)

@[simp]
theorem length_contents (r : Ring α size) : r.contents.length = r.count := by
  simp [contents]

/-- The slots in use are not the free one. -/
theorem slot_ne_head (r : Ring α size) {i : Nat} (hi : i < r.count) :
    (r.tail + i) % size ≠ r.head := by
  have hhead := r.head_lt
  have htail := r.tail_lt
  rw [count_eq] at hi
  intro heq
  by_cases hwrap : r.tail + i < size
  · rw [Nat.mod_eq_of_lt hwrap] at heq
    split_ifs at hi <;> omega
  · have hsplit : r.tail + i = (r.tail + i - size) + size := by omega
    rw [hsplit, Nat.add_mod_right, Nat.mod_eq_of_lt (by split_ifs at hi <;> omega)] at heq
    split_ifs at hi <;> omega

theorem tail_add_count (r : Ring α size) : (r.tail + r.count) % size = r.head := by
  have hhead := r.head_lt
  have htail := r.tail_lt
  rw [count_eq]
  split_ifs with hle
  · rw [Nat.add_sub_cancel' hle, Nat.mod_eq_of_lt hhead]
  · have hsum : r.tail + (r.head + size - r.tail) = r.head + size := by omega
    rw [hsum, Nat.add_mod_right, Nat.mod_eq_of_lt hhead]

theorem full_iff (r : Ring α size) : next size r.head = r.tail ↔ r.contents.length = size - 1 := by
  have hhead := r.head_lt
  have htail := r.tail_lt
  rw [length_contents, count_eq, next_eq hhead]
  split_ifs <;> omega

theorem empty_iff (r : Ring α size) : r.head = r.tail ↔ r.contents = [] := by
  have hhead := r.head_lt
  have htail := r.tail_lt
  rw [← List.length_eq_zero_iff, length_contents, count_eq]
  split_ifs <;> omega

theorem count_push (a : α) (r : Ring α size) (hroom : next size r.head ≠ r.tail) :
    (r.push a).count = r.count + 1 := by
  have hhead := r.head_lt
  have htail := r.tail_lt
  have hnext := next_eq hhead
  have hpushed : (r.push a).head = next size r.head := rfl
  have hkept : (r.push a).tail = r.tail := rfl
  rw [count_eq, count_eq, hpushed, hkept]
  split_ifs at hnext ⊢ <;> omega

theorem contents_push (a : α) (r : Ring α size) (hroom : next size r.head ≠ r.tail) :
    (r.push a).contents = r.contents ++ [a] := by
  rw [contents, count_push a r hroom, List.range_succ, List.map_append, contents]
  congr 1
  · apply List.map_congr_left
    intro i hi
    exact Function.update_of_ne (r.slot_ne_head (List.mem_range.mp hi)) _ _
  · have hslot : (r.push a).slot (((r.push a).tail + r.count) % size) = a := by
      change Function.update r.slot r.head a ((r.tail + r.count) % size) = a
      rw [tail_add_count, Function.update_self]
    rw [List.map_cons, List.map_nil, hslot]

theorem count_pop (r : Ring α size) (hne : r.head ≠ r.tail) : r.count = r.pop.count + 1 := by
  have hhead := r.head_lt
  have htail := r.tail_lt
  have hnext := next_eq htail
  have hkept : r.pop.head = r.head := rfl
  have hpopped : r.pop.tail = next size r.tail := rfl
  rw [count_eq, count_eq, hkept, hpopped]
  split_ifs at hnext ⊢ <;> omega

theorem contents_pop (r : Ring α size) (hne : r.head ≠ r.tail) :
    r.contents = r.slot r.tail :: r.pop.contents := by
  have hfirst : (r.tail + 0) % size = r.tail := Nat.mod_eq_of_lt r.tail_lt
  rw [contents, count_pop r hne, List.range_succ_eq_map, List.map_cons, hfirst, List.map_map,
    contents]
  congr 1
  apply List.map_congr_left
  intro i _
  have hindex : (r.tail + (i + 1)) % size = (next size r.tail + i) % size := by
    rw [next, Nat.mod_add_mod]
    congr 1
    omega
  change r.slot ((r.tail + (i + 1)) % size) = r.slot ((next size r.tail + i) % size)
  rw [hindex]

end Ring

end KernelFromScratch
