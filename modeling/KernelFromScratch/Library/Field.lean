import KernelFromScratch.Library.Numeral

/-!
# Fields of a text

A text of lines, with numerals of a fixed width at fixed columns. Reading a column gives the number
that was written there, or nothing where no numeral stands.
-/

namespace KernelFromScratch

variable {α : Type*}

/-! ### Lines -/

def joinLines (separator : α) (lines : List (List α)) : List α :=
  lines.flatMap fun line => line ++ [separator]

theorem joinLines_append (separator : α) (lines lines' : List (List α)) :
    joinLines separator (lines ++ lines')
      = joinLines separator lines ++ joinLines separator lines' := List.flatMap_append

/-- A text that ends with the separator splits into its lines and an empty one. -/
theorem splitOn_joinLines [DecidableEq α] {separator : α} {lines : List (List α)}
    (hlines : ∀ line ∈ lines, separator ∉ line) :
    (joinLines separator lines).splitOn separator = lines ++ [[]] := by
  have hjoined : joinLines separator lines = [separator].intercalate (lines ++ [[]]) := by
    clear hlines
    induction lines with
    | nil => rfl
    | cons line lines ih =>
        have hrest : lines ++ [[]] ≠ [] := List.append_ne_nil_of_right_ne_nil lines (by simp)
        obtain ⟨first, rest, heq⟩ := List.exists_cons_of_ne_nil hrest
        calc joinLines separator (line :: lines)
            = line ++ [separator] ++ joinLines separator lines := rfl
          _ = line ++ [separator] ++ [separator].intercalate (lines ++ [[]]) := by rw [ih]
          _ = [separator].intercalate (line :: (lines ++ [[]])) := by
              rw [heq, List.intercalate_cons_cons]
  rw [hjoined]
  apply List.splitOn_intercalate
  · intro line hline
    rcases List.mem_append.mp hline with hline | hline
    · exact hlines line hline
    · rw [List.mem_singleton.mp hline]
      exact List.not_mem_nil
  · exact List.append_ne_nil_of_right_ne_nil lines (by simp)

/-! ### Sections -/

/-- The lines after the heading and the lines under it that are skipped, up to the next empty line. -/
def sectionOf [DecidableEq α] (heading : List α) (skip : Nat) (lines : List (List α)) :
    List (List α) :=
  (((lines.dropWhile (· ≠ heading)).drop 1).drop skip).takeWhile (· ≠ [])

theorem sectionOf_eq [DecidableEq α] {heading : List α} {before skipped rows after : List (List α)}
    (hbefore : heading ∉ before) (hrows : [] ∉ rows) :
    sectionOf heading skipped.length (before ++ heading :: (skipped ++ (rows ++ [] :: after)))
      = rows := by
  have hdrop : (before ++ heading :: (skipped ++ (rows ++ [] :: after))).dropWhile (· ≠ heading)
      = heading :: (skipped ++ (rows ++ [] :: after)) := by
    rw [List.dropWhile_append_of_pos]
    · exact List.dropWhile_cons_of_neg (by simp)
    · intro line hline
      have hne : line ≠ heading := ne_of_mem_of_not_mem hline hbefore
      exact decide_eq_true hne
  rw [sectionOf, hdrop, List.drop_one, List.tail_cons, List.drop_left]
  rw [List.takeWhile_append_of_pos]
  · rw [List.takeWhile_cons_of_neg (by simp), List.append_nil]
  · intro line hline
    have hne : line ≠ [] := ne_of_mem_of_not_mem hline hrows
    exact decide_eq_true hne

/-! ### Numerals -/

section Numerals

variable (base : Nat) (digit : Nat → α) (value : α → Option Nat)

/-- The numeral of `n`, with zeros in front up to the width. -/
def padded (width n : Nat) : List α :=
  List.replicate (width - (numeral base n).length) (digit 0) ++ (numeral base n).map digit

/-- The number that the digits in the columns from `column` on denote. -/
def readField (width column : Nat) (line : List α) : Option Nat :=
  let digits := (line.drop column).take width
  if digits.length = width then (digits.mapM value).map (valueFrom base 0) else none

variable {base digit value} {width n : Nat}

theorem length_padded (hbase : 1 < base) (hwidth : 0 < width) (hlt : n < base ^ width) :
    (padded base digit width n).length = width := by
  have hle := numeral_length_le hbase hwidth hlt
  rw [padded, List.length_append, List.length_replicate, List.length_map]
  omega

theorem valueFrom_zeros (count : Nat) (digits : List Nat) :
    valueFrom base 0 (List.replicate count 0 ++ digits) = valueFrom base 0 digits := by
  induction count with
  | zero => rfl
  | succ count ih =>
      rw [← ih, List.replicate_succ, List.cons_append, valueFrom, List.foldl_cons, Nat.zero_mul]
      rfl

theorem mapM_digits (hvalue : ∀ d < base, value (digit d) = some d) {digits : List Nat}
    (hdigits : ∀ d ∈ digits, d < base) : (digits.map digit).mapM value = some digits := by
  induction digits with
  | nil => rfl
  | cons d digits ih =>
      have hfirst := hvalue d (hdigits d List.mem_cons_self)
      have hrest := ih fun d hd => hdigits d (List.mem_cons_of_mem _ hd)
      rw [List.map_cons, List.mapM_cons, hfirst, hrest]
      rfl

theorem mapM_padded (hbase : 1 < base) (hvalue : ∀ d < base, value (digit d) = some d) :
    ((padded base digit width n).mapM value).map (valueFrom base 0) = some n := by
  have hdigits : ∀ d ∈ List.replicate (width - (numeral base n).length) 0 ++ numeral base n,
      d < base := by
    intro d hd
    rcases List.mem_append.mp hd with hzero | hd
    · rw [(List.mem_replicate.mp hzero).2]
      omega
    · exact mem_numeral_lt hbase hd
  have hmap : padded base digit width n
      = (List.replicate (width - (numeral base n).length) 0 ++ numeral base n).map digit := by
    rw [padded, List.map_append, List.map_replicate]
  rw [hmap, mapM_digits hvalue hdigits, Option.map_some, valueFrom_zeros, valueFrom_numeral]

theorem readField_padded (hbase : 1 < base) (hvalue : ∀ d < base, value (digit d) = some d)
    (hwidth : 0 < width) (hlt : n < base ^ width) (before after : List α) :
    readField base value width before.length (before ++ padded base digit width n ++ after)
      = some n := by
  have hlength : (padded base digit width n).length = width := length_padded hbase hwidth hlt
  have hdigits : ((before ++ padded base digit width n ++ after).drop before.length).take width
      = padded base digit width n := by
    rw [List.append_assoc, List.drop_left, List.take_append_of_le_length hlength.ge,
      List.take_of_length_le hlength.le]
  simp only [readField, hdigits]
  rw [if_pos hlength, mapM_padded hbase hvalue]

/-- No numeral stands in a field that does not start with a digit. -/
theorem readField_blank {c : α} (hc : value c = none) (hwidth : 0 < width) (before after : List α) :
    readField base value width before.length (before ++ c :: after) = none := by
  obtain ⟨width, rfl⟩ := Nat.exists_eq_succ_of_ne_zero hwidth.ne'
  simp only [readField, List.drop_left, List.take_succ_cons]
  split_ifs
  · rw [List.mapM_cons, hc]
    rfl
  · rfl

end Numerals

end KernelFromScratch
