import Mathlib.Data.Nat.Digits.Lemmas
import Mathlib.Tactic.Ring

/-!
# Numerals

The canonical numeral of a number: its digits, the most significant first, without leading zeros but
with one digit for zero. Read as a number again, digits of one length are ordered as in a
dictionary.
-/

namespace KernelFromScratch

def numeral (base n : Nat) : List Nat :=
  if n = 0 then [0] else (Nat.digits base n).reverse

variable {base n : Nat}

theorem numeral_of_lt (hlt : n < base) : numeral base n = [n] := by
  rw [numeral]
  split_ifs with hzero
  · rw [hzero]
  · rw [Nat.digits_of_lt base n hzero hlt]
    rfl

/-- All digits but the last are those of the quotient. -/
theorem numeral_of_le (hbase : 1 < base) (hle : base ≤ n) :
    numeral base n = numeral base (n / base) ++ [n % base] := by
  have hpos : 0 < n := by omega
  have hquotient : 0 < n / base := Nat.div_pos hle (by omega)
  rw [numeral, if_neg hpos.ne', Nat.digits_def' hbase hpos, List.reverse_cons, numeral,
    if_neg hquotient.ne']

/-- A number below a power of the base has at most that many digits. -/
theorem numeral_length_le (hbase : 1 < base) {k : Nat} (hk : 0 < k) (hlt : n < base ^ k) :
    (numeral base n).length ≤ k := by
  rw [numeral]
  split_ifs with hzero
  · exact hk
  · rw [List.length_reverse]
    exact (Nat.digits_length_le_iff hbase n).mpr hlt

/-- The number that reading these digits after `start` gives. -/
def valueFrom (base start : Nat) (digits : List Nat) : Nat :=
  digits.foldl (fun value digit => value * base + digit) start

theorem valueFrom_concat (start : Nat) (digits : List Nat) (digit : Nat) :
    valueFrom base start (digits ++ [digit]) = valueFrom base start digits * base + digit := by
  rw [valueFrom, List.foldl_append]
  rfl

theorem valueFrom_eq (start : Nat) (digits : List Nat) :
    valueFrom base start digits = start * base ^ digits.length + valueFrom base 0 digits := by
  induction digits generalizing start with
  | nil => simp [valueFrom]
  | cons digit digits ih =>
      calc valueFrom base start (digit :: digits)
          = valueFrom base (start * base + digit) digits := rfl
        _ = (start * base + digit) * base ^ digits.length + valueFrom base 0 digits := ih _
        _ = start * base ^ (digit :: digits).length
              + (digit * base ^ digits.length + valueFrom base 0 digits) := by
            rw [List.length_cons, pow_succ]
            ring
        _ = start * base ^ (digit :: digits).length + valueFrom base digit digits := by
            rw [ih digit]
        _ = start * base ^ (digit :: digits).length + valueFrom base 0 (digit :: digits) := by
            rw [valueFrom, valueFrom, List.foldl_cons, Nat.zero_mul, Nat.zero_add]

theorem valueFrom_numeral (base n : Nat) : valueFrom base 0 (numeral base n) = n := by
  by_cases hzero : n = 0
  · rw [hzero, numeral, if_pos rfl, valueFrom, List.foldl_cons, Nat.zero_mul]
    rfl
  · have hstep : (fun (digit value : Nat) => value * base + digit)
        = fun digit value => digit + base * value := by
      funext digit value
      rw [Nat.mul_comm, Nat.add_comm]
    calc valueFrom base 0 (numeral base n)
        = (Nat.digits base n).foldr (fun digit value => value * base + digit) 0 := by
          rw [numeral, if_neg hzero, valueFrom, List.foldl_reverse]
      _ = Nat.ofDigits base (Nat.digits base n) := by
          rw [hstep, Nat.ofDigits_eq_foldr]
          rfl
      _ = n := Nat.ofDigits_digits base n

theorem mem_numeral_lt (hbase : 1 < base) {digit : Nat} (hdigit : digit ∈ numeral base n) :
    digit < base := by
  rw [numeral] at hdigit
  by_cases hzero : n = 0
  · rw [if_pos hzero, List.mem_singleton] at hdigit
    omega
  · rw [if_neg hzero, List.mem_reverse] at hdigit
    exact Nat.digits_lt_base hbase hdigit

theorem le_valueFrom (hbase : 0 < base) (start : Nat) (digits : List Nat) :
    start ≤ valueFrom base start digits := by
  rw [valueFrom_eq]
  have hpow : 1 ≤ base ^ digits.length := Nat.one_le_pow _ _ hbase
  calc start = start * 1 := (Nat.mul_one start).symm
    _ ≤ start * base ^ digits.length := Nat.mul_le_mul_left start hpow
    _ ≤ start * base ^ digits.length + valueFrom base 0 digits := Nat.le_add_right _ _

theorem valueFrom_lt {digits : List Nat} (hdigits : ∀ digit ∈ digits, digit < base) :
    valueFrom base 0 digits < base ^ digits.length := by
  induction digits using List.reverseRecOn with
  | nil => exact Nat.one_pos
  | append_singleton digits digit ih =>
      have hinit := ih fun d hd => hdigits d (List.mem_append_left _ hd)
      have hlast : digit < base := hdigits digit (by simp)
      rw [valueFrom_concat, List.length_append, List.length_singleton, pow_succ]
      calc valueFrom base 0 digits * base + digit
          < valueFrom base 0 digits * base + base := Nat.add_lt_add_left hlast _
        _ = (valueFrom base 0 digits + 1) * base := by ring
        _ ≤ base ^ digits.length * base := Nat.mul_le_mul_right base hinit

theorem valueFrom_lt_iff {first second : List Nat} (hfirst : ∀ digit ∈ first, digit < base)
    (hsecond : ∀ digit ∈ second, digit < base) (hlength : first.length = second.length) :
    valueFrom base 0 first < valueFrom base 0 second ↔ List.Lex (· < ·) first second := by
  induction first generalizing second with
  | nil =>
      obtain rfl := List.eq_nil_of_length_eq_zero hlength.symm
      simp
  | cons x first ih =>
      cases second with
      | nil => cases hlength
      | cons y second =>
          have hlength' : first.length = second.length := Nat.succ_inj.mp hlength
          have hbelow := valueFrom_lt fun d hd => hfirst d (List.mem_cons_of_mem _ hd)
          have hbelow' := valueFrom_lt fun d hd => hsecond d (List.mem_cons_of_mem _ hd)
          have hrest := ih (fun d hd => hfirst d (List.mem_cons_of_mem _ hd))
            (fun d hd => hsecond d (List.mem_cons_of_mem _ hd)) hlength'
          have hx : valueFrom base 0 (x :: first)
              = x * base ^ second.length + valueFrom base 0 first := by
            rw [valueFrom, List.foldl_cons, Nat.zero_mul, Nat.zero_add, ← hlength']
            exact valueFrom_eq x first
          have hy : valueFrom base 0 (y :: second)
              = y * base ^ second.length + valueFrom base 0 second := by
            rw [valueFrom, List.foldl_cons, Nat.zero_mul, Nat.zero_add]
            exact valueFrom_eq y second
          rw [List.cons_lex_cons_iff, hx, hy, ← hrest]
          rw [hlength'] at hbelow
          generalize base ^ second.length = scale at hbelow hbelow' ⊢
          rcases Nat.lt_trichotomy x y with hlt | heq | hgt
          · have hstep : (x + 1) * scale ≤ y * scale := Nat.mul_le_mul_right scale hlt
            rw [Nat.succ_mul] at hstep
            exact iff_of_true (by omega) (.inl hlt)
          · rw [heq]
            omega
          · have hstep : (y + 1) * scale ≤ x * scale := Nat.mul_le_mul_right scale hgt
            rw [Nat.succ_mul] at hstep
            exact iff_of_false (by omega) (by omega)

end KernelFromScratch
