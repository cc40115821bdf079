import KernelFromScratch.Printk
import KernelFromScratch.Library.Numeral

/-!
# The digit loops

`nbrlen` and `hexlen` count the digits that `putunbr`, `putnbr` and `puthex` print, and each of these
prints the canonical numeral.
-/

namespace KernelFromScratch

/-- The characters of a digit below 16. -/
def digitChar (digit : Nat) : UInt8 := hexDigits.getD digit 0

def decimal (n : Nat) : List UInt8 := (numeral 10 n).map digitChar

def hexadecimal (n : Nat) : List UInt8 := (numeral 16 n).map digitChar

namespace Sent

/-- Characters sent one by one. -/
def of (chars : List UInt8) : Sent := ⟨chars, .ofNat chars.length⟩

theorem nothing_eq : nothing = of [] := rfl

theorem add_of (first second : List UInt8) : (of first).add (of second) = of (first ++ second) := by
  rw [add, of, of, of, List.length_append, UInt64.ofNat_add]

theorem put_of (chars : List UInt8) (c : UInt8) : (of chars).put c = of (chars ++ [c]) :=
  add_of chars [c]

end Sent

theorem putchar_eq (c : UInt8) : putchar c = .of [c] := rfl

theorem putText_eq {s : List UInt8} (hlength : s.length < 2 ^ 32) : putText s = .of s := by
  have hcount : (strlen s).toUInt64 = .ofNat s.length := by
    apply UInt64.toNat_inj.mp
    rw [UInt32.toNat_toUInt64, strlen, UInt32.toNat_ofNat_of_lt' hlength,
      UInt64.toNat_ofNat_of_lt' (lt_trans hlength (by decide))]
  rw [putText, hcount, Sent.of]

theorem putstr_eq (strings : UInt32 → CString) (s : UInt32) :
    putstr strings s = .of (if s = 0 then str "(null)" else (strings s).chars) := by
  rw [putstr]
  split_ifs
  · exact putText_eq (by decide)
  · exact putText_eq (strings s).length_lt

theorem putDigits_eq (digits chars : List UInt8) :
    putDigits digits (.of chars) = .of (chars ++ digits.reverse) := by
  rw [putDigits]
  generalize digits.reverse = digits
  induction digits generalizing chars with
  | nil => rw [List.foldl_nil, List.append_nil]
  | cons digit digits ih =>
      rw [List.foldl_cons, Sent.put_of, ih, List.append_assoc]
      rfl

section Padding

theorem putpaddingLoop_eq (length width count : UInt32) (pad : UInt8) (chars : List UInt8) :
    putpaddingLoop length width count pad (.of chars)
      = .of (chars ++ List.replicate (width.toNat - (length + count).toNat) pad) := by
  induction hmissing : width.toNat - (length + count).toNat generalizing count chars with
  | zero =>
      have hge : ¬length + count < width := by
        rw [UInt32.lt_iff_toNat_lt]
        omega
      rw [putpaddingLoop, if_neg hge, List.replicate_zero, List.append_nil]
  | succ missing ih =>
      have hlt : length + count < width := by
        rw [UInt32.lt_iff_toNat_lt]
        omega
      have hnext : (length + (count + 1)).toNat = (length + count).toNat + 1 := by
        have hwidth := width.toNat_lt
        rw [← UInt32.add_assoc, UInt32.toNat_add]
        change ((length + count).toNat + 1) % 2 ^ 32 = _
        exact Nat.mod_eq_of_lt (by omega)
      rw [putpaddingLoop, if_pos hlt, Sent.put_of, ih (count + 1) (chars ++ [pad]) (by omega),
        List.append_assoc, List.replicate_succ]
      rfl

theorem putpadding_eq (length width : UInt32) (pad : UInt8) :
    putpadding length width pad = .of (List.replicate (width.toNat - length.toNat) pad) := by
  rw [putpadding, Sent.nothing_eq, putpaddingLoop_eq, UInt32.add_zero, List.nil_append]

end Padding

section Lengths

theorem nbrlenLoop_eq (number length : UInt32) :
    nbrlenLoop number length + 1 = length + .ofNat (numeral 10 number.toNat).length := by
  induction number, length using nbrlenLoop.induct with
  | case1 number length hle ih =>
      have hten : 10 ≤ number.toNat := UInt32.le_iff_toNat_le.mp hle
      have hquotient : (number / 10).toNat = number.toNat / 10 := UInt32.toNat_div _ _
      rw [nbrlenLoop, if_pos hle, ih, hquotient, numeral_of_le (by decide) hten,
        List.length_append, UInt32.ofNat_add, UInt32.add_assoc, UInt32.add_comm 1]
      rfl
  | case2 number length hgt =>
      have hten : number.toNat < 10 := by
        rw [UInt32.le_iff_toNat_le] at hgt
        exact Nat.lt_of_not_le hgt
      rw [nbrlenLoop, if_neg hgt, numeral_of_lt hten]
      rfl

theorem nbrlen_eq (number : UInt32) : nbrlen number = .ofNat (decimal number.toNat).length := by
  have hloop := nbrlenLoop_eq number 1
  rw [UInt32.add_comm 1, UInt32.add_left_inj] at hloop
  rw [nbrlen, hloop, decimal, List.length_map]

theorem shift_toNat (number : UInt64) : (number >>> 4).toNat = number.toNat / 16 := by
  rw [UInt64.toNat_shiftRight, Nat.shiftRight_eq_div_pow]
  rfl

theorem hexlenLoop_eq (number : UInt64) (length : UInt32) :
    hexlenLoop number length + 1 = length + .ofNat (numeral 16 number.toNat).length := by
  induction number, length using hexlenLoop.induct with
  | case1 number length hne ih =>
      have hsixteen : 16 ≤ number.toNat := by
        have hpos : (number >>> 4).toNat ≠ 0 := fun h => hne (UInt64.toNat_inj.mp h)
        rw [shift_toNat] at hpos
        omega
      rw [hexlenLoop, if_pos hne, ih, shift_toNat, numeral_of_le (by decide) hsixteen,
        List.length_append, UInt32.ofNat_add, UInt32.add_assoc, UInt32.add_comm 1]
      rfl
  | case2 number length heq =>
      have hsixteen : number.toNat < 16 := by
        have hzero : (number >>> 4).toNat = 0 := congrArg UInt64.toNat (not_not.mp heq)
        rw [shift_toNat] at hzero
        omega
      rw [hexlenLoop, if_neg heq, numeral_of_lt hsixteen]
      rfl

theorem hexlen_eq (number : UInt64) : hexlen number = .ofNat (hexadecimal number.toNat).length := by
  have hloop := hexlenLoop_eq number 1
  rw [UInt32.add_comm 1, UInt32.add_left_inj] at hloop
  rw [hexlen, hloop, hexadecimal, List.length_map]

theorem decimal_length_le (number : UInt32) : (decimal number.toNat).length ≤ 10 := by
  rw [decimal, List.length_map]
  exact numeral_length_le (by decide) (by decide) (lt_trans number.toNat_lt (by decide))

theorem hexadecimal_length_le (number : UInt64) : (hexadecimal number.toNat).length ≤ 16 := by
  rw [hexadecimal, List.length_map]
  exact numeral_length_le (by decide) (by decide) (lt_of_lt_of_le number.toNat_lt (by decide))

end Lengths

section Digits

theorem decimalDigit_eq (number : UInt32) :
    decimalDigit number = digitChar (number.toNat % 10) := by
  have hdigits : ∀ digit < 10, chr '0' + (UInt32.ofNat digit).toUInt8 = digitChar digit := by
    decide
  have hremainder : number % 10 = .ofNat (number.toNat % 10) := by
    apply UInt32.toNat_inj.mp
    rw [UInt32.toNat_mod, UInt32.toNat_ofNat_of_lt' (lt_trans (Nat.mod_lt _ (by decide)) (by decide))]
    rfl
  rw [decimalDigit, hremainder]
  exact hdigits _ (Nat.mod_lt _ (by decide))

theorem putunbrDigits_eq (number : UInt32) :
    putunbrDigits number = (decimal number.toNat).reverse := by
  induction number using putunbrDigits.induct with
  | case1 number hlt ih =>
      have hquotient : (number / 10).toNat = number.toNat / 10 := UInt32.toNat_div _ _
      have hten : 10 ≤ number.toNat := by
        have hpos : 0 < (number / 10).toNat := UInt32.lt_iff_toNat_lt.mp hlt
        omega
      rw [putunbrDigits, if_pos hlt, ih, hquotient, decimalDigit_eq, decimal, decimal,
        numeral_of_le (by decide) hten, List.map_append, List.reverse_append]
      rfl
  | case2 number hzero =>
      have hten : number.toNat < 10 := by
        have hquotient : (number / 10).toNat = number.toNat / 10 := UInt32.toNat_div _ _
        rw [UInt32.lt_iff_toNat_lt, hquotient] at hzero
        change ¬0 < number.toNat / 10 at hzero
        omega
      rw [putunbrDigits, if_neg hzero, decimalDigit_eq, decimal, numeral_of_lt hten,
        Nat.mod_eq_of_lt hten]
      rfl

theorem putnbrDigits_eq (number : UInt32) :
    putnbrDigits number = (Nat.digits 10 number.toNat).map digitChar := by
  induction number using putnbrDigits.induct with
  | case1 number hpos ih =>
      have hquotient : (number / 10).toNat = number.toNat / 10 := UInt32.toNat_div _ _
      rw [putnbrDigits, if_pos hpos, ih, hquotient, decimalDigit_eq,
        Nat.digits_def' (by decide) (UInt32.lt_iff_toNat_lt.mp hpos)]
      rfl
  | case2 number hzero =>
      have hnumber : number.toNat = 0 := by
        rw [UInt32.lt_iff_toNat_lt] at hzero
        exact Nat.eq_zero_of_not_pos hzero
      rw [putnbrDigits, if_neg hzero, hnumber, Nat.digits_zero]
      rfl

theorem puthexDigits_eq (number : UInt64) :
    puthexDigits number = (Nat.digits 16 number.toNat).map digitChar := by
  induction number using puthexDigits.induct with
  | case1 number hne ih =>
      have hpos : 0 < number.toNat := Nat.pos_of_ne_zero fun h => hne (UInt64.toNat_inj.mp h)
      have hdigit : (number &&& 0xf).toNat = number.toNat % 16 := by
        rw [UInt64.toNat_and]
        exact Nat.and_two_pow_sub_one_eq_mod number.toNat 4
      rw [puthexDigits, if_pos hne, ih, shift_toNat, hdigit, Nat.digits_def' (by decide) hpos]
      rfl
  | case2 number hzero =>
      rw [puthexDigits, if_neg hzero, not_not.mp hzero]
      change [] = (Nat.digits 16 0).map digitChar
      rw [Nat.digits_zero]
      rfl

theorem decimal_of_pos {n : Nat} (hpos : n ≠ 0) :
    decimal n = ((Nat.digits 10 n).map digitChar).reverse := by
  rw [decimal, numeral, if_neg hpos, List.map_reverse]

theorem hexadecimal_of_pos {n : Nat} (hpos : n ≠ 0) :
    hexadecimal n = ((Nat.digits 16 n).map digitChar).reverse := by
  rw [hexadecimal, numeral, if_neg hpos, List.map_reverse]

theorem putunbr_eq (number : UInt32) : putunbr number = .of (decimal number.toNat) := by
  rw [putunbr, Sent.nothing_eq, putDigits_eq, putunbrDigits_eq, List.reverse_reverse,
    List.nil_append]

theorem puthex_eq (number : UInt64) : puthex number = .of (hexadecimal number.toNat) := by
  rw [puthex]
  split_ifs with hzero
  · rw [hzero]
    rfl
  · have hpos : number.toNat ≠ 0 := fun h => hzero (UInt64.toNat_inj.mp h)
    rw [Sent.nothing_eq, putDigits_eq, puthexDigits_eq, hexadecimal_of_pos hpos, List.nil_append]

end Digits

section Signed

/-- The decimal of a number, with a `-` before a negative one. -/
def signedDecimal (number : Int) : List UInt8 :=
  (if number < 0 then [chr '-'] else []) ++ decimal number.natAbs

theorem isdigit_of_mem_decimal {c : UInt8} {n : Nat} (hc : c ∈ decimal n) : isdigit c = true := by
  have hdigits : ∀ digit < 10, isdigit (digitChar digit) = true := by decide
  obtain ⟨digit, hdigit, rfl⟩ := List.mem_map.mp hc
  exact hdigits digit (mem_numeral_lt (by decide) hdigit)

theorem decimal_injective {n n' : Nat} (heq : decimal n = decimal n') : n = n' := by
  have hvalue : ∀ digit < 10, (digitChar digit - chr '0').toNat = digit := by decide
  have hnumeral : ∀ n, (decimal n).map (fun c => (c - chr '0').toNat) = numeral 10 n := by
    intro n
    calc (decimal n).map (fun c => (c - chr '0').toNat)
        = (numeral 10 n).map ((fun c => (c - chr '0').toNat) ∘ digitChar) := by
          rw [decimal, List.map_map]
      _ = (numeral 10 n).map id :=
          List.map_congr_left fun digit hdigit =>
            hvalue digit (mem_numeral_lt (by decide) hdigit)
      _ = numeral 10 n := List.map_id _
  calc n = valueFrom 10 0 (numeral 10 n) := (valueFrom_numeral 10 n).symm
    _ = valueFrom 10 0 (numeral 10 n') := by rw [← hnumeral n, heq, hnumeral n']
    _ = n' := valueFrom_numeral 10 n'

/-- A negative number has a sign, which no decimal has. -/
theorem signedDecimal_eq_decimal_iff {z : Int} {n : Nat} : signedDecimal z = decimal n ↔ z = n := by
  rw [signedDecimal]
  by_cases hneg : z < 0
  · rw [if_pos hneg]
    refine iff_of_false (fun heq => ?_) (by omega)
    have hminus : chr '-' ∈ decimal n := by
      rw [← heq]
      exact List.mem_cons_self
    exact absurd (isdigit_of_mem_decimal hminus) (by decide)
  · rw [if_neg hneg, List.nil_append]
    constructor
    · intro heq
      have habs := decimal_injective heq
      omega
    · rintro rfl
      rw [Int.natAbs_natCast]

variable {number : Int}

theorem uint32_of_nonneg (hle : 0 ≤ number) (hlt : number < 2 ^ 31) :
    (UInt32.ofNat (uint32 number)).toNat = number.natAbs := by
  have huint : uint32 number = number.natAbs := by
    rw [uint32, Int.emod_eq_of_lt hle (by omega)]
    omega
  have hfits : number.natAbs < 2 ^ 32 := by omega
  rw [huint]
  exact UInt32.toNat_ofNat_of_lt' hfits

/-- No step overflows, for the minimum either. -/
theorem negated_toNat (hneg : number < 0) (hle : -2 ^ 31 ≤ number) :
    (negated number).toNat = number.natAbs := by
  have hpred : (UInt32.ofNat (uint32 (-(number + 1)))).toNat = (-(number + 1)).natAbs :=
    uint32_of_nonneg (by omega) (by omega)
  rw [negated, UInt32.toNat_add, hpred]
  change ((-(number + 1)).natAbs + 1) % 2 ^ 32 = number.natAbs
  rw [Nat.mod_eq_of_lt (by omega)]
  omega

theorem putnbr_eq (hle : -2 ^ 31 ≤ number) (hlt : number < 2 ^ 31) :
    putnbr number = .of (signedDecimal number) := by
  rw [putnbr, signedDecimal]
  by_cases hzero : number = 0
  · rw [if_pos hzero, hzero]
    rfl
  rw [if_neg hzero]
  have habs : number.natAbs ≠ 0 := Int.natAbs_ne_zero.mpr hzero
  by_cases hneg : number < 0
  · rw [if_pos hneg, if_pos hneg, putnbrDigits_eq, negated_toNat hneg hle, Sent.nothing_eq,
      Sent.put_of, putDigits_eq, decimal_of_pos habs]
    rfl
  · rw [if_neg hneg, if_neg hneg, putnbrDigits_eq, uint32_of_nonneg (by omega) hlt,
      Sent.nothing_eq, putDigits_eq, decimal_of_pos habs]

end Signed

end KernelFromScratch
