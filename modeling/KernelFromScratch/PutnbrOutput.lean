import KernelFromScratch.Formatting

/-!
# Printing a number by reversing it

`terminal_putnbr_output` of `terminal.c`. It collects the digits of the number in a second `int32_t`,
the last digit first, and prints that one from its end. An operation on `int32_t` wraps; its exact
result is recorded, so that an overflow can be told afterwards.
-/

namespace KernelFromScratch

def IsInt32 (z : Int) : Prop := -2 ^ 31 ≤ z ∧ z < 2 ^ 31

instance (z : Int) : Decidable (IsInt32 z) := inferInstanceAs (Decidable (_ ∧ _))

/-- What is stored for an exact result. -/
def wrap32 (z : Int) : Int := z.bmod (2 ^ 32)

/-- The characters handed to `putc`, and the exact results of the arithmetic. -/
structure PutnbrOutput where
  chars : List UInt8
  results : List Int
  deriving DecidableEq

structure ReverseRun where
  reversedNumber : Int
  digitCount : Int
  results : List Int
  deriving DecidableEq

/-- `while (number > 0)`. -/
def reverseLoop (number : Int) (run : ReverseRun) : ReverseRun :=
  if 0 < number then
    let product := run.reversedNumber * 10
    let sum := wrap32 product + number.tmod 10
    reverseLoop (number.tdiv 10)
      ⟨wrap32 sum, wrap32 (run.digitCount + 1), product :: sum :: (run.digitCount + 1) :: run.results⟩
  else
    run
termination_by number.toNat
decreasing_by
  rename_i hpos
  rw [Int.tdiv_eq_ediv_of_nonneg hpos.le]
  omega

/-- The last `count` turns of `for (i = 0; i < digit_count; i++)`. -/
def sendLoop : Nat → Int → Int → PutnbrOutput
  | 0, _, _ => ⟨[], []⟩
  | count + 1, i, reversedNumber =>
    let digit := 48 + reversedNumber.tmod 10
    let rest := sendLoop count (wrap32 (i + 1)) (reversedNumber.tdiv 10)
    ⟨.ofNat (uint32 digit) :: rest.chars, digit :: (i + 1) :: rest.results⟩

/-- The part of `terminal_putnbr_output` below the tests for zero and for a sign. -/
def sendReversed (number : Int) : PutnbrOutput :=
  let run := reverseLoop number ⟨0, 0, []⟩
  let sent := sendLoop run.digitCount.toNat 0 run.reversedNumber
  ⟨sent.chars, run.results ++ sent.results⟩

def putnbrOutput (number : Int) : PutnbrOutput :=
  if number = 0 then
    ⟨[chr '0'], []⟩
  else if number < 0 then
    let sent := sendReversed (wrap32 (-number))
    ⟨chr '-' :: sent.chars, -number :: sent.results⟩
  else
    sendReversed number

/-- The characters reach the terminal one by one. -/
def Terminal.putnbrOutput (number : Int) (t : Terminal) : Terminal :=
  (KernelFromScratch.putnbrOutput number).chars.foldl (fun t c => t.putc c) t

theorem wrap32_of_isInt32 {z : Int} (hz : IsInt32 z) : wrap32 z = z :=
  Int.bmod_eq_of_le hz.1 hz.2

theorem isInt32_natCast {n : Nat} (hlt : n < 2 ^ 31) : IsInt32 n := ⟨by omega, by omega⟩

theorem reverseLoop_of_pos {number : Int} (hpos : 0 < number) (run : ReverseRun) :
    reverseLoop number run = reverseLoop (number.tdiv 10)
      ⟨wrap32 (wrap32 (run.reversedNumber * 10) + number.tmod 10), wrap32 (run.digitCount + 1),
        run.reversedNumber * 10 :: (wrap32 (run.reversedNumber * 10) + number.tmod 10)
          :: (run.digitCount + 1) :: run.results⟩ := by
  rw [reverseLoop, if_pos hpos]

theorem reverseLoop_of_not_pos {number : Int} (hpos : ¬0 < number) (run : ReverseRun) :
    reverseLoop number run = run := by
  rw [reverseLoop, if_neg hpos]

theorem mem_results_reverseLoop {number result : Int} {run : ReverseRun}
    (hmem : result ∈ run.results) : result ∈ (reverseLoop number run).results := by
  induction number, run using reverseLoop.induct with
  | case1 number run hpos product sum ih =>
      rw [reverseLoop_of_pos hpos]
      exact ih (List.mem_cons_of_mem _ (List.mem_cons_of_mem _ (List.mem_cons_of_mem _ hmem)))
  | case2 number run hpos =>
      rwa [reverseLoop_of_not_pos hpos]

/-- A turn in which nothing overflows. -/
theorem reverseLoop_turn {m r c : Nat} {results : List Int} (hpos : 0 < m)
    (hfits : r * 10 + m % 10 < 2 ^ 31) (hcount : c + 1 < 2 ^ 31) :
    reverseLoop m ⟨r, c, results⟩
      = reverseLoop (m / 10 : Nat) ⟨(r * 10 + m % 10 : Nat), (c + 1 : Nat),
          (r * 10 : Nat) :: (r * 10 + m % 10 : Nat) :: (c + 1 : Nat) :: results⟩ := by
  have hproduct : wrap32 ((r : Int) * 10) = (r * 10 : Nat) :=
    wrap32_of_isInt32 (isInt32_natCast (n := r * 10) (by omega))
  have hsum : wrap32 (((r * 10 : Nat) : Int) + (m % 10 : Nat)) = (r * 10 + m % 10 : Nat) := by
    rw [← Nat.cast_add]
    exact wrap32_of_isInt32 (isInt32_natCast hfits)
  have hnext : wrap32 ((c : Int) + 1) = (c + 1 : Nat) :=
    wrap32_of_isInt32 (isInt32_natCast (n := c + 1) hcount)
  have hquotient : (m : Int).tdiv 10 = (m / 10 : Nat) := rfl
  have hremainder : (m : Int).tmod 10 = (m % 10 : Nat) := rfl
  rw [reverseLoop_of_pos (Int.natCast_pos.mpr hpos), hquotient, hremainder, hproduct, hsum, hnext,
    ← Nat.cast_add]
  rfl

/-- A turn that overflows is seen in the results. -/
theorem reverseLoop_overflow {m r c : Nat} {results : List Int} (hpos : 0 < m)
    (hlarge : ¬r * 10 + m % 10 < 2 ^ 31) :
    ¬∀ z ∈ (reverseLoop m ⟨r, c, results⟩).results, IsInt32 z := by
  intro hall
  have hremainder : (m : Int).tmod 10 = (m % 10 : Nat) := rfl
  rw [reverseLoop_of_pos (Int.natCast_pos.mpr hpos), hremainder] at hall
  have hproduct : IsInt32 ((r : Int) * 10) := hall _ (mem_results_reverseLoop (by simp))
  have hsum : IsInt32 (wrap32 ((r : Int) * 10) + (m % 10 : Nat)) :=
    hall _ (mem_results_reverseLoop (by simp))
  rw [wrap32_of_isInt32 hproduct] at hsum
  have hsumLt := hsum.2
  omega

theorem forall_isInt32_turn {m r c : Nat} {results : List Int}
    (hfits : r * 10 + m % 10 < 2 ^ 31) (hcount : c + 1 < 2 ^ 31) :
    (∀ z ∈ ((r * 10 : Nat) : Int) :: ((r * 10 + m % 10 : Nat) : Int) :: ((c + 1 : Nat) : Int)
        :: results, IsInt32 z) ↔ ∀ z ∈ results, IsInt32 z := by
  constructor
  · intro hall z hz
    exact hall z (by simp [hz])
  · intro hall z hz
    simp only [List.mem_cons] at hz
    rcases hz with rfl | rfl | rfl | hz
    · exact isInt32_natCast (lt_of_le_of_lt (Nat.le_add_right _ _) hfits)
    · exact isInt32_natCast hfits
    · exact isInt32_natCast hcount
    · exact hall z hz

/-- Nothing overflows exactly when the digits read from the last one on fit, and then the loop
reads them so. -/
theorem reverseLoop_spec {m r c : Nat} {results : List Int} (hr : r < 2 ^ 31)
    (hc : c + (Nat.digits 10 m).length < 2 ^ 31) :
    ((∀ z ∈ (reverseLoop m ⟨r, c, results⟩).results, IsInt32 z)
      ↔ (∀ z ∈ results, IsInt32 z) ∧ valueFrom 10 r (Nat.digits 10 m) < 2 ^ 31)
    ∧ (valueFrom 10 r (Nat.digits 10 m) < 2 ^ 31 →
      (reverseLoop m ⟨r, c, results⟩).reversedNumber = valueFrom 10 r (Nat.digits 10 m)
        ∧ (reverseLoop m ⟨r, c, results⟩).digitCount = (c + (Nat.digits 10 m).length : Nat)) := by
  induction m using Nat.strong_induction_on generalizing r c results with
  | _ m ih =>
      by_cases hpos : 0 < m
      · have hdigits : Nat.digits 10 m = m % 10 :: Nat.digits 10 (m / 10) :=
          Nat.digits_def' (by decide) hpos
        have hvalue : valueFrom 10 r (Nat.digits 10 m)
            = valueFrom 10 (r * 10 + m % 10) (Nat.digits 10 (m / 10)) := by
          rw [hdigits]
          rfl
        have hlength : (Nat.digits 10 m).length = (Nat.digits 10 (m / 10)).length + 1 := by
          rw [hdigits, List.length_cons]
        by_cases hfits : r * 10 + m % 10 < 2 ^ 31
        · have hcount : c + 1 < 2 ^ 31 := by omega
          obtain ⟨hresults, hends⟩ := @ih (m / 10) (Nat.div_lt_self hpos (by decide))
            (r * 10 + m % 10) (c + 1)
            ((r * 10 : Nat) :: (r * 10 + m % 10 : Nat) :: (c + 1 : Nat) :: results)
            hfits (by omega)
          rw [reverseLoop_turn hpos hfits hcount, hvalue]
          refine ⟨hresults.trans (and_congr_left' (forall_isInt32_turn hfits hcount)), ?_⟩
          intro hlt
          obtain ⟨hreversed, hdigitCount⟩ := hends hlt
          refine ⟨hreversed, hdigitCount.trans ?_⟩
          rw [hlength]
          omega
        · have hlarge : ¬valueFrom 10 r (Nat.digits 10 m) < 2 ^ 31 := by
            rw [hvalue]
            have hle := @le_valueFrom 10 (by decide) (r * 10 + m % 10) (Nat.digits 10 (m / 10))
            exact Nat.not_lt.mpr (le_trans (Nat.not_lt.mp hfits) hle)
          exact ⟨iff_of_false (reverseLoop_overflow hpos hfits) fun h => hlarge h.2,
            fun h => absurd h hlarge⟩
      · obtain rfl : m = 0 := Nat.eq_zero_of_not_pos hpos
        rw [reverseLoop_of_not_pos (by decide), Nat.digits_zero]
        exact ⟨(and_iff_left hr).symm, fun _ => ⟨rfl, rfl⟩⟩

theorem isInt32_results_sendLoop {count i : Nat} (hi : i + count < 2 ^ 31) (reversedNumber : Int) :
    ∀ z ∈ (sendLoop count i reversedNumber).results, IsInt32 z := by
  induction count generalizing i reversedNumber with
  | zero =>
      intro z hz
      cases hz
  | succ count ih =>
      have hnext : wrap32 ((i : Int) + 1) = (i + 1 : Nat) :=
        wrap32_of_isInt32 (isInt32_natCast (n := i + 1) (by omega))
      intro z hz
      rw [sendLoop, hnext] at hz
      simp only [List.mem_cons] at hz
      rcases hz with rfl | rfl | hz
      · have hlow := Int.lt_tmod_of_pos reversedNumber (b := 10) (by decide)
        have hhigh := Int.tmod_lt_of_pos reversedNumber (b := 10) (by decide)
        exact ⟨by omega, by omega⟩
      · exact isInt32_natCast (n := i + 1) (by omega)
      · exact ih (by omega) _ z hz

/-- The digits come out in the reverse of the order they were collected in. -/
theorem chars_sendLoop {digits : List Nat} (hdigits : ∀ digit ∈ digits, digit < 10) (i : Int) :
    (sendLoop digits.length i (valueFrom 10 0 digits)).chars = (digits.map digitChar).reverse := by
  have hchar : ∀ digit : Nat, digit < 10 →
      UInt8.ofNat (uint32 (48 + (digit : Int))) = digitChar digit := by
    decide
  induction digits using List.reverseRecOn generalizing i with
  | nil => rfl
  | append_singleton digits digit ih =>
      have hlt : digit < 10 := hdigits digit (by simp)
      have hlast : (valueFrom 10 0 digits * 10 + digit) % 10 = digit := by omega
      have hinit : (valueFrom 10 0 digits * 10 + digit) / 10 = valueFrom 10 0 digits := by omega
      rw [List.length_append, List.length_singleton, valueFrom_concat, sendLoop]
      change UInt8.ofNat (uint32 (48 + ((valueFrom 10 0 digits * 10 + digit) % 10 : Nat)))
        :: (sendLoop digits.length _ ((valueFrom 10 0 digits * 10 + digit) / 10 : Nat)).chars = _
      rw [hlast, hinit, hchar digit hlt, ih fun d hd => hdigits d (List.mem_append_left _ hd),
        List.map_append, List.reverse_append]
      rfl

theorem sendReversed_spec {m : Nat} (hm : m < 10 ^ 10) :
    ((∀ z ∈ (sendReversed m).results, IsInt32 z) ↔ valueFrom 10 0 (Nat.digits 10 m) < 2 ^ 31)
      ∧ (valueFrom 10 0 (Nat.digits 10 m) < 2 ^ 31 →
        (sendReversed m).chars = ((Nat.digits 10 m).map digitChar).reverse) := by
  have hlength : (Nat.digits 10 m).length ≤ 10 := (Nat.digits_length_le_iff (by decide) m).mpr hm
  obtain ⟨hresults, hends⟩ := @reverseLoop_spec m 0 0 [] (by decide) (by omega)
  simp only [Nat.cast_zero, Nat.zero_add, List.not_mem_nil, false_implies, implies_true,
    true_and] at hresults hends
  simp only [sendReversed, List.mem_append]
  refine ⟨⟨fun hall => hresults.mp fun z hz => hall z (.inl hz), fun hlt z hz => ?_⟩, fun hlt => ?_⟩
  · rcases hz with hz | hz
    · exact hresults.mpr hlt z hz
    · rw [(hends hlt).2] at hz
      exact isInt32_results_sendLoop (i := 0) (by omega) _ z hz
  · obtain ⟨hreversed, hcount⟩ := hends hlt
    rw [hreversed, hcount]
    exact chars_sendLoop (fun digit hdigit => Nat.digits_lt_base (by decide) hdigit) 0

/-- The digits read from the last one on make a number below `2 ^ 31`: ten digits do exactly when
they do not come after those of 2147483647 in the dictionary. -/
def FitsBackwards (m : Nat) : Prop :=
  m < 10 ^ 9 ∨ ¬List.Lex (· < ·) [2, 1, 4, 7, 4, 8, 3, 6, 4, 7] (Nat.digits 10 m)

theorem fitsBackwards_iff {m : Nat} (hm : m < 10 ^ 10) :
    FitsBackwards m ↔ valueFrom 10 0 (Nat.digits 10 m) < 2 ^ 31 := by
  have hdigits : ∀ digit ∈ Nat.digits 10 m, digit < 10 :=
    fun digit hdigit => Nat.digits_lt_base (by decide) hdigit
  by_cases hshort : m < 10 ^ 9
  · have hlength : (Nat.digits 10 m).length ≤ 9 :=
      (Nat.digits_length_le_iff (by decide) m).mpr hshort
    have hvalue : valueFrom 10 0 (Nat.digits 10 m) < 2 ^ 31 :=
      calc valueFrom 10 0 (Nat.digits 10 m)
          < 10 ^ (Nat.digits 10 m).length := valueFrom_lt hdigits
        _ ≤ 10 ^ 9 := Nat.pow_le_pow_right (by decide) hlength
        _ < 2 ^ 31 := by decide
    exact iff_of_true (.inl hshort) hvalue
  · have hlength : (Nat.digits 10 m).length = 10 := by
      have hle : (Nat.digits 10 m).length ≤ 10 :=
        (Nat.digits_length_le_iff (by decide) m).mpr hm
      have hgt : 9 < (Nat.digits 10 m).length :=
        (Nat.lt_digits_length_iff (by decide) m).mpr (Nat.not_lt.mp hshort)
      omega
    have hlex := @valueFrom_lt_iff 10 [2, 1, 4, 7, 4, 8, 3, 6, 4, 7] _ (by decide) hdigits
      hlength.symm
    have hlimit : valueFrom 10 0 [2, 1, 4, 7, 4, 8, 3, 6, 4, 7] = 2147483647 := rfl
    rw [FitsBackwards, or_iff_right hshort, ← hlex, hlimit]
    omega

/-! ### Against `printk` -/

theorem printk_signed {call : PrintkCall} (hformat : call.Formats (str "%d")) :
    ∃ k, (call.runFor k).point = .returned
      ∧ (call.runFor k).sent.chars = signedDecimal (int32 (call.args 0).toNat) := by
  have hscan : Scan (str "%d") [.conversion ⟨[], false⟩ (chr 'd')] none :=
    .conversion (d := ⟨[], false⟩) ⟨by decide, by decide, by decide⟩ .done
  have hdocumented : ∀ d c, Piece.conversion d c ∈ [.conversion ⟨[], false⟩ (chr 'd')] →
      d.Documented c := by
    intro d c hmem
    obtain ⟨rfl, rfl⟩ : d = ⟨[], false⟩ ∧ c = chr 'd' := by simpa using hmem
    exact fun _ => ⟨by decide, by decide⟩
  obtain ⟨k, hrun⟩ := PrintkCall.exists_runFor_eq hformat hscan hdocumented
  have hrender : call.render 0 [.conversion ⟨[], false⟩ (chr 'd')]
      = call.conversionText 0 ⟨[], false⟩ .signed ++ [] := rfl
  refine ⟨k, by rw [hrun], ?_⟩
  calc (call.runFor k).sent.chars
      = call.render 0 [.conversion ⟨[], false⟩ (chr 'd')] := by rw [hrun]; rfl
    _ = call.conversionText 0 ⟨[], false⟩ .signed := by rw [hrender, List.append_nil]
    _ = signedDecimal (int32 (call.args 0).toNat) := Directive.extended_plain _ _ _

/-- The number is printed as its canonical decimal, as `printk("%d", number)` does, and no
operation overflows. -/
structure PrintsNumber (number : Int) : Prop where
  noOverflow : ∀ z ∈ (putnbrOutput number).results, IsInt32 z
  decimal : (putnbrOutput number).chars = signedDecimal number
  printk : ∀ call : PrintkCall, call.Formats (str "%d") → int32 (call.args 0).toNat = number →
    ∃ k, (call.runFor k).point = .returned
      ∧ (call.runFor k).sent.chars = (putnbrOutput number).chars

variable {number : Int}

theorem prints_of_decimal (hresults : ∀ z ∈ (putnbrOutput number).results, IsInt32 z)
    (hchars : (putnbrOutput number).chars = signedDecimal number) : PrintsNumber number := by
  refine ⟨hresults, hchars, fun call hformat hargument => ?_⟩
  rw [hchars, ← hargument]
  exact printk_signed hformat

theorem putnbrOutput_of_pos (hpos : 0 < number) : putnbrOutput number = sendReversed number := by
  rw [putnbrOutput, if_neg hpos.ne', if_neg hpos.asymm]

theorem putnbrOutput_of_neg (hneg : number < 0) :
    putnbrOutput number = ⟨chr '-' :: (sendReversed (wrap32 (-number))).chars,
      -number :: (sendReversed (wrap32 (-number))).results⟩ := by
  rw [putnbrOutput, if_neg hneg.ne, if_pos hneg]

theorem prints_pos_iff {m : Nat} (hpos : 0 < m) (hlt : m < 2 ^ 31) :
    PrintsNumber m ↔ FitsBackwards m := by
  have hten : m < 10 ^ 10 := lt_trans hlt (by decide)
  have houtput := putnbrOutput_of_pos (Int.natCast_pos.mpr hpos)
  obtain ⟨hresults, hchars⟩ := sendReversed_spec hten
  rw [fitsBackwards_iff hten, ← hresults]
  refine ⟨fun hprints => houtput ▸ hprints.noOverflow, fun hall => prints_of_decimal ?_ ?_⟩
  · rwa [houtput]
  · rw [houtput, hchars (hresults.mp hall), signedDecimal, if_neg (by omega), Int.natAbs_natCast,
      decimal_of_pos hpos.ne', List.nil_append]

theorem prints_neg_iff {m : Nat} (hpos : 0 < m) (hlt : m < 2 ^ 31) :
    PrintsNumber (-m) ↔ FitsBackwards m := by
  have hten : m < 10 ^ 10 := lt_trans hlt (by decide)
  have hneg : -(m : Int) < 0 := by omega
  have hwrap : wrap32 (- -(m : Int)) = m := by
    rw [neg_neg]
    exact wrap32_of_isInt32 (isInt32_natCast hlt)
  have houtput := putnbrOutput_of_neg hneg
  rw [hwrap, neg_neg] at houtput
  obtain ⟨hresults, hchars⟩ := sendReversed_spec hten
  rw [fitsBackwards_iff hten, ← hresults]
  refine ⟨fun hprints z hz => ?_, fun hall => prints_of_decimal ?_ ?_⟩
  · have hoverflow := hprints.noOverflow
    rw [houtput] at hoverflow
    exact hoverflow z (List.mem_cons_of_mem _ hz)
  · rw [houtput]
    intro z hz
    rcases List.mem_cons.mp hz with rfl | hz
    · exact isInt32_natCast hlt
    · exact hall z hz
  · rw [houtput, hchars (hresults.mp hall), signedDecimal, if_pos hneg, Int.natAbs_neg,
      Int.natAbs_natCast, decimal_of_pos hpos.ne']
    rfl

theorem not_prints_min : ¬PrintsNumber (-2 ^ 31) := by
  intro hprints
  have hoverflow := hprints.noOverflow
  rw [putnbrOutput_of_neg (by decide)] at hoverflow
  exact absurd (hoverflow _ List.mem_cons_self) (by decide)

/-- `terminal_putnbr_output` prints every number but the minimum and those of ten digits that do
not fit when they are read backwards. -/
theorem putnbrOutput_prints_iff (hnumber : IsInt32 number) :
    PrintsNumber number ↔ number ≠ -2 ^ 31 ∧ FitsBackwards number.natAbs := by
  by_cases hmin : number = -2 ^ 31
  · rw [hmin]
    exact iff_of_false not_prints_min fun h => h.1 rfl
  rw [and_iff_right hmin]
  obtain ⟨hle, hlt⟩ := hnumber
  rcases lt_trichotomy number 0 with hneg | hzero | hpos
  · have hmagnitude : number = -(number.natAbs : Int) := by omega
    have hiff := prints_neg_iff (m := number.natAbs) (by omega) (by omega)
    rwa [← hmagnitude] at hiff
  · rw [hzero]
    refine iff_of_true (prints_of_decimal (fun z hz => ?_) rfl) (.inl (by decide))
    cases hz
  · have hmagnitude : (number.natAbs : Int) = number := by omega
    have hiff := prints_pos_iff (m := number.natAbs) (by omega) (by omega)
    rwa [hmagnitude] at hiff

theorem putnbrOutput_prints_iff_thousand :
    PrintsNumber 1200 ↔ (1200 : Int) ≠ -2 ^ 31 ∧ FitsBackwards (Int.natAbs 1200) :=
  putnbrOutput_prints_iff (by decide)

/-- Backwards 1000000003 is 3000000001. -/
theorem not_prints_backwards : ¬PrintsNumber 1000000003 := by
  intro hprints
  have hfits := (prints_pos_iff (m := 1000000003) (by decide) (by decide)).mp hprints
  rw [fitsBackwards_iff (by decide)] at hfits
  have hdigits : Nat.digits 10 1000000003 = [3, 0, 0, 0, 0, 0, 0, 0, 0, 1] := by norm_num
  rw [hdigits] at hfits
  exact absurd hfits (by decide)

end KernelFromScratch
