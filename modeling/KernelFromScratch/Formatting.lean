import KernelFromScratch.Library.Memory
import KernelFromScratch.Proof.PrintkRuns

/-!
# The formatter prints its format language

Over a format whose conversions are documented or unknown, `printk` sends exactly the text the
format stands for. It reads nothing past the end of the format exactly when the format does not end
inside a conversion.
-/

namespace KernelFromScratch

section Numbers

variable {d : Directive}

theorem length_toNat {chars : List UInt8} {bound : Nat} (hle : chars.length ≤ bound)
    (hbound : bound < 2 ^ 32) : (UInt32.ofNat chars.length).toNat = chars.length :=
  UInt32.toNat_ofNat_of_lt' (lt_of_le_of_lt hle hbound)

theorem width32_toNat (hwidth : d.width < 2 ^ 32) : d.width32.toNat = d.width := by
  rw [d.width32_eq]
  exact UInt32.toNat_ofNat_of_lt' hwidth

theorem padded_digits (hwidth : d.width < 2 ^ 32) {digits : List UInt8}
    (hle : digits.length ≤ 16) :
    (putpadding (.ofNat digits.length) d.width32 d.pad).add (.of digits)
      = .of (d.extended [] digits) := by
  rw [putpadding_eq, width32_toNat hwidth, length_toNat hle (by decide), Sent.add_of,
    Directive.extended, Directive.pad, List.length_nil, Nat.zero_add]
  split_ifs
  · rfl
  · rw [List.append_nil]

theorem putsigned_eq (hwidth : d.width < 2 ^ 32) {number : Int} (hle : -2 ^ 31 ≤ number)
    (hlt : number < 2 ^ 31) :
    putsigned d.pad d.width32 number
      = .of (d.extended (if number < 0 then [chr '-'] else []) (decimal number.natAbs)) := by
  have habsolute : (if number < 0 then negated number else .ofNat (uint32 number)).toNat
      = number.natAbs := by
    by_cases hneg : number < 0
    · rw [if_pos hneg, negated_toNat hneg hle]
    · rw [if_neg hneg, uint32_of_nonneg (by omega) hlt]
  have hdigits := decimal_length_le (if number < 0 then negated number else .ofNat (uint32 number))
  rw [putsigned]
  generalize (if number < 0 then negated number else .ofNat (uint32 number)) = absolute
    at habsolute hdigits
  rw [habsolute] at hdigits
  have hlength : (nbrlen absolute + if number < 0 then 1 else 0).toNat
      = (if number < 0 then [chr '-'] else []).length + (decimal number.natAbs).length := by
    rw [nbrlen_eq, habsolute, UInt32.toNat_add, length_toNat hdigits (by decide)]
    by_cases hneg : number < 0
    · rw [if_pos hneg, if_pos hneg]
      change ((decimal number.natAbs).length + 1) % 2 ^ 32 = 1 + _
      omega
    · rw [if_neg hneg, if_neg hneg]
      change ((decimal number.natAbs).length + 0) % 2 ^ 32 = 0 + _
      omega
  simp only [putpadding_eq, width32_toNat hwidth, hlength, putnbr_eq hle hlt, putunbr_eq,
    habsolute, putchar_eq, Sent.add_of, Directive.extended, signedDecimal]
  by_cases hneg : number < 0
  · by_cases hzero : d.zero = true
    · have hpad : d.pad = chr '0' := by rw [Directive.pad, if_pos hzero]
      rw [if_pos ⟨hneg, hpad⟩, if_pos hzero, if_pos hneg, hpad]
    · have hpad : d.pad = chr ' ' := by rw [Directive.pad, if_neg hzero]
      have hother : ¬(number < 0 ∧ d.pad = chr '0') := by
        rintro ⟨-, hpad'⟩
        exact absurd (hpad.symm.trans hpad') (by decide)
      rw [if_neg hother, if_neg hzero, hpad, List.append_assoc]
  · rw [if_neg fun h => hneg h.1, if_neg hneg, List.nil_append, Directive.pad]
    split_ifs
    · rw [List.nil_append]
    · rw [List.append_nil]

theorem Directive.extended_plain (longLong : Bool) (sign digits : List UInt8) :
    Directive.extended ⟨[], longLong⟩ sign digits = sign ++ digits := by
  have hmissing : (⟨[], longLong⟩ : Directive).width - (sign.length + digits.length) = 0 :=
    Nat.zero_sub _
  rw [extended, hmissing]
  rfl

end Numbers

namespace PrintkCall

variable {call : PrintkCall} {taken : Nat} {d : Directive} {c : UInt8}

theorem int32_bounds (n : Nat) : -2 ^ 31 ≤ int32 n ∧ int32 n < 2 ^ 31 :=
  ⟨Int.le_bmod (by decide), Int.bmod_lt (by decide)⟩

theorem hexArgument_toNat (taken : Nat) (hasLongLong : Bool) :
    (call.hexArgument taken hasLongLong).1.toNat
      = 2 ^ 32 * (if hasLongLong then (call.args (taken + 1)).toNat else 0)
        + (call.args taken).toNat := by
  cases hasLongLong with
  | false =>
      change (call.args taken).toUInt64.toNat = 2 ^ 32 * 0 + _
      rw [UInt32.toNat_toUInt64, Nat.mul_zero, Nat.zero_add]
  | true => exact toNat_halves (call.args taken) (call.args (taken + 1))

theorem putptr_eq (address : UInt32) :
    putptr address = .of (str "0x" ++ eightDigits address.toNat) := by
  have hdigits := hexadecimal_length_le address.toUInt64
  rw [putptr, putText_eq (by decide), putpadding_eq, puthex_eq, hexlen_eq, Sent.add_of,
    Sent.add_of, length_toNat hdigits (by decide), UInt32.toNat_toUInt64, List.append_assoc]
  rfl

theorem Conversion.of_ofChar {conversion : Conversion}
    (hconversion : Conversion.ofChar c = some conversion) :
    (c = chr 'c' ∧ conversion = .char) ∨ (c = chr 's' ∧ conversion = .string)
      ∨ ((c = chr 'd' ∨ c = chr 'i') ∧ conversion = .signed)
      ∨ (c = chr 'u' ∧ conversion = .unsigned) ∨ (c = chr 'x' ∧ conversion = .hexadecimal)
      ∨ (c = chr 'p' ∧ conversion = .pointer) ∨ (c = chr '%' ∧ conversion = .percent) := by
  obtain ⟨before, after, htable, -⟩ := List.lookup_eq_some_iff.mp hconversion
  have hmem : (c, conversion) ∈ before ++ (c, conversion) :: after := by simp
  rw [← htable] at hmem
  simp only [List.mem_cons, Prod.mk.injEq, List.not_mem_nil, or_false] at hmem
  obtain ⟨rfl, rfl⟩ | ⟨rfl, rfl⟩ | ⟨rfl, rfl⟩ | ⟨rfl, rfl⟩ | ⟨rfl, rfl⟩ | ⟨rfl, rfl⟩ | ⟨rfl, rfl⟩
    | ⟨rfl, rfl⟩ := hmem
  all_goals decide

/-- A documented conversion sends its text and takes the words of its argument. -/
theorem converted_of_some {conversion : Conversion}
    (hconversion : Conversion.ofChar c = some conversion) (hdocumented : d.Documented c) :
    call.converted taken d c
      = (.of (call.conversionText taken d conversion), conversion.words d.longLong) := by
  obtain ⟨hwidth, hlong⟩ := hdocumented (by rw [hconversion]; rfl)
  rw [converted, PrintkCall.conversion]
  obtain ⟨rfl, rfl⟩ | ⟨rfl, rfl⟩ | ⟨hc, rfl⟩ | ⟨rfl, rfl⟩ | ⟨rfl, rfl⟩ | ⟨rfl, rfl⟩ | ⟨rfl, rfl⟩ :=
    Conversion.of_ofChar hconversion
  · rfl
  · simp +decide only [if_true, if_false, putstr_eq]
    rfl
  · have hnumber := putsigned_eq hwidth (int32_bounds (call.args taken).toNat).1
      (int32_bounds (call.args taken).toNat).2
    rcases hc with rfl | rfl
    · simp +decide only [if_true, if_false, hnumber]
      rfl
    · simp +decide only [if_true, if_false, hnumber]
      rfl
  · have hdigits := padded_digits hwidth
      (le_trans (decimal_length_le (call.args taken)) (by decide))
    simp +decide only [if_true, if_false, nbrlen_eq, putunbr_eq, hdigits]
    rfl
  · have hdigits := padded_digits hwidth
      (hexadecimal_length_le (call.hexArgument taken d.longLong).1)
    rw [hexArgument_toNat] at hdigits
    have hwords : (call.hexArgument taken d.longLong).2 = if d.longLong then 2 else 1 := by
      rw [hexArgument]
      split_ifs <;> rfl
    simp +decide only [if_true, if_false, hexlen_eq, puthex_eq, hdigits, hexArgument_toNat, hwords]
    rfl
  · simp +decide only [if_true, if_false, putptr_eq]
    rfl
  · rfl

theorem converted_of_none (hconversion : Conversion.ofChar c = none) :
    call.converted taken d c = (.of (d.chars ++ [c]), 0) := by
  rw [Conversion.ofChar, List.lookup_eq_none_iff] at hconversion
  simp only [List.mem_cons, List.not_mem_nil, or_false, forall_eq_or_imp, forall_eq,
    bne_iff_ne] at hconversion
  obtain ⟨hc, hs, hd, hi, hu, hx, hp, hpercent⟩ := hconversion
  rw [converted, PrintkCall.conversion]
  simp only [if_neg hc, if_neg hs, if_neg hu, if_neg hx, if_neg hp, if_neg hpercent, hd, hi,
    or_false, if_false, Option.getD_none]

theorem outcomes_eq {pieces : List Piece}
    (hdocumented : ∀ d c, Piece.conversion d c ∈ pieces → d.Documented c) (taken : Nat) :
    (call.outcomes taken pieces).1 = .of (call.render taken pieces) := by
  induction pieces generalizing taken with
  | nil => rfl
  | cons piece pieces ih =>
      have hrest := ih fun d c hmem => hdocumented d c (List.mem_cons_of_mem _ hmem)
      rw [outcomes_cons]
      cases piece with
      | literal c =>
          change (putchar c).add (call.outcomes taken pieces).1 = _
          rw [hrest, putchar_eq, Sent.add_of]
          rfl
      | conversion d c =>
          change (call.converted taken d c).1.add
            (call.outcomes (taken + (call.converted taken d c).2) pieces).1 = _
          rw [hrest, render]
          cases hconversion : Conversion.ofChar c with
          | some conversion =>
              rw [converted_of_some hconversion (hdocumented d c List.mem_cons_self), Sent.add_of]
          | none => rw [converted_of_none hconversion, Sent.add_of]; rfl

/-- The call finds this NUL-terminated format in memory. -/
structure Formats (call : PrintkCall) (format : List UInt8) : Prop where
  holds : call.Holds 0 (format ++ [0])
  noNul : 0 ∉ format

theorem Formats.nul {format : List UInt8} (hformat : call.Formats format) :
    call.s format.length = 0 := by
  have hnul := (holds_append.mp hformat.holds).2.1
  rwa [Nat.zero_add] at hnul

/-- The run over a format that does not end inside a conversion. -/
theorem whole_reaches {format : List UInt8} (hformat : call.Formats format) {pieces : List Piece}
    (hscan : Scan format pieces none) :
    call.Reaches format.length ⟨.format, 0, 0, .nothing⟩
      ⟨.returned, format.length, (call.outcomes 0 pieces).2, (call.outcomes 0 pieces).1⟩ := by
  have hchars : format = pieces.flatMap Piece.chars := by
    have hchars := scan_chars hscan
    rwa [Option.map_none, Option.getD_none, List.append_nil] at hchars
  have hpieces : call.Reaches format.length ⟨.format, 0, 0, .nothing⟩
      (call.after ⟨.format, 0, 0, .nothing⟩ pieces) :=
    scan_reaches hscan hformat.noNul hformat.holds (by omega)
  rw [after, ← hchars, Nat.zero_add, Nat.zero_add, nothing_add] at hpieces
  exact hpieces.trans (end_reaches hformat.nul le_rfl)

/-- The run that returns from a format with documented and unknown conversions only. -/
theorem exists_runFor_eq {format : List UInt8} (hformat : call.Formats format)
    {pieces : List Piece} (hscan : Scan format pieces none)
    (hdocumented : ∀ d c, Piece.conversion d c ∈ pieces → d.Documented c) :
    ∃ n, call.runFor n
      = ⟨.returned, format.length, (call.outcomes 0 pieces).2, .of (call.render 0 pieces)⟩ := by
  obtain ⟨n, hrun, -⟩ := whole_reaches hformat hscan
  refine ⟨n, ?_⟩
  rw [runFor, hrun, outcomes_eq hdocumented 0]

/-- `printk` sends exactly the text of its format, and returns the number of its characters. -/
theorem printk_output {format : List UInt8} (hformat : call.Formats format) {pieces : List Piece}
    (hscan : Scan format pieces none)
    (hdocumented : ∀ d c, Piece.conversion d c ∈ pieces → d.Documented c) :
    ∃ n, (call.runFor n).point = .returned
      ∧ (call.runFor n).sent = .of (call.render 0 pieces) := by
  obtain ⟨n, hrun⟩ := exists_runFor_eq hformat hscan hdocumented
  refine ⟨n, ?_, ?_⟩
  · rw [hrun]
  · rw [hrun]

/-- A call with these arguments and no strings. -/
def ofNumbers (format : List UInt8) (numbers : List UInt32) : PrintkCall where
  s i := (format ++ [0]).getD i 0
  args i := numbers.getD i 0
  strings _ := ⟨[], by decide, by decide⟩

theorem ofNumbers_formats {format : List UInt8} (noNul : 0 ∉ format) (numbers : List UInt32) :
    (ofNumbers format numbers).Formats format := by
  refine ⟨holds_of_getD fun k hk => ?_, noNul⟩
  rw [Nat.zero_add]
  rfl

theorem printk_output_padded :
    ∃ n, ((ofNumbers (str "%5d") [42]).runFor n).point = .returned
      ∧ ((ofNumbers (str "%5d") [42]).runFor n).sent = .of (str "   42") := by
  have hscan : Scan (str "%5d") [.conversion ⟨str "5", false⟩ (chr 'd')] none :=
    .conversion (d := ⟨str "5", false⟩) ⟨by decide, by decide, by decide⟩ .done
  have hrender : (ofNumbers (str "%5d") [42]).render 0 [.conversion ⟨str "5", false⟩ (chr 'd')]
      = str "   42" := by
    decide
  rw [← hrender]
  refine printk_output (ofNumbers_formats (by decide) [42]) hscan ?_
  intro d c hmem
  obtain ⟨rfl, rfl⟩ : d = ⟨str "5", false⟩ ∧ c = chr 'd' := by simpa using hmem
  exact fun _ => ⟨by decide, by decide⟩

/-- The format is these pieces and then an incomplete conversion: a directive without its last
character, or one that ends after the first `l` of an `ll`. -/
inductive EndsIncomplete (format : List UInt8) (pieces : List Piece) : List UInt8 → Prop
  | inside {d : Directive} (hscan : Scan format pieces (some d)) :
      EndsIncomplete format pieces d.chars
  | oneL {d : Directive} (hlong : d.longLong = false)
      (hscan : Scan format (pieces ++ [.conversion d (chr 'l')]) none) :
      EndsIncomplete format pieces (d.chars ++ [chr 'l'])

/-- The call stays inside its format: it returns, reads nothing past the NUL, and prints an
incomplete conversion as it is written, and nothing after it. -/
structure StaysInside (call : PrintkCall) (format : List UInt8) : Prop where
  ends : ∃ n, (call.runFor n).point = .returned
  reads : ∀ n, ∀ j ∈ call.readsAt n, j ≤ format.length
  incomplete : ∀ pieces text, EndsIncomplete format pieces text →
    ∃ n, (call.runFor n).point = .returned
      ∧ (call.runFor n).sent.chars = (call.outcomes 0 pieces).1.chars ++ text

/-- What a last conversion that is unknown adds to what is sent. -/
theorem chars_outcomes_unknown (hconversion : Conversion.ofChar c = none) (pieces : List Piece)
    (taken : Nat) :
    (call.outcomes taken (pieces ++ [.conversion d c])).1.chars
      = (call.outcomes taken pieces).1.chars ++ (d.chars ++ [c]) := by
  induction pieces generalizing taken with
  | nil =>
      have hunknown := @converted_of_none call taken d c hconversion
      rw [List.nil_append, outcomes_cons]
      change (call.converted taken d c).1.chars ++ [] = [] ++ (d.chars ++ [c])
      rw [hunknown, List.append_nil, List.nil_append]
      rfl
  | cons piece pieces ih =>
      rw [List.cons_append, outcomes_cons, outcomes_cons]
      change _ ++ _ = (_ ++ _) ++ (d.chars ++ [c])
      rw [ih, List.append_assoc]

theorem sent_oneL {format : List UInt8} (hformat : call.Formats format) {pieces : List Piece}
    (hscan : Scan format (pieces ++ [.conversion d (chr 'l')]) none) :
    ∃ n, (call.runFor n).point = .returned ∧ (call.runFor n).sent.chars
      = (call.outcomes 0 pieces).1.chars ++ (d.chars ++ [chr 'l']) := by
  obtain ⟨n, hrun, -⟩ := whole_reaches hformat hscan
  refine ⟨n, by rw [runFor, hrun], ?_⟩
  rw [runFor, hrun, ← chars_outcomes_unknown (by decide)]

/-- A call on a format that ends inside a conversion reads the byte after the NUL. -/
theorem reads_past_nul {format : List UInt8} (hformat : call.Formats format) {pieces : List Piece}
    (hscan : Scan format pieces (some d)) : ∃ n, format.length + 1 ∈ call.readsAt n := by
  have hchars := scan_chars hscan
  rw [Option.map_some, Option.getD_some] at hchars
  have hholds := hformat.holds
  rw [hchars, List.append_assoc, holds_append] at hholds
  have hpieces : call.Reaches (format.length + 1) ⟨.format, 0, 0, .nothing⟩
      (call.after ⟨.format, 0, 0, .nothing⟩ pieces) :=
    scan_reaches hscan hformat.noNul hformat.holds (by omega)
  dsimp only [after] at hpieces
  have hlength : format.length = 0 + (pieces.flatMap Piece.chars).length + d.chars.length := by
    rw [hchars, List.length_append, Nat.zero_add]
  have hlast := hpieces.trans (conversion_reaches hholds.2 (scan_digits hscan rfl) (fun _ => by decide)
    (fun _ h => absurd h.1 (by decide)) (by omega))
  rw [← hlength] at hlast
  obtain ⟨n, hrun, -⟩ := hlast
  refine ⟨n, ?_⟩
  rw [readsAt, runFor, hrun, PrintkCall.step]
  dsimp only
  split_ifs <;> exact List.mem_cons_self

/-- `printk` stays inside its format exactly when the format does not end inside a conversion. -/
theorem staysInside_iff {format : List UInt8} (hformat : call.Formats format) :
    call.StaysInside format ↔ ¬∃ pieces d, Scan format pieces (some d) := by
  constructor
  · rintro hinside ⟨pieces, d, hscan⟩
    obtain ⟨n, hread⟩ := reads_past_nul hformat hscan
    have hle := hinside.reads n _ hread
    omega
  · intro hwhole
    obtain ⟨pieces, tail, hscan⟩ := exists_scan format
    cases tail with
    | some d => exact absurd ⟨pieces, d, hscan⟩ hwhole
    | none =>
        obtain ⟨n, hrun, hreads⟩ := whole_reaches hformat hscan
        refine ⟨⟨n, by rw [runFor, hrun]⟩, fun m j hj => ?_, fun pieces text hincomplete => ?_⟩
        · by_cases hlt : m < n
          · exact hreads m hlt j hj
          · have hsplit : m = m - n + n := by omega
            rw [readsAt, runFor, hsplit, Function.iterate_add_apply, hrun,
              advance_returned rfl, PrintkCall.step] at hj
            cases hj
        · cases hincomplete with
          | inside hinside => exact absurd ⟨pieces, _, hinside⟩ hwhole
          | oneL _ hscan => exact sent_oneL hformat hscan

/-- `"%l"` ends after one `l`. -/
theorem staysInside_percent :
    EndsIncomplete (str "%l") [] (str "%l")
      ∧ ((ofNumbers (str "%l") []).StaysInside (str "%l")
        ↔ ¬∃ pieces d, Scan (str "%l") pieces (some d)) := by
  refine ⟨?_, staysInside_iff (ofNumbers_formats (by decide) [])⟩
  have hscan : Scan (str "%l") ([] ++ [.conversion ⟨[], false⟩ (chr 'l')]) none :=
    .conversion (d := ⟨[], false⟩) ⟨by decide, by decide, by decide⟩ .done
  exact .oneL rfl hscan

/-- `"%"` ends inside a conversion: the run sends its NUL and goes on with the byte after it. -/
theorem percent_leaves :
    ((ofNumbers (str "%") []).runFor 2).sent.chars = [chr '%', 0]
      ∧ (ofNumbers (str "%") []).readsAt 2 = [2]
      ∧ ¬(ofNumbers (str "%") []).StaysInside (str "%") := by
  refine ⟨by decide, by decide, fun hinside => ?_⟩
  have hle := hinside.reads 2 2 (by decide)
  exact absurd hle (by decide)

end PrintkCall

end KernelFromScratch
