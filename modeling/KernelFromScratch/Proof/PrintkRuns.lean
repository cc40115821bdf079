import KernelFromScratch.Format

/-!
# Runs of the formatter

What a run of `printk` does over one piece of the format, and then over all of them: what it sends,
how far it goes, and the indices it reads.
-/

namespace KernelFromScratch

namespace Directive

variable (d : Directive)

def pad : UInt8 := if d.zero then chr '0' else chr ' '

/-- The width as the loop computes it. -/
def width32 : UInt32 :=
  d.digits.foldl (fun width c => width * 10 + (c - chr '0').toUInt32) 0

/-- The digits that the loop over the width reads. -/
def loopDigits : List UInt8 := if d.zero then d.digits.tail else d.digits

theorem width32_eq : d.width32 = .ofNat d.width := by
  rw [width32, width]
  suffices ∀ width : Nat, d.digits.foldl (fun width c => width * 10 + (c - chr '0').toUInt32)
      (UInt32.ofNat width) = .ofNat (d.digits.foldl (fun width c => width * 10 + (c - chr '0').toNat)
        width) from this 0
  induction d.digits with
  | nil =>
      intro width
      rfl
  | cons c digits ih =>
      intro width
      have hdigit : (c - chr '0').toUInt32 = .ofNat (c - chr '0').toNat := by
        apply UInt32.toNat_inj.mp
        rw [UInt8.toNat_toUInt32, UInt32.toNat_ofNat_of_lt'
          (lt_trans (UInt8.toNat_lt _) (by decide))]
      rw [List.foldl_cons, List.foldl_cons, hdigit, ← ih, UInt32.ofNat_add, UInt32.ofNat_mul]
      rfl

theorem digits_of_zero (hzero : d.zero = true) : d.digits = chr '0' :: d.loopDigits := by
  rw [loopDigits, if_pos hzero]
  rw [zero, beq_iff_eq] at hzero
  cases hdigits : d.digits with
  | nil =>
      rw [hdigits] at hzero
      cases hzero
  | cons c digits =>
      rw [hdigits] at hzero
      rw [Option.some.inj hzero]
      rfl

theorem width32_loopDigits :
    d.width32 = d.loopDigits.foldl (fun width c => width * 10 + (c - chr '0').toUInt32) 0 := by
  by_cases hzero : d.zero = true
  · rw [width32, d.digits_of_zero hzero, List.foldl_cons]
    rfl
  · rw [width32, loopDigits, if_neg hzero]

end Directive

namespace PrintkCall

variable (call : PrintkCall)

/-- The format holds these characters from `i` on. -/
def Holds : Nat → List UInt8 → Prop
  | _, [] => True
  | i, c :: chars => call.s i = c ∧ Holds (i + 1) chars

/-- The run from `x` comes to `y`, and reads the format up to `bound` at most on the way. -/
def Reaches (bound : Nat) (x y : PrintkRun) : Prop :=
  ∃ n, call.advance^[n] x = y ∧ ∀ m < n, ∀ j ∈ (call.step (call.advance^[m] x)).2, j ≤ bound

variable {call}

theorem holds_append {i : Nat} {first second : List UInt8} :
    call.Holds i (first ++ second)
      ↔ call.Holds i first ∧ call.Holds (i + first.length) second := by
  induction first generalizing i with
  | nil => simp [Holds]
  | cons c first ih =>
      rw [List.cons_append, Holds, ih, Holds, and_assoc, List.length_cons,
        Nat.add_right_comm, Nat.add_assoc]

theorem holds_cons {i : Nat} {c : UInt8} {chars : List UInt8} :
    call.Holds i (c :: chars) ↔ call.s i = c ∧ call.Holds (i + 1) chars := Iff.rfl

theorem holds_of_getD {i : Nat} {chars : List UInt8}
    (hchars : ∀ k < chars.length, call.s (i + k) = chars.getD k 0) : call.Holds i chars := by
  induction chars generalizing i with
  | nil => trivial
  | cons c chars ih =>
      refine ⟨hchars 0 (by simp), ih fun k hk => ?_⟩
      rw [Nat.add_assoc, Nat.add_comm 1]
      exact hchars (k + 1) (by simpa using hk)

namespace Reaches

variable {bound : Nat} {x y z : PrintkRun}

theorem refl : call.Reaches bound x x :=
  ⟨0, rfl, fun _ hm => absurd hm (Nat.not_lt_zero _)⟩

theorem trans (hfirst : call.Reaches bound x y) (hsecond : call.Reaches bound y z) :
    call.Reaches bound x z := by
  obtain ⟨n, rfl, hreads⟩ := hfirst
  obtain ⟨n', rfl, hreads'⟩ := hsecond
  refine ⟨n' + n, Function.iterate_add_apply _ _ _ _, fun m hm j hj => ?_⟩
  by_cases hlt : m < n
  · exact hreads m hlt j hj
  · have hsplit : call.advance^[m] x = call.advance^[m - n] (call.advance^[n] x) := by
      rw [← Function.iterate_add_apply, Nat.sub_add_cancel (Nat.le_of_not_lt hlt)]
    rw [hsplit] at hj
    exact hreads' (m - n) (by omega) j hj

/-- One test. -/
theorem step (reads : List Nat) (hstep : call.step x = (y, reads))
    (hreads : ∀ j ∈ reads, j ≤ bound) : call.Reaches bound x y := by
  refine ⟨1, ?_, fun m hm j hj => ?_⟩
  · rw [Function.iterate_one, advance, hstep]
  · obtain rfl : m = 0 := by omega
    rw [Function.iterate_zero, id, hstep] at hj
    exact hreads j hj

end Reaches

section Steps

variable {bound i taken : Nat} {sent : Sent}

theorem literal_reaches {c : UInt8} (hs : call.s i = c) (hnul : c ≠ 0) (hc : c ≠ chr '%')
    (hbound : i ≤ bound) :
    call.Reaches bound ⟨.format, i, taken, sent⟩
      ⟨.format, i + 1, taken, sent.add (putchar c)⟩ := by
  refine .step [i] ?_ ?_
  · rw [PrintkCall.step]
    simp only [hs, if_neg hnul, if_neg hc]
  · intro j hj
    rwa [List.mem_singleton.mp hj]

theorem end_reaches (hs : call.s i = 0) (hbound : i ≤ bound) :
    call.Reaches bound ⟨.format, i, taken, sent⟩ ⟨.returned, i, taken, sent⟩ := by
  refine .step [i] ?_ ?_
  · rw [PrintkCall.step]
    simp only [hs, if_true]
  · intro j hj
    rwa [List.mem_singleton.mp hj]

theorem width_reaches {start : Nat} {pad : UInt8} {width : UInt32} {digits : List UInt8}
    (hholds : call.Holds i digits) (hdigits : digits.all isdigit = true)
    (hbound : i + digits.length ≤ bound) :
    call.Reaches bound ⟨.width start pad width, i, taken, sent⟩
      ⟨.width start pad
        (digits.foldl (fun width c => width * 10 + (c - chr '0').toUInt32) width),
        i + digits.length, taken, sent⟩ := by
  induction digits generalizing i width with
  | nil => exact .refl
  | cons c digits ih =>
      obtain ⟨hs, hrest⟩ := hholds
      rw [List.all_cons, Bool.and_eq_true] at hdigits
      rw [List.length_cons] at hbound ⊢
      have hfirst : call.Reaches bound ⟨.width start pad width, i, taken, sent⟩
          ⟨.width start pad (width * 10 + (c - chr '0').toUInt32), i + 1, taken, sent⟩ := by
        refine .step [i] ?_ ?_
        · rw [PrintkCall.step]
          simp only [hs, if_pos hdigits.1]
        · intro j hj
          rw [List.mem_singleton.mp hj]
          omega
      have hlast : i + (digits.length + 1) = i + 1 + digits.length := by omega
      rw [List.foldl_cons, hlast]
      exact hfirst.trans (ih hrest hdigits.2 (by omega))

variable {d : Directive} {c : UInt8}

theorem flag_iff (hholds : call.Holds i (d.chars ++ [c]))
    (hc : d.longLong = false → isdigit c = false) :
    call.s (i + 1) = chr '0' ↔ d.zero = true := by
  rw [Directive.chars, List.append_assoc, List.cons_append, holds_cons] at hholds
  have hnext := hholds.2
  rw [Directive.zero, beq_iff_eq]
  cases hdigits : d.digits with
  | cons digit digits =>
      rw [hdigits] at hnext
      rw [hnext.1, List.head?_cons, Option.some_inj]
  | nil =>
      rw [hdigits] at hnext
      have hother : call.s (i + 1) ≠ chr '0' := by
        intro hzero
        cases hlong : d.longLong with
        | true =>
            rw [hlong] at hnext
            have hl : call.s (i + 1) = chr 'l' := hnext.1
            exact absurd (hl.symm.trans hzero) (by decide)
        | false =>
            rw [hlong] at hnext
            have hsame : call.s (i + 1) = c := hnext.1
            have hdigit := hc hlong
            rw [← hsame, hzero] at hdigit
            exact absurd hdigit (by decide)
      exact iff_of_false hother fun hnone => by cases hnone

theorem holds_digits (hholds : call.Holds i (d.chars ++ [c])) : call.Holds (i + 1) d.digits := by
  rw [Directive.chars, List.append_assoc, List.cons_append, holds_cons, holds_append] at hholds
  exact hholds.2.1

/-- From the `%` to the test after the last digit. -/
theorem digits_reaches (hholds : call.Holds i (d.chars ++ [c]))
    (hdigits : d.digits.all isdigit = true) (hc : d.longLong = false → isdigit c = false)
    (hbound : i + 1 + d.digits.length ≤ bound) :
    call.Reaches bound ⟨.format, i, taken, sent⟩
      ⟨.width i d.pad d.width32, i + 1 + d.digits.length, taken, sent⟩ := by
  have hpercent : call.s i = chr '%' := by
    rw [Directive.chars, List.append_assoc, List.cons_append, holds_cons] at hholds
    exact hholds.1
  have hreads : ∀ j ∈ [i, i + 1], j ≤ bound := by
    intro j hj
    simp only [List.mem_cons, List.not_mem_nil, or_false] at hj
    omega
  have hflag := flag_iff hholds hc
  have hheld := holds_digits hholds
  rw [Directive.width32_loopDigits, Directive.pad]
  by_cases hzero : d.zero = true
  · rw [d.digits_of_zero hzero] at hdigits hheld hbound ⊢
    rw [List.all_cons, Bool.and_eq_true] at hdigits
    rw [List.length_cons] at hbound ⊢
    have hfirst : call.Reaches bound ⟨.format, i, taken, sent⟩
        ⟨.width i (chr '0') 0, i + 2, taken, sent⟩ := by
      refine .step [i, i + 1] ?_ hreads
      rw [PrintkCall.step]
      simp only [hpercent, if_true, if_pos (hflag.mpr hzero)]
      rfl
    have hlast : i + 1 + (d.loopDigits.length + 1) = i + 2 + d.loopDigits.length := by omega
    rw [if_pos hzero, hlast]
    exact hfirst.trans (width_reaches hheld.2 hdigits.2 (by omega))
  · have hloop : d.loopDigits = d.digits := by rw [Directive.loopDigits, if_neg hzero]
    have hfirst : call.Reaches bound ⟨.format, i, taken, sent⟩
        ⟨.width i (chr ' ') 0, i + 1, taken, sent⟩ := by
      refine .step [i, i + 1] ?_ hreads
      rw [PrintkCall.step]
      simp only [hpercent, if_true, if_neg (mt hflag.mp hzero)]
      rfl
    rw [if_neg hzero, hloop]
    exact hfirst.trans (width_reaches hheld hdigits hbound)

end Steps

section Pieces

/-- What is sent for a conversion, and the words taken for it. -/
def converted (call : PrintkCall) (taken : Nat) (d : Directive) (c : UInt8) : Sent × Nat :=
  (call.conversion taken d.pad d.width32 d.longLong c).getD (.of (d.chars ++ [c]), 0)

theorem holds_map {i : Nat} {chars : List UInt8} (hholds : call.Holds i chars) :
    (List.range' i chars.length).map call.s = chars := by
  induction chars generalizing i with
  | nil => rfl
  | cons c chars ih =>
      rw [List.length_cons, List.range'_succ, List.map_cons, hholds.1, ih hholds.2]

theorem unknownConversion_eq {i : Nat} {chars : List UInt8} {c : UInt8}
    (hholds : call.Holds i (chars ++ [c])) :
    call.unknownConversion i (i + chars.length) = .of (chars ++ [c]) := by
  have hloop : ∀ (indices : List Nat) (sentChars : List UInt8),
      indices.foldl (fun (sent : Sent) j => sent.add (putchar (call.s j))) (.of sentChars)
        = Sent.of (sentChars ++ indices.map call.s) := by
    intro indices
    induction indices with
    | nil =>
        intro sentChars
        rw [List.foldl_nil, List.map_nil, List.append_nil]
    | cons j indices ih =>
        intro sentChars
        rw [List.foldl_cons, putchar_eq, Sent.add_of, ih, List.append_assoc]
        rfl
  have hcount : i + chars.length + 1 - i = (chars ++ [c]).length := by
    rw [List.length_append, List.length_singleton]
    omega
  rw [unknownConversion, hcount, Sent.nothing_eq, hloop, holds_map hholds, List.nil_append]

variable {bound i taken : Nat} {sent : Sent} {d : Directive} {c : UInt8}

theorem chars_length : d.chars.length = 1 + d.digits.length + if d.longLong then 2 else 0 := by
  rw [Directive.chars, List.length_append, List.length_cons, apply_ite List.length]
  rw [Nat.add_comm 1]
  rfl

theorem last_char (hholds : call.Holds i (d.chars ++ [c])) : call.s (i + d.chars.length) = c := by
  rw [holds_append] at hholds
  exact hholds.2.1

/-- The test for `ll` after the digits. -/
theorem hasLongLong_eq (hholds : call.Holds i (d.chars ++ [c]))
    (hlong : d.longLong = false → ¬(c = chr 'l' ∧ call.s (i + d.chars.length + 1) = chr 'l')) :
    (call.s (i + 1 + d.digits.length) = chr 'l' && call.s (i + 1 + d.digits.length + 1) = chr 'l')
      = d.longLong := by
  cases hflag : d.longLong with
  | true =>
      rw [Directive.chars, List.append_assoc, List.cons_append, holds_cons, holds_append, hflag]
        at hholds
      obtain ⟨-, -, hfirst, hsecond, -⟩ := hholds
      rw [hfirst, hsecond]
      rfl
  | false =>
      have hlength : i + 1 + d.digits.length = i + d.chars.length := by
        rw [chars_length, hflag]
        change _ = i + (1 + d.digits.length)
        omega
      have hnot := hlong hflag
      rw [hlength, last_char hholds]
      rw [← Bool.decide_and, decide_eq_false_iff_not]
      exact hnot

/-- From the test after the last digit to the next piece. -/
theorem convert_eq (taken : Nat) (sent : Sent) (hholds : call.Holds i (d.chars ++ [c]))
    (hlong : d.longLong = false → ¬(c = chr 'l' ∧ call.s (i + d.chars.length + 1) = chr 'l'))
    (hbound : i + d.chars.length + 1 ≤ bound) :
    ∃ reads, call.convert ⟨.width i d.pad d.width32, i + 1 + d.digits.length, taken, sent⟩ i d.pad
        d.width32
      = (⟨.format, i + d.chars.length + 1, taken + (call.converted taken d c).2,
          sent.add (call.converted taken d c).1⟩, reads)
      ∧ ∀ j ∈ reads, j ≤ bound := by
  have hlength := chars_length (d := d)
  have htest := hasLongLong_eq hholds hlong
  have hlast : (if d.longLong then i + 1 + d.digits.length + 2 else i + 1 + d.digits.length)
      = i + d.chars.length := by
    rw [hlength]
    split_ifs <;> omega
  have hlooked : ∀ j ∈ (if call.s (i + 1 + d.digits.length) = chr 'l' then
      [i + 1 + d.digits.length, i + 1 + d.digits.length + 1] else [i + 1 + d.digits.length]),
      j ≤ bound := by
    intro j hj
    split_ifs at hj <;> simp only [List.mem_cons, List.not_mem_nil, or_false] at hj <;> omega
  rw [convert, converted]
  simp only [htest, hlast, last_char hholds]
  cases call.conversion taken d.pad d.width32 d.longLong c with
  | some outcome =>
      refine ⟨_, rfl, fun j hj => ?_⟩
      rcases List.mem_append.mp hj with hj | hj
      · exact hlooked j hj
      · rw [List.mem_singleton.mp hj]
        omega
  | none =>
      rw [unknownConversion_eq hholds]
      refine ⟨_, rfl, fun j hj => ?_⟩
      rcases List.mem_append.mp hj with hj | hj
      · rcases List.mem_append.mp hj with hj | hj
        · exact hlooked j hj
        · rw [List.mem_singleton.mp hj]
          omega
      · rw [List.mem_range'_1] at hj
        omega

theorem conversion_reaches (hholds : call.Holds i (d.chars ++ [c]))
    (hdigits : d.digits.all isdigit = true) (hc : d.longLong = false → isdigit c = false)
    (hlong : d.longLong = false → ¬(c = chr 'l' ∧ call.s (i + d.chars.length + 1) = chr 'l'))
    (hbound : i + d.chars.length + 1 ≤ bound) :
    call.Reaches bound ⟨.format, i, taken, sent⟩
      ⟨.format, i + d.chars.length + 1, taken + (call.converted taken d c).2,
        sent.add (call.converted taken d c).1⟩ := by
  have hlength := chars_length (d := d)
  have hnotDigit : isdigit (call.s (i + 1 + d.digits.length)) = false := by
    cases hflag : d.longLong with
    | true =>
        rw [Directive.chars, List.append_assoc, List.cons_append, holds_cons, holds_append, hflag]
          at hholds
        have hl : call.s (i + 1 + d.digits.length) = chr 'l' := hholds.2.2.1
        rw [hl]
        decide
    | false =>
        have hlast : i + 1 + d.digits.length = i + d.chars.length := by
          rw [hlength, hflag]
          change _ = i + (1 + d.digits.length)
          omega
        rw [hlast, last_char hholds]
        exact hc hflag
  obtain ⟨reads, hconvert, hreads⟩ := convert_eq taken sent hholds hlong hbound
  have hend : i + 1 + d.digits.length ≤ bound := by omega
  refine (digits_reaches hholds hdigits hc hend).trans ?_
  refine .step ((i + 1 + d.digits.length) :: reads) ?_ ?_
  · rw [PrintkCall.step]
    simp only [hnotDigit, Bool.false_eq_true, if_false, hconvert]
  · intro j hj
    rcases List.mem_cons.mp hj with rfl | hj
    · exact hend
    · exact hreads j hj

end Pieces

section Scans

/-- What is sent for a piece, and the words taken for it. -/
def outcome (call : PrintkCall) (taken : Nat) : Piece → Sent × Nat
  | .literal c => (putchar c, 0)
  | .conversion d c => call.converted taken d c

/-- What is sent for all pieces, and the words taken for them. -/
def outcomes (call : PrintkCall) : Nat → List Piece → Sent × Nat
  | _, [] => (.nothing, 0)
  | taken, piece :: pieces =>
    let (first, words) := call.outcome taken piece
    let (rest, words') := call.outcomes (taken + words) pieces
    (first.add rest, words + words')

variable {bound i taken : Nat} {sent : Sent}

theorem add_nothing (sent : Sent) : sent.add .nothing = sent := by
  rw [Sent.add, Sent.nothing, List.append_nil, UInt64.add_zero]

theorem nothing_add (sent : Sent) : Sent.nothing.add sent = sent := by
  rw [Sent.add, Sent.nothing, List.nil_append, UInt64.zero_add]

theorem add_assoc (first second third : Sent) :
    (first.add second).add third = first.add (second.add third) := by
  rw [Sent.add, Sent.add, Sent.add, Sent.add, List.append_assoc, UInt64.add_assoc]

theorem outcomes_cons (taken : Nat) (piece : Piece) (pieces : List Piece) :
    call.outcomes taken (piece :: pieces)
      = ((call.outcome taken piece).1.add
          (call.outcomes (taken + (call.outcome taken piece).2) pieces).1,
        (call.outcome taken piece).2
          + (call.outcomes (taken + (call.outcome taken piece).2) pieces).2) := rfl

/-- The run at the head of the outer loop after these pieces. -/
def after (call : PrintkCall) (run : PrintkRun) (pieces : List Piece) : PrintkRun :=
  ⟨.format, run.i + (pieces.flatMap Piece.chars).length,
    run.taken + (call.outcomes run.taken pieces).2,
    run.sent.add (call.outcomes run.taken pieces).1⟩

theorem after_cons (run : PrintkRun) (piece : Piece) (pieces : List Piece) :
    call.after run (piece :: pieces) = call.after (call.after run [piece]) pieces := by
  simp only [after, List.flatMap_cons, List.flatMap_nil, List.append_nil,
    List.length_append, outcomes, add_nothing, add_assoc, Nat.add_zero, Nat.add_assoc]

/-- The run over the pieces ends at the NUL, or at the `%` of the last conversion. -/
theorem scan_reaches {format : List UInt8} {pieces : List Piece} {tail : Option Directive}
    (hscan : Scan format pieces tail) (hnul : 0 ∉ format)
    (hholds : call.Holds i (format ++ [0])) (hbound : i + format.length ≤ bound) :
    call.Reaches bound ⟨.format, i, taken, sent⟩ (call.after ⟨.format, i, taken, sent⟩ pieces) := by
  induction hscan generalizing i taken sent with
  | done =>
      rw [after, outcomes, add_nothing]
      exact .refl
  | inside hdigits =>
      rw [after, outcomes, add_nothing]
      exact .refl
  | @literal c rest pieces tail hc hrest ih =>
      rw [List.length_cons] at hbound
      have hfirst : call.Reaches bound ⟨.format, i, taken, sent⟩
          (call.after ⟨.format, i, taken, sent⟩ [.literal c]) := by
        rw [after, outcomes_cons, outcomes, add_nothing]
        exact literal_reaches hholds.1 (fun h => hnul (h ▸ List.mem_cons_self)) hc (by omega)
      rw [after_cons]
      exact hfirst.trans (ih (fun h => hnul (List.mem_cons_of_mem _ h)) hholds.2
        (by change i + 1 + _ ≤ _; omega))
  | @conversion d c rest pieces tail hends hrest ih =>
      rw [List.length_append, List.length_cons] at hbound
      have hsplit : d.chars ++ c :: rest ++ [0] = (d.chars ++ [c]) ++ (rest ++ [0]) := by simp
      rw [hsplit, holds_append] at hholds
      obtain ⟨hpiece, hafter⟩ := hholds
      rw [List.length_append, List.length_singleton] at hafter
      have hlong : d.longLong = false →
          ¬(c = chr 'l' ∧ call.s (i + d.chars.length + 1) = chr 'l') := by
        rintro hflag ⟨hl, hsecond⟩
        refine hends.notLong hflag ⟨hl, ?_⟩
        cases rest with
        | nil =>
            have hnext : call.s (i + d.chars.length + 1) = 0 := hafter.1
            exact absurd (hsecond.symm.trans hnext) (by decide)
        | cons next rest =>
            have hnext : call.s (i + d.chars.length + 1) = next := hafter.1
            rw [List.head?_cons, ← hnext, hsecond]
      have hfirst : call.Reaches bound ⟨.format, i, taken, sent⟩
          (call.after ⟨.format, i, taken, sent⟩ [.conversion d c]) := by
        rw [after, outcomes_cons, outcomes, add_nothing, List.flatMap_singleton, Piece.chars,
          List.length_append, List.length_singleton]
        exact conversion_reaches hpiece hends.digits hends.notDigit hlong (by omega)
      rw [after_cons]
      refine hfirst.trans (ih ?_ ?_ ?_)
      · exact fun h => hnul (List.mem_append_right _ (List.mem_cons_of_mem _ h))
      · rw [List.flatMap_singleton, Piece.chars, List.length_append, List.length_singleton]
        exact hafter
      · rw [List.flatMap_singleton, Piece.chars, List.length_append, List.length_singleton]
        change i + (d.chars.length + 1) + _ ≤ _
        omega

theorem scan_chars {format : List UInt8} {pieces : List Piece} {tail : Option Directive}
    (hscan : Scan format pieces tail) :
    format = pieces.flatMap Piece.chars ++ (tail.map Directive.chars).getD [] := by
  induction hscan with
  | done => rfl
  | inside hdigits => rfl
  | literal hc hrest ih => rw [List.flatMap_cons, List.append_assoc, ← ih]; rfl
  | conversion hends hrest ih =>
      rw [List.flatMap_cons, List.append_assoc, ← ih, Piece.chars, List.append_assoc]
      rfl

theorem scan_digits {format : List UInt8} {pieces : List Piece} {tail : Option Directive}
    (hscan : Scan format pieces tail) {d : Directive} (htail : tail = some d) :
    d.digits.all isdigit = true := by
  induction hscan with
  | done => cases htail
  | inside hdigits =>
      obtain rfl := Option.some.inj htail
      exact hdigits
  | literal hc hrest ih => exact ih htail
  | conversion hends hrest ih => exact ih htail

theorem advance_returned {run : PrintkRun} (hreturned : run.point = .returned) (n : Nat) :
    call.advance^[n] run = run := by
  induction n with
  | zero => rfl
  | succ n ih =>
      rw [Function.iterate_succ_apply', ih, advance, PrintkCall.step, hreturned]

end Scans

end PrintkCall

end KernelFromScratch
