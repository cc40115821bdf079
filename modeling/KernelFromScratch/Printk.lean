import KernelFromScratch.Shell

/-!
# The formatter

`helper/printk.c`. `printk` runs over the memory from its format on, one test of a loop condition a
step, and takes its arguments from the words of the stack: a run may end at the NUL of the format,
or go on past it.
-/

namespace KernelFromScratch

/-- The characters of a NUL-terminated string in memory. -/
structure CString where
  chars : List UInt8
  noNul : 0 ∉ chars
  length_lt : chars.length < 2 ^ 32

/-- The characters a function sends to the terminal, and the number it returns for them. -/
structure Sent where
  chars : List UInt8
  count : UInt64

namespace Sent

def nothing : Sent := ⟨[], 0⟩

/-- `terminal_putc_output(c); count++;`. -/
def put (c : UInt8) (sent : Sent) : Sent := ⟨sent.chars ++ [c], sent.count + 1⟩

/-- `count += ...`. -/
def add (first second : Sent) : Sent := ⟨first.chars ++ second.chars, first.count + second.count⟩

end Sent

def putchar (c : UInt8) : Sent := ⟨[c], 1⟩

def strlen (s : List UInt8) : UInt32 := .ofNat s.length

/-- `putstr` of a string that is not null. -/
def putText (s : List UInt8) : Sent := ⟨s, (strlen s).toUInt64⟩

/-- `putstr`, where `strings` holds the string at every address. -/
def putstr (strings : UInt32 → CString) (s : UInt32) : Sent :=
  if s = 0 then putText (str "(null)") else putText (strings s).chars

/-- The loop of `putpadding` from `count` on. -/
def putpaddingLoop (length width count : UInt32) (pad : UInt8) (sent : Sent) : Sent :=
  if length + count < width then
    putpaddingLoop length width (count + 1) pad (sent.put pad)
  else
    sent
termination_by (width - (length + count)).toNat
decreasing_by
  rename_i hlt
  rw [UInt32.lt_iff_toNat_lt] at hlt
  have hsum : (length + (count + 1)).toNat = (length + count).toNat + 1 := by
    rw [← UInt32.add_assoc, UInt32.toNat_add]
    have hwidth := width.toNat_lt
    change ((length + count).toNat + 1) % 2 ^ 32 = _
    omega
  rw [UInt32.toNat_sub_of_le _ _ (UInt32.le_iff_toNat_le.mpr (by omega)),
    UInt32.toNat_sub_of_le _ _ (UInt32.le_iff_toNat_le.mpr (by omega)), hsum]
  omega

def putpadding (length width : UInt32) (pad : UInt8) : Sent :=
  putpaddingLoop length width 0 pad .nothing

/-- The loop of `nbrlen`. -/
def nbrlenLoop (number length : UInt32) : UInt32 :=
  if 10 ≤ number then nbrlenLoop (number / 10) (length + 1) else length
termination_by number.toNat
decreasing_by
  rename_i hle
  rw [UInt32.le_iff_toNat_le] at hle
  rw [UInt32.toNat_div]
  exact Nat.div_lt_self (lt_of_lt_of_le (by decide) hle) (by decide)

def nbrlen (number : UInt32) : UInt32 := nbrlenLoop number 1

/-- The loop of `hexlen`. -/
def hexlenLoop (number : UInt64) (length : UInt32) : UInt32 :=
  if number >>> 4 ≠ 0 then hexlenLoop (number >>> 4) (length + 1) else length
termination_by number.toNat
decreasing_by
  rename_i hne
  have hshift : (number >>> 4).toNat = number.toNat / 16 := by
    rw [UInt64.toNat_shiftRight, Nat.shiftRight_eq_div_pow]
    rfl
  have hpos : (number >>> 4).toNat ≠ 0 := fun h => hne (UInt64.toNat_inj.mp h)
  omega

def hexlen (number : UInt64) : UInt32 := hexlenLoop number 1

/-- `'0' + (number % 10)`. -/
def decimalDigit (number : UInt32) : UInt8 := chr '0' + (number % 10).toUInt8

/-- The array `digits` of `putunbr` up to `index`. -/
def putunbrDigits (number : UInt32) : List UInt8 :=
  if 0 < number / 10 then
    decimalDigit number :: putunbrDigits (number / 10)
  else
    [decimalDigit number]
termination_by number.toNat
decreasing_by
  rename_i hlt
  rw [UInt32.lt_iff_toNat_lt] at hlt
  rw [UInt32.toNat_div] at hlt ⊢
  exact Nat.div_lt_self (Nat.pos_of_ne_zero fun h => by simp [h] at hlt) (by decide)

/-- The loops that print an array of digits from its end. -/
def putDigits (digits : List UInt8) (sent : Sent) : Sent :=
  digits.reverse.foldl (fun sent c => sent.put c) sent

def putunbr (number : UInt32) : Sent := putDigits (putunbrDigits number) .nothing

/-- The arrays `digits` of `putnbr` up to `index`. -/
def putnbrDigits (number : UInt32) : List UInt8 :=
  if 0 < number then decimalDigit number :: putnbrDigits (number / 10) else []
termination_by number.toNat
decreasing_by
  rename_i hlt
  rw [UInt32.lt_iff_toNat_lt] at hlt
  rw [UInt32.toNat_div]
  exact Nat.div_lt_self hlt (by decide)

/-- `(uint32_t) (-(number + 1)) + 1`. -/
def negated (number : Int) : UInt32 := .ofNat (uint32 (-(number + 1))) + 1

def putnbr (number : Int) : Sent :=
  if number = 0 then
    putchar (chr '0')
  else if number < 0 then
    putDigits (putnbrDigits (negated number)) (Sent.nothing.put (chr '-'))
  else
    putDigits (putnbrDigits (.ofNat (uint32 number))) .nothing

def hexDigits : List UInt8 := str "0123456789abcdef"

/-- The array `hex_digits` of `puthex` up to `index`. -/
def puthexDigits (number : UInt64) : List UInt8 :=
  if number ≠ 0 then
    hexDigits.getD (number &&& 0xf).toNat 0 :: puthexDigits (number >>> 4)
  else
    []
termination_by number.toNat
decreasing_by
  rename_i hne
  have hshift : (number >>> 4).toNat = number.toNat / 16 := by
    rw [UInt64.toNat_shiftRight, Nat.shiftRight_eq_div_pow]
    rfl
  have hpos : number.toNat ≠ 0 := fun h => hne (UInt64.toNat_inj.mp h)
  omega

def puthex (number : UInt64) : Sent :=
  if number = 0 then putchar (chr '0') else putDigits (puthexDigits number) .nothing

/-- The `%d` and `%i` cases of `printk`. -/
def putsigned (pad : UInt8) (width : UInt32) (number : Int) : Sent :=
  let absolute := if number < 0 then negated number else .ofNat (uint32 number)
  let length := nbrlen absolute + if number < 0 then 1 else 0
  if number < 0 ∧ pad = chr '0' then
    ((putchar (chr '-')).add (putpadding length width pad)).add (putunbr absolute)
  else
    (putpadding length width pad).add (putnbr number)

def putptr (ptr : UInt32) : Sent :=
  ((putText (str "0x")).add (putpadding (hexlen ptr.toUInt64) 8 (chr '0'))).add
    (puthex ptr.toUInt64)

/-- What a call of `printk` finds in memory: the bytes from `s` on, the words of the stack after
`s`, and the string at every address. -/
structure PrintkCall where
  s : Nat → UInt8
  args : Nat → UInt32
  strings : UInt32 → CString

/-- Where a run of `printk` is: at the test of the loop over the format, at the test of the loop
over the width of the conversion that starts at `start`, or past both. -/
inductive PrintkPoint where
  | format
  | width (start : Nat) (pad : UInt8) (width : UInt32)
  | returned

/-- A run of `printk`: `taken` words are gone from `args`. -/
structure PrintkRun where
  point : PrintkPoint
  i : Nat
  taken : Nat
  sent : Sent

namespace PrintkCall

variable (call : PrintkCall)

/-- The number `%x` takes, and the words it takes for it. -/
def hexArgument (taken : Nat) (hasLongLong : Bool) : UInt64 × Nat :=
  if hasLongLong then
    ((call.args taken).toUInt64 ||| ((call.args (taken + 1)).toUInt64 <<< 32), 2)
  else
    ((call.args taken).toUInt64, 1)

/-- The cases of the `switch` but for the `default`: what is sent, and the words taken for it. -/
def conversion (taken : Nat) (pad : UInt8) (width : UInt32) (hasLongLong : Bool) (c : UInt8) :
    Option (Sent × Nat) :=
  let word := call.args taken
  if c = chr 'c' then
    some (putchar word.toUInt8, 1)
  else if c = chr 's' then
    some (putstr call.strings word, 1)
  else if c = chr 'd' ∨ c = chr 'i' then
    some (putsigned pad width (int32 word.toNat), 1)
  else if c = chr 'u' then
    some ((putpadding (nbrlen word) width pad).add (putunbr word), 1)
  else if c = chr '%' then
    some (putchar (chr '%'), 0)
  else if c = chr 'x' then
    let (number, words) := call.hexArgument taken hasLongLong
    some ((putpadding (hexlen number) width pad).add (puthex number), words)
  else if c = chr 'p' then
    some (putptr word, 1)
  else
    none

/-- The `default` case: the format from `start` to `i`. -/
def unknownConversion (start i : Nat) : Sent :=
  (List.range' start (i + 1 - start)).foldl (fun sent j => sent.add (putchar (call.s j))) .nothing

/-- The body of the outer loop from the test for `ll` on, and the indices it reads. -/
def convert (run : PrintkRun) (start : Nat) (pad : UInt8) (width : UInt32) :
    PrintkRun × List Nat :=
  let hasLongLong := call.s run.i = chr 'l' && call.s (run.i + 1) = chr 'l'
  let looked := if call.s run.i = chr 'l' then [run.i, run.i + 1] else [run.i]
  let i := if hasLongLong then run.i + 2 else run.i
  match call.conversion run.taken pad width hasLongLong (call.s i) with
  | some (sent, words) =>
    (⟨.format, i + 1, run.taken + words, run.sent.add sent⟩, looked ++ [i])
  | none =>
    (⟨.format, i + 1, run.taken, run.sent.add (call.unknownConversion start i)⟩,
      looked ++ [i] ++ List.range' start (i + 1 - start))

/-- One test of a loop condition and what follows up to the next one, and the indices at which the
format is read. -/
def step (run : PrintkRun) : PrintkRun × List Nat :=
  let c := call.s run.i
  match run.point with
  | .format =>
    if c = 0 then
      ({ run with point := .returned }, [run.i])
    else if c = chr '%' then
      if call.s (run.i + 1) = chr '0' then
        ({ run with point := .width run.i (chr '0') 0, i := run.i + 2 }, [run.i, run.i + 1])
      else
        ({ run with point := .width run.i (chr ' ') 0, i := run.i + 1 }, [run.i, run.i + 1])
    else
      ({ run with i := run.i + 1, sent := run.sent.add (putchar c) }, [run.i])
  | .width start pad width =>
    if isdigit c then
      let width := width * 10 + (c - chr '0').toUInt32
      ({ run with point := .width start pad width, i := run.i + 1 }, [run.i])
    else
      let (next, reads) := call.convert run start pad width
      (next, run.i :: reads)
  | .returned => (run, [])

def advance (run : PrintkRun) : PrintkRun := (call.step run).1

/-- The run after `n` tests. -/
def runFor (n : Nat) : PrintkRun := call.advance^[n] ⟨.format, 0, 0, .nothing⟩

/-- The indices at which test `n` and what follows it read the format. -/
def readsAt (n : Nat) : List Nat := (call.step (call.runFor n)).2

end PrintkCall

end KernelFromScratch
