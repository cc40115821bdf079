import KernelFromScratch.Proof.Digits

/-!
# The format language

A format is a sequence of literal characters and conversions, and may end inside a conversion. A
conversion is a `%`, digits, an optional `ll`, and a character; digits that start with `0` ask for
zeros. The statements on `printk` are over this grammar.
-/

namespace KernelFromScratch

/-- A conversion up to its last character. -/
structure Directive where
  digits : List UInt8
  longLong : Bool
  deriving DecidableEq

namespace Directive

variable (d : Directive)

def chars : List UInt8 := chr '%' :: d.digits ++ if d.longLong then str "ll" else []

/-- The width starts with `0`. -/
def zero : Bool := d.digits.head? == some (chr '0')

def width : Nat := d.digits.foldl (fun width c => width * 10 + (c - chr '0').toNat) 0

/-- The directive takes all the characters it can before `c`, which `next` follows. -/
structure Ends (c : UInt8) (next : Option UInt8) : Prop where
  digits : d.digits.all isdigit = true
  notDigit : d.longLong = false → isdigit c = false
  notLong : d.longLong = false → ¬(c = chr 'l' ∧ next = some (chr 'l'))

/-- The text extended to the minimum width: zeros go after the sign. -/
def extended (sign digits : List UInt8) : List UInt8 :=
  let missing := d.width - (sign.length + digits.length)
  if d.zero then
    sign ++ List.replicate missing (chr '0') ++ digits
  else
    List.replicate missing (chr ' ') ++ sign ++ digits

end Directive

inductive Piece where
  | literal (c : UInt8)
  | conversion (d : Directive) (c : UInt8)
  deriving DecidableEq

namespace Piece

def chars : Piece → List UInt8
  | literal c => [c]
  | conversion d c => d.chars ++ [c]

end Piece

/-- The format is these pieces and then, when it ends inside a conversion, that directive. -/
inductive Scan : List UInt8 → List Piece → Option Directive → Prop
  | done : Scan [] [] none
  | inside {d : Directive} (hdigits : d.digits.all isdigit = true) : Scan d.chars [] (some d)
  | literal {c : UInt8} {rest : List UInt8} {pieces : List Piece} {tail : Option Directive}
      (hc : c ≠ chr '%') (hrest : Scan rest pieces tail) :
      Scan (c :: rest) (.literal c :: pieces) tail
  | conversion {d : Directive} {c : UInt8} {rest : List UInt8} {pieces : List Piece}
      {tail : Option Directive} (hends : d.Ends c rest.head?) (hrest : Scan rest pieces tail) :
      Scan (d.chars ++ c :: rest) (.conversion d c :: pieces) tail

/-- The documented conversions. -/
inductive Conversion where
  | char
  | string
  | signed
  | unsigned
  | hexadecimal
  | pointer
  | percent
  deriving DecidableEq

namespace Conversion

def ofChar (c : UInt8) : Option Conversion :=
  List.lookup c
    [(chr 'c', char), (chr 's', string), (chr 'd', signed), (chr 'i', signed), (chr 'u', unsigned),
      (chr 'x', hexadecimal), (chr 'p', pointer), (chr '%', percent)]

/-- The words of the stack that hold its argument. -/
def words (longLong : Bool) : Conversion → Nat
  | percent => 0
  | hexadecimal => if longLong then 2 else 1
  | _ => 1

end Conversion

/-- A documented conversion has a width below `2 ^ 32`, and `ll` stands before `x` only. -/
def Directive.Documented (d : Directive) (c : UInt8) : Prop :=
  (Conversion.ofChar c).isSome = true → d.width < 2 ^ 32 ∧ (d.longLong = true → c = chr 'x')

/-- The eight hexadecimal digits of an address. -/
def eightDigits (address : Nat) : List UInt8 :=
  List.replicate (8 - (hexadecimal address).length) (chr '0') ++ hexadecimal address

namespace PrintkCall

variable (call : PrintkCall)

/-- What a conversion stands for, with its argument in the words from `taken` on. -/
def conversionText (taken : Nat) (d : Directive) : Conversion → List UInt8
  | .char => [(call.args taken).toUInt8]
  | .string =>
    if call.args taken = 0 then str "(null)" else (call.strings (call.args taken)).chars
  | .signed =>
    let number := int32 (call.args taken).toNat
    d.extended (if number < 0 then [chr '-'] else []) (decimal number.natAbs)
  | .unsigned => d.extended [] (decimal (call.args taken).toNat)
  | .hexadecimal =>
    let high := if d.longLong then (call.args (taken + 1)).toNat else 0
    d.extended [] (hexadecimal (2 ^ 32 * high + (call.args taken).toNat))
  | .pointer => str "0x" ++ eightDigits (call.args taken).toNat
  | .percent => [chr '%']

/-- The text of the pieces, with their arguments in the words from `taken` on. -/
def render : Nat → List Piece → List UInt8
  | _, [] => []
  | taken, .literal c :: pieces => c :: render taken pieces
  | taken, .conversion d c :: pieces =>
    match Conversion.ofChar c with
    | some conversion =>
      call.conversionText taken d conversion
        ++ render (taken + conversion.words d.longLong) pieces
    | none => d.chars ++ [c] ++ render taken pieces

end PrintkCall

/-- The longest directive a text starts with after its `%`. -/
theorem exists_directive (rest : List UInt8) :
    ∃ d : Directive, d.digits.all isdigit = true ∧
      (chr '%' :: rest = d.chars
        ∨ ∃ c after, chr '%' :: rest = d.chars ++ c :: after ∧ d.Ends c after.head?) := by
  have hsplit := List.takeWhile_append_dropWhile (p := isdigit) (l := rest)
  have hdigits : (rest.takeWhile isdigit).all isdigit = true := List.all_takeWhile
  have hnext : ∀ c, (rest.dropWhile isdigit).head? = some c → isdigit c = false := by
    intro c hc
    have hnot := List.head?_dropWhile_not isdigit rest
    rw [hc] at hnot
    exact hnot
  generalize rest.takeWhile isdigit = digits at hsplit hdigits
  generalize rest.dropWhile isdigit = after at hsplit hnext
  subst hsplit
  by_cases hlong : str "ll" <+: after
  · obtain ⟨after, rfl⟩ := hlong
    refine ⟨⟨digits, true⟩, hdigits, ?_⟩
    cases after with
    | nil => exact .inl (by simp [Directive.chars])
    | cons c after =>
        refine .inr ⟨c, after, by simp [Directive.chars], hdigits, ?_, ?_⟩
        · intro hfalse
          cases hfalse
        · intro hfalse
          cases hfalse
  · refine ⟨⟨digits, false⟩, hdigits, ?_⟩
    cases after with
    | nil => exact .inl (by simp [Directive.chars])
    | cons c after =>
        refine .inr ⟨c, after, by simp [Directive.chars], hdigits, fun _ => hnext c rfl, ?_⟩
        rintro - ⟨rfl, hsecond⟩
        cases after with
        | nil => cases hsecond
        | cons second after =>
            obtain rfl := Option.some.inj hsecond
            exact hlong ⟨after, rfl⟩

theorem exists_scan (format : List UInt8) : ∃ pieces tail, Scan format pieces tail := by
  induction hlength : format.length using Nat.strong_induction_on generalizing format with
  | _ length ih =>
      cases format with
      | nil => exact ⟨[], none, .done⟩
      | cons c rest =>
          by_cases hc : c = chr '%'
          · subst hc
            obtain ⟨d, hdigits, htext | ⟨c, after, htext, hends⟩⟩ := exists_directive rest
            · rw [htext]
              exact ⟨[], some d, .inside hdigits⟩
            · have hshorter : after.length < length := by
                rw [← hlength, htext, List.length_append, List.length_cons]
                omega
              obtain ⟨pieces, tail, hrest⟩ := ih after.length hshorter after rfl
              rw [htext]
              exact ⟨_, tail, .conversion hends hrest⟩
          · have hshorter : rest.length < length := by
              rw [← hlength, List.length_cons]
              omega
            obtain ⟨pieces, tail, hrest⟩ := ih rest.length hshorter rest rfl
            exact ⟨_, tail, .literal hc hrest⟩

end KernelFromScratch
