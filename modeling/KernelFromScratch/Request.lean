import KernelFromScratch.Formatting

/-!
# Calls of `printk`

A caller hands `printk` a format and arguments of C types. On the stack an `int` is a word, a
`uint64_t` two words, the low one first, and a string is an address: a conversion takes the words it
takes, whatever the argument was.
-/

namespace KernelFromScratch

inductive Argument where
  | int (word : UInt32)
  | longLong (number : UInt64)
  | string (s : CString)

structure Request where
  format : List UInt8
  arguments : List Argument

namespace PrintkCall

/-- The words from `taken` on hold these arguments. -/
def Receives (call : PrintkCall) : Nat → List Argument → Prop
  | _, [] => True
  | taken, .int word :: rest => call.args taken = word ∧ call.Receives (taken + 1) rest
  | taken, .longLong number :: rest =>
    call.args taken = number.toUInt32 ∧ call.args (taken + 1) = (number >>> 32).toUInt32
      ∧ call.Receives (taken + 2) rest
  | taken, .string s :: rest =>
    call.args taken ≠ 0 ∧ call.strings (call.args taken) = s ∧ call.Receives (taken + 1) rest

/-- The call is one that this request makes, wherever its strings lie. -/
structure Performs (call : PrintkCall) (request : Request) : Prop where
  formats : call.Formats request.format
  receives : call.Receives 0 request.arguments

theorem sent_unique {call : PrintkCall} {k k' : Nat} (hk : (call.runFor k).point = .returned)
    (hk' : (call.runFor k').point = .returned) : (call.runFor k).sent = (call.runFor k').sent := by
  have hstays : ∀ {k : Nat} (extra : Nat), (call.runFor k).point = .returned →
      call.runFor (extra + k) = call.runFor k := by
    intro k extra hreturned
    rw [runFor, Function.iterate_add_apply]
    exact advance_returned hreturned extra
  calc (call.runFor k).sent
      = (call.runFor (k' + k)).sent := by rw [hstays k' hk]
    _ = (call.runFor (k + k')).sent := by rw [Nat.add_comm]
    _ = (call.runFor k').sent := by rw [hstays k hk']

end PrintkCall

namespace Request

/-- Every call this request makes returns and has sent this text. -/
structure Prints (request : Request) (text : List UInt8) : Prop where
  possible : ∃ call : PrintkCall, call.Performs request
  sends : ∀ call : PrintkCall, call.Performs request →
    ∃ k, (call.runFor k).point = .returned ∧ (call.runFor k).sent.chars = text

theorem Prints.unique {request : Request} {text text' : List UInt8} (hprints : request.Prints text)
    (hprints' : request.Prints text') : text = text' := by
  obtain ⟨call, hcall⟩ := hprints.possible
  obtain ⟨k, hreturned, hsent⟩ := hprints.sends call hcall
  obtain ⟨k', hreturned', hsent'⟩ := hprints'.sends call hcall
  rw [← hsent, ← hsent', PrintkCall.sent_unique hreturned hreturned']

end Request

namespace Argument

/-- The words of the argument, with every string at the address 1. -/
def words : Argument → List UInt32
  | int word => [word]
  | longLong number => [number.toUInt32, (number >>> 32).toUInt32]
  | string _ => [1]

end Argument

/-- A call that makes the request, with one string in memory. -/
def Request.call (request : Request) (s : CString) : PrintkCall where
  s i := (request.format ++ [0]).getD i 0
  args i := (request.arguments.flatMap Argument.words).getD i 0
  strings _ := s

theorem Request.call_performs {request : Request} {s : CString} (noNul : 0 ∉ request.format)
    (hstrings : ∀ s', Argument.string s' ∈ request.arguments → s' = s) :
    (request.call s).Performs request := by
  have hreceives : ∀ (before : List UInt32) (arguments : List Argument),
      request.arguments.flatMap Argument.words = before ++ arguments.flatMap Argument.words →
      (∀ s', Argument.string s' ∈ arguments → s' = s) →
      (request.call s).Receives before.length arguments := by
    intro before arguments
    induction arguments generalizing before with
    | nil => exact fun _ _ => trivial
    | cons argument arguments ih =>
        intro hwords hall
        have hargs : ∀ i, (request.call s).args i
            = (before ++ (argument :: arguments).flatMap Argument.words).getD i 0 := by
          intro i
          rw [← hwords]
          rfl
        have hrest := ih (before ++ argument.words) (by rw [hwords, List.append_assoc]; rfl)
          fun s' hmem => hall s' (List.mem_cons_of_mem _ hmem)
        have hfirst : (request.call s).args before.length = argument.words.getD 0 0 := by
          rw [hargs, List.getD_append_right _ _ _ _ le_rfl, Nat.sub_self]
          cases argument <;> rfl
        rw [List.length_append] at hrest
        cases argument with
        | int word => exact ⟨hfirst, hrest⟩
        | longLong number =>
            refine ⟨hfirst, ?_, hrest⟩
            rw [hargs, List.getD_append_right _ _ _ _ (Nat.le_add_right _ 1),
              Nat.add_sub_cancel_left]
            rfl
        | string s' =>
            refine ⟨?_, (hall s' List.mem_cons_self).symm, hrest⟩
            rw [hfirst]
            change (1 : UInt32) ≠ 0
            decide
  refine ⟨⟨PrintkCall.holds_of_getD fun k hk => ?_, noNul⟩, hreceives [] _ rfl hstrings⟩
  rw [Nat.zero_add]
  rfl

/-! ### Formats without widths -/

namespace Piece

/-- A character that is not the start of a conversion, or a conversion without a width. -/
def plain : Piece → Bool
  | literal c => c != chr '%' && c != 0
  | conversion d c =>
    d.digits.isEmpty && !isdigit c && c != chr 'l' && c != 0 && (!d.longLong || c == chr 'x')

end Piece

theorem scan_plain {pieces : List Piece} (hplain : pieces.all Piece.plain = true) :
    Scan (pieces.flatMap Piece.chars) pieces none := by
  induction pieces with
  | nil => exact .done
  | cons piece pieces ih =>
      rw [List.all_cons, Bool.and_eq_true] at hplain
      obtain ⟨hpiece, hpieces⟩ := hplain
      rw [List.flatMap_cons]
      cases piece with
      | literal c =>
          simp only [Piece.plain, Bool.and_eq_true, bne_iff_ne] at hpiece
          exact .literal hpiece.1 (ih hpieces)
      | conversion d c =>
          simp only [Piece.plain, Bool.and_eq_true, bne_iff_ne, List.isEmpty_iff,
            Bool.not_eq_true'] at hpiece
          obtain ⟨⟨⟨⟨hdigits, hdigit⟩, hlong⟩, -⟩, -⟩ := hpiece
          have hends : d.Ends c (pieces.flatMap Piece.chars).head? := by
            refine ⟨?_, fun _ => hdigit, fun _ h => hlong h.1⟩
            rw [hdigits]
            rfl
          rw [Piece.chars, List.append_assoc]
          exact .conversion hends (ih hpieces)

theorem documented_plain {pieces : List Piece} (hplain : pieces.all Piece.plain = true) :
    ∀ d c, Piece.conversion d c ∈ pieces → d.Documented c := by
  intro d c hmem _
  have hpiece := List.all_eq_true.mp hplain _ hmem
  simp only [Piece.plain, Bool.and_eq_true, bne_iff_ne, List.isEmpty_iff, Bool.or_eq_true,
    Bool.not_eq_true', beq_iff_eq] at hpiece
  obtain ⟨⟨⟨⟨hdigits, -⟩, -⟩, -⟩, hlong⟩ := hpiece
  refine ⟨?_, fun htrue => ?_⟩
  · rw [Directive.width, hdigits]
    decide
  · rcases hlong with hfalse | hx
    · rw [htrue] at hfalse
      cases hfalse
    · exact hx

/-- A request with a format of plain pieces prints what the pieces render to. -/
theorem Request.prints_of_render {request : Request} (pieces : List Piece) (s : CString)
    {text : List UInt8} (hformat : request.format = pieces.flatMap Piece.chars)
    (hplain : pieces.all Piece.plain = true) (noNul : 0 ∉ request.format)
    (hstrings : ∀ s', Argument.string s' ∈ request.arguments → s' = s)
    (htext : ∀ call : PrintkCall, call.Receives 0 request.arguments →
      call.render 0 pieces = text) : request.Prints text := by
  refine ⟨⟨request.call s, call_performs noNul hstrings⟩, fun call hcall => ?_⟩
  have hformats := hcall.formats
  rw [hformat] at hformats
  obtain ⟨k, hrun⟩ := PrintkCall.exists_runFor_eq hformats (scan_plain hplain)
    (documented_plain hplain)
  refine ⟨k, by rw [hrun], ?_⟩
  rw [hrun]
  exact htext call hcall.receives

def literals (text : List UInt8) : List Piece := text.map .literal

theorem render_literals (call : PrintkCall) (taken : Nat) (text : List UInt8)
    (pieces : List Piece) :
    call.render taken (literals text ++ pieces) = text ++ call.render taken pieces := by
  induction text with
  | nil => rfl
  | cons c text ih =>
      calc call.render taken (literals (c :: text) ++ pieces)
          = c :: call.render taken (literals text ++ pieces) := rfl
        _ = c :: (text ++ call.render taken pieces) := by rw [ih]

def signedPiece : Piece := .conversion ⟨[], false⟩ (chr 'd')

def stringPiece : Piece := .conversion ⟨[], false⟩ (chr 's')

def longHexPiece : Piece := .conversion ⟨[], true⟩ (chr 'x')

section Conversions

variable {call : PrintkCall} {taken : Nat} (pieces : List Piece)

theorem render_signedPiece :
    call.render taken (signedPiece :: pieces)
      = signedDecimal (int32 (call.args taken).toNat) ++ call.render (taken + 1) pieces := by
  have hsigned : call.conversionText taken ⟨[], false⟩ .signed
      = signedDecimal (int32 (call.args taken).toNat) := Directive.extended_plain _ _ _
  calc call.render taken (signedPiece :: pieces)
      = call.conversionText taken ⟨[], false⟩ .signed ++ call.render (taken + 1) pieces := rfl
    _ = signedDecimal (int32 (call.args taken).toNat) ++ call.render (taken + 1) pieces := by
        rw [hsigned]

theorem render_stringPiece (hnotNull : call.args taken ≠ 0) :
    call.render taken (stringPiece :: pieces)
      = (call.strings (call.args taken)).chars ++ call.render (taken + 1) pieces := by
  calc call.render taken (stringPiece :: pieces)
      = call.conversionText taken ⟨[], false⟩ .string ++ call.render (taken + 1) pieces := rfl
    _ = (call.strings (call.args taken)).chars ++ call.render (taken + 1) pieces := by
        rw [PrintkCall.conversionText, if_neg hnotNull]

theorem render_longHexPiece {number : UInt64} (hlow : call.args taken = number.toUInt32)
    (hhigh : call.args (taken + 1) = (number >>> 32).toUInt32) :
    call.render taken (longHexPiece :: pieces)
      = hexadecimal number.toNat ++ call.render (taken + 2) pieces := by
  have hargument : 2 ^ 32 * (call.args (taken + 1)).toNat + (call.args taken).toNat
      = number.toNat := by
    rw [hlow, hhigh, halves_toNat]
  calc call.render taken (longHexPiece :: pieces)
      = Directive.extended ⟨[], true⟩ []
          (hexadecimal (2 ^ 32 * (call.args (taken + 1)).toNat + (call.args taken).toNat))
          ++ call.render (taken + 2) pieces := rfl
    _ = hexadecimal number.toNat ++ call.render (taken + 2) pieces := by
        rw [hargument, Directive.extended_plain, List.nil_append]

end Conversions

end KernelFromScratch
