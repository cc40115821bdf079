import KernelFromScratch.Library.Field
import KernelFromScratch.Request
import KernelFromScratch.StackDump

/-!
# The lines of the stack dump

What the requests of `stack.c` print. Addresses, bytes and words are hexadecimal numerals of a fixed
width.
-/

namespace KernelFromScratch

/-! ### Formats with widths -/

/-- A character that is not the start of a conversion, or a conversion without `ll`. -/
def Piece.sized : Piece → Bool
  | literal c => c != chr '%'
  | conversion d c =>
    d.digits.all isdigit && !isdigit c && c != chr 'l' && !d.longLong && decide (d.width < 2 ^ 32)

variable {pieces : List Piece}

theorem scan_sized (hsized : pieces.all Piece.sized = true) :
    Scan (pieces.flatMap Piece.chars) pieces none := by
  induction pieces with
  | nil => exact .done
  | cons piece pieces ih =>
      rw [List.all_cons, Bool.and_eq_true] at hsized
      obtain ⟨hpiece, hpieces⟩ := hsized
      rw [List.flatMap_cons]
      cases piece with
      | literal c => exact .literal (bne_iff_ne.mp hpiece) (ih hpieces)
      | conversion d c =>
          simp only [Piece.sized, Bool.and_eq_true, bne_iff_ne, Bool.not_eq_true'] at hpiece
          obtain ⟨⟨⟨⟨hdigits, hdigit⟩, hlong⟩, -⟩, -⟩ := hpiece
          rw [Piece.chars, List.append_assoc]
          exact .conversion ⟨hdigits, fun _ => hdigit, fun _ h => hlong h.1⟩ (ih hpieces)

theorem documented_sized (hsized : pieces.all Piece.sized = true) :
    ∀ d c, Piece.conversion d c ∈ pieces → d.Documented c := by
  intro d c hmem _
  have hpiece := List.all_eq_true.mp hsized _ hmem
  simp only [Piece.sized, Bool.and_eq_true, Bool.not_eq_true', decide_eq_true_eq] at hpiece
  obtain ⟨⟨-, hshort⟩, hwidth⟩ := hpiece
  refine ⟨hwidth, fun htrue => ?_⟩
  rw [hshort] at htrue
  cases htrue

/-- A request that some call makes prints what the pieces of its format render to. -/
theorem Request.prints_of_scan {request : Request} (pieces : List Piece) {text : List UInt8}
    (hpossible : ∃ call : PrintkCall, call.Performs request)
    (hscan : Scan request.format pieces none)
    (hdocumented : ∀ d c, Piece.conversion d c ∈ pieces → d.Documented c)
    (htext : ∀ call : PrintkCall, call.Receives 0 request.arguments →
      call.render 0 pieces = text) : request.Prints text := by
  refine ⟨hpossible, fun call hcall => ?_⟩
  obtain ⟨k, hrun⟩ := PrintkCall.exists_runFor_eq hcall.formats hscan hdocumented
  refine ⟨k, by rw [hrun], ?_⟩
  rw [hrun]
  exact htext call hcall.receives

theorem Request.prints_of_sized {request : Request} (pieces : List Piece) (s : CString)
    {text : List UInt8} (hformat : request.format = pieces.flatMap Piece.chars)
    (hsized : pieces.all Piece.sized = true) (noNul : 0 ∉ request.format)
    (hstrings : ∀ s', Argument.string s' ∈ request.arguments → s' = s)
    (htext : ∀ call : PrintkCall, call.Receives 0 request.arguments →
      call.render 0 pieces = text) : request.Prints text := by
  refine Request.prints_of_scan pieces ⟨request.call s, call_performs noNul hstrings⟩ ?_
    (documented_sized hsized) htext
  rw [hformat]
  exact scan_sized hsized

/-! ### Hexadecimal numerals -/

def hexField (width n : Nat) : List UInt8 := padded 16 digitChar width n

/-- The value of a hexadecimal digit. -/
def digitValue (c : UInt8) : Option Nat := hexDigits.idxOf? c

def readHex (width column : Nat) (line : List UInt8) : Option Nat :=
  readField 16 digitValue width column line

theorem digitValue_digitChar : ∀ d < 16, digitValue (digitChar d) = some d := by decide

theorem readHex_hexField {width n : Nat} (hwidth : 0 < width) (hlt : n < 16 ^ width)
    (before after : List UInt8) :
    readHex width before.length (before ++ hexField width n ++ after) = some n :=
  readField_padded (by decide) digitValue_digitChar hwidth hlt before after

theorem readHex_blank {width : Nat} (hwidth : 0 < width) (before after : List UInt8) :
    readHex width before.length (before ++ (str "   " ++ after)) = none :=
  readField_blank rfl hwidth before (str "  " ++ after)

theorem length_hexField {width n : Nat} (hwidth : 0 < width) (hlt : n < 16 ^ width) :
    (hexField width n).length = width :=
  length_padded (by decide) hwidth hlt

theorem newline_notMem_hexField (width n : Nat) : newline ∉ hexField width n := by
  have hdigit : ∀ d < 16, digitChar d ≠ newline := by decide
  rw [hexField, padded, List.mem_append, not_or]
  constructor
  · intro hmem
    exact hdigit 0 (by decide) (List.mem_replicate.mp hmem).2.symm
  · intro hmem
    obtain ⟨d, hd, heq⟩ := List.mem_map.mp hmem
    exact hdigit d (mem_numeral_lt (by decide) hd) heq

def hexPiece (digits : List UInt8) : Piece := .conversion ⟨digits, false⟩ (chr 'x')

def charPiece : Piece := .conversion ⟨[], false⟩ (chr 'c')

section Conversions

variable {call : PrintkCall} {taken : Nat}

theorem render_hexPiece (digits : List UInt8) (pieces : List Piece) :
    call.render taken (hexPiece digits :: pieces)
      = Directive.extended ⟨digits, false⟩ [] (hexadecimal (call.args taken).toNat)
        ++ call.render (taken + 1) pieces := by
  have hargument : 2 ^ 32 * 0 + (call.args taken).toNat = (call.args taken).toNat := Nat.zero_add _
  calc call.render taken (hexPiece digits :: pieces)
      = Directive.extended ⟨digits, false⟩ []
          (hexadecimal (2 ^ 32 * 0 + (call.args taken).toNat))
          ++ call.render (taken + 1) pieces := rfl
    _ = Directive.extended ⟨digits, false⟩ [] (hexadecimal (call.args taken).toNat)
          ++ call.render (taken + 1) pieces := by rw [hargument]

theorem extended_hexField {d : Directive} (hzero : d.zero = true) (n : Nat) :
    d.extended [] (hexadecimal n) = hexField d.width n := by
  have hlength : (hexadecimal n).length = (numeral 16 n).length := List.length_map _
  rw [Directive.extended, if_pos hzero, List.length_nil, Nat.zero_add, hlength, hexField, padded]
  rfl

theorem render_charPiece (pieces : List Piece) :
    call.render taken (charPiece :: pieces)
      = (call.args taken).toUInt8 :: call.render (taken + 1) pieces := rfl

end Conversions

/-! ### The requests -/

theorem text_prints {text : List UInt8} (hplain : (literals text).all Piece.plain = true)
    (noNul : 0 ∉ text) : (⟨text, []⟩ : Request).Prints text := by
  have hchars : text = (literals text ++ []).flatMap Piece.chars := by
    rw [List.append_nil, literals, List.flatMap_map]
    exact (List.flatMap_singleton' text).symm
  refine Request.prints_of_render (literals text ++ []) ⟨[], by decide, by decide⟩ hchars ?_ noNul
    (fun _ hmem => absurd hmem List.not_mem_nil) ?_
  · rw [List.append_nil]
    exact hplain
  · intro call _
    rw [render_literals, PrintkCall.render, List.append_nil]

theorem address_prints (address : UInt32) :
    (⟨str "0x%08x  ", [.int address]⟩ : Request).Prints
      (str "0x" ++ hexField 8 address.toNat ++ str "  ") := by
  refine Request.prints_of_sized (literals (str "0x") ++ (hexPiece (str "08")
    :: (literals (str "  ") ++ []))) ⟨[], by decide, by decide⟩ rfl (by decide) ?_ (by simp) ?_
  · change 0 ∉ str "0x%08x  "
    decide
  · rintro call ⟨haddress, -⟩
    rw [render_literals, render_hexPiece, render_literals, haddress, extended_hexField rfl,
      PrintkCall.render, List.append_nil, List.append_assoc]
    rfl

theorem byte_prints (byte : UInt8) :
    (⟨str "%02x ", [.int byte.toUInt32]⟩ : Request).Prints (hexField 2 byte.toNat ++ str " ") := by
  refine Request.prints_of_sized (hexPiece (str "02") :: (literals (str " ") ++ []))
    ⟨[], by decide, by decide⟩ rfl (by decide) ?_ (by simp) ?_
  · change 0 ∉ str "%02x "
    decide
  · rintro call ⟨hbyte, -⟩
    rw [render_hexPiece, render_literals, hbyte, extended_hexField rfl, PrintkCall.render,
      List.append_nil, UInt8.toNat_toUInt32]
    rfl

theorem char_prints (c : UInt8) :
    (⟨str "%c", [.int c.toUInt32]⟩ : Request).Prints [c] := by
  refine Request.prints_of_sized [charPiece] ⟨[], by decide, by decide⟩ rfl (by decide) ?_
    (by simp) ?_
  · change 0 ∉ str "%c"
    decide
  · rintro call ⟨hc, -⟩
    rw [render_charPiece, hc, UInt8.toUInt8_toUInt32]
    rfl

theorem word_prints (address value : UInt32) :
    (⟨str "0x%08x  0x%08x  ", [.int address, .int value]⟩ : Request).Prints
      (str "0x" ++ hexField 8 address.toNat ++ (str "  0x" ++ hexField 8 value.toNat)
        ++ str "  ") := by
  refine Request.prints_of_sized (literals (str "0x") ++ (hexPiece (str "08")
    :: (literals (str "  0x") ++ (hexPiece (str "08") :: (literals (str "  ") ++ [])))))
    ⟨[], by decide, by decide⟩ rfl (by decide) ?_ (by simp) ?_
  · change 0 ∉ str "0x%08x  0x%08x  "
    decide
  · rintro call ⟨haddress, hvalue, -⟩
    rw [render_literals, render_hexPiece, render_literals, render_hexPiece, render_literals,
      haddress, hvalue, extended_hexField rfl, extended_hexField rfl, PrintkCall.render,
      List.append_nil]
    simp only [List.append_assoc]
    rfl

theorem hex_prints {before after : List UInt8} (number : UInt32)
    (hbefore : (literals before).all Piece.sized = true)
    (hafter : (literals after).all Piece.sized = true) (noNul : 0 ∉ before ++ str "%x" ++ after) :
    (⟨before ++ str "%x" ++ after, [.int number]⟩ : Request).Prints
      (before ++ hexadecimal number.toNat ++ after) := by
  have hchars : ∀ text : List UInt8, (literals text).flatMap Piece.chars = text := by
    intro text
    rw [literals, List.flatMap_map]
    exact List.flatMap_singleton' text
  refine Request.prints_of_sized (literals before ++ (hexPiece [] :: (literals after ++ [])))
    ⟨[], by decide, by decide⟩ ?_ ?_ noNul (by simp) ?_
  · rw [List.flatMap_append, hchars, List.flatMap_cons, List.append_nil, hchars,
      List.append_assoc]
    rfl
  · rw [List.all_append, hbefore, List.all_cons, List.append_nil, hafter]
    decide
  · rintro call ⟨hnumber, -⟩
    rw [render_literals, render_hexPiece, render_literals, hnumber, Directive.extended_plain,
      PrintkCall.render, List.append_nil, List.nil_append, List.append_assoc]

theorem return_prints (address value : UInt32) :
    (⟨str "Possible return address at 0x%x: 0x%x\n", [.int address, .int value]⟩ : Request).Prints
      (str "Possible return address at 0x" ++ (hexadecimal address.toNat
        ++ (str ": 0x" ++ (hexadecimal value.toNat ++ str "\n")))) := by
  refine Request.prints_of_sized (literals (str "Possible return address at 0x") ++ (hexPiece []
    :: (literals (str ": 0x") ++ (hexPiece [] :: (literals (str "\n") ++ [])))))
    ⟨[], by decide, by decide⟩ rfl (by decide) ?_ (by simp) ?_
  · change 0 ∉ str "Possible return address at 0x%x: 0x%x\n"
    decide
  · rintro call ⟨haddress, hvalue, -⟩
    rw [render_literals, render_hexPiece, render_literals, render_hexPiece, render_literals,
      haddress, hvalue, Directive.extended_plain, Directive.extended_plain, PrintkCall.render,
      List.append_nil, List.nil_append, List.nil_append]

theorem registers_prints (esp ebp used : UInt32) :
    (⟨str "ESP: 0x%x | EBP: 0x%x | Used: %d bytes\n\n", [.int esp, .int ebp, .int used]⟩ :
      Request).Prints (str "ESP: 0x" ++ (hexadecimal esp.toNat ++ (str " | EBP: 0x"
        ++ (hexadecimal ebp.toNat ++ (str " | Used: " ++ (signedDecimal (int32 used.toNat)
        ++ str " bytes\n\n")))))) := by
  refine Request.prints_of_sized (literals (str "ESP: 0x") ++ (hexPiece []
    :: (literals (str " | EBP: 0x") ++ (hexPiece [] :: (literals (str " | Used: ") ++ (signedPiece
      :: (literals (str " bytes\n\n") ++ [])))))))
    ⟨[], by decide, by decide⟩ rfl (by decide) ?_ (by simp) ?_
  · change 0 ∉ str "ESP: 0x%x | EBP: 0x%x | Used: %d bytes\n\n"
    decide
  · rintro call ⟨hesp, hebp, hused, -⟩
    rw [render_literals, render_hexPiece, render_literals, render_hexPiece, render_literals,
      render_signedPiece, render_literals, hesp, hebp, hused, Directive.extended_plain,
      Directive.extended_plain, PrintkCall.render, List.append_nil, List.nil_append,
      List.nil_append]

theorem frame_prints (size : UInt32) :
    (⟨str "Stack frame size: %d bytes\n", [.int size]⟩ : Request).Prints
      (str "Stack frame size: " ++ (signedDecimal (int32 size.toNat) ++ str " bytes\n")) := by
  refine Request.prints_of_sized (literals (str "Stack frame size: ") ++ (signedPiece
    :: (literals (str " bytes\n") ++ []))) ⟨[], by decide, by decide⟩ rfl (by decide) ?_ (by simp) ?_
  · change 0 ∉ str "Stack frame size: %d bytes\n"
    decide
  · rintro call ⟨hsize, -⟩
    rw [render_literals, render_signedPiece, render_literals, hsize, PrintkCall.render,
      List.append_nil]

theorem ascii_prints (s : CString) :
    (⟨str "'%s'\n", [.string s]⟩ : Request).Prints (str "'" ++ s.chars ++ str "'\n") := by
  refine Request.prints_of_sized (literals (str "'") ++ (stringPiece
    :: (literals (str "'\n") ++ []))) s rfl (by decide) ?_ ?_ ?_
  · change 0 ∉ str "'%s'\n"
    decide
  · intro s' hmem
    simpa using hmem
  · rintro call ⟨hnotNull, hstring, -⟩
    rw [render_literals, render_stringPiece _ hnotNull, hstring, render_literals,
      PrintkCall.render, List.append_nil, List.append_assoc]

/-! ### Dumps -/

namespace Dump

variable {first second dump : Dump} {text text' : List UInt8}

/-- The calls of the dump print this text. -/
def Prints (dump : Dump) (text : List UInt8) : Prop :=
  ∃ texts, List.Forall₂ Request.Prints dump.requests texts ∧ texts.flatten = text

theorem Prints.append (hfirst : first.Prints text) (hsecond : second.Prints text') :
    (first ++ second).Prints (text ++ text') := by
  obtain ⟨texts, hfirst, rfl⟩ := hfirst
  obtain ⟨texts', hsecond, rfl⟩ := hsecond
  exact ⟨texts ++ texts', List.rel_append hfirst hsecond, List.flatten_append⟩

theorem Prints.unique (hprints : dump.Prints text) (hprints' : dump.Prints text') :
    text = text' := by
  obtain ⟨texts, hall, rfl⟩ := hprints
  obtain ⟨texts', hall', rfl⟩ := hprints'
  rw [List.right_unique_forall₂' (fun _ _ _ h h' => h.unique h') hall hall']

theorem prints_reads (reads : List UInt32) : Prints ⟨[], reads⟩ [] := ⟨[], .nil, rfl⟩

theorem prints_read32 (address : UInt32) : (read32 address).Prints [] := prints_reads _

theorem prints_print {format : List UInt8} {arguments : List Argument}
    (hprints : Request.Prints ⟨format, arguments⟩ text) : (print format arguments).Prints text :=
  ⟨[text], .cons hprints .nil, List.append_nil text⟩

theorem prints_text (hplain : (literals text).all Piece.plain = true) (noNul : 0 ∉ text) :
    (print text []).Prints text :=
  prints_print (text_prints hplain noNul)

theorem Prints.when {test : Bool} (hprints : test = true → dump.Prints text) :
    (when test dump).Prints (if test then text else []) := by
  cases test with
  | false => exact prints_reads []
  | true => exact hprints rfl

theorem prints_forEach {n : Nat} {body : Nat → Dump} {texts : Nat → List UInt8}
    (hbody : ∀ i < n, (body i).Prints (texts i)) :
    (forEach n body).Prints ((List.range n).flatMap texts) := by
  induction n with
  | zero => exact prints_reads []
  | succ n ih =>
      have hfirst := ih fun i hi => hbody i (Nat.lt_succ_of_lt hi)
      have hboth := hfirst.append (hbody n (Nat.lt_succ_self n))
      have hdump : forEach (n + 1) body = forEach n body ++ body n := by
        change Dump.mk _ _ = Dump.mk _ _
        rw [List.range_succ, List.flatMap_append, List.flatMap_append, List.flatMap_singleton,
          List.flatMap_singleton]
        rfl
      rw [hdump, List.range_succ, List.flatMap_append, List.flatMap_singleton]
      exact hboth

/-- Nothing but a part of a line is printed. -/
def InLine (dump : Dump) : Prop := ∃ text, dump.Prints text ∧ newline ∉ text

theorem InLine.append (hfirst : first.InLine) (hsecond : second.InLine) :
    (first ++ second).InLine := by
  obtain ⟨text, hprints, hnewline⟩ := hfirst
  obtain ⟨text', hprints', hnewline'⟩ := hsecond
  exact ⟨text ++ text', hprints.append hprints', by
    rw [List.mem_append, not_or]
    exact ⟨hnewline, hnewline'⟩⟩

theorem inLine_reads (reads : List UInt32) : InLine ⟨[], reads⟩ :=
  ⟨[], prints_reads reads, List.not_mem_nil⟩

theorem InLine.when {test : Bool} (hinLine : test = true → dump.InLine) :
    (Dump.when test dump).InLine := by
  cases test with
  | false => exact inLine_reads []
  | true => exact hinLine rfl

theorem inLine_forEach {n : Nat} {body : Nat → Dump} (hbody : ∀ i < n, (body i).InLine) :
    (forEach n body).InLine := by
  choose! texts hprints using fun i (hi : i < n) => hbody i hi
  refine ⟨_, prints_forEach fun i hi => (hprints i hi).1, ?_⟩
  rw [List.mem_flatMap]
  rintro ⟨i, hi, hmem⟩
  exact (hprints i (List.mem_range.mp hi)).2 hmem

theorem inLine_text {text : List UInt8} (hplain : (literals text).all Piece.plain = true)
    (noNul : 0 ∉ text) (hnewline : newline ∉ text) : (print text []).InLine :=
  ⟨text, prints_text hplain noNul, hnewline⟩

/-- The dump prints these lines. -/
structure Lines (dump : Dump) (lines : List (List UInt8)) : Prop where
  prints : dump.Prints (joinLines newline lines)
  inside : ∀ line ∈ lines, newline ∉ line

variable {lines lines' : List (List UInt8)}

theorem Lines.append (hfirst : first.Lines lines) (hsecond : second.Lines lines') :
    (first ++ second).Lines (lines ++ lines') := by
  constructor
  · rw [joinLines_append]
    exact hfirst.prints.append hsecond.prints
  · intro line hline
    rcases List.mem_append.mp hline with hline | hline
    · exact hfirst.inside line hline
    · exact hsecond.inside line hline

theorem lines_reads (reads : List UInt32) : Lines ⟨[], reads⟩ [] :=
  ⟨prints_reads reads, fun _ hmem => absurd hmem List.not_mem_nil⟩

theorem lines_text {lines : List (List UInt8)} {text : List UInt8}
    (htext : joinLines newline lines = text) (hplain : (literals text).all Piece.plain = true)
    (noNul : 0 ∉ text) (hinside : ∀ line ∈ lines, newline ∉ line) : (print text []).Lines lines := by
  refine ⟨?_, hinside⟩
  rw [htext]
  exact prints_text hplain noNul

theorem lines_read32 (address : UInt32) : (read32 address).Lines [] := lines_reads _

theorem Lines.splitOn (hlines : dump.Lines lines) (hprints : dump.Prints text) :
    text.splitOn newline = lines ++ [[]] := by
  rw [hprints.unique hlines.prints]
  exact splitOn_joinLines hlines.inside

end Dump

end KernelFromScratch
