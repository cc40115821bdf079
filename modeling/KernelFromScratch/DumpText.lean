import KernelFromScratch.Proof.DumpLines
import KernelFromScratch.StackReads

/-!
# Reading the stack dump back

The dump is a text from which the return addresses, the bytes and the words of the stack can be read
back, whatever the stack holds: a string that is shown beside a row stays on its line.
-/

namespace KernelFromScratch

/-! ### Reading -/

def returnsHeading : List UInt8 := str "Looking for return addresses..."

def bytesHeading : List UInt8 := str "=== Detailed Stack Contents (with ASCII) ==="

def wordsHeading : List UInt8 := str "=== Word View (for stack frames) ==="

/-- The two lines under the heading. -/
def bytesColumns : List (List UInt8) :=
  [str "Addr       Hex Value     ASCII           Notes",
    str "---------- ------------  --------------  ----------"]

def wordsColumns : List (List UInt8) :=
  [str "Addr       Value        Notes", str "---------- -----------  --------------------"]

/-- The number behind the last `x`. -/
def readReturn (line : List UInt8) : Option UInt32 :=
  (((line.reverse.takeWhile (· ≠ chr 'x')).reverse.mapM digitValue).map (valueFrom 16 0)).map .ofNat

def readReturns (text : List UInt8) : List UInt32 :=
  (sectionOf returnsHeading 0 (text.splitOn newline)).filterMap readReturn

/-- The bytes in the hex column of a row, with their addresses. -/
def readRow (line : List UInt8) : List (UInt32 × UInt8) :=
  match readHex 8 2 line with
  | some address =>
    (List.range 16).filterMap fun i =>
      (readHex 2 (12 + 3 * i + i / 8) line).map fun byte => (.ofNat (address + i), .ofNat byte)
  | none => []

def readBytes (text : List UInt8) : List (UInt32 × UInt8) :=
  (sectionOf bytesHeading bytesColumns.length (text.splitOn newline)).flatMap readRow

/-- The word of a line of the word view, with its address. -/
def readWord (line : List UInt8) : Option (UInt32 × UInt32) :=
  match readHex 8 2 line, readHex 8 14 line with
  | some address, some value => some (.ofNat address, .ofNat value)
  | _, _ => none

def readWords (text : List UInt8) : List (UInt32 × UInt32) :=
  (sectionOf wordsHeading wordsColumns.length (text.splitOn newline)).filterMap readWord

namespace Dump

variable {first second dump : Dump} {start text : List UInt8}

/-- The dump prints `start` and then the rest of a line. -/
def Begins (dump : Dump) (start : List UInt8) : Prop :=
  ∃ rest, dump.Prints (start ++ rest) ∧ newline ∉ rest

theorem Prints.begins (hprints : dump.Prints text) : dump.Begins text := by
  refine ⟨[], ?_, List.not_mem_nil⟩
  rwa [List.append_nil]

theorem Begins.append (hfirst : first.Begins start) (hsecond : second.InLine) :
    (first ++ second).Begins start := by
  obtain ⟨rest, hprints, hnewline⟩ := hfirst
  obtain ⟨rest', hprints', hnewline'⟩ := hsecond
  refine ⟨rest ++ rest', ?_, ?_⟩
  · rw [← List.append_assoc]
    exact hprints.append hprints'
  · rw [List.mem_append, not_or]
    exact ⟨hnewline, hnewline'⟩

theorem Begins.line (hstart : newline ∉ start) (hbegins : dump.Begins start) :
    ∃ rest, (dump ++ print (str "\n") []).Lines [start ++ rest] := by
  obtain ⟨rest, hprints, hnewline⟩ := hbegins
  refine ⟨rest, ?_, ?_⟩
  · rw [joinLines, List.flatMap_singleton]
    exact hprints.append (prints_text (by decide) (by decide))
  · intro line hline
    rw [List.mem_singleton.mp hline, List.mem_append, not_or]
    exact ⟨hstart, hnewline⟩

end Dump

section Views

variable {memory : Memory} {esp ebp top address : UInt32} {i m : Nat}

/-! ### The hex column -/

def hexCell (memory : Memory) (top address : UInt32) (i : Nat) : List UInt8 :=
  (if address + .ofNat i < top then hexField 2 (memory (address + .ofNat i)).toNat ++ str " "
    else str "   ") ++ if i = 7 then str " " else []

theorem hexField_byte (byte : UInt8) : (hexField 2 byte.toNat).length = 2 :=
  length_hexField (by decide) byte.toNat_lt

theorem hexField_word (word : UInt32) : (hexField 8 word.toNat).length = 8 :=
  length_hexField (by decide) word.toNat_lt

theorem hexColumn_prints (offset : UInt32) :
    (hexColumn memory esp top offset).Prints
      ((List.range 16).flatMap (hexCell memory top (esp + offset))) := by
  apply Dump.prints_forEach
  intro i _
  have hgap : (Dump.when (i = 7) (.print (str " ") [])).Prints (if i = 7 then str " " else []) := by
    have hwhen := @Dump.Prints.when (.print (str " ") []) (str " ") (decide (i = 7))
      fun _ => Dump.prints_text (by decide) (by decide)
    simpa only [decide_eq_true_eq] using hwhen
  refine Dump.Prints.append ?_ hgap
  by_cases hinside : esp + offset + .ofNat i < top
  · simp only [if_pos hinside, byte_address]
    exact (Dump.prints_reads _).append (Dump.prints_print (byte_prints _))
  · simp only [if_neg hinside]
    exact Dump.prints_text (by decide) (by decide)

theorem length_hexCell (memory : Memory) (top address : UInt32) (i : Nat) :
    (hexCell memory top address i).length = if i = 7 then 4 else 3 := by
  have hcell : (if address + .ofNat i < top then
      hexField 2 (memory (address + .ofNat i)).toNat ++ str " " else str "   ").length = 3 := by
    split_ifs
    · rw [List.length_append, hexField_byte]
      rfl
    · rfl
  rw [hexCell, List.length_append, hcell]
  split_ifs <;> rfl

/-- The column at which the cell of byte `i` starts. -/
theorem length_hexCells (memory : Memory) (top address : UInt32) (hi : i < 16) :
    ((List.range i).flatMap (hexCell memory top address)).length = 3 * i + i / 8 := by
  induction i with
  | zero => rfl
  | succ i ih =>
      rw [List.range_succ, List.flatMap_append, List.flatMap_singleton, List.length_append,
        ih (by omega), length_hexCell]
      split_ifs <;> omega

theorem range_eq_append_cons {n : Nat} (hi : i < n) :
    ∃ rest, List.range n = List.range i ++ i :: rest := by
  obtain ⟨count, rfl⟩ := Nat.exists_eq_add_of_lt hi
  refine ⟨(List.range count).map fun j => i + (j + 1), ?_⟩
  rw [Nat.add_assoc, List.range_add, List.range_succ_eq_map, List.map_cons, List.map_map,
    Nat.add_zero]
  rfl

theorem readHex_cell (hi : i < 16) {before : List UInt8} (hbefore : before.length = 12)
    (after : List UInt8) :
    readHex 2 (12 + 3 * i + i / 8)
        (before ++ (List.range 16).flatMap (hexCell memory top address) ++ after)
      = if address + .ofNat i < top then some (memory (address + .ofNat i)).toNat else none := by
  obtain ⟨rest, hsplit⟩ := range_eq_append_cons hi
  have hcolumn : (before ++ (List.range i).flatMap (hexCell memory top address)).length
      = 12 + 3 * i + i / 8 := by
    rw [List.length_append, hbefore, length_hexCells memory top address hi, Nat.add_assoc]
  rw [hsplit, List.flatMap_append, List.flatMap_cons, ← hcolumn, hexCell]
  by_cases hinside : address + .ofNat i < top
  · simp only [if_pos hinside]
    have hfield := @readHex_hexField 2 _ (by decide) (memory (address + .ofNat i)).toNat_lt
      (before ++ (List.range i).flatMap (hexCell memory top address))
      (str " " ++ ((if i = 7 then str " " else []) ++
        (rest.flatMap (hexCell memory top address) ++ after)))
    simpa only [List.append_assoc] using hfield
  · simp only [if_neg hinside]
    have hblank := @readHex_blank 2 (by decide)
      (before ++ (List.range i).flatMap (hexCell memory top address))
      ((if i = 7 then str " " else []) ++ (rest.flatMap (hexCell memory top address) ++ after))
    simpa only [List.append_assoc] using hblank

/-! ### The rest of a row -/

theorem isprint_ne_newline {c : UInt8} (hprint : isprint c = true) : c ≠ newline := by
  rintro rfl
  exact absurd hprint (by decide)

theorem char_inLine {c : UInt8} (hc : c ≠ newline) :
    (Dump.print (str "%c") [.int c.toUInt32]).InLine := by
  refine ⟨[c], Dump.prints_print (char_prints c), ?_⟩
  rw [List.mem_singleton]
  exact hc.symm

theorem asciiColumn_inLine (offset : UInt32) : (asciiColumn memory esp top offset).InLine := by
  apply Dump.inLine_forEach
  intro i _
  by_cases hinside : esp + offset + .ofNat i < top
  · simp only [if_pos hinside, ← apply_ite UInt8.toUInt32]
    refine Dump.InLine.append ?_ (char_inLine ?_)
    · exact (Dump.inLine_reads _).append (.when fun _ => Dump.inLine_reads _)
    · split_ifs with hprint
      · exact isprint_ne_newline hprint
      · decide
  · simp only [if_neg hinside]
    exact Dump.inLine_text (by decide) (by decide) (by decide)

/-- The string that is shown holds printable characters only. -/
theorem stringNote_inLine (address : UInt32) : (stringNote memory top address).InLine := by
  have hscan := @stringScan_scanned memory top address 16 0
  rw [stringNote]
  refine Dump.InLine.append (Dump.inLine_reads _) (.when fun _ => ?_)
  refine Dump.InLine.append (Dump.inLine_reads _) (.when fun _ => ?_)
  refine Dump.InLine.append (Dump.InLine.append ?_ (Dump.inLine_forEach fun i hi => ?_)) ?_
  · exact Dump.inLine_text (by decide) (by decide) (by decide)
  · have hprint := (hscan.printable i (Nat.zero_le i) hi).2
    exact (Dump.inLine_reads _).append (char_inLine (isprint_ne_newline hprint))
  · exact Dump.inLine_text (by decide) (by decide) (by decide)

/-- The start of a row: its address and its hex column. -/
def rowStart (memory : Memory) (top address : UInt32) : List UInt8 :=
  str "0x" ++ hexField 8 address.toNat ++ str "  "
    ++ (List.range 16).flatMap (hexCell memory top address)

theorem newline_notMem_rowStart (memory : Memory) (top address : UInt32) :
    newline ∉ rowStart memory top address := by
  have hcell : ∀ i, newline ∉ hexCell memory top address i := by
    intro i
    rw [hexCell, List.mem_append, not_or]
    constructor
    · split_ifs
      · rw [List.mem_append, not_or]
        exact ⟨newline_notMem_hexField 2 _, by decide⟩
      · decide
    · split_ifs <;> decide
  simp only [rowStart, List.mem_append, List.mem_flatMap, not_or, not_exists, not_and]
  exact ⟨⟨⟨by decide, newline_notMem_hexField 8 _⟩, by decide⟩, fun i _ => hcell i⟩

theorem printRow_line (offset : UInt32) :
    ∃ rest, (printRow memory esp ebp top offset).Lines
      [rowStart memory top (esp + offset) ++ rest] := by
  have htext : ∀ text ∈ [str " ", str "  ", str "[ESP] ", str "[EBP] ", str "[Ret Addr] "],
      (Dump.print text []).InLine := by
    intro text hmem
    have hall : ∀ text ∈ [str " ", str "  ", str "[ESP] ", str "[EBP] ", str "[Ret Addr] "],
        (literals text).all Piece.plain = true ∧ 0 ∉ text ∧ newline ∉ text := by decide
    obtain ⟨hplain, noNul, hnewline⟩ := hall text hmem
    exact Dump.inLine_text hplain noNul hnewline
  have hstart : (Dump.print (str "0x%08x  ") [.int (esp + offset)]
      ++ hexColumn memory esp top offset).Prints (rowStart memory top (esp + offset)) :=
    (Dump.prints_print (address_prints _)).append (hexColumn_prints offset)
  refine Dump.Begins.line (newline_notMem_rowStart memory top (esp + offset)) ?_
  refine .append (.append (.append (.append (.append (.append (.append hstart.begins ?_) ?_) ?_) ?_)
    ?_) ?_) ?_
  · exact htext (str " ") (by simp)
  · exact asciiColumn_inLine offset
  · exact htext (str "  ") (by simp)
  · exact .when fun _ => htext (str "[ESP] ") (by simp)
  · exact .when fun _ => htext (str "[EBP] ") (by simp)
  · exact .when fun _ => htext (str "[Ret Addr] ") (by simp)
  · exact stringNote_inLine (esp + offset)

/-! ### The byte view -/

def stackByte (memory : Memory) (esp : UInt32) (i : Nat) : UInt32 × UInt8 :=
  (esp + .ofNat i, memory (esp + .ofNat i))

theorem filterMap_range_if {β : Type*} (f : Nat → β) (n count : Nat) :
    (List.range count).filterMap (fun i => if i < n then some (f i) else none)
      = (List.range (min count n)).map f := by
  induction count with
  | zero => rw [Nat.zero_min, List.range_zero, List.filterMap_nil, List.map_nil]
  | succ count ih =>
      rw [List.range_succ, List.filterMap_append, ih]
      by_cases hlt : count < n
      · have hmin : min count n = count := by omega
        have hmin' : min (count + 1) n = count + 1 := by omega
        rw [hmin, hmin', List.range_succ, List.map_append, List.filterMap_cons, if_pos hlt]
        rfl
      · have hmin : min (count + 1) n = min count n := by omega
        rw [hmin, List.filterMap_cons, if_neg hlt, List.filterMap_nil, List.append_nil]

theorem readRow_rowStart (hfits : esp.toNat + m + 16 < 2 ^ 32) (rest : List UInt8) :
    readRow (rowStart memory top (esp + .ofNat m) ++ rest)
      = (List.range' m (min 16 (top.toNat - esp.toNat - m))).map (stackByte memory esp) := by
  have haddress : (esp + .ofNat m).toNat = esp.toNat + m := address_add_toNat (by omega)
  have hfield : readHex 8 2 (rowStart memory top (esp + .ofNat m) ++ rest)
      = some (esp + .ofNat m).toNat := by
    have hread := @readHex_hexField 8 _ (by decide) (esp + .ofNat m).toNat_lt (str "0x")
      (str "  " ++ ((List.range 16).flatMap (hexCell memory top (esp + .ofNat m)) ++ rest))
    simp only [rowStart, List.append_assoc] at hread ⊢
    exact hread
  have hcell : ∀ i ∈ List.range 16,
      ((readHex 2 (12 + 3 * i + i / 8) (rowStart memory top (esp + .ofNat m) ++ rest)).map
          fun byte => (UInt32.ofNat ((esp + .ofNat m).toNat + i), UInt8.ofNat byte))
        = if i < top.toNat - esp.toNat - m then some (stackByte memory esp (m + i)) else none := by
    intro i hi
    have hlt := List.mem_range.mp hi
    have hbefore : (str "0x" ++ hexField 8 (esp + .ofNat m).toNat ++ str "  ").length = 12 := by
      rw [List.length_append, List.length_append, hexField_word]
      rfl
    have hbyte : esp + .ofNat m + .ofNat i = esp + .ofNat (m + i) := by
      rw [UInt32.add_assoc, UInt32.ofNat_add]
    have hinside : esp + .ofNat (m + i) < top ↔ i < top.toNat - esp.toNat - m := by
      rw [UInt32.lt_iff_toNat_lt, address_add_toNat (by omega)]
      omega
    rw [rowStart, readHex_cell hlt hbefore, hbyte, UInt32.ofNat_add, UInt32.ofNat_toNat, hbyte]
    simp only [hinside]
    split_ifs
    · rw [Option.map_some, UInt8.ofNat_toNat, stackByte]
    · rfl
  rw [readRow, hfield]
  dsimp only
  rw [List.filterMap_congr hcell, filterMap_range_if fun i => stackByte memory esp (m + i),
    List.range'_eq_map_range, List.map_map]
  rfl

/-- What the lines of a section start with. -/
def StartWith (c : UInt8) (lines : List (List UInt8)) : Prop := ∀ line ∈ lines, line.head? = some c

/-- The rows from offset `m` on, with `left` rows to go. -/
theorem printRows_lines {left : Nat} (hfits : esp.toNat + m + 16 * left < 2 ^ 32) :
    ∃ lines, (printRows memory esp ebp top left (.ofNat m)).Lines lines ∧
      StartWith (chr '0') lines ∧
      lines.flatMap readRow
        = (List.range' m (min (16 * left) (top.toNat - esp.toNat - m))).map
            (stackByte memory esp) := by
  induction left generalizing m with
  | zero =>
      refine ⟨[], Dump.lines_reads [], fun _ hmem => absurd hmem List.not_mem_nil, ?_⟩
      rw [Nat.mul_zero, Nat.zero_min]
      rfl
  | succ left ih =>
      have haddress : (esp + .ofNat m).toNat = esp.toNat + m := address_add_toNat (by omega)
      rw [printRows]
      by_cases hout : top ≤ esp + .ofNat m
      · rw [if_pos hout]
        rw [UInt32.le_iff_toNat_le, haddress] at hout
        have hnone : min (16 * (left + 1)) (top.toNat - esp.toNat - m) = 0 := by omega
        refine ⟨[], Dump.lines_reads [], fun _ hmem => absurd hmem List.not_mem_nil, ?_⟩
        rw [hnone]
        rfl
      · rw [if_neg hout]
        rw [UInt32.le_iff_toNat_le, haddress] at hout
        have hnext : UInt32.ofNat m + 16 = .ofNat (m + 16) := (UInt32.ofNat_add m 16).symm
        obtain ⟨lines, hlines, hstart, hreads⟩ := @ih (m + 16) (by omega)
        obtain ⟨rest, hrow⟩ := @printRow_line memory esp ebp top (.ofNat m)
        refine ⟨(rowStart memory top (esp + .ofNat m) ++ rest) :: lines, ?_, ?_, ?_⟩
        · rw [hnext]
          exact hrow.append hlines
        · intro line hline
          rcases List.mem_cons.mp hline with rfl | hline
          · rfl
          · exact hstart line hline
        · rw [List.flatMap_cons, readRow_rowStart (by omega), hreads, ← List.map_append]
          congr 1
          by_cases hlast : top.toNat - esp.toNat - m ≤ 16
          · have hfirst : min 16 (top.toNat - esp.toNat - m) = top.toNat - esp.toNat - m := by omega
            have hnone : min (16 * left) (top.toNat - esp.toNat - (m + 16)) = 0 := by omega
            have hall : min (16 * (left + 1)) (top.toNat - esp.toNat - m)
                = top.toNat - esp.toNat - m := by omega
            rw [hfirst, hnone, hall, List.range'_zero, List.append_nil]
          · have hfirst : min 16 (top.toNat - esp.toNat - m) = 16 := by omega
            have hall : min (16 * (left + 1)) (top.toNat - esp.toNat - m)
                = 16 + min (16 * left) (top.toNat - esp.toNat - (m + 16)) := by omega
            rw [hfirst, hall]
            exact List.range'_append_1

theorem printBytes_lines (hfits : esp.toNat + 256 < 2 ^ 32) :
    ∃ rows, (printBytes memory esp ebp top).Lines ([] :: bytesHeading :: (bytesColumns ++ rows)) ∧
      StartWith (chr '0') rows ∧
      rows.flatMap readRow
        = (List.range (min 256 (top.toNat - esp.toNat))).map (stackByte memory esp) := by
  obtain ⟨rows, hrows, hstart, hreads⟩ := @printRows_lines memory esp ebp top 0 16 (by omega)
  have hheading : (Dump.print (str "\n=== Detailed Stack Contents (with ASCII) ===\n") []).Lines
      [[], bytesHeading] := Dump.lines_text rfl (by decide) (by decide) (by decide)
  have hnames : (Dump.print (str "Addr       Hex Value     ASCII           Notes\n") []).Lines
      [str "Addr       Hex Value     ASCII           Notes"] :=
    Dump.lines_text rfl (by decide) (by decide) (by decide)
  have hrule : (Dump.print (str "---------- ------------  --------------  ----------\n") []).Lines
      [str "---------- ------------  --------------  ----------"] :=
    Dump.lines_text rfl (by decide) (by decide) (by decide)
  refine ⟨rows, ((hheading.append hnames).append hrule).append hrows, hstart, ?_⟩
  rw [hreads, Nat.sub_zero, List.range_eq_range']

/-! ### The word view -/

def stackWord (memory : Memory) (esp : UInt32) (i : Nat) : UInt32 × UInt32 :=
  (esp + .ofNat (4 * i), read32 memory (esp + .ofNat (4 * i)))

theorem newline_notMem_hexadecimal (n : Nat) : newline ∉ hexadecimal n := by
  have hnone := newline_notMem_hexField 0 n
  rw [hexField, padded, List.mem_append, not_or] at hnone
  exact hnone.2

theorem hex_inLine {before after : List UInt8} (number : UInt32)
    (hbefore : (literals before).all Piece.sized = true ∧ newline ∉ before)
    (hafter : (literals after).all Piece.sized = true ∧ newline ∉ after)
    (noNul : 0 ∉ before ++ str "%x" ++ after) :
    (Dump.print (before ++ str "%x" ++ after) [.int number]).InLine := by
  refine ⟨_, Dump.prints_print (hex_prints number hbefore.1 hafter.1 noNul), ?_⟩
  simp only [List.mem_append, not_or]
  exact ⟨⟨hbefore.2, newline_notMem_hexadecimal _⟩, hafter.2⟩

theorem wordNote_inLine (symbols : LinkerSymbols) (value : UInt32) :
    (wordNote symbols esp ebp address value).InLine := by
  unfold wordNote
  split_ifs
  · exact Dump.inLine_text (by decide) (by decide) (by decide)
  · exact Dump.inLine_text (by decide) (by decide) (by decide)
  · exact @hex_inLine (str "[Saved EBP from 0x") (str "] ") _ (by decide) (by decide) (by decide)
  · exact .when fun _ => @hex_inLine (str "[Code ~0x") (str "] ") _ (by decide) (by decide) (by decide)

def wordStart (address value : UInt32) : List UInt8 :=
  str "0x" ++ hexField 8 address.toNat ++ (str "  0x" ++ hexField 8 value.toNat) ++ str "  "

theorem newline_notMem_wordStart (address value : UInt32) : newline ∉ wordStart address value := by
  simp only [wordStart, List.mem_append, not_or]
  exact ⟨⟨⟨by decide, newline_notMem_hexField 8 _⟩, by decide, newline_notMem_hexField 8 _⟩,
    by decide⟩

theorem newline_notMem_asciiOf (value : UInt32) : newline ∉ (asciiOf value).chars := by
  intro hmem
  obtain ⟨j, -, heq⟩ := List.mem_map.mp hmem
  rw [asciiChar] at heq
  split_ifs at heq with hprint
  · exact isprint_ne_newline hprint heq
  · exact absurd heq (by decide)

theorem readWord_wordStart (address value : UInt32) (rest : List UInt8) :
    readWord (wordStart address value ++ rest) = some (address, value) := by
  have haddress : readHex 8 2 (wordStart address value ++ rest) = some address.toNat := by
    have hread := @readHex_hexField 8 _ (by decide) address.toNat_lt (str "0x")
      (str "  0x" ++ (hexField 8 value.toNat ++ (str "  " ++ rest)))
    simp only [wordStart, List.append_assoc] at hread ⊢
    exact hread
  have hvalue : readHex 8 14 (wordStart address value ++ rest) = some value.toNat := by
    have hcolumn : (str "0x" ++ hexField 8 address.toNat ++ str "  0x").length = 14 := by
      rw [List.length_append, List.length_append, hexField_word]
      rfl
    have hread := @readHex_hexField 8 _ (by decide) value.toNat_lt
      (str "0x" ++ hexField 8 address.toNat ++ str "  0x") (str "  " ++ rest)
    rw [hcolumn] at hread
    simp only [wordStart, List.append_assoc] at hread ⊢
    exact hread
  rw [readWord, haddress, hvalue]
  simp only [UInt32.ofNat_toNat]

theorem printWord_line (symbols : LinkerSymbols) (word : UInt32) :
    ∃ rest, (Dump.read32 word
        ++ .print (str "0x%08x  0x%08x  ") [.int word, .int (read32 memory word)]
        ++ wordNote symbols esp ebp word (read32 memory word)
        ++ .print (str "'%s'\n") [.string (asciiOf (read32 memory word))]).Lines
      [wordStart word (read32 memory word) ++ rest] := by
  have hbegins : (Dump.read32 word
      ++ .print (str "0x%08x  0x%08x  ") [.int word, .int (read32 memory word)]).Begins
      (wordStart word (read32 memory word)) :=
    ((Dump.prints_read32 word).append (Dump.prints_print (word_prints _ _))).begins
  have hinLine := @wordNote_inLine esp ebp word symbols (read32 memory word)
  obtain ⟨note, hprints, hnewline⟩ := hbegins.append hinLine
  have hend : str "'\n" = str "'" ++ [newline] := rfl
  refine ⟨note ++ (str "'" ++ (asciiOf (read32 memory word)).chars ++ str "'"), ?_, ?_⟩
  · have hline := hprints.append
      (Dump.prints_print (ascii_prints (asciiOf (read32 memory word))))
    rw [joinLines, List.flatMap_singleton]
    rw [hend] at hline
    simp only [List.append_assoc] at hline ⊢
    exact hline
  · intro line hline
    have hquote : newline ∉ str "'" := by decide
    rw [List.mem_singleton.mp hline]
    simp only [List.mem_append, not_or]
    exact ⟨newline_notMem_wordStart _ _, hnewline, ⟨hquote, newline_notMem_asciiOf _⟩, hquote⟩

theorem printWordsLoop_lines (symbols : LinkerSymbols) {left : Nat} {word : UInt32}
    (hfits : word.toNat + 4 * left < 2 ^ 32) :
    ∃ lines, (printWordsLoop symbols memory esp ebp top left word).Lines lines ∧
      StartWith (chr '0') lines ∧
      lines.filterMap readWord
        = (List.range (min left ((top.toNat - word.toNat + 3) / 4))).map (stackWord memory word) := by
  induction left generalizing word with
  | zero =>
      refine ⟨[], Dump.lines_reads [], fun _ hmem => absurd hmem List.not_mem_nil, ?_⟩
      rw [Nat.zero_min]
      rfl
  | succ left ih =>
      rw [printWordsLoop]
      by_cases hinside : word < top
      · rw [if_pos hinside]
        rw [UInt32.lt_iff_toNat_lt] at hinside
        have hnext : (word + 4).toNat = word.toNat + 4 := address_add_toNat (i := 4) (by omega)
        obtain ⟨lines, hlines, hstart, hreads⟩ := @ih (word + 4) (by omega)
        obtain ⟨rest, hline⟩ := @printWord_line memory esp ebp symbols word
        refine ⟨(wordStart word (read32 memory word) ++ rest) :: lines, hline.append hlines, ?_, ?_⟩
        · intro line hline
          rcases List.mem_cons.mp hline with rfl | hline
          · rfl
          · exact hstart line hline
        · have hcount : min (left + 1) ((top.toNat - word.toNat + 3) / 4)
              = min left ((top.toNat - (word + 4).toNat + 3) / 4) + 1 := by omega
          have hfirst : stackWord memory word 0 = (word, read32 memory word) := by
            have hzero : word + .ofNat (4 * 0) = word := UInt32.add_zero word
            rw [stackWord, hzero]
          have hrest : ∀ i, stackWord memory word (i + 1) = stackWord memory (word + 4) i := by
            intro i
            have haddress : word + .ofNat (4 * (i + 1)) = word + 4 + .ofNat (4 * i) := by
              rw [UInt32.add_assoc, Nat.mul_add, Nat.add_comm, UInt32.ofNat_add]
              rfl
            rw [stackWord, stackWord, haddress]
          rw [List.filterMap_cons_some (readWord_wordStart _ _ _), hcount, List.range_succ_eq_map,
            List.map_cons, List.map_map, hfirst, hreads]
          congr 1
          exact List.map_congr_left fun i _ => (hrest i).symm
      · rw [if_neg hinside]
        rw [UInt32.lt_iff_toNat_lt] at hinside
        have hnone : min (left + 1) ((top.toNat - word.toNat + 3) / 4) = 0 := by omega
        refine ⟨[], Dump.lines_reads [], fun _ hmem => absurd hmem List.not_mem_nil, ?_⟩
        rw [hnone]
        rfl

theorem printWords_lines (symbols : LinkerSymbols) (hfits : esp.toNat + 256 < 2 ^ 32) :
    ∃ words, (printWords symbols memory esp ebp top).Lines
        ([] :: wordsHeading :: (wordsColumns ++ words)) ∧
      StartWith (chr '0') words ∧
      words.filterMap readWord
        = (List.range (min 16 ((top.toNat - esp.toNat + 3) / 4))).map (stackWord memory esp) := by
  obtain ⟨words, hwords, hstart, hreads⟩ :=
    @printWordsLoop_lines memory esp ebp top symbols 16 esp (by omega)
  have hheading : (Dump.print (str "\n=== Word View (for stack frames) ===\n") []).Lines
      [[], wordsHeading] := Dump.lines_text rfl (by decide) (by decide) (by decide)
  have hnames : (Dump.print (str "Addr       Value        Notes\n") []).Lines
      [str "Addr       Value        Notes"] :=
    Dump.lines_text rfl (by decide) (by decide) (by decide)
  have hrule : (Dump.print (str "---------- -----------  --------------------\n") []).Lines
      [str "---------- -----------  --------------------"] :=
    Dump.lines_text rfl (by decide) (by decide) (by decide)
  exact ⟨words, ((hheading.append hnames).append hrule).append hwords, hstart, hreads⟩

/-! ### The return addresses -/

/-- Those of the first `count` words that lie in the code. -/
def returnWords (symbols : LinkerSymbols) (memory : Memory) (esp : UInt32) (count : Nat) :
    List UInt32 :=
  ((List.range count).map fun i => (stackWord memory esp i).2).filter (isCodeAddress symbols)

theorem readReturn_hexadecimal (before : List UInt8) (value : UInt32) :
    readReturn (before ++ chr 'x' :: hexadecimal value.toNat) = some value := by
  have hx : ∀ d < 16, digitChar d ≠ chr 'x' := by decide
  have hdigits : ∀ c ∈ (hexadecimal value.toNat).reverse, decide (c ≠ chr 'x') = true := by
    intro c hc
    obtain ⟨d, hd, rfl⟩ := List.mem_map.mp (List.mem_reverse.mp hc)
    exact decide_eq_true (hx d (mem_numeral_lt (by decide) hd))
  have htake : ((before ++ chr 'x' :: hexadecimal value.toNat).reverse.takeWhile
      (· ≠ chr 'x')).reverse = hexadecimal value.toNat := by
    rw [List.reverse_append, List.reverse_cons, List.append_assoc,
      List.takeWhile_append_of_pos hdigits, List.singleton_append,
      List.takeWhile_cons_of_neg (by simp), List.append_nil, List.reverse_reverse]
  have hvalues : (hexadecimal value.toNat).mapM digitValue = some (numeral 16 value.toNat) :=
    mapM_digits digitValue_digitChar fun d hd => mem_numeral_lt (by decide) hd
  rw [readReturn, htake, hvalues, Option.map_some, Option.map_some, valueFrom_numeral,
    UInt32.ofNat_toNat]

/-- What the search has done after `count` words. -/
structure Searched (symbols : LinkerSymbols) (memory : Memory) (esp top : UInt32) (count : Nat)
    (search : ReturnSearch) : Prop where
  ptr : search.ptr = esp + .ofNat (4 * count)
  count_le : count ≤ 16
  inside : count = 0 ∨ esp.toNat + 4 * (count - 1) < top.toNat
  lines : ∃ lines, search.dump.Lines ([] :: returnsHeading :: lines) ∧ StartWith (chr 'P') lines ∧
    lines.filterMap readReturn = returnWords symbols memory esp count

theorem returnSearchTest_iff (hfits : esp.toNat + 256 < 2 ^ 32) {search : ReturnSearch} {count : Nat}
    (hptr : search.ptr = esp + .ofNat (4 * count)) (hcount : count ≤ 16) :
    returnSearchTest esp top search = true
      ↔ esp.toNat + 4 * count < top.toNat ∧ count < 16 := by
  have haddress : (esp + .ofNat (4 * count)).toNat = esp.toNat + 4 * count :=
    address_add_toNat (by omega)
  have hend : (esp + stackReturnSearch).toNat = esp.toNat + 64 := @address_add_toNat esp 64 (by omega)
  rw [returnSearchTest, hptr, Bool.and_eq_true, decide_eq_true_eq, decide_eq_true_eq,
    UInt32.lt_iff_toNat_lt, UInt32.lt_iff_toNat_lt, haddress, hend]
  omega

theorem foundReturn_lines (symbols : LinkerSymbols) (memory : Memory) (ptr : UInt32) :
    ∃ lines, (Dump.when (isCodeAddress symbols (read32 memory ptr))
        (.read32 ptr ++ .print (str "Possible return address at 0x%x: 0x%x\n")
          [.int ptr, .int (read32 memory ptr)])).Lines lines ∧ StartWith (chr 'P') lines ∧
      lines.filterMap readReturn = [read32 memory ptr].filter (isCodeAddress symbols) := by
  cases hcode : isCodeAddress symbols (read32 memory ptr) with
  | false =>
      refine ⟨[], Dump.lines_reads [], fun _ hmem => absurd hmem List.not_mem_nil, ?_⟩
      rw [List.filter_singleton, hcode]
      rfl
  | true =>
      have hbefore : str ": 0x" = str ": 0" ++ [chr 'x'] := rfl
      have hend : str "\n" = [newline] := rfl
      refine ⟨[str "Possible return address at 0x" ++ hexadecimal ptr.toNat ++ str ": 0"
        ++ chr 'x' :: hexadecimal (read32 memory ptr).toNat], ⟨?_, ?_⟩, ?_, ?_⟩
      · have hprints := (Dump.prints_read32 ptr).append
          (Dump.prints_print (return_prints ptr (read32 memory ptr)))
        rw [joinLines, List.flatMap_singleton]
        rw [hbefore, hend] at hprints
        simp only [List.append_assoc, List.cons_append, List.nil_append] at hprints ⊢
        exact hprints
      · intro line hline
        have hx : newline ∉ str "Possible return address at 0x" ∧ newline ∉ str ": 0" ∧
            newline ≠ chr 'x' := by decide
        rw [List.mem_singleton.mp hline]
        simp only [List.mem_append, List.mem_cons, not_or]
        exact ⟨⟨⟨hx.1, newline_notMem_hexadecimal _⟩, hx.2.1⟩, hx.2.2,
          newline_notMem_hexadecimal _⟩
      · intro line hline
        rw [List.mem_singleton.mp hline]
        rfl
      · rw [List.filterMap_cons_some (readReturn_hexadecimal _ _), List.filterMap_nil,
          List.filter_singleton, hcode]
        rfl

theorem Searched.body (hfits : esp.toNat + 256 < 2 ^ 32) {search : ReturnSearch} {count : Nat}
    {symbols : LinkerSymbols} (hsearched : Searched symbols memory esp top count search)
    (htest : returnSearchTest esp top search = true) :
    Searched symbols memory esp top (count + 1) (returnSearchBody symbols memory search) := by
  obtain ⟨hptr, hcount, -, lines, hlines, hstart, hreads⟩ := hsearched
  obtain ⟨hinside, hlt⟩ := (returnSearchTest_iff hfits hptr hcount).mp htest
  obtain ⟨found, hfound, hstart', hreads'⟩ := foundReturn_lines symbols memory search.ptr
  refine ⟨?_, hlt, Or.inr hinside, lines ++ found, ?_, ?_, ?_⟩
  · change search.ptr + 4 = _
    rw [hptr, Nat.mul_add, UInt32.ofNat_add, ← UInt32.add_assoc]
    rfl
  · have hread := hlines.append (Dump.lines_read32 search.ptr)
    rw [List.append_nil] at hread
    exact hread.append hfound
  · intro line hline
    rcases List.mem_append.mp hline with hline | hline
    · exact hstart line hline
    · exact hstart' line hline
  · have hword : (stackWord memory esp count).2 = read32 memory search.ptr := by
      rw [hptr]
      rfl
    rw [List.filterMap_append, hreads, hreads', returnWords, returnWords, List.range_succ,
      List.map_append, List.filter_append, List.map_singleton, hword]

theorem printReturnAddresses_lines (hfits : esp.toNat + 256 < 2 ^ 32) {symbols : LinkerSymbols}
    {fuel : Nat} {dump : Dump}
    (hends : printReturnAddresses symbols memory esp top fuel = some dump) :
    ∃ returns, dump.Lines ([] :: returnsHeading :: returns) ∧ StartWith (chr 'P') returns ∧
      returns.filterMap readReturn
        = returnWords symbols memory esp (min 16 ((top.toNat - esp.toNat + 3) / 4)) := by
  rw [printReturnAddresses, Option.map_eq_some_iff] at hends
  obtain ⟨search, hends, rfl⟩ := hends
  have hfirst : ∃ count, Searched symbols memory esp top count
      ⟨esp, .print (str "\nLooking for return addresses...\n") []⟩ := by
    refine ⟨0, (UInt32.add_zero esp).symm, Nat.zero_le 16, Or.inl rfl, [], ⟨?_, by decide⟩,
      fun _ hmem => absurd hmem List.not_mem_nil, rfl⟩
    exact Dump.prints_text (by decide) (by decide)
  have hbody : ∀ search, (∃ count, Searched symbols memory esp top count search) →
      returnSearchTest esp top search = true →
      ∃ count, Searched symbols memory esp top count (returnSearchBody symbols memory search) := by
    rintro search ⟨count, hsearched⟩ htest
    exact ⟨count + 1, hsearched.body hfits htest⟩
  obtain ⟨⟨count, hptr, hcount, hinside, returns, hlines, hstart, hreads⟩, hfalse⟩ :=
    whileLoop_preserves (fun search => ∃ count, Searched symbols memory esp top count search) hfirst
      hbody hends
  have hstops : ¬(esp.toNat + 4 * count < top.toNat ∧ count < 16) := by
    rw [← returnSearchTest_iff hfits hptr hcount, hfalse]
    exact Bool.false_ne_true
  have heq : count = min 16 ((top.toNat - esp.toNat + 3) / 4) := by omega
  rw [heq] at hreads
  exact ⟨returns, hlines, hstart, hreads⟩

/-! ### The whole dump -/

def dumpHeader (esp ebp top : UInt32) : List (List UInt8) :=
  [str "=== Kernel Stack Dump ===",
    str "ESP: 0x" ++ (hexadecimal esp.toNat ++ (str " | EBP: 0x" ++ (hexadecimal ebp.toNat
      ++ (str " | Used: " ++ (signedDecimal (int32 (top - esp).toNat) ++ str " bytes"))))),
    [], str "Stack frame size: " ++ (signedDecimal (int32 (ebp - esp).toNat) ++ str " bytes")]

theorem newline_notMem_signedDecimal (z : Int) : newline ∉ signedDecimal z := by
  have hdecimal : ∀ n, newline ∉ decimal n := fun n hmem =>
    absurd (isdigit_of_mem_decimal hmem) (by decide)
  rw [signedDecimal]
  split_ifs
  · exact List.not_mem_cons_of_ne_of_not_mem (by decide) (hdecimal _)
  · exact hdecimal _

theorem header_lines (esp ebp top : UInt32) :
    (Dump.print (str "=== Kernel Stack Dump ===\n") []
      ++ .print (str "ESP: 0x%x | EBP: 0x%x | Used: %d bytes\n\n")
        [.int esp, .int ebp, .int (top - esp)]
      ++ .print (str "Stack frame size: %d bytes\n") [.int (ebp - esp)]).Lines
      (dumpHeader esp ebp top) := by
  have hused : str " bytes\n\n" = str " bytes" ++ [newline, newline] := rfl
  have hframe : str " bytes\n" = str " bytes" ++ [newline] := rfl
  constructor
  · have htitle : (Dump.print (str "=== Kernel Stack Dump ===\n") []).Prints
        (str "=== Kernel Stack Dump ===" ++ [newline]) :=
      Dump.prints_text (by decide) (by decide)
    have hprints := (htitle.append (Dump.prints_print (registers_prints esp ebp (top - esp)))).append
      (Dump.prints_print (frame_prints (ebp - esp)))
    rw [hused, hframe] at hprints
    simp only [joinLines, dumpHeader, List.flatMap_cons, List.flatMap_nil, List.append_assoc,
      List.cons_append, List.nil_append, List.append_nil] at hprints ⊢
    exact hprints
  · intro line hline
    have htexts : newline ∉ str "=== Kernel Stack Dump ===" ∧ newline ∉ str "ESP: 0x" ∧
        newline ∉ str " | EBP: 0x" ∧ newline ∉ str " | Used: " ∧ newline ∉ str " bytes" ∧
        newline ∉ str "Stack frame size: " := by decide
    obtain ⟨htitle, hesp, hebp, hused, hbytes, hsize⟩ := htexts
    simp only [dumpHeader, List.mem_cons, List.not_mem_nil, or_false] at hline
    obtain rfl | rfl | rfl | rfl := hline
    · exact htitle
    · simp only [List.mem_append, not_or]
      exact ⟨hesp, newline_notMem_hexadecimal _, hebp, newline_notMem_hexadecimal _, hused,
        newline_notMem_signedDecimal _, hbytes⟩
    · exact List.not_mem_nil
    · simp only [List.mem_append, not_or]
      exact ⟨hsize, newline_notMem_signedDecimal _, hbytes⟩

/-- The sections of the text that one run of `stack_dump` prints. -/
theorem stackDump_lines (hfits : esp.toNat + 256 < 2 ^ 32) {symbols : LinkerSymbols} {fuel : Nat}
    {dump : Dump} (hends : stackDump symbols memory esp ebp fuel = some dump) :
    ∃ returns rows words,
      dump.Lines (dumpHeader esp ebp symbols.stackTop ++ ([] :: returnsHeading :: returns)
        ++ ([] :: bytesHeading :: (bytesColumns ++ rows))
        ++ ([] :: wordsHeading :: (wordsColumns ++ words))) ∧
      StartWith (chr 'P') returns ∧ StartWith (chr '0') rows ∧ StartWith (chr '0') words ∧
      returns.filterMap readReturn = returnWords symbols memory esp
        (min 16 ((symbols.stackTop.toNat - esp.toNat + 3) / 4)) ∧
      rows.flatMap readRow = (List.range (min 256 (symbols.stackTop.toNat - esp.toNat))).map
        (stackByte memory esp) ∧
      words.filterMap readWord
        = (List.range (min 16 ((symbols.stackTop.toNat - esp.toNat + 3) / 4))).map
            (stackWord memory esp) := by
  rw [stackDump, Option.map_eq_some_iff] at hends
  obtain ⟨returnAddresses, hends, rfl⟩ := hends
  obtain ⟨returns, hreturns, hstart, hreads⟩ := printReturnAddresses_lines hfits hends
  obtain ⟨rows, hrows, hstart', hreads'⟩ :=
    @printBytes_lines memory esp ebp symbols.stackTop hfits
  obtain ⟨words, hwords, hstart'', hreads''⟩ :=
    @printWords_lines memory esp ebp symbols.stackTop symbols hfits
  exact ⟨returns, rows, words,
    (((header_lines esp ebp symbols.stackTop).append hreturns).append hrows).append hwords,
    hstart, hstart', hstart'', hreads, hreads', hreads''⟩

theorem StartWith.notMem {c : UInt8} {lines : List (List UInt8)} (hstart : StartWith c lines)
    {line : List UInt8} (hline : line.head? ≠ some c) : line ∉ lines :=
  fun hmem => hline (hstart line hmem)

/-- Each heading stands once, and no line of a section is empty. -/
theorem sections_eq {returns rows words : List (List UInt8)} (hreturns : StartWith (chr 'P') returns)
    (hrows : StartWith (chr '0') rows) (hwords : StartWith (chr '0') words) :
    let lines := dumpHeader esp ebp top ++ ([] :: returnsHeading :: returns)
      ++ ([] :: bytesHeading :: (bytesColumns ++ rows))
      ++ ([] :: wordsHeading :: (wordsColumns ++ words)) ++ [[]]
    sectionOf returnsHeading 0 lines = returns ∧
      sectionOf bytesHeading bytesColumns.length lines = rows ∧
      sectionOf wordsHeading wordsColumns.length lines = words := by
  intro lines
  have hempty : ∀ {c : UInt8}, ([] : List UInt8).head? ≠ some c := by simp
  have hheader : ∀ heading ∈ [returnsHeading, bytesHeading, wordsHeading],
      heading ∉ dumpHeader esp ebp top := by
    intro heading hheading hmem
    have hheads : ∀ heading ∈ [returnsHeading, bytesHeading, wordsHeading],
        heading ≠ str "=== Kernel Stack Dump ===" ∧ heading ≠ [] ∧
          heading.head? ≠ some (chr 'E') ∧ heading.head? ≠ some (chr 'S') := by decide
    obtain ⟨htitle, hnil, hE, hS⟩ := hheads heading hheading
    simp only [dumpHeader, List.mem_cons, List.not_mem_nil, or_false] at hmem
    obtain rfl | rfl | rfl | rfl := hmem
    · exact htitle rfl
    · exact hE rfl
    · exact hnil rfl
    · exact hS rfl
  refine ⟨?_, ?_, ?_⟩
  · have hbefore : returnsHeading ∉ dumpHeader esp ebp top ++ [[]] := by
      rw [List.mem_append, not_or]
      exact ⟨hheader _ (by simp), by decide⟩
    have hsection := @sectionOf_eq _ _ _ _ [] _ (bytesHeading :: (bytesColumns ++ rows)
      ++ ([] :: wordsHeading :: (wordsColumns ++ words)) ++ [[]]) hbefore (hreturns.notMem hempty)
    simp only [lines, List.append_assoc, List.cons_append, List.nil_append] at hsection ⊢
    exact hsection
  · have hbefore : bytesHeading ∉ dumpHeader esp ebp top ++ ([] :: returnsHeading :: returns)
        ++ [[]] := by
      simp only [List.mem_append, List.mem_cons, not_or]
      exact ⟨⟨hheader _ (by simp), by decide, by decide, hreturns.notMem (by decide)⟩, by decide,
        List.not_mem_nil⟩
    have hsection := @sectionOf_eq _ _ _ _ bytesColumns _ (wordsHeading :: (wordsColumns ++ words)
      ++ [[]]) hbefore (hrows.notMem hempty)
    simp only [lines, List.append_assoc, List.cons_append, List.nil_append] at hsection ⊢
    exact hsection
  · have hbefore : wordsHeading ∉ dumpHeader esp ebp top ++ ([] :: returnsHeading :: returns)
        ++ ([] :: bytesHeading :: (bytesColumns ++ rows)) ++ [[]] := by
      simp only [List.mem_append, List.mem_cons, not_or]
      exact ⟨⟨⟨hheader _ (by simp), by decide, by decide, hreturns.notMem (by decide)⟩, by decide,
        by decide, by decide, hrows.notMem (by decide)⟩, by decide, List.not_mem_nil⟩
    have hsection := @sectionOf_eq _ _ _ _ wordsColumns _ [] hbefore (hwords.notMem hempty)
    simp only [lines, List.append_assoc, List.cons_append, List.nil_append] at hsection ⊢
    exact hsection

theorem stackDump_ends {symbols : LinkerSymbols} (hbounds : StackBounds esp symbols.stackTop)
    (memory : Memory) (ebp : UInt32) :
    ∃ fuel dump text, stackDump symbols memory esp ebp fuel = some dump ∧ dump.Prints text := by
  obtain ⟨fuel, returnAddresses, hends, -⟩ := printReturnAddresses_all hbounds symbols memory
  have hdump : ∃ dump, stackDump symbols memory esp ebp fuel = some dump :=
    ⟨_, by rw [stackDump, hends, Option.map_some]⟩
  obtain ⟨dump, hdump⟩ := hdump
  have hle := UInt32.le_iff_toNat_le.mp hbounds.below
  have hfar := hbounds.far
  obtain ⟨returns, rows, words, hlines, -⟩ := stackDump_lines (by omega) hdump
  exact ⟨fuel, dump, _, hdump, hlines.prints⟩

/-- From the text of a dump one reads the return addresses among the first words of the stack, its
bytes and its words, up to the bounds of the dump and to the top of the stack. -/
theorem stackDump_reads_back {symbols : LinkerSymbols} (hbounds : StackBounds esp symbols.stackTop)
    (memory : Memory) (ebp : UInt32) :
    (∃ fuel dump text, stackDump symbols memory esp ebp fuel = some dump ∧ dump.Prints text) ∧
      ∀ fuel dump text, stackDump symbols memory esp ebp fuel = some dump → dump.Prints text →
        readReturns text = returnWords symbols memory esp
          (min 16 ((symbols.stackTop.toNat - esp.toNat) / 4)) ∧
        readBytes text = (List.range (min 256 (symbols.stackTop.toNat - esp.toNat))).map
          (stackByte memory esp) ∧
        readWords text = (List.range (min 16 ((symbols.stackTop.toNat - esp.toNat) / 4))).map
          (stackWord memory esp) := by
  obtain ⟨haligned, htopAligned, hbelow, hfar⟩ := id hbounds
  have hle := UInt32.le_iff_toNat_le.mp hbelow
  have hcount : (symbols.stackTop.toNat - esp.toNat + 3) / 4
      = (symbols.stackTop.toNat - esp.toNat) / 4 := by omega
  constructor
  · exact stackDump_ends hbounds memory ebp
  · intro fuel dump text hends hprints
    obtain ⟨returns, rows, words, hlines, hstart, hstart', hstart'', hreturns, hrows, hwords⟩ :=
      stackDump_lines (by omega) hends
    obtain ⟨hreturnsSection, hbytesSection, hwordsSection⟩ :=
      @sections_eq esp ebp symbols.stackTop returns rows words hstart hstart' hstart''
    rw [hcount] at hreturns hwords
    rw [readReturns, readBytes, readWords, hlines.splitOn hprints, hreturnsSection, hbytesSection,
      hwordsSection]
    exact ⟨hreturns, hrows, hwords⟩

theorem stackDump_reads_back_zeros :
    ∃ fuel dump text, stackDump ⟨0x100000, 0x108000, 0x110000⟩ (fun _ => 0) 0x10FF00 0x10FF10 fuel
        = some dump ∧ dump.Prints text ∧
      readBytes text = (List.range (min 256 ((0x110000 : UInt32).toNat - (0x10FF00 : UInt32).toNat))).map
        (stackByte (fun _ => 0) 0x10FF00) := by
  have hbounds : StackBounds 0x10FF00 0x110000 := ⟨by decide, by decide, by decide, by decide⟩
  obtain ⟨⟨fuel, dump, text, hends, hprints⟩, hreads⟩ :=
    @stackDump_reads_back 0x10FF00 ⟨0x100000, 0x108000, 0x110000⟩ hbounds (fun _ => 0) 0x10FF10
  exact ⟨fuel, dump, text, hends, hprints, (hreads fuel dump text hends hprints).2.1⟩

end Views

end KernelFromScratch
