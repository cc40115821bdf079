import KernelFromScratch.StackDump

/-!
# What the stack dump reads

All reads stay in the used part of the stack but one: the test for the NUL behind a string. It is
made one byte past the stack when every byte of the last row is printable.
-/

namespace KernelFromScratch

namespace Dump

def All (p : UInt32 → Prop) (dump : Dump) : Prop := ∀ address ∈ dump.reads, p address

variable {p : UInt32 → Prop} {first second dump : Dump}

@[simp]
theorem all_append : (first ++ second).All p ↔ first.All p ∧ second.All p :=
  List.forall_mem_append

@[simp]
theorem all_nothing : nothing.All p := fun _ hmem => absurd hmem List.not_mem_nil

@[simp]
theorem all_print {format : List UInt8} {arguments : List Argument} :
    (print format arguments).All p := fun _ hmem => absurd hmem List.not_mem_nil

@[simp]
theorem all_read8 {address : UInt32} : (read8 address).All p ↔ p address :=
  List.forall_mem_singleton

@[simp]
theorem all_when {test : Bool} : (when test dump).All p ↔ (test = true → dump.All p) := by
  cases test <;> simp [when]

@[simp]
theorem all_forEach {n : Nat} {body : Nat → Dump} :
    (forEach n body).All p ↔ ∀ i < n, (body i).All p := by
  simp only [All, forEach, List.mem_flatMap, List.mem_range]
  constructor
  · exact fun hall i hi address hmem => hall address ⟨i, hi, hmem⟩
  · rintro hall address ⟨i, hi, hmem⟩
    exact hall i hi address hmem

end Dump

def InStack (esp stackTop address : UInt32) : Prop := esp ≤ address ∧ address < stackTop

section

variable {memory : Memory} {esp ebp top address : UInt32}

theorem inStack_iff {i : Nat} (hesp : esp ≤ address) (hfits : address.toNat + i < 2 ^ 32) :
    InStack esp top (address + .ofNat i) ↔ address.toNat + i < top.toNat := by
  have hespNat := UInt32.le_iff_toNat_le.mp hesp
  rw [InStack, UInt32.le_iff_toNat_le, UInt32.lt_iff_toNat_lt, address_add_toNat hfits]
  omega

/-- What the scan found: the bytes before its end are printable bytes of the stack, the one at its
end is not unless the row is full. -/
structure Scanned (memory : Memory) (top address : UInt32) (stop : Nat)
    (scan : Nat × List UInt32) (length : Nat) : Prop where
  ge : length ≤ scan.1
  le : scan.1 ≤ stop
  printable : ∀ i, length ≤ i → i < scan.1 →
    address + .ofNat i < top ∧ isprint (memory (address + .ofNat i)) = true
  stopped : scan.1 < stop →
    ¬(address + .ofNat scan.1 < top ∧ isprint (memory (address + .ofNat scan.1)) = true)
  reads : ∀ a ∈ scan.2, ∃ i < stop, a = address + .ofNat i ∧ a < top

theorem stringScan_scanned (left length : Nat) :
    Scanned memory top address (length + left) (stringScan memory top address left length)
      length := by
  induction left generalizing length with
  | zero =>
      exact ⟨le_rfl, le_rfl, fun i hge hlt => absurd hlt (Nat.not_lt.mpr hge),
        fun hlt => absurd hlt (lt_irrefl _), fun a ha => absurd ha List.not_mem_nil⟩
  | succ left ih =>
      have hnext := ih (length + 1)
      have hstop : length + 1 + left = length + (left + 1) := by omega
      rw [hstop] at hnext
      rw [stringScan]
      by_cases hinside : address + .ofNat length < top
      · rw [if_pos hinside]
        by_cases hprint : isprint (memory (address + .ofNat length)) = true
        · rw [if_pos hprint]
          refine ⟨Nat.le_of_succ_le hnext.ge, hnext.le, fun i hge hlt => ?_, hnext.stopped,
            fun a ha => ?_⟩
          · rcases Nat.eq_or_lt_of_le hge with rfl | hgt
            · exact ⟨hinside, hprint⟩
            · exact hnext.printable i hgt hlt
          · rcases List.mem_cons.mp ha with rfl | ha
            · exact ⟨length, by omega, rfl, hinside⟩
            · exact hnext.reads a ha
        · rw [if_neg hprint]
          refine ⟨le_rfl, Nat.le_add_right _ _, fun i hge hlt => absurd hlt (Nat.not_lt.mpr hge),
            fun _ h => hprint h.2, fun a ha => ?_⟩
          rw [List.mem_singleton.mp ha]
          exact ⟨length, by omega, rfl, hinside⟩
      · rw [if_neg hinside]
        exact ⟨le_rfl, Nat.le_add_right _ _, fun i hge hlt => absurd hlt (Nat.not_lt.mpr hge),
          fun _ h => hinside h.1, fun a ha => absurd ha List.not_mem_nil⟩

/-- The row is the last one of the stack, and all its bytes are printable. -/
def PrintableToTop (memory : Memory) (top address : UInt32) : Prop :=
  top.toNat ≤ address.toNat + 16
    ∧ ∀ i, address.toNat + i < top.toNat → isprint (memory (address + .ofNat i)) = true

section Row

variable (hesp : esp ≤ address) (hfits : address.toNat + 16 < 2 ^ 32)
include hesp hfits

/-- The byte behind the string is read outside the stack when the string reaches its top. -/
theorem stringNote_all_iff (htop : address.toNat + 4 ≤ top.toNat) :
    (stringNote memory top address).All (InStack esp top) ↔ ¬PrintableToTop memory top address := by
  have hscan := @stringScan_scanned memory top address 16 0
  rw [Nat.zero_add] at hscan
  simp only [stringNote]
  generalize stringScan memory top address 16 0 = scan at hscan ⊢
  have hle := hscan.le
  have hinside : ∀ i < scan.1, address.toNat + i < top.toNat := by
    intro i hi
    have hlt := (hscan.printable i (Nat.zero_le i) hi).1
    rwa [UInt32.lt_iff_toNat_lt, address_add_toNat (by omega)] at hlt
  have hreads : (⟨[], scan.2⟩ : Dump).All (InStack esp top) := by
    intro a ha
    obtain ⟨i, hi, rfl, hlt⟩ := hscan.reads a ha
    rw [inStack_iff hesp (by omega)]
    rwa [UInt32.lt_iff_toNat_lt, address_add_toNat (by omega)] at hlt
  rw [Dump.all_append, and_iff_right hreads, Dump.all_when, Dump.all_append, Dump.all_read8,
    inStack_iff hesp (by omega)]
  constructor
  · rintro hstop ⟨hlast, hprintable⟩
    -- The scan reaches the top, so the byte behind it is the first one outside.
    have hfull : ¬address.toNat + scan.1 < top.toNat := by
      intro hlt
      refine hscan.stopped (by omega) ⟨?_, hprintable scan.1 hlt⟩
      rwa [UInt32.lt_iff_toNat_lt, address_add_toNat (by omega)]
    have hlong : stackStringMinLen ≤ scan.1 := by
      rw [stackStringMinLen]
      omega
    exact hfull (hstop (decide_eq_true hlong)).1
  · intro hother hlong
    have hmin : 4 ≤ scan.1 := of_decide_eq_true hlong
    have hlt : address.toNat + scan.1 < top.toNat := by
      by_contra hge
      have hlast := hinside (scan.1 - 1) (by omega)
      refine hother ⟨by omega, fun i hi => (hscan.printable i (Nat.zero_le i) (by omega)).2⟩
    refine ⟨hlt, ?_⟩
    rw [Dump.all_when]
    intro _
    rw [Dump.all_append, Dump.all_append, Dump.all_forEach]
    refine ⟨⟨Dump.all_print, fun i hi => ?_⟩, Dump.all_print⟩
    rw [Dump.all_append, Dump.all_read8, inStack_iff hesp (by omega)]
    exact ⟨hinside i hi, Dump.all_print⟩

end Row

theorem byte_address (esp offset : UInt32) (i : Nat) :
    esp + (offset + .ofNat i) = esp + offset + .ofNat i := (UInt32.add_assoc _ _ _).symm

theorem hexColumn_all {offset : UInt32} (hesp : esp ≤ esp + offset)
    (hfits : (esp + offset).toNat + 16 < 2 ^ 32) :
    (hexColumn memory esp top offset).All (InStack esp top) := by
  rw [hexColumn, Dump.all_forEach]
  intro i hi
  by_cases hlt : esp + offset + .ofNat i < top
  · have hread : InStack esp top (esp + offset + .ofNat i) := by
      rw [inStack_iff hesp (by omega), ← address_add_toNat (by omega)]
      exact UInt32.lt_iff_toNat_lt.mp hlt
    simp [hlt, byte_address, hread]
  · simp [hlt]

theorem asciiColumn_all {offset : UInt32} (hesp : esp ≤ esp + offset)
    (hfits : (esp + offset).toNat + 16 < 2 ^ 32) :
    (asciiColumn memory esp top offset).All (InStack esp top) := by
  rw [asciiColumn, Dump.all_forEach]
  intro i hi
  by_cases hlt : esp + offset + .ofNat i < top
  · have hread : InStack esp top (esp + offset + .ofNat i) := by
      rw [inStack_iff hesp (by omega), ← address_add_toNat (by omega)]
      exact UInt32.lt_iff_toNat_lt.mp hlt
    simp [hlt, byte_address, hread]
  · simp [hlt]

theorem printRow_all_iff {offset : UInt32} (hesp : esp ≤ esp + offset)
    (hfits : (esp + offset).toNat + 16 < 2 ^ 32) (htop : (esp + offset).toNat + 4 ≤ top.toNat) :
    (printRow memory esp ebp top offset).All (InStack esp top)
      ↔ ¬PrintableToTop memory top (esp + offset) := by
  rw [← stringNote_all_iff hesp hfits htop]
  simp [printRow, hexColumn_all hesp hfits, asciiColumn_all hesp hfits]

/-- What the caller promises: `esp` is aligned and not above the top of the stack, which is aligned
and not near the end of the address space. -/
structure StackBounds (esp top : UInt32) : Prop where
  espAligned : esp.toNat % 4 = 0
  topAligned : top.toNat % 16 = 0
  below : esp ≤ top
  far : top.toNat + 256 < 2 ^ 32

section Loops

variable (hbounds : StackBounds esp top)
include hbounds

theorem le_add_offset {m : Nat} (hm : m ≤ 256) :
    esp ≤ esp + .ofNat m ∧ (esp + .ofNat m).toNat = esp.toNat + m := by
  have hbelow := UInt32.le_iff_toNat_le.mp hbounds.below
  have hfar := hbounds.far
  have haddress : (esp + .ofNat m).toNat = esp.toNat + m := address_add_toNat (by omega)
  refine ⟨?_, haddress⟩
  rw [UInt32.le_iff_toNat_le, haddress]
  exact Nat.le_add_right _ _

theorem printRows_all_iff {left m : Nat} (hm : m % 16 = 0) (hleft : m + 16 * left ≤ 256) :
    (printRows memory esp ebp top left (.ofNat m)).All (InStack esp top)
      ↔ ∀ k < left, esp.toNat + (m + 16 * k) < top.toNat →
        ¬PrintableToTop memory top (esp + .ofNat (m + 16 * k)) := by
  have hfar := hbounds.far
  induction left generalizing m with
  | zero => exact iff_of_true Dump.all_nothing fun k hk => absurd hk (Nat.not_lt_zero k)
  | succ left ih =>
      obtain ⟨hesp, haddress⟩ := le_add_offset hbounds (m := m) (by omega)
      have hnext : UInt32.ofNat m + 16 = .ofNat (m + 16) := (UInt32.ofNat_add m 16).symm
      rw [printRows, hnext]
      by_cases hout : top ≤ esp + .ofNat m
      · rw [if_pos hout]
        rw [UInt32.le_iff_toNat_le, haddress] at hout
        exact iff_of_true Dump.all_nothing fun k hk hlt => absurd hlt (by omega)
      · rw [if_neg hout]
        rw [UInt32.le_iff_toNat_le, haddress] at hout
        have hespAligned := hbounds.espAligned
        have htopAligned := hbounds.topAligned
        have hrows := @ih (m + 16) (by omega) (by omega)
        have hrow := @printRow_all_iff memory esp ebp top (.ofNat m) hesp (by omega) (by omega)
        rw [Dump.all_append]
        refine (and_congr hrow hrows).trans ?_
        constructor
        · rintro ⟨hfirst, hrest⟩ k hk hlt
          cases k with
          | zero => exact hfirst
          | succ k =>
              have hshift : m + 16 * (k + 1) = m + 16 + 16 * k := by omega
              rw [hshift] at hlt ⊢
              exact hrest k (by omega) hlt
        · intro hall
          refine ⟨hall 0 (Nat.succ_pos left) (by omega), fun k hk hlt => ?_⟩
          have hshift : m + 16 + 16 * k = m + 16 * (k + 1) := by omega
          rw [hshift] at hlt ⊢
          exact hall (k + 1) (by omega) hlt

omit hbounds in
theorem read32_all {word : UInt32} (hesp : esp ≤ word) (hfits : word.toNat + 4 ≤ top.toNat)
    (hfar : top.toNat + 256 < 2 ^ 32) : (Dump.read32 word).All (InStack esp top) := by
  have hbyte : ∀ i < 4, InStack esp top (word + .ofNat i) := by
    intro i hi
    rw [inStack_iff hesp (by omega)]
    omega
  have hfirst := hbyte 0 (by decide)
  have hzero : word + .ofNat 0 = word := UInt32.add_zero word
  rw [hzero] at hfirst
  intro a ha
  simp only [Dump.read32, List.mem_cons, List.not_mem_nil, or_false] at ha
  obtain rfl | rfl | rfl | rfl := ha
  · exact hfirst
  · exact hbyte 1 (by decide)
  · exact hbyte 2 (by decide)
  · exact hbyte 3 (by decide)

theorem printWordsLoop_all {symbols : LinkerSymbols} {left : Nat} {word : UInt32}
    (hesp : esp ≤ word) (haligned : word.toNat % 4 = 0) :
    (printWordsLoop symbols memory esp ebp top left word).All (InStack esp top) := by
  have hfar := hbounds.far
  have htopAligned := hbounds.topAligned
  induction left generalizing word with
  | zero => exact Dump.all_nothing
  | succ left ih =>
      rw [printWordsLoop]
      by_cases hinside : word < top
      · have hlt := UInt32.lt_iff_toNat_lt.mp hinside
        have hnext : (word + 4).toNat = word.toNat + 4 := address_add_toNat (i := 4) (by omega)
        have hespNat := UInt32.le_iff_toNat_le.mp hesp
        have hrest := @ih (word + 4) (UInt32.le_iff_toNat_le.mpr (by omega)) (by omega)
        have hnote : (wordNote symbols esp ebp word (read32 memory word)).All
            (InStack esp top) := by
          unfold wordNote
          split_ifs <;> simp
        simp [hinside, hrest, hnote, read32_all hesp (by omega) hfar]
      · rw [if_neg hinside]
        exact Dump.all_nothing

theorem printReturnAddresses_all (symbols : LinkerSymbols) (memory : Memory) :
    ∃ fuel dump, printReturnAddresses symbols memory esp top fuel = some dump
      ∧ dump.All (InStack esp top) := by
  have hfar := hbounds.far
  have htopAligned := hbounds.topAligned
  have hbody : ∀ search : ReturnSearch, (search.dump.All (InStack esp top) ∧ esp ≤ search.ptr
      ∧ search.ptr.toNat % 4 = 0) → returnSearchTest esp top search = true →
      ((returnSearchBody symbols memory search).dump.All (InStack esp top)
        ∧ esp ≤ (returnSearchBody symbols memory search).ptr
        ∧ (returnSearchBody symbols memory search).ptr.toNat % 4 = 0)
      ∧ top.toNat - (returnSearchBody symbols memory search).ptr.toNat
        < top.toNat - search.ptr.toNat := by
    rintro ⟨ptr, dump⟩ ⟨hdump, hesp, haligned⟩ htest
    dsimp only at hdump hesp haligned
    have hinside : ptr < top := by
      simp only [returnSearchTest, Bool.and_eq_true, decide_eq_true_eq] at htest
      exact htest.1
    have hlt := UInt32.lt_iff_toNat_lt.mp hinside
    have hespNat := UInt32.le_iff_toNat_le.mp hesp
    have hnext : (ptr + 4).toNat = ptr.toNat + 4 := address_add_toNat (i := 4) (by omega)
    have hread := @read32_all esp top ptr hesp (by omega) hfar
    dsimp only [returnSearchBody]
    refine ⟨⟨?_, UInt32.le_iff_toNat_le.mpr (by omega), by omega⟩, by omega⟩
    simp [hdump, hread]
  obtain ⟨fuel, search, hends, hinvariant, -⟩ := @whileLoop_rule ReturnSearch
    (returnSearchTest esp top) (returnSearchBody symbols memory)
    ⟨esp, .print (str "\nLooking for return addresses...\n") []⟩
    (fun search => search.dump.All (InStack esp top) ∧ esp ≤ search.ptr
      ∧ search.ptr.toNat % 4 = 0)
    (fun search => top.toNat - search.ptr.toNat) ⟨Dump.all_print, UInt32.le_refl _, hbounds.espAligned⟩ hbody
  refine ⟨fuel, search.dump, ?_, hinvariant.1⟩
  rw [printReturnAddresses, hends, Option.map_some]

end Loops

/-- The search makes sixteen turns at most, wherever the stack is. -/
theorem printReturnAddresses_ends (symbols : LinkerSymbols) (memory : Memory)
    (esp stackBase : UInt32) :
    ∃ fuel dump, printReturnAddresses symbols memory esp stackBase fuel = some dump := by
  have hnext : ∀ search : ReturnSearch,
      (esp + stackReturnSearch - (returnSearchBody symbols memory search).ptr).toNat
        = ((esp + stackReturnSearch - search.ptr).toNat + 2 ^ 32 - 4) % 2 ^ 32 :=
    fun search => sub_offset_toNat (esp + stackReturnSearch) search.ptr (k := 4) (by decide)
  have hstart : (esp + stackReturnSearch - esp).toNat % 4 = 0 := by
    rw [add_sub_self]
    rfl
  -- What is left to `esp + 64` stays a multiple of four: the pointer does not step over it.
  have hbody : ∀ search : ReturnSearch, (esp + stackReturnSearch - search.ptr).toNat % 4 = 0 →
      returnSearchTest esp stackBase search = true →
      (esp + stackReturnSearch - (returnSearchBody symbols memory search).ptr).toNat % 4 = 0 ∧
        (esp + stackReturnSearch - (returnSearchBody symbols memory search).ptr).toNat
          < (esp + stackReturnSearch - search.ptr).toNat := by
    intro search hinvariant htest
    simp only [returnSearchTest, Bool.and_eq_true, decide_eq_true_eq] at htest
    have hbelow := UInt32.lt_iff_toNat_lt.mp htest.2
    have hleft : (esp + stackReturnSearch - search.ptr).toNat ≠ 0 := by
      rw [UInt32.toNat_sub_of_le _ _ (UInt32.le_iff_toNat_le.mpr hbelow.le)]
      omega
    have hlt := (esp + stackReturnSearch - search.ptr).toNat_lt
    rw [hnext]
    omega
  obtain ⟨fuel, search, hends, -⟩ := @whileLoop_rule ReturnSearch
    (returnSearchTest esp stackBase) (returnSearchBody symbols memory)
    ⟨esp, .print (str "\nLooking for return addresses...\n") []⟩
    (fun search => (esp + stackReturnSearch - search.ptr).toNat % 4 = 0)
    (fun search => (esp + stackReturnSearch - search.ptr).toNat) hstart hbody
  exact ⟨fuel, search.dump, by rw [printReturnAddresses, hends, Option.map_some]⟩

theorem stackDump_total (symbols : LinkerSymbols) (memory : Memory) (esp ebp : UInt32) :
    ∃ fuel dump, stackDump symbols memory esp ebp fuel = some dump := by
  obtain ⟨fuel, returnAddresses, hends⟩ :=
    printReturnAddresses_ends symbols memory esp symbols.stackTop
  exact ⟨fuel, _, by rw [stackDump, hends, Option.map_some]⟩

/-- The stack is not empty, its last row is one the dump shows, and every byte of it is printable. -/
def LastRowPrintable (memory : Memory) (esp top : UInt32) : Prop :=
  esp < top ∧ top.toNat - esp.toNat ≤ 256
    ∧ ∀ i, 16 * ((top.toNat - esp.toNat - 1) / 16) ≤ i → i < top.toNat - esp.toNat →
      isprint (memory (esp + .ofNat i)) = true

theorem printBytes_all_iff (hbounds : StackBounds esp top) :
    (printBytes memory esp ebp top).All (InStack esp top) ↔ ¬LastRowPrintable memory esp top := by
  have hrows := @printRows_all_iff memory esp ebp top hbounds 16 0 rfl (by decide)
  have hbytes : (printBytes memory esp ebp top).All (InStack esp top)
      ↔ (printRows memory esp ebp top 16 0).All (InStack esp top) := by
    simp [printBytes, stackDumpBytes]
  have haddress : ∀ k i, esp + .ofNat (16 * k) + .ofNat i = esp + .ofNat (16 * k + i) := by
    intro k i
    rw [UInt32.add_assoc, UInt32.ofNat_add]
  rw [hbytes]
  refine hrows.trans ?_
  simp only [Nat.zero_add]
  constructor
  · rintro hall ⟨hbelow, hshort, hprintable⟩
    have hlt := UInt32.lt_iff_toNat_lt.mp hbelow
    have hrow := (le_add_offset hbounds
      (m := 16 * ((top.toNat - esp.toNat - 1) / 16)) (by omega)).2
    refine hall ((top.toNat - esp.toNat - 1) / 16) (by omega) (by omega) ⟨by omega, fun i hi => ?_⟩
    rw [haddress]
    exact hprintable _ (Nat.le_add_right _ _) (by omega)
  · rintro hother k hk hlt ⟨hlast, hprintable⟩
    have hrow := (le_add_offset hbounds (m := 16 * k) (by omega)).2
    refine hother ⟨UInt32.lt_iff_toNat_lt.mpr (by omega), by omega, fun i hge hi => ?_⟩
    have hindex : 16 * k + (i - 16 * k) = i := by omega
    have hbyte := hprintable (i - 16 * k) (by omega)
    rwa [haddress, hindex] at hbyte

/-- `stack_dump` returns and reads only the used part of the stack. -/
def ReadsOnlyStack (symbols : LinkerSymbols) (memory : Memory) (esp ebp : UInt32) : Prop :=
  ∃ fuel dump, stackDump symbols memory esp ebp fuel = some dump
    ∧ dump.All (InStack esp symbols.stackTop)

/-- The dump reads only the stack, unless all of a last row that it shows is printable. -/
theorem stackDump_reads_iff {symbols : LinkerSymbols} (hbounds : StackBounds esp symbols.stackTop)
    (memory : Memory) (ebp : UInt32) :
    ReadsOnlyStack symbols memory esp ebp ↔ ¬LastRowPrintable memory esp symbols.stackTop := by
  have hlastRow := @printBytes_all_iff memory esp ebp symbols.stackTop hbounds
  rw [← hlastRow]
  constructor
  · rintro ⟨fuel, dump, hends, hall⟩
    rw [stackDump, Option.map_eq_some_iff] at hends
    obtain ⟨returnAddresses, -, rfl⟩ := hends
    rw [Dump.all_append, Dump.all_append] at hall
    exact hall.1.2
  · intro hbytes
    obtain ⟨fuel, returnAddresses, hends, hall⟩ :=
      printReturnAddresses_all hbounds symbols memory
    have hwords : (printWords symbols memory esp ebp symbols.stackTop).All
        (InStack esp symbols.stackTop) := by
      have hloop := @printWordsLoop_all memory esp ebp symbols.stackTop hbounds symbols
        stackDumpWords esp (UInt32.le_refl _) hbounds.espAligned
      simp [printWords, hloop]
    refine ⟨fuel, _, by rw [stackDump, hends, Option.map_some], ?_⟩
    simp [hall, hbytes, hwords]

theorem stackDump_reads_iff_zeros :
    ReadsOnlyStack ⟨0x100000, 0x108000, 0x110000⟩ (fun _ => 0) 0x10FF00 0x10FF10
      ↔ ¬LastRowPrintable (fun _ => 0) 0x10FF00 0x110000 :=
  stackDump_reads_iff ⟨by decide, by decide, by decide, by decide⟩ _ _

/-- Sixteen letters at the top of the stack: the byte at `stack_top` is read. -/
theorem letters_read_past_stack :
    ¬ReadsOnlyStack ⟨0x100000, 0x108000, 0x110000⟩ (fun _ => 0x41) 0x10FFF0 0x10FFF8 := by
  have hbounds : StackBounds 0x10FFF0 0x110000 := ⟨by decide, by decide, by decide, by decide⟩
  rintro ⟨fuel, dump, hends, hall⟩
  rw [stackDump, Option.map_eq_some_iff] at hends
  obtain ⟨returnAddresses, -, rfl⟩ := hends
  rw [Dump.all_append, Dump.all_append] at hall
  refine (printBytes_all_iff hbounds).mp hall.1.2 ⟨by decide, by decide, fun i _ _ => ?_⟩
  change isprint 0x41 = true
  decide

end

end KernelFromScratch
