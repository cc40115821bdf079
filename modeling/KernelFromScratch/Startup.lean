import KernelFromScratch.Boot
import KernelFromScratch.Gdt
import KernelFromScratch.Library.Gate
import KernelFromScratch.Transparency

/-!
# The descriptor tables at startup

`idt.c` and `interrupt_init` on the bytes of the memory, in the order of `kernel_main`, from the state
that `kernel_entry` leaves to any later one.
-/

namespace KernelFromScratch

section Source

/-- `&idt[index]`. -/
def idtEntry (idt : UInt32) (index : UInt8) : UInt32 := idt + 8 * index.toUInt32

/-- `set_interrupt_descriptor`, for the entry at this address. -/
def writeGate (entry handler : UInt32) (memory : Memory) : Memory :=
  let memory := write16 memory entry (handler &&& 0xFFFF).toUInt16
  let memory := write16 memory (entry + 2) kernelCodeOffset
  let memory := write8 memory (entry + 4) 0
  let memory := write8 memory (entry + 5) interruptGateFlags
  write16 memory (entry + 6) ((handler >>> 16) &&& 0xFFFF).toUInt16

/-- `interrupt_init`. -/
def writeGates (link : Link) (idt : UInt32) (memory : Memory) : Memory :=
  let memory := forLoop 0 exceptionCount
    (fun vector memory =>
      writeGate (idtEntry idt (.ofNat vector)) (exceptionStubTable link vector) memory)
    memory
  forLoop 0 picIrqCount
    (fun irq memory =>
      writeGate (idtEntry idt (.ofNat (picOffset.toNat + irq))) (irqStubTable link irq) memory)
    memory

/-- `sizeof(idt)`. -/
def idtSize : UInt16 := 256 * 8

/-- `register_interrupt_descriptor_table`, with what `lidt` loads. -/
def registerInterruptDescriptorTable (idt idtPtr : UInt32) (memory : Memory) :
    Memory × TableRegister :=
  let memory := write16 memory idtPtr (idtSize - 1)
  let memory := write32 memory (idtPtr + 2) idt
  (memory, ⟨read16 memory idtPtr, read32 memory (idtPtr + 2)⟩)

/-- The statics of `idt.c`, and `gdt_ptr`. -/
structure Statics (sections : Sections) where
  idt : UInt32
  idtPtr : UInt32
  gdtPtr : UInt32
  gdt_below : gdtEnd.toNat ≤ sections.bssStart.toNat
  idt_mem : sections.bssStart.toNat ≤ idt.toNat ∧
    idt.toNat + idtSize.toNat ≤ sections.bssEnd.toNat
  idtPtr_mem : sections.bssStart.toNat ≤ idtPtr.toNat ∧ idtPtr.toNat + 6 ≤ sections.bssEnd.toNat
  gdtPtr_mem : gdtEnd.toNat ≤ gdtPtr.toNat ∧ gdtPtr.toNat + 6 ≤ 2 ^ 32
  apart : idtPtr.toNat + 6 ≤ idt.toNat ∨ idt.toNat + idtSize.toNat ≤ idtPtr.toNat
  gdtPtr_apart : gdtPtr.toNat + 6 ≤ idt.toNat ∨ idt.toNat + idtSize.toNat ≤ gdtPtr.toNat

/-- The tables in `kernel_main`. What `shell_init` and `terminal_init` write, and what
`interrupt_register` and `mouse_init` do, is left open. -/
def startTables {sections : Sections} (statics : Statics sections) (link : Link)
    (shellAndTerminal registerAndMouse : Memory → Memory) (s : SegmentState) :
    Option (SegmentState × TableRegister) := do
  let s ← registerGdt gdtStart statics.gdtPtr { s with memory := shellAndTerminal s.memory }
  let memory := registerAndMouse (writeGates link statics.idt s.memory)
  let (memory, idtr) := registerInterruptDescriptorTable statics.idt statics.idtPtr memory
  return ({ s with memory }, idtr)

end Source

/-- The table that the bytes from `idt` on stand for. -/
def idtAt (memory : Memory) (idt : UInt32) : Idt := fun index =>
  let entry := idtEntry idt index
  { baseLow := read16 memory (entry + 0)
    selector := read16 memory (entry + 2)
    zero := memory (entry + 4)
    flags := memory (entry + 5)
    baseHigh := read16 memory (entry + 6) }

variable {memory memory' : Memory} {entry handler idt : UInt32} {index other : UInt8}

/-! ### A gate -/

/-- What lies at an offset from the entry after the writes, the last one first. -/
theorem writeGate_apply (entry handler : UInt32) (memory : Memory) (x : UInt32) :
    writeGate entry handler memory x
      = if x - entry = 7 then (((handler >>> 16) &&& 0xFFFF).toUInt16 >>> 8).toUInt8
        else if x - entry = 6 then ((handler >>> 16) &&& 0xFFFF).toUInt16.toUInt8
        else if x - entry = 5 then interruptGateFlags
        else if x - entry = 4 then 0
        else if x - entry = 3 then (kernelCodeOffset >>> 8).toUInt8
        else if x - entry = 2 then kernelCodeOffset.toUInt8
        else if x - entry = 1 then ((handler &&& 0xFFFF).toUInt16 >>> 8).toUInt8
        else if x - entry = 0 then (handler &&& 0xFFFF).toUInt16.toUInt8
        else memory x := by
  have hzero : write16 memory entry (handler &&& 0xFFFF).toUInt16
      = write16 memory (entry + 0) (handler &&& 0xFFFF).toUInt16 := by
    rw [UInt32.add_zero]
  rw [writeGate, hzero]
  simp only [write8_apply, write16_apply]
  rfl

theorem writeGate_outside {address : UInt32} (houtside : 8 ≤ (address - entry).toNat) :
    writeGate entry handler memory address = memory address := by
  have hne : ∀ offset : UInt32, offset.toNat < 8 → address - entry ≠ offset := by
    intro offset hoffset heq
    rw [heq] at houtside
    omega
  rw [writeGate_apply, if_neg (hne 7 (by decide)), if_neg (hne 6 (by decide)),
    if_neg (hne 5 (by decide)), if_neg (hne 4 (by decide)), if_neg (hne 3 (by decide)),
    if_neg (hne 2 (by decide)), if_neg (hne 1 (by decide)), if_neg (hne 0 (by decide))]

theorem idtAt_congr (hbytes : ∀ offset : UInt32, offset.toNat < 8 →
    memory' (idtEntry idt index + offset) = memory (idtEntry idt index + offset)) :
    idtAt memory' idt index = idtAt memory idt index := by
  have hread : ∀ offset : UInt32, offset.toNat < 8 → (offset + 1).toNat < 8 →
      read16 memory' (idtEntry idt index + offset) = read16 memory (idtEntry idt index + offset) := by
    intro offset hoffset hnext
    rw [read16, read16, UInt32.add_assoc, hbytes _ hoffset, hbytes _ hnext]
  rw [idtAt, idtAt, hread 0 (by decide) (by decide), hread 2 (by decide) (by decide),
    hread 6 (by decide) (by decide), hbytes 4 (by decide), hbytes 5 (by decide)]

/-- The entries do not overlap. -/
theorem idtEntry_outside (hne : other ≠ index) {offset : UInt32} (hoffset : offset.toNat < 8) :
    8 ≤ (idtEntry idt other + offset - idtEntry idt index).toNat := by
  have hidt := idt.toNat_lt
  have hother := other.toNat_lt
  have hindex := index.toNat_lt
  have hdistinct : other.toNat ≠ index.toNat := fun h => hne (UInt8.toNat_inj.mp h)
  have hentry : ∀ index : UInt8, (idtEntry idt index).toNat = (idt.toNat + 8 * index.toNat) % 2 ^ 32 := by
    intro index
    have hindex := index.toNat_lt
    rw [idtEntry, UInt32.toNat_add, UInt32.toNat_mul, UInt8.toNat_toUInt32]
    change (idt.toNat + 8 * index.toNat % 2 ^ 32) % 2 ^ 32 = _
    omega
  rw [UInt32.toNat_sub, UInt32.toNat_add, hentry, hentry]
  omega

/-- On the bytes `set_interrupt_descriptor` does what it does to the table. -/
theorem idtAt_writeGate (memory : Memory) (idt handler : UInt32) (index : UInt8) :
    idtAt (writeGate (idtEntry idt index) handler memory) idt
      = setInterruptDescriptor (idtAt memory idt) index handler := by
  funext other
  by_cases hother : other = index
  · rw [hother, setInterruptDescriptor, Function.update_self]
    set memory' := writeGate (idtEntry idt index) handler memory with hmemory'
    have hbyte : ∀ {offset : UInt32} {value : UInt8},
        (if offset = 7 then (((handler >>> 16) &&& 0xFFFF).toUInt16 >>> 8).toUInt8
          else if offset = 6 then ((handler >>> 16) &&& 0xFFFF).toUInt16.toUInt8
          else if offset = 5 then interruptGateFlags
          else if offset = 4 then 0
          else if offset = 3 then (kernelCodeOffset >>> 8).toUInt8
          else if offset = 2 then kernelCodeOffset.toUInt8
          else if offset = 1 then ((handler &&& 0xFFFF).toUInt16 >>> 8).toUInt8
          else if offset = 0 then (handler &&& 0xFFFF).toUInt16.toUInt8
          else memory (idtEntry idt index + offset)) = value →
        memory' (idtEntry idt index + offset) = value := by
      intro offset value hvalue
      rw [hmemory', writeGate_apply, add_sub_self]
      exact hvalue
    have hword : ∀ {offset : UInt32} {value : UInt16},
        memory' (idtEntry idt index + offset) = value.toUInt8 →
        memory' (idtEntry idt index + (offset + 1)) = (value >>> 8).toUInt8 →
        read16 memory' (idtEntry idt index + offset) = value := by
      intro offset value hlow hhigh
      rw [read16, UInt32.add_assoc, hlow, hhigh, read16_bytes]
    have hbaseLow : read16 memory' (idtEntry idt index + 0) = (handler &&& 0xFFFF).toUInt16 :=
      hword (hbyte rfl) (hbyte rfl)
    have hselector : read16 memory' (idtEntry idt index + 2) = kernelCodeOffset :=
      hword (hbyte rfl) (hbyte rfl)
    have hzero : memory' (idtEntry idt index + 4) = 0 := hbyte rfl
    have hflags : memory' (idtEntry idt index + 5) = interruptGateFlags := hbyte rfl
    have hbaseHigh : read16 memory' (idtEntry idt index + 6)
        = ((handler >>> 16) &&& 0xFFFF).toUInt16 :=
      hword (hbyte rfl) (hbyte rfl)
    rw [idtAt, hbaseLow, hselector, hzero, hflags, hbaseHigh]
  · rw [setInterruptDescriptor_other _ _ hother]
    exact idtAt_congr fun offset hoffset => writeGate_outside (idtEntry_outside hother hoffset)

theorem wordOf_read16 (low low' high high' : UInt8) :
    wordOf low low' high high'
      = ((UInt16.ofNat (high.toNat + 2 ^ 8 * high'.toNat)).toUInt32 <<< 16)
        ||| (UInt16.ofNat (low.toNat + 2 ^ 8 * low'.toNat)).toUInt32 := by
  have hlow := low.toNat_lt
  have hlow' := low'.toNat_lt
  have hhigh := high.toNat_lt
  have hhigh' := high'.toNat_lt
  have hhalf : ∀ {n : Nat}, n < 2 ^ 16 → (UInt16.ofNat n).toUInt32.toNat = n := by
    intro n hn
    rw [UInt16.toNat_toUInt32, UInt16.toNat_ofNat_of_lt' hn]
  have hshift : ((UInt16.ofNat (high.toNat + 2 ^ 8 * high'.toNat)).toUInt32 <<< 16).toNat
      = 2 ^ 16 * (high.toNat + 2 ^ 8 * high'.toNat) := by
    rw [UInt32.toNat_shiftLeft, hhalf (by omega), Nat.shiftLeft_eq]
    change (high.toNat + 2 ^ 8 * high'.toNat) * 2 ^ 16 % 2 ^ 32 = _
    omega
  apply UInt32.toNat_inj.mp
  rw [UInt32.toNat_or, hshift, hhalf (by omega), ← Nat.two_pow_add_eq_or_of_lt (by omega), wordOf,
    UInt32.toNat_ofNat_of_lt' (by simp only [UInt32.size]; omega)]
  omega

theorem gateAt_idtEntry (memory : Memory) (idt : UInt32) (vector : UInt8) :
    gateAt memory (idtEntry idt vector)
      = ⟨(idtAt memory idt vector).base, (idtAt memory idt vector).selector,
          (idtAt memory idt vector).flags⟩ := by
  rw [gateAt, wordOf_read16]
  dsimp only [idtAt, IdtEntry.base, read16]
  rw [UInt32.add_assoc, UInt32.add_assoc, UInt32.add_assoc]
  rfl

/-! ### The loops -/

theorem idtAt_writeGates (link : Link) (memory : Memory) (idt : UInt32) :
    idtAt (writeGates link idt memory) idt = interruptInit link (idtAt memory idt) := by
  have hloop : ∀ (count : Nat) (vectors : Nat → UInt8) (handlers : Nat → UInt32) (memory : Memory),
      idtAt (forLoop 0 count
          (fun i memory => writeGate (idtEntry idt (vectors i)) (handlers i) memory) memory) idt
        = forLoop 0 count (fun i table => setInterruptDescriptor table (vectors i) (handlers i))
            (idtAt memory idt) := by
    intro count vectors handlers memory
    exact forLoop_map (fun memory => idtAt memory idt)
      (fun i memory => idtAt_writeGate memory idt (handlers i) (vectors i)) memory
  rw [writeGates, interruptInit, hloop, hloop]

theorem writeGates_outside (link : Link) (memory : Memory) {address : UInt32}
    (hfits : idt.toNat + idtSize.toNat ≤ 2 ^ 32)
    (houtside : address.toNat < idt.toNat ∨ idt.toNat + idtSize.toNat ≤ address.toNat) :
    writeGates link idt memory address = memory address := by
  have hsize : idtSize.toNat = 2048 := rfl
  have haddress := address.toNat_lt
  have hentry : ∀ (index : UInt8) (handler : UInt32) (memory : Memory),
      writeGate (idtEntry idt index) handler memory address = memory address := by
    intro index handler memory
    apply writeGate_outside
    have hindex := index.toNat_lt
    rw [UInt32.toNat_sub, idtEntry, UInt32.toNat_add, UInt32.toNat_mul, UInt8.toNat_toUInt32]
    change 8 ≤ (4294967296 - (_ + 8 * _ % 4294967296) % 4294967296 + _) % 4294967296
    omega
  have hloop : ∀ (count : Nat) (vectors : Nat → UInt8) (handlers : Nat → UInt32) (memory : Memory),
      forLoop 0 count (fun i memory => writeGate (idtEntry idt (vectors i)) (handlers i) memory)
        memory address = memory address := by
    intro count vectors handlers memory
    exact forLoop_unchanged (fun memory : Memory => memory address)
      (fun i memory => hentry (vectors i) (handlers i) memory) memory
  rw [writeGates, hloop, hloop]

theorem idtEntry_toNat (hfits : idt.toNat + idtSize.toNat ≤ 2 ^ 32) {offset : UInt32}
    (hoffset : offset.toNat < 8) :
    (idtEntry idt index + offset).toNat = idt.toNat + 8 * index.toNat + offset.toNat := by
  have hsize : idtSize.toNat = 2048 := rfl
  have hindex := index.toNat_lt
  rw [UInt32.toNat_add, idtEntry, UInt32.toNat_add, UInt32.toNat_mul, UInt8.toNat_toUInt32]
  change ((_ + 8 * _ % 4294967296) % 4294967296 + _) % 4294967296 = _
  omega

/-! ### The vectors -/

/-- A gate that is present, to the code of the kernel. -/
def IdtEntry.Open (gate : IdtEntry) : Prop :=
  gate.flags = interruptGateFlags ∧ gate.selector = kernelCodeOffset

theorem open_setInterruptDescriptor (table : Idt) (handler : UInt32)
    (hopen : other = index ∨ (table other).Open) :
    (setInterruptDescriptor table index handler other).Open := by
  by_cases hother : other = index
  · rw [hother, setInterruptDescriptor, Function.update_self]
    exact ⟨rfl, rfl⟩
  · rw [setInterruptDescriptor_other _ _ hother]
    exact hopen.resolve_left hother

theorem open_install (table : Idt) {count : Nat} (vectors : Nat → UInt8) (handlers : Nat → UInt32)
    (hopen : (∃ i < count, other = vectors i) ∨ (table other).Open) :
    (forLoop 0 count (fun i table => setInterruptDescriptor table (vectors i) (handlers i)) table
      other).Open := by
  refine (forLoop_rule (fun n (current : Idt) =>
    (∃ i < n, other = vectors i) ∨ (table other).Open → (current other).Open) (Nat.zero_le count)
    ?_ ?_) hopen
  · rintro (⟨i, hi, -⟩ | htable)
    · exact absurd hi (Nat.not_lt_zero i)
    · exact htable
  · intro n current _ _ hcurrent hcase
    apply open_setInterruptDescriptor
    rcases hcase with ⟨i, hi, hother⟩ | htable
    · rcases Nat.lt_succ_iff_lt_or_eq.mp hi with hlt | rfl
      · exact .inr (hcurrent (.inl ⟨i, hlt, hother⟩))
      · exact .inl hother
    · exact .inr (hcurrent (.inr htable))

theorem interruptInit_open (link : Link) (table : Idt) (hinstalled : Installed index) :
    (interruptInit link table index).Open := by
  rw [interruptInit]
  apply open_install
  rcases hinstalled with hexception | ⟨hle, hlt⟩
  · refine .inr (open_install _ _ _ (.inl ⟨index.toNat, hexception, ?_⟩))
    rw [UInt8.ofNat_toNat]
  · refine .inl ⟨index.toNat - picOffset.toNat, by omega, ?_⟩
    rw [Nat.add_sub_cancel' hle, UInt8.ofNat_toNat]

/-- The stub of a vector. -/
def stubLabel (vector : UInt8) : Label :=
  if vector.toNat < exceptionCount then .exceptionStub vector.toNat
  else .irqStub (vector.toNat - picOffset.toNat)

theorem interruptInit_base (link : Link) (table : Idt) (hinstalled : Installed index) :
    (interruptInit link table index).base = link.address (stubLabel index) := by
  by_cases hexception : index.toNat < exceptionCount
  · have hbase := interruptInit_exception link table hexception
    rw [stubLabel, if_pos hexception]
    rwa [UInt8.ofNat_toNat] at hbase
  · obtain ⟨hle, hlt⟩ := hinstalled.resolve_left hexception
    have hirq : index.toNat - picOffset.toNat < picIrqCount := by omega
    have hbase := interruptInit_irq link table hirq
    rw [stubLabel, if_neg hexception]
    rwa [Nat.add_sub_cancel' hle, UInt8.ofNat_toNat] at hbase

theorem interruptInit_other (link : Link) (table : Idt) (hother : ¬Installed index) :
    interruptInit link table index = table index := by
  have hsmall : (fun i (table : Idt) =>
      setInterruptDescriptor table (.ofNat i) (exceptionStubTable link i))
      = fun i table => setInterruptDescriptor table (.ofNat (0 + i)) (exceptionStubTable link i) := by
    funext i table
    rw [Nat.zero_add]
  have hpic : picOffset.toNat = 32 := rfl
  rw [Installed, hpic] at hother
  rw [interruptInit, install_other _ (by decide) _ (by omega), hsmall,
    install_other _ (by decide) _ (by omega)]

/-! ### The processor -/

theorem segmentOf_congr (hbytes : ∀ address : UInt32,
      gdtStart.toNat ≤ address.toNat ∧ address.toNat < gdtEnd.toNat →
      memory' address = memory address) :
    segmentOf memory' (gdtRegister gdtStart) kernelCodeOffset
      = segmentOf memory (gdtRegister gdtStart) kernelCodeOffset := by
  have hentry : segmentAt memory' (gdtEntry gdtStart 1) = segmentAt memory (gdtEntry gdtStart 1) := by
    apply segmentAt_congr
    intro offset hoffset
    have haddress : (gdtEntry gdtStart 1 + offset).toNat = 0x808 + offset.toNat := by
      rw [UInt32.toNat_add]
      change (0x808 + _) % 4294967296 = _
      omega
    have hstart : gdtStart.toNat = 0x800 := rfl
    have hend : gdtEnd.toNat = 0x838 := rfl
    exact hbytes _ (by omega)
  exact congrArg some hentry

theorem gateOf_idtAt (memory : Memory) (idt : UInt32) (vector : UInt8) :
    gateOf memory ⟨idtSize - 1, idt⟩ vector
      = some ⟨(idtAt memory idt vector).base, (idtAt memory idt vector).selector,
          (idtAt memory idt vector).flags⟩ := by
  have hvector := vector.toNat_lt
  have hin : 8 * vector.toNat + 7 ≤ (idtSize - 1).toNat := by
    change 8 * vector.toNat + 7 ≤ 2047
    omega
  rw [gateOf, if_pos hin, ← gateAt_idtEntry]
  rfl

theorem vectorTarget_of_open {vector : UInt8} (hopen : (idtAt memory idt vector).Open)
    (hsegment : segmentOf memory (gdtRegister gdtStart) kernelCodeOffset
      = some ⟨0, 0xFFFFFFFF, SelectorIndex.kernelCode.accessByte, 0xC0⟩) :
    vectorTarget memory ⟨idtSize - 1, idt⟩ (gdtRegister gdtStart) vector
      = some (idtAt memory idt vector).base := by
  have hgate := gateOf_idtAt memory idt vector
  have hpresent : decide (interruptGateFlags &&& 0x80 ≠ 0) = true := by decide
  have hinterrupt : decide (interruptGateFlags &&& 0x1F = 0x0E) = true := by decide
  have hcheck : checkCode (kernelCodeOffset &&& 0xFFFC)
      ⟨0, 0xFFFFFFFF, SelectorIndex.kernelCode.accessByte, 0xC0⟩ = true := by
    decide
  rw [hopen.1, hopen.2] at hgate
  exact vectorTarget_of_flat hgate hpresent hinterrupt hsegment
    (@covers_accessByte .kernelCode SelectorIndex.noConfusion).flat hcheck

theorem vectorTarget_of_zero {vector : UInt8} (hflags : (idtAt memory idt vector).flags = 0) :
    vectorTarget memory ⟨idtSize - 1, idt⟩ (gdtRegister gdtStart) vector = none := by
  have hgate := gateOf_idtAt memory idt vector
  have habsent : decide ((0 : UInt8) &&& 0x80 ≠ 0) = false := by decide
  rw [hflags] at hgate
  exact vectorTarget_of_absent hgate habsent

section Tables

variable {sections : Sections} (statics : Statics sections)

/-- No byte of the two tables differs. -/
def Statics.KeepsTables (memory memory' : Memory) : Prop :=
  ∀ address : UInt32,
    gdtStart.toNat ≤ address.toNat ∧ address.toNat < gdtEnd.toNat ∨
      statics.idt.toNat ≤ address.toNat ∧ address.toNat < statics.idt.toNat + idtSize.toNat →
    memory' address = memory address

variable {statics}

theorem Statics.KeepsTables.idtAt_eq (hkeeps : statics.KeepsTables memory memory') :
    idtAt memory' statics.idt = idtAt memory statics.idt := by
  have hfits := statics.idt_mem.2
  have hend := sections.bssEnd.toNat_lt
  have hsize : idtSize.toNat = 2048 := rfl
  funext index
  have hindex := index.toNat_lt
  apply idtAt_congr
  intro offset hoffset
  have haddress : (idtEntry statics.idt index + offset).toNat
      = statics.idt.toNat + 8 * index.toNat + offset.toNat := idtEntry_toNat (by omega) hoffset
  exact hkeeps _ (.inr (by omega))

theorem Statics.KeepsTables.trans {memory'' : Memory} (hfirst : statics.KeepsTables memory memory')
    (hsecond : statics.KeepsTables memory' memory'') : statics.KeepsTables memory memory'' :=
  fun address hin => (hsecond address hin).trans (hfirst address hin)

/-- The pointer that `lidt` reads lies beside the tables. -/
theorem keepsTables_register (memory : Memory) : statics.KeepsTables memory
    (registerInterruptDescriptorTable statics.idt statics.idtPtr memory).1 := by
  have hgdt := statics.gdt_below
  have hptr := statics.idtPtr_mem
  have hend := sections.bssEnd.toNat_lt
  have hapart := statics.apart
  intro address hin
  have haddress := address.toNat_lt
  have houtside : 6 ≤ (address - statics.idtPtr).toNat := by
    rw [UInt32.toNat_sub]
    omega
  exact tablePointer_outside memory (idtSize - 1) statics.idt houtside

theorem register_loads (idt idtPtr : UInt32) (memory : Memory) :
    (registerInterruptDescriptorTable idt idtPtr memory).2 = ⟨idtSize - 1, idt⟩ :=
  tableRegisterAt_write memory idtPtr (idtSize - 1) idt

theorem Statics.ptrApart (statics : Statics sections) : PtrApart gdtStart statics.gdtPtr := by
  intro offset hoffset
  obtain ⟨hstart, hfits⟩ := statics.gdtPtr_mem
  have htable : gdtEnd.toNat = 0x838 := rfl
  rw [UInt32.toNat_sub, UInt32.toNat_add]
  change 56 ≤ (4294967296 - 0x800 + (_ + _) % 4294967296) % 4294967296
  omega

/-- `register_gdt` leaves the bytes of the other table alone. -/
theorem registeredMemory_idt (statics : Statics sections) (memory : Memory) {address : UInt32}
    (hstart : statics.idt.toNat ≤ address.toNat)
    (hlt : address.toNat < statics.idt.toNat + idtSize.toNat) :
    registeredMemory gdtStart statics.gdtPtr memory address = memory address := by
  obtain ⟨hptr, hfits⟩ := statics.gdtPtr_mem
  have hidt := statics.idt_mem
  have hapart := statics.gdtPtr_apart
  have hbelow := statics.gdt_below
  have hend := sections.bssEnd.toNat_lt
  have haddress := address.toNat_lt
  have htable : gdtEnd.toNat = 0x838 := rfl
  apply registeredMemory_outside
  · rw [UInt32.toNat_sub]
    change 56 ≤ (4294967296 - 0x800 + _) % 4294967296
    omega
  · rw [UInt32.toNat_sub]
    omega

/-- From every state of the machine at the entry of the kernel, and for as long as the rest of the
kernel does not write to the tables: in ring 0 an installed vector goes on at its own stub, and no
other vector has a gate. -/
theorem vectors_reach_stubs (statics : Statics sections) (link : Link)
    {shellAndTerminal registerAndMouse : Memory → Memory}
    (hshell : ∀ memory, statics.KeepsTables memory (shellAndTerminal memory))
    (hregister : ∀ memory, statics.KeepsTables memory (registerAndMouse memory))
    {kernelMain returnAddress : UInt32} {cpu : Cpu} {s : SegmentState}
    (hentered : s.memory = (kernelEntry sections kernelMain returnAddress cpu).memory) :
    ∃ s' idtr, startTables statics link shellAndTerminal registerAndMouse s = some (s', idtr) ∧
      ∀ memory, statics.KeepsTables s'.memory memory → ∀ vector,
        (Installed vector →
          vectorTarget memory idtr s'.gdtr vector = some (link.address (stubLabel vector))) ∧
        (¬Installed vector → vectorTarget memory idtr s'.gdtr vector = none) := by
  have hbooted := kernelEntry_booted sections kernelMain returnAddress cpu
  have hfits := statics.idt_mem
  have hend := sections.bssEnd.toNat_lt
  have hbelow := statics.gdt_below
  set initial := shellAndTerminal s.memory with hinitial
  -- The table is zero when `interrupt_init` runs: nothing has written to it.
  have hzero : ∀ address : UInt32, statics.idt.toNat ≤ address.toNat →
      address.toNat < statics.idt.toNat + idtSize.toNat →
      registeredMemory gdtStart statics.gdtPtr initial address = 0 := by
    intro address hstart hlt
    have hkept : initial address = s.memory address := hshell s.memory address (.inr ⟨hstart, hlt⟩)
    rw [registeredMemory_idt statics initial hstart hlt, hkept, hentered]
    exact hbooted.bss address (by omega) (by omega)
  have hstart : startTables statics link shellAndTerminal registerAndMouse s = some
      (⟨(registerInterruptDescriptorTable statics.idt statics.idtPtr
          (registerAndMouse (writeGates link statics.idt
            (registeredMemory gdtStart statics.gdtPtr initial)))).1,
        gdtRegister gdtStart, kernelCodeOffset, kernelDataOffset, kernelDataOffset, kernelDataOffset,
        kernelDataOffset, kernelStackOffset⟩, ⟨idtSize - 1, statics.idt⟩) := by
    rw [startTables, registerGdt_eq statics.ptrApart]
    dsimp only [Option.bind_eq_bind, Option.bind_some]
    rw [← register_loads statics.idt statics.idtPtr]
    rfl
  refine ⟨_, _, hstart, fun memory hkeeps vector => ?_⟩
  have hlater := ((hregister _).trans (keepsTables_register _)).trans hkeeps
  have htable : idtAt memory statics.idt
      = interruptInit link
          (idtAt (registeredMemory gdtStart statics.gdtPtr initial) statics.idt) := by
    rw [hlater.idtAt_eq, idtAt_writeGates]
  have hsegment : segmentOf memory (gdtRegister gdtStart) kernelCodeOffset
      = some ⟨0, 0xFFFFFFFF, SelectorIndex.kernelCode.accessByte, 0xC0⟩ := by
    rw [segmentOf_congr fun address hin => hlater address (.inl hin),
      segmentOf_congr fun address hin => writeGates_outside link _ (by omega) (by omega)]
    exact @segmentOf_gdtEntries gdtStart .kernelCode _ SelectorIndex.noConfusion
  constructor
  · intro hinstalled
    have hopen : (idtAt memory statics.idt vector).Open := by
      rw [htable]
      exact interruptInit_open link _ hinstalled
    rw [vectorTarget_of_open hopen hsegment, htable, interruptInit_base link _ hinstalled]
  · intro hother
    have hflags : (idtAt memory statics.idt vector).flags = 0 := by
      rw [htable, interruptInit_other link _ hother]
      have hsize : idtSize.toNat = 2048 := rfl
      have hvector := vector.toNat_lt
      have hfive : (5 : UInt32).toNat = 5 := rfl
      have haddress : (idtEntry statics.idt vector + 5).toNat
          = statics.idt.toNat + 8 * vector.toNat + 5 := idtEntry_toNat (by omega) (by decide)
      exact hzero _ (by omega) (by omega)
    exact vectorTarget_of_zero hflags

end Tables

def sampleStatics : Statics sampleSections where
  idt := 0x110000
  idtPtr := 0x110800
  gdtPtr := 0x110806
  gdt_below := by decide
  idt_mem := by decide
  idtPtr_mem := by decide
  gdtPtr_mem := by decide
  apart := by decide
  gdtPtr_apart := by decide

/-- The segments of the boot loader. -/
def enteredSegments : SegmentState where
  memory := (kernelEntry sampleSections 0x101000 0x100FFF flatCpu).memory
  gdtr := ⟨0, 0⟩
  cs := 0x10
  ds := 0x18
  es := 0x18
  fs := 0x18
  gs := 0x18
  ss := 0x18

/-- The keyboard, and a vector that no part of the kernel uses. -/
theorem vectors_reach_stubs_sample :
    ∃ s' idtr, startTables sampleStatics spacedLink id id enteredSegments = some (s', idtr) ∧
      vectorTarget s'.memory idtr s'.gdtr 0x21 = some 0x1010 ∧
      vectorTarget s'.memory idtr s'.gdtr 0x80 = none := by
  have hentered : enteredSegments.memory
      = (kernelEntry sampleSections 0x101000 0x100FFF flatCpu).memory := by
    rw [enteredSegments]
  obtain ⟨s', idtr, hstart, hvectors⟩ := vectors_reach_stubs sampleStatics spacedLink
    (fun _ _ _ => rfl) (fun _ _ _ => rfl) hentered
  obtain ⟨hkeyboard, -⟩ := hvectors s'.memory (fun _ _ => rfl) 0x21
  obtain ⟨-, hunused⟩ := hvectors s'.memory (fun _ _ => rfl) 0x80
  have hinstalled : Installed 0x21 := .inr (by decide)
  have hother : ¬Installed 0x80 := by
    rw [Installed]
    decide
  exact ⟨s', idtr, hstart, hkeyboard hinstalled, hunused hother⟩

end KernelFromScratch
