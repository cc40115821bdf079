import KernelFromScratch.Interrupt
import KernelFromScratch.Library.Descriptor

/-!
# The global descriptor table

`gdt.c`: seven descriptors, written field by field, the pointer to them, and the segment registers
loaded from them. Nothing assigns the variable `gdt` after its initializer `gdt_start`; its value is
an argument here.
-/

namespace KernelFromScratch

section Source

/-- Where the linker puts `.gdt`. -/
def gdtStart : UInt32 := 0x800

/-- `.gdt` is seven quadwords. -/
def gdtEnd : UInt32 := gdtStart + 7 * 8

/-- `enum gdt_selector_index`. -/
inductive SelectorIndex where
  | null
  | kernelCode
  | kernelData
  | kernelStack
  | userCode
  | userData
  | userStack
  deriving DecidableEq

def SelectorIndex.toUInt32 : SelectorIndex → UInt32
  | null => 0
  | kernelCode => 1
  | kernelData => 2
  | kernelStack => 3
  | userCode => 4
  | userData => 5
  | userStack => 6

/-! `enum gdt_selector_offset`, as far as it is used; `KERNEL_CODE_OFFSET` is in the gates too. -/

def kernelDataOffset : UInt16 := 0x10

def kernelStackOffset : UInt16 := 0x18

def addressMin : UInt32 := 0x00000000

def addressMax : UInt32 := 0xFFFFFFFF

/-! `enum gdt_access_byte`, as far as it is used. -/

def accessPresent : UInt8 := 0x80

def privilege0 : UInt8 := 0x00

def privilege3 : UInt8 := 0x60

def accessDescriptor : UInt8 := 0x10

def accessExecutable : UInt8 := 0x08

def accessReadWrite : UInt8 := 0x02

/-- `&gdt[index]`. -/
def gdtEntry (gdt index : UInt32) : UInt32 := gdt + 8 * index

/-- `set_entry`, for the entry at this address. -/
def setEntryAt (entry base limit : UInt32) (access granularity : UInt8) (memory : Memory) :
    Memory :=
  let memory := write16 memory (entry + 2) (base &&& 0xFFFF).toUInt16
  let memory := write8 memory (entry + 4) ((base >>> 16) &&& 0xFF).toUInt8
  let memory := write8 memory (entry + 7) ((base >>> 24) &&& 0xFF).toUInt8
  let memory := write16 memory entry (limit &&& 0xFFFF).toUInt16
  let memory := write8 memory (entry + 6) ((limit >>> 16) &&& 0x0F).toUInt8
  let memory := write8 memory (entry + 6) (memory (entry + 6) ||| (granularity &&& 0xF0))
  write8 memory (entry + 5) access

def setEntry (gdt : UInt32) (index : SelectorIndex) (base limit : UInt32)
    (access granularity : UInt8) (memory : Memory) : Memory :=
  setEntryAt (gdtEntry gdt index.toUInt32) base limit access granularity memory

/-- The memory and the registers that `register_gdt` changes. -/
structure SegmentState where
  memory : Memory
  gdtr : TableRegister
  cs : UInt16
  ds : UInt16
  es : UInt16
  fs : UInt16
  gs : UInt16
  ss : UInt16

/-- The seven calls of `set_entry`. -/
def gdtEntries (gdt : UInt32) (memory : Memory) : Memory :=
  let memory := setEntry gdt .null addressMin addressMin 0 0 memory
  let memory := setEntry gdt .kernelCode addressMin addressMax
    (accessDescriptor ||| accessPresent ||| privilege0 ||| accessExecutable ||| accessReadWrite) 0xCF
    memory
  let memory := setEntry gdt .kernelData addressMin addressMax
    (accessDescriptor ||| accessPresent ||| privilege0 ||| accessReadWrite) 0xCF memory
  let memory := setEntry gdt .kernelStack addressMin addressMax
    (accessDescriptor ||| accessPresent ||| privilege0 ||| accessReadWrite) 0xCF memory
  let memory := setEntry gdt .userCode addressMin addressMax
    (accessDescriptor ||| accessPresent ||| privilege3 ||| accessExecutable ||| accessReadWrite) 0xCF
    memory
  let memory := setEntry gdt .userData addressMin addressMax
    (accessDescriptor ||| accessPresent ||| privilege3 ||| accessReadWrite) 0xCF memory
  setEntry gdt .userStack addressMin addressMax
    (accessDescriptor ||| accessPresent ||| privilege3 ||| accessReadWrite) 0xCF memory

/-- `register_gdt`, in ring 0, with `gdt_ptr` at `gdtPtr`; none when a load of a segment register
faults. -/
def registerGdt (gdt gdtPtr : UInt32) (s : SegmentState) : Option SegmentState := do
  let memory := write16 s.memory gdtPtr (gdtEnd - gdtStart - 1).toUInt16
  let memory := write32 memory (gdtPtr + 2) gdt
  let memory := gdtEntries gdt memory
  let gdtr := tableRegisterAt memory gdtPtr
  let cs ← loadSelector checkCode memory gdtr kernelCodeOffset
  let ax := kernelDataOffset
  let ds ← loadSelector checkData memory gdtr ax
  let es ← loadSelector checkData memory gdtr ax
  let fs ← loadSelector checkData memory gdtr ax
  let gs ← loadSelector checkData memory gdtr ax
  let ax := kernelStackOffset
  let ss ← loadSelector checkStack memory gdtr ax
  return ⟨memory, gdtr, cs, ds, es, fs, gs, ss⟩

end Source

variable {memory : Memory} {entry base limit address gdt gdtPtr : UInt32} {access granularity : UInt8}

/-! ### An entry -/

/-- What lies at an offset from the entry after the writes, the last one first. -/
theorem setEntryAt_apply (memory : Memory) (x : UInt32) :
    setEntryAt entry base limit access granularity memory x
      = if x - entry = 5 then access
        else if x - entry = 6 then ((limit >>> 16) &&& 0x0F).toUInt8 ||| (granularity &&& 0xF0)
        else if x - entry = 1 then ((limit &&& 0xFFFF).toUInt16 >>> 8).toUInt8
        else if x - entry = 0 then (limit &&& 0xFFFF).toUInt16.toUInt8
        else if x - entry = 7 then ((base >>> 24) &&& 0xFF).toUInt8
        else if x - entry = 4 then ((base >>> 16) &&& 0xFF).toUInt8
        else if x - entry = 3 then ((base &&& 0xFFFF).toUInt16 >>> 8).toUInt8
        else if x - entry = 2 then (base &&& 0xFFFF).toUInt16.toUInt8
        else memory x := by
  have hzero : ∀ memory : Memory, write16 memory entry (limit &&& 0xFFFF).toUInt16
      = write16 memory (entry + 0) (limit &&& 0xFFFF).toUInt16 := by
    intro memory
    rw [UInt32.add_zero]
  rw [setEntryAt, hzero]
  simp only [write8_apply, write16_apply, add_sub_self]
  by_cases hfive : x - entry = 5
  · rw [if_pos hfive, if_pos hfive]
  rw [if_neg hfive, if_neg hfive]
  by_cases hsix : x - entry = 6
  · rw [if_pos hsix, if_pos hsix, if_pos trivial]
  rw [if_neg hsix, if_neg hsix, if_neg hsix]
  rfl

theorem and_mask_toNat (word : UInt32) :
    (word &&& 0xFFFF).toNat = word.toNat % 2 ^ 16 ∧ (word &&& 0xFF).toNat = word.toNat % 2 ^ 8 ∧
      (word &&& 0x0F).toNat = word.toNat % 2 ^ 4 ∧ (word &&& 0xFFFFF).toNat = word.toNat % 2 ^ 20 := by
  refine ⟨?_, ?_, ?_, ?_⟩
  · exact (UInt32.toNat_and _ _).trans (Nat.and_two_pow_sub_one_eq_mod _ 16)
  · exact (UInt32.toNat_and _ _).trans (Nat.and_two_pow_sub_one_eq_mod _ 8)
  · exact (UInt32.toNat_and _ _).trans (Nat.and_two_pow_sub_one_eq_mod _ 4)
  · exact (UInt32.toNat_and _ _).trans (Nat.and_two_pow_sub_one_eq_mod _ 20)

theorem byteOf_low (word : UInt32) : (word &&& 0xFFFF).toUInt16.toUInt8 = byteOf word 0 ∧
    ((word &&& 0xFFFF).toUInt16 >>> 8).toUInt8 = byteOf word 1 := by
  have hmask := (and_mask_toNat word).1
  constructor
  · apply UInt8.toNat_inj.mp
    rw [UInt16.toNat_toUInt8, UInt32.toNat_toUInt16, hmask]
    change _ = word.toNat / 2 ^ (8 * 0) % 2 ^ 8
    omega
  · apply UInt8.toNat_inj.mp
    rw [UInt16.toNat_toUInt8, UInt16.toNat_shiftRight, UInt32.toNat_toUInt16, hmask]
    change (word.toNat % 2 ^ 16 % 2 ^ 16) >>> 8 % 2 ^ 8 = word.toNat / 2 ^ (8 * 1) % 2 ^ 8
    rw [Nat.shiftRight_eq_div_pow]
    omega

theorem byteOf_high (word : UInt32) : ((word >>> 16) &&& 0xFF).toUInt8 = byteOf word 2 ∧
    ((word >>> 24) &&& 0xFF).toUInt8 = byteOf word 3 := by
  constructor
  · apply UInt8.toNat_inj.mp
    rw [UInt32.toNat_toUInt8, (and_mask_toNat _).2.1, UInt32.toNat_shiftRight]
    change word.toNat >>> 16 % 2 ^ 8 % 2 ^ 8 = word.toNat / 2 ^ (8 * 2) % 2 ^ 8
    rw [Nat.shiftRight_eq_div_pow]
    omega
  · apply UInt8.toNat_inj.mp
    rw [UInt32.toNat_toUInt8, (and_mask_toNat _).2.1, UInt32.toNat_shiftRight]
    change word.toNat >>> 24 % 2 ^ 8 % 2 ^ 8 = word.toNat / 2 ^ (8 * 3) % 2 ^ 8
    rw [Nat.shiftRight_eq_div_pow]
    omega

theorem or_and_distrib (x y mask : UInt8) : (x ||| y) &&& mask = x &&& mask ||| y &&& mask :=
  UInt8.toBitVec_inj.mp BitVec.and_or_distrib_right

/-- The limit and the granularity share a byte. -/
def limitByte (limit : UInt32) (granularity : UInt8) : UInt8 :=
  ((limit >>> 16) &&& 0x0F).toUInt8 ||| (granularity &&& 0xF0)

theorem limitByte_and (limit : UInt32) (granularity : UInt8) :
    limitByte limit granularity &&& (0x0F : UInt8) = ((limit >>> 16) &&& 0x0F).toUInt8 ∧
      limitByte limit granularity &&& (0x80 : UInt8) = granularity &&& 0x80 ∧
      limitByte limit granularity &&& (0xF0 : UInt8) = granularity &&& 0xF0 := by
  have hmask : limitByte limit granularity
      = (limit >>> 16).toUInt8 &&& 0x0F ||| granularity &&& 0xF0 := by
    rw [limitByte, UInt32.toUInt8_and]
    rfl
  have hnibble : (0x0F : UInt8) &&& 0x0F = 0x0F ∧ (0xF0 : UInt8) &&& 0x0F = 0 := ⟨rfl, rfl⟩
  have hunit : (0x0F : UInt8) &&& 0x80 = 0 ∧ (0xF0 : UInt8) &&& 0x80 = 0x80 := ⟨rfl, rfl⟩
  have hflags : (0x0F : UInt8) &&& 0xF0 = 0 ∧ (0xF0 : UInt8) &&& 0xF0 = 0xF0 := ⟨rfl, rfl⟩
  rw [hmask]
  refine ⟨?_, ?_, ?_⟩
  · rw [or_and_distrib, UInt8.and_assoc, UInt8.and_assoc, hnibble.1, hnibble.2, UInt8.and_zero,
      UInt8.or_zero, UInt32.toUInt8_and]
    rfl
  · rw [or_and_distrib, UInt8.and_assoc, UInt8.and_assoc, hunit.1, hunit.2, UInt8.and_zero,
      UInt8.zero_or]
  · rw [or_and_distrib, UInt8.and_assoc, UInt8.and_assoc, hflags.1, hflags.2, UInt8.and_zero,
      UInt8.zero_or]

theorem limit_wordOf (limit : UInt32) :
    wordOf (byteOf limit 0) (byteOf limit 1) ((limit >>> 16) &&& 0x0F).toUInt8 0
      = limit &&& 0xFFFFF := by
  obtain ⟨-, -, -, htwenty⟩ := and_mask_toNat limit
  have hlow : (byteOf limit 0).toNat = limit.toNat % 2 ^ 8 := by
    change limit.toNat / 2 ^ (8 * 0) % 2 ^ 8 = _
    omega
  have hhigh : (byteOf limit 1).toNat = limit.toNat / 2 ^ 8 % 2 ^ 8 := rfl
  have hnibble : ((limit >>> 16) &&& 0x0F).toUInt8.toNat = limit.toNat / 2 ^ 16 % 2 ^ 4 := by
    rw [UInt32.toNat_toUInt8, (and_mask_toNat _).2.2.1, UInt32.toNat_shiftRight]
    change limit.toNat >>> 16 % 2 ^ 4 % 2 ^ 8 = _
    rw [Nat.shiftRight_eq_div_pow]
    omega
  have hsum : (byteOf limit 0).toNat + 2 ^ 8 * (byteOf limit 1).toNat
      + 2 ^ 16 * ((limit >>> 16) &&& 0x0F).toUInt8.toNat + 2 ^ 24 * (0 : UInt8).toNat
        = (limit &&& 0xFFFFF).toNat := by
    rw [hlow, hhigh, hnibble, htwenty]
    change _ + _ + _ + 2 ^ 24 * 0 = _
    omega
  apply UInt32.toNat_inj.mp
  rw [wordOf, hsum]
  exact UInt32.toNat_ofNat_of_lt' (UInt32.toNat_lt _)

/-- The processor reads what `set_entry` was given, but for the bits of the limit that a descriptor
has no room for. -/
theorem segmentAt_setEntryAt (memory : Memory) :
    segmentAt (setEntryAt entry base limit access granularity memory) entry
      = ⟨base, segmentLimit (limit &&& 0xFFFFF) granularity, access, granularity &&& 0xF0⟩ := by
  set memory' := setEntryAt entry base limit access granularity memory with hmemory'
  have hbyte : ∀ {offset : UInt32} {value : UInt8},
      (if offset = 5 then access
        else if offset = 6 then ((limit >>> 16) &&& 0x0F).toUInt8 ||| (granularity &&& 0xF0)
        else if offset = 1 then ((limit &&& 0xFFFF).toUInt16 >>> 8).toUInt8
        else if offset = 0 then (limit &&& 0xFFFF).toUInt16.toUInt8
        else if offset = 7 then ((base >>> 24) &&& 0xFF).toUInt8
        else if offset = 4 then ((base >>> 16) &&& 0xFF).toUInt8
        else if offset = 3 then ((base &&& 0xFFFF).toUInt16 >>> 8).toUInt8
        else if offset = 2 then (base &&& 0xFFFF).toUInt16.toUInt8
        else memory (entry + offset)) = value → memory' (entry + offset) = value := by
    intro offset value hvalue
    rw [hmemory', setEntryAt_apply, add_sub_self]
    exact hvalue
  have hzero : memory' (entry + 0) = byteOf limit 0 := hbyte (byteOf_low limit).1
  have hone : memory' (entry + 1) = byteOf limit 1 := hbyte (byteOf_low limit).2
  have htwo : memory' (entry + 2) = byteOf base 0 := hbyte (byteOf_low base).1
  have hthree : memory' (entry + 3) = byteOf base 1 := hbyte (byteOf_low base).2
  have hfour : memory' (entry + 4) = byteOf base 2 := hbyte (byteOf_high base).1
  have hfive : memory' (entry + 5) = access := hbyte rfl
  have hsix : memory' (entry + 6) = limitByte limit granularity := hbyte rfl
  have hseven : memory' (entry + 7) = byteOf base 3 := hbyte (byteOf_high base).2
  obtain ⟨hnibble, hunit, hflags⟩ := limitByte_and limit granularity
  rw [segmentAt, hzero, hone, htwo, hthree, hfour, hfive, hsix, hseven, wordOf_byteOf, hnibble,
    limit_wordOf, segmentLimit, segmentLimit, hunit, hflags]

theorem setEntryAt_outside (memory : Memory) (houtside : 8 ≤ (address - entry).toNat) :
    setEntryAt entry base limit access granularity memory address = memory address := by
  have hne : ∀ offset : UInt32, offset.toNat < 8 → address - entry ≠ offset := by
    intro offset hoffset heq
    rw [heq] at houtside
    omega
  rw [setEntryAt_apply, if_neg (hne 5 (by decide)), if_neg (hne 6 (by decide)),
    if_neg (hne 1 (by decide)), if_neg (hne 0 (by decide)), if_neg (hne 7 (by decide)),
    if_neg (hne 4 (by decide)), if_neg (hne 3 (by decide)), if_neg (hne 2 (by decide))]

/-! ### The table -/

variable {index index' : SelectorIndex}

theorem SelectorIndex.toUInt32_le (index : SelectorIndex) : index.toUInt32.toNat ≤ 6 := by
  cases index <;> decide

theorem SelectorIndex.toUInt32_inj (hindex : index.toUInt32.toNat = index'.toUInt32.toNat) :
    index = index' := by
  cases index <;> cases index' <;> first | rfl | exact absurd hindex (by decide)

theorem gdtEntry_toNat (gdt : UInt32) (index : SelectorIndex) :
    (gdtEntry gdt index.toUInt32).toNat = (gdt.toNat + 8 * index.toUInt32.toNat) % 2 ^ 32 := by
  have hle := index.toUInt32_le
  rw [gdtEntry, UInt32.toNat_add, UInt32.toNat_mul]
  change (gdt.toNat + 8 * index.toUInt32.toNat % 2 ^ 32) % 2 ^ 32 = _
  omega

/-- The entries do not overlap. -/
theorem entry_outside (hne : index ≠ index') {offset : UInt32} (hoffset : offset.toNat < 8) :
    8 ≤ (gdtEntry gdt index'.toUInt32 + offset - gdtEntry gdt index.toUInt32).toNat := by
  have hgdt := gdt.toNat_lt
  have hle := index.toUInt32_le
  have hle' := index'.toUInt32_le
  have hdistinct : index.toUInt32.toNat ≠ index'.toUInt32.toNat := fun h =>
    hne (SelectorIndex.toUInt32_inj h)
  rw [UInt32.toNat_sub, UInt32.toNat_add, gdtEntry_toNat, gdtEntry_toNat]
  omega

theorem segmentAt_setEntry_of_ne (hne : index ≠ index') (memory : Memory) :
    segmentAt (setEntry gdt index base limit access granularity memory)
        (gdtEntry gdt index'.toUInt32)
      = segmentAt memory (gdtEntry gdt index'.toUInt32) := by
  apply segmentAt_congr
  intro offset hoffset
  exact setEntryAt_outside memory (entry_outside hne hoffset)

/-- What `set_entry` is given is what the processor reads from the entry, but for the bits of the
limit above the twentieth and the low nibble of the granularity; every other entry of the table, and
every other byte, stays as it was. -/
theorem setEntry_reads_back (gdt : UInt32) (index : SelectorIndex) (base limit : UInt32)
    (access granularity : UInt8) (memory : Memory) :
    segmentAt (setEntry gdt index base limit access granularity memory)
          (gdtEntry gdt index.toUInt32)
        = ⟨base, segmentLimit (limit &&& 0xFFFFF) granularity, access, granularity &&& 0xF0⟩ ∧
      (∀ index' ≠ index,
        segmentAt (setEntry gdt index base limit access granularity memory)
            (gdtEntry gdt index'.toUInt32)
          = segmentAt memory (gdtEntry gdt index'.toUInt32)) ∧
      ∀ address : UInt32, 8 ≤ (address - gdtEntry gdt index.toUInt32).toNat →
        setEntry gdt index base limit access granularity memory address = memory address :=
  ⟨segmentAt_setEntryAt memory, fun _ hne => segmentAt_setEntry_of_ne hne.symm memory,
    fun _ houtside => setEntryAt_outside memory houtside⟩

/-- The access byte that `register_gdt` gives an entry. -/
def SelectorIndex.accessByte : SelectorIndex → UInt8
  | null => 0
  | kernelCode => 0x9A
  | kernelData => 0x92
  | kernelStack => 0x92
  | userCode => 0xFA
  | userData => 0xF2
  | userStack => 0xF2

theorem segmentAt_gdtEntries (memory : Memory) (hindex : index ≠ .null) :
    segmentAt (gdtEntries gdt memory) (gdtEntry gdt index.toUInt32)
      = ⟨0, 0xFFFFFFFF, index.accessByte, 0xC0⟩ := by
  have hlast : ∀ (access : UInt8) (memory : Memory),
      segmentAt (setEntry gdt index addressMin addressMax access 0xCF memory)
          (gdtEntry gdt index.toUInt32)
        = ⟨0, 0xFFFFFFFF, access, 0xC0⟩ := fun access memory => segmentAt_setEntryAt memory
  rw [gdtEntries]
  cases index with
  | null => exact absurd rfl hindex
  | kernelCode =>
      iterate 5 rw [segmentAt_setEntry_of_ne SelectorIndex.noConfusion]
      exact hlast _ _
  | kernelData =>
      iterate 4 rw [segmentAt_setEntry_of_ne SelectorIndex.noConfusion]
      exact hlast _ _
  | kernelStack =>
      iterate 3 rw [segmentAt_setEntry_of_ne SelectorIndex.noConfusion]
      exact hlast _ _
  | userCode =>
      iterate 2 rw [segmentAt_setEntry_of_ne SelectorIndex.noConfusion]
      exact hlast _ _
  | userData =>
      rw [segmentAt_setEntry_of_ne SelectorIndex.noConfusion]
      exact hlast _ _
  | userStack => exact hlast _ _

theorem gdtEntries_outside (memory : Memory) (houtside : 56 ≤ (address - gdt).toNat) :
    gdtEntries gdt memory address = memory address := by
  have hentry : ∀ (index : SelectorIndex) (base limit : UInt32) (access granularity : UInt8)
      (memory : Memory),
      setEntry gdt index base limit access granularity memory address = memory address := by
    intro index base limit access granularity memory
    apply setEntryAt_outside
    have hle := index.toUInt32_le
    have hgdt := gdt.toNat_lt
    have haddress := address.toNat_lt
    rw [UInt32.toNat_sub] at houtside ⊢
    rw [gdtEntry_toNat]
    omega
  rw [gdtEntries]
  iterate 7 rw [hentry]

/-! ### The segment registers -/

def SelectorIndex.selector (index : SelectorIndex) : UInt16 := index.toUInt32.toUInt16 <<< 3

def SelectorIndex.isUser : SelectorIndex → Bool
  | userCode => true
  | userData => true
  | userStack => true
  | _ => false

def SelectorIndex.isCode : SelectorIndex → Bool
  | kernelCode => true
  | userCode => true
  | _ => false

/-- What `lgdt` loads. -/
def gdtRegister (gdt : UInt32) : TableRegister := ⟨55, gdt⟩

theorem segmentOf_gdtEntries (memory : Memory) (hindex : index ≠ .null) :
    segmentOf (gdtEntries gdt memory) (gdtRegister gdt) index.selector
      = some ⟨0, 0xFFFFFFFF, index.accessByte, 0xC0⟩ := by
  have hsegment := @segmentAt_gdtEntries gdt index memory hindex
  have hentry : segmentOf (gdtEntries gdt memory) (gdtRegister gdt) index.selector
      = some (segmentAt (gdtEntries gdt memory) (gdtEntry gdt index.toUInt32)) := by
    cases index with
    | null => exact absurd rfl hindex
    | _ => rfl
  rw [hentry, hsegment]

/-- The six bytes of `gdt_ptr` lie beside the table. -/
def PtrApart (gdt gdtPtr : UInt32) : Prop :=
  ∀ offset : UInt32, offset.toNat < 6 → 56 ≤ (gdtPtr + offset - gdt).toNat

/-- The memory after `register_gdt`. -/
def registeredMemory (gdt gdtPtr : UInt32) (memory : Memory) : Memory :=
  gdtEntries gdt (write32 (write16 memory gdtPtr 55) (gdtPtr + 2) gdt)

theorem registeredMemory_outside (memory : Memory) (htable : 56 ≤ (address - gdt).toNat)
    (hptr : 6 ≤ (address - gdtPtr).toNat) :
    registeredMemory gdt gdtPtr memory address = memory address := by
  rw [registeredMemory, gdtEntries_outside _ htable, tablePointer_outside _ _ _ hptr]

/-- `lgdt` reads what was stored: writing the table leaves the pointer alone. -/
theorem tableRegisterAt_registeredMemory (hapart : PtrApart gdt gdtPtr) (memory : Memory) :
    tableRegisterAt (registeredMemory gdt gdtPtr memory) gdtPtr = gdtRegister gdt := by
  rw [registeredMemory, tableRegisterAt_congr fun offset hoffset =>
    gdtEntries_outside _ (hapart offset hoffset), tableRegisterAt_write, gdtRegister]

theorem registerGdt_eq (hapart : PtrApart gdt gdtPtr) (s : SegmentState) :
    registerGdt gdt gdtPtr s = some ⟨registeredMemory gdt gdtPtr s.memory, gdtRegister gdt,
      kernelCodeOffset, kernelDataOffset, kernelDataOffset, kernelDataOffset, kernelDataOffset,
      kernelStackOffset⟩ := by
  set memory := registeredMemory gdt gdtPtr s.memory with hmemory
  have hcode : loadSelector checkCode memory (gdtRegister gdt) kernelCodeOffset
      = some kernelCodeOffset :=
    loadSelector_of_check (@segmentOf_gdtEntries gdt .kernelCode _ SelectorIndex.noConfusion)
      (by decide)
  have hdata : loadSelector checkData memory (gdtRegister gdt) kernelDataOffset
      = some kernelDataOffset :=
    loadSelector_of_check (@segmentOf_gdtEntries gdt .kernelData _ SelectorIndex.noConfusion)
      (by decide)
  have hstack : loadSelector checkStack memory (gdtRegister gdt) kernelStackOffset
      = some kernelStackOffset :=
    loadSelector_of_check (@segmentOf_gdtEntries gdt .kernelStack _ SelectorIndex.noConfusion)
      (by decide)
  have hlimit : (gdtEnd - gdtStart - 1).toUInt16 = 55 := rfl
  rw [registerGdt]
  dsimp only
  rw [hlimit, ← registeredMemory, ← hmemory, tableRegisterAt_registeredMemory hapart]
  change (do
    let cs ← loadSelector checkCode memory (gdtRegister gdt) kernelCodeOffset
    let ds ← loadSelector checkData memory (gdtRegister gdt) kernelDataOffset
    let es ← loadSelector checkData memory (gdtRegister gdt) kernelDataOffset
    let fs ← loadSelector checkData memory (gdtRegister gdt) kernelDataOffset
    let gs ← loadSelector checkData memory (gdtRegister gdt) kernelDataOffset
    let ss ← loadSelector checkStack memory (gdtRegister gdt) kernelStackOffset
    some (SegmentState.mk memory (gdtRegister gdt) cs ds es fs gs ss)) = _
  rw [hcode, hdata, hstack]
  rfl

/-- A 32-bit segment that covers the whole address space, for a ring and a use. -/
structure Segment.Covers (s : Segment) (isUser isCode : Bool) : Prop where
  flat : s.Flat
  big : s.big = true
  readWrite : s.readWrite = true
  privilege : s.privilege = if isUser then 3 else 0
  executable : s.executable = isCode

theorem covers_accessByte (hindex : index ≠ .null) :
    (⟨0, 0xFFFFFFFF, index.accessByte, 0xC0⟩ : Segment).Covers index.isUser index.isCode := by
  cases index with
  | null => exact absurd rfl hindex
  | _ => exact ⟨⟨rfl, rfl, rfl, rfl, rfl⟩, rfl, rfl, rfl, rfl⟩

/-- From whatever the memory and the segment registers hold, and wherever the table and `gdt_ptr` lie
beside each other, `register_gdt` faults at no load; then `gdtr` holds the table and every segment
register a selector of a segment of ring 0 in which each offset is an address, code in `cs` and data
that can be written in the others. All six segments cover the address space, and nothing outside the
table and `gdt_ptr` has changed. -/
theorem registerGdt_flat (hapart : PtrApart gdt gdtPtr) (s : SegmentState) :
    ∃ s', registerGdt gdt gdtPtr s = some s' ∧
      (s'.gdtr = ⟨(gdtEnd - gdtStart - 1).toUInt16, gdt⟩ ∧
        tableRegisterAt s'.memory gdtPtr = s'.gdtr) ∧
      (∃ segment, segmentOf s'.memory s'.gdtr s'.cs = some segment ∧ segment.Covers false true) ∧
      (∀ selector ∈ [s'.ds, s'.es, s'.fs, s'.gs, s'.ss],
        ∃ segment, segmentOf s'.memory s'.gdtr selector = some segment ∧
          segment.Covers false false) ∧
      (∀ index ≠ SelectorIndex.null, ∃ segment,
        segmentOf s'.memory s'.gdtr index.selector = some segment ∧
          segment.Covers index.isUser index.isCode) ∧
      ∀ address : UInt32, (gdtEnd - gdtStart).toNat ≤ (address - gdt).toNat →
        6 ≤ (address - gdtPtr).toNat → s'.memory address = s.memory address := by
  have hcovers : ∀ index ≠ SelectorIndex.null, ∃ segment,
      segmentOf (registeredMemory gdt gdtPtr s.memory) (gdtRegister gdt) index.selector
          = some segment ∧
        segment.Covers index.isUser index.isCode := fun index hindex =>
    ⟨_, segmentOf_gdtEntries _ hindex, covers_accessByte hindex⟩
  refine ⟨_, registerGdt_eq hapart s, ⟨rfl, tableRegisterAt_registeredMemory hapart _⟩,
    hcovers .kernelCode SelectorIndex.noConfusion, ?_, hcovers,
    fun address htable hptr => registeredMemory_outside s.memory htable hptr⟩
  intro selector hselector
  simp only [List.mem_cons, List.not_mem_nil, or_false] at hselector
  rcases hselector with rfl | rfl | rfl | rfl | rfl
  · exact hcovers .kernelData SelectorIndex.noConfusion
  · exact hcovers .kernelData SelectorIndex.noConfusion
  · exact hcovers .kernelData SelectorIndex.noConfusion
  · exact hcovers .kernelData SelectorIndex.noConfusion
  · exact hcovers .kernelStack SelectorIndex.noConfusion

/-- `gdt_ptr` in `.bss`, far above the table. -/
theorem registerGdt_flat_start :
    let s : SegmentState := ⟨fun _ => 0, ⟨0, 0⟩, 0x10, 0x18, 0x18, 0x18, 0x18, 0x18⟩
    ∃ s', registerGdt gdtStart 0x110806 s = some s' ∧ s'.gdtr = ⟨55, 0x800⟩ ∧
      ∃ segment, segmentOf s'.memory s'.gdtr s'.cs = some segment ∧ segment.Covers false true := by
  have hapart : PtrApart gdtStart 0x110806 := by
    intro offset hoffset
    rw [UInt32.toNat_sub, UInt32.toNat_add]
    change 56 ≤ (4294967296 - 0x800 + (0x110806 + _) % 4294967296) % 4294967296
    omega
  obtain ⟨s', hregistered, ⟨hgdtr, -⟩, hcode, -⟩ := registerGdt_flat hapart
    ⟨fun _ => 0, ⟨0, 0⟩, 0x10, 0x18, 0x18, 0x18, 0x18, 0x18⟩
  exact ⟨s', hregistered, hgdtr, hcode⟩

end KernelFromScratch
