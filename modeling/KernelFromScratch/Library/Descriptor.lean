import KernelFromScratch.Library.Memory

/-!
# Segment descriptors

What an i386 in protected mode reads in the eight bytes of a segment descriptor, what it checks when a
segment register is loaded in ring 0, and what a segment lets through. Local descriptor tables and
system descriptors are left out: a selector for them faults.
-/

namespace KernelFromScratch

/-- What the processor keeps of a descriptor. -/
structure Segment where
  base : UInt32
  /-- The last offset inside, in bytes. -/
  limit : UInt32
  access : UInt8
  /-- The high nibble beside the limit. -/
  flags : UInt8
  deriving DecidableEq

namespace Segment

def present (s : Segment) : Bool := s.access &&& 0x80 ≠ 0

def privilege (s : Segment) : UInt8 := (s.access >>> 5) &&& 0x03

/-- Code or data, and not a system descriptor. -/
def codeOrData (s : Segment) : Bool := s.access &&& 0x10 ≠ 0

def executable (s : Segment) : Bool := s.access &&& 0x08 ≠ 0

/-- Conforming for code, expand-down for data. -/
def direction (s : Segment) : Bool := s.access &&& 0x04 ≠ 0

/-- Readable for code, writable for data. -/
def readWrite (s : Segment) : Bool := s.access &&& 0x02 ≠ 0

/-- Offsets and operands of 32 bits. -/
def big (s : Segment) : Bool := s.flags &&& 0x40 ≠ 0

/-- Where the `size` bytes at an offset are, if they lie inside; for segments that expand up. -/
def translate (s : Segment) (offset : UInt32) (size : Nat) : Option UInt32 :=
  if offset.toNat + size ≤ s.limit.toNat + 1 then some (s.base + offset) else none

/-- Offsets are addresses, and every byte is inside. -/
structure Flat (s : Segment) : Prop where
  base : s.base = 0
  limit : s.limit = 0xFFFFFFFF
  present : s.present = true
  codeOrData : s.codeOrData = true
  up : s.direction = false

theorem Flat.translate {s : Segment} (hflat : s.Flat) {offset : UInt32} {size : Nat}
    (hfits : offset.toNat + size ≤ 2 ^ 32) : s.translate offset size = some offset := by
  have hlimit : (0xFFFFFFFF : UInt32).toNat + 1 = 2 ^ 32 := rfl
  rw [Segment.translate, hflat.limit, hlimit, if_pos hfits, hflat.base, UInt32.zero_add]

end Segment

/-- The low twenty bits of the limit, in bytes or in pages. -/
def segmentLimit (low : UInt32) (granularity : UInt8) : UInt32 :=
  if granularity &&& 0x80 ≠ 0 then low <<< 12 ||| 0xFFF else low

/-- The descriptor in the eight bytes at an address. -/
def segmentAt (memory : Memory) (address : UInt32) : Segment where
  base := wordOf (memory (address + 2)) (memory (address + 3)) (memory (address + 4))
    (memory (address + 7))
  limit := segmentLimit (wordOf (memory (address + 0)) (memory (address + 1))
    (memory (address + 6) &&& 0x0F) 0) (memory (address + 6))
  access := memory (address + 5)
  flags := memory (address + 6) &&& 0xF0

theorem segmentAt_congr {memory memory' : Memory} {address : UInt32}
    (hbytes : ∀ offset : UInt32, offset.toNat < 8 →
      memory' (address + offset) = memory (address + offset)) :
    segmentAt memory' address = segmentAt memory address := by
  rw [segmentAt, segmentAt, hbytes 0 (by decide), hbytes 1 (by decide), hbytes 2 (by decide),
    hbytes 3 (by decide), hbytes 4 (by decide), hbytes 5 (by decide), hbytes 6 (by decide),
    hbytes 7 (by decide)]

/-- The register that `lgdt` or `lidt` loads. -/
structure TableRegister where
  limit : UInt16
  base : UInt32
  deriving DecidableEq

/-- What they load from the six bytes at an address. -/
def tableRegisterAt (memory : Memory) (pointer : UInt32) : TableRegister :=
  ⟨read16 memory pointer, read32 memory (pointer + 2)⟩

theorem tableRegisterAt_congr {memory memory' : Memory} {pointer : UInt32}
    (hbytes : ∀ offset : UInt32, offset.toNat < 6 →
      memory' (pointer + offset) = memory (pointer + offset)) :
    tableRegisterAt memory' pointer = tableRegisterAt memory pointer := by
  have hlow := hbytes 0 (by decide)
  rw [UInt32.add_zero] at hlow
  have hbase : read32 memory' (pointer + 2) = read32 memory (pointer + 2) := by
    apply read32_congr
    intro k hk
    have hoffset : ((2 : UInt32) + .ofNat k).toNat = 2 + k := address_add_toNat (by
      change 2 + k < _
      omega)
    rw [UInt32.add_assoc]
    exact hbytes _ (by omega)
  rw [tableRegisterAt, tableRegisterAt, hbase, read16, read16, hlow, hbytes 1 (by decide)]

/-- The bytes beside the six ones stay. -/
theorem tablePointer_outside (memory : Memory) {pointer address : UInt32} (limit : UInt16)
    (base : UInt32) (houtside : 6 ≤ (address - pointer).toNat) :
    write32 (write16 memory pointer limit) (pointer + 2) base address = memory address := by
  have hne : ∀ offset : UInt32, offset.toNat < 6 → address - pointer ≠ offset := by
    intro offset hoffset heq
    rw [heq] at houtside
    omega
  have hbeyond : (address - (pointer + 2)).toNat = (address - pointer).toNat - 2 :=
    @sub_offset_of_le pointer address 2 (by omega)
  have hfirst : write16 memory pointer limit = write16 memory (pointer + 0) limit := by
    rw [UInt32.add_zero]
  rw [write32, if_neg (by omega), hfirst, write16_apply, if_neg (hne _ (by decide)),
    if_neg (hne 0 (by decide))]

theorem tableRegisterAt_write (memory : Memory) (pointer : UInt32) (limit : UInt16)
    (base : UInt32) :
    tableRegisterAt (write32 (write16 memory pointer limit) (pointer + 2) base) pointer
      = ⟨limit, base⟩ := by
  have hlow : ∀ (memory : Memory) (offset : UInt32), offset.toNat < 2 →
      write32 memory (pointer + 2) base (pointer + offset) = memory (pointer + offset) := by
    intro memory offset hoffset
    have hpointer := pointer.toNat_lt
    rw [write32, if_neg]
    rw [UInt32.toNat_sub, UInt32.toNat_add, UInt32.toNat_add]
    change ¬(4294967296 - (_ + 2) % 4294967296 + (_ + _) % 4294967296) % 4294967296 < 4
    omega
  have hlimit : read16 (write32 (write16 memory pointer limit) (pointer + 2) base) pointer
      = limit := by
    have hfirst := hlow (write16 memory pointer limit) 0 (by decide)
    have hsecond := hlow (write16 memory pointer limit) 1 (by decide)
    have hne : pointer ≠ pointer + 1 := by
      intro heq
      exact absurd (add_sub_self pointer 1) (by rw [← heq, UInt32.sub_self]; decide)
    rw [UInt32.add_zero] at hfirst
    rw [read16, hfirst, hsecond, write16, write8, write8, Function.update_self,
      Function.update_of_ne hne, Function.update_self, read16_bytes]
  rw [tableRegisterAt, hlimit, read32_write32]

/-- The descriptor that a selector designates: none for the null selector, for a local table and past
the end of the table. -/
def segmentOf (memory : Memory) (table : TableRegister) (selector : UInt16) : Option Segment :=
  let offset := selector &&& 0xFFF8
  if offset = 0 ∨ selector &&& 0x04 ≠ 0 then none
  else if offset.toNat + 7 ≤ table.limit.toNat then
    some (segmentAt memory (table.base + offset.toUInt32))
  else none

/-- A far jump in ring 0 to a segment that is not conforming. -/
def checkCode (selector : UInt16) (s : Segment) : Bool :=
  s.codeOrData && s.executable && !s.direction && s.privilege = 0 && selector &&& 0x03 = 0
    && s.present

/-- `mov` to `ds`, `es`, `fs` or `gs` in ring 0. -/
def checkData (selector : UInt16) (s : Segment) : Bool :=
  s.codeOrData && (!s.executable || s.readWrite)
    && (s.executable && s.direction || selector &&& 0x03 ≤ s.privilege.toUInt16) && s.present

/-- `mov` to `ss` in ring 0. -/
def checkStack (selector : UInt16) (s : Segment) : Bool :=
  s.codeOrData && !s.executable && s.readWrite && s.privilege = 0 && selector &&& 0x03 = 0
    && s.present

/-- The selector in the register after the load, or a fault. -/
def loadSelector (check : UInt16 → Segment → Bool) (memory : Memory) (table : TableRegister)
    (selector : UInt16) : Option UInt16 :=
  (segmentOf memory table selector).bind fun s => if check selector s then some selector else none

theorem loadSelector_of_check {check : UInt16 → Segment → Bool} {memory : Memory}
    {table : TableRegister} {selector : UInt16} {s : Segment}
    (hsegment : segmentOf memory table selector = some s) (hcheck : check selector s = true) :
    loadSelector check memory table selector = some selector := by
  rw [loadSelector, hsegment, Option.bind_some, if_pos hcheck]

end KernelFromScratch
