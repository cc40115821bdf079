import KernelFromScratch.Library.While
import KernelFromScratch.Request

/-!
# The memory report

`print_multiboot_info` of `multiboot.c`. The memory map is walked with a byte pointer; the members of
an entry lie at the offsets the i386 layout gives them. Every read through the pointer is logged.
-/

namespace KernelFromScratch

def multibootInfoMemory : UInt32 := 0x00000001

def multibootInfoMemMap : UInt32 := 0x00000040

structure MultibootInfo where
  flags : UInt32
  memLower : UInt32
  memUpper : UInt32
  mmapLength : UInt32
  mmapAddr : UInt32

def multibootMemMapAvailable : UInt32 := 1

def multibootMemMapReserved : UInt32 := 2

def multibootMemMapAcpiReclaimable : UInt32 := 3

def multibootMemMapNvs : UInt32 := 4

def multibootMemMapBadram : UInt32 := 5

/-- The `switch` over `entry->type`. -/
def memMapType (type : UInt32) : CString :=
  if type = multibootMemMapAvailable then
    ⟨str "Available", by decide, by decide⟩
  else if type = multibootMemMapReserved then
    ⟨str "Reserved", by decide, by decide⟩
  else if type = multibootMemMapAcpiReclaimable then
    ⟨str "ACPI Reclaimable", by decide, by decide⟩
  else if type = multibootMemMapNvs then
    ⟨str "NVS", by decide, by decide⟩
  else if type = multibootMemMapBadram then
    ⟨str "Bad RAM", by decide, by decide⟩
  else
    ⟨str "Unknown", by decide, by decide⟩

def printEntry (type : CString) (base length : UInt64) : Request :=
  ⟨str "%s memory: 0x%llx - 0x%llx (%d bytes)\n",
    [.string type, .longLong base, .longLong (base + length), .longLong length]⟩

/-- A read of `width` bytes through a pointer. -/
structure MemberRead where
  address : UInt32
  width : Nat
  deriving DecidableEq

structure MapWalk where
  current : UInt32
  requests : List Request
  /-- Not in the source: the reads made, the first one first. -/
  reads : List MemberRead

namespace MapWalk

def load32 (memory : Memory) (address : UInt32) (walk : MapWalk) : UInt32 × MapWalk :=
  (read32 memory address, { walk with reads := walk.reads ++ [⟨address, 4⟩] })

def load64 (memory : Memory) (address : UInt32) (walk : MapWalk) : UInt64 × MapWalk :=
  (read64 memory address, { walk with reads := walk.reads ++ [⟨address, 8⟩] })

def print (request : Request) (walk : MapWalk) : MapWalk :=
  { walk with requests := walk.requests ++ [request] }

end MapWalk

/-- `current < end`. -/
def beforeEnd (stop : UInt32) (walk : MapWalk) : Bool := walk.current < stop

/-- The body of the loop over the entries. -/
def walkEntry (memory : Memory) (walk : MapWalk) : MapWalk :=
  let entry := walk.current
  let type := walk.load32 memory (entry + 20)
  let base := type.2.load64 memory (entry + 4)
  let length := base.2.load64 memory (entry + 12)
  let printed := length.2.print (printEntry (memMapType type.1) base.1 length.1)
  let size := printed.load32 memory entry
  { size.2 with current := entry + (size.1 + 4) }

def walkMap (memory : Memory) (mbi : MultibootInfo) (fuel : Nat) (requests : List Request) :
    Option MapWalk :=
  whileLoop (beforeEnd (mbi.mmapAddr + mbi.mmapLength)) (walkEntry memory) fuel
    ⟨mbi.mmapAddr, requests, []⟩

def memoryRequests (mbi : MultibootInfo) : List Request :=
  [⟨str "Lower memory: %d KiB (%d bytes)\n", [.int mbi.memLower, .int (mbi.memLower * 1024)]⟩,
    ⟨str "Upper memory: %d KiB (%d bytes)\n", [.int mbi.memUpper, .int (mbi.memUpper * 1024)]⟩]

def mapHeader : Request := ⟨str "Memory map entries:\n", []⟩

/-- The calls of `printk` that `print_multiboot_info` makes, if its loop ends within `fuel` turns. -/
def printMultibootInfo (memory : Memory) (mbi : MultibootInfo) (fuel : Nat) :
    Option (List Request) :=
  let requests := if mbi.flags &&& multibootInfoMemory ≠ 0 then memoryRequests mbi else []
  if mbi.flags &&& multibootInfoMemMap ≠ 0 then
    (walkMap memory mbi fuel (requests ++ [mapHeader])).map MapWalk.requests
  else
    some requests

end KernelFromScratch
