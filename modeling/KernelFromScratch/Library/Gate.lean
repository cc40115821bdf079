import KernelFromScratch.Library.Descriptor

/-!
# Interrupt gates

What an i386 in protected mode reads in the eight bytes of a gate, and where it goes on when a vector
arrives in ring 0. Task gates, trap gates and gates of 16 bits are left out: they count as a fault.
-/

namespace KernelFromScratch

/-- What the processor reads in a gate. -/
structure Gate where
  offset : UInt32
  selector : UInt16
  access : UInt8
  deriving DecidableEq

namespace Gate

def present (gate : Gate) : Bool := gate.access &&& 0x80 ≠ 0

/-- An interrupt gate of 32 bits. -/
def isInterrupt (gate : Gate) : Bool := gate.access &&& 0x1F = 0x0E

end Gate

/-- The gate in the eight bytes at an address. -/
def gateAt (memory : Memory) (address : UInt32) : Gate where
  offset := wordOf (memory (address + 0)) (memory (address + 1)) (memory (address + 6))
    (memory (address + 7))
  selector := read16 memory (address + 2)
  access := memory (address + 5)

/-- The gate of a vector: none past the end of the table. -/
def gateOf (memory : Memory) (idtr : TableRegister) (vector : UInt8) : Option Gate :=
  if 8 * vector.toNat + 7 ≤ idtr.limit.toNat then
    some (gateAt memory (idtr.base + 8 * vector.toUInt32))
  else none

/-- The address at which the processor goes on: none when it faults instead. -/
def vectorTarget (memory : Memory) (idtr gdtr : TableRegister) (vector : UInt8) : Option UInt32 :=
  (gateOf memory idtr vector).bind fun gate =>
    if gate.present && gate.isInterrupt then
      (segmentOf memory gdtr gate.selector).bind fun segment =>
        if checkCode (gate.selector &&& 0xFFFC) segment then segment.translate gate.offset 1
        else none
    else none

variable {memory : Memory} {idtr gdtr : TableRegister} {vector : UInt8} {gate : Gate}

theorem vectorTarget_of_absent (hgate : gateOf memory idtr vector = some gate)
    (habsent : gate.present = false) : vectorTarget memory idtr gdtr vector = none := by
  rw [vectorTarget, hgate, Option.bind_some, habsent]
  rfl

theorem vectorTarget_of_flat {segment : Segment} (hgate : gateOf memory idtr vector = some gate)
    (hpresent : gate.present = true) (hinterrupt : gate.isInterrupt = true)
    (hsegment : segmentOf memory gdtr gate.selector = some segment) (hflat : segment.Flat)
    (hcheck : checkCode (gate.selector &&& 0xFFFC) segment = true) :
    vectorTarget memory idtr gdtr vector = some gate.offset := by
  rw [vectorTarget, hgate, Option.bind_some, hpresent, hinterrupt, Bool.and_self, if_pos rfl,
    hsegment, Option.bind_some, if_pos hcheck]
  exact hflat.translate gate.offset.toNat_lt

end KernelFromScratch
