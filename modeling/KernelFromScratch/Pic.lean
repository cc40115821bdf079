import KernelFromScratch.Interrupt
import KernelFromScratch.Library.Pic8259

/-!
# Programming the controllers

`pic.c`, and the acknowledgements at the end of `interrupt_dispatch`, as writes to ports.
-/

namespace KernelFromScratch

section Ports

def picMasterCommand : UInt16 := 0x20

def picMasterData : UInt16 := 0x21

def picSlaveCommand : UInt16 := 0xA0

def picSlaveData : UInt16 := 0xA1

/-- `outb`, for the two controllers. -/
def PicPair.outb (pair : PicPair) (port : UInt16) (value : UInt8) : PicPair :=
  if port = picMasterCommand then
    { pair with master := pair.master.writeCommand value }
  else if port = picMasterData then
    { pair with master := pair.master.writeData value }
  else if port = picSlaveCommand then
    { pair with slave := pair.slave.writeCommand value }
  else if port = picSlaveData then
    { pair with slave := pair.slave.writeData value }
  else
    pair

/-- Writes one after the other. -/
def PicPair.outbs (pair : PicPair) (writes : List (UInt16 × UInt8)) : PicPair :=
  writes.foldl (fun pair write => pair.outb write.1 write.2) pair

end Ports

section Remap

def icw1BitIcw4 : UInt8 := .ofNat (1 <<< 0)

def icw1BitInitialization : UInt8 := .ofNat (1 <<< 4)

def icw2MasterVectorOffset : UInt8 := picOffset.toUInt8

def icw2SlaveVectorOffset : UInt8 := picOffset.toUInt8 + 8

def icw3SlaveConnectedToIrq2 : UInt8 := .ofNat (1 <<< 2)

def icw3SlaveConnectedToMasterIrq2 : UInt8 := .ofNat (1 <<< 2)

def icw4Bit8086Mode : UInt8 := .ofNat (1 <<< 0)

/-- `IMR_BIT_DISABLE_IRQ0` to `IMR_BIT_DISABLE_IRQ7`. -/
def imrBitDisableIrq (irq : Nat) : UInt8 := .ofNat (1 <<< irq)

/-- The keyboard is on IRQ1, the mouse on IRQ12. -/
def keyboardIrq : Fin 16 := 1

def mouseIrq : Fin 16 := 12

def ioWait : UInt16 × UInt8 := (0x80, 0)

def remapWrites : List (UInt16 × UInt8) :=
  [(picMasterCommand, icw1BitIcw4 ||| icw1BitInitialization), ioWait,
    (picSlaveCommand, icw1BitIcw4 ||| icw1BitInitialization), ioWait,
    (picMasterData, icw2MasterVectorOffset), ioWait,
    (picSlaveData, icw2SlaveVectorOffset), ioWait,
    (picMasterData, icw3SlaveConnectedToIrq2), ioWait,
    (picSlaveData, icw3SlaveConnectedToMasterIrq2), ioWait,
    (picMasterData, icw4Bit8086Mode), ioWait,
    (picSlaveData, icw4Bit8086Mode), ioWait,
    (picMasterData,
      imrBitDisableIrq 0 ||| imrBitDisableIrq 3 ||| imrBitDisableIrq 4 ||| imrBitDisableIrq 5
        ||| imrBitDisableIrq 6 ||| imrBitDisableIrq 7),
    (picSlaveData,
      imrBitDisableIrq 0 ||| imrBitDisableIrq 1 ||| imrBitDisableIrq 2 ||| imrBitDisableIrq 3
        ||| imrBitDisableIrq 5 ||| imrBitDisableIrq 6 ||| imrBitDisableIrq 7)]

def remapPic (pair : PicPair) : PicPair := pair.outbs remapWrites

end Remap

section Dispatch

def picEoi : UInt8 := 0x20

/-- What `interrupt_dispatch` writes after the handler. -/
def acknowledgeWrites (vector : UInt32) : List (UInt16 × UInt8) :=
  if vector < picOffset ∨ picOffset + .ofNat picIrqCount ≤ vector then
    []
  else
    (if icw2SlaveVectorOffset.toUInt32 ≤ vector then [(picSlaveCommand, picEoi)] else [])
      ++ [(picMasterCommand, picEoi)]

end Dispatch

/-- The controllers as `remap_pic` leaves them, but for the identity of the slave and the requests
since then. -/
def remapped (identity : UInt8) (masterRequests slaveRequests : Lines) : PicPair where
  master :=
    { phase := .mask
      single := false
      expectsIcw4 := true
      offset := 0x20
      cascade := 0x04
      mode := 0x01
      masked := .ofByte 0xf9
      requests := masterRequests
      inService := .empty }
  slave :=
    { phase := .mask
      single := false
      expectsIcw4 := true
      offset := 0x28
      cascade := identity
      mode := 0x01
      masked := .ofByte 0xef
      requests := slaveRequests
      inService := .empty }

/-- Whatever their state was, the controllers are remapped, and the slave has identity 4. -/
theorem remapPic_eq (pair : PicPair) : remapPic pair = remapped 4 .empty .empty := by
  rfl

end KernelFromScratch
