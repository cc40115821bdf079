import KernelFromScratch.Interrupt
import KernelFromScratch.Library.Fill

/-!
# The entry of the kernel

`kernel_entry` of `boot/entry.asm`, with the sections that the linker script lays out. The flags that
`sub` and `xor` compute are left out: nothing reads them.
-/

namespace KernelFromScratch

section Source

/-- The symbols of `linker.ld` around `.bss` and `.stack`. -/
structure Sections where
  bssStart : UInt32
  bssEnd : UInt32
  stackBottom : UInt32
  stackTop : UInt32
  bssStart_le : bssStart.toNat ≤ bssEnd.toNat
  /-- `. = ALIGN(16)`. -/
  stackBottom_eq : stackBottom.toNat = (bssEnd.toNat + 15) / 16 * 16
  stackTop_eq : stackTop.toNat = stackBottom.toNat + 0x4000

/-- `IF`. -/
def interruptFlag : UInt32 := 0x200

/-- `DF`. -/
def directionFlag : UInt32 := 0x400

namespace Cpu

def cli (cpu : Cpu) : Cpu := { cpu with eflags := cpu.eflags &&& ~~~interruptFlag }

def cld (cpu : Cpu) : Cpu := { cpu with eflags := cpu.eflags &&& ~~~directionFlag }

/-- One turn of `rep stosb`. -/
def stosb (cpu : Cpu) : Cpu :=
  { cpu with
    memory := Function.update cpu.memory cpu.edi cpu.eax.toUInt8
    edi := if cpu.eflags &&& directionFlag = 0 then cpu.edi + 1 else cpu.edi - 1
    ecx := cpu.ecx - 1 }

/-- `rep` makes as many turns as `ecx` says. -/
def repStosb (cpu : Cpu) : Cpu := stosb^[cpu.ecx.toNat] cpu

def call (target returnAddress : UInt32) (cpu : Cpu) : Cpu :=
  { cpu.push returnAddress with eip := target }

end Cpu

/-- The instructions of `kernel_entry`, for the address of `kernel_main` and the one after the
`call`. -/
def kernelEntry (sections : Sections) (kernelMain returnAddress : UInt32) (cpu : Cpu) : Cpu :=
  let cpu := cpu.cli
  let cpu := { cpu with esp := sections.stackTop }
  let cpu := { cpu with edi := sections.bssStart }
  let cpu := { cpu with ecx := sections.bssEnd }
  let cpu := { cpu with ecx := cpu.ecx - cpu.edi }
  let cpu := { cpu with eax := cpu.eax ^^^ cpu.eax }
  let cpu := cpu.cld
  let cpu := cpu.repStosb
  let cpu := { cpu with esp := cpu.esp - 12 }
  let cpu := cpu.push cpu.ebx
  cpu.call kernelMain returnAddress

end Source

/-! ### The string instruction -/

namespace Cpu

variable {cpu : Cpu} {n : Nat}

/-- With the direction flag clear the bytes go up from `edi`. -/
theorem iterate_stosb (hdirection : cpu.eflags &&& directionFlag = 0) (hn : n < 2 ^ 32) :
    stosb^[n] cpu = { cpu with
      memory := fill cpu.memory cpu.edi n cpu.eax.toUInt8
      edi := cpu.edi + .ofNat n
      ecx := cpu.ecx - .ofNat n } := by
  induction n with
  | zero =>
      rw [Function.iterate_zero_apply, fill_zero]
      change cpu = { cpu with edi := cpu.edi + 0, ecx := cpu.ecx - 0 }
      rw [UInt32.add_zero, UInt32.sub_zero]
  | succ n ih =>
      have hedi : cpu.edi + .ofNat n + 1 = cpu.edi + .ofNat (n + 1) := by
        rw [UInt32.ofNat_add, UInt32.add_assoc]
        rfl
      have hecx : cpu.ecx - .ofNat n - 1 = cpu.ecx - .ofNat (n + 1) := by
        rw [UInt32.ofNat_add, UInt32.sub_eq_add_neg _ (.ofNat n + .ofNat 1), UInt32.neg_add,
          UInt32.sub_eq_add_neg (-.ofNat n), ← UInt32.add_assoc, ← UInt32.sub_eq_add_neg,
          ← UInt32.sub_eq_add_neg]
        rfl
      rw [Function.iterate_succ_apply', ih (by omega), stosb]
      simp only [if_pos hdirection, hedi, hecx]
      rw [update_fill (by omega)]

theorem repStosb_eq (hdirection : cpu.eflags &&& directionFlag = 0) :
    repStosb cpu = { cpu with
      memory := fill cpu.memory cpu.edi cpu.ecx.toNat cpu.eax.toUInt8
      edi := cpu.edi + cpu.ecx
      ecx := 0 } := by
  rw [repStosb, iterate_stosb hdirection cpu.ecx.toNat_lt, UInt32.ofNat_toNat, UInt32.sub_self]

end Cpu

/-! ### The state in which `kernel_main` is called -/

section Entry

variable (sections : Sections) (kernelMain returnAddress : UInt32) (cpu : Cpu)

theorem Sections.bssSize : (sections.bssEnd - sections.bssStart).toNat
    = sections.bssEnd.toNat - sections.bssStart.toNat := by
  have hle := sections.bssStart_le
  have hlt := sections.bssEnd.toNat_lt
  rw [UInt32.toNat_sub]
  omega

/-- What `kernel_main` can rely on, for the state `cpu` that the boot loader left. -/
structure Booted (entered : Cpu) : Prop where
  eip : entered.eip = kernelMain
  /-- The statics that have no initializer are zero. -/
  bss : ∀ address : UInt32, sections.bssStart.toNat ≤ address.toNat →
    address.toNat < sections.bssEnd.toNat → entered.memory address = 0
  /-- Outside `.bss` and the top of the stack nothing is written. -/
  outside : ∀ address : UInt32,
    address.toNat < sections.bssStart.toNat ∨ sections.bssEnd.toNat ≤ address.toNat →
    address.toNat < sections.stackTop.toNat - 20 ∨ sections.stackTop.toNat - 12 ≤ address.toNat →
    entered.memory address = cpu.memory address
  /-- The return address, and above it the argument, aligned as the calling convention asks. -/
  frame : HoldsWords entered.memory entered.esp [returnAddress, cpu.ebx]
  aligned : (entered.esp.toNat + 4) % 16 = 0
  stack : sections.stackBottom.toNat ≤ entered.esp.toNat ∧
    entered.esp.toNat + 20 = sections.stackTop.toNat
  interrupts : entered.eflags &&& interruptFlag = 0
  direction : entered.eflags &&& directionFlag = 0

theorem cleared_flags (eflags : UInt32) :
    (eflags &&& ~~~interruptFlag &&& ~~~directionFlag) &&& interruptFlag = 0 ∧
      (eflags &&& ~~~interruptFlag &&& ~~~directionFlag) &&& directionFlag = 0 := by
  have hinterrupt : ~~~interruptFlag &&& (~~~directionFlag &&& interruptFlag) = 0 := rfl
  have hdirection : ~~~directionFlag &&& directionFlag = 0 := rfl
  constructor
  · rw [UInt32.and_assoc, UInt32.and_assoc, hinterrupt, UInt32.and_zero]
  · rw [UInt32.and_assoc, hdirection, UInt32.and_zero]

theorem kernelEntry_eq : kernelEntry sections kernelMain returnAddress cpu
    = { cpu with
        eax := 0
        ecx := 0
        edi := sections.bssStart + (sections.bssEnd - sections.bssStart)
        esp := sections.stackTop - 12 - 4 - 4
        eip := kernelMain
        eflags := cpu.eflags &&& ~~~interruptFlag &&& ~~~directionFlag
        memory := write32
          (write32
            (fill cpu.memory sections.bssStart
              (sections.bssEnd.toNat - sections.bssStart.toNat) 0)
            (sections.stackTop - 12 - 4) cpu.ebx)
          (sections.stackTop - 12 - 4 - 4) returnAddress } := by
  rw [kernelEntry]
  dsimp only
  rw [Cpu.repStosb_eq (cleared_flags cpu.eflags).2]
  dsimp only [Cpu.cld, Cpu.cli]
  rw [sections.bssSize, UInt32.xor_self]
  rfl

/-- From every state of the registers and the memory. -/
theorem kernelEntry_booted : Booted sections kernelMain returnAddress cpu
    (kernelEntry sections kernelMain returnAddress cpu) := by
  have hle := sections.bssStart_le
  have hbottom := sections.stackBottom_eq
  have hstack := sections.stackTop_eq
  have htop := sections.stackTop.toNat_lt
  have hframe : (sections.stackTop - 12 - 4).toNat = sections.stackTop.toNat - 16 := by
    rw [UInt32.toNat_sub, UInt32.toNat_sub]
    change (4294967296 - 4 + (4294967296 - 12 + _) % 4294967296) % 4294967296 = _
    omega
  have hesp : (sections.stackTop - 12 - 4 - 4).toNat = sections.stackTop.toNat - 20 := by
    rw [UInt32.toNat_sub, hframe]
    change (4294967296 - 4 + _) % 4294967296 = _
    omega
  have hbss : sections.bssStart.toNat + (sections.bssEnd.toNat - sections.bssStart.toNat)
      = sections.bssEnd.toNat := by
    omega
  obtain ⟨hinterrupts, hdirection⟩ := cleared_flags cpu.eflags
  have hkeeps : ∀ {memory : Memory} {address : UInt32},
      address.toNat < sections.stackTop.toNat - 20 ∨
        sections.stackTop.toNat - 12 ≤ address.toNat →
      write32 (write32 memory (sections.stackTop - 12 - 4) cpu.ebx)
        (sections.stackTop - 12 - 4 - 4) returnAddress address = memory address := by
    intro memory address hapart
    rw [write32_apart (by omega) (by omega), write32_apart (by omega) (by omega)]
  rw [kernelEntry_eq]
  constructor
  case eip => rfl
  case bss =>
    intro address hstart hend
    have hzeroed : fill cpu.memory sections.bssStart
        (sections.bssEnd.toNat - sections.bssStart.toNat) 0 address = 0 :=
      fill_inside (by omega) hstart (by omega)
    exact (hkeeps (by omega)).trans hzeroed
  case outside =>
    intro address hout hapart
    exact (hkeeps hapart).trans (fill_outside (by omega) (by omega))
  case frame =>
    have hempty : HoldsWords (fill cpu.memory sections.bssStart
        (sections.bssEnd.toNat - sections.bssStart.toNat) 0) (sections.stackTop - 12) [] := trivial
    have hargument := hempty.push (Nat.le_of_ble_eq_true rfl) cpu.ebx
    exact hargument.push (Nat.le_of_ble_eq_true rfl) returnAddress
  case aligned =>
    rw [hesp]
    omega
  case stack =>
    rw [hesp]
    omega
  case interrupts => exact hinterrupts
  case direction => exact hdirection

end Entry

/-- 32 KiB of statics. -/
def sampleSections : Sections where
  bssStart := 0x110000
  bssEnd := 0x118000
  stackBottom := 0x118000
  stackTop := 0x11C000
  bssStart_le := by decide
  stackBottom_eq := rfl
  stackTop_eq := rfl

end KernelFromScratch
