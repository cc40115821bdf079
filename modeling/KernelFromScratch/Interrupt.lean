import KernelFromScratch.Library.Loop
import KernelFromScratch.Library.Memory
import Mathlib.Logic.Function.Iterate

/-!
# Interrupt stubs

`idt.c`, `interrupt_init`, `exception_stub.asm` and `irq_stub.asm`, and what the CPU does around
them: it pushes its part of the frame, a stub runs instruction by instruction, and `iretd` goes back
to the interrupted code.
-/

namespace KernelFromScratch

section Code

def picOffset : UInt32 := 0x20

/-- The labels of the stubs. -/
inductive Label where
  | exceptionStub (vector : Nat)
  | irqStub (irq : Nat)
  | interruptCommonStub
  deriving DecidableEq

inductive Instruction where
  | push (value : UInt32)
  | pushEsp
  | pusha
  | popa
  | addEsp (value : UInt32)
  | jmp (label : Label)
  | callInterruptDispatch
  | iretd
  deriving DecidableEq

open Instruction

/-- `IRQ_STUB`. -/
def irqStub (irq : Nat) : List Instruction :=
  [push 0, push (picOffset + .ofNat irq), jmp .interruptCommonStub]

/-- `EXCEPTION_STUB`. -/
def exceptionStub (vector : Nat) : List Instruction :=
  [push 0, push (.ofNat vector), jmp .interruptCommonStub]

/-- `EXCEPTION_STUB_ERROR_CODE`. -/
def exceptionStubErrorCode (vector : Nat) : List Instruction :=
  [push (.ofNat vector), jmp .interruptCommonStub]

def exceptionStubs : List (List Instruction) :=
  [exceptionStub 0, exceptionStub 1, exceptionStub 2, exceptionStub 3, exceptionStub 4,
    exceptionStub 5, exceptionStub 6, exceptionStub 7, exceptionStubErrorCode 8, exceptionStub 9,
    exceptionStubErrorCode 10, exceptionStubErrorCode 11, exceptionStubErrorCode 12,
    exceptionStubErrorCode 13, exceptionStubErrorCode 14, exceptionStub 15, exceptionStub 16,
    exceptionStubErrorCode 17, exceptionStub 18, exceptionStub 19]

def irqStubs : List (List Instruction) :=
  [irqStub 0, irqStub 1, irqStub 2, irqStub 3, irqStub 4, irqStub 5, irqStub 6, irqStub 7,
    irqStub 8, irqStub 9, irqStub 10, irqStub 11, irqStub 12, irqStub 13, irqStub 14, irqStub 15]

def interruptCommonStub : List Instruction :=
  [pusha, pushEsp, callInterruptDispatch, addEsp 4, popa, addEsp 8, iretd]

/-- The instructions from a label on. -/
def code : Label → List Instruction
  | .exceptionStub vector => exceptionStubs.getD vector []
  | .irqStub irq => irqStubs.getD irq []
  | .interruptCommonStub => interruptCommonStub

end Code

section Descriptors

/-- `idt_t`. -/
structure IdtEntry where
  baseLow : UInt16
  selector : UInt16
  zero : UInt8
  flags : UInt8
  baseHigh : UInt16

abbrev Idt := UInt8 → IdtEntry

def exceptionCount : Nat := 20

def picIrqCount : Nat := 16

def kernelCodeOffset : UInt16 := 0x08

/-- `INTERRUPT_FLAG_PRESENT | INTERRUPT_FLAG_DPL0 | INTERUPT_FLAG_32BIT_INTERRUPT_GATE`. -/
def interruptGateFlags : UInt8 := .ofNat ((1 <<< 7) ||| (0 <<< 5) ||| 0b1110)

def setInterruptDescriptor (idt : Idt) (index : UInt8) (handler : UInt32) : Idt :=
  Function.update idt index
    { baseLow := (handler &&& 0xFFFF).toUInt16
      selector := kernelCodeOffset
      zero := 0
      flags := interruptGateFlags
      baseHigh := ((handler >>> 16) &&& 0xFFFF).toUInt16 }

/-- Where the linker puts the stubs, and the address that `call interrupt_dispatch` pushes. -/
structure Link where
  address : Label → UInt32
  labelAt : UInt32 → Option Label
  labelAt_address : ∀ label, code label ≠ [] → labelAt (address label) = some label
  returnAddress : UInt32

variable (link : Link)

/-- `exception_stub_table[vector]`. -/
def exceptionStubTable (vector : Nat) : UInt32 := link.address (.exceptionStub vector)

/-- `irq_stub_table[irq]`. -/
def irqStubTable (irq : Nat) : UInt32 := link.address (.irqStub irq)

def interruptInit (idt : Idt) : Idt :=
  let idt := forLoop 0 exceptionCount
    (fun vector idt => setInterruptDescriptor idt (.ofNat vector) (exceptionStubTable link vector))
    idt
  forLoop 0 picIrqCount
    (fun irq idt =>
      setInterruptDescriptor idt (.ofNat (picOffset.toNat + irq)) (irqStubTable link irq))
    idt

/-- The address that the CPU takes from a gate. -/
def IdtEntry.base (gate : IdtEntry) : UInt32 :=
  (gate.baseHigh.toUInt32 <<< 16) ||| gate.baseLow.toUInt32

end Descriptors

/-- The registers and the memory. While a stub runs, its remaining instructions stand for `eip`. -/
structure Cpu where
  eax : UInt32
  ecx : UInt32
  edx : UInt32
  ebx : UInt32
  esp : UInt32
  ebp : UInt32
  esi : UInt32
  edi : UInt32
  eip : UInt32
  eflags : UInt32
  cs : UInt16
  memory : Memory

namespace Cpu

def push (value : UInt32) (cpu : Cpu) : Cpu :=
  { cpu with esp := cpu.esp - 4, memory := write32 cpu.memory (cpu.esp - 4) value }

/-- The word at this offset from the top of the stack. -/
def stackWord (cpu : Cpu) (offset : UInt32) : UInt32 := read32 cpu.memory (cpu.esp + offset)

def pusha (cpu : Cpu) : Cpu :=
  (((((((cpu.push cpu.eax).push cpu.ecx).push cpu.edx).push cpu.ebx).push cpu.esp).push
    cpu.ebp).push cpu.esi).push cpu.edi

/-- `popa` drops the saved `esp`. -/
def popa (cpu : Cpu) : Cpu :=
  { cpu with
    edi := cpu.stackWord 0
    esi := cpu.stackWord 4
    ebp := cpu.stackWord 8
    ebx := cpu.stackWord 16
    edx := cpu.stackWord 20
    ecx := cpu.stackWord 24
    eax := cpu.stackWord 28
    esp := cpu.esp + 32 }

def iretd (cpu : Cpu) : Cpu :=
  { cpu with
    eip := cpu.stackWord 0
    cs := (cpu.stackWord 4).toUInt16
    eflags := cpu.stackWord 8
    esp := cpu.esp + 12 }

/-- The exceptions for which the CPU pushes an error code. -/
def pushesErrorCode (vector : UInt8) : Bool :=
  vector = 8 || (10 ≤ vector && vector ≤ 14) || vector = 17

/-- The flags that an interrupt gate clears: `TF`, `IF`, `NT`, `RF` and `VM`. -/
def gateClears : UInt32 := 0x34300

/-- The CPU takes the interrupt: it pushes its part of the frame and enters the gate. -/
def takeInterrupt (idt : Idt) (vector : UInt8) (errorCode : UInt32) (cpu : Cpu) : Cpu :=
  let pushed := ((cpu.push cpu.eflags).push cpu.cs.toUInt32).push cpu.eip
  let pushed := if pushesErrorCode vector then pushed.push errorCode else pushed
  { pushed with
    eip := (idt vector).base
    cs := (idt vector).selector
    eflags := cpu.eflags &&& ~~~gateClears }

end Cpu

/-- What runs: the rest of a stub, or the interrupted code again. -/
inductive Control where
  | stub (rest : List Instruction)
  | resumed

/-- What the stubs rely on: where they are linked, the flags that `add` leaves, and the run of
`interrupt_dispatch`, from its first instruction to after its `ret`. -/
structure Environment where
  link : Link
  addFlags : UInt32 → UInt32 → UInt32
  interruptDispatch : Cpu → Cpu

namespace Environment

variable (env : Environment)

def step : Control × Cpu → Control × Cpu
  | (.stub (.push value :: rest), cpu) => (.stub rest, cpu.push value)
  | (.stub (.pushEsp :: rest), cpu) => (.stub rest, cpu.push cpu.esp)
  | (.stub (.pusha :: rest), cpu) => (.stub rest, cpu.pusha)
  | (.stub (.popa :: rest), cpu) => (.stub rest, cpu.popa)
  | (.stub (.addEsp value :: rest), cpu) =>
    (.stub rest, { cpu with esp := cpu.esp + value, eflags := env.addFlags cpu.esp value })
  | (.stub (.jmp label :: _), cpu) => (.stub (code label), cpu)
  | (.stub (.callInterruptDispatch :: rest), cpu) =>
    (.stub rest, env.interruptDispatch (cpu.push env.link.returnAddress))
  | (.stub (.iretd :: _), cpu) => (.resumed, cpu.iretd)
  | (.stub [], cpu) => (.stub [], cpu)
  | (.resumed, cpu) => (.resumed, cpu)

/-- The stub at an address. -/
def stubAt (address : UInt32) : List Instruction := ((env.link.labelAt address).map code).getD []

/-- The first state of a stub: the CPU takes the interrupt through the installed gate. -/
def enter (idt : Idt) (vector : UInt8) (errorCode : UInt32) (cpu : Cpu) : Control × Cpu :=
  let taken := cpu.takeInterrupt (interruptInit env.link idt) vector errorCode
  (.stub (env.stubAt taken.eip), taken)

end Environment

end KernelFromScratch
