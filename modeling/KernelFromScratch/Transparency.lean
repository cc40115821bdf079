import KernelFromScratch.Interrupt

/-!
# Interrupts are transparent

Every installed stub pushes the same frame, and the interrupted code goes on with the registers and
the flags it had, whatever the dispatcher does within its calling convention.
-/

namespace KernelFromScratch

/-- `interrupt_frame_t`. -/
structure InterruptFrame where
  edi : UInt32
  esi : UInt32
  ebp : UInt32
  esp : UInt32
  ebx : UInt32
  edx : UInt32
  ecx : UInt32
  eax : UInt32
  vector : UInt32
  errorCode : UInt32
  eip : UInt32
  cs : UInt32
  eflags : UInt32

/-- The packed structure at an address. -/
def frameAt (memory : Memory) (address : UInt32) : InterruptFrame where
  edi := read32 memory address
  esi := read32 memory (address + 4)
  ebp := read32 memory (address + 8)
  esp := read32 memory (address + 12)
  ebx := read32 memory (address + 16)
  edx := read32 memory (address + 20)
  ecx := read32 memory (address + 24)
  eax := read32 memory (address + 28)
  vector := read32 memory (address + 32)
  errorCode := read32 memory (address + 36)
  eip := read32 memory (address + 40)
  cs := read32 memory (address + 44)
  eflags := read32 memory (address + 48)

def frameSize : Nat := 52

/-- The registers that a function restores: from its first instruction, with the return address on
the top of the stack, to after its `ret`. -/
structure FollowsConvention (entry exit : Cpu) : Prop where
  esp : exit.esp = entry.esp + 4
  ebx : exit.ebx = entry.ebx
  ebp : exit.ebp = entry.ebp
  esi : exit.esi = entry.esi
  edi : exit.edi = entry.edi

/-- The bytes of a frame that lies above the argument that points to it are not written. -/
def KeepsFrame (entry exit : Cpu) : Prop :=
  entry.stackWord 4 = entry.esp + 8 → ∀ k < frameSize,
    exit.memory (entry.esp + 8 + .ofNat k) = entry.memory (entry.esp + 8 + .ofNat k)

/-- The vectors that `interrupt_init` installs. -/
def Installed (vector : UInt8) : Prop :=
  vector.toNat < exceptionCount
    ∨ picOffset.toNat ≤ vector.toNat ∧ vector.toNat < picOffset.toNat + picIrqCount

/-- The frame holds the interrupted context. -/
structure Describes (frame : InterruptFrame) (cpu : Cpu) (vector : UInt8) (errorCode : UInt32) :
    Prop where
  edi : frame.edi = cpu.edi
  esi : frame.esi = cpu.esi
  ebp : frame.ebp = cpu.ebp
  ebx : frame.ebx = cpu.ebx
  edx : frame.edx = cpu.edx
  ecx : frame.ecx = cpu.ecx
  eax : frame.eax = cpu.eax
  errorCode : frame.errorCode = if Cpu.pushesErrorCode vector then errorCode else 0
  vector : frame.vector = vector.toUInt32
  eip : frame.eip = cpu.eip
  cs : frame.cs = cpu.cs.toUInt32
  eflags : frame.eflags = cpu.eflags

/-- The general registers but `esp` are the same. -/
structure SameRegisters (cpu x : Cpu) : Prop where
  eax : x.eax = cpu.eax
  ecx : x.ecx = cpu.ecx
  edx : x.edx = cpu.edx
  ebx : x.ebx = cpu.ebx
  ebp : x.ebp = cpu.ebp
  esi : x.esi = cpu.esi
  edi : x.edi = cpu.edi

/-- The interrupted code goes on where it was, with its registers. -/
structure SameContext (cpu x : Cpu) : Prop extends SameRegisters cpu x where
  esp : x.esp = cpu.esp
  eip : x.eip = cpu.eip
  cs : x.cs = cpu.cs
  eflags : x.eflags = cpu.eflags

/-- These words have been pushed since the stack pointer was `esp`. -/
structure Stacked (esp : UInt32) (x : Cpu) (words : List UInt32) : Prop where
  esp_eq : x.esp + .ofNat (4 * words.length) = esp
  holds : HoldsWords x.memory x.esp words

section Stack

variable {cpu x : Cpu} {esp value : UInt32} {words : List UInt32}

theorem SameRegisters.push (hsame : SameRegisters cpu x) (value : UInt32) :
    SameRegisters cpu (x.push value) :=
  ⟨hsame.eax, hsame.ecx, hsame.edx, hsame.ebx, hsame.ebp, hsame.esi, hsame.edi⟩

theorem SameRegisters.pushAll (values : List UInt32) (hsame : SameRegisters cpu x) :
    SameRegisters cpu (values.foldl (fun x value => x.push value) x) := by
  induction values generalizing x with
  | nil => exact hsame
  | cons value values ih => exact ih (hsame.push value)

theorem Stacked.start (x : Cpu) : Stacked x.esp x [] :=
  ⟨UInt32.add_zero x.esp, trivial⟩

theorem Stacked.push (hstacked : Stacked esp x words) (hfits : words.length < 2 ^ 16)
    (value : UInt32) : Stacked esp (x.push value) (value :: words) := by
  constructor
  · rw [← hstacked.esp_eq, List.length_cons, Nat.mul_add, Nat.add_comm, UInt32.ofNat_add,
      ← UInt32.add_assoc]
    change x.esp - 4 + 4 + _ = _
    rw [UInt32.sub_add_cancel]
  · exact hstacked.holds.push (by omega) value

theorem Stacked.pushAll (values : List UInt32) (hstacked : Stacked esp x words)
    (hfits : values.length + words.length < 2 ^ 16) :
    Stacked esp (values.foldl (fun x value => x.push value) x) (values.reverse ++ words) := by
  induction values generalizing x words with
  | nil => exact hstacked
  | cons value values ih =>
      rw [List.length_cons] at hfits
      rw [List.foldl_cons, List.reverse_cons, List.append_assoc]
      exact ih (hstacked.push (by omega) value) (by rw [List.length_append, List.length_singleton]; omega)

/-- The word number `k` from the top of the stack. -/
theorem Stacked.read (hstacked : Stacked esp x words) (k : Nat) (hk : k < words.length) :
    x.stackWord (.ofNat (4 * k)) = words.getD k 0 :=
  hstacked.holds.read k hk

/-- `add esp` drops words. -/
theorem Stacked.drop (first : List UInt32) (hstacked : Stacked esp x (first ++ words)) {y : Cpu}
    (hesp : y.esp = x.esp + .ofNat (4 * first.length)) (hmemory : y.memory = x.memory) :
    Stacked esp y words := by
  constructor
  · rw [hesp, ← hstacked.esp_eq, List.length_append, Nat.mul_add, UInt32.ofNat_add,
      UInt32.add_assoc]
  · rw [hesp, hmemory]
    exact hstacked.holds.drop

end Stack

section Gates

variable (link : Link)

/-- The two halves in a gate make up the address of the handler. -/
theorem base_setInterruptDescriptor (idt : Idt) (index : UInt8) (handler : UInt32) :
    (setInterruptDescriptor idt index handler index).base = handler := by
  have hlow : (handler &&& 0xFFFF).toUInt16.toUInt32.toNat = handler.toNat % 2 ^ 16 := by
    have hmask : (handler &&& 0xFFFF).toNat = handler.toNat % 2 ^ 16 := by
      rw [UInt32.toNat_and]
      exact Nat.and_two_pow_sub_one_eq_mod handler.toNat 16
    rw [UInt16.toNat_toUInt32, UInt32.toNat_toUInt16, hmask, Nat.mod_mod]
  have hhigh : (((handler >>> 16) &&& 0xFFFF).toUInt16.toUInt32 <<< 16).toNat
      = 2 ^ 16 * (handler.toNat / 2 ^ 16) := by
    have hlt := handler.toNat_lt
    have hmask : ((handler >>> 16) &&& 0xFFFF).toNat = handler.toNat / 2 ^ 16 % 2 ^ 16 := by
      rw [UInt32.toNat_and, UInt32.toNat_shiftRight, Nat.shiftRight_eq_div_pow]
      exact Nat.and_two_pow_sub_one_eq_mod _ 16
    rw [UInt32.toNat_shiftLeft, UInt16.toNat_toUInt32, UInt32.toNat_toUInt16, hmask,
      Nat.shiftLeft_eq]
    change handler.toNat / 2 ^ 16 % 2 ^ 16 % 2 ^ 16 * 2 ^ 16 % 2 ^ 32 = _
    omega
  apply UInt32.toNat_inj.mp
  rw [setInterruptDescriptor, Function.update_self, IdtEntry.base, UInt32.toNat_or, hhigh, hlow,
    ← Nat.two_pow_add_eq_or_of_lt (Nat.mod_lt _ (by decide))]
  omega

theorem setInterruptDescriptor_other (idt : Idt) {index other : UInt8} (handler : UInt32)
    (hne : other ≠ index) : setInterruptDescriptor idt index handler other = idt other :=
  Function.update_of_ne hne _ idt

/-- One of the loops of `interrupt_init` installs its handlers, one after the other. -/
theorem install_base (handlers : Nat → UInt32) (first : Nat) {count : Nat} (hfits : first + count ≤ 256)
    (idt : Idt) {k : Nat} (hk : k < count) :
    (forLoop 0 count (fun i idt => setInterruptDescriptor idt (.ofNat (first + i)) (handlers i)) idt
      (.ofNat (first + k))).base = handlers k := by
  refine forLoop_rule (fun i (current : Idt) => ∀ j < i,
    (current (.ofNat (first + j))).base = handlers j) (Nat.zero_le count) ?_ ?_ k hk
  · intro j hj
    exact absurd hj (Nat.not_lt_zero j)
  · intro i current _ hi hcurrent j hj
    by_cases hlast : j = i
    · rw [hlast]
      exact base_setInterruptDescriptor _ _ _
    · have hne : UInt8.ofNat (first + j) ≠ .ofNat (first + i) := by
        intro heq
        have hvalues := congrArg UInt8.toNat heq
        rw [UInt8.toNat_ofNat_of_lt' (show first + j < 2 ^ 8 by omega),
          UInt8.toNat_ofNat_of_lt' (show first + i < 2 ^ 8 by omega)] at hvalues
        omega
      rw [setInterruptDescriptor_other _ _ hne]
      exact hcurrent j (by omega)

/-- What lies outside the vectors of a loop stays. -/
theorem install_other (handlers : Nat → UInt32) {first count : Nat} (hfits : first + count ≤ 256)
    (idt : Idt) {other : UInt8} (hother : other.toNat < first ∨ first + count ≤ other.toNat) :
    forLoop 0 count (fun i idt => setInterruptDescriptor idt (.ofNat (first + i)) (handlers i)) idt
      other = idt other := by
  refine forLoop_preserves (fun (current : Idt) => current other = idt other) rfl ?_
  intro i current _ hi hcurrent
  have hne : other ≠ .ofNat (first + i) := by
    intro heq
    have hvalues := congrArg UInt8.toNat heq
    rw [UInt8.toNat_ofNat_of_lt' (show first + i < 2 ^ 8 by omega)] at hvalues
    omega
  rw [setInterruptDescriptor_other _ _ hne, hcurrent]

theorem interruptInit_exception (idt : Idt) {vector : Nat} (hvector : vector < exceptionCount) :
    (interruptInit link idt (.ofNat vector)).base = link.address (.exceptionStub vector) := by
  have hfirst := install_base (exceptionStubTable link) 0 (by decide) idt hvector
  have hindex : (fun i (idt : Idt) =>
      setInterruptDescriptor idt (.ofNat (0 + i)) (exceptionStubTable link i))
      = fun i idt => setInterruptDescriptor idt (.ofNat i) (exceptionStubTable link i) := by
    funext i idt
    rw [Nat.zero_add]
  rw [hindex, Nat.zero_add] at hfirst
  have hbelow : (UInt8.ofNat vector).toNat = vector :=
    UInt8.toNat_ofNat_of_lt' (lt_trans hvector (by decide))
  have hother : (UInt8.ofNat vector).toNat < picOffset.toNat := by
    rw [hbelow]
    exact lt_trans hvector (by decide)
  rw [interruptInit, install_other (irqStubTable link) (by decide) _ (.inl hother)]
  exact hfirst

theorem interruptInit_irq (idt : Idt) {irq : Nat} (hirq : irq < picIrqCount) :
    (interruptInit link idt (.ofNat (picOffset.toNat + irq))).base = link.address (.irqStub irq) :=
  install_base (irqStubTable link) picOffset.toNat (by decide) _ hirq

end Gates

section Stubs

variable {env : Environment} {cpu : Cpu} {idt : Idt} {vector : UInt8} {errorCode : UInt32}

theorem stubAt_address {label : Label} (hcode : code label ≠ []) :
    env.stubAt (env.link.address label) = code label := by
  rw [Environment.stubAt, env.link.labelAt_address label hcode]
  rfl

/-- The exceptions with the short stub are those with an error code. -/
theorem code_exceptionStub (exception : Nat) (hexception : exception < exceptionCount) :
    code (.exceptionStub exception)
      = if Cpu.pushesErrorCode (.ofNat exception) then exceptionStubErrorCode exception
        else exceptionStub exception := by
  have hall : ∀ exception < exceptionCount, code (.exceptionStub exception)
      = if Cpu.pushesErrorCode (.ofNat exception) then exceptionStubErrorCode exception
        else exceptionStub exception := by
    decide
  exact hall exception hexception

theorem code_irqStub (irq : Nat) (hirq : irq < picIrqCount) :
    code (.irqStub irq) = irqStub irq ∧ Cpu.pushesErrorCode (.ofNat (picOffset.toNat + irq)) = false
      ∧ picOffset + .ofNat irq = (UInt8.ofNat (picOffset.toNat + irq)).toUInt32 := by
  have hall : ∀ irq < picIrqCount, code (.irqStub irq) = irqStub irq
      ∧ Cpu.pushesErrorCode (.ofNat (picOffset.toNat + irq)) = false
      ∧ picOffset + .ofNat irq = (UInt8.ofNat (picOffset.toNat + irq)).toUInt32 := by
    decide
  exact hall irq hirq

/-- The frame without the registers of `pusha`. -/
def lowerWords (cpu : Cpu) (vector : UInt8) (errorCode : UInt32) : List UInt32 :=
  [vector.toUInt32, if Cpu.pushesErrorCode vector then errorCode else 0, cpu.eip,
    cpu.cs.toUInt32, cpu.eflags]

/-- The words that the CPU pushes. -/
def cpuWords (cpu : Cpu) (vector : UInt8) (errorCode : UInt32) : List UInt32 :=
  (if Cpu.pushesErrorCode vector then [errorCode] else [])
    ++ [cpu.eip, cpu.cs.toUInt32, cpu.eflags]

theorem takeInterrupt_stacked (cpu : Cpu) (idt : Idt) (vector : UInt8) (errorCode : UInt32) :
    SameRegisters cpu (cpu.takeInterrupt idt vector errorCode)
      ∧ Stacked cpu.esp (cpu.takeInterrupt idt vector errorCode)
        (cpuWords cpu vector errorCode) := by
  have hpushed : SameRegisters cpu (((cpu.push cpu.eflags).push cpu.cs.toUInt32).push cpu.eip) :=
    ⟨rfl, rfl, rfl, rfl, rfl, rfl, rfl⟩
  have hstacked : Stacked cpu.esp (((cpu.push cpu.eflags).push cpu.cs.toUInt32).push cpu.eip)
      [cpu.eip, cpu.cs.toUInt32, cpu.eflags] :=
    (((Stacked.start cpu).push (by simp) _).push (by simp) _).push (by simp) _
  rw [Cpu.takeInterrupt, cpuWords]
  split_ifs with herror
  · have herrorPushed := hstacked.push (by simp) errorCode
    exact ⟨⟨rfl, rfl, rfl, rfl, rfl, rfl, rfl⟩, ⟨herrorPushed.esp_eq, herrorPushed.holds⟩⟩
  · exact ⟨⟨rfl, rfl, rfl, rfl, rfl, rfl, rfl⟩, ⟨hstacked.esp_eq, hstacked.holds⟩⟩

/-- A stub that pushes what the CPU has not pushed comes to the common stub. -/
theorem stub_reaches {x : Cpu} (hsame : SameRegisters cpu x)
    (hstacked : Stacked cpu.esp x (cpuWords cpu vector errorCode)) {stub : List Instruction}
    (hstub : stub = (if Cpu.pushesErrorCode vector then [] else [.push 0])
      ++ [.push vector.toUInt32, .jmp .interruptCommonStub]) :
    ∃ n y, env.step^[n] (.stub stub, x) = (.stub interruptCommonStub, y) ∧ SameRegisters cpu y
      ∧ Stacked cpu.esp y (lowerWords cpu vector errorCode) := by
  rw [cpuWords] at hstacked
  rw [lowerWords, hstub]
  cases herror : Cpu.pushesErrorCode vector with
  | true =>
      rw [herror] at hstacked
      exact ⟨2, x.push vector.toUInt32, rfl, hsame.push _, hstacked.push (by simp) _⟩
  | false =>
      rw [herror] at hstacked
      exact ⟨3, (x.push 0).push vector.toUInt32, rfl, (hsame.push _).push _,
        (hstacked.push (by simp) _).push (by simp) _⟩

/-- Every installed vector comes to the common stub with the same stack layout. -/
theorem enter_reaches (hinstalled : Installed vector) (idt : Idt) (errorCode : UInt32)
    (cpu : Cpu) :
    ∃ n x, env.step^[n] (env.enter idt vector errorCode cpu) = (.stub interruptCommonStub, x)
      ∧ SameRegisters cpu x ∧ Stacked cpu.esp x (lowerWords cpu vector errorCode) := by
  obtain ⟨hsame, hstacked⟩ :=
    takeInterrupt_stacked cpu (interruptInit env.link idt) vector errorCode
  refine stub_reaches hsame hstacked ?_
  change env.stubAt (interruptInit env.link idt vector).base = _
  rcases hinstalled with hexception | ⟨hle, hlt⟩
  · have hbase := interruptInit_exception env.link idt hexception
    have hcode := code_exceptionStub vector.toNat hexception
    rw [UInt8.ofNat_toNat] at hbase hcode
    have hvalue : UInt32.ofNat vector.toNat = vector.toUInt32 := by
      apply UInt32.toNat_inj.mp
      rw [UInt8.toNat_toUInt32, UInt32.toNat_ofNat_of_lt'
        (lt_trans (UInt8.toNat_lt vector) (by decide))]
    have hstub : code (.exceptionStub vector.toNat)
        = (if Cpu.pushesErrorCode vector then [] else [.push 0])
          ++ [.push vector.toUInt32, .jmp .interruptCommonStub] := by
      rw [hcode, exceptionStub, exceptionStubErrorCode, hvalue]
      split_ifs <;> rfl
    rw [hbase, stubAt_address (by rw [hstub]; simp), hstub]
  · obtain ⟨irq, hirq⟩ := Nat.exists_eq_add_of_le hle
    have hcount : irq < picIrqCount := by omega
    have hbase := interruptInit_irq env.link idt hcount
    obtain ⟨hcode, herror, hvalue⟩ := code_irqStub irq hcount
    rw [← hirq, UInt8.ofNat_toNat] at hbase herror hvalue
    have hstub : code (.irqStub irq)
        = (if Cpu.pushesErrorCode vector then [] else [.push 0])
          ++ [.push vector.toUInt32, .jmp .interruptCommonStub] := by
      rw [hcode, irqStub, hvalue, herror]
      rfl
    rw [hbase, stubAt_address (by rw [hstub]; simp), hstub]

/-- The frame that the dispatcher gets. -/
def frameWords (cpu : Cpu) (esp : UInt32) (vector : UInt8) (errorCode : UInt32) : List UInt32 :=
  [cpu.edi, cpu.esi, cpu.ebp, esp, cpu.ebx, cpu.edx, cpu.ecx, cpu.eax]
    ++ lowerWords cpu vector errorCode

theorem pusha_stacked {x : Cpu} (hsame : SameRegisters cpu x)
    (hstacked : Stacked cpu.esp x (lowerWords cpu vector errorCode)) :
    SameRegisters cpu x.pusha
      ∧ Stacked cpu.esp x.pusha (frameWords cpu x.esp vector errorCode) := by
  have hvalues : x.pusha
      = [x.eax, x.ecx, x.edx, x.ebx, x.esp, x.ebp, x.esi, x.edi].foldl
        (fun x value => x.push value) x := rfl
  rw [hvalues, hsame.eax, hsame.ecx, hsame.edx, hsame.ebx, hsame.ebp, hsame.esi, hsame.edi]
  exact ⟨hsame.pushAll _, hstacked.pushAll _ (by simp [lowerWords])⟩

theorem describes_frame {memory : Memory} {address esp : UInt32}
    (hholds : HoldsWords memory address (frameWords cpu esp vector errorCode)) :
    Describes (frameAt memory address) cpu vector errorCode := by
  have hread : ∀ k < 13, read32 memory (address + .ofNat (4 * k))
      = (frameWords cpu esp vector errorCode).getD k 0 := fun k hk => hholds.read k hk
  exact
    { edi := hholds.1
      esi := hread 1 (by decide)
      ebp := hread 2 (by decide)
      ebx := hread 4 (by decide)
      edx := hread 5 (by decide)
      ecx := hread 6 (by decide)
      eax := hread 7 (by decide)
      vector := hread 8 (by decide)
      errorCode := hread 9 (by decide)
      eip := hread 10 (by decide)
      cs := hread 11 (by decide)
      eflags := hread 12 (by decide) }

/-- From after the dispatcher to the interrupted code. -/
theorem return_reaches {x : Cpu} {esp : UInt32}
    (hstacked : Stacked cpu.esp { x with esp := x.esp + 4 } (frameWords cpu esp vector errorCode)) :
    ∃ n out, env.step^[n] (.stub [.addEsp 4, .popa, .addEsp 8, .iretd], x) = (.resumed, out)
      ∧ SameContext cpu out := by
  let y : Cpu := { x with esp := x.esp + 4, eflags := env.addFlags x.esp 4 }
  have hframe : Stacked cpu.esp y (frameWords cpu esp vector errorCode) :=
    ⟨hstacked.esp_eq, hstacked.holds⟩
  have hread : ∀ k < 13, y.stackWord (.ofNat (4 * k))
      = (frameWords cpu esp vector errorCode).getD k 0 := fun k hk => hframe.read k hk
  let z : Cpu := { y.popa with esp := y.popa.esp + 8, eflags := env.addFlags y.popa.esp 8 }
  have hesp : z.esp = y.esp + .ofNat (4 * 10) := by
    change y.esp + 32 + 8 = y.esp + 40
    rw [UInt32.add_assoc]
    rfl
  have hlast : Stacked cpu.esp z [cpu.eip, cpu.cs.toUInt32, cpu.eflags] :=
    Stacked.drop [cpu.edi, cpu.esi, cpu.ebp, esp, cpu.ebx, cpu.edx, cpu.ecx, cpu.eax,
      vector.toUInt32, if Cpu.pushesErrorCode vector then errorCode else 0] hframe hesp rfl
  refine ⟨4, z.iretd, rfl, ⟨?_, ?_, ?_, ?_, ?_, ?_, ?_⟩, ?_, ?_, ?_, ?_⟩
  · exact hread 7 (by decide)
  · exact hread 6 (by decide)
  · exact hread 5 (by decide)
  · exact hread 4 (by decide)
  · exact hread 2 (by decide)
  · exact hread 1 (by decide)
  · exact hread 0 (by decide)
  · exact hlast.esp_eq
  · exact hlast.read 0 (by simp)
  · have hcs : z.stackWord 4 = cpu.cs.toUInt32 := hlast.read 1 (by simp)
    change (z.stackWord 4).toUInt16 = cpu.cs
    rw [hcs, UInt16.toUInt16_toUInt32]
  · exact hlast.read 2 (by simp)

/-- From the common stub on: the frame the dispatcher gets, and the return to the interrupted
code. -/
theorem common_reaches {x : Cpu} (hsame : SameRegisters cpu x)
    (hstacked : Stacked cpu.esp x (lowerWords cpu vector errorCode))
    (hconvention : ∀ entry, FollowsConvention entry (env.interruptDispatch entry))
    (hkeeps : ∀ entry, KeepsFrame entry (env.interruptDispatch entry)) :
    ∃ rest entry, env.step^[2] (.stub interruptCommonStub, x)
        = (.stub (.callInterruptDispatch :: rest), entry)
      ∧ Describes (frameAt entry.memory (entry.stackWord 0)) cpu vector errorCode
      ∧ ∃ n out, env.step^[n] (.stub (.callInterruptDispatch :: rest), entry) = (.resumed, out)
        ∧ SameContext cpu out := by
  obtain ⟨-, hframe⟩ := pusha_stacked hsame hstacked
  let entry : Cpu := x.pusha.push x.pusha.esp
  let called : Cpu := entry.push env.link.returnAddress
  have hargument : Stacked cpu.esp entry (x.pusha.esp :: frameWords cpu x.esp vector errorCode) :=
    hframe.push (by simp [frameWords, lowerWords]) x.pusha.esp
  have hcalled : Stacked cpu.esp called
      (env.link.returnAddress :: x.pusha.esp :: frameWords cpu x.esp vector errorCode) :=
    hargument.push (by simp [frameWords, lowerWords]) env.link.returnAddress
  have hentry : entry.esp + 4 = x.pusha.esp := UInt32.sub_add_cancel x.pusha.esp 4
  have hreturn : called.esp + 4 = entry.esp := UInt32.sub_add_cancel entry.esp 4
  refine ⟨[.addEsp 4, .popa, .addEsp 8, .iretd], entry, rfl, ?_, ?_⟩
  · have hpointer : entry.stackWord 0 = x.pusha.esp := hargument.read 0 (by simp)
    have hholds := hargument.holds.2
    rw [hentry] at hholds
    rw [hpointer]
    exact describes_frame hholds
  · have hpointer : called.stackWord 4 = x.pusha.esp := hcalled.read 1 (by simp)
    have hheld := hcalled.holds.2.2
    rw [hreturn, hentry] at hheld
    have habove : called.esp + 8 = x.pusha.esp := by
      rw [← hentry, ← hreturn, UInt32.add_assoc]
      rfl
    have hkept := hkeeps called (hpointer.trans habove.symm)
    rw [habove] at hkept
    have hexit : (env.interruptDispatch called).esp + 4 = x.pusha.esp := by
      rw [(hconvention called).esp, hreturn, hentry]
    have hback : Stacked cpu.esp
        { env.interruptDispatch called with esp := (env.interruptDispatch called).esp + 4 }
        (frameWords cpu x.esp vector errorCode) := by
      constructor
      · rw [hexit]
        exact hframe.esp_eq
      · rw [hexit]
        exact hheld.of_bytes hkept
    obtain ⟨n, out, hrun, hsame⟩ := return_reaches hback
    exact ⟨n + 1, out, hrun, hsame⟩

end Stubs

/-- An interrupt through any installed vector goes back to the interrupted code with all its
registers, and the dispatcher gets a frame that describes that code. -/
theorem interrupts_transparent {env : Environment}
    (hconvention : ∀ entry, FollowsConvention entry (env.interruptDispatch entry))
    (hkeeps : ∀ entry, KeepsFrame entry (env.interruptDispatch entry)) (idt : Idt)
    {vector : UInt8} (hinstalled : Installed vector) (errorCode : UInt32) (cpu : Cpu) :
    (∃ n rest entry, env.step^[n] (env.enter idt vector errorCode cpu)
        = (.stub (.callInterruptDispatch :: rest), entry)
      ∧ Describes (frameAt entry.memory (entry.stackWord 0)) cpu vector errorCode)
    ∧ ∃ n out, env.step^[n] (env.enter idt vector errorCode cpu) = (.resumed, out)
      ∧ SameContext cpu out := by
  obtain ⟨n, x, hrun, hsame, hstacked⟩ := enter_reaches hinstalled idt errorCode cpu
  obtain ⟨rest, entry, hcall, hframe, m, out, hreturn, hcontext⟩ :=
    common_reaches hsame hstacked hconvention hkeeps
  have hentered : env.step^[2 + n] (env.enter idt vector errorCode cpu)
      = (.stub (.callInterruptDispatch :: rest), entry) := by
    rw [Function.iterate_add_apply, hrun, hcall]
  refine ⟨⟨2 + n, rest, entry, hentered, hframe⟩, m + (2 + n), out, ?_, hcontext⟩
  rw [Function.iterate_add_apply, hentered, hreturn]

/-- A label without a stub has no code. -/
theorem index_lt {stubs : List (List Instruction)} {index : Nat} (hcode : stubs.getD index [] ≠ []) :
    index < stubs.length := by
  by_contra hge
  apply hcode
  rw [List.getD_eq_getElem?_getD, List.getElem?_eq_none (Nat.le_of_not_lt hge), Option.getD_none]

/-- The stubs 16 bytes apart. -/
def spacedAddress : Label → UInt32
  | .exceptionStub vector => .ofNat (16 * vector)
  | .irqStub irq => .ofNat (0x1000 + 16 * irq)
  | .interruptCommonStub => 0x2000

def spacedLabelAt (address : UInt32) : Option Label :=
  if address.toNat < 0x1000 then some (.exceptionStub (address.toNat / 16))
  else if address.toNat < 0x2000 then some (.irqStub ((address.toNat - 0x1000) / 16))
  else some .interruptCommonStub

theorem spacedLabelAt_address (label : Label) (hcode : code label ≠ []) :
    spacedLabelAt (spacedAddress label) = some label := by
  cases label with
  | exceptionStub vector =>
      have hvector : vector < 20 := index_lt hcode
      have haddress : (spacedAddress (.exceptionStub vector)).toNat = 16 * vector :=
        UInt32.toNat_ofNat_of_lt' (Nat.lt_trans (show 16 * vector < 0x1000 by omega) (by decide))
      rw [spacedLabelAt, haddress, if_pos (by omega), Nat.mul_div_cancel_left vector (by decide)]
  | irqStub irq =>
      have hirq : irq < 16 := index_lt hcode
      have haddress : (spacedAddress (.irqStub irq)).toNat = 0x1000 + 16 * irq :=
        UInt32.toNat_ofNat_of_lt'
          (Nat.lt_trans (show 0x1000 + 16 * irq < 0x2000 by omega) (by decide))
      rw [spacedLabelAt, haddress, if_neg (by omega), if_pos (by omega), Nat.add_sub_cancel_left,
        Nat.mul_div_cancel_left irq (by decide)]
  | interruptCommonStub => rfl

def spacedLink : Link := ⟨spacedAddress, spacedLabelAt, spacedLabelAt_address, 0x3000⟩

/-- A dispatcher that overwrites its argument and the registers it need not restore. -/
def overwritingEnvironment : Environment where
  link := spacedLink
  addFlags _ _ := 0
  interruptDispatch entry :=
    { entry with
      eax := 0
      ecx := 0
      edx := 0
      eflags := 0
      esp := entry.esp + 4
      memory := write32 entry.memory (entry.esp + 4) 0 }

def flatCpu : Cpu := ⟨1, 2, 3, 4, 0x200000, 6, 7, 8, 0x100000, 0x202, 0x08, fun _ => 0⟩

theorem interrupts_transparent_pageFault :
    ∃ n out, overwritingEnvironment.step^[n]
        (overwritingEnvironment.enter (fun _ => ⟨0, 0, 0, 0, 0⟩) 14 2 flatCpu) = (.resumed, out)
      ∧ SameContext flatCpu out := by
  have hkeeps : ∀ entry, KeepsFrame entry (overwritingEnvironment.interruptDispatch entry) := by
    intro entry _ k hk
    have hoffset : entry.esp + 8 + .ofNat k = entry.esp + 4 + .ofNat (4 + k) := by
      rw [UInt32.ofNat_add, ← UInt32.add_assoc, UInt32.add_assoc entry.esp 4]
      rfl
    rw [frameSize] at hk
    rw [hoffset]
    exact write32_outside (by omega) (by omega)
  exact (interrupts_transparent (fun entry => ⟨rfl, rfl, rfl, rfl, rfl⟩) hkeeps _
    (.inl (by decide)) 2 flatCpu).2

end KernelFromScratch
