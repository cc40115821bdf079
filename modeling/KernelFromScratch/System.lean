import KernelFromScratch.MainLoop
import KernelFromScratch.Mouse
import KernelFromScratch.Scrolling

/-!
# The whole system

The main loop, the two interrupt handlers, the key buffer between them and the kernel that
`handle_scancode` changes. An interrupt handler uses the key buffer and the variables of the mouse,
and `handle_scancode` uses neither: whatever interrupts come during a call of it, the call is one
step, made when it ends. `halt` ends with `cli`, so no interrupt comes after it.
-/

namespace KernelFromScratch

namespace Machine

/-- A step of the main loop. -/
inductive Instruction : Machine → Machine → Prop where
  | handleInput {m : Machine} {point : InputPoint} (hpoint : m.point = .handleInput)
      (hqueue : m.queue.point = .handleInput point) (headFirst : Bool) :
      Instruction m (m.handleInput headFirst point)
  | cli {m : Machine} (hpoint : m.point = .cli) : Instruction m m.cli
  | hasInput {m : Machine} {point : TestPoint} (hpoint : m.point = .hasInput)
      (hqueue : m.queue.point = .hasInput point) (headFirst : Bool) :
      Instruction m (m.hasInput headFirst point)
  | sti {m : Machine} (hpoint : m.point = .sti) : Instruction m m.sti
  | hlt {m : Machine} (hpoint : m.point = .hlt) : Instruction m m.hlt
  | lastSti {m : Machine} (hpoint : m.point = .lastSti) : Instruction m m.lastSti

theorem Instruction.step {m m' : Machine} (hinstruction : Instruction m m') : Step m m' := by
  cases hinstruction with
  | handleInput hpoint hqueue headFirst => exact .handleInput hpoint hqueue headFirst
  | cli hpoint => exact .cli hpoint
  | hasInput hpoint hqueue headFirst => exact .hasInput hpoint hqueue headFirst
  | sti hpoint => exact .sti hpoint
  | hlt hpoint => exact .hlt hpoint
  | lastSti hpoint => exact .lastSti hpoint

/-- About to call `handle_scancode`. -/
def Calls (m : Machine) (scancode : UInt8) : Prop :=
  m.point = .handleInput ∧ m.queue.point = .handleInput (.call scancode)

end Machine

/-- The handler that pushed a scancode. -/
inductive Origin where
  | keyboard
  | mouse
  deriving DecidableEq

structure System where
  machine : Machine
  mouse : Mouse
  kernel : Kernel
  /-- A call of `handle_scancode` does not return. -/
  stopped : Bool
  /-- Not in the source: the scancodes `keyboard_push_scancode` stored, and which handler called
  it. -/
  pushed : List (UInt8 × Origin)
  /-- Not in the source: the calls of `handle_scancode`. -/
  called : List KeyEvent

namespace System

/-- Before the first `sti` of `kernel_main`. -/
def boot (hasScrollWheel : Bool) (vga : Vga) : System :=
  ⟨.boot, .boot hasScrollWheel, .boot vga, false, [], []⟩

/-- An interrupt comes, and no scancode is pushed yet. -/
def wake (s : System) : System := { s with machine := s.machine.interrupt none }

def push (origin : Origin) (scancode : UInt8) (s : System) : System :=
  { s with
    machine := { s.machine with queue := s.machine.queue.push scancode }
    pushed :=
      if s.machine.queue.buffer.Full then s.pushed else s.pushed ++ [(scancode, origin)] }

/-- `keyboard_interrupt_handler`, for the byte in the data port. -/
def keyboardInterrupt (scancode : UInt8) (s : System) : System := s.wake.push .keyboard scancode

/-- `mouse_interrupt_handler`. -/
def mouseInterrupt (ports : MousePorts) (s : System) : System :=
  let (mouse, actions) := s.mouse.interruptHandler ports
  (MouseAction.scancodes actions).foldl (fun s scancode => s.push .mouse scancode)
    { s.wake with mouse := mouse }

/-- `handle_scancode` with all that it calls. -/
def call (event : KeyEvent) (s : System) : System :=
  match s.kernel.handle event with
  | .ok kernel =>
      { s with
        machine := s.machine.handleInput true (.call event.scancode)
        kernel := kernel
        called := s.called ++ [event] }
  | .error kernel =>
      { s with
        machine := { s.machine with interruptFlag := false }
        kernel := kernel
        stopped := true
        called := s.called ++ [event] }

inductive Interrupt : System → System → Prop where
  | keyboard {s : System} (hflag : s.machine.interruptFlag = true)
      (hshadow : s.machine.shadow = false) (scancode : UInt8) :
      Interrupt s (s.keyboardInterrupt scancode)
  | mouse {s : System} (hflag : s.machine.interruptFlag = true)
      (hshadow : s.machine.shadow = false) (ports : MousePorts) :
      Interrupt s (s.mouseInterrupt ports)
  /-- A line without a handler. -/
  | other {s : System} (hflag : s.machine.interruptFlag = true)
      (hshadow : s.machine.shadow = false) : Interrupt s s.wake

/-- A step of the main loop or a call it makes. -/
inductive Run : System → System → Prop where
  | instruction {s : System} {m : Machine} (hstopped : s.stopped = false)
      (hcalls : ∀ scancode, ¬ s.machine.Calls scancode) (hstep : s.machine.Instruction m) :
      Run s { s with machine := m }
  | call {s : System} {event : KeyEvent} (hstopped : s.stopped = false)
      (hcalls : s.machine.Calls event.scancode) : Run s (s.call event)

inductive Step (s s' : System) : Prop where
  | interrupt (hinterrupt : Interrupt s s')
  | run (hrun : Run s s')

def Reachable (hasScrollWheel : Bool) (vga : Vga) (s : System) : Prop :=
  Relation.ReflTransGen Step (boot hasScrollWheel vga) s

/-- The result of the calls of `handle_scancode` so far. -/
def outcome (s : System) : Except Kernel Kernel :=
  if s.stopped then .error s.kernel else .ok s.kernel

/-- The calls whose scancode came from the keyboard: the scancodes are called in the order they
were pushed in. -/
def keyboardCalls (s : System) : List KeyEvent :=
  ((s.called.zip s.pushed).filter fun entry => entry.2.2 = .keyboard).map Prod.fst

end System

/-! ### What an interrupt does to the main loop -/

/-- A packet of the mouse becomes at most one scancode. -/
theorem Mouse.scancodes_interruptHandler (m : Mouse) (ports : MousePorts) :
    MouseAction.scancodes (m.interruptHandler ports).2 = [] ∨
      ∃ scancode, MouseAction.scancodes (m.interruptHandler ports).2 = [scancode] ∧
        (scancode = keyUp ∨ scancode = keyDown) := by
  have hwheel : ∀ m : Mouse, MouseAction.scancodes m.pushWheel = [] ∨
      ∃ scancode, MouseAction.scancodes m.pushWheel = [scancode] ∧
        (scancode = keyUp ∨ scancode = keyDown) := by
    intro m
    rw [Mouse.pushWheel]
    dsimp only
    split_ifs
    · exact Or.inr ⟨_, rfl, Or.inl rfl⟩
    · exact Or.inr ⟨_, rfl, Or.inr rfl⟩
    · exact Or.inl rfl
    · exact Or.inl rfl
  rw [Mouse.interruptHandler]
  dsimp only
  split_ifs
  · exact Or.inl rfl
  · exact Or.inl rfl
  · exact Or.inl rfl
  · rw [MouseAction.scancodes, List.filterMap_append]
    exact hwheel _

namespace System

variable {s s' : System} {hasScrollWheel : Bool} {vga : Vga} {event : KeyEvent}

/-- A mouse interrupt is one for the main loop with the scancode it pushes, if any. -/
theorem mouseInterrupt_eq (ports : MousePorts) (s : System) :
    let mouse := (s.mouse.interruptHandler ports).1
    s.mouseInterrupt ports = { s.wake with mouse := mouse } ∨
      ∃ scancode, (scancode = keyUp ∨ scancode = keyDown) ∧
        s.mouseInterrupt ports = ({ s.wake with mouse := mouse } : System).push .mouse scancode := by
  dsimp only
  rw [mouseInterrupt]
  dsimp only
  rcases s.mouse.scancodes_interruptHandler ports with hnone | ⟨scancode, hone, hwheel⟩
  · rw [hnone]
    exact Or.inl rfl
  · rw [hone]
    exact Or.inr ⟨scancode, hwheel, rfl⟩

/-! ### The invariant -/

/-- While every call returns: the main loop and the handlers work as they do alone, and the kernel
is where the calls made so far lead to. -/
structure Coherent (vga : Vga) (s : System) : Prop where
  machine : s.machine.Reachable
  stopped : s.stopped = false
  pushed : s.pushed.map Prod.fst = s.machine.queue.accepted
  wheel : ∀ entry ∈ s.pushed, entry.2 = .mouse → entry.1 = keyUp ∨ entry.1 = keyDown
  called : s.called.map KeyEvent.scancode = s.machine.queue.handled
  kernel : (Kernel.boot vga).handleAll s.called = .ok s.kernel

/-- What holds after any number of steps: the last call may be one that does not return. -/
inductive Coherently (vga : Vga) : System → Prop where
  | running {s : System} (hcoherent : s.Coherent vga) : Coherently vga s
  | stopped {s : System} (hcoherent : s.Coherent vga) {event : KeyEvent}
      (hcalls : s.machine.Calls event.scancode) {k : Kernel}
      (hhandle : s.kernel.handle event = .error k) : Coherently vga (s.call event)

theorem boot_coherent (hasScrollWheel : Bool) (vga : Vga) :
    (boot hasScrollWheel vga).Coherent vga := by
  refine ⟨.refl, rfl, rfl, ?_, rfl, rfl⟩
  intro entry hentry
  cases hentry

theorem wake_coherent (hcoherent : s.Coherent vga) (hflag : s.machine.interruptFlag = true)
    (hshadow : s.machine.shadow = false) : s.wake.Coherent vga :=
  { hcoherent with machine := hcoherent.machine.tail (.interrupt hflag hshadow none) }

theorem push_coherent (hcoherent : s.Coherent vga) (hflag : s.machine.interruptFlag = true)
    (hshadow : s.machine.shadow = false) (origin : Origin) {scancode : UInt8}
    (hwheel : origin = .mouse → scancode = keyUp ∨ scancode = keyDown) :
    (s.wake.push origin scancode).Coherent vga := by
  obtain ⟨hmachine, hstopped, hpushed, hwheels, hcalled, hkernel⟩ := hcoherent
  refine ⟨hmachine.tail (.interrupt hflag hshadow (some scancode)), hstopped, ?_, ?_, hcalled,
    hkernel⟩
  · change (if s.machine.queue.buffer.Full then s.pushed else s.pushed ++ [(scancode, origin)]).map
        Prod.fst
      = if s.machine.queue.buffer.Full then s.machine.queue.accepted
        else s.machine.queue.accepted ++ [scancode]
    rw [apply_ite (List.map Prod.fst), List.map_append, hpushed]
    rfl
  · intro entry hentry horigin
    change entry ∈ (if s.machine.queue.buffer.Full then s.pushed
      else s.pushed ++ [(scancode, origin)]) at hentry
    split at hentry
    · exact hwheels entry hentry horigin
    · rcases List.mem_append.mp hentry with hbefore | hlast
      · exact hwheels entry hbefore horigin
      · obtain rfl := List.mem_singleton.mp hlast
        exact hwheel horigin

theorem interrupt_coherent (hcoherent : s.Coherent vga) (hinterrupt : Interrupt s s') :
    s'.Coherent vga := by
  cases hinterrupt with
  | keyboard hflag hshadow scancode =>
      exact push_coherent hcoherent hflag hshadow .keyboard Origin.noConfusion
  | mouse hflag hshadow ports =>
      have hmoved : ∀ mouse, ({ s with mouse := mouse } : System).Coherent vga := by
        intro mouse
        exact ⟨hcoherent.machine, hcoherent.stopped, hcoherent.pushed, hcoherent.wheel,
          hcoherent.called, hcoherent.kernel⟩
      rcases s.mouseInterrupt_eq ports with hnone | ⟨scancode, hwheel, hone⟩
      · rw [hnone]
        exact wake_coherent (hmoved (s.mouse.interruptHandler ports).1) hflag hshadow
      · rw [hone]
        exact push_coherent (hmoved (s.mouse.interruptHandler ports).1) hflag hshadow .mouse fun _ => hwheel
  | other hflag hshadow => exact wake_coherent hcoherent hflag hshadow

theorem instruction_ghosts {m m' : Machine} (hstep : m.Instruction m')
    (hcalls : ∀ scancode, ¬ m.Calls scancode) :
    m'.queue.accepted = m.queue.accepted ∧ m'.queue.handled = m.queue.handled := by
  cases hstep with
  | handleInput hpoint hqueue headFirst =>
      rename_i point
      cases point with
      | test point =>
          rw [Machine.handleInput, KeyQueue.handleInput]
          rcases point.next headFirst m.queue.buffer with point | _ | _
          · exact ⟨rfl, rfl⟩
          · exact ⟨rfl, rfl⟩
          · exact ⟨rfl, rfl⟩
      | call scancode => exact absurd ⟨hpoint, hqueue⟩ (hcalls scancode)
      | readIndex => exact ⟨rfl, rfl⟩
      | readSlot index => exact ⟨rfl, rfl⟩
      | readTail scancode => exact ⟨rfl, rfl⟩
      | writeTail scancode tail => exact ⟨rfl, rfl⟩
  | hasInput hpoint hqueue headFirst =>
      rename_i point
      rw [Machine.hasInput, KeyQueue.hasInput]
      rcases point.next headFirst m.queue.buffer with point | result
      · exact ⟨rfl, rfl⟩
      · exact ⟨rfl, rfl⟩
  | cli hpoint => exact ⟨rfl, rfl⟩
  | sti hpoint => exact ⟨rfl, rfl⟩
  | hlt hpoint => exact ⟨rfl, rfl⟩
  | lastSti hpoint => exact ⟨rfl, rfl⟩

theorem instruction_coherent (hcoherent : s.Coherent vga) {m : Machine}
    (hcalls : ∀ scancode, ¬ s.machine.Calls scancode) (hstep : s.machine.Instruction m) :
    ({ s with machine := m } : System).Coherent vga := by
  obtain ⟨haccepted, hhandled⟩ := instruction_ghosts hstep hcalls
  refine ⟨hcoherent.machine.tail hstep.step, hcoherent.stopped, ?_, hcoherent.wheel, ?_,
    hcoherent.kernel⟩
  · exact hcoherent.pushed.trans haccepted.symm
  · exact hcoherent.called.trans hhandled.symm

theorem call_coherent (hcoherent : s.Coherent vga) (hcalls : s.machine.Calls event.scancode)
    {k : Kernel} (hhandle : s.kernel.handle event = .ok k) : (s.call event).Coherent vga := by
  have hcall : s.call event = { s with
      machine := s.machine.handleInput true (.call event.scancode)
      kernel := k
      called := s.called ++ [event] } := by
    rw [call, hhandle]
  rw [hcall]
  refine ⟨hcoherent.machine.tail (.handleInput hcalls.1 hcalls.2 true), hcoherent.stopped,
    hcoherent.pushed, hcoherent.wheel, ?_, ?_⟩
  · calc (s.called ++ [event]).map KeyEvent.scancode
        = s.called.map KeyEvent.scancode ++ [event.scancode] := List.map_append
      _ = s.machine.queue.handled ++ [event.scancode] := by rw [hcoherent.called]
  · exact foldlM_concat_ok.mpr ⟨s.kernel, hcoherent.kernel, hhandle⟩

theorem call_stopped {k : Kernel} (hhandle : s.kernel.handle event = .error k) :
    s.call event = { s with
      machine := { s.machine with interruptFlag := false }
      kernel := k
      stopped := true
      called := s.called ++ [event] } := by
  rw [call, hhandle]

theorem call_called (event : KeyEvent) (s : System) :
    (s.call event).called = s.called ++ [event] := by
  rw [call]
  cases s.kernel.handle event with
  | ok k => rfl
  | error k => rfl

theorem call_pushed (event : KeyEvent) (s : System) : (s.call event).pushed = s.pushed := by
  rw [call]
  cases s.kernel.handle event with
  | ok k => rfl
  | error k => rfl

theorem not_step_of_stopped {k : Kernel} (hhandle : s.kernel.handle event = .error k) :
    ¬ Step (s.call event) s' := by
  rw [call_stopped hhandle]
  intro hstep
  cases hstep with
  | interrupt hinterrupt =>
      cases hinterrupt with
      | keyboard hflag => cases hflag
      | mouse hflag => cases hflag
      | other hflag => cases hflag
  | run hrun =>
      cases hrun with
      | instruction hstopped => cases hstopped
      | call hstopped => cases hstopped

theorem step_coherently (hcoherently : Coherently vga s) (hstep : Step s s') :
    Coherently vga s' := by
  cases hcoherently with
  | stopped hcoherent hcalls hhandle => exact absurd hstep (not_step_of_stopped hhandle)
  | running hcoherent =>
      cases hstep with
      | interrupt hinterrupt => exact .running (interrupt_coherent hcoherent hinterrupt)
      | run hrun =>
          cases hrun with
          | instruction hstopped hcalls hstep =>
              exact .running (instruction_coherent hcoherent hcalls hstep)
          | call hstopped hcalls =>
              rename_i event
              cases hhandle : s.kernel.handle event with
              | ok k => exact .running (call_coherent hcoherent hcalls hhandle)
              | error k => exact .stopped hcoherent hcalls hhandle

theorem reachable_coherently (hreachable : s.Reachable hasScrollWheel vga) : Coherently vga s := by
  induction hreachable with
  | refl => exact .running (boot_coherent hasScrollWheel vga)
  | tail _ hstep ih => exact step_coherently ih hstep

/-! ### The calls so far, and what waits -/

theorem Coherently.outcome (hcoherently : Coherently vga s) :
    (Kernel.boot vga).handleAll s.called = s.outcome := by
  cases hcoherently with
  | running hcoherent =>
      rw [System.outcome, hcoherent.stopped, hcoherent.kernel]
      rfl
  | stopped hcoherent hcalls hhandle =>
      rename_i s event k
      rw [call_stopped hhandle]
      change (Kernel.boot vga).handleAll (s.called ++ [event]) = .error k
      rw [Kernel.handleAll, List.foldlM_append]
      have hkernel := hcoherent.kernel
      rw [Kernel.handleAll] at hkernel
      rw [hkernel]
      change (s.kernel.handle event >>= fun k => .ok k) = .error k
      rw [hhandle]
      rfl

/-- The scancodes that were called first, then those that wait: none when the processor is
stopped. -/
theorem Coherently.waiting (hcoherently : Coherently vga s) :
    ∃ waiting : List UInt8, waiting.length ≤ 128 ∧
      s.pushed.map Prod.fst = s.called.map KeyEvent.scancode ++ waiting ∧
      (s.machine.point = .halted → waiting = []) := by
  have hlossless : ∀ {s : System}, s.Coherent vga → s.machine.queue.Lossless := by
    intro s hcoherent
    exact KeyQueue.reachable_lossless (Machine.reachable_consistent hcoherent.machine).queue
  have hlength : ∀ {b : KeyBuffer} (hbounded : b.Bounded),
      (b.ring hbounded).contents.length ≤ 127 := by
    intro b hbounded
    have hlt : (b.ring hbounded).count < keyBufferSize := Nat.mod_lt _ (by decide)
    rw [Ring.length_contents]
    exact Nat.le_of_lt_succ hlt
  cases hcoherently with
  | running hcoherent =>
      obtain ⟨hbounded, haccepted, -, -⟩ := hlossless hcoherent
      refine ⟨s.machine.queue.inHand ++ (s.machine.queue.buffer.ring hbounded).contents, ?_, ?_, ?_⟩
      · have hhand : s.machine.queue.inHand.length ≤ 1 := by
          rw [KeyQueue.inHand]
          split <;> simp
        rw [List.length_append]
        exact Nat.add_le_add hhand (hlength hbounded)
      · rw [hcoherent.pushed, hcoherent.called, haccepted, List.append_assoc]
      · intro hhalted
        have hholds := (Machine.reachable_consistent hcoherent.machine).point
        rw [hhalted] at hholds
        have hhand : s.machine.queue.inHand = [] := by
          rw [KeyQueue.inHand, hholds.1]
        rw [hhand, (KeyBuffer.empty_iff hbounded).mp hholds.2.2]
        rfl
  | stopped hcoherent hcalls hhandle =>
      rename_i s event k
      obtain ⟨hbounded, haccepted, -, -⟩ := hlossless hcoherent
      have hhand : s.machine.queue.inHand = [event.scancode] := by
        rw [KeyQueue.inHand, hcalls.2]
      rw [call_stopped hhandle]
      refine ⟨(s.machine.queue.buffer.ring hbounded).contents,
        (hlength hbounded).trans (Nat.le_succ _), ?_, ?_⟩
      · calc s.pushed.map Prod.fst
            = s.machine.queue.handled ++ s.machine.queue.inHand
              ++ (s.machine.queue.buffer.ring hbounded).contents :=
              hcoherent.pushed.trans haccepted
          _ = (s.called ++ [event]).map KeyEvent.scancode
              ++ (s.machine.queue.buffer.ring hbounded).contents := by
              rw [hhand, ← hcoherent.called, List.map_append]
              rfl
      · intro hhalted
        exact absurd (hcalls.1.symm.trans hhalted) MainPoint.noConfusion

/-! ### The mouse only scrolls -/

/-- The calls that the mouse is not the cause of, among all calls. -/
theorem inserted_of_wheel (called : List KeyEvent) (pushed : List (UInt8 × Origin))
    (hstart : called.map KeyEvent.scancode <+: pushed.map Prod.fst)
    (hwheel : ∀ entry ∈ pushed, entry.2 = .mouse → entry.1 = keyUp ∨ entry.1 = keyDown) :
    let typed := ((called.zip pushed).filter fun entry => entry.2.2 = .keyboard).map Prod.fst
    ScrollsInserted typed called ∧ typed.map KeyEvent.scancode
      <+: (pushed.filter fun entry => entry.2 = .keyboard).map Prod.fst := by
  induction called generalizing pushed with
  | nil => exact ⟨.nil, List.nil_prefix⟩
  | cons event called ih =>
      cases pushed with
      | nil => exact absurd (List.prefix_nil.mp hstart) (List.cons_ne_nil _ _)
      | cons entry pushed =>
          obtain ⟨scancode, origin⟩ := entry
          obtain ⟨hfirst, hrest⟩ := List.cons_prefix_cons.mp hstart
          obtain ⟨hinserted, hkept⟩ := ih pushed hrest fun entry hentry =>
            hwheel entry (List.mem_cons_of_mem _ hentry)
          cases origin with
          | keyboard =>
              refine ⟨.key event hinserted, ?_⟩
              exact List.cons_prefix_cons.mpr ⟨hfirst, hkept⟩
          | mouse =>
              have hscroll := hwheel (scancode, .mouse) List.mem_cons_self rfl
              refine ⟨.scroll event ?_ hinserted, hkept⟩
              rcases hscroll with hup | hdown
              · exact Or.inl (hfirst.trans hup)
              · exact Or.inr (hfirst.trans hdown)

theorem Coherently.wheel (hcoherently : Coherently vga s) :
    ∀ entry ∈ s.pushed, entry.2 = .mouse → entry.1 = keyUp ∨ entry.1 = keyDown := by
  cases hcoherently with
  | running hcoherent => exact hcoherent.wheel
  | stopped hcoherent hcalls hhandle =>
      rw [call_stopped hhandle]
      exact hcoherent.wheel

/-! ### A run -/

def blankVga : Vga := ⟨fun _ => 0, 0, fun _ => 0, fun _ => 0⟩

/-- The wheel is turned, then a key is pressed, while the loop tests the buffer. -/
def scrolledTest : System :=
  let s := boot true blankVga
  let s := { s with machine := s.machine.lastSti.handleInput false (.test .start) }
  let s := (((s.mouseInterrupt ⟨0x21, 0x08⟩).mouseInterrupt ⟨0x21, 0⟩).mouseInterrupt
    ⟨0x21, 0⟩).mouseInterrupt ⟨0x21, 0x01⟩
  s.keyboardInterrupt 0x1E

/-- A step of `keyboard_handle_input`. -/
def handleInput (point : InputPoint) (s : System) : System :=
  { s with machine := s.machine.handleInput false point }

/-- The loop takes the scancode of the wheel out and calls `handle_scancode`. -/
def scrolledCall : System :=
  let s := (scrolledTest.handleInput (.test (.readTail 0))).handleInput .readIndex
  let s := ((s.handleInput (.readSlot 0)).handleInput (.readTail 0x50)).handleInput
    (.writeTail 0x50 0)
  s.call ⟨0x50, ⟨[], [], true, true⟩⟩

theorem handleInput_reachable {point : InputPoint} (hreachable : s.Reachable hasScrollWheel vga)
    (hstopped : s.stopped = false) (hpoint : s.machine.point = .handleInput)
    (hqueue : s.machine.queue.point = .handleInput point)
    (hcall : ∀ scancode, point ≠ .call scancode) :
    (s.handleInput point).Reachable hasScrollWheel vga := by
  refine hreachable.tail (.run (.instruction hstopped (fun scancode hcalls => ?_)
    (.handleInput hpoint hqueue false)))
  exact hcall scancode (ConsumerPoint.handleInput.inj (hqueue.symm.trans hcalls.2))

theorem scrolledTest_reachable : scrolledTest.Reachable true blankVga := by
  have hsti : ({ boot true blankVga with machine := Machine.boot.lastSti } : System).Reachable
      true blankVga :=
    Relation.ReflTransGen.refl.tail (.run
      (.instruction rfl (fun _ hcalls => MainPoint.noConfusion hcalls.1) (.lastSti rfl)))
  have hstarted := handleInput_reachable hsti rfl rfl rfl nofun
  have hmouse : ∀ {s : System} (ports : MousePorts), s.Reachable true blankVga →
      s.machine.interruptFlag = true → s.machine.shadow = false →
      (s.mouseInterrupt ports).Reachable true blankVga := by
    intro s ports hreachable hflag hshadow
    exact hreachable.tail (.interrupt (.mouse hflag hshadow ports))
  have hfirst := hmouse ⟨0x21, 0x08⟩ hstarted rfl rfl
  have hsecond := hmouse ⟨0x21, 0⟩ hfirst (by decide +kernel) (by decide +kernel)
  have hthird := hmouse ⟨0x21, 0⟩ hsecond (by decide +kernel) (by decide +kernel)
  have hfourth := hmouse ⟨0x21, 0x01⟩ hthird (by decide +kernel) (by decide +kernel)
  exact hfourth.tail (.interrupt (.keyboard (by decide +kernel) (by decide +kernel) 0x1E))

theorem scrolledCall_reachable : scrolledCall.Reachable true blankVga := by
  have htest := @handleInput_reachable _ _ _ (.test (.readTail 0)) scrolledTest_reachable
    (by decide +kernel) (by decide +kernel) (by decide +kernel) nofun
  have hindex := @handleInput_reachable _ _ _ .readIndex htest
    (by decide +kernel) (by decide +kernel) (by decide +kernel) nofun
  have hslot := @handleInput_reachable _ _ _ (.readSlot 0) hindex
    (by decide +kernel) (by decide +kernel) (by decide +kernel) nofun
  have htail := @handleInput_reachable _ _ _ (.readTail 0x50) hslot
    (by decide +kernel) (by decide +kernel) (by decide +kernel) nofun
  have hcall := @handleInput_reachable _ _ _ (.writeTail 0x50 0) htail
    (by decide +kernel) (by decide +kernel) (by decide +kernel) nofun
  refine hcall.tail (.run (@Run.call _ ⟨0x50, ⟨[], [], true, true⟩⟩ ?_ ⟨?_, ?_⟩)) <;> decide +kernel

/-! ### Every run is a sequential one -/

/-- Whatever the interleaving of the interrupts and the main loop, the kernel is where handling the
stored scancodes one after another leads to: those called so far are the first ones stored, at most
128 wait, and none waits when the processor is stopped. -/
theorem system_is_sequential (hreachable : s.Reachable hasScrollWheel vga) :
    (Kernel.boot vga).handleAll s.called = s.outcome ∧
      ∃ waiting : List UInt8, waiting.length ≤ 128 ∧
        s.pushed.map Prod.fst = s.called.map KeyEvent.scancode ++ waiting ∧
        (s.machine.point = .halted → waiting = []) :=
  ⟨(reachable_coherently hreachable).outcome, (reachable_coherently hreachable).waiting⟩

theorem scrolledCall_called : scrolledCall.called = keys [0x50] :=
  call_called ⟨0x50, ⟨[], [], true, true⟩⟩ _

theorem scrolledCall_pushed : scrolledCall.pushed = [(0x50, .mouse), (0x1E, .keyboard)] := by
  refine (call_pushed ⟨0x50, ⟨[], [], true, true⟩⟩ _).trans ?_
  decide +kernel

/-- The scancode of the wheel is handled, and that of the key waits. -/
theorem system_is_sequential_scrolled :
    (Kernel.boot blankVga).handleAll (keys [0x50]) = scrolledCall.outcome ∧
      scrolledCall.pushed = [(0x50, .mouse), (0x1E, .keyboard)] := by
  obtain ⟨houtcome, -⟩ := system_is_sequential scrolledCall_reachable
  rw [scrolledCall_called] at houtcome
  exact ⟨houtcome, scrolledCall_pushed⟩

/-- The mouse cannot change what the kernel does: handling the scancodes of the keyboard alone, in
the order they were stored in, leads to a state that differs at most in the scroll positions and the
video state, and returns if and only if the kernel has not stopped. -/
theorem mouse_only_scrolls (hreachable : s.Reachable hasScrollWheel vga) :
    s.keyboardCalls.map KeyEvent.scancode
        <+: (s.pushed.filter fun entry => entry.2 = .keyboard).map Prod.fst ∧
      Both SameButScroll SameButScroll ((Kernel.boot vga).handleAll s.keyboardCalls) s.outcome := by
  have hcoherently := reachable_coherently hreachable
  obtain ⟨waiting, -, hpushed, -⟩ := hcoherently.waiting
  obtain ⟨hinserted, hkept⟩ :=
    inserted_of_wheel s.called s.pushed ⟨waiting, hpushed.symm⟩ hcoherently.wheel
  refine ⟨hkept, ?_⟩
  rw [← hcoherently.outcome]
  have hboot := boot_represents vga
  refine (handleAll_together hinserted hboot hboot).mono ?_ (fun _ _ hsame => hsame)
  rintro k k' ⟨a, hrepresents, hrepresents'⟩
  exact hrepresents.same hrepresents'

/-- The key still waits: what the kernel has done is as if nothing had happened, but for the
scroll position. -/
theorem mouse_only_scrolls_scrolled :
    Both SameButScroll SameButScroll ((Kernel.boot blankVga).handleAll []) scrolledCall.outcome := by
  have hnone : scrolledCall.keyboardCalls = [] := by
    rw [keyboardCalls, scrolledCall_called, scrolledCall_pushed]
    rfl
  have hboth := (mouse_only_scrolls scrolledCall_reachable).2
  rw [hnone] at hboth
  exact hboth

end System

end KernelFromScratch
