import KernelFromScratch.KeyBuffer

/-!
# The main loop

The loop of `kernel_main` around the key buffer. Interrupts come between any two instructions while
the interrupt flag is set, except right after the `sti` that set it: as on x86, the instruction after
that one is executed first.
-/

namespace KernelFromScratch

/-- The next instruction of the loop of `kernel_main`. -/
inductive MainPoint where
  /-- In `keyboard_handle_input()`. -/
  | handleInput
  | cli
  /-- In the `keyboard_has_input()` of the condition. -/
  | hasInput
  /-- The `sti` of `sti; hlt`. -/
  | sti
  | hlt
  /-- Stopped in that `hlt`. -/
  | halted
  /-- The last `sti`; the one before the loop leads to the same place. -/
  | lastSti
  deriving DecidableEq

structure Machine where
  queue : KeyQueue
  point : MainPoint
  interruptFlag : Bool
  /-- The last instruction was the `sti` that set the flag. -/
  shadow : Bool

namespace Machine

/-- Before the `sti` in front of the loop. -/
def boot : Machine := ⟨.boot, .lastSti, false, false⟩

/-- A handler runs and pushes a scancode, or none; a stopped processor goes on. -/
def interrupt (scancode : Option UInt8) (m : Machine) : Machine :=
  { m with
    queue := scancode.elim m.queue fun scancode => m.queue.push scancode
    point := if m.point = .halted then .lastSti else m.point }

/-- An access of `keyboard_handle_input`, or its call of `handle_scancode`. -/
def handleInput (headFirst : Bool) (point : InputPoint) (m : Machine) : Machine :=
  let queue := m.queue.handleInput headFirst point
  { m with
    queue := queue
    point := if queue.point = .outside then .cli else .handleInput
    shadow := false }

def cli (m : Machine) : Machine :=
  { queue := { m.queue with point := .hasInput .start }
    point := .hasInput
    interruptFlag := false
    shadow := false }

/-- Where the condition of the `if` leads to. -/
def afterTest : TestPoint ⊕ Bool → MainPoint
  | .inl _ => .hasInput
  | .inr true => .lastSti
  | .inr false => .sti

/-- An access of `keyboard_has_input`. -/
def hasInput (headFirst : Bool) (point : TestPoint) (m : Machine) : Machine :=
  { m with
    queue := m.queue.hasInput headFirst point
    point := afterTest (point.next headFirst m.queue.buffer)
    shadow := false }

def sti (m : Machine) : Machine :=
  { m with point := .hlt, interruptFlag := true, shadow := !m.interruptFlag }

def hlt (m : Machine) : Machine := { m with point := .halted, shadow := false }

/-- The last `sti`, and the call of `keyboard_handle_input` after it: its shadow ends with the call. -/
def lastSti (m : Machine) : Machine :=
  { queue := { m.queue with point := .handleInput (.test .start) }
    point := .handleInput
    interruptFlag := true
    shadow := false }

inductive Step : Machine → Machine → Prop where
  | interrupt {m : Machine} (hflag : m.interruptFlag = true) (hshadow : m.shadow = false)
      (scancode : Option UInt8) : Step m (m.interrupt scancode)
  | handleInput {m : Machine} {point : InputPoint} (hpoint : m.point = .handleInput)
      (hqueue : m.queue.point = .handleInput point) (headFirst : Bool) :
      Step m (m.handleInput headFirst point)
  | cli {m : Machine} (hpoint : m.point = .cli) : Step m m.cli
  | hasInput {m : Machine} {point : TestPoint} (hpoint : m.point = .hasInput)
      (hqueue : m.queue.point = .hasInput point) (headFirst : Bool) :
      Step m (m.hasInput headFirst point)
  | sti {m : Machine} (hpoint : m.point = .sti) : Step m m.sti
  | hlt {m : Machine} (hpoint : m.point = .hlt) : Step m m.hlt
  | lastSti {m : Machine} (hpoint : m.point = .lastSti) : Step m m.lastSti

def Reachable (m : Machine) : Prop := Relation.ReflTransGen Step boot m

end Machine

/-! ### What holds at each point -/

/-- Nothing was pushed since the first read of `keyboard_has_input`. -/
def TestPoint.Fresh (b : KeyBuffer) : TestPoint → Prop
  | .start => True
  | .readHead head => head = b.head
  | .readTail tail => tail = b.tail

theorem TestPoint.next_fresh {b : KeyBuffer} {point : TestPoint} (hfresh : point.Fresh b)
    (headFirst : Bool) :
    (∃ point', point.next headFirst b = .inl point' ∧ point'.Fresh b) ∨
      point.next headFirst b = .inr (b.head != b.tail) := by
  cases point with
  | start =>
      left
      cases headFirst with
      | true => exact ⟨_, rfl, rfl⟩
      | false => exact ⟨_, rfl, rfl⟩
  | readHead head =>
      obtain rfl : head = b.head := hfresh
      exact Or.inr rfl
  | readTail tail =>
      obtain rfl : tail = b.tail := hfresh
      exact Or.inr rfl

theorem KeyQueue.handleInput_point (headFirst : Bool) (point : InputPoint) (s : KeyQueue) :
    (s.handleInput headFirst point).point = .outside ∨
      ∃ point', (s.handleInput headFirst point).point = .handleInput point' := by
  cases point with
  | test point =>
      rw [KeyQueue.handleInput]
      cases point.next headFirst s.buffer with
      | inl point => exact Or.inr ⟨_, rfl⟩
      | inr result =>
          cases result with
          | true => exact Or.inr ⟨_, rfl⟩
          | false => exact Or.inl rfl
  | _ => exact Or.inr ⟨_, rfl⟩

/-- What holds of the rest of the machine at each point. -/
def MainPoint.Holds (queue : KeyQueue) (interruptFlag shadow : Bool) : MainPoint → Prop
  | .handleInput => interruptFlag = true ∧ ∃ point, queue.point = .handleInput point
  | .cli => queue.point = .outside
  | .hasInput => interruptFlag = false ∧
      ∃ point, queue.point = .hasInput point ∧ point.Fresh queue.buffer
  | .sti => queue.point = .outside ∧ interruptFlag = false ∧ queue.buffer.head = queue.buffer.tail
  | .hlt => queue.point = .outside ∧ interruptFlag = true ∧ shadow = true ∧
      queue.buffer.head = queue.buffer.tail
  | .halted => queue.point = .outside ∧ interruptFlag = true ∧
      queue.buffer.head = queue.buffer.tail
  | .lastSti => queue.point = .outside

namespace Machine

variable {m m' : Machine}

structure Consistent (m : Machine) : Prop where
  queue : m.queue.Reachable
  point : m.point.Holds m.queue m.interruptFlag m.shadow

theorem boot_consistent : boot.Consistent := ⟨.refl, rfl⟩

theorem interrupt_consistent (hconsistent : m.Consistent) (hflag : m.interruptFlag = true)
    (hshadow : m.shadow = false) (scancode : Option UInt8) : (m.interrupt scancode).Consistent := by
  obtain ⟨queue, point, interruptFlag, shadow⟩ := m
  obtain ⟨hqueue, hpoint⟩ := hconsistent
  simp only at hflag hshadow hqueue hpoint
  subst hflag hshadow
  have hsame : ((⟨queue, point, true, false⟩ : Machine).interrupt scancode).queue.point
      = queue.point := by
    cases scancode with
    | none => rfl
    | some scancode => rfl
  constructor
  · cases scancode with
    | none => exact hqueue
    | some scancode => exact hqueue.tail (.push scancode queue)
  · cases point with
    | handleInput =>
        obtain ⟨-, inside, hinside⟩ := hpoint
        exact ⟨rfl, inside, hsame.trans hinside⟩
    | cli => exact hsame.trans hpoint
    | hasInput => exact absurd hpoint.1.symm Bool.false_ne_true
    | sti => exact absurd hpoint.2.1.symm Bool.false_ne_true
    | hlt => exact absurd hpoint.2.2.1 Bool.false_ne_true
    | halted => exact hsame.trans hpoint.1
    | lastSti => exact hsame.trans hpoint

theorem handleInput_consistent (hconsistent : m.Consistent) (hpoint : m.point = .handleInput)
    {point : InputPoint} (hqueue : m.queue.point = .handleInput point) (headFirst : Bool) :
    (m.handleInput headFirst point).Consistent := by
  obtain ⟨hreachable, hholds⟩ := hconsistent
  rw [hpoint] at hholds
  have hstep : (m.queue.handleInput headFirst point).Reachable :=
    hreachable.tail (.handleInput hqueue headFirst)
  refine ⟨hstep, ?_⟩
  rcases KeyQueue.handleInput_point headFirst point m.queue with houtside | ⟨inside, hinside⟩
  · have hnext : (m.handleInput headFirst point).point = .cli := if_pos houtside
    rw [hnext]
    exact houtside
  · have hne : (m.queue.handleInput headFirst point).point ≠ .outside := by
      rw [hinside]
      exact ConsumerPoint.noConfusion
    have hnext : (m.handleInput headFirst point).point = .handleInput := if_neg hne
    rw [hnext]
    exact ⟨hholds.1, inside, hinside⟩

theorem hasInput_consistent (hconsistent : m.Consistent) (hpoint : m.point = .hasInput)
    {point : TestPoint} (hqueue : m.queue.point = .hasInput point) (headFirst : Bool) :
    (m.hasInput headFirst point).Consistent := by
  obtain ⟨hreachable, hholds⟩ := hconsistent
  rw [hpoint] at hholds
  obtain ⟨hflag, inside, hinside, hfresh⟩ := hholds
  have hstep : (m.queue.hasInput headFirst point).Reachable :=
    hreachable.tail (.hasInput hqueue headFirst)
  obtain rfl : inside = point := ConsumerPoint.hasInput.inj (hinside.symm.trans hqueue)
  refine ⟨hstep, ?_⟩
  rcases inside.next_fresh hfresh headFirst with ⟨inside', hnext, hfresh'⟩ | hnext
  · have hafter : m.hasInput headFirst inside
        = ⟨{ m.queue with point := .hasInput inside' }, .hasInput, m.interruptFlag, false⟩ := by
      simp only [hasInput, KeyQueue.hasInput, hnext, afterTest]
    rw [hafter]
    exact ⟨hflag, inside', rfl, hfresh'⟩
  · by_cases hempty : m.queue.buffer.head = m.queue.buffer.tail
    · have hafter : m.hasInput headFirst inside
          = ⟨{ m.queue with point := .outside }, .sti, m.interruptFlag, false⟩ := by
        simp only [hasInput, KeyQueue.hasInput, hnext, bne_eq_false_iff_eq.mpr hempty, afterTest]
      rw [hafter]
      exact ⟨rfl, hflag, hempty⟩
    · have hafter : m.hasInput headFirst inside
          = ⟨{ m.queue with point := .outside }, .lastSti, m.interruptFlag, false⟩ := by
        simp only [hasInput, KeyQueue.hasInput, hnext, bne_iff_ne.mpr hempty, afterTest]
      rw [hafter]
      exact rfl

theorem step_consistent (hconsistent : m.Consistent) (hstep : Step m m') : m'.Consistent := by
  cases hstep with
  | interrupt hflag hshadow scancode =>
      exact interrupt_consistent hconsistent hflag hshadow scancode
  | handleInput hpoint hqueue headFirst =>
      exact handleInput_consistent hconsistent hpoint hqueue headFirst
  | hasInput hpoint hqueue headFirst =>
      exact hasInput_consistent hconsistent hpoint hqueue headFirst
  | cli hpoint =>
      obtain ⟨hreachable, hholds⟩ := hconsistent
      rw [hpoint] at hholds
      exact ⟨hreachable.tail (.callHasInput hholds), rfl, .start, rfl, trivial⟩
  | sti hpoint =>
      obtain ⟨hreachable, hholds⟩ := hconsistent
      rw [hpoint] at hholds
      obtain ⟨houtside, hflag, hempty⟩ := hholds
      refine ⟨hreachable, houtside, rfl, ?_, hempty⟩
      exact congrArg not hflag
  | hlt hpoint =>
      obtain ⟨hreachable, hholds⟩ := hconsistent
      rw [hpoint] at hholds
      exact ⟨hreachable, hholds.1, hholds.2.1, hholds.2.2.2⟩
  | lastSti hpoint =>
      obtain ⟨hreachable, hholds⟩ := hconsistent
      rw [hpoint] at hholds
      exact ⟨hreachable.tail (.callHandleInput hholds), rfl, _, rfl⟩

theorem reachable_consistent (hreachable : m.Reachable) : m.Consistent := by
  induction hreachable with
  | refl => exact boot_consistent
  | tail _ hstep ih => exact step_consistent ih hstep

end Machine

/-- The kernel never sleeps on a pending key: no interrupt comes between the check of the buffer and
the `hlt`, and one that comes after wakes the processor. -/
theorem never_sleeps_on_pending_key {m : Machine} (hreachable : m.Reachable) :
    ∃ hbounded : m.queue.buffer.Bounded,
      (m.point = .hlt → (m.queue.buffer.ring hbounded).contents = []) ∧
      (m.point = .halted → (m.queue.buffer.ring hbounded).contents = [] ∧ m.interruptFlag = true) ∧
      (m.point = .handleInput → m.interruptFlag = true) := by
  obtain ⟨hqueue, hholds⟩ := Machine.reachable_consistent hreachable
  have hbounded := (KeyQueue.reachable_lossless hqueue).bounded
  have hempty := KeyBuffer.empty_iff hbounded
  refine ⟨hbounded, ?_, ?_, ?_⟩
  · intro hpoint
    rw [hpoint] at hholds
    exact hempty.mp hholds.2.2.2
  · intro hpoint
    rw [hpoint] at hholds
    exact ⟨hempty.mp hholds.2.2, hholds.2.1⟩
  · intro hpoint
    rw [hpoint] at hholds
    exact hholds.1

/-- The loop finds no key and stops. -/
def stoppedMachine : Machine :=
  (((((Machine.boot.lastSti.handleInput true (.test .start)).handleInput true
    (.test (.readHead 0))).cli.hasInput true .start).hasInput true (.readHead 0)).sti).hlt

theorem never_sleeps_on_pending_key_stopped :
    ∃ hbounded : stoppedMachine.queue.buffer.Bounded,
      (stoppedMachine.queue.buffer.ring hbounded).contents = [] ∧
        stoppedMachine.interruptFlag = true := by
  have hreachable : stoppedMachine.Reachable :=
    ((((((((Relation.ReflTransGen.refl.tail (.lastSti rfl)).tail (.handleInput rfl rfl true)).tail
      (.handleInput rfl rfl true)).tail (.cli rfl)).tail (.hasInput rfl rfl true)).tail
        (.hasInput rfl rfl true)).tail (.sti rfl)).tail (.hlt rfl))
  obtain ⟨hbounded, -, hhalted, -⟩ := never_sleeps_on_pending_key hreachable
  exact ⟨hbounded, hhalted rfl⟩

end KernelFromScratch
