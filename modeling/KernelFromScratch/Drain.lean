import KernelFromScratch.Library.Steps
import KernelFromScratch.System

/-!
# The main loop empties the buffer

Once no interrupt comes any more, the main loop handles every scancode that waits and stops the
processor, within a number of steps that their number bounds. It has no step left only there or in a
command that does not return.
-/

namespace KernelFromScratch

namespace KeyBuffer

/-- How many scancodes wait. -/
def count (b : KeyBuffer) : Nat := (b.head.toNat + keyBufferSize - b.tail.toNat) % keyBufferSize

/-- One of two numbers, the first when nothing waits. -/
def choose (b : KeyBuffer) (whenEmpty otherwise : Nat) : Nat :=
  if b.head = b.tail then whenEmpty else otherwise

theorem choose_lt (b : KeyBuffer) {x x' y y' : Nat} (hx : x < x') (hy : y < y') :
    b.choose x y < b.choose x' y' := by
  rw [choose, choose]
  split_ifs
  · exact hx
  · exact hy

theorem choose_le (b : KeyBuffer) {x y n : Nat} (hx : x ≤ n) (hy : y ≤ n) : b.choose x y ≤ n := by
  rw [choose]
  split_ifs
  · exact hx
  · exact hy

theorem length_contents {b : KeyBuffer} (hbounded : b.Bounded) :
    (b.ring hbounded).contents.length = b.count := Ring.length_contents _

theorem count_setTail {b : KeyBuffer} (hbounded : b.Bounded)
    (hcontents : (b.ring hbounded).contents ≠ []) :
    b.count = ({ b with tail := nextIndex b.tail } : KeyBuffer).count + 1 := by
  have hlength := congrArg List.length (contents_setTail hbounded hcontents)
  rw [List.length_cons, length_contents, length_contents] at hlength
  exact hlength

end KeyBuffer

/-! ### The steps that are left -/

/-- Steps until the next scancode is taken out of the buffer, or until the processor is stopped. -/
def InputPoint.rank (b : KeyBuffer) : InputPoint → Nat
  | .test .start => b.choose 7 5
  | .test (.readHead head) => if head = b.tail then b.choose 6 10 else 4
  | .test (.readTail tail) => if b.head = tail then b.choose 6 10 else 4
  | .readIndex => 3
  | .readSlot _ => 2
  | .readTail _ => 1
  | .writeTail _ _ => 0
  | .call _ => b.choose 8 6

def TestPoint.rank (b : KeyBuffer) : TestPoint → Nat
  | .start => b.choose 4 8
  | .readHead _ => b.choose 3 7
  | .readTail _ => b.choose 3 7

def ConsumerPoint.rank (b : KeyBuffer) : ConsumerPoint → Nat
  | .handleInput point => point.rank b
  | .hasInput point => point.rank b
  | .outside => 0

def MainPoint.rank (queue : KeyQueue) : MainPoint → Nat
  | .handleInput => queue.point.rank queue.buffer
  | .cli => queue.buffer.choose 5 9
  | .hasInput => queue.point.rank queue.buffer
  | .sti => 2
  | .hlt => 1
  | .halted => 0
  | .lastSti => queue.buffer.choose 8 6

theorem InputPoint.rank_le (b : KeyBuffer) (point : InputPoint) : point.rank b ≤ 10 := by
  have hchoose : ∀ {x y : Nat}, x ≤ 10 → y ≤ 10 → b.choose x y ≤ 10 := b.choose_le
  cases point with
  | test point =>
      cases point with
      | start => exact hchoose (by decide) (by decide)
      | readHead head =>
          rw [rank]
          split_ifs
          · exact hchoose (by decide) (by decide)
          · decide
      | readTail tail =>
          rw [rank]
          split_ifs
          · exact hchoose (by decide) (by decide)
          · decide
  | call scancode => exact hchoose (by decide) (by decide)
  | readIndex => exact Nat.le_of_ble_eq_true rfl
  | readSlot index => exact Nat.le_of_ble_eq_true rfl
  | readTail scancode => exact Nat.le_of_ble_eq_true rfl
  | writeTail scancode tail => exact Nat.zero_le _

theorem ConsumerPoint.rank_le (b : KeyBuffer) (point : ConsumerPoint) : point.rank b ≤ 10 := by
  cases point with
  | outside => exact Nat.zero_le _
  | hasInput point =>
      cases point with
      | start => exact b.choose_le (by decide) (by decide)
      | readHead head => exact b.choose_le (by decide) (by decide)
      | readTail tail => exact b.choose_le (by decide) (by decide)
  | handleInput point => exact point.rank_le b

theorem MainPoint.rank_le (queue : KeyQueue) (point : MainPoint) : point.rank queue ≤ 10 := by
  cases point with
  | handleInput => exact ConsumerPoint.rank_le _ _
  | hasInput => exact ConsumerPoint.rank_le _ _
  | cli => exact KeyBuffer.choose_le _ (by decide) (by decide)
  | lastSti => exact KeyBuffer.choose_le _ (by decide) (by decide)
  | sti => exact Nat.le_of_ble_eq_true rfl
  | hlt => exact Nat.le_of_ble_eq_true rfl
  | halted => exact Nat.zero_le _

namespace Machine

/-- Between two scancodes the loop makes at most eleven steps. -/
def weight (m : Machine) : Nat := 11 * m.queue.buffer.count + m.point.rank m.queue

variable {m m' : Machine}

/-- The two reads of the test of `keyboard_handle_input`. -/
theorem rank_test (hpoint : m.point = .handleInput) {point : TestPoint}
    (hqueue : m.queue.point = .handleInput (.test point)) (headFirst : Bool) :
    (m.handleInput headFirst (.test point)).weight < m.weight := by
  have hrank : m.weight
      = 11 * m.queue.buffer.count + (InputPoint.test point).rank m.queue.buffer := by
    rw [weight, hpoint, MainPoint.rank, hqueue]
    rfl
  rw [hrank]
  have hread : ∀ result, point.next headFirst m.queue.buffer = .inr result →
      (m.handleInput headFirst (.test point)).weight = 11 * m.queue.buffer.count
        + if result then 3 else m.queue.buffer.choose 5 9 := by
    intro result hnext
    rw [handleInput, KeyQueue.handleInput, hnext]
    cases result with
    | true => rfl
    | false => rfl
  cases point with
  | start =>
      cases headFirst with
      | true =>
          apply Nat.add_lt_add_left
          change (if m.queue.buffer.head = m.queue.buffer.tail then m.queue.buffer.choose 6 10 else 4)
            < m.queue.buffer.choose 7 5
          rw [KeyBuffer.choose, KeyBuffer.choose]
          split_ifs <;> decide
      | false =>
          apply Nat.add_lt_add_left
          change (if m.queue.buffer.head = m.queue.buffer.tail then m.queue.buffer.choose 6 10 else 4)
            < m.queue.buffer.choose 7 5
          rw [KeyBuffer.choose, KeyBuffer.choose]
          split_ifs <;> decide
  | readHead head =>
      rw [hread _ rfl, InputPoint.rank]
      apply Nat.add_lt_add_left
      by_cases hempty : head = m.queue.buffer.tail
      · rw [bne_eq_false_iff_eq.mpr hempty, if_pos hempty, if_neg Bool.false_ne_true]
        exact KeyBuffer.choose_lt _ (by decide) (by decide)
      · rw [bne_iff_ne.mpr hempty, if_neg hempty, if_pos rfl]
        decide
  | readTail tail =>
      rw [hread _ rfl, InputPoint.rank]
      apply Nat.add_lt_add_left
      by_cases hempty : m.queue.buffer.head = tail
      · rw [bne_eq_false_iff_eq.mpr hempty, if_pos hempty, if_neg Bool.false_ne_true]
        exact KeyBuffer.choose_lt _ (by decide) (by decide)
      · rw [bne_iff_ne.mpr hempty, if_neg hempty, if_pos rfl]
        decide

theorem weight_handleInput (hlossless : m.queue.Lossless) (hpoint : m.point = .handleInput)
    {point : InputPoint} (hqueue : m.queue.point = .handleInput point) (headFirst : Bool) :
    (m.handleInput headFirst point).weight < m.weight := by
  have hweight : m.weight = 11 * m.queue.buffer.count + point.rank m.queue.buffer := by
    rw [weight, hpoint, MainPoint.rank, hqueue]
    rfl
  cases point with
  | test point => exact rank_test hpoint hqueue headFirst
  | readIndex =>
      rw [hweight]
      exact Nat.lt_succ_self _
  | readSlot index =>
      rw [hweight]
      exact Nat.lt_succ_self _
  | readTail scancode =>
      rw [hweight]
      exact Nat.lt_succ_self _
  | call scancode =>
      rw [hweight]
      exact Nat.add_lt_add_left (KeyBuffer.choose_lt _ (by decide) (by decide)) _
  | writeTail scancode tail =>
      have hknows := hlossless.knows
      rw [hqueue] at hknows
      obtain ⟨rfl, hhead⟩ := hknows
      have hne : (m.queue.buffer.ring hlossless.bounded).contents ≠ [] := by
        intro hnil
        rw [hnil] at hhead
        cases hhead
      have hcount := KeyBuffer.count_setTail hlossless.bounded hne
      set b : KeyBuffer := { m.queue.buffer with tail := nextIndex m.queue.buffer.tail }
      have hnext : (m.handleInput headFirst (.writeTail scancode m.queue.buffer.tail)).weight
          = 11 * b.count + b.choose 8 6 := rfl
      have hle : b.choose 8 6 ≤ 8 := b.choose_le (by decide) (by decide)
      rw [hweight, hnext, hcount]
      omega

theorem instruction_weight (hconsistent : m.Consistent) (hstep : m.Instruction m') :
    m'.weight < m.weight := by
  obtain ⟨hqueue, hholds⟩ := hconsistent
  have hlossless := KeyQueue.reachable_lossless hqueue
  cases hstep with
  | handleInput hpoint hinside headFirst =>
      exact weight_handleInput hlossless hpoint hinside headFirst
  | cli hpoint =>
      rw [weight, weight, hpoint]
      exact Nat.add_lt_add_left (KeyBuffer.choose_lt _ (by decide) (by decide)) _
  | sti hpoint =>
      rw [weight, weight, hpoint]
      exact Nat.lt_succ_self _
  | hlt hpoint =>
      rw [weight, weight, hpoint]
      exact Nat.lt_succ_self _
  | lastSti hpoint =>
      rw [weight, weight, hpoint]
      exact Nat.add_lt_add_left (KeyBuffer.choose_lt _ (by decide) (by decide)) _
  | hasInput hpoint hinside headFirst =>
      rename_i point
      rw [hpoint] at hholds
      obtain ⟨-, inside, hinside', hfresh⟩ := hholds
      obtain rfl : inside = point := ConsumerPoint.hasInput.inj (hinside'.symm.trans hinside)
      have hweight : m.weight = 11 * m.queue.buffer.count + inside.rank m.queue.buffer := by
        rw [weight, hpoint, MainPoint.rank, hinside]
        rfl
      rw [hweight]
      have hlast : inside.next headFirst m.queue.buffer
            = .inr (m.queue.buffer.head != m.queue.buffer.tail) →
          (m.hasInput headFirst inside).weight
            < 11 * m.queue.buffer.count + m.queue.buffer.choose 3 7 := by
        intro hnext
        have hqueue' : (m.hasInput headFirst inside).queue = { m.queue with point := .outside } := by
          rw [hasInput, KeyQueue.hasInput, hnext]
        have hpoint' : (m.hasInput headFirst inside).point
            = afterTest (.inr (m.queue.buffer.head != m.queue.buffer.tail)) := by
          rw [hasInput, hnext]
        rw [weight, hqueue', hpoint']
        apply Nat.add_lt_add_left
        by_cases hempty : m.queue.buffer.head = m.queue.buffer.tail
        · rw [bne_eq_false_iff_eq.mpr hempty, KeyBuffer.choose, if_pos hempty]
          exact Nat.lt_succ_self _
        · rw [bne_iff_ne.mpr hempty]
          change m.queue.buffer.choose 8 6 < m.queue.buffer.choose 3 7
          rw [KeyBuffer.choose, KeyBuffer.choose, if_neg hempty, if_neg hempty]
          exact Nat.lt_succ_self _
      cases inside with
      | start =>
          cases headFirst with
          | true => exact Nat.add_lt_add_left (KeyBuffer.choose_lt _ (by decide) (by decide)) _
          | false => exact Nat.add_lt_add_left (KeyBuffer.choose_lt _ (by decide) (by decide)) _
      | readHead head =>
          obtain rfl : head = m.queue.buffer.head := hfresh
          exact hlast rfl
      | readTail tail =>
          obtain rfl : tail = m.queue.buffer.tail := hfresh
          exact hlast rfl

/-- The main loop has a step left unless the processor is stopped. -/
theorem exists_instruction (hconsistent : m.Consistent) (hhalted : m.point ≠ .halted) :
    ∃ m', m.Instruction m' := by
  have hholds := hconsistent.point
  cases hpoint : m.point with
  | handleInput =>
      rw [hpoint] at hholds
      obtain ⟨-, point, hinside⟩ := hholds
      exact ⟨_, .handleInput hpoint hinside true⟩
  | hasInput =>
      rw [hpoint] at hholds
      obtain ⟨-, point, hinside, -⟩ := hholds
      exact ⟨_, .hasInput hpoint hinside true⟩
  | cli => exact ⟨_, .cli hpoint⟩
  | sti => exact ⟨_, .sti hpoint⟩
  | hlt => exact ⟨_, .hlt hpoint⟩
  | lastSti => exact ⟨_, .lastSti hpoint⟩
  | halted => exact absurd hpoint hhalted

end Machine

/-! ### The system -/

namespace System

variable {s s' : System} {hasScrollWheel : Bool} {vga : Vga} {n : Nat}

def weight (s : System) : Nat := if s.stopped then 0 else s.machine.weight

theorem Coherent.consistent (hcoherent : s.Coherent vga) : s.machine.Consistent :=
  Machine.reachable_consistent hcoherent.machine

theorem weight_of_running (hcoherent : s.Coherent vga) : s.weight = s.machine.weight := by
  rw [weight, hcoherent.stopped, if_neg Bool.false_ne_true]

theorem Calls.instruction {m : Machine} {scancode : UInt8} (hcalls : m.Calls scancode) :
    m.Instruction (m.handleInput true (.call scancode)) :=
  .handleInput hcalls.1 hcalls.2 true

theorem run_weight (hcoherently : Coherently vga s) (hrun : Run s s') : s'.weight < s.weight := by
  cases hcoherently with
  | stopped hcoherent hcalls hhandle =>
      exact absurd (Step.run hrun) (not_step_of_stopped hhandle)
  | running hcoherent =>
      cases hrun with
      | instruction hstopped hcalls hstep =>
          rename_i m
          have hnext : ({ s with machine := m } : System).weight = m.weight :=
            weight_of_running (instruction_coherent hcoherent hcalls hstep)
          rw [weight_of_running hcoherent, hnext]
          exact Machine.instruction_weight hcoherent.consistent hstep
      | call hstopped hcalls =>
          rename_i event
          have hlt : (s.machine.handleInput true (.call event.scancode)).weight
              < s.machine.weight :=
            Machine.instruction_weight hcoherent.consistent (Calls.instruction hcalls)
          rw [weight_of_running hcoherent]
          cases hhandle : s.kernel.handle event with
          | ok k =>
              have hmachine : (s.call event).machine
                  = s.machine.handleInput true (.call event.scancode) := by
                rw [call, hhandle]
              rw [weight_of_running (call_coherent hcoherent hcalls hhandle), hmachine]
              exact hlt
          | error k =>
              have hzero : (s.call event).weight = 0 := by
                rw [call_stopped hhandle]
                rfl
              rw [hzero]
              exact Nat.zero_lt_of_lt hlt

theorem run_pushed (hrun : Run s s') : s'.pushed = s.pushed := by
  cases hrun with
  | instruction hstopped hcalls hstep => rfl
  | call hstopped hcalls => exact call_pushed _ s

theorem run_lowers (vga : Vga) (pushed : List (UInt8 × Origin)) :
    Lowers Run (fun s => Coherently vga s ∧ s.pushed = pushed) weight where
  keeps hkept hrun :=
    ⟨step_coherently hkept.1 (.run hrun), (run_pushed hrun).trans hkept.2⟩
  drops hkept hrun := run_weight hkept.1 hrun

theorem weight_le (hcoherently : Coherently vga s) :
    s.weight ≤ 11 * (s.pushed.length - s.called.length) + 10 := by
  cases hcoherently with
  | stopped hcoherent hcalls hhandle =>
      rw [call_stopped hhandle]
      exact Nat.zero_le _
  | running hcoherent =>
      obtain ⟨hbounded, haccepted, -, -⟩ :=
        KeyQueue.reachable_lossless hcoherent.consistent.queue
      have hlength : s.pushed.length
          = s.called.length + s.machine.queue.inHand.length + s.machine.queue.buffer.count := by
        have hpushed := congrArg List.length (hcoherent.pushed.trans haccepted)
        have hcalled := congrArg List.length hcoherent.called
        rw [List.length_map, List.length_append, List.length_append,
          KeyBuffer.length_contents] at hpushed
        rw [List.length_map] at hcalled
        rw [hpushed, hcalled]
      have hrank := MainPoint.rank_le s.machine.queue s.machine.point
      rw [weight_of_running hcoherent, Machine.weight]
      omega

/-- The main loop has no step left only when it has handled everything, or in a command that does
not return. -/
theorem final_iff (hcoherently : Coherently vga s) :
    Final Run s ↔ s.stopped = true ∨ s.machine.point = .halted := by
  constructor
  · intro hfinal
    cases hcoherently with
    | stopped hcoherent hcalls hhandle =>
        rw [call_stopped hhandle]
        exact Or.inl rfl
    | running hcoherent =>
        by_contra hnot
        obtain ⟨-, hhalted⟩ := not_or.mp hnot
        obtain ⟨m, hstep⟩ := Machine.exists_instruction hcoherent.consistent hhalted
        by_cases hcalls : ∃ scancode, s.machine.Calls scancode
        · obtain ⟨scancode, hcalls⟩ := hcalls
          have hrun : Run s (s.call ⟨scancode, ⟨[], [], true, true⟩⟩) := .call hcoherent.stopped hcalls
          exact hfinal _ hrun
        · exact hfinal _ (.instruction hcoherent.stopped (not_exists.mp hcalls) hstep)
  · rintro (hstopped | hhalted)
    · intro s' hrun
      cases hrun with
      | instruction hrunning => exact Bool.false_ne_true (hrunning.symm.trans hstopped)
      | call hrunning => exact Bool.false_ne_true (hrunning.symm.trans hstopped)
    · intro s' hrun
      cases hrun with
      | call hrunning hcalls => exact MainPoint.noConfusion (hcalls.1.symm.trans hhalted)
      | instruction hrunning hcalls hstep =>
          cases hstep with
          | handleInput hpoint => exact MainPoint.noConfusion (hpoint.symm.trans hhalted)
          | cli hpoint => exact MainPoint.noConfusion (hpoint.symm.trans hhalted)
          | hasInput hpoint => exact MainPoint.noConfusion (hpoint.symm.trans hhalted)
          | sti hpoint => exact MainPoint.noConfusion (hpoint.symm.trans hhalted)
          | hlt hpoint => exact MainPoint.noConfusion (hpoint.symm.trans hhalted)
          | lastSti hpoint => exact MainPoint.noConfusion (hpoint.symm.trans hhalted)

/-- From any reachable state without further interrupts, the main loop makes at most eleven steps
for every scancode that waits and ten more; it can always go on to a state without a step left, and
in every such state either a command does not return or every stored scancode has been handled. -/
theorem system_drains (hreachable : s.Reachable hasScrollWheel vga) :
    (∃ n s', Steps Run n s s' ∧ Final Run s') ∧
      ∀ n s', Steps Run n s s' →
        n ≤ 11 * (s.pushed.length - s.called.length) + 10 ∧
        (Final Run s' → s'.stopped = true ∨
          (s'.machine.point = .halted ∧
            s'.called.map KeyEvent.scancode = s.pushed.map Prod.fst)) := by
  have hcoherently := reachable_coherently hreachable
  have hstart : Coherently vga s ∧ s.pushed = s.pushed := ⟨hcoherently, rfl⟩
  have hlowers := run_lowers vga s.pushed
  refine ⟨hlowers.exists_final hstart, fun n s' hsteps => ?_⟩
  obtain ⟨⟨hcoherently', hpushed⟩, hlength⟩ := hlowers.steps hstart hsteps
  refine ⟨(Nat.le_of_add_right_le hlength).trans (weight_le hcoherently), fun hfinal => ?_⟩
  rcases (final_iff hcoherently').mp hfinal with hstopped | hhalted
  · exact Or.inl hstopped
  · obtain ⟨waiting, -, hsplit, hnone⟩ := hcoherently'.waiting
    rw [hnone hhalted, List.append_nil, hpushed] at hsplit
    exact Or.inr ⟨hhalted, hsplit.symm⟩

/-- The key that waits is handled within twenty-one steps. -/
theorem system_drains_scrolled : ∃ n s', Steps Run n scrolledCall s' ∧ Final Run s' ∧ n ≤ 21 := by
  obtain ⟨⟨n, s', hsteps, hfinal⟩, hruns⟩ := system_drains scrolledCall_reachable
  have hbound := (hruns n s' hsteps).1
  rw [scrolledCall_called, scrolledCall_pushed] at hbound
  exact ⟨n, s', hsteps, hfinal, hbound⟩

end System

end KernelFromScratch
