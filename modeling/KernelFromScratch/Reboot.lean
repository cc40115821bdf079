import KernelFromScratch.Library.While
import KernelFromScratch.MouseInit

/-!
# Rebooting

`reboot` of `shell.c` on the PS/2 controller. Its wait has no bound, unlike the one of the mouse driver.
-/

namespace KernelFromScratch

namespace Ps2

section Source

def ps2ControllerStatusPort : UInt16 := 0x64
def ps2InputBufferFull : UInt8 := 0x02
def ps2RebootCommand : UInt8 := 0xFE

variable (controller : Ps2Controller)

/-- `status & PS2_INPUT_BUFFER_FULL`. -/
def inputBufferFull (read : UInt8 × Ps2) : Bool := read.1 &&& ps2InputBufferFull ≠ 0

/-- The body of the loop. -/
def readStatus (s : Ps2) : UInt8 × Ps2 := s.inb controller ps2ControllerStatusPort

/-- None when the loop makes more than `fuel` turns after the first. -/
def reboot (fuel : Nat) (s : Ps2) : Option Ps2 :=
  (whileLoop inputBufferFull (fun read => readStatus controller read.2) fuel
      (readStatus controller s)).map
    fun read => read.2.outb controller ps2ControllerStatusPort ps2RebootCommand

end Source

variable {controller : Ps2Controller} {s : Ps2}

theorem inputBufferFull_readStatus (s : Ps2) :
    inputBufferFull (readStatus controller s) = decide (s.input.remaining ≠ 0) := by
  have hstatus : s.status controller &&& ps2StatusInputFull ≠ 0 ↔ s.input.remaining ≠ 0 :=
    status_inputFull s
  exact decide_eq_decide.mpr hstatus

/-- Each turn is one access, and the last one finds the buffer empty. -/
theorem rebootLoop_eq (s : Ps2) :
    ∃ read, whileLoop inputBufferFull (fun read => readStatus controller read.2) s.input.remaining
        (readStatus controller s) = some read ∧
      read.2.input.remaining = 0 ∧ Same s.input read.2.input ∧
      read.2.accesses = s.accesses + s.input.remaining + 1 := by
  generalize hremaining : s.input.remaining = remaining
  induction remaining generalizing s with
  | zero =>
      have hends : inputBufferFull (readStatus controller s) = false := by
        rw [inputBufferFull_readStatus, hremaining]
        rfl
      have hempty : s.access.input.remaining = 0 := by
        rw [access, Mailbox.remaining_access, hremaining]
      exact ⟨_, whileLoop_of_false hends 0, hempty, same_access _ ⟨rfl, rfl⟩, rfl⟩
  | succ remaining ih =>
      have hagain : inputBufferFull (readStatus controller s) = true := by
        rw [inputBufferFull_readStatus, hremaining]
        rfl
      have hless : s.access.input.remaining = remaining := by
        rw [access, Mailbox.remaining_access, hremaining, Nat.add_sub_cancel]
      obtain ⟨read, hends, hempty, hsame, haccesses⟩ := ih s.access hless
      have hfirst : Same s.input s.access.input := same_access _ ⟨rfl, rfl⟩
      refine ⟨read, ?_, hempty, ⟨hsame.1.trans hfirst.1, hsame.2.trans hfirst.2⟩, ?_⟩
      · rw [whileLoop_of_true hagain]
        exact hends
      · rw [haccesses]
        change s.accesses + 1 + remaining + 1 = s.accesses + (remaining + 1) + 1
        omega

theorem rebootLoop_none {fuel : Nat} (hlt : fuel < s.input.remaining) :
    whileLoop inputBufferFull (fun read => readStatus controller read.2) fuel
      (readStatus controller s) = none := by
  have hagain : inputBufferFull (readStatus controller s) = true := by
    rw [inputBufferFull_readStatus]
    exact decide_eq_true (Nat.ne_zero_of_lt hlt)
  induction fuel generalizing s with
  | zero => rw [whileLoop, if_pos hagain]
  | succ fuel ih =>
      have hless : s.access.input.remaining = s.input.remaining - 1 := Mailbox.remaining_access _
      have hlater : fuel < s.access.input.remaining := by omega
      rw [whileLoop_of_true hagain]
      apply ih hlater
      rw [inputBufferFull_readStatus]
      exact decide_eq_true (Nat.ne_zero_of_lt hlater)

/-- However long the controller takes for the byte written before, from whatever state: the loop ends
with the read that finds the buffer empty, and the reset command is the only byte written and overwrites
none. -/
theorem reboot_delivers (controller : Ps2Controller) (s : Ps2) :
    ∃ s', (∀ fuel, reboot controller fuel s
          = if s.input.remaining ≤ fuel then some s' else none) ∧
      Delivers s [⟨ps2ControllerStatusPort, ps2RebootCommand⟩] s' ∧
      s'.accesses = s.accesses + s.input.remaining + 2 := by
  obtain ⟨read, hends, hempty, hsame, haccesses⟩ := @rebootLoop_eq controller s
  refine ⟨read.2.outb controller ps2ControllerStatusPort ps2RebootCommand, fun fuel => ?_, ?_, ?_⟩
  · rw [reboot]
    split_ifs with hfuel
    · rw [whileLoop_of_le hfuel hends, Option.map_some]
    · rw [rebootLoop_none (Nat.lt_of_not_le hfuel), Option.map_none]
  · exact hsame.delivers.trans (delivers_outb hempty _ _)
  · change read.2.accesses + 1 = _
    rw [haccesses]

end Ps2

end KernelFromScratch
