import KernelFromScratch.ReadCommand
import KernelFromScratch.System

/-!
# The lines the shell receives

Whatever the order of the interrupts and the keys, `shell_execute` is called with proper lines only:
they end with a NUL, hold no other one and no newline, and fit the buffers of the shell.
-/

namespace KernelFromScratch

open Terminal TerminalOp Reaction

/-- A NUL-terminated line no longer than what can be edited. -/
def IsLine (command : List UInt8) : Prop :=
  ∃ line, command = line ++ [0] ∧ line.length ≤ inputCapacity ∧ 0 ∉ line ∧ newline ∉ line

variable {k k' : Kernel} {event : KeyEvent} {events : List KeyEvent} {vga : Vga}

theorem isLine_getInput (hrun : (Kernel.boot vga).handleAll events = .ok k) :
    ∃ command, k.terminal.getInput 256 = some command ∧ IsLine command := by
  obtain ⟨a, harun, hrepresents⟩ := handleAll_represented vga hrun
  obtain ⟨s, hs, hediting⟩ := hrepresents.related.current
  have hlength : s.line.line.length ≤ inputCapacity := by
    rw [Zipper.line_length]
    exact hediting.size_le
  exact ⟨_, hediting.getInput, s.line.line, rfl, hlength, (handleAll_prompted harun).typed _ s hs,
    hediting.noNewline⟩

/-- One scancode hands over at most one line, also when the command does not return. -/
theorem handle_executed (hrun : (Kernel.boot vga).handleAll events = .ok k)
    (hhandle : k.handle event = .ok k' ∨ k.handle event = .error k') :
    k'.executed = k.executed ∨ ∃ command, IsLine command ∧ k'.executed = command :: k.executed := by
  obtain ⟨command, hinput, hcommand⟩ := isLine_getInput hrun
  rw [Kernel.handle, handleScancode_eq, hinput] at hhandle
  have hperform : ∀ reaction : Reaction,
      (reaction.perform k = .ok k' ∨ reaction.perform k = .error k') →
        k'.executed = reaction.submitted ++ k.executed := by
    intro reaction hperform
    cases hreturns : reaction.returns with
    | true =>
        rw [perform_ok hreturns] at hperform
        obtain heq | heq := hperform
        · cases heq
          rfl
        · cases heq
    | false =>
        rw [perform_error hreturns] at hperform
        obtain heq | heq := hperform
        · cases heq
        · cases heq
          rfl
  have hexecuted := hperform _ hhandle
  rcases (ofScancode_reacts event.output k.shell k.keyboard event.scancode
    (some command)).idle_or_enter with hidle | henter
  · rw [hidle.submitted, List.nil_append] at hexecuted
    exact Or.inl hexecuted
  · rw [henter, ofEnter] at hexecuted
    simp only [submitted_ofLine, List.singleton_append] at hexecuted
    exact Or.inr ⟨command, hcommand, hexecuted⟩

theorem handle_lines (hrun : (Kernel.boot vga).handleAll events = .ok k)
    (hhandle : k.handle event = .ok k' ∨ k.handle event = .error k')
    (hlines : ∀ command ∈ k.executed, IsLine command) : ∀ command ∈ k'.executed, IsLine command := by
  rcases handle_executed hrun hhandle with hsame | ⟨command, hcommand, hmore⟩
  · rw [hsame]
    exact hlines
  · rw [hmore]
    intro command' hmem
    rcases List.mem_cons.mp hmem with rfl | hmem
    · exact hcommand
    · exact hlines command' hmem

theorem handleAll_lines (hrun : (Kernel.boot vga).handleAll events = .ok k) :
    ∀ command ∈ k.executed, IsLine command := by
  induction events using List.reverseRecOn generalizing k with
  | nil =>
      cases hrun
      exact fun _ hmem => absurd hmem List.not_mem_nil
  | append_singleton events event ih =>
      obtain ⟨k₁, hrun₁, hhandle⟩ := foldlM_concat_ok.mp hrun
      exact handle_lines hrun₁ (Or.inl hhandle) (ih hrun₁)

/-- In every state of the system, whatever interrupts came between whatever instructions. -/
theorem executed_lines {s : System} {hasScrollWheel : Bool}
    (hreachable : s.Reachable hasScrollWheel vga) : ∀ command ∈ s.kernel.executed, IsLine command := by
  cases System.reachable_coherently hreachable with
  | running hcoherent => exact handleAll_lines hcoherent.kernel
  | stopped hcoherent hcalls hhandle =>
      rw [System.call_stopped hhandle]
      exact handle_lines hcoherent.kernel (Or.inr hhandle) (handleAll_lines hcoherent.kernel)

/-! ### A run -/

/-- Enter is pressed while the loop tests the buffer. -/
def enterTest : System :=
  let s := System.boot true System.blankVga
  let s := { s with machine := s.machine.lastSti.handleInput false (.test .start) }
  s.keyboardInterrupt keyEnter

def enterCall : System :=
  let s := (enterTest.handleInput (.test (.readTail 0))).handleInput .readIndex
  let s := ((s.handleInput (.readSlot 0)).handleInput (.readTail keyEnter)).handleInput
    (.writeTail keyEnter 0)
  s.call ⟨keyEnter, ⟨[], [], true, true⟩⟩

theorem enterTest_reachable : enterTest.Reachable true System.blankVga := by
  have hsti : ({ System.boot true System.blankVga with machine := Machine.boot.lastSti } :
      System).Reachable true System.blankVga :=
    Relation.ReflTransGen.refl.tail (.run
      (.instruction rfl (fun _ hcalls => MainPoint.noConfusion hcalls.1) (.lastSti rfl)))
  have hstarted := System.handleInput_reachable hsti rfl rfl rfl nofun
  exact hstarted.tail (.interrupt (.keyboard (by decide +kernel) (by decide +kernel) keyEnter))

theorem enterCall_reachable : enterCall.Reachable true System.blankVga := by
  have htest := @System.handleInput_reachable _ _ _ (.test (.readTail 0)) enterTest_reachable
    (by decide +kernel) (by decide +kernel) (by decide +kernel) nofun
  have hindex := @System.handleInput_reachable _ _ _ .readIndex htest
    (by decide +kernel) (by decide +kernel) (by decide +kernel) nofun
  have hslot := @System.handleInput_reachable _ _ _ (.readSlot 0) hindex
    (by decide +kernel) (by decide +kernel) (by decide +kernel) nofun
  have htail := @System.handleInput_reachable _ _ _ (.readTail keyEnter) hslot
    (by decide +kernel) (by decide +kernel) (by decide +kernel) nofun
  have hcall := @System.handleInput_reachable _ _ _ (.writeTail keyEnter 0) htail
    (by decide +kernel) (by decide +kernel) (by decide +kernel) nofun
  refine hcall.tail (.run (@System.Run.call _ ⟨keyEnter, ⟨[], [], true, true⟩⟩ ?_ ⟨?_, ?_⟩)) <;> decide +kernel

theorem enterCall_executed : enterCall.kernel.executed = [[0]] := by
  have heval : (SessionKernel.boot.handleAll (keys [keyEnter])).toOption.map
      SessionKernel.executed = some [[0]] := by decide +kernel
  obtain ⟨a, harun, hexecuted⟩ := exists_ok_of_toOption_map heval
  obtain ⟨k, hrun, hrepresents⟩ := handleAll_represents System.blankVga harun
  have houtcome := (System.reachable_coherently enterCall_reachable).outcome
  have hcalled : enterCall.called = keys [keyEnter] := System.call_called ⟨keyEnter, ⟨[], [], true, true⟩⟩ _
  rw [hcalled, hrun, System.outcome] at houtcome
  have hkernel : enterCall.kernel = k := by
    split at houtcome
    · cases houtcome
    · exact (Except.ok.inj houtcome).symm
  rw [hkernel, hrepresents.executed, hexecuted]

/-- The empty line is submitted. -/
theorem executed_lines_enter :
    enterCall.kernel.executed = [[0]] ∧ ∀ command ∈ enterCall.kernel.executed, IsLine command :=
  ⟨enterCall_executed, executed_lines enterCall_reachable⟩

end KernelFromScratch
