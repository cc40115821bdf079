import KernelFromScratch.Library.Run
import KernelFromScratch.Proof.Reaction
import KernelFromScratch.Proof.Refinement

/-!
# Runs of the kernel

The kernel and the kernel over sessions handle every scancode in step. Between two scancodes the
hardware cursor is where the shown screen has its cursor, and the page is drawn unless a read waits
for its line.
-/

namespace KernelFromScratch

open Terminal TerminalOp Reaction

variable {k k' : Kernel} {a : SessionKernel} {t r : Terminal} {s : Session} {σ : Sessions}
  {phase phase' : Phase} {reaction : Reaction}

/-- The kernel is in the state `a`, with a line edited or a command printing on the shown
screen. -/
structure Represents (phase : Phase) (k : Kernel) (a : SessionKernel) : Prop where
  related : Related phase k.terminal a.sessions
  shell : k.shell = a.shell
  keyboard : k.keyboard = a.keyboard
  executed : k.executed = a.executed

theorem boot_represents (vga : Vga) : Represents .input (Kernel.boot vga) .boot :=
  ⟨(init_related vga).1, rfl, rfl, rfl⟩

theorem Represents.line (hrepresents : Represents .input k a) :
    k.terminal.getInput 256 = a.line := by
  obtain ⟨s, hs, hediting⟩ := hrepresents.related.current
  rw [hediting.getInput, SessionKernel.line, hs]
  rfl

theorem Reaction.Shaped.after {output : CommandOutput} {shell : Shell} {line : Option (List UInt8)}
    (hshaped : Shaped output shell line reaction) :
    Phase.input.after reaction.ops = some reaction.endPhase := by
  cases hshaped with
  | quiet keyboard => rfl
  | switchScreen keyboard hindex hpending => rfl
  | edit keyboard htyped =>
      have hnext : Phase.input.next (.edit _) = some .input := if_neg htyped.ne
      exact congrArg (fun phase : Option Phase => phase.bind fun phase => phase.after []) hnext
  | enter keyboard =>
      cases line with
      | none => rfl
      | some command =>
          obtain ⟨body, hshape⟩ := ofLine_shape output shell keyboard command
          exact hshape.after

theorem perform_both (hrepresents : Represents .input k a)
    (hafter : Phase.input.after reaction.ops = some reaction.endPhase) :
    Both (Represents .input) (Represents .output) (reaction.perform k) (a.perform reaction) := by
  have hrelated := runAll_related hrepresents.related hafter
  rw [Reaction.perform, SessionKernel.perform, hrepresents.executed]
  rw [endPhase] at hrelated
  cases hreturns : reaction.returns with
  | true =>
      rw [hreturns] at hrelated
      exact .ok ⟨hrelated, rfl, rfl, rfl⟩
  | false =>
      rw [hreturns] at hrelated
      exact .error ⟨hrelated, rfl, rfl, rfl⟩

theorem handle_eq_reaction (hrepresents : Represents .input k a) (event : KeyEvent) :
    k.handle event
      = (ofScancode event.output a.shell a.keyboard event.scancode a.line).perform k := by
  rw [Kernel.handle, handleScancode_eq, hrepresents.line, hrepresents.shell, hrepresents.keyboard]

theorem handle_eq (hrepresents : Represents .input k a) (event : KeyEvent) :
    ∃ reaction, Shaped event.output a.shell a.line reaction ∧
      k.handle event = reaction.perform k ∧ a.handle event = a.perform reaction :=
  ⟨_, ofScancode_shaped event.output a.shell a.keyboard event.scancode a.line,
    handle_eq_reaction hrepresents event, rfl⟩

theorem handle_both (k : Kernel) (a : SessionKernel) (event : KeyEvent)
    (hrepresents : Represents .input k a) :
    Both (Represents .input) (Represents .output) (k.handle event) (a.handle event) := by
  obtain ⟨reaction, hshaped, hk, ha⟩ := handle_eq hrepresents event
  rw [hk, ha]
  exact perform_both hrepresents hshaped.after

theorem handleAll_both (hrepresents : Represents .input k a) (events : List KeyEvent) :
    Both (Represents .input) (Represents .output) (k.handleAll events) (a.handleAll events) :=
  foldlM_both handle_both hrepresents

/-! ### What is shown after a command -/

theorem after_begin_prints {body : List TerminalOp} (hbody : ∀ op ∈ body, Prints op) :
    Phase.input.after (.beginOutput :: body) = some .output :=
  after_prints hbody

/-- A command that ends with a prompt leaves the page drawn and the cursor shown. -/
theorem prompted_shown (hrelated : Related .input t σ) {body : List TerminalOp}
    (hbody : ∀ op ∈ body, Prints op) :
    (runAll (.beginOutput :: (body ++ [.endOutput true])) t).Displayed ∧
      (runAll (.beginOutput :: (body ++ [.endOutput true])) t).CursorTracked := by
  have hprinted := runAll_related hrelated (after_begin_prints hbody)
  obtain ⟨s, -, hprinting⟩ := hprinted.current
  rw [runAll_command]
  exact (endOutput_ended hprinting true).2.1 rfl

/-- A command that prints nothing and ends without a prompt: only a line that ends on the last row
leaves the page as it was. -/
theorem silent_shown (hediting : EditingSession t s) :
    (runAll [.beginOutput, .endOutput false] t).CursorTracked ∧
      (s.shown.pos / 80 < s.top + 34 → t.Displayed →
        (runAll [.beginOutput, .endOutput false] t).Displayed) := by
  obtain ⟨⟨hprinting, -, -, -, htracked⟩, hdisplayed⟩ := beginOutput_begun hediting
  obtain ⟨hended, -, hkept⟩ := endOutput_ended hprinting false
  exact ⟨hended.tracked htracked,
    fun hrow h => hkept rfl (beginOutput_anchor s) (hdisplayed hrow h)⟩

/-- What the reaction to a scancode leaves on the page and in the hardware cursor: the page stays
drawn, or is drawn, unless the reaction is that of `read`. -/
inductive Shown (shell : Shell) (t : Terminal) (reaction : Reaction) : Prop where
  | kept (hshell : reaction.shell = shell)
      (hdisplayed : t.Displayed → (runAll reaction.ops t).Displayed)
  | drawn (hdisplayed : (runAll reaction.ops t).Displayed)
  | silent (hpending : reaction.shell.readPending = true)
      (hops : reaction.ops = [.getInput 256, .beginOutput, .endOutput false])

theorem Reaction.Shaped.shown {output : CommandOutput} {shell : Shell} {line : Option (List UInt8)}
    (hshaped : Shaped output shell line reaction) (hrelated : Related .input t σ)
    (htracked : t.CursorTracked) (hreturns : reaction.returns = true) :
    (runAll reaction.ops t).CursorTracked ∧ Shown shell t reaction := by
  cases hshaped with
  | quiet keyboard => exact ⟨htracked, .kept rfl id⟩
  | switchScreen keyboard hindex hpending =>
      obtain ⟨hdisplayed, htracked'⟩ := (switchScreen_related hrelated _).2 hindex
      exact ⟨htracked', .drawn hdisplayed⟩
  | edit keyboard htyped =>
      have hran := edit_ran hrelated htyped.ne
      exact ⟨hran.tracked (by simp) htracked, .kept rfl (hran.displayed rfl rfl)⟩
  | enter keyboard =>
      have hread := getInput_ran hrelated 256
      cases line with
      | none => exact ⟨hread.tracked (by simp) htracked, .kept rfl (hread.displayed rfl rfl)⟩
      | some command =>
          obtain ⟨body, hshape⟩ := ofLine_shape output shell keyboard command
          set executed := ofLine output shell keyboard command with hexecuted
          have hreturns : executed.returns = true := hreturns
          have hops := hshape.ops
          rw [hreturns, if_pos rfl] at hops
          have hrun : runAll (ofEnter output shell keyboard (some command)).ops t
              = runAll executed.ops (t.getInputAccess 256) := rfl
          cases hpending : executed.shell.readPending with
          | false =>
              rw [hpending] at hops
              obtain ⟨hdisplayed, htracked'⟩ := prompted_shown hread.related hshape.prints
              rw [hrun, hops]
              refine ⟨htracked', .drawn ?_⟩
              rw [hrun, hops]
              exact hdisplayed
          | true =>
              rw [hpending, hshape.silent hreturns hpending] at hops
              obtain ⟨s, -, hediting⟩ := hread.related.current
              rw [hrun, hops]
              refine ⟨(silent_shown hediting).1, .silent hpending ?_⟩
              exact congrArg (TerminalOp.getInput 256 :: ·) hops

/-- Between two scancodes. -/
structure Settled (k : Kernel) : Prop where
  represented : ∃ a, Represents .input k a
  tracked : k.terminal.CursorTracked
  displayed : k.shell.readPending = false → k.terminal.Displayed

theorem boot_settled (vga : Vga) : Settled (Kernel.boot vga) :=
  ⟨⟨_, boot_represents vga⟩, (init_related vga).2.2, fun _ => (init_related vga).2.1⟩

theorem perform_ok_iff : reaction.perform k = .ok k' ↔ reaction.returns = true ∧
    k' = ⟨runAll reaction.ops k.terminal, reaction.shell, reaction.keyboard,
      reaction.submitted ++ k.executed⟩ := by
  rw [Reaction.perform]
  cases reaction.returns with
  | true => simp [eq_comm]
  | false => simp

theorem handle_settled (k : Kernel) (event : KeyEvent) (k' : Kernel) (hsettled : Settled k)
    (hhandle : k.handle event = .ok k') : Settled k' := by
  obtain ⟨⟨a, hrepresents⟩, htracked, hdisplayed⟩ := hsettled
  obtain ⟨reaction, hshaped, hk, ha⟩ := handle_eq hrepresents event
  have hboth := perform_both hrepresents hshaped.after
  rw [← hk, hhandle] at hboth
  have hperform := hk.symm.trans hhandle
  obtain ⟨hreturns, rfl⟩ := perform_ok_iff.mp hperform
  rw [← hrepresents.shell] at hshaped
  obtain ⟨htracked', hshown⟩ := hshaped.shown hrepresents.related htracked hreturns
  refine ⟨?_, htracked', fun hpending => ?_⟩
  · obtain ⟨a', -, hrepresents'⟩ := hboth.ok_left
    exact ⟨a', hrepresents'⟩
  · cases hshown with
    | kept hshell hkept =>
        have hpending' : k.shell.readPending = false := by
          rw [← hshell]
          exact hpending
        exact hkept (hdisplayed hpending')
    | drawn hdrawn => exact hdrawn
    | silent hread hops => exact absurd (hpending.symm.trans hread) Bool.false_ne_true

theorem handleAll_represented (vga : Vga) {events : List KeyEvent}
    (hrun : (Kernel.boot vga).handleAll events = .ok k) :
    ∃ a, SessionKernel.boot.handleAll events = .ok a ∧ Represents .input k a := by
  have hboth := handleAll_both (boot_represents vga) events
  rw [hrun] at hboth
  exact hboth.ok_left

theorem handleAll_represents (vga : Vga) {events : List KeyEvent}
    (harun : SessionKernel.boot.handleAll events = .ok a) :
    ∃ k, (Kernel.boot vga).handleAll events = .ok k ∧ Represents .input k a := by
  have hboth := handleAll_both (boot_represents vga) events
  rw [harun] at hboth
  exact hboth.ok_right

theorem handleAll_settled (vga : Vga) {events : List KeyEvent}
    (hrun : (Kernel.boot vga).handleAll events = .ok k) : Settled k :=
  foldlM_invariant Settled handle_settled (boot_settled vga) hrun

end KernelFromScratch
