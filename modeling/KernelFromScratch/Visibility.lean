import KernelFromScratch.Proof.LastRow
import KernelFromScratch.PutnbrOutput
import KernelFromScratch.Session

/-!
# The visibility of the cursor

The CRTC hides its cursor while bit 5 of register `0x0A` is set. The functions of the terminal send
the new value to port `0x3DE`, which is not a port of the CRTC, so the register keeps what it held
before `terminal_init`.
-/

namespace KernelFromScratch

/-- The operations of `terminal.h`. -/
inductive OutputOp where
  | terminal (op : TerminalOp)
  | putnbrOutput (number : Int)
  deriving DecidableEq

namespace OutputOp

def run : OutputOp → Terminal → Terminal
  | terminal op => op.run
  | putnbrOutput number => Terminal.putnbrOutput number

def runAll (ops : List OutputOp) (t : Terminal) : Terminal :=
  ops.foldl (fun t op => op.run t) t

/-- Whether the cursor should be hidden after an operation: from `terminal_begin_output` on, until
`terminal_end_output`. -/
def hides (hidden : Bool) : OutputOp → Bool
  | terminal .beginOutput => true
  | terminal (.endOutput _) => false
  | _ => hidden

def hiddenAfter (ops : List OutputOp) : Bool := ops.foldl hides false

end OutputOp

/-- Bit 5 of register `0x0A`. -/
def Vga.cursorDisabled (vga : Vga) : Bool := (vga.crtc 0x0A).toBitVec.getLsbD 5

namespace Terminal

def cursorStart (t : Terminal) : UInt8 := t.vga.crtc 0x0A

@[simp]
theorem cursorStart_modifyScreen (f : Screen → Screen) (t : Terminal) :
    (t.modifyScreen f).cursorStart = t.cursorStart := rfl

@[simp]
theorem cursorStart_access (a : Access) (t : Terminal) :
    (t.access a).cursorStart = t.cursorStart := rfl

@[simp]
theorem cursorStart_putScreen (t : Terminal) : t.putScreen.cursorStart = t.cursorStart := by
  rw [cursorStart, crtc_putScreen]
  rfl

/-- The position goes to registers `0x0E` and `0x0F`. -/
@[simp]
theorem cursorStart_showCursor (t : Terminal) : t.showCursor.cursorStart = t.cursorStart := by
  simp [cursorStart, showCursor, yToVgaCall, access, vgaPutCursor, Vga.putCursor, Vga.outb,
    vgaCursorPortCommand, vgaCursorPortData, vgaCursorPortHigh, vgaCursorPortLow]

@[simp]
theorem cursorStart_vgaSetCursorVisibility (visible : Bool) (t : Terminal) :
    (t.vgaSetCursorVisibility visible).cursorStart = t.cursorStart := by
  simp [cursorStart, vgaSetCursorVisibility]

@[simp]
theorem cursorStart_scrollDown (t : Terminal) : t.scrollDown.cursorStart = t.cursorStart := by
  simp [scrollDown]

@[simp]
theorem cursorStart_scrollUp (t : Terminal) : t.scrollUp.cursorStart = t.cursorStart := by
  simp [scrollUp]

theorem cursorStart_alignScrollUp (t : Terminal) :
    t.alignScrollUp.cursorStart = t.cursorStart := by
  induction t using alignScrollUp.induct with
  | case1 t habove ih =>
      rw [alignScrollUp, if_pos habove, ih]
      simp
  | case2 t habove => rw [alignScrollUp, if_neg habove]

theorem cursorStart_alignScrollDown (t : Terminal) :
    t.alignScrollDown.cursorStart = t.cursorStart := by
  induction t using alignScrollDown.induct with
  | case1 t hbelow ih =>
      rw [alignScrollDown, if_pos hbelow, ih]
      simp
  | case2 t hbelow => rw [alignScrollDown, if_neg hbelow]

@[simp]
theorem cursorStart_alignScrollToCursor (t : Terminal) :
    t.alignScrollToCursor.cursorStart = t.cursorStart := by
  rw [alignScrollToCursor, cursorStart_alignScrollDown, cursorStart_alignScrollUp]

@[simp]
theorem cursorStart_moveCursor (offset : Int) (t : Terminal) :
    (t.moveCursor offset).cursorStart = t.cursorStart := by
  simp [moveCursor]

@[simp]
theorem cursorStart_writeCell (y x : Nat) (c : UInt8) (t : Terminal) :
    (t.writeCell y x c).cursorStart = t.cursorStart := rfl

@[simp]
theorem cursorStart_putCell (y x : Nat) (c : UInt8) (t : Terminal) :
    (t.putCell y x c).cursorStart = t.cursorStart := rfl

@[simp]
theorem cursorStart_moveScreenUp (t : Terminal) : t.moveScreenUp.cursorStart = t.cursorStart := by
  rw [cursorStart, vga_moveScreenUp]
  rfl

@[simp]
theorem cursorStart_putNewline (t : Terminal) : t.putNewline.cursorStart = t.cursorStart := by
  simp only [putNewline, cursorStart_showCursor, cursorStart_alignScrollToCursor,
    cursorStart_modifyScreen]
  refine (forLoop_unchanged cursorStart ?_ _).trans ?_
  · intro x r
    rfl
  · split_ifs <;> simp

@[simp]
theorem cursorStart_wrapCursor (t : Terminal) : t.wrapCursor.cursorStart = t.cursorStart := by
  simp only [wrapCursor]
  split_ifs <;> simp

@[simp]
theorem cursorStart_putc (c : UInt8) (t : Terminal) : (t.putc c).cursorStart = t.cursorStart := by
  rw [putc]
  split_ifs <;> simp

@[simp]
theorem cursorStart_putAll (chars : List UInt8) (t : Terminal) :
    (chars.foldl (fun t c => t.putc c) t).cursorStart = t.cursorStart := by
  induction chars generalizing t with
  | nil => rfl
  | cons c chars ih => rw [List.foldl_cons, ih, cursorStart_putc]

@[simp]
theorem cursorStart_getInputAfterCursorAccess (t : Terminal) :
    t.getInputAfterCursorAccess.cursorStart = t.cursorStart := by
  refine forLoop_unchanged cursorStart ?_ t
  intro i r
  rfl

@[simp]
theorem cursorStart_putInputAfterCursor (afterCursor : List UInt8) (start count eraseCount : Nat)
    (t : Terminal) :
    (t.putInputAfterCursor afterCursor start count eraseCount).cursorStart = t.cursorStart := by
  rw [putInputAfterCursor, cursorStart_moveCursor, putSpaces,
    forLoop_unchanged cursorStart fun _ _ => cursorStart_putc _ _, putBuffer,
    forLoop_unchanged cursorStart fun _ _ => by rw [cursorStart_putc, cursorStart_access]]

@[simp]
theorem cursorStart_clear (t : Terminal) : t.clear.cursorStart = t.cursorStart := by
  rw [clear, cursorStart_modifyScreen]
  refine forLoop_unchanged cursorStart ?_ t
  intro x r
  refine forLoop_unchanged cursorStart ?_ r
  intro y r
  rfl

@[simp]
theorem cursorStart_setUpScreen (t : Terminal) : t.setUpScreen.cursorStart = t.cursorStart := by
  simp [setUpScreen, putPrompt]

theorem cursorStart_init (t : Terminal) : t.init.cursorStart = t.cursorStart := by
  rw [init, cursorStart_vgaSetCursorVisibility, cursorStart_showCursor, cursorStart_setUpScreen]
  rfl

theorem cursorStart_switchScreen (index : UInt8) (t : Terminal) :
    (t.switchScreen index).cursorStart = t.cursorStart := by
  rw [switchScreen]
  split_ifs with hindex
  · simp only [cursorStart_showCursor, cursorStart_putScreen]
    split_ifs
    · rfl
    · rw [cursorStart_setUpScreen]
      rfl
  · rfl

theorem cursorStart_beginOutput (t : Terminal) : t.beginOutput.cursorStart = t.cursorStart := by
  simp only [beginOutput, cursorStart_vgaSetCursorVisibility, cursorStart_modifyScreen,
    cursorStart_putc]
  split_ifs <;> simp

theorem cursorStart_endOutput (showPrompt : Bool) (t : Terminal) :
    (t.endOutput showPrompt).cursorStart = t.cursorStart := by
  simp only [endOutput, cursorStart_vgaSetCursorVisibility, cursorStart_modifyScreen, putPrompt]
  split_ifs <;> simp

theorem cursorStart_putcInput (input : UInt8) (t : Terminal) :
    (t.putcInput input).cursorStart = t.cursorStart := by
  simp only [putcInput]
  split_ifs <;> simp

theorem cursorStart_getInputAccess (bufferSize : UInt32) (t : Terminal) :
    (t.getInputAccess bufferSize).cursorStart = t.cursorStart := by
  simp only [getInputAccess]
  split_ifs
  · rfl
  · rfl
  · refine forLoop_unchanged cursorStart ?_ t
    intro i r
    rfl

theorem cursorStart_delInputStep (t : Terminal) : t.delInputStep.cursorStart = t.cursorStart := by
  simp only [delInputStep]
  split_ifs <;> simp

theorem cursorStart_delInput (count : UInt32) (t : Terminal) :
    (t.delInput count).cursorStart = t.cursorStart := by
  simp only [delInput]
  split_ifs
  · rfl
  · simp only [cursorStart_showCursor, cursorStart_modifyScreen, cursorStart_putInputAfterCursor,
      delInputLoop]
    rw [forLoop_unchanged cursorStart fun _ _ => cursorStart_delInputStep _]
    simp

theorem cursorStart_delInputForward (count : UInt32) (t : Terminal) :
    (t.delInputForward count).cursorStart = t.cursorStart := by
  simp only [delInputForward]
  split_ifs <;> simp

theorem cursorStart_move (direction : TerminalCursorDirection) (t : Terminal) :
    (t.move direction).cursorStart = t.cursorStart := by
  cases direction <;> simp only [move] <;> split_ifs <;> simp

theorem cursorStart_run (op : OutputOp) (t : Terminal) : (op.run t).cursorStart = t.cursorStart := by
  cases op with
  | putnbrOutput number => exact cursorStart_putAll _ t
  | terminal op =>
      cases op with
      | edit op =>
          cases op with
          | putcInput input => exact cursorStart_putcInput input t
          | delInput count => exact cursorStart_delInput count t
          | delInputForward count => exact cursorStart_delInputForward count t
          | move direction => exact cursorStart_move direction t
      | getInput bufferSize => exact cursorStart_getInputAccess bufferSize t
      | switchScreen index => exact cursorStart_switchScreen index t
      | beginOutput => exact cursorStart_beginOutput t
      | putcOutput c => exact cursorStart_putc c t
      | putsOutput message => exact cursorStart_putAll _ t
      | clear => exact cursorStart_clear t
      | endOutput showPrompt => exact cursorStart_endOutput showPrompt t

theorem cursorStart_runAll (ops : List OutputOp) (t : Terminal) :
    (OutputOp.runAll ops t).cursorStart = t.cursorStart := by
  induction ops generalizing t with
  | nil => rfl
  | cons op ops ih =>
      calc (OutputOp.runAll (op :: ops) t).cursorStart
          = (OutputOp.runAll ops (op.run t)).cursorStart := rfl
        _ = (op.run t).cursorStart := ih _
        _ = t.cursorStart := cursorStart_run op t

end Terminal

/-- After `terminal_init` and after every operation of the run, the cursor is hidden exactly while a
command prints. -/
def CursorFollows (vga : Vga) (ops : List OutputOp) : Prop :=
  ∀ before, before <+: ops →
    (OutputOp.runAll before (Terminal.boot vga).init).vga.cursorDisabled
      = OutputOp.hiddenAfter before

theorem cursorDisabled_runAll (vga : Vga) (ops : List OutputOp) :
    (OutputOp.runAll ops (Terminal.boot vga).init).vga.cursorDisabled = vga.cursorDisabled := by
  have hregister : (OutputOp.runAll ops (Terminal.boot vga).init).cursorStart = vga.crtc 0x0A :=
    calc (OutputOp.runAll ops (Terminal.boot vga).init).cursorStart
        = (Terminal.boot vga).init.cursorStart := Terminal.cursorStart_runAll ops _
      _ = (Terminal.boot vga).cursorStart := Terminal.cursorStart_init _
      _ = vga.crtc 0x0A := rfl
  calc (OutputOp.runAll ops (Terminal.boot vga).init).vga.cursorDisabled
      = (OutputOp.runAll ops (Terminal.boot vga).init).cursorStart.toBitVec.getLsbD 5 := rfl
    _ = (vga.crtc 0x0A).toBitVec.getLsbD 5 := by rw [hregister]

theorem hides_false {op : OutputOp} (hop : op ≠ .terminal .beginOutput) : op.hides false = false := by
  cases op with
  | putnbrOutput number => rfl
  | terminal op =>
      cases op with
      | beginOutput => exact absurd rfl hop
      | _ => rfl

theorem hiddenAfter_concat (ops : List OutputOp) (op : OutputOp) :
    OutputOp.hiddenAfter (ops ++ [op]) = op.hides (OutputOp.hiddenAfter ops) := by
  rw [OutputOp.hiddenAfter, List.foldl_append]
  rfl

/-- The register never changes, so the cursor is right exactly when it is visible to begin with and
no command prints. -/
theorem cursorFollows_iff (vga : Vga) (ops : List OutputOp) :
    CursorFollows vga ops
      ↔ vga.cursorDisabled = false ∧ OutputOp.terminal .beginOutput ∉ ops := by
  simp only [CursorFollows, cursorDisabled_runAll]
  constructor
  · intro hfollows
    have hvisible : vga.cursorDisabled = false := hfollows [] List.nil_prefix
    refine ⟨hvisible, fun hmem => ?_⟩
    obtain ⟨before, after, rfl⟩ := List.append_of_mem hmem
    have hbegun := hfollows (before ++ [.terminal .beginOutput])
      ⟨after, by rw [List.append_assoc]; rfl⟩
    rw [hvisible, hiddenAfter_concat] at hbegun
    cases hbegun
  · rintro ⟨hvisible, hbegin⟩ before hearlier
    rw [hvisible]
    have hquiet : OutputOp.terminal .beginOutput ∉ before :=
      fun hmem => hbegin (hearlier.subset hmem)
    clear hearlier
    induction before using List.reverseRecOn with
    | nil => rfl
    | append_singleton before op ih =>
        rw [List.mem_append, not_or, List.mem_singleton] at hquiet
        rw [hiddenAfter_concat, ← ih hquiet.1, hides_false (Ne.symm hquiet.2)]

/-- A command that prints nothing, on a device with all registers zero. -/
theorem command_cursor_visible :
    ¬CursorFollows ⟨fun _ => 0, 0, fun _ => 0, fun _ => 0⟩ [.terminal .beginOutput] := by
  intro hfollows
  have hbegun := hfollows [.terminal .beginOutput] (List.prefix_refl _)
  rw [cursorDisabled_runAll] at hbegun
  exact absurd hbegun (by decide)

end KernelFromScratch
