import KernelFromScratch.Proof.Refinement

/-!
# Runs of terminal operations

What holds after every sequence of operations from `terminal_init` on, made in the order the shell
makes them: the input functions are the operations of a zipper, and the buffer of a screen is the
window of its text that starts as many rows down as the buffer was shifted.
-/

namespace KernelFromScratch

open Terminal TerminalOp

variable {t : Terminal} {s : Session} {σ : Sessions} {phase phase' : Phase}

/-- The zipper a sequence of edits leaves of an empty line. -/
def editedLine (edits : List EditOp) : Zipper UInt8 :=
  edits.foldl (fun z op => op.zipper z) .empty

namespace Terminal

theorem Related.ran (vga : Vga) {ops : List TerminalOp} (hops : Phase.input.after ops = some phase) :
    Related phase (runAll ops (boot vga).init) (applyAll ops .init) :=
  runAll_related (init_related vga).1 hops

/-- A shown screen with an empty input takes edits, also in the middle of a command. -/
theorem Related.editing_of_empty (hrelated : Related phase t σ)
    (hempty : t.currentScreen.inputSize = 0) :
    ∃ s, EditingSession t s ∧ s.line = .empty := by
  obtain ⟨s, -, hcurrent⟩ := hrelated.current
  have hzero : t.currentScreen.inputSize.toInt = 0 := by
    rw [hempty]
    rfl
  cases phase with
  | input =>
      have hsize : s.line.size = 0 := by
        have hsize := hcurrent.size
        omega
      refine ⟨s, hcurrent, ?_⟩
      obtain ⟨hbefore, hafter⟩ := Nat.add_eq_zero_iff.mp hsize
      rw [List.length_eq_zero_iff] at hbefore hafter
      cases hline : s.line with
      | mk before after =>
          rw [hline] at hbefore hafter
          subst hbefore hafter
          rfl
  | output => exact ⟨s, hcurrent.editing hzero, hcurrent.line⟩

theorem edits_editing (hediting : EditingSession t s) {edits : List EditOp}
    (htyped : ∀ op ∈ edits, op.Typed) :
    ∃ s', EditingSession (runAll (edits.map .edit) t) s' ∧
      s'.line = edits.foldl (fun z op => op.zipper z) s.line := by
  induction edits generalizing t s with
  | nil => exact ⟨s, hediting, rfl⟩
  | cons op edits ih =>
      have hedited := edit_edited op (htyped op List.mem_cons_self).ne hediting
      exact ih hedited.session fun op' hop' => htyped op' (List.mem_cons_of_mem op hop')

end Terminal

/-- The line editor refines the zipper: after every prefix of the edits the input cursor is the
length of the first half, the input size that of both, and `terminal_get_input` returns the two
halves one after the other. -/
theorem lineEditor_refines_zipper (vga : Vga) (history : List TerminalOp)
    (hhistory : Phase.input.after history = some phase)
    (hempty : (runAll history (boot vga).init).currentScreen.inputSize = 0)
    (edits : List EditOp) (htyped : ∀ op ∈ edits, op.Typed) (done : List EditOp)
    (hdone : done <+: edits) :
    let t := runAll (done.map .edit) (runAll history (boot vga).init)
    let z := editedLine done
    t.currentScreen.inputCursor.toInt = z.before.length ∧
      t.currentScreen.inputSize.toInt = z.before.length + z.after.length ∧
      t.getInput 256 = some (z.before ++ z.after ++ [0]) := by
  obtain ⟨s, hediting, hline⟩ := (Related.ran vga hhistory).editing_of_empty hempty
  obtain ⟨s', hediting', hline'⟩ := edits_editing hediting
    fun op hop => htyped op (hdone.subset hop)
  rw [hline] at hline'
  have hget := hediting'.getInput
  refine ⟨?_, ?_, ?_⟩
  · rw [hediting'.cursor, hline']
    rfl
  · rw [hediting'.size, hline']
    rfl
  · rw [hget, hline']
    rfl

theorem init_inputSize (vga : Vga) : (boot vga).init.currentScreen.inputSize = 0 := by
  obtain ⟨s, hs, hediting⟩ := (init_related vga).1.current
  have hopened : Session.opened = s := Option.some_inj.mp hs
  apply Int8.toInt_inj.mp
  rw [hediting.size, ← hopened]
  rfl

theorem lineEditor_refines_zipper_typing :
    let t := runAll ([.putcInput 97, .move .left, .putcInput 98].map .edit)
      (runAll [] (boot ⟨fun _ => 0, 0, fun _ => 0, fun _ => 0⟩).init)
    t.currentScreen.inputCursor.toInt = 1 ∧ t.currentScreen.inputSize.toInt = 1 + 1 ∧
      t.getInput 256 = some [98, 97, 0] :=
  lineEditor_refines_zipper _ [] rfl (init_inputSize _)
    [.putcInput 97, .move .left, .putcInput 98] (by decide) _ (List.prefix_refl _)

/-! ### The buffer -/

namespace Terminal

theorem Related.holds_or_printing (hrelated : Related phase t σ) {i : ScreenIndex}
    (hs : σ.sessions i = some s) :
    (t.screens i).Holds s ∨ (t.screens i = t.currentScreen ∧ Printing t s) := by
  by_cases hi : i = σ.index
  · subst hi
    obtain ⟨s', hs', hcurrent⟩ := hrelated.current
    rw [hs, Option.some_inj] at hs'
    subst hs'
    rw [currentScreen_eq hrelated.index]
    cases phase with
    | input => exact Or.inl (editingSession_iff.mp hcurrent).1
    | output => exact Or.inr ⟨rfl, hcurrent⟩
  · exact Or.inl (hrelated.others i hi s hs)

theorem Related.window (hrelated : Related phase t σ) {i : ScreenIndex}
    (hs : σ.sessions i = some s) :
    (t.screens i).Window s.top s.shown.cells
        (terminalFormat.layout (s.text ++ s.line.before)).pos ∧
      (t.screens i).cursorY.toNat < 35 := by
  rcases hrelated.holds_or_printing hs with hholds | ⟨hscreen, hview, hline, -⟩
  · have hnewline := hholds.noNewline
    have hbefore : newline ∉ s.line.before := fun h => hnewline (List.mem_append_left _ h)
    rw [Session.shown, page_append_line hnewline, page_append_line hbefore]
    exact ⟨hholds.window, hholds.row⟩
  · have hempty : s.text ++ (Zipper.empty : Zipper UInt8).before = s.text := List.append_nil _
    rw [shown_of_empty hline, hline, hempty, hscreen]
    exact ⟨hview.window, hview.row⟩

end Terminal

/-- The buffer of a screen that has been shown is the window of its text that starts at row
`s.top`: the number of times the buffer was shifted since the last clear. -/
theorem buffer_shows_session (vga : Vga) (ops : List TerminalOp)
    (hops : Phase.input.after ops = some phase) (i : ScreenIndex) (s : Session)
    (hs : (applyAll ops .init).sessions i = some s) :
    let screen := (runAll ops (boot vga).init).screens i
    (∀ k < terminalHeight, ∀ x < terminalWidth, (screen.data k x).character
        = (terminalFormat.layout (s.text ++ (s.line.before ++ s.line.after))).cells
          ((k + s.top) * terminalWidth + x)) ∧
      (screen.cursorY.toNat + s.top) * terminalWidth + screen.cursorX.toNat
        = (terminalFormat.layout (s.text ++ s.line.before)).pos ∧
      screen.cursorX.toNat < terminalWidth ∧ screen.cursorY.toNat < terminalHeight ∧
      screen.shifts = s.top := by
  intro screen
  obtain ⟨hwindow, hrow⟩ := (Related.ran vga hops).window hs
  have hlinear := hwindow.linear
  have hcolumn := hwindow.cursorX
  refine ⟨?_, ?_, ?_, hrow, hwindow.shifts⟩
  · intro k hk x hx
    have hdata := congrArg ScreenCell.character (hwindow.data k hk x hx)
    rw [Nat.add_comm s.top k] at hdata
    exact hdata
  · rw [Nat.add_comm screen.cursorY.toNat]
    exact hlinear
  · exact hcolumn.trans_lt (Nat.mod_lt _ (by decide))

theorem buffer_shows_session_command :
    let screen := (runAll [.beginOutput, .putcOutput 120, .endOutput true]
      (boot ⟨fun _ => 0, 0, fun _ => 0, fun _ => 0⟩).init).screens 0
    (∀ k < terminalHeight, ∀ x < terminalWidth, (screen.data k x).character
        = (terminalFormat.layout ([36, 32, 10, 120, 10, 36, 32] ++ ([] ++ []))).cells
          ((k + 0) * terminalWidth + x)) ∧
      (screen.cursorY.toNat + 0) * terminalWidth + screen.cursorX.toNat
        = (terminalFormat.layout ([36, 32, 10, 120, 10, 36, 32] ++ [])).pos ∧
      screen.cursorX.toNat < terminalWidth ∧ screen.cursorY.toNat < terminalHeight ∧
      screen.shifts = 0 :=
  buffer_shows_session _ [.beginOutput, .putcOutput 120, .endOutput true] rfl 0
    ⟨[36, 32, 10, 120, 10, 36, 32], .empty, 0⟩ (by decide)

end KernelFromScratch
