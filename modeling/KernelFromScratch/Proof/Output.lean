import KernelFromScratch.Proof.Input

/-!
# The output functions extend the text

While a command prints, the page is the printed text alone and the cursor stands at its end, which
is also the anchor: every character raises it.
-/

namespace KernelFromScratch

namespace Terminal

variable {t r : Terminal} {s s' : Session}

structure Printing (t : Terminal) (s : Session) : Prop where
  view : View t s.top s.page.cells s.anchor s.anchor
  line : s.line = .empty
  /-- `terminal_clear` starts an empty input even in the middle of a command. -/
  mode : t.currentScreen.inputSize.toInt = -1 ∨
    (t.currentScreen.inputSize.toInt = 0 ∧ t.currentScreen.inputCursor.toInt = 0)

/-- The line of the session is edited on the shown screen. -/
def EditingSession (t : Terminal) (s : Session) : Prop :=
  Editing t s.top s.page.cells s.anchor s.line

structure Printed (t r : Terminal) (s : Session) : Prop where
  printing : Printing r s
  keeps : Keeps t r
  tracked : t.CursorTracked → r.CursorTracked

theorem Printed.refl (hprinting : Printing t s) : Printed t t s := ⟨hprinting, .refl t, id⟩

theorem Printed.trans {u : Terminal} (htr : Printed t r s) (hru : Printed r u s') :
    Printed t u s' :=
  ⟨hru.printing, htr.keeps.trans hru.keeps, fun h => hru.tracked (htr.tracked h)⟩

theorem page_blank (s : Session) {q : Nat} (hle : s.anchor ≤ q) : s.page.cells q = space :=
  terminalFormat.layout_blank s.text hle

theorem page_append_line {text line : List UInt8} (hline : newline ∉ line) :
    terminalFormat.layout (text ++ line)
      = { cells := overwrite (terminalFormat.layout text).cells (terminalFormat.layout text).pos line
          pos := (terminalFormat.layout text).pos + line.length } :=
  terminalFormat.layout_append_line text hline

theorem page_concat_newline (text : List UInt8) :
    terminalFormat.layout (text ++ [newline])
      = { cells := (terminalFormat.layout text).cells
          pos := ((terminalFormat.layout text).pos / 80 + 1) * 80 } := by
  have hwrite := terminalFormat.write_newline (terminalFormat.layout text)
  rw [terminalFormat.layout_concat]
  exact hwrite

theorem page_concat_of_ne {c : UInt8} (hc : c ≠ newline) (text : List UInt8) :
    terminalFormat.layout (text ++ [c])
      = { cells := Function.update (terminalFormat.layout text).cells
            (terminalFormat.layout text).pos c
          pos := (terminalFormat.layout text).pos + 1 } := by
  rw [terminalFormat.layout_concat]
  exact terminalFormat.write_of_ne hc _

theorem shown_of_empty (hline : s.line = .empty) : s.shown = s.page := by
  rw [Session.shown, hline, Zipper.line_empty, List.append_nil]
  rfl

theorem print_eq (hline : s.line = .empty) (c : UInt8) :
    s.print c = { s with
      text := s.text ++ [c]
      top := settledTop s.top (terminalFormat.layout (s.text ++ [c])).pos } := by
  have hshown := shown_of_empty (s := { s with text := s.text ++ [c] }) hline
  rw [Session.print, Session.settle, hshown]
  rfl

theorem line_print (c : UInt8) : (s.print c).line = s.line := rfl

/-! ### Printing -/

theorem Printing.mode_keeps (hprinting : Printing t s) (hkeeps : Keeps t r) :
    r.currentScreen.inputSize.toInt = -1 ∨
      (r.currentScreen.inputSize.toInt = 0 ∧ r.currentScreen.inputCursor.toInt = 0) := by
  rw [hkeeps.inputSize, hkeeps.inputCursor]
  exact hprinting.mode

theorem putc_char_printed (hprinting : Printing t s) {c : UInt8} (hc : c ≠ newline) :
    Printed t (t.putc c) (s.print c) ∧ (t.putc c).Displayed ∧ (t.putc c).CursorTracked := by
  obtain ⟨hshown, hdisplayed⟩ := putc_shown hprinting.view hc (by omega)
  have hpage := page_concat_of_ne hc s.text
  refine ⟨⟨⟨?_, ?_, hprinting.mode_keeps hshown.keeps⟩, hshown.keeps,
    fun _ => hshown.tracked⟩, hdisplayed, hshown.tracked⟩
  · rw [print_eq hprinting.line, Session.page, Session.anchor, Session.page, hpage]
    exact hshown.view.raise (Nat.le_succ _) le_rfl
  · rw [line_print, hprinting.line]

theorem putc_newline_printed (hprinting : Printing t s) :
    Printed t (t.putc newline) (s.print newline) ∧ (t.putc newline).CursorTracked := by
  obtain ⟨hshown, -⟩ := putc_newline_shown hprinting.view fun q hq => page_blank s hq
  have hpage := page_concat_newline s.text
  refine ⟨⟨⟨?_, ?_, hprinting.mode_keeps hshown.keeps⟩, hshown.keeps,
    fun _ => hshown.tracked⟩, hshown.tracked⟩
  · rw [print_eq hprinting.line, Session.page, Session.anchor, Session.page, hpage, settledTop_eq,
      Nat.mul_div_cancel _ (by decide)]
    exact hshown.view
  · rw [line_print, hprinting.line]

theorem putc_printed (hprinting : Printing t s) (c : UInt8) :
    Printed t (t.putc c) (s.print c) ∧ (t.putc c).CursorTracked := by
  by_cases hc : c = newline
  · rw [hc]
    exact putc_newline_printed hprinting
  · obtain ⟨hprinted, -, htracked⟩ := putc_char_printed hprinting hc
    exact ⟨hprinted, htracked⟩

theorem putcAll_printed (hprinting : Printing t s) (chars : List UInt8) :
    Printed t (chars.foldl (fun t c => t.putc c) t) (s.printAll chars) := by
  induction chars generalizing t s with
  | nil => exact .refl hprinting
  | cons c chars ih =>
      have hprinted := (putc_printed hprinting c).1
      exact hprinted.trans (ih hprinted.printing)

/-- The prompt ends with a character, so printing it draws the page and shows the cursor. -/
theorem putPrompt_printed (hprinting : Printing t s) :
    Printed t t.putPrompt (s.printAll terminalPrompt) ∧ t.putPrompt.Displayed ∧
      t.putPrompt.CursorTracked := by
  have hdollar := (putc_printed hprinting (chr '$')).1
  obtain ⟨hspace, hdisplayed, htracked⟩ :=
    putc_char_printed hdollar.printing (c := chr ' ') (by decide)
  exact ⟨hdollar.trans hspace, hdisplayed, htracked⟩

/-! ### Clearing -/

/-- What the loops of `terminal_clear` have done after `n` columns. -/
structure Cleared (n : Nat) (t r : Terminal) : Prop where
  keeps : Keeps t r
  blank : ∀ y < 35, ∀ x < n, r.currentScreen.data y x = t.currentScreen.cell space
  safe : r.Safe

theorem data_writeCell (y x : Nat) (c : UInt8) (t : Terminal) (y' x' : Nat) :
    (t.writeCell y x c).currentScreen.data y' x'
      = if y' = y ∧ x' = x then t.currentScreen.cell c else t.currentScreen.data y' x' := by
  rw [currentScreen_writeCell]
  change Function.update t.currentScreen.data y (Function.update (t.currentScreen.data y) x
    (t.currentScreen.cell c)) y' x' = _
  by_cases hy : y' = y
  · subst hy
    rw [Function.update_self]
    by_cases hx : x' = x
    · subst hx
      simp
    · simp [hx]
  · simp [hy]

theorem Keeps.cell {t r : Terminal} (hkeeps : Keeps t r) (c : UInt8) :
    r.currentScreen.cell c = t.currentScreen.cell c := by
  simp only [Screen.cell, hkeeps.fgColor, hkeeps.bgColor]

theorem clearColumn_spec {n x : Nat} (hcleared : Cleared x t r) (hx : x < 80) (hn : n ≤ 35) :
    let column := forLoop 0 n (fun y t => t.writeCell y x space) r
    Cleared x t column ∧ ∀ y < n, column.currentScreen.data y x = t.currentScreen.cell space := by
  intro column
  refine forLoop_rule (fun n (column : Terminal) => Cleared x t column ∧
    ∀ y < n, column.currentScreen.data y x = t.currentScreen.cell space) (Nat.zero_le n)
    ⟨hcleared, by omega⟩ ?_
  intro y current _ hy ⟨hcurrent, hcolumn⟩
  have hcell := hcurrent.keeps.cell space
  refine ⟨⟨hcurrent.keeps.trans (keeps_writeCell y x space current), ?_,
    safe_writeCell hcurrent.safe (by omega) hx space⟩, ?_⟩
  · intro y' hy' x' hx'
    rw [data_writeCell, hcell]
    split
    · rfl
    · exact hcurrent.blank y' hy' x' hx'
  · intro y' hy'
    rw [data_writeCell, hcell]
    split
    · rfl
    · exact hcolumn y' (by omega)

theorem clearRows_spec (hsafe : t.Safe) :
    Cleared 80 t (forLoop 0 terminalWidth (fun x t =>
      forLoop 0 terminalHeight (fun y t => t.writeCell y x space) t) t) := by
  refine forLoop_rule (fun n (r : Terminal) => Cleared n t r) (Nat.zero_le 80)
    ⟨.refl t, by omega, hsafe⟩ ?_
  intro x r _ hx hr
  obtain ⟨hcleared, hcolumn⟩ := clearColumn_spec hr hx (n := 35) le_rfl
  refine ⟨hcleared.keeps, ?_, hcleared.safe⟩
  intro y hy x' hx'
  by_cases heq : x' = x
  · rw [heq]
    exact hcolumn y hy
  · exact hcleared.blank y hy x' (by omega)

/-- `terminal_clear` starts the session again, whatever the screen held. -/
theorem clear_printing (hsafe : t.Safe) : Printing t.clear .clear ∧ Touches t t.clear := by
  have hcleared := clearRows_spec hsafe
  set rows := forLoop 0 terminalWidth (fun x t =>
    forLoop 0 terminalHeight (fun y t => t.writeCell y x space) t) t with hrows
  have hcurrent : t.clear.currentScreen
      = { rows.currentScreen with
          cursorX := 0, cursorY := 0, scrollY := 0, inputSize := 0, inputCursor := 0
          shifts := 0 } :=
    currentScreen_modifyScreen _ rows
  have hsafeClear : t.clear.Safe := safe_modifyScreen.mpr hcleared.safe
  have hanchor : Session.clear.anchor = 0 := rfl
  refine ⟨⟨⟨?_, ?_, ?_, le_rfl, by omega, hsafeClear⟩, rfl, ?_⟩, ?_⟩
  · rw [hcurrent, hanchor]
    refine ⟨?_, rfl, rfl, fun _ _ => rfl, rfl⟩
    intro y hy x hx
    exact (hcleared.blank y hy x hx).trans (hcleared.keeps.cell space).symm
  · rw [hcurrent]
    exact Nat.zero_lt_succ 34
  · rw [hcurrent]
    exact ⟨le_rfl, Nat.zero_le 10, Or.inl rfl⟩
  · right
    rw [hcurrent]
    exact ⟨rfl, rfl⟩
  · refine hcleared.keeps.touches.trans ⟨frame_modifyScreen _ rows, ?_, ?_, ?_⟩
    all_goals rw [hcurrent]

/-! ### From input to output and back -/

/-- A session whose input is empty is edited and printed on alike. -/
theorem Printing.editing (hprinting : Printing t s) (hsize : t.currentScreen.inputSize.toInt = 0) :
    EditingSession t s := by
  have hline := hprinting.line
  have hpos := hprinting.view.pos_lt
  have hcursor : t.currentScreen.inputCursor.toInt = 0 := by
    rcases hprinting.mode with hmode | hmode
    · omega
    · exact hmode.2
  refine ⟨?_, ?_, ?_, ?_, ?_, ?_, fun q hq => page_blank s hq⟩
  all_goals rw [hline]
  · rw [Zipper.line_empty, overwrite_nil]
    exact hprinting.view
  · exact hsize
  · exact hcursor
  · decide
  · exact hpos
  · decide

theorem EditingSession.shown_eq (hediting : EditingSession t s) :
    s.shown = ⟨overwrite s.page.cells s.anchor s.line.line, s.anchor + s.line.size⟩ := by
  have hline := @page_append_line s.text _ hediting.noNewline
  rw [Session.shown, hline, Zipper.line_length]
  rfl

theorem beginOutput_anchor (s : Session) : s.beginOutput.anchor % 80 = 0 := by
  have hpage : s.beginOutput.page
      = terminalFormat.layout (s.text ++ s.line.line ++ [newline]) := rfl
  rw [Session.anchor, hpage, page_concat_newline, Nat.mul_mod_left]

structure Begun (t r : Terminal) (s : Session) : Prop where
  printing : Printing r s
  touches : Touches t r
  inputSize : r.currentScreen.inputSize = -1
  /-- The input cursor is stale until the command ends. -/
  inputCursor : r.currentScreen.inputCursor = t.currentScreen.inputCursor
  tracked : r.CursorTracked

/-- `terminal_begin_output` first moves the cursor to the end of the line. -/
theorem EditingSession.toEnd (hediting : EditingSession t s) :
    let moved := if 0 < t.currentScreen.inputSize.toInt then
        t.moveCursor (t.currentScreen.inputSize.toInt - t.currentScreen.inputCursor.toInt)
      else
        t
    View moved s.top (overwrite s.page.cells s.anchor s.line.line) (s.anchor + s.line.size)
      s.anchor ∧ Keeps t moved ∧ (t.Displayed → moved.Displayed) := by
  intro moved
  have hsize := hediting.size
  have hcursor := hediting.cursor
  have hle := hediting.size_le
  have hfits := hediting.fits
  have hsizes : s.line.size = s.line.before.length + s.line.after.length := rfl
  by_cases hempty : 0 < t.currentScreen.inputSize.toInt
  · have hmoved : moved = t.moveCursor
        (t.currentScreen.inputSize.toInt - t.currentScreen.inputCursor.toInt) := if_pos hempty
    have hposition : ((s.anchor + s.line.before.length : Nat) : Int)
        + (t.currentScreen.inputSize.toInt - t.currentScreen.inputCursor.toInt)
        = (s.anchor + s.line.size : Nat) := by omega
    obtain ⟨hshown, hdisplayed⟩ := moveCursor_shown hediting.view hposition (by omega) (by omega)
      hfits
    rw [hmoved]
    exact ⟨hshown.view, hshown.keeps, hdisplayed⟩
  · have hmoved : moved = t := if_neg hempty
    have hend : s.line.before.length = s.line.size := by omega
    have hview := hediting.view
    rw [hend] at hview
    rw [hmoved]
    exact ⟨hview, .refl t, id⟩

/-- The line is printed already: beginning the output adds a newline to the page. -/
theorem EditingSession.beginOutput_page (hediting : EditingSession t s) :
    s.beginOutput.page
      = { cells := overwrite s.page.cells s.anchor s.line.line
          pos := ((s.anchor + s.line.size) / 80 + 1) * 80 } ∧
      s.beginOutput.top = max s.top ((s.anchor + s.line.size) / 80 + 1 - 34) := by
  have hpage : terminalFormat.layout (s.text ++ s.line.line ++ [newline])
      = { cells := overwrite s.page.cells s.anchor s.line.line
          pos := ((s.anchor + s.line.size) / 80 + 1) * 80 } := by
    have hshown := hediting.shown_eq
    rw [Session.shown] at hshown
    rw [page_concat_newline, hshown]
  have hempty := shown_of_empty (s := ⟨s.text ++ s.line.line ++ [newline], .empty, s.top⟩) rfl
  refine ⟨hpage, ?_⟩
  rw [Session.beginOutput, Session.settle, hempty, Session.page, hpage, settledTop_eq,
    Nat.mul_div_cancel _ (by decide)]

theorem beginOutput_begun (hediting : EditingSession t s) :
    Begun t t.beginOutput s.beginOutput ∧
      (s.shown.pos / 80 < s.top + 34 → t.Displayed → t.beginOutput.Displayed) := by
  have hshownPos : s.shown.pos = s.anchor + s.line.size := by rw [hediting.shown_eq]
  obtain ⟨hview, hkeepsMoved, hdisplayedMoved⟩ := hediting.toEnd
  set moved := if 0 < t.currentScreen.inputSize.toInt then
      t.moveCursor (t.currentScreen.inputSize.toInt - t.currentScreen.inputCursor.toInt)
    else
      t
  have hblank : ∀ q, s.anchor + s.line.size ≤ q →
      overwrite s.page.cells s.anchor s.line.line q = space := by
    intro q hq
    rw [overwrite_of_le (by rwa [Zipper.line_length])]
    exact page_blank s (by omega)
  obtain ⟨hshown, hdisplayed⟩ := putc_newline_shown hview hblank
  set printed := moved.putc newline
  set leaveInput : Screen → Screen := fun screen => { screen with inputSize := -1 }
  have hset : leaveInput printed.currentScreen
      = { printed.currentScreen with
          inputSize := -1
          inputCursor := printed.currentScreen.inputCursor } := rfl
  have hbegin : t.beginOutput = printed.modifyScreen leaveInput := by
    have hvisibility : t.beginOutput
        = (printed.modifyScreen leaveInput).vgaSetCursorVisibility false := rfl
    rw [hvisibility, vgaSetCursorVisibility_eq]
  obtain ⟨hpage, htop⟩ := hediting.beginOutput_page
  have hanchor : s.beginOutput.anchor = ((s.anchor + s.line.size) / 80 + 1) * 80 := by
    rw [Session.anchor, hpage]
  rw [hbegin]
  refine ⟨⟨⟨?_, rfl, ?_⟩, (hkeepsMoved.trans hshown.keeps).touches.trans (touches_setInput hset),
    ?_, ?_, cursorTracked_setInput hset hshown.tracked⟩, ?_⟩
  · rw [hpage, hanchor, htop]
    exact hshown.view.setInput hset
  · left
    rw [currentScreen_modifyScreen]
    rfl
  · rw [currentScreen_modifyScreen]
  · rw [currentScreen_modifyScreen]
    exact (hkeepsMoved.trans hshown.keeps).inputCursor
  · intro hrow h
    rw [hshownPos] at hrow
    exact displayed_setInput hset (hdisplayed hrow (hdisplayedMoved h))

/-- The outcome of an operation that ends in input mode. -/
structure Ended (t r : Terminal) (s : Session) : Prop where
  editing : EditingSession r s
  touches : Touches t r
  tracked : t.CursorTracked → r.CursorTracked

theorem endInput_ended (hprinted : Printed t r s) :
    Ended t (r.modifyScreen fun screen => { screen with inputSize := 0, inputCursor := 0 }) s := by
  have hset : (fun screen : Screen => { screen with inputSize := 0, inputCursor := 0 })
      r.currentScreen = { r.currentScreen with inputSize := 0, inputCursor := 0 } := rfl
  have hcurrent := currentScreen_modifyScreen
    (fun screen : Screen => { screen with inputSize := 0, inputCursor := 0 }) r
  have hmode : (r.modifyScreen fun screen : Screen =>
        { screen with inputSize := 0, inputCursor := 0 }).currentScreen.inputSize.toInt = 0 ∧
      (r.modifyScreen fun screen : Screen =>
        { screen with inputSize := 0, inputCursor := 0 }).currentScreen.inputCursor.toInt = 0 := by
    rw [hcurrent]
    exact ⟨rfl, rfl⟩
  have hprinting : Printing (r.modifyScreen fun screen : Screen =>
      { screen with inputSize := 0, inputCursor := 0 }) s :=
    ⟨hprinted.printing.view.setInput hset, hprinted.printing.line, Or.inr hmode⟩
  exact ⟨hprinting.editing hmode.1, hprinted.keeps.touches.trans (touches_setInput hset),
    fun h => cursorTracked_setInput hset (hprinted.tracked h)⟩

theorem column_eq (hprinting : Printing t s) :
    t.currentScreen.cursorX ≠ 0 ↔ s.anchor % terminalWidth ≠ 0 := by
  have hcursor := hprinting.view.window.cursorX
  rw [ne_eq, ne_eq, ← UInt16.toNat_inj, hcursor]
  rfl

theorem endOutput_ended (hprinting : Printing t s) (showPrompt : Bool) :
    Ended t (t.endOutput showPrompt) (s.endOutput showPrompt) ∧
      (showPrompt = true →
        (t.endOutput showPrompt).Displayed ∧ (t.endOutput showPrompt).CursorTracked) ∧
      (showPrompt = false → s.anchor % 80 = 0 → t.Displayed → (t.endOutput showPrompt).Displayed) := by
  set ended := if t.currentScreen.cursorX ≠ 0 then t.putc newline else t with hendedDef
  have hended : Printed t ended (if s.anchor % terminalWidth ≠ 0 then s.print newline else s) := by
    by_cases hcolumn : t.currentScreen.cursorX ≠ 0
    · rw [hendedDef, if_pos hcolumn, if_pos ((column_eq hprinting).mp hcolumn)]
      exact (putc_newline_printed hprinting).1
    · rw [hendedDef, if_neg hcolumn, if_neg fun h => hcolumn ((column_eq hprinting).mpr h)]
      exact .refl hprinting
  set sEnded := if s.anchor % terminalWidth ≠ 0 then s.print newline else s with hsEndedDef
  cases showPrompt with
  | true =>
      obtain ⟨hprompt, hdisplayed, htracked⟩ := putPrompt_printed hended.printing
      have hend : t.endOutput true
          = ended.putPrompt.modifyScreen fun screen =>
              { screen with inputSize := 0, inputCursor := 0 } := by
        rw [endOutput, vgaSetCursorVisibility_eq]
        rfl
      have hsession : s.endOutput true = sEnded.printAll terminalPrompt := rfl
      rw [hend, hsession]
      exact ⟨endInput_ended (hended.trans hprompt),
        fun _ => ⟨displayed_setInput rfl hdisplayed, cursorTracked_setInput rfl htracked⟩, by simp⟩
  | false =>
      have hend : t.endOutput false
          = ended.modifyScreen fun screen => { screen with inputSize := 0, inputCursor := 0 } := by
        rw [endOutput, vgaSetCursorVisibility_eq]
        rfl
      have hsession : s.endOutput false = sEnded := rfl
      rw [hend, hsession]
      refine ⟨endInput_ended hended, by simp, fun _ hzero hdisplayed => ?_⟩
      have hcolumn : ¬ t.currentScreen.cursorX ≠ 0 := by
        rw [column_eq hprinting]
        exact not_not_intro hzero
      rw [hendedDef, if_neg hcolumn]
      exact displayed_setInput rfl hdisplayed

/-! ### Opening a screen -/

/-- The set-up of a screen: only its colors survive. -/
structure SetUp (t r : Terminal) : Prop where
  editing : EditingSession r .opened
  frame : Frame t r
  fgColor : r.currentScreen.fgColor = t.currentScreen.fgColor
  bgColor : r.currentScreen.bgColor = t.currentScreen.bgColor
  initialized : r.currentScreen.initialized = true
  displayed : r.Displayed

theorem Printing.setInitialized (hprinting : Printing t s) :
    Printing (t.modifyScreen fun screen => { screen with initialized := true }) s := by
  have hcurrent := currentScreen_modifyScreen
    (fun screen : Screen => { screen with initialized := true }) t
  obtain ⟨⟨hwindow, hrow, hanchored, hle, hpos, hsafe⟩, hline, hmode⟩ := hprinting
  refine ⟨⟨?_, ?_, ?_, hle, hpos, safe_modifyScreen.mpr hsafe⟩, hline, ?_⟩
  all_goals rw [hcurrent]
  · exact ⟨hwindow.data, hwindow.cursorX, hwindow.cursorY, hwindow.beyond, hwindow.shifts⟩
  · exact hrow
  · exact ⟨hanchored.top_le, hanchored.scroll_le, hanchored.scroll⟩
  · exact hmode

theorem setUpScreen_setUp (hsafe : t.Safe) : SetUp t t.setUpScreen := by
  obtain ⟨hclear, htouches⟩ := clear_printing hsafe
  obtain ⟨hprompt, hdisplayed, -⟩ := putPrompt_printed hclear
  have htouches' := htouches.trans hprompt.keeps.touches
  have hcurrent : t.setUpScreen.currentScreen
      = { t.clear.putPrompt.currentScreen with initialized := true } :=
    currentScreen_modifyScreen _ _
  have hempty : t.setUpScreen.currentScreen.inputSize.toInt = 0 := by
    have hclearSize : t.clear.currentScreen.inputSize = 0 := by
      rw [clear, currentScreen_modifyScreen]
    rw [hcurrent, hprompt.keeps.inputSize, hclearSize]
    rfl
  refine ⟨hprompt.printing.setInitialized.editing hempty,
    htouches'.frame.trans (frame_modifyScreen _ _), ?_, ?_, ?_,
    displayed_congr (t := t.clear.putPrompt) rfl ?_ ?_ hdisplayed⟩
  all_goals rw [hcurrent]
  · exact htouches'.fgColor
  · exact htouches'.bgColor

end Terminal

end KernelFromScratch
