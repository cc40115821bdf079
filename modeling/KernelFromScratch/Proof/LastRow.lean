import KernelFromScratch.Proof.Output

/-!
# A newline on the last row

`putc` of a newline on the last row moves the buffer up without drawing it: the last row of the
page keeps what the buffer no longer holds.
-/

namespace KernelFromScratch

/-- The low byte of a video cell is its character. -/
theorem character_getCell (c fgColor bgColor : UInt8) : (getCell c fgColor bgColor).toUInt8 = c := by
  apply UInt8.toBitVec_inj.mp
  ext i hi
  simp [getCell]

theorem ScreenCell.encode_character {cell cell' : ScreenCell} (heq : cell.encode = cell'.encode) :
    cell.character = cell'.character := by
  have hcharacter := congrArg UInt16.toUInt8 heq
  rwa [encode, encode, character_getCell, character_getCell] at hcharacter

namespace Terminal

variable {t r : Terminal} {s : Session} {top pos anchor : Nat} {cells : Nat → UInt8}

/-- The cursor is on the last row, which is the last visible one. -/
structure AtBottom (t : Terminal) : Prop where
  cursorY : t.currentScreen.cursorY.toNat = 34
  scrollY : t.currentScreen.scrollY.toNat = 10

/-- The last visible row is drawn alike. -/
def BottomKept (t r : Terminal) : Prop :=
  ∀ x < 80, r.vga.memory (24 * 80 + x) = t.vga.memory (24 * 80 + x)

theorem vga_modifyScreen (f : Screen → Screen) (t : Terminal) : (t.modifyScreen f).vga = t.vga :=
  rfl

theorem vga_moveScreenUp (t : Terminal) : t.moveScreenUp.vga = t.vga := by
  have hblank : t.memmoveRows.blankLastRow.vga = t.memmoveRows.vga := by
    refine forLoop_unchanged vga ?_ t.memmoveRows
    intro x r
    rw [writeCell, vga_modifyScreen]
    rfl
  rw [moveScreenUp, vga_modifyScreen, hblank, memmoveRows, vga_modifyScreen]

theorem putCell_bottomKept {y x : Nat} (hscroll : t.currentScreen.scrollY.toNat ≤ y)
    (hy : y < t.currentScreen.scrollY.toNat + 24) (hrow : y < 35) (hx : x < 80) (c : UInt8) :
    BottomKept t (t.putCell y x c) := by
  intro x' hx'
  have hcolumn : (UInt8.ofNat x).toNat = x := toNat_ofNat_uint8 (by omega)
  have hvga := yToVga_toNat hscroll hrow
  have hne : 24 * 80 + x' ≠ (t.yToVga y).toNat * 80 + (UInt8.ofNat x).toNat := by
    rw [hvga, hcolumn]
    omega
  exact Vga.setCell_memory_of_ne hne

theorem alignScrollToCursor_of_visible (hnotAbove : t.currentScreen.scrollY.toNat
    ≤ t.currentScreen.cursorY.toNat)
    (hvisible : t.currentScreen.cursorY.toNat < t.currentScreen.scrollY.toNat + 25) :
    t.alignScrollToCursor = t := by
  have habove : ¬ t.isCursorAboveVisible := Nat.not_lt.mpr hnotAbove
  have hbelow : ¬ t.isCursorBelowVisible := Nat.not_le.mpr hvisible
  rw [alignScrollToCursor, alignScrollUp, if_neg habove, alignScrollDown, if_neg hbelow]

/-- A newline at the bottom draws nothing on the last visible row. -/
theorem putc_newline_bottom (hsafe : t.Safe) (hbottom : AtBottom t) :
    BottomKept t (t.putc newline) ∧
      (t.putc newline).currentScreen.scrollY = t.currentScreen.scrollY := by
  obtain ⟨hrow, hscroll⟩ := hbottom
  have hlast : terminalHeight ≤ t.currentScreen.cursorY.toNat + 1 := by
    simp only [terminalHeight, terminalExtraLines, vgaHeight]
    omega
  have hmovedUp := moveScreenUp_spec hsafe
  have hup : t.moveScreenUp.currentScreen.cursorY.toNat = 33 := by
    rw [hmovedUp.cursorY, UInt16.toNat_sub, UInt16.toNat_one]
    omega
  -- the loop blanks the row above the last one
  set rest := forLoop t.moveScreenUp.currentScreen.cursorX.toNat terminalWidth
    (fun x t => t.putCell t.currentScreen.cursorY.toNat x space) t.moveScreenUp with hrestDef
  have hrest : BottomKept t rest ∧
      rest.currentScreen.cursorY = t.moveScreenUp.currentScreen.cursorY ∧
      rest.currentScreen.scrollY = t.currentScreen.scrollY := by
    refine forLoop_preserves (fun r : Terminal => BottomKept t r ∧
      r.currentScreen.cursorY = t.moveScreenUp.currentScreen.cursorY ∧
      r.currentScreen.scrollY = t.currentScreen.scrollY) ⟨?_, rfl, hmovedUp.scrollY⟩ ?_
    · intro x _
      rw [vga_moveScreenUp]
    · intro x r _ hx ⟨hkept, hcursor, hscroll'⟩
      rw [hcursor, hup]
      refine ⟨fun x' hx' => ?_, ?_, ?_⟩
      · rw [← hkept x' hx']
        refine putCell_bottomKept ?_ ?_ (by omega) hx space x' hx'
        all_goals
          rw [hscroll']
          omega
      · rw [currentScreen_putCell]
        exact hcursor
      · rw [currentScreen_putCell]
        exact hscroll'
  obtain ⟨hkept, hcursor, hscroll'⟩ := hrest
  set moved := rest.modifyScreen fun screen =>
    { screen with cursorX := 0, cursorY := screen.cursorY + 1 } with hmovedDef
  have hcurrent : moved.currentScreen
      = { rest.currentScreen with cursorX := 0, cursorY := rest.currentScreen.cursorY + 1 } :=
    currentScreen_modifyScreen _ rest
  have hmovedRow : moved.currentScreen.cursorY.toNat = 34 := by
    rw [hcurrent]
    simp only
    rw [hcursor, UInt16.toNat_add, hup]
    rfl
  have hmovedScroll : moved.currentScreen.scrollY = t.currentScreen.scrollY := by
    rw [hcurrent]
    exact hscroll'
  have hputc : t.putc newline = moved.alignScrollToCursor.showCursor := by
    rw [putc, if_pos rfl, putNewline, if_pos hlast]
  have haligned : moved.alignScrollToCursor = moved := by
    apply alignScrollToCursor_of_visible
    all_goals
      rw [hmovedScroll]
      omega
  rw [hputc, haligned]
  refine ⟨fun x hx => ?_, ?_⟩
  · have hmemory : moved.showCursor.vga.memory = rest.vga.memory := Vga.putCursor_memory _ _ _
    rw [hmemory]
    exact hkept x hx
  · rw [currentScreen_showCursor]
    exact hmovedScroll

theorem moveCursor_bottom (hview : View t top cells pos anchor) {pos' : Nat} {offset : Int}
    (hoffset : (pos : Int) + offset = pos') (hle : anchor ≤ pos') (hpos : pos' ≤ anchor + 127)
    (hlast : pos' / 80 = top + 34) : AtBottom (t.moveCursor offset) := by
  obtain ⟨hshown, -⟩ := moveCursor_shown hview hoffset hle hpos (by omega)
  have hy := hshown.view.window.cursorY
  have hvisible := hshown.visible
  have hscroll := hshown.view.anchored.scroll_le
  exact ⟨by omega, by omega⟩

/-- `terminal_begin_output` on a line that ends on the last row leaves the last visible row drawn
as it was. -/
theorem beginOutput_bottom (hediting : EditingSession t s) (hline : 0 < s.line.size)
    (hlast : s.shown.pos / 80 = s.top + 34) :
    ∃ moved, (t.Displayed → moved.Displayed) ∧ AtBottom moved ∧
      moved.currentScreen.Window s.top s.shown.cells s.shown.pos ∧
      BottomKept moved t.beginOutput ∧
      t.beginOutput.currentScreen.scrollY = moved.currentScreen.scrollY := by
  have hsize := hediting.size
  have hcursor := hediting.cursor
  have hle := hediting.size_le
  have hfits := hediting.fits
  have hsizes : s.line.size = s.line.before.length + s.line.after.length := rfl
  rw [hediting.shown_eq] at hlast ⊢
  have hposition : ((s.anchor + s.line.before.length : Nat) : Int)
      + (t.currentScreen.inputSize.toInt - t.currentScreen.inputCursor.toInt)
      = (s.anchor + s.line.size : Nat) := by omega
  obtain ⟨hmoved, hdisplayed⟩ :=
    moveCursor_shown hediting.view hposition (by omega) (by omega) hfits
  have hbottom := moveCursor_bottom hediting.view hposition (by omega) (by omega) hlast
  obtain ⟨hkept, hscroll⟩ := putc_newline_bottom hmoved.view.safe hbottom
  have hbegin : t.beginOutput = (((t.moveCursor (t.currentScreen.inputSize.toInt
      - t.currentScreen.inputCursor.toInt)).putc newline).modifyScreen fun screen =>
        { screen with inputSize := -1 }) := by
    rw [beginOutput, if_pos (by omega), vgaSetCursorVisibility_eq]
  refine ⟨_, hdisplayed, hbottom, hmoved.view.window, ?_, ?_⟩
  · rw [hbegin]
    exact hkept
  · rw [hbegin, currentScreen_modifyScreen]
    exact hscroll

theorem beginOutput_stale (hediting : EditingSession t s) (hdisplayed : t.Displayed)
    (hline : 0 < s.line.size) (hlast : s.shown.pos / 80 = s.top + 34) {x : Nat} (hx : x < 80)
    (hcell : s.shown.cells ((s.top + 34) * 80 + x) ≠ space) : ¬ t.beginOutput.Displayed := by
  intro hstale
  obtain ⟨moved, hmovedDisplayed, hbottom, hwindow, hkept, hscroll⟩ :=
    beginOutput_bottom hediting hline hlast
  have hprinting := (beginOutput_begun hediting).1.printing
  have hscroll' : t.beginOutput.currentScreen.scrollY.toNat = 10 := by
    rw [hscroll]
    exact hbottom.scrollY
  have hblank : s.beginOutput.page.cells ((s.beginOutput.top + 34) * 80 + x) = space := by
    have hcolumn := beginOutput_anchor s
    have hlt := hprinting.view.pos_lt
    exact page_blank _ (by omega)
  -- the last visible row is the last one of the buffer: it was drawn, and is blank now
  have hbefore := hmovedDisplayed hdisplayed 24 (by omega) x hx
  have hafter := hstale 24 (by omega) x hx
  rw [hbottom.scrollY, hwindow.data 34 (by omega) x hx] at hbefore
  rw [hscroll', hprinting.view.window.data 34 (by omega) x hx, hblank] at hafter
  have hencode := hbefore.symm.trans ((hkept x hx).symm.trans hafter)
  exact hcell (ScreenCell.encode_character hencode)

/-- A command that prints nothing and ends without a prompt, on a line that ends on the last row,
leaves that row drawn although the buffer has moved up. -/
theorem silent_stale (hediting : EditingSession t s) (hdisplayed : t.Displayed)
    (hline : 0 < s.line.size) (hlast : s.shown.pos / 80 = s.top + 34) {x : Nat} (hx : x < 80)
    (hcell : s.shown.cells ((s.top + 34) * 80 + x) ≠ space) :
    ¬ (t.beginOutput.endOutput false).Displayed := by
  intro hstale
  have hprinting := (beginOutput_begun hediting).1.printing
  have hcolumn : ¬ t.beginOutput.currentScreen.cursorX ≠ 0 := by
    rw [column_eq hprinting]
    exact not_not_intro (beginOutput_anchor s)
  have hend : t.beginOutput.endOutput false = t.beginOutput.modifyScreen fun screen =>
      { screen with inputSize := 0, inputCursor := 0 } := by
    rw [endOutput, vgaSetCursorVisibility_eq]
    simp only [if_neg hcolumn, Bool.false_eq_true, if_false]
  rw [hend] at hstale
  refine beginOutput_stale hediting hdisplayed hline hlast hx hcell ?_
  refine displayed_congr ?_ ?_ ?_ hstale
  · rw [vga_modifyScreen]
  · rw [currentScreen_modifyScreen]
  · rw [currentScreen_modifyScreen]

end Terminal

end KernelFromScratch
