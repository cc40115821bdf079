import KernelFromScratch.Library.Layout
import KernelFromScratch.Proof.Video

/-!
# The buffer as a window on a page

The 35 rows of a screen are rows `top`, ..., `top + 34` of an unbounded page of cells, and the
cursor stands at a linear position of that page. The functions that write a cell or move the cursor
are described here on the page: `move_screen_up` only moves the window down one row.
-/

namespace KernelFromScratch

namespace Screen

/-- The screen shows `cells` from row `top` on, with the cursor at position `pos`. -/
structure Window (screen : Screen) (top : Nat) (cells : Nat → UInt8) (pos : Nat) : Prop where
  data : ∀ y < 35, ∀ x < 80, screen.data y x = screen.cell (cells ((top + y) * 80 + x))
  cursorX : screen.cursorX.toNat = pos % 80
  cursorY : top + screen.cursorY.toNat = pos / 80
  /-- Nothing is written past the `35 * 80` cells of the window. -/
  beyond : ∀ q, top * 80 + 2800 ≤ q → cells q = space
  shifts : screen.shifts = top

variable {screen : Screen} {top pos : Nat} {cells : Nat → UInt8}

theorem Window.linear (hwindow : screen.Window top cells pos) :
    (top + screen.cursorY.toNat) * 80 + screen.cursorX.toNat = pos := by
  rw [hwindow.cursorX, hwindow.cursorY]
  omega

theorem Window.setData (hwindow : screen.Window top cells pos) {y x : Nat} (hy : y < 35)
    (hx : x < 80) (c : UInt8) :
    (screen.setData y x (screen.cell c)).Window top
      (Function.update cells ((top + y) * 80 + x) c) pos := by
  refine ⟨?_, hwindow.cursorX, hwindow.cursorY, ?_, hwindow.shifts⟩
  · intro y' hy' x' hx'
    change Function.update screen.data y (Function.update (screen.data y) x (screen.cell c)) y' x'
      = screen.cell (Function.update cells ((top + y) * 80 + x) c ((top + y') * 80 + x'))
    by_cases hrow : y' = y
    · subst hrow
      rw [Function.update_self]
      by_cases hcolumn : x' = x
      · subst hcolumn
        rw [Function.update_self, Function.update_self]
      · rw [Function.update_of_ne hcolumn, Function.update_of_ne (by omega)]
        exact hwindow.data y' hy x' hx'
    · rw [Function.update_of_ne hrow, Function.update_of_ne (by omega)]
      exact hwindow.data y' hy' x' hx'
  · intro q hq
    rw [Function.update_of_ne (by omega)]
    exact hwindow.beyond q hq

theorem Window.withCursor (hwindow : screen.Window top cells pos) {cursorX cursorY : UInt16}
    {pos' : Nat} (hx : cursorX.toNat = pos' % 80) (hy : top + cursorY.toNat = pos' / 80) :
    ({ screen with cursorX := cursorX, cursorY := cursorY } : Screen).Window top cells pos' :=
  ⟨hwindow.data, hx, hy, hwindow.beyond, hwindow.shifts⟩

/-- The scroll position stays at least 22 rows above the row of the anchor, which the cursor never
leaves by more than two rows. -/
structure Anchored (screen : Screen) (top anchor : Nat) : Prop where
  top_le : top * 80 ≤ anchor
  scroll_le : screen.scrollY.toNat ≤ 10
  scroll : screen.scrollY.toNat = 0 ∨ top + screen.scrollY.toNat + 22 ≤ anchor / 80

theorem Anchored.scroll_le_row {anchor y : Nat} (hanchored : screen.Anchored top anchor)
    (hle : anchor / 80 ≤ top + y) : screen.scrollY.toNat ≤ y := by
  have hscroll := hanchored.scroll
  omega

theorem Anchored.mono {anchor anchor' : Nat} (hanchored : screen.Anchored top anchor)
    (hle : anchor ≤ anchor') : screen.Anchored top anchor' := by
  obtain ⟨htop, hle10, hscroll⟩ := hanchored
  exact ⟨by omega, hle10, by omega⟩

end Screen

namespace Terminal

/-- The current screen keeps its colors, and the other screens everything. -/
structure Touches (t r : Terminal) : Prop where
  frame : Frame t r
  fgColor : r.currentScreen.fgColor = t.currentScreen.fgColor
  bgColor : r.currentScreen.bgColor = t.currentScreen.bgColor
  initialized : r.currentScreen.initialized = t.currentScreen.initialized

theorem Touches.refl (t : Terminal) : Touches t t := ⟨.refl t, rfl, rfl, rfl⟩

theorem Touches.trans {t r s : Terminal} (htr : Touches t r) (hrs : Touches r s) : Touches t s :=
  ⟨htr.frame.trans hrs.frame, hrs.fgColor.trans htr.fgColor, hrs.bgColor.trans htr.bgColor,
    hrs.initialized.trans htr.initialized⟩

/-- Nothing but the contents, the cursor and the scroll position of the current screen changes. -/
structure Keeps (t r : Terminal) : Prop where
  frame : Frame t r
  inputSize : r.currentScreen.inputSize = t.currentScreen.inputSize
  inputCursor : r.currentScreen.inputCursor = t.currentScreen.inputCursor
  fgColor : r.currentScreen.fgColor = t.currentScreen.fgColor
  bgColor : r.currentScreen.bgColor = t.currentScreen.bgColor
  initialized : r.currentScreen.initialized = t.currentScreen.initialized

theorem Keeps.refl (t : Terminal) : Keeps t t := ⟨.refl t, rfl, rfl, rfl, rfl, rfl⟩

theorem Keeps.trans {t r s : Terminal} (htr : Keeps t r) (hrs : Keeps r s) : Keeps t s :=
  ⟨htr.frame.trans hrs.frame, hrs.inputSize.trans htr.inputSize,
    hrs.inputCursor.trans htr.inputCursor, hrs.fgColor.trans htr.fgColor,
    hrs.bgColor.trans htr.bgColor, hrs.initialized.trans htr.initialized⟩

theorem Keeps.touches {t r : Terminal} (hkeeps : Keeps t r) : Touches t r :=
  ⟨hkeeps.frame, hkeeps.fgColor, hkeeps.bgColor, hkeeps.initialized⟩

theorem keeps_of_currentScreen {t r : Terminal} (hframe : Frame t r)
    (hcurrent : r.currentScreen = t.currentScreen) : Keeps t r :=
  ⟨hframe, by rw [hcurrent], by rw [hcurrent], by rw [hcurrent], by rw [hcurrent], by rw [hcurrent]⟩

theorem Aligned.keeps {t r : Terminal} (haligned : Aligned t r) : Keeps t r :=
  ⟨haligned.frame, by rw [haligned.screen]; rfl, by rw [haligned.screen]; rfl,
    by rw [haligned.screen]; rfl, by rw [haligned.screen]; rfl, by rw [haligned.screen]; rfl⟩

theorem keeps_moveTo (cursorX cursorY : Screen → UInt16) (t : Terminal) :
    Keeps t (t.modifyScreen fun screen =>
      { screen with cursorX := cursorX screen, cursorY := cursorY screen }) := by
  refine ⟨frame_modifyScreen _ t, ?_, ?_, ?_, ?_, ?_⟩ <;> rw [currentScreen_modifyScreen]

/-! ### One cell -/

@[simp]
theorem currentScreen_writeCell (y x : Nat) (c : UInt8) (t : Terminal) :
    (t.writeCell y x c).currentScreen
      = t.currentScreen.setData y x (t.currentScreen.cell c) := by
  simp [writeCell]

@[simp]
theorem currentScreen_putCell (y x : Nat) (c : UInt8) (t : Terminal) :
    (t.putCell y x c).currentScreen = t.currentScreen.setData y x (t.currentScreen.cell c) :=
  currentScreen_writeCell y x c t

theorem keeps_writeCell (y x : Nat) (c : UInt8) (t : Terminal) : Keeps t (t.writeCell y x c) := by
  refine ⟨(frame_access _ t).trans (frame_modifyScreen _ _), ?_, ?_, ?_, ?_, ?_⟩ <;>
    rw [currentScreen_writeCell] <;> rfl

theorem keeps_putCell (y x : Nat) (c : UInt8) (t : Terminal) : Keeps t (t.putCell y x c) :=
  (keeps_writeCell y x c t).trans (keeps_of_currentScreen (frame_of_screens rfl rfl) rfl)

theorem safe_writeCell {t : Terminal} (hsafe : t.Safe) {y x : Nat} (hy : y < 35) (hx : x < 80)
    (c : UInt8) : (t.writeCell y x c).Safe :=
  hsafe.access (a := .data y x) ⟨hy, hx⟩

/-- Drawing a cell of a row that is not above the visible ones stays in the video memory. -/
theorem safe_putCell {t : Terminal} (hsafe : t.Safe) {y x : Nat} (hy : y < 35) (hx : x < 80)
    (hscroll : t.currentScreen.scrollY.toNat ≤ y) (c : UInt8) : (t.putCell y x c).Safe := by
  have hcolumn : (UInt8.ofNat x).toNat = x := toNat_ofNat_uint8 (by omega)
  have hrow := yToVga_toNat hscroll hy
  have hcall : (Access.yToVga y (t.writeCell y x c).currentScreen.scrollY.toNat).Safe := by
    rw [currentScreen_writeCell]
    exact ⟨hscroll, hy⟩
  have hposition : (Access.vgaCell (getPosition (t.yToVga y) (.ofNat x)).toNat).Safe := by
    simp only [Access.Safe, getPosition_toNat, hcolumn, hrow]
    omega
  exact ((safe_writeCell hsafe hy hx c).access hcall).access hposition

theorem displayed_putCell {t : Terminal} (hdisplayed : t.Displayed) {y x : Nat} (hy : y < 35)
    (hx : x < 80) (hscroll : t.currentScreen.scrollY.toNat ≤ y) (c : UInt8) :
    (t.putCell y x c).Displayed := by
  intro y' hy' x' hx'
  have hcolumn : (UInt8.ofNat x).toNat = x := toNat_ofNat_uint8 (by omega)
  have hrow := yToVga_toNat hscroll hy
  rw [currentScreen_putCell]
  change (t.vga.setCell c _ _ (.ofNat x) (t.yToVga y)).memory (y' * 80 + x')
    = (Function.update t.currentScreen.data y (Function.update (t.currentScreen.data y) x
        (t.currentScreen.cell c)) (t.currentScreen.scrollY.toNat + y') x').encode
  by_cases heq : y = t.currentScreen.scrollY.toNat + y' ∧ x = x'
  · obtain ⟨hyy, rfl⟩ := heq
    have hposition : y' * 80 + x = (t.yToVga y).toNat * 80 + (UInt8.ofNat x).toNat := by
      rw [hrow, hcolumn]
      omega
    rw [hposition, Vga.setCell_memory_self, ← hyy, Function.update_self, Function.update_self]
    rfl
  · have hne : y' * 80 + x' ≠ (t.yToVga y).toNat * 80 + (UInt8.ofNat x).toNat := by
      rw [hrow, hcolumn]
      omega
    rw [Vga.setCell_memory_of_ne hne, hdisplayed y' hy' x' hx']
    congr 1
    by_cases hyy : t.currentScreen.scrollY.toNat + y' = y
    · have hxx : x' ≠ x := fun h => heq ⟨hyy.symm, h.symm⟩
      rw [hyy, Function.update_self, Function.update_of_ne hxx]
    · rw [Function.update_of_ne hyy]

/-! ### Moving the screen up -/

theorem currentScreen_memmoveRows (t : Terminal) :
    t.memmoveRows.currentScreen
      = { t.currentScreen with
          data := fun y x =>
            if y < terminalHeight - 1 ∧ x < terminalWidth then t.currentScreen.data (y + 1) x
            else t.currentScreen.data y x } :=
  currentScreen_modifyScreen _ _

theorem keeps_memmoveRows (t : Terminal) : Keeps t t.memmoveRows := by
  have hframe : Frame t t.memmoveRows := by
    unfold memmoveRows
    refine Frame.trans ?_ (frame_modifyScreen _ _)
    exact frame_of_screens rfl rfl
  refine ⟨hframe, ?_, ?_, ?_, ?_, ?_⟩ <;> rw [currentScreen_memmoveRows]

theorem safe_memmoveRows {t : Terminal} (hsafe : t.Safe) : t.memmoveRows.Safe := by
  intro a ha
  rcases List.mem_append.mp ha with hmem | hmem
  · simp only [memmoveAccesses, List.mem_flatMap, List.mem_range, List.mem_cons,
      List.not_mem_nil, or_false, terminalHeight, terminalExtraLines, terminalWidth, vgaHeight,
      vgaWidth] at hmem
    obtain ⟨y, hy, x, hx, rfl | rfl⟩ := hmem
    · exact ⟨by omega, hx⟩
    · exact ⟨by omega, hx⟩
  · exact hsafe a hmem

/-- The last row becomes blank, and that is all. -/
structure LastRowBlanked (n : Nat) (t r : Terminal) : Prop where
  keeps : Keeps t r
  cursorX : r.currentScreen.cursorX = t.currentScreen.cursorX
  cursorY : r.currentScreen.cursorY = t.currentScreen.cursorY
  scrollY : r.currentScreen.scrollY = t.currentScreen.scrollY
  shifts : r.currentScreen.shifts = t.currentScreen.shifts
  blank : ∀ x < n, r.currentScreen.data 34 x = t.currentScreen.cell space
  rows : ∀ y < 34, r.currentScreen.data y = t.currentScreen.data y
  safe : r.Safe

/-- Row 34 gets blank from the left, the rows above it stay. -/
theorem blankLastRow_data (t : Terminal) :
    (∀ x < 80, t.blankLastRow.currentScreen.data 34 x = t.currentScreen.cell space)
      ∧ ∀ y < 34, t.blankLastRow.currentScreen.data y = t.currentScreen.data y := by
  have hloop : (∀ c, t.blankLastRow.currentScreen.cell c = t.currentScreen.cell c)
      ∧ (∀ x < 80, t.blankLastRow.currentScreen.data 34 x = t.currentScreen.cell space)
      ∧ ∀ y < 34, t.blankLastRow.currentScreen.data y = t.currentScreen.data y := by
    refine forLoop_rule (fun n (r : Terminal) => (∀ c, r.currentScreen.cell c = t.currentScreen.cell c)
      ∧ (∀ x < n, r.currentScreen.data 34 x = t.currentScreen.cell space)
      ∧ ∀ y < 34, r.currentScreen.data y = t.currentScreen.data y) (Nat.zero_le 80)
      ⟨fun _ => rfl, fun x hx => absurd hx (Nat.not_lt_zero x), fun _ _ => rfl⟩ ?_
    intro n r _ _ ⟨hcell, hblank, hrows⟩
    have hdata : (r.writeCell (terminalHeight - 1) n space).currentScreen.data
        = Function.update r.currentScreen.data 34 (Function.update (r.currentScreen.data 34) n
            (t.currentScreen.cell space)) := by
      rw [currentScreen_writeCell, hcell]
      rfl
    refine ⟨fun c => ?_, fun x hx => ?_, fun y hy => ?_⟩
    · rw [currentScreen_writeCell]
      exact hcell c
    · rw [hdata, Function.update_self]
      by_cases hxn : x = n
      · rw [hxn, Function.update_self]
      · rw [Function.update_of_ne hxn]
        exact hblank x (by omega)
    · rw [hdata, Function.update_of_ne (by omega)]
      exact hrows y hy
  exact hloop.2

theorem blankLastRow_spec {t : Terminal} (hsafe : t.Safe) :
    LastRowBlanked 80 t t.blankLastRow := by
  have hdata := blankLastRow_data t
  have hloop : Keeps t t.blankLastRow
      ∧ t.blankLastRow.currentScreen.cursorX = t.currentScreen.cursorX
      ∧ t.blankLastRow.currentScreen.cursorY = t.currentScreen.cursorY
      ∧ t.blankLastRow.currentScreen.scrollY = t.currentScreen.scrollY
      ∧ t.blankLastRow.currentScreen.shifts = t.currentScreen.shifts ∧ t.blankLastRow.Safe := by
    refine forLoop_preserves (fun r => Keeps t r
      ∧ r.currentScreen.cursorX = t.currentScreen.cursorX
      ∧ r.currentScreen.cursorY = t.currentScreen.cursorY
      ∧ r.currentScreen.scrollY = t.currentScreen.scrollY
      ∧ r.currentScreen.shifts = t.currentScreen.shifts ∧ r.Safe)
      ⟨.refl t, rfl, rfl, rfl, rfl, hsafe⟩ ?_
    intro n r _ hn ⟨hkeeps, hcursorX, hcursorY, hscrollY, hshifts, hsafe⟩
    have hcursor := currentScreen_writeCell (terminalHeight - 1) n space r
    refine ⟨hkeeps.trans (keeps_writeCell _ _ _ r), ?_, ?_, ?_, ?_,
      safe_writeCell hsafe (by simp) hn space⟩
    · rw [hcursor]
      exact hcursorX
    · rw [hcursor]
      exact hcursorY
    · rw [hcursor]
      exact hscrollY
    · rw [hcursor]
      exact hshifts
  obtain ⟨hkeeps, hcursorX, hcursorY, hscrollY, hshifts, hsafe⟩ := hloop
  exact ⟨hkeeps, hcursorX, hcursorY, hscrollY, hshifts, hdata.1, hdata.2, hsafe⟩

theorem currentScreen_moveScreenUp (t : Terminal) :
    t.moveScreenUp.currentScreen
      = { t.memmoveRows.blankLastRow.currentScreen with
          cursorY := t.memmoveRows.blankLastRow.currentScreen.cursorY - 1
          shifts := t.memmoveRows.blankLastRow.currentScreen.shifts + 1 } :=
  currentScreen_modifyScreen _ _

/-- Every row but the last gets the row below it, the last one gets blank. -/
theorem moveScreenUp_data (t : Terminal) :
    (∀ x < 80, t.moveScreenUp.currentScreen.data 34 x = t.currentScreen.cell space)
      ∧ ∀ y < 34, ∀ x < 80,
        t.moveScreenUp.currentScreen.data y x = t.currentScreen.data (y + 1) x := by
  have hblank := blankLastRow_data t.memmoveRows
  rw [currentScreen_memmoveRows] at hblank
  have hmoved : t.moveScreenUp.currentScreen.data
      = t.memmoveRows.blankLastRow.currentScreen.data := by
    rw [currentScreen_moveScreenUp]
  rw [hmoved]
  refine ⟨hblank.1, fun y hy x hx => ?_⟩
  have hin : y < terminalHeight - 1 ∧ x < terminalWidth := ⟨hy, hx⟩
  rw [hblank.2 y hy]
  exact if_pos hin

/-- What `move_screen_up` keeps and what it does to the cursor. -/
structure MovedUp (t r : Terminal) : Prop where
  keeps : Keeps t r
  cursorX : r.currentScreen.cursorX = t.currentScreen.cursorX
  cursorY : r.currentScreen.cursorY = t.currentScreen.cursorY - 1
  scrollY : r.currentScreen.scrollY = t.currentScreen.scrollY
  shifts : r.currentScreen.shifts = t.currentScreen.shifts + 1
  blank : ∀ x < 80, r.currentScreen.data 34 x = t.currentScreen.cell space
  rows : ∀ y < 34, ∀ x < 80, r.currentScreen.data y x = t.currentScreen.data (y + 1) x
  safe : r.Safe

theorem moveScreenUp_spec {t : Terminal} (hsafe : t.Safe) : MovedUp t t.moveScreenUp := by
  have hrow := blankLastRow_spec (safe_memmoveRows hsafe)
  have hmove := currentScreen_memmoveRows t
  have hkeeps : Keeps t.memmoveRows.blankLastRow t.moveScreenUp := by
    refine ⟨frame_modifyScreen _ _, ?_, ?_, ?_, ?_, ?_⟩ <;> rw [currentScreen_moveScreenUp]
  refine ⟨((keeps_memmoveRows t).trans hrow.keeps).trans hkeeps, ?_, ?_, ?_, ?_,
    (moveScreenUp_data t).1, (moveScreenUp_data t).2, safe_modifyScreen.mpr hrow.safe⟩
  all_goals rw [currentScreen_moveScreenUp]
  · exact hrow.cursorX.trans (by rw [hmove])
  · have hcursorY := hrow.cursorY
    rw [hmove] at hcursorY
    simp only [hcursorY]
  · exact hrow.scrollY.trans (by rw [hmove])
  · have hshifts := hrow.shifts
    rw [hmove] at hshifts
    simp only [hshifts]

/-- Moving the screen up moves the window down one row of the page: the row that enters is past the
last one written, so it is blank. -/
theorem MovedUp.window {t r : Terminal} (hmoved : MovedUp t r) {top pos : Nat}
    {cells : Nat → UInt8} (hwindow : t.currentScreen.Window top cells pos)
    (hrow : 0 < t.currentScreen.cursorY.toNat) : r.currentScreen.Window (top + 1) cells pos := by
  have hcell : ∀ c, r.currentScreen.cell c = t.currentScreen.cell c := by
    intro c
    simp only [Screen.cell, hmoved.keeps.fgColor, hmoved.keeps.bgColor]
  refine ⟨?_, ?_, ?_, fun q hq => hwindow.beyond q (by omega),
    by rw [hmoved.shifts, hwindow.shifts]⟩
  · intro y hy x hx
    rw [hcell]
    by_cases hlast : y = 34
    · have hblank : cells ((top + 1 + y) * 80 + x) = space := hwindow.beyond _ (by omega)
      rw [hblank, hlast, hmoved.blank x hx]
    · have hrow' : top + (y + 1) = top + 1 + y := by omega
      rw [hmoved.rows y (by omega) x hx, hwindow.data (y + 1) (by omega) x hx, hrow']
  · rw [hmoved.cursorX]
    exact hwindow.cursorX
  · have hlt := t.currentScreen.cursorY.toNat_lt
    have hcursor := hwindow.cursorY
    rw [hmoved.cursorY, UInt16.toNat_sub, UInt16.toNat_one]
    omega

end Terminal

end KernelFromScratch
