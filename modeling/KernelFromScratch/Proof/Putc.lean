import KernelFromScratch.Proof.Window

/-!
# Printing and moving the cursor

One lemma for each function that moves the cursor: `putc` on a character and on a newline,
`move_cursor`, and the step of the deletion loop. Each is stated on the page the buffer is a window
of, so the shifts of the buffer show only in the top row.
-/

namespace KernelFromScratch

namespace Terminal

/-- The current screen shows `cells` from row `top` on, with the cursor at `pos`, at most 127 cells
past the anchor; everything accessed so far was in bounds. -/
structure View (t : Terminal) (top : Nat) (cells : Nat → UInt8) (pos anchor : Nat) : Prop where
  window : t.currentScreen.Window top cells pos
  row : t.currentScreen.cursorY.toNat < 35
  anchored : t.currentScreen.Anchored top anchor
  anchor_le : anchor ≤ pos
  pos_le : pos ≤ anchor + 127
  safe : t.Safe

variable {t r : Terminal} {top pos anchor : Nat} {cells : Nat → UInt8}

theorem View.scroll_le (hview : View t top cells pos anchor) {y : Nat}
    (hle : anchor / 80 ≤ top + y) : t.currentScreen.scrollY.toNat ≤ y :=
  hview.anchored.scroll_le_row hle

theorem View.inside (hview : View t top cells pos anchor) : CursorInside t.currentScreen := by
  have hx := hview.window.cursorX
  have hy := hview.window.cursorY
  have hle := hview.anchor_le
  exact ⟨by omega, hview.row, hview.anchored.scroll_le, hview.scroll_le (by omega)⟩

theorem View.of_currentScreen (hview : View t top cells pos anchor)
    (hcurrent : r.currentScreen = t.currentScreen) (hsafe : r.Safe) :
    View r top cells pos anchor := by
  obtain ⟨hwindow, hrow, hanchored, hle, hpos, -⟩ := hview
  rw [← hcurrent] at hwindow hrow hanchored
  exact ⟨hwindow, hrow, hanchored, hle, hpos, hsafe⟩

/-- Nothing that was printed is forgotten by raising the anchor up to the cursor. -/
theorem View.raise (hview : View t top cells pos anchor) {anchor' : Nat}
    (hle : anchor ≤ anchor') (hpos : anchor' ≤ pos) : View t top cells pos anchor' :=
  ⟨hview.window, hview.row, hview.anchored.mono hle, hpos, by have := hview.pos_le; omega,
    hview.safe⟩

theorem displayed_congr (hmemory : r.vga.memory = t.vga.memory)
    (hdata : r.currentScreen.data = t.currentScreen.data)
    (hscroll : r.currentScreen.scrollY = t.currentScreen.scrollY) (hdisplayed : t.Displayed) :
    r.Displayed := by
  intro y hy x hx
  rw [hmemory, hdata, hscroll]
  exact hdisplayed y hy x hx

/-- Scrolling down to the cursor keeps the anchor at least 22 rows below the top visible row: the
cursor is at most two rows below the anchor. -/
theorem View.aligned (hview : View t top cells pos anchor) :
    View t.alignScrollToCursor top cells pos anchor ∧ Aligned t t.alignScrollToCursor := by
  have haligned := alignScrollToCursor_aligned hview.safe hview.inside
  have hscroll := Screen.aligned_scrollY hview.row
  obtain ⟨hwindow, hrow, ⟨htop, hscrollLe, hscrollAnchor⟩, hle, hpos, hsafe⟩ := hview
  have hy := hwindow.cursorY
  refine ⟨⟨?_, ?_, ?_, hle, hpos, haligned.safe⟩, haligned⟩
  · rw [haligned.screen]
    exact ⟨hwindow.data, hwindow.cursorX, hwindow.cursorY, hwindow.beyond, hwindow.shifts⟩
  · rw [haligned.screen]
    exact hrow
  · rw [haligned.screen]
    exact ⟨htop, by omega, by omega⟩

/-! ### Printing a character -/

theorem View.putCell (hview : View t top cells pos anchor) {y x : Nat} (hy : y < 35) (hx : x < 80)
    (hscroll : t.currentScreen.scrollY.toNat ≤ y) (c : UInt8) :
    View (t.putCell y x c) top (Function.update cells ((top + y) * 80 + x) c) pos anchor := by
  have hsafe := safe_putCell hview.safe hy hx hscroll c
  have hwindow := hview.window.setData hy hx c
  rw [← currentScreen_putCell] at hwindow
  have hanchored : (t.putCell y x c).currentScreen.Anchored top anchor := by
    rw [currentScreen_putCell]
    exact ⟨hview.anchored.top_le, hview.anchored.scroll_le, hview.anchored.scroll⟩
  have hrow : (t.putCell y x c).currentScreen.cursorY.toNat < 35 := by
    rw [currentScreen_putCell]
    exact hview.row
  exact ⟨hwindow, hrow, hanchored, hview.anchor_le, hview.pos_le, hsafe⟩

theorem keeps_wrapCursor (t : Terminal) (hsafe : t.Safe) : Keeps t t.wrapCursor := by
  have hmoved := keeps_moveTo (fun _ => 0) (fun screen => screen.cursorY + 1) t
  unfold wrapCursor
  split
  · simp only
    split
    · exact hmoved.trans (moveScreenUp_spec (safe_modifyScreen.mpr hsafe)).keeps
    · exact hmoved
  · exact .refl t

/-- Moving one cell on wraps to the next row, and moves the buffer up when that row is past its
end. -/
theorem View.advance (hview : View t top cells pos anchor) (hroom : pos + 1 ≤ anchor + 127) :
    View ((t.modifyScreen fun screen => { screen with cursorX := screen.cursorX + 1 }).wrapCursor)
      (max top ((pos + 1) / 80 - 34)) cells (pos + 1) anchor := by
  obtain ⟨hwindow, hrow, ⟨htop, hscrollLe, hscrollAnchor⟩, hle, hpos, hsafe⟩ := hview
  have hx := hwindow.cursorX
  have hy := hwindow.cursorY
  set moved := t.modifyScreen fun screen => { screen with cursorX := screen.cursorX + 1 }
    with hmovedDef
  have hcurrent : moved.currentScreen
      = { t.currentScreen with cursorX := t.currentScreen.cursorX + 1 } :=
    currentScreen_modifyScreen _ t
  have hmovedX : (t.currentScreen.cursorX + 1).toNat = pos % 80 + 1 := by
    rw [UInt16.toNat_add, hx, UInt16.toNat_one]
    omega
  have hnextY : (t.currentScreen.cursorY + 1).toNat = t.currentScreen.cursorY.toNat + 1 := by
    rw [UInt16.toNat_add, UInt16.toNat_one]
    omega
  unfold wrapCursor
  rw [hcurrent]
  simp only [terminalWidth, vgaWidth, hmovedX]
  by_cases hwrap : 80 ≤ pos % 80 + 1
  · -- the character filled the last column
    rw [if_pos hwrap]
    set wrapped := moved.modifyScreen fun screen =>
      { screen with cursorX := 0, cursorY := screen.cursorY + 1 } with hwrappedDef
    have hwrapped : wrapped.currentScreen
        = { t.currentScreen with cursorX := 0, cursorY := t.currentScreen.cursorY + 1 } := by
      rw [hwrappedDef, currentScreen_modifyScreen, hcurrent]
    have hwindow' : wrapped.currentScreen.Window top cells (pos + 1) := by
      rw [hwrapped]
      exact hwindow.withCursor (by rw [UInt16.toNat_zero]; omega) (by omega)
    have hwrappedY : wrapped.currentScreen.cursorY.toNat = t.currentScreen.cursorY.toNat + 1 := by
      rw [hwrapped]
      exact hnextY
    have hwrappedScroll : wrapped.currentScreen.scrollY = t.currentScreen.scrollY := by
      rw [hwrapped]
    have hwrappedSafe : wrapped.Safe := safe_modifyScreen.mpr (safe_modifyScreen.mpr hsafe)
    by_cases hlast : terminalHeight ≤ wrapped.currentScreen.cursorY.toNat
    · -- and there is no next row: the buffer moves up
      rw [if_pos hlast]
      simp only [terminalHeight, terminalExtraLines, vgaHeight] at hlast
      have hmovedUp := moveScreenUp_spec hwrappedSafe
      have htop' : max top ((pos + 1) / 80 - 34) = top + 1 := by omega
      rw [htop']
      refine ⟨hmovedUp.window hwindow' (by omega), ?_, ⟨by omega, ?_, ?_⟩, by omega, hroom,
        hmovedUp.safe⟩
      · rw [hmovedUp.cursorY, UInt16.toNat_sub, hwrappedY, UInt16.toNat_one]
        omega
      · rw [hmovedUp.scrollY, hwrappedScroll]
        exact hscrollLe
      · rw [hmovedUp.scrollY, hwrappedScroll]
        omega
    · rw [if_neg hlast]
      simp only [terminalHeight, terminalExtraLines, vgaHeight] at hlast
      have htop' : max top ((pos + 1) / 80 - 34) = top := by omega
      rw [htop']
      refine ⟨hwindow', by omega, ⟨htop, ?_, ?_⟩, by omega, hroom, hwrappedSafe⟩
      · rw [hwrappedScroll]
        exact hscrollLe
      · rw [hwrappedScroll]
        exact hscrollAnchor
  · rw [if_neg hwrap]
    have htop' : max top ((pos + 1) / 80 - 34) = top := by omega
    rw [htop']
    refine ⟨?_, ?_, ⟨htop, ?_, ?_⟩, by omega, hroom, safe_modifyScreen.mpr hsafe⟩
    all_goals rw [hcurrent]
    · exact ⟨hwindow.data, by simp only [hmovedX]; omega, by simp only; omega, hwindow.beyond,
        hwindow.shifts⟩
    · exact hrow
    · exact hscrollLe
    · exact hscrollAnchor

/-- The outcome of an operation that ends with the cursor visible and shown. -/
structure Shown (t r : Terminal) (top : Nat) (cells : Nat → UInt8) (pos anchor : Nat) : Prop where
  view : View r top cells pos anchor
  keeps : Keeps t r
  visible : r.currentScreen.cursorY.toNat < r.currentScreen.scrollY.toNat + 25
  tracked : r.CursorTracked

theorem Aligned.visible (haligned : Aligned t r) (hrow : t.currentScreen.cursorY.toNat < 35) :
    r.currentScreen.cursorY.toNat < r.currentScreen.scrollY.toNat + 25 := by
  have hscroll := Screen.aligned_scrollY hrow
  have hcursor : t.currentScreen.aligned.cursorY = t.currentScreen.cursorY := rfl
  rw [haligned.screen, hscroll, hcursor]
  omega

/-- `putc` of a character writes it into the cell at the cursor and moves one cell on. -/
theorem putc_shown (hview : View t top cells pos anchor) {c : UInt8} (hc : c ≠ newline)
    (hroom : pos + 1 ≤ anchor + 127) :
    Shown t (t.putc c) (max top ((pos + 1) / 80 - 34)) (Function.update cells pos c) (pos + 1)
      anchor ∧ (t.putc c).Displayed := by
  have hinside := hview.inside
  have hput := hview.putCell hinside.row hinside.column hinside.notAbove c
  rw [hview.window.linear] at hput
  set put := t.putCell t.currentScreen.cursorY.toNat t.currentScreen.cursorX.toNat c with hputDef
  set advanced :=
    (put.modifyScreen fun screen => { screen with cursorX := screen.cursorX + 1 }).wrapCursor
    with hadvancedDef
  have hadvanced := hput.advance hroom
  rw [← hadvancedDef] at hadvanced
  have hkeeps : Keeps t advanced := by
    have hmoved := keeps_moveTo (fun screen => screen.cursorX + 1) (fun screen => screen.cursorY) put
    exact ((keeps_putCell _ _ c t).trans hmoved).trans
      (keeps_wrapCursor _ (safe_modifyScreen.mpr hput.safe))
  have hcursor := cursorTracked_showCursor hadvanced.inside
  have hshown : View advanced.showCursor _ _ _ _ :=
    hadvanced.of_currentScreen (currentScreen_showCursor _)
      (safe_showCursor hadvanced.safe hadvanced.inside)
  obtain ⟨hviewAligned, haligned⟩ := hshown.aligned
  have hputc : t.putc c = (advanced.showCursor.alignScrollToCursor).putScreen := by
    rw [putc, if_neg hc]
  rw [hputc]
  refine ⟨⟨?_, ?_, ?_, ?_⟩, displayed_putScreen _⟩
  · exact hviewAligned.of_currentScreen (currentScreen_putScreen _)
      (safe_putScreen hviewAligned.safe hviewAligned.anchored.scroll_le)
  · have hshow : Keeps advanced advanced.showCursor :=
      keeps_of_currentScreen (frame_showCursor _) (currentScreen_showCursor _)
    exact ((hkeeps.trans hshow).trans haligned.keeps).trans
      (keeps_of_currentScreen (frame_putScreen _) (currentScreen_putScreen _))
  · rw [currentScreen_putScreen]
    exact haligned.visible hadvanced.row
  · exact (cursorTracked_putScreen _).mpr (haligned.tracked hcursor)

/-! ### Printing a newline -/

/-- Blanking a row from the cursor on changes nothing on a page that is blank there. -/
theorem View.blankRest (hview : View t top cells pos anchor)
    (hblank : ∀ q, pos ≤ q → cells q = space) :
    let r := forLoop t.currentScreen.cursorX.toNat terminalWidth
      (fun x t => t.putCell t.currentScreen.cursorY.toNat x space) t
    View r top cells pos anchor ∧ Keeps t r ∧ (t.Displayed → r.Displayed) := by
  intro r
  refine forLoop_preserves (fun r : Terminal => View r top cells pos anchor ∧ Keeps t r ∧
    (t.Displayed → r.Displayed)) ⟨hview, .refl t, id⟩ ?_
  intro x r hx hlt ⟨hr, hkeeps, hdisplayed⟩
  have hinside := hr.inside
  have hrow : (top + r.currentScreen.cursorY.toNat) * 80 + x ≥ pos := by
    have hposition := hview.window.linear
    have hy := hview.window.cursorY
    have hy' := hr.window.cursorY
    omega
  have hput := hr.putCell hinside.row hlt hinside.notAbove space
  have hsame : Function.update cells ((top + r.currentScreen.cursorY.toNat) * 80 + x) space
      = cells := Function.update_eq_self_iff.mpr (hblank _ hrow).symm
  rw [hsame] at hput
  exact ⟨hput, hkeeps.trans (keeps_putCell _ _ _ _),
    fun h => displayed_putCell (hdisplayed h) hinside.row hlt hinside.notAbove space⟩

/-- The row below the cursor exists once the buffer has been moved up for it. -/
theorem View.makeRoom (hview : View t top cells pos anchor) :
    let r := if terminalHeight ≤ t.currentScreen.cursorY.toNat + 1 then t.moveScreenUp else t
    View r (max top (pos / 80 - 33)) cells pos pos ∧ Keeps t r ∧
      r.currentScreen.cursorY.toNat < 34 ∧
      (pos / 80 < top + 34 → t.Displayed → r.Displayed) := by
  intro r
  have hraised := hview.raise hview.anchor_le le_rfl
  have hy := hview.window.cursorY
  have hrow := hview.row
  have hscroll := hview.anchored.scroll_le
  by_cases hlast : terminalHeight ≤ t.currentScreen.cursorY.toNat + 1
  · have hr : r = t.moveScreenUp := if_pos hlast
    simp only [terminalHeight, terminalExtraLines, vgaHeight] at hlast
    have hmovedUp := moveScreenUp_spec hview.safe
    have htop : max top (pos / 80 - 33) = top + 1 := by omega
    have hcursorY : t.moveScreenUp.currentScreen.cursorY.toNat
        = t.currentScreen.cursorY.toNat - 1 := by
      rw [hmovedUp.cursorY, UInt16.toNat_sub, UInt16.toNat_one]
      omega
    rw [hr, htop]
    refine ⟨⟨hmovedUp.window hview.window (by omega), by omega, ⟨by omega, ?_, ?_⟩, le_rfl,
      by omega, hmovedUp.safe⟩, hmovedUp.keeps, by omega, by omega⟩
    · rw [hmovedUp.scrollY]
      exact hscroll
    · rw [hmovedUp.scrollY]
      omega
  · have hr : r = t := if_neg hlast
    simp only [terminalHeight, terminalExtraLines, vgaHeight] at hlast
    have htop : max top (pos / 80 - 33) = top := by omega
    rw [hr, htop]
    exact ⟨hraised, .refl t, by omega, fun _ => id⟩

/-- `putc` of a newline moves to the start of the next row. It leaves the page drawn, except that
moving the buffer up is not followed by a redraw. -/
theorem putc_newline_shown (hview : View t top cells pos anchor)
    (hblank : ∀ q, pos ≤ q → cells q = space) :
    Shown t (t.putc newline) (max top ((pos / 80 + 1) - 34)) cells ((pos / 80 + 1) * 80)
      ((pos / 80 + 1) * 80) ∧
      (pos / 80 < top + 34 → t.Displayed → (t.putc newline).Displayed) := by
  obtain ⟨hroom, hkeepsRoom, hrowRoom, hdisplayedRoom⟩ := hview.makeRoom
  set room := if terminalHeight ≤ t.currentScreen.cursorY.toNat + 1 then t.moveScreenUp else t
    with hroomDef
  obtain ⟨hrest, hkeepsRest, hdisplayedRest⟩ := hroom.blankRest hblank
  set rest := forLoop room.currentScreen.cursorX.toNat terminalWidth
    (fun x t => t.putCell t.currentScreen.cursorY.toNat x space) room with hrestDef
  set moved := rest.modifyScreen fun screen =>
    { screen with cursorX := 0, cursorY := screen.cursorY + 1 } with hmovedDef
  have hputc : t.putc newline = moved.alignScrollToCursor.showCursor := by
    rw [putc, if_pos rfl]
    rfl
  have htop : max top (pos / 80 + 1 - 34) = max top (pos / 80 - 33) := by omega
  rw [htop, hputc]
  have hcurrent : moved.currentScreen
      = { rest.currentScreen with cursorX := 0, cursorY := rest.currentScreen.cursorY + 1 } :=
    currentScreen_modifyScreen _ rest
  have hy := hrest.window.cursorY
  have hyRoom := hroom.window.cursorY
  have hnextY : (rest.currentScreen.cursorY + 1).toNat = rest.currentScreen.cursorY.toNat + 1 := by
    rw [UInt16.toNat_add, UInt16.toNat_one]
    omega
  have hviewMoved : View moved (max top (pos / 80 - 33)) cells ((pos / 80 + 1) * 80)
      ((pos / 80 + 1) * 80) := by
    refine ⟨?_, ?_, ?_, le_rfl, by omega, safe_modifyScreen.mpr hrest.safe⟩
    · rw [hcurrent]
      exact hrest.window.withCursor (by rw [UInt16.toNat_zero]; omega) (by omega)
    · rw [hcurrent]
      simp only [hnextY]
      omega
    · rw [hcurrent]
      have hbelow : pos ≤ (pos / 80 + 1) * 80 := by omega
      have hanchored := hrest.anchored.mono hbelow
      exact ⟨hanchored.top_le, hanchored.scroll_le, hanchored.scroll⟩
  have hkeeps : Keeps t moved :=
    (hkeepsRoom.trans hkeepsRest).trans
      (keeps_moveTo (fun _ => 0) (fun screen => screen.cursorY + 1) rest)
  obtain ⟨hviewAligned, haligned⟩ := hviewMoved.aligned
  refine ⟨⟨?_, ?_, haligned.visible hviewMoved.row, cursorTracked_showCursor hviewAligned.inside⟩,
    ?_⟩
  · exact hviewAligned.of_currentScreen (currentScreen_showCursor _)
      (safe_showCursor hviewAligned.safe hviewAligned.inside)
  · exact (hkeeps.trans haligned.keeps).trans
      (keeps_of_currentScreen (frame_showCursor _) (currentScreen_showCursor _))
  · intro hlt hdisplayed
    refine displayed_showCursor.mpr (haligned.displayed ?_)
    refine displayed_congr (t := rest) rfl ?_ ?_ (hdisplayedRest (hdisplayedRoom hlt hdisplayed))
    · rw [hcurrent]
    · rw [hcurrent]

/-! ### Moving the cursor -/

/-- The cursor that `move_cursor` stores, before it aligns the scroll. -/
def moveTo (offset : Int) (t : Terminal) : Terminal :=
  t.modifyScreen fun screen =>
    { screen with
      cursorX := .ofNat (uint32 (t.cursorPosition + offset) % terminalWidth)
      cursorY := .ofNat (uint32 (t.cursorPosition + offset) / terminalWidth) }

theorem moveCursor_eq (offset : Int) (t : Terminal) :
    t.moveCursor offset = (t.moveTo offset).alignScrollToCursor.showCursor := rfl

theorem scrollY_moveTo (offset : Int) (t : Terminal) :
    (t.moveTo offset).currentScreen.scrollY = t.currentScreen.scrollY := by
  rw [moveTo, currentScreen_modifyScreen]

theorem displayed_moveTo {offset : Int} (hdisplayed : t.Displayed) :
    (t.moveTo offset).Displayed := by
  refine displayed_congr (t := t) rfl ?_ (scrollY_moveTo offset t) hdisplayed
  rw [moveTo, currentScreen_modifyScreen]

theorem View.moveTo (hview : View t top cells pos anchor) {pos' : Nat} {offset : Int}
    (hoffset : (pos : Int) + offset = pos') (hle : anchor ≤ pos') (hpos : pos' ≤ anchor + 127)
    (hlt : pos' < top * 80 + 2800) : View (t.moveTo offset) top cells pos' anchor := by
  have hlinear := hview.window.linear
  have htop := hview.anchored.top_le
  have hposition : uint32 (t.cursorPosition + offset) = pos' - top * 80 := by
    simp only [uint32, cursorPosition, terminalWidth, vgaWidth]
    omega
  have hcurrent : (t.moveTo offset).currentScreen
      = { t.currentScreen with
          cursorX := .ofNat ((pos' - top * 80) % 80)
          cursorY := .ofNat ((pos' - top * 80) / 80) } := by
    rw [Terminal.moveTo, currentScreen_modifyScreen, hposition]
    rfl
  have hcursorX : (UInt16.ofNat ((pos' - top * 80) % 80)).toNat = (pos' - top * 80) % 80 := by
    rw [UInt16.toNat_ofNat']
    omega
  have hcursorY : (UInt16.ofNat ((pos' - top * 80) / 80)).toNat = (pos' - top * 80) / 80 := by
    rw [UInt16.toNat_ofNat']
    omega
  refine ⟨?_, ?_, ?_, hle, hpos, safe_modifyScreen.mpr hview.safe⟩
  all_goals rw [hcurrent]
  · exact hview.window.withCursor (by rw [hcursorX]; omega) (by rw [hcursorY]; omega)
  · simp only [hcursorY]
    omega
  · exact ⟨hview.anchored.top_le, hview.anchored.scroll_le, hview.anchored.scroll⟩

/-- `move_cursor` moves over the page by its offset, inside the window. -/
theorem moveCursor_shown (hview : View t top cells pos anchor) {pos' : Nat} {offset : Int}
    (hoffset : (pos : Int) + offset = pos') (hle : anchor ≤ pos') (hpos : pos' ≤ anchor + 127)
    (hlt : pos' < top * 80 + 2800) :
    Shown t (t.moveCursor offset) top cells pos' anchor ∧
      (t.Displayed → (t.moveCursor offset).Displayed) := by
  have hmoved := hview.moveTo hoffset hle hpos hlt
  have hkeeps : Keeps t (t.moveTo offset) := keeps_moveTo (fun _ => _) (fun _ => _) t
  obtain ⟨hviewAligned, haligned⟩ := hmoved.aligned
  rw [moveCursor_eq]
  refine ⟨⟨?_, ?_, haligned.visible hmoved.row, cursorTracked_showCursor hviewAligned.inside⟩, ?_⟩
  · exact hviewAligned.of_currentScreen (currentScreen_showCursor _)
      (safe_showCursor hviewAligned.safe hviewAligned.inside)
  · exact (hkeeps.trans haligned.keeps).trans
      (keeps_of_currentScreen (frame_showCursor _) (currentScreen_showCursor _))
  · intro hdisplayed
    exact displayed_showCursor.mpr (haligned.displayed (displayed_moveTo hdisplayed))

/-- `move_cursor` scrolls down only. -/
theorem moveCursor_scrollY (hview : View t top cells pos anchor) {pos' : Nat} {offset : Int}
    (hoffset : (pos : Int) + offset = pos') (hle : anchor ≤ pos') (hpos : pos' ≤ anchor + 127)
    (hlt : pos' < top * 80 + 2800) :
    t.currentScreen.scrollY.toNat ≤ (t.moveCursor offset).currentScreen.scrollY.toNat := by
  have hmoved := hview.moveTo hoffset hle hpos hlt
  obtain ⟨-, haligned⟩ := hmoved.aligned
  rw [moveCursor_eq, currentScreen_showCursor, haligned.screen,
    Screen.aligned_scrollY hmoved.row, scrollY_moveTo]
  exact Nat.le_max_left _ _

/-- A step of the deletion loop moves one cell back over the page and blanks it. -/
theorem delInputStep_view (hview : View t top cells pos anchor) (hlt : anchor < pos) :
    View t.delInputStep top (Function.update cells (pos - 1) space) (pos - 1) anchor ∧
      Keeps t t.delInputStep ∧ (t.Displayed → t.delInputStep.Displayed) := by
  obtain ⟨hwindow, hrow, hanchored, hle, hpos, hsafe⟩ := hview
  have hx := hwindow.cursorX
  have hy := hwindow.cursorY
  have htop := hanchored.top_le
  have hcorner : ¬ (t.currentScreen.cursorX = 0 ∧ t.currentScreen.cursorY = 0) := by
    rintro ⟨hx0, hy0⟩
    rw [hx0, UInt16.toNat_zero] at hx
    rw [hy0, UInt16.toNat_zero] at hy
    omega
  set moved := t.modifyScreen fun screen =>
    if screen.cursorX = 0 then
      { screen with cursorY := screen.cursorY - 1, cursorX := .ofNat (terminalWidth - 1) }
    else
      { screen with cursorX := screen.cursorX - 1 } with hmovedDef
  have hstep : t.delInputStep = moved.putCell moved.currentScreen.cursorY.toNat
      moved.currentScreen.cursorX.toNat space := by
    rw [delInputStep, if_neg hcorner]
  have hcurrent : moved.currentScreen
      = { t.currentScreen with
          cursorX := .ofNat ((pos - 1) % 80)
          cursorY := .ofNat ((pos - 1) / 80 - top) } := by
    rw [hmovedDef, currentScreen_modifyScreen]
    by_cases hx0 : t.currentScreen.cursorX = 0
    · rw [if_pos hx0]
      have hx' : t.currentScreen.cursorX.toNat = 0 := by rw [hx0, UInt16.toNat_zero]
      have hcolumn : (pos - 1) % 80 = terminalWidth - 1 := by
        simp only [terminalWidth, vgaWidth]
        omega
      have hrow' : t.currentScreen.cursorY - 1 = .ofNat ((pos - 1) / 80 - top) := by
        apply UInt16.toNat_inj.mp
        rw [UInt16.toNat_sub, UInt16.toNat_one, UInt16.toNat_ofNat']
        omega
      rw [hcolumn, hrow']
    · rw [if_neg hx0]
      have hx' : t.currentScreen.cursorX.toNat ≠ 0 := fun h => hx0 (UInt16.toNat_inj.mp h)
      have hcolumn : t.currentScreen.cursorX - 1 = .ofNat ((pos - 1) % 80) := by
        apply UInt16.toNat_inj.mp
        rw [UInt16.toNat_sub, UInt16.toNat_one, UInt16.toNat_ofNat']
        omega
      have hrow' : t.currentScreen.cursorY = .ofNat ((pos - 1) / 80 - top) := by
        apply UInt16.toNat_inj.mp
        rw [UInt16.toNat_ofNat']
        omega
      rw [hcolumn, ← hrow']
  have hcursorX : (UInt16.ofNat ((pos - 1) % 80)).toNat = (pos - 1) % 80 := by
    rw [UInt16.toNat_ofNat']
    omega
  have hcursorY : (UInt16.ofNat ((pos - 1) / 80 - top)).toNat = (pos - 1) / 80 - top := by
    rw [UInt16.toNat_ofNat']
    omega
  have hviewMoved : View moved top cells (pos - 1) anchor := by
    refine ⟨?_, ?_, ?_, by omega, by omega, safe_modifyScreen.mpr hsafe⟩
    all_goals rw [hcurrent]
    · exact hwindow.withCursor hcursorX (by rw [hcursorY]; omega)
    · simp only [hcursorY]
      omega
    · exact ⟨hanchored.top_le, hanchored.scroll_le, hanchored.scroll⟩
  have hkeeps : Keeps t moved := by
    refine ⟨frame_modifyScreen _ t, ?_, ?_, ?_, ?_, ?_⟩ <;> rw [hcurrent]
  have hinside := hviewMoved.inside
  have hput := hviewMoved.putCell hinside.row hinside.column hinside.notAbove space
  rw [hviewMoved.window.linear] at hput
  rw [hstep]
  refine ⟨hput, hkeeps.trans (keeps_putCell _ _ _ _), fun hdisplayed => ?_⟩
  refine displayed_putCell ?_ hinside.row hinside.column hinside.notAbove space
  exact displayed_congr (t := t) rfl (by rw [hcurrent]) (by rw [hcurrent]) hdisplayed

end Terminal

end KernelFromScratch
