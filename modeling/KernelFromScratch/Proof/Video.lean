import KernelFromScratch.Terminal

/-!
# The video page

What the drawing functions do to the video memory, the hardware cursor and the list of accesses.
The screens themselves change only in `scroll_y`.
-/

namespace KernelFromScratch

/-- The access stays inside the array, the buffer, the page or the loop it belongs to. -/
def Access.Safe : Access → Prop
  | .data y x => y < 35 ∧ x < 80
  | .afterCursor index => index < 127
  | .yToVga row scroll => scroll ≤ row ∧ row < 35
  | .vgaCell position => position < 35 * 80
  | .alignUp => False

/-- The screen with its scroll position moved down until the cursor is visible. -/
def Screen.aligned (screen : Screen) : Screen :=
  { screen with scrollY := .ofNat (max screen.scrollY.toNat (screen.cursorY.toNat - 24)) }

theorem Screen.aligned_scrollY {screen : Screen} (hrow : screen.cursorY.toNat < 35) :
    screen.aligned.scrollY.toNat
      = max screen.scrollY.toNat (screen.cursorY.toNat - 24) := by
  have hscroll := screen.scrollY.toNat_lt
  simp [aligned]
  omega

namespace Terminal

def Safe (t : Terminal) : Prop := ∀ a ∈ t.accesses, a.Safe

/-- The visible page shows the visible rows of the current screen. -/
def Displayed (t : Terminal) : Prop :=
  ∀ y < 25, ∀ x < 80, t.vga.memory (y * 80 + x)
    = (t.currentScreen.data (t.currentScreen.scrollY.toNat + y) x).encode

/-- The hardware cursor is where the current screen has its cursor. -/
def CursorTracked (t : Terminal) : Prop :=
  (t.vga.cursorLocation : Int)
    = ((t.currentScreen.cursorY.toNat : Int) - t.currentScreen.scrollY.toNat) * 80
      + t.currentScreen.cursorX.toNat

theorem Safe.access {t : Terminal} (hsafe : t.Safe) {a : Access} (ha : a.Safe) :
    (t.access a).Safe := by
  intro b hb
  rcases List.mem_cons.mp hb with rfl | hmem
  · exact ha
  · exact hsafe b hmem

theorem safe_modifyScreen {f : Screen → Screen} {t : Terminal} :
    (t.modifyScreen f).Safe ↔ t.Safe := Iff.rfl

/-! ### Redrawing -/

theorem toNat_ofNat_uint8 {n : Nat} (hlt : n < 256) : (UInt8.ofNat n).toNat = n := by
  simp
  omega

/-- The cell `put_screen` writes at column `x` for the buffer row `scroll_y + y`. -/
theorem putScreenCell_memory {t : Terminal} {x y : Nat} (hx : x < 80) (hy : y < 25)
    (position : Nat) :
    (t.putScreenCell x (t.currentScreen.scrollY.toNat + y)).vga.memory position
      = if position = y * 80 + x then
          (t.currentScreen.data (t.currentScreen.scrollY.toNat + y) x).encode
        else t.vga.memory position := by
  have hcolumn : (UInt8.ofNat x).toNat = x := toNat_ofNat_uint8 (by omega)
  have hrow : (UInt8.ofNat (t.currentScreen.scrollY.toNat + y
      - t.currentScreen.scrollY.toNat)).toNat = y := by
    rw [Nat.add_sub_cancel_left]
    exact toNat_ofNat_uint8 (by omega)
  simp only [putScreenCell, vgaSetCell, Vga.setCell, getPosition_toNat, hcolumn, hrow]
  by_cases heq : position = y * 80 + x
  · subst heq
    simp [ScreenCell.encode]
  · rw [Function.update_of_ne heq, if_neg heq]
    rfl

/-- After the redraw of column `x` up to row `n` the cells of that column above `n` are drawn, and
the other columns are as before. -/
theorem putScreenColumn_memory (t : Terminal) {x n : Nat} (hx : x < 80) (hn : n ≤ 25) :
    let s := t.currentScreen.scrollY.toNat
    let r := forLoop s (s + n) (fun y t => t.putScreenCell x y) t
    r.screens = t.screens ∧ r.terminalIndex = t.terminalIndex ∧
      ∀ y < 25, ∀ x' < 80, r.vga.memory (y * 80 + x')
        = if x' = x ∧ y < n then (t.currentScreen.data (s + y) x).encode
          else t.vga.memory (y * 80 + x') := by
  intro s r
  induction n with
  | zero =>
      have hr : r = t := forLoop_of_le le_rfl _ _
      simp [hr]
  | succ n ih =>
      obtain ⟨hscreens, hindex, hmemory⟩ := ih (by omega)
      have hr : r = (forLoop s (s + n) (fun y t => t.putScreenCell x y) t).putScreenCell x (s + n) :=
        forLoop_succ (Nat.le_add_right s n) _ _
      set column := forLoop s (s + n) (fun y t => t.putScreenCell x y) t with hcolumn
      have hcurrent : column.currentScreen = t.currentScreen := by
        simp only [currentScreen, hscreens, hindex]
      refine ⟨by rw [hr, screens_putScreenCell, hscreens],
        by rw [hr, terminalIndex_putScreenCell, hindex], ?_⟩
      intro y hy x' hx'
      have hcell := putScreenCell_memory (t := column) hx (y := n) (by omega) (y * 80 + x')
      rw [hcurrent] at hcell
      rw [hr, hcell, hmemory y hy x' hx']
      by_cases heq : y * 80 + x' = n * 80 + x
      · have hxy : x' = x ∧ y = n := by omega
        rw [if_pos heq, if_pos ⟨hxy.1, by omega⟩, hxy.2]
      · rw [if_neg heq]
        have hiff : (x' = x ∧ y < n) ↔ (x' = x ∧ y < n + 1) := by omega
        simp only [hiff]

theorem displayed_putScreen (t : Terminal) : t.putScreen.Displayed := by
  have hloop : t.putScreen.screens = t.screens ∧ t.putScreen.terminalIndex = t.terminalIndex ∧
      ∀ y < 25, ∀ x' < 80, t.putScreen.vga.memory (y * 80 + x')
        = (t.currentScreen.data (t.currentScreen.scrollY.toNat + y) x').encode := by
    refine forLoop_rule (fun x (r : Terminal) => r.screens = t.screens ∧
      r.terminalIndex = t.terminalIndex ∧ ∀ y < 25, ∀ x' < x, r.vga.memory (y * 80 + x')
        = (t.currentScreen.data (t.currentScreen.scrollY.toNat + y) x').encode)
      (Nat.zero_le 80) ⟨rfl, rfl, by omega⟩ ?_
    intro x r _ hx ⟨hscreens, hindex, hmemory⟩
    simp only [terminalWidth, vgaWidth] at hx
    have hcurrent : r.currentScreen = t.currentScreen := by
      simp only [currentScreen, hscreens, hindex]
    obtain ⟨hscreens', hindex', hmemory'⟩ := putScreenColumn_memory r hx (n := 25) le_rfl
    refine ⟨hscreens'.trans hscreens, hindex'.trans hindex, ?_⟩
    intro y hy x' hx'
    simp only [vgaHeight]
    rw [hmemory' y hy x' (by omega), hcurrent]
    by_cases heq : x' = x
    · rw [if_pos ⟨heq, hy⟩, heq]
    · rw [if_neg (by tauto)]
      exact hmemory y hy x' (by omega)
  intro y hy x hx
  rw [currentScreen_putScreen]
  exact hloop.2.2 y hy x hx

theorem safe_putScreen {t : Terminal} (hsafe : t.Safe)
    (hscroll : t.currentScreen.scrollY.toNat ≤ 10) : t.putScreen.Safe := by
  have hcell : ∀ (x y : Nat) (r : Terminal), x < 80 → r.currentScreen.scrollY.toNat ≤ y →
      y < r.currentScreen.scrollY.toNat + 25 → r.currentScreen = t.currentScreen → r.Safe →
      (r.putScreenCell x y).Safe := by
    intro x y r hx hle hlt hcurrent hr
    have hposition : (Access.vgaCell (getPosition (.ofNat (y - r.currentScreen.scrollY.toNat))
        (.ofNat x)).toNat).Safe := by
      have hrow : (UInt8.ofNat (y - r.currentScreen.scrollY.toNat)).toNat
          = y - r.currentScreen.scrollY.toNat := toNat_ofNat_uint8 (by omega)
      have hcolumn : (UInt8.ofNat x).toNat = x := toNat_ofNat_uint8 (by omega)
      simp only [Access.Safe, getPosition_toNat, hrow, hcolumn]
      omega
    have hdata : (Access.data y x).Safe := by
      rw [hcurrent] at hlt
      exact ⟨by omega, hx⟩
    exact (hr.access hdata).access hposition
  have hloop : t.putScreen.Safe ∧ t.putScreen.currentScreen = t.currentScreen := by
    refine forLoop_preserves (fun r : Terminal => r.Safe ∧ r.currentScreen = t.currentScreen) ⟨hsafe, rfl⟩ ?_
    intro x r _ hx hr
    refine forLoop_preserves (fun r : Terminal => r.Safe ∧ r.currentScreen = t.currentScreen) hr ?_
    intro y r' hle hlt hr'
    rw [hr.2, ← hr'.2] at hle hlt
    exact ⟨hcell x y r' hx hle hlt hr'.2 hr'.1, hr'.2⟩
  exact hloop.1

@[simp]
theorem crtc_putScreen (t : Terminal) : t.putScreen.vga.crtc = t.vga.crtc := by
  refine forLoop_preserves (fun r : Terminal => r.vga.crtc = t.vga.crtc) rfl ?_
  intro x r _ _ hr
  refine forLoop_preserves (fun r : Terminal => r.vga.crtc = t.vga.crtc) hr ?_
  intro y r' _ _ hr'
  exact hr'

theorem cursorTracked_putScreen (t : Terminal) :
    t.putScreen.CursorTracked ↔ t.CursorTracked := by
  simp only [CursorTracked, Vga.cursorLocation, crtc_putScreen, currentScreen_putScreen]

/-! ### The hardware cursor -/

theorem yToVga_toNat {t : Terminal} {row : Nat} (hle : t.currentScreen.scrollY.toNat ≤ row)
    (hlt : row < 35) : (t.yToVga row).toNat = row - t.currentScreen.scrollY.toNat := by
  simp only [yToVga, UInt8.toNat_sub, UInt8.toNat_ofNat', UInt16.toNat_toUInt8]
  omega

/-- The cursor of the screen is on the screen and not above the visible rows. -/
structure CursorInside (screen : Screen) : Prop where
  column : screen.cursorX.toNat < 80
  row : screen.cursorY.toNat < 35
  scroll : screen.scrollY.toNat ≤ 10
  notAbove : screen.scrollY.toNat ≤ screen.cursorY.toNat

theorem safe_showCursor {t : Terminal} (hsafe : t.Safe) (hinside : CursorInside t.currentScreen) :
    t.showCursor.Safe :=
  hsafe.access ⟨hinside.notAbove, hinside.row⟩

theorem cursorTracked_showCursor {t : Terminal} (hinside : CursorInside t.currentScreen) :
    t.showCursor.CursorTracked := by
  have hrow := yToVga_toNat hinside.notAbove hinside.row
  have hcolumn := hinside.column
  have hnotAbove := hinside.notAbove
  have hlocation : t.showCursor.vga.cursorLocation
      = (t.yToVga t.currentScreen.cursorY.toNat).toNat * 80
        + (t.currentScreen.cursorX.toUInt8).toNat := Vga.cursorLocation_putCursor _ _ _
  rw [CursorTracked, hlocation, hrow, UInt16.toNat_toUInt8, currentScreen_showCursor]
  omega

theorem displayed_showCursor {t : Terminal} : t.showCursor.Displayed ↔ t.Displayed := by
  simp only [Displayed, showCursor, vgaPutCursor, Vga.putCursor_memory]
  rfl

/-- `vga_set_cursor_visibility` writes no port of the CRTC. -/
theorem vgaSetCursorVisibility_eq (visible : Bool) (t : Terminal) :
    t.vgaSetCursorVisibility visible = t := by
  rw [vgaSetCursorVisibility, Vga.setCursorVisibility_eq]

theorem redraw_spec {t : Terminal} (hsafe : t.Safe) (hinside : CursorInside t.currentScreen) :
    t.putScreen.showCursor.Safe ∧ t.putScreen.showCursor.Displayed ∧
      t.putScreen.showCursor.CursorTracked := by
  have hdrawn : t.putScreen.Safe := safe_putScreen hsafe hinside.scroll
  rw [← currentScreen_putScreen t] at hinside
  exact ⟨safe_showCursor hdrawn hinside, displayed_showCursor.mpr (displayed_putScreen t),
    cursorTracked_showCursor hinside⟩

/-! ### Aligning the scroll -/

theorem scrollDown_spec {t : Terminal} (hsafe : t.Safe)
    (hinside : CursorInside { t.currentScreen with scrollY := t.currentScreen.scrollY + 1 }) :
    t.scrollDown.Safe ∧ t.scrollDown.Displayed ∧ t.scrollDown.CursorTracked := by
  refine redraw_spec (safe_modifyScreen.mpr hsafe) ?_
  rw [currentScreen_modifyScreen]
  exact hinside

theorem scrollUp_spec {t : Terminal} (hsafe : t.Safe)
    (hinside : CursorInside { t.currentScreen with scrollY := t.currentScreen.scrollY - 1 }) :
    t.scrollUp.Safe ∧ t.scrollUp.Displayed ∧ t.scrollUp.CursorTracked := by
  refine redraw_spec (safe_modifyScreen.mpr hsafe) ?_
  rw [currentScreen_modifyScreen]
  exact hinside

/-- `r` differs from `t` at most in the current screen, the video device and the accesses. -/
structure Frame (t r : Terminal) : Prop where
  index : r.terminalIndex = t.terminalIndex
  others : ∀ i ≠ t.terminalIndex, r.screens i = t.screens i

theorem Frame.refl (t : Terminal) : Frame t t := ⟨rfl, fun _ _ => rfl⟩

theorem Frame.trans {t r s : Terminal} (htr : Frame t r) (hrs : Frame r s) : Frame t s :=
  ⟨hrs.index.trans htr.index, fun i hi =>
    (hrs.others i (htr.index ▸ hi)).trans (htr.others i hi)⟩

theorem frame_modifyScreen (f : Screen → Screen) (t : Terminal) : Frame t (t.modifyScreen f) :=
  ⟨rfl, fun _ hi => Function.update_of_ne hi _ _⟩

theorem frame_of_screens {t r : Terminal} (hscreens : r.screens = t.screens)
    (hindex : r.terminalIndex = t.terminalIndex) : Frame t r :=
  ⟨hindex, fun _ _ => by rw [hscreens]⟩

theorem frame_putScreen (t : Terminal) : Frame t t.putScreen :=
  frame_of_screens (screens_putScreen t) (terminalIndex_putScreen t)

theorem frame_showCursor (t : Terminal) : Frame t t.showCursor := frame_of_screens rfl rfl

theorem frame_access (a : Access) (t : Terminal) : Frame t (t.access a) := frame_of_screens rfl rfl

theorem frame_scrollDown (t : Terminal) : Frame t t.scrollDown :=
  ((frame_modifyScreen _ t).trans (frame_putScreen _)).trans (frame_showCursor _)

theorem frame_scrollUp (t : Terminal) : Frame t t.scrollUp :=
  ((frame_modifyScreen _ t).trans (frame_putScreen _)).trans (frame_showCursor _)

/-- What `align_scroll_to_cursor` does to a cursor that is not above the visible rows: scroll down
until it is visible. Every step redraws the page and shows the cursor. -/
structure Aligned (t r : Terminal) : Prop where
  frame : Frame t r
  screen : r.currentScreen = t.currentScreen.aligned
  safe : r.Safe
  displayed : t.Displayed → r.Displayed
  tracked : t.CursorTracked → r.CursorTracked

theorem alignScrollDown_aligned (t : Terminal) (hsafe : t.Safe)
    (hinside : CursorInside t.currentScreen) : Aligned t t.alignScrollDown := by
  induction t using alignScrollDown.induct with
  | case1 t hbelow ih =>
      have hbelow' : t.currentScreen.scrollY.toNat + 25 ≤ t.currentScreen.cursorY.toNat := hbelow
      have hrow := hinside.row
      have hscroll : (t.currentScreen.scrollY + 1).toNat = t.currentScreen.scrollY.toNat + 1 := by
        simp [UInt16.toNat_add]
        omega
      have hstep : CursorInside { t.currentScreen with scrollY := t.currentScreen.scrollY + 1 } :=
        ⟨hinside.column, hrow, by simp only [hscroll]; omega, by simp only [hscroll]; omega⟩
      obtain ⟨hsafe', hdisplayed, htracked⟩ := scrollDown_spec hsafe hstep
      have haligned := ih hsafe' (by rw [currentScreen_scrollDown]; exact hstep)
      rw [alignScrollDown, if_pos hbelow]
      refine ⟨(frame_scrollDown t).trans haligned.frame, ?_, haligned.safe,
        fun _ => haligned.displayed hdisplayed, fun _ => haligned.tracked htracked⟩
      rw [haligned.screen, currentScreen_scrollDown]
      have hmax : max (t.currentScreen.scrollY.toNat + 1) (t.currentScreen.cursorY.toNat - 24)
          = max t.currentScreen.scrollY.toNat (t.currentScreen.cursorY.toNat - 24) := by omega
      simp only [Screen.aligned, hscroll, hmax]
  | case2 t hbelow =>
      have hbelow' : ¬ t.currentScreen.scrollY.toNat + 25 ≤ t.currentScreen.cursorY.toNat := hbelow
      rw [alignScrollDown, if_neg hbelow]
      refine ⟨.refl t, ?_, hsafe, id, id⟩
      have hmax : max t.currentScreen.scrollY.toNat (t.currentScreen.cursorY.toNat - 24)
          = t.currentScreen.scrollY.toNat := by omega
      simp [Screen.aligned, hmax]

theorem alignScrollToCursor_aligned {t : Terminal} (hsafe : t.Safe)
    (hinside : CursorInside t.currentScreen) : Aligned t t.alignScrollToCursor := by
  have habove : ¬ t.isCursorAboveVisible := by
    have hle : ¬ t.currentScreen.cursorY.toNat < t.currentScreen.scrollY.toNat :=
      Nat.not_lt.mpr hinside.notAbove
    exact hle
  rw [alignScrollToCursor, alignScrollUp, if_neg habove]
  exact alignScrollDown_aligned t hsafe hinside

end Terminal

end KernelFromScratch
