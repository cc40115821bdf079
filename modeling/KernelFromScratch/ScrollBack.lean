import KernelFromScratch.Scrolling

/-!
# Scrolling back

`terminal_move(DOWN)` scrolls only while the cursor is below the visible rows. What was scrolled up
is scrolled back if the cursor was on the last visible row or below it, and otherwise only as far as
to the row of the cursor.
-/

namespace KernelFromScratch

open Terminal TerminalOp Reaction

namespace Terminal

variable {t r : Terminal} {s : Session} {row n : Nat}

/-- Each of `n` moves up scrolls by one row. -/
def ScrollsUp (n : Nat) (t : Terminal) : Prop :=
  ∀ i < n, ((move .up)^[i + 1] t).currentScreen.scrollY.toNat + 1
    = ((move .up)^[i] t).currentScreen.scrollY.toNat

/-- `n` moves up and then `n` moves down. -/
def scrollBack (n : Nat) (t : Terminal) : Terminal := (move .down)^[n] ((move .up)^[n] t)

/-- The same scroll position, visible page and hardware cursor. -/
structure SameView (t r : Terminal) : Prop where
  scrollY : r.currentScreen.scrollY = t.currentScreen.scrollY
  page : ∀ y < vgaHeight, ∀ x < vgaWidth,
    r.vga.memory (y * vgaWidth + x) = t.vga.memory (y * vgaWidth + x)
  cursor : r.vga.cursorLocation = t.vga.cursorLocation

/-- `t` after some scrolling, with `row` as its first visible row. -/
structure Scrolled (t r : Terminal) (s : Session) (row : Nat) : Prop where
  editing : r.EditingSession s
  screen : r.currentScreen = { t.currentScreen with scrollY := r.currentScreen.scrollY }
  scrollY : r.currentScreen.scrollY.toNat = row
  displayed : t.Displayed → r.Displayed
  tracked : t.CursorTracked → r.CursorTracked

theorem EditingSession.scrolled (hediting : t.EditingSession s) :
    Scrolled t t s t.currentScreen.scrollY.toNat :=
  ⟨hediting, rfl, rfl, id, id⟩

/-! ### A step -/

theorem currentScreen_move_up (hediting : t.EditingSession s) :
    (t.move .up).currentScreen = { t.currentScreen with
      scrollY := if t.canScrollUp then t.currentScreen.scrollY - 1
        else t.currentScreen.scrollY } := by
  rw [move, if_neg hediting.inputMode]
  by_cases hcan : t.canScrollUp
  · simp only [hcan, if_true]
    exact currentScreen_scrollUp t
  · simp only [hcan, if_false]

theorem currentScreen_move_down (hediting : t.EditingSession s) :
    (t.move .down).currentScreen = { t.currentScreen with
      scrollY := if t.canScrollDown then t.currentScreen.scrollY + 1
        else t.currentScreen.scrollY } := by
  rw [move, if_neg hediting.inputMode]
  by_cases hcan : t.canScrollDown
  · simp only [hcan, if_true]
    exact currentScreen_scrollDown t
  · simp only [hcan, if_false]

/-- The buffer ends below the last row the cursor can be on, so only the cursor stops the scroll. -/
theorem EditingSession.canScrollDown_iff (hediting : t.EditingSession s) :
    t.canScrollDown ↔ t.currentScreen.scrollY.toNat < t.currentScreen.cursorY.toNat - 24 := by
  have hrow := hediting.view.inside.row
  rw [canScrollDown, isCursorBelowVisible]
  simp only [terminalHeight, terminalExtraLines, vgaHeight]
  omega

theorem EditingSession.of_edited (hediting : t.EditingSession s)
    (hedited : Edited t r s.top s.page.cells s.anchor s.line) : r.EditingSession s := by
  have heditingNext := hedited.editing
  rw [settledTop_of_lt hediting.fits] at heditingNext
  exact heditingNext

theorem Scrolled.up (hscrolled : Scrolled t r s row) : Scrolled t (r.move .up) s (row - 1) := by
  obtain ⟨hediting, hscreen, hrow, hdisplayed, htracked⟩ := hscrolled
  have hedited := move_up_edited hediting
  have hmove := currentScreen_move_up hediting
  refine ⟨hediting.of_edited hedited, ?_, ?_, fun h => hedited.displayed (hdisplayed h),
    fun h => hedited.tracked (htracked h)⟩
  · rw [hmove, hscreen]
  · rw [hmove]
    by_cases hcan : r.canScrollUp
    · have hpositive : 0 < r.currentScreen.scrollY.toNat := hcan
      have hscroll := hediting.view.inside.scroll
      simp only [if_pos hcan]
      rw [UInt16.toNat_sub, UInt16.toNat_one]
      omega
    · have hzero : ¬ 0 < r.currentScreen.scrollY.toNat := hcan
      simp only [if_neg hcan]
      omega

theorem Scrolled.down (hscrolled : Scrolled t r s row) :
    Scrolled t (r.move .down) s
      (if row < t.currentScreen.cursorY.toNat - 24 then row + 1 else row) := by
  obtain ⟨hediting, hscreen, hrow, hdisplayed, htracked⟩ := hscrolled
  have hedited := move_down_edited hediting
  have hmove := currentScreen_move_down hediting
  have hcursorY : r.currentScreen.cursorY = t.currentScreen.cursorY := by rw [hscreen]
  have hcan := hediting.canScrollDown_iff
  rw [hrow, hcursorY] at hcan
  refine ⟨hediting.of_edited hedited, ?_, ?_, fun h => hedited.displayed (hdisplayed h),
    fun h => hedited.tracked (htracked h)⟩
  · rw [hmove, hscreen]
  · rw [hmove]
    by_cases hbelow : row < t.currentScreen.cursorY.toNat - 24
    · have hscroll := hediting.view.inside.scroll
      simp only [if_pos (hcan.mpr hbelow), if_pos hbelow]
      rw [UInt16.toNat_add, UInt16.toNat_one]
      omega
    · simp only [if_neg (mt hcan.mp hbelow), if_neg hbelow]
      exact hrow

/-! ### Runs of moves -/

theorem Scrolled.ups (hscrolled : Scrolled t r s row) (n : Nat) :
    Scrolled t ((move .up)^[n] r) s (row - n) := by
  induction n with
  | zero => exact hscrolled
  | succ n ih =>
      rw [Function.iterate_succ_apply']
      exact ih.up

/-- Moves down scroll until the cursor is on the last visible row. -/
theorem Scrolled.downs (hscrolled : Scrolled t r s row) (n : Nat) :
    Scrolled t ((move .down)^[n] r) s
      (max row (min (row + n) (t.currentScreen.cursorY.toNat - 24))) := by
  induction n with
  | zero =>
      have hrow : max row (min (row + 0) (t.currentScreen.cursorY.toNat - 24)) = row := by omega
      rw [hrow]
      exact hscrolled
  | succ n ih =>
      rw [Function.iterate_succ_apply']
      have hdown := ih.down
      have hrow : (if max row (min (row + n) (t.currentScreen.cursorY.toNat - 24))
            < t.currentScreen.cursorY.toNat - 24
          then max row (min (row + n) (t.currentScreen.cursorY.toNat - 24)) + 1
          else max row (min (row + n) (t.currentScreen.cursorY.toNat - 24)))
          = max row (min (row + (n + 1)) (t.currentScreen.cursorY.toNat - 24)) := by
        split_ifs <;> omega
      rwa [hrow] at hdown

theorem EditingSession.scrollsUp_iff (hediting : t.EditingSession s) :
    ScrollsUp n t ↔ n ≤ t.currentScreen.scrollY.toNat := by
  have hups := hediting.scrolled.ups
  constructor
  · intro hscrolls
    cases n with
    | zero => exact Nat.zero_le _
    | succ n =>
        have hstep := hscrolls n (Nat.lt_succ_self n)
        rw [(hups (n + 1)).scrollY, (hups n).scrollY] at hstep
        omega
  · intro hle i hi
    rw [(hups (i + 1)).scrollY, (hups i).scrollY]
    omega

theorem EditingSession.scrollBack (hediting : t.EditingSession s)
    (hscrolls : ScrollsUp n t) :
    Scrolled t (t.scrollBack n) s (max (t.currentScreen.scrollY.toNat - n)
      (min t.currentScreen.scrollY.toNat (t.currentScreen.cursorY.toNat - 24))) := by
  have hle := hediting.scrollsUp_iff.mp hscrolls
  have hback := (hediting.scrolled.ups n).downs n
  rwa [Nat.sub_add_cancel hle] at hback

/-- The screen, the page and the hardware cursor are the same once the scroll position is. -/
theorem Scrolled.sameView (hscrolled : Scrolled t r s row)
    (hrow : r.currentScreen.scrollY = t.currentScreen.scrollY) (htracked : t.CursorTracked) :
    r.vga.cursorLocation = t.vga.cursorLocation ∧ (t.Displayed → SameView t r) := by
  have hscreen : r.currentScreen = t.currentScreen := by
    rw [hscrolled.screen, hrow]
  have hcursor : r.vga.cursorLocation = t.vga.cursorLocation := by
    have htracked' := hscrolled.tracked htracked
    rw [CursorTracked, hscreen] at htracked'
    exact Int.ofNat_inj.mp (htracked'.trans htracked.symm)
  refine ⟨hcursor, fun hdisplayed => ⟨hrow, fun y hy x hx => ?_, hcursor⟩⟩
  calc r.vga.memory (y * 80 + x)
      = (r.currentScreen.data (r.currentScreen.scrollY.toNat + y) x).encode :=
        hscrolled.displayed hdisplayed y hy x hx
    _ = (t.currentScreen.data (t.currentScreen.scrollY.toNat + y) x).encode := by rw [hscreen]
    _ = t.vga.memory (y * 80 + x) := (hdisplayed y hy x hx).symm

/-! ### Moving the cursor back -/

/-- A move left makes the cursor visible and never scrolls up. -/
theorem EditingSession.moveLeft (hediting : t.EditingSession s)
    (hinside : 0 < s.line.before.length) :
    (t.move .left).EditingSession { s with line := s.line.moveLeft } ∧
      t.currentScreen.scrollY.toNat ≤ (t.move .left).currentScreen.scrollY.toNat ∧
      (t.move .left).currentScreen.cursorY.toNat
        < (t.move .left).currentScreen.scrollY.toNat + 25 := by
  have hle := hediting.size_le
  have hfits := hediting.fits
  have hsizes : s.line.size = s.line.before.length + s.line.after.length := rfl
  have hcursor : 0 < t.currentScreen.inputCursor.toInt := by
    rw [hediting.cursor]
    omega
  have hoffset : ((s.anchor + s.line.before.length : Nat) : Int) + -1
      = (s.anchor + (s.line.before.length - 1) : Nat) := by omega
  obtain ⟨hshown, -⟩ := moveCursor_shown hediting.view hoffset (by omega) (by omega) (by omega)
  have hscroll := moveCursor_scrollY hediting.view hoffset (by omega) (by omega) (by omega)
  have hmove : (t.move .left).currentScreen
      = { (t.moveCursor (-1)).currentScreen with
          inputCursor := .ofInt ((t.moveCursor (-1)).currentScreen.inputCursor.toInt - 1) } := by
    rw [move, if_neg hediting.inputMode]
    simp only [if_pos hcursor]
    rw [currentScreen_modifyScreen]
  have hmoved := (move_left_edited hediting).editing
  rw [Zipper.size_moveLeft, settledTop_of_lt hfits] at hmoved
  refine ⟨hmoved, ?_, ?_⟩
  · rw [hmove]
    exact hscroll
  · rw [hmove]
    exact hshown.visible

theorem EditingSession.cursorY_eq (hediting : t.EditingSession s) :
    t.currentScreen.cursorY.toNat = (s.anchor + s.line.before.length) / 80 - s.top := by
  have hrow := hediting.view.window.cursorY
  omega

end Terminal

variable {k : Kernel} {n : Nat}

theorem handle_arrowKey (hctrl : k.keyboard.isCtrl = false)
    (direction : TerminalCursorDirection) :
    k.handle ⟨arrowKey direction, ⟨[], [], true, true⟩⟩ = .ok (k.mapTerminal (move direction)) := by
  have hnotCtrl : ¬ k.keyboard.isCtrl = true := by
    rw [hctrl]
    exact Bool.false_ne_true
  rw [Kernel.handle, handleScancode_eq, ofScancode_arrowKey, if_neg hnotCtrl]
  rfl

/-! ### Scrolling back -/

/-- After `n` moves up that each scroll, and `n` moves down, the scroll position and the hardware
cursor are back if and only if the cursor was on the last visible row or below it, and then so is
the page if it showed the visible rows; the input up to the row of the cursor is visible again in
any case. -/
theorem scrollBack_restores_iff (vga : Vga) (history : List KeyEvent)
    (hreachable : (Kernel.boot vga).handleAll history = .ok k)
    (hscrolls : ScrollsUp n k.terminal) :
    let t := k.terminal
    let r := t.scrollBack n
    (r.currentScreen.scrollY = t.currentScreen.scrollY
        ∧ r.vga.cursorLocation = t.vga.cursorLocation
      ↔ n = 0 ∨ t.currentScreen.scrollY.toNat + vgaHeight ≤ t.currentScreen.cursorY.toNat + 1) ∧
    (t.Displayed →
      (SameView t r
        ↔ n = 0 ∨ t.currentScreen.scrollY.toNat + vgaHeight ≤ t.currentScreen.cursorY.toNat + 1)) ∧
    ∀ y, t.currentScreen.scrollY.toNat ≤ y → y < t.currentScreen.scrollY.toNat + vgaHeight →
      y ≤ t.currentScreen.cursorY.toNat →
      r.currentScreen.scrollY.toNat ≤ y ∧ y < r.currentScreen.scrollY.toNat + vgaHeight := by
  intro t r
  obtain ⟨⟨a, hrepresents⟩, htracked, -⟩ := handleAll_settled vga hreachable
  obtain ⟨s, -, hediting⟩ := hrepresents.related.current
  have hle : n ≤ t.currentScreen.scrollY.toNat := hediting.scrollsUp_iff.mp hscrolls
  have hback : Scrolled t r s (max (t.currentScreen.scrollY.toNat - n)
      (min t.currentScreen.scrollY.toNat (t.currentScreen.cursorY.toNat - 24))) :=
    hediting.scrollBack hscrolls
  have hrow := hback.scrollY
  have hsame : r.currentScreen.scrollY = t.currentScreen.scrollY
      ↔ n = 0 ∨ t.currentScreen.scrollY.toNat + 25 ≤ t.currentScreen.cursorY.toNat + 1 := by
    rw [← UInt16.toNat_inj, hrow]
    omega
  refine ⟨⟨fun h => hsame.mp h.1, fun h => ?_⟩, fun hdisplayed => ⟨fun h => hsame.mp h.scrollY,
    fun h => ?_⟩, fun y hvisible hlt hcursor => ?_⟩
  · exact ⟨hsame.mpr h, (hback.sameView (hsame.mpr h) htracked).1⟩
  · exact (hback.sameView (hsame.mpr h) htracked).2 hdisplayed
  · simp only [vgaHeight] at hlt ⊢
    omega

/-- The prompt is brought to the last row of the buffer, a line is typed that goes on in the next
row, and the cursor is moved to the start of that row. -/
def longLine : List KeyEvent :=
  keys (List.replicate 34 keyEnter ++ List.replicate 79 0x1E) ++ keys [keyLeft]

theorem longLine_run (vga : Vga) : ∃ k s, (Kernel.boot vga).handleAll longLine = .ok k ∧
    k.keyboard.isCtrl = false ∧ k.terminal.Displayed ∧ k.terminal.EditingSession s ∧
    s.line.before.length = 78 ∧ s.anchor = 2722 ∧ s.top = 1 ∧
    k.terminal.currentScreen.scrollY.toNat = 10 := by
  have heval : ((SessionKernel.boot.handleAll
      (keys (List.replicate 34 keyEnter ++ List.replicate 79 0x1E))).toOption.map fun a =>
        ((a.keyboard.isCtrl, a.shell.readPending),
          (a.sessions.sessions a.sessions.index).map fun s =>
            (s.line.before.length, s.anchor, s.top)))
        = some ((false, false), some (79, 2722, 1)) := by decide +kernel
  obtain ⟨a, harun, hvalues⟩ := exists_ok_of_toOption_map heval
  obtain ⟨hflags, hsession⟩ := Prod.mk.inj hvalues
  obtain ⟨s, hs, hline⟩ := Option.map_eq_some_iff.mp hsession
  simp only [Prod.mk.injEq] at hflags hline
  obtain ⟨hlength, hanchor, htop⟩ := hline
  obtain ⟨k, hrun, hrepresents⟩ := handleAll_represents vga harun
  obtain ⟨s', hs', hediting⟩ := hrepresents.related.current
  rw [hs, Option.some_inj] at hs'
  subst hs'
  have hctrl : k.keyboard.isCtrl = false := by
    rw [hrepresents.keyboard]
    exact hflags.1
  have hpending : k.shell.readPending = false := by
    rw [hrepresents.shell]
    exact hflags.2
  have hrun' : (Kernel.boot vga).handleAll longLine = .ok (k.mapTerminal (move .left)) :=
    foldlM_concat_ok.mpr ⟨k, hrun, handle_arrowKey hctrl .left⟩
  obtain ⟨hediting', -, hvisible⟩ := hediting.moveLeft (by omega)
  have hbefore : s.line.moveLeft.before.length = 78 := by
    rw [Zipper.length_before_moveLeft, hlength]
  have hcursorY : (k.mapTerminal (move .left)).terminal.currentScreen.cursorY.toNat
      = (s.anchor + s.line.moveLeft.before.length) / 80 - s.top := hediting'.cursorY_eq
  have hscroll := hediting'.view.inside.scroll
  have hlast : (k.mapTerminal (move .left)).terminal.currentScreen.scrollY.toNat = 10 := by
    refine Nat.le_antisymm hscroll ?_
    have hcursor : (k.mapTerminal (move .left)).terminal.currentScreen.cursorY.toNat
        < (k.mapTerminal (move .left)).terminal.currentScreen.scrollY.toNat + 25 := hvisible
    omega
  exact ⟨_, _, hrun', hctrl, (handleAll_settled vga hrun').displayed hpending, hediting', hbefore,
    hanchor, htop, hlast⟩

/-- With the cursor on the last row, ten moves up are taken back. -/
theorem scrollBack_restores_lastRow :
    ∃ k, (Kernel.boot ⟨fun _ => 0, 0, fun _ => 0, fun _ => 0⟩).handleAll longLine = .ok k ∧
      SameView k.terminal (k.terminal.scrollBack 10) := by
  obtain ⟨k, s, hrun, -, hdisplayed, hediting, hbefore, hanchor, htop, hscroll⟩ :=
    longLine_run ⟨fun _ => 0, 0, fun _ => 0, fun _ => 0⟩
  have hscrolls : ScrollsUp 10 k.terminal := hediting.scrollsUp_iff.mpr (by omega)
  have hcursorY := hediting.cursorY_eq
  obtain ⟨-, hview, -⟩ := scrollBack_restores_iff _ longLine hrun hscrolls
  refine ⟨k, hrun, (hview hdisplayed).mpr (Or.inr ?_)⟩
  simp only [vgaHeight]
  omega

/-- With the cursor above the last visible row, a move up is not taken back. -/
theorem scrollBack_above_lastRow :
    ∃ k, (Kernel.boot ⟨fun _ => 0, 0, fun _ => 0, fun _ => 0⟩).handleAll
        (longLine ++ keys [keyLeft]) = .ok k ∧
      0 ≤ k.terminal.currentScreen.inputSize.toInt ∧ ScrollsUp 1 k.terminal ∧
      (k.terminal.scrollBack 1).currentScreen.scrollY ≠ k.terminal.currentScreen.scrollY := by
  obtain ⟨k, s, hrun, hctrl, -, hediting, hbefore, hanchor, htop, hscroll⟩ :=
    longLine_run ⟨fun _ => 0, 0, fun _ => 0, fun _ => 0⟩
  obtain ⟨hediting', hle, -⟩ := hediting.moveLeft (by omega)
  have hbefore' : s.line.moveLeft.before.length = 77 := by
    rw [Zipper.length_before_moveLeft, hbefore]
  have hcursorY : (k.terminal.move .left).currentScreen.cursorY.toNat
      = (s.anchor + s.line.moveLeft.before.length) / 80 - s.top := hediting'.cursorY_eq
  have hscrolls : ScrollsUp 1 (k.terminal.move .left) := hediting'.scrollsUp_iff.mpr (by omega)
  have hback := (hediting'.scrollBack hscrolls).scrollY
  refine ⟨k.mapTerminal (move .left),
    foldlM_concat_ok.mpr ⟨k, hrun, handle_arrowKey hctrl .left⟩, ?_, hscrolls, ?_⟩
  · exact not_lt.mp hediting'.inputMode
  · intro hrestored
    have hrow : ((k.terminal.move .left).scrollBack 1).currentScreen.scrollY.toNat
        = (k.terminal.move .left).currentScreen.scrollY.toNat := congrArg UInt16.toNat hrestored
    have hten := hediting'.view.inside.scroll
    omega

end KernelFromScratch
