import KernelFromScratch.Proof.KernelRuns

/-!
# Runs of scancodes

What holds after every sequence of scancodes: every screen that has been shown is well formed, every
access stayed in bounds, and the hardware cursor is where the shown screen has its cursor.
-/

namespace KernelFromScratch

namespace Screen

/-- The linear position where the input starts. -/
def inputStart (screen : Screen) : Int :=
  screen.cursorY.toNat * terminalWidth + screen.cursorX.toNat - screen.inputCursor.toInt

def inputEnd (screen : Screen) : Int := screen.inputStart + screen.inputSize.toInt

/-- What screen `i` satisfies between two scancodes. -/
structure WellFormed (i : ScreenIndex) (screen : Screen) : Prop where
  cursorX : screen.cursorX.toNat < terminalWidth
  cursorY : screen.cursorY.toNat < terminalHeight
  scrollY : screen.scrollY.toNat + vgaHeight ≤ terminalHeight
  inputCursor : 0 ≤ screen.inputCursor.toInt
  inputCursor_le : screen.inputCursor.toInt ≤ screen.inputSize.toInt
  inputSize : screen.inputSize.toInt ≤ 127
  inputStart : 0 ≤ screen.inputStart
  inputEnd : screen.inputEnd < (terminalHeight * terminalWidth : Nat)
  colors : ∀ y < terminalHeight, ∀ x < terminalWidth,
    (screen.data y x).fgColor = colorField (screenColors i &&& 0x0F) ∧
      (screen.data y x).bgColor = colorField (screenColors i >>> 4)
  blank : ∀ y < terminalHeight, ∀ x < terminalWidth,
    screen.inputEnd ≤ (y * terminalWidth + x : Nat) → (screen.data y x).character = space

variable {screen : Screen} {s : Session} {i : ScreenIndex}

theorem Holds.inputStart_eq (hholds : screen.Holds s) :
    screen.inputStart = s.anchor - s.top * 80 := by
  have hlinear := hholds.window.linear
  have hcursor := hholds.cursor
  simp only [inputStart, terminalWidth, vgaWidth]
  omega

theorem Holds.wellFormed (hholds : screen.Holds s) (hfg : screen.fgColor = screenColors i &&& 0x0F)
    (hbg : screen.bgColor = screenColors i >>> 4) : screen.WellFormed i := by
  have hstart := hholds.inputStart_eq
  have hinside := hholds.inside
  have hsize := hholds.size
  have hcursor := hholds.cursor
  have hle := hholds.size_le
  have hfits := hholds.fits
  have htop := hholds.anchored.top_le
  have hbefore : s.line.before.length ≤ s.line.size := Nat.le_add_right _ _
  have hscroll := hinside.scroll
  have hend : screen.inputEnd = s.anchor - s.top * 80 + s.line.size := by
    rw [Screen.inputEnd, hstart, hsize]
  have hcells : ∀ y < 35, ∀ x < 80, screen.data y x = screen.cell
      (overwrite s.page.cells s.anchor s.line.line ((s.top + y) * 80 + x)) := hholds.window.data
  refine ⟨hinside.column, hinside.row, ?_, ?_, ?_, ?_, ?_, ?_, ?_, ?_⟩
  · simp only [terminalHeight, terminalExtraLines, vgaHeight]
    omega
  · omega
  · omega
  · omega
  · omega
  · simp only [terminalHeight, terminalExtraLines, vgaHeight, terminalWidth, vgaWidth]
    omega
  · intro y hy x hx
    rw [hcells y hy x hx, ← hfg, ← hbg]
    exact ⟨rfl, rfl⟩
  · intro y hy x hx hpast
    simp only [terminalWidth, vgaWidth] at hpast
    rw [hcells y hy x hx]
    have hafter : s.anchor + s.line.line.length ≤ (s.top + y) * 80 + x := by
      rw [Zipper.line_length]
      omega
    calc overwrite s.page.cells s.anchor s.line.line ((s.top + y) * 80 + x)
        = s.page.cells ((s.top + y) * 80 + x) := overwrite_of_le hafter
      _ = space := Terminal.page_blank s (by omega)

end Screen

/-- The state a run of scancodes stops in, whether the last command returned or not. -/
def Kernel.stopped : Except Kernel Kernel → Kernel
  | .ok k => k
  | .error k => k

variable {k : Kernel} {events : List KeyEvent}

theorem stopped_safe (vga : Vga) (events : List KeyEvent) :
    (Kernel.stopped ((Kernel.boot vga).handleAll events)).terminal.Safe := by
  have hboth := handleAll_both (boot_represents vga) events
  revert hboth
  generalize (Kernel.boot vga).handleAll events = result
  generalize SessionKernel.boot.handleAll events = result'
  intro hboth
  cases hboth with
  | ok hrepresents => exact hrepresents.related.safe
  | error hrepresents => exact hrepresents.related.safe

theorem handleAll_wellFormed (vga : Vga) (hrun : (Kernel.boot vga).handleAll events = .ok k)
    (i : ScreenIndex) (hinitialized : (k.terminal.screens i).initialized = true) :
    (k.terminal.screens i).WellFormed i := by
  obtain ⟨a, hrepresents⟩ := (handleAll_settled vga hrun).represented
  have hstored := hrepresents.related.stored
  obtain ⟨s, hs⟩ := Option.isSome_iff_exists.mp ((hstored.initialized i).symm.trans hinitialized)
  exact (hstored.holds i s hs).wellFormed (hstored.fgColor i) (hstored.bgColor i)

/-- The representation invariant of the screens, and index safety: after every scancode the screens
that have been shown are well formed, and no access to `data` or to an `after_cursor` buffer was out
of bounds, not even in the middle of a command. -/
theorem screens_wellFormed (vga : Vga) (events : List KeyEvent) :
    (∀ k, (Kernel.boot vga).handleAll events = .ok k →
      ∀ i, (k.terminal.screens i).initialized = true → (k.terminal.screens i).WellFormed i) ∧
      (∀ y x, .data y x ∈ (Kernel.stopped ((Kernel.boot vga).handleAll events)).terminal.accesses →
        y < terminalHeight ∧ x < terminalWidth) ∧
      ∀ index, .afterCursor index
        ∈ (Kernel.stopped ((Kernel.boot vga).handleAll events)).terminal.accesses →
        index < 127 := by
  have hsafe := stopped_safe vga events
  refine ⟨fun k hrun => handleAll_wellFormed vga hrun, ?_, ?_⟩
  · intro y x haccess
    exact hsafe _ haccess
  · intro index haccess
    exact hsafe _ haccess

theorem screens_wellFormed_key :
    let vga : Vga := ⟨fun _ => 0, 0, fun _ => 0, fun _ => 0⟩
    let k := (Kernel.boot vga).mapTerminal (Terminal.putcInput (chr 'a'))
    (k.terminal.screens 0).WellFormed 0 := by
  intro vga k
  have hboth : Both (Represents .input) (Represents .output) (.ok k)
      (SessionKernel.boot.handleAll (keys [0x1E])) :=
    handleAll_both (boot_represents vga) (keys [0x1E])
  have hinitialized : (k.terminal.screens 0).initialized = true := by
    cases hboth with
    | ok hrepresents => exact hrepresents.related.initialized 0
  exact (screens_wellFormed vga (keys [0x1E])).1 k rfl 0 hinitialized

/-- No write leaves the video memory: `y_to_vga` is only called on rows that are not above the
visible ones, so the first loop of `align_scroll_to_cursor` never runs. -/
theorem video_writes_inside (vga : Vga) (events : List KeyEvent) :
    let k := Kernel.stopped ((Kernel.boot vga).handleAll events)
    (∀ row scroll, .yToVga row scroll ∈ k.terminal.accesses → scroll ≤ row ∧ row < terminalHeight ∧
      (UInt8.ofNat row - (UInt16.ofNat scroll).toUInt8).toNat = row - scroll) ∧
      (∀ position, .vgaCell position ∈ k.terminal.accesses →
        position < terminalHeight * terminalWidth) ∧
      .alignUp ∉ k.terminal.accesses := by
  intro k
  have hsafe : k.terminal.Safe := stopped_safe vga events
  refine ⟨?_, ?_, ?_⟩
  · intro row scroll haccess
    obtain ⟨hle, hlt⟩ := hsafe _ haccess
    refine ⟨hle, hlt, ?_⟩
    rw [UInt8.toNat_sub, UInt16.toNat_toUInt8, UInt16.toNat_ofNat', UInt8.toNat_ofNat']
    omega
  · intro position haccess
    exact hsafe _ haccess
  · intro haccess
    exact hsafe _ haccess

/-- The hardware cursor always tracks the cursor of the shown screen. -/
theorem hardware_cursor_tracks (vga : Vga) (events : List KeyEvent)
    (hrun : (Kernel.boot vga).handleAll events = .ok k) :
    ((k.terminal.vga.crtc 0x0E).toNat * 256 + (k.terminal.vga.crtc 0x0F).toNat : Int)
      = ((k.terminal.currentScreen.cursorY.toNat : Int) - k.terminal.currentScreen.scrollY.toNat)
          * terminalWidth + k.terminal.currentScreen.cursorX.toNat := by
  have htracked := (handleAll_settled vga hrun).tracked
  rw [Terminal.CursorTracked, Vga.cursorLocation] at htracked
  exact_mod_cast htracked

theorem hardware_cursor_tracks_key :
    let vga : Vga := ⟨fun _ => 0, 0, fun _ => 0, fun _ => 0⟩
    let k := (Kernel.boot vga).mapTerminal (Terminal.putcInput (chr 'a'))
    ((k.terminal.vga.crtc 0x0E).toNat * 256 + (k.terminal.vga.crtc 0x0F).toNat : Int)
      = ((k.terminal.currentScreen.cursorY.toNat : Int) - k.terminal.currentScreen.scrollY.toNat)
          * terminalWidth + k.terminal.currentScreen.cursorX.toNat :=
  hardware_cursor_tracks _ (keys [0x1E]) rfl

end KernelFromScratch
