import KernelFromScratch.Display

/-!
# What the monitor shows

The page in the text memory is a part of the page of the shown session, in the colors of its screen,
and the hardware cursor is at the cursor of the line. After `clear` it is the page of the boot.
-/

namespace KernelFromScratch

open TerminalOp Reaction

/-- The text memory shows rows `row`, ..., `row + 24` of `cells` in the colors of screen `i`, and the
cursor is at position `pos` of `cells`. -/
structure Vga.Shows (vga : Vga) (i : ScreenIndex) (cells : Nat → UInt8) (row pos : Nat) : Prop where
  page : ∀ y < 25, ∀ x < 80, vga.memory (y * 80 + x)
    = getCell (cells ((row + y) * 80 + x)) (screenColors i &&& 0x0F) (screenColors i >>> 4)
  cursor : row * 80 + vga.cursorLocation = pos

/-- The first visible row of a session: the prompt is never scrolled out at the top. -/
def Session.FirstRow (s : Session) (row : Nat) : Prop :=
  row = s.top ∨ s.top < row ∧ row ≤ s.top + 10 ∧ row + 22 ≤ s.anchor / 80

variable {k k' : Kernel} {s : Session} {t : Terminal} {σ : Sessions} {events : List KeyEvent}

theorem encode_cell (i : ScreenIndex) {screen : Screen}
    (hfg : screen.fgColor = screenColors i &&& 0x0F) (hbg : screen.bgColor = screenColors i >>> 4)
    (c : UInt8) :
    (screen.cell c).encode = getCell c (screenColors i &&& 0x0F) (screenColors i >>> 4) := by
  have hcolors : ∀ i, colorByte (colorField (screenColors i &&& 0x0F)) = screenColors i &&& 0x0F ∧
      colorByte (colorField (screenColors i >>> 4)) = screenColors i >>> 4 := by decide
  obtain ⟨hfield, hfield'⟩ := hcolors i
  rw [ScreenCell.encode, Screen.cell, hfg, hbg, hfield, hfield']

theorem Terminal.Related.shows (hrelated : Related .input t σ) (hdisplayed : t.Displayed)
    (htracked : t.CursorTracked) (hs : σ.sessions σ.index = some s) :
    ∃ row, s.FirstRow row ∧
      t.vga.Shows σ.index s.shown.cells row (s.anchor + s.line.before.length) := by
  obtain ⟨s', hs', hediting⟩ := hrelated.current
  obtain rfl := Option.some.inj (hs.symm.trans hs')
  obtain ⟨hholds, -⟩ := editingSession_iff.mp hediting
  have hinside := hholds.inside
  have hscreen := currentScreen_eq hrelated.index
  have hfg := hrelated.fgColor σ.index
  have hbg := hrelated.bgColor σ.index
  rw [hscreen] at hfg hbg
  have hle := hholds.anchored.scroll_le
  have hcells : s.shown.cells = overwrite s.page.cells s.anchor s.line.line := by
    rw [hediting.shown_eq]
  refine ⟨s.top + t.currentScreen.scrollY.toNat, ?_, ?_, ?_⟩
  · rcases hholds.anchored.scroll with hzero | hprompt
    · exact Or.inl (by rw [hzero, Nat.add_zero])
    · by_cases hzero : t.currentScreen.scrollY.toNat = 0
      · exact Or.inl (by rw [hzero, Nat.add_zero])
      · exact Or.inr ⟨by omega, by omega, by omega⟩
  · intro y hy x hx
    rw [hdisplayed y hy x hx, hholds.window.data _ (by omega) x hx, encode_cell _ hfg hbg, hcells,
      Nat.add_assoc]
  · have hlinear := hholds.window.linear
    have hnotAbove := hinside.notAbove
    rw [CursorTracked] at htracked
    omega

theorem Settled.shows (hsettled : Settled k) (hpending : k.shell.readPending = false)
    {a : SessionKernel} (hrepresents : Represents .input k a)
    (hs : a.sessions.sessions a.sessions.index = some s) :
    ∃ row, s.FirstRow row ∧
      k.terminal.vga.Shows k.terminal.terminalIndex s.shown.cells row
        (s.anchor + s.line.before.length) := by
  rw [hrepresents.related.index]
  exact hrepresents.related.shows (hsettled.displayed hpending) hsettled.tracked hs

/-- After any scancodes that leave no read pending, the monitor shows the text of the session and the
line being edited, and the cursor where the next character goes. -/
theorem monitor_shows_session (vga : Vga) (hrun : (Kernel.boot vga).handleAll events = .ok k)
    (hpending : k.shell.readPending = false) :
    ∃ a s row, SessionKernel.boot.handleAll events = .ok a ∧
      a.sessions.sessions k.terminal.terminalIndex = some s ∧ s.FirstRow row ∧
      k.terminal.vga.Shows k.terminal.terminalIndex s.shown.cells row
        (s.anchor + s.line.before.length) := by
  obtain ⟨a, harun, hrepresents⟩ := handleAll_represented vga hrun
  obtain ⟨s, hs, -⟩ := hrepresents.related.current
  obtain ⟨row, hrow, hshows⟩ := (handleAll_settled vga hrun).shows hpending hrepresents hs
  rw [← hrepresents.related.index] at hs
  exact ⟨a, s, row, harun, hs, hrow, hshows⟩

theorem monitor_shows_session_typed :
    ∃ k a s row, (Kernel.boot ⟨fun _ => 0, 0, fun _ => 0, fun _ => 0⟩).handleAll
        (keys [0x1E, 0x4B]) = .ok k ∧ SessionKernel.boot.handleAll (keys [0x1E, 0x4B]) = .ok a ∧
      a.sessions.sessions k.terminal.terminalIndex = some s ∧ s.FirstRow row ∧
      k.terminal.vga.Shows k.terminal.terminalIndex s.shown.cells row
        (s.anchor + s.line.before.length) := by
  have heval : ((SessionKernel.boot.handleAll (keys [0x1E, 0x4B])).toOption.map fun a =>
      a.shell.readPending) = some false := by decide +kernel
  obtain ⟨a, harun, hpending⟩ := exists_ok_of_toOption_map heval
  obtain ⟨k, hrun, hrepresents⟩ :=
    handleAll_represents ⟨fun _ => 0, 0, fun _ => 0, fun _ => 0⟩ harun
  rw [← hrepresents.shell] at hpending
  obtain ⟨a', s, row, hshown⟩ := monitor_shows_session _ hrun hpending
  exact ⟨k, a', s, row, hrun, hshown⟩

/-! ### `clear` -/

/-- The screens differ at most in their colors and in what the functions do not look at. -/
structure Screen.Matches (screen screen' : Screen) : Prop where
  characters : ∀ y < 35, ∀ x < 80, (screen.data y x).character = (screen'.data y x).character
  cursorX : screen.cursorX = screen'.cursorX
  cursorY : screen.cursorY = screen'.cursorY
  scrollY : screen.scrollY = screen'.scrollY
  inputSize : screen.inputSize = screen'.inputSize
  inputCursor : screen.inputCursor = screen'.inputCursor

theorem Screen.Holds.opened_scrollY {screen : Screen} (hholds : screen.Holds .opened) :
    screen.scrollY = 0 := by
  apply UInt16.toNat_inj.mp
  rcases hholds.anchored.scroll with hzero | hprompt
  · exact hzero
  · change 0 + screen.scrollY.toNat + 22 ≤ 0 at hprompt
    omega

theorem Screen.Holds.matches_opened {screen screen' : Screen} (hholds : screen.Holds .opened)
    (hholds' : screen'.Holds .opened) : screen.Matches screen' := by
  constructor
  case characters =>
    intro y hy x hx
    rw [hholds.window.data y hy x hx, hholds'.window.data y hy x hx]
    rfl
  case cursorX => exact UInt16.toNat_inj.mp (hholds.window.cursorX.trans hholds'.window.cursorX.symm)
  case cursorY =>
    have hrow := hholds.window.cursorY.trans hholds'.window.cursorY.symm
    exact UInt16.toNat_inj.mp (Nat.add_left_cancel hrow)
  case scrollY => rw [hholds.opened_scrollY, hholds'.opened_scrollY]
  case inputSize => exact Int8.toInt_inj.mp (hholds.size.trans hholds'.size.symm)
  case inputCursor => exact Int8.toInt_inj.mp (hholds.cursor.trans hholds'.cursor.symm)

theorem ofLine_clear (output : CommandOutput) {shell : Shell} (keyboard : Keyboard)
    (hcommands : shell.commands = Shell.zero.init.commands) (hpending : shell.readPending = false) :
    ofLine output shell keyboard (str "clear" ++ [0])
      = ⟨[.beginOutput, .clear, .endOutput true], { shell with lastCommand := some 1 }, keyboard,
          [str "clear" ++ [0]], true⟩ := by
  have hname : (shell.commands 1).name = str "clear" := by
    rw [hcommands]
    rfl
  have hfunction : (shell.commands 1).function = .clear := by
    rw [hcommands]
    rfl
  have hfind : shell.findCommand (str "clear" ++ [0]) = some 1 :=
    (Shell.findCommand_eq_some_iff hcommands (by decide)).mpr hname.symm
  have hother : strcmp (str "clear" ++ [0]) (str "last") ≠ 0 := by decide
  have hcalled : ofCall output shell keyboard .clear = ⟨[.clear], shell, keyboard, [], true⟩ := rfl
  rw [ofLine, if_neg (by rw [hpending]; exact Bool.false_ne_true), hfind]
  simp only [hfunction, hcalled]
  rw [ofCommand, if_pos rfl, if_pos hother]
  simp only [hpending]
  rfl

theorem toUInt8_getCell (c fgColor bgColor : UInt8) : (getCell c fgColor bgColor).toUInt8 = c := by
  have hattribute : ∀ color : UInt16, (color <<< 8).toUInt8 = 0 := by
    intro color
    apply UInt8.toNat_inj.mp
    simp [Nat.shiftLeft_eq]
  rw [getCell, UInt16.toUInt8_or, UInt8.toUInt8_toUInt16, hattribute, UInt8.or_zero]

theorem Session.firstRow_opened {row : Nat} (hrow : Session.opened.FirstRow row) : row = 0 := by
  rcases hrow with htop | ⟨-, -, hprompt⟩
  · exact htop
  · change row + 22 ≤ 0 at hprompt
    omega

theorem shows_opened {t' : Terminal} {σ' : Sessions} (hrelated : Terminal.Related .input t σ)
    (hdisplayed : t.Displayed) (htracked : t.CursorTracked)
    (hs : σ.sessions σ.index = some .opened) (hrelated' : Terminal.Related .input t' σ')
    (hdisplayed' : t'.Displayed) (htracked' : t'.CursorTracked)
    (hs' : σ'.sessions σ'.index = some .opened) :
    (∀ y < 25, ∀ x < 80,
        (t.vga.memory (y * 80 + x)).toUInt8 = (t'.vga.memory (y * 80 + x)).toUInt8) ∧
      t.vga.cursorLocation = t'.vga.cursorLocation := by
  obtain ⟨row, hrow, hpage, hcursor⟩ := hrelated.shows hdisplayed htracked hs
  obtain ⟨row', hrow', hpage', hcursor'⟩ := hrelated'.shows hdisplayed' htracked' hs'
  obtain rfl := Session.firstRow_opened hrow
  obtain rfl := Session.firstRow_opened hrow'
  constructor
  · intro y hy x hx
    rw [hpage y hy x hx, hpage' y hy x hx, toUInt8_getCell, toUInt8_getCell]
  · omega

def clearOps : List TerminalOp := [.getInput 256, .beginOutput, .clear, .endOutput true]

theorem clearOps_opens (hs : σ.sessions σ.index = some s) :
    (applyAll clearOps σ).index = σ.index ∧
      (applyAll clearOps σ).sessions σ.index = some .opened := by
  have hbegun := Sessions.sessions_modify_self Session.beginOutput σ
  have hcleared : ((σ.modify Session.beginOutput).modify fun _ => .clear).sessions σ.index
      = some .clear := by
    refine (Sessions.sessions_modify_self (fun _ => .clear) (σ.modify Session.beginOutput)).trans ?_
    rw [hs] at hbegun
    exact congrArg (Option.map fun _ => Session.clear) hbegun
  refine ⟨rfl, ?_⟩
  refine (Sessions.sessions_modify_self (Session.endOutput true) _).trans ?_
  exact congrArg (Option.map (Session.endOutput true)) hcleared

/-- Enter on the line `clear`: the shown screen is as the boot left its first one, and the other
screens and the keyboard are not touched. -/
theorem clear_opens_again (vga : Vga) (hrun : (Kernel.boot vga).handleAll events = .ok k)
    (hpending : k.shell.readPending = false) (hctrl : k.keyboard.isCtrl = false)
    (hline : k.terminal.getInput 256 = some (str "clear" ++ [0])) (output : CommandOutput) :
    ∃ k', k.handle ⟨keyEnter, output⟩ = .ok k' ∧
      k'.terminal.terminalIndex = k.terminal.terminalIndex ∧
      k'.terminal.currentScreen.Matches (Kernel.boot vga).terminal.currentScreen ∧
      (∀ y < 25, ∀ x < 80, (k'.terminal.vga.memory (y * 80 + x)).toUInt8
        = ((Kernel.boot vga).terminal.vga.memory (y * 80 + x)).toUInt8) ∧
      k'.terminal.vga.cursorLocation = (Kernel.boot vga).terminal.vga.cursorLocation ∧
      (∀ i ≠ k.terminal.terminalIndex, k'.terminal.screens i = k.terminal.screens i) ∧
      k'.shell = { k.shell with lastCommand := some 1 } ∧ k'.keyboard = k.keyboard := by
  obtain ⟨a, harun, hrepresents⟩ := handleAll_represented vga hrun
  have hcommands := (handleAll_prompted harun).commands
  rw [← hrepresents.shell] at hcommands
  obtain ⟨s, hs, -⟩ := hrepresents.related.current
  have hhandle : k.handle ⟨keyEnter, output⟩
      = (⟨clearOps, { k.shell with lastCommand := some 1 }, k.keyboard, [str "clear" ++ [0]],
          true⟩ : Reaction).perform k := by
    rw [Kernel.handle, handleScancode_eq, ofScancode_enter _ _ hctrl, hline, ofEnter]
    simp only [ofLine_clear _ _ hcommands hpending]
    rfl
  obtain ⟨hindex, hopened⟩ := clearOps_opens hs
  have hafter : Phase.input.after clearOps = some .input := rfl
  have hrelated := Terminal.runAll_related hrepresents.related hafter
  have honShown : ∀ op ∈ clearOps, Terminal.OnShown op := by simp [clearOps, Terminal.OnShown]
  have hframe := Terminal.runAll_frame hrepresents.related hafter honShown
  rw [← hindex] at hopened
  have hok := hhandle.trans (perform_ok rfl)
  obtain ⟨-, htracked, hdisplayed⟩ := handle_settled k _ _ (handleAll_settled vga hrun) hok
  obtain ⟨hbooted, hbootDisplayed, hbootTracked⟩ := Terminal.init_related vga
  have hbootOpened : Sessions.init.sessions Sessions.init.index = some .opened := rfl
  obtain ⟨hpage, hcursor⟩ := shows_opened hrelated (hdisplayed hpending) htracked hopened hbooted
    hbootDisplayed hbootTracked hbootOpened
  have hholds := hrelated.stored.holds _ _ hopened
  have hholds' := hbooted.stored.holds _ _ hbootOpened
  rw [Terminal.currentScreen_eq hrelated.index] at hholds
  rw [Terminal.currentScreen_eq hbooted.index] at hholds'
  exact ⟨_, hok, hframe.index, hholds.matches_opened hholds', hpage, hcursor, hframe.others, rfl,
    rfl⟩

/-- `clear` typed on the second screen. -/
def clearOnSecondScreen : List KeyEvent :=
  keys [0x1D, 0x03, 0x9D, 0x2E, 0x26, 0x12, 0x1E, 0x13]

theorem clear_opens_again_second :
    ∃ k k', (Kernel.boot ⟨fun _ => 0, 0, fun _ => 0, fun _ => 0⟩).handleAll clearOnSecondScreen
        = .ok k ∧ k.handle ⟨keyEnter, ⟨[], [], true, true⟩⟩ = .ok k' ∧
      k'.terminal.currentScreen.Matches
        (Kernel.boot ⟨fun _ => 0, 0, fun _ => 0, fun _ => 0⟩).terminal.currentScreen := by
  have heval : ((SessionKernel.boot.handleAll clearOnSecondScreen).toOption.map fun a =>
      (a.shell.readPending, a.keyboard.isCtrl, a.line))
        = some (false, false, some (str "clear" ++ [0])) := by decide +kernel
  obtain ⟨a, harun, hvalues⟩ := exists_ok_of_toOption_map heval
  simp only [Prod.mk.injEq] at hvalues
  obtain ⟨hpending, hctrl, hline⟩ := hvalues
  obtain ⟨k, hrun, hrepresents⟩ :=
    handleAll_represents ⟨fun _ => 0, 0, fun _ => 0, fun _ => 0⟩ harun
  rw [← hrepresents.shell] at hpending
  rw [← hrepresents.keyboard] at hctrl
  rw [← hrepresents.line] at hline
  obtain ⟨k', hhandle, -, hmatches, -⟩ :=
    clear_opens_again _ hrun hpending hctrl hline ⟨[], [], true, true⟩
  exact ⟨k, k', hrun, hhandle, hmatches⟩

end KernelFromScratch
