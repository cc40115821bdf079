import KernelFromScratch.Proof.Prompt

/-!
# Screens are isolated

Nothing that happens while other screens are shown changes a screen, and what is visible is a
function of the shown screen whenever a scancode may leave it. So coming back restores everything.
-/

namespace KernelFromScratch

open Terminal TerminalOp Reaction

variable {k k' : Kernel} {t : Terminal} {σ : Sessions} {i : ScreenIndex} {screen : Screen}
  {events : List KeyEvent}

/-- The scancode types, edits, scrolls or submits on the shown screen. -/
def Keyboard.actsOnScreen (scancode : UInt8) (keyboard : Keyboard) : Bool :=
  (keyboard.modifier scancode).isNone && decide (scancode.toNat < scancodeMapSize) &&
    !keyboard.isCtrl && (keyboard.character scancode != 0 ||
      [keyEnter, keyBackspace, keyDelete, keyUp, keyDown, keyLeft, keyRight].contains scancode)

/-- The scancode leaves screen `i` alone if that is the shown one: it only switches the screen, or
does nothing to the terminal. -/
def LeavesAlone (i : ScreenIndex) (k : Kernel) (event : KeyEvent) : Prop :=
  k.terminal.terminalIndex = i → k.keyboard.actsOnScreen event.scancode = false

/-- Both show the same characters, in the same colors, with the cursor at the same place. -/
structure SameVideo (t t' : Terminal) : Prop where
  memory : ∀ y < vgaHeight, ∀ x < vgaWidth,
    t'.vga.memory (y * vgaWidth + x) = t.vga.memory (y * vgaWidth + x)
  cursor : t'.vga.cursorLocation = t.vga.cursorLocation

/-! ### Scancodes that do not act on the screen -/

theorem ofScancode_leavesAlone {output : CommandOutput} {shell : Shell} {keyboard : Keyboard}
    {scancode : UInt8} {line : Option (List UInt8)}
    (halone : keyboard.actsOnScreen scancode = false) :
    (∃ keyboard', ofScancode output shell keyboard scancode line = quiet shell keyboard') ∨
      ∃ index, index.toNat < terminalScreenCount ∧
        ofScancode output shell keyboard scancode line
          = ofOp shell keyboard (.switchScreen index) := by
  unfold ofScancode
  cases hmodifier : keyboard.modifier scancode with
  | some keyboard' => exact Or.inl ⟨keyboard', rfl⟩
  | none =>
      simp only
      split_ifs with hrange hctrl hdigit hchar
      · exact Or.inl ⟨keyboard, rfl⟩
      · exact Or.inr ⟨_, screenOfDigit_lt _, rfl⟩
      · exact Or.inl ⟨keyboard, rfl⟩
      · simp [Keyboard.actsOnScreen, hmodifier, Nat.not_le.mp hrange, hctrl, hchar] at halone
      · left
        simp only [Keyboard.actsOnScreen, hmodifier, Nat.not_le.mp hrange, hctrl] at halone
        simp at halone
        obtain ⟨-, henter, hbackspace, hdelete, hup, hdown, hleft, hright⟩ := halone
        rw [ofSpecial, if_neg henter, if_neg hbackspace, if_neg hdelete, if_neg hup, if_neg hdown,
          if_neg hleft, if_neg hright]
        split_ifs
        · exact ⟨_, rfl⟩
        · exact ⟨_, rfl⟩

/-! ### What happens on the other screens -/

theorem switchScreen_screens (hrelated : Related .input t σ)
    (hinitialized : (t.screens i).initialized = true) (index : UInt8) :
    (t.switchScreen index).screens i = t.screens i := by
  by_cases hlt : index.toNat < terminalScreenCount
  · set chosen : Terminal := { t with terminalIndex := ⟨index.toNat, hlt⟩ } with hchosen
    have hswitch : t.switchScreen index
        = (if chosen.currentScreen.initialized then chosen
            else chosen.setUpScreen).putScreen.showCursor := Terminal.switchScreen_eq t hlt
    rw [hswitch, screens_showCursor, screens_putScreen]
    by_cases hopened : chosen.currentScreen.initialized = true
    · rw [if_pos hopened]
    · rw [if_neg hopened]
      have hsafe : chosen.Safe := hrelated.safe
      refine (setUpScreen_setUp hsafe).frame.others i ?_
      rintro rfl
      exact hopened hinitialized
  · rw [Terminal.switchScreen, dif_neg hlt]

/-- A scancode handled while another screen is shown changes nothing on screen `i`, and comes back
to it only while no read is pending. -/
theorem Reaction.Shaped.screens {output : CommandOutput} {shell : Shell}
    {line : Option (List UInt8)} {reaction : Reaction}
    (hshaped : Shaped output shell line reaction) (hrelated : Related .input t σ)
    (hinitialized : (t.screens i).initialized = true) (hi : t.terminalIndex ≠ i) :
    (runAll reaction.ops t).screens i = t.screens i ∧
      ((runAll reaction.ops t).terminalIndex = i → reaction.shell.readPending = false) := by
  have hframe : (∀ op ∈ reaction.ops, OnShown op) →
      (runAll reaction.ops t).screens i = t.screens i ∧
        ((runAll reaction.ops t).terminalIndex = i → reaction.shell.readPending = false) := by
    intro honShown
    have hframe := runAll_frame hrelated hshaped.after honShown
    exact ⟨hframe.others i hi.symm, fun h => absurd (hframe.index.symm.trans h) hi⟩
  cases hshaped with
  | switchScreen keyboard hindex hpending =>
      exact ⟨switchScreen_screens hrelated hinitialized _, fun _ => hpending⟩
  | quiet keyboard => exact hframe fun op hop => by cases hop
  | edit keyboard htyped => exact hframe (by simp [ofOp, OnShown])
  | enter keyboard =>
      apply hframe
      cases line with
      | none => simp [ofEnter, ofOp, OnShown]
      | some command =>
          obtain ⟨body, hshape⟩ := ofLine_shape output shell keyboard command
          intro op hop
          rcases List.mem_cons.mp hop with rfl | hmem
          · trivial
          · exact hshape.onShown op hmem

/-- Between two scancodes screen `i` is as it was, and if it is the shown one no read is pending. -/
structure Kept (i : ScreenIndex) (screen : Screen) (k : Kernel) : Prop where
  settled : Settled k
  screen : k.terminal.screens i = screen
  idle : k.terminal.terminalIndex = i → k.shell.readPending = false

theorem handle_kept (hinitialized : screen.initialized = true) (k : Kernel) (event : KeyEvent)
    (k' : Kernel) (hkept : Kept i screen k) (halone : LeavesAlone i k event)
    (hhandle : k.handle event = .ok k') : Kept i screen k' := by
  have hsettled' := handle_settled k event k' hkept.settled hhandle
  obtain ⟨⟨⟨a, hrepresents⟩, -, -⟩, hscreen, hidle⟩ := hkept
  have hrelated := hrepresents.related
  rw [Kernel.handle, handleScancode_eq] at hhandle
  have hshaped := ofScancode_shaped event.output k.shell k.keyboard event.scancode
    (k.terminal.getInput 256)
  obtain ⟨-, hk'⟩ := perform_ok_iff.mp hhandle
  by_cases hshown : k.terminal.terminalIndex = i
  · -- the scancode can only leave the screen
    rcases ofScancode_leavesAlone (halone hshown) with ⟨keyboard, hquiet⟩ | ⟨index, -, hswitch⟩
    · rw [hquiet] at hk'
      exact ⟨hsettled', by rw [hk']; exact hscreen, fun _ => by rw [hk']; exact hidle hshown⟩
    · rw [hswitch] at hk'
      have hkeep := switchScreen_screens hrelated (by rw [hscreen]; exact hinitialized) index
      refine ⟨hsettled', ?_, fun _ => by rw [hk']; exact hidle hshown⟩
      rw [hk']
      exact hkeep.trans hscreen
  · have hopened : (k.terminal.screens i).initialized = true := by rwa [hscreen]
    obtain ⟨hkeep, hidle'⟩ := hshaped.screens hrelated hopened hshown
    rw [hk']
    rw [hk'] at hsettled'
    exact ⟨hsettled', hkeep.trans hscreen, hidle'⟩

/-- The page and the hardware cursor are functions of the shown screen. -/
theorem sameVideo_of_currentScreen {t t' : Terminal} (hdisplayed : t.Displayed)
    (hdisplayed' : t'.Displayed) (htracked : t.CursorTracked) (htracked' : t'.CursorTracked)
    (hcurrent : t'.currentScreen = t.currentScreen) : SameVideo t t' := by
  constructor
  · intro y hy x hx
    have hcell := hdisplayed y hy x hx
    have hcell' := hdisplayed' y hy x hx
    rw [hcurrent] at hcell'
    exact hcell'.trans hcell.symm
  · rw [CursorTracked] at htracked htracked'
    rw [hcurrent] at htracked'
    omega

/-- Screens are isolated, and coming back to a screen restores what is visible: in a run from a
reachable state in which no read is pending, that does nothing on the shown screen and ends where
that screen is shown again, the screen, the visible page and the hardware cursor are as before. -/
theorem screen_restored (vga : Vga) (history : List KeyEvent)
    (hreachable : (Kernel.boot vga).handleAll history = .ok k)
    (hidle : k.shell.readPending = false)
    (halone : Along (fun k event => k.handle event) (LeavesAlone k.terminal.terminalIndex) events k)
    (hrun : k.handleAll events = .ok k')
    (hback : k'.terminal.terminalIndex = k.terminal.terminalIndex) :
    k'.terminal.screens k.terminal.terminalIndex = k.terminal.screens k.terminal.terminalIndex ∧
      SameVideo k.terminal k'.terminal := by
  have hsettled := handleAll_settled vga hreachable
  obtain ⟨a, hrepresents⟩ := hsettled.represented
  have hinitialized : k.terminal.currentScreen.initialized = true := by
    obtain ⟨s, hs, -⟩ := hrepresents.related.current
    have hopened := hrepresents.related.initialized a.sessions.index
    rw [hs, currentScreen_eq hrepresents.related.index] at hopened
    exact hopened
  have hstart : Kept k.terminal.terminalIndex k.terminal.currentScreen k :=
    ⟨hsettled, rfl, fun _ => hidle⟩
  obtain ⟨hsettled', hscreen, hidle'⟩ :=
    foldlM_invariant_along (Kept k.terminal.terminalIndex k.terminal.currentScreen)
      (handle_kept hinitialized) halone hstart hrun
  have hcurrent : k'.terminal.currentScreen = k.terminal.currentScreen := by
    rw [currentScreen, hback]
    exact hscreen
  exact ⟨hscreen, sameVideo_of_currentScreen (hsettled.displayed hidle)
    (hsettled'.displayed (hidle' hback)) hsettled.tracked hsettled'.tracked hcurrent⟩

/-- Ctrl and `2` show the second screen, a letter is typed there, and Ctrl and `1` come back. -/
def secondScreenAndBack : List KeyEvent := keys [0x1D, 0x03, 0x9D, 0x1E, 0x1D, 0x02]

def ctrlHeld : Keyboard := { Keyboard.boot with isCtrl := true }

theorem handle_ctrlDigit (t : Terminal) (scancode index : UInt8)
    (hmodifier : ctrlHeld.modifier scancode = none) (hrange : scancode.toNat < scancodeMapSize)
    (hdigit : isdigit (ctrlHeld.character scancode) = true)
    (hindex : Keyboard.screenOfDigit (ctrlHeld.character scancode) = index) :
    (⟨t, Shell.zero.init, ctrlHeld, []⟩ : Kernel).handle ⟨scancode, ⟨[], [], true, true⟩⟩
      = .ok ⟨t.switchScreen index, Shell.zero.init, ctrlHeld, []⟩ := by
  have hswitch : (!Shell.zero.init.readPending && isdigit (ctrlHeld.character scancode)) = true := by
    rw [hdigit]
    rfl
  rw [Kernel.handle, Kernel.handleScancode, hmodifier]
  simp only [if_neg (Nat.not_le.mpr hrange), hswitch, hindex]
  rfl

theorem secondScreenAndBack_run (t : Terminal)
    (hother : (t.switchScreen 1).terminalIndex ≠ t.terminalIndex) :
    (⟨t, Shell.zero.init, .boot, []⟩ : Kernel).handleAll secondScreenAndBack
        = .ok ⟨((t.switchScreen 1).putcInput (chr 'a')).switchScreen 0, Shell.zero.init,
          ctrlHeld, []⟩ ∧
      Along (fun k event => k.handle event) (LeavesAlone t.terminalIndex) secondScreenAndBack
        ⟨t, Shell.zero.init, .boot, []⟩ := by
  have hpress : ∀ r : Terminal, (⟨r, Shell.zero.init, .boot, []⟩ : Kernel).handle ⟨0x1D, ⟨[], [], true, true⟩⟩
      = .ok ⟨r, Shell.zero.init, ctrlHeld, []⟩ := fun _ => rfl
  have hsecond := handle_ctrlDigit t 0x03 1 rfl (by decide) (by decide) (by decide)
  have hrelease : (⟨t.switchScreen 1, Shell.zero.init, ctrlHeld, []⟩ : Kernel).handle
      ⟨0x9D, ⟨[], [], true, true⟩⟩ = .ok ⟨t.switchScreen 1, Shell.zero.init, .boot, []⟩ := rfl
  have htype : ∀ r : Terminal, (⟨r, Shell.zero.init, .boot, []⟩ : Kernel).handle ⟨0x1E, ⟨[], [], true, true⟩⟩
      = .ok ⟨r.putcInput (chr 'a'), Shell.zero.init, .boot, []⟩ := fun _ => rfl
  have hfirst := handle_ctrlDigit ((t.switchScreen 1).putcInput (chr 'a')) 0x02 0 rfl (by decide)
    (by decide) (by decide)
  constructor
  · exact foldlM_cons_of_ok (hpress t) (foldlM_cons_of_ok hsecond (foldlM_cons_of_ok hrelease
      (foldlM_cons_of_ok (htype _) (foldlM_cons_of_ok (hpress _)
        (foldlM_cons_of_ok hfirst rfl)))))
  · refine along_cons (fun _ => rfl) (hpress t) ?_
    refine along_cons (fun _ => rfl) hsecond ?_
    refine along_cons (fun _ => rfl) hrelease ?_
    refine along_cons (fun h => absurd h hother) (htype _) ?_
    refine along_cons (fun _ => rfl) (hpress _) ?_
    refine along_cons (fun _ => rfl) hfirst ?_
    trivial

theorem screen_restored_typing :
    let t := (Terminal.boot ⟨fun _ => 0, 0, fun _ => 0, fun _ => 0⟩).init
    let t' := ((t.switchScreen 1).putcInput (chr 'a')).switchScreen 0
    t'.screens t.terminalIndex = t.screens t.terminalIndex ∧ SameVideo t t' := by
  intro t t'
  have hrelated := (init_related ⟨fun _ => 0, 0, fun _ => 0, fun _ => 0⟩).1
  have hsecond := (switchScreen_related hrelated 1).1
  have htyped : Ran (.edit (.putcInput (chr 'a'))) .input .input _ _ :=
    edit_ran hsecond (by decide)
  have hfirst := (switchScreen_related htyped.related 0).1
  have hother : (t.switchScreen 1).terminalIndex ≠ t.terminalIndex := by
    rw [hsecond.index, hrelated.index]
    decide
  obtain ⟨hrun, halone⟩ := secondScreenAndBack_run t hother
  exact screen_restored _ [] rfl rfl halone hrun (hfirst.index.trans hrelated.index.symm)

end KernelFromScratch
