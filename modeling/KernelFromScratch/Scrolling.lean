import KernelFromScratch.ScancodeRuns

/-!
# Scrolling changes nothing

Up and Down scancodes inserted anywhere in a sequence of scancodes change only what is visible: the
lines submitted, the shell, the keyboard and the contents of the screens are the same.
-/

namespace KernelFromScratch

open Terminal TerminalOp Reaction

variable {k k' : Kernel} {a : SessionKernel} {t t' : Terminal} {s : Session} {σ : Sessions}
  {event : KeyEvent} {events events' : List KeyEvent}

/-- The second sequence is the first one with Up and Down scancodes inserted, as the mouse wheel
does. -/
inductive ScrollsInserted : List KeyEvent → List KeyEvent → Prop where
  | nil : ScrollsInserted [] []
  | key (event : KeyEvent) {events events' : List KeyEvent}
      (hinserted : ScrollsInserted events events') :
      ScrollsInserted (event :: events) (event :: events')
  | scroll (event : KeyEvent) (hscroll : event.scancode = keyUp ∨ event.scancode = keyDown)
      {events events' : List KeyEvent} (hinserted : ScrollsInserted events events') :
      ScrollsInserted events (event :: events')

/-- The two screens differ at most in what is visible. -/
structure SameScreen (screen screen' : Screen) : Prop where
  data : ∀ y < terminalHeight, ∀ x < terminalWidth, screen.data y x = screen'.data y x
  cursorX : screen.cursorX = screen'.cursorX
  cursorY : screen.cursorY = screen'.cursorY
  inputSize : screen.inputSize = screen'.inputSize
  inputCursor : screen.inputCursor = screen'.inputCursor
  fgColor : screen.fgColor = screen'.fgColor
  bgColor : screen.bgColor = screen'.bgColor
  initialized : screen.initialized = screen'.initialized

/-- The two kernels differ at most in the scroll positions and the video state. -/
structure SameButScroll (k k' : Kernel) : Prop where
  executed : k.executed = k'.executed
  shell : k.shell = k'.shell
  keyboard : k.keyboard = k'.keyboard
  index : k.terminal.terminalIndex = k'.terminal.terminalIndex
  screens : ∀ i, SameScreen (k.terminal.screens i) (k'.terminal.screens i)

/-! ### Screens that hold the same session -/

theorem SameScreen.of_eq {screen screen' : Screen} (heq : screen = screen') :
    SameScreen screen screen' := by
  subst heq
  exact ⟨fun _ _ _ _ => rfl, rfl, rfl, rfl, rfl, rfl, rfl, rfl⟩

theorem sameScreen_of_window {screen screen' : Screen} {top pos : Nat} {cells : Nat → UInt8}
    (hwindow : screen.Window top cells pos) (hwindow' : screen'.Window top cells pos)
    (hsize : screen.inputSize = screen'.inputSize)
    (hcursor : screen.inputCursor = screen'.inputCursor)
    (hfg : screen.fgColor = screen'.fgColor) (hbg : screen.bgColor = screen'.bgColor)
    (hinitialized : screen.initialized = screen'.initialized) : SameScreen screen screen' := by
  have hcell : ∀ c, screen.cell c = screen'.cell c := by
    intro c
    rw [Screen.cell, Screen.cell, hfg, hbg]
  refine ⟨?_, ?_, ?_, hsize, hcursor, hfg, hbg, hinitialized⟩
  · intro y hy x hx
    calc screen.data y x = screen.cell (cells ((top + y) * 80 + x)) := hwindow.data y hy x hx
      _ = screen'.cell (cells ((top + y) * 80 + x)) := hcell _
      _ = screen'.data y x := (hwindow'.data y hy x hx).symm
  · apply UInt16.toNat_inj.mp
    rw [hwindow.cursorX, hwindow'.cursorX]
  · have hy := hwindow.cursorY
    have hy' := hwindow'.cursorY
    apply UInt16.toNat_inj.mp
    omega

theorem Screen.Holds.same {screen screen' : Screen} (hholds : screen.Holds s)
    (hholds' : screen'.Holds s) (hfg : screen.fgColor = screen'.fgColor)
    (hbg : screen.bgColor = screen'.bgColor)
    (hinitialized : screen.initialized = screen'.initialized) : SameScreen screen screen' := by
  refine sameScreen_of_window hholds.window hholds'.window ?_ ?_ hfg hbg hinitialized
  · apply Int8.toInt_inj.mp
    rw [hholds.size, hholds'.size]
  · apply Int8.toInt_inj.mp
    rw [hholds.cursor, hholds'.cursor]

/-- Between two scancodes the sessions determine the screens. -/
theorem Terminal.Stored.same {sessions : ScreenIndex → Option Session} (hstored : Stored t sessions)
    (hstored' : Stored t' sessions) (i : ScreenIndex) :
    SameScreen (t.screens i) (t'.screens i) := by
  have hfg := (hstored.fgColor i).trans (hstored'.fgColor i).symm
  have hbg := (hstored.bgColor i).trans (hstored'.bgColor i).symm
  have hinitialized := (hstored.initialized i).trans (hstored'.initialized i).symm
  cases hs : sessions i with
  | none => exact .of_eq ((hstored.untouched i hs).trans (hstored'.untouched i hs).symm)
  | some s => exact (hstored.holds i s hs).same (hstored'.holds i s hs) hfg hbg hinitialized

theorem Represents.same (hrepresents : Represents .input k a)
    (hrepresents' : Represents .input k' a) : SameButScroll k k' := by
  obtain ⟨hrelated, hshell, hkeyboard, hexecuted⟩ := hrepresents
  obtain ⟨hrelated', hshell', hkeyboard', hexecuted'⟩ := hrepresents'
  exact ⟨hexecuted.trans hexecuted'.symm, hshell.trans hshell'.symm,
    hkeyboard.trans hkeyboard'.symm, hrelated.index.trans hrelated'.index.symm,
    hrelated.stored.same hrelated'.stored⟩

/-! ### A command that does not return -/

theorem runAll_writes {body : List TerminalOp} (hrelated : Related .output t σ)
    (hbody : ∀ op ∈ body, Writes op) : Keeps t (runAll body t) := by
  induction body generalizing t σ with
  | nil => exact .refl t
  | cons op body ih =>
      have hop := hbody op List.mem_cons_self
      have hrest : ∀ op' ∈ body, Writes op' := fun op' hop' => hbody op' (List.mem_cons_of_mem op hop')
      obtain ⟨s, -, hprinting⟩ := hrelated.current
      cases op with
      | putcOutput c =>
          exact (putc_printed hprinting c).1.keeps.trans
            (ih (putcOutput_ran hrelated c).related hrest)
      | putsOutput message =>
          exact (putcAll_printed hprinting _).keeps.trans
            (ih (putsOutput_ran hrelated message).related hrest)
      | _ => cases hop

/-- In the middle of a command the input size is `-1` and the input cursor the one before it. -/
theorem stopped_input {body : List TerminalOp} (hrelated : Related .input t σ)
    (hbody : ∀ op ∈ body, Writes op) :
    let r := runAll (.getInput 256 :: .beginOutput :: body) t
    r.currentScreen.inputSize = -1 ∧
      r.currentScreen.inputCursor = t.currentScreen.inputCursor := by
  intro r
  obtain ⟨s, -, hediting⟩ := hrelated.current
  have hread := getInput_ran hrelated 256
  have haccessed := getInputAccess_accessed hediting 256
  obtain ⟨s', -, hediting'⟩ := hread.related.current
  have hbegun := (beginOutput_begun hediting').1
  have hkeeps : Keeps (t.getInputAccess 256).beginOutput r :=
    runAll_writes (beginOutput_ran hread.related).related hbody
  exact ⟨hkeeps.inputSize.trans hbegun.inputSize,
    hkeeps.inputCursor.trans (hbegun.inputCursor.trans
      (congrArg Screen.inputCursor haccessed.currentScreen))⟩

theorem Terminal.Related.same_output (hrelated : Related .output t σ) (hrelated' : Related .output t' σ)
    (hsize : t.currentScreen.inputSize = t'.currentScreen.inputSize)
    (hcursor : t.currentScreen.inputCursor = t'.currentScreen.inputCursor) (i : ScreenIndex) :
    SameScreen (t.screens i) (t'.screens i) := by
  have hfg := (hrelated.fgColor i).trans (hrelated'.fgColor i).symm
  have hbg := (hrelated.bgColor i).trans (hrelated'.bgColor i).symm
  have hinitialized := (hrelated.initialized i).trans (hrelated'.initialized i).symm
  by_cases hi : i = σ.index
  · subst hi
    obtain ⟨s, hs, hprinting⟩ := hrelated.current
    obtain ⟨s', hs', hprinting'⟩ := hrelated'.current
    rw [hs, Option.some_inj] at hs'
    subst hs'
    rw [currentScreen_eq hrelated.index] at hfg hbg hinitialized ⊢
    rw [currentScreen_eq hrelated'.index] at hfg hbg hinitialized ⊢
    exact sameScreen_of_window hprinting.view.window hprinting'.view.window hsize hcursor hfg hbg
      hinitialized
  · cases hs : σ.sessions i with
    | none => exact .of_eq ((hrelated.untouched i hs).trans (hrelated'.untouched i hs).symm)
    | some s =>
        exact (hrelated.others i hi s hs).same (hrelated'.others i hi s hs) hfg hbg hinitialized

/-! ### One scancode in both runs -/

/-- The two kernels hold the same sessions. -/
def Together (k k' : Kernel) : Prop := ∃ a, Represents .input k a ∧ Represents .input k' a

theorem Reaction.Shaped.stopped {output : CommandOutput} {shell : Shell}
    {line : Option (List UInt8)} {reaction : Reaction}
    (hshaped : Shaped output shell line reaction) (hreturns : reaction.returns = false) :
    ∃ body, (∀ op ∈ body, Writes op) ∧ reaction.ops = .getInput 256 :: .beginOutput :: body := by
  cases hshaped with
  | quiet keyboard => cases hreturns
  | switchScreen keyboard hindex hpending => cases hreturns
  | edit keyboard htyped => cases hreturns
  | enter keyboard =>
      cases line with
      | none => cases hreturns
      | some command =>
          obtain ⟨body, hwrites, hops⟩ := ofLine_stopped hreturns
          exact ⟨body, hwrites, congrArg (TerminalOp.getInput 256 :: ·) hops⟩

theorem handle_together (hrepresents : Represents .input k a)
    (hrepresents' : Represents .input k' a) (event : KeyEvent) :
    Both Together SameButScroll (k.handle event) (k'.handle event) := by
  have hshaped := ofScancode_shaped event.output a.shell a.keyboard event.scancode a.line
  have hk : k.handle event = _ := handle_eq_reaction hrepresents event
  have hk' : k'.handle event = _ := handle_eq_reaction hrepresents' event
  set reaction := ofScancode event.output a.shell a.keyboard event.scancode a.line
  have hrelated := runAll_related hrepresents.related hshaped.after
  have hrelated' := runAll_related hrepresents'.related hshaped.after
  rw [hk, hk']
  rw [endPhase] at hrelated hrelated'
  cases hreturns : reaction.returns with
  | true =>
      rw [hreturns] at hrelated hrelated'
      rw [perform_ok hreturns, perform_ok hreturns, hrepresents.executed, hrepresents'.executed]
      exact .ok ⟨⟨applyAll reaction.ops a.sessions, reaction.shell, reaction.keyboard,
        reaction.submitted ++ a.executed⟩, ⟨hrelated, rfl, rfl, rfl⟩, ⟨hrelated', rfl, rfl, rfl⟩⟩
  | false =>
      rw [hreturns] at hrelated hrelated'
      rw [perform_error hreturns, perform_error hreturns, hrepresents.executed,
        hrepresents'.executed]
      obtain ⟨body, hwrites, hops⟩ := hshaped.stopped hreturns
      have hsame := hrepresents.same hrepresents'
      have hcurrent : SameScreen k.terminal.currentScreen k'.terminal.currentScreen := by
        rw [currentScreen, currentScreen, ← hsame.index]
        exact hsame.screens _
      have hinput := stopped_input hrepresents.related hwrites
      have hinput' := stopped_input hrepresents'.related hwrites
      rw [← hops] at hinput hinput'
      refine .error ⟨rfl, rfl, rfl, hrelated.index.trans hrelated'.index.symm, ?_⟩
      exact hrelated.same_output hrelated' (hinput.1.trans hinput'.1.symm)
        (hinput.2.trans (hcurrent.inputCursor.trans hinput'.2.symm))

/-! ### Up and Down -/

/-- Scrolling leaves the session: it is settled already. -/
theorem modify_settled (hrelated : Related .input t σ) :
    σ.modify (Session.edit id) = σ := by
  obtain ⟨s, hs, hediting⟩ := hrelated.current
  have hfits := hediting.fits
  have hpos := congrArg Page.pos hediting.shown_eq
  simp only at hpos
  have hsettled : s.edit id = s := by
    have htop : settledTop s.top s.shown.pos = s.top := settledTop_of_lt (by omega)
    calc s.edit id = { s with top := settledTop s.top s.shown.pos } := rfl
      _ = s := by rw [htop]
  have hsessions : (σ.modify (Session.edit id)).sessions = σ.sessions := by
    funext i
    by_cases hi : i = σ.index
    · rw [hi, Sessions.sessions_modify_self, hs, Option.map_some, hsettled]
    · rw [Sessions.sessions_modify_of_ne _ hi]
  calc σ.modify (Session.edit id) = ⟨(σ.modify (Session.edit id)).sessions, σ.index⟩ := rfl
    _ = σ := by rw [hsessions]

def arrowKey : TerminalCursorDirection → UInt8
  | .up => keyUp
  | .down => keyDown
  | .left => keyLeft
  | .right => keyRight

/-- An arrow key moves, whatever the layout and the shift keys; with Ctrl down it does nothing. -/
theorem ofScancode_arrowKey (output : CommandOutput) (shell : Shell) (keyboard : Keyboard)
    (direction : TerminalCursorDirection) (line : Option (List UInt8)) :
    ofScancode output shell keyboard (arrowKey direction) line
      = if keyboard.isCtrl then quiet shell keyboard
        else ofOp shell keyboard (.edit (.move direction)) := by
  have hmodifier : keyboard.modifier (arrowKey direction) = none := by
    cases direction <;> rfl
  have hcharacter : keyboard.character (arrowKey direction) = 0 := by
    obtain ⟨isLock, isCtrl, isLeftShift, isRightShift, currentLayout⟩ := keyboard
    unfold Keyboard.character
    cases direction <;> cases currentLayout <;> simp only <;> split_ifs <;> rfl
  have hrange : ¬ scancodeMapSize ≤ (arrowKey direction).toNat := by
    cases direction <;> decide
  have hspecial : ofSpecial output shell keyboard (arrowKey direction) line
      = ofOp shell keyboard (.edit (.move direction)) := by
    cases direction <;> rfl
  rw [ofScancode, hmodifier]
  simp only [if_neg hrange, hcharacter]
  by_cases hctrl : keyboard.isCtrl
  · have hdigit : (!shell.readPending && isdigit 0) = false := by
      rw [Bool.and_eq_false_iff]
      exact Or.inr rfl
    rw [if_pos hctrl, if_pos hctrl, hdigit]
    rfl
  · rw [if_neg hctrl, if_neg hctrl]
    exact hspecial

theorem ofScancode_scroll (output : CommandOutput) (shell : Shell) (keyboard : Keyboard)
    (line : Option (List UInt8)) {scancode : UInt8}
    (hscroll : scancode = keyUp ∨ scancode = keyDown) :
    ofScancode output shell keyboard scancode line = quiet shell keyboard ∨
      ∃ direction, (direction = .up ∨ direction = .down) ∧
        ofScancode output shell keyboard scancode line
          = ofOp shell keyboard (.edit (.move direction)) := by
  have harrow : ∃ direction, (direction = .up ∨ direction = .down) ∧
      scancode = arrowKey direction := by
    rcases hscroll with rfl | rfl
    · exact ⟨.up, Or.inl rfl, rfl⟩
    · exact ⟨.down, Or.inr rfl, rfl⟩
  obtain ⟨direction, hdirection, rfl⟩ := harrow
  have hkey := ofScancode_arrowKey output shell keyboard direction line
  by_cases hctrl : keyboard.isCtrl
  · rw [if_pos hctrl] at hkey
    exact Or.inl hkey
  · rw [if_neg hctrl] at hkey
    exact Or.inr ⟨direction, hdirection, hkey⟩

theorem handle_scroll (hrepresents : Represents .input k a)
    (hscroll : event.scancode = keyUp ∨ event.scancode = keyDown) : a.handle event = .ok a := by
  rw [SessionKernel.handle]
  rcases ofScancode_scroll event.output a.shell a.keyboard a.line hscroll with
    hquiet | ⟨direction, hdirection, hmove⟩
  · rw [hquiet]
    rfl
  · have hzipper : (EditOp.move direction).zipper = id := by
      rcases hdirection with rfl | rfl <;> rfl
    have hsessions : applyAll [.edit (.move direction)] a.sessions = a.sessions := by
      have hmodify := modify_settled hrepresents.related
      rw [← hzipper] at hmodify
      exact hmodify
    have hperform : a.perform (ofOp a.shell a.keyboard (.edit (.move direction)))
        = .ok ⟨applyAll [.edit (.move direction)] a.sessions, a.shell, a.keyboard, a.executed⟩ :=
      rfl
    rw [hmove, hperform, hsessions]

theorem handleAll_together (hinserted : ScrollsInserted events events')
    (hrepresents : Represents .input k a) (hrepresents' : Represents .input k' a) :
    Both Together SameButScroll (k.handleAll events) (k'.handleAll events') := by
  induction hinserted generalizing k k' a with
  | nil => exact .ok ⟨a, hrepresents, hrepresents'⟩
  | key event hinserted ih =>
      rename_i events events'
      have hstep := handle_together hrepresents hrepresents' event
      rw [Kernel.handleAll, Kernel.handleAll, List.foldlM_cons, List.foldlM_cons]
      revert hstep
      generalize k.handle event = first
      generalize k'.handle event = first'
      intro hstep
      cases hstep with
      | ok htogether =>
          obtain ⟨a', hnext, hnext'⟩ := htogether
          exact ih hnext hnext'
      | error hsame => exact .error hsame
  | scroll event hscroll hinserted ih =>
      rename_i events events'
      have hboth := handle_both k' a event hrepresents'
      rw [handle_scroll hrepresents' hscroll] at hboth
      obtain ⟨k'', hhandle, hnext'⟩ := hboth.ok_right
      rw [Kernel.handleAll, Kernel.handleAll, List.foldlM_cons, hhandle]
      exact ih hrepresents hnext'

/-- Scrolling cannot change what is typed, stored or executed: from any reachable state, a sequence
of scancodes and the same sequence with Up and Down scancodes inserted both return or both stop in a
command that does not, in states that differ at most in the scroll positions and the video state. -/
theorem scrolling_changes_nothing (vga : Vga) (history : List KeyEvent)
    (hreachable : (Kernel.boot vga).handleAll history = .ok k)
    (hinserted : ScrollsInserted events events') :
    Both SameButScroll SameButScroll (k.handleAll events) (k.handleAll events') := by
  obtain ⟨a, hrepresents⟩ := (handleAll_settled vga hreachable).represented
  refine (handleAll_together hinserted hrepresents hrepresents).mono ?_ (fun _ _ hsame => hsame)
  rintro k k' ⟨a', hrepresents, hrepresents'⟩
  exact hrepresents.same hrepresents'

theorem scrolling_changes_nothing_key :
    Both SameButScroll SameButScroll
      ((Kernel.boot ⟨fun _ => 0, 0, fun _ => 0, fun _ => 0⟩).handleAll (keys [0x1E]))
      ((Kernel.boot ⟨fun _ => 0, 0, fun _ => 0, fun _ => 0⟩).handleAll
        (keys [keyUp, 0x1E, keyDown])) :=
  scrolling_changes_nothing _ [] rfl
    (.scroll _ (Or.inl rfl) (.key _ (.scroll _ (Or.inr rfl) .nil)))

end KernelFromScratch
