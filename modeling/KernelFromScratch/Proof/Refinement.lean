import KernelFromScratch.Proof.Output

/-!
# The terminal refines the sessions

Every screen that has been shown holds its session, and every operation, in the order the shell
makes them, does to the terminal what it does to the sessions.
-/

namespace KernelFromScratch

variable {t r : Terminal} {s s' : Session} {σ : Sessions} {phase phase' : Phase}

/-- A screen in input mode holds its session. -/
structure Screen.Holds (screen : Screen) (s : Session) : Prop where
  window : screen.Window s.top (overwrite s.page.cells s.anchor s.line.line)
    (s.anchor + s.line.before.length)
  row : screen.cursorY.toNat < 35
  anchored : screen.Anchored s.top s.anchor
  size : screen.inputSize.toInt = s.line.size
  cursor : screen.inputCursor.toInt = s.line.before.length
  size_le : s.line.size ≤ 127
  fits : s.anchor + s.line.size < s.top * 80 + 2800
  noNewline : newline ∉ s.line.line

theorem Screen.Holds.inside {screen : Screen} (hholds : screen.Holds s) :
    Terminal.CursorInside screen := by
  have hx := hholds.window.cursorX
  have hy := hholds.window.cursorY
  exact ⟨by omega, hholds.row, hholds.anchored.scroll_le,
    hholds.anchored.scroll_le_row (by omega)⟩

namespace Terminal

theorem editingSession_iff : EditingSession t s ↔ t.currentScreen.Holds s ∧ t.Safe := by
  constructor
  · rintro ⟨⟨hwindow, hrow, hanchored, -, -, hsafe⟩, hsize, hcursor, hle, hfits, hnewline, -⟩
    exact ⟨⟨hwindow, hrow, hanchored, hsize, hcursor, hle, hfits, hnewline⟩, hsafe⟩
  · rintro ⟨⟨hwindow, hrow, hanchored, hsize, hcursor, hle, hfits, hnewline⟩, hsafe⟩
    have hbefore : s.line.before.length ≤ s.line.size := Nat.le_add_right _ _
    exact ⟨⟨hwindow, hrow, hanchored, Nat.le_add_right _ _, by omega, hsafe⟩, hsize, hcursor, hle,
      hfits, hnewline, fun q hq => page_blank s hq⟩

/-- What the shown screen holds. -/
def Current : Phase → Terminal → Session → Prop
  | .input => EditingSession
  | .output => Printing

theorem Current.safe (hcurrent : Current phase t s) : t.Safe := by
  cases phase with
  | input => exact hcurrent.view.safe
  | output => exact hcurrent.view.safe

structure Related (phase : Phase) (t : Terminal) (σ : Sessions) : Prop where
  index : t.terminalIndex = σ.index
  fgColor : ∀ i, (t.screens i).fgColor = screenColors i &&& 0x0F
  bgColor : ∀ i, (t.screens i).bgColor = screenColors i >>> 4
  initialized : ∀ i, (t.screens i).initialized = (σ.sessions i).isSome
  untouched : ∀ i, σ.sessions i = none → t.screens i = colorScreens (fun _ => .zero) i
  current : ∃ s, σ.sessions σ.index = some s ∧ Current phase t s
  others : ∀ i ≠ σ.index, ∀ s, σ.sessions i = some s → (t.screens i).Holds s

theorem Related.safe (hrelated : Related phase t σ) : t.Safe := by
  obtain ⟨s, -, hcurrent⟩ := hrelated.current
  exact hcurrent.safe

theorem Related.screen_of_ne (hrelated : Related phase t σ) (htouches : Touches t r)
    {i : ScreenIndex} (hi : i ≠ σ.index) : r.screens i = t.screens i :=
  htouches.frame.others i (by rw [hrelated.index]; exact hi)

theorem currentScreen_eq (hindex : t.terminalIndex = σ.index) :
    t.screens σ.index = t.currentScreen := by
  rw [currentScreen, hindex]

/-- An operation on the shown screen is an operation on its session. -/
theorem Related.modify (hrelated : Related phase t σ) {f : Session → Session}
    (htouches : Touches t r)
    (hcurrent : ∀ s, σ.sessions σ.index = some s → Current phase t s → Current phase' r (f s)) :
    Related phase' r (σ.modify f) := by
  obtain ⟨s, hs, hphase⟩ := hrelated.current
  have hindex : r.terminalIndex = σ.index := htouches.frame.index.trans hrelated.index
  have hshown : r.screens σ.index = r.currentScreen := currentScreen_eq hindex
  have hshown' : t.screens σ.index = t.currentScreen := currentScreen_eq hrelated.index
  refine ⟨hindex, ?_, ?_, ?_, ?_, ⟨f s, ?_, hcurrent s hs hphase⟩, ?_⟩
  · intro i
    by_cases hi : i = σ.index
    · rw [hi, hshown, htouches.fgColor, ← hshown', hrelated.fgColor]
    · rw [hrelated.screen_of_ne htouches hi, hrelated.fgColor]
  · intro i
    by_cases hi : i = σ.index
    · rw [hi, hshown, htouches.bgColor, ← hshown', hrelated.bgColor]
    · rw [hrelated.screen_of_ne htouches hi, hrelated.bgColor]
  · intro i
    by_cases hi : i = σ.index
    · rw [hi, hshown, htouches.initialized, ← hshown', hrelated.initialized,
        Sessions.sessions_modify_self, Option.isSome_map]
    · rw [hrelated.screen_of_ne htouches hi, hrelated.initialized,
        Sessions.sessions_modify_of_ne f hi]
  · intro i hnone
    by_cases hi : i = σ.index
    · rw [hi, Sessions.sessions_modify_self, hs] at hnone
      cases hnone
    · rw [Sessions.sessions_modify_of_ne f hi] at hnone
      rw [hrelated.screen_of_ne htouches hi]
      exact hrelated.untouched i hnone
  · exact (Sessions.sessions_modify_self f σ).trans (by rw [hs]; rfl)
  · intro i (hi : i ≠ σ.index) s' hs'
    rw [Sessions.sessions_modify_of_ne f hi] at hs'
    rw [hrelated.screen_of_ne htouches hi]
    exact hrelated.others i hi s' hs'

/-! ### Editing -/

theorem edit_edited (op : EditOp) (hop : op ≠ .putcInput newline)
    (hediting : EditingSession t s) :
    Edited t (op.run t) s.top s.page.cells s.anchor (op.zipper s.line) := by
  cases op with
  | putcInput input =>
      apply putcInput_edited hediting
      rintro rfl
      exact hop rfl
  | delInput count => exact delInput_edited hediting count
  | delInputForward count => exact delInputForward_edited hediting count
  | move direction =>
      cases direction with
      | up => exact move_up_edited hediting
      | down => exact move_down_edited hediting
      | left => exact move_left_edited hediting
      | right => exact move_right_edited hediting

theorem EditingSession.getInput (hediting : EditingSession t s) :
    t.getInput 256 = some (s.line.line ++ [0]) := by
  apply getInput_eq hediting
  have hle := hediting.size_le
  have hsize : int32 (256 : UInt32).toNat = 256 := int32_of_lt (by decide)
  omega

theorem Edited.session {f : Zipper UInt8 → Zipper UInt8}
    (hedited : Edited t r s.top s.page.cells s.anchor (f s.line)) :
    EditingSession r (s.edit f) := by
  have hediting := hedited.editing
  have hline := @page_append_line s.text _ hediting.noNewline
  have htop : (s.edit f).top = settledTop s.top (s.anchor + (f s.line).size) := by
    have hshown : (s.edit f).top
        = settledTop s.top (terminalFormat.layout (s.text ++ (f s.line).line)).pos := rfl
    rw [hshown, hline, Zipper.line_length]
    rfl
  rw [EditingSession, htop]
  exact hediting

/-! ### Switching the screen -/

theorem Related.of_screens (hrelated : Related phase t σ) (hscreens : r.screens = t.screens)
    (hindex : r.terminalIndex = t.terminalIndex) (hsafe : r.Safe) : Related phase r σ := by
  obtain ⟨hindex', hfg, hbg, hinitialized, huntouched, ⟨s, hs, hcurrent⟩, hothers⟩ := hrelated
  have hcurrentScreen : r.currentScreen = t.currentScreen := by
    rw [currentScreen, currentScreen, hscreens, hindex]
  refine ⟨hindex.trans hindex', by rwa [hscreens], by rwa [hscreens], by rwa [hscreens],
    by rwa [hscreens], ⟨s, hs, ?_⟩, by rwa [hscreens]⟩
  cases phase with
  | input =>
      have hholds := (editingSession_iff.mp hcurrent).1
      rw [← hcurrentScreen] at hholds
      exact editingSession_iff.mpr ⟨hholds, hsafe⟩
  | output =>
      obtain ⟨hview, hline, hmode⟩ := hcurrent
      rw [← hcurrentScreen] at hmode
      exact ⟨hview.of_currentScreen hcurrentScreen hsafe, hline, hmode⟩

/-- All the screens that have been shown are in input mode. -/
structure Stored (t : Terminal) (sessions : ScreenIndex → Option Session) : Prop where
  fgColor : ∀ i, (t.screens i).fgColor = screenColors i &&& 0x0F
  bgColor : ∀ i, (t.screens i).bgColor = screenColors i >>> 4
  initialized : ∀ i, (t.screens i).initialized = (sessions i).isSome
  untouched : ∀ i, sessions i = none → t.screens i = colorScreens (fun _ => .zero) i
  holds : ∀ i s, sessions i = some s → (t.screens i).Holds s
  safe : t.Safe

theorem Related.stored (hrelated : Related .input t σ) : Stored t σ.sessions := by
  obtain ⟨s, hs, hcurrent⟩ := hrelated.current
  refine ⟨hrelated.fgColor, hrelated.bgColor, hrelated.initialized, hrelated.untouched, ?_,
    hrelated.safe⟩
  intro i s' hs'
  by_cases hi : i = σ.index
  · subst hi
    rw [hs, Option.some_inj] at hs'
    subst hs'
    rw [currentScreen_eq hrelated.index]
    exact (editingSession_iff.mp hcurrent).1
  · exact hrelated.others i hi s' hs'

theorem Stored.related {sessions : ScreenIndex → Option Session} (hstored : Stored t sessions)
    (hshown : sessions t.terminalIndex = some s) : Related .input t ⟨sessions, t.terminalIndex⟩ :=
  ⟨rfl, hstored.fgColor, hstored.bgColor, hstored.initialized, hstored.untouched,
    ⟨s, hshown, editingSession_iff.mpr ⟨hstored.holds _ s hshown, hstored.safe⟩⟩,
    fun i _ s' hs' => hstored.holds i s' hs'⟩

/-- The set-up of the shown screen opens its session. -/
theorem Stored.setUp {sessions : ScreenIndex → Option Session} (hstored : Stored t sessions) :
    Related .input t.setUpScreen
      ⟨Function.update sessions t.terminalIndex (some .opened), t.terminalIndex⟩ := by
  obtain ⟨hediting, hframe, hfg, hbg, hinitialized, -⟩ := setUpScreen_setUp hstored.safe
  have hindex := hframe.index
  have hopened : Function.update sessions t.terminalIndex (some Session.opened) t.terminalIndex
      = some .opened := Function.update_self _ _ _
  have hkept : ∀ i ≠ t.terminalIndex,
      Function.update sessions t.terminalIndex (some Session.opened) i = sessions i :=
    fun i hi => Function.update_of_ne hi _ _
  have hself : t.setUpScreen.screens t.terminalIndex = t.setUpScreen.currentScreen := by
    rw [currentScreen, hindex]
  refine ⟨hindex, ?_, ?_, ?_, ?_, ⟨.opened, hopened, hediting⟩, ?_⟩
  · intro i
    by_cases hi : i = t.terminalIndex
    · rw [hi, hself, hfg]
      exact hstored.fgColor t.terminalIndex
    · rw [hframe.others i hi, hstored.fgColor]
  · intro i
    by_cases hi : i = t.terminalIndex
    · rw [hi, hself, hbg]
      exact hstored.bgColor t.terminalIndex
    · rw [hframe.others i hi, hstored.bgColor]
  · intro i
    by_cases hi : i = t.terminalIndex
    · rw [hi, hself, hinitialized]
      exact (congrArg Option.isSome hopened).symm
    · rw [hframe.others i hi, hstored.initialized]
      exact (congrArg Option.isSome (hkept i hi)).symm
  · intro i hnone
    by_cases hi : i = t.terminalIndex
    · rw [hi] at hnone
      exact absurd (hopened.symm.trans hnone) (by simp)
    · rw [hframe.others i hi]
      exact hstored.untouched i ((hkept i hi).symm.trans hnone)
  · intro i (hi : i ≠ t.terminalIndex) s hs
    rw [hframe.others i hi]
    exact hstored.holds i s ((hkept i hi).symm.trans hs)

theorem Related.redraw (hrelated : Related .input t σ) :
    Related .input t.putScreen.showCursor σ ∧ t.putScreen.showCursor.Displayed ∧
      t.putScreen.showCursor.CursorTracked := by
  obtain ⟨s, -, hcurrent⟩ := hrelated.current
  obtain ⟨hsafe, hshown⟩ :=
    redraw_spec hrelated.safe (editingSession_iff.mp hcurrent).1.inside
  refine ⟨hrelated.of_screens ?_ ?_ hsafe, hshown⟩
  · rw [screens_showCursor, screens_putScreen]
  · rw [terminalIndex_showCursor, terminalIndex_putScreen]

theorem switchScreen_eq (t : Terminal) {index : UInt8} (hlt : index.toNat < terminalScreenCount) :
    let chosen : Terminal := { t with terminalIndex := ⟨index.toNat, hlt⟩ }
    t.switchScreen index = (if chosen.currentScreen.initialized then chosen
      else chosen.setUpScreen).putScreen.showCursor := by
  intro chosen
  rw [switchScreen, dif_pos hlt]

theorem switchScreen_related (hrelated : Related .input t σ) (index : UInt8) :
    Related .input (t.switchScreen index) (σ.switchScreen index) ∧
      (index.toNat < 10 →
        (t.switchScreen index).Displayed ∧ (t.switchScreen index).CursorTracked) := by
  by_cases hlt : index.toNat < terminalScreenCount
  · set i : ScreenIndex := ⟨index.toNat, hlt⟩ with hi
    set chosen : Terminal := { t with terminalIndex := i } with hchosen
    have hstored : Stored chosen σ.sessions := by
      obtain ⟨hfg, hbg, hinitialized, huntouched, hholds, hsafe⟩ := hrelated.stored
      exact ⟨hfg, hbg, hinitialized, huntouched, hholds, hsafe⟩
    have hready : Related .input
        (if chosen.currentScreen.initialized then chosen else chosen.setUpScreen)
        ⟨Function.update σ.sessions i (some ((σ.sessions i).getD .opened)), i⟩ := by
      have hinitialized : chosen.currentScreen.initialized = (σ.sessions i).isSome :=
        hstored.initialized i
      cases hsession : σ.sessions i with
      | none =>
          rw [hsession] at hinitialized
          rw [hinitialized]
          exact hstored.setUp
      | some s =>
          rw [hsession] at hinitialized
          rw [hinitialized]
          have hsame : Function.update σ.sessions i (some ((some s).getD Session.opened))
              = σ.sessions := Function.update_eq_self_iff.mpr hsession.symm
          rw [hsame]
          exact hstored.related hsession
    have hswitch : t.switchScreen index
        = (if chosen.currentScreen.initialized then chosen
            else chosen.setUpScreen).putScreen.showCursor := switchScreen_eq t hlt
    have hsessions : σ.switchScreen index
        = ⟨Function.update σ.sessions i (some ((σ.sessions i).getD .opened)), i⟩ := by
      rw [Sessions.switchScreen, dif_pos hlt]
    obtain ⟨hdrawn, hdisplayed, htracked⟩ := hready.redraw
    rw [hswitch, hsessions]
    exact ⟨hdrawn, fun _ => ⟨hdisplayed, htracked⟩⟩
  · rw [switchScreen, dif_neg hlt, Sessions.switchScreen, dif_neg hlt]
    exact ⟨hrelated, fun h => absurd h hlt⟩

/-! ### Booting -/

theorem init_eq (t : Terminal) :
    t.init = ({ t with
      screens := colorScreens t.screens
      terminalIndex := 0 } : Terminal).setUpScreen.showCursor := by
  rw [init, vgaSetCursorVisibility_eq]

theorem init_related (vga : Vga) : Related .input (boot vga).init Sessions.init ∧
    (boot vga).init.Displayed ∧ (boot vga).init.CursorTracked := by
  set colored : Terminal :=
    { boot vga with screens := colorScreens (boot vga).screens, terminalIndex := 0 } with hcolored
  have hstored : Stored colored fun _ => none := by
    refine ⟨fun _ => rfl, fun _ => rfl, fun _ => rfl, fun _ _ => rfl, ?_, ?_⟩
    · intro i s hs
      cases hs
    · intro a ha
      cases ha
  have hrelated : Related .input colored.setUpScreen Sessions.init := hstored.setUp
  have hdisplayed := (setUpScreen_setUp hstored.safe).displayed
  obtain ⟨s, -, hcurrent⟩ := hrelated.current
  have hinside := (editingSession_iff.mp hcurrent).1.inside
  rw [init_eq, ← hcolored]
  exact ⟨hrelated.of_screens (screens_showCursor _) (terminalIndex_showCursor _) (safe_showCursor hrelated.safe hinside),
    displayed_showCursor.mpr hdisplayed, cursorTracked_showCursor hinside⟩

/-! ### Every operation -/

/-- The operation leaves the choice of the screen alone. -/
def OnShown : TerminalOp → Prop
  | .switchScreen _ => False
  | _ => True

/-- The outcome of an operation. -/
structure Ran (op : TerminalOp) (phase phase' : Phase) (t : Terminal) (σ : Sessions) : Prop where
  related : Related phase' (op.run t) (op.apply σ)
  frame : OnShown op → Frame t (op.run t)
  tracked : op ≠ .clear → t.CursorTracked → (op.run t).CursorTracked
  displayed : phase = .input → phase' = .input → t.Displayed → (op.run t).Displayed

theorem edit_ran (hrelated : Related .input t σ) {op : EditOp} (hop : op ≠ .putcInput newline) :
    Ran (.edit op) .input .input t σ := by
  obtain ⟨s, -, hcurrent⟩ := hrelated.current
  have hedited := edit_edited op hop hcurrent
  refine ⟨hrelated.modify hedited.touches ?_, fun _ => hedited.touches.frame,
    fun _ => hedited.tracked, fun _ _ => hedited.displayed⟩
  intro s' _ hcurrent'
  exact (edit_edited op hop hcurrent').session

theorem getInput_ran (hrelated : Related .input t σ) (bufferSize : UInt32) :
    Ran (.getInput bufferSize) .input .input t σ := by
  obtain ⟨s, -, hcurrent⟩ := hrelated.current
  have haccessed := getInputAccess_accessed hcurrent bufferSize
  exact ⟨hrelated.of_screens haccessed.screens haccessed.index (haccessed.safe hrelated.safe),
    fun _ => haccessed.keeps.frame, fun _ => haccessed.cursorTracked,
    fun _ _ => haccessed.displayed⟩

theorem switchScreen_ran (hrelated : Related .input t σ) (index : UInt8) :
    Ran (.switchScreen index) .input .input t σ := by
  obtain ⟨hswitched, hshown⟩ := switchScreen_related hrelated index
  refine ⟨hswitched, False.elim, fun _ htracked => ?_, fun _ _ hdisplayed => ?_⟩
  all_goals
    by_cases hlt : index.toNat < terminalScreenCount
    · first
      | exact (hshown hlt).2
      | exact (hshown hlt).1
    · simp only [TerminalOp.run, switchScreen, dif_neg hlt]
      assumption

theorem beginOutput_ran (hrelated : Related .input t σ) : Ran .beginOutput .input .output t σ := by
  obtain ⟨s, -, hcurrent⟩ := hrelated.current
  have hbegun := (beginOutput_begun hcurrent).1
  refine ⟨hrelated.modify hbegun.touches ?_, fun _ => hbegun.touches.frame,
    fun _ _ => hbegun.tracked, by simp⟩
  intro s' _ hcurrent'
  exact (beginOutput_begun hcurrent').1.printing

theorem putcOutput_ran (hrelated : Related .output t σ) (c : UInt8) :
    Ran (.putcOutput c) .output .output t σ := by
  obtain ⟨s, -, hcurrent⟩ := hrelated.current
  have hprinted := (putc_printed hcurrent c).1
  refine ⟨hrelated.modify hprinted.keeps.touches ?_, fun _ => hprinted.keeps.frame,
    fun _ => hprinted.tracked, by simp⟩
  intro s' _ hcurrent'
  exact (putc_printed hcurrent' c).1.printing

theorem putsOutput_ran (hrelated : Related .output t σ) (message : List UInt8) :
    Ran (.putsOutput message) .output .output t σ := by
  obtain ⟨s, -, hcurrent⟩ := hrelated.current
  have hprinted := putcAll_printed hcurrent (message.takeWhile (· ≠ 0))
  refine ⟨hrelated.modify hprinted.keeps.touches ?_, fun _ => hprinted.keeps.frame,
    fun _ => hprinted.tracked, by simp⟩
  intro s' _ hcurrent'
  exact (putcAll_printed hcurrent' _).printing

theorem clear_ran (hrelated : Related .output t σ) : Ran .clear .output .output t σ := by
  obtain ⟨hprinting, htouches⟩ := clear_printing hrelated.safe
  exact ⟨hrelated.modify htouches fun _ _ _ => hprinting, fun _ => htouches.frame,
    fun h => absurd rfl h, by simp⟩

theorem endOutput_ran (hrelated : Related .output t σ) (showPrompt : Bool) :
    Ran (.endOutput showPrompt) .output .input t σ := by
  obtain ⟨s, -, hcurrent⟩ := hrelated.current
  have hended := (endOutput_ended hcurrent showPrompt).1
  refine ⟨hrelated.modify hended.touches ?_, fun _ => hended.touches.frame,
    fun _ => hended.tracked, by simp⟩
  intro s' _ hcurrent'
  exact (endOutput_ended hcurrent' showPrompt).1.editing

theorem run_ran {op : TerminalOp} (hrelated : Related phase t σ) (hnext : phase.next op = some phase') :
    Ran op phase phase' t σ := by
  cases phase with
  | input =>
      cases op with
      | edit op =>
          by_cases hop : op = .putcInput newline
          · have hnone : Phase.input.next (.edit op) = none := if_pos hop
            rw [hnone] at hnext
            cases hnext
          · have hsome : Phase.input.next (.edit op) = some .input := if_neg hop
            rw [hsome] at hnext
            cases hnext
            exact edit_ran hrelated hop
      | getInput bufferSize =>
          cases hnext
          exact getInput_ran hrelated bufferSize
      | switchScreen index =>
          cases hnext
          exact switchScreen_ran hrelated index
      | beginOutput =>
          cases hnext
          exact beginOutput_ran hrelated
      | putcOutput c => cases hnext
      | putsOutput message => cases hnext
      | clear => cases hnext
      | endOutput showPrompt => cases hnext
  | output =>
      cases op with
      | putcOutput c =>
          cases hnext
          exact putcOutput_ran hrelated c
      | putsOutput message =>
          cases hnext
          exact putsOutput_ran hrelated message
      | clear =>
          cases hnext
          exact clear_ran hrelated
      | endOutput showPrompt =>
          cases hnext
          exact endOutput_ran hrelated showPrompt
      | edit op => cases hnext
      | getInput bufferSize => cases hnext
      | switchScreen index => cases hnext
      | beginOutput => cases hnext

theorem runAll_related {ops : List TerminalOp} (hrelated : Related phase t σ)
    (hops : phase.after ops = some phase') :
    Related phase' (TerminalOp.runAll ops t) (TerminalOp.applyAll ops σ) := by
  induction ops generalizing phase t σ with
  | nil =>
      cases hops
      exact hrelated
  | cons op ops ih =>
      rw [Phase.after, Option.bind_eq_some_iff] at hops
      obtain ⟨between, hnext, hafter⟩ := hops
      exact ih (run_ran hrelated hnext).related hafter

theorem runAll_frame {ops : List TerminalOp} (hrelated : Related phase t σ)
    (hops : phase.after ops = some phase') (honShown : ∀ op ∈ ops, OnShown op) :
    Frame t (TerminalOp.runAll ops t) := by
  induction ops generalizing phase t σ with
  | nil => exact .refl t
  | cons op ops ih =>
      rw [Phase.after, Option.bind_eq_some_iff] at hops
      obtain ⟨between, hnext, hafter⟩ := hops
      have hran := run_ran hrelated hnext
      have hrest : ∀ op' ∈ ops, OnShown op' :=
        fun op' hop' => honShown op' (List.mem_cons_of_mem op hop')
      exact (hran.frame (honShown op List.mem_cons_self)).trans (ih hran.related hafter hrest)

end Terminal

end KernelFromScratch
