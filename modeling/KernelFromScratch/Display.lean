import KernelFromScratch.Proof.LastRow
import KernelFromScratch.Proof.Prompt
import KernelFromScratch.ScancodeRuns

/-!
# What is displayed is what is stored

The visible page shows the visible rows of the shown screen after every scancode, except after one
that runs `read` for a line on the last row of the buffer: the newline of `terminal_begin_output`
moves the buffer up, nothing is printed after it, and nothing redraws the page.
-/

namespace KernelFromScratch

open TerminalOp Reaction

variable {k k' : Kernel} {a : SessionKernel} {s : Session} {event : KeyEvent}
  {events : List KeyEvent}

/-- Handling the scancode submits a line that runs `read` and ends on the last row. -/
structure Kernel.ReadsOnLastRow (k : Kernel) (event : KeyEvent) : Prop where
  scancode : event.scancode = keyEnter
  isCtrl : k.keyboard.isCtrl = false
  runs : ∃ command, k.terminal.getInput 256 = some command ∧ RunsRead k.shell command
  lastRow : ((terminalHeight - 1) * terminalWidth : Nat) ≤ k.terminal.currentScreen.inputEnd

theorem Terminal.EditingSession.inputEnd_eq {t : Terminal} (hediting : t.EditingSession s) :
    t.currentScreen.inputEnd = s.shown.pos - s.top * 80 := by
  have hstart := (editingSession_iff.mp hediting).1.inputStart_eq
  rw [Screen.inputEnd, hstart, hediting.size, hediting.shown_eq]
  push_cast
  omega

theorem Terminal.EditingSession.lastRow_iff {t : Terminal} (hediting : t.EditingSession s) :
    ((terminalHeight - 1) * terminalWidth : Nat) ≤ t.currentScreen.inputEnd
      ↔ s.shown.pos / 80 = s.top + 34 := by
  have hend := hediting.inputEnd_eq
  have hfits := hediting.fits
  have hshown : s.shown.pos = s.anchor + s.line.size := by rw [hediting.shown_eq]
  rw [hend]
  simp only [terminalHeight, terminalExtraLines, vgaHeight, terminalWidth, vgaWidth]
  omega

/-- Reading the line leaves the session on the screen, and the page as it is drawn. -/
theorem Terminal.EditingSession.getInputAccess {t : Terminal} (hediting : t.EditingSession s) :
    (t.getInputAccess 256).EditingSession s ∧
      (t.Displayed → (t.getInputAccess 256).Displayed) := by
  have haccessed := getInputAccess_accessed hediting 256
  obtain ⟨hholds, hsafe⟩ := editingSession_iff.mp hediting
  rw [← haccessed.currentScreen] at hholds
  exact ⟨editingSession_iff.mpr ⟨hholds, haccessed.safe hsafe⟩, haccessed.displayed⟩

/-! ### A step -/

theorem handle_displayed (hsettled : Settled k) (hdisplayed : k.terminal.Displayed)
    (hread : ¬ k.ReadsOnLastRow event) (hhandle : k.handle event = .ok k') :
    k'.terminal.Displayed := by
  obtain ⟨⟨a, hrepresents⟩, htracked, -⟩ := hsettled
  have hshaped := ofScancode_shaped event.output k.shell k.keyboard event.scancode
    (k.terminal.getInput 256)
  rw [Kernel.handle, handleScancode_eq] at hhandle
  obtain ⟨hreturns, rfl⟩ := perform_ok_iff.mp hhandle
  obtain ⟨-, hshown⟩ := hshaped.shown hrepresents.related htracked hreturns
  cases hshown with
  | kept hshell hkept => exact hkept hdisplayed
  | drawn hdrawn => exact hdrawn
  | silent hpending hops =>
      obtain ⟨hscancode, hctrl, hruns⟩ := (ofScancode_reacts _ _ _ _ _).silent hpending hops
      obtain ⟨s, -, hediting⟩ := hrepresents.related.current
      have hfits := hediting.fits
      have hrow : s.shown.pos / 80 < s.top + 34 := by
        have hlast : ¬ s.shown.pos / 80 = s.top + 34 := fun h =>
          hread ⟨hscancode, hctrl, hruns, hediting.lastRow_iff.mpr h⟩
        have hshown := congrArg Page.pos hediting.shown_eq
        simp only at hshown
        omega
      obtain ⟨hediting', hdisplayed'⟩ := hediting.getInputAccess
      simp only [hops]
      exact (silent_shown hediting').2 hrow (hdisplayed' hdisplayed)

theorem lastRow_cell (hprompted : a.Prompted) (hs : a.sessions.sessions a.sessions.index = some s)
    {t : Terminal} (hediting : t.EditingSession s) (hruns : RunsRead a.shell (s.line.line ++ [0]))
    (hlast : s.shown.pos / 80 = s.top + 34) :
    0 < s.line.size ∧ s.shown.cells ((s.top + 34) * 80 + 2) ≠ space := by
  have hcolumn := hprompted.anchor _ s hs (Or.inl hruns.1)
  have hline := hruns.line_eq hprompted.commands (hprompted.typed _ s hs)
  obtain ⟨hcells, hpos⟩ : s.shown.cells = overwrite s.page.cells s.anchor s.line.line ∧
      s.shown.pos = s.anchor + s.line.size := by
    rw [hediting.shown_eq]
    exact ⟨rfl, rfl⟩
  have hfirst : ∃ c rest, s.line.line = c :: rest ∧ c ≠ space ∧ rest.length = 3 := by
    rcases hline with heq | heq
    · exact ⟨chr 'r', str "ead", heq, by decide, rfl⟩
    · exact ⟨chr 'l', str "ast", heq, by decide, rfl⟩
  obtain ⟨c, rest, heq, hc, hlength⟩ := hfirst
  have hsize : s.line.size = 4 := by
    rw [← Zipper.line_length, heq, List.length_cons, hlength]
  refine ⟨by omega, ?_⟩
  have hposition : (s.top + 34) * 80 + 2 = s.anchor + 0 := by omega
  rw [hposition, hcells, heq, overwrite_add (Nat.zero_lt_succ _)]
  exact hc

theorem handle_stale (hrepresents : Represents .input k a) (hprompted : a.Prompted)
    (hdisplayed : k.terminal.Displayed) (hread : k.ReadsOnLastRow event) :
    ∃ k', k.handle event = .ok k' ∧ ¬ k'.terminal.Displayed := by
  obtain ⟨hscancode, hctrl, ⟨command, hline, hruns⟩, hlast⟩ := hread
  obtain ⟨s, hs, hediting⟩ := hrepresents.related.current
  rw [hediting.getInput, Option.some_inj] at hline
  subst hline
  obtain ⟨hops, hreturns⟩ := @ofLine_read event.output k.shell k.keyboard _ hruns
  have hhandle : k.handle event = (ofEnter event.output k.shell k.keyboard
      (some (s.line.line ++ [0]))).perform k := by
    rw [Kernel.handle, handleScancode_eq, hscancode, ofScancode_enter _ _ hctrl, hediting.getInput]
  refine ⟨_, hhandle.trans (perform_ok hreturns), ?_⟩
  rw [hrepresents.shell] at hruns
  have hlast' := hediting.lastRow_iff.mp hlast
  obtain ⟨hsize, hcell⟩ := lastRow_cell hprompted hs hediting hruns hlast'
  obtain ⟨hediting', hdisplayed'⟩ := hediting.getInputAccess
  have hstale := Terminal.silent_stale hediting' (hdisplayed' hdisplayed) hsize hlast' (by omega) hcell
  have hrun : runAll (ofEnter event.output k.shell k.keyboard (some (s.line.line ++ [0]))).ops
      k.terminal = ((k.terminal.getInputAccess 256).beginOutput).endOutput false := by
    have hline : (ofEnter event.output k.shell k.keyboard (some (s.line.line ++ [0]))).ops
        = .getInput 256 :: (ofLine event.output k.shell k.keyboard (s.line.line ++ [0])).ops := rfl
    rw [hline, hops]
    rfl
  simp only [hrun]
  exact hstale

/-! ### Runs -/

theorem handleAll_prompted {a' : SessionKernel} (hrun : SessionKernel.boot.handleAll events = .ok a') :
    a'.Prompted :=
  foldlM_invariant SessionKernel.Prompted (fun _ event _ => handle_prompted event) boot_prompted
    hrun

/-- In a run of scancodes the page shows the visible rows of the shown screen after every scancode
if and only if no scancode runs `read` for a line on the last row. -/
theorem displayed_iff_no_read_on_last_row (vga : Vga) (events : List KeyEvent) :
    (∀ done, done <+: events → ∀ k, (Kernel.boot vga).handleAll done = .ok k →
        k.terminal.Displayed) ↔
      ∀ done event, done ++ [event] <+: events → ∀ k, (Kernel.boot vga).handleAll done = .ok k →
        ¬ k.ReadsOnLastRow event := by
  constructor
  · intro hdisplayed done event hprefix k hrun hread
    have hdone : done <+: events := (List.prefix_append done [event]).trans hprefix
    obtain ⟨a, harun, hrepresents⟩ := handleAll_represented vga hrun
    obtain ⟨k', hhandle, hstale⟩ :=
      handle_stale hrepresents (handleAll_prompted harun) (hdisplayed done hdone k hrun) hread
    have hrun' : (Kernel.boot vga).handleAll (done ++ [event]) = .ok k' :=
      foldlM_concat_ok.mpr ⟨k, hrun, hhandle⟩
    exact hstale (hdisplayed (done ++ [event]) hprefix k' hrun')
  · intro hread done
    induction done using List.reverseRecOn with
    | nil =>
        intro _ k hrun
        cases hrun
        exact (boot_settled vga).displayed rfl
    | append_singleton done event ih =>
        intro hprefix k' hrun'
        have hdone : done <+: events := (List.prefix_append done [event]).trans hprefix
        obtain ⟨k, hrun, hhandle⟩ := foldlM_concat_ok.mp hrun'
        exact handle_displayed (handleAll_settled vga hrun) (ih hdone k hrun)
          (hread done event hprefix k hrun) hhandle

/-- Thirty-four empty lines bring the prompt to the last row; then `read` is typed. -/
def readOnLastRow : List KeyEvent :=
  keys (List.replicate 34 keyEnter ++ [0x13, 0x12, 0x1E, 0x20])

theorem readOnLastRow_run : ∃ a, SessionKernel.boot.handleAll readOnLastRow = .ok a ∧
    a.keyboard.isCtrl = false ∧ RunsRead a.shell (str "read" ++ [0]) ∧
    ∃ s, a.sessions.sessions a.sessions.index = some s ∧ s.line.line = str "read" ∧
      s.shown.pos / 80 = s.top + 34 := by
  have heval : ((SessionKernel.boot.handleAll readOnLastRow).toOption.map fun a =>
      ((a.keyboard.isCtrl, a.shell.readPending, a.shell.findCommand (str "read" ++ [0])),
        (a.sessions.sessions a.sessions.index).map fun s =>
          (s.line.line, s.shown.pos / 80, s.top)))
        = some ((false, false, some 7), some (str "read", 34, 0)) := by decide +kernel
  obtain ⟨a, hrun, hvalues⟩ := exists_ok_of_toOption_map heval
  obtain ⟨hshell, hsession⟩ := Prod.mk.inj hvalues
  obtain ⟨s, hs, hline⟩ := Option.map_eq_some_iff.mp hsession
  simp only [Prod.mk.injEq] at hshell hline
  obtain ⟨hctrl, hpending, hfind⟩ := hshell
  obtain ⟨htext, hrow, htop⟩ := hline
  have hfunction : (a.shell.commands 7).function = .read := by
    rw [(handleAll_prompted hrun).commands]
    rfl
  exact ⟨a, hrun, hctrl, ⟨hpending, 7, hfind, Or.inl hfunction⟩, s, hs, htext, by omega⟩

/-- Submitting `read` on the last row leaves the page as it was, though the buffer has moved up. -/
theorem read_on_last_row_not_displayed :
    ∃ k, (Kernel.boot ⟨fun _ => 0, 0, fun _ => 0, fun _ => 0⟩).handleAll
        (readOnLastRow ++ keys [keyEnter]) = .ok k ∧ ¬ k.terminal.Displayed := by
  obtain ⟨a, harun, hctrl, hruns, s, hs, hline, hlast⟩ := readOnLastRow_run
  obtain ⟨k, hrun, hrepresents⟩ := handleAll_represents ⟨fun _ => 0, 0, fun _ => 0, fun _ => 0⟩ harun
  obtain ⟨s', hs', hediting⟩ := hrepresents.related.current
  rw [hs, Option.some_inj] at hs'
  subst hs'
  have hread : k.ReadsOnLastRow ⟨keyEnter, ⟨[], [], true, true⟩⟩ := by
    refine ⟨rfl, ?_, ⟨str "read" ++ [0], ?_, ?_⟩, hediting.lastRow_iff.mpr hlast⟩
    · rw [hrepresents.keyboard]
      exact hctrl
    · rw [hediting.getInput, hline]
    · rw [hrepresents.shell]
      exact hruns
  have hpending : k.shell.readPending = false := by
    rw [hrepresents.shell]
    exact hruns.1
  obtain ⟨k', hhandle, hstale⟩ := handle_stale hrepresents (handleAll_prompted harun)
    ((handleAll_settled _ hrun).displayed hpending) hread
  exact ⟨k', foldlM_concat_ok.mpr ⟨k, hrun, hhandle⟩, hstale⟩

end KernelFromScratch
