import KernelFromScratch.Dispatch
import KernelFromScratch.Display
import KernelFromScratch.OperationRuns

/-!
# The command `read`

A line is data exactly when the line before it was not and ran `read`. Between the two the shown
screen stays, nothing is printed on it, and the keys only edit the line, which is then printed as it
was typed.
-/

namespace KernelFromScratch

open Terminal TerminalOp Reaction

variable {k k' k₀ k₁ : Kernel} {event : KeyEvent} {events : List KeyEvent} {line : List UInt8}

/-- Handling `event` in `k` passes `line` to `shell_execute`, which returns in `k'`. -/
structure Submits (event : KeyEvent) (line : List UInt8) (k k' : Kernel) : Prop where
  handle : k.handle event = .ok k'
  executed : k'.executed = (line ++ [0]) :: k.executed

/-- The line runs `read`, if it is taken as a command. -/
def NamesRead (shell : Shell) (line : List UInt8) : Prop :=
  line = str "read" ∨
    line = str "last" ∧ ∃ i, shell.lastCommand = some i ∧ (shell.commands i).name = str "read"

/-- The line last submitted in the run that ends in `k` is `line`: it is passed to `shell_execute`
in `k₀`, which returns in `k₁`. -/
inductive LastLine (vga : Vga) (line : List UInt8) (k₀ k₁ : Kernel) : List KeyEvent → Kernel → Prop
  where
  | submitted {done : List KeyEvent} {event : KeyEvent}
      (hrun : (Kernel.boot vga).handleAll done = .ok k₀) (hsubmits : Submits event line k₀ k₁) :
      LastLine vga line k₀ k₁ (done ++ [event]) k₁
  | since {events : List KeyEvent} {k k' : Kernel} {event : KeyEvent}
      (hlast : LastLine vga line k₀ k₁ events k) (hhandle : k.handle event = .ok k')
      (hexecuted : k'.executed = k.executed) : LastLine vga line k₀ k₁ (events ++ [event]) k'

/-- What the keys did since `read` returned in `k₁`, which was submitted in `k₀`. -/
structure Waiting (k₀ k₁ k : Kernel) : Prop where
  index : k.terminal.terminalIndex = k₀.terminal.terminalIndex
  /-- No prompt. -/
  silent : k₁.terminal = ((k₀.terminal.getInputAccess 256).beginOutput).endOutput false
  edits : ∃ edits : List EditOp, k.terminal = runAll (edits.map .edit) k₁.terminal ∧
    k.terminal.getInput 256 = some ((editedLine edits).line ++ [0])
  lastCommand : k.shell.lastCommand = k₁.shell.lastCommand
  layout : k.keyboard.currentLayout = k₁.keyboard.currentLayout

namespace Reaction

/-- What a scancode does that submits no line. -/
structure Idle (shell : Shell) (keyboard : Keyboard) (reaction : Reaction) : Prop where
  edits : shell.readPending = true →
    ∃ edits : List EditOp, (∀ op ∈ edits, op.Typed) ∧ reaction.ops = edits.map .edit
  returns : reaction.returns = true
  submitted : reaction.submitted = []
  shell : reaction.shell = shell
  layout : reaction.keyboard.currentLayout = keyboard.currentLayout

variable {shell : Shell} {keyboard keyboard' : Keyboard}

theorem idle_quiet (hlayout : keyboard'.currentLayout = keyboard.currentLayout) :
    Idle shell keyboard (quiet shell keyboard') :=
  ⟨fun _ => ⟨[], by simp, rfl⟩, rfl, rfl, rfl, hlayout⟩

theorem idle_edit {op : EditOp} (hop : op.Typed) : Idle shell keyboard (ofOp shell keyboard (.edit op)) :=
  ⟨fun _ => ⟨[op], by simpa using hop, rfl⟩, rfl, rfl, rfl, rfl⟩

theorem Reacts.idle_or_enter {output : CommandOutput} {reaction : Reaction} {scancode : UInt8}
    {line : Option (List UInt8)}
    (hreacts : Reacts output shell keyboard scancode line reaction) :
    Idle shell keyboard reaction ∨ reaction = ofEnter output shell keyboard line := by
  cases hreacts with
  | quiet keyboard' hlayout => exact Or.inl (idle_quiet hlayout)
  | switchScreen hindex hpending =>
      refine Or.inl ⟨fun hread => ?_, rfl, rfl, rfl, rfl⟩
      exact absurd (hpending.symm.trans hread) Bool.false_ne_true
  | edit htyped => exact Or.inl (idle_edit htyped)
  | enter => exact Or.inr rfl

theorem ofLine_pending_iff {output : CommandOutput} {command : List UInt8} :
    (ofLine output shell keyboard command).shell.readPending = true ↔ RunsRead shell command := by
  constructor
  · exact ofLine_pending
  · rintro ⟨hread, i, hfind, hcalls⟩
    have hline : ofLine output shell keyboard command
        = ofCommand command i (ofCall output shell keyboard (shell.commands i).function) := by
      rw [ofLine, if_neg (by rw [hread]; exact Bool.false_ne_true), hfind]
    rw [hline, readPending_ofCommand]
    exact (ofCall_pending hread).mpr hcalls

theorem runsRead_iff (hcommands : shell.commands = Shell.zero.init.commands) (hline : 0 ∉ line) :
    RunsRead shell (line ++ [0]) ↔ shell.readPending = false ∧ NamesRead shell line := by
  have hnames : ∀ i : CommandIndex,
      ((Shell.zero.init.commands i).function = .read ↔
        (Shell.zero.init.commands i).name = str "read") ∧
      ((Shell.zero.init.commands i).function = .last ↔
        (Shell.zero.init.commands i).name = str "last") := by decide
  have hread : (shell.commands 7).name = str "read" := by rw [hcommands]; rfl
  have hlast : (shell.commands 2).name = str "last" := by rw [hcommands]; rfl
  rw [← hcommands] at hnames
  constructor
  · rintro ⟨hpending, i, hfind, hfunction | ⟨hfunction, j, hremembered, hj⟩⟩
    · have hname := (Shell.findCommand_eq_some_iff hcommands hline).mp hfind
      exact ⟨hpending, Or.inl (hname.trans ((hnames i).1.mp hfunction))⟩
    · have hname := (Shell.findCommand_eq_some_iff hcommands hline).mp hfind
      exact ⟨hpending, Or.inr ⟨hname.trans ((hnames i).2.mp hfunction), j, hremembered,
        (hnames j).1.mp hj⟩⟩
  · rintro ⟨hpending, hname | ⟨hname, j, hremembered, hj⟩⟩
    · exact ⟨hpending, 7, (Shell.findCommand_eq_some_iff hcommands hline).mpr (hname.trans hread.symm),
        Or.inl ((hnames 7).1.mpr hread)⟩
    · exact ⟨hpending, 2, (Shell.findCommand_eq_some_iff hcommands hline).mpr (hname.trans hlast.symm),
        Or.inr ⟨(hnames 2).2.mpr hlast, j, hremembered, (hnames j).1.mpr hj⟩⟩

end Reaction

/-- What is known between two scancodes. -/
structure Between (k : Kernel) : Prop where
  represented : ∃ a, Represents .input k a ∧ a.Prompted
  commands : k.shell.commands = Shell.zero.init.commands

theorem between_of_run (vga : Vga) (hrun : (Kernel.boot vga).handleAll events = .ok k) :
    Between k := by
  obtain ⟨a, harun, hrepresents⟩ := handleAll_represented vga hrun
  have hprompted := handleAll_prompted harun
  refine ⟨⟨a, hrepresents, hprompted⟩, ?_⟩
  rw [hrepresents.shell]
  exact hprompted.commands

theorem Between.input (hbetween : Between k) :
    ∃ line, 0 ∉ line ∧ k.terminal.getInput 256 = some (line ++ [0]) := by
  obtain ⟨a, hrepresents, hprompted⟩ := hbetween.represented
  obtain ⟨s, hs, hediting⟩ := hrepresents.related.current
  exact ⟨s.line.line, hprompted.typed _ s hs, hediting.getInput⟩

/-- The scancode submits the line being edited, or submits nothing. -/
inductive Handled (event : KeyEvent) (k k' : Kernel) : Prop where
  | idle {reaction : Reaction} (hidle : Idle k.shell k.keyboard reaction)
      (hperform : reaction.perform k = .ok k')
  | enter {line : List UInt8} (hline : 0 ∉ line)
      (hinput : k.terminal.getInput 256 = some (line ++ [0]))
      (hperform : (ofEnter event.output k.shell k.keyboard (some (line ++ [0]))).perform k = .ok k')

theorem handle_handled (hbetween : Between k) (hhandle : k.handle event = .ok k') :
    Handled event k k' := by
  obtain ⟨line, hline, hinput⟩ := hbetween.input
  rw [Kernel.handle, handleScancode_eq, hinput] at hhandle
  rcases (ofScancode_reacts event.output k.shell k.keyboard event.scancode
    (some (line ++ [0]))).idle_or_enter with
    hidle | henter
  · exact .idle hidle hhandle
  · rw [henter] at hhandle
    exact .enter hline hinput hhandle

theorem Reaction.Idle.executed {reaction : Reaction} (hidle : Idle k.shell k.keyboard reaction)
    (hperform : reaction.perform k = .ok k') : k'.executed = k.executed := by
  obtain ⟨-, rfl⟩ := perform_ok_iff.mp hperform
  simp only [hidle.submitted, List.nil_append]

theorem submitted_ofLine (output : CommandOutput) (shell : Shell) (keyboard : Keyboard)
    (command : List UInt8) : (ofLine output shell keyboard command).submitted = [command] := by
  unfold ofLine
  split
  · rfl
  · split
    · unfold ofCommand
      split <;> rfl
    · rfl

theorem enter_executed {command : List UInt8}
    (hperform : (ofEnter event.output k.shell k.keyboard (some command)).perform k = .ok k') :
    k'.executed = command :: k.executed := by
  obtain ⟨-, rfl⟩ := perform_ok_iff.mp hperform
  simp only [ofEnter, submitted_ofLine, List.cons_append, List.nil_append]

/-- A line handed over is the line being edited. -/
theorem Submits.enter (hbetween : Between k) (hsubmits : Submits event line k k') :
    0 ∉ line ∧ k.terminal.getInput 256 = some (line ++ [0]) ∧
      (ofEnter event.output k.shell k.keyboard (some (line ++ [0]))).perform k = .ok k' := by
  cases handle_handled hbetween hsubmits.handle with
  | idle hidle hperform =>
      have hexecuted := (hidle.executed hperform).symm.trans hsubmits.executed
      exact absurd hexecuted (List.cons_ne_self _ _).symm
  | enter hline hinput hperform =>
      have hsame := (enter_executed hperform).symm.trans hsubmits.executed
      rw [List.cons.injEq, List.append_left_inj] at hsame
      obtain ⟨rfl, -⟩ := hsame
      exact ⟨hline, hinput, hperform⟩

theorem Submits.pending_iff (hbetween : Between k) (hsubmits : Submits event line k k') :
    k'.shell.readPending = true ↔ k.shell.readPending = false ∧ NamesRead k.shell line := by
  obtain ⟨hline, -, hperform⟩ := hsubmits.enter hbetween
  obtain ⟨-, rfl⟩ := perform_ok_iff.mp hperform
  exact ofLine_pending_iff.trans (runsRead_iff hbetween.commands hline)

/-! ### While a read waits -/

theorem after_edits {edits : List EditOp} (htyped : ∀ op ∈ edits, op.Typed) :
    Phase.input.after (edits.map .edit) = some .input := by
  induction edits with
  | nil => rfl
  | cons op edits ih =>
      have hnext : Phase.input.next (.edit op) = some .input :=
        if_neg (htyped op List.mem_cons_self).ne
      rw [List.map_cons, Phase.after, hnext]
      exact ih fun op' hop' => htyped op' (List.mem_cons_of_mem op hop')

/-- Only edits since `k₁`. -/
structure OnlyEdits (k₁ k : Kernel) : Prop where
  edits : ∃ edits : List EditOp, (∀ op ∈ edits, op.Typed) ∧
    k.terminal = runAll (edits.map .edit) k₁.terminal
  shell : k.shell = k₁.shell
  layout : k.keyboard.currentLayout = k₁.keyboard.currentLayout

theorem OnlyEdits.idle {reaction : Reaction} (honly : OnlyEdits k₁ k)
    (hpending : k₁.shell.readPending = true) (hidle : Idle k.shell k.keyboard reaction)
    (hperform : reaction.perform k = .ok k') : OnlyEdits k₁ k' := by
  obtain ⟨⟨edits, htyped, hterminal⟩, hshell, hlayout⟩ := honly
  rw [← hshell] at hpending
  obtain ⟨more, hmore, hops⟩ := hidle.edits hpending
  obtain ⟨-, rfl⟩ := perform_ok_iff.mp hperform
  refine ⟨⟨edits ++ more, ?_, ?_⟩, hidle.shell.trans hshell, hidle.layout.trans hlayout⟩
  · intro op hop
    rcases List.mem_append.mp hop with hmem | hmem
    · exact htyped op hmem
    · exact hmore op hmem
  · simp only
    rw [hops, hterminal, List.map_append, runAll_append]

/-- `read` has returned: the terminal was left without a prompt. -/
theorem Submits.armed (hbetween : Between k₀) (hsubmits : Submits event line k₀ k₁)
    (hpending : k₁.shell.readPending = true) :
    k₁.terminal = ((k₀.terminal.getInputAccess 256).beginOutput).endOutput false ∧
      k₁.terminal.terminalIndex = k₀.terminal.terminalIndex := by
  obtain ⟨hline, -, hperform⟩ := hsubmits.enter hbetween
  have hruns := (runsRead_iff hbetween.commands hline).mpr
    ((hsubmits.pending_iff hbetween).mp hpending)
  obtain ⟨hops, -⟩ := @ofLine_read event.output k₀.shell k₀.keyboard _ hruns
  have hsilent : k₁.terminal = runAll [.getInput 256, .beginOutput, .endOutput false] k₀.terminal := by
    obtain ⟨-, rfl⟩ := perform_ok_iff.mp hperform
    simp only [ofEnter, hops]
  obtain ⟨a, hrepresents, -⟩ := hbetween.represented
  have hafter : Phase.input.after [.getInput 256, .beginOutput, .endOutput false]
      = some .input := rfl
  have hframe := runAll_frame hrepresents.related hafter (by simp [OnShown])
  rw [← hsilent] at hframe
  exact ⟨hsilent, hframe.index⟩

theorem inputSize_endOutput (showPrompt : Bool) (t : Terminal) :
    (t.endOutput showPrompt).currentScreen.inputSize = 0 := by
  have hvisible : ∀ r : Terminal, (r.vgaSetCursorVisibility true).currentScreen = r.currentScreen :=
    fun _ => rfl
  rw [Terminal.endOutput, hvisible, currentScreen_modifyScreen]

theorem OnlyEdits.waiting (hbetween₀ : Between k₀) (hsubmits : Submits event line k₀ k₁)
    (hbetween₁ : Between k₁) (hpending : k₁.shell.readPending = true) (honly : OnlyEdits k₁ k) :
    Waiting k₀ k₁ k := by
  obtain ⟨hsilent, hindex⟩ := hsubmits.armed hbetween₀ hpending
  obtain ⟨⟨edits, htyped, hterminal⟩, hshell, hlayout⟩ := honly
  obtain ⟨a, hrepresents, -⟩ := hbetween₁.represented
  have hempty : k₁.terminal.currentScreen.inputSize = 0 := by
    rw [hsilent]
    exact inputSize_endOutput false _
  obtain ⟨s, hediting, hline⟩ := hrepresents.related.editing_of_empty hempty
  obtain ⟨s', hediting', hline'⟩ := edits_editing hediting htyped
  have hframe := runAll_frame hrepresents.related (after_edits htyped) (by
    intro op hop
    obtain ⟨edited, -, rfl⟩ := List.mem_map.mp hop
    trivial)
  refine ⟨?_, hsilent, ⟨edits, hterminal, ?_⟩, congrArg Shell.lastCommand hshell,
    hlayout⟩
  · rw [hterminal]
    exact hframe.index.trans hindex
  · rw [hline] at hline'
    rw [hterminal, hediting'.getInput, hline']
    rfl

namespace LastLine

variable {vga : Vga}

theorem run (hlast : LastLine vga line k₀ k₁ events k) :
    (Kernel.boot vga).handleAll events = .ok k := by
  induction hlast with
  | submitted hrun hsubmits => exact foldlM_concat_ok.mpr ⟨k₀, hrun, hsubmits.handle⟩
  | since hlast hhandle hexecuted ih => exact foldlM_concat_ok.mpr ⟨_, ih, hhandle⟩

theorem between (hlast : LastLine vga line k₀ k₁ events k) :
    ∃ event, Between k₀ ∧ Submits event line k₀ k₁ ∧ Between k₁ := by
  induction hlast with
  | submitted hrun hsubmits =>
      exact ⟨_, between_of_run vga hrun, hsubmits,
        between_of_run vga (foldlM_concat_ok.mpr ⟨k₀, hrun, hsubmits.handle⟩)⟩
  | since hlast hhandle hexecuted ih => exact ih

end LastLine

end KernelFromScratch
