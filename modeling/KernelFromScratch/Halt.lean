import KernelFromScratch.Messages

/-!
# What stops the kernel

`halt` does not return, and `last` calling itself would not. The command `last` runs again is one that
returned and is not `last`. What is left is `pmultiboot` on a memory map whose walk never ends, and
`reboot` when it does not come back. The loops of `pstack` always end.
-/

namespace KernelFromScratch

open Terminal TerminalOp Reaction

variable {k k' : Kernel} {shell : Shell} {keyboard : Keyboard} {output : CommandOutput}
  {line : List UInt8} {history : List KeyEvent} {event : KeyEvent} {i : CommandIndex}

/-- The machine does not let the call return. -/
def ShellFunction.Hangs (output : CommandOutput) : ShellFunction → Prop
  | .pmultiboot => output.multibootReturns = false
  | .reboot => output.rebootReturns = false
  | _ => False

/-- `last_command` is a command that may return. -/
def Shell.Recalls (shell : Shell) : Prop :=
  ∀ i, shell.lastCommand = some i →
    (shell.commands i).function ≠ .last ∧ (shell.commands i).function ≠ .halt

/-- The line runs the function of entry `i`, maybe through `last`. -/
def Shell.Runs (shell : Shell) (i : CommandIndex) (line : List UInt8) : Prop :=
  line = (shell.commands i).name ∨ (line = str "last" ∧ shell.lastCommand = some i)

theorem ofFunction_returns_iff (function : ShellFunction) :
    (ofFunction output shell keyboard function).returns = false
      ↔ function = .last ∨ function = .halt ∨ function.Hangs output := by
  cases function <;> simp [ofFunction, ShellFunction.Hangs]

theorem ofCall_returns_iff (hrecalls : shell.Recalls) (function : ShellFunction) :
    (ofCall output shell keyboard function).returns = false
      ↔ function = .halt ∨ function.Hangs output ∨ (function = .last ∧
        ∃ i, shell.lastCommand = some i ∧ (shell.commands i).function.Hangs output) := by
  unfold ofCall
  by_cases hlast : function = .last
  · subst hlast
    rw [if_pos rfl]
    have hreturns : ¬ ShellFunction.last.Hangs output := id
    simp only [reduceCtorEq, hreturns, false_or, true_and]
    cases hcommand : shell.lastCommand with
    | none => simp
    | some i =>
        obtain ⟨hne, hne'⟩ := hrecalls i hcommand
        simp only [ofFunction_returns_iff, hne, hne', false_or, Option.some_inj, exists_eq_left']
  · rw [if_neg hlast, ofFunction_returns_iff]
    simp only [hlast, false_or, false_and, or_false]

theorem returns_ofCommand (command : List UInt8) (i : CommandIndex) (called : Reaction) :
    (ofCommand command i called).returns = called.returns := by
  unfold ofCommand
  split <;> rfl

/-- The entries of `halt` and `last` are the ones with these names. -/
theorem function_iff : ((Shell.zero.init.commands i).function = .halt
      ↔ (Shell.zero.init.commands i).name = str "halt") ∧
    ((Shell.zero.init.commands i).function = .last
      ↔ (Shell.zero.init.commands i).name = str "last") := by
  revert i
  decide

/-- A line stops the kernel exactly when no read waits for it, and it is `halt` or runs a command that
the machine does not let return. -/
theorem ofLine_returns_iff (hcommands : shell.commands = Shell.zero.init.commands)
    (hrecalls : shell.Recalls) (hline : 0 ∉ line) :
    (ofLine output shell keyboard (line ++ [0])).returns = false
      ↔ shell.readPending = false ∧ (line = str "halt" ∨
        ∃ i, shell.Runs i line ∧ (shell.commands i).function.Hangs output) := by
  unfold ofLine
  cases hpending : shell.readPending with
  | true =>
      rw [if_pos rfl]
      exact iff_of_false Bool.true_eq_false_eq_False fun h => Bool.true_eq_false_eq_False h.1
  | false =>
      rw [if_neg Bool.false_ne_true]
      cases hfind : shell.findCommand (line ++ [0]) with
      | none =>
          have hunnamed : ∀ i, line ≠ (shell.commands i).name := by
            intro i hname
            cases hfind.symm.trans ((Shell.findCommand_eq_some_iff hcommands hline).mpr hname)
          refine iff_of_false (fun h => Bool.noConfusion h) ?_
          rintro ⟨-, rfl | ⟨i, hname | ⟨rfl, -⟩, -⟩⟩
          · exact hunnamed 6 (by rw [hcommands]; rfl)
          · exact hunnamed i hname
          · exact hunnamed 2 (by rw [hcommands]; rfl)
      | some i =>
          have hname := (Shell.findCommand_eq_some_iff hcommands hline).mp hfind
          have hhalt : (shell.commands i).function = .halt ↔ line = str "halt" := by
            rw [hname, hcommands]
            exact function_iff.1
          have hlast : (shell.commands i).function = .last ↔ line = str "last" := by
            rw [hname, hcommands]
            exact function_iff.2
          simp only
          rw [returns_ofCommand, ofCall_returns_iff hrecalls, hhalt, hlast, true_and]
          refine or_congr_right ?_
          constructor
          · rintro (hhangs | ⟨hline', j, hcommand, hhangs⟩)
            · exact ⟨i, .inl hname, hhangs⟩
            · exact ⟨j, .inr ⟨hline', hcommand⟩, hhangs⟩
          · rintro ⟨j, hname' | ⟨hline', hcommand⟩, hhangs⟩
            · rw [Shell.name_injective hcommands (hname'.symm.trans hname)] at hhangs
              exact .inl hhangs
            · exact .inr ⟨hline', j, hcommand, hhangs⟩

/-- A line that returns leaves a command to run again that returns. -/
theorem ofLine_recalls (hcommands : shell.commands = Shell.zero.init.commands)
    (hrecalls : shell.Recalls) (hline : 0 ∉ line)
    (hreturns : (ofLine output shell keyboard (line ++ [0])).returns = true) :
    (ofLine output shell keyboard (line ++ [0])).shell.Recalls := by
  unfold ofLine at hreturns ⊢
  cases hpending : shell.readPending with
  | true =>
      rw [if_pos rfl]
      exact hrecalls
  | false =>
      rw [hpending, if_neg Bool.false_ne_true] at hreturns
      rw [if_neg Bool.false_ne_true]
      cases hfind : shell.findCommand (line ++ [0]) with
      | none => exact hrecalls
      | some i =>
          have hname := (Shell.findCommand_eq_some_iff hcommands hline).mp hfind
          rw [hfind] at hreturns
          simp only at hreturns ⊢
          rw [returns_ofCommand] at hreturns
          have hcalled := commands_ofCall output shell keyboard (shell.commands i).function
          have hlast := lastCommand_ofCall output shell keyboard (shell.commands i).function
          have hkept : (ofCall output shell keyboard (shell.commands i).function).shell.Recalls := by
            intro j hj
            rw [hcalled]
            exact hrecalls j (hlast.symm.trans hj)
          rw [ofCommand, if_pos hreturns]
          simp only
          split
          · rename_i hne
            intro j hj
            obtain rfl := Option.some.inj hj
            have hsame : (ofCall output shell keyboard
                (shell.commands i).function).shell.commands i = shell.commands i := by rw [hcalled]
            simp only [hsame]
            refine ⟨(Shell.strcmp_last hcommands hname).mp hne, fun hhalt => ?_⟩
            rw [(ofCall_returns_iff hrecalls _).mpr (.inl hhalt)] at hreturns
            cases hreturns
          · exact hkept

/-! ### Runs -/

/-- What holds between two scancodes. -/
structure Recalling (k : Kernel) : Prop where
  between : Between k
  recalls : k.shell.Recalls

theorem recalling_of_run (vga : Vga) (hrun : (Kernel.boot vga).handleAll history = .ok k) :
    Recalling k := by
  induction history using List.reverseRecOn generalizing k with
  | nil =>
      cases hrun
      have hbooted : (Kernel.boot vga).handleAll [] = .ok (Kernel.boot vga) := rfl
      exact ⟨between_of_run vga hbooted, nofun⟩
  | append_singleton history event ih =>
      obtain ⟨k₁, hrun₁, hhandle⟩ := foldlM_concat_ok.mp hrun
      obtain ⟨hbetween, hrecalls⟩ := ih hrun₁
      refine ⟨between_of_run vga hrun, ?_⟩
      cases handle_handled hbetween hhandle with
      | idle hidle hperform =>
          obtain ⟨-, rfl⟩ := perform_ok_iff.mp hperform
          have hshell := hidle.shell
          dsimp only
          rwa [hshell]
      | enter hline hinput hperform =>
          obtain ⟨hreturns, rfl⟩ := perform_ok_iff.mp hperform
          exact ofLine_recalls hbetween.commands hrecalls hline hreturns

/-- A command that looks at the machine does not return there. -/
def ShellFunction.NeverReturns (view : MachineView) : ShellFunction → Prop
  | .pmultiboot => ∀ fuel, printMultibootInfo view.memory view.mbi fuel = none
  | .pstack => ∀ fuel, stackDump view.symbols view.memory view.esp view.ebp fuel = none
  | .reboot => view.rebootReturns = false
  | _ => False

/-- The output is one of this machine: `pmultiboot` returns when its loop ends. -/
structure MachineView.Returns (view : MachineView) (output : CommandOutput) : Prop where
  multiboot : output.multibootReturns = true
    ↔ ∃ fuel requests, printMultibootInfo view.memory view.mbi fuel = some requests
  reboot : output.rebootReturns = view.rebootReturns

theorem hangs_iff {view : MachineView} (houtput : view.Returns output) (function : ShellFunction) :
    function.Hangs output ↔ function.NeverReturns view := by
  cases function with
  | pmultiboot =>
      change output.multibootReturns = false
        ↔ ∀ fuel, printMultibootInfo view.memory view.mbi fuel = none
      rw [← Bool.not_eq_true]
      refine (not_congr houtput.multiboot).trans ?_
      simp [Option.eq_none_iff_forall_ne_some]
  | pstack =>
      refine iff_of_false id fun hnone => ?_
      obtain ⟨fuel, dump, hends⟩ := stackDump_total view.symbols view.memory view.esp view.ebp
      cases (hnone fuel).symm.trans hends
  | reboot =>
      change output.rebootReturns = false ↔ view.rebootReturns = false
      rw [houtput.reboot]
  | _ => rfl

/-- In every state between two scancodes, whatever has been typed and run before, the kernel stops
exactly when Enter submits, while no read waits, `halt` or a line that runs, by name or through `last`,
a command that does not return on this machine: `pmultiboot` on a map whose walk never ends, or
`reboot`. Every other scancode is handled and returns. -/
theorem stops_iff (vga : Vga) (hrun : (Kernel.boot vga).handleAll history = .ok k)
    (event : KeyEvent) {view : MachineView} (houtput : view.Returns event.output) :
    (∃ k', k.handle event = .error k') ↔
      event.scancode = keyEnter ∧ k.keyboard.isCtrl = false ∧ k.shell.readPending = false ∧
        ∃ line, k.terminal.getInput 256 = some (line ++ [0]) ∧ (line = str "halt" ∨
          ∃ i, k.shell.Runs i line ∧ (k.shell.commands i).function.NeverReturns view) := by
  obtain ⟨hbetween, hrecalls⟩ := recalling_of_run vga hrun
  obtain ⟨line, hline, hinput⟩ := hbetween.input
  have hperform : ∀ reaction : Reaction,
      (∃ k', reaction.perform k = .error k') ↔ reaction.returns = false := by
    intro reaction
    cases hreturns : reaction.returns with
    | true => simp [perform_ok hreturns]
    | false => simp [perform_error hreturns]
  have henter := @ofLine_returns_iff _ k.keyboard event.output _ hbetween.commands hrecalls hline
  simp only [hangs_iff houtput] at henter
  -- the input is one line
  have hinput_iff : ∀ P : List UInt8 → Prop,
      (∃ line', k.terminal.getInput 256 = some (line' ++ [0]) ∧ P line') ↔ P line := by
    intro P
    rw [hinput]
    simp only [Option.some_inj, List.append_left_inj, exists_eq_left']
  rw [hinput_iff, Kernel.handle, handleScancode_eq, hperform, hinput]
  by_cases hsubmits : event.scancode = keyEnter ∧ k.keyboard.isCtrl = false
  · obtain ⟨hscancode, hctrl⟩ := hsubmits
    rw [hscancode, ofScancode_enter event.output k.shell hctrl]
    exact henter.trans ⟨fun h => ⟨rfl, hctrl, h⟩, fun h => h.2.2⟩
  · refine iff_of_false ?_ fun h => hsubmits ⟨h.1, h.2.1⟩
    intro hreturns
    have hreacts := ofScancode_reacts event.output k.shell k.keyboard event.scancode
      (some (line ++ [0]))
    revert hreturns
    generalize ofScancode event.output k.shell k.keyboard event.scancode
      (some (line ++ [0])) = reaction at hreacts ⊢
    intro hreturns
    cases hreacts with
    | quiet keyboard' hlayout => cases hreturns
    | switchScreen hindex hpending => cases hreturns
    | edit htyped => cases hreturns
    | enter hscancode hctrl => exact hsubmits ⟨hscancode, hctrl⟩

def stuckView : MachineView :=
  ⟨⟨0x40, 0, 0, 24, 4096⟩, stuckMemory, ⟨0x100000, 0x108000, 0x110000⟩, 0x10FF00, 0x10FF10, true⟩

theorem stuckView_pmultiboot : ShellFunction.pmultiboot.NeverReturns stuckView :=
  fun fuel => congrArg (Option.map MapWalk.requests) (walkMap_stuck _ fuel)

/-- `pmultiboot` is typed, and the first entry of the map has the stride zero. -/
theorem stops_iff_typed :
    ∃ k k', (Kernel.boot ⟨fun _ => 0, 0, fun _ => 0, fun _ => 0⟩).handleAll
        (keys [0x19, 0x32, 0x16, 0x26, 0x14, 0x17, 0x30, 0x18, 0x18, 0x14]) = .ok k ∧
      k.handle ⟨keyEnter, ⟨[], [], false, true⟩⟩ = .error k' := by
  have hsession : (SessionKernel.boot.handleAll
      (keys [0x19, 0x32, 0x16, 0x26, 0x14, 0x17, 0x30, 0x18, 0x18, 0x14])).toOption.map
      (fun a => ((a.keyboard.isCtrl, a.shell.readPending, a.line),
        (a.shell.commands 3).name, (a.shell.commands 3).function))
      = some ((false, false, some (str "pmultiboot" ++ [0])), str "pmultiboot", .pmultiboot) := by
    decide +kernel
  obtain ⟨a, harun, hvalue⟩ := exists_ok_of_toOption_map hsession
  simp only [Prod.mk.injEq] at hvalue
  obtain ⟨⟨hctrl, hpending, hline⟩, hname, hfunction⟩ := hvalue
  obtain ⟨k, hrun, hrepresents⟩ :=
    handleAll_represents ⟨fun _ => 0, 0, fun _ => 0, fun _ => 0⟩ harun
  rw [← hrepresents.keyboard] at hctrl
  rw [← hrepresents.shell] at hpending hname hfunction
  rw [← hrepresents.line] at hline
  have houtput : stuckView.Returns ⟨[], [], false, true⟩ := by
    refine ⟨iff_of_false Bool.false_ne_true ?_, rfl⟩
    rintro ⟨fuel, requests, hends⟩
    cases (stuckView_pmultiboot fuel).symm.trans hends
  have hnever : (k.shell.commands 3).function.NeverReturns stuckView :=
    hfunction ▸ stuckView_pmultiboot
  obtain ⟨k', hstops⟩ :=
    (stops_iff _ hrun ⟨keyEnter, ⟨[], [], false, true⟩⟩ houtput).mpr ⟨rfl, hctrl, hpending,
      str "pmultiboot", hline, .inr ⟨3, .inl hname.symm, hnever⟩⟩
  exact ⟨k, k', hrun, hstops⟩

end KernelFromScratch
