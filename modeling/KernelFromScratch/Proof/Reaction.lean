import KernelFromScratch.Reaction

/-!
# Scancodes are handled as their reactions say

The functions of `shell.c` and `keyboard.c` against their reactions, and the shape of a reaction:
the operations come in the order the terminal expects.
-/

namespace KernelFromScratch

open TerminalOp

namespace Reaction

variable {output : CommandOutput} {k : Kernel} {reaction : Reaction}

theorem runAll_append (ops ops' : List TerminalOp) (t : Terminal) :
    runAll (ops ++ ops') t = runAll ops' (runAll ops t) :=
  List.foldl_append

/-- A command prints between `terminal_begin_output` and `terminal_end_output`. -/
theorem runAll_command (body : List TerminalOp) (showPrompt : Bool) (t : Terminal) :
    runAll (.beginOutput :: (body ++ [.endOutput showPrompt])) t
      = (runAll body t.beginOutput).endOutput showPrompt := by
  rw [← List.cons_append, runAll_append]
  rfl

theorem runAll_map_putcOutput (chars : List UInt8) (t : Terminal) :
    runAll (chars.map .putcOutput) t = chars.foldl (fun t c => t.putcOutput c) t := by
  rw [runAll, List.foldl_map]
  rfl

theorem runAll_printOps (pieces : List PrintkPiece) (t : Terminal) :
    runAll (printOps pieces) t = t.printk pieces := by
  induction pieces generalizing t with
  | nil => rfl
  | cons piece pieces ih =>
      rw [printOps, List.flatMap_cons, runAll_append]
      cases piece with
      | text chars =>
          rw [runAll_map_putcOutput]
          exact ih _
      | string s => exact ih _

theorem runAll_helpLines (indices : List CommandIndex) (k : Kernel) :
    k.mapTerminal (runAll (indices.flatMap fun i =>
        printOps (Kernel.helpLine (k.shell.commands i))))
      = indices.foldl (fun k i => k.printk (Kernel.helpLine (k.shell.commands i))) k := by
  induction indices generalizing k with
  | nil => rfl
  | cons i indices ih =>
      rw [List.foldl_cons, ← ih]
      simp only [Kernel.mapTerminal, Kernel.printk, List.flatMap_cons, runAll_append,
        runAll_printOps]

theorem shell_printk (pieces : List PrintkPiece) (k : Kernel) :
    (k.printk pieces).shell = k.shell := rfl

theorem mapTerminal_printk (f : Terminal → Terminal) (pieces : List PrintkPiece) (k : Kernel) :
    (k.printk pieces).mapTerminal f = k.mapTerminal fun t => f (t.printk pieces) := rfl

theorem runAll_helpOps (k : Kernel) : k.mapTerminal (runAll (helpOps k.shell)) = k.help := by
  have hops : runAll (helpOps k.shell)
      = fun t => runAll ((List.finRange commandCount).flatMap fun i =>
          printOps (Kernel.helpLine (k.shell.commands i)))
        (t.printk [.text (str "Available commands:\n")]) := by
    funext t
    rw [helpOps, runAll_append, runAll_printOps]
  rw [Kernel.help, ← runAll_helpLines, shell_printk, mapTerminal_printk, hops]

theorem perform_ok (hreturns : reaction.returns = true) :
    reaction.perform k = .ok ⟨runAll reaction.ops k.terminal, reaction.shell, reaction.keyboard,
      reaction.submitted ++ k.executed⟩ := by
  simp [perform, hreturns]

theorem perform_error (hreturns : reaction.returns = false) :
    reaction.perform k = .error ⟨runAll reaction.ops k.terminal, reaction.shell, reaction.keyboard,
      reaction.submitted ++ k.executed⟩ := by
  simp [perform, hreturns]

theorem callFunction_eq (output : CommandOutput) (function : ShellFunction) (k : Kernel) :
    k.callFunction output function
      = (ofFunction output k.shell k.keyboard function).perform k := by
  cases function with
  | help =>
      rw [Kernel.callFunction, ← runAll_helpOps]
      rfl
  | clear => rfl
  | last => rfl
  | pmultiboot =>
      rw [ofFunction, perform, runAll_map_putcOutput]
      rfl
  | pstack =>
      rw [ofFunction, perform, runAll_map_putcOutput]
      rfl
  | reboot => rfl
  | halt =>
      rw [ofFunction, perform, runAll_printOps]
      rfl
  | read =>
      rw [Kernel.callFunction]
      by_cases hpending : k.shell.readPending
      · have hsame : { k.shell with readPending := true } = k.shell := by rw [← hpending]
        rw [if_pos hpending, ofFunction, hsame]
        rfl
      · rw [if_neg hpending]
        rfl
  | azerty => rfl
  | qwerty => rfl

theorem call_eq (output : CommandOutput) (function : ShellFunction) (k : Kernel) :
    k.call output function = (ofCall output k.shell k.keyboard function).perform k := by
  rw [Kernel.call, ofCall]
  by_cases hlast : function = .last
  · rw [if_pos hlast, if_pos hlast, Kernel.last]
    cases k.shell.lastCommand with
    | some i => exact callFunction_eq output _ k
    | none =>
        simp only [perform, runAll_printOps]
        rfl
  · rw [if_neg hlast, if_neg hlast]
    exact callFunction_eq output function k

theorem ofFunction_submitted (output : CommandOutput) (shell : Shell) (keyboard : Keyboard)
    (function : ShellFunction) : (ofFunction output shell keyboard function).submitted = [] := by
  cases function <;> rfl

theorem ofCall_submitted (output : CommandOutput) (shell : Shell) (keyboard : Keyboard)
    (function : ShellFunction) : (ofCall output shell keyboard function).submitted = [] := by
  unfold ofCall
  split
  · split
    · exact ofFunction_submitted _ _ _ _
    · rfl
  · exact ofFunction_submitted _ _ _ _

theorem shellExecute_eq (output : CommandOutput) (command : List UInt8) (k : Kernel) :
    (k.shellExecute output command).map Prod.fst
      = (ofLine output k.shell k.keyboard command).perform k := by
  unfold Kernel.shellExecute ofLine
  by_cases hpending : k.shell.readPending
  · simp only [if_pos hpending]
    rw [perform_ok rfl]
    simp only [runAll_command, runAll_printOps, Kernel.mapTerminal, Kernel.printk]
    rfl
  · simp only [if_neg hpending]
    cases hfind : k.shell.findCommand command with
    | none =>
        simp only
        rw [perform_ok rfl]
        simp only [runAll_command]
        by_cases hempty : command.headD 0 ≠ 0
        · simp only [if_pos hempty, runAll_printOps, Kernel.mapTerminal, Kernel.printk]
          rfl
        · simp only [if_neg hempty, Kernel.mapTerminal]
          rfl
    | some i =>
        simp only
        have hcall : Kernel.call output (k.shell.commands i).function
            (({ k with executed := command :: k.executed } : Kernel).mapTerminal
              Terminal.beginOutput)
            = (ofCall output k.shell k.keyboard (k.shell.commands i).function).perform
              ⟨k.terminal.beginOutput, k.shell, k.keyboard, command :: k.executed⟩ :=
          call_eq _ _ _
        rw [hcall]
        have hsubmitted := ofCall_submitted output k.shell k.keyboard (k.shell.commands i).function
        set called := ofCall output k.shell k.keyboard (k.shell.commands i).function with hcalled
        rw [ofCommand]
        cases hreturns : called.returns with
        | true =>
            rw [perform_ok hreturns, if_pos rfl, perform_ok rfl]
            simp only [runAll_command, hsubmitted]
            by_cases hlast : strcmp command (str "last") ≠ 0
            · simp only [if_pos hlast, Kernel.mapTerminal]
              rfl
            · simp only [if_neg hlast, Kernel.mapTerminal]
              rfl
        | false =>
            rw [perform_error hreturns, if_neg Bool.false_ne_true, perform_error rfl, hsubmitted]
            rfl

theorem execute_eq (output : CommandOutput) (k : Kernel) :
    k.execute output
      = (ofEnter output k.shell k.keyboard (k.terminal.getInput 256)).perform k := by
  rw [Kernel.execute]
  cases hline : k.terminal.getInput 256 with
  | none => rfl
  | some buffer =>
      simp only
      rw [shellExecute_eq]
      rfl

theorem handleSpecial_eq (output : CommandOutput) (scancode : UInt8) (k : Kernel) :
    k.handleSpecial output scancode
      = (ofSpecial output k.shell k.keyboard scancode (k.terminal.getInput 256)).perform k := by
  unfold Kernel.handleSpecial ofSpecial
  split_ifs
  · exact execute_eq output k
  all_goals rfl

/-- `handle_scancode` does what the reaction says. -/
theorem handleScancode_eq (output : CommandOutput) (scancode : UInt8) (k : Kernel) :
    k.handleScancode output scancode
      = (ofScancode output k.shell k.keyboard scancode (k.terminal.getInput 256)).perform k := by
  rw [Kernel.handleScancode, ofScancode]
  cases k.keyboard.modifier scancode with
  | some keyboard => rfl
  | none =>
      simp only
      split_ifs
      · rfl
      · rfl
      · rfl
      · rfl
      · exact handleSpecial_eq output scancode k

/-! ### The shape of a reaction -/

def Writes : TerminalOp → Prop
  | .putcOutput _ => True
  | .putsOutput _ => True
  | _ => False

/-- The operations a command makes. -/
def Prints : TerminalOp → Prop
  | .clear => True
  | op => Writes op

theorem Writes.prints {op : TerminalOp} (hop : Writes op) : Prints op := by
  cases op with
  | clear => trivial
  | _ => exact hop

theorem writes_map_putcOutput (chars : List UInt8) : ∀ op ∈ chars.map .putcOutput, Writes op := by
  intro op hop
  obtain ⟨c, -, rfl⟩ := List.mem_map.mp hop
  trivial

theorem writes_printOps (pieces : List PrintkPiece) : ∀ op ∈ printOps pieces, Writes op := by
  intro op hop
  obtain ⟨piece, -, hmem⟩ := List.mem_flatMap.mp hop
  cases piece with
  | text chars => exact writes_map_putcOutput chars op hmem
  | string s =>
      rw [List.mem_singleton.mp hmem]
      trivial

theorem prints_printOps (pieces : List PrintkPiece) : ∀ op ∈ printOps pieces, Prints op :=
  fun op hop => (writes_printOps pieces op hop).prints

theorem prints_ofFunction (output : CommandOutput) (shell : Shell) (keyboard : Keyboard)
    (function : ShellFunction) : ∀ op ∈ (ofFunction output shell keyboard function).ops,
      Prints op := by
  intro op hop
  cases function with
  | help =>
      rcases List.mem_append.mp hop with hmem | hmem
      · exact prints_printOps _ op hmem
      · obtain ⟨i, -, hline⟩ := List.mem_flatMap.mp hmem
        exact prints_printOps _ op hline
  | clear =>
      rw [List.mem_singleton.mp hop]
      trivial
  | pmultiboot => exact (writes_map_putcOutput _ op hop).prints
  | pstack => exact (writes_map_putcOutput _ op hop).prints
  | halt => exact prints_printOps _ op hop
  | last => cases hop
  | reboot => cases hop
  | read => cases hop
  | azerty => cases hop
  | qwerty => cases hop

theorem prints_ofCall (output : CommandOutput) (shell : Shell) (keyboard : Keyboard)
    (function : ShellFunction) : ∀ op ∈ (ofCall output shell keyboard function).ops,
      Prints op := by
  unfold ofCall
  split
  · split
    · exact prints_ofFunction _ _ _ _
    · exact prints_printOps _
  · exact prints_ofFunction _ _ _ _

theorem writes_ofFunction {output : CommandOutput} {shell : Shell} {keyboard : Keyboard}
    {function : ShellFunction}
    (hreturns : (ofFunction output shell keyboard function).returns = false) :
    ∀ op ∈ (ofFunction output shell keyboard function).ops, Writes op := by
  intro op hop
  cases function with
  | halt => exact writes_printOps _ op hop
  | pmultiboot => exact writes_map_putcOutput _ op hop
  | last => cases hop
  | reboot => cases hop
  | _ => cases hreturns

theorem writes_ofCall {output : CommandOutput} {shell : Shell} {keyboard : Keyboard}
    {function : ShellFunction}
    (hreturns : (ofCall output shell keyboard function).returns = false) :
    ∀ op ∈ (ofCall output shell keyboard function).ops, Writes op := by
  unfold ofCall at hreturns ⊢
  by_cases hlast : function = .last
  · rw [if_pos hlast] at hreturns ⊢
    cases hcommand : shell.lastCommand with
    | none =>
        rw [hcommand] at hreturns
        cases hreturns
    | some i =>
        rw [hcommand] at hreturns
        exact writes_ofFunction hreturns
  · rw [if_neg hlast] at hreturns ⊢
    exact writes_ofFunction hreturns

/-- `read` is the only command that leaves a read pending, and it prints nothing. -/
theorem ofFunction_pending {output : CommandOutput} {shell : Shell} {keyboard : Keyboard}
    {function : ShellFunction} (hbefore : shell.readPending = false)
    (hafter : (ofFunction output shell keyboard function).shell.readPending = true) :
    function = .read := by
  cases function with
  | read => rfl
  | _ => exact absurd (hbefore.symm.trans hafter) Bool.false_ne_true

/-- Calling the function runs `read`, maybe through `last`. -/
def CallsRead (shell : Shell) (function : ShellFunction) : Prop :=
  function = .read ∨
    (function = .last ∧ ∃ i, shell.lastCommand = some i ∧ (shell.commands i).function = .read)

theorem ofCall_pending {output : CommandOutput} {shell : Shell} {keyboard : Keyboard}
    {function : ShellFunction} (hbefore : shell.readPending = false) :
    (ofCall output shell keyboard function).shell.readPending = true ↔ CallsRead shell function := by
  unfold ofCall CallsRead
  by_cases hlast : function = .last
  · subst hlast
    rw [if_pos rfl]
    cases hcommand : shell.lastCommand with
    | none => simp [hbefore]
    | some i =>
        simp only [reduceCtorEq, true_and, Option.some_inj, exists_eq_left', false_or]
        constructor
        · exact ofFunction_pending hbefore
        · intro hread
          rw [hread]
          rfl
  · rw [if_neg hlast]
    simp only [hlast, false_and, or_false]
    constructor
    · exact ofFunction_pending hbefore
    · rintro rfl
      rfl

theorem ofCall_read_ops {output : CommandOutput} {shell : Shell} {keyboard : Keyboard}
    {function : ShellFunction} (hread : CallsRead shell function) :
    (ofCall output shell keyboard function).ops = [] ∧
      (ofCall output shell keyboard function).returns = true := by
  unfold ofCall
  rcases hread with rfl | ⟨rfl, i, hlast, hfunction⟩
  · exact ⟨rfl, rfl⟩
  · rw [if_pos rfl, hlast]
    simp only [hfunction]
    exact ⟨rfl, rfl⟩

/-- Submitting the line runs `read`. -/
def RunsRead (shell : Shell) (command : List UInt8) : Prop :=
  shell.readPending = false ∧
    ∃ i, shell.findCommand command = some i ∧ CallsRead shell (shell.commands i).function

theorem readPending_ofCommand (command : List UInt8) (i : CommandIndex) (called : Reaction) :
    (ofCommand command i called).shell.readPending = called.shell.readPending := by
  unfold ofCommand
  split
  · simp only
    split <;> rfl
  · rfl

theorem ofLine_pending {output : CommandOutput} {shell : Shell} {keyboard : Keyboard}
    {command : List UInt8}
    (hpending : (ofLine output shell keyboard command).shell.readPending = true) :
    RunsRead shell command := by
  unfold ofLine at hpending
  by_cases hread : shell.readPending
  · rw [if_pos hread] at hpending
    cases hpending
  · rw [if_neg hread] at hpending
    have hread : shell.readPending = false := Bool.eq_false_of_not_eq_true hread
    cases hfind : shell.findCommand command with
    | none =>
        rw [hfind] at hpending
        exact absurd (hread.symm.trans hpending) Bool.false_ne_true
    | some i =>
        rw [hfind] at hpending
        simp only [readPending_ofCommand] at hpending
        exact ⟨hread, i, hfind, (ofCall_pending hread).mp hpending⟩

theorem ofLine_read {output : CommandOutput} {shell : Shell} {keyboard : Keyboard}
    {command : List UInt8} (hruns : RunsRead shell command) :
    (ofLine output shell keyboard command).ops = [.beginOutput, .endOutput false] ∧
      (ofLine output shell keyboard command).returns = true := by
  obtain ⟨hread, i, hfind, hcalls⟩ := hruns
  obtain ⟨hops, hreturns⟩ := @ofCall_read_ops output shell keyboard _ hcalls
  have hpending := (@ofCall_pending output shell keyboard _ hread).mpr hcalls
  have hline : ofLine output shell keyboard command
      = ofCommand command i (ofCall output shell keyboard (shell.commands i).function) := by
    rw [ofLine, if_neg (by rw [hread]; exact Bool.false_ne_true), hfind]
  rw [hline, ofCommand, if_pos hreturns, hops, hpending]
  exact ⟨rfl, hreturns⟩

theorem ofLine_stopped {output : CommandOutput} {shell : Shell} {keyboard : Keyboard}
    {command : List UInt8} (hreturns : (ofLine output shell keyboard command).returns = false) :
    ∃ body, (∀ op ∈ body, Writes op) ∧
      (ofLine output shell keyboard command).ops = .beginOutput :: body := by
  unfold ofLine at hreturns ⊢
  by_cases hpending : shell.readPending
  · rw [if_pos hpending] at hreturns
    cases hreturns
  · rw [if_neg hpending] at hreturns ⊢
    cases hfind : shell.findCommand command with
    | none =>
        rw [hfind] at hreturns
        cases hreturns
    | some i =>
        rw [hfind] at hreturns
        simp only at hreturns ⊢
        have hwrites := @writes_ofCall output shell keyboard (shell.commands i).function
        set called := ofCall output shell keyboard (shell.commands i).function
        unfold ofCommand at hreturns ⊢
        cases hcalled : called.returns with
        | true =>
            rw [hcalled, if_pos rfl] at hreturns
            cases hreturns
        | false =>
            rw [if_neg Bool.false_ne_true]
            exact ⟨called.ops, hwrites hcalled, rfl⟩

/-- A submitted line is printed on between `terminal_begin_output` and `terminal_end_output`; no
prompt is shown exactly when a read waits for its line, and then nothing was printed. -/
structure LineShape (reaction : Reaction) (body : List TerminalOp) : Prop where
  prints : ∀ op ∈ body, Prints op
  ops : reaction.ops = .beginOutput ::
    (body ++ if reaction.returns then [.endOutput !reaction.shell.readPending] else [])
  silent : reaction.returns = true → reaction.shell.readPending = true → body = []

theorem ofLine_shape (output : CommandOutput) (shell : Shell) (keyboard : Keyboard)
    (command : List UInt8) : ∃ body, LineShape (ofLine output shell keyboard command) body := by
  unfold ofLine
  by_cases hpending : shell.readPending
  · rw [if_pos hpending]
    exact ⟨_, prints_printOps _, rfl, fun _ h => absurd h Bool.false_ne_true⟩
  · rw [if_neg hpending]
    have hpending : shell.readPending = false := Bool.eq_false_of_not_eq_true hpending
    cases hfind : shell.findCommand command with
    | none =>
        simp only
        refine ⟨if command.headD 0 ≠ 0 then
          printOps [.string command, .text (str ": command not found\n")] else [], ?_, ?_, ?_⟩
        · split
          · exact prints_printOps _
          · simp
        · rw [if_pos rfl, hpending]
          rfl
        · intro _ h
          exact absurd (hpending.symm.trans h) Bool.false_ne_true
    | some i =>
        simp only
        have hprints := prints_ofCall output shell keyboard (shell.commands i).function
        have hpendingIff : (ofCall output shell keyboard
            (shell.commands i).function).shell.readPending = true
            ↔ CallsRead shell (shell.commands i).function := ofCall_pending hpending
        have hread : CallsRead shell (shell.commands i).function →
            (ofCall output shell keyboard (shell.commands i).function).ops = [] :=
          fun h => (ofCall_read_ops h).1
        set called := ofCall output shell keyboard (shell.commands i).function with hcalled
        have hshell := readPending_ofCommand command i called
        have hreturns : (ofCommand command i called).returns = called.returns := by
          unfold ofCommand
          split <;> rfl
        refine ⟨called.ops, hprints, ?_, ?_⟩
        · rw [hreturns, hshell, ofCommand]
          cases called.returns with
          | true => rfl
          | false => rw [if_neg Bool.false_ne_true, if_neg Bool.false_ne_true, List.append_nil]
        · intro _ h
          exact hread (hpendingIff.mp (hshell.symm.trans h))

/-! ### The order of the operations -/

theorem after_append (phase : Phase) (ops ops' : List TerminalOp) :
    phase.after (ops ++ ops') = (phase.after ops).bind fun phase => phase.after ops' := by
  induction ops generalizing phase with
  | nil => rfl
  | cons op ops ih =>
      rw [List.cons_append, Phase.after, Phase.after, Option.bind_assoc]
      congr 1
      funext phase
      exact ih phase

theorem after_prints {body : List TerminalOp} (hbody : ∀ op ∈ body, Prints op) :
    Phase.output.after body = some .output := by
  induction body with
  | nil => rfl
  | cons op body ih =>
      have hop : Phase.output.next op = some .output := by
        have hprints := hbody op List.mem_cons_self
        cases op with
        | putcOutput c => rfl
        | putsOutput message => rfl
        | clear => rfl
        | _ => cases hprints
      rw [Phase.after, hop]
      exact ih fun op' hop' => hbody op' (List.mem_cons_of_mem op hop')

def endPhase (reaction : Reaction) : Phase := if reaction.returns then .input else .output

theorem LineShape.after {body : List TerminalOp} (hshape : LineShape reaction body) :
    Phase.input.after reaction.ops = some reaction.endPhase := by
  have hbody := after_prints hshape.prints
  have hbegin : Phase.input.after reaction.ops = Phase.output.after
      (body ++ if reaction.returns then [.endOutput !reaction.shell.readPending] else []) := by
    rw [hshape.ops]
    rfl
  rw [hbegin, after_append, hbody, endPhase]
  cases reaction.returns with
  | true => rfl
  | false => rfl

/-- What a scancode can do, for the line being edited. -/
inductive Shaped (output : CommandOutput) (shell : Shell) (line : Option (List UInt8)) :
    Reaction → Prop where
  | quiet (keyboard : Keyboard) : Shaped output shell line (quiet shell keyboard)
  | switchScreen (keyboard : Keyboard) {index : UInt8} (hindex : index.toNat < terminalScreenCount)
      (hpending : shell.readPending = false) :
      Shaped output shell line (ofOp shell keyboard (.switchScreen index))
  | edit (keyboard : Keyboard) {op : EditOp} (htyped : op.Typed) :
      Shaped output shell line (ofOp shell keyboard (.edit op))
  | enter (keyboard : Keyboard) : Shaped output shell line (ofEnter output shell keyboard line)

theorem designated_ne {initializers : List (UInt8 × UInt8)} {c : UInt8}
    (hc : initializers.all (fun p => p.2 != c) = true) (hzero : c ≠ 0) (index : UInt8) :
    designated initializers index ≠ c := by
  unfold designated
  cases hlookup : initializers.lookup index with
  | none => exact hzero.symm
  | some value =>
      obtain ⟨before, after, hsplit, -⟩ := List.lookup_eq_some_iff.mp hlookup
      have hmem : (index, value) ∈ initializers := by
        rw [hsplit]
        simp
      exact bne_iff_ne.mp (List.all_eq_true.mp hc (index, value) hmem)

theorem maps_ne_newline (layout : KeyboardLayout) (index : UInt8) :
    maps layout index ≠ newline ∧ upperMaps layout index ≠ newline := by
  cases layout with
  | qwerty => exact ⟨designated_ne (by decide) (by decide) index,
      designated_ne (by decide) (by decide) index⟩
  | azerty => exact ⟨designated_ne (by decide) (by decide) index,
      designated_ne (by decide) (by decide) index⟩

theorem toupper_ne_newline {c : UInt8} (hc : c ≠ newline) : toupper c ≠ newline := by
  unfold toupper
  split
  · rename_i hlower
    have hle : 97 ≤ c.toNat := by
      have hge := (Bool.and_eq_true _ _).mp hlower |>.1
      exact UInt8.le_iff_toNat_le.mp (decide_eq_true_iff.mp hge)
    intro heq
    have hvalue := congrArg UInt8.toNat heq
    have hlt := c.toNat_lt
    rw [UInt8.toNat_sub] at hvalue
    change (256 - 32 + c.toNat) % 256 = 10 at hvalue
    omega
  · exact hc

theorem character_ne_newline (keyboard : Keyboard) (scancode : UInt8) :
    keyboard.character scancode ≠ newline := by
  obtain ⟨hmap, hupper⟩ := maps_ne_newline keyboard.currentLayout scancode
  unfold Keyboard.character
  split_ifs
  · exact hupper
  · exact toupper_ne_newline hmap
  · exact hmap

theorem screenOfDigit_lt (c : UInt8) : (Keyboard.screenOfDigit c).toNat < terminalScreenCount := by
  rw [Keyboard.screenOfDigit, UInt8.toNat_mod]
  exact Nat.mod_lt _ (by decide)

theorem modifier_layout {keyboard keyboard' : Keyboard} {scancode : UInt8}
    (hmodifier : keyboard.modifier scancode = some keyboard') :
    keyboard'.currentLayout = keyboard.currentLayout := by
  unfold Keyboard.modifier at hmodifier
  split_ifs at hmodifier <;> cases hmodifier <;> rfl

/-- What handling a scancode can be, and when. -/
inductive Reacts (output : CommandOutput) (shell : Shell) (keyboard : Keyboard) (scancode : UInt8)
    (line : Option (List UInt8)) : Reaction → Prop where
  | quiet (keyboard' : Keyboard) (hlayout : keyboard'.currentLayout = keyboard.currentLayout) :
      Reacts output shell keyboard scancode line (quiet shell keyboard')
  | switchScreen {index : UInt8} (hindex : index.toNat < terminalScreenCount)
      (hpending : shell.readPending = false) :
      Reacts output shell keyboard scancode line (ofOp shell keyboard (.switchScreen index))
  | edit {op : EditOp} (htyped : op.Typed) :
      Reacts output shell keyboard scancode line (ofOp shell keyboard (.edit op))
  | enter (hscancode : scancode = keyEnter) (hctrl : keyboard.isCtrl = false) :
      Reacts output shell keyboard scancode line (ofEnter output shell keyboard line)

theorem ofSpecial_reacts (output : CommandOutput) (shell : Shell) {keyboard : Keyboard}
    (hctrl : keyboard.isCtrl = false) (scancode : UInt8) (line : Option (List UInt8)) :
    Reacts output shell keyboard scancode line
      (ofSpecial output shell keyboard scancode line) := by
  unfold ofSpecial
  split_ifs with henter
  · exact .enter henter hctrl
  · exact .edit trivial
  · exact .edit trivial
  · exact .quiet _ rfl
  · exact .edit trivial
  · exact .edit trivial
  · exact .edit trivial
  · exact .edit trivial
  · exact .quiet keyboard rfl

theorem ofScancode_reacts (output : CommandOutput) (shell : Shell) (keyboard : Keyboard)
    (scancode : UInt8) (line : Option (List UInt8)) :
    Reacts output shell keyboard scancode line
      (ofScancode output shell keyboard scancode line) := by
  unfold ofScancode
  cases hmodifier : keyboard.modifier scancode with
  | some keyboard' => exact .quiet keyboard' (modifier_layout hmodifier)
  | none =>
      simp only
      split_ifs with hrange hctrl hdigit hchar
      · exact .quiet keyboard rfl
      · rw [Bool.and_eq_true, Bool.not_eq_true'] at hdigit
        exact .switchScreen (screenOfDigit_lt _) hdigit.1
      · exact .quiet keyboard rfl
      · have htyped : (EditOp.putcInput (keyboard.character scancode)).Typed :=
          ⟨hchar, character_ne_newline keyboard scancode⟩
        exact .edit htyped
      · exact ofSpecial_reacts output shell (Bool.eq_false_of_not_eq_true hctrl) scancode line

theorem Reacts.shaped {keyboard : Keyboard} {scancode : UInt8} {line : Option (List UInt8)}
    {shell : Shell} (hreacts : Reacts output shell keyboard scancode line reaction) :
    Shaped output shell line reaction := by
  cases hreacts with
  | quiet keyboard' => exact .quiet keyboard'
  | switchScreen hindex hpending => exact .switchScreen keyboard hindex hpending
  | edit htyped => exact .edit keyboard htyped
  | enter => exact .enter keyboard

theorem ofScancode_shaped (output : CommandOutput) (shell : Shell) (keyboard : Keyboard)
    (scancode : UInt8) (line : Option (List UInt8)) :
    Shaped output shell line (ofScancode output shell keyboard scancode line) :=
  (ofScancode_reacts output shell keyboard scancode line).shaped

/-- Only Enter on a line that runs `read` prints nothing and shows no prompt. -/
theorem Reacts.silent {keyboard : Keyboard} {scancode : UInt8} {line : Option (List UInt8)}
    {shell : Shell} (hreacts : Reacts output shell keyboard scancode line reaction)
    (hpending : reaction.shell.readPending = true)
    (hops : reaction.ops = [.getInput 256, .beginOutput, .endOutput false]) :
    scancode = keyEnter ∧ keyboard.isCtrl = false ∧
      ∃ command, line = some command ∧ RunsRead shell command := by
  cases hreacts with
  | quiet => cases hops
  | switchScreen => cases hops
  | edit => cases hops
  | enter hscancode hctrl =>
      cases line with
      | none => cases hops
      | some command => exact ⟨hscancode, hctrl, command, rfl, ofLine_pending hpending⟩

theorem ofScancode_enter (output : CommandOutput) (shell : Shell) {keyboard : Keyboard}
    (hctrl : keyboard.isCtrl = false) (line : Option (List UInt8)) :
    ofScancode output shell keyboard keyEnter line = ofEnter output shell keyboard line := by
  have hmodifier : keyboard.modifier keyEnter = none := rfl
  have hcharacter : keyboard.character keyEnter = 0 := by
    obtain ⟨isLock, isCtrl, isLeftShift, isRightShift, currentLayout⟩ := keyboard
    unfold Keyboard.character
    cases currentLayout <;> simp only <;> split_ifs <;> rfl
  rw [ofScancode, hmodifier]
  simp only [hctrl, hcharacter]
  rfl

end Reaction

end KernelFromScratch
