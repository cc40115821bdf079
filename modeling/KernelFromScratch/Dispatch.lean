import KernelFromScratch.Proof.Prompt

/-!
# Dispatch and history

`shell_execute` once more, with its loop written out and with a record of the calls of commands it
makes. Without the record it is the function of `Shell`. The record says what `last_command` is.
-/

namespace KernelFromScratch

/-- A call of the function of a command. -/
inductive Call where
  /-- `shell.commands[i].function()` in `shell_execute`. -/
  | entry (i : CommandIndex)
  /-- `shell.last_command->function()` in `last`. -/
  | again (i : CommandIndex)
  deriving DecidableEq

/-- The kernel and the calls made so far, the first one first. -/
structure TracedKernel where
  kernel : Kernel
  calls : List Call

namespace TracedKernel

def map (f : Kernel → Kernel) (s : TracedKernel) : TracedKernel := { s with kernel := f s.kernel }

def record (call : Call) (s : TracedKernel) : TracedKernel := { s with calls := s.calls ++ [call] }

def attach (calls : List Call) : Except Kernel Kernel → Except TracedKernel TracedKernel
  | .ok k => .ok ⟨k, calls⟩
  | .error k => .error ⟨k, calls⟩

def last (output : CommandOutput) (s : TracedKernel) : Except TracedKernel TracedKernel :=
  match s.kernel.shell.lastCommand with
  | some i =>
      attach (s.record (.again i)).calls
        (s.kernel.callFunction output (s.kernel.shell.commands i).function)
  | none => .ok (s.map (Kernel.printk [.text (str "No last command executed.\n")]))

/-- `shell.commands[i].function()`. -/
def callEntry (output : CommandOutput) (i : CommandIndex) (s : TracedKernel) :
    Except TracedKernel TracedKernel :=
  if (s.kernel.shell.commands i).function = .last then
    (s.record (.entry i)).last output
  else
    attach (s.record (.entry i)).calls
      (s.kernel.callFunction output (s.kernel.shell.commands i).function)

/-- The end of `shell_execute`: no command has that name. -/
def notFound (command : List UInt8) (k : Kernel) : Kernel :=
  let k := k.mapTerminal Terminal.beginOutput
  let k :=
    if command.headD 0 ≠ 0 then
      k.printk [.string command, .text (str ": command not found\n")]
    else
      k
  k.mapTerminal (Terminal.endOutput true)

/-- What `shell_execute` does after the function of command `i` has returned. -/
def finishCommand (command : List UInt8) (i : CommandIndex) (k : Kernel) : Kernel :=
  let k :=
    if strcmp command (str "last") ≠ 0 then
      { k with shell := { k.shell with lastCommand := some i } }
    else
      k
  k.mapTerminal (Terminal.endOutput !k.shell.readPending)

/-- The body of the `if` in the loop of `shell_execute`. -/
def runCommand (output : CommandOutput) (command : List UInt8) (i : CommandIndex)
    (s : TracedKernel) : Except TracedKernel (TracedKernel × Bool) :=
  match (s.map (Kernel.mapTerminal Terminal.beginOutput)).callEntry output i with
  | .ok s => .ok (s.map (finishCommand command i), true)
  | .error s => .error s

/-- The loop of `shell_execute` over the commands that remain, and what follows it. -/
def dispatch (output : CommandOutput) (command : List UInt8) :
    List CommandIndex → TracedKernel → Except TracedKernel (TracedKernel × Bool)
  | [], s => .ok (s.map (notFound command), false)
  | i :: rest, s =>
      if strcmp command (s.kernel.shell.commands i).name = 0 then
        s.runCommand output command i
      else
        dispatch output command rest s

/-- The branch of `shell_execute` for a line a `read` waits for. -/
def finishRead (command : List UInt8) (k : Kernel) : Kernel :=
  let k := k.mapTerminal Terminal.beginOutput
  let k := k.printk [.text (str "read: \""), .string command, .text (str "\"")]
  let k := k.mapTerminal (Terminal.endOutput true)
  { k with shell := { k.shell with readPending := false } }

def shellExecute (output : CommandOutput) (command : List UInt8) (s : TracedKernel) :
    Except TracedKernel (TracedKernel × Bool) :=
  let s := s.map fun k => { k with executed := command :: k.executed }
  if s.kernel.shell.readPending then
    .ok (s.map (finishRead command), true)
  else
    s.dispatch output command (List.finRange commandCount)

variable {output : CommandOutput} {command : List UInt8} {s s' : TracedKernel} {result : Bool}

end TracedKernel

/-! ### What a line runs -/

open Reaction

theorem lastCommand_ofFunction (output : CommandOutput) (shell : Shell) (keyboard : Keyboard)
    (function : ShellFunction) :
    (ofFunction output shell keyboard function).shell.lastCommand = shell.lastCommand := by
  cases function <;> rfl

theorem lastCommand_ofCall (output : CommandOutput) (shell : Shell) (keyboard : Keyboard)
    (function : ShellFunction) :
    (ofCall output shell keyboard function).shell.lastCommand = shell.lastCommand := by
  unfold ofCall
  split
  · split
    · exact lastCommand_ofFunction _ _ _ _
    · rfl
  · exact lastCommand_ofFunction _ _ _ _

namespace Shell

variable {shell : Shell} {line : List UInt8} {i : CommandIndex}

theorem strcmp_last (hcommands : shell.commands = Shell.zero.init.commands)
    (hline : line = (shell.commands i).name) :
    strcmp (line ++ [0]) (str "last") ≠ 0 ↔ (shell.commands i).function ≠ .last := by
  have hnames : ∀ i : CommandIndex,
      strcmp ((Shell.zero.init.commands i).name ++ [0]) (str "last") ≠ 0
        ↔ (Shell.zero.init.commands i).function ≠ .last := by decide
  rw [hline, hcommands]
  exact hnames i

end Shell

/-! ### A line -/

namespace TracedKernel

variable {output : CommandOutput} {line : List UInt8} {s s' : TracedKernel} {result : Bool}
  {i : CommandIndex}

/-- The kernel with the line added to the ones executed. -/
def submitted (line : List UInt8) (s : TracedKernel) : TracedKernel :=
  s.map fun k => { k with executed := (line ++ [0]) :: k.executed }

/-- After `shell_init`, before any line. -/
def start (terminal : Terminal) (keyboard : Keyboard) : TracedKernel :=
  ⟨⟨terminal, Shell.zero.init, keyboard, []⟩, []⟩

end TracedKernel

end KernelFromScratch
