import KernelFromScratch.Scancode
import KernelFromScratch.Session

/-!
# What a scancode does

Handling a scancode comes down to a list of terminal operations, a new shell and keyboard state and
whether the handling returns. All of it is a function of the shell, the keyboard and the line being
edited: nothing else of the terminal is looked at.
-/

namespace KernelFromScratch

open TerminalOp

structure Reaction where
  ops : List TerminalOp
  shell : Shell
  keyboard : Keyboard
  /-- The line passed to `shell_execute`, if there is one. -/
  submitted : List (List UInt8)
  returns : Bool

namespace Reaction

def perform (reaction : Reaction) (k : Kernel) : Except Kernel Kernel :=
  let k : Kernel := ⟨runAll reaction.ops k.terminal, reaction.shell, reaction.keyboard,
    reaction.submitted ++ k.executed⟩
  if reaction.returns then .ok k else .error k

def printOps (pieces : List PrintkPiece) : List TerminalOp :=
  pieces.flatMap fun piece =>
    match piece with
    | .text chars => chars.map .putcOutput
    | .string s => [.putsOutput s]

variable (output : CommandOutput) (shell : Shell) (keyboard : Keyboard)

def helpOps : List TerminalOp :=
  printOps [.text (str "Available commands:\n")] ++
    (List.finRange commandCount).flatMap fun i => printOps (Kernel.helpLine (shell.commands i))

/-- What a command prints, clears and stores. -/
def ofFunction : ShellFunction → Reaction
  | .help => ⟨helpOps shell, shell, keyboard, [], true⟩
  | .clear => ⟨[.clear], shell, keyboard, [], true⟩
  | .last => ⟨[], shell, keyboard, [], false⟩
  | .pmultiboot =>
      ⟨output.multiboot.map .putcOutput, shell, keyboard, [], output.multibootReturns⟩
  | .pstack => ⟨output.stack.map .putcOutput, shell, keyboard, [], true⟩
  | .reboot => ⟨[], shell, keyboard, [], output.rebootReturns⟩
  | .halt => ⟨printOps [.text (str "System halted.\n")], shell, keyboard, [], false⟩
  | .read => ⟨[], { shell with readPending := true }, keyboard, [], true⟩
  | .azerty => ⟨[], shell, keyboard.setLayout .azerty, [], true⟩
  | .qwerty => ⟨[], shell, keyboard.setLayout .qwerty, [], true⟩

def ofCall (function : ShellFunction) : Reaction :=
  if function = .last then
    match shell.lastCommand with
    | some i => ofFunction output shell keyboard (shell.commands i).function
    | none => ⟨printOps [.text (str "No last command executed.\n")], shell, keyboard, [], true⟩
  else
    ofFunction output shell keyboard function

/-- The effects of a command between `terminal_begin_output` and `terminal_end_output`. -/
def ofCommand (command : List UInt8) (i : CommandIndex) (called : Reaction) : Reaction :=
  if called.returns then
    { called with
      ops := .beginOutput :: (called.ops ++ [.endOutput !called.shell.readPending])
      shell :=
        if strcmp command (str "last") ≠ 0 then { called.shell with lastCommand := some i }
        else called.shell
      submitted := [command] }
  else
    { called with ops := .beginOutput :: called.ops, submitted := [command] }

/-- What `shell_execute(command)` does. -/
def ofLine (command : List UInt8) : Reaction :=
  if shell.readPending then
    ⟨.beginOutput :: (printOps [.text (str "read: \""), .string command, .text (str "\"")]
        ++ [.endOutput true]),
      { shell with readPending := false }, keyboard, [command], true⟩
  else
    match shell.findCommand command with
    | some i => ofCommand command i (ofCall output shell keyboard (shell.commands i).function)
    | none =>
        ⟨.beginOutput :: ((if command.headD 0 ≠ 0 then
            printOps [.string command, .text (str ": command not found\n")] else [])
            ++ [.endOutput true]),
          shell, keyboard, [command], true⟩

def quiet : Reaction := ⟨[], shell, keyboard, [], true⟩

def ofOp (op : TerminalOp) : Reaction := ⟨[op], shell, keyboard, [], true⟩

/-- `execute`, for the line `terminal_get_input` returns. -/
def ofEnter (line : Option (List UInt8)) : Reaction :=
  match line with
  | some command =>
      let executed := ofLine output shell keyboard command
      { executed with ops := .getInput 256 :: executed.ops }
  | none => ofOp shell keyboard (.getInput 256)

def ofSpecial (scancode : UInt8) (line : Option (List UInt8)) : Reaction :=
  if scancode = keyEnter then ofEnter output shell keyboard line
  else if scancode = keyBackspace then ofOp shell keyboard (.edit (.delInput 1))
  else if scancode = keyDelete then ofOp shell keyboard (.edit (.delInputForward 1))
  else if scancode = keyCaps then quiet shell { keyboard with isLock := !keyboard.isLock }
  else if scancode = keyUp then ofOp shell keyboard (.edit (.move .up))
  else if scancode = keyDown then ofOp shell keyboard (.edit (.move .down))
  else if scancode = keyLeft then ofOp shell keyboard (.edit (.move .left))
  else if scancode = keyRight then ofOp shell keyboard (.edit (.move .right))
  else quiet shell keyboard

def ofScancode (scancode : UInt8) (line : Option (List UInt8)) : Reaction :=
  match keyboard.modifier scancode with
  | some keyboard => quiet shell keyboard
  | none =>
    if scancodeMapSize ≤ scancode.toNat then
      quiet shell keyboard
    else
      let c := keyboard.character scancode
      if keyboard.isCtrl then
        if !shell.readPending && isdigit c then
          ofOp shell keyboard (.switchScreen (Keyboard.screenOfDigit c))
        else
          quiet shell keyboard
      else if c ≠ 0 then
        ofOp shell keyboard (.edit (.putcInput c))
      else
        ofSpecial output shell keyboard scancode line

end Reaction

/-- The kernel over the sessions in place of the terminal. -/
structure SessionKernel where
  sessions : Sessions
  shell : Shell
  keyboard : Keyboard
  executed : List (List UInt8)

namespace SessionKernel

def perform (a : SessionKernel) (reaction : Reaction) : Except SessionKernel SessionKernel :=
  let a : SessionKernel := ⟨applyAll reaction.ops a.sessions, reaction.shell, reaction.keyboard,
    reaction.submitted ++ a.executed⟩
  if reaction.returns then .ok a else .error a

def line (a : SessionKernel) : Option (List UInt8) :=
  (a.sessions.sessions a.sessions.index).map fun s => s.line.line ++ [0]

def handle (event : KeyEvent) (a : SessionKernel) : Except SessionKernel SessionKernel :=
  a.perform (Reaction.ofScancode event.output a.shell a.keyboard event.scancode a.line)

def handleAll (events : List KeyEvent) (a : SessionKernel) : Except SessionKernel SessionKernel :=
  events.foldlM (fun a event => a.handle event) a

def boot : SessionKernel := ⟨.init, Shell.zero.init, .boot, []⟩

end SessionKernel

end KernelFromScratch
