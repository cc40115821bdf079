import KernelFromScratch.Keyboard
import KernelFromScratch.Terminal

/-!
# The shell

`shell.c`: the commands, and what `shell_execute` does with a line. A command may never return; the
state it stops in is then an error.
-/

namespace KernelFromScratch

abbrev commandCount : Nat := 10

def commandNameMaxLength : Nat := 256

def commandDescriptionMaxLength : Nat := 256

abbrev CommandIndex := Fin commandCount

/-- The values of the `function` pointers. -/
inductive ShellFunction where
  | help
  | clear
  | last
  | pmultiboot
  | pstack
  | reboot
  | halt
  | read
  | azerty
  | qwerty
  deriving DecidableEq

structure ShellCommand where
  name : List UInt8
  description : List UInt8
  function : ShellFunction
  deriving DecidableEq

structure Shell where
  commands : CommandIndex → ShellCommand
  /-- The index of the command `last_command` points to, `none` when it is null. -/
  lastCommand : Option CommandIndex
  readPending : Bool

/-- The difference of the first two bytes that differ. A list stands for its bytes, followed by
NULs. -/
def strcmp : List UInt8 → List UInt8 → UInt32
  | [], [] => 0
  | a :: _, [] => a.toUInt32
  | [], b :: _ => 0 - b.toUInt32
  | a :: str1, b :: str2 => if a ≠ 0 ∧ a = b then strcmp str1 str2 else a.toUInt32 - b.toUInt32

/-- The string in `destination` after `strncpy(destination, source, length)`, where the byte after
the `length` ones is zero. -/
def strncpy (source : List UInt8) (length : Nat) : List UInt8 :=
  (source.takeWhile (· ≠ 0)).take length

namespace Shell

/-- `shell` before `shell_init`: the boot code zeroed it. -/
def zero : Shell := ⟨fun _ => ⟨[], [], .help⟩, none, false⟩

def addShellCmd (index : Nat) (name description : List UInt8) (command : ShellFunction)
    (shell : Shell) : Shell :=
  if h : index < commandCount then
    { shell with
      commands := Function.update shell.commands ⟨index, h⟩
        ⟨strncpy name (commandNameMaxLength - 1),
          strncpy description (commandDescriptionMaxLength - 1), command⟩ }
  else
    shell

def init (shell : Shell) : Shell :=
  let shell : Shell := { shell with lastCommand := none, readPending := false }
  let shell := shell.addShellCmd 0 (str "help") (str "Display the commands list") .help
  let shell := shell.addShellCmd 1 (str "clear") (str "Clear the terminal screen") .clear
  let shell := shell.addShellCmd 2 (str "last") (str "Execute the last command") .last
  let shell := shell.addShellCmd 3 (str "pmultiboot") (str "Print multiboot infos") .pmultiboot
  let shell := shell.addShellCmd 4 (str "pstack") (str "Print the kernel stack") .pstack
  let shell := shell.addShellCmd 5 (str "reboot") (str "Reboot the system") .reboot
  let shell := shell.addShellCmd 6 (str "halt") (str "Halt the system") .halt
  let shell := shell.addShellCmd 7 (str "read") (str "Read a line and print it") .read
  let shell :=
    shell.addShellCmd 8 (str "azerty") (str "Switch to the Azerty keyboard layout") .azerty
  shell.addShellCmd 9 (str "qwerty") (str "Switch to the Qwerty keyboard layout") .qwerty

/-- The loop of `shell_execute` over the commands. -/
def findCommand (command : List UInt8) (shell : Shell) : Option CommandIndex :=
  (List.finRange commandCount).find? fun i => strcmp command (shell.commands i).name = 0

end Shell

/-- What the commands that look at the machine do: the characters they send to the terminal, and
whether they return. -/
structure CommandOutput where
  /-- If the walk over the memory map never ends: what has been sent so far. -/
  multiboot : List UInt8
  stack : List UInt8
  multibootReturns : Bool
  /-- `reboot` returns when the controller takes the command and the machine is not reset at once. -/
  rebootReturns : Bool

structure Kernel where
  terminal : Terminal
  shell : Shell
  keyboard : Keyboard
  /-- Not in the source: the lines passed to `shell_execute`, the last one first. -/
  executed : List (List UInt8)

/-- A piece of the arguments of a `printk` call whose format has no conversion but `%s`: literal
characters of the format, or the string of a `%s`. -/
inductive PrintkPiece where
  | text (chars : List UInt8)
  | string (s : List UInt8)

/-- `printk` sends the characters of its format one by one and every string in one call. -/
def Terminal.printk (pieces : List PrintkPiece) (t : Terminal) : Terminal :=
  pieces.foldl (fun t piece =>
    match piece with
    | .text chars => chars.foldl (fun t c => t.putcOutput c) t
    | .string s => t.putsOutput s) t

namespace Kernel

def mapTerminal (f : Terminal → Terminal) (k : Kernel) : Kernel :=
  { k with terminal := f k.terminal }

def printk (pieces : List PrintkPiece) (k : Kernel) : Kernel :=
  k.mapTerminal (Terminal.printk pieces)

/-- `"%s: %s\n"` of the name and the description of a command. -/
def helpLine (command : ShellCommand) : List PrintkPiece :=
  [.string command.name, .text (str ": "), .string command.description, .text (str "\n")]

def help (k : Kernel) : Kernel :=
  (List.finRange commandCount).foldl (fun k i => k.printk (helpLine (k.shell.commands i)))
    (k.printk [.text (str "Available commands:\n")])

/-- The functions other than `last`. `reboot` only waits for the controller and writes its command
port; `last` calling itself would never return. -/
def callFunction (output : CommandOutput) : ShellFunction → Kernel → Except Kernel Kernel
  | .help, k => .ok k.help
  | .clear, k => .ok (k.mapTerminal Terminal.clear)
  | .last, k => .error k
  | .pmultiboot, k =>
      let k := k.mapTerminal fun t => output.multiboot.foldl (fun t c => t.putcOutput c) t
      if output.multibootReturns then .ok k else .error k
  | .pstack, k => .ok (k.mapTerminal fun t => output.stack.foldl (fun t c => t.putcOutput c) t)
  | .reboot, k => if output.rebootReturns then .ok k else .error k
  | .halt, k => .error (k.printk [.text (str "System halted.\n")])
  | .read, k =>
      if k.shell.readPending then .ok k
      else .ok { k with shell := { k.shell with readPending := true } }
  | .azerty, k => .ok { k with keyboard := k.keyboard.setLayout .azerty }
  | .qwerty, k => .ok { k with keyboard := k.keyboard.setLayout .qwerty }

def last (output : CommandOutput) (k : Kernel) : Except Kernel Kernel :=
  match k.shell.lastCommand with
  | some i => callFunction output (k.shell.commands i).function k
  | none => .ok (k.printk [.text (str "No last command executed.\n")])

/-- `shell.commands[i].function()`. -/
def call (output : CommandOutput) (function : ShellFunction) (k : Kernel) : Except Kernel Kernel :=
  if function = .last then last output k else callFunction output function k

/-- The state after `shell_execute(command)` and its result. -/
def shellExecute (output : CommandOutput) (command : List UInt8) (k : Kernel) :
    Except Kernel (Kernel × Bool) :=
  let k := { k with executed := command :: k.executed }
  if k.shell.readPending then
    let k := k.mapTerminal Terminal.beginOutput
    let k := k.printk [.text (str "read: \""), .string command, .text (str "\"")]
    let k := k.mapTerminal (Terminal.endOutput true)
    .ok ({ k with shell := { k.shell with readPending := false } }, true)
  else
    match k.shell.findCommand command with
    | some i =>
        match call output (k.shell.commands i).function (k.mapTerminal Terminal.beginOutput) with
        | .ok k =>
            let k :=
              if strcmp command (str "last") ≠ 0 then
                { k with shell := { k.shell with lastCommand := some i } }
              else
                k
            .ok (k.mapTerminal (Terminal.endOutput !k.shell.readPending), true)
        | .error k => .error k
    | none =>
        let k := k.mapTerminal Terminal.beginOutput
        let k :=
          if command.headD 0 ≠ 0 then
            k.printk [.string command, .text (str ": command not found\n")]
          else
            k
        .ok (k.mapTerminal (Terminal.endOutput true), false)

end Kernel

end KernelFromScratch
