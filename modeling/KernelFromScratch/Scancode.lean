import KernelFromScratch.Shell

/-!
# Handling scancodes

`handle_scancode` and runs of it: the sequence of scancodes the main loop takes out of the key
buffer, each with what the commands it may run print.
-/

namespace KernelFromScratch

namespace Kernel

def execute (output : CommandOutput) (k : Kernel) : Except Kernel Kernel :=
  let read := k.mapTerminal (Terminal.getInputAccess 256)
  match k.terminal.getInput 256 with
  | some buffer => (read.shellExecute output buffer).map Prod.fst
  | none => .ok read

/-- The last `switch` of `handle_scancode`. -/
def handleSpecial (output : CommandOutput) (scancode : UInt8) (k : Kernel) :
    Except Kernel Kernel :=
  if scancode = keyEnter then
    k.execute output
  else if scancode = keyBackspace then
    .ok (k.mapTerminal (Terminal.delInput 1))
  else if scancode = keyDelete then
    .ok (k.mapTerminal (Terminal.delInputForward 1))
  else if scancode = keyCaps then
    .ok { k with keyboard := { k.keyboard with isLock := !k.keyboard.isLock } }
  else if scancode = keyUp then
    .ok (k.mapTerminal (Terminal.move .up))
  else if scancode = keyDown then
    .ok (k.mapTerminal (Terminal.move .down))
  else if scancode = keyLeft then
    .ok (k.mapTerminal (Terminal.move .left))
  else if scancode = keyRight then
    .ok (k.mapTerminal (Terminal.move .right))
  else
    .ok k

def handleScancode (output : CommandOutput) (scancode : UInt8) (k : Kernel) :
    Except Kernel Kernel :=
  match k.keyboard.modifier scancode with
  | some keyboard => .ok { k with keyboard := keyboard }
  | none =>
    if scancodeMapSize ≤ scancode.toNat then
      .ok k
    else
      let c := k.keyboard.character scancode
      if k.keyboard.isCtrl then
        if !k.shell.readPending && isdigit c then
          .ok (k.mapTerminal (Terminal.switchScreen (Keyboard.screenOfDigit c)))
        else
          .ok k
      else if c ≠ 0 then
        .ok (k.mapTerminal (Terminal.putcInput c))
      else
        k.handleSpecial output scancode

/-- After `shell_init` and `terminal_init`. -/
def boot (vga : Vga) : Kernel :=
  ⟨(Terminal.boot vga).init, Shell.zero.init, .boot, []⟩

end Kernel

/-- A scancode to handle, and what the commands print meanwhile. -/
structure KeyEvent where
  scancode : UInt8
  output : CommandOutput

/-- Scancodes handled while no command prints the state of the machine. -/
def keys (scancodes : List UInt8) : List KeyEvent :=
  scancodes.map fun scancode => ⟨scancode, ⟨[], [], true, true⟩⟩

namespace Kernel

def handle (event : KeyEvent) (k : Kernel) : Except Kernel Kernel :=
  k.handleScancode event.output event.scancode

def handleAll (events : List KeyEvent) (k : Kernel) : Except Kernel Kernel :=
  events.foldlM (fun k event => k.handle event) k

end Kernel

end KernelFromScratch
