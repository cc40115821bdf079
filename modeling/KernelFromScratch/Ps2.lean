import KernelFromScratch.Library.Mailbox
import KernelFromScratch.Mouse

/-!
# Setting up the mouse

`mouse_init` and the functions of `interrupt/handler/mouse.c` it uses, on a PS/2 controller that
takes its time: the byte written last is in the input buffer for some number of port accesses.
-/

namespace KernelFromScratch

def ps2Timeout : Nat := 10000
def ps2Retries : Nat := 3

def ps2DataPort : UInt16 := 0x60
def ps2StatusPort : UInt16 := 0x64
def ps2CommandPort : UInt16 := 0x64

def ps2StatusInputFull : UInt8 := .ofNat (1 <<< 1)

def ps2ReadConfig : UInt8 := 0x20
def ps2WriteConfig : UInt8 := 0x60
def ps2DisableMouse : UInt8 := 0xA7
def ps2EnableMouse : UInt8 := 0xA8
def ps2DisableKeyboard : UInt8 := 0xAD
def ps2EnableKeyboard : UInt8 := 0xAE
def ps2WriteToMouse : UInt8 := 0xD4

def ps2ConfigMouseIrq : UInt8 := .ofNat (1 <<< 1)
def ps2ConfigMouseClock : UInt8 := .ofNat (1 <<< 5)

def mouseGetId : UInt8 := 0xF2
def mouseSetSampleRate : UInt8 := 0xF3
def mouseEnableData : UInt8 := 0xF4
def mouseSetDefaults : UInt8 := 0xF6
def mouseAck : UInt8 := 0xFA
def mouseIdWheel : UInt8 := 3

structure Ps2Write where
  port : UInt16
  byte : UInt8
  deriving DecidableEq

/-- How long the controller takes for each byte written to it, and what each access would read from
the two ports. Whatever the devices answer is in what is read. -/
structure Ps2Controller where
  delay : Nat → Nat
  delay_lt : ∀ i, delay i < ps2Timeout
  status : Nat → UInt8
  data : Nat → UInt8

structure Ps2 where
  input : Mailbox Ps2Write
  /-- The port accesses so far. -/
  accesses : Nat

namespace Ps2

def start : Ps2 := ⟨.empty, 0⟩

def access (s : Ps2) : Ps2 := { input := s.input.access, accesses := s.accesses + 1 }

/-- A write to port `0x80`. -/
def ioWait (s : Ps2) : Ps2 := s.access

variable (controller : Ps2Controller)

/-- Bit 1 is the one of the input buffer. -/
def status (s : Ps2) : UInt8 :=
  (controller.status s.accesses &&& ~~~ps2StatusInputFull)
    ||| if s.input.full then ps2StatusInputFull else 0

def inb (port : UInt16) (s : Ps2) : UInt8 × Ps2 :=
  (if port = ps2StatusPort then s.status controller else controller.data s.accesses, s.access)

def outb (port : UInt16) (byte : UInt8) (s : Ps2) : Ps2 where
  input := s.input.write ⟨port, byte⟩ (controller.delay s.input.sent.length)
  accesses := s.accesses + 1

/-- The turns of the loop of `wait_input_empty` that are left. -/
def waitInputEmptyFor : Nat → Ps2 → Ps2
  | 0, s => s
  | left + 1, s =>
    let (status, s) := s.inb controller ps2StatusPort
    if status &&& ps2StatusInputFull ≠ 0 then waitInputEmptyFor left s.ioWait else s

def waitInputEmpty (s : Ps2) : Ps2 := s.waitInputEmptyFor controller ps2Timeout

def waitOutputFullFor : Nat → Ps2 → Bool × Ps2
  | 0, s => (false, s)
  | left + 1, s =>
    let (status, s) := s.inb controller ps2StatusPort
    if status &&& ps2StatusOutputFull ≠ 0 then (true, s) else waitOutputFullFor left s.ioWait

def waitOutputFull (s : Ps2) : Bool × Ps2 := s.waitOutputFullFor controller ps2Timeout

/-- `wait_output_full() && inb(PS2_DATA_PORT) == expected`. -/
def answers (expected : UInt8) (s : Ps2) : Bool × Ps2 :=
  let (full, s) := s.waitOutputFull controller
  if full then
    let (answer, s) := s.inb controller ps2DataPort
    (answer = expected, s)
  else
    (false, s)

/-- The tries of `mouse_write` that are left. -/
def mouseWriteFor (data : UInt8) : Nat → Ps2 → Bool × Ps2
  | 0, s => (false, s)
  | left + 1, s =>
    let s := s.waitInputEmpty controller
    let s := s.outb controller ps2CommandPort ps2WriteToMouse
    let s := s.waitInputEmpty controller
    let s := s.outb controller ps2DataPort data
    let (acknowledged, s) := s.answers controller mouseAck
    if acknowledged then (true, s) else mouseWriteFor data left s

def mouseWrite (data : UInt8) (s : Ps2) : Bool × Ps2 := s.mouseWriteFor controller data ps2Retries

/-- Calls of `mouse_write` whose results are not used. -/
def mouseWrites (bytes : List UInt8) (s : Ps2) : Ps2 :=
  bytes.foldl (fun s data => (s.mouseWrite controller data).2) s

/-! `mouse_init`, from one comment of it to the next. -/

def disableDevices (s : Ps2) : Ps2 :=
  let s := s.outb controller ps2CommandPort ps2DisableMouse
  let s := s.outb controller ps2CommandPort ps2DisableKeyboard
  (s.inb controller ps2DataPort).2

def readConfig (s : Ps2) : UInt8 × Ps2 :=
  let s := s.waitInputEmpty controller
  let s := s.outb controller ps2CommandPort ps2ReadConfig
  let s := (s.waitOutputFull controller).2
  s.inb controller ps2DataPort

/-- The two assignments to `config`. -/
def modifiedConfig (config : UInt8) : UInt8 :=
  (config ||| ps2ConfigMouseIrq) &&& ~~~ps2ConfigMouseClock

def writeConfig (config : UInt8) (s : Ps2) : Ps2 :=
  let s := s.waitInputEmpty controller
  let s := s.outb controller ps2CommandPort ps2WriteConfig
  let s := s.waitInputEmpty controller
  s.outb controller ps2DataPort config

def enableDevices (s : Ps2) : Ps2 :=
  let s := s.outb controller ps2CommandPort ps2EnableKeyboard
  s.outb controller ps2CommandPort ps2EnableMouse

/-- The result is `has_scroll_wheel`, false at boot. -/
def setUpMouse (s : Ps2) : Bool × Ps2 :=
  let (present, s) := s.mouseWrite controller mouseSetDefaults
  if present then
    let s := s.mouseWrites controller
      [mouseSetSampleRate, 200, mouseSetSampleRate, 100, mouseSetSampleRate, 80, mouseGetId]
    let (wheel, s) := s.answers controller mouseIdWheel
    (wheel, (s.mouseWrite controller mouseEnableData).2)
  else
    (false, s)

def mouseInit (s : Ps2) : Bool × Ps2 :=
  let s := s.disableDevices controller
  let (config, s) := s.readConfig controller
  let s := s.writeConfig controller (modifiedConfig config)
  let s := s.enableDevices controller
  s.setUpMouse controller

end Ps2

/-! ### What the controller makes of the bytes -/

structure Ps2Settings where
  keyboardEnabled : Bool
  mouseEnabled : Bool
  /-- The configuration byte stored last. -/
  config : Option UInt8
  deriving DecidableEq

/-- The settings, and the command the next data byte belongs to. -/
structure Ps2Devices where
  settings : Ps2Settings
  command : Option UInt8

namespace Ps2Devices

def obey (command : UInt8) (settings : Ps2Settings) : Ps2Settings :=
  if command = ps2DisableMouse then { settings with mouseEnabled := false }
  else if command = ps2EnableMouse then { settings with mouseEnabled := true }
  else if command = ps2DisableKeyboard then { settings with keyboardEnabled := false }
  else if command = ps2EnableKeyboard then { settings with keyboardEnabled := true }
  else settings

def receive (written : Ps2Write) (d : Ps2Devices) : Ps2Devices :=
  if written.port = ps2CommandPort then
    ⟨obey written.byte d.settings, some written.byte⟩
  else if d.command = some ps2WriteConfig then
    ⟨{ d.settings with config := some written.byte }, none⟩
  else
    ⟨d.settings, none⟩

def receiveAll (bytes : List Ps2Write) (d : Ps2Devices) : Ps2Devices :=
  bytes.foldl (fun d written => d.receive written) d

end Ps2Devices

end KernelFromScratch
