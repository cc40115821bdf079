import KernelFromScratch.Vga

/-!
# The keyboard

The tables and the modifier state of `interrupt/handler/keyboard.c`, and the functions of
`helper/char.c` it uses. Plain `char` values are bytes; the comparisons below agree on both readings
of a byte past `0x7F`.
-/

namespace KernelFromScratch

def islower (c : UInt8) : Bool := chr 'a' ≤ c && c ≤ chr 'z'

def isdigit (c : UInt8) : Bool := chr '0' ≤ c && c ≤ chr '9'

def toupper (c : UInt8) : UInt8 := if islower c then c - 32 else c

inductive KeyboardLayout where
  | qwerty
  | azerty
  deriving DecidableEq

def keyCaps : UInt8 := 0x3A
def keyBackspace : UInt8 := 0x0E
def keyEnter : UInt8 := 0x1C
def keyDelete : UInt8 := 0x53
def keyLeft : UInt8 := 0x4B
def keyRight : UInt8 := 0x4D
def keyUp : UInt8 := 0x48
def keyDown : UInt8 := 0x50
def keyCtrlPressed : UInt8 := 0x1D
def keyCtrlReleased : UInt8 := 0x9D
def keyLeftShiftPress : UInt8 := 0x2A
def keyLeftShiftRelease : UInt8 := 0xAA
def keyRightShiftPress : UInt8 := 0x36
def keyRightShiftRelease : UInt8 := 0xB6

def scancodeMapSize : Nat := 128

/-- An array given by designated initializers: every other element is zero. -/
def designated (initializers : List (UInt8 × UInt8)) (index : UInt8) : UInt8 :=
  (initializers.lookup index).getD 0

def maps : KeyboardLayout → UInt8 → UInt8
  | .qwerty => designated [
      (0x02, chr '1'), (0x03, chr '2'), (0x04, chr '3'),
      (0x05, chr '4'), (0x06, chr '5'), (0x07, chr '6'),
      (0x08, chr '7'), (0x09, chr '8'), (0x0A, chr '9'),
      (0x0B, chr '0'), (0x0C, chr '-'), (0x0D, chr '='),
      (0x10, chr 'q'), (0x11, chr 'w'), (0x12, chr 'e'),
      (0x13, chr 'r'), (0x14, chr 't'), (0x15, chr 'y'),
      (0x16, chr 'u'), (0x17, chr 'i'), (0x18, chr 'o'),
      (0x19, chr 'p'), (0x1A, chr '['), (0x1B, chr ']'),
      (0x1E, chr 'a'), (0x1F, chr 's'), (0x20, chr 'd'),
      (0x21, chr 'f'), (0x22, chr 'g'), (0x23, chr 'h'),
      (0x24, chr 'j'), (0x25, chr 'k'), (0x26, chr 'l'),
      (0x27, chr ';'), (0x28, 0x27), (0x29, 0x60),
      (0x2B, 0x5C),
      (0x2C, chr 'z'), (0x2D, chr 'x'), (0x2E, chr 'c'),
      (0x2F, chr 'v'), (0x30, chr 'b'), (0x31, chr 'n'),
      (0x32, chr 'm'), (0x33, chr ','), (0x34, chr '.'),
      (0x35, chr '/'),
      (0x39, chr ' ')]
  | .azerty => designated [
      (0x02, chr '&'), (0x03, 0x82), (0x04, 0x22),
      (0x05, 0x27), (0x06, chr '('), (0x07, chr '-'),
      (0x08, 0x8A), (0x09, chr '_'), (0x0A, 0x87),
      (0x0B, 0x85), (0x0C, chr ')'), (0x0D, chr '='),
      (0x10, chr 'a'), (0x11, chr 'z'), (0x12, chr 'e'),
      (0x13, chr 'r'), (0x14, chr 't'), (0x15, chr 'y'),
      (0x16, chr 'u'), (0x17, chr 'i'), (0x18, chr 'o'),
      (0x19, chr 'p'), (0x1A, chr '^'), (0x1B, chr '$'),
      (0x1E, chr 'q'), (0x1F, chr 's'), (0x20, chr 'd'),
      (0x21, chr 'f'), (0x22, chr 'g'), (0x23, chr 'h'),
      (0x24, chr 'j'), (0x25, chr 'k'), (0x26, chr 'l'),
      (0x27, chr 'm'), (0x28, 0x97), (0x29, 0xFD),
      (0x2B, chr '*'),
      (0x2C, chr 'w'), (0x2D, chr 'x'), (0x2E, chr 'c'),
      (0x2F, chr 'v'), (0x30, chr 'b'), (0x31, chr 'n'),
      (0x32, chr ','), (0x33, chr ';'), (0x34, chr ':'),
      (0x35, chr '!'),
      (0x39, chr ' '), (0x56, chr '<')]

def upperMaps : KeyboardLayout → UInt8 → UInt8
  | .qwerty => designated [
      (0x02, chr '!'), (0x03, chr '@'), (0x04, chr '#'),
      (0x05, chr '$'), (0x06, chr '%'), (0x07, chr '^'),
      (0x08, chr '&'), (0x09, chr '*'), (0x0A, chr '('),
      (0x0B, chr ')'), (0x0C, chr '_'), (0x0D, chr '+'),
      (0x1A, 0x7B), (0x1B, 0x7D),
      (0x27, chr ':'), (0x28, 0x22), (0x29, chr '~'),
      (0x2B, chr '|'),
      (0x33, chr '<'), (0x34, chr '>'), (0x35, chr '?')]
  | .azerty => designated [
      (0x02, chr '1'), (0x03, chr '2'), (0x04, chr '3'),
      (0x05, chr '4'), (0x06, chr '5'), (0x07, chr '6'),
      (0x08, chr '7'), (0x09, chr '8'), (0x0A, chr '9'),
      (0x0B, chr '0'), (0x0C, 0xF8), (0x0D, chr '+'),
      (0x1B, 0x9C),
      (0x28, chr '%'), (0x2B, 0xE6),
      (0x32, chr '?'), (0x33, chr '.'), (0x34, chr '/'),
      (0x35, 0x15),
      (0x56, chr '>')]

structure Keyboard where
  isLock : Bool
  isCtrl : Bool
  isLeftShift : Bool
  isRightShift : Bool
  currentLayout : KeyboardLayout
  deriving DecidableEq

namespace Keyboard

/-- The statics at boot. -/
def boot : Keyboard := ⟨false, false, false, false, .qwerty⟩

def setLayout (newLayout : KeyboardLayout) (keyboard : Keyboard) : Keyboard :=
  { keyboard with currentLayout := newLayout }

/-- The first `switch` of `handle_scancode`: the cases that return. -/
def modifier (scancode : UInt8) (keyboard : Keyboard) : Option Keyboard :=
  if scancode = keyLeftShiftPress then some { keyboard with isLeftShift := true }
  else if scancode = keyLeftShiftRelease then some { keyboard with isLeftShift := false }
  else if scancode = keyRightShiftPress then some { keyboard with isRightShift := true }
  else if scancode = keyRightShiftRelease then some { keyboard with isRightShift := false }
  else if scancode = keyCtrlPressed then some { keyboard with isCtrl := true }
  else if scancode = keyCtrlReleased then some { keyboard with isCtrl := false }
  else none

/-- The character `c` of a scancode, zero when it has none. -/
def character (scancode : UInt8) (keyboard : Keyboard) : UInt8 :=
  let c := maps keyboard.currentLayout scancode
  if xor keyboard.isLock (keyboard.isLeftShift || keyboard.isRightShift) then
    if upperMaps keyboard.currentLayout scancode ≠ 0 then
      upperMaps keyboard.currentLayout scancode
    else
      toupper c
  else
    c

/-- `(c - '1' + 10) % 10`: the digits in the order of the keyboard row. -/
def screenOfDigit (c : UInt8) : UInt8 := (c - chr '1' + 10) % 10

end Keyboard

end KernelFromScratch
