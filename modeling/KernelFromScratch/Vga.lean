import Mathlib.Logic.Function.Basic
import Mathlib.Data.BitVec

/-!
# The VGA text device

`io/vga.c` over the two things it reaches: the text memory at `0xB8000`, and the CRTC register file
behind the index port `0x3D4` and the data port `0x3D5`. Any other port is a different device: a
read of it returns whatever that device answers and a write to it leaves the CRTC alone.
-/

namespace KernelFromScratch

/-- The byte of an ASCII character constant. -/
def chr (c : Char) : UInt8 := c.toNat.toUInt8

/-- The bytes of a string literal, without its terminating NUL. -/
def str (s : String) : List UInt8 := s.toList.map chr

def newline : UInt8 := 10

def space : UInt8 := 32

@[simp]
def vgaWidth : Nat := 80

@[simp]
def vgaHeight : Nat := 25

def vgaCursorPortCommand : UInt16 := 0x3D4

def vgaCursorPortData : UInt16 := 0x3D5

def vgaCursorPortHigh : UInt8 := 0x0F

def vgaCursorPortLow : UInt8 := 0x0E

structure Vga where
  /-- The 16-bit cells from `0xB8000` on. -/
  memory : Nat → UInt16
  crtcIndex : UInt8
  crtc : UInt8 → UInt8
  /-- What a read of a port outside the CRTC pair returns. -/
  otherPort : UInt16 → UInt8

namespace Vga

def outb (port : UInt16) (value : UInt8) (vga : Vga) : Vga :=
  if port = vgaCursorPortCommand then
    { vga with crtcIndex := value }
  else if port = vgaCursorPortData then
    { vga with crtc := Function.update vga.crtc vga.crtcIndex value }
  else
    vga

def inb (port : UInt16) (vga : Vga) : UInt8 :=
  if port = vgaCursorPortData then vga.crtc vga.crtcIndex else vga.otherPort port

end Vga

def getColor (foreground background : UInt8) : UInt8 :=
  (background <<< 4) ||| (foreground &&& 0x0F)

def getPosition (row column : UInt8) : UInt16 :=
  .ofNat (row.toNat * vgaWidth + column.toNat)

def getCell (character fgColor bgColor : UInt8) : UInt16 :=
  character.toUInt16 ||| ((getColor fgColor bgColor).toUInt16 <<< 8)

namespace Vga

def setCursorVisibility (visible : Bool) (vga : Vga) : Vga :=
  let cursorStart := vga.inb (vgaCursorPortCommand + 0x0A)
  let cursorEnd := vga.inb (vgaCursorPortCommand + 0x0B)
  let cursorStart' := if visible then cursorStart &&& 0xC0 else cursorStart ||| 0x20
  let cursorEnd' := if visible then cursorEnd &&& 0xE0 else cursorEnd
  (vga.outb (vgaCursorPortCommand + 0x0A) cursorStart').outb (vgaCursorPortCommand + 0x0B)
    cursorEnd'

def putCursor (x y : UInt8) (vga : Vga) : Vga :=
  let position := getPosition y x
  (((vga.outb vgaCursorPortCommand vgaCursorPortHigh).outb vgaCursorPortData
    (position &&& 0xFF).toUInt8).outb vgaCursorPortCommand vgaCursorPortLow).outb
    vgaCursorPortData (position >>> 8).toUInt8

def setCell (c fgColor bgColor x y : UInt8) (vga : Vga) : Vga :=
  { vga with
    memory := Function.update vga.memory (getPosition y x).toNat (getCell c fgColor bgColor) }

/-- The cursor location the CRTC holds: register `0x0E` is its high byte, `0x0F` its low byte. -/
def cursorLocation (vga : Vga) : Nat :=
  (vga.crtc 0x0E).toNat * 256 + (vga.crtc 0x0F).toNat

end Vga

@[simp]
theorem Vga.setCursorVisibility_eq (visible : Bool) (vga : Vga) :
    vga.setCursorVisibility visible = vga := by
  simp [setCursorVisibility, outb, vgaCursorPortCommand, vgaCursorPortData]

@[simp]
theorem Vga.putCursor_memory (x y : UInt8) (vga : Vga) :
    (vga.putCursor x y).memory = vga.memory := by
  simp [putCursor, outb, vgaCursorPortCommand, vgaCursorPortData]

theorem getPosition_toNat (row column : UInt8) :
    (getPosition row column).toNat = row.toNat * 80 + column.toNat := by
  have hrow := row.toNat_lt
  have hcolumn := column.toNat_lt
  simp [getPosition]
  omega

/-- The four port writes of `vga_put_cursor` leave the location of `(x, y)` in the CRTC, whatever
the index port held. -/
theorem Vga.cursorLocation_putCursor (x y : UInt8) (vga : Vga) :
    (vga.putCursor x y).cursorLocation = y.toNat * 80 + x.toNat := by
  have hlow : ((getPosition y x &&& 0xFF).toUInt8).toNat = (y.toNat * 80 + x.toNat) % 256 := by
    have hmask := Nat.and_two_pow_sub_one_eq_mod ((getPosition y x).toNat % 256) 8
    rw [← getPosition_toNat]
    simpa using hmask
  have hhigh : ((getPosition y x >>> 8).toUInt8).toNat = (y.toNat * 80 + x.toNat) / 256 := by
    rw [← getPosition_toNat]
    have hlt := (getPosition y x).toNat_lt
    simp [Nat.shiftRight_eq_div_pow]
    omega
  have hcrtc : (vga.putCursor x y).cursorLocation
      = ((getPosition y x >>> 8).toUInt8).toNat * 256
        + ((getPosition y x &&& 0xFF).toUInt8).toNat := by
    simp [cursorLocation, putCursor, outb, vgaCursorPortCommand, vgaCursorPortData,
      vgaCursorPortHigh, vgaCursorPortLow]
  rw [hcrtc, hlow, hhigh]
  omega

theorem Vga.setCell_memory_self (c fgColor bgColor x y : UInt8) (vga : Vga) :
    (vga.setCell c fgColor bgColor x y).memory (y.toNat * 80 + x.toNat)
      = getCell c fgColor bgColor := by
  simp [setCell, getPosition_toNat]

theorem Vga.setCell_memory_of_ne {c fgColor bgColor x y : UInt8} {vga : Vga} {position : Nat}
    (hne : position ≠ y.toNat * 80 + x.toNat) :
    (vga.setCell c fgColor bgColor x y).memory position = vga.memory position := by
  simp [setCell, getPosition_toNat, Function.update_of_ne hne]

end KernelFromScratch
