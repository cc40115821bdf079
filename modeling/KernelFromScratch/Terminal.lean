import KernelFromScratch.Library.Loop
import KernelFromScratch.Vga
import Mathlib.Data.Fin.VecNotation

/-!
# The terminal

`terminal.c`. Every function maps the whole terminal state (the ten screens, the index of the shown
one and the video device) to the next one. The state also carries what the source does not: the list
of the accesses the functions made (array indices, rows handed to `y_to_vga`, video cells written)
and a count of the shifts of each buffer. No function reads these back.
-/

namespace KernelFromScratch

abbrev terminalScreenCount : Nat := 10

instance : NeZero terminalScreenCount := ⟨by decide⟩

@[simp]
def terminalExtraLines : Nat := 35 - vgaHeight

@[simp]
def terminalWidth : Nat := vgaWidth

@[simp]
def terminalHeight : Nat := vgaHeight + terminalExtraLines

def terminalPrompt : List UInt8 := str "$ "

abbrev ScreenIndex := Fin terminalScreenCount

/-- A VGA attribute byte a screen: background in the high 4 bits, foreground in the low 4 bits. -/
def screenColors : ScreenIndex → UInt8 :=
  ![0x07, 0x1F, 0x76, 0xF0, 0x30, 0x4E, 0x5F, 0x6F, 0x0A, 0x0C]

structure ScreenCell where
  character : UInt8
  fgColor : BitVec 4
  bgColor : BitVec 4
  deriving DecidableEq

/-- Storing a byte in a 4-bit field keeps its low bits. -/
def colorField (color : UInt8) : BitVec 4 := color.toBitVec.setWidth 4

def colorByte (field : BitVec 4) : UInt8 := .ofBitVec (field.setWidth 8)

/-- The 16-bit value `vga_set_cell` stores for a cell. -/
def ScreenCell.encode (cell : ScreenCell) : UInt16 :=
  getCell cell.character (colorByte cell.fgColor) (colorByte cell.bgColor)

structure Screen where
  cursorX : UInt16
  cursorY : UInt16
  scrollY : UInt16
  /-- `-1` while output is printed. -/
  inputSize : Int8
  inputCursor : Int8
  fgColor : UInt8
  bgColor : UInt8
  initialized : Bool
  /-- `data[y][x]`. -/
  data : Nat → Nat → ScreenCell
  /-- Not in the source: how often `move_screen_up` ran since the last `terminal_clear`. -/
  shifts : Nat

/-- The content of a cell of this screen that holds `c`. -/
def Screen.cell (screen : Screen) (c : UInt8) : ScreenCell :=
  ⟨c, colorField screen.fgColor, colorField screen.bgColor⟩

def Screen.setData (y x : Nat) (cell : ScreenCell) (screen : Screen) : Screen :=
  { screen with data := Function.update screen.data y (Function.update (screen.data y) x cell) }

/-- The screens before `terminal_init`: the boot code zeroed them. -/
def Screen.zero : Screen :=
  ⟨0, 0, 0, 0, 0, 0, 0, false, fun _ _ => ⟨0, 0, 0⟩, 0⟩

inductive Access where
  /-- A read or a write of `data[y][x]`. -/
  | data (y x : Nat)
  /-- A read or a write of `after_cursor[index]`. -/
  | afterCursor (index : Nat)
  /-- A call of `y_to_vga(row)` while the screen is scrolled by `scroll`. -/
  | yToVga (row scroll : Nat)
  /-- A write of the video cell at `position`. -/
  | vgaCell (position : Nat)
  /-- An iteration of the first loop of `align_scroll_to_cursor`. -/
  | alignUp

structure Terminal where
  screens : ScreenIndex → Screen
  terminalIndex : ScreenIndex
  vga : Vga
  accesses : List Access

/-- `(uint32_t) z`. -/
def uint32 (z : Int) : Nat := (z % 2 ^ 32).toNat

/-- `(int32_t) n`. -/
def int32 (n : Nat) : Int := Int.bmod n (2 ^ 32)

def int8Max : Int := 127

namespace Terminal

def currentScreen (t : Terminal) : Screen := t.screens t.terminalIndex

def modifyScreen (f : Screen → Screen) (t : Terminal) : Terminal :=
  { t with screens := Function.update t.screens t.terminalIndex (f t.currentScreen) }

def access (a : Access) (t : Terminal) : Terminal := { t with accesses := a :: t.accesses }

def vgaSetCell (c fgColor bgColor x y : UInt8) (t : Terminal) : Terminal :=
  { t.access (.vgaCell (getPosition y x).toNat) with vga := t.vga.setCell c fgColor bgColor x y }

def vgaPutCursor (x y : UInt8) (t : Terminal) : Terminal := { t with vga := t.vga.putCursor x y }

def vgaSetCursorVisibility (visible : Bool) (t : Terminal) : Terminal :=
  { t with vga := t.vga.setCursorVisibility visible }

/-- The body of the two loops of `put_screen`. -/
def putScreenCell (x y : Nat) (t : Terminal) : Terminal :=
  let cell := t.currentScreen.data y x
  (t.access (.data y x)).vgaSetCell cell.character (colorByte cell.fgColor)
    (colorByte cell.bgColor) (.ofNat x) (.ofNat (y - t.currentScreen.scrollY.toNat))

def putScreen (t : Terminal) : Terminal :=
  forLoop 0 terminalWidth (fun x t =>
    forLoop t.currentScreen.scrollY.toNat (t.currentScreen.scrollY.toNat + vgaHeight)
      (fun y t => t.putScreenCell x y) t) t

def isCursorAboveVisible (t : Terminal) : Prop :=
  t.currentScreen.cursorY < t.currentScreen.scrollY

instance (t : Terminal) : Decidable t.isCursorAboveVisible :=
  inferInstanceAs (Decidable (_ < _))

def isCursorBelowVisible (t : Terminal) : Prop :=
  t.currentScreen.scrollY.toNat + vgaHeight ≤ t.currentScreen.cursorY.toNat

instance (t : Terminal) : Decidable t.isCursorBelowVisible :=
  inferInstanceAs (Decidable (_ ≤ _))

def canScrollUp (t : Terminal) : Prop := 0 < t.currentScreen.scrollY

instance (t : Terminal) : Decidable t.canScrollUp :=
  inferInstanceAs (Decidable (_ < _))

def canScrollDown (t : Terminal) : Prop :=
  t.currentScreen.scrollY.toNat + vgaHeight < terminalHeight ∧ t.isCursorBelowVisible

instance (t : Terminal) : Decidable t.canScrollDown :=
  inferInstanceAs (Decidable (_ ∧ _))

/-- The value of `y_to_vga(row)`; `yToVgaCall` records the call. -/
def yToVga (row : Nat) (t : Terminal) : UInt8 :=
  .ofNat row - t.currentScreen.scrollY.toUInt8

def yToVgaCall (row : Nat) (t : Terminal) : Terminal :=
  t.access (.yToVga row t.currentScreen.scrollY.toNat)

/-- `vga_put_cursor(screen->cursor_x, y_to_vga(screen->cursor_y))`. -/
def showCursor (t : Terminal) : Terminal :=
  (t.yToVgaCall t.currentScreen.cursorY.toNat).vgaPutCursor t.currentScreen.cursorX.toUInt8
    (t.yToVga t.currentScreen.cursorY.toNat)

def scrollDown (t : Terminal) : Terminal :=
  ((t.modifyScreen fun screen => { screen with scrollY := screen.scrollY + 1 }).putScreen).showCursor

def scrollUp (t : Terminal) : Terminal :=
  ((t.modifyScreen fun screen => { screen with scrollY := screen.scrollY - 1 }).putScreen).showCursor

/-- The three stores into the fields of `data[y][x]`. -/
def writeCell (y x : Nat) (c : UInt8) (t : Terminal) : Terminal :=
  (t.access (.data y x)).modifyScreen fun screen => screen.setData y x (screen.cell c)

/-- The accesses of the `memmove` in `move_screen_up`: every row but the last is written from the
row below it. -/
def memmoveAccesses : List Access :=
  (List.range (terminalHeight - 1)).flatMap fun y =>
    (List.range terminalWidth).flatMap fun x => [.data y x, .data (y + 1) x]

def memmoveRows (t : Terminal) : Terminal :=
  ({ t with accesses := memmoveAccesses ++ t.accesses } : Terminal).modifyScreen fun screen =>
    { screen with
      data := fun y x =>
        if y < terminalHeight - 1 ∧ x < terminalWidth then screen.data (y + 1) x
        else screen.data y x }

/-- The loop of `move_screen_up` over the last row. -/
def blankLastRow (t : Terminal) : Terminal :=
  forLoop 0 terminalWidth (fun x t => t.writeCell (terminalHeight - 1) x space) t

def moveScreenUp (t : Terminal) : Terminal :=
  t.memmoveRows.blankLastRow.modifyScreen fun screen =>
    { screen with cursorY := screen.cursorY - 1, shifts := screen.shifts + 1 }

/-! ### Redrawing and logging leave the screens alone -/

@[simp]
theorem screens_access (a : Access) (t : Terminal) : (t.access a).screens = t.screens := rfl

@[simp]
theorem terminalIndex_access (a : Access) (t : Terminal) :
    (t.access a).terminalIndex = t.terminalIndex := rfl

@[simp]
theorem currentScreen_access (a : Access) (t : Terminal) :
    (t.access a).currentScreen = t.currentScreen := rfl

@[simp]
theorem currentScreen_modifyScreen (f : Screen → Screen) (t : Terminal) :
    (t.modifyScreen f).currentScreen = f t.currentScreen := by
  simp [modifyScreen, currentScreen]

@[simp]
theorem terminalIndex_modifyScreen (f : Screen → Screen) (t : Terminal) :
    (t.modifyScreen f).terminalIndex = t.terminalIndex := rfl

theorem screens_putScreenCell (x y : Nat) (t : Terminal) :
    (t.putScreenCell x y).screens = t.screens := rfl

theorem terminalIndex_putScreenCell (x y : Nat) (t : Terminal) :
    (t.putScreenCell x y).terminalIndex = t.terminalIndex := rfl

@[simp]
theorem screens_putScreen (t : Terminal) : t.putScreen.screens = t.screens :=
  forLoop_unchanged screens
    (fun x t => forLoop_unchanged screens (fun y t => screens_putScreenCell x y t) t) t

@[simp]
theorem terminalIndex_putScreen (t : Terminal) : t.putScreen.terminalIndex = t.terminalIndex :=
  forLoop_unchanged terminalIndex
    (fun x t => forLoop_unchanged terminalIndex (fun y t => terminalIndex_putScreenCell x y t) t) t

@[simp]
theorem currentScreen_putScreen (t : Terminal) : t.putScreen.currentScreen = t.currentScreen := by
  simp [currentScreen]

@[simp]
theorem screens_showCursor (t : Terminal) : t.showCursor.screens = t.screens := rfl

@[simp]
theorem terminalIndex_showCursor (t : Terminal) :
    t.showCursor.terminalIndex = t.terminalIndex := rfl

@[simp]
theorem currentScreen_showCursor (t : Terminal) : t.showCursor.currentScreen = t.currentScreen :=
  rfl

@[simp]
theorem currentScreen_scrollDown (t : Terminal) :
    t.scrollDown.currentScreen
      = { t.currentScreen with scrollY := t.currentScreen.scrollY + 1 } := by
  simp [scrollDown]

@[simp]
theorem currentScreen_scrollUp (t : Terminal) :
    t.scrollUp.currentScreen
      = { t.currentScreen with scrollY := t.currentScreen.scrollY - 1 } := by
  simp [scrollUp]

/-! ### Moving the cursor and printing -/

/-- `while (is_cursor_above_visible()) scroll_up();` -/
def alignScrollUp (t : Terminal) : Terminal :=
  if t.isCursorAboveVisible then alignScrollUp (t.access .alignUp).scrollUp else t
termination_by t.currentScreen.scrollY.toNat
decreasing_by
  rename_i habove
  have hlt : t.currentScreen.cursorY.toNat < t.currentScreen.scrollY.toNat := habove
  simp [UInt16.toNat_sub]
  omega

/-- `while (is_cursor_below_visible()) scroll_down();` -/
def alignScrollDown (t : Terminal) : Terminal :=
  if t.isCursorBelowVisible then alignScrollDown t.scrollDown else t
termination_by 2 ^ 16 - t.currentScreen.scrollY.toNat
decreasing_by
  rename_i hbelow
  simp only [isCursorBelowVisible, vgaHeight] at hbelow
  have hcursor := t.currentScreen.cursorY.toNat_lt
  simp [UInt16.toNat_add]
  omega

def alignScrollToCursor (t : Terminal) : Terminal := t.alignScrollUp.alignScrollDown

def cursorPosition (t : Terminal) : Nat :=
  t.currentScreen.cursorY.toNat * terminalWidth + t.currentScreen.cursorX.toNat

/-- The cell `cell_at(position)` points to. -/
def cellAt (position : Nat) (t : Terminal) : ScreenCell :=
  t.currentScreen.data (position / terminalWidth) (position % terminalWidth)

def cellAtAccess (position : Nat) (t : Terminal) : Terminal :=
  t.access (.data (position / terminalWidth) (position % terminalWidth))

def moveCursor (offset : Int) (t : Terminal) : Terminal :=
  let position := uint32 (t.cursorPosition + offset)
  ((t.modifyScreen fun screen =>
    { screen with
      cursorX := .ofNat (position % terminalWidth)
      cursorY := .ofNat (position / terminalWidth) }).alignScrollToCursor).showCursor

/-- Store `c` into `data[y][x]` and draw that cell. -/
def putCell (y x : Nat) (c : UInt8) (t : Terminal) : Terminal :=
  let cell := t.currentScreen.cell c
  ((t.writeCell y x c).yToVgaCall y).vgaSetCell c (colorByte cell.fgColor)
    (colorByte cell.bgColor) (.ofNat x) (t.yToVga y)

/-- The `'\n'` branch of `putc`. -/
def putNewline (t : Terminal) : Terminal :=
  let t := if terminalHeight ≤ t.currentScreen.cursorY.toNat + 1 then t.moveScreenUp else t
  let t := forLoop t.currentScreen.cursorX.toNat terminalWidth
    (fun x t => t.putCell t.currentScreen.cursorY.toNat x space) t
  ((t.modifyScreen fun screen =>
    { screen with cursorX := 0, cursorY := screen.cursorY + 1 }).alignScrollToCursor).showCursor

/-- `putc` moves to the next row after the last column, making room when there is none. -/
def wrapCursor (t : Terminal) : Terminal :=
  if terminalWidth ≤ t.currentScreen.cursorX.toNat then
    let t := t.modifyScreen fun screen =>
      { screen with cursorX := 0, cursorY := screen.cursorY + 1 }
    if terminalHeight ≤ t.currentScreen.cursorY.toNat then t.moveScreenUp else t
  else
    t

def putc (c : UInt8) (t : Terminal) : Terminal :=
  if c = newline then
    t.putNewline
  else
    let t := t.putCell t.currentScreen.cursorY.toNat t.currentScreen.cursorX.toNat c
    let t := t.modifyScreen fun screen => { screen with cursorX := screen.cursorX + 1 }
    (t.wrapCursor.showCursor.alignScrollToCursor).putScreen

/-- The characters `get_input_after_cursor` stores into the buffer; their number is its result. -/
def getInputAfterCursor (t : Terminal) : List UInt8 :=
  (List.range (uint32 (t.currentScreen.inputSize.toInt - t.currentScreen.inputCursor.toInt))).map
    fun (i : Nat) => (t.cellAt (uint32 (t.cursorPosition + i))).character

def getInputAfterCursorAccess (t : Terminal) : Terminal :=
  forLoop 0 (uint32 (t.currentScreen.inputSize.toInt - t.currentScreen.inputCursor.toInt))
    (fun i t => (t.cellAtAccess (uint32 (t.cursorPosition + i))).access (.afterCursor i)) t

/-- The first loop of `put_input_after_cursor`, for the buffer `after_cursor + start`. -/
def putBuffer (afterCursor : List UInt8) (start count : Nat) (t : Terminal) : Terminal :=
  forLoop 0 count
    (fun i t => (t.access (.afterCursor (start + i))).putc (afterCursor.getD (start + i) 0)) t

/-- The second loop of `put_input_after_cursor`. -/
def putSpaces (eraseCount : Nat) (t : Terminal) : Terminal :=
  forLoop 0 eraseCount (fun _ t => t.putc space) t

/-- `put_input_after_cursor(after_cursor + start, count, erase_count)`. -/
def putInputAfterCursor (afterCursor : List UInt8) (start count eraseCount : Nat) (t : Terminal) :
    Terminal :=
  ((t.putBuffer afterCursor start count).putSpaces eraseCount).moveCursor
    (-int32 (count + eraseCount))

def putPrompt (t : Terminal) : Terminal := terminalPrompt.foldl (fun t c => t.putc c) t

/-! ### The functions of `terminal.h` -/

def clear (t : Terminal) : Terminal :=
  (forLoop 0 terminalWidth (fun x t =>
    forLoop 0 terminalHeight (fun y t => t.writeCell y x space) t) t).modifyScreen fun screen =>
      { screen with
        cursorX := 0
        cursorY := 0
        scrollY := 0
        inputSize := 0
        inputCursor := 0
        shifts := 0 }

/-- The set-up of the shown screen, in `terminal_init` and in `terminal_switch_screen`. -/
def setUpScreen (t : Terminal) : Terminal :=
  t.clear.putPrompt.modifyScreen fun screen => { screen with initialized := true }

/-- The loop of `terminal_init` over the screens. -/
def colorScreens (screens : ScreenIndex → Screen) (i : ScreenIndex) : Screen :=
  { screens i with
    fgColor := screenColors i &&& 0x0F
    bgColor := screenColors i >>> 4
    initialized := false }

/-- Before `terminal_init` the statics are zero and the device holds anything. -/
def boot (vga : Vga) : Terminal := ⟨fun _ => .zero, 0, vga, []⟩

def init (t : Terminal) : Terminal :=
  (({ t with
      screens := colorScreens t.screens
      terminalIndex := 0 } : Terminal).setUpScreen.showCursor).vgaSetCursorVisibility true

def switchScreen (index : UInt8) (t : Terminal) : Terminal :=
  if h : index.toNat < terminalScreenCount then
    let t : Terminal := { t with terminalIndex := ⟨index.toNat, h⟩ }
    let t := if t.currentScreen.initialized then t else t.setUpScreen
    t.putScreen.showCursor
  else
    t

def beginOutput (t : Terminal) : Terminal :=
  let screen := t.currentScreen
  let t := if 0 < screen.inputSize.toInt then
      t.moveCursor (screen.inputSize.toInt - screen.inputCursor.toInt)
    else
      t
  (((t.putc newline).modifyScreen fun screen => { screen with inputSize := -1 })
    ).vgaSetCursorVisibility false

def endOutput (showPrompt : Bool) (t : Terminal) : Terminal :=
  let t := if t.currentScreen.cursorX ≠ 0 then t.putc newline else t
  let t := if showPrompt then t.putPrompt else t
  (t.modifyScreen fun screen =>
    { screen with inputSize := 0, inputCursor := 0 }).vgaSetCursorVisibility true

def putcOutput (c : UInt8) (t : Terminal) : Terminal := t.putc c

/-- The message is read up to its NUL. -/
def putsOutput (message : List UInt8) (t : Terminal) : Terminal :=
  (message.takeWhile (· ≠ 0)).foldl (fun t c => t.putc c) t

def putcInput (input : UInt8) (t : Terminal) : Terminal :=
  let screen := t.currentScreen
  if screen.inputSize.toInt < 0 ∨ screen.inputSize.toInt = int8Max then
    t
  else
    let afterCursor := t.getInputAfterCursor
    ((t.getInputAfterCursorAccess.putc input).putInputAfterCursor afterCursor 0 afterCursor.length
      0).modifyScreen fun screen =>
        { screen with
          inputSize := .ofInt (screen.inputSize.toInt + 1)
          inputCursor := .ofInt (screen.inputCursor.toInt + 1) }

/-- The bytes stored into the caller's buffer, or `none` for the result `false`. -/
def getInput (bufferSize : UInt32) (t : Terminal) : Option (List UInt8) :=
  let screen := t.currentScreen
  if screen.inputSize.toInt < 0 then
    none
  else if int32 bufferSize.toNat < screen.inputSize.toInt + 1 then
    none
  else
    let inputStart := uint32 (t.cursorPosition - screen.inputCursor.toInt)
    some ((List.range (uint32 screen.inputSize.toInt)).map
      (fun (i : Nat) => (t.cellAt (uint32 (inputStart + i))).character) ++ [0])

def getInputAccess (bufferSize : UInt32) (t : Terminal) : Terminal :=
  let screen := t.currentScreen
  if screen.inputSize.toInt < 0 then
    t
  else if int32 bufferSize.toNat < screen.inputSize.toInt + 1 then
    t
  else
    let inputStart := uint32 (t.cursorPosition - screen.inputCursor.toInt)
    forLoop 0 (uint32 screen.inputSize.toInt)
      (fun i t => t.cellAtAccess (uint32 (inputStart + i))) t

/-- The body of the loop of `terminal_del_input`: step back one cell and blank it. The loop stops
at the top left corner; from there its remaining steps would do nothing. -/
def delInputStep (t : Terminal) : Terminal :=
  if t.currentScreen.cursorX = 0 ∧ t.currentScreen.cursorY = 0 then
    t
  else
    let t := t.modifyScreen fun screen =>
      if screen.cursorX = 0 then
        { screen with cursorY := screen.cursorY - 1, cursorX := .ofNat (terminalWidth - 1) }
      else
        { screen with cursorX := screen.cursorX - 1 }
    t.putCell t.currentScreen.cursorY.toNat t.currentScreen.cursorX.toNat space

def delInputLoop (count : Nat) (t : Terminal) : Terminal :=
  forLoop 0 count (fun _ t => t.delInputStep) t

def delInput (count : UInt32) (t : Terminal) : Terminal :=
  let screen := t.currentScreen
  if screen.inputSize.toInt < 0 then
    t
  else
    let count := min count.toNat (uint32 screen.inputCursor.toInt)
    let afterCursor := t.getInputAfterCursor
    (((t.getInputAfterCursorAccess.delInputLoop count).putInputAfterCursor afterCursor 0
      afterCursor.length count).modifyScreen fun screen =>
        { screen with
          inputSize := .ofInt (screen.inputSize.toInt - count)
          inputCursor := .ofInt (screen.inputCursor.toInt - count) }).showCursor

def delInputForward (count : UInt32) (t : Terminal) : Terminal :=
  let screen := t.currentScreen
  if screen.inputSize.toInt < 0 then
    t
  else
    let afterCursor := t.getInputAfterCursor
    let count := min count.toNat afterCursor.length
    (t.getInputAfterCursorAccess.putInputAfterCursor afterCursor count (afterCursor.length - count)
      count).modifyScreen fun screen =>
        { screen with inputSize := .ofInt (screen.inputSize.toInt - count) }

end Terminal

inductive TerminalCursorDirection where
  | up
  | down
  | left
  | right
  deriving DecidableEq

def Terminal.move (direction : TerminalCursorDirection) (t : Terminal) : Terminal :=
  let screen := t.currentScreen
  if screen.inputSize.toInt < 0 then
    t
  else
    match direction with
    | .up => if t.canScrollUp then t.scrollUp else t
    | .down => if t.canScrollDown then t.scrollDown else t
    | .left =>
        if 0 < screen.inputCursor.toInt then
          (t.moveCursor (-1)).modifyScreen fun screen =>
            { screen with inputCursor := .ofInt (screen.inputCursor.toInt - 1) }
        else
          t
    | .right =>
        if screen.inputCursor.toInt < screen.inputSize.toInt then
          (t.moveCursor 1).modifyScreen fun screen =>
            { screen with inputCursor := .ofInt (screen.inputCursor.toInt + 1) }
        else
          t

end KernelFromScratch
