import KernelFromScratch.Library.Copy
import KernelFromScratch.Proof.Window
import Mathlib.Tactic.IntervalCases

/-!
# Moving bytes

`memmove` and `memcpy` of `mem.c` on a byte-addressed memory. A pointer comparison is the comparison
of the addresses. The buffer of a screen, which the terminal keeps as a table of cells, lies in this
memory as 35 rows of 80 packed 2-byte cells: there `move_screen_up` is a `memmove` between
overlapping rows.
-/

namespace KernelFromScratch

def memmove (dest src n : UInt32) (memory : Memory) : UInt32 × Memory :=
  if dest < src then
    (dest, forLoop 0 n.toNat (fun i => copyByte dest src (.ofNat i)) memory)
  else if src < dest then
    (dest, forDownLoop n.toNat (fun i => copyByte dest src (.ofNat i - 1)) memory)
  else (dest, memory)

def memcpy (dest src n : UInt32) (memory : Memory) : UInt32 × Memory := memmove dest src n memory

/-- The `n` bytes at `dest` are those that were at `src`, and no other byte changed. -/
structure Moved (memory memory' : Memory) (dest src n : UInt32) : Prop where
  inside : ∀ i < n.toNat, memory' (dest + .ofNat i) = memory (src + .ofNat i)
  outside : ∀ address : UInt32,
    address.toNat < dest.toNat ∨ dest.toNat + n.toNat ≤ address.toNat →
      memory' address = memory address

variable {memory memory' : Memory} {dest src n data : UInt32}

theorem memmove_eq (hdest : dest.toNat + n.toNat ≤ 2 ^ 32) (hsrc : src.toNat + n.toNat ≤ 2 ^ 32) :
    memmove dest src n memory = (dest, withCopy memory dest src 0 n.toNat) := by
  unfold memmove
  by_cases hbelow : dest < src
  · rw [if_pos hbelow, copy_up hbelow hsrc]
  · rw [if_neg hbelow]
    by_cases habove : src < dest
    · rw [if_pos habove, copy_down habove hdest]
    · have hequal : dest = src :=
        UInt32.le_antisymm (UInt32.not_lt.mp habove) (UInt32.not_lt.mp hbelow)
      rw [if_neg habove, hequal, withCopy_self]

theorem moved_memmove (hdest : dest.toNat + n.toNat ≤ 2 ^ 32)
    (hsrc : src.toNat + n.toNat ≤ 2 ^ 32) :
    Moved memory (memmove dest src n memory).2 dest src n := by
  rw [memmove_eq hdest hsrc]
  have hn := n.toNat_lt
  refine ⟨fun i hi => withCopy_inside (Nat.zero_le i) hi (by omega), fun address hout => ?_⟩
  exact withCopy_outside hdest (by omega)

/-! ### A screen buffer in memory -/

def screenCellSize : Nat := 2

/-- `&screen->data[y][x]`, with `data` for `&screen->data[0][0]`. -/
def cellAddress (data : UInt32) (y x : Nat) : UInt32 :=
  data + .ofNat (screenCellSize * (terminalWidth * y + x))

/-- The cell at an address: the character, then the two colors in one byte. -/
def loadCell (memory : Memory) (address : UInt32) : ScreenCell :=
  ⟨memory address, colorField (memory (address + 1)), colorField (memory (address + 1) >>> 4)⟩

def withLowNibble (byte nibble : UInt8) : UInt8 := byte &&& 0xF0 ||| nibble &&& 0x0F

def withHighNibble (byte nibble : UInt8) : UInt8 :=
  (byte &&& (0x0F : UInt8)) ||| (nibble <<< (4 : UInt8))

/-- `cell->fg_color = color;` -/
def storeFgColor (cell : UInt32) (color : UInt8) (memory : Memory) : Memory :=
  Function.update memory (cell + 1) (withLowNibble (memory (cell + 1)) color)

/-- `cell->bg_color = color;` -/
def storeBgColor (cell : UInt32) (color : UInt8) (memory : Memory) : Memory :=
  Function.update memory (cell + 1) (withHighNibble (memory (cell + 1)) color)

/-- `cell->character = c;` -/
def storeCharacter (cell : UInt32) (c : UInt8) (memory : Memory) : Memory :=
  Function.update memory cell c

def storeBlank (cell : UInt32) (fgColor bgColor : UInt8) (memory : Memory) : Memory :=
  storeCharacter cell space (storeBgColor cell bgColor (storeFgColor cell fgColor memory))

/-- The stores of `move_screen_up` into the buffer at `data`. -/
def moveRowsUp (data : UInt32) (fgColor bgColor : UInt8) (memory : Memory) : Memory :=
  forLoop 0 terminalWidth
    (fun x => storeBlank (cellAddress data (terminalHeight - 1) x) fgColor bgColor)
    (memmove (cellAddress data 0 0) (cellAddress data 1 0)
      (.ofNat (screenCellSize * terminalWidth * (terminalHeight - 1))) memory).2

/-- The buffer at `data` holds these cells. -/
def HoldsCells (memory : Memory) (data : UInt32) (cells : Nat → Nat → ScreenCell) : Prop :=
  ∀ y < terminalHeight, ∀ x < terminalWidth, loadCell memory (cellAddress data y x) = cells y x

theorem colorField_withHighNibble (byte nibble : UInt8) :
    colorField (withHighNibble byte nibble) = colorField byte := by
  apply BitVec.eq_of_getLsbD_eq
  intro i hi
  simp [colorField, withHighNibble]
  interval_cases i <;> simp

theorem colorField_withLowNibble (byte nibble : UInt8) :
    colorField (withLowNibble byte nibble) = colorField nibble := by
  apply BitVec.eq_of_getLsbD_eq
  intro i hi
  simp [colorField, withLowNibble]
  interval_cases i <;> simp

theorem colorField_shift_withHighNibble (byte nibble : UInt8) :
    colorField (withHighNibble byte nibble >>> 4) = colorField nibble := by
  apply BitVec.eq_of_getLsbD_eq
  intro i hi
  simp [colorField, withHighNibble]
  interval_cases i <;> simp

theorem loadCell_storeBlank (cell : UInt32) (fgColor bgColor : UInt8) :
    loadCell (storeBlank cell fgColor bgColor memory) cell
      = ⟨space, colorField fgColor, colorField bgColor⟩ := by
  have hne : cell + 1 ≠ cell := by simp
  have hcharacter : storeBlank cell fgColor bgColor memory cell = space := Function.update_self ..
  have hcolors : storeBlank cell fgColor bgColor memory (cell + 1)
      = withHighNibble (withLowNibble (memory (cell + 1)) fgColor) bgColor := by
    rw [storeBlank, storeCharacter, Function.update_of_ne hne, storeBgColor, Function.update_self,
      storeFgColor, Function.update_self]
  rw [loadCell, hcharacter, hcolors, colorField_withHighNibble, colorField_withLowNibble,
    colorField_shift_withHighNibble]

theorem storeBlank_outside {cell address : UInt32} (hne : address ≠ cell)
    (hne' : address ≠ cell + 1) (fgColor bgColor : UInt8) :
    storeBlank cell fgColor bgColor memory address = memory address := by
  rw [storeBlank, storeCharacter, Function.update_of_ne hne, storeBgColor,
    Function.update_of_ne hne', storeFgColor, Function.update_of_ne hne']

/-! ### The byte `j` of the buffer -/

section Buffer

variable (hfits : data.toNat + 5600 ≤ 2 ^ 32)
include hfits

theorem byteAddress_toNat {j : Nat} (hj : j < 5600) :
    (data + .ofNat j).toNat = data.toNat + j :=
  address_add_toNat (by omega)

theorem byteAddress_inj {i j : Nat} (hi : i < 5600) (hj : j < 5600)
    (heq : data + .ofNat i = data + .ofNat j) : i = j := by
  have haddress := congrArg UInt32.toNat heq
  rw [byteAddress_toNat hfits hi, byteAddress_toNat hfits hj] at haddress
  exact Nat.add_left_cancel haddress

omit hfits in
theorem cellAddress_eq (y x : Nat) : cellAddress data y x = data + .ofNat (160 * y + 2 * x) := by
  have hsum : screenCellSize * (terminalWidth * y + x) = 160 * y + 2 * x := by
    simp only [screenCellSize, terminalWidth, vgaWidth]
    omega
  rw [cellAddress, hsum]

omit hfits in
theorem cellAddress_succ (y x : Nat) :
    cellAddress data y x + 1 = data + .ofNat (160 * y + (2 * x + 1)) := by
  rw [cellAddress_eq, UInt32.add_assoc, ← Nat.add_assoc, UInt32.ofNat_add (160 * y + 2 * x) 1]
  rfl

omit hfits in
theorem loadCell_congr {y y' x : Nat}
    (hcharacter : memory' (data + .ofNat (160 * y + 2 * x))
      = memory (data + .ofNat (160 * y' + 2 * x)))
    (hcolors : memory' (data + .ofNat (160 * y + (2 * x + 1)))
      = memory (data + .ofNat (160 * y' + (2 * x + 1)))) :
    loadCell memory' (cellAddress data y x) = loadCell memory (cellAddress data y' x) := by
  rw [loadCell, loadCell, cellAddress_succ, cellAddress_succ, cellAddress_eq, cellAddress_eq,
    hcharacter, hcolors]

/-- The loop over the last row fills it with blanks and stays inside it. -/
theorem storeBlank_row (fgColor bgColor : UInt8) :
    let blanked := forLoop 0 terminalWidth
      (fun x => storeBlank (cellAddress data (terminalHeight - 1) x) fgColor bgColor) memory
    (∀ x < 80, loadCell blanked (cellAddress data 34 x)
      = ⟨space, colorField fgColor, colorField bgColor⟩)
      ∧ ∀ j < 5440, blanked (data + .ofNat j) = memory (data + .ofNat j) := by
  refine forLoop_rule (fun n (current : Memory) =>
    (∀ x < n, loadCell current (cellAddress data 34 x)
      = ⟨space, colorField fgColor, colorField bgColor⟩)
      ∧ ∀ j < 5440, current (data + .ofNat j) = memory (data + .ofNat j)) (Nat.zero_le 80)
    ⟨fun x hx => absurd hx (Nat.not_lt_zero x), fun _ _ => rfl⟩ ?_
  intro n current _ hn ⟨hblank, hrest⟩
  -- A byte of the buffer that belongs to another cell stays.
  have hframe : ∀ j < 5600, j ≠ 5440 + 2 * n → j ≠ 5440 + (2 * n + 1) →
      storeBlank (cellAddress data 34 n) fgColor bgColor current (data + .ofNat j)
        = current (data + .ofNat j) := by
    intro j hj hne hne'
    refine storeBlank_outside (fun heq => hne ?_) (fun heq => hne' ?_) fgColor bgColor
    · rw [cellAddress_eq] at heq
      exact byteAddress_inj hfits hj (by omega) heq
    · rw [cellAddress_succ] at heq
      exact byteAddress_inj hfits hj (by omega) heq
  refine ⟨fun x hx => ?_, fun j hj => ?_⟩
  · by_cases hxn : x = n
    · rw [hxn]
      exact loadCell_storeBlank (cellAddress data 34 n) fgColor bgColor
    · refine Eq.trans (loadCell_congr ?_ ?_) (hblank x (by omega))
      · exact hframe _ (by omega) (by omega) (by omega)
      · exact hframe _ (by omega) (by omega) (by omega)
  · exact (hframe j (by omega) (by omega) (by omega)).trans (hrest j hj)

theorem moveRowsUp_bytes (fgColor bgColor : UInt8) {y j : Nat} (hy : y < 34) (hj : j < 160) :
    moveRowsUp data fgColor bgColor memory (data + .ofNat (160 * y + j))
      = memory (data + .ofNat (160 * (y + 1) + j)) := by
  have hdest : cellAddress data 0 0 = data := by
    rw [cellAddress_eq]
    exact UInt32.add_zero data
  have hsrc : cellAddress data 1 0 = data + 160 := cellAddress_eq 1 0
  have hsrcNat : (data + 160).toNat = data.toNat + 160 :=
    byteAddress_toNat hfits (j := 160) (by omega)
  have hmoved : Moved memory (memmove data (data + 160) 5440 memory).2 data (data + 160) 5440 := by
    refine moved_memmove ?_ ?_
    · change data.toNat + 5440 ≤ 2 ^ 32
      omega
    · rw [hsrcNat]
      change data.toNat + 160 + 5440 ≤ 2 ^ 32
      omega
  have hoffset : data + 160 + .ofNat (160 * y + j) = data + .ofNat (160 * (y + 1) + j) := by
    have hsum : 160 * (y + 1) + j = 160 + (160 * y + j) := by omega
    rw [hsum, UInt32.ofNat_add 160 (160 * y + j), UInt32.add_assoc]
    rfl
  calc moveRowsUp data fgColor bgColor memory (data + .ofNat (160 * y + j))
      = (memmove (cellAddress data 0 0) (cellAddress data 1 0) 5440 memory).2
          (data + .ofNat (160 * y + j)) :=
        (storeBlank_row hfits fgColor bgColor).2 (160 * y + j) (by omega)
    _ = (memmove data (data + 160) 5440 memory).2 (data + .ofNat (160 * y + j)) := by
        rw [hdest, hsrc]
    _ = memory (data + 160 + .ofNat (160 * y + j)) := by
        apply hmoved.inside
        change 160 * y + j < 5440
        omega
    _ = memory (data + .ofNat (160 * (y + 1) + j)) := by rw [hoffset]

/-- `move_screen_up` on the bytes of the buffer is `moveScreenUp` on its cells. -/
theorem HoldsCells.moveRowsUp {t : Terminal} (hholds : HoldsCells memory data t.currentScreen.data) :
    HoldsCells
      (moveRowsUp data t.currentScreen.fgColor t.currentScreen.bgColor memory) data
      t.moveScreenUp.currentScreen.data := by
  obtain ⟨hblank, hrows⟩ := Terminal.moveScreenUp_data t
  intro y hy x hx
  by_cases hlast : y = 34
  · rw [hlast, hblank x hx]
    exact (storeBlank_row hfits _ _).1 x hx
  · have hrow : y < 34 := by
      change y < 35 at hy
      omega
    have hx80 : x < 80 := hx
    calc loadCell (KernelFromScratch.moveRowsUp data t.currentScreen.fgColor
            t.currentScreen.bgColor memory) (cellAddress data y x)
        = loadCell memory (cellAddress data (y + 1) x) :=
          loadCell_congr (moveRowsUp_bytes hfits _ _ hrow (by omega))
            (moveRowsUp_bytes hfits _ _ hrow (by omega))
      _ = t.currentScreen.data (y + 1) x := hholds (y + 1) (Nat.add_lt_of_lt_sub hrow) x hx
      _ = t.moveScreenUp.currentScreen.data y x := (hrows y hrow x hx).symm

end Buffer

/-- `memmove` and `memcpy` move every range, overlapping or not, and so does `move_screen_up` the
rows of its 5600-byte buffer. -/
theorem memmove_moves_every_overlap :
    (∀ (memory : Memory) (dest src n : UInt32), dest.toNat + n.toNat ≤ 2 ^ 32 →
      src.toNat + n.toNat ≤ 2 ^ 32 →
        Moved memory (memmove dest src n memory).2 dest src n
          ∧ Moved memory (memcpy dest src n memory).2 dest src n)
      ∧ (∀ (memory : Memory) (data : UInt32) (fgColor bgColor : UInt8),
          data.toNat + 5600 ≤ 2 ^ 32 → ∀ y < 34, ∀ j < 160,
            moveRowsUp data fgColor bgColor memory (data + .ofNat (160 * y + j))
              = memory (data + .ofNat (160 * (y + 1) + j)))
      ∧ (∀ (memory : Memory) (data : UInt32) (t : Terminal), data.toNat + 5600 ≤ 2 ^ 32 →
          HoldsCells memory data t.currentScreen.data →
            HoldsCells
              (moveRowsUp data t.currentScreen.fgColor t.currentScreen.bgColor memory) data
              t.moveScreenUp.currentScreen.data) :=
  ⟨fun _ _ _ _ hdest hsrc => ⟨moved_memmove hdest hsrc, moved_memmove hdest hsrc⟩,
    fun _ _ _ _ hfits _ hy _ hj => moveRowsUp_bytes hfits _ _ hy hj,
    fun _ _ _ hfits hholds => hholds.moveRowsUp hfits⟩

/-- A shift by two bytes upwards within eight bytes, and the zeroed buffer of the boot code. -/
theorem memmove_moves_every_overlap_upwards :
    let bytes : Memory := fun address => .ofNat address.toNat
    let vga : Vga := ⟨fun _ => 0, 0, fun _ => 0, fun _ => 0⟩
    Moved bytes (memmove 2 0 6 bytes).2 2 0 6
      ∧ moveRowsUp 0 7 0 bytes (0 + .ofNat (160 * 3 + 5)) = bytes (0 + .ofNat (160 * 4 + 5))
      ∧ HoldsCells (moveRowsUp 0 0 0 fun _ => 0) 0
          (Terminal.boot vga).moveScreenUp.currentScreen.data :=
  ⟨(memmove_moves_every_overlap.1 _ 2 0 6 (by decide) (by decide)).1,
    memmove_moves_every_overlap.2.1 _ 0 7 0 (by decide) 3 (by decide) 5 (by decide),
    memmove_moves_every_overlap.2.2 (fun _ => 0) 0 (Terminal.boot ⟨_, _, _, _⟩) (by decide)
      fun _ _ _ _ =>
        (by decide : (⟨0, colorField 0, colorField ((0 : UInt8) >>> 4)⟩ : ScreenCell) = ⟨0, 0, 0⟩)⟩

end KernelFromScratch
