import KernelFromScratch.Proof.Editing
import KernelFromScratch.Session

/-!
# The input functions refine the zipper

While a line is edited the page is the printed text with the line `z.line` written over it from the
anchor on, and the cursor stands between the two halves of the zipper `z`. Each input function of
`terminal.h` is the zipper operation of the same name.
-/

namespace KernelFromScratch

theorem settledTop_eq (top stop : Nat) : settledTop top stop = max top (stop / 80 - 34) := rfl

theorem settledTop_of_lt {top stop : Nat} (hlt : stop < top * 80 + 2800) :
    settledTop top stop = top := by
  rw [settledTop_eq]
  omega

namespace Terminal

variable {t r : Terminal} {top pos anchor : Nat} {base cells : Nat → UInt8} {z : Zipper UInt8}

structure Editing (t : Terminal) (top : Nat) (base : Nat → UInt8) (anchor : Nat)
    (z : Zipper UInt8) : Prop where
  view : View t top (overwrite base anchor z.line) (anchor + z.before.length) anchor
  size : t.currentScreen.inputSize.toInt = z.size
  cursor : t.currentScreen.inputCursor.toInt = z.before.length
  size_le : z.size ≤ 127
  fits : anchor + z.size < top * 80 + 2800
  noNewline : newline ∉ z.line
  blank : ∀ q, anchor ≤ q → base q = space

/-- The outcome of an input operation. -/
structure Edited (t r : Terminal) (top : Nat) (base : Nat → UInt8) (anchor : Nat)
    (z : Zipper UInt8) : Prop where
  editing : Editing r (settledTop top (anchor + z.size)) base anchor z
  touches : Touches t r
  displayed : t.Displayed → r.Displayed
  tracked : t.CursorTracked → r.CursorTracked

theorem Editing.refl (hediting : Editing t top base anchor z) : Edited t t top base anchor z := by
  refine ⟨?_, .refl t, id, id⟩
  rw [settledTop_of_lt hediting.fits]
  exact hediting

theorem Editing.inputMode (hediting : Editing t top base anchor z) :
    ¬ t.currentScreen.inputSize.toInt < 0 := by
  rw [hediting.size]
  omega

/-! ### Storing the size and the cursor of the input -/

section SetInput

variable {f : Screen → Screen} {inputSize inputCursor : Int8}

theorem View.setInput (hview : View t top cells pos anchor)
    (hf : f t.currentScreen
      = { t.currentScreen with inputSize := inputSize, inputCursor := inputCursor }) :
    View (t.modifyScreen f) top cells pos anchor := by
  have hcurrent := (currentScreen_modifyScreen f t).trans hf
  obtain ⟨hwindow, hrow, hanchored, hle, hpos, hsafe⟩ := hview
  refine ⟨?_, ?_, ?_, hle, hpos, safe_modifyScreen.mpr hsafe⟩
  all_goals rw [hcurrent]
  · exact ⟨hwindow.data, hwindow.cursorX, hwindow.cursorY, hwindow.beyond, hwindow.shifts⟩
  · exact hrow
  · exact ⟨hanchored.top_le, hanchored.scroll_le, hanchored.scroll⟩

theorem touches_setInput
    (hf : f t.currentScreen
      = { t.currentScreen with inputSize := inputSize, inputCursor := inputCursor }) :
    Touches t (t.modifyScreen f) := by
  have hcurrent := (currentScreen_modifyScreen f t).trans hf
  refine ⟨frame_modifyScreen f t, ?_, ?_, ?_⟩ <;> rw [hcurrent]

theorem displayed_setInput
    (hf : f t.currentScreen
      = { t.currentScreen with inputSize := inputSize, inputCursor := inputCursor })
    (hdisplayed : t.Displayed) : (t.modifyScreen f).Displayed := by
  have hcurrent := (currentScreen_modifyScreen f t).trans hf
  exact displayed_congr (t := t) rfl (by rw [hcurrent]) (by rw [hcurrent]) hdisplayed

theorem cursorTracked_setInput
    (hf : f t.currentScreen
      = { t.currentScreen with inputSize := inputSize, inputCursor := inputCursor })
    (htracked : t.CursorTracked) : (t.modifyScreen f).CursorTracked := by
  have hcurrent := (currentScreen_modifyScreen f t).trans hf
  unfold CursorTracked at *
  rw [hcurrent]
  exact htracked

end SetInput

/-! ### Reading the line back -/

theorem Editing.afterCount (hediting : Editing t top base anchor z) :
    uint32 (t.currentScreen.inputSize.toInt - t.currentScreen.inputCursor.toInt)
      = z.after.length := by
  have hle := hediting.size_le
  rw [hediting.size, hediting.cursor]
  simp only [uint32, Zipper.size] at *
  omega

theorem Editing.position_lt (hediting : Editing t top base anchor z) {i : Nat}
    (hi : i < z.size) : top * 80 ≤ anchor + i ∧ anchor + i < top * 80 + 2800 := by
  have htop := hediting.view.anchored.top_le
  have hfits := hediting.fits
  omega

theorem Editing.position_after (hediting : Editing t top base anchor z) {i : Nat}
    (hi : i < z.after.length) :
    uint32 (t.cursorPosition + i) = anchor + (z.before.length + i) - top * 80 := by
  have hlt : z.before.length + i < z.size := by
    simp only [Zipper.size]
    omega
  have hposition := hediting.position_lt hlt
  have htop := hediting.view.anchored.top_le
  rw [hediting.view.cursorPosition_eq]
  unfold uint32
  omega

/-- `get_input_after_cursor` reads the second half of the zipper. -/
theorem Editing.getInputAfterCursor_eq (hediting : Editing t top base anchor z) :
    t.getInputAfterCursor = z.after := by
  rw [getInputAfterCursor, hediting.afterCount]
  apply List.ext_getElem
  · simp
  · intro i hi hi'
    have hlength : z.before.length + i < z.line.length := by
      simp only [Zipper.line, List.length_append]
      omega
    have hlt := hediting.position_lt (z.line_length ▸ hlength)
    rw [List.getElem_map, List.getElem_range, hediting.position_after hi',
      hediting.view.cellAt_character hlt.1 hlt.2, overwrite_add hlength]
    simp only [Zipper.line]
    rw [List.getElem_append_right (by omega)]
    simp

/-- Accesses of cells and of the buffer leave the state as it is. -/
structure Accessed (t r : Terminal) : Prop where
  screens : r.screens = t.screens
  index : r.terminalIndex = t.terminalIndex
  vga : r.vga = t.vga
  safe : t.Safe → r.Safe

theorem Accessed.refl (t : Terminal) : Accessed t t := ⟨rfl, rfl, rfl, id⟩

theorem Accessed.currentScreen (haccessed : Accessed t r) :
    r.currentScreen = t.currentScreen := by
  simp only [Terminal.currentScreen, haccessed.screens, haccessed.index]

theorem Accessed.access (haccessed : Accessed t r) {a : Access} (ha : a.Safe) :
    Accessed t (r.access a) :=
  ⟨haccessed.screens, haccessed.index, haccessed.vga, fun h => (haccessed.safe h).access ha⟩

theorem Accessed.view (haccessed : Accessed t r) (hview : View t top cells pos anchor) :
    View r top cells pos anchor :=
  hview.of_currentScreen haccessed.currentScreen (haccessed.safe hview.safe)

theorem Accessed.keeps (haccessed : Accessed t r) : Keeps t r :=
  keeps_of_currentScreen (frame_of_screens haccessed.screens haccessed.index)
    haccessed.currentScreen

theorem Accessed.displayed (haccessed : Accessed t r) (hdisplayed : t.Displayed) :
    r.Displayed :=
  displayed_congr (by rw [haccessed.vga]) (by rw [haccessed.currentScreen])
    (by rw [haccessed.currentScreen]) hdisplayed

theorem Accessed.cursorTracked (haccessed : Accessed t r) (htracked : t.CursorTracked) :
    r.CursorTracked := by
  unfold CursorTracked
  rw [haccessed.vga, haccessed.currentScreen]
  exact htracked

theorem Editing.getInputAfterCursorAccess_accessed (hediting : Editing t top base anchor z) :
    Accessed t t.getInputAfterCursorAccess := by
  rw [getInputAfterCursorAccess, hediting.afterCount]
  refine forLoop_preserves (fun r => Accessed t r) (.refl t) ?_
  intro i r _ hi hr
  have hcursor : r.cursorPosition = t.cursorPosition := by
    simp only [cursorPosition, hr.currentScreen]
  have hlt : z.before.length + i < z.size := by
    simp only [Zipper.size]
    omega
  have hposition := hediting.position_lt hlt
  have hsize := hediting.size_le
  have hcell : (Access.data (uint32 (r.cursorPosition + i) / terminalWidth)
      (uint32 (r.cursorPosition + i) % terminalWidth)).Safe := by
    rw [hcursor, hediting.position_after hi]
    simp only [Access.Safe, terminalWidth, vgaWidth]
    omega
  have hbuffer : (Access.afterCursor i).Safe := by
    change i < 127
    omega
  exact (hr.access hcell).access hbuffer

/-- An input operation ends by storing the new size and cursor. -/
theorem edited_setInput {f : Screen → Screen} {inputSize inputCursor : Int8}
    (hview : View r (settledTop top (anchor + z.size)) (overwrite base anchor z.line)
      (anchor + z.before.length) anchor)
    (htouches : Touches t r) (hdisplayed : t.Displayed → r.Displayed)
    (htracked : t.CursorTracked → r.CursorTracked)
    (hf : f r.currentScreen
      = { r.currentScreen with inputSize := inputSize, inputCursor := inputCursor })
    (hsize : inputSize.toInt = z.size) (hcursor : inputCursor.toInt = z.before.length)
    (hle : z.size ≤ 127) (hnewline : newline ∉ z.line)
    (hblank : ∀ q, anchor ≤ q → base q = space) :
    Edited t (r.modifyScreen f) top base anchor z := by
  have hcurrent := (currentScreen_modifyScreen f r).trans hf
  refine ⟨⟨hview.setInput hf, ?_, ?_, hle, ?_, hnewline, hblank⟩,
    htouches.trans (touches_setInput hf), fun h => displayed_setInput hf (hdisplayed h),
    fun h => cursorTracked_setInput hf (htracked h)⟩
  · rw [hcurrent]
    exact hsize
  · rw [hcurrent]
    exact hcursor
  · rw [settledTop_eq]
    omega

theorem Edited.showCursor (hedited : Edited t r top base anchor z) :
    Edited t r.showCursor top base anchor z := by
  obtain ⟨hediting, htouches, hdisplayed, -⟩ := hedited
  have hinside := hediting.view.inside
  refine ⟨⟨?_, ?_, ?_, hediting.size_le, hediting.fits, hediting.noNewline, hediting.blank⟩,
    ?_, fun h => displayed_showCursor.mpr (hdisplayed h), fun _ => cursorTracked_showCursor hinside⟩
  · exact hediting.view.of_currentScreen (currentScreen_showCursor r)
      (safe_showCursor hediting.view.safe hinside)
  · rw [currentScreen_showCursor]
    exact hediting.size
  · rw [currentScreen_showCursor]
    exact hediting.cursor
  · exact htouches.trans (keeps_of_currentScreen (frame_showCursor r)
      (currentScreen_showCursor r)).touches

theorem getD_zero_add (chars : List UInt8) (i : Nat) (hi : i < chars.length) :
    chars.getD (0 + i) 0 = chars[i] := by
  simp [List.getD_eq_getElem?_getD, hi]

/-! ### Insertion -/

/-- Writing a character and the rest of the line over the rest of the line inserts it. -/
theorem overwrite_insert (before after : List UInt8) (c : UInt8) :
    overwrite (Function.update (overwrite base anchor (before ++ after)) (anchor + before.length) c)
      (anchor + before.length + 1) after = overwrite base anchor ((before ++ [c]) ++ after) := by
  have htwo := overwrite_append (overwrite base anchor (before ++ after))
    (anchor + before.length) [c] after
  rw [overwrite_singleton, List.length_singleton] at htwo
  rw [htwo, overwrite_overwrite_tail _ _ _ (by simp)]
  simp

theorem putcInput_edited (hediting : Editing t top base anchor z) {c : UInt8} (hc : c ≠ newline) :
    Edited t (t.putcInput c) top base anchor (z.insert 127 c) := by
  have hsize := hediting.size
  have hcursor := hediting.cursor
  by_cases hfull : z.size = 127
  · have hguard : t.currentScreen.inputSize.toInt < 0
        ∨ t.currentScreen.inputSize.toInt = int8Max := by
      right
      rw [hsize, hfull]
      rfl
    have hinsert : z.insert 127 c = z := if_pos hfull
    rw [putcInput, if_pos hguard, hinsert]
    exact hediting.refl
  · have hle := hediting.size_le
    have hguard : ¬ (t.currentScreen.inputSize.toInt < 0
        ∨ t.currentScreen.inputSize.toInt = int8Max) := by
      simp only [int8Max]
      omega
    have haccessed := hediting.getInputAfterCursorAccess_accessed
    have hview := haccessed.view hediting.view
    have hsizes : z.size = z.before.length + z.after.length := rfl
    obtain ⟨hputc, hputcDisplayed⟩ := putc_shown hview hc (by omega)
    have hafter : newline ∉ z.after := fun h =>
      hediting.noNewline (List.mem_append_right _ h)
    have hroom : anchor + z.before.length + 1 + z.after.length + 0 ≤ anchor + 127 := by omega
    obtain ⟨hput, hputDisplayed⟩ := putInputAfterCursor_shown hputc.view
      (getD_zero_add z.after) (by omega) hafter hroom
    have hview' := hput.view
    rw [List.replicate_zero, List.append_nil, Zipper.line, overwrite_insert] at hview'
    have hinsert : z.insert 127 c = ⟨z.before ++ [c], z.after⟩ := Zipper.insert_of_size_ne hfull c
    have hstop : anchor + z.before.length + 1 + z.after.length + 0
        = anchor + (z.insert 127 c).size := by
      simp only [hinsert, Zipper.size, List.length_append, List.length_singleton]
      omega
    have htop : max (max top ((anchor + z.before.length + 1) / 80 - 34))
        ((anchor + z.before.length + 1 + z.after.length + 0) / 80 - 34)
        = settledTop top (anchor + (z.insert 127 c).size) := by
      rw [max_max_row top (by omega), hstop, settledTop_eq]
    have hkeeps := (haccessed.keeps.trans hputc.keeps).trans hput.keeps
    rw [putcInput, if_neg hguard, hediting.getInputAfterCursor_eq]
    refine edited_setInput (z := z.insert 127 c) ?_ hkeeps.touches
      (fun _ => hputDisplayed hputcDisplayed) (fun _ => hput.tracked) rfl ?_ ?_ ?_ ?_
      hediting.blank
    · rw [htop] at hview'
      rw [hinsert] at hview' ⊢
      simpa only [Zipper.line, List.length_append, List.length_singleton, ← Nat.add_assoc]
        using hview'
    · rw [hkeeps.inputSize, hsize, int8_toInt_ofInt (by omega) (by omega), hinsert]
      simp only [Zipper.size, List.length_append, List.length_singleton]
      omega
    · rw [hkeeps.inputCursor, hcursor, int8_toInt_ofInt (by omega) (by omega), hinsert]
      simp
    · exact Zipper.size_insert_le hle c
    · intro hmem
      rcases Zipper.mem_line_insert hmem with heq | hmem
      · exact hc heq.symm
      · exact hediting.noNewline hmem

/-! ### Deletion -/

/-- Blanking the end of a line and printing its rest and blanks over it. -/
theorem overwrite_delete (hblank : ∀ q, anchor ≤ q → base q = space)
    (before deleted after : List UInt8) :
    overwrite (overwrite (overwrite base anchor ((before ++ deleted) ++ after))
        (anchor + before.length) (List.replicate deleted.length space))
      (anchor + before.length) (after ++ List.replicate deleted.length space)
      = overwrite base anchor (before ++ after) := by
  rw [overwrite_overwrite _ _ (by simp), List.append_assoc,
    overwrite_overwrite_tail _ _ _ (by simp [Nat.add_comm]), ← List.append_assoc,
    overwrite_append_replicate hblank]

theorem delInput_edited (hediting : Editing t top base anchor z) (count : UInt32) :
    Edited t (t.delInput count) top base anchor (z.deleteBefore count.toNat) := by
  have hsize := hediting.size
  have hcursor := hediting.cursor
  have hle := hediting.size_le
  have hguard : ¬ t.currentScreen.inputSize.toInt < 0 := by omega
  have hsizes : z.size = z.before.length + z.after.length := rfl
  have hclamp : uint32 t.currentScreen.inputCursor.toInt = z.before.length := by
    rw [hcursor]
    exact uint32_of_lt (by omega)
  set k := min count.toNat z.before.length with hk
  have hdelete : z.deleteBefore count.toNat = ⟨z.before.take (z.before.length - k), z.after⟩ := by
    rw [← Zipper.deleteBefore_min]
    rfl
  have hsplit : z.before
      = z.before.take (z.before.length - k) ++ z.before.drop (z.before.length - k) :=
    (List.take_append_drop _ _).symm
  have hkept : (z.before.take (z.before.length - k)).length = z.before.length - k := by
    rw [List.length_take]
    omega
  have hdropped : (z.before.drop (z.before.length - k)).length = k := by
    rw [List.length_drop]
    omega
  have hnewSize : (z.deleteBefore count.toNat).size = z.size - k := by
    rw [hdelete]
    simp only [Zipper.size, hkept]
    omega
  have haccessed := hediting.getInputAfterCursorAccess_accessed
  have hview := haccessed.view hediting.view
  have hcount : anchor + k ≤ anchor + z.before.length := by omega
  obtain ⟨hloopView, hloopKeeps, hloopDisplayed⟩ := delInputLoop_view hview hcount
  have hback : anchor + z.before.length - k
      = anchor + (z.before.take (z.before.length - k)).length := by omega
  rw [hback] at hloopView
  have hafter : newline ∉ z.after := fun h => hediting.noNewline (List.mem_append_right _ h)
  have hroom : anchor + (z.before.take (z.before.length - k)).length + z.after.length + k
      ≤ anchor + 127 := by omega
  obtain ⟨hput, hputDisplayed⟩ := putInputAfterCursor_shown hloopView
    (getD_zero_add z.after) (by omega) hafter hroom
  have hcells : overwrite (overwrite (overwrite base anchor z.line)
        (anchor + (z.before.take (z.before.length - k)).length) (List.replicate k space))
      (anchor + (z.before.take (z.before.length - k)).length)
      (z.after ++ List.replicate k space)
      = overwrite base anchor (z.deleteBefore count.toNat).line := by
    have hbefore := overwrite_delete hediting.blank (z.before.take (z.before.length - k))
      (z.before.drop (z.before.length - k)) z.after
    rw [← hsplit, hdropped] at hbefore
    rw [hdelete]
    exact hbefore
  have htop : max top
      ((anchor + (z.before.take (z.before.length - k)).length + z.after.length + k) / 80 - 34)
      = settledTop top (anchor + (z.deleteBefore count.toNat).size) := by
    have hfits := hediting.fits
    rw [hnewSize]
    rw [settledTop_eq]
    omega
  have hkeeps := (haccessed.keeps.trans hloopKeeps).trans hput.keeps
  have hview' := hput.view
  rw [hcells, htop] at hview'
  have hedited : Edited t (((t.getInputAfterCursorAccess.delInputLoop k).putInputAfterCursor z.after
      0 z.after.length k).modifyScreen fun screen =>
        { screen with
          inputSize := .ofInt (screen.inputSize.toInt - k)
          inputCursor := .ofInt (screen.inputCursor.toInt - k) }) top base anchor
      (z.deleteBefore count.toNat) := by
    refine edited_setInput ?_ hkeeps.touches
      (fun h => hputDisplayed (hloopDisplayed (haccessed.displayed h))) (fun _ => hput.tracked)
      rfl ?_ ?_ ?_ ?_ hediting.blank
    · have hbeforeLength : (z.deleteBefore count.toNat).before.length
          = (z.before.take (z.before.length - k)).length := by rw [hdelete]
      rw [hbeforeLength]
      exact hview'
    · rw [hkeeps.inputSize, hsize, int8_toInt_ofInt (by omega) (by omega), hnewSize]
      omega
    · rw [hkeeps.inputCursor, hcursor, int8_toInt_ofInt (by omega) (by omega), hdelete, hkept]
      omega
    · omega
    · exact fun hmem => hediting.noNewline (Zipper.mem_line_deleteBefore hmem)
  rw [delInput, if_neg hguard, hediting.getInputAfterCursor_eq, hclamp]
  exact hedited.showCursor

theorem delInputForward_edited (hediting : Editing t top base anchor z) (count : UInt32) :
    Edited t (t.delInputForward count) top base anchor (z.deleteAfter count.toNat) := by
  have hsize := hediting.size
  have hcursor := hediting.cursor
  have hle := hediting.size_le
  have hguard : ¬ t.currentScreen.inputSize.toInt < 0 := by omega
  have hsizes : z.size = z.before.length + z.after.length := rfl
  set k := min count.toNat z.after.length with hk
  have hdelete : z.deleteAfter count.toNat = ⟨z.before, z.after.drop k⟩ := by
    rw [← Zipper.deleteAfter_min]
    rfl
  have hkept : (z.after.drop k).length = z.after.length - k := List.length_drop
  have hnewSize : (z.deleteAfter count.toNat).size = z.size - k := by
    rw [hdelete]
    simp only [Zipper.size, hkept]
    omega
  have haccessed := hediting.getInputAfterCursorAccess_accessed
  have hview := haccessed.view hediting.view
  have hafter : newline ∉ z.after.drop k := fun h =>
    hediting.noNewline (List.mem_append_right _ (List.mem_of_mem_drop h))
  have hroom : anchor + z.before.length + (z.after.drop k).length + k ≤ anchor + 127 := by omega
  have hchars : ∀ i (hi : i < (z.after.drop k).length),
      z.after.getD (k + i) 0 = (z.after.drop k)[i] := by
    intro i hi
    rw [List.getElem_drop, List.getD_eq_getElem?_getD, List.getElem?_eq_getElem (by omega),
      Option.getD_some]
  obtain ⟨hput, hputDisplayed⟩ :=
    putInputAfterCursor_shown hview hchars (by omega) hafter hroom
  have hcells : overwrite (overwrite base anchor z.line) (anchor + z.before.length)
      (z.after.drop k ++ List.replicate k space)
      = overwrite base anchor (z.deleteAfter count.toNat).line := by
    rw [hdelete, Zipper.line, Zipper.line,
      overwrite_overwrite_tail _ _ _ (by simp only [List.length_append, List.length_replicate]; omega),
      ← List.append_assoc, overwrite_append_replicate hediting.blank]
  have htop : max top ((anchor + z.before.length + (z.after.drop k).length + k) / 80 - 34)
      = settledTop top (anchor + (z.deleteAfter count.toNat).size) := by
    have hfits := hediting.fits
    rw [hnewSize]
    rw [settledTop_eq]
    omega
  have hkeeps := haccessed.keeps.trans hput.keeps
  have hview' := hput.view
  rw [hcells, htop] at hview'
  rw [delInputForward, if_neg hguard, hediting.getInputAfterCursor_eq]
  simp only [← hk, ← hkept]
  set put := t.getInputAfterCursorAccess.putInputAfterCursor z.after k (z.after.drop k).length k
  have hset : (fun screen : Screen =>
      { screen with inputSize := .ofInt (screen.inputSize.toInt - k) }) put.currentScreen
      = { put.currentScreen with
          inputSize := .ofInt (put.currentScreen.inputSize.toInt - k)
          inputCursor := put.currentScreen.inputCursor } := rfl
  refine edited_setInput ?_ hkeeps.touches (fun h => hputDisplayed (haccessed.displayed h))
    (fun _ => hput.tracked) hset ?_ ?_ ?_ ?_ hediting.blank
  · rw [hdelete] at hview' ⊢
    exact hview'
  · rw [hkeeps.inputSize, hsize, int8_toInt_ofInt (by omega) (by omega), hnewSize]
    omega
  · rw [hkeeps.inputCursor, hcursor, hdelete]
  · omega
  · exact fun hmem => hediting.noNewline (Zipper.mem_line_deleteAfter hmem)

/-! ### Moving the cursor -/

theorem moveCursor_edited (hediting : Editing t top base anchor z) {z' : Zipper UInt8}
    {offset : Int} (hline : z'.line = z.line)
    (hoffset : (z.before.length : Int) + offset = z'.before.length) :
    Edited t ((t.moveCursor offset).modifyScreen fun screen =>
      { screen with inputCursor := .ofInt (screen.inputCursor.toInt + offset) }) top base anchor z' := by
  have hle := hediting.size_le
  have hfits := hediting.fits
  have hsize : z'.size = z.size := by rw [← Zipper.line_length, hline, Zipper.line_length]
  have hsizes : z'.size = z'.before.length + z'.after.length := rfl
  have hposition : ((anchor + z.before.length : Nat) : Int) + offset
      = (anchor + z'.before.length : Nat) := by omega
  obtain ⟨hmoved, hdisplayed⟩ := moveCursor_shown hediting.view hposition (by omega) (by omega)
    (by omega)
  have hset : (fun screen : Screen =>
      { screen with inputCursor := .ofInt (screen.inputCursor.toInt + offset) })
        (t.moveCursor offset).currentScreen
      = { (t.moveCursor offset).currentScreen with
          inputSize := (t.moveCursor offset).currentScreen.inputSize
          inputCursor := .ofInt ((t.moveCursor offset).currentScreen.inputCursor.toInt + offset) } :=
    rfl
  refine edited_setInput ?_ hmoved.keeps.touches hdisplayed (fun _ => hmoved.tracked) hset ?_ ?_
    (by omega) ?_ hediting.blank
  · rw [hline, hsize, settledTop_of_lt hfits]
    exact hmoved.view
  · rw [hmoved.keeps.inputSize, hediting.size, hsize]
  · rw [hmoved.keeps.inputCursor, hediting.cursor, int8_toInt_ofInt (by omega) (by omega)]
    exact hoffset
  · rw [hline]
    exact hediting.noNewline

theorem move_left_edited (hediting : Editing t top base anchor z) :
    Edited t (t.move .left) top base anchor z.moveLeft := by
  have hcursor := hediting.cursor
  rw [move, if_neg hediting.inputMode]
  obtain ⟨before, after⟩ := z
  rcases List.eq_nil_or_concat before with rfl | ⟨before, c, rfl⟩
  · have hstart : ¬ 0 < t.currentScreen.inputCursor.toInt := by
      rw [hcursor]
      simp
    rw [if_neg hstart]
    exact hediting.refl
  · have hinside : 0 < t.currentScreen.inputCursor.toInt := by
      rw [hcursor]
      simp
    rw [if_pos hinside]
    apply moveCursor_edited hediting (Zipper.line_moveLeft _)
    rw [List.concat_eq_append, Zipper.moveLeft_concat]
    simp

theorem move_right_edited (hediting : Editing t top base anchor z) :
    Edited t (t.move .right) top base anchor z.moveRight := by
  have hsize := hediting.size
  have hcursor := hediting.cursor
  rw [move, if_neg hediting.inputMode]
  obtain ⟨before, after⟩ := z
  cases after with
  | nil =>
      have hend : ¬ t.currentScreen.inputCursor.toInt < t.currentScreen.inputSize.toInt := by
        rw [hsize, hcursor]
        simp [Zipper.size]
      rw [if_neg hend]
      exact hediting.refl
  | cons c after =>
      have hinside : t.currentScreen.inputCursor.toInt < t.currentScreen.inputSize.toInt := by
        rw [hsize, hcursor]
        simp [Zipper.size]
      rw [if_pos hinside]
      apply moveCursor_edited hediting (Zipper.line_moveRight _)
      rw [Zipper.moveRight_cons]
      simp

/-! ### Scrolling -/

/-- A scroll step to `scrollY` rows keeps the line when the anchor stays visible enough. -/
theorem edited_scroll (hediting : Editing t top base anchor z) {scrollY : UInt16}
    (hframe : Frame t r) (hcurrent : r.currentScreen = { t.currentScreen with scrollY := scrollY })
    (hanchored : r.currentScreen.Anchored top anchor)
    (hshown : r.Safe ∧ r.Displayed ∧ r.CursorTracked) : Edited t r top base anchor z := by
  obtain ⟨hsafe, hdisplayed, htracked⟩ := hshown
  obtain ⟨⟨hwindow, hrow, -, hle, hpos, -⟩, hsize, hcursor, hsizeLe, hfits, hnewline, hblank⟩ :=
    hediting
  refine ⟨?_, ⟨hframe, ?_, ?_, ?_⟩, fun _ => hdisplayed, fun _ => htracked⟩
  · rw [settledTop_of_lt hfits]
    refine ⟨⟨?_, ?_, hanchored, hle, hpos, hsafe⟩, ?_, ?_, hsizeLe, hfits, hnewline, hblank⟩
    all_goals rw [hcurrent]
    · exact ⟨hwindow.data, hwindow.cursorX, hwindow.cursorY, hwindow.beyond, hwindow.shifts⟩
    · exact hrow
    · exact hsize
    · exact hcursor
  all_goals rw [hcurrent]

theorem move_up_edited (hediting : Editing t top base anchor z) :
    Edited t (t.move .up) top base anchor z := by
  rw [move, if_neg hediting.inputMode]
  by_cases hcan : t.canScrollUp
  · have hpositive : 0 < t.currentScreen.scrollY.toNat := hcan
    obtain ⟨htop, hscrollLe, hscroll⟩ := hediting.view.anchored
    have hinside := hediting.view.inside
    have hnotAbove := hinside.notAbove
    have hscrollY : (t.currentScreen.scrollY - 1).toNat = t.currentScreen.scrollY.toNat - 1 := by
      rw [UInt16.toNat_sub, UInt16.toNat_one]
      omega
    have hspec := scrollUp_spec hediting.view.safe ⟨hinside.column, hinside.row,
      by simp only [hscrollY]; omega, by simp only [hscrollY]; omega⟩
    simp only [hcan, if_true]
    refine edited_scroll hediting (frame_scrollUp t) (currentScreen_scrollUp t) ?_ hspec
    rw [currentScreen_scrollUp]
    exact ⟨htop, by simp only [hscrollY]; omega, by simp only [hscrollY]; omega⟩
  · simp only [hcan, if_false]
    exact hediting.refl

theorem move_down_edited (hediting : Editing t top base anchor z) :
    Edited t (t.move .down) top base anchor z := by
  rw [move, if_neg hediting.inputMode]
  by_cases hcan : t.canScrollDown
  · have hroom : t.currentScreen.scrollY.toNat + 25 < 35 := hcan.1
    have hbelow : t.currentScreen.scrollY.toNat + 25 ≤ t.currentScreen.cursorY.toNat := hcan.2
    obtain ⟨htop, hscrollLe, hscroll⟩ := hediting.view.anchored
    have hinside := hediting.view.inside
    have hy := hediting.view.window.cursorY
    have hsizes : z.size = z.before.length + z.after.length := rfl
    have hle := hediting.size_le
    have hscrollY : (t.currentScreen.scrollY + 1).toNat = t.currentScreen.scrollY.toNat + 1 := by
      rw [UInt16.toNat_add, UInt16.toNat_one]
      omega
    have hspec := scrollDown_spec hediting.view.safe ⟨hinside.column, hinside.row,
      by simp only [hscrollY]; omega, by simp only [hscrollY]; omega⟩
    simp only [hcan, if_true]
    refine edited_scroll hediting (frame_scrollDown t) (currentScreen_scrollDown t) ?_ hspec
    rw [currentScreen_scrollDown]
    exact ⟨htop, by simp only [hscrollY]; omega, by simp only [hscrollY]; omega⟩
  · simp only [hcan, if_false]
    exact hediting.refl

/-! ### The whole line -/

theorem Editing.position_start (hediting : Editing t top base anchor z) {i : Nat}
    (hi : i < z.size) :
    uint32 (uint32 (t.cursorPosition - t.currentScreen.inputCursor.toInt) + i)
      = anchor + i - top * 80 := by
  have hposition := hediting.position_lt hi
  have hsizes : z.size = z.before.length + z.after.length := rfl
  have hfits := hediting.fits
  have htop := hediting.view.anchored.top_le
  rw [hediting.view.cursorPosition_eq, hediting.cursor]
  unfold uint32
  omega

theorem Editing.inputCount (hediting : Editing t top base anchor z) :
    uint32 t.currentScreen.inputSize.toInt = z.size := by
  have hle := hediting.size_le
  rw [hediting.size]
  exact uint32_of_lt (by omega)

theorem getInput_eq (hediting : Editing t top base anchor z) {bufferSize : UInt32}
    (hroom : (z.size : Int) + 1 ≤ int32 bufferSize.toNat) :
    t.getInput bufferSize = some (z.line ++ [0]) := by
  have hbuffer : ¬ int32 bufferSize.toNat < t.currentScreen.inputSize.toInt + 1 := by
    rw [hediting.size]
    omega
  simp only [getInput, if_neg hediting.inputMode, if_neg hbuffer, hediting.inputCount]
  congr 2
  apply List.ext_getElem
  · simp
  · intro i hi hi'
    rw [Zipper.line_length] at hi'
    have hlt := hediting.position_lt hi'
    rw [List.getElem_map, List.getElem_range, hediting.position_start hi',
      hediting.view.cellAt_character hlt.1 hlt.2, overwrite_add (by rwa [Zipper.line_length])]

theorem getInputAccess_accessed (hediting : Editing t top base anchor z) (bufferSize : UInt32) :
    Accessed t (t.getInputAccess bufferSize) := by
  simp only [getInputAccess]
  split
  · exact .refl t
  split
  · exact .refl t
  · refine forLoop_preserves (fun r => Accessed t r) (.refl t) ?_
    intro i r _ hi hr
    rw [hediting.inputCount] at hi
    have hposition := hediting.position_lt hi
    have hcell : (Access.data (uint32 (uint32 (t.cursorPosition
          - t.currentScreen.inputCursor.toInt) + i) / terminalWidth)
        (uint32 (uint32 (t.cursorPosition - t.currentScreen.inputCursor.toInt) + i)
          % terminalWidth)).Safe := by
      rw [hediting.position_start hi]
      simp only [Access.Safe, terminalWidth, vgaWidth]
      omega
    exact hr.access hcell

end Terminal

end KernelFromScratch
