import KernelFromScratch.Library.Zipper
import KernelFromScratch.Proof.Putc

/-!
# The line editor on the page

The input line is not stored: it is the cells of the page from the anchor, where the input starts,
on. Each editing function reads the characters after the cursor back from the cells, prints over
them and moves the cursor back.
-/

namespace KernelFromScratch

theorem int32_of_lt {n : Nat} (hlt : n < 2 ^ 31) : int32 n = n := by
  unfold int32
  exact Int.bmod_eq_of_le (by omega) (by omega)

theorem uint32_of_lt {n : Nat} (hlt : n < 2 ^ 32) : uint32 n = n := by
  unfold uint32
  omega

/-- The buffer moves up as far as the later of two ends needs. -/
theorem max_max_row (top : Nat) {pos pos' : Nat} (hle : pos ≤ pos') :
    max (max top (pos / 80 - 34)) (pos' / 80 - 34) = max top (pos' / 80 - 34) := by
  have hrow : pos / 80 - 34 ≤ pos' / 80 - 34 := Nat.sub_le_sub_right (Nat.div_le_div_right hle) 34
  rw [max_assoc, max_eq_right hrow]

theorem int8_toInt_ofInt {z : Int} (hle : -128 ≤ z) (hlt : z < 128) : (Int8.ofInt z).toInt = z :=
  Int8.toInt_ofInt_of_le hle hlt

namespace Terminal

variable {t r : Terminal} {top pos anchor : Nat} {cells : Nat → UInt8}

/-! ### Reading cells back -/

theorem View.cellAt_character (hview : View t top cells pos anchor) {q : Nat}
    (hle : top * 80 ≤ q) (hlt : q < top * 80 + 2800) :
    (t.cellAt (q - top * 80)).character = cells q := by
  have hdata := hview.window.data ((q - top * 80) / 80) (by omega) ((q - top * 80) % 80) (by omega)
  have hposition : (top + (q - top * 80) / 80) * 80 + (q - top * 80) % 80 = q := by omega
  simp only [cellAt, terminalWidth, vgaWidth, hdata, hposition]
  rfl

theorem View.cursorPosition_eq (hview : View t top cells pos anchor) :
    t.cursorPosition = pos - top * 80 := by
  have hlinear := hview.window.linear
  simp only [cursorPosition, terminalWidth, vgaWidth]
  omega

theorem View.pos_lt (hview : View t top cells pos anchor) : pos < top * 80 + 2800 := by
  have hlinear := hview.window.linear
  have hinside := hview.inside
  have hrow := hinside.row
  have hcolumn := hinside.column
  omega

theorem View.access (hview : View t top cells pos anchor) {a : Access} (ha : a.Safe) :
    View (t.access a) top cells pos anchor :=
  hview.of_currentScreen (currentScreen_access a t) (hview.safe.access ha)

theorem keeps_access (a : Access) (t : Terminal) : Keeps t (t.access a) :=
  keeps_of_currentScreen (frame_access a t) (currentScreen_access a t)

theorem View.cellAtAccess (hview : View t top cells pos anchor) {q : Nat}
    (hlt : q < top * 80 + 2800) : View (t.cellAtAccess (q - top * 80)) top cells pos anchor := by
  have hsafe : (Access.data ((q - top * 80) / terminalWidth)
      ((q - top * 80) % terminalWidth)).Safe := by
    simp only [Access.Safe, terminalWidth, vgaWidth]
    omega
  exact hview.access hsafe

/-! ### Printing over the line -/

/-- Printing characters of the buffer writes them over the page. -/
theorem putBuffer_view (hview : View t top cells pos anchor) {afterCursor chars : List UInt8}
    {start : Nat} (hchars : ∀ i (h : i < chars.length), afterCursor.getD (start + i) 0 = chars[i])
    (hbuffer : start + chars.length ≤ 127) (hnewline : newline ∉ chars)
    (hroom : pos + chars.length ≤ anchor + 127) :
    View (t.putBuffer afterCursor start chars.length)
      (max top ((pos + chars.length) / 80 - 34)) (overwrite cells pos chars) (pos + chars.length)
      anchor ∧ Keeps t (t.putBuffer afterCursor start chars.length) ∧
      (t.Displayed → (t.putBuffer afterCursor start chars.length).Displayed) := by
  have hpos := hview.pos_lt
  have hloop : View (t.putBuffer afterCursor start chars.length)
      (max top ((pos + chars.length) / 80 - 34)) (overwrite cells pos (chars.take chars.length))
      (pos + chars.length) anchor ∧ Keeps t (t.putBuffer afterCursor start chars.length) ∧
      (t.Displayed → (t.putBuffer afterCursor start chars.length).Displayed) := by
    refine forLoop_rule (fun n (r : Terminal) => View r (max top ((pos + n) / 80 - 34))
      (overwrite cells pos (chars.take n)) (pos + n) anchor ∧ Keeps t r ∧
      (t.Displayed → r.Displayed)) (Nat.zero_le chars.length) ?_ ?_
    · have htop : max top ((pos + 0) / 80 - 34) = top := by omega
      rw [htop, List.take_zero, overwrite_nil]
      exact ⟨hview, .refl t, id⟩
    · intro n r _ hn ⟨hr, hkeeps, _⟩
      have hc : chars[n] ≠ newline := fun h => hnewline (h ▸ List.getElem_mem hn)
      have haccess : (Access.afterCursor (start + n)).Safe := by
        change start + n < 127
        omega
      obtain ⟨hshown, hdisplayed⟩ := putc_shown (hr.access haccess) hc (by omega)
      have htop : max (max top ((pos + n) / 80 - 34)) ((pos + n + 1) / 80 - 34)
          = max top ((pos + (n + 1)) / 80 - 34) := max_max_row top (Nat.le_succ _)
      have hlength : (chars.take n).length = n := List.length_take_of_le hn.le
      have hcells : Function.update (overwrite cells pos (chars.take n)) (pos + n) chars[n]
          = overwrite cells pos (chars.take (n + 1)) := by
        have hconcat := overwrite_concat cells pos (chars.take n) chars[n]
        rw [hlength] at hconcat
        rw [hconcat, List.take_concat_get' chars n hn]
      simp only [hchars n hn]
      have hview' := hshown.view
      rw [htop, hcells] at hview'
      exact ⟨hview', (hkeeps.trans (keeps_access _ r)).trans hshown.keeps, fun _ => hdisplayed⟩
  rwa [List.take_length] at hloop

theorem putSpaces_view (hview : View t top cells pos anchor) {eraseCount : Nat}
    (hroom : pos + eraseCount ≤ anchor + 127) :
    View (t.putSpaces eraseCount) (max top ((pos + eraseCount) / 80 - 34))
      (overwrite cells pos (List.replicate eraseCount space)) (pos + eraseCount) anchor ∧
      Keeps t (t.putSpaces eraseCount) ∧
      (t.Displayed → (t.putSpaces eraseCount).Displayed) := by
  have hpos := hview.pos_lt
  refine forLoop_rule (fun n (r : Terminal) => View r (max top ((pos + n) / 80 - 34))
    (overwrite cells pos (List.replicate n space)) (pos + n) anchor ∧ Keeps t r ∧
    (t.Displayed → r.Displayed)) (Nat.zero_le eraseCount) ?_ ?_
  · have htop : max top ((pos + 0) / 80 - 34) = top := by omega
    rw [htop, List.replicate_zero, overwrite_nil]
    exact ⟨hview, .refl t, id⟩
  · intro n r _ hn ⟨hr, hkeeps, _⟩
    obtain ⟨hshown, hdisplayed⟩ := putc_shown hr (c := space) (by decide) (by omega)
    have htop : max (max top ((pos + n) / 80 - 34)) ((pos + n + 1) / 80 - 34)
        = max top ((pos + (n + 1)) / 80 - 34) := max_max_row top (Nat.le_succ _)
    have hcells : Function.update (overwrite cells pos (List.replicate n space)) (pos + n) space
        = overwrite cells pos (List.replicate (n + 1) space) := by
      have hconcat := overwrite_concat cells pos (List.replicate n space) space
      rw [List.length_replicate] at hconcat
      rw [hconcat, List.replicate_succ']
    have hview' := hshown.view
    rw [htop, hcells] at hview'
    exact ⟨hview', hkeeps.trans hshown.keeps, fun _ => hdisplayed⟩

/-- `put_input_after_cursor` prints `chars`, then blanks, and comes back: the page changes from the
cursor on and the cursor does not move. -/
theorem putInputAfterCursor_shown (hview : View t top cells pos anchor)
    {afterCursor chars : List UInt8} {start eraseCount : Nat}
    (hchars : ∀ i (h : i < chars.length), afterCursor.getD (start + i) 0 = chars[i])
    (hbuffer : start + chars.length ≤ 127) (hnewline : newline ∉ chars)
    (hroom : pos + chars.length + eraseCount ≤ anchor + 127) :
    Shown t (t.putInputAfterCursor afterCursor start chars.length eraseCount)
      (max top ((pos + chars.length + eraseCount) / 80 - 34))
      (overwrite cells pos (chars ++ List.replicate eraseCount space)) pos anchor ∧
    (t.Displayed →
      (t.putInputAfterCursor afterCursor start chars.length eraseCount).Displayed) := by
  have hpos := hview.pos_lt
  have hle := hview.anchor_le
  obtain ⟨hbufferView, hbufferKeeps, hbufferDisplayed⟩ :=
    putBuffer_view hview hchars hbuffer hnewline (by omega)
  obtain ⟨hspacesView, hspacesKeeps, hspacesDisplayed⟩ :=
    putSpaces_view hbufferView hroom
  have htop : max (max top ((pos + chars.length) / 80 - 34))
      ((pos + chars.length + eraseCount) / 80 - 34)
      = max top ((pos + chars.length + eraseCount) / 80 - 34) :=
    max_max_row top (Nat.le_add_right _ _)
  rw [htop, overwrite_append] at hspacesView
  have hoffset : ((pos + chars.length + eraseCount : Nat) : Int)
      + -int32 (chars.length + eraseCount) = pos := by
    rw [int32_of_lt (by omega)]
    omega
  obtain ⟨hmoved, hmovedDisplayed⟩ :=
    moveCursor_shown hspacesView hoffset hle (by omega) (by omega)
  exact ⟨⟨hmoved.view, (hbufferKeeps.trans hspacesKeeps).trans hmoved.keeps, hmoved.visible,
    hmoved.tracked⟩, fun h => hmovedDisplayed (hspacesDisplayed (hbufferDisplayed h))⟩

/-- The deletion loop goes back `count` cells and blanks them. -/
theorem delInputLoop_view (hview : View t top cells pos anchor) {count : Nat}
    (hcount : anchor + count ≤ pos) :
    View (t.delInputLoop count) top (overwrite cells (pos - count) (List.replicate count space))
      (pos - count) anchor ∧ Keeps t (t.delInputLoop count) ∧
      (t.Displayed → (t.delInputLoop count).Displayed) := by
  refine forLoop_rule (fun n (r : Terminal) =>
    View r top (overwrite cells (pos - n) (List.replicate n space)) (pos - n) anchor ∧
    Keeps t r ∧ (t.Displayed → r.Displayed)) (Nat.zero_le count) ?_ ?_
  · rw [Nat.sub_zero, List.replicate_zero, overwrite_nil]
    exact ⟨hview, .refl t, id⟩
  · intro n r _ hn ⟨hr, hkeeps, hdisplayed⟩
    obtain ⟨hstep, hstepKeeps, hstepDisplayed⟩ := delInputStep_view hr (by omega)
    have hpos : pos - n = pos - (n + 1) + 1 := by omega
    have hcells : Function.update (overwrite cells (pos - n) (List.replicate n space)) (pos - n - 1)
        space = overwrite cells (pos - (n + 1)) (List.replicate (n + 1) space) := by
      have hsub : pos - n - 1 = pos - (n + 1) := by omega
      rw [hsub, hpos, overwrite_cons, List.replicate_succ]
    rw [hcells] at hstep
    have hsub : pos - n - 1 = pos - (n + 1) := by omega
    rw [hsub] at hstep
    exact ⟨hstep, hkeeps.trans hstepKeeps, fun h => hstepDisplayed (hdisplayed h)⟩

end Terminal

end KernelFromScratch
