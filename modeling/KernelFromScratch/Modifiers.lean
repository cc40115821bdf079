import KernelFromScratch.Library.Run
import KernelFromScratch.Proof.Reaction

/-!
# The modifier keys

What a keyboard sends for its physical keys, and how the flags of `handle_scancode` follow them.
Each Shift key has a flag of its own. The two Ctrl keys share one, so a release of either clears it
while the other may still be held.
-/

namespace KernelFromScratch

/-! ### Physical keys -/

/-- The presses and releases of Ctrl and Shift, without prefixes. -/
def modifierCodes : List UInt8 := [0x1D, 0x9D, 0x2A, 0xAA, 0x36, 0xB6]

/-- The codes of a key that is no modifier. -/
structure OwnCodes where
  press : List UInt8
  release : List UInt8
  press_own : ∀ code ∈ press, code ∉ modifierCodes
  release_own : ∀ code ∈ release, code ∉ modifierCodes

/-- Pause is apart: its code contains the codes of Ctrl. -/
inductive PhysicalKey where
  | leftCtrl
  | rightCtrl
  | leftShift
  | rightShift
  | pause
  | other (codes : OwnCodes)

/-- The modifier keys that are down. -/
structure HeldKeys where
  leftCtrl : Bool
  rightCtrl : Bool
  leftShift : Bool
  rightShift : Bool

namespace HeldKeys

def none : HeldKeys := ⟨false, false, false, false⟩

def ctrl (held : HeldKeys) : Bool := held.leftCtrl || held.rightCtrl

def shift (held : HeldKeys) : Bool := held.leftShift || held.rightShift

def after (key : PhysicalKey) (down : Bool) (held : HeldKeys) : HeldKeys :=
  match key with
  | .leftCtrl => { held with leftCtrl := down }
  | .rightCtrl => { held with rightCtrl := down }
  | .leftShift => { held with leftShift := down }
  | .rightShift => { held with rightShift := down }
  | .pause => held
  | .other _ => held

/-- A Ctrl key is released while the other one is held. -/
def losesCtrl (key : PhysicalKey) (down : Bool) (held : HeldKeys) : Bool :=
  !down &&
    match key with
    | .leftCtrl => held.rightCtrl
    | .rightCtrl => held.leftCtrl
    | _ => false

end HeldKeys

/-- What a key sends in scancode set 1 when it goes down (again, if it is held) or up. Together with
Ctrl, Pause is Break. -/
def PhysicalKey.codes (held : HeldKeys) (down : Bool) : PhysicalKey → List UInt8
  | leftCtrl => [if down then 0x1D else 0x9D]
  | rightCtrl => [0xE0, if down then 0x1D else 0x9D]
  | leftShift => [if down then 0x2A else 0xAA]
  | rightShift => [if down then 0x36 else 0xB6]
  | pause =>
    if down then
      if held.ctrl then [0xE0, 0x46, 0xE0, 0xC6] else [0xE1, 0x1D, 0x45, 0xE1, 0x9D, 0xC5]
    else []
  | other codes => if down then codes.press else codes.release

/-! ### The flags -/

structure Modifiers where
  ctrl : Bool
  leftShift : Bool
  rightShift : Bool

namespace Modifiers

def take (code : UInt8) (m : Modifiers) : Modifiers :=
  if code = keyLeftShiftPress then { m with leftShift := true }
  else if code = keyLeftShiftRelease then { m with leftShift := false }
  else if code = keyRightShiftPress then { m with rightShift := true }
  else if code = keyRightShiftRelease then { m with rightShift := false }
  else if code = keyCtrlPressed then { m with ctrl := true }
  else if code = keyCtrlReleased then { m with ctrl := false }
  else m

def takeAll (codes : List UInt8) (m : Modifiers) : Modifiers :=
  codes.foldl (fun m code => m.take code) m

theorem take_own {code : UInt8} (hown : code ∉ modifierCodes) (m : Modifiers) :
    m.take code = m := by
  simp only [modifierCodes, List.mem_cons, List.not_mem_nil, or_false, not_or] at hown
  obtain ⟨hctrl, hctrlUp, hleft, hleftUp, hright, hrightUp⟩ :
    ¬code = keyCtrlPressed ∧ ¬code = keyCtrlReleased ∧ ¬code = keyLeftShiftPress ∧
      ¬code = keyLeftShiftRelease ∧ ¬code = keyRightShiftPress ∧ ¬code = keyRightShiftRelease := hown
  rw [take, if_neg hleft, if_neg hleftUp, if_neg hright, if_neg hrightUp, if_neg hctrl,
    if_neg hctrlUp]

theorem takeAll_own {codes : List UInt8} (hown : ∀ code ∈ codes, code ∉ modifierCodes)
    (m : Modifiers) : m.takeAll codes = m := by
  induction codes with
  | nil => rfl
  | cons code codes ih =>
      calc m.takeAll (code :: codes)
          = (m.take code).takeAll codes := rfl
        _ = m.takeAll codes := by rw [take_own (hown code List.mem_cons_self)]
        _ = m := ih fun code hcode => hown code (List.mem_cons_of_mem _ hcode)

end Modifiers

def Keyboard.modifiers (keyboard : Keyboard) : Modifiers :=
  ⟨keyboard.isCtrl, keyboard.isLeftShift, keyboard.isRightShift⟩

namespace Reaction

theorem modifiers_of_some {keyboard keyboard' : Keyboard} {scancode : UInt8}
    (hmodifier : keyboard.modifier scancode = some keyboard') :
    keyboard'.modifiers = keyboard.modifiers.take scancode := by
  unfold Keyboard.modifier at hmodifier
  unfold Modifiers.take
  split_ifs at hmodifier ⊢ <;> cases hmodifier <;> rfl

theorem take_of_none {keyboard : Keyboard} {scancode : UInt8}
    (hmodifier : keyboard.modifier scancode = none) (m : Modifiers) : m.take scancode = m := by
  unfold Keyboard.modifier at hmodifier
  unfold Modifiers.take
  split_ifs at hmodifier ⊢
  rfl

theorem modifiers_ofFunction (output : CommandOutput) (shell : Shell) (keyboard : Keyboard)
    (function : ShellFunction) :
    (ofFunction output shell keyboard function).keyboard.modifiers = keyboard.modifiers := by
  cases function <;> rfl

theorem modifiers_ofCall (output : CommandOutput) (shell : Shell) (keyboard : Keyboard)
    (function : ShellFunction) :
    (ofCall output shell keyboard function).keyboard.modifiers = keyboard.modifiers := by
  unfold ofCall
  split_ifs
  · cases shell.lastCommand with
    | none => rfl
    | some i => exact modifiers_ofFunction output shell keyboard _
  · exact modifiers_ofFunction output shell keyboard function

theorem keyboard_ofCommand (command : List UInt8) (i : CommandIndex) (called : Reaction) :
    (ofCommand command i called).keyboard = called.keyboard := by
  unfold ofCommand
  split_ifs <;> rfl

theorem modifiers_ofLine (output : CommandOutput) (shell : Shell) (keyboard : Keyboard)
    (command : List UInt8) :
    (ofLine output shell keyboard command).keyboard.modifiers = keyboard.modifiers := by
  unfold ofLine
  by_cases hpending : shell.readPending = true
  · rw [if_pos hpending]
  · rw [if_neg hpending]
    cases shell.findCommand command with
    | none => rfl
    | some i =>
        simp only
        rw [keyboard_ofCommand, modifiers_ofCall]

theorem modifiers_ofSpecial (output : CommandOutput) (shell : Shell) (keyboard : Keyboard)
    (scancode : UInt8) (line : Option (List UInt8)) :
    (ofSpecial output shell keyboard scancode line).keyboard.modifiers = keyboard.modifiers := by
  unfold ofSpecial
  split_ifs
  · cases line with
    | none => rfl
    | some command => exact modifiers_ofLine output shell keyboard command
  all_goals rfl

/-- Only the codes of the first `switch` change the flags. -/
theorem modifiers_ofScancode (output : CommandOutput) (shell : Shell) (keyboard : Keyboard)
    (scancode : UInt8) (line : Option (List UInt8)) :
    (ofScancode output shell keyboard scancode line).keyboard.modifiers
      = keyboard.modifiers.take scancode := by
  unfold ofScancode
  cases hmodifier : keyboard.modifier scancode with
  | some keyboard' => exact modifiers_of_some hmodifier
  | none =>
      rw [take_of_none hmodifier]
      simp only
      split_ifs
      · rfl
      · rfl
      · rfl
      · rfl
      · exact modifiers_ofSpecial output shell keyboard scancode line

theorem keyboard_of_perform {reaction : Reaction} {k k' : Kernel}
    (hreturns : reaction.perform k = .ok k') : k'.keyboard = reaction.keyboard := by
  unfold perform at hreturns
  simp only at hreturns
  split_ifs at hreturns
  cases hreturns
  rfl

end Reaction

namespace Kernel

variable {k k' : Kernel}

theorem modifiers_handle {event : KeyEvent} (hreturns : k.handle event = .ok k') :
    k'.keyboard.modifiers = k.keyboard.modifiers.take event.scancode := by
  rw [handle, Reaction.handleScancode_eq] at hreturns
  rw [Reaction.keyboard_of_perform hreturns]
  exact Reaction.modifiers_ofScancode event.output k.shell k.keyboard event.scancode _

theorem modifiers_handleAll {events : List KeyEvent} (hrun : k.handleAll events = .ok k') :
    k'.keyboard.modifiers = k.keyboard.modifiers.takeAll (events.map KeyEvent.scancode) := by
  induction events generalizing k with
  | nil =>
      cases hrun
      rfl
  | cons event events ih =>
      obtain ⟨next, hfirst, hrest⟩ := foldlM_cons_ok hrun
      calc k'.keyboard.modifiers
          = next.keyboard.modifiers.takeAll (events.map KeyEvent.scancode) := ih hrest
        _ = (k.keyboard.modifiers.take event.scancode).takeAll (events.map KeyEvent.scancode) := by
          rw [modifiers_handle hfirst]
        _ = k.keyboard.modifiers.takeAll ((event :: events).map KeyEvent.scancode) := rfl

end Kernel

/-! ### Typing -/

/-- A physical key goes down or up, and what the commands print meanwhile, for each code sent. -/
structure Keystroke where
  key : PhysicalKey
  down : Bool
  output : Nat → CommandOutput

/-- The keys that are held, and the kernel that has handled all codes sent. -/
structure Typing where
  held : HeldKeys
  kernel : Kernel

namespace Typing

def start (vga : Vga) : Typing := ⟨.none, .boot vga⟩

def keyEvents (stroke : Keystroke) (held : HeldKeys) : List KeyEvent :=
  (stroke.key.codes held stroke.down).mapIdx fun i code => ⟨code, stroke.output i⟩

def strike (stroke : Keystroke) (typing : Typing) : Except Kernel Typing :=
  (typing.kernel.handleAll (keyEvents stroke typing.held)).map fun k =>
    ⟨typing.held.after stroke.key stroke.down, k⟩

def modifiers (typing : Typing) : Modifiers := typing.kernel.keyboard.modifiers

def run (strokes : List Keystroke) (typing : Typing) : Except Kernel Typing :=
  strokes.foldlM (fun typing stroke => typing.strike stroke) typing

variable {typing typing' : Typing} {stroke : Keystroke}

theorem strike_ok (hstrike : typing.strike stroke = .ok typing') :
    typing'.held = typing.held.after stroke.key stroke.down ∧
      typing'.modifiers
        = typing.modifiers.takeAll (stroke.key.codes typing.held stroke.down) := by
  unfold strike at hstrike
  cases hrun : typing.kernel.handleAll (keyEvents stroke typing.held) with
  | error k =>
      rw [hrun] at hstrike
      cases hstrike
  | ok k =>
      rw [hrun] at hstrike
      cases hstrike
      have hcodes : (keyEvents stroke typing.held).map KeyEvent.scancode
          = stroke.key.codes typing.held stroke.down := by
        rw [keyEvents, List.mapIdx_eq_zipIdx_map, List.map_map]
        exact List.zipIdx_map_fst _ _
      refine ⟨rfl, ?_⟩
      rw [modifiers, Kernel.modifiers_handleAll hrun, hcodes]
      rfl

/-- The release of a Ctrl key is always handled. -/
theorem strike_release (hkey : stroke.key = .leftCtrl ∨ stroke.key = .rightCtrl)
    (hup : stroke.down = false) : ∃ typing', typing.strike stroke = .ok typing' := by
  obtain ⟨key, down, output⟩ := stroke
  subst hup
  rcases hkey with rfl | rfl
  · exact ⟨_, rfl⟩
  · exact ⟨_, rfl⟩

/-! ### Following the keys -/

def CtrlFollows (typing : Typing) : Prop :=
  typing.kernel.keyboard.isCtrl = typing.held.ctrl

def ShiftFollows (typing : Typing) : Prop :=
  (typing.kernel.keyboard.isLeftShift || typing.kernel.keyboard.isRightShift) = typing.held.shift

/-- Each Shift key has its flag. -/
def ShiftsFollow (typing : Typing) : Prop :=
  typing.kernel.keyboard.isLeftShift = typing.held.leftShift ∧
    typing.kernel.keyboard.isRightShift = typing.held.rightShift

theorem ShiftsFollow.shiftFollows (hfollow : typing.ShiftsFollow) : typing.ShiftFollows := by
  rw [ShiftFollows, hfollow.1, hfollow.2]
  rfl

theorem shiftsFollow_strike (hfollow : typing.ShiftsFollow)
    (hstrike : typing.strike stroke = .ok typing') : typing'.ShiftsFollow := by
  obtain ⟨hheld, hmodifiers⟩ := strike_ok hstrike
  obtain ⟨key, down, output⟩ := stroke
  obtain ⟨hleft, hright⟩ := hfollow
  have hflags : typing'.modifiers.leftShift = typing'.held.leftShift ∧
      typing'.modifiers.rightShift = typing'.held.rightShift := by
    rw [hheld, hmodifiers]
    cases key with
    | leftCtrl => cases down <;> exact ⟨hleft, hright⟩
    | rightCtrl => cases down <;> exact ⟨hleft, hright⟩
    | leftShift => cases down <;> exact ⟨rfl, hright⟩
    | rightShift => cases down <;> exact ⟨hleft, rfl⟩
    | pause =>
        simp only [PhysicalKey.codes]
        split_ifs <;> exact ⟨hleft, hright⟩
    | other codes =>
        simp only [PhysicalKey.codes]
        split_ifs
        · rw [Modifiers.takeAll_own codes.press_own]
          exact ⟨hleft, hright⟩
        · rw [Modifiers.takeAll_own codes.release_own]
          exact ⟨hleft, hright⟩
  exact hflags

theorem ctrlFollows_strike (hfollows : typing.CtrlFollows)
    (hkept : typing.held.losesCtrl stroke.key stroke.down = false)
    (hstrike : typing.strike stroke = .ok typing') : typing'.CtrlFollows := by
  obtain ⟨hheld, hmodifiers⟩ := strike_ok hstrike
  obtain ⟨key, down, output⟩ := stroke
  have hflag : typing'.modifiers.ctrl = typing'.held.ctrl := by
    rw [hheld, hmodifiers]
    cases key with
    | leftCtrl =>
        cases down with
        | true => rfl
        | false => exact hkept.symm
    | rightCtrl =>
        cases down with
        | true => exact (Bool.or_true _).symm
        | false => exact (Bool.or_false _).trans hkept |>.symm
    | leftShift => cases down <;> exact hfollows
    | rightShift => cases down <;> exact hfollows
    | pause =>
        simp only [PhysicalKey.codes]
        split_ifs with hdown hctrl
        · exact hfollows
        · exact (Bool.eq_false_of_not_eq_true hctrl).symm
        · exact hfollows
    | other codes =>
        simp only [PhysicalKey.codes]
        split_ifs
        · rw [Modifiers.takeAll_own codes.press_own]
          exact hfollows
        · rw [Modifiers.takeAll_own codes.release_own]
          exact hfollows
  exact hflag

theorem not_ctrlFollows_strike (hlost : typing.held.losesCtrl stroke.key stroke.down = true) :
    ∃ typing', typing.strike stroke = .ok typing' ∧ ¬typing'.CtrlFollows := by
  unfold HeldKeys.losesCtrl at hlost
  rw [Bool.and_eq_true, Bool.not_eq_true'] at hlost
  obtain ⟨hup, hother⟩ := hlost
  have hkey : stroke.key = .leftCtrl ∨ stroke.key = .rightCtrl := by
    revert hother
    cases stroke.key with
    | leftCtrl => exact fun _ => .inl rfl
    | rightCtrl => exact fun _ => .inr rfl
    | _ => exact fun hother => by cases hother
  obtain ⟨typing', hstrike⟩ := @strike_release typing stroke hkey hup
  refine ⟨typing', hstrike, fun hfollows => ?_⟩
  obtain ⟨hheld, hmodifiers⟩ := strike_ok hstrike
  have hflag : typing'.modifiers.ctrl = typing'.held.ctrl := hfollows
  rw [hheld, hmodifiers, hup] at hflag
  rcases hkey with hkey | hkey
  · rw [hkey] at hflag hother
    have hheldCtrl : (typing.held.after .leftCtrl false).ctrl = true := hother
    rw [hheldCtrl] at hflag
    cases hflag
  · rw [hkey] at hflag hother
    have hheldCtrl : (typing.held.after .rightCtrl false).ctrl = true := by
      rw [HeldKeys.ctrl, Bool.or_eq_true]
      exact .inl hother
    rw [hheldCtrl] at hflag
    cases hflag

end Typing

/-- After every key event that has been handled, the state of Ctrl and of Shift is that of the
keys. -/
def ModifiersFollow (vga : Vga) (strokes : List Keystroke) : Prop :=
  ∀ before typing, before <+: strokes → (Typing.start vga).run before = .ok typing →
    typing.CtrlFollows ∧ typing.ShiftFollows

theorem shiftFollows_run (vga : Vga) {strokes : List Keystroke} {typing : Typing}
    (hrun : (Typing.start vga).run strokes = .ok typing) : typing.ShiftFollows := by
  have hstart : (Typing.start vga).ShiftsFollow := ⟨rfl, rfl⟩
  have hshifts : typing.ShiftsFollow :=
    foldlM_invariant Typing.ShiftsFollow (fun _ _ _ => Typing.shiftsFollow_strike) hstart hrun
  exact hshifts.shiftFollows

/-- The modifiers follow the keys exactly when no Ctrl key is released while the other one is
held. -/
theorem modifiersFollow_iff (vga : Vga) (strokes : List Keystroke) :
    ModifiersFollow vga strokes
      ↔ Along (fun typing stroke => typing.strike stroke)
          (fun typing stroke => typing.held.losesCtrl stroke.key stroke.down = false)
          strokes (Typing.start vga) := by
  constructor
  · intro hfollow
    refine along_of_prefixes fun before stroke typing hreached hrun => ?_
    by_contra hlost
    obtain ⟨typing', hstrike, hwrong⟩ :=
      Typing.not_ctrlFollows_strike (Bool.eq_true_of_not_eq_false hlost)
    have hnext : (Typing.start vga).run (before ++ [stroke]) = .ok typing' :=
      foldlM_concat_ok.mpr ⟨typing, hrun, hstrike⟩
    exact hwrong (hfollow _ typing' hreached hnext).1
  · rintro hkept before typing ⟨after, rfl⟩ hrun
    refine ⟨?_, shiftFollows_run vga hrun⟩
    exact foldlM_invariant_along Typing.CtrlFollows
      (fun _ _ _ => Typing.ctrlFollows_strike) hkept.of_append rfl hrun

/-- Both Ctrl keys go down and the left one comes up. -/
theorem ctrl_lost_with_right_held :
    let silent : Nat → CommandOutput := fun _ => ⟨[], [], true, true⟩
    ¬ModifiersFollow ⟨fun _ => 0, 0, fun _ => 0, fun _ => 0⟩
      [⟨.leftCtrl, true, silent⟩, ⟨.rightCtrl, true, silent⟩, ⟨.leftCtrl, false, silent⟩] := by
  intro silent hfollow
  have hctrl := (hfollow _ _ (List.prefix_refl _) rfl).1
  cases hctrl

end KernelFromScratch
