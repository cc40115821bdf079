import KernelFromScratch.ReadCommand

/-!
# Typing

The keys that type a line. From every state between two scancodes some keys leave any line of
characters of the layout to be submitted, as long as it fits; in particular the name of every command.
-/

namespace KernelFromScratch

open Terminal TerminalOp Reaction

section Keys

/-- The character of a key on one of the two levels of a layout. -/
def levelCharacter (layout : KeyboardLayout) (upper : Bool) (scancode : UInt8) : UInt8 :=
  (⟨upper, false, false, false, layout⟩ : Keyboard).character scancode

/-- The keys with their levels. -/
def levelKeys : List (Bool × UInt8) :=
  [false, true].flatMap fun upper =>
    (List.range scancodeMapSize).map fun scancode => (upper, .ofNat scancode)

def Typeable (layout : KeyboardLayout) (c : UInt8) : Prop :=
  c ≠ 0 ∧ ∃ key ∈ levelKeys, levelCharacter layout key.1 key.2 = c

instance (layout : KeyboardLayout) : DecidablePred (Typeable layout) := fun _ =>
  inferInstanceAs (Decidable (_ ∧ ∃ _ ∈ _, _))

/-- The scancodes of the keys that type a character, with no modifier held. -/
def strokes (layout : KeyboardLayout) (isLock : Bool) (c : UInt8) : List UInt8 :=
  match levelKeys.find? fun key => levelCharacter layout key.1 key.2 = c with
  | some (upper, scancode) =>
      if upper = isLock then [scancode] else [keyLeftShiftPress, scancode, keyLeftShiftRelease]
  | none => []

def typeLine (layout : KeyboardLayout) (isLock : Bool) (line : List UInt8) : List UInt8 :=
  line.flatMap (strokes layout isLock)

def releaseModifiers : List UInt8 := [keyCtrlReleased, keyLeftShiftRelease, keyRightShiftRelease]

/-- Whatever the line and the cursor are, these keys leave an empty line. -/
def eraseLine : List UInt8 :=
  List.replicate inputCapacity keyBackspace ++ List.replicate inputCapacity keyDelete

/-- These keys leave `line` to be submitted, whatever was typed before. -/
def lineKeys (keyboard : Keyboard) (line : List UInt8) : List UInt8 :=
  releaseModifiers ++ eraseLine ++ typeLine keyboard.currentLayout keyboard.isLock line

def Keyboard.released (keyboard : Keyboard) : Keyboard :=
  ⟨keyboard.isLock, false, false, false, keyboard.currentLayout⟩

end Keys

variable {a a' a'' : SessionKernel} {keyboard : Keyboard} {layout : KeyboardLayout}
  {upper isLock : Bool} {scancode c : UInt8} {f g : Zipper UInt8 → Zipper UInt8}
  {line before after : List UInt8} {scancodes scancodes' : List UInt8} {op : EditOp}

/-! ### Keys that edit -/

theorem mem_levelKeys (hmem : (upper, scancode) ∈ levelKeys) : scancode.toNat < scancodeMapSize := by
  obtain ⟨upper', -, hmem⟩ := List.mem_flatMap.mp hmem
  obtain ⟨n, hn, heq⟩ := List.mem_map.mp hmem
  obtain ⟨-, rfl⟩ := Prod.mk.inj heq
  have hlt : n < 128 := List.mem_range.mp hn
  rw [UInt8.toNat_ofNat']
  change n % 2 ^ 8 < 128
  omega

/-- A modifier key has no character. -/
theorem modifier_of_character (hrange : scancode.toNat < scancodeMapSize)
    (hcharacter : keyboard.character scancode ≠ 0) : keyboard.modifier scancode = none := by
  have hzero : ∀ modifier : UInt8, modifier = keyLeftShiftPress ∨ modifier = keyRightShiftPress ∨
      modifier = keyCtrlPressed → keyboard.character modifier = 0 := by
    rintro modifier (rfl | rfl | rfl)
    all_goals
      obtain ⟨isLock, isCtrl, isLeftShift, isRightShift, currentLayout⟩ := keyboard
      unfold Keyboard.character
      cases currentLayout <;> simp only <;> split_ifs <;> rfl
  have hbelow : ∀ code : UInt8, 128 ≤ code.toNat → scancode ≠ code := by
    rintro code hcode rfl
    exact absurd hrange (Nat.not_lt.mpr hcode)
  have hne : ∀ modifier : UInt8, modifier = keyLeftShiftPress ∨ modifier = keyRightShiftPress ∨
      modifier = keyCtrlPressed → scancode ≠ modifier := by
    rintro modifier hmodifier rfl
    exact hcharacter (hzero _ hmodifier)
  rw [Keyboard.modifier, if_neg (hne _ (Or.inl rfl)), if_neg (hbelow _ (by decide)),
    if_neg (hne _ (Or.inr (Or.inl rfl))), if_neg (hbelow _ (by decide)),
    if_neg (hne _ (Or.inr (Or.inr rfl))), if_neg (hbelow _ (by decide))]

theorem ofScancode_character (output : CommandOutput) (shell : Shell) (line : Option (List UInt8))
    (hctrl : keyboard.isCtrl = false) (hrange : scancode.toNat < scancodeMapSize)
    (hcharacter : keyboard.character scancode ≠ 0) :
    ofScancode output shell keyboard scancode line
      = ofOp shell keyboard (.edit (.putcInput (keyboard.character scancode))) := by
  rw [ofScancode, modifier_of_character hrange hcharacter]
  simp only [if_neg (Nat.not_le.mpr hrange), hctrl, if_neg Bool.false_ne_true, if_pos hcharacter]

/-- The keys of the last `switch` have no character. -/
theorem ofScancode_erase (output : CommandOutput) (shell : Shell) (line : Option (List UInt8))
    (hctrl : keyboard.isCtrl = false) :
    ofScancode output shell keyboard keyBackspace line
        = ofOp shell keyboard (.edit (.delInput 1)) ∧
      ofScancode output shell keyboard keyDelete line
        = ofOp shell keyboard (.edit (.delInputForward 1)) := by
  have hzero : keyboard.character keyBackspace = 0 ∧ keyboard.character keyDelete = 0 := by
    obtain ⟨isLock, isCtrl, isLeftShift, isRightShift, currentLayout⟩ := keyboard
    unfold Keyboard.character
    constructor
    all_goals cases currentLayout <;> simp only <;> split_ifs <;> rfl
  have hmodifier : keyboard.modifier keyBackspace = none ∧ keyboard.modifier keyDelete = none :=
    ⟨rfl, rfl⟩
  constructor
  · rw [ofScancode, hmodifier.1]
    simp only [hctrl, hzero.1]
    rfl
  · rw [ofScancode, hmodifier.2]
    simp only [hctrl, hzero.2]
    rfl

/-! ### What a run of keys does to the line -/

namespace SessionKernel

/-- The line of the shown screen and the cursor in it. -/
def zipper (a : SessionKernel) : Option (Zipper UInt8) :=
  (a.sessions.sessions a.sessions.index).map Session.line

/-- The line is edited, the keys are `keyboard`, and nothing is submitted. -/
structure Edited (f : Zipper UInt8 → Zipper UInt8) (keyboard : Keyboard) (a a' : SessionKernel) :
    Prop where
  zipper : a'.zipper = a.zipper.map f
  keyboard : a'.keyboard = keyboard
  shell : a'.shell = a.shell
  executed : a'.executed = a.executed

/-- Handling the scancodes edits the line so. -/
def Edits (scancodes : List UInt8) (f : Zipper UInt8 → Zipper UInt8) (keyboard : Keyboard)
    (a : SessionKernel) : Prop :=
  ∃ a', a.handleAll (keys scancodes) = .ok a' ∧ Edited f keyboard a a'

theorem edits_nil (a : SessionKernel) : a.Edits [] id a.keyboard := by
  refine ⟨a, rfl, ?_, rfl, rfl, rfl⟩
  rw [Option.map_id]
  rfl

theorem handleAll_append {x y z : SessionKernel} {events events' : List KeyEvent}
    (hfirst : x.handleAll events = .ok y) (hsecond : y.handleAll events' = .ok z) :
    x.handleAll (events ++ events') = .ok z := by
  rw [handleAll, List.foldlM_append]
  rw [handleAll] at hfirst
  rw [hfirst]
  exact hsecond

theorem Edits.append {keyboard' : Keyboard} (hfirst : a.Edits scancodes f keyboard)
    (hsecond : ∀ a', Edited f keyboard a a' → a'.Edits scancodes' g keyboard') :
    a.Edits (scancodes ++ scancodes') (g ∘ f) keyboard' := by
  obtain ⟨a', hrun, hedited⟩ := hfirst
  obtain ⟨a'', hrun', hedited'⟩ := hsecond a' hedited
  refine ⟨a'', ?_, ?_, hedited'.keyboard, hedited'.shell.trans hedited.shell,
    hedited'.executed.trans hedited.executed⟩
  · rw [keys, List.map_append]
    exact handleAll_append hrun hrun'
  · rw [hedited'.zipper, hedited.zipper, Option.map_map]

theorem edits_quiet {keyboard' : Keyboard} (hmodifier : a.keyboard.modifier scancode = some keyboard') :
    a.Edits [scancode] id keyboard' := by
  have hhandle : a.handle ⟨scancode, ⟨[], [], true, true⟩⟩ = .ok ⟨a.sessions, a.shell, keyboard', a.executed⟩ := by
    rw [handle, ofScancode, hmodifier]
    rfl
  refine ⟨_, foldlM_cons_of_ok hhandle rfl, ?_, rfl, rfl, rfl⟩
  rw [Option.map_id]
  rfl

theorem edits_op
    (hreaction : ofScancode ⟨[], [], true, true⟩ a.shell a.keyboard scancode a.line
      = ofOp a.shell a.keyboard (.edit op)) : a.Edits [scancode] op.zipper a.keyboard := by
  have hhandle : a.handle ⟨scancode, ⟨[], [], true, true⟩⟩ = .ok ⟨a.sessions.modify (Session.edit op.zipper),
      a.shell, a.keyboard, a.executed⟩ := by
    rw [handle, hreaction]
    rfl
  refine ⟨_, foldlM_cons_of_ok hhandle rfl, ?_, rfl, rfl, rfl⟩
  have hshown := Sessions.sessions_modify_self (Session.edit op.zipper) a.sessions
  calc ((a.sessions.modify (Session.edit op.zipper)).sessions a.sessions.index).map Session.line
      = ((a.sessions.sessions a.sessions.index).map (Session.edit op.zipper)).map Session.line := by
        rw [hshown]
    _ = (a.sessions.sessions a.sessions.index).map (op.zipper ∘ Session.line) := by
        rw [Option.map_map]
        rfl
    _ = a.zipper.map op.zipper := by rw [zipper, Option.map_map]

/-- A key that edits the line in the same way whatever the line is, pressed again and again. -/
theorem edits_replicate (n : Nat)
    (hreaction : ∀ shell line, ofScancode ⟨[], [], true, true⟩ shell keyboard scancode line
      = ofOp shell keyboard (.edit op)) (hkeyboard : a.keyboard = keyboard) :
    a.Edits (List.replicate n scancode) op.zipper^[n] keyboard := by
  induction n generalizing a with
  | zero =>
      rw [← hkeyboard]
      exact edits_nil a
  | succ n ih =>
      have hfirst : a.Edits [scancode] op.zipper keyboard := by
        rw [← hkeyboard] at hreaction ⊢
        exact edits_op (hreaction a.shell a.line)
      have hall := hfirst.append fun a' hedited => ih hedited.keyboard
      rw [Function.iterate_succ]
      exact hall

/-! ### The keys of a character -/

theorem character_level (scancode : UInt8) (keyboard : Keyboard) :
    keyboard.character scancode = levelCharacter keyboard.currentLayout
      (xor keyboard.isLock (keyboard.isLeftShift || keyboard.isRightShift)) scancode := by
  simp only [levelCharacter, Keyboard.character, Bool.or_false, Bool.xor_false]

theorem edits_character (hctrl : a.keyboard.isCtrl = false)
    (hrange : scancode.toNat < scancodeMapSize) (hc : c ≠ 0)
    (hcharacter : a.keyboard.character scancode = c) :
    a.Edits [scancode] (Zipper.insert inputCapacity c) a.keyboard := by
  have hne : a.keyboard.character scancode ≠ 0 := by rwa [hcharacter]
  have hreaction := ofScancode_character ⟨[], [], true, true⟩ a.shell a.line hctrl hrange hne
  rw [hcharacter] at hreaction
  exact edits_op hreaction

theorem edits_strokes (hkeyboard : a.keyboard = keyboard.released)
    (htypeable : Typeable keyboard.currentLayout c) :
    a.Edits (strokes keyboard.currentLayout keyboard.isLock c) (Zipper.insert inputCapacity c)
      keyboard.released := by
  obtain ⟨hc, hfound⟩ := htypeable
  cases hfind : levelKeys.find? fun key =>
      levelCharacter keyboard.currentLayout key.1 key.2 = c with
  | none =>
      obtain ⟨key, hmem, hkey⟩ := hfound
      exact absurd (decide_eq_true hkey) (List.find?_eq_none.mp hfind key hmem)
  | some key =>
      obtain ⟨upper, scancode⟩ := key
      have hdecided := List.find?_some hfind
      have hlevel : levelCharacter keyboard.currentLayout upper scancode = c :=
        of_decide_eq_true hdecided
      have hrange := mem_levelKeys (List.mem_of_find?_eq_some hfind)
      rw [strokes, hfind]
      simp only
      by_cases hupper : upper = keyboard.isLock
      · rw [if_pos hupper]
        have hcharacter : a.keyboard.character scancode = c := by
          rw [character_level, hkeyboard, ← hlevel, hupper]
          simp only [Keyboard.released, Bool.or_false, Bool.xor_false]
        have hedits := edits_character (by rw [hkeyboard]; rfl) hrange hc hcharacter
        rw [hkeyboard] at hedits
        exact hedits
      · rw [if_neg hupper]
        set shifted : Keyboard := { keyboard.released with isLeftShift := true } with hshifted
        have hpress : a.Edits [keyLeftShiftPress] id shifted := by
          refine edits_quiet ?_
          rw [hkeyboard]
          rfl
        have htyped : ∀ a', Edited id shifted a a' →
            a'.Edits [scancode] (Zipper.insert inputCapacity c) shifted := by
          intro a' hedited
          have hcharacter : a'.keyboard.character scancode = c := by
            rw [character_level, hedited.keyboard, ← hlevel]
            have hxor : xor keyboard.isLock true = upper := by
              revert hupper
              generalize keyboard.isLock = isLock
              cases upper <;> cases isLock <;> simp
            rw [← hxor]
            rfl
          have hedits := edits_character (by rw [hedited.keyboard]; rfl) hrange hc hcharacter
          rw [hedited.keyboard] at hedits
          exact hedits
        have hrelease : ∀ a', Edited (Zipper.insert inputCapacity c ∘ id) shifted a a' →
            a'.Edits [keyLeftShiftRelease] id keyboard.released := by
          intro a' hedited
          refine edits_quiet ?_
          rw [hedited.keyboard]
          rfl
        exact (hpress.append htyped).append hrelease

theorem edits_typeLine (hkeyboard : a.keyboard = keyboard.released)
    (htypeable : ∀ c ∈ line, Typeable keyboard.currentLayout c) :
    a.Edits (typeLine keyboard.currentLayout keyboard.isLock line)
      (fun z => line.foldl (fun z c => z.insert inputCapacity c) z) keyboard.released := by
  induction line generalizing a with
  | nil =>
      rw [← hkeyboard]
      exact edits_nil a
  | cons c line ih =>
      have hfirst := edits_strokes hkeyboard (htypeable c List.mem_cons_self)
      exact hfirst.append fun a' hedited =>
        ih hedited.keyboard fun c' hc' => htypeable c' (List.mem_cons_of_mem c hc')

theorem Edits.mono (hedits : a.Edits scancodes f keyboard)
    (hsame : ∀ z, a.zipper = some z → f z = g z) : a.Edits scancodes g keyboard := by
  obtain ⟨a', hrun, hzipper, hkeyboard, hshell, hexecuted⟩ := hedits
  refine ⟨a', hrun, ?_, hkeyboard, hshell, hexecuted⟩
  rw [hzipper]
  cases hz : a.zipper with
  | none => rfl
  | some z => exact congrArg some (hsame z hz)

theorem edits_release (a : SessionKernel) :
    a.Edits releaseModifiers id a.keyboard.released := by
  have hctrl : a.Edits [keyCtrlReleased] id { a.keyboard with isCtrl := false } := edits_quiet rfl
  have hleft : ∀ a', Edited id { a.keyboard with isCtrl := false } a a' →
      a'.Edits [keyLeftShiftRelease] id
        { a.keyboard with isCtrl := false, isLeftShift := false } := by
    intro a' hedited
    refine edits_quiet ?_
    rw [hedited.keyboard]
    rfl
  have hright : ∀ a', Edited (id ∘ id) { a.keyboard with isCtrl := false, isLeftShift := false } a a' →
      a'.Edits [keyRightShiftRelease] id a.keyboard.released := by
    intro a' hedited
    refine edits_quiet ?_
    rw [hedited.keyboard]
    rfl
  exact (hctrl.append hleft).append hright

theorem edits_eraseLine (hkeyboard : a.keyboard = keyboard.released)
    (hsize : ∀ z, a.zipper = some z → z.size ≤ inputCapacity) :
    a.Edits eraseLine (fun _ => .empty) keyboard.released := by
  have hctrl : keyboard.released.isCtrl = false := rfl
  have hback : a.Edits (List.replicate inputCapacity keyBackspace)
      (EditOp.delInput 1).zipper^[inputCapacity] keyboard.released :=
    edits_replicate _ (fun shell line => (ofScancode_erase _ shell line hctrl).1) hkeyboard
  have hforward : ∀ a', Edited (EditOp.delInput 1).zipper^[inputCapacity] keyboard.released a a' →
      a'.Edits (List.replicate inputCapacity keyDelete)
        (EditOp.delInputForward 1).zipper^[inputCapacity] keyboard.released := by
    intro a' hedited
    exact edits_replicate _ (fun shell line => (ofScancode_erase _ shell line hctrl).2)
      hedited.keyboard
  refine (hback.append hforward).mono fun z hz => ?_
  have hzipper : (EditOp.delInput 1).zipper = Zipper.deleteBefore 1 ∧
      (EditOp.delInputForward 1).zipper = Zipper.deleteAfter 1 := ⟨rfl, rfl⟩
  rw [hzipper.1, hzipper.2, Function.comp_apply]
  exact Zipper.deleteAfter_deleteBefore_iterate (hsize z hz)

theorem edits_lineKeys (hsize : ∀ z, a.zipper = some z → z.size ≤ inputCapacity)
    (hlength : line.length ≤ inputCapacity)
    (htypeable : ∀ c ∈ line, Typeable a.keyboard.currentLayout c) :
    a.Edits (lineKeys a.keyboard line) (fun _ => ⟨line, []⟩) a.keyboard.released := by
  have herased : ∀ a', Edited id a.keyboard.released a a' →
      a'.Edits eraseLine (fun _ => .empty) a.keyboard.released := by
    intro a' hedited
    refine edits_eraseLine hedited.keyboard fun z hz => hsize z ?_
    rw [← hz, hedited.zipper, Option.map_id]
    rfl
  have htyped : ∀ a', Edited ((fun _ => Zipper.empty) ∘ id) a.keyboard.released a a' →
      a'.Edits (typeLine a.keyboard.currentLayout a.keyboard.isLock line)
        (fun z => line.foldl (fun z c => z.insert inputCapacity c) z) a.keyboard.released :=
    fun a' hedited => edits_typeLine hedited.keyboard htypeable
  refine (((edits_release a).append herased).append htyped).mono fun z hz => ?_
  change line.foldl (fun z c => z.insert inputCapacity c) Zipper.empty = ⟨line, []⟩
  rw [Zipper.foldl_insert (by rw [Zipper.size_empty, Nat.zero_add]; exact hlength)]
  rfl

end SessionKernel

/-! ### From every state between two scancodes -/

variable {vga : Vga} {k k' : Kernel} {history : List KeyEvent}

theorem Represents.size_le (hrepresents : Represents .input k a) :
    ∀ z, a.zipper = some z → z.size ≤ inputCapacity := by
  intro z hz
  obtain ⟨s, hs, hediting⟩ := hrepresents.related.current
  rw [SessionKernel.zipper, hs, Option.map_some, Option.some_inj] at hz
  rw [← hz]
  exact hediting.size_le

/-- What keys do to the sessions they do to the kernel. -/
theorem SessionKernel.Edits.kernel {z : Zipper UInt8} (hrepresents : Represents .input k a)
    (hedits : a.Edits scancodes (fun _ => z) keyboard) :
    ∃ k' a', k.handleAll (keys scancodes) = .ok k' ∧ Represents .input k' a' ∧
      Edited (fun _ => z) keyboard a a' ∧ k'.terminal.getInput 256 = some (z.line ++ [0]) := by
  obtain ⟨a', hrun, hedited⟩ := hedits
  have hboth := handleAll_both hrepresents (keys scancodes)
  rw [hrun] at hboth
  obtain ⟨k', hkernel, hrepresents'⟩ := hboth.ok_right
  refine ⟨k', a', hkernel, hrepresents', hedited, ?_⟩
  obtain ⟨s, hs, -⟩ := hrepresents.related.current
  have hzipper := hedited.zipper
  rw [SessionKernel.zipper, SessionKernel.zipper, hs] at hzipper
  obtain ⟨s', hs', hline⟩ := Option.map_eq_some_iff.mp hzipper
  have hline : s'.line = z := hline
  rw [hrepresents'.line, SessionKernel.line, hs', ← hline]
  rfl

theorem handle_keyEnter (hctrl : k.keyboard.isCtrl = false) (output : CommandOutput) :
    k.handle ⟨keyEnter, output⟩ = k.execute output := by
  have hcharacter : k.keyboard.character keyEnter = 0 := by
    obtain ⟨isLock, isCtrl, isLeftShift, isRightShift, currentLayout⟩ := k.keyboard
    unfold Keyboard.character
    cases currentLayout <;> simp only <;> split_ifs <;> rfl
  have hmodifier : k.keyboard.modifier keyEnter = none := rfl
  rw [Kernel.handle, Kernel.handleScancode, hmodifier]
  simp only [hcharacter, hctrl]
  rfl

theorem execute_of_input (hinput : k.terminal.getInput 256 = some (line ++ [0]))
    (output : CommandOutput) : k.execute output
      = ((k.mapTerminal (Terminal.getInputAccess 256)).shellExecute output (line ++ [0])).map
          Prod.fst := by
  rw [Kernel.execute, hinput]

/-- After the keys of a line Enter passes it to `shell_execute`, and nothing has been passed
before. -/
structure Leaves (line : List UInt8) (k k' : Kernel) : Prop where
  keyboard : k'.keyboard = k.keyboard.released
  shell : k'.shell = k.shell
  executed : k'.executed = k.executed
  input : k'.terminal.getInput 256 = some (line ++ [0])
  enter : ∀ output, k'.handle ⟨keyEnter, output⟩
    = ((k'.mapTerminal (Terminal.getInputAccess 256)).shellExecute output (line ++ [0])).map Prod.fst

theorem lineKeys_leave (hrepresents : Represents .input k a)
    (hlength : line.length ≤ inputCapacity)
    (htypeable : ∀ c ∈ line, Typeable k.keyboard.currentLayout c) :
    ∃ k', k.handleAll (keys (lineKeys k.keyboard line)) = .ok k' ∧ Leaves line k k' := by
  rw [hrepresents.keyboard] at htypeable ⊢
  have hedits := SessionKernel.edits_lineKeys hrepresents.size_le hlength htypeable
  obtain ⟨k', a', hkernel, hrepresents', hedited, hinput⟩ := hedits.kernel hrepresents
  have hkeyboard := hrepresents'.keyboard.trans hedited.keyboard
  have hline : (⟨line, []⟩ : Zipper UInt8).line = line := List.append_nil line
  rw [hline] at hinput
  refine ⟨k', hkernel, ?_, ?_, ?_, hinput, fun output => ?_⟩
  · rw [hkeyboard, hrepresents.keyboard]
  · exact hrepresents'.shell.trans (hedited.shell.trans hrepresents.shell.symm)
  · exact hrepresents'.executed.trans (hedited.executed.trans hrepresents.executed.symm)
  · rw [handle_keyEnter (by rw [hkeyboard]; rfl), execute_of_input hinput]

/-- From every state between two scancodes, whatever has been typed and whatever keys are held, some
keys leave any line that the layout has and that fits, and Enter passes exactly that line to
`shell_execute`. -/
theorem types_any_line (vga : Vga) (hrun : (Kernel.boot vga).handleAll history = .ok k)
    (hlength : line.length ≤ inputCapacity)
    (htypeable : ∀ c ∈ line, Typeable k.keyboard.currentLayout c) :
    ∃ k', k.handleAll (keys (lineKeys k.keyboard line)) = .ok k' ∧ Leaves line k k' := by
  obtain ⟨a, -, hrepresents⟩ := handleAll_represented vga hrun
  exact lineKeys_leave hrepresents hlength htypeable

/-- Capital letters and signs, while Ctrl is held. -/
theorem types_any_line_ctrl :
    let k : Kernel := { Kernel.boot ⟨fun _ => 0, 0, fun _ => 0, fun _ => 0⟩ with
      keyboard := { Keyboard.boot with isCtrl := true } }
    ∃ k', k.handleAll (keys (lineKeys k.keyboard (str "Hello, %s!"))) = .ok k' ∧
      Leaves (str "Hello, %s!") k k' := by
  intro k
  have hrun : (Kernel.boot ⟨fun _ => 0, 0, fun _ => 0, fun _ => 0⟩).handleAll
      (keys [keyCtrlPressed]) = .ok k := rfl
  exact types_any_line _ hrun (by decide) (by decide +kernel)

theorem typeable_name (layout : KeyboardLayout) (i : CommandIndex) :
    (Shell.zero.init.commands i).name.length ≤ inputCapacity ∧
      ∀ c ∈ (Shell.zero.init.commands i).name, Typeable layout c := by
  revert i
  cases layout <;> decide +kernel

theorem handle_emptyLine (hprompted : a.Prompted) (hctrl : a.keyboard.isCtrl = false)
    (hline : a.line = some [0]) :
    ∃ a', a.handle ⟨keyEnter, ⟨[], [], true, true⟩⟩ = .ok a' ∧ a'.executed = [0] :: a.executed ∧
      a'.shell = { a.shell with readPending := false } := by
  have hreaction := ofScancode_enter ⟨[], [], true, true⟩ a.shell hctrl (some [0])
  rw [SessionKernel.handle, hline, hreaction]
  cases hpending : a.shell.readPending with
  | true =>
      rw [ofEnter, ofLine, if_pos hpending]
      exact ⟨_, rfl, rfl, rfl⟩
  | false =>
      have hnone : a.shell.findCommand [0] = none := by
        cases hfind : a.shell.findCommand [0] with
        | none => rfl
        | some i =>
            have hname := (Shell.findCommand_eq_some_iff hprompted.commands List.not_mem_nil).mp hfind
            have hnames : ∀ i : CommandIndex, [] ≠ (Shell.zero.init.commands i).name := by decide
            rw [hprompted.commands] at hname
            exact absurd hname (hnames i)
      have hshell : a.shell = { a.shell with readPending := a.shell.readPending } := rfl
      rw [hpending] at hshell
      rw [ofEnter, ofLine, if_neg (by rw [hpending]; exact Bool.false_ne_true), hnone]
      exact ⟨_, rfl, rfl, hshell⟩

theorem Kernel.handleAll_append {k₁ k₂ : Kernel} {events events' : List KeyEvent}
    (hfirst : k.handleAll events = .ok k₁) (hsecond : k₁.handleAll events' = .ok k₂) :
    k.handleAll (events ++ events') = .ok k₂ := by
  rw [Kernel.handleAll, List.foldlM_append]
  rw [Kernel.handleAll] at hfirst
  rw [hfirst]
  exact hsecond

/-- From every state between two scancodes some keys end a read that waits: they submit an empty
line. -/
theorem exists_not_pending (vga : Vga) (hrun : (Kernel.boot vga).handleAll history = .ok k) :
    ∃ scancodes k', k.handleAll (keys scancodes) = .ok k' ∧
      k'.shell = { k.shell with readPending := false } ∧ k'.executed = [0] :: k.executed := by
  obtain ⟨a, -, hrepresents⟩ := handleAll_represented vga hrun
  obtain ⟨k₁, hrun₁, hleaves⟩ := @lineKeys_leave _ [] _ hrepresents (Nat.zero_le _) nofun
  obtain ⟨a₁, harun₁, hrepresents₁⟩ :=
    handleAll_represented vga (Kernel.handleAll_append hrun hrun₁)
  have hline : a₁.line = some [0] := hrepresents₁.line.symm.trans hleaves.input
  have hctrl : a₁.keyboard.isCtrl = false := by
    rw [← hrepresents₁.keyboard, hleaves.keyboard]
    rfl
  obtain ⟨a₂, hhandle, hexecuted, hshell⟩ := handle_emptyLine (handleAll_prompted harun₁) hctrl hline
  have hboth := handle_both k₁ a₁ ⟨keyEnter, ⟨[], [], true, true⟩⟩ hrepresents₁
  rw [hhandle] at hboth
  obtain ⟨k₂, hhandle₂, hrepresents₂⟩ := hboth.ok_right
  refine ⟨lineKeys k.keyboard [] ++ [keyEnter], k₂, ?_, ?_, ?_⟩
  · rw [keys, List.map_append]
    exact Kernel.handleAll_append hrun₁ (foldlM_cons_of_ok hhandle₂ rfl)
  · rw [hrepresents₂.shell, hshell, ← hrepresents₁.shell, hleaves.shell]
  · rw [hrepresents₂.executed, hexecuted, ← hrepresents₁.executed, hleaves.executed]

/-- No state locks the user out: from every state between two scancodes some keys lead to one in
which no read waits and Enter passes the name of any given command to `shell_execute`, which finds
that command. Until then only an empty line is submitted. -/
theorem command_can_be_run (vga : Vga) (hrun : (Kernel.boot vga).handleAll history = .ok k)
    (i : CommandIndex) :
    ∃ scancodes k', k.handleAll (keys scancodes) = .ok k' ∧
      k'.shell = { k.shell with readPending := false } ∧ k'.executed = [0] :: k.executed ∧
      k'.shell.findCommand ((k'.shell.commands i).name ++ [0]) = some i ∧
      ∀ output, k'.handle ⟨keyEnter, output⟩
        = ((k'.mapTerminal (Terminal.getInputAccess 256)).shellExecute output
            ((k'.shell.commands i).name ++ [0])).map Prod.fst := by
  obtain ⟨scancodes, k₁, hrun₁, hshell₁, hexecuted₁⟩ := exists_not_pending vga hrun
  have hrun' := Kernel.handleAll_append hrun hrun₁
  obtain ⟨a₁, -, hrepresents₁⟩ := handleAll_represented vga hrun'
  have hcommands : k₁.shell.commands = Shell.zero.init.commands := (between_of_run vga hrun').commands
  obtain ⟨hlength, htypeable⟩ := typeable_name k₁.keyboard.currentLayout i
  obtain ⟨k₂, hrun₂, hleaves⟩ := lineKeys_leave hrepresents₁ hlength htypeable
  have hname : (k₂.shell.commands i).name = (Shell.zero.init.commands i).name := by
    rw [hleaves.shell, hcommands]
  have hnoNul : 0 ∉ (Shell.zero.init.commands i).name := fun hmem => (htypeable 0 hmem).1 rfl
  refine ⟨scancodes ++ lineKeys k₁.keyboard (Shell.zero.init.commands i).name, k₂, ?_, ?_, ?_, ?_,
    ?_⟩
  · rw [keys, List.map_append]
    exact Kernel.handleAll_append hrun₁ hrun₂
  · rw [hleaves.shell, hshell₁]
  · rw [hleaves.executed, hexecuted₁]
  · rw [hname, hleaves.shell]
    refine (Shell.findCommand_eq_some_iff hcommands hnoNul).mpr ?_
    rw [hcommands]
  · rw [hname]
    exact hleaves.enter

theorem command_can_be_run_halt :
    ∃ scancodes k', (Kernel.boot ⟨fun _ => 0, 0, fun _ => 0, fun _ => 0⟩).handleAll (keys scancodes)
        = .ok k' ∧ k'.shell.findCommand ((k'.shell.commands 6).name ++ [0]) = some 6 := by
  obtain ⟨scancodes, k', hrun, -, -, hfind, -⟩ :=
    @command_can_be_run _ [] ⟨fun _ => 0, 0, fun _ => 0, fun _ => 0⟩ rfl 6
  exact ⟨scancodes, k', hrun, hfind⟩

end KernelFromScratch
