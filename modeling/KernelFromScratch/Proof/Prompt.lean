import KernelFromScratch.Proof.KernelRuns

/-!
# Lines start after a prompt

Between two scancodes every line starts in column 2, after its prompt, unless a read waits for it,
and holds no NUL. So a line that runs `read` is one word in one row.
-/

namespace KernelFromScratch

open Terminal TerminalOp Reaction

variable {a a' : SessionKernel} {s : Session} {σ : Sessions} {op : TerminalOp}

/-! ### Operations on the shown session -/

namespace TerminalOp

theorem apply_onShown (hop : OnShown op) (σ : Sessions) :
    (op.apply σ).index = σ.index ∧ ∀ i ≠ σ.index, (op.apply σ).sessions i = σ.sessions i := by
  cases op with
  | switchScreen index => cases hop
  | getInput bufferSize => exact ⟨rfl, fun _ _ => rfl⟩
  | _ => exact ⟨rfl, fun _ hi => Sessions.sessions_modify_of_ne _ hi⟩

theorem applyAll_onShown {ops : List TerminalOp} (hops : ∀ op ∈ ops, OnShown op) (σ : Sessions) :
    (applyAll ops σ).index = σ.index ∧
      ∀ i ≠ σ.index, (applyAll ops σ).sessions i = σ.sessions i := by
  induction ops generalizing σ with
  | nil => exact ⟨rfl, fun _ _ => rfl⟩
  | cons op ops ih =>
      obtain ⟨hindex, hothers⟩ := apply_onShown (hops op List.mem_cons_self) σ
      obtain ⟨hindex', hothers'⟩ :=
        ih (fun op' hop' => hops op' (List.mem_cons_of_mem op hop')) (op.apply σ)
      refine ⟨hindex'.trans hindex, fun i hi => ?_⟩
      exact (hothers' i (by rwa [hindex])).trans (hothers i hi)

theorem applyAll_append (ops ops' : List TerminalOp) (σ : Sessions) :
    applyAll (ops ++ ops') σ = applyAll ops' (applyAll ops σ) :=
  List.foldl_append

end TerminalOp

theorem Reaction.LineShape.onShown {reaction : Reaction} {body : List TerminalOp}
    (hshape : LineShape reaction body) : ∀ op ∈ reaction.ops, OnShown op := by
  intro op hop
  rw [hshape.ops, List.mem_cons, List.mem_append] at hop
  rcases hop with rfl | hbody | hend
  · trivial
  · have hprints := hshape.prints op hbody
    cases op with
    | switchScreen index => cases hprints
    | _ => trivial
  · split at hend
    · rw [List.mem_singleton.mp hend]
      trivial
    · cases hend

/-! ### Prompts -/

theorem anchor_print_of_ne {c : UInt8} (hc : c ≠ newline) (s : Session) :
    (s.print c).anchor = s.anchor + 1 := by
  have hpage : (s.print c).page = terminalFormat.layout (s.text ++ [c]) := rfl
  rw [Session.anchor, hpage, Terminal.page_concat_of_ne hc]
  rfl

theorem anchor_print_newline (s : Session) : (s.print newline).anchor = (s.anchor / 80 + 1) * 80 := by
  have hpage : (s.print newline).page = terminalFormat.layout (s.text ++ [newline]) := rfl
  rw [Session.anchor, hpage, Terminal.page_concat_newline]
  rfl

theorem anchor_printPrompt (s : Session) : (s.printAll terminalPrompt).anchor = s.anchor + 2 := by
  have hprompt : s.printAll terminalPrompt = (s.print (chr '$')).print (chr ' ') := rfl
  rw [hprompt, anchor_print_of_ne (by decide), anchor_print_of_ne (by decide)]

theorem anchor_endOutput (s : Session) : (s.endOutput true).anchor % 80 = 2 := by
  have hended : (s.endOutput true).anchor
      = (if s.anchor % terminalWidth ≠ 0 then s.print newline else s).anchor + 2 :=
    anchor_printPrompt _
  rw [hended]
  by_cases hcolumn : s.anchor % terminalWidth ≠ 0
  · rw [if_pos hcolumn, anchor_print_newline]
    omega
  · rw [if_neg hcolumn]
    simp only [terminalWidth, vgaWidth] at hcolumn
    omega

theorem anchor_opened : Session.opened.anchor % 80 = 2 := rfl

/-! ### What a line holds -/

/-- The characters of a line come from the keyboard. -/
def Sessions.Typed (σ : Sessions) : Prop := ∀ i s, σ.sessions i = some s → 0 ∉ s.line.line

theorem mem_line_zipper {op : EditOp} (htyped : op.Typed) {z : Zipper UInt8} (hz : 0 ∉ z.line) :
    0 ∉ (op.zipper z).line := by
  intro hmem
  cases op with
  | putcInput c =>
      rcases Zipper.mem_line_insert hmem with heq | hmem
      · exact htyped.1 heq.symm
      · exact hz hmem
  | delInput count => exact hz (Zipper.mem_line_deleteBefore hmem)
  | delInputForward count => exact hz (Zipper.mem_line_deleteAfter hmem)
  | move direction =>
      cases direction with
      | up => exact hz hmem
      | down => exact hz hmem
      | left =>
          rw [EditOp.zipper, Zipper.line_moveLeft] at hmem
          exact hz hmem
      | right =>
          rw [EditOp.zipper, Zipper.line_moveRight] at hmem
          exact hz hmem

theorem line_printAll (chars : List UInt8) (s : Session) : (s.printAll chars).line = s.line := by
  induction chars generalizing s with
  | nil => rfl
  | cons c chars ih => exact ih (s.print c)

theorem line_endOutput (showPrompt : Bool) (s : Session) :
    (s.endOutput showPrompt).line = s.line := by
  have hended : (if s.anchor % terminalWidth ≠ 0 then s.print newline else s).line = s.line := by
    split <;> rfl
  cases showPrompt with
  | true => exact (line_printAll _ _).trans hended
  | false => exact hended

theorem Sessions.Typed.modify (htyped : σ.Typed) {f : Session → Session}
    (hf : ∀ s, 0 ∉ s.line.line → 0 ∉ (f s).line.line) : (σ.modify f).Typed := by
  intro i s hs
  by_cases hi : i = σ.index
  · subst hi
    rw [Sessions.sessions_modify_self, Option.map_eq_some_iff] at hs
    obtain ⟨s', hs', rfl⟩ := hs
    exact hf s' (htyped σ.index s' hs')
  · rw [Sessions.sessions_modify_of_ne f hi] at hs
    exact htyped i s hs

theorem switchScreen_session {index : UInt8} {i : ScreenIndex}
    (hs : (σ.switchScreen index).sessions i = some s) :
    s = .opened ∨ σ.sessions i = some s := by
  unfold Sessions.switchScreen at hs
  split at hs
  · rename_i hlt
    by_cases hi : i = ⟨index.toNat, hlt⟩
    · subst hi
      simp only [Function.update_self, Option.some_inj] at hs
      cases hsession : σ.sessions ⟨index.toNat, hlt⟩ with
      | none =>
          rw [hsession] at hs
          exact Or.inl hs.symm
      | some s' =>
          rw [hsession] at hs
          exact Or.inr (congrArg some hs)
    · simp only [Function.update_of_ne hi] at hs
      exact Or.inr hs
  · exact Or.inr hs

theorem Sessions.Typed.switchScreen (htyped : σ.Typed) (index : UInt8) :
    (σ.switchScreen index).Typed := by
  intro i s hs
  rcases switchScreen_session hs with hopened | hkept
  · rw [hopened]
    decide
  · exact htyped i s hkept

theorem Sessions.Typed.apply (htyped : σ.Typed)
    (hop : ∀ edited, op = .edit edited → edited.Typed) : (op.apply σ).Typed := by
  have hempty : (0 : UInt8) ∉ (Zipper.empty : Zipper UInt8).line := by decide
  cases op with
  | edit edited => exact htyped.modify fun s hs => mem_line_zipper (hop edited rfl) hs
  | getInput bufferSize => exact htyped
  | switchScreen index => exact htyped.switchScreen index
  | beginOutput => exact htyped.modify fun _ _ => hempty
  | putcOutput c => exact htyped.modify fun _ hs => hs
  | putsOutput message =>
      refine htyped.modify fun s hs => ?_
      rwa [line_printAll]
  | clear => exact htyped.modify fun _ _ => hempty
  | endOutput showPrompt =>
      refine htyped.modify fun s hs => ?_
      rwa [line_endOutput]

theorem Sessions.Typed.applyAll {ops : List TerminalOp} (htyped : σ.Typed)
    (hops : ∀ edited, .edit edited ∈ ops → edited.Typed) : (applyAll ops σ).Typed := by
  induction ops generalizing σ with
  | nil => exact htyped
  | cons op ops ih =>
      have hfirst : (op.apply σ).Typed := htyped.apply fun edited hop =>
        hops edited (by rw [hop]; exact List.mem_cons_self)
      exact ih hfirst fun edited hmem => hops edited (List.mem_cons_of_mem op hmem)

theorem sessions_init {i : ScreenIndex} (hs : Sessions.init.sessions i = some s) :
    s = .opened := by
  by_cases hi : i = 0
  · subst hi
    cases hs
    rfl
  · simp [Sessions.init, Function.update_of_ne hi] at hs

theorem typed_init : Sessions.init.Typed := by
  intro i s hs
  rw [sessions_init hs]
  decide

/-! ### The commands -/

theorem commands_ofFunction (output : CommandOutput) (shell : Shell) (keyboard : Keyboard)
    (function : ShellFunction) :
    (ofFunction output shell keyboard function).shell.commands = shell.commands := by
  cases function <;> rfl

theorem commands_ofCall (output : CommandOutput) (shell : Shell) (keyboard : Keyboard)
    (function : ShellFunction) :
    (ofCall output shell keyboard function).shell.commands = shell.commands := by
  unfold ofCall
  split
  · split
    · exact commands_ofFunction _ _ _ _
    · rfl
  · exact commands_ofFunction _ _ _ _

theorem commands_ofLine (output : CommandOutput) (shell : Shell) (keyboard : Keyboard)
    (command : List UInt8) :
    (ofLine output shell keyboard command).shell.commands = shell.commands := by
  unfold ofLine
  split
  · rfl
  · split
    · rename_i i _
      have hcalled := commands_ofCall output shell keyboard (shell.commands i).function
      unfold ofCommand
      split
      · simp only
        split
        · exact hcalled
        · exact hcalled
      · exact hcalled
    · rfl

theorem eq_of_toUInt32_sub {c d : UInt8} (hsub : c.toUInt32 - d.toUInt32 = 0) : c = d := by
  have hc := c.toNat_lt
  have hd := d.toNat_lt
  have hvalue := congrArg UInt32.toNat hsub
  rw [UInt32.toNat_sub, UInt8.toNat_toUInt32, UInt8.toNat_toUInt32, UInt32.toNat_zero] at hvalue
  apply UInt8.toNat_inj.mp
  omega

theorem strcmp_eq_zero {line name : List UInt8} (hline : 0 ∉ line) (hname : 0 ∉ name)
    (heq : strcmp (line ++ [0]) name = 0) : line = name := by
  induction line generalizing name with
  | nil =>
      cases name with
      | nil => rfl
      | cons d name =>
          have hfirst : ¬ ((0 : UInt8) ≠ 0 ∧ 0 = d) := fun h => h.1 rfl
          rw [List.nil_append, strcmp, if_neg hfirst] at heq
          exact absurd (List.mem_cons.mpr (Or.inl (eq_of_toUInt32_sub heq))) hname
  | cons c line ih =>
      have hc : c ≠ 0 := fun h => hline (List.mem_cons.mpr (Or.inl h.symm))
      cases name with
      | nil =>
          rw [List.cons_append, strcmp] at heq
          exact absurd (eq_of_toUInt32_sub (d := 0) (by rw [heq]; rfl)) hc
      | cons d name =>
          rw [List.cons_append, strcmp] at heq
          by_cases hcd : c = d
          · rw [if_pos ⟨hc, hcd⟩] at heq
            have hrest := ih (fun h => hline (List.mem_cons_of_mem c h))
              (fun h => hname (List.mem_cons_of_mem d h)) heq
            rw [hcd, hrest]
          · rw [if_neg fun h => hcd h.2] at heq
            exact absurd (eq_of_toUInt32_sub heq) hcd

theorem strcmp_self (line : List UInt8) : strcmp (line ++ [0]) line = 0 := by
  induction line with
  | nil => rfl
  | cons c line ih =>
      rw [List.cons_append, strcmp]
      by_cases hc : c = 0
      · rw [if_neg fun h => h.1 hc, UInt32.sub_self]
      · rw [if_pos ⟨hc, rfl⟩]
        exact ih

namespace Shell

variable {shell : Shell} {line : List UInt8} {i j : CommandIndex}

theorem strcmp_name (hcommands : shell.commands = Shell.zero.init.commands) (hline : 0 ∉ line) :
    strcmp (line ++ [0]) (shell.commands i).name = 0 ↔ line = (shell.commands i).name := by
  have hname : ∀ i : CommandIndex, (0 : UInt8) ∉ (Shell.zero.init.commands i).name := by decide
  constructor
  · intro hequal
    rw [hcommands] at hequal ⊢
    exact strcmp_eq_zero hline (hname i) hequal
  · intro hequal
    rw [← hequal]
    exact strcmp_self line

theorem name_injective (hcommands : shell.commands = Shell.zero.init.commands)
    (hname : (shell.commands i).name = (shell.commands j).name) : i = j := by
  have hnames : ∀ i j : CommandIndex,
      (Shell.zero.init.commands i).name = (Shell.zero.init.commands j).name → i = j := by decide
  rw [hcommands] at hname
  exact hnames i j hname

theorem strcmp_of_findCommand {command : List UInt8} (hfind : shell.findCommand command = some i) :
    strcmp command (shell.commands i).name = 0 := by
  have hfound := List.find?_some hfind
  exact of_decide_eq_true hfound

theorem findCommand_eq_some_iff (hcommands : shell.commands = Shell.zero.init.commands)
    (hline : 0 ∉ line) :
    shell.findCommand (line ++ [0]) = some i ↔ line = (shell.commands i).name := by
  constructor
  · intro hfind
    exact (strcmp_name hcommands hline).mp (strcmp_of_findCommand hfind)
  · intro hname
    cases hfind : shell.findCommand (line ++ [0]) with
    | none =>
        have hnone := List.find?_eq_none.mp hfind i (List.mem_finRange i)
        exact absurd (decide_eq_true ((strcmp_name hcommands hline).mpr hname)) hnone
    | some j =>
        have hfound := (strcmp_name hcommands hline).mp (strcmp_of_findCommand hfind)
        rw [name_injective hcommands (hname.symm.trans hfound)]

end Shell

/-- The lines that run `read` are the names of two commands. -/
theorem Reaction.RunsRead.line_eq {shell : Shell} {line : List UInt8}
    (hcommands : shell.commands = Shell.zero.init.commands) (hline : 0 ∉ line)
    (hruns : RunsRead shell (line ++ [0])) : line = str "read" ∨ line = str "last" := by
  obtain ⟨-, i, hfind, hcalls⟩ := hruns
  have hname := (Shell.findCommand_eq_some_iff hcommands hline).mp hfind
  have hnames : ∀ i : CommandIndex,
      ((Shell.zero.init.commands i).function = .read →
        (Shell.zero.init.commands i).name = str "read") ∧
      ((Shell.zero.init.commands i).function = .last →
        (Shell.zero.init.commands i).name = str "last") := by decide
  rw [hcommands] at hname hcalls
  rcases hcalls with hfunction | ⟨hfunction, -⟩
  · exact Or.inl (hname.trans ((hnames i).1 hfunction))
  · exact Or.inr (hname.trans ((hnames i).2 hfunction))

/-- Between two scancodes. -/
structure SessionKernel.Prompted (a : SessionKernel) : Prop where
  commands : a.shell.commands = Shell.zero.init.commands
  typed : a.sessions.Typed
  anchor : ∀ i s, a.sessions.sessions i = some s →
    a.shell.readPending = false ∨ i ≠ a.sessions.index → s.anchor % 80 = 2

theorem boot_prompted : SessionKernel.boot.Prompted := by
  refine ⟨rfl, typed_init, ?_⟩
  intro i s hs _
  rw [sessions_init hs]
  exact anchor_opened

/-- A command that returns without leaving a read pending ends with a prompt. -/
theorem Reaction.LineShape.anchor {reaction : Reaction} {body : List TerminalOp}
    (hshape : LineShape reaction body) (hreturns : reaction.returns = true)
    (hpending : reaction.shell.readPending = false)
    (hs : (applyAll reaction.ops σ).sessions σ.index = some s) : s.anchor % 80 = 2 := by
  have hindex := (applyAll_onShown hshape.onShown σ).1
  rw [← hindex, hshape.ops, if_pos hreturns, hpending, ← List.cons_append, applyAll_append] at hs
  obtain ⟨s', -, rfl⟩ := Option.map_eq_some_iff.mp
    ((Sessions.sessions_modify_self (Session.endOutput true) _).symm.trans hs)
  exact anchor_endOutput s'

theorem Reaction.LineShape.typed_of_mem {reaction : Reaction} {body : List TerminalOp}
    (hshape : LineShape reaction body) {edited : EditOp} (hmem : .edit edited ∈ reaction.ops) :
    edited.Typed := by
  rw [hshape.ops, List.mem_cons, List.mem_append] at hmem
  rcases hmem with hbegin | hbody | hend
  · cases hbegin
  · cases hshape.prints _ hbody
  · split at hend
    · cases List.mem_singleton.mp hend
    · cases hend

theorem handle_prompted (event : KeyEvent) (hprompted : a.Prompted)
    (hhandle : a.handle event = .ok a') : a'.Prompted := by
  obtain ⟨hcommands, htyped, hanchor⟩ := hprompted
  have hshaped := ofScancode_shaped event.output a.shell a.keyboard event.scancode a.line
  rw [SessionKernel.handle] at hhandle
  set reaction := ofScancode event.output a.shell a.keyboard event.scancode a.line
  have ha' : a' = ⟨applyAll reaction.ops a.sessions, reaction.shell, reaction.keyboard,
      reaction.submitted ++ a.executed⟩ ∧ reaction.returns = true := by
    rw [SessionKernel.perform] at hhandle
    cases hreturns : reaction.returns with
    | true =>
        rw [hreturns] at hhandle
        cases hhandle
        exact ⟨rfl, rfl⟩
    | false =>
        rw [hreturns] at hhandle
        cases hhandle
  obtain ⟨rfl, hreturns⟩ := ha'
  clear hhandle
  clear_value reaction
  cases hshaped with
  | quiet keyboard => exact ⟨hcommands, htyped, hanchor⟩
  | switchScreen keyboard hindex hpending =>
      refine ⟨hcommands, htyped.switchScreen _, fun i s hs _ => ?_⟩
      rcases switchScreen_session hs with hopened | hkept
      · rw [hopened]
        exact anchor_opened
      · exact hanchor i s hkept (Or.inl hpending)
  | edit keyboard hedited =>
      refine ⟨hcommands, htyped.modify fun s hs => mem_line_zipper hedited hs, ?_⟩
      intro i s hs hidle
      by_cases hi : i = a.sessions.index
      · subst hi
        obtain ⟨s', hs', rfl⟩ := Option.map_eq_some_iff.mp
          ((Sessions.sessions_modify_self _ _).symm.trans hs)
        exact hanchor _ s' hs' hidle
      · exact hanchor i s ((Sessions.sessions_modify_of_ne _ hi).symm.trans hs) hidle
  | enter keyboard =>
      cases hline : a.line with
      | none =>
          exact ⟨hcommands, htyped, hanchor⟩
      | some command =>
          rw [hline] at hreturns
          obtain ⟨body, hshape⟩ := ofLine_shape event.output a.shell keyboard command
          have hcommands' := commands_ofLine event.output a.shell keyboard command
          have htyped' : (applyAll (ofLine event.output a.shell keyboard command).ops
              a.sessions).Typed := htyped.applyAll fun _ hmem => hshape.typed_of_mem hmem
          refine ⟨hcommands'.trans hcommands, htyped', ?_⟩
          intro i s hs hidle
          obtain ⟨hindex, hothers⟩ := applyAll_onShown hshape.onShown a.sessions
          by_cases hi : i = a.sessions.index
          · subst hi
            have hpending := hidle.resolve_right fun h => h hindex.symm
            exact hshape.anchor hreturns hpending hs
          · exact hanchor i s ((hothers i hi).symm.trans hs) (Or.inr hi)

end KernelFromScratch
