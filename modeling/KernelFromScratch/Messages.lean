import KernelFromScratch.DumpText
import KernelFromScratch.Library.CString
import KernelFromScratch.MemoryReport
import KernelFromScratch.Submitted

/-!
# What the commands print

`shell.c` with its calls of `printk` as formats and arguments. Running `printk` on each of them
leaves the terminal that the pieces of the shell leave; in particular a `%` that was typed is printed
as it is.
-/

namespace KernelFromScratch

open TerminalOp Reaction

/-! ### The requests of `shell.c` -/

/-- The string that a pointer to the bytes is, in a memory of `2 ^ 32` bytes. -/
def stringArgument (bytes : List UInt8) : CString where
  chars := (cString bytes).take (2 ^ 32 - 1)
  noNul hmem := ne_zero_of_mem_cString (List.mem_of_mem_take hmem) rfl
  length_lt := by
    rw [List.length_take]
    omega

theorem chars_stringArgument {bytes : List UInt8} (hshort : bytes.length < 2 ^ 32) :
    (stringArgument bytes).chars = cString bytes := by
  have hle : (cString bytes).length ≤ bytes.length := (List.takeWhile_prefix _).length_le
  exact List.take_of_length_le (by omega)

/-- What `shell.c` asks for: an operation of the terminal, or a call of `printk`. -/
inductive ShellAct where
  | op (op : TerminalOp)
  | printk (request : Request)

/-- What a function asks for, `read_pending` after it, and whether it returns. -/
structure ShellRun where
  acts : List ShellAct
  readPending : Bool
  returns : Bool

/-- What the commands that look at the machine find. -/
structure MachineView where
  mbi : MultibootInfo
  memory : Memory
  symbols : LinkerSymbols
  esp : UInt32
  ebp : UInt32
  rebootReturns : Bool

namespace Shell

variable (view : MachineView) (fuel : Nat) (shell : Shell)

def helpActs : List ShellAct :=
  .printk ⟨str "Available commands:\n", []⟩ :: (List.finRange commandCount).map fun i =>
    .printk ⟨str "%s: %s\n",
      [.string (stringArgument (shell.commands i).name),
        .string (stringArgument (shell.commands i).description)]⟩

/-- `none` while the loop of `print_multiboot_info` or of `stack_dump` has not ended. -/
def functionRun : ShellFunction → Option ShellRun
  | .help => some ⟨helpActs shell, shell.readPending, true⟩
  | .clear => some ⟨[.op .clear], shell.readPending, true⟩
  | .last => some ⟨[], shell.readPending, false⟩
  | .pmultiboot =>
    (printMultibootInfo view.memory view.mbi fuel).map fun requests =>
      ⟨requests.map .printk, shell.readPending, true⟩
  | .pstack =>
    (stackDump view.symbols view.memory view.esp view.ebp fuel).map fun dump =>
      ⟨dump.requests.map .printk, shell.readPending, true⟩
  | .reboot => some ⟨[], shell.readPending, view.rebootReturns⟩
  | .halt => some ⟨[.printk ⟨str "System halted.\n", []⟩], shell.readPending, false⟩
  | .read => some ⟨[], true, true⟩
  | .azerty => some ⟨[], shell.readPending, true⟩
  | .qwerty => some ⟨[], shell.readPending, true⟩

def callRun (function : ShellFunction) : Option ShellRun :=
  if function = .last then
    match shell.lastCommand with
    | some i => functionRun view fuel shell (shell.commands i).function
    | none => some ⟨[.printk ⟨str "No last command executed.\n", []⟩], shell.readPending, true⟩
  else
    functionRun view fuel shell function

/-- What `shell_execute(command)` asks for. -/
def executeRun (command : List UInt8) : Option ShellRun :=
  if shell.readPending then
    some ⟨.op .beginOutput :: ([.printk ⟨str "read: \"%s\"", [.string (stringArgument command)]⟩]
      ++ [.op (.endOutput true)]), false, true⟩
  else
    match shell.findCommand command with
    | some i =>
      (callRun view fuel shell (shell.commands i).function).map fun called =>
        if called.returns then
          { called with
            acts := .op .beginOutput :: (called.acts ++ [.op (.endOutput !called.readPending)]) }
        else
          { called with acts := .op .beginOutput :: called.acts }
    | none =>
      some ⟨.op .beginOutput :: ((if command.headD 0 ≠ 0 then
          [.printk ⟨str "%s: command not found\n", [.string (stringArgument command)]⟩] else [])
          ++ [.op (.endOutput true)]), shell.readPending, true⟩

end Shell

/-! ### Running the requests -/

namespace ShellAct

/-- What an act does to the terminal. A run of `printk` that makes the request sends its characters
one by one. -/
inductive Runs : ShellAct → Terminal → Terminal → Prop
  | op (op : TerminalOp) (t : Terminal) : Runs (.op op) t (op.run t)
  | printk {request : Request} {call : PrintkCall} {n : Nat} (hperforms : call.Performs request)
      (hreturned : (call.runFor n).point = .returned) (t : Terminal) :
      Runs (.printk request) t ((call.runFor n).sent.chars.foldl (fun t c => t.putcOutput c) t)

inductive RunsAll : List ShellAct → Terminal → Terminal → Prop
  | nil (t : Terminal) : RunsAll [] t t
  | cons {act : ShellAct} {acts : List ShellAct} {t t' t'' : Terminal} (hact : act.Runs t t')
      (hacts : RunsAll acts t' t'') : RunsAll (act :: acts) t t''

/-- Running the acts is running the operations. -/
def Does (acts : List ShellAct) (ops : List TerminalOp) : Prop :=
  ∀ t t', RunsAll acts t t' ↔ t' = runAll ops t

variable {act : ShellAct} {acts acts' : List ShellAct} {ops ops' : List TerminalOp}
  {t t' : Terminal}

theorem runsAll_append :
    RunsAll (acts ++ acts') t t' ↔ ∃ t₁, RunsAll acts t t₁ ∧ RunsAll acts' t₁ t' := by
  constructor
  · intro hruns
    induction acts generalizing t with
    | nil => exact ⟨t, .nil t, hruns⟩
    | cons act acts ih =>
        cases hruns with
        | cons hact hacts =>
            obtain ⟨t₁, hfirst, hsecond⟩ := ih hacts
            exact ⟨t₁, .cons hact hfirst, hsecond⟩
  · rintro ⟨t₁, hfirst, hsecond⟩
    induction hfirst with
    | nil t => exact hsecond
    | cons hact _ ih => exact .cons hact (ih hsecond)

theorem does_nil : Does [] [] := by
  intro t t'
  constructor
  · rintro ⟨⟩
    rfl
  · rintro rfl
    exact .nil _

theorem Does.append (hfirst : Does acts ops) (hsecond : Does acts' ops') :
    Does (acts ++ acts') (ops ++ ops') := by
  intro t t'
  rw [runsAll_append, runAll_append]
  constructor
  · rintro ⟨t₁, hruns, hruns'⟩
    rw [hfirst] at hruns
    rw [hruns] at hruns'
    exact (hsecond _ _).mp hruns'
  · rintro rfl
    exact ⟨_, (hfirst _ _).mpr rfl, (hsecond _ _).mpr rfl⟩

theorem does_op (op : TerminalOp) : Does [.op op] [op] := by
  intro t t'
  constructor
  · rintro (⟨⟩ | ⟨⟨⟩, ⟨⟩⟩)
    rfl
  · rintro rfl
    exact .cons (.op op t) (.nil _)

theorem does_printk {request : Request} {text : List UInt8} (hprints : request.Prints text) :
    Does [.printk request] (text.map .putcOutput) := by
  intro t t'
  rw [runAll_map_putcOutput]
  constructor
  · intro hruns
    cases hruns with
    | cons hact hnil =>
        cases hnil
        cases hact with
        | printk hperforms hreturned =>
            obtain ⟨n, hreturned', hsent⟩ := hprints.sends _ hperforms
            rw [← hsent, PrintkCall.sent_unique hreturned hreturned']
  · rintro rfl
    obtain ⟨call, hperforms⟩ := hprints.possible
    obtain ⟨n, hreturned, hsent⟩ := hprints.sends call hperforms
    rw [← hsent]
    exact .cons (.printk hperforms hreturned t) (.nil _)

theorem does_requests {requests : List Request} {texts : List (List UInt8)}
    (hprints : List.Forall₂ Request.Prints requests texts) :
    Does (requests.map .printk) (texts.flatten.map .putcOutput) := by
  induction hprints with
  | nil => exact does_nil
  | cons hfirst _ ih =>
      rw [List.flatten_cons, List.map_append]
      exact (does_printk hfirst).append ih

theorem does_map {ι : Type*} {indices : List ι} {act : ι → ShellAct} {ops : ι → List TerminalOp}
    (hacts : ∀ i, Does [act i] (ops i)) : Does (indices.map act) (indices.flatMap ops) := by
  induction indices with
  | nil => exact does_nil
  | cons i indices ih =>
      rw [List.map_cons, List.flatMap_cons]
      exact (hacts i).append ih

theorem Does.congr (hdoes : Does acts ops) (hsame : ∀ t, runAll ops t = runAll ops' t) :
    Does acts ops' := by
  intro t t'
  rw [hdoes, hsame]

end ShellAct

/-! ### Pieces -/

namespace PrintkPiece

def format : PrintkPiece → List UInt8
  | text chars => chars
  | string _ => str "%s"

def strings : PrintkPiece → List CString
  | text _ => []
  | string s => [stringArgument s]

/-- The call that stands for the pieces. -/
def request (pieces : List PrintkPiece) : Request :=
  ⟨pieces.flatMap format, (pieces.flatMap strings).map .string⟩

/-- What the piece prints. -/
def chars : PrintkPiece → List UInt8
  | text chars => chars
  | string s => cString s

/-- No conversion stands in a text, and a string lies in memory. -/
def Fits : PrintkPiece → Prop
  | text chars => (literals chars).all Piece.plain = true
  | string s => s.length < 2 ^ 32

instance : DecidablePred Fits
  | text _ => inferInstanceAs (Decidable (_ = true))
  | string _ => inferInstanceAs (Decidable (_ < _))

def parsed : PrintkPiece → List Piece
  | text chars => literals chars
  | string _ => [stringPiece]

variable {pieces : List PrintkPiece}

theorem chars_parsed (pieces : List PrintkPiece) :
    (pieces.flatMap parsed).flatMap Piece.chars = pieces.flatMap format := by
  rw [List.flatMap_assoc]
  congr 1
  funext piece
  cases piece with
  | text chars =>
      rw [parsed, literals, List.flatMap_map]
      exact List.flatMap_singleton' chars
  | string s => rfl

theorem plain_parsed (hfits : ∀ piece ∈ pieces, piece.Fits) :
    (pieces.flatMap parsed).all Piece.plain = true := by
  rw [List.all_flatMap, List.all_eq_true]
  intro piece hmem
  have hpiece := hfits piece hmem
  cases piece with
  | text chars => exact hpiece
  | string s => rfl

theorem noNul_of_plain {parsed : List Piece} (hplain : parsed.all Piece.plain = true) :
    0 ∉ parsed.flatMap Piece.chars := by
  intro hmem
  obtain ⟨piece, hpiece, hnul⟩ := List.mem_flatMap.mp hmem
  have htest := List.all_eq_true.mp hplain piece hpiece
  cases piece with
  | literal c =>
      rw [Piece.plain, Bool.and_eq_true, bne_iff_ne, bne_iff_ne] at htest
      exact htest.2 (List.mem_singleton.mp hnul).symm
  | conversion d c =>
      simp only [Piece.plain, Bool.and_eq_true, bne_iff_ne, List.isEmpty_iff] at htest
      obtain ⟨⟨⟨⟨hdigits, -⟩, -⟩, hc⟩, -⟩ := htest
      simp only [Piece.chars, Directive.chars, hdigits, List.mem_append, List.mem_cons,
        List.not_mem_nil, or_false] at hnul
      rcases hnul with (hpercent | hlong) | hlast
      · exact absurd hpercent (by decide)
      · split_ifs at hlong
        · exact absurd hlong (by decide)
        · exact absurd hlong List.not_mem_nil
      · exact hc hlast.symm

/-- A call with its strings at the addresses 1, 2, and so on. -/
def stringsCall (format : List UInt8) (strings : List CString) : PrintkCall where
  s i := (format ++ [0]).getD i 0
  args i := .ofNat (i + 1)
  strings address := strings.getD (address.toNat - 1) (stringArgument [])

theorem toNat_args_stringsCall (format : List UInt8) (strings : List CString) {taken : Nat}
    (hlt : taken + 1 < 2 ^ 32) : ((stringsCall format strings).args taken).toNat = taken + 1 :=
  UInt32.toNat_ofNat_of_lt' hlt

theorem strings_args_stringsCall (format : List UInt8) (strings : List CString) {taken : Nat}
    (hlt : taken + 1 < 2 ^ 32) :
    (stringsCall format strings).strings ((stringsCall format strings).args taken)
      = strings.getD taken (stringArgument []) := by
  have haddress := toNat_args_stringsCall format strings hlt
  rw [stringsCall] at haddress ⊢
  dsimp only at haddress ⊢
  rw [haddress, Nat.add_sub_cancel]

theorem stringsCall_receives {format : List UInt8} {strings : List CString}
    (hfew : strings.length + 1 < 2 ^ 32) :
    (stringsCall format strings).Receives 0 (strings.map .string) := by
  have hfrom : ∀ (rest : List CString) (taken : Nat), strings.drop taken = rest →
      taken ≤ strings.length → (stringsCall format strings).Receives taken (rest.map .string) := by
    intro rest
    induction rest with
    | nil => exact fun _ _ _ => trivial
    | cons s rest ih =>
        intro taken hdrop hle
        have hlength : strings.length - taken = rest.length + 1 := by
          rw [← List.length_drop, hdrop, List.length_cons]
        have hlt : taken < strings.length := by omega
        have hsmall : taken + 1 < 2 ^ 32 := by omega
        rw [List.drop_eq_getElem_cons hlt] at hdrop
        obtain ⟨hfirst, hrest⟩ := List.cons.inj hdrop
        refine ⟨?_, ?_, ih (taken + 1) hrest hlt⟩
        · intro hnull
          have haddress := toNat_args_stringsCall format strings hsmall
          rw [hnull] at haddress
          exact absurd haddress (Nat.succ_ne_zero taken).symm
        · rw [strings_args_stringsCall format strings hsmall, List.getD_eq_getElem _ _ hlt, hfirst]
  exact hfrom strings 0 rfl (Nat.zero_le _)

theorem render_parsed {call : PrintkCall} {taken : Nat} (hfits : ∀ piece ∈ pieces, piece.Fits)
    (hreceives : call.Receives taken ((pieces.flatMap strings).map .string)) :
    call.render taken (pieces.flatMap parsed) = pieces.flatMap chars := by
  induction pieces generalizing taken with
  | nil => rfl
  | cons piece pieces ih =>
      have hrest : ∀ piece ∈ pieces, piece.Fits :=
        fun piece hmem => hfits piece (List.mem_cons_of_mem _ hmem)
      rw [List.flatMap_cons, List.flatMap_cons]
      cases piece with
      | text chars =>
          rw [parsed, render_literals, ih hrest hreceives]
          rfl
      | string s =>
          obtain ⟨hnotNull, hstring, hreceives⟩ := hreceives
          have hshort : s.length < 2 ^ 32 := hfits (.string s) List.mem_cons_self
          rw [parsed, List.singleton_append, render_stringPiece _ hnotNull, hstring,
            chars_stringArgument hshort, ih hrest hreceives]
          rfl

theorem request_prints (hfits : ∀ piece ∈ pieces, piece.Fits)
    (hfew : (pieces.flatMap strings).length + 1 < 2 ^ 32) :
    (request pieces).Prints (pieces.flatMap chars) := by
  have hplain := plain_parsed hfits
  have noNul : 0 ∉ (request pieces).format := by
    rw [request, ← chars_parsed]
    exact noNul_of_plain hplain
  refine Request.prints_of_scan (pieces.flatMap parsed) ⟨stringsCall (request pieces).format
    (pieces.flatMap strings), ⟨?_, noNul⟩, stringsCall_receives hfew⟩ ?_ (documented_plain hplain)
    fun call hreceives => render_parsed hfits hreceives
  · refine PrintkCall.holds_of_getD fun k _ => ?_
    rw [Nat.zero_add]
    rfl
  · have hscan := scan_plain hplain
    rw [chars_parsed] at hscan
    exact hscan

theorem runAll_pieces (pieces : List PrintkPiece) (t : Terminal) :
    runAll ((pieces.flatMap chars).map .putcOutput) t = runAll (printOps pieces) t := by
  induction pieces generalizing t with
  | nil => rfl
  | cons piece pieces ih =>
      rw [List.flatMap_cons, List.map_append, runAll_append, ih, printOps, printOps,
        List.flatMap_cons, runAll_append]
      cases piece with
      | text chars => rfl
      | string s =>
          rw [runAll_map_putcOutput]
          rfl

theorem does_pieces (hfits : ∀ piece ∈ pieces, piece.Fits)
    (hfew : (pieces.flatMap strings).length + 1 < 2 ^ 32) :
    ShellAct.Does [.printk (request pieces)] (printOps pieces) :=
  (ShellAct.does_printk (request_prints hfits hfew)).congr (runAll_pieces pieces)

end PrintkPiece

/-! ### The commands -/

namespace MachineView

/-- The memory map is one, and so is the stack. -/
structure Sound (view : MachineView) (entries : List MapEntry) : Prop where
  map : view.mbi.flags &&& multibootInfoMemMap ≠ 0 → HoldsMap view.memory view.mbi entries
  stack : StackBounds view.esp view.symbols.stackTop

/-- The texts that `print_multiboot_info` and `stack_dump` print, when their loops end. -/
structure Shows (view : MachineView) (output : CommandOutput) (fuel : Nat) : Prop where
  multiboot : ∃ requests texts, printMultibootInfo view.memory view.mbi fuel = some requests ∧
    List.Forall₂ Request.Prints requests texts ∧ texts.flatten = output.multiboot
  stack : ∃ dump, stackDump view.symbols view.memory view.esp view.ebp fuel = some dump ∧
    dump.Prints output.stack
  multibootReturns : output.multibootReturns = true
  rebootReturns : output.rebootReturns = view.rebootReturns

end MachineView

theorem printMultibootInfo_of_le {memory : Memory} {mbi : MultibootInfo} {requests : List Request}
    {fuel fuel' : Nat} (hle : fuel ≤ fuel')
    (hends : printMultibootInfo memory mbi fuel = some requests) :
    printMultibootInfo memory mbi fuel' = some requests := by
  rw [printMultibootInfo] at hends ⊢
  by_cases hflag : mbi.flags &&& multibootInfoMemMap ≠ 0
  · rw [if_pos hflag, Option.map_eq_some_iff] at hends ⊢
    obtain ⟨walk, hwalk, hrequests⟩ := hends
    exact ⟨walk, whileLoop_of_le hle hwalk, hrequests⟩
  · rw [if_neg hflag] at hends ⊢
    exact hends

theorem stackDump_of_le {symbols : LinkerSymbols} {memory : Memory} {esp ebp : UInt32} {dump : Dump}
    {fuel fuel' : Nat} (hle : fuel ≤ fuel')
    (hends : stackDump symbols memory esp ebp fuel = some dump) :
    stackDump symbols memory esp ebp fuel' = some dump := by
  rw [stackDump, Option.map_eq_some_iff] at hends ⊢
  obtain ⟨returnAddresses, hsearch, hdump⟩ := hends
  rw [printReturnAddresses, Option.map_eq_some_iff] at hsearch
  obtain ⟨search, hsearch, hsearched⟩ := hsearch
  refine ⟨returnAddresses, ?_, hdump⟩
  rw [printReturnAddresses, Option.map_eq_some_iff]
  exact ⟨search, whileLoop_of_le hle hsearch, hsearched⟩

theorem exists_texts {requests : List Request}
    (hprints : ∀ request ∈ requests, ∃ text, request.Prints text) :
    ∃ texts, List.Forall₂ Request.Prints requests texts := by
  induction requests with
  | nil => exact ⟨[], .nil⟩
  | cons request requests ih =>
      obtain ⟨text, htext⟩ := hprints request List.mem_cons_self
      obtain ⟨texts, htexts⟩ := ih fun request hmem => hprints request (List.mem_cons_of_mem _ hmem)
      exact ⟨text :: texts, .cons htext htexts⟩

theorem memoryRequests_print (mbi : MultibootInfo) :
    ∀ request ∈ memoryRequests mbi, ∃ text, request.Prints text := by
  intro request hmem
  rw [memoryRequests, List.mem_cons, List.mem_singleton] at hmem
  rcases hmem with rfl | rfl
  · exact ⟨_, @memoryLine_prints (str "Lower memory: ") _ _ (by decide) (by decide)⟩
  · exact ⟨_, @memoryLine_prints (str "Upper memory: ") _ _ (by decide) (by decide)⟩

theorem MachineView.Sound.exists_shows {view : MachineView} {entries : List MapEntry}
    (hsound : view.Sound entries) : ∃ output fuel, view.Shows output fuel := by
  obtain ⟨fuel, dump, text, hdump, htext⟩ := stackDump_ends hsound.stack view.memory view.ebp
  have hreport := printMultibootInfo_eq hsound.map
  have hprints : ∀ request ∈ (if view.mbi.flags &&& multibootInfoMemory ≠ 0 then
        memoryRequests view.mbi else []) ++ (if view.mbi.flags &&& multibootInfoMemMap ≠ 0 then
        mapHeader :: entries.map MapEntry.request else []), ∃ text, request.Prints text := by
    intro request hmem
    rcases List.mem_append.mp hmem with hmem | hmem
    · split_ifs at hmem
      · exact memoryRequests_print _ request hmem
      · exact absurd hmem List.not_mem_nil
    · split_ifs at hmem
      · rcases List.mem_cons.mp hmem with rfl | hmem
        · exact ⟨_, mapHeader_prints⟩
        · obtain ⟨entry, -, rfl⟩ := List.mem_map.mp hmem
          exact ⟨_, printEntry_prints _ _ _⟩
      · exact absurd hmem List.not_mem_nil
  obtain ⟨texts, htexts⟩ := exists_texts hprints
  exact ⟨⟨texts.flatten, text, true, view.rebootReturns⟩, max entries.length fuel,
    ⟨_, texts, printMultibootInfo_of_le (le_max_left _ _) hreport, htexts, rfl⟩,
    ⟨dump, stackDump_of_le (le_max_right _ _) hdump, htext⟩, rfl, rfl⟩

/-- The run asks for what the reaction does. -/
structure ShellRun.Agrees (run : ShellRun) (reaction : Reaction) : Prop where
  does : ShellAct.Does run.acts reaction.ops
  readPending : run.readPending = reaction.shell.readPending
  returns : run.returns = reaction.returns

namespace Shell

variable {view : MachineView} {output : CommandOutput} {fuel : Nat} {shell : Shell}
  {keyboard : Keyboard}

theorem does_text {text : List UInt8} (hplain : (literals text).all Piece.plain = true) :
    ShellAct.Does [.printk ⟨text, []⟩] (printOps [.text text]) := by
  have hdoes := @PrintkPiece.does_pieces [.text text]
    (fun piece hmem => by rw [List.mem_singleton.mp hmem]; exact hplain)
    (by simp [PrintkPiece.strings])
  have hrequest : PrintkPiece.request [.text text] = ⟨text, []⟩ := by
    simp [PrintkPiece.request, PrintkPiece.format, PrintkPiece.strings]
  rwa [hrequest] at hdoes

theorem short_texts (hcommands : shell.commands = Shell.zero.init.commands) (i : CommandIndex) :
    (shell.commands i).name.length < 2 ^ 32 ∧ (shell.commands i).description.length < 2 ^ 32 := by
  have hall : ∀ i, (Shell.zero.init.commands i).name.length < 256 ∧
      (Shell.zero.init.commands i).description.length < 256 := by decide
  rw [hcommands]
  obtain ⟨hname, hdescription⟩ := hall i
  omega

theorem does_helpLine (hcommands : shell.commands = Shell.zero.init.commands) (i : CommandIndex) :
    ShellAct.Does [.printk ⟨str "%s: %s\n", [.string (stringArgument (shell.commands i).name),
        .string (stringArgument (shell.commands i).description)]⟩]
      (printOps (Kernel.helpLine (shell.commands i))) := by
  obtain ⟨hname, hdescription⟩ := short_texts hcommands i
  refine @PrintkPiece.does_pieces (Kernel.helpLine (shell.commands i)) ?_
    (by simp [Kernel.helpLine, PrintkPiece.strings])
  intro piece hmem
  simp only [Kernel.helpLine, List.mem_cons, List.not_mem_nil, or_false] at hmem
  rcases hmem with rfl | rfl | rfl | rfl
  · exact hname
  · decide
  · exact hdescription
  · decide

theorem does_help (hcommands : shell.commands = Shell.zero.init.commands) :
    ShellAct.Does (helpActs shell) (helpOps shell) := by
  have hlines := @ShellAct.does_map _ (List.finRange commandCount) _ _ (does_helpLine hcommands)
  have htitle : ShellAct.Does [.printk ⟨str "Available commands:\n", []⟩]
      (printOps [.text (str "Available commands:\n")]) := does_text (by decide)
  rw [helpActs, helpOps, ← List.singleton_append]
  exact htitle.append hlines

theorem functionRun_agrees (hshows : view.Shows output fuel)
    (hcommands : shell.commands = Shell.zero.init.commands) (function : ShellFunction) :
    ∃ run, functionRun view fuel shell function = some run ∧
      run.Agrees (ofFunction output shell keyboard function) := by
  cases function with
  | help => exact ⟨_, rfl, does_help hcommands, rfl, rfl⟩
  | clear => exact ⟨_, rfl, ShellAct.does_op .clear, rfl, rfl⟩
  | last => exact ⟨_, rfl, ShellAct.does_nil, rfl, rfl⟩
  | pmultiboot =>
      obtain ⟨requests, texts, hrequests, htexts, heq⟩ := hshows.multiboot
      refine ⟨_, by rw [functionRun, hrequests, Option.map_some], ?_, rfl,
        hshows.multibootReturns.symm⟩
      rw [ofFunction, ← heq]
      exact ShellAct.does_requests htexts
  | pstack =>
      obtain ⟨dump, hdump, texts, htexts, heq⟩ := hshows.stack
      refine ⟨_, by rw [functionRun, hdump, Option.map_some], ?_, rfl, rfl⟩
      rw [ofFunction, ← heq]
      exact ShellAct.does_requests htexts
  | reboot => exact ⟨_, rfl, ShellAct.does_nil, rfl, hshows.rebootReturns.symm⟩
  | halt => exact ⟨_, rfl, does_text (by decide), rfl, rfl⟩
  | read => exact ⟨_, rfl, ShellAct.does_nil, rfl, rfl⟩
  | azerty => exact ⟨_, rfl, ShellAct.does_nil, rfl, rfl⟩
  | qwerty => exact ⟨_, rfl, ShellAct.does_nil, rfl, rfl⟩

theorem callRun_agrees (hshows : view.Shows output fuel)
    (hcommands : shell.commands = Shell.zero.init.commands) (function : ShellFunction) :
    ∃ run, callRun view fuel shell function = some run ∧
      run.Agrees (ofCall output shell keyboard function) := by
  rw [callRun, ofCall]
  split_ifs
  · cases shell.lastCommand with
    | some i => exact functionRun_agrees hshows hcommands _
    | none => exact ⟨_, rfl, does_text (by decide), rfl, rfl⟩
  · exact functionRun_agrees hshows hcommands function

theorem does_command {acts : List ShellAct} {ops : List TerminalOp} (showPrompt : Bool)
    (hdoes : ShellAct.Does acts ops) :
    ShellAct.Does (.op .beginOutput :: (acts ++ [.op (.endOutput showPrompt)]))
      (.beginOutput :: (ops ++ [.endOutput showPrompt])) :=
  (ShellAct.does_op .beginOutput).append (hdoes.append (ShellAct.does_op (.endOutput showPrompt)))

theorem does_quoted {command : List UInt8} (hshort : command.length < 2 ^ 32) :
    ShellAct.Does [.printk ⟨str "read: \"%s\"", [.string (stringArgument command)]⟩]
      (printOps [.text (str "read: \""), .string command, .text (str "\"")]) := by
  refine @PrintkPiece.does_pieces [.text (str "read: \""), .string command, .text (str "\"")] ?_
    (by simp [PrintkPiece.strings])
  intro piece hmem
  simp only [List.mem_cons, List.not_mem_nil, or_false] at hmem
  rcases hmem with rfl | rfl | rfl
  · decide
  · exact hshort
  · decide

theorem does_notFound {command : List UInt8} (hshort : command.length < 2 ^ 32) :
    ShellAct.Does [.printk ⟨str "%s: command not found\n", [.string (stringArgument command)]⟩]
      (printOps [.string command, .text (str ": command not found\n")]) := by
  refine @PrintkPiece.does_pieces [.string command, .text (str ": command not found\n")] ?_
    (by simp [PrintkPiece.strings])
  intro piece hmem
  simp only [List.mem_cons, List.not_mem_nil, or_false] at hmem
  rcases hmem with rfl | rfl
  · exact hshort
  · decide

theorem executeRun_agrees (hshows : view.Shows output fuel)
    (hcommands : shell.commands = Shell.zero.init.commands) {command : List UInt8}
    (hshort : command.length < 2 ^ 32) :
    ∃ run, shell.executeRun view fuel command = some run ∧
      run.Agrees (ofLine output shell keyboard command) := by
  rw [executeRun, ofLine]
  by_cases hpending : shell.readPending = true
  · rw [if_pos hpending, if_pos hpending]
    exact ⟨_, rfl, does_command true (does_quoted hshort), rfl, rfl⟩
  · rw [if_neg hpending, if_neg hpending]
    cases shell.findCommand command with
    | none =>
        refine ⟨_, rfl, does_command true ?_, rfl, rfl⟩
        split_ifs
        · exact does_notFound hshort
        · exact ShellAct.does_nil
    | some i =>
        obtain ⟨called, hcalled, hdoes, hreading, hreturns⟩ :=
          @callRun_agrees view output fuel shell keyboard hshows hcommands
            (shell.commands i).function
        dsimp only
        rw [hcalled, Option.map_some]
        by_cases hreturned : called.returns = true
        · rw [if_pos hreturned, ofCommand, if_pos (hreturns ▸ hreturned)]
          refine ⟨_, rfl, ?_, ?_, hreturns⟩
          · rw [hreading]
            exact does_command _ hdoes
          · dsimp only
            split_ifs <;> exact hreading
        · rw [if_neg hreturned, ofCommand, if_neg (hreturns ▸ hreturned)]
          exact ⟨_, rfl, (ShellAct.does_op .beginOutput).append hdoes, hreading, hreturns⟩

end Shell

theorem stopped_perform (reaction : Reaction) (k : Kernel) :
    (Kernel.stopped (reaction.perform k)).terminal = runAll reaction.ops k.terminal := by
  cases hreturns : reaction.returns with
  | true => rw [perform_ok hreturns, Kernel.stopped]
  | false => rw [perform_error hreturns, Kernel.stopped]

theorem perform_returns_iff (reaction : Reaction) (k : Kernel) :
    reaction.returns = true ↔ ∃ k', reaction.perform k = .ok k' := by
  constructor
  · exact fun hreturns => ⟨_, perform_ok hreturns⟩
  · rintro ⟨k', hperform⟩
    exact (perform_ok_iff.mp hperform).1

/-- Whatever the keys before, the calls of `printk` for a line that is submitted leave the terminal
that `shell_execute` leaves, and the line is printed as it was typed. -/
theorem shell_prints_requests {view : MachineView} {entries : List MapEntry}
    (hsound : view.Sound entries) :
    (∃ output fuel, view.Shows output fuel) ∧ ∀ output fuel, view.Shows output fuel →
      ∀ vga events k command, (Kernel.boot vga).handleAll events = .ok k → IsLine command →
        ∃ run, k.shell.executeRun view fuel command = some run ∧
          (run.returns = true ↔ ∃ result, k.shellExecute output command = .ok result) ∧
          ∀ t, ShellAct.RunsAll run.acts k.terminal t
            ↔ t = (Kernel.stopped ((k.shellExecute output command).map Prod.fst)).terminal := by
  refine ⟨hsound.exists_shows, fun output fuel hshows vga events k command hrun hline => ?_⟩
  obtain ⟨line, rfl, hlength, -⟩ := hline
  have hshort : (line ++ [0]).length < 2 ^ 32 := by
    rw [List.length_append, List.length_singleton]
    change line.length ≤ 127 at hlength
    omega
  obtain ⟨run, hexecute, hagrees⟩ := @Shell.executeRun_agrees view output fuel k.shell k.keyboard
    hshows (between_of_run vga hrun).commands _ hshort
  have hmodel := Reaction.shellExecute_eq output (line ++ [0]) k
  refine ⟨run, hexecute, ?_, fun t => ?_⟩
  · rw [hagrees.returns, perform_returns_iff _ k, ← hmodel]
    cases k.shellExecute output (line ++ [0]) with
    | ok result => exact ⟨fun _ => ⟨result, rfl⟩, fun _ => ⟨result.1, rfl⟩⟩
    | error stopped =>
        constructor
        · rintro ⟨k', hk'⟩
          cases hk'
        · rintro ⟨result, hresult⟩
          cases hresult
  · rw [hagrees.does, hmodel, stopped_perform]

def oneEntryView : MachineView :=
  ⟨⟨0x40, 0, 0, 24, 4096⟩, oneEntryMemory, ⟨0x100000, 0x108000, 0x110000⟩, 0x10FF00, 0x10FF10,
    true⟩

/-- A line that reads like a conversion. -/
theorem shell_prints_requests_percent :
    let k := Kernel.boot System.blankVga
    ∃ output fuel run, k.shell.executeRun oneEntryView fuel (str "%d" ++ [0]) = some run ∧
      (run.returns = true ↔ ∃ result, k.shellExecute output (str "%d" ++ [0]) = .ok result) ∧
      ∀ t, ShellAct.RunsAll run.acts k.terminal t
        ↔ t = (Kernel.stopped ((k.shellExecute output (str "%d" ++ [0])).map Prod.fst)).terminal := by
  have hstack : StackBounds 0x10FF00 0x110000 := ⟨by decide, by decide, by decide, by decide⟩
  have hline : IsLine (str "%d" ++ [0]) := ⟨str "%d", rfl, by decide, by decide, by decide⟩
  obtain ⟨⟨output, fuel, hshows⟩, hall⟩ :=
    @shell_prints_requests oneEntryView [oneEntry] ⟨fun _ => oneEntry_holdsMap, hstack⟩
  obtain ⟨run, hrun⟩ := hall output fuel hshows System.blankVga [] _ _ rfl hline
  exact ⟨output, fuel, run, hrun⟩

end KernelFromScratch
