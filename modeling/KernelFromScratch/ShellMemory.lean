import KernelFromScratch.Boot
import KernelFromScratch.Dispatch
import KernelFromScratch.Strings

/-!
# The shell in memory

The static `shell` of `shell.c` byte by byte: `shell_init` fills it with `strncpy`, and
`shell_execute` looks a line up with `strcmp` and calls through the function pointers. It holds the
record of the model at every call.
-/

namespace KernelFromScratch

section Source

/-- `sizeof(shell_command_t)`. -/
def shellCommandSize : Nat := 516

/-- `sizeof(shell_t)`. -/
def shellSize : Nat := 5172

/-- The addresses in `shell.c`. -/
structure ShellSymbols where
  /-- `&shell`. -/
  shell : UInt32
  /-- The literals in `shell_init`. -/
  nameLiteral : CommandIndex → UInt32
  descriptionLiteral : CommandIndex → UInt32
  /-- The literal in `shell_execute`. -/
  lastLiteral : UInt32
  pointer : ShellFunction → UInt32
  functionOf : UInt32 → Option ShellFunction
  functionOf_pointer : ∀ function, functionOf (pointer function) = some function
  shell_fits : shell.toNat + shellSize ≤ 2 ^ 32

/-- The arguments of the calls of `add_shell_cmd`. -/
def shellLiteral : CommandIndex → ShellCommand
  | 0 => ⟨str "help", str "Display the commands list", .help⟩
  | 1 => ⟨str "clear", str "Clear the terminal screen", .clear⟩
  | 2 => ⟨str "last", str "Execute the last command", .last⟩
  | 3 => ⟨str "pmultiboot", str "Print multiboot infos", .pmultiboot⟩
  | 4 => ⟨str "pstack", str "Print the kernel stack", .pstack⟩
  | 5 => ⟨str "reboot", str "Reboot the system", .reboot⟩
  | 6 => ⟨str "halt", str "Halt the system", .halt⟩
  | 7 => ⟨str "read", str "Read a line and print it", .read⟩
  | 8 => ⟨str "azerty", str "Switch to the Azerty keyboard layout", .azerty⟩
  | 9 => ⟨str "qwerty", str "Switch to the Qwerty keyboard layout", .qwerty⟩

namespace ShellSymbols

variable (symbols : ShellSymbols) (memory : Memory)

def fieldAt (offset : Nat) : UInt32 := symbols.shell + .ofNat offset

/-- `&shell.commands[index]`, where its name is. -/
def commandAt (index : Nat) : UInt32 := symbols.fieldAt (4 + shellCommandSize * index)

def descriptionAt (index : Nat) : UInt32 := symbols.fieldAt (4 + shellCommandSize * index + 256)

def functionAt (index : Nat) : UInt32 := symbols.fieldAt (4 + shellCommandSize * index + 512)

/-- `&shell.last_command`. -/
def lastCommandAt : UInt32 := symbols.fieldAt 5164

/-- `&shell.read_pending`. -/
def readPendingAt : UInt32 := symbols.fieldAt 5168

def addShellCmd (index : Nat) (name description command : UInt32) (memory : Memory) : Memory :=
  if index < commandCount then
    let memory := write32 memory (symbols.functionAt index) command
    let memory := memory.strncpy (symbols.commandAt index) name (.ofNat (commandNameMaxLength - 1))
    memory.strncpy (symbols.descriptionAt index) description
      (.ofNat (commandDescriptionMaxLength - 1))
  else memory

/-- The call of `add_shell_cmd` for an index. -/
def addLiteral (index : CommandIndex) (memory : Memory) : Memory :=
  symbols.addShellCmd index (symbols.nameLiteral index) (symbols.descriptionLiteral index)
    (symbols.pointer (shellLiteral index).function) memory

def shellInit (mbi : UInt32) (memory : Memory) : Memory :=
  let memory := write32 memory symbols.shell mbi
  let memory := write32 memory symbols.lastCommandAt 0
  let memory := write8 memory symbols.readPendingAt 0
  let memory := symbols.addLiteral 0 memory
  let memory := symbols.addLiteral 1 memory
  let memory := symbols.addLiteral 2 memory
  let memory := symbols.addLiteral 3 memory
  let memory := symbols.addLiteral 4 memory
  let memory := symbols.addLiteral 5 memory
  let memory := symbols.addLiteral 6 memory
  let memory := symbols.addLiteral 7 memory
  let memory := symbols.addLiteral 8 memory
  symbols.addLiteral 9 memory

/-- The loop of `shell_execute` over the commands; the outer option is none when it does not end. -/
def findCommand (command : UInt32) : List CommandIndex → Option (Option CommandIndex)
  | [] => some none
  | i :: rest => do
      let difference ← memory.strcmp command (symbols.commandAt i)
      if difference = 0 then some (some i) else findCommand command rest

variable (output : CommandOutput)

/-- What a function of the shell does to `shell`; none when it does not return. -/
def callFunction : ShellFunction → Option Memory
  | .last => none
  | .halt => none
  | .pmultiboot => if output.multibootReturns then some memory else none
  | .reboot => if output.rebootReturns then some memory else none
  | .read =>
      if memory symbols.readPendingAt ≠ 0 then some memory
      else some (write8 memory symbols.readPendingAt 1)
  | _ => some memory

def last : Option Memory :=
  let lastCommand := read32 memory symbols.lastCommandAt
  if lastCommand ≠ 0 then
    (symbols.functionOf (read32 memory (lastCommand + 512))).bind
      (symbols.callFunction memory output)
  else some memory

/-- A call through a function pointer. -/
def call (pointer : UInt32) : Option Memory :=
  (symbols.functionOf pointer).bind fun function =>
    if function = .last then symbols.last memory output
    else symbols.callFunction memory output function

/-- What `shell_execute` does to `shell`; none when it does not return. -/
def shellExecute (command : UInt32) (memory : Memory) : Option Memory :=
  if memory symbols.readPendingAt ≠ 0 then some (write8 memory symbols.readPendingAt 0)
  else
    (symbols.findCommand memory command (List.finRange commandCount)).bind fun
      | none => some memory
      | some i => do
          let memory ← symbols.call memory output (read32 memory (symbols.functionAt i))
          let difference ← memory.strcmp command symbols.lastLiteral
          if difference ≠ 0 then
            some (write32 memory symbols.lastCommandAt (symbols.commandAt i))
          else some memory

end ShellSymbols

end Source

namespace ShellSymbols

variable {symbols : ShellSymbols} {memory memory' : Memory} {i : CommandIndex}
  {command : ShellCommand} {shell : Shell} {address x : UInt32} {text : List UInt8} {k : Nat}

/-! ### The record in memory -/

/-- The bytes of `shell.commands[i]` stand for the command. -/
structure HoldsCommand (symbols : ShellSymbols) (memory : Memory) (i : CommandIndex)
    (command : ShellCommand) : Prop where
  name : HoldsString memory (symbols.commandAt i) command.name
  name_fits : (cString command.name).length < commandNameMaxLength
  description : HoldsString memory (symbols.descriptionAt i) command.description
  description_fits : (cString command.description).length < commandDescriptionMaxLength
  function : read32 memory (symbols.functionAt i) = symbols.pointer command.function

/-- The pointer in `last_command`. -/
def lastPointer (symbols : ShellSymbols) : Option CommandIndex → UInt32
  | none => 0
  | some i => symbols.commandAt i

/-- The bytes of `shell` stand for the shell of the model. -/
structure HoldsShell (symbols : ShellSymbols) (memory : Memory) (shell : Shell) : Prop where
  commands : ∀ i, symbols.HoldsCommand memory i (shell.commands i)
  lastCommand : read32 memory symbols.lastCommandAt = symbols.lastPointer shell.lastCommand
  readPending : memory symbols.readPendingAt = if shell.readPending then 1 else 0

/-- The bytes that are not of `shell`. -/
def Outside (symbols : ShellSymbols) (x : UInt32) : Prop :=
  shellSize ≤ (x - symbols.shell).toNat

/-- Only bytes of `shell` differ. -/
def KeepsRest (symbols : ShellSymbols) (memory memory' : Memory) : Prop :=
  ∀ x, symbols.Outside x → memory' x = memory x

theorem fieldAt_add (symbols : ShellSymbols) (j k : Nat) :
    symbols.fieldAt j + .ofNat k = symbols.fieldAt (j + k) := by
  rw [fieldAt, fieldAt, UInt32.ofNat_add, UInt32.add_assoc]

theorem fieldAt_ne {j : Nat} (hj : j < shellSize) (hk : k < shellSize) (hne : j ≠ k) :
    symbols.fieldAt j ≠ symbols.fieldAt k := by
  rw [shellSize] at hj hk
  intro heq
  have hdistance := offset_sub_toNat symbols.shell (show k < 2 ^ 32 by omega) (show j < 2 ^ 32 by omega)
  change (symbols.fieldAt j - symbols.fieldAt k).toNat = _ at hdistance
  rw [heq, UInt32.sub_self] at hdistance
  change 0 = _ at hdistance
  omega

theorem descriptionAt_eq (symbols : ShellSymbols) (i : CommandIndex) :
    symbols.descriptionAt i = symbols.commandAt i + .ofNat 256 :=
  (fieldAt_add symbols _ _).symm

theorem functionAt_eq (symbols : ShellSymbols) (i : CommandIndex) :
    symbols.functionAt i = symbols.commandAt i + .ofNat 512 :=
  (fieldAt_add symbols _ _).symm

theorem HoldsCommand.congr (hholds : symbols.HoldsCommand memory i command)
    (hbytes : ∀ k < shellCommandSize, memory' (symbols.commandAt i + .ofNat k)
      = memory (symbols.commandAt i + .ofNat k)) :
    symbols.HoldsCommand memory' i command := by
  have hfield : ∀ (j k : Nat), j + k < shellCommandSize →
      memory' (symbols.fieldAt (4 + shellCommandSize * i + j) + .ofNat k)
        = memory (symbols.fieldAt (4 + shellCommandSize * i + j) + .ofNat k) := by
    intro j k hlt
    have heq := hbytes (j + k) hlt
    rw [commandAt, fieldAt_add, ← Nat.add_assoc, ← fieldAt_add] at heq
    exact heq
  have hsize : shellCommandSize = 516 := rfl
  have hname := hholds.name_fits
  have hdescription := hholds.description_fits
  rw [commandNameMaxLength] at hname
  rw [commandDescriptionMaxLength] at hdescription
  constructor
  case name => exact hholds.name.of_bytes fun k hk => hfield 0 k (by omega)
  case name_fits => exact hholds.name_fits
  case description => exact hholds.description.of_bytes fun k hk => hfield 256 k (by omega)
  case description_fits => exact hholds.description_fits
  case function =>
    have hword := read32_congr fun k hk => hfield 512 k (by omega)
    exact hword.trans hholds.function

/-- The commands lie in front of the other fields that change. -/
theorem HoldsShell.commands_congr (hholds : symbols.HoldsShell memory shell)
    (hbytes : ∀ k < 5164, memory' (symbols.fieldAt k) = memory (symbols.fieldAt k))
    (i : CommandIndex) : symbols.HoldsCommand memory' i (shell.commands i) := by
  have hi : i.val < 10 := i.isLt
  refine (hholds.commands i).congr fun k hk => ?_
  rw [shellCommandSize] at hk
  rw [commandAt, fieldAt_add]
  apply hbytes
  rw [shellCommandSize]
  omega

theorem HoldsShell.congr (hholds : symbols.HoldsShell memory shell)
    (hbytes : ∀ k < shellSize, memory' (symbols.fieldAt k) = memory (symbols.fieldAt k)) :
    symbols.HoldsShell memory' shell := by
  rw [shellSize] at hbytes
  constructor
  case commands => exact hholds.commands_congr fun k hk => hbytes k (by omega)
  case lastCommand =>
    have hword : read32 memory' symbols.lastCommandAt = read32 memory symbols.lastCommandAt := by
      apply read32_congr
      intro k hk
      rw [lastCommandAt, fieldAt_add]
      exact hbytes _ (by omega)
    exact hword.trans hholds.lastCommand
  case readPending => exact (hbytes _ (by omega)).trans hholds.readPending

/-! ### `shell_init` -/

/-- The literals are in memory. -/
structure HoldsLiterals (symbols : ShellSymbols) (region : UInt32 → Prop) (memory : Memory) :
    Prop where
  name : ∀ i, HoldsStringIn region memory (symbols.nameLiteral i) (shellLiteral i).name
  description : ∀ i,
    HoldsStringIn region memory (symbols.descriptionLiteral i) (shellLiteral i).description
  last : HoldsStringIn region memory symbols.lastLiteral (str "last")

theorem HoldsLiterals.congr {region : UInt32 → Prop}
    (hliterals : symbols.HoldsLiterals region memory)
    (hkeeps : ∀ x, region x → memory' x = memory x) : symbols.HoldsLiterals region memory' :=
  ⟨fun i => (hliterals.name i).congr hkeeps, fun i => (hliterals.description i).congr hkeeps,
    hliterals.last.congr hkeeps⟩

theorem HoldsLiterals.mono {region region' : UInt32 → Prop}
    (hliterals : symbols.HoldsLiterals region memory) (hregion : ∀ x, region x → region' x) :
    symbols.HoldsLiterals region' memory :=
  ⟨fun i => (hliterals.name i).mono hregion, fun i => (hliterals.description i).mono hregion,
    hliterals.last.mono hregion⟩

/-- The bytes of the literals, with their NULs. -/
inductive LiteralByte (symbols : ShellSymbols) : UInt32 → Prop where
  | name (i : CommandIndex) {k : Nat} (hk : k ≤ (shellLiteral i).name.length) :
      LiteralByte symbols (symbols.nameLiteral i + .ofNat k)
  | description (i : CommandIndex) {k : Nat} (hk : k ≤ (shellLiteral i).description.length) :
      LiteralByte symbols (symbols.descriptionLiteral i + .ofNat k)
  | last {k : Nat} (hk : k ≤ (str "last").length) :
      LiteralByte symbols (symbols.lastLiteral + .ofNat k)

theorem HoldsLiterals.of_bytes {region : UInt32 → Prop}
    (hliterals : symbols.HoldsLiterals region memory)
    (hkeeps : ∀ x, symbols.LiteralByte x → memory' x = memory x) :
    symbols.HoldsLiterals region memory' := by
  have hshort : ∀ text : List UInt8, (cString text).length ≤ text.length :=
    fun text => (List.takeWhile_prefix _).length_le
  constructor
  case name =>
    intro i
    obtain ⟨hholds, hinside⟩ := hliterals.name i
    exact ⟨hholds.of_bytes fun k hk => hkeeps _ (.name i (hk.trans (hshort _))), hinside⟩
  case description =>
    intro i
    obtain ⟨hholds, hinside⟩ := hliterals.description i
    exact ⟨hholds.of_bytes fun k hk => hkeeps _ (.description i (hk.trans (hshort _))), hinside⟩
  case last =>
    obtain ⟨hholds, hinside⟩ := hliterals.last
    exact ⟨hholds.of_bytes fun k hk => hkeeps _ (.last (hk.trans (hshort _))), hinside⟩

theorem outside_command (hout : symbols.Outside x) (i : CommandIndex) :
    shellCommandSize ≤ (x - symbols.commandAt i).toNat := by
  have hi : i.val < 10 := i.isLt
  rw [Outside, shellSize] at hout
  rw [commandAt, fieldAt, shellCommandSize, sub_offset_of_le (by omega)]
  omega

/-- What lies outside a command lies outside the places that `add_shell_cmd` writes. -/
theorem outside_parts (hout : shellCommandSize ≤ (x - symbols.commandAt i).toNat) :
    255 ≤ (x - symbols.commandAt i).toNat ∧ 255 ≤ (x - symbols.descriptionAt i).toNat ∧
      4 ≤ (x - symbols.functionAt i).toNat := by
  rw [shellCommandSize] at hout
  refine ⟨by omega, ?_, ?_⟩
  · rw [descriptionAt_eq, sub_offset_of_le (by omega)]
    omega
  · rw [functionAt_eq, sub_offset_of_le (by omega)]
    omega

/-- What `add_shell_cmd` stores. -/
def stored (command : ShellCommand) : ShellCommand where
  name := strncpy command.name (commandNameMaxLength - 1)
  description := strncpy command.description (commandDescriptionMaxLength - 1)
  function := command.function

/-- The last bytes of the two strings of a command are zero. -/
def Terminated (symbols : ShellSymbols) (memory : Memory) (i : CommandIndex) : Prop :=
  memory (symbols.commandAt i + .ofNat 255) = 0 ∧ memory (symbols.commandAt i + .ofNat 511) = 0

section AddLiteral

variable (symbols : ShellSymbols) (i : CommandIndex) (memory : Memory)

/-- After the first write of `add_shell_cmd`. -/
def pointed : Memory :=
  write32 memory (symbols.functionAt i) (symbols.pointer (shellLiteral i).function)

/-- After the copy of the name. -/
def named : Memory :=
  (symbols.pointed i memory).strncpy (symbols.commandAt i) (symbols.nameLiteral i) 255

theorem addLiteral_eq : symbols.addLiteral i memory = (symbols.named i memory).strncpy
    (symbols.descriptionAt i) (symbols.descriptionLiteral i) 255 := by
  have hcount : i.val < commandCount := i.isLt
  rw [addLiteral, addShellCmd, if_pos hcount]
  rfl

variable {symbols} {i} {memory}

theorem pointed_apart (hout : 4 ≤ (x - symbols.functionAt i).toNat) :
    symbols.pointed i memory x = memory x := by
  rw [pointed, write32, if_neg (Nat.not_lt.mpr hout)]

theorem pointed_keepsRest : symbols.KeepsRest memory (symbols.pointed i memory) :=
  fun _ hout => pointed_apart (outside_parts (outside_command hout i)).2.2

theorem HoldsLiterals.name_apart (hliterals : symbols.HoldsLiterals symbols.Outside memory) :
    Memory.Apart (symbols.commandAt i) (symbols.nameLiteral i) 255 (shellLiteral i).name :=
  fun k hk => (outside_parts (outside_command ((hliterals.name i).inside k hk) i)).1

theorem HoldsLiterals.description_apart (hliterals : symbols.HoldsLiterals symbols.Outside memory) :
    Memory.Apart (symbols.descriptionAt i) (symbols.descriptionLiteral i) 255
      (shellLiteral i).description :=
  fun k hk => (outside_parts (outside_command ((hliterals.description i).inside k hk) i)).2.1

theorem named_apart (hliterals : symbols.HoldsLiterals symbols.Outside memory)
    (hout : 255 ≤ (x - symbols.commandAt i).toNat) :
    symbols.named i memory x = symbols.pointed i memory x :=
  Memory.strncpy_apart ((hliterals.congr pointed_keepsRest).name i).holds hliterals.name_apart hout

theorem named_keepsRest (hliterals : symbols.HoldsLiterals symbols.Outside memory) :
    symbols.KeepsRest memory (symbols.named i memory) := by
  intro x hout
  rw [named_apart hliterals (outside_parts (outside_command hout i)).1, pointed_keepsRest x hout]

theorem described_apart (hliterals : symbols.HoldsLiterals symbols.Outside memory)
    (hout : 255 ≤ (x - symbols.descriptionAt i).toNat) :
    symbols.addLiteral i memory x = symbols.named i memory x := by
  have hcopied : symbols.HoldsLiterals symbols.Outside (symbols.named i memory) :=
    hliterals.congr (named_keepsRest hliterals)
  rw [addLiteral_eq]
  exact Memory.strncpy_apart (hcopied.description i).holds hliterals.description_apart hout

theorem addLiteral_apart (hliterals : symbols.HoldsLiterals symbols.Outside memory)
    (hout : shellCommandSize ≤ (x - symbols.commandAt i).toNat) :
    symbols.addLiteral i memory x = memory x := by
  obtain ⟨hcommand, hdescription, hfunction⟩ := outside_parts hout
  rw [described_apart hliterals hdescription, named_apart hliterals hcommand,
    pointed_apart hfunction]

theorem command_distance {j k : Nat} (hj : j < 2 ^ 32) (hk : k < 2 ^ 32) :
    (symbols.commandAt i + .ofNat k - (symbols.commandAt i + .ofNat j)).toNat
      = (2 ^ 32 + k - j) % 2 ^ 32 :=
  offset_sub_toNat (symbols.commandAt i) hj hk

theorem command_offset {k : Nat} (hk : k < 2 ^ 32) :
    (symbols.commandAt i + .ofNat k - symbols.commandAt i).toNat = k := by
  rw [add_sub_self, UInt32.toNat_ofNat_of_lt' hk]

theorem length_copied_le (text : List UInt8) : (cString (strncpy text 255)).length ≤ 255 := by
  have hcopied : cString (strncpy text 255) = strncpy text 255 := cString_take text 255
  rw [hcopied]
  exact List.length_take_le _ _

theorem addLiteral_name (hliterals : symbols.HoldsLiterals symbols.Outside memory)
    (hend : memory (symbols.commandAt i + .ofNat 255) = 0) :
    HoldsString (symbols.addLiteral i memory) (symbols.commandAt i)
      (strncpy (shellLiteral i).name 255) := by
  have hnul : symbols.pointed i memory (symbols.commandAt i + .ofNat 255) = 0 := by
    have hfar : 4 ≤ (symbols.commandAt i + .ofNat 255 - symbols.functionAt i).toNat := by
      rw [functionAt_eq, command_distance (by omega) (by omega)]
      omega
    exact (pointed_apart hfar).trans hend
  have hcopied : HoldsString (symbols.named i memory) (symbols.commandAt i)
      (strncpy (shellLiteral i).name 255) :=
    Memory.holdsString_strncpy ((hliterals.congr pointed_keepsRest).name i).holds
      hliterals.name_apart hnul
  refine hcopied.of_bytes fun k hk => ?_
  have hshort : k ≤ 255 := hk.trans (length_copied_le _)
  apply described_apart hliterals
  rw [descriptionAt_eq, command_distance (by omega) (by omega)]
  omega

theorem addLiteral_description (hliterals : symbols.HoldsLiterals symbols.Outside memory)
    (hend : memory (symbols.commandAt i + .ofNat 511) = 0) :
    HoldsString (symbols.addLiteral i memory) (symbols.descriptionAt i)
      (strncpy (shellLiteral i).description 255) := by
  have hplace : symbols.descriptionAt i + .ofNat 255 = symbols.commandAt i + .ofNat 511 := by
    rw [descriptionAt_eq, UInt32.add_assoc]
    rfl
  have hnul : symbols.named i memory (symbols.descriptionAt i + .ofNat 255) = 0 := by
    have hfar : 4 ≤ (symbols.commandAt i + .ofNat 511 - symbols.functionAt i).toNat := by
      rw [functionAt_eq, command_distance (by omega) (by omega)]
      omega
    have hfar' : 255 ≤ (symbols.commandAt i + .ofNat 511 - symbols.commandAt i).toNat := by
      rw [command_offset (by omega)]
      omega
    rw [hplace, named_apart hliterals hfar', pointed_apart hfar, hend]
  have hcopied : symbols.HoldsLiterals symbols.Outside (symbols.named i memory) :=
    hliterals.congr (named_keepsRest hliterals)
  rw [addLiteral_eq]
  exact Memory.holdsString_strncpy (hcopied.description i).holds hliterals.description_apart hnul

theorem addLiteral_function (hliterals : symbols.HoldsLiterals symbols.Outside memory) :
    read32 (symbols.addLiteral i memory) (symbols.functionAt i)
      = symbols.pointer (shellLiteral i).function := by
  have hword : read32 (symbols.addLiteral i memory) (symbols.functionAt i)
      = read32 (symbols.pointed i memory) (symbols.functionAt i) := by
    apply read32_congr
    intro k hk
    have hplace : symbols.functionAt i + .ofNat k = symbols.commandAt i + .ofNat (512 + k) := by
      rw [functionAt_eq, UInt32.add_assoc, ← UInt32.ofNat_add]
    have hfar : 255 ≤ (symbols.commandAt i + .ofNat (512 + k) - symbols.descriptionAt i).toNat := by
      rw [descriptionAt_eq, command_distance (by omega) (by omega)]
      omega
    have hfar' : 255 ≤ (symbols.commandAt i + .ofNat (512 + k) - symbols.commandAt i).toNat := by
      rw [command_offset (by omega)]
      omega
    rw [hplace, described_apart hliterals hfar, named_apart hliterals hfar']
  exact hword.trans read32_write32

theorem addLiteral_holds (hliterals : symbols.HoldsLiterals symbols.Outside memory)
    (hterminated : symbols.Terminated memory i) :
    symbols.HoldsCommand (symbols.addLiteral i memory) i (stored (shellLiteral i)) where
  name := addLiteral_name hliterals hterminated.1
  name_fits := Nat.lt_succ_of_le (length_copied_le _)
  description := addLiteral_description hliterals hterminated.2
  description_fits := Nat.lt_succ_of_le (length_copied_le _)
  function := addLiteral_function hliterals

end AddLiteral

theorem commandAt_apart {j : CommandIndex} (hne : i ≠ j) (hk : k < shellCommandSize) :
    shellCommandSize ≤ (symbols.commandAt j + .ofNat k - symbols.commandAt i).toNat := by
  have hi : i.val < 10 := i.isLt
  have hj : j.val < 10 := j.isLt
  have hdistinct : i.val ≠ j.val := fun h => hne (Fin.ext h)
  rw [shellCommandSize] at hk ⊢
  rw [commandAt, commandAt, fieldAt_add, fieldAt, fieldAt, shellCommandSize,
    offset_sub_toNat _ (by omega) (by omega)]
  rcases Nat.lt_or_gt_of_ne hdistinct with hlt | hgt
  · have hahead : 2 ^ 32 + (4 + 516 * j.val + k) - (4 + 516 * i.val)
        = 2 ^ 32 + (516 * (j.val - i.val) + k) := by
      omega
    rw [hahead, Nat.add_mod_left, Nat.mod_eq_of_lt (by omega)]
    omega
  · rw [Nat.mod_eq_of_lt (by omega)]
    omega

theorem addLiterals_hold {indices : List CommandIndex} (hnodup : indices.Nodup)
    (hliterals : symbols.HoldsLiterals symbols.Outside memory)
    (hterminated : ∀ i ∈ indices, symbols.Terminated memory i) :
    (∀ i ∈ indices, symbols.HoldsCommand
        (indices.foldl (fun memory i => symbols.addLiteral i memory) memory) i
        (stored (shellLiteral i))) ∧
      ∀ x, (∀ i ∈ indices, shellCommandSize ≤ (x - symbols.commandAt i).toNat) →
        indices.foldl (fun memory i => symbols.addLiteral i memory) memory x = memory x := by
  induction indices generalizing memory with
  | nil => exact ⟨fun i hi => absurd hi List.not_mem_nil, fun _ _ => rfl⟩
  | cons i rest ih =>
      obtain ⟨hnew, hrest⟩ := List.nodup_cons.mp hnodup
      have hadded := addLiteral_holds hliterals (hterminated i List.mem_cons_self)
      have hframe : ∀ x, shellCommandSize ≤ (x - symbols.commandAt i).toNat →
          symbols.addLiteral i memory x = memory x := fun _ hout => addLiteral_apart hliterals hout
      have hkeeps : symbols.KeepsRest memory (symbols.addLiteral i memory) :=
        fun x hout => hframe x (outside_command hout i)
      have hlater : ∀ j ∈ rest, symbols.Terminated (symbols.addLiteral i memory) j := by
        intro j hj
        have hne : i ≠ j := fun h => hnew (h ▸ hj)
        obtain ⟨hname, hdescription⟩ := hterminated j (List.mem_cons_of_mem i hj)
        exact ⟨(hframe _ (commandAt_apart hne (by decide))).trans hname,
          (hframe _ (commandAt_apart hne (by decide))).trans hdescription⟩
      obtain ⟨hholds, hsame⟩ := ih hrest (hliterals.congr hkeeps) hlater
      refine ⟨fun j hj => ?_, fun x hout => ?_⟩
      · rcases List.mem_cons.mp hj with rfl | hj
        · refine hadded.congr fun k hk => hsame _ fun other hother => ?_
          exact commandAt_apart (fun h => hnew (h ▸ hother)) hk
        · exact hholds j hj
      · rw [List.foldl_cons, hsame x fun j hj => hout j (List.mem_cons_of_mem i hj)]
        exact hframe x (hout i List.mem_cons_self)

/-- The writes of `shell_init` before the commands. -/
def shellCleared (symbols : ShellSymbols) (mbi : UInt32) (memory : Memory) : Memory :=
  write8 (write32 (write32 memory symbols.shell mbi) symbols.lastCommandAt 0) symbols.readPendingAt 0

theorem shellInit_eq (symbols : ShellSymbols) (mbi : UInt32) (memory : Memory) :
    symbols.shellInit mbi memory
      = (List.finRange commandCount).foldl (fun memory i => symbols.addLiteral i memory)
          (symbols.shellCleared mbi memory) := by
  have hrange : List.finRange commandCount = [0, 1, 2, 3, 4, 5, 6, 7, 8, 9] := by decide
  rw [hrange]
  simp only [List.foldl_cons, List.foldl_nil]
  rw [shellInit, shellCleared]

theorem shellCleared_keepsRest (symbols : ShellSymbols) (mbi : UInt32) (memory : Memory) :
    symbols.KeepsRest memory (symbols.shellCleared mbi memory) := by
  intro x hout
  rw [Outside, shellSize] at hout
  have hlast : 4 ≤ (x - symbols.lastCommandAt).toNat := by
    rw [lastCommandAt, fieldAt, sub_offset_of_le (by omega)]
    omega
  have hpending : x ≠ symbols.readPendingAt := by
    rintro rfl
    rw [readPendingAt, fieldAt, add_sub_self] at hout
    exact absurd hout (by decide)
  rw [shellCleared, write8, Function.update_of_ne hpending, write32, if_neg (Nat.not_lt.mpr hlast),
    write32, if_neg (by omega)]

theorem shellCleared_commands {mbi : UInt32} (hle : 4 ≤ k) (hlt : k < 5164) :
    symbols.shellCleared mbi memory (symbols.fieldAt k) = memory (symbols.fieldAt k) := by
  have hstart : 4 ≤ (symbols.fieldAt k - symbols.shell).toNat := by
    rw [fieldAt, add_sub_self, UInt32.toNat_ofNat_of_lt' (Nat.lt_trans hlt (by decide))]
    exact hle
  have hlast : 4 ≤ (symbols.fieldAt k - symbols.lastCommandAt).toNat := by
    rw [lastCommandAt, fieldAt, fieldAt, offset_sub_toNat _ (by omega) (by omega)]
    omega
  have hpending : symbols.fieldAt k ≠ symbols.readPendingAt :=
    fieldAt_ne (by rw [shellSize]; omega) (by rw [shellSize]; omega) (by omega)
  rw [shellCleared, write8, Function.update_of_ne hpending, write32, if_neg (Nat.not_lt.mpr hlast),
    write32, if_neg (Nat.not_lt.mpr hstart)]

theorem shellCleared_readPending (symbols : ShellSymbols) (mbi : UInt32) (memory : Memory) :
    symbols.shellCleared mbi memory symbols.readPendingAt = 0 := by
  rw [shellCleared, write8, Function.update_self]

theorem shellCleared_lastCommand (symbols : ShellSymbols) (mbi : UInt32) (memory : Memory) :
    read32 (symbols.shellCleared mbi memory) symbols.lastCommandAt = 0 := by
  have hword : read32 (symbols.shellCleared mbi memory) symbols.lastCommandAt
      = read32 (write32 (write32 memory symbols.shell mbi) symbols.lastCommandAt 0)
          symbols.lastCommandAt := by
    apply read32_congr
    intro k hk
    have hne : symbols.lastCommandAt + .ofNat k ≠ symbols.readPendingAt := by
      rw [lastCommandAt, fieldAt_add]
      exact fieldAt_ne (by rw [shellSize]; omega) (by rw [shellSize]; omega) (by omega)
    rw [shellCleared, write8, Function.update_of_ne hne]
  rw [hword, read32_write32]

theorem stored_shellLiteral (i : CommandIndex) :
    stored (shellLiteral i) = Shell.zero.init.commands i := by
  revert i
  decide

/-- From a zeroed record. -/
theorem shellInit_holds {mbi : UInt32} (hliterals : symbols.HoldsLiterals symbols.Outside memory)
    (hzero : ∀ k < shellSize, memory (symbols.fieldAt k) = 0) :
    symbols.HoldsShell (symbols.shellInit mbi memory) Shell.zero.init ∧
      symbols.KeepsRest memory (symbols.shellInit mbi memory) := by
  have hcleared := shellCleared_keepsRest symbols mbi memory
  have hterminated : ∀ i ∈ List.finRange commandCount,
      symbols.Terminated (symbols.shellCleared mbi memory) i := by
    intro i _
    have hi : i.val < 10 := i.isLt
    have hplace : ∀ k < shellCommandSize,
        symbols.shellCleared mbi memory (symbols.commandAt i + .ofNat k) = 0 := by
      intro k hk
      rw [shellCommandSize] at hk
      rw [commandAt, fieldAt_add, shellCommandSize, shellCleared_commands (by omega) (by omega)]
      exact hzero _ (by rw [shellSize]; omega)
    exact ⟨hplace 255 (by decide), hplace 511 (by decide)⟩
  obtain ⟨hholds, hsame⟩ := addLiterals_hold (List.nodup_finRange commandCount)
    (hliterals.congr hcleared) hterminated
  rw [← shellInit_eq] at hholds hsame
  -- The fields behind the commands.
  have hbehind : ∀ k, 5164 ≤ k → k < shellSize → symbols.shellInit mbi memory (symbols.fieldAt k)
      = symbols.shellCleared mbi memory (symbols.fieldAt k) := by
    intro k hle hlt
    refine hsame _ fun i _ => ?_
    have hi : i.val < 10 := i.isLt
    rw [shellSize] at hlt
    rw [commandAt, fieldAt, fieldAt, shellCommandSize, offset_sub_toNat _ (by omega) (by omega)]
    have hahead : 2 ^ 32 + k - (4 + 516 * i.val) = 2 ^ 32 + (k - (4 + 516 * i.val)) := by
      omega
    rw [hahead, Nat.add_mod_left, Nat.mod_eq_of_lt (by omega)]
    omega
  constructor
  · constructor
    case commands =>
      intro i
      rw [← stored_shellLiteral]
      exact hholds i (List.mem_finRange i)
    case lastCommand =>
      have hword : read32 (symbols.shellInit mbi memory) symbols.lastCommandAt
          = read32 (symbols.shellCleared mbi memory) symbols.lastCommandAt := by
        apply read32_congr
        intro k hk
        rw [lastCommandAt, fieldAt_add]
        exact hbehind _ (by omega) (by rw [shellSize]; omega)
      exact hword.trans (shellCleared_lastCommand symbols mbi memory)
    case readPending =>
      have hbyte := hbehind 5168 (by omega) (by rw [shellSize]; omega)
      exact hbyte.trans (shellCleared_readPending symbols mbi memory)
  · intro x hout
    rw [hsame x fun i _ => outside_command hout i, hcleared x hout]

/-! ### `shell_execute` -/

variable {output : CommandOutput} {keyboard : Keyboard} {reaction : Reaction}

/-- A call does to the record what the model says. -/
inductive Follows (symbols : ShellSymbols) (memory : Memory) (reaction : Reaction) :
    Option Memory → Prop
  | returns {memory' : Memory} (hreturns : reaction.returns = true)
      (hholds : symbols.HoldsShell memory' reaction.shell)
      (hkeeps : symbols.KeepsRest memory memory') : Follows symbols memory reaction (some memory')
  | stops (hreturns : reaction.returns = false) : Follows symbols memory reaction none

theorem write_readPending (hholds : symbols.HoldsShell memory shell) (pending : Bool) :
    symbols.HoldsShell (write8 memory symbols.readPendingAt (if pending then 1 else 0))
        { shell with readPending := pending } ∧
      symbols.KeepsRest memory
        (write8 memory symbols.readPendingAt (if pending then 1 else 0)) := by
  have hother : ∀ k < 5168, write8 memory symbols.readPendingAt (if pending then 1 else 0)
      (symbols.fieldAt k) = memory (symbols.fieldAt k) := by
    intro k hk
    apply Function.update_of_ne
    exact fieldAt_ne (by rw [shellSize]; omega) (by rw [shellSize]; omega) (by omega)
  constructor
  · constructor
    case commands => exact hholds.commands_congr fun k hk => hother k (by omega)
    case lastCommand =>
      have hword : read32 (write8 memory symbols.readPendingAt (if pending then 1 else 0))
          symbols.lastCommandAt = read32 memory symbols.lastCommandAt := by
        apply read32_congr
        intro k hk
        rw [lastCommandAt, fieldAt_add]
        exact hother _ (by omega)
      exact hword.trans hholds.lastCommand
    case readPending => exact Function.update_self _ _ _
  · intro x hout
    apply Function.update_of_ne
    rintro rfl
    rw [Outside, readPendingAt, fieldAt, add_sub_self] at hout
    exact absurd hout (by decide)

theorem write_lastCommand (hholds : symbols.HoldsShell memory shell) (i : CommandIndex) :
    symbols.HoldsShell (write32 memory symbols.lastCommandAt (symbols.commandAt i))
        { shell with lastCommand := some i } ∧
      symbols.KeepsRest memory
        (write32 memory symbols.lastCommandAt (symbols.commandAt i)) := by
  have hother : ∀ k < shellSize, k < 5164 ∨ 5168 ≤ k →
      write32 memory symbols.lastCommandAt (symbols.commandAt i) (symbols.fieldAt k)
        = memory (symbols.fieldAt k) := by
    intro k hk hout
    rw [shellSize] at hk
    rw [write32, if_neg]
    rw [lastCommandAt, fieldAt, fieldAt, offset_sub_toNat _ (by omega) (by omega)]
    omega
  constructor
  · constructor
    case commands =>
      exact hholds.commands_congr fun k hk => hother k (by rw [shellSize]; omega) (.inl hk)
    case lastCommand => exact read32_write32
    case readPending => exact (hother 5168 (by decide) (.inr le_rfl)).trans hholds.readPending
  · intro x hout
    rw [Outside, shellSize] at hout
    rw [write32, if_neg]
    rw [lastCommandAt, fieldAt, sub_offset_of_le (by omega)]
    omega

theorem commandAt_ne_zero (symbols : ShellSymbols) (i : CommandIndex) :
    symbols.commandAt i ≠ 0 := by
  have hfits := symbols.shell_fits
  have hi : i.val < 10 := i.isLt
  rw [shellSize] at hfits
  intro hzero
  have haddress : (symbols.commandAt i).toNat
      = symbols.shell.toNat + (4 + shellCommandSize * i.val) := by
    apply address_add_toNat
    rw [shellCommandSize]
    omega
  rw [hzero] at haddress
  change 0 = _ at haddress
  omega

theorem findCommand_eq (hholds : symbols.HoldsShell memory shell)
    (hcommand : HoldsString memory address text) (indices : List CommandIndex) :
    symbols.findCommand memory address indices
      = some (indices.find? fun i => strcmp text (shell.commands i).name = 0) := by
  induction indices with
  | nil => rfl
  | cons i rest ih =>
      rw [findCommand, Memory.strcmp_eq hcommand (hholds.commands i).name, List.find?_cons]
      change (if strcmp text (shell.commands i).name = 0 then some (some i)
        else symbols.findCommand memory address rest) = _
      by_cases hname : strcmp text (shell.commands i).name = 0
      · rw [if_pos hname, decide_eq_true hname]
      · rw [if_neg hname, decide_eq_false hname, ih]

theorem callFunction_follows (hholds : symbols.HoldsShell memory shell) (function : ShellFunction) :
    symbols.Follows memory (.ofFunction output shell keyboard function)
      (symbols.callFunction memory output function) := by
  have hsame : symbols.KeepsRest memory memory := fun _ _ => rfl
  cases function with
  | last => exact .stops rfl
  | halt => exact .stops rfl
  | pmultiboot =>
      rw [callFunction]
      split_ifs with hreturns
      · exact .returns hreturns hholds hsame
      · exact .stops (Bool.eq_false_iff.mpr hreturns)
  | reboot =>
      rw [callFunction]
      split_ifs with hreturns
      · exact .returns hreturns hholds hsame
      · exact .stops (Bool.eq_false_iff.mpr hreturns)
  | read =>
      rw [callFunction]
      cases hpending : shell.readPending with
      | true =>
          have hbyte : memory symbols.readPendingAt = 1 := by
            rw [hholds.readPending, hpending, if_pos rfl]
          have hshell : { shell with readPending := true } = shell := by
            rw [← hpending]
          rw [hbyte, if_pos (by decide)]
          refine .returns rfl ?_ hsame
          change symbols.HoldsShell memory { shell with readPending := true }
          rwa [hshell]
      | false =>
          have hbyte : memory symbols.readPendingAt = 0 := by
            rw [hholds.readPending, hpending, if_neg Bool.false_ne_true]
          obtain ⟨hset, hkeeps⟩ := write_readPending hholds true
          rw [hbyte, if_neg (not_not.mpr rfl)]
          exact .returns rfl hset hkeeps
  | _ => exact .returns rfl hholds hsame

theorem call_follows (hholds : symbols.HoldsShell memory shell) (function : ShellFunction) :
    symbols.Follows memory (.ofCall output shell keyboard function)
      (symbols.call memory output (symbols.pointer function)) := by
  rw [call, symbols.functionOf_pointer, Option.bind_some, Reaction.ofCall]
  by_cases hlast : function = .last
  · rw [if_pos hlast, if_pos hlast, last, hholds.lastCommand]
    cases shell.lastCommand with
    | none => exact .returns rfl hholds fun _ _ => rfl
    | some i =>
        have hpointer : read32 memory (symbols.commandAt i + 512)
            = symbols.pointer (shell.commands i).function := by
          have hfunction := (hholds.commands i).function
          rwa [functionAt_eq] at hfunction
        rw [lastPointer]
        dsimp only
        rw [if_pos (commandAt_ne_zero symbols i), hpointer, symbols.functionOf_pointer,
          Option.bind_some]
        exact callFunction_follows hholds _
  · rw [if_neg hlast, if_neg hlast]
    exact callFunction_follows hholds function

theorem shellExecute_follows (hholds : symbols.HoldsShell memory shell)
    (hcommand : HoldsStringIn symbols.Outside memory address text)
    (hlast : HoldsStringIn symbols.Outside memory symbols.lastLiteral (str "last")) :
    symbols.Follows memory (.ofLine output shell keyboard text)
      (symbols.shellExecute output address memory) := by
  rw [shellExecute, Reaction.ofLine]
  cases hpending : shell.readPending with
  | true =>
      have hbyte : memory symbols.readPendingAt = 1 := by
        rw [hholds.readPending, hpending, if_pos rfl]
      have hset : (1 : UInt8) ≠ 0 := by decide
      obtain ⟨hcleared, hkeeps⟩ := write_readPending hholds false
      rw [hbyte, if_pos rfl, if_pos hset]
      exact .returns rfl hcleared hkeeps
  | false =>
      have hbyte : memory symbols.readPendingAt = 0 := by
        rw [hholds.readPending, hpending, if_neg Bool.false_ne_true]
      have hfound := findCommand_eq hholds hcommand.holds (List.finRange commandCount)
      rw [← Shell.findCommand] at hfound
      rw [hbyte, if_neg Bool.false_ne_true, if_neg (not_not.mpr rfl), hfound, Option.bind_some]
      cases hfind : shell.findCommand text with
      | none => exact .returns rfl hholds fun _ _ => rfl
      | some i =>
          dsimp only
          rw [(hholds.commands i).function]
          have hcalled : symbols.Follows memory
              (.ofCall output shell keyboard (shell.commands i).function) _ :=
            call_follows hholds (shell.commands i).function
          rw [Reaction.ofCommand]
          cases hcall : symbols.call memory output (symbols.pointer (shell.commands i).function) with
          | none =>
              rw [hcall] at hcalled
              cases hcalled with
              | stops hreturns =>
                  rw [if_neg (Bool.eq_false_iff.mp hreturns)]
                  exact .stops hreturns
          | some memory' =>
              rw [hcall] at hcalled
              cases hcalled with
              | returns hreturns hholds' hkeeps =>
                  have hcompared := Memory.strcmp_eq (hcommand.congr hkeeps).holds
                    (hlast.congr hkeeps).holds
                  rw [if_pos hreturns]
                  dsimp only [Option.bind_eq_bind, Option.bind_some]
                  rw [hcompared, Option.bind_some]
                  by_cases hnamed : strcmp text (str "last") ≠ 0
                  · obtain ⟨hstored, hwrite⟩ := write_lastCommand hholds' i
                    rw [if_pos hnamed, if_pos hnamed]
                    exact .returns hreturns hstored fun x hout => (hwrite x hout).trans (hkeeps x hout)
                  · rw [if_neg hnamed, if_neg hnamed]
                    exact .returns hreturns hholds' hkeeps

/-! ### Runs from the entry of the kernel -/

/-- A call of `shell_execute`, with what the rest of the kernel did since the call before. -/
structure ShellCall where
  output : CommandOutput
  between : Kernel → Kernel
  write : Memory → Memory
  command : UInt32
  text : List UInt8

def ShellCall.run (call : ShellCall) (k : Kernel) : Except Kernel Kernel :=
  ((call.between k).shellExecute call.output call.text).map Prod.fst

/-- The same call on the bytes. -/
def runCall (symbols : ShellSymbols) (call : ShellCall) (memory : Memory) : Option Memory :=
  symbols.shellExecute call.output call.command (call.write memory)

/-- The rest of the kernel leaves `shell` and the literals alone and puts the line into memory. -/
structure Proper (symbols : ShellSymbols) (call : ShellCall) : Prop where
  shell : ∀ k, (call.between k).shell = k.shell
  keeps : ∀ memory, ∀ k < shellSize,
    call.write memory (symbols.fieldAt k) = memory (symbols.fieldAt k)
  literals : ∀ memory x, symbols.LiteralByte x → call.write memory x = memory x
  command : ∀ memory, HoldsStringIn symbols.Outside (call.write memory) call.command call.text

/-- The static `shell` lies in `.bss`. -/
def Placed (symbols : ShellSymbols) (sections : Sections) : Prop :=
  sections.bssStart.toNat ≤ symbols.shell.toNat ∧
    symbols.shell.toNat + shellSize ≤ sections.bssEnd.toNat

/-- The bytes of the kernel stand for the state of the model, as far as `shell.c` goes. -/
structure Represents (symbols : ShellSymbols) (sections : Sections) (memory : Memory)
    (kernel : Kernel) : Prop where
  shell : symbols.HoldsShell memory kernel.shell
  literals : symbols.HoldsLiterals (fun x => x.toNat < sections.bssStart.toNat) memory

/-- Both levels return, or neither does. -/
inductive Agrees (symbols : ShellSymbols) (sections : Sections) :
    Except Kernel Kernel → Option Memory → Prop
  | returns {memory : Memory} {kernel : Kernel} (h : symbols.Represents sections memory kernel) :
      Agrees symbols sections (.ok kernel) (some memory)
  | stops {kernel : Kernel} : Agrees symbols sections (.error kernel) none

variable {sections : Sections} {calls : List ShellCall} {call : ShellCall} {kernel : Kernel}

theorem Placed.outside (hplaced : symbols.Placed sections)
    (hbelow : x.toNat < sections.bssStart.toNat) : symbols.Outside x := by
  obtain ⟨hstart, hend⟩ := hplaced
  have hfits := symbols.shell_fits
  have hx := x.toNat_lt
  rw [Outside, UInt32.toNat_sub]
  omega

theorem runCall_agrees (hplaced : symbols.Placed sections) (hproper : symbols.Proper call)
    (h : symbols.Represents sections memory kernel) :
    symbols.Agrees sections (call.run kernel) (symbols.runCall call memory) := by
  have hshell := hproper.shell kernel
  have hbelow : ∀ x : UInt32, x.toNat < sections.bssStart.toNat → symbols.Outside x :=
    fun x hx => hplaced.outside hx
  have hholds : symbols.HoldsShell (call.write memory) (call.between kernel).shell := by
    rw [hshell]
    exact h.shell.congr (hproper.keeps memory)
  have hliterals := h.literals.of_bytes (hproper.literals memory)
  have hfollows := @shellExecute_follows symbols (call.write memory) _ _ _ call.output
    (call.between kernel).keyboard hholds (hproper.command memory) (hliterals.last.mono hbelow)
  rw [ShellCall.run, Reaction.shellExecute_eq, runCall]
  cases hcall : symbols.shellExecute call.output call.command (call.write memory) with
  | none =>
      rw [hcall] at hfollows
      cases hfollows with
      | stops hreturns =>
          rw [Reaction.perform_error hreturns]
          exact .stops
  | some memory' =>
      rw [hcall] at hfollows
      cases hfollows with
      | returns hreturns hheld hkeeps =>
          rw [Reaction.perform_ok hreturns]
          exact .returns ⟨hheld, hliterals.congr fun x hx => hkeeps x (hbelow x hx)⟩

theorem runCalls_agree (hplaced : symbols.Placed sections)
    (hproper : ∀ call ∈ calls, symbols.Proper call)
    (h : symbols.Represents sections memory kernel) :
    symbols.Agrees sections (calls.foldlM (fun kernel call => call.run kernel) kernel)
      (calls.foldlM (fun memory call => symbols.runCall call memory) memory) := by
  induction calls generalizing memory kernel with
  | nil => exact .returns h
  | cons call rest ih =>
      have hstep := runCall_agrees hplaced (hproper call List.mem_cons_self) h
      rw [List.foldlM_cons, List.foldlM_cons]
      cases hrun : call.run kernel with
      | error stopped =>
          rw [hrun] at hstep
          cases hcall : symbols.runCall call memory with
          | none => exact .stops
          | some memory' =>
              rw [hcall] at hstep
              cases hstep
      | ok kernel' =>
          rw [hrun] at hstep
          cases hcall : symbols.runCall call memory with
          | none =>
              rw [hcall] at hstep
              cases hstep
          | some memory' =>
              rw [hcall] at hstep
              cases hstep with
              | returns h' =>
                  exact ih (fun call hcall => hproper call (List.mem_cons_of_mem _ hcall)) h'

/-- From every state of the machine at the entry of the kernel in which the literals are in memory, and
for every sequence of lines: after each call the bytes of `shell` are those of the model's shell, and a
call returns in one exactly when it does in the other. -/
theorem shell_in_memory (hplaced : symbols.Placed sections) {cpu : Cpu}
    (hliterals : symbols.HoldsLiterals (fun x => x.toNat < sections.bssStart.toNat) cpu.memory)
    (hproper : ∀ call ∈ calls, symbols.Proper call)
    (kernelMain returnAddress mbi : UInt32) (vga : Vga) :
    symbols.Agrees sections (calls.foldlM (fun kernel call => call.run kernel) (.boot vga))
      (calls.foldlM (fun memory call => symbols.runCall call memory)
        (symbols.shellInit mbi (kernelEntry sections kernelMain returnAddress cpu).memory)) := by
  have hbooted := kernelEntry_booted sections kernelMain returnAddress cpu
  have hle := sections.bssStart_le
  have hbottom := sections.stackBottom_eq
  have hstack := sections.stackTop_eq
  have hend := sections.bssEnd.toNat_lt
  have hentered := hliterals.congr fun x hx => hbooted.outside x (.inl hx) (.inl (by omega))
  have hzero : ∀ k < shellSize,
      (kernelEntry sections kernelMain returnAddress cpu).memory (symbols.fieldAt k) = 0 := by
    intro k hk
    have hplace : (symbols.fieldAt k).toNat = symbols.shell.toNat + k := by
      apply address_add_toNat
      have hfits := symbols.shell_fits
      omega
    obtain ⟨hstart, hfits⟩ := hplaced
    exact hbooted.bss _ (by omega) (by omega)
  have hbelow : ∀ x : UInt32, x.toNat < sections.bssStart.toNat → symbols.Outside x :=
    fun x hx => hplaced.outside hx
  obtain ⟨hholds, hkeeps⟩ := @shellInit_holds symbols _ mbi (hentered.mono hbelow) hzero
  exact runCalls_agree hplaced hproper ⟨hholds, hentered.congr fun x hx => hkeeps x (hbelow x hx)⟩

/-- The literals as the image has them, in slots of 64 bytes from `0x100000` on. -/
def literalTexts : List (List UInt8) :=
  (List.finRange commandCount).flatMap
    (fun i => [(shellLiteral i).name, (shellLiteral i).description]) ++ [str "last"]

def imageMemory : Memory := fun x =>
  (literalTexts.getD ((x - 0x100000).toNat / 64) []).getD ((x - 0x100000).toNat % 64) 0

def slot (n : Nat) : UInt32 := 0x100000 + .ofNat (64 * n)

theorem imageMemory_holds {n : Nat} (hn : n < 21) :
    HoldsStringIn (fun x => x.toNat < 0x110000) imageMemory (slot n) (literalTexts.getD n []) := by
  have htexts : ∀ n < 21, 0 ∉ literalTexts.getD n [] ∧ (literalTexts.getD n []).length < 64 := by
    decide
  obtain ⟨hnoNul, hlength⟩ := htexts n hn
  have hstart : (0x100000 : UInt32).toNat = 0x100000 := rfl
  have hplace : ∀ k < 64, slot n + .ofNat k = 0x100000 + .ofNat (64 * n + k) := by
    intro k _
    rw [slot, UInt32.ofNat_add, UInt32.add_assoc]
  constructor
  · rw [holdsString_iff, cString_of_notMem hnoNul]
    intro k hk
    have hoffset : (UInt32.ofNat (64 * n + k)).toNat = 64 * n + k :=
      UInt32.toNat_ofNat_of_lt' (by simp only [UInt32.size]; omega)
    rw [hplace k (by omega), imageMemory, add_sub_self, hoffset]
    congr 2 <;> omega
  · rw [cString_of_notMem hnoNul]
    intro k hk
    rw [hplace k (by omega), address_add_toNat (by omega)]
    omega

/-- `shell` at the start of `.bss`. -/
def sampleSymbols : ShellSymbols where
  shell := 0x110000
  nameLiteral i := slot (2 * i)
  descriptionLiteral i := slot (2 * i + 1)
  lastLiteral := slot 20
  pointer
    | .help => 0x101000
    | .clear => 0x101100
    | .last => 0x101200
    | .pmultiboot => 0x101300
    | .pstack => 0x101400
    | .reboot => 0x101500
    | .halt => 0x101600
    | .read => 0x101700
    | .azerty => 0x101800
    | .qwerty => 0x101900
  functionOf pointer :=
    if pointer = 0x101000 then some .help
    else if pointer = 0x101100 then some .clear
    else if pointer = 0x101200 then some .last
    else if pointer = 0x101300 then some .pmultiboot
    else if pointer = 0x101400 then some .pstack
    else if pointer = 0x101500 then some .reboot
    else if pointer = 0x101600 then some .halt
    else if pointer = 0x101700 then some .read
    else if pointer = 0x101800 then some .azerty
    else if pointer = 0x101900 then some .qwerty
    else none
  functionOf_pointer function := by cases function <;> rfl
  shell_fits := by decide

/-- A line in a buffer behind the statics. -/
def sampleCall (text : List UInt8) : ShellCall where
  output := ⟨[], [], true, true⟩
  between := id
  write memory := place memory 0x119000 (text ++ [0])
  command := 0x119000
  text := text

theorem literalByte_below (hbyte : sampleSymbols.LiteralByte x) : x.toNat < 0x110000 := by
  have hshort : ∀ i, (shellLiteral i).name.length < 64 ∧ (shellLiteral i).description.length < 64 := by
    decide
  have hstart : (0x100000 : UInt32).toNat = 0x100000 := rfl
  have hslot : ∀ n k : Nat, n < 21 → k < 64 → (slot n + .ofNat k).toNat < 0x110000 := by
    intro n k hn hk
    rw [slot, UInt32.add_assoc, ← UInt32.ofNat_add, address_add_toNat (by omega)]
    omega
  cases hbyte with
  | name i hk =>
      have hi : i.val < 10 := i.isLt
      exact hslot (2 * i) _ (by omega) (hk.trans_lt (hshort i).1)
  | description i hk =>
      have hi : i.val < 10 := i.isLt
      exact hslot (2 * i + 1) _ (by omega) (hk.trans_lt (hshort i).2)
  | last hk => exact hslot 20 _ (by omega) (hk.trans_lt (by decide))

theorem sampleCall_proper {text : List UInt8} (hnoNul : 0 ∉ text) (hlength : text.length < 256) :
    sampleSymbols.Proper (sampleCall text) := by
  have hbuffer : (0x119000 : UInt32).toNat = 0x119000 := rfl
  have hbss : sampleSections.bssStart.toNat = 0x110000 := rfl
  have hwritten : (text ++ [0]).length = text.length + 1 := List.length_append
  have houtside : ∀ (memory : Memory) (x : UInt32), x.toNat < 0x119000 →
      place memory 0x119000 (text ++ [0]) x = memory x :=
    fun memory x hx => place_outside (by omega) (.inl (by omega))
  constructor
  case shell => exact fun k => rfl
  case keeps =>
    intro memory k hk
    have hfield : (sampleSymbols.fieldAt k).toNat = 0x110000 + k := by
      rw [shellSize] at hk
      exact address_add_toNat (show 0x110000 + k < 2 ^ 32 by omega)
    rw [shellSize] at hk
    exact houtside memory _ (by omega)
  case literals =>
    intro memory x hbyte
    have hbelow := literalByte_below hbyte
    exact houtside memory x (by omega)
  case command =>
    intro memory
    change HoldsStringIn sampleSymbols.Outside (place memory 0x119000 (text ++ [0])) 0x119000 text
    constructor
    · rw [holdsString_iff, cString_of_notMem hnoNul]
      intro k hk
      rw [place_inside (by omega) (by omega)]
      rcases Nat.lt_or_eq_of_le hk with hlt | rfl
      · rw [List.getD_append _ _ _ _ hlt]
      · rw [List.getD_append_right _ _ _ _ le_rfl, Nat.sub_self, List.getD_eq_default _ _ le_rfl]
        rfl
    · rw [cString_of_notMem hnoNul]
      intro k hk
      have hshell : sampleSymbols.shell.toNat = 0x110000 := rfl
      have hplace : ((0x119000 : UInt32) + .ofNat k).toNat = 0x119000 + k :=
        address_add_toNat (by omega)
      change shellSize ≤ (0x119000 + .ofNat k - sampleSymbols.shell).toNat
      rw [UInt32.toNat_sub, hplace, hshell, shellSize]
      omega

/-- The registers as the boot loader leaves them. -/
def loadedCpu : Cpu :=
  ⟨0x2BADB002, 0, 0, 0x9500, 0x7000, 0, 0, 0, 0x100010, 2, 0x10, imageMemory⟩

/-- A command, a line for the read it starts, and `halt`, which does not return. -/
theorem shell_in_memory_read :
    sampleSymbols.Agrees sampleSections
      ([sampleCall (str "read"), sampleCall (str "hello"), sampleCall (str "halt")].foldlM
        (fun kernel call => call.run kernel)
        (.boot ⟨fun _ => 0, 0, fun _ => 0, fun _ => 0⟩))
      ([sampleCall (str "read"), sampleCall (str "hello"), sampleCall (str "halt")].foldlM
        (fun memory call => sampleSymbols.runCall call memory)
        (sampleSymbols.shellInit 0x9500
          (kernelEntry sampleSections 0x101A00 0x10100B loadedCpu).memory)) := by
  have hplaced : sampleSymbols.Placed sampleSections := ⟨by decide, by decide⟩
  have hliterals : sampleSymbols.HoldsLiterals
      (fun x => x.toNat < sampleSections.bssStart.toNat) loadedCpu.memory := by
    constructor
    case name =>
      intro i
      have hi : i.val < 10 := i.isLt
      have htext : literalTexts.getD (2 * i) [] = (shellLiteral i).name := by
        revert i
        decide
      exact htext ▸ imageMemory_holds (show 2 * i.val < 21 by omega)
    case description =>
      intro i
      have hi : i.val < 10 := i.isLt
      have htext : literalTexts.getD (2 * i + 1) [] = (shellLiteral i).description := by
        revert i
        decide
      exact htext ▸ imageMemory_holds (show 2 * i.val + 1 < 21 by omega)
    case last => exact imageMemory_holds (show 20 < 21 by omega)
  have hproper : ∀ call ∈ [sampleCall (str "read"), sampleCall (str "hello"), sampleCall (str "halt")],
      sampleSymbols.Proper call := by
    intro call hcall
    simp only [List.mem_cons, List.not_mem_nil, or_false] at hcall
    rcases hcall with rfl | rfl | rfl <;> exact sampleCall_proper (by decide) (by decide)
  exact shell_in_memory hplaced hliterals hproper 0x101A00 0x10100B 0x9500 _

end ShellSymbols

end KernelFromScratch
