import Mathlib.Data.List.FinRange
import Mathlib.Logic.Function.Basic

/-!
# The 8259A interrupt controller

One controller with its initialization sequence, and two of them in cascade: the output of the slave
is wired to an input of the master. Line 0 has the highest priority. An in-service line blocks the
lines of equal and lower priority until an end of interrupt.
-/

namespace KernelFromScratch

abbrev Lines := Fin 8 → Bool

namespace Lines

def empty : Lines := fun _ => false

/-- The lines of a byte, bit by bit. -/
def ofByte (byte : UInt8) : Lines := fun line => byte.toNat.testBit line

def set (lines : Lines) (line : Fin 8) : Lines := Function.update lines line true

def clear (lines : Lines) (line : Fin 8) : Lines := Function.update lines line false

/-- The line of the highest priority. -/
def highest (lines : Lines) : Option (Fin 8) := (List.finRange 8).find? lines

/-- A line in service blocks this one. -/
def Blocks (inService : Lines) (line : Fin 8) : Prop := ∃ other ≤ line, inService other = true

instance (inService : Lines) (line : Fin 8) : Decidable (inService.Blocks line) :=
  inferInstanceAs (Decidable (∃ other ≤ line, inService other = true))

/-- A non-specific end of interrupt. -/
def endOfInterrupt (inService : Lines) : Lines :=
  match inService.highest with
  | some line => inService.clear line
  | none => inService

@[simp] theorem highest_empty : empty.highest = none := by decide

theorem not_blocks_empty (line : Fin 8) : ¬empty.Blocks line := by
  rintro ⟨other, -, hother⟩
  cases hother

@[simp] theorem endOfInterrupt_empty : empty.endOfInterrupt = empty := by
  rw [endOfInterrupt, highest_empty]

theorem highest_set_empty (line : Fin 8) : (empty.set line).highest = some line := by
  revert line
  decide

@[simp] theorem endOfInterrupt_set_empty (line : Fin 8) :
    (empty.set line).endOfInterrupt = empty := by
  rw [endOfInterrupt, highest_set_empty]
  change Function.update (Function.update empty line true) line false = empty
  rw [Function.update_idem]
  exact Function.update_eq_self line empty

/-- The first line that is set has the highest priority. -/
theorem highest_eq_some {lines : Lines} {line : Fin 8} (hline : lines line = true)
    (hbefore : ∀ other < line, lines other = false) : lines.highest = some line := by
  have hsplit : ∀ line : Fin 8,
      List.finRange 8 = (List.finRange 8).take line ++ line :: (List.finRange 8).drop (line + 1)
        ∧ ∀ other ∈ (List.finRange 8).take line, other < line := by
    decide
  obtain ⟨hlist, hless⟩ := hsplit line
  refine List.find?_eq_some_iff_append.mpr ⟨hline, _, _, hlist, fun other hother => ?_⟩
  rw [hbefore other (hless other hother)]
  rfl

theorem highest_eq_none {lines : Lines} (hlines : ∀ line, lines line = false) :
    lines.highest = none := by
  rw [highest, List.find?_eq_none]
  intro line _
  rw [hlines line]
  exact Bool.false_ne_true

end Lines

/-- What the next write to the data port is. -/
inductive PicPhase where
  | icw2
  | icw3
  | icw4
  | mask
  deriving DecidableEq

structure Pic where
  phase : PicPhase
  /-- ICW1: no other controller is wired to this one. -/
  single : Bool
  /-- ICW1: an ICW4 follows. -/
  expectsIcw4 : Bool
  /-- ICW2: the vector of line 0. -/
  offset : UInt8
  /-- ICW3: on a master the inputs that slaves are wired to, on a slave its identity. -/
  cascade : UInt8
  /-- ICW4. -/
  mode : UInt8
  masked : Lines
  requests : Lines
  inService : Lines

namespace Pic

variable (pic : Pic)

/-- Bit 4 starts an initialization, which masks no line, forgets the requests and the lines in
service, and sets the identity to 7. Otherwise bit 5 alone is the non-specific end of interrupt; the
other commands are not modelled. -/
def writeCommand (value : UInt8) : Pic :=
  if value &&& 0x10 ≠ 0 then
    { phase := .icw2
      single := value &&& 0x02 ≠ 0
      expectsIcw4 := value &&& 0x01 ≠ 0
      offset := 0
      cascade := 7
      mode := 0
      masked := .empty
      requests := .empty
      inService := .empty }
  else if value = 0x20 then
    { pic with inService := pic.inService.endOfInterrupt }
  else
    pic

/-- The phase after ICW3. -/
def lastPhase : PicPhase := if pic.expectsIcw4 then .icw4 else .mask

def writeData (value : UInt8) : Pic :=
  match pic.phase with
  | .icw2 =>
    { pic with
      offset := value &&& 0xf8
      phase := if pic.single then pic.lastPhase else .icw3 }
  | .icw3 => { pic with cascade := value, phase := pic.lastPhase }
  | .icw4 => { pic with mode := value, phase := .mask }
  | .mask => { pic with masked := .ofByte value }

/-- The line that asks for an interrupt with these requests: the highest one that is not masked,
unless a line in service blocks it. -/
def asking (requests : Lines) : Option (Fin 8) :=
  (Lines.highest fun line => requests line && !pic.masked line).filter
    fun line => !decide (pic.inService.Blocks line)

/-- With no line in service, nothing is blocked. -/
theorem asking_of_idle {pic : Pic} (hidle : pic.inService = .empty) (requests : Lines) :
    pic.asking requests = Lines.highest fun line => requests line && !pic.masked line := by
  rw [asking, hidle]
  cases Lines.highest fun line => requests line && !pic.masked line with
  | none => rfl
  | some line =>
      rw [Option.filter_some, decide_eq_false (Lines.not_blocks_empty line)]
      rfl

/-- The line goes into service. -/
def serve (line : Fin 8) : Pic := { pic with inService := pic.inService.set line }

/-- The line goes into service and its request is over. -/
def accept (line : Fin 8) : Pic :=
  { pic.serve line with requests := pic.requests.clear line }

def vectorOf (line : Fin 8) : UInt8 := pic.offset + .ofNat line

/-- The three bits of a slave's identity. -/
def identity : UInt8 := pic.cascade &&& 0x07

end Pic

/-- Two controllers, the output of the slave wired to input 2 of the master. -/
structure PicPair where
  master : Pic
  slave : Pic

namespace PicPair

variable (pair : PicPair)

def slaveInput : Fin 8 := 2

/-- A device raises one of the 16 lines. Line 2 is taken by the slave. -/
def raise (irq : Fin 16) : PicPair :=
  if hslave : 8 ≤ irq.val then
    let line : Fin 8 := ⟨irq - 8, by omega⟩
    { pair with slave := { pair.slave with requests := pair.slave.requests.set line } }
  else if irq.val = 2 then
    pair
  else
    let line : Fin 8 := ⟨irq, by omega⟩
    { pair with master := { pair.master with requests := pair.master.requests.set line } }

/-- The requests at the inputs of the master. -/
def masterRequests : Lines :=
  Function.update pair.master.requests slaveInput (pair.slave.asking pair.slave.requests).isSome

/-- An acknowledge cycle: the vector on the bus, and the controllers after it. `none` when no line
asks for an interrupt; no vector when no controller drives the bus, which is when the identity of
the slave is not the number of the input it is wired to. -/
def acknowledge : Option (Option UInt8 × PicPair) :=
  match pair.master.asking pair.masterRequests with
  | none => none
  | some line =>
    if line = slaveInput && Lines.ofByte pair.master.cascade slaveInput then
      let master := pair.master.serve slaveInput
      match pair.slave.asking pair.slave.requests with
      | some slaveLine =>
        if pair.slave.identity.toNat = slaveInput then
          some (some (pair.slave.vectorOf slaveLine), ⟨master, pair.slave.accept slaveLine⟩)
        else
          some (none, ⟨master, pair.slave⟩)
      | none => some (none, ⟨master, pair.slave⟩)
    else
      some (some (pair.master.vectorOf line), ⟨pair.master.accept line, pair.slave⟩)

end PicPair

end KernelFromScratch
