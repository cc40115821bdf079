import KernelFromScratch.Pic
import Mathlib.Logic.Relation

/-!
# Acknowledging interrupts

Dispatches of `interrupt_dispatch`, one inside the other: an interrupt line is accepted when none is
in progress, an exception at any time. The lines in service are always those of the interrupt in
progress, so that none stays blocked.
-/

namespace KernelFromScratch

/-- Why a dispatch was entered. A spurious interrupt has a vector and no request of its own. -/
inductive Source where
  | irq (line : Fin 16)
  | spurious7
  | spurious15
  | exception (vector : Fin 32)
  deriving DecidableEq

namespace Source

/-- IRQ `n` is delivered at vector `0x20 + n`. -/
def vector : Source → UInt32
  | irq line => picOffset + .ofNat line
  | spurious7 => picOffset + 7
  | spurious15 => picOffset + 15
  | exception vector => .ofNat vector

def isException : Source → Bool
  | exception _ => true
  | _ => false

/-- The line of the master that goes into service. -/
def masterLine : Source → Option (Fin 8)
  | irq line => if h : line.val < 8 then some ⟨line, h⟩ else some PicPair.slaveInput
  | spurious15 => some PicPair.slaveInput
  | _ => none

/-- The line of the slave that goes into service. -/
def slaveLine : Source → Option (Fin 8)
  | irq line => if h : line.val < 8 then none else some ⟨line - 8, by omega⟩
  | _ => none

end Source

/-- The line goes into service, if there is one. -/
def Pic.serveAny (pic : Pic) (line : Option (Fin 8)) : Pic := (line.map pic.serve).getD pic

/-- A line that is in service blocks none of these. -/
def Pic.Free (pic : Pic) (line : Option (Fin 8)) : Prop :=
  ∀ l, line = some l → ¬pic.inService.Blocks l

/-- A dispatch in progress, and the handler it calls, if one is registered. -/
structure Dispatch (α : Type) where
  source : Source
  handler : Option α

/-- The controllers, the registered handlers, and the dispatches in progress, the innermost one
first. -/
structure Dispatching (α : Type) where
  pics : PicPair
  handlers : UInt8 → Option α
  stack : List (Dispatch α)

namespace Dispatching

variable {α : Type}

/-- After `remap_pic`, before the first interrupt. -/
def start (pair : PicPair) : Dispatching α := ⟨remapPic pair, fun _ => none, []⟩

/-- `interrupt_register`. -/
def register (vector : UInt8) (handler : α) (s : Dispatching α) : Dispatching α :=
  { s with handlers := Function.update s.handlers vector (some handler) }

/-- The controllers accept the interrupt and the CPU enters its dispatch. -/
def enter (source : Source) (s : Dispatching α) : Dispatching α where
  pics := ⟨s.pics.master.serveAny source.masterLine, s.pics.slave.serveAny source.slaveLine⟩
  handlers := s.handlers
  stack := ⟨source, s.handlers source.vector.toUInt8⟩ :: s.stack

/-- The innermost dispatch acknowledges and returns. -/
def leave (dispatch : Dispatch α) (rest : List (Dispatch α)) (s : Dispatching α) : Dispatching α :=
  { s with pics := s.pics.outbs (acknowledgeWrites dispatch.source.vector), stack := rest }

/-- Interrupts are disabled until the outermost dispatch returns; exceptions are not. -/
inductive Step : Dispatching α → Dispatching α → Prop
  | register {s : Dispatching α} (vector : UInt8) (handler : α) : Step s (s.register vector handler)
  | interrupt {s : Dispatching α} {source : Source} (hsource : source.isException = false)
      (henabled : s.stack = []) (hmaster : s.pics.master.Free source.masterLine)
      (hslave : s.pics.slave.Free source.slaveLine) : Step s (s.enter source)
  | exception {s : Dispatching α} (vector : Fin 32) : Step s (s.enter (.exception vector))
  | leave {s : Dispatching α} {dispatch : Dispatch α} {rest : List (Dispatch α)}
      (hstack : s.stack = dispatch :: rest) : Step s (s.leave dispatch rest)

/-- A state of some run, whatever the controllers were before `remap_pic`. -/
def Reachable (s : Dispatching α) : Prop :=
  ∃ pair, Relation.ReflTransGen Step (start pair) s

/-- The sources of the interrupts in progress, without the exceptions. -/
def inProgress (s : Dispatching α) : List Source :=
  (s.stack.map Dispatch.source).filter fun source => !source.isException

/-- The lines in service are those of the interrupt in progress. -/
inductive Serves (master slave : Lines) : List Source → Prop
  | idle (hmaster : master = .empty) (hslave : slave = .empty) : Serves master slave []
  | one {source : Source}
      (hmaster : master = (source.masterLine.map Lines.empty.set).getD .empty)
      (hslave : slave = (source.slaveLine.map Lines.empty.set).getD .empty) :
      Serves master slave [source]

def Settled (s : Dispatching α) : Prop :=
  Serves s.pics.master.inService s.pics.slave.inService s.inProgress

variable {s s' : Dispatching α}

theorem inProgress_enter (source : Source) (s : Dispatching α) :
    (s.enter source).inProgress
      = if source.isException then s.inProgress else source :: s.inProgress := by
  rw [inProgress, enter, List.map_cons, List.filter_cons]
  cases source.isException <;> rfl

theorem inProgress_leave {dispatch : Dispatch α} {rest : List (Dispatch α)}
    (hstack : s.stack = dispatch :: rest) :
    s.inProgress = if dispatch.source.isException then (s.leave dispatch rest).inProgress
      else dispatch.source :: (s.leave dispatch rest).inProgress := by
  rw [inProgress, hstack, List.map_cons, List.filter_cons]
  cases dispatch.source.isException <;> rfl

section Writes

/-- An exception is not acknowledged. -/
theorem acknowledgeWrites_exception {source : Source} (hexception : source.isException = true) :
    acknowledgeWrites source.vector = [] := by
  cases source with
  | exception vector =>
      revert vector
      decide
  | irq line => cases hexception
  | spurious7 => cases hexception
  | spurious15 => cases hexception

/-- An interrupt is acknowledged to the master, and before that to the slave if it has a line in
service. -/
theorem acknowledgeWrites_interrupt {source : Source} (hsource : source.isException = false) :
    acknowledgeWrites source.vector = [(picMasterCommand, picEoi)] ∧ source.slaveLine = none
      ∨ acknowledgeWrites source.vector
        = [(picSlaveCommand, picEoi), (picMasterCommand, picEoi)] := by
  cases source with
  | irq line =>
      revert line
      decide
  | spurious7 => exact .inl ⟨rfl, rfl⟩
  | spurious15 => exact .inr rfl
  | exception vector => cases hsource

theorem outbs_master (pair : PicPair) :
    pair.outbs [(picMasterCommand, picEoi)]
      = { pair with
          master := { pair.master with inService := pair.master.inService.endOfInterrupt } } := rfl

theorem outbs_both (pair : PicPair) :
    pair.outbs [(picSlaveCommand, picEoi), (picMasterCommand, picEoi)]
      = ⟨{ pair.master with inService := pair.master.inService.endOfInterrupt },
          { pair.slave with inService := pair.slave.inService.endOfInterrupt }⟩ := rfl

/-- The acknowledgements of an interrupt end its service, and that of no other. -/
theorem acknowledged {source : Source} (hsource : source.isException = false) {pair : PicPair}
    (hserves : Serves pair.master.inService pair.slave.inService [source]) :
    (pair.outbs (acknowledgeWrites source.vector)).master.inService = .empty
      ∧ (pair.outbs (acknowledgeWrites source.vector)).slave.inService = .empty := by
  have hended : ∀ line : Option (Fin 8),
      ((line.map Lines.empty.set).getD .empty).endOfInterrupt = .empty := by
    intro line
    cases line with
    | none => exact Lines.endOfInterrupt_empty
    | some line => exact Lines.endOfInterrupt_set_empty line
  cases hserves with
  | one hmaster hslave =>
      rcases acknowledgeWrites_interrupt hsource with ⟨hwrites, hnone⟩ | hwrites
      · rw [hwrites, outbs_master, hmaster, hslave, hnone]
        exact ⟨hended _, rfl⟩
      · rw [hwrites, outbs_both, hmaster, hslave]
        exact ⟨hended _, hended _⟩

end Writes

theorem serveAny_inService {pic : Pic} (hempty : pic.inService = .empty)
    (line : Option (Fin 8)) :
    (pic.serveAny line).inService = (line.map Lines.empty.set).getD .empty := by
  cases line with
  | none => exact hempty
  | some line => exact congrArg (fun lines => Lines.set lines line) hempty

/-- With no dispatch in progress, the interrupt that is accepted is the only one in service. -/
theorem Settled.interrupt {source : Source} (hsettled : s.Settled)
    (hsource : source.isException = false) (henabled : s.stack = []) :
    (s.enter source).Settled := by
  have hnone : s.inProgress = [] := by rw [inProgress, henabled]; rfl
  rw [Settled, hnone] at hsettled
  rw [Settled, inProgress_enter, hsource, hnone]
  cases hsettled with
  | idle hmaster hslave =>
      exact .one (serveAny_inService hmaster _) (serveAny_inService hslave _)

theorem Settled.leave {dispatch : Dispatch α} {rest : List (Dispatch α)} (hsettled : s.Settled)
    (hstack : s.stack = dispatch :: rest) : (s.leave dispatch rest).Settled := by
  rw [Settled, inProgress_leave hstack] at hsettled
  cases hexception : dispatch.source.isException with
  | true =>
      rw [hexception, if_pos rfl] at hsettled
      rw [Settled, Dispatching.leave, acknowledgeWrites_exception hexception]
      exact hsettled
  | false =>
      rw [hexception, if_neg Bool.false_ne_true] at hsettled
      have hrest : (s.leave dispatch rest).inProgress = [] := by
        generalize (s.leave dispatch rest).inProgress = others at hsettled
        cases hsettled with
        | one hmaster hslave => rfl
      rw [hrest] at hsettled
      obtain ⟨hmaster, hslave⟩ := acknowledged hexception hsettled
      rw [Settled, hrest]
      exact .idle hmaster hslave

/-- Every step keeps the lines in service those of the interrupt in progress. -/
theorem Step.settled (hstep : Step s s') (hsettled : s.Settled) : s'.Settled := by
  cases hstep with
  | register vector handler => exact hsettled
  | interrupt hsource henabled hmaster hslave => exact hsettled.interrupt hsource henabled
  | exception vector =>
      rw [Settled, inProgress_enter (.exception vector) s]
      exact hsettled
  | leave hstack => exact hsettled.leave hstack

theorem Reachable.settled (hreachable : s.Reachable) : s.Settled := by
  obtain ⟨pair, hrun⟩ := hreachable
  induction hrun with
  | refl => exact .idle rfl rfl
  | tail _ hstep ih => exact hstep.settled ih

/-- Between dispatches of interrupts no line is in service; during one, exactly those that it put in
service, whatever exceptions are dispatched inside it; and these change no controller. -/
theorem inService_settled (hreachable : s.Reachable) :
    (s.inProgress = [] → s.pics.master.inService = .empty ∧ s.pics.slave.inService = .empty)
    ∧ (∀ source ∈ s.inProgress,
        s.pics.master.inService = (source.masterLine.map Lines.empty.set).getD .empty
        ∧ s.pics.slave.inService = (source.slaveLine.map Lines.empty.set).getD .empty)
    ∧ (∀ vector : Fin 32, (s.enter (.exception vector)).pics = s.pics)
    ∧ ∀ dispatch rest, s.stack = dispatch :: rest → dispatch.source.isException = true →
        (s.leave dispatch rest).pics = s.pics := by
  have hsettled := hreachable.settled
  rw [Settled] at hsettled
  refine ⟨fun hnone => ?_, fun source hsource => ?_, fun vector => rfl,
    fun dispatch rest _ hexception => ?_⟩
  · rw [hnone] at hsettled
    cases hsettled with
    | idle hmaster hslave => exact ⟨hmaster, hslave⟩
  · generalize s.inProgress = sources at hsettled hsource
    cases hsettled with
    | idle hmaster hslave => cases hsource
    | one hmaster hslave =>
        rw [List.mem_singleton.mp hsource]
        exact ⟨hmaster, hslave⟩
  · rw [leave, acknowledgeWrites_exception hexception]
    rfl

/-- A page fault in the handler of the mouse. -/
def faultInMouse : Dispatching Unit :=
  ((start (remapped 0 .empty .empty)).enter (.irq mouseIrq)).enter (.exception 14)

theorem inService_settled_faultInMouse :
    faultInMouse.pics.master.inService = Lines.empty.set 2
      ∧ faultInMouse.pics.slave.inService = Lines.empty.set 4 := by
  have hreachable : faultInMouse.Reachable := by
    refine ⟨remapped 0 .empty .empty, .tail (.tail .refl (.interrupt rfl rfl ?_ ?_)) (.exception 14)⟩
    · exact fun line _ => Lines.not_blocks_empty line
    · exact fun line _ => Lines.not_blocks_empty line
  exact (inService_settled hreachable).2.1 (.irq mouseIrq) List.mem_cons_self

end Dispatching

end KernelFromScratch
