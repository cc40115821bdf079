import KernelFromScratch.Library.Layout
import KernelFromScratch.Library.Zipper
import KernelFromScratch.Terminal

/-!
# What a screen is for

Seen from outside, a screen is a text that only grows, followed by the line being edited, laid out
on an unbounded page. The 35 rows in memory are a window on that page: rows `top`, ..., `top + 34`,
where `top` is the smallest row from which every end the contents have had so far was visible.
-/

namespace KernelFromScratch

def terminalFormat : PageFormat UInt8 := ⟨terminalWidth, newline, space, by decide⟩

def inputCapacity : Nat := 127

/-- The first visible row once contents that end at `stop` have been shown. -/
def settledTop (top stop : Nat) : Nat := max top (stop / terminalWidth - (terminalHeight - 1))

structure Session where
  text : List UInt8
  line : Zipper UInt8
  top : Nat
  deriving DecidableEq

namespace Session

/-- The page with the text alone; the line starts where it ends. -/
def page (s : Session) : Page UInt8 := terminalFormat.layout s.text

def anchor (s : Session) : Nat := s.page.pos

/-- The page with the text and the line. -/
def shown (s : Session) : Page UInt8 := terminalFormat.layout (s.text ++ s.line.line)

def settle (s : Session) : Session := { s with top := settledTop s.top s.shown.pos }

def print (c : UInt8) (s : Session) : Session := settle { s with text := s.text ++ [c] }

def printAll (chars : List UInt8) (s : Session) : Session :=
  chars.foldl (fun s c => s.print c) s

def edit (f : Zipper UInt8 → Zipper UInt8) (s : Session) : Session :=
  settle { s with line := f s.line }

def beginOutput (s : Session) : Session :=
  settle { s with text := s.text ++ s.line.line ++ [newline], line := .empty }

def endOutput (showPrompt : Bool) (s : Session) : Session :=
  let s := if s.anchor % terminalWidth ≠ 0 then s.print newline else s
  if showPrompt then s.printAll terminalPrompt else s

def clear : Session := ⟨[], .empty, 0⟩

/-- A screen shown for the first time. -/
def opened : Session := clear.printAll terminalPrompt

end Session

/-- The screens that have been shown, and which one is. -/
structure Sessions where
  sessions : ScreenIndex → Option Session
  index : ScreenIndex

namespace Sessions

def modify (f : Session → Session) (σ : Sessions) : Sessions :=
  { σ with sessions := Function.update σ.sessions σ.index ((σ.sessions σ.index).map f) }

theorem sessions_modify_self (f : Session → Session) (σ : Sessions) :
    (σ.modify f).sessions σ.index = (σ.sessions σ.index).map f :=
  Function.update_self _ _ _

theorem sessions_modify_of_ne (f : Session → Session) {σ : Sessions} {i : ScreenIndex}
    (hi : i ≠ σ.index) : (σ.modify f).sessions i = σ.sessions i :=
  Function.update_of_ne hi _ _

def init : Sessions := ⟨Function.update (fun _ => none) 0 (some .opened), 0⟩

def switchScreen (index : UInt8) (σ : Sessions) : Sessions :=
  if h : index.toNat < terminalScreenCount then
    let i : ScreenIndex := ⟨index.toNat, h⟩
    { sessions := Function.update σ.sessions i (some ((σ.sessions i).getD .opened)), index := i }
  else
    σ

end Sessions

/-! ### The operations of the terminal -/

/-- The functions a key calls while a line is edited. -/
inductive EditOp where
  | putcInput (input : UInt8)
  | delInput (count : UInt32)
  | delInputForward (count : UInt32)
  | move (direction : TerminalCursorDirection)
  deriving DecidableEq

namespace EditOp

def run : EditOp → Terminal → Terminal
  | putcInput input => Terminal.putcInput input
  | delInput count => Terminal.delInput count
  | delInputForward count => Terminal.delInputForward count
  | move direction => Terminal.move direction

def zipper : EditOp → Zipper UInt8 → Zipper UInt8
  | putcInput input => Zipper.insert inputCapacity input
  | delInput count => Zipper.deleteBefore count.toNat
  | delInputForward count => Zipper.deleteAfter count.toNat
  | move .left => Zipper.moveLeft
  | move .right => Zipper.moveRight
  | move .up => id
  | move .down => id

/-- The characters the keyboard maps hold. -/
def Typed : EditOp → Prop
  | putcInput c => c ≠ 0 ∧ c ≠ newline
  | _ => True

instance : DecidablePred EditOp.Typed
  | putcInput _ => inferInstanceAs (Decidable (_ ∧ _))
  | delInput _ => isTrue trivial
  | delInputForward _ => isTrue trivial
  | move _ => isTrue trivial

theorem Typed.ne {op : EditOp} (htyped : op.Typed) : op ≠ putcInput newline := by
  rintro rfl
  exact htyped.2 rfl

end EditOp

inductive TerminalOp where
  | edit (op : EditOp)
  | getInput (bufferSize : UInt32)
  | switchScreen (index : UInt8)
  | beginOutput
  | putcOutput (c : UInt8)
  | putsOutput (message : List UInt8)
  | clear
  | endOutput (showPrompt : Bool)
  deriving DecidableEq

namespace TerminalOp

def run : TerminalOp → Terminal → Terminal
  | edit op => op.run
  | getInput bufferSize => Terminal.getInputAccess bufferSize
  | switchScreen index => Terminal.switchScreen index
  | beginOutput => Terminal.beginOutput
  | putcOutput c => Terminal.putcOutput c
  | putsOutput message => Terminal.putsOutput message
  | clear => Terminal.clear
  | endOutput showPrompt => Terminal.endOutput showPrompt

def runAll (ops : List TerminalOp) (t : Terminal) : Terminal :=
  ops.foldl (fun t op => op.run t) t

/-- What an operation does to the sessions. -/
def apply : TerminalOp → Sessions → Sessions
  | edit op => Sessions.modify (Session.edit op.zipper)
  | getInput _ => id
  | switchScreen index => Sessions.switchScreen index
  | beginOutput => Sessions.modify Session.beginOutput
  | putcOutput c => Sessions.modify (Session.print c)
  | putsOutput message => Sessions.modify (Session.printAll (message.takeWhile (· ≠ 0)))
  | clear => Sessions.modify fun _ => .clear
  | endOutput showPrompt => Sessions.modify (Session.endOutput showPrompt)

def applyAll (ops : List TerminalOp) (σ : Sessions) : Sessions :=
  ops.foldl (fun σ op => op.apply σ) σ

end TerminalOp

/-- Whether the shown screen takes input or a command is printing on it. -/
inductive Phase where
  | input
  | output
  deriving DecidableEq

namespace Phase

/-- The order the shell keeps: it prints and clears only between `terminal_begin_output` and
`terminal_end_output`, and everything else happens outside. No key types a newline. -/
def next : Phase → TerminalOp → Option Phase
  | input, .edit op => if op = .putcInput newline then none else some input
  | input, .getInput _ => some input
  | input, .switchScreen _ => some input
  | input, .beginOutput => some output
  | output, .putcOutput _ => some output
  | output, .putsOutput _ => some output
  | output, .clear => some output
  | output, .endOutput _ => some input
  | _, _ => none

def after (phase : Phase) : List TerminalOp → Option Phase
  | [] => some phase
  | op :: ops => (phase.next op).bind fun phase => after phase ops

end Phase

end KernelFromScratch
