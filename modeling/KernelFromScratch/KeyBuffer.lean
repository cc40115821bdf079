import KernelFromScratch.Library.Ring
import Mathlib.Logic.Relation

/-!
# The key buffer

`keyboard_push_scancode`, called by the interrupt handlers, against `keyboard_has_input` and
`keyboard_handle_input`, called by the main loop. A push runs with interrupts disabled, so it is one
step; the main loop can be interrupted between any two of its accesses to the buffer.
-/

namespace KernelFromScratch

def keyBufferSize : Nat := 128

/-- `(index + 1) % KEY_BUFFER_SIZE`. -/
def nextIndex (index : UInt32) : UInt32 := (index + 1) % 128

structure KeyBuffer where
  keyBuffer : Nat → UInt8
  head : UInt32
  tail : UInt32

namespace KeyBuffer

/-- The statics at boot. -/
def boot : KeyBuffer := ⟨fun _ => 0, 0, 0⟩

def Full (b : KeyBuffer) : Prop := nextIndex b.head = b.tail

instance (b : KeyBuffer) : Decidable b.Full := inferInstanceAs (Decidable (_ = _))

def pushScancode (scancode : UInt8) (b : KeyBuffer) : KeyBuffer :=
  if b.Full then
    b
  else
    { b with
      keyBuffer := Function.update b.keyBuffer b.head.toNat scancode
      head := nextIndex b.head }

end KeyBuffer

/-- Where `keyboard_has_input` is. The order in which it reads the two indices is not specified. -/
inductive TestPoint where
  | start
  | readHead (head : UInt32)
  | readTail (tail : UInt32)
  deriving DecidableEq

/-- The next read of `keyboard_has_input`, or its result. -/
def TestPoint.next (headFirst : Bool) (b : KeyBuffer) : TestPoint → TestPoint ⊕ Bool
  | .start => .inl (if headFirst then .readHead b.head else .readTail b.tail)
  | .readHead head => .inr (head != b.tail)
  | .readTail tail => .inr (b.head != tail)

/-- Where `keyboard_handle_input` is. -/
inductive InputPoint where
  | test (point : TestPoint)
  /-- About to read the tail, for the index of the slot. -/
  | readIndex
  | readSlot (index : UInt32)
  /-- About to read the tail once more. -/
  | readTail (scancode : UInt8)
  | writeTail (scancode : UInt8) (tail : UInt32)
  /-- About to call `handle_scancode`. -/
  | call (scancode : UInt8)
  deriving DecidableEq

/-- Where the main loop is: outside the two functions, or in one of them. -/
inductive ConsumerPoint where
  | outside
  | hasInput (point : TestPoint)
  | handleInput (point : InputPoint)
  deriving DecidableEq

structure KeyQueue where
  buffer : KeyBuffer
  point : ConsumerPoint
  /-- Not in the source: the scancodes `keyboard_push_scancode` stored. -/
  accepted : List UInt8
  /-- Not in the source: the scancodes passed to `handle_scancode`. -/
  handled : List UInt8
  /-- Not in the source: how often the tail was updated. -/
  taken : Nat

namespace KeyQueue

def boot : KeyQueue := ⟨.boot, .outside, [], [], 0⟩

/-- An interrupt handler pushes a scancode. -/
def push (scancode : UInt8) (s : KeyQueue) : KeyQueue :=
  { s with
    buffer := s.buffer.pushScancode scancode
    accepted := if s.buffer.Full then s.accepted else s.accepted ++ [scancode] }

/-- The next access of `keyboard_handle_input`, or its call of `handle_scancode`. -/
def handleInput (headFirst : Bool) (point : InputPoint) (s : KeyQueue) : KeyQueue :=
  match point with
  | .test point =>
      match point.next headFirst s.buffer with
      | .inl point => { s with point := .handleInput (.test point) }
      | .inr true => { s with point := .handleInput .readIndex }
      | .inr false => { s with point := .outside }
  | .readIndex => { s with point := .handleInput (.readSlot s.buffer.tail) }
  | .readSlot index =>
      { s with point := .handleInput (.readTail (s.buffer.keyBuffer index.toNat)) }
  | .readTail scancode => { s with point := .handleInput (.writeTail scancode s.buffer.tail) }
  | .writeTail scancode tail =>
      { s with
        buffer := { s.buffer with tail := nextIndex tail }
        point := .handleInput (.call scancode)
        taken := s.taken + 1 }
  | .call scancode =>
      { s with point := .handleInput (.test .start), handled := s.handled ++ [scancode] }

/-- The next access of a call of `keyboard_has_input` alone. -/
def hasInput (headFirst : Bool) (point : TestPoint) (s : KeyQueue) : KeyQueue :=
  match point.next headFirst s.buffer with
  | .inl point => { s with point := .hasInput point }
  | .inr _ => { s with point := .outside }

inductive Step : KeyQueue → KeyQueue → Prop where
  | push (scancode : UInt8) (s : KeyQueue) : Step s (s.push scancode)
  | callHasInput {s : KeyQueue} (hpoint : s.point = .outside) :
      Step s { s with point := .hasInput .start }
  | callHandleInput {s : KeyQueue} (hpoint : s.point = .outside) :
      Step s { s with point := .handleInput (.test .start) }
  | hasInput {s : KeyQueue} {point : TestPoint} (hpoint : s.point = .hasInput point)
      (headFirst : Bool) : Step s (s.hasInput headFirst point)
  | handleInput {s : KeyQueue} {point : InputPoint} (hpoint : s.point = .handleInput point)
      (headFirst : Bool) : Step s (s.handleInput headFirst point)

/-- Any number of steps after boot. -/
def Reachable (s : KeyQueue) : Prop := Relation.ReflTransGen Step boot s

end KeyQueue

/-! ### The buffer as a ring -/

theorem nextIndex_toNat (index : UInt32) :
    (nextIndex index).toNat = Ring.next keyBufferSize index.toNat := by
  have hlt := index.toNat_lt
  rw [nextIndex, UInt32.toNat_mod, UInt32.toNat_add, Ring.next, keyBufferSize]
  change (index.toNat + 1) % 2 ^ 32 % 128 = (index.toNat + 1) % 128
  omega

namespace KeyBuffer

variable {b : KeyBuffer}

/-- Both indices are indices of slots. -/
structure Bounded (b : KeyBuffer) : Prop where
  head : b.head.toNat < keyBufferSize
  tail : b.tail.toNat < keyBufferSize

def ring (b : KeyBuffer) (hbounded : b.Bounded) : Ring UInt8 keyBufferSize :=
  ⟨b.keyBuffer, b.head.toNat, b.tail.toNat, hbounded.head, hbounded.tail⟩

theorem full_iff (hbounded : b.Bounded) :
    b.Full ↔ (b.ring hbounded).contents.length = keyBufferSize - 1 := by
  rw [← Ring.full_iff, Full, ← UInt32.toNat_inj, nextIndex_toNat]
  rfl

theorem empty_iff (hbounded : b.Bounded) :
    b.head = b.tail ↔ (b.ring hbounded).contents = [] := by
  rw [← Ring.empty_iff, ← UInt32.toNat_inj]
  rfl

theorem pushScancode_of_full (hfull : b.Full) (scancode : UInt8) :
    b.pushScancode scancode = b :=
  if_pos hfull

theorem nextIndex_lt (index : UInt32) : (nextIndex index).toNat < keyBufferSize := by
  rw [nextIndex_toNat]
  exact Nat.mod_lt _ (by decide)

theorem pushScancode_bounded (hbounded : b.Bounded) (scancode : UInt8) :
    (b.pushScancode scancode).Bounded := by
  rw [pushScancode]
  split
  · exact hbounded
  · exact ⟨nextIndex_lt _, hbounded.tail⟩

/-- A push that is not dropped adds its scancode behind the others. -/
theorem contents_pushScancode (hbounded : b.Bounded) (hroom : ¬ b.Full) (scancode : UInt8) :
    ((b.pushScancode scancode).ring (pushScancode_bounded hbounded scancode)).contents
      = (b.ring hbounded).contents ++ [scancode] := by
  have hpushed : b.pushScancode scancode
      = ⟨Function.update b.keyBuffer b.head.toNat scancode, nextIndex b.head, b.tail⟩ := if_neg hroom
  have hring : (b.pushScancode scancode).ring (pushScancode_bounded hbounded scancode)
      = (b.ring hbounded).push scancode := by
    simp only [ring, Ring.push, hpushed, nextIndex_toNat]
  have hnext : Ring.next keyBufferSize (b.ring hbounded).head ≠ (b.ring hbounded).tail := by
    intro hfull
    apply hroom
    rw [Full, ← UInt32.toNat_inj, nextIndex_toNat]
    exact hfull
  rw [hring, Ring.contents_push scancode _ hnext]

theorem setTail_bounded (hbounded : b.Bounded) :
    ({ b with tail := nextIndex b.tail } : KeyBuffer).Bounded :=
  ⟨hbounded.head, nextIndex_lt _⟩

/-- The slot of the tail holds the oldest scancode, and the tail update removes it. -/
theorem contents_setTail (hbounded : b.Bounded) (hcontents : (b.ring hbounded).contents ≠ []) :
    (b.ring hbounded).contents = b.keyBuffer b.tail.toNat ::
      (({ b with tail := nextIndex b.tail } : KeyBuffer).ring (setTail_bounded hbounded)).contents := by
  have hring : ({ b with tail := nextIndex b.tail } : KeyBuffer).ring (setTail_bounded hbounded)
      = (b.ring hbounded).pop := by
    simp only [ring, Ring.pop, nextIndex_toNat]
  rw [hring]
  exact Ring.contents_pop _ fun h => hcontents ((Ring.empty_iff _).mp h)

end KeyBuffer

/-! ### What the main loop knows of the buffer -/

/-- What holds at a point of `keyboard_handle_input` of the tail and of what the buffer holds. -/
def InputPoint.Knows (tail : UInt32) (contents : List UInt8) : InputPoint → Prop
  | .test .start => True
  | .test (.readHead head) => head ≠ tail → contents ≠ []
  | .test (.readTail tail') => tail' = tail
  | .readIndex => contents ≠ []
  | .readSlot index => index = tail ∧ contents ≠ []
  | .readTail scancode => contents.head? = some scancode
  | .writeTail scancode tail' => tail' = tail ∧ contents.head? = some scancode
  | .call _ => True

/-- A push takes nothing from what the main loop knows. -/
theorem InputPoint.Knows.push {tail : UInt32} {contents : List UInt8} {point : InputPoint}
    (hknows : point.Knows tail contents) (scancode : UInt8) :
    point.Knows tail (contents ++ [scancode]) := by
  have hne : contents ++ [scancode] ≠ [] := List.append_ne_nil_of_right_ne_nil _ (by simp)
  have hhead : ∀ {c}, contents.head? = some c → (contents ++ [scancode]).head? = some c := by
    intro c hc
    rw [List.head?_append, hc]
    rfl
  cases point with
  | test point =>
      cases point with
      | start => trivial
      | readHead head => exact fun _ => hne
      | readTail tail' => exact hknows
  | readIndex => exact hne
  | readSlot index => exact ⟨hknows.1, hne⟩
  | readTail c => exact hhead hknows
  | writeTail c tail' => exact ⟨hknows.1, hhead hknows.2⟩
  | call c => trivial

def ConsumerPoint.Knows (tail : UInt32) (contents : List UInt8) : ConsumerPoint → Prop
  | .handleInput point => point.Knows tail contents
  | _ => True

theorem ConsumerPoint.Knows.push {tail : UInt32} {contents : List UInt8} {point : ConsumerPoint}
    (hknows : point.Knows tail contents) (scancode : UInt8) :
    point.Knows tail (contents ++ [scancode]) := by
  cases point with
  | outside => trivial
  | hasInput point => trivial
  | handleInput point => exact InputPoint.Knows.push hknows scancode

namespace KeyQueue

variable {s s' : KeyQueue} {headFirst : Bool}

/-- The scancode the main loop has taken out of the buffer and not handled yet. -/
def inHand (s : KeyQueue) : List UInt8 :=
  match s.point with
  | .handleInput (.call scancode) => [scancode]
  | _ => []

/-- No scancode is lost, repeated or altered. -/
structure Lossless (s : KeyQueue) : Prop where
  bounded : s.buffer.Bounded
  accepted : s.accepted = s.handled ++ s.inHand ++ (s.buffer.ring bounded).contents
  taken : s.taken = (s.handled ++ s.inHand).length
  knows : s.point.Knows s.buffer.tail (s.buffer.ring bounded).contents

theorem boot_lossless : boot.Lossless := ⟨⟨by decide, by decide⟩, rfl, rfl, trivial⟩

theorem push_lossless (scancode : UInt8) (hlossless : s.Lossless) : (s.push scancode).Lossless := by
  obtain ⟨hbounded, haccepted, htaken, hknows⟩ := hlossless
  by_cases hfull : s.buffer.Full
  · have hsame : s.push scancode = s := by
      rw [push, KeyBuffer.pushScancode_of_full hfull, if_pos hfull]
    rw [hsame]
    exact ⟨hbounded, haccepted, htaken, hknows⟩
  · have hcontents := KeyBuffer.contents_pushScancode hbounded hfull scancode
    have htail : (s.buffer.pushScancode scancode).tail = s.buffer.tail := by
      rw [KeyBuffer.pushScancode, if_neg hfull]
    have haccepted' : (s.push scancode).accepted = s.accepted ++ [scancode] := if_neg hfull
    refine ⟨KeyBuffer.pushScancode_bounded hbounded scancode, ?_, htaken, ?_⟩
    · rw [haccepted', haccepted, List.append_assoc]
      exact congrArg _ hcontents.symm
    · have hpushed := hknows.push scancode
      rw [← hcontents, ← htail] at hpushed
      exact hpushed

theorem Lossless.read (hlossless : s.Lossless) {point : ConsumerPoint}
    (hhand : ({ s with point := point } : KeyQueue).inHand = s.inHand)
    (hknows : point.Knows s.buffer.tail (s.buffer.ring hlossless.bounded).contents) :
    ({ s with point := point } : KeyQueue).Lossless := by
  refine ⟨hlossless.bounded, ?_, ?_, hknows⟩
  · rw [hhand]
    exact hlossless.accepted
  · rw [hhand]
    exact hlossless.taken

theorem inHand_of_ne (hcall : ∀ scancode, s.point ≠ .handleInput (.call scancode)) :
    s.inHand = [] := by
  unfold inHand
  split
  · rename_i scancode hpoint
    exact absurd hpoint (hcall scancode)
  · rfl

theorem hasInput_lossless (hlossless : s.Lossless) {point : TestPoint}
    (hpoint : s.point = .hasInput point) (headFirst : Bool) :
    (s.hasInput headFirst point).Lossless := by
  have hhand : s.inHand = [] := inHand_of_ne (by simp [hpoint])
  rw [hasInput]
  cases point.next headFirst s.buffer with
  | inl point => exact hlossless.read hhand.symm trivial
  | inr result => exact hlossless.read hhand.symm trivial

theorem test_lossless (hlossless : s.Lossless) {point : TestPoint}
    (hpoint : s.point = .handleInput (.test point)) (headFirst : Bool) :
    (s.handleInput headFirst (.test point)).Lossless := by
  have hhand : s.inHand = [] := inHand_of_ne (by simp [hpoint])
  have hempty := KeyBuffer.empty_iff hlossless.bounded
  have hknows := hlossless.knows
  rw [hpoint] at hknows
  cases point with
  | start =>
      cases headFirst with
      | true =>
          exact hlossless.read hhand.symm fun hne hnil => hne (hempty.mpr hnil)
      | false => exact hlossless.read hhand.symm rfl
  | readHead head =>
      by_cases hne : head = s.buffer.tail
      · have hstep : s.handleInput headFirst (.test (.readHead head)) = { s with point := .outside } := by
          simp only [handleInput, TestPoint.next, bne_eq_false_iff_eq.mpr hne]
        rw [hstep]
        exact hlossless.read hhand.symm trivial
      · have hstep : s.handleInput headFirst (.test (.readHead head))
            = { s with point := .handleInput .readIndex } := by
          simp only [handleInput, TestPoint.next, bne_iff_ne.mpr hne]
        rw [hstep]
        exact hlossless.read hhand.symm (hknows hne)
  | readTail tail =>
      have htail : tail = s.buffer.tail := hknows
      by_cases hne : s.buffer.head = tail
      · have hstep : s.handleInput headFirst (.test (.readTail tail)) = { s with point := .outside } := by
          simp only [handleInput, TestPoint.next, bne_eq_false_iff_eq.mpr hne]
        rw [hstep]
        exact hlossless.read hhand.symm trivial
      · have hstep : s.handleInput headFirst (.test (.readTail tail))
            = { s with point := .handleInput .readIndex } := by
          simp only [handleInput, TestPoint.next, bne_iff_ne.mpr hne]
        rw [hstep]
        exact hlossless.read hhand.symm fun hnil => hne ((hempty.mpr hnil).trans htail.symm)

/-- The tail update takes the scancode that was read out of the buffer. -/
theorem writeTail_lossless (hlossless : s.Lossless) {scancode : UInt8} {tail : UInt32}
    (hpoint : s.point = .handleInput (.writeTail scancode tail)) (headFirst : Bool) :
    (s.handleInput headFirst (.writeTail scancode tail)).Lossless := by
  have hhand : s.inHand = [] := inHand_of_ne (by simp [hpoint])
  obtain ⟨hbounded, haccepted, htaken, hknows⟩ := hlossless
  rw [hpoint] at hknows
  obtain ⟨rfl, hhead⟩ := hknows
  have hne : (s.buffer.ring hbounded).contents ≠ [] := by
    intro hnil
    rw [hnil] at hhead
    cases hhead
  have hcontents := KeyBuffer.contents_setTail hbounded hne
  rw [hcontents, List.head?_cons, Option.some_inj] at hhead
  rw [hcontents, hhead, hhand] at haccepted
  rw [hhand] at htaken
  refine ⟨KeyBuffer.setTail_bounded hbounded, ?_, ?_, trivial⟩
  · calc s.accepted = s.handled ++ [] ++ (scancode :: _) := haccepted
      _ = s.handled ++ [scancode] ++ _ := by rw [List.append_nil, List.append_assoc]; rfl
  · calc s.taken + 1 = (s.handled ++ []).length + 1 := by rw [htaken]
      _ = (s.handled ++ [scancode]).length := by simp

theorem call_lossless (hlossless : s.Lossless) {scancode : UInt8}
    (hpoint : s.point = .handleInput (.call scancode)) (headFirst : Bool) :
    (s.handleInput headFirst (.call scancode)).Lossless := by
  have hhand : s.inHand = [scancode] := by
    rw [inHand, hpoint]
  obtain ⟨hbounded, haccepted, htaken, -⟩ := hlossless
  rw [hhand] at haccepted htaken
  have hnext : (s.handleInput headFirst (.call scancode)).inHand = [] := rfl
  refine ⟨hbounded, ?_, ?_, trivial⟩
  · rw [hnext, List.append_nil]
    exact haccepted
  · rw [hnext, List.append_nil]
    exact htaken

theorem handleInput_lossless (hlossless : s.Lossless) {point : InputPoint}
    (hpoint : s.point = .handleInput point) (headFirst : Bool) :
    (s.handleInput headFirst point).Lossless := by
  have hknows := hlossless.knows
  rw [hpoint] at hknows
  cases point with
  | test point => exact test_lossless hlossless hpoint headFirst
  | readIndex =>
      have hhand : s.inHand = [] := inHand_of_ne (by simp [hpoint])
      exact hlossless.read hhand.symm ⟨rfl, hknows⟩
  | readSlot index =>
      have hhand : s.inHand = [] := inHand_of_ne (by simp [hpoint])
      obtain ⟨rfl, hne⟩ := hknows
      refine hlossless.read hhand.symm ?_
      have hcontents := KeyBuffer.contents_setTail hlossless.bounded hne
      exact (congrArg List.head? hcontents).trans rfl
  | readTail scancode =>
      have hhand : s.inHand = [] := inHand_of_ne (by simp [hpoint])
      exact hlossless.read hhand.symm ⟨rfl, hknows⟩
  | writeTail scancode tail => exact writeTail_lossless hlossless hpoint headFirst
  | call scancode => exact call_lossless hlossless hpoint headFirst

theorem step_lossless (hlossless : s.Lossless) (hstep : Step s s') : s'.Lossless := by
  cases hstep with
  | push scancode => exact push_lossless scancode hlossless
  | callHasInput hpoint =>
      have hhand : s.inHand = [] := inHand_of_ne (by simp [hpoint])
      exact hlossless.read hhand.symm trivial
  | callHandleInput hpoint =>
      have hhand : s.inHand = [] := inHand_of_ne (by simp [hpoint])
      exact hlossless.read hhand.symm trivial
  | hasInput hpoint headFirst => exact hasInput_lossless hlossless hpoint headFirst
  | handleInput hpoint headFirst => exact handleInput_lossless hlossless hpoint headFirst

theorem reachable_lossless (hreachable : s.Reachable) : s.Lossless := by
  induction hreachable with
  | refl => exact boot_lossless
  | tail _ hstep ih => exact step_lossless ih hstep

end KeyQueue

/-- The key buffer is a lossless queue under every interleaving of the interrupt handlers and the
main loop. -/
theorem keyBuffer_lossless {s : KeyQueue} (hreachable : s.Reachable) :
    ∃ hbounded : s.buffer.Bounded,
      (∀ scancode, if s.accepted.length = s.taken + 127 then s.push scancode = s
        else (s.push scancode).accepted = s.accepted ++ [scancode]) ∧
      s.taken ≤ s.accepted.length ∧
      s.accepted = s.handled ++ s.inHand ++ (s.buffer.ring hbounded).contents := by
  obtain ⟨hbounded, haccepted, htaken, -⟩ := KeyQueue.reachable_lossless hreachable
  have hlength : s.accepted.length = s.taken + (s.buffer.ring hbounded).contents.length := by
    rw [haccepted, List.length_append, htaken]
  refine ⟨hbounded, ?_, by omega, haccepted⟩
  intro scancode
  have hfull : s.buffer.Full ↔ s.accepted.length = s.taken + 127 := by
    rw [KeyBuffer.full_iff hbounded, hlength]
    exact (Nat.add_right_inj).symm
  split
  · rename_i hall
    rw [KeyQueue.push, KeyBuffer.pushScancode_of_full (hfull.mpr hall), if_pos (hfull.mpr hall)]
  · rename_i hroom
    exact if_neg fun h => hroom (hfull.mp h)

/-- A scancode is pushed while `keyboard_handle_input` is between its two reads. -/
theorem keyBuffer_lossless_push :
    let s := (({ KeyQueue.boot with point := .handleInput (.test .start) } : KeyQueue).handleInput true
      (.test .start)).push 0x1E
    ∃ hbounded : s.buffer.Bounded, [0x1E] = s.handled ++ s.inHand ++ (s.buffer.ring hbounded).contents := by
  have hreachable : KeyQueue.Reachable ((({ KeyQueue.boot with
      point := .handleInput (.test .start) } : KeyQueue).handleInput true (.test .start)).push 0x1E) :=
    ((Relation.ReflTransGen.refl.tail (.callHandleInput rfl)).tail (.handleInput rfl true)).tail
      (.push 0x1E _)
  obtain ⟨hbounded, -, -, haccepted⟩ := keyBuffer_lossless hreachable
  exact ⟨hbounded, haccepted⟩

end KernelFromScratch
