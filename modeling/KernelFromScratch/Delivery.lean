import KernelFromScratch.Pic

/-!
# Where interrupts are delivered

Devices raise lines, and the CPU takes the interrupts one after the other. After `remap_pic` the
keyboard's interrupts arrive at their vector, but the slave does not answer to the number of the
input it is wired to, so the mouse's do not.
-/

namespace KernelFromScratch

/-- A device raises a line, or the CPU looks for an interrupt and handles it to the end. -/
inductive LineEvent where
  | request (irq : Fin 16)
  | service

/-- The vector the CPU takes, and the controllers after the acknowledgements. -/
def PicPair.service (pair : PicPair) : List (Option UInt8) × PicPair :=
  match pair.acknowledge with
  | none => ([], pair)
  | some (vector, pair) =>
    ([vector], pair.outbs ((vector.map fun vector => acknowledgeWrites vector.toUInt32).getD []))

/-- What the CPU reads from the bus, acknowledge cycle by acknowledge cycle. -/
def deliveries : PicPair → List LineEvent → List (Option UInt8)
  | _, [] => []
  | pair, .request irq :: events => deliveries (pair.raise irq) events
  | pair, .service :: events => pair.service.1 ++ deliveries pair.service.2 events

/-- `INTERRUPT_VECTOR_KEYBOARD`. -/
def interruptVectorKeyboard : UInt8 := 0x21

/-- `INTERRUPT_VECTOR_MOUSE`. -/
def interruptVectorMouse : UInt8 := 0x2C

/-- The lines of the keyboard and of the mouse, the first one with the higher priority. -/
def deviceLines : List (Fin 16) := [keyboardIrq, mouseIrq]

/-- The intended deliveries: the requests of these two lines, at vector `0x20` plus their number. -/
def intended : (Fin 16 → Bool) → List LineEvent → List UInt8
  | _, [] => []
  | pending, .request irq :: events => intended (Function.update pending irq true) events
  | pending, .service :: events =>
    match deviceLines.find? pending with
    | some irq => (0x20 + .ofNat irq) :: intended (Function.update pending irq false) events
    | none => intended pending events

section Step

variable {identity : UInt8} {master slave : Lines} {pending : Fin 16 → Bool}

theorem raise_remapped (identity : UInt8) (hkeyboard : master 1 = pending 1)
    (hmouse : slave 4 = pending 12) (irq : Fin 16) :
    ∃ master' slave', (remapped identity master slave).raise irq = remapped identity master' slave'
      ∧ master' 1 = Function.update pending irq true 1
      ∧ slave' 4 = Function.update pending irq true 12 := by
  rw [PicPair.raise]
  split_ifs with hslave hcascade
  · refine ⟨master, _, rfl, ?_, ?_⟩
    · rw [Function.update_of_ne (by rintro rfl; exact absurd hslave (by decide))]
      exact hkeyboard
    · rw [Lines.set, Function.update_apply, Function.update_apply]
      refine if_congr ?_ rfl hmouse
      simp only [Fin.ext_iff]
      change 4 = irq.val - 8 ↔ 12 = irq.val
      omega
  · obtain rfl : irq = 2 := Fin.ext hcascade
    exact ⟨master, slave, rfl, hkeyboard, hmouse⟩
  · refine ⟨_, slave, rfl, ?_, ?_⟩
    · rw [Lines.set, Function.update_apply, Function.update_apply]
      refine if_congr ?_ rfl hkeyboard
      simp only [Fin.ext_iff]
      rfl
    · rw [Function.update_of_ne (by rintro rfl; exact hslave (by decide))]
      exact hmouse

/-- The slave asks for an interrupt when the mouse does. -/
theorem slave_asking (identity : UInt8) (master slave : Lines) :
    (remapped identity master slave).slave.asking slave = if slave 4 then some 4 else none := by
  have hmask : ∀ line, Lines.ofByte 0xef line = decide (line ≠ 4) := by decide
  have hlines : (fun line => slave line && !Lines.ofByte 0xef line)
      = if slave 4 then Lines.empty.set 4 else .empty := by
    funext line
    rw [hmask line]
    by_cases hline : line = 4
    · rw [hline]
      cases slave 4 <;> rfl
    · rw [decide_eq_true hline, Bool.not_true, Bool.and_false]
      split_ifs
      · exact (Function.update_of_ne hline true Lines.empty).symm
      · rfl
  rw [Pic.asking_of_idle rfl]
  change Lines.highest (fun line => slave line && !Lines.ofByte 0xef line) = _
  rw [hlines]
  split_ifs
  · exact Lines.highest_set_empty 4
  · exact Lines.highest_empty

/-- The master prefers the keyboard. -/
theorem master_asking (identity : UInt8) (master slave : Lines) :
    (remapped identity master slave).master.asking (remapped identity master slave).masterRequests
      = if master 1 then some 1 else if slave 4 then some 2 else none := by
  have hmask : ∀ line, Lines.ofByte 0xf9 line = decide (line ≠ 1 ∧ line ≠ 2) := by decide
  have hslave := slave_asking identity master slave
  have hcascade : (remapped identity master slave).masterRequests 2 = slave 4 := by
    rw [PicPair.masterRequests, PicPair.slaveInput, Function.update_self]
    change ((remapped identity master slave).slave.asking slave).isSome = _
    rw [hslave]
    cases slave 4 <;> rfl
  have hkeyboard : (remapped identity master slave).masterRequests 1 = master 1 :=
    Function.update_of_ne (by decide) _ _
  rw [Pic.asking_of_idle rfl]
  generalize (remapped identity master slave).masterRequests = requests at hcascade hkeyboard
  rw [← hcascade, ← hkeyboard]
  change Lines.highest (fun line => requests line && !Lines.ofByte 0xf9 line) = _
  have hother : ∀ line, line ≠ 1 → line ≠ 2 →
      (requests line && !Lines.ofByte 0xf9 line) = false := by
    intro line hone htwo
    rw [hmask, decide_eq_true ⟨hone, htwo⟩, Bool.not_true, Bool.and_false]
  split_ifs with hfirst hsecond
  · refine Lines.highest_eq_some ?_ fun line hline => hother line (by omega) (by omega)
    rw [hfirst, hmask]
    rfl
  · refine Lines.highest_eq_some ?_ fun line hline => ?_
    · rw [hsecond, hmask]
      rfl
    · by_cases hone : line = 1
      · rw [hone, Bool.eq_false_iff.mpr hfirst]
        rfl
      · exact hother line hone (by omega)
  · refine Lines.highest_eq_none fun line => ?_
    by_cases hone : line = 1
    · rw [hone, Bool.eq_false_iff.mpr hfirst]
      rfl
    by_cases htwo : line = 2
    · rw [htwo, Bool.eq_false_iff.mpr hsecond]
      rfl
    exact hother line hone htwo

theorem service_keyboard (hkeyboard : master 1 = true) :
    (remapped identity master slave).service
      = ([some interruptVectorKeyboard], remapped identity (master.clear 1) slave) := by
  have hpair : (PicPair.mk ((remapped identity master slave).master.accept 1)
      (remapped identity master slave).slave).outbs
        (acknowledgeWrites interruptVectorKeyboard.toUInt32)
      = remapped identity (master.clear 1) slave := by
    change PicPair.mk { (remapped identity (master.clear 1) slave).master with
      inService := (Lines.empty.set 1).endOfInterrupt } _ = _
    rw [Lines.endOfInterrupt_set_empty]
    rfl
  rw [PicPair.service, PicPair.acknowledge, master_asking, if_pos hkeyboard]
  exact congrArg _ hpair

/-- The mouse's interrupt is delivered if the slave has the number of its input. -/
theorem service_mouse (hkeyboard : master 1 = false) (hmouse : slave 4 = true) :
    (remapped identity master slave).service
      = if identity &&& 0x07 = 2 then
          ([some interruptVectorMouse], remapped identity master (slave.clear 4))
        else
          ([none], ⟨(remapped identity master slave).master.serve 2,
            (remapped identity master slave).slave⟩) := by
  have hpair : (PicPair.mk ((remapped identity master slave).master.serve 2)
      ((remapped identity master slave).slave.accept 4)).outbs
        (acknowledgeWrites interruptVectorMouse.toUInt32)
      = remapped identity master (slave.clear 4) := by
    change PicPair.mk
      { (remapped identity master (slave.clear 4)).master with
        inService := (Lines.empty.set 2).endOfInterrupt }
      { (remapped identity master (slave.clear 4)).slave with
        inService := (Lines.empty.set 4).endOfInterrupt } = _
    rw [Lines.endOfInterrupt_set_empty, Lines.endOfInterrupt_set_empty]
    rfl
  have hslave : (remapped identity master slave).slave.asking
      (remapped identity master slave).slave.requests = some 4 :=
    (slave_asking identity master slave).trans (if_pos hmouse)
  have hidentity : (remapped identity master slave).slave.identity.toNat = PicPair.slaveInput
      ↔ identity &&& 0x07 = 2 := by
    rw [← UInt8.toNat_inj]
    rfl
  have hacknowledge : (remapped identity master slave).acknowledge
      = if identity &&& 0x07 = 2 then
          some (some interruptVectorMouse, ⟨(remapped identity master slave).master.serve 2,
            (remapped identity master slave).slave.accept 4⟩)
        else
          some (none, ⟨(remapped identity master slave).master.serve 2,
            (remapped identity master slave).slave⟩) := by
    rw [PicPair.acknowledge, master_asking, hkeyboard, hmouse, hslave]
    have hwired : (decide ((2 : Fin 8) = PicPair.slaveInput)
        && Lines.ofByte (remapped identity master slave).master.cascade PicPair.slaveInput)
          = true := by
      change (decide ((2 : Fin 8) = PicPair.slaveInput)
        && Lines.ofByte 0x04 PicPair.slaveInput) = true
      decide
    exact (if_pos hwired).trans (if_congr hidentity rfl rfl)
  rw [PicPair.service, hacknowledge]
  by_cases htwo : identity &&& 0x07 = 2
  · rw [if_pos htwo, if_pos htwo]
    exact congrArg _ hpair
  · rw [if_neg htwo, if_neg htwo]
    rfl

theorem service_none (hkeyboard : master 1 = false) (hmouse : slave 4 = false) :
    (remapped identity master slave).service = ([], remapped identity master slave) := by
  rw [PicPair.service, PicPair.acknowledge, master_asking, hkeyboard, hmouse]
  rfl

theorem intended_keyboard {events : List LineEvent} (hkeyboard : pending 1 = true) :
    intended pending (.service :: events)
      = interruptVectorKeyboard :: intended (Function.update pending 1 false) events := by
  rw [intended, deviceLines, keyboardIrq, mouseIrq, List.find?_cons_of_pos hkeyboard]
  rfl

theorem intended_mouse {events : List LineEvent} (hkeyboard : pending 1 = false)
    (hmouse : pending 12 = true) :
    intended pending (.service :: events)
      = interruptVectorMouse :: intended (Function.update pending 12 false) events := by
  rw [intended, deviceLines, keyboardIrq, mouseIrq,
    List.find?_cons_of_neg (by rw [hkeyboard]; decide), List.find?_cons_of_pos hmouse]
  rfl

theorem intended_none {events : List LineEvent} (hkeyboard : pending 1 = false)
    (hmouse : pending 12 = false) :
    intended pending (.service :: events) = intended pending events := by
  rw [intended, deviceLines, keyboardIrq, mouseIrq,
    List.find?_cons_of_neg (by rw [hkeyboard]; decide),
    List.find?_cons_of_neg (by rw [hmouse]; decide)]
  rfl

end Step

/-- Interrupts are delivered as intended, up to the first one of the mouse: its vector comes only if
the slave's identity is the number of its input. -/
theorem deliveries_remapped (identity : UInt8) {master slave : Lines} {pending : Fin 16 → Bool}
    (hkeyboard : master 1 = pending 1) (hmouse : slave 4 = pending 12) (events : List LineEvent) :
    deliveries (remapped identity master slave) events = (intended pending events).map some
      ↔ identity &&& 0x07 = 2 ∨ interruptVectorMouse ∉ intended pending events := by
  induction events generalizing master slave pending with
  | nil => simp [deliveries, intended]
  | cons event events ih =>
      cases event with
      | request irq =>
          obtain ⟨master', slave', hraise, hkeyboard', hmouse'⟩ :=
            raise_remapped identity hkeyboard hmouse irq
          rw [deliveries, intended, hraise]
          exact ih hkeyboard' hmouse'
      | service =>
          rw [deliveries]
          cases hone : pending 1 with
          | true =>
              have hcleared : master.clear 1 1 = Function.update pending 1 false 1 := by
                rw [Lines.clear, Function.update_self, Function.update_self]
              have hkept : slave 4 = Function.update pending 1 false 12 := by
                rw [Function.update_of_ne (by decide), hmouse]
              have hrest := ih hcleared hkept
              have hne : interruptVectorMouse ≠ interruptVectorKeyboard := by decide
              rw [service_keyboard (hkeyboard.trans hone), intended_keyboard hone]
              change some interruptVectorKeyboard :: deliveries (remapped identity (master.clear 1)
                slave) events = _ ↔ _
              rw [List.map_cons, List.cons_inj_right, hrest, List.mem_cons, not_or,
                and_iff_right hne]
          | false =>
              cases htwelve : pending 12 with
              | true =>
                  rw [service_mouse (hkeyboard.trans hone) (hmouse.trans htwelve),
                    intended_mouse hone htwelve]
                  by_cases htwo : identity &&& 0x07 = 2
                  · have hkept : master 1 = Function.update pending 12 false 1 := by
                      rw [Function.update_of_ne (by decide), hkeyboard]
                    have hcleared : slave.clear 4 4 = Function.update pending 12 false 12 := by
                      rw [Lines.clear, Function.update_self, Function.update_self]
                    have hrest := (ih hkept hcleared).mpr (.inl htwo)
                    rw [if_pos htwo, List.map_cons, ← hrest]
                    exact iff_of_true rfl (.inl htwo)
                  · rw [if_neg htwo, List.map_cons]
                    refine iff_of_false ?_ ?_
                    · intro hequal
                      cases (List.cons.inj hequal).1
                    · rintro (htwo' | hmissing)
                      · exact htwo htwo'
                      · exact hmissing List.mem_cons_self
              | false =>
                  rw [service_none (hkeyboard.trans hone) (hmouse.trans htwelve),
                    intended_none hone htwelve]
                  exact ih hkeyboard hmouse

/-- After `remap_pic` the CPU gets the intended interrupts exactly when none of the mouse's comes to
be delivered. -/
theorem deliveries_iff (pair : PicPair) (events : List LineEvent) :
    deliveries (remapPic pair) events = (intended (fun _ => false) events).map some
      ↔ interruptVectorMouse ∉ intended (fun _ => false) events := by
  have hidentity : ¬(4 : UInt8) &&& 0x07 = 2 := by decide
  rw [remapPic_eq, deliveries_remapped 4 rfl rfl events, or_iff_right hidentity]

/-- No controller answers the acknowledge cycle of the mouse. -/
theorem mouse_undelivered :
    deliveries (remapPic (remapped 0 .empty .empty)) [.request 12, .service] = [none]
      ∧ intended (fun _ => false) [.request 12, .service] = [interruptVectorMouse]
      ∧ ¬deliveries (remapPic (remapped 0 .empty .empty)) [.request 12, .service]
        = (intended (fun _ => false) [.request 12, .service]).map some := by
  decide

end KernelFromScratch
