import KernelFromScratch.Ps2

/-!
# The bytes `mouse_init` writes

The waits are long enough for every controller: after one the input buffer is empty. Three writes
are followed by another one without a wait. A byte is lost exactly when the controller needs time
for one of these three.
-/

namespace KernelFromScratch

namespace Ps2

variable {controller : Ps2Controller} {s s' s'' : Ps2}

/-! ### One turn of each loop -/

theorem inb_data (s : Ps2) :
    s.inb controller ps2DataPort = (controller.data s.accesses, s.access) := rfl

theorem waitInputEmptyFor_succ (left : Nat) (s : Ps2) :
    s.waitInputEmptyFor controller (left + 1)
      = if s.status controller &&& ps2StatusInputFull ≠ 0 then
          s.access.access.waitInputEmptyFor controller left
        else s.access := rfl

theorem waitOutputFullFor_succ (left : Nat) (s : Ps2) :
    s.waitOutputFullFor controller (left + 1)
      = if s.status controller &&& ps2StatusOutputFull ≠ 0 then (true, s.access)
        else s.access.access.waitOutputFullFor controller left := rfl

theorem answers_state (expected : UInt8) (s : Ps2) :
    (s.answers controller expected).2
      = if (s.waitOutputFull controller).1 then (s.waitOutputFull controller).2.access
        else (s.waitOutputFull controller).2 := by
  simp only [answers, inb_data]
  split_ifs <;> rfl

/-- The two writes of a try of `mouse_write`. -/
def sendToMouse (controller : Ps2Controller) (data : UInt8) (s : Ps2) : Ps2 :=
  let s := (s.waitInputEmpty controller).outb controller ps2CommandPort ps2WriteToMouse
  (s.waitInputEmpty controller).outb controller ps2DataPort data

theorem mouseWriteFor_succ (data : UInt8) (left : Nat) (s : Ps2) :
    s.mouseWriteFor controller data (left + 1)
      = if ((s.sendToMouse controller data).answers controller mouseAck).1 then
          (true, ((s.sendToMouse controller data).answers controller mouseAck).2)
        else
          ((s.sendToMouse controller data).answers controller mouseAck).2.mouseWriteFor
            controller data left := by
  rw [mouseWriteFor]
  simp only [sendToMouse]
  rfl

/-! ### What every access and every write keeps -/

/-- What every port access keeps. -/
structure Kept (P : Mailbox Ps2Write → Prop) : Prop where
  access : ∀ m, P m → P m.access
  write : ∀ m written delay, delay < ps2Timeout → P m → P (m.write written delay)

theorem kept_remaining_lt : Kept fun m => m.remaining < ps2Timeout where
  access m hlt := by
    rw [Mailbox.remaining_access]
    omega
  write m written delay hdelay _ := by
    rw [Mailbox.remaining_write]
    exact hdelay

theorem kept_behind : Kept Mailbox.Behind where
  access _ hbehind := hbehind.access
  write _ written delay _ hbehind := hbehind.write written delay

section Keeps

variable {P : Mailbox Ps2Write → Prop}

theorem waitInputEmptyFor_keeps (haccess : ∀ m, P m → P m.access) (left : Nat)
    (hs : P s.input) : P (s.waitInputEmptyFor controller left).input := by
  induction left generalizing s with
  | zero => exact hs
  | succ left ih =>
      rw [waitInputEmptyFor_succ]
      split_ifs
      · exact ih (haccess _ (haccess _ hs))
      · exact haccess _ hs

theorem waitOutputFullFor_keeps (haccess : ∀ m, P m → P m.access) (left : Nat)
    (hs : P s.input) : P (s.waitOutputFullFor controller left).2.input := by
  induction left generalizing s with
  | zero => exact hs
  | succ left ih =>
      rw [waitOutputFullFor_succ]
      split_ifs
      · exact haccess _ hs
      · exact ih (haccess _ (haccess _ hs))

theorem answers_keeps (haccess : ∀ m, P m → P m.access) (expected : UInt8) (hs : P s.input) :
    P (s.answers controller expected).2.input := by
  have hwait : P (s.waitOutputFull controller).2.input := waitOutputFullFor_keeps haccess _ hs
  rw [answers_state]
  split_ifs
  · exact haccess _ hwait
  · exact hwait

theorem outb_keeps (hkept : Kept P) (port : UInt16) (byte : UInt8) (hs : P s.input) :
    P (s.outb controller port byte).input :=
  hkept.write _ _ _ (controller.delay_lt _) hs

theorem sendToMouse_keeps (hkept : Kept P) (data : UInt8) (hs : P s.input) :
    P (s.sendToMouse controller data).input := by
  have hcommand : P ((s.waitInputEmpty controller).outb controller ps2CommandPort
      ps2WriteToMouse).input :=
    outb_keeps hkept _ _ (waitInputEmptyFor_keeps hkept.access _ hs)
  exact outb_keeps hkept _ _ (waitInputEmptyFor_keeps hkept.access _ hcommand)

theorem mouseWriteFor_keeps (hkept : Kept P) (data : UInt8) (left : Nat) (hs : P s.input) :
    P (s.mouseWriteFor controller data left).2.input := by
  induction left generalizing s with
  | zero => exact hs
  | succ left ih =>
      have hanswered : P ((s.sendToMouse controller data).answers controller mouseAck).2.input :=
        answers_keeps hkept.access mouseAck (sendToMouse_keeps hkept data hs)
      rw [mouseWriteFor_succ]
      split_ifs
      · exact hanswered
      · exact ih hanswered

theorem mouseWrites_keeps (hkept : Kept P) (bytes : List UInt8) (hs : P s.input) :
    P (s.mouseWrites controller bytes).input := by
  induction bytes generalizing s with
  | nil => exact hs
  | cons data bytes ih => exact ih (mouseWriteFor_keeps hkept data ps2Retries hs)

theorem setUpMouse_keeps (hkept : Kept P) (hs : P s.input) :
    P (s.setUpMouse controller).2.input := by
  have hpresent : P (s.mouseWrite controller mouseSetDefaults).2.input :=
    mouseWriteFor_keeps hkept _ _ hs
  simp only [setUpMouse]
  split_ifs
  · exact mouseWriteFor_keeps hkept _ _
      (answers_keeps hkept.access _ (mouseWrites_keeps hkept _ hpresent))
  · exact hpresent

theorem readConfig_keeps (hkept : Kept P) (hs : P s.input) :
    P (s.readConfig controller).2.input := by
  have hcommand : P ((s.waitInputEmpty controller).outb controller ps2CommandPort
      ps2ReadConfig).input :=
    outb_keeps hkept _ _ (waitInputEmptyFor_keeps hkept.access _ hs)
  exact hkept.access _ (waitOutputFullFor_keeps hkept.access _ hcommand)

theorem writeConfig_keeps (hkept : Kept P) (config : UInt8) (hs : P s.input) :
    P (s.writeConfig controller config).input := by
  have hcommand : P ((s.waitInputEmpty controller).outb controller ps2CommandPort
      ps2WriteConfig).input :=
    outb_keeps hkept _ _ (waitInputEmptyFor_keeps hkept.access _ hs)
  exact outb_keeps hkept _ _ (waitInputEmptyFor_keeps hkept.access _ hcommand)

theorem enableDevices_keeps (hkept : Kept P) (hs : P s.input) :
    P (s.enableDevices controller).input :=
  outb_keeps hkept _ _ (outb_keeps hkept _ _ hs)

end Keeps

/-! ### The waits -/

theorem inputFull_and (x : UInt8) (full : Bool) :
    ((x &&& ~~~ps2StatusInputFull) ||| if full then ps2StatusInputFull else 0)
      &&& ps2StatusInputFull ≠ 0 ↔ full = true := by
  have hrest : x &&& ~~~ps2StatusInputFull &&& ps2StatusInputFull = 0 := by
    rw [UInt8.and_assoc, UInt8.not_and_self, UInt8.and_zero]
  cases full with
  | true =>
      have hbit : ((x &&& ~~~ps2StatusInputFull) ||| ps2StatusInputFull) &&& ps2StatusInputFull
          = ps2StatusInputFull := by
        have hrest' := congrArg UInt8.toBitVec hrest
        apply UInt8.toBitVec_inj.mp
        rw [UInt8.toBitVec_and] at hrest'
        rw [UInt8.toBitVec_and, UInt8.toBitVec_or, BitVec.and_or_distrib_right, hrest',
          BitVec.and_self]
        exact BitVec.zero_or
      rw [if_pos rfl, hbit]
      simp [ps2StatusInputFull]
  | false => simp [hrest]

theorem status_inputFull (s : Ps2) :
    s.status controller &&& ps2StatusInputFull ≠ 0 ↔ s.input.remaining ≠ 0 := by
  rw [status, inputFull_and, Mailbox.full_iff]

theorem waitInputEmptyFor_empty {left : Nat} (hleft : s.input.remaining ≤ left) :
    (s.waitInputEmptyFor controller left).input.remaining = 0 := by
  induction left generalizing s with
  | zero => exact Nat.le_zero.mp hleft
  | succ left ih =>
      rw [waitInputEmptyFor_succ]
      split_ifs with hfull
      · apply ih
        have hfirst : s.access.input.remaining = s.input.remaining - 1 :=
          Mailbox.remaining_access _
        have hsecond : s.access.access.input.remaining = s.access.input.remaining - 1 :=
          Mailbox.remaining_access _
        omega
      · have hempty : s.input.remaining = 0 := by
          by_contra hremaining
          exact hfull ((status_inputFull s).mpr hremaining)
        calc s.access.input.remaining
            = s.input.remaining - 1 := Mailbox.remaining_access _
          _ = 0 := by rw [hempty]

/-! ### Writes that arrive -/

/-- From `s` to `s'`, `bytes` are written and none of them is overwritten. -/
structure Delivers (s : Ps2) (bytes : List Ps2Write) (s' : Ps2) : Prop where
  sent : s'.input.sent = s.input.sent ++ bytes
  arrived : s'.input.arrived = s.input.arrived ++ bytes

theorem Delivers.trans {bytes bytes' : List Ps2Write} (hfirst : Delivers s bytes s')
    (hsecond : Delivers s' bytes' s'') : Delivers s (bytes ++ bytes') s'' where
  sent := by rw [hsecond.sent, hfirst.sent, List.append_assoc]
  arrived := by rw [hsecond.arrived, hfirst.arrived, List.append_assoc]

theorem Delivers.refl (s : Ps2) : Delivers s [] s :=
  ⟨(List.append_nil _).symm, (List.append_nil _).symm⟩

theorem Delivers.inStep {bytes : List Ps2Write} (hdelivers : Delivers s bytes s')
    (hall : s.input.arrived = s.input.sent) : s'.input.arrived = s'.input.sent := by
  rw [hdelivers.sent, hdelivers.arrived, hall]

def Same (m m' : Mailbox Ps2Write) : Prop := m'.sent = m.sent ∧ m'.arrived = m.arrived

theorem same_access {m : Mailbox Ps2Write} (m' : Mailbox Ps2Write) (hsame : Same m m') :
    Same m m'.access := by
  rw [Same, Mailbox.sent_access, Mailbox.arrived_access]
  exact hsame

theorem Same.delivers (hsame : Same s.input s'.input) : Delivers s [] s' where
  sent := by rw [hsame.1, List.append_nil]
  arrived := by rw [hsame.2, List.append_nil]

theorem delivers_inb (port : UInt16) (s : Ps2) : Delivers s [] (s.inb controller port).2 := by
  have hsame : Same s.input s.access.input := same_access _ ⟨rfl, rfl⟩
  exact hsame.delivers

theorem delivers_waitInputEmpty (s : Ps2) : Delivers s [] (s.waitInputEmpty controller) := by
  have hsame : Same s.input (s.waitInputEmpty controller).input :=
    waitInputEmptyFor_keeps same_access ps2Timeout ⟨rfl, rfl⟩
  exact hsame.delivers

theorem delivers_waitOutputFull (s : Ps2) :
    Delivers s [] (s.waitOutputFull controller).2 := by
  have hsame : Same s.input (s.waitOutputFull controller).2.input :=
    waitOutputFullFor_keeps same_access ps2Timeout ⟨rfl, rfl⟩
  exact hsame.delivers

theorem delivers_answers (expected : UInt8) (s : Ps2) :
    Delivers s [] (s.answers controller expected).2 := by
  have hsame : Same s.input (s.answers controller expected).2.input :=
    answers_keeps same_access expected ⟨rfl, rfl⟩
  exact hsame.delivers

theorem delivers_outb (hempty : s.input.remaining = 0) (port : UInt16) (byte : UInt8) :
    Delivers s [⟨port, byte⟩] (s.outb controller port byte) :=
  ⟨Mailbox.sent_write _ _ _, Mailbox.arrived_write_of_empty hempty _ _⟩

theorem sent_outb (port : UInt16) (byte : UInt8) (s : Ps2) :
    (s.outb controller port byte).input.sent = s.input.sent ++ [⟨port, byte⟩] :=
  Mailbox.sent_write _ _ _

theorem remaining_outb (port : UInt16) (byte : UInt8) (s : Ps2) :
    (s.outb controller port byte).input.remaining = controller.delay s.input.sent.length :=
  Mailbox.remaining_write _ _ _

theorem remaining_outb_lt (port : UInt16) (byte : UInt8) (s : Ps2) :
    (s.outb controller port byte).input.remaining < ps2Timeout := by
  rw [remaining_outb]
  exact controller.delay_lt _

/-- A write after a wait. -/
theorem delivers_guarded (hlt : s.input.remaining < ps2Timeout) (port : UInt16) (byte : UInt8) :
    Delivers s [⟨port, byte⟩] ((s.waitInputEmpty controller).outb controller port byte) :=
  (delivers_waitInputEmpty s).trans (delivers_outb (waitInputEmptyFor_empty hlt.le) port byte)

theorem delivers_readConfig (hlt : s.input.remaining < ps2Timeout) :
    Delivers s [⟨ps2CommandPort, ps2ReadConfig⟩] (s.readConfig controller).2 :=
  (delivers_guarded hlt _ _).trans ((delivers_waitOutputFull _).trans (delivers_inb _ _))

theorem delivers_writeConfig (hlt : s.input.remaining < ps2Timeout) (config : UInt8) :
    Delivers s [⟨ps2CommandPort, ps2WriteConfig⟩, ⟨ps2DataPort, config⟩]
      (s.writeConfig controller config) :=
  (delivers_guarded hlt _ _).trans (delivers_guarded (remaining_outb_lt _ _ _) _ _)

/-- The configuration byte is written last, and nothing is accessed after it. -/
theorem remaining_writeConfig (config : UInt8) (s : Ps2) :
    (s.writeConfig controller config).input.remaining
      = controller.delay (s.input.sent.length + 1) := by
  have hwait (t : Ps2) : (t.waitInputEmpty controller).input.sent = t.input.sent :=
    (delivers_waitInputEmpty t).sent.trans (List.append_nil _)
  rw [writeConfig, remaining_outb, hwait, sent_outb, hwait, List.length_append]
  rfl

/-! ### Two writes without a wait -/

theorem delivers_pair (hempty : s.input.remaining = 0)
    (hdelay : controller.delay s.input.sent.length = 0) (port port' : UInt16)
    (byte byte' : UInt8) :
    Delivers s [⟨port, byte⟩, ⟨port', byte'⟩]
      ((s.outb controller port byte).outb controller port' byte') := by
  have hfirst : (s.outb controller port byte).input.remaining = 0 :=
    (remaining_outb _ _ _).trans hdelay
  exact (delivers_outb hempty port byte).trans (delivers_outb hfirst port' byte')

theorem behind_pair (hall : s.input.arrived = s.input.sent)
    (hlate : s.input.remaining ≠ 0 ∨ controller.delay s.input.sent.length ≠ 0)
    (port port' : UInt16) (byte byte' : UInt8) :
    ((s.outb controller port byte).outb controller port' byte').input.Behind := by
  by_cases hempty : s.input.remaining = 0
  · have hdelay : controller.delay s.input.sent.length ≠ 0 :=
      hlate.resolve_left fun hfull => hfull hempty
    have hfirst : (s.outb controller port byte).input.remaining ≠ 0 := by
      rw [remaining_outb]
      exact hdelay
    exact Mailbox.behind_write_of_full ((delivers_outb hempty port byte).inStep hall) hfirst _ _
  · exact (Mailbox.behind_write_of_full hall hempty _ _).write _ _

/-! ### Bytes for the mouse -/

/-- Bytes that leave the settings of the controller as they are. -/
def ForMouse (bytes : List Ps2Write) : Prop :=
  ∀ d : Ps2Devices, (d.receiveAll bytes).settings = d.settings

theorem receiveAll_append (bytes bytes' : List Ps2Write) (d : Ps2Devices) :
    d.receiveAll (bytes ++ bytes') = (d.receiveAll bytes).receiveAll bytes' :=
  List.foldl_append

theorem forMouse_append {bytes bytes' : List Ps2Write} (hfirst : ForMouse bytes)
    (hsecond : ForMouse bytes') : ForMouse (bytes ++ bytes') := by
  intro d
  calc (d.receiveAll (bytes ++ bytes')).settings
      = ((d.receiveAll bytes).receiveAll bytes').settings := by rw [receiveAll_append]
    _ = (d.receiveAll bytes).settings := hsecond _
    _ = d.settings := hfirst d

theorem forMouse_write (data : UInt8) :
    ForMouse [⟨ps2CommandPort, ps2WriteToMouse⟩, ⟨ps2DataPort, data⟩] := by
  intro d
  rfl

/-- From `s` to `s'`, only bytes for the mouse are written, and none of them is overwritten. -/
structure Addresses (s s' : Ps2) : Prop where
  delivers : ∃ bytes, Delivers s bytes s' ∧ ForMouse bytes
  remaining_lt : s'.input.remaining < ps2Timeout

namespace Addresses

theorem refl (hlt : s.input.remaining < ps2Timeout) : Addresses s s :=
  ⟨⟨[], Delivers.refl s, fun _ => rfl⟩, hlt⟩

theorem append {bytes : List Ps2Write} (haddresses : Addresses s s')
    (hdelivers : Delivers s' bytes s'') (hmouse : ForMouse bytes)
    (hlt : s''.input.remaining < ps2Timeout) : Addresses s s'' := by
  obtain ⟨⟨before, hbefore, hmouse'⟩, -⟩ := haddresses
  exact ⟨⟨before ++ bytes, hbefore.trans hdelivers, forMouse_append hmouse' hmouse⟩, hlt⟩

theorem sendToMouse (haddresses : Addresses s s') (data : UInt8) :
    Addresses s (s'.sendToMouse controller data) :=
  haddresses.append
    ((delivers_guarded haddresses.remaining_lt _ _).trans
      (delivers_guarded (remaining_outb_lt _ _ _) _ _))
    (forMouse_write data) (remaining_outb_lt _ _ _)

theorem answers (haddresses : Addresses s s') (expected : UInt8) :
    Addresses s (s'.answers controller expected).2 :=
  haddresses.append (delivers_answers expected s') (fun _ => rfl)
    (answers_keeps kept_remaining_lt.access expected haddresses.remaining_lt)

theorem mouseWriteFor (haddresses : Addresses s s') (data : UInt8) (left : Nat) :
    Addresses s (s'.mouseWriteFor controller data left).2 := by
  induction left generalizing s' with
  | zero => exact haddresses
  | succ left ih =>
      rw [mouseWriteFor_succ]
      split_ifs
      · exact (haddresses.sendToMouse data).answers mouseAck
      · exact ih ((haddresses.sendToMouse data).answers mouseAck)

theorem mouseWrite (haddresses : Addresses s s') (data : UInt8) :
    Addresses s (s'.mouseWrite controller data).2 :=
  haddresses.mouseWriteFor data ps2Retries

theorem mouseWrites (haddresses : Addresses s s') (bytes : List UInt8) :
    Addresses s (s'.mouseWrites controller bytes) := by
  induction bytes generalizing s' with
  | nil => exact haddresses
  | cons data bytes ih => exact ih (haddresses.mouseWrite data)

theorem setUpMouse (hlt : s.input.remaining < ps2Timeout) :
    Addresses s (s.setUpMouse controller).2 := by
  have hpresent : Addresses s (s.mouseWrite controller mouseSetDefaults).2 :=
    (refl hlt).mouseWrite mouseSetDefaults
  simp only [Ps2.setUpMouse]
  split_ifs
  · exact ((hpresent.mouseWrites _).answers mouseIdWheel).mouseWrite mouseEnableData
  · exact hpresent

end Addresses

/-! ### All of `mouse_init` -/

/-- The byte read as `config`, and the state after. -/
def configRead (controller : Ps2Controller) : UInt8 × Ps2 :=
  (start.disableDevices controller).readConfig controller

/-- The state before the devices are enabled. -/
def configWritten (controller : Ps2Controller) : Ps2 :=
  (configRead controller).2.writeConfig controller (modifiedConfig (configRead controller).1)

theorem mouseInit_eq (controller : Ps2Controller) :
    start.mouseInit controller
      = ((configWritten controller).enableDevices controller).setUpMouse controller := by
  rw [mouseInit]
  rfl

theorem remaining_disableDevices_lt (s : Ps2) :
    (s.disableDevices controller).input.remaining < ps2Timeout :=
  kept_remaining_lt.access _ (remaining_outb_lt _ _ _)

theorem remaining_configRead_lt (controller : Ps2Controller) :
    (configRead controller).2.input.remaining < ps2Timeout :=
  readConfig_keeps kept_remaining_lt (remaining_disableDevices_lt start)

theorem delivers_configRead (hdisable : controller.delay 0 = 0) :
    Delivers start
      [⟨ps2CommandPort, ps2DisableMouse⟩, ⟨ps2CommandPort, ps2DisableKeyboard⟩,
        ⟨ps2CommandPort, ps2ReadConfig⟩]
      (configRead controller).2 := by
  have hdisabled : Delivers start
      [⟨ps2CommandPort, ps2DisableMouse⟩, ⟨ps2CommandPort, ps2DisableKeyboard⟩]
      (start.disableDevices controller) :=
    (delivers_pair rfl hdisable _ _ _ _).trans (delivers_inb _ _)
  exact hdisabled.trans (delivers_readConfig (remaining_disableDevices_lt start))

/-- The writes until `config` is stored. -/
def configWrites (config : UInt8) : List Ps2Write :=
  [⟨ps2CommandPort, ps2DisableMouse⟩, ⟨ps2CommandPort, ps2DisableKeyboard⟩,
    ⟨ps2CommandPort, ps2ReadConfig⟩, ⟨ps2CommandPort, ps2WriteConfig⟩, ⟨ps2DataPort, config⟩]

def enableWrites : List Ps2Write :=
  [⟨ps2CommandPort, ps2EnableKeyboard⟩, ⟨ps2CommandPort, ps2EnableMouse⟩]

theorem delivers_configWritten (hdisable : controller.delay 0 = 0) :
    Delivers start (configWrites (modifiedConfig (configRead controller).1))
      (configWritten controller) :=
  (delivers_configRead hdisable).trans (delivers_writeConfig (remaining_configRead_lt controller) _)

theorem length_sent_configWritten (hdisable : controller.delay 0 = 0) :
    (configWritten controller).input.sent.length = 5 := by
  rw [(delivers_configWritten hdisable).sent]
  rfl

theorem remaining_configWritten (hdisable : controller.delay 0 = 0) :
    (configWritten controller).input.remaining = controller.delay 4 := by
  have hlength : (configRead controller).2.input.sent.length = 3 := by
    rw [(delivers_configRead hdisable).sent]
    rfl
  rw [configWritten, remaining_writeConfig, hlength]

theorem delivers_enableDevices (hdisable : controller.delay 0 = 0)
    (hconfig : controller.delay 4 = 0) (henable : controller.delay 5 = 0) :
    Delivers start (configWrites (modifiedConfig (configRead controller).1) ++ enableWrites)
      ((configWritten controller).enableDevices controller) := by
  have hempty : (configWritten controller).input.remaining = 0 :=
    (remaining_configWritten hdisable).trans hconfig
  have hdelay : controller.delay (configWritten controller).input.sent.length = 0 := by
    rw [length_sent_configWritten hdisable, henable]
  exact (delivers_configWritten hdisable).trans (delivers_pair hempty hdelay _ _ _ _)

theorem settings_enableDevices (config : UInt8) (before : Ps2Devices) :
    (before.receiveAll (configWrites config ++ enableWrites)).settings
      = ⟨true, true, some config⟩ := rfl

/-- A byte is lost when the controller is not done with one of the three before the next write. -/
theorem behind_mouseInit (hlate : ¬(controller.delay 0 = 0 ∧ controller.delay 4 = 0
    ∧ controller.delay 5 = 0)) : (start.mouseInit controller).2.input.Behind := by
  rw [mouseInit_eq]
  apply setUpMouse_keeps kept_behind
  by_cases hdisable : controller.delay 0 = 0
  · apply behind_pair ((delivers_configWritten hdisable).inStep rfl)
    rw [remaining_configWritten hdisable, length_sent_configWritten hdisable]
    by_contra hboth
    rw [not_or, not_not, not_not] at hboth
    exact hlate ⟨hdisable, hboth⟩
  · apply enableDevices_keeps kept_behind
    apply writeConfig_keeps kept_behind
    apply readConfig_keeps kept_behind
    exact (behind_pair rfl (.inr hdisable) _ _ _ _).access

end Ps2

open Ps2

/-- Every byte that `mouse_init` writes is received, in order, both devices end up enabled, and the
modified configuration byte is the one stored. -/
def MouseInitDelivers (controller : Ps2Controller) : Prop :=
  let last := (start.mouseInit controller).2
  last.input.arrived = last.input.sent ∧
    ∀ before : Ps2Devices, (before.receiveAll last.input.arrived).settings
      = ⟨true, true, some (modifiedConfig (configRead controller).1)⟩

/-- The three writes without a wait before the next one have to be taken at once. -/
theorem mouseInit_delivers_iff (controller : Ps2Controller) :
    MouseInitDelivers controller
      ↔ controller.delay 0 = 0 ∧ controller.delay 4 = 0 ∧ controller.delay 5 = 0 := by
  constructor
  · rintro ⟨hall, -⟩
    by_contra hlate
    exact (behind_mouseInit hlate).ne hall
  · rintro ⟨hdisable, hconfig, henable⟩
    have henabled := delivers_enableDevices hdisable hconfig henable
    have hmouse : Addresses ((configWritten controller).enableDevices controller)
        (start.mouseInit controller).2 := by
      rw [mouseInit_eq]
      exact Addresses.setUpMouse (remaining_outb_lt _ _ _)
    obtain ⟨bytes, hbytes, hforMouse⟩ := hmouse.delivers
    have hall := henabled.trans hbytes
    refine ⟨hall.inStep rfl, fun before => ?_⟩
    have harrived : (start.mouseInit controller).2.input.arrived
        = configWrites (modifiedConfig (configRead controller).1) ++ enableWrites ++ bytes :=
      hall.arrived
    rw [harrived, receiveAll_append, hforMouse, settings_enableDevices]

/-- A controller that takes one access for each byte. -/
def slowController : Ps2Controller := ⟨fun _ => 1, fun _ => by decide, fun _ => 0, fun _ => 0⟩

theorem disable_mouse_lost : ¬MouseInitDelivers slowController := by
  rintro ⟨hall, -⟩
  have hbehind : (start.mouseInit slowController).2.input.Behind :=
    behind_mouseInit fun hdelays => Nat.one_ne_zero hdelays.1
  exact hbehind.ne hall

end KernelFromScratch
