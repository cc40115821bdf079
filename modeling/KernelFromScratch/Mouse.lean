import KernelFromScratch.Library.Framing
import Mathlib.Data.BitVec
import Mathlib.Logic.Function.Basic

/-!
# The mouse

`mouse_interrupt_handler`: one byte an interrupt goes into the packet, and a complete packet of a
mouse with a wheel becomes at most one scancode. Spurious interrupts come in between, and bytes may
be lost.
-/

namespace KernelFromScratch

section Handler

/-- `PS2_STATUS_OUTPUT_FULL`. -/
def ps2StatusOutputFull : UInt8 := .ofNat (1 <<< 0)

/-- `PS2_STATUS_FROM_MOUSE`. -/
def ps2StatusFromMouse : UInt8 := .ofNat (1 <<< 5)

def mousePacketAlwaysOne : UInt8 := 0x08

def mouseWheelUpScancode : UInt8 := 0x48

def mouseWheelDownScancode : UInt8 := 0x50

/-- The static variables of `mouse.c`. -/
structure Mouse where
  hasScrollWheel : Bool
  cycle : UInt8
  packet : Nat → UInt8

/-- What the handler does besides reading the status port. -/
inductive MouseAction where
  | readData
  | writePacket (index : UInt8)
  | pushScancode (scancode : UInt8)
  deriving DecidableEq

/-- What the two ports hold at an interrupt. -/
structure MousePorts where
  status : UInt8
  data : UInt8

/-- `(int8_t) byte`. -/
def int8 (byte : UInt8) : Int := Int.bmod byte.toNat (2 ^ 8)

namespace Mouse

/-- The value of `has_scroll_wheel ? 4 : 3`. -/
def packetSize (m : Mouse) : Nat := if m.hasScrollWheel then 4 else 3

/-- The scancodes for a complete packet. -/
def pushWheel (m : Mouse) : List MouseAction :=
  if m.hasScrollWheel then
    let wheel := int8 (m.packet 3)
    if wheel < 0 then
      [.pushScancode mouseWheelUpScancode]
    else if 0 < wheel then
      [.pushScancode mouseWheelDownScancode]
    else
      []
  else
    []

/-- `mouse_interrupt_handler`. -/
def interruptHandler (ports : MousePorts) (m : Mouse) : Mouse × List MouseAction :=
  if ports.status &&& ps2StatusOutputFull = 0 ∨ ports.status &&& ps2StatusFromMouse = 0 then
    (m, [])
  else
    let read := [.readData, .writePacket m.cycle]
    let m := { m with packet := Function.update m.packet m.cycle.toNat ports.data }
    if m.cycle = 0 ∧ m.packet 0 &&& mousePacketAlwaysOne = 0 then
      (m, read)
    else
      let m := { m with cycle := m.cycle + 1 }
      if m.cycle.toNat < m.packetSize then
        (m, read)
      else
        let m := { m with cycle := 0 }
        (m, read ++ m.pushWheel)

/-- A run of interrupts, and what they do. -/
def handleAll : Mouse → List MousePorts → Mouse × List MouseAction
  | m, [] => (m, [])
  | m, ports :: rest =>
    let (next, actions) := m.interruptHandler ports
    let (last, actions') := handleAll next rest
    (last, actions ++ actions')

end Mouse

/-- The scancodes among the actions, which go to `keyboard_push_scancode`. -/
def MouseAction.scancodes (actions : List MouseAction) : List UInt8 :=
  actions.filterMap fun
    | .pushScancode scancode => some scancode
    | _ => none

end Handler

section Packets

/-- The status port shows a byte of the mouse. -/
def MousePorts.fromMouse (ports : MousePorts) : Bool :=
  ports.status &&& ps2StatusOutputFull ≠ 0 && ports.status &&& ps2StatusFromMouse ≠ 0

/-- The bytes that the mouse makes available. -/
def mouseBytes (interrupts : List MousePorts) : List UInt8 :=
  (interrupts.filter MousePorts.fromMouse).map MousePorts.data

def marksPacket (byte : UInt8) : Bool := byte &&& mousePacketAlwaysOne ≠ 0

/-- The scancodes a packet stands for. -/
def packetScancodes (hasScrollWheel : Bool) (packet : List UInt8) : List UInt8 :=
  let wheel := int8 (packet.getD 3 0)
  if !hasScrollWheel || wheel = 0 then [] else if wheel < 0 then [0x48] else [0x50]

end Packets

namespace Mouse

variable {m : Mouse} {ports : MousePorts}

/-- The state after the byte has gone into the packet. -/
def store (m : Mouse) (data : UInt8) : Mouse :=
  { m with packet := Function.update m.packet m.cycle.toNat data }

section Cases

theorem fromMouse_iff :
    ports.fromMouse = false
      ↔ ports.status &&& ps2StatusOutputFull = 0 ∨ ports.status &&& ps2StatusFromMouse = 0 := by
  rw [MousePorts.fromMouse, Bool.and_eq_false_iff, decide_eq_false_iff_not, decide_eq_false_iff_not,
    not_not, not_not]

/-- A spurious interrupt reads no data and changes nothing. -/
theorem interruptHandler_spurious (hspurious : ports.fromMouse = false) :
    m.interruptHandler ports = (m, []) := by
  rw [interruptHandler, if_pos (fromMouse_iff.mp hspurious)]

theorem marksPacket_iff {byte : UInt8} :
    marksPacket byte = false ↔ byte &&& mousePacketAlwaysOne = 0 := by
  rw [marksPacket, decide_eq_false_iff_not, not_not]

theorem interruptHandler_byte (hbyte : ports.fromMouse = true) :
    m.interruptHandler ports
      = if m.cycle = 0 ∧ marksPacket ports.data = false then
          (m.store ports.data, [.readData, .writePacket m.cycle])
        else if (m.cycle + 1).toNat < m.packetSize then
          ({ m.store ports.data with cycle := m.cycle + 1 }, [.readData, .writePacket m.cycle])
        else
          ({ m.store ports.data with cycle := 0 },
            [.readData, .writePacket m.cycle] ++ (m.store ports.data).pushWheel) := by
  have hread : ¬(ports.status &&& ps2StatusOutputFull = 0
      ∨ ports.status &&& ps2StatusFromMouse = 0) := by
    rw [← fromMouse_iff, hbyte]
    decide
  have hfirst : m.cycle = 0 ∧ (m.store ports.data).packet 0 &&& mousePacketAlwaysOne = 0
      ↔ m.cycle = 0 ∧ marksPacket ports.data = false := by
    rw [marksPacket_iff]
    refine and_congr_right fun hzero => ?_
    have hpacket : (m.store ports.data).packet 0 = ports.data := by
      rw [store, hzero]
      exact Function.update_self 0 ports.data m.packet
    rw [hpacket]
  rw [interruptHandler, if_neg hread]
  exact if_congr hfirst rfl rfl

end Cases

section Collecting

variable {collected : List UInt8}

/-- The packet holds the bytes that are collected. -/
structure Collects (m : Mouse) (collected : List UInt8) : Prop where
  cycle : m.cycle.toNat = collected.length
  short : collected.length < m.packetSize
  packet : ∀ i < collected.length, m.packet i = collected.getD i 0

theorem packetSize_le (m : Mouse) : m.packetSize ≤ 4 := by
  rw [packetSize]
  split_ifs <;> decide

theorem packetSize_pos (m : Mouse) : 0 < m.packetSize := by
  rw [packetSize]
  split_ifs <;> decide

theorem Collects.empty_iff (hcollects : m.Collects collected) :
    m.cycle = 0 ↔ collected = [] := by
  rw [← UInt8.toNat_inj, hcollects.cycle]
  exact List.length_eq_zero_iff

theorem Collects.cycle_succ (hcollects : m.Collects collected) :
    (m.cycle + 1).toNat = collected.length + 1 := by
  have hshort := hcollects.short
  have hsize := m.packetSize_le
  rw [UInt8.toNat_add, hcollects.cycle]
  change (collected.length + 1) % 2 ^ 8 = _
  exact Nat.mod_eq_of_lt (by omega)

/-- The byte is stored after those that are collected. -/
theorem Collects.store (hcollects : m.Collects collected) (data : UInt8) :
    ∀ i < collected.length + 1, (m.store data).packet i = (collected ++ [data]).getD i 0 := by
  intro i hi
  rw [Mouse.store, hcollects.cycle]
  change Function.update m.packet collected.length data i = _
  by_cases hlast : i = collected.length
  · rw [hlast, Function.update_self, List.getD_eq_getElem?_getD, List.getElem?_concat_length,
      Option.getD_some]
  · have hlt : i < collected.length := by omega
    rw [Function.update_of_ne hlast, List.getD_eq_getElem?_getD, List.getElem?_append_left hlt,
      ← List.getD_eq_getElem?_getD]
    exact hcollects.packet i hlt

theorem pushWheel_eq {packet : List UInt8} (hpacket : m.hasScrollWheel = true →
    m.packet 3 = packet.getD 3 0) :
    MouseAction.scancodes m.pushWheel = packetScancodes m.hasScrollWheel packet := by
  rw [pushWheel, packetScancodes]
  cases hwheel : m.hasScrollWheel with
  | false => rfl
  | true =>
      rw [hpacket hwheel]
      generalize int8 (packet.getD 3 0) = wheel
      rw [if_pos rfl, Bool.not_true, Bool.false_or]
      by_cases hzero : wheel = 0
      · rw [hzero]
        rfl
      rw [decide_eq_false hzero, if_neg Bool.false_ne_true]
      by_cases hneg : wheel < 0
      · rw [if_pos hneg, if_pos hneg]
        rfl
      · have hpos : 0 < wheel := by omega
        rw [if_neg hneg, if_neg hneg, if_pos hpos]
        rfl

/-- One byte of the mouse is collected, and a packet that it completes becomes its scancodes. -/
theorem interruptHandler_collects (hcollects : m.Collects collected)
    (hbyte : ports.fromMouse = true) :
    (m.interruptHandler ports).1.Collects
        (collect m.packetSize marksPacket collected ports.data).1
      ∧ (m.interruptHandler ports).1.hasScrollWheel = m.hasScrollWheel
      ∧ MouseAction.scancodes (m.interruptHandler ports).2
        = (collect m.packetSize marksPacket collected ports.data).2.toList.flatMap
          (packetScancodes m.hasScrollWheel) := by
  rw [interruptHandler_byte hbyte]
  by_cases hdropped : m.cycle = 0 ∧ marksPacket ports.data = false
  · rw [if_pos hdropped]
    obtain ⟨hcycle, hunmarked⟩ := hdropped
    have hempty := hcollects.empty_iff.mp hcycle
    subst hempty
    rw [collect_unmarked hunmarked]
    exact ⟨⟨hcollects.cycle, hcollects.short, fun i hi => absurd hi (Nat.not_lt_zero i)⟩, rfl, rfl⟩
  rw [if_neg hdropped]
  have hmarked : collected = [] → marksPacket ports.data = true := by
    intro hempty
    by_contra hunmarked
    exact hdropped ⟨hcollects.empty_iff.mpr hempty, Bool.eq_false_iff.mpr hunmarked⟩
  rw [hcollects.cycle_succ]
  by_cases hshort : collected.length + 1 < m.packetSize
  · rw [if_pos hshort, collect_short hmarked hshort]
    have hlength : (collected ++ [ports.data]).length = collected.length + 1 := List.length_append
    refine ⟨⟨hcollects.cycle_succ.trans hlength.symm, ?_, ?_⟩, rfl, rfl⟩
    · rw [hlength]
      exact hshort
    · rw [hlength]
      exact hcollects.store ports.data
  · rw [if_neg hshort, collect_full hmarked (Nat.le_of_not_lt hshort)]
    refine ⟨⟨rfl, m.packetSize_pos, fun i hi => absurd hi (Nat.not_lt_zero i)⟩, rfl, ?_⟩
    have hlast : m.hasScrollWheel = true →
        (m.store ports.data).packet 3 = (collected ++ [ports.data]).getD 3 0 := by
      intro hwheel
      have hsize : m.packetSize = 4 := by rw [packetSize, if_pos hwheel]
      exact hcollects.store ports.data 3 (by omega)
    change MouseAction.scancodes (m.store ports.data).pushWheel = _
    rw [pushWheel_eq hlast, Option.toList_some, List.flatMap_singleton]
    rfl

theorem handleAll_cons (m : Mouse) (ports : MousePorts) (rest : List MousePorts) :
    m.handleAll (ports :: rest)
      = (((m.interruptHandler ports).1.handleAll rest).1,
        (m.interruptHandler ports).2 ++ ((m.interruptHandler ports).1.handleAll rest).2) := rfl

/-- Over a run the bytes of the mouse are collected, and spurious interrupts change nothing. -/
theorem handleAll_collects (hcollects : m.Collects collected) (interrupts : List MousePorts) :
    (m.handleAll interrupts).1.Collects
        (collectAll m.packetSize marksPacket collected (mouseBytes interrupts)).1
      ∧ (m.handleAll interrupts).1.hasScrollWheel = m.hasScrollWheel
      ∧ MouseAction.scancodes (m.handleAll interrupts).2
        = (collectAll m.packetSize marksPacket collected (mouseBytes interrupts)).2.flatMap
          (packetScancodes m.hasScrollWheel) := by
  induction interrupts generalizing m collected with
  | nil => exact ⟨hcollects, rfl, rfl⟩
  | cons ports interrupts ih =>
      rw [handleAll_cons]
      cases hbyte : ports.fromMouse with
      | false =>
          have hbytes : mouseBytes (ports :: interrupts) = mouseBytes interrupts := by
            rw [mouseBytes, List.filter_cons_of_neg (by rw [hbyte]; decide)]
            rfl
          rw [interruptHandler_spurious hbyte, hbytes]
          exact ih hcollects
      | true =>
          have hbytes : mouseBytes (ports :: interrupts) = ports.data :: mouseBytes interrupts := by
            rw [mouseBytes, List.filter_cons_of_pos hbyte]
            rfl
          obtain ⟨hnext, hwheel, hscancodes⟩ := interruptHandler_collects hcollects hbyte
          obtain ⟨hlast, hwheels, hrest⟩ := ih hnext
          have hsize : (m.interruptHandler ports).1.packetSize = m.packetSize := by
            rw [packetSize, hwheel, ← packetSize]
          rw [hsize] at hlast hrest
          rw [hbytes, collectAll_cons]
          refine ⟨hlast, hwheels.trans hwheel, ?_⟩
          rw [MouseAction.scancodes, List.filterMap_append, List.flatMap_append, ← hscancodes,
            ← hwheel, ← hrest]
          rfl

end Collecting

section Results

/-- The static variables at boot, after `mouse_init` has found a wheel or none. -/
def boot (hasScrollWheel : Bool) : Mouse := ⟨hasScrollWheel, 0, fun _ => 0⟩

theorem boot_collects (hasScrollWheel : Bool) : (boot hasScrollWheel).Collects [] :=
  ⟨rfl, packetSize_pos _, fun i hi => absurd hi (Nat.not_lt_zero i)⟩

/-- These bytes are a packet that starts with a marked byte. -/
def IsPacket (hasScrollWheel : Bool) (packet : List UInt8) : Prop :=
  packet.length = (if hasScrollWheel then 4 else 3) ∧ ∀ byte ∈ packet.head?, marksPacket byte = true

/-- At a packet boundary, packets are decoded one by one. -/
theorem handleAll_packets (hcollects : m.Collects []) {packets : List (List UInt8)}
    (hpackets : ∀ packet ∈ packets, IsPacket m.hasScrollWheel packet)
    {interrupts : List MousePorts} (hbytes : mouseBytes interrupts = packets.flatten) :
    MouseAction.scancodes (m.handleAll interrupts).2
      = packets.flatMap (packetScancodes m.hasScrollWheel) := by
  have hframes : collectAll m.packetSize marksPacket [] packets.flatten = ([], packets) :=
    collectAll_frames m.packetSize_pos hpackets
  obtain ⟨-, -, hscancodes⟩ := handleAll_collects hcollects interrupts
  rw [hscancodes, hbytes, hframes]

theorem writePacket_notMem_pushWheel (m : Mouse) (index : UInt8) :
    .writePacket index ∉ m.pushWheel := by
  rw [pushWheel]
  dsimp only
  split_ifs <;> simp

theorem write_index {index : UInt8} (hwrite : .writePacket index ∈ (m.interruptHandler ports).2) :
    index = m.cycle := by
  have hread : .writePacket index ∈ [MouseAction.readData, .writePacket m.cycle] →
      index = m.cycle := by
    intro hmem
    simpa using hmem
  cases hbyte : ports.fromMouse with
  | false =>
      rw [interruptHandler_spurious hbyte] at hwrite
      cases hwrite
  | true =>
      rw [interruptHandler_byte hbyte] at hwrite
      split_ifs at hwrite
      · exact hread hwrite
      · exact hread hwrite
      · rcases List.mem_append.mp hwrite with hwrite | hwrite
        · exact hread hwrite
        · exact absurd hwrite (writePacket_notMem_pushWheel _ index)

theorem write_lt (hcollects : m.Collects collected) {interrupts : List MousePorts} {index : UInt8}
    (hwrite : .writePacket index ∈ (m.handleAll interrupts).2) : index.toNat < m.packetSize := by
  induction interrupts generalizing m collected with
  | nil => cases hwrite
  | cons ports interrupts ih =>
      have hone : m.handleAll [ports] = ((m.interruptHandler ports).1, (m.interruptHandler ports).2) := by
        rw [handleAll_cons]
        exact congrArg _ (List.append_nil _)
      obtain ⟨hnext, hwheel, -⟩ := handleAll_collects hcollects [ports]
      rw [hone] at hnext hwheel
      rw [handleAll_cons] at hwrite
      rcases List.mem_append.mp hwrite with hwrite | hwrite
      · rw [write_index hwrite, hcollects.cycle]
        exact hcollects.short
      · have hlt := ih hnext hwrite
        rwa [packetSize, hwheel, ← packetSize] at hlt

/-- Packets become their scancodes in order, whatever spurious interrupts come in between; these read
and change nothing; and every write to the packet is inside it. -/
theorem packets_decoded (hasScrollWheel : Bool) :
    (∀ packets : List (List UInt8), (∀ packet ∈ packets, IsPacket hasScrollWheel packet) →
      ∀ interrupts, mouseBytes interrupts = packets.flatten →
        MouseAction.scancodes ((boot hasScrollWheel).handleAll interrupts).2
          = packets.flatMap (packetScancodes hasScrollWheel))
    ∧ (∀ (m : Mouse) (ports : MousePorts), ports.fromMouse = false →
        m.interruptHandler ports = (m, []))
    ∧ ∀ interrupts index, .writePacket index ∈ ((boot hasScrollWheel).handleAll interrupts).2 →
        index.toNat < if hasScrollWheel then 4 else 3 := by
  refine ⟨fun packets hpackets interrupts hbytes => ?_, fun m ports => interruptHandler_spurious,
    fun interrupts index hwrite => ?_⟩
  · exact handleAll_packets (boot_collects hasScrollWheel) hpackets hbytes
  · exact write_lt (boot_collects hasScrollWheel) hwrite

/-- Two packets with a spurious interrupt between their bytes: the wheel goes up, then down. -/
theorem packets_decoded_upDown :
    MouseAction.scancodes ((boot true).handleAll
      ([⟨0x21, 0x08⟩, ⟨0x21, 1⟩, ⟨0x00, 7⟩, ⟨0x21, 2⟩, ⟨0x21, 0xff⟩]
        ++ [⟨0x21, 0x28⟩, ⟨0x01, 9⟩, ⟨0x21, 0⟩, ⟨0x21, 0⟩, ⟨0x21, 0x01⟩])).2
      = [0x48, 0x50] :=
  (packets_decoded true).1 [[0x08, 1, 2, 0xff], [0x28, 0, 0, 0x01]] (by
    intro packet hpacket
    simp only [List.mem_cons, List.not_mem_nil, or_false] at hpacket
    obtain rfl | rfl := hpacket
    · refine ⟨rfl, fun byte hbyte => ?_⟩
      cases hbyte
      decide
    · refine ⟨rfl, fun byte hbyte => ?_⟩
      cases hbyte
      decide) _ (by decide)

theorem packetScancodes_length (hasScrollWheel : Bool) (packet : List UInt8) :
    (packetScancodes hasScrollWheel packet).length ≤ 1 := by
  rw [packetScancodes]
  split_ifs <;> simp

/-- Whatever the packet holds, its first bytes are collected. -/
theorem exists_collects (hcycle : m.cycle.toNat < m.packetSize) :
    ∃ collected, m.Collects collected := by
  have hlength : ((List.range m.cycle.toNat).map m.packet).length = m.cycle.toNat := by
    rw [List.length_map, List.length_range]
  refine ⟨(List.range m.cycle.toNat).map m.packet, hlength.symm, ?_, fun i hi => ?_⟩
  · rwa [hlength]
  · rw [hlength] at hi
    rw [List.getD_eq_getElem?_getD, List.getElem?_map, List.getElem?_range hi, Option.map_some,
      Option.getD_some]

/-- A decoder at any misalignment is back at the start of a packet after one packet with a single
marked byte, emits at most one scancode for it, and decodes what follows like a fresh one. -/
theorem resynchronizes {m : Mouse} (hcycle : m.cycle.toNat < m.packetSize) {first : UInt8}
    {rest : List UInt8} (hfirst : marksPacket first = true)
    (hrest : ∀ byte ∈ rest, marksPacket byte = false) (hlength : (first :: rest).length = m.packetSize)
    {interrupts : List MousePorts} (hbytes : mouseBytes interrupts = first :: rest) :
    (m.handleAll interrupts).1.cycle = 0
      ∧ (MouseAction.scancodes (m.handleAll interrupts).2).length ≤ 1
      ∧ ∀ packets : List (List UInt8), (∀ packet ∈ packets, IsPacket m.hasScrollWheel packet) →
        ∀ later, mouseBytes later = packets.flatten →
          MouseAction.scancodes ((m.handleAll interrupts).1.handleAll later).2
            = MouseAction.scancodes ((boot m.hasScrollWheel).handleAll later).2 := by
  obtain ⟨collected, hcollects⟩ := exists_collects hcycle
  obtain ⟨frame, hframe⟩ := collectAll_resync hcollects.short hfirst hrest hlength
  obtain ⟨hnext, hwheel, hscancodes⟩ := handleAll_collects hcollects interrupts
  rw [hbytes, hframe] at hnext hscancodes
  refine ⟨hnext.empty_iff.mpr rfl, ?_, fun packets hpackets later hlater => ?_⟩
  · rw [hscancodes, List.flatMap_singleton]
    exact packetScancodes_length m.hasScrollWheel frame
  · rw [← hwheel] at hpackets
    rw [handleAll_packets hnext hpackets hlater, hwheel]
    rw [hwheel] at hpackets
    exact (handleAll_packets (boot_collects m.hasScrollWheel) hpackets hlater).symm

/-- The last byte of a packet is missing: the packet after it realigns the decoder. -/
theorem resynchronizes_three :
    (({ boot true with cycle := 3 } : Mouse).handleAll
      [⟨0x21, 0x08⟩, ⟨0x21, 0⟩, ⟨0x21, 0⟩, ⟨0x21, 0x01⟩]).1.cycle = 0 := by
  have hfirst : marksPacket 0x08 = true := by decide
  have hrest : ∀ byte ∈ ([0, 0, 0x01] : List UInt8), marksPacket byte = false := by
    intro byte hbyte
    simp only [List.mem_cons, List.not_mem_nil, or_false] at hbyte
    obtain rfl | rfl | rfl := hbyte <;> decide
  exact (resynchronizes (by decide) hfirst hrest rfl (by decide)).1

end Results

end Mouse

end KernelFromScratch
