import QccGui.Gui.Headers
import QccGui.Gui.Slots

/-!
# Slot codec

Frames of 96 slots, written slot by slot and read back.

* `QtrmSlot.fromBytes`, `parseRxFrame`: the readers; `buildTxFrame`: the writer.
* `QtrmSlot.kept`: what the constructor keeps of the fields that share a byte.
* `commandPacket`: the ten bytes of a command, which its slot is filled up from.
* `Targets`: one QTRM gets a packet, and every other one another.
* `frame_codecs`: full-size slots are read back in place, and every builder with a target puts its
  packet into the target's slot.
-/

namespace QccGui

open Lib

/-! ## Reading slots -/

/-- The five values of a channel. -/
def QtrmChannel.fromBytes (raw : Bytes) : QtrmChannel :=
  ⟨raw.getD 0 0, raw.getD 1 0, raw.getD 2 0, raw.getD 3 0, raw.getD 4 0⟩

/-- A full-size slot as it was read, with the number of its QTRM. -/
structure QtrmSlotRx where
  qtrmId : Nat
  slot : QtrmSlot
  checksumOk : Bool
  headerOk : Bool

namespace QtrmSlot

/-- The slot that the constructor makes: the two fields that share a byte are cut to four bits. -/
def kept (s : QtrmSlot) : QtrmSlot :=
  { s with ackType := s.ackType % 16, ackOnOff := s.ackOnOff % 16 }

/-- The slot in 30 bytes, unchecked. -/
def decode (raw : Bytes) : QtrmSlot :=
  { commandType := raw.getD 2 0, ackType := u8At raw 3 / 16 % 16, ackOnOff := u8At raw 3 % 16
    dwellId := raw.getD 4 0, frequencyId := raw.getD 5 0
    channels := fun i => .fromBytes (slice raw (9 + i.val * 5) 5) }

def fromBytes (qtrmId : Nat) (raw : Bytes) : Except FrameError QtrmSlotRx := do
  requireSize raw qtrmSlotSize "QTRM slot"
  return ⟨qtrmId, decode raw, xorSum (raw.take 29) = raw.getD 29 0, raw.getD 0 0 = 0xAA⟩

end QtrmSlot

/-! ## Reading and writing frames -/

def buildTxFrame (slots : Qtrm → QtrmSlot) : Bytes :=
  slotFrame (zeros headerSize) fun i => (slots i).toBytes

def parseRxFrame (raw : Bytes) : Except FrameError (QccHeaderTx × List QtrmSlotRx) := do
  requireSize raw totalPacketSize "response frame"
  let qccHeader ← QccHeaderTx.fromBytes (raw.take headerSize)
  let qtrmSlots ← (List.finRange 96).mapM fun i => QtrmSlot.fromBytes (i.val + 1) (responseSlot raw i)
  return (qccHeader, qtrmSlots)

theorem take_slotFrame {header : Bytes} {slot : Qtrm → Bytes} (hh : header.length = headerSize) :
    (slotFrame header slot).take headerSize = header := by
  rw [slotFrame, List.take_left' hh]

/-! ## Full-size slots -/

namespace QtrmSlot

variable (s : QtrmSlot)

/-- The bytes of a slot before its channels. -/
def front : Bytes :=
  [0xAA, qtrmPacketSizeId, s.commandType, byte (s.ackType % 16 * 16 + s.ackOnOff % 16), s.dwellId,
    s.frequencyId, 0, 0, 0]

/-- The bytes of the four channels. -/
def block : Bytes := (List.finRange 4).flatMap fun i => (s.channels i).toBytes

theorem toBytes_eq : s.toBytes = sealed (s.front ++ s.block) := rfl

theorem toBytes_length : s.toBytes.length = qtrmSlotSize := by
  rw [toBytes_eq, sealed_length, List.length_append, block, List.length_flatMap]
  rfl

/-- The channels follow the front of a slot, five bytes each. -/
theorem slice_toBytes (i : Fin 4) : slice s.toBytes (9 + i.val * 5) 5 = (s.channels i).toBytes := by
  have hi := i.isLt
  have hfront : s.front.length = 9 := rfl
  have hblock : s.block.length = 20 := rfl
  have hch : ∀ i, ((s.channels i).toBytes).length = 5 := fun _ => rfl
  rw [toBytes_eq, sealed, slice_append_left (by rw [List.length_append]; omega),
    slice_append_right (by omega), hfront, Nat.add_sub_cancel_left, block,
    slice_flatMap hch i le_rfl, List.take_of_length_le (hch i).le]

theorem decode_toBytes : decode s.toBytes = s.kept := by
  have hch : (fun i : Fin 4 => QtrmChannel.fromBytes (slice s.toBytes (9 + i.val * 5) 5)) =
      s.channels := by
    funext i
    rw [slice_toBytes]
    rfl
  have hbyte : u8At s.toBytes 3 = (s.ackType % 16 * 16 + s.ackOnOff % 16) % 256 := byte_toNat _
  rw [decode, hch, hbyte]
  unfold kept
  congr 1 <;> omega

/-- What is read of a slot that was written. -/
theorem fromBytes_toBytes (qtrmId : Nat) :
    fromBytes qtrmId s.toBytes = .ok ⟨qtrmId, s.kept, true, true⟩ := by
  have hl : (s.front ++ s.block).length = 29 := rfl
  have hchk : xorSum (s.toBytes.take 29) = s.toBytes.getD 29 0 := check_sealed hl
  have hheader : s.toBytes.getD 0 0 = 0xAA := rfl
  rw [fromBytes, requireSize_eq_ok.2 s.toBytes_length, decode_toBytes, decide_eq_true hchk,
    decide_eq_true hheader]
  rfl

end QtrmSlot

/-- What is read of a frame of full-size slots. -/
theorem parseRxFrame_slotFrame {header : Bytes} (hh : header.length = headerSize)
    (slots : Qtrm → QtrmSlot) :
    parseRxFrame (slotFrame header fun i => (slots i).toBytes) =
      .ok (QccHeaderTx.decode header,
        (List.finRange 96).map fun i => ⟨i.val + 1, (slots i).kept, true, true⟩) := by
  have hs : ∀ i, ((slots i).toBytes).length = qtrmSlotSize := fun i => (slots i).toBytes_length
  have hread : ∀ i : Qtrm, QtrmSlot.fromBytes (i.val + 1)
      (responseSlot (slotFrame header fun i => (slots i).toBytes) i) =
        pure ⟨i.val + 1, (slots i).kept, true, true⟩ := by
    intro i
    rw [responseSlot_slotFrame hh hs]
    exact (slots i).fromBytes_toBytes _
  simp only [parseRxFrame, hread, List.mapM_pure, take_slotFrame hh, QccHeaderTx.fromBytes,
    requireSize_eq_ok.2 hh, requireSize_eq_ok.2 (slotFrame_length hh hs)]
  rfl

/-! ## Commands for one QTRM -/

/-- The ten bytes of a command. -/
def commandPacket (commandType : UInt8) (statusType : Nat) (payload : Bytes := [])
    (subStatusType : Nat := 0) : Bytes :=
  sealed ([0xAA, 0x00, commandType, byte (subStatusType % 16 * 16 + statusType % 16), 0x00] ++
    ljust 4 payload)

section

variable {commandType : UInt8} {statusType subStatusType : Nat} {payload : Bytes}

theorem commandPacket_length :
    (commandPacket commandType statusType payload subStatusType).length = rpInnerCmdSize := by
  rw [commandPacket, sealed_length, List.length_append, ljust_length]
  rfl

/-- A slot is its packet, filled up with zeros. -/
theorem buildStatusFamilySlot_eq (h : payload.length ≤ 4) :
    buildStatusFamilySlot commandType statusType payload subStatusType =
      commandPacket commandType statusType payload subStatusType ++
        zeros (qtrmSlotSize - rpInnerCmdSize) := by
  let front : Bytes := [0xAA, 0x00, commandType, byte (subStatusType % 16 * 16 + statusType % 16), 0x00]
  have hzeros : zeros (25 - payload.length) = zeros (4 - payload.length) ++ ([0] ++ zeros 20) := by
    rw [zeros, zeros, zeros, ← List.replicate_one, List.replicate_append_replicate,
      List.replicate_append_replicate]
    congr 1
    omega
  have hbody : front ++ payload ++ zeros (25 - payload.length) =
      (front ++ ljust 4 payload) ++ ([0] ++ zeros 20) := by
    rw [hzeros, ljust, List.take_of_length_le h, List.append_assoc, List.append_assoc,
      List.append_assoc]
  have h9 : (front ++ ljust 4 payload).length = 9 := by
    rw [List.length_append, ljust_length]
    rfl
  have hdrop : (front ++ ljust 4 payload ++ ([0] ++ zeros 20)).drop 10 = zeros 20 := by
    rw [← List.append_assoc, List.drop_left' (by rw [List.length_append, h9]; rfl)]
  unfold buildStatusFamilySlot
  change (front ++ payload ++ zeros (25 - payload.length)).take 9 ++ _ ++
    (front ++ payload ++ zeros (25 - payload.length)).drop 10 = _
  rw [hbody, hdrop, List.take_left' h9]
  rfl

end

/-- The frame `raw` has the header `header`, and in its slots the packet `command` for QTRM `t` and
the packet `other` for every other one, each filled up with zeros. -/
structure Targets (raw header : Bytes) (t : Qtrm) (command other : Bytes) : Prop where
  header : raw.take headerSize = header
  packets : extractRpSlots raw = .ok fun i => if i = t then command else other
  slots : ∀ i, responseSlot raw i =
    (if i = t then command else other) ++ zeros (qtrmSlotSize - rpInnerCmdSize)

/-- The packet of a slot that has no command. -/
theorem zeros_slot : zeros qtrmSlotSize = zeros rpInnerCmdSize ++ zeros (qtrmSlotSize - rpInnerCmdSize) :=
  rfl

/-- A frame of two packets, each filled up to a slot. -/
theorem targets_targetFrame {header slot rest command other : Bytes} {t : Qtrm}
    (hh : header.length = headerSize) (hc : command.length = rpInnerCmdSize)
    (ho : other.length = rpInnerCmdSize)
    (hslot : slot = command ++ zeros (qtrmSlotSize - rpInnerCmdSize))
    (hrest : rest = other ++ zeros (qtrmSlotSize - rpInnerCmdSize)) :
    Targets (targetFrame header (some t) slot rest) header t command other := by
  have hframe : targetFrame header (some t) slot rest = slotFrame header fun i =>
      (if i = t then command else other) ++ zeros (qtrmSlotSize - rpInnerCmdSize) := by
    rw [targetFrame, hslot, hrest]
    congr 1
    funext i
    by_cases hi : i = t
    · simp [hi]
    · simp [hi, Ne.symm hi]
  have hpacket : ∀ i : Qtrm, (if i = t then command else other).length = rpInnerCmdSize := by
    intro i
    split
    · exact hc
    · exact ho
  have hs : ∀ i : Qtrm, ((if i = t then command else other) ++
      zeros (qtrmSlotSize - rpInnerCmdSize)).length = qtrmSlotSize := by
    intro i
    rw [List.length_append, hpacket, zeros_length]
    rfl
  rw [hframe]
  refine ⟨take_slotFrame hh, ?_, responseSlot_slotFrame hh hs⟩
  rw [extractRpSlots_ok (slotFrame_length hh hs)]
  congr 1
  funext i
  rw [rpSlot_slotFrame hh hs, List.take_left' (hpacket i)]

theorem broadcastBootloaderFrame_one (header innerCmd : Bytes) (t : Qtrm) :
    broadcastBootloaderFrame header innerCmd (.one t) =
      targetFrame header (some t) (innerCmd ++ zeros (qtrmSlotSize - rpInnerCmdSize))
        (zeros qtrmSlotSize) := by
  rw [broadcastBootloaderFrame, targetFrame]
  congr 1
  funext i
  simp [Target.includes, eq_comm]

/-! ## The codec -/

/-- Full-size slots are read back in place, and every builder with a target puts its packet into the
slot of the target, with the other slots as documented. -/
theorem frame_codecs :
    (∀ slots : Qtrm → QtrmSlot, parseRxFrame (buildTxFrame slots) =
      .ok (QccHeaderTx.decode (zeros headerSize),
        (List.finRange 96).map fun i => ⟨i.val + 1, (slots i).kept, true, true⟩)) ∧
    ∀ header : Bytes, header.length = headerSize →
      (∀ channels, parseRxFrame (buildDwellFrame channels header) =
        .ok (QccHeaderTx.decode header, (List.finRange 96).map fun i =>
          ⟨i.val + 1,
            { commandType := cmdDwell, ackOnOff := statusTypeLink, channels := channels i },
            true, true⟩)) ∧
      ∀ t : Qtrm,
        (∀ statusType sub beam, Targets (buildStatusFrame statusType (some t) sub beam header) header t
          (commandPacket cmdStatus statusType [byte beam] sub) (zeros rpInnerCmdSize)) ∧
        Targets (buildIndividualLinkFrame t header) header t
          (commandPacket cmdStatus statusTypeLink) (zeros rpInnerCmdSize) ∧
        (∀ tx, Targets (buildIsolationFrame tx (some t) header) header t
          (commandPacket (if tx then cmdTxIsolation else cmdRxIsolation) statusTypeLink)
          (zeros rpInnerCmdSize)) ∧
        Targets (buildSoftResetFrame (some t) header) header t
          (commandPacket cmdSoftReset statusTypeNone [0x01]) (zeros rpInnerCmdSize) ∧
        (∀ dataType payload memOp, payload.length ≤ 3 →
          Targets (buildMemoryWriteFrame dataType payload (some t) memOp header) header t
            (commandPacket cmdDataStorage statusTypeLink
              (byte (memOp % 16 * 16 + dataType % 16) :: payload)) (zeros rpInnerCmdSize)) ∧
        (∀ tx channel phase atten txOthers,
          Targets (buildCalFrame tx t channel phase atten txOthers header) header t
            (commandPacket (if tx then cmdTxCal else cmdRxCal) statusTypeLink
              [byte channel, byte (channel / 256), byte phase, byte atten])
            (commandPacket (if txOthers then cmdTxIsolation else cmdRxIsolation) statusTypeLink)) ∧
        ∀ innerCmd : Bytes, innerCmd.length = rpInnerCmdSize →
          Targets (broadcastBootloaderFrame header innerCmd (.one t)) header t innerCmd
            (zeros rpInnerCmdSize) := by
  refine ⟨fun slots => parseRxFrame_slotFrame (zeros_length _) slots, fun header hh => ⟨fun channels =>
    parseRxFrame_slotFrame hh fun i =>
      { commandType := cmdDwell, ackOnOff := statusTypeLink, channels := channels i },
    fun t => ?_⟩⟩
  have hzeros := zeros_length rpInnerCmdSize
  have hone : ∀ v : UInt8, [v].length ≤ 4 := fun _ => (by decide : 1 ≤ 4)
  refine ⟨fun statusType sub beam => ?_, ?_, fun tx => ?_, ?_, fun dataType payload memOp hp => ?_,
    fun tx channel phase atten txOthers => ?_, fun innerCmd hi => ?_⟩
  · exact targets_targetFrame hh commandPacket_length hzeros (buildStatusFamilySlot_eq (hone _))
      zeros_slot
  · exact targets_targetFrame hh commandPacket_length hzeros
      (buildStatusFamilySlot_eq (Nat.zero_le _)) zeros_slot
  · exact targets_targetFrame hh commandPacket_length hzeros
      (buildStatusFamilySlot_eq (Nat.zero_le _)) zeros_slot
  · exact targets_targetFrame hh commandPacket_length hzeros (buildStatusFamilySlot_eq (hone _))
      zeros_slot
  · exact targets_targetFrame hh commandPacket_length hzeros
      (buildStatusFamilySlot_eq (Nat.succ_le_succ hp)) zeros_slot
  · exact targets_targetFrame hh commandPacket_length commandPacket_length
      (buildStatusFamilySlot_eq le_rfl) (buildStatusFamilySlot_eq (Nat.zero_le _))
  · rw [broadcastBootloaderFrame_one]
    exact targets_targetFrame hh hi hzeros rfl zeros_slot

/-- A memory write of three bytes, a calibration frame and a bootloader command, for the same QTRM. -/
theorem frame_codecs_values :
    let header := zeros headerSize
    let t : Qtrm := 5
    (∀ channels, parseRxFrame (buildDwellFrame channels header) =
      .ok (QccHeaderTx.decode header, (List.finRange 96).map fun i =>
        ⟨i.val + 1,
          { commandType := cmdDwell, ackOnOff := statusTypeLink, channels := channels i },
          true, true⟩)) ∧
    Targets (buildMemoryWriteFrame 2 [1, 2, 3] (some t) 1 header) header t
      (commandPacket cmdDataStorage statusTypeLink [0x12, 1, 2, 3]) (zeros rpInnerCmdSize) ∧
    Targets (buildCalFrame true t 0x103 63 31 false header) header t
      (commandPacket cmdTxCal statusTypeLink [0x03, 0x01, 63, 31])
      (commandPacket cmdRxIsolation statusTypeLink) ∧
    Targets (broadcastBootloaderFrame header (commandPacket 0x30 0) (.one t)) header t
      (commandPacket 0x30 0) (zeros rpInnerCmdSize) := by
  intro header t
  obtain ⟨hdwell, htargets⟩ := frame_codecs.2 header (zeros_length _)
  obtain ⟨-, -, -, -, hmemory, hcal, hboot⟩ := htargets t
  exact ⟨hdwell, hmemory 2 [1, 2, 3] 1 (Nat.le_refl 3), hcal true 0x103 63 31 false,
    hboot (commandPacket 0x30 0) commandPacket_length⟩

end QccGui
