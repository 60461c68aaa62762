import QccGui.Lib.Bytes
import Mathlib.Algebra.BigOperators.Group.List.Basic

/-!
# Frames between the GUI and the QCC

The 90 byte headers of both directions, the header settings with their message counter, and the
frame shapes of the Remote Programming session.

* `QccHeaderRx`, `RcSettings.buildHeader`: the header of a command.
* `QccHeaderTx`: the header of a response.
* `messageNumber`: the message number in a frame's header.
* `remoteProgrammingFrame`, `remoteProgrammingCmdFrame`, `qccLevelFrame`,
  `broadcastBootloaderFrame`, `headerOnlyFrame`: the frames; `extractRpSlots`: the slots of a
  response.
-/

namespace QccGui

open Lib

/-! ## Sizes -/

def headerSize : Nat := 32 + 58
def qtrmSlotSize : Nat := 30
def numQtrm : Nat := 96
def qtrmBlockSize : Nat := qtrmSlotSize * numQtrm
def totalPacketSize : Nat := headerSize + qtrmBlockSize
def rpPayloadSize : Nat := 4096
def rpInnerCmdSize : Nat := 10
def rpFrameSize : Nat := headerSize + rpPayloadSize + rpInnerCmdSize
def rpCmdFrameSize : Nat := headerSize + rpInnerCmdSize
def chipIdResponseSize : Nat := 10

/-- The sizes of the frames that the worker passes on. -/
def Forwarded (raw : Bytes) : Prop :=
  raw.length = totalPacketSize ∨ raw.length = headerSize ∨ raw.length = chipIdResponseSize

/-- The index of a QTRM. -/
abbrev Qtrm := Fin 96

/-- A frame that does not match the layout it is parsed as. -/
structure FrameError where
  message : String
  deriving DecidableEq, Repr

def requireSize (raw : Bytes) (expected : Nat) (what : String) : Except FrameError Unit :=
  if raw.length ≠ expected then
    .error ⟨s!"expected a {expected}-byte {what}, got {raw.length} bytes"⟩
  else .ok ()

/-! ## CRC-8 -/

/-- An entry of the CRC-8 table: eight shifts with the polynomial 0x07. -/
def crc8Entry (c : UInt8) : UInt8 :=
  (List.range 8).foldl (fun c _ => if c &&& 0x80 ≠ 0 then (c <<< 1) ^^^ 0x07 else c <<< 1) c

def crc8 (data : Bytes) : UInt8 := data.foldl (fun crc b => crc8Entry (crc ^^^ b)) 0

/-! ## Reading fields -/

def u8At (raw : Bytes) (i : Nat) : Nat := (raw.getD i 0).toNat

def u16At (raw : Bytes) (i : Nat) : Nat := word16 (raw.getD i 0) (raw.getD (i + 1) 0)

def u32At (raw : Bytes) (i : Nat) : Nat := u16At raw i + 65536 * u16At raw (i + 2)

/-- The message number in a frame's header. -/
def messageNumber (raw : Bytes) : Nat := u32At raw 6

/-! ## Command headers -/

/-- The header of a command, RC to QCC. -/
structure QccHeaderRx where
  destinationId : Nat
  sourceId : Nat
  packetSize : Nat := totalPacketSize
  echoByte : Nat := 0
  commandAck : Nat := 0
  messageNumber : Nat
  date : Nat
  month : Nat
  year : Nat
  timeOfDay : Nat
  reserved0 : Bytes
  qccCommand : Nat
  messageBody : Bytes

namespace QccHeaderRx

def bodyBytes (h : QccHeaderRx) : Bytes :=
  [byte h.destinationId, byte h.sourceId] ++ le16 h.packetSize ++
    [byte h.echoByte, byte h.commandAck] ++ le32 h.messageNumber ++ [byte h.date, byte h.month] ++
    le16 h.year ++ le32 h.timeOfDay ++ ljust 14 h.reserved0 ++ [byte h.qccCommand] ++
    ljust 56 h.messageBody

def toBytes (h : QccHeaderRx) : Bytes := h.bodyBytes ++ [crc8 h.bodyBytes]

@[simp] theorem toBytes_length (h : QccHeaderRx) : h.toBytes.length = headerSize := by
  simp [toBytes, bodyBytes, headerSize]

theorem messageNumber_toBytes (h : QccHeaderRx) (rest : Bytes) :
    QccGui.messageNumber (h.toBytes ++ rest) = h.messageNumber % 2 ^ 32 := by
  simp only [QccGui.messageNumber, u32At, u16At, toBytes, bodyBytes, le32, le16, List.cons_append,
    List.nil_append, List.getD_cons_succ, List.getD_cons_zero, word16_eq, byte_toNat]
  omega

end QccHeaderRx

/-- The header fields that the operator sets once, and the running message counter. -/
structure RcSettings where
  destinationId : Nat := 1
  sourceId : Nat := 2
  date : Nat
  month : Nat
  year : Nat
  timeOfDay : Nat
  reserved0 : Bytes := zeros 14
  messageNumber : Nat := 0

namespace RcSettings

/-- `build_header`: the header bytes, and the settings with the message number counted up. -/
def buildHeader (rc : RcSettings) (commandId : Nat) (messageBody : Bytes := [])
    (packetSize : Nat := totalPacketSize) : Bytes × RcSettings :=
  let rc := { rc with messageNumber := rc.messageNumber + 1 }
  let h : QccHeaderRx :=
    { destinationId := rc.destinationId % 256, sourceId := rc.sourceId % 256
      packetSize := packetSize % 65536, messageNumber := rc.messageNumber % 2 ^ 32
      date := rc.date % 256, month := rc.month % 256, year := rc.year % 65536
      timeOfDay := rc.timeOfDay % 2 ^ 32, reserved0 := ljust 14 rc.reserved0
      qccCommand := commandId % 256, messageBody := ljust 56 messageBody }
  (h.toBytes, rc)

variable (rc : RcSettings) (cmd : Nat) (body : Bytes) (size : Nat)

@[simp] theorem buildHeader_length : (rc.buildHeader cmd body size).1.length = headerSize :=
  QccHeaderRx.toBytes_length _

/-- Every header carries the number after the one before it. -/
theorem messageNumber_buildHeader (rest : Bytes) :
    QccGui.messageNumber ((rc.buildHeader cmd body size).1 ++ rest) =
      (rc.messageNumber + 1) % 2 ^ 32 := by
  rw [buildHeader]
  dsimp only
  rw [QccHeaderRx.messageNumber_toBytes, Nat.mod_mod]

@[simp] theorem buildHeader_messageNumber :
    (rc.buildHeader cmd body size).2.messageNumber = rc.messageNumber + 1 := rfl

end RcSettings

/-- Values of the header's command field. -/
def commandIdDataDistribution : Nat := 0x00
def commandIdQccStatus : Nat := 0x01
def commandIdQccReset : Nat := 0x02
def commandIdPrtBypass : Nat := 0x03
def commandIdSobBypass : Nat := 0x04
def commandIdPrtInternalGen : Nat := 0x05
def commandIdSobInternalGen : Nat := 0x06
def commandIdPpsInternalGen : Nat := 0x07
def commandIdChipIdRead : Nat := 0x08
def commandIdRemoteProgramming : Nat := 0xFF

/-! ## Response headers -/

/-- The header of a response, QCC to RC. -/
structure QccHeaderTx where
  destinationId : Nat
  sourceId : Nat
  packetSize : Nat
  echoByte : Nat
  commandAck : Nat
  messageNumber : Nat
  date : Nat
  month : Nat
  year : Nat
  timeOfDay : Nat
  qccQueryCount : Nat
  qccResponseCount : Nat
  applicationFirmwareVersion : Nat
  rtlFirmwareVersion : Nat
  qccCommand : Nat
  fpgaTemperature : Int
  boardTemperature : Nat
  boardHumidity : Nat
  inputSobCount : Nat
  inputPrtCount : Nat
  inputPpsCount : Nat
  outputPrtCount : Nat
  outputSobCount : Nat
  inputSobWidthUs : Nat
  outputSobWidthUs : Nat
  inputPrtWidthUs : Nat
  outputPrtWidthUs : Nat
  inputPrtPri : Nat
  outputPrtPri : Nat
  inputPpsWidthUs : Nat
  ppsTimestamp : Nat
  generatorStatus : Nat
  dipSwitch : Nat
  checksumOk : Bool

namespace QccHeaderTx

def bodyBytes (h : QccHeaderTx) : Bytes :=
  [byte h.destinationId, byte h.sourceId] ++ le16 h.packetSize ++
    [byte h.echoByte, byte h.commandAck] ++ le32 h.messageNumber ++ [byte h.date, byte h.month] ++
    le16 h.year ++ le32 h.timeOfDay ++ le32 h.qccQueryCount ++ le32 h.qccResponseCount ++
    [byte h.applicationFirmwareVersion, byte h.rtlFirmwareVersion] ++ zeros 3 ++
    [0, byte h.qccCommand] ++ le16 (h.fpgaTemperature % 1024).toNat ++ le16 h.boardTemperature ++
    le16 h.boardHumidity ++ le32 h.inputSobCount ++ le32 h.inputPrtCount ++ le32 h.inputPpsCount ++
    le32 h.outputPrtCount ++ le32 h.outputSobCount ++ le16 h.inputSobWidthUs ++
    le16 h.outputSobWidthUs ++ le16 h.inputPrtWidthUs ++ le16 h.outputPrtWidthUs ++
    le32 h.inputPrtPri ++ le32 h.outputPrtPri ++ le16 h.inputPpsWidthUs ++ le32 h.ppsTimestamp ++
    [byte h.generatorStatus, byte h.dipSwitch] ++ zeros 2 ++ zeros 4

def toBytes (h : QccHeaderTx) : Bytes := h.bodyBytes ++ [crc8 h.bodyBytes]

theorem bodyBytes_length (h : QccHeaderTx) : h.bodyBytes.length = 89 := by
  unfold bodyBytes
  simp only [List.length_append]
  simp only [le16_length, le32_length, zeros_length, List.length_cons, List.length_nil]

@[simp] theorem toBytes_length (h : QccHeaderTx) : h.toBytes.length = headerSize := by
  rw [toBytes, List.length_append, bodyBytes_length]
  rfl

/-- The header in 90 bytes, unchecked. -/
def decode (raw : Bytes) : QccHeaderTx :=
  { destinationId := u8At raw 0, sourceId := u8At raw 1, packetSize := u16At raw 2
    echoByte := u8At raw 4, commandAck := u8At raw 5, messageNumber := u32At raw 6
    date := u8At raw 10, month := u8At raw 11, year := u16At raw 12, timeOfDay := u32At raw 14
    qccQueryCount := u32At raw 18, qccResponseCount := u32At raw 22
    applicationFirmwareVersion := u8At raw 26, rtlFirmwareVersion := u8At raw 27
    qccCommand := u8At raw 32
    fpgaTemperature :=
      let t : Nat := u16At raw 33 % 1024
      if t ≥ 512 then (t : Int) - 1024 else t
    boardTemperature := u16At raw 35, boardHumidity := u16At raw 37
    inputSobCount := u32At raw 39, inputPrtCount := u32At raw 43, inputPpsCount := u32At raw 47
    outputPrtCount := u32At raw 51, outputSobCount := u32At raw 55
    inputSobWidthUs := u16At raw 59, outputSobWidthUs := u16At raw 61
    inputPrtWidthUs := u16At raw 63, outputPrtWidthUs := u16At raw 65
    inputPrtPri := u32At raw 67, outputPrtPri := u32At raw 71, inputPpsWidthUs := u16At raw 75
    ppsTimestamp := u32At raw 77, generatorStatus := u8At raw 81, dipSwitch := u8At raw 82
    checksumOk := crc8 (raw.take 89) = raw.getD 89 0 }

/-- A header keeps its message number apart from the rest of the frame. -/
theorem decode_messageNumber (raw : Bytes) :
    (decode (raw.take headerSize)).messageNumber = QccGui.messageNumber raw := by
  simp (disch := decide) only [decode, QccGui.messageNumber, u32At, u16At, getD_take]

/-- The checksum of a header that is made of a body and a check byte. -/
theorem decode_checksumOk {body rest : Bytes} {chk : UInt8} (h : body.length = 89) :
    (decode ((body ++ [chk] ++ rest).take headerSize)).checksumOk = decide (crc8 body = chk) := by
  have htake : (body ++ [chk] ++ rest).take headerSize = body ++ [chk] :=
    List.take_left' (by simp [h, headerSize])
  simp only [htake, decode, getD_concat h, List.take_left' h]

def fromBytes (raw : Bytes) : Except FrameError QccHeaderTx := do
  requireSize raw headerSize "response header"
  return decode raw

def sobIsInternal (h : QccHeaderTx) : Bool := h.generatorStatus.testBit 0

def prtIsInternal (h : QccHeaderTx) : Bool := h.generatorStatus.testBit 1

def setGeneratorState (h : QccHeaderTx) (sobInternal prtInternal qccModeLowSpeed : Bool) :
    QccHeaderTx :=
  { h with generatorStatus :=
      sobInternal.toNat ||| prtInternal.toNat <<< 1 ||| qccModeLowSpeed.toNat <<< 2 }

end QccHeaderTx

/-! ## Frames -/

/-- Which QTRMs a low-speed session targets. -/
inductive Target
  | one (q : Qtrm)
  | broadcast
  deriving DecidableEq, Repr

/-- The QTRM select byte. -/
def Target.code : Target → Nat
  | .one q => q.val
  | .broadcast => 0xFF

def Target.includes : Target → Qtrm → Bool
  | .one q, i => i = q
  | .broadcast, _ => true

/-- A header and its data block of one slot for each QTRM. -/
def slotFrame (header : Bytes) (slot : Qtrm → Bytes) : Bytes :=
  header ++ (List.finRange 96).flatMap slot

def headerOnlyFrame (header : Bytes) : Bytes := header ++ zeros qtrmBlockSize

def remoteProgrammingFrame (header innerCmd payload : Bytes) : Bytes :=
  header ++ innerCmd ++ payload ++ zeros (rpPayloadSize - payload.length)

def remoteProgrammingCmdFrame (header innerCmd : Bytes) : Bytes := header ++ innerCmd

def qccLevelFrame (header : Bytes) : Bytes := header

def broadcastBootloaderFrame (header innerCmd : Bytes) (target : Target) : Bytes :=
  slotFrame header fun i =>
    if target.includes i then innerCmd ++ zeros (qtrmSlotSize - rpInnerCmdSize)
    else zeros qtrmSlotSize

/-- The slots of a response: the first ten bytes of each QTRM's 30. -/
def rpSlot (raw : Bytes) (i : Qtrm) : Bytes :=
  slice raw (headerSize + i.val * qtrmSlotSize) rpInnerCmdSize

def extractRpSlots (raw : Bytes) : Except FrameError (Qtrm → Bytes) := do
  requireSize raw totalPacketSize "response frame"
  return rpSlot raw

theorem extractRpSlots_ok {raw : Bytes} (h : raw.length = totalPacketSize) :
    extractRpSlots raw = .ok (rpSlot raw) := by
  simp [extractRpSlots, requireSize, h, bind, Except.bind, pure, Except.pure]

theorem extractRpSlots_error {raw : Bytes} (h : raw.length ≠ totalPacketSize) :
    ∃ e, extractRpSlots raw = .error e := by
  simp [extractRpSlots, requireSize, h, bind, Except.bind]

theorem rpSlot_length {raw : Bytes} (h : raw.length = totalPacketSize) (i : Qtrm) :
    (rpSlot raw i).length = rpInnerCmdSize := by
  have := i.isLt
  apply slice_length
  rw [h]
  simp only [headerSize, qtrmSlotSize, rpInnerCmdSize, totalPacketSize, qtrmBlockSize, numQtrm]
  omega

/-- Blocks of equal length, cut apart again. -/
theorem slice_flatMap {n m : Nat} {f : Fin n → Bytes} (hf : ∀ i, (f i).length = m) (i : Fin n)
    {k : Nat} (hk : k ≤ m) : slice ((List.finRange n).flatMap f) (i.val * m) k = (f i).take k := by
  induction n with
  | zero => exact i.elim0
  | succ n ih =>
    rw [List.finRange_succ, List.flatMap_cons, List.flatMap_map]
    refine Fin.cases ?_ (fun j => ?_) i
    · rw [slice_append_left (by simp [hf]; omega)]
      simp [slice]
    · have hj : (j.succ : Fin (n + 1)).val * m = j.val * m + m := by simp [Nat.succ_mul]
      rw [hj, slice_append_right (by simp [hf]), hf, Nat.add_sub_cancel]
      exact ih (f := fun j => f j.succ) (fun j => hf j.succ) j

/-- The slots of a frame made of a header and a data block. -/
theorem rpSlot_slotFrame {header : Bytes} {slot : Qtrm → Bytes} (hh : header.length = headerSize)
    (hs : ∀ i, (slot i).length = qtrmSlotSize) (i : Qtrm) :
    rpSlot (slotFrame header slot) i = (slot i).take rpInnerCmdSize := by
  rw [rpSlot, slotFrame, slice_append_right (by omega), hh, Nat.add_sub_cancel_left]
  exact slice_flatMap hs i (by decide)

theorem slotFrame_length {header : Bytes} {slot : Qtrm → Bytes} (hh : header.length = headerSize)
    (hs : ∀ i, (slot i).length = qtrmSlotSize) : (slotFrame header slot).length = totalPacketSize := by
  rw [slotFrame, List.length_append, hh, List.length_flatMap]
  simp only [hs, List.map_const', List.length_finRange, List.sum_replicate]
  rfl

end QccGui
