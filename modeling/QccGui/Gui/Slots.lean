import QccGui.Gui.Packet

/-!
# QTRM slots

The 30 byte slots that the data distribution commands carry to the QTRMs, the frames made of them,
and the parsers for the slots of a response.

* `buildStatusFamilySlot`, `QtrmSlot.toBytes`: the two layouts of a slot; the command slots are
  instances of them.
* `targetFrame`: one slot for the targeted QTRMs and another for the rest.
* `parseLinkTestResponse`, `parseStatusFrame`: what a response says about each QTRM.
-/

namespace QccGui

open Lib

/-! ## Codes -/

def cmdDwell : UInt8 := 0x01
def cmdRxCal : UInt8 := 0x02
def cmdTxCal : UInt8 := 0x03
def cmdRxIsolation : UInt8 := 0x04
def cmdTxIsolation : UInt8 := 0x05
def cmdSoftReset : UInt8 := 0x20
def cmdStatus : UInt8 := 0x21
def cmdDataStorage : UInt8 := 0x22

def qtrmPacketSizeId : UInt8 := 0x04

def statusTypeNone : Nat := 0x0
def statusTypeAck : Nat := 0x1
def statusTypeLink : Nat := 0x2
def statusTypeHealth : Nat := 0x3
def statusTypeErrLog : Nat := 0x4
def statusTypeMfg : Nat := 0x5
def statusTypeDiagnostic : Nat := 0x6
def statusTypeThermalConfig : Nat := 0x7

def diagnosticTypeDetailedHealth : Nat := 0x0

def linkSentinel : Bytes := [0xA1, 0xA2, 0xA3, 0xA4, 0xA5]

/-- The size of a message, from its size identifier. -/
def messageLength (packetSizeId : Nat) : Nat := packetSizeId * 5 + 10

/-! ## Command slots -/

/-- The ten byte commands: five bytes of header, the payload, the check byte, and zeros up to the
size of a slot. -/
def buildStatusFamilySlot (commandType : UInt8) (statusType : Nat) (payload : Bytes := [])
    (subStatusType : Nat := 0) : Bytes :=
  let body := [0xAA, 0x00, commandType, byte (subStatusType % 16 * 16 + statusType % 16), 0x00] ++
    payload ++ zeros (25 - payload.length)
  body.take 9 ++ [xorSum (body.take 9)] ++ body.drop 10

def buildLinkQuerySlot (commandType : UInt8 := cmdStatus) : Bytes :=
  buildStatusFamilySlot commandType statusTypeLink

def buildStatusQuerySlot (statusType : Nat) (subStatusType : Nat := 0)
    (beamRegisterAddress : Nat := 0) : Bytes :=
  buildStatusFamilySlot cmdStatus statusType [byte beamRegisterAddress] subStatusType

def buildCalSlot (txCal : Bool) (channel phase atten : Nat) : Bytes :=
  buildStatusFamilySlot (if txCal then cmdTxCal else cmdRxCal) statusTypeLink
    [byte channel, byte (channel / 256), byte phase, byte atten]

def buildIsolationSlot (txIsolation : Bool) : Bytes :=
  buildStatusFamilySlot (if txIsolation then cmdTxIsolation else cmdRxIsolation) statusTypeLink

def buildSoftResetSlot : Bytes := buildStatusFamilySlot cmdSoftReset statusTypeNone [0x01]

def memOpFlashWrite : Nat := 0x3

def buildMemoryWriteSlot (dataType : Nat) (payload : Bytes) (memOp : Nat := memOpFlashWrite) :
    Bytes :=
  buildStatusFamilySlot cmdDataStorage statusTypeLink
    (byte (memOp % 16 * 16 + dataType % 16) :: payload)

/-- The settings of one channel of a QTRM. -/
structure QtrmChannel where
  control : UInt8 := 0
  txPhase : UInt8 := 0
  txAtten : UInt8 := 0
  rxPhase : UInt8 := 0
  rxAtten : UInt8 := 0
  deriving DecidableEq, Repr

def QtrmChannel.toBytes (ch : QtrmChannel) : Bytes :=
  [ch.control, ch.txPhase, ch.txAtten, ch.rxPhase, ch.rxAtten]

/-- A full-size slot. -/
structure QtrmSlot where
  commandType : UInt8
  ackType : Nat := 0
  ackOnOff : Nat := 0
  dwellId : UInt8 := 0
  frequencyId : UInt8 := 0
  channels : Fin 4 → QtrmChannel

def QtrmSlot.toBytes (s : QtrmSlot) : Bytes :=
  sealed ([0xAA, qtrmPacketSizeId, s.commandType, byte (s.ackType % 16 * 16 + s.ackOnOff % 16),
    s.dwellId, s.frequencyId, 0, 0, 0] ++ (List.finRange 4).flatMap fun i => (s.channels i).toBytes)

def buildDwellSlot (channels : Fin 4 → QtrmChannel) : Bytes :=
  QtrmSlot.toBytes { commandType := cmdDwell, ackOnOff := statusTypeLink, channels }

/-! ## Frames -/

/-- A frame with one slot for the targeted QTRMs (all of them, if there is no target) and another
one for the rest. -/
def targetFrame (header : Bytes) (target : Option Qtrm) (slot other : Bytes) : Bytes :=
  slotFrame header fun i => if target = none ∨ target = some i then slot else other

def buildLinkTestFrame (header : Bytes) : Bytes :=
  targetFrame header none buildLinkQuerySlot (zeros qtrmSlotSize)

def buildIndividualLinkFrame (target : Qtrm) (header : Bytes) : Bytes :=
  targetFrame header (some target) buildLinkQuerySlot (zeros qtrmSlotSize)

def buildStatusFrame (statusType : Nat) (target : Option Qtrm)
    (subStatusType beamRegisterAddress : Nat) (header : Bytes) : Bytes :=
  targetFrame header target (buildStatusQuerySlot statusType subStatusType beamRegisterAddress)
    (zeros qtrmSlotSize)

def buildCalFrame (txCal : Bool) (target : Qtrm) (channel phase atten : Nat)
    (txIsolationForOthers : Bool) (header : Bytes) : Bytes :=
  targetFrame header (some target) (buildCalSlot txCal channel phase atten)
    (buildIsolationSlot txIsolationForOthers)

def buildSoftResetFrame (target : Option Qtrm) (header : Bytes) : Bytes :=
  targetFrame header target buildSoftResetSlot (zeros qtrmSlotSize)

def buildIsolationFrame (txIsolation : Bool) (target : Option Qtrm) (header : Bytes) : Bytes :=
  targetFrame header target (buildIsolationSlot txIsolation) (zeros qtrmSlotSize)

def buildMemoryWriteFrame (dataType : Nat) (payload : Bytes) (target : Option Qtrm) (memOp : Nat)
    (header : Bytes) : Bytes :=
  targetFrame header target (buildMemoryWriteSlot dataType payload memOp) (zeros qtrmSlotSize)

def buildDwellFrame (channels : Qtrm → Fin 4 → QtrmChannel) (header : Bytes) : Bytes :=
  slotFrame header fun i => buildDwellSlot (channels i)

/-- The message bodies of the timing commands. -/
def buildSobBody (sobWidthUs : Nat) : Bytes := ljust 56 (le16 sobWidthUs)

def buildPrtBody (prtCount priWidthUs prtWidthUs : Nat) : Bytes :=
  ljust 56 (le32 prtCount ++ le32 priWidthUs ++ le16 prtWidthUs)

def buildPpsBody (ppsWidthUs : Nat) : Bytes := ljust 56 (le16 ppsWidthUs)

/-! ## Response slots -/

/-- The whole slot of a QTRM in a response. -/
def responseSlot (raw : Bytes) (i : Qtrm) : Bytes :=
  slice raw (headerSize + i.val * qtrmSlotSize) qtrmSlotSize

/-- The slots of a frame made of a header and a data block. -/
theorem responseSlot_slotFrame {header : Bytes} {slot : Qtrm → Bytes}
    (hh : header.length = headerSize) (hs : ∀ i, (slot i).length = qtrmSlotSize) (i : Qtrm) :
    responseSlot (slotFrame header slot) i = slot i := by
  rw [responseSlot, slotFrame, slice_append_right (by omega), hh, Nat.add_sub_cancel_left,
    slice_flatMap hs i le_rfl, List.take_of_length_le (hs i).le]

/-- A valid Link reply. -/
def isLinkResponseOk (raw : Bytes) : Bool :=
  let msgLen := messageLength (u8At raw 1)
  raw.length = qtrmSlotSize ∧ raw.getD 0 0 = 0xAA ∧ 10 ≤ msgLen ∧ msgLen ≤ qtrmSlotSize ∧
    xorSum (raw.take (msgLen - 1)) = raw.getD (msgLen - 1) 0 ∧ u8At raw 3 % 16 = statusTypeLink ∧
    slice raw 4 5 = linkSentinel

def parseLinkTestResponse (raw : Bytes) : Except FrameError (Qtrm → Bool) := do
  requireSize raw totalPacketSize "response frame"
  return fun i => isLinkResponseOk (responseSlot raw i)

def validStatusHeader (raw : Bytes) (statusType expectedLength : Nat) : Bool :=
  let msgLen := messageLength (u8At raw 1)
  raw.length = qtrmSlotSize ∧ raw.getD 0 0 = 0xAA ∧ msgLen = expectedLength ∧
    xorSum (raw.take (msgLen - 1)) = raw.getD (msgLen - 1) 0 ∧ u8At raw 3 % 16 = statusType

structure HealthChannel where
  temperatureStatus : UInt8
  dcStatus : UInt8
  rfStatus : UInt8
  txControlCount : UInt8
  rxControlCount : UInt8
  deriving DecidableEq, Repr

structure BufferChannel where
  opMode : Nat
  control : Nat
  txPhase : UInt8
  txAtten : UInt8
  rxPhase : UInt8
  rxAtten : UInt8
  deriving DecidableEq, Repr

/-- The counters that every diagnostic reply has. -/
structure DiagnosticCounts where
  totalPrtCount : UInt8
  processedPrtCount : UInt8
  dwellPrtCount : UInt8
  totalSobCount : UInt8
  deriving DecidableEq, Repr

/-- What one QTRM's status reply says. -/
inductive StatusReply
  | ack (messageId : UInt8) (echoedBytes : Bytes)
  | health (dcVoltageStatus dcCurrentStatus temperatureStatus txForwardRfStatus
      rxReverseRfStatus : UInt8)
  | errLog (trmShutdownFlags headerError footerCrcError timeoutError : UInt8)
      (prtDutyViolationCount prtWidthViolationCount : Nat)
  | mfg (mfgAgencyId firmwareVersion serialNumber onTimeHours : Nat)
  | thermalConfig (tempCutoffEnable tempCutoffValue : UInt8)
  | detailedHealth (counts : DiagnosticCounts) (operationCommandType : UInt8)
      (channels : Fin 4 → HealthChannel)
  | buffer (counts : DiagnosticCounts) (beamDataRegisterAddress : UInt8)
      (channels : Fin 4 → BufferChannel)

def parseAckResponse (raw : Bytes) : Option StatusReply :=
  if validStatusHeader raw statusTypeAck 10 then some (.ack (raw.getD 4 0) (slice raw 5 4)) else none

def parseHealthResponse (raw : Bytes) : Option StatusReply :=
  if validStatusHeader raw statusTypeHealth 10 then
    some (.health (raw.getD 4 0) (raw.getD 5 0) (raw.getD 6 0) (raw.getD 7 0) (raw.getD 8 0))
  else none

def parseErrLogResponse (raw : Bytes) : Option StatusReply :=
  if validStatusHeader raw statusTypeErrLog 10 then
    some (.errLog (raw.getD 4 0) (raw.getD 5 0) (raw.getD 6 0) (raw.getD 7 0)
      (u8At raw 8 / 16) (u8At raw 8 % 16))
  else none

def parseMfgResponse (raw : Bytes) : Option StatusReply :=
  if validStatusHeader raw statusTypeMfg 10 then
    some (.mfg (u8At raw 4 / 16) (u8At raw 4 % 16) (u16At raw 5) (u16At raw 7))
  else none

def parseThermalShutdownConfigResponse (raw : Bytes) : Option StatusReply :=
  if validStatusHeader raw statusTypeThermalConfig 10 then
    some (.thermalConfig (raw.getD 4 0) (raw.getD 5 0))
  else none

/-- The one status reply of 30 bytes; the diagnostic type decides its layout. -/
def parseDiagnosticResponse (raw : Bytes) (diagnosticType : Nat) : Option StatusReply :=
  if validStatusHeader raw statusTypeDiagnostic 30 then
    let counts : DiagnosticCounts :=
      ⟨raw.getD 5 0, raw.getD 6 0, raw.getD 7 0, raw.getD 8 0⟩
    if diagnosticType = diagnosticTypeDetailedHealth then
      some (.detailedHealth counts (raw.getD 4 0) fun ch =>
        let off := 9 + ch.val * 5
        ⟨raw.getD off 0, raw.getD (off + 1) 0, raw.getD (off + 2) 0, raw.getD (off + 3) 0,
          raw.getD (off + 4) 0⟩)
    else
      some (.buffer counts (raw.getD 4 0) fun ch =>
        let off := 9 + ch.val * 5
        ⟨u8At raw off / 16, u8At raw off % 16, raw.getD (off + 1) 0, raw.getD (off + 2) 0,
          raw.getD (off + 3) 0, raw.getD (off + 4) 0⟩)
  else none

/-- The parser of a status type, where it has one. -/
def statusParser (statusType : Nat) : Option (Bytes → Nat → Option StatusReply) :=
  if statusType = statusTypeAck then some fun raw _ => parseAckResponse raw
  else if statusType = statusTypeHealth then some fun raw _ => parseHealthResponse raw
  else if statusType = statusTypeErrLog then some fun raw _ => parseErrLogResponse raw
  else if statusType = statusTypeMfg then some fun raw _ => parseMfgResponse raw
  else if statusType = statusTypeDiagnostic then some parseDiagnosticResponse
  else if statusType = statusTypeThermalConfig then
    some fun raw _ => parseThermalShutdownConfigResponse raw
  else none

/-- The uppercase hexadecimal digits of a number. -/
def hexUpper (n : Nat) : String := String.ofList ((Nat.toDigits 16 n).map Char.toUpper)

def parseStatusFrame (raw : Bytes) (statusType : Nat) (diagnosticType : Nat := 0) :
    Except FrameError (Qtrm → Option StatusReply) := do
  requireSize raw totalPacketSize "response frame"
  match statusParser statusType with
  | none => .error ⟨s!"no parser for status type 0x{hexUpper statusType}"⟩
  | some parser => return fun i => parser (responseSlot raw i) diagnosticType

end QccGui
