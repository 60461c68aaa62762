import QccGui.Gui.Packet

/-!
# The bootloader link protocol, GUI side

The ten byte commands of the GUI and the parser for the ten byte replies of a QTRM.

* `buildLinkRequest`, `buildBitstreamReceiveCommand`, ...: the commands.
* `Slot`, `parseSlot`: the replies, by the operation in flight.
* `slotValid`, `Slot.isReport`: the check of a reply, and a reply to an IAP command that passes it.
* `PassAck`, `AckFrame`: a slot, or every slot of a frame, acknowledges a chunk as passed.
-/

namespace QccGui

open Lib

/-! ## Commands -/

def buildLinkRequest (statusType : UInt8 := 0) (subStatusType : UInt8 := 0) : Bytes :=
  sealed [0xAA, 0x00, 0x30, (subStatusType &&& 0x0F) <<< 4 ||| (statusType &&& 0x0F), 0, 0, 0, 0, 0]

def buildLruInfoRequest (statusType : UInt8 := 0) (subStatusType : UInt8 := 0) : Bytes :=
  sealed [0xAA, 0x00, 0x31, (subStatusType &&& 0x0F) <<< 4 ||| (statusType &&& 0x0F), 0, 0, 0, 0, 0]

def bsnMssControl : UInt8 := 3

def buildModeChangeCommand (bsnMode : UInt8) : Bytes :=
  sealed [0xAA, 0x00, 0x33, 0, 0, bsnMode &&& 0x0F, 0, 0, 0]

def buildModeChangeMssToFab : Bytes := sealed [0xAA, 0x00, 0x32, 0, 0, 0, 0, 0, 0]

def buildBitstreamReceiveCommand (fwPacketSize fwPacketCount : Nat) (imageIsGolden : Bool) : Bytes :=
  sealed ([0xAA, 0x00, 0x33, if imageIsGolden then 1 else 0, 0] ++ le16 fwPacketSize ++
    le16 fwPacketCount)

def iapAuthenticate : UInt8 := 1
def iapProgram : UInt8 := 2
def iapVerify : UInt8 := 3

def iapModeName (iapMode : UInt8) : String :=
  if iapMode = 0 then "INVALID" else if iapMode = 1 then "AUTHENTICATE"
  else if iapMode = 2 then "PROGRAM" else "VERIFY"

def buildFirmwareUpdateCommand (iapMode : UInt8) (imageIsGolden : Bool) : Bytes :=
  sealed [0xAA, 0x00, 0x36, if imageIsGolden then 1 else 0, 0, iapMode, 0, 0, 0]

/-- The header of a data packet has no check byte. -/
def buildBitstreamDataHeader (fwPacketLength fwPacketCount fwPacketIndex : Nat) : Bytes :=
  [0xAA, 0xBB, 0x34, 0] ++ le16 fwPacketLength ++ le16 fwPacketCount ++ le16 fwPacketIndex

@[simp] theorem buildBitstreamDataHeader_length (len count i : Nat) :
    (buildBitstreamDataHeader len count i).length = 10 := rfl

@[simp] theorem buildBitstreamReceiveCommand_length (size count : Nat) (golden : Bool) :
    (buildBitstreamReceiveCommand size count golden).length = 10 := rfl

/-! ## Replies -/

/-- The fields that every reply has. -/
structure SlotBase where
  commandType : UInt8
  statusType : UInt8
  subStatusType : UInt8
  checksumOk : Bool
  raw : Bytes
  deriving DecidableEq, Repr

inductive Slot
  | mssLinkResponse (base : SlotBase) (b1b4 : Bytes)
  | lruStatusResponse (base : SlotBase) (mfgId partNo : UInt8) (serialNum : Nat) (fwVersion : UInt8)
  | fwUpdateResponse (base : SlotBase) (iapMode iapStatus : UInt8)
  | bitstreamAck (base : SlotBase) (ithPacket : Nat) (passFail : UInt8)
  | errorMsg (base : SlotBase) (headerError crcError timeoutError : UInt8)
  | unknownSlot (base : SlotBase)
  deriving DecidableEq, Repr

/-- The fields that the reply has whatever its type. -/
def Slot.base : Slot → SlotBase
  | .mssLinkResponse base _ => base
  | .lruStatusResponse base .. => base
  | .fwUpdateResponse base .. => base
  | .bitstreamAck base .. => base
  | .errorMsg base .. => base
  | .unknownSlot base => base

/-- The operation in flight, as far as it decides what a reply means. -/
inductive Context
  | fwUpdate
  | bitstream
  | lruInfo
  deriving DecidableEq, Repr

/-- The failed bit of an acknowledgement. -/
def transferFailed (passFail : UInt8) : Bool := passFail &&& 0x02 ≠ 0

/-- `parse_slot`: nothing for an all-zero slot; an error unless there are ten bytes. -/
def parseSlot (raw : Bytes) (context : Context) : Except String (Option Slot) :=
  if raw.length ≠ 10 then .error s!"expected 10 bytes, got {raw.length}"
  else if raw = zeros 10 then .ok none
  else
    let ct := raw.getD 2 0
    let base : SlotBase :=
      { commandType := ct, statusType := raw.getD 3 0 &&& 0x0F
        subStatusType := (raw.getD 3 0 >>> 4) &&& 0x0F
        checksumOk := raw.getD 0 0 = 0xAA && xorSum (raw.take 9) = raw.getD 9 0, raw }
    if raw.getD 0 0 ≠ 0xAA then .ok (some (.unknownSlot base))
    else if ct = 0x31 ∨ ct = 0x30 ∧ context = .lruInfo then
      .ok (some (.lruStatusResponse base ((raw.getD 5 0 >>> 4) &&& 0x0F) (raw.getD 5 0 &&& 0x0F)
        (word16 (raw.getD 6 0) (raw.getD 7 0)) (raw.getD 8 0)))
    else if ct = 0x30 ∨ ct = 0x34 then .ok (some (.mssLinkResponse base (slice raw 5 4)))
    else if ct = 0x35 then
      if context = .bitstream then
        .ok (some (.bitstreamAck base (word16 (raw.getD 5 0) (raw.getD 6 0)) (raw.getD 7 0)))
      else .ok (some (.fwUpdateResponse base (raw.getD 5 0) (raw.getD 6 0)))
    else if ct = 0x3F then
      .ok (some (.errorMsg base (raw.getD 5 0) (raw.getD 6 0) (raw.getD 7 0)))
    else .ok (some (.unknownSlot base))

/-- The check of a reply: the header byte, and the check byte. -/
def slotValid (raw : Bytes) : Bool := raw.getD 0 0 = 0xAA && xorSum (raw.take 9) = raw.getD 9 0

/-- A reply to a firmware update command, or an error message, that passes the check. -/
def Slot.isReport : Slot → Bool
  | .fwUpdateResponse base .. => base.checksumOk
  | .errorMsg base .. => base.checksumOk
  | _ => false

/-- Only an all-zero slot is skipped, and the check has no part in what the others are parsed to. -/
theorem parseSlot_some {raw : Bytes} (hl : raw.length = 10) (hne : raw ≠ zeros 10)
    (context : Context) : ∃ slot, parseSlot raw context = .ok (some slot) ∧
      slot.base.checksumOk = slotValid raw := by
  unfold parseSlot
  rw [if_neg (by simp [hl]), if_neg hne]
  dsimp only
  split
  · exact ⟨_, rfl, rfl⟩
  split
  · exact ⟨_, rfl, rfl⟩
  split
  · exact ⟨_, rfl, rfl⟩
  split
  · split
    · exact ⟨_, rfl, rfl⟩
    · exact ⟨_, rfl, rfl⟩
  split
  · exact ⟨_, rfl, rfl⟩
  · exact ⟨_, rfl, rfl⟩

theorem parseSlot_zeros (context : Context) : parseSlot (zeros 10) context = .ok none := rfl

/-- A slot that the GUI takes for a passing acknowledgement of chunk `i`. -/
def PassAck (raw : Bytes) (i : Nat) : Prop :=
  ∃ base passFail, parseSlot raw .bitstream = .ok (some (.bitstreamAck base i passFail)) ∧
    transferFailed passFail = false

/-- What an acknowledgement looks like on the wire. -/
theorem parseSlot_bitstreamAck {raw : Bytes} {base : SlotBase} {i : Nat} {passFail : UInt8}
    (h : parseSlot raw .bitstream = .ok (some (.bitstreamAck base i passFail))) :
    raw.getD 0 0 = 0xAA ∧ raw.getD 2 0 = 0x35 ∧ i = word16 (raw.getD 5 0) (raw.getD 6 0) ∧
      passFail = raw.getD 7 0 := by
  unfold parseSlot at h
  dsimp only at h
  split at h
  · cases h
  split at h
  · cases h
  split at h
  · simp at h
  rename_i h0
  split at h
  · simp at h
  split at h
  · simp at h
  split at h
  · rename_i h2
    simp only [if_true, Except.ok.injEq, Option.some.injEq, Slot.bitstreamAck.injEq] at h
    exact ⟨Decidable.not_not.1 h0, h2, h.2.1.symm, h.2.2.symm⟩
  · split at h <;> simp at h

theorem passAck_of_bytes {raw : Bytes} (hl : raw.length = 10) (h0 : raw.getD 0 0 = 0xAA)
    (h2 : raw.getD 2 0 = 0x35) (h7 : transferFailed (raw.getD 7 0) = false) :
    PassAck raw (word16 (raw.getD 5 0) (raw.getD 6 0)) := by
  have hne : raw ≠ zeros 10 := by
    rintro rfl
    simp [zeros] at h0
  have hp : ∃ base, parseSlot raw .bitstream =
      .ok (some (.bitstreamAck base (word16 (raw.getD 5 0) (raw.getD 6 0)) (raw.getD 7 0))) := by
    unfold parseSlot
    simp only [hl, hne, h0, h2]
    exact ⟨_, rfl⟩
  obtain ⟨base, hp⟩ := hp
  exact ⟨base, _, hp, h7⟩

theorem PassAck.not_zeros {i : Nat} : ¬ PassAck (zeros 10) i := by
  rintro ⟨base, pf, h, -⟩
  have := (parseSlot_bitstreamAck h).1
  simp [zeros] at this

/-- The index of an acknowledgement is a 16-bit number. -/
theorem PassAck.lt {raw : Bytes} {i : Nat} (h : PassAck raw i) : i < 65536 := by
  obtain ⟨base, pf, h, -⟩ := h
  rw [(parseSlot_bitstreamAck h).2.2.1]
  exact word16_lt _ _

/-- A response frame in which every QTRM acknowledges chunk `i` as passed. -/
def AckFrame (raw : Bytes) (i : Nat) : Prop :=
  raw.length = totalPacketSize ∧ ∀ q, PassAck (rpSlot raw q) i

theorem PassAck.unique {raw : Bytes} {i j : Nat} (h : PassAck raw i) (h' : PassAck raw j) : i = j := by
  obtain ⟨_, _, h, -⟩ := h
  obtain ⟨_, _, h', -⟩ := h'
  rw [(parseSlot_bitstreamAck h).2.2.1, (parseSlot_bitstreamAck h').2.2.1]

/-- A response in which only `q` has a slot. -/
def oneSlot (q : Qtrm) (slot : Bytes) : Bytes :=
  slotFrame (zeros headerSize) fun q' =>
    if q' = q then slot ++ zeros (qtrmSlotSize - rpInnerCmdSize) else zeros qtrmSlotSize

theorem rpSlot_oneSlot {slot : Bytes} (hs : slot.length = 10) (q q' : Qtrm) :
    rpSlot (oneSlot q slot) q' = if q' = q then slot else zeros 10 := by
  have hlen : ∀ i : Qtrm, (if i = q then slot ++ zeros (qtrmSlotSize - rpInnerCmdSize)
      else zeros qtrmSlotSize).length = qtrmSlotSize := by
    intro i
    split
    · simp [hs, qtrmSlotSize, rpInnerCmdSize]
    · simp
  rw [oneSlot, rpSlot_slotFrame (by simp) hlen]
  split
  · exact List.take_left' hs
  · rfl

theorem oneSlot_length {slot : Bytes} (hs : slot.length = 10) (q : Qtrm) :
    (oneSlot q slot).length = totalPacketSize := by
  apply slotFrame_length (by simp)
  intro i
  split
  · simp [hs, qtrmSlotSize, rpInnerCmdSize]
  · simp

end QccGui
