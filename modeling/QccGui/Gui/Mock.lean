import QccGui.Gui.Controller

/-!
# The mock bootloader responder

`MockBootloaderResponder`: what the tester program answers to a frame of the controller.

* `Mock`: the attributes that decide the answers.
* `Mock.respond`: the answer to a frame, and what the frame latches.
* `respond_data`: with all QTRMs selected a data frame is acknowledged by all of them.
-/

namespace QccGui

open Lib

structure Mock where
  simulateFailures : Bool := false
  /-- The QTRM that the low-speed traffic reaches; 0xFF is all of them. -/
  lruSelect : UInt8 := 0xFF
  qccModeLowSpeed : Bool := false
  deriving DecidableEq, Repr

namespace Mock

/-- The query's header, with the ids swapped and the mode bit set. -/
def responseHeader (m : Mock) (queryHeader : Bytes) : Bytes :=
  let h := QccHeaderTx.decode queryHeader
  let h := { h with destinationId := h.sourceId, sourceId := h.destinationId }
  (h.setGeneratorState h.sobIsInternal h.prtIsInternal m.qccModeLowSpeed).toBytes

/-- Whether QTRM `i` answers the low-speed traffic. -/
def responds (m : Mock) (i : Qtrm) : Bool := m.lruSelect = 0xFF || i.val = m.lruSelect.toNat

def buildResponseFrame (m : Mock) (queryHeader : Bytes) (buildSlot : Qtrm → Bytes) : Bytes :=
  slotFrame (m.responseHeader queryHeader) fun i =>
    if m.responds i then buildSlot i else zeros qtrmSlotSize

/-- A reply of ten bytes in its slot. -/
def replySlot (bs : Bytes) : Bytes := sealed bs ++ zeros 20

def respondLruInfo (m : Mock) (queryHeader : Bytes) : Bytes :=
  m.buildResponseFrame queryHeader fun i =>
    replySlot ([0xAA, 0x00, 0x31, 0, 0, 0x21] ++ le16 (1000 + i.val) ++ [0x02])

def respondFirmwareUpdate (m : Mock) (queryHeader : Bytes) (iapMode : UInt8) : Bytes :=
  m.buildResponseFrame queryHeader fun i =>
    replySlot [0xAA, 0x00, 0x35, 0, 0, iapMode,
      if m.simulateFailures && i.val % 10 = 0 then 0x01 else 0x00, 0, 0]

def respondBitstreamAck (m : Mock) (queryHeader : Bytes) (chunkIndex : Nat) : Bytes :=
  m.buildResponseFrame queryHeader fun i =>
    replySlot ([0xAA, 0x00, 0x35, 0, 0] ++ le16 chunkIndex ++
      [if m.simulateFailures && i.val % 20 = 0 then 0x02 else 0x01, 0])

def respondLink (m : Mock) (queryHeader : Bytes) : Bytes :=
  m.buildResponseFrame queryHeader fun _ =>
    replySlot [0xAA, 0x00, 0x34, 0, 0, 0xB1, 0xB2, 0xB3, 0xB4]

/-- A slot that carries the mode change command. -/
def addressed (query : Bytes) (i : Qtrm) : Bool :=
  let slotCmd := rpSlot query i
  slotCmd.getD 0 0 = 0xAA && slotCmd.getD 2 0 = 0x33

/-- The answer to the 90 byte frame of the QCC, which latches the select byte. -/
def respondQccLevel (m : Mock) (query : Bytes) : Mock × Option Bytes :=
  if query.getD 32 0 ≠ byte commandIdRemoteProgramming then (m, none)
  else if query.getD 33 0 = 0x01 ∨ query.getD 33 0 = 0x02 then
    let m := { m with
      lruSelect := query.getD 34 0, qccModeLowSpeed := query.getD 33 0 = 0x01 }
    (m, some (m.responseHeader query))
  else (m, none)

/-- The answer to an inner command; a payload goes with bitstream data and nothing else. -/
def respondInner (m : Mock) (query : Bytes) : Option Bytes :=
  let queryHeader := query.take headerSize
  let innerCmd := slice query headerSize rpInnerCmdSize
  let cmdType := innerCmd.getD 2 0
  if query.length = rpFrameSize ∧ cmdType ≠ 0x34 ∨ query.length ≠ rpFrameSize ∧ cmdType = 0x34 then none
  else if cmdType = 0x33 then none
  else if cmdType = 0x32 then some (m.responseHeader queryHeader)
  else if cmdType = 0x31 then some (m.respondLruInfo queryHeader)
  else if cmdType = 0x36 then some (m.respondFirmwareUpdate queryHeader (innerCmd.getD 5 0))
  else if cmdType = 0x34 then
    some (m.respondBitstreamAck queryHeader (word16 (innerCmd.getD 8 0) (innerCmd.getD 9 0)))
  else if cmdType = 0x30 then some (m.respondLink queryHeader)
  else none

/-- `_build_response`. -/
def respond (m : Mock) (query : Bytes) : Mock × Option Bytes :=
  if query.length = totalPacketSize then
    if (List.finRange 96).any (addressed query) then
      (m, some (m.responseHeader (query.take headerSize)))
    else (m, none)
  else if query.length = headerSize then m.respondQccLevel query
  else if query.length ≠ rpCmdFrameSize ∧ query.length ≠ rpFrameSize then (m, none)
  else (m, m.respondInner query)

/-! ## The answers during an upload -/

variable {m : Mock} {query : Bytes}

theorem passAck_ackBytes {i : Nat} (hi : i < 65536) :
    PassAck (sealed ([0xAA, 0x00, 0x35, 0, 0] ++ le16 i ++ [0x01, 0])) i := by
  generalize hraw : sealed ([0xAA, 0x00, 0x35, 0, 0] ++ le16 i ++ [0x01, 0]) = raw
  have h7 : raw.getD 7 0 = 0x01 := by rw [← hraw]; rfl
  have hw : word16 (raw.getD 5 0) (raw.getD 6 0) = i := by rw [← hraw]; exact word16_byte hi
  have h : PassAck raw (word16 (raw.getD 5 0) (raw.getD 6 0)) :=
    passAck_of_bytes (by rw [← hraw]; rfl) (by rw [← hraw]; rfl) (by rw [← hraw]; rfl)
      (by rw [h7]; decide)
  rwa [hw] at h

/-- All QTRMs are selected and none is made to fail. -/
structure Healthy (m : Mock) : Prop where
  select : m.lruSelect = 0xFF
  noFailures : m.simulateFailures = false

theorem ackFrame_respondBitstreamAck (h : m.Healthy) (queryHeader : Bytes) {i : Nat}
    (hi : i < 65536) : AckFrame (m.respondBitstreamAck queryHeader i) i := by
  have hh : (m.responseHeader queryHeader).length = headerSize := QccHeaderTx.toBytes_length _
  have hs : ∀ q, m.responds q = true := by simp [responds, h.select]
  have hslot : ∀ bs : Bytes, bs.length = 9 → (replySlot bs).length = qtrmSlotSize := by
    intro bs hb
    simp [replySlot, hb, qtrmSlotSize]
  refine ⟨slotFrame_length hh fun q => ?_, fun q => ?_⟩
  · rw [if_pos (hs q)]
    exact hslot _ rfl
  · rw [respondBitstreamAck, buildResponseFrame, rpSlot_slotFrame hh fun q => by
      rw [if_pos (hs q)]; exact hslot _ rfl]
    rw [if_pos (hs q), h.noFailures]
    exact passAck_ackBytes hi

/-- A data frame is acknowledged for its index. -/
theorem respond_data (h : m.Healthy) {len count i : Nat} {data : Bytes} (hi : i < 65536)
    (hl : query.length = rpFrameSize)
    (hd : query.drop headerSize = buildBitstreamDataHeader len count i ++ data) :
    ∃ raw, m.respond query = (m, some raw) ∧ AckFrame raw i := by
  have hs : slice query headerSize rpInnerCmdSize = buildBitstreamDataHeader len count i := by
    rw [slice, hd]
    rfl
  refine ⟨_, ?_, ackFrame_respondBitstreamAck h (query.take headerSize) hi⟩
  have hword : word16 ((buildBitstreamDataHeader len count i).getD 8 0)
      ((buildBitstreamDataHeader len count i).getD 9 0) = i := word16_byte hi
  have hc : (buildBitstreamDataHeader len count i).getD 2 0 = 0x34 := rfl
  rw [respond, if_neg (by rw [hl]; decide), if_neg (by rw [hl]; decide), if_neg (by simp [hl]),
    respondInner]
  simp only [hs, hc, hl, hword]
  rfl

/-- The announcement of an upload is not answered. -/
theorem respond_announce {size count : Nat} {golden : Bool} (hl : query.length = rpCmdFrameSize)
    (hd : query.drop headerSize = buildBitstreamReceiveCommand size count golden) :
    m.respond query = (m, none) := by
  have hs : slice query headerSize rpInnerCmdSize = buildBitstreamReceiveCommand size count golden := by
    rw [slice, hd]
    exact List.take_of_length_le (Nat.le_refl 10)
  have hc : (buildBitstreamReceiveCommand size count golden).getD 2 0 = 0x33 := rfl
  rw [respond, if_neg (by rw [hl]; decide), if_neg (by rw [hl]; decide), if_neg (by simp [hl]),
    respondInner]
  simp only [hs, hc, hl]
  rfl

end Mock

end QccGui
