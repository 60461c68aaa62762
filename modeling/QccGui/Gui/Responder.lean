import QccGui.Gui.SlotCodec
import Mathlib.Algebra.Order.BigOperators.Group.List
import Mathlib.Algebra.Order.Group.Nat

/-!
# The status responder

`status_responder_app`: the test program that answers the frames of the GUI in the place of the
QTRMs. It looks at each slot's command type and status type alone.

* `replyBuilder`: the reply to each status type; `FaultMode`: what may go wrong with it.
* `mockReply`: the answer to one slot; `buildMockResponseFrame`: the answer to a frame.
* `Asks`: the QTRMs that a query addresses, and the status type it asks them for.
* `query_answers`: without faults, the parser of a query's response accepts the slots of the
  addressed QTRMs and no others.
-/

namespace QccGui

open Lib

namespace Responder

/-- Reserved commands (an empty slot is one) and soft resets get no reply. -/
def noReplyCommandTypes : Bytes := [0x00, cmdSoftReset]

def statusTypeName (statusType : Nat) : String :=
  if statusType = statusTypeAck then "ACK"
  else if statusType = statusTypeLink then "LINK"
  else if statusType = statusTypeHealth then "HEALTH"
  else if statusType = statusTypeErrLog then "TRM Err. Log"
  else if statusType = statusTypeMfg then "TRM Mfg. Details"
  else if statusType = statusTypeDiagnostic then "DIAGNOSTIC"
  else toString statusType

/-! ## Reply builders -/

def finish10Byte (body : Bytes) : Bytes := body.set 9 (xorSum (body.take 9))

/-- The first four bytes of a ten byte reply. -/
def replyFront (querySlot : Bytes) (statusByte : UInt8) : Bytes :=
  [0xAA, 0x00, querySlot.getD 2 0, statusByte]

def mockLinkReply (_ : Qtrm) (querySlot : Bytes) : Bytes :=
  finish10Byte (replyFront querySlot (byte statusTypeLink) ++ linkSentinel ++ zeros 21)

/-- The acknowledgement echoes the query. -/
def mockAckReply (_ : Qtrm) (querySlot : Bytes) : Bytes :=
  finish10Byte (replyFront querySlot (querySlot.getD 3 0) ++ [querySlot.getD 4 0,
    querySlot.getD 5 0, querySlot.getD 6 0, querySlot.getD 7 0, querySlot.getD 8 0] ++ zeros 21)

def mockHealthReply (i : Qtrm) (querySlot : Bytes) : Bytes :=
  finish10Byte (replyFront querySlot (byte statusTypeHealth) ++ [byte (200 + i.val % 20),
    byte (50 + i.val % 10), byte (30 + i.val % 40), byte (80 + i.val % 15),
    byte (90 + i.val % 5)] ++ zeros 21)

def mockErrLogReply (i : Qtrm) (querySlot : Bytes) : Bytes :=
  finish10Byte (replyFront querySlot (byte statusTypeErrLog) ++
    [0, 0, 0, 0, byte (i.val % 3 * 16 + i.val % 4)] ++ zeros 21)

def mockMfgReply (i : Qtrm) (querySlot : Bytes) : Bytes :=
  finish10Byte (replyFront querySlot (byte statusTypeMfg) ++
    ([0x01] ++ le16 (1000 + i.val) ++ le16 (100 + i.val)) ++ zeros 21)

/-- The one reply of 30 bytes. -/
def mockDiagnosticReply (i : Qtrm) (querySlot : Bytes) : Bytes :=
  let diagnosticType := u8At querySlot 3 / 16 % 16
  let detailed := diagnosticType = diagnosticTypeDetailedHealth
  sealed ([0xAA, 0x04, querySlot.getD 2 0, byte (diagnosticType * 16 + statusTypeDiagnostic),
    if detailed then 1 else 0, byte (200 + i.val % 10), byte (198 + i.val % 10), 2,
    byte (5 + i.val % 3)] ++
    (List.finRange 4).flatMap fun ch : Fin 4 =>
      if detailed then
        [byte (30 + (i.val + ch.val) % 40), byte (200 + (i.val + ch.val) % 20),
          byte (80 + (i.val + ch.val) % 15), byte ch.val, byte ch.val]
      else [0x13, byte (10 + ch.val), byte (20 + ch.val), byte (30 + ch.val), byte (40 + ch.val)])

/-- The reply to a status type, where there is one. -/
def replyBuilder (statusType : Nat) : Option (Qtrm → Bytes → Bytes) :=
  if statusType = statusTypeLink then some mockLinkReply
  else if statusType = statusTypeAck then some mockAckReply
  else if statusType = statusTypeHealth then some mockHealthReply
  else if statusType = statusTypeErrLog then some mockErrLogReply
  else if statusType = statusTypeMfg then some mockMfgReply
  else if statusType = statusTypeDiagnostic then some mockDiagnosticReply
  else none

/-! ## Faults -/

inductive FaultMode
  | none
  | noReply
  | badChecksum
  | forceError
  deriving DecidableEq, Repr

/-- The worst values of the two replies that have any, with a right check byte. -/
def applyForceError (statusType : Nat) (reply : Bytes) : Bytes :=
  if statusType = statusTypeHealth then
    finish10Byte (reply.take 4 ++ [255, 255, 255, 0, 0] ++ reply.drop 9)
  else if statusType = statusTypeErrLog then
    finish10Byte (reply.take 4 ++ [0xFF, 1, 1, 1, 0xFF] ++ reply.drop 9)
  else reply

/-! ## Answers -/

/-- The answer to one slot, and the name under which it is listed if it is a reply. -/
def mockReply (i : Qtrm) (slot : Bytes) (fault : FaultMode) : Bytes × Option String :=
  let statusType := u8At slot 3 % 16
  let noReply := slot.getD 0 0 ≠ 0xAA ∨ slot.getD 2 0 ∈ noReplyCommandTypes
  if fault = .noReply then (zeros qtrmSlotSize, .none)
  else
    match if noReply then .none else replyBuilder statusType with
    | .none => (zeros qtrmSlotSize, .none)
    | some builder =>
      let reply := builder i slot
      let statusName := statusTypeName statusType
      if fault = .badChecksum then
        (reply.dropLast ++ [reply.getLastD 0 ^^^ 0xFF], some (statusName ++ " [bad checksum]"))
      else if fault = .forceError then
        (applyForceError statusType reply, some (statusName ++ " [forced error]"))
      else (reply, some statusName)

def echoedPrefixSize : Nat := 33

/-- The part of a response's header that the query decides. -/
def buildEchoedHeaderPrefix (queryFrame : Bytes) : Bytes :=
  let q := queryFrame.take echoedPrefixSize
  [q.getD 1 0, q.getD 0 0] ++ le16 totalPacketSize ++ [q.getD 4 0, 1] ++ q.drop 6

/-- The header of a response: what is set, or with `autoEchoHeader` the query's part, what is set
after it, and a check byte. -/
def responseHeader (queryFrame fixedHeader qccHeader : Bytes) (autoEchoHeader : Bool) : Bytes :=
  let out := fixedHeader ++ qccHeader
  if autoEchoHeader then
    let out := buildEchoedHeaderPrefix queryFrame ++ out.drop echoedPrefixSize
    out.set (headerSize - 1) (crc8 (out.take (headerSize - 1)))
  else out

/-- The header that the response has by default. -/
def mockHeader : QccHeaderTx :=
  QccHeaderTx.setGeneratorState
    { destinationId := 0x01, sourceId := 0x02, packetSize := totalPacketSize, echoByte := 0
      commandAck := 1, messageNumber := 1, date := 5, month := 7, year := 2026, timeOfDay := 0
      qccQueryCount := 0, qccResponseCount := 0, applicationFirmwareVersion := 0
      rtlFirmwareVersion := 0, qccCommand := commandIdDataDistribution, fpgaTemperature := 42
      boardTemperature := 350, boardHumidity := 550, inputSobCount := 100, inputPrtCount := 200
      inputPpsCount := 300, outputPrtCount := 400, outputSobCount := 500, inputSobWidthUs := 10
      outputSobWidthUs := 20, inputPrtWidthUs := 30, outputPrtWidthUs := 40, inputPrtPri := 0
      outputPrtPri := 0, inputPpsWidthUs := 50, ppsTimestamp := 600, generatorStatus := 0
      dipSwitch := 0, checksumOk := false } true false false

def mockFixedHeader : Bytes := mockHeader.toBytes.take 32

def mockQccHeader : Bytes := mockHeader.toBytes.drop 32

theorem mockFixedHeader_length : mockFixedHeader.length = 32 := by
  rw [mockFixedHeader, List.length_take, mockHeader.toBytes_length]
  rfl

theorem mockQccHeader_length : mockQccHeader.length = 58 := by
  rw [mockQccHeader, List.length_drop, mockHeader.toBytes_length]
  rfl

/-- The response to a frame, and the QTRMs that reply. -/
def buildMockResponseFrame (queryFrame : Bytes) (fixedHeader : Bytes := mockFixedHeader)
    (qccHeader : Bytes := mockQccHeader) (faultIndices : List Nat := [])
    (faultMode : FaultMode := .none) (autoEchoHeader : Bool := true) :
    Bytes × List (Qtrm × String) :=
  let reply : Qtrm → Bytes × Option String := fun i =>
    mockReply i (responseSlot queryFrame i) (if i.val ∈ faultIndices then faultMode else .none)
  (slotFrame (responseHeader queryFrame fixedHeader qccHeader autoEchoHeader) fun i => (reply i).1,
    (List.finRange 96).filterMap fun i => (reply i).2.map fun name => (i, name))

/-! ## What the parsers accept -/

section

variable {body : Bytes} {statusType : Nat}

theorem finish10Byte_length : (finish10Byte body).length = body.length := by
  rw [finish10Byte, List.length_set]

theorem finish10Byte_getD {k : Nat} (hk : k ≠ 9) : (finish10Byte body).getD k 0 = body.getD k 0 := by
  rw [finish10Byte, List.getD_eq_getElem?_getD, List.getElem?_set_ne hk.symm,
    List.getD_eq_getElem?_getD]

/-- A reply of ten bytes has the status header that its first four bytes make. -/
theorem validStatusHeader_finish10Byte (hl : body.length = qtrmSlotSize) (h0 : body.getD 0 0 = 0xAA)
    (h1 : u8At body 1 = 0) (h3 : u8At body 3 % 16 = statusType) :
    validStatusHeader (finish10Byte body) statusType 10 = true := by
  have hlen : (finish10Byte body).length = qtrmSlotSize := by rw [finish10Byte_length, hl]
  have h0' : (finish10Byte body).getD 0 0 = 0xAA := by rw [finish10Byte_getD (by decide), h0]
  have h1' : messageLength (u8At (finish10Byte body) 1) = 10 := by
    rw [u8At, finish10Byte_getD (by decide)]
    exact congrArg messageLength h1
  have h3' : u8At (finish10Byte body) 3 % 16 = statusType := by
    rw [u8At, finish10Byte_getD (by decide)]
    exact h3
  have hchk : xorSum ((finish10Byte body).take 9) = (finish10Byte body).getD 9 0 := by
    have h9 : 9 < body.length := by rw [hl]; decide
    rw [finish10Byte, List.take_set_of_le le_rfl, List.getD_eq_getElem?_getD,
      List.getElem?_set_self h9]
    rfl
  unfold validStatusHeader
  simp only [h1', hlen, h0', h3', hchk, and_self, decide_true]

/-- A reply of ten bytes with the Link sentinel is a Link reply. -/
theorem isLinkResponseOk_finish10Byte (hl : body.length = qtrmSlotSize) (h0 : body.getD 0 0 = 0xAA)
    (h1 : u8At body 1 = 0) (h3 : u8At body 3 % 16 = statusTypeLink)
    (hs : slice (finish10Byte body) 4 5 = linkSentinel) :
    isLinkResponseOk (finish10Byte body) = true := by
  have hvalid := validStatusHeader_finish10Byte hl h0 h1 h3
  have hmsg : messageLength (u8At (finish10Byte body) 1) = 10 := by
    rw [u8At, finish10Byte_getD (by decide)]
    exact congrArg messageLength h1
  unfold validStatusHeader at hvalid
  unfold isLinkResponseOk
  simp only [hmsg, decide_eq_true_eq] at hvalid ⊢
  obtain ⟨hlen, h0', -, hchk, h3'⟩ := hvalid
  exact ⟨hlen, h0', le_rfl, by decide, hchk, h3', hs⟩

end

/-- A reply of 30 bytes has the status header that its first four bytes make. -/
theorem validStatusHeader_sealed {body : Bytes} {statusType : Nat} (hl : body.length = 29)
    (h0 : (sealed body).getD 0 0 = 0xAA) (h1 : u8At (sealed body) 1 = 4)
    (h3 : u8At (sealed body) 3 % 16 = statusType) :
    validStatusHeader (sealed body) statusType 30 = true := by
  have hlen : (sealed body).length = qtrmSlotSize := by rw [sealed_length, hl]; rfl
  have hmsg : messageLength (u8At (sealed body) 1) = 30 := congrArg messageLength h1
  have hchk : xorSum ((sealed body).take 29) = (sealed body).getD 29 0 := check_sealed hl
  unfold validStatusHeader
  simp only [hmsg, hlen, h0, h3, hchk, and_self, decide_true]

section

variable {i : Qtrm} {q : Bytes} {statusType : Nat} {builder : Qtrm → Bytes → Bytes}

/-- The status types that have a reply. -/
theorem replyBuilder_cases (h : replyBuilder statusType = some builder) :
    (statusType = statusTypeLink ∧ builder = mockLinkReply) ∨
    (statusType = statusTypeAck ∧ builder = mockAckReply) ∨
    (statusType = statusTypeHealth ∧ builder = mockHealthReply) ∨
    (statusType = statusTypeErrLog ∧ builder = mockErrLogReply) ∨
    (statusType = statusTypeMfg ∧ builder = mockMfgReply) ∨
    (statusType = statusTypeDiagnostic ∧ builder = mockDiagnosticReply) := by
  unfold replyBuilder at h
  split_ifs at h with h₁ h₂ h₃ h₄ h₅ h₆
  all_goals obtain rfl := Option.some.inj h
  · exact .inl ⟨h₁, rfl⟩
  · exact .inr (.inl ⟨h₂, rfl⟩)
  · exact .inr (.inr (.inl ⟨h₃, rfl⟩))
  · exact .inr (.inr (.inr (.inl ⟨h₄, rfl⟩)))
  · exact .inr (.inr (.inr (.inr (.inl ⟨h₅, rfl⟩))))
  · exact .inr (.inr (.inr (.inr (.inr ⟨h₆, rfl⟩))))

theorem mockDiagnosticReply_length : (mockDiagnosticReply i q).length = qtrmSlotSize := by
  unfold mockDiagnosticReply
  dsimp only
  rw [sealed_length, List.length_append, List.length_flatMap]
  split <;> rfl

theorem replyBuilder_length (h : replyBuilder statusType = some builder) :
    (builder i q).length = qtrmSlotSize := by
  rcases replyBuilder_cases h with ⟨-, rfl⟩ | ⟨-, rfl⟩ | ⟨-, rfl⟩ | ⟨-, rfl⟩ | ⟨-, rfl⟩ | ⟨-, rfl⟩
  · rfl
  · rfl
  · rfl
  · rfl
  · rfl
  · exact mockDiagnosticReply_length

theorem isLinkResponseOk_mockLinkReply (i : Qtrm) (q : Bytes) :
    isLinkResponseOk (mockLinkReply i q) = true :=
  isLinkResponseOk_finish10Byte rfl rfl rfl rfl rfl

theorem validStatusHeader_mockDiagnosticReply :
    validStatusHeader (mockDiagnosticReply i q) statusTypeDiagnostic 30 = true := by
  have hlen := @mockDiagnosticReply_length i q
  unfold mockDiagnosticReply at hlen ⊢
  dsimp only at hlen ⊢
  refine validStatusHeader_sealed ?_ rfl rfl ?_
  · rw [sealed_length] at hlen
    exact Nat.succ.inj hlen
  · change (byte _).toNat % 16 = statusTypeDiagnostic
    rw [byte_toNat, statusTypeDiagnostic]
    omega

/-- The parser of a status type accepts the reply to it. -/
theorem parser_accepts {parser : Bytes → Nat → Option StatusReply} (d : Nat)
    (hb : replyBuilder statusType = some builder) (hp : statusParser statusType = some parser)
    (hq : u8At q 3 % 16 = statusType) : (parser (builder i q) d).isSome := by
  rcases replyBuilder_cases hb with ⟨rfl, rfl⟩ | ⟨rfl, rfl⟩ | ⟨rfl, rfl⟩ | ⟨rfl, rfl⟩ | ⟨rfl, rfl⟩ |
    ⟨rfl, rfl⟩
  · have hlink : statusParser statusTypeLink = none := rfl
    rw [hlink] at hp
    cases hp
  all_goals obtain rfl := Option.some.inj hp
  · have hv : validStatusHeader (mockAckReply i q) statusTypeAck 10 = true :=
      validStatusHeader_finish10Byte rfl rfl rfl hq
    simp only [parseAckResponse, hv, if_true, Option.isSome_some]
  · have hv : validStatusHeader (mockHealthReply i q) statusTypeHealth 10 = true :=
      validStatusHeader_finish10Byte rfl rfl rfl rfl
    simp only [parseHealthResponse, hv, if_true, Option.isSome_some]
  · have hv : validStatusHeader (mockErrLogReply i q) statusTypeErrLog 10 = true :=
      validStatusHeader_finish10Byte rfl rfl rfl rfl
    simp only [parseErrLogResponse, hv, if_true, Option.isSome_some]
  · have hv : validStatusHeader (mockMfgReply i q) statusTypeMfg 10 = true :=
      validStatusHeader_finish10Byte rfl rfl rfl rfl
    simp only [parseMfgResponse, hv, if_true, Option.isSome_some]
  · simp only [parseDiagnosticResponse, validStatusHeader_mockDiagnosticReply, if_true]
    split <;> rfl

/-- No parser accepts an empty slot. -/
theorem parser_rejects {parser : Bytes → Nat → Option StatusReply} (d : Nat)
    (hp : statusParser statusType = some parser) : parser (zeros qtrmSlotSize) d = none := by
  have hv : ∀ st n, validStatusHeader (zeros qtrmSlotSize) st n = false := by
    intro st n
    have h0 : (zeros qtrmSlotSize).getD 0 0 ≠ 0xAA := by decide
    unfold validStatusHeader
    simp only [h0, false_and, and_false, decide_false]
  unfold statusParser at hp
  split_ifs at hp
  all_goals obtain rfl := Option.some.inj hp
  all_goals simp only [parseAckResponse, parseHealthResponse, parseErrLogResponse, parseMfgResponse,
    parseDiagnosticResponse, parseThermalShutdownConfigResponse, hv, Bool.false_eq_true, if_false]

end

/-! ## Queries -/

/-- A slot that asks for a status of the type `statusType`. -/
structure Requests (slot : Bytes) (statusType : Nat) : Prop where
  header : slot.getD 0 0 = 0xAA
  command : slot.getD 2 0 ∉ noReplyCommandTypes
  status : u8At slot 3 % 16 = statusType

section

variable {i : Qtrm} {slot : Bytes} {statusType : Nat} {builder : Qtrm → Bytes → Bytes}

/-- The answer to a slot without a fault. -/
theorem mockReply_none : mockReply i slot .none =
    match if slot.getD 0 0 ≠ 0xAA ∨ slot.getD 2 0 ∈ noReplyCommandTypes then .none
      else replyBuilder (u8At slot 3 % 16) with
    | .none => (zeros qtrmSlotSize, .none)
    | some builder => (builder i slot, some (statusTypeName (u8At slot 3 % 16))) := by
  unfold mockReply
  rfl

theorem mockReply_requests (h : Requests slot statusType) (hb : replyBuilder statusType = some builder) :
    mockReply i slot .none = (builder i slot, some (statusTypeName statusType)) := by
  have hreply : ¬(slot.getD 0 0 ≠ 0xAA ∨ slot.getD 2 0 ∈ noReplyCommandTypes) :=
    not_or.2 ⟨not_ne_iff.2 h.header, h.command⟩
  rw [mockReply_none, if_neg hreply, h.status, hb]

theorem mockReply_noReply (h : slot.getD 0 0 ≠ 0xAA ∨ slot.getD 2 0 ∈ noReplyCommandTypes) :
    mockReply i slot .none = (zeros qtrmSlotSize, .none) := by
  rw [mockReply_none, if_pos h]

theorem mockReply_length : (mockReply i slot .none).1.length = qtrmSlotSize := by
  rw [mockReply_none]
  split
  · exact zeros_length _
  · rename_i builder hb
    split_ifs at hb
    exact replyBuilder_length hb

end

/-- The query asks the QTRMs of `addressed` for a status of the type `statusType`, and leaves the
slots of the others empty. -/
structure Asks (query : Bytes) (addressed : Qtrm → Prop) (statusType : Nat) : Prop where
  length : query.length = totalPacketSize
  requests : ∀ i, addressed i → Requests (responseSlot query i) statusType
  empty : ∀ i, ¬addressed i → responseSlot query i = zeros qtrmSlotSize

/-- The QTRMs that a frame with a target addresses. -/
def Addressed (target : Option Qtrm) (i : Qtrm) : Prop := target = none ∨ target = some i

section

variable {header slot other : Bytes} {target : Option Qtrm} {statusType : Nat}

theorem asks_slotFrame {slots : Qtrm → Bytes} {addressed : Qtrm → Prop}
    (hh : header.length = headerSize) (hs : ∀ i, (slots i).length = qtrmSlotSize)
    (hr : ∀ i, addressed i → Requests (slots i) statusType)
    (he : ∀ i, ¬addressed i → slots i = zeros qtrmSlotSize) :
    Asks (slotFrame header slots) addressed statusType := by
  have hslot := responseSlot_slotFrame hh hs
  refine ⟨slotFrame_length hh hs, fun i hi => ?_, fun i hi => ?_⟩
  · rw [hslot]
    exact hr i hi
  · rw [hslot, he i hi]

/-- A slot for the targeted QTRMs and none for the rest. -/
theorem asks_targetFrame (hh : header.length = headerSize) (hs : slot.length = qtrmSlotSize)
    (hr : Requests slot statusType) :
    Asks (targetFrame header target slot (zeros qtrmSlotSize)) (Addressed target) statusType := by
  refine asks_slotFrame hh (fun i => ?_) (fun i hi => ?_) (fun i hi => if_neg hi)
  · split
    · exact hs
    · exact zeros_length _
  · rw [if_pos (show target = none ∨ target = some i from hi)]
    exact hr

/-- A slot for one QTRM and another for the rest, which both ask for a status. -/
theorem asks_targetFrame_all (hh : header.length = headerSize) (hs : slot.length = qtrmSlotSize)
    (ho : other.length = qtrmSlotSize) (hr : Requests slot statusType)
    (hro : Requests other statusType) :
    Asks (targetFrame header target slot other) (fun _ => True) statusType := by
  refine asks_slotFrame hh (fun i => ?_) (fun i _ => ?_) (fun i hi => absurd trivial hi)
  · split
    · exact hs
    · exact ho
  · split
    · exact hr
    · exact hro

variable {commandType : UInt8} {payload : Bytes} {sub : Nat}

theorem buildStatusFamilySlot_length : (buildStatusFamilySlot commandType statusType payload
    sub).length = max qtrmSlotSize (5 + payload.length) := by
  unfold buildStatusFamilySlot
  simp only [List.length_append, List.length_take, List.length_drop, List.length_cons,
    List.length_nil, zeros_length, qtrmSlotSize]
  omega

theorem buildStatusFamilySlot_fits (h : payload.length ≤ 25) : (buildStatusFamilySlot commandType
    statusType payload sub).length = qtrmSlotSize := by
  rw [buildStatusFamilySlot_length, qtrmSlotSize]
  omega

/-- A command asks for the status type that it is built with. -/
theorem requests_buildStatusFamilySlot (h : commandType ∉ noReplyCommandTypes) :
    Requests (buildStatusFamilySlot commandType statusType payload sub) (statusType % 16) := by
  refine ⟨rfl, h, ?_⟩
  change (byte _).toNat % 16 = _
  rw [byte_toNat]
  omega

theorem buildDwellSlot_length (channels : Fin 4 → QtrmChannel) :
    (buildDwellSlot channels).length = qtrmSlotSize := QtrmSlot.toBytes_length _

theorem requests_buildDwellSlot (channels : Fin 4 → QtrmChannel) :
    Requests (buildDwellSlot channels) statusTypeLink := ⟨rfl, (by decide : cmdDwell ∉ _), rfl⟩

/-- A memory write whose frame has its size has a payload that fits its slot. -/
theorem payload_le_of_frame {dataType memOp : Nat} (hh : header.length = headerSize)
    (h : (buildMemoryWriteFrame dataType payload target memOp header).length = totalPacketSize) :
    payload.length ≤ 24 := by
  by_contra hlong
  let slots : Qtrm → Bytes := fun i => if target = none ∨ target = some i then
    buildMemoryWriteSlot dataType payload memOp else zeros qtrmSlotSize
  have hslot : (buildMemoryWriteSlot dataType payload memOp).length = 6 + payload.length := by
    rw [buildMemoryWriteSlot, buildStatusFamilySlot_length, List.length_cons, qtrmSlotSize]
    omega
  have hsome : ∃ t, target = none ∨ target = some t := by
    cases target with
    | none => exact ⟨0, .inl rfl⟩
    | some t => exact ⟨t, .inr rfl⟩
  obtain ⟨t, ht⟩ := hsome
  have hlt : ((List.finRange 96).map fun _ => qtrmSlotSize).sum <
      ((List.finRange 96).map fun i => (slots i).length).sum := by
    refine List.sum_lt_sum _ _ (fun i _ => ?_) ⟨t, List.mem_finRange t, ?_⟩
    · dsimp only [slots]
      split
      · rw [hslot, qtrmSlotSize]
        omega
      · rw [zeros_length]
    · dsimp only [slots]
      rw [if_pos ht, hslot, qtrmSlotSize]
      omega
  have hlen : (slotFrame header slots).length = totalPacketSize := h
  rw [slotFrame, List.length_append, hh, List.length_flatMap] at hlen
  simp only [List.map_const', List.length_finRange, List.sum_replicate_nat] at hlt
  simp only [totalPacketSize, qtrmBlockSize, numQtrm, qtrmSlotSize] at hlen hlt
  omega

end

/-- The queries that ask for a Link reply, with the QTRMs that they address. The frame of a memory
write has its size, as the builder asserts. -/
inductive LinkQuery (header : Bytes) : Bytes → (Qtrm → Prop) → Prop
  | linkTest : LinkQuery header (buildLinkTestFrame header) (Addressed none)
  | individualLink (t : Qtrm) :
      LinkQuery header (buildIndividualLinkFrame t header) (Addressed (some t))
  | cal (tx : Bool) (t : Qtrm) (channel phase atten : Nat) (txOthers : Bool) :
      LinkQuery header (buildCalFrame tx t channel phase atten txOthers header) fun _ => True
  | isolation (tx : Bool) (target : Option Qtrm) :
      LinkQuery header (buildIsolationFrame tx target header) (Addressed target)
  | dwell (channels : Qtrm → Fin 4 → QtrmChannel) :
      LinkQuery header (buildDwellFrame channels header) fun _ => True
  | memoryWrite {dataType : Nat} {payload : Bytes} {target : Option Qtrm} {memOp : Nat}
      (h : (buildMemoryWriteFrame dataType payload target memOp header).length = totalPacketSize) :
      LinkQuery header (buildMemoryWriteFrame dataType payload target memOp header)
        (Addressed target)

theorem LinkQuery.asks {header query : Bytes} {addressed : Qtrm → Prop}
    (hh : header.length = headerSize) (h : LinkQuery header query addressed) :
    Asks query addressed statusTypeLink := by
  have hcal : ∀ tx : Bool, (if tx then cmdTxCal else cmdRxCal) ∉ noReplyCommandTypes := by decide
  have hiso : ∀ tx : Bool, (if tx then cmdTxIsolation else cmdRxIsolation) ∉ noReplyCommandTypes := by
    decide
  have hstatus : cmdStatus ∉ noReplyCommandTypes := by decide
  have hstorage : cmdDataStorage ∉ noReplyCommandTypes := by decide
  have hempty : ([] : Bytes).length ≤ 25 := Nat.zero_le _
  cases h with
  | linkTest =>
    exact asks_targetFrame hh (buildStatusFamilySlot_fits hempty)
      (requests_buildStatusFamilySlot hstatus)
  | individualLink t =>
    exact asks_targetFrame hh (buildStatusFamilySlot_fits hempty)
      (requests_buildStatusFamilySlot hstatus)
  | cal tx t channel phase atten txOthers =>
    exact asks_targetFrame_all hh (buildStatusFamilySlot_fits (by decide : 4 ≤ 25))
      (buildStatusFamilySlot_fits hempty) (requests_buildStatusFamilySlot (hcal tx))
      (requests_buildStatusFamilySlot (hiso txOthers))
  | isolation tx target =>
    exact asks_targetFrame hh (buildStatusFamilySlot_fits hempty)
      (requests_buildStatusFamilySlot (hiso tx))
  | dwell channels =>
    exact asks_slotFrame hh (fun i => buildDwellSlot_length _) (fun i _ => requests_buildDwellSlot _)
      fun i hi => absurd trivial hi
  | memoryWrite h =>
    exact asks_targetFrame hh (buildStatusFamilySlot_fits (Nat.succ_le_succ (payload_le_of_frame hh h)))
      (requests_buildStatusFamilySlot hstorage)

/-! ## Responses -/

/-- The header `r` answers the header `q`. -/
structure Answers (q : QccHeaderRx) (r : QccHeaderTx) : Prop where
  checksumOk : r.checksumOk = true
  messageNumber : r.messageNumber = q.messageNumber
  destinationId : r.destinationId = q.sourceId
  sourceId : r.sourceId = q.destinationId
  commandAck : r.commandAck = 1

/-- The frame `reply` has the size of a response, and a header that answers the query's. -/
def Answered (query reply : Bytes) : Prop :=
  reply.length = totalPacketSize ∧
  Answers (QccHeaderRx.decode (query.take headerSize)) (QccHeaderTx.decode (reply.take headerSize))

section

variable {query fixedHeader qccHeader : Bytes}

/-- The bytes of a response's header before its check byte; `tail` is what the query leaves open. -/
def responseBody (query tail : Bytes) : Bytes :=
  [query.getD 1 0, query.getD 0 0] ++ le16 totalPacketSize ++ [query.getD 4 0, 1] ++
    slice query 6 27 ++ tail

theorem responseBody_length {tail : Bytes} (hl : query.length = totalPacketSize)
    (ht : tail.length = 56) : (responseBody query tail).length = 89 := by
  have hs : (slice query 6 27).length = 27 := slice_length (by rw [hl]; decide)
  simp only [responseBody, List.length_append, hs, ht, le16_length, List.length_cons,
    List.length_nil]

theorem buildEchoedHeaderPrefix_eq (tail : Bytes) :
    buildEchoedHeaderPrefix query ++ tail = responseBody query tail := by
  have hdrop : (query.take echoedPrefixSize).drop 6 = slice query 6 27 := List.drop_take
  unfold buildEchoedHeaderPrefix responseBody
  dsimp only
  rw [getD_take (by decide), getD_take (by decide), getD_take (by decide), hdrop]

/-- The header of a response that echoes its query. -/
theorem responseHeader_eq (hl : query.length = totalPacketSize) (hf : fixedHeader.length = 32)
    (hq : qccHeader.length = 58) : ∃ tail : Bytes, tail.length = 56 ∧
      responseHeader query fixedHeader qccHeader true =
        responseBody query tail ++ [crc8 (responseBody query tail)] := by
  have hout : ((fixedHeader ++ qccHeader).drop echoedPrefixSize).length = 57 := by
    rw [List.length_drop, List.length_append, hf, hq, echoedPrefixSize]
  generalize hr : (fixedHeader ++ qccHeader).drop echoedPrefixSize = rest at hout
  obtain ⟨last, hlast⟩ := List.length_eq_one_iff.1 (show (rest.drop 56).length = 1 by
    rw [List.length_drop, hout])
  have hsplit : rest = rest.take 56 ++ [last] := by rw [← hlast, List.take_append_drop]
  have ht : (rest.take 56).length = 56 := by
    rw [List.length_take, hout]
    rfl
  generalize rest.take 56 = tail at hsplit ht
  refine ⟨tail, ht, ?_⟩
  have hbody := responseBody_length hl ht
  rw [responseHeader, if_pos rfl, hr, hsplit, ← List.append_assoc, buildEchoedHeaderPrefix_eq]
  dsimp only
  have htake : (responseBody query tail ++ [last]).take (headerSize - 1) = responseBody query tail :=
    List.take_left' hbody
  rw [htake, List.set_append_right _ _ (by rw [hbody]; decide), hbody]
  rfl

/-- The header of a response answers the header of the query. -/
theorem answers_responseHeader {slots : Qtrm → Bytes} (hl : query.length = totalPacketSize)
    (hf : fixedHeader.length = 32) (hq : qccHeader.length = 58) :
    Answers (QccHeaderRx.decode (query.take headerSize)) (QccHeaderTx.decode
      ((slotFrame (responseHeader query fixedHeader qccHeader true) slots).take headerSize)) := by
  obtain ⟨tail, ht, hheader⟩ := responseHeader_eq hl hf hq
  have hbody := responseBody_length hl ht
  have hget : ∀ k < headerSize, u8At (query.take headerSize) k = u8At query k := fun k hk =>
    congrArg UInt8.toNat (getD_take hk)
  have hnumber : ∀ rest : Bytes, messageNumber (responseBody query tail ++ rest) =
      messageNumber query := by
    intro rest
    have hs : (slice query 6 27).length = 27 := slice_length (by rw [hl]; decide)
    have hslice : slice (responseBody query tail ++ rest) 6 4 = slice query 6 4 := by
      have hfront : ([query.getD 1 0, query.getD 0 0] ++ le16 totalPacketSize ++
        [query.getD 4 0, 1]).length = 6 := rfl
      rw [responseBody, List.append_assoc, List.append_assoc, slice_append_right hfront.le, hfront,
        slice_append_left (by omega), slice, slice, slice, List.drop_zero, List.take_take]
      rfl
    have hlt := @u32At_lt query 6
    rw [slice_u32At (show 6 + 4 ≤ query.length by rw [hl]; decide)] at hslice
    rw [messageNumber, u32At_of_slice hslice, Nat.mod_eq_of_lt hlt, messageNumber]
  rw [slotFrame, hheader]
  refine ⟨?_, ?_, ?_, ?_, rfl⟩
  · rw [QccHeaderTx.decode_checksumOk hbody]
    exact decide_eq_true rfl
  · rw [QccHeaderTx.decode_messageNumber, List.append_assoc, hnumber]
    exact (QccHeaderTx.decode_messageNumber query).symm
  · exact (hget 1 (by decide)).symm
  · exact (hget 0 (by decide)).symm

/-- The response is made of answers without faults. -/
structure Faultless (query : Bytes) (response : Bytes × List (Qtrm × String)) : Prop where
  answered : Answered query response.1
  slots : ∀ i, responseSlot response.1 i = (mockReply i (responseSlot query i) .none).1
  replied : response.2 = (List.finRange 96).filterMap fun i =>
    (mockReply i (responseSlot query i) .none).2.map fun name => (i, name)

/-- What the responder sends back without faults. -/
theorem response_faultless {faultIndices : List Nat} {faultMode : FaultMode}
    (hf : fixedHeader.length = 32) (hq : qccHeader.length = 58)
    (hno : ∀ i ∈ faultIndices, faultMode = .none) (hl : query.length = totalPacketSize) :
    Faultless query (buildMockResponseFrame query fixedHeader qccHeader faultIndices faultMode) := by
  have hfault : ∀ i : Qtrm, (if i.val ∈ faultIndices then faultMode else .none) = .none := by
    intro i
    split
    · exact hno _ ‹_›
    · rfl
  have hheader : (responseHeader query fixedHeader qccHeader true).length = headerSize := by
    obtain ⟨tail, ht, hheader⟩ := responseHeader_eq hl hf hq
    rw [hheader, List.length_append, responseBody_length hl ht]
    rfl
  have hs : ∀ i : Qtrm, (mockReply i (responseSlot query i) .none).1.length = qtrmSlotSize :=
    fun _ => mockReply_length
  simp only [buildMockResponseFrame, hfault]
  exact ⟨⟨slotFrame_length hheader hs, answers_responseHeader hl hf hq⟩,
    responseSlot_slotFrame hheader hs, rfl⟩

end

section

variable {query : Bytes} {response : Bytes × List (Qtrm × String)} {addressed : Qtrm → Prop}
  {statusType : Nat} {builder : Qtrm → Bytes → Bytes}

/-- An empty slot gets no reply. -/
theorem zeros_noReply : (zeros qtrmSlotSize).getD 0 0 ≠ 0xAA ∨
    (zeros qtrmSlotSize).getD 2 0 ∈ noReplyCommandTypes := .inl (by decide)

/-- The slots of a response: a reply from each addressed QTRM, and nothing from the others. -/
theorem Faultless.slot (hr : Faultless query response) (ha : Asks query addressed statusType)
    (hb : replyBuilder statusType = some builder) (i : Qtrm) :
    (addressed i → responseSlot response.1 i = builder i (responseSlot query i)) ∧
      (¬addressed i → responseSlot response.1 i = zeros qtrmSlotSize) := by
  rw [hr.slots]
  refine ⟨fun hi => ?_, fun hi => ?_⟩
  · rw [mockReply_requests (ha.requests i hi) hb]
  · rw [ha.empty i hi, mockReply_noReply zeros_noReply]

/-- The Link replies are those of the addressed QTRMs. -/
theorem Faultless.parseLink (hr : Faultless query response)
    (ha : Asks query addressed statusTypeLink) :
    ∃ oks, parseLinkTestResponse response.1 = .ok oks ∧ ∀ i, oks i = true ↔ addressed i := by
  refine ⟨fun i => isLinkResponseOk (responseSlot response.1 i), ?_, fun i => ?_⟩
  · rw [parseLinkTestResponse, requireSize_eq_ok.2 hr.answered.1]
    rfl
  · obtain ⟨hin, hout⟩ := hr.slot ha rfl i
    dsimp only
    by_cases hi : addressed i
    · rw [hin hi]
      exact iff_of_true (isLinkResponseOk_mockLinkReply i _) hi
    · rw [hout hi]
      exact iff_of_false (by decide) hi

/-- The status replies are those of the addressed QTRMs. -/
theorem Faultless.parseStatus {parser : Bytes → Nat → Option StatusReply}
    (hr : Faultless query response) (ha : Asks query addressed statusType)
    (hb : replyBuilder statusType = some builder) (hp : statusParser statusType = some parser)
    (d : Nat) : ∃ replies, parseStatusFrame response.1 statusType d = .ok replies ∧
      ∀ i, (replies i).isSome ↔ addressed i := by
  refine ⟨fun i => parser (responseSlot response.1 i) d, ?_, fun i => ?_⟩
  · rw [parseStatusFrame, requireSize_eq_ok.2 hr.answered.1, hp]
    rfl
  · obtain ⟨hin, hout⟩ := hr.slot ha hb i
    dsimp only
    by_cases hi : addressed i
    · rw [hin hi]
      exact iff_of_true (parser_accepts d hb hp (ha.requests i hi).status) hi
    · rw [hout hi, parser_rejects d hp]
      exact iff_of_false (by decide) hi

end

/-- A soft reset gets no reply from any QTRM. -/
theorem softReset_noReply {header : Bytes} (hh : header.length = headerSize) (target : Option Qtrm)
    (i : Qtrm) : mockReply i (responseSlot (buildSoftResetFrame target header) i) .none =
      (zeros qtrmSlotSize, .none) := by
  have hs : ∀ i : Qtrm, (if target = none ∨ target = some i then buildSoftResetSlot
      else zeros qtrmSlotSize).length = qtrmSlotSize := by
    intro i
    split <;> rfl
  rw [buildSoftResetFrame, targetFrame, responseSlot_slotFrame hh hs]
  split
  · exact mockReply_noReply (.inr (by decide : cmdSoftReset ∈ noReplyCommandTypes))
  · exact mockReply_noReply zeros_noReply

/-- Without faults the response to a query carries an answer to its header, and its parser accepts
the QTRMs that the query addresses and rejects all others. No QTRM replies to a soft reset. -/
theorem query_answers (rc : RcSettings) (cmd : Nat) (body : Bytes) (size : Nat)
    {fixedHeader qccHeader : Bytes} (hf : fixedHeader.length = 32) (hq : qccHeader.length = 58)
    {faultIndices : List Nat} {faultMode : FaultMode} (hno : ∀ i ∈ faultIndices, faultMode = .none) :
    let header := (rc.buildHeader cmd body size).1
    let respond := fun query =>
      buildMockResponseFrame query fixedHeader qccHeader faultIndices faultMode
    (∀ query addressed, LinkQuery header query addressed → Answered query (respond query).1 ∧
      ∃ oks, parseLinkTestResponse (respond query).1 = .ok oks ∧ ∀ i, oks i = true ↔ addressed i) ∧
    (∀ statusType, (replyBuilder statusType).isSome → (statusParser statusType).isSome →
      ∀ target sub beam diagnosticType,
        let query := buildStatusFrame statusType target sub beam header
        Answered query (respond query).1 ∧
        ∃ replies, parseStatusFrame (respond query).1 statusType diagnosticType = .ok replies ∧
          ∀ i, (replies i).isSome ↔ Addressed target i) ∧
    ∀ target,
      let query := buildSoftResetFrame target header
      Answered query (respond query).1 ∧ (respond query).2 = [] ∧
        ∀ i, responseSlot (respond query).1 i = zeros qtrmSlotSize := by
  intro header respond
  have hh : header.length = headerSize := rc.buildHeader_length cmd body size
  have hr : ∀ query, query.length = totalPacketSize → Faultless query (respond query) :=
    fun query => response_faultless hf hq hno
  refine ⟨fun query addressed h => ?_, fun statusType hb hp target sub beam d => ?_, fun target => ?_⟩
  · have ha := h.asks hh
    exact ⟨(hr query ha.length).answered, (hr query ha.length).parseLink ha⟩
  · obtain ⟨builder, hb⟩ := Option.isSome_iff_exists.1 hb
    obtain ⟨parser, hp⟩ := Option.isSome_iff_exists.1 hp
    have hst : statusType % 16 = statusType := by
      rcases replyBuilder_cases hb with ⟨rfl, -⟩ | ⟨rfl, -⟩ | ⟨rfl, -⟩ | ⟨rfl, -⟩ | ⟨rfl, -⟩ | ⟨rfl, -⟩
      all_goals rfl
    intro query
    have ha : Asks query (Addressed target) (statusType % 16) :=
      asks_targetFrame hh (buildStatusFamilySlot_fits (by decide : 1 ≤ 25))
        (requests_buildStatusFamilySlot (by decide))
    rw [hst] at ha
    exact ⟨(hr query ha.length).answered, (hr query ha.length).parseStatus ha hb hp d⟩
  · intro query
    have hl : query.length = totalPacketSize :=
      slotFrame_length hh fun i => by split <;> rfl
    obtain ⟨hans, hslots, hreplied⟩ := hr query hl
    have hnone := softReset_noReply hh target
    refine ⟨hans, ?_, fun i => ?_⟩
    · rw [hreplied]
      simp only [query, hnone, Option.map_none, List.filterMap_none]
    · rw [hslots, hnone]

/-- The Link query to one QTRM, answered with the default headers. -/
theorem query_answers_individual_link :
    let rc : RcSettings := { date := 5, month := 7, year := 2026, timeOfDay := 0 }
    let query := buildIndividualLinkFrame 3 (rc.buildHeader commandIdDataDistribution).1
    ∃ oks, parseLinkTestResponse (buildMockResponseFrame query).1 = .ok oks ∧
      ∀ i, oks i = true ↔ Addressed (some 3) i :=
  ((query_answers { date := 5, month := 7, year := 2026, timeOfDay := 0 } commandIdDataDistribution []
    totalPacketSize mockFixedHeader_length mockQccHeader_length
    fun _ hi => absurd hi List.not_mem_nil).1 _ _ (.individualLink 3)).2

end Responder

end QccGui
