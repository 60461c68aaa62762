import QccGui.Gui.Packet
import QccGui.Lib.Record

/-!
# Header codecs

The two 90 byte headers and the ten byte response to CHIP_ID_READ, written and read back.

* `QccHeaderRx.layout`, `QccHeaderTx.layout`, `ChipIdResponse.layout`: the fields at their documented
  offsets.
* `Laid`: the bytes of a record, closed by the CRC-8 of all before.
* `QccHeaderRx.fromBytes`, `buildChipIdResponse`, `ChipIdResponse.fromBytes`.
* `header_codecs`: both headers and the response are laid out as documented, and writing and reading
  them undo each other.
-/

namespace QccGui

open Lib

/-! ## Numbers -/

def u64At (raw : Bytes) (i : Nat) : Nat := u32At raw i + 2 ^ 32 * u32At raw (i + 4)

section

variable {raw : Bytes} {i v : Nat}

theorem u16At_lt : u16At raw i < 2 ^ 16 := word16_lt _ _

theorem u32At_lt : u32At raw i < 2 ^ 32 := by
  have h₁ := @u16At_lt raw i
  have h₂ := @u16At_lt raw (i + 2)
  unfold u32At
  omega

-- what is read is what was written
theorem u8At_of_slice (h : slice raw i 1 = [byte v]) : u8At raw i = v % 2 ^ 8 := by
  have h0 : raw.getD i 0 = byte v := getD_of_slice h Nat.one_pos
  rw [u8At, h0]
  exact byte_toNat v

theorem u16At_of_slice (h : slice raw i 2 = le16 v) : u16At raw i = v % 2 ^ 16 := by
  have h0 : raw.getD i 0 = byte v := getD_of_slice h Nat.two_pos
  have h1 : raw.getD (i + 1) 0 = byte (v / 256) := getD_of_slice h Nat.one_lt_two
  rw [u16At, h0, h1, word16_eq, byte_toNat, byte_toNat]
  omega

theorem u32At_of_slice (h : slice raw i 4 = le32 v) : u32At raw i = v % 2 ^ 32 := by
  obtain ⟨h₁, h₂⟩ := @slice_parts raw (le16 v) _ i 2 2 h (le16_length v)
  rw [u32At, u16At_of_slice h₁, u16At_of_slice h₂]
  omega

theorem u64At_of_slice (h : slice raw i 8 = le64 v) : u64At raw i = v % 2 ^ 64 := by
  obtain ⟨h₁, h₂⟩ := @slice_parts raw (le32 v) _ i 4 4 h (le32_length v)
  rw [u64At, u32At_of_slice h₁, u32At_of_slice h₂]
  omega

-- what is read can be written again
theorem slice_u8At (h : i + 1 ≤ raw.length) : slice raw i 1 = [byte (u8At raw i)] := by
  rw [slice_one h, u8At, byte_of_toNat]

theorem slice_u16At (h : i + 2 ≤ raw.length) : slice raw i 2 = le16 (u16At raw i) := by
  rw [slice_add raw i 1 1, slice_one (by omega), slice_one (by omega), u16At, le16_word16]
  rfl

theorem slice_u32At (h : i + 4 ≤ raw.length) : slice raw i 4 = le32 (u32At raw i) := by
  have hlt := @u16At_lt raw i
  rw [slice_add raw i 2 2, slice_u16At (by omega), slice_u16At (by omega), le32]
  congr 1 <;> apply le16_congr <;> unfold u32At <;> omega

theorem slice_u64At (h : i + 8 ≤ raw.length) : slice raw i 8 = le64 (u64At raw i) := by
  have hlt := @u32At_lt raw i
  rw [slice_add raw i 4 4, slice_u32At (by omega), slice_u32At (by omega), le64]
  congr 1 <;> apply le32_congr <;> unfold u64At <;> omega

end

/-! ## Records with a check byte -/

/-- The bytes `raw` are a record with the fields `fs`, closed by the CRC-8 of all bytes before. -/
structure Laid (fs : List Field) (raw : Bytes) : Prop where
  tiles : Tiles fs 0 (raw.length - 1)
  fields : ∀ f ∈ fs, f.In raw
  checksum : raw.getD (raw.length - 1) 0 = crc8 (raw.take (raw.length - 1))

section

variable {fs : List Field} {raw : Bytes} {n : Nat}

theorem laid_pack (h : Tiles fs 0 n) : Laid fs (pack fs ++ [crc8 (pack fs)]) := by
  have hlen : (pack fs).length = n := by
    rw [← pack_length h, Nat.zero_add]
  have htotal : (pack fs ++ [crc8 (pack fs)]).length - 1 = (pack fs).length := by simp
  refine ⟨?_, fun f hf => in_pack h hf, ?_⟩
  · rwa [htotal, hlen]
  · rw [htotal, List.take_left, getD_concat rfl]

/-- Bytes with a right check byte that have every field of a record are that record. -/
theorem eq_pack (h : Tiles fs 0 n) (hf : ∀ f ∈ fs, f.In raw) (hl : raw.length = n + 1)
    (hc : crc8 (raw.take n) = raw.getD n 0) : pack fs ++ [crc8 (pack fs)] = raw := by
  have hpack : pack fs = raw.take n := by
    rw [pack_of_slices h hf, Nat.sub_zero]
    rfl
  rw [hpack, hc, take_append_getD hl]

end

/-! ## Response headers -/

namespace QccHeaderTx

/-- The documented layout. -/
def layout (h : QccHeaderTx) : List Field :=
  [⟨0, [byte h.destinationId]⟩, ⟨1, [byte h.sourceId]⟩, ⟨2, le16 h.packetSize⟩,
    ⟨4, [byte h.echoByte]⟩, ⟨5, [byte h.commandAck]⟩, ⟨6, le32 h.messageNumber⟩,
    ⟨10, [byte h.date]⟩, ⟨11, [byte h.month]⟩, ⟨12, le16 h.year⟩, ⟨14, le32 h.timeOfDay⟩,
    ⟨18, le32 h.qccQueryCount⟩, ⟨22, le32 h.qccResponseCount⟩,
    ⟨26, [byte h.applicationFirmwareVersion]⟩, ⟨27, [byte h.rtlFirmwareVersion]⟩,
    ⟨28, zeros 3⟩, ⟨31, [0]⟩, ⟨32, [byte h.qccCommand]⟩,
    ⟨33, le16 (h.fpgaTemperature % 1024).toNat⟩, ⟨35, le16 h.boardTemperature⟩,
    ⟨37, le16 h.boardHumidity⟩, ⟨39, le32 h.inputSobCount⟩, ⟨43, le32 h.inputPrtCount⟩,
    ⟨47, le32 h.inputPpsCount⟩, ⟨51, le32 h.outputPrtCount⟩, ⟨55, le32 h.outputSobCount⟩,
    ⟨59, le16 h.inputSobWidthUs⟩, ⟨61, le16 h.outputSobWidthUs⟩, ⟨63, le16 h.inputPrtWidthUs⟩,
    ⟨65, le16 h.outputPrtWidthUs⟩, ⟨67, le32 h.inputPrtPri⟩, ⟨71, le32 h.outputPrtPri⟩,
    ⟨75, le16 h.inputPpsWidthUs⟩, ⟨77, le32 h.ppsTimestamp⟩, ⟨81, [byte h.generatorStatus]⟩,
    ⟨82, [byte h.dipSwitch]⟩, ⟨83, zeros 2⟩, ⟨85, zeros 4⟩]

/-- Every field fits its place; the temperature is a signed number of ten bits. -/
structure InRange (h : QccHeaderTx) : Prop where
  bytes : ∀ v ∈ [h.destinationId, h.sourceId, h.echoByte, h.commandAck, h.date, h.month,
    h.applicationFirmwareVersion, h.rtlFirmwareVersion, h.qccCommand, h.generatorStatus,
    h.dipSwitch], v < 2 ^ 8
  words : ∀ v ∈ [h.packetSize, h.year, h.boardTemperature, h.boardHumidity, h.inputSobWidthUs,
    h.outputSobWidthUs, h.inputPrtWidthUs, h.outputPrtWidthUs, h.inputPpsWidthUs], v < 2 ^ 16
  doubles : ∀ v ∈ [h.messageNumber, h.timeOfDay, h.qccQueryCount, h.qccResponseCount,
    h.inputSobCount, h.inputPrtCount, h.inputPpsCount, h.outputPrtCount, h.outputSobCount,
    h.inputPrtPri, h.outputPrtPri, h.ppsTimestamp], v < 2 ^ 32
  temperature : -512 ≤ h.fpgaTemperature ∧ h.fpgaTemperature ≤ 511

/-- The reserved bytes and the six upper bits of the temperature are zero. -/
structure Canonical (raw : Bytes) : Prop where
  reserved0 : slice raw 28 3 = zeros 3
  reservedB : raw.getD 31 0 = 0
  temperature : u16At raw 33 < 1024
  reserved1 : slice raw 83 2 = zeros 2
  reserved2 : slice raw 85 4 = zeros 4

theorem layout_tiles (h : QccHeaderTx) : Tiles h.layout 0 89 := by
  simp only [layout, Tiles, List.length_singleton, le16_length, le32_length, zeros_length,
    Nat.reduceAdd, and_self]

theorem bodyBytes_eq (h : QccHeaderTx) : h.bodyBytes = pack h.layout := by
  have hpair : ∀ (a b : UInt8) (bs : Bytes), [a, b] ++ bs = [a] ++ ([b] ++ bs) := fun _ _ _ => rfl
  unfold bodyBytes layout
  simp only [pack_cons, pack_nil, List.append_assoc, List.append_nil, hpair]

theorem laid_toBytes (h : QccHeaderTx) : Laid h.layout h.toBytes := by
  rw [toBytes, bodyBytes_eq]
  exact laid_pack (layout_tiles h)

/-- What is read of a header that was written. -/
theorem decode_toBytes {h : QccHeaderTx} (hr : h.InRange) :
    decode h.toBytes = { h with checksumOk := true } := by
  obtain ⟨-, hf, hc⟩ := laid_toBytes h
  rw [toBytes_length] at hc
  generalize h.toBytes = raw at hf hc
  obtain ⟨hb, hw, hd, ht⟩ := hr
  simp only [layout, List.forall_mem_cons, Field.In, List.length_singleton, le16_length,
    le32_length] at hf hb hw hd
  obtain ⟨f0, f1, f2, f4, f5, f6, f10, f11, f12, f14, f18, f22, f26, f27, -, -, f32, f33, f35, f37, f39,
    f43, f47, f51, f55, f59, f61, f63, f65, f67, f71, f75, f77, f81, f82, -⟩ := hf
  have htemp : (if u16At raw 33 % 1024 ≥ 512 then ((u16At raw 33 % 1024 : Nat) : Int) - 1024
      else (u16At raw 33 % 1024 : Nat)) = h.fpgaTemperature := by
    rw [u16At_of_slice f33]
    split <;> omega
  have hchk : decide (crc8 (raw.take 89) = raw.getD 89 0) = true := decide_eq_true hc.symm
  simp only [decode, htemp, hchk, u8At_of_slice f0, u8At_of_slice f1, u16At_of_slice f2,
    u8At_of_slice f4, u8At_of_slice f5, u32At_of_slice f6, u8At_of_slice f10, u8At_of_slice f11,
    u16At_of_slice f12, u32At_of_slice f14, u32At_of_slice f18, u32At_of_slice f22,
    u8At_of_slice f26, u8At_of_slice f27, u8At_of_slice f32, u16At_of_slice f35,
    u16At_of_slice f37, u32At_of_slice f39, u32At_of_slice f43, u32At_of_slice f47,
    u32At_of_slice f51, u32At_of_slice f55, u16At_of_slice f59, u16At_of_slice f61,
    u16At_of_slice f63, u16At_of_slice f65, u32At_of_slice f67, u32At_of_slice f71,
    u16At_of_slice f75, u32At_of_slice f77, u8At_of_slice f81, u8At_of_slice f82,
    Nat.mod_eq_of_lt, hb, hw, hd]

/-- What is written of a header that was read. -/
theorem toBytes_decode {raw : Bytes} (hl : raw.length = headerSize)
    (hc : (decode raw).checksumOk = true) (hr : Canonical raw) : (decode raw).toBytes = raw := by
  have hlen : raw.length = 89 + 1 := hl
  rw [toBytes, bodyBytes_eq]
  refine eq_pack (layout_tiles _) ?_ hlen (of_decide_eq_true hc)
  obtain ⟨r28, r31, r33, r83, r85⟩ := hr
  have htemp : ((decode raw).fpgaTemperature % 1024).toNat = u16At raw 33 := by
    simp only [decode]
    split <;> omega
  have hreserved : slice raw 31 1 = [0] := by rw [slice_one (by omega), r31]
  simp only [layout, List.forall_mem_cons, Field.In, List.length_singleton, le16_length,
    le32_length, zeros_length, htemp, r28, hreserved, r83, r85]
  simp only [decode]
  simp (disch := omega) only [slice_u8At, slice_u16At, slice_u32At, and_self, List.not_mem_nil,
    false_implies, implies_true]

end QccHeaderTx

/-! ## Command headers -/

namespace QccHeaderRx

/-- The documented layout. -/
def layout (h : QccHeaderRx) : List Field :=
  [⟨0, [byte h.destinationId]⟩, ⟨1, [byte h.sourceId]⟩, ⟨2, le16 h.packetSize⟩,
    ⟨4, [byte h.echoByte]⟩, ⟨5, [byte h.commandAck]⟩, ⟨6, le32 h.messageNumber⟩,
    ⟨10, [byte h.date]⟩, ⟨11, [byte h.month]⟩, ⟨12, le16 h.year⟩, ⟨14, le32 h.timeOfDay⟩,
    ⟨18, h.reserved0⟩, ⟨32, [byte h.qccCommand]⟩, ⟨33, h.messageBody⟩]

/-- Every field fits its place. -/
structure InRange (h : QccHeaderRx) : Prop where
  bytes : ∀ v ∈ [h.destinationId, h.sourceId, h.echoByte, h.commandAck, h.date, h.month,
    h.qccCommand], v < 2 ^ 8
  words : ∀ v ∈ [h.packetSize, h.year], v < 2 ^ 16
  doubles : ∀ v ∈ [h.messageNumber, h.timeOfDay], v < 2 ^ 32
  reserved0 : h.reserved0.length = 14
  messageBody : h.messageBody.length = 56

/-- The header in 90 bytes, unchecked. -/
def decode (raw : Bytes) : QccHeaderRx :=
  { destinationId := u8At raw 0, sourceId := u8At raw 1, packetSize := u16At raw 2
    echoByte := u8At raw 4, commandAck := u8At raw 5, messageNumber := u32At raw 6
    date := u8At raw 10, month := u8At raw 11, year := u16At raw 12, timeOfDay := u32At raw 14
    reserved0 := slice raw 18 14, qccCommand := u8At raw 32, messageBody := slice raw 33 56 }

/-- The header, and whether its check byte is right. -/
def fromBytes (raw : Bytes) : Except FrameError (QccHeaderRx × Bool) := do
  requireSize raw headerSize "command header"
  return (decode raw, crc8 (raw.take 89) = raw.getD 89 0)

variable {h : QccHeaderRx}

theorem layout_tiles (h₁ : h.reserved0.length = 14) (h₂ : h.messageBody.length = 56) :
    Tiles h.layout 0 89 := by
  simp only [layout, Tiles, List.length_singleton, le16_length, le32_length, h₁, h₂, Nat.reduceAdd,
    and_self]

theorem bodyBytes_eq (h₁ : h.reserved0.length = 14) (h₂ : h.messageBody.length = 56) :
    h.bodyBytes = pack h.layout := by
  have hpair : ∀ (a b : UInt8) (bs : Bytes), [a, b] ++ bs = [a] ++ ([b] ++ bs) := fun _ _ _ => rfl
  unfold bodyBytes layout
  rw [ljust_self h₁, ljust_self h₂]
  simp only [pack_cons, pack_nil, List.append_assoc, List.append_nil, hpair]

theorem laid_toBytes (h₁ : h.reserved0.length = 14) (h₂ : h.messageBody.length = 56) :
    Laid h.layout h.toBytes := by
  rw [toBytes, bodyBytes_eq h₁ h₂]
  exact laid_pack (layout_tiles h₁ h₂)

/-- What is read of a header that was written. -/
theorem fromBytes_toBytes (hr : h.InRange) : fromBytes h.toBytes = .ok (h, true) := by
  obtain ⟨hb, hw, hd, h₁, h₂⟩ := hr
  obtain ⟨-, hf, hc⟩ := laid_toBytes h₁ h₂
  have hlen := toBytes_length h
  rw [hlen] at hc
  generalize h.toBytes = raw at hf hc hlen
  simp only [layout, List.forall_mem_cons, Field.In, List.length_singleton, le16_length,
    le32_length, h₁, h₂] at hf hb hw hd
  obtain ⟨f0, f1, f2, f4, f5, f6, f10, f11, f12, f14, f18, f32, f33, -⟩ := hf
  have hdecode : decode raw = h := by
    simp only [decode, u8At_of_slice f0, u8At_of_slice f1, u16At_of_slice f2, u8At_of_slice f4,
      u8At_of_slice f5, u32At_of_slice f6, u8At_of_slice f10, u8At_of_slice f11, u16At_of_slice f12,
      u32At_of_slice f14, f18, u8At_of_slice f32, f33, Nat.mod_eq_of_lt, hb, hw, hd]
  have hchk : decide (crc8 (raw.take 89) = raw.getD 89 0) = true := decide_eq_true hc.symm
  rw [fromBytes, requireSize, if_neg (by simpa using hlen), hdecode, hchk]
  rfl

/-- What is written of a header that was read. -/
theorem toBytes_decode {raw : Bytes} (hl : raw.length = headerSize)
    (hc : crc8 (raw.take 89) = raw.getD 89 0) : (decode raw).toBytes = raw := by
  have hlen : raw.length = 89 + 1 := hl
  have h₁ : (decode raw).reserved0.length = 14 := slice_length (by omega)
  have h₂ : (decode raw).messageBody.length = 56 := slice_length (by omega)
  rw [toBytes, bodyBytes_eq h₁ h₂]
  refine eq_pack (layout_tiles h₁ h₂) ?_ hlen hc
  simp only [layout, List.forall_mem_cons, Field.In, List.length_singleton, le16_length,
    le32_length, h₁, h₂]
  simp only [decode]
  simp (disch := omega) only [slice_u8At, slice_u16At, slice_u32At, and_self, List.not_mem_nil,
    false_implies, implies_true]

end QccHeaderRx

/-! ## The response to CHIP_ID_READ -/

def buildChipIdResponse (commandId chipId : Nat) : Bytes :=
  let body := [byte commandId] ++ le64 chipId
  body ++ [crc8 body]

structure ChipIdResponse where
  commandId : Nat
  chipId : Nat
  checksumOk : Bool
  deriving DecidableEq, Repr

namespace ChipIdResponse

def fromBytes (raw : Bytes) : Except FrameError ChipIdResponse := do
  requireSize raw chipIdResponseSize "CHIP_ID_READ response"
  return ⟨u8At raw 0, u64At raw 1, crc8 (raw.take 9) = raw.getD 9 0⟩

def layout (commandId chipId : Nat) : List Field := [⟨0, [byte commandId]⟩, ⟨1, le64 chipId⟩]

theorem layout_tiles (commandId chipId : Nat) : Tiles (layout commandId chipId) 0 9 :=
  ⟨rfl, rfl, rfl⟩

theorem build_eq (commandId chipId : Nat) : buildChipIdResponse commandId chipId =
    pack (layout commandId chipId) ++ [crc8 (pack (layout commandId chipId))] := rfl

theorem laid_build (commandId chipId : Nat) :
    Laid (layout commandId chipId) (buildChipIdResponse commandId chipId) :=
  laid_pack (layout_tiles commandId chipId)

theorem build_length (commandId chipId : Nat) :
    (buildChipIdResponse commandId chipId).length = chipIdResponseSize := rfl

/-- What is read of a response that was built. -/
theorem fromBytes_build {commandId chipId : Nat} (hcmd : commandId < 2 ^ 8) (hid : chipId < 2 ^ 64) :
    fromBytes (buildChipIdResponse commandId chipId) = .ok ⟨commandId, chipId, true⟩ := by
  obtain ⟨-, hf, hc⟩ := laid_build commandId chipId
  have hlen := build_length commandId chipId
  rw [hlen] at hc
  generalize buildChipIdResponse commandId chipId = raw at hf hc hlen
  simp only [layout, List.forall_mem_cons, Field.In, List.length_singleton, le64_length] at hf
  obtain ⟨f0, f1, -⟩ := hf
  have hchk : decide (crc8 (raw.take 9) = raw.getD 9 0) = true := decide_eq_true hc.symm
  rw [fromBytes, requireSize, if_neg (by simpa using hlen), u8At_of_slice f0, u64At_of_slice f1, hchk,
    Nat.mod_eq_of_lt hcmd, Nat.mod_eq_of_lt hid]
  rfl

/-- What is built of a response that was read. -/
theorem build_read {raw : Bytes} (hl : raw.length = chipIdResponseSize)
    (hc : crc8 (raw.take 9) = raw.getD 9 0) :
    buildChipIdResponse (u8At raw 0) (u64At raw 1) = raw := by
  have hlen : raw.length = 9 + 1 := hl
  rw [build_eq]
  refine eq_pack (layout_tiles _ _) ?_ hlen hc
  simp only [layout, List.forall_mem_cons, Field.In, List.length_singleton, le64_length]
  exact ⟨slice_u8At (by omega), slice_u64At (by omega), fun _ h => absurd h List.not_mem_nil⟩

end ChipIdResponse

/-! ## The codecs -/

theorem requireSize_eq_ok {raw : Bytes} {n : Nat} {what : String} :
    requireSize raw n what = .ok () ↔ raw.length = n := by
  unfold requireSize
  split
  · rename_i h
    exact iff_of_false (fun he => by cases he) h
  · rename_i h
    exact iff_of_true rfl (not_ne_iff.1 h)

/-- What a parser that checks a size and then decodes accepts. -/
theorem checked_eq_ok {α : Type} {raw : Bytes} {n : Nat} {what : String} {x y : α}
    (h : (do requireSize raw n what; return x : Except FrameError α) = .ok y) :
    raw.length = n ∧ x = y := by
  cases hr : requireSize raw n what with
  | error e =>
    rw [hr] at h
    cases h
  | ok u =>
    rw [hr] at h
    exact ⟨requireSize_eq_ok.1 hr, Except.ok.inj h⟩

/-- The check byte behind its bytes. -/
theorem check_append {body : Bytes} {n : Nat} (hl : body.length = n) :
    decide (crc8 ((body ++ [crc8 body]).take n) = (body ++ [crc8 body]).getD n 0) = true := by
  subst hl
  simp

theorem QccHeaderTx.fromBytes_append {body : Bytes} (hl : body.length = 89) :
    fromBytes (body ++ [crc8 body]) = .ok (decode (body ++ [crc8 body])) ∧
      (decode (body ++ [crc8 body])).checksumOk = true := by
  have hsize : (body ++ [crc8 body]).length = headerSize := by
    rw [List.length_append, hl]
    rfl
  refine ⟨?_, check_append hl⟩
  rw [fromBytes, requireSize_eq_ok.2 hsize]
  rfl

theorem QccHeaderRx.fromBytes_append {body : Bytes} (hl : body.length = 89) :
    fromBytes (body ++ [crc8 body]) = .ok (decode (body ++ [crc8 body]), true) := by
  have hsize : (body ++ [crc8 body]).length = headerSize := by
    rw [List.length_append, hl]
    rfl
  rw [fromBytes, requireSize_eq_ok.2 hsize, check_append hl]
  rfl

theorem ChipIdResponse.fromBytes_append {body : Bytes} (hl : body.length = 9) :
    fromBytes (body ++ [crc8 body]) =
      .ok ⟨u8At (body ++ [crc8 body]) 0, u64At (body ++ [crc8 body]) 1, true⟩ := by
  have hsize : (body ++ [crc8 body]).length = chipIdResponseSize := by
    rw [List.length_append, hl]
    rfl
  rw [fromBytes, requireSize_eq_ok.2 hsize, check_append hl]
  rfl

/-- Headers in range are written as documented and read back; a header that is accepted, with its
reserved bits zero, is written again as it was. The same holds of the response to CHIP_ID_READ. -/
theorem header_codecs :
    (∀ h : QccHeaderTx, h.InRange → h.toBytes.length = headerSize ∧ Laid h.layout h.toBytes ∧
      QccHeaderTx.fromBytes h.toBytes = .ok { h with checksumOk := true }) ∧
    (∀ raw (h : QccHeaderTx), QccHeaderTx.fromBytes raw = .ok h → h.checksumOk = true →
      QccHeaderTx.Canonical raw → h.toBytes = raw) ∧
    (∀ h : QccHeaderRx, h.InRange → h.toBytes.length = headerSize ∧ Laid h.layout h.toBytes ∧
      QccHeaderRx.fromBytes h.toBytes = .ok (h, true)) ∧
    (∀ raw (h : QccHeaderRx), QccHeaderRx.fromBytes raw = .ok (h, true) → h.toBytes = raw) ∧
    (∀ commandId chipId, commandId < 2 ^ 8 → chipId < 2 ^ 64 →
      (buildChipIdResponse commandId chipId).length = chipIdResponseSize ∧
      Laid (ChipIdResponse.layout commandId chipId) (buildChipIdResponse commandId chipId) ∧
      ChipIdResponse.fromBytes (buildChipIdResponse commandId chipId) =
        .ok ⟨commandId, chipId, true⟩) ∧
    (∀ raw (h : ChipIdResponse), ChipIdResponse.fromBytes raw = .ok h → h.checksumOk = true →
      buildChipIdResponse h.commandId h.chipId = raw) := by
  refine ⟨fun h hr => ⟨h.toBytes_length, h.laid_toBytes, ?_⟩, fun raw h hok hc hr => ?_,
    fun h hr => ⟨h.toBytes_length, QccHeaderRx.laid_toBytes hr.reserved0 hr.messageBody,
      QccHeaderRx.fromBytes_toBytes hr⟩, fun raw h hok => ?_,
    fun commandId chipId hcmd hid => ⟨ChipIdResponse.build_length _ _, ChipIdResponse.laid_build _ _,
      ChipIdResponse.fromBytes_build hcmd hid⟩, fun raw h hok hc => ?_⟩
  · rw [QccHeaderTx.fromBytes, requireSize_eq_ok.2 h.toBytes_length, QccHeaderTx.decode_toBytes hr]
    rfl
  · obtain ⟨hl, rfl⟩ := checked_eq_ok hok
    exact QccHeaderTx.toBytes_decode hl hc hr
  · obtain ⟨hl, hx⟩ := checked_eq_ok hok
    obtain ⟨rfl, hc⟩ := Prod.mk.inj hx
    exact QccHeaderRx.toBytes_decode hl (of_decide_eq_true hc)
  · obtain ⟨hl, rfl⟩ := checked_eq_ok hok
    exact ChipIdResponse.build_read hl (of_decide_eq_true hc)

/-- Fields that are written and read back, and bytes that are read and written back. -/
theorem header_codecs_values :
    let tx : QccHeaderTx := { QccHeaderTx.decode (zeros headerSize) with
      messageNumber := 7, fpgaTemperature := -40, dipSwitch := 255, checksumOk := true }
    let rx : QccHeaderRx := { QccHeaderRx.decode (zeros headerSize) with
      messageNumber := 7, year := 2026, messageBody := List.replicate 56 0xFF }
    let response := List.replicate 28 0xA5 ++ zeros 4 ++ [0xA5, 0xA5, 0x01] ++
      List.replicate 48 0xA5 ++ zeros 6
    let command : Bytes := List.replicate 89 0xA5
    let chip : Bytes := List.replicate 9 0xA5
    (QccHeaderTx.fromBytes tx.toBytes = .ok tx ∧
      (QccHeaderTx.decode (response ++ [crc8 response])).toBytes = response ++ [crc8 response]) ∧
    (QccHeaderRx.fromBytes rx.toBytes = .ok (rx, true) ∧
      (QccHeaderRx.decode (command ++ [crc8 command])).toBytes = command ++ [crc8 command]) ∧
    ChipIdResponse.fromBytes (buildChipIdResponse 0x1D 0x0123456789ABCDEF) =
      .ok ⟨0x1D, 0x0123456789ABCDEF, true⟩ ∧
    buildChipIdResponse (u8At (chip ++ [crc8 chip]) 0) (u64At (chip ++ [crc8 chip]) 1) =
      chip ++ [crc8 chip] := by
  intro tx rx response command chip
  obtain ⟨htx, htx', hrx, hrx', hchip, hchip'⟩ := header_codecs
  have hresponse : QccHeaderTx.Canonical (response ++ [crc8 response]) :=
    ⟨by decide, by decide, by decide, by decide, by decide⟩
  obtain ⟨hread, hcheck⟩ := @QccHeaderTx.fromBytes_append response rfl
  exact ⟨⟨(htx tx ⟨by decide, by decide, by decide, by decide⟩).2.2,
      htx' _ _ hread hcheck hresponse⟩,
    ⟨(hrx rx ⟨by decide, by decide, by decide, by decide, by decide⟩).2.2,
      hrx' _ _ (QccHeaderRx.fromBytes_append rfl)⟩,
    (hchip _ _ (by omega) (by omega)).2.2, hchip' _ _ (@ChipIdResponse.fromBytes_append chip rfl) rfl⟩

end QccGui
