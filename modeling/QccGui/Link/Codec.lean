import QccGui.Firmware.Corrupted
import QccGui.Link.Refinement

/-!
# The two codecs of the bootloader link

The GUI builds commands that the firmware decodes by hand, and the firmware builds replies that the
GUI decodes by hand; both ends share the command codes, the field order and the check byte.

* `ReadAs`: the GUI reads a reply as a slot of a given type, with a correct check byte.
* `read_linkRes`, `read_lruInfoRes`, `read_iapRes`, `read_errorMsg`: the replies.
* `serve_command`: how the firmware decodes each command; `codecs_agree` puts both together.
-/

namespace QccGui

open Lib Firmware

/-- In the context `ctx` the GUI reads `packet` as the slot `read` makes of the common fields, and
finds its check byte correct. -/
def ReadAs (packet : Bytes) (ctx : Context) (read : SlotBase → Slot) : Prop :=
  ∃ base, parseSlot packet ctx = .ok (some (read base)) ∧ base.checksumOk = true

/-! ## Replies -/

/-- A sealed packet is read by its command type. -/
theorem parseSlot_sealed (ct st mc a b c e : UInt8) (ctx : Context) :
    let base : SlotBase :=
      { commandType := ct, statusType := st &&& 0x0F, subStatusType := (st >>> 4) &&& 0x0F
        checksumOk := true, raw := sealed [0xAA, 0, ct, st, mc, a, b, c, e] }
    parseSlot (sealed [0xAA, 0, ct, st, mc, a, b, c, e]) ctx = .ok (some (
      if ct = 0x31 ∨ ct = 0x30 ∧ ctx = .lruInfo then
        .lruStatusResponse base ((a >>> 4) &&& 0x0F) (a &&& 0x0F) (word16 b c) e
      else if ct = 0x30 ∨ ct = 0x34 then .mssLinkResponse base [a, b, c, e]
      else if ct = 0x35 then
        if ctx = .bitstream then .bitstreamAck base (word16 a b) c else .fwUpdateResponse base a b
      else if ct = 0x3F then .errorMsg base a b c
      else .unknownSlot base)) := by
  have hne : sealed [0xAA, 0, ct, st, mc, a, b, c, e] ≠ zeros 10 := fun h =>
    absurd (List.cons.inj h).1 (by decide)
  have hsum : xorSum ((sealed [0xAA, 0, ct, st, mc, a, b, c, e]).take 9) =
      (sealed [0xAA, 0, ct, st, mc, a, b, c, e]).getD 9 0 := rfl
  intro base
  unfold parseSlot
  rw [if_neg (by simp), if_neg hne, hsum]
  simp only [sealed, List.cons_append, List.nil_append, List.getD_cons_succ, List.getD_cons_zero,
    slice]
  split <;> rename_i h₁
  · simp at h₁
  split_ifs <;> rfl

theorem read_linkRes (ctx : Context) :
    ReadAs linkRes ctx (.mssLinkResponse · [0xB1, 0xB2, 0xB3, 0xB4]) := by
  rw [ReadAs, linkRes, getCheckSum_eq, parseSlot_sealed]
  exact ⟨_, rfl, rfl⟩

/-- Two nibbles in one byte. -/
theorem nibbles {hi lo : UInt8} (hh : hi < 16) (hl : lo < 16) :
    ((hi <<< 4 ||| (lo &&& 0x0F)) >>> 4) &&& 0x0F = hi ∧
      (hi <<< 4 ||| (lo &&& 0x0F)) &&& 0x0F = lo := by
  have hall : ∀ a b : Fin 16,
      ((byte a <<< 4 ||| (byte b &&& 0x0F)) >>> 4) &&& 0x0F = byte a ∧
        (byte a <<< 4 ||| (byte b &&& 0x0F)) &&& 0x0F = byte b := by decide
  have h := hall ⟨hi.toNat, hh⟩ ⟨lo.toNat, hl⟩
  simpa using h

theorem word16_serialNo (n : UInt16) : word16 n.toUInt8 (n >>> 8).toUInt8 = n.toNat := by
  have hlt := n.toNat_lt
  rw [word16_eq]
  simp [UInt16.toNat_shiftRight, Nat.shiftRight_eq_div_pow]
  omega

theorem read_lruInfoRes {lru : LruInfo} (hm : lru.mfgId < 16) (hp : lru.partNo < 16) :
    ReadAs (lruInfoRes lru) .lruInfo
      (.lruStatusResponse · lru.mfgId lru.partNo lru.serialNo.toNat lru.fabricVersionNo) := by
  obtain ⟨hhi, hlo⟩ := nibbles hm hp
  rw [ReadAs, lruInfoRes, getCheckSum_eq, parseSlot_sealed]
  rw [if_pos (by decide), hhi, hlo, word16_serialNo]
  exact ⟨_, rfl, rfl⟩

theorem read_iapRes (mode : IapMode) (result : UInt8) :
    ReadAs (iapRes mode result) .fwUpdate (.fwUpdateResponse · mode.code result) := by
  rw [ReadAs, iapRes, getCheckSum_eq, parseSlot_sealed]
  exact ⟨_, rfl, rfl⟩

theorem read_errorMsg (ctx : Context) (headerErr timeout crcError : UInt8) :
    ReadAs (errorMsg headerErr timeout crcError) ctx (.errorMsg · headerErr crcError timeout) := by
  rw [ReadAs, Firmware.errorMsg, getCheckSum_eq, parseSlot_sealed]
  exact ⟨_, rfl, rfl⟩

/-! ## Commands -/

/-- A packet of ten bytes with the header byte and the check byte that both ends compute. -/
def WellFormed (packet : Bytes) : Prop := packet.length = 10 ∧ ¬ Corrupted packet

theorem wellFormed_sealed {bs : Bytes} (hl : bs.length = 9) (h0 : bs.getD 0 0 = 0xAA) :
    WellFormed (sealed bs) := by
  have hh : (sealed bs).getD 0 0 = 0xAA := by
    rw [sealed, List.getD_append _ _ _ _ (by omega), h0]
  refine ⟨by rw [sealed_length, hl], ?_⟩
  rw [Corrupted, check_sealed hl, hh]
  simp

/-- The IAP service that a firmware update command of a given mode runs. -/
def runIap (d : Dev) (env : Env) (mode : IapMode) (imageIsGolden : UInt8) : Boot :=
  match mode with
  | .authenticate => iapPoll d env .authenticate imageIsGolden
  | .program => Firmware.iapProgram d env imageIsGolden
  | .verify => iapPoll d env .verify imageIsGolden

section

variable {d : Dev} {env : Env} {pad : Bytes}

theorem serve_firmwareUpdate (mode : IapMode) (golden : Bool) :
    serve d env (buildFirmwareUpdateCommand mode.code golden ++ pad) =
      runIap d env mode (imageFlag golden) := by
  have h5 : (buildFirmwareUpdateCommand mode.code golden ++ pad).getD 5 0 = mode.code := rfl
  have h3 : (buildFirmwareUpdateCommand mode.code golden ++ pad).getD 3 0 = imageFlag golden := rfl
  have h2 : (buildFirmwareUpdateCommand mode.code golden ++ pad).getD 2 0 = 0x36 := rfl
  rw [serve, headerAndCheckSumCheck, if_pos rfl]
  simp only [h2, h3, h5]
  cases mode <;> rfl

theorem serve_bitstreamReceive {size count : Nat} (hs : size < 65536) (hc : count < 65536)
    (golden : Bool) : serve d env (buildBitstreamReceiveCommand size count golden ++ pad) =
      recieveBitStream d count size (imageFlag golden) := by
  have hsize : word16 (byte size) (byte (size / 256)) = size := word16_byte hs
  have hcount : word16 (byte count) (byte (count / 256)) = count := word16_byte hc
  rw [serve_bitStream rfl]
  simp only [buildBitstreamReceiveCommand, sealed, le16, List.cons_append, List.nil_append,
    List.getD_cons_succ, List.getD_cons_zero]
  rw [hsize, hcount]
  rfl

end

/-- Every reply of the firmware is read, in the context of the operation it answers, as what it was
built from, and every command of the GUI is decoded as what it was built from; two more bytes are
received behind each command. -/
theorem codecs_agree :
    -- the replies
    (∀ c : Controller, c.op = some .linkCheck →
      ReadAs linkRes c.context (.mssLinkResponse · [0xB1, 0xB2, 0xB3, 0xB4])) ∧
    (∀ (c : Controller) (lru : LruInfo), c.op = some .lruInfo → lru.mfgId < 16 → lru.partNo < 16 →
      ReadAs (lruInfoRes lru) c.context
        (.lruStatusResponse · lru.mfgId lru.partNo lru.serialNo.toNat lru.fabricVersionNo)) ∧
    (∀ (c : Controller) (result : UInt8), c.op = some .authenticate →
      ReadAs (iapRes .authenticate result) c.context (.fwUpdateResponse · iapAuthenticate result)) ∧
    (∀ (c : Controller) (result : UInt8), c.op = some .verify →
      ReadAs (iapRes .verify result) c.context (.fwUpdateResponse · iapVerify result)) ∧
    (∀ (c : Controller) (headerErr timeout crcError : UInt8),
      ReadAs (errorMsg headerErr timeout crcError) c.context
        (.errorMsg · headerErr crcError timeout)) ∧
    -- the commands
    (∀ statusType subStatusType, WellFormed (buildLinkRequest statusType subStatusType) ∧
      ∀ d env pad, serve d env (buildLinkRequest statusType subStatusType ++ pad) =
        ⟨d.act (.tx linkRes), .request⟩) ∧
    (∀ statusType subStatusType, WellFormed (buildLruInfoRequest statusType subStatusType) ∧
      ∀ d env pad, serve d env (buildLruInfoRequest statusType subStatusType ++ pad) =
        ⟨{ d with lru := getLruInfo env }.act (.tx (lruInfoRes (getLruInfo env))), .request⟩) ∧
    (WellFormed buildModeChangeMssToFab ∧
      ∀ d env pad, serve d env (buildModeChangeMssToFab ++ pad) = modeChangeMssToFab d env) ∧
    (∀ size count golden, size < 65536 → count < 65536 →
      WellFormed (buildBitstreamReceiveCommand size count golden) ∧
      ∀ d env pad, serve d env (buildBitstreamReceiveCommand size count golden ++ pad) =
        recieveBitStream d count size (imageFlag golden)) ∧
    (∀ (mode : IapMode) golden, WellFormed (buildFirmwareUpdateCommand mode.code golden) ∧
      ∀ d env pad, serve d env (buildFirmwareUpdateCommand mode.code golden ++ pad) =
        runIap d env mode (imageFlag golden)) := by
  have hctx : ∀ {c : Controller} {op : Op}, c.op = some op → op ≠ .upload → op ≠ .lruInfo →
      c.context = .fwUpdate := fun ho hu hl => by
    rw [Controller.context, if_neg (fun h => hu (Option.some.inj (ho.symm.trans h.1))),
      if_neg (fun h => hl (Option.some.inj (ho.symm.trans h)))]
  refine ⟨fun c _ => read_linkRes _, fun c lru ho hm hp => ?_, fun c result ho => ?_,
    fun c result ho => ?_, fun c => read_errorMsg _, fun _ _ => ⟨wellFormed_sealed rfl rfl, ?_⟩,
    fun _ _ => ⟨wellFormed_sealed rfl rfl, ?_⟩, ⟨wellFormed_sealed rfl rfl, ?_⟩,
    fun size count golden hs hc => ⟨wellFormed_sealed rfl rfl, ?_⟩,
    fun mode golden => ⟨wellFormed_sealed rfl rfl, ?_⟩⟩
  · have hlru : c.context = .lruInfo := by simp [Controller.context, ho]
    rw [hlru]
    exact read_lruInfoRes hm hp
  · rw [hctx ho nofun nofun]
    exact read_iapRes .authenticate result
  · rw [hctx ho nofun nofun]
    exact read_iapRes .verify result
  · exact fun _ _ _ => rfl
  · exact fun _ _ _ => rfl
  · exact fun _ _ _ => rfl
  · exact fun _ _ _ => serve_bitstreamReceive hs hc golden
  · exact fun _ _ _ => serve_firmwareUpdate mode golden

/-- A reply of each kind in the context of its operation, and the announcement of a golden image of
1023 packets. -/
theorem codecs_agree_values :
    let c (op : Op) : Controller := { Controller.init Controller.sampleSettings with op := some op }
    ReadAs linkRes (c .linkCheck).context (.mssLinkResponse · [0xB1, 0xB2, 0xB3, 0xB4]) ∧
    ReadAs (lruInfoRes ⟨7, 3, 0, 15, 0x1234⟩) (c .lruInfo).context
      (.lruStatusResponse · 3 15 0x1234 7) ∧
    ReadAs (iapRes .authenticate 7) (c .authenticate).context
      (.fwUpdateResponse · iapAuthenticate 7) ∧
    ReadAs (iapRes .verify 0) (c .verify).context (.fwUpdateResponse · iapVerify 0) ∧
    ∀ d env pad, serve d env (buildBitstreamReceiveCommand 4096 1023 true ++ pad) =
      recieveBitStream d 1023 4096 1 := by
  obtain ⟨hlink, hlru, hauth, hverify, -, -, -, -, hbit, -⟩ := codecs_agree
  exact ⟨hlink _ rfl, hlru _ ⟨7, 3, 0, 15, 0x1234⟩ rfl (by decide) (by decide), hauth _ 7 rfl,
    hverify _ 0 rfl, (hbit 4096 1023 true (by decide) (by decide)).2⟩

end QccGui
