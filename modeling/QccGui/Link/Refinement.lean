import QccGui.Firmware.Receive
import QccGui.Gui.Mock
import QccGui.Gui.Operations

/-!
# From the GUI to the bootloader

The bytes that the controller puts on the link, read by the bootloader of a QTRM.

* `LinkOp.Done`: what executing an operation does to the device; `Uploaded`: the same for an upload.
* `Executes`: the steps of the bootloader that execute a list of operations.
* `fed_operation`: the bytes of one operation make the bootloader execute it.
* `gui_to_bootloader`: the bootloader executes the operations that the controller performs.
-/

namespace QccGui

open Lib Firmware

/-- The image flag of a command. -/
def imageFlag (imageIsGolden : Bool) : UInt8 := if imageIsGolden then 1 else 0

/-- What the bootloader does for an upload: each chunk is written to the block of its number and
acknowledged, and a golden image is entered in the directory. -/
def uploadActs (image : Bytes) (golden : Bool) : List Act :=
  ((splitChunks image).mapIdx fun i x =>
    [Act.writeToSpi x.1 rpPayloadSize i (imageFlag golden), .tx (receivePacketAck i 1)]).flatten ++
    dirActs (imageFlag golden)

/-- An upload of `image` has been executed. -/
structure Uploaded (image : Bytes) (golden : Bool) (d d' : Dev) : Prop where
  acts : d' = d.acts (uploadActs image golden)
  /-- The region of the image holds the chunks: the image, and ones up to a multiple of 4096 bytes. -/
  stored : d'.flash.Holds (imageAddress (imageFlag golden)) ((splitChunks image).flatMap Prod.fst)
  padded : (splitChunks image).flatMap Prod.fst =
    image ++ List.replicate (4096 * (splitChunks image).length - image.length) 0xFF
  /-- The acknowledgements, and how the controller reads them. -/
  acks : (d'.log.drop d.log.length).filterMap Act.packet? =
    (List.range (splitChunks image).length).map (receivePacketAck · 1)
  pass : ∀ i, i < (splitChunks image).length → PassAck (receivePacketAck i 1) i

namespace LinkOp

/-- An upload has an image, which fits its region. -/
def Fits : LinkOp → Prop
  | upload image golden =>
    image ≠ [] ∧ (splitChunks image).length ≤ if golden then 1023 else 1024
  | _ => True

/-- Executing an operation takes the device from `d` to `d'`. -/
def Done (d d' : Dev) : LinkOp → Prop
  | linkCheck => d' = d.act (.tx linkRes)
  | lruInfo => ∃ env, d' = { d with lru := getLruInfo env }.act (.tx (lruInfoRes (getLruInfo env)))
  | authenticate golden => ∃ env : Env, d' = d.acts
      [.initiateIap .authenticate (imageAddress (imageFlag golden)), .tx (iapRes .authenticate env.iapStatus)]
  | verify golden => ∃ env : Env, d' = d.acts
      [.initiateIap .verify (imageAddress (imageFlag golden)), .tx (iapRes .verify env.iapStatus)]
  | upload image golden => Uploaded image golden d d'

end LinkOp

/-- From a command boundary with device `d` the steps `tr` of the bootloader execute the operations
`ops` one after the other, each from its first byte to its last one, and each up to the next command
boundary. -/
inductive Executes : Dev → List LinkOp → List (State × Poll UInt8 Env) → Dev → Prop
  | nil {d : Dev} : Executes d [] [] d
  | cons {d d₁ d' : Dev} {op : LinkOp} {ops : List LinkOp} {tr tr' : List (State × Poll UInt8 Env)} :
      Firmware.machine.Run (enter ⟨d, .request⟩) tr (enter ⟨d₁, .request⟩) →
      Poll.items (Machine.events tr) = op.stream → op.Done d d₁ → Executes d₁ ops tr' d' →
      Executes d (op :: ops) (tr ++ tr') d'

/-! ## Chunks and packets -/

/-- Slices of equal length, put together again. -/
theorem flatMap_slice (bs : Bytes) (m n : Nat) :
    (List.range n).flatMap (fun i => slice bs (m * i) m) = bs.take (m * n) := by
  induction n with
  | zero => simp
  | succ n ih =>
    rw [List.range_succ, List.flatMap_append, ih, List.flatMap_singleton, Nat.mul_succ, List.take_add]
    rfl

/-- The chunks of an image are the image and ones up to a multiple of 4096 bytes. -/
theorem splitChunks_flatMap (image : Bytes) : (splitChunks image).flatMap Prod.fst =
    image ++ List.replicate (4096 * (splitChunks image).length - image.length) chunkPadByte := by
  have hn := Controller.splitChunks_length image
  generalize hk : 4096 * (splitChunks image).length - image.length = k
  have hlen : (image ++ List.replicate k chunkPadByte).length = 4096 * (splitChunks image).length := by
    rw [List.length_append, List.length_replicate]
    omega
  rw [← List.take_of_length_le (l := image ++ List.replicate k chunkPadByte) hlen.le, ← flatMap_slice,
    hn, splitChunks, List.flatMap_map]
  apply List.flatMap_congr
  intro i hi
  have hi : i < (image.length + 4095) / 4096 := by simpa [rpPayloadSize] using hi
  have hlt : 4096 * i < image.length := by omega
  dsimp only [rpPayloadSize]
  rw [slice, slice, List.drop_append_of_le_length (by omega), List.take_append, List.take_replicate,
    List.length_take, List.length_drop]
  congr 2
  omega

/-- What `recieve_bit_stream` cuts out of the packet of a chunk. -/
theorem slice_packet {x : Bytes × Nat} {n i : Nat} (h : x.1.length = rpPayloadSize) :
    slice (ljust (pad4 (rpInnerCmdSize + rpPayloadSize)) (buildBitstreamDataHeader x.2 n i ++ x.1)) 10
      4096 = x.1 := by
  have hl : (buildBitstreamDataHeader x.2 n i ++ x.1).length = 4106 := by
    rw [List.length_append, buildBitstreamDataHeader_length, h]
    rfl
  have hx : x.1.length = 4096 := h
  rw [ljust, List.take_of_length_le (by rw [hl]; decide), slice_append_left (by omega),
    slice_append_right (by simp), buildBitstreamDataHeader_length]
  exact slice_self hx

/-- The packets of an upload, as the bootloader reads them. -/
def paddedPackets (image : Bytes) : List Bytes :=
  (chunkPackets (splitChunks image)).map (ljust (pad4 (rpInnerCmdSize + rpPayloadSize)))

variable {image : Bytes} {golden : Bool}

@[simp] theorem paddedPackets_length :
    (paddedPackets image).length = (splitChunks image).length := by simp [paddedPackets]

theorem paddedPackets_eq : paddedPackets image = (splitChunks image).mapIdx fun i x =>
    ljust (pad4 (rpInnerCmdSize + rpPayloadSize))
      (buildBitstreamDataHeader x.2 (splitChunks image).length i ++ x.1) := by
  apply List.ext_getElem (by simp)
  intro i _ _
  simp only [paddedPackets, chunkPackets, List.getElem_map, List.getElem_mapIdx]

/-- What is done with packets from the index `k` on, packet by packet. -/
theorem packetsActs_eq (size : Nat) (flag : UInt8) (k : Nat) (pkts : List Bytes) :
    packetsActs size flag k pkts =
      (pkts.mapIdx fun i pkt => packetActs size flag (k + i) pkt).flatten := by
  induction pkts generalizing k with
  | nil => rfl
  | cons pkt pkts ih =>
    rw [packetsActs, ih, List.mapIdx_cons, List.flatten_cons]
    simp only [Nat.add_zero, Nat.add_assoc, Nat.add_comm 1]

theorem packetsActs_upload : packetsActs 4096 (imageFlag golden) 0 (paddedPackets image) ++
    dirActs (imageFlag golden) = uploadActs image golden := by
  rw [packetsActs_eq, uploadActs, paddedPackets_eq, List.mapIdx_mapIdx]
  congr 2
  apply List.mapIdx_eq_mapIdx_iff.2
  intro i hi
  have hx := splitChunks_data (List.getElem?_eq_getElem hi)
  simp only [Function.comp_apply, packetActs, Nat.zero_add, bitStreamPacketHeaderSize, slice_packet hx]
  rfl

/-- The chunks among the padded packets. -/
theorem paddedPackets_slice :
    (paddedPackets image).flatMap (slice · 10 4096) = (splitChunks image).flatMap Prod.fst := by
  rw [paddedPackets_eq, List.flatMap_def, List.flatMap_def]
  congr 1
  apply List.ext_getElem (by simp)
  intro i hi hi'
  rw [List.getElem_map, List.getElem_mapIdx, List.getElem_map]
  exact slice_packet (splitChunks_data (List.getElem?_eq_getElem (by simpa using hi)))

/-! ## One operation -/

section

variable {d : Dev} {env : Env}

theorem serve_linkRequest : serve d env (ljust (pad4 rpInnerCmdSize) buildLinkRequest) =
    ⟨d.act (.tx linkRes), .request⟩ := rfl

theorem serve_lruInfoRequest : serve d env (ljust (pad4 rpInnerCmdSize) buildLruInfoRequest) =
    ⟨{ d with lru := getLruInfo env }.act (.tx (lruInfoRes (getLruInfo env))), .request⟩ := rfl

theorem serve_authenticate : serve d env
    (ljust (pad4 rpInnerCmdSize) (buildFirmwareUpdateCommand iapAuthenticate golden)) =
      ⟨d.acts [.initiateIap .authenticate (imageAddress (imageFlag golden)),
        .tx (iapRes .authenticate env.iapStatus)], .request⟩ := by
  cases golden <;> rfl

theorem serve_verify : serve d env
    (ljust (pad4 rpInnerCmdSize) (buildFirmwareUpdateCommand iapVerify golden)) =
      ⟨d.acts [.initiateIap .verify (imageAddress (imageFlag golden)),
        .tx (iapRes .verify env.iapStatus)], .request⟩ := by
  cases golden <;> rfl

/-- The announcement of an upload starts a transfer of that many packets. -/
theorem serve_announce {n : Nat} (h0 : 0 < n) (hn : n < 65536) : serve d env
    (ljust (pad4 rpInnerCmdSize) (buildBitstreamReceiveCommand rpPayloadSize n golden)) =
      ⟨d, .bitStream n 4096 (imageFlag golden) 0⟩ := by
  rw [serve_bitStream rfl]
  have hword : word16 (byte n) (byte (n / 256)) = n := word16_byte hn
  have hsize : word16 (byte rpPayloadSize) (byte (rpPayloadSize / 256)) = 4096 := word16_byte (by decide)
  have hflag : (if golden then 1 else 0 : UInt8) = imageFlag golden := rfl
  simp only [buildBitstreamReceiveCommand, sealed, ljust, le16, List.cons_append, List.nil_append]
  simp only [List.length_cons, List.length_nil, pad4, rpInnerCmdSize, List.take_succ_cons,
    List.getD_cons_succ, List.getD_cons_zero, List.cons_append]
  rw [hword, hsize, hflag, recieveBitStream, if_pos h0]

/-- How the controller reads the acknowledgement of a packet. -/
theorem passAck_receivePacketAck {i : Nat} (hi : i < 65536) : PassAck (receivePacketAck i 1) i := by
  rw [receivePacketAck, getCheckSum_eq]
  exact Mock.passAck_ackBytes hi

theorem paddedPackets_data {pkt : Bytes} (h : pkt ∈ paddedPackets image) :
    pkt.length = pad4 (4096 + 10) := by
  obtain ⟨p, -, rfl⟩ := List.mem_map.1 h
  exact ljust_length _ _

/-- Both image regions lie in the flash memory of the device. -/
def HasRegions (d : Dev) : Prop := 0x800000 ≤ d.flash.size.bytes

theorem LinkOp.Done.hasRegions {d' : Dev} {op : LinkOp} (h : op.Done d d') (hd : HasRegions d) :
    HasRegions d' := by
  have hacts : ∀ as, d' = d.acts as → HasRegions d' := by
    rintro as rfl
    rwa [HasRegions, Dev.acts_flash, runOps_size]
  cases op with
  | linkCheck => exact hacts [_] h
  | lruInfo =>
    obtain ⟨env, rfl⟩ := h
    exact hd
  | authenticate =>
    obtain ⟨env, h⟩ := h
    exact hacts _ h
  | verify =>
    obtain ⟨env, h⟩ := h
    exact hacts _ h
  | upload => exact hacts _ h.acts

theorem uploaded (hd : HasRegions d) (hf : (LinkOp.upload image golden).Fits) :
    Uploaded image golden d (d.acts (uploadActs image golden)) := by
  obtain ⟨-, hn⟩ := hf
  have hn' : (splitChunks image).length ≤ 1024 := hn.trans (by split <;> decide)
  refine ⟨rfl, ?_, splitChunks_flatMap image, ?_, fun i hi => passAck_receivePacketAck (by omega)⟩
  · have hlast : blockAddress (imageFlag golden) (paddedPackets image).length ≤ d.flash.size.bytes := by
      have : imageAddress (imageFlag golden) ≤ 0x400000 := by cases golden <;> decide
      unfold HasRegions at hd
      unfold blockAddress
      rw [paddedPackets_length]
      omega
    have hpad : 10 + 4096 ≤ pad4 (4096 + 10) := by decide
    have hp : ∀ pkt ∈ paddedPackets image, 10 + 4096 ≤ pkt.length := fun pkt h =>
      (paddedPackets_data h).symm ▸ hpad
    rw [Dev.acts_flash, ← packetsActs_upload, ← paddedPackets_slice]
    exact transfer_stored hp hlast
  · rw [Dev.acts_log, List.drop_left, ← packetsActs_upload, List.filterMap_append, packetsActs_acks,
      dirActs_acks, List.append_nil, paddedPackets_length, List.range_eq_range']

/-- The bytes of an operation make the bootloader execute it and come back to the command
boundary. -/
theorem fed_operation {op : LinkOp} (hd : HasRegions d) (hf : op.Fits) :
    Fed ⟨d, .request⟩ op.stream fun b' => ∃ d', b' = ⟨d', .request⟩ ∧ op.Done d d' := by
  have hcmd : Fed ⟨d, .request⟩ (ljust (pad4 rpInnerCmdSize) op.command) fun b' =>
      ∃ env, b' = serve d env (ljust (pad4 rpInnerCmdSize) op.command) :=
    fed_command (ljust_length _ _)
  unfold LinkOp.stream
  apply hcmd.append
  rintro _ ⟨env, rfl⟩
  cases op with
  | linkCheck => exact fed_nil ⟨_, serve_linkRequest, rfl⟩
  | lruInfo => exact fed_nil ⟨_, serve_lruInfoRequest, env, rfl⟩
  | authenticate golden => exact fed_nil ⟨_, serve_authenticate, env, rfl⟩
  | verify golden => exact fed_nil ⟨_, serve_verify, env, rfl⟩
  | upload image golden =>
    have h0 := Controller.splitChunks_length_pos hf.1
    have hn : (splitChunks image).length ≤ 1024 := hf.2.trans (by split <;> decide)
    rw [show (LinkOp.upload image golden).command = buildBitstreamReceiveCommand rpPayloadSize
      (splitChunks image).length golden from rfl, serve_announce h0 (by omega)]
    have hp : ∀ pkt ∈ paddedPackets image, pkt.length = pad4 (4096 + 10) := fun _ => paddedPackets_data
    refine (fed_packets h0 (by simp) hp).mono ?_
    rintro _ rfl
    rw [packetsActs_upload]
    exact ⟨_, rfl, uploaded hd hf⟩

end

/-! ## Sequences of operations -/

variable {ops : List LinkOp}

/-- The bytes of a list of operations make the bootloader execute them in order. -/
theorem executes_stream {d : Dev} {tr : List (State × Poll UInt8 Env)} {s : State}
    (hd : HasRegions d) (hf : ∀ op ∈ ops, op.Fits) (h : Firmware.machine.Run (enter ⟨d, .request⟩) tr s)
    (ht : NoTimeout tr) (hi : Poll.items (Machine.events tr) = ops.flatMap LinkOp.stream) :
    ∃ tr₁ tr₂ d', tr = tr₁ ++ tr₂ ∧ Executes d ops tr₁ d' ∧
      Firmware.machine.Run (enter ⟨d', .request⟩) tr₂ s ∧ Poll.items (Machine.events tr₂) = [] := by
  induction ops generalizing d tr with
  | nil => exact ⟨[], tr, d, rfl, .nil, h, hi⟩
  | cons op ops ih =>
    obtain ⟨tr₁, tr₂, _, rfl, h₁, h₂, ht₂, hi₁, hi₂, d₁, rfl, hdone⟩ :=
      (fed_operation hd (hf op (List.mem_cons_self ..))).rest h ht hi
    obtain ⟨tr₃, tr₄, d', rfl, hex, h₄, hi₄⟩ :=
      ih (hdone.hasRegions hd) (fun op h => hf op (List.mem_cons_of_mem _ h)) h₂ ht₂ hi₂
    exact ⟨tr₁ ++ tr₃, tr₄, d', by simp, .cons h₁ hi₁ hdone hex, h₄, hi₄⟩

/-- The bytes of an operation can come. -/
theorem takable_operation {op : LinkOp} (d : Dev) (hf : op.Fits) :
    ∃ d', Takable ⟨d, .request⟩ op.stream ⟨d', .request⟩ := by
  have hcmd : ∀ b, serve d {} (ljust (pad4 rpInnerCmdSize) op.command) = b →
      Takable ⟨d, .request⟩ (ljust (pad4 rpInnerCmdSize) op.command) b := by
    rintro _ rfl
    exact takable_command (ljust_length _ _)
  cases op with
  | linkCheck => exact ⟨_, (hcmd _ serve_linkRequest).append (takable_nil _)⟩
  | lruInfo => exact ⟨_, (hcmd _ serve_lruInfoRequest).append (takable_nil _)⟩
  | authenticate golden => exact ⟨_, (hcmd _ serve_authenticate).append (takable_nil _)⟩
  | verify golden => exact ⟨_, (hcmd _ serve_verify).append (takable_nil _)⟩
  | upload image golden =>
    have h0 := Controller.splitChunks_length_pos hf.1
    have hn : (splitChunks image).length ≤ 1024 := hf.2.trans (by split <;> decide)
    have hp : ∀ pkt ∈ paddedPackets image, pkt.length = pad4 (4096 + 10) := fun _ => paddedPackets_data
    have hpkts : Takable ⟨d, .bitStream (splitChunks image).length 4096 (imageFlag golden) 0⟩
        (paddedPackets image).flatten _ := takable_packets h0 (by simp) hp
    exact ⟨_, (hcmd _ (serve_announce h0 (by omega))).append hpkts⟩

theorem takable_stream (d : Dev) (hf : ∀ op ∈ ops, op.Fits) :
    ∃ d', Takable ⟨d, .request⟩ (ops.flatMap LinkOp.stream) ⟨d', .request⟩ := by
  induction ops generalizing d with
  | nil => exact ⟨d, takable_nil _⟩
  | cons op ops ih =>
    obtain ⟨d₁, h₁⟩ := takable_operation d (hf op (List.mem_cons_self ..))
    obtain ⟨d₂, h₂⟩ := ih d₁ fun op h => hf op (List.mem_cons_of_mem _ h)
    exact ⟨d₂, h₁.append h₂⟩

/-- While the controller performs the operations `ops` with a connection, the QCC passes its frames on
without their headers, and no idle timer of the bootloader trips, the bootloader of a device whose
flash memory has both regions executes exactly these operations in order, and ends at a command
boundary. -/
theorem gui_to_bootloader {rc : RcSettings} {tr₀ tr : List Controller.Step} {c₀ c : Controller}
    (h₀ : Controller.machine.Run (Controller.init rc) tr₀ c₀)
    (hn : Machine.Along Controller.NoCancelBeforeShot tr₀) (hp : Controller.Performs c₀ ops tr c)
    (hc : Machine.Along Controller.Connected tr) (hf : ∀ op ∈ ops, op.Fits)
    {d : Dev} (hd : HasRegions d) {ftr : List (State × Poll UInt8 Env)} {s : State}
    (h : Firmware.machine.Run (enter ⟨d, .request⟩) ftr s) (ht : NoTimeout ftr)
    (hi : Poll.items (Machine.events ftr) = relayed (Controller.carried tr)) :
    ∃ ftr₁ ftr₂, ftr = ftr₁ ++ ftr₂ ∧ Executes d ops ftr₁ s.dev ∧
      Poll.items (Machine.events ftr₂) = [] ∧ AtCommand s := by
  obtain ⟨hok, htidy⟩ := Controller.tidy_run h₀ hn
  obtain ⟨-, hstream⟩ := Controller.performs_stream hp hok htidy
  rw [Controller.carried_connected hc, hstream] at hi
  obtain ⟨ftr₁, ftr₂, d', rfl, hex, hrest, hempty⟩ := executes_stream hd hf h ht hi
  obtain ⟨rfl, hat⟩ := atCommand_of_empty hrest hempty
  exact ⟨ftr₁, ftr₂, rfl, hex, hempty, hat⟩

/-! ## A link check and an upload -/

/-- The controller with the gate open. -/
def gateOpened : Controller :=
  Controller.machine.exec (Controller.init Controller.sampleSettings) Controller.openGate

theorem gateOpened_run : Controller.machine.Run (Controller.init Controller.sampleSettings)
    (Controller.machine.trace (Controller.init Controller.sampleSettings) Controller.openGate)
    gateOpened :=
  Machine.Allows.run ⟨trivial, trivial, trivial, trivial, trivial⟩

theorem gateOpened_quiet : Machine.Along Controller.NoCancelBeforeShot
    (Controller.machine.trace (Controller.init Controller.sampleSettings) Controller.openGate) := by
  simp [Controller.openGate, Machine.trace, Controller.NoCancelBeforeShot]

/-- An image of two chunks, which differ in their first byte. -/
def twoChunks : Bytes := zeros 4096 ++ [1]

theorem twoChunks_split : ∃ x₀ x₁, splitChunks twoChunks = [x₀, x₁] ∧ x₀.1.getD 0 0 = 0 ∧
    x₁.1.getD 0 0 = 1 := by
  have hlen : twoChunks.length = 4097 := by
    rw [twoChunks, List.length_append, zeros_length, List.length_singleton]
  have hr : List.range ((4097 + (4096 - 1)) / 4096) = [0, 1] := rfl
  rw [splitChunks, hlen, rpPayloadSize, hr]
  refine ⟨_, _, rfl, ?_, ?_⟩
  · have h₀ : slice twoChunks (4096 * 0) 4096 = zeros 4096 := by
      rw [twoChunks, slice_append_left (by rw [zeros_length]), slice_self (zeros_length _)]
    dsimp only
    rw [h₀, List.getD_append _ _ _ _ (by rw [zeros_length]; decide)]
    rfl
  · have h₁ : slice twoChunks (4096 * 1) 4096 = [1] := by
      rw [twoChunks, slice_append_right (by rw [zeros_length]), zeros_length]
      rfl
    dsimp only
    rw [h₁]
    rfl

theorem twoChunks_length : (splitChunks twoChunks).length = 2 := by
  obtain ⟨x₀, x₁, hsplit, -⟩ := twoChunks_split
  rw [hsplit]
  rfl

theorem gateOpened_accepts : gateOpened.Accepts (.upload twoChunks false) :=
  ⟨rfl, rfl, by rw [twoChunks]; exact List.append_ne_nil_of_right_ne_nil _ (List.cons_ne_nil _ _)⟩

/-- The acknowledgements of its chunks, by all QTRMs. -/
def twoAcks : List Bytes :=
  [({} : Mock).respondBitstreamAck (zeros headerSize) 0,
    ({} : Mock).respondBitstreamAck (zeros headerSize) 1]

theorem ackFrame_twoAcks {i : Nat} {raw : Bytes} (h : twoAcks[i]? = some raw) :
    AckFrame raw i := by
  have hack : ∀ {i}, i < 65536 →
      AckFrame (({} : Mock).respondBitstreamAck (zeros headerSize) i) i :=
    fun hi => Mock.ackFrame_respondBitstreamAck (m := {}) ⟨rfl, rfl⟩ _ hi
  match i with
  | 0 => exact Option.some.inj h ▸ hack (by decide)
  | 1 => exact Option.some.inj h ▸ hack (by decide)
  | i + 2 => cases h

/-- A link check that nobody answers, and an upload. -/
def checkAndUpload : List Controller.Event :=
  [.start .linkCheck, .timer] ++ Controller.uploadEvents twoChunks false twoAcks

def checkAndUploadOps : List LinkOp := [.linkCheck, .upload twoChunks false]

theorem performs_checkAndUpload : Controller.Performs gateOpened checkAndUploadOps
    (Controller.machine.trace gateOpened checkAndUpload)
    (Controller.machine.exec gateOpened checkAndUpload) := by
  have ha : Controller.machine.Allows gateOpened [.start .linkCheck, .timer] := ⟨trivial, rfl, trivial⟩
  have hs : Controller.Session .linkCheck gateOpened
      (Controller.machine.trace gateOpened [.start .linkCheck, .timer])
      (Controller.machine.exec gateOpened [.start .linkCheck, .timer]) := by
    refine ⟨⟨rfl, rfl⟩, ha.run, ⟨_, rfl, fun y hy => ?_⟩, rfl, nofun⟩
    obtain rfl := List.mem_singleton.1 hy
    rfl
  have hcheck : Controller.Performs gateOpened [.linkCheck] _ _ := .session .nil hs
  obtain ⟨hok, ht⟩ := Controller.tidy_run gateOpened_run gateOpened_quiet
  obtain ⟨⟨hok', ht'⟩, -⟩ := Controller.performs_stream hcheck hok ht
  have haccepts : (Controller.machine.exec gateOpened [.start .linkCheck, .timer]).Accepts
      (.upload twoChunks false) := ⟨rfl, rfl, gateOpened_accepts.2.2⟩
  have hlink : (Controller.machine.exec gateOpened [.start .linkCheck, .timer]).sendOk = true := rfl
  rw [checkAndUpload, Machine.trace_append, Machine.exec_append]
  generalize Controller.machine.exec gateOpened [.start .linkCheck, .timer] = c at *
  exact .session hcheck (Controller.session_acked hok' ht' haccepts hlink
    (by rw [twoChunks_length]; rfl) fun _ _ => ackFrame_twoAcks)

theorem connected_checkAndUpload : Machine.Along Controller.Connected
    (Controller.machine.trace gateOpened checkAndUpload) := by
  obtain ⟨hok, -⟩ := Controller.tidy_run gateOpened_run gateOpened_quiet
  refine Controller.connected_run performs_checkAndUpload.run hok rfl fun x hx up => ?_
  have hev : x.2 ∈ checkAndUpload := by
    rw [← @Machine.events_trace _ _ Controller.machine gateOpened checkAndUpload]
    exact List.mem_map_of_mem hx
  rintro he
  rw [he] at hev
  simp [checkAndUpload, Controller.uploadEvents, twoAcks] at hev

theorem checkAndUpload_fits : ∀ op ∈ checkAndUploadOps, op.Fits := by
  rintro op hop
  rcases List.mem_cons.1 hop with rfl | hop
  · trivial
  · obtain rfl := List.mem_singleton.1 hop
    exact ⟨gateOpened_accepts.2.2, by rw [twoChunks_length]; decide⟩

/-- The bytes that the QCC passes on. -/
theorem relayed_checkAndUpload :
    relayed (Controller.carried (Controller.machine.trace gateOpened checkAndUpload)) =
      checkAndUploadOps.flatMap LinkOp.stream := by
  obtain ⟨hok, ht⟩ := Controller.tidy_run gateOpened_run gateOpened_quiet
  rw [Controller.carried_connected connected_checkAndUpload,
    (Controller.performs_stream performs_checkAndUpload hok ht).2]

/-- They arrive one byte a poll, and both operations are executed. -/
theorem gui_to_bootloader_check_and_upload :
    let d : Dev := ⟨.erased w25q64, {}, []⟩
    let polls := bytewise (checkAndUploadOps.flatMap LinkOp.stream)
    let ftr := Firmware.machine.trace (enter ⟨d, .request⟩) polls
    let s := Firmware.machine.exec (enter ⟨d, .request⟩) polls
    ∃ ftr₁ ftr₂, ftr = ftr₁ ++ ftr₂ ∧ Executes d [.linkCheck, .upload twoChunks false] ftr₁ s.dev ∧
      Poll.items (Machine.events ftr₂) = [] ∧ AtCommand s := by
  intro d polls ftr s
  obtain ⟨d', hallow, -⟩ := takable_stream d checkAndUpload_fits
  refine gui_to_bootloader gateOpened_run gateOpened_quiet performs_checkAndUpload
    connected_checkAndUpload checkAndUpload_fits (Nat.le_refl _) hallow.run (noTimeout_bytewise _ _) ?_
  rw [relayed_checkAndUpload, Machine.events_trace, items_bytewise]

end QccGui
