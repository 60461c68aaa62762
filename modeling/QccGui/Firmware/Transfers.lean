import QccGui.Firmware.Framing

/-!
# Transfers and resynchronisation

What the bootloader does with the groups of the UART stream.

* `packetsActs`: what `recieve_bit_stream` does with the packets of one transfer, in order.
* `handleAll_packets`, `handle_timeout`: a transfer that goes on, ends, or is cut short.
* `packetsActs_acks`, `packetsActs_stored`: what the packets of a transfer leave behind.
* `Framing`, `bootloader_framing`: the framing law of the whole request loop.
-/

namespace QccGui.Firmware

open Lib

/-- What is done with the packets `pkts` of a transfer, the first of which has index `k`. -/
def packetsActs (size : Nat) (flag : UInt8) : Nat → List Bytes → List Act
  | _, [] => []
  | k, pkt :: pkts => packetActs size flag k pkt ++ packetsActs size flag (k + 1) pkts

/-- What the request loop does once a transfer has ended. -/
def dirActs (flag : UInt8) : List Act := if flag ≠ 0 then [.updateSpiDir] else []

section

variable {d : Dev} {total size k : Nat} {flag : UInt8} {pkt : Bytes} {pkts : List Bytes}

@[simp] theorem packetsActs_nil : packetsActs size flag k [] = [] := rfl

@[simp] theorem packetsActs_append (qkts : List Bytes) : packetsActs size flag k (pkts ++ qkts) =
    packetsActs size flag k pkts ++ packetsActs size flag (k + pkts.length) qkts := by
  induction pkts generalizing k with
  | nil => simp
  | cons pkt pkts ih =>
    simp only [List.cons_append, packetsActs, ih, List.append_assoc, List.length_cons]
    rw [Nat.add_right_comm, Nat.add_assoc]

@[simp] theorem packetsActs_singleton :
    packetsActs size flag k [pkt] = packetActs size flag k pkt := by simp [packetsActs]

theorem afterBitStream_eq : afterBitStream d flag = ⟨d.acts (dirActs flag), .request⟩ := by
  unfold afterBitStream dirActs
  split <;> rfl

/-- A packet that is not the last one. -/
theorem packetDone_of_lt (h : k + 1 < total) : packetDone d total size flag k pkt =
    ⟨d.acts (packetActs size flag k pkt), .bitStream total size flag (k + 1)⟩ := if_pos h

/-- The last packet. -/
theorem packetDone_of_le (h : total ≤ k + 1) : packetDone d total size flag k pkt =
    ⟨d.acts (packetActs size flag k pkt ++ dirActs flag), .request⟩ := by
  simp only [packetDone, if_neg (show ¬ k + 1 < total by omega), afterBitStream_eq, Dev.acts_append]

theorem packetTimeout_eq : packetTimeout d flag =
    ⟨d.acts (.tx (errorMsg 0 1 0) :: dirActs flag), .request⟩ := by
  rw [packetTimeout, afterBitStream_eq, Dev.acts_cons]

/-- The command starts a transfer. -/
theorem serve_bitStream {env : Env} {cmd : Bytes} (hc : cmd.getD 2 0 = 0x33) :
    serve d env cmd = recieveBitStream d (word16 (cmd.getD 7 0) (cmd.getD 8 0))
      (word16 (cmd.getD 5 0) (cmd.getD 6 0)) (cmd.getD 3 0) := by
  simp only [serve, headerAndCheckSumCheck, if_true, hc]
  rw [if_neg (by decide)]

/-- Whole groups of a stream. -/
def fulls (gs : List (Env × Bytes)) : List (Framer.Group UInt8 Env) :=
  gs.map fun g => .full g.1 g.2

@[simp] theorem fulls_nil : fulls [] = [] := rfl

@[simp] theorem fulls_append (gs hs : List (Env × Bytes)) : fulls (gs ++ hs) = fulls gs ++ fulls hs :=
  List.map_append

/-- A transfer that is not over goes on to its next packet. -/
theorem handleAll_packets {gs : List (Env × Bytes)} (h : k + gs.length < total) :
    bootFramer.handleAll ⟨d, .bitStream total size flag k⟩ (fulls gs) =
      ⟨d.acts (packetsActs size flag k (gs.map Prod.snd)),
        .bitStream total size flag (k + gs.length)⟩ := by
  induction gs generalizing d k with
  | nil => rfl
  | cons g gs ih =>
    simp only [List.length_cons] at h
    have hg : bootFramer.handle ⟨d, .bitStream total size flag k⟩ (.full g.1 g.2) =
        ⟨d.acts (packetActs size flag k g.2), .bitStream total size flag (k + 1)⟩ :=
      packetDone_of_lt (by omega)
    simp only [fulls, List.map_cons, Framer.handleAll_cons, hg, packetsActs, Dev.acts_append]
    rw [show gs.map (fun g => Framer.Group.full g.1 g.2) = fulls gs from rfl, ih (by omega)]
    simp only [List.length_cons]
    rw [Nat.add_right_comm, Nat.add_assoc]

/-- A transfer all of whose packets have arrived is over. -/
theorem handleAll_packets_last {gs : List (Env × Bytes)} (h : k + gs.length = total) (hk : k < total) :
    bootFramer.handleAll ⟨d, .bitStream total size flag k⟩ (fulls gs) =
      ⟨d.acts (packetsActs size flag k (gs.map Prod.snd) ++ dirActs flag), .request⟩ := by
  rcases List.eq_nil_or_concat gs with rfl | ⟨gs, g, rfl⟩
  · simp at h
    omega
  · simp only [List.concat_eq_append, List.length_append, List.length_singleton] at h
    have hg : bootFramer.handle ⟨d.acts (packetsActs size flag k (gs.map Prod.snd)),
        .bitStream total size flag (k + gs.length)⟩ (.full g.1 g.2) =
        ⟨(d.acts (packetsActs size flag k (gs.map Prod.snd))).acts
          (packetActs size flag (k + gs.length) g.2 ++ dirActs flag), .request⟩ :=
      packetDone_of_le (by omega)
    rw [List.concat_eq_append, fulls_append, Framer.handleAll_append, handleAll_packets (by omega)]
    simp only [fulls, List.map_cons, List.map_nil, Framer.handleAll_cons, Framer.handleAll_nil, hg,
      List.map_append, packetsActs_append, List.length_map, packetsActs_singleton, Dev.acts_append]

/-- A transfer in which the idle timer trips sends one error message and is over. -/
theorem handle_timeout {env : Env} {data : Bytes} :
    bootFramer.handle ⟨d, .bitStream total size flag k⟩ (.dropped env data) =
      ⟨d.acts (.tx (errorMsg 0 1 0) :: dirActs flag), .request⟩ := packetTimeout_eq

end

/-! ## What the packets leave behind -/

/-- What an act sends. -/
def Act.packet? : Act → Option Bytes
  | .tx packet => some packet
  | _ => none

section

variable {size k : Nat} {flag : UInt8} {pkts : List Bytes}

/-- Every packet is acknowledged as passed, under its index. -/
theorem packetsActs_acks : (packetsActs size flag k pkts).filterMap Act.packet? =
    (List.range' k pkts.length).map (receivePacketAck · 1) := by
  induction pkts generalizing k with
  | nil => rfl
  | cons pkt pkts ih =>
    rw [packetsActs, List.filterMap_append, ih, List.length_cons, List.range'_succ]
    rfl

/-- Packets of one block each are stored one after the other, and nothing else is touched. -/
theorem packetsActs_stored {m : Nor} (hp : ∀ pkt ∈ pkts, 10 + 4096 ≤ pkt.length)
    (hk : blockAddress flag (k + pkts.length) ≤ m.size.bytes) :
    (runOps m ((packetsActs 4096 flag k pkts).flatMap Act.flashOps)).Holds (blockAddress flag k)
      (pkts.flatMap (slice · 10 4096)) ∧
    ∀ x, m.size.wrap x < blockAddress flag k ∨ blockAddress flag (k + pkts.length) ≤ m.size.wrap x →
      runOps m ((packetsActs 4096 flag k pkts).flatMap Act.flashOps) x = m x := by
  induction pkts generalizing m k with
  | nil => exact ⟨Nor.holds_nil, fun _ _ => rfl⟩
  | cons pkt pkts ih =>
    have hsucc := blockAddress_succ flag k
    have hlen : (slice pkt 10 4096).length = 4096 := slice_length (hp pkt (List.mem_cons_self ..))
    rw [List.length_cons, Nat.add_comm pkts.length, ← Nat.add_assoc] at hk ⊢
    have hle : blockAddress flag (k + 1) ≤ blockAddress flag (k + 1 + pkts.length) := by
      unfold blockAddress
      omega
    have hops : (packetsActs 4096 flag k (pkt :: pkts)).flatMap Act.flashOps =
        writeToSpi (slice pkt 10 4096) 4096 k flag ++
          (packetsActs 4096 flag (k + 1) pkts).flatMap Act.flashOps := by
      simp [packetsActs, packetActs, Act.flashOps, bitStreamPacketHeaderSize]
    have hblock : m.size.block (blockAddress flag k) = blockAddress flag k / 4096 :=
      Size.block_of_lt (by omega)
    have hd := blockAddress_dvd flag k
    obtain ⟨hw, hframe⟩ := @writeToSpi_block m flag k _ _ hlen le_rfl (by decide)
    have hsize := runOps_size m (writeToSpi (slice pkt 10 4096) 4096 k flag)
    rw [hops, runOps_append]
    generalize runOps m (writeToSpi (slice pkt 10 4096) 4096 k flag) = m' at hw hframe hsize
    obtain ⟨ih₁, ih₂⟩ := ih (m := m') (fun p h => hp p (List.mem_cons_of_mem _ h)) (by rwa [hsize])
    refine ⟨?_, fun x hx => ?_⟩
    · rw [List.flatMap_cons, Nor.holds_append, hlen, ← hsucc]
      refine ⟨hw.congr fun i hi => ih₂ _ (.inl ?_), ih₁⟩
      rw [Size.wrap_of_lt (by rw [hsize]; omega)]
      omega
    · rw [ih₂ x (by rw [hsize]; omega), hframe x]
      rw [hblock]
      unfold Size.block
      omega

theorem dirActs_acks : (dirActs flag).filterMap Act.packet? = [] := by
  unfold dirActs
  split <;> rfl

/-- The directory is outside the image regions. -/
theorem dirActs_frame {m : Nor} {x : Nat} (h : m.size.block x ≠ 0) :
    runOps m ((dirActs flag).flatMap Act.flashOps) x = m x := by
  unfold dirActs
  split
  · rw [List.flatMap_singleton]
    exact updateSpiDir_frame h
  · rfl

theorem payloads_length (hp : ∀ pkt ∈ pkts, 10 + 4096 ≤ pkt.length) :
    (pkts.flatMap (slice · 10 4096)).length = 4096 * pkts.length := by
  induction pkts with
  | nil => rfl
  | cons pkt pkts ih =>
    rw [List.flatMap_cons, List.length_append, slice_length (hp pkt (List.mem_cons_self ..)),
      ih fun p h => hp p (List.mem_cons_of_mem _ h), List.length_cons]
    omega

/-- An image that lies in the memory is stored by the packets of its transfer, and stays when the
directory is rewritten. -/
theorem transfer_stored {m : Nor} (hp : ∀ pkt ∈ pkts, 10 + 4096 ≤ pkt.length)
    (hk : blockAddress flag pkts.length ≤ m.size.bytes) :
    (runOps m ((packetsActs 4096 flag 0 pkts ++ dirActs flag).flatMap Act.flashOps)).Holds
      (imageAddress flag) (pkts.flatMap (slice · 10 4096)) := by
  have hle := le_imageAddress flag
  obtain ⟨hst, -⟩ := packetsActs_stored (k := 0) hp (by rwa [Nat.zero_add])
  rw [List.flatMap_append, runOps_append]
  refine hst.congr fun i hi => dirActs_frame ?_
  rw [payloads_length hp] at hi
  unfold goldenImageAddress at hle
  unfold blockAddress at hk ⊢
  rw [runOps_size, Size.block_of_lt (by omega)]
  omega

end

/-! ## The framing law -/

/-- What a group of the stream must look like, by where the bootloader is when it starts, and what
it does. -/
def GroupLaw (b : Boot) (g : Framer.Group UInt8 Env) (b' : Boot) : Prop :=
  match b.mode, g with
  | .request, .full env data => data.length = 12 ∧ b' = serve b.dev env data
  | .request, .dropped _ data => data.length < 12 ∧ b' = b
  | .bitStream total size flag k, .full _ data =>
    data.length = pad4 (size + 10) ∧ b' = packetDone b.dev total size flag k data
  | .bitStream _ size flag _, .dropped _ data =>
    data.length < pad4 (size + 10) ∧
      b' = ⟨b.dev.acts (.tx (errorMsg 0 1 0) :: dirActs flag), .request⟩
  | .hung, _ => False

/-- How the polls of a run of the firmware, from a command boundary with device `d`, fall into
groups, and what that makes of the device. -/
structure Framing (d : Dev) (tr : List (State × Poll UInt8 Env)) (s : State) : Prop where
  /-- No read goes past its buffer. -/
  inBounds : ∀ x ∈ tr, ReadInBounds x.1 x.2
  groups : ∃ ps qs gs, Machine.events tr = ps ++ qs ∧
    bootFramer.Groups ⟨d, .request⟩ ps gs ∧
    -- the polls after the last group left the next one unfinished
    Framer.Open (bootFramer.need (bootFramer.handleAll ⟨d, .request⟩ gs))
      (bootFramer.limit (bootFramer.handleAll ⟨d, .request⟩ gs)) qs ∧
    receiver s = Framer.during (bootFramer.handleAll ⟨d, .request⟩ gs) qs ∧
    (∀ gs₁ g gs₂, gs = gs₁ ++ g :: gs₂ →
      GroupLaw (bootFramer.handleAll ⟨d, .request⟩ gs₁) g
        (bootFramer.handleAll ⟨d, .request⟩ (gs₁ ++ [g]))) ∧
    -- a transfer that is cut short after the packets `pkts`
    (∀ gs₁ pkts env data gs₂ d' total size flag,
      gs = gs₁ ++ fulls pkts ++ .dropped env data :: gs₂ →
      bootFramer.handleAll ⟨d, .request⟩ gs₁ = ⟨d', .bitStream total size flag 0⟩ →
      pkts.length < total →
      bootFramer.handleAll ⟨d, .request⟩ (gs₁ ++ fulls pkts ++ [.dropped env data]) =
        ⟨d'.acts (packetsActs size flag 0 (pkts.map Prod.snd) ++
          .tx (errorMsg 0 1 0) :: dirActs flag), .request⟩) ∧
    -- a transfer that gets all its packets
    (∀ gs₁ pkts gs₂ d' total size flag, gs = gs₁ ++ fulls pkts ++ gs₂ →
      bootFramer.handleAll ⟨d, .request⟩ gs₁ = ⟨d', .bitStream total size flag 0⟩ →
      pkts.length = total → 0 < total →
      bootFramer.handleAll ⟨d, .request⟩ (gs₁ ++ fulls pkts) =
        ⟨d'.acts (packetsActs size flag 0 (pkts.map Prod.snd) ++ dirActs flag), .request⟩)

/-- A group is handled as its place in the stream says. -/
theorem groupLaw_of_segment {b : Boot} {qs : List (Poll UInt8 Env)} {g : Framer.Group UInt8 Env}
    (h : Framer.Segment (bootFramer.need b) (bootFramer.limit b) qs g) :
    GroupLaw b g (bootFramer.handle b g) := by
  obtain ⟨d, m⟩ := b
  cases h with
  | full ho hp hl =>
    cases m with
    | request => exact ⟨hl, rfl⟩
    | bitStream total size flag k => exact ⟨hl, rfl⟩
    | hung =>
      have hd := List.length_pos_iff.2 hp
      simp [bootFramer] at hl
      exact hp hl.2
  | dropped ho hlt hp hidle =>
    cases m with
    | request => exact ⟨hlt, rfl⟩
    | bitStream total size flag k => exact ⟨hlt, handle_timeout⟩
    | hung => simp [bootFramer] at hlt

/-- The framing law of the bootloader: from a command boundary, whatever the polls return, the
received bytes fall into groups of twelve bytes, and of the padded packet size inside a transfer;
a group in which the idle timer trips is discarded whole, with an error message inside a transfer,
which it ends. -/
theorem bootloader_framing {d : Dev} {tr : List (State × Poll UInt8 Env)} {s : State}
    (h : machine.Run (enter ⟨d, .request⟩) tr s) : Framing d tr s := by
  have hb : Boot.Ok ⟨d, .request⟩ := trivial
  refine ⟨reads_in_bounds hb h, ?_⟩
  obtain ⟨ps, qs, gs, hev, hg, ho, hs⟩ := Framer.run_groups (run_receiver hb h)
  rw [events_received] at hev
  refine ⟨ps, qs, gs, hev, hg, ho, hs, ?_, ?_, ?_⟩
  · rintro gs₁ g gs₂ rfl
    obtain ⟨qs', hseg⟩ := hg.segment
    rw [Framer.handleAll_append]
    exact groupLaw_of_segment hseg
  · intro gs₁ pkts env data gs₂ d' total size flag _ h₁ hlt
    rw [Framer.handleAll_append, Framer.handleAll_append, h₁, handleAll_packets (by omega),
      Framer.handleAll_cons, handle_timeout, Framer.handleAll_nil, Dev.acts_append]
  · intro gs₁ pkts gs₂ d' total size flag _ h₁ hlen hpos
    rw [Framer.handleAll_append, h₁, handleAll_packets_last (by omega) hpos]

/-- A link request, the announcement of two packets of one byte, one of them, and then nothing. -/
def cutTransfer (n : Nat) : List (Poll UInt8 Env) :=
  bytewise [0xAA, 0, 0x30, 0, 0, 0, 0, 0, 0, 0x9A, 0, 0] ++
    (bytewise [0xAA, 0, 0x33, 0, 0, 1, 0, 2, 0, 0x9A, 0, 0] ++
      (⟨{}, zeros 12⟩ :: (List.replicate n ⟨{}, []⟩ ++ [⟨{}, []⟩])))

theorem exec_cutTransfer {d : Dev} {n : Nat} (hn : n ≤ 2000001) (hgt : n > 2000000) :
    machine.Allows (enter ⟨d, .request⟩) (cutTransfer n) ∧
      machine.exec (enter ⟨d, .request⟩) (cutTransfer n) = enter ⟨((d.act (.tx linkRes)).acts
        (packetActs 1 0 0 (zeros 12))).act (.tx (errorMsg 0 1 0)), .request⟩ := by
  have hlink : machine.exec (enter ⟨d, .request⟩)
      (bytewise [0xAA, 0, 0x30, 0, 0, 0, 0, 0, 0, 0x9A, 0, 0]) =
        enter ⟨d.act (.tx linkRes), .request⟩ := rfl
  have hallow₁ := (@received_group ⟨d, .request⟩ trivial [0xAA, 0, 0x30, 0, 0, 0, 0, 0, 0, 0x9A, 0, 0] rfl
    (List.cons_ne_nil _ _)).1
  rw [cutTransfer, Machine.allows_append, Machine.exec_append, hlink]
  generalize d.act (.tx linkRes) = d
  have hannounce : machine.exec (enter ⟨d, .request⟩)
      (bytewise [0xAA, 0, 0x33, 0, 0, 1, 0, 2, 0, 0x9A, 0, 0]) = enter ⟨d, .bitStream 2 1 0 0⟩ := rfl
  have hallow₂ := (@received_group ⟨d, .request⟩ trivial [0xAA, 0, 0x33, 0, 0, 1, 0, 2, 0, 0x9A, 0, 0] rfl
    (List.cons_ne_nil _ _)).1
  rw [Machine.allows_append, Machine.exec_append, hannounce, Machine.exec_cons]
  have hpacket : machine.step (enter ⟨d, .bitStream 2 1 0 0⟩) ⟨{}, zeros 12⟩ =
      enter ⟨d.acts (packetActs 1 0 0 (zeros 12)), .bitStream 2 1 0 1⟩ := rfl
  have hen : machine.enabled (enter ⟨d, .bitStream 2 1 0 0⟩) ⟨{}, zeros 12⟩ := by
    simp [machine, want, enter, pad4, bitStreamPacketHeaderSize, zeros]
  generalize d.acts (packetActs 1 0 0 (zeros 12)) = d' at hpacket ⊢
  rw [hpacket]
  -- the idle timer trips at the last poll
  obtain ⟨hidle, hs, -⟩ := @exec_idle d' 2 1 1 n 0 hn
  rw [Machine.exec_append, hs]
  refine ⟨⟨hallow₁, hallow₂, hen, ?_⟩, ?_⟩
  · rw [hpacket, Machine.allows_append, hs]
    refine ⟨hidle, ?_, trivial⟩
    simp [machine, want, pad4, bitStreamPacketHeaderSize]
  · simp only [Machine.exec_cons, Machine.exec_nil, machine_step, step, ne_eq, not_true_eq_false,
      if_false]
    rw [if_pos hgt]
    rfl

/-- A link request is answered, and a transfer is cut short after one of its two packets. -/
theorem bootloader_framing_cut_transfer : ∃ n,
    let d : Dev := ⟨.erased w25q64, {}, []⟩
    let s := machine.exec (enter ⟨d, .request⟩) (cutTransfer n)
    Framing d (machine.trace (enter ⟨d, .request⟩) (cutTransfer n)) s ∧
      s = enter ⟨d.acts (.tx linkRes :: packetActs 1 0 0 (zeros 12) ++ [.tx (errorMsg 0 1 0)]), .request⟩ := by
  obtain ⟨n, hn, hgt⟩ : ∃ n, n ≤ 2000001 ∧ n > 2000000 := ⟨2000001, by omega, by omega⟩
  obtain ⟨hallow, hs⟩ := @exec_cutTransfer ⟨.erased w25q64, {}, []⟩ n hn hgt
  exact ⟨n, bootloader_framing hallow.run, hs⟩

end QccGui.Firmware
