import QccGui.Firmware.Endings

/-!
# What a passed packet leaves in the flash

Every packet of a transfer is acknowledged as passed; the bytes that can be read where it was stored
need not be its own.

* `Readable`: the payloads of the packets of a transfer can all be read at their blocks.
* `readable_iff`: for which packet sizes, packet counts and chips that is so, whatever the payloads.
* `Truthful`: every packet that a transfer has acknowledged as passed can be read when
  `recieve_bit_stream` returns.
* `acks_truthful`: when the transfers of a command are truthful.
-/

namespace QccGui.Firmware

open Lib

variable {chip : Size} {m : Nor} {flag : UInt8} {size k n : Nat} {pkts : List Bytes}

/-! ## The memory after the packets -/

/-- The memory after the packets `pkts` of a transfer, the first of which has index `k`. -/
def stored (m : Nor) (size : Nat) (flag : UInt8) (k : Nat) (pkts : List Bytes) : Nor :=
  runOps m ((packetsActs size flag k pkts).flatMap Act.flashOps)

@[simp] theorem stored_nil : stored m size flag k [] = m := rfl

theorem stored_cons (pkt : Bytes) : stored m size flag k (pkt :: pkts) =
    stored (runOps m (writeToSpi (slice pkt 10 size) size k flag)) size flag (k + 1) pkts := by
  simp [stored, packetsActs, packetActs, Act.flashOps, bitStreamPacketHeaderSize]

theorem stored_congr {a b : Nat} (h : m.size.wrap a = m.size.wrap b) :
    stored m size flag k pkts a = stored m size flag k pkts b :=
  Nor.get_congr (by rwa [stored, runOps_size])

/-- The payload of every packet can be read at its block. -/
def Readable (m : Nor) (size : Nat) (flag : UInt8) (pkts : List Bytes) : Prop :=
  ∀ k (hk : k < pkts.length),
    (stored m size flag 0 pkts).Holds (blockAddress flag k) (slice pkts[k] 10 size)

/-- This is so for every memory of a chip and every `n` packets. -/
def AllReadable (chip : Size) (size : Nat) (flag : UInt8) (n : Nat) : Prop :=
  ∀ (m : Nor) pkts, m.size = chip → Whole size pkts → pkts.length = n → Readable m size flag pkts

theorem payload_length {pkt : Bytes} (h : pkt.length = pad4 (size + 10)) :
    (slice pkt 10 size).length = size := by
  have hle := le_pad4 (size + 10)
  exact slice_length (by omega)

/-- Packets of whole pages that fit their blocks are stored, and nothing but their blocks is
touched. -/
theorem stored_blocks (hs : size ≤ 4096) (hp : 256 ∣ size) (hw : Whole size pkts)
    (hn : 4096 * pkts.length ≤ m.size.bytes) :
    (∀ i (hi : i < pkts.length), (stored m size flag k pkts).Holds (blockAddress flag (k + i))
      (slice pkts[i] 10 size)) ∧
    ∀ x, (∀ i, i < pkts.length → m.size.block x ≠ m.size.block (blockAddress flag (k + i))) →
      stored m size flag k pkts x = m x := by
  induction pkts generalizing m k with
  | nil => exact ⟨fun i hi => absurd hi (Nat.not_lt_zero i), fun _ _ => rfl⟩
  | cons pkt pkts ih =>
    rw [List.length_cons] at hn
    have hlen := payload_length (hw pkt List.mem_cons_self)
    obtain ⟨hw₁, hframe⟩ := @writeToSpi_block m flag k _ _ hlen hs hp
    have hsize := runOps_size m (writeToSpi (slice pkt 10 size) size k flag)
    rw [stored_cons]
    generalize runOps m (writeToSpi (slice pkt 10 size) size k flag) = m' at hw₁ hframe hsize
    obtain ⟨ih₁, ih₂⟩ := ih (m := m') (k := k + 1) (fun q hq => hw q (List.mem_cons_of_mem _ hq))
      (by rw [hsize]; omega)
    rw [hsize] at ih₂
    refine ⟨fun i hi => ?_, fun x hx => ?_⟩
    · cases i with
      | zero =>
        rw [Nat.add_zero, List.getElem_cons_zero]
        refine hw₁.congr fun t ht => ih₂ _ fun i hi => ?_
        rw [Size.block_add (blockAddress_dvd flag k) (by omega)]
        exact block_blockAddress_ne (by omega) (by omega)
      | succ i =>
        rw [← Nat.add_assoc, Nat.add_right_comm]
        exact ih₁ i (by simpa using hi)
    · rw [ih₂ x fun i hi => ?_, hframe x (hx 0 (by simp))]
      rw [Nat.add_right_comm, Nat.add_assoc]
      exact hx (i + 1) (by simpa using hi)

/-- Such packets can be read. -/
theorem readable_of (hs : size ≤ 4096) (hp : 256 ∣ size) (hw : Whole size pkts)
    (hn : 4096 * pkts.length ≤ m.size.bytes) : Readable m size flag pkts := by
  intro k hk
  have hh := (@stored_blocks m flag _ 0 _ hs hp hw hn).1 k hk
  rwa [Nat.zero_add] at hh

/-! ## Packets that cannot be read -/

/-- A packet with the given payload. -/
def packetOf (size : Nat) (payload : Bytes) : Bytes :=
  zeros 10 ++ payload ++ zeros (pad4 (size + 10) - (size + 10))

/-- `n` packets, with the payload `x` in the first and `y` in the others. -/
def stream (size n : Nat) (x y : Bytes) : List Bytes :=
  packetOf size x :: List.replicate (n - 1) (packetOf size y)

section

variable {x y : Bytes}

theorem packetOf_length (hx : x.length = size) : (packetOf size x).length = pad4 (size + 10) := by
  have hle := le_pad4 (size + 10)
  simp only [packetOf, List.length_append, zeros_length, hx]
  omega

theorem packetOf_payload (hx : x.length = size) : slice (packetOf size x) 10 size = x := by
  rw [packetOf, List.append_assoc, slice_append_right (by simp), zeros_length, Nat.sub_self,
    slice_append_left (by omega), slice_self hx]

theorem stream_whole (hx : x.length = size) (hy : y.length = size) :
    Whole size (stream size n x y) := by
  intro pkt hm
  rcases List.mem_cons.1 hm with rfl | hm
  · exact packetOf_length hx
  · rw [(List.mem_replicate.1 hm).2]
    exact packetOf_length hy

theorem stream_length (hn : 0 < n) : (stream size n x y).length = n := by
  simp only [stream, List.length_cons, List.length_replicate]
  omega

/-- The bytes that are read of the first packet of a stream, and of the others. -/
theorem readable_stream (hx : x.length = size) (hy : y.length = size) (hn : 0 < n)
    (h : Readable m size flag (stream size n x y)) :
    (stored m size flag 0 (stream size n x y)).Holds (blockAddress flag 0) x ∧
      ∀ k, 0 < k → k < n →
        (stored m size flag 0 (stream size n x y)).Holds (blockAddress flag k) y := by
  refine ⟨?_, fun k hk hkn => ?_⟩
  · have h0 := h 0 (by rwa [stream_length hn])
    simpa only [stream, List.getElem_cons_zero, packetOf_payload hx] using h0
  · have hlt : k < (stream size n x y).length := by rwa [stream_length hn]
    have hget : (stream size n x y)[k] = packetOf size y := by
      obtain ⟨j, rfl⟩ : ∃ j, k = j + 1 := ⟨k - 1, by omega⟩
      simp only [stream, List.getElem_cons_succ, List.getElem_replicate]
    have hk' := h k hlt
    rwa [hget, packetOf_payload hy] at hk'

/-- `write_to_spi` uses the whole pages of a payload only. -/
theorem writeToSpi_congr {a b : Bytes} (h : a.take (256 * (size / 256)) = b.take (256 * (size / 256))) :
    writeToSpi a size k flag = writeToSpi b size k flag := by
  have hpage : ∀ i, i < size / 256 → slice a (256 * i) 256 = slice b (256 * i) 256 := by
    intro i hi
    have hcut : ∀ c : Bytes, slice c (256 * i) 256 = slice (c.take (256 * (size / 256))) (256 * i) 256 := by
      intro c
      rw [slice, slice, List.drop_take, List.take_take, Nat.min_eq_left (by omega)]
    rw [hcut a, hcut b, h]
  rw [writeToSpi, writeToSpi]
  congr 1
  refine List.map_congr_left fun i hi => ?_
  rw [hpage i (List.mem_range.1 hi)]

/-- What is zero stays zero outside the block that is erased. -/
theorem writeToSpi_zero {buf : Bytes} {a : Nat} (hz : m a = 0)
    (ha : m.size.block a ≠ m.size.block (blockAddress flag k)) :
    runOps m (writeToSpi buf size k flag) a = 0 := by
  have hpages : ∀ (m : Nor) (xs : List (Nat × Bytes)), m a = 0 →
      xs.foldl (fun m x => m.program x.1 x.2) m a = 0 := by
    intro m xs h
    induction xs generalizing m with
    | nil => exact h
    | cons x xs ih => exact ih _ (Nor.program_zero h)
  have hops : ∀ (m : Nor) (is : List Nat), m a = 0 → runOps m (is.map fun i =>
      .program (blockAddress flag k + 256 * i) (slice buf (256 * i) 256)) a = 0 := by
    intro m is h
    induction is generalizing m with
    | nil => exact h
    | cons i is ih => exact ih _ (hpages _ _ h)
  rw [writeToSpi, runOps_cons]
  refine hops _ _ ?_
  rw [run_eraseBlock, Nor.erase4k_of_ne ha, hz]

/-- A memory of zeros. -/
def cleared (chip : Size) : Nor := ⟨chip, fun _ => 0⟩

/-- A rest of less than a page is not stored. -/
theorem dvd_of_readable (hall : AllReadable chip size flag n) (hn : 0 < n) : 256 ∣ size := by
  by_contra hp
  have hrest : 256 * (size / 256) < size := by omega
  let m := cleared chip
  -- two first packets that differ in their last byte only
  let x : Bytes := zeros (size - 1) ++ [0]
  let y : Bytes := zeros (size - 1) ++ [1]
  have hx : x.length = size := by
    simp only [x, List.length_append, zeros_length, List.length_singleton]
    omega
  have hy : y.length = size := by
    simp only [y, List.length_append, zeros_length, List.length_singleton]
    omega
  have hpages : x.take (256 * (size / 256)) = y.take (256 * (size / 256)) := by
    simp only [x, y]
    rw [List.take_append_of_le_length (by rw [zeros_length]; omega),
      List.take_append_of_le_length (by rw [zeros_length]; omega)]
  have hsame : stored m size flag 0 (stream size n x x) = stored m size flag 0 (stream size n y x) := by
    rw [stream, stream, stored_cons, stored_cons, packetOf_payload hx, packetOf_payload hy,
      writeToSpi_congr hpages]
  have hrx := hall m _ rfl (stream_whole hx hx) (stream_length hn)
  have hry := hall m _ rfl (stream_whole hy hx) (stream_length hn)
  have h₁ := (readable_stream hx hx hn hrx).1 (size - 1) (by omega)
  have h₂ := (readable_stream hy hx hn hry).1 (size - 1) (by omega)
  rw [hsame, h₂] at h₁
  simp [x, y] at h₁

/-- The payload of packet 0 beyond its block is lost. -/
theorem le_of_readable (hall : AllReadable chip size flag n) (hn : 0 < n) : size ≤ 4096 := by
  by_contra hs
  let m := cleared chip
  -- zeros in the block, ones beyond it
  obtain ⟨r, hr⟩ : ∃ r, size = 4096 + (r + 1) := ⟨size - 4096 - 1, by omega⟩
  let x : Bytes := zeros 4096 ++ List.replicate (r + 1) 1
  have hx : x.length = size := by
    simp only [x, List.length_append, zeros_length, List.length_replicate]
    omega
  have hz : (zeros size).length = size := zeros_length size
  obtain ⟨h₁, h₂⟩ := readable_stream hx hz hn
    (hall m _ rfl (stream_whole hx hz) (stream_length hn))
  have hzero : x.getD 0 0 = 0 := by
    rw [List.getD_append _ _ _ _ (by rw [zeros_length]; omega)]
    exact List.getD_replicate 0 (by omega)
  have hone : x.getD 4096 0 = 1 := by
    have hlen : (zeros 4096).length = 4096 := zeros_length 4096
    rw [List.getD_append_right _ _ _ _ hlen.le, hlen, Nat.sub_self]
    rfl
  have hfirst := h₁ 4096 (by omega)
  rw [hone] at hfirst
  rcases Nat.lt_or_ge 1 n with h1 | h1
  · -- packet 1 is stored there
    have hnext := h₂ 1 (by decide) h1 0 (by omega)
    rw [blockAddress_succ, Nat.add_zero, hfirst] at hnext
    simp [zeros] at hnext
  · -- nothing is erased there, or it is the start of the block itself
    obtain rfl : n = 1 := by omega
    have hd := blockAddress_dvd flag 0
    have hd' : 4096 ∣ blockAddress flag 0 + 4096 := Nat.dvd_add hd dvd_rfl
    have hst : stored m size flag 0 (stream size 1 x (zeros size)) =
        runOps m (writeToSpi x size 0 flag) := by
      rw [stream, stored_cons, packetOf_payload hx]
      rfl
    by_cases hb : chip.block (blockAddress flag 0 + 4096) = chip.block (blockAddress flag 0)
    · have hcell : chip.wrap (blockAddress flag 0 + 4096) = chip.wrap (blockAddress flag 0) := by
        have hc := chip.wrap_dvd hd
        have hc' := chip.wrap_dvd hd'
        unfold Size.block at hb
        omega
      have hstart := h₁ 0 (by omega)
      rw [Nat.add_zero, ← stored_congr (m := m) hcell, hfirst, hzero] at hstart
      cases hstart
    · have hkept : runOps m (writeToSpi x size 0 flag) (blockAddress flag 0 + 4096) = 0 :=
        writeToSpi_zero rfl hb
      rw [hst, hkept] at hfirst
      cases hfirst

/-- The chip stores a packet more than it has blocks where packet 0 was. -/
theorem count_of_readable (hall : AllReadable chip size flag n) (hs : 0 < size) :
    4096 * n ≤ chip.bytes := by
  by_contra hn
  have hpos : 0 < n := by omega
  have hblocks : 4096 * (chip.bytes / 4096) = chip.bytes := Nat.mul_div_cancel' chip.whole
  have hbytes := chip.bytes_pos
  let m := cleared chip
  let x : Bytes := List.replicate size 1
  have hx : x.length = size := List.length_replicate
  have hz : (zeros size).length = size := zeros_length size
  have hr := hall m _ rfl (stream_whole hx hz) (stream_length hpos)
  obtain ⟨h₁, h₂⟩ := readable_stream hx hz hpos hr
  have hfirst := h₁ 0 (by omega)
  have hlast := h₂ (chip.bytes / 4096) (by omega) (by omega) 0 (by omega)
  have hsame : chip.wrap (blockAddress flag (chip.bytes / 4096) + 0) =
      chip.wrap (blockAddress flag 0 + 0) := by
    have haddr : blockAddress flag (chip.bytes / 4096) = blockAddress flag 0 + chip.bytes := by
      unfold blockAddress
      omega
    rw [haddr, Nat.add_zero, Nat.add_zero, Size.wrap, Size.wrap, Nat.add_mod_right]
  rw [stored_congr (m := m) hsame, hfirst] at hlast
  simp [x, zeros, hs] at hlast

end

/-- The payloads of a transfer can be read, whatever they are, exactly if there are none, or they are
whole pages that fit a block, and no more than the chip has blocks. -/
theorem readable_iff : AllReadable chip size flag n ↔
    n = 0 ∨ size = 0 ∨ 256 ∣ size ∧ size ≤ 4096 ∧ 4096 * n ≤ chip.bytes := by
  constructor
  · intro hall
    rcases Nat.eq_zero_or_pos n with hn | hn
    · exact .inl hn
    rcases Nat.eq_zero_or_pos size with hs | hs
    · exact .inr (.inl hs)
    · exact .inr (.inr ⟨dvd_of_readable hall hn, le_of_readable hall hn, count_of_readable hall hs⟩)
  · rintro (rfl | rfl | ⟨hp, hs, hn⟩) m pkts rfl hw hl k hk
    · omega
    · intro i hi
      rw [payload_length (hw _ (List.getElem_mem hk))] at hi
      omega
    · exact readable_of hs hp hw (by rwa [hl]) k hk

/-! ## The acknowledgements of a transfer -/

/-- What `recieve_bit_stream` itself has done when it returns; its caller rewrites the directory. -/
def ownActs (d : Dev) (log : List Act) : List Act :=
  (log.drop d.log.length).filter (· ≠ .updateSpiDir)

/-- The payload of packet `k` among the bytes of a transfer. -/
def payload (size : Nat) (bs : Bytes) (k : Nat) : Bytes := slice bs (k * pad4 (size + 10) + 10) size

/-- Every packet that a transfer with device `d` and bytes `bs` acknowledged as passed can be read at
its block when `recieve_bit_stream` returns. -/
def Truthful (d : Dev) (size : Nat) (flag : UInt8) (bs : Bytes) (log : List Act) : Prop :=
  ∀ k, k < 65536 → .tx (receivePacketAck k 1) ∈ ownActs d log →
    (runOps d.flash ((ownActs d log).flatMap Act.flashOps)).Holds (blockAddress flag k)
      (payload size bs k)

/-- The acknowledgement of a packet determines its index. -/
theorem receivePacketAck_inj {i j : Nat} (hi : i < 65536) (hj : j < 65536)
    (h : receivePacketAck i 1 = receivePacketAck j 1) : i = j := by
  simp only [receivePacketAck, getCheckSum_eq, sealed, List.cons_append, List.cons.injEq] at h
  obtain ⟨-, -, -, -, -, hlo, hhi, -⟩ := h
  rw [← word16_byte hi, ← word16_byte hj, hlo, hhi]

theorem receivePacketAck_ne_errorMsg (i : Nat) : receivePacketAck i 1 ≠ errorMsg 0 1 0 := by
  intro h
  simp [receivePacketAck, errorMsg, getCheckSum_eq, sealed] at h

theorem ack_mem {i : Nat} (hi : i < 65536) (hn : pkts.length ≤ 65536) :
    .tx (receivePacketAck i 1) ∈ packetsActs size flag 0 pkts ↔ i < pkts.length := by
  have htx : ∀ (as : List Act) (p : Bytes), .tx p ∈ as ↔ p ∈ as.filterMap Act.packet? := by
    intro as p
    rw [List.mem_filterMap]
    constructor
    · exact fun h => ⟨_, h, rfl⟩
    · rintro ⟨a, ha, hp⟩
      cases a with
      | tx packet =>
        obtain rfl := Option.some.inj hp
        exact ha
      | _ => cases hp
  rw [htx, packetsActs_acks, List.mem_map]
  simp only [List.mem_range'_1]
  constructor
  · rintro ⟨j, hj, heq⟩
    rw [← receivePacketAck_inj (by omega) hi heq]
    omega
  · exact fun h => ⟨i, by omega, rfl⟩

theorem payload_eq {got : Bytes} (hw : Whole size pkts) (hk : k < pkts.length) :
    payload size (pkts.flatten ++ got) k = slice pkts[k] 10 size := by
  induction pkts generalizing k with
  | nil => exact absurd hk (Nat.not_lt_zero k)
  | cons pkt pkts ih =>
    have hlen := hw pkt List.mem_cons_self
    have hle := le_pad4 (size + 10)
    rw [List.flatten_cons, List.append_assoc, payload]
    cases k with
    | zero =>
      rw [Nat.zero_mul, Nat.zero_add, slice_append_left (by omega)]
      rfl
    | succ k =>
      have hk' : k < pkts.length := by simpa using hk
      rw [slice_append_right (by rw [hlen, Nat.succ_mul]; omega), hlen, List.getElem_cons_succ,
        ← ih (fun q hq => hw q (List.mem_cons_of_mem _ hq)) hk', payload]
      congr 1
      rw [Nat.succ_mul]
      omega

/-- A transfer that is over has acknowledged the packets that arrived whole. -/
theorem Stands.truthful {d : Dev} {total : Nat} {bs : Bytes} {b : Bool} {r : Framer.Rx UInt8 Boot}
    (h : Stands d total size flag bs b r) (hm : r.st.mode = .request) (ht : total < 65536) :
    ∃ pkts got, Whole size pkts ∧ got.length < pad4 (size + 10) ∧ bs = pkts.flatten ++ got ∧
      (Truthful d size flag bs r.st.dev.log ↔ Readable d.flash size flag pkts) := by
  have hkey : ∀ (pkts : List Bytes) (got : Bytes) (tail : List Act), Whole size pkts →
      pkts.length ≤ total → (tail = [] ∨ tail = [.tx (errorMsg 0 1 0)]) →
      ownActs d r.st.dev.log = packetsActs size flag 0 pkts ++ tail → bs = pkts.flatten ++ got →
      (Truthful d size flag bs r.st.dev.log ↔ Readable d.flash size flag pkts) := by
    rintro pkts got tail hw hn htail hown rfl
    have hops : (packetsActs size flag 0 pkts ++ tail).flatMap Act.flashOps =
        (packetsActs size flag 0 pkts).flatMap Act.flashOps := by
      rcases htail with rfl | rfl <;> simp [Act.flashOps]
    have hack : ∀ k, k < 65536 →
        (.tx (receivePacketAck k 1) ∈ packetsActs size flag 0 pkts ++ tail ↔ k < pkts.length) := by
      intro k hk
      rw [List.mem_append, ack_mem hk (by omega)]
      rcases htail with rfl | rfl
      · simp
      · simp [receivePacketAck_ne_errorMsg]
    rw [Truthful, Readable, hown, hops]
    constructor
    · intro htr k hk
      rw [← payload_eq hw hk]
      exact htr k (by omega) ((hack k (by omega)).2 hk)
    · intro hrd k hk hmem
      have hkn := (hack k hk).1 hmem
      rw [payload_eq hw hkn]
      exact hrd k hkn
  have hfilter : ∀ pkts, (packetsActs size flag 0 pkts).filter (· ≠ .updateSpiDir) =
      packetsActs size flag 0 pkts := by
    intro pkts
    refine List.filter_eq_self.2 fun a ha => decide_eq_true fun hdir => ?_
    rw [hdir] at ha
    exact updateSpiDir_not_mem ha
  have hdir : (dirActs flag).filter (· ≠ .updateSpiDir) = [] := by
    unfold dirActs
    split <;> rfl
  cases h with
  | going => cases hm
  | @complete pkts hw htotal hbs =>
    refine ⟨pkts, [], hw, pad4_pos size, by rw [hbs, List.append_nil],
      hkey pkts [] [] hw (by omega) (.inl rfl) ?_ (by rw [hbs, List.append_nil])⟩
    rw [ownActs, Dev.acts_log, List.drop_left, List.filter_append, hfilter, hdir]
  | @cut pkts got hw hlt hgot hbs =>
    refine ⟨pkts, got, hw, hgot, hbs, hkey pkts got _ hw (by omega) (.inr rfl) ?_ hbs⟩
    rw [ownActs, Dev.acts_log, List.drop_left, List.filter_append, List.filter_cons, hfilter, hdir]
    rfl

/-- Every transfer of a command to a device with such a chip, of which `n` packets arrive whole, is
truthful. -/
def TruthfulRuns (chip : Size) (cmd : Bytes) (n : Nat) : Prop :=
  let size := word16 (cmd.getD 5 0) (cmd.getD 6 0)
  ∀ (d : Dev) (env : Env) (tr : List (State × Poll UInt8 Env)) (s : State), d.flash.size = chip →
    machine.Run (enter (serve d env cmd)) tr s → Machine.Along (fun s _ => InTransfer s) tr →
    ¬ InTransfer s → (Poll.items (Machine.events tr)).length / pad4 (size + 10) = n →
    Truthful d size (cmd.getD 3 0) (Poll.items (Machine.events tr)) s.dev.log

/-- The packets of a transfer that is over are those of its bytes. -/
theorem run_truthful {d : Dev} {total : Nat} {tr : List (State × Poll UInt8 Env)} {s : State}
    (h : machine.Run (enter (recieveBitStream d total size flag)) tr s)
    (ha : Machine.Along (fun s _ => InTransfer s) tr) (hs : ¬ InTransfer s) (ht : total < 65536) :
    ∃ pkts got, Whole size pkts ∧ got.length < pad4 (size + 10) ∧
      Poll.items (Machine.events tr) = pkts.flatten ++ got ∧
      (Truthful d size flag (Poll.items (Machine.events tr)) s.dev.log ↔
        Readable d.flash size flag pkts) := by
  obtain ⟨b, hS, -⟩ := run_stands h ha
  rw [← receiver_dev]
  refine hS.truthful ?_ ht
  obtain ⟨d', pc⟩ := s
  cases pc with
  | request => rfl
  | bitStream => exact absurd trivial hs
  | hung =>
    generalize hr : receiver ⟨d', .hung⟩ = r at hS
    cases hS <;> simp [receiver] at hr

/-- Whole packets are determined by their bytes. -/
theorem whole_unique {pkts' : List Bytes} {got : Bytes} (hw : Whole size pkts) (hw' : Whole size pkts')
    (hg : got.length < pad4 (size + 10)) (h : pkts.flatten = pkts'.flatten ++ got) : pkts' = pkts := by
  have hlen := congrArg List.length h
  rw [List.length_append, hw.length_flatten, hw'.length_flatten] at hlen
  have hcount : pkts.length = pkts'.length := by
    rw [← Nat.mul_div_cancel pkts.length (pad4_pos size), hlen, Nat.mul_comm,
      Nat.mul_add_div (pad4_pos size), Nat.div_eq_of_lt hg, Nat.add_zero]
  obtain rfl : got = [] := by
    rw [hcount] at hlen
    exact List.eq_nil_of_length_eq_zero (by omega)
  refine List.eq_iff_flatten_eq.2 ⟨by rw [h, List.append_nil], ?_⟩
  rw [List.map_congr_left hw, List.map_congr_left hw', List.map_const', List.map_const', hcount]

/-- The transfers of a command of which `n` packets arrive are truthful exactly if any `n` packets of
the announced size can be read. -/
theorem truthfulRuns_iff {cmd : Bytes} (hc : cmd.getD 2 0 = 0x33) {n : Nat}
    (hn : n ≤ word16 (cmd.getD 7 0) (cmd.getD 8 0)) : TruthfulRuns chip cmd n ↔
      AllReadable chip (word16 (cmd.getD 5 0) (cmd.getD 6 0)) (cmd.getD 3 0) n := by
  have ht := word16_lt (cmd.getD 7 0) (cmd.getD 8 0)
  constructor
  · intro htr m pkts hm hw hl
    rcases Nat.eq_zero_or_pos n with h0 | hpos
    · intro k hk
      omega
    obtain ⟨s, ⟨tr, hr, ha, hit⟩, hs⟩ := @takes_end ⟨m, {}, []⟩ (word16 (cmd.getD 7 0) (cmd.getD 8 0))
      _ (cmd.getD 3 0) pkts hw (by omega) (by omega)
    have hb : recieveBitStream ⟨m, {}, []⟩ (word16 (cmd.getD 7 0) (cmd.getD 8 0))
        (word16 (cmd.getD 5 0) (cmd.getD 6 0)) (cmd.getD 3 0) =
        ⟨⟨m, {}, []⟩, .bitStream _ _ (cmd.getD 3 0) 0⟩ := if_pos (by omega)
    rw [← hb] at hr
    obtain ⟨pkts', got, hw', hg, hbs, hiff⟩ := run_truthful hr ha hs ht
    obtain rfl := whole_unique hw hw' hg (hit.symm.trans hbs)
    rw [← @serve_bitStream _ {} cmd hc] at hr
    refine hiff.1 (htr _ _ _ _ hm hr ha hs ?_)
    rw [hit, hw.length_flatten, Nat.mul_div_cancel _ (pad4_pos _), hl]
  · intro hall d env tr s hd hr ha hs hcount
    rw [serve_bitStream hc] at hr
    obtain ⟨pkts, got, hw, hg, hbs, hiff⟩ := run_truthful hr ha hs ht
    refine hiff.2 (hall _ _ hd hw ?_)
    rw [← hcount, hbs, List.length_append, hw.length_flatten, Nat.mul_comm,
      Nat.mul_add_div (pad4_pos _), Nat.div_eq_of_lt hg, Nat.add_zero]

/-- That is so exactly if the packets have no payload, or whole pages of payload that fit a block, and
are no more than the chip has blocks. -/
theorem acks_truthful {cmd : Bytes} (hc : cmd.getD 2 0 = 0x33) {n : Nat}
    (hn : n ≤ word16 (cmd.getD 7 0) (cmd.getD 8 0)) :
    let size := word16 (cmd.getD 5 0) (cmd.getD 6 0)
    TruthfulRuns chip cmd n ↔
      n = 0 ∨ size = 0 ∨ 256 ∣ size ∧ size ≤ 4096 ∧ 4096 * n ≤ chip.bytes := by
  intro size
  rw [truthfulRuns_iff hc hn, readable_iff]

/-- 2048 packets of one block fill the chip. -/
theorem acks_truthful_whole_chip :
    TruthfulRuns w25q64 [0xAA, 0, 0x33, 0, 0, 0, 0x10, 0, 8, 0x81, 0, 0] 2048 := by
  refine (acks_truthful (by decide) (by decide)).2 (.inr (.inr ?_))
  decide

/-- In an erased flash the last 44 bytes of 300 zeros are read as ones. -/
theorem rest_not_stored : ¬ Readable (.erased w25q64) 300 0 [packetOf 300 (zeros 300)] := by
  intro h
  have hpay : slice (packetOf 300 (zeros 300)) 10 300 = zeros 300 :=
    packetOf_payload (zeros_length 300)
  have hread := h 0 Nat.one_pos 256
  rw [List.getElem_cons_zero, hpay, zeros_length] at hread
  have hblock : blockAddress 0 0 = 0x400000 := by decide
  have hops : writeToSpi (zeros 300) 300 0 0 =
      [.eraseBlock 0x400000, .program 0x400000 (slice (zeros 300) 0 256)] := by
    rw [writeToSpi, hblock]
    rfl
  have hpage : (slice (zeros 300) 0 256).length = 256 :=
    slice_length (by rw [zeros_length]; omega)
  have hst : stored (.erased w25q64) 300 0 0 [packetOf 300 (zeros 300)] =
      ((Nor.erased w25q64).erase4k 0x400000).program 0x400000 (slice (zeros 300) 0 256) := by
    rw [stored_cons, stored_nil, hpay, hops, runOps_cons, runOps_cons, runOps_nil,
      run_eraseBlock, run_program_page (by omega) hpage]
  have hcell : ((Nor.erased w25q64).erase4k 0x400000).size.wrap 0x400000 + 256 ≤
      ((Nor.erased w25q64).erase4k 0x400000).size.wrap (0x400000 + 256) := by decide
  rw [hst, hblock, Nor.program_of_le (by rwa [hpage])] at hread
  have hones : (Nor.erased w25q64).erase4k 0x400000 (0x400000 + 256) = 0xFF := by
    rw [Nor.erase4k_get]
    split <;> rfl
  rw [hones] at hread
  have hzero : (zeros 300).getD 256 0 = 0 := List.getD_replicate 0 (by omega)
  rw [hzero] at hread
  cases hread (by omega)

/-- A transfer of one packet with 300 bytes. -/
theorem ack_without_rest : ¬ ∀ (cmd : Bytes) (n : Nat), cmd.getD 2 0 = 0x33 →
    n ≤ word16 (cmd.getD 7 0) (cmd.getD 8 0) → TruthfulRuns w25q64 cmd n := by
  intro hall
  have hruns := hall [0xAA, 0, 0x33, 0, 0, 0x2C, 1, 1, 0, 0xB5, 0, 0] 1 (by decide) (by decide)
  have hread := (truthfulRuns_iff (by decide) (by decide)).1 hruns
  refine rest_not_stored (hread _ _ rfl ?_ rfl)
  intro pkt hm
  rw [List.mem_singleton.1 hm]
  exact packetOf_length (zeros_length 300)

end QccGui.Firmware
