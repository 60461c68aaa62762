import QccGui.Firmware.Endings

/-!
# Flash regions

Which addresses the transfer loop erases and programs.

* `Transferred`, `run_transferred`: what a transfer has done, given the bytes it received.
* `flash_containment_iff`: when a transfer stays inside the region of its image.
-/

namespace QccGui.Firmware

open Lib

/-- The addresses a driver call touches, from the first to one past the last. -/
def FlashOp.range : FlashOp → Nat × Nat
  | .eraseBlock a => (a, a + 4096)
  | .program a buf => (a, a + buf.length)

/-- The flash region of an image: 0x1000 to 0x3FFFFF for the golden one, 0x400000 to 0x7FFFFF for the
other. -/
def region (golden : Bool) : Nat × Nat :=
  if golden then (0x1000, 0x400000) else (0x400000, 0x800000)

def FlashOp.Within (op : FlashOp) (r : Nat × Nat) : Prop := r.1 ≤ op.range.1 ∧ op.range.2 ≤ r.2

/-- Every driver call made by `write_to_spi` among the acts `as` stays inside the region. -/
def WritesWithin (golden : Bool) (as : List Act) : Prop :=
  ∀ buf size k flag, .writeToSpi buf size k flag ∈ as →
    ∀ op ∈ writeToSpi buf size k flag, op.Within (region golden)

/-! ## What a transfer does -/

/-- A transfer that started with device `d` and has received `n` bytes. -/
inductive Transferred (d : Dev) (total size : Nat) (flag : UInt8) (n : Nat) :
    Framer.Rx UInt8 Boot → Prop
  | going {pkts : List Bytes} {got : Bytes} {idle : Nat} :
      (∀ pkt ∈ pkts, pkt.length = pad4 (size + 10)) → pkts.length < total →
      got.length < pad4 (size + 10) → n = pkts.length * pad4 (size + 10) + got.length →
      Transferred d total size flag n
        ⟨⟨d.acts (packetsActs size flag 0 pkts), .bitStream total size flag pkts.length⟩, got, idle⟩
  | ended {pkts : List Bytes} {tail : List Act} :
      (∀ pkt ∈ pkts, pkt.length = pad4 (size + 10)) → n / pad4 (size + 10) = pkts.length →
      (∀ a ∈ tail, ∀ buf sz k fl, a ≠ .writeToSpi buf sz k fl) →
      Transferred d total size flag n
        ⟨⟨d.acts (packetsActs size flag 0 pkts ++ tail), .request⟩, [], 0⟩

variable {d : Dev} {total size : Nat} {flag : UInt8}

theorem dirActs_no_write {as : List Act} (h : as = dirActs flag ∨
    as = .tx (errorMsg 0 1 0) :: dirActs flag) :
    ∀ a ∈ as, ∀ buf sz k fl, a ≠ .writeToSpi buf sz k fl := by
  rintro a ha buf sz k fl rfl
  rcases h with rfl | rfl <;> simp [dirActs] at ha

theorem Stands.transferred {bs : Bytes} {b : Bool} {r : Framer.Rx UInt8 Boot}
    (h : Stands d total size flag bs b r) : Transferred d total size flag bs.length r := by
  cases h with
  | going hw hlt hgot hbs =>
    exact .going hw hlt hgot (by rw [hbs, List.length_append, hw.length_flatten])
  | complete hw htotal hbs =>
    refine .ended hw ?_ (dirActs_no_write (.inl rfl))
    rw [hbs, hw.length_flatten, Nat.mul_div_cancel _ (pad4_pos size)]
  | cut hw hlt hgot hbs =>
    refine .ended hw ?_ (dirActs_no_write (.inr rfl))
    rw [hbs, List.length_append, hw.length_flatten, Nat.mul_comm, Nat.mul_add_div (pad4_pos size),
      Nat.div_eq_of_lt hgot, Nat.add_zero]

/-- What a transfer has done, given the bytes it received. -/
theorem run_transferred {tr : List (State × Poll UInt8 Env)} {s : State}
    (h : machine.Run (enter (recieveBitStream d total size flag)) tr s)
    (ht : Machine.Along (fun s _ => InTransfer s) tr) :
    Transferred d total size flag (Poll.items (Machine.events tr)).length (receiver s) := by
  obtain ⟨b, hS, -⟩ := run_stands h ht
  exact hS.transferred

/-! ## Containment -/

/-- The packets a transfer writes. -/
theorem mem_packetsActs {k : Nat} {pkts : List Bytes} {buf : Bytes} {sz j : Nat} {fl : UInt8} :
    .writeToSpi buf sz j fl ∈ packetsActs size flag k pkts ↔
      ∃ i, ∃ h : i < pkts.length, buf = slice pkts[i] 10 size ∧ sz = size ∧ j = k + i ∧ fl = flag := by
  induction pkts generalizing k with
  | nil => simp
  | cons pkt pkts ih =>
    simp only [packetsActs, List.mem_append, ih]
    constructor
    · rintro (h | ⟨i, hi, rfl, rfl, rfl, rfl⟩)
      · simp [packetActs, bitStreamPacketHeaderSize] at h
        exact ⟨0, by simp, h.1, h.2.1, h.2.2.1, h.2.2.2⟩
      · exact ⟨i + 1, by simpa using hi, by simp, rfl, by omega, rfl⟩
    · rintro ⟨i, hi, hb, rfl, rfl, rfl⟩
      cases i with
      | zero => left; simp [packetActs, bitStreamPacketHeaderSize, hb]
      | succ i => exact .inr ⟨i, by simpa using hi, by simpa using hb, rfl, by omega, rfl⟩

/-- The driver calls for one packet reach from its block to the end of its last page. -/
theorem writeToSpi_within {buf : Bytes} {k : Nat} {r : Nat × Nat} (hl : buf.length = size) :
    (∀ op ∈ writeToSpi buf size k flag, op.Within r) ↔
      r.1 ≤ blockAddress flag k ∧ blockAddress flag k + max 4096 (256 * (size / 256)) ≤ r.2 := by
  have hpage : ∀ i, i < size / 256 → (slice buf (256 * i) 256).length = 256 :=
    fun i hi => slice_length (by omega)
  simp only [writeToSpi, List.mem_cons, List.mem_map, List.mem_range, FlashOp.Within, FlashOp.range,
    forall_eq_or_imp, forall_exists_index, and_imp, forall_apply_eq_imp_iff₂]
  constructor
  · rintro ⟨⟨h₁, h₂⟩, h₃⟩
    refine ⟨h₁, ?_⟩
    by_cases h0 : size / 256 = 0
    · omega
    · have := (h₃ (size / 256 - 1) (by omega)).2
      rw [hpage _ (by omega)] at this
      omega
  · rintro ⟨h₁, h₂⟩
    refine ⟨⟨h₁, by omega⟩, fun i hi => ?_⟩
    rw [hpage i hi]
    omega

/-- The first `k` packets of a transfer fit the region the image is written to. -/
def Fits (flag : UInt8) (size k : Nat) : Prop :=
  blockAddress flag (k - 1) + max 4096 (256 * (size / 256)) ≤ (region (flag = 1)).2

theorem region_imageAddress (flag : UInt8) : (region (flag = 1)).1 = imageAddress flag := by
  unfold region imageAddress
  by_cases h : flag = 1 <;> simp [h, goldenImageAddress, iapImageAddress]

/-- The writes of a transfer, by the number of packets it received. -/
theorem writesWithin_iff {n : Nat} {r : Framer.Rx UInt8 Boot} {golden : Bool}
    (h : Transferred d total size flag n r) :
    WritesWithin golden (r.st.dev.log.drop d.log.length) ↔
      n / pad4 (size + 10) = 0 ∨ (region golden).1 ≤ imageAddress flag ∧
        blockAddress flag (n / pad4 (size + 10) - 1) + max 4096 (256 * (size / 256)) ≤
          (region golden).2 := by
  obtain ⟨pkts, tail, hlog, hlen, hk, htail⟩ : ∃ pkts tail,
      r.st.dev.log = d.log ++ (packetsActs size flag 0 pkts ++ tail) ∧
      (∀ pkt ∈ pkts, pkt.length = pad4 (size + 10)) ∧ n / pad4 (size + 10) = pkts.length ∧
      ∀ a ∈ tail, ∀ buf sz k fl, a ≠ .writeToSpi buf sz k fl := by
    cases h with
    | @going pkts got idle hl hlt hgot hn =>
      refine ⟨pkts, [], by simp, hl, ?_, by simp⟩
      rw [hn, Nat.div_eq_of_lt_le]
      · omega
      · rw [Nat.succ_mul]
        omega
    | @ended pkts tail hl hn ht => exact ⟨pkts, tail, by simp, hl, hn, ht⟩
  have hpay : ∀ i (hi : i < pkts.length), (slice pkts[i] 10 size).length = size := by
    intro i hi
    have := hlen _ (List.getElem_mem hi)
    have := le_pad4 (size + 10)
    exact slice_length (by omega)
  rw [hlog, List.drop_left, hk]
  have hiff : WritesWithin golden (packetsActs size flag 0 pkts ++ tail) ↔
      ∀ i, i < pkts.length → (region golden).1 ≤ blockAddress flag i ∧
        blockAddress flag i + max 4096 (256 * (size / 256)) ≤ (region golden).2 := by
    constructor
    · intro hw i hi
      refine (writeToSpi_within (hpay i hi)).1 (hw _ _ _ _ (List.mem_append_left _ ?_))
      exact mem_packetsActs.2 ⟨i, hi, rfl, rfl, (Nat.zero_add i).symm, rfl⟩
    · intro hw buf sz k fl hmem
      rcases List.mem_append.1 hmem with hmem | hmem
      · obtain ⟨i, hi, rfl, rfl, rfl, rfl⟩ := mem_packetsActs.1 hmem
        rw [Nat.zero_add]
        exact (writeToSpi_within (hpay i hi)).2 (hw i hi)
      · exact absurd rfl (htail _ hmem buf sz k fl)
  rw [hiff]
  constructor
  · intro hw
    by_cases h0 : pkts.length = 0
    · exact .inl h0
    · exact .inr ⟨(hw 0 (by omega)).1, (hw (pkts.length - 1) (by omega)).2⟩
  · rintro (h0 | ⟨h₁, h₂⟩) i hi
    · omega
    · unfold blockAddress at h₂ ⊢
      omega

/-- For the request loop every flag but 0 is golden, but a flag above 1 is written to the other
region. -/
theorem fits_dispatched (flag : UInt8) (size k : Nat) :
    ((region (flag ≠ 0)).1 ≤ imageAddress flag ∧
      blockAddress flag (k - 1) + max 4096 (256 * (size / 256)) ≤ (region (flag ≠ 0)).2) ↔
      (flag = 0 ∨ flag = 1) ∧ Fits flag size k := by
  by_cases h0 : flag = 0
  · simp [Fits, region, imageAddress, iapImageAddress, h0]
  · by_cases h1 : flag = 1
    · simp [Fits, region, imageAddress, goldenImageAddress, h1]
    · have hb : 0x400000 ≤ blockAddress flag (k - 1) := by
        simp [blockAddress, imageAddress, h1, iapImageAddress]
      simp only [h0, h1, or_self, false_and, iff_false, not_and, region, ne_eq, not_false_eq_true,
        decide_true, if_true]
      omega

/-- A transfer stays inside the region of the image that its command selects exactly when no whole
packet arrives, or the image flag is 0 or 1 and the last packet that arrives ends inside the region.
The request loop takes every flag but 0 for golden; the second part is for a reader who takes only
1 for golden, as `write_to_spi` does. -/
theorem flash_containment_iff {d : Dev} {env : Env} {cmd : Bytes} (hc : cmd.getD 2 0 = 0x33)
    {tr : List (State × Poll UInt8 Env)} {s : State} (h : machine.Run (enter (serve d env cmd)) tr s)
    (ht : Machine.Along (fun s _ => InTransfer s) tr) :
    let flag := cmd.getD 3 0
    let size := word16 (cmd.getD 5 0) (cmd.getD 6 0)
    let packets := (Poll.items (Machine.events tr)).length / pad4 (size + 10)
    let acts := s.dev.log.drop d.log.length
    (WritesWithin (flag ≠ 0) acts ↔ packets = 0 ∨ (flag = 0 ∨ flag = 1) ∧ Fits flag size packets) ∧
    (WritesWithin (flag = 1) acts ↔ packets = 0 ∨ Fits flag size packets) := by
  intro flag size packets acts
  rw [serve_bitStream hc] at h
  have hT := run_transferred h ht
  have hlog : acts = (receiver s).st.dev.log.drop d.log.length := by rw [receiver_dev]
  rw [hlog, writesWithin_iff hT, writesWithin_iff hT]
  refine ⟨or_congr_right (fits_dispatched _ _ _), or_congr_right ?_⟩
  rw [region_imageAddress]
  exact and_iff_right le_rfl

/-- A golden packet that arrives whole is written inside the golden region. -/
theorem flash_containment_one_packet :
    let d : Dev := ⟨.erased w25q64, {}, []⟩
    let s₀ := enter (serve d {} [0xAA, 0, 0x33, 1, 0, 1, 0, 1, 0, 0x98, 0, 0])
    WritesWithin true ((machine.exec s₀ [⟨{}, zeros 12⟩]).dev.log.drop d.log.length) := by
  intro d s₀
  have hserve : serve d {} [0xAA, 0, 0x33, 1, 0, 1, 0, 1, 0, 0x98, 0, 0] =
      ⟨d, .bitStream 1 1 1 0⟩ := by
    rw [serve_bitStream (by decide)]
    simp [word16, recieveBitStream]
  obtain ⟨hrun, halong⟩ := @allows_packets d 1 1 1 0 [⟨{}, zeros 12⟩] rfl (by simp) (by simp) (by decide)
  rw [← hserve] at hrun halong
  refine (flash_containment_iff (by decide) hrun.run halong).1.2 (.inr ⟨.inr (by decide), ?_⟩)
  simp [Fits, Machine.events_trace, word16, pad4, blockAddress, imageAddress, goldenImageAddress,
    region]

/-! ## A transfer that leaves its region -/

theorem items_replicate_length (n : Nat) (p : Poll UInt8 Env) :
    (Poll.items (List.replicate n p)).length = n * p.data.length := by
  simp [Poll.items]

/-- A golden transfer of 1024 packets erases the first block of the other image. -/
theorem golden_transfer_overruns : ¬ ∀ (d : Dev) (env : Env) (cmd : Bytes)
    (tr : List (State × Poll UInt8 Env)) (s : State), cmd.getD 2 0 = 0x33 →
    machine.Run (enter (serve d env cmd)) tr s → Machine.Along (fun s _ => InTransfer s) tr →
    WritesWithin (cmd.getD 3 0 ≠ 0) (s.dev.log.drop d.log.length) := by
  intro hall
  let d : Dev := ⟨.erased w25q64, {}, []⟩
  let cmd : Bytes := [0xAA, 0, 0x33, 1, 0, 1, 0, 0, 4, 0x9D, 0, 0]
  let polls : List (Poll UInt8 Env) := List.replicate 1024 ⟨{}, zeros 12⟩
  have hserve : serve d {} cmd = recieveBitStream d 1024 1 1 := by
    rw [serve_bitStream (by decide)]
    simp [cmd, word16]
  have hstart : recieveBitStream d 1024 1 1 = ⟨d, .bitStream 1024 1 1 0⟩ := if_pos (by decide)
  obtain ⟨hrun, halong⟩ := @allows_packets d 1024 1 1 0 polls rfl
    (fun p hp => by rw [(List.mem_replicate.1 hp).2, zeros_length])
    (by rw [List.length_replicate]) (by decide)
  rw [← hstart] at hrun halong
  have hT := run_transferred hrun.run halong
  rw [← hserve] at hrun halong
  have hw := hall d {} cmd _ _ (by decide) hrun.run halong
  rw [hserve, ← receiver_dev, writesWithin_iff hT, Machine.events_trace, items_replicate_length,
    zeros_length] at hw
  simp [cmd, region, pad4, blockAddress, imageAddress, goldenImageAddress] at hw

end QccGui.Firmware
