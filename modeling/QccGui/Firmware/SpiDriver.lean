import Mathlib.Data.Prod.Lex
import QccGui.Lib.Spi
import QccGui.Firmware.ReadBack

/-!
# The SPI driver

The block transfer of the SPI driver (`mss_spi.c`), down to the accesses of its registers, and the
flash driver over it.

* `spiTransferBlock`, `spiTransferBlock_returns`: the slave is sent the command and then zeros, and
  what it answers to these is read, whenever the frames pass.
* `spiBus`, `spiBus_serves`: the bus of the flash driver.
* `drive_refines`, `transfer_reads_back`: the flash driver over it.
-/

namespace QccGui.Firmware

open Lib Spi SerialFlash Polling

/-! ## The driver -/

def rxFifoSize : Nat := 4
def txDoneMask : UInt32 := 0x001
def rxOverflowMask : UInt32 := 0x004
def rxFifoEmptyMask : UInt32 := 0x040
def txFifoFullMask : UInt32 := 0x100

/-- The variables of the loop. `rx_idx` is the length of the read buffer. -/
structure TransferVars where
  txIdx : Nat := 0
  transferIdx : Nat := 0
  transit : Nat := 0
  rdBuffer : Bytes := []

section

variable {σ : Type} [Slave σ] (cmdBuffer : Bytes) (rdByteSize transferSize : Nat)

def sendByte (l : TransferVars) (b : UInt8) : Polling (Spi σ) TransferVars := do
  device (writeTxData b)
  return { l with txIdx := l.txIdx + 1, transit := l.transit + 1 }

/-- The next byte of the command, or a zero behind it. -/
def sendNext (l : TransferVars) : Polling (Spi σ) TransferVars :=
  if l.txIdx < cmdBuffer.length then sendByte l (cmdBuffer.getD l.txIdx 0)
  else if l.txIdx < transferSize then sendByte l 0x00
  else return l

/-- A received byte is kept if it is behind the command. -/
def keepRaw (l : TransferVars) (rxRaw : UInt8) : TransferVars :=
  { l with
    rdBuffer :=
      if cmdBuffer.length ≤ l.transferIdx ∧ l.rdBuffer.length < rdByteSize then
        l.rdBuffer ++ [rxRaw]
      else l.rdBuffer
    transferIdx := l.transferIdx + 1
    transit := l.transit - 1 }

def receiveNext (l : TransferVars) : Polling (Spi σ) TransferVars := do
  let status ← device Spi.readStatus
  if status &&& rxFifoEmptyMask = 0 then do
    let rxRaw ← device readRxData
    return keepRaw cmdBuffer rdByteSize l rxRaw
  else return l

/-- One turn of the loop. -/
def transferTurn (l : TransferVars) : Polling (Spi σ) TransferVars := do
  let l ← receiveNext cmdBuffer rdByteSize l
  let status ← device Spi.readStatus
  if status &&& txFifoFullMask = 0 ∧ l.transit < rxFifoSize then
    sendNext cmdBuffer transferSize l
  else return l

def flushRx : Polling (Spi σ) Unit :=
  pollUntil (do
    let status ← device Spi.readStatus
    if status &&& rxFifoEmptyMask = 0 then do
      let _ ← device readRxData
      return false
    else return true) id

/-- `recover_from_rx_overflow`, if there was an overflow. -/
def recoverFromRxOverflow (status : UInt32) : Polling (Spi σ) Unit :=
  if status &&& rxOverflowMask ≠ 0 then device resetBlock else pure ()

/-- What comes before the first byte: both FIFOs are flushed, an overflow is recovered from, and the
number of frames is set. -/
def prepareTransfer (frameCount : Nat) : Polling (Spi σ) Unit := do
  device resetFifos
  let status ← device Spi.readStatus
  recoverFromRxOverflow status
  device (setFrameCount frameCount)
  flushRx

/-- `MSS_SPI_transfer_block`. -/
def spiTransferBlock : Polling (Spi σ) Bytes := do
  let transferSize := (cmdBuffer.length + rdByteSize) % 2 ^ 16
  prepareTransfer (if transferSize = 0 then 1 else transferSize)
  let l ← sendNext cmdBuffer transferSize {}
  let l ← loop (transferTurn cmdBuffer rdByteSize transferSize)
    (fun l => transferSize ≤ l.transferIdx) l
  return l.rdBuffer

/-- Waiting for `MSS_SPI_tx_done`. -/
def spiTxDone : Polling (Spi σ) Unit :=
  pollUntil (device Spi.readStatus) fun status => status &&& txDoneMask != 0

end

/-! ## Before the first byte -/

section

variable {σ : Type} [Slave σ] {h h' : Spi σ}

/-- The master after `k` accesses between two blocks. -/
def prepared (h : Spi σ) (k : Nat) (overflow : Bool) (frames : Nat) : Spi σ :=
  { h with tx := [], rx := [], overflow, frames, clock := fun n => h.clock (k + n) }

theorem tick_prepared (h : Spi σ) (k : Nat) (overflow : Bool) (frames : Nat) :
    (prepared h k overflow frames).tick = prepared h (k + 1) overflow frames := by
  have hfix : ∀ n, exchange^[n] (prepared h k overflow frames) = prepared h k overflow frames :=
    fun n => Function.iterate_fixed rfl n
  rw [Spi.tick, hfix]
  simp only [prepared, Spi.mk.injEq, true_and, and_true]
  funext n
  rw [Nat.add_assoc, Nat.add_comm 1 n]

theorem readStatus_prepared (h : Spi σ) (k : Nat) (overflow : Bool) (frames : Nat) :
    Returns (device Spi.readStatus) (prepared h k overflow frames)
      (prepared h (k + 1) overflow frames).status (prepared h (k + 1) overflow frames) := by
  have hs := Returns.device Spi.readStatus (prepared h k overflow frames)
  rwa [Spi.readStatus, tick_prepared] at hs

theorem flushRx_returns (h : Spi σ) (k : Nat) (overflow : Bool) (frames : Nat) :
    Returns flushRx (prepared h k overflow frames) () (prepared h (k + 1) overflow frames) := by
  have hempty : (prepared h (k + 1) overflow frames).status &&& rxFifoEmptyMask ≠ 0 :=
    status_empty.2 rfl
  refine pollUntil_stop (a := true) ((readStatus_prepared h k overflow frames).bind ?_) rfl
  rw [if_neg hempty]
  exact .pure true _

theorem prepareTransfer_returns (hi : h.Idle) (frameCount : Nat) :
    ∃ k, Returns (prepareTransfer frameCount) h () (prepared h k false frameCount) := by
  have hreset : Returns (device resetFifos) h () (prepared h 1 h.overflow 0) := by
    have hd := Returns.device resetFifos h
    have hst : (resetFifos h).2 = prepared h 1 h.overflow 0 := by
      rw [resetFifos, hi.tick]
      simp only [prepared, hi.frames, Nat.add_comm]
    rwa [hst] at hd
  have hset (k : Nat) : Returns (do device (setFrameCount frameCount); flushRx)
      (prepared h k false 0) () (prepared h (k + 1 + 1) false frameCount) := by
    have hd := Returns.device (setFrameCount frameCount) (prepared h k false 0)
    rw [setFrameCount, tick_prepared] at hd
    exact hd.bind (flushRx_returns h (k + 1) false frameCount)
  have hrecover : ∃ k, Returns (recoverFromRxOverflow (prepared h 2 h.overflow 0).status)
      (prepared h 2 h.overflow 0) () (prepared h k false 0) := by
    cases ho : h.overflow with
    | false =>
      have hno : ¬ (prepared h 2 false 0).status &&& rxOverflowMask ≠ 0 :=
        fun hs => Bool.false_ne_true (status_overflow.1 hs)
      rw [recoverFromRxOverflow, if_neg hno]
      exact ⟨2, .pure () _⟩
    | true =>
      have hyes : (prepared h 2 true 0).status &&& rxOverflowMask ≠ 0 := status_overflow.2 rfl
      have hd := Returns.device resetBlock (prepared h 2 true 0)
      have hst : (resetBlock (prepared h 2 true 0)).2 = prepared h 3 false 0 := by
        rw [resetBlock, tick_prepared]
        simp only [prepared, hi.heard]
      rw [hst] at hd
      rw [recoverFromRxOverflow, if_pos hyes]
      exact ⟨3, hd⟩
  obtain ⟨k, hr⟩ := hrecover
  exact ⟨k + 1 + 1, hreset.bind ((readStatus_prepared h 1 h.overflow 0).bind (hr.bind (hset k)))⟩

end

/-! ## The loop -/

section

variable {σ : Type} [Slave σ] {h h' : Spi σ} {s : σ} {cmd : Bytes} {n i m j : Nat}
  {l : TransferVars}

/-- The variables of the loop when `i` bytes have been written and `j` have been read. -/
structure Tracks (s : σ) (cmd : Bytes) (n : Nat) (l : TransferVars) (i j : Nat) : Prop where
  txIdx : l.txIdx = i
  transferIdx : l.transferIdx = j
  transit : l.transit = i - j
  rdBuffer : l.rdBuffer = (List.range' cmd.length (j - cmd.length)).map fun k =>
    Slave.reply s ((cmd ++ zeros n).take k)

/-- The byte that is sent next. -/
theorem sendNext_eq (hi : l.txIdx < cmd.length + n) :
    (sendNext cmd (cmd.length + n) l : Polling (Spi σ) TransferVars) =
      sendByte l ((cmd ++ zeros n).getD l.txIdx 0) := by
  rw [sendNext]
  by_cases hc : l.txIdx < cmd.length
  · rw [if_pos hc, List.getD_append _ (zeros n) _ _ hc]
  · have hzero : (cmd ++ zeros n).getD l.txIdx 0 = 0x00 := by
      rw [List.getD_append_right _ _ _ _ (by omega), zeros, List.getD_replicate _ (by omega)]
    rw [if_neg hc, if_pos hi, hzero]

theorem sendNext_returns (ht : Tracks s cmd n l i j) (hb : Block s (cmd ++ zeros n) i m j h)
    (hi : i < cmd.length + n) (hr : i < j + fifoSize) :
    ∃ l' h', Returns (sendNext cmd (cmd.length + n) l) h l' h' ∧ Tracks s cmd n l' (i + 1) j ∧
      Block s (cmd ++ zeros n) (i + 1) (min i (m + h.clock 0)) j h' ∧
      h'.clock = fun k => h.clock (1 + k) := by
  have hlen : i < (cmd ++ zeros n).length := by
    rw [List.length_append, zeros_length]
    exact hi
  have hw := hb.writeTxData hlen hr
  have hpassed := hb.passed
  have hread := hb.read
  rw [← ht.txIdx] at hi hw
  rw [sendNext_eq hi]
  refine ⟨_, _, (Returns.device (writeTxData _) h).bind (.pure _ _), ?_, ?_, ?_⟩
  · refine ⟨congrArg (· + 1) ht.txIdx, ht.transferIdx, ?_, ht.rdBuffer⟩
    dsimp only
    rw [ht.transit]
    omega
  · rw [ht.txIdx] at hw ⊢
    exact hw
  · funext k
    rw [Nat.add_comm]
    rfl

theorem receiveNext_none (hb : Block s (cmd ++ zeros n) i m j h) (hm : min i (m + h.clock 0) = j) :
    Returns (receiveNext cmd n l) h l h.tick := by
  have ht := hb.tick
  have hempty : h.tick.status &&& rxFifoEmptyMask ≠ 0 := status_empty.2 (ht.rx_eq_nil.2 hm)
  refine (Returns.device Spi.readStatus h).bind ?_
  rw [Spi.readStatus, if_neg hempty]
  exact .pure l _

theorem Tracks.keepRaw (ht : Tracks s cmd n l i j) (hj : j < cmd.length + n) :
    Tracks s cmd n (keepRaw cmd n l (Slave.reply s ((cmd ++ zeros n).take j))) i (j + 1) := by
  refine ⟨ht.txIdx, congrArg (· + 1) ht.transferIdx, ?_, ?_⟩
  · rw [Firmware.keepRaw]
    dsimp only
    rw [ht.transit]
    omega
  · have hlen : l.rdBuffer.length = j - cmd.length := by
      rw [ht.rdBuffer, List.length_map, List.length_range']
    rw [Firmware.keepRaw]
    dsimp only
    rw [ht.transferIdx, hlen, ht.rdBuffer]
    by_cases hc : cmd.length ≤ j
    · have hsub : j + 1 - cmd.length = j - cmd.length + 1 := by omega
      have hend : cmd.length + 1 * (j - cmd.length) = j := by omega
      rw [if_pos ⟨hc, by omega⟩, hsub, List.range'_concat, List.map_append, hend]
      rfl
    · have hsub : j + 1 - cmd.length = j - cmd.length := by omega
      rw [if_neg (fun h => hc h.1), hsub]

theorem receiveNext_some (ht : Tracks s cmd n l i j) (hb : Block s (cmd ++ zeros n) i m j h)
    (hm : j < min i (m + h.clock 0)) :
    ∃ l' h' m', Returns (receiveNext cmd n l) h l' h' ∧ Tracks s cmd n l' i (j + 1) ∧
      Block s (cmd ++ zeros n) i m' (j + 1) h' ∧ m ≤ m' ∧ h'.clock = fun k => h.clock (2 + k) := by
  have htick := hb.tick
  have hsome : h.tick.status &&& rxFifoEmptyMask = 0 := by
    by_contra hne
    exact hm.ne' (htick.rx_eq_nil.1 (status_empty.1 hne))
  obtain ⟨hbyte, hblock⟩ := htick.readRxData hm
  have hr : Returns (receiveNext cmd n l) h (keepRaw cmd n l h.tick.readRxData.1)
      h.tick.readRxData.2 := by
    refine (Returns.device Spi.readStatus h).bind ?_
    rw [Spi.readStatus, if_pos hsome]
    exact (Returns.device readRxData h.tick).bind (.pure _ _)
  have hlen := hb.written
  rw [List.length_append, zeros_length] at hlen
  have hpassed := hb.passed
  rw [hbyte] at hr
  refine ⟨_, _, _, hr, ht.keepRaw (by omega), hblock, by omega, ?_⟩
  funext k
  rw [Nat.add_comm]
  rfl

/-- A turn of the loop, of `k` accesses. -/
structure Turned (s : σ) (cmd : Bytes) (n : Nat) (l : TransferVars) (h : Spi σ) (k : Nat)
    (l' : TransferVars) (h' : Spi σ) (i m j : Nat) : Prop where
  returns : Returns (transferTurn cmd n (cmd.length + n) l) h l' h'
  tracks : Tracks s cmd n l' i j
  block : Block s (cmd ++ zeros n) i m j h'
  clock : h'.clock = fun d => h.clock (k + d)

section

variable {l₁ : TransferVars} {h₁ : Spi σ} {m₁ j₁ k : Nat}

/-- In the second half of a turn another byte is sent if fewer than four are under way. -/
theorem transferTurn_sends (hr : Returns (receiveNext cmd n l) h l₁ h₁)
    (ht : Tracks s cmd n l₁ i j₁) (hb : Block s (cmd ++ zeros n) i m₁ j₁ h₁)
    (hc : h₁.clock = fun d => h.clock (k + d)) (hi : i < cmd.length + n) (hj : i < j₁ + fifoSize) :
    ∃ l' h' m', m₁ ≤ m' ∧ Turned s cmd n l h (k + 2) l' h' (i + 1) m' j₁ := by
  have htick := hb.tick
  have hnotfull : h₁.tick.status &&& txFifoFullMask = 0 := by
    by_contra hne
    have hfull := status_full.1 hne
    have hread := htick.read
    rw [htick.tx_length] at hfull
    omega
  have hpassed := hb.passed
  have hread := hb.read
  have htransit : l₁.transit < rxFifoSize := by
    rw [ht.transit, rxFifoSize]
    unfold fifoSize at hj
    omega
  obtain ⟨l', h', hs, ht', hb', hc'⟩ := sendNext_returns ht htick hi hj
  refine ⟨l', h', _, ?_, hr.bind ((Returns.device Spi.readStatus h₁).bind ?_), ht', hb', ?_⟩
  · omega
  · rw [Spi.readStatus, if_pos ⟨hnotfull, htransit⟩]
    exact hs
  · rw [hc']
    funext d
    change h₁.clock (1 + d + 1) = _
    rw [hc]
    dsimp only
    congr 1
    omega

theorem transferTurn_waits (hr : Returns (receiveNext cmd n l) h l₁ h₁)
    (ht : Tracks s cmd n l₁ i j₁) (hb : Block s (cmd ++ zeros n) i m₁ j₁ h₁)
    (hc : h₁.clock = fun d => h.clock (k + d)) (hno : ¬ (i < cmd.length + n ∧ i < j₁ + fifoSize)) :
    Turned s cmd n l h (k + 1) l₁ h₁.tick i (min i (m₁ + h.clock k)) j₁ := by
  have htick := hb.tick
  have hstop : sendNext cmd (cmd.length + n) l₁ = (pure l₁ : Polling (Spi σ) TransferVars) ∨
      ¬ l₁.transit < rxFifoSize := by
    by_cases hi : i < cmd.length + n
    · have hfour : ¬ i < j₁ + fifoSize := fun h => hno ⟨hi, h⟩
      refine .inr ?_
      rw [ht.transit, rxFifoSize]
      unfold fifoSize at hfour
      omega
    · rw [← ht.txIdx] at hi
      rw [sendNext, if_neg (by omega), if_neg hi]
      exact .inl rfl
  refine ⟨hr.bind ((Returns.device Spi.readStatus h₁).bind ?_), ht, ?_, ?_⟩
  · split
    · rename_i hgo
      rw [hstop.resolve_right (fun h => h hgo.2)]
      exact .pure l₁ _
    · exact .pure l₁ _
  · rw [hc] at htick
    exact htick
  · funext d
    change h₁.clock (d + 1) = _
    rw [hc]
    dsimp only
    congr 1
    omega

end

/-- Each turn makes progress, unless no frame passes during it. -/
theorem transferTurn_progress (ht : Tracks s cmd n l i j) (hb : Block s (cmd ++ zeros n) i m j h)
    (hj : j < cmd.length + n) :
    ∃ k l' h' i' m' j', Turned s cmd n l h k l' h' i' m' j' ∧
      (i + m + j < i' + m' + j' ∨
        i' + m' + j' = i + m + j ∧ k = 2 ∧ h.clock 0 = 0 ∧ h.clock 1 = 0) := by
  have hjm := hb.read
  have hmi := hb.passed
  by_cases hm : j < min i (m + h.clock 0)
  · obtain ⟨l₁, h₁, m₁, hr, ht₁, hb₁, hle, hc⟩ := receiveNext_some ht hb hm
    by_cases hs : i < cmd.length + n ∧ i < j + 1 + fifoSize
    · obtain ⟨l', h', m', hle', hturn⟩ := transferTurn_sends hr ht₁ hb₁ hc hs.1 hs.2
      exact ⟨_, l', h', _, m', _, hturn, .inl (by omega)⟩
    · have hmi₁ := hb₁.passed
      exact ⟨_, _, _, _, _, _, transferTurn_waits hr ht₁ hb₁ hc hs, .inl (by omega)⟩
  · have hr : Returns (receiveNext cmd n l) h l h.tick := receiveNext_none hb (by omega)
    have hc : h.tick.clock = fun d => h.clock (1 + d) := by
      funext d
      rw [Nat.add_comm]
      rfl
    by_cases hs : i < cmd.length + n ∧ i < j + fifoSize
    · obtain ⟨l', h', m', hle', hturn⟩ := transferTurn_sends hr ht hb.tick hc hs.1 hs.2
      exact ⟨_, l', h', _, m', _, hturn, .inl (by omega)⟩
    · refine ⟨_, _, _, _, _, _, transferTurn_waits hr ht hb.tick hc hs, ?_⟩
      -- a byte is under way, since otherwise one would have been sent
      have hway : m < i := by
        by_contra hno
        refine hs ⟨by omega, ?_⟩
        unfold fifoSize
        omega
      omega

/-- The index of the loop's invariant: how much there is still to be done, and how many accesses it
takes at most until a frame can pass. -/
def Going (s : σ) (cmd : Bytes) (n : Nat) (x : Nat ×ₗ Nat) (l : TransferVars) (h : Spi σ) : Prop :=
  ∃ i m j, Tracks s cmd n l i j ∧ Block s (cmd ++ zeros n) i m j h ∧ h.Runs ∧
    (ofLex x).1 = 3 * (cmd.length + n) - (i + m + j) ∧ 0 < h.clock (ofLex x).2

theorem transferTurn_going {x : Nat ×ₗ Nat} (hg : Going s cmd n x l h)
    (hs : decide (cmd.length + n ≤ l.transferIdx) = false) :
    ∃ y l' h', y < x ∧ Returns (transferTurn cmd n (cmd.length + n) l) h l' h' ∧
      Going s cmd n y l' h' := by
  obtain ⟨i, m, j, ht, hb, hruns, hx, hpos⟩ := hg
  have hj : j < cmd.length + n := by
    rw [ht.transferIdx, decide_eq_false_iff_not] at hs
    omega
  obtain ⟨k, l', h', i', m', j', hturn, hprog⟩ := transferTurn_progress ht hb hj
  have hruns' := hruns.later hturn.clock
  have hi' := hturn.block.written
  have hm' := hturn.block.passed
  have hj' := hturn.block.read
  rw [List.length_append, zeros_length] at hi'
  rcases hprog with hlt | ⟨heq, rfl, h₀, h₁⟩
  · obtain ⟨d, -, hd⟩ := hruns' 0
    refine ⟨toLex (3 * (cmd.length + n) - (i' + m' + j'), d), l', h', ?_, hturn.returns,
      i', m', j', hturn.tracks, hturn.block, hruns', rfl, hd⟩
    rw [Prod.Lex.lt_iff]
    refine .inl ?_
    change 3 * (cmd.length + n) - (i' + m' + j') < (ofLex x).1
    omega
  · have hd : 2 ≤ (ofLex x).2 := by
      rcases hv : (ofLex x).2 with _ | _ | d
      · rw [hv, h₀] at hpos
        omega
      · rw [hv, h₁] at hpos
        omega
      · omega
    refine ⟨toLex ((ofLex x).1, (ofLex x).2 - 2), l', h', ?_, hturn.returns,
      i', m', j', hturn.tracks, hturn.block, hruns', ?_, ?_⟩
    · rw [Prod.Lex.lt_iff]
      refine .inr ⟨rfl, ?_⟩
      change (ofLex x).2 - 2 < (ofLex x).2
      omega
    · rw [heq]
      exact hx
    · rw [hturn.clock]
      change 0 < h.clock (2 + ((ofLex x).2 - 2))
      rwa [Nat.add_sub_cancel' hd]

/-- The slave is sent the command and then zeros, and what it answers to the zeros is read, whenever
the frames pass; no frame is lost. -/
theorem spiTransferBlock_returns (hi : h.Idle) (hr : h.Runs) (hc : cmd ≠ [])
    (hl : cmd.length + n < 2 ^ 16) :
    ∃ h', Returns (spiTransferBlock cmd n) h (Slave.replies h.slave cmd n) h' ∧
      h'.slave = Slave.deselect h.slave (cmd ++ zeros n) ∧ h'.Idle ∧ h'.Runs ∧ h'.overflow = false := by
  have hpos := List.length_pos_iff.2 hc
  have hsize : (cmd.length + n) % 2 ^ 16 = cmd.length + n := Nat.mod_eq_of_lt hl
  have hne : ¬ cmd.length + n = 0 := by omega
  have hall : (cmd ++ zeros n).length = cmd.length + n := by rw [List.length_append, zeros_length]
  obtain ⟨k, hp⟩ := prepareTransfer_returns hi (cmd.length + n)
  have hbegin : Block h.slave (cmd ++ zeros n) 0 0 0 (prepared h k false (cmd.length + n)) := by
    have hidle : (prepared h k false 0).Idle := ⟨rfl, hi.heard⟩
    rw [← hall]
    exact hidle.begin (by simp [hc]) rfl rfl rfl
  have hzero : Tracks h.slave cmd n {} 0 0 := ⟨rfl, rfl, rfl, by simp⟩
  obtain ⟨l₁, h₁, hs, ht₁, hb₁, hc₁⟩ := sendNext_returns hzero hbegin (by omega) (by decide)
  have hr₀ : (prepared h k false (cmd.length + n)).Runs := hr.later rfl
  have hr₁ : h₁.Runs := hr₀.later hc₁
  obtain ⟨d, -, hd⟩ := hr₁ 0
  have hgo : Going h.slave cmd n (toLex (3 * (cmd.length + n) - (0 + 1 + _ + 0), d)) l₁ h₁ :=
    ⟨_, _, _, ht₁, hb₁, hr₁, rfl, hd⟩
  obtain ⟨x, l', h', hloop, ⟨i, m, j, ht, hb, hr', -, -⟩, hstop⟩ :=
    loop_returns (I := Going h.slave cmd n) (fun _ _ _ hg hs => transferTurn_going hg hs) hgo
  have hj : j = (cmd ++ zeros n).length := by
    rw [ht.transferIdx, decide_eq_true_iff] at hstop
    have hi' := hb.written
    have hm' := hb.passed
    have hj' := hb.read
    omega
  rw [hj] at hb
  obtain ⟨hidle, hslave, ho⟩ := hb.finish
  have hbuf : l'.rdBuffer = Slave.replies h.slave cmd n := by
    rw [ht.rdBuffer, hj, hall, Nat.add_sub_cancel_left]
    rfl
  refine ⟨h', ?_, hslave, hidle, hr', ho⟩
  rw [spiTransferBlock, hsize, if_neg hne, ← hbuf]
  exact hp.bind (hs.bind (hloop.bind (.pure _ h')))

end

/-! ## The bus of the flash chip -/

/-- The SPI master as the flash driver uses it. -/
def spiBus : FlashBus (Spi Chip) where
  transferBlock := spiTransferBlock
  txDone := spiTxDone
  chip := Spi.slave

/-- Between two blocks, with frames that go on passing. -/
def Ready (h : Spi Chip) : Prop := h.Idle ∧ h.Runs

/-- In the states `I` the driver gets of a bus what it would get of the chip itself. -/
structure FlashBus.Serves {σ : Type} (bus : FlashBus σ) (I : σ → Prop) : Prop where
  transferBlock : ∀ cmd n, cmd ≠ [] → cmd.length + n < 2 ^ 16 → WholeCommand cmd n →
    Implements I bus.chip (bus.transferBlock cmd n) (chipBus.transferBlock cmd n)
  txDone : Implements I bus.chip bus.txDone chipBus.txDone

theorem spiTxDone_returns {h : Spi Chip} (hr : Ready h) :
    ∃ h', Returns spiTxDone h () h' ∧ h'.slave = h.slave ∧ Ready h' := by
  have hd := Returns.device Spi.readStatus h
  have hdone : (h.readStatus.1 &&& txDoneMask != 0) = true := by
    rw [bne_iff_ne]
    refine status_done.2 ?_
    rw [hr.1.tick]
    exact hr.1.frames
  refine ⟨_, pollUntil_stop hd hdone, ?_, ?_, ?_⟩
  · rw [Spi.readStatus, hr.1.tick]
  · rw [Spi.readStatus, hr.1.tick]
    exact ⟨hr.1.frames, hr.1.heard⟩
  · refine hr.2.later (k := 1) ?_
    funext n
    rw [Nat.add_comm]
    rfl

theorem spiBus_serves : spiBus.Serves Ready where
  transferBlock cmd n hc hl hw := by
    intro h hr
    have hret : Returns (chipBus.transferBlock cmd n) h.slave _ _ :=
      Returns.device (transferBlock cmd n) h.slave
    rw [transferBlock_eq hc hl] at hret
    refine ⟨fun a c' hr' => ?_, fun hh => absurd hret hh.not_returns⟩
    obtain ⟨rfl, rfl⟩ := hret.unique hr'
    obtain ⟨h', hspi, hs, hi, hruns, -⟩ := spiTransferBlock_returns hr.1 hr.2 hc hl
    rw [replies_chip hw] at hspi
    rw [deselect_chip hw] at hs
    exact ⟨h', hspi, hs, hi, hruns⟩
  txDone := by
    intro h hr
    refine ⟨fun a c' hr' => ?_, fun hh => absurd (Returns.pure () _) hh.not_returns⟩
    obtain ⟨rfl, rfl⟩ := (Returns.pure () h.slave).unique hr'
    obtain ⟨h', hspi, hs, hr'⟩ := spiTxDone_returns hr
    exact ⟨h', hspi, hs, hr'⟩

/-! ## The flash driver over a bus -/

section

variable {σ : Type} {bus : FlashBus σ} {I : σ → Prop}

theorem sendBlock_implements (hb : bus.Serves I) (cmd : Bytes) (hc : cmd ≠ [])
    (hl : cmd.length < 2 ^ 16) :
    Implements I bus.chip (sendBlock bus cmd) (sendBlock chipBus cmd) :=
  (hb.transferBlock cmd 0 hc hl (.inl rfl)).bind fun _ => .pure ()

theorem pollStatus_implements (hb : bus.Serves I) :
    Implements I bus.chip (pollStatus bus) (pollStatus chipBus) :=
  hb.transferBlock _ 1 (by simp) (by simp) (.inr (.inl rfl))

theorem waitReady_implements (hb : bus.Serves I) :
    Implements I bus.chip (waitReady bus) (waitReady chipBus) :=
  (pollStatus_implements hb).pollUntil _

theorem waitReadyFlag_implements (hb : bus.Serves I) :
    Implements I bus.chip (waitReadyFlag bus) (waitReadyFlag chipBus) :=
  (pollStatus_implements hb).pollUntil _

theorem flashReadDeviceId_implements (hb : bus.Serves I) :
    Implements I bus.chip (flashReadDeviceId bus) (flashReadDeviceId chipBus) :=
  (hb.transferBlock _ 14 (by simp) (by simp) (.inr (.inr (.inl rfl)))).bind fun _ => .pure _

theorem flashRead_implements (hb : bus.Serves I) (address : Nat) {n : Nat} (hn : n + 4 < 2 ^ 16) :
    Implements I bus.chip (flashRead bus address n) (flashRead chipBus address n) := by
  have hread := hb.transferBlock (readArrayOpcode :: addressBytes address) n (by simp)
    (by simp [addressBytes]; omega) (.inr (.inr (.inr ⟨_, _, _, rfl⟩)))
  exact (waitReady_implements hb).bind fun _ => hread.bind fun _ =>
    (waitReady_implements hb).bind fun _ => .pure _

theorem writeEnable_implements (hb : bus.Serves I) :
    Implements I bus.chip (sendBlock bus [writeEnableCmd]) (sendBlock chipBus [writeEnableCmd]) :=
  sendBlock_implements hb _ (by simp) (by simp)

theorem flashErase4kBlock_implements (hb : bus.Serves I) (address : Nat) :
    Implements I bus.chip (flashErase4kBlock bus address) (flashErase4kBlock chipBus address) := by
  have herase := sendBlock_implements hb (erase4kBlockOpcode :: addressBytes address) (by simp)
    (by simp [addressBytes])
  exact (waitReady_implements hb).bind fun _ => (writeEnable_implements hb).bind fun _ =>
    (waitReadyFlag_implements hb).bind fun _ => (waitReady_implements hb).bind fun _ =>
    herase.bind fun _ => waitReady_implements hb

theorem programPages_implements (hb : bus.Serves I) (targetAddr : Nat) (buf : Bytes) :
    Implements I bus.chip (programPages bus targetAddr buf)
      (programPages chipBus targetAddr buf) := by
  induction targetAddr, buf using flashPages.induct with
  | case1 targetAddr =>
    rw [programPages, programPages, dif_pos rfl, dif_pos rfl]
    exact .pure ()
  | case2 targetAddr buf hbuf n ih =>
    rw [programPages, programPages, dif_neg hbuf, dif_neg hbuf]
    have hpage : Implements I bus.chip
        (writeCmdData bus (programPageCmd :: addressBytes targetAddr) (buf.take n))
        (writeCmdData chipBus (programPageCmd :: addressBytes targetAddr) (buf.take n)) := by
      refine (sendBlock_implements hb _ (by simp) ?_).bind fun _ => hb.txDone
      simp only [List.length_append, List.length_cons, addressBytes, List.length_nil, List.length_take]
      omega
    exact (waitReady_implements hb).bind fun _ => (writeEnable_implements hb).bind fun _ =>
      (waitReady_implements hb).bind fun _ => hpage.bind fun _ => ih

theorem flashProgram_implements (hb : bus.Serves I) (address : Nat) (buf : Bytes) :
    Implements I bus.chip (flashProgram bus address buf) (flashProgram chipBus address buf) := by
  have hdisable := sendBlock_implements hb [writeDisableCmd] (by simp) (by simp)
  exact (waitReady_implements hb).bind fun _ => (writeEnable_implements hb).bind fun _ =>
    (waitReady_implements hb).bind fun _ => (writeEnable_implements hb).bind fun _ =>
    (programPages_implements hb address buf).bind fun _ =>
    (waitReadyFlag_implements hb).bind fun _ => (waitReady_implements hb).bind fun _ => hdisable

theorem drive_implements (hb : bus.Serves I) (ops : List FlashOp) :
    Implements I bus.chip (drive bus ops) (drive chipBus ops) := by
  induction ops with
  | nil => exact .pure ()
  | cons op ops ih =>
    have hop : Implements I bus.chip (op.drive bus) (op.drive chipBus) := by
      cases op with
      | eraseBlock address => exact flashErase4kBlock_implements hb address
      | program address buf => exact flashProgram_implements hb address buf
    exact hop.bind fun _ => ih

theorem updateSpiDirDriver_implements (hb : bus.Serves I) :
    Implements I bus.chip (updateSpiDirDriver bus) (updateSpiDirDriver chipBus) := by
  have hread := flashRead_implements hb spiDirAddress (n := 6) (by decide)
  exact (flashReadDeviceId_implements hb).bind fun _ => (drive_implements hb updateSpiDir).bind
    fun _ => hread.bind fun _ => hread.bind fun _ => .pure _

end

/-! ## The registers of the SPI bus -/

/-- A master that has just been reset, with a frame before each access. -/
def resetSpi (c : Chip) : Spi Chip where
  slave := c
  clock _ := 1

theorem ready_resetSpi (c : Chip) : Ready (resetSpi c) :=
  ⟨⟨rfl, rfl⟩, fun k => ⟨k, Nat.le_refl k, Nat.one_pos⟩⟩

variable {h : Spi Chip}

/-- Down to the registers of the SPI bus, and whenever its frames pass, the driver carries out its
calls on an idle chip, whatever time each erase and each page write takes, and none of its commands
is ignored. It waits for ever if and only if the last page write of some call ends before the status
is polled again, since `FLASH_program` then waits for a flag that the chip has cleared. -/
theorem drive_refines (hr : Ready h) (hi : h.slave.running = none) (ops : List FlashOp) :
    (AllOutlast h.slave.delays ops → ∃ h', Returns (drive spiBus ops) h () h' ∧ Ready h' ∧
      h'.slave.mem = runOps h.slave.mem ops ∧ h'.slave.running = none ∧
      h'.slave.ignored = h.slave.ignored) ∧
    (¬ AllOutlast h.slave.delays ops → Hangs (drive spiBus ops) h) := by
  obtain ⟨hret, hhang⟩ := drive_implements spiBus_serves ops h hr
  refine ⟨fun ho => ?_, fun ho => hhang (drive_hangs hi ho)⟩
  obtain ⟨c', hc, hs⟩ := drive_returns hi ho
  obtain ⟨h', hspi, rfl, hr'⟩ := hret () c' hc
  exact ⟨h', hspi, hr', hs.mem, hs.running, hs.ignored⟩

theorem drive_refines_directory : ∃ h', Returns (drive spiBus updateSpiDir)
      (resetSpi (erasedChip fun _ => 3)) () h' ∧ Ready h' ∧
    h'.slave.mem = runOps (.erased w25q64) updateSpiDir ∧ h'.slave.running = none ∧
    h'.slave.ignored = 0 :=
  (drive_refines (ready_resetSpi (erasedChip fun _ => 3)) rfl updateSpiDir).1
    (allOutlast_of_pos (fun _ => Nat.succ_pos 2) _)

/-- Every part of an image that one `FLASH_read` can ask for is read back as it was sent, once the
driver has carried out the writes of a transfer of whole blocks that lie in the chip and, for a
flagged image, those of the directory. -/
theorem transfer_reads_back (hr : Ready h) (hi : h.slave.running = none) {flag : UInt8}
    {pkts : List Bytes} (hp : ∀ pkt ∈ pkts, 10 + 4096 ≤ pkt.length)
    (hk : blockAddress flag pkts.length ≤ h.slave.mem.size.bytes)
    (ht : AllOutlast h.slave.delays
      ((packetsActs 4096 flag 0 pkts ++ dirActs flag).flatMap Act.flashOps))
    {o n : Nat} (ho : o + n ≤ 4096 * pkts.length) (hn : n + 4 < 2 ^ 16) :
    ∃ h', Returns (do
      drive spiBus ((packetsActs 4096 flag 0 pkts ++ dirActs flag).flatMap Act.flashOps)
      flashRead spiBus (imageAddress flag + o) n) h (slice (pkts.flatMap (slice · 10 4096)) o n)
        h' := by
  obtain ⟨c', hc⟩ := chip_reads_back hi hp hk ht ho hn
  have himpl := (drive_implements spiBus_serves
    ((packetsActs 4096 flag 0 pkts ++ dirActs flag).flatMap Act.flashOps)).bind
      fun _ => flashRead_implements spiBus_serves (imageAddress flag + o) hn
  obtain ⟨h', hspi, -, -⟩ := (himpl h hr).1 _ c' hc
  exact ⟨h', hspi⟩

/-- A golden image of one block, of which the middle is read. -/
theorem transfer_reads_back_golden : ∃ h', Returns (do
      drive spiBus ((packetsActs 4096 1 0 [zeros 4108] ++ dirActs 1).flatMap Act.flashOps)
      flashRead spiBus (imageAddress 1 + 1000) 256) (resetSpi (erasedChip fun _ => 3))
        (slice ([zeros 4108].flatMap (slice · 10 4096)) 1000 256) h' :=
  transfer_reads_back (ready_resetSpi (erasedChip fun _ => 3)) rfl (by simp) (by decide)
    (allOutlast_of_pos (fun _ => Nat.succ_pos 2) _) (by decide) (by decide)

end QccGui.Firmware
