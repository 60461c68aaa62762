import Mathlib.Logic.Function.Iterate
import QccGui.Lib.Polling
import QccGui.Lib.Bytes

/-!
# SPI masters

A bus master with a transmit and a receive FIFO, and one slave. Frames of one byte pass between any
two accesses of the master's registers, as long as there is something to send and the block that the
master was told of is not complete. The slave is deselected with the last frame of a block.

* `Slave`: what a slave answers, and what a selection does to it.
* `Spi`, `exchange`, `tick`: the master; one frame; what passes before an access.
* `readStatus`, `readRxData`, `writeTxData`, `resetFifos`, `resetBlock`, `setFrameCount`: the
  accesses.
* `Block`: a master in the middle of a block, with what has been written, has passed and was read.
-/

namespace Lib

/-- A device that is selected for a block of bytes and sends a byte for each byte it is sent. -/
class Slave (σ : Type) where
  /-- The byte it sends next, once it has been sent some bytes in this block. -/
  reply : σ → Bytes → UInt8
  /-- The device after a block. -/
  deselect : σ → Bytes → σ

/-- What a slave answers to the zeros behind a command. -/
def Slave.replies {σ : Type} [Slave σ] (s : σ) (cmd : Bytes) (n : Nat) : Bytes :=
  (List.range' cmd.length n).map fun k => Slave.reply s ((cmd ++ zeros n).take k)

structure Spi (σ : Type) where
  slave : σ
  /-- The transmit FIFO. -/
  tx : Bytes := []
  /-- The receive FIFO. -/
  rx : Bytes := []
  /-- A frame was lost since the receive FIFO was full. -/
  overflow : Bool := false
  /-- How many frames of the block are still to pass. -/
  frames : Nat := 0
  /-- What the slave has been sent in this block. -/
  heard : Bytes := []
  /-- How many frames can pass before each of the coming accesses. -/
  clock : Nat → Nat
  /-- The other bits of the status register. -/
  otherBits : UInt32 := 0

namespace Spi

variable {σ : Type}

def fifoSize : Nat := 4

/-- The status: bit 0 is set once the block is complete, bit 2 after an overflow, bit 6 while there
is nothing to read, bit 8 while nothing more can be written. -/
def status (h : Spi σ) : UInt32 :=
  (h.otherBits &&& 0xFFFFFEBA) ||| (if h.frames = 0 then 0x001 else 0) |||
    (if h.overflow then 0x004 else 0) ||| (if h.rx = [] then 0x040 else 0) |||
    (if fifoSize ≤ h.tx.length then 0x100 else 0)

section

variable [Slave σ]

/-- One frame, if there is one to pass. -/
def exchange (h : Spi σ) : Spi σ :=
  match h.tx, h.frames with
  | b :: tx, n + 1 =>
    { h with
      tx
      rx := if h.rx.length < fifoSize then h.rx ++ [Slave.reply h.slave h.heard] else h.rx
      overflow := h.overflow || !(h.rx.length < fifoSize)
      frames := n
      heard := if n = 0 then [] else h.heard ++ [b]
      slave := if n = 0 then Slave.deselect h.slave (h.heard ++ [b]) else h.slave }
  | _, _ => h

/-- What passes before an access. -/
def tick (h : Spi σ) : Spi σ :=
  { exchange^[h.clock 0] h with clock := fun n => h.clock (n + 1) }

def readStatus (h : Spi σ) : UInt32 × Spi σ := (h.tick.status, h.tick)

/-- Reading takes the oldest byte. -/
def readRxData (h : Spi σ) : UInt8 × Spi σ :=
  (h.tick.rx.headD 0, { h.tick with rx := h.tick.rx.tail })

/-- A byte that is written to a full FIFO is lost. -/
def writeTxData (b : UInt8) (h : Spi σ) : Unit × Spi σ :=
  ((), { h.tick with tx := if h.tick.tx.length < fifoSize then h.tick.tx ++ [b] else h.tick.tx })

def resetFifos (h : Spi σ) : Unit × Spi σ := ((), { h.tick with tx := [], rx := [] })

/-- A reset of the whole master. -/
def resetBlock (h : Spi σ) : Unit × Spi σ :=
  ((), { h.tick with tx := [], rx := [], overflow := false, frames := 0, heard := [] })

/-- The master is told of a block of `n` frames. -/
def setFrameCount (n : Nat) (h : Spi σ) : Unit × Spi σ := ((), { h.tick with frames := n })

end

/-! ## The status register -/

variable {h : Spi σ}

theorem or_and_distrib₃₂ (x y z : UInt32) : (x ||| y) &&& z = (x &&& z) ||| (y &&& z) := by
  rw [← UInt32.toBitVec_inj]
  simp [BitVec.and_or_distrib_right]

/-- What a mask of the four bits reads. -/
theorem status_and {mask : UInt32} (hm : 0xFFFFFEBA &&& mask = 0) :
    h.status &&& mask =
      ((if h.frames = 0 then 0x001 else 0) &&& mask) ||| ((if h.overflow then 0x004 else 0) &&& mask) |||
        ((if h.rx = [] then 0x040 else 0) &&& mask) |||
        ((if fifoSize ≤ h.tx.length then 0x100 else 0) &&& mask) := by
  rw [status, or_and_distrib₃₂, or_and_distrib₃₂, or_and_distrib₃₂, or_and_distrib₃₂,
    UInt32.and_assoc, hm, UInt32.and_zero, UInt32.zero_or]

/-- What each of the four bits says. -/
theorem status_bits :
    (h.status &&& 0x001 ≠ 0 ↔ h.frames = 0) ∧ (h.status &&& 0x004 ≠ 0 ↔ h.overflow = true) ∧
      (h.status &&& 0x040 ≠ 0 ↔ h.rx = []) ∧ (h.status &&& 0x100 ≠ 0 ↔ fifoSize ≤ h.tx.length) := by
  refine ⟨?_, ?_, ?_, ?_⟩
  all_goals
    rw [status_and (by decide)]
    by_cases h₁ : h.frames = 0 <;> by_cases h₂ : h.overflow <;> by_cases h₃ : h.rx = [] <;>
      by_cases h₄ : fifoSize ≤ h.tx.length <;> simp [h₁, h₂, h₃, h₄] <;> decide

theorem status_done : h.status &&& 0x001 ≠ 0 ↔ h.frames = 0 := status_bits.1

theorem status_overflow : h.status &&& 0x004 ≠ 0 ↔ h.overflow = true := status_bits.2.1

theorem status_empty : h.status &&& 0x040 ≠ 0 ↔ h.rx = [] := status_bits.2.2.1

theorem status_full : h.status &&& 0x100 ≠ 0 ↔ fifoSize ≤ h.tx.length := status_bits.2.2.2

/-! ## Between two blocks -/

/-- No block is going on. -/
structure Idle (h : Spi σ) : Prop where
  frames : h.frames = 0
  heard : h.heard = []

/-- Frames go on passing. -/
def Runs (h : Spi σ) : Prop := ∀ k, ∃ j, k ≤ j ∧ 0 < h.clock j

theorem Runs.later {h h' : Spi σ} {k : Nat} (hr : h.Runs) (hc : h'.clock = fun n => h.clock (k + n)) :
    h'.Runs := by
  intro n
  obtain ⟨j, hj, hpos⟩ := hr (k + n)
  refine ⟨j - k, by omega, ?_⟩
  rw [hc]
  dsimp only
  rwa [Nat.add_sub_cancel' (by omega)]

section

variable [Slave σ]

theorem exchange_of_idle (hi : h.frames = 0) : h.exchange = h := by
  rw [exchange]
  split
  · omega
  · rfl

theorem Idle.tick (hi : h.Idle) : h.tick = { h with clock := fun n => h.clock (n + 1) } := by
  have hfix : ∀ n, exchange^[n] h = h := fun n => Function.iterate_fixed (exchange_of_idle hi.frames) n
  rw [Spi.tick, hfix]

/-! ## Within a block -/

/-- A block of the bytes `all` is going on, since the slave was in the state `s`: `i` of its bytes
have been written to the FIFO, `m` have passed, and `j` of the answers have been read. -/
structure Block (s : σ) (all : Bytes) (i m j : Nat) (h : Spi σ) : Prop where
  written : i ≤ all.length
  passed : m ≤ i
  read : j ≤ m
  room : i ≤ j + fifoSize
  tx : h.tx = slice all m (i - m)
  rx : h.rx = (List.range' j (m - j)).map fun k => Slave.reply s (all.take k)
  overflow : h.overflow = false
  frames : h.frames = all.length - m
  heard : h.heard = if m = all.length then [] else all.take m
  slave : h.slave = if m = all.length then Slave.deselect s all else s

variable {s : σ} {all : Bytes} {i m j : Nat}

theorem Block.exchange (hb : Block s all i m j h) (hm : m < i) :
    Block s all i (m + 1) j h.exchange := by
  obtain ⟨hi, -, hj, hroom, htx, hrx, ho, hf, hh, hs⟩ := hb
  have hlt : m < all.length := by omega
  have hcons : h.tx = all[m] :: slice all (m + 1) (i - (m + 1)) := by
    have hsub : i - m = (i - (m + 1)) + 1 := by omega
    rw [htx, slice, slice, List.drop_eq_getElem_cons (by omega), hsub, List.take_succ_cons]
  have hframes : h.frames = all.length - (m + 1) + 1 := by omega
  rw [if_neg (by omega)] at hh hs
  have hlen : h.rx.length < fifoSize := by
    rw [hrx, List.length_map, List.length_range']
    omega
  rw [Spi.exchange]
  simp only [hcons, hframes]
  refine ⟨hi, hm, by omega, hroom, rfl, ?_, ?_, rfl, ?_, ?_⟩
  · rw [if_pos hlen]
    dsimp only
    have hsub : m + 1 - j = (m - j) + 1 := by omega
    have hend : j + 1 * (m - j) = m := by omega
    rw [hsub, List.range'_concat, List.map_append, ← hrx, hs, hh, hend]
    rfl
  · simp [ho, hlen]
  · rw [← List.take_append_getElem (by omega), ← hh]
    by_cases hlast : m + 1 = all.length
    · rw [if_pos hlast]
      exact if_pos (by omega)
    · rw [if_neg hlast]
      exact if_neg (by omega)
  · dsimp only
    rw [hs, hh, List.take_append_getElem]
    by_cases hlast : m + 1 = all.length
    · rw [if_pos (by omega), if_pos hlast, hlast, List.take_length]
    · rw [if_neg (by omega), if_neg hlast]

theorem Block.exchange_of_all (hb : Block s all i i j h) : h.exchange = h := by
  have htx : h.tx = [] := by
    rw [hb.tx, Nat.sub_self, slice, List.take_zero]
  rw [Spi.exchange]
  split
  · rename_i hcons _
    rw [htx] at hcons
    cases hcons
  · rfl

theorem Block.exchanges (hb : Block s all i m j h) (n : Nat) :
    Block s all i (min i (m + n)) j (Spi.exchange^[n] h) := by
  induction n with
  | zero =>
    rw [Nat.add_zero, Nat.min_eq_right hb.passed]
    exact hb
  | succ n ih =>
    rw [Function.iterate_succ_apply']
    by_cases hm : m + n < i
    · rw [Nat.min_eq_right (by omega)] at ih ⊢
      exact ih.exchange hm
    · rw [Nat.min_eq_left (by omega)] at ih ⊢
      rwa [ih.exchange_of_all]

theorem Block.tick (hb : Block s all i m j h) :
    Block s all i (min i (m + h.clock 0)) j h.tick := by
  obtain ⟨h₁, h₂, h₃, h₄, h₅, h₆, h₇, h₈, h₉, h₁₀⟩ := hb.exchanges (h.clock 0)
  exact ⟨h₁, h₂, h₃, h₄, h₅, h₆, h₇, h₈, h₉, h₁₀⟩

theorem Block.rx_eq_nil (hb : Block s all i m j h) : h.rx = [] ↔ m = j := by
  have hj := hb.read
  rw [hb.rx, List.map_eq_nil_iff, List.range'_eq_nil_iff]
  omega

theorem Block.tx_length (hb : Block s all i m j h) : h.tx.length = i - m := by
  have hi := hb.written
  have hm := hb.passed
  rw [hb.tx, slice_length (by omega)]

/-- Reading an answer that has come. -/
theorem Block.readRxData (hb : Block s all i m j h) (hj : j < m) :
    h.readRxData.1 = Slave.reply s (all.take j) ∧
      Block s all i (min i (m + h.clock 0)) (j + 1) h.readRxData.2 := by
  have ht := hb.tick
  generalize hm' : min i (m + h.clock 0) = m' at ht
  have hlt : j < m' := by
    have := hb.passed
    omega
  obtain ⟨h₁, h₂, h₃, h₄, h₅, h₆, h₇, h₈, h₉, h₁₀⟩ := ht
  have hsub : m' - j = (m' - (j + 1)) + 1 := by omega
  rw [hsub, List.range'_succ, List.map_cons] at h₆
  refine ⟨?_, h₁, h₂, hlt, by omega, h₅, ?_, h₇, h₈, h₉, h₁₀⟩
  · rw [Spi.readRxData, h₆]
    rfl
  · rw [Spi.readRxData, h₆]
    rfl

/-- Writing the next byte, while there is room in both FIFOs. -/
theorem Block.writeTxData (hb : Block s all i m j h) (hi : i < all.length) (hr : i < j + fifoSize) :
    Block s all (i + 1) (min i (m + h.clock 0)) j (h.writeTxData (all.getD i 0)).2 := by
  have ht := hb.tick
  generalize hm' : min i (m + h.clock 0) = m' at ht
  have hroom : h.tick.tx.length < fifoSize := by
    have hread := ht.read
    rw [ht.tx_length]
    omega
  obtain ⟨h₁, h₂, h₃, h₄, h₅, h₆, h₇, h₈, h₉, h₁₀⟩ := ht
  refine ⟨hi, by omega, h₃, hr, ?_, h₆, h₇, h₈, h₉, h₁₀⟩
  have hone : slice all i 1 = [all.getD i 0] := slice_one hi
  have hadd := slice_add all m' (i - m') 1
  rw [Nat.add_sub_cancel' h₂, hone, ← h₅] at hadd
  have hsub : i + 1 - m' = i - m' + 1 := by omega
  rw [Spi.writeTxData, if_pos hroom, hsub]
  exact hadd.symm

/-- A block begins. -/
theorem Idle.begin (hi : h.Idle) (hall : all ≠ []) (htx : h.tx = []) (hrx : h.rx = [])
    (ho : h.overflow = false) : Block h.slave all 0 0 0 { h with frames := all.length } := by
  have hne : (0 : Nat) ≠ all.length := (List.length_pos_iff.2 hall).ne
  refine ⟨Nat.zero_le _, Nat.le_refl 0, Nat.le_refl 0, Nat.zero_le _, ?_, ?_, ho, rfl, ?_, ?_⟩
  · exact htx
  · exact hrx
  · rw [if_neg hne]
    exact hi.heard
  · rw [if_neg hne]

/-- All answers have been read. -/
theorem Block.finish (hb : Block s all i m all.length h) :
    h.Idle ∧ h.slave = Slave.deselect s all ∧ h.overflow = false := by
  have hm : m = all.length := by
    have := hb.read
    have := hb.passed
    have := hb.written
    omega
  subst hm
  refine ⟨⟨?_, ?_⟩, ?_, hb.overflow⟩
  · rw [hb.frames, Nat.sub_self]
  · rw [hb.heard, if_pos rfl]
  · rw [hb.slave, if_pos rfl]

end

end Spi

end Lib
