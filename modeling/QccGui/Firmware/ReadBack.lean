import QccGui.Firmware.FlashDriver
import QccGui.Firmware.Transfers

/-!
# Reading the flash back

What `FLASH_read` gives back of an image once the driver has carried out the writes of its
transfer, and what `update_spi_dir` reads of the directory that it has written.

* `flashRead_holds`: stored bytes are read.
* `chip_reads_back`, `updateSpiDir_reads_back`: an image and the directory.
-/

namespace QccGui.Firmware

open Lib SerialFlash Polling

section

variable {c : Chip}

/-- `FLASH_read` of what fits one transfer. -/
theorem flashRead_returns (hi : c.running = none) (address : Nat) {n : Nat} (hn : n + 4 < 2 ^ 16) :
    Returns (flashRead chipBus address n) c
      ((List.range n).map fun i => c.mem (address % 2 ^ 24 + i)) c := by
  have hd : Returns (chipBus.transferBlock (readArrayOpcode :: addressBytes address) n) c _ _ :=
    Returns.device (transferBlock (readArrayOpcode :: addressBytes address) n) c
  rw [transferBlock_eq (by simp) (by simp [addressBytes]; omega), Chip.transfer,
    Chip.settle_of_idle hi, readArrayOpcode, addressBytes, decode, address24_bytes,
    Chip.perform_idle hi] at hd
  exact (waitReady_idle hi).bind <| hd.bind <| (waitReady_idle hi).bind (.pure _ _)

/-- Stored bytes are read. -/
theorem flashRead_holds (address o : Nat) {n : Nat} {bs : Bytes} (hi : c.running = none)
    (hb : c.mem.Holds address bs) (ho : o + n ≤ bs.length) (hn : n + 4 < 2 ^ 16) :
    Returns (flashRead chipBus (address + o) n) c (slice bs o n) c := by
  have hcell : ∀ i, c.mem ((address + o) % 2 ^ 24 + i) = c.mem (address + (o + i)) := by
    intro i
    refine Nor.get_congr ?_
    rw [Size.wrap_add, Size.wrap_mod, ← Size.wrap_add, Nat.add_assoc]
  have hread : ((List.range n).map fun i => c.mem ((address + o) % 2 ^ 24 + i)) = slice bs o n := by
    apply List.ext_getElem
    · rw [List.length_map, List.length_range, slice_length ho]
    · intro i hi₁ hi₂
      rw [List.length_map, List.length_range] at hi₁
      have hget := hb (o + i) (by omega)
      rw [List.getElem_map, List.getElem_range, hcell, hget, List.getD_eq_getElem?_getD,
        List.getElem?_eq_getElem (by omega)]
      simp [slice]
  rw [← hread]
  exact flashRead_returns hi _ hn

/-- Every part of an image that one `FLASH_read` can ask for is read back as it was sent, once the
driver has carried out the writes of a transfer of whole blocks that lie in the chip and, for a
flagged image, those of the directory. -/
theorem chip_reads_back (hi : c.running = none) {flag : UInt8} {pkts : List Bytes}
    (hp : ∀ pkt ∈ pkts, 10 + 4096 ≤ pkt.length)
    (hk : blockAddress flag pkts.length ≤ c.mem.size.bytes)
    (ht : AllOutlast c.delays ((packetsActs 4096 flag 0 pkts ++ dirActs flag).flatMap Act.flashOps))
    {o n : Nat} (ho : o + n ≤ 4096 * pkts.length) (hn : n + 4 < 2 ^ 16) :
    ∃ c', Returns (do
      drive chipBus ((packetsActs 4096 flag 0 pkts ++ dirActs flag).flatMap Act.flashOps)
      flashRead chipBus (imageAddress flag + o) n) c (slice (pkts.flatMap (slice · 10 4096)) o n) c' := by
  obtain ⟨c', hr, hs⟩ := drive_returns hi ht
  have hmem : c'.mem.Holds (imageAddress flag) (pkts.flatMap (slice · 10 4096)) := by
    rw [hs.mem]
    exact transfer_stored hp hk
  exact ⟨c', hr.bind (flashRead_holds _ _ hs.running hmem (by rwa [payloads_length hp]) hn)⟩

/-- `update_spi_dir`, with the two reads at its end. -/
def updateSpiDirDriver {σ : Type} (bus : FlashBus σ) : Polling σ (Bytes × Bytes) := do
  let _ ← flashReadDeviceId bus
  drive bus updateSpiDir
  let rxBuffSpiDir ← flashRead bus spiDirAddress 6
  let rxBuffSpiDir' ← flashRead bus spiDirAddress 6
  return (rxBuffSpiDir, rxBuffSpiDir')

theorem flashReadDeviceId_returns (hi : c.running = none) :
    ∃ r, Returns (flashReadDeviceId chipBus) c r c := by
  have hd : Returns (chipBus.transferBlock [deviceIdRead] 14) c _ _ :=
    Returns.device (transferBlock [deviceIdRead] 14) c
  rw [transferBlock_eq (by simp) (by simp), Chip.transfer, Chip.settle_of_idle hi, deviceIdRead,
    decode, Chip.perform_idle hi] at hd
  exact ⟨_, hd.bind (.pure _ _)⟩

theorem updateSpiDirDriver_returns (hi : c.running = none) (ho : AllOutlast c.delays updateSpiDir) :
    ∃ c', Returns (updateSpiDirDriver chipBus) c (spiDir, spiDir) c' ∧
      Served c (runOps c.mem updateSpiDir) (operations updateSpiDir) c' := by
  obtain ⟨r, hid⟩ := flashReadDeviceId_returns hi
  obtain ⟨c', hr, hs⟩ := drive_returns hi ho
  have hblank : (c.mem.erase4k 0).Blank 0 spiDir.length :=
    (Nor.blank_erase4k (by decide)).mono (by decide)
  have hholds : c'.mem.Holds 0 spiDir := by
    rw [hs.mem, run_updateSpiDir]
    have hfit := c.mem.size.wrap_add_le (Nat.dvd_zero 4096)
    refine hblank.program ?_
    rw [spiDir_length, Nor.erase4k_size]
    omega
  have hread : Returns (flashRead chipBus spiDirAddress 6) c' spiDir c' :=
    flashRead_holds 0 0 hs.running hholds (by decide) (by decide)
  exact ⟨c', hid.bind <| hr.bind <| hread.bind <| hread.bind (.pure _ _), hs⟩

theorem updateSpiDirDriver_hangs (hi : c.running = none) (ho : ¬ AllOutlast c.delays updateSpiDir) :
    Hangs (updateSpiDirDriver chipBus) c := by
  obtain ⟨r, hid⟩ := flashReadDeviceId_returns hi
  exact hid.bind_hangs (drive_hangs hi ho).bind

/-- The rewritten directory is read twice as it was written, and nothing else has changed, unless
the driver waits for ever. -/
theorem updateSpiDir_reads_back (hi : c.running = none) :
    (0 < c.delays 1 → ∃ c', Returns (updateSpiDirDriver chipBus) c (spiDir, spiDir) c' ∧
      ∀ x, c.mem.size.block x ≠ 0 → c'.mem x = c.mem x) ∧
    (c.delays 1 = 0 → Hangs (updateSpiDirDriver chipBus) c) := by
  have hiff : AllOutlast c.delays updateSpiDir ↔ 0 < c.delays 1 := by
    have hops : (FlashOp.program spiDirAddress spiDir).Outlasts (fun i => c.delays (i + 1)) ↔
        0 < c.delays 1 := by
      rw [FlashOp.Outlasts, flashPages_spiDir]
      simp [spiDir, le32, le16]
    exact ⟨fun h => hops.1 h.2.1, fun h => ⟨trivial, hops.2 h, trivial⟩⟩
  refine ⟨fun hd => ?_, fun hd => updateSpiDirDriver_hangs hi ?_⟩
  · obtain ⟨c', hr, hs⟩ := updateSpiDirDriver_returns hi (hiff.2 hd)
    refine ⟨c', hr, fun x hx => ?_⟩
    rw [hs.mem, updateSpiDir_frame hx]
  · rw [hiff]
    omega

end

end QccGui.Firmware
