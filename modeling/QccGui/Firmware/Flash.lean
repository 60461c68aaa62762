import QccGui.Lib.Nor

/-!
# Flash writes of the bootloader

The SPI flash driver (`FLASH_erase_4k_block`, `FLASH_program`) and the two functions of the
bootloader that use it: `writeToSpi` stores one received packet of an image, `updateSpiDir`
rewrites the SPI directory. Both are given as the list of driver calls they make.

* `writeToSpi_block`: a packet whose size is a multiple of a page is stored at its block, and the
  other blocks are left alone.
* `updateSpiDir_frame`: the directory is all that `updateSpiDir` changes.
-/

namespace QccGui.Firmware

open Lib

def goldenImageAddress : Nat := 0x1000
def iapImageAddress : Nat := 0x400000
def spiDirAddress : Nat := 0

/-! ## The driver -/

/-- The 64 Mbit chip that the driver is written for. -/
def w25q64 : Size := ⟨0x800000, by decide, by decide⟩

/-- A call of the flash driver. -/
inductive FlashOp
  | eraseBlock (address : Nat)
  | program (address : Nat) (writeBuffer : Bytes)
  deriving DecidableEq, Repr

/-- The page writes of `FLASH_program`: the buffer is cut at the page boundaries. The chip is sent
the low 24 bits of each address. -/
def flashPages (address : Nat) (buf : Bytes) : List (Nat × Bytes) :=
  if h : buf = [] then []
  else
    let n := 0x100 - address % 0x100
    (address % 2 ^ 24, buf.take n) :: flashPages (address + n) (buf.drop n)
termination_by buf.length
decreasing_by
  have := List.length_pos_iff.2 h
  have := Nat.mod_lt address (show 0 < 0x100 by decide)
  simp only [List.length_drop]
  omega

/-- A buffer that does not cross a page boundary is one page write. -/
theorem flashPages_of_le {address : Nat} {buf : Bytes} (h : buf ≠ [])
    (hl : buf.length ≤ 0x100 - address % 0x100) :
    flashPages address buf = [(address % 2 ^ 24, buf)] := by
  rw [flashPages, dif_neg h]
  dsimp only
  rw [List.take_of_length_le hl, List.drop_eq_nil_of_le hl, flashPages,
    dif_pos rfl]

/-- What a driver call does to the memory. -/
def FlashOp.run (m : Nor) : FlashOp → Nor
  | .eraseBlock address => m.erase4k (address % 2 ^ 24)
  | .program address buf => (flashPages address buf).foldl (fun m x => m.program x.1 x.2) m

def runOps (m : Nor) (ops : List FlashOp) : Nor := ops.foldl FlashOp.run m

@[simp] theorem runOps_nil (m : Nor) : runOps m [] = m := rfl

@[simp] theorem runOps_cons (m : Nor) (op : FlashOp) (ops : List FlashOp) :
    runOps m (op :: ops) = runOps (op.run m) ops := rfl

@[simp] theorem runOps_append (m : Nor) (ops ops' : List FlashOp) :
    runOps m (ops ++ ops') = runOps (runOps m ops) ops' := by
  simp [runOps]

theorem run_eraseBlock (m : Nor) (a : Nat) : (FlashOp.eraseBlock a).run m = m.erase4k a :=
  Nor.erase4k_mod

/-- Programming one whole page. -/
theorem run_program_page {m : Nor} {a : Nat} {buf : Bytes} (ha : 256 ∣ a) (hl : buf.length = 256) :
    (FlashOp.program a buf).run m = m.program a buf := by
  have hb : buf ≠ [] := by
    rintro rfl
    simp at hl
  rw [FlashOp.run, flashPages_of_le hb (by omega), ← Nor.program_mod]
  rfl

/-- Writes do not change how much the chip holds. -/
@[simp] theorem run_size (m : Nor) (op : FlashOp) : (op.run m).size = m.size := by
  have hpages : ∀ (xs : List (Nat × Bytes)) (m : Nor),
      (xs.foldl (fun m x => m.program x.1 x.2) m).size = m.size := by
    intro xs
    induction xs with
    | nil => exact fun _ => rfl
    | cons x xs ih => exact fun m => ih _
  cases op with
  | eraseBlock a => rfl
  | program a buf => exact hpages _ m

@[simp] theorem runOps_size (m : Nor) (ops : List FlashOp) : (runOps m ops).size = m.size := by
  induction ops generalizing m with
  | nil => rfl
  | cons op ops ih => rw [runOps_cons, ih, run_size]

/-! ## The bootloader's writes -/

/-- The region an image is written to. -/
def imageAddress (imageIsGolden : UInt8) : Nat :=
  if imageIsGolden = 1 then goldenImageAddress else iapImageAddress

/-- The block of the packet with index `packetIndex`. -/
def blockAddress (imageIsGolden : UInt8) (packetIndex : Nat) : Nat :=
  imageAddress imageIsGolden + 4 * 1024 * packetIndex

/-- `write_to_spi`: erase the packet's block, then program the whole pages of the packet. A rest of
less than a page is not written. -/
def writeToSpi (writeBuff : Bytes) (packetSize packetIndex : Nat) (imageIsGolden : UInt8) :
    List FlashOp :=
  let currBlockAddr := blockAddress imageIsGolden packetIndex
  .eraseBlock currBlockAddr :: (List.range (packetSize / 256)).map fun i =>
    .program (currBlockAddr + 256 * i) (slice writeBuff (256 * i) 256)

/-- `update_spi_dir`: the directory is the address of the golden image and its version, 0. -/
def updateSpiDir : List FlashOp :=
  [.eraseBlock spiDirAddress,
    .program spiDirAddress (le32 goldenImageAddress ++ le16 0)]

theorem imageAddress_dvd (flag : UInt8) : 4096 ∣ imageAddress flag := by
  unfold imageAddress
  split <;> decide

theorem le_imageAddress (flag : UInt8) : goldenImageAddress ≤ imageAddress flag := by
  unfold imageAddress
  split <;> decide

theorem blockAddress_dvd (flag : UInt8) (k : Nat) : 4096 ∣ blockAddress flag k := by
  have := imageAddress_dvd flag
  unfold blockAddress
  omega

theorem blockAddress_succ (flag : UInt8) (k : Nat) :
    blockAddress flag (k + 1) = blockAddress flag k + 4096 := by
  unfold blockAddress
  omega

/-- The chip tells as many packets in a row apart as it has blocks. -/
theorem block_blockAddress_ne {chip : Size} {flag : UInt8} {k j : Nat} (h : k < j)
    (hj : 4096 * (j - k) < chip.bytes) :
    chip.block (blockAddress flag k) ≠ chip.block (blockAddress flag j) := by
  apply Size.block_ne (blockAddress_dvd flag k) (blockAddress_dvd flag j)
  · unfold blockAddress
    omega
  · unfold blockAddress
    omega

/-- The page writes of a packet. -/
private theorem runOps_pages {m : Nor} {a : Nat} {buf : Bytes} (ha : 256 ∣ a) (n : Nat)
    (hn : 256 * n ≤ buf.length) (hfit : m.size.wrap a + 256 * n ≤ m.size.bytes)
    (hb : m.Blank a (256 * n)) :
    (runOps m ((List.range n).map fun i =>
      FlashOp.program (a + 256 * i) (slice buf (256 * i) 256))).Holds a (buf.take (256 * n)) ∧
    ∀ x, m.size.wrap x < m.size.wrap a ∨ m.size.wrap a + 256 * n ≤ m.size.wrap x →
      runOps m ((List.range n).map fun i =>
        FlashOp.program (a + 256 * i) (slice buf (256 * i) 256)) x = m x := by
  induction n with
  | zero => simp
  | succ n ih =>
    rw [Nat.mul_succ] at hn hfit hb ⊢
    have hb' : m.Blank a (256 * n) := hb.mono (Nat.le_add_right _ _)
    obtain ⟨ih₁, ih₂⟩ := ih (by omega) (by omega) hb'
    have hl : (slice buf (256 * n) 256).length = 256 := slice_length hn
    have hcell : ∀ t, t < 256 * n + 256 → m.size.wrap (a + t) = m.size.wrap a + t :=
      fun t ht => Size.wrap_add_of_lt (by omega)
    have hpage := hcell (256 * n) (by omega)
    simp only [List.range_succ, List.map_append, List.map_cons, List.map_nil, runOps_append,
      runOps_cons, runOps_nil]
    rw [run_program_page (by omega) hl]
    have hsize := runOps_size m ((List.range n).map fun i =>
      FlashOp.program (a + 256 * i) (slice buf (256 * i) 256))
    generalize runOps m ((List.range n).map fun i =>
      FlashOp.program (a + 256 * i) (slice buf (256 * i) 256)) = m' at ih₁ ih₂ hsize
    rw [← hsize] at hfit hpage hcell
    refine ⟨?_, fun x hx => ?_⟩
    · have hsplit : buf.take (256 * n + 256) = buf.take (256 * n) ++ slice buf (256 * n) 256 :=
        List.take_add
      have htl : (buf.take (256 * n)).length = 256 * n := by simp; omega
      rw [hsplit, Nor.holds_append, htl]
      refine ⟨ih₁.congr fun i hi => ?_, Nor.Blank.program ?_ (by omega)⟩
      · have hi' := hcell i (by omega)
        exact Nor.program_of_lt (by omega)
      · intro i hi
        have hi' := hcell (256 * n + i) (by omega)
        rw [Nat.add_assoc, ih₂ _ (by rw [← hsize]; omega)]
        exact hb (256 * n + i) (by omega)
    · rw [← hsize] at hx
      rw [← ih₂ x (by rw [← hsize]; omega)]
      rcases hx with hx | hx
      · exact Nor.program_of_lt (by omega)
      · exact Nor.program_of_le (by omega)

section

variable {m : Nor} {flag : UInt8} {k size : Nat} {buf : Bytes}

/-- A packet of whole pages that fits a block is stored at its block, and no other block is
touched. -/
theorem writeToSpi_block (hl : buf.length = size) (hs : size ≤ 4096) (hp : 256 ∣ size) :
    (runOps m (writeToSpi buf size k flag)).Holds (blockAddress flag k) buf ∧
    ∀ x, m.size.block x ≠ m.size.block (blockAddress flag k) →
      runOps m (writeToSpi buf size k flag) x = m x := by
  subst hl
  have hd := blockAddress_dvd flag k
  have hsz : 256 * (buf.length / 256) = buf.length := Nat.mul_div_cancel' hp
  have hfit := m.size.wrap_add_le hd
  have hcell := m.size.wrap_dvd hd
  rw [writeToSpi, runOps_cons, run_eraseBlock]
  have hb : (m.erase4k (blockAddress flag k)).Blank (blockAddress flag k)
      (256 * (buf.length / 256)) := (Nor.blank_erase4k hd).mono (by omega)
  have hn : 256 * (buf.length / 256) ≤ buf.length := by omega
  obtain ⟨h₁, h₂⟩ := runOps_pages (by omega) (buf.length / 256) hn
    (by rw [Nor.erase4k_size]; omega) hb
  rw [hsz, List.take_length] at h₁
  refine ⟨h₁, fun x hx => ?_⟩
  rw [h₂ x, Nor.erase4k_of_ne hx]
  rw [Nor.erase4k_size]
  unfold Size.block at hx
  omega

end

/-- The directory: the address of the golden image and its version. -/
def spiDir : Bytes := le32 goldenImageAddress ++ le16 0

theorem spiDir_length : spiDir.length = 6 := rfl

theorem flashPages_spiDir : flashPages spiDirAddress spiDir = [(0, spiDir)] :=
  flashPages_of_le (by simp [spiDir, le32, le16]) (by decide)

theorem run_updateSpiDir (m : Nor) : runOps m updateSpiDir = (m.erase4k 0).program 0 spiDir := by
  rw [updateSpiDir, runOps_cons, runOps_cons, runOps_nil, run_eraseBlock, FlashOp.run]
  change (flashPages spiDirAddress spiDir).foldl _ _ = _
  rw [flashPages_spiDir]
  rfl

/-- Rewriting the directory changes the first block only. -/
theorem updateSpiDir_frame {m : Nor} {x : Nat} (h : m.size.block x ≠ 0) :
    runOps m updateSpiDir x = m x := by
  have hzero : m.size.block 0 = 0 := by simp [Size.block]
  have hfit : (m.erase4k 0).size.wrap 0 % 4096 + spiDir.length ≤ 4096 := by
    rw [Size.wrap_zero]
    decide
  rw [run_updateSpiDir, Nor.program_of_block _ hfit, Nor.erase4k_of_ne]
  · rwa [hzero]
  · rwa [Nor.erase4k_size, hzero]

end QccGui.Firmware
