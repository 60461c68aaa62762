import QccGui.Lib.Nor
import QccGui.Lib.Spi

/-!
# Serial flash chips

A NOR flash memory behind a serial bus. The chip is sent one command per transfer. An erase or a
page write needs the write enable latch, goes on after its transfer, and clears the latch when it
ends; while it goes on the chip answers nothing but a read of its status.

* `Chip`, `Chip.settle`: the chip; time passes with the transfers that find an operation running.
* `Command`, `decode`, `Chip.transfer`: the commands as the chip reads them off the bus.
* `Chip.settled`: the chip once what is running has ended.
* `replies_chip`, `deselect_chip`: the transfers of the chip as a slave of an SPI master.
* `pageProgram_of_le`: a page write that does not wrap round is `Nor.program`.
-/

namespace Lib

open Polling

namespace SerialFlash

/-! ## Commands -/

inductive Command
  | readStatus
  | writeEnable
  | writeDisable
  | readId
  | read (address : Nat)
  | erase4k (address : Nat)
  | pageProgram (address : Nat) (data : Bytes)
  deriving DecidableEq, Repr

/-- The three bytes of an address, most significant first. -/
def addressBytes (a : Nat) : Bytes := [byte (a / 65536), byte (a / 256), byte a]

/-- The address that three bytes stand for. -/
def address24 (hi mid lo : UInt8) : Nat := hi.toNat * 65536 + mid.toNat * 256 + lo.toNat

theorem address24_bytes (a : Nat) :
    address24 (byte (a / 65536)) (byte (a / 256)) (byte a) = a % 2 ^ 24 := by
  simp only [address24, byte_toNat]
  omega

/-- The command of a transfer, by its operation code. -/
def decode : Bytes → Option Command
  | 0x05 :: _ => some .readStatus
  | 0x06 :: _ => some .writeEnable
  | 0x04 :: _ => some .writeDisable
  | 0x9F :: _ => some .readId
  | 0x03 :: hi :: mid :: lo :: _ => some (.read (address24 hi mid lo))
  | 0x20 :: hi :: mid :: lo :: _ => some (.erase4k (address24 hi mid lo))
  | 0x02 :: hi :: mid :: lo :: data => some (.pageProgram (address24 hi mid lo) data)
  | _ => none

/-! ## Page writes -/

/-- Loading the page buffer: a byte past the end of the page goes on at its start. -/
def loadPage (buf : Nat → UInt8) (a : Nat) : Bytes → Nat → UInt8
  | [] => buf
  | b :: bs => loadPage (Function.update buf (a % 256) b) (a + 1) bs

/-- The loaded buffer is written over the page of the address. -/
def pageProgram (m : Nor) (a : Nat) (bs : Bytes) : Nor :=
  { m with cells := fun x =>
      if x / 256 = m.size.wrap a / 256 then m.cells x &&& loadPage (fun _ => 0xFF) a bs (x % 256)
      else m.cells x }

theorem loadPage_of_le {buf : Nat → UInt8} {a : Nat} {bs : Bytes} (h : a % 256 + bs.length ≤ 256)
    (p : Nat) : loadPage buf a bs p =
      if a % 256 ≤ p ∧ p < a % 256 + bs.length then bs.getD (p - a % 256) 0xFF else buf p := by
  induction bs generalizing buf a with
  | nil =>
    rw [loadPage, if_neg]
    simp
  | cons b bs ih =>
    rw [List.length_cons] at h ⊢
    rw [loadPage]
    by_cases hbs : bs = []
    · subst hbs
      rw [loadPage]
      by_cases hp : p = a % 256
      · simp [hp]
      · rw [Function.update_of_ne hp, if_neg]
        simp
        omega
    · have hpos := List.length_pos_iff.2 hbs
      have hmod : (a + 1) % 256 = a % 256 + 1 := by omega
      rw [ih (by omega), hmod]
      by_cases hp : p = a % 256
      · rw [if_neg (by omega), if_pos (by omega), hp]
        simp
      · rw [Function.update_of_ne hp]
        by_cases hr : a % 256 + 1 ≤ p ∧ p < a % 256 + 1 + bs.length
        · have hsub : p - a % 256 = p - (a % 256 + 1) + 1 := by omega
          rw [if_pos hr, if_pos (by omega), hsub, List.getD_cons_succ]
        · rw [if_neg hr, if_neg (by omega)]

/-- A page write that ends on its page programs the bytes where they belong. -/
theorem pageProgram_of_le {m : Nor} {a : Nat} {bs : Bytes} (h : a % 256 + bs.length ≤ 256) :
    pageProgram m a bs = m.program a bs := by
  have hrest : m.size.wrap a % 256 = a % 256 := Size.wrap_mod_of_dvd (by decide) a
  rw [pageProgram, Nor.program]
  congr 1
  funext x
  have hff : m.cells x &&& (0xFF : UInt8) = m.cells x := by
    have hones : (0xFF : UInt8) = -1 := by decide
    rw [hones, UInt8.and_neg_one]
  by_cases hx : x / 256 = m.size.wrap a / 256
  · rw [if_pos hx, loadPage_of_le h]
    by_cases hin : m.size.wrap a ≤ x ∧ x < m.size.wrap a + bs.length
    · have hsub : x % 256 - a % 256 = x - m.size.wrap a := by omega
      rw [if_pos hin, if_pos (by omega), hsub]
    · rw [if_neg hin, if_neg (by omega), hff]
  · rw [if_neg hx, if_neg (by omega)]

/-! ## The chip -/

structure Chip where
  mem : Nor
  /-- The write enable latch. -/
  latch : Bool
  /-- The operation that goes on: how many transfers still find it running, and the contents that
  it leaves. -/
  running : Option (Nat × Nor)
  /-- How many transfers find each of the coming operations running. -/
  delays : Nat → Nat
  /-- The other bits of the status register. -/
  otherBits : UInt8
  id : Bytes
  /-- Commands that the chip did not carry out. -/
  ignored : Nat

namespace Chip

/-- The chip when the next transfer reaches it. -/
def settle (c : Chip) : Chip :=
  match c.running with
  | none => c
  | some (0, m) => { c with mem := m, latch := false, running := none }
  | some (n + 1, m) => { c with running := some (n, m) }

/-- The status register: bit 0 is set while an operation runs, bit 1 is the latch. -/
def status (c : Chip) : UInt8 :=
  (c.otherBits &&& 0xFC) ||| (if c.running.isSome then 1 else 0) ||| (if c.latch then 2 else 0)

/-- The latch is set. -/
def latched (c : Chip) : Chip := { c with latch := true }

/-- An erase or a page write begins. -/
def begin (c : Chip) (m : Nor) : Chip :=
  { c with running := some (c.delays 0, m), delays := fun i => c.delays (i + 1) }

def ignore (c : Chip) (n : Nat) : Bytes × Chip :=
  (List.replicate n 0xFF, { c with ignored := c.ignored + 1 })

/-- What the chip does on a command while no operation runs, with `n` bytes read after it. -/
def answer (c : Chip) (n : Nat) : Command → Bytes × Chip
  | .readStatus => (List.replicate n c.status, c)
  | .writeEnable => (List.replicate n 0xFF, c.latched)
  | .writeDisable => (List.replicate n 0xFF, { c with latch := false })
  | .readId => (ljust n c.id, c)
  | .read a => ((List.range n).map fun i => c.mem (a + i), c)
  | .erase4k a =>
    if c.latch then (List.replicate n 0xFF, c.begin (c.mem.erase4k a)) else c.ignore n
  | .pageProgram a data =>
    if c.latch then (List.replicate n 0xFF, c.begin (pageProgram c.mem a data)) else c.ignore n

/-- A running operation lets only a read of the status through. -/
def perform (c : Chip) (n : Nat) : Option Command → Bytes × Chip
  | some cmd => if cmd = .readStatus ∨ c.running.isNone then c.answer n cmd else c.ignore n
  | none => c.ignore n

/-- One transfer: the bytes that are sent and the number of bytes that are read. -/
def transfer (sent : Bytes) (n : Nat) (c : Chip) : Bytes × Chip :=
  c.settle.perform n (decode sent)

/-- The chip once what is running has ended. -/
def settled (c : Chip) : Chip :=
  match c.running with
  | none => c
  | some (_, m) => { c with mem := m, latch := false, running := none }

variable {c : Chip}

@[simp] theorem latched_running : c.latched.running = c.running := rfl

@[simp] theorem latched_mem : c.latched.mem = c.mem := rfl

@[simp] theorem latched_delays : c.latched.delays = c.delays := rfl

@[simp] theorem settled_running : c.settled.running = none := by
  rw [settled]
  split <;> simp_all

@[simp] theorem settled_delays : c.settled.delays = c.delays := by
  rw [settled]
  split <;> rfl

@[simp] theorem settled_id : c.settled.id = c.id := by
  rw [settled]
  split <;> rfl

@[simp] theorem settled_ignored : c.settled.ignored = c.ignored := by
  rw [settled]
  split <;> rfl

theorem perform_idle (h : c.running = none) (n : Nat) (cmd : Command) :
    c.perform n (some cmd) = c.answer n cmd := by
  rw [perform, h]
  apply if_pos
  exact .inr rfl

theorem settled_of_idle (h : c.running = none) : c.settled = c := by
  rw [settled, h]

theorem settle_of_idle (h : c.running = none) : c.settle = c := by
  rw [settle, h]

@[simp] theorem settled_settle : c.settle.settled = c.settled := by
  rcases hr : c.running with _ | ⟨_ | n, m⟩ <;> simp [settle, settled, hr]

/-- What a mask of the two low bits reads. -/
theorem status_and {mask : UInt8} (hm : 0xFC &&& mask = 0) :
    c.status &&& mask =
      ((if c.running.isSome then 1 else 0) &&& mask) ||| ((if c.latch then 2 else 0) &&& mask) := by
  rw [status, or_and_distrib, or_and_distrib, UInt8.and_assoc, hm, UInt8.and_zero, UInt8.zero_or]

/-- Bit 0 of the status. -/
theorem status_ready : c.status &&& 1 = 0 ↔ c.running = none := by
  rw [status_and (by decide)]
  cases c.running <;> cases c.latch <;> simp
  decide

/-- Bit 1 of the status. -/
theorem status_latch : c.status &&& 2 = 2 ↔ c.latch = true := by
  rw [status_and (by decide)]
  cases c.running <;> cases c.latch <;> simp <;> decide

end Chip

/-! ## On an SPI bus -/

/-- The length of a command without its data. -/
def Command.headLength : Command → Nat
  | .read _ | .erase4k _ | .pageProgram .. => 4
  | _ => 1

/-- The chip answers a command from its end on, and carries it out when it is deselected. -/
instance : Slave Chip where
  reply c sent :=
    match decode sent with
    | none => 0xFF
    | some cmd =>
      (c.settle.perform (sent.length - cmd.headLength + 1) (some cmd)).1.getD
        (sent.length - cmd.headLength) 0xFF
  deselect c sent := (c.transfer sent 0).2

/-- A transfer that reads nothing, or whose command is one that reads and is whole. -/
def WholeCommand (cmd : Bytes) (n : Nat) : Prop :=
  n = 0 ∨ cmd = [0x05] ∨ cmd = [0x9F] ∨ ∃ hi mid lo, cmd = [0x03, hi, mid, lo]

variable {c : Chip} {cmd : Bytes} {n : Nat}

theorem ljust_eq_map (n : Nat) (bs : Bytes) : ljust n bs = (List.range n).map fun i => bs.getD i 0 := by
  apply List.ext_getElem
  · simp
  · intro i h₁ h₂
    rw [ljust_length] at h₁
    simp only [ljust, zeros, List.getElem_map, List.getElem_range]
    by_cases hi : i < bs.length
    · rw [List.getElem_append_left (by simp; omega), List.getElem_take, List.getD_eq_getElem _ _ hi]
    · rw [List.getElem_append_right (by simp; omega), List.getElem_replicate,
        List.getD_eq_default _ _ (by omega)]

/-- The answer to a command does not depend on how much of it is read. -/
theorem perform_stream (c : Chip) (o : Option Command) :
    ∃ f c', ∀ n, c.perform n o = ((List.range n).map f, c') := by
  have hff : ∀ c' : Chip, ∃ f c'', ∀ n,
      (List.replicate n (0xFF : UInt8), c') = ((List.range n).map f, c'') :=
    fun c' => ⟨fun _ => 0xFF, c', fun n => by simp⟩
  cases o with
  | none => exact hff _
  | some k =>
    by_cases hk : k = .readStatus ∨ c.running.isNone
    · simp only [Chip.perform, if_pos hk]
      cases k with
      | readStatus => exact ⟨fun _ => c.status, c, fun n => by simp [Chip.answer]⟩
      | writeEnable => exact hff _
      | writeDisable => exact hff _
      | readId => exact ⟨fun i => c.id.getD i 0, c, fun n => by rw [Chip.answer, ljust_eq_map]⟩
      | read a => exact ⟨_, c, fun n => rfl⟩
      | erase4k a =>
        by_cases hl : c.latch = true
        · simp only [Chip.answer, if_pos hl]
          exact hff _
        · simp only [Chip.answer, if_neg hl]
          exact hff _
      | pageProgram a data =>
        by_cases hl : c.latch = true
        · simp only [Chip.answer, if_pos hl]
          exact hff _
        · simp only [Chip.answer, if_neg hl]
          exact hff _
    · simp only [Chip.perform, if_neg hk]
      exact hff _

/-- The zeros behind a whole command do not change it. -/
theorem WholeCommand.decode (h : WholeCommand cmd n) (hn : n ≠ 0) (k : Nat) :
    ∃ o, o.headLength = cmd.length ∧ SerialFlash.decode cmd = some o ∧
      SerialFlash.decode (cmd ++ zeros k) = some o := by
  rcases h with h | rfl | rfl | ⟨hi, mid, lo, rfl⟩
  · exact absurd h hn
  · exact ⟨.readStatus, rfl, rfl, rfl⟩
  · exact ⟨.readId, rfl, rfl, rfl⟩
  · exact ⟨.read (address24 hi mid lo), rfl, rfl, rfl⟩

theorem replies_chip (h : WholeCommand cmd n) (c : Chip) :
    Slave.replies c cmd n = (c.transfer cmd n).1 := by
  by_cases hn : n = 0
  · obtain ⟨f, c', hf⟩ := perform_stream c.settle (decode cmd)
    rw [hn, Chip.transfer, hf]
    rfl
  · obtain ⟨o, hlen, hcmd, -⟩ := h.decode hn 0
    obtain ⟨f, c', hf⟩ := perform_stream c.settle (some o)
    rw [Chip.transfer, hcmd, hf]
    apply List.ext_getElem
    · simp [Slave.replies]
    · intro i h₁ h₂
      rw [List.length_map, List.length_range] at h₂
      obtain ⟨o', hlen', hcmd', hsent⟩ := h.decode hn i
      obtain rfl : o = o' := Option.some.inj (hcmd.symm.trans hcmd')
      have htake : (cmd ++ zeros n).take (cmd.length + i) = cmd ++ zeros i := by
        rw [List.take_length_add_append, zeros, zeros, List.take_replicate,
          Nat.min_eq_left (Nat.le_of_lt h₂)]
      simp only [Slave.replies, List.getElem_map, List.getElem_range', Nat.one_mul, htake,
        List.getElem_range]
      simp only [Slave.reply, hsent, hf]
      rw [List.length_append, zeros_length, hlen, Nat.add_sub_cancel_left,
        List.getD_eq_getElem _ _ (by simp)]
      simp

theorem deselect_chip (h : WholeCommand cmd n) (c : Chip) :
    Slave.deselect c (cmd ++ zeros n) = (c.transfer cmd n).2 := by
  by_cases hn : n = 0
  · rw [hn, zeros, List.replicate_zero, List.append_nil]
    rfl
  · obtain ⟨o, -, hcmd, hsent⟩ := h.decode hn n
    obtain ⟨f, c', hf⟩ := perform_stream c.settle (some o)
    change (c.transfer (cmd ++ zeros n) 0).2 = _
    rw [Chip.transfer, Chip.transfer, hsent, hcmd, hf, hf]

end SerialFlash

end Lib
