import QccGui.Lib.Bytes
import Mathlib.Data.List.GetD

/-!
# NOR flash memory

Contents by address. Erasing sets a whole 4 KiB block to ones; programming can only clear bits.

* `Size`: the capacity of a chip, which tells no more addresses apart than that.
* `Nor`, `Nor.get`: a memory, and what is read at any address of it.
* `erase4k`, `program` and what each leaves alone.
* `Holds m a bs`: the bytes `bs` are read from `a` on; `Blank.program` says when programming stores
  what it was given.
-/

namespace Lib

/-- The capacity of a flash chip: whole 4 KiB blocks, which its 24 address bits can reach. -/
structure Size where
  bytes : Nat
  whole : 4096 ∣ bytes
  addressed : bytes ∣ 2 ^ 24

namespace Size

/-- The cell of an address: the chip takes as many low bits as it needs. -/
def wrap (s : Size) (a : Nat) : Nat := a % s.bytes

/-- The 4 KiB block of an address. -/
def block (s : Size) (a : Nat) : Nat := s.wrap a / 4096

variable {s : Size} {a b t : Nat}

theorem bytes_pos (s : Size) : 0 < s.bytes := Nat.pos_of_dvd_of_pos s.addressed (by decide)

theorem wrap_lt (s : Size) (a : Nat) : s.wrap a < s.bytes := Nat.mod_lt _ s.bytes_pos

theorem wrap_of_lt (h : a < s.bytes) : s.wrap a = a := Nat.mod_eq_of_lt h

@[simp] theorem wrap_zero (s : Size) : s.wrap 0 = 0 := Nat.zero_mod _

@[simp] theorem wrap_wrap (s : Size) (a : Nat) : s.wrap (s.wrap a) = s.wrap a := Nat.mod_mod _ _

/-- The bits above the lowest 24 do not matter. -/
theorem wrap_mod (s : Size) (a : Nat) : s.wrap (a % 2 ^ 24) = s.wrap a :=
  Nat.mod_mod_of_dvd a s.addressed

/-- Going on from an address is going on from its cell. -/
theorem wrap_add (s : Size) (a t : Nat) : s.wrap (a + t) = s.wrap (s.wrap a + t) := by
  simp only [wrap, Nat.mod_add_mod]

theorem wrap_add_of_lt (h : s.wrap a + t < s.bytes) : s.wrap (a + t) = s.wrap a + t := by
  rw [wrap_add, wrap_of_lt h]

/-- A divisor of the block size sees the same rest in an address and in its cell. -/
theorem wrap_mod_of_dvd {n : Nat} (hn : n ∣ 4096) (a : Nat) : s.wrap a % n = a % n :=
  Nat.mod_mod_of_dvd a (hn.trans s.whole)

theorem wrap_dvd (h : 4096 ∣ a) : 4096 ∣ s.wrap a :=
  Nat.dvd_of_mod_eq_zero (by rw [wrap_mod_of_dvd dvd_rfl, Nat.mod_eq_zero_of_dvd h])

/-- A block lies in the chip as a whole. -/
theorem wrap_add_le (h : 4096 ∣ a) : s.wrap a + 4096 ≤ s.bytes := by
  have hlt := s.wrap_lt a
  have hd := s.wrap_dvd h
  have hw := s.whole
  omega

theorem wrap_add_of_dvd (h : 4096 ∣ a) (ht : t < 4096) : s.wrap (a + t) = s.wrap a + t :=
  wrap_add_of_lt (by have := s.wrap_add_le h; omega)

theorem block_add (h : 4096 ∣ a) (ht : t < 4096) : s.block (a + t) = s.block a := by
  have hd := s.wrap_dvd h
  rw [block, block, wrap_add_of_dvd h ht]
  omega

theorem block_of_lt (h : a < s.bytes) : s.block a = a / 4096 := by
  rw [block, wrap_of_lt h]

/-- Blocks that are less than the capacity apart are different. -/
theorem block_ne (ha : 4096 ∣ a) (hb : 4096 ∣ b) (hab : a < b) (h : b < a + s.bytes) :
    s.block a ≠ s.block b := by
  intro he
  have hda := s.wrap_dvd ha
  have hdb := s.wrap_dvd hb
  have hw : a % s.bytes = b % s.bytes := by
    change s.wrap a = s.wrap b
    unfold block at he
    omega
  have hd := (Nat.modEq_iff_dvd' hab.le).1 hw
  have hle := Nat.le_of_dvd (by omega) hd
  omega

end Size

/-- The contents of a flash memory: the value of every cell. -/
structure Nor where
  size : Size
  cells : Nat → UInt8

namespace Nor

/-- What is read at an address. -/
def get (m : Nor) (a : Nat) : UInt8 := m.cells (m.size.wrap a)

instance : CoeFun Nor fun _ => Nat → UInt8 := ⟨get⟩

/-- The memory of a chip that was never written to. -/
def erased (s : Size) : Nor := ⟨s, fun _ => 0xFF⟩

/-- Erasing the 4 KiB block that contains the address `a`. -/
def erase4k (m : Nor) (a : Nat) : Nor :=
  { m with cells := fun x => if x / 4096 = m.size.block a then 0xFF else m.cells x }

/-- Programming `bs` from the address `a` on: each stored byte keeps only the bits that the new
byte also has. What goes past the last cell is lost. -/
def program (m : Nor) (a : Nat) (bs : Bytes) : Nor :=
  { m with cells := fun x =>
      if m.size.wrap a ≤ x ∧ x < m.size.wrap a + bs.length then
        m.cells x &&& bs.getD (x - m.size.wrap a) 0xFF
      else m.cells x }

/-- The bytes `bs` are read from the address `a` on. -/
def Holds (m : Nor) (a : Nat) (bs : Bytes) : Prop := ∀ i, i < bs.length → m (a + i) = bs.getD i 0

/-- The `n` bytes from the address `a` on are erased. -/
def Blank (m : Nor) (a n : Nat) : Prop := ∀ i, i < n → m (a + i) = 0xFF

variable {m : Nor} {a b n x : Nat} {bs cs : Bytes}

@[simp] theorem erased_size (s : Size) : (erased s).size = s := rfl

@[simp] theorem erased_get (s : Size) (a : Nat) : erased s a = 0xFF := rfl

@[simp] theorem erase4k_size : (m.erase4k a).size = m.size := rfl

@[simp] theorem program_size : (m.program a bs).size = m.size := rfl

/-- Addresses of one cell read the same. -/
theorem get_congr (h : m.size.wrap a = m.size.wrap b) : m a = m b := by
  rw [get, get, h]

theorem erase4k_get : m.erase4k a x = if m.size.block x = m.size.block a then 0xFF else m x := rfl

theorem program_get : m.program a bs x =
    if m.size.wrap a ≤ m.size.wrap x ∧ m.size.wrap x < m.size.wrap a + bs.length then
      m x &&& bs.getD (m.size.wrap x - m.size.wrap a) 0xFF
    else m x := rfl

theorem erase4k_mod : m.erase4k (a % 2 ^ 24) = m.erase4k a := by
  rw [erase4k, erase4k, Size.block, Size.block, Size.wrap_mod]

theorem program_mod : m.program (a % 2 ^ 24) bs = m.program a bs := by
  rw [program, program, Size.wrap_mod]

theorem erase4k_of_ne (h : m.size.block x ≠ m.size.block a) : m.erase4k a x = m x := if_neg h

theorem program_of_lt (h : m.size.wrap x < m.size.wrap a) : m.program a bs x = m x := by
  rw [program_get, if_neg (by omega)]

theorem program_of_le (h : m.size.wrap a + bs.length ≤ m.size.wrap x) : m.program a bs x = m x := by
  rw [program_get, if_neg (by omega)]

/-- Programming that stays in a block leaves the other blocks alone. -/
theorem program_of_block (h : m.size.block x ≠ m.size.block a)
    (hl : m.size.wrap a % 4096 + bs.length ≤ 4096) : m.program a bs x = m x := by
  unfold Size.block at h
  rw [program_get, if_neg (by omega)]

/-- Programming sets no bit. -/
theorem program_zero (h : m x = 0) : m.program a bs x = 0 := by
  rw [program_get]
  split
  · rw [h, UInt8.zero_and]
  · exact h

theorem blank_erase4k (ha : 4096 ∣ a) : (m.erase4k a).Blank a 4096 := by
  intro i hi
  rw [erase4k_get, if_pos (Size.block_add ha hi)]

theorem Blank.mono {k : Nat} (h : m.Blank a n) (hk : k ≤ n) : m.Blank a k :=
  fun i hi => h i (by omega)

@[simp] theorem holds_nil : m.Holds a [] := by simp [Holds]

theorem holds_append : m.Holds a (bs ++ cs) ↔ m.Holds a bs ∧ m.Holds (a + bs.length) cs := by
  have hleft : ∀ i, i < bs.length → (bs ++ cs).getD i 0 = bs.getD i 0 :=
    fun i hi => List.getD_append bs cs 0 i hi
  have hright : ∀ i, (bs ++ cs).getD (bs.length + i) 0 = cs.getD i 0 := by
    intro i
    rw [List.getD_append_right bs cs 0 _ (Nat.le_add_right ..), Nat.add_sub_cancel_left]
  have haddr : ∀ i, a + bs.length + i = a + (bs.length + i) := fun i => Nat.add_assoc a bs.length i
  simp only [Holds, List.length_append, haddr, ← hright]
  constructor
  · intro h
    exact ⟨fun i hi => (h i (by omega)).trans (hleft i hi), fun i hi => h _ (by omega)⟩
  · rintro ⟨h₁, h₂⟩ i hi
    rcases Nat.lt_or_ge i bs.length with hl | hl
    · exact (h₁ i hl).trans (hleft i hl).symm
    · obtain ⟨j, rfl⟩ := Nat.exists_eq_add_of_le hl
      exact h₂ j (by omega)

/-- What is stored is not changed by changes elsewhere. -/
theorem Holds.congr {m' : Nor} (h : m.Holds a bs) (hm : ∀ i, i < bs.length → m' (a + i) = m (a + i)) :
    m'.Holds a bs := fun i hi => (hm i hi).trans (h i hi)

/-- Erased memory holds what is programmed into it, unless that goes past the last cell. -/
theorem Blank.program (h : m.Blank a bs.length) (hfit : m.size.wrap a + bs.length ≤ m.size.bytes) :
    (m.program a bs).Holds a bs := by
  intro i hi
  have hones : (0xFF : UInt8) = -1 := by decide
  have hcell : m.size.wrap (a + i) = m.size.wrap a + i := Size.wrap_add_of_lt (by omega)
  rw [program_get, hcell, if_pos ⟨by omega, by omega⟩, h i hi, Nat.add_sub_cancel_left, hones,
    UInt8.neg_one_and]
  simp [hi]

end Nor

end Lib
