import Mathlib.Data.List.Basic
import Mathlib.Data.UInt

/-!
# Byte strings

Byte strings are lists of bytes.

* `xorSum`: the XOR of all bytes, and `sealed`, which appends it as a check byte.
* `lowBits`: a number cut down to a field; `le16`, `le32`, `le64`, `word16`: little-endian fields.
* `zeros`, `ljust`, `setFront`, `slice`: padding and cutting.
-/

namespace Lib

abbrev Bytes := List UInt8

/-- The low byte of a number. -/
def byte (n : Nat) : UInt8 := UInt8.ofNat n

@[simp] theorem byte_toNat (n : Nat) : (byte n).toNat = n % 256 := by
  simp [byte, UInt8.toNat_ofNat']

@[simp] theorem byte_of_toNat (b : UInt8) : byte b.toNat = b := by
  simp [byte]

theorem byte_congr {m n : Nat} (h : m % 256 = n % 256) : byte m = byte n := by
  apply UInt8.toNat_inj.1
  rw [byte_toNat, byte_toNat, h]

/-- The low bits of a whole number, as `&` with a mask takes them of any sign. -/
def lowBits (bits : Nat) (n : Int) : Nat := (n % 2 ^ bits).toNat

theorem lowBits_lt (bits : Nat) (n : Int) : lowBits bits n < 2 ^ bits := by
  have hpos : (0 : Int) < 2 ^ bits := Int.pow_pos (by decide)
  have hlt := Int.emod_lt_of_pos n hpos
  have hle := Int.emod_nonneg n hpos.ne'
  have hcast : ((2 ^ bits : Nat) : Int) = 2 ^ bits := by push_cast; rfl
  unfold lowBits
  omega

theorem lowBits_natCast (bits n : Nat) : lowBits bits n = n % 2 ^ bits := by
  have hcast : ((2 ^ bits : Nat) : Int) = 2 ^ bits := by push_cast; rfl
  rw [lowBits, ← hcast, ← Int.natCast_emod, Int.toNat_natCast]

/-! ## Check bytes -/

/-- The XOR of all bytes. -/
def xorSum (bs : Bytes) : UInt8 := bs.foldl (· ^^^ ·) 0

/-- A packet body with its check byte. -/
def sealed (bs : Bytes) : Bytes := bs ++ [xorSum bs]

@[simp] theorem sealed_length (bs : Bytes) : (sealed bs).length = bs.length + 1 := by
  simp [sealed]

theorem foldl_xor (a : UInt8) (bs : Bytes) : bs.foldl (· ^^^ ·) a = a ^^^ xorSum bs := by
  induction bs generalizing a with
  | nil => simp [xorSum]
  | cons b bs ih =>
    rw [xorSum, List.foldl_cons, List.foldl_cons, ih, ih (0 ^^^ b), UInt8.zero_xor, UInt8.xor_assoc]

@[simp] theorem xorSum_nil : xorSum [] = 0 := rfl

@[simp] theorem xorSum_cons (b : UInt8) (bs : Bytes) : xorSum (b :: bs) = b ^^^ xorSum bs := by
  rw [xorSum, List.foldl_cons, UInt8.zero_xor, foldl_xor]

theorem xorSum_append (as bs : Bytes) : xorSum (as ++ bs) = xorSum as ^^^ xorSum bs := by
  rw [xorSum, List.foldl_append, foldl_xor]
  rfl

theorem xorSum_eq_zero {bs : Bytes} (h : ∀ b ∈ bs, b = 0) : xorSum bs = 0 := by
  induction bs with
  | nil => rfl
  | cons b bs ih =>
    rw [xorSum_cons, h b (.head _), ih fun c hc => h c (.tail _ hc), UInt8.xor_self]

/-- What changing one byte does to the XOR of all. -/
theorem xorSum_set {bs : Bytes} {k : Nat} (hk : k < bs.length) (b : UInt8) :
    xorSum (bs.set k b) = xorSum bs ^^^ (bs.getD k 0 ^^^ b) := by
  induction bs generalizing k with
  | nil => simp at hk
  | cons c bs ih =>
    cases k with
    | zero =>
      simp only [List.set_cons_zero, xorSum_cons, List.getD_cons_zero]
      rw [UInt8.xor_comm c (xorSum bs), UInt8.xor_assoc, ← UInt8.xor_assoc c c, UInt8.xor_self,
        UInt8.zero_xor, UInt8.xor_comm]
    | succ k =>
      simp only [List.set_cons_succ, xorSum_cons, List.getD_cons_succ]
      rw [ih (by simpa using hk), UInt8.xor_assoc]

theorem xor_eq_zero {a b : UInt8} : a ^^^ b = 0 ↔ a = b := by
  rw [← UInt8.toBitVec_inj, UInt8.toBitVec_xor, ← UInt8.toBitVec_inj]
  exact BitVec.xor_eq_zero_iff

/-! ## Little-endian fields -/

def le16 (n : Nat) : Bytes := [byte n, byte (n / 256)]

def le32 (n : Nat) : Bytes := le16 n ++ le16 (n / 65536)

def le64 (n : Nat) : Bytes := le32 n ++ le32 (n / 2 ^ 32)

/-- The 16-bit value of a low and a high byte. -/
def word16 (lo hi : UInt8) : Nat := lo.toNat ||| hi.toNat <<< 8

theorem word16_eq (lo hi : UInt8) : word16 lo hi = lo.toNat + 256 * hi.toNat := by
  have h : lo.toNat < 2 ^ 8 := lo.toNat_lt
  rw [word16, Nat.or_comm, ← Nat.shiftLeft_add_eq_or_of_lt h, Nat.shiftLeft_eq]
  omega

theorem word16_lt (lo hi : UInt8) : word16 lo hi < 65536 := by
  have h₁ := lo.toNat_lt
  have h₂ := hi.toNat_lt
  rw [word16_eq]
  omega

/-- A 16-bit number survives being split into its two bytes. -/
theorem word16_byte {n : Nat} (h : n < 65536) : word16 (byte n) (byte (n / 256)) = n := by
  rw [word16_eq, byte_toNat, byte_toNat]
  omega

/-- A low and a high byte survive being made a 16-bit number. -/
theorem le16_word16 (lo hi : UInt8) : le16 (word16 lo hi) = [lo, hi] := by
  have hlo := lo.toNat_lt
  have hhi := hi.toNat_lt
  have h₁ : byte (word16 lo hi) = byte lo.toNat := byte_congr (by rw [word16_eq]; omega)
  have h₂ : byte (word16 lo hi / 256) = byte hi.toNat := byte_congr (by rw [word16_eq]; omega)
  rw [le16, h₁, h₂, byte_of_toNat, byte_of_toNat]

theorem le16_congr {m n : Nat} (h : m % 2 ^ 16 = n % 2 ^ 16) : le16 m = le16 n := by
  have h₁ : byte m = byte n := byte_congr (by omega)
  have h₂ : byte (m / 256) = byte (n / 256) := byte_congr (by omega)
  rw [le16, h₁, h₂, le16]

theorem le32_congr {m n : Nat} (h : m % 2 ^ 32 = n % 2 ^ 32) : le32 m = le32 n := by
  have h₁ : le16 m = le16 n := le16_congr (by omega)
  have h₂ : le16 (m / 65536) = le16 (n / 65536) := le16_congr (by omega)
  rw [le32, h₁, h₂, le32]

@[simp] theorem le16_length (n : Nat) : (le16 n).length = 2 := rfl

@[simp] theorem le32_length (n : Nat) : (le32 n).length = 4 := rfl

@[simp] theorem le64_length (n : Nat) : (le64 n).length = 8 := rfl

/-! ## Padding and cutting -/

def zeros (n : Nat) : Bytes := List.replicate n 0

@[simp] theorem zeros_length (n : Nat) : (zeros n).length = n := by simp [zeros]

/-- The first `n` bytes, or all of them and zeros up to `n`. -/
def ljust (n : Nat) (bs : Bytes) : Bytes := bs.take n ++ zeros (n - bs.length)

@[simp] theorem ljust_length (n : Nat) (bs : Bytes) : (ljust n bs).length = n := by
  simp [ljust]
  omega

theorem take_append_zeros (n : Nat) (bs : Bytes) : (bs ++ zeros n).take n = ljust n bs := by
  rw [List.take_append, zeros, List.take_replicate, Nat.min_eq_left (Nat.sub_le ..)]
  rfl

/-- `target[:n] = bs`. -/
def setFront (target : Bytes) (n : Nat) (bs : Bytes) : Bytes := bs ++ target.drop n

theorem setFront_zeros (n : Nat) (bs : Bytes) :
    setFront (zeros n) bs.length (bs.take n) = ljust n bs := by
  rw [setFront, zeros, List.drop_replicate]
  rfl

theorem ljust_self {n : Nat} {bs : Bytes} (h : bs.length = n) : ljust n bs = bs := by
  simp [ljust, ← h, zeros]

/-- The `n` bytes from `i` on. -/
def slice (bs : Bytes) (i n : Nat) : Bytes := (bs.drop i).take n

theorem slice_length {bs : Bytes} {i n : Nat} (h : i + n ≤ bs.length) :
    (slice bs i n).length = n := by
  simp [slice]
  omega

/-- A byte of a slice. -/
theorem getD_of_slice {as bs : Bytes} {i n : Nat} (h : slice as i n = bs) {j : Nat} (hj : j < n) :
    as.getD (i + j) 0 = bs.getD j 0 := by
  rw [← h, slice, List.getD_eq_getElem?_getD, List.getD_eq_getElem?_getD,
    List.getElem?_take_of_lt hj, List.getElem?_drop]

/-- The last byte. -/
theorem getD_concat {bs : Bytes} {n : Nat} (h : bs.length = n) (b : UInt8) :
    (bs ++ [b]).getD n 0 = b := by
  rw [List.getD_eq_getElem?_getD, ← h, List.getElem?_concat_length]
  rfl

/-- The check byte of a sealed body is right. -/
theorem check_sealed {bs : Bytes} {n : Nat} (h : bs.length = n) :
    xorSum ((sealed bs).take n) = (sealed bs).getD n 0 := by
  rw [sealed, List.take_left' h, getD_concat h]

theorem getD_take {bs : Bytes} {i n : Nat} (h : i < n) : (bs.take n).getD i 0 = bs.getD i 0 := by
  rw [List.getD_eq_getElem?_getD, List.getElem?_take_of_lt h, List.getD_eq_getElem?_getD]

theorem slice_one {bs : Bytes} {i : Nat} (h : i + 1 ≤ bs.length) : slice bs i 1 = [bs.getD i 0] := by
  rw [slice, List.getD_eq_getElem?_getD, List.getElem?_eq_getElem h, List.drop_eq_getElem_cons h]
  rfl

/-- Bytes are all but the last of them and the last. -/
theorem take_append_getD {bs : Bytes} {n : Nat} (h : bs.length = n + 1) :
    bs.take n ++ [bs.getD n 0] = bs := by
  have hlast : bs.drop n = [bs.getD n 0] := by
    rw [← slice_one (by omega), slice, List.take_of_length_le (by rw [List.length_drop]; omega)]
  rw [← hlast, List.take_append_drop]

/-- A check byte is right if the XOR of the bytes with it is zero. -/
theorem check_iff {bs : Bytes} {n : Nat} (h : n < bs.length) :
    xorSum (bs.take n) = bs.getD n 0 ↔ xorSum (bs.take (n + 1)) = 0 := by
  have htake : bs.take (n + 1) = bs.take n ++ [bs.getD n 0] := by
    rw [List.take_succ_eq_append_getElem h, List.getD_eq_getElem?_getD, List.getElem?_eq_getElem h]
    rfl
  rw [htake, xorSum_append, xorSum_cons, xorSum_nil, UInt8.xor_zero, xor_eq_zero]

theorem slice_set (bs : Bytes) (i k n : Nat) (b : UInt8) :
    slice (bs.set (i + k) b) i n = (slice bs i n).set k b := by
  rw [slice, List.drop_set, if_neg (by omega), List.take_set, Nat.add_sub_cancel_left]
  rfl

/-- A byte outside of a slice does not change it. -/
theorem slice_set_of_outside {bs : Bytes} {i p n : Nat} (hp : p < i ∨ i + n ≤ p) (b : UInt8) :
    slice (bs.set p b) i n = slice bs i n := by
  rw [slice, List.drop_set]
  split
  · rfl
  · rw [List.take_set, List.set_eq_of_length_le (by rw [List.length_take]; omega)]
    rfl

theorem slice_add (bs : Bytes) (i n m : Nat) : slice bs i (n + m) = slice bs i n ++ slice bs (i + n) m := by
  rw [slice, List.take_add, List.drop_drop]
  rfl

/-- The two parts of a slice. -/
theorem slice_parts {bs xs ys : Bytes} {i n m : Nat} (h : slice bs i (n + m) = xs ++ ys)
    (hn : xs.length = n) : slice bs i n = xs ∧ slice bs (i + n) m = ys := by
  constructor
  · have ht := congrArg (List.take n) h
    rwa [slice, List.take_take, Nat.min_eq_left (Nat.le_add_right n m), List.take_left' hn] at ht
  · have hd := congrArg (List.drop n) h
    rwa [slice, List.drop_take, List.drop_drop, Nat.add_sub_cancel_left, List.drop_left' hn] at hd

theorem slice_append_left {as bs : Bytes} {i n : Nat} (h : i + n ≤ as.length) :
    slice (as ++ bs) i n = slice as i n := by
  rw [slice, slice, List.drop_append_of_le_length (by omega),
    List.take_append_of_le_length (by simp; omega)]

theorem slice_append_right {as bs : Bytes} {i n : Nat} (h : as.length ≤ i) :
    slice (as ++ bs) i n = slice bs (i - as.length) n := by
  rw [slice, slice, List.drop_append, List.drop_eq_nil_of_le h, List.nil_append]

theorem slice_self {bs : Bytes} {n : Nat} (h : bs.length = n) : slice bs 0 n = bs := by
  simp [slice, ← h]

/-- Padding up to a multiple of four bytes. -/
def pad4 (n : Nat) : Nat := (n + 3) / 4 * 4

theorem le_pad4 (n : Nat) : n ≤ pad4 n := by
  unfold pad4
  omega

theorem or_and_distrib (x y z : UInt8) : (x ||| y) &&& z = (x &&& z) ||| (y &&& z) := by
  rw [← UInt8.toBitVec_inj]
  simp [BitVec.and_or_distrib_right]

end Lib
