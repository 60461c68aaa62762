import QccGui.Gui.Headers
import QccGui.Lib.Crc

/-!
# Bit errors in headers

The CRC-8 of the headers and of the response to CHIP_ID_READ, as a polynomial over the field of two
elements, and the changed bits that it finds.

* `messagePolynomial`: the polynomial of bytes that are read most significant bit first.
* `flipBits`: the bytes with some bits changed, counted from the first byte's most significant bit.
* `crc8_detects`: the table computes the remainder modulo `X ^ 8 + X ^ 2 + X + 1`, so no change within
  eight consecutive bits and none of an odd number of bits is accepted.
-/

namespace QccGui

open Lib Polynomial

/-! ## The table -/

noncomputable def messagePolynomial (data : Bytes) : (ZMod 2)[X] :=
  Crc.ofWords (data.map UInt8.toBitVec)

/-- The polynomial of a byte. -/
noncomputable def bytePolynomial (b : UInt8) : (ZMod 2)[X] := Crc.ofBitVec b.toBitVec

theorem generator_seven : Crc.generator 7#8 = X ^ 8 + X ^ 2 + X + 1 := by
  have hbits : Crc.ofBitVec 7#8 = 1 + X + X ^ 2 := by
    simp [Crc.ofBitVec, Finset.sum_range_succ]
  rw [Crc.generator, hbits]
  ring

theorem shift_toBitVec (c : UInt8) :
    (if c &&& 0x80 ≠ 0 then (c <<< 1) ^^^ 0x07 else c <<< 1).toBitVec = Crc.shift 7#8 c.toBitVec := by
  have hall : ∀ v : BitVec 8, (if UInt8.ofBitVec v &&& 0x80 ≠ 0
      then (UInt8.ofBitVec v <<< 1) ^^^ 0x07 else UInt8.ofBitVec v <<< 1).toBitVec =
        Crc.shift 7#8 v := by decide
  exact hall c.toBitVec

theorem crc8Entry_toBitVec (c : UInt8) : (crc8Entry c).toBitVec = Crc.entry 7#8 c.toBitVec := by
  have hshifts : ∀ n c, ((List.range n).foldl (fun c _ =>
      if c &&& 0x80 ≠ 0 then (c <<< 1) ^^^ 0x07 else c <<< 1) c : UInt8).toBitVec =
        (List.range n).foldl (fun c _ => Crc.shift 7#8 c) c.toBitVec := by
    intro n c
    induction n with
    | zero => rfl
    | succ n ih =>
      rw [List.range_succ, List.foldl_append, List.foldl_append, ← ih]
      exact shift_toBitVec _
  exact hshifts 8 c

theorem crc8_toBitVec (data : Bytes) :
    (crc8 data).toBitVec = Crc.crc 7#8 (data.map UInt8.toBitVec) := by
  induction data using List.reverseRecOn with
  | nil => rfl
  | append_singleton data b ih =>
    rw [crc8, List.foldl_append, List.map_append, Crc.crc, List.foldl_append]
    simp only [List.map_cons, List.map_nil, List.foldl_cons, List.foldl_nil]
    rw [crc8Entry_toBitVec, UInt8.toBitVec_xor]
    rw [crc8, Crc.crc] at ih
    rw [ih]

/-- The table computes the remainder. -/
theorem crc8_eq_remainder (data : Bytes) : bytePolynomial (crc8 data) =
    (messagePolynomial data * X ^ 8) %ₘ (X ^ 8 + X ^ 2 + X + 1) := by
  rw [bytePolynomial, crc8_toBitVec, Crc.ofBitVec_crc _ (by decide), generator_seven]
  rfl

/-! ## Changed bits -/

/-- Bit `p` changes; the most significant bit of a byte is its first. -/
def flipBit (raw : Bytes) (p : Nat) : Bytes :=
  raw.modify (p / 8) (· ^^^ (0x80 >>> UInt8.ofNat (p % 8)))

def flipBits (S : Finset Nat) (raw : Bytes) : Bytes := S.sort.foldl flipBit raw

@[simp] theorem flipBit_length (raw : Bytes) (p : Nat) : (flipBit raw p).length = raw.length := by
  rw [flipBit, List.length_modify]

theorem bytePolynomial_mask {k : Nat} (hk : k < 8) :
    Crc.ofBitVec (0x80 >>> UInt8.ofNat k).toBitVec = X ^ (7 - k) := by
  rw [← Crc.ofBitVec_twoPow (w := 8) (i := 7 - k) (by omega)]
  congr 1
  have hall : ∀ k : Fin 8, (0x80 >>> UInt8.ofNat k.val : UInt8).toBitVec =
      BitVec.twoPow 8 (7 - k.val) := by decide
  exact hall ⟨k, hk⟩

/-- What a changed bit adds. -/
theorem messagePolynomial_flipBit {raw : Bytes} {p : Nat} (hp : p < 8 * raw.length) :
    messagePolynomial (flipBit raw p) = messagePolynomial raw + X ^ (8 * raw.length - 1 - p) := by
  have hmap : (flipBit raw p).map UInt8.toBitVec = (raw.map UInt8.toBitVec).modify (p / 8)
      (· ^^^ (0x80 >>> UInt8.ofNat (p % 8)).toBitVec) := by
    apply List.ext_getElem?
    intro i
    rw [flipBit, List.getElem?_map, List.getElem?_modify, List.getElem?_modify, List.getElem?_map]
    cases raw[i]? <;> simp
    split <;> simp
  have hexp : 7 - p % 8 + 8 * (raw.length - 1 - p / 8) = 8 * raw.length - 1 - p := by omega
  rw [messagePolynomial, hmap, Crc.ofWords_modify_xor _ (by simp; omega),
    bytePolynomial_mask (Nat.mod_lt _ (by decide)), List.length_map, ← pow_add, hexp]
  rfl

theorem messagePolynomial_flipBits {raw : Bytes} {S : Finset Nat}
    (hS : S ⊆ Finset.range (8 * raw.length)) : messagePolynomial (flipBits S raw) =
      messagePolynomial raw + ∑ p ∈ S, X ^ (8 * raw.length - 1 - p) := by
  have hlist : ∀ (ps : List Nat) (raw : Bytes), (∀ p ∈ ps, p < 8 * raw.length) →
      messagePolynomial (ps.foldl flipBit raw) =
        messagePolynomial raw + (ps.map fun p => X ^ (8 * raw.length - 1 - p)).sum := by
    intro ps
    induction ps with
    | nil => simp
    | cons p ps ih =>
      intro raw hps
      have htail : ∀ q ∈ ps, q < 8 * (flipBit raw p).length := fun q hq => by
        rw [flipBit_length]
        exact hps q (.tail _ hq)
      rw [List.foldl_cons, ih _ htail, messagePolynomial_flipBit (hps p (.head _)), flipBit_length,
        List.map_cons, List.sum_cons, add_assoc]
  have hsum : ∑ p ∈ S, (X : (ZMod 2)[X]) ^ (8 * raw.length - 1 - p) =
      (S.sort.map fun p => X ^ (8 * raw.length - 1 - p)).sum := by
    rw [Finset.sum_eq_multiset_sum, ← Multiset.sum_coe, ← Multiset.map_coe, Finset.sort_eq]
  rw [flipBits, hlist _ _ fun p hp => by simpa using hS (by simpa using hp), hsum]

@[simp] theorem flipBits_length (S : Finset Nat) (raw : Bytes) :
    (flipBits S raw).length = raw.length := by
  rw [flipBits]
  generalize S.sort = ps
  induction ps generalizing raw with
  | nil => rfl
  | cons p ps ih => rw [List.foldl_cons, ih, flipBit_length]

/-- The changed bits are within eight consecutive bits, or their number is odd. -/
def Detected (S : Finset Nat) : Prop := (S.Nonempty ∧ ∃ a, S ⊆ Finset.Ico a (a + 8)) ∨ Odd S.card

/-- The check byte of a record is right. -/
theorem dvd_messagePolynomial {raw : Bytes} {n : Nat} (hl : raw.length = n + 1) :
    X ^ 8 + X ^ 2 + X + 1 ∣ messagePolynomial raw ↔ crc8 (raw.take n) = raw.getD n 0 := by
  have hwords : messagePolynomial raw = Crc.ofWords
      ((raw.take n).map UInt8.toBitVec ++ [(raw.getD n 0).toBitVec]) := by
    rw [messagePolynomial, ← List.map_singleton, ← List.map_append, take_append_getD hl]
  rw [hwords, ← generator_seven, Crc.dvd_ofWords_snoc _ (by decide), ← crc8_toBitVec,
    UInt8.toBitVec_inj]

/-- What is added by changed bits that are found is not a multiple of the generator. -/
theorem not_dvd_of_detected {S : Finset Nat} {n : Nat} (hS : S ⊆ Finset.range (8 * n))
    (hd : Detected S) :
    ¬ X ^ 8 + X ^ 2 + X + 1 ∣ ∑ p ∈ S, (X : (ZMod 2)[X]) ^ (8 * n - 1 - p) := by
  have hlt : ∀ p ∈ S, p < 8 * n := fun p hp => Finset.mem_range.mp (hS hp)
  have hinj : Set.InjOn (fun p => 8 * n - 1 - p) S := fun p hp q hq h => by
    have h₁ := hlt p hp
    have h₂ := hlt q hq
    dsimp only at h
    omega
  rw [← Finset.sum_image (f := fun e => (X : (ZMod 2)[X]) ^ e) hinj]
  rcases hd with ⟨hne, a, ha⟩ | hodd
  · have hdeg : (X ^ 8 + X ^ 2 + X + 1 : (ZMod 2)[X]).degree = 8 := by
      rw [← generator_seven, Crc.generator_degree]
      rfl
    refine Crc.not_dvd_burst (m := 8 * n - 1 - S.max' hne) (n := 8) (by simp) hdeg.ge
      (hne.image _) ?_
    rw [Finset.forall_mem_image]
    intro p hp
    have h₁ := S.le_max' p hp
    have h₂ := hlt _ (S.max'_mem hne)
    have h₃ := Finset.mem_Ico.mp (ha hp)
    have h₄ := Finset.mem_Ico.mp (ha (S.max'_mem hne))
    omega
  · refine Crc.not_dvd_odd ?_ (by rwa [Finset.card_image_of_injOn hinj])
    simp only [eval_add, eval_pow, eval_X, eval_one]
    decide

theorem check_flipBits {raw : Bytes} {n : Nat} {S : Finset Nat} (hl : raw.length = n + 1)
    (hc : crc8 (raw.take n) = raw.getD n 0) (hS : S ⊆ Finset.range (8 * raw.length))
    (hd : Detected S) :
    decide (crc8 ((flipBits S raw).take n) = (flipBits S raw).getD n 0) = false := by
  rw [decide_eq_false_iff_not, ← dvd_messagePolynomial ((flipBits_length S raw).trans hl),
    messagePolynomial_flipBits hS, dvd_add_right ((dvd_messagePolynomial hl).mpr hc)]
  exact not_dvd_of_detected hS hd

/-! ## Headers -/

/-- The table computes the remainder of the message times `X ^ 8`; a header or a response to
CHIP_ID_READ that is accepted with a right check byte is accepted with a wrong one when bits within
eight consecutive ones, or an odd number of bits, have changed. -/
theorem crc8_detects :
    (∀ data : Bytes, bytePolynomial (crc8 data) =
      (messagePolynomial data * X ^ 8) %ₘ (X ^ 8 + X ^ 2 + X + 1)) ∧
    ∀ (raw : Bytes) (S : Finset Nat), S ⊆ Finset.range (8 * raw.length) → Detected S →
      (∀ h, QccHeaderRx.fromBytes raw = .ok (h, true) →
        ∃ h', QccHeaderRx.fromBytes (flipBits S raw) = .ok (h', false)) ∧
      (∀ h, QccHeaderTx.fromBytes raw = .ok h → h.checksumOk = true →
        ∃ h', QccHeaderTx.fromBytes (flipBits S raw) = .ok h' ∧ h'.checksumOk = false) ∧
      ∀ h, ChipIdResponse.fromBytes raw = .ok h → h.checksumOk = true →
        ∃ h', ChipIdResponse.fromBytes (flipBits S raw) = .ok h' ∧ h'.checksumOk = false := by
  refine ⟨crc8_eq_remainder, fun raw S hS hd => ⟨fun h hok => ?_, fun h hok hc => ?_,
    fun h hok hc => ?_⟩⟩
  · obtain ⟨hl, hx⟩ := checked_eq_ok hok
    have hcheck := check_flipBits (n := 89) hl (of_decide_eq_true (Prod.mk.inj hx).2) hS hd
    refine ⟨QccHeaderRx.decode (flipBits S raw), ?_⟩
    rw [QccHeaderRx.fromBytes, requireSize_eq_ok.2 ((flipBits_length S raw).trans hl), hcheck]
    rfl
  · obtain ⟨hl, rfl⟩ := checked_eq_ok hok
    have hcheck := check_flipBits (n := 89) hl (of_decide_eq_true hc) hS hd
    refine ⟨QccHeaderTx.decode (flipBits S raw), ?_, hcheck⟩
    rw [QccHeaderTx.fromBytes, requireSize_eq_ok.2 ((flipBits_length S raw).trans hl)]
    rfl
  · obtain ⟨hl, rfl⟩ := checked_eq_ok hok
    have hcheck := check_flipBits (n := 9) hl (of_decide_eq_true hc) hS hd
    refine ⟨⟨u8At (flipBits S raw) 0, u64At (flipBits S raw) 1, _⟩, ?_, hcheck⟩
    rw [ChipIdResponse.fromBytes, requireSize_eq_ok.2 ((flipBits_length S raw).trans hl)]
    rfl

/-- Two bits of a header that lie within eight, and three bits of a chip id that do not. -/
theorem crc8_detects_values :
    let command : Bytes := List.replicate 89 0xA5
    let chip : Bytes := List.replicate 9 0xA5
    (∃ h', QccHeaderRx.fromBytes (flipBits {100, 107} (command ++ [crc8 command])) = .ok (h', false)) ∧
    (∃ h', QccHeaderTx.fromBytes (flipBits {100, 107} (command ++ [crc8 command])) = .ok h' ∧
      h'.checksumOk = false) ∧
    ∃ h', ChipIdResponse.fromBytes (flipBits {0, 33, 79} (chip ++ [crc8 chip])) = .ok h' ∧
      h'.checksumOk = false := by
  intro command chip
  have hcommand := crc8_detects.2 (command ++ [crc8 command]) {100, 107}
    (by simp [Finset.insert_subset_iff, command])
    (.inl ⟨⟨100, by decide⟩, 100, by decide⟩)
  have hchip := crc8_detects.2 (chip ++ [crc8 chip]) {0, 33, 79}
    (by simp [Finset.insert_subset_iff, chip]) (.inr (by decide))
  obtain ⟨htx, hcheck⟩ := @QccHeaderTx.fromBytes_append command rfl
  exact ⟨hcommand.1 _ (@QccHeaderRx.fromBytes_append command rfl), hcommand.2.1 _ htx hcheck,
    hchip.2.2 _ (@ChipIdResponse.fromBytes_append chip rfl) rfl⟩

end QccGui
