import Mathlib.Algebra.Field.ZMod
import Mathlib.RingTheory.AdjoinRoot

/-!
# Cyclic redundancy checks

Words of `w` bits are polynomials over the field of two elements, the most significant bit first. The
check word of a message is the remainder of the message times `X ^ w`.

* `ofBitVec`, `ofWords`: the polynomials of a word and of a message.
* `generator`: the polynomial of degree `w` with the lower coefficients `g`.
* `crc`: the computation with a table of shifts; `ofBitVec_crc`: it is the remainder.
* `dvd_ofWords_snoc`: a message and its check word are a multiple of the generator.
* `not_dvd_burst`, `not_dvd_odd`: the errors that are none.
-/

namespace Lib.Crc

open Polynomial

variable {w : Nat}

/-! ## Words as polynomials -/

noncomputable def ofBitVec (v : BitVec w) : (ZMod 2)[X] :=
  ∑ i ∈ Finset.range w, if v.getLsbD i then X ^ i else 0

/-- The polynomial of a message, the first word on top. -/
noncomputable def ofWords (data : List (BitVec w)) : (ZMod 2)[X] :=
  data.foldl (fun p v => p * X ^ w + ofBitVec v) 0

theorem coeff_ofBitVec (v : BitVec w) (i : Nat) :
    (ofBitVec v).coeff i = if v.getLsbD i then 1 else 0 := by
  have hterm : ∀ j ∈ Finset.range w, (if v.getLsbD j then X ^ j else 0 : (ZMod 2)[X]).coeff i =
      if i = j then (if v.getLsbD i then 1 else 0) else 0 := by
    intro j _
    by_cases hij : i = j
    · subst hij
      by_cases hv : v.getLsbD i <;> simp [hv]
    · by_cases hv : v.getLsbD j <;> simp [hv, hij, coeff_X_pow]
  rw [ofBitVec, finsetSum_coeff, Finset.sum_congr rfl hterm, Finset.sum_ite_eq]
  by_cases hi : i < w
  · rw [if_pos (Finset.mem_range.mpr hi)]
  · rw [if_neg (by simpa using hi), BitVec.getLsbD_of_ge v i (Nat.le_of_not_lt hi),
      if_neg Bool.false_ne_true]

theorem degree_ofBitVec_lt (v : BitVec w) : (ofBitVec v).degree < w := by
  rw [degree_lt_iff_coeff_zero]
  intro i hi
  rw [coeff_ofBitVec, BitVec.getLsbD_of_ge v i hi, if_neg Bool.false_ne_true]

theorem ofBitVec_injective : Function.Injective (ofBitVec (w := w)) := by
  intro u v h
  apply BitVec.eq_of_getLsbD_eq
  intro i _
  have hi := congrArg (fun p => p.coeff i) h
  simp only [coeff_ofBitVec] at hi
  cases hu : u.getLsbD i <;> cases hv : v.getLsbD i <;> simp_all

@[simp] theorem ofBitVec_zero : ofBitVec 0#w = 0 := by
  ext i
  simp [coeff_ofBitVec]

theorem ofBitVec_xor (u v : BitVec w) : ofBitVec (u ^^^ v) = ofBitVec u + ofBitVec v := by
  ext i
  rw [coeff_add, coeff_ofBitVec, coeff_ofBitVec, coeff_ofBitVec, BitVec.getLsbD_xor]
  cases u.getLsbD i <;> cases v.getLsbD i <;> decide

/-- A shift multiplies by `X`; the bit that is shifted out is the highest coefficient. -/
theorem ofBitVec_shift (v : BitVec w) (hw : 0 < w) :
    ofBitVec (v <<< 1) + (if v.msb then X ^ w else 0) = X * ofBitVec v := by
  ext i
  rw [coeff_add, coeff_ofBitVec, BitVec.getLsbD_shiftLeft, BitVec.msb_eq_getLsbD_last]
  cases i with
  | zero =>
    rw [coeff_X_mul_zero]
    cases v.getLsbD (w - 1) <;> simp [hw.ne, coeff_X_pow]
  | succ i =>
    rw [coeff_X_mul, coeff_ofBitVec]
    rcases Nat.lt_trichotomy (i + 1) w with hi | hi | hi
    · have hne : w ≠ i + 1 := by omega
      cases v.getLsbD (w - 1) <;> simp [hi, coeff_X_pow, hne.symm]
    · subst hi
      rw [Nat.add_sub_cancel]
      cases v.getLsbD i <;> simp [coeff_X_pow]
    · have hv : v.getLsbD i = false := BitVec.getLsbD_of_ge v i (by omega)
      have hne : i + 1 ≠ w := by omega
      have hlt : ¬ i + 1 < w := by omega
      cases v.getLsbD (w - 1) <;> simp [hv, hlt, coeff_X_pow, hne]

@[simp] theorem ofWords_snoc (data : List (BitVec w)) (v : BitVec w) :
    ofWords (data ++ [v]) = ofWords data * X ^ w + ofBitVec v := by
  rw [ofWords, List.foldl_append]
  rfl

@[simp] theorem ofWords_nil : ofWords ([] : List (BitVec w)) = 0 := rfl

theorem ofWords_append (as bs : List (BitVec w)) :
    ofWords (as ++ bs) = ofWords as * X ^ (w * bs.length) + ofWords bs := by
  induction bs using List.reverseRecOn with
  | nil => simp
  | append_singleton bs v ih =>
    rw [← List.append_assoc, ofWords_snoc, ofWords_snoc, ih, List.length_append,
      List.length_singleton, Nat.mul_succ, pow_add]
    ring

theorem ofWords_cons (v : BitVec w) (data : List (BitVec w)) :
    ofWords (v :: data) = ofBitVec v * X ^ (w * data.length) + ofWords data := by
  rw [← List.singleton_append, ofWords_append, ← List.nil_append [v], ofWords_snoc]
  simp

theorem ofBitVec_twoPow {i : Nat} (hi : i < w) : ofBitVec (BitVec.twoPow w i) = X ^ i := by
  ext j
  rw [coeff_ofBitVec, BitVec.getLsbD_twoPow, coeff_X_pow]
  simp [hi, eq_comm]

/-- What changing bits of a word adds to the message. -/
theorem ofWords_modify_xor (e : BitVec w) {data : List (BitVec w)} {i : Nat} (hi : i < data.length) :
    ofWords (data.modify i (· ^^^ e)) =
      ofWords data + ofBitVec e * X ^ (w * (data.length - 1 - i)) := by
  induction data generalizing i with
  | nil => simp at hi
  | cons v data ih =>
    cases i with
    | zero =>
      rw [List.modify_zero_cons, ofWords_cons, ofWords_cons, ofBitVec_xor, List.length_cons,
        Nat.add_sub_cancel, Nat.sub_zero]
      ring
    | succ i =>
      have hlt : i < data.length := by simpa using hi
      have hexp : (v :: data).length - 1 - (i + 1) = data.length - 1 - i := by
        rw [List.length_cons]
        omega
      rw [List.modify_succ_cons, ofWords_cons, ofWords_cons, List.length_modify, ih hlt, hexp]
      ring

/-! ## The table -/

noncomputable def generator (g : BitVec w) : (ZMod 2)[X] := X ^ w + ofBitVec g

/-- One shift: a bit that is shifted out is replaced by the generator's lower coefficients. -/
def shift (g c : BitVec w) : BitVec w := if c.msb then (c <<< 1) ^^^ g else c <<< 1

/-- An entry of the table. -/
def entry (g c : BitVec w) : BitVec w := (List.range w).foldl (fun c _ => shift g c) c

def crc (g : BitVec w) (data : List (BitVec w)) : BitVec w :=
  data.foldl (fun c v => entry g (c ^^^ v)) 0

variable (g : BitVec w)

theorem generator_monic : (generator g).Monic := monic_X_pow_add (degree_ofBitVec_lt g)

theorem generator_degree : (generator g).degree = w := by
  rw [generator, add_comm, degree_add_eq_right_of_degree_lt, degree_X_pow]
  rw [degree_X_pow]
  exact degree_ofBitVec_lt g

theorem mk_shift (hw : 0 < w) (c : BitVec w) :
    AdjoinRoot.mk (generator g) (ofBitVec (shift g c)) =
      AdjoinRoot.mk (generator g) (X * ofBitVec c) := by
  rw [← ofBitVec_shift c hw]
  cases hc : c.msb with
  | false => simp [shift, hc]
  | true =>
    rw [shift, if_pos hc, ofBitVec_xor, AdjoinRoot.mk_eq_mk]
    refine ⟨1, ?_⟩
    simp only [if_true, generator, mul_one]
    rw [add_sub_add_left_eq_sub, CharTwo.sub_eq_add, add_comm]

theorem mk_entry (hw : 0 < w) (c : BitVec w) :
    AdjoinRoot.mk (generator g) (ofBitVec (entry g c)) =
      AdjoinRoot.mk (generator g) (X ^ w * ofBitVec c) := by
  have hshifts : ∀ n, AdjoinRoot.mk (generator g)
      (ofBitVec ((List.range n).foldl (fun c _ => shift g c) c)) =
        AdjoinRoot.mk (generator g) (X ^ n * ofBitVec c) := by
    intro n
    induction n with
    | zero => simp
    | succ n ih =>
      rw [List.range_succ, List.foldl_append, List.foldl_cons, List.foldl_nil, mk_shift g hw,
        map_mul, ih, ← map_mul, pow_succ', mul_assoc]
  exact hshifts w

/-- The check word is the message times `X ^ w`, up to multiples of the generator. -/
theorem mk_crc (hw : 0 < w) (data : List (BitVec w)) :
    AdjoinRoot.mk (generator g) (ofBitVec (crc g data)) =
      AdjoinRoot.mk (generator g) (ofWords data * X ^ w) := by
  induction data using List.reverseRecOn with
  | nil => simp [crc, ofWords, ofBitVec_zero]
  | append_singleton data v ih =>
    have hsnoc : crc g (data ++ [v]) = entry g (crc g data ^^^ v) := by
      rw [crc, List.foldl_append]
      rfl
    rw [hsnoc, mk_entry g hw, ofBitVec_xor, ofWords_snoc, map_mul, map_add, ih, ← map_add,
      ← map_mul, mul_comm]

/-- The table computes the remainder of the message times `X ^ w`. -/
theorem ofBitVec_crc (hw : 0 < w) (data : List (BitVec w)) :
    ofBitVec (crc g data) = (ofWords data * X ^ w) %ₘ generator g := by
  have hdvd := AdjoinRoot.mk_eq_mk.mp (mk_crc g hw data)
  rw [← modByMonic_eq_of_dvd_sub (generator_monic g) hdvd, eq_comm,
    modByMonic_eq_self_iff (generator_monic g), generator_degree]
  exact degree_ofBitVec_lt _

/-- A message with a check word is a multiple of the generator exactly if the check word is right. -/
theorem dvd_ofWords_snoc (hw : 0 < w) (data : List (BitVec w)) (v : BitVec w) :
    generator g ∣ ofWords (data ++ [v]) ↔ crc g data = v := by
  rw [ofWords_snoc, ← AdjoinRoot.mk_eq_zero, map_add, ← mk_crc g hw, ← map_add, ← ofBitVec_xor,
    AdjoinRoot.mk_eq_zero]
  refine ⟨fun h => ?_, fun h => by rw [h, BitVec.xor_self]; simp⟩
  have hzero : ofBitVec (crc g data ^^^ v) = 0 := by
    refine eq_zero_of_dvd_of_degree_lt h ?_
    rw [generator_degree]
    exact degree_ofBitVec_lt _
  exact BitVec.xor_eq_zero_iff.mp (ofBitVec_injective (hzero.trans ofBitVec_zero.symm))

/-! ## Errors -/

/-- Errors within as many consecutive bits as the generator has below its highest coefficient. -/
theorem not_dvd_burst {F : Type} [Field F] {g : F[X]} (hg : g.coeff 0 ≠ 0) {T : Finset Nat}
    {m n : Nat} (hn : (n : WithBot Nat) ≤ g.degree) (hT : T.Nonempty)
    (hm : ∀ e ∈ T, m ≤ e ∧ e < m + n) : ¬ g ∣ ∑ e ∈ T, (X : F[X]) ^ e := by
  intro hdvd
  have hfactor : ∑ e ∈ T, (X : F[X]) ^ e = (∑ e ∈ T, X ^ (e - m)) * X ^ m := by
    rw [Finset.sum_mul]
    refine Finset.sum_congr rfl fun e he => ?_
    rw [← pow_add, Nat.sub_add_cancel (hm e he).1]
  have hX : IsCoprime g (X ^ m) :=
    ((irreducible_X.coprime_iff_not_dvd).mpr (by rwa [X_dvd_iff])).symm.pow_right
  rw [hfactor] at hdvd
  have hdvd' := hX.dvd_of_dvd_mul_right hdvd
  have hdeg : (∑ e ∈ T, (X : F[X]) ^ (e - m)).degree < g.degree := by
    refine lt_of_lt_of_le ?_ hn
    rw [degree_lt_iff_coeff_zero]
    intro i hi
    rw [finsetSum_coeff]
    refine Finset.sum_eq_zero fun e he => ?_
    have hne : i ≠ e - m := by
      obtain ⟨hle, hlt⟩ := hm e he
      omega
    rw [coeff_X_pow, if_neg hne]
  have hzero := eq_zero_of_dvd_of_degree_lt hdvd' hdeg
  obtain ⟨e, he⟩ := hT
  have hcoeff : (∑ e ∈ T, (X : F[X]) ^ (e - m)).coeff (e - m) = 1 := by
    rw [finsetSum_coeff, Finset.sum_eq_single e]
    · rw [coeff_X_pow, if_pos rfl]
    · intro e' he' hne
      have hsub : e - m ≠ e' - m := by
        have h₁ := (hm e he).1
        have h₂ := (hm e' he').1
        omega
      rw [coeff_X_pow, if_neg hsub]
    · exact fun h => absurd he h
  rw [hzero, coeff_zero] at hcoeff
  exact zero_ne_one hcoeff

/-- An odd number of errors, for a generator that is zero at one. -/
theorem not_dvd_odd {g : (ZMod 2)[X]} (hg : g.eval 1 = 0) {T : Finset Nat} (hT : Odd T.card) :
    ¬ g ∣ ∑ e ∈ T, (X : (ZMod 2)[X]) ^ e := by
  rintro ⟨q, hq⟩
  have hone := congrArg (eval 1) hq
  simp only [eval_finsetSum, eval_pow, eval_X, one_pow, Finset.sum_const, eval_mul, hg, zero_mul,
    nsmul_eq_mul, mul_one] at hone
  exact absurd ((ZMod.natCast_eq_zero_iff_even).mp hone) (Nat.not_even_iff_odd.mpr hT)

end Lib.Crc
