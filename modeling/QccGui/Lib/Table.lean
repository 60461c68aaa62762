import Mathlib.Data.List.Induction
import Mathlib.Logic.Function.Basic

/-!
# Tables that are filled from rows

Rows are written into a table one after the other, each to the place that it is addressed to, or
nowhere.

* `fill`: the table after all rows. `lastFor`: the last row for a place.
* `fill_apply`: a place holds what the last row for it says.
* `fill_filter`: when rows can be left out.
-/

namespace Lib

variable {κ ν ρ : Type} [DecidableEq κ] {addr : ρ → Option κ} {val : ρ → ν} {t : κ → ν}

/-- One row. -/
def fillRow (addr : ρ → Option κ) (val : ρ → ν) (t : κ → ν) (r : ρ) : κ → ν :=
  match addr r with
  | none => t
  | some k => Function.update t k (val r)

def fill (addr : ρ → Option κ) (val : ρ → ν) (t : κ → ν) (rows : List ρ) : κ → ν :=
  rows.foldl (fillRow addr val) t

def lastFor (addr : ρ → Option κ) (rows : List ρ) (k : κ) : Option ρ :=
  (rows.filter fun r => addr r = some k).getLast?

theorem fill_append (rows rows' : List ρ) :
    fill addr val t (rows ++ rows') = fill addr val (fill addr val t rows) rows' :=
  List.foldl_append ..

theorem fill_snoc (rows : List ρ) (r : ρ) :
    fill addr val t (rows ++ [r]) = fillRow addr val (fill addr val t rows) r := by
  rw [fill_append]
  rfl

theorem lastFor_snoc (rows : List ρ) (r : ρ) (k : κ) :
    lastFor addr (rows ++ [r]) k = if addr r = some k then some r else lastFor addr rows k := by
  rw [lastFor, List.filter_append, List.getLast?_append]
  by_cases h : addr r = some k <;> simp [h, lastFor]

theorem addr_of_lastFor {rows : List ρ} {r : ρ} {k : κ} (h : lastFor addr rows k = some r) :
    r ∈ rows ∧ addr r = some k := by
  have hmem := List.mem_of_getLast? h
  rw [List.mem_filter] at hmem
  exact ⟨hmem.1, of_decide_eq_true hmem.2⟩

theorem lastFor_eq_none {rows : List ρ} {k : κ} :
    lastFor addr rows k = none ↔ ∀ r ∈ rows, addr r ≠ some k := by
  simp [lastFor]

/-- A place holds what the last row for it says, or what it held before. -/
theorem fill_apply (rows : List ρ) (k : κ) :
    fill addr val t rows k = ((lastFor addr rows k).map val).getD (t k) := by
  induction rows using List.reverseRecOn with
  | nil => rfl
  | append_singleton rows r ih =>
    rw [fill_snoc, lastFor_snoc, fillRow]
    cases h : addr r with
    | none => simpa using ih
    | some j =>
      by_cases hj : j = k
      · subst hj
        simp
      · have hne : some j ≠ some k := fun h => hj (Option.some.inj h)
        show Function.update _ j _ k = _
        rw [Function.update_of_ne (Ne.symm hj), if_neg hne]
        exact ih

/-- One row for each place fills the whole table. -/
theorem fill_of_forall {rows : List ρ} {t' : κ → ν}
    (hval : ∀ r ∈ rows, ∀ k, addr r = some k → val r = t' k)
    (hall : ∀ k, ∃ r ∈ rows, addr r = some k) : fill addr val t rows = t' := by
  funext k
  rw [fill_apply]
  cases h : lastFor addr rows k with
  | none =>
    obtain ⟨r, hr, hk⟩ := hall k
    exact absurd hk (lastFor_eq_none.1 h r hr)
  | some r =>
    obtain ⟨hr, hk⟩ := addr_of_lastFor h
    exact hval r hr k hk

/-- Rows that come with something that the table does not depend on. -/
theorem fill_map {ρ' : Type} {g : ρ' → ρ} (rows : List ρ') :
    fill (addr ∘ g) (val ∘ g) t rows = fill addr val t (rows.map g) := by
  rw [fill, fill, List.foldl_map]
  rfl

theorem lastFor_map {ρ' : Type} {g : ρ' → ρ} (rows : List ρ') (k : κ) :
    lastFor addr (rows.map g) k = (lastFor (addr ∘ g) rows k).map g := by
  rw [lastFor, List.filter_map, List.getLast?_map]
  rfl

/-- The last row for a place stays the last one when other rows are left out. -/
theorem lastFor_filter {rows : List ρ} {r : ρ} {k : κ} {p : ρ → Bool}
    (h : lastFor addr rows k = some r) (hp : p r = true) :
    lastFor addr (rows.filter p) k = some r := by
  induction rows using List.reverseRecOn with
  | nil => exact absurd h (by simp [lastFor])
  | append_singleton rows x ih =>
    rw [lastFor_snoc] at h
    by_cases hx : addr x = some k
    · rw [if_pos hx] at h
      obtain rfl := Option.some.inj h
      have hkept : [x].filter p = [x] := List.filter_cons_of_pos hp
      rw [List.filter_append, hkept, lastFor_snoc, if_pos hx]
    · rw [if_neg hx] at h
      rw [List.filter_append]
      by_cases hpx : p x = true
      · have hkept : [x].filter p = [x] := List.filter_cons_of_pos hpx
        rw [hkept, lastFor_snoc, if_neg hx]
        exact ih h
      · have hdropped : [x].filter p = [] := by simp [hpx]
        rw [hdropped, List.append_nil]
        exact ih h

/-- Rows can be left out if each of them that is the last one for its place says what the place
holds without it; and only then. -/
theorem fill_filter {rows : List ρ} {p : ρ → Bool} :
    fill addr val t rows = fill addr val t (rows.filter p) ↔
      ∀ k r, lastFor addr rows k = some r → p r = false →
        val r = ((lastFor addr (rows.filter p) k).map val).getD (t k) := by
  have hplace : ∀ k r, lastFor addr rows k = some r → fill addr val t rows k = val r := by
    intro k r h
    rw [fill_apply, h]
    rfl
  constructor
  · intro heq k r h _
    rw [← hplace k r h, heq, fill_apply]
  · intro h
    funext k
    rw [fill_apply (rows.filter p)]
    cases hl : lastFor addr rows k with
    | none =>
      have hnone : lastFor addr (rows.filter p) k = none :=
        lastFor_eq_none.2 fun r hr => lastFor_eq_none.1 hl r (List.mem_filter.1 hr).1
      rw [hnone, fill_apply, hl]
    | some r =>
      rw [hplace k r hl]
      cases hp : p r with
      | true =>
        rw [lastFor_filter hl hp]
        rfl
      | false => exact h k r hl hp

end Lib
