import Mathlib.Data.List.Basic
import Mathlib.Data.List.Pairwise

/-!
# Runs of consecutive numbers

An increasing list of numbers as the runs in it, each as long as possible.

* `Span`: the numbers from a first to a last one.
* `spansFrom`: the runs of a list, with a run that is still open.
* `indices_spansFrom`: together the runs are the list.
* `apart_spansFrom`: between two runs there is a number that is not in the list; so
  `not_next_of_apart`.
-/

namespace Lib

/-- The numbers from `first` to `last`. -/
structure Span where
  first : Nat
  last : Nat
  le : first ≤ last

namespace Span

variable (s : Span)

def indices : List Nat := List.range' s.first (s.last + 1 - s.first)

def single (i : Nat) : Span := ⟨i, i, Nat.le_refl i⟩

def extend : Span := ⟨s.first, s.last + 1, Nat.le_succ_of_le s.le⟩

/-- `t` comes after `s`, and could not be joined to it. -/
def Apart (s t : Span) : Prop := s.last + 1 < t.first

theorem mem_indices {i : Nat} : i ∈ s.indices ↔ s.first ≤ i ∧ i ≤ s.last := by
  have hle := s.le
  rw [indices, List.mem_range'_1]
  omega

@[simp] theorem indices_single (i : Nat) : (single i).indices = [i] := by
  rw [indices, single, Nat.add_sub_cancel_left]
  rfl

theorem indices_extend : s.extend.indices = s.indices ++ [s.last + 1] := by
  have hle := s.le
  have hlen : s.last + 1 + 1 - s.first = s.last + 1 - s.first + 1 := by omega
  have hlast : s.first + (s.last + 1 - s.first) = s.last + 1 := by omega
  rw [indices, indices, extend, hlen, List.range'_1_concat, hlast]

end Span

/-- The runs of the numbers of `s` and the numbers after them. -/
def spansFrom (s : Span) : List Nat → List Span
  | [] => [s]
  | i :: is => if i = s.last + 1 then spansFrom s.extend is else s :: spansFrom (.single i) is

def spans : List Nat → List Span
  | [] => []
  | i :: is => spansFrom (.single i) is

/-- Together the runs are the list. -/
theorem indices_spansFrom (s : Span) (is : List Nat) :
    (spansFrom s is).flatMap Span.indices = s.indices ++ is := by
  induction is generalizing s with
  | nil => simp [spansFrom]
  | cons i is ih =>
    rw [spansFrom]
    split
    · rename_i hi
      rw [ih, Span.indices_extend, hi, List.append_assoc, List.singleton_append]
    · rw [List.flatMap_cons, ih, Span.indices_single, List.singleton_append]

theorem indices_spans (is : List Nat) : (spans is).flatMap Span.indices = is := by
  cases is with
  | nil => rfl
  | cons i is => rw [spans, indices_spansFrom, Span.indices_single, List.singleton_append]

/-- No run starts before the open one. -/
theorem first_le_of_mem {s t : Span} {is : List Nat} (h : (s.last :: is).Pairwise (· < ·))
    (ht : t ∈ spansFrom s is) : s.first ≤ t.first := by
  induction is generalizing s with
  | nil =>
    obtain rfl := List.mem_singleton.1 ht
    exact Nat.le_refl _
  | cons i is ih =>
    obtain ⟨hlt, hrest⟩ := List.pairwise_cons.1 h
    rw [spansFrom] at ht
    split at ht
    · rename_i hi
      subst hi
      exact ih (s := s.extend) hrest ht
    · rcases List.mem_cons.1 ht with rfl | ht
      · exact Nat.le_refl _
      · have hi : s.last < i := hlt i (List.mem_cons_self ..)
        have hfirst : i ≤ t.first := ih (s := .single i) hrest ht
        exact Nat.le_trans (Nat.le_trans s.le (Nat.le_of_lt hi)) hfirst

/-- The runs of an increasing list are as long as possible. -/
theorem apart_spansFrom {s : Span} {is : List Nat} (h : (s.last :: is).Pairwise (· < ·)) :
    (spansFrom s is).Pairwise Span.Apart := by
  induction is generalizing s with
  | nil => exact List.pairwise_singleton ..
  | cons i is ih =>
    obtain ⟨hlt, hrest⟩ := List.pairwise_cons.1 h
    rw [spansFrom]
    split
    · rename_i hi
      subst hi
      exact ih (s := s.extend) hrest
    · rename_i hi
      refine List.pairwise_cons.2 ⟨fun t ht => ?_, ih (s := .single i) hrest⟩
      have hgap : s.last < i := hlt i (List.mem_cons_self ..)
      have hfirst : i ≤ t.first := first_le_of_mem (s := .single i) hrest ht
      show s.last + 1 < t.first
      omega

theorem apart_spans {is : List Nat} (h : is.Pairwise (· < ·)) : (spans is).Pairwise Span.Apart := by
  cases is with
  | nil => exact List.Pairwise.nil
  | cons i is => exact apart_spansFrom h

/-- Nothing next to a run is in another one. -/
theorem not_next_of_apart {runs : List Span} (h : runs.Pairwise Span.Apart) {s t : Span} {i : Nat}
    (hs : s ∈ runs) (ht : t ∈ runs) (hfirst : t.first ≤ i) (hlast : i ≤ t.last) :
    i ≠ s.last + 1 ∧ i + 1 ≠ s.first := by
  have hboth : runs.Pairwise fun s t => s.Apart t ∨ t.Apart s := h.imp fun hst => .inl hst
  have hle := s.le
  by_cases hst : s = t
  · subst hst
    omega
  · have : Std.Symm fun s t : Span => s.Apart t ∨ t.Apart s := ⟨fun _ _ h => h.symm⟩
    have hapart : s.Apart t ∨ t.Apart s := hboth.forall hs ht hst
    unfold Span.Apart at hapart
    omega

end Lib
