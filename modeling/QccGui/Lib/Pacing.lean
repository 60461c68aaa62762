import Mathlib.Algebra.Order.Floor.Semiring
import Mathlib.Algebra.Order.Field.Basic
import Mathlib.Tactic.Linarith

/-!
# Deadlines

Something that is done when a deadline has passed, and then gets a new one which is not in the past
and at least an interval after the old one. However late it is done, it is not done in bursts.

* `Shot`: when it was done, and the deadline that had passed.
* `Shot.Then`: one after another.
* `length_window_le`: how often it is done in a window of time.
-/

namespace Lib

/-- It was done at `time`, when `deadline` had passed. -/
structure Shot (K : Type) where
  time : K
  deadline : K

namespace Shot

variable {K : Type} [Field K] [LinearOrder K] [IsStrictOrderedRing K]

/-- `y` is after `x`: its deadline was set when `x` was done, or later. -/
structure Then (interval : K) (x y : Shot K) : Prop where
  fresh : x.time ≤ y.deadline
  spaced : x.deadline + interval ≤ y.deadline

variable {interval finish : K}

/-- The deadlines of some shots that all were done by `finish`. -/
theorem deadline_add_le {x : Shot K} {shots : List (Shot K)}
    (h : (x :: shots).Pairwise (Then interval)) (hd : ∀ y ∈ x :: shots, y.deadline ≤ finish) :
    x.deadline + shots.length * interval ≤ finish := by
  induction shots generalizing x with
  | nil => simpa using hd x (.head _)
  | cons y shots ih =>
    obtain ⟨hx, hy⟩ := List.pairwise_cons.1 h
    have hrest := ih hy fun z hz => hd z (.tail _ hz)
    have hspaced := (hx y (.head _)).spaced
    rw [List.length_cons, Nat.cast_succ, add_mul, one_mul]
    linarith

/-- In a window of the length `length` it is done at most once at the start, once when the deadline of
that time has passed, and once for every further interval. -/
theorem length_window_le [FloorSemiring K] {shots : List (Shot K)}
    (h : shots.Pairwise (Then interval)) (hd : ∀ x ∈ shots, x.deadline ≤ x.time)
    (hi : 0 < interval) (start length : K) :
    (shots.filter fun x => start ≤ x.time ∧ x.time ≤ start + length).length ≤
      ⌊length / interval⌋₊ + 2 := by
  have hw := h.sublist (List.filter_sublist (p := fun x => start ≤ x.time ∧ x.time ≤ start + length))
  have hmem : ∀ x ∈ shots.filter fun x => start ≤ x.time ∧ x.time ≤ start + length,
      start ≤ x.time ∧ x.deadline ≤ start + length := by
    intro x hx
    obtain ⟨hx, ht⟩ := List.mem_filter.1 hx
    obtain ⟨h₁, h₂⟩ := of_decide_eq_true ht
    exact ⟨h₁, (hd x hx).trans h₂⟩
  generalize shots.filter _ = window at hw hmem
  rcases window with _ | ⟨x, _ | ⟨y, rest⟩⟩
  · exact Nat.zero_le _
  · rw [List.length_singleton]
    omega
  · obtain ⟨hx, hrest⟩ := List.pairwise_cons.1 hw
    have hlast := deadline_add_le hrest fun z hz => (hmem z (.tail _ hz)).2
    have hfresh := (hx y (.head _)).fresh
    have hstart := (hmem x (.head _)).1
    have hcount : (rest.length : K) ≤ length / interval := by
      rw [le_div_iff₀ hi]
      linarith
    have hfloor := Nat.le_floor hcount
    rw [List.length_cons, List.length_cons]
    omega

end Shot

end Lib
