import Mathlib.Algebra.BigOperators.Group.List.Basic

/-!
# The last elements of a list that grows

A window over the last elements of a list, and its sum when the list gets one more element.

* `trailing w l`: the last `w` elements of `l`, or all of them.
* `sum_trailing_snoc`: the new element comes in, and the one that leaves the window is subtracted.
-/

namespace Lib

variable {α β : Type} {w : Nat} {l : List α} {x : α}

def trailing (w : Nat) (l : List α) : List α := l.drop (l.length - w)

@[simp] theorem trailing_nil : trailing w ([] : List α) = [] := List.drop_nil

theorem trailing_length : (trailing w l).length = min l.length w := by
  rw [trailing, List.length_drop]
  omega

theorem trailing_map (f : α → β) : trailing w (l.map f) = (trailing w l).map f := by
  rw [trailing, List.length_map, ← List.map_drop]
  rfl

/-- The window is not full yet. -/
theorem trailing_snoc_of_lt (h : l.length < w) : trailing w (l ++ [x]) = trailing w l ++ [x] := by
  have hnew : (l ++ [x]).length - w = 0 := by
    rw [List.length_append, List.length_singleton]
    omega
  have hold : l.length - w = 0 := by omega
  rw [trailing, trailing, hnew, hold, List.drop_zero, List.drop_zero]

/-- The window is full, and the element at its start leaves it. -/
theorem trailing_snoc_of_le (d : α) (hw : 0 < w) (h : w ≤ l.length) :
    l.getD (l.length - w) d :: trailing w (l ++ [x]) = trailing w l ++ [x] := by
  have hlt : l.length - w < l.length := by omega
  have hnew : (l ++ [x]).length - w = l.length - w + 1 := by
    rw [List.length_append, List.length_singleton]
    omega
  have hdrop : (l ++ [x]).drop (l.length - w + 1) = l.drop (l.length - w + 1) ++ [x] :=
    List.drop_append_of_le_length hlt
  rw [trailing, trailing, hnew, hdrop, List.drop_eq_getElem_cons hlt, List.cons_append,
    List.getD_eq_getElem?_getD, List.getElem?_eq_getElem hlt, Option.getD_some]

/-- The sum of the window after one more element. -/
theorem sum_trailing_snoc {G : Type} [AddCommGroup G] {l : List G} {x : G} (hw : 0 < w) :
    (trailing w (l ++ [x])).sum =
      (trailing w l).sum + x - if w ≤ l.length then l.getD (l.length - w) 0 else 0 := by
  by_cases h : w ≤ l.length
  · have hsum : (l.getD (l.length - w) 0 :: trailing w (l ++ [x])).sum = (trailing w l ++ [x]).sum :=
      congrArg List.sum (trailing_snoc_of_le 0 hw h)
    rw [List.sum_cons, List.sum_append, List.sum_singleton] at hsum
    rw [if_pos h, ← hsum, add_sub_cancel_left]
  · rw [if_neg h, sub_zero, trailing_snoc_of_lt (Nat.lt_of_not_le h), List.sum_append,
      List.sum_singleton]

end Lib
