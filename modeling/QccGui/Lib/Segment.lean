import Mathlib.Data.List.Basic

/-!
# Segments of a history

Statements about the last part of a list that grows at its end, such as the steps of a run.

* `Then P Q`: a part in `P`, then a part in `Q`.
* `Since B P`: the list ends with a part in `P` in which nothing satisfies `B`.
-/

namespace Lib

variable {α : Type} {B : α → Prop} {P Q Q' : List α → Prop} {l : List α} {x : α}

/-- A part in `P` followed by a part in `Q`. -/
def Then (P Q : List α → Prop) (l : List α) : Prop := ∃ a b, l = a ++ b ∧ P a ∧ Q b

/-- A part in `P` followed by anything. -/
def Before (P : List α → Prop) : List α → Prop := Then P fun _ => True

/-- `l` ends with a part in `P` in which nothing satisfies `B`. -/
def Since (B : α → Prop) (P : List α → Prop) (l : List α) : Prop :=
  ∃ pre seg, l = pre ++ seg ∧ (∀ x ∈ seg, ¬ B x) ∧ P seg

theorem Then.snoc (h : Then P Q l) (hq : ∀ b, Q b → Q' (b ++ [x])) : Then P Q' (l ++ [x]) := by
  obtain ⟨a, b, rfl, hp, hb⟩ := h
  exact ⟨a, b ++ [x], by simp, hp, hq b hb⟩

theorem Then.mono (h : Then P Q l) (hq : ∀ b, Q b → Q' b) : Then P Q' l := by
  obtain ⟨a, b, rfl, hp, hb⟩ := h
  exact ⟨a, b, rfl, hp, hq b hb⟩

theorem before_self (h : P l) : Before P l := ⟨l, [], by simp, h, trivial⟩

theorem Before.snoc (h : Before P l) (x : α) : Before P (l ++ [x]) :=
  Then.snoc h fun _ _ => trivial

/-- The last element begins a part of its own. -/
theorem Before.begin (h : Before P l) (hq : Q [x]) : Then P (Then (fun _ => True) Q) (l ++ [x]) :=
  Then.snoc h fun b _ => ⟨b, [x], rfl, trivial, hq⟩

theorem Since.snoc (h : Since B P l) (hx : ¬ B x) (hq : ∀ b, P b → Q (b ++ [x])) :
    Since B Q (l ++ [x]) := by
  obtain ⟨pre, seg, rfl, hb, hp⟩ := h
  refine ⟨pre, seg ++ [x], by simp, fun y hy => ?_, hq seg hp⟩
  rcases List.mem_append.1 hy with hy | hy
  · exact hb y hy
  · rwa [List.mem_singleton.1 hy]

theorem Since.mono (h : Since B P l) (hq : ∀ b, P b → Q b) : Since B Q l := by
  obtain ⟨pre, seg, rfl, hb, hp⟩ := h
  exact ⟨pre, seg, rfl, hb, hq seg hp⟩

/-- The last element begins the part. -/
theorem since_begin (hx : ¬ B x) (hp : P [x]) : Since B P (l ++ [x]) :=
  ⟨l, [x], rfl, by simpa using hx, hp⟩

end Lib
