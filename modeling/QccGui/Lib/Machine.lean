import Mathlib.Data.List.Induction

/-!
# Event-driven machines and their runs

A machine handles one event at a time, to completion. A run is the list of its steps, oldest
first, each with the state it started in; everything else about a step (its outputs, its result)
is a function of these two.

* `Run M s₀ tr s`: the steps `tr` lead from `s₀` to `s`.
* `exec`, `trace`, `Allows`: the run of a given list of events.
* `Run.invariant`: the induction rule for a property of the states, for runs all of whose steps
  meet a side condition `C`.
* `Run.history`: the same for a property of the steps so far together with the state, and
  `Run.history'` where `C` looks at the steps so far too.
* `Behaviour`: a run without an end, for statements about what happens eventually.
* `Allows.forever`: the one that ends in a repeated event.
-/

namespace Lib

/-- What a function finds in the entries of a log, after one more entry. -/
theorem filterMap_snoc {α β : Type} (f : α → Option β) (log : List α) (x : α) :
    (log ++ [x]).filterMap f = log.filterMap f ++ (f x).toList := by
  rw [List.filterMap_append]
  cases h : f x <;> simp [h]

/-- A machine: which events can be delivered in a state, and what handling one does. -/
structure Machine (σ ε : Type) where
  enabled : σ → ε → Prop
  step : σ → ε → σ

namespace Machine

variable {σ ε : Type} (M : Machine σ ε)

/-- The state after the step `x` (its first state and its event). -/
def post (x : σ × ε) : σ := M.step x.1 x.2

@[simp] theorem post_mk (s : σ) (e : ε) : M.post (s, e) = M.step s e := rfl

/-- The steps `tr` lead from `s₀` to the last state. -/
inductive Run (s₀ : σ) : List (σ × ε) → σ → Prop
  | nil : Run s₀ [] s₀
  | snoc {tr : List (σ × ε)} {s : σ} {e : ε} :
      Run s₀ tr s → M.enabled s e → Run s₀ (tr ++ [(s, e)]) (M.step s e)

/-- The events of a run. -/
def events (tr : List (σ × ε)) : List ε := tr.map Prod.snd

/-- A side condition on every step of a run. -/
def Along (C : σ → ε → Prop) (tr : List (σ × ε)) : Prop := ∀ x ∈ tr, C x.1 x.2

/-- A side condition on every step of a run and the steps before it. -/
def AlongHistory (H : List (σ × ε) → σ → ε → Prop) (tr : List (σ × ε)) : Prop :=
  ∀ pre x post, tr = pre ++ x :: post → H pre x.1 x.2

variable {M} {C : σ → ε → Prop} {tr tr' : List (σ × ε)} {s₀ s s' : σ} {e : ε}

@[simp] theorem events_nil : events ([] : List (σ × ε)) = [] := rfl

@[simp] theorem events_cons (x : σ × ε) : events (x :: tr) = x.2 :: events tr := rfl

@[simp] theorem events_append : events (tr ++ tr') = events tr ++ events tr' := by simp [events]

@[simp] theorem along_nil : Along C ([] : List (σ × ε)) := by simp [Along]

@[simp] theorem along_append : Along C (tr ++ tr') ↔ Along C tr ∧ Along C tr' := by
  simp only [Along, List.mem_append]
  exact ⟨fun h => ⟨fun x hx => h x (.inl hx), fun x hx => h x (.inr hx)⟩,
    fun h x hx => hx.elim (h.1 x) (h.2 x)⟩

@[simp] theorem along_cons {x : σ × ε} : Along C (x :: tr) ↔ C x.1 x.2 ∧ Along C tr := by
  simp [Along]

theorem alongHistory_nil {H : List (σ × ε) → σ → ε → Prop} : AlongHistory H [] := by
  intro pre x post h
  simp at h

theorem alongHistory_snoc {H : List (σ × ε) → σ → ε → Prop} {x : σ × ε} :
    AlongHistory H (tr ++ [x]) ↔ AlongHistory H tr ∧ H tr x.1 x.2 := by
  refine ⟨fun h => ⟨fun pre y post hy => h pre y (post ++ [x]) (by simp [hy]),
    h tr x [] rfl⟩, fun ⟨h, hx⟩ pre y post hy => ?_⟩
  rcases List.eq_nil_or_concat post with rfl | ⟨post, z, rfl⟩
  · obtain ⟨rfl, hxy⟩ := List.append_inj' hy rfl
    obtain rfl := List.cons.inj hxy |>.1
    exact hx
  · rw [List.concat_eq_append, ← List.cons_append, ← List.append_assoc] at hy
    exact h pre y post (List.append_inj' hy rfl).1

namespace Run

/-- The last step of a run. -/
theorem snoc_inv {x : σ × ε} (h : M.Run s₀ (tr ++ [x]) s) :
    M.Run s₀ tr x.1 ∧ M.enabled x.1 x.2 ∧ s = M.post x := by
  generalize hl : tr ++ [x] = l at h
  cases h with
  | nil => simp at hl
  | snoc hr he =>
    obtain ⟨rfl, hx⟩ := List.append_inj' hl rfl
    obtain rfl := List.cons.inj hx |>.1
    exact ⟨hr, he, rfl⟩

theorem nil_inv (h : M.Run s₀ [] s) : s = s₀ := by
  generalize hl : ([] : List (σ × ε)) = l at h
  cases h with
  | nil => rfl
  | snoc => simp at hl

/-- Induction over the steps of a run, with the steps so far in hand. `C` may be any condition
that the run's steps meet. -/
theorem history {P : List (σ × ε) → σ → Prop} (h0 : P [] s₀)
    (hs : ∀ tr s e, M.Run s₀ tr s → P tr s → M.enabled s e → C s e →
      P (tr ++ [(s, e)]) (M.step s e))
    (hr : M.Run s₀ tr s) (hc : Along C tr) : P tr s := by
  induction hr with
  | nil => exact h0
  | snoc hr he ih =>
    simp only [along_append, along_cons] at hc
    exact hs _ _ _ hr (ih hc.1) he hc.2.1

/-- The same where the condition on a step depends on the steps before it. -/
theorem history' {H : List (σ × ε) → σ → ε → Prop} {P : List (σ × ε) → σ → Prop} (h0 : P [] s₀)
    (hs : ∀ tr s e, M.Run s₀ tr s → P tr s → M.enabled s e → C s e → H tr s e →
      P (tr ++ [(s, e)]) (M.step s e))
    (hr : M.Run s₀ tr s) (hc : Along C tr) (hh : AlongHistory H tr) : P tr s := by
  induction hr with
  | nil => exact h0
  | snoc hr he ih =>
    simp only [along_append, along_cons] at hc
    rw [alongHistory_snoc] at hh
    exact hs _ _ _ hr (ih hc.1 hh.1) he hc.2.1 hh.2

/-- A property that holds at the start and that every step meeting `C` keeps. -/
theorem invariant {I : σ → Prop} (h0 : I s₀)
    (hs : ∀ s e, I s → M.enabled s e → C s e → I (M.step s e))
    (hr : M.Run s₀ tr s) (hc : Along C tr) : I s :=
  history (P := fun _ s => I s) h0 (fun _ s e _ hi he hc => hs s e hi he hc) hr hc

/-- The same for a property that every step keeps. -/
theorem invariant' {I : σ → Prop} (h0 : I s₀)
    (hs : ∀ s e, I s → M.enabled s e → I (M.step s e)) (hr : M.Run s₀ tr s) : I s :=
  invariant (C := fun _ _ => True) h0 (fun s e hi he _ => hs s e hi he) hr fun _ _ => trivial

theorem append {s₁ s₂ : σ} (h₁ : M.Run s₀ tr s₁) (h₂ : M.Run s₁ tr' s₂) :
    M.Run s₀ (tr ++ tr') s₂ := by
  induction h₂ with
  | nil => simpa using h₁
  | snoc _ he ih => rw [← List.append_assoc]; exact .snoc ih he

/-- A run passes through the state that each of its steps starts in. -/
theorem split (h : M.Run s₀ (tr ++ tr') s) : ∃ s₁, M.Run s₀ tr s₁ ∧ M.Run s₁ tr' s := by
  induction tr' using List.reverseRecOn generalizing s with
  | nil => exact ⟨s, by simpa using h, .nil⟩
  | append_singleton tr' x ih =>
    rw [← List.append_assoc] at h
    obtain ⟨hr, he, rfl⟩ := h.snoc_inv
    obtain ⟨s₁, h₁, h₂⟩ := ih hr
    exact ⟨s₁, h₁, .snoc h₂ he⟩

theorem cons_inv {x : σ × ε} (h : M.Run s₀ (x :: tr) s) :
    x.1 = s₀ ∧ M.enabled x.1 x.2 ∧ M.Run (M.post x) tr s := by
  have h : M.Run s₀ ([x] ++ tr) s := h
  obtain ⟨s₁, h₁, h₂⟩ := h.split
  have h₁ : M.Run s₀ ([] ++ [x]) s₁ := h₁
  obtain ⟨h₀, he, rfl⟩ := h₁.snoc_inv
  exact ⟨h₀.nil_inv, he, h₂⟩

/-- The steps of a run determine where it ends. -/
theorem unique (h : M.Run s₀ tr s) (h' : M.Run s₀ tr s') : s = s' := by
  rcases List.eq_nil_or_concat tr with rfl | ⟨tr, x, rfl⟩
  · rw [h.nil_inv, h'.nil_inv]
  · rw [List.concat_eq_append] at h h'
    rw [h.snoc_inv.2.2, h'.snoc_inv.2.2]

theorem single (he : M.enabled s e) : M.Run s [(s, e)] (M.step s e) := by
  have h : M.Run s ([] ++ [(s, e)]) (M.step s e) := .snoc .nil he
  exact h

theorem cons (he : M.enabled s e) (h : M.Run (M.step s e) tr s') : M.Run s ((s, e) :: tr) s' :=
  (single he).append h

/-- The run up to a step in the middle, and that step. -/
theorem middle {x : σ × ε} (h : M.Run s₀ (tr ++ x :: tr') s) :
    M.Run s₀ tr x.1 ∧ M.enabled x.1 x.2 ∧ M.Run (M.post x) tr' s := by
  obtain ⟨s₁, h₁, h₂⟩ := h.split
  obtain ⟨rfl, he, h₃⟩ := h₂.cons_inv
  exact ⟨h₁, he, h₃⟩

/-- A run maps to a run along a function that maps steps to steps, where an invariant may be used
and is kept. -/
theorem simulate {τ : Type} {N : Machine τ ε} {f : σ → τ} {I : σ → Prop} (h0 : I s₀)
    (hs : ∀ s e, I s → M.enabled s e → I (M.step s e) ∧ N.enabled (f s) e ∧
      f (M.step s e) = N.step (f s) e) (hr : M.Run s₀ tr s) :
    N.Run (f s₀) (tr.map fun x => (f x.1, x.2)) (f s) := by
  have hI : ∀ {tr s}, M.Run s₀ tr s → I s := fun h =>
    h.invariant' h0 fun s e hi he => (hs s e hi he).1
  induction hr with
  | nil => exact .nil
  | snoc hr he ih =>
    obtain ⟨-, he', hst⟩ := hs _ _ (hI hr) he
    rw [List.map_append, hst]
    exact .snoc ih he'

end Run

/-! ## Unending runs -/

variable (M)

/-- An unending run from `s₀`. -/
structure Behaviour (s₀ : σ) where
  st : Nat → σ
  ev : Nat → ε
  start : st 0 = s₀
  enabled : ∀ n, M.enabled (st n) (ev n)
  step : ∀ n, st (n + 1) = M.step (st n) (ev n)

variable {M}

/-- The first `n` steps of an unending run. -/
def Behaviour.upTo (b : M.Behaviour s₀) (n : Nat) : List (σ × ε) :=
  (List.range n).map fun k => (b.st k, b.ev k)

theorem Behaviour.run (b : M.Behaviour s₀) (n : Nat) : M.Run s₀ (b.upTo n) (b.st n) := by
  induction n with
  | zero =>
    rw [b.start]
    exact .nil
  | succ n ih =>
    rw [Behaviour.upTo, List.range_succ, List.map_append, b.step]
    exact .snoc ih (b.enabled n)

variable (M)

/-- The state after the events `es`. -/
def exec (s : σ) (es : List ε) : σ := es.foldl M.step s

/-- The steps that the events `es` make from `s`. -/
def trace : σ → List ε → List (σ × ε)
  | _, [] => []
  | s, e :: es => (s, e) :: trace (M.step s e) es

/-- The events `es` can be delivered one after the other from `s`. -/
def Allows : σ → List ε → Prop
  | _, [] => True
  | s, e :: es => M.enabled s e ∧ Allows (M.step s e) es

variable {M} {es es' : List ε}

@[simp] theorem exec_nil : M.exec s [] = s := rfl

@[simp] theorem exec_cons : M.exec s (e :: es) = M.exec (M.step s e) es := rfl

@[simp] theorem exec_append : M.exec s (es ++ es') = M.exec (M.exec s es) es' := by simp [exec]

theorem allows_append : M.Allows s (es ++ es') ↔ M.Allows s es ∧ M.Allows (M.exec s es) es' := by
  induction es generalizing s with
  | nil => simp [Allows]
  | cons e es ih => simp [Allows, ih, and_assoc]

theorem events_trace : events (M.trace s es) = es := by
  induction es generalizing s with
  | nil => rfl
  | cons e es ih => simp [trace, ih]

theorem trace_append : M.trace s (es ++ es') = M.trace s es ++ M.trace (M.exec s es) es' := by
  induction es generalizing s with
  | nil => rfl
  | cons e es ih => simp [trace, ih]

theorem Allows.take (h : M.Allows s es) {n : Nat} {e : ε} (he : es[n]? = some e) :
    M.enabled (M.exec s (es.take n)) e := by
  induction es generalizing s n with
  | nil => cases he
  | cons e' es ih =>
    cases n with
    | zero =>
      obtain rfl := Option.some.inj he
      exact h.1
    | succ n => exact ih h.2 he

theorem Allows.run (h : M.Allows s es) : M.Run s (M.trace s es) (M.exec s es) := by
  induction es generalizing s with
  | nil => exact .nil
  | cons e es ih => exact .cons h.1 (ih h.2)

/-- A run is the one of its events. -/
theorem Run.of_events (h : M.Run s tr s') : tr = M.trace s (events tr) ∧ s' = M.exec s (events tr) := by
  induction tr generalizing s with
  | nil => exact ⟨rfl, h.nil_inv⟩
  | cons x tr ih =>
    obtain ⟨e', s''⟩ := x
    obtain ⟨rfl, -, hrest⟩ := h.cons_inv
    obtain ⟨htr, hs⟩ := ih hrest
    exact ⟨congrArg _ htr, hs⟩

/-- The run of the events `es` that goes on with `e` for ever. -/
def Allows.forever (h : M.Allows s es) (e : ε) (he : ∀ s, M.enabled s e) : M.Behaviour s where
  st n := M.exec s (es.take n ++ List.replicate (n - es.length) e)
  ev n := es.getD n e
  start := by simp
  enabled n := by
    by_cases hn : n < es.length
    · have hget : es[n]? = some es[n] := List.getElem?_eq_getElem hn
      rw [Nat.sub_eq_zero_of_le (Nat.le_of_lt hn), List.getD_eq_getElem?_getD, hget]
      simpa using h.take hget
    · rw [List.getD_eq_getElem?_getD, List.getElem?_eq_none (Nat.le_of_not_lt hn)]
      exact he _
  step n := by
    by_cases hn : n < es.length
    · rw [Nat.sub_eq_zero_of_le (Nat.le_of_lt hn), Nat.sub_eq_zero_of_le hn,
        List.getD_eq_getElem?_getD, List.getElem?_eq_getElem hn, List.take_succ_eq_append_getElem hn]
      simp only [List.replicate_zero, List.append_nil, exec_append]
      rfl
    · have hle := Nat.le_of_not_lt hn
      rw [List.getD_eq_getElem?_getD, List.getElem?_eq_none hle, List.take_of_length_le hle,
        List.take_of_length_le (by omega), Nat.succ_sub hle, List.replicate_succ',
        ← List.append_assoc, exec_append]
      rfl

end Machine

end Lib
