import Mathlib.Data.Option.Basic
import Mathlib.Order.WellFounded

/-!
# Programs that poll a device

A program reads and changes the state of a device. A loop that waits for the device has no bound
of its own; here it gives up after a number of turns that the program is given. With more turns a
program that returned returns the same, which every program carries as a proof; one that returns
nothing however many turns its loops may take waits for ever.

* `Polling σ α`: such programs, with `device` (one access), `loop` and `pollUntil` (a waiting loop).
* `Returns`, `Hangs`: the program returns if its loops may take enough turns; it never does.
* `onFst`, `onSnd`: programs over one of two devices.
* `Returns.bind`, `Hangs.bind`, `Returns.bind_hangs`, `loop_stop`, `loop_turn`, `loop_returns`,
  `loop_hangs`, `pollUntil_stop`, `pollUntil_turn`, `pollUntil_hangs`: the rules.
* `Implements`: a program over a device does what another one does over the device it stands for.
-/

namespace Lib

/-- A program over a device with the state `σ`, given the number of turns of a waiting loop. -/
structure Polling (σ α : Type) where
  run : Nat → σ → Option (α × σ)
  mono : ∀ {k s x}, run k s = some x → run (k + 1) s = some x

namespace Polling

variable {σ α β : Type}

theorem run_of_le {p : Polling σ α} {j k : Nat} {s : σ} {x : α × σ} (h : p.run j s = some x)
    (hjk : j ≤ k) : p.run k s = some x := by
  induction hjk with
  | refl => exact h
  | step _ ih => exact p.mono ih

protected def pure (a : α) : Polling σ α := ⟨fun _ s => some (a, s), id⟩

protected def bind (p : Polling σ α) (f : α → Polling σ β) : Polling σ β where
  run k s := (p.run k s).bind fun x => (f x.1).run k x.2
  mono := by
    intro k s y h
    rw [Option.bind_eq_some_iff] at h ⊢
    obtain ⟨x, hx, hy⟩ := h
    exact ⟨x, p.mono hx, (f x.1).mono hy⟩

instance : Monad (Polling σ) where
  pure := Polling.pure
  bind := Polling.bind

/-- One access to the device. -/
def device (f : σ → α × σ) : Polling σ α := ⟨fun _ s => some (f s), id⟩

/-- At most `n` turns of a loop with the variables `b`; the loops in its body may take `k`. -/
def turns (body : β → Polling σ β) (stop : β → Bool) (k : Nat) : Nat → β → σ → Option (β × σ)
  | 0, b, s => if stop b then some (b, s) else none
  | n + 1, b, s =>
    if stop b then some (b, s)
    else ((body b).run k s).bind fun x => turns body stop k n x.1 x.2

section

variable {body : β → Polling σ β} {stop : β → Bool} {b : β} {s : σ}

theorem turns_stop (h : stop b = true) (k n : Nat) : turns body stop k n b s = some (b, s) := by
  cases n with
  | zero => rw [turns, if_pos h]
  | succ n => rw [turns, if_pos h]

theorem turns_zero (h : stop b = false) (k : Nat) : turns body stop k 0 b s = none := by
  rw [turns, if_neg (by rw [h]; decide)]

theorem turns_succ (h : stop b = false) (k n : Nat) : turns body stop k (n + 1) b s =
    ((body b).run k s).bind fun x => turns body stop k n x.1 x.2 := by
  rw [turns, if_neg (by rw [h]; decide)]

theorem turns_of_le {j k m n : Nat} {x : β × σ} (h : turns body stop j m b s = some x)
    (hjk : j ≤ k) (hmn : m ≤ n) : turns body stop k n b s = some x := by
  induction m generalizing n b s with
  | zero =>
    cases hb : stop b with
    | true => rwa [turns_stop hb] at h ⊢
    | false =>
      rw [turns_zero hb] at h
      cases h
  | succ m ih =>
    cases hb : stop b with
    | true => rwa [turns_stop hb] at h ⊢
    | false =>
      obtain ⟨n, rfl⟩ := Nat.exists_eq_add_of_le' (Nat.one_le_of_lt hmn)
      rw [turns_succ hb, Option.bind_eq_some_iff] at h ⊢
      obtain ⟨y, hy, hx⟩ := h
      exact ⟨y, run_of_le hy hjk, ih hx (by omega)⟩

end

/-- A loop that goes on until its variables say stop. -/
def loop (body : β → Polling σ β) (stop : β → Bool) (b : β) : Polling σ β where
  run k := turns body stop k k b
  mono h := turns_of_le h (Nat.le_succ _) (Nat.le_succ _)

/-- The loop that reads the device until it reads what it waits for. -/
def pollUntil (poll : Polling σ α) (stop : α → Bool) : Polling σ Unit := do
  let a ← poll
  let _ ← loop (fun _ => poll) stop a

/-- From `s` the program ends with the result `a` in the state `s'`. -/
def Returns (p : Polling σ α) (s : σ) (a : α) (s' : σ) : Prop := ∃ k, p.run k s = some (a, s')

/-- From `s` the program waits for ever. -/
def Hangs (p : Polling σ α) (s : σ) : Prop := ∀ k, p.run k s = none

variable {p : Polling σ α} {f : α → Polling σ β} {s s' s'' : σ} {a a' : α} {b : β}

theorem Returns.unique (h : Returns p s a s') (h' : Returns p s a' s'') : a' = a ∧ s'' = s' := by
  obtain ⟨j, hj⟩ := h
  obtain ⟨k, hk⟩ := h'
  have hj := run_of_le hj (Nat.le_max_left j k)
  have hk := run_of_le hk (Nat.le_max_right j k)
  rw [hj] at hk
  obtain ⟨rfl, rfl⟩ := Prod.mk.inj (Option.some.inj hk)
  exact ⟨rfl, rfl⟩

theorem Hangs.not_returns (h : Hangs p s) : ¬ Returns p s a s' := by
  rintro ⟨k, hk⟩
  rw [h k] at hk
  cases hk

theorem returns_or_hangs (p : Polling σ α) (s : σ) : (∃ a s', Returns p s a s') ∨ Hangs p s := by
  by_cases h : ∃ k x, p.run k s = some x
  · obtain ⟨k, ⟨a, s'⟩, hk⟩ := h
    exact .inl ⟨a, s', k, hk⟩
  · refine .inr fun k => Option.eq_none_iff_forall_not_mem.2 fun x hx => h ⟨k, x, hx⟩

theorem Returns.pure (a : α) (s : σ) : Returns (Pure.pure a) s a s := ⟨0, rfl⟩

theorem Returns.device (g : σ → α × σ) (s : σ) : Returns (device g) s (g s).1 (g s).2 := ⟨0, rfl⟩

theorem Returns.bind (hp : Returns p s a s') (hf : Returns (f a) s' b s'') :
    Returns (p >>= f) s b s'' := by
  obtain ⟨j, hp⟩ := hp
  obtain ⟨k, hf⟩ := hf
  refine ⟨max j k, Option.bind_eq_some_iff.2 ⟨(a, s'), ?_, ?_⟩⟩
  · exact run_of_le hp (Nat.le_max_left j k)
  · exact run_of_le hf (Nat.le_max_right j k)

/-- The first part of a program waits for ever. -/
theorem Hangs.bind (hp : Hangs p s) : Hangs (p >>= f) s := by
  intro k
  apply Option.bind_eq_none_iff.2
  intro x hx
  rw [hp k] at hx
  cases hx

/-- The rest of a program waits for ever, once the first part has returned. -/
theorem Returns.bind_hangs (hp : Returns p s a s') (hf : Hangs (f a) s') : Hangs (p >>= f) s := by
  intro k
  apply Option.bind_eq_none_iff.2
  rintro ⟨a', s''⟩ hx
  obtain ⟨rfl, rfl⟩ := hp.unique ⟨k, hx⟩
  exact hf k

/-- The two parts of a program that has returned. -/
theorem Returns.of_bind (h : Returns (p >>= f) s b s'') :
    ∃ a s', Returns p s a s' ∧ Returns (f a) s' b s'' := by
  obtain ⟨k, hk⟩ := h
  obtain ⟨⟨a, s'⟩, ha, hb⟩ := Option.bind_eq_some_iff.1 hk
  exact ⟨a, s', ⟨k, ha⟩, ⟨k, hb⟩⟩

/-- One of the two parts waits for ever. -/
theorem Hangs.of_bind (h : Hangs (p >>= f) s) :
    Hangs p s ∨ ∃ a s', Returns p s a s' ∧ Hangs (f a) s' := by
  rcases returns_or_hangs p s with ⟨a, s', hp⟩ | hp
  · rcases returns_or_hangs (f a) s' with ⟨b, s'', hf⟩ | hf
    · exact absurd (hp.bind hf) h.not_returns
    · exact .inr ⟨a, s', hp, hf⟩
  · exact .inl hp

/-! ## Two devices -/

section

variable {τ : Type} {t t' : τ}

/-- The program uses the first of two devices. -/
def onFst (p : Polling σ α) : Polling (σ × τ) α where
  run k s := (p.run k s.1).map fun x => (x.1, x.2, s.2)
  mono := by
    intro k s x h
    rw [Option.map_eq_some_iff] at h ⊢
    obtain ⟨y, hy, rfl⟩ := h
    exact ⟨y, p.mono hy, rfl⟩

/-- The program uses the second of two devices. -/
def onSnd (p : Polling τ α) : Polling (σ × τ) α where
  run k s := (p.run k s.2).map fun x => (x.1, s.1, x.2)
  mono := by
    intro k s x h
    rw [Option.map_eq_some_iff] at h ⊢
    obtain ⟨y, hy, rfl⟩ := h
    exact ⟨y, p.mono hy, rfl⟩

theorem Returns.onFst (h : Returns p s a s') : Returns (onFst p) (s, t) a (s', t) := by
  obtain ⟨k, hk⟩ := h
  exact ⟨k, Option.map_eq_some_iff.2 ⟨_, hk, rfl⟩⟩

theorem Returns.onSnd {q : Polling τ α} (h : Returns q t a t') :
    Returns (Polling.onSnd q) (s, t) a (s, t') := by
  obtain ⟨k, hk⟩ := h
  exact ⟨k, Option.map_eq_some_iff.2 ⟨_, hk, rfl⟩⟩

theorem Hangs.onFst (h : Hangs p s) : Hangs (Polling.onFst p) (s, t) := by
  intro k
  exact Option.map_eq_none_iff.2 (h k)

theorem Hangs.onSnd {q : Polling τ α} (h : Hangs q t) : Hangs (Polling.onSnd q) (s, t) := by
  intro k
  exact Option.map_eq_none_iff.2 (h k)

end

/-! ## Loops -/

section

variable {body : β → Polling σ β} {stop : β → Bool} {b' b'' : β}

theorem loop_stop (h : stop b = true) (s : σ) : Returns (loop body stop b) s b s := by
  refine ⟨0, ?_⟩
  change turns body stop 0 0 b s = _
  exact turns_stop h 0 0

theorem loop_turn (h : stop b = false) (hb : Returns (body b) s b' s')
    (hr : Returns (loop body stop b') s' b'' s'') : Returns (loop body stop b) s b'' s'' := by
  obtain ⟨j, hj⟩ := hb
  obtain ⟨k, hk⟩ := hr
  refine ⟨max j k + 1, ?_⟩
  change turns body stop _ _ b s = _
  rw [turns_succ h, Option.bind_eq_some_iff]
  exact ⟨(b', s'), run_of_le hj (by omega), turns_of_le hk (by omega) (by omega)⟩

/-- The loop returns if each turn lowers the index of its invariant. -/
theorem loop_returns {ι : Type} [LT ι] [WellFoundedLT ι] {I : ι → β → σ → Prop}
    (hI : ∀ i b s, I i b s → stop b = false → ∃ j b' s', j < i ∧ Returns (body b) s b' s' ∧ I j b' s')
    {i : ι} (h : I i b s) :
    ∃ j b' s', Returns (loop body stop b) s b' s' ∧ I j b' s' ∧ stop b' = true := by
  induction i using WellFoundedLT.induction generalizing b s with
  | ind i ih =>
    cases hb : stop b with
    | true => exact ⟨i, b, s, loop_stop hb s, h, hb⟩
    | false =>
      obtain ⟨j, b', s', hlt, hr, hj⟩ := hI i b s h hb
      obtain ⟨m, b'', s'', hl, hm⟩ := ih j hlt hj
      exact ⟨m, b'', s'', loop_turn hb hr hl, hm⟩

/-- What cannot stop waits for ever: so does the loop if each turn that ends keeps an invariant. -/
theorem turns_eq_none {I : β → σ → Prop}
    (hI : ∀ b s, I b s → stop b = false ∧ ∀ b' s', Returns (body b) s b' s' → I b' s')
    (h : I b s) (k n : Nat) : turns body stop k n b s = none := by
  induction n generalizing b s with
  | zero => exact turns_zero (hI b s h).1 k
  | succ n ih =>
    rw [turns_succ (hI b s h).1, Option.bind_eq_none_iff]
    rintro ⟨b', s'⟩ hx
    exact ih ((hI b s h).2 b' s' ⟨k, hx⟩)

/-- The loop never gets where it stops. -/
theorem loop_hangs {I : β → σ → Prop}
    (hI : ∀ b s, I b s → stop b = false ∧ ∀ b' s', Returns (body b) s b' s' → I b' s')
    (h : I b s) : Hangs (loop body stop b) s := fun k => turns_eq_none hI h k k

end

/-! ## Waiting loops -/

section

variable {poll : Polling σ α} {stop : α → Bool}

theorem pollUntil_stop (hp : Returns poll s a s') (h : stop a = true) :
    Returns (pollUntil poll stop) s () s' :=
  hp.bind ((loop_stop h s').bind (.pure () s'))

theorem pollUntil_turn (hp : Returns poll s a s') (h : stop a = false)
    (hr : Returns (pollUntil poll stop) s' () s'') : Returns (pollUntil poll stop) s () s'' := by
  obtain ⟨a', s₁, ha, hr⟩ := hr.of_bind
  obtain ⟨a'', s₂, hl, hr⟩ := hr.of_bind
  exact hp.bind ((loop_turn h ha hl).bind hr)

/-- What the device reads stays different from what the loop waits for. -/
theorem pollUntil_hangs {I : σ → Prop}
    (hI : ∀ s, I s → ∃ a s', Returns poll s a s' ∧ stop a = false ∧ I s') (h : I s) :
    Hangs (pollUntil poll stop) s := by
  obtain ⟨a, s', hp, ha, hs⟩ := hI s h
  refine hp.bind_hangs (Hangs.bind ?_)
  refine loop_hangs (I := fun a s => stop a = false ∧ I s) ?_ ⟨ha, hs⟩
  rintro b s ⟨hb, hs⟩
  refine ⟨hb, fun b' s' hr => ?_⟩
  obtain ⟨a', s'', hr', ha', hs'⟩ := hI s hs
  obtain ⟨rfl, rfl⟩ := hr'.unique hr
  exact ⟨ha', hs'⟩

end

/-! ## Implementation -/

section

variable {τ : Type} {I : τ → Prop} {abs : τ → σ} {q : Polling τ α} {g : α → Polling τ β}

/-- Over the device `τ` the program `q` does what `p` does over the device that `τ` stands for: it
returns the same, or waits for ever as `p` does. -/
def Implements (I : τ → Prop) (abs : τ → σ) (q : Polling τ α) (p : Polling σ α) : Prop :=
  ∀ t, I t →
    (∀ a s', Returns p (abs t) a s' → ∃ t', Returns q t a t' ∧ abs t' = s' ∧ I t') ∧
    (Hangs p (abs t) → Hangs q t)

theorem Implements.pure (a : α) :
    Implements I abs (Pure.pure a : Polling τ α) (Pure.pure a : Polling σ α) := by
  refine fun t ht => ⟨fun a' s' hr => ?_, fun hh => absurd (Returns.pure a _) hh.not_returns⟩
  obtain ⟨rfl, rfl⟩ := (Returns.pure a (abs t)).unique hr
  exact ⟨t, .pure _ t, rfl, ht⟩

theorem Implements.bind (hp : Implements I abs q p) (hf : ∀ a, Implements I abs (g a) (f a)) :
    Implements I abs (q >>= g) (p >>= f) := by
  refine fun t ht => ⟨fun b s'' hr => ?_, fun hh => ?_⟩
  · obtain ⟨a, s', hr₁, hr₂⟩ := hr.of_bind
    obtain ⟨t', hq, rfl, ht'⟩ := (hp t ht).1 a s' hr₁
    obtain ⟨t'', hg, hs, ht''⟩ := (hf a t' ht').1 b s'' hr₂
    exact ⟨t'', hq.bind hg, hs, ht''⟩
  · rcases hh.of_bind with h | ⟨a, s', hr, h⟩
    · exact ((hp t ht).2 h).bind
    · obtain ⟨t', hq, rfl, ht'⟩ := (hp t ht).1 a s' hr
      exact hq.bind_hangs ((hf a t' ht').2 h)

theorem Implements.turns {body : β → Polling σ β} {body' : β → Polling τ β} {stop : β → Bool}
    (hb : ∀ b, Implements I abs (body' b) (body b)) {k n : Nat} {b b' : β} {t : τ} {s' : σ}
    (ht : I t) (h : turns body stop k n b (abs t) = some (b', s')) :
    ∃ t', Returns (loop body' stop b) t b' t' ∧ abs t' = s' ∧ I t' := by
  induction n generalizing b t with
  | zero =>
    cases hs : stop b with
    | true =>
      rw [turns_stop hs] at h
      cases h
      exact ⟨t, loop_stop hs t, rfl, ht⟩
    | false =>
      rw [turns_zero hs] at h
      cases h
  | succ n ih =>
    cases hs : stop b with
    | true =>
      rw [turns_stop hs] at h
      cases h
      exact ⟨t, loop_stop hs t, rfl, ht⟩
    | false =>
      rw [turns_succ hs, Option.bind_eq_some_iff] at h
      obtain ⟨⟨b₁, s₁⟩, hx, hrest⟩ := h
      obtain ⟨t₁, hr, rfl, ht₁⟩ := (hb b t ht).1 b₁ s₁ ⟨k, hx⟩
      obtain ⟨t', hr', hs', ht'⟩ := ih ht₁ hrest
      exact ⟨t', loop_turn hs hr hr', hs', ht'⟩

theorem Implements.loop {body : β → Polling σ β} {body' : β → Polling τ β} (stop : β → Bool)
    (hb : ∀ b, Implements I abs (body' b) (body b)) (b : β) :
    Implements I abs (loop body' stop b) (loop body stop b) := by
  refine fun t ht => ⟨fun b' s' ⟨k, hk⟩ => Implements.turns hb ht hk, fun hh => ?_⟩
  refine loop_hangs (I := fun b t => I t ∧ Hangs (Polling.loop body stop b) (abs t)) ?_ ⟨ht, hh⟩
  rintro b t ⟨ht, hh⟩
  have hs : stop b = false := by
    rw [Bool.eq_false_iff]
    exact fun hs => hh.not_returns (loop_stop hs (abs t))
  refine ⟨hs, fun b' t' hr => ?_⟩
  rcases returns_or_hangs (body b) (abs t) with ⟨b₁, s₁, hr₁⟩ | hh₁
  · obtain ⟨t₁, hr₂, rfl, ht₁⟩ := (hb b t ht).1 b₁ s₁ hr₁
    obtain ⟨rfl, rfl⟩ := hr₂.unique hr
    refine ⟨ht₁, ?_⟩
    rcases returns_or_hangs (Polling.loop body stop b') (abs t') with ⟨b₂, s₂, hr₃⟩ | hh₂
    · exact absurd (loop_turn hs hr₁ hr₃) hh.not_returns
    · exact hh₂
  · exact absurd hr ((hb b t ht).2 hh₁).not_returns

theorem Implements.pollUntil {p : Polling σ α} (hp : Implements I abs q p) (stop : α → Bool) :
    Implements I abs (pollUntil q stop) (pollUntil p stop) :=
  hp.bind fun a => (Implements.loop stop (fun _ => hp) a).bind fun _ => .pure ()

/-- The second of two devices stands for another one. -/
theorem Implements.onSnd {ρ : Type} (hp : Implements I abs q p) :
    Implements (fun x : ρ × τ => I x.2) (fun x => (x.1, abs x.2)) (onSnd q) (onSnd p) := by
  rintro ⟨r, t⟩ ht
  refine ⟨fun a s' ⟨k, hk⟩ => ?_, fun hh => ?_⟩
  · obtain ⟨⟨a', s₁⟩, hx, hy⟩ := Option.map_eq_some_iff.1 hk
    cases hy
    obtain ⟨t', hr, rfl, ht'⟩ := (hp t ht).1 a' s₁ ⟨k, hx⟩
    exact ⟨(r, t'), hr.onSnd, rfl, ht'⟩
  · refine Hangs.onSnd ((hp t ht).2 fun k => ?_)
    exact Option.map_eq_none_iff.1 (hh k)

/-- The first of two devices is the same. -/
theorem Implements.onFst {ρ : Type} (r : Polling ρ α) :
    Implements (fun x : ρ × τ => I x.2) (fun x => (x.1, abs x.2)) (onFst r) (onFst r) := by
  rintro ⟨x, t⟩ ht
  refine ⟨fun a s' ⟨k, hk⟩ => ?_, fun hh => ?_⟩
  · obtain ⟨⟨a', x'⟩, hx, hy⟩ := Option.map_eq_some_iff.1 hk
    cases hy
    exact ⟨(x', t), Returns.onFst ⟨k, hx⟩, rfl, ht⟩
  · exact Hangs.onFst fun k => Option.map_eq_none_iff.1 (hh k)

end

end Polling

end Lib
