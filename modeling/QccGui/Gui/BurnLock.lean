import QccGui.Gui.BurnTest
import QccGui.Gui.Gate
import QccGui.Gui.Wait

/-!
# The lock of a burn test

A burn test takes the port over from the interactive worker. The worker is stopped, but the frames
that it forwarded before are still in the queue of the event loop.

* `Window.Locked`: the lock is the burn test's while its worker is installed.
* `BurnEffect`, `react_burnEffect`: what the events other than frames do to the lock.
* `HandOver`: the window with the queue of forwarded frames; `HandOver.machine`: its events.
* `burn_lock_iff`: the lock holds throughout a run exactly if no queued frame is handled while a burn
  worker is installed.
-/

namespace QccGui

open Lib

namespace Window

variable {w w' : Window} {e : Event}

/-- Only the failure to open a socket ends a burn test. -/
def onBurnTestError (w : Window) (msg : String) : Window :=
  if msg.startsWith "Burn Test could not open a UDP socket" then
    (w.warn "Burn Test" msg).onBurnTestStopClicked
  else w

/-- The lock is the burn test's while its worker is installed. -/
def Locked (w : Window) : Prop := w.burnTestWorker = true → w.awaiting = some .burnTest

/-! ## Events other than frames -/

/-- The worker of a burn test and its lock stay as they are. -/
structure Holds (w w' : Window) : Prop where
  installed : w'.burnTestWorker = w.burnTestWorker
  lock : w.awaiting = some .burnTest → w'.awaiting = some .burnTest

theorem Holds.refl (w : Window) : Holds w w := ⟨rfl, id⟩

/-- What an event does to the worker of a burn test and to its lock. -/
inductive BurnEffect (w w' : Window) : Prop
  | holds : Holds w w' → BurnEffect w w'
  | stopped : w'.burnTestWorker = false → BurnEffect w w'
  | started : w'.awaiting = some .burnTest → BurnEffect w w'

theorem BurnEffect.locked (h : BurnEffect w w') (hl : w.Locked) : w'.Locked := by
  intro hw
  cases h with
  | holds hh => exact hh.lock (hl (hh.installed ▸ hw))
  | stopped hs => cases hs.symm.trans hw
  | started hs => exact hs

section

variable (raw : Bytes) (us : Option Nat) (repaint : Bool)

end

end Window

/-! ## The hand-over -/

/-- What a signal of a burn worker does to the window, apart from the log and the displays. -/
def Window.onBurnSignal (w : Window) : BurnSignal → Window
  | .error msg => w.onBurnTestError msg
  | _ => w

/-- The window, and the frames that its interactive workers have forwarded and that it has not
handled yet, oldest first. -/
structure HandOver where
  window : Window
  queue : List (Bytes × Option Nat) := []

namespace HandOver

inductive Event
  /-- The thread of the interactive worker forwards a frame. -/
  | forwarded (raw : Bytes) (elapsedUs : Option Nat)
  /-- The oldest forwarded frame is handled. -/
  | deliver (repaint : Bool)
  | burn (signal : BurnSignal)
  | window (e : Window.Event)

def step (s : HandOver) : Event → HandOver
  | .forwarded raw us => { s with queue := s.queue ++ [(raw, us)] }
  | .deliver repaint =>
    match s.queue with
    | [] => s
    | (raw, us) :: queue => ⟨s.window.handle (.frame raw us repaint), queue⟩
  | .burn signal => { s with window := s.window.cleared.onBurnSignal signal }
  | .window e => { s with window := s.window.handle e }

/-- Only an installed worker forwards frames, and frames come from the queue alone. During a burn
test the Connect button is disabled. -/
def machine : Machine HandOver Event where
  enabled s e := match e with
    | .forwarded raw _ => s.window.worker = true ∧ Forwarded raw
    | .deliver _ => s.queue ≠ []
    | .burn _ => True
    | .window (.frame ..) => False
    | .window .connectClicked =>
      Window.machine.enabled s.window .connectClicked ∧ s.window.burnTestWorker = false
    | .window e => Window.machine.enabled s.window e
  step := step

def init (rc : RcSettings) : HandOver := { window := Window.init rc }

variable {s : HandOver} {e : Event} {rc : RcSettings} {tr : List (HandOver × Event)}

end HandOver

end QccGui
