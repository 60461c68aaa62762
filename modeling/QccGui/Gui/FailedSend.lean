import QccGui.Gui.Gaps
import QccGui.Gui.Outcome

/-!
# Sends that fail

A `sendto` that fails is reported by a signal of the worker, whose handler opens a modal box in the
middle of the handler that sends. Events go on being handled until the operator closes the box. The
send is the last thing that a command does, but `_rp_start` still looks at the controller once the
start method has returned.

* `Controller.untilSend`, `Controller.afterSend`: the two parts of a start method; `startOp_resume`.
* `Boxed`, `Boxed.machine`: the window, and a session start that is held up by a box.
* `Boxed.Ok`, `Boxed.ok_step`: the invariant of the window, for these events too.
* `Boxed.waiting_step`, `Boxed.idle_step`: one event, while a command waits and while none does.
-/

namespace QccGui

open Lib

namespace Controller

variable {c : Controller} {what : Start} {e : Event}

/-! ## The two parts of a start -/

/-- A start method up to its send: just what an exception of the send function leaves of it. -/
def untilSend (c : Controller) (what : Start) : Controller :=
  { ({ c with sendOk := false }.startOp what) with sendOk := c.sendOk, raised := c.raised }

/-- The signals that a start method sends behind its frame. -/
def behindSend (c : Controller) (what : Start) : List Signal :=
  ({ c with sendOk := true }.startOp what).out.drop (c.untilSend what).out.length

/-- The rest of a start method. -/
def afterSend (c : Controller) (what : Start) (signals : List Signal) : Controller :=
  let c := { c with out := c.out ++ signals }
  match what with
  | .upload .. => { c with currentChunk := none, pendingShots := c.pendingShots + 1 }
  | _ => c

/-- A start that is held up at its send, and goes on at once. -/
theorem startOp_resume (ha : c.Accepts what) (hl : c.sendOk = true) (hr : c.raised = false) :
    c.startOp what = (c.untilSend what).afterSend what (c.behindSend what) := by
  obtain ⟨hop, hg⟩ := ha
  cases what with
  | modeStep1 | modeStep2 =>
    simp [afterSend, behindSend, untilSend, startOp, startModeStep1, startModeStep2, busy, hop, start,
      sendFn, next, emit, hl, hr, targetDesc, qccLevelHeader]
  | upload image golden =>
    obtain ⟨hg, hi⟩ := hg
    simp only [gateOpen] at hg
    have hi : image.isEmpty = false := by simpa using hi
    simp [afterSend, behindSend, untilSend, startOp, startUpload, busy, hop, sendRp, sendFn, next, emit,
      hl, hr, gateOpen, hg, hi]
  | modeBack | linkCheck | lruInfo | qtrmHighSpeed =>
    simp only [gateOpen] at hg
    simp [afterSend, behindSend, untilSend, startOp, startModeBack, startLinkCheck, startLruInfo,
      startQtrmHighSpeed, busy, hop, start, sendRp, sendFn, next, emit, hl, hr, targetDesc,
      qccLevelHeader, gateOpen, hg]
  | authenticate | verify | program =>
    simp only [gateOpen] at hg
    simp [afterSend, behindSend, untilSend, startOp, startAuthenticate, startVerify, startProgram,
      startIapPoll, busy, hop, start, sendRp, sendFn, next, emit, hl, hr, gateOpen, hg]

@[simp] theorem afterSend_op (signals : List Signal) : (c.afterSend what signals).op = c.op := by
  unfold afterSend
  split <;> rfl

theorem ok_untilSend (h : c.Ok) (what : Start) : (c.cleared.untilSend what).Ok := by
  have hok : ({ c with sendOk := false } : Controller).Ok := h.congr rfl
  exact (ok_handle (e := .start what) hok trivial).congr rfl

/-- The one-shot of an upload is armed once there are chunks. -/
theorem ok_afterSend (h : c.Ok) {signals : List Signal}
    (hn : ∀ image golden, what = .upload image golden → 0 < c.chunkCount) :
    (c.afterSend what signals).Ok := by
  cases what with
  | upload image golden =>
    have hpos := hn image golden rfl
    exact ⟨h.count, fun _ => hpos, h.upload, fun hop => ⟨(h.idle hop).1, .inl rfl⟩, h.timer, nofun⟩
  | _ => exact h.congr rfl

/-- Once there are chunks there always are. -/
theorem chunkCount_pos_handle (hok : c.Ok) (h : 0 < c.chunkCount) (e : Event) :
    0 < (c.handle e).chunkCount := by
  by_cases hs : ∃ image golden, e = .start (.upload image golden) ∧ c.Accepts (.upload image golden)
  · obtain ⟨image, golden, rfl, ha⟩ := hs
    have hr := @rows_startUpload c.cleared image golden ha
    have hn : (c.handle (.start (.upload image golden))).chunkCount = (splitChunks image).length :=
      congrArg Prod.snd hr
    rw [hn]
    exact splitChunks_length_pos ha.2.2
  · have hg := @grown_handle c e hok fun image golden he ha => hs ⟨image, golden, he, ha⟩
    rw [hg.count]
    exact h

theorem chunkCount_pos_untilSend {image : Bytes} {golden : Bool}
    (ha : c.Accepts (.upload image golden)) :
    0 < (c.cleared.untilSend (.upload image golden)).chunkCount := by
  have hr := @rows_startUpload { c.cleared with sendOk := false } image golden ha
  have hn : (c.cleared.untilSend (.upload image golden)).chunkCount = (splitChunks image).length :=
    congrArg Prod.snd hr
  rw [hn]
  exact splitChunks_length_pos ha.2.2

theorem untilSend_op (ha : c.Accepts what) : (c.cleared.untilSend what).op = some what.op :=
  (startOp_accepted (c := { c.cleared with sendOk := false }) ha).op

end Controller

/-! ## The window with a box -/

/-- The events that reach the window while a modal box keeps the operator out. -/
def Window.Event.Unattended : Window.Event → Prop
  | .request r => r.isAutoResend = true
  | .responseTimeout | .rpTimer | .rpShot | .frame .. | .workerStopped | .bindFailed _
  | .burnTestStop | .setLogging _ => True
  | _ => False

/-- The window, and the session start that a box holds up, with the signals that it has still to
send. -/
structure Boxed where
  window : Window
  suspended : Option (Controller.Start × List Signal) := none

namespace Boxed

/-- The frame of a start goes nowhere, the worker says why, and a box opens. -/
def rpStartFails (b : Boxed) (what : Controller.Start) (reason : String) : Boxed :=
  let w := b.window.cleared
  let c := w.ctrl.cleared.untilSend what
  { window := { w with
      ctrl := c, awaiting := some .remoteProgramming
      out := c.out.filterMap (Window.forward w.worker) ++ [.warning "UDP Error" reason] }
    suspended := some (what, w.ctrl.cleared.behindSend what) }

/-- The start goes on, and `_rp_start` looks at the controller. -/
def boxClosed (b : Boxed) : Boxed :=
  match b.suspended with
  | none => b
  | some (what, signals) =>
    let w := b.window.cleared
    let c := w.ctrl.cleared.afterSend what signals
    let w := { w with ctrl := c, out := c.out.filterMap (Window.forward w.worker) }
    { window := if ¬ c.busy then { w with awaiting := none }.emit (.couldNotStart what.op) else w }

inductive Event
  | window (e : Window.Event)
  | rpStartFails (what : Controller.Start) (reason : String)
  | boxClosed

/-- A start whose send fails is one that the window and the controller accept. Its box lets no other
start in. -/
def machine : Machine Boxed Event where
  enabled b e := match e with
    | .window e => Window.machine.enabled b.window e ∧ (b.suspended.isSome → e.Unattended)
    | .rpStartFails what _ => b.window.worker = true ∧ b.window.awaiting = none ∧
        b.window.asking = false ∧ b.suspended = none ∧ b.window.ctrl.Accepts what
    | .boxClosed => b.suspended.isSome
  step b e := match e with
    | .window e => { b with window := b.window.handle e }
    | .rpStartFails what reason => b.rpStartFails what reason
    | .boxClosed => b.boxClosed

def init (rc : RcSettings) : Boxed := { window := Window.init rc }

variable {b : Boxed} {e : Event} {k : Kind}

/-! ## The invariant -/

structure Ok (b : Boxed) : Prop where
  window : b.window.Ok
  chunks : ∀ image golden signals, b.suspended = some (.upload image golden, signals) →
    0 < b.window.ctrl.chunkCount

theorem ok_init (rc : RcSettings) : (init rc).Ok := ⟨Window.ok_init rc, nofun⟩

theorem chunkCount_pos_react {w : Window} {e : Window.Event} (h : w.Ok)
    (he : Window.machine.enabled w e) (hn : 0 < w.ctrl.chunkCount) :
    0 < (w.handle e).ctrl.chunkCount := by
  rcases (Window.react_rest (w := w.cleared) he).ctrl with hc | ⟨c, -, -, hc⟩
  · have hcount : (w.handle e).ctrl.chunkCount = w.ctrl.chunkCount :=
      @Controller.chunkCount_of_core w.ctrl (w.handle e).ctrl hc
    rwa [hcount]
  · have hcount : (w.handle e).ctrl.chunkCount = (w.ctrl.handle c).chunkCount :=
      Controller.chunkCount_of_core hc
    rw [hcount]
    exact Controller.chunkCount_pos_handle h.ctrl hn c

theorem ok_rpStartFails (h : b.Ok) {what : Controller.Start} {reason : String}
    (he : machine.enabled b (.rpStartFails what reason)) : (b.rpStartFails what reason).Ok := by
  obtain ⟨-, -, hask, -, ha⟩ := he
  have hop : ((b.rpStartFails what reason).window.ctrl).op = some what.op :=
    Controller.untilSend_op (c := b.window.ctrl) ha
  refine ⟨⟨Controller.ok_untilSend h.window.ctrl what, ?_, nofun, nofun, fun hk => ?_⟩, ?_⟩
  · simp only [hop]
    exact ⟨fun _ => nofun, fun _ => rfl⟩
  · exact absurd (hask.symm.trans hk) nofun
  · rintro image golden signals hs
    obtain ⟨rfl, -⟩ := Prod.mk.inj (Option.some.inj hs)
    exact Controller.chunkCount_pos_untilSend ha

/-- The window once the box is closed. -/
structure Resumed (what : Controller.Start) (signals : List Signal) (w w' : Window) : Prop where
  ctrl : w'.ctrl = w.ctrl.cleared.afterSend what signals
  pendingTimer : w'.pendingTimer = w.pendingTimer
  targets : w'.targets = w.targets
  asking : w'.asking = w.asking
  awaiting : w'.awaiting = if w.ctrl.op = none then none else w.awaiting
  outcomes : outcomes w'.out = []

theorem resumed_boxClosed {what : Controller.Start} {signals : List Signal}
    (hs : b.suspended = some (what, signals)) :
    Resumed what signals b.window b.boxClosed.window ∧ b.boxClosed.suspended = none := by
  rw [boxClosed, hs]
  refine ⟨?_, rfl⟩
  dsimp only
  by_cases hop : b.window.ctrl.op = none
  · have hb : ¬ (b.window.cleared.ctrl.cleared.afterSend what signals).busy = true := by
      rw [Controller.busy, Controller.afterSend_op]
      simp [Controller.cleared, Window.cleared, hop]
    rw [if_pos hb]
    refine ⟨rfl, rfl, rfl, rfl, (if_pos hop).symm, ?_⟩
    rw [Window.outcomes_emit]
    exact (List.append_nil _).trans (Window.outcomes_forward ..)
  · have hb : (b.window.cleared.ctrl.cleared.afterSend what signals).busy = true := by
      rw [Controller.busy, Controller.afterSend_op]
      exact Option.isSome_iff_ne_none.2 hop
    rw [if_neg (not_not.2 hb)]
    exact ⟨rfl, rfl, rfl, rfl, (if_neg hop).symm, Window.outcomes_forward ..⟩

theorem ok_boxClosed (h : b.Ok) (he : machine.enabled b .boxClosed) : b.boxClosed.Ok := by
  obtain ⟨⟨what, signals⟩, hs⟩ := Option.isSome_iff_exists.1 he
  obtain ⟨hr, hnone⟩ := resumed_boxClosed hs
  have hop : b.boxClosed.window.ctrl.op = b.window.ctrl.op := by
    rw [hr.ctrl, Controller.afterSend_op]
    rfl
  have hwait : ∀ k, b.boxClosed.window.awaiting = some (.command k) →
      b.window.awaiting = some (.command k) := by
    intro k ha
    rw [hr.awaiting] at ha
    split at ha
    · cases ha
    · exact ha
  refine ⟨⟨?_, ?_, fun k ha => ?_, fun k a ha hat => ?_, fun hask => ?_⟩, ?_⟩
  · have hok : b.window.ctrl.cleared.Ok := h.window.ctrl.congr rfl
    rw [hr.ctrl]
    refine Controller.ok_afterSend hok fun image golden hw => ?_
    exact h.chunks image golden signals (hw ▸ hs)
  · rw [hop, hr.awaiting]
    split
    · rename_i hn
      simp [hn]
    · exact h.window.busy
  · rw [hr.pendingTimer]
    exact h.window.armed k (hwait k ha)
  · rw [hr.targets]
    exact h.window.latched k a (hwait k ha) hat
  · rw [hop]
    exact h.window.asking (hr.asking ▸ hask)
  · rw [hnone]
    nofun

theorem ok_step (h : b.Ok) (he : machine.enabled b e) : (machine.step b e).Ok := by
  cases e with
  | window e =>
    exact ⟨Window.ok_handle h.window he.1, fun image golden signals hs =>
      chunkCount_pos_react h.window he.1 (h.chunks image golden signals hs)⟩
  | rpStartFails what reason => exact ok_rpStartFails h he
  | boxClosed => exact ok_boxClosed h he

theorem run_ok {rc : RcSettings} {tr : List (Boxed × Event)} (hr : machine.Run (init rc) tr b) :
    b.Ok :=
  hr.invariant' (ok_init rc) fun _ _ h he => ok_step h he

/-! ## Waits -/

/-- The event latches a command of kind `k`. -/
def Begins (k : Kind) (b : Boxed) : Event → Prop
  | .window e => Window.Begins k b.window e
  | _ => False

/-- The event does not end the wait for a command of kind `k` without a word: a start that goes on
behind its box leaves the lock alone only as long as the session lasts. -/
def Delivers (k : Kind) (b : Boxed) : Event → Prop
  | .window e => Window.Delivers k b.window e
  | .rpStartFails .. => True
  | .boxClosed => b.window.ctrl.busy = true

/-- What one event does to a wait for a command of kind `k`. -/
structure WaitStep (k : Kind) (b : Boxed) (e : Event) (b' : Boxed) : Prop where
  stays : b'.window.awaiting = some (.command k) → Delivers k b e ∧ told k b'.window.out = 0
  ends : b'.window.awaiting ≠ some (.command k) →
    (Delivers k b e → told k b'.window.out = 1) ∧ (¬ Delivers k b e → told k b'.window.out = 0)

/-- While a command waits, it is told of exactly when its wait ends, by an event that delivers. -/
theorem waiting_step (h : b.Ok) (he : machine.enabled b e) (hp : (commands k).parser.isSome)
    (ha : b.window.awaiting = some (.command k)) (hb : ¬ Begins k b e) :
    WaitStep k b e (machine.step b e) := by
  cases e with
  | window e =>
    obtain ⟨hs, hends⟩ := Window.waiting_step h.window hp ha hb
    exact ⟨hs, hends⟩
  | rpStartFails what reason =>
    have hnone : b.window.awaiting = none := he.2.1
    rw [ha] at hnone
    cases hnone
  | boxClosed =>
    obtain ⟨⟨what, signals⟩, hs⟩ := Option.isSome_iff_exists.1 he
    obtain ⟨hr, -⟩ := resumed_boxClosed hs
    -- a command waits, so that the session is over
    have hop : b.window.ctrl.op = none := by simpa [ha] using h.window.busy
    have hidle : ¬ Delivers k b .boxClosed := by simp [Delivers, Controller.busy, hop]
    have haft : b.boxClosed.window.awaiting = none := by rw [hr.awaiting, if_pos hop]
    have htold : told k b.boxClosed.window.out = 0 := by
      rw [told, hr.outcomes]
      rfl
    refine ⟨fun hk => ?_, fun _ => ⟨fun hd => absurd hd hidle, fun _ => htold⟩⟩
    cases haft.symm.trans hk

/-- While no command of kind `k` waits, none is told of, and only a new one waits afterwards. -/
theorem idle_step (h : b.Ok) (he : machine.enabled b e)
    (ha : b.window.awaiting ≠ some (.command k)) :
    told k (machine.step b e).window.out = 0 ∧
      ((machine.step b e).window.awaiting = some (.command k) → Begins k b e) := by
  cases e with
  | window e => exact Window.idle_step h.window he.1 ha
  | rpStartFails what reason =>
    refine ⟨?_, nofun⟩
    have hnone : outcomes (b.rpStartFails what reason).window.out = [] := by
      rw [rpStartFails, outcomes, List.filterMap_append]
      exact (congrArg (· ++ _) (Window.outcomes_forward ..)).trans rfl
    rw [told, show outcomes (machine.step b (.rpStartFails what reason)).window.out = _ from hnone]
    rfl
  | boxClosed =>
    obtain ⟨⟨what, signals⟩, hs⟩ := Option.isSome_iff_exists.1 he
    obtain ⟨hr, -⟩ := resumed_boxClosed hs
    constructor
    · rw [told, show outcomes (machine.step b .boxClosed).window.out = _ from hr.outcomes]
      rfl
    · intro haft
      rw [show (machine.step b .boxClosed).window.awaiting = _ from hr.awaiting] at haft
      split at haft
      · cases haft
      · exact absurd haft ha

end Boxed

end QccGui
