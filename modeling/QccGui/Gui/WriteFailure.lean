import QccGui.Gui.FrameLogger

/-!
# Rows that cannot be written

What the frame logger does with an operation whose row cannot be written: the disk is full, or the
file is gone.

* `Idle`: a logger without a file. `Idle.run`: it stays as it is until a start.
* `WriteFails`: an operation whose row meets an error of the file.
* `Clean`: a clean end of logging. `flushPending_failed`: the row of the pending query ends it.
* `failure_clean`: the end is clean if the operation is a response or the flush timer; and only then.
-/

namespace QccGui

open Lib

def LogSignal.isError : LogSignal → Bool
  | error _ => true
  | _ => false

namespace FrameLogger

/-! ## A logger without a file -/

/-- No file, no pending query and no armed timer. -/
structure Idle (l : FrameLogger) : Prop where
  active : l.active = false
  pending : l.pending = none
  flushTimer : l.flushTimer = false

def Event.IsStart : Event → Prop
  | .start .. => True
  | _ => False

section

variable {l s : FrameLogger} {e : Event}

theorem Idle.not_closeRaises (h : Idle l) (failure : Option String) : ¬ l.CloseRaises failure := by
  rintro ⟨hl, -⟩
  rw [h.active] at hl
  cases hl

/-- Every operation but a start leaves it as it is. -/
theorem Idle.step (h : Idle l) (he : ¬ e.IsStart) : l.step e = l := by
  cases e with
  | start => exact absurd trivial he
  | stop failure => simp [FrameLogger.step, stop, h.not_closeRaises, h.active]
  | logTx raw stamp failure => simp [FrameLogger.step, logTx, h.active]
  | logRx raw elapsedUs stamp failure => simp [FrameLogger.step, logRx, h.active]
  | expired failure =>
    have hstep : l.step (.expired failure) = { l with flushTimer := false } := by
      simp [FrameLogger.step, onPendingExpired, h.active]
    rw [hstep, ← h.flushTimer]

theorem Idle.run {tr : List (FrameLogger × Event)} (h : Idle l) (hr : machine.Run l tr s)
    (hs : Machine.Along (fun _ e => ¬ e.IsStart) tr) : s = l := by
  refine hr.invariant (I := fun s => s = l) rfl (fun s e hsl _ he => ?_) hs
  subst hsl
  exact h.step he

/-- What a start leaves that opened its file: the file is empty, and all counters are zero. -/
structure Started (path : String) (l : FrameLogger) : Prop where
  active : l.active = true
  path : l.path = path
  written : l.written = []
  pending : l.pending = none
  flushTimer : l.flushTimer = false
  counters : l.rows = 0 ∧ l.ok = 0 ∧ l.missing = 0 ∧ l.errors = 0 ∧ l.qtrmFails = 0

/-- A start opens its file if it can, and says why if it cannot. -/
theorem Idle.start (h : Idle l) (path : String) (failure : Option String) :
    Started path (l.start path none failure).1 ∧
      ∀ err, l.start path (some err) failure = (l, some err) := by
  have hstop : l.stop failure = l := by simp [stop, h.not_closeRaises, h.active]
  constructor
  · simp only [FrameLogger.start, h.not_closeRaises, if_false, hstop]
    exact ⟨rfl, rfl, rfl, rfl, h.flushTimer, rfl, rfl, rfl, rfl, rfl⟩
  · intro err
    simp only [FrameLogger.start, h.not_closeRaises, if_false, hstop]

end

/-! ## A write that fails -/

/-- The operation writes a row, and the write or the flush behind it fails. -/
def WriteFails (l : FrameLogger) : Event → Prop
  | .start _ _ failure | .stop failure | .logTx _ _ failure | .expired failure =>
    l.active = true ∧ l.pending.isSome ∧ failure.isSome
  | .logRx raw _ _ failure => l.active = true ∧ headerSize ≤ raw.length ∧ failure.isSome

/-- A clean end: one error signal, no exception, and a logger that does nothing until it is started
again. A start goes on to open its file. -/
structure Clean (l : FrameLogger) (e : Event) : Prop where
  signals : ∃ sent, (l.step e).signals = l.signals ++ sent ∧ sent.countP LogSignal.isError = 1 ∧
    ∀ message, .raised message ∉ sent
  idle : ¬ e.IsStart → Idle (l.step e)
  later : ¬ e.IsStart → ∀ tr s, machine.Run (l.step e) tr s →
    Machine.Along (fun _ e => ¬ e.IsStart) tr → s = l.step e
  restart : ¬ e.IsStart → ∀ path failure,
    Started path ((l.step e).start path none failure).1 ∧
      ∀ err, (l.step e).start path (some err) failure = (l.step e, some err)

section

variable {l : FrameLogger} {e : Event} {err : String}

/-- A logger that has lost its file, and tells so. -/
theorem Clean.of_lost {l' : FrameLogger} {message : String} (hl' : Idle l')
    (hsignals : l'.signals = l.signals) (hstep : l.step e = (l'.emit (.error message)).emitStats) :
    Clean l e := by
  have hidle : Idle (l.step e) := by
    rw [hstep]
    exact ⟨hl'.active, hl'.pending, hl'.flushTimer⟩
  refine ⟨?_, fun _ => hidle, fun _ _ _ hr hs => hidle.run hr hs,
    fun _ path failure => hidle.start path failure⟩
  refine ⟨[.error message, .statsChanged l'.rows l'.ok l'.missing l'.errors l'.qtrmFails], ?_, rfl,
    by simp⟩
  rw [hstep, emitStats, emit, emit, hsignals, List.append_assoc]
  rfl

theorem writeRow_failed (hl : l.active = true) (row : LogRow) :
    l.writeRow row (some err) = { l with active := false, flushTimer := false, pending := none }.emit
      (.error s!"Data logging stopped - could not write to {l.path}: {err}") := by
  simp [writeRow, hl]

/-- The row of the pending query cannot be written. -/
theorem flushPending_failed (hl : l.active = true) (hp : l.pending.isSome) (result : LogResult) :
    l.flushPending result (some err) =
      { l with active := false, flushTimer := false, pending := none, missing := l.missing + 1 }.emit
        (.error s!"Data logging stopped - could not write to {l.path}: {err}") := by
  obtain ⟨p, hp⟩ := Option.isSome_iff_exists.1 hp
  simp [flushPending, hp, writeRow, hl]

theorem closeRaises_of_failed (hl : l.active = true) (hp : l.pending.isSome) :
    l.CloseRaises (some err) := by
  refine ⟨hl, ?_⟩
  rw [flushPending_failed hl hp]
  rfl

theorem clean_expired (hl : l.active = true) (hp : l.pending.isSome) :
    Clean l (.expired (some err)) := by
  have hstep : l.step (.expired (some err)) =
      ({ l with flushTimer := false }.flushPending .timeout (some err)).emitStats := by
    simp [step, onPendingExpired, hl, hp]
  have hlost : { l with flushTimer := false }.flushPending .timeout (some err) = _ :=
    flushPending_failed (l := { l with flushTimer := false }) hl hp .timeout
  rw [hlost] at hstep
  refine .of_lost ?_ ?_ hstep
  · exact ⟨rfl, rfl, rfl⟩
  · rfl

theorem clean_logRx {raw : Bytes} {elapsedUs : ℚ} {stamp : String} (hl : l.active = true)
    (hraw : headerSize ≤ raw.length) : Clean l (.logRx raw elapsedUs stamp (some err)) := by
  have hstep : ∃ l' message, Idle l' ∧ l'.signals = l.signals ∧
      l.step (.logRx raw elapsedUs stamp (some err)) =
        (l'.emit (.error message)).emitStats := by
    simp only [step, logRx, hl, if_true, fromBytes_ok hraw]
    cases hp : l.pending with
    | none =>
      simp only [logStray, writeRow_failed hl]
      exact ⟨{ l with
        active := false, flushTimer := false, pending := none, errors := l.errors + 1 }, _,
        ⟨rfl, rfl, rfl⟩, rfl, rfl⟩
    | some p =>
      simp only [logAnswer]
      rw [writeRow_failed (by exact hl)]
      refine ⟨_, _, ?_, ?_, rfl⟩
      · exact ⟨rfl, rfl, rfl⟩
      · rfl
  obtain ⟨l', message, hidle, hsignals, hstep⟩ := hstep
  exact .of_lost hidle hsignals hstep

/-- An exception that leaves the operation. -/
theorem not_clean_of_raised {sent : List LogSignal} {message : String}
    (hsent : (l.step e).signals = l.signals ++ sent) (h : .raised message ∈ sent) : ¬ Clean l e := by
  intro hc
  obtain ⟨sent', hsent', -, hnone⟩ := hc.signals
  obtain rfl : sent = sent' := List.append_cancel_left (hsent.symm.trans hsent')
  exact hnone message h

theorem signals_stop (hl : l.active = true) (hp : l.pending.isSome) :
    (l.stop (some err)).signals = l.signals ++
      [.error s!"Data logging stopped - could not write to {l.path}: {err}",
        .raised "'NoneType' object has no attribute 'close'"] := by
  rw [stop, if_pos (closeRaises_of_failed hl hp), flushPending_failed hl hp, emit, emit,
    List.append_assoc]
  rfl

/-- The new query is kept although its file is lost, or its header raises. -/
theorem not_clean_logTx {raw : Bytes} {stamp : String} (hl : l.active = true)
    (hp : l.pending.isSome) : ¬ Clean l (.logTx raw stamp (some err)) := by
  have hstep : l.step (.logTx raw stamp (some err)) =
      l.logTx raw stamp (some err) := rfl
  rw [logTx, if_pos hl, flushPending_failed hl hp] at hstep
  cases hsize : requireSize (raw.take headerSize) headerSize "command header" with
  | error e =>
    rw [hsize] at hstep
    have hsent := congrArg FrameLogger.signals hstep
    have hraised : LogSignal.raised e.message ∈
        [.error s!"Data logging stopped - could not write to {l.path}: {err}",
          .raised e.message] := .tail _ (.head _)
    exact not_clean_of_raised (hsent.trans (List.append_assoc ..)) hraised
  | ok u =>
    rw [hsize] at hstep
    intro hc
    have hpending := (hc.idle id).pending
    rw [hstep] at hpending
    cases hpending

/-- An operation whose row cannot be written ends logging cleanly if it logs a response or is the
flush timer's. A stop and a start raise an exception, and a query is kept without a file. -/
theorem failure_clean (h : WriteFails l e) :
    Clean l e ↔ (∃ raw elapsedUs stamp failure, e = .logRx raw elapsedUs stamp failure) ∨
      ∃ failure, e = .expired failure := by
  cases e with
  | start path openError failure =>
    obtain ⟨hl, hp, hf⟩ := h
    obtain ⟨err, rfl⟩ := Option.isSome_iff_exists.1 hf
    have hstep : l.step (.start path openError (some err)) = l.stop (some err) := by
      simp only [step, start, closeRaises_of_failed hl hp, if_true]
    have hraised := not_clean_of_raised (hstep ▸ signals_stop hl hp) (.tail _ (.head _))
    simp [hraised]
  | stop failure =>
    obtain ⟨hl, hp, hf⟩ := h
    obtain ⟨err, rfl⟩ := Option.isSome_iff_exists.1 hf
    have hraised : ¬ Clean l (.stop (some err)) :=
      not_clean_of_raised (signals_stop hl hp) (.tail _ (.head _))
    simp [hraised]
  | logTx raw stamp failure =>
    obtain ⟨hl, hp, hf⟩ := h
    obtain ⟨err, rfl⟩ := Option.isSome_iff_exists.1 hf
    simp [not_clean_logTx hl hp]
  | logRx raw elapsedUs stamp failure =>
    obtain ⟨hl, hraw, hf⟩ := h
    obtain ⟨err, rfl⟩ := Option.isSome_iff_exists.1 hf
    simp [clean_logRx hl hraw]
  | expired failure =>
    obtain ⟨hl, hp, hf⟩ := h
    obtain ⟨err, rfl⟩ := Option.isSome_iff_exists.1 hf
    simp [clean_expired hl hp]

end

/-- A logger with a pending query. -/
def waiting : FrameLogger :=
  machine.exec {} [.start "log.csv" none none, .logTx (zeros 90) "10:00" none]

theorem waiting_active : waiting.active = true ∧ waiting.pending.isSome := by
  simp [waiting, step, start, stop, CloseRaises, logTx, flushPending, requireSize, headerSize,
    machine]

/-- The disk is full when a query is sent, and when logging is stopped. -/
theorem failed_write_unclean :
    machine.Allows {} [.start "log.csv" none none, .logTx (zeros 90) "10:00" none] ∧
      WriteFails waiting (.logTx (zeros 90) "10:01" (some "No space left on device")) ∧
      ¬ Clean waiting (.logTx (zeros 90) "10:01" (some "No space left on device")) ∧
      WriteFails waiting (.stop (some "No space left on device")) ∧
      ¬ Clean waiting (.stop (some "No space left on device")) := by
  obtain ⟨hl, hp⟩ := waiting_active
  exact ⟨allows (by simp) _, ⟨hl, hp, rfl⟩, not_clean_logTx hl hp, ⟨hl, hp, rfl⟩,
    not_clean_of_raised (signals_stop hl hp) (.tail _ (.head _))⟩

/-- The disk is full when the flush timer runs out. -/
theorem failure_clean_expired : Clean waiting (.expired (some "No space left on device")) := by
  have hfails : WriteFails waiting (.expired (some "No space left on device")) :=
    ⟨waiting_active.1, waiting_active.2, rfl⟩
  exact (failure_clean hfails).2 (.inr ⟨_, rfl⟩)

end FrameLogger

end QccGui
