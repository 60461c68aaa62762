import QccGui.Gui.FrameLogger
import QccGui.Gui.Window

/-!
# Reception with the logger

The logger is called first in `_on_frame_received`, and an exception of it is one of the slot.

* `FrameLogger.raises`: an event leaves the logger with an exception.
* `Window.receive`: the slot with the logger; `receive_eq`: what it does to the window is what the
  window's own model does.
* `Undisturbed`: the logger returns, writes the row of the frame, and the frame is dispatched as
  with logging off.
* `logging_undisturbed`: that is so exactly if an active logger gets a whole header and its file
  takes the row.
-/

namespace QccGui

open Lib

def LogSignal.isRaised : LogSignal → Bool
  | .raised _ => true
  | _ => false

namespace FrameLogger

variable {l : FrameLogger} {raw : Bytes} {elapsedUs : ℚ} {stamp : String} {failure : Option String}

/-- Between `l` and `l'` an exception has left the logger. -/
def raises (l l' : FrameLogger) : Bool := (l'.signals.drop l.signals.length).any LogSignal.isRaised

theorem raises_of_signals {l' : FrameLogger} (new : List LogSignal)
    (h : l'.signals = l.signals ++ new) : l.raises l' = new.any LogSignal.isRaised := by
  rw [raises, h, List.drop_left]

/-! ## The response -/

/-- Writing a row reports a lost file at most. -/
theorem signals_writeRow (row : LogRow) (failure : Option String) :
    ∃ new, (l.writeRow row failure).signals = l.signals ++ new ∧
      new.any LogSignal.isRaised = false := by
  unfold writeRow
  split
  · split
    · exact ⟨_, rfl, rfl⟩
    · exact ⟨[], by simp, rfl⟩
  · exact ⟨[], by simp, rfl⟩

/-- The statistics are reported without an exception. -/
theorem raises_emitStats {l' : FrameLogger} {new : List LogSignal}
    (h : l'.signals = l.signals ++ new) (hn : new.any LogSignal.isRaised = false) :
    l.raises l'.emitStats = false := by
  rw [raises_of_signals (new ++ [_]) (by rw [emitStats, emit, h, List.append_assoc]),
    List.any_append, hn]
  rfl

theorem written_writeRow (row : LogRow) (h : l.active = true) : (l.writeRow row failure).written =
    if failure = none then l.written ++ [row] else l.written := by
  unfold writeRow
  rw [if_pos h]
  cases failure <;> rfl

/-- The row of a response. -/
def rxRow (l : FrameLogger) (raw : Bytes) (elapsedUs : ℚ) (stamp : String) : LogRow :=
  let header := QccHeaderTx.decode (raw.take headerSize)
  match l.pending with
  | none => strayRow raw header stamp (delayText elapsedUs)
  | some p => answerRow p raw header stamp (delayText elapsedUs)

theorem rxRow_hex : (l.rxRow raw elapsedUs stamp).rxRawHex = hexText raw := by
  unfold rxRow
  dsimp only
  split <;> rfl

/-- A whole header: no exception, and a row unless the file fails. -/
theorem raises_whole (ha : l.active = true) (hl : headerSize ≤ raw.length) :
    l.raises (l.logRx raw elapsedUs stamp failure) = false ∧
      (l.logRx raw elapsedUs stamp failure).written =
        if failure = none then l.written ++ [l.rxRow raw elapsedUs stamp] else l.written := by
  unfold logRx rxRow
  rw [if_pos ha, fromBytes_ok hl]
  dsimp only
  cases hp : l.pending with
  | none =>
    dsimp only [logStray]
    generalize strayRow raw _ stamp _ = row
    obtain ⟨new, hs, hn⟩ := signals_writeRow (l := l) row failure
    refine ⟨raises_emitStats hs hn, ?_⟩
    rw [emitStats_written, written_writeRow row ha]
  | some p =>
    dsimp only [logAnswer]
    generalize answerRow p raw _ stamp _ = row
    generalize hd : ({ l with
      pending := none, flushTimer := false
      ok := if row.result = LogResult.ok then l.ok + 1 else l.ok
      errors := if row.result = LogResult.ok then l.errors else l.errors + 1
      qtrmFails := l.qtrmFails + row.notOk.length } : FrameLogger) = d
    have hds : d.signals = l.signals := by rw [← hd]
    have hdw : d.written = l.written := by rw [← hd]
    obtain ⟨new, hs, hn⟩ := signals_writeRow (l := d) row failure
    rw [hds] at hs
    refine ⟨raises_emitStats hs hn, ?_⟩
    rw [emitStats_written, written_writeRow row (by rw [← hd]; exact ha), hdw]

/-- Less than a header: an exception, and nothing else. -/
theorem raises_short (ha : l.active = true) (hl : raw.length < headerSize) :
    l.raises (l.logRx raw elapsedUs stamp failure) = true ∧
      (l.logRx raw elapsedUs stamp failure).written = l.written := by
  have hne : (raw.take headerSize).length ≠ headerSize := by
    rw [List.length_take]
    omega
  obtain ⟨e, he⟩ : ∃ e, QccHeaderTx.fromBytes (raw.take headerSize) = .error e := by
    rw [QccHeaderTx.fromBytes, requireSize, if_pos hne]
    exact ⟨_, rfl⟩
  have hx : l.logRx raw elapsedUs stamp failure = l.emit (.raised e.message) := by
    rw [logRx, if_pos ha, he]
  rw [hx]
  exact ⟨raises_of_signals [.raised e.message] rfl, rfl⟩

theorem logRx_inactive (ha : l.active = false) : l.logRx raw elapsedUs stamp failure = l := by
  simp [logRx, ha]

theorem raises_logRx : l.raises (l.logRx raw elapsedUs stamp failure) = true ↔
    l.active = true ∧ raw.length < headerSize := by
  cases ha : l.active with
  | false => simp [logRx_inactive ha, raises]
  | true =>
    rcases Nat.lt_or_ge raw.length headerSize with hl | hl
    · simp [(raises_short ha hl).1, hl]
    · simp [(raises_whole ha hl).1, Nat.not_lt.2 hl]

/-- A file that takes the row stays open. -/
theorem active_logRx : (l.logRx raw elapsedUs stamp none).active = l.active := by
  unfold logRx
  split
  · split
    · rfl
    · split
      · simp only [logStray, emitStats, emit, writeRow]
        split <;> simp_all
      · simp only [logAnswer, emitStats, emit, writeRow]
        split <;> simp_all
  · rfl

end FrameLogger

/-! ## The slot -/

namespace Window

variable {w : Window} {l : FrameLogger} {raw : Bytes} {elapsedUs : ℚ} {stamp : String}
  {failure : Option String} {shownUs : Option Nat} {repaint : Bool}

/-- `_on_frame_received` with its logger. -/
def receive (w : Window) (l : FrameLogger) (raw : Bytes) (elapsedUs : ℚ) (stamp : String)
    (failure : Option String) (shownUs : Option Nat) (repaint : Bool) : Window × FrameLogger :=
  let l' := l.logRx raw elapsedUs stamp failure
  if l.raises l' then (w, l')
  else ({ { w with logging := false }.onFrameReceived raw shownUs repaint with logging := l'.active },
    l')

/-- What the slot has done, whatever has become of the log. -/
def unlogged (x : Window × FrameLogger) : Window := { x.1 with logging := false }

theorem onReply_logging (w : Window) (b : Bool) (k : Kind) (raw : Bytes) (shownUs : Option Nat)
    (repaint : Bool) : { w with logging := b }.onReply k raw shownUs repaint =
      { w.onReply k raw shownUs repaint with logging := b } := by
  unfold onReply takeTarget
  have hshow : ∀ (d : Window) (target : Option Qtrm),
      ({ d with logging := b }.showResponseTime k shownUs).showResult k raw target =
        { (d.showResponseTime k shownUs).showResult k raw target with logging := b } := by
    intro d target
    have htime : { d with logging := b }.showResponseTime k shownUs =
        { d.showResponseTime k shownUs with logging := b } := by
      unfold showResponseTime
      split
      · split <;> rfl
      · rfl
    rw [htime]
    generalize d.showResponseTime k shownUs = f
    unfold showResult
    split
    · rfl
    · rename_i parser _
      have hrun : { f with logging := b }.runParser raw parser = f.runParser raw parser := by
        cases parser <;> rfl
      rw [hrun]
      split <;> rfl
  generalize (commands k).targetAttr = attr
  cases attr with
  | none =>
    dsimp only
    split
    · rfl
    · exact hshow w none
  | some a =>
    dsimp only
    split
    · rfl
    · exact hshow { w with targets := Function.update w.targets a none } (w.targets a)

/-- Whether the log is on matters for a short frame only. -/
theorem onFrameReceived_logging (shownUs : Option Nat) (repaint : Bool)
    (hl : ¬ (w.logging = true ∧ raw.length < headerSize)) : w.onFrameReceived raw shownUs repaint =
      { { w with logging := false }.onFrameReceived raw shownUs repaint with logging := w.logging } := by
  have hoff : ¬ (({ w with logging := false } : Window).logging = true ∧ raw.length < headerSize) :=
    fun h => by cases h.1
  rw [onFrameReceived, onFrameReceived, if_neg hl, if_neg hoff]
  have hreply := fun k => onReply_logging { w.endWait with awaiting := none, logging := false }
    w.logging k raw shownUs repaint
  obtain ⟨ctrl, worker, awaiting, pendingTimer, targets, type, sub, burnTestWorker, asking, logging,
    out⟩ := w
  cases awaiting with
  | none => rfl
  | some a =>
    cases a with
    | remoteProgramming => rfl
    | burnTest => rfl
    | command k =>
      dsimp only
      rw [if_neg nofun, if_neg nofun]
      cases k with
      | chipIdRead =>
        dsimp only
        unfold onChipIdReply
        split <;> rfl
      | _ => exact hreply _

/-- The logger's part in the model of the window: a file that takes the row. -/
theorem receive_eq (hw : w.logging = l.active) :
    (w.receive l raw elapsedUs stamp none shownUs repaint).1 =
      w.onFrameReceived raw shownUs repaint := by
  unfold receive
  dsimp only
  by_cases hshort : l.active = true ∧ raw.length < headerSize
  · rw [if_pos (FrameLogger.raises_logRx.2 hshort), onFrameReceived, if_pos (by rwa [hw])]
  · have hlong : ¬ (w.logging = true ∧ raw.length < headerSize) := by rwa [hw]
    have hdispatch := onFrameReceived_logging shownUs repaint hlong
    rw [if_neg (mt FrameLogger.raises_logRx.1 hshort), FrameLogger.active_logRx, ← hw]
    exact hdispatch.symm

end Window

/-! ## Undisturbed reception -/

/-- What logging should do to the reception of a frame: the logger returns, an active one has written
the row of the frame, and the frame is dispatched as with logging off. -/
structure Undisturbed (l : FrameLogger) (raw : Bytes) (elapsedUs : ℚ) (stamp : String)
    (failure : Option String) : Prop where
  returns : l.raises (l.logRx raw elapsedUs stamp failure) = false
  row : l.active = true → ∃ row, row.rxRawHex = hexText raw ∧
    (l.logRx raw elapsedUs stamp failure).written = l.written ++ [row]
  dispatched : ∀ (w : Window) (shownUs : Option Nat) (repaint : Bool),
    Window.unlogged (w.receive l raw elapsedUs stamp failure shownUs repaint) =
      Window.unlogged (w.receive { l with active := false } raw elapsedUs stamp failure shownUs repaint)

variable {l : FrameLogger} {raw : Bytes} {elapsedUs : ℚ} {stamp : String} {failure : Option String}

/-- A frame is dispatched as with logging off unless the logger raises. -/
theorem dispatched_of_returns (h : l.raises (l.logRx raw elapsedUs stamp failure) = false)
    (w : Window) (shownUs : Option Nat) (repaint : Bool) :
    Window.unlogged (w.receive l raw elapsedUs stamp failure shownUs repaint) =
      Window.unlogged
        (w.receive { l with active := false } raw elapsedUs stamp failure shownUs repaint) := by
  have hoff : FrameLogger.raises { l with active := false }
      (FrameLogger.logRx { l with active := false } raw elapsedUs stamp failure) = false := by
    rw [FrameLogger.logRx_inactive rfl]
    simp [FrameLogger.raises]
  rw [Window.receive, Window.receive, if_neg (by simp [h]), if_neg (by simp [hoff])]
  rfl

/-- After an exception of the logger the command that waits does not see the frame. -/
theorem lost_of_raises (h : l.raises (l.logRx raw elapsedUs stamp failure) = true) (w : Window)
    (shownUs : Option Nat) (repaint : Bool) :
    (w.receive l raw elapsedUs stamp failure shownUs repaint).1 = w := by
  rw [Window.receive, if_pos h]

/-- Logging leaves the reception of a frame alone exactly if an active logger gets a whole header
and its file takes the row. -/
theorem logging_undisturbed (l : FrameLogger) (raw : Bytes) (elapsedUs : ℚ) (stamp : String)
    (failure : Option String) : Undisturbed l raw elapsedUs stamp failure ↔
      (l.active = true → headerSize ≤ raw.length ∧ failure = none) := by
  constructor
  · rintro ⟨hret, hrow, -⟩ ha
    have hl : headerSize ≤ raw.length := by
      by_contra hn
      rw [(FrameLogger.raises_short ha (Nat.lt_of_not_le hn)).1] at hret
      cases hret
    refine ⟨hl, ?_⟩
    by_contra hf
    obtain ⟨row, -, hw⟩ := hrow ha
    rw [(FrameLogger.raises_whole ha hl).2, if_neg hf] at hw
    simpa using congrArg List.length hw
  · intro h
    have hret : l.raises (l.logRx raw elapsedUs stamp failure) = false := by
      rw [← Bool.not_eq_true, FrameLogger.raises_logRx]
      rintro ⟨ha, hl⟩
      exact absurd (h ha).1 (Nat.not_le.2 hl)
    refine ⟨hret, fun ha => ?_, dispatched_of_returns hret⟩
    obtain ⟨hl, hf⟩ := h ha
    refine ⟨l.rxRow raw elapsedUs stamp, FrameLogger.rxRow_hex, ?_⟩
    rw [(FrameLogger.raises_whole ha hl).2, if_pos hf]

/-- The response to CHIP_ID_READ, with the log on. -/
theorem chip_id_response_lost : ¬ ∀ (l : FrameLogger) (raw : Bytes) (elapsedUs : ℚ) (stamp : String),
    Forwarded raw → Undisturbed l raw elapsedUs stamp none := by
  intro hall
  have hl : (zeros rpInnerCmdSize).length = rpInnerCmdSize := zeros_length _
  have hret := (hall { active := true } (zeros rpInnerCmdSize) 0 "" (.inr (.inr hl))).returns
  rw [(FrameLogger.raises_short rfl (by rw [hl]; decide)).1] at hret
  cases hret

end QccGui
