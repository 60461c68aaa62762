import QccGui.Gui.BurnAccounts
import Mathlib.Logic.Function.Basic

/-!
# The file of a burn test

The worker of a burn test writes no file. Its signals wait in the queue of the event loop, and the
window hands the rows in them to `BurnTestLogger`.

* `BurnTestLogger`: the logger; the files are a map from paths to texts.
* `BurnWindow`: what a burn test's log depends on in the main window. `BurnWindow.machine`: the
  statements of the worker's thread, in any order with the events of the GUI thread.
* `BurnWindow.Logging`: how far the file of a run has come; every event keeps it.
* `BurnWindow.burn_file`: once the end of a run has been handled, its file holds all its rows, and the
  offline analysis counts in it what the last statistics say.
-/

namespace QccGui

open Lib

/-- The files, by path. -/
abbrev Disk := String → Option (List Char)

/-- An error of a file operation, and what the path holds then. -/
structure FileError where
  message : String
  left : Option (List Char)

/-- The path of the open file, and of the last one. -/
structure BurnTestLogger where
  file : Option String := none
  path : Option String := none

/-- The text of rows without the column names. -/
def rowsText (rows : List LogRow) : List Char :=
  rows.flatMap fun r => excel.writeRow (r.cells.map String.toList)

theorem fileText_append (rows rows' : List LogRow) :
    fileText (rows ++ rows') = fileText rows ++ rowsText rows' := by
  simp [fileText, rowsText, List.flatMap_map]

namespace BurnTestLogger

/-- An error of the `close` is ignored. -/
def stop (l : BurnTestLogger) : BurnTestLogger := { l with file := none }

/-- `start`, with the error message that it returns. -/
def start (l : BurnTestLogger) (disk : Disk) (path : String) (failure : Option FileError) :
    BurnTestLogger × Disk × Option String :=
  match failure with
  | some e => (l.stop, Function.update disk path e.left, some e.message)
  | none =>
    ({ file := some path, path := some path }, Function.update disk path (some (fileText [])), none)

/-- The message that the log has ended. -/
def loggingStopped (path text : String) : String :=
  s!"Burn Test logging stopped - could not write to {path}: {text}"

/-- `append_rows`, with the error message that it emits. -/
def appendRows (l : BurnTestLogger) (disk : Disk) (rows : List LogRow)
    (failure : Option FileError) : BurnTestLogger × Disk × Option String :=
  match l.file with
  | none => (l, disk, none)
  | some file =>
    if rows = [] then (l, disk, none)
    else match failure with
    | some e =>
      ({ l with file := none }, Function.update disk file e.left,
        some (loggingStopped (l.path.getD "None") e.message))
    | none => (l, Function.update disk file ((disk file).map (· ++ rowsText rows)), none)

/-- Rows that are not written end the log with a message. -/
theorem appendRows_cases (disk : Disk) (path : String) (rows : List LogRow)
    (failure : Option FileError) :
    let r := (⟨some path, some path⟩ : BurnTestLogger).appendRows disk rows failure
    (∃ text, r.2.2 = some (loggingStopped path text)) ∨
      r.1 = ⟨some path, some path⟩ ∧ r.2.1 path = (disk path).map (· ++ rowsText rows) := by
  unfold appendRows
  dsimp only
  split
  · rename_i h
    refine .inr ⟨rfl, ?_⟩
    simp [h, rowsText]
  · cases failure with
    | some e => exact .inl ⟨e.message, rfl⟩
    | none => exact .inr ⟨rfl, Function.update_self ..⟩

/-- A path that is not open is left as it is. -/
theorem appendRows_elsewhere {l : BurnTestLogger} (disk : Disk) {path : String}
    (rows : List LogRow) (failure : Option FileError) (h : l.file ≠ some path) :
    (l.appendRows disk rows failure).1.file ≠ some path ∧
      (l.appendRows disk rows failure).2.1 path = disk path := by
  unfold appendRows
  split
  · exact ⟨h, rfl⟩
  · rename_i file hfile
    have hne : path ≠ file := fun heq => h (heq ▸ hfile)
    split
    · exact ⟨h, rfl⟩
    · cases failure with
      | some e => exact ⟨by simp, Function.update_of_ne hne ..⟩
      | none => exact ⟨h, Function.update_of_ne hne ..⟩

end BurnTestLogger

/-- `worker` is the interactive connection and `thread` the thread of the last burn test, which ends
before `worker.stop()` returns; `waiting` is the window in that call. `warnings` are those of the last
event. -/
structure BurnWindow where
  worker : Bool := false
  burnTestWorker : Bool := false
  thread : Option BurnTest := none
  waiting : Bool := false
  queue : List BurnSignal := []
  logger : BurnTestLogger := {}
  disk : Disk := fun _ => none
  warnings : List String := []

namespace BurnWindow

def startWorker (w : BurnWindow) (config : BurnConfig) (rc : RcSettings) (now : ℚ)
    (bindError : Option String) : BurnWindow :=
  let thread := BurnTest.run config rc now bindError
  { w with
    worker := false, burnTestWorker := true, thread := some thread
    queue := w.queue ++ thread.signals }

/-- `_on_burn_test_start`, where the operator has agreed. -/
def onBurnTestStart (w : BurnWindow) (config : BurnConfig) (rc : RcSettings) (now : ℚ)
    (bindError : Option String) (logPath : Option String) (failure : Option FileError) :
    BurnWindow :=
  match logPath.map fun path => w.logger.start w.disk path failure with
  | none => w.startWorker config rc now bindError
  | some (logger, disk, none) => { w with logger, disk }.startWorker config rc now bindError
  | some (logger, disk, some err) =>
    { w with logger, disk, warnings := w.warnings ++ [s!"Could not start logging:\n{err}"] }

/-- `_on_burn_test_stop`, up to the wait for the thread. -/
def onBurnTestStop (w : BurnWindow) : BurnWindow :=
  if w.burnTestWorker then { w with thread := w.thread.map (·.step .stop), waiting := true }
  else { w with logger := w.logger.stop }

def onBurnTestWorkerStatus (w : BurnWindow) (msg : String) : BurnWindow :=
  if msg = "Burn Test stopped" then { w with logger := w.logger.stop } else w

/-- The socket could not be opened. -/
def fatal (msg : String) : Bool := msg.startsWith "Burn Test could not open a UDP socket"

def onBurnTestError (w : BurnWindow) (msg : String) : BurnWindow :=
  if fatal msg then { w with warnings := w.warnings ++ [msg] }.onBurnTestStop else w

def appendRows (w : BurnWindow) (rows : List LogRow) (failure : Option FileError) : BurnWindow :=
  let (logger, disk, err) := w.logger.appendRows w.disk rows failure
  { w with logger, disk, warnings := w.warnings ++ err.toList }

/-- What a signal of the worker is connected to. -/
def receive (w : BurnWindow) (failure : Option FileError) : BurnSignal → BurnWindow
  | .error msg => w.onBurnTestError msg
  | .status msg => w.onBurnTestWorkerStatus msg
  | .rowsReady rows => w.appendRows rows failure
  | .statsReady _ | .linkResultReady _ | .frameReceived _ => w

/-- A statement of the worker's thread; what it emits is queued. -/
def threadStep (w : BurnWindow) (e : BurnTest.Event) : BurnWindow :=
  match w.thread with
  | none => w
  | some b =>
    { w with
      thread := some (b.step e)
      queue := w.queue ++ (b.step e).signals.drop b.signals.length }

/-- `thread` is a statement of the worker's thread, or a message number that another one takes;
`deliver` is the first signal of the queue, `stop` the button or the end of the program, and `waited`
the return of `worker.stop()`. -/
inductive Event
  | connect
  | start (config : BurnConfig) (rc : RcSettings) (now : ℚ) (bindError : Option String)
      (logPath : Option String) (failure : Option FileError)
  | thread (e : BurnTest.Event)
  | deliver (failure : Option FileError)
  | stop
  | disconnect
  | waited

def react (w : BurnWindow) : Event → BurnWindow
  | .connect => { w with worker := true }
  | .start config rc now bindError logPath failure =>
    w.onBurnTestStart config rc now bindError logPath failure
  | .thread e => w.threadStep e
  | .deliver failure =>
    match w.queue with
    | [] => w
    | signal :: queue => { w with queue }.receive failure signal
  | .stop => w.onBurnTestStop
  | .disconnect => { w with worker := false }.onBurnTestStop
  | .waited => { w with burnTestWorker := false, waiting := false }

def step (w : BurnWindow) (e : Event) : BurnWindow := { w with warnings := [] }.react e

/-- While the window waits for the thread it handles nothing. A start needs the connection, and the
button that makes one is disabled during a burn test. -/
def enabled (w : BurnWindow) : Event → Prop
  | .connect => w.waiting = false ∧ w.burnTestWorker = false
  | .start .. => w.waiting = false ∧ w.worker = true
  | .thread e => e ≠ .stop ∧ ∃ b, w.thread = some b ∧ BurnTest.machine.enabled b e
  | .deliver _ => w.waiting = false ∧ w.queue ≠ []
  | .stop | .disconnect => w.waiting = false
  | .waited => w.waiting = true ∧ ∃ b, w.thread = some b ∧ b.phase = .stopped

def machine : Machine BurnWindow Event := ⟨enabled, step⟩

abbrev Step := BurnWindow × Event

/-- The window at the start of the program. -/
def init : BurnWindow := {}

end BurnWindow

/-! ## The signals of the worker -/

namespace BurnTest

variable {b : BurnTest} {tr : List (BurnTest × Event)} {config : BurnConfig} {rc : RcSettings}
  {now : ℚ} {bindError : Option String}

/-- The last signal of a run. -/
def closing : BurnSignal := .status "Burn Test stopped"

theorem closing_ne_running (address qcc : String) :
    closing ≠ .status s!"Burn Test running from {address} to {qcc}" := by
  intro h
  have htext := congrArg String.toList (BurnSignal.status.inj h)
  simp [toString] at htext

@[simp] theorem status_notMem_batch (msg : String) (rows : List LogRow) :
    .status msg ∉ batch rows := by
  unfold batch
  split <;> simp

theorem signals_onTick (b : BurnTest) (now : ℚ) :
    ∃ new, (b.onTick now).signals = b.signals ++ new ∧ closing ∉ new := by
  unfold onTick
  dsimp only
  split
  · refine ⟨_, by simp only [List.append_assoc]; rfl, ?_⟩
    simp [closing]
  · exact ⟨[], by simp, by simp⟩

/-- What a statement emits, and whether it ends the thread. -/
inductive Emits (b b' : BurnTest) : Prop
  | quiet : b'.signals = b.signals → b'.phase = b.phase → Emits b b'
  | goesOn (new : List BurnSignal) : b.phase ≠ .stopped → b'.phase ≠ .stopped →
      b'.signals = b.signals ++ new → closing ∉ new → Emits b b'
  | ends (new : List BurnSignal) : b.phase ≠ .stopped → b'.phase = .stopped →
      b'.signals = b.signals ++ (new ++ [closing]) → closing ∉ new → Emits b b'

theorem Emits.nothing {b' : BurnTest} (h : b.phase ≠ .stopped) (h' : b'.phase ≠ .stopped)
    (hs : b'.signals = b.signals) : Emits b b' :=
  .goesOn [] h h' (by rw [hs, List.append_nil]) List.not_mem_nil

theorem emits_step {e : Event} (he : enabled b e) : Emits b (b.step e) := by
  have hne : ∀ phase, b.phase = phase → phase ≠ .stopped → b.phase ≠ .stopped :=
    fun _ h hphase => h ▸ hphase
  cases e with
  | stop => exact .quiet rfl rfl
  | headerBuilt => exact .quiet rfl rfl
  | proceed =>
    have h := hne _ he (by decide)
    rw [step]
    split
    · exact .nothing h (by simp) rfl
    · refine .ends (batch (b.rows ++ b.pending.map timeoutRow) ++
        [.statsReady ({ b with timeouts := b.timeouts + b.pending.length }.stats 0)]) h rfl ?_ ?_
      · simp only [finish, List.append_assoc]
        rfl
      · simp [closing]
  | datagram data recvPerf stamp =>
    obtain ⟨-, -, -, hs, -, -⟩ := onDatagram_eq b data recvPerf stamp
    exact .quiet hs (onDatagram_phase b data recvPerf stamp)
  | receiveError message =>
    exact .goesOn [_] (hne _ he (by decide)) (by simp [step]) rfl (by simp [closing])
  | drained => exact .nothing (hne _ he (by decide)) (by simp [step]) rfl
  | send now sendPerf stamp sendError =>
    have h := hne _ he.1 (by decide)
    rw [step]
    split
    · cases sendError with
      | none => exact .nothing h (by simp) rfl
      | some err => exact .goesOn [_] h (by simp) rfl (by simp [closing])
    · exact .nothing h (by simp) rfl
  | evict now => exact .nothing (hne _ he.1 (by decide)) (by simp [step]) rfl
  | tick now =>
    obtain ⟨new, hs, hnew⟩ := signals_onTick b now
    exact .goesOn new (hne _ he.1 (by decide)) (by simp [step]) hs hnew

/-- The thread says that it has stopped when it has, and then nothing more. -/
structure Closes (b : BurnTest) : Prop where
  running : b.phase ≠ .stopped → closing ∉ b.signals
  stopped : b.phase = .stopped → ∃ before, b.signals = before ++ [closing] ∧ closing ∉ before

theorem closes_run (config : BurnConfig) (rc : RcSettings) (now : ℚ) (bindError : Option String) :
    Closes (run config rc now bindError) := by
  cases bindError with
  | none =>
    refine ⟨fun _ h => ?_, fun h => by cases h⟩
    exact closing_ne_running _ _ (List.mem_singleton.1 h)
  | some err => exact ⟨fun h => absurd rfl h, fun _ => ⟨[_], rfl, by simp [closing]⟩⟩

theorem Closes.step {e : Event} (h : Closes b) (he : enabled b e) : Closes (b.step e) := by
  cases emits_step he with
  | quiet hs hp => exact ⟨fun hn => hs ▸ h.running (hp ▸ hn), fun hn => hs ▸ h.stopped (hp ▸ hn)⟩
  | goesOn new hp hp' hs hnew =>
    refine ⟨fun _ => ?_, fun hn => absurd hn hp'⟩
    rw [hs, List.mem_append, not_or]
    exact ⟨h.running hp, hnew⟩
  | ends new hp hp' hs hnew =>
    refine ⟨fun hn => absurd hp' hn, fun _ => ⟨b.signals ++ new, by simp [hs], ?_⟩⟩
    rw [List.mem_append, not_or]
    exact ⟨h.running hp, hnew⟩

theorem Emits.signals {b' : BurnTest} (h : Emits b b') : ∃ new, b'.signals = b.signals ++ new := by
  cases h with
  | quiet hs _ => exact ⟨[], by simp [hs]⟩
  | goesOn new _ _ hs _ => exact ⟨new, hs⟩
  | ends new _ _ hs _ => exact ⟨_, hs⟩

end BurnTest

namespace BurnWindow

open BurnTest (closing emitted NoSocketError Closes)

variable {w w' : BurnWindow} {path : String} {b₀ b : BurnTest} {early early' : Prop}
  {tr : List (BurnTest × BurnTest.Event)} {done queue : List BurnSignal} {signal : BurnSignal}
  {failure : Option FileError}

/-! ## The file of a run -/

/-- The file of a run of which the signals `done` have been handled. -/
inductive Log (path : String) (done : List BurnSignal) (w : BurnWindow) : Prop
  | writing : w.logger = ⟨some path, some path⟩ → closing ∉ done →
      w.disk path = some (fileText (emitted done)) → Log path done w
  | closed : w.logger.file = none → closing ∈ done →
      w.disk path = some (fileText (emitted done)) → Log path done w

/-- The thread of a run that started as `b₀`, and its file. `early` is that the logging has ended
before the run. -/
structure Logging (path : String) (b₀ : BurnTest) (early : Prop)
    (tr : List (BurnTest × BurnTest.Event)) (b : BurnTest) (done : List BurnSignal)
    (w : BurnWindow) : Prop where
  thread : w.thread = some b
  run : BurnTest.machine.Run b₀ tr b
  signals : b.signals = done ++ w.queue
  log : early ∨ Log path done w

theorem Log.congr (h : Log path done w) (hl : w'.logger = w.logger) (hd : w'.disk = w.disk) :
    Log path done w' := by
  cases h with
  | writing hlog hnot htext => exact .writing (hl.trans hlog) hnot (by rw [hd, htext])
  | closed hlog hmem htext => exact .closed (hl ▸ hlog) hmem (by rw [hd, htext])

theorem Logging.congr (h : Logging path b₀ early tr b done w) (he : early → early')
    (ht : w'.thread = w.thread) (hq : w'.queue = w.queue) (hl : w'.logger = w.logger)
    (hd : w'.disk = w.disk) : Logging path b₀ early' tr b done w' :=
  ⟨ht.trans h.thread, h.run, hq ▸ h.signals, h.log.imp he (·.congr hl hd)⟩

/-- Once the end of the run has been handled nothing is left in the queue. -/
theorem Logging.queue_nil (h : Logging path b₀ early tr b done w) (hc : Closes b)
    (hmem : closing ∈ done) : w.queue = [] := by
  have hs : b.phase = .stopped := by
    by_contra hp
    exact hc.running hp (h.signals ▸ List.mem_append_left _ hmem)
  obtain ⟨before, hb, hnot⟩ := hc.stopped hs
  rcases List.eq_nil_or_concat w.queue with hq | ⟨init, last, hq⟩
  · exact hq
  · rw [h.signals, hq, List.concat_eq_append, ← List.append_assoc] at hb
    obtain ⟨rfl, -⟩ := List.append_inj' hb rfl
    exact absurd (List.mem_append_left _ hmem) hnot

theorem Logging.threadStep (h : Logging path b₀ early tr b done w) {e : BurnTest.Event}
    (he : BurnTest.machine.enabled b e) :
    Logging path b₀ early (tr ++ [(b, e)]) (b.step e) done (w.threadStep e) := by
  obtain ⟨new, hs⟩ := (BurnTest.emits_step he).signals
  have hw : w.threadStep e = { w with thread := some (b.step e), queue := w.queue ++ new } := by
    simp only [BurnWindow.threadStep, h.thread, hs, List.drop_left]
  rw [hw]
  refine ⟨rfl, .snoc h.run he, ?_, h.log.imp_right (·.congr rfl rfl)⟩
  rw [hs, h.signals, List.append_assoc]

/-- With its thread running, a stop of the burn test stops the thread; without, it closes the file. -/
theorem Logging.onBurnTestStop (h : Logging path b₀ early tr b done w) :
    ∃ tr' b', Logging path b₀ (early ∨ w.burnTestWorker = false) tr' b' done w.onBurnTestStop ∧
      ∀ x ∈ tr', x ∈ tr ∨ x.2 = .stop := by
  unfold BurnWindow.onBurnTestStop
  split
  · have he : BurnTest.machine.enabled b .stop := trivial
    refine ⟨tr ++ [(b, .stop)], b.step .stop, ⟨?_, .snoc h.run he, h.signals, ?_⟩, ?_⟩
    · simp [h.thread]
    · exact (h.log.imp_right (·.congr rfl rfl)).imp_left .inl
    · intro x hx
      rcases List.mem_append.1 hx with hx | hx
      · exact .inl hx
      · exact .inr (congrArg Prod.snd (List.mem_singleton.1 hx))
  · rename_i hw
    exact ⟨tr, b, ⟨h.thread, h.run, h.signals, .inl (.inr (Bool.eq_false_iff.2 hw))⟩,
      fun x hx => .inl hx⟩

/-- A signal that is no rows and not the last. -/
theorem Log.handled (h : Log path done w) (hl : w'.logger = w.logger) (hd : w'.disk = w.disk)
    (hs : signal ≠ closing) (he : emitted [signal] = []) : Log path (done ++ [signal]) w' := by
  have htext : emitted (done ++ [signal]) = emitted done := by
    rw [BurnTest.emitted_append, he, List.append_nil]
  cases h.congr hl hd with
  | writing hlog hnot hdisk =>
    refine .writing hlog ?_ (by rw [htext, hdisk])
    rw [List.mem_append, List.mem_singleton, not_or]
    exact ⟨hnot, hs.symm⟩
  | closed hlog hmem hdisk => exact .closed hlog (List.mem_append_left _ hmem) (by rw [htext, hdisk])

theorem Log.appendRows {rows : List LogRow} (h : Log path done w) (hnot : closing ∉ done) :
    (∃ text, BurnTestLogger.loggingStopped path text ∈ (w.appendRows rows failure).warnings) ∨
      Log path (done ++ [.rowsReady rows]) (w.appendRows rows failure) := by
  cases h with
  | closed _ hmem _ => exact absurd hmem hnot
  | writing hlog _ hdisk =>
    have htext : emitted (done ++ [.rowsReady rows]) = emitted done ++ rows := by
      rw [BurnTest.emitted_append]
      simp [emitted]
    have hrows := BurnTestLogger.appendRows_cases w.disk path rows failure
    rw [← hlog] at hrows
    rcases hrows with ⟨text, herr⟩ | ⟨hlog', hdisk'⟩
    · exact .inl ⟨text, by simp [BurnWindow.appendRows, herr]⟩
    · refine .inr (.writing (hlog'.trans hlog) (by simpa [closing] using hnot) ?_)
      rw [hdisk] at hdisk'
      rw [htext, fileText_append]
      exact hdisk'

/-- A signal is handled. -/
theorem Logging.receive (h : Logging path b₀ early tr b done w) (hc : Closes b)
    (hq : w.queue = signal :: queue) (failure : Option FileError) :
    ∃ tr' b', Logging path b₀ (early ∨
        (∃ text, BurnTestLogger.loggingStopped path text ∈
          ({ w with queue }.receive failure signal).warnings) ∨
        w.burnTestWorker = false ∧ ∃ msg, signal = .error msg ∧ fatal msg)
      tr' b' (done ++ [signal]) ({ w with queue }.receive failure signal) ∧
      ∀ x ∈ tr', x ∈ tr ∨ x.2 = .stop := by
  have hs : b.signals = done ++ [signal] ++ queue := by rw [h.signals, hq, List.append_assoc]; rfl
  have hnot : closing ∉ done := fun hmem => by
    cases hq.symm.trans (h.queue_nil hc hmem)
  have hquiet : signal ≠ closing → emitted [signal] = [] →
      Logging path b₀ early tr b (done ++ [signal]) { w with queue } := fun hne he =>
    ⟨h.thread, h.run, hs, h.log.imp_right (·.handled rfl rfl hne he)⟩
  cases signal with
  | error msg =>
    have hl := hquiet (by simp [closing]) rfl
    simp only [BurnWindow.receive, onBurnTestError]
    split
    · rename_i hfatal
      obtain ⟨tr', b', hl', htr'⟩ := Logging.onBurnTestStop
        (w := { w with queue, warnings := w.warnings ++ [msg] }) (hl.congr id rfl rfl rfl rfl)
      refine ⟨tr', b', hl'.congr (Or.imp_right fun hw => .inr ⟨hw, msg, rfl, hfatal⟩) rfl rfl rfl rfl,
        htr'⟩
    · exact ⟨tr, b, hl.congr .inl rfl rfl rfl rfl, fun x hx => .inl hx⟩
  | status msg =>
    refine ⟨tr, b, ?_, fun x hx => .inl hx⟩
    simp only [BurnWindow.receive, onBurnTestWorkerStatus]
    split
    · rename_i hmsg
      subst hmsg
      refine ⟨h.thread, h.run, hs, h.log.imp .inl fun hlog => ?_⟩
      cases hlog with
      | closed _ hmem _ => exact absurd hmem hnot
      | writing _ _ hdisk =>
        refine .closed rfl (by simp [closing]) ?_
        rw [BurnTest.emitted_append, hdisk]
        simp [emitted]
    · rename_i hmsg
      refine (hquiet (fun heq => hmsg ?_) rfl).congr .inl rfl rfl rfl rfl
      exact BurnSignal.status.inj heq
  | rowsReady rows =>
    refine ⟨tr, b, ⟨h.thread, h.run, hs, ?_⟩, fun x hx => .inl hx⟩
    rcases h.log with he | hlog
    · exact .inl (.inl he)
    · have hlog' : Log path done { w with queue } := hlog.congr rfl rfl
      exact (hlog'.appendRows hnot).imp_left fun ht => .inr (.inl ht)
  | statsReady stats =>
    exact ⟨tr, b, (hquiet (by simp [closing]) rfl).congr .inl rfl rfl rfl rfl, fun x hx => .inl hx⟩
  | linkResultReady flags =>
    exact ⟨tr, b, (hquiet (by simp [closing]) rfl).congr .inl rfl rfl rfl rfl, fun x hx => .inl hx⟩
  | frameReceived raw =>
    exact ⟨tr, b, (hquiet (by simp [closing]) rfl).congr .inl rfl rfl rfl rfl, fun x hx => .inl hx⟩

/-! ## Runs -/

def Event.IsStart : Event → Prop
  | .start .. => True
  | _ => False

/-- A log is started, or was to be started, in the file `path`. -/
def Event.LogsTo (path : String) : Event → Prop
  | .start _ _ _ _ logPath _ => logPath = some path
  | _ => False

/-- No call of a socket meets an error. -/
def Event.SocketWorks : Event → Prop
  | .thread e => NoSocketError e
  | _ => True

/-- The operator is told that the log in the file `path` has ended. -/
def Told (path : String) (x : Step) : Prop :=
  ∃ text, BurnTestLogger.loggingStopped path text ∈ (machine.post x).warnings

/-- The window stops a burn test when it has none. -/
def StopsAgain (x : Step) : Prop :=
  x.1.burnTestWorker = false ∧ (x.2 = .stop ∨ x.2 = .disconnect ∨
    ∃ failure msg queue, x.2 = .deliver failure ∧ x.1.queue = .error msg :: queue ∧ fatal msg)

/-- The end of the run has been handled. -/
def Done (w : BurnWindow) : Prop := w.queue = [] ∧ ∀ b ∈ w.thread, b.phase = .stopped

theorem Logging.step {e : Event} (h : Logging path b₀ early tr b done w) (hc : Closes b)
    (he : enabled w e) (hs : ¬ e.IsStart) :
    ∃ tr' b' done', Logging path b₀ (early ∨ Told path (w, e) ∨ StopsAgain (w, e)) tr' b' done'
        (w.step e) ∧
      ∀ x ∈ tr', x ∈ tr ∨ x.2 = .stop ∨ e = .thread x.2 := by
  have h₀ : Logging path b₀ early tr b done { w with warnings := [] } := h.congr id rfl rfl rfl rfl
  have hkept : ∀ {tr' : List (BurnTest × BurnTest.Event)}, (∀ x ∈ tr', x ∈ tr ∨ x.2 = .stop) →
      ∀ x ∈ tr', x ∈ tr ∨ x.2 = .stop ∨ e = .thread x.2 := fun hx x hm =>
    (hx x hm).imp_right .inl
  cases e with
  | connect => exact ⟨tr, b, done, h.congr .inl rfl rfl rfl rfl, fun x hx => .inl hx⟩
  | start => exact absurd trivial hs
  | thread e =>
    obtain ⟨-, b', hb', he'⟩ := he
    obtain rfl := Option.some.inj (h.thread.symm.trans hb')
    refine ⟨_, _, done, (h₀.threadStep he').congr .inl rfl rfl rfl rfl, fun x hx => ?_⟩
    rcases List.mem_append.1 hx with hx | hx
    · exact .inl hx
    · exact .inr (.inr (by rw [List.mem_singleton.1 hx]))
  | deliver failure =>
    obtain ⟨signal, queue, hq⟩ := List.exists_cons_of_ne_nil he.2
    obtain ⟨tr', b', h', hx⟩ := h₀.receive hc hq failure
    have hstep : w.step (.deliver failure) =
        { w with warnings := [], queue }.receive failure signal := by
      simp only [BurnWindow.step, react, hq]
    rw [← hstep] at h'
    refine ⟨tr', b', done ++ [signal], h'.congr (Or.imp_right (Or.imp id ?_)) rfl rfl rfl rfl,
      hkept hx⟩
    rintro ⟨hw, msg, rfl, hfatal⟩
    exact ⟨hw, .inr (.inr ⟨_, msg, queue, rfl, hq, hfatal⟩)⟩
  | stop =>
    obtain ⟨tr', b', h', hx⟩ := h₀.onBurnTestStop
    refine ⟨tr', b', done, h'.congr (Or.imp_right fun hw => ?_) rfl rfl rfl rfl, hkept hx⟩
    exact .inr ⟨hw, .inl rfl⟩
  | disconnect =>
    have h₁ : Logging path b₀ early tr b done { w with warnings := [], worker := false } :=
      h.congr id rfl rfl rfl rfl
    obtain ⟨tr', b', h', hx⟩ := h₁.onBurnTestStop
    refine ⟨tr', b', done, h'.congr (Or.imp_right fun hw => ?_) rfl rfl rfl rfl, hkept hx⟩
    exact .inr ⟨hw, .inr (.inl rfl)⟩
  | waited => exact ⟨tr, b, done, h.congr .inl rfl rfl rfl rfl, fun x hx => .inl hx⟩

section

variable {config : BurnConfig} {rc : RcSettings} {now : ℚ} {bindError : Option String}
  {pre mid post : List Step} {x : Step}

theorem Logging.closes (h : Logging path (.run config rc now bindError) early tr b done w) :
    Closes b :=
  h.run.invariant' (BurnTest.closes_run config rc now bindError) fun _ _ hc he => hc.step he

theorem logging_start (hx : x.2 = .start config rc now bindError (some path) none)
    (hq : x.1.queue = []) : Logging path (.run config rc now bindError) False []
      (.run config rc now bindError) [] (machine.post x) := by
  obtain ⟨w, e⟩ := x
  obtain rfl : e = .start config rc now bindError (some path) none := hx
  have hq : w.queue = [] := hq
  refine ⟨rfl, .nil, ?_, .inr (.writing rfl List.not_mem_nil (Function.update_self ..))⟩
  simp [machine, BurnWindow.step, react, onBurnTestStart, BurnTestLogger.start, startWorker, hq]

/-- The run of a burn test up to the next start. -/
theorem logging_run (hr : machine.Run (machine.post x) mid w)
    (hx : x.2 = .start config rc now bindError (some path) none) (hq : x.1.queue = [])
    (hm : ∀ y ∈ mid, ¬ y.2.IsStart) : ∃ tr b done,
      Logging path (.run config rc now bindError) (∃ y ∈ mid, Told path y ∨ StopsAgain y) tr b done w ∧
      ((∀ y ∈ mid, y.2.SocketWorks) → ∀ z ∈ tr, NoSocketError z.2) := by
  refine hr.history (C := fun _ (e : Event) => ¬ e.IsStart) (P := fun mid w => ∃ tr b done,
    Logging path (.run config rc now bindError) (∃ y ∈ mid, Told path y ∨ StopsAgain y) tr b done w ∧
      ((∀ y ∈ mid, y.2.SocketWorks) → ∀ z ∈ tr, NoSocketError z.2)) ?_ ?_ hm
  · exact ⟨[], _, [], (logging_start hx hq).congr False.elim rfl rfl rfl rfl, fun _ z hz => nomatch hz⟩
  · rintro mid w e - ⟨tr, b, done, h, hworks⟩ he hs
    obtain ⟨tr', b', done', h', hx'⟩ := h.step h.closes he hs
    refine ⟨tr', b', done', h'.congr ?_ rfl rfl rfl rfl, fun hall z hz => ?_⟩
    · rintro (⟨y, hy, hearly⟩ | hearly)
      · exact ⟨y, List.mem_append_left _ hy, hearly⟩
      · exact ⟨(w, e), by simp, hearly⟩
    · rcases hx' z hz with hz | hz | rfl
      · exact hworks (fun y hy => hall y (List.mem_append_left _ hy)) z hz
      · rw [hz]
        trivial
      · exact hall (w, .thread z.2) (by simp)

/-! ## After the run -/

/-- The file `path` is not open, and holds `text`. -/
structure Kept (path : String) (text : Option (List Char)) (w : BurnWindow) : Prop where
  file : w.logger.file ≠ some path
  disk : w.disk path = text

variable {text : Option (List Char)}

theorem Kept.congr (h : Kept path text w) (hl : w'.logger.file = w.logger.file ∨ w'.logger.file = none)
    (hd : w'.disk = w.disk) : Kept path text w' := by
  refine ⟨?_, hd ▸ h.disk⟩
  rcases hl with hl | hl <;> rw [hl]
  · exact h.file
  · simp

theorem Kept.onBurnTestStop (h : Kept path text w) : Kept path text w.onBurnTestStop := by
  unfold BurnWindow.onBurnTestStop
  split
  · exact h.congr (.inl rfl) rfl
  · exact h.congr (.inr rfl) rfl

theorem Kept.appendRows (h : Kept path text w) (rows : List LogRow) :
    Kept path text (w.appendRows rows failure) :=
  have ⟨hfile, hdisk⟩ := BurnTestLogger.appendRows_elsewhere w.disk rows failure h.file
  ⟨hfile, hdisk.trans h.disk⟩

theorem Kept.receive (h : Kept path text w) : Kept path text (w.receive failure signal) := by
  cases signal with
  | error msg =>
    simp only [BurnWindow.receive, onBurnTestError]
    split
    · have hwarned : Kept path text { w with warnings := w.warnings ++ [msg] } :=
        h.congr (.inl rfl) rfl
      exact hwarned.onBurnTestStop
    · exact h
  | status msg =>
    simp only [BurnWindow.receive, onBurnTestWorkerStatus]
    split
    · exact h.congr (.inr rfl) rfl
    · exact h
  | rowsReady rows => exact h.appendRows rows
  | statsReady stats => exact h
  | linkResultReady flags => exact h
  | frameReceived raw => exact h

theorem Kept.onBurnTestStart {logPath : Option String} (h : Kept path text w)
    (hp : logPath ≠ some path) :
    Kept path text (w.onBurnTestStart config rc now bindError logPath failure) := by
  unfold BurnWindow.onBurnTestStart
  cases logPath with
  | none => exact h.congr (.inl rfl) rfl
  | some path' =>
    have hne : path ≠ path' := fun heq => hp (heq ▸ rfl)
    cases failure with
    | some err => exact ⟨by simp [BurnTestLogger.start, BurnTestLogger.stop],
        (Function.update_of_ne hne ..).trans h.disk⟩
    | none =>
      exact ⟨by simpa [BurnTestLogger.start, startWorker] using hne.symm,
        (Function.update_of_ne hne ..).trans h.disk⟩

theorem Kept.step {e : Event} (h : Kept path text w) (hp : ¬ e.LogsTo path) :
    Kept path text (w.step e) := by
  have h₀ : Kept path text { w with warnings := [] } := h.congr (.inl rfl) rfl
  cases e with
  | connect => exact h₀.congr (.inl rfl) rfl
  | start config rc now bindError logPath failure => exact h₀.onBurnTestStart hp
  | thread e =>
    simp only [BurnWindow.step, react, BurnWindow.threadStep]
    split <;> exact h₀.congr (.inl rfl) rfl
  | deliver failure =>
    simp only [BurnWindow.step, react]
    split
    · exact h₀
    · exact Kept.receive (h₀.congr (.inl rfl) rfl)
  | stop => exact h₀.onBurnTestStop
  | disconnect => exact Kept.onBurnTestStop (h₀.congr (.inl rfl) rfl)
  | waited => exact h₀.congr (.inl rfl) rfl

/-! ## The analysis of the file -/

/-- The offline analysis of a text counts what the statistics say. -/
def Agrees (text : List Char) (stats : BurnStats) : Prop :=
  ∃ sum, summarize (loadRows text) = some sum ∧ sum.queries.length = stats.sent ∧
    sum.count .ok = stats.ok ∧ sum.count .timeout = stats.timeouts ∧
    sum.count .crcFail + sum.count .unsolicited = stats.errors

/-- The rows of a run agree with its last statistics. -/
theorem agrees_of_run (hr : BurnTest.machine.Run (.run config rc now none) tr b)
    (hw : ∀ x ∈ tr, NoSocketError x.2) (hb : b.phase = .stopped) :
    Agrees (fileText (emitted b.signals)) (b.stats 0) := by
  have h := BurnTest.accounts_of_run hr hw
  have hend := BurnTest.ended_of_run hr hb
  have hl : b.logged = emitted b.signals := by rw [BurnTest.logged, hend.rows, List.append_nil]
  have hframes := h.frames
  rw [hend.pending, hl, List.map_nil, List.append_nil] at hframes
  refine ⟨_, summarize_fileText _, ?_, ?_, ?_, ?_⟩
  · rw [summaryOf_queries, BurnTest.stats, h.sent, ← hframes.length_eq, List.length_map,
      List.countP_eq_length_filter]
  · rw [summaryOf_count, BurnTest.stats, h.ok, hl]
  · rw [summaryOf_count, BurnTest.stats, h.timeouts, hl]
  · rw [summaryOf_count, summaryOf_count, BurnTest.stats, h.errors, hl]

/-- Once the end of a run has been handled, its file holds all rows of the worker, and keeps them until
a log is started there again; if the sockets worked, the offline analysis counts in it what the last
statistics say. Otherwise the operator has been told that the log ended, or the window has stopped a
burn test that it did not have. -/
theorem burn_file {w₁ w₂ : BurnWindow} (hr₁ : machine.Run init (pre ++ x :: mid) w₁)
    (hx : x.2 = .start config rc now bindError (some path) none) (hq : x.1.queue = [])
    (hm : ∀ y ∈ mid, ¬ y.2.IsStart) (hd : w₁.Done) (hr₂ : machine.Run w₁ post w₂)
    (hp : ∀ y ∈ post, ¬ y.2.LogsTo path) :
    (∃ b, w₁.thread = some b ∧ w₂.disk path = some (fileText (emitted b.signals)) ∧
      (bindError = none → (∀ y ∈ mid, y.2.SocketWorks) →
        (∃ before, b.signals = before ++ [.statsReady (b.stats 0), closing]) ∧
        Agrees (fileText (emitted b.signals)) (b.stats 0))) ∨
    ∃ y ∈ mid, Told path y ∨ StopsAgain y := by
  obtain ⟨-, -, hmid⟩ := hr₁.middle
  obtain ⟨tr, b, done, h, hworks⟩ := logging_run hmid hx hq hm
  obtain ⟨hempty, hphase⟩ := hd
  have hb : b.phase = .stopped := hphase b h.thread
  have hdone : b.signals = done := by rw [h.signals, hempty, List.append_nil]
  rcases h.log with hearly | hlog
  · exact .inr hearly
  refine .inl ⟨b, h.thread, ?_, ?_⟩
  · obtain ⟨before, hbefore, -⟩ := h.closes.stopped hb
    cases hlog with
    | writing _ hnot _ => exact absurd (hdone ▸ hbefore ▸ by simp) hnot
    | closed hfile _ hdisk =>
      have hkept : Kept path (some (fileText (emitted done))) w₁ := ⟨by simp [hfile], hdisk⟩
      rw [hdone]
      exact (hr₂.invariant (C := fun _ (e : Event) => ¬ e.LogsTo path) hkept
        (fun _ _ hk _ he => hk.step he) hp).disk
  · rintro rfl hall
    exact ⟨(BurnTest.ended_of_run h.run hb).signals, agrees_of_run h.run (hworks hall) hb⟩

/-- Statements of the thread alone. -/
theorem allows_thread {es : List BurnTest.Event} (hthread : w.thread = some b)
    (hallow : BurnTest.machine.Allows b es) (hstop : .stop ∉ es) :
    machine.Allows w (es.map .thread) ∧
      (machine.exec w (es.map .thread)).thread = some (BurnTest.machine.exec b es) ∧
      (machine.exec w (es.map .thread)).waiting = w.waiting ∧
      (machine.exec w (es.map .thread)).burnTestWorker = w.burnTestWorker := by
  induction es generalizing w b with
  | nil => exact ⟨trivial, hthread, rfl, rfl⟩
  | cons e es ih =>
    have hstep : machine.step w (.thread e) = { w with
        warnings := [], thread := some (b.step e)
        queue := w.queue ++ (b.step e).signals.drop b.signals.length } := by
      simp [machine, BurnWindow.step, react, BurnWindow.threadStep, hthread]
    obtain ⟨hrest, hafter⟩ := ih (w := machine.step w (.thread e)) (b := b.step e)
      (by rw [hstep]) hallow.2 fun h => hstop (.tail _ h)
    refine ⟨⟨⟨fun h => hstop (h ▸ .head _), b, hthread, hallow.1⟩, hrest⟩, ?_⟩
    rw [hstep] at hafter
    rwa [List.map_cons, Machine.exec_cons, hstep]

/-- A run with the frames of the worker's example. -/
def startLogged : Event :=
  .start ⟨false, 1, "192.168.1.1:5000", "192.168.1.2:4000", id⟩
    { date := 1, month := 1, year := 2026, timeOfDay := 0 } 0 none (some "burn.csv") none

/-- The window once the worker has gone around its loop for the last time. -/
def afterLoops : BurnWindow :=
  machine.exec init (.connect :: startLogged :: BurnTest.exampleLoops.map .thread)

/-- The stop, and the signals that are queued until then. -/
def endLogged : List Event :=
  [.stop, .thread .proceed, .waited] ++ List.replicate 8 (.deliver none)

/-- Signals that are no errors are handled one after the other. -/
theorem allows_deliver {n : Nat} (hwait : w.waiting = false) (hlen : w.queue.length = n)
    (herr : ∀ msg, .error msg ∉ w.queue) :
    machine.Allows w (List.replicate n (.deliver none)) ∧
      (machine.exec w (List.replicate n (.deliver none))).queue = [] ∧
      (machine.exec w (List.replicate n (.deliver none))).thread = w.thread := by
  induction n generalizing w with
  | zero => exact ⟨trivial, List.length_eq_zero_iff.1 hlen, rfl⟩
  | succ n ih =>
    obtain ⟨signal, queue, hq⟩ := List.exists_cons_of_length_eq_add_one hlen
    have hstep : machine.step w (.deliver none) =
        { w with warnings := [], queue }.receive none signal := by
      simp [machine, BurnWindow.step, react, hq]
    have hrest : (machine.step w (.deliver none)).waiting = false ∧
        (machine.step w (.deliver none)).queue = queue ∧
        (machine.step w (.deliver none)).thread = w.thread := by
      rw [hstep]
      cases signal with
      | error msg => exact absurd (hq ▸ .head _) (herr msg)
      | status msg =>
        simp only [BurnWindow.receive, onBurnTestWorkerStatus]
        split <;> exact ⟨hwait, rfl, rfl⟩
      | _ => exact ⟨hwait, rfl, rfl⟩
    obtain ⟨hwait', hq', hthread'⟩ := hrest
    rw [hq, List.length_cons, Nat.add_right_cancel_iff] at hlen
    obtain ⟨hallow, hempty, hthread⟩ := ih hwait' (by rw [hq', hlen])
      (by rw [hq']; exact fun msg h => herr msg (hq ▸ .tail _ h))
    exact ⟨⟨⟨hwait, hq ▸ List.cons_ne_nil _ _⟩, hallow⟩, hempty, hthread.trans hthread'⟩

theorem afterLoops_spec :
    machine.Allows init (.connect :: startLogged :: BurnTest.exampleLoops.map .thread) ∧
    afterLoops.thread = some (BurnTest.machine.exec BurnTest.exampleStart BurnTest.exampleLoops) ∧
    afterLoops.waiting = false ∧ afterLoops.burnTestWorker = true := by
  have hstop : .stop ∉ BurnTest.exampleLoops :=
    fun h => (BurnTest.exampleLoops_noSocketError _ h).2 rfl
  obtain ⟨hallow, hthread, hwait, hworker⟩ := allows_thread
    (w := machine.exec init [.connect, startLogged]) (b := BurnTest.exampleStart) rfl
    BurnTest.exampleLoops_allowed.1 hstop
  have hafter : afterLoops = machine.exec (machine.exec init [.connect, startLogged])
      (BurnTest.exampleLoops.map .thread) := by
    simp only [afterLoops, Machine.exec_cons, Machine.exec_nil]
  rw [hafter]
  exact ⟨⟨⟨rfl, rfl⟩, ⟨rfl, rfl⟩, hallow⟩, hthread, hwait.trans rfl, hworker.trans rfl⟩

/-- The worker obeys the stop. -/
theorem allows_stop (hthread : w.thread = some b) (hwait : w.waiting = false)
    (hworker : w.burnTestWorker = true) (hphase : b.phase = .loop) :
    machine.Allows w [.stop, .thread .proceed, .waited] ∧
      (machine.exec w [.stop, .thread .proceed, .waited]).waiting = false ∧
      (machine.exec w [.stop, .thread .proceed, .waited]).thread =
        some ((b.step .stop).step .proceed) ∧
      ((b.step .stop).step .proceed).phase = .stopped := by
  have hstop : machine.step w .stop = { w with
      warnings := [], thread := some (b.step .stop), waiting := true } := by
    simp [machine, BurnWindow.step, react, BurnWindow.onBurnTestStop, hworker, hthread]
  simp only [Machine.Allows, Machine.exec_cons, Machine.exec_nil, hstop]
  exact ⟨⟨hwait, ⟨by decide, _, rfl, hphase⟩, ⟨rfl, _, rfl, rfl⟩, trivial⟩, rfl, rfl, rfl⟩

def loggedEvents : List Event := BurnTest.exampleLoops.map .thread ++ endLogged

set_option maxRecDepth 4000 in
theorem loggedEvents_queue :
    (machine.exec afterLoops [.stop, .thread .proceed, .waited]).queue.length = 8 ∧
    ((machine.exec afterLoops [.stop, .thread .proceed, .waited]).queue.all
      fun signal => !signal matches .error _) = true := by
  decide +kernel

/-- The window handles the end of the run. -/
theorem loggedEvents_allowed : machine.Allows init (.connect :: startLogged :: loggedEvents) ∧
    (machine.exec init (.connect :: startLogged :: loggedEvents)).Done := by
  obtain ⟨hloops, hthread, hwait, hworker⟩ := afterLoops_spec
  obtain ⟨hstop, hwait', hthread', hstopped⟩ :=
    allows_stop hthread hwait hworker BurnTest.exampleLoops_allowed.2.phase
  obtain ⟨hlen, herr⟩ := loggedEvents_queue
  obtain ⟨hdeliver, hempty, hlast⟩ := allows_deliver hwait' hlen fun msg hmsg => by
    simpa using List.all_eq_true.1 herr _ hmsg
  have hsplit : (.connect :: startLogged :: loggedEvents : List Event) =
      (.connect :: startLogged :: BurnTest.exampleLoops.map .thread) ++
        ([.stop, .thread .proceed, .waited] ++ List.replicate 8 (.deliver none)) := rfl
  have hexec : machine.exec init (.connect :: startLogged :: loggedEvents) =
      machine.exec (machine.exec afterLoops [.stop, .thread .proceed, .waited])
        (List.replicate 8 (.deliver none)) := by
    rw [hsplit, Machine.exec_append, Machine.exec_append]
    rfl
  rw [hexec]
  refine ⟨?_, hempty, fun b hb => ?_⟩
  · rw [hsplit, Machine.allows_append, Machine.allows_append]
    exact ⟨hloops, hstop, hdeliver⟩
  · obtain rfl := Option.some.inj ((hlast.trans hthread').symm.trans hb)
    exact hstopped

set_option maxRecDepth 8000 in
theorem loggedEvents_quiet :
    ((machine.trace (machine.exec init [.connect, startLogged]) loggedEvents).all fun y =>
      (machine.post y).warnings.isEmpty && !(y.1.queue.any fun signal => signal matches .error _) &&
        (y.1.burnTestWorker || !(y.2 matches .stop | .disconnect))) = true := by
  decide +kernel

/-- The operator is not told that the log has ended, for it has not. -/
theorem loggedEvents_untold {y : Step}
    (hy : y ∈ machine.trace (machine.exec init [.connect, startLogged]) loggedEvents) :
    ¬ (Told path y ∨ StopsAgain y) := by
  have hquiet := List.all_eq_true.1 loggedEvents_quiet y hy
  simp only [Bool.and_eq_true, Bool.or_eq_true] at hquiet
  obtain ⟨⟨hwarnings, hqueue⟩, hstop⟩ := hquiet
  rintro (⟨text, htext⟩ | ⟨hworker, he | he | ⟨failure, msg, queue, -, hq, -⟩⟩)
  · rw [List.isEmpty_iff.1 hwarnings] at htext
    cases htext
  · simp [hworker, he] at hstop
  · simp [hworker, he] at hstop
  · simp [hq] at hqueue

/-- The sockets work, and no other burn test is started. -/
theorem loggedEvents_works : ∀ e ∈ loggedEvents, ¬ e.IsStart ∧ e.SocketWorks := by
  intro e he
  simp only [loggedEvents, endLogged, List.mem_append, List.mem_map, List.mem_cons, List.not_mem_nil,
    or_false, List.mem_replicate] at he
  rcases he with ⟨e, he, rfl⟩ | (rfl | rfl | rfl) | ⟨-, rfl⟩
  · exact ⟨id, (BurnTest.exampleLoops_noSocketError e he).1⟩
  all_goals exact ⟨id, trivial⟩

/-- The file holds the rows of both frames. -/
theorem burn_file_two_frames : ∃ w x mid b, machine.Run init ([(init, .connect)] ++ x :: mid) w ∧
    x.2 = startLogged ∧ Machine.events mid = loggedEvents ∧ w.thread = some b ∧
    w.disk "burn.csv" = some (fileText (emitted b.signals)) ∧
    (∃ before, b.signals = before ++ [.statsReady (b.stats 0), closing]) ∧
    Agrees (fileText (emitted b.signals)) (b.stats 0) := by
  obtain ⟨hallow, hdone⟩ := loggedEvents_allowed
  have hr : machine.Run init ([(init, .connect)] ++ (_, startLogged) ::
      machine.trace (machine.exec init [.connect, startLogged]) loggedEvents) _ := hallow.run
  have hall : ∀ y ∈ machine.trace (machine.exec init [.connect, startLogged]) loggedEvents,
      ¬ y.2.IsStart ∧ y.2.SocketWorks := by
    intro y hy
    have hmem : y.2 ∈ Machine.events (machine.trace _ loggedEvents) := List.mem_map_of_mem hy
    rw [Machine.events_trace] at hmem
    exact loggedEvents_works y.2 hmem
  rcases burn_file hr rfl rfl (fun y hy => (hall y hy).1) hdone .nil
    (fun y hy => absurd hy List.not_mem_nil) with ⟨b, hb, hdisk, hrest⟩ | ⟨y, hy, htold⟩
  · obtain ⟨hlast, hagrees⟩ := hrest rfl fun y hy => (hall y hy).2
    exact ⟨_, _, _, b, hr, rfl, Machine.events_trace, hb, hdisk, hlast, hagrees⟩
  · exact absurd htold (loggedEvents_untold hy)

end

end BurnWindow

end QccGui
