import QccGui.Gui.Session
import QccGui.Gui.Slots

/-!
# The main window

`MainWindow`: one command or session in flight, kept in `awaiting`, and the dispatch of received
frames to it.

* `Kind`, `commands`: the kinds of command and the table that drives their replies and timeouts.
* `Window`: the attributes of the object. `out` collects what the event at hand makes it do.
* `Window.onLinkTestClicked`, ..., `Window.onFrameReceived`: the methods. The commands differ only
  in the kind, the frame and the attributes they latch, which `sendCommand` takes as arguments.
* `Event`, `Window.handle`, `machine`: the events that call them.
-/

namespace QccGui

open Lib

/-! ## The command table -/

/-- The commands that wait for one reply. -/
inductive Kind
  | qccStatus
  | qccReset
  | chipIdRead
  | dwell
  | linkTest
  | individualLinkTest
  | memoryWrite
  | memoryWriteAll
  | rxCal
  | txCal
  | isolationAll
  | isolationIndividual
  | statusAll
  | statusIndividual
  | timingSob
  | timingPrt
  | timingPps
  deriving DecidableEq, Repr

/-- The attributes that hold the target of a command for one QTRM. -/
inductive TargetAttr
  | individualLinkQtrm
  | memoryWriteTarget
  | rxCalTarget
  | txCalTarget
  | individualIsolationQtrm
  | individualStatusQtrm
  deriving DecidableEq, Repr

/-- How the reply to a command is read. -/
inductive Parser
  | link
  | status
  | headerChecksum
  deriving DecidableEq, Repr

/-- What happens to the reply of a command. -/
structure Command where
  parser : Option Parser := none
  onResponseTime : Bool := false
  targetAttr : Option TargetAttr := none

def commands : Kind → Command
  | .qccStatus => {}
  | .qccReset => {}
  | .chipIdRead => {}
  | .dwell => { parser := some .link, onResponseTime := true }
  | .linkTest => { parser := some .link, onResponseTime := true }
  | .individualLinkTest =>
    { parser := some .link, onResponseTime := true, targetAttr := some .individualLinkQtrm }
  | .memoryWrite =>
    { parser := some .link, onResponseTime := true, targetAttr := some .memoryWriteTarget }
  | .memoryWriteAll => { parser := some .link, onResponseTime := true }
  | .rxCal => { parser := some .link, onResponseTime := true, targetAttr := some .rxCalTarget }
  | .txCal => { parser := some .link, onResponseTime := true, targetAttr := some .txCalTarget }
  | .isolationAll => { parser := some .link }
  | .isolationIndividual => { parser := some .link, targetAttr := some .individualIsolationQtrm }
  | .statusAll => { parser := some .status, onResponseTime := true }
  | .statusIndividual =>
    { parser := some .status, onResponseTime := true, targetAttr := some .individualStatusQtrm }
  | .timingSob => { parser := some .headerChecksum, onResponseTime := true }
  | .timingPrt => { parser := some .headerChecksum, onResponseTime := true }
  | .timingPps => { parser := some .headerChecksum, onResponseTime := true }

/-- What the window waits for. -/
inductive Awaiting
  | command (kind : Kind)
  | remoteProgramming
  | burnTest
  deriving DecidableEq, Repr

/-! ## State -/

/-- The handler that a frame comes from. -/
inductive Sender
  | command (kind : Kind) (isAutoResend : Bool)
  | softReset
  | session
  deriving DecidableEq, Repr

/-- A reply as its parser reads it. -/
inductive Parsed
  | link (ok : Qtrm → Bool)
  | status (replies : Qtrm → Option StatusReply)
  | headerChecksum (ok : Bool)

/-- What a handler does. -/
inductive Output
  /-- A frame is handed to the UDP worker. -/
  | send (sender : Sender) (frame : Bytes)
  | result (kind : Kind) (parsed : Parsed) (target : Option Qtrm)
  | chipIdResponse (raw : Bytes)
  | noResponse (kind : Kind) (target : Option Qtrm)
  | responseTime (kind : Kind) (us : Nat)
  | warning (title text : String)
  | couldNotStart (op : Op)
  /-- A signal of the controller to its tab. -/
  | session (s : Signal)

structure Window where
  /-- The controller; its header settings are the ones that all commands use. -/
  ctrl : Controller
  /-- Whether there is a UDP worker. -/
  worker : Bool := false
  awaiting : Option Awaiting := none
  /-- The kind whose response watchdog runs. -/
  pendingTimer : Option Kind := none
  targets : TargetAttr → Option Qtrm := fun _ => none
  statusTypeInFlight : Option Nat := none
  statusSubTypeInFlight : Option Nat := none
  burnTestWorker : Bool := false
  /-- The question before a burn test is on the screen. -/
  asking : Bool := false
  /-- The frame logger is active. -/
  logging : Bool := false
  out : List Output := []

namespace Window

def emit (w : Window) (o : Output) : Window := { w with out := w.out ++ [o] }

def warn (w : Window) (title text : String) : Window := w.emit (.warning title text)

def notConnected (w : Window) : Window := w.warn "Not connected" "Connect to QCC first."

def warnBusy (w : Window) : Window :=
  w.warn "Busy" "Still waiting for the previous command's response - try again shortly."

/-! ## Waiting -/

/-- The new watchdog replaces the old one. -/
def beginWait (w : Window) (kind : Kind) : Window :=
  { w with awaiting := some (.command kind), pendingTimer := some kind }

def endWait (w : Window) : Window := { w with pendingTimer := none }

def takeTarget (w : Window) (spec : Command) : Option Qtrm × Window :=
  match spec.targetAttr with
  | none => (none, w)
  | some a => (w.targets a, { w with targets := Function.update w.targets a none })

def onResponseTimeout (w : Window) (kind : Kind) : Window :=
  if w.awaiting ≠ some (.command kind) then w
  else
    let (target, w) := { w with awaiting := none }.takeTarget (commands kind)
    w.emit (.noResponse kind target)

/-- The watchdog is single-shot. -/
def onPendingTimer (w : Window) : Window :=
  match w.pendingTimer with
  | none => w
  | some kind => { w with pendingTimer := none }.onResponseTimeout kind

/-! ## Commands -/

/-- A command with its frame and the attributes that it latches. A tick of an auto-resend takes the
place of its own last command, and is skipped while anything else is in flight. -/
def sendCommand (w : Window) (kind : Kind) (isAutoResend : Bool)
    (build : RcSettings → Bytes × RcSettings) (latch : Window → Window := id) : Window :=
  if ¬ w.worker then if isAutoResend then w else w.notConnected
  else if isAutoResend ∧ w.awaiting ≠ none ∧ w.awaiting ≠ some (.command kind) then w
  else if ¬ isAutoResend ∧ w.awaiting ≠ none then w.warnBusy
  else
    let (frame, rc) := build w.ctrl.rc
    ((latch { w with ctrl := { w.ctrl with rc } }).beginWait kind).emit
      (.send (.command kind isAutoResend) frame)

/-- A frame whose header carries a command. -/
def commandFrame (commandId : Nat) (messageBody : Bytes) (frame : Bytes → Bytes) (rc : RcSettings) :
    Bytes × RcSettings :=
  let header := rc.buildHeader commandId messageBody
  (frame header.1, header.2)

def latchTarget (a : TargetAttr) (q : Qtrm) (w : Window) : Window :=
  { w with targets := Function.update w.targets a (some q) }

def latchStatusType (statusType subStatusType : Nat) (w : Window) : Window :=
  { w with statusTypeInFlight := some statusType, statusSubTypeInFlight := some subStatusType }

def onQueryQccStatus (w : Window) (isAutoResend : Bool) : Window :=
  w.sendCommand .qccStatus isAutoResend (commandFrame commandIdQccStatus [] headerOnlyFrame)

def onQccReset (w : Window) : Window :=
  w.sendCommand .qccReset false (commandFrame commandIdQccReset [] headerOnlyFrame)

def onReadChipId (w : Window) : Window :=
  w.sendCommand .chipIdRead false (commandFrame commandIdChipIdRead [] headerOnlyFrame)

def onDwellSend (w : Window) (channels : Qtrm → Fin 4 → QtrmChannel) (isAutoResend : Bool) :
    Window :=
  w.sendCommand .dwell isAutoResend
    (commandFrame commandIdDataDistribution [] (buildDwellFrame channels))

def onMemoryWrite (w : Window) (dataType : Nat) (q : Qtrm) (payload : Bytes) : Window :=
  w.sendCommand .memoryWrite false
    (commandFrame commandIdDataDistribution []
      (buildMemoryWriteFrame dataType payload (some q) memOpFlashWrite))
    (latchTarget .memoryWriteTarget q)

def onMemoryWriteAll (w : Window) (dataType : Nat) (payload : Bytes) : Window :=
  w.sendCommand .memoryWriteAll false
    (commandFrame commandIdDataDistribution []
      (buildMemoryWriteFrame dataType payload none memOpFlashWrite))

def onLinkTestClicked (w : Window) (isAutoResend : Bool) : Window :=
  w.sendCommand .linkTest isAutoResend
    (commandFrame commandIdDataDistribution [] buildLinkTestFrame)

def onIndividualLinkTestClicked (w : Window) (q : Qtrm) : Window :=
  w.sendCommand .individualLinkTest false
    (commandFrame commandIdDataDistribution [] (buildIndividualLinkFrame q))
    (latchTarget .individualLinkQtrm q)

def onRxCalSend (w : Window) (q : Qtrm) (channel phase atten : Nat) (txIsolationForOthers : Bool) :
    Window :=
  w.sendCommand .rxCal false
    (commandFrame commandIdDataDistribution []
      (buildCalFrame false q channel phase atten txIsolationForOthers))
    (latchTarget .rxCalTarget q)

def onTxCalSend (w : Window) (q : Qtrm) (channel phase atten : Nat) (txIsolationForOthers : Bool) :
    Window :=
  w.sendCommand .txCal false
    (commandFrame commandIdDataDistribution []
      (buildCalFrame true q channel phase atten txIsolationForOthers))
    (latchTarget .txCalTarget q)

def onIsolationSendAll (w : Window) (txIsolation : Bool) : Window :=
  w.sendCommand .isolationAll false
    (commandFrame commandIdDataDistribution [] (buildIsolationFrame txIsolation none))

def onIsolationSendOne (w : Window) (q : Qtrm) (txIsolation : Bool) : Window :=
  w.sendCommand .isolationIndividual false
    (commandFrame commandIdDataDistribution [] (buildIsolationFrame txIsolation (some q)))
    (latchTarget .individualIsolationQtrm q)

def onStatusSendAll (w : Window) (statusType subStatusType beamRegisterAddress : Nat)
    (isAutoResend : Bool) : Window :=
  w.sendCommand .statusAll isAutoResend
    (commandFrame commandIdDataDistribution []
      (buildStatusFrame statusType none subStatusType beamRegisterAddress))
    (latchStatusType statusType subStatusType)

def onStatusSendOne (w : Window) (q : Qtrm) (statusType subStatusType beamRegisterAddress : Nat) :
    Window :=
  w.sendCommand .statusIndividual false
    (commandFrame commandIdDataDistribution []
      (buildStatusFrame statusType (some q) subStatusType beamRegisterAddress))
    fun w => (w.latchTarget .individualStatusQtrm q).latchStatusType statusType subStatusType

def onTimingSobSend (w : Window) (externalLoopback : Bool) (sobWidthUs : Nat) : Window :=
  w.sendCommand .timingSob false
    (commandFrame (if externalLoopback then commandIdSobBypass else commandIdSobInternalGen)
      (buildSobBody sobWidthUs) headerOnlyFrame)

def onTimingPrtSend (w : Window) (externalLoopback : Bool)
    (prtCount priWidthUs prtWidthUs : Nat) : Window :=
  w.sendCommand .timingPrt false
    (commandFrame (if externalLoopback then commandIdPrtBypass else commandIdPrtInternalGen)
      (buildPrtBody prtCount priWidthUs prtWidthUs) headerOnlyFrame)

def onTimingPpsSend (w : Window) (ppsWidthUs : Nat) : Window :=
  w.sendCommand .timingPps false
    (commandFrame commandIdPpsInternalGen (buildPpsBody ppsWidthUs) headerOnlyFrame)

/-- A soft reset has no reply. It neither looks at what is in flight nor waits. -/
def onSoftReset (w : Window) (target : Option Qtrm) : Window :=
  if ¬ w.worker then w.notConnected
  else
    let (frame, rc) := commandFrame commandIdDataDistribution [] (buildSoftResetFrame target)
      w.ctrl.rc
    { w with ctrl := { w.ctrl with rc } }.emit (.send .softReset frame)

def onResetAllClicked (w : Window) : Window := w.onSoftReset none

def onResetOneClicked (w : Window) (q : Qtrm) : Window := w.onSoftReset (some q)

/-! ## Remote Programming sessions -/

/-- What a signal of the controller makes the window do; without a worker a frame goes nowhere. -/
def forward (worker : Bool) : Signal → Option Output
  | .send frame => if worker then some (.send .session frame) else none
  | s => some (.session s)

/-- The controller handles an event; the end of its session releases the lock. -/
def sessionEvent (w : Window) (e : Controller.Event) : Window :=
  let c := w.ctrl.handle e
  let ended := c.out.any fun s => s.finished?.isSome
  { w with
    ctrl := c, out := w.out ++ c.out.filterMap (forward w.worker)
    awaiting := if ended ∧ w.awaiting = some .remoteProgramming then none else w.awaiting }

/-- A start whose frame the socket takes; `Boxed.rpStartFails` is one whose send fails. -/
def rpStart (w : Window) (what : Controller.Start) : Window :=
  if ¬ w.worker then w.notConnected
  else if w.awaiting ≠ none then w.warnBusy
  else
    let w := { w with awaiting := some .remoteProgramming }.sessionEvent (.start what)
    if ¬ w.ctrl.busy then { w with awaiting := none }.emit (.couldNotStart what.op) else w

/-! ## Burn test -/

def onBurnTestStop (w : Window) : Window :=
  { w with
    burnTestWorker := false
    awaiting := if w.awaiting = some .burnTest then none else w.awaiting }

/-- The controller's send function works while there is a worker. -/
def setWorker (w : Window) (up : Bool) : Window :=
  { w with worker := up, ctrl := { w.ctrl with sendOk := up } }

/-- The question is asked in an event loop of its own. -/
def onBurnTestStart (w : Window) : Window :=
  if ¬ w.worker then w.notConnected
  else if w.awaiting ≠ none then w.warnBusy
  else { w with asking := true }

/-- The rest of the start, once the question is answered. If the worker has gone in the meantime
an exception ends it. -/
def onBurnTestAnswer (w : Window) (yes : Bool) (logError : Option String) : Window :=
  let w := { w with asking := false }
  if ¬ yes then w
  else match logError with
    | some err => w.warn "Burn Test logging" s!"Could not start logging:\n{err}"
    | none =>
      if ¬ w.worker then w
      else { w.setWorker false with burnTestWorker := true, awaiting := some .burnTest }

/-- Closing the window ends a burn test and the log; the worker is stopped but kept. -/
def closeEvent (w : Window) : Window := { w with logging := false }.onBurnTestStop

/-! ## Connection -/

def disconnect (w : Window) : Window :=
  let w := (w.sessionEvent .cancel).onBurnTestStop
  if w.worker then w.setWorker false else w

def onConnectClicked (w : Window) : Window := if w.worker then w.disconnect else w.setWorker true

def onConnectionFieldChanged (w : Window) : Window := if w.worker then w.disconnect else w

/-- The status "Stopped". -/
def onWorkerStopped (w : Window) : Window := if w.worker then w.disconnect else w

/-- The error "Failed to bind". -/
def onBindFailed (w : Window) (msg : String) : Window := (w.setWorker false).warn "UDP Error" msg

def onBurnTestStopClicked (w : Window) : Window :=
  let w' := w.onBurnTestStop
  if w.burnTestWorker ∧ ¬ w'.worker then w'.onConnectClicked else w'

/-! ## Received frames -/

def runParser (w : Window) (raw : Bytes) : Parser → Except FrameError Parsed
  | .link => do return .link (← parseLinkTestResponse raw)
  | .status => do
    let statusType := w.statusTypeInFlight.getD statusTypeNone
    let diagnosticType :=
      if statusType = statusTypeDiagnostic then w.statusSubTypeInFlight.getD 0 else 0
    return .status (← parseStatusFrame raw statusType diagnosticType)
  | .headerChecksum => do return .headerChecksum (← QccHeaderTx.fromBytes (raw.take 90)).checksumOk

/-- Whether the frame is shown: long enough, and not too soon after the last one. -/
def updateFrameDisplay (raw : Bytes) (repaint : Bool) : Bool := headerSize ≤ raw.length && repaint

def showResponseTime (w : Window) (kind : Kind) (elapsedUs : Option Nat) : Window :=
  match elapsedUs with
  | some us => if (commands kind).onResponseTime then w.emit (.responseTime kind us) else w
  | none => w

/-- For a command without a parser the header panel is the whole result. -/
def showResult (w : Window) (kind : Kind) (raw : Bytes) (target : Option Qtrm) : Window :=
  match (commands kind).parser with
  | none => w
  | some parser =>
    match w.runParser raw parser with
    | .error e => w.warn "Parse error" e.message
    | .ok parsed => w.emit (.result kind parsed target)

/-- The reply to a command of the table. -/
def onReply (w : Window) (kind : Kind) (raw : Bytes) (elapsedUs : Option Nat) (repaint : Bool) :
    Window :=
  let showDisplay := updateFrameDisplay raw repaint
  let (target, w) := w.takeTarget (commands kind)
  if ¬ showDisplay then w else (w.showResponseTime kind elapsedUs).showResult kind raw target

def onChipIdReply (w : Window) (raw : Bytes) : Window :=
  if raw.length ≠ chipIdResponseSize then
    (w.warn "Parse error" (s!"Expected a {chipIdResponseSize}-byte CHIP_ID_READ response, got " ++
      s!"{raw.length} bytes - the other end may not support CHIP_ID_READ yet.")).emit
      (.noResponse .chipIdRead none)
  else w.emit (.chipIdResponse raw)

/-- An active logger raises on a frame without a whole header, before anything else happens. -/
def onFrameReceived (w : Window) (raw : Bytes) (elapsedUs : Option Nat) (repaint : Bool) : Window :=
  if w.logging ∧ raw.length < headerSize then w
  else if w.awaiting = some .remoteProgramming then w.sessionEvent (.frame raw)
  else
    let kind := w.awaiting
    let w := { w.endWait with awaiting := none }
    match kind with
    | some (.command .chipIdRead) => w.onChipIdReply raw
    | some (.command kind) => w.onReply kind raw elapsedUs repaint
    | _ => w

/-! ## Events -/

/-- The commands that wait for a reply, as the operator or an auto-resend timer asks for them. -/
inductive Request
  | qccStatus (isAutoResend : Bool)
  | qccReset
  | readChipId
  | dwell (channels : Qtrm → Fin 4 → QtrmChannel) (isAutoResend : Bool)
  | memoryWrite (dataType : Nat) (q : Qtrm) (payload : Bytes)
  | memoryWriteAll (dataType : Nat) (payload : Bytes)
  | linkTest (isAutoResend : Bool)
  | individualLinkTest (q : Qtrm)
  | rxCal (q : Qtrm) (channel phase atten : Nat) (txIsolationForOthers : Bool)
  | txCal (q : Qtrm) (channel phase atten : Nat) (txIsolationForOthers : Bool)
  | isolationAll (txIsolation : Bool)
  | isolationOne (q : Qtrm) (txIsolation : Bool)
  | statusAll (statusType subStatusType beamRegisterAddress : Nat) (isAutoResend : Bool)
  | statusOne (q : Qtrm) (statusType subStatusType beamRegisterAddress : Nat)
  | timingSob (externalLoopback : Bool) (sobWidthUs : Nat)
  | timingPrt (externalLoopback : Bool) (prtCount priWidthUs prtWidthUs : Nat)
  | timingPps (ppsWidthUs : Nat)

/-- The method that a request calls. -/
def onRequest (w : Window) : Request → Window
  | .qccStatus auto => w.onQueryQccStatus auto
  | .qccReset => w.onQccReset
  | .readChipId => w.onReadChipId
  | .dwell channels auto => w.onDwellSend channels auto
  | .memoryWrite dataType q payload => w.onMemoryWrite dataType q payload
  | .memoryWriteAll dataType payload => w.onMemoryWriteAll dataType payload
  | .linkTest auto => w.onLinkTestClicked auto
  | .individualLinkTest q => w.onIndividualLinkTestClicked q
  | .rxCal q channel phase atten iso => w.onRxCalSend q channel phase atten iso
  | .txCal q channel phase atten iso => w.onTxCalSend q channel phase atten iso
  | .isolationAll tx => w.onIsolationSendAll tx
  | .isolationOne q tx => w.onIsolationSendOne q tx
  | .statusAll type sub beam auto => w.onStatusSendAll type sub beam auto
  | .statusOne q type sub beam => w.onStatusSendOne q type sub beam
  | .timingSob external width => w.onTimingSobSend external width
  | .timingPrt external count pri width => w.onTimingPrtSend external count pri width
  | .timingPps width => w.onTimingPpsSend width

inductive Event
  | request (r : Request)
  | resetAll
  | resetOne (q : Qtrm)
  | rpStart (what : Controller.Start)
  | rpCancel
  | rpTargetQtrmChanged (target : Target)
  | rpIapTimeoutChanged (seconds : Nat)
  | rpTimer
  | rpShot
  | frame (raw : Bytes) (elapsedUs : Option Nat) (repaint : Bool)
  | responseTimeout
  | connectClicked
  | connectionFieldChanged
  | workerStopped
  | bindFailed (msg : String)
  | burnTestStart
  | burnTestAnswer (yes : Bool) (logError : Option String)
  | burnTestStop
  | close
  | setLogging (active : Bool)
  /-- New values for all header settings but the message counter. -/
  | setRcSettings (rc : RcSettings)

/-- The handler of an event. -/
def react (w : Window) : Event → Window
  | .request r => w.onRequest r
  | .resetAll => w.onResetAllClicked
  | .resetOne q => w.onResetOneClicked q
  | .rpStart what => w.rpStart what
  | .rpCancel => w.sessionEvent .cancel
  | .rpTargetQtrmChanged target => w.sessionEvent (.setTarget target)
  | .rpIapTimeoutChanged seconds => w.sessionEvent (.setIapWindow (seconds * 1000))
  | .rpTimer => w.sessionEvent .timer
  | .rpShot => w.sessionEvent .shot
  | .frame raw elapsedUs repaint => w.onFrameReceived raw elapsedUs repaint
  | .responseTimeout => w.onPendingTimer
  | .connectClicked => w.onConnectClicked
  | .connectionFieldChanged => w.onConnectionFieldChanged
  | .workerStopped => w.onWorkerStopped
  | .bindFailed msg => w.onBindFailed msg
  | .burnTestStart => w.onBurnTestStart
  | .burnTestAnswer yes logError => w.onBurnTestAnswer yes logError
  | .burnTestStop => w.onBurnTestStopClicked
  | .close => w.closeEvent
  | .setLogging active => { w with logging := active }
  | .setRcSettings rc => { w with ctrl := { w.ctrl with
      rc := { rc with messageNumber := w.ctrl.rc.messageNumber } } }

/-- The outputs of the event before are taken away. -/
def cleared (w : Window) : Window := { w with out := [] }

def handle (w : Window) (e : Event) : Window := w.cleared.react e

/-- Whether a request comes from a timer. -/
def Request.isAutoResend : Request → Bool
  | .qccStatus auto => auto
  | .dwell _ auto => auto
  | .linkTest auto => auto
  | .statusAll _ _ _ auto => auto
  | _ => false

/-- A timer fires only while it runs. The modal question keeps the operator, but no timer and no
frame, from reaching the window. -/
def machine : Machine Window Event where
  enabled w e := match e with
    | .request r => r.isAutoResend ∨ ¬ w.asking
    | .responseTimeout => w.pendingTimer.isSome
    | .rpTimer => w.ctrl.timer.isSome
    | .rpShot => 0 < w.ctrl.pendingShots
    | .frame .. | .workerStopped | .bindFailed _ | .burnTestStop | .setLogging _ => True
    | .burnTestAnswer .. => w.asking
    | _ => ¬ w.asking
  step := handle

/-- The object as `__init__` leaves it. -/
def init (rc : RcSettings) : Window := { ctrl := { Controller.init rc with sendOk := false } }

end Window

end QccGui
