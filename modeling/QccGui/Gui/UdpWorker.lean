import QccGui.Gui.Headers
import QccGui.Lib.Machine
import Mathlib.Algebra.Order.Field.Rat

/-!
# The UDP worker

`core/udp_worker.py`: the thread that receives, and `send_frame`, which runs on the GUI thread. Both
read and write `_last_send_time` and `_send_sock` without a lock, so one event here is what one
thread does between two accesses to what they share. The events of the two threads come in any order.

* `RunPc`, `SendPc`: where `run` and `send_frame` stand.
* `UdpWorker`, `step`: the worker, and what one event does.
* `SameRun`, `SameSend`: what the events of the other thread leave alone.
-/

namespace QccGui

open Lib

def rpQccLevelFrameSize : Nat := headerSize

def validTxSizes : List Nat := [totalPacketSize, rpQccLevelFrameSize, rpCmdFrameSize, rpFrameSize]

def validRxSizes : List Nat := [totalPacketSize, rpQccLevelFrameSize, chipIdResponseSize]

inductive UdpSignal
  | frameReceived (data : Bytes) (elapsedUs : ℚ)
  | frameSent (frame : Bytes)
  | error (message : String)
  | status (message : String)
  /-- An exception that leaves `run` or `send_frame`. -/
  | raised (message : String)
  deriving DecidableEq, Repr

def UdpSignal.received? : UdpSignal → Option (Bytes × ℚ)
  | .frameReceived data elapsedUs => some (data, elapsedUs)
  | _ => none

def UdpSignal.status? : UdpSignal → Option String
  | .status message => some message
  | _ => none

def UdpSignal.sent? : UdpSignal → Option Bytes
  | .frameSent frame => some frame
  | _ => none

inductive Socket
  | bound
  | closed
  deriving DecidableEq, Repr

/-- Where `run` stands: what it does next. -/
inductive RunPc
  | opening
  | bindingSend
  | starting
  /-- At `while self._running`. -/
  | looping
  | receiving
  | stamping
  /-- At `if self._last_send_time is not None`. -/
  | testing
  | subtracting
  | consuming
  | emitting
  | closing
  | clearing
  | ended
  /-- An exception has ended the thread. -/
  | raised
  deriving DecidableEq, Repr

/-- A frame is in hand. -/
def RunPc.holds : RunPc → Bool
  | .stamping | .testing | .subtracting | .consuming | .emitting | .raised => true
  | _ => false

/-- What is left of `run` once `_running` is off. -/
def RunPc.left : RunPc → Nat
  | .receiving => 9
  | .stamping => 8
  | .testing => 7
  | .subtracting => 6
  | .consuming => 5
  | .emitting => 4
  | .looping => 3
  | .closing => 2
  | .clearing => 1
  | _ => 0

/-- `run` is past setting `_running`. -/
def RunPc.begun : RunPc → Bool
  | .opening | .bindingSend | .starting => false
  | _ => true

/-- Where `send_frame` stands. -/
inductive SendPc
  | idle
  /-- At `if self._send_sock is None`. -/
  | checking
  | timing
  | storing
  | sending
  | reporting
  /-- In the `except` branch. -/
  | dropping
  deriving DecidableEq, Repr

/-- The worker, with the local variables of `run` and of `send_frame`. `clock` is the last reading
of `perf_counter`, and `wire` the datagrams that the socket has taken. -/
structure UdpWorker where
  localPort : Nat
  sourcePort : Nat
  sendSock : Option Socket := none
  running : Bool := false
  lastSendTime : Option ℚ := none
  run : RunPc := .opening
  data : Bytes := []
  addr : String := ""
  recvTime : ℚ := 0
  elapsedUs : ℚ := 0
  send : SendPc := .idle
  frame : Bytes := []
  sendTime : ℚ := 0
  clock : ℚ := 0
  wire : List Bytes := []
  out : List UdpSignal := []

namespace UdpWorker

inductive Event
  /-- The listening socket is bound and the send socket is there, or an `OSError`. -/
  | opened (failure : Option String)
  /-- A send socket of its own is bound. -/
  | boundSend (failure : Option String)
  | started
  | looped
  | received (data : Bytes) (addr : String)
  | timedOut
  | failed (e : String)
  | stamped (t : ℚ)
  | tested
  | subtracted
  | consumed
  | emitted
  | closed
  | cleared
  /-- The GUI thread calls `send_frame`. -/
  | sendFrame (frame : Bytes)
  | checked
  | timed (t : ℚ)
  | stored
  | sentTo (failure : Option String)
  | reported
  | dropped (e : String)
  /-- The GUI thread calls `stop`. -/
  | stop

/-- The events of the receiving thread. -/
def Event.ofRun : Event → Bool
  | .sendFrame _ | .checked | .timed _ | .stored | .sentTo _ | .reported | .dropped _ | .stop => false
  | _ => true

/-- Nothing is sent through a closed socket. -/
def enabled (w : UdpWorker) : Event → Prop
  | .opened _ => w.run = .opening
  | .boundSend _ => w.run = .bindingSend
  | .started => w.run = .starting
  | .looped => w.run = .looping
  | .received .. | .timedOut | .failed _ => w.run = .receiving
  | .stamped t => w.run = .stamping ∧ w.clock ≤ t
  | .tested => w.run = .testing
  | .subtracted => w.run = .subtracting
  | .consumed => w.run = .consuming
  | .emitted => w.run = .emitting
  | .closed => w.run = .closing
  | .cleared => w.run = .clearing
  | .sendFrame _ | .stop => w.send = .idle
  | .checked => w.send = .checking
  | .timed t => w.send = .timing ∧ w.clock ≤ t
  | .stored => w.send = .storing
  | .sentTo failure => w.send = .sending ∧ (w.sendSock = some .closed → failure ≠ none)
  | .reported => w.send = .reporting
  | .dropped _ => w.send = .dropping

def emit (w : UdpWorker) (s : UdpSignal) : UdpWorker := { w with out := w.out ++ [s] }

def bindFailed (w : UdpWorker) (e : String) : UdpWorker :=
  { w with run := .ended }.emit (.error s!"Failed to bind local UDP port {w.localPort}: {e}")

/-- The time of reception, and the test of the size, which looks at nothing shared. -/
def onStamped (w : UdpWorker) (t : ℚ) : UdpWorker :=
  let w := { w with recvTime := t, clock := t }
  if w.data.length ∉ validRxSizes then
    { w with run := .looping }.emit (.error (s!"Received {w.data.length} bytes from {w.addr}, expected " ++
      s!"{totalPacketSize}, {rpQccLevelFrameSize}, or {chipIdResponseSize} - dropped"))
  else { w with run := .testing }

/-- The second access to `_last_send_time`. -/
def onSubtracted (w : UdpWorker) : UdpWorker :=
  match w.lastSendTime with
  | some t => { w with elapsedUs := (w.recvTime - t) * 1000000, run := .consuming }
  | none => { w with run := .raised }.emit
      (.raised "unsupported operand type(s) for -: 'float' and 'NoneType'")

def onSendFrame (w : UdpWorker) (frame : Bytes) : UdpWorker :=
  if frame.length ∉ validTxSizes then
    w.emit (.error s!"Refusing to send {frame.length}-byte frame, expected one of (2970, 90, 100, 4196)")
  else { w with frame := frame, send := .checking }

/-- `sendto` on what `_send_sock` is by now. -/
def onSentTo (w : UdpWorker) (failure : Option String) : UdpWorker :=
  match w.sendSock, failure with
  | none, _ => { w with send := .idle }.emit
      (.raised "'NoneType' object has no attribute 'sendto'")
  | some _, none => { w with wire := w.wire ++ [w.frame], send := .reporting }
  | some _, some _ => { w with send := .dropping }

def step (w : UdpWorker) : Event → UdpWorker
  | .opened (some e) | .boundSend (some e) => w.bindFailed e
  | .opened none => { w with
      sendSock := some .bound
      run := if w.sourcePort = w.localPort then .starting else .bindingSend }
  | .boundSend none => { w with run := .starting }
  | .started => { w with running := true, run := .looping }.emit
      (.status s!"Listening on 0.0.0.0:{w.localPort}")
  | .looped => { w with run := if w.running then .receiving else .closing }
  | .received data addr => { w with data := data, addr := addr, run := .stamping }
  | .timedOut => { w with run := .looping }
  | .failed e =>
    let w := { w with run := .closing }
    if w.running then w.emit (.error s!"Socket error while receiving: {e}") else w
  | .stamped t => w.onStamped t
  | .tested => if w.lastSendTime.isSome then { w with run := .subtracting }
      else { w with elapsedUs := -1, run := .emitting }
  | .subtracted => w.onSubtracted
  | .consumed => { w with lastSendTime := none, run := .emitting }
  | .emitted => { w with run := .looping }.emit (.frameReceived w.data w.elapsedUs)
  | .closed => { w with sendSock := w.sendSock.map fun _ => .closed, run := .clearing }
  | .cleared => { w with sendSock := none, run := .ended }.emit (.status "Stopped")
  | .sendFrame frame => w.onSendFrame frame
  | .checked => if w.sendSock.isNone
      then { w with send := .idle }.emit (.error "Cannot send - socket not open yet")
      else { w with send := .timing }
  | .timed t => { w with sendTime := t, clock := t, send := .storing }
  | .stored => { w with lastSendTime := some w.sendTime, send := .sending }
  | .sentTo failure => w.onSentTo failure
  | .reported => { w with send := .idle }.emit (.frameSent w.frame)
  | .dropped e => { w with lastSendTime := none, send := .idle }.emit
      (.error s!"Failed to send frame: {e}")
  | .stop => { w with running := false }

def machine : Machine UdpWorker Event := ⟨enabled, step⟩

abbrev Step := UdpWorker × Event

/-- The worker when its thread is started. -/
def init (localPort sourcePort : Nat) : UdpWorker := { localPort, sourcePort }

/-! ## What the two threads leave alone -/

/-- The frames passed on, with their elapsed times. -/
def forwarded (out : List UdpSignal) : List (Bytes × ℚ) := out.filterMap UdpSignal.received?

/-- What the window is told of the thread. -/
def statuses (out : List UdpSignal) : List String := out.filterMap UdpSignal.status?

/-- The frames reported as sent. -/
def reportedSent (out : List UdpSignal) : List Bytes := out.filterMap UdpSignal.sent?

variable {w w' : UdpWorker} {e : Event} {tr : List Step} {localPort sourcePort : Nat}

@[simp] theorem emit_running (s : UdpSignal) : (w.emit s).running = w.running := rfl

@[simp] theorem emit_lastSendTime (s : UdpSignal) : (w.emit s).lastSendTime = w.lastSendTime := rfl

@[simp] theorem emit_run (s : UdpSignal) : (w.emit s).run = w.run := rfl

@[simp] theorem emit_data (s : UdpSignal) : (w.emit s).data = w.data := rfl

@[simp] theorem emit_recvTime (s : UdpSignal) : (w.emit s).recvTime = w.recvTime := rfl

@[simp] theorem emit_elapsedUs (s : UdpSignal) : (w.emit s).elapsedUs = w.elapsedUs := rfl

@[simp] theorem emit_sendSock (s : UdpSignal) : (w.emit s).sendSock = w.sendSock := rfl

@[simp] theorem emit_send (s : UdpSignal) : (w.emit s).send = w.send := rfl

@[simp] theorem emit_frame (s : UdpSignal) : (w.emit s).frame = w.frame := rfl

@[simp] theorem emit_sendTime (s : UdpSignal) : (w.emit s).sendTime = w.sendTime := rfl

@[simp] theorem emit_clock (s : UdpSignal) : (w.emit s).clock = w.clock := rfl

@[simp] theorem emit_wire (s : UdpSignal) : (w.emit s).wire = w.wire := rfl

@[simp] theorem forwarded_emit (s : UdpSignal) :
    forwarded (w.emit s).out = forwarded w.out ++ s.received?.toList := filterMap_snoc ..

@[simp] theorem statuses_emit (s : UdpSignal) :
    statuses (w.emit s).out = statuses w.out ++ s.status?.toList := filterMap_snoc ..

@[simp] theorem reportedSent_emit (s : UdpSignal) :
    reportedSent (w.emit s).out = reportedSent w.out ++ s.sent?.toList := filterMap_snoc ..

/-- What `run` has of its own, and what it told the window. -/
structure SameRun (w w' : UdpWorker) : Prop where
  run : w'.run = w.run
  data : w'.data = w.data
  recvTime : w'.recvTime = w.recvTime
  elapsedUs : w'.elapsedUs = w.elapsedUs
  forwarded : forwarded w'.out = forwarded w.out
  statuses : statuses w'.out = statuses w.out

/-- What `send_frame` has of its own, and what it sent. -/
structure SameSend (w w' : UdpWorker) : Prop where
  send : w'.send = w.send
  frame : w'.frame = w.frame
  sendTime : w'.sendTime = w.sendTime
  wire : w'.wire = w.wire
  reported : reportedSent w'.out = reportedSent w.out

theorem SameRun.trans {w'' : UdpWorker} (h : SameRun w w') (h' : SameRun w' w'') : SameRun w w'' :=
  ⟨h'.run.trans h.run, h'.data.trans h.data, h'.recvTime.trans h.recvTime,
    h'.elapsedUs.trans h.elapsedUs, h'.forwarded.trans h.forwarded, h'.statuses.trans h.statuses⟩

theorem SameRun.emit (h : SameRun w w') {s : UdpSignal} (hs : s.received? = none)
    (ht : s.status? = none) : SameRun w (w'.emit s) := by
  refine ⟨h.run, h.data, h.recvTime, h.elapsedUs, ?_, ?_⟩
  · rw [forwarded_emit, hs, h.forwarded]
    exact List.append_nil _
  · rw [statuses_emit, ht, h.statuses]
    exact List.append_nil _

theorem SameSend.emit (h : SameSend w w') {s : UdpSignal} (hs : s.sent? = none) :
    SameSend w (w'.emit s) := by
  refine ⟨h.send, h.frame, h.sendTime, h.wire, ?_⟩
  rw [reportedSent_emit, hs, h.reported]
  exact List.append_nil _

theorem sameRun_step (h : e.ofRun = false) : SameRun w (step w e) := by
  have hself : SameRun w w := ⟨rfl, rfl, rfl, rfl, rfl, rfl⟩
  cases e with
  | sendFrame frame =>
    simp only [step, onSendFrame]
    split
    · exact hself.emit rfl rfl
    · exact ⟨rfl, rfl, rfl, rfl, rfl, rfl⟩
  | checked =>
    simp only [step]
    split
    · apply SameRun.emit
      exacts [⟨rfl, rfl, rfl, rfl, rfl, rfl⟩, rfl, rfl]
    · exact ⟨rfl, rfl, rfl, rfl, rfl, rfl⟩
  | sentTo failure =>
    simp only [step, onSentTo]
    split
    · apply SameRun.emit
      exacts [⟨rfl, rfl, rfl, rfl, rfl, rfl⟩, rfl, rfl]
    · exact ⟨rfl, rfl, rfl, rfl, rfl, rfl⟩
    · exact ⟨rfl, rfl, rfl, rfl, rfl, rfl⟩
  | reported | dropped e =>
    apply SameRun.emit
    exacts [⟨rfl, rfl, rfl, rfl, rfl, rfl⟩, rfl, rfl]
  | timed | stored | stop => exact ⟨rfl, rfl, rfl, rfl, rfl, rfl⟩
  | _ => cases h

theorem sameSend_step (h : e.ofRun = true) : SameSend w (step w e) := by
  have hself : SameSend w w := ⟨rfl, rfl, rfl, rfl, rfl⟩
  cases e with
  | opened failure | boundSend failure =>
    cases failure with
    | none => exact ⟨rfl, rfl, rfl, rfl, rfl⟩
    | some e =>
      apply SameSend.emit
      exacts [⟨rfl, rfl, rfl, rfl, rfl⟩, rfl]
  | failed e =>
    simp only [step]
    split
    · apply SameSend.emit
      exacts [⟨rfl, rfl, rfl, rfl, rfl⟩, rfl]
    · exact ⟨rfl, rfl, rfl, rfl, rfl⟩
  | stamped t =>
    simp only [step, onStamped]
    split
    · apply SameSend.emit
      exacts [⟨rfl, rfl, rfl, rfl, rfl⟩, rfl]
    · exact ⟨rfl, rfl, rfl, rfl, rfl⟩
  | tested =>
    simp only [step]
    split <;> exact ⟨rfl, rfl, rfl, rfl, rfl⟩
  | subtracted =>
    simp only [step, onSubtracted]
    split
    · exact ⟨rfl, rfl, rfl, rfl, rfl⟩
    · apply SameSend.emit
      exacts [⟨rfl, rfl, rfl, rfl, rfl⟩, rfl]
  | started | emitted | cleared =>
    apply SameSend.emit
    exacts [⟨rfl, rfl, rfl, rfl, rfl⟩, rfl]
  | looped | received | timedOut | consumed | closed => exact ⟨rfl, rfl, rfl, rfl, rfl⟩
  | _ => cases h

end UdpWorker

end QccGui
