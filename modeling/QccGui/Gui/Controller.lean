import QccGui.Gui.BootloaderPacket
import QccGui.Lib.Dict
import QccGui.Lib.Machine
import Mathlib.Data.Finset.Card

/-!
# The Remote Programming controller

`RemoteProgController`: the state of a Remote Programming session, its operations, its timers and
its handling of received frames.

* `Controller`: the attributes of the object. `out` collects what the event at hand makes it send
  and emit; `raised` says that an exception ended the event's handler.
* `Controller.startModeStep1`, ..., `Controller.onFrame`: the methods.
* `Event`, `Controller.handle`, `machine`: the events that call them.
-/

namespace QccGui

open Lib

/-- The operations of a session. -/
inductive Op
  | modeStep1
  | modeStep2
  | linkCheck
  | lruInfo
  | authenticate
  | verify
  | upload
  | program
  | qtrmHighSpeed
  | modeBack
  deriving DecidableEq, Repr

def Op.name : Op → String
  | .modeStep1 => "mode_step1"
  | .modeStep2 => "mode_step2"
  | .linkCheck => "link_check"
  | .lruInfo => "lru_info"
  | .authenticate => "authenticate"
  | .verify => "verify"
  | .upload => "upload"
  | .program => "program"
  | .qtrmHighSpeed => "qtrm_high_speed"
  | .modeBack => "mode_back"

inductive Phase
  | stream
  | grace
  deriving DecidableEq, Repr

/-- The handlers that the session timer can call. -/
inductive Handler
  | simpleTimeout
  | iapWindowClosed
  | graceTimeout
  deriving DecidableEq, Repr

/-- What a handler sends and emits. -/
inductive Signal
  | send (frame : Bytes)
  | stepResult (op : Op) (ok : Bool) (text : String)
  | gateChanged (gateOpen : Bool)
  | lruRowUpdated (q : Qtrm) (slot : Slot)
  | opRowUpdated (op : Op) (q : Qtrm) (slot : Slot)
  | opWindowClosed (op : Op)
  | chunkProgress (index count : Nat)
  | ackRecorded (q : Qtrm) (index : Nat) (ok : Bool)
  | uploadFinished (missing failed : Nat)
  | sessionFinished (op : Option Op) (ok : Bool) (text : String)
  | logFrame (raw : Bytes) (isTx : Bool) (summary : String)
  deriving DecidableEq, Repr

def modeStepTimeoutMs : Nat := 3000
def lruInfoTimeoutMs : Nat := 3000
def linkCheckWindowMs : Nat := 3000
def iapPollWindowMs : Nat := 45000
def modeBackWindowMs : Nat := 2000
def qtrmHighSpeedWindowMs : Nat := 2000
def trailingAckGraceMs : Nat := 3000
def chunkPadByte : UInt8 := 0xFF

/-- `split_chunks`: the image in pieces of 4096 bytes, the last one padded, each with its real
length. -/
def splitChunks (image : Bytes) : List (Bytes × Nat) :=
  (List.range ((image.length + (rpPayloadSize - 1)) / rpPayloadSize)).map fun i =>
    let piece := slice image (rpPayloadSize * i) rpPayloadSize
    (piece ++ List.replicate (rpPayloadSize - piece.length) chunkPadByte, piece.length)

structure Controller where
  /-- The header settings, which the controller shares with the rest of the program. -/
  rc : RcSettings
  iapWindowMs : Nat := iapPollWindowMs
  targetQtrm : Target := .broadcast
  modeStep1Done : Bool := false
  modeStep2Done : Bool := false
  op : Option Op := none
  gotAnyFrame : Bool := false
  iapReplied : Finset Qtrm := ∅
  /-- The handler and the period of the session timer while it runs. -/
  timer : Option (Handler × Nat) := none
  chunks : List (Bytes × Nat) := []
  chunkCount : Nat := 0
  currentChunk : Option Nat := none
  uploadPhase : Option Phase := none
  imageIsGolden : Bool := false
  ackMatrix : Qtrm → Dict Nat Bool := fun _ => []
  /-- The one-shots armed by `start_upload` that have not fired. -/
  pendingShots : Nat := 0
  /-- Whether the send function returns, or raises because there is no connection. -/
  sendOk : Bool := true
  out : List Signal := []
  raised : Bool := false

namespace Controller

def busy (c : Controller) : Bool := c.op.isSome

def gateOpen (c : Controller) : Bool := c.modeStep1Done && c.modeStep2Done

def emit (c : Controller) (s : Signal) : Controller := { c with out := c.out ++ [s] }

@[simp] theorem emit_op (c : Controller) (s : Signal) : (c.emit s).op = c.op := rfl

@[simp] theorem emit_rc (c : Controller) (s : Signal) : (c.emit s).rc = c.rc := rfl

@[simp] theorem emit_raised (c : Controller) (s : Signal) : (c.emit s).raised = c.raised := rfl

@[simp] theorem emit_gotAnyFrame (c : Controller) (s : Signal) :
    (c.emit s).gotAnyFrame = c.gotAnyFrame := rfl

@[simp] theorem emit_ackMatrix (c : Controller) (s : Signal) :
    (c.emit s).ackMatrix = c.ackMatrix := rfl

/-- The rest of a handler, which an exception cuts off. -/
def next (c : Controller) (f : Controller → Controller) : Controller := if c.raised then c else f c

def sendFn (c : Controller) (frame : Bytes) : Controller :=
  { c.emit (.send frame) with raised := !c.sendOk }

def sendRp (c : Controller) (innerCmd payload : Bytes) (summary : String) : Controller :=
  if payload ≠ [] then
    let (header, rc) := c.rc.buildHeader commandIdRemoteProgramming [] rpFrameSize
    let frame := remoteProgrammingFrame header innerCmd payload
    ({ c with rc }.sendFn frame).next (·.emit (.logFrame frame true summary))
  else
    let (header, rc) := c.rc.buildHeader commandIdRemoteProgramming [] rpCmdFrameSize
    let frame := remoteProgrammingCmdFrame header innerCmd
    ({ c with rc }.sendFn frame).next (·.emit (.logFrame frame true summary))

def start (c : Controller) (op : Op) (timeoutMs : Nat) (onTimeout : Handler) : Controller :=
  { c with op := some op, gotAnyFrame := false, timer := some (onTimeout, timeoutMs) }

def finish (c : Controller) (ok : Bool) (text : String) : Controller :=
  { c with op := none, timer := none, uploadPhase := none, currentChunk := none }.emit
    (.sessionFinished c.op ok text)

def cancel (c : Controller) : Controller :=
  if c.op = none then c else c.finish false "Cancelled by operator"

def targetDesc (c : Controller) : String :=
  match c.targetQtrm with
  | .broadcast => "all 96 QTRMs"
  | .one q => s!"QTRM {q.val} only"

/-! ## Mode change -/

def startModeStep1 (c : Controller) : Controller :=
  if c.busy then c
  else
    let c := c.start .modeStep1 modeStepTimeoutMs .simpleTimeout
    let (header, rc) := c.rc.buildHeader commandIdDataDistribution
    let frame := broadcastBootloaderFrame header (buildModeChangeCommand bsnMssControl) c.targetQtrm
    ({ c with rc }.sendFn frame).next (·.emit (.logFrame frame true
      s!"Mode Change -> {c.targetDesc} to low-speed (bsn_mode=MSS_CONTROL)"))

/-- The bare header of a QCC level command, with its subcommand and the target. -/
def qccLevelHeader (c : Controller) (subCommand : UInt8) : Bytes × RcSettings :=
  c.rc.buildHeader commandIdRemoteProgramming [subCommand, byte c.targetQtrm.code] headerSize

def qccBodySwitchLowSpeed : UInt8 := 0x01
def qccBodySwitchHighSpeed : UInt8 := 0x02

def startModeStep2 (c : Controller) : Controller :=
  if c.busy then c
  else
    let c := c.start .modeStep2 modeStepTimeoutMs .simpleTimeout
    let (header, rc) := c.qccLevelHeader qccBodySwitchLowSpeed
    let frame := qccLevelFrame header
    ({ c with rc }.sendFn frame).next (·.emit (.logFrame frame true
      s!"QCC self mode change -> low-speed (SubCommand 0x01, target {c.targetDesc})"))

/-- Setting the flag of a mode step, and what follows it in every path. -/
def stepComplete (c : Controller) (op : Op) : Controller :=
  let c := if op = .modeStep1 then { c with modeStep1Done := true }
    else { c with modeStep2Done := true }
  let c := c.emit (.stepResult op true "Response received")
  (c.emit (.gateChanged c.gateOpen)).finish true "Step complete"

def noResponse (c : Controller) (op : Op) (text : String) : Controller :=
  (c.emit (.stepResult op false text)).finish false "No response"

def closeGate (c : Controller) : Controller :=
  { c with modeStep1Done := false, modeStep2Done := false }.emit (.gateChanged false)

/-- The collection window of a mode step, a link check, an LRU poll or a return to high speed
closed. -/
def onSimpleTimeout (c : Controller) : Controller :=
  match c.op with
  | some .modeStep1 =>
    if c.gotAnyFrame then c.stepComplete .modeStep1
    else c.noResponse .modeStep1 "No response — link may be down"
  | some .modeStep2 =>
    if c.gotAnyFrame then c.stepComplete .modeStep2
    else c.noResponse .modeStep2 "No response — link may be down"
  | some .linkCheck =>
    let c := c.emit (.opWindowClosed .linkCheck)
    if c.gotAnyFrame then c.finish true "Link check window closed"
    else c.noResponse .linkCheck "No response — link may be down"
  | some .lruInfo =>
    let c := c.emit (.opWindowClosed .lruInfo)
    if c.gotAnyFrame then c.finish true "LRU info received"
    else c.noResponse .lruInfo "No response — link may be down"
  | some .qtrmHighSpeed => c.noResponse .qtrmHighSpeed "No ack from QCC — link may be down"
  | some .modeBack => c.closeGate.noResponse .modeBack "No ack from QCC — link may be down"
  | _ => c

/-! ## Operations behind the gate -/

def startLinkCheck (c : Controller) : Controller :=
  if c.busy || !c.gateOpen then c
  else (c.start .linkCheck linkCheckWindowMs .simpleTimeout).sendRp buildLinkRequest []
    "Link Request (0x30) broadcast"

def startLruInfo (c : Controller) : Controller :=
  if c.busy || !c.gateOpen then c
  else (c.start .lruInfo lruInfoTimeoutMs .simpleTimeout).sendRp buildLruInfoRequest []
    "Get LRU Info request (layout ASSUMED, 0x31)"

def startQtrmHighSpeed (c : Controller) : Controller :=
  if c.busy || !c.gateOpen then c
  else (c.start .qtrmHighSpeed qtrmHighSpeedWindowMs .simpleTimeout).sendRp
    buildModeChangeMssToFab []
    s!"Mode Change MSS->Fabric (0x32) -> {c.targetDesc} to high-speed"

def startModeBack (c : Controller) : Controller :=
  if c.busy || !c.gateOpen then c
  else
    let c := c.start .modeBack modeBackWindowMs .simpleTimeout
    let (header, rc) := c.qccLevelHeader qccBodySwitchHighSpeed
    let frame := qccLevelFrame header
    ({ c with rc }.sendFn frame).next (·.emit (.logFrame frame true
      s!"QCC self mode change -> high-speed (SubCommand 0x02, target {c.targetDesc})"))

def goldenName (imageIsGolden : Bool) : String := if imageIsGolden then "GOLDEN" else "CURRENT"

def startIapPoll (c : Controller) (op : Op) (iapMode : UInt8) (imageIsGolden : Bool)
    (windowMs : Nat) : Controller :=
  if c.busy || !c.gateOpen then c
  else
    ({ c with iapReplied := ∅ }.start op windowMs .iapWindowClosed).sendRp
      (buildFirmwareUpdateCommand iapMode imageIsGolden) []
      s!"Firmware Update Command IAP_MODE={iapModeName iapMode} ({goldenName imageIsGolden} image)"

def startAuthenticate (c : Controller) (imageIsGolden : Bool) : Controller :=
  c.startIapPoll .authenticate iapAuthenticate imageIsGolden c.iapWindowMs

def startVerify (c : Controller) (imageIsGolden : Bool) : Controller :=
  c.startIapPoll .verify iapVerify imageIsGolden c.iapWindowMs

def startProgram (c : Controller) (imageIsGolden : Bool) : Controller :=
  c.startIapPoll .program iapProgram imageIsGolden c.iapWindowMs

/-- The timer of an IAP window runs only while its operation is active. -/
def onIapWindowClosed (c : Controller) : Controller :=
  match c.op with
  | none => c
  | some op =>
    let c := c.emit (.opWindowClosed op)
    if c.gotAnyFrame then c.finish true "Poll window closed"
    else if op = .program then
      c.finish true "PROGRAM sent — no replies (normal: devices reprogram)"
    else c.noResponse op "No response — link may be down"

/-! ## Upload -/

def enterGrace (c : Controller) : Controller :=
  { c with uploadPhase := some .grace, timer := some (.graceTimeout, trailingAckGraceMs) }

/-- An index outside the chunk list raises. -/
def sendCurrentChunk (c : Controller) (index : Nat) : Controller :=
  match c.chunks[index]? with
  | none => { c with raised := true }
  | some (data, realLen) =>
    (c.sendRp (buildBitstreamDataHeader realLen c.chunkCount index) data
      s!"Bitstream chunk {index + 1}/{c.chunkCount} ({realLen} bytes)").next
      (·.emit (.chunkProgress index c.chunkCount))

/-- The chunk that is sent next. -/
def nextIndex (c : Controller) (first : Bool) : Nat :=
  if first then 0 else match c.currentChunk with
    | none => 0
    | some i => i + 1

def sendNextChunk (c : Controller) (first : Bool) : Controller :=
  let index := c.nextIndex first
  if index ≥ c.chunkCount then c.enterGrace
  else { c with currentChunk := some index }.sendCurrentChunk index

/-- The first chunk is sent by a one-shot that fires a little after the announcement. -/
def startUpload (c : Controller) (image : Bytes) (imageIsGolden : Bool) : Controller :=
  if c.busy || !c.gateOpen || image.isEmpty then c
  else
    let chunks := splitChunks image
    let c := { c with
      chunks, chunkCount := chunks.length, ackMatrix := fun _ => [], imageIsGolden
      op := some .upload, gotAnyFrame := false, uploadPhase := some .stream }
    (c.sendRp (buildBitstreamReceiveCommand rpPayloadSize chunks.length imageIsGolden) []
      s!"Bitstream Receive announce (0x33, {goldenName imageIsGolden} image, {chunks.length} x {rpPayloadSize}B)").next
      fun c => { c with currentChunk := none, pendingShots := c.pendingShots + 1 }

/-- Chunk indices that at least one QTRM never acknowledged. -/
def missingChunkIndices (c : Controller) : List Nat :=
  (List.range c.chunkCount).filter fun i =>
    (List.finRange 96).any fun q => (c.ackMatrix q).get? i ≠ some true

def failedPairs (c : Controller) : List (Qtrm × Nat) :=
  (List.finRange 96).flatMap fun q =>
    ((c.ackMatrix q).filter (·.2 = false)).map fun x => (q, x.1)

def closeUploadPass (c : Controller) : Controller :=
  let missing := c.missingChunkIndices
  let failed := c.failedPairs
  (c.emit (.uploadFinished missing.length failed.length)).finish
    (missing.isEmpty && failed.isEmpty)
    (if missing.isEmpty && failed.isEmpty then "Transfer complete — all QTRMs acked every chunk"
      else s!"Transfer pass done — {missing.length} chunk(s) missing acks, {failed.length} failure(s) reported")

/-! ## Received frames -/

/-- A pass is never overwritten. -/
def setAck (c : Controller) (q : Qtrm) (index : Nat) (ok : Bool) : Controller :=
  if (c.ackMatrix q).get? index ≠ some true then
    { c with ackMatrix := Function.update c.ackMatrix q ((c.ackMatrix q).set index ok) }.emit
      (.ackRecorded q index ok)
  else c

/-- One acknowledgement: a pass of the chunk in flight sends the next one. -/
def recordAck (c : Controller) (q : Qtrm) (index : Nat) (ok : Bool) : Controller :=
  if index ≥ c.chunkCount then c
  else
    let c := c.setAck q index ok
    if c.uploadPhase = some .stream ∧ ok = true ∧ c.currentChunk = some index then
      c.sendNextChunk false
    else c

def dispatchSlot (c : Controller) (q : Qtrm) (parsed : Slot) : Controller :=
  match c.op with
  | some .modeStep1 => c.emit (.opRowUpdated .modeStep1 q parsed)
  | some .lruInfo =>
    match parsed with
    | .lruStatusResponse .. => c.emit (.lruRowUpdated q parsed)
    | _ => c.emit (.opRowUpdated .lruInfo q parsed)
  | some .linkCheck => c.emit (.opRowUpdated .linkCheck q parsed)
  | some .authenticate =>
    { c with iapReplied := insert q c.iapReplied }.emit (.opRowUpdated .authenticate q parsed)
  | some .verify =>
    { c with iapReplied := insert q c.iapReplied }.emit (.opRowUpdated .verify q parsed)
  | some .program =>
    { c with iapReplied := insert q c.iapReplied }.emit (.opRowUpdated .program q parsed)
  | some .upload =>
    match parsed with
    | .bitstreamAck _ index passFail => c.recordAck q index (!transferFailed passFail)
    | _ => c.emit (.opRowUpdated .upload q parsed)
  | _ => c

/-- One turn of the slot loop. -/
def onSlot (context : Context) (slots : Qtrm → Bytes) (acc : Controller × Bool) (q : Qtrm) :
    Controller × Bool :=
  if acc.1.raised then acc
  else match parseSlot (slots q) context with
    | .ok (some parsed) => (acc.1.dispatchSlot q parsed, true)
    | _ => acc

def context (c : Controller) : Context :=
  if c.op = some .upload ∧ c.uploadPhase ≠ none then .bitstream
  else if c.op = some .lruInfo then .lruInfo
  else .fwUpdate

def targetCount (c : Controller) : Nat :=
  match c.targetQtrm with
  | .broadcast => numQtrm
  | .one _ => 1

/-- What follows the slot loop. -/
def afterSlots (c : Controller) : Controller :=
  match c.op with
  | some .linkCheck => (c.emit (.opWindowClosed .linkCheck)).finish true "Link check response received"
  | some .lruInfo => (c.emit (.opWindowClosed .lruInfo)).finish true "LRU info received"
  | some op =>
    if (op = .authenticate ∨ op = .verify ∨ op = .program) ∧ c.targetCount ≤ c.iapReplied.card then
      (c.emit (.opWindowClosed op)).finish true "All targeted QTRMs replied — poll ended early"
    else c
  | none => c

/-- The part of `on_frame` that looks at the QTRM slots. -/
def onSlots (c : Controller) (raw : Bytes) : Controller :=
  match extractRpSlots raw with
  | .error _ => { c with raised := true }
  | .ok slots =>
    let (c, decodedAny) := (List.finRange 96).foldl (onSlot c.context slots) (c, false)
    c.next fun c =>
      let name := match c.op with
        | some op => op.name
        | none => "None"
      (c.emit (.logFrame raw false
        (s!"{name} response frame" ++ if decodedAny then "" else " (no populated slots)"))).afterSlots

def onFrame (c : Controller) (raw : Bytes) : Controller :=
  match c.op with
  | none => c
  | some op =>
    let c := { c with gotAnyFrame := true }
    match op with
    | .modeStep1 => (c.emit (.logFrame raw false "QCC mode-change response")).stepComplete .modeStep1
    | .modeStep2 => (c.emit (.logFrame raw false "QCC mode-change response")).stepComplete .modeStep2
    | .qtrmHighSpeed =>
      (c.emit (.logFrame raw false "QCC DMA-write ack")).finish true "QTRM high-speed broadcast acked"
    | .modeBack =>
      (c.emit (.logFrame raw false "QCC DMA-write ack")).closeGate.finish true
        "Returned to high speed — gate re-locked"
    | _ => c.onSlots raw

/-! ## Events -/

/-- The operations that the window can start. -/
inductive Start
  | modeStep1
  | modeStep2
  | linkCheck
  | lruInfo
  | qtrmHighSpeed
  | modeBack
  | authenticate (imageIsGolden : Bool)
  | verify (imageIsGolden : Bool)
  | program (imageIsGolden : Bool)
  | upload (image : Bytes) (imageIsGolden : Bool)
  deriving DecidableEq, Repr

/-- The method that starts an operation. -/
def startOp (c : Controller) : Start → Controller
  | .modeStep1 => c.startModeStep1
  | .modeStep2 => c.startModeStep2
  | .linkCheck => c.startLinkCheck
  | .lruInfo => c.startLruInfo
  | .qtrmHighSpeed => c.startQtrmHighSpeed
  | .modeBack => c.startModeBack
  | .authenticate golden => c.startAuthenticate golden
  | .verify golden => c.startVerify golden
  | .program golden => c.startProgram golden
  | .upload image golden => c.startUpload image golden

/-- The session timer fires; it is single-shot. -/
def onTimer (c : Controller) : Controller :=
  match c.timer with
  | none => c
  | some (h, _) =>
    let c := { c with timer := none }
    match h with
    | .simpleTimeout => c.onSimpleTimeout
    | .iapWindowClosed => c.onIapWindowClosed
    | .graceTimeout => c.closeUploadPass

/-- A one-shot armed by `start_upload` fires. Nothing cancels it. -/
def onShot (c : Controller) : Controller :=
  { c with pendingShots := c.pendingShots - 1 }.sendNextChunk true

inductive Event
  | start (what : Start)
  | setTarget (target : Target)
  | setIapWindow (ms : Nat)
  | frame (raw : Bytes)
  | timer
  | shot
  | cancel
  | link (up : Bool)
  deriving DecidableEq, Repr

/-- The handler of an event. -/
def react (c : Controller) (e : Event) : Controller :=
  match e with
  | .start what => c.startOp what
  | .setTarget target => { c with targetQtrm := target }
  | .setIapWindow ms => { c with iapWindowMs := ms }
  | .frame raw => c.onFrame raw
  | .timer => c.onTimer
  | .shot => c.onShot
  | .cancel => c.cancel
  | .link up => { c with sendOk := up }

/-- The outputs of the event before are taken away. -/
def cleared (c : Controller) : Controller := { c with out := [], raised := false }

def handle (c : Controller) (e : Event) : Controller := c.cleared.react e

/-- A timer can fire only while it runs. -/
def machine : Machine Controller Event where
  enabled c e := match e with
    | .timer => c.timer.isSome
    | .shot => 0 < c.pendingShots
    | _ => True
  step := handle

/-- The object as `__init__` leaves it. -/
def init (rc : RcSettings) : Controller := { rc }

end Controller

end QccGui
