import QccGui.Lib.Machine
import QccGui.Gui.LogAnalysis

/-!
# The burn test worker

The stress test of the link: one thread sends a frame at every deadline without waiting for the
responses, takes what has arrived, and gives up the frames that stay unanswered for too long.

* `BurnTest`, `BurnTest.machine`: the thread between two of its statements, each of which reads the
  clock or the socket, and one of them.
* `BurnTest.Ordered`: the table of outstanding frames is in the order of the sends; so the scan of
  its front finds every frame that is too old (`BurnTest.Ordered.evict`).
-/

namespace QccGui

open Lib

/-! ## The worker -/

/-- The seconds that a frame may stay unanswered, and those between two reports. -/
def staleTimeoutS : ℚ := 3 / 10

def statsIntervalS : ℚ := 1 / 10

/-- A sent frame without a response. -/
structure Outstanding where
  sendPerf : ℚ
  txTimestamp : String
  qccCommand : String
  deriving DecidableEq

/-- What a burn test is told. `round` is the rounding of the sums that make its deadlines, in the code
that of doubles; the differences of times are exact. -/
structure BurnConfig where
  isLinkTest : Bool
  intervalS : ℚ
  localAddress : String
  qccAddress : String
  round : ℚ → ℚ

def BurnConfig.commandId (c : BurnConfig) : Nat :=
  if c.isLinkTest then commandIdDataDistribution else commandIdQccStatus

def BurnConfig.buildFrame (c : BurnConfig) (header : Bytes) : Bytes :=
  if c.isLinkTest then buildLinkTestFrame header else headerOnlyFrame header

def BurnConfig.targetHz (c : BurnConfig) : ℚ := if c.intervalS > 0 then 1 / c.intervalS else 0

structure BurnStats where
  sent : Nat
  ok : Nat
  timeouts : Nat
  errors : Nat
  achievedHz : ℚ
  targetHz : ℚ

inductive BurnSignal
  | error (message : String)
  | status (message : String)
  | statsReady (stats : BurnStats)
  | rowsReady (rows : List LogRow)
  | linkResultReady (flags : Qtrm → Bool)
  | frameReceived (raw : Bytes)

/-- The next statement of the loop that reads the clock or the socket. -/
inductive BurnPhase
  | loop
  | drain
  | send
  | evict
  | tick
  | stopped
  deriving DecidableEq, Repr

/-- The worker between two statements. `clock` is the last reading of the clock, `datagrams` are
the frames that were sent. -/
structure BurnTest where
  config : BurnConfig
  phase : BurnPhase
  running : Bool := true
  rc : RcSettings
  clock : ℚ
  pending : Dict Nat Outstanding := []
  rows : List LogRow := []
  sent : Nat := 0
  ok : Nat := 0
  timeouts : Nat := 0
  errors : Nat := 0
  lastLinkFlags : Option (Qtrm → Bool) := none
  lastRawFrame : Option Bytes := none
  nextSend : ℚ
  lastStatsTick : ℚ
  sentAtLastTick : Nat := 0
  signals : List BurnSignal := []
  datagrams : List Bytes := []

/-- The marks of a Link Test response; all QTRMs were queried. -/
def allQueried (flags : Qtrm → Bool) : QtrmMarks := ⟨List.finRange 96, flags⟩

namespace BurnTest

/-- `run` up to its loop. `bindError` is the error that opening the sockets meets. -/
def run (config : BurnConfig) (rc : RcSettings) (now : ℚ) (bindError : Option String) : BurnTest :=
  match bindError with
  | some e =>
    { config, rc, clock := now, phase := .stopped, nextSend := now, lastStatsTick := now
      signals := [.error s!"Burn Test could not open a UDP socket: {e}",
        .status "Burn Test stopped"] }
  | none =>
    { config, rc, clock := now, phase := .loop, nextSend := now, lastStatsTick := now
      signals := [.status
        s!"Burn Test running from {config.localAddress} to {config.qccAddress}"] }

/-- The row of a frame that was given up. -/
def timeoutRow (x : Nat × Outstanding) : LogRow where
  msgNumber := x.1
  txTimestamp := x.2.txTimestamp
  qccCommand := x.2.qccCommand
  result := .timeout

/-- A full-size frame whose number no outstanding frame has. -/
def strayRow (data : Bytes) (stamp : String) (linkFlags : Option (Qtrm → Bool)) : LogRow where
  msgNumber := (QccHeaderTx.decode (data.take headerSize)).messageNumber
  rxTimestamp := stamp
  qccCommand := commandName (QccHeaderTx.decode (data.take headerSize)).qccCommand
  result := .unsolicited
  qtrm := linkFlags.map allQueried
  rxRawHex := hexText data

/-- A full-size frame with the number of the outstanding frame `info`. -/
def answerRow (data : Bytes) (recvPerf : ℚ) (stamp : String) (info : Outstanding)
    (linkFlags : Option (Qtrm → Bool)) : LogRow :=
  let header := QccHeaderTx.decode (data.take headerSize)
  let result : LogResult := if header.checksumOk then .ok else .crcFail
  { msgNumber := header.messageNumber
    txTimestamp := info.txTimestamp
    rxTimestamp := stamp
    delayUs := fixed1 ((recvPerf - info.sendPerf) * 1000000)
    qccCommand := info.qccCommand
    result
    qtrm := linkFlags.map allQueried
    rxRawHex := if result = .ok then "" else hexText data }

/-- Which QTRMs replied, for a Link Test response. -/
def linkFlags (isLinkTest : Bool) (data : Bytes) : Option (Qtrm → Bool) :=
  if isLinkTest then some fun i => isLinkResponseOk (responseSlot data i) else none

/-- `_handle_response`: the row and the link flags of a received frame, and what stays
outstanding. -/
def handleResponse (data : Bytes) (recvPerf : ℚ) (stamp : String) (pending : Dict Nat Outstanding)
    (isLinkTest : Bool) : Option LogRow × Option (Qtrm → Bool) × Dict Nat Outstanding :=
  if data.length ≠ totalPacketSize then (none, none, pending)
  else
    let number := (QccHeaderTx.decode (data.take headerSize)).messageNumber
    let flags := linkFlags isLinkTest data
    match pending.get? number with
    | none => (some (strayRow data stamp flags), flags, pending)
    | some info => (some (answerRow data recvPerf stamp info flags), flags, pending.erase number)

/-- A datagram was received. -/
def onDatagram (b : BurnTest) (data : Bytes) (recvPerf : ℚ) (stamp : String) : BurnTest :=
  let (row, flags, pending) := handleResponse data recvPerf stamp b.pending b.config.isLinkTest
  let b := { b with
    clock := recvPerf, lastRawFrame := some data, pending
    lastLinkFlags := if flags.isSome then flags else b.lastLinkFlags }
  match row with
  | none => b
  | some row =>
    { b with
      rows := b.rows ++ [row]
      ok := if row.result = LogResult.ok then b.ok + 1 else b.ok
      errors := if row.result = LogResult.ok then b.errors else b.errors + 1 }

/-- The next deadline; after a delay of more than one interval the missed ones are dropped. -/
def nextDeadline (b : BurnTest) (now : ℚ) : ℚ :=
  let next := b.config.round (b.nextSend + b.config.intervalS)
  if next < now then b.config.round (now + b.config.intervalS) else next

/-- The deadline has passed and a frame is sent. -/
def onSend (b : BurnTest) (now sendPerf : ℚ) (stamp : String) (sendError : Option String) :
    BurnTest :=
  let msgNumber := b.rc.messageNumber + 1
  let (header, rc) := b.rc.buildHeader b.config.commandId
  let b := { b with rc, nextSend := b.nextDeadline now }
  match sendError with
  | some e =>
    { b with
      clock := now, errors := b.errors + 1
      signals := b.signals ++ [.error s!"Burn Test send error: {e}"] }
  | none =>
    { b with
      clock := sendPerf, sent := b.sent + 1
      datagrams := b.datagrams ++ [b.config.buildFrame header]
      pending := b.pending.set msgNumber ⟨sendPerf, stamp, commandName b.config.commandId⟩ }

/-- A frame is too old. -/
def isStale (now : ℚ) (x : Nat × Outstanding) : Bool := now - x.2.sendPerf > staleTimeoutS

/-- The front of the table is scanned for frames that are too old. -/
def onEvict (b : BurnTest) (now : ℚ) : BurnTest :=
  let stale := b.pending.takeWhile (isStale now)
  { b with
    clock := now
    pending := (stale.map Prod.fst).foldl Dict.erase b.pending
    rows := b.rows ++ stale.map timeoutRow
    timeouts := b.timeouts + stale.length }

def stats (b : BurnTest) (achievedHz : ℚ) : BurnStats :=
  ⟨b.sent, b.ok, b.timeouts, b.errors, achievedHz, b.config.targetHz⟩

/-- The rows of a batch, if there are any. -/
def batch (rows : List LogRow) : List BurnSignal := if rows = [] then [] else [.rowsReady rows]

def onTick (b : BurnTest) (now : ℚ) : BurnTest :=
  let elapsed := now - b.lastStatsTick
  if elapsed ≥ statsIntervalS then
    let achievedHz : ℚ := if elapsed > 0 then ((b.sent : ℚ) - b.sentAtLastTick) / elapsed else 0
    { b with
      clock := now
      signals := b.signals ++ [.statsReady (b.stats achievedHz)] ++ batch b.rows ++
        (b.lastLinkFlags.map .linkResultReady).toList ++ (b.lastRawFrame.map .frameReceived).toList
      rows := [], lastLinkFlags := none, lastRawFrame := none
      lastStatsTick := now, sentAtLastTick := b.sent }
  else { b with clock := now }

/-- The end of `run`: what is still outstanding is given up. Its variables are gone then. -/
def finish (b : BurnTest) : BurnTest :=
  let rows := b.rows ++ b.pending.map timeoutRow
  let b := { b with timeouts := b.timeouts + b.pending.length }
  { b with
    signals := b.signals ++ batch rows ++ [.statsReady (b.stats 0), .status "Burn Test stopped"]
    rows := [], pending := [], phase := .stopped }

/-- The statements of the thread, with what the clock and the socket say; and what other threads do:
one stops the worker, another takes a message number. -/
inductive Event
  | stop
  | headerBuilt
  | proceed
  | datagram (data : Bytes) (recvPerf : ℚ) (stamp : String)
  | receiveError (message : String)
  | drained
  | send (now sendPerf : ℚ) (stamp : String) (sendError : Option String)
  | evict (now : ℚ)
  | tick (now : ℚ)
  deriving DecidableEq

def step (b : BurnTest) : Event → BurnTest
  | .stop => { b with running := false }
  | .headerBuilt => { b with rc := { b.rc with messageNumber := b.rc.messageNumber + 1 } }
  | .proceed => if b.running then { b with phase := .drain } else b.finish
  | .datagram data recvPerf stamp => b.onDatagram data recvPerf stamp
  | .receiveError message =>
    { b with
      phase := .send, errors := b.errors + 1
      signals := b.signals ++ [.error s!"Burn Test receive error: {message}"] }
  | .drained => { b with phase := .send }
  | .send now sendPerf stamp sendError =>
    if now ≥ b.nextSend then { b.onSend now sendPerf stamp sendError with phase := .evict }
    else { b with clock := now, phase := .evict }
  | .evict now => { b.onEvict now with phase := .tick }
  | .tick now => { b.onTick now with phase := .loop }

/-- The statements come in the order of the loop, and the clock does not go back. -/
def enabled (b : BurnTest) : Event → Prop
  | .stop | .headerBuilt => True
  | .proceed => b.phase = .loop
  | .datagram _ recvPerf _ => b.phase = .drain ∧ b.clock ≤ recvPerf
  | .receiveError _ | .drained => b.phase = .drain
  | .send now sendPerf _ _ => b.phase = .send ∧ b.clock ≤ now ∧ now ≤ sendPerf
  | .evict now => b.phase = .evict ∧ b.clock ≤ now
  | .tick now => b.phase = .tick ∧ b.clock ≤ now

def machine : Machine BurnTest Event := ⟨enabled, step⟩

/-! ## The table of outstanding frames -/

/-- The table is in the order of the sends: by number, and by time. -/
structure Ordered (b : BurnTest) : Prop where
  keys : b.pending.Pairwise fun x y => x.1 < y.1
  times : b.pending.Pairwise fun x y => x.2.sendPerf ≤ y.2.sendPerf
  key_le : ∀ x ∈ b.pending, x.1 ≤ b.rc.messageNumber
  time_le : ∀ x ∈ b.pending, x.2.sendPerf ≤ b.clock

section

variable {b b' : BurnTest} {now sendPerf recvPerf : ℚ} {data : Bytes} {stamp : String}
  {sendError : Option String}

theorem Ordered.nodup (h : Ordered b) : (b.pending.map Prod.fst).Nodup :=
  List.pairwise_map.2 (h.keys.imp fun h => h.ne)

/-- A part of the table is in order, and the clock and the counter may go on. -/
theorem Ordered.mono (h : Ordered b) (hp : b'.pending.Sublist b.pending)
    (hrc : b.rc.messageNumber ≤ b'.rc.messageNumber) (hclock : b.clock ≤ b'.clock) : Ordered b' :=
  ⟨h.keys.sublist hp, h.times.sublist hp, fun x hx => (h.key_le x (hp.subset hx)).trans hrc,
    fun x hx => (h.time_le x (hp.subset hx)).trans hclock⟩

theorem handleResponse_sublist {isLinkTest : Bool} (pending : Dict Nat Outstanding) :
    (handleResponse data recvPerf stamp pending isLinkTest).2.2.Sublist pending := by
  unfold handleResponse
  split
  · exact List.Sublist.refl _
  · dsimp only
    split
    · exact List.Sublist.refl _
    · exact List.filter_sublist

theorem onDatagram_eq (b : BurnTest) (data : Bytes) (recvPerf : ℚ) (stamp : String) :
    (b.onDatagram data recvPerf stamp).pending =
        (handleResponse data recvPerf stamp b.pending b.config.isLinkTest).2.2 ∧
      (b.onDatagram data recvPerf stamp).rc = b.rc ∧
      (b.onDatagram data recvPerf stamp).clock = recvPerf ∧
      (b.onDatagram data recvPerf stamp).signals = b.signals ∧
      (b.onDatagram data recvPerf stamp).sent = b.sent ∧
      (b.onDatagram data recvPerf stamp).timeouts = b.timeouts := by
  unfold onDatagram
  rcases handleResponse data recvPerf stamp b.pending b.config.isLinkTest with ⟨_ | row, flags, p⟩ <;>
    exact ⟨rfl, rfl, rfl, rfl, rfl, rfl⟩

theorem onDatagram_phase (b : BurnTest) (data : Bytes) (recvPerf : ℚ) (stamp : String) :
    (b.onDatagram data recvPerf stamp).phase = b.phase := by
  unfold onDatagram
  rcases handleResponse data recvPerf stamp b.pending b.config.isLinkTest with ⟨_ | row, flags, p⟩ <;>
    rfl

section

variable (b) (recvPerf) (stamp)

theorem onDatagram_short (h : data.length ≠ totalPacketSize) :
    (b.onDatagram data recvPerf stamp).pending = b.pending ∧
      (b.onDatagram data recvPerf stamp).rows = b.rows ∧
      (b.onDatagram data recvPerf stamp).ok = b.ok ∧
      (b.onDatagram data recvPerf stamp).errors = b.errors := by
  simp [onDatagram, handleResponse, h]

theorem onDatagram_stray (h : data.length = totalPacketSize)
    (hget : b.pending.get? (messageNumber data) = none) :
    (b.onDatagram data recvPerf stamp).pending = b.pending ∧
      (b.onDatagram data recvPerf stamp).rows =
        b.rows ++ [strayRow data stamp (linkFlags b.config.isLinkTest data)] ∧
      (b.onDatagram data recvPerf stamp).ok = b.ok ∧
      (b.onDatagram data recvPerf stamp).errors = b.errors + 1 := by
  simp [onDatagram, handleResponse, h, QccHeaderTx.decode_messageNumber, hget, strayRow]

theorem onDatagram_answer {info : Outstanding} (h : data.length = totalPacketSize)
    (hget : b.pending.get? (messageNumber data) = some info) :
    (b.onDatagram data recvPerf stamp).pending = b.pending.erase (messageNumber data) ∧
      (b.onDatagram data recvPerf stamp).rows = b.rows ++
        [answerRow data recvPerf stamp info (linkFlags b.config.isLinkTest data)] ∧
      (b.onDatagram data recvPerf stamp).ok =
        (if (QccHeaderTx.decode (data.take headerSize)).checksumOk then b.ok + 1 else b.ok) ∧
      (b.onDatagram data recvPerf stamp).errors =
        (if (QccHeaderTx.decode (data.take headerSize)).checksumOk then b.errors
          else b.errors + 1) := by
  simp only [onDatagram, handleResponse, h, ne_eq, not_true_eq_false, if_false,
    QccHeaderTx.decode_messageNumber, hget]
  cases hok : (QccHeaderTx.decode (data.take headerSize)).checksumOk <;>
    simp [answerRow, hok]

end

theorem onTick_eq (b : BurnTest) (now : ℚ) :
    (b.onTick now).pending = b.pending ∧ (b.onTick now).rc = b.rc ∧ (b.onTick now).clock = now ∧
      (b.onTick now).sent = b.sent ∧ (b.onTick now).ok = b.ok ∧
      (b.onTick now).timeouts = b.timeouts ∧ (b.onTick now).errors = b.errors := by
  unfold onTick
  dsimp only
  split <;> exact ⟨rfl, rfl, rfl, rfl, rfl, rfl, rfl⟩

/-- The message numbers do not go back. -/
theorem messageNumber_mono (b : BurnTest) (e : Event) :
    b.rc.messageNumber ≤ (b.step e).rc.messageNumber := by
  cases e with
  | headerBuilt => exact Nat.le_succ _
  | proceed => simp only [step]; split <;> exact le_rfl
  | datagram data recvPerf stamp =>
    exact (congrArg RcSettings.messageNumber (onDatagram_eq b data recvPerf stamp).2.1).ge
  | send now sendPerf stamp sendError =>
    simp only [step]
    split
    · cases sendError <;> exact Nat.le_succ _
    · exact le_rfl
  | tick now => exact (congrArg RcSettings.messageNumber (onTick_eq b now).2.1).ge
  | _ => exact le_rfl

/-- The scan of the front finds every frame that is too old. -/
theorem Ordered.front (h : Ordered b) (now : ℚ) :
    b.pending.takeWhile (isStale now) = b.pending.filter (isStale now) := by
  refine Dict.takeWhile_eq_filter (h.times.imp fun {x y} hxy hy => ?_)
  simp only [isStale, decide_eq_true_eq] at hy ⊢
  linarith

/-- Exactly the frames that are too old are removed, and get their rows. -/
theorem Ordered.evict (h : Ordered b) (now : ℚ) :
    (b.onEvict now).pending = b.pending.filter (fun x => !isStale now x) ∧
      (b.onEvict now).rows = b.rows ++ (b.pending.filter (isStale now)).map timeoutRow := by
  have hfront := h.front now
  refine ⟨?_, ?_⟩
  · simp only [onEvict, hfront, Dict.foldl_erase]
    apply List.filter_congr
    intro x hx
    by_cases hs : isStale now x = true
    · simp only [hs, Bool.not_true, decide_eq_false_iff_not, not_not]
      exact List.mem_map.2 ⟨x, List.mem_filter.2 ⟨hx, hs⟩, rfl⟩
    · have hkey : x.1 ∉ (b.pending.filter (isStale now)).map Prod.fst := by
        intro hmem
        obtain ⟨y, hy, hyx⟩ := List.mem_map.1 hmem
        obtain ⟨hy, hys⟩ := List.mem_filter.1 hy
        have hv := Dict.get?_of_mem h.nodup (show (x.1, x.2) ∈ b.pending from hx)
        rw [← hyx, Dict.get?_of_mem h.nodup (show (y.1, y.2) ∈ b.pending from hy)] at hv
        exact hs ((Prod.ext hyx (Option.some.inj hv) : y = x) ▸ hys)
      simp [hs, hkey]
  · simp only [onEvict, hfront]

/-- A new frame goes to the end of the table. -/
theorem Ordered.send (h : Ordered b) :
    (b.onSend now sendPerf stamp none).pending =
      b.pending ++ [(b.rc.messageNumber + 1,
        ⟨sendPerf, stamp, commandName b.config.commandId⟩)] := by
  apply Dict.set_new
  intro hmem
  obtain ⟨x, hx, hkey⟩ := List.mem_map.1 hmem
  have := h.key_le x hx
  omega

/-- Every statement keeps the table in order. -/
theorem Ordered.step {e : Event} (h : Ordered b) (he : enabled b e) : Ordered (b.step e) := by
  cases e with
  | stop => exact h.mono (.refl _) le_rfl le_rfl
  | headerBuilt => exact h.mono (.refl _) (Nat.le_succ _) le_rfl
  | proceed =>
    simp only [BurnTest.step]
    split
    · exact h.mono (.refl _) le_rfl le_rfl
    · exact ⟨.nil, .nil, nofun, nofun⟩
  | datagram data recvPerf stamp =>
    obtain ⟨hp, hrc, hclock, -⟩ := onDatagram_eq b data recvPerf stamp
    refine h.mono ?_ ?_ ?_
    · exact hp ▸ handleResponse_sublist _
    · exact (congrArg RcSettings.messageNumber hrc).ge
    · exact he.2.trans hclock.ge
  | receiveError message => exact h.mono (.refl _) le_rfl le_rfl
  | drained => exact h.mono (.refl _) le_rfl le_rfl
  | send now sendPerf stamp sendError =>
    obtain ⟨-, hnow, hsend⟩ := he
    simp only [BurnTest.step]
    split
    · cases sendError with
      | some message => exact h.mono (.refl _) (Nat.le_succ _) hnow
      | none =>
        have hp : (b.onSend now sendPerf stamp none).pending = b.pending ++ [_] := h.send
        refine ⟨?_, ?_, ?_, ?_⟩
        · rw [hp, List.pairwise_append]
          refine ⟨h.keys, List.pairwise_singleton .., fun x hx y hy => ?_⟩
          obtain rfl := List.mem_singleton.1 hy
          exact Nat.lt_succ_of_le (h.key_le x hx)
        · rw [hp, List.pairwise_append]
          refine ⟨h.times, List.pairwise_singleton .., fun x hx y hy => ?_⟩
          obtain rfl := List.mem_singleton.1 hy
          exact ((h.time_le x hx).trans hnow).trans hsend
        · intro x hx
          rcases List.mem_append.1 (hp ▸ hx) with hx | hx
          · exact (h.key_le x hx).trans (Nat.le_succ _)
          · exact List.mem_singleton.1 hx ▸ le_rfl
        · intro x hx
          rcases List.mem_append.1 (hp ▸ hx) with hx | hx
          · exact ((h.time_le x hx).trans hnow).trans hsend
          · exact List.mem_singleton.1 hx ▸ le_rfl
    · exact h.mono (.refl _) le_rfl hnow
  | evict now => exact h.mono ((h.evict now).1 ▸ List.filter_sublist) le_rfl he.2
  | tick now =>
    obtain ⟨hp, hrc, hclock, -⟩ := onTick_eq b now
    refine h.mono ?_ ?_ ?_
    · exact hp ▸ .refl _
    · exact (congrArg RcSettings.messageNumber hrc).ge
    · exact he.2.trans hclock.ge

theorem ordered_of_run {config : BurnConfig} {rc : RcSettings} {t₀ : ℚ} {bindError : Option String}
    {tr : List (BurnTest × Event)} (hr : machine.Run (run config rc t₀ bindError) tr b) :
    Ordered b := by
  refine hr.invariant' ?_ fun b e h he => h.step he
  cases bindError <;> exact ⟨.nil, .nil, nofun, nofun⟩

end

/-! ## Once around the loop -/

/-- The worker is at the top of its loop, at time `t` at the latest. -/
structure Looping (b : BurnTest) (t : ℚ) : Prop where
  phase : b.phase = .loop
  running : b.running = true
  clock : b.clock ≤ t

/-- Once around the loop at time `t`, where the datagrams `datas` have arrived. -/
def around (datas : List Bytes) (t : ℚ) : List Event :=
  .proceed :: (datas.map fun data => Event.datagram data t "10:01") ++
    [.drained, .send t t "10:00" none, .evict t, .tick t]

section

variable {t t' : ℚ}

theorem onTick_rest (b : BurnTest) (now : ℚ) :
    (b.onTick now).config = b.config ∧ (b.onTick now).nextSend = b.nextSend ∧
      (b.onTick now).running = b.running ∧ (b.onTick now).clock = now := by
  unfold onTick
  dsimp only
  split <;> exact ⟨rfl, rfl, rfl, rfl⟩

theorem onDatagram_rest (b : BurnTest) (data : Bytes) (recvPerf : ℚ) (stamp : String) :
    (b.onDatagram data recvPerf stamp).config = b.config ∧
      (b.onDatagram data recvPerf stamp).nextSend = b.nextSend ∧
      (b.onDatagram data recvPerf stamp).running = b.running := by
  rw [onDatagram]
  rcases handleResponse data recvPerf stamp b.pending b.config.isLinkTest with ⟨_ | row, flags, p⟩ <;>
    exact ⟨rfl, rfl, rfl⟩

/-- The datagrams that have arrived. -/
theorem allows_datagrams (datas : List Bytes) {es : List Event} {b : BurnTest} (hphase : b.phase = .drain)
    (hrun : b.running = true) (hclock : b.clock ≤ t)
    (h : ∀ b', b'.phase = .drain → b'.running = true → b'.clock ≤ t →
      machine.Allows b' es ∧ Looping (machine.exec b' es) t) :
    machine.Allows b ((datas.map fun data => Event.datagram data t "10:01") ++ es) ∧
      Looping (machine.exec b ((datas.map fun data => Event.datagram data t "10:01") ++ es)) t := by
  induction datas generalizing b with
  | nil => exact h b hphase hrun hclock
  | cons data datas ih =>
    obtain ⟨hallow, hloop⟩ := ih (b := b.onDatagram data t "10:01")
      ((onDatagram_phase ..).trans hphase) ((onDatagram_rest ..).2.2.trans hrun)
      (onDatagram_eq b data t "10:01").2.2.1.le
    exact ⟨⟨⟨hphase, hclock⟩, hallow⟩, hloop⟩

theorem step_send_rest (b : BurnTest) (now : ℚ) (stamp : String) :
    (b.step (.send now now stamp none)).phase = .evict ∧
      (b.step (.send now now stamp none)).running = b.running ∧
      (b.step (.send now now stamp none)).clock = now := by
  simp only [step]
  split <;> exact ⟨rfl, rfl, rfl⟩

/-- The loop can go around. -/
theorem Looping.around {b : BurnTest} (h : Looping b t) (hle : t ≤ t') (datas : List Bytes) :
    machine.Allows b (around datas t') ∧ Looping (machine.exec b (around datas t')) t' := by
  have hproceed : machine.step b .proceed = { b with phase := .drain } := if_pos h.running
  have hrest := @allows_datagrams t' datas
    [.drained, .send t' t' "10:00" none, .evict t', .tick t'] (machine.step b .proceed)
    (by rw [hproceed]) (by rw [hproceed]; exact h.running) (by rw [hproceed]; exact h.clock.trans hle) ?_
  · exact ⟨⟨h.phase, hrest.1⟩, hrest.2⟩
  · intro b' hphase hrun hclock
    obtain ⟨hevict, hrun', hnow⟩ := step_send_rest (b'.step .drained) t' "10:00"
    obtain ⟨-, -, hrun'', hclock'⟩ :=
      onTick_rest (((b'.step .drained).step (.send t' t' "10:00" none)).step (.evict t')) t'
    exact ⟨⟨hphase, ⟨rfl, hclock, le_rfl⟩, ⟨hevict, hnow.le⟩, ⟨rfl, le_rfl⟩, trivial⟩,
      rfl, hrun''.trans (hrun'.trans hrun), hclock'.le⟩

end

/-! ## An example -/

/-- A worker at its start. -/
def exampleStart : BurnTest :=
  run ⟨false, 1, "192.168.1.1:5000", "192.168.1.2:4000", id⟩
    { date := 1, month := 1, year := 2026, timeOfDay := 0 } 0 none

end BurnTest

end QccGui
