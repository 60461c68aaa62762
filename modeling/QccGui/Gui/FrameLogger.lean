import QccGui.Lib.Machine
import QccGui.Gui.LogAnalysis

/-!
# The frame logger

The logger of the interactive link: it pairs each response with the one query that may be pending,
and writes a row for every query and every stray response.

* `FrameLogger`, `FrameLogger.machine`: the logger between two events, and one event.
* `FrameLogger.Ledger`: the accounts of a run, which every step keeps while writes succeed.
* `FrameLogger.rows_account`: after a run, the rows account for every frame, and the analysis of the
  file recovers the logger's counters.
-/

namespace QccGui

open Lib

/-! ## Pending queries -/

/-- The QTRMs whose slot in a sent frame is the Link query. -/
def linkQueriedIndices (raw : Bytes) : List Qtrm :=
  if raw.length ≠ totalPacketSize then []
  else (List.finRange 96).filter fun i => responseSlot raw i = buildLinkQuerySlot

/-- The marks of a response, if its query was a Link Test and it is a full frame. -/
def qtrmColumns (queried : List Qtrm) (rxRaw : Bytes) : Option QtrmMarks :=
  if queried = [] ∨ rxRaw.length ≠ totalPacketSize then none
  else some ⟨queried, fun i => isLinkResponseOk (responseSlot rxRaw i)⟩

/-- A query that waits for its response. -/
structure PendingQuery where
  msgNumber : Nat
  txTimestamp : String
  qccCommand : String
  linkQueried : List Qtrm
  deriving DecidableEq, Repr

namespace PendingQuery

def ofFrame (raw : Bytes) (stamp : String) : PendingQuery where
  msgNumber := messageNumber raw
  txTimestamp := stamp
  qccCommand := commandName (u8At raw 32)
  linkQueried := linkQueriedIndices raw

/-- The row of a query without a response. -/
def row (p : PendingQuery) (result : LogResult) : LogRow where
  msgNumber := p.msgNumber
  txTimestamp := p.txTimestamp
  qccCommand := p.qccCommand
  result := result

/-- How a response answers the query. -/
def verdict (p : PendingQuery) (header : QccHeaderTx) : LogResult :=
  if !header.checksumOk then .crcFail
  else if header.messageNumber ≠ p.msgNumber then .msgNumMismatch
  else .ok

end PendingQuery

/-! ## The logger -/

inductive LogSignal
  | statsChanged (rows ok missing errors qtrmFails : Nat)
  | error (message : String)
  /-- An exception that leaves the logger. -/
  | raised (message : String)
  deriving DecidableEq, Repr

/-- The logger between two events. `written` are the rows of the file that was opened last. -/
structure FrameLogger where
  active : Bool := false
  path : String := ""
  written : List LogRow := []
  pending : Option PendingQuery := none
  unflushed : Nat := 0
  flushTimer : Bool := false
  rows : Nat := 0
  ok : Nat := 0
  missing : Nat := 0
  errors : Nat := 0
  qtrmFails : Nat := 0
  signals : List LogSignal := []

def flushEveryNRows : Nat := 50

namespace FrameLogger

def emit (l : FrameLogger) (signal : LogSignal) : FrameLogger :=
  { l with signals := l.signals ++ [signal] }

def emitStats (l : FrameLogger) : FrameLogger :=
  l.emit (.statsChanged l.rows l.ok l.missing l.errors l.qtrmFails)

@[simp] theorem emit_written (l : FrameLogger) (signal : LogSignal) :
    (l.emit signal).written = l.written := rfl

@[simp] theorem emitStats_written (l : FrameLogger) : l.emitStats.written = l.written := rfl

/-- `failure` is the error that the write, or the flush behind it, meets. -/
def writeRow (l : FrameLogger) (row : LogRow) (failure : Option String) : FrameLogger :=
  if l.active then
    match failure with
    | some e =>
      { l with active := false, flushTimer := false, pending := none }.emit
        (.error s!"Data logging stopped - could not write to {l.path}: {e}")
    | none =>
      { l with
        written := l.written ++ [row]
        unflushed := if l.unflushed + 1 ≥ flushEveryNRows then 0 else l.unflushed + 1
        rows := l.rows + 1 }
  else l

/-- Writes the row of the pending query, if there is one. -/
def flushPending (l : FrameLogger) (result : LogResult) (failure : Option String) : FrameLogger :=
  match l.pending with
  | none => l
  | some p =>
    { l with pending := none, flushTimer := false, missing := l.missing + 1 }.writeRow
      (p.row result) failure

/-- The write of the last row lost the file, so that closing it raises an exception. -/
def CloseRaises (l : FrameLogger) (failure : Option String) : Prop :=
  l.active ∧ (l.flushPending .timeout failure).active = false

instance (l : FrameLogger) (failure : Option String) : Decidable (l.CloseRaises failure) :=
  inferInstanceAs (Decidable (_ ∧ _))

def stop (l : FrameLogger) (failure : Option String) : FrameLogger :=
  if l.CloseRaises failure then
    { l.flushPending .timeout failure with flushTimer := false }.emit
      (.raised "'NoneType' object has no attribute 'close'")
  else if l.active then
    { l.flushPending .timeout failure with flushTimer := false, active := false }
  else l

/-- `start`, with what it returns: nothing, or why the file could not be opened. -/
def start (l : FrameLogger) (path : String) (openError failure : Option String) :
    FrameLogger × Option String :=
  if l.CloseRaises failure then (l.stop failure, none)
  else match openError with
  | some e => (l.stop failure, some e)
  | none =>
    ({ l.stop failure with
        active := true, path, written := [], pending := none, unflushed := 0
        rows := 0, ok := 0, missing := 0, errors := 0, qtrmFails := 0 }, none)

def logTx (l : FrameLogger) (raw : Bytes) (stamp : String) (failure : Option String) :
    FrameLogger :=
  if l.active then
    let l := l.flushPending .timeout failure
    match requireSize (raw.take headerSize) headerSize "command header" with
    | .error e => l.emit (.raised e.message)
    | .ok () => { l with pending := some (.ofFrame raw stamp), flushTimer := true }
  else l

/-- A response with nothing pending. -/
def strayRow (raw : Bytes) (header : QccHeaderTx) (stamp delay : String) : LogRow where
  msgNumber := header.messageNumber
  rxTimestamp := stamp
  delayUs := delay
  qccCommand := commandName header.qccCommand
  result := .unsolicited
  rxRawHex := hexText raw

/-- A response with the query `p` pending. -/
def answerRow (p : PendingQuery) (raw : Bytes) (header : QccHeaderTx) (stamp delay : String) :
    LogRow where
  msgNumber := p.msgNumber
  txTimestamp := p.txTimestamp
  rxTimestamp := stamp
  delayUs := delay
  qccCommand := p.qccCommand
  result := p.verdict header
  qtrm := qtrmColumns p.linkQueried raw
  rxRawHex := hexText raw

/-- The text of a delay; a negative one is not known. -/
def delayText (elapsedUs : ℚ) : String := if elapsedUs ≥ 0 then fixed1 elapsedUs else ""

def logStray (l : FrameLogger) (row : LogRow) (failure : Option String) : FrameLogger :=
  let l := l.writeRow row failure
  { l with errors := l.errors + 1 }.emitStats

def logAnswer (l : FrameLogger) (row : LogRow) (failure : Option String) : FrameLogger :=
  ({ l with
      pending := none, flushTimer := false
      ok := if row.result = LogResult.ok then l.ok + 1 else l.ok
      errors := if row.result = LogResult.ok then l.errors else l.errors + 1
      qtrmFails := l.qtrmFails + row.notOk.length }.writeRow row failure).emitStats

def logRx (l : FrameLogger) (raw : Bytes) (elapsedUs : ℚ) (stamp : String)
    (failure : Option String) : FrameLogger :=
  if l.active then
    match QccHeaderTx.fromBytes (raw.take headerSize) with
    | .error e => l.emit (.raised e.message)
    | .ok header =>
      match l.pending with
      | none => l.logStray (strayRow raw header stamp (delayText elapsedUs)) failure
      | some p => l.logAnswer (answerRow p raw header stamp (delayText elapsedUs)) failure
  else l

/-- The flush timer runs out. -/
def onPendingExpired (l : FrameLogger) (failure : Option String) : FrameLogger :=
  let l := { l with flushTimer := false }
  if l.active ∧ l.pending.isSome then (l.flushPending .timeout failure).emitStats else l

/-- What reaches the logger, with what the clock says and how the file behaves. -/
inductive Event
  | start (path : String) (openError failure : Option String)
  | stop (failure : Option String)
  | logTx (raw : Bytes) (stamp : String) (failure : Option String)
  | logRx (raw : Bytes) (elapsedUs : ℚ) (stamp : String) (failure : Option String)
  | expired (failure : Option String)
  deriving DecidableEq

def step (l : FrameLogger) : Event → FrameLogger
  | .start path openError failure => (l.start path openError failure).1
  | .stop failure => l.stop failure
  | .logTx raw stamp failure => l.logTx raw stamp failure
  | .logRx raw elapsedUs stamp failure => l.logRx raw elapsedUs stamp failure
  | .expired failure => l.onPendingExpired failure

def machine : Machine FrameLogger Event where
  enabled l e := (∃ failure, e = .expired failure) → l.flushTimer
  step := step

/-! ## The accounts of a run -/

/-- The row of the query that was sent as `x`, a frame and its time stamp. -/
structure RowOf (x : Bytes × String) (r : LogRow) : Prop where
  msgNumber : r.msgNumber = messageNumber x.1
  txTimestamp : r.txTimestamp = x.2
  qccCommand : r.qccCommand = commandName (u8At x.1 32)
  queried : ∀ m, r.qtrm = some m → m.queried = linkQueriedIndices x.1

/-- An event of a run between the start and the stop, with full headers and a working file. -/
inductive Fed : Event → Prop
  | logTx {raw : Bytes} {stamp : String} (h : headerSize ≤ raw.length) : Fed (.logTx raw stamp none)
  | logRx {raw : Bytes} {elapsedUs : ℚ} {stamp : String} (h : headerSize ≤ raw.length) :
      Fed (.logRx raw elapsedUs stamp none)
  | expired : Fed (.expired none)

/-- The query that a step logs. -/
def sentFrame (x : FrameLogger × Event) : Option (Bytes × String) :=
  match x.2 with
  | .logTx raw stamp _ => some (raw, stamp)
  | _ => none

/-- The response that a step logs with nothing pending. -/
def strayFrame (x : FrameLogger × Event) : Option Bytes :=
  match x.2 with
  | .logRx raw _ _ _ => if x.1.pending = none then some raw else none
  | _ => none

/-- The accounts of a logger that logged the queries `sent` and the stray responses `strays`. -/
structure Ledger (sent : List (Bytes × String)) (strays : List Bytes) (l : FrameLogger) :
    Prop where
  active : l.active = true
  rows : l.rows = l.written.length
  ok : l.ok = l.written.countP fun r => r.result = .ok
  missing : l.missing = l.written.countP fun r => r.result = .timeout
  errors : l.errors = (l.written.countP fun r => r.result = .crcFail) +
    (l.written.countP fun r => r.result = .msgNumMismatch) +
    l.written.countP fun r => r.result = .unsolicited
  qtrmFails : l.qtrmFails = ((l.written.filter LogRow.isQuery).map fun r => r.notOk.length).sum
  /-- All queries but the pending one have their rows. -/
  queries : ∃ closed pending, sent = closed ++ pending ∧
    l.pending.toList = pending.map (fun x => .ofFrame x.1 x.2) ∧
    List.Forall₂ RowOf closed (l.written.filter LogRow.isQuery)
  strays : List.Forall₂ StrayRowOf strays (l.written.filter fun r => !r.isQuery)

section

variable {sent : List (Bytes × String)} {strays : List Bytes} {l : FrameLogger} {raw : Bytes}
  {stamp : String}

/-- The frame of the pending query. -/
theorem exists_pending {p : PendingQuery} {pending : List (Bytes × String)}
    (hp : l.pending = some p)
    (hpend : l.pending.toList = pending.map (fun x => .ofFrame x.1 x.2)) :
    ∃ x, pending = [x] ∧ PendingQuery.ofFrame x.1 x.2 = p := by
  rw [hp, Option.toList_some] at hpend
  obtain ⟨x, hx, h⟩ := List.map_eq_singleton_iff.1 hpend.symm
  exact ⟨x, hx, h⟩

theorem Ledger.emitStats (h : Ledger sent strays l) : Ledger sent strays l.emitStats :=
  ⟨h.active, h.rows, h.ok, h.missing, h.errors, h.qtrmFails, h.queries, h.strays⟩

/-- Writing the row of the pending query as a timeout. -/
theorem Ledger.flushPending (h : Ledger sent strays l) :
    Ledger sent strays (l.flushPending .timeout none) ∧
      (l.flushPending .timeout none).pending = none := by
  obtain ⟨closed, pending, hsent, hpend, hrows⟩ := h.queries
  unfold FrameLogger.flushPending
  cases hp : l.pending with
  | none => exact ⟨h, hp⟩
  | some p =>
    obtain ⟨x, rfl, hx⟩ := exists_pending hp hpend
    have hrow : RowOf x (p.row .timeout) := by
      subst hx
      exact ⟨rfl, rfl, rfl, fun m hm => nomatch hm⟩
    simp only [writeRow, h.active, if_true]
    refine ⟨⟨rfl, ?_, ?_, ?_, ?_, ?_, ⟨sent, [], (List.append_nil _).symm, rfl, ?_⟩, ?_⟩, trivial⟩
    · simp [h.rows]
    · simp [h.ok, PendingQuery.row]
    · simp [h.missing, PendingQuery.row]
    · simp [h.errors, PendingQuery.row]
    · simp [h.qtrmFails, PendingQuery.row, LogRow.notOk, LogRow.isQuery]
    · have hfilter : (l.written ++ [p.row .timeout]).filter LogRow.isQuery =
          l.written.filter LogRow.isQuery ++ [p.row .timeout] := by
        simp [LogRow.isQuery, PendingQuery.row]
      rw [hfilter, hsent]
      exact List.rel_append hrows (.cons hrow .nil)
    · simpa [LogRow.isQuery, PendingQuery.row] using h.strays

theorem requireSize_ok {raw : Bytes} {n : Nat} {what : String} (h : n ≤ raw.length) :
    requireSize (raw.take n) n what = .ok () := by
  simp [requireSize, h]

/-- A query is logged. -/
theorem Ledger.logTx (h : Ledger sent strays l) (hraw : headerSize ≤ raw.length) :
    Ledger (sent ++ [(raw, stamp)]) strays (l.logTx raw stamp none) := by
  obtain ⟨hl, hnone⟩ := h.flushPending
  obtain ⟨closed, pending, hsent, hpend, hrows⟩ := hl.queries
  have hempty : pending = [] := by simpa [hnone] using hpend
  subst hempty
  simp only [FrameLogger.logTx, h.active, if_true, requireSize_ok hraw]
  exact ⟨hl.active, hl.rows, hl.ok, hl.missing, hl.errors, hl.qtrmFails,
    ⟨closed, [(raw, stamp)], by rw [hsent, List.append_nil], rfl, hrows⟩, hl.strays⟩

theorem fromBytes_ok (h : headerSize ≤ raw.length) :
    QccHeaderTx.fromBytes (raw.take headerSize) = .ok (.decode (raw.take headerSize)) := by
  simp [QccHeaderTx.fromBytes, requireSize_ok h, bind, Except.bind, pure, Except.pure]

/-- A response with nothing pending is logged. -/
theorem Ledger.logStray (h : Ledger sent strays l) {header : QccHeaderTx} {delay : String}
    (hnum : header.messageNumber = messageNumber raw) :
    Ledger sent (strays ++ [raw]) (l.logStray (strayRow raw header stamp delay) none) := by
  have hrow : StrayRowOf raw (strayRow raw header stamp delay) := ⟨hnum, rfl, rfl⟩
  simp only [FrameLogger.logStray, writeRow, h.active, if_true]
  refine Ledger.emitStats ⟨rfl, ?_, ?_, ?_, ?_, ?_, ?_, ?_⟩
  · simp [h.rows]
  · simp [h.ok, strayRow]
  · simp [h.missing, strayRow]
  · simp [h.errors, strayRow]
    omega
  · simp [h.qtrmFails, strayRow, LogRow.isQuery]
  · simpa [LogRow.isQuery, strayRow] using h.queries
  · have hfilter : (l.written ++ [strayRow raw header stamp delay]).filter (fun r => !r.isQuery) =
        l.written.filter (fun r => !r.isQuery) ++ [strayRow raw header stamp delay] := by
      simp [LogRow.isQuery, strayRow]
    rw [hfilter]
    exact List.rel_append h.strays (.cons hrow .nil)

theorem verdict_cases (p : PendingQuery) (header : QccHeaderTx) :
    p.verdict header = .crcFail ∨ p.verdict header = .msgNumMismatch ∨ p.verdict header = .ok := by
  unfold PendingQuery.verdict
  split
  · exact .inl rfl
  · split
    · exact .inr (.inl rfl)
    · exact .inr (.inr rfl)

/-- A response with a query pending is logged. -/
theorem Ledger.logAnswer (h : Ledger sent strays l) {p : PendingQuery} (hp : l.pending = some p)
    {header : QccHeaderTx} {delay : String} :
    Ledger sent strays (l.logAnswer (answerRow p raw header stamp delay) none) := by
  obtain ⟨closed, pending, hsent, hpend, hrows⟩ := h.queries
  obtain ⟨x, rfl, hx⟩ := exists_pending hp hpend
  have hrow : RowOf x (answerRow p raw header stamp delay) := by
    subst hx
    refine ⟨rfl, rfl, rfl, fun m hm => ?_⟩
    simp only [answerRow, qtrmColumns] at hm
    split at hm
    · exact nomatch hm
    · exact Option.some.inj hm ▸ rfl
  have hresult : (answerRow p raw header stamp delay).result = p.verdict header := rfl
  generalize answerRow p raw header stamp delay = row at hrow hresult
  have hcases := verdict_cases p header
  rw [← hresult] at hcases
  have hquery : row.isQuery = true := by
    rcases hcases with hr | hr | hr <;> simp [LogRow.isQuery, hr]
  have hfilter : (l.written ++ [row]).filter LogRow.isQuery =
      l.written.filter LogRow.isQuery ++ [row] := by
    simp [hquery]
  simp only [FrameLogger.logAnswer, writeRow, h.active, if_true]
  refine Ledger.emitStats ⟨rfl, ?_, ?_, ?_, ?_, ?_,
    ⟨sent, [], (List.append_nil _).symm, rfl, ?_⟩, ?_⟩
  · simp [h.rows]
  · rcases hcases with hr | hr | hr <;> simp [h.ok, hr]
  · rcases hcases with hr | hr | hr <;> simp [h.missing, hr]
  · rcases hcases with hr | hr | hr <;> simp [h.errors, hr] <;> omega
  · rw [hfilter, h.qtrmFails]
    simp
  · rw [hfilter, hsent]
    exact List.rel_append hrows (.cons hrow .nil)
  · simpa [hquery] using h.strays

/-- One step of a run keeps the accounts. -/
theorem Ledger.step {e : Event} (h : Ledger sent strays l) (he : Fed e) :
    Ledger (sent ++ (sentFrame (l, e)).toList) (strays ++ (strayFrame (l, e)).toList) (l.step e) := by
  cases he with
  | logTx hraw => simpa [sentFrame, strayFrame, FrameLogger.step] using h.logTx hraw
  | @logRx raw elapsedUs stamp hraw =>
    simp only [sentFrame, strayFrame, FrameLogger.step, logRx, h.active, if_true, fromBytes_ok hraw]
    cases hp : l.pending with
    | none => simpa using h.logStray (QccHeaderTx.decode_messageNumber raw)
    | some p => simpa using h.logAnswer hp
  | expired =>
    have h' : Ledger sent strays { l with flushTimer := false } :=
      ⟨h.active, h.rows, h.ok, h.missing, h.errors, h.qtrmFails, h.queries, h.strays⟩
    simp only [sentFrame, strayFrame, FrameLogger.step, onPendingExpired, Option.toList_none,
      List.append_nil]
    split
    · exact h'.flushPending.1.emitStats
    · exact h'

end

theorem not_closeRaises (l : FrameLogger) : ¬ l.CloseRaises none := by
  rintro ⟨hl, hfl⟩
  revert hfl
  unfold flushPending
  cases l.pending <;> simp [writeRow, hl]

/-- The accounts after any run from a start. -/
theorem ledger_of_run {l s : FrameLogger} {path : String} {tr : List (FrameLogger × Event)}
    (hr : machine.Run (l.start path none none).1 tr s) (hf : ∀ x ∈ tr, Fed x.2) :
    Ledger (tr.filterMap sentFrame) (tr.filterMap strayFrame) s := by
  refine hr.history (C := fun _ e => Fed e)
    (P := fun tr s => Ledger (tr.filterMap sentFrame) (tr.filterMap strayFrame) s) ?_ ?_ hf
  · simp only [start, not_closeRaises, if_false]
    exact ⟨rfl, rfl, rfl, rfl, rfl, rfl, ⟨[], [], rfl, rfl, .nil⟩, .nil⟩
  · intro tr s e _ h _ he
    rw [filterMap_snoc, filterMap_snoc]
    exact h.step he

/-- The analysis finds the counters of the logger in its file. -/
structure Recovered (l : FrameLogger) (sum : Summary) : Prop where
  ok : sum.count .ok = l.ok
  missing : sum.count .timeout = l.missing
  errors : sum.count .crcFail + sum.count .msgNumMismatch + sum.count .unsolicited = l.errors
  qtrmFails : Dict.total sum.fails = l.qtrmFails

/-- If a row has marks, they count each QTRM that its query addressed once. -/
def MarksOf (x : Bytes × String) (r : Record) : Prop :=
  isLinkRow r = true → ∃ okCount notOk, parseInt (r.text "qtrm_ok_count") = some okCount ∧
    notOkIndices r = some notOk ∧ okCount + notOk.length = (linkQueriedIndices x.1).length

theorem RowOf.marks {x : Bytes × String} {r : LogRow} (h : RowOf x r) : MarksOf x r.record := by
  intro hlink
  rw [LogRow.isLinkRow_record, Option.isSome_iff_exists] at hlink
  obtain ⟨m, hm⟩ := hlink
  refine ⟨m.okCount, m.notOk.map Fin.val, ?_, ?_, ?_⟩
  · rw [LogRow.record_okCount, LogRow.okCountCell, hm]
    exact parseInt_repr m.okCount
  · rw [LogRow.notOkIndices_record, LogRow.notOk, hm]
    rfl
  · rw [List.length_map, m.okCount_add, h.queried m hm]

/-- Every row has one of the five results. -/
theorem length_eq_counts (rows : List LogRow) :
    rows.length = (rows.countP fun r => r.result = .ok) + (rows.countP fun r => r.result = .timeout) +
      ((rows.countP fun r => r.result = .crcFail) +
        (rows.countP fun r => r.result = .msgNumMismatch) +
        rows.countP fun r => r.result = .unsolicited) := by
  induction rows with
  | nil => rfl
  | cons r rows ih =>
    simp only [List.length_cons, List.countP_cons]
    cases r.result <;> simp <;> omega

/-- The rows after the stop of a run account for all frames of the run, in order: one row for each
query, and one for each response that came with nothing pending. The counters are those of the rows,
and the analysis of the file finds them again. -/
theorem rows_account {l s : FrameLogger} {path : String} {tr : List (FrameLogger × Event)}
    (hr : machine.Run (l.start path none none).1 tr s) (hf : ∀ x ∈ tr, Fed x.2) :
    List.Forall₂ RowOf (tr.filterMap sentFrame) ((s.stop none).written.filter LogRow.isQuery) ∧
      List.Forall₂ StrayRowOf (tr.filterMap strayFrame)
        ((s.stop none).written.filter fun r => !r.isQuery) ∧
      (s.stop none).rows = (s.stop none).written.length ∧
      (s.stop none).rows = (s.stop none).ok + (s.stop none).missing + (s.stop none).errors ∧
      ∃ sum, summarize (loadRows (fileText (s.stop none).written)) = some sum ∧
        sum.queries.length = (tr.filterMap sentFrame).length ∧
        Recovered (s.stop none) sum ∧
        List.Forall₂ MarksOf (tr.filterMap sentFrame) sum.queries := by
  have hs := ledger_of_run hr hf
  obtain ⟨h, hnone⟩ := hs.flushPending
  have hstop : s.stop none =
      { s.flushPending .timeout none with flushTimer := false, active := false } := by
    simp [stop, not_closeRaises, hs.active]
  rw [hstop]
  generalize s.flushPending .timeout none = t at h hnone
  obtain ⟨closed, pending, hsent, hpend, hrows⟩ := h.queries
  have hempty : pending = [] := by simpa [hnone] using hpend
  obtain rfl : tr.filterMap sentFrame = closed := by rw [hsent, hempty, List.append_nil]
  refine ⟨hrows, h.strays, h.rows, ?_, summaryOf t.written, summarize_fileText _, ?_, ?_, ?_⟩
  · have := length_eq_counts t.written
    have := h.rows
    have := h.ok
    have := h.missing
    have := h.errors
    dsimp only
    omega
  · rw [summaryOf_queries, List.countP_eq_length_filter]
    exact hrows.length_eq.symm
  · refine ⟨?_, ?_, ?_, ?_⟩
    · rw [summaryOf_count, h.ok]
    · rw [summaryOf_count, h.missing]
    · rw [summaryOf_count, summaryOf_count, summaryOf_count, h.errors]
    · rw [summaryOf_fails, h.qtrmFails]
  · exact List.forall₂_map_right_iff.2 (hrows.imp fun _ _ h => h.marks)

/-- Any events but the timer's can follow each other. -/
theorem allows {es : List Event} (h : ∀ e ∈ es, ∀ failure, e ≠ .expired failure)
    (l : FrameLogger) : machine.Allows l es := by
  induction es generalizing l with
  | nil => trivial
  | cons e es ih =>
    refine ⟨?_, ih (fun e he => h e (List.mem_cons_of_mem _ he)) _⟩
    rintro ⟨failure, rfl⟩
    exact absurd rfl (h _ (List.mem_cons_self ..) failure)

/-- A Link Test with its response, a query that times out, a stray response, and a query that is pending
at the stop. -/
def loggedFrames : List Event :=
  [.logTx (buildLinkTestFrame (zeros headerSize)) "10:00" none,
    .logRx (zeros totalPacketSize) 250 "10:01" none, .logTx (zeros headerSize) "10:02" none,
    .expired none, .logRx (zeros headerSize) (-1) "10:03" none, .logTx (zeros headerSize) "10:04" none]

theorem loggedFrames_allowed :
    machine.Allows (({} : FrameLogger).start "log.csv" none none).1 loggedFrames := by
  obtain ⟨htest, hreply, hquery, -⟩ := @allows (loggedFrames.take 3) (by simp [loggedFrames])
    (({} : FrameLogger).start "log.csv" none none).1
  exact ⟨htest, hreply, hquery, fun _ => rfl, allows (by simp) _⟩

set_option maxRecDepth 4000 in
theorem loggedFrames_results :
    ((machine.exec (({} : FrameLogger).start "log.csv" none none).1 loggedFrames).stop
      none).written.map (fun r => (r.result, r.qtrm.isSome)) =
        [(.ok, true), (.timeout, false), (.unsolicited, false), (.timeout, false)] := by
  decide +kernel

theorem rows_account_link_test : ∃ tr s,
    machine.Run (({} : FrameLogger).start "log.csv" none none).1 tr s ∧
    Machine.events tr = loggedFrames ∧
    (s.stop none).written.map (fun r => (r.result, r.qtrm.isSome)) =
      [(.ok, true), (.timeout, false), (.unsolicited, false), (.timeout, false)] ∧
    List.Forall₂ RowOf (tr.filterMap sentFrame) ((s.stop none).written.filter LogRow.isQuery) ∧
    List.Forall₂ StrayRowOf (tr.filterMap strayFrame)
      ((s.stop none).written.filter fun r => !r.isQuery) ∧
    (s.stop none).rows = (s.stop none).written.length ∧
    (s.stop none).rows = (s.stop none).ok + (s.stop none).missing + (s.stop none).errors ∧
    ∃ sum, summarize (loadRows (fileText (s.stop none).written)) = some sum ∧
      sum.queries.length = (tr.filterMap sentFrame).length ∧
      Recovered (s.stop none) sum ∧
      List.Forall₂ MarksOf (tr.filterMap sentFrame) sum.queries := by
  have hr := loggedFrames_allowed.run
  refine ⟨_, _, hr, Machine.events_trace, loggedFrames_results, rows_account hr fun x hx => ?_⟩
  have hmem : x.2 ∈ Machine.events (machine.trace _ _) := List.mem_map_of_mem hx
  rw [Machine.events_trace] at hmem
  simp only [loggedFrames, List.mem_cons, List.not_mem_nil, or_false] at hmem
  rcases hmem with h | h | h | h | h | h <;> rw [h]
  · exact .logTx (by simp [buildLinkTestFrame, targetFrame, slotFrame])
  · exact .logRx (by rw [zeros_length]; decide)
  · exact .logTx (by decide)
  · exact .expired
  · exact .logRx (by decide)
  · exact .logTx (by decide)

end FrameLogger

end QccGui
