import QccGui.Gui.FrameLogger

/-!
# Which response a query's row holds

The logger has one pending query, and the first response closes its row, whichever query it answers.

* `FrameLogger.Consumed`: no query waits for a response; responses keep it.
* `FrameLogger.response_row`: the row of a query holds the response to it if and only if no other
  frame came in between, and the file works.
* `FrameLogger.late_reply_takes_row`: a late reply to an earlier query comes in between.
-/

namespace QccGui

open Lib

namespace FrameLogger

/-- A response with a full header, a correct checksum and the number of the query. -/
structure ValidEcho (query raw : Bytes) : Prop where
  length : headerSize ≤ raw.length
  checksumOk : (QccHeaderTx.decode (raw.take headerSize)).checksumOk = true
  messageNumber : messageNumber raw = messageNumber query

/-- The step from `l` to `l'` writes the row of the query, as OK and with the data of the response
`resp`. -/
def WritesAnswer (l l' : FrameLogger) (query : Bytes) (sentAt : String) (resp : Bytes)
    (elapsedUs : ℚ) (stamp : String) : Prop :=
  l'.written = l.written ++ [{
    msgNumber := messageNumber query, txTimestamp := sentAt, rxTimestamp := stamp
    delayUs := delayText elapsedUs, qccCommand := commandName (u8At query 32), result := .ok
    qtrm := qtrmColumns (linkQueriedIndices query) resp, rxRawHex := hexText resp }]

/-- No query waits for a response. -/
def Consumed (l : FrameLogger) : Prop := l.active = false ∨ l.pending = none

/-- The query `raw` waits for its response. -/
def Waits (l : FrameLogger) (raw : Bytes) (stamp : String) : Prop :=
  l.active = true ∧ l.pending = some (.ofFrame raw stamp)

variable {l l' s : FrameLogger} {raw resp query : Bytes} {elapsedUs : ℚ} {stamp stamp' : String}
  {failure failure' : Option String}

theorem writeRow_pending (row : LogRow) (h : l.pending = none) :
    (l.writeRow row failure).pending = none := by
  unfold writeRow
  split
  · cases failure with
    | none => exact h
    | some e => rfl
  · exact h

/-- A frame without a full header leaves only an exception. -/
theorem logRx_short (h : ¬ headerSize ≤ raw.length) (hl : l.active = true) :
    ∃ message, l.logRx raw elapsedUs stamp failure = l.emit (.raised message) := by
  have hlen : (raw.take headerSize).length ≠ headerSize := by
    rw [List.length_take]
    omega
  obtain ⟨e, he⟩ : ∃ e, QccHeaderTx.fromBytes (raw.take headerSize) = .error e := by
    simp only [QccHeaderTx.fromBytes, requireSize, ne_eq, hlen, not_false_eq_true, if_true, bind,
      Except.bind]
    exact ⟨_, rfl⟩
  exact ⟨e.message, by simp only [logRx, hl, if_true, he]⟩

/-- A response consumes the query that waits, whichever query it answers. -/
theorem logRx_consumes (h : headerSize ≤ raw.length) :
    Consumed (l.logRx raw elapsedUs stamp failure) := by
  by_cases hl : l.active = true
  · simp only [logRx, hl, if_true, fromBytes_ok h]
    cases hp : l.pending with
    | none => exact .inr (writeRow_pending _ hp)
    | some p => exact .inr (writeRow_pending _ rfl)
  · rw [logRx, if_neg hl]
    exact .inl (by simpa using hl)

theorem Consumed.logRx (h : Consumed l) : Consumed (l.logRx raw elapsedUs stamp failure) := by
  by_cases hraw : headerSize ≤ raw.length
  · exact logRx_consumes hraw
  · by_cases hl : l.active = true
    · obtain ⟨message, hm⟩ : ∃ message, l.logRx raw elapsedUs stamp failure = l.emit (.raised message) :=
        logRx_short hraw hl
      rw [hm]
      exact h
    · rw [FrameLogger.logRx, if_neg hl]
      exact h

theorem Waits.logRx_short (h : Waits l query stamp') (hraw : ¬ headerSize ≤ raw.length) :
    Waits (l.logRx raw elapsedUs stamp failure) query stamp' := by
  obtain ⟨message, hm⟩ : ∃ message, l.logRx raw elapsedUs stamp failure = l.emit (.raised message) :=
    FrameLogger.logRx_short hraw h.1
  rw [hm]
  exact h

/-- After a query is logged it waits, unless the row of the query before it lost the file. -/
theorem logTx_waits (hl : l.active = true) (hraw : headerSize ≤ raw.length)
    (h : l.pending = none ∨ failure = none) : Waits (l.logTx raw stamp failure) raw stamp := by
  have hactive : (l.flushPending .timeout failure).active = true := by
    unfold flushPending
    cases hp : l.pending with
    | none => exact hl
    | some p =>
      have hf : failure = none := h.resolve_left fun h => nomatch hp.symm.trans h
      simp [hf, writeRow, hl]
  simp only [logTx, hl, if_true, requireSize_ok hraw]
  exact ⟨hactive, rfl⟩

theorem logTx_lost (hl : l.active = true) (hraw : headerSize ≤ raw.length)
    (h : ¬ (l.pending = none ∨ failure = none)) : Consumed (l.logTx raw stamp failure) := by
  obtain ⟨p, hp⟩ := Option.ne_none_iff_exists'.1 fun h' => h (.inl h')
  obtain ⟨e, he⟩ := Option.ne_none_iff_exists'.1 fun h' => h (.inr h')
  simp only [logTx, hl, if_true, requireSize_ok hraw]
  refine .inl ?_
  simp [flushPending, hp, he, writeRow, hl, emit]

/-- With no query waiting, no response is the data of an OK row. -/
theorem Consumed.not_writesAnswer (h : Consumed l) :
    ¬ WritesAnswer l (l.logRx resp elapsedUs stamp failure) query stamp' resp elapsedUs stamp := by
  intro hw
  by_cases hl : l.active = true
  · have hp : l.pending = none := h.resolve_left (by simp [hl])
    by_cases hresp : headerSize ≤ resp.length
    · simp only [WritesAnswer, FrameLogger.logRx, hl, if_true, fromBytes_ok hresp, hp] at hw
      cases failure with
      | none =>
        -- the row that was written says UNSOLICITED
        simp only [logStray, writeRow, hl, if_true, emitStats_written,
          List.append_cancel_left_eq, List.cons.injEq] at hw
        cases congrArg LogRow.result hw.1
      | some e =>
        simp only [logStray, writeRow, hl, if_true, emitStats_written, emit_written] at hw
        simpa using congrArg List.length hw
    · obtain ⟨message, hm⟩ :
          ∃ message, l.logRx resp elapsedUs stamp failure = l.emit (.raised message) :=
        FrameLogger.logRx_short hresp hl
      rw [WritesAnswer, hm] at hw
      simpa using congrArg List.length hw
  · rw [WritesAnswer, FrameLogger.logRx, if_neg hl] at hw
    simpa using congrArg List.length hw

/-- The response to the query that waits. -/
theorem Waits.writesAnswer (h : Waits l query stamp') (hresp : ValidEcho query resp) :
    WritesAnswer l (l.logRx resp elapsedUs stamp failure) query stamp' resp elapsedUs stamp ↔
      failure = none := by
  have hverdict : (PendingQuery.ofFrame query stamp').verdict
      (QccHeaderTx.decode (resp.take headerSize)) = .ok := by
    have hnum := (QccHeaderTx.decode_messageNumber resp).trans hresp.messageNumber
    simp [PendingQuery.verdict, PendingQuery.ofFrame, hresp.checksumOk, hnum]
  simp only [FrameLogger.logRx, h.1, if_true, fromBytes_ok hresp.length, h.2]
  cases failure with
  | none =>
    simp only [WritesAnswer, logAnswer, writeRow, h.1, if_true, iff_true]
    simp only [FrameLogger.emitStats, emit, answerRow, hverdict]
    rfl
  | some e =>
    simp only [WritesAnswer, logAnswer, writeRow, h.1, if_true, reduceCtorEq, iff_false,
      emitStats_written, emit_written]
    intro hw
    simpa using congrArg List.length hw

/-! ## Runs -/

/-- The frame that an event feeds to the logger as a response. -/
def rxFrame : Event → Option Bytes
  | .logRx raw _ _ _ => some raw
  | _ => none

theorem rxFrame_eq_some {e : Event} (h : rxFrame e = some raw) :
    ∃ elapsedUs stamp failure, e = .logRx raw elapsedUs stamp failure := by
  cases e with
  | logRx raw' elapsedUs stamp failure =>
    cases h
    exact ⟨elapsedUs, stamp, failure, rfl⟩
  | _ => exact nomatch h

/-- Some responses. -/
def Responses (tr : List (FrameLogger × Event)) : Prop :=
  ∀ x ∈ tr, ∃ raw, rxFrame x.2 = some raw

/-- None of the frames has a full header. -/
def AllShort (tr : List (FrameLogger × Event)) : Prop :=
  ∀ x ∈ tr, ∀ raw, rxFrame x.2 = some raw → raw.length < headerSize

variable {tr pre mid post : List (FrameLogger × Event)}

theorem Consumed.run (h : Consumed l) (hr : machine.Run l tr l') (htr : Responses tr) :
    Consumed l' := by
  refine hr.invariant (C := fun _ e => ∃ raw, rxFrame e = some raw) h ?_ htr
  rintro l e hl - ⟨raw, he⟩
  obtain ⟨elapsedUs, stamp, failure, rfl⟩ := rxFrame_eq_some he
  exact hl.logRx

theorem Waits.run (h : Waits l query stamp') (hr : machine.Run l tr l') (htr : Responses tr)
    (hshort : AllShort tr) : Waits l' query stamp' := by
  refine hr.invariant (I := fun l => Waits l query stamp')
    (C := fun _ e => ∃ raw, rxFrame e = some raw ∧ raw.length < headerSize) h ?_ fun x hx => ?_
  · rintro l e hl - ⟨raw, he, hraw⟩
    obtain ⟨elapsedUs, stamp, failure, rfl⟩ := rxFrame_eq_some he
    exact hl.logRx_short (by omega)
  · obtain ⟨raw, he⟩ := htr x hx
    exact ⟨raw, he, hshort x hx raw he⟩

/-- One frame with a full header consumes the query, and the responses behind it change nothing. -/
theorem consumed_of_run (hr : machine.Run l tr l') (htr : Responses tr) (hshort : ¬ AllShort tr) :
    Consumed l' := by
  simp only [AllShort, not_forall, Nat.not_lt] at hshort
  obtain ⟨x, hx, raw, he, hraw⟩ := hshort
  obtain ⟨tr₁, tr₂, rfl⟩ := List.append_of_mem hx
  obtain ⟨-, -, hrest⟩ := hr.middle
  obtain ⟨elapsedUs, stamp, failure, hx₂⟩ := rxFrame_eq_some he
  have hpost : Consumed (machine.post x) := by
    rw [Machine.post, hx₂]
    exact logRx_consumes hraw
  exact hpost.run hrest fun y hy => htr y (by simp [hy])

/-- In any run, the row of a query is written as OK with the data of a valid response to it, which
comes before the next query, the timer and the stop, if and only if no other frame with a full
header came before that response, and the two rows that may have to be written reach the file. -/
theorem response_row {failure failure' : Option String}
    (hr : machine.Run {} (pre ++ (l, .logTx query stamp' failure) ::
      (mid ++ (l', .logRx resp elapsedUs stamp failure') :: post)) s)
    (hl : l.active = true) (hquery : headerSize ≤ query.length) (hmid : Responses mid)
    (hresp : ValidEcho query resp) :
    WritesAnswer l' (l'.logRx resp elapsedUs stamp failure') query stamp' resp elapsedUs stamp ↔
      AllShort mid ∧ (l.pending = none ∨ failure = none) ∧ failure' = none := by
  obtain ⟨-, -, hafter⟩ := hr.middle
  obtain ⟨hrun, -, -⟩ := hafter.middle
  have hrun : machine.Run (l.logTx query stamp' failure) mid l' := hrun
  by_cases hfile : l.pending = none ∨ failure = none
  · by_cases hshort : AllShort mid
    · have hwaits : Waits (l.logTx query stamp' failure) query stamp' :=
        logTx_waits hl hquery hfile
      have hw := hwaits.run hrun hmid hshort
      rw [hw.writesAnswer hresp]
      simp [hshort, hfile]
    · have hc := consumed_of_run hrun hmid hshort
      simp [hc.not_writesAnswer, hshort]
  · have hlost : Consumed (l.logTx query stamp' failure) := logTx_lost hl hquery hfile
    have hc := hlost.run hrun hmid
    simp [hc.not_writesAnswer, hfile]

/-- A header with a message number and its checksum. -/
def numberedHeader (n : Nat) : Bytes :=
  let body := zeros 6 ++ le32 n ++ zeros 79
  body ++ [crc8 body]

theorem numberedHeader_length (n : Nat) : (numberedHeader n).length = headerSize := by
  simp [numberedHeader, headerSize]

theorem validEcho_numberedHeader (n : Nat) : ValidEcho (numberedHeader n) (numberedHeader n) where
  length := (numberedHeader_length n).ge
  checksumOk := by
    rw [← List.append_nil (numberedHeader n), numberedHeader, QccHeaderTx.decode_checksumOk (by simp)]
    simp
  messageNumber := rfl

/-- The logger after a start, and after a query with the number 2. -/
def started : FrameLogger := (({} : FrameLogger).start "log.csv" none none).1

def asked : FrameLogger := started.logTx (numberedHeader 2) "10:00" none

theorem started_active : started.active = true := by
  simp [started, start, not_closeRaises]

/-- The response comes next. -/
theorem response_row_next : ∃ s,
    machine.Run {} [({}, .start "log.csv" none none),
      (started, .logTx (numberedHeader 2) "10:00" none),
      (asked, .logRx (numberedHeader 2) 250 "10:01" none)] s ∧
    WritesAnswer asked (asked.logRx (numberedHeader 2) 250 "10:01" none) (numberedHeader 2) "10:00"
      (numberedHeader 2) 250 "10:01" := by
  have hallow : machine.Allows {} [.start "log.csv" none none,
      .logTx (numberedHeader 2) "10:00" none, .logRx (numberedHeader 2) 250 "10:01" none] :=
    allows (by simp) _
  have hr : machine.Run {} ([(({} : FrameLogger), .start "log.csv" none none)] ++
      (started, .logTx (numberedHeader 2) "10:00" none) :: ([] ++
        (asked, .logRx (numberedHeader 2) 250 "10:01" none) :: [])) _ := hallow.run
  refine ⟨_, hr, (response_row hr started_active (numberedHeader_length 2).ge ?_
    (validEcho_numberedHeader 2)).2 ⟨?_, .inr rfl, rfl⟩⟩
  · exact fun x hx => nomatch hx
  · exact fun x hx => nomatch hx

/-- The reply to the query before comes first, and takes the row. -/
theorem late_reply_takes_row : ∃ l' s,
    machine.Run {} [({}, .start "log.csv" none none),
      (started, .logTx (numberedHeader 2) "10:00" none),
      (asked, .logRx (numberedHeader 1) 250 "10:01" none),
      (l', .logRx (numberedHeader 2) 300 "10:02" none)] s ∧
    started.active = true ∧ ValidEcho (numberedHeader 2) (numberedHeader 2) ∧
    ¬ WritesAnswer l' (l'.logRx (numberedHeader 2) 300 "10:02" none) (numberedHeader 2) "10:00"
      (numberedHeader 2) 300 "10:02" := by
  have hallow : machine.Allows {} [.start "log.csv" none none,
      .logTx (numberedHeader 2) "10:00" none, .logRx (numberedHeader 1) 250 "10:01" none,
      .logRx (numberedHeader 2) 300 "10:02" none] := allows (by simp) _
  have hlate : Consumed (asked.logRx (numberedHeader 1) 250 "10:01" none) :=
    logRx_consumes (numberedHeader_length 1).ge
  exact ⟨_, _, hallow.run, started_active, validEcho_numberedHeader 2, hlate.not_writesAnswer⟩

end FrameLogger

end QccGui
