import QccGui.Gui.BurnTest

/-!
# The accounts of a burn test

* `BurnTest.Accounts`: what the rows, the counters and the table of outstanding frames say about the
  frames sent so far; every statement keeps it (`BurnTest.Accounts.step`).
* `BurnTest.rows_conserved`: after the stop every frame has one row, and so has every stray response.
-/

namespace QccGui

open Lib

namespace BurnTest

/-- The rows of all batches that were emitted. -/
def emitted (signals : List BurnSignal) : List LogRow :=
  signals.flatMap fun
    | .rowsReady rows => rows
    | _ => []

/-- All rows so far, those of the next batch too. -/
def logged (b : BurnTest) : List LogRow := emitted b.signals ++ b.rows

/-- The number and the time stamp of the frame that a statement sends. -/
def sentFrame (x : BurnTest × Event) : Option (Nat × String) :=
  match x.2 with
  | .send now _ stamp none =>
    if now ≥ x.1.nextSend then some (x.1.rc.messageNumber + 1, stamp) else none
  | _ => none

/-- The full-size datagram without an outstanding frame that a statement receives. -/
def strayFrame (x : BurnTest × Event) : Option Bytes :=
  match x.2 with
  | .datagram data _ _ =>
    if data.length = totalPacketSize ∧ x.1.pending.get? (messageNumber data) = none then some data
    else none
  | _ => none

/-- The socket works. -/
def NoSocketError : Event → Prop
  | .receiveError _ => False
  | .send _ _ _ sendError => sendError = none
  | _ => True

def rowFrame (r : LogRow) : Nat × String := (r.msgNumber, r.txTimestamp)

def pendingFrame (x : Nat × Outstanding) : Nat × String := (x.1, x.2.txTimestamp)

/-- The accounts of a worker that sent the frames `frames` and received the stray datagrams
`strays`. -/
structure Accounts (frames : List (Nat × String)) (strays : List Bytes) (b : BurnTest) : Prop where
  sent : b.sent = frames.length
  ok : b.ok = b.logged.countP fun r => r.result = .ok
  timeouts : b.timeouts = b.logged.countP fun r => r.result = .timeout
  errors : b.errors = (b.logged.countP fun r => r.result = .crcFail) +
    b.logged.countP fun r => r.result = .unsolicited
  matched : ∀ r ∈ b.logged, r.result ≠ .msgNumMismatch
  /-- Every frame has a row or is outstanding. -/
  frames : ((b.logged.filter LogRow.isQuery).map rowFrame ++ b.pending.map pendingFrame).Perm frames
  strays : List.Forall₂ StrayRowOf strays (b.logged.filter fun r => !r.isQuery)

section

variable {b b' : BurnTest} {frames : List (Nat × String)} {strays : List Bytes} {row : LogRow}
  {now sendPerf recvPerf : ℚ} {data : Bytes} {stamp : String}

@[simp] theorem emitted_append (s t : List BurnSignal) :
    emitted (s ++ t) = emitted s ++ emitted t := by
  simp [emitted]

@[simp] theorem emitted_batch (rows : List LogRow) : emitted (batch rows) = rows := by
  unfold batch
  split
  · rename_i h
    rw [h]
    rfl
  · simp [emitted]

/-- Rows that move from the next batch into an emitted one change nothing. -/
theorem Accounts.congr (h : Accounts frames strays b) (hl : b'.logged = b.logged)
    (hp : b'.pending = b.pending) (hs : b'.sent = b.sent) (ho : b'.ok = b.ok)
    (ht : b'.timeouts = b.timeouts) (he : b'.errors = b.errors) : Accounts frames strays b' :=
  ⟨hs ▸ h.sent, by rw [ho, hl, h.ok], by rw [ht, hl, h.timeouts], by rw [he, hl, h.errors],
    hl ▸ h.matched, by rw [hl, hp]; exact h.frames, hl ▸ h.strays⟩

/-- A frame is sent. -/
theorem Accounts.send (h : Accounts frames strays b) (hord : Ordered b) :
    Accounts (frames ++ [(b.rc.messageNumber + 1, stamp)]) strays
      (b.onSend now sendPerf stamp none) := by
  have hl : (b.onSend now sendPerf stamp none).logged = b.logged := rfl
  refine ⟨?_, h.ok, h.timeouts, h.errors, h.matched, ?_, h.strays⟩
  · simp [onSend, h.sent]
  · rw [hl, hord.send, List.map_append, ← List.append_assoc]
    exact h.frames.append_right _

/-- A stray datagram gets a row. -/
theorem Accounts.stray (h : Accounts frames strays b) (hrow : StrayRowOf data row)
    (hl : b'.logged = b.logged ++ [row]) (hp : b'.pending = b.pending) (hs : b'.sent = b.sent)
    (ho : b'.ok = b.ok) (ht : b'.timeouts = b.timeouts) (he : b'.errors = b.errors + 1) :
    Accounts frames (strays ++ [data]) b' := by
  have hr := hrow.result
  refine ⟨hs ▸ h.sent, ?_, ?_, ?_, ?_, ?_, ?_⟩
  · simp [hl, ho, h.ok, hr]
  · simp [hl, ht, h.timeouts, hr]
  · simp [hl, he, h.errors, hr]
    omega
  · simpa [hl, hr, or_imp, forall_and] using h.matched
  · rw [hl, hp]
    simpa [LogRow.isQuery, hr] using h.frames
  · have hfilter : (b.logged ++ [row]).filter (fun r => !r.isQuery) =
        b.logged.filter (fun r => !r.isQuery) ++ [row] := by
      simp [LogRow.isQuery, hr]
    rw [hl, hfilter]
    exact List.rel_append h.strays (.cons hrow .nil)

/-- Some outstanding frames get their rows. -/
theorem Accounts.close {rows : List LogRow} {closed : List (Nat × Outstanding)}
    (h : Accounts frames strays b) (hrows : rows.map rowFrame = closed.map pendingFrame)
    (hresult : ∀ r ∈ rows, r.result = .ok ∨ r.result = .crcFail ∨ r.result = .timeout)
    (hl : b'.logged = b.logged ++ rows) (hp : b.pending.Perm (closed ++ b'.pending))
    (hs : b'.sent = b.sent) (ho : b'.ok = b.ok + rows.countP fun r => r.result = .ok)
    (ht : b'.timeouts = b.timeouts + rows.countP fun r => r.result = .timeout)
    (he : b'.errors = b.errors + rows.countP fun r => r.result = .crcFail) :
    Accounts frames strays b' := by
  have hquery : ∀ r ∈ rows, r.isQuery = true := fun r hr => by
    rcases hresult r hr with h | h | h <;> simp [LogRow.isQuery, h]
  have hstray : rows.countP (fun r => r.result = .unsolicited) = 0 :=
    List.countP_eq_zero.2 fun r hr => by
      rcases hresult r hr with h | h | h <;> simp [h]
  refine ⟨hs ▸ h.sent, ?_, ?_, ?_, ?_, ?_, ?_⟩
  · rw [hl, List.countP_append, ho, h.ok]
  · rw [hl, List.countP_append, ht, h.timeouts]
  · rw [hl, List.countP_append, List.countP_append, he, h.errors, hstray]
    omega
  · intro r hr
    rcases List.mem_append.1 (hl ▸ hr) with hr | hr
    · exact h.matched r hr
    · rcases hresult r hr with h | h | h <;> simp [h]
  · rw [hl, List.filter_append, List.filter_eq_self.2 hquery, List.map_append, hrows,
      List.append_assoc, ← List.map_append]
    exact ((hp.map pendingFrame).symm.append_left _).trans h.frames
  · have hnone : rows.filter (fun r => !r.isQuery) = [] :=
      List.filter_eq_nil_iff.2 fun r hr => by simp [hquery r hr]
    rw [hl, List.filter_append, hnone, List.append_nil]
    exact h.strays

/-- A datagram is received. -/
theorem Accounts.datagram (h : Accounts frames strays b) (hord : Ordered b) :
    Accounts frames (strays ++ (strayFrame (b, .datagram data recvPerf stamp)).toList)
      (b.onDatagram data recvPerf stamp) := by
  obtain ⟨-, -, -, hsignals, hsent, htimeouts⟩ := onDatagram_eq b data recvPerf stamp
  have hlogged : (b.onDatagram data recvPerf stamp).logged =
      emitted b.signals ++ (b.onDatagram data recvPerf stamp).rows := by
    rw [logged, hsignals]
  by_cases hlen : data.length = totalPacketSize
  · cases hget : b.pending.get? (messageNumber data) with
    | none =>
      obtain ⟨hp, hrows, hok, herr⟩ := onDatagram_stray b recvPerf stamp hlen hget
      simp only [strayFrame, hlen, hget, and_self, if_true, Option.toList_some]
      have hrow : StrayRowOf data (strayRow data stamp (linkFlags b.config.isLinkTest data)) :=
        ⟨QccHeaderTx.decode_messageNumber data, rfl, rfl⟩
      refine h.stray hrow ?_ hp hsent hok htimeouts herr
      rw [hlogged, hrows, ← List.append_assoc]
      rfl
    | some info =>
      obtain ⟨hp, hrows, hok, herr⟩ := onDatagram_answer b recvPerf stamp hlen hget
      simp only [strayFrame, hlen, hget, reduceCtorEq, and_false, if_false, Option.toList_none,
        List.append_nil]
      have hframe : [answerRow data recvPerf stamp info (linkFlags b.config.isLinkTest data)].map
          rowFrame = [(messageNumber data, info)].map pendingFrame := by
        simp [rowFrame, pendingFrame, answerRow, QccHeaderTx.decode_messageNumber]
      refine h.close hframe ?_ ?_ ?_ hsent ?_ ?_ ?_
      · intro r hr
        obtain rfl := List.mem_singleton.1 hr
        cases hc : (QccHeaderTx.decode (data.take headerSize)).checksumOk <;> simp [answerRow, hc]
      · rw [hlogged, hrows, ← List.append_assoc]
        rfl
      · rw [hp]
        exact Dict.perm_erase hord.nodup hget
      · cases hc : (QccHeaderTx.decode (data.take headerSize)).checksumOk <;>
          simp [answerRow, hc, hok]
      · cases hc : (QccHeaderTx.decode (data.take headerSize)).checksumOk <;>
          simp [answerRow, hc, htimeouts]
      · cases hc : (QccHeaderTx.decode (data.take headerSize)).checksumOk <;>
          simp [answerRow, hc, herr]
  · obtain ⟨hp, hrows, hok, herr⟩ := onDatagram_short b recvPerf stamp hlen
    simp only [strayFrame, hlen, false_and, if_false, Option.toList_none, List.append_nil]
    exact h.congr (by rw [hlogged, hrows, logged]) hp hsent hok htimeouts herr

theorem timeoutRow_frame (xs : List (Nat × Outstanding)) :
    (xs.map timeoutRow).map rowFrame = xs.map pendingFrame := by
  rw [List.map_map]
  rfl

theorem countP_timeoutRow (xs : List (Nat × Outstanding)) (result : LogResult) :
    (xs.map timeoutRow).countP (fun r => r.result = result) =
      if result = .timeout then xs.length else 0 := by
  rw [List.countP_map]
  split
  · rename_i h
    subst h
    exact List.countP_eq_length.2 fun x _ => by simp [timeoutRow]
  · rename_i h
    exact List.countP_eq_zero.2 fun x _ => by simp [timeoutRow, Ne.symm h]

/-- Frames are given up. -/
theorem Accounts.giveUp {xs : List (Nat × Outstanding)} (h : Accounts frames strays b)
    (hl : b'.logged = b.logged ++ xs.map timeoutRow) (hp : b.pending.Perm (xs ++ b'.pending))
    (hs : b'.sent = b.sent) (ho : b'.ok = b.ok) (ht : b'.timeouts = b.timeouts + xs.length)
    (he : b'.errors = b.errors) : Accounts frames strays b' := by
  refine h.close (timeoutRow_frame xs) ?_ hl hp hs ?_ ?_ ?_
  · intro r hr
    obtain ⟨x, -, rfl⟩ := List.mem_map.1 hr
    exact .inr (.inr rfl)
  · rw [countP_timeoutRow, if_neg (by decide)]
    exact ho
  · rw [countP_timeoutRow, if_pos rfl]
    exact ht
  · rw [countP_timeoutRow, if_neg (by decide)]
    exact he

/-- Every statement keeps the accounts. -/
theorem Accounts.step {e : Event} (h : Accounts frames strays b) (hord : Ordered b)
    (he : NoSocketError e) :
    Accounts (frames ++ (sentFrame (b, e)).toList) (strays ++ (strayFrame (b, e)).toList)
      (b.step e) := by
  cases e with
  | stop =>
    simp only [sentFrame, strayFrame, Option.toList_none, List.append_nil]
    exact h.congr rfl rfl rfl rfl rfl rfl
  | headerBuilt =>
    simp only [sentFrame, strayFrame, Option.toList_none, List.append_nil]
    exact h.congr rfl rfl rfl rfl rfl rfl
  | drained =>
    simp only [sentFrame, strayFrame, Option.toList_none, List.append_nil]
    exact h.congr rfl rfl rfl rfl rfl rfl
  | receiveError message => exact he.elim
  | proceed =>
    simp only [sentFrame, strayFrame, Option.toList_none, List.append_nil, BurnTest.step]
    split
    · exact h.congr rfl rfl rfl rfl rfl rfl
    · have hl : b.finish.logged = b.logged ++ b.pending.map timeoutRow := by
        have hrest : ∀ stats m, emitted [.statsReady stats, .status m] = [] := fun _ _ => rfl
        simp only [logged, finish, emitted_append, emitted_batch, hrest, List.append_nil,
          List.append_assoc]
      exact h.giveUp hl (by simp [finish]) rfl rfl rfl rfl
  | datagram data recvPerf stamp =>
    simp only [sentFrame, Option.toList_none, List.append_nil, BurnTest.step]
    exact h.datagram hord
  | send now sendPerf stamp sendError =>
    obtain rfl : sendError = none := he
    simp only [sentFrame, strayFrame, Option.toList_none, List.append_nil, BurnTest.step]
    split
    · exact (h.send hord).congr rfl rfl rfl rfl rfl rfl
    · rw [Option.toList_none, List.append_nil]
      exact h.congr rfl rfl rfl rfl rfl rfl
  | evict now =>
    simp only [sentFrame, strayFrame, Option.toList_none, List.append_nil, BurnTest.step]
    obtain ⟨hp, hrows⟩ := hord.evict now
    have hl : (b.onEvict now).logged =
        b.logged ++ (b.pending.filter (isStale now)).map timeoutRow := by
      rw [logged, hrows, ← List.append_assoc]
      rfl
    refine h.giveUp hl ?_ rfl rfl ?_ rfl
    · exact hp.symm ▸ (List.filter_append_perm _ _).symm
    · exact congrArg (fun xs => b.timeouts + List.length xs) (hord.front now)
  | tick now =>
    simp only [sentFrame, strayFrame, Option.toList_none, List.append_nil, BurnTest.step]
    obtain ⟨hp, -, -, hs, ho, ht, he⟩ := onTick_eq b now
    have hl : (b.onTick now).logged = b.logged := by
      have hstats : ∀ stats, emitted [.statsReady stats] = [] := fun _ => rfl
      have hflags : ∀ flags : Option (Qtrm → Bool),
          emitted (flags.map BurnSignal.linkResultReady).toList = [] := fun flags => by
        cases flags <;> rfl
      have hframe : ∀ raw : Option Bytes,
          emitted (raw.map BurnSignal.frameReceived).toList = [] := fun raw => by
        cases raw <;> rfl
      unfold onTick
      dsimp only
      split
      · simp only [logged, emitted_append, emitted_batch, hstats, hflags, hframe, List.append_nil]
      · rfl
    exact h.congr hl hp hs ho ht he

end

section

variable {config : BurnConfig} {rc : RcSettings} {t₀ : ℚ} {tr : List (BurnTest × Event)}
  {b : BurnTest}

theorem accounts_of_run (hr : machine.Run (run config rc t₀ none) tr b)
    (hc : ∀ x ∈ tr, NoSocketError x.2) :
    Accounts (tr.filterMap sentFrame) (tr.filterMap strayFrame) b := by
  refine hr.history (C := fun _ e => NoSocketError e)
    (P := fun tr b => Accounts (tr.filterMap sentFrame) (tr.filterMap strayFrame) b) ?_ ?_ hc
  · exact ⟨rfl, rfl, rfl, rfl, nofun, .nil, .nil⟩
  · intro tr b e hr h _ he
    rw [filterMap_snoc, filterMap_snoc]
    exact h.step (ordered_of_run hr) he

/-- The number of a frame is the next one of the counter. -/
theorem sentFrame_eq_some {e : Event} {x : Nat × String} (h : sentFrame (b, e) = some x) :
    x.1 = b.rc.messageNumber + 1 ∧ (b.step e).rc.messageNumber = b.rc.messageNumber + 1 := by
  unfold sentFrame at h
  split at h
  · rename_i now sendPerf stamp he
    split at h
    · rename_i hnow
      obtain rfl : e = .send now sendPerf stamp none := he
      cases h
      refine ⟨rfl, ?_⟩
      rw [step, if_pos hnow]
      rfl
    · cases h
  · cases h

/-- No two frames of a run have the same number in the table. -/
theorem sent_numbers {b₀ : BurnTest} (hr : machine.Run b₀ tr b) :
    ((tr.filterMap sentFrame).map Prod.fst).Nodup := by
  have h : ((tr.filterMap sentFrame).map Prod.fst).Pairwise (· < ·) ∧
      ∀ n ∈ (tr.filterMap sentFrame).map Prod.fst, n ≤ b.rc.messageNumber := by
    refine hr.history (C := fun _ _ => True) (P := fun tr b =>
      ((tr.filterMap sentFrame).map Prod.fst).Pairwise (· < ·) ∧
        ∀ n ∈ (tr.filterMap sentFrame).map Prod.fst, n ≤ b.rc.messageNumber)
      ⟨.nil, nofun⟩ ?_ fun _ _ => trivial
    intro tr b e _ ⟨hlt, hle⟩ _ _
    cases hs : sentFrame (b, e) with
    | none =>
      rw [filterMap_snoc, hs, Option.toList_none, List.append_nil]
      exact ⟨hlt, fun n hn => (hle n hn).trans (messageNumber_mono b e)⟩
    | some x =>
      obtain ⟨hx, hrc⟩ := sentFrame_eq_some hs
      rw [filterMap_snoc, hs, Option.toList_some, List.map_append, List.pairwise_append]
      have hnext : (machine.step b e).rc.messageNumber = b.rc.messageNumber + 1 := hrc
      refine ⟨⟨hlt, List.pairwise_singleton .., fun n hn m hm => ?_⟩, fun n hn => ?_⟩
      · obtain rfl := List.mem_singleton.1 hm
        have := hle n hn
        omega
      · rcases List.mem_append.1 hn with hn | hn
        · have := hle n hn
          omega
        · obtain rfl := List.mem_singleton.1 hn
          omega
  exact h.1.imp fun h => h.ne

/-- What is left when the worker has stopped: nothing, and the counters in the last report. -/
structure Ended (b : BurnTest) : Prop where
  rows : b.rows = []
  pending : b.pending = []
  signals : ∃ before, b.signals =
    before ++ [.statsReady (b.stats 0), .status "Burn Test stopped"]

theorem ended_of_run (hr : machine.Run (run config rc t₀ none) tr b) (hb : b.phase = .stopped) :
    Ended b := by
  have h : b.phase = .stopped → Ended b := by
    refine hr.invariant' (I := fun b => b.phase = .stopped → Ended b) (fun h => by simp [run] at h) ?_
    intro b e ih he hstop
    cases e with
    | stop => exact ⟨(ih hstop).rows, (ih hstop).pending, (ih hstop).signals⟩
    | headerBuilt => exact ⟨(ih hstop).rows, (ih hstop).pending, (ih hstop).signals⟩
    | proceed =>
      simp only [machine, step] at hstop ⊢
      split at hstop
      · cases hstop
      · rename_i hr
        rw [if_neg hr]
        exact ⟨rfl, rfl, _, rfl⟩
    | datagram data recvPerf stamp =>
      have hphase : b.phase = .stopped := (onDatagram_phase b data recvPerf stamp).symm.trans hstop
      cases he.1.symm.trans hphase
    | receiveError message => cases hstop
    | drained => cases hstop
    | send now sendPerf stamp sendError =>
      simp only [machine, step] at hstop
      split at hstop <;> cases hstop
    | evict now => cases hstop
    | tick now => cases hstop
  exact h hb

/-- The emitted rows hold exactly one row for each of the frames `frames`, by number and time stamp,
and one for each of the stray datagrams `strays`; the counters are those of the rows. -/
structure Conserved (frames : List (Nat × String)) (strays : List Bytes) (b : BurnTest) : Prop where
  queries : (((emitted b.signals).filter LogRow.isQuery).map rowFrame).Perm frames
  distinct : (frames.map Prod.fst).Nodup
  results : ∀ r ∈ emitted b.signals, r.isQuery = true →
    r.result = .ok ∨ r.result = .crcFail ∨ r.result = .timeout
  strays : List.Forall₂ StrayRowOf strays ((emitted b.signals).filter fun r => !r.isQuery)
  sent : b.sent = ((emitted b.signals).countP fun r => r.result = .ok) +
    ((emitted b.signals).countP fun r => r.result = .crcFail) +
    (emitted b.signals).countP fun r => r.result = .timeout
  ok : b.ok = (emitted b.signals).countP fun r => r.result = .ok
  timeouts : b.timeouts = (emitted b.signals).countP fun r => r.result = .timeout
  errors : b.errors = ((emitted b.signals).countP fun r => r.result = .crcFail) +
    (emitted b.signals).countP fun r => r.result = .unsolicited
  report : ∃ before, b.signals = before ++ [.statsReady (b.stats 0), .status "Burn Test stopped"]
  analysis : ∃ sum, summarize (loadRows (fileText (emitted b.signals))) = some sum ∧
    sum.queries.length = b.sent

theorem countP_isQuery {rows : List LogRow} (h : ∀ r ∈ rows, r.result ≠ .msgNumMismatch) :
    rows.countP LogRow.isQuery = (rows.countP fun r => r.result = .ok) +
      (rows.countP fun r => r.result = .crcFail) + rows.countP fun r => r.result = .timeout := by
  induction rows with
  | nil => rfl
  | cons r rows ih =>
    have hr := h r (List.mem_cons_self ..)
    rw [List.countP_cons, List.countP_cons, List.countP_cons, List.countP_cons,
      ih fun r hr => h r (List.mem_cons_of_mem _ hr)]
    cases hres : r.result <;> simp [LogRow.isQuery, hres] at hr ⊢ <;> omega

/-- A run without socket errors, from the start of the worker to its end, loses no row and writes
none twice; and each eviction on the way removes exactly the frames that are too old. -/
theorem rows_conserved (hr : machine.Run (run config rc t₀ none) tr b)
    (hc : ∀ x ∈ tr, NoSocketError x.2) (hstop : b.phase = .stopped) :
    Conserved (tr.filterMap sentFrame) (tr.filterMap strayFrame) b ∧
      ∀ x ∈ tr, ∀ now, x.2 = .evict now →
        (machine.post x).pending = x.1.pending.filter (fun y => !isStale now y) ∧
        (machine.post x).rows = x.1.rows ++ (x.1.pending.filter (isStale now)).map timeoutRow := by
  have h := accounts_of_run hr hc
  have hend := ended_of_run hr hstop
  have hl : b.logged = emitted b.signals := by rw [logged, hend.rows, List.append_nil]
  have hmatched := hl ▸ h.matched
  have hframes : (((emitted b.signals).filter LogRow.isQuery).map rowFrame).Perm
      (tr.filterMap sentFrame) := by
    simpa [hl, hend.pending] using h.frames
  have hqueries : (emitted b.signals).countP LogRow.isQuery = b.sent := by
    rw [h.sent, ← hframes.length_eq, List.length_map, List.countP_eq_length_filter]
  refine ⟨⟨hframes, sent_numbers hr, ?_, hl ▸ h.strays, ?_, hl ▸ h.ok, hl ▸ h.timeouts,
    hl ▸ h.errors, hend.signals, summaryOf (emitted b.signals), summarize_fileText _, ?_⟩, ?_⟩
  · intro r hr hq
    have := hmatched r hr
    cases hres : r.result <;> simp_all [LogRow.isQuery]
  · rw [← hqueries, countP_isQuery hmatched]
  · rw [summaryOf_queries, hqueries]
  · intro x hx now he
    obtain ⟨tr₁, tr₂, rfl⟩ := List.append_of_mem hx
    have hord := ordered_of_run hr.middle.1
    rw [Machine.post, he]
    exact hord.evict now

/-- A valid response with the number `n`. -/
def validResponse (n : Nat) : Bytes :=
  let body := zeros 6 ++ le32 n ++ zeros 79
  body ++ [crc8 body] ++ zeros qtrmBlockSize

/-- The first frame is answered twice, a response comes that nobody asked for, and the second frame is
too old before it is answered. -/
def exampleLoops : List Event :=
  around [] 0 ++ around [validResponse 1, validResponse 1, validResponse 9] 1 ++ around [] (3 / 2)

theorem exampleLoops_allowed : machine.Allows exampleStart exampleLoops ∧
    Looping (machine.exec exampleStart exampleLoops) (3 / 2) := by
  have hstart : Looping exampleStart 0 := ⟨rfl, rfl, le_rfl⟩
  obtain ⟨hallow₁, hloop₁⟩ := hstart.around le_rfl []
  obtain ⟨hallow₂, hloop₂⟩ :=
    hloop₁.around zero_le_one [validResponse 1, validResponse 1, validResponse 9]
  have hle : (1 : ℚ) ≤ 3 / 2 := by norm_num
  obtain ⟨hallow₃, hloop₃⟩ := hloop₂.around hle []
  rw [exampleLoops]
  simp only [Machine.allows_append, Machine.exec_append]
  exact ⟨⟨⟨hallow₁, hallow₂⟩, hallow₃⟩, hloop₃⟩

def exampleEvents : List Event := exampleLoops ++ [.stop, .proceed]

theorem exampleEvents_allowed : machine.Allows exampleStart exampleEvents :=
  Machine.allows_append.2 ⟨exampleLoops_allowed.1, trivial, exampleLoops_allowed.2.phase, trivial⟩

theorem exampleEvents_stopped : (machine.exec exampleStart exampleEvents).phase = .stopped := by
  decide +kernel

set_option maxRecDepth 4000 in
theorem exampleEvents_results :
    (emitted (machine.exec exampleStart exampleEvents).signals).map LogRow.result =
      [.ok, .unsolicited, .unsolicited, .timeout] := by
  decide +kernel

theorem exampleLoops_noSocketError : ∀ e ∈ exampleLoops, NoSocketError e ∧ e ≠ .stop := by
  have haround : ∀ datas t, ∀ e ∈ around datas t, NoSocketError e ∧ e ≠ .stop := by
    intro datas t e he
    simp only [around, List.cons_append, List.mem_cons, List.mem_append, List.mem_map,
      List.not_mem_nil, or_false] at he
    rcases he with rfl | ⟨data, -, rfl⟩ | rfl | rfl | rfl | rfl <;> simp [NoSocketError]
  intro e he
  simp only [exampleLoops, List.mem_append] at he
  rcases he with (he | he) | he
  · exact haround _ _ e he
  · exact haround _ _ e he
  · exact haround _ _ e he

/-- Two frames: an answer with its duplicate, a stray response, and an eviction. -/
theorem rows_conserved_two_frames : ∃ tr b, machine.Run exampleStart tr b ∧
    Machine.events tr = exampleEvents ∧
    (emitted b.signals).map LogRow.result = [.ok, .unsolicited, .unsolicited, .timeout] ∧
    Conserved (tr.filterMap sentFrame) (tr.filterMap strayFrame) b ∧
    ∀ x ∈ tr, ∀ now, x.2 = .evict now →
      (machine.post x).pending = x.1.pending.filter (fun y => !isStale now y) ∧
      (machine.post x).rows = x.1.rows ++ (x.1.pending.filter (isStale now)).map timeoutRow := by
  have hr := exampleEvents_allowed.run
  refine ⟨_, _, hr, Machine.events_trace, exampleEvents_results,
    rows_conserved hr (fun x hx => ?_) exampleEvents_stopped⟩
  have hmem : x.2 ∈ Machine.events (machine.trace _ _) := List.mem_map_of_mem hx
  rw [Machine.events_trace] at hmem
  rcases List.mem_append.1 hmem with hmem | hmem
  · exact (exampleLoops_noSocketError x.2 hmem).1
  · simp only [List.mem_cons, List.not_mem_nil, or_false] at hmem
    rcases hmem with h | h <;> rw [h] <;> trivial

end

end BurnTest

end QccGui
