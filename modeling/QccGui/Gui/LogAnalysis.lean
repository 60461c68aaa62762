import QccGui.Gui.LogRow

/-!
# The offline analysis of a data log

What the analysis tool counts in the rows of a log file. Its statistics of the delays and the layout
of its text are left out.

* `summarize`: the summary of rows as they were read, `none` where the tool raises an error.
* `summarize_fileText`: on a file that a logger wrote it raises none, and counts the logger's rows.
-/

namespace QccGui

open Lib

/-- The text of a cell that may be missing. -/
def Record.text (r : Record) (name : String) : String := ((r.get? name).getD none).getD ""

/-- The row has per-QTRM columns. -/
def isLinkRow (r : Record) : Bool := Record.text r "qtrm_ok_count" ≠ ""

/-- The QTRMs marked as not OK. -/
def notOkIndices (r : Record) : Option (List Nat) := splitInts (Record.text r "qtrm_not_ok_list")

structure Summary where
  queries : List Record
  byResult : Dict (Option String) Nat
  okDelays : List String
  gaps : List (Nat × Nat)
  linkRows : List Record
  fails : Dict Nat Nat
  deriving DecidableEq

/-- How many rows have a result. -/
def Summary.count (s : Summary) (result : LogResult) : Nat :=
  (s.byResult.get? (some result.text)).getD 0

/-- Neighbours in a sorted list of message numbers that do not follow each other. -/
def numberGaps (nums : List Nat) : List (Nat × Nat) :=
  (nums.zip nums.tail).filter fun x => x.2 - x.1 > 1

def summarize (rows : List Record) : Option Summary := do
  let tagged ← rows.mapM fun r => do return (r, ← r.get? "result")
  let queries := tagged.filter fun x => x.2 ≠ some LogResult.unsolicited.text
  let delays ← (queries.filter fun x => x.2 = some LogResult.ok.text).mapM fun x =>
    x.1.get? "delay_us"
  let texts ← queries.mapM fun x => x.1.get? "msg_number"
  let nums ← ((texts.map fun t => t.getD "").filter (· ≠ "")).mapM parseInt
  let linkRows := (queries.map Prod.fst).filter isLinkRow
  let marks ← linkRows.mapM notOkIndices
  return {
    queries := queries.map Prod.fst
    byResult := Dict.tally (tagged.map Prod.snd)
    okDelays := (delays.map fun t => t.getD "").filter (· ≠ "")
    gaps := numberGaps (nums.mergeSort (· ≤ ·))
    linkRows
    fails := Dict.tally marks.flatten }

/-! ## On written rows -/

namespace LogRow

variable (r : LogRow)

/-- The row of a query, not of a stray response. -/
def isQuery : Bool := r.result ≠ .unsolicited

/-- The QTRMs that the row marks as not OK. -/
def notOk : List Qtrm := (r.qtrm.map QtrmMarks.notOk).getD []

/-- The first columns of a row. -/
theorem record_eq : ∃ rest, r.record =
    ("msg_number", some r.msgNumber.repr) :: ("tx_timestamp", some r.txTimestamp) ::
    ("rx_timestamp", some r.rxTimestamp) :: ("delay_us", some r.delayUs) ::
    ("qcc_command", some r.qccCommand) :: ("result", some r.result.text) ::
    ("qtrm_ok_count", some r.okCountCell) :: ("qtrm_not_ok_list", some r.notOkCell) :: rest :=
  ⟨_, rfl⟩

theorem record_result : r.record.get? "result" = some (some r.result.text) := by
  obtain ⟨rest, h⟩ := r.record_eq
  simp [h, Dict.get?]

theorem record_delayUs : r.record.get? "delay_us" = some (some r.delayUs) := by
  obtain ⟨rest, h⟩ := r.record_eq
  simp [h, Dict.get?]

theorem record_msgNumber : r.record.get? "msg_number" = some (some r.msgNumber.repr) := by
  obtain ⟨rest, h⟩ := r.record_eq
  simp [h, Dict.get?]

theorem record_okCount : r.record.text "qtrm_ok_count" = r.okCountCell := by
  obtain ⟨rest, h⟩ := r.record_eq
  simp [Record.text, h, Dict.get?]

theorem record_notOk : r.record.text "qtrm_not_ok_list" = r.notOkCell := by
  obtain ⟨rest, h⟩ := r.record_eq
  simp [Record.text, h, Dict.get?]

theorem isLinkRow_record : isLinkRow r.record = r.qtrm.isSome := by
  rw [isLinkRow, r.record_okCount, okCountCell]
  cases r.qtrm <;> simp

theorem notOkIndices_record : notOkIndices r.record = some (r.notOk.map Fin.val) := by
  rw [notOkIndices, r.record_notOk, notOkCell, notOk]
  cases r.qtrm with
  | none => simpa [joinInts] using splitInts_joinInts []
  | some m => simpa using splitInts_joinInts (m.notOk.map Fin.val)

end LogRow

/-- What the analysis finds in the rows of a file. -/
def summaryOf (rows : List LogRow) : Summary :=
  let queries := rows.filter LogRow.isQuery
  let links := queries.filter fun r => r.qtrm.isSome
  { queries := queries.map LogRow.record
    byResult := Dict.tally (rows.map fun r => some r.result.text)
    okDelays := ((queries.filter fun r => r.result = .ok).map LogRow.delayUs).filter (· ≠ "")
    gaps := numberGaps ((queries.map LogRow.msgNumber).mergeSort (· ≤ ·))
    linkRows := links.map LogRow.record
    fails := Dict.tally (links.flatMap fun r => r.notOk.map Fin.val) }

/-- The analysis raises no error on rows that were written. -/
theorem summarize_records (rows : List LogRow) :
    summarize (rows.map LogRow.record) = some (summaryOf rows) := by
  let tag (r : LogRow) : Record × Option String := (r.record, some r.result.text)
  have htagged : (rows.map LogRow.record).mapM (fun r => do return (r, ← r.get? "result")) =
      some (rows.map tag) := by
    rw [List.mapM_map]
    exact mapM_eq_some fun r _ => by simp [tag, r.record_result]
  have hqueries : (rows.map tag).filter (fun x => x.2 ≠ some LogResult.unsolicited.text) =
      (rows.filter LogRow.isQuery).map tag := by
    rw [List.filter_map]
    congr 2
    funext r
    simp [tag, LogRow.isQuery, LogResult.text_inj]
  unfold summarize summaryOf
  rw [htagged]
  simp only [Option.bind_eq_bind, Option.bind_some, hqueries]
  generalize rows.filter LogRow.isQuery = queries
  have hdelays : ((queries.map tag).filter fun x => x.2 = some LogResult.ok.text).mapM
      (fun x => x.1.get? "delay_us") =
        some ((queries.filter fun r => r.result = .ok).map fun r => some r.delayUs) := by
    have hok : (queries.map tag).filter (fun x => x.2 = some LogResult.ok.text) =
        (queries.filter fun r => r.result = .ok).map tag := by
      rw [List.filter_map]
      congr 2
      funext r
      simp [tag, LogResult.text_inj]
    rw [hok, List.mapM_map]
    apply mapM_eq_some
    intro r _
    rw [Function.comp_apply]
    exact r.record_delayUs
  have htexts : (queries.map tag).mapM (fun x => x.1.get? "msg_number") =
      some (queries.map fun r => some r.msgNumber.repr) := by
    rw [List.mapM_map]
    apply mapM_eq_some
    intro r _
    rw [Function.comp_apply]
    exact r.record_msgNumber
  have hnums : (((queries.map fun r => some r.msgNumber.repr).map fun t => t.getD "").filter
      (· ≠ "")).mapM parseInt = some (queries.map LogRow.msgNumber) := by
    have hne : ((queries.map fun r => some r.msgNumber.repr).map fun t => t.getD "").filter
        (· ≠ "") = queries.map fun r => r.msgNumber.repr := by
      rw [List.map_map]
      exact List.filter_eq_self.2 fun s hs => by
        obtain ⟨r, -, rfl⟩ := List.mem_map.1 hs
        simp
    rw [hne, List.mapM_map]
    exact mapM_eq_some fun r _ => parseInt_repr r.msgNumber
  have hlinks : ((queries.map tag).map Prod.fst).filter isLinkRow =
      (queries.filter fun r => r.qtrm.isSome).map LogRow.record := by
    have hfst : Prod.fst ∘ tag = LogRow.record := rfl
    have hlink : isLinkRow ∘ LogRow.record = fun r => r.qtrm.isSome :=
      funext LogRow.isLinkRow_record
    rw [List.map_map, hfst, List.filter_map, hlink]
  have hmarks : ((queries.filter fun r => r.qtrm.isSome).map LogRow.record).mapM notOkIndices =
      some ((queries.filter fun r => r.qtrm.isSome).map fun r => r.notOk.map Fin.val) := by
    rw [List.mapM_map]
    apply mapM_eq_some
    intro r _
    rw [Function.comp_apply]
    exact r.notOkIndices_record
  rw [hdelays, htexts]
  simp only [Option.bind_some]
  rw [hnums]
  simp only [Option.bind_some]
  rw [hlinks, hmarks]
  simp [tag, List.flatMap_def, Function.comp_def]

/-- The analysis of a file that a logger wrote. -/
theorem summarize_fileText (rows : List LogRow) :
    summarize (loadRows (fileText rows)) = some (summaryOf rows) := by
  rw [loadRows_fileText, summarize_records]

/-! ## What the summary counts -/

variable (rows : List LogRow)

theorem summaryOf_queries : (summaryOf rows).queries.length = rows.countP LogRow.isQuery := by
  simp [summaryOf, List.countP_eq_length_filter]

theorem summaryOf_count (result : LogResult) :
    (summaryOf rows).count result = rows.countP fun r => r.result = result := by
  rw [Summary.count, summaryOf, Dict.getD_tally, List.countP_map]
  congr 1
  funext r
  simp [LogResult.text_inj]

/-- Rows without marks add none. -/
theorem summaryOf_fails :
    Dict.total (summaryOf rows).fails =
      ((rows.filter LogRow.isQuery).map fun r => r.notOk.length).sum := by
  rw [summaryOf, Dict.total_tally, List.length_flatMap]
  generalize rows.filter LogRow.isQuery = queries
  induction queries with
  | nil => rfl
  | cons r queries ih =>
    by_cases h : r.qtrm.isSome
    · simp_all
    · have hnone : r.notOk.length = 0 := by
        rw [Bool.not_eq_true, Option.isSome_eq_false_iff, Option.isNone_iff_eq_none] at h
        simp [LogRow.notOk, h]
      simp_all

end QccGui
