import QccGui.Gui.Slots
import QccGui.Lib.Csv
import QccGui.Lib.Dict
import QccGui.Lib.Text
import Mathlib.Algebra.Order.Floor.Ring
import Mathlib.Data.Rat.Floor

/-!
# Rows of a data log

The rows that both data loggers write, one for each query or stray response, and the file they make.

* `LogRow`, `LogRow.cells`: a row, and the texts of its cells in the order of `csvColumns`.
* `fileText`: the text of a file of rows.
* `loadRows`: the rows of a text as the offline analysis reads them; `loadRows_fileText` says that
  it reads back what was written.
-/

namespace QccGui

open Lib

/-! ## Texts of numbers -/

/-- `int()` of a text of decimal digits; any other text is a `ValueError`. -/
def parseInt (text : String) : Option Nat :=
  if text ≠ "" ∧ text.toList.all Char.isDigit then some (Nat.ofDigitChars 10 text.toList 0) else none

theorem parseInt_repr (n : Nat) : parseInt n.repr = some n := by
  have hdigits : (Nat.toDigits 10 n).all Char.isDigit = true :=
    List.all_eq_true.2 fun c hc => Nat.isDigit_of_mem_toDigits (by decide) (by decide) hc
  simp [parseInt, hdigits]

/-- Numbers with commas between them. -/
def joinInts (ns : List Nat) : String := ",".intercalate (ns.map Nat.repr)

/-- The parts of a text between commas that are not empty, as numbers. -/
def splitInts (text : String) : Option (List Nat) :=
  (((text.toList.splitOn ',').map String.ofList).filter (· ≠ "")).mapM parseInt

/-- Numbers that were joined are split again. -/
theorem splitInts_joinInts (ns : List Nat) : splitInts (joinInts ns) = some ns := by
  have hparts : ((joinInts ns).toList.splitOn ',').map String.ofList =
      if ns = [] then [""] else ns.map Nat.repr := by
    by_cases hns : ns = []
    · subst hns
      rfl
    · have hcomma : ∀ l ∈ ns.map (Nat.toDigits 10), ',' ∉ l := by
        simp only [List.mem_map, forall_exists_index, and_imp, forall_apply_eq_imp_iff₂]
        intro n _ hc
        exact absurd (Nat.isDigit_of_mem_toDigits (by decide) (by decide) hc) (by decide)
      have htext : (joinInts ns).toList = [','].intercalate (ns.map (Nat.toDigits 10)) := by
        simp [joinInts, Function.comp_def]
      rw [htext, List.splitOn_intercalate ',' hcomma (by simpa using hns), if_neg hns, List.map_map]
      exact List.map_congr_left fun n _ => Nat.repr_eq_ofList_toDigits.symm
  rw [splitInts, hparts]
  split
  · rename_i hns
    subst hns
    rfl
  · have hne : (ns.map Nat.repr).filter (· ≠ "") = ns.map Nat.repr := by
      apply List.filter_eq_self.2
      intro s hs
      obtain ⟨n, -, rfl⟩ := List.mem_map.1 hs
      simp
    rw [hne, List.mapM_map]
    simpa using mapM_eq_some (f := parseInt ∘ Nat.repr) (g := id) fun n (_ : n ∈ ns) =>
      parseInt_repr n

/-- A number with one decimal place, ties to even. -/
def fixed1 (q : ℚ) : String :=
  let tenths : Nat := ⌊10 * |q|⌋₊
  let rest : ℚ := 10 * |q| - tenths
  let n := if rest > 1 / 2 ∨ rest = 1 / 2 ∧ tenths % 2 = 1 then tenths + 1 else tenths
  (if q < 0 then "-" else "") ++ (n / 10).repr ++ "." ++ (n % 10).repr

/-- A number in two uppercase hexadecimal digits. -/
def hexByte (n : Nat) : String := if n < 16 then "0" ++ hexUpper n else hexUpper n

/-- `bytes.hex()`. -/
def hexText (raw : Bytes) : String :=
  String.ofList (raw.flatMap fun b => [Nat.digitChar (b.toNat / 16), Nat.digitChar (b.toNat % 16)])

/-- The names of the commands in the log. -/
def commandNames : List (Nat × String) :=
  [(commandIdDataDistribution, "DATA_DISTRIBUTION"), (commandIdQccStatus, "QCC_STATUS"),
    (commandIdQccReset, "QCC_RESET"), (commandIdPrtBypass, "PRT_BYPASS"),
    (commandIdSobBypass, "SOB_BYPASS"), (commandIdPrtInternalGen, "PRT_INTERNAL_GEN"),
    (commandIdSobInternalGen, "SOB_INTERNAL_GEN"), (commandIdPpsInternalGen, "PPS_INTERNAL_GEN"),
    (commandIdRemoteProgramming, "REMOTE_PROGRAMMING")]

def commandName (value : Nat) : String :=
  (Dict.get? commandNames value).getD "UNKNOWN" ++ " (0x" ++ hexByte value ++ ")"

/-! ## Rows -/

inductive LogResult
  | ok
  | timeout
  | crcFail
  | msgNumMismatch
  | unsolicited
  deriving DecidableEq, Repr

def LogResult.text : LogResult → String
  | ok => "OK"
  | timeout => "TIMEOUT"
  | crcFail => "CRC_FAIL"
  | msgNumMismatch => "MSG_NUM_MISMATCH"
  | unsolicited => "UNSOLICITED"

theorem LogResult.text_inj {a b : LogResult} : a.text = b.text ↔ a = b := by
  cases a <;> cases b <;> decide

/-- What a row says about the QTRMs that its query addressed. -/
structure QtrmMarks where
  queried : List Qtrm
  slotOk : Qtrm → Bool

namespace QtrmMarks

variable (m : QtrmMarks)

def notOk : List Qtrm := m.queried.filter fun i => !m.slotOk i

def okCount : Nat := m.queried.length - m.notOk.length

def column (i : Qtrm) : String :=
  if i ∈ m.queried then if m.slotOk i then "OK" else "NOT_OK" else ""

/-- Every queried QTRM is counted as OK or listed as not OK. -/
theorem okCount_add : m.okCount + m.notOk.length = m.queried.length := by
  have : m.notOk.length ≤ m.queried.length := List.length_filter_le ..
  simp only [okCount]
  omega

end QtrmMarks

/-- A row; without marks, its cells for the QTRMs are empty. -/
structure LogRow where
  msgNumber : Nat
  txTimestamp : String := ""
  rxTimestamp : String := ""
  delayUs : String := ""
  qccCommand : String
  result : LogResult
  qtrm : Option QtrmMarks := none
  rxRawHex : String := ""

def csvColumns : List String :=
  ["msg_number", "tx_timestamp", "rx_timestamp", "delay_us", "qcc_command", "result",
    "qtrm_ok_count", "qtrm_not_ok_list"] ++
  (List.finRange 96).map (fun i => "qtrm_" ++ (if i.val < 10 then "0" else "") ++ i.val.repr) ++
  ["rx_raw_hex"]

namespace LogRow

variable (r : LogRow)

def okCountCell : String := (r.qtrm.map fun m => m.okCount.repr).getD ""

def notOkCell : String := (r.qtrm.map fun m => joinInts (m.notOk.map Fin.val)).getD ""

def cells : List String :=
  [r.msgNumber.repr, r.txTimestamp, r.rxTimestamp, r.delayUs, r.qccCommand, r.result.text,
    r.okCountCell, r.notOkCell] ++
  (List.finRange 96).map (fun i => (r.qtrm.map fun m => m.column i).getD "") ++
  [r.rxRawHex]

theorem cells_length : r.cells.length = csvColumns.length := by
  simp [cells, csvColumns]

end LogRow

/-- The row of a stray response. -/
structure StrayRowOf (raw : Bytes) (r : LogRow) : Prop where
  msgNumber : r.msgNumber = messageNumber raw
  rxRawHex : r.rxRawHex = hexText raw
  result : r.result = .unsolicited

/-! ## The file -/

/-- The writer's dialect. -/
def excel : Dialect Char where
  delimiter := ','
  quote := Char.ofNat 0x22
  cr := Char.ofNat 0x0D
  lf := Char.ofNat 0x0A
  distinct := by decide

/-- The text of a file with the rows `rows` under the column names. -/
def fileText (rows : List LogRow) : List Char :=
  (csvColumns :: rows.map LogRow.cells).flatMap fun cells => excel.writeRow (cells.map String.toList)

/-- A row as read: the texts by column name, `none` where the line was too short. -/
abbrev Record := Dict String (Option String)

/-- The later one of two values with the same name stays. -/
def dictRow (names fields : List String) : Record :=
  Dict.ofItems
    (names.zip (fields.map some) ++ (names.drop fields.length).map fun n => (n, none))

def loadRows (text : List Char) : List Record :=
  match (excel.read text).map (·.map String.ofList) with
  | [] => []
  | names :: records => records.map (dictRow names)

/-- A row as it is read back. -/
def LogRow.record (r : LogRow) : Record := csvColumns.zip (r.cells.map some)

theorem csvColumns_nodup : csvColumns.Nodup := by
  -- numbers are faster to compare than texts
  have hcodes : (csvColumns.map fun n => Nat.ofDigitChars 128 n.toList 0).Nodup := by decide +kernel
  exact hcodes.of_map _

theorem dictRow_cells (r : LogRow) : dictRow csvColumns r.cells = r.record := by
  have hdrop : csvColumns.drop r.cells.length = [] := by
    rw [List.drop_eq_nil_iff, r.cells_length]
  have hnames : r.record.map Prod.fst = csvColumns :=
    List.map_fst_zip (by simp [r.cells_length])
  have hnodup : (r.record.map Prod.fst).Nodup := hnames ▸ csvColumns_nodup
  rw [dictRow, hdrop, List.map_nil, List.append_nil]
  exact Dict.ofItems_of_nodup hnodup

/-- The analysis reads what was written. -/
theorem loadRows_fileText (rows : List LogRow) :
    loadRows (fileText rows) = rows.map LogRow.record := by
  have hread : excel.read (fileText rows) =
      (csvColumns :: rows.map LogRow.cells).map (·.map String.toList) := by
    rw [fileText, ← List.flatMap_map]
    apply Dialect.read_writeRows
    intro row hrow
    obtain ⟨cells, hcells, rfl⟩ := List.mem_map.1 hrow
    rcases List.mem_cons.1 hcells with rfl | hcells
    · exact List.cons_ne_nil _ _
    · obtain ⟨r, -, rfl⟩ := List.mem_map.1 hcells
      exact List.cons_ne_nil _ _
  have htexts : ∀ cells : List String, (cells.map String.toList).map String.ofList = cells := by
    intro cells
    simp
  rw [loadRows, hread]
  simp only [List.map_map, List.map_cons, htexts]
  apply List.map_congr_left
  intro r _
  simpa [Function.comp_def] using dictRow_cells r

end QccGui
