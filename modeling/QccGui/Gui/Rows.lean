import QccGui.Gui.LogRow
import QccGui.Gui.IapPoll

/-!
# The tables of the Remote Programming tab

The rows that the replies fill: the tab is connected to the signals of the controller.

* `RemoteProgrammingTab`: the LRU results, and the link and IAP tables.
* `RemoteProgrammingTab.onLruRow`, `onOpRow`, `onOpWindowClosed`: the slots of the tab.
* `Signal.tallies`, `show_tallies`: the signals that the LRU results and the IAP table depend on.
-/

namespace QccGui

open Lib

/-- `IAP_STATUS_NAMES`. -/
def iapStatusNames : List (Nat × String) :=
  [(0, "SUCCESS"), (1, "CHAINING_MISMATCH"), (2, "UNEXPECTED_DATA_RECEIVED"),
    (3, "INVALID_ENCRYPTION_KEY"), (4, "INVALID_COMPONENT_HEADER"), (5, "BACK_LEVEL_NOT_SATISFIED"),
    (7, "DSN_BINDING_MISMATCH"), (8, "ILLEGAL_COMPONENT_SEQUENCE"),
    (9, "INSUFFICIENT_DEV_CAPABILITIES"), (10, "INCORRECT_DEVICE_ID"),
    (11, "UNSUPPORTED_BITSTREAM"), (12, "VERIFY_NOT_PERMITTED_ON_BITSTREAM"), (127, "ABORT"),
    (129, "FABRIC_PROGRAM_VERIFY_FAILED"), (130, "DEVICE_SECURITY_PROTECTED"),
    (131, "PROGRAMMING_MODE_NOT_ENABLED"), (132, "ENVM_PROGRAM_FAILED"),
    (133, "ENVM_VERIFY_FAILED"), (255, "SERVICE_PROTECTED")]

def iapStatusName (iapStatus : UInt8) : String :=
  (iapStatusNames.lookup iapStatus.toNat).getD s!"UNKNOWN({iapStatus.toNat})"

/-- `" ".join(f"{b:02X}" for b in b1_b4)`. -/
def b1b4Text (b1b4 : Bytes) : String := " ".intercalate (b1b4.map fun b => hexByte b.toNat)

/-- The tables, a row for each QTRM. A row of the link or the IAP table is its two text columns. -/
structure RemoteProgrammingTab where
  lruHasData : Bool := false
  lruResults : Qtrm → Option Slot := fun _ => none
  lruTable : Qtrm → List String := fun _ => ["—", "—", "—", "—"]
  linkTable : Qtrm → String × String := fun _ => ("Pending", "—")
  iapTable : Qtrm → String × String := fun _ => ("Pending", "—")

namespace RemoteProgrammingTab

open Controller

/-- The signal only carries LRU status responses. -/
def onLruRow (tab : RemoteProgrammingTab) (q : Qtrm) (resp : Slot) : RemoteProgrammingTab :=
  match resp with
  | .lruStatusResponse _ mfgId partNo serialNum fwVersion =>
    { tab with
      lruHasData := true
      lruResults := Function.update tab.lruResults q (some resp)
      lruTable := Function.update tab.lruTable q
        [toString mfgId.toNat, toString partNo.toNat, toString serialNum, toString fwVersion.toNat] }
  | _ => tab

/-- The row of a link check, the only one that looks at the checksum. -/
def linkRow (parsed : Slot) : String × String :=
  match parsed with
  | .mssLinkResponse base b1b4 =>
    if !base.checksumOk then ("Bad Checksum", b1b4Text b1b4) else ("Linked", b1b4Text b1b4)
  | _ => ("Unexpected", "cmd_type=0x" ++ hexByte parsed.base.commandType.toNat)

/-- The row of an IAP operation, if the reply fills one. -/
def iapRow (op : Op) (parsed : Slot) : Option (String × String) :=
  match parsed with
  | .fwUpdateResponse _ _ iapStatus => some ("Responded", iapStatusName iapStatus)
  | .errorMsg _ headerError crcError timeoutError => some
      ("Error", s!"hdr={headerError.toNat} crc={crcError.toNat} tmo={timeoutError.toNat}")
  | .mssLinkResponse _ b1b4 =>
    if op = .program then some ("Responded", "Link " ++ b1b4Text b1b4) else none
  | _ => none

def onOpRow (tab : RemoteProgrammingTab) (op : Op) (q : Qtrm) (parsed : Slot) :
    RemoteProgrammingTab :=
  if op = .linkCheck then
    { tab with linkTable := Function.update tab.linkTable q (linkRow parsed) }
  else if ¬ Polls op then tab
  else match iapRow op parsed with
    | some row => { tab with iapTable := Function.update tab.iapTable q row }
    | none => tab

/-- The rows that are still pending when the window of an operation closes. -/
def onOpWindowClosed (tab : RemoteProgrammingTab) (op : Op) : RemoteProgrammingTab :=
  if op = .linkCheck then
    { tab with linkTable := fun q =>
        let row := tab.linkTable q
        if row.1 = "Pending" then ("No Response", row.2) else row }
  else if ¬ Polls op then tab
  else
    { tab with iapTable := fun q =>
        let row := tab.iapTable q
        if row.1 = "Pending" then
          (if op = .program then "No Reply (normal)" else "No Response", row.2)
        else row }

/-- What a signal of the controller does to the tables. -/
def receive (tab : RemoteProgrammingTab) : Signal → RemoteProgrammingTab
  | .lruRowUpdated q resp => tab.onLruRow q resp
  | .opRowUpdated op q parsed => tab.onOpRow op q parsed
  | .opWindowClosed op => tab.onOpWindowClosed op
  | _ => tab

/-- The tables after the signals `out`. -/
def display (tab : RemoteProgrammingTab) (out : List Signal) : RemoteProgrammingTab :=
  out.foldl receive tab

/-- The tables in which a reply to Get LRU Info, Authenticate or Verify is shown. -/
structure Rows where
  lruResults : Qtrm → Option Slot
  lruTable : Qtrm → List String
  iapTable : Qtrm → String × String

def rows (tab : RemoteProgrammingTab) : Rows := ⟨tab.lruResults, tab.lruTable, tab.iapTable⟩

end RemoteProgrammingTab

/-- The signals that are more than a line of the log, an acknowledgement, or a reply that fills no
row but of the link check. -/
def Signal.tallies : Signal → Bool
  | .logFrame .. => false
  | .ackRecorded .. => false
  | .opRowUpdated op _ slot =>
    op ≠ .linkCheck && Controller.Polls op && (RemoteProgrammingTab.iapRow op slot).isSome
  | _ => true

namespace RemoteProgrammingTab

variable {tab tab' : RemoteProgrammingTab} {s : Signal}

/-- A signal that is not counted leaves the rows as they are. -/
theorem rows_receive (h : s.tallies = false) : (tab.receive s).rows = tab.rows := by
  cases s with
  | opRowUpdated op q slot =>
    dsimp only [receive, onOpRow]
    by_cases hl : op = .linkCheck
    · rw [if_pos hl]
      rfl
    · rw [if_neg hl]
      by_cases hp : Controller.Polls op
      · have hn : iapRow op slot = none := by
          rcases hr : iapRow op slot with _ | row
          · rfl
          · simp [Signal.tallies, hl, hp, hr] at h
        rw [if_neg (Decidable.not_not.2 hp), hn]
      · rw [if_pos hp]
  | logFrame => rfl
  | ackRecorded => rfl
  | _ => simp [Signal.tallies] at h

/-- What a signal does to the rows depends on the rows alone. -/
theorem rows_congr (h : tab.rows = tab'.rows) (s : Signal) :
    (tab.receive s).rows = (tab'.receive s).rows := by
  simp only [rows, Rows.mk.injEq] at h
  obtain ⟨h₁, h₂, h₃⟩ := h
  cases s with
  | lruRowUpdated q resp =>
    dsimp only [receive, onLruRow]
    split
    · simp [rows, h₁, h₂, h₃]
    · simp [rows, h₁, h₂, h₃]
  | opRowUpdated op q parsed =>
    dsimp only [receive, onOpRow]
    split
    · simp [rows, h₁, h₂, h₃]
    · split
      · simp [rows, h₁, h₂, h₃]
      · split
        · simp [rows, h₁, h₂, h₃]
        · simp [rows, h₁, h₂, h₃]
  | opWindowClosed op =>
    dsimp only [receive, onOpWindowClosed]
    split
    · simp [rows, h₁, h₂, h₃]
    · split
      · simp [rows, h₁, h₂, h₃]
      · simp [rows, h₁, h₂, h₃]
  | _ => simp [receive, rows, h₁, h₂, h₃]

theorem rows_display_congr (out : List Signal) (h : tab.rows = tab'.rows) :
    (tab.display out).rows = (tab'.display out).rows := by
  induction out generalizing tab tab' with
  | nil => exact h
  | cons s out ih => exact ih (rows_congr h s)

/-- The rows depend on the counted signals alone. -/
theorem rows_display (tab : RemoteProgrammingTab) (out : List Signal) :
    (tab.display out).rows = (tab.display (out.filter Signal.tallies)).rows := by
  induction out generalizing tab with
  | nil => rfl
  | cons s out ih =>
    by_cases hs : s.tallies = true
    · rw [List.filter_cons_of_pos hs]
      exact ih (tab.receive s)
    · rw [List.filter_cons_of_neg hs, ← ih tab]
      exact rows_display_congr out (rows_receive (by simpa using hs))

/-- A reply that fills the row of its QTRM takes it out of the pending ones. -/
theorem rows_ne_of_iapRow {op : Op} {q : Qtrm} {parsed : Slot} (hp : Controller.Polls op)
    (h : (iapRow op parsed).isSome = true) :
    (receive {} (.opRowUpdated op q parsed)).rows ≠ rows {} := by
  obtain ⟨row, hrow⟩ := Option.isSome_iff_exists.1 h
  have hpending : row.1 ≠ "Pending" := by
    unfold iapRow at hrow
    split at hrow
    · obtain rfl := Option.some.inj hrow
      simp
    · obtain rfl := Option.some.inj hrow
      simp
    · split at hrow
      · obtain rfl := Option.some.inj hrow
        simp
      · cases hrow
    · cases hrow
  have hlink : op ≠ .linkCheck := by
    rintro rfl
    revert hp
    decide
  intro he
  have hq := congrFun (congrArg Rows.iapTable he) q
  simp only [receive, onOpRow, if_neg hlink, hp, hrow, rows, not_true_eq_false, if_false,
    Function.update_self] at hq
  exact hpending (congrArg Prod.fst hq)

theorem rows_ne_of_lruRow {q : Qtrm} (base : SlotBase) (mfgId partNo : UInt8) (serialNum : Nat)
    (fwVersion : UInt8) : (receive {} (.lruRowUpdated q
      (.lruStatusResponse base mfgId partNo serialNum fwVersion))).rows ≠ rows {} := by
  intro he
  have hq := congrFun (congrArg Rows.lruResults he) q
  simp [receive, onLruRow, rows] at hq

end RemoteProgrammingTab

end QccGui
