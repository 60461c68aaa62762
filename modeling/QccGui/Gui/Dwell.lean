import QccGui.Gui.LogRow
import QccGui.Gui.Slots
import QccGui.Lib.Machine
import QccGui.Lib.Table

/-!
# The table of the Dwell tab

Four channels for each of the 96 QTRMs. The table changes by edits of its cells, by clicks on the
headers of its Tx and Rx columns, and by the import of a CSV file.

* `Dwell.columns`: the columns of the table. `setData`, `onSectionClicked`: its mutations.
* `loadChannelsFromCsv`, `saveChannelsToCsv`: the import and the export.
* `importRows_eq`: an import as a table that is filled from rows.
* `Dwell.machine`: the events of the tab.
* `fits_of_run`: in every run the settings fit their fields.
-/

namespace QccGui

open Lib

namespace Dwell

/-- The settings of all QTRMs. -/
abbrev Channels := Qtrm → Fin 4 → QtrmChannel

def phaseMax : Int := 63
def attenMax : Int := 63

/-- The two bits of Control. -/
inductive Toggle
  | tx
  | rx
  deriving DecidableEq, Repr

namespace Toggle

def bit : Toggle → UInt8
  | tx => 0b10
  | rx => 0b01

def label : Toggle → String
  | tx => "Tx"
  | rx => "Rx"

/-- The bit is on. -/
def isOn (t : Toggle) (ch : QtrmChannel) : Bool := ch.control &&& t.bit ≠ 0

end Toggle

def toggles : List Toggle := [.tx, .rx]

def controlDefault : UInt8 := Toggle.tx.bit ||| Toggle.rx.bit

def defaultChannels : Channels := fun _ _ => { control := controlDefault }

inductive NumericField
  | txPhase
  | txAtten
  | rxPhase
  | rxAtten
  deriving DecidableEq, Repr

namespace NumericField

def label : NumericField → String
  | txPhase => "Tx Phase"
  | txAtten => "Tx Atten"
  | rxPhase => "Rx Phase"
  | rxAtten => "Rx Atten"

def lo : NumericField → Int := fun _ => 0

def hi : NumericField → Int
  | txPhase | rxPhase => phaseMax
  | txAtten | rxAtten => attenMax

def get (ch : QtrmChannel) : NumericField → UInt8
  | txPhase => ch.txPhase
  | txAtten => ch.txAtten
  | rxPhase => ch.rxPhase
  | rxAtten => ch.rxAtten

def set (ch : QtrmChannel) (v : UInt8) : NumericField → QtrmChannel
  | txPhase => { ch with txPhase := v }
  | txAtten => { ch with txAtten := v }
  | rxPhase => { ch with rxPhase := v }
  | rxAtten => { ch with rxAtten := v }

end NumericField

def numericChannelFields : List NumericField := [.txPhase, .txAtten, .rxPhase, .rxAtten]

/-! ## The columns -/

inductive Column
  | qtrmId
  | toggle (ch : Fin 4) (t : Toggle)
  | numeric (ch : Fin 4) (f : NumericField)
  deriving DecidableEq, Repr

def channelLabel (ch : Fin 4) (label : String) : String := "Ch" ++ (ch.val + 1).repr ++ " " ++ label

def Column.label : Column → String
  | qtrmId => "QTRM ID"
  | toggle ch t => channelLabel ch t.label
  | numeric ch f => channelLabel ch f.label

def columns : List Column :=
  .qtrmId :: (List.finRange 4).flatMap fun ch =>
    .toggle ch .tx :: .toggle ch .rx :: numericChannelFields.map (.numeric ch)

/-- A column of the table by its place. -/
abbrev Section := Fin columns.length

/-! ## Edits -/

inductive ItemRole
  | edit
  | other
  deriving DecidableEq

/-- What an editor passes on: its truth value, and what `int()` makes of it if it does. -/
structure EditValue where
  truth : Bool
  int : Option Int

def EditValue.ofBool (b : Bool) : EditValue := ⟨b, some (if b then 1 else 0)⟩

/-- The nearest number in a range. -/
def clampTo (lo hi n : Int) : Int := max lo (min hi n)

/-- The table after an edit, if it was accepted, and the message about a value out of range. -/
structure EditResult where
  channels : Channels
  accepted : Bool
  invalidData : Option String := none

def setChannel (chs : Channels) (q : Qtrm) (i : Fin 4) (ch : QtrmChannel) : Channels :=
  Function.update chs q (Function.update (chs q) i ch)

def invalidDataText (ch : Fin 4) (f : NumericField) (n : Int) : String :=
  channelLabel ch f.label ++ ": " ++ toString n ++ " exceeds " ++ toString f.lo ++ "-" ++
    toString f.hi ++ ", clamped to " ++ toString (clampTo f.lo f.hi n) ++ "."

def setData (chs : Channels) (role : ItemRole) (index : Option (Qtrm × Section))
    (value : EditValue) : EditResult :=
  match role, index with
  | .other, _ | _, none => ⟨chs, false, none⟩
  | .edit, some (q, c) =>
    match columns[c] with
    | .qtrmId => ⟨chs, false, none⟩
    | .toggle i t =>
      let ch := chs q i
      let control := if value.truth then ch.control ||| t.bit else ch.control &&& ~~~t.bit
      ⟨setChannel chs q i { ch with control }, true, none⟩
    | .numeric i f =>
      match value.int with
      | none => ⟨chs, false, none⟩
      | some n =>
        let clamped := clampTo f.lo f.hi n
        ⟨setChannel chs q i (f.set (chs q i) (byte clamped.toNat)), true,
          if clamped ≠ n then some (invalidDataText i f n) else none⟩

/-! ## Headers -/

/-- All on, all off, or mixed. -/
def aggregateState (chs : Channels) (i : Fin 4) (t : Toggle) : Option Bool :=
  let values := (List.finRange 96).map fun q => t.isOn (chs q i)
  if values.all id then some true else if !values.any id then some false else none

def onSectionClicked (chs : Channels) (c : Section) : Channels :=
  match columns[c] with
  | .toggle i t =>
    let turnOn : Bool := aggregateState chs i t ≠ some true
    (List.finRange 96).foldl
      (fun chs q => (setData chs .edit (some (q, c)) (.ofBool turnOn)).channels) chs
  | _ => chs

/-! ## The import -/

inductive CsvError
  | unreadable
  | noRows
  deriving DecidableEq, Repr

def CsvError.text : CsvError → Option String
  | unreadable => none
  | noRows => some "CSV file has no rows."

/-- A longer field is an error of the reader. -/
def fieldSizeLimit : Nat := 131072

/-- The rows of a file, an empty one for each empty line. -/
def readRows (file : ByteArray) : Option (List (List String)) :=
  (decodeUtf8Sig file).bind fun text =>
    let rows := excel.readLines text
    if rows.any (·.any fun field => fieldSizeLimit < field.length) then none
    else some (rows.map (·.map String.ofList))

/-- Where the columns are; the last one of a name counts. -/
def columnIndex (header : List String) : Dict String Nat := Dict.ofItems ((header.map strip).zipIdx)

/-- A number in its range; a text that is none counts as the lower end. -/
def clamp (value : Option Int) (lo hi : Int) : Int :=
  match value with
  | none => lo
  | some n => clampTo lo hi n

/-- The text of a cell that is there and not blank. -/
def cell (names : Dict String Nat) (row : List String) (name : String) : Option String :=
  ((names.get? name).bind fun c => row[c]?).filter fun text => strip text ≠ ""

def toQtrm (n : Int) : Option Qtrm :=
  if h : 0 ≤ n ∧ n < 96 then some ⟨n.toNat, by omega⟩ else none

/-- The QTRM that a row is for; without a column for it the rows count. -/
def qtrmIndex (names : Dict String Nat) (i : Nat) (row : List String) : Option Qtrm :=
  if row = [] then none
  else match names.get? "QTRM ID" with
    | some _ => (cell names row "QTRM ID").bind fun id => toQtrm (clamp (int? id) 0 95)
    | none => toQtrm i

def flagWarning (q : Qtrm) (i : Fin 4) (t : Toggle) (flag : Int) : String :=
  "QTRM-" ++ q.val.repr ++ ", Ch" ++ (i.val + 1).repr ++ ": " ++ t.label ++ " flag " ++
    toString flag ++ " invalid (must be 0 or 1) - defaulted to on."

/-- The number in a flag cell: 1 if the cell is missing or blank, and if it holds no number. -/
def rawFlag (names : Dict String Nat) (row : List String) (i : Fin 4) (t : Toggle) : Int :=
  match cell names row (channelLabel i t.label) with
  | none => 1
  | some text => (int? text).getD 1

def flag (names : Dict String Nat) (row : List String) (i : Fin 4) (t : Toggle) : Int :=
  let flag := rawFlag names row i t
  if flag ∉ [0, 1] then 1 else flag

def flagWarnings (names : Dict String Nat) (row : List String) (q : Qtrm) (i : Fin 4)
    (t : Toggle) : List String :=
  let flag := rawFlag names row i t
  if flag ∉ [0, 1] then [flagWarning q i t flag] else []

def numericValue (names : Dict String Nat) (row : List String) (i : Fin 4) (f : NumericField) :
    Int :=
  let raw := match cell names row (channelLabel i f.label) with
    | none => some 0
    | some text => int? text
  clamp raw f.lo f.hi

/-- One channel of a row: its flags, then its numbers. -/
def rowChannel (names : Dict String Nat) (row : List String) (i : Fin 4) : QtrmChannel :=
  let control := toggles.foldl
    (fun control t => if flag names row i t ≠ 0 then control ||| t.bit else control) 0
  numericChannelFields.foldl
    (fun ch f => f.set ch (byte (numericValue names row i f).toNat)) { control }

def rowWarnings (names : Dict String Nat) (row : List String) (q : Qtrm) : List String :=
  (List.finRange 4).flatMap fun i => toggles.flatMap fun t => flagWarnings names row q i t

def importRow (names : Dict String Nat) (acc : Channels × List String) (x : List String × Nat) :
    Channels × List String :=
  match qtrmIndex names x.2 x.1 with
  | none => acc
  | some q =>
    (Function.update acc.1 q (rowChannel names x.1), acc.2 ++ rowWarnings names x.1 q)

def importRows (names : Dict String Nat) (rows : List (List String)) : Channels × List String :=
  rows.zipIdx.foldl (importRow names) (defaultChannels, [])

def loadChannelsFromCsv (file : ByteArray) : Except CsvError (Channels × List String) :=
  match readRows file with
  | none => .error .unreadable
  | some [] => .error .noRows
  | some (header :: rows) => .ok (importRows (columnIndex header) rows)

/-! ## The export -/

def csvHeader : List String :=
  "QTRM ID" :: (List.finRange 4).flatMap fun i =>
    channelLabel i "Tx" :: channelLabel i "Rx" ::
      numericChannelFields.map fun f => channelLabel i f.label

def csvRow (q : Qtrm) (chs : Fin 4 → QtrmChannel) : List String :=
  q.val.repr :: (List.finRange 4).flatMap fun i =>
    (if Toggle.tx.isOn (chs i) then "1" else "0") :: (if Toggle.rx.isOn (chs i) then "1" else "0") ::
      numericChannelFields.map fun f => (f.get (chs i)).toNat.repr

def writeRows (rows : List (List String)) : ByteArray :=
  encodeUtf8Sig (rows.flatMap fun row => excel.writeRow (row.map String.toList))

def saveChannelsToCsv (chs : Channels) : ByteArray :=
  writeRows (csvHeader :: (List.finRange 96).map fun q => csvRow q (chs q))

/-! ## The tab -/

inductive Event
  | edited (role : ItemRole) (index : Option (Qtrm × Section)) (value : EditValue)
  | headerClicked (c : Section)
  | imported (file : ByteArray)

/-- A file that cannot be imported leaves the table as it is. -/
def step (chs : Channels) : Event → Channels
  | .edited role index value => (setData chs role index value).channels
  | .headerClicked c => onSectionClicked chs c
  | .imported file =>
    match loadChannelsFromCsv file with
    | .ok (chs, _) => chs
    | .error _ => chs

def machine : Machine Channels Event where
  enabled _ _ := True
  step := step

/-! ## An import as a table that is filled -/

section

variable {names : Dict String Nat}

/-- The QTRM that a row with its number is for. -/
def rowAddress (names : Dict String Nat) (x : List String × Nat) : Option Qtrm :=
  qtrmIndex names x.2 x.1

/-- The warnings about a row that is imported. -/
def addressedWarnings (names : Dict String Nat) (x : List String × Nat) : List String :=
  (rowAddress names x).elim [] (rowWarnings names x.1)

theorem importRows_eq (rows : List (List String)) :
    importRows names rows =
      (fill (rowAddress names) (fun x => rowChannel names x.1) defaultChannels rows.zipIdx,
        rows.zipIdx.flatMap (addressedWarnings names)) := by
  rw [importRows]
  induction rows.zipIdx using List.reverseRecOn with
  | nil => rfl
  | append_singleton xs x ih =>
    rw [List.foldl_append, ih, List.foldl_cons, List.foldl_nil, fill_snoc, List.flatMap_append,
      List.flatMap_singleton, fillRow, importRow, addressedWarnings, rowAddress]
    cases qtrmIndex names x.2 x.1 with
    | none => simp
    | some q => rfl

theorem channels_importRows (rows : List (List String)) :
    (importRows names rows).1 =
      fill (rowAddress names) (fun x => rowChannel names x.1) defaultChannels rows.zipIdx := by
  rw [importRows_eq]

theorem warnings_importRows (rows : List (List String)) :
    (importRows names rows).2 = rows.zipIdx.flatMap (addressedWarnings names) := by
  rw [importRows_eq]

end

/-! ## Settings that fit their fields -/

theorem Toggle.le_three {c : UInt8} (h : c ≤ 3) : c = 0 ∨ c = 1 ∨ c = 2 ∨ c = 3 := by
  have hc : c.toNat ≤ 3 := UInt8.le_iff_toNat_le.1 h
  simp only [← UInt8.toNat_inj]
  have h0 : (0 : UInt8).toNat = 0 := rfl
  have h1 : (1 : UInt8).toNat = 1 := rfl
  have h2 : (2 : UInt8).toNat = 2 := rfl
  have h3 : (3 : UInt8).toNat = 3 := rfl
  omega

/-- The bits of Control and no others, and the numbers up to their bounds. -/
structure ChannelFits (ch : QtrmChannel) : Prop where
  control : ch.control ≤ 3
  numeric : ∀ f : NumericField, ((f.get ch).toNat : Int) ≤ f.hi

def Fits (chs : Channels) : Prop := ∀ q i, ChannelFits (chs q i)

theorem NumericField.hi_eq (f : NumericField) : f.hi = 63 := by cases f <;> rfl

theorem NumericField.get_set (f g : NumericField) (ch : QtrmChannel) (v : UInt8) :
    g.get (f.set ch v) = if g = f then v else g.get ch := by
  cases f <;> cases g <;> rfl

theorem NumericField.control_set (f : NumericField) (ch : QtrmChannel) (v : UInt8) :
    (f.set ch v).control = ch.control := by
  cases f <;> rfl

/-- A clamped number fits a byte. -/
theorem toNat_byte_clampTo (f : NumericField) (n : Int) :
    ((byte (clampTo f.lo f.hi n).toNat).toNat : Int) = clampTo f.lo f.hi n := by
  have h : 0 ≤ clampTo f.lo f.hi n ∧ clampTo f.lo f.hi n ≤ 63 := by
    rw [f.hi_eq]
    simp only [clampTo, NumericField.lo]
    omega
  rw [byte_toNat]
  omega

theorem clampTo_le (f : NumericField) (n : Int) : clampTo f.lo f.hi n ≤ f.hi := by
  rw [f.hi_eq]
  simp only [clampTo, NumericField.lo]
  omega

theorem fits_defaultChannels : Fits defaultChannels := by
  have hdefault : ChannelFits { control := controlDefault } := by
    refine ⟨by decide, fun f => ?_⟩
    cases f <;> decide
  exact fun _ _ => hdefault

theorem Fits.setChannel {chs : Channels} (h : Fits chs) {q : Qtrm}
    {i : Fin 4} {ch : QtrmChannel} (hch : ChannelFits ch) :
    Fits (setChannel chs q i ch) := by
  intro q' i'
  by_cases hq : q' = q
  · subst hq
    by_cases hi : i' = i
    · subst hi
      simpa [Dwell.setChannel] using hch
    · simpa [Dwell.setChannel, hi] using h q' i'
  · simpa [Dwell.setChannel, hq] using h q' i'

theorem Fits.setData {chs : Channels} (h : Fits chs) (role : ItemRole)
    (index : Option (Qtrm × Section)) (value : EditValue) :
    Fits (setData chs role index value).channels := by
  unfold Dwell.setData
  split
  · exact h
  · exact h
  · rename_i q c
    dsimp only
    generalize columns[c] = col
    cases col with
    | qtrmId => exact h
    | toggle i t =>
      refine h.setChannel ⟨?_, (h q i).numeric⟩
      rcases Toggle.le_three (h q i).control with hc | hc | hc | hc <;> cases t <;>
        cases value.truth <;> simp only [hc] <;> decide
    | numeric i f =>
      cases value.int with
      | none => exact h
      | some n =>
        refine h.setChannel ⟨?_, fun g => ?_⟩
        · rw [f.control_set]
          exact (h q i).control
        · rw [NumericField.get_set]
          split
          · rename_i hg
            subst hg
            rw [toNat_byte_clampTo]
            exact clampTo_le ..
          · exact (h q i).numeric g

theorem Fits.onSectionClicked {chs : Channels} (h : Fits chs)
    (c : Section) : Fits (onSectionClicked chs c) := by
  unfold Dwell.onSectionClicked
  split
  · generalize List.finRange 96 = qs, decide (aggregateState chs _ _ ≠ some true) = turnOn
    induction qs generalizing chs with
    | nil => exact h
    | cons q qs ih =>
      have hfirst : Fits (Dwell.setData chs .edit (some (q, c)) (.ofBool turnOn)).channels :=
        h.setData _ _ _
      exact ih hfirst
  · exact h

theorem rowChannel_get (names : Dict String Nat) (row : List String) (i : Fin 4)
    (f : NumericField) :
    f.get (rowChannel names row i) = byte (numericValue names row i f).toNat := by
  cases f <;> rfl

theorem numericValue_eq (names : Dict String Nat) (row : List String) (i : Fin 4)
    (f : NumericField) : ∃ n, numericValue names row i f = clampTo f.lo f.hi n := by
  have hclamp : ∀ raw : Option Int, ∃ n, clamp raw f.lo f.hi = clampTo f.lo f.hi n := by
    intro raw
    cases raw with
    | none => exact ⟨f.lo, by rw [f.hi_eq]; rfl⟩
    | some n => exact ⟨n, rfl⟩
  exact hclamp _

theorem channelFits_rowChannel (names : Dict String Nat) (row : List String) (i : Fin 4) :
    ChannelFits (rowChannel names row i) := by
  refine ⟨?_, fun f => ?_⟩
  · have hcontrol : (rowChannel names row i).control = toggles.foldl
        (fun control t => if flag names row i t ≠ 0 then control ||| t.bit else control) 0 := rfl
    rw [hcontrol]
    simp only [toggles, List.foldl_cons, List.foldl_nil]
    split <;> split <;> decide
  · obtain ⟨n, hn⟩ := numericValue_eq names row i f
    rw [rowChannel_get, hn, toNat_byte_clampTo]
    exact clampTo_le ..

theorem fits_importRows (names : Dict String Nat) (rows : List (List String)) :
    Fits (importRows names rows).1 := by
  intro q i
  rw [channels_importRows, fill_apply]
  cases lastFor (rowAddress names) rows.zipIdx q with
  | none => exact fits_defaultChannels q i
  | some x => exact channelFits_rowChannel ..

theorem loadChannelsFromCsv_eq_ok {file : ByteArray} {x : Channels × List String} :
    loadChannelsFromCsv file = .ok x ↔
      ∃ header rows, readRows file = some (header :: rows) ∧
        importRows (columnIndex header) rows = x := by
  unfold loadChannelsFromCsv
  split <;> simp_all

/-- In every run the settings fit their fields. -/
theorem fits_of_run {tr : List (Channels × Event)} {chs : Channels}
    (h : machine.Run defaultChannels tr chs) : Fits chs := by
  refine Machine.Run.invariant' fits_defaultChannels (fun chs e hi _ => ?_) h
  cases e with
  | edited role index value => exact hi.setData role index value
  | headerClicked c => exact hi.onSectionClicked c
  | imported file =>
    show Fits (step chs (.imported file))
    cases hl : loadChannelsFromCsv file with
    | error _ => simpa [step, hl] using hi
    | ok x =>
      obtain ⟨header, rows, -, rfl⟩ := loadChannelsFromCsv_eq_ok.1 hl
      simpa [step, hl] using fits_importRows (columnIndex header) rows

end Dwell

end QccGui
