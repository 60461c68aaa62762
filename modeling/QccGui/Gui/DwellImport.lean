import QccGui.Gui.DwellRoundTrip

/-!
# Faulty CSV files in the Dwell tab

What an import makes of rows whose QTRM ID is no QTRM's, and of flags that are neither 0 nor 1.

* `hasId`: a row with the ID of a QTRM.
* `StraysOverwritten`: the ID columns in which each row without one is overwritten by a row with one.
* `import_ignores_strays`: in the files with such a column those rows can be left out; and in no others.
* `FlagCell`, `flagCells`: the flags that an import reads.
* `warnings_eq`: it warns of the whole numbers among them that are no flags.
* `flags_reported`: every invalid flag is reported if all of them are whole numbers; and only then.
-/

namespace QccGui

open Lib

namespace Dwell

/-! ## A flag of a row -/

section

variable {names : Dict String Nat}

/-- A flag that is on is on in the channel. -/
theorem isOn_rowChannel (row : List String) (i : Fin 4) (t : Toggle) :
    t.isOn (rowChannel names row i) = decide (flag names row i t ≠ 0) := by
  have hcontrol : (rowChannel names row i).control = toggles.foldl
      (fun control t => if flag names row i t ≠ 0 then control ||| t.bit else control) 0 := rfl
  simp only [Toggle.isOn, hcontrol, toggles, List.foldl_cons, List.foldl_nil]
  by_cases htx : flag names row i .tx = 0 <;> by_cases hrx : flag names row i .rx = 0 <;>
    cases t <;> simp [htx, hrx, Toggle.bit] <;> decide

theorem flag_eq {row : List String} {i : Fin 4} {t : Toggle} {text : String}
    (hcell : cell names row (channelLabel i t.label) = some text) :
    flag names row i t = if int? text = some 0 then 0 else 1 := by
  rw [flag, rawFlag, hcell]
  show (if (int? text).getD 1 ∉ [0, 1] then 1 else (int? text).getD 1) = _
  cases int? text with
  | none => rfl
  | some n =>
    by_cases h0 : n = 0
    · simp [h0]
    · by_cases h1 : n = 1 <;> simp [h0, h1]

end

/-! ## Rows for no QTRM -/

/-- The cell for the QTRM ID. -/
def idCell (names : Dict String Nat) (row : List String) : Option String :=
  (names.get? "QTRM ID").bind fun c => row[c]?

/-- The cell holds a whole number from 0 to 95. -/
def isId (id : Option String) : Bool :=
  match id with
  | none => false
  | some text =>
    match int? text with
    | none => false
    | some n => 0 ≤ n ∧ n ≤ 95

/-- The QTRM that the cell is taken for: a number in its range, 0 for another text, and none if it is
blank. -/
def clampedId (id : Option String) : Option Qtrm :=
  (id.filter fun text => strip text ≠ "").bind fun text => toQtrm (clamp (int? text) 0 95)

/-- A row with the ID of a QTRM. -/
def hasId (names : Dict String Nat) (row : List String) : Bool := isId (idCell names row)

/-- In the ID column, behind every cell that is no QTRM's ID is one that is, and for the same QTRM. -/
def StraysOverwritten (ids : List (Option String)) : Prop :=
  ∀ q id, lastFor clampedId ids q = some id → isId id = true

section

variable {names : Dict String Nat} {rows : List (List String)}

/-- In a file with a column for it, the ID addresses the row. -/
theorem qtrmIndex_of_id (hid : (names.get? "QTRM ID").isSome) (i : Nat) (row : List String) :
    qtrmIndex names i row = clampedId (idCell names row) := by
  obtain ⟨c, hc⟩ := Option.isSome_iff_exists.1 hid
  by_cases hrow : row = []
  · simp [qtrmIndex, clampedId, idCell, hrow, hc]
  · simp [qtrmIndex, clampedId, idCell, cell, hrow, hc]

theorem channels_importRows_of_id (hid : (names.get? "QTRM ID").isSome)
    (rows : List (List String)) : (importRows names rows).1 =
      fill (clampedId ∘ idCell names) (rowChannel names) defaultChannels rows := by
  have haddr : rowAddress names = (clampedId ∘ idCell names) ∘ Prod.fst := by
    funext x
    exact qtrmIndex_of_id hid x.2 x.1
  have hfill : fill ((clampedId ∘ idCell names) ∘ Prod.fst) (rowChannel names ∘ Prod.fst)
      defaultChannels rows.zipIdx =
        fill (clampedId ∘ idCell names) (rowChannel names) defaultChannels rows := by
    rw [fill_map, List.zipIdx_map_fst]
  rw [channels_importRows, haddr]
  exact hfill

theorem channels_loadChannelsFromCsv {file : ByteArray} {header : List String}
    {rows : List (List String)} (h : readRows file = some (header :: rows)) :
    (loadChannelsFromCsv file).map Prod.fst =
      .ok (importRows (columnIndex header) rows).1 := by
  rw [loadChannelsFromCsv_eq_ok.2 ⟨header, rows, h, rfl⟩]
  rfl

theorem length_le_of_readRows {file : ByteArray} {rows : List (List String)}
    (h : readRows file = some rows) : ∀ row ∈ rows, ∀ text ∈ row, text.length ≤ fieldSizeLimit := by
  obtain ⟨text, -, h⟩ := Option.bind_eq_some_iff.1 h
  dsimp only at h
  split at h
  · cases h
  · rename_i hshort
    obtain rfl := Option.some.inj h
    simpa [String.length_toList] using hshort

theorem isSome_columnIndex {header : List String} (hid : "QTRM ID" ∈ header.map strip) :
    ((columnIndex header).get? "QTRM ID").isSome := by
  rw [columnIndex, Dict.isSome_get?_ofItems, List.zipIdx_map_fst]
  exact hid

/-- Where every row without a QTRM's ID is overwritten, it can be left out. -/
theorem importRows_filter (hid : (names.get? "QTRM ID").isSome)
    (h : StraysOverwritten (rows.map (idCell names))) :
    (importRows names rows).1 = (importRows names (rows.filter (hasId names))).1 := by
  rw [channels_importRows_of_id hid, channels_importRows_of_id hid, fill_filter]
  intro q row hlast hstray
  have hcell : lastFor clampedId (rows.map (idCell names)) q = some (idCell names row) := by
    rw [lastFor_map, hlast]
    rfl
  cases (h q _ hcell).symm.trans hstray

/-! ### The same ID column in another file -/

def probeHeader : List String := ["Ch1 Tx", "QTRM ID"]

/-- A row with a given ID cell that turns Tx off where that is no QTRM's ID. -/
def probeRow (id : Option String) : List String := (if isId id then "1" else "0") :: id.toList

theorem idCell_probeRow (id : Option String) : idCell (columnIndex probeHeader) (probeRow id) = id := by
  have hcol : (columnIndex probeHeader).get? "QTRM ID" = some 1 := by decide
  rw [idCell, hcol, Option.bind_some, probeRow]
  cases id <;> rfl

theorem isOn_probeRow (id : Option String) :
    Toggle.tx.isOn (rowChannel (columnIndex probeHeader) (probeRow id) 0) = isId id := by
  have hcell : cell (columnIndex probeHeader) (probeRow id) (channelLabel 0 Toggle.tx.label) =
      some (if isId id then "1" else "0") := by
    have hcol : (columnIndex probeHeader).get? (channelLabel 0 Toggle.tx.label) = some 0 := by decide
    rw [cell, hcol]
    show Option.filter _ (some (if isId id then "1" else "0")) = _
    cases isId id <;> decide
  rw [isOn_rowChannel, flag_eq hcell]
  cases isId id <;> decide

theorem idColumn_probeRows (ids : List (Option String)) :
    (ids.map probeRow).map (idCell (columnIndex probeHeader)) = ids := by
  rw [List.map_map]
  exact (List.map_congr_left fun id _ => idCell_probeRow id).trans (List.map_id _)

theorem filter_probeRows (ids : List (Option String)) :
    (ids.map probeRow).filter (hasId (columnIndex probeHeader)) = (ids.filter isId).map probeRow := by
  rw [List.filter_map]
  congr 2
  funext id
  exact congrArg isId (idCell_probeRow id)

theorem readRows_probe {ids : List (Option String)}
    (h : ∀ text, some text ∈ ids → text.length ≤ fieldSizeLimit) :
    readRows (writeRows (probeHeader :: ids.map probeRow)) =
      some (probeHeader :: ids.map probeRow) := by
  refine readRows_writeRows (fun row hrow => ?_) fun row hrow text htext => ?_
  · rcases List.mem_cons.1 hrow with rfl | hrow
    · exact List.cons_ne_nil _ _
    · obtain ⟨id, -, rfl⟩ := List.mem_map.1 hrow
      exact List.cons_ne_nil _ _
  · rcases List.mem_cons.1 hrow with rfl | hrow
    · exact (by decide : ∀ text ∈ probeHeader, text.length ≤ fieldSizeLimit) text htext
    · obtain ⟨id, hid, rfl⟩ := List.mem_map.1 hrow
      rcases List.mem_cons.1 htext with rfl | htext
      · cases isId id <;> decide
      · obtain rfl := Option.mem_toList.1 htext
        exact h text hid

/-- The probe shows every row that is not overwritten. -/
theorem straysOverwritten_of_probe {ids : List (Option String)}
    (h : (importRows (columnIndex probeHeader) (ids.map probeRow)).1 =
      (importRows (columnIndex probeHeader)
        ((ids.map probeRow).filter (hasId (columnIndex probeHeader)))).1) : StraysOverwritten ids := by
  have hid : ((columnIndex probeHeader).get? "QTRM ID").isSome := by decide
  rw [channels_importRows_of_id hid, channels_importRows_of_id hid, fill_filter] at h
  intro q id hlast
  by_contra hstray
  have hprobe : (clampedId ∘ idCell (columnIndex probeHeader)) ∘ probeRow = clampedId := by
    funext id
    exact congrArg clampedId (idCell_probeRow id)
  have hrow : lastFor (clampedId ∘ idCell (columnIndex probeHeader)) (ids.map probeRow) q =
      some (probeRow id) := by
    rw [lastFor_map, hprobe, hlast]
    rfl
  have hno : hasId (columnIndex probeHeader) (probeRow id) = false := by
    rw [hasId, idCell_probeRow]
    simpa using hstray
  have hchannel := h q _ hrow hno
  -- in the file without the row Tx is on: by the row that is last then, or by default
  have hon : Toggle.tx.isOn (((lastFor (clampedId ∘ idCell (columnIndex probeHeader))
      ((ids.map probeRow).filter (hasId (columnIndex probeHeader))) q).map
        (rowChannel (columnIndex probeHeader))).getD (defaultChannels q) 0) = true := by
    cases hkept : lastFor (clampedId ∘ idCell (columnIndex probeHeader))
        ((ids.map probeRow).filter (hasId (columnIndex probeHeader))) q with
    | none => exact (by decide : Toggle.tx.isOn { control := controlDefault } = true)
    | some row =>
      obtain ⟨hmem, hid⟩ := List.mem_filter.1 (addr_of_lastFor hkept).1
      obtain ⟨id', -, rfl⟩ := List.mem_map.1 hmem
      rw [hasId, idCell_probeRow] at hid
      exact (isOn_probeRow id').trans hid
  rw [← hchannel, isOn_probeRow] at hon
  exact hstray hon

end

/-- Every file with the ID column of this one is imported the same without the rows that have no
QTRM's ID, if in that column each of them is overwritten by a row that has; and only then. -/
theorem import_ignores_strays {file : ByteArray} {header : List String} {rows : List (List String)}
    (hread : readRows file = some (header :: rows)) :
    (∀ file₁ file₂ header₁ rows₁, readRows file₁ = some (header₁ :: rows₁) →
      "QTRM ID" ∈ header₁.map strip →
      rows₁.map (idCell (columnIndex header₁)) = rows.map (idCell (columnIndex header)) →
      readRows file₂ = some (header₁ :: rows₁.filter (hasId (columnIndex header₁))) →
      (loadChannelsFromCsv file₁).map Prod.fst = (loadChannelsFromCsv file₂).map Prod.fst) ↔
      StraysOverwritten (rows.map (idCell (columnIndex header))) := by
  constructor
  · intro h
    generalize hids : rows.map (idCell (columnIndex header)) = ids at h
    have hlen : ∀ text, some text ∈ ids → text.length ≤ fieldSizeLimit := by
      intro text htext
      rw [← hids] at htext
      obtain ⟨row, hrow, hcell⟩ := List.mem_map.1 htext
      obtain ⟨c, -, hc⟩ := Option.bind_eq_some_iff.1 hcell
      exact length_le_of_readRows hread row (List.mem_cons_of_mem _ hrow) text
        (List.mem_of_getElem? hc)
    have hread₁ := readRows_probe hlen
    have hread₂ := @readRows_probe (ids.filter isId) fun text htext =>
      hlen text (List.mem_of_mem_filter htext)
    rw [← filter_probeRows] at hread₂
    have hsame := h _ _ _ _ hread₁ (by decide) (idColumn_probeRows ids) hread₂
    rw [channels_loadChannelsFromCsv hread₁, channels_loadChannelsFromCsv hread₂,
      Except.ok.injEq] at hsame
    exact straysOverwritten_of_probe hsame
  · intro h file₁ file₂ header₁ rows₁ hread₁ hid₁ hids hread₂
    rw [channels_loadChannelsFromCsv hread₁, channels_loadChannelsFromCsv hread₂,
      importRows_filter (isSome_columnIndex hid₁) (hids ▸ h)]

/-- The last row of the file has no QTRM's ID; it is imported for QTRM 0, and turns Tx off there. -/
theorem stray_imported :
    let header := ["QTRM ID", "Ch1 Tx"]
    let rows := [["5", "1"], ["QTRM-5", "0"]]
    let rows' := rows.filter (hasId (columnIndex header))
    readRows (writeRows (header :: rows)) = some (header :: rows) ∧
      "QTRM ID" ∈ header.map strip ∧
      readRows (writeRows (header :: rows')) = some (header :: rows') ∧
      (loadChannelsFromCsv (writeRows (header :: rows))).map Prod.fst ≠
        (loadChannelsFromCsv (writeRows (header :: rows'))).map Prod.fst := by
  intro header rows rows'
  have hread : readRows (writeRows (header :: rows)) = some (header :: rows) :=
    readRows_writeRows (by decide) (by decide)
  have hread' : readRows (writeRows (header :: rows')) = some (header :: rows') :=
    readRows_writeRows (by decide) (by decide)
  refine ⟨hread, by decide, hread', fun heq => ?_⟩
  rw [channels_loadChannelsFromCsv hread, channels_loadChannelsFromCsv hread',
    Except.ok.injEq] at heq
  have hzero := congrArg (fun chs : Channels => (chs 0 0).control) heq
  exact absurd hzero (by decide)

/-- Here the row behind it is for QTRM 0. -/
theorem import_ignores_strays_overwritten :
    let header := ["QTRM ID", "Ch1 Tx"]
    let rows := [["x", "0"], ["0", "1"]]
    (loadChannelsFromCsv (writeRows (header :: rows))).map Prod.fst =
      (loadChannelsFromCsv (writeRows
        (header :: rows.filter (hasId (columnIndex header))))).map Prod.fst := by
  intro header rows
  have hread : readRows (writeRows (header :: rows)) = some (header :: rows) :=
    readRows_writeRows (by decide) (by decide)
  have hread' : readRows (writeRows (header :: rows.filter (hasId (columnIndex header)))) =
      some (header :: rows.filter (hasId (columnIndex header))) :=
    readRows_writeRows (by decide) (by decide)
  have hlast : StraysOverwritten (rows.map (idCell (columnIndex header))) := by
    intro q id hlast
    obtain ⟨hmem, hq⟩ := addr_of_lastFor hlast
    rcases List.mem_cons.1 hmem with rfl | hmem
    · obtain rfl : 0 = q := Option.some.inj ((by decide : clampedId (some "x") = some 0).symm.trans hq)
      exact absurd hlast (by decide)
    · obtain rfl := List.mem_singleton.1 hmem
      decide
  exact (import_ignores_strays hread).2 hlast _ _ header rows hread (by decide) rfl hread'


/-! ## Flags -/

/-- A flag that is written in a row: the row with its number, the bit it is for, and its text. -/
structure FlagCell where
  row : List String × Nat
  q : Qtrm
  i : Fin 4
  t : Toggle
  text : String

namespace FlagCell

/-- The text is not the number 0 or 1. -/
def invalid (c : FlagCell) : Bool := int? c.text ≠ some 0 ∧ int? c.text ≠ some 1

/-- The text is a whole number, and not 0 or 1. -/
def outOfRange (c : FlagCell) : Bool := c.invalid ∧ int? c.text ≠ none

def warning (c : FlagCell) : String := flagWarning c.q c.i c.t ((int? c.text).getD 1)

end FlagCell

/-- The flags in one row for the QTRM `q` that are not blank. -/
def rowFlagCells (names : Dict String Nat) (x : List String × Nat) (q : Qtrm) : List FlagCell :=
  (List.finRange 4).flatMap fun i => toggles.flatMap fun t =>
    ((cell names x.1 (channelLabel i t.label)).map (FlagCell.mk x q i t)).toList

/-- The flags in all rows that are imported. -/
def flagCells (names : Dict String Nat) (rows : List (List String)) : List FlagCell :=
  rows.zipIdx.flatMap fun x => (rowAddress names x).elim [] (rowFlagCells names x)

section

variable {names : Dict String Nat} {rows : List (List String)} {c : FlagCell}

theorem mem_rowFlagCells {x : List String × Nat} {q : Qtrm} :
    c ∈ rowFlagCells names x q ↔
      c.row = x ∧ c.q = q ∧ cell names x.1 (channelLabel c.i c.t.label) = some c.text := by
  simp only [rowFlagCells, List.mem_flatMap, Option.mem_toList, Option.map_eq_some_iff]
  constructor
  · rintro ⟨i, -, t, -, text, hcell, rfl⟩
    exact ⟨rfl, rfl, hcell⟩
  · rintro ⟨rfl, rfl, hcell⟩
    have htoggle : c.t ∈ toggles := by cases c.t <;> decide
    exact ⟨c.i, List.mem_finRange _, c.t, htoggle, c.text, hcell, rfl⟩

theorem mem_flagCells : c ∈ flagCells names rows ↔
    c.row ∈ rows.zipIdx ∧ rowAddress names c.row = some c.q ∧
      cell names c.row.1 (channelLabel c.i c.t.label) = some c.text := by
  rw [flagCells, List.mem_flatMap]
  constructor
  · rintro ⟨x, hx, hc⟩
    cases ha : rowAddress names x with
    | none => simp [ha] at hc
    | some q =>
      rw [ha, Option.elim_some, mem_rowFlagCells] at hc
      obtain ⟨rfl, rfl, hcell⟩ := hc
      exact ⟨hx, ha, hcell⟩
  · rintro ⟨hx, ha, hcell⟩
    refine ⟨c.row, hx, ?_⟩
    rw [ha, Option.elim_some, mem_rowFlagCells]
    exact ⟨rfl, rfl, hcell⟩

/-- A flag is reported if it is a whole number out of range. -/
theorem flagWarnings_eq (x : List String × Nat) (q : Qtrm) (i : Fin 4) (t : Toggle) :
    flagWarnings names x.1 q i t =
      ((((cell names x.1 (channelLabel i t.label)).map (FlagCell.mk x q i t)).toList).filter
        FlagCell.outOfRange).map FlagCell.warning := by
  rw [flagWarnings, rawFlag]
  cases cell names x.1 (channelLabel i t.label) with
  | none => rfl
  | some text =>
    cases hn : int? text with
    | none => simp [FlagCell.outOfRange, hn]
    | some n =>
      by_cases h0 : n = 0
      · simp [FlagCell.outOfRange, FlagCell.invalid, hn, h0]
      · by_cases h1 : n = 1
        · simp [FlagCell.outOfRange, FlagCell.invalid, hn, h1]
        · simp [FlagCell.outOfRange, FlagCell.invalid, FlagCell.warning, hn, h0, h1]

/-- An import warns of the whole numbers that are no flags, in the order of the file. -/
theorem warnings_eq : (importRows names rows).2 =
    ((flagCells names rows).filter FlagCell.outOfRange).map FlagCell.warning := by
  rw [warnings_importRows, flagCells, List.filter_flatMap, List.map_flatMap]
  apply List.flatMap_congr
  intro x _
  rw [addressedWarnings]
  cases rowAddress names x with
  | none => rfl
  | some q =>
    simp only [Option.elim_some, rowWarnings, rowFlagCells, List.filter_flatMap, List.map_flatMap,
      flagWarnings_eq]

end

/-- The channel that the row of a flag is imported as. -/
def FlagCell.channel (names : Dict String Nat) (c : FlagCell) : QtrmChannel :=
  rowChannel names c.row.1 c.i

/-- What an import of the rows `rows` as `chs` with `warnings` says about the flags in them. -/
structure FlagsReported (names : Dict String Nat) (rows : List (List String)) (chs : Channels)
    (warnings : List String) : Prop where
  count : warnings.length = ((flagCells names rows).filter FlagCell.invalid).length
  on : ∀ c ∈ flagCells names rows, c.invalid = true → c.t.isOn (c.channel names) = true
  asWritten : warnings = [] → ∀ c ∈ flagCells names rows,
    int? c.text = some (if c.t.isOn (c.channel names) then 1 else 0)
  /-- The last row for a QTRM is the one that stays. -/
  stays : ∀ c ∈ flagCells names rows, lastFor (rowAddress names) rows.zipIdx c.q = some c.row →
    chs c.q c.i = c.channel names

section

variable {names : Dict String Nat} {rows : List (List String)} {c : FlagCell}

theorem isOn_channel (hc : c ∈ flagCells names rows) :
    c.t.isOn (c.channel names) = decide (int? c.text ≠ some 0) := by
  rw [FlagCell.channel, isOn_rowChannel, flag_eq (mem_flagCells.1 hc).2.2]
  by_cases h : int? c.text = some 0 <;> simp [h]

/-- The invalid flags are those that are reported and those that are no numbers. -/
theorem length_invalid (cells : List FlagCell) : (cells.filter FlagCell.invalid).length =
    (cells.filter FlagCell.outOfRange).length +
      (cells.filter fun c => int? c.text = none).length := by
  induction cells with
  | nil => rfl
  | cons c cells ih =>
    simp only [List.filter_cons]
    cases h : int? c.text with
    | none =>
      have hinvalid : c.invalid = true := by simp [FlagCell.invalid, h]
      have hrange : c.outOfRange = false := by simp [FlagCell.outOfRange, h]
      simp only [hinvalid, hrange, if_true, decide_true, List.length_cons, ih]
      rfl
    | some n =>
      have hrange : c.outOfRange = c.invalid := by simp [FlagCell.outOfRange, h]
      rw [hrange]
      cases c.invalid with
      | false => simp [ih]
      | true =>
        simp [ih]
        omega

/-- As many flags are reported as are invalid if all of them are numbers. -/
theorem length_outOfRange_eq {cells : List FlagCell} : (cells.filter FlagCell.outOfRange).length =
    (cells.filter FlagCell.invalid).length ↔ ∀ c ∈ cells, int? c.text ≠ none := by
  have hnumbers : (cells.filter fun c => int? c.text = none).length = 0 ↔
      ∀ c ∈ cells, int? c.text ≠ none := by
    rw [List.length_eq_zero_iff, List.filter_eq_nil_iff]
    simp only [decide_eq_true_eq, ne_eq]
  rw [length_invalid, ← hnumbers]
  omega

end

/-- The invalid flags of a file are all reported if each of them is a whole number; and only then. A
flag that is no number is imported as on without a warning. -/
theorem flags_reported {file : ByteArray} {header : List String} {rows : List (List String)}
    {chs : Channels} {warnings : List String} (hread : readRows file = some (header :: rows))
    (hload : loadChannelsFromCsv file = .ok (chs, warnings)) :
    FlagsReported (columnIndex header) rows chs warnings ↔
      ∀ c ∈ flagCells (columnIndex header) rows, int? c.text ≠ none := by
  obtain ⟨header', rows', hread', himport⟩ := loadChannelsFromCsv_eq_ok.1 hload
  obtain ⟨rfl, rfl⟩ := List.cons.inj (Option.some.inj (hread.symm.trans hread'))
  have hchs : (importRows (columnIndex header) rows).1 = chs := by rw [himport]
  have hwarnings : warnings =
      ((flagCells (columnIndex header) rows).filter FlagCell.outOfRange).map FlagCell.warning := by
    rw [← warnings_eq, himport]
  have hlength : warnings.length =
      ((flagCells (columnIndex header) rows).filter FlagCell.outOfRange).length := by
    rw [hwarnings, List.length_map]
  constructor
  · intro h
    exact length_outOfRange_eq.1 (hlength.symm.trans h.count)
  · intro h
    have hcount := hlength.trans (length_outOfRange_eq.2 h)
    refine ⟨hcount, fun c hc hinvalid => ?_, fun hnone c hc => ?_, fun c hc hlast => ?_⟩
    · rw [isOn_channel hc]
      simp only [FlagCell.invalid, decide_eq_true_eq] at hinvalid
      exact decide_eq_true hinvalid.1
    · rw [hnone, List.length_nil] at hcount
      have hvalid := List.filter_eq_nil_iff.1 (List.eq_nil_of_length_eq_zero hcount.symm) c hc
      simp only [FlagCell.invalid, decide_eq_true_eq, not_and_or, not_not] at hvalid
      rw [isOn_channel hc]
      rcases hvalid with hzero | hone
      · simp [hzero]
      · simp [hone]
    · rw [← hchs, channels_importRows, fill_apply, hlast]
      rfl

/-- Tx of a channel is written as off, and it is imported as on without a warning. -/
theorem off_unreported :
    let header := ["QTRM ID", "Ch1 Tx"]
    let rows := [["5", "off"]]
    let file := writeRows (header :: rows)
    readRows file = some (header :: rows) ∧ ∃ chs, loadChannelsFromCsv file = .ok (chs, []) ∧
      Toggle.tx.isOn (chs 5 0) = true ∧ ¬ FlagsReported (columnIndex header) rows chs [] := by
  intro header rows file
  have hread : readRows file = some (header :: rows) := readRows_writeRows (by decide) (by decide)
  have hnone : (importRows (columnIndex header) rows).2 = [] := by decide
  refine ⟨hread, (importRows (columnIndex header) rows).1,
    loadChannelsFromCsv_eq_ok.2 ⟨_, _, hread, Prod.ext rfl hnone⟩, by decide, fun h => ?_⟩
  exact absurd h.count (by decide)

/-- The flag 2 is reported. -/
theorem flags_reported_two :
    let header := ["QTRM ID", "Ch1 Tx"]
    let rows := [["5", "2"], ["6", "0"]]
    FlagsReported (columnIndex header) rows (importRows (columnIndex header) rows).1
      (importRows (columnIndex header) rows).2 := by
  intro header rows
  have hread : readRows (writeRows (header :: rows)) = some (header :: rows) :=
    readRows_writeRows (by decide) (by decide)
  exact (flags_reported hread (loadChannelsFromCsv_eq_ok.2 ⟨_, _, hread, rfl⟩)).2 (by decide)

end Dwell

end QccGui
