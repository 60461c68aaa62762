import QccGui.Gui.Dwell

/-!
# The round trip of the Dwell tab's CSV files

* `readRows_writeRows`: rows that were written are read back.
* `csvRow_eq`, `get?_csvHeader`: the export and the import agree about the columns.
* `importRows_savedRows`: the rows of a table whose settings fit are imported as that table.
* `saved_reimports`: every table that the tab can hold is imported again as it was saved.
-/

namespace QccGui

open Lib

namespace Dwell

/-! ## Reading what was written -/

/-- Rows that were written are read back, if their fields are not too long. -/
theorem readRows_writeRows {rows : List (List String)} (hne : ∀ row ∈ rows, row ≠ [])
    (hlen : ∀ row ∈ rows, ∀ text ∈ row, text.length ≤ fieldSizeLimit) :
    readRows (writeRows rows) = some rows := by
  have hread : excel.readLines (rows.flatMap fun row => excel.writeRow (row.map String.toList)) =
      rows.map (·.map String.toList) := by
    rw [← List.flatMap_map]
    apply Dialect.readLines_writeRows
    intro row hrow
    obtain ⟨texts, htexts, rfl⟩ := List.mem_map.1 hrow
    simpa using hne texts htexts
  have hfits : (rows.map (·.map String.toList)).any
      (·.any fun field => fieldSizeLimit < field.length) = false := by
    simpa [String.length_toList] using hlen
  rw [readRows, writeRows, decodeUtf8Sig_encodeUtf8Sig, Option.bind_some]
  simp only [hread, hfits, Bool.false_eq_true, if_false, List.map_map]
  simp [Function.comp_def]

/-- The number in a cell of a saved table. -/
def cellNumber (q : Qtrm) (chs : Fin 4 → QtrmChannel) : Column → Nat
  | .qtrmId => q.val
  | .toggle i t => if t.isOn (chs i) then 1 else 0
  | .numeric i f => (f.get (chs i)).toNat

/-- The export has the columns of the table, in their order. -/
theorem csvRow_eq (q : Qtrm) (chs : Fin 4 → QtrmChannel) :
    csvRow q chs = columns.map fun col => (cellNumber q chs col).repr := by
  have hflag : ∀ b : Bool, (if b then "1" else "0") = (if b then 1 else 0 : Nat).repr := by decide
  have hchannel : ∀ i : Fin 4, ((if Toggle.tx.isOn (chs i) then "1" else "0") ::
      (if Toggle.rx.isOn (chs i) then "1" else "0") ::
      numericChannelFields.map fun f => (f.get (chs i)).toNat.repr) =
      (Column.toggle i .tx :: .toggle i .rx :: numericChannelFields.map (.numeric i)).map
        fun col => (cellNumber q chs col).repr := by
    intro i
    rw [hflag, hflag]
    rfl
  rw [csvRow, columns, List.map_cons, List.map_flatMap]
  simp only [hchannel]
  rfl

theorem mem_columns (col : Column) : col ∈ columns := by
  rcases col with _ | ⟨i, t⟩ | ⟨i, f⟩
  · exact .head _
  · refine .tail _ (List.mem_flatMap.2 ⟨i, List.mem_finRange i, ?_⟩)
    cases t <;> simp
  · refine .tail _ (List.mem_flatMap.2 ⟨i, List.mem_finRange i, ?_⟩)
    cases f <;> simp [numericChannelFields]

/-- The import finds each column where the export has it. -/
theorem get?_csvHeader (col : Column) :
    (columnIndex csvHeader).get? col.label = some (columns.idxOf col) := by
  have hall : ∀ col ∈ columns,
      (columnIndex csvHeader).get? col.label = some (columns.idxOf col) := by decide +kernel
  exact hall col (mem_columns col)

theorem cellNumber_lt (q : Qtrm) (chs : Fin 4 → QtrmChannel) (col : Column) :
    cellNumber q chs col < 256 := by
  cases col with
  | qtrmId => exact Nat.lt_of_lt_of_le q.isLt (by decide)
  | toggle i t =>
    simp only [cellNumber]
    split <;> decide
  | numeric i f => exact UInt8.toNat_lt _

theorem length_repr_le {n : Nat} (hn : n < 256) : (Nat.toDigits 10 n).length ≤ 3 :=
  (Nat.length_toDigits_le_iff (by decide) (by decide)).2 (by omega)

/-- The text of a number is not blank. -/
theorem strip_repr (n : Nat) : strip n.repr = n.repr ∧ n.repr ≠ "" := by
  refine ⟨strip_eq_self fun c hc => ?_, by simp⟩
  rw [Nat.toList_repr] at hc
  exact isSpace_of_isDigit (Nat.isDigit_of_mem_toDigits (by decide) (by decide) hc)

theorem int?_cellNumber (q : Qtrm) (chs : Fin 4 → QtrmChannel) (col : Column) :
    int? (cellNumber q chs col).repr = some (cellNumber q chs col : Int) := by
  have hlen := length_repr_le (cellNumber_lt q chs col)
  exact int?_repr (hlen.trans (by decide))

/-- Each column of a saved row holds its number. -/
theorem cell_csvRow (q : Qtrm) (chs : Fin 4 → QtrmChannel) (col : Column) :
    cell (columnIndex csvHeader) (csvRow q chs) col.label =
      some (cellNumber q chs col).repr := by
  have hget : columns[columns.idxOf col]? = some col := List.getElem?_idxOf (mem_columns col)
  have hnum := strip_repr (cellNumber q chs col)
  rw [cell, get?_csvHeader, Option.bind_some, csvRow_eq, List.getElem?_map, hget]
  simp [hnum]

theorem rowAddress_csvRow (q : Qtrm) (chs : Fin 4 → QtrmChannel) (i : Nat) :
    rowAddress (columnIndex csvHeader) (csvRow q chs, i) = some q := by
  have hne : csvRow q chs ≠ [] := List.cons_ne_nil _ _
  have hid := get?_csvHeader .qtrmId
  have hcell := cell_csvRow q chs .qtrmId
  have hint := int?_cellNumber q chs .qtrmId
  have hclamp : clamp (some (q.val : Int)) 0 95 = q.val := by
    have := q.isLt
    simp only [clamp, clampTo]
    omega
  simp only [Column.label] at hid hcell
  rw [rowAddress, qtrmIndex, if_neg hne, hid]
  simp only [hcell, Option.bind_some, hint]
  have hq := q.isLt
  simp [cellNumber, hclamp, toQtrm]

theorem rawFlag_csvRow (q : Qtrm) (chs : Fin 4 → QtrmChannel) (i : Fin 4) (t : Toggle) :
    rawFlag (columnIndex csvHeader) (csvRow q chs) i t = if t.isOn (chs i) then 1 else 0 := by
  have hcell := cell_csvRow q chs (.toggle i t)
  have hint := int?_cellNumber q chs (.toggle i t)
  simp only [Column.label] at hcell
  rw [rawFlag, hcell]
  show (int? _).getD 1 = _
  rw [hint, cellNumber]
  split <;> rfl

theorem numericValue_csvRow (q : Qtrm) {chs : Fin 4 → QtrmChannel} {i : Fin 4}
    (h : ChannelFits (chs i)) (f : NumericField) :
    numericValue (columnIndex csvHeader) (csvRow q chs) i f = (f.get (chs i)).toNat := by
  have hcell := cell_csvRow q chs (.numeric i f)
  have hint := int?_cellNumber q chs (.numeric i f)
  have hle := h.numeric f
  simp only [Column.label] at hcell
  rw [numericValue, hcell]
  show clamp (int? _) _ _ = _
  rw [hint]
  simp only [cellNumber, clamp, clampTo, NumericField.lo]
  omega

/-- Control is made of its two bits. -/
theorem control_of_toggles {ch : QtrmChannel} (h : ch.control ≤ 3) :
    toggles.foldl (fun control t => if t.isOn ch then control ||| t.bit else control) 0 =
      ch.control := by
  have hbits : [(0 : UInt8), 1, 2, 3].all (fun c => toggles.foldl
      (fun control t => if c &&& t.bit ≠ 0 then control ||| t.bit else control) 0 = c) = true := by
    decide
  rw [List.all_eq_true] at hbits
  simp only [Toggle.isOn, decide_eq_true_eq]
  exact of_decide_eq_true (hbits ch.control (by simpa using Toggle.le_three h))

theorem rowChannel_csvRow (q : Qtrm) {chs : Fin 4 → QtrmChannel} {i : Fin 4}
    (h : ChannelFits (chs i)) :
    rowChannel (columnIndex csvHeader) (csvRow q chs) i = chs i := by
  have hflag : ∀ t, flag (columnIndex csvHeader) (csvRow q chs) i t ≠ 0 ↔ t.isOn (chs i) := by
    intro t
    rw [flag, rawFlag_csvRow]
    cases t.isOn (chs i) <;> decide
  have hcontrol : (rowChannel (columnIndex csvHeader) (csvRow q chs) i).control =
      (chs i).control := by
    rw [← control_of_toggles h.control]
    simp only [← hflag]
    rfl
  have hnumeric : ∀ f : NumericField,
      f.get (rowChannel (columnIndex csvHeader) (csvRow q chs) i) = f.get (chs i) := by
    intro f
    rw [rowChannel_get, numericValue_csvRow q h, Int.toNat_natCast, byte_of_toNat]
  have htxPhase := hnumeric .txPhase
  have htxAtten := hnumeric .txAtten
  have hrxPhase := hnumeric .rxPhase
  have hrxAtten := hnumeric .rxAtten
  cases hr : rowChannel (columnIndex csvHeader) (csvRow q chs) i
  cases hc : chs i
  simp_all [NumericField.get]

theorem rowWarnings_csvRow (q : Qtrm) (chs : Fin 4 → QtrmChannel) :
    rowWarnings (columnIndex csvHeader) (csvRow q chs) q = [] := by
  have hnone : ∀ i t, flagWarnings (columnIndex csvHeader) (csvRow q chs) q i t = [] := by
    intro i t
    rw [flagWarnings, rawFlag_csvRow]
    cases t.isOn (chs i) <;> rfl
  simp [rowWarnings, hnone]

/-- The rows of a saved table. -/
def savedRows (chs : Channels) : List (List String) :=
  (List.finRange 96).map fun q => csvRow q (chs q)

theorem of_mem_savedRows {chs : Channels} {x : List String × Nat}
    (h : x ∈ (savedRows chs).zipIdx) : ∃ q, x.1 = csvRow q (chs q) := by
  obtain ⟨q, -, hq⟩ := List.mem_map.1 (List.fst_mem_of_mem_zipIdx h)
  exact ⟨q, hq.symm⟩

theorem importRows_savedRows {chs : Channels} (h : Fits chs) :
    importRows (columnIndex csvHeader) (savedRows chs) = (chs, []) := by
  rw [importRows_eq]
  refine Prod.ext (fill_of_forall ?_ fun q => ?_) ?_
  · rintro ⟨row, n⟩ hx q haddr
    obtain ⟨q', rfl⟩ := of_mem_savedRows hx
    rw [rowAddress_csvRow] at haddr
    obtain rfl := Option.some.inj haddr
    funext i
    exact rowChannel_csvRow q' (h q' i)
  · have hmem : csvRow q (chs q) ∈ savedRows chs :=
      List.mem_map.2 ⟨q, List.mem_finRange q, rfl⟩
    rw [← List.zipIdx_map_fst 0 (savedRows chs)] at hmem
    obtain ⟨⟨row, n⟩, hn, hrow⟩ := List.mem_map.1 hmem
    obtain rfl : row = csvRow q (chs q) := hrow
    exact ⟨(csvRow q (chs q), n), hn, rowAddress_csvRow q (chs q) n⟩
  · rw [List.flatMap_eq_nil_iff]
    rintro ⟨row, n⟩ hx
    obtain ⟨q, rfl⟩ := of_mem_savedRows hx
    rw [addressedWarnings, rowAddress_csvRow, Option.elim_some, rowWarnings_csvRow]

/-- The fields of a saved table are short. -/
theorem readRows_saveChannelsToCsv (chs : Channels) :
    readRows (saveChannelsToCsv chs) = some (csvHeader :: savedRows chs) := by
  apply readRows_writeRows
  · intro row hrow
    rcases List.mem_cons.1 hrow with rfl | hrow
    · exact List.cons_ne_nil _ _
    · obtain ⟨q, -, rfl⟩ := List.mem_map.1 hrow
      exact List.cons_ne_nil _ _
  · intro row hrow text htext
    rcases List.mem_cons.1 hrow with rfl | hrow
    · have hheader : ∀ text ∈ csvHeader, text.length ≤ 12 := by decide +kernel
      exact (hheader text htext).trans (by decide)
    · obtain ⟨q, -, rfl⟩ := List.mem_map.1 hrow
      rw [csvRow_eq] at htext
      obtain ⟨col, -, rfl⟩ := List.mem_map.1 htext
      have hlen := length_repr_le (cellNumber_lt q (chs q) col)
      rw [← String.length_toList, Nat.toList_repr]
      exact hlen.trans (by decide)

/-- Every table that the tab can hold is imported again as it was saved, without a warning. -/
theorem saved_reimports {tr : List (Channels × Event)} {chs : Channels}
    (h : machine.Run defaultChannels tr chs) :
    loadChannelsFromCsv (saveChannelsToCsv chs) = .ok (chs, []) := by
  rw [loadChannelsFromCsv_eq_ok]
  exact ⟨_, _, readRows_saveChannelsToCsv chs, importRows_savedRows (fits_of_run h)⟩

/-- A full import, an edit out of range and a click on a header. -/
theorem saved_reimports_edited :
    let chs := machine.exec defaultChannels [.imported (saveChannelsToCsv defaultChannels),
      .edited .edit (some (5, ⟨3, by decide⟩)) ⟨true, some 99⟩, .headerClicked ⟨1, by decide⟩]
    loadChannelsFromCsv (saveChannelsToCsv chs) = .ok (chs, []) :=
  saved_reimports (Machine.Allows.run ⟨trivial, trivial, trivial, trivial⟩)

end Dwell

end QccGui
