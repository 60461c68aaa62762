import Mathlib.Data.List.Basic

/-!
# Comma-separated records

The writer and the reader of a text of records, each a list of fields, with fields that hold one of
the special characters in quotes. Characters are of any type.

* `Dialect`: the four special characters.
* `Dialect.writeRow`, `Dialect.read`: the writer, and the reader as a machine over characters.
* `Dialect.readLines`: the reader that keeps empty lines, as records without fields.
* `Dialect.read_writeRows`, `Dialect.readLines_writeRows`: records that were written are read back.
-/

namespace Lib

/-- The special characters. -/
structure Dialect (α : Type) where
  delimiter : α
  quote : α
  cr : α
  lf : α
  distinct : [delimiter, quote, cr, lf].Nodup

namespace Dialect

variable {α : Type} [DecidableEq α] (d : Dialect α)

def isSpecial (a : α) : Bool := a ∈ [d.delimiter, d.quote, d.cr, d.lf]

def isNewline (a : α) : Bool := a = d.cr ∨ a = d.lf

/-! ## The writer -/

/-- The text of a field in quotes: its quotes are doubled. -/
def escape (field : List α) : List α :=
  field.flatMap fun a => if a = d.quote then [a, a] else [a]

/-- A field is quoted if it holds a special character, or if it is empty and alone in its row. -/
def writeField (alone : Bool) (field : List α) : List α :=
  if field.any d.isSpecial ∨ alone ∧ field = [] then d.quote :: d.escape field ++ [d.quote]
  else field

/-- The fields behind the first one, each with the delimiter before it. -/
def writeRest (fields : List (List α)) : List α :=
  fields.flatMap fun f => d.delimiter :: d.writeField false f

def writeRow : List (List α) → List α
  | [] => [d.cr, d.lf]
  | f :: fs => d.writeField fs.isEmpty f ++ d.writeRest fs ++ [d.cr, d.lf]

/-! ## The reader -/

inductive Mode
  | startRecord
  | startField
  | inField
  | inQuotedField
  | quoteInQuotedField
  deriving DecidableEq

/-- The reader between two characters. -/
structure Reader (α : Type) where
  mode : Mode := .startRecord
  records : List (List (List α)) := []
  fields : List (List α) := []
  field : List α := []

namespace Reader

def save (r : Reader α) : Reader α :=
  { r with mode := .startField, fields := r.fields ++ [r.field], field := [] }

def endRecord (r : Reader α) : Reader α :=
  { mode := .startRecord, records := r.records ++ [r.fields ++ [r.field]] }

def add (r : Reader α) (mode : Mode) (a : α) : Reader α :=
  { r with mode, field := r.field ++ [a] }

end Reader

/-- The first character of a field. -/
def stepStart (r : Reader α) (a : α) : Reader α :=
  if a = d.quote then { r with mode := .inQuotedField }
  else if a = d.delimiter then r.save
  else r.add .inField a

/-- One character. A line end between two records is skipped, and with it every empty line. -/
def step (r : Reader α) (a : α) : Reader α :=
  match r.mode with
  | .startRecord => if d.isNewline a then r else d.stepStart r a
  | .startField => if d.isNewline a then r.endRecord else d.stepStart r a
  | .inField =>
    if d.isNewline a then r.endRecord
    else if a = d.delimiter then r.save
    else r.add .inField a
  | .inQuotedField =>
    if a = d.quote then { r with mode := .quoteInQuotedField } else r.add .inQuotedField a
  | .quoteInQuotedField =>
    if a = d.quote then r.add .inQuotedField a
    else if d.isNewline a then r.endRecord
    else if a = d.delimiter then r.save
    else r.add .inField a

/-- The records of a text; a last line without an end counts. -/
def read (text : List α) : List (List (List α)) :=
  let r := text.foldl d.step {}
  if r.mode = .startRecord then r.records else r.endRecord.records

/-! ## Empty lines -/

/-- One character for a reader that keeps empty lines. The flag says that a carriage return has just
ended a line; a line feed behind it belongs to the same line end. -/
def stepLine (x : Reader α × Bool) (a : α) : Reader α × Bool :=
  if x.2 ∧ a = d.lf then (x.1, false)
  else
    let r := if x.1.mode = .startRecord ∧ d.isNewline a then
        { x.1 with records := x.1.records ++ [[]] }
      else d.step x.1 a
    (r, a = d.cr ∧ r.mode = .startRecord)

/-- The records of a text, an empty one for each empty line. -/
def readLines (text : List α) : List (List (List α)) :=
  let r := (text.foldl d.stepLine ({}, false)).1
  if r.mode = .startRecord then r.records else r.endRecord.records

/-! ## Reading what was written -/

section

variable {d} {r : Reader α} {f : List α}

theorem quote_not_newline : d.isNewline d.quote = false := by
  have := d.distinct
  simp [isNewline]
  grind

theorem delimiter_not_newline : d.isNewline d.delimiter = false := by
  have := d.distinct
  simp [isNewline]
  grind

theorem foldl_escape (hm : r.mode = .inQuotedField) :
    (d.escape f).foldl d.step r = { r with field := r.field ++ f } := by
  induction f generalizing r with
  | nil =>
    simp [escape]
  | cons a f ih =>
    have hcons : d.escape (a :: f) = (if a = d.quote then [a, a] else [a]) ++ d.escape f := rfl
    rw [hcons, List.foldl_append]
    by_cases ha : a = d.quote
    · have hstep : [a, a].foldl d.step r = r.add .inQuotedField a := by
        simp [step, hm, ha, Reader.add]
      rw [if_pos ha, hstep, ih rfl]
      simp [Reader.add, hm]
    · have hstep : [a].foldl d.step r = r.add .inQuotedField a := by simp [step, hm, ha]
      rw [if_neg ha, hstep, ih rfl]
      simp [Reader.add, hm]

/-- Characters that are not special, inside a field. -/
theorem foldl_plain (hm : r.mode = .inField) (hf : ∀ a ∈ f, d.isSpecial a = false) :
    f.foldl d.step r = { r with field := r.field ++ f } := by
  induction f generalizing r with
  | nil => simp
  | cons a f ih =>
    have ha := hf a (List.mem_cons_self ..)
    simp only [isSpecial, List.mem_cons, List.not_mem_nil, or_false, decide_eq_false_iff_not,
      not_or] at ha
    have hstep : d.step r a = r.add .inField a := by
      simp [step, hm, isNewline, ha]
    rw [List.foldl_cons, hstep, ih rfl fun b hb => hf b (List.mem_cons_of_mem _ hb)]
    simp [Reader.add, hm]

/-- The reader at the end of a field whose text it has read. -/
def AtEnd (r : Reader α) (f : List α) (r' : Reader α) : Prop :=
  r' = { r with mode := r'.mode, field := f } ∧
    (r'.mode = .inField ∨ r'.mode = .quoteInQuotedField ∨ r'.mode = r.mode ∧ f = [])

/-- Reading the text of a field. -/
theorem foldl_writeField {alone : Bool} (hm : r.mode = .startRecord ∨ r.mode = .startField)
    (hr : r.field = []) :
    AtEnd r f ((d.writeField alone f).foldl d.step r) ∧
      (alone = true → ((d.writeField alone f).foldl d.step r).mode ≠ r.mode) := by
  unfold writeField
  split
  · -- the quotes around the field
    have hopen : d.step r d.quote = { r with mode := .inQuotedField } := by
      rcases hm with hm | hm <;> simp [step, hm, quote_not_newline, stepStart]
    rw [List.cons_append, List.foldl_cons, hopen, List.foldl_append, foldl_escape rfl]
    simp only [List.foldl_cons, List.foldl_nil, step, if_true, hr, List.nil_append]
    refine ⟨⟨rfl, .inr (.inl rfl)⟩, fun _ => ?_⟩
    rcases hm with hm | hm <;> simp [hm]
  · rename_i hq
    simp only [List.any_eq_true, not_or, not_exists, not_and, Bool.not_eq_true] at hq
    obtain ⟨hplain, halone⟩ := hq
    cases f with
    | nil =>
      refine ⟨⟨?_, .inr (.inr ⟨rfl, rfl⟩)⟩, fun h => absurd rfl (halone h)⟩
      cases r
      cases hr
      rfl
    | cons a f =>
      have ha := hplain a (List.mem_cons_self ..)
      simp only [isSpecial, List.mem_cons, List.not_mem_nil, or_false, decide_eq_false_iff_not,
        not_or] at ha
      have hopen : d.step r a = r.add .inField a := by
        rcases hm with hm | hm <;> simp [step, hm, isNewline, stepStart, ha]
      rw [List.foldl_cons, hopen, foldl_plain rfl fun b hb => hplain b (List.mem_cons_of_mem _ hb)]
      refine ⟨⟨by simp [Reader.add, hr], .inl rfl⟩, fun _ => ?_⟩
      rcases hm with hm | hm <;> simp [Reader.add, hm]

/-- The delimiter behind a field. -/
theorem step_delimiter {r' : Reader α} (hm : r.mode = .startRecord ∨ r.mode = .startField)
    (h : AtEnd r f r') :
    d.step r' d.delimiter = ⟨.startField, r.records, r.fields ++ [f], []⟩ := by
  have hq : d.delimiter ≠ d.quote := by
    have := d.distinct
    grind
  obtain ⟨hr', hmode⟩ := h
  have hcases : r'.mode = .inField ∨ r'.mode = .quoteInQuotedField ∨ r'.mode = .startRecord ∨
      r'.mode = .startField := by grind
  rw [hr']
  rcases hcases with h | h | h | h <;>
    simp [step, stepStart, h, delimiter_not_newline, hq, Reader.save]

/-- The line end behind the last field. -/
theorem foldl_newline {r' : Reader α} (h : AtEnd r f r') (hs : r'.mode ≠ .startRecord)
    (hm : r.mode = .startRecord ∨ r.mode = .startField) :
    [d.cr, d.lf].foldl d.step r' = { records := r.records ++ [r.fields ++ [f]] } := by
  have hq : d.cr ≠ d.quote := by
    have := d.distinct
    grind
  obtain ⟨hr', hmode⟩ := h
  have hcases : r'.mode = .inField ∨ r'.mode = .quoteInQuotedField ∨ r'.mode = .startField := by
    grind
  have hcr : d.step r' d.cr = { records := r.records ++ [r.fields ++ [f]] } := by
    rw [hr']
    rcases hcases with h | h | h <;> simp [step, h, isNewline, hq, Reader.endRecord]
  rw [List.foldl_cons, hcr]
  simp [step, isNewline]

/-- The fields behind the first one, and the end of the row. -/
theorem foldl_writeRest {fs : List (List α)} {r' : Reader α} (h : AtEnd r f r')
    (hs : fs = [] → r'.mode ≠ .startRecord) (hm : r.mode = .startRecord ∨ r.mode = .startField) :
    (d.writeRest fs ++ [d.cr, d.lf]).foldl d.step r' =
      { records := r.records ++ [r.fields ++ f :: fs] } := by
  induction fs generalizing r f r' with
  | nil => exact foldl_newline h (hs rfl) hm
  | cons g fs ih =>
    have hrest : d.writeRest (g :: fs) ++ [d.cr, d.lf] =
        d.delimiter :: (d.writeField false g ++ (d.writeRest fs ++ [d.cr, d.lf])) := by
      simp [writeRest]
    rw [hrest, List.foldl_cons, step_delimiter hm h, List.foldl_append]
    have hstart : ∀ r : Reader α, r.mode = .startField → r.field = [] →
        AtEnd r g ((d.writeField false g).foldl d.step r) := fun r h₁ h₂ =>
      (foldl_writeField (.inr h₁) h₂).1
    have hend := hstart ⟨.startField, r.records, r.fields ++ [f], []⟩ rfl rfl
    have hne : ((d.writeField false g).foldl d.step
        ⟨.startField, r.records, r.fields ++ [f], []⟩).mode ≠ .startRecord := by
      intro hs
      rcases hend.2 with h | h | h
      · exact nomatch h.symm.trans hs
      · exact nomatch h.symm.trans hs
      · exact nomatch h.1.symm.trans hs
    rw [ih hend (fun _ => hne) (.inr rfl)]
    simp

/-- A row that was written is read back. -/
theorem foldl_writeRow {fs : List (List α)} (hfs : fs ≠ []) {records : List (List (List α))} :
    (d.writeRow fs).foldl d.step { records } = { records := records ++ [fs] } := by
  obtain ⟨f, fs, rfl⟩ := List.exists_cons_of_ne_nil hfs
  have hrow : d.writeRow (f :: fs) =
      d.writeField fs.isEmpty f ++ (d.writeRest fs ++ [d.cr, d.lf]) := by simp [writeRow]
  have hfield : ∀ r : Reader α, r.mode = .startRecord → r.field = [] →
      AtEnd r f ((d.writeField fs.isEmpty f).foldl d.step r) ∧
        (fs = [] → ((d.writeField fs.isEmpty f).foldl d.step r).mode ≠ .startRecord) := by
    intro r h₁ h₂
    have hwrite : AtEnd r f ((d.writeField fs.isEmpty f).foldl d.step r) ∧ (fs.isEmpty = true →
        ((d.writeField fs.isEmpty f).foldl d.step r).mode ≠ r.mode) :=
      foldl_writeField (.inl h₁) h₂
    obtain ⟨hend, halone⟩ := hwrite
    exact ⟨hend, fun hnil => h₁ ▸ halone (by simp [hnil])⟩
  obtain ⟨hend, hs⟩ := hfield { records } rfl rfl
  rw [hrow, List.foldl_append, foldl_writeRest hend hs (.inl rfl)]
  simp

/-- Rows that were written are read back. -/
theorem read_writeRows {rows : List (List (List α))} (h : ∀ row ∈ rows, row ≠ []) :
    d.read (rows.flatMap d.writeRow) = rows := by
  have hfold : ∀ records, (rows.flatMap d.writeRow).foldl d.step { records } =
      { records := records ++ rows } := by
    induction rows with
    | nil => simp
    | cons row rows ih =>
      intro records
      rw [List.flatMap_cons, List.foldl_append, foldl_writeRow (h row (List.mem_cons_self ..)),
        ih fun row hr => h row (List.mem_cons_of_mem _ hr)]
      simp
  rw [read, hfold []]
  simp

end

/-! ## Reading lines that were written -/

/-- The line ends in a text are inside quotes. -/
def Inside (r : Reader α) : List α → Prop
  | [] => True
  | a :: text => (d.isNewline a = true → r.mode = .inQuotedField) ∧ Inside (d.step r a) text

section

variable {d} {r : Reader α} {f : List α}

theorem inside_append {s t : List α} :
    d.Inside r (s ++ t) ↔ d.Inside r s ∧ d.Inside (s.foldl d.step r) t := by
  induction s generalizing r with
  | nil => simp [Inside]
  | cons a s ih => simp [Inside, ih, and_assoc]

theorem inside_of_no_newline {s : List α} (h : ∀ a ∈ s, d.isNewline a = false) : d.Inside r s := by
  induction s generalizing r with
  | nil => trivial
  | cons a s ih =>
    refine ⟨fun hn => ?_, ih fun b hb => h b (List.mem_cons_of_mem _ hb)⟩
    rw [h a (List.mem_cons_self ..)] at hn
    cases hn

/-- Inside quotes a line end does not count, so both readers do the same. -/
theorem foldl_stepLine {s : List α} (h : d.Inside r s) :
    s.foldl d.stepLine (r, false) = (s.foldl d.step r, false) := by
  induction s generalizing r with
  | nil => rfl
  | cons a s ih =>
    have hstep : d.stepLine (r, false) a = (d.step r a, false) := by
      by_cases ha : d.isNewline a = true
      · have hq : a ≠ d.quote := by
          rintro rfl
          rw [quote_not_newline] at ha
          cases ha
        simp [stepLine, h.1 ha, step, hq, Reader.add]
      · have hcr : a ≠ d.cr := by
          rintro rfl
          simp [isNewline] at ha
        simp [stepLine, ha, hcr]
    rw [List.foldl_cons, hstep, ih h.2, List.foldl_cons]

/-- Inside quotes no record ends. -/
theorem records_foldl {s : List α} (h : d.Inside r s) : (s.foldl d.step r).records = r.records := by
  induction s generalizing r with
  | nil => rfl
  | cons a s ih =>
    have hstep : (d.step r a).records = r.records := by
      by_cases ha : d.isNewline a = true
      · simp only [step, h.1 ha, Reader.add]
        split <;> rfl
      · simp only [step, ha, stepStart, Reader.save, Reader.add]
        cases r.mode <;> grind
    rw [List.foldl_cons, ih h.2, hstep]

theorem inside_escape (hm : r.mode = .inQuotedField) : d.Inside r (d.escape f) := by
  induction f generalizing r with
  | nil => trivial
  | cons a f ih =>
    have hcons : d.escape (a :: f) = (if a = d.quote then [a, a] else [a]) ++ d.escape f := rfl
    rw [hcons, inside_append]
    by_cases ha : a = d.quote
    · rw [if_pos ha]
      refine ⟨inside_of_no_newline ?_, ih ?_⟩
      · simp [ha, quote_not_newline]
      · simp [step, hm, ha, Reader.add]
    · rw [if_neg ha]
      refine ⟨⟨fun _ => hm, trivial⟩, ih ?_⟩
      simp [step, hm, ha, Reader.add]

theorem inside_writeField {alone : Bool} (hm : r.mode = .startRecord ∨ r.mode = .startField) :
    d.Inside r (d.writeField alone f) := by
  unfold writeField
  split
  · have hopen : d.step r d.quote = { r with mode := .inQuotedField } := by
      rcases hm with hm | hm <;> simp [step, hm, quote_not_newline, stepStart]
    have hquote : ∀ r : Reader α, d.Inside r [d.quote] := fun r =>
      inside_of_no_newline (by simp [quote_not_newline])
    rw [List.cons_append]
    refine ⟨fun h => ?_, ?_⟩
    · rw [quote_not_newline] at h
      cases h
    · rw [hopen, inside_append]
      exact ⟨inside_escape rfl, hquote _⟩
  · rename_i hq
    simp only [List.any_eq_true, not_or, not_exists, not_and, Bool.not_eq_true] at hq
    apply inside_of_no_newline
    intro a ha
    have hplain := hq.1 a ha
    simp only [isSpecial, List.mem_cons, List.not_mem_nil, or_false, decide_eq_false_iff_not,
      not_or] at hplain
    simp [isNewline, hplain]

/-- The fields of a row before its end. -/
theorem inside_writeRest {fs : List (List α)} {r' : Reader α} (h : AtEnd r f r')
    (hm : r.mode = .startRecord ∨ r.mode = .startField) : d.Inside r' (d.writeRest fs) := by
  induction fs generalizing r f r' with
  | nil => trivial
  | cons g fs ih =>
    have hrest : d.writeRest (g :: fs) =
        d.delimiter :: (d.writeField false g ++ d.writeRest fs) := by simp [writeRest]
    rw [hrest]
    refine ⟨fun hn => ?_, ?_⟩
    · rw [delimiter_not_newline] at hn
      cases hn
    · rw [step_delimiter hm h, inside_append]
      refine ⟨inside_writeField (.inr rfl), ?_⟩
      have hend : AtEnd ⟨.startField, r.records, r.fields ++ [f], []⟩ g
          ((d.writeField false g).foldl d.step ⟨.startField, r.records, r.fields ++ [f], []⟩) :=
        (foldl_writeField (.inr rfl) rfl).1
      exact ih hend (.inr rfl)

/-- A row that was written is read back as one line. -/
theorem foldl_stepLine_writeRow {fs : List (List α)} (hfs : fs ≠ [])
    {records : List (List (List α))} : (d.writeRow fs).foldl d.stepLine ({ records }, false) =
      ({ records := records ++ [fs] }, false) := by
  have hplain : (d.writeRow fs).foldl d.step { records } = { records := records ++ [fs] } :=
    foldl_writeRow hfs
  obtain ⟨f, fs, rfl⟩ := List.exists_cons_of_ne_nil hfs
  have hrow : d.writeRow (f :: fs) =
      (d.writeField fs.isEmpty f ++ d.writeRest fs) ++ [d.cr, d.lf] := rfl
  have hend : AtEnd { records } f ((d.writeField fs.isEmpty f).foldl d.step { records }) :=
    (foldl_writeField (.inl rfl) rfl).1
  have hin : d.Inside { records } (d.writeField fs.isEmpty f ++ d.writeRest fs) :=
    inside_append.2 ⟨inside_writeField (.inl rfl), inside_writeRest hend (.inl rfl)⟩
  rw [hrow, List.foldl_append] at hplain
  rw [hrow, List.foldl_append, foldl_stepLine hin]
  have hrec := records_foldl hin
  generalize (d.writeField fs.isEmpty f ++ d.writeRest fs).foldl d.step { records } = r
    at hplain hrec
  have hq : d.cr ≠ d.quote ∧ d.lf ≠ d.quote := by
    have := d.distinct
    grind
  have hcr : d.isNewline d.cr = true := by simp [isNewline]
  have hlf : d.isNewline d.lf = true := by simp [isNewline]
  -- a row has at least one field, and the quotes around its last one are closed
  have hmode : r.mode ≠ .startRecord ∧ r.mode ≠ .inQuotedField := by
    constructor
    · intro hm
      simp only [List.foldl_cons, List.foldl_nil, step, hm, hcr, hlf, if_true] at hplain
      simp [hplain] at hrec
    · intro hm
      simp [step, hm, hq, Reader.add] at hplain
  have hend : d.step r d.cr = r.endRecord := by
    cases hm : r.mode <;> simp_all [step]
  rw [List.foldl_cons, hend] at hplain
  have hline : d.stepLine (r, false) d.cr = (r.endRecord, true) := by
    simp [stepLine, hmode, hend, Reader.endRecord]
  have hrest : d.stepLine (r.endRecord, true) d.lf = (r.endRecord, false) := by simp [stepLine]
  rw [List.foldl_cons, hline, List.foldl_cons, hrest, List.foldl_nil, ← hplain]
  simp [step, Reader.endRecord, hlf]

/-- Rows that were written are read back, line by line. -/
theorem readLines_writeRows {rows : List (List (List α))} (h : ∀ row ∈ rows, row ≠ []) :
    d.readLines (rows.flatMap d.writeRow) = rows := by
  have hfold : ∀ records, (rows.flatMap d.writeRow).foldl d.stepLine ({ records }, false) =
      ({ records := records ++ rows }, false) := by
    induction rows with
    | nil => simp
    | cons row rows ih =>
      intro records
      rw [List.flatMap_cons, List.foldl_append,
        foldl_stepLine_writeRow (h row (List.mem_cons_self ..)),
        ih fun row hr => h row (List.mem_cons_of_mem _ hr)]
      simp
  rw [readLines, hfold []]
  simp

end

end Dialect

end Lib
