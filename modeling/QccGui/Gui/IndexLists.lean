import QccGui.Gui.Packet
import QccGui.Lib.Text
import Mathlib.Data.Finset.Image
import Mathlib.Data.Int.Range

/-!
# Lists of QTRM indices

The operator writes sets of QTRMs as texts such as `3,7-9, 12`: for the filter of the packet viewers,
and for the faults of the simulated responses. Each has a parser of its own.

* `parseFilterText`, `parseQtrmIndexSpec`: the two parsers.
* `tokenIndices`: what a part of a text stands for.
* `mem_parseQtrmIndexSpec`, `parseFilterText_eq`: the parsers in these terms.
* `index_parsers_agree`: they agree on the indices of QTRMs.
-/

namespace QccGui

open Lib

/-- `text.split(",")`. -/
def splitCommas (text : String) : List String := (text.toList.splitOn ',').map String.ofList

/-- The parts before and after the first dash. -/
def partitionDash (token : String) : String × String :=
  (String.ofList (token.toList.takeWhile (· ≠ '-')),
    String.ofList ((token.toList.dropWhile (· ≠ '-')).drop 1))

/-- `range(start, stop)` as a set. -/
def rangeSet (start stop : Int) : Finset Int := (Int.range start stop).toFinset

@[simp] theorem mem_rangeSet {start stop i : Int} : i ∈ rangeSet start stop ↔ start ≤ i ∧ i < stop := by
  rw [rangeSet, List.mem_toFinset, Int.mem_range_iff]

/-! ## The filter -/

def filterToken (rows : Finset Int) (token : String) : Finset Int :=
  let token := strip token
  if token = "" then rows
  else if '-' ∈ token.toList then
    let (loStr, hiStr) := partitionDash token
    match int? loStr, int? hiStr with
    | some lo, some hi =>
      let (lo, hi) := if lo > hi then (hi, lo) else (lo, hi)
      rows ∪ rangeSet (max 0 lo) (min ((numQtrm : Int) - 1) hi + 1)
    | _, _ => rows
  else
    match int? token with
    | some i => if 0 ≤ i ∧ i < numQtrm then insert i rows else rows
    | none => rows

/-- The rows to show, `none` for all. -/
def parseFilterText (text : String) : Option (Finset Int) :=
  let text := strip text
  if text = "" then none else some ((splitCommas text).foldl filterToken ∅)

def filterAcceptsRow (allowedRows : Option (Finset Int)) (row : Int) : Bool :=
  match allowedRows with
  | none => true
  | some rows => row ∈ rows

/-! ## The faults -/

def specToken (indices : Finset Int) (token : String) : Finset Int :=
  let token := strip token
  if token = "" then indices
  else if '-' ∈ token.toList then
    let (lo, hi) := partitionDash token
    match int? lo, int? hi with
    | some lo, some hi => indices ∪ rangeSet (min lo hi) (max lo hi + 1)
    | _, _ => indices
  else
    match int? token with
    | some i => insert i indices
    | none => indices

def parseQtrmIndexSpec (text : String) : Finset Int := (splitCommas text).foldl specToken ∅

example : parseQtrmIndexSpec "3,7-9, 12" = {3, 7, 8, 9, 12} := by decide +kernel

/-! ## What a text stands for -/

/-- The indices that a part of a text stands for. -/
def tokenIndices (token : String) : Finset Int :=
  if '-' ∈ token.toList then
    match int? (partitionDash token).1, int? (partitionDash token).2 with
    | some lo, some hi => rangeSet (min lo hi) (max lo hi + 1)
    | _, _ => ∅
  else
    match int? token with
    | some i => {i}
    | none => ∅

/-- A QTRM has this index. -/
def IsQtrmIndex (i : Int) : Prop := 0 ≤ i ∧ i < numQtrm

instance (i : Int) : Decidable (IsQtrmIndex i) := inferInstanceAs (Decidable (_ ∧ _))

theorem tokenIndices_empty : tokenIndices "" = ∅ := by decide +kernel

theorem specToken_eq (indices : Finset Int) (token : String) :
    specToken indices token = indices ∪ tokenIndices (strip token) := by
  generalize ht : strip token = t
  simp only [specToken, ht]
  split
  · rename_i hempty
    rw [hempty, tokenIndices_empty, Finset.union_empty]
  · unfold tokenIndices
    split
    · cases int? (partitionDash t).1 with
      | none => simp
      | some lo =>
        cases int? (partitionDash t).2 with
        | none => simp
        | some hi => rfl
    · cases int? t with
      | none => simp
      | some i =>
        dsimp only
        rw [Finset.insert_eq, Finset.union_comm]

theorem filterToken_eq (rows : Finset Int) (token : String) :
    filterToken rows token = rows ∪ (tokenIndices (strip token)).filter IsQtrmIndex := by
  generalize ht : strip token = t
  simp only [filterToken, ht]
  split
  · rename_i hempty
    rw [hempty, tokenIndices_empty, Finset.filter_empty, Finset.union_empty]
  · unfold tokenIndices
    split
    · cases int? (partitionDash t).1 with
      | none => simp
      | some lo =>
        cases int? (partitionDash t).2 with
        | none => simp
        | some hi =>
          -- clamped at both ends after the swap, or cut down afterwards
          have hrange : rangeSet (max 0 (min lo hi)) (min ((numQtrm : Int) - 1) (max lo hi) + 1) =
              (rangeSet (min lo hi) (max lo hi + 1)).filter IsQtrmIndex := by
            ext i
            simp only [mem_rangeSet, Finset.mem_filter, IsQtrmIndex]
            omega
          have hswap : (if lo > hi then (hi, lo) else (lo, hi)) = (min lo hi, max lo hi) := by
            split
            · rw [min_eq_right (by omega), max_eq_left (by omega)]
            · rw [min_eq_left (by omega), max_eq_right (by omega)]
          simp only [hswap, hrange]
    · cases int? t with
      | none => simp
      | some i =>
        dsimp only
        rw [Finset.filter_singleton]
        by_cases hi : IsQtrmIndex i
        · have hcond : 0 ≤ i ∧ i < numQtrm := hi
          rw [if_pos hi, if_pos hcond, Finset.insert_eq, Finset.union_comm]
        · have hcond : ¬(0 ≤ i ∧ i < numQtrm) := hi
          rw [if_neg hi, if_neg hcond, Finset.union_empty]

/-- Sets that are joined one after the other. -/
theorem mem_foldl_union {α : Type} {f : α → Finset Int} {l : List α} {s : Finset Int} {i : Int} :
    i ∈ l.foldl (fun s a => s ∪ f a) s ↔ i ∈ s ∨ ∃ a ∈ l, i ∈ f a := by
  induction l generalizing s with
  | nil => simp
  | cons a l ih =>
    rw [List.foldl_cons, ih, Finset.mem_union, or_assoc]
    simp

theorem mem_parseQtrmIndexSpec {text : String} {i : Int} :
    i ∈ parseQtrmIndexSpec text ↔ ∃ token ∈ (splitCommas text).map strip, i ∈ tokenIndices token := by
  have hstep : specToken = fun s token => s ∪ tokenIndices (strip token) := by
    funext s token
    exact specToken_eq s token
  rw [parseQtrmIndexSpec, hstep, mem_foldl_union]
  simp

theorem splitCommas_strip (text : String) :
    (splitCommas (strip text)).map strip = (splitCommas text).map strip := by
  have hmap : ∀ l : List Char, (l.splitOn ',').map (strip ∘ String.ofList) =
      ((l.splitOn ',').map (trimBy isSpace)).map String.ofList := by
    intro l
    rw [List.map_map]
    apply List.map_congr_left
    intro part _
    simp [strip]
  have htrim : trimBy isSpace text.toList = (strip text).toList := by simp [strip]
  rw [splitCommas, splitCommas, List.map_map, List.map_map, hmap, hmap, ← htrim,
    map_trimBy_splitOn (by decide)]

/-- The filter in terms of the other parser. -/
theorem parseFilterText_eq (text : String) :
    parseFilterText text = if strip text = "" then none
      else some ((parseQtrmIndexSpec text).filter IsQtrmIndex) := by
  have hstep : filterToken = fun s token => s ∪ (tokenIndices (strip token)).filter IsQtrmIndex := by
    funext s token
    exact filterToken_eq s token
  have hrows : (splitCommas (strip text)).foldl filterToken ∅ =
      (parseQtrmIndexSpec text).filter IsQtrmIndex := by
    ext i
    rw [hstep, mem_foldl_union, Finset.mem_filter, mem_parseQtrmIndexSpec, ← splitCommas_strip]
    simp only [Finset.notMem_empty, false_or, Finset.mem_filter, List.mem_map,
      exists_exists_and_eq_and, ← and_assoc, exists_and_right]
  rw [parseFilterText, hrows]

/-- The row of a QTRM is shown if the filter is blank or lists its index. -/
theorem filterAcceptsRow_iff (text : String) (q : Qtrm) :
    filterAcceptsRow (parseFilterText text) q.val ↔
      strip text = "" ∨ (q.val : Int) ∈ parseQtrmIndexSpec text := by
  have hq : IsQtrmIndex q.val := ⟨Int.natCast_nonneg _, Int.ofNat_lt.2 q.isLt⟩
  rw [parseFilterText_eq]
  by_cases h : strip text = ""
  · simp [h, filterAcceptsRow]
  · simp [h, filterAcceptsRow, hq]

/-- A blank text is no filter; every other text filters for the indices that the other parser finds, as
far as they are those of QTRMs. -/
theorem index_parsers_agree (text : String) :
    (parseFilterText text = none ↔ strip text = "") ∧
      ∀ rows, parseFilterText text = some rows ↔ strip text ≠ "" ∧
        rows = (parseQtrmIndexSpec text).filter fun i => 0 ≤ i ∧ i ≤ 95 := by
  have hfilter : (parseQtrmIndexSpec text).filter (fun i => 0 ≤ i ∧ i ≤ 95) =
      (parseQtrmIndexSpec text).filter IsQtrmIndex := by
    apply Finset.filter_congr
    intro i _
    exact and_congr_right fun _ => Int.lt_add_one_iff.symm
  rw [parseFilterText_eq, hfilter]
  by_cases h : strip text = ""
  · simp [h]
  · simp [h, eq_comm]

end QccGui
