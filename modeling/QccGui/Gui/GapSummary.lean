import QccGui.Gui.Gaps
import QccGui.Gui.IndexLists
import QccGui.Lib.Spans

/-!
# The summary of an upload's gaps

The table of gaps names the chunks that a QTRM has missed in a text such as `17-19, 240`.

* `summarizeIndices`: the loop, with the run that is still open. It raises an error (`none`) on a
  number that is too long for `str`.
* `summarizeIndices_eq`: the loop prints the runs of the list.
* `tokenIndices_text`: what a printed run stands for.
* `gapCells_read_back`: the table of an upload.
* `gap_summary_exact`: the text is read back, and its items are as few as possible.
-/

namespace QccGui

open Lib

/-- An item of the text. -/
def itemText (start prev : Nat) : Option String :=
  if prev > start then do return (← repr? start) ++ "-" ++ (← repr? prev) else repr? start

/-- The parts so far, and the run that is still open. -/
def summarizeFrom (parts : List String) (start prev : Nat) : List Nat → Option (List String)
  | [] => do return parts ++ [← itemText start prev]
  | i :: indices =>
    if i = prev + 1 then summarizeFrom parts start i indices
    else do summarizeFrom (parts ++ [← itemText start prev]) i i indices

def summarizeIndices : List Nat → Option String
  | [] => some "—"
  | first :: indices => do return ", ".intercalate (← summarizeFrom [] first first indices)

example : summarizeIndices [17, 18, 19, 240] = some "17-19, 240" := by decide +kernel

/-! ## The runs -/

/-- A run as it is printed. -/
def spanText (s : Span) : String :=
  if s.first < s.last then s.first.repr ++ "-" ++ s.last.repr else s.first.repr

theorem itemText_eq (s : Span) :
    itemText s.first s.last = if s.last < 10 ^ maxStrDigits then some (spanText s) else none := by
  have hle := s.le
  simp only [itemText, spanText, repr?_eq]
  by_cases hlast : s.last < 10 ^ maxStrDigits
  · have hfirst : s.first < 10 ^ maxStrDigits := Nat.lt_of_le_of_lt hle hlast
    rw [if_pos hlast, if_pos hlast, if_pos hfirst]
    split <;> rfl
  · by_cases hlt : s.first < s.last
    · rw [if_pos hlt, if_neg hlast, if_neg hlast]
      cases (if s.first < 10 ^ maxStrDigits then some s.first.repr else none) <;> rfl
    · have heq : s.first = s.last := by omega
      rw [if_neg hlt, heq, if_neg hlast, if_neg hlast]

/-- The loop prints the runs. -/
theorem summarizeFrom_eq (parts : List String) (s : Span) (is : List Nat) :
    summarizeFrom parts s.first s.last is =
      ((spansFrom s is).mapM fun t => itemText t.first t.last).map (parts ++ ·) := by
  induction is generalizing parts s with
  | nil =>
    rw [summarizeFrom, spansFrom, List.mapM_cons, List.mapM_nil]
    cases itemText s.first s.last <;> rfl
  | cons i is ih =>
    rw [summarizeFrom, spansFrom]
    split
    · rename_i hi
      rw [hi]
      exact ih parts s.extend
    · rw [List.mapM_cons]
      cases itemText s.first s.last with
      | none => rfl
      | some text =>
        refine (ih (parts ++ [text]) (.single i)).trans ?_
        cases (spansFrom (.single i) is).mapM fun t => itemText t.first t.last with
        | none => rfl
        | some texts => simp

/-- What is in the list is in one of the runs. -/
theorem mem_spans {indices : List Nat} {i : Nat} :
    i ∈ indices ↔ ∃ s ∈ spans indices, s.first ≤ i ∧ i ≤ s.last := by
  conv_lhs => rw [← indices_spans indices, List.mem_flatMap]
  simp only [Span.mem_indices]

/-- The loop raises an error if a number is too long, and prints all runs if none is. -/
theorem summarizeIndices_eq {indices : List Nat} (hne : indices ≠ []) :
    summarizeIndices indices = if ∀ i ∈ indices, i < 10 ^ maxStrDigits then
      some (", ".intercalate ((spans indices).map spanText)) else none := by
  have hlong : (∀ s ∈ spans indices, s.last < 10 ^ maxStrDigits) ↔
      ∀ i ∈ indices, i < 10 ^ maxStrDigits := by
    constructor
    · intro h i hi
      obtain ⟨s, hs, -, hlast⟩ := mem_spans.1 hi
      exact Nat.lt_of_le_of_lt hlast (h s hs)
    · intro h s hs
      exact h s.last (mem_spans.2 ⟨s, hs, s.le, Nat.le_refl _⟩)
  have hloop : summarizeIndices indices =
      ((spans indices).mapM fun s => itemText s.first s.last).map (", ".intercalate ·) := by
    cases indices with
    | nil => exact absurd rfl hne
    | cons first rest =>
      have hfrom := summarizeFrom_eq [] (.single first) rest
      have hid : (fun parts : List String => [] ++ parts) = id := rfl
      rw [hid, Option.map_id, id_eq] at hfrom
      rw [spans, ← hfrom]
      show summarizeIndices (first :: rest) = (summarizeFrom [] first first rest).map _
      rw [summarizeIndices]
      cases summarizeFrom [] first first rest <;> rfl
  simp only [itemText_eq, mapM_ite, hlong] at hloop
  rw [hloop]
  split <;> rfl

/-! ## Reading it back -/

theorem digits_of_repr {n : Nat} {c : Char} (hc : c ∈ n.repr.toList) : c.isDigit := by
  rw [Nat.repr_eq_ofList_toDigits, String.toList_ofList] at hc
  exact Nat.isDigit_of_mem_toDigits (by decide) (by decide) hc

theorem dash_not_mem_repr (n : Nat) : '-' ∉ n.repr.toList :=
  fun hc => absurd (digits_of_repr hc) (by decide)

theorem partitionDash_range (a b : Nat) :
    partitionDash (a.repr ++ "-" ++ b.repr) = (a.repr, b.repr) := by
  have hall : ∀ c ∈ a.repr.toList, (decide (c ≠ '-')) = true := by
    intro c hc
    exact decide_eq_true fun h => dash_not_mem_repr a (h ▸ hc)
  have htext : (a.repr ++ "-" ++ b.repr).toList = a.repr.toList ++ '-' :: b.repr.toList := by simp
  rw [partitionDash, htext, List.takeWhile_append_of_pos hall, List.dropWhile_append_of_pos hall,
    List.takeWhile_cons_of_neg (by simp), List.dropWhile_cons_of_neg (by simp), List.append_nil,
    List.drop_one, List.tail_cons, String.ofList_toList, String.ofList_toList]

/-- A printed run stands for its numbers. -/
theorem tokenIndices_text {s : Span} (h : s.last < 10 ^ maxStrDigits) :
    tokenIndices (spanText s) = rangeSet s.first (s.last + 1) := by
  have hle := s.le
  have hint : ∀ n, n ≤ s.last → int? n.repr = some (n : Int) := fun n hn =>
    int?_repr ((Nat.length_toDigits_le_iff (by decide) (by decide)).2 (Nat.lt_of_le_of_lt hn h))
  rw [tokenIndices, spanText]
  by_cases hlt : s.first < s.last
  · rw [if_pos hlt, if_pos (by simp), partitionDash_range, hint _ hle, hint _ (Nat.le_refl _)]
    dsimp only
    rw [min_eq_left (by omega), max_eq_right (by omega)]
  · rw [if_neg hlt, if_neg (dash_not_mem_repr _), hint _ hle]
    ext i
    simp only [Finset.mem_singleton, mem_rangeSet]
    omega

/-- What is in a printed run. -/
theorem char_of_spanText {s : Span} {c : Char} (hc : c ∈ (spanText s).toList) :
    c.isDigit ∨ c = '-' := by
  rw [spanText] at hc
  split at hc
  · simp only [String.toList_append, List.mem_append] at hc
    rcases hc with (hc | hc) | hc
    · exact .inl (digits_of_repr hc)
    · exact .inr (by simpa using hc)
    · exact .inl (digits_of_repr hc)
  · exact .inl (digits_of_repr hc)

/-- The parts of the text are the printed runs. -/
theorem splitCommas_joined {runs : List Span} (hne : runs ≠ []) :
    (splitCommas (", ".intercalate (runs.map spanText))).map strip = runs.map spanText := by
  have htext : (", ".intercalate (runs.map spanText)).toList =
      [',', ' '].intercalate (runs.map fun s => (spanText s).toList) := by
    simp [Function.comp_def]
  have hparts : ∀ l ∈ runs.map fun s => (spanText s).toList, ',' ∉ l := by
    intro l hl hc
    obtain ⟨s, -, rfl⟩ := List.mem_map.1 hl
    rcases char_of_spanText hc with hc | hc <;> exact absurd hc (by decide)
  have htrim : ∀ l ∈ runs.map fun s => (spanText s).toList, trimBy isSpace l = l := by
    intro l hl
    obtain ⟨s, -, rfl⟩ := List.mem_map.1 hl
    apply trimBy_eq_self
    intro c hc
    rcases char_of_spanText hc with hc | rfl
    · exact isSpace_of_isDigit hc
    · decide
  have hsplit := map_trimBy_splitOn_joined (p := isSpace) (by simpa using hne) (by decide) (by decide)
    hparts htrim
  rw [← htext] at hsplit
  have hstrip : strip ∘ String.ofList = String.ofList ∘ trimBy isSpace := by
    funext l
    simp [strip]
  rw [splitCommas, List.map_map, hstrip, ← List.map_map, hsplit, List.map_map]
  simp [Function.comp_def]

/-- The text is read back. -/
theorem parseQtrmIndexSpec_joined {indices : List Nat} (hne : indices ≠ [])
    (h : ∀ i ∈ indices, i < 10 ^ maxStrDigits) :
    parseQtrmIndexSpec (", ".intercalate ((spans indices).map spanText)) =
      (indices.map fun i : Nat => (i : Int)).toFinset := by
  have hspans : spans indices ≠ [] := by
    intro hnil
    have hflat := indices_spans indices
    rw [hnil, List.flatMap_nil] at hflat
    exact hne hflat.symm
  have hlast : ∀ s ∈ spans indices, s.last < 10 ^ maxStrDigits := fun s hs =>
    h s.last (mem_spans.2 ⟨s, hs, s.le, Nat.le_refl _⟩)
  ext i
  rw [mem_parseQtrmIndexSpec, splitCommas_joined hspans, List.mem_toFinset]
  simp only [List.mem_map, exists_exists_and_eq_and]
  constructor
  · rintro ⟨s, hs, hi⟩
    rw [tokenIndices_text (hlast s hs), mem_rangeSet] at hi
    obtain ⟨n, rfl⟩ := Int.eq_ofNat_of_zero_le (show 0 ≤ i by omega)
    exact ⟨n, mem_spans.2 ⟨s, hs, by omega, by omega⟩, rfl⟩
  · rintro ⟨n, hn, rfl⟩
    obtain ⟨s, hs, hfirst, hle⟩ := mem_spans.1 hn
    refine ⟨s, hs, ?_⟩
    rw [tokenIndices_text (hlast s hs), mem_rangeSet]
    omega

/-! ## The table -/

/-- The text is read back as the numbers, and is as short as it can be. -/
structure Summarizes (text : String) (indices : List Nat) : Prop where
  read : ∀ i : Nat, (i : Int) ∈ parseQtrmIndexSpec text ↔ i ∈ indices
  runs : indices ≠ [] → ∃ runs : List Span, text = ", ".intercalate (runs.map spanText) ∧
    runs.flatMap Span.indices = indices ∧ runs.Pairwise Span.Apart

/-- The summary of numbers in order, a dash for none. -/
theorem summarizes_of_increasing {indices : List Nat} (hs : indices.Pairwise (· < ·))
    (h : ∀ i ∈ indices, i < 10 ^ maxStrDigits) :
    ∃ text, summarizeIndices indices = some text ∧ Summarizes text indices := by
  by_cases hne : indices = []
  · subst hne
    have hdash : parseQtrmIndexSpec "—" = ∅ := by decide +kernel
    exact ⟨"—", rfl, fun i => by simp [hdash], fun hne => absurd rfl hne⟩
  · refine ⟨_, (summarizeIndices_eq hne).trans (if_pos h), fun i => ?_, fun _ =>
      ⟨spans indices, rfl, indices_spans indices, apart_spans hs⟩⟩
    rw [parseQtrmIndexSpec_joined hne h]
    simp

namespace Controller

variable {c : Controller} {q : Qtrm}

/-- The cells of a QTRM after an upload: its acks, and its failed and its missing chunks. -/
def gapCells (c : Controller) (q : Qtrm) : Option (String × String × String) := do
  let (acked, missing, failed) := c.qtrmGaps q
  return (acked.repr ++ " / " ++ c.chunkCount.repr, ← summarizeIndices failed,
    ← summarizeIndices missing)

/-- The chunks are listed in order. -/
theorem gaps_increasing (h : Entries c.chunkCount c) (q : Qtrm) :
    (c.qtrmGaps q).2.1.Pairwise (· < ·) ∧ (c.qtrmGaps q).2.2.Pairwise (· < ·) := by
  refine ⟨List.pairwise_lt_range.filter _, ?_⟩
  let failed := ((c.ackMatrix q).filter (·.2 = false)).map Prod.fst
  have hsorted : failed.mergeSort.Pairwise (· ≤ ·) := List.pairwise_mergeSort' (· ≤ ·) failed
  have hnodup : failed.mergeSort.Nodup :=
    (List.mergeSort_perm failed _).nodup_iff.2 ((h.nodup q).sublist (List.filter_sublist.map _))
  exact (hsorted.and hnodup).imp fun hx => Nat.lt_of_le_of_ne hx.1 hx.2

theorem gaps_lt (h : Entries c.chunkCount c) (q : Qtrm) :
    (∀ i ∈ (c.qtrmGaps q).2.1, i < c.chunkCount) ∧ ∀ i ∈ (c.qtrmGaps q).2.2, i < c.chunkCount := by
  refine ⟨fun i hi => ?_, fun i hi => h.lt q _ (mem_failed.1 hi)⟩
  simp only [qtrmGaps, List.mem_filter, List.mem_range] at hi
  exact hi.1

/-- What the table says of an upload of no more chunks than `str` can write. -/
theorem gapCells_read_back (h : Entries c.chunkCount c) (hn : c.chunkCount ≤ 10 ^ maxStrDigits)
    (q : Qtrm) : ∃ failed missing,
      c.gapCells q =
        some ((c.qtrmGaps q).1.repr ++ " / " ++ c.chunkCount.repr, failed, missing) ∧
      Summarizes failed (c.qtrmGaps q).2.2 ∧ Summarizes missing (c.qtrmGaps q).2.1 := by
  obtain ⟨hmissing, hfailed⟩ := gaps_increasing h q
  obtain ⟨hmlt, hflt⟩ := gaps_lt h q
  obtain ⟨failed, hf, hfread⟩ := summarizes_of_increasing hfailed fun i hi =>
    Nat.lt_of_lt_of_le (hflt i hi) hn
  obtain ⟨missing, hm, hmread⟩ := summarizes_of_increasing hmissing fun i hi =>
    Nat.lt_of_lt_of_le (hmlt i hi) hn
  refine ⟨failed, missing, ?_, hfread, hmread⟩
  rw [gapCells]
  simp only [hf, hm]
  rfl

end Controller

/-- The summary of increasing indices raises an error exactly if one of them is too long for `str`. The
text is read back as these indices, and its items are their runs, none of which goes on. -/
theorem gap_summary_exact {indices : List Nat} (hne : indices ≠ []) (hs : indices.Pairwise (· < ·)) :
    (summarizeIndices indices = none ↔ ∃ i ∈ indices, 10 ^ maxStrDigits ≤ i) ∧
      ∀ text, summarizeIndices indices = some text →
        parseQtrmIndexSpec text = (indices.map fun i : Nat => (i : Int)).toFinset ∧
        ∃ runs : List Span, text = ", ".intercalate (runs.map spanText) ∧
          runs.flatMap Span.indices = indices ∧ runs.Pairwise Span.Apart ∧
          ∀ s ∈ runs, ∀ i ∈ indices, i ≠ s.last + 1 ∧ i + 1 ≠ s.first := by
  rw [summarizeIndices_eq hne]
  by_cases h : ∀ i ∈ indices, i < 10 ^ maxStrDigits
  · rw [if_pos h]
    refine ⟨iff_of_false (Option.some_ne_none _) ?_, fun text htext => ?_⟩
    · rintro ⟨i, hi, hle⟩
      exact Nat.not_le.2 (h i hi) hle
    · obtain rfl := Option.some.inj htext
      refine ⟨parseQtrmIndexSpec_joined hne h, spans indices, rfl, indices_spans indices,
        apart_spans hs, fun s hs' i hi => ?_⟩
      obtain ⟨t, ht, hfirst, hlast⟩ := mem_spans.1 hi
      exact not_next_of_apart (apart_spans hs) hs' ht hfirst hlast
  · rw [if_neg h]
    push Not at h
    exact ⟨iff_of_true rfl h, fun text htext => absurd htext.symm (Option.some_ne_none text)⟩

/-- Three runs, the last of a single chunk. -/
theorem gap_summary_exact_runs :
    let indices := [3, 17, 18, 19, 240]
    (summarizeIndices indices = none ↔ ∃ i ∈ indices, 10 ^ maxStrDigits ≤ i) ∧
      ∀ text, summarizeIndices indices = some text →
        parseQtrmIndexSpec text = (indices.map fun i : Nat => (i : Int)).toFinset ∧
        ∃ runs : List Span, text = ", ".intercalate (runs.map spanText) ∧
          runs.flatMap Span.indices = indices ∧ runs.Pairwise Span.Apart ∧
          ∀ s ∈ runs, ∀ i ∈ indices, i ≠ s.last + 1 ∧ i + 1 ≠ s.first :=
  gap_summary_exact (by decide) (by decide)

/-- An index of 4301 digits has no summary. -/
theorem long_index_not_summarized : ¬ ∀ indices : List Nat, indices ≠ [] →
    indices.Pairwise (· < ·) → ∃ text, summarizeIndices indices = some text ∧
      parseQtrmIndexSpec text = (indices.map fun i : Nat => (i : Int)).toFinset := by
  intro h
  obtain ⟨text, htext, -⟩ := h [10 ^ maxStrDigits] (List.cons_ne_nil _ _) (List.pairwise_singleton ..)
  have hlong : ¬ ∀ i ∈ [10 ^ maxStrDigits], i < 10 ^ maxStrDigits := fun h =>
    Nat.lt_irrefl _ (h _ (List.mem_cons_self ..))
  rw [summarizeIndices_eq (List.cons_ne_nil _ _), if_neg hlong] at htext
  cases htext

end QccGui
