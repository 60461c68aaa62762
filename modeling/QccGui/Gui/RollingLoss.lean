import QccGui.Gui.LogAnalysis
import QccGui.Lib.Trailing
import Mathlib.Tactic.Positivity
import Mathlib.Tactic.Linarith
import Mathlib.Algebra.Order.Field.Rat

/-!
# The rolling packet loss

The curve that the analysis tool plots over the queries of a log, with exact numbers for its floats.

* `rollingLoss`: the loop, with a running sum from which the row that leaves the window is taken.
* `lossPercent`: what an entry stands for.
* `rollingLoss_eq`: every entry is that of the rows up to its own.
* `rolling_loss_exact`: an entry counts the timeouts in its window.
-/

namespace QccGui

open Lib

inductive RollingError
  | keyError
  | indexError
  | zeroDivisionError
  deriving DecidableEq, Repr

def isTimeout (r : Record) : Bool := r.get? "result" = some (some LogResult.timeout.text)

def lossOf (r : Record) : Except RollingError ℚ :=
  match r.get? "result" with
  | none => .error .keyError
  | some text => .ok (if text = some LogResult.timeout.text then 1 else 0)

/-- The running sum without the row that has left the window. -/
def leaveWindow (losses : List ℚ) (window : Int) (i : Nat) (running : ℚ) : Except RollingError ℚ :=
  if window ≤ i then
    match losses[(i - window).toNat]? with
    | none => .error .indexError
    | some old => .ok (running - old)
  else .ok running

def rollingStep (losses : List ℚ) (window : Int) (acc : List ℚ × ℚ) (x : ℚ × Nat) :
    Except RollingError (List ℚ × ℚ) := do
  let (v, i) := x
  let running ← leaveWindow losses window i (acc.2 + v)
  let rows := min ((i : Int) + 1) window
  if rows = 0 then
    throw .zeroDivisionError
  return (acc.1 ++ [100 * running / rows], running)

def rollingLoss (queries : List Record) (window : Int) : Except RollingError (List ℚ) := do
  let losses ← queries.mapM lossOf
  let acc ← losses.zipIdx.foldlM (rollingStep losses window) ([], 0)
  return acc.1

/-! ## The loop -/

/-- The percentage in the window at the end of the rows so far. -/
def lossPercent (w : Nat) (losses : List ℚ) : ℚ :=
  100 * (trailing w losses).sum / (min losses.length w : Nat)

section

variable {losses pre rest out : List ℚ} {v : ℚ} {w : Nat}

theorem leaveWindow_eq (hw : 0 < w) (h : losses = pre ++ v :: rest) :
    leaveWindow losses w pre.length ((trailing w pre).sum + v) =
      .ok (trailing w (pre ++ [v])).sum := by
  rw [sum_trailing_snoc hw, leaveWindow]
  by_cases hle : w ≤ pre.length
  · have hindex : ((pre.length : Int) - w).toNat = pre.length - w := by omega
    have hlt : pre.length - w < pre.length := by omega
    have hget : losses[pre.length - w]? = some (pre.getD (pre.length - w) 0) := by
      rw [h, List.getElem?_append_left hlt, List.getD_eq_getElem?_getD,
        List.getElem?_eq_getElem hlt, Option.getD_some]
    rw [if_pos (by omega), if_pos hle, hindex, hget]
  · rw [if_neg (by omega), if_neg hle, sub_zero]

/-- One turn of the loop: the running sum stays that of the window. -/
theorem rollingStep_eq (hw : 0 < w) (h : losses = pre ++ v :: rest) :
    rollingStep losses w (out, (trailing w pre).sum) (v, pre.length) =
      .ok (out ++ [lossPercent w (pre ++ [v])], (trailing w (pre ++ [v])).sum) := by
  have hrows : min ((pre.length : Int) + 1) w = (min (pre ++ [v]).length w : Nat) := by
    rw [List.length_append, List.length_singleton]
    omega
  have hne : ((min (pre ++ [v]).length w : Nat) : Int) ≠ 0 := by
    rw [List.length_append, List.length_singleton]
    omega
  have hcast : (((min (pre ++ [v]).length w : Nat) : Int) : ℚ) = (min (pre ++ [v]).length w : Nat) :=
    Int.cast_natCast _
  simp only [rollingStep, leaveWindow_eq hw h, hrows, if_neg hne, hcast, lossPercent]
  rfl

/-- The loop over the rows that are left. -/
theorem foldlM_rollingStep (pre out : List ℚ) (hw : 0 < w) (h : losses = pre ++ rest) :
    (rest.zipIdx pre.length).foldlM (rollingStep losses w) (out, (trailing w pre).sum) =
      .ok (out ++ (List.range' pre.length rest.length).map
        (fun i => lossPercent w (losses.take (i + 1))), (trailing w losses).sum) := by
  induction rest generalizing pre out with
  | nil =>
    rw [List.append_nil] at h
    subst h
    simp
    rfl
  | cons v rest ih =>
    have hsnoc : losses = (pre ++ [v]) ++ rest := by rw [h, List.append_assoc]; rfl
    have hlen : (pre ++ [v]).length = pre.length + 1 := by simp
    have htake : losses.take (pre.length + 1) = pre ++ [v] := by
      rw [hsnoc, ← hlen, List.take_left]
    have hrest := ih (pre ++ [v]) (out ++ [lossPercent w (pre ++ [v])]) hsnoc
    rw [hlen] at hrest
    rw [List.zipIdx_cons, List.foldlM_cons, rollingStep_eq hw h, List.length_cons, List.range'_succ,
      List.map_cons, htake]
    refine hrest.trans ?_
    rw [List.append_assoc, List.singleton_append]

end

theorem rollingLoss_eq {queries : List Record} {losses : List ℚ} {w : Nat} (hw : 0 < w)
    (h : queries.mapM lossOf = .ok losses) :
    rollingLoss queries w =
      .ok ((List.range losses.length).map fun i => lossPercent w (losses.take (i + 1))) := by
  have hloop := foldlM_rollingStep [] [] hw (List.nil_append losses).symm
  rw [trailing_nil, List.sum_nil, List.length_nil, List.nil_append, ← List.range_eq_range'] at hloop
  rw [rollingLoss, h]
  simp only [bind, Except.bind] at hloop ⊢
  rw [hloop]
  rfl

/-! ## The definition -/

/-- What a row adds to the sum. -/
def lossValue (r : Record) : ℚ := if isTimeout r then 1 else 0

/-- The timeouts among some rows, as a number. -/
theorem sum_lossValue (rows : List Record) : (rows.map lossValue).sum = rows.countP isTimeout := by
  induction rows with
  | nil => rfl
  | cons r rows ih =>
    rw [List.map_cons, List.sum_cons, ih, List.countP_cons, lossValue]
    split
    · push_cast
      rw [add_comm]
    · rw [zero_add, Nat.add_zero]

theorem mapM_lossOf {queries : List Record} (h : ∀ r ∈ queries, (r.get? "result").isSome) :
    queries.mapM lossOf = .ok (queries.map lossValue) := by
  induction queries with
  | nil => rfl
  | cons r queries ih =>
    obtain ⟨text, htext⟩ := Option.isSome_iff_exists.1 (h r (List.mem_cons_self ..))
    have hr : lossOf r = .ok (lossValue r) := by
      simp [lossOf, lossValue, isTimeout, htext]
    rw [List.mapM_cons, hr, ih fun x hx => h x (List.mem_cons_of_mem _ hx)]
    rfl

/-- The percentage of timeouts in the window at the end of some rows. -/
theorem lossPercent_rows (w : Nat) (rows : List Record) :
    lossPercent w (rows.map lossValue) =
      100 * ((trailing w rows).countP isTimeout : ℚ) / (min rows.length w : Nat) := by
  rw [lossPercent, trailing_map, sum_lossValue, List.length_map]

theorem lossPercent_mem (w : Nat) (rows : List Record) :
    0 ≤ lossPercent w (rows.map lossValue) ∧ lossPercent w (rows.map lossValue) ≤ 100 := by
  have hcount : (trailing w rows).countP isTimeout ≤ min rows.length w :=
    List.countP_le_length.trans trailing_length.le
  have hcast : ((trailing w rows).countP isTimeout : ℚ) ≤ (min rows.length w : Nat) :=
    Nat.cast_le.2 hcount
  rw [lossPercent_rows]
  refine ⟨by positivity, ?_⟩
  apply div_le_of_le_mul₀ (Nat.cast_nonneg _) (by norm_num)
  linarith

/-- The rows that the tool plots have a result. -/
theorem result_of_query {rows : List Record} {sum : Summary} (h : summarize rows = some sum) :
    ∀ r ∈ sum.queries, (r.get? "result").isSome := by
  obtain ⟨tagged, htagged, h⟩ := Option.bind_eq_some_iff.1 h
  have hqueries : sum.queries =
      (tagged.filter fun x => x.2 ≠ some LogResult.unsolicited.text).map Prod.fst := by
    obtain ⟨_, -, h⟩ := Option.bind_eq_some_iff.1 h
    obtain ⟨_, -, h⟩ := Option.bind_eq_some_iff.1 h
    obtain ⟨_, -, h⟩ := Option.bind_eq_some_iff.1 h
    obtain ⟨_, -, h⟩ := Option.bind_eq_some_iff.1 h
    exact congrArg Summary.queries (Option.some.inj h).symm
  intro r hr
  rw [hqueries] at hr
  obtain ⟨x, hx, rfl⟩ := List.mem_map.1 hr
  obtain ⟨r, -, hr⟩ := of_mem_mapM htagged (List.mem_filter.1 hx).1
  obtain ⟨text, htext, hpair⟩ := Option.bind_eq_some_iff.1 hr
  obtain rfl : (r, text) = x := Option.some.inj hpair
  rw [htext]
  rfl

/-- The curve of a log that was summarized. -/
theorem rollingLoss_queries {rows : List Record} {sum : Summary} {w : Nat}
    (h : summarize rows = some sum) (hw : 0 < w) :
    rollingLoss sum.queries w = .ok ((List.range sum.queries.length).map fun i =>
      lossPercent w ((sum.queries.take (i + 1)).map lossValue)) := by
  rw [rollingLoss_eq hw (mapM_lossOf (result_of_query h)), List.length_map]
  simp only [List.map_take]

/-- Every entry is the percentage of timeouts in its window: the last `w` queries up to its own, or all
of them. -/
theorem rolling_loss_exact {queries : List Record} {w : Nat}
    (hq : ∀ r ∈ queries, (r.get? "result").isSome) (hw : 1 ≤ w) :
    ∃ out, rollingLoss queries w = .ok out ∧ out.length = queries.length ∧
      (∀ i, i < queries.length → out[i]? =
        some (100 * ((trailing w (queries.take (i + 1))).countP isTimeout : ℚ) /
          (min (i + 1) w : Nat))) ∧
      ∀ p ∈ out, 0 ≤ p ∧ p ≤ 100 := by
  refine ⟨_, rollingLoss_eq hw (mapM_lossOf hq), by simp, fun i hi => ?_, fun p hp => ?_⟩
  · have hlen : (queries.take (i + 1)).length = i + 1 := by
      rw [List.length_take, Nat.min_eq_left hi]
    rw [List.getElem?_map, List.length_map, List.getElem?_range hi, Option.map_some, ← List.map_take,
      lossPercent_rows, hlen]
  · obtain ⟨i, -, rfl⟩ := List.mem_map.1 hp
    rw [← List.map_take]
    exact lossPercent_mem w (queries.take (i + 1))

/-- Two of three queries without an answer, in windows of two. -/
theorem rolling_loss_exact_three :
    let row (result : String) : Record := [("result", some result)]
    let queries := [row "TIMEOUT", row "OK", row "TIMEOUT"]
    ∃ out, rollingLoss queries (2 : Nat) = .ok out ∧ out.length = queries.length ∧
      (∀ i, i < queries.length → out[i]? =
        some (100 * ((trailing 2 (queries.take (i + 1))).countP isTimeout : ℚ) /
          (min (i + 1) 2 : Nat))) ∧
      ∀ p ∈ out, 0 ≤ p ∧ p ≤ 100 :=
  rolling_loss_exact (by decide) (by decide)

end QccGui
