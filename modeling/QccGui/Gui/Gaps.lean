import QccGui.Gui.Verdict

/-!
# The ack matrix and its gaps

What becomes of the ack matrix between an accepted `start_upload` and the next one, whatever else
happens in the meantime, and the three queries that read it.

* `qtrmGaps`: the acks, the missing and the failed chunks of one QTRM.
* `Grown`: entries are added and failures become passes, as the slots of a frame report them.
* `rows_handle`: nothing else than a frame of an upload or an accepted upload touches the matrix.
* `ack_matrix_gaps`: the matrix and its queries in every state from one upload to the next.
-/

namespace QccGui

open Lib

namespace Controller

variable {c d e : Controller} {q : Qtrm} {raw : Bytes}

/-- How many chunks a QTRM has acked, which it has not, and for which it has reported a failure. -/
def qtrmGaps (c : Controller) (q : Qtrm) : Nat × List Nat × List Nat :=
  let row := c.ackMatrix q
  ((row.filter (·.2 = true)).length,
    (List.range c.chunkCount).filter fun i => row.get? i ≠ some true,
    ((row.filter (·.2 = false)).map Prod.fst).mergeSort)

/-! ## Growth -/

/-- The matrix and the number of chunks that it is about. -/
def rows (c : Controller) : (Qtrm → Dict Nat Bool) × Nat := (c.ackMatrix, c.chunkCount)

/-- From `d` to `e` entries that are not passes have been set as `A` says. -/
structure Grown (A : Qtrm → Nat → Bool → Prop) (d e : Controller) : Prop where
  count : e.chunkCount = d.chunkCount
  entries : Entries d.chunkCount d → Entries d.chunkCount e
  entry : ∀ q i, (e.ackMatrix q).get? i = (d.ackMatrix q).get? i ∨
    ((d.ackMatrix q).get? i ≠ some true ∧ ∃ ok, (e.ackMatrix q).get? i = some ok ∧ A q i ok)

section

variable {A : Qtrm → Nat → Bool → Prop}

theorem Grown.of_rows (h : e.rows = d.rows) : Grown A d e := by
  obtain ⟨hm, hn⟩ := Prod.mk.inj h
  exact ⟨hn, fun hd => ⟨by rw [hm]; exact hd.nodup, by rw [hm]; exact hd.lt⟩,
    fun q i => .inl (by rw [hm])⟩

theorem Grown.trans (h : Grown A c d) (h' : Grown A d e) : Grown A c e := by
  refine ⟨h'.count.trans h.count, fun hc => ?_, fun q i => ?_⟩
  · have hd := h.entries hc
    rw [← h.count] at hd ⊢
    exact h'.entries hd
  · rcases h.entry q i with he | ⟨hc, ok, hd, hA⟩
    · rw [← he]
      exact h'.entry q i
    · rcases h'.entry q i with he' | ⟨-, ok', he', hA'⟩
      · exact .inr ⟨hc, ok, he'.trans hd, hA⟩
      · exact .inr ⟨hc, ok', he', hA'⟩

theorem grown_setAck {i : Nat} {ok : Bool} (hi : i < d.chunkCount) (hA : A q i ok) :
    Grown A d (d.setAck q i ok) := by
  refine ⟨(elsewhere_setAck (q := q) i ok).count, fun hd => entries_setAck hd hi q ok,
    fun q' j => ?_⟩
  unfold setAck
  split
  · rename_i hne
    rw [emit_ackMatrix]
    dsimp only
    by_cases hq : q' = q
    · subst hq
      rw [Function.update_self, Dict.get?_set]
      by_cases hj : j = i
      · subst hj
        exact .inr ⟨hne, ok, if_pos rfl, hA⟩
      · exact .inl (if_neg hj)
    · exact .inl (by rw [Function.update_of_ne hq])
  · exact .inl rfl

theorem grown_recordAck {i : Nat} {ok : Bool} (hA : A q i ok) : Grown A d (d.recordAck q i ok) := by
  unfold recordAck
  split
  · exact .of_rows rfl
  · rename_i hi
    have hset := grown_setAck (Nat.lt_of_not_le hi) hA
    dsimp only
    split
    · exact hset.trans (.of_rows (Prod.ext (ackMatrix_sendNextChunk false)
        (elsewhere_sendNextChunk (q := q) false).count))
    · exact hset

/-- A slot of an upload. -/
theorem grown_dispatchSlot {parsed : Slot} (hop : d.op = some .upload)
    (hA : ∀ base i pf, parsed = .bitstreamAck base i pf → A q i (!transferFailed pf)) :
    Grown A d (d.dispatchSlot q parsed) := by
  unfold dispatchSlot
  rw [hop]
  dsimp only
  split
  · exact grown_recordAck (hA _ _ _ rfl)
  · exact .of_rows rfl

end

/-! ## Handlers that leave the matrix alone -/

theorem rows_sendRp (cmd payload : Bytes) (text : String) :
    (c.sendRp cmd payload text).rows = c.rows := by
  obtain ⟨rc, -, h⟩ := c.sendRp_eq cmd payload text
  rw [h]
  exact next_of (P := fun d => d.rows = c.rows) rfl fun d hd => hd

theorem rows_sendNextChunk (first : Bool) : (c.sendNextChunk first).rows = c.rows :=
  Prod.ext (ackMatrix_sendNextChunk first) (elsewhere_sendNextChunk (q := 0) first).count

theorem rows_dispatchSlot (hop : d.op ≠ some .upload) (parsed : Slot) :
    (d.dispatchSlot q parsed).rows = d.rows := by
  unfold dispatchSlot
  split
  · rfl
  · split <;> rfl
  · rfl
  · rfl
  · rfl
  · rfl
  · exact absurd ‹_› hop
  · rfl

theorem rows_afterSlots : c.afterSlots.rows = c.rows := by
  unfold afterSlots
  split
  · rfl
  · rfl
  · split <;> rfl
  · rfl

/-- An accepted upload starts with an empty matrix, with a connection or without. -/
theorem rows_startUpload {image : Bytes} {golden : Bool} (h : c.Accepts (.upload image golden)) :
    (c.startOp (.upload image golden)).rows = (fun _ => [], (splitChunks image).length) := by
  obtain ⟨hop, hg, hi⟩ := h
  have hb : c.busy = false := by simp [busy, hop]
  have he : image.isEmpty = false := by simpa using hi
  simp only [startOp, startUpload, hb, hg, he, Bool.not_true, Bool.or_self, Bool.false_eq_true,
    if_false]
  exact next_of (P := fun d => d.rows = (fun _ => [], (splitChunks image).length))
    ((rows_sendRp ..).trans rfl) fun d hd => hd

theorem rows_startOp {what : Start} (h : ∀ image golden, what ≠ .upload image golden) :
    (c.startOp what).rows = c.rows := by
  have hsend : ∀ (d : Controller) rc frame text, d.rows = c.rows →
      (({ d with rc }.sendFn frame).next (·.emit (.logFrame frame true text))).rows = c.rows :=
    fun d rc frame text hd => next_of (P := fun d => d.rows = c.rows) hd fun _ h => h
  cases what with
  | upload image golden => exact absurd rfl (h image golden)
  | modeStep1 =>
    simp only [startOp, startModeStep1]
    split
    · rfl
    · exact hsend _ _ _ _ rfl
  | modeStep2 =>
    simp only [startOp, startModeStep2]
    split
    · rfl
    · exact hsend _ _ _ _ rfl
  | modeBack =>
    simp only [startOp, startModeBack]
    split
    · rfl
    · exact hsend _ _ _ _ rfl
  | _ =>
    simp only [startOp, startLinkCheck, startLruInfo, startQtrmHighSpeed, startAuthenticate,
      startVerify, startProgram, startIapPoll]
    split
    · rfl
    · exact rows_sendRp ..

theorem rows_onSlots (hop : c.op ≠ some .upload) (raw : Bytes) : (c.onSlots raw).rows = c.rows := by
  unfold onSlots
  split
  · rfl
  · rename_i slots _
    have hfolds : ∀ qs : List Qtrm, (qs.foldl (onSlot c.context slots) (c, false)).1.rows = c.rows ∧
        (qs.foldl (onSlot c.context slots) (c, false)).1.op = c.op := by
      intro qs
      refine foldl_onSlot (P := fun d => d.rows = c.rows ∧ d.op = c.op) qs ⟨rfl, rfl⟩ ?_
      rintro d q parsed - ⟨hr, ho⟩
      exact ⟨(rows_dispatchSlot (by rwa [ho]) parsed).trans hr,
        (same_dispatchSlot q parsed).op.trans ho⟩
    have hfold := hfolds (List.finRange 96)
    generalize (List.finRange 96).foldl (onSlot c.context slots) (c, false) = acc at hfold
    exact next_of (P := fun d => d.rows = c.rows) hfold.1 fun d hd => rows_afterSlots.trans hd

theorem rows_onFrame (hop : c.op ≠ some .upload) (raw : Bytes) : (c.onFrame raw).rows = c.rows := by
  unfold onFrame
  split
  · rfl
  · dsimp only
    split
    · rfl
    · rfl
    · rfl
    · rfl
    · exact rows_onSlots (c := { c with gotAnyFrame := true }) hop raw

theorem rows_onTimer : c.onTimer.rows = c.rows := by
  unfold onTimer
  split
  · rfl
  · rename_i hd _ _
    cases hd with
    | simpleTimeout =>
      dsimp only [onSimpleTimeout]
      split
      all_goals first | rfl | (split <;> rfl)
    | iapWindowClosed =>
      dsimp only [onIapWindowClosed]
      split
      · rfl
      · split
        · rfl
        · split <;> rfl
    | graceTimeout => rfl

/-- What changes the matrix is a frame of an upload or the start of an upload. -/
theorem rows_handle {ev : Event} (hf : ∀ raw, ev = .frame raw → c.op ≠ some .upload)
    (hs : ∀ image golden, ev = .start (.upload image golden) → ¬ c.Accepts (.upload image golden)) :
    (c.handle ev).rows = c.rows := by
  cases ev with
  | start what =>
    by_cases hu : ∃ image golden, what = .upload image golden
    · obtain ⟨image, golden, rfl⟩ := hu
      have hrefused : ¬ c.cleared.Accepts (.upload image golden) := hs image golden rfl
      have hno : c.handle (.start (.upload image golden)) = c.cleared := startOp_refused hrefused
      rw [hno]
      rfl
    · exact rows_startOp (c := c.cleared) fun image golden h => hu ⟨image, golden, h⟩
  | frame raw => exact rows_onFrame (c := c.cleared) (hf raw rfl) raw
  | timer => exact rows_onTimer (c := c.cleared)
  | shot =>
    exact rows_sendNextChunk (c := { c.cleared with pendingShots := c.pendingShots - 1 }) true
  | cancel =>
    show c.cleared.cancel.rows = c.rows
    unfold cancel
    split <;> rfl
  | setTarget | setIapWindow | link => rfl

/-! ## Frames of an upload -/

theorem grown_onFrame (hok : c.Ok) (hop : c.op = some .upload) (raw : Bytes) :
    Grown (fun q i ok => raw.length = totalPacketSize ∧ ackOf .bitstream (rpSlot raw q) = some (i, ok))
      c (c.onFrame raw) := by
  have hctx : ({ c with gotAnyFrame := true } : Controller).context = .bitstream :=
    if_pos ⟨hop, (hok.upload hop).2⟩
  rw [onFrame_upload hop]
  have hg : Grown (fun q i ok => raw.length = totalPacketSize ∧
      ackOf .bitstream (rpSlot raw q) = some (i, ok)) c { c with gotAnyFrame := true } := .of_rows rfl
  have hgop : ({ c with gotAnyFrame := true } : Controller).op = some .upload := hop
  refine hg.trans ?_
  generalize ({ c with gotAnyFrame := true } : Controller) = d at hctx hgop
  unfold onSlots
  by_cases hl : raw.length = totalPacketSize
  · rw [extractRpSlots_ok hl]
    dsimp only
    rw [hctx]
    have hfold : Grown (fun q i ok => raw.length = totalPacketSize ∧
        ackOf .bitstream (rpSlot raw q) = some (i, ok)) d
          ((List.finRange 96).foldl (onSlot .bitstream (rpSlot raw)) (d, false)).1 ∧
        ((List.finRange 96).foldl (onSlot .bitstream (rpSlot raw)) (d, false)).1.op =
          some .upload := by
      refine foldl_onSlot (P := fun e => Grown _ d e ∧ e.op = some .upload) (List.finRange 96)
        ⟨.of_rows rfl, hgop⟩ ?_
      rintro e q parsed hparse ⟨he, heop⟩
      refine ⟨he.trans (grown_dispatchSlot heop ?_), (same_dispatchSlot q parsed).op.trans heop⟩
      rintro base i pf rfl
      exact ⟨hl, by rw [ackOf, hparse]⟩
    · generalize (List.finRange 96).foldl (onSlot .bitstream (rpSlot raw)) (d, false) = acc at hfold
      exact next_of (P := fun e => Grown _ d e) hfold.1 fun e he =>
        he.trans (.of_rows (rows_afterSlots.trans rfl))
  · obtain ⟨err, he⟩ := extractRpSlots_error hl
    rw [he]
    exact .of_rows rfl

/-- Any step but the start of another upload. -/
theorem grown_handle {ev : Event} (hok : c.Ok)
    (hs : ∀ image golden, ev = .start (.upload image golden) → ¬ c.Accepts (.upload image golden)) :
    Grown (fun q i ok => ∃ raw, ev = .frame raw ∧ raw.length = totalPacketSize ∧
      ackOf .bitstream (rpSlot raw q) = some (i, ok)) c (c.handle ev) := by
  by_cases hf : ∃ raw, ev = .frame raw ∧ c.op = some .upload
  · obtain ⟨raw, rfl, hop⟩ := hf
    obtain ⟨h₁, h₂, h₃⟩ := grown_onFrame (c := c.cleared) (hok.congr rfl) hop raw
    refine ⟨h₁, fun hd => h₂ ⟨hd.nodup, hd.lt⟩, fun q i => ?_⟩
    refine (h₃ q i).imp id fun ⟨hne, ok, hget, hA⟩ => ⟨hne, ok, hget, raw, rfl, hA⟩
  · exact .of_rows (rows_handle (fun raw hr hop => hf ⟨raw, hr, hop⟩) hs)

/-! ## The queries -/

/-- The three queries agree about the matrix. -/
structure GapsAgree (c : Controller) : Prop where
  sorted : c.missingChunkIndices.Pairwise (· < ·)
  missing : ∀ i, i ∈ c.missingChunkIndices ↔
    i < c.chunkCount ∧ ∃ q, (c.ackMatrix q).get? i ≠ some true
  total : ∀ q, (c.qtrmGaps q).1 + (c.qtrmGaps q).2.1.length = c.chunkCount
  failed : ∀ q, (c.qtrmGaps q).2.2 ⊆ (c.qtrmGaps q).2.1
  pairs : ∀ q i, (q, i) ∈ c.failedPairs ↔ i ∈ (c.qtrmGaps q).2.2

/-- The acks of a QTRM are those of the chunks that it has passed. -/
theorem acked_length (h : Entries c.chunkCount c) (q : Qtrm) : (c.qtrmGaps q).1 =
    ((List.range c.chunkCount).filter fun i => (c.ackMatrix q).get? i = some true).length := by
  have hperm : (((c.ackMatrix q).filter (·.2 = true)).map Prod.fst).Perm
      ((List.range c.chunkCount).filter fun i => (c.ackMatrix q).get? i = some true) := by
    refine (List.perm_ext_iff_of_nodup ((h.nodup q).sublist (List.filter_sublist.map _))
      (List.nodup_range.filter _)).2 fun i => ?_
    simp only [List.mem_map, List.mem_filter, List.mem_range, decide_eq_true_eq, Prod.exists,
      exists_and_right, exists_eq_right]
    exact ⟨fun hx => ⟨h.lt q _ hx, Dict.get?_of_mem (h.nodup q) hx⟩,
      fun hget => Dict.mem_of_get? hget.2⟩
  have hlen := hperm.length_eq
  rwa [List.length_map] at hlen

theorem mem_failed {i : Nat} : i ∈ (c.qtrmGaps q).2.2 ↔ (i, false) ∈ c.ackMatrix q := by
  simp [qtrmGaps]

theorem gapsAgree (h : Entries c.chunkCount c) : GapsAgree c where
  sorted := List.pairwise_lt_range.filter _
  missing i := by simp [missingChunkIndices]
  total q := by
    rw [acked_length h]
    have hsplit := (List.range c.chunkCount).length_eq_length_filter_add
      fun i => (c.ackMatrix q).get? i = some true
    rw [List.length_range] at hsplit
    conv_rhs => rw [hsplit]
    refine congrArg _ (congrArg List.length (List.filter_congr fun i _ => ?_))
    simp
  failed q i hi := by
    rw [mem_failed] at hi
    have hget := Dict.get?_of_mem (h.nodup q) hi
    have hlt : i < c.chunkCount := h.lt q _ hi
    simp [qtrmGaps, hget, hlt]
  pairs q i := by
    rw [mem_failed]
    simp [failedPairs]

/-! ## From one upload to the next -/

/-- The step keeps the passes of a QTRM, and takes a failure away only for a pass that the QTRM
reports. -/
structure EntryKept (x : Step) (q : Qtrm) (i : Nat) : Prop where
  passed : (x.1.ackMatrix q).get? i = some true → ((machine.post x).ackMatrix q).get? i = some true
  failed : (x.1.ackMatrix q).get? i = some false →
    ((machine.post x).ackMatrix q).get? i = some false ∨
      (((machine.post x).ackMatrix q).get? i = some true ∧
        ∃ raw, x.2 = .frame raw ∧ acks raw q i = true)

theorem entryKept {x : Step} (h : Grown (fun q i ok => ∃ raw, x.2 = .frame raw ∧
    raw.length = totalPacketSize ∧ ackOf .bitstream (rpSlot raw q) = some (i, ok)) x.1
      (machine.post x)) (q : Qtrm) (i : Nat) : EntryKept x q i := by
  refine ⟨fun ht => ?_, fun hf => ?_⟩
  · rcases h.entry q i with he | ⟨hne, -⟩
    · exact he.trans ht
    · exact absurd ht hne
  · rcases h.entry q i with he | ⟨-, ok, hok, raw, hraw, hl, hack⟩
    · exact .inl (he.trans hf)
    · cases ok with
      | false => exact .inl hok
      | true => exact .inr ⟨hok, raw, hraw, by simp [acks, hl, hack]⟩

/-- From the start of an upload until the next one is accepted, through whatever happens, the matrix
is about the chunks of the image, passes stay, failures become passes by an ack only, and the
queries agree. -/
theorem ack_matrix_gaps {rc : RcSettings} {image : Bytes} {golden : Bool} {x : Step}
    {pre mid : List Step} (hr : machine.Run (init rc) (pre ++ x :: mid) c)
    (hx : x.2 = .start (.upload image golden)) (ha : x.1.Accepts (.upload image golden))
    (hm : ∀ z ∈ mid, ∀ image' golden', z.2 = .start (.upload image' golden') →
      ¬ z.1.Accepts (.upload image' golden')) :
    c.chunkCount = (splitChunks image).length ∧ Entries c.chunkCount c ∧
      (∀ z ∈ mid, ∀ q i, EntryKept z q i) ∧ GapsAgree c := by
  obtain ⟨hpre, hen, hmid⟩ := hr.middle
  have hok : (machine.post x).Ok := ok_handle (run_ok hpre) hen
  obtain ⟨d, ev⟩ := x
  obtain rfl : ev = .start (.upload image golden) := hx
  have hstart : (d.handle (.start (.upload image golden))).rows =
      (fun _ => [], (splitChunks image).length) := rows_startUpload (c := d.cleared) ha
  have hrun := hmid.history (C := fun (d : Controller) ev => ∀ image' golden',
      ev = Event.start (.upload image' golden') → ¬ d.Accepts (.upload image' golden'))
    (P := fun mid d => (d.Ok ∧ d.chunkCount = (splitChunks image).length ∧ Entries d.chunkCount d) ∧
      ∀ z ∈ mid, ∀ q i, EntryKept z q i) ?_ ?_ hm
  · obtain ⟨⟨-, hn, hent⟩, hkept⟩ := hrun
    exact ⟨hn, hent, hkept, gapsAgree hent⟩
  · obtain ⟨hmatrix, hn⟩ := Prod.mk.inj hstart
    refine ⟨⟨hok, hn, ⟨fun q => ?_, fun q y hy => ?_⟩⟩, fun z hz => absurd hz List.not_mem_nil⟩
    · rw [Machine.post_mk, show (machine.step d _).ackMatrix = _ from hmatrix]
      exact List.nodup_nil
    · rw [Machine.post_mk, show (machine.step d _).ackMatrix = _ from hmatrix] at hy
      exact absurd hy List.not_mem_nil
  · rintro tr d ev - ⟨⟨hdok, hn, hent⟩, hkept⟩ he hs
    have hgrown : Grown _ d (d.handle ev) := grown_handle hdok hs
    refine ⟨⟨ok_handle hdok he, hgrown.count.trans hn, ?_⟩, fun z hz => ?_⟩
    · show Entries (d.handle ev).chunkCount (d.handle ev)
      rw [hgrown.count]
      exact hgrown.entries hent
    · rcases List.mem_append.1 hz with hz | hz
      · exact hkept z hz
      · obtain rfl := List.mem_singleton.1 hz
        exact entryKept (x := (d, ev)) hgrown

/-- An upload to one QTRM up to the end of its grace window. -/
theorem ack_matrix_gaps_targeted : ∃ (pre mid : List Step) (x : Step) (c : Controller),
    machine.Run (init sampleSettings) (pre ++ x :: mid) c ∧ x.2 = .start (.upload [0] false) ∧
    Machine.events mid = [.shot, .frame (oneSlot 5 passAck), .timer] ∧
    c.chunkCount = (splitChunks [0]).length ∧ Entries c.chunkCount c ∧
    (∀ z ∈ mid, ∀ q i, EntryKept z q i) ∧ GapsAgree c := by
  obtain ⟨pre, x, c₁, c₂, y, c, hr, hs, -⟩ := targeted_session
  have hm : ∀ z ∈ [(c₁, .shot), (c₂, .frame (oneSlot 5 passAck))] ++ [y], ∀ image' golden',
      z.2 = .start (.upload image' golden') → ¬ z.1.Accepts (.upload image' golden') := by
    intro z hz image' golden' he
    simp only [List.cons_append, List.nil_append, List.mem_cons, List.not_mem_nil, or_false] at hz
    rcases hz with rfl | rfl | rfl
    · cases he
    · cases he
    · cases hs.closing.2.symm.trans he
  refine ⟨pre, _, x, c, hr, hs.start, ?_, ack_matrix_gaps hr hs.start hs.accepted hm⟩
  simp [hs.closing.2]

end Controller

end QccGui
