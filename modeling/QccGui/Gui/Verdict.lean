import QccGui.Gui.InvalidSlots

/-!
# The verdict of an upload

The acks that the frames of a session bring are in the matrix when the grace window closes; the
verdict is over all 96 rows of it, whichever QTRMs the session targets.

* `acked`, `missingOf`: what the frames of a session say, chunk by chunk.
* `Collected`: the matrix holds just that, in every state of a session.
* `UploadSession`, `VerdictRight`: a session up to the end of the grace window, and what its end
  should report.
* `upload_verdict`: it does exactly if every chunk that the targeted QTRMs acked was acked by all.
-/

namespace QccGui

open Lib

namespace Controller

variable {c d e : Controller} {q : Qtrm} {raw slot : Bytes} {n : Nat}

/-! ## What the frames say -/

/-- The frame acknowledges chunk `i` for `q` as passed. -/
def acks (raw : Bytes) (q : Qtrm) (i : Nat) : Bool :=
  raw.length = totalPacketSize && ackOf .bitstream (rpSlot raw q) = some (i, true)

/-- A frame of the steps does. -/
def acked (steps : List Step) (q : Qtrm) (i : Nat) : Bool :=
  steps.any fun x => match x.2 with
    | .frame raw => acks raw q i
    | _ => false

/-- The chunks that some QTRM in `target` has not acknowledged. -/
def missingOf (target : Target) (n : Nat) (steps : List Step) : List Nat :=
  (List.range n).filter fun i =>
    (List.finRange 96).any fun q => target.includes q && !acked steps q i

theorem acked_snoc (steps : List Step) (c : Controller) (e : Event) (q : Qtrm) (i : Nat) :
    acked (steps ++ [(c, e)]) q i = (acked steps q i || match e with
      | .frame raw => acks raw q i
      | _ => false) := by
  simp [acked, List.any_append]

/-! ## The matrix -/

/-- The state of an upload with a connection, between two slots of a frame. -/
structure Loading (n : Nat) (d : Controller) : Prop where
  op : d.op = some .upload
  sendOk : d.sendOk = true
  raised : d.raised = false
  count : d.chunkCount = n
  chunks : d.chunks.length = n

/-- The rows of the matrix are about chunks of the image, one entry each. -/
structure Entries (n : Nat) (d : Controller) : Prop where
  nodup : ∀ q, ((d.ackMatrix q).map Prod.fst).Nodup
  lt : ∀ q, ∀ x ∈ d.ackMatrix q, x.1 < n

theorem entries_setAck {i : Nat} (h : Entries n d) (hi : i < n) (q : Qtrm) (ok : Bool) :
    Entries n (d.setAck q i ok) := by
  unfold setAck
  split
  · refine ⟨fun q' => ?_, fun q' x hx => ?_⟩
    · rw [emit_ackMatrix]
      by_cases hq : q' = q
      · subst hq
        dsimp only
        rw [Function.update_self]
        exact Dict.nodup_set i ok (h.nodup q')
      · dsimp only
        rw [Function.update_of_ne hq]
        exact h.nodup q'
    · rw [emit_ackMatrix] at hx
      by_cases hq : q' = q
      · subst hq
        dsimp only at hx
        rw [Function.update_self] at hx
        rcases Dict.mem_set hx with rfl | hx
        · exact hi
        · exact h.lt q' x hx
      · dsimp only at hx
        rw [Function.update_of_ne hq] at hx
        exact h.lt q' x hx
  · exact h

/-- With a connection the acknowledgement of a chunk is recorded without an exception. -/
theorem loading_recordAck {i : Nat} (q : Qtrm) (ok : Bool) (h : Loading n d) (hi : i < n) :
    Loading n (d.recordAck q i ok) ∧ (d.recordAck q i ok).ackMatrix = (d.setAck q i ok).ackMatrix := by
  have hsame := same_recordAck (c := d) q i ok
  have hcore := core_setAck (c := d) q i ok
  have helse := elsewhere_recordAck (q := q) (d := d) i ok
  have hlt : i < d.chunkCount := by rw [h.count]; exact hi
  refine ⟨⟨hsame.op.trans h.op, hsame.sendOk.trans h.sendOk, ?_, helse.count.trans h.count,
    (congrArg List.length helse.chunks).trans h.chunks⟩, ackMatrix_recordAck hlt⟩
  · rw [recordAck, if_neg (Nat.not_le.2 hlt)]
    dsimp only
    have hr := (raised_setAck (d := d) q i ok).trans h.raised
    split
    · rename_i hc
      have ht := tracks_sendNextChunk hc.1 hc.2.2 hr
      rw [chunkCount_of_core hcore, chunks_of_core hcore, (same_setAck q i ok).sendOk, h.count,
        h.chunks, h.sendOk] at ht
      by_cases hlast : i + 1 < n
      · rw [if_pos hlast, if_pos ⟨rfl, hlast⟩] at ht
        exact ht.1
      · rw [if_neg hlast] at ht
        exact ht.1
    · exact hr

/-- The matrix after a turn of the slot loop. -/
structure Turned (n : Nat) (qs : List Qtrm) (slots : Qtrm → Bytes) (d e : Controller) : Prop where
  loading : Loading n e
  entries : Entries n d → Entries n e
  passed : ∀ q i, (e.ackMatrix q).get? i = some true ↔
    (d.ackMatrix q).get? i = some true ∨ (q ∈ qs ∧ i < n ∧ ackOf .bitstream (slots q) = some (i, true))

theorem Turned.refl {slots : Qtrm → Bytes} (h : Loading n d) : Turned n [] slots d d :=
  ⟨h, id, by simp⟩

theorem Turned.cons {slots : Qtrm → Bytes} {qs : List Qtrm} (h : Turned n [q] slots c d)
    (h' : Turned n qs slots d e) : Turned n (q :: qs) slots c e := by
  refine ⟨h'.loading, fun hr => h'.entries (h.entries hr), fun q' i => ?_⟩
  rw [h'.passed, h.passed, List.mem_singleton, List.mem_cons, or_and_right, or_assoc]

theorem turned_onSlot (slots : Qtrm → Bytes) (h : Loading n d) (b : Bool) (q : Qtrm) :
    Turned n [q] slots d (onSlot .bitstream slots (d, b) q).1 := by
  have hnone : ackOf .bitstream (slots q) = none → ∀ e, Loading n e → e.ackMatrix = d.ackMatrix →
      Turned n [q] slots d e := by
    intro hack e he hm
    refine ⟨he, fun hr => ⟨by rw [hm]; exact hr.nodup, by rw [hm]; exact hr.lt⟩, fun q' i => ?_⟩
    rw [hm]
    refine ⟨.inl, fun hc => hc.resolve_right ?_⟩
    rintro ⟨hq, -, ha⟩
    obtain rfl := List.mem_singleton.1 hq
    simp [hack] at ha
  rw [onSlot, if_neg (by simp [h.raised])]
  split
  · rename_i parsed hparse
    dsimp only
    by_cases hack : ∃ base i pf, parsed = .bitstreamAck base i pf
    · obtain ⟨base, i, pf, rfl⟩ := hack
      have he : d.dispatchSlot q (.bitstreamAck base i pf) = d.recordAck q i (!transferFailed pf) := by
        simp only [dispatchSlot, h.op]
      have hackOf : ackOf .bitstream (slots q) = some (i, !transferFailed pf) := by
        rw [ackOf, hparse]
      rw [he]
      generalize (!transferFailed pf) = ok at hackOf
      by_cases hi : i < n
      · obtain ⟨hl, hm⟩ := loading_recordAck q ok h hi
        refine ⟨hl, fun hr => ?_, fun q' j => ?_⟩
        · have := entries_setAck hr hi q ok
          exact ⟨by rw [hm]; exact this.nodup, by rw [hm]; exact this.lt⟩
        · rw [hm, get?_setAck, List.mem_singleton]
          refine or_congr_right ⟨?_, ?_⟩
          · rintro ⟨rfl, rfl, rfl⟩
            exact ⟨rfl, hi, hackOf⟩
          · rintro ⟨rfl, -, ha⟩
            rw [hackOf] at ha
            obtain ⟨rfl, rfl⟩ : i = j ∧ ok = true := by simpa using ha
            exact ⟨rfl, rfl, rfl⟩
      · rw [recordAck, if_pos (by rw [h.count]; omega)]
        refine ⟨h, id, fun q' j => ⟨.inl, fun hc => hc.resolve_right ?_⟩⟩
        rintro ⟨hq, hj, ha⟩
        obtain rfl := List.mem_singleton.1 hq
        rw [hackOf] at ha
        obtain ⟨rfl, -⟩ : i = j ∧ ok = true := by simpa using ha
        exact hi hj
    · have he : d.dispatchSlot q parsed = d.emit (.opRowUpdated .upload q parsed) := by
        simp only [dispatchSlot, h.op]
        cases parsed <;> first | rfl | exact absurd ⟨_, _, _, rfl⟩ hack
      rw [he]
      refine hnone ?_ _ ⟨h.op, h.sendOk, h.raised, h.count, h.chunks⟩ rfl
      rw [ackOf, hparse]
      cases parsed <;> first | rfl | exact absurd ⟨_, _, _, rfl⟩ hack
  · rename_i hparse
    refine hnone ?_ d h rfl
    unfold ackOf
    split
    · exact absurd ‹_› (hparse _)
    · rfl

/-- The matrix after the slot loop. -/
theorem turned_foldl (slots : Qtrm → Bytes) (qs : List Qtrm) (b : Bool) (h : Loading n d) :
    Turned n qs slots d (qs.foldl (onSlot .bitstream slots) (d, b)).1 := by
  induction qs generalizing d b with
  | nil => exact Turned.refl h
  | cons q qs ih =>
    have hq := turned_onSlot slots h b q
    rw [List.foldl_cons]
    generalize onSlot .bitstream slots (d, b) q = acc at hq
    exact hq.cons (ih acc.2 hq.loading)

/-! ## Sessions -/

/-- The matrix holds the acknowledgements of the steps so far, and no others. -/
structure Collected (n : Nat) (steps : List Step) (d : Controller) : Prop where
  count : d.chunkCount = n
  entries : Entries n d
  passed : ∀ q i, (d.ackMatrix q).get? i = some true ↔ i < n ∧ acked steps q i = true

/-- A step that brings no acknowledgement and leaves the matrix alone. -/
theorem Collected.keep {steps : List Step} {ev : Event} (h : Collected n steps d)
    (hn : e.chunkCount = d.chunkCount) (hm : e.ackMatrix = d.ackMatrix)
    (hack : ∀ q i, acked (steps ++ [(d, ev)]) q i = acked steps q i) :
    Collected n (steps ++ [(d, ev)]) e := by
  refine ⟨hn.trans h.count, ⟨by rw [hm]; exact h.entries.nodup, by rw [hm]; exact h.entries.lt⟩, ?_⟩
  intro q i
  rw [hm, hack, h.passed]

/-- A response of an upload with a connection. -/
theorem turned_onFrame (hok : c.Ok) (hop : c.op = some .upload) (hs : c.sendOk = true)
    (hr : c.raised = false) (hl : raw.length = totalPacketSize) :
    Turned c.chunkCount (List.finRange 96) (rpSlot raw) c (c.onFrame raw) := by
  have hload : Loading c.chunkCount { c with gotAnyFrame := true } :=
    ⟨hop, hs, hr, rfl, hok.count.symm⟩
  have hturn := turned_foldl (rpSlot raw) (List.finRange 96) false hload
  obtain ⟨text, he⟩ := onFrame_slots hop (hok.upload hop).2 hl hturn.loading.op hturn.loading.raised
  rw [he]
  generalize (List.finRange 96).foldl (onSlot .bitstream (rpSlot raw))
    ({ c with gotAnyFrame := true }, false) = acc at hturn
  obtain ⟨⟨h₁, h₂, h₃, h₄, h₅⟩, hent, hpass⟩ := hturn
  exact ⟨⟨h₁, h₂, h₃, h₄, h₅⟩,
    fun hr => ⟨(hent ⟨hr.nodup, hr.lt⟩).nodup, (hent ⟨hr.nodup, hr.lt⟩).lt⟩, hpass⟩

/-- While an upload goes on only frames change the matrix. -/
theorem matrix_handle {ev : Event} (hok : c.Ok) (he : machine.enabled c ev)
    (hop : c.op = some .upload) (hstay : (c.handle ev).op = some .upload)
    (hf : ∀ raw, ev ≠ .frame raw) :
    (c.handle ev).chunkCount = c.chunkCount ∧ (c.handle ev).ackMatrix = c.ackMatrix := by
  cases ev with
  | frame raw => exact absurd rfl (hf raw)
  | start what =>
    have hno : c.handle (.start what) = c.cleared :=
      startOp_refused (c := c.cleared) fun h => by cases hop.symm.trans h.1
    rw [hno]
    exact ⟨rfl, rfl⟩
  | timer =>
    have hend : Ended .upload c.cleared (c.handle .timer) :=
      ended_onTimer_upload (c := c.cleared) (hok.congr rfl) hop he
    cases hend.after.symm.trans hstay
  | shot =>
    have h₁ := elsewhere_sendNextChunk (q := 0)
      (d := { c.cleared with pendingShots := c.pendingShots - 1 }) true
    have h₂ := ackMatrix_sendNextChunk
      (d := { c.cleared with pendingShots := c.pendingShots - 1 }) true
    exact ⟨h₁.count, h₂⟩
  | cancel =>
    have hend : c.handle .cancel = c.cleared.finish _ _ := if_neg (by simp [cleared, hop])
    rw [hend] at hstay
    cases hstay
  | _ => exact ⟨rfl, rfl⟩

/-- One step of a session. -/
theorem Collected.step {steps : List Step} {ev : Event} (h : Collected n steps c) (hok : c.Ok)
    (he : machine.enabled c ev) (hop : c.op = some .upload) (hs : c.sendOk = true)
    (hstay : (c.handle ev).op = some .upload) :
    Collected n (steps ++ [(c, ev)]) (c.handle ev) := by
  by_cases hf : ∃ raw, ev = .frame raw
  · obtain ⟨raw, rfl⟩ := hf
    by_cases hl : raw.length = totalPacketSize
    · obtain ⟨hload, hent, hpass⟩ := turned_onFrame (c := c.cleared) (hok.congr rfl) hop hs rfl hl
      have hcount : c.cleared.chunkCount = n := h.count
      rw [hcount] at hload hent hpass
      refine ⟨hload.count, hent ⟨h.entries.nodup, h.entries.lt⟩, fun q i => ?_⟩
      have hold := h.passed q i
      rw [acked_snoc, show c.handle (.frame raw) = c.cleared.onFrame raw from rfl, hpass]
      simp only [cleared, List.mem_finRange, true_and, acks, hl, decide_true, Bool.true_and,
        Bool.or_eq_true, decide_eq_true_eq]
      rw [hold]
      exact and_or_left.symm
    · obtain ⟨msg, hmsg⟩ := extractRpSlots_error hl
      have hshort : c.handle (.frame raw) =
          { c.cleared with gotAnyFrame := true, raised := true } := by
        rw [show c.handle (.frame raw) = _ from onFrame_upload (c := c.cleared) hop raw, onSlots, hmsg]
      rw [hshort]
      exact h.keep rfl rfl fun q i => by simp [acked_snoc, acks, hl]
  · have hf : ∀ raw, ev ≠ .frame raw := fun raw hr => hf ⟨raw, hr⟩
    obtain ⟨hn, hm⟩ := matrix_handle hok he hop hstay hf
    refine h.keep hn hm fun q i => ?_
    rw [acked_snoc]
    cases ev with
    | frame raw => exact absurd rfl (hf raw)
    | _ => exact Bool.or_false _

/-- An upload session with a connection, from its accepted start `x` to the end `y` of its grace
window. -/
structure UploadSession (image : Bytes) (golden : Bool) (x : Step) (mid : List Step) (y : Step) :
    Prop where
  start : x.2 = .start (.upload image golden)
  accepted : x.1.Accepts (.upload image golden)
  active : ∀ z ∈ mid, z.1.op = some .upload
  connected : ∀ z ∈ x :: mid, z.1.sendOk = true
  closing : y.1.op = some .upload ∧ y.2 = .timer

/-- What the end of a session with the steps `mid` should report: success exactly if every QTRM in
`target` has acknowledged every chunk, and how many chunks some of them has not acknowledged. -/
def VerdictRight (target : Target) (n : Nat) (mid : List Step) (out : List Signal) : Prop :=
  ∃ missing failed ok text,
    out = [.uploadFinished missing failed, .sessionFinished (some .upload) ok text] ∧
    (ok = true ↔ ∀ q, target.includes q = true → ∀ i < n, acked mid q i = true) ∧
    missing = (missingOf target n mid).length

/-- The matrix at the end of a session. -/
theorem collected_session {image : Bytes} {golden : Bool} {x y : Step} {mid : List Step}
    (hok : x.1.Ok) (hs : UploadSession image golden x mid y)
    (hr : machine.Run (machine.post x) mid y.1) :
    y.1.Ok ∧ Collected (splitChunks image).length mid y.1 := by
  obtain ⟨c, ev⟩ := x
  obtain rfl : ev = .start (.upload image golden) := hs.start
  have hen : machine.enabled c (.start (.upload image golden)) := trivial
  have hlink : c.sendOk = true := hs.connected _ (List.mem_cons_self ..)
  obtain ⟨rc, o, hst⟩ := startUpload_connected (c := c.cleared) hs.accepted hlink
  have hrun := hr.history (C := fun d _ => d.op = some .upload ∧ d.sendOk = true)
    (P := fun mid d => d.Ok ∧ (d.op = some .upload → Collected (splitChunks image).length mid d))
    ?_ ?_ fun z hz => ⟨hs.active z hz, hs.connected z (List.mem_cons_of_mem _ hz)⟩
  · exact ⟨hrun.1, hrun.2 hs.closing.1⟩
  · refine ⟨ok_handle hok hen, fun _ => ?_⟩
    rw [Machine.post_mk, show machine.step c (.start (.upload image golden)) = _ from hst]
    exact ⟨rfl, ⟨fun q => List.nodup_nil, fun q x hx => absurd hx List.not_mem_nil⟩,
      fun q i => by simp [acked]⟩
  · rintro tr d ev - ⟨hdok, hd⟩ he ⟨hdop, hdl⟩
    exact ⟨ok_handle hdok he, fun hstay => (hd hdop).step hdok he hdop hdl hstay⟩

/-! ## The end of a session -/

/-- What the end of the grace window reports, which ends the session. -/
theorem out_timer (hok : c.Ok) (hop : c.op = some .upload) (he : machine.enabled c .timer) :
    ∃ text, (c.handle .timer).out =
      [.uploadFinished c.missingChunkIndices.length c.failedPairs.length,
        .sessionFinished (some .upload) (c.missingChunkIndices.isEmpty && c.failedPairs.isEmpty)
          text] := by
  have htimer : c.timer.isSome = true := he
  obtain ⟨⟨hd, ms⟩, ht⟩ := Option.isSome_iff_exists.1 htimer
  have hcl := (hok.timer _ _ ht).1
  obtain rfl : hd = .graceTimeout := by
    cases hd <;> simp_all [Handler.Closes]
  have hclose : c.handle .timer = { c.cleared with timer := none }.closeUploadPass := by
    show c.cleared.onTimer = _
    rw [onTimer, show c.cleared.timer = some (.graceTimeout, ms) from ht]
  rw [hclose, closeUploadPass]
  simp only [finish, emit, cleared, List.nil_append, hop]
  exact ⟨_, rfl⟩

/-- The chunks that the window reports are those that any QTRM lacks, as for a broadcast. -/
theorem missing_eq {steps : List Step} (h : Collected n steps d) :
    d.missingChunkIndices = missingOf .broadcast n steps := by
  rw [missingChunkIndices, missingOf, h.count]
  refine List.filter_congr fun i hi => congrArg ((List.finRange 96).any ·) (funext fun q => ?_)
  have hpass := h.passed q i
  rw [and_iff_right (List.mem_range.1 hi)] at hpass
  by_cases hq : acked steps q i = true
  · simp [hq, hpass.2 hq, Target.includes]
  · simp [hq, mt hpass.1 hq, Target.includes]

theorem mem_missingOf {target : Target} {steps : List Step} {i : Nat} :
    i ∈ missingOf target n steps ↔
      i < n ∧ ∃ q, target.includes q = true ∧ ¬ acked steps q i = true := by
  simp [missingOf]

theorem missingOf_nil {target : Target} {steps : List Step} :
    missingOf target n steps = [] ↔
      ∀ q, target.includes q = true → ∀ i < n, acked steps q i = true := by
  rw [List.eq_nil_iff_forall_not_mem]
  constructor
  · intro h q hq i hi
    by_contra hno
    exact h i (mem_missingOf.2 ⟨hi, q, hq, hno⟩)
  · intro h i hi
    obtain ⟨hlt, q, hq, hno⟩ := mem_missingOf.1 hi
    exact hno (h q hq i hlt)

/-- What the targeted QTRMs lack, some QTRM lacks. -/
theorem missingOf_sublist (target : Target) (n : Nat) (steps : List Step) :
    (missingOf target n steps).Sublist (missingOf .broadcast n steps) := by
  apply List.monotone_filter_right _
  intro i hi
  obtain ⟨q, -, hq⟩ := List.any_eq_true.1 hi
  rw [Bool.and_eq_true] at hq
  exact List.any_eq_true.2 ⟨q, List.mem_finRange q, by rw [hq.2]; rfl⟩

/-- Both lack as many chunks exactly if the targeted QTRMs acked none that another lacks. -/
theorem missingOf_length {target : Target} {steps : List Step} :
    (missingOf .broadcast n steps).length = (missingOf target n steps).length ↔
      ∀ i < n, (∀ q, target.includes q = true → acked steps q i = true) →
        ∀ q, acked steps q i = true := by
  have hsub := missingOf_sublist target n steps
  constructor
  · intro hlen i hi htarget q
    by_contra hq
    have hin : i ∈ missingOf .broadcast n steps := mem_missingOf.2 ⟨hi, q, rfl, hq⟩
    rw [← hsub.eq_of_length hlen.symm] at hin
    obtain ⟨-, q', hq', hno⟩ := mem_missingOf.1 hin
    exact hno (htarget q' hq')
  · intro hall
    refine Nat.le_antisymm (List.Subperm.length_le (List.subperm_of_subset ?_ ?_)) hsub.length_le
    · exact List.nodup_range.filter _
    · intro i hi
      obtain ⟨hlt, q, -, hq⟩ := mem_missingOf.1 hi
      refine mem_missingOf.2 ⟨hlt, ?_⟩
      by_contra hno
      exact hq (hall i hlt (fun q' hq' => by_contra fun hn => hno ⟨q', hq', hn⟩) q)

/-- When no chunk is missing no entry of the matrix is a failure. -/
theorem failedPairs_nil {steps : List Step} (h : Collected n steps d)
    (hm : missingOf .broadcast n steps = []) : d.failedPairs = [] := by
  refine List.flatMap_eq_nil_iff.2 fun q _ => List.map_eq_nil_iff.2 (List.filter_eq_nil_iff.2 ?_)
  rintro ⟨i, ok⟩ hx hf
  have hlt : i < n := h.entries.lt q _ hx
  have hget : (d.ackMatrix q).get? i = some ok := Dict.get?_of_mem (h.entries.nodup q) hx
  have hpass := (h.passed q i).2 ⟨hlt, missingOf_nil.1 hm q rfl i hlt⟩
  obtain rfl : ok = true := Option.some.inj (hget.symm.trans hpass)
  simp at hf

/-- The verdict that the matrix leads to is right exactly if the targeted QTRMs acked no chunk that
another lacks. -/
theorem verdict_closing {target : Target} {steps : List Step} (hok : d.Ok)
    (hop : d.op = some .upload) (he : machine.enabled d .timer) (h : Collected n steps d) :
    VerdictRight target n steps (d.handle .timer).out ↔
      ∀ i < n, (∀ q, target.includes q = true → acked steps q i = true) →
        ∀ q, acked steps q i = true := by
  obtain ⟨text, hout⟩ := out_timer hok hop he
  rw [missing_eq h] at hout
  rw [← missingOf_length, hout]
  constructor
  · rintro ⟨missing, failed, ok, text', hout', -, hmissing⟩
    simp only [List.cons.injEq, Signal.uploadFinished.injEq] at hout'
    exact hout'.1.1.trans hmissing
  · intro hlen
    refine ⟨_, _, _, _, rfl, ?_, hlen⟩
    rw [← missingOf_nil, (missingOf_sublist target n steps).eq_of_length hlen.symm,
      Bool.and_eq_true, List.isEmpty_iff, List.isEmpty_iff]
    exact and_iff_left_of_imp (failedPairs_nil h)

/-- A pass of chunk 0. -/
def passAck : Bytes := sealed [0xAA, 0x00, 0x35, 0, 0, 0, 0, 1, 0]

theorem oneAck_passAck (q : Qtrm) : OneAck (oneSlot q passAck) q 0 :=
  oneAck_oneSlot rfl ⟨_, _, rfl, rfl⟩ q

/-- The acknowledgement of the last chunk while it is in flight starts the grace window. -/
theorem grace_of_lastAck (h : OneAck raw q n) (hop : c.op = some .upload)
    (hph : c.uploadPhase = some .stream) (hcur : c.currentChunk = some n)
    (hn : c.chunkCount = n + 1) :
    (c.handle (.frame raw)).op = some .upload ∧ machine.enabled (c.handle (.frame raw)) .timer := by
  have hrec := recorded_setAck { c.cleared with gotAnyFrame := true } q n
  generalize hset : ({ c.cleared with gotAnyFrame := true } : Controller).setAck q n true = e at hrec
  have hecur : e.currentChunk = some n := (currentChunk_of_core hrec.core).trans hcur
  have hen : e.chunkCount = n + 1 := (chunkCount_of_core hrec.core).trans hn
  have hnext : e.sendNextChunk false = e.enterGrace := by
    simp [sendNextChunk, nextIndex, hecur, hen]
  obtain ⟨text, he⟩ := onFrame_oneAck (c := c.cleared) (d := e.enterGrace) h hop
    (by simp [cleared, hph]) rfl
    (fun base pf hpf => by
      rw [dispatchSlot_current (c := { c.cleared with gotAnyFrame := true }) hop
        (by show n < c.chunkCount; omega) hph hcur q hpf, hset, hnext])
    ((op_of_core hrec.core).trans hop) hrec.raised
  rw [show c.handle (.frame raw) = _ from he]
  exact ⟨(op_of_core hrec.core).trans hop, rfl⟩

/-- An upload of one chunk to QTRM 5, which acknowledges it. -/
theorem targeted_session : ∃ (pre : List Step) (x : Step) (c₁ c₂ : Controller) (y : Step)
    (c : Controller),
    machine.Run (init sampleSettings)
      (pre ++ x :: ([(c₁, .shot), (c₂, .frame (oneSlot 5 passAck))] ++ y :: [])) c ∧
    UploadSession [0] false x [(c₁, .shot), (c₂, .frame (oneSlot 5 passAck))] y ∧
    Machine.events pre = .setTarget (.one 5) :: openGate ∧ x.1.targetQtrm = .one 5 := by
  obtain ⟨tr, c, hopen, hpre, hacc, htarget, hlink, hop₁, hlink₁, hshot, hop₂, hlink₂, hph, hcur, hn⟩ :
      ∃ tr c, machine.Run (init sampleSettings) tr c ∧
      Machine.events tr = .setTarget (.one 5) :: openGate ∧
      c.Accepts (.upload [0] false) ∧ c.targetQtrm = .one 5 ∧ c.sendOk = true ∧
      (machine.exec c [.start (.upload [0] false)]).op = some .upload ∧
      (machine.exec c [.start (.upload [0] false)]).sendOk = true ∧
      machine.enabled (machine.exec c [.start (.upload [0] false)]) .shot ∧
      (machine.exec c [.start (.upload [0] false), .shot]).op = some .upload ∧
      (machine.exec c [.start (.upload [0] false), .shot]).sendOk = true ∧
      (machine.exec c [.start (.upload [0] false), .shot]).uploadPhase = some .stream ∧
      (machine.exec c [.start (.upload [0] false), .shot]).currentChunk = some 0 ∧
      (machine.exec c [.start (.upload [0] false), .shot]).chunkCount = 1 :=
    ⟨_, machine.exec (init sampleSettings) (.setTarget (.one 5) :: openGate),
      Machine.Allows.run ⟨trivial, trivial, trivial, trivial, trivial, trivial⟩,
      Machine.events_trace, ⟨rfl, rfl, by decide⟩, rfl, rfl, rfl, rfl, Nat.one_pos, rfl, rfl, rfl, rfl, rfl⟩
  simp only [Machine.exec_cons, Machine.exec_nil] at hop₁ hlink₁ hshot hop₂ hlink₂ hph hcur hn
  obtain ⟨hop₃, htimer⟩ := grace_of_lastAck (oneAck_passAck 5) hop₂ hph hcur hn
  have hstart : machine.enabled c (.start (.upload [0] false)) := trivial
  have hframe : ∀ d, machine.enabled d (.frame (oneSlot 5 passAck)) := fun _ => trivial
  refine ⟨tr, _, _, _, (_, .timer), _, hopen.append (.cons hstart (.cons hshot
    (.cons (hframe _) (.single htimer)))), ⟨rfl, hacc, ?_, ?_, hop₃, rfl⟩, hpre, htarget⟩
  · simp [hop₁, hop₂]
  · simp [hlink, hlink₁, hlink₂]

/-- The QTRM that is targeted acked the chunk, and the others did not. -/
theorem acked_targeted (c d : Controller) (q : Qtrm) :
    acked [(c, .shot), (d, .frame (oneSlot 5 passAck))] q 0 = decide (q = 5) := by
  have hl : (oneSlot 5 passAck).length = totalPacketSize := oneSlot_length rfl 5
  have hslot : ∀ q', rpSlot (oneSlot 5 passAck) q' = if q' = 5 then passAck else zeros 10 :=
    rpSlot_oneSlot rfl 5
  simp only [acked, acks, List.any_cons, List.any_nil, Bool.or_false, Bool.false_or, hl, decide_true,
    Bool.true_and, hslot]
  by_cases hq : q = 5
  · subst hq
    rfl
  · rw [if_neg hq]
    simp only [hq]
    rfl

/-- In every run the verdict of an upload session is right exactly if no chunk that its targeted
QTRMs acked is one that another QTRM has not acked. -/
theorem upload_verdict {rc : RcSettings} {image : Bytes} {golden : Bool} {x y : Step}
    {pre mid post : List Step} (hr : machine.Run (init rc) (pre ++ x :: (mid ++ y :: post)) c)
    (hs : UploadSession image golden x mid y) :
    VerdictRight x.1.targetQtrm (splitChunks image).length mid (machine.post y).out ↔
      ∀ i < (splitChunks image).length,
        (∀ q, x.1.targetQtrm.includes q = true → acked mid q i = true) →
          ∀ q, acked mid q i = true := by
  obtain ⟨hpre, hx, hrest⟩ := hr.middle
  obtain ⟨hmid, hy, -⟩ := hrest.middle
  have hok : x.1.Ok := run_ok hpre
  obtain ⟨hyok, hcol⟩ := collected_session hok hs hmid
  obtain ⟨d, ev⟩ := y
  obtain ⟨hop, rfl⟩ : d.op = some .upload ∧ ev = .timer := hs.closing
  exact verdict_closing hyok hop hy hcol

/-- An upload of one chunk to QTRM 5 alone. -/
theorem upload_verdict_targeted : ∃ (x : Step) (mid : List Step) (y : Step),
    UploadSession [0] false x mid y ∧
    (VerdictRight x.1.targetQtrm (splitChunks [0]).length mid (machine.post y).out ↔
      ∀ i < (splitChunks [0]).length,
        (∀ q, x.1.targetQtrm.includes q = true → acked mid q i = true) →
          ∀ q, acked mid q i = true) := by
  obtain ⟨pre, x, c₁, c₂, y, c, hr, hs, -⟩ := targeted_session
  exact ⟨x, _, y, hs, upload_verdict hr hs⟩

/-- The QTRMs that the session does not target fail it. -/
theorem verdict_untargeted : ∃ pre x mid y c,
    machine.Run (init sampleSettings) (pre ++ x :: (mid ++ y :: [])) c ∧
    Machine.events (pre ++ x :: (mid ++ y :: [])) = .setTarget (.one 5) :: openGate ++
      [.start (.upload [0] false), .shot, .frame (oneSlot 5 passAck), .timer] ∧
    UploadSession [0] false x mid y ∧ x.1.targetQtrm = .one 5 ∧
    ¬ VerdictRight x.1.targetQtrm (splitChunks [0]).length mid (machine.post y).out := by
  obtain ⟨pre, x, c₁, c₂, y, c, hr, hs, hpre, htarget⟩ := targeted_session
  refine ⟨pre, x, _, y, c, hr, ?_, hs, htarget, fun hv => ?_⟩
  · simp [hpre, hs.start, hs.closing.2]
  obtain ⟨hpre, -, hrest⟩ := hr.middle
  obtain ⟨hmid, he, -⟩ := hrest.middle
  obtain ⟨hok, hcol⟩ := collected_session (run_ok hpre) hs hmid
  obtain ⟨d, ev⟩ := y
  obtain ⟨hop, rfl⟩ : d.op = some .upload ∧ ev = .timer := hs.closing
  have hall := (verdict_closing hok hop he hcol).1 hv 0 Nat.one_pos
  rw [htarget] at hall
  have h6 := hall (fun q hq => by simpa [acked_targeted, Target.includes] using hq) 6
  rw [acked_targeted] at h6
  exact absurd h6 (by decide)

end Controller

end QccGui
