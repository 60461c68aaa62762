import QccGui.Gui.Stream

/-!
# Acknowledgement frames

What a frame in which every QTRM acknowledges one chunk does to an upload.

* `Recorded`: the entries of the matrix are set and nothing else changes.
* `onFrame_known`: the frame of a chunk that is no longer in flight.
* `onFrame_next`, `onFrame_last`: the frame of the chunk in flight. The first slot moves the upload
  on, the other 95 find another chunk, or the grace phase.
* `onFrame_oneAck`: a frame in which a single QTRM acknowledges.
* `InFlight`, `inGrace_acks`: an upload whose chunks are acknowledged one after the other.
-/

namespace QccGui

open Lib

namespace Controller

variable {c c' c'' : Controller} {i : Nat}

/-- No entry of the matrix reports a failure. -/
def NoFailures (c : Controller) : Prop := ∀ q, ∀ x ∈ c.ackMatrix q, x.2 = true

/-- The passes of chunk `i` by `qs` have been recorded, and nothing else has happened. -/
structure Recorded (i : Nat) (qs : List Qtrm) (c c' : Controller) : Prop where
  core : c'.core = c.core
  sends : sends c'.out = sends c.out
  raised : c'.raised = c.raised
  sendOk : c'.sendOk = c.sendOk
  passed : ∀ q j, (c'.ackMatrix q).get? j = some true ↔
    (c.ackMatrix q).get? j = some true ∨ (q ∈ qs ∧ j = i)
  noFailures : c.NoFailures → c'.NoFailures

theorem Recorded.refl (c : Controller) (i : Nat) : Recorded i [] c c :=
  ⟨rfl, rfl, rfl, rfl, by simp, id⟩

theorem Recorded.cons {q : Qtrm} {qs : List Qtrm} (h : Recorded i [q] c c')
    (h' : Recorded i qs c' c'') : Recorded i (q :: qs) c c'' where
  core := h'.core.trans h.core
  sends := h'.sends.trans h.sends
  raised := h'.raised.trans h.raised
  sendOk := h'.sendOk.trans h.sendOk
  passed := by
    intro q' j
    rw [h'.passed, h.passed, List.mem_singleton, List.mem_cons, or_and_right, or_assoc]
  noFailures := fun hn => h'.noFailures (h.noFailures hn)

theorem recorded_setAck (c : Controller) (q : Qtrm) (i : Nat) :
    Recorded i [q] c (c.setAck q i true) where
  core := core_setAck q i true
  sends := by
    unfold setAck
    split <;> simp
  raised := by
    unfold setAck
    split <;> rfl
  sendOk := (same_setAck q i true).sendOk
  passed := by simp [get?_setAck]
  noFailures := by
    intro hn q' x hx
    unfold setAck at hx
    split at hx
    · rw [emit_ackMatrix] at hx
      by_cases hq : q' = q
      · subst hq
        simp only [Function.update_self] at hx
        rcases Dict.mem_set hx with rfl | hx
        · rfl
        · exact hn q' x hx
      · simp only [Function.update_of_ne hq] at hx
        exact hn q' x hx
    · exact hn q' x hx

/-- Chunk `i` is not the one in flight. -/
def Moved (i : Nat) (c : Controller) : Prop :=
  ¬ (c.uploadPhase = some .stream ∧ c.currentChunk = some i)

theorem Moved.congr (h : Moved i c) (he : c'.core = c.core) : Moved i c' := by
  have h₁ : c'.uploadPhase = c.uploadPhase := congrArg Core.uploadPhase he
  have h₂ : c'.currentChunk = c.currentChunk := congrArg Core.currentChunk he
  rwa [Moved, h₁, h₂]

/-- The acknowledgement of a chunk that is no longer in flight is recorded. -/
theorem dispatchSlot_moved (hop : c.op = some .upload) (hi : i < c.chunkCount) (hm : Moved i c)
    (q : Qtrm) {base : SlotBase} {passFail : UInt8} (hp : transferFailed passFail = false) :
    c.dispatchSlot q (.bitstreamAck base i passFail) = c.setAck q i true := by
  have hm' := hm.congr (core_setAck q i true)
  rw [Moved] at hm'
  unfold dispatchSlot
  rw [hop]
  dsimp only
  rw [hp, recordAck, if_neg (Nat.not_le.2 hi)]
  exact if_neg fun h => hm' ⟨h.1, h.2.2⟩

/-- A turn of the slot loop for a passing acknowledgement. -/
theorem onSlot_pass {slots : Qtrm → Bytes} {b : Bool} {q : Qtrm} (hr : c.raised = false)
    (hq : PassAck (slots q) i) : ∃ base passFail, transferFailed passFail = false ∧
      onSlot .bitstream slots (c, b) q =
        (c.dispatchSlot q (.bitstreamAck base i passFail), true) := by
  obtain ⟨base, pf, hparse, hpf⟩ := hq
  refine ⟨base, pf, hpf, ?_⟩
  simp [onSlot, hr, hparse]

theorem foldl_moved {slots : Qtrm → Bytes} (hs : ∀ q, PassAck (slots q) i) (qs : List Qtrm) {b : Bool}
    (hop : c.op = some .upload) (hr : c.raised = false) (hi : i < c.chunkCount) (hm : Moved i c) :
    Recorded i qs c (qs.foldl (onSlot .bitstream slots) (c, b)).1 := by
  induction qs generalizing c b with
  | nil => exact Recorded.refl c i
  | cons q qs ih =>
    obtain ⟨base, pf, hpf, he⟩ := onSlot_pass (b := b) hr (hs q)
    have hrec := recorded_setAck c q i
    rw [List.foldl_cons, he, dispatchSlot_moved hop hi hm q hpf]
    refine hrec.cons (ih ?_ ?_ ?_ (hm.congr hrec.core))
    · exact (op_of_core hrec.core).trans hop
    · exact hrec.raised.trans hr
    · rwa [show (c.setAck q i true).chunkCount = c.chunkCount from chunkCount_of_core hrec.core]

/-- With a connection a chunk goes out without an exception. -/
theorem sendCurrentChunk_connected {x : Bytes × Nat} (hl : c.sendOk = true)
    (h : c.chunks[i]? = some x) :
    (c.sendCurrentChunk i).raised = false ∧ (c.sendCurrentChunk i).ackMatrix = c.ackMatrix := by
  unfold sendCurrentChunk
  rw [h]
  dsimp only
  obtain ⟨rc, -, he⟩ := c.sendRp_eq (buildBitstreamDataHeader x.2 c.chunkCount i) x.1
    s!"Bitstream chunk {i + 1}/{c.chunkCount} ({x.2} bytes)"
  rw [he]
  generalize c.rpFrame _ _ = frame
  simp [next, sendFn, emit, hl]

/-- With a connection an accepted upload arms its one-shot. -/
theorem startUpload_connected {image : Bytes} {golden : Bool} (ha : c.Accepts (.upload image golden))
    (hl : c.sendOk = true) : ∃ rc o, c.startOp (.upload image golden) = { c with
      rc, chunks := splitChunks image, chunkCount := (splitChunks image).length
      ackMatrix := fun _ => [], imageIsGolden := golden, op := some .upload, gotAnyFrame := false
      uploadPhase := some .stream, currentChunk := none, pendingShots := c.pendingShots + 1
      raised := false, out := c.out ++ o } := by
  obtain ⟨hop, hg, hne⟩ := ha
  have hb : c.busy = false := by simp [busy, hop]
  have he : image.isEmpty = false := by simpa using hne
  simp only [startOp, startUpload, hb, hg, he, Bool.not_true, Bool.or_self, Bool.false_eq_true, if_false]
  obtain ⟨rc, -, hs⟩ := sendRp_eq (c := { c with
      chunks := splitChunks image, chunkCount := (splitChunks image).length
      ackMatrix := fun _ => [], imageIsGolden := golden
      op := some .upload, gotAnyFrame := false, uploadPhase := some .stream })
    (buildBitstreamReceiveCommand rpPayloadSize (splitChunks image).length golden) []
    s!"Bitstream Receive announce (0x33, {goldenName golden} image, {(splitChunks image).length} x {rpPayloadSize}B)"
  rw [hs]
  generalize rpFrame _ _ _ = frame
  simp only [next, sendFn, emit, hl, Bool.not_true, Bool.false_eq_true, if_false, List.append_assoc]
  exact ⟨rc, _, rfl⟩

/-- A response frame during an upload is its slot loop. -/
theorem onFrame_slots {raw : Bytes} (hop : c.op = some .upload) (hph : c.uploadPhase ≠ none)
    (hl : raw.length = totalPacketSize)
    (hd : ((List.finRange 96).foldl (onSlot .bitstream (rpSlot raw))
      ({ c with gotAnyFrame := true }, false)).1.op = some .upload)
    (hr : ((List.finRange 96).foldl (onSlot .bitstream (rpSlot raw))
      ({ c with gotAnyFrame := true }, false)).1.raised = false) :
    ∃ text, c.onFrame raw = ((List.finRange 96).foldl (onSlot .bitstream (rpSlot raw))
      ({ c with gotAnyFrame := true }, false)).1.emit (.logFrame raw false text) := by
  have hctx : ({ c with gotAnyFrame := true } : Controller).context = .bitstream :=
    if_pos ⟨hop, hph⟩
  rw [onFrame_upload hop, onSlots, extractRpSlots_ok hl]
  dsimp only
  rw [hctx]
  generalize (List.finRange 96).foldl (onSlot .bitstream (rpSlot raw))
    ({ c with gotAnyFrame := true }, false) = acc at hd hr
  rw [next, if_neg (by simp [hr]), afterSlots_upload (by exact hd)]
  exact ⟨_, rfl⟩

theorem Recorded.of_core {d : Controller} {qs : List Qtrm} (h : Recorded i qs d c')
    (hc : d.core = c.core) (ho : d.out = c.out) (hr : d.raised = c.raised) (hl : d.sendOk = c.sendOk)
    (hm : d.ackMatrix = c.ackMatrix) : Recorded i qs c c' where
  core := h.core.trans hc
  sends := h.sends.trans (by rw [ho])
  raised := h.raised.trans hr
  sendOk := h.sendOk.trans hl
  passed := by simpa [hm] using h.passed
  noFailures := fun hn => h.noFailures (by rwa [NoFailures, hm])

theorem Recorded.emit {qs : List Qtrm} (h : Recorded i qs c c') {s : Signal} (hs : s.frame? = none) :
    Recorded i qs c (c'.emit s) where
  core := h.core
  sends := by rw [sends_emit, hs, h.sends]; simp
  raised := h.raised
  sendOk := h.sendOk
  passed := h.passed
  noFailures := h.noFailures

/-- A frame about a chunk that is no longer in flight. -/
theorem onFrame_known {raw : Bytes} (ha : AckFrame raw i) (hop : c.op = some .upload)
    (hph : c.uploadPhase ≠ none) (hr : c.raised = false) (hi : i < c.chunkCount) (hm : Moved i c) :
    Recorded i (List.finRange 96) c (c.onFrame raw) := by
  have hrec := foldl_moved (c := { c with gotAnyFrame := true }) (b := false) ha.2 (List.finRange 96)
    hop hr hi hm
  obtain ⟨text, he⟩ := onFrame_slots hop hph ha.1 ((op_of_core hrec.core).trans hop)
    (hrec.raised.trans hr)
  rw [he]
  have hlog := hrec.emit (s := .logFrame raw false text) rfl
  exact hlog.of_core (d := { c with gotAnyFrame := true }) rfl rfl rfl rfl rfl

/-- The first acknowledgement of the chunk in flight moves the upload on. -/
theorem dispatchSlot_current (hop : c.op = some .upload) (hi : i < c.chunkCount)
    (hph : c.uploadPhase = some .stream) (hcur : c.currentChunk = some i) (q : Qtrm) {base : SlotBase}
    {passFail : UInt8} (hp : transferFailed passFail = false) :
    c.dispatchSlot q (.bitstreamAck base i passFail) = (c.setAck q i true).sendNextChunk false := by
  have hcore := core_setAck (c := c) q i true
  unfold dispatchSlot
  rw [hop]
  dsimp only
  rw [hp, recordAck, if_neg (Nat.not_le.2 hi)]
  exact if_pos ⟨(uploadPhase_of_core hcore).trans hph, rfl,
    (currentChunk_of_core hcore).trans hcur⟩

/-- A frame about the chunk in flight: its first slot leads to `d`, the others only record. -/
theorem onFrame_current {raw : Bytes} (ha : AckFrame raw i) (hop : c.op = some .upload)
    (hph : c.uploadPhase = some .stream) (hcur : c.currentChunk = some i) (hr : c.raised = false)
    (hi : i < c.chunkCount) {d : Controller}
    (hd : ({ c with gotAnyFrame := true }.setAck 0 i true).sendNextChunk false = d)
    (hdop : d.op = some .upload) (hdr : d.raised = false) (hdi : i < d.chunkCount) (hdm : Moved i d) :
    Recorded i ((List.finRange 95).map Fin.succ) d (c.onFrame raw) := by
  have hrec := foldl_moved (b := true) ha.2 ((List.finRange 95).map Fin.succ) hdop hdr hdi hdm
  have hfold : (List.finRange 96).foldl (onSlot .bitstream (rpSlot raw))
      ({ c with gotAnyFrame := true }, false) =
        ((List.finRange 95).map Fin.succ).foldl (onSlot .bitstream (rpSlot raw)) (d, true) := by
    obtain ⟨base, pf, hpf, hon⟩ := onSlot_pass (c := { c with gotAnyFrame := true }) (b := false) hr
      (ha.2 0)
    rw [List.finRange_succ, List.foldl_cons, hon,
      dispatchSlot_current (c := { c with gotAnyFrame := true }) hop hi hph hcur 0 hpf, hd]
  generalize ((List.finRange 95).map Fin.succ).foldl (onSlot .bitstream (rpSlot raw)) (d, true) = acc
    at hrec hfold
  have hacc : acc.1.op = some .upload := (op_of_core hrec.core).trans hdop
  have haccr : acc.1.raised = false := hrec.raised.trans hdr
  obtain ⟨text, heq⟩ := onFrame_slots hop (by simp [hph]) ha.1 (by rwa [hfold]) (by rwa [hfold])
  rw [heq, hfold]
  exact hrec.emit (s := .logFrame raw false text) rfl

/-- What the frame about the chunk in flight leaves: the entries of all QTRMs, and what `core` says
about the rest. -/
structure Acked (i : Nat) (core : Core) (frames : List Bytes) (c c' : Controller) : Prop where
  core : c'.core = core
  sends : sends c'.out = sends c.out ++ frames
  sendOk : c'.sendOk = c.sendOk
  passed : ∀ q j, (c'.ackMatrix q).get? j = some true ↔ (c.ackMatrix q).get? j = some true ∨ j = i
  noFailures : c.NoFailures → c'.NoFailures

theorem mem_tail_or_zero (q : Qtrm) : q ∈ [(0 : Qtrm)] ∨ q ∈ (List.finRange 95).map Fin.succ := by
  have h := List.mem_finRange q
  rw [List.finRange_succ, List.mem_cons] at h
  exact h.imp_left List.mem_singleton.2

theorem acked_of_recorded {core : Core} {frames : List Bytes} {s d : Controller}
    (hs : Recorded i [0] c s) (hcore : d.core = core) (hsend : QccGui.sends d.out = QccGui.sends s.out ++ frames)
    (hl : d.sendOk = s.sendOk) (hm : d.ackMatrix = s.ackMatrix)
    (h : Recorded i ((List.finRange 95).map Fin.succ) d c') : Acked i core frames c c' where
  core := h.core.trans hcore
  sends := by rw [h.sends, hsend, hs.sends]
  sendOk := h.sendOk.trans (hl.trans hs.sendOk)
  passed := by
    intro q j
    rw [h.passed, hm, hs.passed, or_assoc, ← or_and_right]
    exact or_congr_right ⟨And.right, fun hj => ⟨mem_tail_or_zero q, hj⟩⟩
  noFailures := fun hn => h.noFailures (by
    have := hs.noFailures hn
    rwa [NoFailures, hm])

/-- The first slot of a response is counted. -/
theorem recorded_gotAnyFrame (c : Controller) (i : Nat) :
    Recorded i [0] c ({ c with gotAnyFrame := true }.setAck 0 i true) :=
  (recorded_setAck { c with gotAnyFrame := true } 0 i).of_core rfl rfl rfl rfl rfl

/-- With a connection the next chunk goes out, and nothing else happens. -/
theorem sendNextChunk_connected {x : Bytes × Nat} (hl : c.sendOk = true)
    (hcur : c.currentChunk = some i) (hi : i + 1 < c.chunkCount) (hx : c.chunks[i + 1]? = some x) :
    ∃ d e : Controller, c.sendNextChunk false = d ∧ d.core = { c.core with currentChunk := some (i + 1) } ∧
      sends d.out = sends c.out ++ [e.rpFrame (buildBitstreamDataHeader x.2 c.chunkCount (i + 1)) x.1] ∧
      d.raised = false ∧ d.sendOk = c.sendOk ∧ d.ackMatrix = c.ackMatrix := by
  have hnext : c.nextIndex false = i + 1 := by
    rw [nextIndex, hcur]
    rfl
  have hx' : ({ c with currentChunk := some (i + 1) } : Controller).chunks[i + 1]? = some x := hx
  obtain ⟨hdr, hdm⟩ := sendCurrentChunk_connected (c := { c with currentChunk := some (i + 1) }) hl hx'
  refine ⟨_, { c with currentChunk := some (i + 1) }, rfl, ?_⟩
  rw [sendNextChunk_of_lt (by rw [hnext]; exact hi), hnext]
  exact ⟨core_sendCurrentChunk _, sends_sendCurrentChunk hx', hdr, (same_sendCurrentChunk _).sendOk, hdm⟩

/-- The frame about the chunk in flight sends the next one. -/
theorem onFrame_next {raw : Bytes} (ha : AckFrame raw i) (hop : c.op = some .upload)
    (hph : c.uploadPhase = some .stream) (hcur : c.currentChunk = some i) (hr : c.raised = false)
    (hl : c.sendOk = true) (hi : i + 1 < c.chunkCount) {x : Bytes × Nat}
    (hx : c.chunks[i + 1]? = some x) : ∃ d : Controller, Acked i { c.core with currentChunk := some (i + 1) }
      [d.rpFrame (buildBitstreamDataHeader x.2 c.chunkCount (i + 1)) x.1] c (c.onFrame raw) := by
  have hs := recorded_gotAnyFrame c i
  generalize hse : ({ c with gotAnyFrame := true }.setAck 0 i true : Controller) = s at hs
  have hcount : s.chunkCount = c.chunkCount := chunkCount_of_core hs.core
  obtain ⟨d, e, hsend, hdc, hds, hdr, hdl, hdm⟩ := sendNextChunk_connected (c := s) (x := x)
    (hs.sendOk.trans hl) ((currentChunk_of_core hs.core).trans hcur) (by rw [hcount]; exact hi)
    (by rw [chunks_of_core hs.core]; exact hx)
  have hdcore : d.core = { c.core with currentChunk := some (i + 1) } := by
    rw [hdc, hs.core]
  have hrec := onFrame_current ha hop hph hcur hr (by omega) (by rw [hse]; exact hsend)
    ((congrArg Core.op hdcore).trans hop) hdr ?_ ?_
  · refine ⟨e, acked_of_recorded hs hdcore ?_ hdl hdm hrec⟩
    rw [hds, ← hcount]
  · have : d.chunkCount = c.chunkCount := congrArg Core.chunkCount hdcore
    omega
  · have : d.currentChunk = some (i + 1) := congrArg Core.currentChunk hdcore
    simp [Moved, this]

/-- The frame about the last chunk begins the grace phase. -/
theorem onFrame_last {raw : Bytes} (ha : AckFrame raw i) (hop : c.op = some .upload)
    (hph : c.uploadPhase = some .stream) (hcur : c.currentChunk = some i) (hr : c.raised = false)
    (hi : i + 1 = c.chunkCount) : Acked i { c.core with
      uploadPhase := some .grace, timer := some (.graceTimeout, trailingAckGraceMs) } [] c
      (c.onFrame raw) := by
  have hs := recorded_gotAnyFrame c i
  generalize hse : ({ c with gotAnyFrame := true }.setAck 0 i true : Controller) = s at hs
  have hcount : s.chunkCount = c.chunkCount := chunkCount_of_core hs.core
  have hnext : s.nextIndex false = i + 1 := by
    have : s.currentChunk = some i := (currentChunk_of_core hs.core).trans hcur
    rw [nextIndex, this]
    rfl
  have hsend : s.sendNextChunk false = s.enterGrace :=
    sendNextChunk_grace (by rw [hnext, hcount]; exact hi.ge)
  have hrec := onFrame_current (d := s.enterGrace) ha hop hph hcur hr (by omega)
    (by rw [hse]; exact hsend) ((op_of_core hs.core).trans hop) (hs.raised.trans hr)
    (show i < s.chunkCount by omega) (by simp [Moved, enterGrace])
  refine acked_of_recorded (d := s.enterGrace) hs ?_ ?_ rfl rfl hrec
  · rw [← hs.core]
    rfl
  · simp [enterGrace]

/-! ## A frame with one acknowledgement -/

/-- A response frame in which only `q` has a slot, which acknowledges chunk `i` as passed. -/
structure OneAck (raw : Bytes) (q : Qtrm) (i : Nat) : Prop where
  length : raw.length = totalPacketSize
  pass : PassAck (rpSlot raw q) i
  others : ∀ q', q' ≠ q → rpSlot raw q' = zeros 10

theorem oneAck_oneSlot {slot : Bytes} (hs : slot.length = 10) (h : PassAck slot i) (q : Qtrm) :
    OneAck (oneSlot q slot) q i := by
  refine ⟨oneSlot_length hs q, ?_, fun q' hq => ?_⟩
  · rw [rpSlot_oneSlot hs, if_pos rfl]
    exact h
  · rw [rpSlot_oneSlot hs, if_neg hq]

theorem foldl_zeros {slots : Qtrm → Bytes} (qs : List Qtrm) (hz : ∀ q ∈ qs, slots q = zeros 10)
    (acc : Controller × Bool) : qs.foldl (onSlot .bitstream slots) acc = acc := by
  induction qs generalizing acc with
  | nil => rfl
  | cons q qs ih =>
    have hskip : onSlot .bitstream slots acc q = acc := by
      have hp : parseSlot (zeros 10) .bitstream = .ok none := rfl
      rw [onSlot, hz q (List.mem_cons_self ..), hp]
      exact ite_self acc
    rw [List.foldl_cons, hskip]
    exact ih (fun q hq => hz q (List.mem_cons_of_mem _ hq)) acc

/-- The slot loop for such a frame is the turn of its one slot. -/
theorem foldl_oneAck {raw : Bytes} {q : Qtrm} (h : OneAck raw q i) (acc : Controller × Bool) :
    (List.finRange 96).foldl (onSlot .bitstream (rpSlot raw)) acc =
      onSlot .bitstream (rpSlot raw) acc q := by
  obtain ⟨as, bs, hab⟩ := List.append_of_mem (List.mem_finRange q)
  have hnd : (as ++ q :: bs).Nodup := hab ▸ List.nodup_finRange 96
  have hne : ∀ q' ∈ as ++ bs, q' ≠ q := by
    rintro q' hq' rfl
    have := List.nodup_middle.1 hnd
    exact (List.nodup_cons.1 this).1 hq'
  rw [hab, List.foldl_append, List.foldl_cons,
    foldl_zeros as fun q' hq' => h.others q' (hne q' (List.mem_append_left _ hq')),
    foldl_zeros bs fun q' hq' => h.others q' (hne q' (List.mem_append_right _ hq'))]

/-- The frame is the handling of its one slot. -/
theorem onFrame_oneAck {raw : Bytes} {q : Qtrm} (h : OneAck raw q i) (hop : c.op = some .upload)
    (hph : c.uploadPhase ≠ none) (hr : c.raised = false) {d : Controller}
    (hd : ∀ base pf, transferFailed pf = false →
      ({ c with gotAnyFrame := true } : Controller).dispatchSlot q (.bitstreamAck base i pf) = d)
    (hdop : d.op = some .upload) (hdr : d.raised = false) :
    ∃ text, c.onFrame raw = d.emit (.logFrame raw false text) := by
  obtain ⟨base, pf, hpf, hon⟩ := onSlot_pass (c := { c with gotAnyFrame := true }) (b := false) hr h.pass
  have hfold := foldl_oneAck h ({ c with gotAnyFrame := true }, false)
  rw [hon, hd base pf hpf] at hfold
  obtain ⟨text, he⟩ := onFrame_slots hop hph h.length (by rw [hfold]; exact hdop)
    (by rw [hfold]; exact hdr)
  exact ⟨text, by rw [he, hfold]⟩

/-! ## An upload with a chunk in flight -/

/-- An upload of `image` is streaming, with the chunk `cur` in flight. -/
structure InFlight (image : Bytes) (cur : Option Nat) (c : Controller) : Prop where
  op : c.op = some .upload
  phase : c.uploadPhase = some .stream
  chunks : c.chunks = splitChunks image
  count : c.chunkCount = (splitChunks image).length
  current : c.currentChunk = cur
  sendOk : c.sendOk = true

variable {image : Bytes} {k : Nat} {x : Bytes × Nat}

theorem InFlight.next {cur : Option Nat} (h : InFlight image cur c)
    (hd : c'.core = { c.core with currentChunk := some k }) (hl : c'.sendOk = c.sendOk) :
    InFlight image (some k) c' := by
  simp only [core, Core.mk.injEq] at hd
  obtain ⟨h₁, h₂, h₃, h₄, h₅, h₆, h₇⟩ := hd
  exact ⟨h₁.trans h.op, h₆.trans h.phase, h₃.trans h.chunks, h₄.trans h.count, h₅, hl.trans h.sendOk⟩

theorem inFlight_start {golden : Bool} (ha : c.Accepts (.upload image golden)) (hl : c.sendOk = true) :
    InFlight image none (c.handle (.start (.upload image golden))) ∧
      0 < (c.handle (.start (.upload image golden))).pendingShots := by
  obtain ⟨rc, o, hst⟩ := startUpload_connected (c := c.cleared) ha hl
  have hg : c.handle (.start (.upload image golden)) = c.cleared.startOp (.upload image golden) := rfl
  rw [hg, hst]
  exact ⟨⟨rfl, rfl, rfl, rfl, rfl, hl⟩, Nat.succ_pos _⟩

/-- The one-shot of an upload puts chunk 0 in flight. -/
theorem inFlight_shot (hok : c.Ok) (h : InFlight image none c) (hp : 0 < c.pendingShots)
    (hx : (splitChunks image)[0]? = some x) :
    InFlight image (some 0) (c.handle .shot) ∧ ∃ d : Controller, sends (c.handle .shot).out =
      [d.rpFrame (buildBitstreamDataHeader x.2 (splitChunks image).length 0) x.1] := by
  have hshot : c.handle .shot = ({ c.cleared with
      pendingShots := c.pendingShots - 1, currentChunk := some 0 } : Controller).sendCurrentChunk 0 :=
    onShot_eq (c := c.cleared) (hok.congr rfl) hp
  have hd : InFlight image (some 0) ({ c.cleared with
      pendingShots := c.pendingShots - 1, currentChunk := some 0 } : Controller) :=
    ⟨h.op, h.phase, h.chunks, h.count, rfl, h.sendOk⟩
  have hout : sends ({ c.cleared with
      pendingShots := c.pendingShots - 1, currentChunk := some 0 } : Controller).out = [] := rfl
  rw [hshot]
  generalize ({ c.cleared with
    pendingShots := c.pendingShots - 1, currentChunk := some 0 } : Controller) = d at hd hout
  refine ⟨hd.next ?_ (same_sendCurrentChunk 0).sendOk, d, ?_⟩
  · rw [core_sendCurrentChunk, ← hd.current]
    rfl
  · rw [sends_sendCurrentChunk (hd.chunks ▸ hx), hout, hd.count]
    rfl

/-- The grace phase of an upload, behind its last chunk. -/
structure InGrace (image : Bytes) (c : Controller) : Prop where
  op : c.op = some .upload
  timer : c.timer.isSome
  current : c.currentChunk = some ((splitChunks image).length - 1)

/-- The acknowledgements of the chunk in flight and of all behind it bring the upload to its grace
phase. -/
theorem inGrace_acks (raws : List Bytes) (h : InFlight image (some k) c) (hne : raws ≠ [])
    (hlen : k + raws.length = (splitChunks image).length)
    (ha : ∀ i raw, raws[i]? = some raw → AckFrame raw (k + i)) :
    (∀ y ∈ machine.trace c (raws.map .frame), y.1.op = some .upload) ∧
      InGrace image (machine.exec c (raws.map .frame)) := by
  induction raws generalizing c k with
  | nil => exact absurd rfl hne
  | cons raw raws ih =>
    rw [List.length_cons] at hlen
    have hcount : c.cleared.chunkCount = (splitChunks image).length := h.count
    have hack : AckFrame raw k := ha 0 raw rfl
    have hrest : ∀ i raw', raws[i]? = some raw' → AckFrame raw' (k + 1 + i) := by
      intro i raw' hi
      rw [Nat.add_right_comm]
      exact ha (i + 1) raw' hi
    by_cases hlast : raws = []
    · subst hlast
      have hd := onFrame_last (c := c.cleared) hack h.op h.phase h.current rfl (by simpa [hcount] using hlen)
      change Acked k _ _ c.cleared (machine.step c (.frame raw)) at hd
      refine ⟨fun y hy => ?_, (congrArg Core.op hd.core).trans h.op, ?_,
        (congrArg Core.currentChunk hd.core).trans (h.current.trans ?_)⟩
      · obtain rfl := List.mem_singleton.1 hy
        exact h.op
      · have htimer : (machine.step c (.frame raw)).timer = some (.graceTimeout, trailingAckGraceMs) :=
          congrArg Core.timer hd.core
        exact Option.isSome_iff_exists.2 ⟨_, htimer⟩
      · simp [← hlen]
    · have hpos := List.length_pos_iff.2 hlast
      obtain ⟨x, hx⟩ : ∃ x, (splitChunks image)[k + 1]? = some x :=
        ⟨_, List.getElem?_eq_getElem (by omega)⟩
      obtain ⟨d, hd⟩ := onFrame_next (c := c.cleared) hack h.op h.phase h.current rfl h.sendOk
        (by omega) (show c.chunks[k + 1]? = some x by rw [h.chunks, hx])
      change Acked k _ _ c.cleared (machine.step c (.frame raw)) at hd
      have hin : InFlight image (some (k + 1)) (machine.step c (.frame raw)) := h.next hd.core hd.sendOk
      obtain ⟨hmid, hgrace⟩ := ih hin hlast (by omega) hrest
      refine ⟨fun y hy => ?_, hgrace⟩
      rcases List.mem_cons.1 hy with rfl | hy
      · exact h.op
      · exact hmid y hy

end Controller

end QccGui
