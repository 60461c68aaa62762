import QccGui.Gui.Stream

/-!
# What one event of an upload sends and records

* `Confined`: the data frames carry packets of the image, and passes are recorded only where the
  slots of a frame report them.
* `confined_react`: every event between the start of an upload and the next start.
-/

namespace QccGui

open Lib

namespace Controller

/-- The controller holds the chunks of `image`, its outputs are data frames with packets of the
image and signals, and its matrix has passes in `A` only. -/
structure Confined (image : Bytes) (A : Qtrm → Nat → Prop) (c : Controller) : Prop where
  chunks : c.chunks = splitChunks image
  count : c.chunkCount = c.chunks.length
  sent : ∀ frame ∈ sends c.out, frame.length = rpFrameSize ∧
    frame.drop headerSize ∈ chunkPackets (splitChunks image)
  passes : ∀ q i, (c.ackMatrix q).get? i = some true → A q i

variable {image : Bytes} {A : Qtrm → Nat → Prop} {c c' : Controller} {e : Event}

theorem Confined.congr (h : Confined image A c) (hc : c'.chunks = c.chunks)
    (hn : c'.chunkCount = c.chunkCount) (hs : sends c'.out = sends c.out)
    (hm : c'.ackMatrix = c.ackMatrix) : Confined image A c' :=
  ⟨hc.trans h.chunks, by rw [hn, hc, h.count], by rw [hs]; exact h.sent, by rw [hm]; exact h.passes⟩

/-- Sending changes neither the chunks nor the matrix. -/
theorem ackMatrix_sendCurrentChunk (c : Controller) (i : Nat) :
    (c.sendCurrentChunk i).ackMatrix = c.ackMatrix := by
  unfold sendCurrentChunk
  split
  · rfl
  · rename_i data realLen _
    refine next_of (P := fun d => d.ackMatrix = c.ackMatrix) ?_ fun d hd => hd
    obtain ⟨rc, -, he⟩ := c.sendRp_eq (buildBitstreamDataHeader realLen c.chunkCount i) data
      s!"Bitstream chunk {i + 1}/{c.chunkCount} ({realLen} bytes)"
    rw [he]
    exact next_of (P := fun d => d.ackMatrix = c.ackMatrix) rfl fun d hd => hd

theorem confined_sendNextChunk (h : Confined image A c) (first : Bool) :
    Confined image A (c.sendNextChunk first) := by
  rcases Nat.lt_or_ge (c.nextIndex first) c.chunkCount with hi | hi
  · rw [sendNextChunk_of_lt hi]
    generalize c.nextIndex first = i at hi
    have hcore := core_sendCurrentChunk (c := { c with currentChunk := some i }) i
    obtain ⟨x, hx⟩ : ∃ x, c.chunks[i]? = some x := ⟨_, List.getElem?_eq_getElem (h.count ▸ hi)⟩
    have hget := h.chunks ▸ hx
    refine ⟨(chunks_of_core hcore).trans h.chunks, ?_, ?_, ?_⟩
    · rw [chunkCount_of_core hcore, chunks_of_core hcore]
      exact h.count
    · intro frame hf
      rw [sends_sendCurrentChunk (c := { c with currentChunk := some i }) hx] at hf
      rcases List.mem_append.1 hf with hf | hf
      · exact h.sent frame hf
      · obtain ⟨hlen, hdrop⟩ := rpFrame_data (c := { c with currentChunk := some i })
          (buildBitstreamDataHeader_length x.2 c.chunkCount i) (splitChunks_data hget)
        rw [List.mem_singleton.1 hf, hdrop]
        refine ⟨hlen, List.mem_of_getElem? (i := i) ?_⟩
        rw [getElem?_chunkPackets, hget, Option.map_some, h.count, h.chunks]
    · rw [ackMatrix_sendCurrentChunk]
      exact h.passes
  · rw [sendNextChunk_grace hi]
    exact h.congr rfl rfl rfl rfl

theorem confined_recordAck (h : Confined image A c) {q : Qtrm} {i : Nat} {ok : Bool}
    (hA : ok = true → A q i) : Confined image A (c.recordAck q i ok) := by
  unfold recordAck
  dsimp only
  split
  · exact h
  · have hcore := core_setAck (c := c) q i ok
    have hset : Confined image A (c.setAck q i ok) := by
      refine ⟨(chunks_of_core hcore).trans h.chunks, ?_, ?_, fun q' j hj => ?_⟩
      · rw [chunkCount_of_core hcore, chunks_of_core hcore]
        exact h.count
      · have hs : sends (c.setAck q i ok).out = sends c.out := by
          unfold setAck
          split <;> simp
        rw [hs]
        exact h.sent
      · rcases (c.get?_setAck q q' i j ok).1 hj with hj | ⟨rfl, rfl, hok⟩
        · exact h.passes q' j hj
        · exact hA hok
    split
    · exact confined_sendNextChunk hset false
    · exact hset

theorem confined_dispatchSlot (h : Confined image A c) (hop : c.op = some .upload) {q : Qtrm}
    {parsed : Slot} (hA : ∀ base i pf, parsed = .bitstreamAck base i pf → transferFailed pf = false →
      A q i) : Confined image A (c.dispatchSlot q parsed) := by
  unfold dispatchSlot
  rw [hop]
  dsimp only
  split
  · exact confined_recordAck h fun hok => hA _ _ _ rfl (by simpa using hok)
  · exact h.congr rfl rfl (by simp) rfl

/-- A response frame during an upload. -/
theorem confined_onFrame (hok : c.Ok) (h : Confined image A c) (hop : c.op = some .upload) {raw : Bytes}
    (hA : ∀ q i, PassAck (rpSlot raw q) i → A q i) : Confined image A (c.onFrame raw) := by
  have hctx : ({ c with gotAnyFrame := true } : Controller).context = .bitstream :=
    if_pos ⟨hop, (hok.upload hop).2⟩
  have hg : Confined image A { c with gotAnyFrame := true } := h.congr rfl rfl rfl rfl
  have hgop : ({ c with gotAnyFrame := true } : Controller).op = some .upload := hop
  rw [onFrame_upload hop]
  generalize ({ c with gotAnyFrame := true } : Controller) = d at hctx hg hgop
  unfold onSlots
  by_cases hl : raw.length = totalPacketSize
  · rw [extractRpSlots_ok hl]
    dsimp only
    rw [hctx]
    have hslot : ∀ d q parsed, parseSlot (rpSlot raw q) .bitstream = .ok (some parsed) →
        Confined image A d ∧ d.op = some .upload →
        Confined image A (dispatchSlot d q parsed) ∧ (dispatchSlot d q parsed).op = some .upload := by
      rintro d q parsed hp ⟨hd, hdop⟩
      refine ⟨confined_dispatchSlot hd hdop ?_, (same_dispatchSlot q parsed).op.trans hdop⟩
      rintro base i pf rfl hpf
      exact hA q i ⟨base, pf, hp, hpf⟩
    have hfold := foldl_onSlot (P := fun d => Confined image A d ∧ d.op = some .upload) (b := false)
      (List.finRange 96) ⟨hg, hgop⟩ hslot
    generalize (List.finRange 96).foldl (onSlot .bitstream (rpSlot raw)) (d, false) = acc at hfold
    apply next_of' hfold.1
    rw [afterSlots_upload (by exact hfold.2)]
    exact hfold.1.congr rfl rfl (by simp) rfl
  · obtain ⟨err, he⟩ := extractRpSlots_error hl
    rw [he]
    exact hg.congr rfl rfl rfl rfl

/-- Every event of an upload, and every event after its end that does not start a session. -/
theorem confined_react (hok : c.Ok) (h : Confined image A c)
    (hop : c.op = some .upload ∨ c.op = none) (hs : ∀ what, e = .start what → ¬ c.Accepts what)
    (hA : ∀ raw q i, e = .frame raw → PassAck (rpSlot raw q) i → A q i) :
    Confined image A (c.react e) ∧ ((c.react e).op = some .upload ∨ (c.react e).op = none) := by
  have hop' : (c.react e).op = some .upload ∨ (c.react e).op = none := by
    cases react_effect hok e with
    | same hsame _ _ => rwa [hsame.op]
    | retargeted _ heq => rw [heq]; exact hop
    | linked _ heq => rw [heq]; exact hop
    | started hst ha _ => exact absurd ha (hs _ hst)
    | ended hend _ => exact .inr hend.after
  refine ⟨?_, hop'⟩
  cases e with
  | start what =>
    rw [show c.react (.start what) = c from startOp_refused (hs what rfl)]
    exact h
  | frame raw =>
    rcases hop with hop | hop
    · exact confined_onFrame hok h hop fun q i => hA raw q i rfl
    · rw [show c.react (.frame raw) = c by simp [react, onFrame, hop]]
      exact h
  | timer =>
    rcases ht : c.timer with _ | ⟨hd, ms⟩
    · rw [show c.react .timer = c by simp [react, onTimer, ht]]
      exact h
    · have hcl := (hok.timer hd ms ht).1
      obtain rfl : hd = .graceTimeout := by
        cases hd <;> rcases hop with hop | hop <;> simp_all [Handler.Closes]
      rw [show c.react .timer = { c with timer := none }.closeUploadPass by simp [react, onTimer, ht]]
      exact h.congr rfl rfl (by simp [closeUploadPass, finish]) rfl
  | shot =>
    exact confined_sendNextChunk (c := { c with pendingShots := c.pendingShots - 1 })
      (h.congr rfl rfl rfl rfl) true
  | cancel =>
    change Confined image A c.cancel
    unfold cancel
    split
    · exact h
    · exact h.congr rfl rfl (by simp [finish]) rfl
  | _ => exact h.congr rfl rfl rfl rfl

end Controller

end QccGui
