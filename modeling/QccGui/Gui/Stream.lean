import QccGui.Gui.Gate

/-!
# The chunk stream

Which data frames the controller hands to its send function, and when.

* `dataFrames`: the bitstream data frames among the outputs.
* `chunkPackets`: what the data frames carry behind their headers.
* `Streamed`: the data frames are the chunks of the image from the first one on, each after an
  acknowledgement of the one before.
* `Tidy`, `Streaming`: the invariants between and during the uploads.
* `no_stray_chunks`, and `stray_chunk_after_cancel`, a run with a cancel that comes before the first
  chunk.
-/

namespace QccGui

open Lib

/-- The bitstream data frames: the only frames with a payload behind the inner command. -/
def dataFrames (out : List Signal) : List Bytes := (sends out).filter (·.length = rpFrameSize)

@[simp] theorem dataFrames_nil : dataFrames [] = [] := rfl

@[simp] theorem dataFrames_append (o o' : List Signal) :
    dataFrames (o ++ o') = dataFrames o ++ dataFrames o' := by simp [dataFrames]

theorem dataFrames_of_sends {o : List Signal} (h : sends o = []) : dataFrames o = [] := by
  simp [dataFrames, h]

theorem dataFrames_send {frame : Bytes} (h : frame.length ≠ rpFrameSize) :
    dataFrames [.send frame] = [] := by simp [dataFrames, sends, h]

theorem mem_sends {o : List Signal} {frame : Bytes} : frame ∈ sends o ↔ .send frame ∈ o := by
  rw [sends, List.mem_filterMap]
  refine ⟨?_, fun h => ⟨_, h, rfl⟩⟩
  rintro ⟨s, hs, hf⟩
  cases s <;> simp_all

theorem mem_dataFrames {o : List Signal} {frame : Bytes} :
    frame ∈ dataFrames o ↔ .send frame ∈ o ∧ frame.length = rpFrameSize := by
  rw [dataFrames, List.mem_filter, mem_sends, decide_eq_true_eq]

/-- The packets of the chunks: each chunk behind its data header. -/
def chunkPackets (chunks : List (Bytes × Nat)) : List Bytes :=
  chunks.mapIdx fun i x => buildBitstreamDataHeader x.2 chunks.length i ++ x.1

theorem getElem?_chunkPackets (chunks : List (Bytes × Nat)) (i : Nat) :
    (chunkPackets chunks)[i]? =
      chunks[i]?.map fun x => buildBitstreamDataHeader x.2 chunks.length i ++ x.1 :=
  List.getElem?_mapIdx

@[simp] theorem chunkPackets_length (chunks : List (Bytes × Nat)) :
    (chunkPackets chunks).length = chunks.length := List.length_mapIdx

/-- Every data frame carries the chunk whose number is the count of the data frames before it, and
every one but the first comes after a passing acknowledgement of the chunk before. -/
def Streamed (image : Bytes) (out : List Signal) : Prop :=
  ∀ before frame after, out = before ++ .send frame :: after → frame.length = rpFrameSize →
    (chunkPackets (splitChunks image))[(dataFrames before).length]? = some (frame.drop headerSize) ∧
      (0 < (dataFrames before).length →
        ∃ q, .ackRecorded q ((dataFrames before).length - 1) true ∈ before)

theorem streamed_nil (image : Bytes) : Streamed image [] := by
  intro before frame after h
  simp at h

variable {image : Bytes} {out : List Signal}

/-- Outputs without a data frame. -/
theorem Streamed.append {o : List Signal} (h : Streamed image out) (ho : dataFrames o = []) :
    Streamed image (out ++ o) := by
  intro before frame after he hl
  rcases List.append_eq_append_iff.1 he with ⟨as, rfl, has⟩ | ⟨bs, rfl, hbs⟩
  · exact absurd (ho ▸ mem_dataFrames.2 ⟨by simp [has], hl⟩) List.not_mem_nil
  · cases bs with
    | nil =>
      rw [List.nil_append] at hbs
      exact absurd (ho ▸ mem_dataFrames.2 ⟨by simp [← hbs], hl⟩) List.not_mem_nil
    | cons s bs =>
      obtain ⟨rfl, rfl⟩ := List.cons.inj hbs
      exact h before frame bs rfl hl

/-- The next data frame. -/
theorem Streamed.snoc {frame : Bytes} (h : Streamed image out)
    (hp : (chunkPackets (splitChunks image))[(dataFrames out).length]? = some (frame.drop headerSize))
    (ha : 0 < (dataFrames out).length →
      ∃ q, .ackRecorded q ((dataFrames out).length - 1) true ∈ out) :
    Streamed image (out ++ [.send frame]) := by
  intro before frame' after he hl
  rcases List.append_eq_append_iff.1 he with ⟨as, rfl, has⟩ | ⟨bs, rfl, hbs⟩
  · cases as with
    | nil =>
      obtain ⟨hs, -⟩ := List.cons.inj has
      obtain rfl := Signal.send.inj hs
      rw [List.append_nil]
      exact ⟨hp, ha⟩
    | cons s as => simp at has
  · cases bs with
    | nil =>
      obtain ⟨hs, -⟩ := List.cons.inj hbs
      obtain rfl := Signal.send.inj hs
      rw [List.append_nil] at hp ha
      exact ⟨hp, ha⟩
    | cons s bs =>
      obtain ⟨rfl, rfl⟩ := List.cons.inj hbs
      exact h before frame' bs rfl hl

/-- Every chunk has the full payload size. -/
theorem splitChunks_data {i : Nat} {x : Bytes × Nat} (h : (splitChunks image)[i]? = some x) :
    x.1.length = rpPayloadSize := by
  obtain ⟨j, -, rfl⟩ := List.mem_map.1 (List.mem_of_getElem? h)
  have : (slice image (rpPayloadSize * j) rpPayloadSize).length ≤ rpPayloadSize := by
    simp [slice]
  simp only [List.length_append, List.length_replicate]
  omega

namespace Controller

variable {c : Controller} {e : Event}

/-- The frame of a chunk. -/
theorem rpFrame_data {cmd data : Bytes} (hc : cmd.length = rpInnerCmdSize)
    (hd : data.length = rpPayloadSize) :
    (c.rpFrame cmd data).length = rpFrameSize ∧
      (c.rpFrame cmd data).drop headerSize = cmd ++ data := by
  have hne : data ≠ [] := by
    rintro rfl
    exact absurd hd (by decide)
  rw [rpFrame, if_pos hne, remoteProgrammingFrame, hd, Nat.sub_self]
  constructor
  · simp [hc, hd, rpFrameSize, zeros]
    omega
  · rw [zeros, List.replicate_zero, List.append_nil, List.append_assoc]
    exact List.drop_left' (by simp)

theorem rpFrame_cmd_length {cmd : Bytes} (hc : cmd.length = rpInnerCmdSize) :
    (c.rpFrame cmd []).length = rpCmdFrameSize := by
  simp [rpFrame, remoteProgrammingCmdFrame, hc, rpCmdFrameSize]

/-! ## Between the uploads -/

/-- The one-shot of an upload is outstanding only before the first chunk of that upload. -/
structure Tidy (c : Controller) : Prop where
  one : c.pendingShots ≤ 1
  shot : 0 < c.pendingShots → c.op = some .upload ∧ c.currentChunk = none
  idle : c.op ≠ some .upload → c.currentChunk = none
  grace : c.uploadPhase = some .grace → c.pendingShots = 0

/-- No session is cancelled while the first chunk of an upload is still to be sent. -/
def NoCancelBeforeShot (c : Controller) : Event → Prop
  | .cancel => c.pendingShots = 0
  | _ => True

theorem tidy_init (rc : RcSettings) : (init rc).Tidy :=
  ⟨Nat.zero_le 1, nofun, fun _ => rfl, nofun⟩

theorem Tidy.congr {c' : Controller} (h : c.Tidy) (he : c'.core = c.core) : c'.Tidy := by
  simp only [core, Core.mk.injEq] at he
  obtain ⟨h₁, h₂, h₃, h₄, h₅, h₆, h₇⟩ := he
  obtain ⟨o₁, o₂, o₃, o₄⟩ := h
  exact ⟨by rwa [h₇], by rwa [h₁, h₅, h₇], by rwa [h₁, h₅], by rwa [h₆, h₇]⟩

theorem Tidy.shots_zero (h : c.Tidy) (hop : c.op ≠ some .upload) : c.pendingShots = 0 :=
  Nat.eq_zero_of_not_pos fun hp => hop (h.shot hp).1

theorem tidy_finish {c' : Controller} {ok : Bool} {text : String} (hp : c.pendingShots = 0)
    (he : c'.core = c.core) : (c'.finish ok text).Tidy := by
  have hp' : c'.pendingShots = 0 := (pendingShots_of_core he).trans hp
  exact ⟨by simp [finish, emit, hp'], by simp [finish, emit, hp'], fun _ => rfl, fun _ => hp'⟩

theorem tidy_sendNextChunk (h : c.Tidy) (hop : c.op = some .upload) {i : Nat}
    (hc : c.currentChunk = some i) : (c.sendNextChunk false).Tidy := by
  have hp : c.pendingShots = 0 := Nat.eq_zero_of_not_pos fun hp => by
    simpa [hc] using (h.shot hp).2
  rcases Nat.lt_or_ge (c.nextIndex false) c.chunkCount with hi | hi
  · rw [sendNextChunk_of_lt hi]
    refine Tidy.congr (c := { c with currentChunk := some (c.nextIndex false) }) ?_
      (core_sendCurrentChunk _)
    exact ⟨by simp [hp], by simp [hp], fun hne => absurd hop hne, fun _ => hp⟩
  · rw [sendNextChunk_grace hi]
    exact ⟨by simp [enterGrace, hp], by simp [enterGrace, hp], fun hne => absurd hop hne, fun _ => hp⟩

theorem tidy_dispatchSlot (h : c.Tidy) (q : Qtrm) (parsed : Slot) :
    (c.dispatchSlot q parsed).Tidy := by
  unfold dispatchSlot
  split
  · exact h.congr rfl
  · split <;> exact h.congr rfl
  · exact h.congr rfl
  · exact h.congr rfl
  · exact h.congr rfl
  · exact h.congr rfl
  · rename_i hop
    split
    · rename_i i passFail
      unfold recordAck
      dsimp only
      split
      · exact h
      · have hs := h.congr (core_setAck q i (!transferFailed passFail))
        split
        · rename_i hc
          exact tidy_sendNextChunk hs ((same_setAck ..).op.trans hop) hc.2.2
        · exact hs
    · exact h.congr rfl
  · exact h

theorem tidy_afterSlots (h : c.Tidy) : c.afterSlots.Tidy := by
  unfold afterSlots
  split
  · rename_i hop
    exact tidy_finish (h.shots_zero (by simp [hop])) rfl
  · rename_i hop
    exact tidy_finish (h.shots_zero (by simp [hop])) rfl
  · rename_i op _ _ hop
    split
    · rename_i ho
      refine tidy_finish (h.shots_zero ?_) rfl
      rcases ho.1 with rfl | rfl | rfl <;> simp [hop]
    · exact h
  · exact h

theorem tidy_onSlots (h : c.Tidy) (raw : Bytes) : (c.onSlots raw).Tidy := by
  unfold onSlots
  split
  · exact h.congr rfl
  · rename_i slots _
    have hl : ((List.finRange 96).foldl (onSlot c.context slots) (c, false)).1.Tidy :=
      foldl_onSlot (P := Tidy) _ h fun _ q parsed _ h => tidy_dispatchSlot h q parsed
    generalize (List.finRange 96).foldl (onSlot c.context slots) (c, false) = acc at hl
    exact next_of (P := Tidy) hl fun d hd => tidy_afterSlots (hd.congr rfl)

theorem tidy_onFrame (h : c.Tidy) (raw : Bytes) : (c.onFrame raw).Tidy := by
  unfold onFrame
  split
  · exact h
  · rename_i op hop
    cases op with
    | modeStep1 => exact tidy_finish (h.shots_zero (by simp [hop])) rfl
    | modeStep2 => exact tidy_finish (h.shots_zero (by simp [hop])) rfl
    | qtrmHighSpeed => exact tidy_finish (h.shots_zero (by simp [hop])) rfl
    | modeBack => exact tidy_finish (h.shots_zero (by simp [hop])) rfl
    | _ => exact tidy_onSlots (c := { c with gotAnyFrame := true }) (h.congr rfl) raw

/-- A timer that fires finds no one-shot outstanding. -/
theorem shots_zero_of_timer (hok : c.Ok) (h : c.Tidy) (ht : c.timer.isSome) :
    c.pendingShots = 0 := by
  obtain ⟨⟨hd, ms⟩, ht⟩ := Option.isSome_iff_exists.1 ht
  obtain ⟨hcl, hg⟩ := hok.timer hd ms ht
  cases hd with
  | simpleTimeout => exact h.shots_zero fun hop => by simp [Handler.Closes, hop] at hcl
  | iapWindowClosed => exact h.shots_zero fun hop => by simp [Handler.Closes, hop] at hcl
  | graceTimeout => exact h.grace (hg rfl)

theorem tidy_onTimer (hok : c.Ok) (h : c.Tidy) : c.onTimer.Tidy := by
  unfold onTimer
  split
  · exact h
  · rename_i hd ms ht
    have hp := shots_zero_of_timer hok h (by simp [ht])
    have hn : ({ c with timer := none } : Controller).Tidy := ⟨h.one, h.shot, h.idle, h.grace⟩
    cases hd with
    | simpleTimeout =>
      dsimp only [onSimpleTimeout]
      split
      · split <;> exact tidy_finish (c := { c with timer := none }) hp rfl
      · split <;> exact tidy_finish (c := { c with timer := none }) hp rfl
      · split <;> exact tidy_finish (c := { c with timer := none }) hp rfl
      · split <;> exact tidy_finish (c := { c with timer := none }) hp rfl
      · exact tidy_finish (c := { c with timer := none }) hp rfl
      · exact tidy_finish (c := { c with timer := none }) hp rfl
      · exact hn
    | iapWindowClosed =>
      dsimp only [onIapWindowClosed]
      split
      · exact hn
      · split
        · exact tidy_finish (c := { c with timer := none }) hp rfl
        · split <;> exact tidy_finish (c := { c with timer := none }) hp rfl
    | graceTimeout => exact tidy_finish (c := { c with timer := none }) hp rfl

theorem tidy_onShot (hok : c.Ok) (h : c.Tidy) (hp : 0 < c.pendingShots) : c.onShot.Tidy := by
  have hz : c.pendingShots - 1 = 0 := by have := h.one; omega
  rw [onShot_eq hok hp]
  refine Tidy.congr (c := { c with pendingShots := c.pendingShots - 1, currentChunk := some 0 }) ?_
    (core_sendCurrentChunk 0)
  exact ⟨by simp [hz], by simp [hz], fun hne => absurd (h.shot hp).1 hne, fun _ => hz⟩

theorem tidy_startOp (h : c.Tidy) (what : Start) : (c.startOp what).Tidy := by
  by_cases ha : c.Accepts what
  · have hop := ha.1
    have hb : c.busy = false := by simp [busy, hop]
    have hp := h.shots_zero (by simp [hop])
    have hi := h.idle (by simp [hop])
    -- a started session that has sent no chunk
    have hs : ∀ d : Controller, d.pendingShots = 0 → d.currentChunk = none → d.Tidy :=
      fun d hd hc => ⟨by simp [hd], by simp [hd], fun _ => hc, fun _ => hd⟩
    have hsend : ∀ (op : Op) (ms : Nat) (hd : Handler) rc frame text,
        (({ c.start op ms hd with rc }.sendFn frame).next (·.emit (.logFrame frame true text))).Tidy :=
      fun op ms hd rc frame text =>
        next_of (P := Tidy) (hs _ hp hi) fun _ h => h.congr rfl
    cases what with
    | modeStep1 =>
      simp only [startOp, startModeStep1, hb, Bool.false_eq_true, if_false]
      exact hsend ..
    | modeStep2 =>
      simp only [startOp, startModeStep2, hb, Bool.false_eq_true, if_false]
      exact hsend ..
    | modeBack =>
      have hg : c.gateOpen = true := ha.2
      simp only [startOp, startModeBack, hb, hg, Bool.not_true, Bool.or_self, Bool.false_eq_true,
        if_false]
      exact hsend ..
    | upload image golden =>
      obtain ⟨-, hg, hne⟩ := ha
      have he : image.isEmpty = false := by simpa using hne
      simp only [startOp, startUpload, hb, hg, he, Bool.not_true, Bool.or_self, Bool.false_eq_true,
        if_false]
      have hcore := fun d : Controller => core_sendRp (c := d)
        (buildBitstreamReceiveCommand rpPayloadSize (splitChunks image).length golden) []
      refine next_of' (Tidy.congr (hs { c with
        chunks := splitChunks image, chunkCount := (splitChunks image).length
        ackMatrix := fun _ => [], imageIsGolden := golden
        op := some .upload, gotAnyFrame := false, uploadPhase := some .stream } hp hi)
          (hcore _ _)) ⟨?_, fun _ => ⟨?_, rfl⟩, fun _ => rfl, ?_⟩
      · rw [pendingShots_of_core (core_sendRp ..)]
        exact Nat.le_of_eq (congrArg (· + 1) hp)
      · exact congrArg Core.op (hcore _ _)
      · intro hg
        have := (congrArg Core.uploadPhase (hcore _ _)).symm.trans hg
        simp [core] at this
    | _ =>
      have hg : c.gateOpen = true := ha.2
      simp only [startOp, startLinkCheck, startLruInfo, startQtrmHighSpeed, startAuthenticate,
        startVerify, startProgram, startIapPoll, hb, hg, Bool.not_true, Bool.or_self,
        Bool.false_eq_true, if_false]
      refine Tidy.congr (hs _ ?_ ?_) (core_sendRp ..)
      · exact hp
      · exact hi
  · rw [startOp_refused ha]
    exact h

theorem tidy_handle (hok : c.Ok) (h : c.Tidy) (he : machine.enabled c e)
    (hc : NoCancelBeforeShot c e) : (c.handle e).Tidy := by
  have hok' : c.cleared.Ok := hok.congr rfl
  have h' : c.cleared.Tidy := h.congr rfl
  cases e with
  | start what => exact tidy_startOp h' what
  | frame raw => exact tidy_onFrame h' raw
  | timer => exact tidy_onTimer hok' h'
  | shot => exact tidy_onShot hok' h' he
  | cancel =>
    rcases eq_or_ne c.op none with hop | hop
    · rw [handle, react, cancel, if_pos (by exact hop)]
      exact h'
    · rw [handle, react, cancel, if_neg (by exact hop)]
      exact tidy_finish hc rfl
  | _ => exact h'.congr rfl

theorem tidy_run {rc : RcSettings} {tr : List Step} (hr : machine.Run (init rc) tr c)
    (hc : Machine.Along NoCancelBeforeShot tr) : c.Ok ∧ c.Tidy :=
  hr.invariant (I := fun c => c.Ok ∧ c.Tidy) ⟨ok_init rc, tidy_init rc⟩
    (fun _ _ h he hc => ⟨ok_handle h.1 he, tidy_handle h.1 h.2 he hc⟩) hc

/-! ## During an upload -/

/-- How many chunks the session has sent. -/
def sentCount (c : Controller) : Nat :=
  match c.currentChunk with
  | none => 0
  | some i => i + 1

/-- An upload of `image` is active; `before` are the outputs of its earlier events. -/
structure Streaming (image : Bytes) (before : List Signal) (c : Controller) : Prop where
  op : c.op = some .upload
  chunks : c.chunks = splitChunks image
  count : c.chunkCount = c.chunks.length
  shot : 0 < c.pendingShots → c.currentChunk = none
  streamed : Streamed image (before ++ c.out)
  sent : (dataFrames (before ++ c.out)).length = c.sentCount
  acked : ∀ q i, (c.ackMatrix q).get? i = some true → .ackRecorded q i true ∈ before ++ c.out

variable {before : List Signal}

/-- Emitting anything but a data frame. -/
theorem Streaming.emit (h : Streaming image before c) {s : Signal} (hs : dataFrames [s] = []) :
    Streaming image before (c.emit s) := by
  have ho : before ++ (c.emit s).out = before ++ c.out ++ [s] := by simp [Controller.emit]
  refine ⟨h.op, h.chunks, h.count, h.shot, ?_, ?_, fun q i hq => ?_⟩ <;> rw [ho]
  · exact h.streamed.append hs
  · rw [dataFrames_append, hs, List.append_nil]
    exact h.sent
  · exact List.mem_append_left _ (h.acked q i hq)

theorem Streaming.emit_log (h : Streaming image before c) (raw : Bytes) (tx : Bool) (text : String) :
    Streaming image before (c.emit (.logFrame raw tx text)) := h.emit rfl

/-- The next event starts with no outputs. -/
theorem Streaming.rebase (h : Streaming image before c) :
    Streaming image (before ++ c.out) c.cleared := by
  have ho : before ++ c.out ++ c.cleared.out = before ++ c.out := List.append_nil _
  refine ⟨h.op, h.chunks, h.count, h.shot, ?_, ?_, ?_⟩ <;> rw [ho]
  · exact h.streamed
  · exact h.sent
  · exact h.acked

/-- A command without a payload. -/
theorem Streaming.sendRp (h : Streaming image before c) {cmd : Bytes}
    (hc : cmd.length = rpInnerCmdSize) (text : String) :
    Streaming image before (c.sendRp cmd [] text) := by
  obtain ⟨rc, -, he⟩ := c.sendRp_eq cmd [] text
  rw [he]
  refine next_of ?_ fun d hd => hd.emit_log ..
  have hm := h.emit (s := .send (c.rpFrame cmd []))
    (dataFrames_send (by rw [rpFrame_cmd_length hc]; decide))
  exact ⟨hm.op, hm.chunks, hm.count, hm.shot, hm.streamed, hm.sent, hm.acked⟩

/-- The next chunk goes out. -/
theorem streaming_sendCurrentChunk (h : Streaming image before c) (hs : c.sentCount < c.chunkCount)
    (hp : c.pendingShots = 0)
    (ha : 0 < c.sentCount → ∃ q, (c.ackMatrix q).get? (c.sentCount - 1) = some true) :
    Streaming image before
      ({ c with currentChunk := some c.sentCount }.sendCurrentChunk c.sentCount) := by
  have hl : c.sentCount < c.chunks.length := h.count ▸ hs
  unfold sendCurrentChunk
  rw [List.getElem?_eq_getElem hl]
  dsimp only
  generalize hx : c.chunks[c.sentCount] = x
  have hget : (splitChunks image)[c.sentCount]? = some x := by
    rw [← h.chunks, List.getElem?_eq_getElem hl, hx]
  refine next_of ?_ fun d hd => hd.emit rfl
  obtain ⟨rc, -, he⟩ := sendRp_eq (c := { c with currentChunk := some c.sentCount })
    (buildBitstreamDataHeader x.2 c.chunkCount c.sentCount) x.1
    s!"Bitstream chunk {c.sentCount + 1}/{c.chunkCount} ({x.2} bytes)"
  rw [he]
  refine next_of ?_ fun d hd => hd.emit_log ..
  obtain ⟨hlen, hdrop⟩ := rpFrame_data (c := { c with currentChunk := some c.sentCount })
    (buildBitstreamDataHeader_length x.2 c.chunkCount c.sentCount) (splitChunks_data hget)
  generalize rpFrame _ _ _ = frame at hlen hdrop
  have ho : ∀ d : Controller, before ++ (d.sendFn frame).out = before ++ d.out ++ [.send frame] := by
    simp [sendFn, Controller.emit]
  refine ⟨h.op, h.chunks, h.count, by simp [sendFn, Controller.emit, hp], ?_, ?_, fun q i hq => ?_⟩ <;>
    rw [ho]
  · refine h.streamed.snoc ?_ fun hpos => ?_
    · rw [h.sent, hdrop, getElem?_chunkPackets, hget, Option.map_some, h.count, h.chunks]
    · rw [h.sent] at hpos ⊢
      obtain ⟨q, hq⟩ := ha hpos
      exact ⟨q, h.acked q _ hq⟩
  · have hf : dataFrames [.send frame] = [frame] := by simp [dataFrames, sends, hlen]
    rw [dataFrames_append, List.length_append, hf, h.sent]
    rfl
  · exact List.mem_append_left _ (h.acked q i hq)

theorem Streaming.congr {c' : Controller} (h : Streaming image before c) (he : c'.core = c.core)
    (ho : c'.out = c.out) (hm : c'.ackMatrix = c.ackMatrix) : Streaming image before c' := by
  simp only [core, Core.mk.injEq] at he
  obtain ⟨h₁, h₂, h₃, h₄, h₅, h₆, h₇⟩ := he
  obtain ⟨o₁, o₂, o₃, o₄, o₅, o₆, o₇⟩ := h
  exact ⟨by rwa [h₁], by rwa [h₃], by rwa [h₃, h₄], by rwa [h₅, h₇], by rwa [ho],
    by rwa [ho, sentCount, h₅], by rwa [ho, hm]⟩

/-- A pass is recorded for good, and only where one was reported. -/
theorem get?_setAck (c : Controller) (q q' : Qtrm) (i j : Nat) (ok : Bool) :
    ((c.setAck q i ok).ackMatrix q').get? j = some true ↔
      (c.ackMatrix q').get? j = some true ∨ (q' = q ∧ j = i ∧ ok = true) := by
  unfold setAck
  split
  · rename_i h
    rw [emit_ackMatrix]
    dsimp only
    by_cases hq : q' = q
    · subst hq
      rw [Function.update_self, Dict.get?_set]
      by_cases hj : j = i
      · subst hj
        simp [h]
      · simp [hj]
    · rw [Function.update_of_ne hq]
      simp [hq]
  · rename_i h
    refine ⟨.inl, ?_⟩
    rintro (hj | ⟨rfl, rfl, -⟩)
    · exact hj
    · exact Decidable.not_not.1 h

theorem streaming_setAck (h : Streaming image before c) (q : Qtrm) (i : Nat) (ok : Bool) :
    Streaming image before (c.setAck q i ok) := by
  have hget := c.get?_setAck q
  unfold setAck at *
  split
  · have hm := h.emit (s := .ackRecorded q i ok) rfl
    refine ⟨hm.op, hm.chunks, hm.count, hm.shot, hm.streamed, hm.sent, fun q' j hj => ?_⟩
    have := hget q' i j ok
    rw [if_pos ‹_›] at this
    rcases this.1 hj with hj | ⟨rfl, rfl, rfl⟩
    · exact hm.acked q' j hj
    · simp [Controller.emit]
  · exact h

theorem streaming_recordAck (h : Streaming image before c) (q : Qtrm) (i : Nat) (ok : Bool) :
    Streaming image before (c.recordAck q i ok) := by
  unfold recordAck
  dsimp only
  split
  · exact h
  · have hs := streaming_setAck h q i ok
    split
    · rename_i hc
      obtain ⟨-, rfl, hcur⟩ := hc
      have hcount : (c.setAck q i true).sentCount = i + 1 := by rw [sentCount, hcur]
      have hnext : (c.setAck q i true).nextIndex false = (c.setAck q i true).sentCount := by
        rw [hcount, nextIndex, hcur]
        rfl
      have hp : (c.setAck q i true).pendingShots = 0 := Nat.eq_zero_of_not_pos fun hp => by
        simpa [hcur] using hs.shot hp
      rcases Nat.lt_or_ge ((c.setAck q i true).nextIndex false) (c.setAck q i true).chunkCount with hi | hi
      · rw [sendNextChunk_of_lt hi, hnext]
        refine streaming_sendCurrentChunk hs (hnext ▸ hi) hp fun _ => ⟨q, ?_⟩
        rw [hcount]
        exact (c.get?_setAck q q i i true).2 (.inr ⟨rfl, rfl, rfl⟩)
      · rw [sendNextChunk_grace hi]
        exact ⟨hs.op, hs.chunks, hs.count, hs.shot, hs.streamed, hs.sent, hs.acked⟩
    · exact hs

theorem streaming_dispatchSlot (h : Streaming image before c) (q : Qtrm) (parsed : Slot) :
    Streaming image before (c.dispatchSlot q parsed) := by
  unfold dispatchSlot
  rw [h.op]
  dsimp only
  split
  · exact streaming_recordAck h ..
  · exact h.emit rfl

theorem streaming_onFrame (h : Streaming image before c) (raw : Bytes) :
    Streaming image before (c.onFrame raw) := by
  rw [onFrame_upload h.op]
  have hg : Streaming image before { c with gotAnyFrame := true } := h.congr rfl rfl rfl
  generalize ({ c with gotAnyFrame := true } : Controller) = d at hg
  unfold onSlots
  split
  · exact hg.congr rfl rfl rfl
  · rename_i slots _
    have hl : Streaming image before
        ((List.finRange 96).foldl (onSlot d.context slots) (d, false)).1 :=
      foldl_onSlot (P := Streaming image before) _ hg fun _ q parsed _ h => streaming_dispatchSlot h q parsed
    generalize (List.finRange 96).foldl (onSlot d.context slots) (d, false) = acc at hl
    refine next_of hl fun x hx => ?_
    rw [afterSlots_upload (by exact hx.op)]
    exact hx.emit_log ..

/-- One event of an active upload: the data frames go on, and so does the invariant while the
session does. -/
theorem streaming_react (hok : c.Ok) (ht : c.Tidy) (ho : c.out = []) (h : Streaming image before c)
    (he : machine.enabled c e) :
    Streamed image (before ++ (c.react e).out) ∧
      ((c.react e).op = some .upload → Streaming image before (c.react e)) := by
  -- while the invariant holds so does the property of the outputs
  have hgo : ∀ d, Streaming image before d →
      Streamed image (before ++ d.out) ∧ (d.op = some .upload → Streaming image before d) :=
    fun d hd => ⟨hd.streamed, fun _ => hd⟩
  -- the end of the session sends nothing
  have hend : ∀ d, Ended .upload c d →
      Streamed image (before ++ d.out) ∧ (d.op = some .upload → Streaming image before d) := by
    intro d hd
    have hs : sends d.out = [] := hd.sends.trans (by rw [ho]; rfl)
    refine ⟨Streamed.append ?_ (dataFrames_of_sends hs), fun hu => absurd hd.after (by simp [hu])⟩
    simpa [ho] using h.streamed
  cases e with
  | start what =>
    rw [show c.react (.start what) = c from
      startOp_refused fun ha => by simpa [h.op] using ha.1]
    exact hgo _ h
  | frame raw => exact hgo _ (streaming_onFrame h raw)
  | timer => exact hend _ (ended_onTimer_upload hok h.op he)
  | shot =>
    have hp : c.pendingShots = 1 := by
      have h1 := ht.one
      have h0 : 0 < c.pendingShots := he
      omega
    have hcur : c.currentChunk = none := (ht.shot he).2
    rw [show c.react .shot = c.onShot from rfl, onShot_eq hok he]
    have hd : Streaming image before { c with pendingShots := c.pendingShots - 1 } :=
      ⟨h.op, h.chunks, h.count, fun _ => hcur, h.streamed, h.sent, h.acked⟩
    have hsent : ({ c with pendingShots := c.pendingShots - 1 } : Controller).sentCount = 0 := by
      simp [sentCount, hcur]
    have := streaming_sendCurrentChunk hd (hsent ▸ hok.shots he) (by simp [hp]) (by simp [hsent])
    rw [hsent] at this
    exact hgo _ this
  | cancel =>
    rw [show c.react .cancel = c.finish false "Cancelled by operator" by
      simp [react, cancel, h.op]]
    exact hend _ (ended_finish (Same.refl c) h.op rfl _ _)
  | _ => exact hgo _ (h.congr rfl rfl rfl)

/-- Where an accepted upload begins. -/
theorem streaming_start {golden : Bool} (h : c.Tidy) (ha : c.Accepts (.upload image golden)) :
    Streaming image [] (c.handle (.start (.upload image golden))) := by
  obtain ⟨hop, hg, hne⟩ := ha
  have he : image.isEmpty = false := by simpa using hne
  have hb : c.busy = false := by simp [busy, hop]
  have hcur := h.idle (by simp [hop])
  have hcur' : c.cleared.currentChunk = none := hcur
  have hbase : Streaming image [] { c.cleared with
      chunks := splitChunks image, chunkCount := (splitChunks image).length
      ackMatrix := fun _ => [], imageIsGolden := golden
      op := some .upload, gotAnyFrame := false, uploadPhase := some .stream } :=
    ⟨rfl, rfl, rfl, fun _ => hcur, streamed_nil image, by simp [sentCount, cleared, hcur],
      fun q i hq => by simp at hq⟩
  simp only [handle, react, startOp, startUpload, show c.cleared.busy = false from hb,
    show c.cleared.gateOpen = true from hg, he, Bool.not_true, Bool.or_self, Bool.false_eq_true, if_false]
  have hcmd : (buildBitstreamReceiveCommand rpPayloadSize (splitChunks image).length golden).length =
    rpInnerCmdSize := rfl
  have hd := hbase.sendRp hcmd
    s!"Bitstream Receive announce (0x33, {goldenName golden} image, {(splitChunks image).length} x {rpPayloadSize}B)"
  refine next_of' hd ⟨hd.op, hd.chunks, hd.count, fun _ => rfl, hd.streamed, ?_, hd.acked⟩
  rw [hd.sent, sentCount, currentChunk_of_core (core_sendRp ..), hcur']
  rfl

theorem startFrame_length (c : Controller) (what : Start) :
    (c.startFrame what).length ≠ rpFrameSize := by
  cases what with
  | modeStep1 =>
    rw [startFrame, broadcastBootloaderFrame, slotFrame_length (by simp) fun i => by
      split <;> simp [buildModeChangeCommand, rpInnerCmdSize, qtrmSlotSize]]
    decide
  | modeStep2 =>
    rw [startFrame, qccLevelFrame, qccLevelHeader, RcSettings.buildHeader_length]
    decide
  | modeBack =>
    rw [startFrame, qccLevelFrame, qccLevelHeader, RcSettings.buildHeader_length]
    decide
  | _ =>
    simp [startFrame, remoteProgrammingCmdFrame, buildLinkRequest, buildLruInfoRequest,
      buildModeChangeMssToFab, buildFirmwareUpdateCommand, rpFrameSize, headerSize,
      rpPayloadSize, rpInnerCmdSize]

/-- A data frame goes out only while an upload is active. -/
theorem upload_of_dataFrame (hok : c.Ok) (ht : c.Tidy) (he : machine.enabled c e) {frame : Bytes}
    (hs : .send frame ∈ (c.handle e).out) (hl : frame.length = rpFrameSize) :
    c.op = some .upload := by
  have hmem : frame ∈ sends (c.handle e).out := mem_sends.2 hs
  cases handle_effect hok e with
  | same _ _ hsend =>
    rcases hsend with hsend | hop | rfl
    · simp [hsend, cleared] at hmem
    · exact hop
    · exact (ht.shot he).1
  | retargeted _ h => simp [h, cleared] at hmem
  | linked _ h => simp [h, cleared] at hmem
  | @started what _ _ h =>
    have : frame = c.cleared.startFrame what := by simpa [h.sends, cleared] using hmem
    exact absurd hl (this ▸ startFrame_length _ _)
  | ended h _ => simp [h.sends, cleared] at hmem

/-! ## Every run -/

/-- The outputs of the steps `tr`. -/
def outputs (tr : List Step) : List Signal := tr.flatMap fun x => (machine.post x).out

/-- In every upload session of the steps `tr` the data frames are those of its image. -/
def SessionsStreamed (tr : List Step) : Prop :=
  ∀ pre x mid post image golden, tr = pre ++ x :: mid ++ post → x.2 = .start (.upload image golden) →
    x.1.Accepts (.upload image golden) → (∀ y ∈ mid, y.1.op = some .upload) →
    Streamed image (outputs (x :: mid))

/-- Data frames go out only while an upload is active. -/
def NoDataOutsideUpload (tr : List Step) : Prop :=
  ∀ x ∈ tr, ∀ frame, .send frame ∈ (machine.post x).out → frame.length = rpFrameSize →
    x.1.op = some .upload

/-- The steps of one upload session. -/
theorem streamed_session {x : Step} {mid : List Step} {golden : Bool} (hok : x.1.Ok) (ht : x.1.Tidy)
    (hx : x.2 = .start (.upload image golden)) (ha : x.1.Accepts (.upload image golden))
    (hr : machine.Run (machine.post x) mid c) (hc : Machine.Along NoCancelBeforeShot mid)
    (hm : ∀ y ∈ mid, y.1.op = some .upload) : Streamed image (outputs (x :: mid)) := by
  obtain ⟨s, e⟩ := x
  obtain rfl : e = .start (.upload image golden) := hx
  have hstart : Streaming image [] (s.handle (.start (.upload image golden))) := streaming_start ht ha
  -- the outputs up to the last step, and the invariant while the session is active
  have hall := Machine.Run.history
    (P := fun tr d => (d.Ok ∧ d.Tidy) ∧ Streamed image (outputs ((s, .start (.upload image golden)) :: tr)) ∧
      (d.op = some .upload →
        Streaming image (outputs ((s, .start (.upload image golden)) :: tr)) d.cleared))
    (C := fun d e => NoCancelBeforeShot d e ∧ d.op = some .upload) ?_ ?_ hr
    fun y hy => ⟨hc y hy, hm y hy⟩
  · exact hall.2.1
  · have he : machine.enabled s (.start (.upload image golden)) := trivial
    have ho : outputs [(s, .start (.upload image golden))] =
        (s.handle (.start (.upload image golden))).out := by simp [outputs, machine]
    rw [ho, Machine.post_mk]
    exact ⟨⟨ok_handle hok he, tidy_handle hok ht he trivial⟩, hstart.streamed, fun _ => hstart.rebase⟩
  · rintro tr d e - ⟨⟨hdok, hdt⟩, -, hd⟩ he ⟨hnc, hop⟩
    obtain ⟨hs, hgo⟩ := streaming_react (c := d.cleared) (hdok.congr rfl) (hdt.congr rfl) rfl (hd hop) he
    have ho : outputs ((s, .start (.upload image golden)) :: (tr ++ [(d, e)])) =
        outputs ((s, .start (.upload image golden)) :: tr) ++ (d.handle e).out := by
      simp [outputs, machine]
    rw [ho]
    exact ⟨⟨ok_handle hdok he, tidy_handle hdok hdt he hnc⟩, hs, fun hu => (hgo hu).rebase⟩

/-- In a run without a cancel before the first chunk no data frame is out of place. -/
theorem no_stray_chunks {rc : RcSettings} {tr : List Step} (hr : machine.Run (init rc) tr c)
    (hc : Machine.Along NoCancelBeforeShot tr) : NoDataOutsideUpload tr ∧ SessionsStreamed tr := by
  constructor
  · intro x hx frame hs hl
    obtain ⟨pre, post, rfl⟩ := List.append_of_mem hx
    obtain ⟨hpre, he, -⟩ := hr.middle
    obtain ⟨hok, ht⟩ := tidy_run hpre (Machine.along_append.1 hc).1
    exact upload_of_dataFrame hok ht he hs hl
  · rintro pre x mid post image golden rfl hx ha hm
    rw [List.append_assoc] at hr hc
    have hr : machine.Run (init rc) (pre ++ x :: (mid ++ post)) c := hr
    obtain ⟨hpre, -, hrest⟩ := hr.middle
    obtain ⟨d, hmid, -⟩ := hrest.split
    obtain ⟨hc₁, hc₂⟩ := Machine.along_append.1 hc
    obtain ⟨hok, ht⟩ := tidy_run hpre hc₁
    exact streamed_session hok ht hx ha hmid (Machine.along_append.1 (Machine.along_cons.1 hc₂).2).1 hm

/-- The events that open the gate. -/
def openGate : List Event :=
  [.start .modeStep1, .frame (zeros 90), .start .modeStep2, .frame (zeros 90)]

theorem openGate_run : machine.Run (init sampleSettings) (machine.trace (init sampleSettings) openGate)
    (machine.exec (init sampleSettings) openGate) :=
  Machine.Allows.run ⟨trivial, trivial, trivial, trivial, trivial⟩

/-- An upload of one chunk, which the one-shot sends. -/
theorem no_stray_chunks_one_chunk :
    NoDataOutsideUpload (machine.trace (init sampleSettings)
      (openGate ++ [.start (.upload [0] false), .shot])) ∧
    SessionsStreamed (machine.trace (init sampleSettings)
      (openGate ++ [.start (.upload [0] false), .shot])) := by
  have hen : machine.Allows (init sampleSettings)
      (openGate ++ [.start (.upload [0] false), .shot]) :=
    ⟨trivial, trivial, trivial, trivial, trivial, Nat.one_pos, trivial⟩
  apply no_stray_chunks hen.run
  simp [openGate, Machine.trace, NoCancelBeforeShot]

/-- A one-shot sends a data frame whether or not its upload is still active. -/
theorem dataFrame_of_shot (hok : c.Ok) (hp : 0 < c.pendingShots) (hch : c.chunks = splitChunks image) :
    ∃ frame, .send frame ∈ c.onShot.out ∧ frame.length = rpFrameSize := by
  have h0 : 0 < c.chunks.length := hok.count ▸ hok.shots hp
  generalize hx : c.chunks[0] = x
  have hget : c.chunks[0]? = some x := by rw [List.getElem?_eq_getElem h0, hx]
  have hd := splitChunks_data (hch ▸ hget)
  rw [onShot_eq hok hp]
  generalize hd' : ({ c with pendingShots := c.pendingShots - 1, currentChunk := some 0 } : Controller) = d
  have hs := sends_sendCurrentChunk (c := d) (i := 0) (x := x) (by rw [← hd', ← hget])
  refine ⟨d.rpFrame (buildBitstreamDataHeader x.2 d.chunkCount 0) x.1, mem_sends.1 ?_,
    (rpFrame_data rfl hd).1⟩
  rw [hs]
  exact List.mem_append_right _ (List.mem_singleton_self _)

/-- An upload that was cancelled between the announcement and the first chunk. -/
def cancelledUpload : Controller :=
  machine.exec (init sampleSettings) (openGate ++ [.start (.upload [0] false), .cancel])

/-- The one-shot of a cancelled upload sends its chunk. -/
theorem stray_chunk_after_cancel : ∃ tr c, machine.Run (init sampleSettings) tr c ∧
    Machine.events tr = openGate ++ [.start (.upload [0] false), .cancel, .shot] ∧
    ¬ NoDataOutsideUpload tr := by
  have hr : machine.Run (init sampleSettings) (machine.trace (init sampleSettings)
      (openGate ++ [.start (.upload [0] false), .cancel])) cancelledUpload :=
    Machine.Allows.run ⟨trivial, trivial, trivial, trivial, trivial, trivial, trivial⟩
  have hev : Machine.events (machine.trace (init sampleSettings)
      (openGate ++ [.start (.upload [0] false), .cancel])) =
        openGate ++ [.start (.upload [0] false), .cancel] := Machine.events_trace
  have hop : cancelledUpload.op = none := rfl
  have hp : cancelledUpload.pendingShots = 1 := rfl
  have hch : cancelledUpload.chunks = splitChunks [0] := rfl
  generalize machine.trace (init sampleSettings) _ = tr at hr hev
  generalize cancelledUpload = c at hr hop hp hch
  have hpos : 0 < c.pendingShots := by omega
  have he : machine.enabled c .shot := hpos
  refine ⟨_, _, hr.snoc he, by simp [hev], fun h => ?_⟩
  obtain ⟨frame, hs, hl⟩ := dataFrame_of_shot (c := c.cleared) ((run_ok hr).congr rfl) hpos hch
  have := h (c, .shot) (by simp) frame hs hl
  simp [hop] at this

end Controller

end QccGui
