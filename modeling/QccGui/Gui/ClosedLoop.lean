import QccGui.Gui.Acks
import QccGui.Gui.Mock

/-!
# An upload against the mock responder

The controller and the mock, with a network between them that delays, reorders and duplicates but
does not lose: a datagram that was sent can arrive at any later time and any number of times.

* `Sys`, `machine`: the composed system, from the start of an upload on.
* `Inv`: the stop-and-wait invariant, which ties the chunks sent, the acknowledgements in flight and
  the matrix together.
* `Fair`: every datagram arrives at least once and every timer fires; `fair_exists`.
* `closed_loop`: each chunk goes out once and in order, after the acknowledgement of the one before,
  and in every fair run the session ends well.
-/

namespace QccGui

open Lib

namespace ClosedLoop

open Controller

/-- The two programs and the datagrams sent so far in each direction. -/
structure Sys where
  gui : Controller
  mock : Mock
  toQcc : List Bytes
  toGui : List Bytes

inductive Event
  | gui (e : Controller.Event)
  | atQcc (frame : Bytes)
  | atGui (frame : Bytes)

/-- What can happen at the GUI besides the datagrams: everything but a cancel, a change of the
connection, and a start that is not refused. -/
def Local (c : Controller) : Controller.Event → Prop
  | .start _ => c.op ≠ none
  | .setTarget _ | .setIapWindow _ | .shot | .timer => True
  | .frame _ | .cancel | .link _ => False

/-- An event at the GUI; what it sends goes to the QCC. -/
def Sys.guiStep (s : Sys) (e : Controller.Event) : Sys :=
  { s with gui := s.gui.handle e, toQcc := s.toQcc ++ sends (s.gui.handle e).out }

def machine : Machine Sys Event where
  enabled s e := match e with
    | .gui e => Local s.gui e ∧ Controller.machine.enabled s.gui e
    | .atQcc frame => frame ∈ s.toQcc
    | .atGui frame => frame ∈ s.toGui
  step s e := match e with
    | .gui e => s.guiStep e
    | .atQcc frame => { s with
        mock := (s.mock.respond frame).1, toGui := s.toGui ++ (s.mock.respond frame).2.toList }
    | .atGui frame => s.guiStep (.frame frame)

/-- The upload has just been started. -/
def start (c : Controller) (image : Bytes) (golden : Bool) (m : Mock) : Sys :=
  { gui := c.handle (.start (.upload image golden)), mock := m
    toQcc := sends (c.handle (.start (.upload image golden))).out, toGui := [] }

/-- How many chunks have been sent; the first datagram is the announcement. -/
def Sys.chunksSent (s : Sys) : Nat := s.toQcc.length - 1

/-- The announcement, behind its header. -/
def announce (image : Bytes) (golden : Bool) : Bytes :=
  buildBitstreamReceiveCommand rpPayloadSize (splitChunks image).length golden

/-- What has been sent: the announcement and then the first chunks of the image, each once. -/
def SentInOrder (image : Bytes) (golden : Bool) (s : Sys) : Prop :=
  s.toQcc.map (·.drop headerSize) =
    announce image golden :: (chunkPackets (splitChunks image)).take s.chunksSent

/-- All QTRMs have passed the first `n` chunks. -/
def AllPassed (c : Controller) (n : Nat) : Prop :=
  ∀ i < n, ∀ q, (c.ackMatrix q).get? i = some true

/-! ## The invariant -/

/-- How far the upload of `n` chunks is once `k` of them have been sent. -/
inductive Stage (n k : Nat) (c : Controller) : Prop
  | announced : k = 0 → c.op = some .upload → c.uploadPhase = some .stream →
      c.currentChunk = none → c.pendingShots = 1 → Stage n k c
  | streaming {i : Nat} : k = i + 1 → c.op = some .upload → c.uploadPhase = some .stream →
      c.currentChunk = some i → c.pendingShots = 0 → AllPassed c i → Stage n k c
  | grace : k = n → c.op = some .upload → c.uploadPhase = some .grace → c.pendingShots = 0 →
      c.timer.isSome → AllPassed c n → Stage n k c
  | done : k = n → c.op = none → c.pendingShots = 0 → c.timer = none → AllPassed c n → Stage n k c

structure Inv (image : Bytes) (golden : Bool) (s : Sys) : Prop where
  ok : s.gui.Ok
  connected : s.gui.sendOk = true
  healthy : s.mock.Healthy
  chunks : s.gui.chunks = splitChunks image
  small : (splitChunks image).length ≤ 65535
  noFailures : s.gui.NoFailures
  nonempty : s.toQcc ≠ []
  count : s.chunksSent ≤ (splitChunks image).length
  sent : SentInOrder image golden s
  stage : Stage (splitChunks image).length s.chunksSent s.gui
  acks : ∀ raw ∈ s.toGui, ∃ i < s.chunksSent, AckFrame raw i

variable {image : Bytes} {golden : Bool} {s : Sys} {c : Controller}

theorem Inv.chunkCount (h : Inv image golden s) : s.gui.chunkCount = (splitChunks image).length := by
  rw [h.ok.count, h.chunks]

/-- A step of the GUI that sends nothing and leaves the session as it is, more passes apart. -/
theorem Inv.quiet (h : Inv image golden s) (hc : c.core = s.gui.core) (hl : c.sendOk = s.gui.sendOk)
    (hall : ∀ n, AllPassed s.gui n → AllPassed c n) (hn : c.NoFailures) (ho : sends c.out = []) :
    Inv image golden { s with gui := c, toQcc := s.toQcc ++ sends c.out } := by
  rw [ho, List.append_nil]
  refine ⟨h.ok.congr hc, hl.trans h.connected, h.healthy, (chunks_of_core hc).trans h.chunks, h.small,
    hn, h.nonempty, h.count, h.sent, ?_, h.acks⟩
  have hop := op_of_core hc
  have hph := uploadPhase_of_core hc
  have hcur := currentChunk_of_core hc
  have hp := pendingShots_of_core hc
  have ht := timer_of_core hc
  cases h.stage with
  | announced h₁ h₂ h₃ h₄ h₅ =>
    exact .announced h₁ (hop.trans h₂) (hph.trans h₃) (hcur.trans h₄) (hp.trans h₅)
  | streaming h₁ h₂ h₃ h₄ h₅ h₆ =>
    exact .streaming h₁ (hop.trans h₂) (hph.trans h₃) (hcur.trans h₄) (hp.trans h₅) (hall _ h₆)
  | grace h₁ h₂ h₃ h₄ h₅ h₆ =>
    exact .grace h₁ (hop.trans h₂) (hph.trans h₃) (hp.trans h₄) (by rwa [ht]) (hall _ h₆)
  | done h₁ h₂ h₃ h₄ h₅ =>
    exact .done h₁ (hop.trans h₂) (hp.trans h₃) (ht.trans h₄) (hall _ h₅)

/-- One more chunk on the way. -/
theorem SentInOrder.snoc {s s' : Sys} (h : SentInOrder image golden s) (hs : s.toQcc ≠ [])
    {frame : Bytes} (hf : s'.toQcc = s.toQcc ++ [frame])
    (hp : (chunkPackets (splitChunks image))[s.chunksSent]? = some (frame.drop headerSize)) :
    s'.chunksSent = s.chunksSent + 1 ∧ SentInOrder image golden s' := by
  have hlen := List.length_pos_iff.2 hs
  have hk : s'.chunksSent = s.chunksSent + 1 := by
    simp only [Sys.chunksSent, hf, List.length_append, List.length_singleton]
    omega
  refine ⟨hk, ?_⟩
  rw [SentInOrder, hf, hk, List.map_append, h, List.take_add_one, hp]
  rfl

/-- A datagram on its way to the QCC is the announcement or a chunk. -/
theorem Inv.toQcc_cases (h : Inv image golden s) {frame : Bytes} (hf : frame ∈ s.toQcc) :
    (frame.length = rpCmdFrameSize ∧ frame.drop headerSize = announce image golden) ∨
      ∃ i x, i < s.chunksSent ∧ (splitChunks image)[i]? = some x ∧ frame.length = rpFrameSize ∧
        frame.drop headerSize =
          buildBitstreamDataHeader x.2 (splitChunks image).length i ++ x.1 := by
  have hmem : frame.drop headerSize ∈ s.toQcc.map (·.drop headerSize) := List.mem_map_of_mem hf
  have hlen : (frame.drop headerSize).length = frame.length - headerSize := List.length_drop
  rw [h.sent, List.mem_cons] at hmem
  rcases hmem with he | hmem
  · refine .inl ⟨?_, he⟩
    rw [he] at hlen
    simp only [announce, buildBitstreamReceiveCommand_length, rpCmdFrameSize, headerSize,
      rpInnerCmdSize] at hlen ⊢
    omega
  · obtain ⟨i, hi⟩ := List.mem_iff_getElem?.1 hmem
    rw [List.getElem?_take] at hi
    split at hi
    · rename_i hik
      rw [getElem?_chunkPackets, Option.map_eq_some_iff] at hi
      obtain ⟨x, hx, he⟩ := hi
      refine .inr ⟨i, x, hik, hx, ?_, he.symm⟩
      have hd := splitChunks_data hx
      rw [← he, List.length_append, hd, buildBitstreamDataHeader_length] at hlen
      simp only [rpFrameSize, headerSize, rpPayloadSize, rpInnerCmdSize] at hlen ⊢
      omega
    · simp at hi

/-! ## The steps -/

theorem AllPassed.succ {n : Nat} {c' : Controller} (h : AllPassed c n)
    (hp : ∀ q j, (c'.ackMatrix q).get? j = some true ↔ (c.ackMatrix q).get? j = some true ∨ j = n) :
    AllPassed c' (n + 1) := by
  intro i hi q
  rw [hp]
  rcases Nat.lt_or_ge i n with hin | hin
  · exact .inl (h i hin q)
  · exact .inr (by omega)

/-- The last chunk has been acknowledged. -/
def Sys.Settled (s : Sys) : Prop := s.gui.uploadPhase = some .grace ∨ s.gui.op = none

/-- What a step of the system does besides keeping the invariant. -/
structure Progress (s : Sys) (e : Event) (s' : Sys) : Prop where
  /-- A chunk goes out when the one-shot fires, or when a frame acknowledges the one before. -/
  sent : s'.chunksSent = s.chunksSent ∨ (s'.chunksSent = s.chunksSent + 1 ∧
    (s.chunksSent = 0 ∧ e = .gui .shot ∨
      ∃ raw i, e = .atGui raw ∧ AckFrame raw i ∧ s.chunksSent = i + 1))
  /-- When the session ends, it ends well. -/
  ended : s.gui.op ≠ none → s'.gui.op = none →
    ∃ text, .sessionFinished (some .upload) true text ∈ s'.gui.out
  settled : s.Settled → s'.Settled

theorem Progress.same {e : Event} {s' : Sys} (hk : s'.toQcc = s.toQcc)
    (hc : s'.gui.core = s.gui.core) : Progress s e s' where
  sent := .inl (by rw [Sys.chunksSent, hk]; rfl)
  ended := fun hne hn => absurd ((op_of_core hc).symm.trans hn) hne
  settled := by
    rw [Sys.Settled, Sys.Settled, uploadPhase_of_core hc, op_of_core hc]
    exact id

/-- Where the frame of an acknowledgement of chunk `i` leaves the upload. -/
def Beyond (i : Nat) (s : Sys) : Prop := i + 1 < s.chunksSent ∨ s.Settled

/-- A frame about an earlier chunk, or in the grace phase. -/
theorem inv_known (h : Inv image golden s) {raw : Bytes} {i : Nat} (hi : i < s.chunksSent)
    (ha : AckFrame raw i) (hop : s.gui.op = some .upload) (hph : s.gui.uploadPhase ≠ none)
    (hm : Moved i s.gui) :
    Inv image golden (s.guiStep (.frame raw)) ∧ Progress s (.atGui raw) (s.guiStep (.frame raw)) ∧
      (s.guiStep (.frame raw)).gui.core = s.gui.core := by
  have hcount := h.chunkCount
  have hle := h.count
  have hrec : Recorded i (List.finRange 96) s.gui.cleared (s.gui.handle (.frame raw)) :=
    onFrame_known (c := s.gui.cleared) ha hop hph rfl (show i < s.gui.chunkCount by omega) hm
  have ho : sends (s.gui.handle (.frame raw)).out = [] := hrec.sends
  refine ⟨h.quiet hrec.core hrec.sendOk (fun n hn j hj q => ?_) (hrec.noFailures h.noFailures) ho,
    .same (by rw [Sys.guiStep, ho, List.append_nil]) hrec.core, hrec.core⟩
  exact (hrec.passed q j).2 (.inl (hn j hj q))

/-- The frame about the chunk in flight, when it is not the last one. -/
theorem inv_next (h : Inv image golden s) {raw : Bytes} {i : Nat} (hk : s.chunksSent = i + 1)
    (ha : AckFrame raw i) (hop : s.gui.op = some .upload) (hph : s.gui.uploadPhase = some .stream)
    (hcur : s.gui.currentChunk = some i) (hp : s.gui.pendingShots = 0) (hall : AllPassed s.gui i)
    (hi : i + 1 < (splitChunks image).length) :
    Inv image golden (s.guiStep (.frame raw)) ∧ Progress s (.atGui raw) (s.guiStep (.frame raw)) ∧
      (s.guiStep (.frame raw)).chunksSent = i + 2 := by
  have hcount := h.chunkCount
  have hget : (splitChunks image)[i + 1]? = some (splitChunks image)[i + 1] :=
    List.getElem?_eq_getElem hi
  generalize (splitChunks image)[i + 1] = x at hget
  obtain ⟨d, hd⟩ := onFrame_next (c := s.gui.cleared) ha hop hph hcur rfl h.connected
    (show i + 1 < s.gui.chunkCount by omega) (x := x) (by rw [← hget, ← h.chunks]; rfl)
  change Acked i _ _ s.gui.cleared (s.gui.handle (.frame raw)) at hd
  have hframe := rpFrame_data (c := d) (buildBitstreamDataHeader_length x.2 s.gui.chunkCount (i + 1))
    (splitChunks_data hget)
  have hok : (s.gui.handle (.frame raw)).Ok := ok_handle h.ok trivial
  have hsend := hd.sends
  rw [show s.gui.cleared.chunkCount = s.gui.chunkCount from rfl] at hsend
  generalize d.rpFrame _ _ = frame at hsend hframe
  have hq : (s.guiStep (.frame raw)).toQcc = s.toQcc ++ [frame] := congrArg (s.toQcc ++ ·) hsend
  obtain ⟨hk', hsent⟩ := h.sent.snoc h.nonempty hq (by
    rw [hk, getElem?_chunkPackets, hget, hframe.2, hcount]; rfl)
  have hstage : Stage (splitChunks image).length (s.guiStep (.frame raw)).chunksSent
      (s.gui.handle (.frame raw)) :=
    .streaming (i := i + 1) (by omega) ((congrArg Core.op hd.core).trans hop)
      ((congrArg Core.uploadPhase hd.core).trans hph) (congrArg Core.currentChunk hd.core)
      ((congrArg Core.pendingShots hd.core).trans hp) (AllPassed.succ (c := s.gui) hall hd.passed)
  refine ⟨⟨hok, hd.sendOk.trans h.connected, h.healthy, (congrArg Core.chunks hd.core).trans h.chunks,
    h.small, hd.noFailures h.noFailures, by simp [hq], by omega, hsent, hstage, ?_⟩, ⟨.inr ⟨hk', .inr
      ⟨raw, i, rfl, ha, hk⟩⟩, fun _ hn => ?_, ?_⟩, by omega⟩
  · intro r hr
    obtain ⟨j, hj, haj⟩ := h.acks r hr
    exact ⟨j, by omega, haj⟩
  · have : (s.gui.handle (.frame raw)).op = some .upload := (congrArg Core.op hd.core).trans hop
    exact absurd hn (by simp [Sys.guiStep, this])
  · simp [Sys.Settled, hph, hop]

/-- The frame about the last chunk. -/
theorem inv_last (h : Inv image golden s) {raw : Bytes} {i : Nat} (hk : s.chunksSent = i + 1)
    (ha : AckFrame raw i) (hop : s.gui.op = some .upload) (hph : s.gui.uploadPhase = some .stream)
    (hcur : s.gui.currentChunk = some i) (hp : s.gui.pendingShots = 0) (hall : AllPassed s.gui i)
    (hi : i + 1 = (splitChunks image).length) :
    Inv image golden (s.guiStep (.frame raw)) ∧ Progress s (.atGui raw) (s.guiStep (.frame raw)) ∧
      (s.guiStep (.frame raw)).gui.uploadPhase = some .grace := by
  have hcount := h.chunkCount
  have hd := onFrame_last (c := s.gui.cleared) ha hop hph hcur rfl (hi.trans hcount.symm)
  change Acked i _ _ s.gui.cleared (s.gui.handle (.frame raw)) at hd
  have hok : (s.gui.handle (.frame raw)).Ok := ok_handle h.ok trivial
  have hsend : sends (s.gui.handle (.frame raw)).out = [] := hd.sends
  have hq : (s.guiStep (.frame raw)).toQcc = s.toQcc := by
    rw [Sys.guiStep, hsend, List.append_nil]
  have hk' : (s.guiStep (.frame raw)).chunksSent = s.chunksSent := by
    rw [Sys.chunksSent, hq]
    rfl
  have hop' : (s.gui.handle (.frame raw)).op = some .upload := (congrArg Core.op hd.core).trans hop
  have hph' : (s.gui.handle (.frame raw)).uploadPhase = some .grace :=
    congrArg Core.uploadPhase hd.core
  have htimer : (s.gui.handle (.frame raw)).timer = some (.graceTimeout, trailingAckGraceMs) :=
    congrArg Core.timer hd.core
  have hstage : Stage (splitChunks image).length (s.guiStep (.frame raw)).chunksSent
      (s.gui.handle (.frame raw)) :=
    .grace (by omega) hop' hph' ((congrArg Core.pendingShots hd.core).trans hp) (by simp [htimer])
      (hi ▸ AllPassed.succ (c := s.gui) hall hd.passed)
  refine ⟨⟨hok, hd.sendOk.trans h.connected, h.healthy, (congrArg Core.chunks hd.core).trans h.chunks,
    h.small, hd.noFailures h.noFailures, hq ▸ h.nonempty, hk' ▸ h.count, ?_, hstage, hk' ▸ h.acks⟩,
    ⟨.inl hk', fun _ hn => absurd (hop'.symm.trans hn) nofun, fun _ => .inl hph'⟩, hph'⟩
  rw [SentInOrder, hq, hk']
  exact h.sent

/-- A frame at the GUI acknowledges a chunk that has been sent, and gets the upload beyond it. -/
theorem inv_atGui (h : Inv image golden s) {raw : Bytes} {i : Nat} (hi : i < s.chunksSent)
    (ha : AckFrame raw i) :
    Inv image golden (s.guiStep (.frame raw)) ∧ Progress s (.atGui raw) (s.guiStep (.frame raw)) ∧
      Beyond i (s.guiStep (.frame raw)) := by
  cases h.stage with
  | announced h₁ => omega
  | @streaming j h₁ h₂ h₃ h₄ h₅ h₆ =>
    rcases Nat.lt_or_ge i j with hij | hij
    · obtain ⟨hinv, hprog, -⟩ := inv_known h hi ha h₂ (by simp [h₃]) fun hm => by
        have := Option.some.inj (h₄.symm.trans hm.2)
        omega
      refine ⟨hinv, hprog, .inl ?_⟩
      have := hprog.sent
      omega
    · obtain rfl : i = j := by omega
      have hle := h.count
      rcases Nat.lt_or_ge (i + 1) (splitChunks image).length with hn | hn
      · obtain ⟨hinv, hprog, hk⟩ := inv_next h h₁ ha h₂ h₃ h₄ h₅ h₆ hn
        exact ⟨hinv, hprog, .inl (by omega)⟩
      · obtain ⟨hinv, hprog, hg⟩ := inv_last h h₁ ha h₂ h₃ h₄ h₅ h₆ (by omega)
        exact ⟨hinv, hprog, .inr (.inl hg)⟩
  | grace h₁ h₂ h₃ =>
    obtain ⟨hinv, hprog, -⟩ := inv_known h hi ha h₂ (by simp [h₃]) fun hm => by
      simp [h₃] at hm
    exact ⟨hinv, hprog, .inr (hprog.settled (.inl h₃))⟩
  | done h₁ h₂ =>
    have he : s.gui.handle (.frame raw) = s.gui.cleared := by
      simp [handle, react, onFrame, cleared, h₂]
    have hinv := h.quiet (c := s.gui.cleared) rfl rfl (fun _ hn => hn) h.noFailures rfl
    have hstep : s.guiStep (.frame raw) = { s with
        gui := s.gui.cleared, toQcc := s.toQcc ++ sends s.gui.cleared.out } := by rw [Sys.guiStep, he]
    rw [hstep]
    exact ⟨hinv, .same (List.append_nil _) rfl, .inr (.inr h₂)⟩

/-- The one-shot sends the first chunk. -/
theorem inv_shot (h : Inv image golden s) (hp : 0 < s.gui.pendingShots) :
    Inv image golden (s.guiStep .shot) ∧ Progress s (.gui .shot) (s.guiStep .shot) ∧
      (s.guiStep .shot).chunksSent = 1 := by
  have hcount := h.chunkCount
  cases h.stage with
  | streaming _ _ _ _ h₅ _ => omega
  | grace _ _ _ h₄ _ _ => omega
  | done _ _ h₃ _ _ => omega
  | announced h₁ h₂ h₃ h₄ h₅ =>
    have hpos : 0 < (splitChunks image).length := hcount ▸ h.ok.shots hp
    have hget : (splitChunks image)[0]? = some (splitChunks image)[0] := List.getElem?_eq_getElem hpos
    generalize (splitChunks image)[0] = x at hget
    have hon : s.gui.handle .shot = { s.gui.cleared with
        pendingShots := s.gui.pendingShots - 1, currentChunk := some 0 }.sendCurrentChunk 0 :=
      onShot_eq (c := s.gui.cleared) (h.ok.congr rfl) hp
    generalize hc : ({ s.gui.cleared with
        pendingShots := s.gui.pendingShots - 1, currentChunk := some 0 } : Controller) = c at hon
    have hx : c.chunks[0]? = some x := by
      rw [← hget, ← h.chunks, ← hc]
      rfl
    have hcl : c.sendOk = true := by
      rw [← hc]
      exact h.connected
    have hcore : (s.gui.handle .shot).core = c.core := hon ▸ core_sendCurrentChunk 0
    obtain ⟨-, hm⟩ := sendCurrentChunk_connected hcl hx
    have hs : sends (s.gui.handle .shot).out =
        [c.rpFrame (buildBitstreamDataHeader x.2 c.chunkCount 0) x.1] := by
      rw [hon, sends_sendCurrentChunk hx, ← hc]
      rfl
    have hframe := rpFrame_data (c := c) (buildBitstreamDataHeader_length x.2 c.chunkCount 0)
      (splitChunks_data hget)
    have hcc : c.chunkCount = (splitChunks image).length := by rw [← hcount, ← hc]; rfl
    generalize c.rpFrame _ _ = frame at hs hframe
    have hq : (s.guiStep .shot).toQcc = s.toQcc ++ [frame] := congrArg (s.toQcc ++ ·) hs
    obtain ⟨hk', hsent⟩ := h.sent.snoc h.nonempty hq (by
      rw [h₁, getElem?_chunkPackets, hget, hframe.2, hcc]; rfl)
    have hop : (s.gui.handle .shot).op = some .upload := by
      rw [op_of_core hcore, ← hc]
      exact h₂
    have hstage : Stage (splitChunks image).length (s.guiStep .shot).chunksSent
        (s.gui.handle .shot) := by
      refine .streaming (i := 0) (by omega) hop ?_ ?_ ?_ fun i hi => absurd hi (Nat.not_lt_zero i)
      · rw [uploadPhase_of_core hcore, ← hc]
        exact h₃
      · rw [currentChunk_of_core hcore, ← hc]
      · rw [pendingShots_of_core hcore, ← hc]
        simp [h₅]
    refine ⟨⟨ok_handle (e := .shot) h.ok hp, ?_, h.healthy, ?_, h.small, ?_, by simp [hq], by omega, hsent, hstage,
      fun r hr => ?_⟩, ⟨.inr ⟨hk', .inl ⟨h₁, rfl⟩⟩, fun _ hn => ?_, by simp [Sys.Settled, h₂, h₃]⟩,
      by omega⟩
    · rw [Sys.guiStep, hon, (same_sendCurrentChunk 0).sendOk]
      exact hcl
    · rw [Sys.guiStep, chunks_of_core hcore, ← hc]
      exact h.chunks
    · rw [Sys.guiStep, NoFailures, hon, hm, ← hc]
      exact h.noFailures
    · obtain ⟨j, hj, haj⟩ := h.acks r hr
      exact ⟨j, by omega, haj⟩
    · exact absurd hn (by simp [Sys.guiStep, hop])

/-- A pass in which nothing is missing and nothing failed. -/
theorem closeUploadPass_complete (hall : AllPassed c c.chunkCount) (hn : c.NoFailures) :
    ∃ text, c.closeUploadPass = (c.emit (.uploadFinished 0 0)).finish true text := by
  have hm : c.missingChunkIndices = [] := by
    rw [missingChunkIndices, List.filter_eq_nil_iff]
    intro i hi
    simpa using fun q => hall i (List.mem_range.1 hi) q
  have hf : c.failedPairs = [] := by
    rw [failedPairs, List.flatMap_eq_nil_iff]
    intro q _
    rw [List.map_eq_nil_iff, List.filter_eq_nil_iff]
    intro x hx
    simp [hn q x hx]
  unfold closeUploadPass
  rw [hm, hf]
  exact ⟨_, rfl⟩

/-- The timer runs in the grace phase only, and ends the session well. -/
theorem inv_timer (h : Inv image golden s) (ht : s.gui.timer.isSome) :
    Inv image golden (s.guiStep .timer) ∧ Progress s (.gui .timer) (s.guiStep .timer) ∧
      (s.guiStep .timer).gui.op = none := by
  have hcount := h.chunkCount
  obtain ⟨⟨hd, ms⟩, htm⟩ := Option.isSome_iff_exists.1 ht
  obtain ⟨hcl, hg⟩ := h.ok.timer hd ms htm
  have hup : s.gui.op = some .upload → hd = .graceTimeout ∧ s.gui.uploadPhase = some .grace := by
    intro hop
    obtain rfl : hd = .graceTimeout := by cases hd <;> simp_all [Handler.Closes]
    exact ⟨rfl, hg rfl⟩
  cases h.stage with
  | announced _ h₂ h₃ => simp [h₃] at hup; exact absurd h₂ hup
  | streaming _ h₂ h₃ => simp [h₃] at hup; exact absurd h₂ hup
  | done _ _ _ h₄ => simp [h₄] at ht
  | grace h₁ h₂ h₃ h₄ h₅ h₆ =>
    obtain ⟨rfl, -⟩ := hup h₂
    have hon : s.gui.handle .timer = ({ s.gui.cleared with timer := none } : Controller).closeUploadPass := by
      simp [handle, react, onTimer, cleared, htm]
    obtain ⟨text, he⟩ := closeUploadPass_complete (c := { s.gui.cleared with timer := none })
      (hcount ▸ h₆) h.noFailures
    rw [he] at hon
    have hno : (s.guiStep .timer).gui.op = none := by simp [Sys.guiStep, hon, finish]
    have hs : sends (s.gui.handle .timer).out = [] := by simp [hon, finish, cleared]
    have hq : (s.guiStep .timer).toQcc = s.toQcc := by rw [Sys.guiStep, hs, List.append_nil]
    have hk' : (s.guiStep .timer).chunksSent = s.chunksSent := by
      rw [Sys.chunksSent, hq]
      rfl
    have hstage : Stage (splitChunks image).length (s.guiStep .timer).chunksSent
        (s.gui.handle .timer) :=
      .done (by omega) (by simp [hon, finish]) (by simpa [hon, finish, emit, cleared] using h₄)
        (by simp [hon, finish, emit]) (by rw [hon]; exact h₆)
    refine ⟨⟨ok_handle (e := .timer) h.ok ht, by rw [Sys.guiStep, hon]; exact h.connected, h.healthy,
      by rw [Sys.guiStep, hon]; exact h.chunks, h.small, by rw [Sys.guiStep, hon]; exact h.noFailures,
      hq ▸ h.nonempty, hk' ▸ h.count, ?_, hstage, hk' ▸ h.acks⟩, ⟨.inl hk', fun _ _ => ⟨text, ?_⟩,
      fun _ => .inr hno⟩, hno⟩
    · rw [SentInOrder, hq, hk']
      exact h.sent
    · rw [Sys.guiStep, hon]
      simp [finish, emit, cleared, h₂]

/-- The mock acknowledges a chunk for all QTRMs. -/
theorem respond_chunk (h : Inv image golden s) {frame : Bytes} {i : Nat} {x : Bytes × Nat}
    (hx : (splitChunks image)[i]? = some x)
    (hd : frame.drop headerSize =
      buildBitstreamDataHeader x.2 (splitChunks image).length i ++ x.1) :
    ∃ raw, s.mock.respond frame = (s.mock, some raw) ∧ AckFrame raw i := by
  have hsmall := h.small
  have hi := (List.getElem?_eq_some_iff.1 hx).1
  have hlen : (frame.drop headerSize).length = frame.length - headerSize := List.length_drop
  rw [hd, List.length_append, splitChunks_data hx, buildBitstreamDataHeader_length] at hlen
  refine Mock.respond_data h.healthy (by omega) ?_ hd
  simp only [rpFrameSize, headerSize, rpPayloadSize, rpInnerCmdSize] at hlen ⊢
  omega

/-- A datagram reaches the mock. -/
theorem inv_atQcc (h : Inv image golden s) {frame : Bytes} (hf : frame ∈ s.toQcc) :
    Inv image golden (machine.step s (.atQcc frame)) ∧
      Progress s (.atQcc frame) (machine.step s (.atQcc frame)) := by
  refine ⟨?_, .same rfl rfl⟩
  have hstep : ∀ r, s.mock.respond frame = (s.mock, r) →
      machine.step s (.atQcc frame) = { s with toGui := s.toGui ++ r.toList } := by
    intro r hr
    simp [machine, hr]
  rcases h.toQcc_cases hf with ⟨hl, hd⟩ | ⟨i, x, hi, hx, -, hd⟩
  · rw [hstep none (Mock.respond_announce hl hd)]
    exact ⟨h.ok, h.connected, h.healthy, h.chunks, h.small, h.noFailures, h.nonempty, h.count, h.sent,
      h.stage, by simpa using h.acks⟩
  · obtain ⟨raw, hr, ha⟩ := respond_chunk h hx hd
    rw [hstep (some raw) hr]
    refine ⟨h.ok, h.connected, h.healthy, h.chunks, h.small, h.noFailures, h.nonempty, h.count, h.sent,
      h.stage, fun r hmem => ?_⟩
    rcases List.mem_append.1 hmem with hmem | hmem
    · exact h.acks r hmem
    · obtain rfl : r = raw := by simpa using hmem
      exact ⟨i, hi, ha⟩

theorem inv_local (h : Inv image golden s) {e : Controller.Event} (hl : Local s.gui e)
    (he : Controller.machine.enabled s.gui e) :
    Inv image golden (s.guiStep e) ∧ Progress s (.gui e) (s.guiStep e) := by
  have hquiet : s.gui.handle e = s.gui.cleared →
      Inv image golden (s.guiStep e) ∧ Progress s (.gui e) (s.guiStep e) := by
    intro heq
    have hstep : s.guiStep e = { s with
        gui := s.gui.cleared, toQcc := s.toQcc ++ sends s.gui.cleared.out } := by rw [Sys.guiStep, heq]
    rw [hstep]
    exact ⟨h.quiet rfl rfl (fun _ hn => hn) h.noFailures rfl, .same (List.append_nil _) rfl⟩
  cases e with
  | start what => exact hquiet (startOp_refused (c := s.gui.cleared) fun ha => hl ha.1)
  | setTarget target =>
    exact ⟨h.quiet (c := { s.gui.cleared with targetQtrm := target }) rfl rfl (fun _ hn => hn)
      h.noFailures rfl, .same (List.append_nil _) rfl⟩
  | setIapWindow ms =>
    exact ⟨h.quiet (c := { s.gui.cleared with iapWindowMs := ms }) rfl rfl (fun _ hn => hn)
      h.noFailures rfl, .same (List.append_nil _) rfl⟩
  | shot => exact ⟨(inv_shot h he).1, (inv_shot h he).2.1⟩
  | timer => exact ⟨(inv_timer h he).1, (inv_timer h he).2.1⟩
  | frame raw => exact hl.elim
  | cancel => exact hl.elim
  | link up => exact hl.elim

/-- Every step keeps the invariant. -/
theorem inv_step (h : Inv image golden s) {e : Event} (he : machine.enabled s e) :
    Inv image golden (machine.step s e) ∧ Progress s e (machine.step s e) := by
  cases e with
  | gui e => exact inv_local h he.1 he.2
  | atQcc frame => exact inv_atQcc h he
  | atGui raw =>
    obtain ⟨i, hi, ha⟩ := h.acks raw he
    obtain ⟨hinv, hprog, -⟩ := inv_atGui h hi ha
    exact ⟨hinv, hprog⟩

/-- The datagram of a chunk that has been sent. -/
theorem Inv.chunk_datagram (h : Inv image golden s) {i : Nat} (hi : i < s.chunksSent) :
    ∃ frame x, frame ∈ s.toQcc ∧ (splitChunks image)[i]? = some x ∧
      frame.drop headerSize = buildBitstreamDataHeader x.2 (splitChunks image).length i ++ x.1 := by
  have hle := h.count
  obtain ⟨x, hx⟩ : ∃ x, (splitChunks image)[i]? = some x :=
    ⟨_, List.getElem?_eq_getElem (by omega)⟩
  have hmem : buildBitstreamDataHeader x.2 (splitChunks image).length i ++ x.1 ∈
      s.toQcc.map (·.drop headerSize) := by
    rw [h.sent]
    refine List.mem_cons_of_mem _ (List.mem_iff_getElem?.2 ⟨i, ?_⟩)
    rw [List.getElem?_take_of_lt hi, getElem?_chunkPackets, hx]
    rfl
  obtain ⟨frame, hframe, hd⟩ := List.mem_map.1 hmem
  exact ⟨frame, x, hframe, hx, hd⟩

/-- The start of an upload. -/
theorem inv_start {m : Mock} (hok : c.Ok) (ht : c.Tidy) (ha : c.Accepts (.upload image golden))
    (hl : c.sendOk = true) (hm : m.Healthy) (hn : (splitChunks image).length ≤ 65535) :
    Inv image golden (start c image golden m) := by
  obtain ⟨rc, o, he⟩ := startUpload_connected (c := c.cleared) ha hl
  change c.handle (.start (.upload image golden)) = _ at he
  have hst : Started (.upload image golden) c.cleared (c.handle (.start (.upload image golden))) :=
    startOp_accepted ha
  have hsends : (start c image golden m).toQcc = [c.cleared.startFrame (.upload image golden)] :=
    hst.sends
  have hk : (start c image golden m).chunksSent = 0 := by rw [Sys.chunksSent, hsends]; rfl
  have hp := ht.shots_zero (by simp [ha.1])
  refine ⟨ok_handle (e := .start (.upload image golden)) hok trivial, ?_, hm, ?_, hn, ?_, by simp [hsends],
    by omega, ?_, ?_, by simp [start]⟩
  · rw [start, he]
    exact hl
  · rw [start, he]
  · intro q x hx
    rw [start, he] at hx
    simp at hx
  · rw [SentInOrder, hk, hsends]
    simp only [List.map_cons, List.map_nil, List.take_zero]
    congr 1
    exact List.drop_left' (by simp)
  · refine .announced hk ?_ ?_ ?_ ?_ <;> rw [start, he]
    exact congrArg (· + 1) hp

theorem inv_run {s₀ : Sys} {tr : List (Sys × Event)} (h : Inv image golden s₀)
    (hr : machine.Run s₀ tr s) : Inv image golden s :=
  hr.invariant' h fun _ _ h he => (inv_step h he).1

/-! ## Fair runs -/

/-- Nothing is lost and no timer stands still: every datagram arrives at least once, the one-shot
fires, and the session timer fires unless it is stopped. -/
structure Fair {s₀ : Sys} (b : machine.Behaviour s₀) : Prop where
  toQcc : ∀ n, ∀ frame ∈ (b.st n).toQcc, ∃ m, b.ev m = .atQcc frame
  toGui : ∀ n, ∀ frame ∈ (b.st n).toGui, ∃ m, b.ev m = .atGui frame
  shot : ∀ n, 0 < (b.st n).gui.pendingShots → ∃ m, n ≤ m ∧ b.ev m = .gui .shot
  timer : ∀ n, (b.st n).gui.timer.isSome →
    ∃ m, n ≤ m ∧ (b.ev m = .gui .timer ∨ (b.st m).gui.timer = none)

section Liveness

variable {s₀ : Sys} {b : machine.Behaviour s₀}

theorem inv_at (h : Inv image golden s₀) (b : machine.Behaviour s₀) (n : Nat) :
    Inv image golden (b.st n) ∧ Progress (b.st n) (b.ev n) (b.st (n + 1)) := by
  have hn := inv_run h (b.run n)
  refine ⟨hn, ?_⟩
  rw [b.step]
  exact (inv_step hn (b.enabled n)).2

theorem settled_mono (h : Inv image golden s₀) (b : machine.Behaviour s₀) {n m : Nat} (hnm : n ≤ m)
    (hn : (b.st n).Settled) : (b.st m).Settled := by
  induction m, hnm using Nat.le_induction with
  | base => exact hn
  | succ m _ ih => exact (inv_at h b m).2.settled ih

/-- Once the last chunk has been acknowledged all chunks have been sent. -/
theorem Inv.settled_count (h : Inv image golden s) (hs : s.Settled) :
    s.chunksSent = (splitChunks image).length := by
  cases h.stage with
  | announced _ h₂ h₃ => simp [Sys.Settled, h₂, h₃] at hs
  | streaming _ h₂ h₃ => simp [Sys.Settled, h₂, h₃] at hs
  | grace h₁ => exact h₁
  | done h₁ => exact h₁

/-- The first chunk goes out. -/
theorem first_sent (h : Inv image golden s₀) (hf : Fair b) (hpos : 0 < (splitChunks image).length) :
    ∃ n, 0 < (b.st n).chunksSent := by
  have h0 := (inv_at h b 0).1
  cases h0.stage with
  | announced _ _ _ _ h₅ =>
    obtain ⟨m, -, hm⟩ := hf.shot 0 (by omega)
    have he := b.enabled m
    rw [hm] at he
    have hk := (inv_shot (inv_at h b m).1 he.2).2.2
    refine ⟨m + 1, ?_⟩
    rw [b.step, hm]
    exact hk ▸ Nat.one_pos
  | streaming h₁ => exact ⟨0, by omega⟩
  | grace h₁ => exact ⟨0, by omega⟩
  | done h₁ => exact ⟨0, by omega⟩

/-- A chunk that has been sent is acknowledged: its datagram reaches the mock, and the answer of the
mock reaches the controller. -/
theorem acked (h : Inv image golden s₀) (hf : Fair b) {n i : Nat} (hi : i < (b.st n).chunksSent) :
    ∃ m, Beyond i (b.st m) := by
  obtain ⟨frame, x, hframe, hx, hd⟩ := (inv_at h b n).1.chunk_datagram hi
  obtain ⟨m, hm⟩ := hf.toQcc n frame hframe
  -- the answer of the mock
  have hmi := (inv_at h b m).1
  obtain ⟨raw, hr, ha⟩ := respond_chunk hmi hx hd
  have hraw : raw ∈ (b.st (m + 1)).toGui := by
    rw [b.step, hm]
    simp [machine, hr]
  obtain ⟨m', hm'⟩ := hf.toGui (m + 1) raw hraw
  -- the answer at the controller
  have he := b.enabled m'
  rw [hm'] at he
  have hmi' := (inv_at h b m').1
  obtain ⟨j, hj, haj⟩ := hmi'.acks raw he
  obtain rfl : j = i := (haj.2 0).unique (ha.2 0)
  refine ⟨m' + 1, ?_⟩
  rw [b.step, hm']
  exact (inv_atGui hmi' hj haj).2.2

/-- Every chunk goes out. -/
theorem all_sent (h : Inv image golden s₀) (hf : Fair b) {i : Nat}
    (hi : i < (splitChunks image).length) : ∃ n, i < (b.st n).chunksSent := by
  induction i with
  | zero => exact first_sent h hf hi
  | succ i ih =>
    obtain ⟨n, hn⟩ := ih (by omega)
    obtain ⟨m, hm | hm⟩ := acked h hf hn
    · exact ⟨m, hm⟩
    · exact ⟨m, by rw [(inv_at h b m).1.settled_count hm]; exact hi⟩

/-- The session comes to its end. -/
theorem session_ends (h : Inv image golden s₀) (hf : Fair b) (hpos : 0 < (splitChunks image).length) :
    ∃ n, (b.st n).gui.op = none := by
  obtain ⟨n, hn⟩ := all_sent h hf (i := (splitChunks image).length - 1) (by omega)
  obtain ⟨m, hm⟩ := acked h hf hn
  have hm : (b.st m).Settled := by
    refine hm.resolve_left fun hlt => ?_
    have := (inv_at h b m).1.count
    omega
  -- the timer of the grace phase, unless the session is over already
  have hstop : ∀ k, m ≤ k → (b.st k).gui.timer = none → (b.st k).gui.op = none := by
    intro k hk ht
    have hs := settled_mono h b hk hm
    cases (inv_at h b k).1.stage with
    | announced _ h₂ h₃ => simp [Sys.Settled, h₂, h₃] at hs
    | streaming _ h₂ h₃ => simp [Sys.Settled, h₂, h₃] at hs
    | grace _ _ _ _ h₅ => simp [ht] at h₅
    | done _ h₂ => exact h₂
  rcases ht : (b.st m).gui.timer with _ | x
  · exact ⟨m, hstop m (Nat.le_refl m) ht⟩
  · obtain ⟨k, hk, hek | hek⟩ := hf.timer m (by simp [ht])
    · have he := b.enabled k
      rw [hek] at he
      refine ⟨k + 1, ?_⟩
      rw [b.step, hek]
      exact (inv_timer (inv_at h b k).1 he.2).2.2
    · exact ⟨k, hstop k hk hek⟩

end Liveness

/-! ## A fair run -/

/-- The run of `es` leads from `s` to a state as `P` says. -/
def Leads (s : Sys) (P : Sys → Prop) : Prop :=
  ∃ es, machine.Allows s es ∧ P (machine.exec s es)

theorem Leads.trans {P Q : Sys → Prop} (h : Leads s P) (hQ : ∀ s', P s' → Leads s' Q) : Leads s Q := by
  obtain ⟨es, ha, hP⟩ := h
  obtain ⟨es', ha', hQ⟩ := hQ _ hP
  refine ⟨es ++ es', Machine.allows_append.2 ⟨ha, ha'⟩, ?_⟩
  rwa [Machine.exec_append]

/-- The answer to a chunk can come. -/
theorem leads_beyond (h : Inv image golden s) {i : Nat} (hi : i < s.chunksSent) :
    Leads s fun s' => Inv image golden s' ∧ Beyond i s' := by
  obtain ⟨frame, x, hframe, hx, hd⟩ := h.chunk_datagram hi
  obtain ⟨raw, hr, ha⟩ := respond_chunk h hx hd
  have hinv := (inv_atQcc h hframe).1
  have hraw : raw ∈ (machine.step s (.atQcc frame)).toGui := by simp [machine, hr]
  obtain ⟨hinv', -, hb⟩ := inv_atGui hinv hi ha
  exact ⟨[.atQcc frame, .atGui raw], ⟨hframe, hraw, trivial⟩, hinv', hb⟩

theorem settled_end (h : Inv image golden s) (hs : s.Settled) :
    Leads s fun s' => Inv image golden s' ∧ s'.gui.op = none := by
  cases h.stage with
  | announced _ h₂ h₃ => simp [Sys.Settled, h₂, h₃] at hs
  | streaming _ h₂ h₃ => simp [Sys.Settled, h₂, h₃] at hs
  | grace _ _ _ _ h₅ =>
    obtain ⟨hinv, -, hop⟩ := inv_timer h h₅
    exact ⟨[.gui .timer], ⟨⟨trivial, h₅⟩, trivial⟩, hinv, hop⟩
  | done _ h₂ => exact ⟨[], trivial, h, h₂⟩

/-- From wherever an upload is, it can come to its end. -/
theorem leads_end (h : Inv image golden s) (hpos : 0 < (splitChunks image).length) :
    Leads s fun s' => Inv image golden s' ∧ s'.gui.op = none := by
  generalize hr : (splitChunks image).length - s.chunksSent = r
  induction r using Nat.strong_induction_on generalizing s with
  | _ r ih =>
    cases h.stage with
    | announced h₁ _ _ _ h₅ =>
      have hp : 0 < s.gui.pendingShots := by omega
      obtain ⟨hinv, -, hk⟩ := inv_shot h hp
      have hshot : Leads s fun s' => Inv image golden s' ∧ s'.chunksSent = 1 :=
        ⟨[.gui .shot], ⟨⟨trivial, hp⟩, trivial⟩, hinv, hk⟩
      refine hshot.trans ?_
      rintro s' ⟨hinv', hk'⟩
      exact ih _ (by omega) hinv' rfl
    | @streaming i h₁ =>
      refine (leads_beyond h (i := i) (by omega)).trans ?_
      rintro s' ⟨hinv', hk' | hs⟩
      · have := hinv'.count
        exact ih _ (by omega) hinv' rfl
      · exact settled_end hinv' hs
    | grace _ _ h₃ => exact settled_end h (.inl h₃)
    | done _ h₂ => exact settled_end h (.inr h₂)

/-- Once the session is over a frame changes nothing, and neither does `idle`. -/
theorem ended_atGui (hop : s.gui.op = none) (raw : Bytes) :
    (s.guiStep (.frame raw)).gui.op = none ∧ (s.guiStep (.frame raw)).toQcc = s.toQcc := by
  have he : s.gui.handle (.frame raw) = s.gui.cleared := by
    simp [handle, react, onFrame, cleared, hop]
  rw [Sys.guiStep, he]
  exact ⟨hop, List.append_nil _⟩

/-- An event that can come at any time and means nothing. -/
def idle : Event := .gui (.setIapWindow 0)

theorem enabled_idle (s : Sys) : machine.enabled s idle := ⟨trivial, trivial⟩

theorem step_idle (s : Sys) : (machine.step s idle).gui.op = s.gui.op ∧
    (machine.step s idle).toQcc = s.toQcc ∧ (machine.step s idle).toGui = s.toGui :=
  ⟨rfl, List.append_nil _, rfl⟩

theorem deliver_toQcc (frames : List Bytes) (hf : ∀ frame ∈ frames, frame ∈ s.toQcc) :
    machine.Allows s (frames.map .atQcc) ∧ (machine.exec s (frames.map .atQcc)).gui = s.gui ∧
      (machine.exec s (frames.map .atQcc)).toQcc = s.toQcc := by
  induction frames generalizing s with
  | nil => exact ⟨trivial, rfl, rfl⟩
  | cons frame frames ih =>
    obtain ⟨hframe, hrest⟩ := List.forall_mem_cons.1 hf
    obtain ⟨hallow, hgui, hq⟩ := ih (s := machine.step s (.atQcc frame)) hrest
    exact ⟨⟨hframe, hallow⟩, hgui, hq⟩

theorem deliver_toGui (hop : s.gui.op = none) (frames : List Bytes)
    (hf : ∀ frame ∈ frames, frame ∈ s.toGui) :
    machine.Allows s (frames.map .atGui) ∧ (machine.exec s (frames.map .atGui)).gui.op = none ∧
      (machine.exec s (frames.map .atGui)).toQcc = s.toQcc ∧
      (machine.exec s (frames.map .atGui)).toGui = s.toGui := by
  induction frames generalizing s with
  | nil => exact ⟨trivial, hop, rfl, rfl⟩
  | cons frame frames ih =>
    obtain ⟨hframe, hrest⟩ := List.forall_mem_cons.1 hf
    obtain ⟨hop', hq⟩ := ended_atGui hop frame
    obtain ⟨hallow, hend, hq', hg⟩ := ih (s := machine.step s (.atGui frame)) hop' hrest
    exact ⟨⟨hframe, hallow⟩, hend, hq'.trans hq, hg⟩

/-- An upload can end with every datagram delivered; those that were sent are, in the end, delivered
once more. -/
theorem delivered_run (h : Inv image golden s) (hpos : 0 < (splitChunks image).length) :
    ∃ es, machine.Allows s es ∧ (machine.exec s es).gui.op = none ∧
      (∀ frame ∈ (machine.exec s es).toQcc, .atQcc frame ∈ es) ∧
      ∀ frame ∈ (machine.exec s es).toGui, .atGui frame ∈ es := by
  obtain ⟨es₁, ha₁, -, hop₁⟩ := leads_end h hpos
  generalize hs₁ : machine.exec s es₁ = s₁ at hop₁
  obtain ⟨ha₂, hgui₂, hq₂⟩ := deliver_toQcc (s := s₁) s₁.toQcc fun _ hf => hf
  generalize hs₂ : machine.exec s₁ (s₁.toQcc.map .atQcc) = s₂ at hgui₂ hq₂
  obtain ⟨ha₃, hop₃, hq₃, hg₃⟩ := deliver_toGui (s := s₂) (hgui₂ ▸ hop₁) s₂.toGui fun _ hf => hf
  refine ⟨es₁ ++ s₁.toQcc.map .atQcc ++ s₂.toGui.map .atGui, ?_⟩
  have hexec : machine.exec s (es₁ ++ s₁.toQcc.map .atQcc ++ s₂.toGui.map .atGui) =
      machine.exec s₂ (s₂.toGui.map .atGui) := by
    rw [Machine.exec_append, Machine.exec_append, hs₁, hs₂]
  rw [Machine.allows_append, Machine.allows_append, hexec, Machine.exec_append, hs₁, hs₂, hq₃, hq₂, hg₃]
  exact ⟨⟨⟨ha₁, ha₂⟩, ha₃⟩, hop₃, fun frame hf => by simp [hf], fun frame hf => by simp [hf]⟩

section

variable {s₀ : Sys} {es : List Event} (ha : machine.Allows s₀ es)

/-- From the end of the run on nothing changes. -/
theorem forever_over (hop : (machine.exec s₀ es).gui.op = none) (n : Nat) :
    ((ha.forever idle enabled_idle).st (es.length + n)).gui.op = none ∧
      ((ha.forever idle enabled_idle).st (es.length + n)).toQcc = (machine.exec s₀ es).toQcc ∧
      ((ha.forever idle enabled_idle).st (es.length + n)).toGui = (machine.exec s₀ es).toGui := by
  induction n with
  | zero =>
    have hst : (ha.forever idle enabled_idle).st (es.length + 0) = machine.exec s₀ es := by
      simp [Machine.Allows.forever]
    rw [hst]
    exact ⟨hop, rfl, rfl⟩
  | succ n ih =>
    have hev : (ha.forever idle enabled_idle).ev (es.length + n) = idle := by
      simp [Machine.Allows.forever]
    rw [← Nat.add_assoc, Machine.Behaviour.step, hev]
    obtain ⟨hop', hq, hg⟩ := step_idle ((ha.forever idle enabled_idle).st (es.length + n))
    exact ⟨hop'.trans ih.1, hq.trans ih.2.1, hg.trans ih.2.2⟩

/-- The datagrams sent are not forgotten. -/
theorem sent_mono (b : machine.Behaviour s₀) {n m : Nat} (hnm : n ≤ m) :
    (b.st n).toQcc ⊆ (b.st m).toQcc ∧ (b.st n).toGui ⊆ (b.st m).toGui := by
  induction m, hnm using Nat.le_induction with
  | base => exact ⟨List.Subset.refl _, List.Subset.refl _⟩
  | succ m _ ih =>
    have hstep : (b.st m).toQcc ⊆ (b.st (m + 1)).toQcc ∧ (b.st m).toGui ⊆ (b.st (m + 1)).toGui := by
      rw [b.step]
      cases b.ev m with
      | gui e => exact ⟨List.subset_append_left .., List.Subset.refl _⟩
      | atQcc frame => exact ⟨List.Subset.refl _, List.subset_append_left ..⟩
      | atGui frame => exact ⟨List.subset_append_left .., List.Subset.refl _⟩
    exact ⟨List.Subset.trans ih.1 hstep.1, List.Subset.trans ih.2 hstep.2⟩

theorem forever_ev {e : Event} (he : e ∈ es) : ∃ m, (ha.forever idle enabled_idle).ev m = e := by
  obtain ⟨m, hm⟩ := List.mem_iff_getElem?.1 he
  exact ⟨m, by simp [Machine.Allows.forever, hm]⟩

/-- A run that has ended with every datagram delivered is fair. -/
theorem fair_forever (h : Inv image golden s₀) (hpos : 0 < (splitChunks image).length)
    (hop : (machine.exec s₀ es).gui.op = none)
    (hq : ∀ frame ∈ (machine.exec s₀ es).toQcc, .atQcc frame ∈ es)
    (hg : ∀ frame ∈ (machine.exec s₀ es).toGui, .atGui frame ∈ es) :
    Fair (ha.forever idle enabled_idle) := by
  have hover := forever_over ha hop
  generalize hb : ha.forever idle enabled_idle = b at hover
  have hev : ∀ e ∈ es, ∃ m, b.ev m = e := fun e he => hb ▸ forever_ev ha he
  refine ⟨fun n frame hf => hev _ (hq _ ?_), fun n frame hf => hev _ (hg _ ?_), fun n hp => ?_,
    fun n _ => ⟨es.length + n, by omega, .inr ?_⟩⟩
  · exact (hover n).2.1 ▸ (sent_mono b (Nat.le_add_left n es.length)).1 hf
  · exact (hover n).2.2 ▸ (sent_mono b (Nat.le_add_left n es.length)).2 hf
  · -- without a one-shot no chunk would go out
    by_contra hno
    have hnone : ∀ m, n ≤ m → (b.st m).chunksSent = 0 := by
      intro m hm
      induction m, hm using Nat.le_induction with
      | base =>
        cases (inv_at h b n).1.stage with
        | announced h₁ => exact h₁
        | streaming _ _ _ _ h₅ => omega
        | grace _ _ _ h₄ => omega
        | done _ _ h₃ => omega
      | succ m hm ih =>
        rcases (inv_at h b m).2.sent with hk | ⟨hk, ⟨-, he⟩ | ⟨raw, i, -, -, hi⟩⟩
        · exact hk.trans ih
        · exact absurd ⟨m, hm, he⟩ hno
        · omega
    have hcount := (inv_at h b (es.length + n)).1.settled_count (.inr (hover n).1)
    have := hnone (es.length + n) (by omega)
    omega
  · have hend := (hover n).1
    cases (inv_at h b (es.length + n)).1.stage with
    | announced _ h₂ => exact absurd (hend.symm.trans h₂) nofun
    | streaming _ h₂ => exact absurd (hend.symm.trans h₂) nofun
    | grace _ h₂ => exact absurd (hend.symm.trans h₂) nofun
    | done _ _ _ h₄ => exact h₄

end

/-- Every upload has a fair run. -/
theorem fair_exists (h : Inv image golden s) (hpos : 0 < (splitChunks image).length) :
    ∃ b : machine.Behaviour s, Fair b := by
  obtain ⟨es, ha, hop, hq, hg⟩ := delivered_run h hpos
  exact ⟨_, fair_forever ha h hpos hop hq hg⟩

/-! ## The closed loop -/

/-- Chunk `i + 1` goes out in a step that processes a frame in which all QTRMs acknowledge
chunk `i`. -/
def AfterAck (x : Sys × Event) : Prop :=
  ∀ i, x.1.chunksSent = i + 1 → (machine.post x).chunksSent ≠ x.1.chunksSent →
    (machine.post x).chunksSent = i + 2 ∧ ∃ raw, x.2 = .atGui raw ∧ AckFrame raw i

/-- If the step ends the session, it ends it with every chunk sent and acknowledged by all QTRMs. -/
def EndsWell (image : Bytes) (golden : Bool) (x : Sys × Event) : Prop :=
  x.1.gui.op = some .upload → (machine.post x).gui.op = none →
    (∃ text, .sessionFinished (some .upload) true text ∈ (machine.post x).gui.out) ∧
    (machine.post x).toQcc.map (·.drop headerSize) =
      announce image golden :: chunkPackets (splitChunks image) ∧
    ∀ q, ∀ i < (splitChunks image).length,
      ((machine.post x).gui.ackMatrix q).get? i = some true

theorem endsWell_step (h : Inv image golden s) {e : Event} (he : machine.enabled s e) :
    EndsWell image golden (s, e) := by
  intro hop hno
  have hne : s.gui.op ≠ none := fun hn => absurd (hop.symm.trans hn) nofun
  obtain ⟨hinv, hprog⟩ := inv_step h he
  refine ⟨hprog.ended hne hno, ?_, ?_⟩
  · rw [Machine.post_mk, hinv.sent, hinv.settled_count (.inr hno),
      List.take_of_length_le (by simp)]
  · cases hinv.stage with
    | announced _ h₂ => exact absurd (hno.symm.trans h₂) nofun
    | streaming _ h₂ => exact absurd (hno.symm.trans h₂) nofun
    | grace _ h₂ => exact absurd (hno.symm.trans h₂) nofun
    | done _ _ _ _ h₅ => exact fun q i hi => h₅ i hi q

theorem afterAck_step (h : Inv image golden s) {e : Event} (he : machine.enabled s e) :
    AfterAck (s, e) := by
  intro i hi hne
  obtain ⟨-, hprog⟩ := inv_step h he
  rcases hprog.sent with heq | ⟨hs, hcause⟩
  · exact absurd heq hne
  · rcases hcause with ⟨h0, -⟩ | ⟨raw, j, rfl, ha, hj⟩
    · simp_all
    · obtain rfl : j = i := by
        have : s.chunksSent = i + 1 := hi
        omega
      exact ⟨by rw [Machine.post_mk, hs, hj], raw, rfl, ha⟩

/-- An upload to all QTRMs against the mock responder that has latched the broadcast. -/
theorem closed_loop {rc : RcSettings} {tr : List Controller.Step} {m : Mock}
    (hr : Controller.machine.Run (Controller.init rc) tr c)
    (hc : Machine.Along NoCancelBeforeShot tr) (hl : c.sendOk = true)
    (ht : c.targetQtrm = .broadcast) (hm : m.lruSelect = byte c.targetQtrm.code)
    (hf : m.simulateFailures = false) (ha : c.Accepts (.upload image golden))
    (hn : (splitChunks image).length ≤ 65535) :
    (∀ tr s, machine.Run (start c image golden m) tr s → SentInOrder image golden s ∧
      ∀ x ∈ tr, AfterAck x ∧ EndsWell image golden x) ∧
    ∀ b : machine.Behaviour (start c image golden m), Fair b →
      ∃ n, (b.st n).gui.op = some .upload ∧ (b.st (n + 1)).gui.op = none ∧
        EndsWell image golden (b.st n, b.ev n) := by
  obtain ⟨hok, htidy⟩ := tidy_run hr hc
  have hsel : m.lruSelect = 0xFF := by rw [hm, ht]; rfl
  have h0 := inv_start hok htidy ha hl ⟨hsel, hf⟩ hn
  have hpos := splitChunks_length_pos ha.2.2
  constructor
  · refine fun tr s hrun => ⟨(inv_run h0 hrun).sent, fun x hx => ?_⟩
    obtain ⟨pre, post, rfl⟩ := List.append_of_mem hx
    obtain ⟨hpre, he, -⟩ := hrun.middle
    have hinv := inv_run h0 hpre
    exact ⟨afterAck_step hinv he, endsWell_step hinv he⟩
  · intro b hfair
    have hex := session_ends h0 hfair hpos
    -- the first state in which the session is over
    have h1 : (b.st 0).gui.op = some .upload := by
      rw [b.start]
      have hst : Started (.upload image golden) c.cleared (c.handle (.start (.upload image golden))) :=
        startOp_accepted ha
      exact hst.op
    obtain ⟨n, hn'⟩ : ∃ n, Nat.find hex = n + 1 := by
      apply Nat.exists_eq_succ_of_ne_zero
      intro hz
      have := Nat.find_spec hex
      rw [hz, h1] at this
      cases this
    have hspec := Nat.find_spec hex
    rw [hn'] at hspec
    have hmin := Nat.find_min hex (m := n) (by omega)
    have hinv := (inv_at h0 b n).1
    refine ⟨n, ?_, hspec, endsWell_step hinv (b.enabled n)⟩
    cases hinv.stage with
    | announced _ h₂ => exact h₂
    | streaming _ h₂ => exact h₂
    | grace _ h₂ => exact h₂
    | done _ h₂ => exact absurd h₂ hmin

/-- An upload of one byte once the gate is open, with a run in which it ends. -/
theorem closed_loop_one_byte :
    let s₀ := start (Controller.machine.exec (Controller.init sampleSettings) openGate) [0] false {}
    (∀ tr s, machine.Run s₀ tr s → SentInOrder [0] false s ∧ ∀ x ∈ tr, AfterAck x ∧ EndsWell [0] false x) ∧
    ∃ b : machine.Behaviour s₀, Fair b ∧ ∃ n, (b.st n).gui.op = some .upload ∧
      (b.st (n + 1)).gui.op = none ∧ EndsWell [0] false (b.st n, b.ev n) := by
  intro s₀
  have hcancel : Machine.Along NoCancelBeforeShot
      (Controller.machine.trace (Controller.init sampleSettings) openGate) := by
    simp [openGate, Machine.trace, NoCancelBeforeShot]
  have haccepts : (Controller.machine.exec (Controller.init sampleSettings) openGate).Accepts
      (.upload [0] false) := ⟨rfl, rfl, by simp⟩
  have hlen : (splitChunks [0]).length ≤ 65535 := by
    rw [splitChunks_length]
    decide
  obtain ⟨hsafe, hlive⟩ := closed_loop (m := {}) openGate_run hcancel rfl rfl rfl rfl haccepts hlen
  obtain ⟨hok, htidy⟩ := tidy_run openGate_run hcancel
  have hstart : Inv [0] false s₀ := inv_start hok htidy haccepts rfl ⟨rfl, rfl⟩ hlen
  obtain ⟨b, hfair⟩ := fair_exists hstart (splitChunks_length_pos haccepts.2.2)
  exact ⟨hsafe, b, hfair, hlive b hfair⟩

end ClosedLoop

end QccGui
