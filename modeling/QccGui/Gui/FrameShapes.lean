import QccGui.Gui.Verdict

/-!
# The shapes of received frames

The worker passes on frames of three sizes; six operations take every frame for one with slots.

* `Op.ReadsSlots`, `Op.Collects`: these operations, and those whose success is that anything came.
* `SlotlessHarmless`: a frame without slots does not make a success of a window without answers.
* `CutOff`: the other exception of `on_frame`, a pass that finds no connection.
* `on_frame_total`: `on_frame` does what it should with a frame exactly if neither is in its way.
-/

namespace QccGui

open Lib

/-- The operations whose responses have a slot for each QTRM. -/
def Op.ReadsSlots : Op → Prop
  | .linkCheck | .lruInfo | .authenticate | .verify | .program | .upload => True
  | _ => False

/-- The operations that are successful if anything has come when their window closes. -/
def Op.Collects : Op → Prop
  | .linkCheck | .lruInfo | .authenticate | .verify => True
  | _ => False

namespace Controller

variable {c d : Controller} {raw : Bytes}

/-- A frame without slots, received before any other in a window: if no frame with slots follows, the
window does not close as a success. -/
def SlotlessHarmless (c : Controller) (raw : Bytes) : Prop :=
  ∀ op, c.op = some op → op.Collects → raw.length ≠ totalPacketSize → c.gotAnyFrame = false →
    ∀ tr d, machine.Run (c.handle (.frame raw)) tr d →
      (∀ x ∈ tr, x.1.op = some op ∧ ∀ r, x.2 = .frame r → r.length ≠ totalPacketSize) →
      d.op = some op → machine.enabled d .timer →
      ∀ text, .sessionFinished (some op) true text ∉ (d.handle .timer).out

/-- A slot passes the chunk in flight, there is a next one, and no connection to send it over. -/
def CutOff (c : Controller) (raw : Bytes) : Prop :=
  c.op = some .upload ∧ c.sendOk = false ∧ c.uploadPhase = some .stream ∧ ∃ i,
    c.currentChunk = some i ∧ i + 1 < c.chunkCount ∧ ∃ q, PassAck (rpSlot raw q) i

/-! ## The slot loop of an upload -/

theorem ackOf_iff {slot : Bytes} {i : Nat} :
    ackOf .bitstream slot = some (i, true) ↔ PassAck slot i := by
  unfold ackOf PassAck
  constructor
  · intro h
    split at h
    · rename_i base j pf hp
      simp only [Option.some.injEq, Prod.mk.injEq, Bool.not_eq_true'] at h
      obtain ⟨rfl, hpf⟩ := h
      exact ⟨base, pf, hp, hpf⟩
    · cases h
  · rintro ⟨base, pf, hp, hpf⟩
    rw [hp]
    simp [hpf]

theorem flight_eq_chunk {i : Nat} :
    c.flight = .chunk i ↔ c.uploadPhase = some .stream ∧ c.currentChunk = some i := by
  unfold flight
  split
  · rename_i h₁ h₂
    simp [h₁, h₂]
  · rename_i h
    refine iff_of_false nofun ?_
    rintro ⟨h₁, h₂⟩
    exact h _ h₁ h₂

theorem flight_idle_or (h : c.Ok) : c.flight = .idle ∨ ∃ i < c.chunkCount, c.flight = .chunk i := by
  cases hf : c.flight with
  | idle => exact .inl rfl
  | chunk i => exact .inr ⟨i, h.current i (flight_eq_chunk.1 hf).2, rfl⟩
  | cut =>
    unfold flight at hf
    split at hf <;> cases hf

theorem cut_stays (slots : Qtrm → Bytes) (qs : List Qtrm) :
    qs.foldl (fun f q => c.afterAck f (slots q)) .cut = .cut := by
  induction qs with
  | nil => rfl
  | cons q qs ih => exact ih

/-- An exception in the loop is a pass without a connection. -/
theorem cut_iff (h : c.Ok) (hop : c.op = some .upload) (slots : Qtrm → Bytes) (qs : List Qtrm)
    (f : Flight) (hf : f = .idle ∨ ∃ i < c.chunkCount, f = .chunk i) :
    qs.foldl (fun f q => c.afterAck f (slots q)) f = .cut ↔
      c.sendOk = false ∧ ∃ i, f = .chunk i ∧ i + 1 < c.chunkCount ∧ ∃ q ∈ qs, PassAck (slots q) i := by
  have hctx : c.context = .bitstream := if_pos ⟨hop, (h.upload hop).2⟩
  induction qs generalizing f with
  | nil => rcases hf with rfl | ⟨i, -, rfl⟩ <;> simp
  | cons q qs ih =>
    rw [List.foldl_cons]
    rcases hf with rfl | ⟨i, hi, rfl⟩
    · have hidle : c.afterAck .idle (slots q) = .idle := rfl
      rw [hidle]
      refine (ih _ (.inl rfl)).trans ?_
      simp
    · by_cases hq : PassAck (slots q) i
      · have hack : ackOf c.context (slots q) = some (i, true) := by rw [hctx, ackOf_iff]; exact hq
        rw [afterAck, if_pos ⟨hack, hi⟩]
        by_cases hlast : i + 1 < c.chunkCount
        · rw [if_pos hlast]
          have hlen : i + 1 < c.chunks.length := h.count ▸ hlast
          cases hs : c.sendOk with
          | false =>
            rw [if_neg (by simp)]
            refine iff_of_true (cut_stays slots qs) ⟨rfl, i, rfl, hlast, q, List.mem_cons_self .., hq⟩
          | true =>
            rw [if_pos ⟨rfl, hlen⟩]
            refine (ih _ (.inr ⟨i + 1, hlast, rfl⟩)).trans ?_
            simp [hs]
        · rw [if_neg hlast]
          refine (ih _ (.inl rfl)).trans ?_
          simp only [reduceCtorEq, false_and, exists_false, and_false, Flight.chunk.injEq, false_iff]
          rintro ⟨-, j, rfl, hj, -⟩
          exact hlast hj
      · have hack : ¬ ackOf c.context (slots q) = some (i, true) := by rw [hctx, ackOf_iff]; exact hq
        rw [afterAck, if_neg fun hc => hack hc.1]
        refine (ih _ (.inr ⟨i, hi, rfl⟩)).trans ?_
        simp only [List.mem_cons, exists_eq_or_imp, Flight.chunk.injEq, exists_eq_left', hq, false_or]

/-! ## One frame -/

/-- After the slot loop the exception is the one of the loop. -/
theorem raised_onSlots (hl : raw.length = totalPacketSize) : (c.onSlots raw).raised =
    ((List.finRange 96).foldl (onSlot c.context (rpSlot raw)) (c, false)).1.raised := by
  have hafter : ∀ d : Controller, d.afterSlots.raised = d.raised := by
    intro d
    unfold afterSlots
    split
    · rfl
    · rfl
    · split <;> rfl
    · rfl
  rw [onSlots, extractRpSlots_ok hl]
  dsimp only
  generalize (List.finRange 96).foldl (onSlot c.context (rpSlot raw)) (c, false) = acc
  unfold next
  dsimp only
  split
  · rfl
  · rw [hafter]
    rfl

theorem onFrame_readsSlots {op : Op} (hop : c.op = some op) (hr : op.ReadsSlots) (raw : Bytes) :
    c.onFrame raw = { c with gotAnyFrame := true }.onSlots raw := by
  unfold onFrame
  split
  · rename_i hn
    cases hn.symm.trans hop
  · rename_i op' hop'
    obtain rfl := Option.some.inj (hop'.symm.trans hop)
    cases op' with
    | modeStep1 | modeStep2 | qtrmHighSpeed | modeBack => exact hr.elim
    | _ => rfl

/-- What makes `on_frame` raise. -/
theorem raised_onFrame (h : c.Ok) (hr : c.raised = false) (raw : Bytes) :
    (c.onFrame raw).raised = true ↔
      (∃ op, c.op = some op ∧ op.ReadsSlots ∧ raw.length ≠ totalPacketSize) ∨
        raw.length = totalPacketSize ∧ c.CutOff raw := by
  have hslots : ∀ op, c.op = some op → op.ReadsSlots →
      (({ c with gotAnyFrame := true }.onSlots raw).raised = true ↔
        (∃ op, c.op = some op ∧ op.ReadsSlots ∧ raw.length ≠ totalPacketSize) ∨
          raw.length = totalPacketSize ∧ c.CutOff raw) := by
    intro op hop hreads
    by_cases hl : raw.length = totalPacketSize
    · have hloop := reached_slots hr raw
      have hctx : ({ c with gotAnyFrame := true } : Controller).context = c.context := rfl
      rw [raised_onSlots hl, hctx]
      generalize (List.finRange 96).foldl (onSlot c.context (rpSlot raw))
        ({ c with gotAnyFrame := true }, false) = acc at hloop
      by_cases hup : c.op = some .upload
      · have hcut := cut_iff h hup (rpSlot raw) (List.finRange 96) c.flight (flight_idle_or h)
        generalize (List.finRange 96).foldl (fun f q => c.afterAck f (rpSlot raw q)) c.flight = f
          at hloop hcut
        rw [← Bool.not_eq_false, (hloop.flight hup).raised, not_not, hcut]
        simp only [flight_eq_chunk, List.mem_finRange, true_and, CutOff, hup, hl, ne_eq,
          not_true_eq_false, and_false, exists_false, false_or, exists_and_left, and_assoc]
      · simp [hloop.raised hup, hl, CutOff, hup]
    · obtain ⟨e, he⟩ := extractRpSlots_error hl
      rw [onSlots, he]
      exact iff_of_true rfl (.inl ⟨op, hop, hreads, hl⟩)
  unfold onFrame
  split
  · rename_i hop
    simp [hr, hop, CutOff]
  · rename_i op hop
    have hno : ¬ op.ReadsSlots → op ≠ .upload →
        ¬ ((∃ op, c.op = some op ∧ op.ReadsSlots ∧ raw.length ≠ totalPacketSize) ∨
          raw.length = totalPacketSize ∧ c.CutOff raw) := by
      rintro hn hu (⟨op', hop', hreads, -⟩ | ⟨-, hup, -⟩)
      · obtain rfl := Option.some.inj (hop.symm.trans hop')
        exact hn hreads
      · exact hu (Option.some.inj (hop.symm.trans hup))
    cases op with
    | modeStep1 => exact iff_of_false (by simp [stepComplete, finish, emit, hr]) (hno id (by decide))
    | modeStep2 => exact iff_of_false (by simp [stepComplete, finish, emit, hr]) (hno id (by decide))
    | qtrmHighSpeed => exact iff_of_false (by simp [finish, emit, hr]) (hno id (by decide))
    | modeBack => exact iff_of_false (by simp [closeGate, finish, emit, hr]) (hno id (by decide))
    | _ => exact hslots _ hop trivial

/-- A window in which anything has come closes as a success. -/
theorem onTimer_collected {op : Op} (h : d.Ok) (hop : d.op = some op) (hc : op.Collects)
    (hg : d.gotAnyFrame = true) (ht : d.timer.isSome) :
    ∃ text, .sessionFinished (some op) true text ∈ d.onTimer.out := by
  obtain ⟨⟨hd, ms⟩, htimer⟩ := Option.isSome_iff_exists.1 ht
  have hcl := (h.timer hd ms htimer).1
  have hfinish : ∀ (f : Controller) text, f.op = some op →
      .sessionFinished (some op) true text ∈ (f.finish true text).out := by
    intro f text hf
    simp [finish, emit, hf]
  unfold onTimer
  rw [htimer]
  dsimp only
  have hop' : ({ d with timer := none } : Controller).op = some op := hop
  have hg' : ({ d with timer := none } : Controller).gotAnyFrame = true := hg
  generalize ({ d with timer := none } : Controller) = f at hop' hg'
  rw [hop] at hcl
  cases hd with
  | simpleTimeout =>
    unfold onSimpleTimeout
    cases op with
    | linkCheck | lruInfo =>
      simp only [hop', hg', emit_gotAnyFrame, if_true]
      exact ⟨_, hfinish _ _ hop'⟩
    | authenticate | verify => simp [Handler.Closes] at hcl
    | _ => exact hc.elim
  | iapWindowClosed =>
    unfold onIapWindowClosed
    simp only [hop', hg', emit_gotAnyFrame, if_true]
    exact ⟨_, hfinish _ _ hop'⟩
  | graceTimeout =>
    obtain rfl : op = .upload := Option.some.inj hcl
    exact hc.elim

/-- Every frame without slots makes a success of its window. -/
theorem slotless_succeeds {op : Op} (h : c.Ok) (hop : c.op = some op) (hc : op.Collects)
    (hl : raw.length ≠ totalPacketSize) (ht : machine.enabled c .timer) :
    ∃ text, .sessionFinished (some op) true text ∈
      ((c.handle (.frame raw)).handle .timer).out := by
  obtain ⟨e, he⟩ := extractRpSlots_error hl
  have hreads : op.ReadsSlots := by cases op <;> first | exact hc.elim | trivial
  have hframe : c.handle (.frame raw) = { c.cleared with gotAnyFrame := true, raised := true } := by
    have hslots : c.handle (.frame raw) = _ := onFrame_readsSlots (c := c.cleared) hop hreads raw
    rw [hslots, onSlots, he]
  rw [hframe]
  exact onTimer_collected (d := { c.cleared with gotAnyFrame := true }) (h.congr rfl) hop hc rfl ht

/-! ## All frames -/

/-- `on_frame` returns, and a frame without slots makes no success of a window without answers. -/
def TotalOn (c : Controller) (raw : Bytes) : Prop :=
  (c.handle (.frame raw)).raised = false ∧ c.SlotlessHarmless raw

/-- It does exactly if a frame that is read as slots has slots, and no pass finds the connection
gone. -/
theorem on_frame_total {rc : RcSettings} {tr : List Step} (hr : machine.Run (init rc) tr c)
    (raw : Bytes) : c.TotalOn raw ↔
      (∀ op, c.op = some op → op.ReadsSlots → raw.length = totalPacketSize) ∧
        (raw.length = totalPacketSize → ¬ c.CutOff raw) := by
  have hiff : (c.handle (.frame raw)).raised = true ↔ _ :=
    raised_onFrame (c := c.cleared) ((run_ok hr).congr rfl) rfl raw
  constructor
  · rintro ⟨hret, -⟩
    have hno : ¬ (c.handle (.frame raw)).raised = true := by simp [hret]
    rw [hiff] at hno
    refine ⟨fun op hop hreads => ?_, fun hl hcut => hno (.inr ⟨hl, hcut⟩)⟩
    by_contra hl
    exact hno (.inl ⟨op, hop, hreads, hl⟩)
  · rintro ⟨hshape, hcut⟩
    refine ⟨?_, fun op hop hc hl => absurd (hshape op hop ?_) hl⟩
    · rw [← Bool.not_eq_true, hiff]
      rintro (⟨op, hop, hreads, hl⟩ | ⟨hl, hc⟩)
      · exact hl (hshape op hop hreads)
      · exact hcut hl hc
    · cases op <;> first | exact hc.elim | trivial

/-- A link check is active. -/
def linkChecking : List Event := openGate ++ [.start .linkCheck]

theorem linkChecking_run : machine.Run (init sampleSettings)
    (machine.trace (init sampleSettings) linkChecking)
    (machine.exec (init sampleSettings) linkChecking) :=
  Machine.Allows.run ⟨trivial, trivial, trivial, trivial, trivial, trivial⟩

/-- A response without a populated slot. -/
theorem on_frame_total_empty :
    (machine.exec (init sampleSettings) linkChecking).TotalOn (zeros totalPacketSize) := by
  refine (on_frame_total linkChecking_run _).2 ⟨fun _ _ _ => zeros_length _, fun _ hc => ?_⟩
  cases hc.1

/-- A bare header comes while the link check waits. -/
theorem header_raises : ∃ tr c, machine.Run (init sampleSettings) tr c ∧
    Machine.events tr = openGate ++ [.start .linkCheck] ∧ Forwarded (zeros headerSize) ∧
    ¬ c.TotalOn (zeros headerSize) := by
  have hl : (zeros headerSize).length = headerSize := zeros_length _
  refine ⟨_, _, linkChecking_run, Machine.events_trace, .inr (.inl hl), ?_⟩
  rintro ⟨hret, -⟩
  have hok := run_ok linkChecking_run
  have hop : (machine.exec (init sampleSettings) linkChecking).op = some .linkCheck := rfl
  generalize machine.exec (init sampleSettings) linkChecking = c at hret hok hop
  have hraise : (c.handle (.frame (zeros headerSize))).raised = true :=
    (raised_onFrame (c := c.cleared) (hok.congr rfl) rfl _).2
      (.inl ⟨_, hop, trivial, by rw [hl]; decide⟩)
  rw [hraise] at hret
  cases hret

end Controller

end QccGui
