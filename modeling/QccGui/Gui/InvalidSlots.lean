import QccGui.Gui.Acks
import QccGui.Gui.Alike

/-!
# Slots that fail the check

`parse_slot` computes the check of a slot and nothing looks at it: what a slot that fails the check
counts for, and what it would mean that it counts for nothing.

* `Ignored`, `TurnCounts`: a turn of the slot loop that changes nothing that counts, and a slot for
  which it does.
* `InvalidNeverCount`: the slots of a frame that fail the check change nothing that counts, and the
  controller goes on as with the frame in which they are zero.
* `Flight`, `Counts`: the chunk in flight at each slot, and from it whether a slot counts, read off
  the frame and the state in which the frame arrives.
* `invalid_slots`: invalid slots never count in a frame exactly if none of them is one that counts.
-/

namespace QccGui

open Lib

namespace Controller

variable {c d e : Controller} {q : Qtrm} {ctx : Context} {raw slot : Bytes}

/-! ## One slot -/

/-- Nothing that counts has changed from `d` to `d'`: the acks and the progress of an upload, the
QTRMs that have replied to an authentication or a verification, and the rows of the tab. -/
structure Ignored (d d' : Controller) : Prop where
  matrix : d'.ackMatrix = d.ackMatrix
  position : d'.uploadPhase = d.uploadPhase ∧ d'.currentChunk = d.currentChunk
  sends : sends d'.out = sends d.out
  replied : d.op = some .authenticate ∨ d.op = some .verify → d'.iapReplied = d.iapReplied
  rows : d.op ≠ some .program → ∃ o, d'.out = d.out ++ o ∧
    ∀ tab : RemoteProgrammingTab, (tab.display o).rows = tab.rows

/-- The reply of `q` is one that the operation counts: the status of an LRU, a first reply to an
authentication or a verification or one that fills a row, and an acknowledgement that changes its
entry of the matrix or is a pass of the chunk in flight. -/
def CountsSlot (d : Controller) (q : Qtrm) (parsed : Slot) : Prop :=
  match d.op with
  | some .lruInfo => ∃ base m p s f, parsed = .lruStatusResponse base m p s f
  | some .authenticate =>
    q ∉ d.iapReplied ∨ (RemoteProgrammingTab.iapRow .authenticate parsed).isSome = true
  | some .verify => q ∉ d.iapReplied ∨ (RemoteProgrammingTab.iapRow .verify parsed).isSome = true
  | some .upload => ∃ base i pf, parsed = .bitstreamAck base i pf ∧ i < d.chunkCount ∧
      (((d.ackMatrix q).get? i ≠ some true ∧ (d.ackMatrix q).get? i ≠ some (!transferFailed pf)) ∨
        (d.uploadPhase = some .stream ∧ transferFailed pf = false ∧ d.currentChunk = some i))
  | _ => False

/-- An entry that is there already. -/
theorem setAck_known {i : Nat} {ok : Bool}
    (h : (d.ackMatrix q).get? i = some true ∨ (d.ackMatrix q).get? i = some ok) :
    ∃ o : List Signal, d.setAck q i ok = d.withOut (d.out ++ o) ∧ o.filter Signal.tallies = [] := by
  unfold setAck
  by_cases ht : (d.ackMatrix q).get? i = some true
  · rw [if_neg (not_not.2 ht)]
    exact ⟨[], by rw [List.append_nil]; rfl, rfl⟩
  · rw [if_pos ht, Dict.set_of_get? (h.resolve_left ht), Function.update_eq_self]
    exact ⟨[.ackRecorded q i ok], rfl, rfl⟩

theorem ackMatrix_sendNextChunk (first : Bool) :
    (d.sendNextChunk first).ackMatrix = d.ackMatrix := by
  have hsend : ∀ (c : Controller) cmd payload text,
      (c.sendRp cmd payload text).ackMatrix = c.ackMatrix := by
    intro c cmd payload text
    obtain ⟨rc, -, h⟩ := c.sendRp_eq cmd payload text
    rw [h]
    exact next_of (P := fun d => d.ackMatrix = c.ackMatrix) rfl fun d hd => hd
  unfold sendNextChunk sendCurrentChunk
  dsimp only
  split
  · rfl
  · split
    · rfl
    · exact next_of (P := fun e => e.ackMatrix = d.ackMatrix) (hsend ..) fun d hd => hd

/-- The next chunk, or the grace phase, is another position. -/
theorem position_sendNextChunk {i : Nat}
    (hcur : d.currentChunk = some i) : ¬ ((d.sendNextChunk false).uploadPhase = some .stream ∧
      (d.sendNextChunk false).currentChunk = some i) := by
  have hnext : d.nextIndex false = i + 1 := by rw [nextIndex, hcur]; rfl
  rcases Nat.lt_or_ge (d.nextIndex false) d.chunkCount with hi | hi
  · rw [sendNextChunk_of_lt hi, currentChunk_of_core (core_sendCurrentChunk _), hnext]
    simp
  · rw [sendNextChunk_grace hi]
    simp [enterGrace]

/-- An acknowledgement that is not counted. -/
theorem recordAck_uncounted {i : Nat} {ok : Bool}
    (h : i < d.chunkCount → ((d.ackMatrix q).get? i = some true ∨ (d.ackMatrix q).get? i = some ok) ∧
      ¬ (d.uploadPhase = some .stream ∧ ok = true ∧ d.currentChunk = some i)) :
    ∃ o : List Signal, d.recordAck q i ok = d.withOut (d.out ++ o) ∧
      o.filter Signal.tallies = [] := by
  by_cases hi : i < d.chunkCount
  · obtain ⟨hknown, hstay⟩ := h hi
    obtain ⟨o, ho, ht⟩ := setAck_known hknown
    refine ⟨o, ?_, ht⟩
    rw [recordAck, if_neg (Nat.not_le.2 hi), ho]
    exact if_neg hstay
  · exact ⟨[], by rw [recordAck, if_pos (Nat.le_of_not_lt hi), List.append_nil]; rfl, rfl⟩

/-- A reply that is not counted adds outputs that are not counted. -/
theorem dispatchSlot_uncounted {parsed : Slot} (h : ¬ d.CountsSlot q parsed)
    (hp : d.op ≠ some .program) : ∃ o : List Signal,
      d.dispatchSlot q parsed = d.withOut (d.out ++ o) ∧ o.filter Signal.tallies = [] := by
  have hnone : ∃ o : List Signal, d = d.withOut (d.out ++ o) ∧ o.filter Signal.tallies = [] :=
    ⟨[], by rw [List.append_nil]; rfl, rfl⟩
  have hrow : ∀ op, ¬ Polls op → ∃ o : List Signal, d.emit (.opRowUpdated op q parsed) =
      d.withOut (d.out ++ o) ∧ o.filter Signal.tallies = [] :=
    fun op hn => ⟨[_], rfl, by simp [Signal.tallies, hn]⟩
  have hpoll : ∀ op, op = .authenticate ∨ op = .verify →
      ¬ (q ∉ d.iapReplied ∨ (RemoteProgrammingTab.iapRow op parsed).isSome = true) →
      ∃ o : List Signal, { d with iapReplied := insert q d.iapReplied }.emit
        (.opRowUpdated op q parsed) = d.withOut (d.out ++ o) ∧ o.filter Signal.tallies = [] := by
    intro op hop hn
    obtain ⟨hold, hiap⟩ := not_or.1 hn
    rw [Finset.insert_eq_self.2 (not_not.1 hold)]
    exact ⟨[_], rfl, by simp [Signal.tallies, hiap]⟩
  unfold CountsSlot at h
  rcases hop : d.op with _ | op
  · simp only [dispatchSlot, hop]
    exact hnone
  rw [hop] at h
  by_cases hiap : op = .authenticate ∨ op = .verify
  · rw [dispatchSlot_poll hop (hiap.imp_right .inl)]
    apply hpoll op hiap
    rcases hiap with rfl | rfl
    · exact h
    · exact h
  · unfold dispatchSlot
    simp only [hop]
    cases op with
    | modeStep1 => exact hrow _ (by decide)
    | linkCheck => exact hrow _ (by decide)
    | lruInfo =>
      cases parsed with
      | lruStatusResponse => exact absurd ⟨_, _, _, _, _, rfl⟩ h
      | _ => exact hrow _ (by decide)
    | authenticate => exact absurd (.inl rfl) hiap
    | verify => exact absurd (.inr rfl) hiap
    | program => exact absurd hop hp
    | upload =>
      cases parsed with
      | bitstreamAck base i pf =>
        refine recordAck_uncounted fun hi => ?_
        by_contra hc
        refine h ⟨base, i, pf, rfl, hi, ?_⟩
        rw [not_and_or, not_or, not_not] at hc
        refine hc.imp id fun hs => ⟨hs.1, ?_, hs.2.2⟩
        simpa using hs.2.1
      | _ => exact hrow _ (by decide)
    | _ => exact hnone

theorem ignored_of_out {o : List Signal} (h : e = d.withOut (d.out ++ o))
    (ho : o.filter Signal.tallies = []) : Ignored d e := by
  subst h
  have hsends : sends o = [] := by
    rw [sends, List.filterMap_eq_nil_iff]
    intro s hs
    cases s with
    | send frame =>
      have hmem : Signal.send frame ∈ o.filter Signal.tallies := List.mem_filter.2 ⟨hs, rfl⟩
      rw [ho] at hmem
      cases hmem
    | _ => rfl
  refine ⟨rfl, ⟨rfl, rfl⟩, ?_, fun _ => rfl, fun _ => ⟨o, rfl, fun tab => ?_⟩⟩
  · simp [withOut, hsends]
  · rw [tab.rows_display, ho]
    rfl

/-- A poll's reply that is not counted outside the tables of the poll. -/
theorem ignored_program {parsed : Slot} (hop : d.op = some .program) :
    Ignored d (d.dispatchSlot q parsed) := by
  rw [dispatchSlot_poll hop (.inr (.inr rfl))]
  refine ⟨rfl, ⟨rfl, rfl⟩, by simp, fun h => ?_, fun h => absurd hop h⟩
  rcases h with h | h
  · cases hop.symm.trans h
  · cases hop.symm.trans h

theorem ackMatrix_recordAck {i : Nat} {ok : Bool} (hi : i < d.chunkCount) :
    (d.recordAck q i ok).ackMatrix = (d.setAck q i ok).ackMatrix := by
  rw [recordAck, if_neg (Nat.not_le.2 hi)]
  dsimp only
  split
  · exact ackMatrix_sendNextChunk false
  · rfl

/-- A turn that is ignored and emits one signal: it fills no row. -/
theorem Ignored.rows_receive {s : Signal} (h : Ignored d e) (hp : d.op ≠ some .program)
    (he : e.out = d.out ++ [s]) (tab : RemoteProgrammingTab) : (tab.receive s).rows = tab.rows := by
  obtain ⟨o, ho, htab⟩ := h.rows hp
  obtain rfl : [s] = o := List.append_cancel_left (he.symm.trans ho)
  exact htab tab

theorem not_ignored_poll {op : Op} {parsed : Slot} (hop : op = .authenticate ∨ op = .verify)
    (hd : d.op = some op)
    (h : q ∉ d.iapReplied ∨ (RemoteProgrammingTab.iapRow op parsed).isSome = true) :
    ¬ Ignored d (d.dispatchSlot q parsed) := by
  intro hi
  rw [dispatchSlot_poll hd (hop.imp_right .inl)] at hi
  rcases h with hnew | hrow
  · have hsame := hi.replied (hop.imp (hd.trans <| congrArg some ·) (hd.trans <| congrArg some ·))
    exact hnew (hsame ▸ Finset.mem_insert_self q d.iapReplied)
  · have hne : d.op ≠ some .program := by
      rcases hop with rfl | rfl
      · simp [hd]
      · simp [hd]
    exact RemoteProgrammingTab.rows_ne_of_iapRow (hop.imp_right .inl) hrow
      (hi.rows_receive hne rfl {})

theorem not_ignored_recordAck {i : Nat} {ok : Bool} (hi : i < d.chunkCount)
    (h : ((d.ackMatrix q).get? i ≠ some true ∧ (d.ackMatrix q).get? i ≠ some ok) ∨
      (d.uploadPhase = some .stream ∧ ok = true ∧ d.currentChunk = some i)) :
    ¬ Ignored d (d.recordAck q i ok) := by
  intro hig
  rcases h with ⟨hnt, hne⟩ | ⟨hph, hok, hcur⟩
  · have hm := hig.matrix
    rw [ackMatrix_recordAck hi, setAck, if_pos hnt, emit_ackMatrix] at hm
    have hq := congrFun hm q
    simp only [Function.update_self] at hq
    exact hne (by rw [← hq, Dict.get?_set_self])
  · have hcore := core_setAck (c := d) q i ok
    have hcur' : (d.setAck q i ok).currentChunk = some i :=
      (currentChunk_of_core hcore).trans hcur
    have hph' : (d.setAck q i ok).uploadPhase = some .stream :=
      (uploadPhase_of_core hcore).trans hph
    have hrec : d.recordAck q i ok = (d.setAck q i ok).sendNextChunk false := by
      rw [recordAck, if_neg (Nat.not_le.2 hi)]
      exact if_pos ⟨hph', hok, hcur'⟩
    rw [hrec] at hig
    exact position_sendNextChunk hcur' ⟨hig.position.1.trans hph, hig.position.2.trans hcur⟩

/-- A turn is ignored exactly if its reply is not counted. -/
theorem ignored_dispatchSlot {parsed : Slot} :
    Ignored d (d.dispatchSlot q parsed) ↔ ¬ d.CountsSlot q parsed := by
  constructor
  · intro hi hc
    unfold CountsSlot at hc
    rcases hop : d.op with _ | op
    · simp [hop] at hc
    rw [hop] at hc
    cases op with
    | lruInfo =>
      obtain ⟨base, m, p, s, f, rfl⟩ := hc
      have he : d.dispatchSlot q (.lruStatusResponse base m p s f) =
          d.emit (.lruRowUpdated q (.lruStatusResponse base m p s f)) := by
        simp only [dispatchSlot, hop]
      rw [he] at hi
      exact RemoteProgrammingTab.rows_ne_of_lruRow base m p s f
        (hi.rows_receive (by simp [hop]) rfl {})
    | authenticate => exact not_ignored_poll (.inl rfl) hop hc hi
    | verify => exact not_ignored_poll (.inr rfl) hop hc hi
    | upload =>
      obtain ⟨base, i, pf, rfl, hlt, hc⟩ := hc
      have he : d.dispatchSlot q (.bitstreamAck base i pf) =
          d.recordAck q i (!transferFailed pf) := by
        simp only [dispatchSlot, hop]
      rw [he] at hi
      exact not_ignored_recordAck hlt (hc.imp id fun h => ⟨h.1, by simp [h.2.1], h.2.2⟩) hi
    | _ => exact hc
  · intro hc
    by_cases hp : d.op = some .program
    · exact ignored_program hp
    · obtain ⟨o, ho, ht⟩ := dispatchSlot_uncounted hc hp
      exact ignored_of_out ho ht

/-! ## Frames -/

/-- A slot of a response that fails the check. -/
def Invalid (raw : Bytes) (q : Qtrm) : Prop :=
  raw.length = totalPacketSize ∧ slotValid (rpSlot raw q) = false

/-- The response with zeros for the slots that fail the check. -/
def blanked (raw : Bytes) : Bytes :=
  if raw.length = totalPacketSize then
    slotFrame (raw.take headerSize) fun q =>
      (if slotValid (rpSlot raw q) then rpSlot raw q else zeros rpInnerCmdSize) ++
        slice raw (headerSize + q.val * qtrmSlotSize + rpInnerCmdSize) (qtrmSlotSize - rpInnerCmdSize)
  else raw

/-- The state in which the slot loop of a response takes up the slot of `q`. -/
def atSlot (c : Controller) (raw : Bytes) (q : Qtrm) : Controller :=
  (((List.finRange 96).take q.val).foldl (onSlot c.context (rpSlot raw))
    ({ c with gotAnyFrame := true }, false)).1

/-- The state after its turn. -/
def turn (c : Controller) (raw : Bytes) (q : Qtrm) : Controller :=
  (onSlot c.context (rpSlot raw) (c.atSlot raw q, false) q).1

/-- The slot of `q` counts when the loop takes it up. -/
def TurnCounts (c : Controller) (raw : Bytes) (q : Qtrm) : Prop :=
  (c.atSlot raw q).raised = false ∧ ∃ parsed,
    parseSlot (rpSlot raw q) c.context = .ok (some parsed) ∧ (c.atSlot raw q).CountsSlot q parsed

/-- Slots of the response that fail the check never count: the turn of each changes nothing that
counts, and the controller goes on as if they had been all zero. -/
structure InvalidNeverCount (c : Controller) (raw : Bytes) : Prop where
  turns : ∀ q, Invalid raw q → Ignored (c.cleared.atSlot raw q) (c.cleared.turn raw q)
  run : c.op ≠ some .program → Alike (c.handle (.frame raw)) (c.handle (.frame (blanked raw)))

/-- The 30 bytes of a QTRM in the cleared response. -/
theorem blanked_slot_length (hl : raw.length = totalPacketSize) (q : Qtrm) :
    ((if slotValid (rpSlot raw q) then rpSlot raw q else zeros rpInnerCmdSize) ++
      slice raw (headerSize + q.val * qtrmSlotSize + rpInnerCmdSize)
        (qtrmSlotSize - rpInnerCmdSize)).length = qtrmSlotSize := by
  have hq := q.isLt
  have hrest : (slice raw (headerSize + q.val * qtrmSlotSize + rpInnerCmdSize)
      (qtrmSlotSize - rpInnerCmdSize)).length = qtrmSlotSize - rpInnerCmdSize := by
    apply slice_length
    rw [hl]
    simp only [headerSize, qtrmSlotSize, rpInnerCmdSize, totalPacketSize, qtrmBlockSize, numQtrm]
    omega
  rw [List.length_append, hrest]
  split
  · rw [rpSlot_length hl]
    rfl
  · rw [zeros_length]
    rfl

theorem take_header_length (hl : raw.length = totalPacketSize) :
    (raw.take headerSize).length = headerSize := by
  rw [List.length_take, hl]
  rfl

theorem blanked_length (hl : raw.length = totalPacketSize) :
    (blanked raw).length = totalPacketSize := by
  rw [blanked, if_pos hl]
  exact slotFrame_length (take_header_length hl) (blanked_slot_length hl)

theorem rpSlot_blanked (hl : raw.length = totalPacketSize) (q : Qtrm) :
    rpSlot (blanked raw) q = if slotValid (rpSlot raw q) then rpSlot raw q else zeros 10 := by
  rw [blanked, if_pos hl, rpSlot_slotFrame (take_header_length hl) (blanked_slot_length hl)]
  apply List.take_left'
  split
  · exact rpSlot_length hl q
  · exact zeros_length _

theorem onSlot_fst {slots : Qtrm → Bytes} (acc : Controller × Bool) (b : Bool) :
    (onSlot ctx slots acc q).1 = (onSlot ctx slots (acc.1, b) q).1 := by
  unfold onSlot
  split
  · rfl
  · split
    · rfl
    · rfl

/-- A turn of the slot loop is ignored exactly if its slot does not count. -/
theorem ignored_turn : Ignored (c.atSlot raw q) (c.turn raw q) ↔ ¬ c.TurnCounts raw q := by
  have hrefl : Ignored (c.atSlot raw q) (c.atSlot raw q) :=
    ignored_of_out (o := []) (by rw [List.append_nil]; rfl) rfl
  unfold turn TurnCounts onSlot
  by_cases hr : (c.atSlot raw q).raised = true
  · simp only [hr, if_true]
    exact ⟨fun _ h => absurd h.1 (by simp), fun _ => hrefl⟩
  · simp only [hr]
    rcases hp : parseSlot (rpSlot raw q) c.context with msg | _ | parsed
    · exact ⟨fun _ h => by simp at h, fun _ => hrefl⟩
    · exact ⟨fun _ h => by simp at h, fun _ => hrefl⟩
    · simp [ignored_dispatchSlot]

/-- The turn of a slot that does not count leads to an alike state. -/
theorem alike_turn (hp : c.op ≠ some .program) (h : ¬ c.TurnCounts raw q) :
    Alike (c.atSlot raw q) (c.turn raw q) := by
  have hop : (c.atSlot raw q).op = c.op := (same_slots ..).op
  unfold TurnCounts at h
  unfold turn onSlot
  split
  · exact Alike.refl _
  · split
    · rename_i hr _ parsed hparse
      have hc : ¬ (c.atSlot raw q).CountsSlot q parsed :=
        fun hc => h ⟨by simpa using hr, parsed, hparse, hc⟩
      obtain ⟨o, ho, ht⟩ := dispatchSlot_uncounted hc (by rwa [hop])
      rw [ho]
      exact Alike.withOut (by rw [List.filter_append, ht, List.append_nil])
    · exact Alike.refl _

/-- The same slot is handled alike in alike states. -/
theorem Alike.onSlot {slots slots' : Qtrm → Bytes} {b b' : Bool} (h : Alike d e)
    (hs : slots' q = slots q) :
    Alike (Controller.onSlot ctx slots (d, b) q).1 (Controller.onSlot ctx slots' (e, b') q).1 := by
  have hr : e.raised = d.raised := by rw [h.state]; rfl
  unfold Controller.onSlot
  simp only [hs, hr]
  split
  · exact h
  · split
    · exact h.appends (appends_dispatchSlot q _)
    · exact h

/-- One more slot. -/
theorem take_succ_finRange {k : Nat} (hk : k < 96) :
    (List.finRange 96).take (k + 1) = (List.finRange 96).take k ++ [⟨k, hk⟩] := by
  have hlt : k < (List.finRange 96).length := by
    rw [List.length_finRange]
    exact hk
  have hq : (List.finRange 96)[k] = (⟨k, hk⟩ : Qtrm) := by simp
  rw [List.take_succ_eq_append_getElem hlt, hq]

/-- The slot loops of a response and of the cleared one, up to any slot. -/
theorem alike_loop (hl : raw.length = totalPacketSize) (hp : c.op ≠ some .program)
    (h : ∀ q, Invalid raw q → ¬ c.TurnCounts raw q) {k : Nat} (hk : k ≤ 96) :
    Alike (((List.finRange 96).take k).foldl (onSlot c.context (rpSlot raw))
        ({ c with gotAnyFrame := true }, false)).1
      (((List.finRange 96).take k).foldl (onSlot c.context (rpSlot (blanked raw)))
        ({ c with gotAnyFrame := true }, false)).1 := by
  induction k with
  | zero => exact Alike.refl _
  | succ k ih =>
    have hprev := ih (by omega)
    rw [take_succ_finRange (by omega), List.foldl_append, List.foldl_append]
    generalize hd : ((List.finRange 96).take k).foldl (onSlot c.context (rpSlot raw))
      ({ c with gotAnyFrame := true }, false) = acc at hprev
    generalize ((List.finRange 96).take k).foldl (onSlot c.context (rpSlot (blanked raw)))
      ({ c with gotAnyFrame := true }, false) = acc' at hprev
    have hat : c.atSlot raw ⟨k, by omega⟩ = acc.1 := congrArg Prod.fst hd
    have hblank := rpSlot_blanked hl ⟨k, by omega⟩
    simp only [List.foldl_cons, List.foldl_nil]
    by_cases hv : slotValid (rpSlot raw ⟨k, by omega⟩) = true
    · rw [if_pos hv] at hblank
      exact hprev.onSlot hblank
    · rw [if_neg hv] at hblank
      have hskip : (onSlot c.context (rpSlot (blanked raw)) acc' ⟨k, by omega⟩).1 = acc'.1 := by
        rw [onSlot, hblank, parseSlot_zeros]
        exact congrArg Prod.fst (ite_self acc')
      have hturn := alike_turn hp (h ⟨k, by omega⟩ ⟨hl, by simpa using hv⟩)
      rw [turn, hat, ← onSlot_fst acc false] at hturn
      rw [hskip]
      exact hturn.symm.trans hprev

theorem alike_onSlots (hl : raw.length = totalPacketSize) (hp : c.op ≠ some .program)
    (h : ∀ q, Invalid raw q → ¬ c.TurnCounts raw q) :
    Alike ({ c with gotAnyFrame := true }.onSlots raw)
      ({ c with gotAnyFrame := true }.onSlots (blanked raw)) := by
  have hloop := alike_loop hl hp h (Nat.le_refl 96)
  rw [List.take_of_length_le (by simp)] at hloop
  unfold onSlots
  rw [extractRpSlots_ok hl, extractRpSlots_ok (blanked_length hl)]
  dsimp only
  have hctx : ({ c with gotAnyFrame := true } : Controller).context = c.context := rfl
  rw [hctx]
  generalize (List.finRange 96).foldl (onSlot c.context (rpSlot raw))
    ({ c with gotAnyFrame := true }, false) = acc at hloop
  generalize (List.finRange 96).foldl (onSlot c.context (rpSlot (blanked raw)))
    ({ c with gotAnyFrame := true }, false) = acc' at hloop
  have hr : acc'.1.raised = acc.1.raised := by rw [hloop.state]; rfl
  rw [next, next, hr]
  split
  · exact hloop
  · exact (hloop.log ..).appends appends_afterSlots

/-- A response and the cleared one lead to alike states. -/
theorem alike_onFrame (hp : c.op ≠ some .program) (h : ∀ q, Invalid raw q → ¬ c.TurnCounts raw q) :
    Alike (c.onFrame raw) (c.onFrame (blanked raw)) := by
  by_cases hl : raw.length = totalPacketSize
  · have hslots := alike_onSlots hl hp h
    have hlog := fun text : String => (Alike.refl { c with gotAnyFrame := true }).log raw
      (blanked raw) text text
    unfold onFrame
    dsimp only
    generalize ({ c with gotAnyFrame := true } : Controller) = d at hslots hlog ⊢
    rcases c.op with _ | op
    · exact Alike.refl c
    cases op with
    | modeStep1 => exact (hlog _).appends (appends_stepComplete _)
    | modeStep2 => exact (hlog _).appends (appends_stepComplete _)
    | qtrmHighSpeed => exact (hlog _).appends (appends_finish _ _)
    | modeBack =>
      have hclose : Appends closeGate := fun c => ⟨[.gateChanged false], rfl, fun _ => rfl⟩
      exact ((hlog _).appends hclose).appends (appends_finish _ _)
    | _ => exact hslots
  · rw [blanked, if_neg hl]
    exact Alike.refl _

/-! ## The chunk in flight -/

/-- The chunk whose pass moves an upload on, if there is one and no exception has cut the handling
of the frame off. -/
inductive Flight
  | chunk (i : Nat)
  | idle
  | cut
  deriving DecidableEq, Repr

/-- The acknowledgement that a slot is parsed to: its chunk, and whether it is a pass. -/
def ackOf (ctx : Context) (slot : Bytes) : Option (Nat × Bool) :=
  match parseSlot slot ctx with
  | .ok (some (.bitstreamAck _ i pf)) => some (i, !transferFailed pf)
  | _ => none

/-- The chunk in flight when a frame arrives. -/
def flight (c : Controller) : Flight :=
  match c.uploadPhase, c.currentChunk with
  | some .stream, some i => .chunk i
  | _, _ => .idle

/-- A pass of the chunk in flight sends the next one, if there is a next one and a connection. -/
def afterAck (c : Controller) (f : Flight) (slot : Bytes) : Flight :=
  match f with
  | .chunk i =>
    if ackOf c.context slot = some (i, true) ∧ i < c.chunkCount then
      if i + 1 < c.chunkCount then
        if c.sendOk = true ∧ i + 1 < c.chunks.length then .chunk (i + 1) else .cut
      else .idle
    else .chunk i
  | f => f

/-- The chunk in flight after the slots before that of `q`. -/
def flightAt (c : Controller) (raw : Bytes) (q : Qtrm) : Flight :=
  ((List.finRange 96).take q.val).foldl (fun f q' => c.afterAck f (rpSlot raw q')) c.flight

/-- The slot of `q` counts: in Get LRU Info the status of an LRU; in an authentication or a
verification a first slot or one that fills a row; in an upload an acknowledgement that changes its
entry of the matrix, or is a pass of the chunk then in flight. -/
def Counts (c : Controller) (raw : Bytes) (q : Qtrm) : Prop :=
  ∃ parsed, parseSlot (rpSlot raw q) c.context = .ok (some parsed) ∧
    match c.op with
    | some .lruInfo => ∃ base m p s f, parsed = .lruStatusResponse base m p s f
    | some .authenticate =>
      q ∉ c.iapReplied ∨ (RemoteProgrammingTab.iapRow .authenticate parsed).isSome = true
    | some .verify =>
      q ∉ c.iapReplied ∨ (RemoteProgrammingTab.iapRow .verify parsed).isSome = true
    | some .upload => ∃ base i pf, parsed = .bitstreamAck base i pf ∧ i < c.chunkCount ∧
        c.flightAt raw q ≠ .cut ∧
        (((c.ackMatrix q).get? i ≠ some true ∧ (c.ackMatrix q).get? i ≠ some (!transferFailed pf)) ∨
          (transferFailed pf = false ∧ c.flightAt raw q = .chunk i))
    | _ => False

/-- The state `d` has the chunk `f` in flight. -/
def Tracks (d : Controller) : Flight → Prop
  | .chunk i => d.raised = false ∧ d.uploadPhase = some .stream ∧ d.currentChunk = some i
  | .idle => d.raised = false ∧ ∀ i, ¬ (d.uploadPhase = some .stream ∧ d.currentChunk = some i)
  | .cut => d.raised = true

theorem tracks_flight (hr : c.raised = false) : Tracks c c.flight := by
  unfold flight
  split
  · exact ⟨hr, ‹_›, ‹_›⟩
  · rename_i h
    exact ⟨hr, fun i hi => h i hi.1 hi.2⟩

theorem raised_sendRp (cmd payload : Bytes) (text : String) :
    (d.sendRp cmd payload text).raised = !d.sendOk := by
  obtain ⟨rc, -, h⟩ := d.sendRp_eq cmd payload text
  rw [h]
  exact next_of (P := fun e => e.raised = !d.sendOk) rfl fun e he => he

theorem raised_sendCurrentChunk (i : Nat) :
    (d.sendCurrentChunk i).raised = !decide (d.sendOk = true ∧ i < d.chunks.length) := by
  unfold sendCurrentChunk
  split
  · rename_i h
    have := List.getElem?_eq_none_iff.1 h
    simp [Nat.not_lt.2 this]
  · rename_i h
    have hlt := (List.getElem?_eq_some_iff.1 h).1
    refine next_of (P := fun e => e.raised = _) ?_ fun e he => he
    rw [raised_sendRp]
    simp [hlt]

/-- The chunk in flight after a pass of it. -/
theorem tracks_sendNextChunk {i : Nat} (hph : d.uploadPhase = some .stream)
    (hcur : d.currentChunk = some i) (hr : d.raised = false) :
    Tracks (d.sendNextChunk false) (if i + 1 < d.chunkCount then
      if d.sendOk = true ∧ i + 1 < d.chunks.length then .chunk (i + 1) else .cut else .idle) := by
  have hnext : d.nextIndex false = i + 1 := by rw [nextIndex, hcur]; rfl
  by_cases hi : i + 1 < d.chunkCount
  · rw [sendNextChunk_of_lt (by rwa [hnext]), hnext, if_pos hi]
    generalize he : ({ d with currentChunk := some (i + 1) } : Controller) = e
    have hcore := core_sendCurrentChunk (c := e) (i + 1)
    have hraise := raised_sendCurrentChunk (d := e) (i + 1)
    have hsame : e.sendOk = d.sendOk ∧ e.chunks = d.chunks ∧ e.uploadPhase = some .stream ∧
        e.currentChunk = some (i + 1) := by
      subst he
      exact ⟨rfl, rfl, hph, rfl⟩
    rw [hsame.1, hsame.2.1] at hraise
    split
    · rename_i hs
      exact ⟨by rw [hraise]; simp [hs], (uploadPhase_of_core hcore).trans hsame.2.2.1,
        (currentChunk_of_core hcore).trans hsame.2.2.2⟩
    · rename_i hs
      rw [Tracks, hraise, decide_eq_false hs]
      rfl
  · rw [sendNextChunk_grace (by rw [hnext]; omega), if_neg hi]
    exact ⟨hr, fun j hj => by simp [enterGrace] at hj⟩

theorem Tracks.congr {f : Flight} (h : Tracks d f) (hc : e.core = d.core)
    (hr : e.raised = d.raised) : Tracks e f := by
  cases f with
  | chunk i =>
    exact ⟨hr.trans h.1, (uploadPhase_of_core hc).trans h.2.1, (currentChunk_of_core hc).trans h.2.2⟩
  | idle =>
    exact ⟨hr.trans h.1, fun i hi => h.2 i ⟨(uploadPhase_of_core hc).symm.trans hi.1,
      (currentChunk_of_core hc).symm.trans hi.2⟩⟩
  | cut => exact hr.trans h

theorem raised_setAck (q : Qtrm) (i : Nat) (ok : Bool) : (d.setAck q i ok).raised = d.raised := by
  unfold setAck
  split <;> rfl

/-- What an acknowledgement does to the chunk in flight. -/
theorem tracks_recordAck {f : Flight} {i : Nat} {ok : Bool} (h : Tracks d f)
    (hn : d.chunkCount = c.chunkCount) (hch : d.chunks = c.chunks) (hs : d.sendOk = c.sendOk)
    (hr : d.raised = false) (hack : ackOf c.context slot = some (i, ok)) :
    Tracks (d.recordAck q i ok) (c.afterAck f slot) := by
  have hset := h.congr (core_setAck q i ok) (raised_setAck q i ok)
  have hcore := core_setAck (c := d) q i ok
  cases f with
  | cut => exact absurd (h.symm.trans hr) (by simp)
  | idle =>
    rw [recordAck]
    dsimp only
    split
    · exact h
    · rw [if_neg fun hc => hset.2 i ⟨hc.1, hc.2.2⟩]
      exact hset
  | chunk j =>
    rw [afterAck, hack]
    by_cases hmove : (some (i, ok) = some (j, true)) ∧ j < c.chunkCount
    · obtain ⟨hij, hlt⟩ := hmove
      obtain ⟨rfl, rfl⟩ : i = j ∧ ok = true := by simpa using hij
      rw [if_pos ⟨rfl, hlt⟩, recordAck, if_neg (by omega)]
      dsimp only
      rw [if_pos ⟨hset.2.1, rfl, hset.2.2⟩]
      have hnext := tracks_sendNextChunk hset.2.1 hset.2.2 hset.1
      rwa [chunkCount_of_core hcore, hn, chunks_of_core hcore, hch, (same_setAck q i true).sendOk,
        hs] at hnext
    · rw [if_neg hmove, recordAck]
      dsimp only
      split
      · exact h
      · rename_i hi
        rw [if_neg]
        · exact hset
        · rintro ⟨-, rfl, hcur⟩
          obtain rfl : j = i := Option.some.inj (hset.2.2.symm.trans hcur)
          exact hmove ⟨rfl, by omega⟩

/-- What handling the slot of `q` leaves alone: the list of chunks, and what is known about the other
QTRMs. -/
structure Elsewhere (q : Qtrm) (d e : Controller) : Prop where
  count : e.chunkCount = d.chunkCount
  chunks : e.chunks = d.chunks
  matrix : ∀ q' ≠ q, e.ackMatrix q' = d.ackMatrix q'
  replied : ∀ q' ≠ q, q' ∈ e.iapReplied ↔ q' ∈ d.iapReplied

theorem Elsewhere.refl (q : Qtrm) (d : Controller) : Elsewhere q d d :=
  ⟨rfl, rfl, fun _ _ => rfl, fun _ _ => Iff.rfl⟩

theorem Elsewhere.trans (h : Elsewhere q c d) (h' : Elsewhere q d e) : Elsewhere q c e :=
  ⟨h'.count.trans h.count, h'.chunks.trans h.chunks,
    fun q' hq => (h'.matrix q' hq).trans (h.matrix q' hq),
    fun q' hq => (h'.replied q' hq).trans (h.replied q' hq)⟩

theorem elsewhere_emit (s : Signal) : Elsewhere q d (d.emit s) :=
  ⟨rfl, rfl, fun _ _ => rfl, fun _ _ => Iff.rfl⟩

theorem elsewhere_setAck (i : Nat) (ok : Bool) : Elsewhere q d (d.setAck q i ok) := by
  unfold setAck
  split
  · exact ⟨rfl, rfl, fun q' hq => Function.update_of_ne hq .., fun _ _ => Iff.rfl⟩
  · exact Elsewhere.refl q d

theorem elsewhere_sendNextChunk (first : Bool) : Elsewhere q d (d.sendNextChunk first) := by
  have hcore : (d.sendNextChunk first).chunkCount = d.chunkCount ∧
      (d.sendNextChunk first).chunks = d.chunks := by
    rcases Nat.lt_or_ge (d.nextIndex first) d.chunkCount with hi | hi
    · rw [sendNextChunk_of_lt hi]
      have hc := core_sendCurrentChunk (c := { d with currentChunk := some (d.nextIndex first) })
        (d.nextIndex first)
      exact ⟨congrArg Core.chunkCount hc, congrArg Core.chunks hc⟩
    · rw [sendNextChunk_grace hi]
      exact ⟨rfl, rfl⟩
  refine ⟨hcore.1, hcore.2, fun q' _ => ?_, fun q' _ => ?_⟩
  · rw [ackMatrix_sendNextChunk]
  · rw [iapReplied_sendNextChunk]

theorem elsewhere_recordAck (i : Nat) (ok : Bool) : Elsewhere q d (d.recordAck q i ok) := by
  rw [recordAck]
  dsimp only
  split
  · exact Elsewhere.refl q d
  · split
    · exact (elsewhere_setAck i ok).trans (elsewhere_sendNextChunk false)
    · exact elsewhere_setAck i ok

theorem elsewhere_dispatchSlot (parsed : Slot) : Elsewhere q d (d.dispatchSlot q parsed) := by
  rcases hop : d.op with _ | op
  · simp only [dispatchSlot, hop]
    exact Elsewhere.refl q d
  by_cases hp : Polls op
  · rw [dispatchSlot_poll hop hp]
    refine ⟨rfl, rfl, fun _ _ => rfl, fun q' hq => ?_⟩
    show q' ∈ insert q d.iapReplied ↔ q' ∈ d.iapReplied
    simp [hq]
  · unfold dispatchSlot
    simp only [hop]
    cases op with
    | authenticate => exact absurd (.inl rfl) hp
    | verify => exact absurd (.inr (.inl rfl)) hp
    | program => exact absurd (.inr (.inr rfl)) hp
    | modeStep1 => exact elsewhere_emit _
    | linkCheck => exact elsewhere_emit _
    | lruInfo => cases parsed <;> exact elsewhere_emit _
    | upload =>
      cases parsed with
      | bitstreamAck base i pf => exact elsewhere_recordAck i _
      | _ => exact elsewhere_emit _
    | _ => exact Elsewhere.refl q d

/-- Outside an upload no slot is an exception. -/
theorem raised_dispatchSlot (hop : d.op ≠ some .upload) (parsed : Slot) :
    (d.dispatchSlot q parsed).raised = d.raised := by
  unfold dispatchSlot
  split
  · rfl
  · split <;> rfl
  · rfl
  · rfl
  · rfl
  · rfl
  · exact absurd ‹_› hop
  · rfl

/-- What the slot loop has in hand when it has handled the slots before number `k`. -/
structure Reached (c : Controller) (k : Nat) (f : Flight) (d : Controller) : Prop where
  same : Same c d
  count : d.chunkCount = c.chunkCount
  chunks : d.chunks = c.chunks
  matrix : ∀ q : Qtrm, k ≤ q.val → d.ackMatrix q = c.ackMatrix q
  replied : ∀ q : Qtrm, k ≤ q.val → (q ∈ d.iapReplied ↔ q ∈ c.iapReplied)
  flight : c.op = some .upload → Tracks d f
  raised : c.op ≠ some .upload → d.raised = false

/-- One turn of the slot loop. -/
theorem Reached.turn {slots : Qtrm → Bytes} {f : Flight} {acc : Controller × Bool}
    (h : Reached c q.val f acc.1) : Reached c (q.val + 1) (c.afterAck f (slots q))
      (onSlot c.context slots acc q).1 := by
  have hstay : ackOf c.context (slots q) = none → c.afterAck f (slots q) = f := by
    intro hn
    cases f <;> simp [afterAck, hn]
  have hskip : (c.op = some .upload → c.afterAck f (slots q) = f) →
      Reached c (q.val + 1) (c.afterAck f (slots q)) acc.1 := by
    intro hf
    refine ⟨h.same, h.count, h.chunks, fun q' hq => h.matrix q' (by omega),
      fun q' hq => h.replied q' (by omega), fun hop => ?_, h.raised⟩
    rw [hf hop]
    exact h.flight hop
  unfold onSlot
  by_cases hr : acc.1.raised = true
  · rw [if_pos hr]
    refine hskip fun hop => ?_
    have ht := h.flight hop
    cases f with
    | cut => rfl
    | chunk i => exact absurd (hr.symm.trans ht.1) (by simp)
    | idle => rfl
  · rw [if_neg hr]
    split
    · rename_i parsed hparse
      have helse := elsewhere_dispatchSlot (q := q) (d := acc.1) parsed
      have hne : ∀ q' : Qtrm, q.val + 1 ≤ q'.val → q' ≠ q := by
        rintro q' hq rfl
        omega
      refine ⟨h.same.trans (same_dispatchSlot q parsed), helse.count.trans h.count,
        helse.chunks.trans h.chunks,
        fun q' hq => (helse.matrix q' (hne q' hq)).trans (h.matrix q' (by omega)),
        fun q' hq => (helse.replied q' (hne q' hq)).trans (h.replied q' (by omega)),
        fun hop => ?_, fun hop => ?_⟩
      · have hop' : acc.1.op = some .upload := h.same.op.trans hop
        have hrow : (∀ base i pf, parsed ≠ .bitstreamAck base i pf) →
            Tracks (acc.1.dispatchSlot q parsed) (c.afterAck f (slots q)) := by
          intro hn
          have hack : ackOf c.context (slots q) = none := by
            rw [ackOf, hparse]
            cases parsed <;> first | rfl | exact absurd rfl (hn _ _ _)
          have he : acc.1.dispatchSlot q parsed = acc.1.emit (.opRowUpdated .upload q parsed) := by
            simp only [dispatchSlot, hop']
          rw [hstay hack, he]
          exact (h.flight hop).congr rfl rfl
        cases parsed with
        | bitstreamAck base i pf =>
          have he : acc.1.dispatchSlot q (.bitstreamAck base i pf) =
              acc.1.recordAck q i (!transferFailed pf) := by
            simp only [dispatchSlot, hop']
          rw [he]
          exact tracks_recordAck (h.flight hop) h.count h.chunks h.same.sendOk (by simpa using hr)
            (by rw [ackOf, hparse])
        | _ => exact hrow nofun
      · rw [raised_dispatchSlot (by rwa [h.same.op])]
        exact h.raised hop
    · rename_i hparse
      refine hskip fun _ => hstay ?_
      unfold ackOf
      split
      · exact absurd ‹_› (hparse _)
      · rfl

/-- The slot loop after the first `k` slots. -/
theorem reached_take (hr : c.raised = false) (raw : Bytes) {k : Nat} (hk : k ≤ 96) : Reached c k
    (((List.finRange 96).take k).foldl (fun f q' => c.afterAck f (rpSlot raw q')) c.flight)
    (((List.finRange 96).take k).foldl (onSlot c.context (rpSlot raw))
      ({ c with gotAnyFrame := true }, false)).1 := by
  induction k with
  | zero =>
    have ht := tracks_flight hr
    exact ⟨⟨rfl, rfl, rfl, rfl, rfl, rfl⟩, rfl, rfl, fun _ _ => rfl, fun _ _ => Iff.rfl,
      fun _ => ht.congr rfl rfl, fun _ => hr⟩
  | succ k ih =>
    have hprev := ih (by omega)
    rw [take_succ_finRange (by omega), List.foldl_append, List.foldl_append]
    exact Reached.turn (q := ⟨k, by omega⟩) hprev

/-- The state in which the loop takes up a slot. -/
theorem reached_atSlot (hr : c.raised = false) (raw : Bytes) (q : Qtrm) :
    Reached c q.val (c.flightAt raw q) (c.atSlot raw q) := reached_take hr raw q.isLt.le

/-- The state after the whole loop. -/
theorem reached_slots (hr : c.raised = false) (raw : Bytes) : Reached c 96
    ((List.finRange 96).foldl (fun f q => c.afterAck f (rpSlot raw q)) c.flight)
    ((List.finRange 96).foldl (onSlot c.context (rpSlot raw))
      ({ c with gotAnyFrame := true }, false)).1 := by
  have h := reached_take hr raw (Nat.le_refl 96)
  rwa [List.take_of_length_le (by rw [List.length_finRange])] at h

theorem Tracks.raised {f : Flight} (h : Tracks d f) : d.raised = false ↔ f ≠ .cut := by
  cases f with
  | chunk i => simp [h.1]
  | idle => simp [h.1]
  | cut => simp [show d.raised = true from h]

theorem Tracks.chunk {f : Flight} {i : Nat} (h : Tracks d f) (hf : f ≠ .cut) :
    (d.uploadPhase = some .stream ∧ d.currentChunk = some i) ↔ f = .chunk i := by
  cases f with
  | chunk j => simp [h.2.1, h.2.2]
  | idle => exact ⟨fun hi => absurd hi (h.2 i), nofun⟩
  | cut => exact absurd rfl hf

/-- Whether a slot counts when the loop takes it up can be read off the frame and the state in which
the frame arrives. -/
theorem turnCounts_iff (hr : c.raised = false) : c.TurnCounts raw q ↔ c.Counts raw q := by
  have h := reached_atSlot hr raw q
  have hop := h.same.op
  unfold TurnCounts Counts CountsSlot
  generalize c.atSlot raw q = d at h hop
  rw [hop]
  by_cases hup : c.op = some .upload
  · have ht := h.flight hup
    simp only [hup]
    rw [h.matrix q (Nat.le_refl _), h.count, ht.raised]
    constructor
    · rintro ⟨hf, parsed, hp, base, i, pf, rfl, hi, hc⟩
      refine ⟨_, hp, base, i, pf, rfl, hi, hf, hc.imp id ?_⟩
      exact fun hc => ⟨hc.2.1, (ht.chunk hf).1 ⟨hc.1, hc.2.2⟩⟩
    · rintro ⟨parsed, hp, base, i, pf, rfl, hi, hf, hc⟩
      refine ⟨hf, _, hp, base, i, pf, rfl, hi, hc.imp id ?_⟩
      exact fun hc => ⟨((ht.chunk hf).2 hc.2).1, hc.1, ((ht.chunk hf).2 hc.2).2⟩
  · have hd := h.raised hup
    rcases hc : c.op with _ | op
    · simp
    cases op with
    | upload => exact absurd hc hup
    | lruInfo => simp [hd]
    | authenticate => simp [hd, h.replied q (Nat.le_refl _)]
    | verify => simp [hd, h.replied q (Nat.le_refl _)]
    | _ => simp

/-- Invalid slots never count in a frame exactly if none of them is one that counts. -/
theorem invalid_slots (c : Controller) (raw : Bytes) :
    InvalidNeverCount c raw ↔ ∀ q, Invalid raw q → ¬ c.Counts raw q := by
  have hcount : ∀ q, c.cleared.TurnCounts raw q ↔ c.Counts raw q :=
    fun q => turnCounts_iff (c := c.cleared) rfl
  constructor
  · exact fun h q hq hc => ignored_turn.1 (h.turns q hq) ((hcount q).2 hc)
  · intro h
    have hturns : ∀ q, Invalid raw q → ¬ c.cleared.TurnCounts raw q :=
      fun q hq hc => h q hq ((hcount q).1 hc)
    exact ⟨fun q hq => ignored_turn.2 (hturns q hq), fun hp => alike_onFrame hp hturns⟩

/-- A pass of chunk 0 with a wrong check byte. -/
def badAck : Bytes := [0xAA, 0x00, 0x35, 0, 0, 0, 0, 1, 0, 0]

/-- A wrong check byte does not keep an acknowledgement out of the matrix. -/
theorem invalid_slot_counts : ∃ tr c, machine.Run (init sampleSettings) tr c ∧
    Machine.events tr = openGate ++ [.start (.upload [0] false)] ∧
    ¬ InvalidNeverCount c (oneSlot 0 badAck) := by
  have hen : machine.Allows (init sampleSettings) (openGate ++ [.start (.upload [0] false)]) :=
    ⟨trivial, trivial, trivial, trivial, trivial, trivial⟩
  obtain ⟨tr, c, hr, hev, hop, hph, hn, hm⟩ : ∃ tr c, machine.Run (init sampleSettings) tr c ∧
      Machine.events tr = openGate ++ [.start (.upload [0] false)] ∧
      c.op = some .upload ∧ c.uploadPhase = some .stream ∧ c.chunkCount = 1 ∧
      c.ackMatrix = fun _ => [] := ⟨_, _, hen.run, Machine.events_trace, rfl, rfl, rfl, rfl⟩
  have hslot : rpSlot (oneSlot 0 badAck) 0 = badAck := rpSlot_oneSlot rfl 0 0
  have hctx : c.cleared.context = .bitstream := if_pos ⟨hop, by simp [cleared, hph]⟩
  refine ⟨tr, c, hr, hev, fun h => ?_⟩
  refine ignored_turn.1 (h.turns 0 ⟨oneSlot_length rfl 0, by rw [hslot]; decide⟩) ⟨rfl, ?_⟩
  rw [hslot, hctx]
  refine ⟨_, rfl, ?_⟩
  have hop' : (c.cleared.atSlot (oneSlot 0 badAck) 0).op = some .upload := hop
  rw [CountsSlot, hop']
  refine ⟨_, _, _, rfl, ?_, .inl ?_⟩
  · show _ < c.chunkCount
    rw [hn]
    decide
  · show (c.ackMatrix 0).get? _ ≠ _ ∧ (c.ackMatrix 0).get? _ ≠ _
    simp [hm]

end Controller

end QccGui
