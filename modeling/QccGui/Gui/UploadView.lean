import QccGui.Gui.News
import QccGui.Gui.GapSummary

/-!
# The live view of an upload

The counts, the colours and the table that the Remote Programming tab shows of an upload, and what
they say about the ack matrix in every run of the controller.

* `UploadView`: what the tab keeps and shows of an upload, and the slots that the controller's
  signals are connected to.
* `Replays`: the signals of an event tell every entry that it sets in the matrix.
* `Live`, `Final`: how the view of a QTRM stands to the matrix while the upload runs, and once its
  pass is closed.
* `upload_view`: it does, from the start of an upload to the next one.
-/

namespace QccGui

open Lib

/-- The colour of a QTRM. -/
inductive Led
  | pending
  | ok
  | fail
  deriving DecidableEq, Repr

/-- The attributes, the progress bar and the row of each QTRM. -/
structure UploadView where
  qtrmAcked : Qtrm → Nat := fun _ => 0
  qtrmFailed : Qtrm → Bool := fun _ => false
  progMatrix : Qtrm → Led := fun _ => .pending
  gapsTable : Qtrm → String × String × String := fun _ => ("—", "—", "—")
  progressMax : Nat := 1
  progressValue : Nat := 0
  progressFormat : String := "idle"
  chunkLabel : String := ""

namespace UploadView

open Controller

def resetProgramView (v : UploadView) : UploadView :=
  { v with
    progMatrix := fun _ => .pending
    qtrmAcked := fun _ => 0
    qtrmFailed := fun _ => false
    gapsTable := fun _ => ("0", "—", "—")
    progressValue := 0
    progressFormat := "uploading… %v / %m"
    chunkLabel := "" }

def onChunkProgress (v : UploadView) (index count : Nat) : UploadView :=
  { v with
    progressMax := count
    progressValue := index + 1
    chunkLabel := s!"chunk {index + 1} / {count}" }

/-- A failure colours the QTRM for the rest of the pass. -/
def onAckRecorded (v : UploadView) (q : Qtrm) (ok : Bool) : UploadView :=
  let v := if ok then { v with qtrmAcked := Function.update v.qtrmAcked q (v.qtrmAcked q + 1) }
    else { v with qtrmFailed := Function.update v.qtrmFailed q true }
  let v := if v.qtrmFailed q then { v with progMatrix := Function.update v.progMatrix q .fail }
    else if ok then { v with progMatrix := Function.update v.progMatrix q .ok }
    else v
  let row := ((v.qtrmAcked q).repr, (v.gapsTable q).2.1, (v.gapsTable q).2.2)
  { v with gapsTable := Function.update v.gapsTable q row }

/-- The colour of a QTRM when the pass is closed. -/
def finalLed (c : Controller) (q : Qtrm) : Led :=
  let (_, missing, failed) := c.qtrmGaps q
  if failed ≠ [] then .fail else if missing ≠ [] then .pending else .ok

def setRow (v : UploadView) (q : Qtrm) (row : String × String × String) : UploadView :=
  { v with gapsTable := Function.update v.gapsTable q row }

/-- A row of the final table. A summary that raises an error ends the slot, with the view as it is then
(`error`). -/
def finishRow (c : Controller) (v : UploadView) (q : Qtrm) : Except UploadView UploadView :=
  let (acked, missing, failed) := c.qtrmGaps q
  let count := acked.repr ++ " / " ++ c.chunkCount.repr
  let v := v.setRow q (count, (v.gapsTable q).2)
  match summarizeIndices failed with
  | none => .error v
  | some failed =>
    let v := v.setRow q (count, failed, (v.gapsTable q).2.2)
    match summarizeIndices missing with
    | none => .error v
    | some missing => .ok { v.setRow q (count, failed, missing) with
        progMatrix := Function.update v.progMatrix q (finalLed c q) }

def onUploadFinished (v : UploadView) (c : Controller) : UploadView :=
  match (List.finRange 96).foldlM (finishRow c) { v with progressFormat := "done — %v / %m" } with
  | .ok v | .error v => v

/-- What a signal of the controller `c` does to the view. -/
def receive (c : Controller) (v : UploadView) : Signal → UploadView
  | .chunkProgress index count => v.onChunkProgress index count
  | .ackRecorded q _ ok => v.onAckRecorded q ok
  | .uploadFinished _ _ => v.onUploadFinished c
  | _ => v

/-- The view after a step of the controller. The tab resets it before an upload is started. -/
def step (v : UploadView) (x : Controller.Step) : UploadView :=
  let v := if x.2 matches .start (.upload ..) then v.resetProgramView else v
  (Controller.machine.post x).out.foldl (receive (Controller.machine.post x)) v

/-- The view after the steps `tr`. -/
def after (tr : List Controller.Step) : UploadView := tr.foldl step {}

end UploadView

/-! ## What the signals tell of the matrix -/

def Signal.ack? : Signal → Option (Qtrm × Nat × Bool)
  | .ackRecorded q i ok => some (q, i, ok)
  | _ => none

/-- The end of a pass. -/
def Signal.closing? : Signal → Option (Nat × Nat)
  | .uploadFinished missing failed => some (missing, failed)
  | _ => none

abbrev AckMatrix := Qtrm → Dict Nat Bool

/-- The entries of a log are set one after the other, and none of them over a pass. -/
def Replays : AckMatrix → List (Qtrm × Nat × Bool) → AckMatrix → Prop
  | m, [], m' => m' = m
  | m, (q, i, ok) :: log, m' => (m q).get? i ≠ some true ∧
      Replays (Function.update m q ((m q).set i ok)) log m'

theorem Replays.append {m m' m'' : AckMatrix} {log log' : List (Qtrm × Nat × Bool)}
    (h : Replays m log m') (h' : Replays m' log' m'') : Replays m (log ++ log') m'' := by
  induction log generalizing m with
  | nil =>
    obtain rfl : m' = m := h
    exact h'
  | cons x log ih => exact ⟨h.1, ih h.2⟩

namespace Controller

variable {c c' d : Controller} {e : Event} {q : Qtrm}

/-- From `c` to `c'` the signals tell what is set in the matrix, and no pass is closed. -/
structure Logs (c c' : Controller) : Prop where
  acks : ∃ log, c'.out.filterMap Signal.ack? = c.out.filterMap Signal.ack? ++ log ∧
    Replays c.ackMatrix log c'.ackMatrix
  closing : c'.out.filterMap Signal.closing? = c.out.filterMap Signal.closing?

/-- Nothing is set, and nothing is told. -/
structure Unlogged (c c' : Controller) : Prop where
  acks : c'.out.filterMap Signal.ack? = c.out.filterMap Signal.ack?
  closing : c'.out.filterMap Signal.closing? = c.out.filterMap Signal.closing?
  matrix : c'.ackMatrix = c.ackMatrix

theorem Unlogged.refl (c : Controller) : Unlogged c c := ⟨rfl, rfl, rfl⟩

theorem Unlogged.trans (h : Unlogged c c') (h' : Unlogged c' d) : Unlogged c d :=
  ⟨h'.acks.trans h.acks, h'.closing.trans h.closing, h'.matrix.trans h.matrix⟩

theorem Unlogged.logs (h : Unlogged c c') : Logs c c' :=
  ⟨⟨[], by rw [h.acks, List.append_nil], h.matrix⟩, h.closing⟩

theorem Logs.trans (h : Logs c c') (h' : Logs c' d) : Logs c d := by
  obtain ⟨⟨log, hlog, hr⟩, hc⟩ := h
  obtain ⟨⟨log', hlog', hr'⟩, hc'⟩ := h'
  exact ⟨⟨log ++ log', by rw [hlog', hlog, List.append_assoc], hr.append hr'⟩, hc'.trans hc⟩

theorem Unlogged.emit (h : Unlogged c d) {s : Signal} (hs : s.ack? = none)
    (hs' : s.closing? = none) : Unlogged c (d.emit s) :=
  ⟨(seen_emit hs).trans h.acks, (seen_emit hs').trans h.closing, h.matrix⟩

theorem unlogged_emit {s : Signal} (hs : s.ack? = none) (hs' : s.closing? = none) :
    Unlogged c (c.emit s) := (Unlogged.refl c).emit hs hs'

theorem unsent_ack : Unsent Signal.ack? := ⟨fun _ => rfl, fun _ _ _ => rfl, fun _ _ => rfl⟩

theorem unsent_closing : Unsent Signal.closing? := ⟨fun _ => rfl, fun _ _ _ => rfl, fun _ _ => rfl⟩

theorem unlogged_sendNextChunk (first : Bool) : Unlogged c (c.sendNextChunk first) :=
  ⟨seen_sendNextChunk unsent_ack first, seen_sendNextChunk unsent_closing first,
    ackMatrix_sendNextChunk first⟩

theorem logs_setAck (i : Nat) (ok : Bool) : Logs c (c.setAck q i ok) := by
  unfold setAck
  split
  · rename_i hne
    exact ⟨⟨[(q, i, ok)], filterMap_snoc .., hne, rfl⟩, seen_emit rfl⟩
  · exact (Unlogged.refl c).logs

theorem logs_recordAck (i : Nat) (ok : Bool) : Logs c (c.recordAck q i ok) := by
  unfold recordAck
  split
  · exact (Unlogged.refl c).logs
  · dsimp only
    split
    · exact (logs_setAck i ok).trans (unlogged_sendNextChunk false).logs
    · exact logs_setAck i ok

/-- Only an upload sets anything. -/
theorem unlogged_dispatchSlot (h : c.op ≠ some .upload) (parsed : Slot) :
    Unlogged c (c.dispatchSlot q parsed) := by
  have hreplied : Unlogged c { c with iapReplied := insert q c.iapReplied } := ⟨rfl, rfl, rfl⟩
  unfold dispatchSlot
  split
  · exact unlogged_emit rfl rfl
  · split <;> exact unlogged_emit rfl rfl
  · exact unlogged_emit rfl rfl
  · exact hreplied.emit rfl rfl
  · exact hreplied.emit rfl rfl
  · exact hreplied.emit rfl rfl
  · exact absurd ‹_› h
  · exact .refl c

theorem logs_dispatchSlot (parsed : Slot) : Logs c (c.dispatchSlot q parsed) := by
  by_cases hop : c.op = some .upload
  · have hrow : Unlogged c (c.emit (.opRowUpdated .upload q parsed)) := unlogged_emit rfl rfl
    unfold dispatchSlot
    rw [hop]
    dsimp only
    split
    · exact logs_recordAck ..
    · exact hrow.logs
  · exact (unlogged_dispatchSlot hop parsed).logs

theorem unlogged_finish (ok : Bool) (text : String) : Unlogged c (c.finish ok text) := by
  have hended : Unlogged c
      { c with op := none, timer := none, uploadPhase := none, currentChunk := none } := ⟨rfl, rfl, rfl⟩
  exact hended.emit rfl rfl

theorem unlogged_noResponse (op : Op) (text : String) : Unlogged c (c.noResponse op text) :=
  (unlogged_emit (s := .stepResult op false text) rfl rfl).trans (unlogged_finish ..)

theorem unlogged_stepComplete (op : Op) : Unlogged c (c.stepComplete op) := by
  have hdone : ∀ d : Controller, Unlogged c d →
      Unlogged c (((d.emit (.stepResult op true "Response received")).emit
        (.gateChanged (d.emit (.stepResult op true "Response received")).gateOpen)).finish true
          "Step complete") :=
    fun d hd => ((hd.emit rfl rfl).emit rfl rfl).trans (unlogged_finish ..)
  unfold stepComplete
  split
  · exact hdone { c with modeStep1Done := true } ⟨rfl, rfl, rfl⟩
  · exact hdone { c with modeStep2Done := true } ⟨rfl, rfl, rfl⟩

theorem unlogged_closeGate : Unlogged c c.closeGate := by
  have hshut : Unlogged c { c with modeStep1Done := false, modeStep2Done := false } := ⟨rfl, rfl, rfl⟩
  exact hshut.emit rfl rfl

theorem unlogged_windowClosed (op : Op) : Unlogged c (c.emit (.opWindowClosed op)) :=
  unlogged_emit rfl rfl

theorem unlogged_afterSlots : Unlogged c c.afterSlots := by
  unfold afterSlots
  split
  · exact (unlogged_windowClosed _).trans (unlogged_finish ..)
  · exact (unlogged_windowClosed _).trans (unlogged_finish ..)
  · split
    · exact (unlogged_windowClosed _).trans (unlogged_finish ..)
    · exact .refl c
  · exact .refl c

theorem logs_onSlots (raw : Bytes) : Logs c (c.onSlots raw) := by
  have hraised : Unlogged c { c with raised := true } := ⟨rfl, rfl, rfl⟩
  unfold onSlots
  split
  · exact hraised.logs
  · rename_i slots _
    have hfold : Logs c ((List.finRange 96).foldl (onSlot c.context slots) (c, false)).1 :=
      foldl_onSlot _ (Unlogged.refl c).logs fun d q parsed _ h => h.trans (logs_dispatchSlot parsed)
    generalize (List.finRange 96).foldl (onSlot c.context slots) (c, false) = acc at hfold
    exact next_of (P := Logs c) hfold fun d hd =>
      hd.trans (Unlogged.trans (unlogged_emit rfl rfl) unlogged_afterSlots).logs

theorem unlogged_onSlots (hop : c.op ≠ some .upload) (raw : Bytes) : Unlogged c (c.onSlots raw) := by
  unfold onSlots
  split
  · exact ⟨rfl, rfl, rfl⟩
  · rename_i slots _
    have hfold : Unlogged c ((List.finRange 96).foldl (onSlot c.context slots) (c, false)).1 :=
      (foldl_onSlot (P := fun d => Unlogged c d ∧ d.op = c.op) _ ⟨Unlogged.refl c, rfl⟩
        fun d q parsed _ h => ⟨h.1.trans (unlogged_dispatchSlot (by rwa [h.2]) parsed),
          (same_dispatchSlot q parsed).op.trans h.2⟩).1
    generalize (List.finRange 96).foldl (onSlot c.context slots) (c, false) = acc at hfold
    exact next_of (P := Unlogged c) hfold fun d hd =>
      (hd.emit rfl rfl).trans unlogged_afterSlots

/-- A frame that comes during no upload. -/
theorem unlogged_onFrame (hop : c.op ≠ some .upload) (raw : Bytes) : Unlogged c (c.onFrame raw) := by
  have hg : Unlogged c { c with gotAnyFrame := true } := ⟨rfl, rfl, rfl⟩
  have hlog : ∀ text, Unlogged c ({ c with gotAnyFrame := true }.emit (.logFrame raw false text)) :=
    fun text => hg.emit rfl rfl
  unfold onFrame
  split
  · exact .refl c
  · dsimp only
    split
    · exact (hlog _).trans (unlogged_stepComplete _)
    · exact (hlog _).trans (unlogged_stepComplete _)
    · exact (hlog _).trans (unlogged_finish ..)
    · exact ((hlog _).trans unlogged_closeGate).trans (unlogged_finish ..)
    · exact hg.trans (unlogged_onSlots (c := { c with gotAnyFrame := true }) hop raw)

/-- A timer other than the one of the grace window. -/
theorem unlogged_onTimer (h : ∀ ms, c.timer ≠ some (.graceTimeout, ms)) : Unlogged c c.onTimer := by
  have ht : Unlogged c { c with timer := none } := ⟨rfl, rfl, rfl⟩
  unfold onTimer
  split
  · exact .refl c
  · rename_i hd ms htimer
    refine ht.trans ?_
    generalize ({ c with timer := none } : Controller) = d
    cases hd with
    | simpleTimeout =>
      dsimp only [onSimpleTimeout]
      split
      · split
        · exact unlogged_stepComplete _
        · exact unlogged_noResponse ..
      · split
        · exact unlogged_stepComplete _
        · exact unlogged_noResponse ..
      · split
        · exact (unlogged_windowClosed _).trans (unlogged_finish ..)
        · exact (unlogged_windowClosed _).trans (unlogged_noResponse ..)
      · split
        · exact (unlogged_windowClosed _).trans (unlogged_finish ..)
        · exact (unlogged_windowClosed _).trans (unlogged_noResponse ..)
      · exact unlogged_noResponse ..
      · exact unlogged_closeGate.trans (unlogged_noResponse ..)
      · exact .refl d
    | iapWindowClosed =>
      dsimp only [onIapWindowClosed]
      split
      · exact .refl d
      · rename_i op _
        have hw : Unlogged d (d.emit (.opWindowClosed op)) := unlogged_windowClosed op
        split
        · exact hw.trans (unlogged_finish ..)
        · split
          · exact hw.trans (unlogged_finish ..)
          · exact hw.trans (unlogged_noResponse ..)
    | graceTimeout => exact absurd htimer (h ms)

/-- What an event other than the start of an upload tells of the matrix. -/
inductive Heard (c : Controller) (e : Event) (c' : Controller) : Prop
  /-- A frame of an upload. -/
  | recorded : c.op = some .upload → Logs c c' → Heard c e c'
  /-- The grace window is over. -/
  | closed : e = .timer → c.op = some .upload → c' = { c with timer := none }.closeUploadPass →
    Heard c e c'
  | quiet : Unlogged c c' → Heard c e c'

theorem heard_react (hok : c.Ok) (hne : ∀ image golden, e ≠ .start (.upload image golden)) :
    Heard c e (c.react e) := by
  cases e with
  | start what =>
    have hrows : (c.startOp what).rows = c.rows :=
      rows_startOp fun image golden h => hne image golden (h ▸ rfl)
    exact .quiet ⟨seen_startOp unsent_ack what, seen_startOp unsent_closing what,
      congrArg Prod.fst hrows⟩
  | frame raw =>
    by_cases hop : c.op = some .upload
    · have hg : Unlogged c { c with gotAnyFrame := true } := ⟨rfl, rfl, rfl⟩
      refine .recorded hop ?_
      rw [react, onFrame_upload hop]
      exact hg.logs.trans (logs_onSlots raw)
    · exact .quiet (unlogged_onFrame hop raw)
  | timer =>
    by_cases ht : ∃ ms, c.timer = some (.graceTimeout, ms)
    · obtain ⟨ms, ht⟩ := ht
      have hop : c.op = some .upload := (hok.timer _ _ ht).1
      refine .closed rfl hop ?_
      rw [react, onTimer, ht]
    · exact .quiet (unlogged_onTimer fun ms h => ht ⟨ms, h⟩)
  | shot =>
    have hshot : Unlogged c { c with pendingShots := c.pendingShots - 1 } := ⟨rfl, rfl, rfl⟩
    exact .quiet (hshot.trans (unlogged_sendNextChunk true))
  | cancel =>
    rw [react, cancel]
    split
    · exact .quiet (.refl c)
    · exact .quiet (unlogged_finish ..)
  | setTarget | setIapWindow | link => exact .quiet ⟨rfl, rfl, rfl⟩

/-- No upload begins but by a start of one. -/
theorem op_ne_upload (hok : c.Ok) (hop : c.op ≠ some .upload)
    (hne : ∀ image golden, e ≠ .start (.upload image golden)) :
    (c.handle e).op ≠ some .upload := by
  cases handle_told hok e with
  | still hs _ =>
    rw [hs.same.op]
    exact hop
  | set hs =>
    rcases hs with ⟨target, -, hs⟩ | ⟨up, -, hs⟩ <;> rw [hs] <;> exact hop
  | @started what he _ hs _ =>
    rw [hs.op]
    cases what with
    | upload image golden => exact absurd he (hne image golden)
    | _ => exact nofun
  | ended he _ =>
    have hnone : (c.handle e).op = none := by
      cases he with
      | plain _ _ hn _ _ => exact hn
      | step1 _ _ hn _ _ _ => exact hn
      | step2 _ _ hn _ _ _ => exact hn
      | closed _ _ hn _ _ _ => exact hn
    rw [hnone]
    exact nofun

end Controller

/-! ## The view while the upload runs -/

namespace UploadView

open Controller

variable {v : UploadView} {c c' : Controller} {m m' : AckMatrix} {q : Qtrm}
  {log : List (Qtrm × Nat × Bool)}

/-- How many chunks a row has passed. -/
def passes (row : Dict Nat Bool) : Nat := (row.filter (·.2 = true)).length

/-- What the controller has recorded in the steps `tr`. -/
def recorded (tr : List Controller.Step) : List (Qtrm × Nat × Bool) :=
  tr.flatMap fun x => (Controller.machine.post x).out.filterMap Signal.ack?

/-- The view of a QTRM while the upload runs: the records so far are `log`, and they have made the
matrix `m`. -/
structure Live (v : UploadView) (log : List (Qtrm × Nat × Bool)) (m : AckMatrix) (q : Qtrm) : Prop where
  acked : v.qtrmAcked q = passes (m q)
  text : (v.gapsTable q).1 = (passes (m q)).repr
  pending : v.progMatrix q = .pending ↔ m q = []
  red : v.progMatrix q = .fail ↔ ∃ i, (q, i, false) ∈ log
  failed : v.qtrmFailed q = true ↔ ∃ i, (q, i, false) ∈ log
  entries : ∀ i, (m q).get? i = some false → (q, i, false) ∈ log

theorem passes_cons (x : Nat × Bool) (d : Dict Nat Bool) :
    passes (x :: d) = passes d + if x.2 then 1 else 0 := by
  cases h : x.2 <;> simp [passes, h]

theorem passes_set {d : Dict Nat Bool} {i : Nat} {ok : Bool} (h : d.get? i ≠ some true) :
    passes (d.set i ok) = passes d + if ok then 1 else 0 := by
  induction d with
  | nil => exact passes_cons ..
  | cons x d ih =>
    obtain ⟨k, v⟩ := x
    rw [Dict.set]
    split
    · rename_i hk
      rw [Dict.get?, if_pos hk] at h
      have hv : v = false := by simpa using h
      simp [passes_cons, hv]
    · rename_i hk
      rw [Dict.get?, if_neg hk] at h
      rw [passes_cons, passes_cons, ih h]
      omega

theorem set_ne_nil (d : Dict Nat Bool) (i : Nat) (ok : Bool) : d.set i ok ≠ [] := by
  cases d with
  | nil => simp [Dict.set]
  | cons x d =>
    rw [Dict.set]
    split <;> simp

/-- What an acknowledgement does to the view of its own QTRM. -/
theorem onAckRecorded_self (v : UploadView) (q : Qtrm) (ok : Bool) :
    (v.onAckRecorded q ok).qtrmAcked q = v.qtrmAcked q + (if ok then 1 else 0) ∧
    (v.onAckRecorded q ok).qtrmFailed q = (v.qtrmFailed q || !ok) ∧
    (v.onAckRecorded q ok).progMatrix q = (if v.qtrmFailed q || !ok then .fail else .ok) ∧
    ((v.onAckRecorded q ok).gapsTable q).1 = (v.qtrmAcked q + (if ok then 1 else 0)).repr := by
  cases ok <;> cases hf : v.qtrmFailed q <;> simp [onAckRecorded, hf]

/-- The view of the others stays. -/
theorem onAckRecorded_of_ne (v : UploadView) {q q' : Qtrm} (ok : Bool) (h : q' ≠ q) :
    (v.onAckRecorded q ok).qtrmAcked q' = v.qtrmAcked q' ∧
    (v.onAckRecorded q ok).qtrmFailed q' = v.qtrmFailed q' ∧
    (v.onAckRecorded q ok).progMatrix q' = v.progMatrix q' ∧
    (v.onAckRecorded q ok).gapsTable q' = v.gapsTable q' := by
  cases ok <;> cases hf : v.qtrmFailed q <;> simp [onAckRecorded, hf, h]

/-- An entry that is set and told. -/
theorem live_onAckRecorded {i : Nat} {ok : Bool} (h : ∀ q, Live v log m q)
    (hne : (m q).get? i ≠ some true) (q' : Qtrm) :
    Live (v.onAckRecorded q ok) (log ++ [(q, i, ok)]) (Function.update m q ((m q).set i ok)) q' := by
  obtain ⟨hacked, htext, hpending, hred, hfailed, hentries⟩ := h q'
  have hlog : (∃ j, (q', j, false) ∈ log ++ [(q, i, ok)]) ↔
      (∃ j, (q', j, false) ∈ log) ∨ q' = q ∧ ok = false := by
    simp only [List.mem_append, List.mem_singleton, Prod.mk.injEq, exists_or]
    simp [eq_comm]
  by_cases hq : q' = q
  · subst hq
    obtain ⟨ha, hf, hm, ht⟩ := onAckRecorded_self v q' ok
    have hp : passes ((m q').set i ok) = _ := passes_set hne
    have hfailed' : (v.onAckRecorded q' ok).qtrmFailed q' = true ↔
        ∃ j, (q', j, false) ∈ log ++ [(q', i, ok)] := by
      rw [hlog, hf, Bool.or_eq_true, hfailed]
      simp
    refine ⟨?_, ?_, ?_, ?_, hfailed', fun j hj => ?_⟩
    · rw [ha, Function.update_self, hp, hacked]
    · rw [ht, Function.update_self, hp, hacked]
    · rw [hm, Function.update_self]
      refine iff_of_false ?_ (set_ne_nil _ _ _)
      split <;> simp
    · rw [← hfailed', hm, hf]
      split <;> simp [*]
    · rw [Function.update_self, Dict.get?_set] at hj
      split at hj
      · rename_i hji
        obtain rfl := Option.some.inj hj
        rw [hji]
        exact List.mem_append_right _ (List.mem_singleton.2 rfl)
      · exact List.mem_append_left _ (hentries j hj)
  · obtain ⟨ha, hf, hm, ht⟩ := onAckRecorded_of_ne v ok hq
    have hrow : Function.update m q ((m q).set i ok) q' = m q' := Function.update_of_ne hq ..
    have hsame : (∃ j, (q', j, false) ∈ log ++ [(q, i, ok)]) ↔ ∃ j, (q', j, false) ∈ log := by
      rw [hlog]
      simp [hq]
    refine ⟨by rw [ha, hrow, hacked], by rw [ht, hrow, htext], by rwa [hm, hrow], ?_, ?_, fun j hj => ?_⟩
    · rw [hm, hsame, hred]
    · rw [hf, hsame, hfailed]
    · rw [hrow] at hj
      exact List.mem_append_left _ (hentries j hj)

/-- The signals of an event, shown one after the other. -/
theorem live_display (out : List Signal) (h : ∀ q, Live v log m q)
    (hr : Replays m (out.filterMap Signal.ack?) m') (hc : out.filterMap Signal.closing? = []) :
    ∀ q, Live (out.foldl (receive c) v) (log ++ out.filterMap Signal.ack?) m' q := by
  induction out generalizing v m log with
  | nil =>
    obtain rfl : m' = m := hr
    rw [List.filterMap_nil, List.append_nil]
    exact h
  | cons s out ih =>
    cases s with
    | ackRecorded q i ok =>
      have hnext := ih (live_onAckRecorded h hr.1) hr.2 hc
      rw [List.append_assoc] at hnext
      exact hnext
    | uploadFinished => cases hc
    | chunkProgress i n =>
      exact ih (fun q => ⟨(h q).1, (h q).2, (h q).3, (h q).4, (h q).5, (h q).6⟩) hr hc
    | _ => exact ih h hr hc

/-! ## The view of a closed pass -/

/-- The view of a QTRM once the pass is closed. -/
structure Final (v : UploadView) (c : Controller) (q : Qtrm) : Prop where
  row : c.gapCells q = some (v.gapsTable q)
  led : v.progMatrix q = finalLed c q

theorem finishRow_eq {row : String × String × String} (h : c.gapCells q = some row) :
    finishRow c v q = .ok { v with
      gapsTable := Function.update v.gapsTable q row
      progMatrix := Function.update v.progMatrix q (finalLed c q) } := by
  rw [gapCells] at h
  unfold finishRow setRow
  cases hf : summarizeIndices (c.qtrmGaps q).2.2 with
  | none => simp [hf] at h
  | some failed =>
    cases hm : summarizeIndices (c.qtrmGaps q).2.1 with
    | none => simp [hf, hm] at h
    | some missing =>
      simp only [hf, hm] at h ⊢
      simp [Function.update_idem, ← Option.some.inj h]

theorem finishRows (qs : List Qtrm) (h : ∀ q, (c.gapCells q).isSome) :
    ∃ v', qs.foldlM (finishRow c) v = .ok v' ∧
      ∀ q, Final v' c q ∨ q ∉ qs ∧ v'.gapsTable q = v.gapsTable q ∧ v'.progMatrix q = v.progMatrix q := by
  induction qs generalizing v with
  | nil => exact ⟨v, rfl, fun q => .inr ⟨List.not_mem_nil, rfl, rfl⟩⟩
  | cons q qs ih =>
    obtain ⟨row, hrow⟩ := Option.isSome_iff_exists.1 (h q)
    obtain ⟨v', hv', hall⟩ := ih (v := { v with
      gapsTable := Function.update v.gapsTable q row
      progMatrix := Function.update v.progMatrix q (finalLed c q) })
    refine ⟨v', ?_, fun q' => ?_⟩
    · rw [List.foldlM_cons, finishRow_eq hrow]
      exact hv'
    · rcases hall q' with hf | ⟨hq', ht, hl⟩
      · exact .inl hf
      dsimp only at ht hl
      by_cases hq : q' = q
      · subst hq
        rw [Function.update_self] at ht hl
        exact .inl ⟨hrow.trans (congrArg some ht.symm), hl⟩
      · rw [Function.update_of_ne hq] at ht hl
        exact .inr ⟨by simp [hq, hq'], ht, hl⟩

/-- The final table and the final colours. -/
theorem final_onUploadFinished (h : ∀ q, (c.gapCells q).isSome) (q : Qtrm) :
    Final (v.onUploadFinished c) c q := by
  obtain ⟨v', hv', hall⟩ := finishRows (c := c) (v := { v with progressFormat := "done — %v / %m" })
    (List.finRange 96) h
  rw [onUploadFinished, hv']
  exact (hall q).resolve_right fun hq => hq.1 (List.mem_finRange q)

/-! ## From one upload to the next -/

/-- The step closes a pass. -/
def Closes (x : Controller.Step) : Prop :=
  (Controller.machine.post x).out.filterMap Signal.closing? ≠ []

/-- How the view stands to the controller after the steps `tr` of an upload of `n` chunks. -/
structure Shown (n : Nat) (tr : List Controller.Step) (v : UploadView) (c : Controller) : Prop where
  ok : c.Ok
  count : c.chunkCount = n
  entries : Controller.Entries n c
  replays : Replays (fun _ => []) (recorded tr) c.ackMatrix
  live : (∀ x ∈ tr, ¬ Closes x) → ∀ q, Live v (recorded tr) c.ackMatrix q
  final : (∃ x ∈ tr, Closes x) → c.op ≠ some .upload ∧ ∀ q, Final v c q

/-- The view depends on the matrix and the number of chunks alone. -/
theorem final_of_rows (h : Final v c q) (hr : c'.rows = c.rows) : Final v c' q := by
  obtain ⟨hm, hn⟩ := Prod.mk.inj hr
  have hgaps : c'.qtrmGaps q = c.qtrmGaps q := by rw [qtrmGaps, qtrmGaps, hm, hn]
  refine ⟨?_, ?_⟩
  · rw [gapCells, hgaps, hn]
    exact h.row
  · rw [finalLed, hgaps]
    exact h.led

/-- A step that starts no upload shows its signals alone. -/
theorem step_eq {x : Controller.Step} (hne : ∀ image golden, x.2 ≠ .start (.upload image golden)) :
    step v x = (Controller.machine.post x).out.foldl (receive (Controller.machine.post x)) v := by
  obtain ⟨d, e⟩ := x
  unfold step
  split
  · rename_i hs
    exact absurd hs (hne _ _)
  · rfl

/-- Signals that the view is not connected to. -/
theorem display_unlogged {out : List Signal} (ha : out.filterMap Signal.ack? = [])
    (hc : out.filterMap Signal.closing? = []) (h : Final v c q) :
    Final (out.foldl (receive c') v) c q := by
  induction out generalizing v with
  | nil => exact h
  | cons s out ih =>
    cases s with
    | ackRecorded => cases ha
    | uploadFinished => cases hc
    | chunkProgress i n => exact ih ha hc ⟨h.row, h.led⟩
    | _ => exact ih ha hc h

variable {n : Nat} {tr : List Controller.Step} {e : Controller.Event}

/-- The summaries of an upload of no more chunks than `str` can write. -/
theorem gapCells_isSome (h : Entries c.chunkCount c) (hn : c.chunkCount ≤ 10 ^ maxStrDigits)
    (q : Qtrm) : (c.gapCells q).isSome := by
  obtain ⟨failed, missing, hcells, -⟩ := gapCells_read_back h hn q
  rw [hcells]
  rfl

theorem closes_snoc : (∃ x ∈ tr ++ [(c, e)], Closes x) ↔
    (∃ x ∈ tr, Closes x) ∨ (c.handle e).out.filterMap Signal.closing? ≠ [] := by
  simp only [List.mem_append, List.mem_singleton, or_and_right, exists_or, exists_eq_left]
  rfl

theorem recorded_snoc : recorded (tr ++ [(c, e)]) =
    recorded tr ++ (c.handle e).out.filterMap Signal.ack? := by
  rw [recorded, List.flatMap_append, List.flatMap_singleton]
  rfl

theorem replays_logs (hl : Logs c.cleared c') :
    Replays c.ackMatrix (c'.out.filterMap Signal.ack?) c'.ackMatrix := by
  obtain ⟨⟨log, hlog, hr⟩, -⟩ := hl
  rw [hlog]
  exact hr

/-- What an event records makes the matrix. -/
theorem replays_heard (h : Heard c.cleared e c') :
    Replays c.ackMatrix (c'.out.filterMap Signal.ack?) c'.ackMatrix := by
  cases h with
  | recorded _ hl => exact replays_logs hl
  | quiet hq => exact replays_logs hq.logs
  | closed _ _ hc =>
    subst hc
    rfl

/-- The signals of a step during which no pass is closed. -/
theorem live_step (h : ∀ q, Live v log c.ackMatrix q) (hl : Logs c.cleared c') :
    ∀ q, Live (c'.out.foldl (receive c') v) (log ++ c'.out.filterMap Signal.ack?) c'.ackMatrix q :=
  live_display c'.out h (replays_logs hl) hl.closing

/-- The view when the grace window is over. -/
theorem final_closeUploadPass (hs : ∀ q, (c'.gapCells q).isSome)
    (h : c' = { c.cleared with timer := none }.closeUploadPass) (q : Qtrm) :
    Final (c'.out.foldl (receive c') v) c' q := by
  obtain ⟨missing, failed, ok, text, hout⟩ : ∃ missing failed ok text,
      c'.out = [.uploadFinished missing failed, .sessionFinished c.op ok text] := by
    rw [h]
    exact ⟨_, _, _, _, rfl⟩
  rw [hout]
  exact final_onUploadFinished hs q

theorem Shown.snoc (h : Shown n tr v c) (hn : n ≤ 10 ^ maxStrDigits)
    (he : Controller.machine.enabled c e) (hne : ∀ image golden, e ≠ .start (.upload image golden)) :
    Shown n (tr ++ [(c, e)]) (step v (c, e)) (c.handle e) := by
  have hgrown : Grown _ c (c.handle e) :=
    grown_handle h.ok fun image golden hs => absurd hs (hne image golden)
  have hcount : (c.handle e).chunkCount = n := hgrown.count.trans h.count
  have hentries : Entries (c.handle e).chunkCount (c.handle e) := by
    have hc := hgrown.entries (h.count.symm ▸ h.entries)
    rwa [h.count, ← hcount] at hc
  have hview : step v (c, e) = (c.handle e).out.foldl (receive (c.handle e)) v := step_eq hne
  rw [hview]
  have hheard : Heard c.cleared e (c.handle e) := heard_react (h.ok.congr rfl) hne
  refine ⟨ok_handle h.ok he, hcount, hcount ▸ hentries, ?_, fun hopen => ?_, fun hclosed => ?_⟩
  · rw [recorded_snoc]
    exact h.replays.append (replays_heard hheard)
  · rw [recorded_snoc]
    have hall : ∀ x ∈ tr, ¬ Closes x := fun x hx => hopen x (List.mem_append_left _ hx)
    have hlast : ¬ Closes (c, e) := hopen _ (by simp)
    cases hheard with
    | recorded _ hl => exact live_step (h.live hall) hl
    | quiet hq => exact live_step (h.live hall) hq.logs
    | closed _ _ hc =>
      refine absurd ?_ hlast
      have hout : (c.handle e).out = ({ c.cleared with timer := none }.closeUploadPass).out :=
        congrArg Controller.out hc
      rw [Closes, Machine.post_mk]
      show (c.handle e).out.filterMap Signal.closing? ≠ []
      rw [hout]
      exact List.cons_ne_nil _ _
  · cases hheard with
    | recorded hop hl =>
      refine absurd hop ?_
      rcases closes_snoc.1 hclosed with hc | hc
      · exact (h.final hc).1
      · exact absurd hl.closing hc
    | closed _ _ hc =>
      have hnone : (c.handle e).op = none := (congrArg Controller.op hc).trans rfl
      exact ⟨by rw [hnone]; exact nofun,
        final_closeUploadPass (gapCells_isSome hentries (hcount ▸ hn)) hc⟩
    | quiet hq =>
      rcases closes_snoc.1 hclosed with hc | hc
      · obtain ⟨hop, hfinal⟩ := h.final hc
        have hrows : (c.handle e).rows = c.rows :=
          rows_handle (fun _ _ => hop) fun image golden hs => absurd hs (hne image golden)
        exact ⟨op_ne_upload h.ok hop hne, fun q =>
          final_of_rows (display_unlogged hq.acks hq.closing (hfinal q)) hrows⟩
      · exact absurd hq.closing hc

theorem live_reset (v : UploadView) (q : Qtrm) : Live v.resetProgramView [] (fun _ => []) q :=
  ⟨rfl, rfl, by simp [resetProgramView], by simp [resetProgramView], by simp [resetProgramView], nofun⟩

/-- The view is reset, and the start of the upload tells nothing. -/
theorem shown_reset (hok : c'.Ok) (hrows : c'.rows = (fun _ => [], n))
    (hacks : c'.out.filterMap Signal.ack? = []) (hclosing : c'.out.filterMap Signal.closing? = []) :
    Shown n [] (c'.out.foldl (receive c') v.resetProgramView) c' := by
  obtain ⟨hmatrix, hcount⟩ := Prod.mk.inj hrows
  refine ⟨hok, hcount, ⟨fun q => ?_, fun q y hy => ?_⟩, ?_, fun _ => ?_, fun ⟨_, hx, _⟩ => nomatch hx⟩
  · rw [hmatrix]
    exact List.nodup_nil
  · rw [hmatrix] at hy
    exact absurd hy List.not_mem_nil
  · exact hmatrix
  · have hreplays : Replays (fun _ => []) (c'.out.filterMap Signal.ack?) fun _ => [] := by
      rw [hacks]
      rfl
    have hlive := @live_display _ c' _ _ _ c'.out (live_reset v) hreplays hclosing
    rw [hacks] at hlive
    rw [hmatrix]
    exact hlive

theorem shown_start {image : Bytes} {golden : Bool} (hok : c.Ok)
    (ha : c.Accepts (.upload image golden)) :
    Shown (splitChunks image).length [] (step v (c, .start (.upload image golden)))
      (c.handle (.start (.upload image golden))) := by
  have hview : step v (c, .start (.upload image golden)) =
      (c.handle (.start (.upload image golden))).out.foldl
        (receive (c.handle (.start (.upload image golden)))) v.resetProgramView := by
    simp only [step, if_true]
    rfl
  rw [hview]
  exact shown_reset (ok_handle hok trivial) (rows_startUpload (c := c.cleared) ha)
    (seen_startOp (c := c.cleared) unsent_ack _) (seen_startOp (c := c.cleared) unsent_closing _)

/-- The view after the start of an upload and the steps `mid`. -/
theorem shown_run {rc : RcSettings} {image : Bytes} {golden : Bool} {x : Controller.Step}
    {pre mid : List Controller.Step}
    (hr : Controller.machine.Run (Controller.init rc) (pre ++ x :: mid) c)
    (hx : x.2 = .start (.upload image golden)) (ha : x.1.Accepts (.upload image golden))
    (hm : ∀ z ∈ mid, ∀ image' golden', z.2 ≠ .start (.upload image' golden'))
    (hn : (splitChunks image).length ≤ 10 ^ maxStrDigits) :
    Shown (splitChunks image).length mid (after (pre ++ x :: mid)) c := by
  obtain ⟨hpre, -, hmid⟩ := hr.middle
  obtain ⟨d, ev⟩ := x
  obtain rfl : ev = .start (.upload image golden) := hx
  have hafter : after (pre ++ (d, .start (.upload image golden)) :: mid) =
      mid.foldl step (step (after pre) (d, .start (.upload image golden))) := by
    rw [after, List.foldl_append, List.foldl_cons]
    rfl
  rw [hafter]
  refine hmid.history (C := fun _ (e : Event) => ∀ image' golden', e ≠ .start (.upload image' golden'))
    (P := fun tr c => Shown (splitChunks image).length tr
      (tr.foldl step (step (after pre) (d, .start (.upload image golden)))) c)
    (shown_start (run_ok hpre) ha) ?_ hm
  intro tr c e _ hi he hne
  rw [List.foldl_append]
  exact hi.snoc hn he hne

/-- From the start of an upload to the next one the records make the matrix, and the view says what
they say: chunk for chunk while the upload runs, red for a QTRM that has had a failure recorded; and by
the gaps that are left once the pass is closed. -/
theorem upload_view {rc : RcSettings} {image : Bytes} {golden : Bool} {x : Controller.Step}
    {pre mid : List Controller.Step}
    (hr : Controller.machine.Run (Controller.init rc) (pre ++ x :: mid) c)
    (hx : x.2 = .start (.upload image golden)) (ha : x.1.Accepts (.upload image golden))
    (hm : ∀ z ∈ mid, ∀ image' golden', z.2 ≠ .start (.upload image' golden'))
    (hn : (splitChunks image).length ≤ 10 ^ maxStrDigits) :
    Replays (fun _ => []) (recorded mid) c.ackMatrix ∧
      ((∀ z ∈ mid, ¬ Closes z) → ∀ q, Live (after (pre ++ x :: mid)) (recorded mid) c.ackMatrix q) ∧
      ((∃ z ∈ mid, Closes z) → ∀ q, Final (after (pre ++ x :: mid)) c q) := by
  have hshown := shown_run hr hx ha hm hn
  exact ⟨hshown.replays, hshown.live, fun hc => (hshown.final hc).2⟩

/-! ## The verdict -/

theorem mem_missing {i : Nat} : i ∈ (c.qtrmGaps q).2.1 ↔
    i < c.chunkCount ∧ (c.ackMatrix q).get? i ≠ some true := by
  simp [qtrmGaps]

/-- All QTRMs end up green exactly if nothing is missing and nothing has failed. -/
theorem all_ok_iff (h : GapsAgree c) : (∀ q, finalLed c q = .ok) ↔
    c.missingChunkIndices = [] ∧ c.failedPairs = [] := by
  have hled : ∀ q, finalLed c q = .ok ↔ (c.qtrmGaps q).2.1 = [] ∧ (c.qtrmGaps q).2.2 = [] := by
    intro q
    simp only [finalLed]
    split
    · rename_i hf
      simp [hf]
    · rename_i hf
      split
      · rename_i hmiss
        simp [hmiss]
      · rename_i hmiss
        simp_all
  simp only [hled]
  constructor
  · intro hall
    refine ⟨List.eq_nil_iff_forall_not_mem.2 fun i hi => ?_,
      List.eq_nil_iff_forall_not_mem.2 fun ⟨q, i⟩ hi => ?_⟩
    · obtain ⟨hlt, q, hne⟩ := (h.missing i).1 hi
      have hmem : i ∈ (c.qtrmGaps q).2.1 := mem_missing.2 ⟨hlt, hne⟩
      rw [(hall q).1] at hmem
      cases hmem
    · have hmem := (h.pairs q i).1 hi
      rw [(hall q).2] at hmem
      cases hmem
  · rintro ⟨hmiss, hfail⟩ q
    refine ⟨List.eq_nil_iff_forall_not_mem.2 fun i hi => ?_,
      List.eq_nil_iff_forall_not_mem.2 fun i hi => ?_⟩
    · obtain ⟨hlt, hne⟩ := mem_missing.1 hi
      have hmem := (h.missing i).2 ⟨hlt, q, hne⟩
      rw [hmiss] at hmem
      cases hmem
    · have hmem := (h.pairs q i).2 hi
      rw [hfail] at hmem
      cases hmem

/-- What is told when a pass is closed. -/
theorem out_closeUploadPass {d : Controller} (hop : d.op = some .upload) (ho : d.out = []) :
    ∃ missing failed ok text, d.closeUploadPass.out =
        [.uploadFinished missing failed, .sessionFinished (some .upload) ok text] ∧
      (ok = true ↔ d.closeUploadPass.missingChunkIndices = [] ∧ d.closeUploadPass.failedPairs = []) := by
  obtain ⟨text, hout⟩ : ∃ text, d.closeUploadPass.out =
      [.uploadFinished d.missingChunkIndices.length d.failedPairs.length,
        .sessionFinished (some .upload) (d.missingChunkIndices.isEmpty && d.failedPairs.isEmpty)
          text] := by
    simp only [closeUploadPass, finish, emit, ho, hop]
    exact ⟨_, rfl⟩
  refine ⟨_, _, _, _, hout, ?_⟩
  rw [Bool.and_eq_true, List.isEmpty_iff, List.isEmpty_iff]
  rfl

theorem out_closes {y : Controller.Step} (hok : y.1.Ok) (hy : Closes y)
    (hne : ∀ image golden, y.2 ≠ .start (.upload image golden)) :
    ∃ missing failed ok text, (Controller.machine.post y).out =
        [.uploadFinished missing failed, .sessionFinished (some .upload) ok text] ∧
      (ok = true ↔ (Controller.machine.post y).missingChunkIndices = [] ∧
        (Controller.machine.post y).failedPairs = []) := by
  cases heard_react (c := y.1.cleared) (hok.congr rfl) hne with
  | recorded _ hl => exact absurd hl.closing hy
  | quiet hq => exact absurd hq.closing hy
  | closed _ hop hc =>
    have hpost : Controller.machine.post y = { y.1.cleared with timer := none }.closeUploadPass := hc
    rw [hpost]
    exact out_closeUploadPass hop rfl

/-- When the pass is closed, the operator is told that the transfer is complete exactly if all QTRMs
are shown green. -/
theorem verdict_shown {rc : RcSettings} {image : Bytes} {golden : Bool} {x y : Controller.Step}
    {pre mid : List Controller.Step}
    (hr : Controller.machine.Run (Controller.init rc) (pre ++ x :: (mid ++ [y])) c)
    (hx : x.2 = .start (.upload image golden)) (ha : x.1.Accepts (.upload image golden))
    (hm : ∀ z ∈ mid ++ [y], ∀ image' golden', z.2 ≠ .start (.upload image' golden'))
    (hn : (splitChunks image).length ≤ 10 ^ maxStrDigits) (hy : Closes y) :
    ∃ missing failed ok text,
      c.out = [.uploadFinished missing failed, .sessionFinished (some .upload) ok text] ∧
      (ok = true ↔ ∀ q, (after (pre ++ x :: (mid ++ [y]))).progMatrix q = .ok) := by
  have hshown := shown_run hr hx ha hm hn
  obtain ⟨-, hfinal⟩ := hshown.final ⟨y, by simp, hy⟩
  have hgaps : GapsAgree c := gapsAgree (hshown.count.symm ▸ hshown.entries)
  obtain ⟨-, -, hrest⟩ := hr.middle
  obtain ⟨hmid, -, rfl⟩ := hrest.snoc_inv
  obtain ⟨hpre, he, -⟩ := hr.middle
  have hok : y.1.Ok := hmid.invariant' (ok_handle (run_ok hpre) he) fun _ _ h he => ok_handle h he
  obtain ⟨missing, failed, ok, text, hout, hverdict⟩ := out_closes hok hy (hm y (by simp))
  refine ⟨missing, failed, ok, text, hout, hverdict.trans ?_⟩
  rw [← all_ok_iff hgaps]
  exact forall_congr' fun q => by rw [(hfinal q).led]

/-- The timer of an upload is the one of its grace window. -/
theorem closes_timer {y : Controller.Step} (hok : y.1.Ok) (hop : y.1.op = some .upload)
    (hy : y.2 = .timer) (he : Controller.machine.enabled y.1 y.2) : Closes y := by
  obtain ⟨d, ev⟩ := y
  obtain rfl : ev = .timer := hy
  obtain ⟨⟨hd, ms⟩, ht⟩ := Option.isSome_iff_exists.1 he
  have hcloses : hd.Closes (some .upload) := hop ▸ (hok.timer hd ms ht).1
  have hpost : Controller.machine.post (d, .timer) = { d.cleared with timer := none }.closeUploadPass := by
    cases hd with
    | graceTimeout =>
      have hc : d.cleared.timer = some (.graceTimeout, ms) := ht
      show d.cleared.onTimer = _
      rw [onTimer, hc]
    | simpleTimeout => simp [Handler.Closes] at hcloses
    | iapWindowClosed => simp [Handler.Closes] at hcloses
  obtain ⟨missing, failed, ok, text, hout, -⟩ :=
    out_closeUploadPass (d := { d.cleared with timer := none }) hop rfl
  rw [Closes, hpost, hout]
  exact List.cons_ne_nil _ _

/-- Nothing else closes a pass. -/
theorem not_closes {y : Controller.Step} (hok : y.1.Ok)
    (hne : ∀ image golden, y.2 ≠ .start (.upload image golden)) (ht : y.2 ≠ .timer) : ¬ Closes y := by
  intro hy
  cases heard_react (c := y.1.cleared) (hok.congr rfl) hne with
  | recorded _ hl => exact hy hl.closing
  | quiet hq => exact hy hq.closing
  | closed he _ _ => exact ht he

/-- An upload to one QTRM, to the end of its grace window. -/
theorem targeted_closes : ∃ (pre mid : List Controller.Step) (x y : Controller.Step) (c : Controller),
    Controller.machine.Run (Controller.init sampleSettings) (pre ++ x :: (mid ++ [y])) c ∧
    x.2 = .start (.upload [0] false) ∧ x.1.Accepts (.upload [0] false) ∧
    Machine.events mid = [.shot, .frame (oneSlot 5 passAck)] ∧ y.2 = .timer ∧
    (∀ z ∈ mid ++ [y], ∀ image golden, z.2 ≠ .start (.upload image golden)) ∧
    (∀ z ∈ mid, ¬ Closes z) ∧ Closes y := by
  obtain ⟨pre, x, c₁, c₂, y, c, hr, hs, -⟩ := targeted_session
  have hstart : ∀ z ∈ [(c₁, .shot), (c₂, .frame (oneSlot 5 passAck))] ++ [y],
      ∀ image golden, z.2 ≠ .start (.upload image golden) := by
    intro z hz image golden he
    simp only [List.cons_append, List.nil_append, List.mem_cons, List.not_mem_nil, or_false] at hz
    rcases hz with rfl | rfl | rfl
    · cases he
    · cases he
    · cases hs.closing.2.symm.trans he
  obtain ⟨hpre, hx, hrest⟩ := hr.middle
  have hok : (Controller.machine.post x).Ok := ok_handle (run_ok hpre) hx
  have hsteps : ∀ z ∈ [(c₁, .shot), (c₂, .frame (oneSlot 5 passAck))] ++ [y],
      z.1.Ok ∧ Controller.machine.enabled z.1 z.2 := by
    intro z hz
    obtain ⟨before, rest, hsplit⟩ := List.append_of_mem hz
    rw [show _ ++ y :: [] = before ++ z :: rest from hsplit] at hrest
    obtain ⟨hbefore, he, -⟩ := hrest.middle
    exact ⟨hbefore.invariant' hok fun _ _ h he => ok_handle h he, he⟩
  refine ⟨pre, _, x, y, c, hr, hs.start, hs.accepted, rfl, hs.closing.2, hstart, fun z hz => ?_, ?_⟩
  · have hz' := List.mem_append_left [y] hz
    refine not_closes (hsteps z hz').1 (hstart z hz') fun ht => ?_
    simp only [List.mem_cons, List.not_mem_nil, or_false] at hz
    rcases hz with rfl | rfl <;> cases ht
  · obtain ⟨hyok, he⟩ := hsteps y (List.mem_append_right _ (.head _))
    exact closes_timer hyok hs.closing.1 hs.closing.2 he

theorem one_chunk : (splitChunks [0]).length ≤ 10 ^ maxStrDigits := Nat.one_le_pow _ _ (by decide)

/-- The view before the grace window is over, and behind it. -/
theorem upload_view_targeted : ∃ (pre mid : List Controller.Step) (x y : Controller.Step)
    (c : Controller),
    Controller.machine.Run (Controller.init sampleSettings) (pre ++ x :: (mid ++ [y])) c ∧
    x.2 = .start (.upload [0] false) ∧
    Machine.events mid = [.shot, .frame (oneSlot 5 passAck)] ∧ y.2 = .timer ∧
    Replays (fun _ => []) (recorded mid) y.1.ackMatrix ∧
    (∀ q, Live (after (pre ++ x :: mid)) (recorded mid) y.1.ackMatrix q) ∧
    ∀ q, Final (after (pre ++ x :: (mid ++ [y]))) c q := by
  obtain ⟨pre, mid, x, y, c, hr, hx, ha, hmid, hy, hm, hopen, hcloses⟩ := targeted_closes
  have hr' : Controller.machine.Run (Controller.init sampleSettings) (pre ++ x :: mid) y.1 := by
    rw [← List.cons_append, ← List.append_assoc] at hr
    exact hr.snoc_inv.1
  obtain ⟨hreplays, hlive, -⟩ :=
    upload_view hr' hx ha (fun z hz => hm z (List.mem_append_left _ hz)) one_chunk
  exact ⟨pre, mid, x, y, c, hr, hx, hmid, hy, hreplays, hlive hopen,
    (upload_view hr hx ha hm one_chunk).2.2 ⟨y, by simp, hcloses⟩⟩

theorem verdict_shown_targeted : ∃ (tr : List Controller.Step) (c : Controller)
    (missing failed : Nat) (ok : Bool) (text : String),
    Controller.machine.Run (Controller.init sampleSettings) tr c ∧
    c.out = [.uploadFinished missing failed, .sessionFinished (some .upload) ok text] ∧
    (ok = true ↔ ∀ q, (after tr).progMatrix q = .ok) := by
  obtain ⟨pre, mid, x, y, c, hr, hx, ha, -, -, hm, -, hy⟩ := targeted_closes
  obtain ⟨missing, failed, ok, text, hout, hok⟩ := verdict_shown hr hx ha hm one_chunk hy
  exact ⟨_, c, missing, failed, ok, text, hr, hout, hok⟩

end UploadView

end QccGui
