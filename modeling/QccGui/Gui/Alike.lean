import QccGui.Gui.Rows

/-!
# States that differ in their log

Handlers do not read what they have sent and emitted. Two states that differ only in outputs that
count for nothing, such as log lines, stay alike whatever is done to both.

* `Appends`: a handler that reads everything but the outputs, and adds to them.
* `Alike`: two states that differ in outputs that are not counted, and show the same rows.
-/

namespace QccGui

open Lib

namespace Controller

variable {c d e : Controller} {q : Qtrm}

/-! ## Handlers and their outputs -/

/-- The state with other outputs. -/
def withOut (c : Controller) (out : List Signal) : Controller := { c with out }

/-- A handler that does not read the outputs, and only adds to them. -/
def Appends (f : Controller → Controller) : Prop :=
  ∀ c, ∃ o, (f c).out = c.out ++ o ∧ ∀ out, f (c.withOut out) = (f c).withOut (out ++ o)

theorem appends_id : Appends fun c => c :=
  fun _ => ⟨[], by simp, fun out => by rw [List.append_nil]⟩

theorem appends_emit (s : Signal) : Appends (·.emit s) := fun _ => ⟨[s], rfl, fun _ => rfl⟩

theorem Appends.comp {f g : Controller → Controller} (hg : Appends g) (hf : Appends f) :
    Appends fun c => g (f c) := by
  intro c
  obtain ⟨o, ho, hf⟩ := hf c
  obtain ⟨o', ho', hg⟩ := hg (f c)
  refine ⟨o ++ o', by rw [ho', ho, List.append_assoc], fun out => ?_⟩
  dsimp only
  rw [hf, hg, List.append_assoc]

/-- A handler that chooses what to do by something that does not depend on the outputs. -/
theorem appends_by {α : Type} (key : Controller → α) {f : Controller → Controller}
    {g : α → Controller → Controller} (hk : ∀ c out, key (withOut c out) = key c)
    (hf : ∀ c, f c = g (key c) c) (hg : ∀ a, Appends (g a)) : Appends f := by
  intro c
  obtain ⟨o, ho, hg⟩ := hg (key c) c
  refine ⟨o, by rw [hf, ho], fun out => ?_⟩
  rw [hf, hf c, hk]
  exact hg out

theorem appends_ite {p : Controller → Prop} [DecidablePred p] {f g : Controller → Controller}
    (hp : ∀ c out, p (withOut c out) ↔ p c) (hf : Appends f) (hg : Appends g) :
    Appends fun c => if p c then f c else g c := by
  refine appends_by (fun c => decide (p c)) (g := fun b c => if b then f c else g c)
    (fun c out => decide_eq_decide.2 (hp c out)) (fun c => by simp) fun b => ?_
  cases b with
  | true => exact hf
  | false => exact hg

theorem Appends.next {f g : Controller → Controller} (hf : Appends f) (hg : Appends g) :
    Appends fun c => (f c).next g := by
  refine appends_ite (p := fun c => (f c).raised = true) (fun c out => ?_) hf (hg.comp hf)
  obtain ⟨o, -, hf⟩ := hf c
  rw [hf]
  rfl

theorem appends_sendRp (cmd payload : Bytes) (text : String) :
    Appends (·.sendRp cmd payload text) := by
  have hsend : ∀ (rc : RcSettings) (frame : Bytes), Appends fun c =>
      ({ c with rc }.sendFn frame).next (·.emit (.logFrame frame true text)) :=
    fun rc frame => Appends.next (fun c => ⟨[.send frame], rfl, fun _ => rfl⟩)
      (appends_emit (.logFrame frame true text))
  unfold sendRp
  by_cases hp : payload ≠ []
  · simp only [if_pos hp]
    exact appends_by (fun c => c.rc.buildHeader commandIdRemoteProgramming [] rpFrameSize)
      (fun _ _ => rfl) (fun _ => rfl)
      fun header => hsend header.2 (remoteProgrammingFrame header.1 cmd payload)
  · simp only [if_neg hp]
    exact appends_by (fun c => c.rc.buildHeader commandIdRemoteProgramming [] rpCmdFrameSize)
      (fun _ _ => rfl) (fun _ => rfl)
      fun header => hsend header.2 (remoteProgrammingCmdFrame header.1 cmd)

theorem appends_sendCurrentChunk (i : Nat) : Appends (·.sendCurrentChunk i) := by
  refine appends_by (fun c => (c.chunks[i]?, c.chunkCount)) (g := fun x c =>
    x.1.elim { c with raised := true } fun y =>
      (c.sendRp (buildBitstreamDataHeader y.2 x.2 i) y.1
        s!"Bitstream chunk {i + 1}/{x.2} ({y.2} bytes)").next (·.emit (.chunkProgress i x.2)))
    (fun _ _ => rfl) (fun c => ?_) ?_
  · unfold sendCurrentChunk
    cases c.chunks[i]? <;> rfl
  rintro ⟨_ | ⟨data, realLen⟩, n⟩
  · exact fun c => ⟨[], (List.append_nil _).symm, fun out => by rw [List.append_nil]; rfl⟩
  · exact Appends.next (appends_sendRp _ _ _) (appends_emit _)

theorem appends_sendNextChunk (first : Bool) : Appends (·.sendNextChunk first) := by
  refine appends_by (fun c => (c.nextIndex first, c.chunkCount)) (g := fun x c =>
    if x.1 ≥ x.2 then c.enterGrace else { c with currentChunk := some x.1 }.sendCurrentChunk x.1)
    (fun _ _ => rfl) (fun _ => rfl) ?_
  rintro ⟨i, n⟩
  by_cases hi : i ≥ n
  · simp only [if_pos hi]
    exact fun c => ⟨[], (List.append_nil _).symm, fun out => by rw [List.append_nil]; rfl⟩
  · simp only [if_neg hi]
    have hset : Appends fun c => { c with currentChunk := some i } :=
      fun c => ⟨[], (List.append_nil _).symm, fun out => by rw [List.append_nil]; rfl⟩
    exact (appends_sendCurrentChunk i).comp hset

theorem appends_setAck (q : Qtrm) (i : Nat) (ok : Bool) : Appends (·.setAck q i ok) :=
  appends_ite (p := fun c => (c.ackMatrix q).get? i ≠ some true) (fun _ _ => Iff.rfl)
    (fun _ => ⟨[.ackRecorded q i ok], rfl, fun _ => rfl⟩) appends_id

theorem appends_recordAck (q : Qtrm) (i : Nat) (ok : Bool) : Appends (·.recordAck q i ok) := by
  refine appends_ite (p := fun c => i ≥ c.chunkCount) (fun _ _ => Iff.rfl) appends_id ?_
  refine Appends.comp (g := fun c => if c.uploadPhase = some .stream ∧ ok = true ∧
    c.currentChunk = some i then c.sendNextChunk false else c) ?_ (appends_setAck q i ok)
  exact appends_ite (fun _ _ => Iff.rfl) (appends_sendNextChunk false) appends_id

theorem appends_dispatchSlot (q : Qtrm) (parsed : Slot) : Appends (·.dispatchSlot q parsed) := by
  have hset : ∀ op, Appends fun c => { c with op } :=
    fun op c => ⟨[], (List.append_nil _).symm, fun out => by rw [List.append_nil]; rfl⟩
  have hrow : ∀ op, Appends (·.emit (.opRowUpdated op q parsed)) := fun op => appends_emit _
  have hpoll : ∀ op, Appends fun c =>
      { c with iapReplied := insert q c.iapReplied }.emit (.opRowUpdated op q parsed) :=
    fun op c => ⟨[.opRowUpdated op q parsed], rfl, fun _ => rfl⟩
  refine appends_by op (g := fun op c => dispatchSlot { c with op } q parsed) (fun _ _ => rfl)
    (fun _ => rfl) fun op => ?_
  rcases op with _ | op
  · exact hset none
  cases op with
  | lruInfo =>
    cases parsed with
    | lruStatusResponse => exact (appends_emit _).comp (hset _)
    | _ => exact (hrow _).comp (hset _)
  | upload =>
    cases parsed with
    | bitstreamAck base i pf => exact (appends_recordAck q i _).comp (hset _)
    | _ => exact (hrow _).comp (hset _)
  | modeStep1 => exact (hrow _).comp (hset _)
  | linkCheck => exact (hrow _).comp (hset _)
  | authenticate => exact (hpoll _).comp (hset _)
  | verify => exact (hpoll _).comp (hset _)
  | program => exact (hpoll _).comp (hset _)
  | _ => exact hset _

theorem appends_finish (ok : Bool) (text : String) : Appends (·.finish ok text) :=
  fun c => ⟨[.sessionFinished c.op ok text], rfl, fun _ => rfl⟩

theorem appends_stepComplete (op : Op) : Appends (·.stepComplete op) := by
  refine (appends_finish true "Step complete").comp (f := fun c =>
    let c := if op = .modeStep1 then { c with modeStep1Done := true }
      else { c with modeStep2Done := true }
    let c := c.emit (.stepResult op true "Response received")
    c.emit (.gateChanged c.gateOpen)) fun c => ?_
  by_cases h : op = .modeStep1
  · simp only [if_pos h]
    exact ⟨_, List.append_assoc .., fun out => by simp [emit, withOut, gateOpen]⟩
  · simp only [if_neg h]
    exact ⟨_, List.append_assoc .., fun out => by simp [emit, withOut, gateOpen]⟩

theorem appends_afterSlots : Appends afterSlots := by
  have hset : ∀ op, Appends fun c => { c with op } :=
    fun op c => ⟨[], (List.append_nil _).symm, fun out => by rw [List.append_nil]; rfl⟩
  have hend : ∀ op text, Appends fun c => (c.emit (.opWindowClosed op)).finish true text :=
    fun op text => (appends_finish true text).comp (appends_emit _)
  refine appends_by op (g := fun op c => afterSlots { c with op }) (fun _ _ => rfl) (fun _ => rfl)
    fun op => ?_
  rcases op with _ | op
  · exact hset none
  by_cases hl : op = .linkCheck ∨ op = .lruInfo
  · rcases hl with rfl | rfl
    · exact (hend _ _).comp (hset _)
    · exact (hend _ _).comp (hset _)
  · have hafter : ∀ c : Controller, afterSlots { c with op := some op } =
        if (op = .authenticate ∨ op = .verify ∨ op = .program) ∧ c.targetCount ≤ c.iapReplied.card
        then ({ c with op := some op }.emit (.opWindowClosed op)).finish true
          "All targeted QTRMs replied — poll ended early"
        else { c with op := some op } := by
      intro c
      cases op <;> first | rfl | simp at hl
    simp only [hafter]
    exact appends_ite (fun _ _ => Iff.rfl) ((hend _ _).comp (hset _)) (hset _)

/-! ## Alike states -/

/-- The two states differ in outputs that are not counted. -/
structure Alike (d e : Controller) : Prop where
  state : e = d.withOut e.out
  out : d.out.filter Signal.tallies = e.out.filter Signal.tallies

theorem Alike.refl (d : Controller) : Alike d d := ⟨rfl, rfl⟩

theorem Alike.symm (h : Alike d e) : Alike e d := by
  refine ⟨?_, h.out.symm⟩
  rw [h.state]
  rfl

theorem Alike.trans (h : Alike c d) (h' : Alike d e) : Alike c e := by
  refine ⟨?_, h.out.trans h'.out⟩
  rw [h'.state, h.state]
  rfl

/-- Alike states stay alike. -/
theorem Alike.appends {f : Controller → Controller} (hf : Appends f) (h : Alike d e) :
    Alike (f d) (f e) := by
  obtain ⟨o, ho, hd⟩ := hf d
  have he := hd e.out
  rw [← h.state] at he
  refine ⟨?_, ?_⟩
  · rw [he]
    rfl
  · rw [he, ho, List.filter_append, h.out]
    exact (List.filter_append ..).symm

/-- Outputs that are not counted. -/
theorem Alike.withOut {out : List Signal} (h : d.out.filter Signal.tallies = out.filter Signal.tallies) :
    Alike d (d.withOut out) := ⟨rfl, h⟩

theorem alike_emit {s : Signal} (hs : s.tallies = false) : Alike d (d.emit s) :=
  ⟨rfl, by simp [emit, List.filter_append, hs]⟩

/-- The log lines of two frames. -/
theorem Alike.log (h : Alike d e) (raw raw' : Bytes) (text text' : String) :
    Alike (d.emit (.logFrame raw false text)) (e.emit (.logFrame raw' false text')) :=
  (alike_emit rfl).symm.trans (h.trans (alike_emit rfl))

/-- The tables show the same rows for them. -/
theorem Alike.rows (h : Alike d e) (tab : RemoteProgrammingTab) :
    (tab.display d.out).rows = (tab.display e.out).rows := by
  rw [tab.rows_display, h.out, ← tab.rows_display]

end Controller

end QccGui
