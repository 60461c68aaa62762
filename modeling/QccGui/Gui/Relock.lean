import QccGui.Gui.Gate
import QccGui.Gui.Lock

/-!
# Leaving low speed

A return to high speed ends with an acknowledgement, with its settle window, by hand or with the
connection.

* `Relocked`: the gate is closed, and stays closed until both mode steps have completed again.
* `closed_of_ended`, `kept_of_cancel`: what the ends do to the gate, in the controller.
* `flag_of_step`: a flag of the gate is set only by the end of its step.
* `relock_iff`: the ends that relock the gate are those that are not a cancel.
-/

namespace QccGui

open Lib

namespace Controller

variable {c : Controller} {e : Event} {what : Start}

/-- All starts but those of the two mode steps. -/
def Start.Gated (what : Start) : Prop := what ≠ .modeStep1 ∧ what ≠ .modeStep2

theorem gateOpen_of_accepts (ha : c.Accepts what) (hg : what.Gated) : c.gateOpen = true := by
  obtain ⟨-, ha⟩ := ha
  cases what with
  | modeStep1 => exact absurd rfl hg.1
  | modeStep2 => exact absurd rfl hg.2
  | upload => exact ha.1
  | _ => exact ha

theorem gateOpen_iff : c.gateOpen = true ↔ c.modeStep1Done = true ∧ c.modeStep2Done = true := by
  simp [gateOpen]

/-! ## The ends of the session -/

/-- A session that an acknowledgement or its window ends closes the gate. -/
theorem closed_of_ended (h : c.Ok) (hop : c.op = some .modeBack) (hne : e ≠ .cancel)
    (hend : (c.handle e).op = none) :
    (c.handle e).modeStep1Done = false ∧ (c.handle e).modeStep2Done = false := by
  have hkeep : (c.handle e).op = c.op →
      (c.handle e).modeStep1Done = false ∧ (c.handle e).modeStep2Done = false := fun ho => by
    cases hend.symm.trans (ho.trans hop)
  cases e with
  | cancel => exact absurd rfl hne
  | start what =>
    have hno : ¬ c.cleared.Accepts what := fun ha => by cases hop.symm.trans ha.1
    have hs : (c.handle (.start what)).op = c.cleared.op :=
      congrArg Controller.op (startOp_refused (c := c.cleared) hno)
    exact hkeep hs
  | setTarget target => exact hkeep rfl
  | setIapWindow ms => exact hkeep rfl
  | link up => exact hkeep rfl
  | shot => exact hkeep (same_onShot (c := c.cleared)).op
  | frame raw =>
    rw [handle, react, onFrame, show c.cleared.op = some .modeBack from hop]
    exact ⟨rfl, rfl⟩
  | timer =>
    have hcl := h.timer
    cases ht : c.timer with
    | none =>
      have hf : (c.handle .timer).op = c.op := by
        rw [handle, react, onTimer, show c.cleared.timer = none from ht]
        rfl
      exact hkeep hf
    | some t =>
      obtain ⟨hd, ms⟩ := t
      have hhd := (hcl hd ms ht).1
      rw [hop] at hhd
      have hsimple : hd = .simpleTimeout := by
        cases hd <;> simp_all [Handler.Closes]
      subst hsimple
      have hf : c.handle .timer = ({ c.cleared with timer := none } : Controller).onSimpleTimeout := by
        rw [handle, react, onTimer, show c.cleared.timer = some (.simpleTimeout, ms) from ht]
      have hop' : ({ c.cleared with timer := none } : Controller).op = some .modeBack := hop
      rw [hf, onSimpleTimeout, hop']
      exact ⟨rfl, rfl⟩

/-- A cancel leaves the flags as they are. -/
theorem kept_of_cancel : (c.handle .cancel).gateOpen = c.gateOpen := by
  rw [handle, react, cancel]
  split <;> rfl

/-! ## The flags -/

/-- A flag that a step sets is that of the mode step which the step completes. -/
theorem flag_of_step (h : c.Ok) (e : Event) :
    ((c.handle e).modeStep1Done = true → c.modeStep1Done = true ∨
      .sessionFinished (some .modeStep1) true "Step complete" ∈ (c.handle e).out) ∧
    ((c.handle e).modeStep2Done = true → c.modeStep2Done = true ∨
      .sessionFinished (some .modeStep2) true "Step complete" ∈ (c.handle e).out) := by
  cases handle_effect h e with
  | same hs _ _ => exact ⟨fun h1 => .inl (hs.step1 ▸ h1), fun h2 => .inl (hs.step2 ▸ h2)⟩
  | retargeted _ hs | linked _ hs =>
    rw [hs]
    exact ⟨.inl, .inl⟩
  | started _ _ hs => exact ⟨fun h1 => .inl (hs.step1 ▸ h1), fun h2 => .inl (hs.step2 ▸ h2)⟩
  | ended hs _ =>
    cases hs.marks with
    | kept h1 h2 => exact ⟨fun h => .inl (h1 ▸ h), fun h => .inl (h2 ▸ h)⟩
    | step1 _ _ h2 hm => exact ⟨fun _ => .inr hm, fun h => .inl (h2 ▸ h)⟩
    | step2 _ h1 _ hm => exact ⟨fun h => .inl (h1 ▸ h), fun _ => .inr hm⟩
    | closed _ h1 h2 => simp [h1, h2]

/-- The gate is open as long as a return to high speed is active. -/
theorem openGate_handle (h : c.Ok) (hg : c.op = some .modeBack → c.gateOpen = true) (e : Event)
    (hop : (c.handle e).op = some .modeBack) : (c.handle e).gateOpen = true := by
  cases handle_effect h e with
  | same hs _ _ =>
    rw [hs.gateOpen]
    exact hg (hs.op.symm.trans hop)
  | retargeted _ hs | linked _ hs =>
    rw [hs] at hop ⊢
    exact hg hop
  | @started what _ ha hs =>
    have hb : what = .modeBack := by
      have := hs.op.symm.trans hop
      cases what <;> simp_all [Start.op]
    subst hb
    have hopen : c.gateOpen = true := ha.2
    rw [gateOpen_iff] at hopen ⊢
    exact ⟨hs.step1.trans hopen.1, hs.step2.trans hopen.2⟩
  | ended hs _ => cases hs.after.symm.trans hop

end Controller

namespace Window

variable {rc : RcSettings} {w : Window} {tr : List Step} {e : Event}

/-- The step reports that a mode step is complete. -/
def Completes (op : Op) (x : Step) : Prop :=
  .session (.sessionFinished (some op) true "Step complete") ∈ (machine.post x).out

/-- The gate is closed, and in every run from here an operation behind it is accepted only after
both mode steps have completed. -/
structure Relocked (w : Window) : Prop where
  closed : w.ctrl.gateOpen = false
  reopened : ∀ tr w' what, machine.Run w tr w' → what.Gated → w'.ctrl.Accepts what →
    (∃ x ∈ tr, Completes .modeStep1 x) ∧ ∃ x ∈ tr, Completes .modeStep2 x

/-- An active return to high speed has the gate open. -/
theorem openGate_run (hr : machine.Run (init rc) tr w) :
    w.Ok ∧ (w.ctrl.op = some .modeBack → w.ctrl.gateOpen = true) := by
  refine hr.invariant' (I := fun w => w.Ok ∧ (w.ctrl.op = some .modeBack → w.ctrl.gateOpen = true))
    ⟨ok_init rc, fun h => by cases h⟩ ?_
  rintro d e ⟨hok, hg⟩ he
  refine ⟨ok_handle hok he, fun hop => ?_⟩
  cases react_drives (w := d.cleared) he with
  | kept hc =>
    have hc' : (machine.step d e).ctrl = _ := hc
    rw [hc'] at hop ⊢
    exact hg hop
  | handled _ _ hc _ =>
    have hc' : (machine.step d e).ctrl = _ := hc
    rw [hc'] at hop ⊢
    exact Controller.openGate_handle hok.ctrl hg _ hop

/-- A flag that is set was set before or has been set by the end of its step. -/
theorem flags_run {w' : Window} (h : w.Ok) (hr : machine.Run w tr w') :
    (w'.ctrl.modeStep1Done = true → w.ctrl.modeStep1Done = true ∨ ∃ x ∈ tr, Completes .modeStep1 x) ∧
    (w'.ctrl.modeStep2Done = true → w.ctrl.modeStep2Done = true ∨ ∃ x ∈ tr, Completes .modeStep2 x) := by
  refine (hr.history (C := fun _ _ => True) (P := fun tr d => d.Ok ∧
    (d.ctrl.modeStep1Done = true → w.ctrl.modeStep1Done = true ∨ ∃ x ∈ tr, Completes .modeStep1 x) ∧
    (d.ctrl.modeStep2Done = true → w.ctrl.modeStep2Done = true ∨ ∃ x ∈ tr, Completes .modeStep2 x))
    ⟨h, .inl, .inl⟩ ?_ fun _ _ => trivial).2
  rintro tr d e - ⟨hok, h1, h2⟩ he -
  have hmono : ∀ op, (∃ x ∈ tr, Completes op x) → ∃ x ∈ tr ++ [(d, e)], Completes op x :=
    fun op ⟨x, hx, hc⟩ => ⟨x, List.mem_append_left _ hx, hc⟩
  have hlast : ∀ op, Completes op (d, e) → ∃ x ∈ tr ++ [(d, e)], Completes op x :=
    fun op hc => ⟨(d, e), List.mem_append_right _ (List.mem_singleton_self _), hc⟩
  refine ⟨ok_handle hok he, ?_⟩
  cases react_drives (w := d.cleared) he with
  | kept hc =>
    have hc' : (machine.step d e).ctrl = _ := hc
    rw [hc']
    exact ⟨fun hd => (h1 hd).imp_right (hmono _), fun hd => (h2 hd).imp_right (hmono _)⟩
  | handled _ _ hc hout =>
    have hc' : (machine.step d e).ctrl = _ := hc
    rw [hc']
    obtain ⟨hf1, hf2⟩ := Controller.flag_of_step hok.ctrl _
    constructor
    · intro hd
      rcases hf1 hd with hd | hm
      · exact (h1 hd).imp_right (hmono _)
      · exact .inr (hlast _ (hout _ hm rfl))
    · intro hd
      rcases hf2 hd with hd | hm
      · exact (h2 hd).imp_right (hmono _)
      · exact .inr (hlast _ (hout _ hm rfl))

/-- With the gate closed both steps are due. -/
theorem relocked_of_closed (h : w.Ok) (h1 : w.ctrl.modeStep1Done = false)
    (h2 : w.ctrl.modeStep2Done = false) : w.Relocked where
  closed := by simp [Controller.gateOpen, h1]
  reopened := by
    intro tr w' what hr hg ha
    obtain ⟨hf1, hf2⟩ := flags_run h hr
    obtain ⟨ho1, ho2⟩ := Controller.gateOpen_iff.1 (Controller.gateOpen_of_accepts ha hg)
    refine ⟨(hf1 ho1).resolve_left ?_, (hf2 ho2).resolve_left ?_⟩
    · simp [h1]
    · simp [h2]

/-- A cancel, by hand or with the connection, is one of the controller. -/
theorem cancels_ctrl (h : w.Cancels e) :
    ∃ up, (w.handle e).ctrl = { w.ctrl.handle .cancel with sendOk := up } := by
  cases e with
  | rpCancel => exact ⟨(w.ctrl.handle .cancel).sendOk, rfl⟩
  | connectClicked | connectionFieldChanged | workerStopped =>
    have hw : w.worker = true := h
    refine ⟨false, ?_⟩
    simp only [handle, react, onConnectClicked, onConnectionFieldChanged, onWorkerStopped, disconnect,
      cleared, sessionEvent, onBurnTestStop, setWorker, hw, if_true]
  | _ => exact h.elim

/-- The end of a return to high speed relocks the gate exactly if it is not a cancel. -/
theorem relock_iff (hr : machine.Run (init rc) tr w) (he : machine.enabled w e)
    (hf : some .modeBack ∈ finished (w.handle e).out) : (w.handle e).Relocked ↔ ¬ w.Cancels e := by
  obtain ⟨hok, hg⟩ := openGate_run hr
  have hok' := ok_handle hok he
  obtain ⟨hop, hend⟩ : w.ctrl.op = some .modeBack ∧ (w.handle e).ctrl.op = none := by
    have hnone : finished (w.handle e).out = finished w.cleared.out →
        w.ctrl.op = some .modeBack ∧ (w.handle e).ctrl.op = none := fun hn => by
      rw [hn] at hf
      cases hf
    cases handle_effect hok he with
    | kept hk _ _ _ _ => exact hnone hk.finished
    | reset _ _ hk _ => exact hnone hk.finished
    | unwaited _ _ _ _ hn _ => exact hnone hn
    | began _ _ _ _ _ _ _ _ hn => exact hnone hn
    | started _ _ _ _ _ hn => exact hnone hn
    | @ended op hend =>
      rw [hend.finished] at hf
      obtain rfl : .modeBack = op := by simpa [cleared, finished] using hf
      exact ⟨hend.before, hend.after⟩
  constructor
  · intro hl hc
    obtain ⟨up, hctrl⟩ := cancels_ctrl hc
    have hopen : (w.handle e).ctrl.gateOpen = (w.ctrl.handle .cancel).gateOpen := by
      rw [hctrl]
      rfl
    rw [Controller.kept_of_cancel, hg hop, hl.closed] at hopen
    cases hopen
  · intro hc
    cases react_drives (w := w.cleared) he with
    | kept hctrl =>
      have hctrl' : (w.handle e).ctrl = _ := hctrl
      rw [hctrl'] at hend
      cases hend.symm.trans hop
    | @handled ce up _ hcancel hctrl _ =>
      have hctrl' : (w.handle e).ctrl = _ := hctrl
      have hne : ce ≠ .cancel := by
        rintro rfl
        have hcc := hcancel rfl
        cases e <;> exact hc hcc
      rw [hctrl'] at hend
      obtain ⟨h1, h2⟩ := Controller.closed_of_ended hok.ctrl hop hne hend
      exact relocked_of_closed hok' (by rw [hctrl']; exact h1) (by rw [hctrl']; exact h2)

/-- Both mode steps and the start of a return to high speed. -/
def backStarted : List Event :=
  [.connectClicked, .rpStart .modeStep1, .frame (zeros 90) none false, .rpStart .modeStep2,
    .frame (zeros 90) none false, .rpStart .modeBack]

theorem backStarted_run : machine.Run (init Controller.sampleSettings)
    (machine.trace (init Controller.sampleSettings) backStarted)
    (machine.exec (init Controller.sampleSettings) backStarted) :=
  Machine.Allows.run ⟨Bool.false_ne_true, Bool.false_ne_true, trivial, Bool.false_ne_true, trivial,
    Bool.false_ne_true, trivial⟩

/-- No acknowledgement comes. -/
theorem relock_iff_settled :
    ((machine.exec (init Controller.sampleSettings) backStarted).handle .rpTimer).Relocked := by
  have he : machine.enabled (machine.exec (init Controller.sampleSettings) backStarted) .rpTimer := rfl
  exact (relock_iff backStarted_run he (.head _)).2 id

/-- The operator cancels while the window settles. -/
theorem cancel_keeps_gate_open : ¬ ∀ (rc : RcSettings) (tr : List Step) (w : Window) (e : Event),
    machine.Run (init rc) tr w → machine.enabled w e →
    some .modeBack ∈ finished (w.handle e).out → (w.handle e).Relocked := by
  intro hall
  have hl := hall _ _ _ .rpCancel backStarted_run Bool.false_ne_true (.head _)
  exact absurd hl.closed (by decide)

end Window

end QccGui
