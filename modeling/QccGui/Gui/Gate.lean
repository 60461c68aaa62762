import QccGui.Gui.Session
import QccGui.Lib.Segment

/-!
# The gate

The gate opens on two flags, one for each mode step, and the two steps are started independently.

* `Completed`: a whole session of a mode step, with the frame that began it.
* `GateSound`: since the gate was last closed Step 1 completed, and Step 2 after it, for one target.
* `StepsInOrder`: the condition on the events under which the open gate means that.
* `gate_soundness`, and `gate_opens_out_of_order`, a run that breaks the condition.
-/

namespace QccGui

open Lib

namespace Controller

/-- A step of a run of the controller. -/
abbrev Step := Controller × Event

/-- The frame of a mode change for a target. -/
def ModeFrame : Start → Target → Bytes → Prop
  | .modeStep1, target, frame => ∃ rc : RcSettings, frame = broadcastBootloaderFrame
      (rc.buildHeader commandIdDataDistribution).1 (buildModeChangeCommand bsnMssControl) target
  | .modeStep2, target, frame => ∃ rc : RcSettings, frame = qccLevelFrame
      (rc.buildHeader commandIdRemoteProgramming [qccBodySwitchLowSpeed, byte target.code]
        headerSize).1
  | .modeBack, target, frame => ∃ rc : RcSettings, frame = qccLevelFrame
      (rc.buildHeader commandIdRemoteProgramming [qccBodySwitchHighSpeed, byte target.code]
        headerSize).1
  | _, _, _ => False

/-- A session that an accepted start with `target` began and that is still active. -/
def Began (what : Start) (target : Target) (seg : List Step) : Prop :=
  ∃ x mid, seg = x :: mid ∧ x.2 = .start what ∧ x.1.op = none ∧
    (∃ frame, sends (machine.post x).out = [frame] ∧ ModeFrame what target frame) ∧
    ∀ y ∈ mid, y.1.op = some what.op

/-- A session that an accepted start with `target` began and that completed. -/
def Completed (what : Start) (target : Target) (seg : List Step) : Prop :=
  ∃ s y, seg = s ++ [y] ∧ Began what target s ∧ y.1.op = some what.op ∧ (machine.post y).op = none ∧
    .sessionFinished (some what.op) true "Step complete" ∈ (machine.post y).out

/-- The step takes a flag of the gate back. -/
def TakesBack (x : Step) : Prop :=
  (x.1.modeStep1Done = true ∧ (machine.post x).modeStep1Done = false) ∨
    (x.1.modeStep2Done = true ∧ (machine.post x).modeStep2Done = false)

/-- Step 1 completed and Step 2 after it, both for `target`. -/
def BothSteps (target : Target) : List Step → Prop :=
  Then (Completed .modeStep1 target) (Then (fun _ => True) (Before (Completed .modeStep2 target)))

/-- What an open gate should mean after the steps `tr`: since it was last closed both steps were
made for one target, the one that every frame of a return to high speed carries until the gate is
closed again, in the runs whose steps meet `C`. -/
def GateSound (C : Controller → Event → Prop) (tr : List Step) (c : Controller) : Prop :=
  ∃ target, Since TakesBack (BothSteps target) tr ∧
    ∀ tr' c', machine.Run c tr' c' → Machine.Along C tr' → (∀ x ∈ tr', ¬ TakesBack x) →
      c'.op = none → ∃ frame, sends (c'.handle (.start .modeBack)).out = [frame] ∧
        ModeFrame .modeBack target frame

/-- Step 2 is started only once Step 1 is done, and the target changes only while no session is
active and Step 1 is not done. -/
def StepsInOrder (c : Controller) : Event → Prop
  | .start .modeStep2 => c.op = none → c.modeStep1Done = true
  | .setTarget target => target = c.targetQtrm ∨ (c.op = none ∧ c.modeStep1Done = false)
  | _ => True

/-! ## The invariant -/

/-- What the steps so far say about the session and the flags. -/
structure GateInv (tr : List Step) (c : Controller) : Prop where
  ok : c.Ok
  active1 : c.op = some .modeStep1 → Since TakesBack (Began .modeStep1 c.targetQtrm) tr
  done1 : c.modeStep1Done = true →
    Since TakesBack (Before (Completed .modeStep1 c.targetQtrm)) tr
  active2 : c.op = some .modeStep2 → c.modeStep1Done = true ∧
    Since TakesBack (Then (Completed .modeStep1 c.targetQtrm)
      (Then (fun _ => True) (Began .modeStep2 c.targetQtrm))) tr
  done2 : c.modeStep2Done = true → c.modeStep1Done = true ∧
    Since TakesBack (BothSteps c.targetQtrm) tr

variable {tr : List Step} {c : Controller} {e : Event}

theorem Began.snoc {what : Start} {target : Target} {seg : List Step} {y : Step}
    (h : Began what target seg) (hy : y.1.op = some what.op) : Began what target (seg ++ [y]) := by
  obtain ⟨x, mid, rfl, h₁, h₂, h₃, hmid⟩ := h
  refine ⟨x, mid ++ [y], by simp, h₁, h₂, h₃, fun z hz => ?_⟩
  rcases List.mem_append.1 hz with hz | hz
  · exact hmid z hz
  · rwa [List.mem_singleton.1 hz]

/-- An accepted start of a mode change sends the frame for the current target. -/
theorem modeFrame_started {c' : Controller} {what : Start} (h : Started what c.cleared c')
    (hw : what = .modeStep1 ∨ what = .modeStep2 ∨ what = .modeBack) :
    ∃ frame, sends c'.out = [frame] ∧ ModeFrame what c.targetQtrm frame := by
  refine ⟨c.cleared.startFrame what, h.sends, ?_⟩
  rcases hw with rfl | rfl | rfl
  · exact ⟨c.rc, rfl⟩
  · exact ⟨c.rc, rfl⟩
  · exact ⟨c.rc, rfl⟩

theorem began_started {what : Start} (h : Started what c.cleared (c.handle (.start what)))
    (hop : c.op = none) (hw : what = .modeStep1 ∨ what = .modeStep2 ∨ what = .modeBack) :
    Began what c.targetQtrm [(c, .start what)] := by
  refine ⟨(c, .start what), [], rfl, rfl, hop, ?_, by simp⟩
  rw [Machine.post_mk]
  exact modeFrame_started h hw

/-- A step that keeps the session, the flags and the target. -/
theorem GateInv.keep (h : GateInv tr c) (hok : (c.handle e).Ok) (hop : (c.handle e).op = c.op)
    (h1 : (c.handle e).modeStep1Done = c.modeStep1Done)
    (h2 : (c.handle e).modeStep2Done = c.modeStep2Done)
    (ht : (c.handle e).targetQtrm = c.targetQtrm) : GateInv (tr ++ [(c, e)]) (c.handle e) := by
  have hx : ¬ TakesBack (c, e) := by simp [TakesBack, machine, h1, h2]
  refine ⟨hok, ?_, ?_, ?_, ?_⟩ <;> rw [ht]
  · exact fun ha => (h.active1 (hop ▸ ha)).snoc hx fun b hb => hb.snoc (hop ▸ ha)
  · exact fun hd => (h.done1 (h1 ▸ hd)).snoc hx fun b hb => hb.snoc _
  · intro ha
    obtain ⟨hd, hs⟩ := h.active2 (hop ▸ ha)
    exact ⟨h1 ▸ hd, hs.snoc hx fun b hb => hb.snoc fun _ hb => hb.snoc fun _ hb => hb.snoc (hop ▸ ha)⟩
  · intro hd2
    obtain ⟨hd, hs⟩ := h.done2 (h2 ▸ hd2)
    exact ⟨h1 ▸ hd, hs.snoc hx fun b hb => hb.snoc fun _ hb => hb.snoc fun _ hb => hb.snoc _⟩

/-- An accepted start. -/
theorem GateInv.start {what : Start} (h : GateInv tr c) (hok : (c.handle (.start what)).Ok)
    (ha : c.Accepts what) (hs : Started what c.cleared (c.handle (.start what)))
    (hc : StepsInOrder c (.start what)) :
    GateInv (tr ++ [(c, .start what)]) (c.handle (.start what)) := by
  have h1 : (c.handle (.start what)).modeStep1Done = c.modeStep1Done := hs.step1
  have h2 : (c.handle (.start what)).modeStep2Done = c.modeStep2Done := hs.step2
  have ht : (c.handle (.start what)).targetQtrm = c.targetQtrm := hs.target
  have hx : ¬ TakesBack (c, .start what) := by simp [TakesBack, machine, h1, h2]
  refine ⟨hok, ?_, ?_, ?_, ?_⟩ <;> rw [ht]
  · intro hop
    obtain rfl : what = .modeStep1 := by
      have := hs.op.symm.trans hop
      cases what <;> simp_all [Start.op]
    exact since_begin hx (began_started hs ha.1 (.inl rfl))
  · exact fun hd => (h.done1 (h1 ▸ hd)).snoc hx fun b hb => hb.snoc _
  · intro hop
    obtain rfl : what = .modeStep2 := by
      have := hs.op.symm.trans hop
      cases what <;> simp_all [Start.op]
    have hd := hc ha.1
    exact ⟨h1 ▸ hd, (h.done1 hd).snoc hx fun b hb =>
      hb.begin (began_started hs ha.1 (.inr (.inl rfl)))⟩
  · intro hd2
    obtain ⟨hd, hs⟩ := h.done2 (h2 ▸ hd2)
    exact ⟨h1 ▸ hd, hs.snoc hx fun b hb => hb.snoc fun _ hb => hb.snoc fun _ hb => hb.snoc _⟩

/-- The end of a session. -/
theorem GateInv.finish {op : Op} (h : GateInv tr c) (hok : (c.handle e).Ok)
    (he : Ended op c.cleared (c.handle e)) : GateInv (tr ++ [(c, e)]) (c.handle e) := by
  have ht : (c.handle e).targetQtrm = c.targetQtrm := he.target
  have hop : c.op = some op := he.before
  have hno : (c.handle e).op = none := he.after
  refine ⟨hok, by simp [hno], ?_, by simp [hno], ?_⟩ <;> rw [ht]
  · intro hd
    cases he.marks with
    | kept h1 h2 =>
      have hx : ¬ TakesBack (c, e) := by simp [TakesBack, machine, h1, h2, cleared]
      exact (h.done1 (h1 ▸ hd)).snoc hx fun b hb => hb.snoc _
    | step1 ho h1 h2 hm =>
      subst ho
      have hx : ¬ TakesBack (c, e) := by simp [TakesBack, machine, h1, h2, cleared]
      exact (h.active1 hop).snoc hx fun b hb => before_self ⟨b, (c, e), rfl, hb, hop, hno, hm⟩
    | step2 ho h1 h2 hm =>
      have hx : ¬ TakesBack (c, e) := by simp [TakesBack, machine, h1, h2, cleared]
      exact (h.done1 (h1 ▸ hd)).snoc hx fun b hb => hb.snoc _
    | closed ho h1 h2 => simp [h1] at hd
  · intro hd2
    cases he.marks with
    | kept h1 h2 =>
      have hx : ¬ TakesBack (c, e) := by simp [TakesBack, machine, h1, h2, cleared]
      obtain ⟨hd, hs⟩ := h.done2 (h2 ▸ hd2)
      exact ⟨h1 ▸ hd, hs.snoc hx fun b hb => hb.snoc fun _ hb => hb.snoc fun _ hb => hb.snoc _⟩
    | step1 ho h1 h2 hm =>
      have hx : ¬ TakesBack (c, e) := by simp [TakesBack, machine, h1, h2, cleared]
      obtain ⟨hd, hs⟩ := h.done2 (h2 ▸ hd2)
      exact ⟨h1, hs.snoc hx fun b hb => hb.snoc fun _ hb => hb.snoc fun _ hb => hb.snoc _⟩
    | step2 ho h1 h2 hm =>
      subst ho
      have hx : ¬ TakesBack (c, e) := by simp [TakesBack, machine, h1, h2, cleared]
      obtain ⟨hd, hs⟩ := h.active2 hop
      exact ⟨h1 ▸ hd, hs.snoc hx fun b hb => hb.snoc fun _ hb => hb.snoc fun b hb =>
        before_self ⟨b, (c, e), rfl, hb, hop, hno, hm⟩⟩
    | closed ho h1 h2 => simp [h2] at hd2

theorem gateInv_init (rc : RcSettings) : GateInv [] (init rc) :=
  ⟨ok_init rc, nofun, nofun, nofun, nofun⟩

theorem GateInv.step (h : GateInv tr c) (he : machine.enabled c e) (hc : StepsInOrder c e) :
    GateInv (tr ++ [(c, e)]) (c.handle e) := by
  have hok := ok_handle h.ok he
  cases handle_effect h.ok e with
  | same hs _ _ => exact h.keep hok hs.op hs.step1 hs.step2 hs.target
  | linked _ hs => exact h.keep hok (by rw [hs]; rfl) (by rw [hs]; rfl) (by rw [hs]; rfl) (by rw [hs]; rfl)
  | started ha hacc hs =>
    subst ha
    exact h.start hok hacc hs hc
  | ended hs _ => exact h.finish hok hs
  | @retargeted target ha hs =>
    subst ha
    rcases hc with rfl | ⟨hop, h1⟩
    · exact h.keep hok (by rw [hs]; rfl) (by rw [hs]; rfl) (by rw [hs]; rfl) (by rw [hs])
    · have hop' : (c.handle (.setTarget target)).op = none := by rw [hs]; exact hop
      have h1' : (c.handle (.setTarget target)).modeStep1Done = false := by rw [hs]; exact h1
      have h2' : (c.handle (.setTarget target)).modeStep2Done = c.modeStep2Done := by rw [hs]; rfl
      refine ⟨hok, by simp [hop'], by simp [h1'], by simp [hop'], fun hd2 => ?_⟩
      have := (h.done2 (h2' ▸ hd2)).1
      simp [h1] at this

theorem gateInv_run {rc : RcSettings} (hr : machine.Run (init rc) tr c)
    (hc : Machine.Along StepsInOrder tr) : GateInv tr c :=
  hr.history (P := GateInv) (gateInv_init rc) (fun _ _ _ _ h he hc => h.step he hc) hc

/-! ## The open gate -/

/-- While the gate stays open the target stays the same. -/
theorem target_kept {tr' : List Step} {c' : Controller} (h : c.Ok) (h1 : c.modeStep1Done = true)
    (h2 : c.modeStep2Done = true) (hr : machine.Run c tr' c') (hc : Machine.Along StepsInOrder tr')
    (hb : ∀ x ∈ tr', ¬ TakesBack x) : c'.gateOpen = true ∧ c'.targetQtrm = c.targetQtrm := by
  have hk := hr.invariant
    (I := fun d => d.Ok ∧ (d.modeStep1Done = true ∧ d.modeStep2Done = true) ∧
      d.targetQtrm = c.targetQtrm)
    (C := fun s e => StepsInOrder s e ∧ ¬ TakesBack (s, e)) ⟨h, ⟨h1, h2⟩, rfl⟩ ?_
    fun x hx => ⟨hc x hx, hb x hx⟩
  · simp [gateOpen, hk.2.1, hk.2.2]
  rintro d e ⟨hok, ⟨hd1, hd2⟩, ht⟩ he ⟨hord, hback⟩
  refine ⟨ok_handle hok he, ?_, ?_⟩
  · simpa [TakesBack, hd1, hd2] using hback
  · rw [← ht]
    cases handle_effect hok e with
    | same hs _ _ => exact hs.target
    | linked _ hs => rw [show machine.step d e = d.handle e from rfl, hs]; rfl
    | started _ _ hs => exact hs.target
    | ended hs _ => exact hs.target
    | @retargeted target ha hs =>
      subst ha
      rcases hord with rfl | ⟨-, hn⟩
      · rw [show machine.step d _ = d.handle _ from rfl, hs]
      · simp [hd1] at hn

/-- In a run whose steps are in order the open gate means what it says. -/
theorem gate_soundness {rc : RcSettings} (hr : machine.Run (init rc) tr c)
    (hc : Machine.Along StepsInOrder tr) (hg : c.gateOpen = true) : GateSound StepsInOrder tr c := by
  have hi := gateInv_run hr hc
  obtain ⟨h1, h2⟩ : c.modeStep1Done = true ∧ c.modeStep2Done = true := by
    simpa [gateOpen] using hg
  refine ⟨c.targetQtrm, (hi.done2 h2).2, fun tr' c' hr' hc' hb hop => ?_⟩
  obtain ⟨hg', ht⟩ := target_kept hi.ok h1 h2 hr' hc' hb
  have hs : Started .modeBack c'.cleared (c'.handle (.start .modeBack)) :=
    startOp_accepted ⟨hop, hg'⟩
  rw [← ht]
  exact modeFrame_started hs (.inr (.inr rfl))

/-- The header settings of the runs below. -/
def sampleSettings : RcSettings := { date := 1, month := 1, year := 2026, timeOfDay := 0 }

/-- Step 1, its response, Step 2, its response. -/
theorem gate_soundness_both_steps : GateSound StepsInOrder
    (machine.trace (init sampleSettings)
      [.start .modeStep1, .frame (zeros 90), .start .modeStep2, .frame (zeros 90)])
    (machine.exec (init sampleSettings)
      [.start .modeStep1, .frame (zeros 90), .start .modeStep2, .frame (zeros 90)]) := by
  have hen : machine.Allows (init sampleSettings)
      [.start .modeStep1, .frame (zeros 90), .start .modeStep2, .frame (zeros 90)] :=
    ⟨trivial, trivial, trivial, trivial, trivial⟩
  refine gate_soundness hen.run ?_ rfl
  simp only [Machine.trace, Machine.along_cons, Machine.along_nil, and_true]
  exact ⟨trivial, trivial, fun _ => rfl, trivial⟩

/-- Where both steps completed, a start of Step 2 comes after a start of Step 1. -/
theorem ordered_of_bothSteps {target : Target} (h : Since TakesBack (BothSteps target) tr) :
    ∃ a b, Machine.events tr = a ++ b ∧ .start .modeStep1 ∈ a ∧ .start .modeStep2 ∈ b := by
  obtain ⟨pre, seg, rfl, -, s1, t1, rfl, hc1, s2, t2, rfl, -, s3, s4, rfl, hc2, -⟩ := h
  obtain ⟨b1, y1, rfl, ⟨x1, m1, rfl, hx1, -⟩, -⟩ := hc1
  obtain ⟨b2, y2, rfl, ⟨x2, m2, rfl, hx2, -⟩, -⟩ := hc2
  refine ⟨Machine.events (pre ++ (x1 :: m1 ++ [y1])), Machine.events (s2 ++ (x2 :: m2 ++ [y2] ++ s4)),
    by simp, ?_, ?_⟩
  · simp [hx1]
  · simp [hx2]

/-- The gate opens although Step 2 completed before Step 1 was started. -/
theorem gate_opens_out_of_order : ∃ tr c, machine.Run (init sampleSettings) tr c ∧
    Machine.events tr =
      [.start .modeStep2, .frame (zeros 90), .start .modeStep1, .frame (zeros 90)] ∧
    c.gateOpen = true ∧ ¬ ∃ target, Since TakesBack (BothSteps target) tr := by
  have hen : machine.Allows (init sampleSettings)
      [.start .modeStep2, .frame (zeros 90), .start .modeStep1, .frame (zeros 90)] :=
    ⟨trivial, trivial, trivial, trivial, trivial⟩
  refine ⟨_, _, hen.run, Machine.events_trace, rfl, fun ⟨target, h⟩ => ?_⟩
  obtain ⟨a, b, hab, ha, hb⟩ := ordered_of_bothSteps h
  rw [Machine.events_trace] at hab
  -- what follows the start of Step 1 is one frame
  rcases a with _ | ⟨a1, _ | ⟨a2, _ | ⟨a3, a⟩⟩⟩
  · simp at ha
  · obtain ⟨rfl, -⟩ := List.cons.inj hab
    simp at ha
  · simp only [List.cons_append, List.cons.injEq] at hab
    obtain ⟨rfl, rfl, -⟩ := hab
    simp at ha
  · simp only [List.cons_append, List.cons.injEq] at hab
    have : .start .modeStep2 ∈ a ++ b := List.mem_append_right a hb
    rw [← hab.2.2.2] at this
    simp at this

end Controller

end QccGui
