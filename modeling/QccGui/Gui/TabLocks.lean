import QccGui.Gui.Mirror
import QccGui.Gui.Gate

/-!
# What the tab locks

Two locks of the Remote Programming tab, over every run of the window with its tab.

* `program_locks`: once a Program was started nothing but the return to high speed can be started,
  as long as the gate stays open.
* `target_locked`: as long as Step 1 is done the target is the one that its frame was for, and the
  next mode change carries it.
-/

namespace QccGui

open Lib

namespace Panel

variable {p : Panel} {e : Event} {rc : RcSettings} {tr : List Step}

/-- The step begins a session of `op`. -/
def Begins (op : Op) (x : Step) : Prop :=
  x.1.window.ctrl.op = none ∧ (machine.post x).window.ctrl.op = some op

/-- An event other than a start begins no session. -/
theorem op_of_handled {c : Controller} (hok : c.Ok) {ce : Controller.Event}
    (hne : ∀ what, ce ≠ .start what) {up : Bool}
    (hc : (machine.post (p, e)).window.ctrl = { c.handle ce with sendOk := up }) {op : Op}
    (hop : c.op = none) : (machine.post (p, e)).window.ctrl.op ≠ some op := by
  intro hb
  rw [hc] at hb
  have hidle : (c.handle ce).op = c.op := (Controller.idle_handle hok hop hne).1
  exact nomatch (hop.symm.trans (hidle.symm.trans hb))

/-- A session begins with an accepted start, whose frame is handed over. -/
theorem Begins.started (h : Mirror p) (he : machine.enabled p e) {op : Op}
    (hb : Begins op (p, e)) : ∃ what : Controller.Start, what.op = op ∧
      (p.tab.programmed = true → what = .modeBack) ∧
      (machine.post (p, e)).tab = p.tab.markSessionStarted op ∧
      handed (machine.post (p, e)).window.out = [(.session, p.window.ctrl.startFrame what)] := by
  obtain ⟨hop, hb⟩ := hb
  cases h.effect he with
  | still hs _ =>
    obtain ⟨rc, up, hs⟩ := hs
    have hs : (machine.post (p, e)).window.ctrl = { p.window.ctrl with rc, sendOk := up } := hs
    rw [hs] at hb
    exact nomatch hop.symm.trans hb
  | session hne _ hs _ => exact absurd hb (op_of_handled h.ok.ctrl hne hs hop)
  | @started what hac hl hs htab hh =>
    have hwhat : (p.window.ctrl.handle (.start what)).op = some what.op :=
      (Controller.startOp_accepted (c := p.window.ctrl.cleared) hac).op
    have hs : (machine.post (p, e)).window.ctrl = p.window.ctrl.handle (.start what) := hs
    rw [hs, hwhat] at hb
    obtain rfl := Option.some.inj hb
    exact ⟨what, rfl, hl, htab, hh⟩

/-! ## After a Program -/

/-- Only what closes the gate takes the lock away. -/
theorem programmed_step (h : Mirror p) (he : machine.enabled p e) (hp : p.tab.programmed = true)
    (hg : (machine.post (p, e)).window.ctrl.gateOpen = true) :
    (machine.post (p, e)).tab.programmed = true := by
  have hend : ∀ t : TabGate, t.programmed = true → ∀ (op : Op) (ok : Bool),
      (ok = true → op ≠ .modeBack) → (t.onSessionFinished (some op) ok).programmed = true := by
    intro t ht op ok hok
    cases ok with
    | false => simp [TabGate.onSessionFinished, ht]
    | true => simp [TabGate.onSessionFinished, ht, hok rfl]
  cases h.effect he with
  | still _ htab =>
    have htab : (machine.post (p, e)).tab.programmed = p.tab.programmed := by
      rw [Machine.post, machine, htab]
    rw [htab, hp]
  | started _ _ _ htab _ =>
    have htab : (machine.post (p, e)).tab = p.tab.markSessionStarted _ := htab
    rw [htab]
    simp [TabGate.markSessionStarted, hp]
  | @session ce up hne _ hs htab =>
    have hs : (machine.post (p, e)).window.ctrl = { p.window.ctrl.handle ce with sendOk := up } := hs
    have htab : (machine.post (p, e)).tab =
      (news (p.window.ctrl.handle ce).out).foldl TabGate.receive p.tab := htab
    have hg : (p.window.ctrl.handle ce).gateOpen = true := by
      rw [hs] at hg
      exact hg
    have hn : news p.window.ctrl.cleared.out = [] := rfl
    rw [htab]
    cases Controller.handle_told h.ok.ctrl ce with
    | still ht _ =>
      rw [ht.news]
      exact hp
    | set ht =>
      rcases ht with ⟨target, -, ht⟩ | ⟨up, -, ht⟩
      · rw [ht]
        exact hp
      · rw [ht]
        exact hp
    | started ht _ _ _ => exact absurd ht (hne _)
    | ended ht _ =>
      cases ht with
      | plain _ _ _ hok hnews =>
        rw [hnews, hn]
        exact hend _ hp _ _ fun h => (hok h).2
      | step1 hop | step2 hop =>
        -- not while the lock holds
        have hl := (h.agrees.locked hp).2
        have hop : p.window.ctrl.op = some _ := hop
        simp [hop] at hl
      | closed _ _ _ h1 _ _ =>
        rw [Controller.gateOpen, h1] at hg
        cases hg

/-- As long as the gate stays open after the start of a Program, the next session can only be the
return to high speed, whose button is the only one that starts anything. -/
theorem program_locks {pre mid : List Step} {x : Step}
    (hr : machine.Run (init rc) (pre ++ x :: mid) p) (hx : Begins .program x)
    (hg : ∀ y ∈ mid, (machine.post y).window.ctrl.gateOpen = true) :
    (∀ e op, machine.enabled p e → Begins op (p, e) → op = .modeBack) ∧
    ∀ b what, Button.Stands p b what → p.tab.activeIapOp ≠ some what.op →
      p.tab.enabled b = true → b = .modeBack := by
  obtain ⟨hr₁, he, hr₂⟩ := hr.middle
  have hm : Mirror x.1 := mirror_run hr₁
  obtain ⟨what, -, -, htab, -⟩ := hx.started hm he
  have hstart : (machine.post x).tab.programmed = true := by
    have htab : (machine.post x).tab = x.1.tab.markSessionStarted .program := htab
    rw [htab]
    simp [TabGate.markSessionStarted]
  have hinv : Mirror p ∧ p.tab.programmed = true :=
    hr₂.invariant (I := fun q => Mirror q ∧ q.tab.programmed = true)
      (C := fun q e => (machine.post (q, e)).window.ctrl.gateOpen = true) ⟨hm.step he, hstart⟩
      (fun _ _ h he hc => ⟨h.1.step he, programmed_step h.1 he h.2 hc⟩) hg
  refine ⟨fun e op he hb => ?_, fun b what hs hstop hb => ?_⟩
  · obtain ⟨what, rfl, hl, -⟩ := hb.started hinv.1 he
    rw [hl hinv.2]
    rfl
  · have hwhat := (accepts_of_enabled hinv.1.agrees hb hs hstop).2 hinv.2
    subst hwhat
    cases b <;> simp [Button.Stands] at hs ⊢

/-- A Program whose window has closed. -/
theorem program_locks_sent :
    let asked := machine.exec (init Controller.sampleSettings) programAsked
    let sent := machine.step asked (.answer true)
    let p := machine.step sent (.window .rpTimer)
    p.tab.programmed = true ∧
      ∀ e op, machine.enabled p e → Begins op (p, e) → op = .modeBack := by
  intro asked sent p
  have hanswer : machine.enabled asked (.answer true) := nofun
  have htimer : machine.enabled sent (.window .rpTimer) := ⟨rfl, id, fun h => absurd rfl h⟩
  have hr : machine.Run (init Controller.sampleSettings)
      (machine.trace (init Controller.sampleSettings) programAsked ++
        (asked, .answer true) :: [(sent, .window .rpTimer)]) p :=
    programAsked_allows.run.append (.cons hanswer (.single htimer))
  refine ⟨rfl, (program_locks hr ⟨rfl, rfl⟩ fun y hy => ?_).1⟩
  obtain rfl := List.mem_singleton.1 hy
  rfl

/-! ## The target -/

/-- A session of Step 1 for `target` that is still active. -/
def Step1Began (target : Target) (seg : List Step) : Prop :=
  ∃ x mid, seg = x :: mid ∧ x.1.window.ctrl.op = none ∧
    (∃ frame, handed (machine.post x).window.out = [(.session, frame)] ∧
      Controller.ModeFrame .modeStep1 target frame) ∧
    ∀ y ∈ mid, y.1.window.ctrl.op = some .modeStep1

/-- A session of Step 1 for `target` that was done. -/
def Step1Completed (target : Target) (seg : List Step) : Prop :=
  ∃ s y, seg = s ++ [y] ∧ Step1Began target s ∧ y.1.window.ctrl.op = some .modeStep1 ∧
    (machine.post y).window.ctrl.op = none ∧ (machine.post y).window.ctrl.modeStep1Done = true

/-- The frame of a mode change is for the target at its start. -/
theorem modeFrame_startFrame (c : Controller) {what : Controller.Start}
    (hw : what.op = .modeStep1 ∨ what.op = .modeStep2 ∨ what.op = .modeBack) :
    Controller.ModeFrame what c.targetQtrm (c.startFrame what) := by
  cases what with
  | modeStep1 => exact ⟨c.rc, rfl⟩
  | modeStep2 => exact ⟨c.rc, rfl⟩
  | modeBack => exact ⟨c.rc, rfl⟩
  | _ => simp [Controller.Start.op] at hw

/-- The step changes the target. -/
def Retargets (x : Step) : Prop :=
  (machine.post x).window.ctrl.targetQtrm ≠ x.1.window.ctrl.targetQtrm

/-- What the steps so far say about the target. -/
structure TargetInv (tr : List Step) (p : Panel) : Prop where
  mirror : Mirror p
  active : p.window.ctrl.op = some .modeStep1 →
    Since Retargets (Step1Began p.window.ctrl.targetQtrm) tr
  done : p.window.ctrl.modeStep1Done = true →
    Since Retargets (Before (Step1Completed p.window.ctrl.targetQtrm)) tr

theorem Step1Began.snoc {target : Target} {seg : List Step} {y : Step} (h : Step1Began target seg)
    (hy : y.1.window.ctrl.op = some .modeStep1) : Step1Began target (seg ++ [y]) := by
  obtain ⟨x, mid, rfl, h₁, h₂, hmid⟩ := h
  refine ⟨x, mid ++ [y], rfl, h₁, h₂, fun z hz => ?_⟩
  rcases List.mem_append.1 hz with hz | hz
  · exact hmid z hz
  · rwa [List.mem_singleton.1 hz]

/-- A step that keeps the target, and begins no Step 1. -/
theorem TargetInv.keep (h : TargetInv tr p) (hm : Mirror (p.handle e))
    (ht : (p.handle e).window.ctrl.targetQtrm = p.window.ctrl.targetQtrm)
    (ha : (p.handle e).window.ctrl.op = some .modeStep1 → p.window.ctrl.op = some .modeStep1)
    (hd : (p.handle e).window.ctrl.modeStep1Done = true → p.window.ctrl.modeStep1Done = true ∨
      p.window.ctrl.op = some .modeStep1 ∧ (p.handle e).window.ctrl.op = none) :
    TargetInv (tr ++ [(p, e)]) (p.handle e) := by
  have hx : ¬ Retargets (p, e) := not_not.2 ht
  refine ⟨hm, fun ha' => ?_, fun hd' => ?_⟩
  · rw [ht]
    exact (h.active (ha ha')).snoc hx fun b hb => hb.snoc (ha ha')
  · rw [ht]
    rcases hd hd' with hd | ⟨hop, hnone⟩
    · exact (h.done hd).snoc hx fun b hb => hb.snoc _
    · exact (h.active hop).snoc hx fun b hb => before_self ⟨b, (p, e), rfl, hb, hop, hnone, hd'⟩

/-- The target is changed only where neither Step 1 nor any session is in force. -/
theorem op_of_targetEnabled (h : Mirror p) (ht : p.tab.targetEnabled = true) :
    p.window.ctrl.op = none ∧ p.window.ctrl.modeStep1Done = false := by
  simp only [TabGate.targetEnabled, Bool.and_eq_true, Bool.not_eq_true', h.agrees.active,
    h.agrees.step1] at ht
  exact ⟨by simpa [Controller.busy] using ht.1, ht.2⟩

theorem targetInv_step (h : TargetInv tr p) (he : machine.enabled p e) :
    TargetInv (tr ++ [(p, e)]) (p.handle e) := by
  have hm : Mirror (p.handle e) := h.mirror.step he
  cases h.mirror.effect he with
  | still hs _ =>
    obtain ⟨rc, up, hs⟩ := hs
    refine h.keep hm ?_ ?_ ?_ <;> rw [hs]
    · exact id
    · exact .inl
  | @started what hac _ hs _ hh =>
    have hst : Controller.Started what p.window.ctrl.cleared (p.window.ctrl.handle (.start what)) :=
      Controller.startOp_accepted (c := p.window.ctrl.cleared) hac
    have hop : (p.handle e).window.ctrl.op = some what.op := by rw [hs]; exact hst.op
    have ht : (p.handle e).window.ctrl.targetQtrm = p.window.ctrl.targetQtrm := by
      rw [hs]
      exact hst.target
    have h1 : (p.handle e).window.ctrl.modeStep1Done = p.window.ctrl.modeStep1Done := by
      rw [hs]
      exact hst.step1
    have hx : ¬ Retargets (p, e) := not_not.2 ht
    refine ⟨hm, fun ha => ?_, fun hd => ?_⟩
    · rw [ht]
      obtain rfl : what = .modeStep1 := by
        rw [hop] at ha
        cases what with
        | modeStep1 => rfl
        | _ => cases ha
      have hframe : Controller.ModeFrame .modeStep1 p.window.ctrl.targetQtrm
          (p.window.ctrl.startFrame .modeStep1) := modeFrame_startFrame _ (.inl rfl)
      exact since_begin hx ⟨(p, e), [], rfl, hac.1, ⟨_, hh, hframe⟩, fun _ hy => nomatch hy⟩
    · rw [ht]
      exact (h.done (h1.symm.trans hd)).snoc hx fun b hb => hb.snoc _
  | @session ce up hne hset hs _ =>
    have hkeep : (p.window.ctrl.handle ce).targetQtrm = p.window.ctrl.targetQtrm →
        ((p.window.ctrl.handle ce).op = some .modeStep1 → p.window.ctrl.op = some .modeStep1) →
        ((p.window.ctrl.handle ce).modeStep1Done = true → p.window.ctrl.modeStep1Done = true ∨
          p.window.ctrl.op = some .modeStep1 ∧ (p.window.ctrl.handle ce).op = none) →
        TargetInv (tr ++ [(p, e)]) (p.handle e) := by
      intro ht ha hd
      refine h.keep hm ?_ ?_ ?_ <;> rw [hs]
      · exact ht
      · exact ha
      · exact hd
    cases Controller.handle_told h.mirror.ok.ctrl ce with
    | still ht _ =>
      exact hkeep ht.same.target ht.same.op.symm.trans fun hd => .inl (ht.same.step1.symm.trans hd)
    | set ht =>
      rcases ht with ⟨target, rfl, ht⟩ | ⟨up, -, ht⟩
      · obtain ⟨hop, h1⟩ := op_of_targetEnabled h.mirror (hset target rfl)
        have hop' : (p.handle e).window.ctrl.op = none := by rw [hs, ht]; exact hop
        have h1' : (p.handle e).window.ctrl.modeStep1Done = false := by rw [hs, ht]; exact h1
        exact ⟨hm, fun ha => (nomatch hop'.symm.trans ha), fun hd => (nomatch h1'.symm.trans hd)⟩
      · refine hkeep ?_ ?_ ?_ <;> rw [ht]
        · rfl
        · exact id
        · exact .inl
    | started ht _ _ _ => exact absurd ht (hne _)
    | ended ht _ =>
      cases ht with
      | plain _ hsame hno _ _ =>
        exact hkeep hsame.target (fun ha => nomatch hno.symm.trans ha) fun hd =>
          .inl (hsame.step1.symm.trans hd)
      | step1 hop htarget hno _ _ _ =>
        exact hkeep htarget (fun ha => nomatch hno.symm.trans ha) fun _ => .inr ⟨hop, hno⟩
      | step2 _ htarget hno h1 _ _ =>
        exact hkeep htarget (fun ha => nomatch hno.symm.trans ha) fun hd => .inl (h1.symm.trans hd)
      | closed _ htarget hno h1 _ _ =>
        exact hkeep htarget (fun ha => nomatch hno.symm.trans ha) fun hd => nomatch h1.symm.trans hd

theorem targetInv_run (hr : machine.Run (init rc) tr p) : TargetInv tr p :=
  hr.history (C := fun _ _ => True)
    ⟨mirror_init rc, fun ha => (nomatch ha), fun hd => (nomatch hd)⟩
    (fun _ _ _ _ h he _ => targetInv_step h he) fun _ _ => trivial

/-- As long as Step 1 is done the target has not changed since the start of a Step 1 for it that
was done, and the next mode change is for this target. -/
theorem target_locked (hr : machine.Run (init rc) tr p)
    (h1 : p.window.ctrl.modeStep1Done = true) : ∃ target,
    Since Retargets (Before (Step1Completed target)) tr ∧
    ∀ e op, machine.enabled p e → Begins op (p, e) →
      ∃ what : Controller.Start, what.op = op ∧
      ∃ frame, handed (machine.post (p, e)).window.out = [(.session, frame)] ∧
        (op = .modeStep1 ∨ op = .modeStep2 ∨ op = .modeBack →
          Controller.ModeFrame what target frame) := by
  have h := targetInv_run hr
  refine ⟨_, h.done h1, fun e op he hb => ?_⟩
  obtain ⟨what, rfl, -, -, hh⟩ := hb.started h.mirror he
  exact ⟨what, rfl, _, hh, modeFrame_startFrame p.window.ctrl⟩

theorem target_locked_program_asked : ∃ target,
    Since Retargets (Before (Step1Completed target))
      (machine.trace (init Controller.sampleSettings) programAsked) := by
  obtain ⟨target, hs, -⟩ := target_locked programAsked_allows.run rfl
  exact ⟨target, hs⟩

end Panel

end QccGui
