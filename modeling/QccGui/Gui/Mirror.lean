import QccGui.Gui.TabGate
import QccGui.Gui.Gate

/-!
# The tab mirrors the controller

The account that the Remote Programming tab keeps of the gate and the session is that of the
controller, in every run of the window with its tab.

* `Relays`: what an event of the window does to the controller and tells the tab.
* `Mirror`: the invariant of the window with its tab.
* `Effect`: what a step does to the controller and to the tab's account.
* `tab_mirrors`: the buttons offer what the controller accepts, and nothing offered is refused.
-/

namespace QccGui

open Lib

namespace Window

variable {w w' : Window} {e : Event}

@[simp] theorem tabNews_append (a b : List Output) : tabNews (a ++ b) = tabNews a ++ tabNews b :=
  List.filterMap_append

@[simp] theorem tabNews_emit (o : Output) :
    tabNews (w.emit o).out = tabNews w.out ++ o.news?.toList := filterMap_snoc ..

/-- A frame of the controller is no news. -/
theorem tabNews_forward (up : Bool) (out : List Signal) :
    tabNews (out.filterMap (forward up)) = news out := by
  have hs : ∀ s, (forward up s).bind Output.news? = s.news? := by
    intro s
    cases s with
    | send frame => cases up <;> rfl
    | _ => rfl
  rw [tabNews, List.filterMap_filterMap, news]
  exact List.filterMap_congr fun s _ => hs s

theorem tabNews_sessionEvent (ce : Controller.Event) :
    tabNews (w.sessionEvent ce).out = tabNews w.out ++ news (w.ctrl.handle ce).out := by
  rw [sessionEvent, tabNews_append, tabNews_forward]

/-! ## What the window tells its tab -/

/-- What an event that starts no session does to the controller, and what the tab is told. -/
inductive Relays (w : Window) (e : Event) (w' : Window) : Prop
  | still : (∃ rc up, w'.ctrl = { w.ctrl with rc, sendOk := up }) → tabNews w'.out = tabNews w.out →
      Relays w e w'
  | session {ce : Controller.Event} {up : Bool} : (∀ what, ce ≠ .start what) →
      (∀ target, ce = .setTarget target → e = .rpTargetQtrmChanged target) →
      w'.ctrl = { w.ctrl.handle ce with sendOk := up } →
      tabNews w'.out = tabNews w.out ++ news (w.ctrl.handle ce).out → Relays w e w'

theorem relays_quiet (hq : Quiet w w') : Relays w e w' := by
  refine .still hq.ctrl ?_
  rcases hq.out with ho | ⟨title, text, ho⟩
  · rw [ho]
  · rw [ho, tabNews_append]
    exact List.append_nil _

theorem relays_sessionEvent {ce : Controller.Event} (hne : ∀ what, ce ≠ .start what)
    (ht : ∀ target, ce = .setTarget target → e = .rpTargetQtrmChanged target) :
    Relays w e (w.sessionEvent ce) := by
  have hctrl : (w.sessionEvent ce).ctrl =
      { w.ctrl.handle ce with sendOk := (w.ctrl.handle ce).sendOk } := rfl
  exact .session hne ht hctrl (tabNews_sessionEvent ce)

theorem relays_disconnect : Relays w e w.disconnect := by
  have hnews : tabNews w.disconnect.out = tabNews w.out ++ news (w.ctrl.handle .cancel).out := by
    rw [← tabNews_sessionEvent]
    unfold disconnect
    dsimp only
    split <;> rfl
  have hctrl : ∃ up, w.disconnect.ctrl = { w.ctrl.handle .cancel with sendOk := up } := by
    unfold disconnect
    dsimp only
    split
    · exact ⟨false, rfl⟩
    · exact ⟨_, rfl⟩
  obtain ⟨up, hctrl⟩ := hctrl
  exact @Relays.session w e _ .cancel up nofun nofun hctrl hnews

theorem relays_request (r : Request) : Relays w (.request r) (w.onRequest r) := by
  obtain ⟨build, latch, hb, hl, -, hr⟩ := onRequest_eq r
  rw [hr]
  unfold sendCommand
  split
  · split
    · exact relays_quiet (.refl w)
    · exact relays_quiet (quiet_warn ..)
  split
  · exact relays_quiet (.refl w)
  split
  · exact relays_quiet (quiet_warn ..)
  · refine .still ⟨_, _, (hl.ctrl _).trans rfl⟩ ?_
    simp [beginWait, hl.out, Output.news?]

theorem relays_softReset (target : Option Qtrm) : Relays w e (w.onSoftReset target) := by
  unfold onSoftReset
  split
  · exact relays_quiet (quiet_warn ..)
  · exact .still ⟨_, _, rfl⟩ (by simp [Output.news?])

/-- The tabs of the commands are told something. -/
theorem tabNews_onReply (k : Kind) (raw : Bytes) (elapsedUs : Option Nat) (repaint : Bool) :
    tabNews (w.onReply k raw elapsedUs repaint).out = tabNews w.out := by
  have htake : tabNews (w.takeTarget (commands k)).2.out = tabNews w.out := by
    unfold takeTarget
    split <;> rfl
  have htime : ∀ d : Window, tabNews (d.showResponseTime k elapsedUs).out = tabNews d.out := by
    intro d
    unfold showResponseTime
    split
    · split
      · simp [Output.news?]
      · rfl
    · rfl
  have hresult : ∀ (d : Window) (target : Option Qtrm),
      tabNews (d.showResult k raw target).out = tabNews d.out := by
    intro d target
    unfold showResult
    split
    · rfl
    · split <;> simp [Output.news?, warn]
  unfold onReply
  dsimp only
  split
  · exact htake
  · rw [hresult, htime, htake]

theorem relays_frame (raw : Bytes) (elapsedUs : Option Nat) (repaint : Bool) :
    Relays w (.frame raw elapsedUs repaint) (w.onFrameReceived raw elapsedUs repaint) := by
  by_cases hl : w.logging = true ∧ raw.length < headerSize
  · rw [onFrameReceived, if_pos hl]
    exact relays_quiet (.refl w)
  by_cases ha : w.awaiting = some .remoteProgramming
  · rw [onFrameReceived, if_neg hl, if_pos ha]
    exact relays_sessionEvent (by simp) (by simp)
  · have hctrl : (w.onFrameReceived raw elapsedUs repaint).ctrl = w.ctrl :=
      (shows_onFrameReceived hl ha elapsedUs repaint).ctrl
    refine .still ⟨w.ctrl.rc, w.ctrl.sendOk, hctrl⟩ ?_
    rw [onFrameReceived, if_neg hl, if_neg ha]
    dsimp only
    split
    · unfold onChipIdReply
      split <;> simp [Output.news?, warn, endWait]
    · exact tabNews_onReply ..
    · rfl

theorem relays_timeout : Relays w .responseTimeout w.onPendingTimer := by
  unfold onPendingTimer
  split
  · exact relays_quiet (.refl w)
  · unfold onResponseTimeout
    split
    · exact .still ⟨_, _, rfl⟩ rfl
    · have htake : ∀ (d : Window) (spec : Command), (d.takeTarget spec).2.ctrl = d.ctrl ∧
          tabNews (d.takeTarget spec).2.out = tabNews d.out := by
        intro d spec
        unfold takeTarget
        split <;> exact ⟨rfl, rfl⟩
      obtain ⟨hc, hn⟩ := htake _ (commands _)
      exact .still ⟨_, _, hc⟩ (by simpa [Output.news?] using hn)

theorem react_relays (hs : ∀ what, e ≠ .rpStart what) : Relays w e (w.react e) := by
  have hburn : ∀ d : Window, Quiet w d → Relays w e d.onBurnTestStop := by
    intro d hq
    cases relays_quiet (e := e) hq with
    | still hc hn => exact .still hc hn
    | session h₁ h₂ h₃ h₄ => exact .session h₁ h₂ h₃ h₄
  cases e with
  | request r => exact relays_request r
  | resetAll => exact relays_softReset none
  | resetOne q => exact relays_softReset (some q)
  | rpStart what => exact absurd rfl (hs what)
  | rpTargetQtrmChanged target =>
    refine relays_sessionEvent nofun fun t ht => ?_
    cases ht
    rfl
  | rpCancel | rpIapTimeoutChanged | rpTimer | rpShot => exact relays_sessionEvent nofun nofun
  | frame raw elapsedUs repaint => exact relays_frame raw elapsedUs repaint
  | responseTimeout => exact relays_timeout
  | connectClicked =>
    rw [react, onConnectClicked]
    split
    · exact relays_disconnect
    · exact relays_quiet ((Quiet.refl w).setWorker true)
  | connectionFieldChanged =>
    rw [react, onConnectionFieldChanged]
    split
    · exact relays_disconnect
    · exact relays_quiet (.refl w)
  | workerStopped =>
    rw [react, onWorkerStopped]
    split
    · exact relays_disconnect
    · exact relays_quiet (.refl w)
  | bindFailed msg => exact relays_quiet ((quiet_warn ..).setWorker false)
  | burnTestStart =>
    rw [react, onBurnTestStart]
    split
    · exact relays_quiet (quiet_warn ..)
    split
    · exact relays_quiet (quiet_warn ..)
    · exact .still ⟨_, _, rfl⟩ rfl
  | burnTestAnswer yes logError =>
    rw [react]
    unfold onBurnTestAnswer
    dsimp only
    split
    · exact .still ⟨_, _, rfl⟩ rfl
    split
    · exact .still ⟨_, _, rfl⟩ (by simp [warn, Output.news?])
    split
    · exact .still ⟨_, _, rfl⟩ rfl
    · exact .still ⟨_, _, rfl⟩ rfl
  | burnTestStop =>
    rw [react]
    unfold onBurnTestStopClicked
    dsimp only
    split
    · rename_i hw
      rw [onConnectClicked, if_neg hw.2]
      exact hburn _ ((Quiet.refl w).setWorker true)
    · exact hburn _ (.refl w)
  | close => exact hburn _ ⟨⟨_, _, rfl⟩, rfl, rfl, rfl, rfl, .inl rfl⟩
  | setLogging | setRcSettings => exact .still ⟨_, _, rfl⟩ rfl

end Window

namespace Controller

variable {c c' : Controller} {what : Start}

theorem Accepts.congr (h : c.Accepts what) (ho : c'.op = c.op)
    (h1 : c'.modeStep1Done = c.modeStep1Done) (h2 : c'.modeStep2Done = c.modeStep2Done) :
    c'.Accepts what := by
  have hg : c'.gateOpen = c.gateOpen := by rw [gateOpen, h1, h2, gateOpen]
  unfold Accepts at h ⊢
  rw [ho, hg]
  exact h

/-- Without a session only a start does anything to the session or the gate. -/
theorem idle_handle (hok : c.Ok) (hop : c.op = none) {ce : Event} (hne : ∀ what, ce ≠ .start what) :
    (c.handle ce).op = c.op ∧ (c.handle ce).modeStep1Done = c.modeStep1Done ∧
      (c.handle ce).modeStep2Done = c.modeStep2Done ∧ news (c.handle ce).out = [] := by
  cases handle_told hok ce with
  | still hs _ => exact ⟨hs.same.op, hs.same.step1, hs.same.step2, hs.news⟩
  | set hs =>
    rcases hs with ⟨target, -, hs⟩ | ⟨up, -, hs⟩
    · rw [hs]
      exact ⟨rfl, rfl, rfl, rfl⟩
    · rw [hs]
      exact ⟨rfl, rfl, rfl, rfl⟩
  | started he _ _ _ => exact absurd he (hne _)
  | ended he _ =>
    cases he with
    | plain ho | step1 ho | step2 ho | closed ho => exact nomatch hop.symm.trans ho

end Controller

/-! ## The tab and the controller -/

namespace TabGate

open Controller (Polls Told Ending Started Accepts)

variable {t : TabGate} {c c' : Controller} {what : Controller.Start}

/-- The tab's account is that of the controller. Once Program was sent the gate is open, and what
runs is the Program or the return to high speed. -/
structure Agrees (t : TabGate) (c : Controller) : Prop where
  gate : t.gateOpen = c.gateOpen
  step1 : t.step1Done = c.modeStep1Done
  active : t.sessionActive = c.busy
  iap : t.activeIapOp = c.op.filter (Polls ·)
  locked : t.programmed = true → c.gateOpen = true ∧
    (c.op = none ∨ c.op = some .program ∨ c.op = some .modeBack)

theorem Agrees.congr (h : Agrees t c) (ho : c'.op = c.op)
    (h1 : c'.modeStep1Done = c.modeStep1Done) (h2 : c'.modeStep2Done = c.modeStep2Done) :
    Agrees t c' := by
  have hg : c'.gateOpen = c.gateOpen := by rw [Controller.gateOpen, h1, h2, Controller.gateOpen]
  refine ⟨h.gate.trans hg.symm, h.step1.trans h1.symm, ?_, ?_, ?_⟩
  · rw [h.active, Controller.busy, Controller.busy, ho]
  · rw [h.iap, ho]
  · rw [hg, ho]
    exact h.locked

/-- The controller accepts a start, after the tab has marked it. -/
theorem Agrees.start (h : Agrees t c) (ha : c.Accepts what) (hs : Started what c.cleared c')
    (hl : t.programmed = true → what = .modeBack) : Agrees (t.markSessionStarted what.op) c' := by
  have hg : c'.gateOpen = c.gateOpen := by
    rw [Controller.gateOpen, hs.step1, hs.step2]
    rfl
  have hnone : t.activeIapOp = none := by
    rw [h.iap, ha.1]
    rfl
  refine ⟨h.gate.trans hg.symm, h.step1.trans hs.step1.symm, ?_, ?_, fun hm => ?_⟩
  · rw [Controller.busy, hs.op]
    rfl
  · rw [hs.op, markSessionStarted]
    by_cases hp : Polls what.op
    · simp [hp, Option.filter]
    · simp [hp, Option.filter, hnone]
  · rw [hg, hs.op]
    have hp : t.programmed = true ∨ what.op = .program := by
      simpa [markSessionStarted] using hm
    rcases hp with hp | hop
    · have hback := hl hp
      exact ⟨(h.locked hp).1, .inr (.inr (by rw [hback]; rfl))⟩
    · refine ⟨?_, .inr (.inl (by rw [hop]))⟩
      cases what with
      | program golden => exact ha.2
      | _ => simp [Controller.Start.op] at hop

/-- The news of the end of a session. -/
theorem Agrees.ended (h : Agrees t c) (he : Ending c c') (hn : news c.out = []) :
    Agrees ((news c'.out).foldl receive t) c' := by
  have hbusy : c'.op = none → c'.busy = false := fun ho => by
    rw [Controller.busy, ho]
    rfl
  cases he with
  | @plain op ok hop hs hno hok hnews =>
    have hg : c'.gateOpen = c.gateOpen := hs.gateOpen
    have h1 : c'.modeStep1Done = c.modeStep1Done := hs.step1
    rw [hnews, hn]
    have hfalse : ∀ x, (op = .modeStep1 ∨ op = .modeBack) → (x && ok) = false := by
      intro x hx
      cases ok with
      | false => exact Bool.and_false x
      | true => exact absurd hx (by simpa using hok rfl)
    refine ⟨h.gate.trans hg.symm, ?_, ?_, ?_, fun hp => ?_⟩
    · simp only [List.nil_append, List.foldl_cons, List.foldl_nil, receive, onSessionFinished]
      rw [h1, ← h.step1]
      by_cases hx : op = .modeStep1
      · rw [hfalse _ (.inl hx), Bool.or_false]
      · simp [hx]
    · exact (hbusy hno).symm
    · simp only [List.nil_append, List.foldl_cons, List.foldl_nil, receive, onSessionFinished, h.iap,
        hop, hno]
      by_cases hp : Polls op <;> simp [hp, Option.filter]
    · simp only [List.nil_append, List.foldl_cons, List.foldl_nil, receive, onSessionFinished,
        Bool.and_eq_true] at hp
      rw [hg]
      exact ⟨(h.locked hp.1).1, .inl hno⟩
  | step1 hop ht hno h1 h2 hnews =>
    have hg : c'.gateOpen = c.modeStep2Done := by
      rw [Controller.gateOpen, h1, h2]
      rfl
    have hp : t.programmed = false := by
      cases hp : t.programmed with
      | false => rfl
      | true => simpa [hop] using (h.locked hp).2
    have hi : t.activeIapOp = none := by
      rw [h.iap, hop]
      rfl
    rw [hnews, hn]
    refine ⟨?_, ?_, (hbusy hno).symm, ?_, ?_⟩
    all_goals
      simp only [List.nil_append, List.foldl_cons, List.foldl_nil, receive, onSessionFinished,
        onGateChanged]
      cases hd : c.modeStep2Done <;> simp [hg, hd, h1, hno, hi, hp]
  | step2 hop ht hno h1 h2 hnews =>
    have hg : c'.gateOpen = c.modeStep1Done := by
      rw [Controller.gateOpen, h1, h2, Bool.and_true]
    have hp : t.programmed = false := by
      cases hp : t.programmed with
      | false => rfl
      | true => simpa [hop] using (h.locked hp).2
    have hi : t.activeIapOp = none := by
      rw [h.iap, hop]
      rfl
    have hs1 := h.step1
    rw [hnews, hn]
    refine ⟨?_, ?_, (hbusy hno).symm, ?_, ?_⟩
    all_goals
      simp only [List.nil_append, List.foldl_cons, List.foldl_nil, receive, onSessionFinished,
        onGateChanged]
      cases hd : c.modeStep1Done <;> simp [hg, hd, h1, hno, hi, hp, hs1]
  | @closed ok hop ht hno h1 h2 hnews =>
    have hg : c'.gateOpen = false := by
      rw [Controller.gateOpen, h1]
      rfl
    have hi : t.activeIapOp = none := by
      rw [h.iap, hop]
      rfl
    rw [hnews, hn]
    refine ⟨?_, ?_, (hbusy hno).symm, ?_, ?_⟩
    all_goals
      simp [receive, onSessionFinished, onGateChanged, hg, h1, hno, hi]

/-- The news of any event of the controller but a start. -/
theorem Agrees.handled (h : Agrees t c) (hok : c.Ok) {ce : Controller.Event}
    (hne : ∀ what, ce ≠ .start what) :
    Agrees ((news (c.handle ce).out).foldl receive t) (c.handle ce) := by
  have hn : news c.cleared.out = [] := rfl
  have h' : Agrees t c.cleared := h.congr rfl rfl rfl
  cases Controller.handle_told hok ce with
  | still hs _ =>
    rw [hs.news, hn]
    exact h'.congr hs.same.op hs.same.step1 hs.same.step2
  | set hs =>
    have hk : (c.handle ce).out = [] ∧ (c.handle ce).op = c.op ∧
        (c.handle ce).modeStep1Done = c.modeStep1Done ∧
        (c.handle ce).modeStep2Done = c.modeStep2Done := by
      rcases hs with ⟨target, -, hs⟩ | ⟨up, -, hs⟩
      · rw [hs]
        exact ⟨rfl, rfl, rfl, rfl⟩
      · rw [hs]
        exact ⟨rfl, rfl, rfl, rfl⟩
    rw [hk.1]
    exact h.congr hk.2.1 hk.2.2.1 hk.2.2.2
  | started he _ _ _ => exact absurd he (hne _)
  | ended he _ => exact h'.ended he hn

end TabGate

/-! ## The window with its tab -/

namespace Panel

open Controller (Polls)

variable {p p' : Panel} {e : Event} {what : Controller.Start}

/-- The invariant: the tab agrees with the controller, and what a question is about could start. -/
structure Mirror (p : Panel) : Prop where
  ok : p.window.Ok
  agrees : TabGate.Agrees p.tab p.window.ctrl
  question : ∀ what, p.question = some what → p.window.asking = false ∧
    p.window.ctrl.Accepts what ∧ p.tab.programmed = false
  refused : ∀ op, .refused op ∉ tabNews p.window.out

/-- What a step does to the controller and to the tab's account. -/
inductive Effect (p p' : Panel) : Prop
  | still : (∃ rc up, p'.window.ctrl = { p.window.ctrl with rc, sendOk := up }) →
      p'.tab = { p.tab with image := p'.tab.image, imageIsGolden := p'.tab.imageIsGolden } →
      Effect p p'
  | session {ce : Controller.Event} {up : Bool} : (∀ what, ce ≠ .start what) →
      (∀ target, ce = .setTarget target → p.tab.targetEnabled = true) →
      p'.window.ctrl = { p.window.ctrl.handle ce with sendOk := up } →
      p'.tab = (news (p.window.ctrl.handle ce).out).foldl TabGate.receive p.tab → Effect p p'
  | started {what : Controller.Start} : p.window.ctrl.Accepts what →
      (p.tab.programmed = true → what = .modeBack) →
      p'.window.ctrl = p.window.ctrl.handle (.start what) →
      p'.tab = p.tab.markSessionStarted what.op →
      handed p'.window.out = [(.session, p.window.ctrl.startFrame what)] → Effect p p'

theorem Effect.same (hc : p'.window.ctrl = p.window.ctrl) (ht : p'.tab = p.tab) : Effect p p' :=
  .still ⟨p.window.ctrl.rc, p.window.ctrl.sendOk, hc⟩ (by rw [ht])

theorem Effect.congr {p'' : Panel} (h : Effect p p') (hc : p''.window.ctrl = p.window.ctrl)
    (ht : p''.tab = p.tab) : Effect p'' p' := by
  cases h with
  | still hs htab => exact .still (by rw [hc]; exact hs) (by rw [ht]; exact htab)
  | session hne hset hs htab =>
    exact .session hne (by rw [ht]; exact hset) (by rw [hc]; exact hs) (by rw [hc, ht]; exact htab)
  | started hac hl hs htab hh =>
    exact .started (by rw [hc]; exact hac) (by rw [ht]; exact hl) (by rw [hc]; exact hs)
      (by rw [ht]; exact htab) (by rw [hc]; exact hh)

/-- A step that keeps the invariant. -/
structure Steps (p p' : Panel) : Prop where
  mirror : Mirror p'
  effect : Effect p p'

/-- The operation that an enabled button stands for. -/
def Button.Stands (p : Panel) : Button → Controller.Start → Prop
  | .step1, what => what = .modeStep1
  | .step2, what => what = .modeStep2
  | .linkCheck, what => what = .linkCheck
  | .lru, what => what = .lruInfo
  | .qtrmHighSpeed, what => what = .qtrmHighSpeed
  | .modeBack, what => what = .modeBack
  | .auth, what => what = .authenticate p.tab.imageIsGolden
  | .verify, what => what = .verify p.tab.imageIsGolden
  | .program, what => what = .program p.tab.imageIsGolden
  | .upload, what => what = .upload p.tab.image p.tab.imageIsGolden
  | .cancel, _ => False

/-- A button that is enabled, and does not say "Stop", starts what the controller accepts; after a
Program it is the return to high speed. -/
theorem accepts_of_enabled (h : TabGate.Agrees p.tab p.window.ctrl) {b : Button}
    (hb : p.tab.enabled b = true) (hs : Button.Stands p b what)
    (hstop : p.tab.activeIapOp ≠ some what.op) :
    p.window.ctrl.Accepts what ∧ (p.tab.programmed = true → what = .modeBack) := by
  have hidle : p.tab.sessionActive = false → p.window.ctrl.op = none := fun hf => by
    rw [h.active, Controller.busy] at hf
    simpa using hf
  have hops : p.tab.opsOk = true → p.window.ctrl.op = none ∧ p.window.ctrl.gateOpen = true := by
    intro ho
    simp only [TabGate.opsOk, Bool.and_eq_true, Bool.not_eq_true'] at ho
    exact ⟨hidle ho.2, h.gate ▸ ho.1⟩
  cases b with
  | step1 | step2 =>
    obtain rfl := hs
    simp only [TabGate.enabled, Bool.and_eq_true, Bool.not_eq_true'] at hb
    exact ⟨⟨hidle hb.1, trivial⟩, fun hp => by simp [hb.2] at hp⟩
  | linkCheck | lru | qtrmHighSpeed =>
    obtain rfl := hs
    simp only [TabGate.enabled, Bool.and_eq_true, Bool.not_eq_true'] at hb
    exact ⟨hops hb.1, fun hp => by simp [hb.2] at hp⟩
  | modeBack =>
    obtain rfl := hs
    exact ⟨hops hb, fun _ => rfl⟩
  | auth | verify | program =>
    obtain rfl := hs
    simp only [TabGate.enabled, Bool.or_eq_true, Bool.and_eq_true, Bool.not_eq_true',
      beq_iff_eq] at hb
    rcases hb with hb | hb
    · exact ⟨hops hb.1, fun hp => by simp [hb.2] at hp⟩
    · exact absurd hb hstop
  | upload =>
    obtain rfl := hs
    simp only [TabGate.enabled, Bool.and_eq_true, Bool.not_eq_true'] at hb
    obtain ⟨⟨ho, hp⟩, hi⟩ := hb
    exact ⟨⟨(hops ho).1, (hops ho).2, by simpa using hi⟩, fun hp' => by simp [hp] at hp'⟩
  | cancel => exact hs.elim

/-- What the controller accepts has its button enabled, but for what a Program locks. -/
theorem enabled_of_accepts (h : TabGate.Agrees p.tab p.window.ctrl) {b : Button}
    (hs : Button.Stands p b what) (hac : p.window.ctrl.Accepts what)
    (hl : p.tab.programmed = true → what = .modeBack) : p.tab.enabled b = true := by
  have hactive : p.tab.sessionActive = false := by
    rw [h.active, Controller.busy, hac.1]
    rfl
  have hops : p.window.ctrl.gateOpen = true → p.tab.opsOk = true := by
    intro hg
    rw [TabGate.opsOk, h.gate, hg, hactive]
    rfl
  have hfree : what ≠ .modeBack → p.tab.programmed = false := by
    intro hne
    cases hp : p.tab.programmed with
    | false => rfl
    | true => exact absurd (hl hp) hne
  cases b with
  | cancel => exact hs.elim
  | modeBack =>
    obtain rfl := hs
    exact hops hac.2
  | step1 | step2 =>
    obtain rfl := hs
    simp [TabGate.enabled, hactive, hfree (by simp)]
  | linkCheck | lru | qtrmHighSpeed | auth | verify | program =>
    obtain rfl := hs
    simp [TabGate.enabled, hops hac.2, hfree (by simp)]
  | upload =>
    obtain rfl := hs
    have himage : p.tab.image ≠ [] := hac.2.2
    simp [TabGate.enabled, hops hac.2.1, hfree (by simp), himage]

/-! ## Steps -/

/-- A start that the window and the controller accept. -/
theorem rpStart_accepted {w : Window} (hw : w.worker = true) (ha : w.awaiting = none)
    (hac : w.ctrl.Accepts what) :
    (w.handle (.rpStart what)).ctrl = w.ctrl.handle (.start what) ∧
      tabNews (w.handle (.rpStart what)).out = [] ∧
      handed (w.handle (.rpStart what)).out = [(.session, w.ctrl.startFrame what)] := by
  have hst := Controller.startOp_accepted (c := w.ctrl.cleared) hac
  have hnews : news (w.ctrl.handle (.start what)).out = [] := Controller.seen_startOp Controller.unsent_news what
  have hbusy : (w.ctrl.handle (.start what)).busy = true := by
    rw [Controller.busy, show (w.ctrl.handle (.start what)).op = some what.op from hst.op]
    rfl
  have hr : w.handle (.rpStart what) =
      ({ w.cleared with awaiting := some .remoteProgramming } : Window).sessionEvent (.start what) := by
    have hw' : ¬ ¬ w.cleared.worker = true := not_not.2 hw
    have ha' : ¬ w.cleared.awaiting ≠ none := not_not.2 ha
    rw [Window.handle, Window.react, Window.rpStart, if_neg hw', if_neg ha']
    exact if_neg (not_not.2 hbusy)
  rw [hr]
  refine ⟨rfl, ?_, ?_⟩
  · rw [Window.tabNews_sessionEvent]
    exact hnews
  · have hsend : sends (w.ctrl.handle (.start what)).out = [w.ctrl.startFrame what] := hst.sends
    have hup : ({ w.cleared with awaiting := some .remoteProgramming } : Window).worker = true := hw
    rw [Window.sessionEvent_handed, hup]
    exact congrArg (fun l => handed [] ++ l.map (Sender.session, ·)) hsend

/-- A start that the window refuses. -/
theorem rpStart_refused (what : Controller.Start) {w : Window} (h : ¬ (w.worker = true ∧ w.awaiting = none)) :
    ∃ title text, w.handle (.rpStart what) = w.cleared.warn title text := by
  rw [Window.handle, Window.react, Window.rpStart]
  split
  · exact ⟨_, _, rfl⟩
  · rename_i hw
    have ha : w.cleared.awaiting ≠ none := fun ha => h ⟨not_not.1 hw, ha⟩
    rw [if_pos ha]
    exact ⟨_, _, rfl⟩

theorem Mirror.start (h : Mirror p) (hask : p.window.asking = false) (hq : p.question = none)
    (hac : p.window.ctrl.Accepts what) (hl : p.tab.programmed = true → what = .modeBack) :
    Steps p (p.start what) := by
  have hok : (p.window.handle (.rpStart what)).Ok :=
    Window.ok_handle h.ok (e := .rpStart what) (by simpa [Window.machine] using hask)
  have hnq : ∀ w, (p.start what).question = some w → False := fun w hw => by
    have hw : p.question = some w := hw
    rw [hq] at hw
    cases hw
  by_cases hs : p.window.worker = true ∧ p.window.awaiting = none
  · obtain ⟨hc, hn, hh⟩ := rpStart_accepted hs.1 hs.2 hac
    have hst : Controller.Started what p.window.ctrl.cleared (p.window.ctrl.handle (.start what)) :=
      Controller.startOp_accepted (c := p.window.ctrl.cleared) hac
    have htab : (p.start what).tab = p.tab.markSessionStarted what.op := by
      rw [Panel.start, if_pos hs]
      change (tabNews (p.window.handle (.rpStart what)).out).foldl TabGate.receive _ = _
      rw [hn]
      rfl
    refine ⟨⟨hok, ?_, fun w hw => (hnq w hw).elim, fun op hop => ?_⟩,
      .started hac hl hc htab hh⟩
    · rw [htab]
      change TabGate.Agrees _ (p.window.handle (.rpStart what)).ctrl
      rw [hc]
      exact h.agrees.start hac hst hl
    · change _ ∈ tabNews (p.window.handle (.rpStart what)).out at hop
      rw [hn] at hop
      cases hop
  · obtain ⟨title, text, hr⟩ := rpStart_refused what hs
    have htab : (p.start what).tab = p.tab := by
      rw [Panel.start, if_neg hs]
      change (tabNews (p.window.handle (.rpStart what)).out).foldl TabGate.receive p.tab = p.tab
      rw [hr]
      rfl
    have hctrl : (p.start what).window.ctrl =
        { p.window.ctrl with rc := p.window.ctrl.rc, sendOk := p.window.ctrl.sendOk } := by
      change (p.window.handle (.rpStart what)).ctrl = _
      rw [hr]
      rfl
    refine ⟨⟨hok, ?_, fun w hw => (hnq w hw).elim, fun op hop => ?_⟩,
      .still ⟨_, _, hctrl⟩ (by rw [htab])⟩
    · rw [htab, hctrl]
      exact h.agrees
    · change _ ∈ tabNews (p.window.handle (.rpStart what)).out at hop
      rw [hr] at hop
      simp [Window.warn, Window.cleared, Window.emit, tabNews, Output.news?] at hop

/-- Any other event of the window. -/
theorem Mirror.pass (h : Mirror p) {e : Window.Event} (he : Window.machine.enabled p.window e)
    (hs : ∀ what, e ≠ .rpStart what)
    (hq : p.question ≠ none → Window.machine.enabled { p.window with asking := true } e)
    (ht : ∀ target, e = .rpTargetQtrmChanged target → p.tab.targetEnabled = true) :
    Steps p (p.pass e) := by
  have hok := Window.ok_handle h.ok he
  have hrel : Window.Relays p.window.cleared e (p.window.handle e) := Window.react_relays hs
  have hask : ∀ what, p.question = some what → (p.window.handle e).asking = false := by
    intro what hw
    rcases hb : (p.window.handle e).asking with _ | _
    · rfl
    · rcases Window.react_asking (w := p.window.cleared) hb with ha | ⟨rfl, -⟩
      · exact nomatch (h.question what hw).1.symm.trans ha
      · have hno := hq (by rw [hw]; simp)
        simp [Window.machine] at hno
  suffices hsuff : TabGate.Agrees (p.pass e).tab (p.pass e).window.ctrl ∧
      (∀ what, p.question = some what → (p.pass e).window.ctrl.Accepts what ∧
        (p.pass e).tab.programmed = false) ∧
      (∀ op, .refused op ∉ tabNews (p.window.handle e).out) ∧ Effect p (p.pass e) from
    ⟨⟨hok, hsuff.1, fun what hw => ⟨hask what hw, hsuff.2.1 what hw⟩, hsuff.2.2.1⟩, hsuff.2.2.2⟩
  cases hrel with
  | still hc hn =>
    obtain ⟨rc, up, hc⟩ := hc
    have htab : (p.pass e).tab = p.tab := by
      change (tabNews (p.window.handle e).out).foldl TabGate.receive p.tab = p.tab
      rw [hn]
      rfl
    have hctrl : (p.pass e).window.ctrl = { p.window.ctrl with rc, sendOk := up } := hc
    have heff : Effect p (p.pass e) := .still ⟨_, _, hctrl⟩ (by rw [htab])
    rw [htab, hctrl]
    refine ⟨h.agrees.congr rfl rfl rfl, fun what hw => ?_, fun op hop => ?_, heff⟩
    · exact ⟨(h.question what hw).2.1.congr rfl rfl rfl, (h.question what hw).2.2⟩
    · rw [hn] at hop
      cases hop
  | @session ce up hne hset hc hn =>
    have htab : (p.pass e).tab =
        (news (p.window.ctrl.handle ce).out).foldl TabGate.receive p.tab := by
      change (tabNews (p.window.handle e).out).foldl TabGate.receive p.tab = _
      rw [hn]
      rfl
    have hctrl : (p.pass e).window.ctrl = { p.window.ctrl.handle ce with sendOk := up } := hc
    have heff : Effect p (p.pass e) :=
      .session hne (fun target hce => ht target (hset target hce)) hctrl htab
    rw [htab, hctrl]
    refine ⟨(h.agrees.handled h.ok.ctrl hne).congr rfl rfl rfl, fun what hw => ?_, fun op hop => ?_,
      heff⟩
    · obtain ⟨-, hac, hp⟩ := h.question what hw
      obtain ⟨ho, h1, h2, hnews⟩ := Controller.idle_handle h.ok.ctrl hac.1 hne
      rw [hnews]
      exact ⟨hac.congr ho h1 h2, hp⟩
    · rw [hn] at hop
      exact refused_notMem_news op _ hop

theorem Mirror.cleared (h : Mirror p) : Mirror { p with window := p.window.cleared } :=
  ⟨h.ok.cleared, h.agrees, h.question, fun _ => nofun⟩

theorem Mirror.startOrStop (h : Mirror p) (hf : p.Free) {b : Button} (hb : p.tab.enabled b = true)
    (hs : Button.Stands p b what) : Steps p (p.startOrStop what) := by
  rw [Panel.startOrStop]
  split
  · exact h.pass (e := .rpCancel) (by simpa [Window.machine] using hf.1) nofun
      (fun hq => absurd hf.2 hq) nofun
  · rename_i hstop
    obtain ⟨hac, hl⟩ := accepts_of_enabled h.agrees hb hs hstop
    exact h.start hf.1 hf.2 hac hl

theorem Mirror.ask (h : Mirror p) (what : Controller.Start) (hf : p.Free) {b : Button}
    (hb : p.tab.enabled b = true) (hs : Button.Stands p b what) (hstop : p.tab.activeIapOp ≠ some what.op)
    (hback : what ≠ .modeBack) : Steps p (p.ask what) := by
  obtain ⟨hac, hl⟩ := accepts_of_enabled h.agrees hb hs hstop
  refine ⟨⟨h.ok, h.agrees, fun what' hw => ?_, h.refused⟩, .same rfl rfl⟩
  obtain rfl : what = what' := Option.some.inj hw
  refine ⟨hf.1, hac, ?_⟩
  cases hp : p.tab.programmed with
  | false => exact hp
  | true => exact absurd (hl hp) hback

theorem Mirror.click (h : Mirror p) (hf : p.Free) {b : Button} (hb : p.tab.enabled b = true) :
    Steps p (p.click b) := by
  have hstart : ∀ what, Button.Stands p b what → p.tab.activeIapOp ≠ some what.op →
      Steps p (p.start what) := fun what hs hstop => by
    obtain ⟨hac, hl⟩ := accepts_of_enabled h.agrees hb hs hstop
    exact h.start hf.1 hf.2 hac hl
  -- the other operations are not IAP operations
  have hother : ∀ op, ¬ Polls op → p.tab.activeIapOp ≠ some op := fun op hp ha => by
    rw [h.agrees.iap, Option.filter_eq_some_iff] at ha
    exact hp (by simpa using ha.2)
  have hcancel : Steps p (p.pass .rpCancel) :=
    h.pass (e := .rpCancel) (by simpa [Window.machine] using hf.1) nofun (fun hq => absurd hf.2 hq)
      nofun
  cases b with
  | step1 | step2 | linkCheck | lru | qtrmHighSpeed | modeBack =>
    exact hstart _ rfl (hother _ (by decide))
  | auth | verify => exact h.startOrStop hf hb rfl
  | program =>
    rw [Panel.click]
    split
    · exact hcancel
    · rename_i hstop
      exact h.ask _ hf hb rfl hstop nofun
  | upload =>
    rw [Panel.click]
    split
    · exact ⟨h, .same rfl rfl⟩
    · exact h.ask _ hf hb rfl
        (hother .upload (by decide)) nofun
  | cancel => exact hcancel

/-- Every step, with the outputs of the one before taken away. -/
theorem Mirror.steps (h : Mirror p) (he : machine.enabled p e) :
    Steps { p with window := p.window.cleared } (p.handle e) := by
  have hfree : p.window.asking = false → ¬ p.window.cleared.asking = true := fun hf ha =>
    nomatch hf.symm.trans ha
  have h' := h.cleared
  cases e with
  | window e =>
    exact h'.pass he.1 (fun what hw => he.2.1 (by rw [hw]; trivial)) he.2.2
      fun target hw => absurd (by rw [hw]; trivial) he.2.1
  | click b => exact h'.click he.1 he.2
  | answer yes =>
    obtain ⟨what, hw⟩ := Option.ne_none_iff_exists'.1 he
    obtain ⟨hask, hac, hp⟩ := h.question what hw
    have hn : Mirror { p with window := p.window.cleared, question := none } :=
      ⟨h'.ok, h'.agrees, nofun, h'.refused⟩
    have hr : p.handle (.answer yes) =
        if yes then ({ p with window := p.window.cleared, question := none } : Panel).start what
        else { p with window := p.window.cleared, question := none } := by
      rw [handle, react, Panel.answer, hw]
    rw [hr]
    split
    · obtain ⟨hm, heff⟩ := hn.start hask rfl hac fun hp' => nomatch hp.symm.trans hp'
      exact ⟨hm, heff.congr rfl rfl⟩
    · exact ⟨hn, .same rfl rfl⟩
  | targetChanged target =>
    exact h'.pass (e := .rpTargetQtrmChanged target) (hfree he.1.1) nofun
      (fun hq => absurd he.1.2 hq) fun _ _ => he.2
  | imageToggled golden =>
    exact ⟨⟨h'.ok, ⟨h'.agrees.gate, h'.agrees.step1, h'.agrees.active, h'.agrees.iap,
      h'.agrees.locked⟩, h'.question, h'.refused⟩, .still ⟨_, _, rfl⟩ rfl⟩
  | fileChosen raw =>
    change Steps _ (if raw.isEmpty then _ else _)
    split
    · exact ⟨h', .same rfl rfl⟩
    · exact ⟨⟨h'.ok, ⟨h'.agrees.gate, h'.agrees.step1, h'.agrees.active, h'.agrees.iap,
        h'.agrees.locked⟩, h'.question, h'.refused⟩, .still ⟨_, _, rfl⟩ rfl⟩
  | iapTimeoutChanged seconds =>
    exact h'.pass (e := .rpIapTimeoutChanged seconds) (hfree he.1) nofun
      (fun hq => absurd he.2 hq) nofun

theorem Mirror.step (h : Mirror p) (he : machine.enabled p e) : Mirror (p.handle e) :=
  (h.steps he).mirror

/-- What every step does. -/
theorem Mirror.effect (h : Mirror p) (he : machine.enabled p e) : Effect p (p.handle e) :=
  (h.steps he).effect.congr rfl rfl

theorem mirror_init (rc : RcSettings) : Mirror (init rc) :=
  ⟨Window.ok_init rc, ⟨rfl, rfl, rfl, rfl, nofun⟩, nofun, fun _ => nofun⟩

theorem mirror_run {rc : RcSettings} {tr : List Step} (hr : machine.Run (init rc) tr p) : Mirror p :=
  hr.invariant' (mirror_init rc) fun _ _ h he => h.step he

/-- In every run the tab shows the gate and the session that the controller has, the buttons that
do not say "Stop" are enabled exactly when the controller would accept what they stand for and no
Program locks it, a question is about what would be accepted, and no start that the operator was
offered is refused. -/
theorem tab_mirrors {rc : RcSettings} {tr : List Step} (hr : machine.Run (init rc) tr p) :
    (p.tab.gateOpen = p.window.ctrl.gateOpen ∧ p.tab.step1Done = p.window.ctrl.modeStep1Done ∧
      p.tab.sessionActive = p.window.ctrl.busy ∧
      p.tab.activeIapOp = p.window.ctrl.op.filter (Polls ·)) ∧
    (∀ b what, Button.Stands p b what → p.tab.activeIapOp ≠ some what.op →
      (p.tab.enabled b = true ↔
        p.window.ctrl.Accepts what ∧ (p.tab.programmed = true → what = .modeBack))) ∧
    (∀ what, p.question = some what → p.window.ctrl.Accepts what) ∧
    ∀ x ∈ tr, ∀ op, .couldNotStart op ∉ (machine.post x).window.out := by
  have h := mirror_run hr
  refine ⟨⟨h.agrees.gate, h.agrees.step1, h.agrees.active, h.agrees.iap⟩, ?_,
    fun what hw => (h.question what hw).2.1, ?_⟩
  · intro b what hs hstop
    exact ⟨fun hb => accepts_of_enabled h.agrees hb hs hstop,
      fun hac => enabled_of_accepts h.agrees hs hac.1 hac.2⟩
  · intro x hx op hop
    obtain ⟨pre, seg, rfl⟩ := List.append_of_mem hx
    obtain ⟨hr₁, he, -⟩ := hr.middle
    refine (mirror_run (hr₁.snoc he)).refused op ?_
    exact List.mem_filterMap.2 ⟨_, hop, rfl⟩

/-- Both steps, and a click on Program. -/
def programAsked : List Event :=
  [.window .connectClicked, .click .step1, .window (.frame [] none false), .click .step2,
    .window (.frame [] none false), .click .program]

theorem programAsked_allows : machine.Allows (init Controller.sampleSettings) programAsked :=
  ⟨⟨Bool.false_ne_true, id, fun h => absurd rfl h⟩, ⟨⟨rfl, rfl⟩, rfl⟩,
    ⟨trivial, id, fun h => absurd rfl h⟩, ⟨⟨rfl, rfl⟩, rfl⟩, ⟨trivial, id, fun h => absurd rfl h⟩,
    ⟨⟨rfl, rfl⟩, rfl⟩, trivial⟩

/-- The question can be answered. -/
theorem tab_mirrors_program_asked :
    (machine.exec (init Controller.sampleSettings) programAsked).question = some (.program false) ∧
      (machine.exec (init Controller.sampleSettings) programAsked).window.ctrl.Accepts
        (.program false) :=
  ⟨rfl, (tab_mirrors programAsked_allows.run).2.2.1 _ rfl⟩

end Panel

end QccGui
