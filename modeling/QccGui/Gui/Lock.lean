import QccGui.Gui.Wait
import QccGui.Gui.Stream

/-!
# The busy lock

The window lets one command or one session in at a time.

* `busy_lock`: the lock is the session's exactly while the controller is busy, every session ends
  once, and a command that waits has its watchdog running and its target latched.
* `Disciplined`, `one_in_flight`: a frame is handed to the worker only by what holds the lock, as
  long as no soft reset comes into a wait and no upload is cancelled before its first chunk.
* `soft_reset_in_a_wait`: a run that breaks the condition.
-/

namespace QccGui

open Lib

namespace Window

variable {w w' : Window} {e : Event} {rc : RcSettings}

/-- A step of a run of the window. -/
abbrev Step := Window × Event

/-! ## Sessions -/

/-- The session ends in a part of a run. -/
def sessionEnds (seg : List Step) : List (Option Op) :=
  seg.flatMap fun x => finished (machine.post x).out

@[simp] theorem sessionEnds_nil : sessionEnds [] = [] := rfl

@[simp] theorem sessionEnds_append (a b : List Step) :
    sessionEnds (a ++ b) = sessionEnds a ++ sessionEnds b := List.flatMap_append

@[simp] theorem sessionEnds_single (x : Step) :
    sessionEnds [x] = finished (machine.post x).out := by simp [sessionEnds]

/-- What a part of a run in which no session starts does to the session it begins with. -/
def Carried (w : Window) (seg : List Step) (w' : Window) : Prop :=
  w'.ctrl.op = w.ctrl.op ∧ sessionEnds seg = [] ∨
    ∃ op, w.ctrl.op = some op ∧ w'.ctrl.op = none ∧ sessionEnds seg = [some op]

theorem carried_step (h : w.Ok) (he : machine.enabled w e) (hs : ¬ w.StartsSession e) :
    Carried w [(w, e)] (machine.step w e) := by
  rw [Carried, sessionEnds_single]
  cases handle_effect h he with
  | kept hk _ _ _ _ => exact .inl ⟨hk.op, hk.finished⟩
  | reset _ _ hk _ => exact .inl ⟨hk.op, hk.finished⟩
  | unwaited _ _ ho _ hf _ => exact .inl ⟨ho, hf⟩
  | began _ _ _ _ _ _ _ ho hf => exact .inl ⟨ho, hf⟩
  | started _ hst _ _ _ _ => exact absurd hst hs
  | @ended op hd => exact .inr ⟨op, hd.before, hd.after, hd.finished⟩

theorem Carried.trans {w'' : Window} {a b : List Step} (h₁ : Carried w a w')
    (h₂ : Carried w' b w'') : Carried w (a ++ b) w'' := by
  rcases h₁ with ⟨ho, hf⟩ | ⟨op, hop, ho, hf⟩
  · rcases h₂ with ⟨ho', hf'⟩ | ⟨op, hop, ho', hf'⟩
    · exact .inl ⟨ho'.trans ho, by simp [hf, hf']⟩
    · exact .inr ⟨op, ho ▸ hop, ho', by simp [hf, hf']⟩
  · rcases h₂ with ⟨ho', hf'⟩ | ⟨op', hop', -, -⟩
    · exact .inr ⟨op, hop, ho'.trans ho, by simp [hf, hf']⟩
    · exact nomatch ho.symm.trans hop'

theorem carried_run {seg : List Step} (h : w.Ok) (hr : machine.Run w seg w')
    (hs : Machine.Along (fun w e => ¬ w.StartsSession e) seg) : Carried w seg w' := by
  refine (hr.history (P := fun seg d => d.Ok ∧ Carried w seg d) ⟨h, .inl ⟨rfl, rfl⟩⟩ ?_ hs).2
  rintro seg d e - ⟨hok, hc⟩ he hne
  exact ⟨ok_handle hok he, hc.trans (carried_step hok he hne)⟩

theorem started_step (h : w.Ok) {what : Controller.Start} (he : machine.enabled w (.rpStart what))
    (hs : w.StartsSession (.rpStart what)) :
    (w.handle (.rpStart what)).ctrl.op = some what.op ∧
      finished (w.handle (.rpStart what)).out = [] := by
  have hop : w.ctrl.op = none := by
    obtain ⟨_, -, -, -, hac⟩ := hs
    exact hac.1
  cases handle_effect h he with
  | kept _ _ _ _ hst => exact absurd hs hst
  | reset hr => simp at hr
  | unwaited _ _ _ _ _ hne => exact absurd rfl (hne what)
  | began hr => nomatch hr
  | started hw _ ho _ _ hf =>
    cases hw
    exact ⟨ho, hf⟩
  | ended hd => exact nomatch hop.symm.trans hd.before

/-- Between two accepted starts, with none in between, the first session ends once. -/
def SessionsEndOnce (tr : List Step) : Prop :=
  ∀ pre x mid y post what, tr = pre ++ x :: (mid ++ y :: post) → x.2 = .rpStart what →
    x.1.StartsSession x.2 → y.1.StartsSession y.2 → (∀ z ∈ mid, ¬ z.1.StartsSession z.2) →
    sessionEnds (x :: mid) = [some what.op]

theorem sessionsEndOnce_run {tr : List Step} (hr : machine.Run (init rc) tr w) :
    SessionsEndOnce tr := by
  rintro pre x mid y post what rfl hx hxs hys hmid
  obtain ⟨hr₁, he, hr₂⟩ := hr.middle
  obtain ⟨hr₃, -, -⟩ := hr₂.middle
  have hok := run_ok hr₁
  have hstart : (machine.post x).ctrl.op = some what.op ∧ finished (machine.post x).out = [] := by
    obtain ⟨d, e⟩ := x
    obtain rfl : e = .rpStart what := hx
    exact started_step hok he hxs
  have hop : y.1.ctrl.op = none := by
    obtain ⟨_, -, -, -, hac⟩ := hys
    exact hac.1
  have hok' : (machine.post x).Ok := ok_handle hok he
  have hends : sessionEnds (x :: mid) = sessionEnds mid := by
    simp [sessionEnds, hstart.2]
  rw [hends]
  rcases carried_run hok' hr₃ hmid with ⟨ho, -⟩ | ⟨op, ho, -, hf⟩
  · exact nomatch hop.symm.trans (ho.trans hstart.1)
  · rw [hf]
    exact congrArg (fun o => [o]) (ho.symm.trans hstart.1)

/-! ## Latched targets -/

/-- The step hands over the frame of a command. -/
def SendsCommand (x : Step) : Prop :=
  ∃ k auto frame, (.command k auto, frame) ∈ handed (machine.post x).out

/-- The last command of a run is of kind `k` and for the QTRM `q`. -/
def LatchedBy (k : Kind) (q : Qtrm) (tr : List Step) : Prop :=
  ∃ pre x seg r, tr = pre ++ x :: seg ∧ x.2 = .request r ∧ r.kind = k ∧ r.target = some q ∧
    SendsCommand x ∧ ∀ y ∈ seg, ¬ SendsCommand y

theorem LatchedBy.snoc {k : Kind} {q : Qtrm} {tr : List Step} {x : Step} (h : LatchedBy k q tr)
    (hx : ¬ SendsCommand x) : LatchedBy k q (tr ++ [x]) := by
  obtain ⟨pre, y, seg, r, rfl, hy, hk, hq, hs, hseg⟩ := h
  refine ⟨pre, y, seg ++ [x], r, by simp, hy, hk, hq, hs, fun z hz => ?_⟩
  rcases List.mem_append.1 hz with hz | hz
  · exact hseg z hz
  · rwa [List.mem_singleton.1 hz]

/-- The attribute of a kind that waits holds the target of the request that began the wait. -/
def TargetsLatched (tr : List Step) (w : Window) : Prop :=
  ∀ k a, w.awaiting = some (.command k) → (commands k).targetAttr = some a →
    ∃ q, w.targets a = some q ∧ LatchedBy k q tr

theorem targetsLatched_step {tr : List Step} (h : w.Ok) (ht : TargetsLatched tr w)
    (he : machine.enabled w e) : TargetsLatched (tr ++ [(w, e)]) (machine.step w e) := by
  have hpost : machine.post (w, e) = w.handle e := rfl
  have hkept : Kept w.cleared (w.handle e) → ¬ SendsCommand (w, e) →
      TargetsLatched (tr ++ [(w, e)]) (machine.step w e) := by
    intro hk hn k a ha hat
    have ha' : w.awaiting = some (.command k) := hk.awaiting.symm.trans ha
    obtain ⟨q, hq, hl⟩ := ht k a ha' hat
    exact ⟨q, (congrFun (hk.wait k ha').2 a).trans hq, hl.snoc hn⟩
  cases handle_effect h he with
  | kept hk hh hf _ _ =>
    apply hkept hk
    rintro ⟨k, auto, frame, hm⟩
    rw [hpost, hh] at hm
    cases hf _ hm
  | reset _ _ hk hh =>
    apply hkept hk
    rintro ⟨k, auto, frame, hm⟩
    rw [hpost, hh] at hm
    simp [cleared, handed] at hm
  | unwaited _ ha _ _ _ _ =>
    intro k a hk
    rcases ha with ha | ha <;> cases ha.symm.trans hk
  | @began r frame hr _ ha _ htar _ hh _ _ =>
    intro k a hk hat
    obtain rfl : r.kind = k := by
      have := ha.symm.trans hk
      simpa using this
    obtain ⟨h₁, h₂⟩ := htar a hat
    obtain ⟨q, hq⟩ := Option.isSome_iff_exists.1 h₂
    refine ⟨q, h₁.trans hq, tr, (w, e), [], r, rfl, hr, rfl, hq, ?_, by simp⟩
    refine ⟨r.kind, r.isAutoResend, frame, ?_⟩
    rw [hpost, hh]
    simp
  | started _ _ _ ha _ _ =>
    intro k a hk
    cases ha.symm.trans hk
  | ended hd =>
    intro k a hk
    cases hd.released.symm.trans hk

/-! ## The lock -/

/-- A start while a session is active. -/
theorem rpStart_busy (h : w.Ok) (hb : w.ctrl.busy = true) (what : Controller.Start) :
    w.ctrl.startOp what = w.ctrl ∧ ∃ title text, w.handle (.rpStart what) = w.cleared.warn title text := by
  have hop : w.ctrl.op ≠ none := by
    rw [Controller.busy, Option.isSome_iff_ne_none] at hb
    exact hb
  refine ⟨Controller.startOp_refused fun hac => hop hac.1, ?_⟩
  have ha : w.cleared.awaiting ≠ none := by
    rw [show w.cleared.awaiting = some .remoteProgramming from h.busy.2 hop]
    decide
  dsimp only [handle, react, rpStart]
  split <;> exact ⟨_, _, rfl⟩

/-- The lock, the sessions of the controller and the waits of the commands agree in every state of
every run. -/
theorem busy_lock {tr : List Step} (hr : machine.Run (init rc) tr w) :
    (w.awaiting = some .remoteProgramming ↔ w.ctrl.busy = true) ∧
      SessionsEndOnce tr ∧
      (w.ctrl.busy = true → ∀ what, w.ctrl.startOp what = w.ctrl ∧
        ∃ title text, w.handle (.rpStart what) = w.cleared.warn title text) ∧
      (∀ k, w.awaiting = some (.command k) → w.pendingTimer = some k) ∧ TargetsLatched tr w := by
  have h := run_ok hr
  refine ⟨?_, sessionsEndOnce_run hr, rpStart_busy h, h.armed, ?_⟩
  · rw [Controller.busy, Option.isSome_iff_ne_none]
    exact h.busy
  · refine (hr.history (P := fun tr d => d.Ok ∧ TargetsLatched tr d) (C := fun _ _ => True)
      ⟨ok_init rc, fun k _ hk => by cases hk⟩ ?_ fun _ _ => trivial).2
    rintro tr d e - ⟨hd, ht⟩ he -
    exact ⟨ok_handle hd he, targetsLatched_step hd ht he⟩

theorem busy_lock_individual_link_test :
    let es : List Event := [.connectClicked, .request (.individualLinkTest 5)]
    let w := machine.exec (init Controller.sampleSettings) es
    w.awaiting = some (.command .individualLinkTest) ∧ w.pendingTimer = some .individualLinkTest ∧
      ∃ q, w.targets .individualLinkQtrm = some q ∧
        LatchedBy .individualLinkTest q (machine.trace (init Controller.sampleSettings) es) := by
  intro es w
  have hr : machine.Run _ (machine.trace (init Controller.sampleSettings) es) w :=
    Machine.Allows.run ⟨Bool.false_ne_true, .inr Bool.false_ne_true, trivial⟩
  have ha : w.awaiting = some (.command .individualLinkTest) := rfl
  obtain ⟨-, -, -, harmed, hlatched⟩ := busy_lock hr
  exact ⟨ha, harmed _ ha, hlatched _ _ ha rfl⟩

/-! ## One command in flight -/

/-- Who may hand a frame to the worker: anyone while nothing is in flight, an auto-resend in place of
its own last command, and the controller for its active upload. -/
def MaySend (w : Window) : Sender → Prop
  | .command k isAutoResend =>
    w.awaiting = none ∨ isAutoResend = true ∧ w.awaiting = some (.command k)
  | .softReset => w.awaiting = none
  | .session =>
    w.awaiting = none ∨ w.awaiting = some .remoteProgramming ∧ w.ctrl.op = some .upload

/-- No soft reset is sent into a wait or a session, and no upload is cancelled, by hand or with its
connection, before its first chunk is sent. -/
def Disciplined (w : Window) (e : Event) : Prop :=
  match e with
  | .resetAll | .resetOne _ => w.worker = true → w.awaiting = none
  | _ => w.Cancels e → w.ctrl.pendingShots = 0

theorem tidy_handle (h : w.Ok) (ht : w.ctrl.Tidy) (he : machine.enabled w e)
    (hd : w.Disciplined e) : (w.handle e).ctrl.Tidy := by
  rcases (react_rest (w := w.cleared) he).ctrl with hc | ⟨c, hen, hcan, hc⟩
  · exact ht.congr hc
  · refine (Controller.tidy_handle h.ctrl ht hen ?_).congr hc
    cases c with
    | cancel =>
      have hcan : w.Cancels e := hcan rfl
      cases e with
      | resetAll => exact absurd hcan id
      | resetOne => exact absurd hcan id
      | _ => exact hd hcan
    | _ => trivial

theorem maySend_step (h : w.Ok) (ht : w.ctrl.Tidy) (he : machine.enabled w e)
    (hd : w.Disciplined e) : ∀ x ∈ handed (w.handle e).out, w.MaySend x.1 := by
  have hup : w.ctrl.op = some .upload → w.MaySend .session := fun hop =>
    .inr ⟨h.busy.2 (by simp [hop]), hop⟩
  cases handle_effect h he with
  | kept _ hh hf hu _ =>
    intro x hx
    have hx' := hh ▸ hx
    rw [show handed w.cleared.out = [] from rfl, List.nil_append] at hx'
    rw [hf x hx']
    rcases hu with hu | hu | hu
    · simp [hu] at hx'
    · exact hup hu
    · rw [hu] at he
      exact hup (ht.shot he).1
  | reset hr hw _ hh =>
    intro x hx
    rw [hh] at hx
    obtain rfl := by simpa [cleared, handed] using hx
    rcases hr with rfl | ⟨q, rfl⟩ <;> exact hd hw
  | unwaited _ _ _ hh _ _ =>
    intro x hx
    rw [hh] at hx
    simp [cleared, handed] at hx
  | began _ hw _ _ _ _ hh _ _ =>
    intro x hx
    rw [hh] at hx
    obtain rfl := by simpa [cleared, handed] using hx
    exact hw
  | started _ hst _ _ hh _ =>
    intro x hx
    rw [hh] at hx
    obtain rfl := by simpa [cleared, handed] using hx
    obtain ⟨_, -, -, ha, -⟩ := hst
    exact .inl ha
  | ended hd =>
    intro x hx
    rw [hd.handed] at hx
    simp [cleared, handed] at hx

/-- In every run without a soft reset in a wait or a cancel before the first chunk, a frame is
handed to the worker only by what may send. -/
theorem one_in_flight {tr : List Step} (hr : machine.Run (init rc) tr w)
    (hd : Machine.Along Disciplined tr) :
    ∀ x ∈ tr, ∀ f ∈ handed (machine.post x).out, x.1.MaySend f.1 := by
  intro x hx
  obtain ⟨pre, seg, rfl⟩ := List.append_of_mem hx
  obtain ⟨hr₁, he, -⟩ := hr.middle
  simp only [Machine.along_append, Machine.along_cons] at hd
  have hinit : (init rc).ctrl.Tidy := (Controller.tidy_init rc).congr rfl
  have hinv : x.1.Ok ∧ x.1.ctrl.Tidy :=
    hr₁.invariant (I := fun w => w.Ok ∧ w.ctrl.Tidy) ⟨ok_init rc, hinit⟩
      (fun _ _ h he hd => ⟨ok_handle h.1 he, tidy_handle h.1 h.2 he hd⟩) hd.1
  exact maySend_step hinv.1 hinv.2 he hd.2.1

theorem one_in_flight_two_commands :
    let es : List Event := [.connectClicked, .request (.linkTest false), .responseTimeout, .resetAll]
    ∀ x ∈ machine.trace (init Controller.sampleSettings) es,
      ∀ f ∈ handed (machine.post x).out, x.1.MaySend f.1 := by
  intro es
  refine one_in_flight (w := machine.exec (init Controller.sampleSettings) es)
    (Machine.Allows.run ?_) ?_
  · exact ⟨Bool.false_ne_true, .inr Bool.false_ne_true, rfl, Bool.false_ne_true, trivial⟩
  · simp only [es, Machine.trace, Machine.along_cons, Machine.along_nil]
    exact ⟨fun _ => rfl, fun _ => rfl, fun _ => rfl, fun _ => rfl, trivial⟩

/-- A soft reset goes out while a link test waits for its reply. -/
theorem soft_reset_in_a_wait : ∃ tr w, machine.Run (init Controller.sampleSettings) tr w ∧
    Machine.events tr = [.connectClicked, .request (.linkTest false), .resetAll] ∧
    ∃ x ∈ tr, ∃ f ∈ handed (machine.post x).out, ¬ x.1.MaySend f.1 := by
  let es : List Event := [.connectClicked, .request (.linkTest false), .resetAll]
  have hr : machine.Run (init Controller.sampleSettings) (machine.trace _ es) (machine.exec _ es) :=
    Machine.Allows.run ⟨Bool.false_ne_true, .inr Bool.false_ne_true, Bool.false_ne_true, trivial⟩
  refine ⟨_, _, hr, Machine.events_trace, _, .tail _ (.tail _ (.head _)), _, .head _, fun h => ?_⟩
  exact nomatch (show some (Awaiting.command .linkTest) = none from h)

end Window

end QccGui
