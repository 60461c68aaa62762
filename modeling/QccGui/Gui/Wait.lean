import QccGui.Gui.Window

/-!
# What the window waits for

Every event of the window, seen from its lock: what it hands to the worker, and what it does to
the command or the session in flight.

* `handed`, `finished`: the frames handed to the worker and the session ends among the outputs.
* `Reaction`, `react_cases`: what the handler of an event does.
* `Effect`, `handle_effect`: the effect of one event.
* `Ok`, `run_ok`: the invariant of the lock, the watchdog, the latched targets and the session.
-/

namespace QccGui

open Lib

/-! ## Outputs -/

def Output.handed? : Output → Option (Sender × Bytes)
  | .send sender frame => some (sender, frame)
  | _ => none

def Output.finished? : Output → Option (Option Op)
  | .session s => s.finished?
  | _ => none

/-- The frames handed to the worker, with the handler that each comes from. -/
def handed (out : List Output) : List (Sender × Bytes) := out.filterMap Output.handed?

/-- The session ends among the outputs. -/
def finished (out : List Output) : List (Option Op) := out.filterMap Output.finished?

namespace Window

variable {w w' : Window} {e : Event}

@[simp] theorem handed_emit (o : Output) :
    handed (w.emit o).out = handed w.out ++ o.handed?.toList := filterMap_snoc ..

@[simp] theorem finished_emit (o : Output) :
    finished (w.emit o).out = finished w.out ++ o.finished?.toList := filterMap_snoc ..

/-! ## Requests -/

/-- The kind of wait that a request begins. -/
def Request.kind : Request → Kind
  | .qccStatus _ => .qccStatus
  | .qccReset => .qccReset
  | .readChipId => .chipIdRead
  | .dwell .. => .dwell
  | .memoryWrite .. => .memoryWrite
  | .memoryWriteAll .. => .memoryWriteAll
  | .linkTest _ => .linkTest
  | .individualLinkTest _ => .individualLinkTest
  | .rxCal .. => .rxCal
  | .txCal .. => .txCal
  | .isolationAll _ => .isolationAll
  | .isolationOne .. => .isolationIndividual
  | .statusAll .. => .statusAll
  | .statusOne .. => .statusIndividual
  | .timingSob .. => .timingSob
  | .timingPrt .. => .timingPrt
  | .timingPps _ => .timingPps

/-- The QTRM that a request is for, if it is for a single one. -/
def Request.target : Request → Option Qtrm
  | .memoryWrite _ q _ => some q
  | .individualLinkTest q => some q
  | .rxCal q .. => some q
  | .txCal q .. => some q
  | .isolationOne q _ => some q
  | .statusOne q .. => some q
  | _ => none

/-- Frames whose header is built from the settings. -/
structure Headed (build : RcSettings → Bytes × RcSettings) : Prop where
  count : ∀ rc, (build rc).2.messageNumber = rc.messageNumber + 1
  number : ∀ rc, messageNumber (build rc).1 = (rc.messageNumber + 1) % 2 ^ 32

/-- Latching touches the attributes of one command and nothing else. -/
structure Latches (latch : Window → Window) (attr : Option TargetAttr) (target : Option Qtrm) :
    Prop where
  ctrl : ∀ w, (latch w).ctrl = w.ctrl
  worker : ∀ w, (latch w).worker = w.worker
  asking : ∀ w, (latch w).asking = w.asking
  out : ∀ w, (latch w).out = w.out
  target : ∀ w a, attr = some a → (latch w).targets a = target ∧ target.isSome

theorem headed_commandFrame {cmd : Nat} {body : Bytes} {frame : Bytes → Bytes}
    (h : ∀ header, ∃ rest, frame header = header ++ rest) :
    Headed (commandFrame cmd body frame) where
  count _ := rfl
  number rc := by
    obtain ⟨rest, hr⟩ := h (rc.buildHeader cmd body).1
    rw [commandFrame]
    dsimp only
    rw [hr]
    exact RcSettings.messageNumber_buildHeader ..

theorem latches_id {target : Option Qtrm} : Latches id none target :=
  ⟨fun _ => rfl, fun _ => rfl, fun _ => rfl, fun _ => rfl, fun _ _ h => nomatch h⟩

theorem latches_target (a : TargetAttr) (q : Qtrm) : Latches (latchTarget a q) (some a) (some q) where
  ctrl _ := rfl
  worker _ := rfl
  asking _ := rfl
  out _ := rfl
  target w b hb := by
    obtain rfl := Option.some.inj hb
    simp [latchTarget]

theorem Latches.status {latch : Window → Window} {attr : Option TargetAttr} {target : Option Qtrm}
    (h : Latches latch attr target) (type sub : Nat) :
    Latches (fun w => (latch w).latchStatusType type sub) attr target :=
  ⟨h.ctrl, h.worker, h.asking, h.out, h.target⟩

/-- Every request goes through `sendCommand`. -/
theorem onRequest_eq (r : Request) : ∃ build latch, Headed build ∧
    Latches latch (commands r.kind).targetAttr r.target ∧
    (∀ w, (latch w).burnTestWorker = w.burnTestWorker) ∧
    ∀ w : Window, w.onRequest r = w.sendCommand r.kind r.isAutoResend build latch := by
  have hslot : ∀ slot header, ∃ rest, slotFrame header slot = header ++ rest :=
    fun _ _ => ⟨_, rfl⟩
  have hbare : ∀ header, ∃ rest, headerOnlyFrame header = header ++ rest := fun _ => ⟨_, rfl⟩
  cases r with
  | qccStatus | qccReset | readChipId | timingSob | timingPrt | timingPps =>
    exact ⟨_, _, headed_commandFrame hbare, latches_id, fun _ => rfl,
      fun _ => rfl⟩
  | dwell | memoryWriteAll | linkTest | isolationAll =>
    exact ⟨_, _, headed_commandFrame (hslot _), latches_id, fun _ => rfl,
      fun _ => rfl⟩
  | memoryWrite _ q | individualLinkTest q | rxCal q | txCal q | isolationOne q =>
    exact ⟨_, _, headed_commandFrame (hslot _), latches_target _ q, fun _ => rfl,
      fun _ => rfl⟩
  | statusAll type sub =>
    exact ⟨_, _, headed_commandFrame (hslot _), latches_id.status type sub, fun _ => rfl,
      fun _ => rfl⟩
  | statusOne q type sub =>
    exact ⟨_, _, headed_commandFrame (hslot _), (latches_target _ q).status type sub, fun _ => rfl,
      fun _ => rfl⟩

/-! ## The invariant -/

/-- The lock is the session's as long as the controller is busy. A command that waits has its
watchdog running and its target latched. -/
structure Ok (w : Window) : Prop where
  ctrl : w.ctrl.Ok
  busy : w.awaiting = some .remoteProgramming ↔ w.ctrl.op ≠ none
  armed : ∀ k, w.awaiting = some (.command k) → w.pendingTimer = some k
  latched : ∀ k a, w.awaiting = some (.command k) → (commands k).targetAttr = some a →
    (w.targets a).isSome
  asking : w.asking = true → w.ctrl.op = none

theorem ok_init (rc : RcSettings) : (init rc).Ok :=
  ⟨(Controller.ok_init rc).congr rfl, by simp [init, Controller.init], nofun, nofun, nofun⟩

/-! ## Session events -/

/-- The wait and the session go on as they were. -/
structure Kept (w w' : Window) : Prop where
  op : w'.ctrl.op = w.ctrl.op
  awaiting : w'.awaiting = w.awaiting
  wait : ∀ k, w.awaiting = some (.command k) →
    w'.pendingTimer = w.pendingTimer ∧ w'.targets = w.targets
  finished : finished w'.out = finished w.out

/-- The session ends and releases the lock. -/
structure Ended (op : Op) (w w' : Window) : Prop where
  before : w.ctrl.op = some op
  held : w.awaiting = some .remoteProgramming
  after : w'.ctrl.op = none
  released : w'.awaiting = none
  handed : handed w'.out = handed w.out
  finished : finished w'.out = finished w.out ++ [some op]

@[simp] theorem handed_append (a b : List Output) : handed (a ++ b) = handed a ++ handed b :=
  List.filterMap_append

@[simp] theorem finished_append (a b : List Output) :
    finished (a ++ b) = finished a ++ finished b := List.filterMap_append

theorem finished_forward (up : Bool) (out : List Signal) :
    finished (out.filterMap (forward up)) = finishes out := by
  rw [finished, finishes, List.filterMap_filterMap]
  congr 1
  funext s
  cases s <;> cases up <;> rfl

theorem handed_forward (up : Bool) (out : List Signal) :
    handed (out.filterMap (forward up)) = if up then (sends out).map (Sender.session, ·) else [] := by
  rw [handed, List.filterMap_filterMap]
  cases up with
  | true =>
    rw [if_pos rfl, sends, List.map_filterMap]
    congr 1
    funext s
    cases s <;> rfl
  | false =>
    rw [if_neg Bool.false_ne_true, List.filterMap_eq_nil_iff]
    intro s _
    cases s <;> rfl

theorem any_finished (out : List Signal) :
    (out.any fun s => s.finished?.isSome) = true ↔ finishes out ≠ [] := by
  simp only [finishes, ne_eq, List.filterMap_eq_nil_iff, List.any_eq_true, Option.isSome_iff_ne_none]
  push Not
  rfl

theorem sessionEvent_finished (ce : Controller.Event) :
    finished (w.sessionEvent ce).out = finished w.out ++ finishes (w.ctrl.handle ce).out := by
  simp only [sessionEvent, finished_append, finished_forward]

theorem sessionEvent_handed (ce : Controller.Event) :
    handed (w.sessionEvent ce).out = handed w.out ++
      if w.worker then (sends (w.ctrl.handle ce).out).map (Sender.session, ·) else [] := by
  simp only [sessionEvent, handed_append, handed_forward]

/-- The lock, after an event of the controller. -/
theorem sessionEvent_awaiting (ce : Controller.Event) :
    (w.sessionEvent ce).awaiting =
      if finishes (w.ctrl.handle ce).out ≠ [] ∧ w.awaiting = some .remoteProgramming then none
      else w.awaiting := by
  simp only [sessionEvent, any_finished]

theorem sessionEvent_cases (h : w.Ok) {c : Controller.Event} (hne : ∀ what, c ≠ .start what) :
    (Kept w (w.sessionEvent c) ∧ ∃ frames, handed (w.sessionEvent c).out = handed w.out ++ frames ∧
      (∀ x ∈ frames, x.1 = .session) ∧ (frames = [] ∨ w.ctrl.op = some .upload ∨ c = .shot)) ∨
      ∃ op, Ended op w (w.sessionEvent c) := by
  have hkept : (w.ctrl.handle c).op = w.ctrl.op → finishes (w.ctrl.handle c).out = [] →
      (sends (w.ctrl.handle c).out = [] ∨ w.ctrl.op = some .upload ∨ c = .shot) →
      Kept w (w.sessionEvent c) ∧ ∃ frames, handed (w.sessionEvent c).out = handed w.out ++ frames ∧
        (∀ x ∈ frames, x.1 = .session) ∧
        (frames = [] ∨ w.ctrl.op = some .upload ∨ c = .shot) := by
    intro hop hf hs
    refine ⟨⟨hop, by rw [sessionEvent_awaiting, hf]; simp, fun _ _ => ⟨rfl, rfl⟩,
      by rw [sessionEvent_finished, hf, List.append_nil]⟩, _, sessionEvent_handed c, ?_, ?_⟩
    · split <;> simp
    · rcases hs with hs | hs
      · exact .inl (by rw [hs]; split <;> rfl)
      · exact .inr hs
  cases Controller.handle_effect h.ctrl c with
  | same hs _ hsend => exact .inl (hkept hs.op hs.finishes hsend)
  | retargeted _ hc => exact .inl (hkept (by rw [hc]; rfl) (by rw [hc]; rfl) (.inl (by rw [hc]; rfl)))
  | linked _ hc => exact .inl (hkept (by rw [hc]; rfl) (by rw [hc]; rfl) (.inl (by rw [hc]; rfl)))
  | started he => exact absurd he (hne _)
  | @ended op he _ =>
    have hop : w.ctrl.op = some op := he.before
    have hheld : w.awaiting = some .remoteProgramming := h.busy.2 (by simp [hop])
    have hf : finishes (w.ctrl.handle c).out = [some op] := he.finishes
    refine .inr ⟨op, hop, hheld, he.after, ?_, ?_, ?_⟩
    · rw [sessionEvent_awaiting, hf]
      simp [hheld]
    · have hs : sends (w.ctrl.handle c).out = [] := he.sends
      rw [sessionEvent_handed, hs]
      simp
    · rw [sessionEvent_finished, hf]

/-! ## The handlers -/

/-- The event starts a session. -/
def StartsSession (w : Window) (e : Event) : Prop :=
  ∃ what, e = .rpStart what ∧ w.worker = true ∧ w.awaiting = none ∧ w.ctrl.Accepts what

/-- The event ends an active session by hand or with its connection. -/
def Cancels (w : Window) : Event → Prop
  | .rpCancel => True
  | .connectClicked | .connectionFieldChanged | .workerStopped => w.worker = true
  | _ => False

/-- Only the link, the settings, the log and the question change, and at most a warning is shown. -/
structure Quiet (w w' : Window) : Prop where
  ctrl : ∃ rc up, w'.ctrl = { w.ctrl with rc, sendOk := up }
  awaiting : w'.awaiting = w.awaiting
  pendingTimer : w'.pendingTimer = w.pendingTimer
  targets : w'.targets = w.targets
  burnTestWorker : w'.burnTestWorker = w.burnTestWorker
  out : w'.out = w.out ∨ ∃ title text, w'.out = w.out ++ [.warning title text]

/-- What the handler of an event does. -/
inductive Reaction (w : Window) (e : Event) (w' : Window) : Prop
  | quiet : Quiet w w' →
      (w'.asking = true → w.asking = true ∨ e = .burnTestStart ∧ w.awaiting = none) →
      ¬ w.StartsSession e → Reaction w e w'
  | sent {r : Request} {build : RcSettings → Bytes × RcSettings} {latch : Window → Window} :
      e = .request r →
      w' = ((latch { w with ctrl := { w.ctrl with rc := (build w.ctrl.rc).2 } }).beginWait
        r.kind).emit (.send (.command r.kind r.isAutoResend) (build w.ctrl.rc).1) →
      Headed build → Latches latch (commands r.kind).targetAttr r.target →
      (∀ d, (latch d).burnTestWorker = d.burnTestWorker) →
      (w.awaiting = none ∨ r.isAutoResend = true ∧ w.awaiting = some (.command r.kind)) →
      w.worker = true → Reaction w e w'
  | reset {rc : RcSettings} {frame : Bytes} : (e = .resetAll ∨ ∃ q, e = .resetOne q) →
      w' = { w with ctrl := { w.ctrl with rc } }.emit (.send .softReset frame) → w.worker = true →
      Reaction w e w'
  | starts {what : Controller.Start} : e = .rpStart what → w' = w.rpStart what → w.worker = true →
      w.awaiting = none → Reaction w e w'
  | session {c : Controller.Event} : w' = w.sessionEvent c →
      (machine.enabled w e → Controller.machine.enabled w.ctrl c) → (∀ what, c ≠ .start what) →
      (c = .cancel → w.Cancels e) → (c = .shot → e = .rpShot) → (∀ what, e ≠ .rpStart what) →
      Reaction w e w'
  | reply {raw : Bytes} {elapsedUs : Option Nat} {repaint : Bool} :
      e = .frame raw elapsedUs repaint → w' = w.onFrameReceived raw elapsedUs repaint →
      ¬(w.logging = true ∧ raw.length < headerSize) → w.awaiting ≠ some .remoteProgramming →
      Reaction w e w'
  | expired {k : Kind} : e = .responseTimeout → w' = { w with pendingTimer := none } →
      w.pendingTimer = some k → w.awaiting ≠ some (.command k) → Reaction w e w'
  | timedOut {k : Kind} : e = .responseTimeout → w' = w.onPendingTimer →
      w.pendingTimer = some k → w.awaiting = some (.command k) → Reaction w e w'
  | disconnected : w' = w.disconnect → w.Cancels e → Reaction w e w'
  | burnStarted {yes : Bool} {logError : Option String} : e = .burnTestAnswer yes logError →
      w' = { { w with asking := false }.setWorker false with
        burnTestWorker := true, awaiting := some .burnTest } → Reaction w e w'
  | burnStopped {d : Window} : (e = .burnTestStop ∨ e = .close) → w' = d.onBurnTestStop →
      Quiet w d → d.asking = w.asking → Reaction w e w'

theorem Quiet.refl (w : Window) : Quiet w w := ⟨⟨_, _, rfl⟩, rfl, rfl, rfl, rfl, .inl rfl⟩

theorem quiet_warn (title text : String) : Quiet w (w.warn title text) :=
  ⟨⟨_, _, rfl⟩, rfl, rfl, rfl, rfl, .inr ⟨_, _, rfl⟩⟩

theorem Quiet.setWorker (h : Quiet w w') (up : Bool) : Quiet w (w'.setWorker up) := by
  obtain ⟨rc, up', hc⟩ := h.ctrl
  refine ⟨⟨rc, up, ?_⟩, h.awaiting, h.pendingTimer, h.targets, h.burnTestWorker, h.out⟩
  rw [Window.setWorker, hc]

theorem Quiet.finished (h : Quiet w w') : finished w'.out = finished w.out := by
  rcases h.out with ho | ⟨title, text, ho⟩
  · rw [ho]
  · rw [ho, finished_append]
    exact List.append_nil _

theorem Quiet.handed (h : Quiet w w') : handed w'.out = handed w.out := by
  rcases h.out with ho | ⟨title, text, ho⟩
  · rw [ho]
  · rw [ho, handed_append]
    exact List.append_nil _

theorem Quiet.kept (h : Quiet w w') : Kept w w' := by
  obtain ⟨rc, up, hc⟩ := h.ctrl
  exact ⟨by rw [hc], h.awaiting, fun _ _ => ⟨h.pendingTimer, h.targets⟩, h.finished⟩

/-- A command that is refused, or is sent. -/
theorem request_cases (r : Request) : Reaction w (.request r) (w.onRequest r) := by
  obtain ⟨build, latch, hb, hl, hburn, hr⟩ := onRequest_eq r
  have hs : ¬ w.StartsSession (.request r) := fun ⟨_, he, _⟩ => nomatch he
  rw [hr]
  unfold sendCommand
  split
  · split
    · exact .quiet (.refl w) .inl hs
    · exact .quiet (quiet_warn ..) .inl hs
  split
  · exact .quiet (.refl w) .inl hs
  split
  · exact .quiet (quiet_warn ..) .inl hs
  · rename_i hw hother hbusy
    refine .sent rfl rfl hb hl hburn ?_ (not_not.1 hw)
    by_cases ha : w.awaiting = none
    · exact .inl ha
    · cases hra : r.isAutoResend with
      | false => simp [hra, ha] at hbusy
      | true => simpa [hra, ha] using hother

theorem softReset_cases (target : Option Qtrm) (he : e = .resetAll ∨ ∃ q, e = .resetOne q) :
    Reaction w e (w.onSoftReset target) := by
  unfold onSoftReset
  split
  · refine .quiet (quiet_warn ..) .inl ?_
    rintro ⟨what, rfl, -⟩
    simp at he
  · rename_i hw
    exact .reset he rfl (not_not.1 hw)

theorem rpStart_cases (what : Controller.Start) : Reaction w (.rpStart what) (w.rpStart what) := by
  have hno : ¬ (w.worker = true ∧ w.awaiting = none) → ¬ w.StartsSession (.rpStart what) := by
    rintro h ⟨_, _, hw, ha, _⟩
    exact h ⟨hw, ha⟩
  by_cases hw : w.worker = true
  · by_cases ha : w.awaiting = none
    · exact .starts rfl rfl hw ha
    · rw [rpStart, if_neg (not_not.2 hw), if_pos ha]
      exact .quiet (quiet_warn ..) .inl (hno fun h => ha h.2)
  · rw [rpStart, if_pos hw]
    exact .quiet (quiet_warn ..) .inl (hno fun h => hw h.1)

theorem frame_cases (raw : Bytes) (elapsedUs : Option Nat) (repaint : Bool) :
    Reaction w (.frame raw elapsedUs repaint) (w.onFrameReceived raw elapsedUs repaint) := by
  by_cases hl : w.logging = true ∧ raw.length < headerSize
  · rw [onFrameReceived, if_pos hl]
    exact .quiet (.refl w) .inl fun ⟨_, he, _⟩ => nomatch he
  · by_cases ha : w.awaiting = some .remoteProgramming
    · rw [onFrameReceived, if_neg hl, if_pos ha]
      exact .session rfl (fun _ => trivial) nofun nofun nofun nofun
    · exact .reply rfl rfl hl ha

theorem timeout_cases : Reaction w .responseTimeout w.onPendingTimer := by
  cases hk : w.pendingTimer with
  | none =>
    rw [onPendingTimer, hk]
    exact .quiet (.refl w) .inl fun ⟨_, he, _⟩ => nomatch he
  | some k =>
    by_cases ha : w.awaiting = some (.command k)
    · exact .timedOut rfl rfl hk ha
    · refine .expired rfl ?_ hk ha
      rw [onPendingTimer, hk]
      dsimp only
      rw [onResponseTimeout, if_pos ha]

/-- The Connect button, a change of its fields, and the end of its worker. -/
theorem connection_cases (he : e = .connectClicked ∨ e = .connectionFieldChanged ∨
    e = .workerStopped) : Reaction w e (w.react e) := by
  have hs : ¬ w.StartsSession e := by
    rintro ⟨what, rfl, -⟩
    simp at he
  rcases he with rfl | rfl | rfl
  all_goals
    simp only [react, onConnectClicked, onConnectionFieldChanged, onWorkerStopped]
    split
    · rename_i hw
      exact .disconnected rfl hw
  · exact .quiet ((Quiet.refl w).setWorker true) .inl hs
  · exact .quiet (.refl w) .inl hs
  · exact .quiet (.refl w) .inl hs

theorem burnTestStart_cases : Reaction w .burnTestStart w.onBurnTestStart := by
  have hs : ¬ w.StartsSession .burnTestStart := fun ⟨_, he, _⟩ => nomatch he
  unfold onBurnTestStart
  split
  · exact .quiet (quiet_warn ..) .inl hs
  split
  · exact .quiet (quiet_warn ..) .inl hs
  · rename_i ha
    exact .quiet ⟨⟨_, _, rfl⟩, rfl, rfl, rfl, rfl, .inl rfl⟩
      (fun _ => .inr ⟨rfl, not_not.1 ha⟩) hs

theorem burnTestAnswer_cases (yes : Bool) (logError : Option String) :
    Reaction w (.burnTestAnswer yes logError) (w.onBurnTestAnswer yes logError) := by
  have hs : ¬ w.StartsSession (.burnTestAnswer yes logError) := fun ⟨_, he, _⟩ => nomatch he
  have hq : Quiet w { w with asking := false } := ⟨⟨_, _, rfl⟩, rfl, rfl, rfl, rfl, .inl rfl⟩
  unfold onBurnTestAnswer
  dsimp only
  split
  · exact .quiet hq nofun hs
  split
  · exact .quiet ⟨⟨_, _, rfl⟩, rfl, rfl, rfl, rfl, .inr ⟨_, _, rfl⟩⟩ nofun hs
  split
  · exact .quiet hq nofun hs
  · exact .burnStarted rfl rfl

theorem burnTestStop_cases : Reaction w .burnTestStop w.onBurnTestStopClicked := by
  unfold onBurnTestStopClicked
  dsimp only
  split
  · rename_i hw
    rw [onConnectClicked, if_neg hw.2]
    exact .burnStopped (.inl rfl) rfl ((Quiet.refl w).setWorker true) rfl
  · exact .burnStopped (.inl rfl) rfl (.refl w) rfl

theorem react_cases (w : Window) (e : Event) : Reaction w e (w.react e) := by
  cases e with
  | request r => exact request_cases r
  | resetAll => exact softReset_cases none (.inl rfl)
  | resetOne q => exact softReset_cases (some q) (.inr ⟨q, rfl⟩)
  | rpStart what => exact rpStart_cases what
  | rpCancel => exact .session rfl (fun _ => trivial) nofun (fun _ => trivial) nofun nofun
  | rpTargetQtrmChanged | rpIapTimeoutChanged =>
    exact .session rfl (fun _ => trivial) nofun nofun nofun nofun
  | rpTimer => exact .session rfl id nofun nofun nofun nofun
  | rpShot => exact .session rfl id nofun nofun (fun _ => rfl) nofun
  | frame raw elapsedUs repaint => exact frame_cases raw elapsedUs repaint
  | responseTimeout => exact timeout_cases
  | connectClicked => exact connection_cases (.inl rfl)
  | connectionFieldChanged => exact connection_cases (.inr (.inl rfl))
  | workerStopped => exact connection_cases (.inr (.inr rfl))
  | bindFailed msg =>
    exact .quiet ((quiet_warn ..).setWorker false) .inl fun ⟨_, he, _⟩ => nomatch he
  | burnTestStart => exact burnTestStart_cases
  | burnTestAnswer yes logError => exact burnTestAnswer_cases yes logError
  | burnTestStop => exact burnTestStop_cases
  | close =>
    have hq : Quiet w { w with logging := false } := ⟨⟨_, _, rfl⟩, rfl, rfl, rfl, rfl, .inl rfl⟩
    exact .burnStopped (.inr rfl) rfl hq rfl
  | setLogging | setRcSettings =>
    exact .quiet ⟨⟨_, _, rfl⟩, rfl, rfl, rfl, rfl, .inl rfl⟩ .inl fun ⟨_, he, _⟩ => nomatch he

/-! ## The effect of an event -/

/-- What one event does to the lock and hands to the worker. -/
inductive Effect (w : Window) (e : Event) (w' : Window) : Prop
  | kept {frames : List (Sender × Bytes)} : Kept w w' → handed w'.out = handed w.out ++ frames →
      (∀ x ∈ frames, x.1 = .session) → (frames = [] ∨ w.ctrl.op = some .upload ∨ e = .rpShot) →
      ¬ w.StartsSession e → Effect w e w'
  | reset {frame : Bytes} : (e = .resetAll ∨ ∃ q, e = .resetOne q) → w.worker = true → Kept w w' →
      handed w'.out = handed w.out ++ [(.softReset, frame)] → Effect w e w'
  | unwaited : w.awaiting ≠ some .remoteProgramming →
      (w'.awaiting = none ∨ w'.awaiting = some .burnTest) → w'.ctrl.op = w.ctrl.op →
      handed w'.out = handed w.out → finished w'.out = finished w.out →
      (∀ what, e ≠ .rpStart what) → Effect w e w'
  | began {r : Request} {frame : Bytes} : e = .request r →
      (w.awaiting = none ∨ r.isAutoResend = true ∧ w.awaiting = some (.command r.kind)) →
      w'.awaiting = some (.command r.kind) → w'.pendingTimer = some r.kind →
      (∀ a, (commands r.kind).targetAttr = some a → w'.targets a = r.target ∧ r.target.isSome) →
      messageNumber frame = (w.ctrl.rc.messageNumber + 1) % 2 ^ 32 →
      handed w'.out = handed w.out ++ [(.command r.kind r.isAutoResend, frame)] →
      w'.ctrl.op = w.ctrl.op → finished w'.out = finished w.out → Effect w e w'
  | started {what : Controller.Start} {frame : Bytes} : e = .rpStart what → w.StartsSession e →
      w'.ctrl.op = some what.op → w'.awaiting = some .remoteProgramming →
      handed w'.out = handed w.out ++ [(.session, frame)] → finished w'.out = finished w.out →
      Effect w e w'
  | ended {op : Op} : Ended op w w' → Effect w e w'

/-- A handler that leaves the lock and the session alone. -/
theorem Effect.quiet (h : Kept w w') (hh : handed w'.out = handed w.out)
    (hs : ¬ w.StartsSession e) : Effect w e w' :=
  .kept h (hh.trans (List.append_nil _).symm) (by simp) (.inl rfl) hs

/-- An event of the controller that starts nothing. -/
theorem sessionEvent_effect (h : w.Ok) {ce : Controller.Event} (hne : ∀ what, ce ≠ .start what)
    (hshot : ce = .shot → e = .rpShot) (hs : ∀ what, e ≠ .rpStart what) :
    Effect w e (w.sessionEvent ce) := by
  rcases sessionEvent_cases h hne with ⟨hk, frames, hh, hf, hu⟩ | ⟨op, he⟩
  · refine .kept hk hh hf ?_ fun ⟨what, he, _⟩ => hs what he
    exact hu.imp_right fun hu => hu.imp_right hshot
  · exact .ended he

theorem rpStart_effect (h : w.Ok) (hw : w.worker = true) (ha : w.awaiting = none)
    (what : Controller.Start) : Effect w (.rpStart what) (w.rpStart what) := by
  rw [rpStart, if_neg (not_not.2 hw), if_neg (not_not.2 ha)]
  have hop : w.ctrl.op = none := by simpa [ha] using h.busy
  dsimp only
  generalize hd : ({ w with awaiting := some .remoteProgramming } : Window) = d
  have hdc : d.ctrl = w.ctrl := by rw [← hd]
  have hdo : d.out = w.out := by rw [← hd]
  have hdw : d.worker = true := by rw [← hd]; exact hw
  have hda : d.awaiting = some .remoteProgramming := by rw [← hd]
  by_cases hac : w.ctrl.Accepts what
  · have hst := Controller.startOp_accepted (c := w.ctrl.cleared) hac
    have hf : finishes (d.ctrl.handle (.start what)).out = [] := by rw [hdc]; exact hst.finishes
    have hsend : sends (d.ctrl.handle (.start what)).out = [w.ctrl.cleared.startFrame what] := by
      rw [hdc]
      exact hst.sends
    have hop' : (d.sessionEvent (.start what)).ctrl.op = some what.op := by
      rw [sessionEvent, hdc]
      exact hst.op
    have hh : handed (d.sessionEvent (.start what)).out =
        handed w.out ++ [(.session, w.ctrl.cleared.startFrame what)] := by
      rw [sessionEvent_handed, hsend, hdo, hdw]
      rfl
    rw [if_neg (by simp [Controller.busy, hop'])]
    refine .started rfl ⟨what, rfl, hw, ha, hac⟩ hop' ?_ hh ?_
    · rw [sessionEvent_awaiting, hf]
      simpa using hda
    · rw [sessionEvent_finished, hf, hdo, List.append_nil]
  · have href : d.ctrl.handle (.start what) = w.ctrl.cleared := by
      rw [hdc]
      exact Controller.startOp_refused (c := w.ctrl.cleared) hac
    have hop' : (d.sessionEvent (.start what)).ctrl.op = none := by
      rw [sessionEvent, href]
      exact hop
    rw [if_pos (by simp [Controller.busy, hop'])]
    refine .quiet ⟨hop'.trans hop.symm, ha.symm, fun k hk => ?_, ?_⟩ ?_ ?_
    · rw [ha] at hk
      cases hk
    · rw [finished_emit]
      simp only [sessionEvent, href, finished_append, finished_forward, hdo]
      simp [Controller.cleared, Output.finished?]
    · rw [handed_emit]
      simp only [sessionEvent, href, handed_append, handed_forward, hdo]
      simp [Controller.cleared, Output.handed?]
    · rintro ⟨_, he, _, _, hc⟩
      cases he
      exact hac hc

/-- Only a wait for a burn test is taken away. -/
theorem burnTestStop_effect (h : Kept w w') (hh : handed w'.out = handed w.out)
    (hs : ∀ what, e ≠ .rpStart what) : Effect w e w'.onBurnTestStop := by
  have hs' : ¬ w.StartsSession e := fun ⟨what, he, _⟩ => hs what he
  by_cases hb : w'.awaiting = some .burnTest
  · refine .unwaited ?_ (.inl ?_) h.op hh h.finished hs
    · rw [← h.awaiting, hb]
      nofun
    · simp [onBurnTestStop, hb]
  · exact .quiet ⟨h.op, by rw [onBurnTestStop]; exact (if_neg hb).trans h.awaiting, h.wait,
      h.finished⟩ hh hs'

/-- The effect does not depend on the worker. -/
theorem Effect.setWorker (h : Effect w e w') (up : Bool) : Effect w e (w'.setWorker up) := by
  cases h with
  | kept hk hh hf hu hst => exact .kept ⟨hk.1, hk.2, hk.3, hk.4⟩ hh hf hu hst
  | reset he hw hk hh => exact .reset he hw ⟨hk.1, hk.2, hk.3, hk.4⟩ hh
  | unwaited h₁ h₂ h₃ h₄ h₅ h₆ => exact .unwaited h₁ h₂ h₃ h₄ h₅ h₆
  | began h₁ h₂ h₃ h₄ h₅ h₆ h₇ h₈ h₉ => exact .began h₁ h₂ h₃ h₄ h₅ h₆ h₇ h₈ h₉
  | started h₁ h₂ h₃ h₄ h₅ h₆ => exact .started h₁ h₂ h₃ h₄ h₅ h₆
  | ended he => exact .ended ⟨he.1, he.2, he.3, he.4, he.5, he.6⟩

theorem disconnect_effect (h : w.Ok) (hs : ∀ what, e ≠ .rpStart what) :
    Effect w e w.disconnect := by
  have hstop : Effect w e (w.sessionEvent .cancel).onBurnTestStop := by
    rcases sessionEvent_cases h (c := .cancel) nofun with ⟨hk, -⟩ | ⟨op, he⟩
    · have hc : w.ctrl.handle .cancel = w.ctrl.cleared := by
        rcases Controller.cancel_cases (c := w.ctrl.cleared) with hc | ⟨op, hc⟩
        · exact hc
        · have hop : (w.ctrl.handle .cancel).op = none := hc.after
          have hop' : w.ctrl.op = some op := hc.before
          rw [← hk.op] at hop'
          exact nomatch hop.symm.trans hop'
      refine burnTestStop_effect hk ?_ hs
      rw [sessionEvent_handed, hc]
      simp [Controller.cleared]
    · refine .ended ⟨he.before, he.held, he.after, ?_, he.handed, he.finished⟩
      simp [onBurnTestStop, he.released]
  unfold disconnect
  dsimp only
  split
  · exact hstop.setWorker false
  · exact hstop

/-! ## Replies and timeouts -/

/-- The tabs are told something, and a latched target may be taken. -/
structure Shows (w w' : Window) : Prop where
  ctrl : w'.ctrl = w.ctrl
  worker : w'.worker = w.worker
  awaiting : w'.awaiting = w.awaiting
  pendingTimer : w'.pendingTimer = w.pendingTimer
  asking : w'.asking = w.asking
  burnTestWorker : w'.burnTestWorker = w.burnTestWorker
  handed : handed w'.out = handed w.out
  finished : finished w'.out = finished w.out

theorem Shows.refl (w : Window) : Shows w w := ⟨rfl, rfl, rfl, rfl, rfl, rfl, rfl, rfl⟩

theorem Shows.emit (h : Shows w w') {o : Output} (hh : o.handed? = none) (hf : o.finished? = none) :
    Shows w (w'.emit o) :=
  ⟨h.ctrl, h.worker, h.awaiting, h.pendingTimer, h.asking, h.burnTestWorker,
    by rw [handed_emit, hh, h.handed]; exact List.append_nil _,
    by rw [finished_emit, hf, h.finished]; exact List.append_nil _⟩

theorem shows_takeTarget (spec : Command) : Shows w (w.takeTarget spec).2 := by
  unfold takeTarget
  split <;> exact ⟨rfl, rfl, rfl, rfl, rfl, rfl, rfl, rfl⟩

theorem Shows.responseTime (h : Shows w w') (k : Kind) (elapsedUs : Option Nat) :
    Shows w (w'.showResponseTime k elapsedUs) := by
  unfold showResponseTime
  split
  · split
    · exact h.emit rfl rfl
    · exact h
  · exact h

theorem Shows.result (h : Shows w w') (k : Kind) (raw : Bytes) (target : Option Qtrm) :
    Shows w (w'.showResult k raw target) := by
  unfold showResult
  split
  · exact h
  · split
    · exact h.emit (o := .warning ..) rfl rfl
    · exact h.emit rfl rfl

theorem shows_onReply (k : Kind) (raw : Bytes) (elapsedUs : Option Nat) (repaint : Bool) :
    Shows w (w.onReply k raw elapsedUs repaint) := by
  have ht := shows_takeTarget (w := w) (commands k)
  unfold onReply
  dsimp only
  split
  · exact ht
  · exact (ht.responseTime k elapsedUs).result k raw _

theorem shows_onChipIdReply (raw : Bytes) : Shows w (w.onChipIdReply raw) := by
  unfold onChipIdReply
  split
  · exact ((Shows.refl w).emit rfl rfl).emit rfl rfl
  · exact (Shows.refl w).emit rfl rfl

/-- A frame that no session is given ends the wait. -/
theorem shows_onFrameReceived {raw : Bytes} (h : ¬(w.logging = true ∧ raw.length < headerSize))
    (hne : w.awaiting ≠ some .remoteProgramming) (elapsedUs : Option Nat) (repaint : Bool) :
    Shows { w.endWait with awaiting := none } (w.onFrameReceived raw elapsedUs repaint) := by
  rw [onFrameReceived, if_neg h, if_neg hne]
  dsimp only
  split
  · exact shows_onChipIdReply raw
  · exact shows_onReply ..
  · exact .refl _

/-- So does the watchdog. -/
theorem shows_onPendingTimer {k : Kind} (hk : w.pendingTimer = some k)
    (ha : w.awaiting = some (.command k)) :
    Shows { w.endWait with awaiting := none } w.onPendingTimer := by
  rw [onPendingTimer, hk]
  dsimp only
  rw [onResponseTimeout, if_neg (not_not.2 ha)]
  exact (shows_takeTarget _).emit rfl rfl

/-- The end of a wait. -/
theorem Shows.effect (h : Shows { w.endWait with awaiting := none } w')
    (hne : w.awaiting ≠ some .remoteProgramming) (hs : ∀ what, e ≠ .rpStart what) :
    Effect w e w' :=
  .unwaited hne (.inl h.awaiting) (congrArg Controller.op h.ctrl) h.handed h.finished hs

/-! ## All events -/

theorem Ok.idle (h : w.Ok) (hop : w.ctrl.op = none) : w.awaiting ≠ some .remoteProgramming :=
  fun ha => h.busy.1 ha hop

theorem Reaction.effect (h : w.Ok) (he : machine.enabled w e) (hr : Reaction w e w') :
    Effect w e w' := by
  cases hr with
  | quiet hq _ hs => exact .quiet hq.kept hq.handed hs
  | sent he' hw' hb hl _ hat _ =>
    subst he' hw'
    refine .began rfl hat rfl rfl (fun a ha => hl.target _ a ha) (hb.number w.ctrl.rc) ?_ ?_ ?_
    · simp [beginWait, hl.out, Output.handed?]
    · simp [beginWait, emit, hl.ctrl]
    · simp [beginWait, hl.out, Output.finished?]
  | reset he' hw' hw =>
    subst hw'
    exact .reset he' hw ⟨rfl, rfl, fun _ _ => ⟨rfl, rfl⟩, by simp [Output.finished?]⟩
      (by rw [handed_emit]; rfl)
  | starts he' hw' hw ha =>
    subst he' hw'
    exact rpStart_effect h hw ha _
  | session hw' _ hne _ hshot hs =>
    subst hw'
    exact sessionEvent_effect h hne hshot hs
  | reply he' hw' hl hne =>
    subst he' hw'
    exact (shows_onFrameReceived hl hne ..).effect hne nofun
  | expired he' hw' hk hne =>
    subst he' hw'
    -- only the watchdog of the command that waits runs
    refine .quiet ⟨rfl, rfl, fun j hj => ?_, rfl⟩ rfl fun ⟨_, he, _⟩ => nomatch he
    obtain rfl := Option.some.inj ((h.armed j hj).symm.trans hk)
    exact absurd hj hne
  | timedOut he' hw' hk ha =>
    subst he' hw'
    exact (shows_onPendingTimer hk ha).effect (by rw [ha]; nofun) nofun
  | disconnected hw' hc =>
    subst hw'
    refine disconnect_effect h ?_
    rintro what rfl
    exact hc
  | burnStarted he' hw' =>
    subst he' hw'
    exact .unwaited (h.idle (h.asking he)) (.inr rfl) rfl rfl rfl nofun
  | burnStopped he' hw' hq _ =>
    subst hw'
    refine burnTestStop_effect hq.kept hq.handed ?_
    rintro what rfl
    simp at he'

theorem react_effect (h : w.Ok) (he : machine.enabled w e) : Effect w e (w.react e) :=
  (react_cases w e).effect h he

/-! ## The controller and the question -/

/-- What an event does to the controller: new settings or another link at most, or one event of its
own, whose signals are passed on. -/
inductive Drives (w : Window) (e : Event) (w' : Window) : Prop
  | kept {rc : RcSettings} {up : Bool} : w'.ctrl = { w.ctrl with rc, sendOk := up } → Drives w e w'
  | handled {c : Controller.Event} {up : Bool} : Controller.machine.enabled w.ctrl c →
      (c = .cancel → w.Cancels e) → w'.ctrl = { w.ctrl.handle c with sendOk := up } →
      (∀ s ∈ (w.ctrl.handle c).out, s.frame? = none → .session s ∈ w'.out) → Drives w e w'

theorem Drives.of_eq (hc : w'.ctrl = w.ctrl) : Drives w e w' := by
  have hk : w'.ctrl = { w.ctrl with rc := w.ctrl.rc, sendOk := w.ctrl.sendOk } := hc
  exact .kept hk

theorem mem_sessionEvent {c : Controller.Event} {s : Signal} (hs : s ∈ (w.ctrl.handle c).out)
    (hf : s.frame? = none) : .session s ∈ (w.sessionEvent c).out := by
  refine List.mem_append_right _ (List.mem_filterMap.2 ⟨s, hs, ?_⟩)
  cases s with
  | send frame => cases hf
  | _ => rfl

theorem sessionEvent_drives {c : Controller.Event} (he : Controller.machine.enabled w.ctrl c)
    (hc : c = .cancel → w.Cancels e) : Drives w e (w.sessionEvent c) := by
  have hctrl : (w.sessionEvent c).ctrl =
      { w.ctrl.handle c with sendOk := (w.ctrl.handle c).sendOk } := rfl
  exact .handled he hc hctrl fun _ => mem_sessionEvent

theorem disconnect_drives (hc : w.Cancels e) : Drives w e w.disconnect := by
  have hs : ∀ s ∈ (w.ctrl.handle .cancel).out, s.frame? = none →
      .session s ∈ w.disconnect.out := by
    intro s hs hf
    have hm := mem_sessionEvent hs hf
    unfold disconnect
    dsimp only
    split <;> exact hm
  by_cases hw : w.worker = true
  · have hctrl : w.disconnect.ctrl = { w.ctrl.handle .cancel with sendOk := false } :=
      congrArg Window.ctrl (if_pos hw)
    exact .handled (c := .cancel) trivial (fun _ => hc) hctrl hs
  · have hctrl : w.disconnect.ctrl =
        { w.ctrl.handle .cancel with sendOk := (w.ctrl.handle .cancel).sendOk } :=
      congrArg Window.ctrl (if_neg hw)
    exact .handled (c := .cancel) trivial (fun _ => hc) hctrl hs

theorem rpStart_drives (hw : w.worker = true) (ha : w.awaiting = none) (what : Controller.Start) :
    Drives w e (w.rpStart what) := by
  have hs : ∀ s ∈ (w.ctrl.handle (.start what)).out, s.frame? = none →
      .session s ∈ ({ w with awaiting := some .remoteProgramming }.sessionEvent (.start what)).out :=
    fun _ hs hf => mem_sessionEvent (w := { w with awaiting := some .remoteProgramming }) hs hf
  have hup : { w.ctrl.handle (.start what) with sendOk := (w.ctrl.handle (.start what)).sendOk } =
      w.ctrl.handle (.start what) := rfl
  rw [rpStart, if_neg (not_not.2 hw), if_neg (not_not.2 ha)]
  dsimp only
  split
  · exact .handled (c := .start what) trivial nofun hup.symm fun s h hf =>
      List.mem_append_left _ (hs s h hf)
  · exact .handled (c := .start what) trivial nofun hup.symm hs

theorem react_drives (he : machine.enabled w e) : Drives w e (w.react e) := by
  have hr := react_cases w e
  generalize w.react e = w' at hr
  cases hr with
  | quiet hq _ _ =>
    obtain ⟨rc, up, hc⟩ := hq.ctrl
    exact .kept hc
  | sent _ hw' _ hl =>
    subst hw'
    exact .kept (hl.ctrl _)
  | reset _ hw' _ =>
    subst hw'
    exact .kept rfl
  | starts _ hw' hw ha =>
    subst hw'
    exact rpStart_drives hw ha _
  | session hw' hen _ hc _ _ =>
    subst hw'
    exact sessionEvent_drives (hen he) hc
  | reply _ hw' hl hne =>
    subst hw'
    exact .of_eq (shows_onFrameReceived hl hne ..).ctrl
  | expired _ hw' _ _ =>
    subst hw'
    exact .of_eq rfl
  | timedOut _ hw' hk ha =>
    subst hw'
    exact .of_eq (shows_onPendingTimer hk ha).ctrl
  | disconnected hw' hc =>
    subst hw'
    exact disconnect_drives hc
  | burnStarted _ hw' =>
    subst hw'
    exact .kept rfl
  | burnStopped _ hw' hq _ =>
    obtain ⟨rc, up, hc⟩ := hq.ctrl
    subst hw'
    exact .kept hc

theorem react_asking : (w.react e).asking = true →
    w.asking = true ∨ e = .burnTestStart ∧ w.awaiting = none := by
  have hr := react_cases w e
  generalize w.react e = w' at hr ⊢
  have hsame : w'.asking = w.asking → w'.asking = true →
      w.asking = true ∨ e = .burnTestStart ∧ w.awaiting = none := fun hd ha => .inl (hd ▸ ha)
  cases hr with
  | quiet _ hask _ => exact hask
  | sent _ hw' _ hl => exact hsame (hw' ▸ hl.asking _)
  | reset _ hw' _ => exact hsame (hw' ▸ rfl)
  | starts _ hw' hw ha =>
    refine hsame ?_
    rw [hw', rpStart, if_neg (not_not.2 hw), if_neg (not_not.2 ha)]
    dsimp only
    split <;> rfl
  | session hw' => exact hsame (hw' ▸ rfl)
  | reply _ hw' hl hne => exact hsame (hw' ▸ (shows_onFrameReceived hl hne ..).asking)
  | expired _ hw' => exact hsame (hw' ▸ rfl)
  | timedOut _ hw' hk ha => exact hsame (hw' ▸ (shows_onPendingTimer hk ha).asking)
  | disconnected hw' _ =>
    refine hsame ?_
    rw [hw', disconnect]
    split <;> rfl
  | burnStarted _ hw' =>
    rw [hw']
    nofun
  | burnStopped _ hw' _ hask => exact hsame (hw' ▸ hask)

/-- The controller handles at most one event of its own, and a question that is open was open
before or has just been asked. -/
structure Rest (w : Window) (e : Event) (w' : Window) : Prop where
  ctrl : w'.ctrl.core = w.ctrl.core ∨ ∃ c, Controller.machine.enabled w.ctrl c ∧
    (c = .cancel → w.Cancels e) ∧ w'.ctrl.core = (w.ctrl.handle c).core
  asking : w'.asking = true → w.asking = true ∨ e = .burnTestStart ∧ w.awaiting = none

theorem react_rest (he : machine.enabled w e) : Rest w e (w.react e) := by
  refine ⟨?_, react_asking⟩
  cases react_drives he with
  | kept hc =>
    rw [hc]
    exact .inl rfl
  | handled hen hcancel hc _ =>
    rw [hc]
    exact .inr ⟨_, hen, hcancel, rfl⟩

/-! ## Runs -/

theorem Ok.cleared (h : w.Ok) : w.cleared.Ok := ⟨h.ctrl, h.busy, h.armed, h.latched, h.asking⟩

theorem ok_kept (h : w.Ok) (hk : Kept w w') (hctrl : w'.ctrl.Ok)
    (hask : w'.asking = true → w'.ctrl.op = none) : w'.Ok where
  ctrl := hctrl
  busy := by rw [hk.awaiting, hk.op]; exact h.busy
  armed k ha := by
    rw [hk.awaiting] at ha
    rw [(hk.wait k ha).1]
    exact h.armed k ha
  latched k a ha hat := by
    rw [hk.awaiting] at ha
    rw [(hk.wait k ha).2]
    exact h.latched k a ha hat
  asking := hask

theorem ok_react (h : w.Ok) (he : machine.enabled w e) : (w.react e).Ok := by
  have hr := react_rest he
  have hctrl : (w.react e).ctrl.Ok := by
    rcases hr.ctrl with hc | ⟨c, hen, -, hc⟩
    · exact h.ctrl.congr hc
    · exact (Controller.ok_handle h.ctrl hen).congr hc
  have hask : (w.react e).ctrl.op = w.ctrl.op → (w.react e).asking = true →
      (w.react e).ctrl.op = none := by
    intro ho ha
    rw [ho]
    rcases hr.asking ha with ha | ⟨-, ha⟩
    · exact h.asking ha
    · simpa [ha] using h.busy
  cases react_effect h he with
  | kept hk _ _ _ _ => exact ok_kept h hk hctrl (hask hk.op)
  | reset _ _ hk _ => exact ok_kept h hk hctrl (hask hk.op)
  | unwaited hne ha ho _ _ _ =>
    have hop : w.ctrl.op = none := by simpa [hne] using h.busy
    refine ⟨hctrl, ?_, ?_, ?_, hask ho⟩
    · rcases ha with ha | ha <;> simp [ha, ho, hop]
    · rcases ha with ha | ha <;> simp [ha]
    · rcases ha with ha | ha <;> simp [ha]
  | began _ hw ha hp ht _ _ ho _ =>
    have hop : w.ctrl.op = none := by
      rcases hw with hw | ⟨-, hw⟩ <;> simpa [hw] using h.busy
    refine ⟨hctrl, by simp [ha, ho, hop], fun k hk => ?_, fun k a hk hat => ?_, hask ho⟩
    · rw [ha] at hk
      cases hk
      exact hp
    · rw [ha] at hk
      cases hk
      rw [(ht a hat).1]
      exact (ht a hat).2
  | started hst _ ho ha _ _ =>
    refine ⟨hctrl, by simp [ha, ho], by simp [ha], by simp [ha], fun hk => ?_⟩
    rcases hr.asking hk with hk | ⟨hk, -⟩
    · rw [hst] at he
      exact absurd hk he
    · rw [hst] at hk
      nomatch hk
  | ended hd =>
    exact ⟨hctrl, by simp [hd.released, hd.after], by simp [hd.released], by simp [hd.released],
      fun _ => hd.after⟩

theorem ok_handle (h : w.Ok) (he : machine.enabled w e) : (w.handle e).Ok :=
  ok_react (w := w.cleared) h.cleared he

theorem handle_effect (h : w.Ok) (he : machine.enabled w e) : Effect w.cleared e (w.handle e) :=
  react_effect (w := w.cleared) h.cleared he

/-- The invariant holds in every run. -/
theorem run_ok {rc : RcSettings} {tr : List (Window × Event)} (hr : machine.Run (init rc) tr w) :
    w.Ok :=
  hr.invariant' (ok_init rc) fun _ _ h he => ok_handle h he

end Window

end QccGui
