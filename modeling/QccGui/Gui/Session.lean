import QccGui.Gui.Controller

/-!
# Sessions of the controller

What one event can do to the session: it starts one, ends one, or leaves it alone.

* `Controller.Ok`: the invariant that ties the timer and the upload state to the operation.
* `Effect`, `handle_effect`: the effect of an event on the session.
* `run_ok`: the invariant holds in every run.
-/

namespace QccGui

open Lib

/-- The frame that a signal hands to the send function. -/
@[simp] def Signal.frame? : Signal → Option Bytes
  | .send frame => some frame
  | _ => none

/-- The operation whose session a signal ends. -/
@[simp] def Signal.finished? : Signal → Option (Option Op)
  | .sessionFinished op _ _ => some op
  | _ => none

/-- The frames among the outputs. -/
def sends (out : List Signal) : List Bytes := out.filterMap Signal.frame?

/-- The session ends among the outputs. -/
def finishes (out : List Signal) : List (Option Op) := out.filterMap Signal.finished?

@[simp] theorem sends_nil : sends [] = [] := rfl

@[simp] theorem finishes_nil : finishes [] = [] := rfl

@[simp] theorem sends_append (o o' : List Signal) : sends (o ++ o') = sends o ++ sends o' := by
  simp [sends]

@[simp] theorem finishes_append (o o' : List Signal) :
    finishes (o ++ o') = finishes o ++ finishes o' := by simp [finishes]

/-- The operations whose window the handler closes. -/
def Handler.Closes : Handler → Option Op → Prop
  | .simpleTimeout, op => op = some .modeStep1 ∨ op = some .modeStep2 ∨ op = some .linkCheck ∨
      op = some .lruInfo ∨ op = some .qtrmHighSpeed ∨ op = some .modeBack
  | .iapWindowClosed, op => op = some .authenticate ∨ op = some .verify ∨ op = some .program
  | .graceTimeout, op => op = some .upload

namespace Controller

/-- The operation that a start leads to. -/
def Start.op : Start → Op
  | .modeStep1 => .modeStep1
  | .modeStep2 => .modeStep2
  | .linkCheck => .linkCheck
  | .lruInfo => .lruInfo
  | .qtrmHighSpeed => .qtrmHighSpeed
  | .modeBack => .modeBack
  | .authenticate _ => .authenticate
  | .verify _ => .verify
  | .program _ => .program
  | .upload .. => .upload

/-- A start is accepted: nothing is active, the gate is open for what needs it, and an upload has an
image. -/
def Accepts (c : Controller) (what : Start) : Prop :=
  c.op = none ∧ match what with
    | .modeStep1 | .modeStep2 => True
    | .upload image _ => c.gateOpen = true ∧ image ≠ []
    | _ => c.gateOpen = true

instance (c : Controller) (what : Start) : Decidable (c.Accepts what) := by
  unfold Accepts
  cases what <;> exact inferInstance

/-- The frame that an accepted start sends. -/
def startFrame (c : Controller) : Start → Bytes
  | .modeStep1 => broadcastBootloaderFrame (c.rc.buildHeader commandIdDataDistribution).1
      (buildModeChangeCommand bsnMssControl) c.targetQtrm
  | .modeStep2 => qccLevelFrame (c.qccLevelHeader qccBodySwitchLowSpeed).1
  | .modeBack => qccLevelFrame (c.qccLevelHeader qccBodySwitchHighSpeed).1
  | what => remoteProgrammingCmdFrame
      (c.rc.buildHeader commandIdRemoteProgramming [] rpCmdFrameSize).1 <|
      match what with
      | .linkCheck => buildLinkRequest
      | .lruInfo => buildLruInfoRequest
      | .qtrmHighSpeed => buildModeChangeMssToFab
      | .authenticate golden => buildFirmwareUpdateCommand iapAuthenticate golden
      | .verify golden => buildFirmwareUpdateCommand iapVerify golden
      | .program golden => buildFirmwareUpdateCommand iapProgram golden
      | .upload image golden =>
        buildBitstreamReceiveCommand rpPayloadSize (splitChunks image).length golden
      | _ => []

/-! ## The invariant -/

/-- The timer belongs to the active operation, and the upload state to the upload. -/
structure Ok (c : Controller) : Prop where
  count : c.chunkCount = c.chunks.length
  shots : 0 < c.pendingShots → 0 < c.chunkCount
  upload : c.op = some .upload → 0 < c.chunkCount ∧ c.uploadPhase ≠ none
  idle : c.op ≠ some .upload → c.uploadPhase = none ∧ (c.currentChunk = none ∨ c.currentChunk = some 0)
  timer : ∀ h ms, c.timer = some (h, ms) →
    h.Closes c.op ∧ (h = .graceTimeout → c.uploadPhase = some .grace)
  current : ∀ i, c.currentChunk = some i → i < c.chunkCount

/-- The attributes that the invariant is about. -/
structure Core where
  op : Option Op
  timer : Option (Handler × Nat)
  chunks : List (Bytes × Nat)
  chunkCount : Nat
  currentChunk : Option Nat
  uploadPhase : Option Phase
  pendingShots : Nat

def core (c : Controller) : Core :=
  ⟨c.op, c.timer, c.chunks, c.chunkCount, c.currentChunk, c.uploadPhase, c.pendingShots⟩

theorem Ok.congr {c c' : Controller} (h : c.Ok) (he : c'.core = c.core) : c'.Ok := by
  simp only [core, Core.mk.injEq] at he
  obtain ⟨h₁, h₂, h₃, h₄, h₅, h₆, h₇⟩ := he
  obtain ⟨o₁, o₂, o₃, o₄, o₅, o₆⟩ := h
  exact ⟨by rwa [h₃, h₄], by rwa [h₄, h₇], by rwa [h₁, h₄, h₆], by rwa [h₁, h₅, h₆],
    by rwa [h₁, h₂, h₆], by rwa [h₄, h₅]⟩

theorem op_of_core {c c' : Controller} (h : c'.core = c.core) : c'.op = c.op := congrArg Core.op h

theorem timer_of_core {c c' : Controller} (h : c'.core = c.core) : c'.timer = c.timer :=
  congrArg Core.timer h

theorem chunks_of_core {c c' : Controller} (h : c'.core = c.core) : c'.chunks = c.chunks :=
  congrArg Core.chunks h

theorem chunkCount_of_core {c c' : Controller} (h : c'.core = c.core) :
    c'.chunkCount = c.chunkCount := congrArg Core.chunkCount h

theorem currentChunk_of_core {c c' : Controller} (h : c'.core = c.core) :
    c'.currentChunk = c.currentChunk := congrArg Core.currentChunk h

theorem uploadPhase_of_core {c c' : Controller} (h : c'.core = c.core) :
    c'.uploadPhase = c.uploadPhase := congrArg Core.uploadPhase h

theorem pendingShots_of_core {c c' : Controller} (h : c'.core = c.core) :
    c'.pendingShots = c.pendingShots := congrArg Core.pendingShots h

theorem ok_init (rc : RcSettings) : (init rc).Ok :=
  ⟨rfl, nofun, nofun, fun _ => ⟨rfl, .inl rfl⟩, nofun, nofun⟩

/-! ## What leaves the session alone -/

/-- The two states are in the same session. -/
structure Same (c c' : Controller) : Prop where
  op : c'.op = c.op
  step1 : c'.modeStep1Done = c.modeStep1Done
  step2 : c'.modeStep2Done = c.modeStep2Done
  target : c'.targetQtrm = c.targetQtrm
  sendOk : c'.sendOk = c.sendOk
  finishes : finishes c'.out = finishes c.out

variable {c c' c'' : Controller}

theorem Same.refl (c : Controller) : Same c c := ⟨rfl, rfl, rfl, rfl, rfl, rfl⟩

theorem Same.trans (h : Same c c') (h' : Same c' c'') : Same c c'' :=
  ⟨h'.op.trans h.op, h'.step1.trans h.step1, h'.step2.trans h.step2, h'.target.trans h.target,
    h'.sendOk.trans h.sendOk, h'.finishes.trans h.finishes⟩

theorem Same.gateOpen (h : Same c c') : c'.gateOpen = c.gateOpen := by
  rw [Controller.gateOpen, Controller.gateOpen, h.step1, h.step2]

@[simp] theorem sends_emit (s : Signal) :
    sends (c.emit s).out = sends c.out ++ s.frame?.toList := filterMap_snoc ..

@[simp] theorem finishes_emit (s : Signal) :
    QccGui.finishes (c.emit s).out = QccGui.finishes c.out ++ s.finished?.toList :=
  filterMap_snoc ..

/-- Emitting anything but the end of the session. -/
theorem same_emit {s : Signal} (h : s.finished? = none) : Same c (c.emit s) :=
  ⟨rfl, rfl, rfl, rfl, rfl, by rw [finishes_emit, h]; exact List.append_nil _⟩

@[simp] theorem core_emit (s : Signal) : (c.emit s).core = c.core := rfl

theorem next_of' {P : Controller → Prop} {f : Controller → Controller} (h : P c)
    (hf : P (f c)) : P (c.next f) := by
  unfold next
  split
  · exact h
  · exact hf

/-- A step of a handler that an exception may cut off. -/
theorem next_of {P : Controller → Prop} {f : Controller → Controller} (h : P c)
    (hf : ∀ c, P c → P (f c)) : P (c.next f) := next_of' h (hf c h)

/-- The frame that `_send_rp` builds. -/
def rpFrame (c : Controller) (innerCmd payload : Bytes) : Bytes :=
  if payload ≠ [] then
    remoteProgrammingFrame (c.rc.buildHeader commandIdRemoteProgramming [] rpFrameSize).1 innerCmd
      payload
  else
    remoteProgrammingCmdFrame (c.rc.buildHeader commandIdRemoteProgramming [] rpCmdFrameSize).1
      innerCmd

theorem sendRp_eq (cmd payload : Bytes) (text : String) : ∃ rc,
    rc.messageNumber = c.rc.messageNumber + 1 ∧ c.sendRp cmd payload text =
      ({ c with rc }.sendFn (c.rpFrame cmd payload)).next
        (·.emit (.logFrame (c.rpFrame cmd payload) true text)) := by
  unfold sendRp rpFrame
  split
  · exact ⟨_, rfl, rfl⟩
  · exact ⟨_, rfl, rfl⟩

theorem same_sendRp (cmd payload : Bytes) (text : String) : Same c (c.sendRp cmd payload text) := by
  obtain ⟨rc, -, h⟩ := c.sendRp_eq cmd payload text
  rw [h]
  exact next_of (P := Same c) ⟨rfl, rfl, rfl, rfl, rfl, by simp [sendFn]⟩
    fun d hd => hd.trans (same_emit rfl)

@[simp] theorem core_sendRp (cmd payload : Bytes) (text : String) :
    (c.sendRp cmd payload text).core = c.core := by
  obtain ⟨rc, -, h⟩ := c.sendRp_eq cmd payload text
  rw [h]
  exact next_of (P := fun d => d.core = c.core) rfl fun d hd => hd

/-- `_send_rp` hands over one frame. -/
theorem sends_sendRp (cmd payload : Bytes) (text : String) :
    sends (c.sendRp cmd payload text).out = sends c.out ++ [c.rpFrame cmd payload] := by
  obtain ⟨rc, -, h⟩ := c.sendRp_eq cmd payload text
  rw [h]
  refine next_of (P := fun d => sends d.out = sends c.out ++ [c.rpFrame cmd payload]) ?_ fun d hd => ?_
  · simp [sendFn]
  · simp [hd]

/-! ## Chunks and slots -/

theorem sendNextChunk_grace {first : Bool} (h : c.chunkCount ≤ c.nextIndex first) :
    c.sendNextChunk first = c.enterGrace := if_pos h

theorem sendNextChunk_of_lt {first : Bool} (h : c.nextIndex first < c.chunkCount) :
    c.sendNextChunk first =
      { c with currentChunk := some (c.nextIndex first) }.sendCurrentChunk (c.nextIndex first) :=
  if_neg (Nat.not_le.2 h)

theorem same_sendCurrentChunk (i : Nat) : Same c (c.sendCurrentChunk i) := by
  unfold sendCurrentChunk
  split
  · exact ⟨rfl, rfl, rfl, rfl, rfl, rfl⟩
  · exact next_of (same_sendRp ..) fun d hd => hd.trans (same_emit rfl)

theorem core_sendCurrentChunk (i : Nat) : (c.sendCurrentChunk i).core = c.core := by
  unfold sendCurrentChunk
  split
  · rfl
  · exact next_of (P := fun d => d.core = c.core) (core_sendRp ..) fun d hd => hd

/-- A chunk is one frame. -/
theorem sends_sendCurrentChunk {i : Nat} {x : Bytes × Nat} (h : c.chunks[i]? = some x) :
    sends (c.sendCurrentChunk i).out =
      sends c.out ++ [c.rpFrame (buildBitstreamDataHeader x.2 c.chunkCount i) x.1] := by
  unfold sendCurrentChunk
  rw [h]
  refine next_of (P := fun d => sends d.out = _) (sends_sendRp ..) fun d hd => ?_
  simp [hd]

theorem same_sendNextChunk (first : Bool) : Same c (c.sendNextChunk first) := by
  rcases Nat.lt_or_ge (c.nextIndex first) c.chunkCount with h | h
  · rw [sendNextChunk_of_lt h]
    have hc : Same c { c with currentChunk := some (c.nextIndex first) } :=
      ⟨rfl, rfl, rfl, rfl, rfl, rfl⟩
    exact hc.trans (same_sendCurrentChunk _)
  · rw [sendNextChunk_grace h]
    exact ⟨rfl, rfl, rfl, rfl, rfl, rfl⟩

/-- An acknowledgement of the chunk in flight moves the upload on. -/
theorem ok_sendNextChunk (h : c.Ok) (hop : c.op = some .upload) : (c.sendNextChunk false).Ok := by
  rcases Nat.lt_or_ge (c.nextIndex false) c.chunkCount with hi | hi
  · rw [sendNextChunk_of_lt hi]
    refine Ok.congr (c := { c with currentChunk := some (c.nextIndex false) }) ?_
      (core_sendCurrentChunk _)
    refine ⟨h.count, h.shots, h.upload, fun hne => absurd hop hne, h.timer, fun i hc => ?_⟩
    obtain rfl := Option.some.inj hc
    exact hi
  · rw [sendNextChunk_grace hi]
    refine ⟨h.count, h.shots, fun _ => ⟨(h.upload hop).1, nofun⟩, fun hne => absurd hop hne, ?_,
      h.current⟩
    intro hd ms ht
    obtain rfl : hd = .graceTimeout := by
      simp only [enterGrace, Option.some.injEq, Prod.mk.injEq] at ht
      exact ht.1.symm
    exact ⟨hop, fun _ => rfl⟩

@[simp] theorem core_setAck (q : Qtrm) (i : Nat) (ok : Bool) : (c.setAck q i ok).core = c.core := by
  unfold setAck
  split <;> rfl

theorem same_setAck (q : Qtrm) (i : Nat) (ok : Bool) : Same c (c.setAck q i ok) := by
  unfold setAck
  split
  · exact ⟨rfl, rfl, rfl, rfl, rfl, by simp⟩
  · exact Same.refl c

theorem same_recordAck (q : Qtrm) (i : Nat) (ok : Bool) : Same c (c.recordAck q i ok) := by
  unfold recordAck
  dsimp only
  split
  · exact Same.refl c
  · split
    · exact (same_setAck q i ok).trans (same_sendNextChunk _)
    · exact same_setAck q i ok

theorem ok_recordAck (h : c.Ok) (hop : c.op = some .upload) (q : Qtrm) (i : Nat) (ok : Bool) :
    (c.recordAck q i ok).Ok := by
  have hs := h.congr (core_setAck q i ok)
  unfold recordAck
  dsimp only
  split
  · exact h
  · split
    · exact ok_sendNextChunk hs ((same_setAck q i ok).op.trans hop)
    · exact hs

theorem same_dispatchSlot (q : Qtrm) (parsed : Slot) : Same c (c.dispatchSlot q parsed) := by
  have hr : ∀ s : Finset Qtrm, Same c { c with iapReplied := s } :=
    fun s => ⟨rfl, rfl, rfl, rfl, rfl, rfl⟩
  unfold dispatchSlot
  split
  · exact same_emit rfl
  · split <;> exact same_emit rfl
  · exact same_emit rfl
  · exact (hr _).trans (same_emit rfl)
  · exact (hr _).trans (same_emit rfl)
  · exact (hr _).trans (same_emit rfl)
  · split
    · exact same_recordAck ..
    · exact same_emit rfl
  · exact Same.refl c

theorem ok_dispatchSlot (h : c.Ok) (q : Qtrm) (parsed : Slot) : (c.dispatchSlot q parsed).Ok := by
  unfold dispatchSlot
  split
  · exact h.congr rfl
  · split <;> exact h.congr rfl
  · exact h.congr rfl
  · exact h.congr rfl
  · exact h.congr rfl
  · exact h.congr rfl
  · split
    · exact ok_recordAck h ‹_› ..
    · exact h.congr rfl
  · exact h

/-- The slot loop keeps what the handling of every slot keeps. -/
theorem foldl_onSlot {P : Controller → Prop} {ctx : Context} {slots : Qtrm → Bytes} {b : Bool}
    (qs : List Qtrm) (h : P c)
    (hs : ∀ c q parsed, parseSlot (slots q) ctx = .ok (some parsed) → P c →
      P (dispatchSlot c q parsed)) :
    P (qs.foldl (onSlot ctx slots) (c, b)).1 := by
  induction qs generalizing c b with
  | nil => exact h
  | cons q qs ih =>
    rw [List.foldl_cons, onSlot]
    split
    · exact ih h
    · split
      · rename_i hp
        exact ih (hs _ _ _ hp h)
      · exact ih h

/-- Only an upload sends anything while it handles a slot. -/
theorem sends_dispatchSlot (h : c.op ≠ some .upload) (q : Qtrm) (parsed : Slot) :
    sends (c.dispatchSlot q parsed).out = sends c.out := by
  unfold dispatchSlot
  split
  · simp
  · split <;> simp
  · simp
  · simp
  · simp
  · simp
  · exact absurd ‹_› h
  · rfl

/-! ## The end of a session -/

/-- What the end of a session does to the two flags of the gate. -/
inductive Marks (op : Op) (c c' : Controller) : Prop
  | kept : c'.modeStep1Done = c.modeStep1Done → c'.modeStep2Done = c.modeStep2Done → Marks op c c'
  | step1 : op = .modeStep1 → c'.modeStep1Done = true → c'.modeStep2Done = c.modeStep2Done →
      .sessionFinished (some .modeStep1) true "Step complete" ∈ c'.out → Marks op c c'
  | step2 : op = .modeStep2 → c'.modeStep1Done = c.modeStep1Done → c'.modeStep2Done = true →
      .sessionFinished (some .modeStep2) true "Step complete" ∈ c'.out → Marks op c c'
  | closed : op = .modeBack → c'.modeStep1Done = false → c'.modeStep2Done = false → Marks op c c'

/-- `c'` is what is left of `c` once its session has ended. -/
structure Ended (op : Op) (c c' : Controller) : Prop where
  before : c.op = some op
  after : c'.op = none
  finishes : finishes c'.out = finishes c.out ++ [some op]
  sends : sends c'.out = sends c.out
  target : c'.targetQtrm = c.targetQtrm
  sendOk : c'.sendOk = c.sendOk
  marks : Marks op c c'

theorem Ended.of_same {op : Op} (he : Ended op c' c'') (h : Same c c')
    (hs : QccGui.sends c'.out = QccGui.sends c.out) : Ended op c c'' where
  before := h.op.symm.trans he.before
  after := he.after
  finishes := by rw [he.finishes, h.finishes]
  sends := he.sends.trans hs
  target := he.target.trans h.target
  sendOk := he.sendOk.trans h.sendOk
  marks := by
    cases he.marks with
    | kept h₁ h₂ => exact .kept (h₁.trans h.step1) (h₂.trans h.step2)
    | step1 ho h₁ h₂ hm => exact .step1 ho h₁ (h₂.trans h.step2) hm
    | step2 ho h₁ h₂ hm => exact .step2 ho (h₁.trans h.step1) h₂ hm
    | closed ho h₁ h₂ => exact .closed ho h₁ h₂

/-- The state in which `_finish` leaves the upload. -/
theorem ok_finish {ok : Bool} {text : String} (h : c.Ok) (he : c'.core = c.core) :
    (c'.finish ok text).Ok := by
  obtain ⟨h₁, h₂, -⟩ := h.congr he
  exact ⟨h₁, h₂, nofun, fun _ => ⟨rfl, .inl rfl⟩, nofun, nofun⟩

theorem ended_finish {op : Op} (h : Same c c') (hop : c.op = some op)
    (hs : sends c'.out = sends c.out) (ok : Bool) (text : String) :
    Ended op c (c'.finish ok text) where
  before := hop
  after := rfl
  finishes := by simp [finish, h.finishes, h.op, hop]
  sends := by simp [finish, hs]
  target := h.target
  sendOk := h.sendOk
  marks := .kept h.step1 h.step2

theorem ended_noResponse {op : Op} (h : Same c c') (hop : c.op = some op)
    (hs : sends c'.out = sends c.out) (text : String) : Ended op c (c'.noResponse op text) :=
  ended_finish (h.trans (same_emit rfl)) hop (by simp [hs]) false _

theorem ended_stepComplete1 (h : Same c c') (hop : c.op = some .modeStep1)
    (hs : sends c'.out = sends c.out) : Ended .modeStep1 c (c'.stepComplete .modeStep1) where
  before := hop
  after := rfl
  finishes := by simp [stepComplete, finish, h.finishes, h.op, hop]
  sends := by simp [stepComplete, finish, hs]
  target := h.target
  sendOk := h.sendOk
  marks := .step1 rfl rfl h.step2 (by simp [stepComplete, finish, emit, h.op, hop])

theorem ended_stepComplete2 (h : Same c c') (hop : c.op = some .modeStep2)
    (hs : sends c'.out = sends c.out) : Ended .modeStep2 c (c'.stepComplete .modeStep2) where
  before := hop
  after := rfl
  finishes := by simp [stepComplete, finish, h.finishes, h.op, hop]
  sends := by simp [stepComplete, finish, hs]
  target := h.target
  sendOk := h.sendOk
  marks := .step2 rfl h.step1 rfl (by simp [stepComplete, finish, emit, h.op, hop])

theorem ended_closeGate (h : Same c c') (hop : c.op = some .modeBack)
    (hs : sends c'.out = sends c.out) (ok : Bool) (text : String) :
    Ended .modeBack c (c'.closeGate.finish ok text) where
  before := hop
  after := rfl
  finishes := by simp [closeGate, finish, h.finishes, h.op, hop]
  sends := by simp [closeGate, finish, hs]
  target := h.target
  sendOk := h.sendOk
  marks := .closed rfl rfl rfl

theorem ended_closeGate_noResponse (h : Same c c') (hop : c.op = some .modeBack)
    (hs : sends c'.out = sends c.out) (text : String) :
    Ended .modeBack c (c'.closeGate.noResponse .modeBack text) where
  before := hop
  after := rfl
  finishes := by simp [closeGate, noResponse, finish, h.finishes, h.op, hop]
  sends := by simp [closeGate, noResponse, finish, hs]
  target := h.target
  sendOk := h.sendOk
  marks := .closed rfl rfl rfl

/-! ## The effect of an event -/

/-- The session that an accepted start leads to. -/
structure Started (what : Start) (c c' : Controller) : Prop where
  op : c'.op = some what.op
  step1 : c'.modeStep1Done = c.modeStep1Done
  step2 : c'.modeStep2Done = c.modeStep2Done
  target : c'.targetQtrm = c.targetQtrm
  sendOk : c'.sendOk = c.sendOk
  finishes : finishes c'.out = finishes c.out
  sends : sends c'.out = sends c.out ++ [c.startFrame what]

/-- What one event does to the session. -/
inductive Effect (c : Controller) (e : Event) (c' : Controller) : Prop
  | same : Same c c' → (∀ what, e = .start what → ¬ c.Accepts what) →
      (sends c'.out = sends c.out ∨ c.op = some .upload ∨ e = .shot) → Effect c e c'
  | retargeted {target : Target} : e = .setTarget target → c' = { c with targetQtrm := target } →
      Effect c e c'
  | linked {up : Bool} : e = .link up → c' = { c with sendOk := up } → Effect c e c'
  | started {what : Start} : e = .start what → c.Accepts what → Started what c c' → Effect c e c'
  | ended {op : Op} : Ended op c c' → (∀ what, e ≠ .start what) → Effect c e c'

/-- A refused start does nothing. -/
theorem startOp_refused {what : Start} (h : ¬ c.Accepts what) : c.startOp what = c := by
  unfold Accepts at h
  rcases hop : c.op with _ | op
  · cases what with
    | modeStep1 => simp [hop] at h
    | modeStep2 => simp [hop] at h
    | upload image golden =>
      have : ¬ (c.gateOpen = true ∧ image ≠ []) := fun hg => h ⟨hop, hg⟩
      by_cases hg : c.gateOpen = true <;> simp_all [startOp, startUpload]
    | _ =>
      have hg : c.gateOpen = false := by simpa [hop] using h
      simp [startOp, startLinkCheck, startLruInfo, startQtrmHighSpeed, startModeBack,
        startAuthenticate, startVerify, startProgram, startIapPoll, hg]
  · have hb : c.busy = true := by simp [busy, hop]
    cases what <;> simp [startOp, startModeStep1, startModeStep2, startLinkCheck, startLruInfo,
      startQtrmHighSpeed, startModeBack, startAuthenticate, startVerify, startProgram, startIapPoll,
      startUpload, hb]

theorem started_of_same {what : Start} {d : Controller} (h : Same d c') (hop : d.op = some what.op)
    (h1 : d.modeStep1Done = c.modeStep1Done) (h2 : d.modeStep2Done = c.modeStep2Done)
    (ht : d.targetQtrm = c.targetQtrm) (hl : d.sendOk = c.sendOk)
    (hf : QccGui.finishes d.out = QccGui.finishes c.out)
    (hs : QccGui.sends c'.out = QccGui.sends c.out ++ [c.startFrame what]) : Started what c c' :=
  ⟨h.op.trans hop, h.step1.trans h1, h.step2.trans h2, h.target.trans ht, h.sendOk.trans hl,
    h.finishes.trans hf, hs⟩

/-- Handing over the frame of a mode change. -/
theorem same_sendFn (rc : RcSettings) (frame : Bytes) (text : String) :
    Same c (({ c with rc }.sendFn frame).next (·.emit (.logFrame frame true text))) ∧
      sends (({ c with rc }.sendFn frame).next (·.emit (.logFrame frame true text))).out =
        sends c.out ++ [frame] := by
  refine ⟨next_of (P := Same c) ⟨rfl, rfl, rfl, rfl, rfl, by simp [sendFn]⟩
    fun d hd => hd.trans (same_emit rfl), ?_⟩
  refine next_of (P := fun d => sends d.out = sends c.out ++ [frame]) (by simp [sendFn]) ?_
  intro d hd
  simp [hd]

theorem startOp_accepted {what : Start} (h : c.Accepts what) : Started what c (c.startOp what) := by
  have hb : c.busy = false := by simp [busy, h.1]
  cases what with
  | modeStep1 =>
    simp only [startOp, startModeStep1, hb, Bool.false_eq_true, if_false]
    obtain ⟨h₁, h₂⟩ := same_sendFn (c := c.start .modeStep1 modeStepTimeoutMs .simpleTimeout) _ _ _
    exact started_of_same h₁ rfl rfl rfl rfl rfl rfl h₂
  | modeStep2 =>
    simp only [startOp, startModeStep2, hb, Bool.false_eq_true, if_false]
    obtain ⟨h₁, h₂⟩ := same_sendFn (c := c.start .modeStep2 modeStepTimeoutMs .simpleTimeout) _ _ _
    exact started_of_same h₁ rfl rfl rfl rfl rfl rfl h₂
  | modeBack =>
    have hg : c.gateOpen = true := h.2
    simp only [startOp, startModeBack, hb, hg, Bool.not_true, Bool.or_self, Bool.false_eq_true,
      if_false]
    obtain ⟨h₁, h₂⟩ := same_sendFn (c := c.start .modeBack modeBackWindowMs .simpleTimeout) _ _ _
    exact started_of_same h₁ rfl rfl rfl rfl rfl rfl h₂
  | upload image golden =>
    obtain ⟨-, hg, hi⟩ := h
    have he : image.isEmpty = false := by simpa using hi
    simp only [startOp, startUpload, hb, hg, he, Bool.not_true, Bool.or_self, Bool.false_eq_true,
      if_false]
    refine next_of (P := Started (.upload image golden) c) ?_ fun d hd =>
      ⟨hd.op, hd.step1, hd.step2, hd.target, hd.sendOk, hd.finishes, hd.sends⟩
    exact started_of_same (same_sendRp ..) rfl rfl rfl rfl rfl rfl (sends_sendRp ..)
  | _ =>
    have hg : c.gateOpen = true := h.2
    simp only [startOp, startLinkCheck, startLruInfo, startQtrmHighSpeed, startAuthenticate,
      startVerify, startProgram, startIapPoll, hb, hg, Bool.not_true, Bool.or_self,
      Bool.false_eq_true, if_false]
    refine started_of_same (same_sendRp ..) rfl rfl rfl rfl rfl rfl ?_
    rw [sends_sendRp]
    rfl

theorem closes_none {hd : Handler} : ¬ hd.Closes none := by
  cases hd <;> simp [Handler.Closes]

/-- No timer runs while nothing is active. -/
theorem Ok.timer_none (h : c.Ok) (hop : c.op = none) : c.timer = none := by
  rcases ht : c.timer with _ | ⟨hd, ms⟩
  · rfl
  · exact absurd (hop ▸ (h.timer hd ms ht).1) closes_none

theorem ok_start (h : c.Ok) (hop : c.op = none) {op : Op} {ms : Nat} {hd : Handler}
    (hc : hd.Closes (some op)) (hne : op ≠ .upload) : (c.start op ms hd).Ok where
  count := h.count
  shots := h.shots
  upload := fun hu => absurd (Option.some.inj hu) hne
  idle := fun _ => h.idle (by simp [hop])
  timer := by
    intro hd' ms' ht
    obtain ⟨rfl, -⟩ : hd = hd' ∧ ms = ms' := by simpa [start] using ht
    refine ⟨hc, ?_⟩
    rintro rfl
    exact absurd (Option.some.inj hc) hne
  current := h.current

theorem splitChunks_length (image : Bytes) :
    (splitChunks image).length = (image.length + 4095) / 4096 := by
  simp [splitChunks, rpPayloadSize]

theorem splitChunks_length_pos {image : Bytes} (h : image ≠ []) : 0 < (splitChunks image).length := by
  have := List.length_pos_iff.2 h
  rw [splitChunks_length]
  omega

theorem ok_startOp (h : c.Ok) (what : Start) : (c.startOp what).Ok := by
  by_cases ha : c.Accepts what
  · have hop := ha.1
    have hb : c.busy = false := by simp [busy, hop]
    have hsend : ∀ (d : Controller) rc frame text, d.Ok →
        (({ d with rc }.sendFn frame).next (·.emit (.logFrame frame true text))).Ok :=
      fun d rc frame text hd => next_of (P := Ok) (hd.congr rfl) fun _ h => h.congr rfl
    cases what with
    | modeStep1 =>
      simp only [startOp, startModeStep1, hb, Bool.false_eq_true, if_false]
      exact hsend _ _ _ _ (ok_start h hop (by simp [Handler.Closes]) nofun)
    | modeStep2 =>
      simp only [startOp, startModeStep2, hb, Bool.false_eq_true, if_false]
      exact hsend _ _ _ _ (ok_start h hop (by simp [Handler.Closes]) nofun)
    | modeBack =>
      have hg : c.gateOpen = true := ha.2
      simp only [startOp, startModeBack, hb, hg, Bool.not_true, Bool.or_self, Bool.false_eq_true,
        if_false]
      exact hsend _ _ _ _ (ok_start h hop (by simp [Handler.Closes]) nofun)
    | upload image golden =>
      obtain ⟨-, hg, hi⟩ := ha
      have he : image.isEmpty = false := by simpa using hi
      have hpos := splitChunks_length_pos hi
      have hcur : ∀ i, c.currentChunk = some i → i < (splitChunks image).length := by
        intro i hc
        rcases (h.idle (by simp [hop])).2 with hn | hn
        · simp [hn] at hc
        · obtain rfl : 0 = i := by simpa [hn] using hc
          exact hpos
      have ht := h.timer_none hop
      simp only [startOp, startUpload, hb, hg, he, Bool.not_true, Bool.or_self, Bool.false_eq_true,
        if_false]
      refine next_of (P := fun d => d.Ok ∧ d.op = some .upload ∧ 0 < d.chunkCount) ?_ ?_ |>.1
      · refine ⟨Ok.congr ?_ (core_sendRp ..), (same_sendRp ..).op, ?_⟩
        · exact ⟨rfl, fun _ => hpos, fun _ => ⟨hpos, nofun⟩, fun hne => absurd rfl hne,
            by simp [ht], hcur⟩
        · rw [chunkCount_of_core (core_sendRp ..)]
          exact hpos
      · rintro d ⟨hd, hdop, hdpos⟩
        exact ⟨⟨hd.count, fun _ => hdpos, hd.upload, fun hne => absurd hdop hne, hd.timer, nofun⟩,
          hdop, hdpos⟩
    | _ =>
      have hg : c.gateOpen = true := ha.2
      simp only [startOp, startLinkCheck, startLruInfo, startQtrmHighSpeed, startAuthenticate,
        startVerify, startProgram, startIapPoll, hb, hg, Bool.not_true, Bool.or_self,
        Bool.false_eq_true, if_false]
      refine Ok.congr (ok_start ?_ ?_ ?_ ?_) (core_sendRp ..) <;>
        first
          | exact h.congr rfl
          | exact hop
          | simp [Handler.Closes]
  · rw [startOp_refused ha]
    exact h

/-! ### Frames -/

/-- The slot loop, after which the controller is in the same session. -/
theorem same_slots (ctx : Context) (slots : Qtrm → Bytes) (b : Bool) (qs : List Qtrm) :
    Same c (qs.foldl (onSlot ctx slots) (c, b)).1 :=
  foldl_onSlot (P := Same c) qs (Same.refl c) fun _ q parsed _ h => h.trans (same_dispatchSlot q parsed)

/-- Outside an upload the slot loop sends nothing. -/
theorem sends_slots (h : c.op ≠ some .upload) (ctx : Context) (slots : Qtrm → Bytes) (b : Bool)
    (qs : List Qtrm) : sends (qs.foldl (onSlot ctx slots) (c, b)).1.out = sends c.out := by
  refine (foldl_onSlot (P := fun d => Same c d ∧ sends d.out = sends c.out) qs
    ⟨Same.refl c, rfl⟩ ?_).2
  rintro d q parsed - ⟨hd, hs⟩
  exact ⟨hd.trans (same_dispatchSlot q parsed),
    (sends_dispatchSlot (by rwa [hd.op]) q parsed).trans hs⟩

theorem ok_slots (h : c.Ok) (ctx : Context) (slots : Qtrm → Bytes) (b : Bool) (qs : List Qtrm) :
    (qs.foldl (onSlot ctx slots) (c, b)).1.Ok :=
  foldl_onSlot (P := Ok) qs h fun _ q parsed _ h => ok_dispatchSlot h q parsed

/-- After the slot loop the session goes on or ends. -/
theorem afterSlots_cases {op : Op} (h : Same c c') (hop : c.op = some op)
    (hs : op ≠ .upload → sends c'.out = sends c.out) :
    c'.afterSlots = c' ∨ op ≠ .upload ∧ Ended op c c'.afterSlots := by
  have hop' : c'.op = some op := h.op.trans hop
  unfold afterSlots
  rw [hop']
  cases op with
  | linkCheck =>
    exact .inr ⟨nofun, ended_finish (h.trans (same_emit rfl)) hop (by simp [hs]) _ _⟩
  | lruInfo =>
    exact .inr ⟨nofun, ended_finish (h.trans (same_emit rfl)) hop (by simp [hs]) _ _⟩
  | upload => simp
  | _ =>
    dsimp only
    split
    · exact .inr ⟨nofun, ended_finish (h.trans (same_emit rfl)) hop (by simp [hs]) _ _⟩
    · exact .inl rfl

/-- A frame never ends an upload. -/
theorem afterSlots_upload (h : c.op = some .upload) : c.afterSlots = c := by
  simp [afterSlots, h]

theorem ok_afterSlots (h : c.Ok) : c.afterSlots.Ok := by
  unfold afterSlots
  split
  · exact ok_finish h rfl
  · exact ok_finish h rfl
  · split
    · exact ok_finish h rfl
    · exact h
  · exact h

theorem onSlots_cases (raw : Bytes) {op : Op} (hop : c.op = some op) :
    (Same c (c.onSlots raw) ∧ (sends (c.onSlots raw).out = sends c.out ∨ op = .upload)) ∨
      Ended op c (c.onSlots raw) := by
  unfold onSlots
  split
  · exact .inl ⟨⟨rfl, rfl, rfl, rfl, rfl, rfl⟩, .inl rfl⟩
  · rename_i slots _
    have hl := same_slots (c := c) c.context slots false (List.finRange 96)
    have hs : op ≠ .upload → _ :=
      fun hne => sends_slots (c := c) (by simpa [hop] using hne) c.context slots false (List.finRange 96)
    generalize (List.finRange 96).foldl (onSlot c.context slots) (c, false) = acc at hl hs
    have hkeep : sends acc.1.out = sends c.out ∨ op = .upload := by
      by_cases hu : op = .upload
      · exact .inr hu
      · exact .inl (hs hu)
    dsimp only [next]
    split
    · exact .inl ⟨hl, hkeep⟩
    · refine (afterSlots_cases (hl.trans (same_emit rfl)) hop (by simpa using hs)).imp ?_ (·.2)
      intro he
      rw [he]
      exact ⟨hl.trans (same_emit rfl), by simpa using hkeep⟩

theorem ok_onSlots (h : c.Ok) (raw : Bytes) : (c.onSlots raw).Ok := by
  unfold onSlots
  split
  · exact h.congr rfl
  · rename_i slots _
    have hl := ok_slots h c.context slots false (List.finRange 96)
    generalize (List.finRange 96).foldl (onSlot c.context slots) (c, false) = acc at hl
    exact next_of (P := Ok) hl fun d hd => ok_afterSlots (hd.congr rfl)

theorem onFrame_upload (h : c.op = some .upload) (raw : Bytes) :
    c.onFrame raw = { c with gotAnyFrame := true }.onSlots raw := by
  unfold onFrame
  split
  · simp [h] at *
  · rename_i hop
    obtain rfl := Option.some.inj (hop.symm.trans h)
    rfl

theorem onFrame_cases (raw : Bytes) :
    (Same c (c.onFrame raw) ∧
      (sends (c.onFrame raw).out = sends c.out ∨ c.op = some .upload)) ∨
      ∃ op, Ended op c (c.onFrame raw) := by
  have hg : Same c { c with gotAnyFrame := true } := ⟨rfl, rfl, rfl, rfl, rfl, rfl⟩
  have hlog : ∀ text, Same c ({ c with gotAnyFrame := true }.emit (.logFrame raw false text)) :=
    fun text => hg.trans (same_emit rfl)
  unfold onFrame
  split
  · exact .inl ⟨Same.refl c, .inl rfl⟩
  · rename_i op hop
    have hslots : (Same c ({ c with gotAnyFrame := true }.onSlots raw) ∧
        (sends ({ c with gotAnyFrame := true }.onSlots raw).out = sends c.out ∨ c.op = some .upload)) ∨
        ∃ op, Ended op c ({ c with gotAnyFrame := true }.onSlots raw) := by
      rcases onSlots_cases (c := { c with gotAnyFrame := true }) raw hop with ⟨hs, hsend⟩ | he
      · exact .inl ⟨hg.trans hs, hsend.imp id fun hu => by rw [hop, hu]⟩
      · exact .inr ⟨op, he.of_same hg rfl⟩
    cases op with
    | modeStep1 => exact .inr ⟨_, ended_stepComplete1 (hlog _) hop (by simp)⟩
    | modeStep2 => exact .inr ⟨_, ended_stepComplete2 (hlog _) hop (by simp)⟩
    | qtrmHighSpeed => exact .inr ⟨_, ended_finish (hlog _) hop (by simp) _ _⟩
    | modeBack => exact .inr ⟨_, ended_closeGate (hlog _) hop (by simp) _ _⟩
    | _ => exact hslots

theorem ok_onFrame (h : c.Ok) (raw : Bytes) : (c.onFrame raw).Ok := by
  unfold onFrame
  split
  · exact h
  · rename_i op _
    cases op with
    | modeStep1 => exact ok_finish h rfl
    | modeStep2 => exact ok_finish h rfl
    | qtrmHighSpeed => exact ok_finish h rfl
    | modeBack => exact ok_finish h rfl
    | _ => exact ok_onSlots (c := { c with gotAnyFrame := true }) (h.congr rfl) raw

/-! ### Timers -/

theorem onSimpleTimeout_cases {op : Op} (hop : c.op = some op) :
    (Same c c.onSimpleTimeout ∧ sends c.onSimpleTimeout.out = sends c.out) ∨
      Ended op c c.onSimpleTimeout := by
  unfold onSimpleTimeout
  rw [hop]
  cases op with
  | modeStep1 =>
    dsimp only
    split
    · exact .inr (ended_stepComplete1 (Same.refl c) hop rfl)
    · exact .inr (ended_noResponse (Same.refl c) hop rfl _)
  | modeStep2 =>
    dsimp only
    split
    · exact .inr (ended_stepComplete2 (Same.refl c) hop rfl)
    · exact .inr (ended_noResponse (Same.refl c) hop rfl _)
  | linkCheck =>
    dsimp only
    split
    · exact .inr (ended_finish (same_emit rfl) hop (by simp) _ _)
    · exact .inr (ended_noResponse (same_emit rfl) hop (by simp) _)
  | lruInfo =>
    dsimp only
    split
    · exact .inr (ended_finish (same_emit rfl) hop (by simp) _ _)
    · exact .inr (ended_noResponse (same_emit rfl) hop (by simp) _)
  | qtrmHighSpeed => exact .inr (ended_noResponse (Same.refl c) hop rfl _)
  | modeBack => exact .inr (ended_closeGate_noResponse (Same.refl c) hop rfl _)
  | _ => exact .inl ⟨Same.refl c, rfl⟩

theorem ended_onIapWindowClosed {op : Op} (hop : c.op = some op) :
    Ended op c c.onIapWindowClosed := by
  have he : Same c (c.emit (.opWindowClosed op)) := same_emit rfl
  unfold onIapWindowClosed
  rw [hop]
  dsimp only
  split
  · exact ended_finish he hop (by simp) _ _
  · split
    · exact ended_finish he hop (by simp) _ _
    · exact ended_noResponse he hop (by simp) _

/-- The session timer ends the session that it belongs to. -/
theorem onTimer_cases (h : c.Ok) :
    (Same c c.onTimer ∧ sends c.onTimer.out = sends c.out) ∨ ∃ op, Ended op c c.onTimer := by
  have ht : Same c { c with timer := none } := ⟨rfl, rfl, rfl, rfl, rfl, rfl⟩
  unfold onTimer
  split
  · exact .inl ⟨Same.refl c, rfl⟩
  · rename_i hd ms htimer
    have hcl := (h.timer _ _ htimer).1
    obtain ⟨op, hop⟩ : ∃ op, c.op = some op :=
      Option.ne_none_iff_exists'.1 fun hn => closes_none (hn ▸ hcl)
    cases hd with
    | simpleTimeout =>
      rcases onSimpleTimeout_cases (c := { c with timer := none }) hop with ⟨hs, hsend⟩ | he
      · exact .inl ⟨ht.trans hs, hsend⟩
      · exact .inr ⟨op, he.of_same ht rfl⟩
    | iapWindowClosed =>
      exact .inr ⟨op, (ended_onIapWindowClosed (c := { c with timer := none }) hop).of_same ht rfl⟩
    | graceTimeout => exact .inr ⟨op, ended_finish (ht.trans (same_emit rfl)) hop (by simp) _ _⟩

/-- The timer of an upload is that of the grace phase, and ends it. -/
theorem ended_onTimer_upload (h : c.Ok) (hop : c.op = some .upload) (he : c.timer.isSome) :
    Ended .upload c c.onTimer := by
  have ht : Same c { c with timer := none } := ⟨rfl, rfl, rfl, rfl, rfl, rfl⟩
  unfold onTimer
  split
  · simp_all
  · rename_i hd ms htimer
    have hcl := (h.timer _ _ htimer).1
    obtain rfl : hd = .graceTimeout := by
      cases hd <;> simp_all [Handler.Closes]
    exact ended_finish (ht.trans (same_emit rfl)) hop (by simp) _ _

theorem ok_onTimer (h : c.Ok) : c.onTimer.Ok := by
  have ht : ({ c with timer := none } : Controller).Ok :=
    ⟨h.count, h.shots, h.upload, h.idle, nofun, h.current⟩
  unfold onTimer
  split
  · exact h
  · rename_i hd _ _
    cases hd with
    | simpleTimeout =>
      dsimp only [onSimpleTimeout]
      split
      · split <;> exact ok_finish ht rfl
      · split <;> exact ok_finish ht rfl
      · split <;> exact ok_finish ht rfl
      · split <;> exact ok_finish ht rfl
      · exact ok_finish ht rfl
      · exact ok_finish ht rfl
      · exact ht
    | iapWindowClosed =>
      dsimp only [onIapWindowClosed]
      split
      · exact ht
      · split
        · exact ok_finish ht rfl
        · split <;> exact ok_finish ht rfl
    | graceTimeout => exact ok_finish ht rfl

theorem same_onShot : Same c c.onShot := by
  have hc : Same c { c with pendingShots := c.pendingShots - 1 } := ⟨rfl, rfl, rfl, rfl, rfl, rfl⟩
  exact hc.trans (same_sendNextChunk true)

/-- A one-shot sends chunk 0, whatever is active. -/
theorem onShot_eq (h : c.Ok) (hp : 0 < c.pendingShots) :
    c.onShot = { c with
      pendingShots := c.pendingShots - 1, currentChunk := some 0 }.sendCurrentChunk 0 :=
  sendNextChunk_of_lt (h.shots hp)

theorem ok_onShot (h : c.Ok) (hp : 0 < c.pendingShots) : c.onShot.Ok := by
  rw [onShot_eq h hp]
  refine Ok.congr (c := { c with pendingShots := c.pendingShots - 1, currentChunk := some 0 }) ?_
    (core_sendCurrentChunk 0)
  refine ⟨h.count, fun _ => h.shots hp, h.upload, fun hne => ⟨(h.idle hne).1, .inr rfl⟩, h.timer, ?_⟩
  intro i hi
  obtain rfl := Option.some.inj hi
  exact h.shots hp

/-! ### All events -/

theorem cancel_cases : c.cancel = c ∨ ∃ op, Ended op c c.cancel := by
  unfold cancel
  split
  · exact .inl rfl
  · rename_i hne
    obtain ⟨op, hop⟩ := Option.ne_none_iff_exists'.1 hne
    exact .inr ⟨op, ended_finish (Same.refl c) hop rfl _ _⟩

/-- The effect of one event on the session. -/
theorem react_effect (h : c.Ok) (e : Event) : Effect c e (c.react e) := by
  cases e with
  | start what =>
    by_cases ha : c.Accepts what
    · exact .started rfl ha (startOp_accepted ha)
    · rw [show c.react (.start what) = c from startOp_refused ha]
      refine .same (Same.refl c) ?_ (.inl rfl)
      rintro _ ⟨⟩
      exact ha
  | setTarget target => exact .retargeted rfl rfl
  | setIapWindow ms => exact .same ⟨rfl, rfl, rfl, rfl, rfl, rfl⟩ nofun (.inl rfl)
  | frame raw =>
    rcases onFrame_cases (c := c) raw with ⟨hs, hsend⟩ | ⟨op, he⟩
    · exact .same hs nofun (hsend.imp id .inl)
    · exact .ended he nofun
  | timer =>
    rcases onTimer_cases h with ⟨hs, hsend⟩ | ⟨op, he⟩
    · exact .same hs nofun (.inl hsend)
    · exact .ended he nofun
  | shot => exact .same same_onShot nofun (.inr (.inr rfl))
  | cancel =>
    rcases cancel_cases (c := c) with he | ⟨op, he⟩
    · rw [show c.react .cancel = c from he]
      exact .same (Same.refl c) nofun (.inl rfl)
    · exact .ended he nofun
  | link up => exact .linked rfl rfl

theorem ok_react (h : c.Ok) {e : Event} (he : machine.enabled c e) : (c.react e).Ok := by
  cases e with
  | start what => exact ok_startOp h what
  | frame raw => exact ok_onFrame h raw
  | timer => exact ok_onTimer h
  | shot => exact ok_onShot h he
  | cancel =>
    rcases eq_or_ne c.op none with hop | hop
    · rwa [react, cancel, if_pos hop]
    · rw [react, cancel, if_neg hop]
      exact ok_finish h rfl
  | _ => exact h.congr rfl

theorem ok_handle (h : c.Ok) {e : Event} (he : machine.enabled c e) : (c.handle e).Ok :=
  ok_react (c := c.cleared) (h.congr rfl) he

theorem handle_effect (h : c.Ok) (e : Event) : Effect c.cleared e (c.handle e) :=
  react_effect (c := c.cleared) (h.congr rfl) e

/-- The invariant holds in every run. -/
theorem run_ok {rc : RcSettings} {tr : List (Controller × Event)}
    (hr : machine.Run (init rc) tr c) : c.Ok :=
  hr.invariant' (ok_init rc) fun _ _ h he => ok_handle h he

end Controller

end QccGui
