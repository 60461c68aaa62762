import QccGui.Gui.Rows

/-!
# What the controller tells about its gate and its sessions

The two signals of the controller that say how its gate and its session stand, in the order in
which an event emits them.

* `News`, `news`: the gate has changed; a session has finished.
* `Told`: what one event says about the gate and the session, with what it does to them.
* `handle_told`: every event is one of these.
-/

namespace QccGui

open Lib

/-- What is told about the gate or the session. A start that is refused is told by the window. -/
inductive News
  | gate (gateOpen : Bool)
  | finished (op : Option Op) (ok : Bool)
  | refused (op : Op)
  deriving DecidableEq, Repr

@[simp] def Signal.news? : Signal → Option News
  | .gateChanged gateOpen => some (.gate gateOpen)
  | .sessionFinished op ok _ => some (.finished op ok)
  | _ => none

def news (out : List Signal) : List News := out.filterMap Signal.news?

@[simp] theorem news_nil : news [] = [] := rfl

/-- The controller refuses a start without a signal. -/
theorem refused_notMem_news (op : Op) (out : List Signal) : .refused op ∉ news out := by
  intro h
  obtain ⟨s, -, hs⟩ := List.mem_filterMap.1 h
  cases s <;> simp at hs

namespace Controller

variable {c c' : Controller} {e : Event}

@[simp] theorem news_emit (s : Signal) : news (c.emit s).out = news c.out ++ s.news?.toList :=
  filterMap_snoc ..

/-! ## What sending says -/

section

variable {β : Type} {f : Signal → Option β}

/-- `f` sees nothing of a frame that is sent, nor of what the tab is told about it. -/
structure Unsent (f : Signal → Option β) : Prop where
  send : ∀ frame, f (.send frame) = none
  log : ∀ raw isTx summary, f (.logFrame raw isTx summary) = none
  progress : ∀ i n, f (.chunkProgress i n) = none

theorem seen_emit {s : Signal} (hs : f s = none) :
    (c.emit s).out.filterMap f = c.out.filterMap f := by
  rw [emit, filterMap_snoc, hs]
  exact List.append_nil _

theorem seen_sendLogged (hf : Unsent f) (frame : Bytes) (text : String) :
    ((c.sendFn frame).next (·.emit (.logFrame frame true text))).out.filterMap f =
      c.out.filterMap f :=
  next_of (P := fun d => d.out.filterMap f = c.out.filterMap f) (seen_emit (hf.send _))
    fun _ hd => (seen_emit (hf.log ..)).trans hd

theorem seen_sendRp (hf : Unsent f) (cmd payload : Bytes) (text : String) :
    (c.sendRp cmd payload text).out.filterMap f = c.out.filterMap f := by
  obtain ⟨rc, -, h⟩ := c.sendRp_eq cmd payload text
  rw [h]
  exact seen_sendLogged (c := { c with rc }) hf _ _

theorem seen_sendNextChunk (hf : Unsent f) (first : Bool) :
    (c.sendNextChunk first).out.filterMap f = c.out.filterMap f := by
  have hsend : ∀ (d : Controller) (i : Nat), d.out = c.out →
      (d.sendCurrentChunk i).out.filterMap f = c.out.filterMap f := by
    intro d i hd
    unfold sendCurrentChunk
    split
    · rw [hd]
    · exact next_of (P := fun d => d.out.filterMap f = c.out.filterMap f)
        ((seen_sendRp hf ..).trans (by rw [hd])) fun d hd => (seen_emit (hf.progress ..)).trans hd
  unfold sendNextChunk
  dsimp only
  split
  · rfl
  · exact hsend { c with currentChunk := some (c.nextIndex first) } _ rfl

theorem seen_startOp (hf : Unsent f) (what : Start) :
    (c.startOp what).out.filterMap f = c.out.filterMap f := by
  have hsend : ∀ (d : Controller) (frame : Bytes) (text : String), d.out = c.out →
      ((d.sendFn frame).next (·.emit (.logFrame frame true text))).out.filterMap f =
        c.out.filterMap f :=
    fun d frame text hd => (seen_sendLogged hf frame text).trans (by rw [hd])
  have hpoll : ∀ (op : Op) (mode : UInt8) (golden : Bool) (ms : Nat),
      (c.startIapPoll op mode golden ms).out.filterMap f = c.out.filterMap f :=
    fun op mode golden ms => by
      unfold startIapPoll
      split
      · rfl
      · exact seen_sendRp hf ..
  cases what with
  | modeStep1 =>
    rw [startOp, startModeStep1]
    split
    · rfl
    · exact hsend _ _ _ rfl
  | modeStep2 =>
    rw [startOp, startModeStep2]
    split
    · rfl
    · exact hsend _ _ _ rfl
  | modeBack =>
    rw [startOp, startModeBack]
    split
    · rfl
    · exact hsend _ _ _ rfl
  | linkCheck =>
    rw [startOp, startLinkCheck]
    split
    · rfl
    · exact seen_sendRp hf ..
  | lruInfo =>
    rw [startOp, startLruInfo]
    split
    · rfl
    · exact seen_sendRp hf ..
  | qtrmHighSpeed =>
    rw [startOp, startQtrmHighSpeed]
    split
    · rfl
    · exact seen_sendRp hf ..
  | authenticate golden => exact hpoll ..
  | verify golden => exact hpoll ..
  | program golden => exact hpoll ..
  | upload image golden =>
    rw [startOp, startUpload]
    split
    · rfl
    · exact next_of (P := fun d => d.out.filterMap f = c.out.filterMap f) (seen_sendRp hf ..)
        fun d hd => hd

end

/-! ## What says nothing about the gate -/

theorem unsent_news : Unsent Signal.news? := ⟨fun _ => rfl, fun _ _ _ => rfl, fun _ _ => rfl⟩

theorem news_recordAck (q : Qtrm) (i : Nat) (ok : Bool) :
    news (c.recordAck q i ok).out = news c.out := by
  have hset : news (c.setAck q i ok).out = news c.out := by
    unfold setAck
    split
    · simp
    · rfl
  unfold recordAck
  dsimp only
  split
  · rfl
  · split
    · exact (seen_sendNextChunk unsent_news false).trans hset
    · exact hset

theorem news_dispatchSlot (q : Qtrm) (parsed : Slot) :
    news (c.dispatchSlot q parsed).out = news c.out := by
  unfold dispatchSlot
  split
  · simp
  · split <;> simp
  · simp
  · simp
  · simp
  · simp
  · split
    · exact news_recordAck ..
    · simp
  · rfl

theorem news_slots (ctx : Context) (slots : Qtrm → Bytes) (b : Bool) (qs : List Qtrm) :
    news (qs.foldl (onSlot ctx slots) (c, b)).1.out = news c.out :=
  foldl_onSlot (P := fun d => news d.out = news c.out) qs rfl
    fun _ q parsed _ h => (news_dispatchSlot q parsed).trans h

/-! ## The end of a session -/

/-- How a session ends, and what is told about it. -/
inductive Ending (c c' : Controller) : Prop
  | plain {op : Op} {ok : Bool} : c.op = some op → Same c { c' with op := c.op, out := c.out } →
      c'.op = none → (ok = true → op ≠ .modeStep1 ∧ op ≠ .modeBack) →
      news c'.out = news c.out ++ [.finished (some op) ok] → Ending c c'
  | step1 : c.op = some .modeStep1 → c'.targetQtrm = c.targetQtrm → c'.op = none →
      c'.modeStep1Done = true → c'.modeStep2Done = c.modeStep2Done →
      news c'.out = news c.out ++ [.gate c.modeStep2Done, .finished (some .modeStep1) true] →
      Ending c c'
  | step2 : c.op = some .modeStep2 → c'.targetQtrm = c.targetQtrm → c'.op = none →
      c'.modeStep1Done = c.modeStep1Done → c'.modeStep2Done = true →
      news c'.out = news c.out ++ [.gate c.modeStep1Done, .finished (some .modeStep2) true] →
      Ending c c'
  | closed {ok : Bool} : c.op = some .modeBack → c'.targetQtrm = c.targetQtrm → c'.op = none →
      c'.modeStep1Done = false → c'.modeStep2Done = false →
      news c'.out = news c.out ++ [.gate false, .finished (some .modeBack) ok] → Ending c c'

/-- The session goes on, and nothing is told. -/
structure Still (c c' : Controller) : Prop where
  same : Same c c'
  news : QccGui.news c'.out = QccGui.news c.out

theorem Still.refl (c : Controller) : Still c c := ⟨Same.refl c, rfl⟩

theorem Still.trans {c'' : Controller} (h : Still c c') (h' : Still c' c'') : Still c c'' :=
  ⟨h.same.trans h'.same, h'.news.trans h.news⟩

theorem still_emit {s : Signal} (h : s.news? = none) (hf : s.finished? = none) :
    Still c (c.emit s) :=
  ⟨same_emit hf, by rw [news_emit, h]; exact List.append_nil _⟩

theorem Ending.of_still {d : Controller} (he : Ending d c') (h : Still c d) : Ending c c' := by
  have hop := h.same.op
  have ht := h.same.target
  have h1 := h.same.step1
  have h2 := h.same.step2
  have hn := h.news
  cases he with
  | plain ho hs hno hok hnews =>
    refine .plain (hop ▸ ho) ⟨rfl, hs.step1.trans h1, hs.step2.trans h2, hs.target.trans ht,
      hs.sendOk.trans h.same.sendOk, rfl⟩ hno hok (hnews.trans (by rw [hn]))
  | step1 ho ht' hno h1' h2' hnews =>
    exact .step1 (hop ▸ ho) (ht'.trans ht) hno h1' (h2'.trans h2) (hnews.trans (by rw [hn, h2]))
  | step2 ho ht' hno h1' h2' hnews =>
    exact .step2 (hop ▸ ho) (ht'.trans ht) hno (h1'.trans h1) h2' (hnews.trans (by rw [hn, h1]))
  | closed ho ht' hno h1' h2' hnews =>
    exact .closed (hop ▸ ho) (ht'.trans ht) hno h1' h2' (hnews.trans (by rw [hn]))

theorem ending_finish {op : Op} (ok : Bool) (hop : c.op = some op)
    (hok : ok = true → op ≠ .modeStep1 ∧ op ≠ .modeBack) (text : String) :
    Ending c (c.finish ok text) :=
  .plain hop ⟨rfl, rfl, rfl, rfl, rfl, rfl⟩ rfl hok (by simp [finish, hop])

theorem ending_noResponse {op : Op} (hop : c.op = some op) (text : String) :
    Ending c (c.noResponse op text) :=
  (ending_finish (c := c.emit (.stepResult op false text)) false hop (fun h => nomatch h) _).of_still
    (still_emit rfl rfl)

theorem ending_step1 (hop : c.op = some .modeStep1) : Ending c (c.stepComplete .modeStep1) := by
  refine .step1 hop rfl rfl rfl rfl ?_
  simp only [stepComplete, finish, if_true, news_emit]
  simp [news, hop, gateOpen, emit]

theorem ending_step2 (hop : c.op = some .modeStep2) : Ending c (c.stepComplete .modeStep2) := by
  refine .step2 hop rfl rfl rfl rfl ?_
  have hne : Op.modeStep2 ≠ Op.modeStep1 := by decide
  simp only [stepComplete, finish, if_neg hne, news_emit]
  simp [news, hop, gateOpen, emit]

theorem ending_closeGate (hop : c.op = some .modeBack) (ok : Bool) (text : String) :
    Ending c (c.closeGate.finish ok text) := by
  have hnews : news (c.closeGate.finish ok text).out =
      news c.out ++ [.gate false, .finished (some .modeBack) ok] := by
    simp [closeGate, finish, hop]
  exact .closed hop rfl rfl rfl rfl hnews

theorem ending_closeGate_noResponse (hop : c.op = some .modeBack) (text : String) :
    Ending c (c.closeGate.noResponse .modeBack text) := by
  have hnews : news (c.closeGate.noResponse .modeBack text).out =
      news c.out ++ [.gate false, .finished (some .modeBack) false] := by
    simp [closeGate, noResponse, finish, hop]
  exact .closed hop rfl rfl rfl rfl hnews

/-! ## Handlers -/

theorem afterSlots_told (hop : c.op ≠ none) : Still c c.afterSlots ∨ Ending c c.afterSlots := by
  obtain ⟨op, hop⟩ := Option.ne_none_iff_exists'.1 hop
  have hend : ∀ text, op ≠ .modeStep1 ∧ op ≠ .modeBack →
      Ending c ((c.emit (.opWindowClosed op)).finish true text) := fun text hok =>
    (ending_finish (c := c.emit (.opWindowClosed op)) true hop (fun _ => hok) text).of_still
      (still_emit rfl rfl)
  unfold afterSlots
  rw [hop]
  cases op with
  | linkCheck => exact .inr (hend _ (by decide))
  | lruInfo => exact .inr (hend _ (by decide))
  | modeStep1 | modeStep2 | upload | qtrmHighSpeed | modeBack => exact .inl (by simpa using .refl c)
  | authenticate | verify | program =>
    dsimp only
    split
    · exact .inr (hend _ (by decide))
    · exact .inl (.refl c)

theorem onSlots_told (raw : Bytes) (hop : c.op ≠ none) :
    Still c (c.onSlots raw) ∨ Ending c (c.onSlots raw) := by
  unfold onSlots
  split
  · exact .inl ⟨⟨rfl, rfl, rfl, rfl, rfl, rfl⟩, rfl⟩
  · rename_i slots _
    have hl : Still c ((List.finRange 96).foldl (onSlot c.context slots) (c, false)).1 :=
      ⟨same_slots .., news_slots ..⟩
    generalize (List.finRange 96).foldl (onSlot c.context slots) (c, false) = acc at hl
    dsimp only [next]
    split
    · exact .inl hl
    · generalize hd : acc.1.emit (.logFrame raw false _) = d
      have hlog : Still c d := hl.trans (hd ▸ still_emit rfl rfl)
      have hop' : d.op ≠ none := hlog.same.op ▸ hop
      exact (afterSlots_told hop').imp hlog.trans fun he => he.of_still hlog

theorem onFrame_told (raw : Bytes) : Still c (c.onFrame raw) ∨ Ending c (c.onFrame raw) := by
  have hg : Still c { c with gotAnyFrame := true } := ⟨⟨rfl, rfl, rfl, rfl, rfl, rfl⟩, rfl⟩
  have hlog : ∀ text, Still c ({ c with gotAnyFrame := true }.emit (.logFrame raw false text)) :=
    fun text => hg.trans (still_emit rfl rfl)
  unfold onFrame
  split
  · exact .inl (.refl c)
  · rename_i op hop
    have hne : ({ c with gotAnyFrame := true } : Controller).op ≠ none := by
      change c.op ≠ none
      simp [hop]
    have hslots : Still c ({ c with gotAnyFrame := true }.onSlots raw) ∨
        Ending c ({ c with gotAnyFrame := true }.onSlots raw) :=
      (onSlots_told raw hne).imp hg.trans fun he => he.of_still hg
    cases op with
    | modeStep1 => exact .inr ((ending_step1 (by exact hop)).of_still (hlog _))
    | modeStep2 => exact .inr ((ending_step2 (by exact hop)).of_still (hlog _))
    | qtrmHighSpeed => exact .inr ((ending_finish true (by exact hop) (by decide) _).of_still (hlog _))
    | modeBack => exact .inr ((ending_closeGate (by exact hop) _ _).of_still (hlog _))
    | _ => exact hslots

theorem onSimpleTimeout_told : Still c c.onSimpleTimeout ∨ Ending c c.onSimpleTimeout := by
  have hw : ∀ op, Still c (c.emit (.opWindowClosed op)) := fun op => still_emit rfl rfl
  unfold onSimpleTimeout
  split
  · rename_i hop
    split
    · exact .inr (ending_step1 hop)
    · exact .inr (ending_noResponse hop _)
  · rename_i hop
    split
    · exact .inr (ending_step2 hop)
    · exact .inr (ending_noResponse hop _)
  · rename_i hop
    dsimp only
    split
    · exact .inr ((ending_finish true (by exact hop) (by decide) _).of_still (hw _))
    · exact .inr ((ending_noResponse (by exact hop) _).of_still (hw _))
  · rename_i hop
    dsimp only
    split
    · exact .inr ((ending_finish true (by exact hop) (by decide) _).of_still (hw _))
    · exact .inr ((ending_noResponse (by exact hop) _).of_still (hw _))
  · rename_i hop
    exact .inr (ending_noResponse hop _)
  · rename_i hop
    exact .inr (ending_closeGate_noResponse hop _)
  · exact .inl (.refl c)

theorem onIapWindowClosed_told (hop : c.op = none ∨ ∃ op, c.op = some op ∧ Polls op) :
    Still c c.onIapWindowClosed ∨ Ending c c.onIapWindowClosed := by
  unfold onIapWindowClosed
  split
  · exact .inl (.refl c)
  · rename_i op hop'
    have hw : Still c (c.emit (.opWindowClosed op)) := still_emit rfl rfl
    have hok : op ≠ .modeStep1 ∧ op ≠ .modeBack := by
      rcases hop with hn | ⟨op', ho, hp⟩
      · exact nomatch hn.symm.trans hop'
      · obtain rfl := Option.some.inj (ho.symm.trans hop')
        rcases hp with rfl | rfl | rfl <;> decide
    dsimp only
    split
    · exact .inr ((ending_finish true (by exact hop') (fun _ => hok) _).of_still hw)
    · split
      · exact .inr ((ending_finish true (by exact hop') (fun _ => hok) _).of_still hw)
      · exact .inr ((ending_noResponse (by exact hop') _).of_still hw)

theorem onTimer_told (h : c.Ok) : Still c c.onTimer ∨ Ending c c.onTimer := by
  have ht : Still c { c with timer := none } := ⟨⟨rfl, rfl, rfl, rfl, rfl, rfl⟩, rfl⟩
  unfold onTimer
  split
  · exact .inl (.refl c)
  · rename_i hd ms htimer
    have hcl := (h.timer _ _ htimer).1
    cases hd with
    | simpleTimeout => exact onSimpleTimeout_told.imp ht.trans fun he => he.of_still ht
    | iapWindowClosed =>
      refine (onIapWindowClosed_told (.inr ?_)).imp ht.trans fun he => he.of_still ht
      rcases hcl with hop | hop | hop
      · exact ⟨_, hop, .inl rfl⟩
      · exact ⟨_, hop, .inr (.inl rfl)⟩
      · exact ⟨_, hop, .inr (.inr rfl)⟩
    | graceTimeout =>
      exact .inr ((ending_finish (c := ({ c with timer := none } : Controller).emit _) _ hcl
        (by simp) _).of_still (ht.trans (still_emit rfl rfl)))

/-! ## All events -/

/-- What one event tells about the gate and the session. -/
inductive Told (c : Controller) (e : Event) (c' : Controller) : Prop
  | still : Still c c' → (∀ what, e = .start what → ¬ c.Accepts what) → Told c e c'
  | set : (∃ target, e = .setTarget target ∧ c' = { c with targetQtrm := target }) ∨
      (∃ up, e = .link up ∧ c' = { c with sendOk := up }) → Told c e c'
  | started {what : Start} : e = .start what → c.Accepts what → Started what c c' →
      news c'.out = news c.out → Told c e c'
  | ended : Ending c c' → (∀ what, e ≠ .start what) → Told c e c'

theorem react_told (h : c.Ok) (e : Event) : Told c e (c.react e) := by
  cases e with
  | start what =>
    by_cases ha : c.Accepts what
    · exact .started rfl ha (startOp_accepted ha) (seen_startOp unsent_news what)
    · rw [show c.react (.start what) = c from startOp_refused ha]
      refine .still (.refl c) ?_
      rintro _ ⟨⟩
      exact ha
  | setTarget target => exact .set (.inl ⟨target, rfl, rfl⟩)
  | link up => exact .set (.inr ⟨up, rfl, rfl⟩)
  | setIapWindow ms => exact .still ⟨⟨rfl, rfl, rfl, rfl, rfl, rfl⟩, rfl⟩ nofun
  | frame raw =>
    exact (onFrame_told raw).elim (fun hs => .still hs nofun) fun he => .ended he nofun
  | timer => exact (onTimer_told h).elim (fun hs => .still hs nofun) fun he => .ended he nofun
  | shot =>
    have hs : news c.onShot.out = news c.out :=
      seen_sendNextChunk (c := { c with pendingShots := c.pendingShots - 1 }) unsent_news true
    exact .still ⟨same_onShot, hs⟩ nofun
  | cancel =>
    rcases hop : c.op with _ | op
    · rw [show c.react .cancel = c from if_pos hop]
      exact .still (.refl c) nofun
    · have hc : c.react .cancel = c.finish false "Cancelled by operator" :=
        if_neg (by rw [hop]; simp)
      rw [hc]
      exact .ended (ending_finish false hop (fun h => nomatch h) _) nofun

theorem handle_told (h : c.Ok) (e : Event) : Told c.cleared e (c.handle e) :=
  react_told (c := c.cleared) (h.congr rfl) e

end Controller

end QccGui
