import QccGui.Gui.Wait

/-!
# What the tabs are told

A command of the table ends with a call of its `on_result` or its `on_timeout`.

* `Outcome`, `outcomes`: the calls among the outputs of an event.
* `outcomes_react`: an event tells a tab at most one thing, about the command that waits.
* `Begins`, `Delivers`: the event latches a command; it does not take the wait away silently.
* `waiting_step`, `idle_step`: one event, while the command waits and while it does not.
-/

namespace QccGui

open Lib

/-- One call of `on_result`, with what the parser read, or of `on_timeout`. -/
structure Outcome where
  kind : Kind
  parsed : Option Parsed
  target : Option Qtrm

def Output.outcome? : Output → Option Outcome
  | .result kind parsed target => some ⟨kind, some parsed, target⟩
  | .noResponse kind target => some ⟨kind, none, target⟩
  | _ => none

/-- The calls among the outputs. -/
def outcomes (out : List Output) : List Outcome := out.filterMap Output.outcome?

/-- How many of them are about commands of a kind. -/
def told (k : Kind) (out : List Output) : Nat := (outcomes out).countP (·.kind = k)

namespace Window

variable {w w' : Window} {e : Event} {k : Kind}

@[simp] theorem outcomes_emit (o : Output) :
    outcomes (w.emit o).out = outcomes w.out ++ o.outcome?.toList := filterMap_snoc ..

@[simp] theorem outcomes_warn (title text : String) :
    outcomes (w.warn title text).out = outcomes w.out := by
  rw [warn, outcomes_emit]
  exact List.append_nil _

/-- The signals of the controller tell no tab of a command. -/
theorem outcomes_forward (up : Bool) (out : List Signal) :
    outcomes (out.filterMap (forward up)) = [] := by
  rw [outcomes, List.filterMap_filterMap, List.filterMap_eq_nil_iff]
  intro s _
  cases s <;> cases up <;> rfl

theorem outcomes_sessionEvent (c : Controller.Event) :
    outcomes (w.sessionEvent c).out = outcomes w.out := by
  rw [sessionEvent, outcomes, List.filterMap_append]
  exact (congrArg _ (outcomes_forward ..)).trans (List.append_nil _)

theorem outcomes_takeTarget (spec : Command) :
    outcomes (w.takeTarget spec).2.out = outcomes w.out := by
  unfold takeTarget
  split <;> rfl

theorem outcomes_showResponseTime (k : Kind) (elapsedUs : Option Nat) :
    outcomes (w.showResponseTime k elapsedUs).out = outcomes w.out := by
  unfold showResponseTime
  split
  · split
    · rw [outcomes_emit]
      exact List.append_nil _
    · rfl
  · rfl

theorem runParser_congr (h : w'.statusTypeInFlight = w.statusTypeInFlight)
    (h' : w'.statusSubTypeInFlight = w.statusSubTypeInFlight) (raw : Bytes) (parser : Parser) :
    w'.runParser raw parser = w.runParser raw parser := by
  cases parser with
  | link | headerChecksum => rfl
  | status => simp only [runParser, h, h']

/-! ## Replies -/

/-- The reply is shown, and its parser takes it. -/
def Readable (w : Window) (k : Kind) (raw : Bytes) (repaint : Bool) : Prop :=
  updateFrameDisplay raw repaint = true ∧
    ∃ parser parsed, (commands k).parser = some parser ∧ w.runParser raw parser = .ok parsed

theorem runParser_shown (elapsedUs : Option Nat) (raw : Bytes) (parser : Parser) :
    ((w.takeTarget (commands k)).2.showResponseTime k elapsedUs).runParser raw parser =
      w.runParser raw parser := by
  refine runParser_congr ?_ ?_ raw parser
  all_goals
    unfold showResponseTime takeTarget
    repeat' split
    all_goals rfl

/-- A readable reply is a result, and nothing else is. -/
theorem outcomes_onReply (k : Kind) (raw : Bytes) (elapsedUs : Option Nat) (repaint : Bool) :
    w.Readable k raw repaint ∧ (∃ parsed target, outcomes (w.onReply k raw elapsedUs repaint).out =
        outcomes w.out ++ [⟨k, some parsed, target⟩]) ∨
      ¬ w.Readable k raw repaint ∧
        outcomes (w.onReply k raw elapsedUs repaint).out = outcomes w.out := by
  have hout : outcomes ((w.takeTarget (commands k)).2.showResponseTime k elapsedUs).out =
      outcomes w.out := by rw [outcomes_showResponseTime, outcomes_takeTarget]
  unfold onReply Readable
  dsimp only
  split
  · rename_i hs
    exact .inr ⟨fun h => hs h.1, outcomes_takeTarget _⟩
  rename_i hs
  have hs : updateFrameDisplay raw repaint = true := by simpa using hs
  unfold showResult
  split
  · rename_i hp
    refine .inr ⟨?_, hout⟩
    rintro ⟨-, parser, _, hp', -⟩
    cases hp.symm.trans hp'
  rename_i parser hp
  split
  · rename_i err hr
    rw [runParser_shown] at hr
    refine .inr ⟨?_, (outcomes_warn ..).trans hout⟩
    rintro ⟨-, p, parsed, hp', hok⟩
    obtain rfl : parser = p := Option.some.inj (hp.symm.trans hp')
    cases hr.symm.trans hok
  · rename_i parsed hr
    rw [runParser_shown] at hr
    exact .inl ⟨⟨hs, parser, parsed, hp, hr⟩, parsed, _, by rw [outcomes_emit, hout]; rfl⟩

theorem headerSize_le_of_readable {raw : Bytes} {repaint : Bool} (h : w.Readable k raw repaint) :
    headerSize ≤ raw.length := by
  have hs := h.1
  rw [updateFrameDisplay, Bool.and_eq_true, decide_eq_true_eq] at hs
  exact hs.1

theorem outcomes_onChipIdReply (raw : Bytes) :
    outcomes (w.onChipIdReply raw).out = outcomes w.out ∨
      outcomes (w.onChipIdReply raw).out = outcomes w.out ++ [⟨.chipIdRead, none, none⟩] := by
  unfold onChipIdReply
  split
  · exact .inr (by rw [outcomes_emit, outcomes_warn]; rfl)
  · exact .inl (by rw [outcomes_emit]; exact List.append_nil _)

theorem outcomes_disconnect : outcomes w.disconnect.out = outcomes w.out := by
  unfold disconnect
  dsimp only
  split <;> exact outcomes_sessionEvent _

/-- A watchdog that fires for the command that waits tells its tab that nothing came. -/
theorem outcomes_onPendingTimer (k : Kind) (hk : w.pendingTimer = some k)
    (ha : w.awaiting = some (.command k)) :
    w.onPendingTimer.awaiting = none ∧ ∃ target,
      outcomes w.onPendingTimer.out = outcomes w.out ++ [⟨k, none, target⟩] := by
  rw [onPendingTimer, hk]
  dsimp only
  rw [onResponseTimeout, if_neg (by simp [ha])]
  exact ⟨(shows_takeTarget _).awaiting, _, by rw [outcomes_emit, outcomes_takeTarget]; rfl⟩

/-! ## One event -/

/-- An outcome is about the command that waits, and comes with a frame or from its watchdog. -/
structure Told (w : Window) (e : Event) (o : Outcome) : Prop where
  waits : w.awaiting = some (.command o.kind)
  cause : e = .responseTimeout ∧ o.parsed = none ∨
    ∃ raw elapsedUs repaint, e = .frame raw elapsedUs repaint ∧
      (o.parsed.isSome → headerSize ≤ raw.length)

theorem Quiet.outcomes (h : Quiet w w') : outcomes w'.out = outcomes w.out := by
  rcases h.out with ho | ⟨title, text, ho⟩
  · rw [ho]
  · rw [ho, QccGui.outcomes, List.filterMap_append]
    exact List.append_nil _

theorem outcomes_rpStart (hw : w.worker = true) (ha : w.awaiting = none) (what : Controller.Start) :
    outcomes (w.rpStart what).out = outcomes w.out := by
  rw [rpStart, if_neg (not_not.2 hw), if_neg (not_not.2 ha)]
  dsimp only
  split
  · rw [outcomes_emit, outcomes_sessionEvent]
    exact List.append_nil _
  · exact outcomes_sessionEvent _

/-- A frame outside sessions tells at most the tab of the command that waits. -/
theorem outcomes_onFrameReceived {raw : Bytes} (hl : ¬(w.logging = true ∧ raw.length < headerSize))
    (hne : w.awaiting ≠ some .remoteProgramming) (elapsedUs : Option Nat) (repaint : Bool) :
    outcomes (w.onFrameReceived raw elapsedUs repaint).out = outcomes w.out ∨
      ∃ o, outcomes (w.onFrameReceived raw elapsedUs repaint).out = outcomes w.out ++ [o] ∧
        w.Told (.frame raw elapsedUs repaint) o := by
  rw [onFrameReceived, if_neg hl, if_neg hne]
  dsimp only
  split
  · rename_i ha
    refine (outcomes_onChipIdReply raw).imp_right fun h => ⟨_, h, ha, .inr ?_⟩
    exact ⟨raw, elapsedUs, repaint, rfl, fun h => by cases h⟩
  · rename_i k _ ha
    rcases outcomes_onReply (w := { w.endWait with awaiting := none }) k raw elapsedUs repaint with
      ⟨hr, parsed, target, h⟩ | ⟨-, h⟩
    · exact .inr ⟨_, h, ha, .inr ⟨raw, elapsedUs, repaint, rfl, fun _ =>
        headerSize_le_of_readable hr⟩⟩
    · exact .inl h
  · exact .inl rfl

theorem outcomes_react : outcomes (w.react e).out = outcomes w.out ∨
    ∃ o, outcomes (w.react e).out = outcomes w.out ++ [o] ∧ w.Told e o := by
  have hr := react_cases w e
  generalize w.react e = w' at hr ⊢
  cases hr with
  | quiet hq _ _ => exact .inl hq.outcomes
  | sent _ hw' _ hl =>
    subst hw'
    simp [beginWait, hl.out, Output.outcome?]
  | reset _ hw' _ =>
    subst hw'
    simp [Output.outcome?]
  | starts _ hw' hw ha => exact .inl (hw' ▸ outcomes_rpStart hw ha _)
  | session hw' => exact .inl (hw' ▸ outcomes_sessionEvent _)
  | reply he hw' hl hne =>
    subst he hw'
    exact outcomes_onFrameReceived hl hne ..
  | expired _ hw' => exact .inl (hw' ▸ rfl)
  | timedOut he hw' hk ha =>
    subst he hw'
    obtain ⟨-, target, h⟩ := outcomes_onPendingTimer _ hk ha
    exact .inr ⟨_, h, ha, .inl ⟨rfl, rfl⟩⟩
  | disconnected hw' _ => exact .inl (hw' ▸ outcomes_disconnect)
  | burnStarted _ hw' => exact .inl (hw' ▸ rfl)
  | burnStopped _ hw' hq _ =>
    subst hw'
    exact .inl hq.outcomes

/-- The event latches a command of kind `k`. -/
def Begins (k : Kind) (w : Window) (e : Event) : Prop :=
  ∃ r, e = .request r ∧ r.kind = k ∧ w.worker = true ∧
    (w.awaiting = none ∨ r.isAutoResend = true ∧ w.awaiting = some (.command k))

/-- The event does not end the wait for a command of kind `k` without a word: a frame is one on which
an active logger raises, or it is readable; no burn test takes the lock over. -/
def Delivers (k : Kind) (w : Window) (e : Event) : Prop :=
  match e with
  | .frame raw _ repaint =>
    w.logging = true ∧ raw.length < headerSize ∨ w.Readable k raw repaint
  | .burnTestAnswer yes logError => ¬ (yes = true ∧ logError = none ∧ w.worker = true)
  | _ => True

/-- A request begins its own wait, or leaves the lock alone. -/
theorem awaiting_request (r : Request) :
    Begins r.kind w (.request r) ∧ (w.onRequest r).awaiting = some (.command r.kind) ∨
      ¬ Begins r.kind w (.request r) ∧ (w.onRequest r).awaiting = w.awaiting := by
  obtain ⟨build, latch, -, -, -, hr⟩ := onRequest_eq r
  have hno : ∀ {p : Prop}, (w.worker = true ∧ (w.awaiting = none ∨
      r.isAutoResend = true ∧ w.awaiting = some (.command r.kind)) → p) →
      Begins r.kind w (.request r) → p := by
    rintro p hp ⟨r', he, -, hw⟩
    cases he
    exact hp hw
  rw [hr]
  unfold sendCommand
  split
  · rename_i hw
    refine .inr ⟨hno fun h => hw h.1, ?_⟩
    split <;> rfl
  rename_i hw
  split
  · rename_i ha
    refine .inr ⟨hno fun h => ?_, rfl⟩
    exact h.2.elim ha.2.1 fun h => ha.2.2 h.2
  rename_i hother
  split
  · rename_i ha
    refine .inr ⟨hno fun h => ?_, rfl⟩
    exact h.2.elim ha.2 fun h => ha.1 h.1
  · rename_i hbusy
    refine .inl ⟨⟨r, rfl, rfl, by simpa using hw, ?_⟩, rfl⟩
    by_cases ha : w.awaiting = none
    · exact .inl ha
    · cases hra : r.isAutoResend with
      | false => simp [hra, ha] at hbusy
      | true => exact .inr ⟨rfl, by simpa [hra, ha] using hother⟩

/-- While no command of kind `k` waits, none is told of, and only a new one waits afterwards. -/
theorem idle_step (h : w.Ok) (he : machine.enabled w e) (ha : w.awaiting ≠ some (.command k)) :
    told k (w.handle e).out = 0 ∧
      ((w.handle e).awaiting = some (.command k) → Begins k w e) := by
  constructor
  · rcases outcomes_react (w := w.cleared) (e := e) with ho | ⟨o, ho, ht⟩
    · rw [told, show outcomes (w.handle e).out = _ from ho]
      rfl
    · rw [told, show outcomes (w.handle e).out = _ from ho]
      have hk : o.kind ≠ k := fun hk => ha (hk ▸ ht.waits)
      simp [cleared, outcomes, hk]
  · intro haft
    cases handle_effect h he with
    | kept hk => exact absurd (hk.awaiting.symm.trans haft) ha
    | reset _ _ hk => exact absurd (hk.awaiting.symm.trans haft) ha
    | unwaited _ hn => rcases hn with hn | hn <;> cases hn.symm.trans haft
    | began hreq _ haw =>
      subst hreq
      cases haw.symm.trans haft
      rcases awaiting_request (w := w.cleared) _ with ⟨hb, -⟩ | ⟨-, hb⟩
      · exact hb
      · exact absurd (hb.symm.trans haft) ha
    | started _ _ _ haw => cases haw.symm.trans haft
    | ended hd => cases hd.released.symm.trans haft

/-- What one event does to a wait for a command of kind `k`. -/
structure WaitStep (k : Kind) (w : Window) (e : Event) (w' : Window) : Prop where
  stays : w'.awaiting = some (.command k) → Delivers k w e ∧ told k w'.out = 0
  ends : w'.awaiting ≠ some (.command k) →
    (Delivers k w e → told k w'.out = 1) ∧ (¬ Delivers k w e → told k w'.out = 0)

theorem WaitStep.stay (ha : w'.awaiting = some (.command k)) (hd : Delivers k w e)
    (ho : outcomes w'.out = []) : WaitStep k w e w' :=
  ⟨fun _ => ⟨hd, by rw [told, ho]; rfl⟩, fun hn => absurd ha hn⟩

theorem WaitStep.tell {o : Outcome} (ha : w'.awaiting = none) (hd : Delivers k w e) (hk : o.kind = k)
    (ho : outcomes w'.out = [o]) : WaitStep k w e w' :=
  ⟨fun hs => absurd (ha.symm.trans hs) nofun,
    fun _ => ⟨fun _ => by simp [told, ho, hk], fun hn => absurd hd hn⟩⟩

theorem WaitStep.lose (ha : w'.awaiting ≠ some (.command k)) (hd : ¬ Delivers k w e)
    (ho : outcomes w'.out = []) : WaitStep k w e w' :=
  ⟨fun hs => absurd hs ha, fun _ => ⟨fun h => absurd h hd, fun _ => by rw [told, ho]; rfl⟩⟩

theorem awaiting_onBurnTestStop {d : Window} (ha : d.awaiting = some (.command k)) :
    d.onBurnTestStop.awaiting = some (.command k) := by
  rw [onBurnTestStop]
  dsimp only
  rw [if_neg (by simp [ha]), ha]

/-- The requests, the session, the connection and the settings leave a command's wait alone. -/
theorem awaiting_react (ha : w.awaiting = some (.command k)) (hb : ¬ Begins k w e)
    (hf : ∀ raw elapsedUs repaint, e ≠ .frame raw elapsedUs repaint) (ht : e ≠ .responseTimeout)
    (hq : ∀ yes logError, e ≠ .burnTestAnswer yes logError) :
    (w.react e).awaiting = some (.command k) := by
  have hsession : ∀ c, (w.sessionEvent c).awaiting = some (.command k) := by
    intro c
    rw [sessionEvent_awaiting, if_neg (by simp [ha]), ha]
  have hr := react_cases w e
  generalize w.react e = w' at hr ⊢
  cases hr with
  | quiet hquiet _ _ => exact hquiet.awaiting.trans ha
  | @sent r _ _ he hw' _ _ _ hat hup =>
    subst he
    rcases hat with hat | ⟨hauto, hat⟩
    · cases ha.symm.trans hat
    · have hk : k = r.kind := by simpa using ha.symm.trans hat
      exact absurd ⟨r, rfl, hk.symm, hup, .inr ⟨hauto, ha⟩⟩ hb
  | reset _ hw' _ => exact hw' ▸ ha
  | starts _ _ _ hnone => cases ha.symm.trans hnone
  | session hw' => exact hw' ▸ hsession _
  | reply he => exact absurd he (hf _ _ _)
  | expired he => exact absurd he ht
  | timedOut he => exact absurd he ht
  | disconnected hw' _ =>
    rw [hw', disconnect]
    split <;> exact awaiting_onBurnTestStop (hsession .cancel)
  | burnStarted he => exact absurd he (hq _ _)
  | burnStopped _ hw' hquiet _ =>
    rw [hw']
    exact awaiting_onBurnTestStop (hquiet.awaiting.trans ha)

/-- While a command waits, it is told of exactly when its wait ends, by an event that delivers. -/
theorem waiting_step (h : w.Ok) (hp : (commands k).parser.isSome)
    (ha : w.awaiting = some (.command k)) (hb : ¬ Begins k w e) :
    WaitStep k w e (w.handle e) := by
  have hsame : ∀ {d : Window}, d.awaiting = w.awaiting → outcomes d.out = [] → Delivers k w e →
      WaitStep k w e d := fun hd ho hdel => .stay (hd.trans ha) hdel ho
  by_cases hf : ∃ raw elapsedUs repaint, e = .frame raw elapsedUs repaint
  · obtain ⟨raw, elapsedUs, repaint, rfl⟩ := hf
    have hchip : k ≠ .chipIdRead := by
      rintro rfl
      cases hp
    show WaitStep k w _ (w.cleared.onFrameReceived raw elapsedUs repaint)
    unfold onFrameReceived
    split
    · rename_i hl
      exact hsame rfl rfl (.inl hl)
    rename_i hl
    rw [if_neg (by simp [cleared, ha])]
    have hcur : w.cleared.awaiting = some (.command k) := ha
    generalize hd : ({ w.cleared.endWait with awaiting := none } : Window) = d
    have hda : d.awaiting = none := by rw [← hd]
    have hdo : outcomes d.out = [] := by rw [← hd]; rfl
    have hread : d.Readable k raw repaint ↔ w.Readable k raw repaint := by
      have hr : ∀ parser, d.runParser raw parser = w.runParser raw parser := by
        rw [← hd]
        exact runParser_congr (w := w) rfl rfl raw
      simp only [Readable, hr]
    dsimp only
    split
    · rename_i hk
      exact absurd (Awaiting.command.inj (Option.some.inj (hcur.symm.trans hk))) hchip
    · rename_i kind _ hk
      obtain rfl : k = kind := Awaiting.command.inj (Option.some.inj (hcur.symm.trans hk))
      have haft := (shows_onReply (w := d) k raw elapsedUs repaint).awaiting.trans hda
      rcases outcomes_onReply (w := d) k raw elapsedUs repaint with
        ⟨hr, parsed, target, ho⟩ | ⟨hr, ho⟩
      · rw [hdo] at ho
        exact .tell haft (.inr (hread.1 hr)) rfl ho
      · rw [hdo] at ho
        refine .lose (by rw [haft]; nofun) ?_ ho
        rintro (hc | hc)
        · exact hl hc
        · exact hr (hread.2 hc)
    · rename_i hother
      exact absurd hcur (hother k)
  by_cases ht : e = .responseTimeout
  · subst ht
    obtain ⟨haft, target, ho⟩ := outcomes_onPendingTimer (w := w.cleared) k (h.armed k ha) ha
    exact .tell haft trivial rfl ho
  by_cases hq : ∃ yes logError, e = .burnTestAnswer yes logError
  · obtain ⟨yes, logError, rfl⟩ := hq
    show WaitStep k w _ (w.cleared.onBurnTestAnswer yes logError)
    unfold onBurnTestAnswer
    dsimp only
    split
    · rename_i hy
      exact hsame rfl rfl fun hc => hy hc.1
    split
    · exact hsame rfl (outcomes_warn ..) fun hc => nomatch hc.2.1
    split
    · rename_i hw
      exact hsame rfl rfl fun hc => hw hc.2.2
    · rename_i hy _ hw
      have hup : w.cleared.worker = true := by simpa using hw
      exact .lose nofun (fun hd => hd ⟨by simpa using hy, rfl, hup⟩) rfl
  · have haft := awaiting_react (w := w.cleared) (e := e) ha hb
      (fun raw us rp he => hf ⟨raw, us, rp, he⟩) ht fun yes log he => hq ⟨yes, log, he⟩
    refine .stay haft ?_ ?_
    · cases e with
      | frame raw us rp => exact absurd ⟨raw, us, rp, rfl⟩ hf
      | burnTestAnswer yes log => exact absurd ⟨yes, log, rfl⟩ hq
      | _ => trivial
    · rcases outcomes_react (w := w.cleared) (e := e) with ho | ⟨o, -, -, hc⟩
      · exact ho
      · rcases hc with ⟨he, -⟩ | ⟨raw, us, rp, he, -⟩
        · exact absurd he ht
        · exact absurd ⟨raw, us, rp, he⟩ hf

end Window

end QccGui
