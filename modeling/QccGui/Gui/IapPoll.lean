import QccGui.Gui.Stream
import Mathlib.Data.Finset.Lattice.Basic
import Mathlib.Data.Fintype.Card

/-!
# The early end of an IAP poll

An authentication or a verification ends before its window closes once as many QTRMs have been
counted as it targets. Every slot that is not all zero is counted, whatever it holds.

* `answered`, `onFrame_poll`: the QTRMs that a frame counts, and what the frame does.
* `EarlyEndSound`: what an early end should mean.
* `CountsReports`: the condition on the frames under which it does.
* `early_end_sound`, and `early_end_without_report`, a run that breaks the condition.
-/

namespace QccGui

open Lib

/-- The QTRMs whose slot in a response is not all zero. -/
def answered (raw : Bytes) : Finset Qtrm := Finset.univ.filter fun q => rpSlot raw q ≠ zeros 10

@[simp] theorem mem_answered {raw : Bytes} {q : Qtrm} :
    q ∈ answered raw ↔ rpSlot raw q ≠ zeros 10 := by simp [answered]

namespace Controller

variable {c c' : Controller} {op : Op} {raw : Bytes}

/-- The operations that poll the QTRMs for the outcome of an IAP command. -/
def Polls (op : Op) : Prop := op = .authenticate ∨ op = .verify ∨ op = .program

instance (op : Op) : Decidable (Polls op) := by
  unfold Polls
  exact inferInstance

/-! ## A frame -/

/-- A slot that is not all zero counts its QTRM. -/
theorem dispatchSlot_poll (hop : c.op = some op) (hp : Polls op) (q : Qtrm) (slot : Slot) :
    c.dispatchSlot q slot =
      { c with iapReplied := insert q c.iapReplied }.emit (.opRowUpdated op q slot) := by
  unfold dispatchSlot
  rw [hop]
  rcases hp with rfl | rfl | rfl
  · rfl
  · rfl
  · rfl

/-- The slot loop of a poll counts the QTRMs that answered. -/
theorem foldl_poll {slots : Qtrm → Bytes} (ctx : Context) (hl : ∀ q, (slots q).length = 10)
    (hp : Polls op) (qs : List Qtrm) {b : Bool} (hop : c.op = some op) (hr : c.raised = false) :
    ∃ o : List Signal, finishes o = [] ∧
      (qs.foldl (onSlot ctx slots) (c, b)).1 = { c with
        iapReplied := c.iapReplied ∪ (qs.filter fun q => slots q ≠ zeros 10).toFinset
        out := c.out ++ o } := by
  induction qs generalizing c b with
  | nil => exact ⟨[], rfl, by simp⟩
  | cons q qs ih =>
    rw [List.foldl_cons]
    by_cases hz : slots q = zeros 10
    · have hskip : onSlot ctx slots (c, b) q = (c, b) := by
        rw [onSlot, hz, parseSlot_zeros]
        exact ite_self _
      rw [hskip, List.filter_cons_of_neg (by simpa using hz)]
      exact ih hop hr
    · obtain ⟨slot, hs, -⟩ := parseSlot_some (hl q) hz ctx
      have hturn : onSlot ctx slots (c, b) q = (c.dispatchSlot q slot, true) := by
        simp [onSlot, hr, hs]
      rw [hturn, dispatchSlot_poll hop hp]
      obtain ⟨o, ho, he⟩ := ih (b := true)
        (c := { c with iapReplied := insert q c.iapReplied }.emit (.opRowUpdated op q slot)) hop hr
      refine ⟨.opRowUpdated op q slot :: o, ho, ?_⟩
      rw [he, List.filter_cons_of_pos (by simpa using hz), List.toFinset_cons]
      simp [emit, Finset.insert_union, Finset.union_insert]

/-- A poll looks at the slots of every frame. -/
theorem onFrame_poll_slots (hop : c.op = some op) (hp : Polls op) :
    c.onFrame raw = { c with gotAnyFrame := true }.onSlots raw := by
  unfold onFrame
  rw [hop]
  rcases hp with rfl | rfl | rfl
  · rfl
  · rfl
  · rfl

/-- A frame that has no slots is an exception. -/
theorem onFrame_poll_short (hop : c.op = some op) (hp : Polls op)
    (hl : raw.length ≠ totalPacketSize) :
    c.onFrame raw = { c with gotAnyFrame := true, raised := true } := by
  obtain ⟨e, he⟩ := extractRpSlots_error hl
  rw [onFrame_poll_slots hop hp, onSlots, he]

theorem afterSlots_poll (hop : c.op = some op) (hp : Polls op) :
    c.afterSlots = if c.targetCount ≤ c.iapReplied.card then
      (c.emit (.opWindowClosed op)).finish true "All targeted QTRMs replied — poll ended early"
    else c := by
  unfold afterSlots
  rw [hop]
  rcases hp with rfl | rfl | rfl
  · simp
  · simp
  · simp

/-- A frame of a poll counts the QTRMs that answered, and ends the poll if they are enough. -/
theorem onFrame_poll (hop : c.op = some op) (hp : Polls op) (hr : c.raised = false)
    (hl : raw.length = totalPacketSize) : ∃ d o, finishes o = [] ∧
      d = { c with gotAnyFrame := true, iapReplied := c.iapReplied ∪ answered raw
                   out := c.out ++ o } ∧
      c.onFrame raw = if c.targetCount ≤ d.iapReplied.card then
        (d.emit (.opWindowClosed op)).finish true "All targeted QTRMs replied — poll ended early"
      else d := by
  have hctx : ({ c with gotAnyFrame := true } : Controller).context = .fwUpdate := by
    rw [context, hop]
    rcases hp with rfl | rfl | rfl <;> simp
  have hset : ((List.finRange 96).filter fun q => rpSlot raw q ≠ zeros 10).toFinset =
      answered raw := by
    ext q
    simp
  obtain ⟨o, ho, hfold⟩ := foldl_poll (c := { c with gotAnyFrame := true }) (b := false)
    .fwUpdate (rpSlot_length hl) hp (List.finRange 96) hop hr
  rw [onFrame_poll_slots hop hp, onSlots, extractRpSlots_ok hl]
  dsimp only
  rw [hctx]
  generalize (List.finRange 96).foldl (onSlot .fwUpdate (rpSlot raw))
    ({ c with gotAnyFrame := true }, false) = acc at hfold
  rw [hset] at hfold
  rw [next, if_neg (by simp [hfold, hr])]
  generalize hlog : Signal.logFrame raw false _ = log
  obtain ⟨text, rfl⟩ : ∃ text, log = .logFrame raw false text := ⟨_, hlog.symm⟩
  refine ⟨{ c with gotAnyFrame := true, iapReplied := c.iapReplied ∪ answered raw
                   out := c.out ++ (o ++ [.logFrame raw false text]) },
    o ++ [.logFrame raw false text], ?_, rfl, ?_⟩
  · rw [finishes_append, ho]
    rfl
  · rw [hfold, emit]
    dsimp only
    rw [List.append_assoc]
    exact afterSlots_poll hop hp

/-! ## Everything else -/

theorem iapReplied_sendRp (cmd payload : Bytes) (text : String) :
    (c.sendRp cmd payload text).iapReplied = c.iapReplied := by
  obtain ⟨rc, -, h⟩ := c.sendRp_eq cmd payload text
  rw [h]
  exact next_of (P := fun d => d.iapReplied = c.iapReplied) rfl fun d hd => hd

theorem iapReplied_sendNextChunk (first : Bool) :
    (c.sendNextChunk first).iapReplied = c.iapReplied := by
  unfold sendNextChunk sendCurrentChunk
  dsimp only
  split
  · rfl
  · split
    · rfl
    · exact next_of (P := fun d => d.iapReplied = c.iapReplied) (iapReplied_sendRp ..)
        fun d hd => hd

/-- While a session is active only frames count QTRMs. -/
theorem iapReplied_handle {e : Event} (hop : c.op ≠ none) (he : ∀ raw, e ≠ .frame raw) :
    (c.handle e).iapReplied = c.iapReplied := by
  cases e with
  | start what =>
    have hno : c.cleared.startOp what = c.cleared := startOp_refused fun h => hop h.1
    rw [show c.handle (.start what) = c.cleared from hno]
    rfl
  | frame raw => exact absurd rfl (he raw)
  | timer =>
    dsimp only [handle, react, onTimer]
    split
    · rfl
    · split
      · dsimp only [onSimpleTimeout]
        split
        · split <;> rfl
        · split <;> rfl
        · split <;> rfl
        · split <;> rfl
        · rfl
        · rfl
        · rfl
      · dsimp only [onIapWindowClosed]
        split
        · rfl
        · split
          · rfl
          · split <;> rfl
      · rfl
  | shot => exact iapReplied_sendNextChunk true
  | cancel =>
    dsimp only [handle, react, cancel]
    split <;> rfl
  | _ => rfl

/-! ## Sessions -/

/-- The step receives a frame whose slot of `q` is a report. -/
def Reported (q : Qtrm) (x : Step) : Prop :=
  ∃ raw slot, x.2 = .frame raw ∧ raw.length = totalPacketSize ∧
    parseSlot (rpSlot raw q) .fwUpdate = .ok (some slot) ∧ slot.isReport = true

/-- What an early end of an authentication or a verification among the steps `tr` should mean: each
QTRM that the session targets has sent a report in it. -/
def EarlyEndSound (tr : List Step) : Prop :=
  ∀ pre x mid y post what, tr = pre ++ x :: mid ++ y :: post → x.2 = .start what →
    what.op = .authenticate ∨ what.op = .verify → x.1.Accepts what →
    (∀ z ∈ mid, z.1.op = some what.op) → y.1.op = some what.op →
    .sessionFinished (some what.op) true "All targeted QTRMs replied — poll ended early" ∈
      (machine.post y).out →
    ∀ q, x.1.targetQtrm.includes q = true → ∃ z ∈ mid ++ [y], Reported q z

/-- A frame of an authentication or a verification counts a targeted QTRM only for a report, and
others only along with a targeted one. The target stays the same during a session. -/
def CountsReports (c : Controller) : Event → Prop
  | .frame raw => c.op = some .authenticate ∨ c.op = some .verify → raw.length = totalPacketSize →
      (∀ q ∈ answered raw, q ∉ c.iapReplied → c.targetQtrm.includes q = true →
        ∃ slot, parseSlot (rpSlot raw q) .fwUpdate = .ok (some slot) ∧ slot.isReport = true) ∧
      ((answered raw).Nonempty → ∃ q ∈ answered raw, c.targetQtrm.includes q = true)
  | .setTarget target => c.op = none ∨ target = c.targetQtrm
  | _ => True

/-- The QTRMs in `replied` have been counted for good reason in the steps `mid`. -/
structure Justified (target : Target) (mid : List Step) (replied : Finset Qtrm) : Prop where
  reported : ∀ q ∈ replied, target.includes q = true → ∃ z ∈ mid, Reported q z
  targeted : replied.Nonempty → ∃ q ∈ replied, target.includes q = true

theorem justified_nil (target : Target) : Justified target [] ∅ := ⟨by simp, by simp⟩

theorem Justified.snoc {target : Target} {mid : List Step} {replied : Finset Qtrm}
    (h : Justified target mid replied) (x : Step) : Justified target (mid ++ [x]) replied := by
  refine ⟨fun q hq ht => ?_, h.targeted⟩
  obtain ⟨z, hz, hr⟩ := h.reported q hq ht
  exact ⟨z, List.mem_append_left _ hz, hr⟩

/-- A frame that meets the condition. -/
theorem Justified.frame {mid : List Step} (h : Justified c.targetQtrm mid c.iapReplied)
    (hop : c.op = some .authenticate ∨ c.op = some .verify) (hl : raw.length = totalPacketSize)
    (hc : CountsReports c (.frame raw)) :
    Justified c.targetQtrm (mid ++ [(c, .frame raw)]) (c.iapReplied ∪ answered raw) := by
  obtain ⟨hnew, hany⟩ := hc hop hl
  constructor
  · intro q hq ht
    by_cases hold : q ∈ c.iapReplied
    · exact (h.snoc _).reported q hold ht
    · have hans : q ∈ answered raw := (Finset.mem_union.1 hq).resolve_left hold
      obtain ⟨slot, hs, hrep⟩ := hnew q hans hold ht
      exact ⟨(c, .frame raw), by simp, raw, slot, rfl, hl, hs, hrep⟩
  · intro hne
    rcases Finset.union_nonempty.1 hne with hold | hans
    · obtain ⟨q, hq, ht⟩ := h.targeted hold
      exact ⟨q, Finset.mem_union_left _ hq, ht⟩
    · obtain ⟨q, hq, ht⟩ := hany hans
      exact ⟨q, Finset.mem_union_right _ hq, ht⟩

/-- As many as are targeted are the targeted ones. -/
theorem Justified.all {mid : List Step} {replied : Finset Qtrm}
    (h : Justified c.targetQtrm mid replied) (hn : c.targetCount ≤ replied.card) {q : Qtrm}
    (hq : c.targetQtrm.includes q = true) : ∃ z ∈ mid, Reported q z := by
  refine h.reported q ?_ hq
  unfold targetCount at hn
  split at hn
  · have huniv : replied = Finset.univ := by
      rw [← Finset.card_eq_iff_eq_univ, Fintype.card_fin]
      have := Finset.card_le_univ replied
      rw [Fintype.card_fin] at this
      exact le_antisymm this hn
    exact huniv ▸ Finset.mem_univ q
  · rename_i t ht
    obtain ⟨q', hq', ht'⟩ := h.targeted (Finset.card_pos.1 hn)
    rw [ht] at hq ht'
    obtain rfl : q = t := by simpa [Target.includes] using hq
    obtain rfl : q' = q := by simpa [Target.includes] using ht'
    exact hq'

/-- An accepted start of a poll counts nobody. -/
theorem iapReplied_start {what : Start} (hw : Polls what.op) (ha : c.Accepts what) :
    (c.handle (.start what)).iapReplied = ∅ := by
  have hb : c.cleared.busy = false := by simp [busy, cleared, ha.1]
  have hpoll : ∀ op mode golden ms, c.gateOpen = true →
      (c.cleared.startIapPoll op mode golden ms).iapReplied = ∅ := by
    intro op mode golden ms hg
    have hg' : c.cleared.gateOpen = true := hg
    rw [startIapPoll, hb, hg', if_neg (by simp), iapReplied_sendRp]
    rfl
  cases what with
  | authenticate golden => exact hpoll _ _ _ _ ha.2
  | verify golden => exact hpoll _ _ _ _ ha.2
  | program golden => exact hpoll _ _ _ _ ha.2
  | _ => simp [Polls, Start.op] at hw

theorem handle_target (hok : c.Ok) {e : Event} (hc : CountsReports c e) (hop : c.op ≠ none) :
    (c.handle e).targetQtrm = c.targetQtrm := by
  cases handle_effect hok e with
  | same hs _ _ => exact hs.target
  | linked _ hs => rw [hs]; rfl
  | started _ _ hs => exact hs.target
  | ended hs _ => exact hs.target
  | retargeted he hs =>
    subst he
    rw [hs]
    exact hc.resolve_left hop

/-- One step of a session that goes on. -/
theorem Justified.step {mid : List Step} {e : Event} (hok : c.Ok)
    (hop : c.op = some .authenticate ∨ c.op = some .verify) (hc : CountsReports c e)
    (h : Justified c.targetQtrm mid c.iapReplied) (hon : (c.handle e).op ≠ none) :
    Justified (c.handle e).targetQtrm (mid ++ [(c, e)]) (c.handle e).iapReplied := by
  obtain ⟨op, hop', hp⟩ : ∃ op, c.op = some op ∧ Polls op := by
    rcases hop with hop | hop
    · exact ⟨_, hop, .inl rfl⟩
    · exact ⟨_, hop, .inr (.inl rfl)⟩
  rw [handle_target hok hc (by simp [hop'])]
  by_cases hf : ∃ raw, e = .frame raw
  · obtain ⟨raw, rfl⟩ := hf
    by_cases hl : raw.length = totalPacketSize
    · obtain ⟨d, o, -, hd, he⟩ := onFrame_poll (c := c.cleared) hop' hp rfl hl
      have hr : c.handle (.frame raw) = d := by
        have he : c.handle (.frame raw) = _ := he
        split at he
        · rw [he] at hon
          exact absurd rfl hon
        · exact he
      rw [hr, hd]
      exact h.frame hop hl hc
    · rw [show c.handle (.frame raw) = _ from onFrame_poll_short (c := c.cleared) hop' hp hl]
      exact h.snoc _
  · rw [iapReplied_handle (by simp [hop']) fun raw he => hf ⟨raw, he⟩]
    exact h.snoc _

/-- Throughout a session the QTRMs have been counted for good reason. -/
theorem justified_session {x : Step} {mid : List Step} {what : Start} (hok : x.1.Ok)
    (hx : x.2 = .start what) (hw : what.op = .authenticate ∨ what.op = .verify)
    (ha : x.1.Accepts what) (hr : machine.Run (machine.post x) mid c)
    (hm : ∀ z ∈ mid, z.1.op = some what.op) (hc : Machine.Along CountsReports mid)
    (hop : c.op = some what.op) : c.Ok ∧ c.targetQtrm = x.1.targetQtrm ∧
      Justified x.1.targetQtrm mid c.iapReplied := by
  obtain ⟨s, e⟩ := x
  obtain rfl : e = .start what := hx
  have hpolls : Polls what.op := hw.imp_right .inl
  have hstart : (s.handle (.start what)).targetQtrm = s.targetQtrm :=
    (startOp_accepted (c := s.cleared) ha).target
  have hrun := hr.history (C := fun s e => CountsReports s e ∧ s.op = some what.op)
    (P := fun mid d => d.Ok ∧ (d.op = some what.op → d.targetQtrm = s.targetQtrm ∧
      Justified s.targetQtrm mid d.iapReplied)) ?_ ?_ fun z hz => ⟨hc z hz, hm z hz⟩
  · exact ⟨hrun.1, hrun.2 hop⟩
  · have hen : machine.enabled s (.start what) := trivial
    refine ⟨ok_handle hok hen, fun _ => ⟨hstart, ?_⟩⟩
    rw [show (machine.post (s, .start what)).iapReplied = ∅ from iapReplied_start hpolls ha]
    exact justified_nil _
  · rintro tr d e - ⟨hdok, hd⟩ he ⟨hce, hdop⟩
    obtain ⟨ht, hj⟩ := hd hdop
    refine ⟨ok_handle hdok he, fun hon => ?_⟩
    have htarget : (d.handle e).targetQtrm = s.targetQtrm :=
      (handle_target hdok hce (by simp [hdop])).trans ht
    refine ⟨htarget, ?_⟩
    rw [← ht] at hj
    have hnext := hj.step hdok (hw.imp (hdop.trans <| congrArg some ·)
      (hdop.trans <| congrArg some ·)) hce
      (show (d.handle e).op ≠ none by rw [show (d.handle e).op = _ from hon]; nofun)
    rwa [htarget] at hnext

theorem mem_finishes {out : List Signal} {op : Option Op} {ok : Bool} {text : String}
    (h : .sessionFinished op ok text ∈ out) : op ∈ finishes out :=
  List.mem_filterMap.2 ⟨_, h, rfl⟩

/-- The step that ends a poll early is a frame with which enough QTRMs have been counted. -/
theorem endsEarly_inv {e : Event} (hok : c.Ok) (hop : c.op = some op) (hp : Polls op)
    (hm : .sessionFinished (some op) true "All targeted QTRMs replied — poll ended early" ∈
      (c.handle e).out) : ∃ raw, e = .frame raw ∧ raw.length = totalPacketSize ∧
      c.targetCount ≤ (c.iapReplied ∪ answered raw).card := by
  cases e with
  | frame raw =>
    by_cases hl : raw.length = totalPacketSize
    · obtain ⟨d, o, ho, hd, he⟩ := onFrame_poll (c := c.cleared) hop hp rfl hl
      refine ⟨raw, rfl, hl, ?_⟩
      by_contra hn
      rw [hd] at he
      rw [show c.handle (.frame raw) = _ from he.trans (if_neg hn)] at hm
      have := mem_finishes hm
      simp [cleared, ho] at this
    · rw [show c.handle (.frame raw) = _ from onFrame_poll_short (c := c.cleared) hop hp hl] at hm
      exact absurd hm List.not_mem_nil
  | start what =>
    have hno : c.handle (.start what) = c.cleared :=
      startOp_refused (c := c.cleared) fun h => by cases hop.symm.trans h.1
    rw [hno] at hm
    exact absurd hm List.not_mem_nil
  | timer =>
    rcases ht : c.timer with _ | ⟨hd, ms⟩
    · simp [handle, react, onTimer, cleared, ht] at hm
    · obtain rfl : hd = .iapWindowClosed := by
        have hcl := (hok.timer hd ms ht).1
        rw [hop] at hcl
        rcases hp with rfl | rfl | rfl <;> cases hd <;> simp [Handler.Closes] at hcl ⊢
      simp only [handle, react, onTimer, cleared, ht, onIapWindowClosed, hop] at hm
      split at hm
      · simp [emit, finish] at hm
      · split at hm
        · simp [emit, finish] at hm
        · simp [emit, finish, noResponse] at hm
  | shot =>
    have := mem_finishes hm
    rw [show finishes (c.handle .shot).out = [] from (same_onShot (c := c.cleared)).finishes] at this
    exact absurd this List.not_mem_nil
  | cancel =>
    rw [show c.handle .cancel = c.cleared.finish _ _ from if_neg (by simp [cleared, hop])] at hm
    simp [finish, emit, cleared] at hm
  | _ => exact absurd hm List.not_mem_nil

/-- In a run whose frames meet the condition an early end means what it says. -/
theorem early_end_sound {rc : RcSettings} {tr : List Step} (hr : machine.Run (init rc) tr c)
    (hc : Machine.Along CountsReports tr) : EarlyEndSound tr := by
  intro pre x mid y post what htr hx hw ha hm hy hend q hq
  have hpolls : Polls what.op := hw.imp_right .inl
  rw [htr, List.append_assoc, List.cons_append] at hr hc
  obtain ⟨hpre, hen, hrest⟩ := hr.middle
  obtain ⟨hmid, -, -⟩ := hrest.middle
  obtain ⟨-, hc⟩ := Machine.along_append.1 hc
  obtain ⟨-, hc⟩ := Machine.along_cons.1 hc
  obtain ⟨hcmid, hcy⟩ := Machine.along_append.1 hc
  obtain ⟨hok, ht, hj⟩ := justified_session (run_ok hpre) hx hw ha hmid hm hcmid hy
  obtain ⟨raw, he, hl, hn⟩ := endsEarly_inv hok hy hpolls hend
  obtain ⟨d, e⟩ := y
  obtain rfl : e = .frame raw := he
  rw [← ht] at hj hq
  exact (hj.frame (hw.imp (hy.trans <| congrArg some ·) (hy.trans <| congrArg some ·)) hl
    (Machine.along_cons.1 hcy).1).all hn hq

theorem answered_oneSlot {slot : Bytes} (hs : slot.length = 10) (hne : slot ≠ zeros 10) (q : Qtrm) :
    answered (oneSlot q slot) = {q} := by
  ext q'
  rw [mem_answered, rpSlot_oneSlot hs, Finset.mem_singleton]
  by_cases h : q' = q
  · simp [h, hne]
  · simp [h]

/-- An authentication of QTRM 5 alone. -/
def authenticateOne : List Event :=
  .setTarget (.one 5) :: openGate ++ [.start (.authenticate false)]

theorem authenticateOne_run : machine.Run (init sampleSettings)
    (machine.trace (init sampleSettings) authenticateOne)
    (machine.exec (init sampleSettings) authenticateOne) :=
  Machine.Allows.run ⟨trivial, trivial, trivial, trivial, trivial, trivial, trivial⟩

/-- The reply of a QTRM whose image is authentic. -/
def authenticReply : Bytes := sealed [0xAA, 0x00, 0x35, 0, 0, iapAuthenticate, 0, 0, 0]

/-- The one targeted QTRM reports, and the poll ends. -/
theorem early_end_sound_one_report : EarlyEndSound
    (machine.trace (init sampleSettings) authenticateOne ++
      [(machine.exec (init sampleSettings) authenticateOne, .frame (oneSlot 5 authenticReply))]) := by
  have hen : machine.enabled (machine.exec (init sampleSettings) authenticateOne)
      (.frame (oneSlot 5 authenticReply)) := trivial
  refine early_end_sound (authenticateOne_run.snoc hen) (Machine.along_append.2 ⟨?_, ?_⟩)
  · simp [authenticateOne, openGate, Machine.trace, CountsReports, totalPacketSize, headerSize,
      qtrmBlockSize, numQtrm, qtrmSlotSize, init]
  · rw [Machine.along_cons]
    refine ⟨fun _ _ => ?_, Machine.along_nil⟩
    have hans : answered (oneSlot 5 authenticReply) = {5} :=
      answered_oneSlot rfl (by decide) 5
    rw [hans]
    refine ⟨fun q hq _ _ => ?_, fun _ => ⟨5, Finset.mem_singleton_self 5, rfl⟩⟩
    obtain rfl := Finset.mem_singleton.1 hq
    rw [rpSlot_oneSlot rfl, if_pos rfl]
    exact ⟨_, rfl, rfl⟩

/-- One slot of any QTRM ends a poll that targets a single one. -/
theorem endsEarly_oneSlot {t : Qtrm} (q : Qtrm) {slot : Bytes} (hop : c.op = some op) (hp : Polls op)
    (ht : c.targetQtrm = .one t) (hs : slot.length = 10) (hne : slot ≠ zeros 10) :
    .sessionFinished (some op) true "All targeted QTRMs replied — poll ended early" ∈
      (c.handle (.frame (oneSlot q slot))).out := by
  obtain ⟨d, o, -, hd, he⟩ := onFrame_poll (c := c.cleared) hop hp rfl (oneSlot_length hs q)
  have hcount : c.cleared.targetCount = 1 := by simp [targetCount, cleared, ht]
  have hcard : 1 ≤ d.iapReplied.card := by
    rw [hd, answered_oneSlot hs hne]
    exact Finset.card_pos.2 ⟨q, Finset.mem_union_right _ (Finset.mem_singleton_self q)⟩
  rw [hcount, if_pos hcard] at he
  have hdop : d.op = some op := by rw [hd]; exact hop
  rw [show c.handle (.frame (oneSlot q slot)) = _ from he]
  simp [finish, emit, hdop]

/-- Bytes in the slot of QTRM 0 end the authentication of QTRM 5. -/
theorem early_end_without_report : ∃ tr c, machine.Run (init sampleSettings) tr c ∧
    Machine.events tr = .setTarget (.one 5) :: openGate ++
      [.start (.authenticate false), .frame (oneSlot 0 (1 :: zeros 9))] ∧
    ¬ EarlyEndSound tr := by
  obtain ⟨tr, c, hopen, hev, hacc, htarget⟩ : ∃ tr c, machine.Run (init sampleSettings) tr c ∧
      Machine.events tr = .setTarget (.one 5) :: openGate ∧
      c.Accepts (.authenticate false) ∧ c.targetQtrm = .one 5 :=
    ⟨_, machine.exec (init sampleSettings) (.setTarget (.one 5) :: openGate),
      Machine.Allows.run ⟨trivial, trivial, trivial, trivial, trivial, trivial⟩,
      Machine.events_trace, ⟨rfl, rfl⟩, rfl⟩
  have hen : machine.enabled c (.start (.authenticate false)) := trivial
  have hen' : machine.enabled (c.handle (.start (.authenticate false)))
      (.frame (oneSlot 0 (1 :: zeros 9))) := trivial
  refine ⟨_, _, (hopen.snoc hen).snoc hen', by simp [hev], fun h => ?_⟩
  have hst : Started (.authenticate false) c.cleared (c.handle (.start (.authenticate false))) :=
    startOp_accepted hacc
  have hne : (1 :: zeros 9 : Bytes) ≠ zeros 10 := by decide
  have hend := endsEarly_oneSlot 0 hst.op (.inl rfl) (hst.target.trans htarget) rfl hne
  obtain ⟨z, hz, raw, slot, he, -, hp, -⟩ := h _ (c, .start (.authenticate false)) []
    (c.handle (.start (.authenticate false)), .frame (oneSlot 0 (1 :: zeros 9))) []
    (.authenticate false) rfl rfl (.inl rfl) hacc (by simp) hst.op hend 5 (by rw [htarget]; rfl)
  obtain rfl := List.mem_singleton.1 hz
  obtain rfl := Event.frame.inj he
  rw [rpSlot_oneSlot rfl, if_neg (by decide)] at hp
  simp [parseSlot_zeros] at hp

end Controller

end QccGui
