import QccGui.Gui.Lock
import QccGui.Gui.Outcome

/-!
# Whose reply is shown

The window with the QCC behind it. The QCC echoes the message number of the frame that it answers;
its replies may be late, repeated or lost, and come in any order.

* `Wire`, `Wire.machine`: the window and every frame it has handed over; a reply to any of them may
  come at any time.
* `Attributed`: a result is shown only for a frame with the message number of the command that
  waits.
* `Timely`, `response_attribution`: that holds in every run in which no reply to another frame comes
  while a command waits.
* `late_reply_is_shown`: a run with a late reply.
-/

namespace QccGui

open Lib

/-! ## Results -/

def Output.result? : Output → Option Kind
  | .result kind _ _ => some kind
  | _ => none

/-- The kinds whose results are shown. -/
def results (out : List Output) : List Kind := out.filterMap Output.result?

namespace Window

variable {w : Window} {e : Event}

/-- A result is an outcome that a parser has read. -/
theorem results_eq (out : List Output) :
    results out = (outcomes out).filterMap fun o => o.parsed.map fun _ => o.kind := by
  rw [results, outcomes, List.filterMap_filterMap]
  congr 1
  funext o
  cases o <;> rfl

/-- Results come from frames alone. -/
theorem results_react : results (w.react e).out = results w.out ∨
    ∃ k raw elapsedUs repaint, e = .frame raw elapsedUs repaint ∧ w.awaiting = some (.command k) ∧
      headerSize ≤ raw.length ∧ results (w.react e).out = results w.out ++ [k] := by
  simp only [results_eq]
  rcases outcomes_react (w := w) (e := e) with ho | ⟨⟨k, parsed, target⟩, ho, ht⟩
  · exact .inl (by rw [ho])
  rw [ho, List.filterMap_append]
  cases parsed with
  | none => exact .inl (List.append_nil _)
  | some parsed =>
    rcases ht.cause with ⟨-, hp⟩ | ⟨raw, elapsedUs, repaint, he, hlen⟩
    · cases hp
    · exact .inr ⟨k, raw, elapsedUs, repaint, he, ht.waits, hlen rfl, rfl⟩

end Window

/-! ## The wire -/

/-- The frames by which the QCC answers a frame, in the sizes that the worker passes on. Only a
CHIP_ID_READ response has no header. -/
def Answers (frame raw : Bytes) : Prop :=
  raw.length = chipIdResponseSize ∨
    (raw.length = headerSize ∨ raw.length = totalPacketSize) ∧
      messageNumber raw = messageNumber frame

/-- The window, and all frames that it has handed to its worker. -/
structure Wire where
  window : Window
  sent : List (Sender × Bytes) := []

namespace Wire

inductive Event
  | window (e : Window.Event)
  /-- A reply to the `n`-th frame arrives. -/
  | reply (n : Nat) (raw : Bytes) (elapsedUs : Option Nat) (repaint : Bool)

/-- What the window is given to handle. -/
def Event.toWindow : Event → Window.Event
  | .window e => e
  | .reply _ raw elapsedUs repaint => .frame raw elapsedUs repaint

/-- Frames reach the window as replies only, to any frame handed over so far. -/
def machine : Machine Wire Event where
  enabled s e := match e with
    | .window e => Window.machine.enabled s.window e ∧
        ∀ raw elapsedUs repaint, e ≠ .frame raw elapsedUs repaint
    | .reply n raw _ _ => ∃ x, s.sent[n]? = some x ∧ Answers x.2 raw
  step s e :=
    let w := s.window.handle e.toWindow
    ⟨w, s.sent ++ handed w.out⟩

def init (rc : RcSettings) : Wire := ⟨Window.init rc, []⟩

variable {s s' : Wire} {e : Event} {rc : RcSettings}

/-- The `n`-th frame is the last one of a command, of kind `k`. -/
def IsLastCommand (sent : List (Sender × Bytes)) (n : Nat) (k : Kind) (frame : Bytes) : Prop :=
  (∃ auto, sent[n]? = some (.command k auto, frame)) ∧
    ∀ m, n < m → ∀ k auto frame, sent[m]? ≠ some (.command k auto, frame)

/-- A result is shown only for a frame with the message number of the last command, which is of the
kind of the result. -/
def Attributed (x : Wire × Event) : Prop :=
  ∀ k parsed target, .result k parsed target ∈ (machine.post x).window.out →
    ∃ n raw elapsedUs repaint, x.2 = .reply n raw elapsedUs repaint ∧
      ∃ m frame, IsLastCommand x.1.sent m k frame ∧ messageNumber raw = messageNumber frame

/-- A reply that arrives while a command waits answers the frame of that command. -/
def Timely (s : Wire) (e : Event) : Prop :=
  match e with
  | .window _ => True
  | .reply n _ _ _ => (∃ k, s.window.awaiting = some (.command k)) →
      ∃ k frame, IsLastCommand s.sent n k frame

/-! ## Attribution -/

section

variable {sent frames : List (Sender × Bytes)} {n m : Nat} {k k' : Kind} {frame frame' : Bytes}

theorem isLastCommand_snoc (auto : Bool) :
    IsLastCommand (sent ++ [(.command k auto, frame)]) sent.length k frame :=
  ⟨⟨auto, by simp⟩, fun m hm => by simp [List.getElem?_append_right (Nat.le_of_lt hm),
    Nat.sub_ne_zero_of_lt hm]⟩

/-- Frames of other senders leave the last command as it is. -/
theorem IsLastCommand.append (h : IsLastCommand sent n k frame)
    (hf : ∀ x ∈ frames, ∀ k auto, x.1 ≠ .command k auto) :
    IsLastCommand (sent ++ frames) n k frame := by
  obtain ⟨⟨auto, hn⟩, hlast⟩ := h
  have hlt : n < sent.length := (List.getElem?_eq_some_iff.1 hn).1
  refine ⟨⟨auto, by rw [List.getElem?_append_left hlt, hn]⟩, fun m hm j a f hj => ?_⟩
  rcases Nat.lt_or_ge m sent.length with hms | hms
  · rw [List.getElem?_append_left hms] at hj
    exact hlast m hm j a f hj
  · rw [List.getElem?_append_right hms] at hj
    exact hf _ (List.mem_of_getElem? hj) j a rfl

theorem IsLastCommand.unique (h : IsLastCommand sent n k frame)
    (h' : IsLastCommand sent m k' frame') : n = m ∧ k = k' ∧ frame = frame' := by
  obtain ⟨⟨auto, hn⟩, hlast⟩ := h
  obtain ⟨⟨auto', hm⟩, hlast'⟩ := h'
  obtain rfl : n = m := by
    rcases Nat.lt_trichotomy n m with hlt | heq | hlt
    · exact absurd hm (hlast m hlt _ _ _)
    · exact heq
    · exact absurd hn (hlast' n hlt _ _ _)
  have := hn.symm.trans hm
  simp only [Option.some.injEq, Prod.mk.injEq, Sender.command.injEq] at this
  exact ⟨rfl, this.1.1, this.2⟩

end

/-- The command that waits is the last one handed over. -/
structure Ok (s : Wire) : Prop where
  window : s.window.Ok
  last : ∀ k, s.window.awaiting = some (.command k) → ∃ n frame, IsLastCommand s.sent n k frame

theorem enabled_toWindow (he : machine.enabled s e) : Window.machine.enabled s.window e.toWindow := by
  cases e with
  | window e => exact he.1
  | reply => trivial

theorem enabled_reply {n : Nat} {x : Sender × Bytes} {raw : Bytes} {elapsedUs : Option Nat}
    {repaint : Bool} (hx : s.sent[n]? = some x) (ha : Answers x.2 raw) :
    machine.enabled s (.reply n raw elapsedUs repaint) := ⟨x, hx, ha⟩

theorem ok_step (h : s.Ok) (he : machine.enabled s e) : (machine.step s e).Ok := by
  have hen := enabled_toWindow he
  refine ⟨Window.ok_handle h.window hen, ?_⟩
  have hkept : ∀ {frames}, Window.Kept s.window.cleared (s.window.handle e.toWindow) →
      handed (s.window.handle e.toWindow).out = [] ++ frames →
      (∀ x ∈ frames, ∀ k auto, x.1 ≠ .command k auto) →
      ∀ k, (s.window.handle e.toWindow).awaiting = some (.command k) →
        ∃ n frame, IsLastCommand (machine.step s e).sent n k frame := by
    intro frames hk hh hf k ha
    obtain ⟨n, frame, hl⟩ := h.last k (hk.awaiting.symm.trans ha)
    refine ⟨n, frame, ?_⟩
    have hs : (machine.step s e).sent = s.sent ++ frames := congrArg (s.sent ++ ·) hh
    rw [hs]
    exact hl.append hf
  cases Window.handle_effect h.window hen with
  | kept hk hh hf _ _ =>
    exact hkept hk hh fun x hx k auto hc => nomatch (hf x hx).symm.trans hc
  | reset _ _ hk hh => exact hkept hk hh (by simp)
  | unwaited _ ha _ _ _ _ =>
    intro k hk
    rcases ha with ha | ha <;> exact nomatch ha.symm.trans hk
  | @began r frame _ _ ha _ _ _ hh _ _ =>
    intro k hk
    obtain rfl : r.kind = k := by simpa using ha.symm.trans hk
    refine ⟨s.sent.length, frame, ?_⟩
    have hs : (machine.step s e).sent = s.sent ++ [(.command r.kind r.isAutoResend, frame)] :=
      congrArg (s.sent ++ ·) hh
    rw [hs]
    exact isLastCommand_snoc _
  | started _ _ _ ha _ _ =>
    intro k hk
    exact nomatch ha.symm.trans hk
  | ended hd =>
    intro k hk
    exact nomatch hd.released.symm.trans hk

/-- A timely reply is shown as the result of the command that it answers. -/
theorem attributed_step (h : s.Ok) (he : machine.enabled s e) (ht : Timely s e) :
    Attributed (s, e) := by
  intro k parsed target hm
  have hk : k ∈ results (s.window.handle e.toWindow).out :=
    List.mem_filterMap.2 ⟨_, hm, rfl⟩
  rcases Window.results_react (w := s.window.cleared) (e := e.toWindow) with hr |
    ⟨j, raw, elapsedUs, repaint, hev, ha, hlen, hr⟩
  · rw [Window.handle, hr] at hk
    simp [Window.cleared, results] at hk
  · rw [Window.handle, hr] at hk
    obtain rfl : k = j := by simpa [Window.cleared, results] using hk
    cases e with
    | window e => exact absurd hev (he.2 raw elapsedUs repaint)
    | reply n raw elapsedUs repaint =>
      cases hev
      obtain ⟨x, hx, hans⟩ := he
      obtain ⟨k', frame, hl⟩ := ht ⟨k, ha⟩
      obtain ⟨m, frame', hl'⟩ := h.last k ha
      obtain ⟨rfl, rfl, rfl⟩ := hl.unique hl'
      obtain ⟨⟨auto, hn⟩, -⟩ := hl
      obtain rfl := Option.some.inj (hx.symm.trans hn)
      rcases hans with hans | ⟨-, hans⟩
      · rw [hans] at hlen
        exact absurd hlen (by decide)
      · exact ⟨n, raw, elapsedUs, repaint, rfl, n, frame, hl', hans⟩

/-! ## Sample replies -/

/-- A whole response frame with the message number `n`. -/
def sampleReply (n : Nat) : Bytes := zeros 6 ++ le32 n ++ zeros 2960

theorem sampleReply_length (n : Nat) : (sampleReply n).length = totalPacketSize := by
  simp [sampleReply, totalPacketSize, headerSize, qtrmBlockSize, qtrmSlotSize, numQtrm]

theorem messageNumber_sampleReply (n : Nat) : messageNumber (sampleReply n) = n % 2 ^ 32 := by
  rw [sampleReply, show zeros 6 = [0, 0, 0, 0, 0, 0] from rfl]
  simp only [messageNumber, u32At, u16At, le32, le16, List.cons_append, List.nil_append,
    List.getD_cons_succ, List.getD_cons_zero, word16_eq, byte_toNat]
  omega

theorem answers_sampleReply {frame : Bytes} {n : Nat} (h : messageNumber frame = n % 2 ^ 32) :
    Answers frame (sampleReply n) :=
  .inr ⟨.inr (sampleReply_length n), (messageNumber_sampleReply n).trans h.symm⟩

/-- The frame of a link test. -/
def linkTestFrame (rc : RcSettings) : Bytes :=
  (Window.commandFrame commandIdDataDistribution [] buildLinkTestFrame rc).1

theorem messageNumber_linkTestFrame (rc : RcSettings) :
    messageNumber (linkTestFrame rc) = (rc.messageNumber + 1) % 2 ^ 32 :=
  (Window.headed_commandFrame fun _ => ⟨_, rfl⟩).number rc

/-- What a whole response frame shows while a link test waits. -/
theorem link_result {w : Window} {raw : Bytes} (hl : w.logging = false)
    (ha : w.awaiting = some (.command .linkTest)) (hraw : raw.length = totalPacketSize) :
    .result .linkTest (.link fun i => isLinkResponseOk (responseSlot raw i)) none ∈
      (w.onFrameReceived raw none true).out := by
  have hparse : ∀ d : Window, d.runParser raw .link =
      .ok (.link fun i => isLinkResponseOk (responseSlot raw i)) := by
    intro d
    simp [Window.runParser, parseLinkTestResponse, requireSize, hraw, bind, Except.bind, pure,
      Except.pure]
  have hshow : Window.updateFrameDisplay raw true = true := by
    rw [Window.updateFrameDisplay, hraw]
    decide
  rw [Window.onFrameReceived, if_neg (by simp [hl]), if_neg (by simp [ha])]
  dsimp only
  rw [ha]
  dsimp only [Window.onReply, Window.takeTarget, Window.showResponseTime, Window.showResult, commands]
  rw [if_neg (by simp [hshow]), hparse]
  simp [Window.emit]

theorem link_result_reply {n : Nat} {raw : Bytes} (hl : s.window.logging = false)
    (ha : s.window.awaiting = some (.command .linkTest)) (hraw : raw.length = totalPacketSize) :
    .result .linkTest (.link fun i => isLinkResponseOk (responseSlot raw i)) none ∈
      (machine.post (s, .reply n raw none true)).window.out :=
  link_result (w := s.window.cleared) hl ha hraw

/-! ## Runs -/

/-- In every run without a late reply every result that is shown belongs to its command. -/
theorem response_attribution {tr : List (Wire × Event)} (hr : machine.Run (init rc) tr s)
    (ht : Machine.Along Timely tr) : ∀ x ∈ tr, Attributed x := by
  intro x hx
  obtain ⟨pre, seg, rfl⟩ := List.append_of_mem hx
  obtain ⟨hr₁, he, -⟩ := hr.middle
  simp only [Machine.along_append, Machine.along_cons] at ht
  have hinit : (init rc).Ok := ⟨Window.ok_init rc, fun _ h => by cases h⟩
  have h : x.1.Ok := hr₁.invariant' hinit fun _ _ h he => ok_step h he
  exact attributed_step h he ht.2.1

/-- A link test and its reply. -/
theorem response_attribution_prompt_reply : ∃ tr s,
    machine.Run (init Controller.sampleSettings) tr s ∧
    Machine.events tr = [.window .connectClicked, .window (.request (.linkTest false)),
      .reply 0 (sampleReply 1) none true] ∧ ∀ x ∈ tr, Attributed x := by
  let s := machine.exec (init Controller.sampleSettings)
    [.window .connectClicked, .window (.request (.linkTest false))]
  have hsent : s.sent =
      [] ++ [(.command .linkTest false, linkTestFrame Controller.sampleSettings)] := rfl
  have he : machine.enabled s (.reply 0 (sampleReply 1) none true) :=
    enabled_reply (congrArg (·[0]?) hsent)
      (answers_sampleReply (messageNumber_linkTestFrame Controller.sampleSettings))
  have ht : Timely s (.reply 0 (sampleReply 1) none true) :=
    fun _ => ⟨_, _, hsent ▸ isLastCommand_snoc _⟩
  have hreq : ∀ r raw elapsedUs repaint,
      Window.Event.request r ≠ .frame raw elapsedUs repaint := fun _ _ _ _ h => nomatch h
  have hr : machine.Run (init Controller.sampleSettings)
      (machine.trace (init Controller.sampleSettings) [.window .connectClicked,
        .window (.request (.linkTest false)), .reply 0 (sampleReply 1) none true])
      (machine.step s (.reply 0 (sampleReply 1) none true)) :=
    Machine.Allows.run ⟨⟨Bool.false_ne_true, fun _ _ _ h => nomatch h⟩,
      ⟨.inr Bool.false_ne_true, hreq _⟩, he, trivial⟩
  refine ⟨_, _, hr, rfl, response_attribution hr ?_⟩
  simp only [Machine.trace, Machine.along_cons, Machine.along_nil]
  exact ⟨trivial, trivial, ht, trivial⟩

/-! ## A late reply -/

/-- A link test times out and a second one is sent before the first one's reply arrives. -/
def lateReply : List Event :=
  [.window .connectClicked, .window (.request (.linkTest false)), .window .responseTimeout,
    .window (.request (.linkTest false))]

/-- The state in which the reply to the first link test arrives. -/
def lateReplyState : Wire := machine.exec (init Controller.sampleSettings) lateReply

theorem lateReplyState_sent : lateReplyState.sent =
    [(.command .linkTest false, linkTestFrame Controller.sampleSettings)] ++
      [(.command .linkTest false,
        linkTestFrame { Controller.sampleSettings with messageNumber := 1 })] := rfl

theorem lateReply_run : machine.Run (init Controller.sampleSettings)
    (machine.trace (init Controller.sampleSettings) lateReply) lateReplyState :=
  have hreq : ∀ r raw elapsedUs repaint,
      Window.Event.request r ≠ .frame raw elapsedUs repaint := fun _ _ _ _ h => nomatch h
  Machine.Allows.run ⟨⟨Bool.false_ne_true, fun _ _ _ h => nomatch h⟩,
    ⟨.inr Bool.false_ne_true, hreq _⟩, ⟨rfl, fun _ _ _ h => nomatch h⟩,
    ⟨.inr Bool.false_ne_true, hreq _⟩, trivial⟩

/-- The late reply is shown as the result of the second link test. -/
theorem late_reply_is_shown : ∃ tr s, machine.Run (init Controller.sampleSettings) tr s ∧
    Machine.events tr = [.window .connectClicked, .window (.request (.linkTest false)),
      .window .responseTimeout, .window (.request (.linkTest false)),
      .reply 0 (sampleReply 1) none true] ∧
    ∃ x ∈ tr, ¬ Attributed x := by
  have hfirst := congrArg (·[0]?) lateReplyState_sent
  have he : machine.enabled lateReplyState (.reply 0 (sampleReply 1) none true) :=
    enabled_reply hfirst (answers_sampleReply (messageNumber_linkTestFrame Controller.sampleSettings))
  refine ⟨_, _, lateReply_run.snoc he, by simp [Machine.events_trace, lateReply], _,
    List.mem_append_right _ (.head _), fun h => ?_⟩
  have hlog : lateReplyState.window.logging = false := rfl
  have hwait : lateReplyState.window.awaiting = some (.command .linkTest) := rfl
  obtain ⟨n, raw, _, _, hev, m, frame, hl, hn⟩ :=
    h .linkTest _ _ (link_result_reply hlog hwait (sampleReply_length 1))
  cases hev
  have hlast := lateReplyState_sent ▸ isLastCommand_snoc _
  obtain ⟨-, -, rfl⟩ := hl.unique hlast
  rw [messageNumber_sampleReply, messageNumber_linkTestFrame] at hn
  exact absurd hn (by decide)

end Wire

end QccGui
