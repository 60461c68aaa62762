import QccGui.Gui.UdpWorker

/-!
# The accounts of the UDP worker

What comes of the frames received and of the frames to be sent, over every interleaving of the two
threads.

* `Reception`: a frame, the clock at its reception, and the time of sending that it is held against.
* `Received`: the frames passed on are those received, each timed from a sending of its own.
* `Sent`: every call of `send_frame` ends once, with its frame on the wire and reported, or neither.
-/

namespace QccGui

open Lib

namespace UdpWorker

variable {w w' : UdpWorker} {e : Event} {tr : List Step} {localPort sourcePort : Nat}

/-! ## The frames received -/

/-- A frame of a size that passes, the clock at its reception, and the time of sending that the
thread finds. -/
structure Reception where
  data : Bytes
  recvTime : ℚ
  stamp : Option ℚ
  deriving DecidableEq

/-- What the window is told of it. -/
def Reception.signal (r : Reception) : Bytes × ℚ :=
  (r.data, match r.stamp with
    | some t => (r.recvTime - t) * 1000000
    | none => -1)

/-- `run` looks at `_last_send_time` twice, unless it finds nothing at first. -/
def reception? : Step → Option Reception
  | (w, .tested) => if w.lastSendTime.isSome then none else some ⟨w.data, w.recvTime, none⟩
  | (w, .subtracted) => w.lastSendTime.map fun t => ⟨w.data, w.recvTime, some t⟩
  | _ => none

def receptions (tr : List Step) : List Reception := tr.filterMap reception?

/-- A frame of a size that passes. -/
def passing (data : Bytes) : Option Bytes := if data.length ∈ validRxSizes then some data else none

def Event.accepted? : Event → Option Bytes
  | .received data _ => passing data
  | _ => none

/-- The frames of a size that passes which the socket delivered. -/
def accepted (tr : List Step) : List Bytes := tr.filterMap fun x => x.2.accepted?

/-- The time of sending that `send_frame` writes. -/
def stamp? : Step → Option ℚ
  | (w, .stored) => some w.sendTime
  | _ => none

def stamps (tr : List Step) : List ℚ := tr.filterMap stamp?

/-- The frame that is in hand without its elapsed time. It stays there if the thread dies. -/
def untimed (w : UdpWorker) : Option Bytes := match w.run with
  | .stamping => passing w.data
  | .testing | .subtracting | .raised => some w.data
  | _ => none

/-- The frame that is in hand with its elapsed time. -/
def timed (w : UdpWorker) : Option (Bytes × ℚ) := match w.run with
  | .consuming | .emitting => some (w.data, w.elapsedUs)
  | _ => none

/-- The time of sending that the next frame may find. -/
def usable (w : UdpWorker) : Option ℚ := if w.run = .consuming then none else w.lastSendTime

/-- The accounts of a run, frame by frame. -/
structure Received (tr : List Step) (w : UdpWorker) : Prop where
  frames : accepted tr = (receptions tr).map (·.data) ++ w.untimed.toList
  signals : (receptions tr).map Reception.signal = forwarded w.out ++ w.timed.toList
  stamps : ((receptions tr).filterMap (·.stamp) ++ w.usable.toList).Sublist (stamps tr)

/-- What an event adds to the accounts. -/
structure Accounted (w : UdpWorker) (e : Event) (w' : UdpWorker) : Prop where
  frames : w.untimed.toList ++ e.accepted?.toList =
    ((reception? (w, e)).map (·.data)).toList ++ w'.untimed.toList
  signals : forwarded w.out ++ w.timed.toList ++ ((reception? (w, e)).map Reception.signal).toList =
    forwarded w'.out ++ w'.timed.toList
  stamps : (((reception? (w, e)).bind (·.stamp)).toList ++ w'.usable.toList).Sublist
    (w.usable.toList ++ (stamp? (w, e)).toList)

/-- The GUI thread receives nothing. -/
theorem quiet_of_gui (h : e.ofRun = false) : e.accepted? = none ∧ reception? (w, e) = none := by
  cases e <;> first | exact ⟨rfl, rfl⟩ | cases h

/-- The GUI thread can only replace the time of sending, or take it away. -/
theorem usable_of_gui (h : e.ofRun = false) :
    (step w e).usable.toList.Sublist (w.usable.toList ++ (stamp? (w, e)).toList) := by
  have hsame : ∀ w' : UdpWorker, w'.run = w.run → w'.lastSendTime = w.lastSendTime →
      w'.usable.toList.Sublist (w.usable.toList ++ (stamp? (w, e)).toList) := by
    intro w' hr hl
    rw [usable, usable, hr, hl]
    exact List.sublist_append_left ..
  cases e with
  | stored =>
    by_cases hr : w.run = .consuming <;> simp [step, usable, stamp?, hr]
  | dropped e =>
    have hu : (step w (.dropped e)).usable = none := by
      unfold usable
      split <;> rfl
    rw [hu]
    exact List.nil_sublist _
  | sendFrame frame =>
    have hl : (step w (.sendFrame frame)).lastSendTime = w.lastSendTime := by
      simp only [step, onSendFrame]
      split <;> rfl
    exact hsame _ (sameRun_step h).run hl
  | checked =>
    have hl : (step w .checked).lastSendTime = w.lastSendTime := by
      simp only [step]
      split <;> rfl
    exact hsame _ (sameRun_step h).run hl
  | sentTo failure =>
    have hl : (step w (.sentTo failure)).lastSendTime = w.lastSendTime := by
      simp only [step, onSentTo]
      split <;> rfl
    exact hsame _ (sameRun_step h).run hl
  | timed | reported | stop => exact hsame _ rfl rfl
  | _ => cases h

/-- No frame is in hand. -/
theorem accounted_idle (h : w.run.holds = false) (h' : w'.run.holds = false)
    (hf : forwarded w'.out = forwarded w.out) (hl : w'.lastSendTime = w.lastSendTime)
    (ha : e.accepted? = none) (hq : reception? (w, e) = none) : Accounted w e w' := by
  have hnone : ∀ d : UdpWorker, d.run.holds = false →
      d.untimed = none ∧ d.timed = none ∧ d.usable = d.lastSendTime := by
    intro d hd
    unfold untimed timed usable
    cases hr : d.run <;> simp_all [RunPc.holds]
  obtain ⟨hu, ht, hs⟩ := hnone w h
  obtain ⟨hu', ht', hs'⟩ := hnone w' h'
  exact ⟨by simp [hu, hu', ha, hq], by simp [ht, ht', hf, hq], by simp [hs, hs', hl, hq]⟩

/-- A frame comes into hand, gets its elapsed time, and is passed on. -/
theorem accounted_step (he : enabled w e) : Accounted w e (step w e) := by
  cases hr : e.ofRun with
  | false =>
    have hs := sameRun_step (w := w) hr
    obtain ⟨ha, hq⟩ := quiet_of_gui (w := w) hr
    refine ⟨?_, ?_, by simpa [hq] using usable_of_gui hr⟩
    · simp [untimed, hs.run, hs.data, ha, hq]
    · simp [timed, hs.run, hs.data, hs.elapsedUs, hs.forwarded, hq]
  | true => cases e with
    | opened failure =>
      replace he : w.run = _ := he
      cases failure with
      | none =>
        refine accounted_idle (by rw [he]; rfl) ?_ rfl rfl rfl rfl
        simp only [step]
        split <;> rfl
      | some e =>
        exact accounted_idle (by rw [he]; rfl) rfl ((forwarded_emit _).trans (List.append_nil _)) rfl
          rfl rfl
    | boundSend failure =>
      replace he : w.run = _ := he
      cases failure with
      | none => exact accounted_idle (by rw [he]; rfl) rfl rfl rfl rfl rfl
      | some e =>
        exact accounted_idle (by rw [he]; rfl) rfl ((forwarded_emit _).trans (List.append_nil _)) rfl
          rfl rfl
    | started | cleared =>
      have he : w.run = _ := he
      exact accounted_idle (by rw [he]; rfl) rfl ((forwarded_emit _).trans (List.append_nil _)) rfl
        rfl rfl
    | timedOut | closed =>
      have he : w.run = _ := he
      exact accounted_idle (by rw [he]; rfl) rfl rfl rfl rfl rfl
    | looped =>
      have he : w.run = _ := he
      refine accounted_idle (by rw [he]; rfl) ?_ rfl rfl rfl rfl
      simp only [step]
      split <;> rfl
    | failed e =>
      have he : w.run = _ := he
      simp only [step]
      split
      · exact accounted_idle (by rw [he]; rfl) rfl ((forwarded_emit _).trans (List.append_nil _)) rfl
          rfl rfl
      · exact accounted_idle (by rw [he]; rfl) rfl rfl rfl rfl rfl
    | received data addr =>
      have he : w.run = _ := he
      constructor <;>
        simp [step, untimed, timed, usable, he, Event.accepted?, reception?, stamp?]
    | stamped t =>
      have he : w.run = _ := he.1
      by_cases hm : w.data.length ∈ validRxSizes <;> constructor <;>
        simp [step, onStamped, untimed, timed, usable, he, Event.accepted?, reception?, stamp?,
          passing, hm, UdpSignal.received?]
    | tested =>
      have he : w.run = _ := he
      cases hl : w.lastSendTime <;> constructor <;>
        simp [step, hl, untimed, timed, usable, he, Event.accepted?, reception?, stamp?,
          Reception.signal]
    | subtracted =>
      have he : w.run = _ := he
      cases hl : w.lastSendTime <;> constructor <;>
        simp [step, onSubtracted, hl, untimed, timed, usable, he, Event.accepted?, reception?, stamp?,
          Reception.signal, UdpSignal.received?]
    | consumed | emitted =>
      have he : w.run = _ := he
      constructor <;> simp [step, untimed, timed, usable, he, Event.accepted?, reception?, stamp?,
        UdpSignal.received?]
    | _ => cases hr

theorem Received.snoc (h : Received tr w) (ha : Accounted w e w') : Received (tr ++ [(w, e)]) w' := by
  have hsnoc : receptions (tr ++ [(w, e)]) = receptions tr ++ (reception? (w, e)).toList :=
    filterMap_snoc ..
  refine ⟨?_, ?_, ?_⟩
  · rw [accepted, filterMap_snoc, ← accepted, h.frames, hsnoc, List.map_append, List.append_assoc,
      List.append_assoc]
    exact congrArg _ (ha.frames.trans (by cases reception? (w, e) <;> rfl))
  · rw [hsnoc, List.map_append, h.signals, ← ha.signals]
    exact congrArg _ (by cases reception? (w, e) <;> rfl)
  · rw [hsnoc, List.filterMap_append, List.append_assoc, UdpWorker.stamps, filterMap_snoc,
      ← UdpWorker.stamps]
    have hr : (reception? (w, e)).toList.filterMap (·.stamp) =
        ((reception? (w, e)).bind (·.stamp)).toList := by
      cases reception? (w, e) with
      | none => rfl
      | some r => cases hst : r.stamp <;> simp [hst]
    rw [hr]
    refine ((List.Sublist.refl _).append ha.stamps).trans ?_
    rw [← List.append_assoc]
    exact h.stamps.append (.refl _)

/-! ## The frames to be sent -/

def called? : Event → Option Bytes
  | .sendFrame frame => some frame
  | _ => none

/-- The frames that `send_frame` was called with. -/
def calls (tr : List Step) : List Bytes := tr.filterMap fun x => called? x.2

/-- The frame of a call that ends with the step, and whether it was sent. -/
def outcome? : Step → Option (Bytes × Bool)
  | (_, .sendFrame frame) => if frame.length ∈ validTxSizes then none else some (frame, false)
  | (w, .checked) | (w, .sentTo _) => if w.sendSock.isNone then some (w.frame, false) else none
  | (w, .reported) => some (w.frame, true)
  | (w, .dropped _) => some (w.frame, false)
  | _ => none

def outcomes (tr : List Step) : List (Bytes × Bool) := tr.filterMap outcome?

/-- The frames of the calls that ended well. -/
def sentFrames (l : List (Bytes × Bool)) : List Bytes := (l.filter (·.2)).map (·.1)

/-- The frame of the call that has not ended. -/
def pending (w : UdpWorker) : Option Bytes := if w.send = .idle then none else some w.frame

/-- A frame that the socket has taken and that is not yet reported. -/
def unreported (w : UdpWorker) : Option Bytes :=
  if w.send = .reporting then some w.frame else none

/-- The accounts of a run, call by call. -/
structure Sent (tr : List Step) (w : UdpWorker) : Prop where
  calls : calls tr = (outcomes tr).map (·.1) ++ w.pending.toList
  wire : w.wire = sentFrames (outcomes tr) ++ w.unreported.toList
  reported : reportedSent w.out = sentFrames (outcomes tr)
  sizes : ∀ frame ∈ w.pending.toList ++ w.wire, frame.length ∈ validTxSizes

/-- What an event adds to them. -/
structure Dispatched (w : UdpWorker) (e : Event) (w' : UdpWorker) : Prop where
  calls : w.pending.toList ++ (called? e).toList =
    ((outcome? (w, e)).map (·.1)).toList ++ w'.pending.toList
  wire : ∀ done, w.wire = done ++ w.unreported.toList →
    w'.wire = done ++ sentFrames (outcome? (w, e)).toList ++ w'.unreported.toList
  reported : reportedSent w'.out = reportedSent w.out ++ sentFrames (outcome? (w, e)).toList
  sizes : (∀ frame ∈ w.pending.toList ++ w.wire, frame.length ∈ validTxSizes) →
    ∀ frame ∈ w'.pending.toList ++ w'.wire, frame.length ∈ validTxSizes

/-- The receiving thread sends nothing. -/
theorem dispatched_of_run (h : e.ofRun = true) : Dispatched w e (step w e) := by
  have hs := sameSend_step (w := w) h
  obtain ⟨hc, ho⟩ : called? e = none ∧ outcome? (w, e) = none := by
    cases e <;> first | exact ⟨rfl, rfl⟩ | cases h
  have hp : (step w e).pending = w.pending := by rw [pending, pending, hs.send, hs.frame]
  have hu : (step w e).unreported = w.unreported := by
    rw [unreported, unreported, hs.send, hs.frame]
  refine ⟨by rw [hc, ho, hp]; simp, fun done hw => ?_, ?_, ?_⟩
  · rw [hs.wire, hw, ho, hu]
    simp [sentFrames]
  · rw [hs.reported, ho]
    exact (List.append_nil _).symm
  · rw [hp, hs.wire]
    exact id

theorem dispatched_step (he : enabled w e) : Dispatched w e (step w e) := by
  cases e with
  | sendFrame frame =>
    have he : w.send = _ := he
    by_cases hf : frame.length ∈ validTxSizes <;> constructor <;>
      simp +contextual [step, onSendFrame, hf, he, pending, unreported, called?, outcome?, sentFrames,
        UdpSignal.sent?]
  | checked =>
    have he : w.send = _ := he
    cases hk : w.sendSock <;> constructor <;>
      simp +contextual [step, hk, he, pending, unreported, called?, outcome?, sentFrames,
        UdpSignal.sent?]
  | timed t =>
    have he : w.send = _ := he.1
    constructor <;> simp [step, he, pending, unreported, called?, outcome?, sentFrames]
  | stored =>
    have he : w.send = _ := he
    constructor <;> simp [step, he, pending, unreported, called?, outcome?, sentFrames]
  | sentTo failure =>
    replace he : w.send = _ := he.1
    cases hk : w.sendSock with
    | none =>
      constructor <;> simp +contextual [step, onSentTo, hk, he, pending, unreported, called?, outcome?,
        sentFrames, UdpSignal.sent?]
    | some k => cases failure with
      | some e =>
        constructor <;>
          simp [step, onSentTo, hk, he, pending, unreported, called?, outcome?, sentFrames]
      | none =>
        have hp : (step w (.sentTo none)).pending = w.pending := by
          simp [step, onSentTo, hk, he, pending]
        have hw : (step w (.sentTo none)).wire = w.wire ++ w.pending.toList := by
          simp [step, onSentTo, hk, he, pending]
        refine ⟨?_, ?_, ?_, ?_⟩
        · simp [hp, hk, called?, outcome?]
        · simp [step, onSentTo, hk, he, unreported, outcome?, sentFrames]
        · simp [step, onSentTo, hk, outcome?, sentFrames]
        · rw [hp, hw]
          grind
  | reported | dropped e =>
    have he : w.send = _ := he
    constructor <;>
      simp +contextual [step, he, pending, unreported, called?, outcome?, sentFrames, UdpSignal.sent?]
  | stop =>
    have he : w.send = _ := he
    constructor <;> simp [step, he, pending, unreported, called?, outcome?, sentFrames]
  | _ => exact dispatched_of_run rfl

theorem Sent.snoc (h : Sent tr w) (hd : Dispatched w e w') : Sent (tr ++ [(w, e)]) w' := by
  have hsnoc : outcomes (tr ++ [(w, e)]) = outcomes tr ++ (outcome? (w, e)).toList :=
    filterMap_snoc ..
  have hsent : ∀ a b : List (Bytes × Bool), sentFrames (a ++ b) = sentFrames a ++ sentFrames b := by
    intro a b
    simp [sentFrames]
  refine ⟨?_, ?_, ?_, hd.sizes h.sizes⟩
  · rw [UdpWorker.calls, filterMap_snoc, ← UdpWorker.calls, h.calls, hsnoc, List.map_append,
      List.append_assoc, List.append_assoc]
    exact congrArg _ (hd.calls.trans (by cases outcome? (w, e) <;> rfl))
  · rw [hsnoc, hsent]
    exact hd.wire _ h.wire
  · rw [hsnoc, hsent, hd.reported, h.reported]

/-- In every interleaving the frames passed on are those received in a size that passes, in order,
and each is timed from a sending of its own, if from any. Every call of `send_frame` ends once, with
its frame on the wire and reported, or neither. -/
theorem accounts (hr : machine.Run (init localPort sourcePort) tr w) : Received tr w ∧ Sent tr w := by
  refine hr.history (C := fun _ _ => True) (P := fun tr w => Received tr w ∧ Sent tr w)
    ⟨⟨rfl, rfl, .refl _⟩, rfl, rfl, rfl, by simp [pending, init]⟩ ?_ fun _ _ => trivial
  intro tr w e _ ⟨hrecv, hsent⟩ he _
  exact ⟨hrecv.snoc (accounted_step he), hsent.snoc (dispatched_step he)⟩

/-- A frame is sent, and its answer received, up to the second look at the time of sending. -/
def answered : List Event :=
  [.opened none, .started, .looped, .sendFrame (List.replicate 90 0), .checked, .timed 1, .stored,
    .sentTo none, .received (List.replicate 90 1) "", .reported, .stamped 2, .tested]

theorem answered_allowed : machine.Allows (init 50000 50000) answered :=
  ⟨rfl, rfl, rfl, rfl, rfl, ⟨rfl, by decide⟩, rfl, ⟨rfl, nofun⟩, rfl, rfl, ⟨rfl, by decide⟩, rfl,
    trivial⟩

theorem accounts_answered :
    Received (machine.trace (init 50000 50000) answered) (machine.exec (init 50000 50000) answered) ∧
      Sent (machine.trace (init 50000 50000) answered) (machine.exec (init 50000 50000) answered) :=
  accounts answered_allowed.run

end UdpWorker

end QccGui
