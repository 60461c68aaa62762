import QccGui.Gui.UdpAccounts
import QccGui.Lib.Segment
import Mathlib.Tactic.Positivity

/-!
# The races of the UDP worker

What the two threads do to each other where they share a variable without a lock.

* `thread_dies_iff`: the receiving thread dies of an exception exactly if a failed send takes the
  time of sending away between the two looks at it.
* `elapsed_nonneg`: an elapsed time is not negative unless a send comes in between.
* `stop_takes_effect`: a `stop` is obeyed exactly if it comes after the thread has set `_running`.
-/

namespace QccGui

open Lib

namespace UdpWorker

variable {w w' : UdpWorker} {e : Event} {tr : List Step} {localPort sourcePort : Nat}

/-! ## The time of sending -/

def Event.isStored : Event → Bool
  | .stored => true
  | _ => false

def Event.isDropped : Event → Bool
  | .dropped _ => true
  | _ => false

/-- A failed send has taken the time of sending away, and none has been written since. -/
def Cleared (seg : List Step) : Prop :=
  ∃ a x b, seg = a ++ x :: b ∧ x.2.isDropped = true ∧ ∀ y ∈ b, y.2.isStored = false

theorem cleared_snoc {seg : List Step} {x : Step} :
    Cleared (seg ++ [x]) ↔ x.2.isDropped = true ∨ x.2.isStored = false ∧ Cleared seg := by
  constructor
  · rintro ⟨a, y, b, hb, hd, hn⟩
    rcases List.eq_nil_or_concat b with rfl | ⟨b, z, rfl⟩
    · obtain ⟨-, hx⟩ := List.append_inj' hb rfl
      obtain rfl := List.cons.inj hx |>.1
      exact .inl hd
    · rw [List.concat_eq_append, ← List.cons_append, ← List.append_assoc] at hb
      obtain ⟨rfl, hx⟩ := List.append_inj' hb rfl
      obtain rfl := List.cons.inj hx |>.1
      exact .inr ⟨hn x (by simp), a, y, b, rfl, hd, fun z hz => hn z (by simp [hz])⟩
  · rintro (hd | ⟨hx, a, y, b, rfl, hd, hn⟩)
    · exact ⟨seg, x, [], rfl, hd, by simp⟩
    · refine ⟨a, y, b ++ [x], by simp, hd, fun z hz => ?_⟩
      rcases List.mem_append.1 hz with hz | hz
      · exact hn z hz
      · rwa [List.mem_singleton.1 hz]

/-- What the GUI thread does to the time of sending. -/
theorem lastSendTime_of_gui (h : e.ofRun = false) : (step w e).lastSendTime =
    if e.isDropped then none else if e.isStored then some w.sendTime else w.lastSendTime := by
  cases e with
  | sendFrame frame =>
    simp only [step, onSendFrame, Event.isDropped, Event.isStored]
    split <;> rfl
  | checked =>
    simp only [step, Event.isDropped, Event.isStored]
    split <;> rfl
  | sentTo failure =>
    simp only [step, onSentTo, Event.isDropped, Event.isStored]
    split <;> rfl
  | timed | stored | reported | dropped | stop => rfl
  | _ => cases h

/-- While only the GUI thread runs, a time of sending is there unless it was taken away. -/
theorem lastSendTime_gui_run {s : UdpWorker} (hr : machine.Run s tr w)
    (hg : ∀ x ∈ tr, x.2.ofRun = false) (hs : s.lastSendTime.isSome) :
    w.lastSendTime = none ↔ Cleared tr := by
  refine hr.history (C := fun _ e => Event.ofRun e = false)
    (P := fun tr w => w.lastSendTime = none ↔ Cleared tr) ?_ ?_ hg
  · refine ⟨fun h => ?_, fun ⟨a, x, b, h, _⟩ => by simp at h⟩
    simp [h] at hs
  · intro tr w e _ ih _ he
    have hl : (machine.step w e).lastSendTime = _ := lastSendTime_of_gui he
    rw [hl, cleared_snoc, ← ih]
    cases hd : e.isDropped <;> cases ht : e.isStored <;> simp

/-! ## The death of the receiving thread -/

/-- Where `run` stands after an event of the GUI thread. -/
theorem run_gui_run {s : UdpWorker} (hr : machine.Run s tr w) (hg : ∀ x ∈ tr, x.2.ofRun = false) :
    w.run = s.run :=
  hr.invariant (C := fun _ e => Event.ofRun e = false) (I := fun w => w.run = s.run) rfl
    (fun _ _ hi _ he => (sameRun_step he).run.trans hi) hg

/-- Where `run` may stand after an event of its own. -/
def Event.targets : Event → List RunPc
  | .opened _ => [.starting, .bindingSend, .ended]
  | .boundSend _ => [.starting, .ended]
  | .looped => [.receiving, .closing]
  | .received .. => [.stamping]
  | .stamped _ => [.looping, .testing]
  | .tested => [.subtracting, .emitting]
  | .subtracted => [.consuming, .raised]
  | .consumed => [.emitting]
  | .started | .timedOut | .emitted => [.looping]
  | .failed _ => [.closing]
  | .closed => [.clearing]
  | .cleared => [.ended]
  | _ => []

theorem run_mem_targets (h : e.ofRun = true) : (step w e).run ∈ e.targets := by
  cases e with
  | opened failure =>
    cases failure with
    | none => by_cases hp : w.sourcePort = w.localPort <;> simp [step, hp, Event.targets]
    | some e => simp [step, bindFailed, Event.targets]
  | boundSend failure => cases failure <;> simp [step, bindFailed, Event.targets]
  | looped => cases hl : w.running <;> simp [step, hl, Event.targets]
  | failed e => cases hl : w.running <;> simp [step, hl, Event.targets]
  | stamped t =>
    by_cases hm : w.data.length ∈ validRxSizes <;> simp [step, onStamped, hm, Event.targets]
  | tested => cases hl : w.lastSendTime <;> simp [step, hl, Event.targets]
  | subtracted => cases hl : w.lastSendTime <;> simp [step, onSubtracted, hl, Event.targets]
  | started | received | timedOut | consumed | emitted | closed | cleared =>
    simp [step, Event.targets]
  | _ => cases h

/-- The second look follows a first one that found something. -/
theorem subtracting_inv (h : (step w e).run = .subtracting) :
    e.ofRun = false ∧ w.run = .subtracting ∨ e = .tested ∧ w.lastSendTime.isSome := by
  cases hr : e.ofRun with
  | false => exact .inl ⟨rfl, (sameRun_step hr).run.symm.trans h⟩
  | true =>
    have ht := h ▸ run_mem_targets (w := w) hr
    cases e with
    | tested =>
      refine .inr ⟨rfl, ?_⟩
      cases hl : w.lastSendTime with
      | none => simp [step, hl] at h
      | some t => rfl
    | _ => simp [Event.targets] at ht

/-- The thread dies at the second look. -/
theorem raised_inv (h : (step w e).run = .raised) :
    e.ofRun = false ∧ w.run = .raised ∨ e = .subtracted ∧ w.lastSendTime = none := by
  cases hr : e.ofRun with
  | false => exact .inl ⟨rfl, (sameRun_step hr).run.symm.trans h⟩
  | true =>
    have ht := h ▸ run_mem_targets (w := w) hr
    cases e with
    | subtracted =>
      refine .inr ⟨rfl, ?_⟩
      cases hl : w.lastSendTime with
      | none => rfl
      | some t => simp [step, onSubtracted, hl] at h
    | _ => simp [Event.targets] at ht

/-- A run in which a failed send takes the time of sending away between the two looks at it. -/
def Raced (tr : List Step) : Prop :=
  ∃ pre test mid sub post, tr = pre ++ test :: (mid ++ sub :: post) ∧ test.2 = .tested ∧
    sub.2 = .subtracted ∧ (∀ x ∈ mid, x.2.ofRun = false) ∧ Cleared mid

/-- Since the first look only the GUI thread has run. -/
def Looked (tr : List Step) : Prop :=
  ∃ pre test mid, tr = pre ++ test :: mid ∧ test.2 = .tested ∧ test.1.lastSendTime.isSome ∧
    ∀ x ∈ mid, x.2.ofRun = false

theorem looked_of_subtracting (hr : machine.Run (init localPort sourcePort) tr w)
    (h : w.run = .subtracting) : Looked tr := by
  induction hr with
  | nil => cases h
  | @snoc tr s e hr he ih =>
    rcases subtracting_inv h with ⟨hg, hs⟩ | ⟨rfl, hs⟩
    · obtain ⟨pre, test, mid, rfl, ht, hl, hm⟩ := ih hs
      refine ⟨pre, test, mid ++ [(s, e)], by simp, ht, hl, fun x hx => ?_⟩
      rcases List.mem_append.1 hx with hx | hx
      · exact hm x hx
      · rwa [List.mem_singleton.1 hx]
    · exact ⟨tr, (s, .tested), [], rfl, rfl, hs, by simp⟩

/-- A dead thread takes no step. -/
theorem ofRun_of_raised (he : enabled w e) (h : w.run = .raised) : e.ofRun = false := by
  cases e with
  | stamped t => exact absurd (h.symm.trans he.1) nofun
  | sendFrame | checked | timed | stored | sentTo | reported | dropped | stop => rfl
  | _ =>
    have he : w.run = _ := he
    exact absurd (h.symm.trans he) nofun

/-- From then on the window is told nothing, not even that the thread has stopped. -/
theorem dead_silent {s : UdpWorker} (hr : machine.Run s tr w) (h : s.run = .raised) : SameRun s w :=
  hr.invariant' (I := SameRun s) ⟨rfl, rfl, rfl, rfl, rfl, rfl⟩ fun _ _ hi he =>
    hi.trans (sameRun_step (ofRun_of_raised he (hi.run.trans h)))

/-- In every interleaving the receiving thread dies exactly if a failed send takes the time of
sending away between the two looks at it. -/
theorem thread_dies_iff (hr : machine.Run (init localPort sourcePort) tr w) :
    w.run = .raised ↔ Raced tr := by
  constructor
  · intro h
    induction hr with
    | nil => cases h
    | @snoc tr s e hr he ih =>
      rcases raised_inv h with ⟨-, hs⟩ | ⟨rfl, hs⟩
      · obtain ⟨pre, test, mid, sub, post, rfl, hrest⟩ := ih hs
        exact ⟨pre, test, mid, sub, post ++ [(s, e)], by simp, hrest⟩
      · obtain ⟨pre, test, mid, rfl, ht, hl, hm⟩ := looked_of_subtracting hr he
        obtain ⟨-, -, hmid⟩ := hr.middle
        have hc : Cleared mid := by
          refine (lastSendTime_gui_run hmid hm ?_).1 hs
          obtain ⟨t, e⟩ := test
          obtain rfl : e = .tested := ht
          simp [Machine.post, machine, step, hl]
        exact ⟨pre, test, mid, (s, .subtracted), [], by simp, ht, rfl, hm, hc⟩
  · rintro ⟨pre, ⟨t, _⟩, mid, ⟨u, _⟩, post, rfl, rfl, rfl, hm, hc⟩
    obtain ⟨-, -, hrest⟩ := hr.middle
    obtain ⟨hmid, he, hpost⟩ := hrest.middle
    have hsub : u.run = .subtracting := he
    have htest : (step t .tested).run = .subtracting := (run_gui_run hmid hm).symm.trans hsub
    have hsome : t.lastSendTime.isSome := by
      rcases subtracting_inv htest with ⟨hg, -⟩ | ⟨-, hs⟩
      · cases hg
      · exact hs
    have hnone : u.lastSendTime = none := by
      refine (lastSendTime_gui_run hmid hm ?_).2 hc
      simp [Machine.post, machine, step, hsome]
    refine (dead_silent hpost ?_).run.trans ?_ <;> simp [Machine.post, machine, step, onSubtracted, hnone]

/-- A frame is sent, and the next send fails when the answer to the first is being looked at. -/
def failedSend : List Event :=
  [.opened none, .started, .sendFrame (List.replicate 90 0), .checked, .timed 1, .stored,
    .sentTo none, .reported, .sendFrame (List.replicate 90 0), .checked, .timed 2, .stored, .looped,
    .received (List.replicate 90 0) "", .stamped 3, .tested, .sentTo (some ""), .dropped "",
    .subtracted]

theorem failedSend_allowed : machine.Allows (init 50000 50000) failedSend :=
  ⟨rfl, rfl, rfl, rfl, ⟨rfl, by decide⟩, rfl, ⟨rfl, nofun⟩, rfl, rfl, rfl, ⟨rfl, by decide⟩, rfl, rfl,
    rfl, ⟨rfl, by decide⟩, rfl, ⟨rfl, nofun⟩, rfl, rfl, trivial⟩

theorem thread_dies_iff_failedSend : Raced (machine.trace (init 50000 50000) failedSend) :=
  (thread_dies_iff failedSend_allowed.run).1 rfl

/-! ## The sign of an elapsed time -/

/-- The clock and what was read from it. -/
structure SameTimes (w w' : UdpWorker) : Prop where
  clock : w'.clock = w.clock
  sendTime : w'.sendTime = w.sendTime
  recvTime : w'.recvTime = w.recvTime
  lastSendTime : w'.lastSendTime = w.lastSendTime

/-- The events that touch the times. -/
def Event.timing : Event → Bool
  | .stamped _ | .timed _ | .stored | .consumed | .dropped _ => true
  | _ => false

theorem sameTimes_step (h : e.timing = false) : SameTimes w (step w e) := by
  cases e with
  | opened failure | boundSend failure => cases failure <;> exact ⟨rfl, rfl, rfl, rfl⟩
  | failed e =>
    simp only [step]
    split <;> exact ⟨rfl, rfl, rfl, rfl⟩
  | tested =>
    simp only [step]
    split <;> exact ⟨rfl, rfl, rfl, rfl⟩
  | checked =>
    simp only [step]
    split <;> exact ⟨rfl, rfl, rfl, rfl⟩
  | subtracted =>
    cases hl : w.lastSendTime <;> constructor <;> simp [step, onSubtracted, hl]
  | sendFrame frame =>
    simp only [step, onSendFrame]
    split <;> exact ⟨rfl, rfl, rfl, rfl⟩
  | sentTo failure =>
    simp only [step, onSentTo]
    split <;> exact ⟨rfl, rfl, rfl, rfl⟩
  | started | looped | received | timedOut | emitted | closed | cleared | reported | stop =>
    exact ⟨rfl, rfl, rfl, rfl⟩
  | _ => cases h

def Event.isStamped : Event → Bool
  | .stamped _ => true
  | _ => false

/-- Since the last reception a time of sending has been written. -/
def Overtaken : List Step → Prop :=
  Since (fun x => x.2.isStamped = true) fun seg => ∃ x ∈ seg, x.2.isStored = true

/-- What was read from the clock is past, and a time of sending later than the reception has been
written after it. -/
structure Times (tr : List Step) (w : UdpWorker) : Prop where
  last : ∀ t ∈ w.lastSendTime, t ≤ w.clock
  send : w.sendTime ≤ w.clock
  recv : ∀ t ∈ w.lastSendTime, t ≤ w.recvTime ∨ Overtaken tr

theorem Overtaken.snoc {x : Step} (h : Overtaken tr) (hx : x.2.isStamped = false) :
    Overtaken (tr ++ [x]) :=
  Since.snoc h (by simp [hx]) fun _ ⟨y, hy, hs⟩ => ⟨y, List.mem_append_left _ hy, hs⟩

theorem Times.snoc (h : Times tr w) (he : enabled w e) : Times (tr ++ [(w, e)]) (step w e) := by
  have hlater : e.isStamped = false → ∀ t, t ≤ w.recvTime ∨ Overtaken tr →
      t ≤ w.recvTime ∨ Overtaken (tr ++ [(w, e)]) :=
    fun hs t => Or.imp_right fun ho => ho.snoc hs
  cases ht : e.timing with
  | false =>
    have hs := sameTimes_step (w := w) ht
    refine ⟨?_, ?_, fun t hm => ?_⟩
    · rw [hs.lastSendTime, hs.clock]
      exact h.last
    · rw [hs.sendTime, hs.clock]
      exact h.send
    · rw [hs.recvTime]
      exact hlater (by cases e <;> first | rfl | cases ht) t (h.recv t (hs.lastSendTime ▸ hm))
  | true => cases e with
    | stamped r =>
      have hle : w.clock ≤ r := he.2
      have hs : (step w (.stamped r)).lastSendTime = w.lastSendTime ∧
          (step w (.stamped r)).sendTime = w.sendTime ∧ (step w (.stamped r)).clock = r ∧
          (step w (.stamped r)).recvTime = r := by
        simp only [step, onStamped]
        split <;> exact ⟨rfl, rfl, rfl, rfl⟩
      obtain ⟨hl, hst, hc, hrt⟩ := hs
      refine ⟨fun t hm => ?_, ?_, fun t hm => .inl ?_⟩
      · rw [hc]
        exact (h.last t (hl ▸ hm)).trans hle
      · rw [hst, hc]
        exact h.send.trans hle
      · rw [hrt]
        exact (h.last t (hl ▸ hm)).trans hle
    | timed r =>
      have hle : w.clock ≤ r := he.2
      exact ⟨fun t hm => (h.last t hm).trans hle, le_refl r, fun t hm => hlater rfl t (h.recv t hm)⟩
    | stored =>
      refine ⟨fun t hm => ?_, h.send, fun t _ => .inr ?_⟩
      · obtain rfl : w.sendTime = t := Option.some.inj hm
        exact h.send
      · exact ⟨tr, [(w, .stored)], rfl, by simp [Event.isStamped], _, List.mem_singleton_self _, rfl⟩
    | consumed | dropped e =>
      exact ⟨fun t hm => absurd hm (Option.not_mem_none t), h.send,
        fun t hm => absurd hm (Option.not_mem_none t)⟩
    | _ => cases ht

/-- In every interleaving a frame's elapsed time is not negative unless a time of sending has been
written since the frame's reception. -/
theorem elapsed_nonneg {pre post : List Step}
    (hr : machine.Run (init localPort sourcePort) (pre ++ (w', .subtracted) :: post) w)
    {r : Reception} (hm : r ∈ reception? (w', .subtracted)) : 0 ≤ r.signal.2 ∨ Overtaken pre := by
  obtain ⟨hpre, -, -⟩ := hr.middle
  have hinit : Times [] (init localPort sourcePort) :=
    ⟨fun t hm => absurd hm (Option.not_mem_none t), le_refl _,
      fun t hm => absurd hm (Option.not_mem_none t)⟩
  have hi : Times pre w' := hpre.history (C := fun _ _ => True) hinit
    (fun _ _ _ _ hi he _ => hi.snoc he) fun _ _ => trivial
  obtain ⟨t, ht, rfl⟩ := Option.map_eq_some_iff.1 hm
  refine (hi.recv t ht).imp_left fun hle => ?_
  have hsig : (Reception.mk w'.data w'.recvTime (some t)).signal.2 = (w'.recvTime - t) * 1000000 := rfl
  have hsub : 0 ≤ w'.recvTime - t := sub_nonneg.2 hle
  rw [hsig]
  positivity

theorem elapsed_nonneg_answered :
    0 ≤ (Reception.mk (List.replicate 90 1) 2 (some 1)).signal.2 ∨
      Overtaken (machine.trace (init 50000 50000) answered) :=
  elapsed_nonneg (.snoc answered_allowed.run rfl) rfl

/-! ## Stopping -/

theorem begun_step (he : enabled w e) (h : w.run.begun = true) : (step w e).run.begun = true := by
  cases hr : e.ofRun with
  | false => rwa [(sameRun_step hr).run]
  | true =>
    have ht := run_mem_targets (w := w) hr
    cases e with
    | opened | boundSend =>
      have he : w.run = _ := he
      rw [he] at h
      cases h
    | _ => grind [Event.targets, RunPc.begun, Event.ofRun]

/-- With `_running` off every step of the thread brings it nearer to its end. -/
theorem left_step (he : enabled w e) (hr : e.ofRun = true) (h : w.run.begun = true)
    (hoff : w.running = false) : (step w e).run.left < w.run.left := by
  have ht := run_mem_targets (w := w) hr
  cases e with
  | opened | boundSend | started =>
    have he : w.run = _ := he
    rw [he] at h
    cases h
  | looped =>
    have he : w.run = _ := he
    simp [step, he, hoff, RunPc.left]
  | stamped t =>
    have he : w.run = _ := he.1
    grind [Event.targets, RunPc.left]
  | received | timedOut | failed | tested | subtracted | consumed | emitted | closed | cleared =>
    have he : w.run = _ := he
    grind [Event.targets, RunPc.left]
  | _ => cases hr

theorem running_step (he : enabled w e) (h : w.run.begun = true) :
    (step w e).running = false ↔ e = .stop ∨ w.running = false := by
  cases e with
  | opened | boundSend | started =>
    have he : w.run = _ := he
    rw [he] at h
    cases h
  | failed e =>
    simp only [step]
    split <;> simp
  | stamped t =>
    simp only [step, onStamped]
    split <;> simp
  | tested =>
    simp only [step]
    split <;> simp
  | subtracted =>
    simp only [step, onSubtracted]
    split <;> simp
  | sendFrame frame =>
    simp only [step, onSendFrame]
    split <;> simp
  | checked =>
    simp only [step]
    split <;> simp
  | sentTo failure =>
    simp only [step, onSentTo]
    split <;> simp
  | _ => simp [step]

/-- Once `_running` is set, it is off exactly if `stop` was called since. -/
theorem running_run {u : UdpWorker} (hr : machine.Run u tr w) (hb : u.run.begun = true)
    (hon : u.running = true) :
    w.run.begun = true ∧ (w.running = false ↔ ∃ x ∈ tr, x.2 = .stop) := by
  refine hr.history (C := fun _ _ => True)
    (P := fun tr w => w.run.begun = true ∧ (w.running = false ↔ ∃ x ∈ tr, x.2 = .stop))
    ⟨hb, by simp [hon]⟩ ?_ fun _ _ => trivial
  intro tr w e _ ⟨hb, hoff⟩ he _
  have hs : (machine.step w e).running = false ↔ _ := running_step he hb
  refine ⟨begun_step he hb, ?_⟩
  rw [hs, hoff]
  simp only [List.mem_append, List.mem_singleton, or_and_right, exists_or, exists_eq_left]
  exact or_comm

def Event.isReceived : Event → Bool
  | .received .. => true
  | _ => false

/-- What the thread still does once `_running` is off. -/
structure Ending (u : UdpWorker) (tr : List Step) (w : UdpWorker) : Prop where
  begun : w.run.begun = true
  off : w.running = false
  steps : tr.countP (·.2.ofRun) + w.run.left ≤ u.run.left
  received : tr.countP (·.2.isReceived) ≤ if w.run.left = 9 then 0 else 1

theorem left_le (pc : RunPc) : pc.left ≤ 9 := by cases pc <;> decide

theorem Ending.snoc {u : UdpWorker} (h : Ending u tr w) (he : enabled w e) :
    Ending u (tr ++ [(w, e)]) (step w e) := by
  have hsteps := h.steps
  have hrecv := h.received
  have hle := left_le w.run
  refine ⟨begun_step he h.begun, (running_step he h.begun).2 (.inr h.off), ?_, ?_⟩
  all_goals rw [List.countP_append, List.countP_singleton]
  · cases hr : e.ofRun with
    | false =>
      rw [(sameRun_step hr).run]
      simpa [hr] using hsteps
    | true =>
      have hlt := left_step he hr h.begun h.off
      simp only [if_true]
      omega
  · cases hr : e.ofRun with
    | false =>
      have hno : e.isReceived = false := by cases e <;> first | rfl | cases hr
      rw [(sameRun_step hr).run]
      simpa [hno] using hrecv
    | true =>
      -- Only the first of the steps that are left receives.
      have hlt := left_step he hr h.begun h.off
      have hfirst : e.isReceived = true → w.run.left = 9 := by
        intro hi
        cases e with
        | received =>
          have he : w.run = _ := he
          rw [he]
          rfl
        | _ => cases hi
      grind

/-- In every interleaving a `stop` is obeyed exactly if it comes after the thread has set `_running`;
then the thread takes nine steps at most, and receives one more frame at most. -/
theorem stop_takes_effect {pre post : List Step} {u : UdpWorker}
    (hr : machine.Run (init localPort sourcePort) (pre ++ (u, .started) :: post) w) :
    (w.running = false ↔ ∃ x ∈ post, x.2 = .stop) ∧
    ∀ a v b, post = a ++ (v, .stop) :: b →
      b.countP (·.2.ofRun) + w.run.left ≤ 9 ∧ b.countP (·.2.isReceived) ≤ 1 := by
  obtain ⟨-, -, hpost⟩ := hr.middle
  have hon : (machine.post (u, Event.started)).running = true := rfl
  refine ⟨(running_run hpost rfl hon).2, ?_⟩
  rintro a v b rfl
  obtain ⟨hv, he, hb⟩ := hpost.middle
  have hbegun : (machine.post (v, Event.stop)).run.begun = true := (running_run hv rfl hon).1
  have hoff : (machine.post (v, Event.stop)).running = false := rfl
  have hend : Ending (machine.post (v, .stop)) b w :=
    hb.history (C := fun _ _ => True) ⟨hbegun, hoff, by simp, by simp⟩
      (fun _ _ _ _ hi he _ => hi.snoc he) fun _ _ => trivial
  exact ⟨hend.steps.trans (left_le _), hend.received.trans (by split <;> omega)⟩

/-- A `stop` while the thread waits for a frame. -/
def stopped : List Event :=
  [.opened none, .started, .looped, .stop, .timedOut, .looped, .closed, .cleared]

theorem stopped_allowed : machine.Allows (init 50000 50000) stopped :=
  ⟨rfl, rfl, rfl, rfl, rfl, rfl, rfl, rfl, trivial⟩

theorem stop_takes_effect_stopped :
    (machine.exec (init 50000 50000) stopped).running = false := by
  have hrun : machine.Run (init 50000 50000)
      ([(init 50000 50000, .opened none)] ++ (step (init 50000 50000) (.opened none), .started) ::
        machine.trace (step (step (init 50000 50000) (.opened none)) .started) (stopped.drop 2))
      (machine.exec (init 50000 50000) stopped) := stopped_allowed.run
  exact (stop_takes_effect hrun).1.2 ⟨_, .tail _ (.head _), rfl⟩

end UdpWorker

end QccGui
