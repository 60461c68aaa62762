import QccGui.Gui.BurnTest
import QccGui.Lib.Double
import QccGui.Lib.Pacing

/-!
# The pace of a burn test

Frames go out at their deadlines however unevenly the loop is scheduled: after a stall the missed
deadlines are dropped and not made up for. Deadlines are rounded, and a deadline that was rounded
down comes too soon.

* `Attempts`: the step tries to send a frame; `attempt`: when, and at what deadline.
* `Rounds`: how far a new deadline is rounded; `rounds_exact`, `rounds_double`.
* `Paced`: the attempts so far and the deadline of the next.
* `burn_paced`: how many attempts there are in a window of time, and that none is left out.
* `early_deadlines`: three attempts where exact arithmetic allows two.
-/

namespace QccGui

open Lib

namespace BurnTest

variable {b : BurnTest} {now sendPerf : ℚ} {stamp : String} {sendError : Option String}

/-- In the step a frame goes out, or the socket reports an error instead. -/
def Attempts (x : BurnTest × Event) : Prop :=
  (machine.post x).datagrams.length = x.1.datagrams.length + 1 ∨
    (machine.post x).errors = x.1.errors + 1

instance (x : BurnTest × Event) : Decidable (Attempts x) := inferInstanceAs (Decidable (_ ∨ _))

/-- The attempt of a step: the reading of the clock that it follows on, and the deadline. -/
def attempt (x : BurnTest × Event) : Option (Shot ℚ) :=
  match x.2 with
  | .send now _ _ _ => if Attempts x then some ⟨now, x.1.nextSend⟩ else none
  | _ => none

def attempts (tr : List (BurnTest × Event)) : List (Shot ℚ) := tr.filterMap attempt

/-- A frame is tried exactly when its deadline has passed. -/
theorem attempts_iff : Attempts (b, .send now sendPerf stamp sendError) ↔ b.nextSend ≤ now := by
  by_cases h : b.nextSend ≤ now
  · refine iff_of_true ?_ h
    have hpost : machine.post (b, .send now sendPerf stamp sendError) =
        { b.onSend now sendPerf stamp sendError with phase := .evict } := if_pos h
    rw [Attempts, hpost]
    cases sendError with
    | some e => exact .inr rfl
    | none =>
      left
      show (b.datagrams ++ [_]).length = _
      rw [List.length_append, List.length_singleton]
  · refine iff_of_false ?_ h
    have hpost : machine.post (b, .send now sendPerf stamp sendError) =
        { b with clock := now, phase := .evict } := if_neg h
    rw [Attempts, hpost]
    simp

/-- In a window of time there are at most as many attempts as `interval` fits into it, and two. -/
def NoBurst (interval : ℚ) (shots : List (Shot ℚ)) : Prop :=
  ∀ start length : ℚ, (shots.filter fun x => start ≤ x.time ∧ x.time ≤ start + length).length ≤
    ⌊length / interval⌋₊ + 2

/-- The sums of a new deadline are rounded by at most `ε`. -/
def Rounds (ε : ℚ) (b : BurnTest) : Event → Prop
  | .send now _ _ _ => b.nextSend ≤ now →
      |b.config.round (b.nextSend + b.config.intervalS) - (b.nextSend + b.config.intervalS)| ≤ ε ∧
        |b.config.round (now + b.config.intervalS) - (now + b.config.intervalS)| ≤ ε
  | _ => True

/-- The sums of a new deadline are below `2 ^ n`. -/
def Below (n : ℤ) (b : BurnTest) : Event → Prop
  | .send now _ _ _ => b.nextSend ≤ now → now + b.config.intervalS < 2 ^ n
  | _ => True

theorem rounds_exact (hround : b.config.round = id) (ev : Event) : b.Rounds 0 ev := by
  cases ev with
  | send now sendPerf stamp sendError =>
    intro _
    simp [hround]
  | _ => trivial

/-- The arithmetic of doubles, at a time below `2 ^ n`. -/
theorem rounds_double {n : ℤ} (hround : b.config.round = Double.round) (hn : 0 < n)
    (h0 : 0 ≤ b.nextSend) (hI : 0 ≤ b.config.intervalS) {ev : Event} (hlt : b.Below n ev) :
    b.Rounds (2 ^ (n - 54)) ev := by
  cases ev with
  | send now sendPerf stamp sendError =>
    intro hd
    have hlt := hlt hd
    have hpow : (0 : ℚ) < 2 ^ n := zpow_pos two_pos n
    rw [hround]
    constructor
    · exact Double.abs_round_sub_le (abs_lt.2 ⟨by linarith, by linarith⟩) hn
    · exact Double.abs_round_sub_le (abs_lt.2 ⟨by linarith, by linarith⟩) hn
  | _ => trivial

/-- The next deadline is not in the past, and comes an interval after the last one, but for the
rounding. -/
theorem le_nextDeadline {ε : ℚ} (hI : ε < b.config.intervalS) (hd : b.nextSend ≤ now)
    (hr : b.Rounds ε (.send now sendPerf stamp sendError)) :
    now ≤ b.nextDeadline now ∧ b.nextSend + (b.config.intervalS - ε) ≤ b.nextDeadline now := by
  obtain ⟨hnext, hsnap⟩ := hr hd
  rw [abs_le] at hnext hsnap
  unfold nextDeadline
  dsimp only
  split
  · constructor <;> linarith
  · constructor <;> linarith

/-- A step that tries to send a frame sets a new deadline, and every other one leaves the old one. -/
theorem step_deadline (b : BurnTest) (ev : Event) : (b.step ev).config = b.config ∧
    ((∃ now sendPerf stamp sendError, ev = .send now sendPerf stamp sendError ∧ b.nextSend ≤ now ∧
        attempt (b, ev) = some ⟨now, b.nextSend⟩ ∧ (b.step ev).nextSend = b.nextDeadline now) ∨
      attempt (b, ev) = none ∧ (b.step ev).nextSend = b.nextSend) := by
  cases ev with
  | send now sendPerf stamp sendError =>
    by_cases hd : b.nextSend ≤ now
    · have hstep : b.step (.send now sendPerf stamp sendError) =
          { b.onSend now sendPerf stamp sendError with phase := .evict } := if_pos hd
      have hrest : (b.onSend now sendPerf stamp sendError).config = b.config ∧
          (b.onSend now sendPerf stamp sendError).nextSend = b.nextDeadline now := by
        cases sendError <;> exact ⟨rfl, rfl⟩
      rw [hstep]
      exact ⟨hrest.1, .inl ⟨now, sendPerf, stamp, sendError, rfl, hd, if_pos (attempts_iff.2 hd), hrest.2⟩⟩
    · have hstep : b.step (.send now sendPerf stamp sendError) =
          { b with clock := now, phase := .evict } := if_neg hd
      rw [hstep]
      exact ⟨rfl, .inr ⟨if_neg fun hat => hd (attempts_iff.1 hat), rfl⟩⟩
  | datagram data recvPerf stamp =>
    obtain ⟨hc, hn, -⟩ := onDatagram_rest b data recvPerf stamp
    exact ⟨hc, .inr ⟨rfl, hn⟩⟩
  | proceed =>
    rw [step]
    split
    · exact ⟨rfl, .inr ⟨rfl, rfl⟩⟩
    · exact ⟨rfl, .inr ⟨rfl, rfl⟩⟩
  | tick now =>
    obtain ⟨hc, hn, -⟩ := onTick_rest b now
    exact ⟨hc, .inr ⟨rfl, hn⟩⟩
  | _ => exact ⟨rfl, .inr ⟨rfl, rfl⟩⟩

/-- The attempts so far follow one another, and the deadline of the next one follows them. -/
structure Paced (config : BurnConfig) (ε : ℚ) (shots : List (Shot ℚ)) (b : BurnTest) : Prop where
  same : b.config = config
  pairwise : shots.Pairwise (Shot.Then (config.intervalS - ε))
  passed : ∀ x ∈ shots, x.deadline ≤ x.time
  next : ∀ x ∈ shots, x.time ≤ b.nextSend ∧ x.deadline + (config.intervalS - ε) ≤ b.nextSend

section

variable {b' : BurnTest} {config : BurnConfig} {ε : ℚ} {shots : List (Shot ℚ)}

/-- No attempt, and the deadline stays. -/
theorem Paced.keep (h : Paced config ε shots b) (hc : b'.config = b.config)
    (hn : b'.nextSend = b.nextSend) : Paced config ε shots b' :=
  ⟨hc.trans h.same, h.pairwise, h.passed, by rw [hn]; exact h.next⟩

/-- An attempt at the deadline, and a new deadline. -/
theorem Paced.snoc (h : Paced config ε shots b) (hc : b'.config = b.config)
    (hd : b.nextSend ≤ now) (hfresh : now ≤ b'.nextSend)
    (hspaced : b.nextSend + (config.intervalS - ε) ≤ b'.nextSend) (hI : ε < config.intervalS) :
    Paced config ε (shots ++ [⟨now, b.nextSend⟩]) b' := by
  refine ⟨hc.trans h.same, ?_, fun x hx => ?_, fun x hx => ?_⟩
  · refine List.pairwise_append.2 ⟨h.pairwise, List.pairwise_singleton .., fun x hx y hy => ?_⟩
    obtain rfl := List.mem_singleton.1 hy
    exact ⟨(h.next x hx).1, (h.next x hx).2⟩
  · rcases List.mem_append.1 hx with hx | hx
    · exact h.passed x hx
    · obtain rfl := List.mem_singleton.1 hx
      exact hd
  · rcases List.mem_append.1 hx with hx | hx
    · obtain ⟨h₁, h₂⟩ := h.next x hx
      constructor <;> linarith
    · obtain rfl := List.mem_singleton.1 hx
      exact ⟨hfresh, hspaced⟩

theorem Paced.step (h : Paced config ε shots b) (hI : ε < config.intervalS) (ev : Event)
    (hr : b.Rounds ε ev) : Paced config ε (shots ++ (attempt (b, ev)).toList) (b.step ev) := by
  obtain ⟨hc, ⟨now, sendPerf, stamp, sendError, rfl, hd, ha, hn⟩ | ⟨ha, hn⟩⟩ := step_deadline b ev
  · obtain ⟨hfresh, hspaced⟩ := le_nextDeadline (by rw [h.same]; exact hI) hd hr
    rw [h.same] at hspaced
    rw [← hn] at hfresh hspaced
    rw [ha, Option.toList_some]
    exact h.snoc hc hd hfresh hspaced hI
  · rw [ha, Option.toList_none, List.append_nil]
    exact h.keep hc hn

end

/-- The attempts of a run, and the deadline after them. -/
theorem paced_run {config : BurnConfig} {rc : RcSettings} {t₀ ε : ℚ} {bindError : Option String}
    {tr : List (BurnTest × Event)} (hI : ε < config.intervalS)
    (hr : machine.Run (run config rc t₀ bindError) tr b) (hround : Machine.Along (Rounds ε) tr) :
    Paced config ε (attempts tr) b := by
  refine hr.history (C := Rounds ε) (P := fun tr b => Paced config ε (attempts tr) b)
    ⟨by cases bindError <;> rfl, List.Pairwise.nil, by simp [attempts], by simp [attempts]⟩ ?_ hround
  intro tr b ev _ h _ hround
  rw [attempts, filterMap_snoc]
  exact h.step hI ev hround

theorem config_run {config : BurnConfig} {rc : RcSettings} {t₀ : ℚ} {bindError : Option String}
    {tr : List (BurnTest × Event)} (hr : machine.Run (run config rc t₀ bindError) tr b) :
    b.config = config :=
  hr.invariant' (I := fun b => b.config = config) (by cases bindError <;> rfl)
    fun b ev h _ => (step_deadline b ev).1.trans h

/-- The deadlines are sums of doubles below `2 ^ n`, as long as the clock is. -/
theorem rounds_run {config : BurnConfig} {rc : RcSettings} {t₀ : ℚ} {n : ℤ} {bindError : Option String}
    {tr : List (BurnTest × Event)} (hround : config.round = Double.round) (hn : 0 < n) (h0 : 0 ≤ t₀)
    (hI : 2 ^ (n - 54) < config.intervalS) (hr : machine.Run (run config rc t₀ bindError) tr b)
    (hlt : Machine.Along (Below n) tr) : Machine.Along (Rounds (2 ^ (n - 54))) tr := by
  have hpos : 0 ≤ config.intervalS := (zpow_pos two_pos _).le.trans hI.le
  refine (hr.history (C := Below n) (P := fun tr b => Machine.Along (Rounds (2 ^ (n - 54))) tr ∧
    b.config = config ∧ 0 ≤ b.nextSend) ⟨Machine.along_nil, ?_⟩ ?_ hlt).1
  · cases bindError <;> exact ⟨rfl, h0⟩
  · rintro tr b ev - ⟨hrounds, hconfig, hnext⟩ - hbelow
    have hev : b.Rounds (2 ^ (n - 54)) ev :=
      rounds_double (by rw [hconfig]; exact hround) hn hnext (by rwa [hconfig]) hbelow
    refine ⟨Machine.along_append.2 ⟨hrounds, Machine.along_cons.2 ⟨hev, Machine.along_nil⟩⟩,
      (step_deadline b ev).1.trans hconfig, ?_⟩
    obtain ⟨now, sendPerf, stamp, sendError, rfl, hd, -, hdeadline⟩ | ⟨-, hkept⟩ := (step_deadline b ev).2
    · have hfresh := (le_nextDeadline (by rwa [hconfig]) hd hev).1
      exact hnext.trans (hd.trans (hfresh.trans_eq hdeadline.symm))
    · exact hnext.trans_eq hkept.symm

/-- In every run every reading of the clock that has reached the deadline is followed by an attempt, and
in a window of time there are at most as many attempts as the interval, less the rounding error, fits
into it, and two. There is no error in exact arithmetic, and one of at most `2 ^ (n - 54)` in that of
doubles, at times below `2 ^ n`. -/
theorem burn_paced {config : BurnConfig} {rc : RcSettings} {t₀ : ℚ} {bindError : Option String}
    {tr : List (BurnTest × Event)} (hr : machine.Run (run config rc t₀ bindError) tr b) :
    (∀ ε, ε < config.intervalS → Machine.Along (Rounds ε) tr →
      NoBurst (config.intervalS - ε) (attempts tr)) ∧
    (config.round = id → 0 < config.intervalS → NoBurst config.intervalS (attempts tr)) ∧
    (∀ n, config.round = Double.round → 0 < n → 0 ≤ t₀ → 2 ^ (n - 54) < config.intervalS →
      Machine.Along (Below n) tr → NoBurst (config.intervalS - 2 ^ (n - 54)) (attempts tr)) ∧
    ∀ x ∈ tr, ∀ now sendPerf stamp sendError, x.2 = .send now sendPerf stamp sendError →
      x.1.nextSend ≤ now → Attempts x ∧ attempt x = some ⟨now, x.1.nextSend⟩ := by
  have hbound : ∀ ε, ε < config.intervalS → Machine.Along (Rounds ε) tr →
      NoBurst (config.intervalS - ε) (attempts tr) := by
    intro ε hI hround
    have hpaced := paced_run hI hr hround
    exact Shot.length_window_le hpaced.pairwise hpaced.passed (sub_pos.2 hI)
  refine ⟨hbound, fun hround hI => ?_, fun n hround hn h0 hI hlt =>
    hbound _ hI (rounds_run hround hn h0 hI hr hlt), ?_⟩
  · have hexact := hbound 0 hI fun x hx => by
      obtain ⟨tr₁, tr₂, rfl⟩ := List.append_of_mem hx
      refine rounds_exact ?_ x.2
      rw [config_run hr.middle.1, hround]
    rwa [sub_zero] at hexact
  · rintro ⟨b, ev⟩ - now sendPerf stamp sendError rfl hd
    exact ⟨attempts_iff.2 hd, if_pos (attempts_iff.2 hd)⟩

/-! ## A loop that is late once -/

/-- The interval is the double next to a tenth of a second. -/
def lateConfig : BurnConfig :=
  ⟨false, 3602879701896397 / 2 ^ 55, "0.0.0.0:5010", "192.168.1.10:5000", Double.round⟩

/-- The deadline `k` intervals after the first one. -/
def lateDeadline (k : ℕ) : ℚ := 100 + k * (7036874417766 / 2 ^ 46)

/-- The deadline is not the exact sum but the double next to it, which is earlier. -/
theorem round_lateDeadline {k : ℕ} (hk : k < 200) :
    lateConfig.round (lateDeadline k + lateConfig.intervalS) = lateDeadline (k + 1) := by
  have hk : (k : ℚ) < 200 := by exact_mod_cast hk
  have h0 : (0 : ℚ) ≤ k := Nat.cast_nonneg k
  have hpos : 0 ≤ lateDeadline k + lateConfig.intervalS := by
    unfold lateDeadline lateConfig
    positivity
  have hsum : lateDeadline k + lateConfig.intervalS =
      (7036874417766400 + (k + 1) * 7036874417766 + 205 / 512) / 2 ^ 46 := by
    unfold lateDeadline lateConfig
    dsimp only
    ring
  have hround : Double.round (lateDeadline k + lateConfig.intervalS) =
      ((7036874417766400 + (k + 1) * 7036874417766 : ℤ) : ℚ) * 2 ^ ((6 : ℤ) - 52) := by
    refine Double.round_eq ?_ ?_ (by norm_num) ?_
    · rw [abs_of_nonneg hpos, hsum]
      norm_num
      linarith
    · rw [abs_of_nonneg hpos, hsum]
      norm_num
      linarith
    · have herr : (lateDeadline k + lateConfig.intervalS) / 2 ^ ((6 : ℤ) - 52) -
          ((7036874417766400 + (k + 1) * 7036874417766 : ℤ) : ℚ) = 205 / 512 := by
        rw [hsum]
        push_cast
        norm_num
        ring
      rw [herr]
      norm_num
  refine hround.trans ?_
  unfold lateDeadline
  push_cast
  norm_num
  ring

/-- The next deadline is number `k`. -/
structure LateAt (k : ℕ) (b : BurnTest) : Prop where
  same : b.config = lateConfig
  nextSend : b.nextSend = lateDeadline k

/-- A deadline that is passed in time. -/
theorem nextDeadline_late {k : ℕ} (hk : k < 200) (h : LateAt k b)
    (hle : now ≤ lateDeadline (k + 1)) : b.nextDeadline now = lateDeadline (k + 1) := by
  unfold nextDeadline
  dsimp only
  rw [h.same, h.nextSend, round_lateDeadline hk, if_neg hle.not_gt]

theorem below_late {k : ℕ} (hk : k < 200) (h : LateAt k b) (hle : now ≤ lateDeadline (k + 1)) :
    b.Below 7 (.send now now stamp none) := by
  intro _
  have hlt : lateDeadline (k + 1) + lateConfig.intervalS < 2 ^ (7 : ℤ) := by
    have hk : ((k + 1 : ℕ) : ℚ) ≤ 200 := by exact_mod_cast hk
    unfold lateDeadline lateConfig
    norm_num at hk ⊢
    linarith
  rw [h.same]
  linarith

/-- Once around the loop at time `now`, which is one attempt. -/
structure Attempted (k : ℕ) (now : ℚ) (b : BurnTest) : Prop where
  allows : machine.Allows b (around [] now)
  looping : Looping (machine.exec b (around [] now)) now
  late : LateAt (k + 1) (machine.exec b (around [] now))
  attempts : attempts (machine.trace b (around [] now)) = [⟨now, lateDeadline k⟩]
  below : Machine.Along (Below 7) (machine.trace b (around [] now))

theorem LateAt.attempted {k : ℕ} {t : ℚ} (h : LateAt k b) (hk : k < 200) (hloop : Looping b t)
    (hnow : t ≤ now) (hd : lateDeadline k ≤ now) (hle : now ≤ lateDeadline (k + 1)) :
    Attempted k now b := by
  obtain ⟨hallow, hloop'⟩ := hloop.around hnow []
  generalize hready : ({ b with phase := .send } : BurnTest) = ready
  have h' : LateAt k ready := hready ▸ ⟨h.same, h.nextSend⟩
  have hdrained : machine.step (machine.step b .proceed) .drained = ready := by
    rw [show machine.step b .proceed = { b with phase := .drain } from if_pos hloop.running, ← hready]
    rfl
  generalize hsent : machine.step ready (.send now now "10:00" none) = sent
  have hstep : sent = { ready.onSend now now "10:00" none with phase := .evict } := by
    rw [← hsent]
    exact if_pos (h'.nextSend.trans_le hd)
  have hexec : machine.exec b (around [] now) = machine.exec sent [.evict now, .tick now] := by
    rw [← hsent, ← hdrained]
    rfl
  have htrace : machine.trace b (around [] now) = [(b, .proceed), (machine.step b .proceed, .drained),
      (ready, .send now now "10:00" none)] ++ machine.trace sent [.evict now, .tick now] := by
    rw [← hsent, ← hdrained]
    rfl
  obtain ⟨hconfig, hnext, -, -⟩ := onTick_rest (sent.step (.evict now)) now
  refine ⟨hallow, hloop', ⟨?_, ?_⟩, ?_, ?_⟩
  · rw [hexec]
    refine hconfig.trans ?_
    rw [hstep]
    exact h'.same
  · rw [hexec]
    refine hnext.trans ?_
    rw [hstep]
    exact nextDeadline_late hk h' hle
  · have hat : attempt (ready, .send now now "10:00" none) = some ⟨now, ready.nextSend⟩ :=
      if_pos (attempts_iff.2 (h'.nextSend.trans_le hd))
    rw [htrace, BurnTest.attempts, List.cons_append, List.cons_append, List.cons_append,
      List.filterMap_cons_none rfl, List.filterMap_cons_none rfl, List.filterMap_cons_some hat,
      h'.nextSend]
    rfl
  · rw [htrace]
    simp only [Machine.trace, Machine.along_append, Machine.along_cons]
    exact ⟨⟨trivial, trivial, below_late hk h' hle, Machine.along_nil⟩, trivial, trivial,
      Machine.along_nil⟩

/-- The loop comes to its first deadline an interval late, and to the next two in time. -/
def lateEvents : List Event :=
  around [] (lateDeadline 1) ++ around [] (lateDeadline 1) ++ around [] (lateDeadline 2)

def lateStart : BurnTest :=
  run lateConfig { date := 5, month := 7, year := 2026, timeOfDay := 0 } 100 none

theorem lateDeadline_mono {j k : ℕ} (h : j ≤ k) : lateDeadline j ≤ lateDeadline k := by
  unfold lateDeadline
  gcongr

theorem late_run : machine.Allows lateStart lateEvents ∧
    attempts (machine.trace lateStart lateEvents) = [⟨lateDeadline 1, lateDeadline 0⟩,
      ⟨lateDeadline 1, lateDeadline 1⟩, ⟨lateDeadline 2, lateDeadline 2⟩] ∧
    Machine.Along (Below 7) (machine.trace lateStart lateEvents) := by
  have hstart : (100 : ℚ) = lateDeadline 0 := by simp [lateDeadline]
  have h₀ : LateAt 0 lateStart := ⟨rfl, hstart⟩
  have hloop : Looping lateStart (lateDeadline 0) := ⟨rfl, rfl, hstart.le⟩
  have h₁ : Attempted 0 (lateDeadline 1) lateStart :=
    h₀.attempted (by omega) hloop (lateDeadline_mono (by omega)) (lateDeadline_mono (by omega)) le_rfl
  have h₂ : Attempted 1 (lateDeadline 1) _ :=
    h₁.late.attempted (by omega) h₁.looping le_rfl le_rfl (lateDeadline_mono (by omega))
  have h₃ : Attempted 2 (lateDeadline 2) _ :=
    h₂.late.attempted (by omega) h₂.looping (lateDeadline_mono (by omega)) le_rfl
      (lateDeadline_mono (by omega))
  rw [lateEvents, Machine.trace_append, Machine.trace_append, Machine.allows_append,
    Machine.allows_append, Machine.exec_append]
  refine ⟨⟨⟨h₁.allows, h₂.allows⟩, h₃.allows⟩, ?_, ?_⟩
  · rw [attempts, List.filterMap_append, List.filterMap_append]
    exact congrArg₂ _ (congrArg₂ _ h₁.attempts h₂.attempts) h₃.attempts
  · exact Machine.along_append.2 ⟨Machine.along_append.2 ⟨h₁.below, h₂.below⟩, h₃.below⟩

/-- The first and the last of three attempts are less than an interval apart, so that exact arithmetic
allows but two. -/
theorem early_deadlines :
    let tr := machine.trace lateStart lateEvents
    let length : ℚ := 7036874417766 / 2 ^ 46
    machine.Run lateStart tr (machine.exec lateStart lateEvents) ∧
    Machine.events tr = around [] (lateDeadline 1) ++ around [] (lateDeadline 1) ++
      around [] (lateDeadline 2) ∧
    ((attempts tr).filter fun x => lateDeadline 1 ≤ x.time ∧ x.time ≤ lateDeadline 1 + length).length =
      3 ∧
    ⌊length / lateConfig.intervalS⌋₊ + 2 = 2 := by
  obtain ⟨hallow, hat, -⟩ := late_run
  refine ⟨hallow.run, Machine.events_trace, ?_, ?_⟩
  · have hlast : lateDeadline 2 = lateDeadline 1 + 7036874417766 / 2 ^ 46 := by
      unfold lateDeadline
      push_cast
      ring
    rw [hat]
    simp [hlast]
    norm_num
  · have hfloor : ⌊(7036874417766 / 2 ^ 46 : ℚ) / lateConfig.intervalS⌋₊ = 0 := by
      rw [Nat.floor_eq_zero, lateConfig]
      norm_num
    rw [hfloor]

/-- The same run, whose clock stays below `2 ^ 7`, and one in exact arithmetic. -/
theorem burn_paced_late :
    let tr := machine.trace lateStart lateEvents
    NoBurst (lateConfig.intervalS - 2 ^ ((7 : ℤ) - 54)) (attempts tr) ∧
    (∀ x ∈ tr, ∀ now sendPerf stamp sendError, x.2 = .send now sendPerf stamp sendError →
      x.1.nextSend ≤ now → Attempts x ∧ attempt x = some ⟨now, x.1.nextSend⟩) ∧
    NoBurst 1 (attempts (machine.trace exampleStart (around [] 2))) := by
  obtain ⟨hallow, -, hbelow⟩ := late_run
  have hI : (2 : ℚ) ^ ((7 : ℤ) - 54) < lateConfig.intervalS := by
    rw [lateConfig]
    norm_num
  obtain ⟨-, -, hdouble, hattempt⟩ := burn_paced hallow.run
  have hloop : Looping exampleStart 0 := ⟨rfl, rfl, le_rfl⟩
  obtain ⟨-, hexact, -⟩ := burn_paced (hloop.around zero_le_two []).1.run
  exact ⟨hdouble 7 rfl (by norm_num) (by norm_num) hI hbelow, hattempt, hexact rfl one_pos⟩

end BurnTest

end QccGui
