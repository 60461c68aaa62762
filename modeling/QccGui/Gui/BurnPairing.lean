import QccGui.Gui.BurnTest

/-!
# Which frame a burn test response belongs to

The worker finds the frame of a response by the number in the response's header: in the table of
outstanding frames, whose keys are the numbers of a counter without a bound, and before it looks at
the checksum.

* `BurnTest.Waits`, `BurnTest.Gone`: a frame is outstanding, or will never be outstanding again.
* `BurnTest.frame_row`: the row of a frame holds the first valid response to it if and only if
  the frame's number fits into a header, and no corrupted datagram carried this number before.
-/

namespace QccGui

open Lib

namespace BurnTest

/-- A full-size response with a correct checksum and the message number of the frame. -/
structure ValidEcho (frame data : Bytes) : Prop where
  length : data.length = totalPacketSize
  checksumOk : (QccHeaderTx.decode (data.take headerSize)).checksumOk = true
  messageNumber : messageNumber data = messageNumber frame

/-- The next frame that the worker would send. -/
def nextFrame (b : BurnTest) : Bytes := b.config.buildFrame (b.rc.buildHeader b.config.commandId).1

/-- What the table says about a frame sent at `sendPerf`, with the time stamp `sentAt`. -/
def outstanding (b : BurnTest) (sendPerf : ℚ) (sentAt : String) : Outstanding :=
  ⟨sendPerf, sentAt, commandName b.config.commandId⟩

/-- The step from `b` to `b'` writes the row of the frame with the number `n`, as OK, with the
frame's own send time and the data of the response `resp`. -/
def WritesAnswer (b b' : BurnTest) (n : Nat) (info : Outstanding) (resp : Bytes) (recvPerf : ℚ)
    (stamp : String) : Prop :=
  b'.rows = b.rows ++ [{
    msgNumber := n, txTimestamp := info.txTimestamp, rxTimestamp := stamp
    delayUs := fixed1 ((recvPerf - info.sendPerf) * 1000000), qccCommand := info.qccCommand
    result := .ok, qtrm := (linkFlags b.config.isLinkTest resp).map allQueried }]

/-- The frame with the number `n` is outstanding, or the worker has stopped. -/
def Waits (n : Nat) (info : Outstanding) (b : BurnTest) : Prop :=
  (b.phase = .stopped ∨ b.pending.get? n = some info) ∧ n ≤ b.rc.messageNumber

/-- The number `n` is not in the table any more. -/
def Gone (n : Nat) (b : BurnTest) : Prop := b.pending.get? n = none ∧ n ≤ b.rc.messageNumber

/-- The step gives the frame with the number `n` up. -/
def Evicts (n : Nat) (x : BurnTest × Event) : Prop :=
  ∃ now, x.2 = .evict now ∧ n ∈ (x.1.pending.takeWhile (isStale now)).map Prod.fst

/-- The step receives a full-size datagram with the number `n`. -/
def Carries (n : Nat) (e : Event) : Prop :=
  ∃ data recvPerf stamp, e = .datagram data recvPerf stamp ∧ data.length = totalPacketSize ∧
    messageNumber data = n

variable {b b' s : BurnTest} {e : Event} {n : Nat} {info : Outstanding} {resp data : Bytes}
  {now sendPerf recvPerf : ℚ} {sentAt stamp : String}

theorem messageNumber_lt (raw : Bytes) : messageNumber raw < 2 ^ 32 := by
  have h₁ := word16_lt (raw.getD 6 0) (raw.getD (6 + 1) 0)
  have h₂ := word16_lt (raw.getD (6 + 2) 0) (raw.getD (6 + 2 + 1) 0)
  simp only [messageNumber, u32At, u16At]
  omega

/-- A frame carries the low 32 bits of its number. -/
theorem messageNumber_nextFrame (b : BurnTest) :
    messageNumber b.nextFrame = (b.rc.messageNumber + 1) % 2 ^ 32 := by
  unfold nextFrame BurnConfig.buildFrame
  split
  · exact b.rc.messageNumber_buildHeader ..
  · exact b.rc.messageNumber_buildHeader ..

/-! ## The table -/

/-- Sending a frame leaves the entries of the numbers before its own. -/
theorem get?_step_send (hn : n ≤ b.rc.messageNumber) (sendError : Option String) :
    (b.step (.send now sendPerf stamp sendError)).pending.get? n = b.pending.get? n := by
  simp only [BurnTest.step]
  split
  · cases sendError with
    | some message => rfl
    | none =>
      have hne : n ≠ b.rc.messageNumber + 1 := by omega
      exact Dict.get?_set_of_ne b.pending _ hne
  · rfl

/-- A number of the past does not come back. -/
theorem Gone.step (h : Gone n b) (e : Event) : Gone n (b.step e) := by
  obtain ⟨hget, hn⟩ := h
  refine ⟨?_, hn.trans (messageNumber_mono b e)⟩
  cases e with
  | proceed =>
    simp only [BurnTest.step]
    split
    · exact hget
    · rfl
  | datagram data recvPerf stamp =>
    by_cases hlen : data.length = totalPacketSize
    · cases hd : b.pending.get? (messageNumber data) with
      | none => exact (onDatagram_stray b recvPerf stamp hlen hd).1 ▸ hget
      | some i =>
        have hp := (onDatagram_answer b recvPerf stamp hlen hd).1
        simp only [BurnTest.step, hp, Dict.get?_erase, hget, ite_self]
    · exact (onDatagram_short b recvPerf stamp hlen).1 ▸ hget
  | send now sendPerf stamp sendError => exact (get?_step_send hn sendError).trans hget
  | evict now =>
    simp only [BurnTest.step, onEvict, Dict.get?_foldl_erase, hget, ite_self]
  | tick now => exact (onTick_eq b now).1 ▸ hget
  | _ => exact hget

/-- A frame waits until it is given up or a datagram carries its number. -/
theorem Waits.step (h : Waits n info b) (he : enabled b e) (hev : ¬ Evicts n (b, e))
    (hc : ¬ Carries n e) : Waits n info (b.step e) := by
  obtain ⟨hget, hn⟩ := h
  refine ⟨?_, hn.trans (messageNumber_mono b e)⟩
  cases e with
  | proceed =>
    simp only [BurnTest.step]
    split
    · exact .inr (hget.resolve_left fun hp => by cases he.symm.trans hp)
    · exact .inl rfl
  | datagram data recvPerf stamp =>
    have hget := hget.resolve_left fun hp => by cases he.1.symm.trans hp
    refine .inr ?_
    by_cases hlen : data.length = totalPacketSize
    · have hne : n ≠ messageNumber data := fun h => hc ⟨data, recvPerf, stamp, rfl, hlen, h.symm⟩
      cases hd : b.pending.get? (messageNumber data) with
      | none => exact (onDatagram_stray b recvPerf stamp hlen hd).1 ▸ hget
      | some i =>
        have hp := (onDatagram_answer b recvPerf stamp hlen hd).1
        simp only [BurnTest.step, hp, Dict.get?_erase, hne, if_false, hget]
    · exact (onDatagram_short b recvPerf stamp hlen).1 ▸ hget
  | send now sendPerf stamp sendError =>
    have hget := hget.resolve_left fun hp => by cases he.1.symm.trans hp
    exact .inr ((get?_step_send hn sendError).trans hget)
  | evict now =>
    have hget := hget.resolve_left fun hp => by cases he.1.symm.trans hp
    refine .inr ?_
    have hfront : n ∉ (b.pending.takeWhile (isStale now)).map Prod.fst := fun h =>
      hev ⟨now, rfl, h⟩
    simp only [BurnTest.step, onEvict, Dict.get?_foldl_erase, hfront, if_false, hget]
  | tick now =>
    have hget := hget.resolve_left fun hp => by cases he.1.symm.trans hp
    exact .inr ((onTick_eq b now).1 ▸ hget)
  | drained => exact .inr (hget.resolve_left fun hp => by cases he.symm.trans hp)
  | receiveError message => exact .inr (hget.resolve_left fun hp => by cases he.symm.trans hp)
  | stop => exact hget
  | headerBuilt => exact hget

/-- A datagram takes the frame with its number out of the table, whatever its checksum. -/
theorem gone_of_carries (h : Carries n e) (hn : n ≤ b.rc.messageNumber) : Gone n (b.step e) := by
  obtain ⟨data, recvPerf, stamp, rfl, hlen, rfl⟩ := h
  refine ⟨?_, hn.trans (messageNumber_mono b _)⟩
  cases hd : b.pending.get? (messageNumber data) with
  | none => exact (onDatagram_stray b recvPerf stamp hlen hd).1 ▸ hd
  | some i =>
    have hp := (onDatagram_answer b recvPerf stamp hlen hd).1
    simp only [BurnTest.step, hp, Dict.get?_erase, if_true]

/-! ## The response -/

/-- The row of any full-size response has the number in its header. -/
theorem WritesAnswer.number_eq (h : WritesAnswer b (b.onDatagram resp recvPerf stamp) n info resp
    recvPerf stamp) (hlen : resp.length = totalPacketSize) : messageNumber resp = n := by
  cases hd : b.pending.get? (messageNumber resp) with
  | none =>
    rw [WritesAnswer, (onDatagram_stray b recvPerf stamp hlen hd).2.1] at h
    have hrow := List.cons.inj (List.append_cancel_left h) |>.1
    exact (QccHeaderTx.decode_messageNumber resp).symm.trans (congrArg LogRow.msgNumber hrow)
  | some i =>
    rw [WritesAnswer, (onDatagram_answer b recvPerf stamp hlen hd).2.1] at h
    have hrow := List.cons.inj (List.append_cancel_left h) |>.1
    exact (QccHeaderTx.decode_messageNumber resp).symm.trans (congrArg LogRow.msgNumber hrow)

theorem Gone.not_writesAnswer (h : Gone n b) (hlen : resp.length = totalPacketSize) :
    ¬ WritesAnswer b (b.onDatagram resp recvPerf stamp) n info resp recvPerf stamp := by
  intro hw
  have hn := hw.number_eq hlen
  rw [WritesAnswer, (onDatagram_stray b recvPerf stamp hlen (hn ▸ h.1)).2.1] at hw
  have hrow := List.cons.inj (List.append_cancel_left hw) |>.1
  exact nomatch congrArg LogRow.result hrow

theorem Waits.writesAnswer (h : Waits n info b) (hb : b.phase ≠ .stopped)
    (hlen : resp.length = totalPacketSize)
    (hok : (QccHeaderTx.decode (resp.take headerSize)).checksumOk = true)
    (hn : messageNumber resp = n) :
    WritesAnswer b (b.onDatagram resp recvPerf stamp) n info resp recvPerf stamp := by
  have hget := h.1.resolve_left hb
  rw [WritesAnswer, (onDatagram_answer b recvPerf stamp hlen (hn.symm ▸ hget)).2.1]
  simp [answerRow, hok, QccHeaderTx.decode_messageNumber, hn]

/-! ## Runs -/

variable {tr pre mid post : List (BurnTest × Event)}

theorem Gone.run (h : Gone n b) (hr : machine.Run b tr b') : Gone n b' :=
  hr.invariant' h fun _ e hg _ => hg.step e

theorem Waits.run (h : Waits n info b) (hr : machine.Run b tr b')
    (hev : ∀ x ∈ tr, ¬ Evicts n x) (hc : ∀ x ∈ tr, ¬ Carries n x.2) : Waits n info b' :=
  hr.invariant (C := fun b e => ¬ Evicts n (b, e) ∧ ¬ Carries n e) h
    (fun _ _ hw he hc => hw.step he hc.1 hc.2) fun x hx => ⟨hev x hx, hc x hx⟩

theorem gone_of_run (hn : n ≤ b.rc.messageNumber) (hr : machine.Run b tr b')
    (hc : ¬ ∀ x ∈ tr, ¬ Carries n x.2) : Gone n b' := by
  simp only [not_forall, not_not] at hc
  obtain ⟨x, hx, hx₂⟩ := hc
  obtain ⟨tr₁, tr₂, rfl⟩ := List.append_of_mem hx
  obtain ⟨hrun, -, hrest⟩ := hr.middle
  have hle : n ≤ x.1.rc.messageNumber :=
    hrun.invariant' (I := fun b => n ≤ b.rc.messageNumber) hn fun b e h _ =>
      h.trans (messageNumber_mono b e)
  exact (gone_of_carries hx₂ hle).run hrest

/-- In any run, from any value of the message counter, the row of a frame is written as OK with the
frame's own send time and the data of a valid response to it, which comes before the frame is given
up, if and only if the frame's number fits into 32 bits and no full-size datagram before that
response carried this number. If the response is the first valid one, such a datagram is
corrupted. -/
theorem frame_row {config : BurnConfig} {rc : RcSettings} {t₀ : ℚ} {bindError : Option String}
    (hr : machine.Run (run config rc t₀ bindError)
      (pre ++ (b, .send now sendPerf sentAt none) ::
        (mid ++ (b', .datagram resp recvPerf stamp) :: post)) s)
    (hsent : now ≥ b.nextSend) (hresp : ValidEcho b.nextFrame resp)
    (hfresh : ∀ x ∈ mid, ¬ Evicts (b.rc.messageNumber + 1) x) :
    WritesAnswer b' (machine.step b' (.datagram resp recvPerf stamp)) (b.rc.messageNumber + 1)
        (b.outstanding sendPerf sentAt) resp recvPerf stamp ↔
      b.rc.messageNumber + 1 < 2 ^ 32 ∧
        ∀ x ∈ mid, ¬ Carries (b.rc.messageNumber + 1) x.2 := by
  obtain ⟨-, -, hafter⟩ := hr.middle
  obtain ⟨hrun, he, -⟩ := hafter.middle
  have hb' : b'.phase ≠ .stopped := fun h => nomatch he.1.symm.trans h
  have hnum : messageNumber resp = (b.rc.messageNumber + 1) % 2 ^ 32 :=
    hresp.messageNumber.trans b.messageNumber_nextFrame
  have hpost : Waits (b.rc.messageNumber + 1) (b.outstanding sendPerf sentAt)
      (machine.post (b, .send now sendPerf sentAt none)) := by
    simp only [Machine.post, machine, BurnTest.step, if_pos hsent]
    exact ⟨.inr (Dict.get?_set_self ..), le_rfl⟩
  generalize b.rc.messageNumber + 1 = n at *
  by_cases hn : n < 2 ^ 32
  · have hnum : messageNumber resp = n := hnum.trans (Nat.mod_eq_of_lt hn)
    by_cases hc : ∀ x ∈ mid, ¬ Carries n x.2
    · have hw := hpost.run hrun hfresh hc
      exact iff_of_true (hw.writesAnswer hb' hresp.length hresp.checksumOk hnum) ⟨hn, hc⟩
    · have hg := gone_of_run hpost.2 hrun hc
      exact iff_of_false (hg.not_writesAnswer hresp.length) fun h => hc h.2
  · refine iff_of_false (fun hw => hn ?_) fun h => hn h.1
    exact hw.number_eq hresp.length ▸ messageNumber_lt resp

/-! ## Examples -/

/-- A frame without slots is a valid response to itself. -/
theorem validEcho_self (h : b.config.isLinkTest = false) : ValidEcho b.nextFrame b.nextFrame := by
  have hframe : b.nextFrame =
      (b.rc.buildHeader b.config.commandId).1 ++ zeros qtrmBlockSize := by
    simp [nextFrame, BurnConfig.buildFrame, h, headerOnlyFrame]
  refine ⟨?_, ?_, rfl⟩
  · rw [hframe, List.length_append, RcSettings.buildHeader_length, zeros_length]
    rfl
  · rw [hframe, RcSettings.buildHeader]
    exact (QccHeaderTx.decode_checksumOk (by simp [QccHeaderRx.bodyBytes])).trans (by simp)

/-- A full-size datagram with the number 1 and a wrong checksum. -/
def corruptedDatagram : Bytes :=
  let body := zeros 6 ++ le32 1 ++ zeros 79
  body ++ [crc8 body + 1] ++ zeros qtrmBlockSize

theorem corruptedDatagram_length : corruptedDatagram.length = totalPacketSize := by
  simp [corruptedDatagram, qtrmBlockSize, totalPacketSize, headerSize, qtrmSlotSize, numQtrm]

theorem corruptedDatagram_number : messageNumber corruptedDatagram = 1 := by
  decide +kernel

theorem corruptedDatagram_checksum :
    (QccHeaderTx.decode (corruptedDatagram.take headerSize)).checksumOk = false := by
  have hne : ∀ c : UInt8, ¬ c = c + 1 := by
    intro c h
    have := congrArg UInt8.toNat h
    have := c.toNat_lt
    simp only [UInt8.toNat_add, UInt8.toNat_one] at *
    omega
  rw [corruptedDatagram, QccHeaderTx.decode_checksumOk (by simp)]
  simp [hne]

/-- The worker of the example before it sends the frame with the number 1, and behind. -/
def exampleReady : BurnTest := (exampleStart.step .proceed).step .drained

def exampleSent : BurnTest := { exampleReady.onSend 0 0 "10:00" none with phase := .evict }

def exampleDraining : BurnTest := { exampleSent with phase := .drain }

theorem exampleDraining_number : exampleDraining.rc.messageNumber = 1 := rfl

theorem exampleReady_step : exampleReady.step (.send 0 0 "10:00" none) = exampleSent := by
  have h : (0 : ℚ) ≥ exampleReady.nextSend := le_rfl
  simp only [step, if_pos h, exampleSent]

theorem exampleSent_front : exampleSent.pending.takeWhile (isStale 0) = [] := by
  have hp : exampleSent.pending = [(1, exampleReady.outstanding 0 "10:00")] := rfl
  rw [hp, List.takeWhile_cons_of_neg]
  norm_num [isStale, outstanding, staleTimeoutS]

theorem exampleSent_loop :
    ((exampleSent.step (.evict 0)).step (.tick 0)).step .proceed = exampleDraining := by
  have hevict : exampleSent.onEvict 0 = exampleSent := by
    simp only [onEvict, exampleSent_front]
    rfl
  have htick : ∀ phase, ({ exampleSent with phase } : BurnTest).onTick 0 =
      { exampleSent with phase } := by
    intro phase
    have h : ¬ ((0 : ℚ) - exampleSent.lastStatsTick ≥ statsIntervalS) := by
      have hl : exampleSent.lastStatsTick = 0 := rfl
      norm_num [hl, statsIntervalS]
    simp only [onTick, if_neg h]
    rfl
  simp only [step, hevict, htick]
  rfl

/-- The steps up to the one that sends the frame, and from there to the next datagrams. -/
def exampleBefore : List (BurnTest × Event) := machine.trace exampleStart [.proceed, .drained]

def exampleLoop : List (BurnTest × Event) :=
  machine.trace exampleSent [.evict 0, .tick 0, .proceed]

theorem exampleLoop_run : machine.Run exampleSent exampleLoop exampleDraining := by
  have hallow : machine.Allows exampleSent [.evict 0, .tick 0, .proceed] :=
    ⟨⟨rfl, le_rfl⟩, ⟨rfl, le_rfl⟩, rfl, trivial⟩
  exact exampleSent_loop ▸ hallow.run

theorem example_run (tr : List (BurnTest × Event)) (s : BurnTest)
    (hr : machine.Run exampleDraining tr s) :
    machine.Run exampleStart (exampleBefore ++ (exampleReady, .send 0 0 "10:00" none) ::
      (exampleLoop ++ tr)) s := by
  have hallow : machine.Allows exampleStart [.proceed, .drained] := ⟨rfl, rfl, trivial⟩
  have hsend : machine.Run exampleReady [(exampleReady, .send 0 0 "10:00" none)] exampleSent :=
    exampleReady_step ▸ .single ⟨rfl, le_rfl, le_rfl⟩
  exact hallow.run.append (hsend.append (exampleLoop_run.append hr))

theorem exampleLoop_keeps : ∀ x ∈ exampleLoop, ¬ Evicts 1 x := by
  rintro x hx ⟨now, he, hmem⟩
  have hcases : x = (exampleSent, .evict 0) ∨ x.2 = .tick 0 ∨ x.2 = .proceed := by
    simp only [exampleLoop, Machine.trace, List.mem_cons, List.not_mem_nil, or_false] at hx
    rcases hx with rfl | rfl | rfl
    · exact .inl rfl
    · exact .inr (.inl rfl)
    · exact .inr (.inr rfl)
  rcases hcases with rfl | h | h
  · cases he
    rw [exampleSent_front] at hmem
    cases hmem
  · cases h.symm.trans he
  · cases h.symm.trans he

theorem exampleLoop_silent : ∀ x ∈ exampleLoop, ∀ data recvPerf stamp,
    x.2 ≠ .datagram data recvPerf stamp := by
  intro x hx data recvPerf stamp he
  have hmem : x.2 ∈ Machine.events exampleLoop := List.mem_map_of_mem hx
  rw [exampleLoop, Machine.events_trace, he] at hmem
  simp at hmem

theorem run_datagrams (data₁ data₂ : Bytes) {recvPerf₁ recvPerf₂ : ℚ} (stamp₁ stamp₂ : String)
    (hb : b.phase = .drain) (h₁ : b.clock ≤ recvPerf₁) (h₂ : recvPerf₁ ≤ recvPerf₂) :
    machine.Run b [(b, .datagram data₁ recvPerf₁ stamp₁),
      (b.step (.datagram data₁ recvPerf₁ stamp₁), .datagram data₂ recvPerf₂ stamp₂)]
      ((b.step (.datagram data₁ recvPerf₁ stamp₁)).step (.datagram data₂ recvPerf₂ stamp₂)) := by
  refine .cons ⟨hb, h₁⟩ (.single ⟨?_, ?_⟩)
  · exact (onDatagram_phase b data₁ recvPerf₁ stamp₁).trans hb
  · exact (onDatagram_eq b data₁ recvPerf₁ stamp₁).2.2.1.trans_le h₂

/-- The response comes first. -/
theorem frame_row_first : ∃ s,
    machine.Run exampleStart (exampleBefore ++ (exampleReady, .send 0 0 "10:00" none) ::
      (exampleLoop ++ (exampleDraining, .datagram exampleReady.nextFrame 0 "10:01") :: [])) s ∧
    WritesAnswer exampleDraining
      (machine.step exampleDraining (.datagram exampleReady.nextFrame 0 "10:01")) 1
      (exampleReady.outstanding 0 "10:00") exampleReady.nextFrame 0 "10:01" := by
  have he : machine.enabled exampleDraining (.datagram exampleReady.nextFrame 0 "10:01") :=
    ⟨rfl, le_rfl⟩
  have hr := example_run _ _ (.single he)
  refine ⟨_, hr, (frame_row hr le_rfl (validEcho_self rfl) exampleLoop_keeps).2
    ⟨by decide, ?_⟩⟩
  rintro x hx ⟨data, recvPerf, stamp, he, -⟩
  exact exampleLoop_silent x hx data recvPerf stamp he

/-- A corrupted datagram with the number of the frame comes before the response to it, which is
then a stray one. -/
theorem corrupted_datagram_takes_frame : ∃ b' s,
    machine.Run exampleStart (exampleBefore ++ (exampleReady, .send 0 0 "10:00" none) ::
      (exampleLoop ++ [(exampleDraining, .datagram corruptedDatagram 0 "10:01"),
        (b', .datagram exampleReady.nextFrame 0 "10:02")])) s ∧
    (0 : ℚ) ≥ exampleReady.nextSend ∧ ValidEcho exampleReady.nextFrame exampleReady.nextFrame ∧
    ¬ ValidEcho exampleReady.nextFrame corruptedDatagram ∧ (∀ x ∈ exampleLoop, ¬ Evicts 1 x) ∧
    ¬ WritesAnswer b' (machine.step b' (.datagram exampleReady.nextFrame 0 "10:02")) 1
      (exampleReady.outstanding 0 "10:00") exampleReady.nextFrame 0 "10:02" := by
  have hresp := validEcho_self (b := exampleReady) rfl
  have hcarries : Carries 1 (.datagram corruptedDatagram 0 "10:01") :=
    ⟨_, _, _, rfl, corruptedDatagram_length, corruptedDatagram_number⟩
  have hgone := gone_of_carries hcarries exampleDraining_number.ge
  have hphase : exampleDraining.phase = .drain := rfl
  have hclock : exampleDraining.clock = 0 := rfl
  have hr := example_run _ _ (run_datagrams (b := exampleDraining) corruptedDatagram
    exampleReady.nextFrame "10:01" "10:02" hphase hclock.le (le_refl 0))
  generalize exampleDraining.step (.datagram corruptedDatagram 0 "10:01") = b' at hgone hr
  have hlen := hresp.length
  generalize exampleReady.outstanding 0 "10:00" = info
  have hnot : ∀ resp : Bytes, resp.length = totalPacketSize →
      ¬ WritesAnswer b' (machine.step b' (.datagram resp 0 "10:02")) 1 info resp 0 "10:02" :=
    fun resp h => hgone.not_writesAnswer h
  refine ⟨b', _, hr, le_rfl, hresp, fun h => ?_, exampleLoop_keeps, hnot _ hlen⟩
  exact nomatch corruptedDatagram_checksum.symm.trans h.checksumOk

end BurnTest

end QccGui
