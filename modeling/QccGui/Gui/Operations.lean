import QccGui.Gui.Acks
import QccGui.Gui.Sending

/-!
# Operations over the bootloader link

What the controller puts on the link while it performs a sequence of operations.

* `LinkOp`: an operation that the bootloader executes without leaving its request loop; `Performs`:
  the steps of the controller that perform a list of them.
* `relay`: what the QCC passes on of a frame.
* `LinkOp.stream`: the bytes of one operation; `performs_stream`: those of a list of operations.
-/

namespace QccGui

open Lib

/-- A Link Check, Get LRU Info, Authenticate, Verify or upload. -/
inductive LinkOp
  | linkCheck
  | lruInfo
  | authenticate (imageIsGolden : Bool)
  | verify (imageIsGolden : Bool)
  | upload (image : Bytes) (imageIsGolden : Bool)
  deriving DecidableEq, Repr

namespace LinkOp

def start : LinkOp → Controller.Start
  | linkCheck => .linkCheck
  | lruInfo => .lruInfo
  | authenticate golden => .authenticate golden
  | verify golden => .verify golden
  | upload image golden => .upload image golden

/-- The command that starts the operation. -/
def command : LinkOp → Bytes
  | linkCheck => buildLinkRequest
  | lruInfo => buildLruInfoRequest
  | authenticate golden => buildFirmwareUpdateCommand iapAuthenticate golden
  | verify golden => buildFirmwareUpdateCommand iapVerify golden
  | upload image golden =>
    buildBitstreamReceiveCommand rpPayloadSize (splitChunks image).length golden

/-- The packets behind the command. -/
def packets : LinkOp → List Bytes
  | upload image _ => chunkPackets (splitChunks image)
  | _ => []

@[simp] theorem command_length (op : LinkOp) : op.command.length = rpInnerCmdSize := by
  cases op <;> rfl

/-- All chunks of an upload are among the outputs. -/
def Complete (op : LinkOp) (out : List Signal) : Prop :=
  ∀ image golden, op = upload image golden → (dataFrames out).length = (splitChunks image).length

end LinkOp

/-! ## The relay -/

/-- What the QCC passes on of a frame: what is behind the header, with zeros up to a multiple of four
bytes. -/
def relay (frame : Bytes) : Bytes :=
  ljust (pad4 (frame.drop headerSize).length) (frame.drop headerSize)

def relayed (frames : List Bytes) : Bytes := frames.flatMap relay

/-- The bytes that an operation puts on the UART of a QTRM. -/
def LinkOp.stream (op : LinkOp) : Bytes :=
  ljust (pad4 rpInnerCmdSize) op.command ++
    op.packets.flatMap (ljust (pad4 (rpInnerCmdSize + rpPayloadSize)))

theorem LinkOp.stream_length (op : LinkOp) :
    op.stream.length = pad4 rpInnerCmdSize + pad4 (rpInnerCmdSize + rpPayloadSize) * op.packets.length := by
  simp [LinkOp.stream, List.length_flatMap, Nat.mul_comm]

theorem relay_of_drop {frame inner : Bytes} (h : frame.drop headerSize = inner) :
    relay frame = ljust (pad4 inner.length) inner := by rw [relay, h]

theorem chunkPackets_data {image pkt : Bytes} (h : pkt ∈ chunkPackets (splitChunks image)) :
    pkt.length = rpInnerCmdSize + rpPayloadSize := by
  obtain ⟨i, hi⟩ := List.mem_iff_getElem?.1 h
  rw [getElem?_chunkPackets] at hi
  obtain ⟨x, hx, rfl⟩ := Option.map_eq_some_iff.1 hi
  rw [List.length_append, buildBitstreamDataHeader_length, splitChunks_data hx]
  rfl

/-- The data frames of an upload carry its first chunks. -/
theorem Streamed.packets {image : Bytes} {out : List Signal} (h : Streamed image out) :
    (dataFrames out).map (·.drop headerSize) =
      (chunkPackets (splitChunks image)).take (dataFrames out).length := by
  induction out using List.reverseRecOn with
  | nil => rfl
  | append_singleton out s ih =>
    have hout : Streamed image out := fun before frame after he hl =>
      h before frame (after ++ [s]) (by simp [he]) hl
    by_cases hs : dataFrames [s] = []
    · rw [dataFrames_append, hs, List.append_nil, ih hout]
    · obtain ⟨frame, hf⟩ := List.exists_mem_of_ne_nil _ hs
      obtain ⟨hmem, hl⟩ := mem_dataFrames.1 hf
      obtain rfl := List.mem_singleton.1 hmem
      have hone : dataFrames [.send frame] = [frame] := by simp [dataFrames, sends, hl]
      obtain ⟨hget, -⟩ := h out frame [] rfl hl
      rw [dataFrames_append, hone, List.map_append, List.length_append, List.length_singleton,
        List.take_add_one, ih hout, hget]
      rfl

namespace Controller

variable {c c' : Controller} {e : Event} {op : LinkOp} {ops : List LinkOp} {tr tr' : List Step}

/-! ## Performing operations -/

/-- The send function has a connection. -/
def Connected (c : Controller) (_ : Event) : Prop := c.sendOk = true

/-- The frames that reach the QCC: those sent while there is a connection. -/
def carried (tr : List Step) : List Bytes :=
  tr.flatMap fun x => if x.1.sendOk then sends (machine.post x).out else []

/-- The session of one operation, from its accepted start to the event that ends it. An upload sends
all its chunks. -/
structure Session (op : LinkOp) (c : Controller) (tr : List Step) (c' : Controller) : Prop where
  accepts : c.Accepts op.start
  run : machine.Run c tr c'
  active : ∃ mid, tr = (c, .start op.start) :: mid ∧ ∀ y ∈ mid, y.1.op = some op.start.op
  idle : c'.op = none
  complete : op.Complete (outputs tr)

/-- From `c` the steps `tr` perform the operations `ops`, one session after the other, with other
events between the sessions. -/
inductive Performs (c : Controller) : List LinkOp → List Step → Controller → Prop
  | nil : Performs c [] [] c
  | idle {ops : List LinkOp} {tr : List Step} {d : Controller} {e : Event} : Performs c ops tr d →
      d.op = none → machine.enabled d e → (∀ what, e = .start what → ¬ d.Accepts what) →
      Performs c ops (tr ++ [(d, e)]) (machine.step d e)
  | session {ops : List LinkOp} {op : LinkOp} {tr tr' : List Step} {d c' : Controller} :
      Performs c ops tr d → Session op d tr' c' → Performs c (ops ++ [op]) (tr ++ tr') c'

theorem Performs.run (h : Performs c ops tr c') : machine.Run c tr c' := by
  induction h with
  | nil => exact .nil
  | idle _ _ he _ ih => exact ih.snoc he
  | session _ hs ih => exact ih.append hs.run

@[simp] theorem carried_nil : carried [] = [] := rfl

@[simp] theorem carried_append : carried (tr ++ tr') = carried tr ++ carried tr' := by
  simp [carried]

theorem carried_connected (h : Machine.Along Connected tr) : carried tr = sends (outputs tr) := by
  induction tr with
  | nil => rfl
  | cons x tr ih =>
    obtain ⟨hx, ht⟩ := Machine.along_cons.1 h
    have hx : x.1.sendOk = true := hx
    rw [carried, outputs, List.flatMap_cons, List.flatMap_cons, sends_append, if_pos hx]
    exact congrArg _ (ih ht)

/-- A connection stays unless it is lost. -/
theorem connected_run (hr : machine.Run c tr c') (hok : c.Ok) (hl : c.sendOk = true)
    (he : ∀ x ∈ tr, ∀ up, x.2 ≠ .link up) : Machine.Along Connected tr := by
  have h : (c'.Ok ∧ c'.sendOk = true) ∧ Machine.Along Connected tr := by
    induction hr with
    | nil => exact ⟨⟨hok, hl⟩, Machine.along_nil⟩
    | @snoc tr s e hr hen ih =>
      obtain ⟨⟨hsok, hsl⟩, halong⟩ := ih fun x hx => he x (List.mem_append_left _ hx)
      have hne : ∀ up, e ≠ .link up := he (s, e) (List.mem_append_right _ (List.mem_singleton_self _))
      refine ⟨⟨ok_handle hsok hen, ?_⟩, Machine.along_append.2 ⟨halong, Machine.along_cons.2
        ⟨hsl, Machine.along_nil⟩⟩⟩
      cases handle_effect hsok e with
      | same hsame => exact hsame.sendOk.trans hsl
      | retargeted _ heq => exact (congrArg sendOk heq).trans hsl
      | linked heq => exact absurd heq (hne _)
      | started _ _ hst => exact hst.sendOk.trans hsl
      | ended hend => exact hend.sendOk.trans hsl
  exact h.2

/-! ### Sessions of one command -/

/-- An event that neither starts a session nor belongs to an upload sends nothing. -/
theorem sends_quiet (hok : c.Ok) (ht : c.Tidy) (he : machine.enabled c e)
    (hop : c.op ≠ some .upload) (hs : ∀ what, e = .start what → ¬ c.Accepts what) :
    sends (c.handle e).out = [] := by
  cases handle_effect hok e with
  | same _ _ hsend =>
    rcases hsend with hsend | hu | rfl
    · exact hsend
    · exact absurd hu hop
    · exact absurd (ht.shot he).1 hop
  | retargeted _ h => rw [h]; rfl
  | linked _ h => rw [h]; rfl
  | started hst ha => exact absurd ha (hs _ hst)
  | ended h _ => exact h.sends

/-- An event of a session other than an upload. -/
theorem quiet_handle (hok : c.Ok) (ht : c.Tidy) (he : machine.enabled c e)
    (hop : c.op ≠ some .upload) (hs : ∀ what, e = .start what → ¬ c.Accepts what) :
    ((c.handle e).Ok ∧ (c.handle e).Tidy) ∧ sends (c.handle e).out = [] := by
  have hnc : NoCancelBeforeShot c e := by
    cases e with
    | cancel => exact ht.shots_zero hop
    | _ => trivial
  exact ⟨⟨ok_handle hok he, tidy_handle hok ht he hnc⟩, sends_quiet hok ht he hop hs⟩

theorem sends_start {what : Start} (ha : c.Accepts what) :
    sends (c.handle (.start what)).out = [c.cleared.startFrame what] :=
  (startOp_accepted (c := c.cleared) ha).sends

theorem startFrame_drop (c : Controller) (op : LinkOp) :
    (c.startFrame op.start).drop headerSize = op.command := by
  cases op <;> exact List.drop_left' (RcSettings.buildHeader_length ..)

/-- The steps of a session behind its start. -/
theorem session_quiet (hs : Session op c tr c') (hop : op.start.op ≠ .upload) (hok : c.Ok)
    (ht : c.Tidy) :
    (c'.Ok ∧ c'.Tidy) ∧ sends (outputs tr) = [c.cleared.startFrame op.start] := by
  obtain ⟨ha, hr, ⟨mid, rfl, hm⟩, -, -⟩ := hs
  obtain ⟨-, -, hmid⟩ := hr.cons_inv
  have hall := Machine.Run.history
    (P := fun tr d => (d.Ok ∧ d.Tidy) ∧ sends (outputs tr) = [])
    (C := fun d _ => d.op = some op.start.op) ?_ ?_ hmid fun y hy => hm y hy
  · refine ⟨hall.1, ?_⟩
    have ho : sends (outputs ((c, .start op.start) :: mid)) =
        sends (c.handle (.start op.start)).out ++ sends (outputs mid) := sends_append ..
    rw [ho, hall.2, sends_start ha]
    rfl
  · have he : machine.enabled c (.start op.start) := trivial
    exact ⟨⟨ok_handle hok he, tidy_handle hok ht he trivial⟩, rfl⟩
  · rintro tr d e - ⟨⟨hdok, hdt⟩, hsend⟩ he hd
    obtain ⟨hinv, hq⟩ := quiet_handle hdok hdt he (by simp [hd, hop])
      fun _ _ ha => by simpa [hd] using ha.1
    refine ⟨hinv, ?_⟩
    have ho : sends (outputs (tr ++ [(d, e)])) = sends (outputs tr) ++ sends (d.handle e).out := by
      simp [outputs, machine]
    rw [ho, hsend, hq]
    rfl

/-! ### Uploads -/

variable {image : Bytes}

/-- The data frames of an upload so far, and what follows for the state. -/
structure Uploading (image : Bytes) (out : List Signal) (c : Controller) : Prop where
  ok : c.Ok
  streamed : Streamed image out
  going : c.op = some .upload → c.Tidy ∧ Streaming image out c.cleared
  tidy : c.op ≠ some .upload → dataFrames out ≠ [] → c.Tidy

/-- One event of an upload. -/
theorem uploading_handle {out : List Signal} (h : Uploading image out c) (hop : c.op = some .upload)
    (he : machine.enabled c e) : Uploading image (out ++ (c.handle e).out) (c.handle e) ∧
      sends (c.handle e).out = dataFrames (c.handle e).out := by
  obtain ⟨ht, hst⟩ := h.going hop
  have hok : c.cleared.Ok := h.ok.congr rfl
  obtain ⟨hs, hgo⟩ := streaming_react hok (ht.congr rfl) rfl hst he
  have hconf : Confined image (fun _ _ => True) c.cleared :=
    ⟨hst.chunks, hst.count, nofun, fun _ _ _ => trivial⟩
  obtain ⟨hdata, -⟩ := confined_react (e := e) hok hconf (.inl hop)
    (fun _ _ ha => Option.some_ne_none _ (hop.symm.trans ha.1)) fun _ _ _ _ _ => trivial
  refine ⟨⟨ok_handle h.ok he, hs, fun hu => ⟨?_, (hgo hu).rebase⟩, fun hne hd => ?_⟩, ?_⟩
  · apply tidy_handle h.ok ht he
    cases e with
    | cancel =>
      simp [handle, react, cancel, cleared, hop, finish, Controller.emit] at hu
    | _ => trivial
  · apply tidy_handle h.ok ht he
    cases e with
    | cancel =>
      -- a cancelled upload that has sent a chunk has no one-shot left
      refine Nat.eq_zero_of_not_pos fun hp => hd ?_
      have hsent : (dataFrames out).length = 0 := by
        have := hst.sent
        simpa [cleared, sentCount, (ht.shot hp).2] using this
      have hcancel : sends (c.handle .cancel).out = [] := by
        simp [handle, react, cancel, cleared, hop, finish]
      rw [dataFrames_append, List.eq_nil_of_length_eq_zero hsent, dataFrames_of_sends hcancel]
      rfl
    | _ => trivial
  · exact (List.filter_eq_self.2 fun frame hf => by simpa using (hdata.sent frame hf).1).symm

/-- The steps of an upload from its start on. -/
theorem uploading_run {golden : Bool} (hok : c.Ok) (ht : c.Tidy) (ha : c.Accepts (.upload image golden))
    (hr : machine.Run (c.handle (.start (.upload image golden))) tr c')
    (hm : ∀ y ∈ tr, y.1.op = some .upload) :
    Uploading image (outputs ((c, .start (.upload image golden)) :: tr)) c' ∧
      sends (outputs tr) = dataFrames (outputs tr) := by
  have he : machine.enabled c (.start (.upload image golden)) := trivial
  have hstart : Streaming image [] (c.handle (.start (.upload image golden))) := streaming_start ht ha
  let x : Step := (c, .start (.upload image golden))
  refine Machine.Run.history
    (P := fun tr d => Uploading image (outputs (x :: tr)) d ∧
      sends (outputs tr) = dataFrames (outputs tr))
    (C := fun d _ => d.op = some .upload) ?_ ?_ hr fun y hy => hm y hy
  · have ho : outputs [x] = (c.handle (.start (.upload image golden))).out := by simp [outputs, machine, x]
    rw [ho]
    refine ⟨⟨ok_handle hok he, hstart.streamed, fun _ => ⟨tidy_handle hok ht he trivial, hstart.rebase⟩,
      fun hne => absurd hstart.op hne⟩, rfl⟩
  · rintro tr d e - ⟨hup, hsends⟩ he hop
    obtain ⟨hup', hdata⟩ := uploading_handle hup hop he
    have ho : outputs (x :: (tr ++ [(d, e)])) = outputs (x :: tr) ++ (d.handle e).out := by
      simp [outputs, machine]
    have ho' : outputs (tr ++ [(d, e)]) = outputs tr ++ (d.handle e).out := by simp [outputs, machine]
    rw [ho, ho', sends_append, dataFrames_append, hsends, hdata]
    exact ⟨hup', rfl⟩

/-- The session of an upload that sends all its chunks. -/
theorem session_upload {golden : Bool} (hs : Session (.upload image golden) c tr c') (hok : c.Ok)
    (ht : c.Tidy) : (c'.Ok ∧ c'.Tidy) ∧ ∃ frames,
      sends (outputs tr) = c.cleared.startFrame (.upload image golden) :: frames ∧
      frames.map (·.drop headerSize) = chunkPackets (splitChunks image) := by
  obtain ⟨ha, hr, ⟨mid, rfl, hm⟩, hidle, hcomplete⟩ := hs
  have hlen := hcomplete image golden rfl
  obtain ⟨-, -, hmid⟩ := hr.cons_inv
  have hacc : c.Accepts (.upload image golden) := ha
  let x : Step := (c, .start (.upload image golden))
  obtain ⟨hup, hsends⟩ := uploading_run hok ht hacc hmid hm
  have hne : dataFrames (outputs (x :: mid)) ≠ [] := fun h0 => by
    have hpos := splitChunks_length_pos hacc.2.2
    have hlen' : (dataFrames (outputs (x :: mid))).length = (splitChunks image).length := hlen
    rw [h0, List.length_nil] at hlen'
    omega
  refine ⟨⟨hup.ok, hup.tidy (by simp [hidle]) hne⟩, dataFrames (outputs mid), ?_, ?_⟩
  · have ho : sends (outputs ((c, .start (.upload image golden)) :: mid)) =
        sends (c.handle (.start (.upload image golden))).out ++ sends (outputs mid) := sends_append ..
    rw [← hsends]
    apply ho.trans
    rw [sends_start hacc]
    rfl
  · have hfirst : dataFrames (outputs (x :: mid)) = dataFrames (outputs mid) := by
      have ho : outputs (x :: mid) = (c.handle (.start (.upload image golden))).out ++ outputs mid := rfl
      rw [ho, dataFrames_append, dataFrames, sends_start hacc]
      simp [startFrame_length]
    have hp := hup.streamed.packets
    rw [show (dataFrames (outputs (x :: mid))).length = _ from hlen,
      List.take_of_length_le (by simp), hfirst] at hp
    exact hp

/-- An upload that has come to its grace phase is a session once the timer fires. -/
theorem session_of_grace {golden : Bool} {es : List Event} (hok : c.Ok) (ht : c.Tidy)
    (ha : c.Accepts (.upload image golden))
    (hallow : machine.Allows (c.handle (.start (.upload image golden))) es)
    (hgo : ∀ y ∈ machine.trace (c.handle (.start (.upload image golden))) es, y.1.op = some .upload)
    (hgrace : InGrace image (machine.exec (c.handle (.start (.upload image golden))) es)) :
    Session (.upload image golden) c
      (machine.trace c (.start (.upload image golden) :: (es ++ [.timer])))
      (machine.exec c (.start (.upload image golden) :: (es ++ [.timer]))) := by
  have hpos := splitChunks_length_pos ha.2.2
  obtain ⟨hup, -⟩ := uploading_run hok ht ha hallow.run hgo
  have htrace : machine.trace c (.start (.upload image golden) :: (es ++ [.timer])) =
      (c, .start (.upload image golden)) ::
        (machine.trace (c.handle (.start (.upload image golden))) es ++
          [(machine.exec (c.handle (.start (.upload image golden))) es, .timer)]) :=
    congrArg (_ :: ·) Machine.trace_append
  have hexec : machine.exec c (.start (.upload image golden) :: (es ++ [.timer])) =
      (machine.exec (c.handle (.start (.upload image golden))) es).handle .timer := by
    rw [Machine.exec_cons, Machine.exec_append]
    rfl
  rw [htrace, hexec]
  have hrun := hallow.run
  generalize machine.trace (c.handle (.start (.upload image golden))) es = tr at *
  generalize machine.exec (c.handle (.start (.upload image golden))) es = d at *
  have hend : Ended .upload d.cleared (d.handle .timer) :=
    ended_onTimer_upload (hup.ok.congr rfl) hgrace.op hgrace.timer
  refine ⟨ha, .cons trivial (hrun.snoc hgrace.timer), ⟨_, rfl, fun y hy => ?_⟩, hend.after, ?_⟩
  · rcases List.mem_append.1 hy with hy | hy
    · exact hgo y hy
    · obtain rfl := List.mem_singleton.1 hy
      exact hgrace.op
  · rintro image' golden' heq
    obtain ⟨rfl, rfl⟩ := LinkOp.upload.inj heq
    have hsent : (dataFrames (outputs ((c, .start (.upload image golden)) :: tr))).length =
        d.sentCount := by
      have := (hup.going hgrace.op).2.sent
      rwa [show d.cleared.out = [] from rfl, List.append_nil] at this
    have htimer : dataFrames (d.handle .timer).out = [] := dataFrames_of_sends hend.sends
    have hout : outputs ((c, .start (.upload image golden)) :: (tr ++ [(d, .timer)])) =
        outputs ((c, .start (.upload image golden)) :: tr) ++ (d.handle .timer).out := by
      simp [outputs, machine]
    rw [hout, dataFrames_append, htimer, List.append_nil, hsent, sentCount, hgrace.current]
    exact Nat.sub_add_cancel hpos

/-- The events of an upload whose chunks are acknowledged by the frames `raws`. -/
def uploadEvents (image : Bytes) (golden : Bool) (raws : List Bytes) : List Event :=
  .start (.upload image golden) :: (.shot :: raws.map .frame ++ [.timer])

theorem allows_frames (c : Controller) (raws : List Bytes) :
    machine.Allows c (raws.map .frame) := by
  induction raws generalizing c with
  | nil => trivial
  | cons raw raws ih => exact ⟨trivial, ih _⟩

/-- An upload that is acknowledged chunk for chunk is a session. -/
theorem session_acked {golden : Bool} {raws : List Bytes} (hok : c.Ok) (ht : c.Tidy)
    (ha : c.Accepts (.upload image golden)) (hl : c.sendOk = true)
    (hlen : raws.length = (splitChunks image).length)
    (hack : ∀ i raw, raws[i]? = some raw → AckFrame raw i) :
    Session (.upload image golden) c (machine.trace c (uploadEvents image golden raws))
      (machine.exec c (uploadEvents image golden raws)) := by
  have hpos := splitChunks_length_pos ha.2.2
  obtain ⟨hin₀, hp⟩ := inFlight_start ha hl
  have hok₀ : (c.handle (.start (.upload image golden))).Ok :=
    ok_handle (e := .start (.upload image golden)) hok trivial
  obtain ⟨x, hx⟩ : ∃ x, (splitChunks image)[0]? = some x := ⟨_, List.getElem?_eq_getElem hpos⟩
  obtain ⟨hin₁, -⟩ := inFlight_shot hok₀ hin₀ hp hx
  obtain ⟨hmid, hgrace⟩ := inGrace_acks raws hin₁ (List.ne_nil_of_length_pos (hlen ▸ hpos)) (by omega)
    fun i raw hi => by
      rw [Nat.zero_add]
      exact hack i raw hi
  refine session_of_grace hok ht ha ⟨hp, allows_frames _ raws⟩ (fun y hy => ?_) hgrace
  rcases List.mem_cons.1 hy with rfl | hy
  · exact hin₀.op
  · exact hmid y hy

/-! ### Sequences -/

/-- The bytes of one session. -/
theorem session_stream (hs : Session op c tr c') (hok : c.Ok) (ht : c.Tidy) :
    (c'.Ok ∧ c'.Tidy) ∧ relayed (sends (outputs tr)) = op.stream := by
  have hcmd : relay (c.cleared.startFrame op.start) = ljust (pad4 rpInnerCmdSize) op.command := by
    rw [relay_of_drop (startFrame_drop _ _), LinkOp.command_length]
  by_cases hop : op.start.op = .upload
  · obtain ⟨image, golden, rfl⟩ : ∃ image golden, op = .upload image golden := by
      cases op <;> simp_all [LinkOp.start, Start.op]
    obtain ⟨hinv, frames, hsends, hpkts⟩ := session_upload hs hok ht
    refine ⟨hinv, ?_⟩
    have hrelay : ∀ frame ∈ frames,
        relay frame = ljust (pad4 (rpInnerCmdSize + rpPayloadSize)) (frame.drop headerSize) := by
      intro frame hf
      have hmem : frame.drop headerSize ∈ chunkPackets (splitChunks image) :=
        hpkts ▸ List.mem_map_of_mem hf
      rw [relay, chunkPackets_data hmem]
    rw [hsends, relayed, List.flatMap_cons, List.flatMap_congr hrelay, LinkOp.stream, ← List.flatMap_map,
      hpkts]
    exact congrArg (· ++ _) hcmd
  · obtain ⟨hinv, hsends⟩ := session_quiet hs hop hok ht
    refine ⟨hinv, ?_⟩
    have hnone : op.packets = [] := by
      cases op <;> first | rfl | exact absurd rfl hop
    rw [hsends, LinkOp.stream, hnone, relayed, List.flatMap_singleton, hcmd, List.flatMap_nil,
      List.append_nil]

/-- The bytes that reach the UART of a QTRM while the operations are performed are those of the
operations, in order. -/
theorem performs_stream (h : Performs c ops tr c') (hok : c.Ok) (ht : c.Tidy) :
    (c'.Ok ∧ c'.Tidy) ∧ relayed (sends (outputs tr)) = ops.flatMap LinkOp.stream := by
  have happ : ∀ tr₁ tr₂ : List Step, relayed (sends (outputs (tr₁ ++ tr₂))) =
      relayed (sends (outputs tr₁)) ++ relayed (sends (outputs tr₂)) := by
    intro tr₁ tr₂
    rw [outputs, List.flatMap_append, sends_append, relayed, List.flatMap_append]
    rfl
  induction h with
  | nil => exact ⟨⟨hok, ht⟩, rfl⟩
  | @idle ops tr d e _ hop he hs ih =>
    obtain ⟨⟨hdok, hdt⟩, hstream⟩ := ih
    obtain ⟨hinv, hq⟩ := quiet_handle hdok hdt he (by simp [hop]) hs
    refine ⟨hinv, ?_⟩
    have ho : sends (outputs [(d, e)]) = [] := by
      rw [← hq]
      simp [outputs, machine]
    rw [happ, ho, hstream]
    exact List.append_nil _
  | session _ hs ih =>
    obtain ⟨⟨hdok, hdt⟩, hstream⟩ := ih
    obtain ⟨hinv, hsession⟩ := session_stream hs hdok hdt
    rw [happ, hstream, hsession, List.flatMap_append, List.flatMap_singleton]
    exact ⟨hinv, rfl⟩

end Controller

end QccGui
