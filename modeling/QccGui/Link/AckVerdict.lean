import QccGui.Gui.Verdict
import QccGui.Link.AckMatrix
import QccGui.Link.Codec

/-!
# The status byte of an acknowledgement

The firmware writes 1 for pass and 0 for fail; the GUI takes bit 1 for a failure.

* `PassOrFail`: the verdicts of the firmware, with their codes.
* `Decoded`: the GUI reads the packet as the firmware means it.
* `FailureHeld`: no upload takes a failed packet for a passed one. `FailureAdvances`: what a failed
  packet does to the upload instead.
* `ack_verdicts`: the GUI decodes and holds the verdict of the pass code only.
-/

namespace QccGui

open Lib Firmware

/-- `pass_or_fail`: "1 = pass and 0 = fail". -/
inductive PassOrFail
  | fail
  | pass
  deriving DecidableEq, Repr

namespace PassOrFail

def code : PassOrFail → UInt8
  | fail => 0
  | pass => 1

/-- The packet with this verdict is read as the acknowledgement of `index`, with a correct check
byte, and as a failure if it is one. -/
def Decoded (v : PassOrFail) (index : Nat) : Prop :=
  ∃ base passFail, parseSlot (receivePacketAck index v.code) .bitstream =
      .ok (some (.bitstreamAck base index passFail)) ∧
    base.checksumOk = true ∧ (transferFailed passFail = true ↔ v = fail)

/-- A frame that an upload receives does not turn a failed packet in it into a pass of the matrix,
and does not move the upload on if it brings nothing else. -/
def FailureHeld (v : PassOrFail) (index : Nat) : Prop :=
  v = fail → ∀ (rc : RcSettings) (tr : List Controller.Step) (c : Controller) (raw : Bytes),
    Controller.machine.Run (Controller.init rc) tr c → c.op = some .upload →
    raw.length = totalPacketSize →
    (∀ q, rpSlot raw q = receivePacketAck index v.code →
      ((c.handle (.frame raw)).ackMatrix q).get? index = some true →
      (c.ackMatrix q).get? index = some true) ∧
    ((∀ q, rpSlot raw q = zeros 10 ∨ rpSlot raw q = receivePacketAck index v.code) →
      (c.handle (.frame raw)).uploadPhase = c.uploadPhase ∧
      (c.handle (.frame raw)).currentChunk = c.currentChunk)

/-- A failed packet of the chunk in flight moves the upload on to the next chunk, and from the last one
to the grace window. -/
def FailureAdvances (index : Nat) : Prop :=
  ∀ (rc : RcSettings) (tr : List Controller.Step) (c : Controller) (q : Qtrm),
    Controller.machine.Run (Controller.init rc) tr c → c.op = some .upload → c.sendOk = true →
    c.uploadPhase = some .stream → c.currentChunk = some index → index < c.chunkCount →
    let c' := c.handle (.frame (oneSlot q (receivePacketAck index fail.code)))
    (index + 1 < c.chunkCount → c'.currentChunk = some (index + 1)) ∧
      (index + 1 = c.chunkCount → c'.uploadPhase = some .grace)

variable {v : PassOrFail} {index : Nat}

/-! ## The packet -/

theorem parseSlot_receivePacketAck (hi : index < 65536) (result : UInt8) :
    ∃ base, parseSlot (receivePacketAck index result) .bitstream =
      .ok (some (.bitstreamAck base index result)) ∧ base.checksumOk = true := by
  have hw := word16_byte hi
  rw [receivePacketAck, getCheckSum_eq, parseSlot_sealed, hw]
  exact ⟨_, rfl, rfl⟩

/-- Neither code has bit 1. -/
theorem transferFailed_code (v : PassOrFail) : transferFailed v.code = false := by
  cases v <;> decide

theorem passAck_code (hi : index < 65536) (v : PassOrFail) :
    PassAck (receivePacketAck index v.code) index := by
  obtain ⟨base, hp, -⟩ := parseSlot_receivePacketAck hi v.code
  exact ⟨base, v.code, hp, transferFailed_code v⟩

theorem decoded_iff (hi : index < 65536) : v.Decoded index ↔ v = pass := by
  obtain ⟨base, hp, hok⟩ := parseSlot_receivePacketAck hi v.code
  have hf := transferFailed_code v
  constructor
  · rintro ⟨base', passFail, hp', -, hiff⟩
    obtain ⟨-, -, rfl⟩ : base = base' ∧ index = index ∧ v.code = passFail := by
      simpa using hp.symm.trans hp'
    rw [hf] at hiff
    cases v with
    | fail => exact absurd (hiff.2 rfl) (by decide)
    | pass => rfl
  · rintro rfl
    exact ⟨base, _, hp, hok, by rw [hf]; simp⟩

/-! ## The upload -/

section

variable {c : Controller}

/-- The packet in the slot of one QTRM of a frame. -/
theorem oneAck_code (hi : index < 65536) (v : PassOrFail) (q : Qtrm) :
    Controller.OneAck (oneSlot q (receivePacketAck index v.code)) q index :=
  Controller.oneAck_oneSlot (Broadcast.receivePacketAck_length index _) (passAck_code hi v) q

/-- Whatever the verdict, the matrix gets a pass. -/
theorem passes_code (hi : index < 65536) (v : PassOrFail) (q : Qtrm) (hok : c.Ok)
    (hop : c.op = some .upload) (hs : c.sendOk = true) (hlt : index < c.chunkCount) :
    ((c.handle (.frame (oneSlot q (receivePacketAck index v.code)))).ackMatrix q).get? index =
      some true := by
  have hone := oneAck_code hi v q
  obtain ⟨base, pf, hparse, hpf⟩ := hone.pass
  have hturn := Controller.turned_onFrame (c := c.cleared) (hok.congr rfl) hop hs rfl hone.length
  refine (hturn.passed q index).2 (.inr ⟨List.mem_finRange q, hlt, ?_⟩)
  rw [Controller.ackOf, hparse]
  simp [hpf]

/-- A failed packet of the chunk in flight moves the upload on. -/
theorem failed_ack_advances (q : Qtrm) (hok : c.Ok) (hop : c.op = some .upload)
    (hs : c.sendOk = true) (hph : c.uploadPhase = some .stream)
    (hcur : c.currentChunk = some index) (hi : index < 65536) (hlt : index < c.chunkCount) :
    let c' := c.handle (.frame (oneSlot q (receivePacketAck index fail.code)))
    (index + 1 < c.chunkCount → c'.currentChunk = some (index + 1)) ∧
      (index + 1 = c.chunkCount → c'.uploadPhase = some .grace) := by
  have hone := oneAck_code hi fail q
  have hrec := Controller.recorded_setAck { c.cleared with gotAnyFrame := true } q index
  generalize hset : ({ c.cleared with gotAnyFrame := true } : Controller).setAck q index true = e
    at hrec
  have hecur : e.currentChunk = some index := (Controller.currentChunk_of_core hrec.core).trans hcur
  have hcount : e.chunkCount = c.chunkCount := Controller.chunkCount_of_core hrec.core
  have hchunks : e.chunks = c.chunks := Controller.chunks_of_core hrec.core
  -- the frame does what its one slot does
  have hframe : ∀ d : Controller, e.sendNextChunk false = d → d.op = some .upload →
      d.raised = false → ∃ text, c.handle (.frame (oneSlot q (receivePacketAck index fail.code))) =
        d.emit (.logFrame (oneSlot q (receivePacketAck index fail.code)) false text) := by
    intro d hd hdop hdr
    refine Controller.onFrame_oneAck (c := c.cleared) hone hop (fun hn => by
      cases hph.symm.trans hn) rfl (fun base pf hpf => ?_) hdop hdr
    rw [Controller.dispatchSlot_current (c := { c.cleared with gotAnyFrame := true }) hop hlt hph
      hcur q hpf, hset, hd]
  intro c'
  constructor
  · intro hnext
    have hin : index + 1 < c.chunks.length := hok.count ▸ hnext
    have hx : c.chunks[index + 1]? = some c.chunks[index + 1] := List.getElem?_eq_getElem hin
    obtain ⟨d, f, hsend, hcore, -, hraised, -, -⟩ := Controller.sendNextChunk_connected (c := e)
      (hrec.sendOk.trans hs) hecur (by omega) (by rw [hchunks]; exact hx)
    obtain ⟨text, he⟩ := hframe d hsend
      ((congrArg Controller.Core.op hcore).trans ((Controller.op_of_core hrec.core).trans hop)) hraised
    have hc' : c' = _ := he
    rw [hc']
    exact congrArg Controller.Core.currentChunk hcore
  · intro hlast
    have hsend : e.sendNextChunk false = e.enterGrace := by
      simp [Controller.sendNextChunk, Controller.nextIndex, hecur, hcount, hlast]
    obtain ⟨text, he⟩ := hframe _ hsend ((Controller.op_of_core hrec.core).trans hop) hrec.raised
    have hc' : c' = _ := he
    rw [hc']
    rfl

/-- Just after its start an upload waits for the acknowledgements of its chunks. -/
theorem upload_of_chunks (index : Nat) : ∃ tr c, Controller.machine.Run
      (Controller.init Controller.sampleSettings) tr c ∧ c.op = some .upload ∧ c.sendOk = true ∧
    index < c.chunkCount ∧ ∀ q, c.ackMatrix q = [] := by
  have hlen : (zeros (4096 * (index + 1))).length = 4096 * (index + 1) := zeros_length _
  have hcount := Controller.splitChunks_length (zeros (4096 * (index + 1)))
  generalize zeros (4096 * (index + 1)) = image at hlen hcount
  have ha : gateOpened.Accepts (.upload image false) := by
    refine ⟨rfl, rfl, ?_⟩
    rintro rfl
    simp at hlen
  obtain ⟨rc, o, hst⟩ := Controller.startUpload_connected (c := gateOpened.cleared) ha rfl
  have he : Controller.machine.enabled gateOpened (.start (.upload image false)) := trivial
  refine ⟨_, _, gateOpened_run.snoc he, ?_⟩
  have hg : Controller.machine.step gateOpened (.start (.upload image false)) = _ := hst
  rw [hg]
  refine ⟨rfl, rfl, ?_, fun q => rfl⟩
  dsimp only
  omega

end

/-- A failed packet becomes a pass of the matrix. -/
theorem not_failureHeld (hi : index < 65536) : ¬ fail.FailureHeld index := by
  intro h
  obtain ⟨tr, c, hr, hop, hs, hlt, hempty⟩ := upload_of_chunks index
  have hone := oneAck_code hi fail 0
  obtain ⟨hrec, -⟩ := h rfl _ tr c _ hr hop hone.length
  have hslot : rpSlot (oneSlot 0 (receivePacketAck index fail.code)) 0 =
      receivePacketAck index fail.code := by
    rw [rpSlot_oneSlot (Broadcast.receivePacketAck_length index _), if_pos rfl]
  have hpass := hrec 0 hslot (passes_code hi fail 0 (Controller.run_ok hr) hop hs hlt)
  rw [hempty 0] at hpass
  cases hpass

/-- The two ends agree on a verdict, in the packet and in what an upload makes of it, only if it is
a pass. A failure does to the upload what a pass does. -/
theorem ack_verdicts (hi : index < 65536) (v : PassOrFail) :
    (v.Decoded index ↔ v = pass) ∧ (v.FailureHeld index ↔ v = pass) ∧ FailureAdvances index := by
  refine ⟨decoded_iff hi, ⟨fun h => ?_, ?_⟩, ?_⟩
  · cases v with
    | fail => exact absurd h (not_failureHeld hi)
    | pass => rfl
  · rintro rfl hv
    cases hv
  · exact fun rc tr c q hr hop hs hph hcur hlt =>
      failed_ack_advances q (Controller.run_ok hr) hop hs hph hcur hi hlt

/-- The acknowledgements of packet 7. -/
theorem ack_verdicts_seven : (pass.Decoded 7 ∧ pass.FailureHeld 7) ∧
    (¬ fail.Decoded 7 ∧ ¬ fail.FailureHeld 7) ∧ FailureAdvances 7 := by
  have hindex : 7 < 65536 := by decide
  obtain ⟨hdecoded, hheld, hadvances⟩ := ack_verdicts hindex pass
  obtain ⟨hdecoded', hheld', -⟩ := ack_verdicts hindex fail
  exact ⟨⟨hdecoded.2 rfl, hheld.2 rfl⟩, ⟨fun h => absurd (hdecoded'.1 h) (by decide),
    fun h => absurd (hheld'.1 h) (by decide)⟩,
    hadvances⟩

/-- The acknowledgement of packet 0 as failed. -/
theorem failed_ack_taken_for_pass : ¬ ∀ (index : Nat) (v : PassOrFail), index < 65536 →
    v.Decoded index ∧ v.FailureHeld index := by
  intro hall
  exact not_failureHeld (by decide) (hall 0 fail (by decide)).2

end PassOrFail

end QccGui
