import QccGui.Firmware.Region

/-!
# Corrupted commands

What the bootloader does with a received command that fails the check its GUI counterpart makes of
every reply: the first byte is 0xAA and the tenth one is the XOR of the nine before it.

* `Corrupted`: the command fails the check; `NoEffect`: handling it changed nothing.
* `Effective`: the commands that the dispatch acts on.
* `serve_corrupted`: `wait_for_new_request` does not make the check, so a corrupted command has no
  effect exactly when it is not effective; `corrupted_commands`: the same for every run.
-/

namespace QccGui.Firmware

open Lib

/-- The header byte or the check byte of a command is wrong. -/
def Corrupted (cmd : Bytes) : Prop := cmd.getD 0 0 ≠ 0xAA ∨ cmd.getD 9 0 ≠ xorSum (cmd.take 9)

instance (cmd : Bytes) : Decidable (Corrupted cmd) := inferInstanceAs (Decidable (_ ∨ _))

/-- An act that erases or programs nothing, runs no IAP service and switches no mode output. -/
def Act.Quiet : Act → Prop
  | .tx _ => True
  | _ => False

/-- Between `b` and `b'` the firmware erased and programmed nothing, ran no IAP service, changed no
mode, and did not enter the loop of `recieve_bit_stream`. -/
structure NoEffect (b b' : Boot) : Prop where
  quiet : ∃ as, b'.dev.log = b.dev.log ++ as ∧ ∀ a ∈ as, a.Quiet
  flash : b'.dev.flash = b.dev.flash
  request : ∀ total size flag k, b'.mode ≠ .bitStream total size flag k

/-- The commands that do something other than reply: the mode change, an IAP service, and a transfer
that has packets or a golden image. -/
def Effective (cmd : Bytes) : Prop :=
  let at' (i : Nat) : UInt8 := cmd.getD i 0
  at' 2 = 0x32 ∨
  at' 2 = 0x36 ∧ (0x0F &&& at' 5 = 1 ∨ 0x0F &&& at' 5 = 2 ∨ 0x0F &&& at' 5 = 3) ∨
  at' 2 = 0x33 ∧ (0 < word16 (at' 7) (at' 8) ∨ at' 3 ≠ 0)

instance (cmd : Bytes) : Decidable (Effective cmd) := inferInstanceAs (Decidable (_ ∨ _))

section

variable {d : Dev} {env : Env} {cmd : Bytes}

theorem NoEffect.refl : NoEffect ⟨d, .request⟩ ⟨d, .request⟩ :=
  ⟨⟨[], by simp, by simp⟩, rfl, nofun⟩

/-- A reply is no effect. -/
theorem noEffect_reply {lru : LruInfo} {packet : Bytes} :
    NoEffect ⟨d, .request⟩ ⟨{ d with lru }.act (.tx packet), .request⟩ :=
  ⟨⟨[.tx packet], rfl, by simp [Act.Quiet]⟩, rfl, nofun⟩

/-- An act that is not quiet is an effect. -/
theorem not_noEffect {b b' : Boot} {a : Act} {as : List Act} (h : b'.dev.log = b.dev.log ++ as)
    (ha : a ∈ as) (hq : ¬ a.Quiet) : ¬ NoEffect b b' := by
  rintro ⟨⟨as', h', hall⟩, -, -⟩
  obtain rfl := List.append_cancel_left (h.symm.trans h')
  exact hq (hall a ha)

/-- A transfer that is announced has no effect if it has no packet and its image is not golden. -/
theorem noEffect_recieveBitStream {total size : Nat} {flag : UInt8} :
    NoEffect ⟨d, .request⟩ (recieveBitStream d total size flag) ↔ ¬ (0 < total ∨ flag ≠ 0) := by
  unfold recieveBitStream
  by_cases ht : 0 < total
  · rw [if_pos ht]
    exact iff_of_false (fun h => h.request _ _ _ _ rfl) (fun h => h (.inl ht))
  · rw [if_neg ht, afterBitStream]
    by_cases hf : flag = 0
    · rw [if_neg (by simp [hf])]
      exact iff_of_true NoEffect.refl (by simp [ht, hf])
    · rw [if_pos hf]
      exact iff_of_false (not_noEffect rfl (.head _) id) (by simp [hf])

/-- What `wait_for_new_request` does with a command, whether it is corrupted or not. -/
theorem serve_noEffect : NoEffect ⟨d, .request⟩ (serve d env cmd) ↔ ¬ Effective cmd := by
  have hmode : ¬ NoEffect ⟨d, .request⟩ (modeChangeMssToFab d env) := by
    unfold modeChangeMssToFab
    dsimp only
    split
    · rw [← Dev.acts_append]
      exact not_noEffect (Dev.acts_log ..) (.head _) id
    · exact not_noEffect (Dev.acts_log ..) (.head _) id
  have hpoll : ∀ mode flag, ¬ NoEffect ⟨d, .request⟩ (iapPoll d env mode flag) := by
    intro mode flag
    have hlog : (iapPoll d env mode flag).dev.log =
        d.log ++ [.initiateIap mode (iapAddress flag), .tx (iapRes mode env.iapStatus)] := by
      simp [iapPoll]
    exact not_noEffect hlog (.head _) id
  have hprogram : ∀ flag, ¬ NoEffect ⟨d, .request⟩ (iapProgram d env flag) := fun flag =>
    not_noEffect rfl (.head _) id
  -- the cases of the dispatch, in its order
  rw [serve, headerAndCheckSumCheck, if_pos rfl]
  dsimp only
  unfold Effective
  dsimp only
  by_cases h30 : cmd.getD 2 0 = 0x30
  · have hlink : NoEffect ⟨d, .request⟩ ⟨d.act (.tx linkRes), .request⟩ := noEffect_reply
    simp only [h30]
    simpa using hlink
  by_cases h33 : cmd.getD 2 0 = 0x33
  · simp only [h33]
    generalize cmd.getD 3 0 = flag
    simpa using noEffect_recieveBitStream
  by_cases h36 : cmd.getD 2 0 = 0x36
  · simp only [h36]
    by_cases h1 : 0x0F &&& cmd.getD 5 0 = 1
    · simp only [h1]
      simp [hpoll]
    by_cases h2 : 0x0F &&& cmd.getD 5 0 = 2
    · simp only [h2]
      simp [hprogram]
    by_cases h3 : 0x0F &&& cmd.getD 5 0 = 3
    · simp only [h3]
      simp [hpoll]
    · simp only [h1, h2, h3]
      simpa using NoEffect.refl
  by_cases h31 : cmd.getD 2 0 = 0x31
  · simp only [h31]
    simpa using noEffect_reply
  by_cases h32 : cmd.getD 2 0 = 0x32
  · simp only [h32]
    simpa using hmode
  · simp only [h30, h33, h36, h31, h32]
    simpa using NoEffect.refl

end

/-! ## Runs -/

/-- The step `x` of the firmware completes the command `cmd`. -/
structure Completes (x : State × Poll UInt8 Env) (cmd : Bytes) : Prop where
  request : (receiver x.1).st.mode = .request
  received : (receiver x.1).got ++ x.2.data = cmd
  length : cmd.length = 12

/-- A completed command is served. -/
theorem Completes.step {x : State × Poll UInt8 Env} {cmd : Bytes} (h : Completes x cmd)
    (hi : InBuffer x.1) (he : machine.enabled x.1 x.2) :
    (receiver (machine.post x)).st = serve (receiver x.1).st.dev x.2.env cmd := by
  obtain ⟨-, -, hen, hstep⟩ := step_receiver hi he
  have hneed : bootFramer.need (receiver x.1).st = 12 := by
    simp [bootFramer, h.request, pad4, cmdMsgPacketSize]
  have hlen := congrArg List.length h.received
  rw [List.length_append, h.length] at hlen
  have hne : x.2.data ≠ [] := by
    intro hd
    have hlt := hen.1
    rw [hneed] at hlt
    simp [hd] at hlen
    omega
  have hpoll : bootFramer.machine.step (receiver x.1) x.2 =
      ⟨bootFramer.full (receiver x.1).st x.2.env cmd, [], 0⟩ := by
    rw [← h.received]
    exact Framer.poll_full hne (by omega)
  have hfull : bootFramer.full (receiver x.1).st x.2.env cmd =
      serve (receiver x.1).st.dev x.2.env cmd := by simp [bootFramer, h.request]
  exact (congrArg Framer.Rx.st (hstep.trans hpoll)).trans hfull

/-- What a completed command of a run does. -/
theorem Completes.noEffect {d : Dev} {tr : List (State × Poll UInt8 Env)} {s : State}
    {x : State × Poll UInt8 Env} {cmd : Bytes} (hc : Completes x cmd)
    (h : machine.Run (enter ⟨d, .request⟩) tr s) (hx : x ∈ tr) :
    NoEffect (receiver x.1).st (receiver (machine.post x)).st ↔ ¬ Effective cmd := by
  obtain ⟨tr₁, tr₂, rfl⟩ := List.append_of_mem hx
  obtain ⟨h₁, he, -⟩ := h.middle
  have hi : InBuffer x.1 := inBuffer_of_run (b := ⟨d, .request⟩) trivial h₁
  have hst : (receiver x.1).st = ⟨(receiver x.1).st.dev, .request⟩ := by rw [← hc.request]
  rw [hc.step hi he, hst]
  exact serve_noEffect

/-- In every run of the firmware from a command boundary, a corrupted command has no effect exactly
when it is not effective. -/
theorem corrupted_commands {d : Dev} {tr : List (State × Poll UInt8 Env)} {s : State}
    (h : machine.Run (enter ⟨d, .request⟩) tr s) :
    ∀ x ∈ tr, ∀ cmd, Completes x cmd → Corrupted cmd →
      (NoEffect (receiver x.1).st (receiver (machine.post x)).st ↔ ¬ Effective cmd) :=
  fun _ hx _ hc _ => hc.noEffect h hx

/-! ## Commands that arrive byte by byte -/

/-- Bytes that arrive one at each poll. -/
def bytePolls (bs : Bytes) : List (Poll UInt8 Env) := bs.map fun b => ⟨{}, [b]⟩

/-- Less than twelve bytes wait in the buffer. -/
theorem exec_bytePolls (d : Dev) {bs : Bytes} (hl : bs.length < 12) :
    machine.Allows (enter ⟨d, .request⟩) (bytePolls bs) ∧
      machine.exec (enter ⟨d, .request⟩) (bytePolls bs) =
        ⟨d, .request bs.length (bs ++ zeros (12 - bs.length)) 0⟩ := by
  induction bs using List.reverseRecOn with
  | nil => exact ⟨trivial, rfl⟩
  | append_singleton bs b ih =>
    rw [List.length_append, List.length_singleton] at hl
    obtain ⟨hallows, hexec⟩ := ih (by omega)
    have hz : zeros (12 - bs.length) = 0 :: zeros (12 - (bs.length + 1)) := by
      rw [show 12 - bs.length = 12 - (bs.length + 1) + 1 by omega]
      rfl
    have hpolls : bytePolls (bs ++ [b]) = bytePolls bs ++ [⟨{}, [b]⟩] := by simp [bytePolls]
    rw [hpolls, Machine.exec_append, Machine.allows_append, hexec]
    refine ⟨⟨hallows, by simp [machine, want], trivial⟩, ?_⟩
    have hne : bs.length + 1 ≠ pad4 cmdMsgPacketSize := by
      rw [pad4, cmdMsgPacketSize]
      omega
    simp [step, store, hne, hz, List.drop_append]

/-- The step at which the last byte of a command arrives, for a device that has been waiting. -/
def lastByte (d : Dev) (cmd : Bytes) (b : UInt8) : State × Poll UInt8 Env :=
  (⟨d, .request cmd.length (cmd ++ zeros (12 - cmd.length)) 0⟩, ⟨{}, [b]⟩)

theorem completes_lastByte {d : Dev} {cmd : Bytes} {b : UInt8} (hl : cmd.length = 11) :
    ∃ tr s, machine.Run (enter ⟨d, .request⟩) tr s ∧ lastByte d cmd b ∈ tr ∧
      Completes (lastByte d cmd b) (cmd ++ [b]) := by
  obtain ⟨hallows, hexec⟩ := exec_bytePolls d (show cmd.length < 12 by omega)
  have hr := hallows.run
  rw [hexec] at hr
  have he : machine.enabled (lastByte d cmd b).1 (lastByte d cmd b).2 := by
    simp [machine, lastByte, want]
  refine ⟨_, _, hr.snoc he, List.mem_append_right _ (.head _), ⟨rfl, ?_, by simp [hl]⟩⟩
  simp [lastByte, receiver]

/-- A device that has just been powered up. -/
def poweredUp : Dev := ⟨.erased w25q64, {}, []⟩

/-- A link request with a wrong check byte gets its reply, and nothing else happens. -/
theorem corrupted_commands_link_request : ∃ x cmd, Completes x cmd ∧ Corrupted cmd ∧
    NoEffect (receiver x.1).st (receiver (machine.post x)).st := by
  obtain ⟨tr, s, hr, hx, hc⟩ := completes_lastByte (d := poweredUp) (b := 0)
    (show [0xAA, 0, 0x30, 0, 0, 0, 0, 0, 0, 0, 0].length = 11 from rfl)
  exact ⟨_, _, hc, by decide, (corrupted_commands hr _ hx _ hc (by decide)).2 (by decide)⟩

/-- Twelve bytes that do not begin with 0xAA make the bootloader give up its link. -/
theorem corrupted_mode_change : ¬ ∀ (d : Dev) (tr : List (State × Poll UInt8 Env)) (s : State),
    machine.Run (enter ⟨d, .request⟩) tr s → ∀ x ∈ tr, ∀ cmd, Completes x cmd → Corrupted cmd →
      NoEffect (receiver x.1).st (receiver (machine.post x)).st := by
  intro hall
  obtain ⟨tr, s, hr, hx, hc⟩ := completes_lastByte (d := poweredUp) (b := 0)
    (show [0, 0, 0x32, 0, 0, 0, 0, 0, 0, 0, 0].length = 11 from rfl)
  exact (hc.noEffect hr hx).1 (hall poweredUp tr s hr _ hx _ hc (by decide)) (by decide)

end QccGui.Firmware
