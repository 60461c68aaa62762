import QccGui.Firmware.Boot

/-!
# Framing of the bootloader

The two receive loops of the bootloader cut the UART stream into groups.

* `bootFramer`: the group lengths, the idle limits, and what a whole and a discarded group do.
* `receiver`, `step_receiver`: the firmware's loops with their buffers are that framer.
* `bytewise`, `received_group`: a group can come byte by byte.
* `transfer_acts`, `transfer_timeout`: the packets of one transfer, and a transfer cut short.
-/

namespace QccGui.Firmware

open Lib

/-- The bootloader as a cutter of groups. An idle timer that has to pass a million trips at the
1000002nd empty poll in a row. -/
def bootFramer : Framer UInt8 Boot Env where
  need b := match b.mode with
    | .request => pad4 cmdMsgPacketSize
    | .bitStream _ size _ _ => pad4 (size + bitStreamPacketHeaderSize)
    | .hung => 0
  limit b := match b.mode with
    | .request => 1000001
    | .bitStream .. => 2000001
    | .hung => 0
  full b env data := match b.mode with
    | .request => serve b.dev env data
    | .bitStream total size flag index => packetDone b.dev total size flag index data
    | .hung => b
  drop b _ := match b.mode with
    | .request => b
    | .bitStream _ _ flag _ => packetTimeout b.dev flag
    | .hung => b

/-- The bytes of the group that the firmware is receiving, and its idle timer. -/
def receiver (s : State) : Framer.Rx UInt8 Boot :=
  match s.pc with
  | .request byteCount recvData timer => ⟨⟨s.dev, .request⟩, recvData.take byteCount, timer⟩
  | .bitStream total size flag index byteCount recvData _ timer =>
    ⟨⟨s.dev, .bitStream total size flag index⟩, recvData.take byteCount, timer⟩
  | .hung => ⟨⟨s.dev, .hung⟩, [], 0⟩

@[simp] theorem receiver_dev (s : State) : (receiver s).st.dev = s.dev := by
  obtain ⟨d, pc⟩ := s
  cases pc <;> rfl

/-- The counters of the receive loops are inside their buffers. -/
def InBuffer (s : State) : Prop :=
  match s.pc with
  | .request byteCount recvData _ =>
    recvData.length = pad4 cmdMsgPacketSize ∧ byteCount < recvData.length
  | .bitStream total size _ index byteCount recvData pRecvBuff _ =>
    recvData.length = pad4 (size + bitStreamPacketHeaderSize) ∧ byteCount < recvData.length ∧
      pRecvBuff = byteCount ∧ index < total
  | .hung => True

/-- A poll writes inside the receive buffer. -/
def ReadInBounds (s : State) (p : Poll UInt8 Env) : Prop :=
  match s.pc with
  | .request byteCount recvData _ => byteCount + p.data.length ≤ recvData.length
  | .bitStream _ _ _ _ _ recvData pRecvBuff _ => pRecvBuff + p.data.length ≤ recvData.length
  | .hung => p.data = []

/-- A transfer waits only for packets it was announced. -/
def Boot.Ok (b : Boot) : Prop :=
  match b.mode with
  | .bitStream total _ _ index => index < total
  | _ => True

/-! ## The receive buffer -/

theorem store_length {buf bs : Bytes} {i : Nat} (h : i + bs.length ≤ buf.length) :
    (store buf i bs).length = buf.length := by
  simp [store]
  omega

theorem store_take {buf bs : Bytes} {i : Nat} (h : i + bs.length ≤ buf.length) :
    (store buf i bs).take (i + bs.length) = buf.take i ++ bs := by
  have hl : (buf.take i ++ bs).length = i + bs.length := by simp; omega
  rw [store, ← hl, List.take_left]

/-- A buffer that has just been filled. -/
theorem store_full {buf bs : Bytes} {i n : Nat} (hn : buf.length = n) (h : i + bs.length = n) :
    store buf i bs = buf.take i ++ bs := by
  rw [store, List.drop_eq_nil_of_le (by omega), List.append_nil]

theorem pad4_pos (n : Nat) : 0 < pad4 (n + 10) := by
  unfold pad4
  omega

@[simp] theorem receiver_enter (b : Boot) : receiver (enter b) = ⟨b, [], 0⟩ := by
  obtain ⟨d, m⟩ := b
  cases m <;> rfl

theorem inBuffer_enter {b : Boot} (h : b.Ok) : InBuffer (enter b) := by
  obtain ⟨d, m⟩ := b
  cases m with
  | request => exact ⟨zeros_length _, by rw [zeros_length]; exact pad4_pos 0⟩
  | bitStream total size flag index =>
    exact ⟨zeros_length _, by rw [zeros_length]; exact pad4_pos size, rfl, h⟩
  | hung => trivial

/-! ## What a group leads to -/

theorem recieveBitStream_ok (d : Dev) (total size : Nat) (flag : UInt8) :
    (recieveBitStream d total size flag).Ok := by
  unfold recieveBitStream
  split
  · assumption
  · trivial

theorem serve_ok (d : Dev) (env : Env) (recvData : Bytes) : (serve d env recvData).Ok := by
  unfold serve
  dsimp only
  repeat' split
  all_goals first
    | trivial
    | exact recieveBitStream_ok ..
    | (unfold iapProgram; split <;> trivial)
    | (unfold modeChangeMssToFab; dsimp only; split <;> trivial)

theorem packetDone_ok (d : Dev) (total size : Nat) (flag : UInt8) (index : Nat) (recvData : Bytes) :
    (packetDone d total size flag index recvData).Ok := by
  unfold packetDone
  dsimp only
  split
  · assumption
  · trivial

/-! ## Refinement -/

section

variable {s : State} {p : Poll UInt8 Env} {d : Dev} {total size index byteCount timer : Nat}
  {flag : UInt8} {recvData : Bytes}

/-- One poll of the receive loop of `wait_for_new_request`. -/
theorem step_receiver_request (hi : InBuffer ⟨d, .request byteCount recvData timer⟩)
    (hle : p.data.length ≤ 1) :
    InBuffer (step ⟨d, .request byteCount recvData timer⟩ p) ∧
      receiver (step ⟨d, .request byteCount recvData timer⟩ p) =
        bootFramer.poll (receiver ⟨d, .request byteCount recvData timer⟩) p := by
  obtain ⟨hlen, hlt⟩ := hi
  have hb : byteCount + p.data.length ≤ recvData.length := by omega
  have htk : (recvData.take byteCount).length = byteCount := by simp; omega
  by_cases hp : p.data = []
  · by_cases ht : timer > 1000000
    · have hst : step ⟨d, .request byteCount recvData timer⟩ p = enter ⟨d, .request⟩ := by
        simp [step, hp, ht]
      rw [hst, receiver_enter, Framer.poll_drop hp (by simp [receiver, bootFramer]; omega)]
      exact ⟨inBuffer_enter trivial, rfl⟩
    · have hst : step ⟨d, .request byteCount recvData timer⟩ p =
          ⟨d, .request byteCount recvData (timer + 1)⟩ := by simp [step, hp, ht]
      rw [hst, Framer.poll_wait hp (by simp [receiver, bootFramer]; omega)]
      exact ⟨⟨hlen, hlt⟩, rfl⟩
  · by_cases hf : byteCount + p.data.length = pad4 cmdMsgPacketSize
    · have hst : step ⟨d, .request byteCount recvData timer⟩ p =
          enter (serve d p.env (recvData.take byteCount ++ p.data)) := by
        simp [step, hp, hf, store_full hlen hf]
      rw [hst, receiver_enter, Framer.poll_full hp (by simp [receiver, bootFramer]; omega)]
      exact ⟨inBuffer_enter (serve_ok ..), rfl⟩
    · have hst : step ⟨d, .request byteCount recvData timer⟩ p =
          ⟨d, .request (byteCount + p.data.length) (store recvData byteCount p.data) 0⟩ := by
        simp [step, hp, hf]
      rw [hst, Framer.poll_more hp (by simp [receiver, bootFramer]; omega)]
      refine ⟨⟨by rw [store_length hb, hlen], by rw [store_length hb]; omega⟩, ?_⟩
      simp only [receiver, store_take hb]

/-- One poll of the receive loop of `recieve_bit_stream`. -/
theorem step_receiver_bitStream
    (hi : InBuffer ⟨d, .bitStream total size flag index byteCount recvData byteCount timer⟩)
    (hle : byteCount + p.data.length ≤ recvData.length) :
    InBuffer (step ⟨d, .bitStream total size flag index byteCount recvData byteCount timer⟩ p) ∧
      receiver (step ⟨d, .bitStream total size flag index byteCount recvData byteCount timer⟩ p) =
        bootFramer.poll
          (receiver ⟨d, .bitStream total size flag index byteCount recvData byteCount timer⟩) p := by
  obtain ⟨hlen, hlt, -, hit⟩ := hi
  have htk : (recvData.take byteCount).length = byteCount := by simp; omega
  by_cases hp : p.data = []
  · by_cases ht : timer > 2000000
    · have hst : step ⟨d, .bitStream total size flag index byteCount recvData byteCount timer⟩ p =
          enter (packetTimeout d flag) := by simp [step, hp, ht]
      rw [hst, receiver_enter, Framer.poll_drop hp (by simp [receiver, bootFramer]; omega)]
      exact ⟨inBuffer_enter trivial, rfl⟩
    · have hst : step ⟨d, .bitStream total size flag index byteCount recvData byteCount timer⟩ p =
          ⟨d, .bitStream total size flag index byteCount recvData byteCount (timer + 1)⟩ := by
        simp [step, hp, ht]
      rw [hst, Framer.poll_wait hp (by simp [receiver, bootFramer]; omega)]
      exact ⟨⟨hlen, hlt, rfl, hit⟩, rfl⟩
  · by_cases hf : byteCount + p.data.length = pad4 (size + bitStreamPacketHeaderSize)
    · have hst : step ⟨d, .bitStream total size flag index byteCount recvData byteCount timer⟩ p =
          enter (packetDone d total size flag index (recvData.take byteCount ++ p.data)) := by
        simp [step, hp, hf, store_full hlen hf]
      rw [hst, receiver_enter, Framer.poll_full hp (by simp [receiver, bootFramer]; omega)]
      exact ⟨inBuffer_enter (packetDone_ok ..), rfl⟩
    · have hst : step ⟨d, .bitStream total size flag index byteCount recvData byteCount timer⟩ p =
          ⟨d, .bitStream total size flag index (byteCount + p.data.length)
            (store recvData byteCount p.data) (byteCount + p.data.length) 0⟩ := by
        simp [step, hp, hf]
      rw [hst, Framer.poll_more hp (by simp [receiver, bootFramer]; omega)]
      refine ⟨⟨by rw [store_length hle, hlen], ?_, rfl, hit⟩, ?_⟩
      · rw [store_length hle]
        omega
      · simp only [receiver, store_take hle]

/-- One poll of the firmware is one poll of the framer, and stays inside the buffer. -/
theorem step_receiver (hi : InBuffer s) (he : machine.enabled s p) :
    ReadInBounds s p ∧ InBuffer (step s p) ∧ bootFramer.machine.enabled (receiver s) p ∧
      receiver (step s p) = bootFramer.machine.step (receiver s) p := by
  obtain ⟨d, pc⟩ := s
  obtain ⟨hw, hle⟩ := he
  cases pc with
  | hung => simp [want] at hw
  | request byteCount recvData timer =>
    obtain ⟨h₁, h₂⟩ := step_receiver_request hi hle
    obtain ⟨hlen, hlt⟩ := hi
    simp only [want] at hle
    refine ⟨?_, h₁, ⟨?_, ?_⟩, h₂⟩
    · simp only [ReadInBounds]
      omega
    · simp only [receiver, bootFramer, List.length_take]
      omega
    · simp only [receiver, bootFramer, List.length_take]
      omega
  | bitStream total size flag index byteCount recvData pRecvBuff timer =>
    obtain ⟨hlen, hlt, rfl, hit⟩ := id hi
    simp only [want] at hle
    have hb : pRecvBuff + p.data.length ≤ recvData.length := by omega
    obtain ⟨h₁, h₂⟩ := step_receiver_bitStream hi hb
    refine ⟨hb, h₁, ⟨?_, ?_⟩, h₂⟩
    · simp only [receiver, bootFramer, List.length_take]
      omega
    · simp only [receiver, bootFramer, List.length_take]
      omega

end

/-- The steps of a run of the firmware, as steps of the framer. -/
def received (tr : List (State × Poll UInt8 Env)) : List (Framer.Rx UInt8 Boot × Poll UInt8 Env) :=
  tr.map fun x => (receiver x.1, x.2)

@[simp] theorem events_received (tr : List (State × Poll UInt8 Env)) :
    Machine.events (received tr) = Machine.events tr := by
  simp [Machine.events, received, Function.comp_def]

/-- Every run of the firmware is a run of the framer. -/
theorem run_receiver {b : Boot} {tr : List (State × Poll UInt8 Env)} {s : State} (hb : b.Ok)
    (h : machine.Run (enter b) tr s) :
    bootFramer.machine.Run ⟨b, [], 0⟩ (received tr) (receiver s) := by
  rw [← receiver_enter b]
  exact h.simulate (inBuffer_enter hb) fun s p hi he => (step_receiver hi he).2

theorem inBuffer_of_run {b : Boot} {tr : List (State × Poll UInt8 Env)} {s : State} (hb : b.Ok)
    (h : machine.Run (enter b) tr s) : InBuffer s :=
  h.invariant' (inBuffer_enter hb) fun _ _ hi he => (step_receiver hi he).2.1

/-- Every read of a run stays inside its buffer. -/
theorem reads_in_bounds {b : Boot} {tr : List (State × Poll UInt8 Env)} {s : State} (hb : b.Ok)
    (h : machine.Run (enter b) tr s) : ∀ x ∈ tr, ReadInBounds x.1 x.2 := by
  intro x hx
  obtain ⟨tr₁, tr₂, rfl⟩ := List.append_of_mem hx
  obtain ⟨h₁, he, -⟩ := h.middle
  exact (step_receiver (inBuffer_of_run hb h₁) he).1

/-! ## Bytes that come one a poll -/

/-- The polls that bring `bs` byte by byte. -/
def bytewise (bs : Bytes) : List (Poll UInt8 Env) := bs.map fun b => ⟨{}, [b]⟩

@[simp] theorem bytewise_append (bs bs' : Bytes) :
    bytewise (bs ++ bs') = bytewise bs ++ bytewise bs' := List.map_append

@[simp] theorem items_bytewise (bs : Bytes) : Poll.items (bytewise bs) = bs := by
  simp [Poll.items, bytewise, List.flatMap_map]

/-- A byte can come while the group is not complete. -/
theorem enabled_byte {s : State} {p : Poll UInt8 Env} (hi : InBuffer s)
    (hlt : (receiver s).got.length < bootFramer.need (receiver s).st) (hp : p.data.length = 1) :
    machine.enabled s p := by
  obtain ⟨d, pc⟩ := s
  cases pc with
  | hung => exact absurd hlt (Nat.not_lt_zero _)
  | request => exact ⟨Nat.one_pos, hp.le⟩
  | bitStream total size flag index byteCount recvData pRecvBuff timer =>
    obtain ⟨hlen, hbyte, -, -⟩ := hi
    have hw : 0 < want (.bitStream total size flag index byteCount recvData pRecvBuff timer) := by
      simp only [want]
      omega
    exact ⟨hw, hp.symm ▸ hw⟩

section

variable {b : Boot}

theorem step_byte {s : State} {bs : Bytes} {x : UInt8} (hi : InBuffer s)
    (hr : receiver s = ⟨b, bs, 0⟩) (hlt : bs.length < bootFramer.need b) :
    machine.enabled s ⟨{}, [x]⟩ ∧
      receiver (step s ⟨{}, [x]⟩) = bootFramer.poll ⟨b, bs, 0⟩ ⟨{}, [x]⟩ := by
  have he : machine.enabled s ⟨{}, [x]⟩ := enabled_byte hi (by rwa [hr]) rfl
  obtain ⟨-, -, -, hstep⟩ := step_receiver hi he
  rw [hr] at hstep
  exact ⟨he, hstep⟩

/-- The bytes of a group that is not complete yet. -/
theorem received_part (hb : b.Ok) {bs : Bytes} (hlt : bs.length < bootFramer.need b) :
    machine.Allows (enter b) (bytewise bs) ∧
      receiver (machine.exec (enter b) (bytewise bs)) = ⟨b, bs, 0⟩ ∧
      ∀ x ∈ machine.trace (enter b) (bytewise bs), (receiver x.1).st = b := by
  induction bs using List.reverseRecOn with
  | nil => exact ⟨trivial, receiver_enter b, nofun⟩
  | append_singleton bs x ih =>
    rw [List.length_append, List.length_singleton] at hlt
    obtain ⟨hallow, hr, htr⟩ := ih (by omega)
    obtain ⟨he, hstep⟩ := @step_byte b _ bs x (inBuffer_of_run hb hallow.run) hr (by omega)
    rw [bytewise_append, Machine.allows_append, Machine.exec_append, Machine.trace_append]
    refine ⟨⟨hallow, he, trivial⟩, hstep.trans ?_, fun y hy => ?_⟩
    · exact Framer.poll_more (List.cons_ne_nil _ _) hlt
    · rcases List.mem_append.1 hy with hy | hy
      · exact htr y hy
      · obtain rfl := List.mem_singleton.1 hy
        exact congrArg Framer.Rx.st hr

/-- A whole group. -/
theorem received_group (hb : b.Ok) {g : Bytes} (hg : g.length = bootFramer.need b) (hne : g ≠ []) :
    machine.Allows (enter b) (bytewise g) ∧
      receiver (machine.exec (enter b) (bytewise g)) = ⟨bootFramer.full b {} g, [], 0⟩ ∧
      ∀ x ∈ machine.trace (enter b) (bytewise g), (receiver x.1).st = b := by
  obtain ⟨bs, x, rfl⟩ : ∃ bs x, g = bs ++ [x] :=
    ⟨_, _, (List.dropLast_append_getLast hne).symm⟩
  rw [List.length_append, List.length_singleton] at hg
  obtain ⟨hallow, hr, htr⟩ := @received_part b hb bs (by omega)
  obtain ⟨he, hstep⟩ := @step_byte b _ bs x (inBuffer_of_run hb hallow.run) hr (by omega)
  rw [bytewise_append, Machine.allows_append, Machine.exec_append, Machine.trace_append]
  refine ⟨⟨hallow, he, trivial⟩, hstep.trans (Framer.poll_full (List.cons_ne_nil _ _) hg.ge),
    fun y hy => ?_⟩
  rcases List.mem_append.1 hy with hy | hy
  · exact htr y hy
  · obtain rfl := List.mem_singleton.1 hy
    exact congrArg Framer.Rx.st hr

end

/-- The empty polls that a transfer tolerates before its idle timer trips. -/
theorem exec_idle {d : Dev} {total size k n : Nat} {flag : UInt8} (hn : n ≤ 2000001) :
    let b : Boot := ⟨d, .bitStream total size flag k⟩
    let waited m : State := ⟨d, .bitStream total size flag k 0 (zeros (pad4 (size + 10))) 0 m⟩
    let polls : List (Poll UInt8 Env) := List.replicate n ⟨{}, []⟩
    machine.Allows (enter b) polls ∧ machine.exec (enter b) polls = waited n ∧
      ∀ x ∈ machine.trace (enter b) polls, ∃ m, x.1 = waited m := by
  intro b waited polls
  induction n with
  | zero => exact ⟨trivial, rfl, nofun⟩
  | succ n ih =>
    obtain ⟨hallow, hs, htr⟩ := ih (by omega)
    have hpos := pad4_pos size
    have he : machine.enabled (waited n) ⟨{}, []⟩ := by
      simp only [machine, waited, want, bitStreamPacketHeaderSize, List.length_nil]
      omega
    have hst : step (waited n) ⟨{}, []⟩ = waited (n + 1) := by
      simp only [waited, step, ne_eq, not_true_eq_false, if_false]
      rw [if_neg (by omega)]
    simp only [polls, List.replicate_succ', Machine.allows_append, Machine.exec_append,
      Machine.trace_append, hs]
    refine ⟨⟨hallow, he, trivial⟩, hst, fun x hx => ?_⟩
    rcases List.mem_append.1 hx with hx | hx
    · exact htr x hx
    · obtain rfl := List.mem_singleton.1 hx
      exact ⟨n, rfl⟩

end QccGui.Firmware
