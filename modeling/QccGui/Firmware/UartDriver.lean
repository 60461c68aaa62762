import QccGui.Lib.Uart

/-!
# The UART driver

The receive and the transmit function of the UART driver (`mss_uart.c`) that the bootloader calls,
down to the accesses of its registers.

* `uartGetRx`, `uartGetRx_spec`: what has arrived is taken in order.
* `uartPolledTx`, `uartPolledTx_returns`: what is sent goes out in order, none of it lost.
-/

namespace QccGui.Firmware

open Lib Uart Polling

/-! ## The driver -/

def txFifoSize : Nat := 16
def dataReady : UInt8 := 0x01

/-- The loop of `MSS_UART_get_rx`, with the line status that was read last. -/
def getRxLoop (status : UInt8) : Nat → Uart → Bytes × Uart
  | 0, u => ([], u)
  | n + 1, u =>
    if status &&& dataReady ≠ 0 then
      let (b, u) := u.readRbr
      let (status, u) := u.readLsr
      let (bs, u) := getRxLoop status n u
      (b :: bs, u)
    else ([], u)

/-- `MSS_UART_get_rx`. -/
def uartGetRx (buffSize : Nat) (u : Uart) : Bytes × Uart :=
  if buffSize = 0 then ([], u)
  else
    let (status, u) := u.readLsr
    getRxLoop status buffSize u

/-- `MSS_UART_polled_tx`: whenever the FIFO is empty it is filled. -/
def uartPolledTx (pbuff : Bytes) : Polling Uart Unit :=
  if _h : pbuff = [] then pure ()
  else do
    waitThre
    device fun u => ((), u.fill (pbuff.take txFifoSize))
    uartPolledTx (pbuff.drop txFifoSize)
termination_by pbuff.length
decreasing_by
  have := List.length_pos_iff.2 _h
  simp only [List.length_drop, txFifoSize]
  omega

variable {u u' : Uart}

theorem getRxLoop_spec {status : UInt8} (hs : status &&& dataReady ≠ 0 ↔ u.rx ≠ []) (n : Nat) :
    ∃ k, Passed u k (getRxLoop status n u).1 [] (getRxLoop status n u).2 ∧
      (getRxLoop status n u).1.length ≤ n ∧
      (0 < n → ((getRxLoop status n u).1 = [] ↔ u.rx = [])) := by
  induction n generalizing u status with
  | zero => exact ⟨0, .refl u, Nat.le_refl 0, fun h => absurd h (Nat.lt_irrefl 0)⟩
  | succ n ih =>
    by_cases hr : u.rx = []
    · have hno : ¬ status &&& dataReady ≠ 0 := fun h => hs.1 h hr
      rw [getRxLoop, if_neg hno]
      exact ⟨0, .refl u, Nat.zero_le _, fun _ => iff_of_true rfl hr⟩
    · have htick : u.tick.rx ≠ [] := by simp [tick, hr, fifoSize]
      have hnext := ih (u := u.readRbr.2.tick) status_ready
      obtain ⟨k, hp, hle, -⟩ := hnext
      rw [getRxLoop, if_pos (hs.2 hr)]
      refine ⟨_, ((passed_readRbr htick).trans (passed_tick _)).trans hp, ?_, fun _ => ?_⟩
      · exact Nat.succ_le_succ hle
      · exact iff_of_false (List.cons_ne_nil _ _) hr

/-- `MSS_UART_get_rx` takes bytes that have arrived, in order, at most as many as it is asked for, and
none only if there are none. -/
theorem uartGetRx_spec (n : Nat) (u : Uart) :
    ∃ k, Passed u k (uartGetRx n u).1 [] (uartGetRx n u).2 ∧ (uartGetRx n u).1.length ≤ n ∧
      (0 < n → ((uartGetRx n u).1 = [] ↔ u.tick.rx = [])) := by
  by_cases hn : n = 0
  · rw [uartGetRx, if_pos hn]
    exact ⟨0, .refl u, Nat.zero_le _, fun h => absurd h (by omega)⟩
  · obtain ⟨k, hp, hle, hemp⟩ := getRxLoop_spec (u := u.tick) status_ready n
    rw [uartGetRx, if_neg hn]
    exact ⟨_, (passed_tick u).trans hp, hle, hemp⟩

/-- `MSS_UART_polled_tx` sends its bytes in order and loses none. -/
theorem uartPolledTx_returns (h : u.Drains) (pbuff : Bytes) :
    ∃ k u', Returns (uartPolledTx pbuff) u () u' ∧ Passed u k [] pbuff u' := by
  induction hn : pbuff.length using Nat.strong_induction_on generalizing u pbuff with
  | _ n ih =>
    by_cases hb : pbuff = []
    · rw [uartPolledTx, dif_pos hb, hb]
      exact ⟨0, u, .pure () u, .refl u⟩
    · have hpos := List.length_pos_iff.2 hb
      obtain ⟨i, u₁, hw, hp₁, htx⟩ := waitThre_returns h
      have hp₂ : Passed u₁ _ [] (pbuff.take txFifoSize) (u₁.fill (pbuff.take txFifoSize)) :=
        passed_fill (by rw [htx]; simp [txFifoSize, fifoSize])
      have hd := (h.passed hp₁).passed hp₂
      obtain ⟨k, u₃, hr, hp₃⟩ := ih (pbuff.drop txFifoSize).length
        (by simp only [List.length_drop, txFifoSize]; omega) hd _ rfl
      have hall := (hp₁.trans hp₂).trans hp₃
      simp only [List.nil_append, List.take_append_drop] at hall
      rw [uartPolledTx, dif_neg hb]
      exact ⟨_, u₃, hw.bind ((Returns.device _ u₁).bind hr), hall⟩

/-! ## On a line that waits -/

/-- `MSS_UART_polled_tx` makes some number of accesses. -/
theorem quiet_uartPolledTx (h : u.Prompt) (hr : u.rx = []) (pbuff : Bytes) :
    ∃ k u', Quiet (uartPolledTx pbuff) u k u' ∧ Kept u u' := by
  induction hn : pbuff.length using Nat.strong_induction_on generalizing u pbuff with
  | _ n ih =>
    by_cases hb : pbuff = []
    · rw [uartPolledTx, dif_pos hb]
      refine ⟨0, u, fun line _ => ?_, h, hr, rfl⟩
      simp only [Nat.zero_add]
      exact .pure () _
    · have hpos := List.length_pos_iff.2 hb
      obtain ⟨hwait, hk₁⟩ := quiet_waitThre h hr
      obtain ⟨u₂, hfill, hk₂⟩ := quiet_fill hk₁.prompt hk₁.rx (pbuff.take txFifoSize)
      obtain ⟨k, u₃, hrest, hk₃⟩ := ih (pbuff.drop txFifoSize).length
        (by simp only [List.length_drop, txFifoSize]; omega) hk₂.prompt hk₂.rx _ rfl
      rw [uartPolledTx, dif_neg hb]
      exact ⟨_, u₃, hwait.bind (hfill.bind hrest), (hk₁.trans hk₂).trans hk₃⟩

theorem tick_empty (h : u.Prompt) (ht : u.tx = []) (hf : u.rx.length ≤ fifoSize)
    (hl : u.line 0 = []) : u.tick = { u with line := fun n => u.line (n + 1) } := by
  rw [tick_silent h hf hl, flushed_of_empty ht]

/-- The receive FIFO is read until it is empty. -/
theorem getRxLoop_all {status : UInt8} {rx : Bytes} (h : u.Prompt) (ht : u.tx = []) (hrx : u.rx = rx)
    (hs : status &&& dataReady ≠ 0 ↔ u.rx ≠ []) {n : Nat} (hn : rx.length ≤ n)
    (hf : rx.length ≤ fifoSize) (hl : ∀ i < 2 * rx.length, u.line i = []) : getRxLoop status n u =
      (rx, { u with rx := [], line := fun i => u.line (2 * rx.length + i) }) := by
  induction rx generalizing u status n with
  | nil =>
    have hu : u = { u with rx := [], line := fun i => u.line (2 * 0 + i) } := by
      simp only [Nat.mul_zero, Nat.zero_add, ← hrx]
    cases n with
    | zero => exact congrArg (Prod.mk []) hu
    | succ n =>
      rw [getRxLoop, if_neg fun h => hs.1 h hrx]
      exact congrArg (Prod.mk []) hu
  | cons b rx ih =>
    obtain ⟨n, rfl⟩ := Nat.exists_eq_succ_of_ne_zero (Nat.ne_of_gt (Nat.lt_of_lt_of_le (Nat.succ_pos _) hn))
    simp only [List.length_cons] at hn hf hl
    have hready : u.rx ≠ [] := hrx ▸ List.cons_ne_nil b rx
    have htick := tick_empty h ht (by rw [hrx]; exact hf) (hl 0 (by omega))
    -- the byte, and then the status behind it
    have hread : u.readRbr = (b, { u with rx := rx, line := fun i => u.line (i + 1) }) := by
      rw [readRbr, htick]
      simp only [hrx, List.headD_cons, List.tail_cons]
    have hnext : ({ u with rx := rx, line := fun i => u.line (i + 1) } : Uart).tick =
        { u with rx := rx, line := fun i => u.line (i + 2) } :=
      tick_empty ⟨h.drains, h.short⟩ ht (Nat.le_of_succ_le hf) (hl 1 (by omega))
    have hrest := @ih { u with rx := rx, line := fun i => u.line (i + 2) }
      ({ u with rx := rx, line := fun i => u.line (i + 2) } : Uart).status ⟨h.drains, h.short⟩ ht rfl
      status_ready n (Nat.le_of_succ_le_succ hn) (Nat.le_of_succ_le hf) fun i hi => hl (i + 2) (by omega)
    rw [getRxLoop, if_pos (hs.2 hready), hread]
    simp only [readLsr, hnext, hrest]
    refine congrArg (Prod.mk (b :: rx)) ?_
    simp only [List.length_cons, Nat.mul_succ, Nat.add_right_comm _ 2]

/-- What comes before the poll is taken by it, if it is asked for and nothing comes after. -/
theorem uartGetRx_burst {n : Nat} {line : Nat → Bytes} (h : u.Prompt) (hr : u.rx = []) (hn : 0 < n)
    (hle : (line 0).length ≤ n) (hf : (line 0).length ≤ fifoSize)
    (hl : ∀ i, 0 < i → i < 1 + 2 * (line 0).length → line i = []) :
    uartGetRx n { u with line } =
      (line 0, { u.flushed with line := fun i => line (1 + 2 * (line 0).length + i) }) := by
  have htick : ({ u with line } : Uart).tick =
      { u.flushed with rx := line 0, line := fun i => line (i + 1) } := by
    simp only [tick, Uart.flushed, hr, List.nil_append, h.drains, List.take_of_length_le hf,
      List.take_of_length_le h.short, List.drop_eq_nil_of_le h.short, Nat.sub_eq_zero_of_le hf,
      Nat.add_zero]
  have hall := @getRxLoop_all { u.flushed with rx := line 0, line := fun i => line (i + 1) } _ (line 0)
    ⟨h.drains, Nat.zero_le _⟩ rfl rfl status_ready n hle hf fun i hi => hl (i + 1) (by omega) (by omega)
  rw [uartGetRx, if_neg (Nat.ne_of_gt hn)]
  simp only [readLsr, htick, hall]
  refine congrArg (Prod.mk (line 0)) ?_
  have hshift : ∀ i, 2 * (line 0).length + i + 1 = 1 + 2 * (line 0).length + i := fun i => by omega
  simp only [hshift, show u.flushed.rx = [] from hr]

end QccGui.Firmware
