import QccGui.Lib.Bytes
import QccGui.Lib.Polling

/-!
# UARTs with FIFOs

A UART with a FIFO of 16 bytes in each direction, which a program reads and writes a register at a
time. Between two accesses any number of bytes may arrive on the line and any number may leave; a
byte that arrives at a full FIFO is lost.

* `Uart`, `Uart.tick`: the device, and what passes before an access.
* `Uart.readLsr`, `Uart.readRbr`, `Uart.fill`: the accesses.
* `Uart.Passed`: what some accesses have read and written, and what the line has done meanwhile.
* `Uart.Drains`, `waitThre_returns`: a line that goes on sending empties the FIFO.
* `Uart.Quiet`, `Uart.burst`: a line that waits until the program is done.
-/

namespace Lib

open Polling

structure Uart where
  /-- The receive FIFO. -/
  rx : Bytes := []
  /-- How many bytes arrived at a full FIFO. -/
  lost : Nat := 0
  /-- What arrives before each of the coming accesses. -/
  line : Nat → Bytes
  /-- The transmit FIFO. -/
  tx : Bytes := []
  /-- How many bytes leave the transmit FIFO before each of the coming accesses, if it has them. -/
  drains : Nat → Nat
  /-- What has left the transmit FIFO. -/
  sent : Bytes := []
  /-- The other bits of the line status register. -/
  otherBits : UInt8 := 0

namespace Uart

def fifoSize : Nat := 16

/-- What passes before an access. -/
def tick (u : Uart) : Uart :=
  { u with
    rx := (u.rx ++ u.line 0).take fifoSize
    lost := u.lost + ((u.rx ++ u.line 0).length - fifoSize)
    line := fun n => u.line (n + 1)
    tx := u.tx.drop (u.drains 0)
    drains := fun n => u.drains (n + 1)
    sent := u.sent ++ u.tx.take (u.drains 0) }

/-- The line status: bit 0 is set while there is something to read, bit 5 while there is nothing
left to send. -/
def status (u : Uart) : UInt8 :=
  (u.otherBits &&& 0xDE) ||| (if u.rx = [] then 0 else 0x01) ||| (if u.tx = [] then 0x20 else 0)

def readLsr (u : Uart) : UInt8 × Uart := (u.tick.status, u.tick)

/-- Reading the receive buffer takes the oldest byte. -/
def readRbr (u : Uart) : UInt8 × Uart := (u.tick.rx.headD 0, { u.tick with rx := u.tick.rx.tail })

/-- A byte that is written to a full FIFO is lost. -/
def writeThr (u : Uart) (b : UInt8) : Uart :=
  { u.tick with tx := if u.tick.tx.length < fifoSize then u.tick.tx ++ [b] else u.tick.tx }

/-- Writing some bytes one after the other. -/
def fill (u : Uart) (bs : Bytes) : Uart := bs.foldl writeThr u

variable {u u' u'' : Uart}

/-- What a mask of bits 0 and 5 reads. -/
theorem status_and {mask : UInt8} (hm : 0xDE &&& mask = 0) :
    u.status &&& mask =
      ((if u.rx = [] then 0 else 0x01) &&& mask) ||| ((if u.tx = [] then 0x20 else 0) &&& mask) := by
  rw [status, or_and_distrib, or_and_distrib, UInt8.and_assoc, hm, UInt8.and_zero, UInt8.zero_or]

/-- Bit 0 of the status. -/
theorem status_ready : u.status &&& 0x01 ≠ 0 ↔ u.rx ≠ [] := by
  rw [status_and (by decide)]
  by_cases hr : u.rx = [] <;> by_cases ht : u.tx = [] <;> simp [hr, ht]
  decide

/-- Bit 5 of the status. -/
theorem status_empty : u.status &&& 0x20 ≠ 0 ↔ u.tx = [] := by
  rw [status_and (by decide)]
  by_cases hr : u.rx = [] <;> by_cases ht : u.tx = [] <;> simp [hr, ht]
  decide

/-! ## What has passed -/

/-- What arrives before the next `k` accesses. -/
def arriving (u : Uart) (k : Nat) : Bytes := (List.range k).flatMap u.line

/-- After `k` accesses that read `read` and write `written`. What is read and what is still in the
FIFO is what arrived, in order, but for the bytes that are lost; what has left and what is still to
leave is what was written, in order. -/
structure Passed (u : Uart) (k : Nat) (read written : Bytes) (u' : Uart) : Prop where
  line : u'.line = fun n => u.line (k + n)
  drains : u'.drains = fun n => u.drains (k + n)
  order : (read ++ u'.rx).Sublist (u.rx ++ u.arriving k)
  count : (read ++ u'.rx).length + u'.lost = (u.rx ++ u.arriving k).length + u.lost
  transmitted : u'.sent ++ u'.tx = u.sent ++ u.tx ++ written
  prefixed : u.sent <+: u'.sent

theorem arriving_succ (u : Uart) (k : Nat) : u.arriving (k + 1) = u.arriving k ++ u.line k := by
  simp [arriving, List.range_succ]

theorem Passed.refl (u : Uart) : Passed u 0 [] [] u := by
  refine ⟨?_, ?_, ?_, ?_, ?_, List.prefix_rfl⟩
  · funext n
    rw [Nat.zero_add]
  · funext n
    rw [Nat.zero_add]
  · simp [arriving]
  · simp [arriving]
  · simp

theorem Passed.arriving {k : Nat} {read written : Bytes} (h : Passed u k read written u') (j : Nat) :
    u.arriving (k + j) = u.arriving k ++ u'.arriving j := by
  induction j with
  | zero => simp [Uart.arriving]
  | succ j ih =>
    rw [← Nat.add_assoc, arriving_succ, ih, arriving_succ, h.line, List.append_assoc]

theorem Passed.trans {j k : Nat} {read read' written written' : Bytes}
    (h : Passed u k read written u') (h' : Passed u' j read' written' u'') :
    Passed u (k + j) (read ++ read') (written ++ written') u'' := by
  refine ⟨?_, ?_, ?_, ?_, ?_, h.prefixed.trans h'.prefixed⟩
  · rw [h'.line, h.line]
    funext n
    rw [Nat.add_assoc]
  · rw [h'.drains, h.drains]
    funext n
    rw [Nat.add_assoc]
  · rw [List.append_assoc, h.arriving, ← List.append_assoc u.rx]
    exact ((List.Sublist.refl read).append h'.order).trans
      (by rw [← List.append_assoc]; exact h.order.append (.refl _))
  · have hc := h.count
    have hc' := h'.count
    have ha := congrArg List.length (h.arriving j)
    simp only [List.length_append] at hc hc' ha ⊢
    omega
  · rw [h'.transmitted, h.transmitted]
    simp only [List.append_assoc]

theorem passed_tick (u : Uart) : Passed u 1 [] [] u.tick := by
  have harr : u.arriving 1 = u.line 0 := by simp [arriving]
  refine ⟨?_, ?_, ?_, ?_, ?_, List.prefix_append ..⟩
  · funext n
    rw [Nat.add_comm]
    rfl
  · funext n
    rw [Nat.add_comm]
    rfl
  · rw [harr]
    exact List.take_sublist ..
  · rw [harr]
    simp only [tick, List.nil_append, List.length_take, List.length_append]
    omega
  · simp [tick, List.append_assoc]

theorem passed_readRbr (h : u.tick.rx ≠ []) : Passed u 1 [u.readRbr.1] [] u.readRbr.2 := by
  have ht := passed_tick u
  obtain ⟨b, bs, hb⟩ := List.exists_cons_of_ne_nil h
  have hread : [u.readRbr.1] ++ u.readRbr.2.rx = [] ++ u.tick.rx := by
    rw [readRbr, hb]
    rfl
  exact ⟨ht.line, ht.drains, hread ▸ ht.order, hread ▸ ht.count, ht.transmitted, ht.prefixed⟩

theorem passed_writeThr (b : UInt8) (h : u.tx.length < fifoSize) :
    Passed u 1 [] [b] (u.writeThr b) ∧ (u.writeThr b).tx.length ≤ u.tx.length + 1 := by
  have ht := passed_tick u
  have hlen : u.tick.tx.length ≤ u.tx.length := by
    rw [tick, List.length_drop]
    omega
  have htx : (u.writeThr b).tx = u.tick.tx ++ [b] := if_pos (by omega)
  refine ⟨⟨ht.line, ht.drains, ht.order, ht.count, ?_, ht.prefixed⟩, ?_⟩
  · change u.tick.sent ++ (u.writeThr b).tx = _
    rw [htx, ← List.append_assoc, ht.transmitted, List.append_nil]
  · rw [htx, List.length_append, List.length_singleton]
    omega

/-- What fits in the FIFO is written without a loss. -/
theorem passed_fill {bs : Bytes} (h : u.tx.length + bs.length ≤ fifoSize) :
    Passed u bs.length [] bs (u.fill bs) := by
  induction bs generalizing u with
  | nil => exact .refl u
  | cons b bs ih =>
    rw [List.length_cons] at h ⊢
    obtain ⟨hb, hlen⟩ := passed_writeThr (u := u) b (by omega)
    have hbs := ih (u := u.writeThr b) (by omega)
    rw [Nat.add_comm]
    exact hb.trans hbs

/-- Without a loss everything that arrived was read or is in the FIFO. -/
theorem Passed.exact {k : Nat} {read written : Bytes} (h : Passed u k read written u')
    (hl : u'.lost = u.lost) : read ++ u'.rx = u.rx ++ u.arriving k := by
  apply h.order.eq_of_length
  have := h.count
  omega

/-- The line brings `bs`, and then nothing. -/
def Carries (u : Uart) (bs : Bytes) : Prop := ∃ k, u.arriving k = bs ∧ ∀ n, k ≤ n → u.line n = []

theorem arriving_of_le {j k : Nat} (h : ∀ n, j ≤ n → u.line n = []) (hjk : j ≤ k) :
    u.arriving k = u.arriving j := by
  induction hjk with
  | refl => rfl
  | @step k hle ih => rw [arriving_succ, ih, h k hle, List.append_nil]

/-- Once the line is silent, what it brought has arrived. -/
theorem Carries.arriving {bs : Bytes} (h : u.Carries bs) {k : Nat} (hk : ∀ n, u.line (k + n) = []) :
    u.arriving k = bs := by
  obtain ⟨j, rfl, hj⟩ := h
  rcases Nat.le_total j k with hle | hle
  · exact arriving_of_le hj hle
  · refine (arriving_of_le (fun n hn => ?_) hle).symm
    rw [← Nat.add_sub_cancel' hn]
    exact hk _

/-! ## Waiting for the transmitter -/

/-- The line goes on sending. -/
def Drains (u : Uart) : Prop := ∀ k, ∃ j, k ≤ j ∧ 0 < u.drains j

theorem Drains.passed {k : Nat} {read written : Bytes} (h : u.Drains)
    (hp : Passed u k read written u') : u'.Drains := by
  intro n
  obtain ⟨j, hj, hpos⟩ := h (k + n)
  refine ⟨j - k, by omega, ?_⟩
  rw [hp.drains]
  dsimp only
  rwa [Nat.add_sub_cancel' (by omega)]

/-- Waiting for the transmit FIFO to be empty. -/
def waitThre : Polling Uart Unit := pollUntil (device readLsr) fun status => status &&& 0x20 != 0

theorem polls_empty : (u.readLsr.1 &&& 0x20 != 0) = true ↔ u.tick.tx = [] := by
  rw [bne_iff_ne]
  exact status_empty

theorem waitThre_turn {k : Nat} (h : u.tick.tx ≠ [])
    (hr : ∃ u', Returns waitThre u.tick () u' ∧ Passed u.tick k [] [] u' ∧ u'.tx = []) :
    ∃ u', Returns waitThre u () u' ∧ Passed u (1 + k) [] [] u' ∧ u'.tx = [] := by
  obtain ⟨u', hret, hp, htx⟩ := hr
  have hgo : (u.readLsr.1 &&& 0x20 != 0) = false := by
    rw [Bool.eq_false_iff]
    exact fun hb => h (polls_empty.1 hb)
  exact ⟨u', pollUntil_turn (.device readLsr u) hgo hret, (passed_tick u).trans hp, htx⟩

/-- A line that goes on sending empties the FIFO. -/
theorem waitThre_returns (h : u.Drains) :
    ∃ k u', Returns waitThre u () u' ∧ Passed u k [] [] u' ∧ u'.tx = [] := by
  have hstop {u : Uart} (he : u.tick.tx = []) :
      ∃ k u', Returns waitThre u () u' ∧ Passed u k [] [] u' ∧ u'.tx = [] :=
    ⟨1, u.tick, pollUntil_stop (.device readLsr u) (polls_empty.2 he), passed_tick u, he⟩
  -- by the bytes in the FIFO, and then by the time until the next of them leaves
  generalize hm : u.tx.length = m
  induction m using Nat.strong_induction_on generalizing u with
  | _ m ih =>
    obtain ⟨j, -, hj⟩ := h 0
    induction j generalizing u m with
    | zero =>
      by_cases he : u.tick.tx = []
      · exact hstop he
      · have hlt : u.tick.tx.length < m := by
          have hpos := List.length_pos_iff.2 he
          simp only [tick, List.length_drop] at hpos ⊢
          omega
        obtain ⟨k, hk⟩ := ih _ hlt (h.passed (passed_tick u)) rfl
        exact ⟨1 + k, waitThre_turn he hk⟩
    | succ j ihj =>
      by_cases he : u.tick.tx = []
      · exact hstop he
      · have hle : u.tick.tx.length ≤ m := by
          simp only [tick, List.length_drop]
          omega
        obtain ⟨k, hk⟩ := ihj u.tick.tx.length (fun n hn => ih n (by omega))
          (h.passed (passed_tick u)) rfl hj
        exact ⟨1 + k, waitThre_turn he hk⟩

/-! ## A line that waits -/

/-- Before every access the transmit FIFO empties. -/
structure Prompt (u : Uart) : Prop where
  drains : u.drains = fun _ => fifoSize
  short : u.tx.length ≤ fifoSize

theorem Prompt.goes_on (h : u.Prompt) : u.Drains :=
  fun k => ⟨k, Nat.le_refl k, by rw [h.drains]; exact Nat.succ_pos 15⟩

/-- What an access leaves of the transmit FIFO. -/
def flushed (u : Uart) : Uart := { u with tx := [], sent := u.sent ++ u.tx }

theorem Prompt.flushed (h : u.Prompt) : u.flushed.Prompt := ⟨h.drains, Nat.zero_le _⟩

/-- An access before which nothing arrives. -/
theorem tick_silent (h : u.Prompt) (hr : u.rx.length ≤ fifoSize) (hl : u.line 0 = []) :
    u.tick = { u.flushed with line := fun n => u.line (n + 1) } := by
  obtain ⟨hd, ht⟩ := h
  simp only [tick, Uart.flushed, hl, hd, List.append_nil, List.take_of_length_le hr,
    List.take_of_length_le ht, List.drop_eq_nil_of_le ht, Nat.sub_eq_zero_of_le hr, Nat.add_zero]

theorem flushed_of_empty (h : u.tx = []) : u.flushed = u := by
  have hsent : u.sent ++ u.tx = u.sent := by rw [h, List.append_nil]
  rw [Uart.flushed, hsent, ← h]

/-- The program ends with the UART as in `u'`, after `k` accesses before which nothing arrived, whatever
arrives later. -/
def Quiet (p : Polling Uart Unit) (u : Uart) (k : Nat) (u' : Uart) : Prop :=
  ∀ line : Nat → Bytes, (∀ n < k, line n = []) →
    Returns p { u with line } () { u' with line := fun n => line (k + n) }

/-- What a program leaves of a prompt UART with nothing to read. -/
structure Kept (u u' : Uart) : Prop where
  prompt : u'.Prompt
  rx : u'.rx = []
  lost : u'.lost = u.lost

theorem Kept.trans (h : Kept u u') (h' : Kept u' u'') : Kept u u'' :=
  ⟨h'.prompt, h'.rx, h'.lost.trans h.lost⟩

theorem quiet_waitThre (h : u.Prompt) (hr : u.rx = []) :
    Quiet waitThre u 1 u.flushed ∧ Kept u u.flushed := by
  refine ⟨fun line hl => ?_, h.flushed, hr, rfl⟩
  have ht := tick_silent (u := { u with line }) ⟨h.drains, h.short⟩ (by simp [hr, fifoSize]) (hl 0 Nat.one_pos)
  have hret : Returns waitThre { u with line } () ({ u with line } : Uart).tick :=
    pollUntil_stop (.device readLsr _) (polls_empty.2 (by rw [ht]; rfl))
  have hshift : (fun n => line (1 + n)) = fun n => line (n + 1) := by
    funext n
    rw [Nat.add_comm]
  rw [ht] at hret
  rw [hshift]
  exact hret

theorem Quiet.bind {p q : Polling Uart Unit} {j k : Nat} (h : Quiet p u k u') (h' : Quiet q u' j u'') :
    Quiet (do p; q) u (k + j) u'' := by
  intro line hl
  have hq := h' (fun n => line (k + n)) fun n hn => hl (k + n) (by omega)
  simp only [← Nat.add_assoc] at hq
  exact (h line fun n hn => hl n (by omega)).bind hq

theorem fill_silent (h : u.Prompt) (hr : u.rx = []) (bs : Bytes) :
    ∃ u', (∀ line : Nat → Bytes, (∀ n < bs.length, line n = []) →
      ({ u with line } : Uart).fill bs = { u' with line := fun n => line (bs.length + n) }) ∧
      Kept u u' := by
  induction bs generalizing u with
  | nil => exact ⟨u, fun line _ => by simp [fill], h, hr, rfl⟩
  | cons b bs ih =>
    obtain ⟨u', hfill, hkept⟩ := ih (u := { u.flushed with tx := [b] })
      ⟨h.drains, by simp [fifoSize]⟩ hr
    refine ⟨u', fun line hl => ?_, hkept.prompt, hkept.rx, hkept.lost⟩
    have ht := tick_silent (u := { u with line }) ⟨h.drains, h.short⟩ (by simp [hr, fifoSize])
      (hl 0 (Nat.succ_pos _))
    have hw : ({ u with line } : Uart).writeThr b =
        { ({ u.flushed with tx := [b] } : Uart) with line := fun n => line (n + 1) } := by
      rw [writeThr, ht]
      rfl
    have hrest := hfill (fun n => line (n + 1)) fun n hn => hl (n + 1) (Nat.succ_lt_succ hn)
    rw [fill, List.foldl_cons, hw]
    refine hrest.trans ?_
    simp only [List.length_cons, Nat.add_right_comm _ _ 1]

theorem quiet_fill (h : u.Prompt) (hr : u.rx = []) (bs : Bytes) :
    ∃ u', Quiet (device fun u => ((), u.fill bs)) u bs.length u' ∧ Kept u u' := by
  obtain ⟨u', hfill, hkept⟩ := fill_silent h hr bs
  refine ⟨u', fun line hl => ?_, hkept⟩
  have hret := Returns.device (fun u : Uart => ((), u.fill bs)) { u with line }
  rw [hfill line hl] at hret
  exact hret

/-- First `bs`, then nothing before `k` accesses in all, and then what `line` brings. -/
def burst (bs : Bytes) (k : Nat) (line : Nat → Bytes) (n : Nat) : Bytes :=
  if n = 0 then bs else if n < k then [] else line (n - k)

theorem burst_add {bs : Bytes} {k : Nat} {line : Nat → Bytes} (hk : 0 < k) :
    (fun n => burst bs k line (k + n)) = line := by
  funext n
  rw [burst, if_neg (by omega), if_neg (by omega), Nat.add_sub_cancel_left]

theorem carries_burst {bs bs' : Bytes} {k : Nat} {line : Nat → Bytes} (hk : 0 < k)
    (h : Carries { u' with line } bs') : Carries { u with line := burst bs k line } (bs ++ bs') := by
  obtain ⟨j, rfl, hj⟩ := h
  refine ⟨k + j, ?_, fun n hn => ?_⟩
  · have hfirst : (List.range k).flatMap (burst bs k line) = bs := by
      obtain ⟨k, rfl⟩ := Nat.exists_eq_succ_of_ne_zero (Nat.ne_of_gt hk)
      rw [List.range_succ_eq_map, List.flatMap_cons, List.flatMap_map]
      have hrest : (List.range k).flatMap (burst bs (k + 1) line ∘ Nat.succ) = [] := by
        rw [List.flatMap_eq_nil_iff]
        intro n hn
        have hlt := List.mem_range.1 hn
        rw [Function.comp_apply, burst, if_neg (Nat.succ_ne_zero n), if_pos (Nat.succ_lt_succ hlt)]
      exact (congrArg (bs ++ ·) hrest).trans (List.append_nil bs)
    simp only [arriving, List.range_add, List.flatMap_append, List.flatMap_map, hfirst]
    congr 1
    exact List.flatMap_congr fun n _ => congrFun (@burst_add bs k line hk) n
  · have hlate : burst bs k line (k + (n - k)) = line (n - k) :=
      congrFun (@burst_add bs k line hk) (n - k)
    rw [Nat.add_sub_cancel' (by omega)] at hlate
    exact hlate.trans (hj _ (by omega))

end Uart

end Lib
