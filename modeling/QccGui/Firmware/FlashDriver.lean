import QccGui.Lib.SerialFlash
import QccGui.Firmware.Flash

/-!
# The SPI flash driver

The functions of the driver (`micron.c`) that the bootloader calls, over any bus, and what they do
to a chip that takes any time for each erase and each page write.

* `FlashBus`, `chipBus`: what the driver needs of a bus, and the bus that is nothing but the chip.
* `waitReady`, `waitReadyFlag`, `flashErase4kBlock`, `flashProgram`, `flashRead`: the driver.
* `FlashOp.drive`, `drive`: driver calls as `Firmware.Flash` lists them.
* `drive_returns`, `drive_hangs`: they are carried out, unless a page write is over too soon.
-/

namespace QccGui.Firmware

open Lib SerialFlash Polling

/-! ## Transfers -/

def readArrayOpcode : UInt8 := 0x03
def deviceIdRead : UInt8 := 0x9F
def writeEnableCmd : UInt8 := 0x06
def writeDisableCmd : UInt8 := 0x04
def programPageCmd : UInt8 := 0x02
def erase4kBlockOpcode : UInt8 := 0x20
def readStatus : UInt8 := 0x05
def readyBitMask : UInt8 := 0x01

/-- What the driver needs of the bus: a transfer, the wait for its end, and the chip on it. -/
structure FlashBus (σ : Type) where
  transferBlock : (cmdBuffer : Bytes) → (rdByteSize : Nat) → Polling σ Bytes
  txDone : Polling σ Unit
  chip : σ → Chip

/-- `MSS_SPI_transfer_block` as the chip sees it: the number of frames is a 16-bit number, and
not 0. -/
def transferBlock (cmdBuffer : Bytes) (rdByteSize : Nat) : Chip → Bytes × Chip :=
  let transferSize := (cmdBuffer.length + rdByteSize) % 2 ^ 16
  Chip.transfer (cmdBuffer.take (max 1 transferSize)) (transferSize - cmdBuffer.length)

/-- A bus that makes its transfers at once. -/
def chipBus : FlashBus Chip where
  transferBlock cmdBuffer rdByteSize := device (transferBlock cmdBuffer rdByteSize)
  txDone := pure ()
  chip := id

section

variable {σ : Type} (bus : FlashBus σ)

def sendBlock (cmdBuffer : Bytes) : Polling σ Unit := do
  let _ ← bus.transferBlock cmdBuffer 0

/-- One status byte. -/
def pollStatus : Polling σ Bytes := bus.transferBlock [readStatus] 1

def waitReady : Polling σ Unit :=
  pollUntil (pollStatus bus) fun rx => rx.getD 0 0 &&& readyBitMask != 1

def waitReadyFlag : Polling σ Unit :=
  pollUntil (pollStatus bus) fun rx => rx.getD 0 0 &&& 0x02 == 2

/-! ## Driver functions -/

def flashReadDeviceId : Polling σ (UInt8 × UInt8) := do
  let rx ← bus.transferBlock [deviceIdRead] 14
  return (rx.getD 0 0, rx.getD 1 0)

def flashRead (address sizeInBytes : Nat) : Polling σ Bytes := do
  waitReady bus
  let rx ← bus.transferBlock (readArrayOpcode :: addressBytes address) sizeInBytes
  waitReady bus
  return rx

def flashErase4kBlock (address : Nat) : Polling σ Unit := do
  waitReady bus
  sendBlock bus [writeEnableCmd]
  waitReadyFlag bus
  waitReady bus
  sendBlock bus (erase4kBlockOpcode :: addressBytes address)
  waitReady bus

/-- `write_cmd_data`: the command and the data in one transfer. -/
def writeCmdData (cmdBuffer dataBuffer : Bytes) : Polling σ Unit := do
  sendBlock bus (cmdBuffer ++ dataBuffer)
  bus.txDone

/-- The loop of `FLASH_program` over the rest of the buffer: no page write crosses the end of a
page. -/
def programPages (targetAddr : Nat) (buf : Bytes) : Polling σ Unit :=
  if _h : buf = [] then pure ()
  else do
    let nbBytesToWrite := 0x100 - targetAddr % 0x100
    waitReady bus
    sendBlock bus [writeEnableCmd]
    waitReady bus
    writeCmdData bus (programPageCmd :: addressBytes targetAddr) (buf.take nbBytesToWrite)
    programPages (targetAddr + nbBytesToWrite) (buf.drop nbBytesToWrite)
termination_by buf.length
decreasing_by
  have := List.length_pos_iff.2 _h
  have := Nat.mod_lt targetAddr (show 0 < 0x100 by decide)
  simp only [List.length_drop]
  omega

def flashProgram (address : Nat) (writeBuffer : Bytes) : Polling σ Unit := do
  waitReady bus
  sendBlock bus [writeEnableCmd]
  waitReady bus
  sendBlock bus [writeEnableCmd]
  programPages bus address writeBuffer
  waitReadyFlag bus
  waitReady bus
  sendBlock bus [writeDisableCmd]

def FlashOp.drive : FlashOp → Polling σ Unit
  | .eraseBlock address => flashErase4kBlock bus address
  | .program address writeBuffer => flashProgram bus address writeBuffer

/-- The driver calls of a list, one after the other. -/
def drive : List FlashOp → Polling σ Unit
  | [] => pure ()
  | op :: ops => do
    op.drive bus
    drive ops

end

/-! ## What one transfer does -/

section

variable {c : Chip}

theorem transferBlock_eq {cmdBuffer : Bytes} {n : Nat} (h : cmdBuffer ≠ [])
    (hl : cmdBuffer.length + n < 2 ^ 16) :
    transferBlock cmdBuffer n = Chip.transfer cmdBuffer n := by
  have hpos := List.length_pos_iff.2 h
  rw [transferBlock, Nat.mod_eq_of_lt hl, List.take_of_length_le (by omega),
    Nat.add_sub_cancel_left]

theorem pollStatus_returns (c : Chip) :
    Returns (pollStatus chipBus) c [c.settle.status] c.settle := by
  have hd := Returns.device (transferBlock [readStatus] 1) c
  rwa [transferBlock_eq (by simp) (by simp)] at hd

/-- The status poll that finds the chip ready. -/
theorem polls_ready (c : Chip) :
    ([c.settle.status].getD 0 0 &&& readyBitMask != 1) = c.settle.running.isNone := by
  have hbit := Chip.status_ready (c := c.settle)
  have hone : c.settle.status &&& 1 = 0 ∨ c.settle.status &&& 1 = 1 := by
    rw [Chip.status_and (by decide)]
    cases c.settle.running <;> cases c.settle.latch <;> simp <;> decide
  change (c.settle.status &&& 1 != 1) = _
  rcases hone with h | h
  · rw [h, hbit.1 h]
    rfl
  · have hne : c.settle.running ≠ none := fun hn => by
      rw [hbit.2 hn] at h
      exact absurd h (by decide)
    rw [h]
    cases hr : c.settle.running with
    | none => exact absurd hr hne
    | some x => rfl

/-- The status poll that finds the latch set. -/
theorem polls_latch (c : Chip) :
    ([c.settle.status].getD 0 0 &&& 0x02 == 2) = c.settle.latch := by
  have hbit := Chip.status_latch (c := c.settle)
  change (c.settle.status &&& 2 == 2) = _
  rw [Bool.eq_iff_iff, beq_iff_eq]
  exact hbit

/-- `wait_ready` lets what is running end. -/
theorem waitReady_returns (c : Chip) : Returns (waitReady chipBus) c () c.settled := by
  have hstop {c : Chip} (h : c.settle.running = none) :
      Returns (waitReady chipBus) c () c.settled := by
    have hpoll : Returns (waitReady chipBus) c () c.settle :=
      pollUntil_stop (pollStatus_returns c) (by rw [polls_ready, h]; rfl)
    rwa [← Chip.settled_of_idle h, Chip.settled_settle] at hpoll
  rcases hr : c.running with _ | ⟨n, m⟩
  · exact hstop (by rw [Chip.settle_of_idle hr, hr])
  · induction n generalizing c with
    | zero => exact hstop (by rw [Chip.settle, hr])
    | succ n ih =>
      have hs : c.settle.running = some (n, m) := by rw [Chip.settle, hr]
      have hturn := ih c.settle hs
      rw [Chip.settled_settle] at hturn
      refine pollUntil_turn (pollStatus_returns c) ?_ hturn
      rw [polls_ready, hs]
      rfl

theorem waitReady_idle (h : c.running = none) : Returns (waitReady chipBus) c () c := by
  have hr := waitReady_returns c
  rwa [Chip.settled_of_idle h] at hr

/-- `wait_ready_flag` finds the latch set. -/
theorem waitReadyFlag_returns (h : c.settle.latch = true) :
    Returns (waitReadyFlag chipBus) c () c.settle :=
  pollUntil_stop (pollStatus_returns c) (by rw [polls_latch, h])

/-- `wait_ready_flag` waits for ever on a chip that has cleared its latch. -/
theorem waitReadyFlag_hangs (h : c.settle.latch = false) (hr : c.settle.running = none) :
    Hangs (waitReadyFlag chipBus) c := by
  refine pollUntil_hangs (I := fun c => c.settle.latch = false ∧ c.settle.running = none) ?_ ⟨h, hr⟩
  rintro d ⟨hl, hn⟩
  refine ⟨_, _, pollStatus_returns d, by rw [polls_latch, hl], ?_, ?_⟩
  · rwa [Chip.settle_of_idle hn]
  · rwa [Chip.settle_of_idle hn]

/-- A command that is sent to an idle chip. -/
theorem sendBlock_returns (cmd : Bytes) (h : cmd ≠ []) (hl : cmd.length < 2 ^ 16)
    (hi : c.running = none) : Returns (sendBlock chipBus cmd) c () (c.perform 0 (decode cmd)).2 := by
  have hd : Returns (chipBus.transferBlock cmd 0) c _ _ := Returns.device (transferBlock cmd 0) c
  rw [transferBlock_eq h (by omega), Chip.transfer, Chip.settle_of_idle hi] at hd
  exact hd.bind (.pure () _)

theorem writeEnable_returns (hi : c.running = none) :
    Returns (sendBlock chipBus [writeEnableCmd]) c () c.latched := by
  have h := sendBlock_returns [writeEnableCmd] (by simp) (by simp) hi
  rwa [writeEnableCmd, decode, Chip.perform_idle hi] at h

theorem writeDisable_returns (hi : c.running = none) :
    Returns (sendBlock chipBus [writeDisableCmd]) c () { c with latch := false } := by
  have h := sendBlock_returns [writeDisableCmd] (by simp) (by simp) hi
  rwa [writeDisableCmd, decode, Chip.perform_idle hi] at h

theorem erase_returns (hi : c.running = none) (hl : c.latch = true) (address : Nat) :
    Returns (sendBlock chipBus (erase4kBlockOpcode :: addressBytes address)) c ()
      (c.begin (c.mem.erase4k (address % 2 ^ 24))) := by
  have h := sendBlock_returns (erase4kBlockOpcode :: addressBytes address) (by simp)
    (by simp [addressBytes]) hi
  rwa [erase4kBlockOpcode, addressBytes, decode, address24_bytes, Chip.perform_idle hi, Chip.answer,
    if_pos hl] at h

theorem pageProgram_returns (hi : c.running = none) (hl : c.latch = true) {address : Nat}
    {data : Bytes} (hd : address % 256 + data.length ≤ 256) :
    Returns (writeCmdData chipBus (programPageCmd :: addressBytes address) data) c ()
      (c.begin (c.mem.program (address % 2 ^ 24) data)) := by
  have h := sendBlock_returns (programPageCmd :: addressBytes address ++ data) (by simp)
    (by simp [addressBytes]; omega) hi
  have hpage : pageProgram c.mem (address % 2 ^ 24) data = c.mem.program (address % 2 ^ 24) data :=
    pageProgram_of_le (by omega)
  rw [programPageCmd, addressBytes, List.cons_append, List.cons_append, List.cons_append,
    List.cons_append, List.nil_append, decode, address24_bytes, Chip.perform_idle hi, Chip.answer,
    if_pos hl, hpage] at h
  exact h

/-! ## What a driver call does -/

/-- `c'` is the chip `c` once it has carried out `k` operations that leave the contents `m`. -/
structure Served (c : Chip) (m : Nor) (k : Nat) (c' : Chip) : Prop where
  running : c'.running = none
  mem : c'.mem = m
  delays : c'.delays = fun i => c.delays (i + k)
  id : c'.id = c.id
  ignored : c'.ignored = c.ignored

theorem Served.trans {c₁ c₂ : Chip} {m₁ m₂ : Nor} {j k : Nat} (h₁ : Served c m₁ j c₁)
    (h₂ : Served c₁ m₂ k c₂) : Served c m₂ (j + k) c₂ where
  running := h₂.running
  mem := h₂.mem
  delays := by
    rw [h₂.delays, h₁.delays]
    funext i
    change c.delays (i + k + j) = _
    rw [Nat.add_assoc, Nat.add_comm k j]
  id := h₂.id.trans h₁.id
  ignored := h₂.ignored.trans h₁.ignored

/-- The block erase always returns. -/
theorem flashErase4kBlock_returns (hi : c.running = none) (address : Nat) :
    ∃ c', Returns (flashErase4kBlock chipBus address) c () c' ∧
      Served c (c.mem.erase4k (address % 2 ^ 24)) 1 c' := by
  have hi' : c.latched.running = none := hi
  have hflag : Returns (waitReadyFlag chipBus) c.latched () c.latched := by
    have h := waitReadyFlag_returns (c := c.latched) (by rw [Chip.settle_of_idle hi']; rfl)
    rwa [Chip.settle_of_idle hi'] at h
  refine ⟨_, (waitReady_idle hi).bind <| (writeEnable_returns hi).bind <| hflag.bind <|
    (waitReady_idle hi').bind <| (erase_returns hi' rfl address).bind (waitReady_returns _), ?_⟩
  exact ⟨rfl, rfl, rfl, rfl, rfl⟩

/-- The chip after page writes, each of which waited for the one before it. -/
def afterPages (c : Chip) : List (Nat × Bytes) → Chip
  | [] => c
  | (a, data) :: pages =>
    afterPages (c.settled.latched.begin (c.settled.mem.program a data)) pages

theorem programPages_returns (c : Chip) (targetAddr : Nat) (buf : Bytes) :
    Returns (programPages chipBus targetAddr buf) c () (afterPages c (flashPages targetAddr buf)) := by
  induction targetAddr, buf using flashPages.induct generalizing c with
  | case1 targetAddr =>
    rw [programPages, flashPages, dif_pos rfl, dif_pos rfl]
    exact .pure () c
  | case2 targetAddr buf hb n ih =>
    rw [programPages, flashPages, dif_neg hb, dif_neg hb, afterPages]
    have hidle : c.settled.latched.running = none := Chip.settled_running
    have hpage : targetAddr % 256 + (buf.take n).length ≤ 256 := by
      rw [List.length_take]
      omega
    exact (waitReady_returns c).bind <| (writeEnable_returns Chip.settled_running).bind <|
      (waitReady_idle hidle).bind <| (pageProgram_returns hidle rfl hpage).bind (ih _)

/-- The last page write is running, and the others have ended. -/
theorem afterPages_spec {pages : List (Nat × Bytes)} (h : pages ≠ []) (c : Chip) :
    (afterPages c pages).running =
        some (c.delays (pages.length - 1), pages.foldl (fun m x => m.program x.1 x.2) c.settled.mem) ∧
      (afterPages c pages).latch = true ∧
      (afterPages c pages).delays = (fun i => c.delays (i + pages.length)) ∧
      (afterPages c pages).id = c.id ∧ (afterPages c pages).ignored = c.ignored := by
  induction pages generalizing c with
  | nil => exact absurd rfl h
  | cons x pages ih =>
    rw [afterPages]
    rcases hp : pages with _ | ⟨y, pages'⟩
    · refine ⟨?_, rfl, ?_, ?_, ?_⟩ <;> simp [afterPages, Chip.begin, Chip.latched]
    · rw [← hp]
      obtain ⟨h₁, h₂, h₃, h₄, h₅⟩ := ih (by rw [hp]; simp)
        (c.settled.latched.begin (c.settled.mem.program x.1 x.2))
      refine ⟨h₁.trans ?_, h₂, h₃.trans ?_, h₄.trans Chip.settled_id, h₅.trans Chip.settled_ignored⟩
      · have hlen : pages.length - 1 + 1 = pages.length := by rw [hp]; simp
        change some (c.settled.delays (pages.length - 1 + 1), _) = _
        rw [hlen, Chip.settled_delays]
        rfl
      · funext i
        simp [Chip.begin, Nat.add_assoc]

theorem flashPages_ne_nil (address : Nat) {buf : Bytes} (h : buf ≠ []) :
    flashPages address buf ≠ [] := by
  rw [flashPages, dif_neg h]
  exact List.cons_ne_nil _ _

/-- The operations of the chip that a driver call starts. -/
def FlashOp.operations : FlashOp → Nat
  | .eraseBlock _ => 1
  | .program address buf => (flashPages address buf).length

/-- The chip is still at the last page write of a call when its status is polled the next time. -/
def FlashOp.Outlasts (delays : Nat → Nat) : FlashOp → Prop
  | .eraseBlock _ => True
  | .program address buf => buf = [] ∨ 0 < delays ((flashPages address buf).length - 1)

/-- The two write enables of `FLASH_program` and its loop. -/
theorem flashProgram_pages (hi : c.running = none) (address : Nat) (buf : Bytes) {r : Chip}
    {q : Polling Chip Unit} (hq : Returns q (afterPages c.latched (flashPages address buf)) () r) :
    Returns (do
      waitReady chipBus
      sendBlock chipBus [writeEnableCmd]
      waitReady chipBus
      sendBlock chipBus [writeEnableCmd]
      programPages chipBus address buf
      q) c () r :=
  (waitReady_idle hi).bind <| (writeEnable_returns hi).bind <|
    (waitReady_idle (c := c.latched) hi).bind <| (writeEnable_returns (c := c.latched) hi).bind <|
      (programPages_returns c.latched address buf).bind hq

/-- Its last page write ends too early, and the flag that `wait_ready_flag` waits for is gone. -/
theorem flashProgram_hangs (hi : c.running = none) {address : Nat} {buf : Bytes}
    (ho : ¬ (FlashOp.program address buf).Outlasts c.delays) :
    Hangs (flashProgram chipBus address buf) c := by
  simp only [FlashOp.Outlasts, not_or, Nat.not_lt, Nat.le_zero] at ho
  obtain ⟨hbuf, hzero⟩ := ho
  obtain ⟨h₁, -⟩ := afterPages_spec (flashPages_ne_nil address hbuf) c.latched
  rw [Chip.latched_delays, hzero] at h₁
  refine (waitReady_idle hi).bind_hangs <| (writeEnable_returns hi).bind_hangs <|
    (waitReady_idle (c := c.latched) hi).bind_hangs <|
    (writeEnable_returns (c := c.latched) hi).bind_hangs <|
    (programPages_returns c.latched address buf).bind_hangs <| Hangs.bind <|
    waitReadyFlag_hangs ?_ ?_
  · rw [Chip.settle, h₁]
  · rw [Chip.settle, h₁]

theorem flashProgram_returns (hi : c.running = none) {address : Nat} {buf : Bytes}
    (ho : (FlashOp.program address buf).Outlasts c.delays) :
    ∃ c', Returns (flashProgram chipBus address buf) c () c' ∧
      Served c ((FlashOp.program address buf).run c.mem)
        (FlashOp.program address buf).operations c' := by
  by_cases hbuf : buf = []
  · -- nothing is written, and the flag is that of the write enable
    have hpages : flashPages address buf = [] := by rw [flashPages, dif_pos hbuf]
    have hset : c.latched.settle = c.latched := Chip.settle_of_idle hi
    have hflag := waitReadyFlag_returns (c := c.latched) (by rw [hset]; rfl)
    rw [hset] at hflag
    refine ⟨{ c.latched with latch := false }, flashProgram_pages hi address buf ?_, ?_⟩
    · rw [hpages]
      exact hflag.bind <| (waitReady_idle (c := c.latched) hi).bind (writeDisable_returns hi)
    · rw [FlashOp.run, FlashOp.operations, hpages]
      exact ⟨hi, rfl, rfl, rfl, rfl⟩
  · obtain ⟨h₁, h₂, h₃, h₄, h₅⟩ :=
      afterPages_spec (flashPages_ne_nil address hbuf) c.latched
    obtain ⟨n, hn⟩ := Nat.exists_eq_succ_of_ne_zero (ho.resolve_left hbuf).ne'
    rw [Chip.latched_delays, hn] at h₁
    have hset : (afterPages c.latched (flashPages address buf)).settle.latch = true := by
      rw [Chip.settle, h₁]
      exact h₂
    refine ⟨_, flashProgram_pages hi address buf <| (waitReadyFlag_returns hset).bind <|
      (waitReady_returns _).bind (writeDisable_returns Chip.settled_running), ?_⟩
    have hmem : (afterPages c.latched (flashPages address buf)).settled.mem =
        (FlashOp.program address buf).run c.mem := by
      rw [Chip.settled, h₁]
      change _ = (flashPages address buf).foldl (fun m x => m.program x.1 x.2) c.mem
      rw [Chip.settled_of_idle (c := c.latched) hi]
      rfl
    rw [Chip.settled_settle]
    refine ⟨Chip.settled_running, hmem, ?_, ?_, ?_⟩
    · exact Chip.settled_delays.trans h₃
    · exact Chip.settled_id.trans h₄
    · exact Chip.settled_ignored.trans h₅

/-! ## Lists of driver calls -/

/-- Every page write that is the last of its call outlasts the next status poll. -/
def AllOutlast : (Nat → Nat) → List FlashOp → Prop
  | _, [] => True
  | delays, op :: ops =>
    op.Outlasts delays ∧ AllOutlast (fun i => delays (i + op.operations)) ops

def operations (ops : List FlashOp) : Nat := (ops.map FlashOp.operations).sum

theorem FlashOp.drive_returns (hi : c.running = none) {op : FlashOp} (ho : op.Outlasts c.delays) :
    ∃ c', Returns (op.drive chipBus) c () c' ∧ Served c (op.run c.mem) op.operations c' := by
  cases op with
  | eraseBlock address => exact flashErase4kBlock_returns hi address
  | program address buf => exact flashProgram_returns hi ho

theorem FlashOp.drive_hangs (hi : c.running = none) {op : FlashOp} (ho : ¬ op.Outlasts c.delays) :
    Hangs (op.drive chipBus) c := by
  cases op with
  | eraseBlock address => exact absurd trivial ho
  | program address buf => exact flashProgram_hangs hi ho

theorem drive_returns {ops : List FlashOp} (hi : c.running = none) (ho : AllOutlast c.delays ops) :
    ∃ c', Returns (drive chipBus ops) c () c' ∧ Served c (runOps c.mem ops) (operations ops) c' := by
  induction ops generalizing c with
  | nil => exact ⟨c, .pure () c, hi, rfl, rfl, rfl, rfl⟩
  | cons op ops ih =>
    obtain ⟨c₁, hr₁, hs₁⟩ := FlashOp.drive_returns hi ho.1
    obtain ⟨c₂, hr₂, hs₂⟩ := ih hs₁.running (by rw [hs₁.delays]; exact ho.2)
    rw [hs₁.mem] at hs₂
    exact ⟨c₂, hr₁.bind hr₂, hs₁.trans hs₂⟩

theorem drive_hangs {ops : List FlashOp} (hi : c.running = none) (ho : ¬ AllOutlast c.delays ops) :
    Hangs (drive chipBus ops) c := by
  induction ops generalizing c with
  | nil => exact absurd trivial ho
  | cons op ops ih =>
    by_cases hop : op.Outlasts c.delays
    · obtain ⟨c₁, hr₁, hs₁⟩ := FlashOp.drive_returns hi hop
      refine hr₁.bind_hangs (ih hs₁.running ?_)
      rw [hs₁.delays]
      exact fun h => ho ⟨hop, h⟩
    · exact (FlashOp.drive_hangs hi hop).bind

/-- A chip that takes its time does. -/
theorem allOutlast_of_pos {delays : Nat → Nat} (h : ∀ i, 0 < delays i) (ops : List FlashOp) :
    AllOutlast delays ops := by
  induction ops generalizing delays with
  | nil => trivial
  | cons op ops ih =>
    refine ⟨?_, ih fun i => h _⟩
    cases op with
    | eraseBlock => trivial
    | program => exact .inr (h _)

/-- The chip as it comes, erased. -/
def erasedChip (delays : Nat → Nat) : Chip where
  mem := .erased w25q64
  latch := false
  running := none
  delays := delays
  otherBits := 0
  id := []
  ignored := 0

end

end QccGui.Firmware
