import QccGui.Firmware.Flash
import QccGui.Lib.Framing

/-!
# The bootloader of a QTRM

The request loop of the firmware (`main`, `wait_for_new_request`, `recieve_bit_stream`), one
`MSS_UART_get_rx` poll a step.

* `Dev`: the flash memory, the LRU record, and the log of everything the firmware did (`Act`).
* `serve`: what one received command does; `packetDone`: what one received packet of an image does.
* `State`, `step`, `machine`: the two receive loops with their buffers, counters and idle timers.

`main` calls `wait_for_new_request` again as soon as it returns, so a return of that function is the
entry of its next call.
-/

namespace QccGui.Firmware

open Lib

def cmdMsgPacketSize : Nat := 10
def bitStreamPacketHeaderSize : Nat := 10

/-- What the firmware reads from the hardware besides the UART: the two information registers, the
status that `MSS_SYS_initiate_iap` returns, and whether the mode change flag is ever raised again
once the firmware waits for it. -/
structure Env where
  coreGpio0 : UInt32 := 0
  coreGpio1 : UInt16 := 0
  iapStatus : UInt8 := 0
  modeChangeFlag : Bool := true

inductive IapMode
  | authenticate
  | program
  | verify
  deriving DecidableEq, Repr

/-- The mode byte on the wire. -/
def IapMode.code : IapMode → UInt8
  | .authenticate => 1
  | .program => 2
  | .verify => 3

/-- A call of the firmware that the outside can notice. -/
inductive Act
  | tx (packet : Bytes)
  | writeToSpi (writeBuff : Bytes) (packetSize packetIndex : Nat) (imageIsGolden : UInt8)
  | updateSpiDir
  | initiateIap (mode : IapMode) (address : Nat)
  | setOutput (pin value : Nat)
  deriving DecidableEq, Repr

/-- The driver calls behind an act. -/
def Act.flashOps : Act → List FlashOp
  | .writeToSpi buf size index flag => Firmware.writeToSpi buf size index flag
  | .updateSpiDir => Firmware.updateSpiDir
  | _ => []

structure LruInfo where
  fabricVersionNo : UInt8 := 0
  mfgId : UInt8 := 0
  lmId : UInt8 := 0
  partNo : UInt8 := 0
  serialNo : UInt16 := 0

structure Dev where
  flash : Nor
  lru : LruInfo := {}
  log : List Act := []

namespace Dev

/-- Performing an act: it is logged, and its driver calls change the memory. -/
def act (d : Dev) (a : Act) : Dev :=
  { d with flash := runOps d.flash a.flashOps, log := d.log ++ [a] }

def acts (d : Dev) (as : List Act) : Dev := as.foldl act d

variable (d : Dev) (a : Act) (as bs : List Act)

@[simp] theorem act_log : (d.act a).log = d.log ++ [a] := rfl

@[simp] theorem act_lru : (d.act a).lru = d.lru := rfl

@[simp] theorem act_flash : (d.act a).flash = runOps d.flash a.flashOps := rfl

@[simp] theorem acts_nil : d.acts [] = d := rfl

@[simp] theorem acts_cons : d.acts (a :: as) = (d.act a).acts as := rfl

@[simp] theorem acts_append : d.acts (as ++ bs) = (d.acts as).acts bs := by simp [acts]

@[simp] theorem acts_log : (d.acts as).log = d.log ++ as := by
  induction as generalizing d with
  | nil => simp
  | cons a as ih => simp [ih]

@[simp] theorem acts_lru : (d.acts as).lru = d.lru := by
  induction as generalizing d with
  | nil => rfl
  | cons a as ih => simp [ih]

@[simp] theorem acts_flash : (d.acts as).flash = runOps d.flash (as.flatMap Act.flashOps) := by
  induction as generalizing d with
  | nil => rfl
  | cons a as ih => simp [ih]

end Dev

/-! ## Replies -/

/-- `getCheckSum`: the XOR of the first `pMsg[1] * 5 + 10` bytes goes into the last of them. -/
def getCheckSum (pMsg : Bytes) : Bytes :=
  let packetSize := (pMsg.getD 1 0 * 5 + 10).toNat
  pMsg.set (packetSize - 1) (xorSum (pMsg.take packetSize))

/-- A ten byte packet with size identifier 0 and a zero check byte gets its check byte. -/
theorem getCheckSum_eq (a b c d e f g h : UInt8) :
    getCheckSum [a, 0, b, c, d, e, f, g, h, 0] = sealed [a, 0, b, c, d, e, f, g, h] := by
  simp [getCheckSum, sealed, xorSum]

/-- `send_receive_packet_ack`. -/
def receivePacketAck (packetIndex : Nat) (passOrFail : UInt8) : Bytes :=
  getCheckSum [0xAA, 0x00, 0x35, 0x00, 0x00, byte packetIndex, byte (packetIndex / 256), passOrFail,
    0x00, 0x00]

/-- `sendLinkRes`. -/
def linkRes : Bytes := getCheckSum [0xAA, 0x00, 0x34, 0x00, 0x00, 0xB1, 0xB2, 0xB3, 0xB4, 0x00]

/-- `get_LRU_info`. -/
def getLruInfo (env : Env) : LruInfo where
  mfgId := (env.coreGpio1 >>> 8).toUInt8
  fabricVersionNo := env.coreGpio1.toUInt8
  lmId := (env.coreGpio0 >>> 24).toUInt8
  partNo := (env.coreGpio0 >>> 16).toUInt8
  serialNo := env.coreGpio0.toUInt16

/-- `send_LRU_info`. -/
def lruInfoRes (lru : LruInfo) : Bytes :=
  getCheckSum [0xAA, 0x00, 0x30, 0x00, 0x00, lru.mfgId <<< 4 ||| (lru.partNo &&& 0x0F),
    lru.serialNo.toUInt8, (lru.serialNo >>> 8).toUInt8, lru.fabricVersionNo, 0x00]

/-- The reply of `iap_authenticate` and `iap_verify`. -/
def iapRes (mode : IapMode) (result : UInt8) : Bytes :=
  getCheckSum [0xAA, 0x00, 0x35, 0x00, 0x00, mode.code, result, 0x00, 0x00, 0x00]

/-- `send_error`. -/
def errorMsg (headerErr timeout crcError : UInt8) : Bytes :=
  getCheckSum [0xAA, 0x00, 0x3F, 0x00, 0x00, headerErr, crcError, timeout, 0x00, 0x00]

/-! ## Commands -/

/-- Where the firmware is between two groups of bytes: waiting for a command, waiting for packet
`packetIndex` of a transfer, or in a loop that it never leaves. -/
inductive Mode
  | request
  | bitStream (totalPacketCount packetSize : Nat) (imageIsGolden : UInt8) (packetIndex : Nat)
  | hung
  deriving DecidableEq, Repr

structure Boot where
  dev : Dev
  mode : Mode

/-- Back in the request loop once `recieve_bit_stream` has returned. -/
def afterBitStream (d : Dev) (imageIsGolden : UInt8) : Boot :=
  ⟨if imageIsGolden ≠ 0 then d.act .updateSpiDir else d, .request⟩

/-- `recieve_bit_stream` up to its first poll. -/
def recieveBitStream (d : Dev) (totalPacketCount packetSize : Nat) (imageIsGolden : UInt8) : Boot :=
  if 0 < totalPacketCount then ⟨d, .bitStream totalPacketCount packetSize imageIsGolden 0⟩
  else afterBitStream d imageIsGolden

/-- The image that an IAP command is about. -/
def iapAddress (imageIsGolden : UInt8) : Nat :=
  if imageIsGolden ≠ 0 then goldenImageAddress else iapImageAddress

/-- `iap_authenticate`, `iap_verify`: run the service and send its status. -/
def iapPoll (d : Dev) (env : Env) (mode : IapMode) (imageIsGolden : UInt8) : Boot :=
  ⟨(d.act (.initiateIap mode (iapAddress imageIsGolden))).act (.tx (iapRes mode env.iapStatus)),
    .request⟩

/-- `iap_program` sends nothing, and loops for ever unless the status is 6. -/
def iapProgram (d : Dev) (env : Env) (imageIsGolden : UInt8) : Boot :=
  ⟨d.act (.initiateIap .program (iapAddress imageIsGolden)),
    if env.iapStatus = 6 then .request else .hung⟩

/-- `mode_change_mss_to_fab`: hand the UART to the fabric and wait for the flag to come back. -/
def modeChangeMssToFab (d : Dev) (env : Env) : Boot :=
  let d := d.acts [.setOutput 25 1, .setOutput 3 1, .setOutput 2 1, .setOutput 31 1]
  if env.modeChangeFlag then
    ⟨d.acts [.setOutput 25 1, .setOutput 3 0, .setOutput 2 1, .setOutput 31 0], .request⟩
  else ⟨d, .hung⟩

/-- `headerAndCheckSumCheck` accepts everything. -/
def headerAndCheckSumCheck (_rxBuff : Bytes) (_size : Nat) : Bool := true

/-- What `wait_for_new_request` does with a received command. -/
def serve (d : Dev) (env : Env) (recvData : Bytes) : Boot :=
  if headerAndCheckSumCheck recvData cmdMsgPacketSize then
    let at' (i : Nat) : UInt8 := recvData.getD i 0
    if at' 2 = 0x30 then ⟨d.act (.tx linkRes), .request⟩
    else if at' 2 = 0x33 then
      recieveBitStream d (word16 (at' 7) (at' 8)) (word16 (at' 5) (at' 6)) (at' 3)
    else if at' 2 = 0x36 then
      let iapMode := 0x0F &&& at' 5
      if iapMode = 1 then iapPoll d env .authenticate (at' 3)
      else if iapMode = 2 then iapProgram d env (at' 3)
      else if iapMode = 3 then iapPoll d env .verify (at' 3)
      else ⟨d, .request⟩
    else if at' 2 = 0x31 then
      let lru := getLruInfo env
      ⟨{ d with lru }.act (.tx (lruInfoRes lru)), .request⟩
    else if at' 2 = 0x32 then modeChangeMssToFab d env
    else ⟨d, .request⟩
  else ⟨d, .request⟩

/-- What `recieve_bit_stream` does once packet `packetIndex` is in the buffer. `write_to_spi`
returns 1 always, so every packet is acknowledged as passed. -/
def packetActs (packetSize : Nat) (imageIsGolden : UInt8) (packetIndex : Nat) (recvData : Bytes) :
    List Act :=
  [.writeToSpi (slice recvData bitStreamPacketHeaderSize packetSize) packetSize packetIndex
      imageIsGolden,
    .tx (receivePacketAck packetIndex 1)]

def packetDone (d : Dev) (totalPacketCount packetSize : Nat) (imageIsGolden : UInt8)
    (packetIndex : Nat) (recvData : Bytes) : Boot :=
  let d := d.acts (packetActs packetSize imageIsGolden packetIndex recvData)
  if packetIndex + 1 < totalPacketCount then
    ⟨d, .bitStream totalPacketCount packetSize imageIsGolden (packetIndex + 1)⟩
  else afterBitStream d imageIsGolden

/-- What `recieve_bit_stream` does when its idle timer trips. -/
def packetTimeout (d : Dev) (imageIsGolden : UInt8) : Boot :=
  afterBitStream (d.act (.tx (errorMsg 0 1 0))) imageIsGolden

/-! ## The receive loops -/

/-- The local variables of a receive loop. -/
inductive Pc
  | request (byteCount : Nat) (recvData : Bytes) (timer : Nat)
  | bitStream (totalPacketCount packetSize : Nat) (imageIsGolden : UInt8) (packetIndex : Nat)
      (byteCount : Nat) (recvData : Bytes) (pRecvBuff : Nat) (timer : Nat)
  | hung
  deriving DecidableEq, Repr

structure State where
  dev : Dev
  pc : Pc

/-- The firmware at the start of a receive loop. -/
def enter (b : Boot) : State :=
  ⟨b.dev, match b.mode with
    | .request => .request 0 (zeros (pad4 cmdMsgPacketSize)) 0
    | .bitStream total size flag index =>
      .bitStream total size flag index 0 (zeros (pad4 (size + bitStreamPacketHeaderSize))) 0 0
    | .hung => .hung⟩

/-- How many bytes the next poll asks for. -/
def want : Pc → Nat
  | .request .. => 1
  | .bitStream _ size _ _ byteCount _ _ _ =>
    min (pad4 (size + bitStreamPacketHeaderSize) - byteCount) 16
  | .hung => 0

/-- Storing received bytes in a buffer from `i` on. -/
def store (buf : Bytes) (i : Nat) (bs : Bytes) : Bytes :=
  buf.take i ++ bs ++ buf.drop (i + bs.length)

/-- One poll. -/
def step (s : State) (p : Poll UInt8 Env) : State :=
  match s.pc with
  | .request byteCount recvData timer =>
    if p.data ≠ [] then
      let recvData := store recvData byteCount p.data
      let byteCount := byteCount + p.data.length
      if byteCount = pad4 cmdMsgPacketSize then enter (serve s.dev p.env recvData)
      else { s with pc := .request byteCount recvData 0 }
    else if timer > 1000000 then enter ⟨s.dev, .request⟩
    else { s with pc := .request byteCount recvData (timer + 1) }
  | .bitStream total size flag index byteCount recvData pRecvBuff timer =>
    if p.data ≠ [] then
      let recvData := store recvData pRecvBuff p.data
      let pRecvBuff := pRecvBuff + p.data.length
      let byteCount := byteCount + p.data.length
      if byteCount = pad4 (size + bitStreamPacketHeaderSize) then
        enter (packetDone s.dev total size flag index recvData)
      else { s with pc := .bitStream total size flag index byteCount recvData pRecvBuff 0 }
    else if timer > 2000000 then enter (packetTimeout s.dev flag)
    else { s with pc := .bitStream total size flag index byteCount recvData pRecvBuff (timer + 1) }
  | .hung => s

/-- The firmware: every poll returns at most what it was asked for, and there is none in a loop that
does not read. -/
def machine : Machine State (Poll UInt8 Env) where
  enabled s p := 0 < want s.pc ∧ p.data.length ≤ want s.pc
  step := step

@[simp] theorem machine_step (s : State) (p : Poll UInt8 Env) : machine.step s p = step s p := rfl

/-- The idle timer trips at this poll. -/
def TimesOut (s : State) (p : Poll UInt8 Env) : Prop :=
  p.data = [] ∧ match s.pc with
    | .request _ _ timer => timer > 1000000
    | .bitStream _ _ _ _ _ _ _ timer => timer > 2000000
    | .hung => False

/-- The firmware waits for the first byte of a command. -/
def AtCommand (s : State) : Prop :=
  ∃ timer, s.pc = .request 0 (zeros (pad4 cmdMsgPacketSize)) timer

end QccGui.Firmware
