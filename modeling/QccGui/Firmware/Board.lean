import QccGui.Firmware.Receive
import QccGui.Firmware.SpiDriver
import QccGui.Firmware.UartDriver

/-!
# The bootloader on its board

The receive loops of the bootloader with every poll, packet and flash call made by the drivers, over
a UART whose line takes and brings bytes at any time and a flash chip that takes any time for its
operations, on a bus that serves the flash driver.

* `Act.perform`, `turn`, `onBoard`: the loops over the drivers.
* `Refines`: the loops have made a run of `machine`, whose polls took the bytes of the line.
* `board_refines`: they have, unless the flash driver waits for ever.
* `board_hears`: any run of `machine` is made so, on a line that waits for the board.
-/

namespace QccGui.Firmware

open Lib Uart SerialFlash Polling

/-- The UART, and the bus of the flash chip. -/
abbrev Board (σ : Type) := Uart × σ

section

variable {σ : Type} (bus : FlashBus σ)

/-- The driver calls of an act. The system controller and the pins are not on the board. -/
def Act.perform : Act → Polling (Board σ) Unit
  | .tx packet => onFst (uartPolledTx packet)
  | .writeToSpi buf size index flag => onSnd (drive bus (Firmware.writeToSpi buf size index flag))
  | .updateSpiDir => onSnd do
    let _ ← updateSpiDirDriver bus
  | .initiateIap .. | .setOutput .. => pure ()

def performs : List Act → Polling (Board σ) Unit
  | [] => pure ()
  | a :: as => do
    a.perform bus
    performs as

/-- One turn of a receive loop, with what it leads to. -/
def turn (env : Env) (s : State) : Polling (Board σ) State := do
  let data ← onFst (device (uartGetRx (want s.pc)))
  let s' := step s ⟨env, data⟩
  performs bus (s'.dev.log.drop s.dev.log.length)
  return s'

/-- The receive loops turn as often as they are given an environment, or until the firmware reads
no more. -/
def onBoard : List Env → State → Polling (Board σ) State
  | [], s => pure s
  | env :: envs, s =>
    if want s.pc = 0 then pure s
    else do
      let s' ← turn bus env s
      onBoard envs s'

end

/-! ## What a step adds to the log -/

/-- `d'` is `d` after some more acts, but for the LRU record. -/
def Grows (d d' : Dev) : Prop :=
  ∃ as, d'.log = d.log ++ as ∧ d'.flash = runOps d.flash (as.flatMap Act.flashOps)

variable {d d' d'' : Dev} {s s' : State} {u : Uart} {c : Chip}

theorem Grows.refl (d : Dev) : Grows d d := ⟨[], by simp, rfl⟩

theorem Grows.trans (h : Grows d d') (h' : Grows d' d'') : Grows d d'' := by
  obtain ⟨as, hl, hf⟩ := h
  obtain ⟨bs, hl', hf'⟩ := h'
  exact ⟨as ++ bs, by rw [hl', hl, List.append_assoc], by rw [hf', hf, List.flatMap_append, runOps_append]⟩

theorem grows_acts (d : Dev) (as : List Act) : Grows d (d.acts as) := ⟨as, by simp, by simp⟩

theorem grows_act (d : Dev) (a : Act) : Grows d (d.act a) := grows_acts d [a]

theorem grows_afterBitStream (d : Dev) (flag : UInt8) : Grows d (afterBitStream d flag).dev := by
  unfold afterBitStream
  split
  · exact grows_act ..
  · exact .refl d

theorem grows_serve (d : Dev) (env : Env) (recvData : Bytes) :
    Grows d (serve d env recvData).dev := by
  unfold serve
  dsimp only
  repeat' split
  all_goals first
    | exact .refl d
    | exact grows_act ..
    | skip
  · unfold recieveBitStream
    split
    · exact .refl d
    · exact grows_afterBitStream ..
  · exact (grows_act ..).trans (grows_act ..)
  · exact (grows_act ..).trans (grows_act ..)
  · unfold modeChangeMssToFab
    dsimp only
    split
    · exact (grows_acts ..).trans (grows_acts ..)
    · exact grows_acts ..

theorem grows_packetDone (d : Dev) (total size : Nat) (flag : UInt8) (index : Nat)
    (recvData : Bytes) : Grows d (packetDone d total size flag index recvData).dev := by
  unfold packetDone
  dsimp only
  split
  · exact grows_acts ..
  · exact (grows_acts ..).trans (grows_afterBitStream ..)

theorem grows_step (s : State) (p : Poll UInt8 Env) : Grows s.dev (step s p).dev := by
  obtain ⟨d, pc⟩ := s
  cases pc with
  | request =>
    dsimp only [step]
    split
    · split
      · exact grows_serve ..
      · exact .refl d
    · split <;> exact .refl d
  | bitStream total size flag index =>
    dsimp only [step]
    split
    · split
      · exact grows_packetDone ..
      · exact .refl d
    · split
      · exact (grows_act ..).trans (grows_afterBitStream (d.act (.tx (errorMsg 0 1 0))) flag)
      · exact .refl d
  | hung => exact .refl d

/-! ## Acts -/

/-- The bytes that acts send. -/
def transmitted (as : List Act) : Bytes :=
  as.flatMap fun
    | .tx packet => packet
    | _ => []

@[simp] theorem transmitted_append (as bs : List Act) :
    transmitted (as ++ bs) = transmitted as ++ transmitted bs := List.flatMap_append

theorem Served.refl (h : c.running = none) : Served c c.mem 0 c := ⟨h, rfl, rfl, rfl, rfl⟩

/-- What the driver calls of some acts do, unless one of them waits for ever. -/
def Performed (p : Polling (Board Chip) Unit) (as : List Act) (u : Uart) (c : Chip) : Prop :=
  (∃ k j u' c', Returns p (u, c) () (u', c') ∧ Passed u k [] (transmitted as) u' ∧
    Served c (runOps c.mem (as.flatMap Act.flashOps)) j c') ∨
  Hangs p (u, c) ∧ ∃ i, c.delays i = 0

theorem not_allOutlast {delays : Nat → Nat} {ops : List FlashOp} (h : ¬ AllOutlast delays ops) :
    ∃ i, delays i = 0 := by
  by_contra hno
  exact h (allOutlast_of_pos (fun i => Nat.pos_of_ne_zero fun hi => hno ⟨i, hi⟩) ops)

theorem performed_act (hu : u.Drains) (hc : c.running = none) (a : Act) :
    Performed (a.perform chipBus) [a] u c := by
  have hflash : ∀ (q : Polling Chip Unit), a.perform chipBus = onSnd q → transmitted [a] = [] →
      (AllOutlast c.delays a.flashOps → ∃ j c', Returns q c () c' ∧
        Served c (runOps c.mem a.flashOps) j c') →
      (¬ AllOutlast c.delays a.flashOps → Hangs q c) → Performed (a.perform chipBus) [a] u c := by
    intro q hq ht hret hhang
    rw [hq]
    by_cases ho : AllOutlast c.delays a.flashOps
    · obtain ⟨j, c', hr, hs⟩ := hret ho
      refine .inl ⟨0, j, u, c', hr.onSnd, ?_, by simpa using hs⟩
      rw [ht]
      exact .refl u
    · exact .inr ⟨(hhang ho).onSnd, not_allOutlast ho⟩
  cases a with
  | tx packet =>
    obtain ⟨k, u', hr, hp⟩ := uartPolledTx_returns hu packet
    exact .inl ⟨k, 0, u', c, hr.onFst, by simpa [transmitted] using hp, .refl hc⟩
  | writeToSpi buf size index flag =>
    exact hflash _ rfl rfl (fun ho => ⟨_, drive_returns hc ho⟩) (drive_hangs hc)
  | updateSpiDir =>
    refine hflash _ rfl rfl (fun ho => ?_) fun ho => (updateSpiDirDriver_hangs hc ho).bind
    obtain ⟨c', hr, hs⟩ := updateSpiDirDriver_returns hc ho
    exact ⟨_, c', hr.bind (.pure () c'), hs⟩
  | initiateIap | setOutput => exact .inl ⟨0, 0, u, c, .pure () _, .refl u, .refl hc⟩

theorem performed_acts (hu : u.Drains) (hc : c.running = none) (as : List Act) :
    Performed (performs chipBus as) as u c := by
  induction as generalizing u c with
  | nil => exact .inl ⟨0, 0, u, c, .pure () _, .refl u, .refl hc⟩
  | cons a as ih =>
    rcases performed_act hu hc a with ⟨k, j, u', c', hr, hp, hs⟩ | ⟨hhang, hz⟩
    · rcases ih (hu.passed hp) hs.running with ⟨k', j', u'', c'', hr', hp', hs'⟩ | ⟨hhang, i, hi⟩
      · have hall := hp.trans hp'
        rw [List.append_nil, ← transmitted_append] at hall
        refine .inl ⟨k + k', j + j', u'', c'', hr.bind hr', hall, ?_⟩
        rw [hs.mem, ← runOps_append, ← List.flatMap_append] at hs'
        exact hs.trans hs'
      · refine .inr ⟨hr.bind_hangs hhang, i + j, ?_⟩
        rw [hs.delays] at hi
        exact hi
    · exact .inr ⟨hhang.bind, hz⟩

/-! ## The receive loops -/

/-- The receive loops have returned and have made the run `tr` of `machine`, in the given
environments and up to a loop that reads no more. The polls of the run took the bytes of the line in
order, but for those that the FIFO lost; the packets that the run logs went out in order, whole; and
the flash chip holds what the run leaves in the memory. -/
structure Refines {σ : Type} (bus : FlashBus σ) (envs : List Env) (s : State) (u : Uart) (h : σ)
    (tr : List (State × Poll UInt8 Env)) (k j : Nat) (s' : State) (u' : Uart) (h' : σ) : Prop where
  returns : Returns (onBoard bus envs s) (u, h) s' (u', h')
  run : machine.Run s tr s'
  environments : (Machine.events tr).map Poll.env <+: envs
  all : tr.length = envs.length ∨ want s'.pc = 0
  grows : Grows s.dev s'.dev
  uart : Passed u k (Poll.items (Machine.events tr))
    (transmitted (s'.dev.log.drop s.dev.log.length)) u'
  chip : Served (bus.chip h) s'.dev.flash j (bus.chip h')

/-- The acts between two moments, and those of the parts in between. -/
theorem Grows.drop (h : Grows d d') (h' : Grows d' d'') :
    d''.log.drop d.log.length = d'.log.drop d.log.length ++ d''.log.drop d'.log.length := by
  obtain ⟨as, hl, -⟩ := h
  obtain ⟨bs, hl', -⟩ := h'
  rw [hl', hl, List.drop_left, List.append_assoc, List.drop_left, ← List.append_assoc, List.drop_left]

/-- One turn is one step of `machine`, for the poll that the driver makes. -/
theorem turn_refines (hu : u.Drains) (hc : c.running = none) (hm : c.mem = s.dev.flash)
    (hw : 0 < want s.pc) (env : Env) : ∃ data, machine.enabled s ⟨env, data⟩ ∧
      ((∃ k j u' c', Returns (turn chipBus env s) (u, c) (step s ⟨env, data⟩) (u', c') ∧
        Passed u k data
          (transmitted ((step s ⟨env, data⟩).dev.log.drop s.dev.log.length)) u' ∧
        Served c (step s ⟨env, data⟩).dev.flash j c') ∨
      Hangs (turn chipBus env s) (u, c) ∧ ∃ i, c.delays i = 0) := by
  obtain ⟨k, hp, hle, -⟩ := uartGetRx_spec (want s.pc) u
  have hr := Returns.device (uartGetRx (want s.pc)) u
  generalize uartGetRx (want s.pc) u = x at hp hle hr
  refine ⟨x.1, ⟨hw, hle⟩, ?_⟩
  obtain ⟨as, hlog, hflash⟩ := grows_step s ⟨env, x.1⟩
  have has : (step s ⟨env, x.1⟩).dev.log.drop s.dev.log.length = as := by rw [hlog, List.drop_left]
  rcases performed_acts (hu.passed hp) hc as with ⟨k', j, u', c', hr', hp', hs⟩ | ⟨hhang, hz⟩
  · have hrest : Returns (do
        performs chipBus ((step s ⟨env, x.1⟩).dev.log.drop s.dev.log.length)
        pure (step s ⟨env, x.1⟩)) (x.2, c) (step s ⟨env, x.1⟩) (u', c') := by
      rw [has]
      exact hr'.bind (.pure _ _)
    refine .inl ⟨k + k', j, u', c', hr.onFst.bind hrest, ?_, ?_⟩
    · rw [has]
      have hall := hp.trans hp'
      rwa [List.append_nil, List.nil_append] at hall
    · rwa [hflash, ← hm]
  · refine .inr ⟨hr.onFst.bind_hangs (Hangs.bind ?_), hz⟩
    rw [has]
    exact hhang

/-- On a board whose line goes on sending and whose chip is idle, the receive loops make a run of
`machine`, or wait for ever for a flash operation that was over too soon. -/
theorem chip_refines (hu : u.Drains) (hc : c.running = none) (hm : c.mem = s.dev.flash)
    (envs : List Env) :
    (∃ tr k j s' u' c', Refines chipBus envs s u c tr k j s' u' c') ∨
      Hangs (onBoard chipBus envs s) (u, c) ∧ ∃ i, c.delays i = 0 := by
  induction envs generalizing s u c with
  | nil =>
    refine .inl ⟨[], 0, 0, s, u, c, .pure s _, .nil, List.prefix_rfl, .inl rfl, .refl _, ?_,
      hm ▸ .refl hc⟩
    rw [List.drop_eq_nil_of_le (Nat.le_refl _)]
    exact .refl u
  | cons env envs ih =>
    by_cases hw : want s.pc = 0
    · refine .inl ⟨[], 0, 0, s, u, c, ?_, .nil, List.nil_prefix, .inr hw, .refl _, ?_, hm ▸ .refl hc⟩
      · rw [onBoard, if_pos hw]
        exact .pure s _
      · rw [List.drop_eq_nil_of_le (Nat.le_refl _)]
        exact .refl u
    · obtain ⟨data, he, hturn⟩ := turn_refines hu hc hm (Nat.pos_of_ne_zero hw) env
      rcases hturn with ⟨k, j, u', c', hr, hp, hs⟩ | ⟨hhang, hz⟩
      · rcases ih (hu.passed hp) hs.running hs.mem with
          ⟨tr, k', j', s'', u'', c'', href⟩ | ⟨hhang, i, hi⟩
        · have hg := grows_step s ⟨env, data⟩
          refine .inl ⟨(s, ⟨env, data⟩) :: tr, k + k', j + j', s'', u'', c'', ?_, .cons he href.run,
            List.cons_prefix_cons.2 ⟨rfl, href.environments⟩, href.all.imp_left (congrArg (· + 1)),
            hg.trans href.grows, ?_, hs.trans href.chip⟩
          · rw [onBoard, if_neg hw]
            exact hr.bind href.returns
          · rw [hg.drop href.grows, transmitted_append]
            exact hp.trans href.uart
        · refine .inr ⟨?_, i + j, ?_⟩
          · rw [onBoard, if_neg hw]
            exact hr.bind_hangs hhang
          · rw [hs.delays] at hi
            exact hi
      · refine .inr ⟨?_, hz⟩
        rw [onBoard, if_neg hw]
        exact hhang.bind

/-! ## A line that waits for the board -/

/-- The driver calls end with the UART and the chip as in `u'` and `c'`, after `k` accesses of the UART
before which nothing arrived, whatever arrives later. -/
def QuietOn (p : Polling (Board Chip) Unit) (u : Uart) (c : Chip) (k : Nat) (u' : Uart) (c' : Chip) :
    Prop :=
  ∀ line : Nat → Bytes, (∀ n < k, line n = []) →
    Returns p ({ u with line }, c) () ({ u' with line := fun n => line (k + n) }, c')

theorem quietOn_onSnd {p : Polling Chip Unit} {c' : Chip} (h : Returns p c () c') :
    QuietOn (onSnd p) u c 0 u c' := by
  intro line _
  simp only [Nat.zero_add]
  exact h.onSnd

/-- An act on a chip whose operations take their time. -/
theorem quiet_act (hu : u.Prompt) (hx : u.rx = []) (hc : c.running = none)
    (hd : ∀ i, 0 < c.delays i) (a : Act) :
    ∃ k u' j c', QuietOn (a.perform chipBus) u c k u' c' ∧ Kept u u' ∧
      Served c (runOps c.mem a.flashOps) j c' := by
  have hkept : Kept u u := ⟨hu, hx, rfl⟩
  cases a with
  | tx packet =>
    obtain ⟨k, u', hq, hk⟩ := quiet_uartPolledTx hu hx packet
    exact ⟨k, u', 0, c, fun line hl => (hq line hl).onFst, hk, .refl hc⟩
  | writeToSpi buf size index flag =>
    obtain ⟨c', hr, hs⟩ := drive_returns hc (allOutlast_of_pos hd (Firmware.writeToSpi buf size index flag))
    exact ⟨0, u, _, c', quietOn_onSnd hr, hkept, hs⟩
  | updateSpiDir =>
    obtain ⟨c', hr, hs⟩ := updateSpiDirDriver_returns hc (allOutlast_of_pos hd _)
    exact ⟨0, u, _, c', quietOn_onSnd (hr.bind (.pure () c')), hkept, hs⟩
  | initiateIap | setOutput =>
    refine ⟨0, u, 0, c, fun line _ => ?_, hkept, .refl hc⟩
    simp only [Nat.zero_add]
    exact .pure () _

theorem quiet_acts (hu : u.Prompt) (hx : u.rx = []) (hc : c.running = none)
    (hd : ∀ i, 0 < c.delays i) (as : List Act) :
    ∃ k u' j c', QuietOn (performs chipBus as) u c k u' c' ∧ Kept u u' ∧
      Served c (runOps c.mem (as.flatMap Act.flashOps)) j c' := by
  induction as generalizing u c with
  | nil =>
    refine ⟨0, u, 0, c, fun line _ => ?_, ⟨hu, hx, rfl⟩, .refl hc⟩
    simp only [Nat.zero_add]
    exact .pure () _
  | cons a as ih =>
    obtain ⟨k, u₁, j, c₁, hq, hk, hs⟩ := quiet_act hu hx hc hd a
    obtain ⟨k', u₂, j', c₂, hq', hk', hs'⟩ := ih hk.prompt hk.rx hs.running
      (by rw [hs.delays]; exact fun i => hd _)
    refine ⟨k + k', u₂, j + j', c₂, fun line hl => ?_, hk.trans hk', ?_⟩
    · have hrest := hq' (fun n => line (k + n)) fun n hn => hl (k + n) (by omega)
      simp only [← Nat.add_assoc] at hrest
      exact (hq line fun n hn => hl n (by omega)).bind hrest
    · rw [hs.mem, ← runOps_append] at hs'
      rw [List.flatMap_cons]
      exact hs.trans hs'

/-- A loop asks for no more than the FIFO holds. -/
theorem want_le (pc : Pc) : want pc ≤ fifoSize := by
  cases pc with
  | request => exact Nat.succ_pos 15
  | bitStream => exact Nat.min_le_right _ _
  | hung => exact Nat.zero_le _

/-- The turn that a poll makes, if its bytes come at once and nothing comes while it lasts. -/
theorem turn_hears {p : Poll UInt8 Env} (hu : u.Prompt) (hx : u.rx = []) (hc : c.running = none)
    (hm : c.mem = s.dev.flash) (hd : ∀ i, 0 < c.delays i) (he : machine.enabled s p) :
    ∃ k u' j c', 0 < k ∧ (∀ line, Returns (turn chipBus p.env s)
      ({ u with line := burst p.data k line }, c) (step s p) ({ u' with line }, c')) ∧ Kept u u' ∧
      Served c (step s p).dev.flash j c' := by
  obtain ⟨hw, hle⟩ := he
  obtain ⟨as, hlog, hflash⟩ := grows_step s p
  obtain ⟨k, u', j, c', hq, hk, hs⟩ := quiet_acts hu.flushed hx hc hd as
  have hpos : 0 < 1 + 2 * p.data.length + k := by omega
  rw [hm, ← hflash] at hs
  refine ⟨_, u', j, c', hpos, fun line => ?_, ⟨hk.prompt, hk.rx, hk.lost⟩, hs⟩
  generalize hline : burst p.data (1 + 2 * p.data.length + k) line = line'
  have hfirst : line' 0 = p.data := by rw [← hline]; rfl
  have hquiet : ∀ i, 0 < i → i < 1 + 2 * p.data.length + k → line' i = [] := by
    intro i h0 hi
    rw [← hline, burst, if_neg (by omega), if_pos hi]
  have hget := Returns.device (uartGetRx (want s.pc)) { u with line := line' }
  rw [uartGetRx_burst hu hx hw (hfirst.symm ▸ hle) (hfirst.symm ▸ hle.trans (want_le _))
    (fun i h0 hi => hquiet i h0 (by rw [hfirst] at hi; omega)), hfirst] at hget
  have hacts := hq (fun i => line' (1 + 2 * p.data.length + i)) fun n hn => hquiet _ (by omega) (by omega)
  have hrest : (fun n => line' (1 + 2 * p.data.length + (k + n))) = line := by
    rw [← hline]
    simp only [← Nat.add_assoc]
    exact burst_add hpos
  rw [hrest] at hacts
  refine hget.onFst.bind ?_
  dsimp only
  rw [hlog, List.drop_left]
  exact hacts.bind (.pure _ _)

/-- Any run of `machine` is made by the receive loops on a board with a line that waits until the
bytes that it brought have been dealt with. -/
theorem chip_hears {polls : List (Poll UInt8 Env)} (hu : u.Prompt) (hx : u.rx = [])
    (hc : c.running = none) (hm : c.mem = s.dev.flash) (hd : ∀ i, 0 < c.delays i)
    (ha : machine.Allows s polls) :
    ∃ line u' c', Carries { u with line } (Poll.items polls) ∧
      Returns (onBoard chipBus (polls.map Poll.env) s) ({ u with line }, c) (machine.exec s polls)
        (u', c') ∧ u'.rx = [] ∧ u'.lost = u.lost ∧ ∀ n, u'.line n = [] := by
  induction polls generalizing u c s with
  | nil =>
    exact ⟨fun _ => [], { u with line := fun _ => [] }, c, ⟨0, rfl, fun _ _ => rfl⟩, .pure s _, hx, rfl,
      fun _ => rfl⟩
  | cons p polls ih =>
    obtain ⟨he, ha⟩ := ha
    obtain ⟨k, u₁, j, c₁, hk, hturn, hkept, hs⟩ := turn_hears hu hx hc hm hd he
    obtain ⟨line, u', c', hcarries, hret, hrx, hlost, hsilent⟩ := ih hkept.prompt hkept.rx hs.running
      hs.mem (by rw [hs.delays]; exact fun i => hd _) ha
    refine ⟨burst p.data k line, u', c', carries_burst hk hcarries, ?_, hrx, hlost.trans hkept.lost,
      hsilent⟩
    rw [List.map_cons, onBoard, if_neg (Nat.ne_of_gt he.1)]
    exact (hturn line).bind hret

/-! ## The registers of both buses -/

section

variable {σ : Type} {bus : FlashBus σ} {I : σ → Prop}

theorem perform_implements (hb : bus.Serves I) (a : Act) :
    Implements (fun x : Board σ => I x.2) (fun x => (x.1, bus.chip x.2)) (a.perform bus)
      (a.perform chipBus) := by
  cases a with
  | tx packet => exact .onFst _
  | writeToSpi buf size index flag => exact (drive_implements hb _).onSnd
  | updateSpiDir => exact ((updateSpiDirDriver_implements hb).bind fun _ => .pure ()).onSnd
  | initiateIap | setOutput => exact .pure ()

theorem performs_implements (hb : bus.Serves I) (as : List Act) :
    Implements (fun x : Board σ => I x.2) (fun x => (x.1, bus.chip x.2)) (performs bus as)
      (performs chipBus as) := by
  induction as with
  | nil => exact .pure ()
  | cons a as ih => exact (perform_implements hb a).bind fun _ => ih

theorem onBoard_implements (hb : bus.Serves I) (envs : List Env) (s : State) :
    Implements (fun x : Board σ => I x.2) (fun x => (x.1, bus.chip x.2)) (onBoard bus envs s)
      (onBoard chipBus envs s) := by
  induction envs generalizing s with
  | nil => exact .pure s
  | cons env envs ih =>
    rw [onBoard, onBoard]
    split
    · exact .pure s
    · have hturn : Implements (fun x : Board σ => I x.2) (fun x => (x.1, bus.chip x.2))
          (turn bus env s) (turn chipBus env s) :=
        (Implements.onFst _).bind fun data => (performs_implements hb _).bind fun _ => .pure _
      exact hturn.bind fun s' => ih s'

/-- The same over any bus that serves the driver. -/
theorem bus_refines (hb : bus.Serves I) {h : σ} (hI : I h) (hu : u.Drains)
    (hc : (bus.chip h).running = none) (hm : (bus.chip h).mem = s.dev.flash) (envs : List Env) :
    (∃ tr k j s' u' h', Refines bus envs s u h tr k j s' u' h') ∨
      Hangs (onBoard bus envs s) (u, h) ∧ ∃ i, (bus.chip h).delays i = 0 := by
  obtain ⟨hret, hhang⟩ := onBoard_implements hb envs s (u, h) hI
  rcases chip_refines hu hc hm envs with ⟨tr, k, j, s', u', c', href⟩ | ⟨hh, hz⟩
  · obtain ⟨⟨u'', h'⟩, hr', heq, -⟩ := hret s' (u', c') href.returns
    obtain ⟨rfl, rfl⟩ := Prod.mk.inj heq
    exact .inl ⟨tr, k, j, s', _, h', hr', href.run, href.environments, href.all, href.grows,
      href.uart, href.chip⟩
  · exact .inr ⟨hhang hh, hz⟩

end

/-- Down to the registers of the UART and of the SPI bus, on a board whose line goes on sending, whose
bus goes on clocking and whose chip is idle, the receive loops make a run of `machine`, or wait for
ever for a flash operation that was over too soon. -/
theorem board_refines {h : Spi Chip} (hu : u.Drains) (hr : Ready h) (hc : h.slave.running = none)
    (hm : h.slave.mem = s.dev.flash) (envs : List Env) :
    (∃ tr k j s' u' h', Refines spiBus envs s u h tr k j s' u' h') ∨
      Hangs (onBoard spiBus envs s) (u, h) ∧ ∃ i, h.slave.delays i = 0 :=
  bus_refines spiBus_serves hr hu hc hm envs

/-- The same for a board whose line waits and whose flash operations take their time. -/
theorem board_hears {h : Spi Chip} {polls : List (Poll UInt8 Env)} (hu : u.Prompt) (hx : u.rx = [])
    (hr : Ready h) (hc : h.slave.running = none) (hm : h.slave.mem = s.dev.flash)
    (hd : ∀ i, 0 < h.slave.delays i) (ha : machine.Allows s polls) :
    ∃ line u' h', Carries { u with line } (Poll.items polls) ∧
      Returns (onBoard spiBus (polls.map Poll.env) s) ({ u with line }, h) (machine.exec s polls)
        (u', h') ∧ u'.rx = [] ∧ u'.lost = u.lost ∧ ∀ n, u'.line n = [] := by
  obtain ⟨line, u', c', hcarries, hret, hend⟩ := chip_hears hu hx hc hm hd ha
  obtain ⟨himpl, -⟩ := onBoard_implements spiBus_serves (polls.map Poll.env) s ({ u with line }, h) hr
  obtain ⟨⟨u'', h'⟩, hret', heq, -⟩ := himpl _ _ hret
  obtain ⟨rfl, rfl⟩ := Prod.mk.inj heq
  exact ⟨line, _, h', hcarries, hret', hend⟩

/-- A UART that has not been used. -/
def promptUart : Uart where
  line _ := []
  drains _ := fifoSize

theorem prompt_promptUart : promptUart.Prompt := ⟨rfl, Nat.zero_le _⟩

/-- A link request, the announcement of one packet of one byte, and this packet. -/
def onePacket : Bytes :=
  [0xAA, 0, 0x30, 0, 0, 0, 0, 0, 0, 0x9A, 0, 0] ++
    ([0xAA, 0, 0x33, 0, 0, 1, 0, 1, 0, 0x9A, 0, 0] ++ zeros 12)

theorem takable_onePacket (d : Dev) : Takable ⟨d, .request⟩ onePacket
    ⟨(d.act (.tx linkRes)).acts (packetActs 1 0 0 (zeros 12)), .request⟩ := by
  have hlink : Takable ⟨d, .request⟩ [0xAA, 0, 0x30, 0, 0, 0, 0, 0, 0, 0x9A, 0, 0]
      ⟨d.act (.tx linkRes), .request⟩ := takable_command rfl
  have hannounce : Takable ⟨d.act (.tx linkRes), .request⟩
      [0xAA, 0, 0x33, 0, 0, 1, 0, 1, 0, 0x9A, 0, 0] ⟨d.act (.tx linkRes), .bitStream 1 1 0 0⟩ :=
    takable_command rfl
  have hpacket : Takable ⟨d.act (.tx linkRes), .bitStream 1 1 0 0⟩ (zeros 12)
      ⟨(d.act (.tx linkRes)).acts (packetActs 1 0 0 (zeros 12)), .request⟩ :=
    takable_group Nat.one_pos rfl (List.cons_ne_nil _ _)
  exact hlink.append (hannounce.append hpacket)

/-- Two packets go out and a block is written, on a board with an erased chip. -/
theorem board_refines_one_packet :
    let s := enter ⟨⟨.erased w25q64, {}, []⟩, .request⟩
    let h := resetSpi (erasedChip fun _ => 3)
    ∃ u : Uart, u.Carries onePacket ∧ ∃ tr k j s' u' h',
      Refines spiBus ((bytewise onePacket).map Poll.env) s u h tr k j s' u' h' ∧
        s'.dev.log = .tx linkRes :: packetActs 1 0 0 (zeros 12) ∧ AtCommand s' := by
  intro s h
  obtain ⟨hallow, hexec⟩ := takable_onePacket ⟨.erased w25q64, {}, []⟩
  have hready : Ready h := ready_resetSpi _
  obtain ⟨line, u', h', hcarries, hret, -⟩ := board_hears (h := h) prompt_promptUart rfl hready rfl rfl
    (fun _ => Nat.succ_pos 2) hallow
  rw [items_bytewise] at hcarries
  refine ⟨{ promptUart with line }, hcarries, ?_⟩
  rcases board_refines (s := s) (h := h) (u := { promptUart with line })
    (Prompt.goes_on ⟨rfl, Nat.zero_le _⟩) hready rfl rfl ((bytewise onePacket).map Poll.env) with
    ⟨tr, k, j, s', u'', h'', href⟩ | ⟨hhang, -⟩
  · obtain ⟨rfl, -⟩ := href.returns.unique hret
    rw [hexec] at *
    exact ⟨tr, k, j, _, u'', h'', href, rfl, 0, rfl⟩
  · exact absurd hret hhang.not_returns

end QccGui.Firmware
