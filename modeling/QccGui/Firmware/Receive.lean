import QccGui.Firmware.Transfers

/-!
# Runs in which no idle timer trips

What the bootloader does with known bytes, whatever the polls make of them.

* `Fresh`: the part of a receive buffer behind the received bytes is zero, so that a receiver
  without bytes is at the start of its loop (`eq_enter`).
* `Fed b g Q`: fed the bytes `g` at the start of the receive loop `b`, the bootloader comes to the
  start of a receive loop in `Q`, and has then read exactly `g`.
* `fed_group`, `fed_packets`: one group, and the packets of a whole transfer.
* `Takable`, `takable_packets`: they can come, one byte a poll.
-/

namespace QccGui.Firmware

open Lib

/-! ## The rest of the buffer -/

/-- The receive buffer behind the received bytes is as it was cleared. -/
def Fresh (s : State) : Prop :=
  match s.pc with
  | .request byteCount recvData _ => recvData.drop byteCount = zeros (recvData.length - byteCount)
  | .bitStream _ _ _ _ byteCount recvData _ _ =>
    recvData.drop byteCount = zeros (recvData.length - byteCount)
  | .hung => True

theorem fresh_enter (b : Boot) : Fresh (enter b) := by
  obtain ⟨d, m⟩ := b
  cases m with
  | request => simp [Fresh, enter]
  | bitStream => simp [Fresh, enter]
  | hung => trivial

/-- Storing more bytes leaves the rest of the buffer as it is. -/
theorem store_fresh {buf bs : Bytes} {i : Nat} (h : i + bs.length ≤ buf.length)
    (hf : buf.drop i = zeros (buf.length - i)) :
    (store buf i bs).drop (i + bs.length) = zeros ((store buf i bs).length - (i + bs.length)) := by
  have hl : (buf.take i ++ bs).length = i + bs.length := by
    simp
    omega
  rw [store_length h, store, ← hl, List.drop_left, hl, ← List.drop_drop, hf, zeros, List.drop_replicate,
    zeros, Nat.sub_sub]

theorem fresh_step {s : State} {p : Poll UInt8 Env} (hi : InBuffer s) (hf : Fresh s)
    (he : machine.enabled s p) : Fresh (step s p) := by
  have hb := (step_receiver hi he).1
  obtain ⟨d, pc⟩ := s
  cases pc with
  | hung => trivial
  | request byteCount recvData timer =>
    dsimp only [step]
    split
    · split
      · exact fresh_enter _
      · exact store_fresh hb hf
    · split
      · exact fresh_enter _
      · exact hf
  | bitStream total size flag index byteCount recvData pRecvBuff timer =>
    obtain ⟨-, -, rfl, -⟩ := hi
    dsimp only [step]
    split
    · split
      · exact fresh_enter _
      · exact store_fresh hb hf
    · split
      · exact fresh_enter _
      · exact hf

section

variable {b : Boot} {tr : List (State × Poll UInt8 Env)} {s : State}

theorem fresh_of_run (hb : b.Ok) (h : machine.Run (enter b) tr s) : Fresh s :=
  (h.invariant' (I := fun s => InBuffer s ∧ Fresh s) ⟨inBuffer_enter hb, fresh_enter b⟩
    fun _ _ hi he => ⟨(step_receiver hi.1 he).2.1, fresh_step hi.1 hi.2 he⟩).2

/-- A buffer of which nothing has been received. -/
theorem eq_zero_of_take {bs : Bytes} {n : Nat} (h : bs.take n = []) (hn : n ≤ bs.length) :
    n = 0 := by
  have := congrArg List.length h
  rw [List.length_take, List.length_nil] at this
  omega

/-- A receiver without bytes, whose timer has not moved, is at the start of its loop. -/
theorem eq_enter (hi : InBuffer s) (hf : Fresh s) (hr : receiver s = ⟨b, [], 0⟩) : s = enter b := by
  obtain ⟨d, pc⟩ := s
  cases pc with
  | hung =>
    simp only [receiver, Framer.Rx.mk.injEq] at hr
    obtain ⟨rfl, -⟩ := hr
    rfl
  | request byteCount recvData timer =>
    obtain ⟨hl, hlt⟩ := hi
    simp only [receiver, Framer.Rx.mk.injEq] at hr
    obtain ⟨rfl, htake, rfl⟩ := hr
    obtain rfl : byteCount = 0 := eq_zero_of_take htake (by omega)
    simp only [Fresh, List.drop_zero, Nat.sub_zero] at hf
    rw [hf, hl]
    rfl
  | bitStream total size flag index byteCount recvData pRecvBuff timer =>
    obtain ⟨hl, hlt, rfl, -⟩ := hi
    simp only [receiver, Framer.Rx.mk.injEq] at hr
    obtain ⟨rfl, htake, rfl⟩ := hr
    obtain rfl : pRecvBuff = 0 := eq_zero_of_take htake (by omega)
    simp only [Fresh, List.drop_zero, Nat.sub_zero] at hf
    rw [hf, hl]
    rfl

/-! ## Groups -/

/-- No idle timer trips in the steps `tr`. -/
def NoTimeout (tr : List (State × Poll UInt8 Env)) : Prop :=
  Machine.Along (fun s p => ¬ TimesOut s p) tr

/-- The idle timers of the receive loops are those of the framer. -/
theorem drops_iff {p : Poll UInt8 Env} (he : machine.enabled s p) :
    bootFramer.Drops (receiver s) p ↔ TimesOut s p := by
  obtain ⟨d, pc⟩ := s
  cases pc with
  | hung => exact absurd he.1 (by simp [want])
  | request =>
    refine and_congr_right fun hp => ?_
    simp only [receiver, bootFramer]
    omega
  | bitStream =>
    refine and_congr_right fun hp => ?_
    simp only [receiver, bootFramer]
    omega

theorem along_received (h : machine.Run (enter b) tr s) (ht : NoTimeout tr) :
    Machine.Along (fun r p => ¬ bootFramer.Drops r p) (received tr) := by
  intro x hx
  obtain ⟨y, hy, rfl⟩ := List.mem_map.1 hx
  obtain ⟨tr₁, tr₂, rfl⟩ := List.append_of_mem hy
  exact mt (drops_iff h.middle.2.1).1 (ht y hy)

/-- The first group of the bytes of a run. -/
theorem run_group {g rest : Bytes} (hb : b.Ok) (h : machine.Run (enter b) tr s) (ht : NoTimeout tr)
    (hg : g.length = bootFramer.need b) (hn : 0 < bootFramer.need b)
    (hi : Poll.items (Machine.events tr) = g ++ rest) :
    ∃ tr₁ tr₂ env, tr = tr₁ ++ tr₂ ∧ machine.Run (enter b) tr₁ (enter (bootFramer.full b env g)) ∧
      Poll.items (Machine.events tr₁) = g := by
  obtain ⟨rt₁, rt₂, env, heq, hr₁, -, hit, -⟩ := Framer.run_peel (run_receiver hb h)
    (along_received h ht) hg hn (by rwa [events_received])
  obtain ⟨tr₁, tr₂, rfl, rfl, rfl⟩ := List.map_eq_append_iff.1 heq
  obtain ⟨s₁, h₁, -⟩ := h.split
  have hs : s₁ = enter (bootFramer.full b env g) :=
    eq_enter (inBuffer_of_run hb h₁) (fresh_of_run hb h₁) ((run_receiver hb h₁).unique hr₁)
  subst hs
  refine ⟨tr₁, tr₂, env, rfl, h₁, ?_⟩
  rwa [← events_received]

end

/-- Polls that return nothing leave the bootloader at the command boundary. -/
theorem atCommand_of_empty {d : Dev} {tr : List (State × Poll UInt8 Env)} {s : State}
    (h : machine.Run (enter ⟨d, .request⟩) tr s) (hi : Poll.items (Machine.events tr) = []) :
    s.dev = d ∧ AtCommand s := by
  have hc : Machine.Along (fun (_ : State) (p : Poll UInt8 Env) => p.data = []) tr := fun x hx =>
    List.flatMap_eq_nil_iff.1 hi x.2 (List.mem_map_of_mem hx)
  refine h.invariant (I := fun s => s.dev = d ∧ AtCommand s) ⟨rfl, 0, rfl⟩ ?_ hc
  rintro ⟨d', pc⟩ p ⟨rfl, timer, rfl⟩ - hp
  simp only [machine_step, step, hp, ne_eq, not_true_eq_false, if_false]
  split
  · exact ⟨rfl, 0, rfl⟩
  · exact ⟨rfl, timer + 1, rfl⟩

/-! ## Feeding the bootloader -/

/-- Fed the bytes `g` at the start of the receive loop `b`, without an idle timer that trips, the
bootloader comes to the start of a receive loop in `Q`, and has then read exactly `g`. -/
def Fed (b : Boot) (g : Bytes) (Q : Boot → Prop) : Prop :=
  ∀ tr s rest, machine.Run (enter b) tr s → NoTimeout tr →
    Poll.items (Machine.events tr) = g ++ rest →
    ∃ tr₁ tr₂ b', tr = tr₁ ++ tr₂ ∧ machine.Run (enter b) tr₁ (enter b') ∧
      Poll.items (Machine.events tr₁) = g ∧ Q b'

section

variable {b : Boot} {g g' : Bytes} {Q R : Boot → Prop}

theorem fed_nil (h : Q b) : Fed b [] Q := fun tr _ _ _ _ _ => ⟨[], tr, b, rfl, .nil, rfl, h⟩

theorem Fed.mono (h : Fed b g Q) (hq : ∀ b', Q b' → R b') : Fed b g R := by
  intro tr s rest hr ht hi
  obtain ⟨tr₁, tr₂, b', htr, h₁, hg, hq'⟩ := h tr s rest hr ht hi
  exact ⟨tr₁, tr₂, b', htr, h₁, hg, hq b' hq'⟩

/-- The run goes on from where the bytes `g` have been read. -/
theorem Fed.rest {tr : List (State × Poll UInt8 Env)} {s : State} {rest : Bytes} (h : Fed b g Q)
    (hr : machine.Run (enter b) tr s) (ht : NoTimeout tr)
    (hi : Poll.items (Machine.events tr) = g ++ rest) :
    ∃ tr₁ tr₂ b', tr = tr₁ ++ tr₂ ∧ machine.Run (enter b) tr₁ (enter b') ∧
      machine.Run (enter b') tr₂ s ∧ NoTimeout tr₂ ∧ Poll.items (Machine.events tr₁) = g ∧
      Poll.items (Machine.events tr₂) = rest ∧ Q b' := by
  obtain ⟨tr₁, tr₂, b', rfl, h₁, hg, hq⟩ := h tr s rest hr ht hi
  obtain ⟨s₁, h₁', h₂⟩ := hr.split
  obtain rfl := h₁.unique h₁'
  refine ⟨tr₁, tr₂, b', rfl, h₁, h₂, (Machine.along_append.1 ht).2, hg, ?_, hq⟩
  rw [Machine.events_append, Poll.items_append, hg] at hi
  exact List.append_cancel_left hi

theorem Fed.append (h : Fed b g Q) (h' : ∀ b', Q b' → Fed b' g' R) : Fed b (g ++ g') R := by
  intro tr s rest hr ht hi
  rw [List.append_assoc] at hi
  obtain ⟨tr₁, tr₂, b', rfl, h₁, h₂, ht₂, hg, hi₂, hq⟩ := h.rest hr ht hi
  obtain ⟨tr₃, tr₄, b'', rfl, h₃, hg', hq'⟩ := h' b' hq tr₂ s rest h₂ ht₂ hi₂
  exact ⟨tr₁ ++ tr₃, tr₄, b'', by simp, h₁.append h₃, by simp [hg, hg'], hq'⟩

/-- One group. -/
theorem fed_group (hb : b.Ok) (hg : g.length = bootFramer.need b) (hn : 0 < bootFramer.need b) :
    Fed b g fun b' => ∃ env, b' = bootFramer.full b env g := by
  intro tr s rest hr ht hi
  obtain ⟨tr₁, tr₂, env, htr, h₁, hit⟩ := run_group hb hr ht hg hn hi
  exact ⟨tr₁, tr₂, _, htr, h₁, hit, env, rfl⟩

/-- A command. -/
theorem fed_command {d : Dev} (hg : g.length = 12) :
    Fed ⟨d, .request⟩ g fun b' => ∃ env, b' = serve d env g :=
  fed_group trivial hg (pad4_pos 0)

/-- The packets of a transfer that are still to come. -/
theorem fed_packets {d : Dev} {total size k : Nat} {flag : UInt8} {pkts : List Bytes}
    (hk : k < total) (hl : k + pkts.length = total) (hp : ∀ pkt ∈ pkts, pkt.length = pad4 (size + 10)) :
    Fed ⟨d, .bitStream total size flag k⟩ pkts.flatten
      (· = ⟨d.acts (packetsActs size flag k pkts ++ dirActs flag), .request⟩) := by
  induction pkts generalizing d k with
  | nil =>
    simp at hl
    omega
  | cons pkt pkts ih =>
    have hb : Boot.Ok ⟨d, .bitStream total size flag k⟩ := hk
    have hpkt : Fed ⟨d, .bitStream total size flag k⟩ pkt (· = packetDone d total size flag k pkt) :=
      (fed_group hb (hp pkt (List.mem_cons_self ..)) (pad4_pos size)).mono fun b' ⟨_, hb'⟩ => hb'
    rw [List.length_cons] at hl
    rw [List.flatten_cons]
    apply hpkt.append
    rintro _ rfl
    rcases Nat.lt_or_ge (k + 1) total with hlast | hlast
    · rw [packetDone_of_lt hlast]
      refine (ih hlast (by omega) fun pkt h => hp pkt (List.mem_cons_of_mem _ h)).mono fun b' hb' => ?_
      rw [hb', packetsActs, List.append_assoc, Dev.acts_append _ (packetActs ..)]
    · obtain rfl : pkts = [] := List.eq_nil_of_length_eq_zero (by omega)
      exact fed_nil (by rw [packetDone_of_le hlast, packetsActs_singleton])

end

/-! ## Bytes that can come -/

/-- A byte a poll keeps the idle timers from tripping. -/
theorem noTimeout_bytewise (s : State) (bs : Bytes) : NoTimeout (machine.trace s (bytewise bs)) := by
  intro x hx ht
  have hev : x.2 ∈ Machine.events (machine.trace s (bytewise bs)) := List.mem_map_of_mem hx
  rw [Machine.events_trace] at hev
  obtain ⟨b, -, hb⟩ := List.mem_map.1 hev
  exact List.cons_ne_nil b [] (congrArg Poll.data hb |>.trans ht.1)

/-- An idle timer trips after a million polls at the earliest. -/
theorem noTimeout_of_length {b : Boot} {tr : List (State × Poll UInt8 Env)} {s : State} (hb : b.Ok)
    (h : machine.Run (enter b) tr s) (hl : tr.length ≤ 1000000) : NoTimeout tr := by
  intro x hx ht
  obtain ⟨tr₁, tr₂, rfl⟩ := List.append_of_mem hx
  have hidle := Framer.run_idle_le (run_receiver hb h.middle.1)
  have htimer : 1000000 < (receiver x.1).idle := by
    obtain ⟨⟨d, pc⟩, p⟩ := x
    obtain ⟨-, ht⟩ := ht
    cases pc with
    | request => exact ht
    | bitStream =>
      simp only [receiver] at ht ⊢
      omega
    | hung => exact ht.elim
  simp only [received, List.length_map, List.length_append] at hidle hl
  omega

section

variable {b : Boot} {g g' : Bytes} {b' b'' : Boot}

/-- The bytes `g`, one a poll, take the bootloader from the start of the receive loop `b` to that of
`b'`. -/
def Takable (b : Boot) (g : Bytes) (b' : Boot) : Prop :=
  machine.Allows (enter b) (bytewise g) ∧ machine.exec (enter b) (bytewise g) = enter b'

theorem takable_nil (b : Boot) : Takable b [] b := ⟨trivial, rfl⟩

theorem Takable.append (h : Takable b g b') (h' : Takable b' g' b'') : Takable b (g ++ g') b'' := by
  obtain ⟨ha, he⟩ := h
  obtain ⟨ha', he'⟩ := h'
  rw [Takable, bytewise_append, Machine.allows_append, Machine.exec_append, he]
  exact ⟨⟨ha, ha'⟩, he'⟩

theorem takable_group (hb : b.Ok) (hg : g.length = bootFramer.need b) (hne : g ≠ []) :
    Takable b g (bootFramer.full b {} g) := by
  obtain ⟨hallow, hr, -⟩ := received_group hb hg hne
  exact ⟨hallow, eq_enter (inBuffer_of_run hb hallow.run) (fresh_of_run hb hallow.run) hr⟩

theorem takable_command {d : Dev} (hg : g.length = 12) : Takable ⟨d, .request⟩ g (serve d {} g) :=
  takable_group trivial hg (List.ne_nil_of_length_pos (by omega))

/-- The packets of a transfer that are still to come. -/
theorem takable_packets {d : Dev} {total size k : Nat} {flag : UInt8} {pkts : List Bytes}
    (hk : k < total) (hl : k + pkts.length = total) (hp : ∀ pkt ∈ pkts, pkt.length = pad4 (size + 10)) :
    Takable ⟨d, .bitStream total size flag k⟩ pkts.flatten
      ⟨d.acts (packetsActs size flag k pkts ++ dirActs flag), .request⟩ := by
  induction pkts generalizing d k with
  | nil =>
    simp at hl
    omega
  | cons pkt pkts ih =>
    have hb : Boot.Ok ⟨d, .bitStream total size flag k⟩ := hk
    have hlen := hp pkt (List.mem_cons_self ..)
    have hpkt : Takable ⟨d, .bitStream total size flag k⟩ pkt (packetDone d total size flag k pkt) :=
      takable_group hb hlen (List.ne_nil_of_length_pos (hlen ▸ pad4_pos size))
    rw [List.length_cons] at hl
    rw [List.flatten_cons]
    apply hpkt.append
    rcases Nat.lt_or_ge (k + 1) total with hlast | hlast
    · rw [packetDone_of_lt hlast, packetsActs, List.append_assoc, Dev.acts_append _ (packetActs ..)]
      exact ih hlast (by omega) fun pkt h => hp pkt (List.mem_cons_of_mem _ h)
    · obtain rfl : pkts = [] := List.eq_nil_of_length_eq_zero (by omega)
      rw [packetDone_of_le hlast, packetsActs_singleton]
      exact takable_nil _

end

end QccGui.Firmware
