import QccGui.Firmware.Receive

/-!
# How a transfer ends

A transfer ends with its last packet, or by the idle timer at any byte of any packet; the caller of
`recieve_bit_stream` is not told which.

* `InTransfer`: the part of a run that belongs to one transfer.
* `Stands`, `run_stands`: how a transfer stands, given the bytes it received.
* `DirectoryAfterImage`: the SPI directory is rewritten only after a whole image.
* `directory_after_image`: that is so exactly if the idle timer does not trip.
-/

namespace QccGui.Firmware

open Lib

/-- The firmware is inside `recieve_bit_stream`. -/
def InTransfer (s : State) : Prop :=
  match s.pc with
  | .bitStream .. => True
  | _ => False

theorem inTransfer_of_receiver {s : State} {k : Nat}
    (h : (receiver s).st.mode = .bitStream total size flag k) : InTransfer s := by
  obtain ⟨d, pc⟩ := s
  cases pc with
  | bitStream => trivial
  | request | hung => simp [receiver] at h

theorem inTransfer_receiver {s : State} (h : InTransfer s) : (receiver s).st.mode ≠ .request := by
  obtain ⟨d, pc⟩ := s
  cases pc with
  | bitStream => simp [receiver]
  | request => exact absurd h id
  | hung => exact absurd h id

/-- The packets of a transfer, each with its padding. -/
def Whole (size : Nat) (pkts : List Bytes) : Prop := ∀ pkt ∈ pkts, pkt.length = pad4 (size + 10)

theorem Whole.snoc {size : Nat} {pkts : List Bytes} {pkt : Bytes} (h : Whole size pkts)
    (hl : pkt.length = pad4 (size + 10)) : Whole size (pkts ++ [pkt]) := by
  intro q hq
  rcases List.mem_append.1 hq with hq | hq
  · exact h q hq
  · rw [List.mem_singleton.1 hq, hl]

theorem Whole.length_flatten {size : Nat} {pkts : List Bytes} (h : Whole size pkts) :
    pkts.flatten.length = pkts.length * pad4 (size + 10) := by
  induction pkts with
  | nil => simp
  | cons pkt pkts ih =>
    rw [List.flatten_cons, List.length_append, h pkt List.mem_cons_self,
      ih fun q hq => h q (List.mem_cons_of_mem _ hq), List.length_cons, Nat.succ_mul, Nat.add_comm]

/-- How a transfer stands that started with device `d` and has received the bytes `bs`; the flag
says whether its idle timer has tripped. -/
inductive Stands (d : Dev) (total size : Nat) (flag : UInt8) (bs : Bytes) :
    Bool → Framer.Rx UInt8 Boot → Prop
  | going {pkts : List Bytes} {got : Bytes} {idle : Nat} : Whole size pkts → pkts.length < total →
      got.length < pad4 (size + 10) → bs = pkts.flatten ++ got →
      Stands d total size flag bs false
        ⟨⟨d.acts (packetsActs size flag 0 pkts), .bitStream total size flag pkts.length⟩, got, idle⟩
  | complete {pkts : List Bytes} : Whole size pkts → pkts.length = total → bs = pkts.flatten →
      Stands d total size flag bs false
        ⟨⟨d.acts (packetsActs size flag 0 pkts ++ dirActs flag), .request⟩, [], 0⟩
  | cut {pkts : List Bytes} {got : Bytes} : Whole size pkts → pkts.length < total →
      got.length < pad4 (size + 10) → bs = pkts.flatten ++ got →
      Stands d total size flag bs true
        ⟨⟨d.acts (packetsActs size flag 0 pkts ++ .tx (errorMsg 0 1 0) :: dirActs flag), .request⟩,
          [], 0⟩

section

variable {d : Dev} {total size : Nat} {flag : UInt8} {bs : Bytes} {b : Bool}
  {r : Framer.Rx UInt8 Boot} {p : Poll UInt8 Env}

/-- One poll inside a transfer. -/
theorem stands_step (h : Stands d total size flag bs b r) (hm : r.st.mode ≠ .request)
    (he : bootFramer.machine.enabled r p) : b = false ∧
      ∃ b', Stands d total size flag (bs ++ p.data) b' (bootFramer.poll r p) ∧
        (b' = true ↔ bootFramer.Drops r p) := by
  cases h with
  | complete | cut => exact absurd rfl hm
  | @going pkts got idle hw hlt hgot hbs =>
    refine ⟨rfl, ?_⟩
    have hle : p.data.length ≤ pad4 (size + 10) - got.length := he.2
    by_cases hp : p.data = []
    · have hnil : bs ++ p.data = pkts.flatten ++ got := by rw [hp, List.append_nil, hbs]
      by_cases ht : 2000001 < idle + 1
      · rw [Framer.poll_drop hp ht]
        have hd : bootFramer.drop ⟨d.acts (packetsActs size flag 0 pkts),
            .bitStream total size flag pkts.length⟩ p.env = packetTimeout _ flag := rfl
        rw [hd, packetTimeout_eq, ← Dev.acts_append]
        exact ⟨true, .cut hw hlt hgot hnil, fun _ => ⟨hp, ht⟩, fun _ => rfl⟩
      · rw [Framer.poll_wait hp (by simpa [bootFramer] using ht)]
        exact ⟨false, .going hw hlt hgot hnil, iff_of_false Bool.false_ne_true fun hd => ht hd.2⟩
    · refine ⟨false, ?_, iff_of_false Bool.false_ne_true fun hd => hp hd.1⟩
      by_cases hf : got.length + p.data.length = pad4 (size + 10)
      · -- the poll completes the packet
        rw [Framer.poll_full hp (show pad4 (size + 10) ≤ got.length + _ by omega)]
        have hd : bootFramer.full ⟨d.acts (packetsActs size flag 0 pkts),
            .bitStream total size flag pkts.length⟩ p.env (got ++ p.data) =
            packetDone _ total size flag pkts.length (got ++ p.data) := rfl
        have hacts : packetsActs size flag 0 (pkts ++ [got ++ p.data]) =
            packetsActs size flag 0 pkts ++ packetActs size flag pkts.length (got ++ p.data) := by
          simp
        have hlast : (got ++ p.data).length = pad4 (size + 10) := by rw [List.length_append, hf]
        have hw' := hw.snoc hlast
        have hbs' : bs ++ p.data = (pkts ++ [got ++ p.data]).flatten := by simp [hbs]
        have hlen : (pkts ++ [got ++ p.data]).length = pkts.length + 1 := by simp
        rw [hd]
        by_cases hlast : pkts.length + 1 < total
        · rw [packetDone_of_lt hlast, ← Dev.acts_append, ← hacts, ← hlen]
          exact .going hw' (by rwa [hlen]) (pad4_pos size) (by rw [hbs', List.append_nil])
        · rw [packetDone_of_le (by omega), ← Dev.acts_append, ← List.append_assoc, ← hacts]
          exact .complete hw' (by omega) hbs'
      · rw [Framer.poll_more hp (show got.length + _ < pad4 (size + 10) by omega)]
        refine .going hw hlt ?_ (by rw [hbs, List.append_assoc])
        simp only [List.length_append]
        omega

theorem recieveBitStream_stands :
    Stands d total size flag [] false ⟨recieveBitStream d total size flag, [], 0⟩ := by
  have hnil : Whole size [] := fun _ h => absurd h List.not_mem_nil
  unfold recieveBitStream
  split
  · rename_i hpos
    exact .going hnil hpos (pad4_pos size) rfl
  · rename_i hpos
    rw [afterBitStream_eq]
    exact .complete hnil (by rw [List.length_nil]; omega) rfl

/-- How a transfer stands, given the bytes it received. -/
theorem run_stands {tr : List (State × Poll UInt8 Env)} {s : State}
    (h : machine.Run (enter (recieveBitStream d total size flag)) tr s)
    (ht : Machine.Along (fun s _ => InTransfer s) tr) :
    ∃ b, Stands d total size flag (Poll.items (Machine.events tr)) b (receiver s) ∧
      (b = false ↔ NoTimeout tr) := by
  have hb := recieveBitStream_ok d total size flag
  refine h.history (P := fun tr s =>
    ∃ b, Stands d total size flag (Poll.items (Machine.events tr)) b (receiver s) ∧
      (b = false ↔ NoTimeout tr)) ?_ ?_ ht
  · rw [receiver_enter]
    exact ⟨false, recieveBitStream_stands, iff_of_true rfl Machine.along_nil⟩
  · rintro tr s p hr ⟨b, hS, hn⟩ he hc
    obtain ⟨-, -, he', hst⟩ := step_receiver (inBuffer_of_run hb hr) he
    obtain ⟨rfl, b', hS', hb'⟩ := stands_step hS (inTransfer_receiver hc) he'
    rw [machine_step, hst, Machine.events_append, Poll.items_append]
    refine ⟨b', by simpa using hS', ?_⟩
    rw [NoTimeout, Machine.along_append, Machine.along_cons, ← drops_iff he, ← hb', Bool.not_eq_true]
    exact ⟨fun h => ⟨hn.1 rfl, h, Machine.along_nil⟩, fun h => h.2.1⟩

/-- Packets of twelve bytes, each delivered by one poll. -/
theorem allows_packets {k : Nat} {ps : List (Poll UInt8 Env)} (hs : pad4 (size + 10) = 12)
    (hps : ∀ p ∈ ps, p.data.length = 12) (hk : k + ps.length ≤ total) (hlt : k < total) :
    machine.Allows (enter ⟨d, .bitStream total size flag k⟩) ps ∧
      Machine.Along (fun s _ => InTransfer s)
        (machine.trace (enter ⟨d, .bitStream total size flag k⟩) ps) := by
  induction ps generalizing d k with
  | nil => exact ⟨trivial, Machine.along_nil⟩
  | cons p ps ih =>
    have hp : p.data.length = 12 := hps p (List.mem_cons_self ..)
    have hne : p.data ≠ [] := fun h => by simp [h] at hp
    have hst : step (enter ⟨d, .bitStream total size flag k⟩) p =
        enter (packetDone d total size flag k p.data) := by
      simp [step, enter, hne, hp, hs, bitStreamPacketHeaderSize, store, zeros]
    have hen : machine.enabled (enter ⟨d, .bitStream total size flag k⟩) p := by
      simp [machine, enter, want, hp, hs, bitStreamPacketHeaderSize]
    rw [List.length_cons] at hk
    simp only [Machine.Allows, Machine.trace, Machine.along_cons, machine_step, hst]
    rcases Nat.lt_or_ge (k + 1) total with hlast | hlast
    · rw [packetDone_of_lt hlast]
      obtain ⟨h₁, h₂⟩ := ih (fun p hp => hps p (List.mem_cons_of_mem _ hp)) (by omega) hlast
      exact ⟨⟨hen, h₁⟩, trivial, h₂⟩
    · obtain rfl : ps = [] := List.eq_nil_of_length_eq_zero (by omega)
      exact ⟨⟨hen, trivial⟩, trivial, Machine.along_nil⟩

/-! ## Transfers that come about -/

/-- Inside a transfer, the bytes `bs` can take the bootloader from `b` to `s`. -/
def Takes (b : Boot) (bs : Bytes) (s : State) : Prop :=
  ∃ tr, machine.Run (enter b) tr s ∧ Machine.Along (fun s _ => InTransfer s) tr ∧
    Poll.items (Machine.events tr) = bs

theorem takes_nil (b : Boot) : Takes b [] (enter b) := ⟨[], .nil, Machine.along_nil, rfl⟩

theorem Takes.snoc {b : Boot} {s : State} (h : Takes b bs s) (he : machine.enabled s p)
    (hs : InTransfer s) : Takes b (bs ++ p.data) (step s p) := by
  obtain ⟨tr, hr, halong, hit⟩ := h
  refine ⟨_, hr.snoc he, ?_, by simp [hit]⟩
  exact Machine.along_append.2 ⟨halong, Machine.along_cons.2 ⟨hs, Machine.along_nil⟩⟩

theorem Takes.append {b b' : Boot} {bs' : Bytes} {s : State} (h : Takes b bs (enter b'))
    (h' : Takes b' bs' s) : Takes b (bs ++ bs') s := by
  obtain ⟨tr, hr, halong, hit⟩ := h
  obtain ⟨tr', hr', halong', hit'⟩ := h'
  exact ⟨tr ++ tr', hr.append hr', Machine.along_append.2 ⟨halong, halong'⟩, by simp [hit, hit']⟩

/-- A packet can arrive, one byte a poll. -/
theorem takes_packet {k : Nat} {pkt : Bytes} (hk : k < total) (hl : pkt.length = pad4 (size + 10)) :
    Takes ⟨d, .bitStream total size flag k⟩ pkt (enter (packetDone d total size flag k pkt)) := by
  have hb : Boot.Ok ⟨d, .bitStream total size flag k⟩ := hk
  have hne : pkt ≠ [] := List.ne_nil_of_length_pos (hl ▸ pad4_pos size)
  obtain ⟨hallow, hs⟩ := takable_group hb hl hne
  obtain ⟨-, -, htr⟩ := received_group hb hl hne
  have hrun := hallow.run
  rw [hs] at hrun
  refine ⟨_, hrun, fun x hx => ?_, by rw [Machine.events_trace, items_bytewise]⟩
  exact inTransfer_of_receiver (congrArg Boot.mode (htr x hx))

/-- The packets of a transfer can arrive. -/
theorem takes_packets {k : Nat} {pkts : List Bytes} (hw : Whole size pkts)
    (hk : k + pkts.length < total) : Takes ⟨d, .bitStream total size flag k⟩ pkts.flatten
      (enter ⟨d.acts (packetsActs size flag k pkts), .bitStream total size flag (k + pkts.length)⟩) := by
  induction pkts generalizing d k with
  | nil => exact takes_nil _
  | cons pkt pkts ih =>
    rw [List.length_cons] at hk
    have hpkt : Takes ⟨d, .bitStream total size flag k⟩ pkt _ :=
      takes_packet (by omega) (hw pkt List.mem_cons_self)
    rw [packetDone_of_lt (by omega)] at hpkt
    have hrest := ih (d := d.acts (packetActs size flag k pkt)) (k := k + 1)
      (fun q hq => hw q (List.mem_cons_of_mem _ hq)) (by omega)
    rw [List.flatten_cons, packetsActs, Dev.acts_append, List.length_cons, Nat.add_comm pkts.length,
      ← Nat.add_assoc]
    exact hpkt.append hrest

/-- The idle timer can trip before the first byte of a packet. -/
theorem takes_timeout {k : Nat} : ∃ s, Takes ⟨d, .bitStream total size flag k⟩ [] s ∧
    machine.enabled s ⟨{}, []⟩ ∧ InTransfer s ∧ TimesOut s ⟨{}, []⟩ ∧
    step s ⟨{}, []⟩ = enter (packetTimeout d flag) := by
  obtain ⟨n, hn, hgt⟩ : ∃ n, n ≤ 2000001 ∧ n > 2000000 := ⟨2000001, by omega, by omega⟩
  obtain ⟨hallow, hs, htr⟩ := @exec_idle d total size k n flag hn
  have hrun := hallow.run
  rw [hs] at hrun
  have hitems : Poll.items (Machine.events (machine.trace
      (enter ⟨d, .bitStream total size flag k⟩) (List.replicate n ⟨{}, []⟩))) = [] := by
    rw [Machine.events_trace]
    simp [Poll.items]
  refine ⟨_, ⟨_, hrun, fun x hx => ?_, hitems⟩, ?_, trivial, ⟨rfl, hgt⟩, ?_⟩
  · obtain ⟨m, hm⟩ := htr x hx
    rw [hm]
    trivial
  · have hpos := pad4_pos size
    simp only [machine, want, bitStreamPacketHeaderSize, List.length_nil]
    omega
  · simp only [step, ne_eq, not_true_eq_false, if_false]
    rw [if_pos hgt]

/-- A transfer can end after any of its packets. -/
theorem takes_end {pkts : List Bytes} (hw : Whole size pkts) (hn : pkts.length ≤ total)
    (ht : 0 < total) : ∃ s, Takes ⟨d, .bitStream total size flag 0⟩ pkts.flatten s ∧
      ¬ InTransfer s := by
  rcases Nat.lt_or_eq_of_le hn with hlt | heq
  · obtain ⟨s, hs, he, hin, -, hst⟩ := @takes_timeout (d.acts (packetsActs size flag 0 pkts)) total
      size flag (0 + pkts.length)
    have hpkts : Takes ⟨d, .bitStream total size flag 0⟩ pkts.flatten _ :=
      takes_packets hw (by rwa [Nat.zero_add])
    have hend := (hpkts.append hs).snoc he hin
    rw [hst, packetTimeout_eq, List.append_nil, List.append_nil] at hend
    exact ⟨_, hend, id⟩
  · obtain ⟨pkts, pkt, rfl⟩ : ∃ qkts pkt, pkts = qkts ++ [pkt] := by
      rcases List.eq_nil_or_concat pkts with rfl | ⟨qkts, pkt, rfl⟩
      · simp at heq
        omega
      · exact ⟨qkts, pkt, List.concat_eq_append⟩
    rw [List.length_append, List.length_singleton] at heq
    have hpkts : Takes ⟨d, .bitStream total size flag 0⟩ pkts.flatten _ :=
      takes_packets (fun q hq => hw q (List.mem_append_left _ hq)) (by omega)
    have hlast := hpkts.append (takes_packet (by omega) (hw pkt (by simp)))
    rw [packetDone_of_le (by omega)] at hlast
    exact ⟨_, by simpa using hlast, id⟩

end

/-! ## The directory -/

/-- If the log of a transfer that started with device `d` and has received the bytes `bs` has a new
directory, these were the announced packets, and every one was written before it. -/
def DirectoryAfterImage (d : Dev) (total size : Nat) (flag : UInt8) (bs : Bytes) (log : List Act) :
    Prop :=
  .updateSpiDir ∈ log.drop d.log.length → ∃ pkts, pkts.length = total ∧ Whole size pkts ∧
    bs = pkts.flatten ∧ log = d.log ++ packetsActs size flag 0 pkts ++ [.updateSpiDir]

theorem updateSpiDir_not_mem {size k : Nat} {flag : UInt8} {pkts : List Bytes} :
    .updateSpiDir ∉ packetsActs size flag k pkts := by
  induction pkts generalizing k with
  | nil => exact List.not_mem_nil
  | cons pkt pkts ih => simpa [packetsActs, packetActs] using ih

theorem Stands.directory {d : Dev} {total size : Nat} {flag : UInt8} {bs : Bytes} {b : Bool}
    {r : Framer.Rx UInt8 Boot} (h : Stands d total size flag bs b r) (hg : flag ≠ 0) :
    DirectoryAfterImage d total size flag bs r.st.dev.log ↔ b = false := by
  have hdir : dirActs flag = [.updateSpiDir] := if_pos hg
  unfold DirectoryAfterImage
  cases h with
  | going hw hlt hgot hbs =>
    refine iff_of_true (fun hm => absurd hm ?_) rfl
    rw [Dev.acts_log, List.drop_left]
    exact updateSpiDir_not_mem
  | @complete pkts hw htotal hbs =>
    exact iff_of_true (fun _ => ⟨pkts, htotal, hw, hbs, by simp [hdir]⟩) rfl
  | @cut pkts got hw hlt hgot hbs =>
    refine iff_of_false (fun h => ?_) (by decide)
    obtain ⟨all, htotal, hall, hbs', -⟩ := h (by simp [hdir])
    -- the bytes received are too few for all the packets
    have hlen := congrArg List.length (hbs.symm.trans hbs')
    rw [List.length_append, hw.length_flatten, hall.length_flatten, htotal] at hlen
    have hmul : (pkts.length + 1) * pad4 (size + 10) ≤ total * pad4 (size + 10) :=
      Nat.mul_le_mul_right _ hlt
    rw [Nat.succ_mul] at hmul
    omega

/-- A golden transfer rewrites the directory only after its whole image exactly if its idle timer
does not trip. -/
theorem directory_after_image {d : Dev} {env : Env} {cmd : Bytes} (hc : cmd.getD 2 0 = 0x33)
    (hg : cmd.getD 3 0 ≠ 0) {tr : List (State × Poll UInt8 Env)} {s : State}
    (h : machine.Run (enter (serve d env cmd)) tr s)
    (ht : Machine.Along (fun s _ => InTransfer s) tr) :
    let total := word16 (cmd.getD 7 0) (cmd.getD 8 0)
    let size := word16 (cmd.getD 5 0) (cmd.getD 6 0)
    DirectoryAfterImage d total size (cmd.getD 3 0) (Poll.items (Machine.events tr)) s.dev.log ↔
      NoTimeout tr := by
  intro total size
  rw [serve_bitStream hc] at h
  obtain ⟨b, hS, hb⟩ := run_stands h ht
  rw [← receiver_dev, hS.directory hg, hb]

/-- A golden image of one packet that arrives. -/
theorem directory_after_image_one_packet :
    let d : Dev := ⟨.erased w25q64, {}, []⟩
    let s₀ := enter (serve d {} [0xAA, 0, 0x33, 1, 0, 1, 0, 1, 0, 0x98, 0, 0])
    DirectoryAfterImage d 1 1 1 (zeros 12) (machine.exec s₀ [⟨{}, zeros 12⟩]).dev.log := by
  intro d s₀
  have hserve : serve d {} [0xAA, 0, 0x33, 1, 0, 1, 0, 1, 0, 0x98, 0, 0] =
      ⟨d, .bitStream 1 1 1 0⟩ := by
    rw [serve_bitStream (by decide)]
    simp [word16, recieveBitStream]
  obtain ⟨hrun, halong⟩ := @allows_packets d 1 1 1 0 [⟨{}, zeros 12⟩] rfl (by simp) (by simp) (by decide)
  rw [← hserve] at hrun halong
  refine (directory_after_image (by decide) (by decide) hrun.run halong).2 ?_
  simp only [NoTimeout, Machine.trace, Machine.along_cons]
  exact ⟨fun ht => absurd ht.1 (by decide), Machine.along_nil⟩

/-- Nothing comes after the command for a golden image. -/
theorem directory_without_image : ¬ ∀ (d : Dev) (env : Env) (cmd : Bytes)
    (tr : List (State × Poll UInt8 Env)) (s : State), cmd.getD 2 0 = 0x33 → cmd.getD 3 0 ≠ 0 →
    machine.Run (enter (serve d env cmd)) tr s → Machine.Along (fun s _ => InTransfer s) tr →
    DirectoryAfterImage d (word16 (cmd.getD 7 0) (cmd.getD 8 0))
      (word16 (cmd.getD 5 0) (cmd.getD 6 0)) (cmd.getD 3 0) (Poll.items (Machine.events tr))
      s.dev.log := by
  intro hall
  let d : Dev := ⟨.erased w25q64, {}, []⟩
  let cmd : Bytes := [0xAA, 0, 0x33, 1, 0, 1, 0, 1, 0, 0x98, 0, 0]
  have hserve : serve d {} cmd = recieveBitStream d 1 1 1 := by
    rw [serve_bitStream (by decide)]
    simp [cmd, word16]
  have hstart : recieveBitStream d 1 1 1 = ⟨d, .bitStream 1 1 1 0⟩ := if_pos (by decide)
  obtain ⟨s, ⟨tr, hr, halong, -⟩, he, hin, htrip, -⟩ := @takes_timeout d 1 1 1 0
  have hr' := hr.snoc he
  have halong' : Machine.Along (fun s _ => InTransfer s) (tr ++ [(s, (⟨{}, []⟩ : Poll UInt8 Env))]) :=
    Machine.along_append.2 ⟨halong, Machine.along_cons.2 ⟨hin, Machine.along_nil⟩⟩
  rw [← hstart] at hr'
  obtain ⟨b, hS, hb⟩ := run_stands hr' halong'
  rw [← hserve] at hr'
  have hdir := hall d {} cmd _ _ (by decide) (by decide) hr' halong'
  have hsize : word16 (cmd.getD 5 0) (cmd.getD 6 0) = 1 := by simp [cmd, word16]
  have htotal : word16 (cmd.getD 7 0) (cmd.getD 8 0) = 1 := by simp [cmd, word16]
  rw [← receiver_dev, hsize, htotal] at hdir
  exact (Machine.along_append.1 (hb.1 ((hS.directory (by decide)).1 hdir))).2 _
    (List.mem_singleton_self _) htrip

end QccGui.Firmware
