import QccGui.Gui.Acks
import QccGui.Link.Refinement

/-!
# The acknowledgement matrix of a broadcast upload

One controller, any number of QTRMs that run `recieve_bit_stream`, and a link to each of them that
loses whole packets.

* `Sys`, `machine`: the composed system, from the announcement of an upload on. The replies of the
  QTRMs reach the controller in any order, any number of times or not at all.
* `Sound`: a pass in the matrix says that the block of that number holds the chunk.
* `InStep`: the packet that a QTRM receives is the one whose index it counts itself.
* `Apart`: the flash chip tells the blocks of the transfer apart.
* `ack_matrix_sound`, and `lost_packet_breaks_matrix`, a run in which a QTRM loses a packet.
-/

namespace QccGui

open Lib Firmware

namespace Broadcast

/-- The controller, the QTRMs that take part in the upload, and the packets on their way to each of
them, oldest first. -/
structure Sys where
  gui : Controller
  qtrm : Qtrm → Option Boot
  link : Qtrm → List Bytes

inductive Event
  | gui (e : Controller.Event)
  | deliver (q : Qtrm)
  | lose (q : Qtrm)
  /-- The idle timer of `recieve_bit_stream` trips. -/
  | timeout (q : Qtrm)

/-- The index of the packet that `recieve_bit_stream` waits for. -/
def awaited (b : Boot) : Option Nat :=
  match b.mode with
  | .bitStream _ _ _ packetIndex => some packetIndex
  | _ => none

namespace Sys

variable (s : Sys)

/-- The QTRM `q` has sent `reply` in this upload. -/
def Replied (q : Qtrm) (reply : Bytes) : Prop :=
  ∃ b, s.qtrm q = some b ∧ Act.tx reply ∈ b.dev.log

/-- Each slot of a frame is empty or shows a reply of its QTRM. -/
def Reports (raw : Bytes) : Prop := ∀ q, rpSlot raw q = zeros 10 ∨ s.Replied q (rpSlot raw q)

/-- An event at the controller; the QCC passes on what it sends. -/
def guiStep (e : Controller.Event) : Sys :=
  { s with
    gui := s.gui.handle e
    link := fun q => s.link q ++
      if s.gui.sendOk then (sends (s.gui.handle e).out).map relay else [] }

/-- The oldest packet reaches the QTRM `q`. Handling a packet does not look at the registers. -/
def deliver (q : Qtrm) : Sys :=
  match s.qtrm q, s.link q with
  | some b, packet :: rest =>
    { s with
      qtrm := Function.update s.qtrm q (some (bootFramer.full b {} packet))
      link := Function.update s.link q rest }
  | _, _ => s

def lose (q : Qtrm) : Sys := { s with link := Function.update s.link q (s.link q).tail }

/-- The QTRM `q` gives up the transfer. -/
def timeout (q : Qtrm) : Sys :=
  match s.qtrm q with
  | some b => { s with qtrm := Function.update s.qtrm q (some (bootFramer.drop b {})) }
  | none => s

end Sys

/-- At the controller anything can happen but the start of another session. A QTRM that is no longer
in the transfer takes no packet of it. -/
def machine : Machine Sys Event where
  enabled s e := match e with
    | .gui e => Controller.machine.enabled s.gui e ∧
      (∀ what, e = .start what → ¬ s.gui.Accepts what) ∧ ∀ raw, e = .frame raw → s.Reports raw
    | .deliver q => s.link q ≠ [] ∧ ∃ b, s.qtrm q = some b ∧ (awaited b).isSome
    | .lose q => s.link q ≠ []
    | .timeout q => ∃ b, s.qtrm q = some b ∧ (awaited b).isSome
  step s e := match e with
    | .gui e => s.guiStep e
    | .deliver q => s.deliver q
    | .lose q => s.lose q
    | .timeout q => s.timeout q

/-- The upload has been announced to the QTRMs `qs`. -/
def start (c : Controller) (image : Bytes) (golden : Bool) (qs : Finset Qtrm) (flash : Qtrm → Nor) :
    Sys where
  gui := c.handle (.start (.upload image golden))
  qtrm q := if q ∈ qs then some (serve { flash := flash q } {}
    (ljust (pad4 rpInnerCmdSize) (LinkOp.upload image golden).command)) else none
  link _ := []

/-- The block of chunk `i` holds that chunk. -/
def Stored (image : Bytes) (golden : Bool) (b : Boot) (i : Nat) : Prop :=
  ∃ x, (splitChunks image)[i]? = some x ∧
    b.dev.flash.Holds (blockAddress (imageFlag golden) i) x.1

/-- Every pass in the matrix is about a stored chunk. -/
def Sound (image : Bytes) (golden : Bool) (s : Sys) : Prop :=
  ∀ q i, (s.gui.ackMatrix q).get? i = some true → ∃ b, s.qtrm q = some b ∧ Stored image golden b i

/-- The index in the header of a data packet. -/
def fwPacketIndex (packet : Bytes) : Nat := word16 (packet.getD 8 0) (packet.getD 9 0)

/-- A packet that reaches a QTRM has the index that the QTRM waits for. -/
def InStep (s : Sys) : Event → Prop
  | .deliver q => ∀ b packet, s.qtrm q = some b → (s.link q).head? = some packet →
    awaited b = some (fwPacketIndex packet)
  | _ => True

/-- The chip tells the blocks of the image apart, and that of the directory from those of a golden
image, whose transfer ends with a rewrite of the directory. -/
def Apart (image : Bytes) (golden : Bool) (chip : Size) : Prop :=
  4096 * ((splitChunks image).length + if golden then 1 else 0) ≤ chip.bytes

/-! ## The invariant -/

variable {image : Bytes} {golden : Bool} {s : Sys} {b : Boot} {c : Controller}

theorem Apart.length_le {chip : Size} (h : Apart image golden chip) :
    (splitChunks image).length ≤ 4096 := by
  have hle := Nat.le_of_dvd (by decide) chip.addressed
  unfold Apart at h
  omega

theorem Apart.block_ne {chip : Size} (h : Apart image golden chip) {i j : Nat} (hij : i ≠ j)
    (hi : i < (splitChunks image).length) (hj : j < (splitChunks image).length) :
    chip.block (blockAddress (imageFlag golden) i) ≠ chip.block (blockAddress (imageFlag golden) j) := by
  unfold Apart at h
  rcases Nat.lt_or_gt_of_ne hij with hlt | hlt
  · exact block_blockAddress_ne hlt (by omega)
  · exact (block_blockAddress_ne hlt (by omega)).symm

/-- The directory is no block of a golden image. -/
theorem Apart.block_ne_zero {chip : Size} (h : Apart image golden chip) (hg : imageFlag golden ≠ 0)
    {i : Nat} (hi : i < (splitChunks image).length) :
    chip.block (blockAddress (imageFlag golden) i) ≠ 0 := by
  cases golden with
  | false => exact absurd rfl hg
  | true =>
    have haddr : blockAddress (imageFlag true) i = 4096 * (i + 1) := by
      have hbase : imageAddress (imageFlag true) = 4096 := by decide
      unfold blockAddress
      omega
    have hzero : chip.block 0 = 0 := by simp [Size.block]
    unfold Apart at h
    rw [if_pos rfl] at h
    rw [← hzero, haddr]
    exact (Size.block_ne (Nat.dvd_zero _) (Nat.dvd_mul_right ..) (by omega) (by omega)).symm

/-- A QTRM that has acknowledged stored chunks only; what else it may have sent is the error message
of a timeout. -/
structure Receiving (image : Bytes) (golden : Bool) (b : Boot) : Prop where
  apart : Apart image golden b.dev.flash.size
  mode : ∀ k, awaited b = some k →
    b.mode = .bitStream (splitChunks image).length 4096 (imageFlag golden) k ∧
      k < (splitChunks image).length
  replies : ∀ reply, Act.tx reply ∈ b.dev.log → reply = errorMsg 0 1 0 ∨
    ∃ i, i < 65536 ∧ reply = receivePacketAck i 1 ∧ Stored image golden b i

structure Inv (image : Bytes) (golden : Bool) (s : Sys) : Prop where
  ok : s.gui.Ok
  op : s.gui.op = some .upload ∨ s.gui.op = none
  chunks : s.gui.chunks = splitChunks image
  link : ∀ q, ∀ packet ∈ s.link q, packet ∈ paddedPackets image
  qtrm : ∀ q b, s.qtrm q = some b → Receiving image golden b
  sound : Sound image golden s

/-- The packet of a chunk as the QTRMs receive it. -/
def packet (image : Bytes) (k : Nat) (x : Bytes × Nat) : Bytes :=
  ljust (pad4 (rpInnerCmdSize + rpPayloadSize))
    (buildBitstreamDataHeader x.2 (splitChunks image).length k ++ x.1)

theorem fwPacketIndex_packet {k : Nat} (x : Bytes × Nat) (hk : k < 65536) :
    fwPacketIndex (packet image k x) = k := word16_byte hk

/-- A packet is that of the chunk whose index it has. -/
theorem mem_paddedPackets {p : Bytes} (h : p ∈ paddedPackets image)
    (hn : (splitChunks image).length ≤ 65536) :
    ∃ x, (splitChunks image)[fwPacketIndex p]? = some x ∧ slice p 10 4096 = x.1 := by
  obtain ⟨i, hi⟩ := List.mem_iff_getElem?.1 h
  rw [paddedPackets_eq, List.getElem?_mapIdx] at hi
  obtain ⟨x, hx, rfl⟩ := Option.map_eq_some_iff.1 hi
  have hlt : i < (splitChunks image).length := (List.getElem?_eq_some_iff.1 hx).1
  have hindex : fwPacketIndex (packet image i x) = i := fwPacketIndex_packet x (by omega)
  exact ⟨x, (congrArg _ hindex).trans hx, slice_packet (splitChunks_data hx)⟩

/-- What one packet of a transfer does. -/
theorem full_bitStream {total size k : Nat} {flag : UInt8} {p : Bytes}
    (hm : b.mode = .bitStream total size flag k) :
    ∃ tail, (tail = [] ∨ tail = dirActs flag) ∧
      (bootFramer.full b {} p).dev = b.dev.acts (packetActs size flag k p ++ tail) ∧
      ∀ j, awaited (bootFramer.full b {} p) = some j → j < total ∧
        (bootFramer.full b {} p).mode = .bitStream total size flag j := by
  obtain ⟨d, m⟩ := b
  obtain rfl : m = .bitStream total size flag k := hm
  rw [show bootFramer.full ⟨d, .bitStream total size flag k⟩ {} p =
    packetDone d total size flag k p from rfl]
  rcases Nat.lt_or_ge (k + 1) total with hlt | hge
  · rw [packetDone_of_lt hlt]
    refine ⟨[], .inl rfl, by rw [List.append_nil], fun j hj => ?_⟩
    obtain rfl := Option.some.inj hj
    exact ⟨hlt, rfl⟩
  · rw [packetDone_of_le hge]
    exact ⟨dirActs flag, .inr rfl, rfl, nofun⟩

/-- A chunk stays stored when its block is left alone. -/
theorem Stored.congr {b' : Boot} {i : Nat} (h : Stored image golden b i)
    (hf : ∀ x, b.dev.flash.size.block x =
      b.dev.flash.size.block (blockAddress (imageFlag golden) i) → b'.dev.flash x = b.dev.flash x) :
    Stored image golden b' i := by
  obtain ⟨x, hx, hh⟩ := h
  have hlen : x.1.length = 4096 := splitChunks_data hx
  exact ⟨x, hx, hh.congr fun t ht => hf _ (Size.block_add (blockAddress_dvd _ _) (by omega))⟩

/-- So it does when the directory may be rewritten. -/
theorem Stored.dirActs {d : Dev} {m m' : Mode} {i : Nat} {tail : List Act}
    (h : Stored image golden ⟨d, m⟩ i) (ha : Apart image golden d.flash.size)
    (ht : tail = [] ∨ tail = dirActs (imageFlag golden)) :
    Stored image golden ⟨d.acts tail, m'⟩ i := by
  obtain ⟨x, hx, -⟩ := id h
  have hi : i < (splitChunks image).length := (List.getElem?_eq_some_iff.1 hx).1
  refine h.congr fun y hy => ?_
  rw [Dev.acts_flash]
  rcases ht with rfl | rfl
  · rfl
  · by_cases hg : imageFlag golden = 0
    · rw [hg, Firmware.dirActs, if_neg (by simp)]
      rfl
    · exact dirActs_frame (hy ▸ ha.block_ne_zero hg hi)

/-- A packet in step is stored and acknowledged under its index, and other chunks stay stored. -/
theorem receiving_full {packet : Bytes} (h : Receiving image golden b)
    (hp : packet ∈ paddedPackets image) (hs : awaited b = some (fwPacketIndex packet)) :
    Receiving image golden (bootFramer.full b {} packet) ∧
      ∀ i, Stored image golden b i → Stored image golden (bootFramer.full b {} packet) i := by
  obtain ⟨hm, hk⟩ := h.mode _ hs
  have hn := h.apart.length_le
  obtain ⟨x, hx, hslice⟩ := mem_paddedPackets hp (by omega)
  have hlen : x.1.length = 4096 := splitChunks_data hx
  generalize hki : fwPacketIndex packet = k at *
  obtain ⟨tail, htail, hdev, hnext⟩ := full_bitStream (p := packet) hm
  -- one block write, and then perhaps that of the directory
  have hops : (packetActs 4096 (imageFlag golden) k packet).flatMap Act.flashOps =
      writeToSpi x.1 4096 k (imageFlag golden) := by
    simp [packetActs, Act.flashOps, bitStreamPacketHeaderSize, hslice]
  obtain ⟨hw, hframe⟩ := @writeToSpi_block b.dev.flash (imageFlag golden) k _ _ hlen le_rfl (by decide)
  rw [← hops, ← Dev.acts_flash] at hw hframe
  rw [Dev.acts_append] at hdev
  have hsize : (b.dev.acts (packetActs 4096 (imageFlag golden) k packet)).flash.size =
      b.dev.flash.size := by rw [Dev.acts_flash, runOps_size]
  have hlog : (b.dev.acts (packetActs 4096 (imageFlag golden) k packet)).log =
      b.dev.log ++ packetActs 4096 (imageFlag golden) k packet := Dev.acts_log ..
  generalize b.dev.acts (packetActs 4096 (imageFlag golden) k packet) = d at hdev hw hframe hsize hlog
  have hkept : ∀ i m, Stored image golden ⟨d, m⟩ i →
      Stored image golden (bootFramer.full b {} packet) i := by
    intro i m hst
    have hst' : Stored image golden ⟨d.acts tail, (bootFramer.full b {} packet).mode⟩ i :=
      hst.dirActs (hsize ▸ h.apart) htail
    rwa [← hdev] at hst'
  have hnew : Stored image golden (bootFramer.full b {} packet) k := hkept k .request ⟨x, hx, hw⟩
  have hold : ∀ i, Stored image golden b i → Stored image golden (bootFramer.full b {} packet) i := by
    intro i hst
    by_cases hik : i = k
    · rw [hik]
      exact hnew
    · obtain ⟨y, hy, -⟩ := id hst
      have hi : i < (splitChunks image).length := (List.getElem?_eq_some_iff.1 hy).1
      exact hkept i .request (hst.congr fun z hz => hframe z (hz ▸ h.apart.block_ne hik hi hk))
  refine ⟨⟨?_, fun j hj => (hnext j hj).symm, fun reply hr => ?_⟩, hold⟩
  · rw [hdev, Dev.acts_flash, runOps_size, hsize]
    exact h.apart
  rw [hdev, Dev.acts_log, hlog, List.mem_append, List.mem_append] at hr
  rcases hr with (hr | hr) | hr
  · refine (h.replies reply hr).imp_right ?_
    rintro ⟨i, hi, hreply, hst⟩
    exact ⟨i, hi, hreply, hold i hst⟩
  · simp only [packetActs, List.mem_cons, reduceCtorEq, Act.tx.injEq, List.not_mem_nil, or_false,
      false_or] at hr
    exact .inr ⟨k, by omega, hr, hnew⟩
  · rcases htail with rfl | rfl
    · simp at hr
    · unfold dirActs at hr
      split at hr <;> simp at hr

/-- A QTRM that gives up a transfer sends an error message, and what it has stored stays stored. -/
theorem receiving_drop {k : Nat} (h : Receiving image golden b) (hs : awaited b = some k) :
    Receiving image golden (bootFramer.drop b {}) ∧
      ∀ i, Stored image golden b i → Stored image golden (bootFramer.drop b {}) i := by
  obtain ⟨hm, -⟩ := h.mode _ hs
  obtain ⟨d, m⟩ := b
  obtain rfl : m = .bitStream _ 4096 (imageFlag golden) k := hm
  have hdrop : bootFramer.drop ⟨d, .bitStream (splitChunks image).length 4096 (imageFlag golden) k⟩ {} =
      ⟨(d.act (.tx (errorMsg 0 1 0))).acts (dirActs (imageFlag golden)), .request⟩ := packetTimeout_eq
  have hold : ∀ i, Stored image golden
      ⟨d, .bitStream (splitChunks image).length 4096 (imageFlag golden) k⟩ i → Stored image golden
        ⟨(d.act (.tx (errorMsg 0 1 0))).acts (dirActs (imageFlag golden)), .request⟩ i :=
    fun i hst => Stored.dirActs (d := d.act (.tx (errorMsg 0 1 0))) (m := .request) hst h.apart (.inr rfl)
  rw [hdrop]
  refine ⟨⟨?_, nofun, fun reply hr => ?_⟩, hold⟩
  · rw [Dev.acts_flash, runOps_size]
    exact h.apart
  rw [Dev.acts_log, Dev.act_log, List.mem_append, List.mem_append, List.mem_singleton] at hr
  rcases hr with (hr | hr) | hr
  · refine (h.replies reply hr).imp_right ?_
    rintro ⟨i, hi, hreply, hst⟩
    exact ⟨i, hi, hreply, hold i hst⟩
  · exact .inl (Act.tx.inj hr)
  · unfold dirActs at hr
    split at hr <;> simp at hr

/-- A QTRM may do what keeps the stored chunks. -/
theorem inv_qtrm {q : Qtrm} {b' : Boot} (h : Inv image golden s) (hb : s.qtrm q = some b)
    (hrec : Receiving image golden b')
    (hold : ∀ i, Stored image golden b i → Stored image golden b' i) :
    Inv image golden { s with qtrm := Function.update s.qtrm q (some b') } := by
  refine ⟨h.ok, h.op, h.chunks, h.link, fun q' b₁ hb₁ => ?_, fun q' i hpass => ?_⟩
  · by_cases hq : q' = q
    · subst hq
      dsimp only at hb₁
      rw [Function.update_self] at hb₁
      obtain rfl := Option.some.inj hb₁
      exact hrec
    · dsimp only at hb₁
      rw [Function.update_of_ne hq] at hb₁
      exact h.qtrm q' b₁ hb₁
  · obtain ⟨b₁, hb₁, hst⟩ := h.sound q' i hpass
    by_cases hq : q' = q
    · subst hq
      obtain rfl := Option.some.inj (hb.symm.trans hb₁)
      exact ⟨b', Function.update_self .., hold i hst⟩
    · refine ⟨b₁, ?_, hst⟩
      dsimp only
      rw [Function.update_of_ne hq]
      exact hb₁

/-- Packets may leave the link. -/
theorem inv_link {q : Qtrm} {rest : List Bytes} (h : Inv image golden s)
    (hrest : ∀ p ∈ rest, p ∈ s.link q) :
    Inv image golden { s with link := Function.update s.link q rest } := by
  refine ⟨h.ok, h.op, h.chunks, fun q' p hp => ?_, h.qtrm, h.sound⟩
  by_cases hq : q' = q
  · subst hq
    dsimp only at hp
    rw [Function.update_self] at hp
    exact h.link q' p (hrest p hp)
  · dsimp only at hp
    rw [Function.update_of_ne hq] at hp
    exact h.link q' p hp

theorem inv_deliver {q : Qtrm} (h : Inv image golden s) (hi : InStep s (.deliver q)) :
    Inv image golden (s.deliver q) := by
  unfold Sys.deliver
  split
  · rename_i b packet rest hb hl
    have hpkt : packet ∈ paddedPackets image := h.link q packet (hl ▸ List.mem_cons_self ..)
    have hstep := hi b packet hb (by rw [hl]; rfl)
    obtain ⟨hrec, hold⟩ := receiving_full (h.qtrm q b hb) hpkt hstep
    exact inv_link (inv_qtrm h hb hrec hold) fun p hp => hl ▸ List.mem_cons_of_mem _ hp
  · exact h

theorem inv_lose {q : Qtrm} (h : Inv image golden s) : Inv image golden (s.lose q) :=
  inv_link h fun _ hp => List.mem_of_mem_tail hp

theorem inv_timeout {q : Qtrm} (h : Inv image golden s) (he : machine.enabled s (.timeout q)) :
    Inv image golden (s.timeout q) := by
  obtain ⟨b, hb, ha⟩ := he
  obtain ⟨k, hk⟩ := Option.isSome_iff_exists.1 ha
  obtain ⟨hrec, hold⟩ := receiving_drop (h.qtrm q b hb) hk
  rw [Sys.timeout, hb]
  exact inv_qtrm h hb hrec hold

/-- An error message is no acknowledgement. -/
theorem not_passAck_errorMsg {i : Nat} : ¬ PassAck (errorMsg 0 1 0) i := by
  rintro ⟨base, pf, h, -⟩
  have hct := (parseSlot_bitstreamAck h).2.1
  simp [errorMsg, getCheckSum_eq, sealed] at hct

/-- The index that the controller reads from a reply. -/
theorem passAck_reply {raw : Bytes} {q : Qtrm} {i : Nat} (h : Inv image golden s) (hr : s.Reports raw)
    (ha : PassAck (rpSlot raw q) i) : ∃ b, s.qtrm q = some b ∧ Stored image golden b i := by
  rcases hr q with hz | ⟨b, hb, hreply⟩
  · rw [hz] at ha
    exact absurd ha PassAck.not_zeros
  · obtain herr | ⟨j, hj, hack, hst⟩ := (h.qtrm q b hb).replies _ hreply
    · rw [herr] at ha
      exact absurd ha not_passAck_errorMsg
    rw [hack] at ha
    obtain rfl := ha.unique (passAck_receivePacketAck hj)
    exact ⟨b, hb, hst⟩

theorem inv_gui {e : Controller.Event} (h : Inv image golden s)
    (he : machine.enabled s (.gui e)) : Inv image golden (s.guiStep e) := by
  obtain ⟨hen, hs, hr⟩ := he
  let A : Qtrm → Nat → Prop := fun q i => ∃ b, s.qtrm q = some b ∧ Stored image golden b i
  have hconf : Controller.Confined image A s.gui.cleared :=
    ⟨h.chunks, h.ok.count, nofun, fun q i hp => h.sound q i hp⟩
  obtain ⟨hc, hop⟩ := Controller.confined_react (e := e) (c := s.gui.cleared) (h.ok.congr rfl) hconf h.op
    hs fun raw q i hraw ha => passAck_reply h (hr raw hraw) ha
  refine ⟨Controller.ok_handle h.ok hen, hop, hc.chunks, fun q p hp => ?_, h.qtrm, hc.passes⟩
  rcases List.mem_append.1 hp with hp | hp
  · exact h.link q p hp
  · split at hp
    · obtain ⟨frame, hf, rfl⟩ := List.mem_map.1 hp
      obtain ⟨-, hdrop⟩ := hc.sent frame hf
      rw [relay, chunkPackets_data hdrop]
      exact List.mem_map_of_mem hdrop
    · simp at hp

theorem inv_step {e : Event} (h : Inv image golden s) (he : machine.enabled s e) (hi : InStep s e) :
    Inv image golden (machine.step s e) := by
  cases e with
  | gui e => exact inv_gui h he
  | deliver q => exact inv_deliver h hi
  | lose q => exact inv_lose h
  | timeout q => exact inv_timeout h he

theorem inv_start {qs : Finset Qtrm} {flash : Qtrm → Nor} (hok : c.Ok)
    (ha : c.Accepts (.upload image golden)) (hl : c.sendOk = true)
    (hfit : ∀ q ∈ qs, Apart image golden (flash q).size) :
    Inv image golden (start c image golden qs flash) := by
  obtain ⟨rc, o, hst⟩ := Controller.startUpload_connected (c := c.cleared) ha hl
  have hgui : (start c image golden qs flash).gui = c.cleared.startOp (.upload image golden) := rfl
  have hok' : (c.handle (.start (.upload image golden))).Ok := Controller.ok_handle hok trivial
  have h0 := Controller.splitChunks_length_pos ha.2.2
  refine ⟨hok', ?_, ?_, fun q p hp => absurd hp List.not_mem_nil, fun q b hb => ?_, fun q i hp => ?_⟩
  · rw [hgui, hst]
    exact .inl rfl
  · rw [hgui, hst]
  · dsimp only [start] at hb
    split at hb
    · rename_i hq
      have hn := (hfit q hq).length_le
      rw [show (LinkOp.upload image golden).command = buildBitstreamReceiveCommand rpPayloadSize
        (splitChunks image).length golden from rfl, serve_announce h0 (by omega)] at hb
      obtain rfl := Option.some.inj hb
      refine ⟨hfit q hq, fun k hk => ?_, fun reply hr => absurd hr List.not_mem_nil⟩
      obtain rfl := Option.some.inj hk
      exact ⟨rfl, h0⟩
    · simp at hb
  · rw [hgui, hst] at hp
    simp at hp

/-- As long as every packet that reaches a QTRM is the one it waits for, and the flash chips tell the
blocks of the transfer apart, a pass in the matrix says that the block holds the chunk. -/
theorem ack_matrix_sound {rc : RcSettings} {tr₀ : List Controller.Step}
    (h₀ : Controller.machine.Run (Controller.init rc) tr₀ c) (ha : c.Accepts (.upload image golden))
    (hl : c.sendOk = true) {qs : Finset Qtrm} {flash : Qtrm → Nor}
    (hfit : ∀ q ∈ qs, Apart image golden (flash q).size) {tr : List (Sys × Event)}
    (h : machine.Run (start c image golden qs flash) tr s) (hi : Machine.Along InStep tr) :
    Sound image golden s :=
  (h.invariant (inv_start (Controller.run_ok h₀) ha hl hfit)
    (fun _ _ hinv he hi => inv_step hinv he hi) hi).sound

/-! ## Two QTRMs, one of which loses a packet -/

variable {k : Nat} {x : Bytes × Nat}

/-- The frame of a chunk, passed on. -/
theorem relay_rpFrame (d : Controller) (hx : (splitChunks image)[k]? = some x) :
    relay (d.rpFrame (buildBitstreamDataHeader x.2 (splitChunks image).length k) x.1) =
      packet image k x := by
  have hdata := splitChunks_data hx
  obtain ⟨-, hdrop⟩ := Controller.rpFrame_data (c := d)
    (buildBitstreamDataHeader_length x.2 (splitChunks image).length k) hdata
  rw [relay_of_drop hdrop, List.length_append, hdata]
  rfl

/-- One acknowledgement of the chunk in flight puts the next one in flight. -/
theorem inFlight_next {raw : Bytes} {q : Qtrm} (h : Controller.InFlight image (some k) c)
    (hr : Controller.OneAck raw q k) (hx : (splitChunks image)[k + 1]? = some x) :
    Controller.InFlight image (some (k + 1)) (c.handle (.frame raw)) ∧
      (sends (c.handle (.frame raw)).out).map relay = [packet image (k + 1) x] := by
  have hlt : k + 1 < c.chunkCount := by
    rw [h.count]
    exact (List.getElem?_eq_some_iff.1 hx).1
  have hc' : Controller.InFlight image (some k) ({ c.cleared with gotAnyFrame := true } : Controller) :=
    ⟨h.op, h.phase, h.chunks, h.count, h.current, h.sendOk⟩
  have hrec := Controller.recorded_setAck { c.cleared with gotAnyFrame := true } q k
  generalize hset : ({ c.cleared with gotAnyFrame := true } : Controller).setAck q k true = e at hrec
  have hcount : e.chunkCount = (splitChunks image).length :=
    (Controller.chunkCount_of_core hrec.core).trans h.count
  obtain ⟨d, f, hsend, hcore, hsends, hraised, hdl, -⟩ :=
    Controller.sendNextChunk_connected (c := e) (x := x) (hrec.sendOk.trans h.sendOk)
      ((Controller.currentChunk_of_core hrec.core).trans h.current) (by rw [hcount, ← h.count]; exact hlt)
      (by rw [Controller.chunks_of_core hrec.core]; exact h.chunks ▸ hx)
  have hin : Controller.InFlight image (some (k + 1)) d :=
    hc'.next (by rw [hcore, hrec.core]) (hdl.trans hrec.sendOk)
  obtain ⟨text, heq⟩ := Controller.onFrame_oneAck (c := c.cleared) (d := d) hr h.op
    (fun hn => by simpa [hn] using hc'.phase.symm) rfl
    (fun base pf hpf => by
      rw [Controller.dispatchSlot_current (c := { c.cleared with gotAnyFrame := true }) h.op
        (Nat.lt_of_succ_lt hlt) h.phase h.current q hpf, hset, hsend]) hin.op hraised
  have hhandle : c.handle (.frame raw) = d.emit (.logFrame raw false text) := heq
  have hlog : sends (d.emit (.logFrame raw false text)).out = sends d.out := by simp
  rw [hhandle, hlog, hsends, hrec.sends, hcount]
  exact ⟨⟨hin.op, hin.phase, hin.chunks, hin.count, hin.current, hin.sendOk⟩,
    congrArg (fun r => [r]) (relay_rpFrame f hx)⟩

/-- An acknowledgement of an earlier chunk is recorded. -/
theorem passes_late {raw : Bytes} {q : Qtrm} {i : Nat} (h : Controller.InFlight image (some k) c) (hi : i < k)
    (hk : k < (splitChunks image).length) (hr : Controller.OneAck raw q i) :
    ((c.handle (.frame raw)).ackMatrix q).get? i = some true := by
  have hrec := Controller.recorded_setAck { c.cleared with gotAnyFrame := true } q i
  have hmoved : Controller.Moved i ({ c.cleared with gotAnyFrame := true } : Controller) := by
    rintro ⟨-, hcur⟩
    have := Option.some.inj (h.current.symm.trans hcur)
    omega
  have hlt : i < c.chunkCount := by
    rw [h.count]
    omega
  generalize hset : ({ c.cleared with gotAnyFrame := true } : Controller).setAck q i true = e at hrec
  obtain ⟨text, heq⟩ := Controller.onFrame_oneAck (c := c.cleared) (d := e) hr h.op
    (fun hn => by simpa [hn] using h.phase.symm.trans hn) rfl
    (fun base pf hpf => by
      rw [Controller.dispatchSlot_moved (c := { c.cleared with gotAnyFrame := true }) h.op hlt hmoved q hpf,
        hset]) ((Controller.op_of_core hrec.core).trans h.op) hrec.raised
  have hhandle : c.handle (.frame raw) = e.emit (.logFrame raw false text) := heq
  rw [hhandle, Controller.emit_ackMatrix]
  exact (hrec.passed q i).2 (.inr ⟨List.mem_singleton_self q, rfl⟩)

/-- A response frame in which `q` acknowledges chunk `i`. -/
def ackFrame (q : Qtrm) (i : Nat) : Bytes :=
  slotFrame (zeros headerSize) fun q' =>
    if q' = q then receivePacketAck i 1 ++ zeros 20 else zeros qtrmSlotSize

theorem receivePacketAck_length (i : Nat) (result : UInt8) :
    (receivePacketAck i result).length = 10 := by
  rw [receivePacketAck, getCheckSum_eq, sealed_length]
  rfl

theorem rpSlot_ackFrame (q q' : Qtrm) (i : Nat) :
    rpSlot (ackFrame q i) q' = if q' = q then receivePacketAck i 1 else zeros 10 :=
  rpSlot_oneSlot (receivePacketAck_length i 1) q q'

theorem oneAck_ackFrame {q : Qtrm} {i : Nat} (hi : i < 65536) :
    Controller.OneAck (ackFrame q i) q i :=
  Controller.oneAck_oneSlot (receivePacketAck_length i 1) (passAck_receivePacketAck hi) q

theorem mem_log_full {total size : Nat} {flag : UInt8} {p : Bytes}
    (hm : b.mode = .bitStream total size flag k) :
    Act.tx (receivePacketAck k 1) ∈ (bootFramer.full b {} p).dev.log := by
  obtain ⟨tail, -, hdev, -⟩ := full_bitStream (p := p) hm
  rw [hdev, Dev.acts_log, packetActs]
  simp

/-- A QTRM that has replied can be reported. -/
theorem reports_ackFrame {q : Qtrm} {i : Nat} (h : s.Replied q (receivePacketAck i 1)) :
    s.Reports (ackFrame q i) := by
  intro q'
  rw [rpSlot_ackFrame]
  split
  · rename_i hq
    exact .inr (hq ▸ h)
  · exact .inl rfl

theorem enabled_ackFrame {q : Qtrm} {i : Nat} (h : s.Replied q (receivePacketAck i 1)) :
    machine.enabled s (.gui (.frame (ackFrame q i))) := by
  refine ⟨trivial, nofun, fun raw hraw => ?_⟩
  obtain rfl := Controller.Event.frame.inj hraw
  exact reports_ackFrame h

theorem guiStep_link {e : Controller.Event} {q : Qtrm} (hl : s.gui.sendOk = true) :
    (s.guiStep e).link q = s.link q ++ (sends (s.gui.handle e).out).map relay := by
  rw [Sys.guiStep, if_pos hl]

theorem deliver_eq {q : Qtrm} {packet : Bytes} {rest : List Bytes} (hb : s.qtrm q = some b)
    (hl : s.link q = packet :: rest) : s.deliver q =
      { s with
        qtrm := Function.update s.qtrm q (some (bootFramer.full b {} packet))
        link := Function.update s.link q rest } := by
  unfold Sys.deliver
  rw [hb, hl]

/-- An upload has been announced to all QTRMs, whose memory is erased. -/
def announced (c : Controller) (image : Bytes) : Sys :=
  start c image false Finset.univ fun _ => .erased w25q64

/-- A QTRM that has just been told of two packets. -/
def waiting : Boot := ⟨{ flash := .erased w25q64 }, .bitStream 2 4096 0 0⟩

theorem announced_qtrm (hn : (splitChunks image).length = 2) (q : Qtrm) :
    (announced c image).qtrm q = some waiting := by
  have hcmd : (LinkOp.upload image false).command =
      buildBitstreamReceiveCommand rpPayloadSize 2 false := by
    rw [LinkOp.command, hn]
  dsimp only [announced, start]
  rw [if_pos (Finset.mem_univ q), hcmd, serve_announce (by decide) (by decide)]
  rfl

/-- One QTRM receives the first chunk and acknowledges it. -/
def firstAck (q : Qtrm) : List Event := [.gui .shot, .deliver q, .gui (.frame (ackFrame q 0))]

/-- The controller then sends the other of two chunks. -/
theorem run_firstAck {x₀ x₁ : Bytes × Nat} (hok : c.Ok) (ha : c.Accepts (.upload image false))
    (hl : c.sendOk = true) (hsplit : splitChunks image = [x₀, x₁]) :
    ∃ tr s, machine.Run (announced c image) tr s ∧ Machine.events tr = firstAck 0 ∧
      Machine.Along InStep tr ∧ Controller.InFlight image (some 1) s.gui ∧ s.Replied 0 (receivePacketAck 0 1) ∧
      s.link 1 = [packet image 0 x₀, packet image 1 x₁] ∧ s.qtrm 1 = some waiting := by
  have hx₀ : (splitChunks image)[0]? = some x₀ := by rw [hsplit]; rfl
  have hx₁ : (splitChunks image)[1]? = some x₁ := by rw [hsplit]; rfl
  have hq : ∀ q, (announced c image).qtrm q = some waiting := announced_qtrm (by rw [hsplit]; rfl)
  have he₀ : Controller.machine.enabled c (.start (.upload image false)) := trivial
  have hok₀ : (announced c image).gui.Ok := Controller.ok_handle hok he₀
  obtain ⟨hg₀, hp₀⟩ : Controller.InFlight image none (announced c image).gui ∧
    0 < (announced c image).gui.pendingShots := Controller.inFlight_start ha hl
  have hl₀ : ∀ q, (announced c image).link q = [] := fun _ => rfl
  generalize announced c image = s₀ at *
  -- chunk 0 goes out
  obtain ⟨hg₁, f, hsends₁⟩ := Controller.inFlight_shot hok₀ hg₀ hp₀ hx₀
  have he₁ : machine.enabled s₀ (.gui .shot) := ⟨hp₀, nofun, nofun⟩
  have hl₁ : ∀ q, (s₀.guiStep .shot).link q = [packet image 0 x₀] := by
    intro q
    rw [guiStep_link hg₀.sendOk, hl₀, hsends₁]
    exact congrArg (fun r => [r]) (relay_rpFrame f hx₀)
  have hr₁ : machine.Run s₀ [(s₀, .gui .shot)] (s₀.guiStep .shot) := .single he₁
  have hg₁' : Controller.InFlight image (some 0) (s₀.guiStep .shot).gui := hg₁
  have hq₁ : ∀ q, (s₀.guiStep .shot).qtrm q = some waiting := hq
  generalize s₀.guiStep .shot = s₁ at hr₁ hl₁ hg₁' hq₁
  -- and reaches QTRM 0
  have he₂ : machine.enabled s₁ (.deliver 0) :=
    ⟨by rw [hl₁]; exact List.cons_ne_nil _ _, waiting, hq₁ 0, rfl⟩
  have hi₂ : InStep s₁ (.deliver 0) := by
    intro b p hb hp
    rw [hq₁] at hb
    rw [hl₁] at hp
    obtain rfl := Option.some.inj hb
    obtain rfl := Option.some.inj hp
    rw [fwPacketIndex_packet x₀ (by decide)]
    rfl
  have hd₂ := deliver_eq (hq₁ 0) (hl₁ 0)
  have hr₂ := hr₁.snoc he₂
  have hreply : (s₁.deliver 0).Replied 0 (receivePacketAck 0 1) := by
    rw [hd₂]
    refine ⟨bootFramer.full waiting {} (packet image 0 x₀), ?_, mem_log_full (b := waiting) rfl⟩
    dsimp only
    rw [Function.update_self]
  have hg₂ : Controller.InFlight image (some 0) (s₁.deliver 0).gui := by rw [hd₂]; exact hg₁'
  have hl₂ : (s₁.deliver 0).link 1 = [packet image 0 x₀] := by
    rw [hd₂]
    dsimp only
    rw [Function.update_of_ne (by decide), hl₁]
  have hq₂ : (s₁.deliver 0).qtrm 1 = some waiting := by
    rw [hd₂]
    dsimp only
    rw [Function.update_of_ne (by decide), hq₁]
  rw [show machine.step s₁ (.deliver 0) = s₁.deliver 0 from rfl] at hr₂
  generalize s₁.deliver 0 = s₂ at hr₂ hreply hg₂ hl₂ hq₂
  -- its reply reaches the controller
  obtain ⟨hg₃, hsends₃⟩ := inFlight_next hg₂ (oneAck_ackFrame (q := 0) (by decide)) hx₁
  have he₃ : machine.enabled s₂ (.gui (.frame (ackFrame 0 0))) := enabled_ackFrame hreply
  refine ⟨_, _, hr₂.snoc he₃, rfl, ?_, hg₃, hreply, ?_, hq₂⟩
  · simp only [Machine.along_append, Machine.along_cons, Machine.along_nil, and_true]
    exact ⟨⟨trivial, hi₂⟩, trivial⟩
  · refine (guiStep_link hg₂.sendOk).trans ?_
    rw [hsends₃, hl₂]
    rfl

theorem apart_twoChunks : Apart twoChunks false w25q64 := by
  rw [Apart, twoChunks_length]
  decide

/-- QTRM 0 acknowledges the first chunk twice and QTRM 1 gives up; the pass of QTRM 0 is about a stored
chunk. -/
theorem ack_matrix_sound_late_reply :
    let s₀ := announced gateOpened twoChunks
    let events := firstAck 0 ++ [.timeout 1, .gui (.frame (ackFrame 0 0))]
    machine.Run s₀ (machine.trace s₀ events) (machine.exec s₀ events) ∧
      ((machine.exec s₀ events).gui.ackMatrix 0).get? 0 = some true ∧
      Sound twoChunks false (machine.exec s₀ events) := by
  intro s₀ events
  obtain ⟨x₀, x₁, hsplit, -⟩ := twoChunks_split
  obtain ⟨tr, s, hr, hev, hi, hg, hreply, -, hq⟩ :=
    run_firstAck (Controller.run_ok gateOpened_run) gateOpened_accepts rfl hsplit
  have he₁ : machine.enabled s (.timeout 1) := ⟨waiting, hq, rfl⟩
  have hgave : (s.timeout 1).gui = s.gui := by rw [Sys.timeout, hq]
  have hreply₁ : (s.timeout 1).Replied 0 (receivePacketAck 0 1) := by
    obtain ⟨b, hb, hmem⟩ := hreply
    refine ⟨b, ?_, hmem⟩
    rw [Sys.timeout, hq]
    dsimp only
    rw [Function.update_of_ne (by decide), hb]
  have he₂ : machine.enabled (s.timeout 1) (.gui (.frame (ackFrame 0 0))) := enabled_ackFrame hreply₁
  have hr₁ : machine.Run _ _ (s.timeout 1) := hr.snoc he₁
  have hr' := hr₁.snoc he₂
  have hev' : Machine.events (tr ++ [(s, .timeout 1)] ++
      [(s.timeout 1, .gui (.frame (ackFrame 0 0)))]) = events := by
    simp [events, hev]
  obtain ⟨htr, hs⟩ := hr'.of_events
  rw [hev'] at htr hs
  have hn := twoChunks_length
  rw [← hgave] at hg
  rw [← htr, ← hs]
  refine ⟨hr', passes_late hg (by decide) (by rw [hn]; decide) (oneAck_ackFrame (by decide)),
    ack_matrix_sound gateOpened_run gateOpened_accepts rfl (fun _ _ => apart_twoChunks) hr' ?_⟩
  simp [hi, InStep]

/-- Another one then loses the first chunk, and acknowledges the second one under the first one's index. -/
def lostPacket (p q : Qtrm) : List Event :=
  firstAck p ++ [.lose q, .deliver q, .gui (.frame (ackFrame q 0))]

theorem lost_packet_breaks_matrix :
    let s₀ := announced gateOpened twoChunks
    gateOpened.Accepts (.upload twoChunks false) ∧ gateOpened.sendOk = true ∧
      Apart twoChunks false w25q64 ∧
      machine.Run s₀ (machine.trace s₀ (lostPacket 0 1)) (machine.exec s₀ (lostPacket 0 1)) ∧
      ((machine.exec s₀ (lostPacket 0 1)).gui.ackMatrix 1).get? 0 = some true ∧
      ¬ Sound twoChunks false (machine.exec s₀ (lostPacket 0 1)) := by
  intro s₀
  refine ⟨gateOpened_accepts, rfl, apart_twoChunks, ?_⟩
  obtain ⟨x₀, x₁, hsplit, hb₀, hb₁⟩ := twoChunks_split
  have hn := twoChunks_length
  obtain ⟨tr, s, hr, hev, -, hg, -, hl, hq⟩ :=
    run_firstAck (Controller.run_ok gateOpened_run) gateOpened_accepts rfl hsplit
  -- the first packet is lost
  have he₁ : machine.enabled s (.lose 1) := by
    rw [show machine.enabled s (.lose 1) = (s.link 1 ≠ []) from rfl, hl]
    exact List.cons_ne_nil _ _
  have hr₁ : machine.Run _ _ (s.lose 1) := hr.snoc he₁
  have hl₁ : (s.lose 1).link 1 = [packet twoChunks 1 x₁] := by
    rw [Sys.lose, hl]
    dsimp only
    rw [Function.update_self]
    rfl
  have hg₁ : Controller.InFlight twoChunks (some 1) (s.lose 1).gui := hg
  have hq₁ : (s.lose 1).qtrm 1 = some waiting := hq
  generalize s.lose 1 = s₁ at hr₁ hl₁ hg₁ hq₁
  -- the second one is taken for it
  have he₂ : machine.enabled s₁ (.deliver 1) :=
    ⟨by rw [hl₁]; exact List.cons_ne_nil _ _, waiting, hq₁, rfl⟩
  have hr₂ : machine.Run _ _ (s₁.deliver 1) := hr₁.snoc he₂
  have hd₂ := deliver_eq hq₁ hl₁
  have hg₂ : Controller.InFlight twoChunks (some 1) (s₁.deliver 1).gui := by rw [hd₂]; exact hg₁
  have hq₂ : (s₁.deliver 1).qtrm 1 = some (bootFramer.full waiting {} (packet twoChunks 1 x₁)) := by
    rw [hd₂]
    dsimp only
    rw [Function.update_self]
  generalize s₁.deliver 1 = s₂ at hr₂ hg₂ hq₂
  -- and the reply is recorded
  have he₃ : machine.enabled s₂ (.gui (.frame (ackFrame 1 0))) :=
    enabled_ackFrame ⟨_, hq₂, mem_log_full (b := waiting) rfl⟩
  have hr₃ := hr₂.snoc he₃
  obtain ⟨htr, hs⟩ := hr₃.of_events
  have hev' : Machine.events (tr ++ [(s, .lose 1)] ++ [(s₁, .deliver 1)] ++
      [(s₂, .gui (.frame (ackFrame 1 0)))]) = lostPacket 0 1 := by
    simp [lostPacket, hev]
  rw [hev'] at htr hs
  rw [← htr, ← hs]
  have hpass : ((machine.step s₂ (.gui (.frame (ackFrame 1 0)))).gui.ackMatrix 1).get? 0 = some true :=
    passes_late hg₂ (by decide) (by rw [hn]; decide) (oneAck_ackFrame (by decide))
  refine ⟨hr₃, hpass, fun hsound => ?_⟩
  obtain ⟨b, hb, x, hx, hold⟩ := hsound 1 0 hpass
  obtain rfl : bootFramer.full waiting {} (packet twoChunks 1 x₁) = b :=
    Option.some.inj (hq₂.symm.trans hb)
  obtain rfl : x₀ = x := by
    rw [hsplit] at hx
    exact Option.some.inj hx
  -- block 0 holds the second chunk
  have hlen₀ : x₀.1.length = 4096 := splitChunks_data (i := 0) (by rw [hsplit]; rfl)
  have hlen₁ : x₁.1.length = 4096 := splitChunks_data (i := 1) (by rw [hsplit]; rfl)
  have hslice : slice (packet twoChunks 1 x₁) 10 4096 = x₁.1 := slice_packet hlen₁
  have hw : (runOps waiting.dev.flash (writeToSpi x₁.1 4096 0 0)).Holds (blockAddress 0 0) x₁.1 :=
    (writeToSpi_block hlen₁ le_rfl (by decide)).1
  have hops : (packetActs 4096 0 0 (packet twoChunks 1 x₁)).flatMap Act.flashOps =
      writeToSpi x₁.1 4096 0 0 := by
    simp [packetActs, Act.flashOps, bitStreamPacketHeaderSize, hslice]
  have hflash : (bootFramer.full waiting {} (packet twoChunks 1 x₁)).dev.flash =
      runOps waiting.dev.flash (writeToSpi x₁.1 4096 0 0) := by
    rw [← hops, ← Dev.acts_flash]
    rfl
  have h₁ := hw 0 (by omega)
  have h₀ := hold 0 (by omega)
  rw [hflash, hb₀] at h₀
  rw [hb₁] at h₁
  exact absurd (h₀.symm.trans h₁) (by decide)

end Broadcast

end QccGui
