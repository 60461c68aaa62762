import QccGui.Gui.Headers
import QccGui.Gui.Slots

/-!
# Corrupted reply slots

A reply with one byte of its message changed is not taken for a reply, wherever the byte is: the
XOR of the message is zero, and remains the XOR of what the changed size identifier delimits as
long as the rest of the slot is zero.

* `setSlotByte`: a response with one byte of a QTRM's slot changed.
* `replyLength`: the size of a status reply; `statusParser_isSome`: what a status parser accepts.
* `slot_corruption_detected`: the QTRM is reported as not replying, and the others as before.
-/

namespace QccGui

open Lib

/-! ## Slots -/

/-- Byte `k` of the slot of `i` is `b`. -/
def setSlotByte (raw : Bytes) (i : Qtrm) (k : Nat) (b : UInt8) : Bytes :=
  raw.set (headerSize + i.val * qtrmSlotSize + k) b

@[simp] theorem setSlotByte_length (raw : Bytes) (i : Qtrm) (k : Nat) (b : UInt8) :
    (setSlotByte raw i k b).length = raw.length := List.length_set

theorem responseSlot_setSlotByte (raw : Bytes) (i : Qtrm) (k : Nat) (b : UInt8) :
    responseSlot (setSlotByte raw i k b) i = (responseSlot raw i).set k b := slice_set ..

theorem responseSlot_setSlotByte_of_ne {raw : Bytes} {i j : Qtrm} {k : Nat} (hj : j ≠ i)
    (hk : k < qtrmSlotSize) (b : UInt8) :
    responseSlot (setSlotByte raw i k b) j = responseSlot raw j := by
  have hne : j.val ≠ i.val := fun h => hj (Fin.ext h)
  have hk : k < 30 := hk
  refine slice_set_of_outside ?_ b
  simp only [headerSize, qtrmSlotSize]
  omega

/-! ## Messages -/

section

variable {slot : Bytes} {n k : Nat} {b : UInt8}

/-- A message with one byte changed has a wrong check byte. -/
theorem check_set (hsum : xorSum (slot.take (n + 1)) = 0) (hn : n < slot.length) (hk : k < n + 1)
    (hb : b ≠ slot.getD k 0) :
    ¬ xorSum ((slot.set k b).take n) = (slot.set k b).getD n 0 := by
  have hlen : k < (slot.take (n + 1)).length := by
    rw [List.length_take]
    omega
  rw [check_iff (by rwa [List.length_set]), List.take_set, xorSum_set hlen, hsum, UInt8.zero_xor,
    getD_take hk, xor_eq_zero]
  exact fun h => hb h.symm

/-- Zeros after a message do not change the XOR. -/
theorem xorSum_take_of_zeros (hsum : xorSum (slot.take n) = 0)
    (hz : ∀ j, n ≤ j → slot.getD j 0 = 0) {m : Nat} (hm : n ≤ m) : xorSum (slot.take m) = 0 := by
  have htake : slot.take m = slot.take n ++ slice slot n (m - n) := by
    rw [slice, ← List.take_add, Nat.add_sub_cancel' hm]
  have hzeros : ∀ c ∈ slice slot n (m - n), c = 0 := by
    intro c hc
    obtain ⟨j, hj⟩ := List.mem_iff_getElem?.mp (List.mem_of_mem_take hc)
    rw [List.getElem?_drop] at hj
    have hget := hz (n + j) (Nat.le_add_right n j)
    rwa [List.getD_eq_getElem?_getD, hj] at hget
  rw [htake, xorSum_append, hsum, xorSum_eq_zero hzeros, UInt8.xor_zero]

/-- A Link reply of ten bytes, the rest of its slot zero. -/
structure ShortLinkReply (slot : Bytes) : Prop where
  valid : isLinkResponseOk slot = true
  size : slot.getD 1 0 = 0
  zeros : ∀ j, 10 ≤ j → slot.getD j 0 = 0

theorem link_reply_set (h : ShortLinkReply slot) (hk : k < 10) (hb : b ≠ slot.getD k 0) :
    isLinkResponseOk (slot.set k b) = false := by
  obtain ⟨hvalid, hsize, hzeros⟩ := h
  simp only [isLinkResponseOk, u8At, hsize, decide_eq_true_eq] at hvalid
  obtain ⟨hlen, -, -, -, hcheck, -⟩ := hvalid
  have hlen : slot.length = 30 := hlen
  have hsum : xorSum (slot.take 10) = 0 := (check_iff (by omega)).mp hcheck
  rw [isLinkResponseOk, decide_eq_false_iff_not]
  rintro ⟨-, -, hlow, hhigh, hcheck', -⟩
  have hhigh : messageLength (u8At (slot.set k b) 1) ≤ 30 := hhigh
  refine check_set (xorSum_take_of_zeros hsum hzeros ?_) ?_ ?_ hb hcheck' <;> omega

/-- A message of a fixed size. -/
theorem status_reply_set {statusType : Nat} (h : validStatusHeader slot statusType (n + 1) = true)
    (hn : n < qtrmSlotSize) (hk : k < n + 1) (hb : b ≠ slot.getD k 0) :
    validStatusHeader (slot.set k b) statusType (n + 1) = false := by
  simp only [validStatusHeader, decide_eq_true_eq] at h
  obtain ⟨hlen, -, hsize, hcheck, -⟩ := h
  rw [hsize, Nat.add_sub_cancel, check_iff (by omega)] at hcheck
  rw [validStatusHeader, decide_eq_false_iff_not]
  rintro ⟨-, -, hsize', hcheck', -⟩
  rw [hsize', Nat.add_sub_cancel] at hcheck'
  exact check_set hcheck (by omega) hk hb hcheck'

end

/-! ## Status replies -/

/-- The size of a status reply. -/
def replyLength (statusType : Nat) : Nat := if statusType = statusTypeDiagnostic then 30 else 10

theorem replyLength_eq (statusType : Nat) :
    ∃ n, replyLength statusType = n + 1 ∧ n < qtrmSlotSize := by
  by_cases h : statusType = statusTypeDiagnostic
  · exact ⟨29, if_pos h, by decide⟩
  · exact ⟨9, if_neg h, by decide⟩

theorem isSome_ite {α : Type} {c : Bool} {x : α} : (if c then some x else none).isSome = c := by
  cases c <;> rfl

theorem parseDiagnosticResponse_isSome (slot : Bytes) (diagnosticType : Nat) :
    (parseDiagnosticResponse slot diagnosticType).isSome =
      validStatusHeader slot statusTypeDiagnostic 30 := by
  rw [parseDiagnosticResponse]
  cases validStatusHeader slot statusTypeDiagnostic 30 with
  | true =>
    simp only [if_true]
    split <;> rfl
  | false => rfl

/-- A status parser accepts what has a valid header for its type and size. -/
theorem statusParser_isSome {statusType : Nat} {parser : Bytes → Nat → Option StatusReply}
    (h : statusParser statusType = some parser) (slot : Bytes) (diagnosticType : Nat) :
    (parser slot diagnosticType).isSome =
      validStatusHeader slot statusType (replyLength statusType) := by
  unfold statusParser at h
  split_ifs at h with hack hhealth herr hmfg hdiag hthermal <;>
    obtain rfl := Option.some.inj h <;> subst_vars
  · exact isSome_ite
  · exact isSome_ite
  · exact isSome_ite
  · exact isSome_ite
  · exact parseDiagnosticResponse_isSome slot diagnosticType
  · exact isSome_ite

/-! ## Responses -/

theorem parseLinkTestResponse_eq_ok {raw : Bytes} {link : Qtrm → Bool} :
    parseLinkTestResponse raw = .ok link ↔
      raw.length = totalPacketSize ∧ link = fun i => isLinkResponseOk (responseSlot raw i) := by
  refine ⟨fun h => ?_, fun ⟨hl, hlink⟩ => ?_⟩
  · obtain ⟨hl, rfl⟩ := checked_eq_ok h
    exact ⟨hl, rfl⟩
  · rw [hlink, parseLinkTestResponse, requireSize_eq_ok.2 hl]
    rfl

theorem parseStatusFrame_eq_ok {raw : Bytes} {statusType diagnosticType : Nat}
    {replies : Qtrm → Option StatusReply} :
    parseStatusFrame raw statusType diagnosticType = .ok replies ↔
      raw.length = totalPacketSize ∧ ∃ parser, statusParser statusType = some parser ∧
        replies = fun i => parser (responseSlot raw i) diagnosticType := by
  unfold parseStatusFrame
  cases hr : requireSize raw totalPacketSize "response frame" with
  | error e =>
    refine iff_of_false (fun h => by cases h) fun ⟨hl, _⟩ => ?_
    rw [requireSize_eq_ok.2 hl] at hr
    cases hr
  | ok u =>
    have hl := requireSize_eq_ok.1 hr
    cases hp : statusParser statusType with
    | none => exact iff_of_false (fun h => by cases h) fun ⟨_, _, h, _⟩ => by cases h
    | some parser =>
      refine ⟨fun h => ⟨hl, parser, rfl, (Except.ok.inj h).symm⟩, fun ⟨_, parser', h, hrep⟩ => ?_⟩
      obtain rfl := Option.some.inj h
      rw [hrep]
      rfl

/-- If one byte of the message of a replying QTRM changes, a Link reply being of ten bytes and
followed by zeros, the QTRM is reported as not replying and all others as before. -/
theorem slot_corruption_detected (raw : Bytes) (i : Qtrm) (k : Nat) (b : UInt8) :
    (∀ link, parseLinkTestResponse raw = .ok link → ShortLinkReply (responseSlot raw i) → k < 10 →
      b ≠ (responseSlot raw i).getD k 0 →
      ∃ link', parseLinkTestResponse (setSlotByte raw i k b) = .ok link' ∧
        link' i = false ∧ ∀ j, j ≠ i → link' j = link j) ∧
    ∀ statusType diagnosticType replies,
      parseStatusFrame raw statusType diagnosticType = .ok replies →
      (replies i).isSome = true → k < replyLength statusType →
      b ≠ (responseSlot raw i).getD k 0 →
      ∃ replies', parseStatusFrame (setSlotByte raw i k b) statusType diagnosticType = .ok replies' ∧
        replies' i = none ∧ ∀ j, j ≠ i → replies' j = replies j := by
  have hlen : (setSlotByte raw i k b).length = raw.length := setSlotByte_length ..
  refine ⟨fun link hok hreply hk hb => ?_, fun statusType diagnosticType replies hok hsome hk hb => ?_⟩
  · obtain ⟨hl, rfl⟩ := parseLinkTestResponse_eq_ok.mp hok
    have hk' : k < qtrmSlotSize := lt_trans hk (by decide)
    refine ⟨_, parseLinkTestResponse_eq_ok.mpr ⟨hlen.trans hl, rfl⟩, ?_, fun j hj => ?_⟩
    · rw [responseSlot_setSlotByte]
      exact link_reply_set hreply hk hb
    · rw [responseSlot_setSlotByte_of_ne hj hk']
  · obtain ⟨hl, parser, hp, rfl⟩ := parseStatusFrame_eq_ok.mp hok
    obtain ⟨n, hn, hn'⟩ := replyLength_eq statusType
    rw [statusParser_isSome hp, hn] at hsome
    rw [hn] at hk
    refine ⟨_, parseStatusFrame_eq_ok.mpr ⟨hlen.trans hl, parser, hp, rfl⟩, ?_, fun j hj => ?_⟩
    · rw [responseSlot_setSlotByte, ← Option.not_isSome_iff_eq_none, statusParser_isSome hp, hn,
        status_reply_set hsome hn' hk hb]
      exact Bool.false_ne_true
    · rw [responseSlot_setSlotByte_of_ne hj (by omega)]

/-- The size byte of a Link reply, and the last byte of an acknowledgement. -/
theorem slot_corruption_detected_values :
    let slot (statusType : Nat) : Bytes :=
      sealed ([0xAA, 0, 0x05, byte statusType] ++ linkSentinel) ++ zeros 20
    let raw (statusType : Nat) := slotFrame (zeros headerSize) fun _ => slot statusType
    let i : Qtrm := 7
    (∃ link', parseLinkTestResponse (setSlotByte (raw statusTypeLink) i 1 1) = .ok link' ∧
      link' i = false ∧ ∀ j, j ≠ i → link' j = true) ∧
    ∃ replies', parseStatusFrame (setSlotByte (raw statusTypeAck) i 9 0) statusTypeAck 0 =
      .ok replies' ∧ replies' i = none ∧ ∀ j, j ≠ i → (replies' j).isSome = true := by
  intro slot raw i
  have hlen : ∀ statusType, (raw statusType).length = totalPacketSize := fun _ =>
    slotFrame_length (zeros_length _) fun _ => rfl
  have hslot : ∀ statusType j, responseSlot (raw statusType) j = slot statusType := fun _ =>
    responseSlot_slotFrame (zeros_length _) fun _ => rfl
  have hlink : ShortLinkReply (slot statusTypeLink) := by
    refine ⟨by decide, by decide, fun j hj => ?_⟩
    obtain ⟨k, rfl⟩ := Nat.exists_eq_add_of_le' hj
    change (zeros 20).getD k 0 = 0
    rw [List.getD_eq_getElem?_getD, zeros, List.getElem?_replicate]
    split <;> rfl
  refine ⟨?_, ?_⟩
  · obtain ⟨h, -⟩ := slot_corruption_detected (raw statusTypeLink) i 1 1
    obtain ⟨link', hok, hi, hj⟩ := h _ (parseLinkTestResponse_eq_ok.2 ⟨hlen _, rfl⟩)
      (by rw [hslot]; exact hlink) (by decide) (by rw [hslot]; decide)
    refine ⟨link', hok, hi, fun j hne => (hj j hne).trans ?_⟩
    rw [hslot]
    exact hlink.valid
  · obtain ⟨-, h⟩ := slot_corruption_detected (raw statusTypeAck) i 9 0
    obtain ⟨replies', hok, hi, hj⟩ := h statusTypeAck 0 _
      (parseStatusFrame_eq_ok.2 ⟨hlen _, _, rfl, rfl⟩) (by rw [hslot]; decide) (by decide)
      (by rw [hslot]; decide)
    refine ⟨replies', hok, hi, fun j hne => ?_⟩
    rw [hj j hne, hslot]
    decide

end QccGui
