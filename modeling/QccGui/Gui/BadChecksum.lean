import QccGui.Gui.Responder
import QccGui.Gui.SlotErrors

/-!
# The bad checksum fault

The responder's fault `badChecksum` inverts the last byte of a slot. That is the check byte of the
one reply of 30 bytes, and padding in all others.

* `repliedType`: the status type with which a QTRM replies.
* `SlotParser`: what a parser of reply slots makes of the replies, with and without the fault.
* `badChecksum_rejected_iff`: the replies with the fault are rejected, and the rest decoded as
  without it, if the requested type is Diagnostic or none of the faulty QTRMs replies with it; and
  only then.
-/

namespace QccGui

open Lib

namespace Responder

/-- The status type with which a QTRM replies to its slot of a query, if it does. -/
def repliedType (slot : Bytes) : Option Nat :=
  let statusType := u8At slot 3 % 16
  if slot.getD 0 0 ≠ 0xAA ∨ slot.getD 2 0 ∈ noReplyCommandTypes ∨
    replyBuilder statusType = none then none
  else some statusType

section

variable {i : Qtrm} {slot : Bytes} {statusType : Nat} {fault : FaultMode}

theorem repliedType_eq_some : repliedType slot = some statusType ↔
    Requests slot statusType ∧ ∃ builder, replyBuilder statusType = some builder := by
  rw [repliedType]
  split
  · rename_i h
    refine iff_of_false (fun he => by cases he) fun ⟨hr, builder, hb⟩ => ?_
    rcases h with h | h | h
    · exact h hr.header
    · exact hr.command h
    · rw [hr.status, hb] at h
      cases h
  · rename_i h
    simp only [not_or, not_not] at h
    obtain ⟨h₀, h₂, hb⟩ := h
    refine ⟨fun he => ?_, fun ⟨hr, _⟩ => congrArg some hr.status⟩
    obtain rfl := Option.some.inj he
    exact ⟨⟨h₀, h₂, rfl⟩, Option.ne_none_iff_exists'.mp hb⟩

theorem mockReply_silent (h : repliedType slot = none) :
    (mockReply i slot fault).1 = zeros qtrmSlotSize := by
  have hnone : (if slot.getD 0 0 ≠ 0xAA ∨ slot.getD 2 0 ∈ noReplyCommandTypes then none
      else replyBuilder (u8At slot 3 % 16)) = none := by
    split
    · rfl
    · rename_i hr
      rw [repliedType] at h
      split at h
      · rename_i hb
        exact (or_assoc.mpr hb).resolve_left hr
      · cases h
  unfold mockReply
  dsimp only
  rw [hnone]
  split <;> rfl

/-- The last byte of a slot, inverted. -/
def invertLast (reply : Bytes) : Bytes := reply.set 29 (reply.getD 29 0 ^^^ 0xFF)

/-- Replacing the last byte. -/
theorem dropLast_concat_getLastD {bs : Bytes} {n : Nat} (h : bs.length = n + 1) (f : UInt8 → UInt8) :
    bs.dropLast ++ [f (bs.getLastD 0)] = bs.set n (f (bs.getD n 0)) := by
  have hlen : (bs.take n).length = n := by
    rw [List.length_take]
    omega
  rw [← take_append_getD h]
  generalize bs.getD n 0 = b
  rw [List.dropLast_concat, List.getLastD_concat, getD_concat hlen,
    List.set_append_right _ _ hlen.le, hlen, Nat.sub_self]
  rfl

theorem mockReply_badChecksum {builder : Qtrm → Bytes → Bytes} (h : Requests slot statusType)
    (hb : replyBuilder statusType = some builder) :
    (mockReply i slot .badChecksum).1 = invertLast (builder i slot) := by
  have hlen : (builder i slot).length = 29 + 1 := replyBuilder_length hb
  have hreply : ¬(slot.getD 0 0 ≠ 0xAA ∨ slot.getD 2 0 ∈ noReplyCommandTypes) :=
    not_or.2 ⟨not_ne_iff.2 h.header, h.command⟩
  unfold mockReply
  dsimp only
  rw [if_neg hreply, h.status, hb]
  exact dropLast_concat_getLastD hlen (· ^^^ 0xFF)

end

/-! ## Parsers -/

/-- What a parser makes of replies: it accepts those of its type; the fault is only seen by the
parser of the reply of 30 bytes. -/
structure SlotParser {α : Type} (parse : Bytes → α) (rejected : α) (statusType : Nat) : Prop where
  type : ∀ slot, u8At slot 3 % 16 ≠ statusType → parse slot = rejected
  accepts : ∀ i slot builder, replyBuilder statusType = some builder →
    u8At slot 3 % 16 = statusType → parse (builder i slot) ≠ rejected
  short : ∀ reply, u8At reply 1 = 0 → parse (invertLast reply) = parse reply
  diagnostic : statusType = statusTypeDiagnostic → ∀ i slot,
    parse (invertLast (mockDiagnosticReply i slot)) = rejected

section

variable {reply slot : Bytes} {i : Qtrm} {statusType : Nat} {builder : Qtrm → Bytes → Bytes}

theorem invertLast_length : (invertLast reply).length = reply.length := List.length_set

theorem invertLast_getD {k : Nat} (hk : k ≠ 29) : (invertLast reply).getD k 0 = reply.getD k 0 := by
  rw [invertLast, List.getD_eq_getElem?_getD, List.getElem?_set_ne hk.symm,
    List.getD_eq_getElem?_getD]

theorem u8At_invertLast {k : Nat} (hk : k ≠ 29) : u8At (invertLast reply) k = u8At reply k :=
  congrArg UInt8.toNat (invertLast_getD hk)

theorem u16At_invertLast {k : Nat} (hk : k + 1 < 29) : u16At (invertLast reply) k = u16At reply k := by
  rw [u16At, u16At, invertLast_getD (by omega), invertLast_getD (by omega)]

theorem slice_invertLast {k n : Nat} (hk : k + n ≤ 29) :
    slice (invertLast reply) k n = slice reply k n :=
  slice_set_of_outside (.inr hk) _

theorem take_invertLast {n : Nat} (hn : n ≤ 29) : (invertLast reply).take n = reply.take n := by
  rw [invertLast, List.take_set_of_le hn]

/-- A message of ten bytes is in front of the padding. -/
theorem message_invertLast :
    (invertLast reply).take (messageLength 0 - 1) = reply.take (messageLength 0 - 1) ∧
      (invertLast reply).getD (messageLength 0 - 1) 0 = reply.getD (messageLength 0 - 1) 0 :=
  ⟨take_invertLast (by decide), invertLast_getD (by decide)⟩

/-- The check of a message of ten bytes does not look at the padding. -/
theorem validStatusHeader_invertLast (h : u8At reply 1 = 0) (n : Nat) :
    validStatusHeader (invertLast reply) statusType n = validStatusHeader reply statusType n := by
  unfold validStatusHeader
  simp only [u8At_invertLast (show 1 ≠ 29 by decide), u8At_invertLast (show 3 ≠ 29 by decide), h,
    invertLast_length, invertLast_getD (show 0 ≠ 29 by decide)]
  rw [message_invertLast.1, message_invertLast.2]

theorem isLinkResponseOk_invertLast (h : u8At reply 1 = 0) :
    isLinkResponseOk (invertLast reply) = isLinkResponseOk reply := by
  unfold isLinkResponseOk
  simp only [u8At_invertLast (show 1 ≠ 29 by decide), u8At_invertLast (show 3 ≠ 29 by decide), h,
    invertLast_length, invertLast_getD (show 0 ≠ 29 by decide),
    slice_invertLast (show 4 + 5 ≤ 29 by decide)]
  rw [message_invertLast.1, message_invertLast.2]

/-- The type in a reply is the type it replies with. -/
theorem replyBuilder_type (hb : replyBuilder statusType = some builder)
    (hq : u8At slot 3 % 16 = statusType) : u8At (builder i slot) 3 % 16 = statusType := by
  rcases replyBuilder_cases hb with ⟨rfl, rfl⟩ | ⟨rfl, rfl⟩ | ⟨rfl, rfl⟩ | ⟨rfl, rfl⟩ | ⟨rfl, rfl⟩ |
    ⟨rfl, rfl⟩
  · rfl
  · exact hq
  · rfl
  · rfl
  · rfl
  · change (byte _).toNat % 16 = statusTypeDiagnostic
    rw [byte_toNat, statusTypeDiagnostic]
    omega

/-- Only the Diagnostic reply has more than ten bytes. -/
theorem replyBuilder_size (hb : replyBuilder statusType = some builder)
    (hd : statusType ≠ statusTypeDiagnostic) : u8At (builder i slot) 1 = 0 := by
  rcases replyBuilder_cases hb with ⟨-, rfl⟩ | ⟨-, rfl⟩ | ⟨-, rfl⟩ | ⟨-, rfl⟩ | ⟨-, rfl⟩ | ⟨rfl, -⟩
  · rfl
  · rfl
  · rfl
  · rfl
  · rfl
  · exact absurd rfl hd

theorem invert_ne (b : UInt8) : b ^^^ 0xFF ≠ b := by
  intro h
  have hmask : b ^^^ (b ^^^ 0xFF) = 0 := by rw [h, UInt8.xor_self]
  rw [← UInt8.xor_assoc, UInt8.xor_self, UInt8.zero_xor] at hmask
  exact absurd hmask (by decide)

theorem validStatusHeader_invertLast_diagnostic : validStatusHeader
    (invertLast (mockDiagnosticReply i slot)) statusTypeDiagnostic 30 = false :=
  status_reply_set validStatusHeader_mockDiagnosticReply (by decide) (by decide) (invert_ne _)

/-- The parsers of ten byte replies do not look at the padding, and the Diagnostic parser does not
accept such a reply. -/
theorem parser_invertLast {parser : Bytes → Nat → Option StatusReply}
    (hp : statusParser statusType = some parser) (d : Nat) (h : u8At reply 1 = 0) :
    parser (invertLast reply) d = parser reply d := by
  unfold statusParser at hp
  split_ifs at hp <;> obtain rfl := Option.some.inj hp
  · simp (disch := decide) only [parseAckResponse, validStatusHeader_invertLast h, invertLast_getD,
      slice_invertLast]
  · simp (disch := decide) only [parseHealthResponse, validStatusHeader_invertLast h,
      invertLast_getD]
  · simp (disch := decide) only [parseErrLogResponse, validStatusHeader_invertLast h,
      invertLast_getD, u8At_invertLast]
  · simp (disch := decide) only [parseMfgResponse, validStatusHeader_invertLast h,
      u8At_invertLast, u16At_invertLast]
  · have hv : validStatusHeader reply statusTypeDiagnostic 30 = false := by
      rw [validStatusHeader, h, decide_eq_false_iff_not]
      exact fun hok => absurd hok.2.2.1 (by decide)
    rw [parseDiagnosticResponse, parseDiagnosticResponse, validStatusHeader_invertLast h, hv]
    rfl
  · simp (disch := decide) only [parseThermalShutdownConfigResponse,
      validStatusHeader_invertLast h, invertLast_getD]

theorem slotParser_link : SlotParser isLinkResponseOk false statusTypeLink where
  type slot h := by
    rw [isLinkResponseOk, decide_eq_false_iff_not]
    exact fun hok => h hok.2.2.2.2.2.1
  accepts i slot builder hb hq := by
    obtain rfl := Option.some.inj hb
    rw [isLinkResponseOk_mockLinkReply]
    decide
  short reply h := isLinkResponseOk_invertLast h
  diagnostic h := absurd h (by decide)

theorem slotParser_status {parser : Bytes → Nat → Option StatusReply}
    (hp : statusParser statusType = some parser) (d : Nat) :
    SlotParser (fun slot => parser slot d) none statusType where
  type slot h := by
    rw [← Option.not_isSome_iff_eq_none, statusParser_isSome hp, validStatusHeader,
      decide_eq_true_eq]
    exact fun hok => h hok.2.2.2.2
  accepts i slot builder hb hq := by
    rw [← Option.isSome_iff_ne_none]
    exact parser_accepts d hb hp hq
  short reply h := parser_invertLast hp d h
  diagnostic hd i slot := by
    subst hd
    rw [← Option.not_isSome_iff_eq_none, statusParser_isSome hp]
    exact ne_true_of_eq_false validStatusHeader_invertLast_diagnostic

end

/-! ## Responses -/

section

variable {α : Type} {parse : Bytes → α} {rejected : α} {statusType : Nat} {i : Qtrm} {slot : Bytes}

/-- The fault makes a parser reject a reply if it is a Diagnostic one or not of the parser's type. -/
theorem SlotParser.badChecksum (hp : SlotParser parse rejected statusType) {t : Nat}
    (ht : repliedType slot = some t) :
    parse (mockReply i slot .badChecksum).1 = rejected ↔ statusType = statusTypeDiagnostic ∨
      t ≠ statusType := by
  obtain ⟨hr, builder, hb⟩ := repliedType_eq_some.mp ht
  rw [mockReply_badChecksum hr hb]
  by_cases hts : t = statusType
  · subst hts
    rw [or_iff_left (not_not.mpr rfl)]
    by_cases hd : t = statusTypeDiagnostic
    · refine iff_of_true ?_ hd
      subst hd
      obtain rfl := Option.some.inj hb
      exact hp.diagnostic rfl i slot
    · refine iff_of_false ?_ hd
      rw [hp.short _ (replyBuilder_size hb hd)]
      exact hp.accepts i slot builder hb hr.status
  · refine iff_of_true (hp.type _ ?_) (.inr hts)
    rw [u8At_invertLast (by decide), replyBuilder_type hb hr.status]
    exact hts

/-- The replies of faulty QTRMs are rejected, and all other slots are decoded as without faults. -/
def RejectsFaulty (query : Bytes) (faultIndices : List Nat) (rejected : α) (faulty clean : Qtrm → α) :
    Prop :=
  ∀ i : Qtrm, faulty i =
    if (repliedType (responseSlot query i)).isSome ∧ i.val ∈ faultIndices then rejected else clean i

/-- The answers to a query with the fault `faultMode`. -/
def replySlot (query : Bytes) (faultIndices : List Nat) (faultMode : FaultMode) (i : Qtrm) : Bytes :=
  (mockReply i (responseSlot query i) (if i.val ∈ faultIndices then faultMode else .none)).1

theorem SlotParser.rejectsFaulty_iff (hp : SlotParser parse rejected statusType) (query : Bytes)
    (faultIndices : List Nat) :
    RejectsFaulty query faultIndices rejected
        (fun i => parse (replySlot query faultIndices .badChecksum i))
        (fun i => parse (replySlot query faultIndices .none i)) ↔
      statusType = statusTypeDiagnostic ∨ ∀ i : Qtrm, i.val ∈ faultIndices →
        repliedType (responseSlot query i) ≠ some statusType := by
  have hone : ∀ i : Qtrm, parse (replySlot query faultIndices .badChecksum i) =
      (if (repliedType (responseSlot query i)).isSome ∧ i.val ∈ faultIndices then rejected
        else parse (replySlot query faultIndices .none i)) ↔
      statusType = statusTypeDiagnostic ∨ (i.val ∈ faultIndices →
        repliedType (responseSlot query i) ≠ some statusType) := by
    intro i
    simp only [replySlot, ite_self]
    by_cases hF : i.val ∈ faultIndices
    · rw [if_pos hF]
      cases ht : repliedType (responseSlot query i) with
      | none =>
        rw [mockReply_silent ht, mockReply_silent ht]
        simp
      | some t =>
        rw [if_pos ⟨rfl, hF⟩, hp.badChecksum ht]
        simp [hF]
    · rw [if_neg hF, if_neg fun h => hF h.2]
      simp [hF]
  simp only [RejectsFaulty, hone, forall_or_left]

end

/-- The headers of a response have its size. -/
theorem responseHeader_length {query fixedHeader qccHeader : Bytes}
    (hl : query.length = totalPacketSize) (hf : fixedHeader.length = 32) (hq : qccHeader.length = 58)
    (autoEchoHeader : Bool) :
    (responseHeader query fixedHeader qccHeader autoEchoHeader).length = headerSize := by
  cases autoEchoHeader with
  | true =>
    obtain ⟨tail, ht, hheader⟩ := responseHeader_eq hl hf hq
    rw [hheader, List.length_append, responseBody_length hl ht]
    rfl
  | false =>
    change (fixedHeader ++ qccHeader).length = headerSize
    rw [List.length_append, hf, hq]
    rfl

theorem mockReply_length_badChecksum (i : Qtrm) (slot : Bytes) :
    (mockReply i slot .badChecksum).1.length = qtrmSlotSize := by
  cases ht : repliedType slot with
  | none => rw [mockReply_silent ht, zeros_length]
  | some t =>
    obtain ⟨hr, builder, hb⟩ := repliedType_eq_some.mp ht
    rw [mockReply_badChecksum hr hb, invertLast_length, replyBuilder_length hb]

/-- The slots of a response with or without the fault. -/
theorem responseSlot_badChecksum {query fixedHeader qccHeader : Bytes}
    (hl : query.length = totalPacketSize) (hf : fixedHeader.length = 32) (hq : qccHeader.length = 58)
    (faultIndices : List Nat) {faultMode : FaultMode}
    (hm : faultMode = .none ∨ faultMode = .badChecksum) (autoEchoHeader : Bool) :
    let response := (buildMockResponseFrame query fixedHeader qccHeader faultIndices faultMode
      autoEchoHeader).1
    response.length = totalPacketSize ∧
      ∀ i, responseSlot response i = replySlot query faultIndices faultMode i := by
  have hheader := responseHeader_length hl hf hq autoEchoHeader
  have hs : ∀ i, (replySlot query faultIndices faultMode i).length = qtrmSlotSize := by
    intro i
    rw [replySlot]
    rcases hm with rfl | rfl
    · rw [ite_self, mockReply_length]
    · split
      · exact mockReply_length_badChecksum i _
      · exact mockReply_length
  exact ⟨slotFrame_length hheader hs, responseSlot_slotFrame hheader hs⟩

/-- With the fault `badChecksum` the parser for the requested type rejects the replies of the faulty
QTRMs and decodes all other slots as without it, exactly if the type is Diagnostic or no faulty
QTRM replies with that type. -/
theorem badChecksum_rejected_iff {query fixedHeader qccHeader : Bytes}
    (hl : query.length = totalPacketSize) (hf : fixedHeader.length = 32) (hq : qccHeader.length = 58)
    (faultIndices : List Nat) (autoEchoHeader : Bool) :
    let response := fun faultMode =>
      (buildMockResponseFrame query fixedHeader qccHeader faultIndices faultMode autoEchoHeader).1
    (∃ faulty clean, parseLinkTestResponse (response .badChecksum) = .ok faulty ∧
      parseLinkTestResponse (response .none) = .ok clean ∧
      (RejectsFaulty query faultIndices false faulty clean ↔ ∀ i : Qtrm, i.val ∈ faultIndices →
        repliedType (responseSlot query i) ≠ some statusTypeLink)) ∧
    ∀ statusType diagnosticType, (statusParser statusType).isSome = true →
      ∃ faulty clean,
        parseStatusFrame (response .badChecksum) statusType diagnosticType = .ok faulty ∧
        parseStatusFrame (response .none) statusType diagnosticType = .ok clean ∧
        (RejectsFaulty query faultIndices none faulty clean ↔ statusType = statusTypeDiagnostic ∨
          ∀ i : Qtrm, i.val ∈ faultIndices →
            repliedType (responseSlot query i) ≠ some statusType) := by
  intro response
  obtain ⟨hbad, hbadSlot⟩ : (response .badChecksum).length = totalPacketSize ∧
      ∀ i, responseSlot (response .badChecksum) i = replySlot query faultIndices .badChecksum i :=
    responseSlot_badChecksum hl hf hq faultIndices (.inr rfl) autoEchoHeader
  obtain ⟨hnone, hnoneSlot⟩ : (response .none).length = totalPacketSize ∧
      ∀ i, responseSlot (response .none) i = replySlot query faultIndices .none i :=
    responseSlot_badChecksum hl hf hq faultIndices (.inl rfl) autoEchoHeader
  refine ⟨⟨_, _, parseLinkTestResponse_eq_ok.mpr ⟨hbad, rfl⟩,
    parseLinkTestResponse_eq_ok.mpr ⟨hnone, rfl⟩, ?_⟩, fun statusType diagnosticType hsome => ?_⟩
  · simp only [hbadSlot, hnoneSlot]
    rw [slotParser_link.rejectsFaulty_iff]
    exact or_iff_right (by decide)
  · obtain ⟨parser, hp⟩ := Option.isSome_iff_exists.mp hsome
    refine ⟨_, _, parseStatusFrame_eq_ok.mpr ⟨hbad, parser, hp, rfl⟩,
      parseStatusFrame_eq_ok.mpr ⟨hnone, parser, hp, rfl⟩, ?_⟩
    simp only [hbadSlot, hnoneSlot]
    exact (slotParser_status hp diagnosticType).rejectsFaulty_iff query faultIndices

/-- A Link query to all QTRMs, in the middle of which one is faulty. -/
theorem badChecksum_rejected_iff_link :
    let query := buildLinkTestFrame mockHeader.toBytes
    ∃ faulty clean, parseLinkTestResponse (buildMockResponseFrame query mockFixedHeader mockQccHeader
        [7] .badChecksum).1 = .ok faulty ∧
      parseLinkTestResponse (buildMockResponseFrame query mockFixedHeader mockQccHeader
        [7] .none).1 = .ok clean ∧
      (RejectsFaulty query [7] false faulty clean ↔ ∀ i : Qtrm, i.val ∈ [7] →
        repliedType (responseSlot query i) ≠ some statusTypeLink) :=
  (badChecksum_rejected_iff (slotFrame_length mockHeader.toBytes_length fun _ => rfl)
    mockFixedHeader_length mockQccHeader_length [7] true).1

/-- The GUI takes the Link reply of a faulty QTRM for a good one. -/
theorem badChecksum_link_accepted :
    let query := buildLinkTestFrame mockHeader.toBytes
    ∃ faulty clean, parseLinkTestResponse (buildMockResponseFrame query mockFixedHeader mockQccHeader
        [7] .badChecksum).1 = .ok faulty ∧
      parseLinkTestResponse (buildMockResponseFrame query mockFixedHeader mockQccHeader
        [7] .none).1 = .ok clean ∧ faulty 7 = true ∧ ¬ RejectsFaulty query [7] false faulty clean := by
  intro query
  have hslot : ∀ i, responseSlot query i = buildLinkQuerySlot :=
    responseSlot_slotFrame mockHeader.toBytes_length fun _ => rfl
  have hl : query.length = totalPacketSize :=
    slotFrame_length mockHeader.toBytes_length fun _ => rfl
  obtain ⟨hbad, hbadSlot⟩ := responseSlot_badChecksum hl mockFixedHeader_length
    mockQccHeader_length [7] (.inr rfl) true
  obtain ⟨hnone, hnoneSlot⟩ := responseSlot_badChecksum hl mockFixedHeader_length
    mockQccHeader_length [7] (.inl rfl) true
  refine ⟨_, _, parseLinkTestResponse_eq_ok.mpr ⟨hbad, rfl⟩,
    parseLinkTestResponse_eq_ok.mpr ⟨hnone, rfl⟩, ?_, ?_⟩
  · rw [hbadSlot, replySlot, hslot]
    rfl
  · simp only [hbadSlot, hnoneSlot]
    rw [slotParser_link.rejectsFaulty_iff]
    rintro (hd | hne)
    · exact absurd hd (by decide)
    · refine hne 7 (by decide) ?_
      rw [hslot]
      rfl

end Responder

end QccGui
