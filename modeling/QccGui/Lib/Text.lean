import QccGui.Lib.Bytes
import Mathlib.Data.List.DropRight

/-!
# Texts and numbers

White space at the ends of a text, and whole numbers in it, as Python's `str.strip` and `int` treat
them, and the bytes of a text file.

* `strip`: a text without the white space around it; `map_trimBy_splitOn` for a text in parts.
* `int?`: the number that a text stands for, `none` where `int` raises a `ValueError`.
* `repr?`: the digits of a number; `int?_repr` says that they stand for it.
* `fromHex?`: the bytes that hexadecimal digits stand for.
* `encodeUtf8Sig`, `decodeUtf8Sig`: the encoding `utf-8-sig`.
-/

namespace Lib

/-! ## White space -/

def isSpace (c : Char) : Bool :=
  let n := c.toNat
  9 ≤ n ∧ n ≤ 13 ∨ 28 ≤ n ∧ n ≤ 32 ∨ 0x2000 ≤ n ∧ n ≤ 0x200A ∨
    n ∈ [0x85, 0xA0, 0x1680, 0x2028, 0x2029, 0x202F, 0x205F, 0x3000]

/-- The characters without those at both ends that `p` holds of. -/
def trimBy (p : Char → Bool) (text : List Char) : List Char := (text.dropWhile p).rdropWhile p

theorem trimBy_eq_self {p : Char → Bool} {text : List Char} (h : ∀ c ∈ text, p c = false) :
    trimBy p text = text := by
  have hdrop : text.dropWhile p = text := by
    cases text with
    | nil => rfl
    | cons c text => exact List.dropWhile_cons_of_neg (by simp [h c (List.mem_cons_self ..)])
  rw [trimBy, hdrop, List.rdropWhile_eq_self_iff]
  intro hne
  simp [h _ (List.getLast_mem hne)]

theorem trimBy_append_left {p : Char → Bool} {ws text : List Char} (h : ∀ c ∈ ws, p c) :
    trimBy p (ws ++ text) = trimBy p text := by
  rw [trimBy, List.dropWhile_append_of_pos h]
  rfl

theorem trimBy_append_right {p : Char → Bool} {ws text : List Char} (h : ∀ c ∈ ws, p c) :
    trimBy p (text ++ ws) = trimBy p text := by
  have hreverse : ∀ c ∈ ws.reverse, p c := fun c hc => h c (List.mem_reverse.1 hc)
  have hright : ∀ l : List Char, (l ++ ws).rdropWhile p = l.rdropWhile p := by
    intro l
    rw [List.rdropWhile, List.reverse_append, List.dropWhile_append_of_pos hreverse]
    rfl
  rw [trimBy, trimBy, List.dropWhile_append]
  split
  · rename_i hempty
    rw [List.isEmpty_iff.1 hempty, List.dropWhile_eq_nil_iff.2 h]
  · exact hright _

/-- The white space around a text. -/
theorem trimBy_decompose (p : Char → Bool) (text : List Char) :
    ∃ pre post, text = pre ++ trimBy p text ++ post ∧ (∀ c ∈ pre, p c) ∧ ∀ c ∈ post, p c := by
  refine ⟨text.takeWhile p, (text.dropWhile p).rtakeWhile p, ?_, fun c hc => List.mem_takeWhile_imp hc,
    fun c hc => List.mem_rtakeWhile_imp hc⟩
  rw [List.append_assoc, trimBy, List.rdropWhile_append_rtakeWhile, List.takeWhile_append_dropWhile]

section

variable {p : Char → Bool} {sep : Char} {ws : List Char}

theorem sep_not_mem (hsep : p sep = false) (hws : ∀ c ∈ ws, p c) : sep ∉ ws := by
  intro hmem
  rw [hws sep hmem] at hsep
  cases hsep

/-- White space before a text goes into its first part. -/
theorem map_trimBy_splitOn_left (hsep : p sep = false) (text : List Char) (hws : ∀ c ∈ ws, p c) :
    ((ws ++ text).splitOn sep).map (trimBy p) = (text.splitOn sep).map (trimBy p) := by
  have hnot := sep_not_mem hsep hws
  by_cases hmem : sep ∈ text
  · obtain ⟨as, bs, rfl, has⟩ := List.eq_append_cons_of_mem hmem
    have hboth : sep ∉ ws ++ as := by simp [hnot, has]
    rw [← List.append_assoc, List.splitOn_append_cons_self_of_not_mem hboth,
      List.splitOn_append_cons_self_of_not_mem has, List.map_cons, List.map_cons,
      trimBy_append_left hws]
  · have hboth : sep ∉ ws ++ text := by simp [hnot, hmem]
    rw [List.splitOn_eq_singleton hmem, List.splitOn_eq_singleton hboth, List.map_singleton,
      List.map_singleton, trimBy_append_left hws]

/-- White space after a text goes into its last part. -/
theorem map_trimBy_splitOn_right (hsep : p sep = false) (text : List Char) (hws : ∀ c ∈ ws, p c) :
    ((text ++ ws).splitOn sep).map (trimBy p) = (text.splitOn sep).map (trimBy p) := by
  have hnot := sep_not_mem hsep hws
  have hlast : ∀ l : List Char, sep ∉ l →
      ((l ++ ws).splitOn sep).map (trimBy p) = (l.splitOn sep).map (trimBy p) := by
    intro l hl
    have hboth : sep ∉ l ++ ws := by simp [hnot, hl]
    rw [List.splitOn_eq_singleton hl, List.splitOn_eq_singleton hboth, List.map_singleton,
      List.map_singleton, trimBy_append_right hws]
  by_cases hmem : sep ∈ text
  · obtain ⟨as, bs, htext, has⟩ := List.eq_append_cons_of_mem (List.mem_reverse.2 hmem)
    obtain rfl : text = bs.reverse ++ sep :: as.reverse := by
      rw [← List.reverse_reverse text, htext]
      simp
    have hpart := hlast as.reverse fun h => has (List.mem_reverse.1 h)
    rw [List.append_assoc, List.cons_append, List.splitOn_append_cons_self,
      List.splitOn_append_cons_self, List.map_append, List.map_append, hpart]
  · exact hlast text hmem

/-- The parts of a trimmed text are those of the text, when they are trimmed themselves. -/
theorem map_trimBy_splitOn (hsep : p sep = false) (text : List Char) :
    ((trimBy p text).splitOn sep).map (trimBy p) = (text.splitOn sep).map (trimBy p) := by
  obtain ⟨pre, post, htext, hpre, hpost⟩ := trimBy_decompose p text
  have houter := map_trimBy_splitOn_right hsep (pre ++ trimBy p text) hpost
  have hinner := map_trimBy_splitOn_left hsep (trimBy p text) hpre
  rw [← htext] at houter
  rw [houter, hinner]

end

/-- Parts that are joined by commas and blanks are found again. -/
theorem map_trimBy_splitOn_joined {p : Char → Bool} {parts : List (List Char)} (hne : parts ≠ [])
    (hcomma : p ',' = false) (hblank : p ' ' = true) (hparts : ∀ l ∈ parts, ',' ∉ l)
    (htrim : ∀ l ∈ parts, trimBy p l = l) :
    (([',', ' '].intercalate parts).splitOn ',').map (trimBy p) = parts := by
  induction parts with
  | nil => exact absurd rfl hne
  | cons l rest ih =>
    have hl := hparts l (List.mem_cons_self ..)
    have ht := htrim l (List.mem_cons_self ..)
    cases rest with
    | nil => rw [List.intercalate_singleton, List.splitOn_eq_singleton hl, List.map_singleton, ht]
    | cons l' rest =>
      have hrest := ih (List.cons_ne_nil _ _) (fun x hx => hparts x (List.mem_cons_of_mem _ hx))
        fun x hx => htrim x (List.mem_cons_of_mem _ hx)
      have hws : ∀ c ∈ [' '], p c := fun c hc => by rwa [List.mem_singleton.1 hc]
      have hleft := map_trimBy_splitOn_left hcomma ([',', ' '].intercalate (l' :: rest)) hws
      rw [List.intercalate_cons_cons, List.append_assoc, List.cons_append,
        List.splitOn_append_cons_self_of_not_mem hl, List.map_cons, ht, hleft, hrest]

def strip (text : String) : String := String.ofList (trimBy isSpace text.toList)

theorem strip_eq_self {text : String} (h : ∀ c ∈ text.toList, isSpace c = false) :
    strip text = text := by
  rw [strip, trimBy_eq_self h, String.ofList_toList]

/-! ## Numbers -/

/-- The zeros of Unicode 14, each followed by the other nine digits. -/
def digitZeros : List Nat :=
  [0x30, 0x660, 0x6F0, 0x7C0, 0x966, 0x9E6, 0xA66, 0xAE6, 0xB66, 0xBE6, 0xC66, 0xCE6, 0xD66, 0xDE6,
    0xE50, 0xED0, 0xF20, 0x1040, 0x1090, 0x17E0, 0x1810, 0x1946, 0x19D0, 0x1A80, 0x1A90, 0x1B50,
    0x1BB0, 0x1C40, 0x1C50, 0xA620, 0xA8D0, 0xA900, 0xA9D0, 0xA9F0, 0xAA50, 0xABF0, 0xFF10, 0x104A0,
    0x10D30, 0x11066, 0x110F0, 0x11136, 0x111D0, 0x112F0, 0x11450, 0x114D0, 0x11650, 0x116C0,
    0x11730, 0x118E0, 0x11950, 0x11C50, 0x11D50, 0x11DA0, 0x16A60, 0x16AC0, 0x16B50, 0x1D7CE,
    0x1D7D8, 0x1D7E2, 0x1D7EC, 0x1D7F6, 0x1E140, 0x1E2F0, 0x1E950, 0x1FBF0]

/-- The value of a decimal digit. -/
def digit? (c : Char) : Option Nat :=
  (digitZeros.find? fun z => z ≤ c.toNat ∧ c.toNat < z + 10).map fun z => c.toNat - z

/-- The digits of a number; single underscores may stand between them. -/
def digits? (text : List Char) : Option (List Nat) :=
  let groups := text.splitOn '_'
  if [] ∈ groups then none else groups.flatten.mapM digit?

/-- A number of more digits is refused. -/
def maxStrDigits : Nat := 4300

def nat? (text : List Char) : Option Nat :=
  (digits? text).bind fun ds =>
    if ds.length > maxStrDigits then none else some (ds.foldl (fun n d => 10 * n + d) 0)

/-- `int` skips less white space than `strip`. -/
def isIntSpace (c : Char) : Bool := isSpace c ∧ ¬(28 ≤ c.toNat ∧ c.toNat ≤ 31)

def int? (text : String) : Option Int :=
  match trimBy isIntSpace text.toList with
  | '-' :: ds => (nat? ds).map fun n => -(n : Int)
  | '+' :: ds => (nat? ds).map fun n => (n : Int)
  | ds => (nat? ds).map fun n => (n : Int)

/-- `str` of a number; it refuses as many digits. -/
def repr? (n : Nat) : Option String := if n.repr.length > maxStrDigits then none else some n.repr

/-! ## Written numbers -/

section

variable {c : Char}

theorem digit?_of_isDigit (h : c.isDigit) : digit? c = some (c.toNat - '0'.toNat) := by
  have hc : 0x30 ≤ c.toNat ∧ c.toNat < 0x30 + 10 := by
    simp only [Char.isDigit, Bool.and_eq_true, decide_eq_true_eq, UInt32.le_iff_toNat_le] at h
    exact ⟨h.1, Nat.lt_succ_of_le h.2⟩
  rw [digit?, digitZeros, List.find?_cons_of_pos (by simpa using hc)]
  rfl

theorem isSpace_of_isDigit (h : c.isDigit) : isSpace c = false := by
  have hc : 0x30 ≤ c.toNat ∧ c.toNat ≤ 0x39 := by
    simp only [Char.isDigit, Bool.and_eq_true, decide_eq_true_eq, UInt32.le_iff_toNat_le] at h
    exact h
  simp only [isSpace, List.mem_cons, List.not_mem_nil, or_false, decide_eq_false_iff_not]
  omega

end

theorem mapM_eq_some {α β : Type} {f : α → Option β} {g : α → β} {l : List α}
    (h : ∀ a ∈ l, f a = some (g a)) : l.mapM f = some (l.map g) := by
  induction l with
  | nil => rfl
  | cons a l ih =>
    rw [List.mapM_cons, h a (List.mem_cons_self ..), ih fun b hb => h b (List.mem_cons_of_mem _ hb)]
    rfl

theorem mapM_ite {α β : Type} {q : α → Prop} [DecidablePred q] {g : α → β} (l : List α) :
    (l.mapM fun a => if q a then some (g a) else none) =
      if ∀ a ∈ l, q a then some (l.map g) else none := by
  induction l with
  | nil => simp
  | cons a l ih =>
    rw [List.mapM_cons, ih]
    by_cases ha : q a
    · by_cases hl : ∀ b ∈ l, q b
      · rw [if_pos ha, if_pos hl, if_pos (List.forall_mem_cons.2 ⟨ha, hl⟩)]
        rfl
      · rw [if_pos ha, if_neg hl, if_neg fun h => hl (List.forall_mem_cons.1 h).2]
        rfl
    · rw [if_neg ha, if_neg fun h => ha (List.forall_mem_cons.1 h).1]
      rfl

theorem of_mem_mapM {α β : Type} {f : α → Option β} {l : List α} {l' : List β} {b : β}
    (h : l.mapM f = some l') (hb : b ∈ l') : ∃ a ∈ l, f a = some b := by
  induction l generalizing l' with
  | nil =>
    obtain rfl : [] = l' := Option.some.inj h
    exact absurd hb List.not_mem_nil
  | cons a l ih =>
    rw [List.mapM_cons] at h
    obtain ⟨c, hc, h⟩ := Option.bind_eq_some_iff.1 h
    obtain ⟨cs, hcs, h⟩ := Option.bind_eq_some_iff.1 h
    obtain rfl : c :: cs = l' := Option.some.inj h
    rcases List.mem_cons.1 hb with rfl | hb
    · exact ⟨a, List.mem_cons_self .., hc⟩
    · obtain ⟨a', ha', h'⟩ := ih hcs hb
      exact ⟨a', List.mem_cons_of_mem _ ha', h'⟩

/-- A number that is written in decimal digits is read back. -/
theorem nat?_toDigits {n : Nat} (hn : (Nat.toDigits 10 n).length ≤ maxStrDigits) :
    nat? (Nat.toDigits 10 n) = some n := by
  have hdigit : ∀ c ∈ Nat.toDigits 10 n, c.isDigit := fun c hc =>
    Nat.isDigit_of_mem_toDigits (by decide) (by decide) hc
  have hsplit : (Nat.toDigits 10 n).splitOn '_' = [Nat.toDigits 10 n] := by
    apply List.splitOn_eq_singleton
    intro hmem
    exact absurd (hdigit _ hmem) (by decide)
  have hne : [] ∉ [Nat.toDigits 10 n] := by
    rw [List.mem_singleton]
    exact (Nat.toDigits_ne_nil).symm
  have hds : digits? (Nat.toDigits 10 n) =
      some ((Nat.toDigits 10 n).map fun c => c.toNat - '0'.toNat) := by
    rw [digits?, hsplit]
    rw [if_neg hne, List.flatten_singleton]
    exact mapM_eq_some fun c hc => digit?_of_isDigit (hdigit c hc)
  have hvalue : ((Nat.toDigits 10 n).map fun c => c.toNat - '0'.toNat).foldl
      (fun n d => 10 * n + d) 0 = n := by
    rw [List.foldl_map, ← Nat.ofDigitChars_eq_foldl, Nat.ofDigitChars_ten_toDigits]
  rw [nat?, hds, Option.bind_some, List.length_map, if_neg (Nat.not_lt.2 hn), hvalue]

theorem int?_repr {n : Nat} (hn : (Nat.toDigits 10 n).length ≤ maxStrDigits) :
    int? n.repr = some (n : Int) := by
  have hdigit : ∀ c ∈ Nat.toDigits 10 n, c.isDigit := fun c hc =>
    Nat.isDigit_of_mem_toDigits (by decide) (by decide) hc
  have htrim : trimBy isIntSpace n.repr.toList = Nat.toDigits 10 n := by
    rw [Nat.repr_eq_ofList_toDigits, String.toList_ofList]
    apply trimBy_eq_self
    intro c hc
    simp [isIntSpace, isSpace_of_isDigit (hdigit c hc)]
  rw [int?, htrim]
  split
  · rename_i ds h
    exact absurd (hdigit '-' (by rw [h]; exact List.mem_cons_self ..)) (by decide)
  · rename_i ds h
    exact absurd (hdigit '+' (by rw [h]; exact List.mem_cons_self ..)) (by decide)
  · rw [nat?_toDigits hn]
    rfl

theorem repr?_eq (n : Nat) : repr? n = if n < 10 ^ maxStrDigits then some n.repr else none := by
  have hlen : n.repr.length ≤ maxStrDigits ↔ n < 10 ^ maxStrDigits :=
    Nat.length_repr_le_iff (by decide)
  rw [repr?]
  by_cases h : n < 10 ^ maxStrDigits
  · rw [if_pos h, if_neg (Nat.not_lt.2 (hlen.2 h))]
  · rw [if_neg h, if_pos (Nat.lt_of_not_le (mt hlen.1 h))]

/-! ## Bytes -/

/-- The value of a hexadecimal digit. -/
def hexDigit? (c : Char) : Option Nat :=
  let n := c.toNat
  if 48 ≤ n ∧ n ≤ 57 then some (n - 48)
  else if 65 ≤ n ∧ n ≤ 70 then some (n - 55)
  else if 97 ≤ n ∧ n ≤ 102 then some (n - 87)
  else none

/-- The white space that `bytes.fromhex` skips. -/
def isAsciiSpace (c : Char) : Bool := 9 ≤ c.toNat ∧ c.toNat ≤ 13 ∨ c.toNat = 32

/-- `bytes.fromhex`, `none` for a `ValueError`. -/
def fromHex? : List Char → Option Bytes
  | [] => some []
  | [c] => if isAsciiSpace c then some [] else none
  | c :: c' :: text =>
    if isAsciiSpace c then fromHex? (c' :: text)
    else do return byte (16 * (← hexDigit? c) + (← hexDigit? c')) :: (← fromHex? text)

theorem hexDigit?_digitChar {n : Nat} (h : n < 16) :
    hexDigit? (Nat.digitChar n) = some n ∧ isAsciiSpace (Nat.digitChar n) = false := by
  have hall : ∀ n < 16, hexDigit? (Nat.digitChar n) = some n ∧
      isAsciiSpace (Nat.digitChar n) = false := by decide
  exact hall n h

/-- The two digits of each byte are read back. -/
theorem fromHex?_digits (raw : Bytes) :
    fromHex? (raw.flatMap fun b => [Nat.digitChar (b.toNat / 16), Nat.digitChar (b.toNat % 16)]) =
      some raw := by
  induction raw with
  | nil => rfl
  | cons b raw ih =>
    have hlt := b.toNat_lt
    obtain ⟨hhigh, hspace⟩ := hexDigit?_digitChar (show b.toNat / 16 < 16 by omega)
    obtain ⟨hlow, -⟩ := hexDigit?_digitChar (show b.toNat % 16 < 16 by omega)
    rw [List.flatMap_cons, List.cons_append, List.cons_append, List.nil_append, fromHex?, ih, hhigh, hlow,
      if_neg (by simp [hspace])]
    simp only [Option.bind_eq_bind, Option.bind_some, Option.pure_def]
    rw [Nat.div_add_mod, byte_of_toNat]

/-- The byte order mark. -/
def bom : Char := Char.ofNat 0xFEFF

def encodeUtf8Sig (text : List Char) : ByteArray := (String.ofList (bom :: text)).toUTF8

/-- A byte order mark at the start is left out. -/
def decodeUtf8Sig (bytes : ByteArray) : Option (List Char) :=
  (String.fromUTF8? bytes).map fun s =>
    if s.toList.head? = some bom then s.toList.tail else s.toList

theorem decodeUtf8Sig_encodeUtf8Sig (text : List Char) :
    decodeUtf8Sig (encodeUtf8Sig text) = some text := by
  have hdecode : String.fromUTF8? (encodeUtf8Sig text) = some (String.ofList (bom :: text)) :=
    dif_pos (String.ofList (bom :: text)).isValidUTF8
  rw [decodeUtf8Sig, hdecode, Option.map_some, String.toList_ofList]
  rfl

end Lib
