import QccGui.Gui.Headers
import QccGui.Gui.LogRow
import QccGui.Lib.Json
import QccGui.Lib.Machine

/-!
# The header settings and their file

The settings of the headers as the operator edits them, loads them from a JSON file that may say
anything, and sends them.

* `StoredSettings`: the settings with the operator's names of the reserved bytes.
* `QccHeaderRx.create`, `tryToBytes`: a header from numbers of any size, and its packing, which raises
  an error if a field does not fit.
* `loadDict`, `toDict`, `buildHeader`: the operations; what they raise, they raise midway.
* `InBounds`: the invariant, and `ok_of_run`: it holds in every run.
* `headers_from_settings`: what the headers of a run say.
-/

namespace QccGui

open Lib

/-! ## Headers from any numbers -/

/-- The arguments of the constructor. -/
structure HeaderArgs where
  destinationId : Int := 0
  sourceId : Int := 0
  echoByte : Int := 0
  qccCommand : Int := 0
  messageNumber : Int := 0
  date : Int := 0
  month : Int := 0
  year : Int := 0
  timeOfDay : Int := 0
  messageBody : Bytes := []
  reserved0 : Bytes := []
  packetSize : Int := totalPacketSize

inductive PackError
  | structError
  | assertionError
  deriving DecidableEq, Repr

/-- The bytes `bs` in a field of `n` zeros. -/
def fieldOf (n : Nat) (bs : Bytes) : Bytes :=
  if bs = [] then zeros n else setFront (zeros n) bs.length (bs.take n)

theorem fieldOf_eq (n : Nat) (bs : Bytes) : fieldOf n bs = ljust n bs := by
  rw [fieldOf]
  split
  · rename_i h
    simp [h, ljust]
  · exact setFront_zeros n bs

namespace QccHeaderRx

def create (a : HeaderArgs) : QccHeaderRx where
  destinationId := lowBits 8 a.destinationId
  sourceId := lowBits 8 a.sourceId
  packetSize := lowBits 16 a.packetSize
  echoByte := lowBits 8 a.echoByte
  commandAck := 0
  messageNumber := lowBits 32 a.messageNumber
  date := lowBits 8 a.date
  month := lowBits 8 a.month
  year := lowBits 16 a.year
  timeOfDay := lowBits 32 a.timeOfDay
  reserved0 := fieldOf 14 a.reserved0
  qccCommand := lowBits 8 a.qccCommand
  messageBody := fieldOf 56 a.messageBody

/-- `struct.pack` refuses a number that does not fit its field. -/
def structPack (h : QccHeaderRx) : Except PackError Bytes :=
  if (∀ v ∈ [h.destinationId, h.sourceId, h.echoByte, h.commandAck, h.date, h.month, h.qccCommand],
      v < 2 ^ 8) ∧
    (∀ v ∈ [h.packetSize, h.year], v < 2 ^ 16) ∧ (∀ v ∈ [h.messageNumber, h.timeOfDay], v < 2 ^ 32)
  then .ok h.bodyBytes
  else .error .structError

/-- `to_bytes` with the errors that it may raise. -/
def tryToBytes (h : QccHeaderRx) : Except PackError Bytes := do
  let body ← h.structPack
  if body.length ≠ headerSize - 1 then
    throw .assertionError
  return body ++ [crc8 body]

theorem tryToBytes_eq {h : QccHeaderRx} (hr : h.InRange) : h.tryToBytes = .ok h.toBytes := by
  have hlen : h.bodyBytes.length = headerSize - 1 := by simp [bodyBytes, headerSize]
  rw [tryToBytes, structPack, if_pos ⟨hr.bytes, hr.words, hr.doubles⟩]
  simp only [bind, Except.bind, if_neg (not_not.2 hlen)]
  rfl

/-- The constructor masks every number and fills every field. -/
theorem inRange_create (a : HeaderArgs) : (create a).InRange := by
  have h8 := lowBits_lt 8
  have h16 := lowBits_lt 16
  have h32 := lowBits_lt 32
  refine ⟨?_, ?_, ?_, ?_, ?_⟩
  · simp only [create, List.forall_mem_cons, h8]
    simp
  · simp only [create, List.forall_mem_cons, h16]
    simp
  · simp only [create, List.forall_mem_cons, h32]
    simp
  · exact (congrArg List.length (fieldOf_eq 14 a.reserved0)).trans (ljust_length ..)
  · exact (congrArg List.length (fieldOf_eq 56 a.messageBody)).trans (ljust_length ..)

end QccHeaderRx

/-! ## The settings -/

/-- A date and a time of day. -/
structure DateTime where
  day : Nat
  month : Nat
  year : Nat
  hour : Nat
  minute : Nat
  second : Nat
  inRange : day ≤ 31 ∧ month ≤ 12 ∧ year ≤ 9999 ∧ hour < 24 ∧ minute < 60 ∧ second < 60 := by decide

def DateTime.secondOfDay (t : DateTime) : Nat := t.hour * 3600 + t.minute * 60 + t.second

/-- A date and a time of day fit their fields. -/
theorem DateTime.fits (t : DateTime) :
    t.day < 2 ^ 8 ∧ t.month < 2 ^ 8 ∧ t.year < 2 ^ 16 ∧ t.secondOfDay < 2 ^ 32 := by
  obtain ⟨hday, hmonth, hyear, hhour, hminute, hsecond⟩ := t.inRange
  unfold secondOfDay
  omega

/-- The settings with the operator's names of the reserved bytes. -/
structure StoredSettings extends RcSettings where
  reservedNames : List Json

inductive LoadError
  | typeError
  | valueError
  deriving DecidableEq, Repr

namespace StoredSettings

/-- The object as `__init__` leaves it. -/
def init (now : DateTime) : StoredSettings where
  date := now.day
  month := now.month
  year := now.year
  timeOfDay := now.secondOfDay
  reservedNames := (List.range 14).map fun i => .str ("RESERVED_" ++ (19 + i).repr)

/-! ## Sending -/

def nextMessageNumber : EStateM PackError StoredSettings Nat := do
  modify fun s => { s with messageNumber := s.messageNumber + 1 }
  return (← get).messageNumber

def buildHeader (commandId : Int) (messageBody : Bytes) (packetSize : Option Int) :
    EStateM PackError StoredSettings Bytes := do
  let messageNumber ← nextMessageNumber
  let s ← get
  let h := QccHeaderRx.create
    { destinationId := s.destinationId, sourceId := s.sourceId, qccCommand := commandId
      messageNumber := messageNumber, date := s.date, month := s.month, year := s.year
      timeOfDay := s.timeOfDay, reserved0 := s.reserved0, messageBody := messageBody }
  let h := match packetSize with
    | none => h
    | some n => { h with packetSize := lowBits 16 n }
  match h.tryToBytes with
  | .ok raw => return raw
  | .error e => throw e

/-! ## Saving and loading -/

def toDict (s : StoredSettings) : Dict String Json :=
  [("destination_id", .int s.destinationId), ("source_id", .int s.sourceId), ("date", .int s.date),
    ("month", .int s.month), ("year", .int s.year), ("time_of_day", .int s.timeOfDay),
    ("reserved0", .str (hexText s.reserved0)), ("reserved_names", .list s.reservedNames)]

/-- A number is masked; without an entry the one that is there. -/
def loadNumber (d : Dict String Json) (key : String) (bits : Nat) (field : StoredSettings → Nat)
    (setField : StoredSettings → Nat → StoredSettings) : EStateM LoadError StoredSettings Unit := do
  let s ← get
  match ((d.get? key).getD (.int (field s))).int? with
  | some n => set (setField s (lowBits bits n))
  | none => throw .typeError

def loadReserved (d : Dict String Json) : EStateM LoadError StoredSettings Unit := do
  let reservedHex := (d.get? "reserved0").getD .null
  if reservedHex.truth then
    match reservedHex with
    | .str text =>
      match fromHex? text.toList with
      | some raw => modify fun s => { s with reserved0 := (raw ++ zeros 14).take 14 }
      | none => throw .valueError
    | _ => throw .typeError

def loadNames (d : Dict String Json) : EStateM LoadError StoredSettings Unit := do
  let names := (d.get? "reserved_names").getD .null
  if names.truth then
    match names.items? with
    | some items => modify fun s => { s with reservedNames := (items ++ s.reservedNames).take 14 }
    | none => throw .typeError

def loadDict (d : Dict String Json) : EStateM LoadError StoredSettings Unit := do
  loadNumber d "destination_id" 8 (·.destinationId) fun s n => { s with destinationId := n }
  loadNumber d "source_id" 8 (·.sourceId) fun s n => { s with sourceId := n }
  loadNumber d "date" 8 (·.date) fun s n => { s with date := n }
  loadNumber d "month" 8 (·.month) fun s n => { s with month := n }
  loadNumber d "year" 16 (·.year) fun s n => { s with year := n }
  loadNumber d "time_of_day" 32 (·.timeOfDay) fun s n => { s with timeOfDay := n }
  loadReserved d
  loadNames d

/-! ## Bounds -/

/-- Every field fits its place in a header, and every reserved byte has a name. -/
structure InBounds (s : StoredSettings) : Prop where
  destinationId : s.destinationId < 2 ^ 8
  sourceId : s.sourceId < 2 ^ 8
  date : s.date < 2 ^ 8
  month : s.month < 2 ^ 8
  year : s.year < 2 ^ 16
  timeOfDay : s.timeOfDay < 2 ^ 32
  reserved0 : s.reserved0.length = 14
  reservedNames : s.reservedNames.length = 14

/-- The state after an operation, whether or not it has raised an error. -/
def after {ε α : Type} (m : EStateM ε StoredSettings α) (s : StoredSettings) : StoredSettings :=
  match m.run s with
  | .ok _ s' => s'
  | .error _ s' => s'

/-- The operation keeps `I`, also when it raises an error midway. -/
def Keeps {ε α : Type} (I : StoredSettings → Prop) (m : EStateM ε StoredSettings α) : Prop :=
  ∀ s, I s → I (after m s)

section

variable {I : StoredSettings → Prop} {ε α β : Type} {d : Dict String Json}

theorem Keeps.bind {m : EStateM ε StoredSettings α} {k : α → EStateM ε StoredSettings β}
    (hm : Keeps I m) (hk : ∀ a, Keeps I (k a)) : Keeps I (m >>= k) := by
  intro s hs
  have hfirst := hm s hs
  unfold after at hfirst ⊢
  rw [EStateM.run_bind]
  cases hr : m.run s with
  | ok a s' =>
    rw [hr] at hfirst
    exact hk a s' hfirst
  | error e s' =>
    rw [hr] at hfirst
    exact hfirst

theorem Keeps.pure (a : α) : Keeps I (pure a : EStateM ε StoredSettings α) := fun _ hs => hs

theorem Keeps.throw (e : ε) : Keeps I (throw e : EStateM ε StoredSettings α) := fun _ hs => hs

theorem Keeps.modify {f : StoredSettings → StoredSettings} (hf : ∀ s, I s → I (f s)) :
    Keeps I (modify f : EStateM ε StoredSettings Unit) := hf

theorem loadNumber_run (d : Dict String Json) (key : String) (bits : Nat)
    (field : StoredSettings → Nat) (setField : StoredSettings → Nat → StoredSettings)
    (s : StoredSettings) : (loadNumber d key bits field setField).run s =
      match ((d.get? key).getD (.int (field s))).int? with
      | some n => .ok () (setField s (lowBits bits n))
      | none => .error .typeError s := by
  rw [loadNumber, EStateM.run_bind, EStateM.run_get]
  dsimp only
  cases ((d.get? key).getD (.int (field s))).int? <;> rfl

theorem keeps_loadNumber {key : String} {bits : Nat} {field : StoredSettings → Nat}
    {setField : StoredSettings → Nat → StoredSettings}
    (h : ∀ s n, n < 2 ^ bits → I s → I (setField s n)) :
    Keeps I (loadNumber d key bits field setField) := by
  intro s hs
  rw [after, loadNumber_run]
  cases ((d.get? key).getD (.int (field s))).int? with
  | none => exact hs
  | some n => exact h s _ (lowBits_lt bits n) hs

theorem keeps_loadReserved (h : ∀ s bs, bs.length = 14 → I s → I { s with reserved0 := bs }) :
    Keeps I (loadReserved d) := by
  unfold loadReserved
  dsimp only
  split
  · split
    · split
      · refine .modify fun s hs => h s _ ?_ hs
        rw [take_append_zeros, ljust_length]
      · exact .throw _
    · exact .throw _
  · exact .pure _

theorem keeps_loadNames (h : ∀ s items, I s → I { s with
    reservedNames := (items ++ s.reservedNames).take 14 }) : Keeps I (loadNames d) := by
  unfold loadNames
  dsimp only
  split
  · split
    · exact .modify fun s hs => h s _ hs
    · exact .throw _
  · exact .pure _

end

/-- A load keeps the bounds and the message counter, whatever the file says. -/
theorem keeps_loadDict (d : Dict String Json) (n : Nat) :
    Keeps (fun s => s.InBounds ∧ s.messageNumber = n) (loadDict d) := by
  refine .bind (keeps_loadNumber fun s v hv hs => ⟨{ hs.1 with destinationId := hv }, hs.2⟩) fun _ => ?_
  refine .bind (keeps_loadNumber fun s v hv hs => ⟨{ hs.1 with sourceId := hv }, hs.2⟩) fun _ => ?_
  refine .bind (keeps_loadNumber fun s v hv hs => ⟨{ hs.1 with date := hv }, hs.2⟩) fun _ => ?_
  refine .bind (keeps_loadNumber fun s v hv hs => ⟨{ hs.1 with month := hv }, hs.2⟩) fun _ => ?_
  refine .bind (keeps_loadNumber fun s v hv hs => ⟨{ hs.1 with year := hv }, hs.2⟩) fun _ => ?_
  refine .bind (keeps_loadNumber fun s v hv hs => ⟨{ hs.1 with timeOfDay := hv }, hs.2⟩) fun _ => ?_
  refine .bind (keeps_loadReserved fun s bs hbs hs => ⟨{ hs.1 with reserved0 := hbs }, hs.2⟩) fun _ => ?_
  refine keeps_loadNames fun s items hs => ⟨{ hs.1 with reservedNames := ?_ }, hs.2⟩
  have hlen := hs.1.reservedNames
  show ((items ++ s.reservedNames).take 14).length = 14
  rw [List.length_take, List.length_append]
  omega

theorem inBounds_init (now : DateTime) : (init now).InBounds := by
  obtain ⟨hday, hmonth, hyear, htime⟩ := now.fits
  refine ⟨?_, ?_, hday, hmonth, hyear, htime, rfl, rfl⟩
  · show 1 < 2 ^ 8
    decide
  · show 2 < 2 ^ 8
    decide

/-! ## What a load does -/

/-- The number that an entry says, or the one that is there. -/
def numberOf (d : Dict String Json) (key : String) (n : Nat) : Int :=
  (((d.get? key).getD (.int n)).int?).getD n

def reservedOf (d : Dict String Json) (old : Bytes) : Bytes :=
  match d.get? "reserved0" with
  | some (.str text) => if text = "" then old else ljust 14 ((fromHex? text.toList).getD [])
  | _ => old

def namesOf (d : Dict String Json) (old : List Json) : List Json :=
  match d.get? "reserved_names" with
  | some (.list items) => (items ++ old).take 14
  | _ => old

/-- The settings after a load that raises no error. -/
def loaded (d : Dict String Json) (s : StoredSettings) : StoredSettings where
  destinationId := lowBits 8 (numberOf d "destination_id" s.destinationId)
  sourceId := lowBits 8 (numberOf d "source_id" s.sourceId)
  date := lowBits 8 (numberOf d "date" s.date)
  month := lowBits 8 (numberOf d "month" s.month)
  year := lowBits 16 (numberOf d "year" s.year)
  timeOfDay := lowBits 32 (numberOf d "time_of_day" s.timeOfDay)
  reserved0 := reservedOf d s.reserved0
  reservedNames := namesOf d s.reservedNames
  messageNumber := s.messageNumber

/-- The entries that are there are whole numbers, hexadecimal digits, and a list of names. -/
structure Loadable (d : Dict String Json) : Prop where
  numbers : ∀ key ∈ ["destination_id", "source_id", "date", "month", "year", "time_of_day"],
    ∀ v, d.get? key = some v → ∃ n, v = .int n
  reserved0 : ∀ v, d.get? "reserved0" = some v →
    ∃ text, v = .str text ∧ (fromHex? text.toList).isSome
  reservedNames : ∀ v, d.get? "reserved_names" = some v → ∃ items, v = .list items

section

variable {d : Dict String Json} {s : StoredSettings}

theorem loadNumber_ok {key : String} {bits : Nat} {field : StoredSettings → Nat}
    {setField : StoredSettings → Nat → StoredSettings}
    (h : ∀ v, d.get? key = some v → ∃ n, v = .int n) :
    (loadNumber d key bits field setField).run s =
      .ok () (setField s (lowBits bits (numberOf d key (field s)))) := by
  rw [loadNumber_run, numberOf]
  cases hv : d.get? key with
  | none => rfl
  | some v =>
    obtain ⟨n, rfl⟩ := h v hv
    rfl

theorem loadReserved_ok (h : ∀ v, d.get? "reserved0" = some v →
    ∃ text, v = .str text ∧ (fromHex? text.toList).isSome) :
    (loadReserved d).run s = .ok () { s with reserved0 := reservedOf d s.reserved0 } := by
  unfold loadReserved reservedOf
  cases hv : d.get? "reserved0" with
  | none => rfl
  | some v =>
    obtain ⟨text, rfl, hhex⟩ := h v hv
    obtain ⟨raw, hraw⟩ := Option.isSome_iff_exists.1 hhex
    by_cases ht : text = ""
    · subst ht
      rfl
    · have htruth : (Json.str text).truth = true := by simp [Json.truth, ht]
      simp only [Option.getD_some, if_pos htruth, if_neg ht, hraw, take_append_zeros]
      rfl

theorem loadNames_ok (h : ∀ v, d.get? "reserved_names" = some v → ∃ items, v = .list items)
    (hlen : s.reservedNames.length = 14) :
    (loadNames d).run s = .ok () { s with reservedNames := namesOf d s.reservedNames } := by
  unfold loadNames namesOf
  cases hv : d.get? "reserved_names" with
  | none => rfl
  | some v =>
    obtain ⟨items, rfl⟩ := h v hv
    cases items with
    | nil =>
      have htake : ([] ++ s.reservedNames).take 14 = s.reservedNames := List.take_of_length_le hlen.le
      dsimp only
      rw [htake]
      rfl
    | cons item items => rfl

theorem run_bind_ok {ε α β : Type} {m : EStateM ε StoredSettings α}
    {k : α → EStateM ε StoredSettings β} {a : α} {s' : StoredSettings} (h : m.run s = .ok a s') :
    (m >>= k).run s = (k a).run s' := by
  rw [EStateM.run_bind, h]

theorem loadDict_run (h : Loadable d) (hs : s.InBounds) :
    (loadDict d).run s = .ok () (loaded d s) := by
  refine (run_bind_ok (loadNumber_ok (h.numbers "destination_id" (by decide)))).trans ?_
  refine (run_bind_ok (loadNumber_ok (h.numbers "source_id" (by decide)))).trans ?_
  refine (run_bind_ok (loadNumber_ok (h.numbers "date" (by decide)))).trans ?_
  refine (run_bind_ok (loadNumber_ok (h.numbers "month" (by decide)))).trans ?_
  refine (run_bind_ok (loadNumber_ok (h.numbers "year" (by decide)))).trans ?_
  refine (run_bind_ok (loadNumber_ok (h.numbers "time_of_day" (by decide)))).trans ?_
  refine (run_bind_ok (loadReserved_ok h.reserved0)).trans ?_
  exact loadNames_ok h.reservedNames hs.reservedNames

/-- The entries that were saved. -/
theorem get?_toDict (s : StoredSettings) :
    s.toDict.get? "destination_id" = some (.int s.destinationId) ∧
      s.toDict.get? "source_id" = some (.int s.sourceId) ∧
      s.toDict.get? "date" = some (.int s.date) ∧ s.toDict.get? "month" = some (.int s.month) ∧
      s.toDict.get? "year" = some (.int s.year) ∧
      s.toDict.get? "time_of_day" = some (.int s.timeOfDay) ∧
      s.toDict.get? "reserved0" = some (.str (hexText s.reserved0)) ∧
      s.toDict.get? "reserved_names" = some (.list s.reservedNames) := by
  simp [toDict, Dict.get?]

theorem fromHex?_hexText (raw : Bytes) : fromHex? (hexText raw).toList = some raw := by
  rw [hexText, String.toList_ofList, fromHex?_digits]

theorem loadable_toDict (s : StoredSettings) : Loadable s.toDict := by
  obtain ⟨h₁, h₂, h₃, h₄, h₅, h₆, h₇, h₈⟩ := get?_toDict s
  refine ⟨?_, fun v hv => ?_, fun v hv => ?_⟩
  · simp only [List.forall_mem_cons, h₁, h₂, h₃, h₄, h₅, h₆, Option.some.injEq, forall_eq']
    simp
  · rw [h₇] at hv
    obtain rfl := Option.some.inj hv
    exact ⟨_, rfl, by rw [fromHex?_hexText]; rfl⟩
  · rw [h₈] at hv
    obtain rfl := Option.some.inj hv
    exact ⟨_, rfl⟩

/-- Saved settings are loaded as they are. -/
theorem loaded_toDict (hs : s.InBounds) : loaded s.toDict s = s := by
  obtain ⟨h₁, h₂, h₃, h₄, h₅, h₆, h₇, h₈⟩ := get?_toDict s
  have hnumber : ∀ key n, s.toDict.get? key = some (.int (n : Nat)) → numberOf s.toDict key n = n := by
    intro key n h
    rw [numberOf, h]
    rfl
  have hhex : hexText s.reserved0 ≠ "" := by
    intro h
    have hread := fromHex?_hexText s.reserved0
    rw [h] at hread
    have hnil : [] = s.reserved0 := Option.some.inj hread
    have hlen := hs.reserved0
    rw [← hnil] at hlen
    cases hlen
  have hreserved : reservedOf s.toDict s.reserved0 = s.reserved0 := by
    simp only [reservedOf, h₇, if_neg hhex, fromHex?_hexText, Option.getD_some, ljust_self hs.reserved0]
  have hnames : namesOf s.toDict s.reservedNames = s.reservedNames := by
    simp only [namesOf, h₈]
    exact List.take_left' hs.reservedNames
  rw [loaded, hnumber _ _ h₁, hnumber _ _ h₂, hnumber _ _ h₃, hnumber _ _ h₄, hnumber _ _ h₅,
    hnumber _ _ h₆, hreserved, hnames]
  simp only [lowBits_natCast, Nat.mod_eq_of_lt, hs.destinationId, hs.sourceId, hs.date, hs.month,
    hs.year, hs.timeOfDay]

end

/-! ## Headers -/

/-- The size that a header states. -/
def statedSize : Option Int → Nat
  | none => totalPacketSize
  | some n => lowBits 16 n

theorem statedSize_lt (packetSize : Option Int) : statedSize packetSize < 2 ^ 16 := by
  cases packetSize with
  | none => decide
  | some n => exact lowBits_lt 16 n

/-- No header raises an error; it is that of the sessions, with the counter counted up. -/
theorem buildHeader_run (s : StoredSettings) (commandId : Int) (messageBody : Bytes)
    (packetSize : Option Int) :
    (buildHeader commandId messageBody packetSize).run s =
      .ok (s.toRcSettings.buildHeader (lowBits 8 commandId) messageBody (statedSize packetSize)).1
        { s with messageNumber := s.messageNumber + 1 } := by
  let a : HeaderArgs :=
    { destinationId := s.destinationId, sourceId := s.sourceId, qccCommand := commandId
      messageNumber := (s.messageNumber + 1 : Nat), date := s.date, month := s.month, year := s.year
      timeOfDay := s.timeOfDay, reserved0 := s.reserved0, messageBody := messageBody }
  let h : QccHeaderRx := match packetSize with
    | none => .create a
    | some n => { QccHeaderRx.create a with packetSize := lowBits 16 n }
  have hsize : h = { QccHeaderRx.create a with packetSize := statedSize packetSize } := by
    cases packetSize <;> rfl
  have hr : h.InRange := by
    have hc := QccHeaderRx.inRange_create a
    rw [hsize]
    refine ⟨hc.bytes, ?_, hc.doubles, hc.reserved0, hc.messageBody⟩
    have hyear := hc.words _ (List.mem_cons_of_mem _ (List.mem_cons_self ..))
    simp only [List.forall_mem_cons]
    exact ⟨statedSize_lt packetSize, hyear, fun _ h => absurd h List.not_mem_nil⟩
  have hbytes : h.toBytes =
      (s.toRcSettings.buildHeader (lowBits 8 commandId) messageBody (statedSize packetSize)).1 := by
    have hstated : statedSize packetSize % 65536 = statedSize packetSize :=
      Nat.mod_eq_of_lt (statedSize_lt packetSize)
    have hcommand : lowBits 8 commandId % 256 = lowBits 8 commandId :=
      Nat.mod_eq_of_lt (lowBits_lt 8 commandId)
    rw [hsize, RcSettings.buildHeader]
    simp only [a, QccHeaderRx.create, fieldOf_eq, lowBits_natCast, hstated, hcommand]
    rfl
  have hrun : (buildHeader commandId messageBody packetSize).run s =
      (match h.tryToBytes with
        | .ok raw => Pure.pure raw
        | .error e => throw e : EStateM PackError StoredSettings Bytes).run
        { s with messageNumber := s.messageNumber + 1 } := rfl
  rw [hrun, QccHeaderRx.tryToBytes_eq hr, hbytes]
  rfl

/-- What is read of a header. -/
theorem fromBytes_buildHeader {s : StoredSettings} (hs : s.InBounds) {command size : Nat}
    (hcommand : command < 2 ^ 8) (hsize : size < 2 ^ 16) (messageBody : Bytes) :
    QccHeaderRx.fromBytes (s.toRcSettings.buildHeader command messageBody size).1 =
      .ok ({ destinationId := s.destinationId, sourceId := s.sourceId, packetSize := size
             messageNumber := (s.messageNumber + 1) % 2 ^ 32, date := s.date, month := s.month
             year := s.year, timeOfDay := s.timeOfDay, reserved0 := s.reserved0
             qccCommand := command, messageBody := ljust 56 messageBody }, true) := by
  let h : QccHeaderRx :=
    { destinationId := s.destinationId, sourceId := s.sourceId, packetSize := size
      messageNumber := (s.messageNumber + 1) % 2 ^ 32, date := s.date, month := s.month
      year := s.year, timeOfDay := s.timeOfDay, reserved0 := s.reserved0
      qccCommand := command, messageBody := ljust 56 messageBody }
  have hnumber : (s.messageNumber + 1) % 2 ^ 32 < 2 ^ 32 := Nat.mod_lt _ (by decide)
  have hr : h.InRange := by
    refine ⟨?_, ?_, ?_, hs.reserved0, ljust_length ..⟩
    · simp only [h, List.forall_mem_cons, hs.destinationId, hs.sourceId, hs.date, hs.month, hcommand]
      simp
    · simp only [h, List.forall_mem_cons, hs.year, hsize]
      simp
    · simp only [h, List.forall_mem_cons, hs.timeOfDay, hnumber]
      simp
  have hbytes : (s.toRcSettings.buildHeader command messageBody size).1 = h.toBytes := by
    have hid := hs.destinationId
    have hsource := hs.sourceId
    have hdate := hs.date
    have hmonth := hs.month
    have hyear := hs.year
    have htime := hs.timeOfDay
    rw [RcSettings.buildHeader]
    simp (disch := omega) only [h, Nat.mod_eq_of_lt, ljust_self hs.reserved0]
  rw [hbytes]
  exact QccHeaderRx.fromBytes_toBytes hr

/-! ## Runs -/

/-- The operator edits the fields, a file is loaded, or a command is sent. -/
inductive Event
  | edit (destinationId sourceId : UInt8) (time : DateTime) (reserved : Fin 14 → UInt8)
      (names : Fin 14 → String)
  | loadDict (d : Dict String Json)
  | buildHeader (commandId : Int) (messageBody : Bytes) (packetSize : Option Int)

def edited (s : StoredSettings) (destinationId sourceId : UInt8) (time : DateTime)
    (reserved : Fin 14 → UInt8) (names : Fin 14 → String) : StoredSettings where
  destinationId := destinationId.toNat
  sourceId := sourceId.toNat
  date := time.day
  month := time.month
  year := time.year
  timeOfDay := time.secondOfDay
  reserved0 := List.ofFn reserved
  reservedNames := List.ofFn fun i => .str (names i)
  messageNumber := s.messageNumber

def step (s : StoredSettings) : Event → StoredSettings
  | .edit destinationId sourceId time reserved names =>
    s.edited destinationId sourceId time reserved names
  | .loadDict d => after (loadDict d) s
  | .buildHeader commandId messageBody packetSize =>
    after (buildHeader commandId messageBody packetSize) s

def machine : Machine StoredSettings Event where
  enabled _ _ := True
  step := step

/-- The header that a step returns. -/
def built (x : StoredSettings × Event) : Option Bytes :=
  match x.2 with
  | .buildHeader commandId messageBody packetSize =>
    match (buildHeader commandId messageBody packetSize).run x.1 with
    | .ok raw _ => some raw
    | .error _ _ => none
  | _ => none

/-- The message number of the last header, zero before the first. -/
def lastNumber (tr : List (StoredSettings × Event)) : Nat :=
  ((tr.filterMap built).getLast?.map messageNumber).getD 0

theorem inBounds_edited (s : StoredSettings) (destinationId sourceId : UInt8) (time : DateTime)
    (reserved : Fin 14 → UInt8) (names : Fin 14 → String) :
    (s.edited destinationId sourceId time reserved names).InBounds := by
  obtain ⟨hday, hmonth, hyear, htime⟩ := time.fits
  exact ⟨destinationId.toNat_lt, sourceId.toNat_lt, hday, hmonth, hyear, htime, List.length_ofFn,
    List.length_ofFn⟩

theorem lastNumber_snoc (tr : List (StoredSettings × Event)) (x : StoredSettings × Event) :
    lastNumber (tr ++ [x]) = ((built x).map messageNumber).getD (lastNumber tr) := by
  rw [lastNumber, filterMap_snoc]
  cases built x with
  | none =>
    rw [Option.toList_none, List.append_nil]
    rfl
  | some raw =>
    rw [Option.toList_some, List.getLast?_append, List.getLast?_singleton]
    rfl

theorem built_buildHeader (s : StoredSettings) (commandId : Int) (messageBody : Bytes)
    (packetSize : Option Int) : built (s, .buildHeader commandId messageBody packetSize) =
      some (s.toRcSettings.buildHeader (lowBits 8 commandId) messageBody (statedSize packetSize)).1 := by
  simp only [built, buildHeader_run]

/-- In every run the settings are in bounds, and the counter is at the last header's number. -/
theorem ok_of_run {now : DateTime} {tr : List (StoredSettings × Event)} {s : StoredSettings}
    (hr : machine.Run (init now) tr s) : s.InBounds ∧ s.messageNumber % 2 ^ 32 = lastNumber tr := by
  refine hr.history (C := fun _ _ => True)
    (P := fun tr s => s.InBounds ∧ s.messageNumber % 2 ^ 32 = lastNumber tr)
    ⟨inBounds_init now, rfl⟩ ?_ fun _ _ => trivial
  rintro tr s e - ⟨hs, hn⟩ - -
  rw [lastNumber_snoc]
  cases e with
  | edit destinationId sourceId time reserved names =>
    exact ⟨s.inBounds_edited destinationId sourceId time reserved names, hn⟩
  | loadDict d =>
    obtain ⟨hbounds, hcounter⟩ := keeps_loadDict d s.messageNumber s ⟨hs, rfl⟩
    exact ⟨hbounds, (congrArg (· % 2 ^ 32) hcounter).trans hn⟩
  | buildHeader commandId messageBody packetSize =>
    have hafter : machine.step s (.buildHeader commandId messageBody packetSize) =
        { s with messageNumber := s.messageNumber + 1 } := by
      show after (buildHeader commandId messageBody packetSize) s = _
      rw [after, buildHeader_run]
    have hnumber := s.toRcSettings.messageNumber_buildHeader (lowBits 8 commandId) messageBody
      (statedSize packetSize) []
    rw [List.append_nil] at hnumber
    rw [hafter, built_buildHeader, Option.map_some, Option.getD_some, hnumber]
    exact ⟨{ hs with }, rfl⟩

/-- In every run: a load of a file with numbers and hexadecimal digits raises no error and takes them
over, cut down to their fields; no header raises an error, whatever it is built from, and what is read
of it is the settings and the number after that of the header before; and saved settings are loaded
as they are. -/
theorem headers_from_settings {now : DateTime} {tr : List (StoredSettings × Event)}
    {s : StoredSettings} (hr : machine.Run (init now) tr s) :
    (∀ d, Loadable d → (loadDict d).run s = .ok () (loaded d s)) ∧
      (∀ commandId messageBody packetSize, ∃ raw,
        (buildHeader commandId messageBody packetSize).run s =
          .ok raw { s with messageNumber := s.messageNumber + 1 } ∧
        raw.length = headerSize ∧
        QccHeaderRx.fromBytes raw =
          .ok ({ destinationId := s.destinationId, sourceId := s.sourceId
                 packetSize := statedSize packetSize
                 messageNumber := (lastNumber tr + 1) % 2 ^ 32, date := s.date, month := s.month
                 year := s.year, timeOfDay := s.timeOfDay, reserved0 := s.reserved0
                 qccCommand := lowBits 8 commandId, messageBody := ljust 56 messageBody }, true)) ∧
      (loadDict s.toDict).run s = .ok () s := by
  obtain ⟨hs, hn⟩ := ok_of_run hr
  refine ⟨fun d hd => loadDict_run hd hs, fun commandId messageBody packetSize =>
    ⟨_, buildHeader_run s commandId messageBody packetSize, RcSettings.buildHeader_length .., ?_⟩, ?_⟩
  · have hnumber : (s.messageNumber + 1) % 2 ^ 32 = (lastNumber tr + 1) % 2 ^ 32 := by
      rw [← hn, Nat.mod_add_mod]
    rw [fromBytes_buildHeader hs (lowBits_lt 8 commandId) (statedSize_lt packetSize), hnumber]
  · rw [loadDict_run (loadable_toDict s) hs, loaded_toDict hs]

/-- After a file with a negative year and three reserved bytes, and a command with a body that is too
long. -/
theorem headers_from_settings_loaded :
    let now : DateTime :=
      { day := 5, month := 7, year := 2026, hour := 9, minute := 30, second := 0 }
    let d : Dict String Json := [("year", .int (-1)), ("reserved0", .str "0a0B 0c")]
    let tr := machine.trace (init now) [.loadDict d, .buildHeader 300 (zeros 60) (some 4196)]
    let s := machine.exec (init now) [.loadDict d, .buildHeader 300 (zeros 60) (some 4196)]
    (loadDict s.toDict).run s = .ok () s ∧
      ∃ raw, (buildHeader (-1) [7] none).run s =
          .ok raw { s with messageNumber := s.messageNumber + 1 } ∧
        raw.length = headerSize ∧
        QccHeaderRx.fromBytes raw =
          .ok ({ destinationId := s.destinationId, sourceId := s.sourceId
                 packetSize := statedSize none
                 messageNumber := (lastNumber tr + 1) % 2 ^ 32, date := s.date, month := s.month
                 year := s.year, timeOfDay := s.timeOfDay, reserved0 := s.reserved0
                 qccCommand := lowBits 8 (-1), messageBody := ljust 56 [7] }, true) := by
  intro now d tr s
  have hallow : machine.Allows (init now) [.loadDict d, .buildHeader 300 (zeros 60) (some 4196)] :=
    ⟨trivial, trivial, trivial⟩
  have hr : machine.Run (init now) tr s := hallow.run
  have h := headers_from_settings hr
  clear_value tr s
  exact ⟨h.2.2, h.2.1 (-1) [7] none⟩

end StoredSettings

end QccGui
