import QccGui.Lib.Machine
import QccGui.Lib.Text
import Mathlib.Logic.Function.Basic

/-!
# The connection fields under a helper window

The Status Responder and the Remote Programming Tester answer on this machine. While one of them is
open the connection fields point at it, and what the fields held before comes back when it closes.

* `ConnectionBar`: the connection fields, what each helper window remembers of them, and the
  persisted settings.
* `onOpenClicked`, `onClosed`: the handlers, the same for both windows.
* `ConnectionBar.machine`: the events of the connection bar.
* `Tied`: which fields an open window has saved. `Stage`: where two windows are in their order.
* `restored_iff_in_order`: the fields and the settings come back whenever both windows are closed, if
  the window that was opened first is always the last to close; and only then.
-/

namespace QccGui

open Lib

/-- The value of a port field. -/
structure Port where
  val : Nat
  pos : 0 < val
  le : val ≤ 65535
  deriving DecidableEq

namespace Port

def portScanLimit : Nat := 200

/-- The port `offset` ports further on; the ports after 65535 start at 1024. -/
def candidate (preferred : Port) (offset : Fin (portScanLimit + 1)) : Port :=
  if h : preferred.val + offset.val ≤ 65535 then
    ⟨preferred.val + offset.val, Nat.add_pos_left preferred.pos _, h⟩
  else
    ⟨1024 + (preferred.val + offset.val - 65536), by omega, by
      have h₁ := preferred.le
      have h₂ : offset.val < 201 := offset.isLt
      omega⟩

/-- What a port field shows for a number. -/
def clamp (n : Int) : Port where
  val := (max 1 (min n 65535)).toNat
  pos := by omega
  le := by omega

/-- The first port from `preferred` on that `free` says can be bound. -/
def findAvailableUdpPort (preferred : Port) (free : Port → Bool) : Port :=
  (((List.finRange (portScanLimit + 1)).map preferred.candidate).find? free).getD preferred

end Port

/-! ## The connection bar -/

inductive Helper
  | responder
  | rpTester
  deriving DecidableEq, Repr

def Helper.other : Helper → Helper
  | responder => rpTester
  | rpTester => responder

namespace Helper

theorem other_ne (h : Helper) : h.other ≠ h := by cases h <;> decide

theorem eq_other {g h : Helper} (hne : g ≠ h) : g = h.other := by
  cases g <;> cases h <;> first | rfl | exact absurd rfl hne

@[simp] theorem other_other (h : Helper) : h.other.other = h := by cases h <;> rfl

end Helper

/-- The settings that outlive the program. -/
structure ConnectionSettings where
  localPort : Int
  qccIp : String
  qccPort : Int
  sourcePort : Int
  deriving DecidableEq

/-- What is remembered of the fields while a helper window overrides them. -/
structure Override where
  ipBefore : Option String := none
  ipOverridden : Bool := false
  portBefore : Option Port := none
  portOverridden : Bool := false

structure ConnectionBar where
  localPort : Port
  sourcePort : Port
  qccIp : String
  qccPort : Port
  worker : Bool := false
  shown : Helper → Bool := fun _ => false
  override : Helper → Override := fun _ => {}
  settings : ConnectionSettings

def localhost : String := "127.0.0.1"

namespace ConnectionBar

/-- The settings that the fields stand for. -/
def fields (s : ConnectionBar) : ConnectionSettings :=
  ⟨s.localPort.val, strip s.qccIp, s.qccPort.val, s.sourcePort.val⟩

/-- A field holds the address of a helper window. -/
def overridden (s : ConnectionBar) : Bool :=
  [Helper.responder, Helper.rpTester].any fun h =>
    (s.override h).ipOverridden || (s.override h).portOverridden

/-- A connection is given up when a field changes. The settings are persisted, but not those of a
helper window. -/
def onConnectionFieldChanged (s : ConnectionBar) : ConnectionBar :=
  let s := { s with worker := false }
  if s.overridden then s else { s with settings := s.fields }

/-- Fields tell of changes only. -/
def setQccIp (s : ConnectionBar) (text : String) : ConnectionBar :=
  if s.qccIp = text then s else { s with qccIp := text }.onConnectionFieldChanged

def setQccPort (s : ConnectionBar) (port : Port) : ConnectionBar :=
  if s.qccPort = port then s else { s with qccPort := port }.onConnectionFieldChanged

def setOverride (s : ConnectionBar) (h : Helper) (o : Override) : ConnectionBar :=
  { s with override := Function.update s.override h o }

/-! ## Helper windows -/

/-- The port field of an opening window. -/
def overridePort (s : ConnectionBar) (h : Helper) (free : Port → Bool) : ConnectionBar :=
  if (s.override h).portOverridden then s
  else
    (s.setOverride h
      { s.override h with portBefore := some s.qccPort, portOverridden := true }).setQccPort
        (s.qccPort.findAvailableUdpPort free)

/-- The address field of an opening window. -/
def overrideIp (s : ConnectionBar) (h : Helper) : ConnectionBar :=
  if (s.override h).ipOverridden then s
  else
    (s.setOverride h
      { s.override h with ipBefore := some s.qccIp, ipOverridden := true }).setQccIp localhost

/-- `_on_open_responder_clicked`, `_on_open_rp_tester_clicked`: without a connection the window makes
one. -/
def onOpenClicked (s : ConnectionBar) (h : Helper) (free : Port → Bool) : ConnectionBar :=
  { (s.overridePort h free).overrideIp h with
    worker := true, shown := Function.update s.shown h true }

def restoreIp (s : ConnectionBar) (h : Helper) : ConnectionBar :=
  if (s.override h).ipOverridden then
    (s.setOverride h { s.override h with ipOverridden := false }).setQccIp
      ((s.override h).ipBefore.getD "")
  else s

def restorePort (s : ConnectionBar) (h : Helper) : ConnectionBar :=
  if (s.override h).portOverridden then
    let s' := s.setOverride h { s.override h with portOverridden := false }
    match (s.override h).portBefore with
    | none => s'
    | some port => s'.setQccPort port
  else s

/-- `_on_responder_window_closed`, `_on_rp_tester_window_closed`. -/
def onClosed (s : ConnectionBar) (h : Helper) : ConnectionBar :=
  ({ s with shown := Function.update s.shown h false }.restoreIp h).restorePort h

/-! ## Events -/

inductive Event
  | openClicked (h : Helper) (free : Port → Bool)
  | closed (h : Helper)
  | connectClicked
  | workerStopped
  | localPortEdited (port : Port)
  | sourcePortEdited (port : Port)
  | qccIpEdited (text : String)
  | qccPortEdited (port : Port)

/-- The user edits a field. -/
def Event.IsEdit : Event → Prop
  | localPortEdited _ | sourcePortEdited _ | qccIpEdited _ | qccPortEdited _ => True
  | _ => False

def step (s : ConnectionBar) : Event → ConnectionBar
  | .openClicked h free => s.onOpenClicked h free
  | .closed h => s.onClosed h
  | .connectClicked => { s with worker := !s.worker }
  | .workerStopped => { s with worker := false }
  | .localPortEdited port =>
    if s.localPort = port then s else { s with localPort := port }.onConnectionFieldChanged
  | .sourcePortEdited port =>
    if s.sourcePort = port then s else { s with sourcePort := port }.onConnectionFieldChanged
  | .qccIpEdited text => s.setQccIp text
  | .qccPortEdited port => s.setQccPort port

def machine : Machine ConnectionBar Event := ⟨fun _ _ => True, step⟩

/-- The connection bar of a program that starts with the settings `c`. -/
def init (c : ConnectionSettings) : ConnectionBar where
  localPort := .clamp c.localPort
  sourcePort := .clamp c.sourcePort
  qccIp := c.qccIp
  qccPort := .clamp c.qccPort
  settings := c

/-! ## What the handlers do -/

variable {s s₀ : ConnectionBar} {h f : Helper}

/-- Neither helper window is open. -/
def AllClosed (s : ConnectionBar) : Prop := ∀ h, s.shown h = false

/-- What a window saved when it opened. -/
def saved (ip : String) (port : Port) : Override := ⟨some ip, true, some port, true⟩

/-- What is left of it when the window has closed. -/
def released (ip : String) (port : Port) : Override := ⟨some ip, false, some port, false⟩

/-- The windows that are open have saved the fields; the fields are not overridden for the others. -/
def Tied (s : ConnectionBar) : Prop :=
  ∀ h, (s.shown h = true → ∃ ip port, s.override h = saved ip port) ∧
    (s.shown h = false → (s.override h).ipOverridden = false ∧ (s.override h).portOverridden = false)

theorem Tied.flags (ht : s.Tied) (h : Helper) :
    (s.override h).ipOverridden = s.shown h ∧ (s.override h).portOverridden = s.shown h := by
  cases hs : s.shown h with
  | true =>
    obtain ⟨ip, port, ho⟩ := (ht h).1 hs
    rw [ho]
    exact ⟨rfl, rfl⟩
  | false => exact (ht h).2 hs

theorem overridden_of_ip (hf : (s.override h).ipOverridden = true) : s.overridden = true := by
  cases h <;> simp [overridden, hf]

theorem overridden_of_port (hf : (s.override h).portOverridden = true) : s.overridden = true := by
  cases h <;> simp [overridden, hf]

theorem overridden_eq_false (hf : ∀ h, (s.override h).ipOverridden = false ∧
    (s.override h).portOverridden = false) : s.overridden = false := by
  simp [overridden, hf]

/-- Nothing is persisted while a window is open. -/
theorem onConnectionFieldChanged_overridden (ho : s.overridden = true) :
    s.onConnectionFieldChanged = { s with worker := false } := by
  have ho' : ({ s with worker := false } : ConnectionBar).overridden = true := ho
  simp only [onConnectionFieldChanged, ho', if_true]

theorem setQccIp_overridden (ho : s.overridden = true) (text : String) :
    ∃ w, s.setQccIp text = { s with qccIp := text, worker := w } := by
  by_cases he : s.qccIp = text
  · subst he
    exact ⟨s.worker, if_pos rfl⟩
  · refine ⟨false, ?_⟩
    rw [setQccIp, if_neg he]
    exact onConnectionFieldChanged_overridden ho

theorem setQccPort_overridden (ho : s.overridden = true) (port : Port) :
    ∃ w, s.setQccPort port = { s with qccPort := port, worker := w } := by
  by_cases he : s.qccPort = port
  · subst he
    exact ⟨s.worker, if_pos rfl⟩
  · refine ⟨false, ?_⟩
    rw [setQccPort, if_neg he]
    exact onConnectionFieldChanged_overridden ho

/-- The last port to come back is persisted with the other fields, if it makes a difference. -/
theorem setQccPort_free (ho : s.overridden = false) (port : Port) :
    ∃ w, s.setQccPort port = { s with
      qccPort := port, worker := w,
      settings :=
        if s.qccPort = port then s.settings else { s.fields with qccPort := port.val } } := by
  by_cases he : s.qccPort = port
  · subst he
    refine ⟨s.worker, ?_⟩
    rw [setQccPort, if_pos rfl, if_pos rfl]
  · refine ⟨false, ?_⟩
    have ho' : ({ s with qccPort := port, worker := false } : ConnectionBar).overridden = false := ho
    rw [setQccPort, if_neg he, if_neg he, onConnectionFieldChanged]
    simp only [ho', Bool.false_eq_true, if_false]
    rfl

theorem overridePort_hidden (hf : (s.override h).portOverridden = false) (free : Port → Bool) :
    ∃ w, s.overridePort h free = { s with
      qccPort := s.qccPort.findAvailableUdpPort free, worker := w,
      override := Function.update s.override h
        { s.override h with portBefore := some s.qccPort, portOverridden := true } } := by
  have ho : (s.setOverride h { s.override h with
      portBefore := some s.qccPort, portOverridden := true }).overridden = true :=
    overridden_of_port (h := h) (by simp [setOverride])
  obtain ⟨w, hw⟩ := setQccPort_overridden ho (s.qccPort.findAvailableUdpPort free)
  refine ⟨w, ?_⟩
  rw [overridePort, hf, if_neg Bool.false_ne_true, hw]
  rfl

theorem overrideIp_hidden (hf : (s.override h).ipOverridden = false) :
    ∃ w, s.overrideIp h = { s with
      qccIp := localhost, worker := w,
      override := Function.update s.override h
        { s.override h with ipBefore := some s.qccIp, ipOverridden := true } } := by
  have ho : (s.setOverride h { s.override h with
      ipBefore := some s.qccIp, ipOverridden := true }).overridden = true :=
    overridden_of_ip (h := h) (by simp [setOverride])
  obtain ⟨w, hw⟩ := setQccIp_overridden ho localhost
  refine ⟨w, ?_⟩
  rw [overrideIp, hf, if_neg Bool.false_ne_true, hw]
  rfl

/-- A window that is open already is shown again. -/
theorem onOpenClicked_shown (ht : s.Tied) (hs : s.shown h = true) (free : Port → Bool) :
    s.onOpenClicked h free = { s with worker := true } := by
  have hip := (ht.flags h).1.trans hs
  have hport := (ht.flags h).2.trans hs
  simp only [onOpenClicked, overridePort, overrideIp, hip, hport, if_true]
  rw [← hs, Function.update_eq_self]

/-- A window that opens saves the fields and overrides them. -/
theorem onOpenClicked_hidden (ht : s.Tied) (hs : s.shown h = false) (free : Port → Bool) :
    s.onOpenClicked h free = { s with
      qccIp := localhost, qccPort := s.qccPort.findAvailableUdpPort free, worker := true,
      shown := Function.update s.shown h true,
      override := Function.update s.override h (saved s.qccIp s.qccPort) } := by
  obtain ⟨w, hw⟩ := overridePort_hidden ((ht.flags h).2.trans hs) free
  have hip : ((s.overridePort h free).override h).ipOverridden = false := by
    rw [hw]
    simpa using (ht.flags h).1.trans hs
  obtain ⟨w', hw'⟩ := overrideIp_hidden hip
  rw [onOpenClicked, hw', hw]
  simp [saved]

/-- Closing a window that is not open changes nothing. -/
theorem onClosed_hidden (ht : s.Tied) (hs : s.shown h = false) : s.onClosed h = s := by
  have hip := (ht.flags h).1.trans hs
  have hport := (ht.flags h).2.trans hs
  simp only [onClosed, restoreIp, restorePort, hip, hport, Bool.false_eq_true, if_false]
  rw [← hs, Function.update_eq_self]

/-- The address comes back while the port is still overridden, so it is not persisted. -/
theorem restoreIp_saved {ip : String} {port : Port} (hf : s.override h = saved ip port) :
    ∃ w, s.restoreIp h = { s with
      qccIp := ip, worker := w,
      override := Function.update s.override h ⟨some ip, false, some port, true⟩ } := by
  have ho : (s.setOverride h ⟨some ip, false, some port, true⟩).overridden = true :=
    overridden_of_port (h := h) (by simp [setOverride])
  obtain ⟨w, hw⟩ := setQccIp_overridden ho ip
  refine ⟨w, ?_⟩
  have hif : s.restoreIp h = (s.setOverride h ⟨some ip, false, some port, true⟩).setQccIp ip := by
    rw [restoreIp, hf]
    rfl
  rw [hif, hw]
  rfl

theorem restorePort_saved {ip : String} {port : Port}
    (hf : s.override h = ⟨some ip, false, some port, true⟩) :
    s.restorePort h = (s.setOverride h (released ip port)).setQccPort port := by
  rw [restorePort, hf]
  rfl

/-- A closing window releases the port when it has put back the address. -/
theorem onClosed_saved {ip : String} {port : Port} (hf : s.override h = saved ip port) :
    ∃ w, s.onClosed h = { s with
      qccIp := ip, worker := w, shown := Function.update s.shown h false,
      override := Function.update s.override h (released ip port) }.setQccPort port := by
  obtain ⟨w, hw⟩ :=
    restoreIp_saved (s := { s with shown := Function.update s.shown h false }) (h := h) hf
  refine ⟨w, ?_⟩
  rw [onClosed, hw, restorePort_saved (Function.update_self ..)]
  simp only [setOverride, Function.update_idem]

/-- A window that closes before the other puts back what it saved. -/
theorem onClosed_shown {ip : String} {port : Port} (hf : s.override h = saved ip port)
    (ho : (s.override h.other).ipOverridden = true) :
    ∃ w, s.onClosed h = { s with
      qccIp := ip, qccPort := port, worker := w,
      shown := Function.update s.shown h false,
      override := Function.update s.override h (released ip port) } := by
  obtain ⟨w, hw⟩ := onClosed_saved hf
  rw [hw]
  exact setQccPort_overridden
    (overridden_of_ip (h := h.other) (by simpa [Function.update_of_ne h.other_ne] using ho)) port

/-- The window that closes last persists what it puts back. -/
theorem onClosed_last {ip : String} {port : Port} (hf : s.override h = saved ip port)
    (ho : (s.override h.other).ipOverridden = false)
    (ho' : (s.override h.other).portOverridden = false) :
    ∃ w, s.onClosed h = { s with
      qccIp := ip, qccPort := port, worker := w,
      shown := Function.update s.shown h false,
      override := Function.update s.override h (released ip port),
      settings := if s.qccPort = port then s.settings
        else { s.fields with qccIp := strip ip, qccPort := port.val } } := by
  obtain ⟨w, hw⟩ := onClosed_saved hf
  rw [hw]
  refine setQccPort_free (overridden_eq_false fun g => ?_) port
  by_cases hg : g = h
  · simp [hg, released]
  · obtain rfl := Helper.eq_other hg
    simp only [Function.update_of_ne hg]
    exact ⟨ho, ho'⟩

@[simp] theorem onConnectionFieldChanged_shown : s.onConnectionFieldChanged.shown = s.shown := by
  simp only [onConnectionFieldChanged]
  split <;> rfl

@[simp] theorem onConnectionFieldChanged_override :
    s.onConnectionFieldChanged.override = s.override := by
  simp only [onConnectionFieldChanged]
  split <;> rfl

@[simp] theorem setQccPort_shown (port : Port) : (s.setQccPort port).shown = s.shown := by
  rw [setQccPort]
  split <;> simp

@[simp] theorem setQccPort_override (port : Port) :
    (s.setQccPort port).override = s.override := by
  rw [setQccPort]
  split <;> simp

/-- An edit of a field does not touch the windows. -/
theorem step_of_isEdit {e : Event} (he : e.IsEdit) :
    (s.step e).shown = s.shown ∧ (s.step e).override = s.override := by
  cases e with
  | localPortEdited port | sourcePortEdited port | qccIpEdited text =>
    simp only [step, setQccIp]
    split <;> simp
  | qccPortEdited port => exact ⟨setQccPort_shown port, setQccPort_override port⟩
  | openClicked h free | closed h | connectClicked | workerStopped => exact he.elim

theorem Tied.update {s' : ConnectionBar} {o : Override} {b : Bool} (ht : s.Tied)
    (hs : s'.shown = Function.update s.shown h b) (ho : s'.override = Function.update s.override h o)
    (hb : (b = true → ∃ ip port, o = saved ip port) ∧
      (b = false → o.ipOverridden = false ∧ o.portOverridden = false)) : s'.Tied := by
  intro g
  rw [hs, ho]
  by_cases hg : g = h
  · subst hg
    simpa using hb
  · simpa [Function.update_of_ne hg] using ht g

theorem tied_step (ht : s.Tied) (e : Event) : (s.step e).Tied := by
  by_cases he : e.IsEdit
  · obtain ⟨hs, ho⟩ := step_of_isEdit (s := s) he
    intro g
    rw [hs, ho]
    exact ht g
  cases e with
  | openClicked h free =>
    cases hs : s.shown h with
    | true =>
      rw [step, onOpenClicked_shown ht hs]
      exact ht
    | false =>
      rw [step, onOpenClicked_hidden ht hs]
      exact ht.update rfl rfl ⟨fun _ => ⟨_, _, rfl⟩, fun hb => absurd hb (by decide)⟩
  | closed h =>
    cases hs : s.shown h with
    | true =>
      obtain ⟨ip, port, hf⟩ := (ht h).1 hs
      obtain ⟨w, hw⟩ := onClosed_saved hf
      rw [step, hw]
      exact ht.update (setQccPort_shown port) (setQccPort_override port)
        ⟨fun hb => absurd hb (by decide), fun _ => ⟨rfl, rfl⟩⟩
    | false =>
      rw [step, onClosed_hidden ht hs]
      exact ht
  | connectClicked | workerStopped => exact ht
  | localPortEdited | sourcePortEdited | qccIpEdited | qccPortEdited => exact absurd trivial he

theorem tied_init (c : ConnectionSettings) : (init c).Tied :=
  fun _ => ⟨fun hs => Bool.noConfusion hs, fun _ => ⟨rfl, rfl⟩⟩

/-! ## The order of the windows -/

/-- The window that `e` opens while no other is open. -/
def openedFirst (x : ConnectionBar × Event) : Option Helper :=
  match x.2 with
  | .openClicked h _ => if x.1.shown h = false ∧ x.1.shown h.other = false then some h else none
  | _ => none

/-- The window that was opened first since both were closed. -/
def opener (tr : List (ConnectionBar × Event)) : Option Helper := (tr.filterMap openedFirst).getLast?

/-- The window that closes last is the one that was opened first, and what it persists is what the
settings were. -/
def ClosesInOrder (s₀ : ConnectionBar) (tr : List (ConnectionBar × Event)) (s : ConnectionBar)
    (e : Event) : Prop :=
  ∀ h, e = .closed h → s.shown h = true → s.shown h.other = false →
    opener tr = some h ∧ (s₀.settings = s₀.fields ∨ s.qccPort = s₀.qccPort)

/-- Where the windows are in their order, for the fields of `s₀`. -/
inductive Stage (s₀ s : ConnectionBar) : Option Helper → Prop
  | closed {o : Option Helper} (hs : s.AllClosed) (hip : s.qccIp = s₀.qccIp)
      (hport : s.qccPort = s₀.qccPort) : Stage s₀ s o
  /-- The first window is open, and the other one may be. -/
  | holding {f : Helper} (hs : s.shown f = true) (hf : s.override f = saved s₀.qccIp s₀.qccPort)
      (hip : s.qccIp = localhost)
      (ho : s.shown f.other = true → ∃ port, s.override f.other = saved localhost port) :
      Stage s₀ s (some f)
  /-- The first window has closed and the other one is still open. -/
  | waiting {f : Helper} (hs : s.shown f = false) (hs' : s.shown f.other = true)
      (hip : s.qccIp = s₀.qccIp) (hport : s.qccPort = s₀.qccPort)
      (ho : ∃ port, s.override f.other = saved localhost port) : Stage s₀ s (some f)

/-- The fields and settings that the windows leave alone. -/
structure Kept (s₀ s : ConnectionBar) : Prop where
  localPort : s.localPort = s₀.localPort
  sourcePort : s.sourcePort = s₀.sourcePort
  settings : s.settings = s₀.settings

theorem opener_snoc {tr : List (ConnectionBar × Event)} {x : ConnectionBar × Event} :
    opener (tr ++ [x]) = (openedFirst x).or (opener tr) := by
  rw [opener, filterMap_snoc]
  cases openedFirst x <;> simp [opener]

theorem Stage.worker {o : Option Helper} (hst : Stage s₀ s o) (w : Bool) :
    Stage s₀ { s with worker := w } o := by
  cases hst with
  | closed hs hip hport => exact .closed hs hip hport
  | holding hs hf hip ho => exact .holding hs hf hip ho
  | waiting hs hs' hip hport ho => exact .waiting hs hs' hip hport ho

theorem stage_open {o : Option Helper} (ht : s.Tied) (hst : Stage s₀ s o) (free : Port → Bool) :
    Stage s₀ (s.onOpenClicked h free) ((openedFirst (s, .openClicked h free)).or o) := by
  cases hs : s.shown h with
  | true =>
    have hn : openedFirst (s, .openClicked h free) = none := if_neg (by simp [hs])
    rw [onOpenClicked_shown ht hs, hn]
    exact hst.worker true
  | false =>
    rw [onOpenClicked_hidden ht hs]
    cases hst with
    | closed hc hip hport =>
      have hn : openedFirst (s, .openClicked h free) = some h := if_pos ⟨hs, hc _⟩
      rw [hn]
      refine .holding (Function.update_self ..) ?_ rfl fun ho => ?_
      · rw [← hip, ← hport]
        exact Function.update_self ..
      · simp [Function.update_of_ne h.other_ne, hc h.other] at ho
    | @holding f hf hsaved hip ho =>
      have hne : f ≠ h := by
        rintro rfl
        rw [hs] at hf
        exact Bool.noConfusion hf
      obtain rfl := Helper.eq_other hne
      have hn : openedFirst (s, .openClicked h free) = none := if_neg (by simp [hf])
      rw [hn]
      refine .holding ?_ ?_ rfl fun _ => ⟨s.qccPort, ?_⟩
      · exact (Function.update_of_ne hne ..).trans hf
      · exact (Function.update_of_ne hne ..).trans hsaved
      · rw [Helper.other_other, ← hip]
        exact Function.update_self ..
    | @waiting f hf ho hip hport hsaved =>
      have hne : f.other ≠ h := by
        rintro rfl
        rw [hs] at ho
        exact Bool.noConfusion ho
      obtain rfl : f = h := by
        rw [← Helper.other_other f, Helper.eq_other hne, Helper.other_other]
      have hn : openedFirst (s, .openClicked f free) = none := if_neg (by simp [ho])
      rw [hn]
      refine .holding (Function.update_self ..) ?_ rfl fun _ => ?_
      · rw [← hip, ← hport]
        exact Function.update_self ..
      · simp only [Function.update_of_ne hne]
        exact hsaved

theorem stage_close {o : Option Helper} (ht : s.Tied) (hst : Stage s₀ s o)
    (hs : s.shown h = true) (hlast : s.shown h.other = false → o = some h) :
    Stage s₀ (s.onClosed h) o := by
  cases hst with
  | closed hc => exact absurd hs (by simp [hc h])
  | @holding f hf hsaved hip ho =>
    by_cases hfh : h = f
    · subst hfh
      cases hs' : s.shown h.other with
      | true =>
        obtain ⟨w, hw⟩ := onClosed_shown hsaved ((ht.flags h.other).1.trans hs')
        rw [hw]
        refine .waiting (Function.update_self ..) ?_ rfl rfl ?_
        · exact (Function.update_of_ne h.other_ne ..).trans hs'
        · simp only [Function.update_of_ne h.other_ne]
          exact ho hs'
      | false =>
        obtain ⟨w, hw⟩ := onClosed_last hsaved ((ht h.other).2 hs').1 ((ht h.other).2 hs').2
        rw [hw]
        refine .closed (fun g => ?_) rfl rfl
        by_cases hg : g = h
        · simp [hg]
        · obtain rfl := Helper.eq_other hg
          exact (Function.update_of_ne hg ..).trans hs'
    · obtain rfl := Helper.eq_other hfh
      obtain ⟨port, hother⟩ := ho hs
      have hne := f.other_ne
      have hflag : (s.override f.other.other).ipOverridden = true := by
        rw [Helper.other_other, (ht.flags f).1, hf]
      obtain ⟨w, hw⟩ := onClosed_shown hother hflag
      rw [hw]
      refine .holding ?_ ?_ rfl fun hc => ?_
      · exact (Function.update_of_ne hne.symm ..).trans hf
      · exact (Function.update_of_ne hne.symm ..).trans hsaved
      · simp at hc
  | @waiting f hf ho hip hport hsaved =>
    have hfh : h ≠ f := by
      rintro rfl
      rw [hf] at hs
      exact Bool.noConfusion hs
    obtain rfl := Helper.eq_other hfh
    rw [Helper.other_other] at hlast
    exact absurd (Option.some.inj (hlast hf)) f.other_ne.symm

theorem kept_open (ht : s.Tied) (hk : Kept s₀ s) (free : Port → Bool) :
    Kept s₀ (s.onOpenClicked h free) := by
  cases hs : s.shown h with
  | true =>
    rw [onOpenClicked_shown ht hs]
    exact ⟨hk.localPort, hk.sourcePort, hk.settings⟩
  | false =>
    rw [onOpenClicked_hidden ht hs]
    exact ⟨hk.localPort, hk.sourcePort, hk.settings⟩

/-- A window that closes before the other persists nothing. -/
theorem kept_close_shown (ht : s.Tied) (hk : Kept s₀ s) (hs : s.shown h = true)
    (hs' : s.shown h.other = true) : Kept s₀ (s.onClosed h) := by
  obtain ⟨ip, port, hf⟩ := (ht h).1 hs
  obtain ⟨w, hw⟩ := onClosed_shown hf ((ht.flags h.other).1.trans hs')
  rw [hw]
  exact ⟨hk.localPort, hk.sourcePort, hk.settings⟩

/-- What the window that was opened first persists when it closes last. -/
theorem settings_close_last (ht : s.Tied) (hk : Kept s₀ s)
    (hf : s.override h = saved s₀.qccIp s₀.qccPort) (hs' : s.shown h.other = false) :
    (s.onClosed h).settings =
      (if s.qccPort = s₀.qccPort then s₀.settings else s₀.fields) ∧
    (s.onClosed h).localPort = s₀.localPort ∧ (s.onClosed h).sourcePort = s₀.sourcePort := by
  obtain ⟨w, hw⟩ := onClosed_last hf ((ht h.other).2 hs').1 ((ht h.other).2 hs').2
  rw [hw]
  simp only [fields, hk.localPort, hk.sourcePort, hk.settings]
  exact ⟨trivial, trivial, trivial⟩

/-- The first window is the only one left open. -/
theorem Stage.saved_of_last {o : Option Helper} (hst : Stage s₀ s o) (hs : s.shown h = true)
    (hs' : s.shown h.other = false) (ho : o = some h) :
    s.override h = saved s₀.qccIp s₀.qccPort := by
  cases hst with
  | closed hc => exact absurd hs (by simp [hc h])
  | holding hf hsaved =>
    obtain rfl := Option.some.inj ho
    exact hsaved
  | waiting hf =>
    obtain rfl := Option.some.inj ho
    exact absurd hs (by simp [hf])

/-- Windows that close in order put back the fields and leave the settings as they were. -/
theorem stage_step {tr : List (ConnectionBar × Event)} {e : Event} (ht : s.Tied)
    (hst : Stage s₀ s (opener tr)) (hk : Kept s₀ s) (he : ¬ e.IsEdit)
    (ho : ClosesInOrder s₀ tr s e) :
    Stage s₀ (s.step e) (opener (tr ++ [(s, e)])) ∧ Kept s₀ (s.step e) := by
  rw [opener_snoc]
  cases e with
  | openClicked h free => exact ⟨stage_open ht hst free, kept_open ht hk free⟩
  | closed h =>
    cases hs : s.shown h with
    | true =>
      refine ⟨stage_close ht hst hs fun hs' => (ho h rfl hs hs').1, ?_⟩
      cases hs' : s.shown h.other with
      | true => exact kept_close_shown ht hk hs hs'
      | false =>
        obtain ⟨hfirst, hclean⟩ := ho h rfl hs hs'
        obtain ⟨h₁, h₂, h₃⟩ :=
          settings_close_last ht hk (hst.saved_of_last hs hs' hfirst) hs'
        refine ⟨h₂, h₃, h₁.trans ?_⟩
        rcases hclean with hclean | hport
        · rw [← hclean, ite_self]
        · rw [if_pos hport]
    | false =>
      rw [step, onClosed_hidden ht hs]
      exact ⟨hst, hk⟩
  | connectClicked | workerStopped =>
    exact ⟨hst.worker _, hk.localPort, hk.sourcePort, hk.settings⟩
  | localPortEdited | sourcePortEdited | qccIpEdited | qccPortEdited => exact absurd trivial he

/-- The fields and the settings of `s₀` are back. -/
def Restored (s₀ s : ConnectionBar) : Prop :=
  s.qccIp = s₀.qccIp ∧ s.qccPort = s₀.qccPort ∧ s.settings = s₀.settings

theorem Stage.restored {o : Option Helper} (hst : Stage s₀ s o) (hk : Kept s₀ s)
    (hs : s.AllClosed) : Restored s₀ s := by
  cases hst with
  | closed _ hip hport => exact ⟨hip, hport, hk.settings⟩
  | holding hf => exact absurd hf (by simp [hs _])
  | waiting _ hf => exact absurd hf (by simp [hs _])

/-- A last window that closes out of order does not put back the fields and the settings. -/
theorem closesInOrder_of_restored {tr : List (ConnectionBar × Event)} {e : Event} (ht : s.Tied)
    (hst : Stage s₀ s (opener tr)) (hk : Kept s₀ s) (hip : s₀.qccIp ≠ localhost)
    (hr : (s.step e).AllClosed → Restored s₀ (s.step e)) : ClosesInOrder s₀ tr s e := by
  rintro h rfl hs hs'
  have hclosed : (s.onClosed h).AllClosed := by
    obtain ⟨ip, port, hf⟩ := (ht h).1 hs
    obtain ⟨w, hw⟩ := onClosed_last hf ((ht h.other).2 hs').1 ((ht h.other).2 hs').2
    rw [hw]
    intro g
    by_cases hg : g = h
    · simp [hg]
    · obtain rfl := Helper.eq_other hg
      exact (Function.update_of_ne hg ..).trans hs'
  obtain ⟨hrip, -, hrset⟩ := hr hclosed
  generalize ho : opener tr = o at hst
  cases hst with
  | closed hc => exact absurd hs (by simp [hc h])
  | @holding f hf hsaved =>
    have hfh : f = h := by
      by_contra hne
      rw [Helper.eq_other hne, hs'] at hf
      exact Bool.noConfusion hf
    subst hfh
    refine ⟨rfl, ?_⟩
    have hset := (settings_close_last ht hk hsaved hs').1
    by_cases hport : s.qccPort = s₀.qccPort
    · exact .inr hport
    · rw [if_neg hport] at hset
      exact .inl (hrset.symm.trans hset)
  | @waiting f hf _ _ _ hsaved =>
    have hfh : h ≠ f := by
      rintro rfl
      rw [hf] at hs
      exact Bool.noConfusion hs
    obtain rfl := Helper.eq_other hfh
    obtain ⟨port, hsaved⟩ := hsaved
    obtain ⟨w, hw⟩ := onClosed_last hsaved ((ht _).2 hs').1 ((ht _).2 hs').2
    have hlocal : (s.onClosed f.other).qccIp = localhost := by rw [hw]
    exact absurd (hrip.symm.trans hlocal) hip

/-- In a run without edits from a state with both windows closed, the fields and the settings are
back whenever both are closed again, if the window that was opened first always closes last; and
unless the address was that of the windows already, only then. -/
theorem restored_iff_in_order {c : ConnectionSettings} {tr₀ tr : List (ConnectionBar × Event)}
    (hr₀ : machine.Run (init c) tr₀ s₀) (hs₀ : s₀.AllClosed) (hr : machine.Run s₀ tr s)
    (he : Machine.Along (fun _ e => ¬ e.IsEdit) tr) :
    (Machine.AlongHistory (ClosesInOrder s₀) tr → s.AllClosed → Restored s₀ s) ∧
    (s₀.qccIp ≠ localhost →
      (∀ pre post s', tr = pre ++ post → machine.Run s₀ pre s' → s'.AllClosed → Restored s₀ s') →
      Machine.AlongHistory (ClosesInOrder s₀) tr) := by
  have ht₀ : s₀.Tied := hr₀.invariant' (tied_init c) fun _ e ht _ => tied_step ht e
  have hst₀ : Stage s₀ s₀ (opener []) := .closed hs₀ rfl rfl
  refine ⟨fun ho hs => ?_, fun hip hall => ?_⟩
  · have hinv : s.Tied ∧ Stage s₀ s (opener tr) ∧ Kept s₀ s :=
      hr.history' (P := fun tr s => s.Tied ∧ Stage s₀ s (opener tr) ∧ Kept s₀ s)
        ⟨ht₀, hst₀, ⟨rfl, rfl, rfl⟩⟩
        (fun tr s e _ h _ he ho => ⟨tied_step h.1 e, stage_step h.1 h.2.1 h.2.2 he ho⟩) he ho
    exact hinv.2.1.restored hinv.2.2 hs
  · have hinv : (s.Tied ∧ Stage s₀ s (opener tr) ∧ Kept s₀ s) ∧
        Machine.AlongHistory (ClosesInOrder s₀) tr := by
      induction hr with
      | nil => exact ⟨⟨ht₀, hst₀, ⟨rfl, rfl, rfl⟩⟩, Machine.alongHistory_nil⟩
      | @snoc tr s e hr _ ih =>
        simp only [Machine.along_append, Machine.along_cons] at he
        obtain ⟨⟨ht, hst, hk⟩, hord⟩ := ih he.1 fun pre post s' h =>
          hall pre (post ++ [(s, e)]) s' (by rw [h, List.append_assoc])
        have ho := closesInOrder_of_restored ht hst hk hip fun hs =>
          hall (tr ++ [(s, e)]) [] _ (by simp) (.snoc hr trivial) hs
        exact ⟨⟨tied_step ht e, stage_step ht hst hk he.2.1 ho⟩,
          Machine.alongHistory_snoc.mpr ⟨hord, ho⟩⟩
    exact hinv.2

/-- The settings of a first start. -/
def defaultSettings : ConnectionSettings := ⟨5010, "192.168.1.10", 5000, 5010⟩

theorem restored_iff_in_order_nested :
    let es : List Event := [.openClicked .responder fun _ => true,
      .openClicked .rpTester fun _ => true, .closed .rpTester, .closed .responder]
    Restored (init defaultSettings) (machine.exec (init defaultSettings) es) := by
  intro es
  have hr : machine.Run (init defaultSettings) (machine.trace (init defaultSettings) es) _ :=
    Machine.Allows.run ⟨trivial, trivial, trivial, trivial, trivial⟩
  have he : Machine.Along (fun _ e => ¬ e.IsEdit) (machine.trace (init defaultSettings) es) := by
    simp only [es, Machine.trace, Machine.along_cons, Machine.along_nil]
    exact ⟨id, id, id, id, trivial⟩
  refine (restored_iff_in_order .nil (fun _ => rfl) hr he).1 ?_ fun h => by cases h <;> rfl
  let x (n : Nat) (e : Event) := (machine.exec (init defaultSettings) (es.take n), e)
  change Machine.AlongHistory _ ([] ++ [x 0 es[0]] ++ [x 1 es[1]] ++ [x 2 es[2]] ++ [x 3 es[3]])
  simp only [Machine.alongHistory_snoc]
  refine ⟨⟨⟨⟨Machine.alongHistory_nil, ?_⟩, ?_⟩, ?_⟩, ?_⟩ <;> rintro h he' hs hs'
  · cases he'
  · cases he'
  · cases he'
    exact absurd hs' (by decide)
  · cases he'
    exact ⟨by decide, .inl rfl⟩

/-- The window that was opened first closes first, and the address of the windows stays. -/
theorem closed_out_of_order : ∃ tr s, machine.Run (init defaultSettings) tr s ∧
    Machine.Along (fun _ e => ¬ e.IsEdit) tr ∧ s.AllClosed ∧ ¬ Restored (init defaultSettings) s := by
  let es : List Event := [.openClicked .responder fun _ => true,
      .openClicked .rpTester fun _ => true, .closed .responder, .closed .rpTester]
  have hallow : machine.Allows (init defaultSettings) es :=
    ⟨trivial, trivial, trivial, trivial, trivial⟩
  refine ⟨_, _, hallow.run, ?_, ?_, ?_⟩
  · simp only [es, Machine.trace, Machine.along_cons, Machine.along_nil]
    exact ⟨id, id, id, id, trivial⟩
  · intro h
    cases h <;> rfl
  · rintro ⟨hip, -, -⟩
    exact absurd hip (by decide)

end ConnectionBar

end QccGui
