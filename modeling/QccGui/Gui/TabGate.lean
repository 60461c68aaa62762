import QccGui.Gui.News
import QccGui.Gui.Lock

/-!
# The buttons of the Remote Programming tab

The tab keeps its own account of the gate and the session, fed by the signals of the controller
and by the window, and enables its buttons by it.

* `TabGate`: the attributes of the tab that `_apply_gate` reads, and its slots that set them.
* `Panel`, `Panel.machine`: the window with its tab. What the window does is what `Window.handle`
  does; the operator reaches its sessions only through enabled buttons.
* `Output.news?`, `tabNews`: the outputs of the window that the tab's account depends on.
-/

namespace QccGui

open Lib

/-! ## The tab -/

/-- The buttons that start or end a session. -/
inductive Button
  | step1
  | step2
  | linkCheck
  | lru
  | qtrmHighSpeed
  | modeBack
  | auth
  | verify
  | program
  | upload
  | cancel
  deriving DecidableEq, Repr

structure TabGate where
  image : Bytes := []
  imageIsGolden : Bool := false
  gateOpen : Bool := false
  step1Done : Bool := false
  sessionActive : Bool := false
  /-- Program was sent: locks everything but the return to high speed. -/
  programmed : Bool := false
  /-- The IAP operation that runs, whose button says "Stop". -/
  activeIapOp : Option Op := none
  deriving DecidableEq, Repr

namespace TabGate

open Controller (Polls)

def opsOk (t : TabGate) : Bool := t.gateOpen && !t.sessionActive

/-- `_apply_gate`: which buttons are enabled. -/
def enabled (t : TabGate) : Button → Bool
  | .linkCheck | .lru | .qtrmHighSpeed => t.opsOk && !t.programmed
  | .modeBack => t.opsOk
  | .auth => (t.opsOk && !t.programmed) || t.activeIapOp == some .authenticate
  | .verify => (t.opsOk && !t.programmed) || t.activeIapOp == some .verify
  | .program => (t.opsOk && !t.programmed) || t.activeIapOp == some .program
  | .upload => t.opsOk && !t.programmed && !t.image.isEmpty
  | .cancel => t.sessionActive
  | .step1 | .step2 => !t.sessionActive && !t.programmed

def targetEnabled (t : TabGate) : Bool := !t.sessionActive && !t.step1Done

def onGateChanged (t : TabGate) (gateOpen : Bool) : TabGate :=
  if gateOpen then { t with gateOpen } else { t with gateOpen, step1Done := false, programmed := false }

def markSessionStarted (t : TabGate) (op : Op) : TabGate :=
  { t with
    sessionActive := true
    activeIapOp := if Polls op then some op else t.activeIapOp
    programmed := t.programmed || op = .program }

def onSessionFinished (t : TabGate) (op : Option Op) (ok : Bool) : TabGate :=
  { t with
    sessionActive := false
    step1Done := t.step1Done || (op = some .modeStep1 && ok)
    programmed := t.programmed && !(op = some .modeBack && ok)
    activeIapOp := if op.any (Polls ·) then none else t.activeIapOp }

def receive (t : TabGate) : News → TabGate
  | .gate gateOpen => t.onGateChanged gateOpen
  | .finished op ok => t.onSessionFinished op ok
  | .refused op => t.onSessionFinished (some op) false

end TabGate

/-- What an output of the window tells the tab: a start that the controller refuses is a session
that has failed. -/
def Output.news? : Output → Option News
  | .session s => s.news?
  | .couldNotStart op => some (.refused op)
  | _ => none

def tabNews (out : List Output) : List News := out.filterMap Output.news?

/-! ## The window with its tab -/

structure Panel where
  window : Window
  tab : TabGate := {}
  /-- The question before an upload or a Program is on the screen. -/
  question : Option Controller.Start := none

namespace Panel

inductive Event
  /-- An event that does not come from the tab. -/
  | window (e : Window.Event)
  | click (b : Button)
  | answer (yes : Bool)
  | targetChanged (target : Target)
  | imageToggled (golden : Bool)
  | fileChosen (raw : Bytes)
  | iapTimeoutChanged (seconds : Nat)

/-- The window handles an event, and its tab gets the news. -/
def pass (p : Panel) (e : Window.Event) : Panel :=
  let window := p.window.handle e
  { p with window, tab := (tabNews window.out).foldl TabGate.receive p.tab }

/-- The tab marks the session as started before the controller is asked. -/
def start (p : Panel) (what : Controller.Start) : Panel :=
  let tab := if p.window.worker ∧ p.window.awaiting = none then p.tab.markSessionStarted what.op
    else p.tab
  { p with tab }.pass (.rpStart what)

/-- The button of an IAP operation ends it while it runs. -/
def startOrStop (p : Panel) (what : Controller.Start) : Panel :=
  if p.tab.activeIapOp = some what.op then p.pass .rpCancel else p.start what

def ask (p : Panel) (what : Controller.Start) : Panel := { p with question := some what }

def click (p : Panel) : Button → Panel
  | .step1 => p.start .modeStep1
  | .step2 => p.start .modeStep2
  | .linkCheck => p.start .linkCheck
  | .lru => p.start .lruInfo
  | .qtrmHighSpeed => p.start .qtrmHighSpeed
  | .modeBack => p.start .modeBack
  | .auth => p.startOrStop (.authenticate p.tab.imageIsGolden)
  | .verify => p.startOrStop (.verify p.tab.imageIsGolden)
  | .program =>
    if p.tab.activeIapOp = some .program then p.pass .rpCancel
    else p.ask (.program p.tab.imageIsGolden)
  | .upload => if p.tab.image.isEmpty then p else p.ask (.upload p.tab.image p.tab.imageIsGolden)
  | .cancel => p.pass .rpCancel

/-- The question is answered. -/
def answer (p : Panel) (yes : Bool) : Panel :=
  match p.question with
  | none => p
  | some what =>
    let p := { p with question := none }
    if yes then p.start what else p

def react (p : Panel) : Event → Panel
  | .window e => p.pass e
  | .click b => p.click b
  | .answer yes => p.answer yes
  | .targetChanged target => p.pass (.rpTargetQtrmChanged target)
  | .imageToggled golden => { p with tab := { p.tab with imageIsGolden := golden } }
  | .fileChosen raw => if raw.isEmpty then p else { p with tab := { p.tab with image := raw } }
  | .iapTimeoutChanged seconds => p.pass (.rpIapTimeoutChanged seconds)

/-- The outputs of the event before are taken away. -/
def handle (p : Panel) (e : Event) : Panel := { p with window := p.window.cleared }.react e

/-- The events of the window that the tab causes. -/
def FromTab : Window.Event → Prop
  | .rpStart _ | .rpCancel | .rpTargetQtrmChanged _ | .rpIapTimeoutChanged _ => True
  | _ => False

/-- No modal question keeps the operator from the tab. -/
def Free (p : Panel) : Prop := p.window.asking = false ∧ p.question = none

/-- The operator can click what is enabled. A question of the tab keeps the operator from the window
as the one before a burn test does. -/
def machine : Machine Panel Event where
  enabled p e := match e with
    | .window e => Window.machine.enabled p.window e ∧ ¬ FromTab e ∧
      (p.question ≠ none → Window.machine.enabled { p.window with asking := true } e)
    | .click b => p.Free ∧ p.tab.enabled b = true
    | .answer _ => p.question ≠ none
    | .targetChanged _ => p.Free ∧ p.tab.targetEnabled = true
    | .imageToggled _ | .fileChosen _ | .iapTimeoutChanged _ => p.Free
  step := handle

/-- The window and the tab as their `__init__` leaves them. -/
def init (rc : RcSettings) : Panel := { window := Window.init rc }

abbrev Step := Panel × Event

end Panel

end QccGui
