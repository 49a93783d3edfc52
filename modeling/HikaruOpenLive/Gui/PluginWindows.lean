import Mathlib.Data.Finset.Insert
import Mathlib.Data.Finset.Erase
import Mathlib.Data.Rat.Init
import HikaruOpenLive.Engine.PluginChains

/-! # The windows of external plugins

`PluginSettingsState` keeps what it knows of the open editors under the plugin's name: the thread of the
window, the channel to it, and whether it is still opening. Each window lives in a thread of its own,
which loads the plugin, shows the editor, runs its loop and says at the end that it is over; the
message has the plugin's name and is read at the next `pollUpdates`.

A thread is its position in `threads`. Which of them sent a notification, and whether a thread has
been sent a `close`, is history kept beside the state; no operation reads it.
-/
set_option autoImplicit false

namespace HikaruOpenLive.Gui

open Engine Foundations.Registry Foundations.ListEdits

inductive FeedbackOrigin where
  | editor
  | host
deriving DecidableEq

structure ParamFeedbackEvent where
  descriptorId : String
  changes : List (ℕ × ℚ)
  origin : FeedbackOrigin
deriving DecidableEq

inductive ScanMessage where
  | progress (file : String)
  | found (plugin : PluginDescriptor)
  | finished (found : ℕ) (errors : List String)

structure PluginClosedNotification where
  name : String
  error : Option String

inductive WrapperCommand where
  | setParam (id : ℕ) (value : ℚ)
  | close
  | raise
deriving DecidableEq

inductive LoopExit where
  | requested
  | userClosed
  | destroyed
  | connectionLost (e : String)

inductive WindowEvent where
  | idle
  | closeRequested
  | destroyed
  | connectionLost (e : String)

def WindowEvent.exit : WindowEvent → Option LoopExit
  | .idle => none
  | .closeRequested => some .userClosed
  | .destroyed => some .destroyed
  | .connectionLost e => some (.connectionLost e)

/-- The error that the end of the loop is reported with. -/
def LoopExit.error : LoopExit → Option String
  | .requested => none
  | .userClosed => none
  | .destroyed => some "La ventana del editor fue destruida por el sistema de ventanas."
  | .connectionLost e => some s!"Se perdió la conexión con el servidor X11: {e}"

/-! ## The thread of a window -/

/-- Where a window thread is: in `HikaruWrapper::open`, in the loop of the window, or over. -/
inductive WindowPhase where
  | loading
  | shown
  | ended
deriving DecidableEq

/-- `commands` are those sent and not yet read. -/
structure WindowThread where
  plugin : PluginDescriptor
  phase : WindowPhase
  commands : List WrapperCommand
  toldToClose : Bool

inductive ThreadEvent where
  | opened (result : Except String Unit)
  | turn (event : WindowEvent)

namespace WindowThread

/-- Nothing is queued for a thread that is over: its receiver is gone. -/
def send (cmd : WrapperCommand) (t : WindowThread) : WindowThread :=
  { t with
    commands := if t.phase = .ended then t.commands else t.commands ++ [cmd]
    toldToClose := t.toldToClose || cmd == .close }

/-- One turn of the loop: the commands are read first, then the events of the window. -/
def loopTurn (t : WindowThread) (event : WindowEvent) : Option LoopExit :=
  if .close ∈ t.commands then some .requested else event.exit

/-- What the thread does next, and the error it reports if this is its end. -/
def runPluginWindow (t : WindowThread) : ThreadEvent → WindowThread × Option (Option String)
  | .opened (.error message) =>
    if t.phase = .loading then ({ t with phase := .ended }, some (some message)) else (t, none)
  | .opened (.ok ()) =>
    if t.phase = .loading then ({ t with phase := .shown }, none) else (t, none)
  | .turn event =>
    if t.phase = .shown then
      match t.loopTurn event with
      | some exit => ({ t with phase := .ended, commands := [] }, some exit.error)
      | none => ({ t with commands := [] }, none)
    else (t, none)

@[simp] theorem plugin_send (cmd : WrapperCommand) (t : WindowThread) :
    (t.send cmd).plugin = t.plugin := rfl

@[simp] theorem phase_send (cmd : WrapperCommand) (t : WindowThread) :
    (t.send cmd).phase = t.phase := rfl

theorem toldToClose_send {cmd : WrapperCommand} (h : cmd ≠ .close) (t : WindowThread) :
    (t.send cmd).toldToClose = t.toldToClose := by
  have hcmd : (cmd == .close) = false := beq_eq_false_iff_ne.mpr h
  rw [send, hcmd, Bool.or_false]

/-- A thread keeps its plugin; it reports once, when it goes from alive to over. -/
theorem runPluginWindow_spec (t : WindowThread) (e : ThreadEvent) :
    (t.runPluginWindow e).1.plugin = t.plugin ∧
    (t.runPluginWindow e).1.toldToClose = t.toldToClose ∧
    ((t.runPluginWindow e).2 = none → ((t.runPluginWindow e).1.phase = .ended ↔ t.phase = .ended)) ∧
    (∀ error, (t.runPluginWindow e).2 = some error →
      t.phase ≠ .ended ∧ (t.runPluginWindow e).1.phase = .ended) := by
  obtain ⟨plugin, phase, commands, toldToClose⟩ := t
  cases e with
  | opened result => cases result <;> cases phase <;> simp [runPluginWindow]
  | turn event =>
    cases phase with
    | loading => simp [runPluginWindow]
    | ended => simp [runPluginWindow]
    | shown =>
      simp only [runPluginWindow, if_true]
      split <;> simp

/-- A shown editor has got there by having been opened. -/
theorem runPluginWindow_shown {t : WindowThread} {e : ThreadEvent}
    (h : (t.runPluginWindow e).1.phase = .shown) :
    t.phase = .shown ∨ t.phase = .loading ∧ e = .opened (.ok ()) := by
  obtain ⟨plugin, phase, commands, toldToClose⟩ := t
  cases e with
  | opened result => cases result <;> cases phase <;> simp_all [runPluginWindow]
  | turn event => cases phase <;> simp_all [runPluginWindow]

end WindowThread

/-! ## What the GUI knows of the windows -/

structure PluginSettingsState where
  statusMessage : String
  isScanning : Bool
  discoveredPlugins : List PluginDescriptor
  scanErrors : List String
  rx : List ScanMessage
  openPlugins : List (String × ℕ)
  /-- With each notification the thread that sent it. -/
  closeRx : List (ℕ × PluginClosedNotification)
  guiErrors : List (String × String)
  opening : Finset String
  cmdTx : List (String × ℕ)
  paramRx : List ParamFeedbackEvent
  pendingParamFeedback : List ParamFeedbackEvent

namespace PluginSettingsState

def default : PluginSettingsState where
  statusMessage := "Listo para escanear."
  isScanning := false
  discoveredPlugins := []
  scanErrors := []
  rx := []
  openPlugins := []
  closeRx := []
  guiErrors := []
  opening := ∅
  cmdTx := []
  paramRx := []
  pendingParamFeedback := []

def startScan (s : PluginSettingsState) : PluginSettingsState :=
  if s.isScanning then s
  else
    { s with
      isScanning := true
      discoveredPlugins := []
      scanErrors := []
      statusMessage := "Iniciando escaneo de plugins..." }

def receiveScan (s : PluginSettingsState) : ScanMessage → PluginSettingsState
  | .progress file => { s with statusMessage := s!"Escaneando: {file}" }
  | .found plugin =>
    if s.discoveredPlugins.any fun p => p.id == plugin.id then s
    else { s with discoveredPlugins := s.discoveredPlugins ++ [plugin] }
  | .finished found errors =>
    { s with
      isScanning := false
      scanErrors := errors
      statusMessage :=
        if found = 0 then "Escaneo finalizado. No se encontraron plugins."
        else s!"Escaneo finalizado. {found} plugins listos." }

def receiveClosed (s : PluginSettingsState) (notif : PluginClosedNotification) : PluginSettingsState :=
  { s with
    openPlugins := unregister s.openPlugins notif.name
    cmdTx := unregister s.cmdTx notif.name
    opening := s.opening.erase notif.name
    guiErrors :=
      match notif.error with
      | some message => register s.guiErrors notif.name message
      | none => s.guiErrors }

def receiveAllClosed (s : PluginSettingsState) : PluginSettingsState :=
  (s.closeRx.map Prod.snd).foldl receiveClosed { s with closeRx := [] }

def pollUpdates (s : PluginSettingsState) : PluginSettingsState :=
  let s := (s.rx.foldl receiveScan { s with rx := [] }).receiveAllClosed
  { s with pendingParamFeedback := s.pendingParamFeedback ++ s.paramRx, paramRx := [] }

def takeParamFeedback (s : PluginSettingsState) : List ParamFeedbackEvent × PluginSettingsState :=
  (s.pendingParamFeedback, { s with pendingParamFeedback := [] })

def isPluginOpen (s : PluginSettingsState) (name : String) : Bool :=
  (lookup s.openPlugins name).isSome

def isPluginOpening (s : PluginSettingsState) (name : String) : Bool :=
  decide (name ∈ s.opening)

end PluginSettingsState

/-! ## The GUI and its threads -/

structure PluginWindows where
  settings : PluginSettingsState
  threads : List WindowThread

inductive WindowStep where
  | openPlugin (plugin : PluginDescriptor)
  | closePlugin (name : String)
  | sendParam (name : String) (id : ℕ) (value : ℚ)
  | raiseOpenPlugins
  | thread (i : ℕ) (event : ThreadEvent)
  | feedback (event : ParamFeedbackEvent)
  | startScan
  | scanned (message : ScanMessage)
  | pollUpdates
  | takeParamFeedback

namespace PluginWindows

def start : PluginWindows := ⟨.default, []⟩

def send (w : PluginWindows) (i : ℕ) (cmd : WrapperCommand) : PluginWindows :=
  { w with threads := w.threads.modify i (WindowThread.send cmd) }

def openPlugin (w : PluginWindows) (plugin : PluginDescriptor) : PluginWindows :=
  if w.settings.isPluginOpen plugin.name || w.settings.isPluginOpening plugin.name then w
  else
    { settings :=
        { w.settings with
          guiErrors := unregister w.settings.guiErrors plugin.name
          opening := insert plugin.name w.settings.opening
          cmdTx := register w.settings.cmdTx plugin.name w.threads.length
          openPlugins := register w.settings.openPlugins plugin.name w.threads.length }
      threads :=
        w.threads ++ [{ plugin, phase := .loading, commands := [], toldToClose := false }] }

def sendParamToOpenPlugin (w : PluginWindows) (name : String) (id : ℕ) (value : ℚ) : PluginWindows :=
  match lookup w.settings.cmdTx name with
  | some i => w.send i (.setParam id value)
  | none => w

def raiseOpenPlugins (w : PluginWindows) : PluginWindows :=
  (w.settings.cmdTx.map Prod.snd).foldl (fun w i => w.send i .raise) w

def closePlugin (w : PluginWindows) (name : String) : PluginWindows :=
  let told := match lookup w.settings.cmdTx name with
    | some i => w.send i .close
    | none => w
  { told with
    settings :=
      { w.settings with
        cmdTx := unregister w.settings.cmdTx name
        opening := w.settings.opening.erase name
        openPlugins := unregister w.settings.openPlugins name } }

/-- A thread goes on, and sends its notification if it is over. -/
def runThread (w : PluginWindows) (i : ℕ) (event : ThreadEvent) : PluginWindows :=
  match w.threads[i]? with
  | none => w
  | some t =>
    { threads := w.threads.set i (t.runPluginWindow event).1
      settings :=
        match (t.runPluginWindow event).2 with
        | none => w.settings
        | some error =>
          { w.settings with
            closeRx := w.settings.closeRx ++ [(i, { name := t.plugin.name, error })] } }

def step (w : PluginWindows) : WindowStep → PluginWindows
  | .openPlugin plugin => w.openPlugin plugin
  | .closePlugin name => w.closePlugin name
  | .sendParam name id value => w.sendParamToOpenPlugin name id value
  | .raiseOpenPlugins => w.raiseOpenPlugins
  | .thread i event => w.runThread i event
  | .feedback event => { w with settings := { w.settings with paramRx := w.settings.paramRx ++ [event] } }
  | .startScan => { w with settings := w.settings.startScan }
  | .scanned message => { w with settings := { w.settings with rx := w.settings.rx ++ [message] } }
  | .pollUpdates => { w with settings := w.settings.pollUpdates }
  | .takeParamFeedback => { w with settings := w.settings.takeParamFeedback.2 }

end PluginWindows

end HikaruOpenLive.Gui
