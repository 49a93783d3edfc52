import HikaruOpenLive.Foundations.Upsert
import HikaruOpenLive.PluginHost.ParamPoll

/-! # The parameters of the VST3 launcher

The plugin's controller holds normalized values. Its editor may tell the host what the user moves
(`performEdit`, between `beginEdit` and `endEdit`) or only move the value; a poll takes what was told
and then looks for differences.
-/
set_option autoImplicit false

namespace HikaruOpenLive.PluginHost

open Foundations.Upsert

structure Vst3Param where
  id : ℕ
  name : String
  unit : String
  default : ℚ
  stepCount : ℤ
  canAutomate : Bool
  isReadOnly : Bool
deriving DecidableEq

/-- What the plugin's editor has told the host since it was last asked. -/
structure ComponentHandlerState where
  changes : List (ℕ × ℚ)
  editing : Option ℕ
  gestureOpen : Bool
deriving DecidableEq

namespace ComponentHandlerState

def new : ComponentHandlerState :=
  { changes := [], editing := none, gestureOpen := false }

/-- The last edit of a parameter takes the place of an earlier one. -/
def performEdit (state : ComponentHandlerState) (id : ℕ) (value : ℚ) : ComponentHandlerState :=
  { state with changes := upsert Prod.fst (id, value) state.changes, editing := some id }

def beginEdit (state : ComponentHandlerState) (id : ℕ) : ComponentHandlerState :=
  { state with gestureOpen := true, editing := some id }

def endEdit (state : ComponentHandlerState) : ComponentHandlerState :=
  { state with gestureOpen := false, editing := none }

def takeChanges (state : ComponentHandlerState) : List (ℕ × ℚ) × ComponentHandlerState :=
  (state.changes, { state with changes := [] })

def editGesture (state : ComponentHandlerState) : Option ℕ :=
  if state.gestureOpen then state.editing else none

example : ((new.performEdit 3 (1 / 4)).performEdit 9 (3 / 4) |>.performEdit 3 (1 / 2)).changes =
    [(3, 1 / 2), (9, 3 / 4)] := rfl

end ComponentHandlerState

def controlRingCapacity : ℕ :=
  1024

/-- The launcher, with the controller's values and the ring of changes that the next block applies. -/
structure Vst3Instance where
  params : List Vst3Param
  value : ℕ → ℚ
  handler : ComponentHandlerState
  control : List (ℕ × ℚ)
  hostSent : ParamMap
  seen : ParamMap
  editing : Option ℕ

namespace Vst3Instance

/-- The values at load are the base of the first poll. -/
def load (params : List Vst3Param) (value : ℕ → ℚ) : Vst3Instance :=
  { params := params, value := value, handler := ComponentHandlerState.new, control := []
    hostSent := ParamMap.empty
    seen := params.foldl (fun seen p => seen.insert p.id (clampUnit (value p.id))) ParamMap.empty
    editing := none }

def paramInfo (inst : Vst3Instance) (index : ℕ) : Option PluginParamInfo :=
  (inst.params[index]?).map fun p =>
    { id := p.id, name := p.name, unit := p.unit, min := 0, max := 1
      defaultValue := clampUnit p.default, stepCount := p.stepCount
      canAutomate := p.canAutomate && !p.isReadOnly }

def readParamNormalized (inst : Vst3Instance) (id : ℕ) : Option ℚ :=
  some (clampUnit (inst.value id))

def setParamNormalized (inst : Vst3Instance) (id : ℕ) (value : ℚ) : Bool × Vst3Instance :=
  let value := clampUnit value
  let inst := { inst with hostSent := inst.hostSent.insert id value }
  if inst.control.length < controlRingCapacity then
    (true, { inst with control := inst.control ++ [(id, value)] })
  else (false, inst)

/-- The next block hands the queued changes to the controller, the oldest first. -/
def drainControl (inst : Vst3Instance) : Vst3Instance :=
  { inst with
    value := inst.control.foldl (fun value change => Function.update value change.1 change.2)
      inst.value
    control := [] }

def automatable (inst : Vst3Instance) : List ℕ :=
  (inst.params.filter fun p => p.canAutomate && !p.isReadOnly).map Vst3Param.id

/-- Which differences a poll takes for the user's: those not told already, of the parameter at hand or
else not an echo of the host. -/
def reports (inst : Vst3Instance) (id : ℕ) (previous current : ℚ) : Bool :=
  !near previous current && !(inst.handler.changes.map Prod.fst).contains id &&
    (inst.handler.editGesture == some id || !isEcho inst.hostSent id current)

def pollParamChanges (inst : Vst3Instance) : List (ℕ × ℚ) × Vst3Instance :=
  let (changes, handler) := inst.handler.takeChanges
  let changes := changes.map fun change => (change.1, clampUnit change.2)
  let poll := diffPoll inst.readParamNormalized inst.reports inst.automatable inst.seen
  (changes ++ poll.1,
    { inst with handler := handler, editing := handler.editGesture, seen := poll.2 })

end Vst3Instance

end HikaruOpenLive.PluginHost
