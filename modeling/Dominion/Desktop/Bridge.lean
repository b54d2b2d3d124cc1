import Dominion.Framework.Lts
import Mathlib.Data.List.Basic
import Mathlib.Logic.Function.Basic

/-! # The desktop bridge

The registry of the connections and the dispatches that are in flight.  Connections, dispatches and
abort signals are numbered; the streams, the timers and the signals are the environment's. -/
namespace Dominion.Desktop

open Dominion.Framework

inductive ToolResultStatus
  | unspecified
  | succeeded
  | failed
  deriving DecidableEq, Repr

/-- A screenshot with its data already encoded. -/
structure WireImagePart where
  data : String
  widthPx : Option Nat := none
  heightPx : Option Nat := none
  deriving DecidableEq, Repr

structure OperationScreenshot where
  data : String
  widthPx : Nat
  heightPx : Nat
  deriving DecidableEq, Repr

def toOperationScreenshot (source : WireImagePart) : OperationScreenshot :=
  ⟨source.data,source.widthPx.getD 0,source.heightPx.getD 0⟩

structure OperationResult where
  status : ToolResultStatus
  message : String
  screenshot : Option OperationScreenshot := none
  deriving DecidableEq, Repr

structure WireFlowResultPart where
  toolId : Option String := none
  status : Option ToolResultStatus := none
  message : Option String := none
  screenshot : Option WireImagePart := none
  deriving DecidableEq, Repr

/-- The operations of a part, by what they say. -/
structure WireFlowPart where
  mouseMove : Option String := none
  mouseClick : Option String := none
  keyboardPress : Option String := none
  mouseMoveAndClick : Option String := none
  flowResult : Option WireFlowResultPart := none
  deriving DecidableEq, Repr

def operationPart (part : WireFlowPart) : Option String :=
  part.mouseMove.or (part.mouseClick.or (part.keyboardPress.or part.mouseMoveAndClick))

/-- A dispatch in flight. -/
structure PendingDispatch where
  dispatch : Nat
  signal : Option Nat
  deriving DecidableEq, Repr

/-- What called the `resolve` of a dispatch. -/
inductive Cause
  | receipt (sessionName toolId : String)
  | aborted
  | timedOut
  | disconnected
  | writeFailed
  | refused
  deriving DecidableEq, Repr

/-- One call of a dispatch's `resolve`. -/
structure Settlement where
  dispatch : Nat
  cause : Cause
  result : OperationResult
  deriving DecidableEq, Repr

structure World where
  connections : String → Option Nat := fun _ => none
  /-- The dispatches in flight of a session, by their tool ids. -/
  pending : String → List (String × PendingDispatch) := fun _ => []
  /-- The connections whose heartbeat runs. -/
  heartbeats : List Nat := []
  /-- The dispatches whose timer runs. -/
  timers : List Nat := []
  /-- The abort listeners: a signal and a dispatch. -/
  listeners : List (Nat × Nat) := []
  aborted : Nat → Bool := fun _ => false
  settled : List Settlement := []
  /-- The session of each connection. -/
  attached : List String := []
  /-- The session of each dispatch. -/
  dispatched : List String := []

/-- What a call of the stream does: the events that it raises before it returns, by the connections
that listen, and the error that it throws. -/
structure StreamEffect where
  events : List Nat := []
  error : Option String := none
  deriving DecidableEq, Repr

inductive SendFrameReply
  | invalidArgument (message : String)
  | failedPrecondition (message : String)
  | ok
  deriving DecidableEq, Repr

namespace World

variable (mint : Nat → String) (w : World)

def find (sessionName toolId : String) : Option PendingDispatch :=
  ((w.pending sessionName).find? fun e => e.1 = toolId).map Prod.snd

/-- The entry, the timer and the listener of a dispatch go, and its promise is resolved. -/
def settle (sessionName toolId : String) (p : PendingDispatch) (cause : Cause)
    (result : OperationResult) : World :=
  { w with
    pending := Function.update w.pending sessionName
      ((w.pending sessionName).filter fun e => e.1 ≠ toolId)
    timers := w.timers.filter fun d => d ≠ p.dispatch
    listeners := w.listeners.filter fun l => l.2 ≠ p.dispatch
    settled := w.settled ++ [⟨p.dispatch,cause,result⟩] }

/-- A registration that is not that of the connection stays. -/
def disconnect (sessionName : String) (connection : Nat) : World :=
  if w.connections sessionName ≠ some connection then w
  else
    let w := { w with
      connections := Function.update w.connections sessionName none
      heartbeats := w.heartbeats.filter fun c => c ≠ connection }
    (w.pending sessionName).foldl (fun w e => w.settle sessionName e.1 e.2 .disconnected
      ⟨.failed,"desktop disconnected",none⟩) w

/-- An error, close or cancelled event at the listener of a connection. -/
def onDisconnect (connection : Nat) : World :=
  match w.attached[connection]? with
  | none => w
  | some sessionName => w.disconnect sessionName connection

/-- The events that a call of a stream raises; an error is only logged. -/
def streamCall (effect : StreamEffect) : World :=
  effect.events.foldl onDisconnect w

/-- The connection that is taken over ends before the new one is registered. -/
def takeOver (sessionName : String) (ending : StreamEffect) : World :=
  match w.connections sessionName with
  | none => w
  | some previous =>
    { w with
      connections := Function.update w.connections sessionName none
      heartbeats := w.heartbeats.filter fun c => c ≠ previous }.streamCall ending

def register (sessionName : String) : World :=
  { w with
    connections := Function.update w.connections sessionName (some w.attached.length)
    attached := w.attached ++ [sessionName] }

/-- The heartbeat starts after the confirmation frame. -/
def attach (sessionName : String) (ending confirming : StreamEffect) : World :=
  let w := w.takeOver sessionName ending
  let connection := w.attached.length
  let w := (w.register sessionName).streamCall confirming
  { w with heartbeats := w.heartbeats ++ [connection] }

/-- A dispatch that is refused is resolved at once. -/
def refuse (sessionName : String) (message : String) : World :=
  { w with
    dispatched := w.dispatched ++ [sessionName]
    settled := w.settled ++ [⟨w.dispatched.length,.refused,⟨.failed,message,none⟩⟩] }

/-- A dispatch gets its timer, its listener and its entry before its frame is written. -/
def enqueue (sessionName : String) (signal : Option Nat) : World :=
  let d := w.dispatched.length
  { w with
    dispatched := w.dispatched ++ [sessionName]
    timers := w.timers ++ [d]
    listeners := w.listeners ++ (signal.toList.map fun g => (g,d))
    pending := Function.update w.pending sessionName
      (w.pending sessionName ++ [(mint d,(⟨d,signal⟩ : PendingDispatch))]) }

def dispatch (sessionName : String) (part : WireFlowPart) (signal : Option Nat)
    (writing : StreamEffect) : World :=
  if operationPart part = none then w.refuse sessionName "invalid tool part"
  else if w.connections sessionName = none then w.refuse sessionName "desktop disconnected"
  else if signal.any w.aborted then w.refuse sessionName "aborted"
  else
    let toolId := mint w.dispatched.length
    let w := (w.enqueue mint sessionName signal).streamCall writing
    match writing.error with
    | none => w
    | some message =>
      match w.find sessionName toolId with
      | none => w
      | some p => w.settle sessionName toolId p .writeFailed ⟨.failed,message,none⟩

def handleResult (sessionName : String) (result : WireFlowResultPart) : World :=
  let toolId := result.toolId.getD ""
  if toolId = "" then w
  else
    match w.find sessionName toolId with
    | none => w
    | some p => w.settle sessionName toolId p (.receipt sessionName toolId)
        ⟨result.status.getD .unspecified,result.message.getD "",
          result.screenshot.map toOperationScreenshot⟩

/-- Only the receipts among the parts matter. -/
def routeFrame (sessionName : String) (parts : List WireFlowPart) : World :=
  parts.foldl (fun w part =>
    match part.flowResult with
    | some result => w.handleResult sessionName result
    | none => w) w

/-- An uplink frame, whose parts may be missing. -/
def sendFrame (sessionName : Option String) (flowParts : Option (List WireFlowPart)) :
    SendFrameReply × World :=
  if sessionName.getD "" = "" then (.invalidArgument "session must not be empty",w)
  else
    match flowParts with
    | none => (.invalidArgument "frame.flow_parts must be present",w)
    | some parts =>
      if w.connections (sessionName.getD "") = none then
        (.failedPrecondition "desktop stream not active",w)
      else (.ok,w.routeFrame (sessionName.getD "") parts)

/-- The timer of a dispatch runs out. -/
def timeout (d : Nat) : Option World :=
  if d ∈ w.timers then
    match w.dispatched[d]? with
    | none => none
    | some sessionName =>
      let w := { w with timers := w.timers.filter fun d' => d' ≠ d }
      match w.find sessionName (mint d) with
      | none => some w
      | some p => some (w.settle sessionName (mint d) p .timedOut
          ⟨.failed,"operation timed out",none⟩)
  else none

/-- The listener of a dispatch runs once. -/
def onAbort (d : Nat) : World :=
  let w := { w with listeners := w.listeners.filter fun l => l.2 ≠ d }
  match w.dispatched[d]? with
  | none => w
  | some sessionName =>
    match w.find sessionName (mint d) with
    | none => w
    | some p => w.settle sessionName (mint d) p .aborted ⟨.failed,"aborted",none⟩

/-- The listeners of a signal run in the order of their registration. -/
def abort (signal : Nat) : World :=
  if w.aborted signal then w
  else
    ((w.listeners.filter fun l => l.1 = signal).map Prod.snd).foldl (fun w d => w.onAbort mint d)
      { w with aborted := Function.update w.aborted signal true }

/-- A heartbeat frame. -/
def heartbeat (connection : Nat) (writing : StreamEffect) : Option World :=
  if connection ∈ w.heartbeats then some (w.streamCall writing) else none

end World

inductive Label
  | attach (sessionName : String) (ending confirming : StreamEffect)
  | streamEvent (connection : Nat)
  | dispatch (sessionName : String) (part : WireFlowPart) (signal : Option Nat)
    (writing : StreamEffect)
  | sendFrame (sessionName : Option String) (flowParts : Option (List WireFlowPart))
  | handleResult (sessionName : String) (result : WireFlowResultPart)
  | abort (signal : Nat)
  | timeout (d : Nat)
  | heartbeat (connection : Nat) (writing : StreamEffect)
  deriving DecidableEq, Repr

/-- One bridge with its environment; `mint` hands out the tool ids. -/
def bridgeSystem (mint : Nat → String) : Lts World Label where
  init w := w = {}
  step w
    | .attach sessionName ending confirming => some (w.attach sessionName ending confirming)
    | .streamEvent connection => some (w.onDisconnect connection)
    | .dispatch sessionName part signal writing =>
      some (w.dispatch mint sessionName part signal writing)
    | .sendFrame sessionName flowParts => some (w.sendFrame sessionName flowParts).2
    | .handleResult sessionName result => some (w.handleResult sessionName result)
    | .abort signal => some (w.abort mint signal)
    | .timeout d => w.timeout mint d
    | .heartbeat connection writing => w.heartbeat connection writing

end Dominion.Desktop
