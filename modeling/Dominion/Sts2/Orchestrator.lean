import Dominion.Sts2.Driver
import Mathlib.Logic.Function.Basic

/-! # The orchestration of the main agent

`materialize` and `dispose` run in pieces between their awaits; `submit` and `cancel` reach the
driver of the installed agent.  The agent handles, the event subscriptions and the error listeners
live outside of the orchestrator, which only refers to some of them. -/
namespace Dominion.Sts2.Orchestration

open Dominion.Framework

def defaultProvider : String := "glm-responses"

def mainMemberRole : String := "main"

structure MemberConfig where
  role : String
  preset : String
  provider : Option String := none
  model : Option String := none

structure MaterializeInput where
  session : String
  template : String
  members : List MemberConfig

structure CreateAgentOptions where
  sessionId : String
  agentPreset : String
  provider : String
  model : Option String

inductive StateErrorCode where
  | unmaterialized
  | alreadyMaterialized
  | disposed
  deriving DecidableEq, Repr

structure StateError where
  code : StateErrorCode
  message : String

/-- What a call of `materialize` throws. -/
inductive MaterializeError where
  | state (error : StateError)
  | failed (message : String)

/-- The single member of the input. -/
def mainMember (input : MaterializeInput) : Except String MemberConfig :=
  match input.members with
  | [member] =>
    if member.role ≠ mainMemberRole then
      .error ("sts2-loop materialization requires the \"main\" member; got \"" ++ member.role ++ "\"")
    else if member.preset = "" then
      .error "sts2-loop materialization requires a preset id for the \"main\" member"
    else .ok member
  | members =>
    .error ("sts2-loop materialization requires exactly one member; got " ++
      toString members.length)

/-- The fields of the orchestrator; handle, driver and events are named by the agent they belong
to. -/
structure Orchestrator where
  /-- The deployment's provider route. -/
  provider : Option String := none
  handle : Option Nat := none
  driver : Option Nat := none
  events : Option Nat := none
  session : Option String := none
  disposed : Bool := false

namespace Orchestrator

def createOptions (o : Orchestrator) (input : MaterializeInput) (member : MemberConfig)
    (agentPreset : String) : CreateAgentOptions where
  sessionId := input.session ++ "/" ++ mainMemberRole
  agentPreset := agentPreset
  provider := member.provider.getD (o.provider.getD defaultProvider)
  model := member.model.filter (· ≠ "")

def members (o : Orchestrator) : List String :=
  if o.handle.isNone then [] else [mainMemberRole]

def member (o : Orchestrator) (role : String) : Option Nat :=
  if role = mainMemberRole then o.handle else none

def teamEvents (o : Orchestrator) : Except StateError Nat :=
  if o.disposed then .error ⟨.disposed,"orchestrator is disposed"⟩
  else match o.events with
    | none => .error ⟨.unmaterialized,"the main agent is not materialized"⟩
    | some events => .ok events

end Orchestrator

/-- Where a call of `materialize` stands. -/
inductive Phase where
  | idle
  | composing (input : MaterializeInput) (member : MemberConfig)
  | creating (session : String) (options : CreateAgentOptions)
  /-- It awaits the disposal of what it created. -/
  | rollingBack (created : Option Nat) (error : String)
  | returned
  | thrown (error : MaterializeError)

/-- Where the first call of `dispose` stands. -/
inductive Disposal where
  | idle
  /-- It awaits the turn in flight, with what it found. -/
  | settling (driver : Nat) (events handle : Option Nat)
  | releasing (handle : Nat)
  | settled
  deriving DecidableEq, Repr

/-- How the creation of an agent goes; with an agent created, the construction of its stream or
driver may still throw. -/
inductive Creation where
  | fails (error : String)
  | creates
  | constructionFails (error : String)

structure World where
  orchestrator : Orchestrator := {}
  /-- The live agent handles. -/
  handles : List Nat := []
  /-- The live event subscriptions. -/
  streams : List Nat := []
  /-- The live error listeners. -/
  listeners : List Nat := []
  /-- The drivers and their agents. -/
  drivers : Nat → Sts2.World := fun _ => {}
  next : Nat := 0
  calls : Nat → Phase := fun _ => .idle
  disposal : Disposal := .idle

namespace World

variable (s : World)

def setCall (i : Nat) (phase : Phase) : World :=
  { s with calls := Function.update s.calls i phase }

def setDriver (h : Nat) (w : Sts2.World) : World :=
  { s with drivers := Function.update s.drivers h w }

/-- The start of a materialization. -/
def materialize (i : Nat) (input : MaterializeInput) : Option World :=
  match s.calls i with
  | .idle =>
    some <|
      if s.orchestrator.disposed then
        s.setCall i (.thrown (.state ⟨.disposed,"orchestrator is disposed"⟩))
      else if s.orchestrator.handle.isSome then
        s.setCall i (.thrown (.state
          ⟨.alreadyMaterialized,"the main agent is already materialized"⟩))
      else match mainMember input with
        | .error message => s.setCall i (.thrown (.failed message))
        | .ok member => s.setCall i (.composing input member)
  | _ => none

/-- The answer of the composition: the preset id. -/
def composed (i : Nat) (answer : Except String String) : Option World :=
  match s.calls i with
  | .composing input member =>
    some <| match answer with
      | .error error => s.setCall i (.rollingBack none error)
      | .ok agentPreset => s.setCall i (.creating input.session
          (s.orchestrator.createOptions input member agentPreset))
  | _ => none

/-- The answer of the agent registry, and the installation. -/
def created (i : Nat) (answer : Creation) : Option World :=
  match s.calls i with
  | .creating session _ =>
    some <| match answer with
      | .fails error => s.setCall i (.rollingBack none error)
      | .constructionFails error =>
        { s with handles := s.handles ++ [s.next], next := s.next + 1 }.setCall i
          (.rollingBack (some s.next) error)
      | .creates =>
        { s with
          handles := s.handles ++ [s.next]
          streams := s.streams ++ [s.next]
          listeners := s.listeners ++ [s.next]
          drivers := Function.update s.drivers s.next {}
          next := s.next + 1
          orchestrator := { s.orchestrator with
            handle := some s.next
            events := some s.next
            driver := some s.next
            session := some session } }.setCall i .returned
  | _ => none

/-- The handle's disposal settles; one that fails may leave the agent live. -/
def endHandle (h : Nat) (live : Bool) : World :=
  if live then s else { s with handles := s.handles.filter (· ≠ h) }

/-- The end of a rollback, which ignores a failing disposal. -/
def rolledBack (i : Nat) (live : Bool) : Option World :=
  match s.calls i with
  | .rollingBack none error => some (s.setCall i (.thrown (.failed error)))
  | .rollingBack (some h) error => some ((s.endHandle h live).setCall i (.thrown (.failed error)))
  | _ => none

def submit (message : UserMessage) : Except StateError (Option World) :=
  if s.orchestrator.disposed then .error ⟨.disposed,"orchestrator is disposed"⟩
  else match s.orchestrator.driver with
    | none => .error ⟨.unmaterialized,
        "the main agent is not materialized; materialize before sending"⟩
    | some h => .ok (((s.drivers h).submit message).map (s.setDriver h))

def cancel : Except StateError World :=
  if s.orchestrator.disposed then .ok s
  else match s.orchestrator.driver with
    | none => .error ⟨.unmaterialized,
        "the main agent is not materialized; there is nothing to cancel"⟩
    | some h => .ok (s.setDriver h (s.drivers h).cancel)

/-- The rest of a disposal, up to the release of the agent. -/
def release (driver events handle : Option Nat) : World :=
  { s with
    listeners := s.listeners.filter (some · ≠ driver)
    streams := s.streams.filter (some · ≠ events)
    disposal := match handle with
      | none => .settled
      | some h => .releasing h }

/-- A call of `dispose`; any but the first returns at once. -/
def dispose : World :=
  let o := s.orchestrator
  if o.disposed then s
  else
    let s' := { s with orchestrator := { o with
      disposed := true, driver := none, events := none, handle := none, session := none } }
    match o.driver with
    | none => s'.release none o.events o.handle
    | some d =>
      let w := s.drivers d
      { s'.setDriver d (if w.driver.activeTurn.isSome then w.cancel else w) with
        disposal := .settling d o.events o.handle }

/-- The turn in flight has settled. -/
def driverSettled : Option World :=
  match s.disposal with
  | .settling d events handle =>
    if (s.drivers d).driver.awaiting then none else some (s.release (some d) events handle)
  | _ => none

def released (live : Bool) : Option World :=
  match s.disposal with
  | .releasing h => some { s.endHandle h live with disposal := .settled }
  | _ => none

end World

inductive Label where
  | materialize (call : Nat) (input : MaterializeInput)
  | composed (call : Nat) (answer : Except String String)
  | created (call : Nat) (answer : Creation)
  | rolledBack (call : Nat) (live : Bool)
  | submit (message : UserMessage)
  | cancel
  /-- A step of an agent or its driver other than those that the orchestrator takes. -/
  | turn (h : Nat) (l : Sts2.Label)
  | dispose
  | driverSettled
  | released (live : Bool)

/-- The steps of a driver that the orchestrator does not take itself. -/
def isTurn : Sts2.Label → Bool
  | .submit _ => false
  | .cancel => false
  | _ => true

namespace World

def turn (s : World) (h : Nat) (l : Sts2.Label) : Option World :=
  if isTurn l then ((s.drivers h).step l).map (s.setDriver h) else none

/-- A call of `submit` or `cancel` that throws changes nothing. -/
def step (s : World) : Label → Option World
  | .materialize i input => s.materialize i input
  | .composed i answer => s.composed i answer
  | .created i answer => s.created i answer
  | .rolledBack i live => s.rolledBack i live
  | .submit message =>
    match s.submit message with
    | .error _ => some s
    | .ok s' => s'
  | .cancel =>
    match s.cancel with
    | .error _ => some s
    | .ok s' => some s'
  | .turn h l => s.turn h l
  | .dispose => some s.dispose
  | .driverSettled => s.driverSettled
  | .released live => s.released live

end World

/-- Calls on one orchestrator, interleaved at their awaits. -/
def system : Lts World Label where
  init s := ∃ provider, s = { orchestrator := { provider := provider } }
  step := World.step

/-- A call that has neither returned nor thrown. -/
def Phase.running : Phase → Bool
  | .composing _ _ => true
  | .creating _ _ => true
  | .rollingBack _ _ => true
  | _ => false

def Disposal.running : Disposal → Bool
  | .settling _ _ _ => true
  | .releasing _ => true
  | _ => false

/-- Every call has returned or thrown. -/
def Settled (s : World) : Prop :=
  (∀ i, (s.calls i).running = false) ∧ s.disposal.running = false

/-- One agent lives: the one that members, events and driver refer to. -/
def Materialized (s : World) : Prop :=
  s.orchestrator.disposed = false ∧ ∃ h, s.handles = [h] ∧
    s.orchestrator.members = [mainMemberRole] ∧ s.orchestrator.member mainMemberRole = some h ∧
    s.orchestrator.teamEvents = .ok h ∧ s.orchestrator.driver = some h

/-- Nothing lives. -/
def Clear (s : World) : Prop :=
  s.handles = [] ∧ s.streams = [] ∧ s.listeners = []

/-- No agent leaks, and a disposed orchestrator has none installed. -/
def LeakFree (s : World) : Prop :=
  (Materialized s ∨ Clear s) ∧
    (s.orchestrator.disposed = true → s.orchestrator.handle = none)

/-- No installation while disposed or over an installed agent, and no disposal of a handle that
fails and leaves the agent live. -/
def Undisturbed (s : World) : Label → Bool
  | .created _ .creates => s.orchestrator.handle.isNone && !s.orchestrator.disposed
  | .rolledBack i live =>
    match s.calls i with
    | .rollingBack (some _) _ => !live
    | _ => true
  | .released live => !live
  | _ => true

end Dominion.Sts2.Orchestration
