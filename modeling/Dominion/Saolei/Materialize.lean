import Dominion.Framework.Lts
import Mathlib.Logic.Function.Basic

/-! # Materialization and disposal

Both calls run in pieces between their awaits.  The agent handles and the team registrations live
outside of the orchestrator, which only remembers some of them. -/
namespace Dominion.Saolei.Materialize

open Dominion.Framework

structure Registration where
  id : Nat
  player : Nat
  planner : Nat
  deriving DecidableEq, Repr

/-- The fields of the orchestrator; the values name what the fields refer to. -/
structure Orchestrator where
  members : Option (Nat × Nat) := none
  teamRegistration : Option Registration := none
  game : Option Nat := none
  hooks : Option Nat := none
  announcerMember : Option Nat := none
  flow : Option Nat := none
  disposed : Bool := false
  deriving DecidableEq, Repr

/-- Where a call of `materialize` stands. -/
inductive Phase
  | idle
  /-- It awaits the composition of a preset, of the player's if it has no player yet. -/
  | composing (player : Option Nat)
  /-- It awaits an agent; the player's setup builds the game runtime. -/
  | creating (player : Option Nat) (setUp : Bool)
  | assembling (player planner : Nat)
  | rollingBack (created : List Nat)
  | returned
  | thrown
  deriving DecidableEq, Repr

inductive Disposal
  | idle
  /-- It awaits the pump, with the members that it found. -/
  | quiescing (bindings : List Nat)
  | releasing (bindings : List Nat)
  | settled
  deriving DecidableEq, Repr

/-- What the hooks row of the composition does. -/
inductive HooksMount
  | absent
  | builds
  | fails
  deriving DecidableEq, Repr

/-- How the creation of an agent goes; with an agent created, the construction of its member may
still throw. -/
inductive Creation
  | fails
  | creates
  | constructionFails
  deriving DecidableEq, Repr

/-- How the installation goes; with the team registered, the construction of the flow may still
throw. -/
inductive Assembly
  | fails
  | installs
  | flowFails
  deriving DecidableEq, Repr

structure World where
  orchestrator : Orchestrator := {}
  /-- The live agent handles. -/
  handles : List Nat := []
  /-- The live registrations. -/
  registrations : List Registration := []
  /-- The next name. -/
  next : Nat := 0
  calls : Nat → Phase := fun _ => .idle
  disposal : Disposal := .idle

/-- The handles that a call created and has not handed over. -/
def Phase.created : Phase → List Nat
  | .composing player => player.toList
  | .creating player _ => player.toList
  | .assembling player planner => [player,planner]
  | .rollingBack created => created
  | _ => []

/-- A call that has neither returned nor thrown. -/
def Phase.running : Phase → Bool
  | .idle => false
  | .returned => false
  | .thrown => false
  | _ => true

def Disposal.bindings : Disposal → List Nat
  | .quiescing bindings => bindings
  | .releasing bindings => bindings
  | _ => []

def Disposal.running : Disposal → Bool
  | .quiescing _ => true
  | .releasing _ => true
  | _ => false

def Orchestrator.agents (o : Orchestrator) : List Nat :=
  match o.members with
  | none => []
  | some (player,planner) => [player,planner]

namespace World

variable (s : World)

def setCall (i : Nat) (phase : Phase) : World :=
  { s with calls := Function.update s.calls i phase }

/-- The registration that the orchestrator remembers ends. -/
def unregister : World :=
  { s with
    registrations := s.registrations.filter fun r => decide (s.orchestrator.teamRegistration ≠ some r)
    orchestrator := { s.orchestrator with teamRegistration := none } }

/-- The failure of a materialization, up to the release of the members that it created. -/
def fail (i : Nat) (created : List Nat) : World :=
  let s := { s.unregister with
    orchestrator := { s.unregister.orchestrator with
      game := none
      hooks := none
      announcerMember := none
      flow := none
      members := none } }
  s.setCall i (.rollingBack created)

/-- The start of a materialization. -/
def materialize (i : Nat) (mount : HooksMount) : Option World :=
  if s.calls i ≠ .idle then none
  else if s.orchestrator.disposed = true ∨ s.orchestrator.members ≠ none then
    some (s.setCall i .thrown)
  else
    match mount with
    | .fails => some (s.fail i [])
    | .absent =>
      some ({ s with orchestrator := { s.orchestrator with hooks := none } }.setCall i
        (.composing none))
    | .builds =>
      some ({ s with
        orchestrator := { s.orchestrator with hooks := some s.next }
        next := s.next + 1 }.setCall i (.composing none))

/-- The answer of the composition. -/
def composed (i : Nat) (ok : Bool) : Option World :=
  match s.calls i with
  | .composing player =>
    some (if ok then s.setCall i (.creating player false) else s.fail i player.toList)
  | _ => none

/-- The setup of the player's agent. -/
def setup (i : Nat) : Option World :=
  match s.calls i with
  | .creating none false =>
    some ({ s with
      orchestrator := { s.orchestrator with game := some s.next }
      next := s.next + 1 }.setCall i (.creating none true))
  | _ => none

def createAgent : World :=
  { s with handles := s.handles ++ [s.next], next := s.next + 1 }

/-- The answer of the agent registry, which answers with an agent only after its setup.  A handle is
collected once its member is constructed. -/
def created (i : Nat) (answer : Creation) : Option World :=
  match s.calls i with
  | .creating player setUp =>
    match answer with
    | .fails => some (s.fail i player.toList)
    | .creates =>
      if player = none ∧ setUp = false then none
      else some (s.createAgent.setCall i (match player with
        | none => .composing (some s.next)
        | some player => .assembling player s.next))
    | .constructionFails =>
      if player = none ∧ setUp = false then none
      else some (s.createAgent.fail i player.toList)
  | _ => none

/-- The registration of the team and the installation of its members. -/
def register (player planner : Nat) : World :=
  let registration : Registration := ⟨s.next,player,planner⟩
  { s with
    registrations := s.registrations ++ [registration]
    orchestrator := { s.orchestrator with
      teamRegistration := some registration
      announcerMember := some (s.next + 1)
      members := some (player,planner) }
    next := s.next + 2 }

def installFlow : World :=
  { s with
    orchestrator := { s.orchestrator with flow := some s.next }
    next := s.next + 1 }

def assemble (i : Nat) (answer : Assembly) : Option World :=
  match s.calls i with
  | .assembling player planner =>
    match answer with
    | .fails => some (s.fail i [player,planner])
    | .installs => some ((s.register player planner).installFlow.setCall i .returned)
    | .flowFails => some ((s.register player planner).fail i [player,planner])
  | _ => none

/-- The disposals of the handles have settled; one that fails may leave its agent live. -/
def endHandles (ended left : List Nat) : World :=
  { s with handles := s.handles.filter fun h => decide (h ∉ ended ∨ h ∈ left) }

/-- The end of a rollback, which ignores failing disposals. -/
def rolledBack (i : Nat) (left : List Nat) : Option World :=
  match s.calls i with
  | .rollingBack created => some ((s.endHandles created left).setCall i .thrown)
  | _ => none

/-- A call of `dispose`; any but the first returns at once. -/
def dispose : World :=
  if s.orchestrator.disposed then s
  else { s with
    orchestrator := { s.orchestrator with disposed := true }
    disposal := .quiescing s.orchestrator.agents }

/-- The disposal after the pump has stopped. -/
def quiescent : Option World :=
  match s.disposal with
  | .quiescing bindings =>
    some { s.unregister with
      orchestrator := { s.unregister.orchestrator with
        members := none
        game := none
        hooks := none
        announcerMember := none
        flow := none }
      disposal := .releasing bindings }
  | _ => none

def released (left : List Nat) : Option World :=
  match s.disposal with
  | .releasing bindings => some { s.endHandles bindings left with disposal := .settled }
  | _ => none

end World

inductive Label
  | materialize (call : Nat) (mount : HooksMount)
  | composed (call : Nat) (ok : Bool)
  | setup (call : Nat)
  | created (call : Nat) (answer : Creation)
  | assemble (call : Nat) (answer : Assembly)
  /-- The handles that the rollback leaves live. -/
  | rolledBack (call : Nat) (left : List Nat)
  | dispose
  | quiescent
  | released (left : List Nat)
  deriving DecidableEq, Repr

/-- Calls of `materialize` and `dispose` on one orchestrator, interleaved at their awaits. -/
def system : Lts World Label where
  init s := s = {}
  step s
    | .materialize i mount => s.materialize i mount
    | .composed i ok => s.composed i ok
    | .setup i => s.setup i
    | .created i answer => s.created i answer
    | .assemble i answer => s.assemble i answer
    | .rolledBack i left => s.rolledBack i left
    | .dispose => some s.dispose
    | .quiescent => s.quiescent
    | .released left => s.released left

/-- Every call has returned or thrown. -/
def Settled (s : World) : Prop :=
  (∀ i, (s.calls i).running = false) ∧ s.disposal.running = false

/-- The team is materialized with its two agents and nothing else lives. -/
def Materialized (s : World) : Prop :=
  s.orchestrator.disposed = false ∧ ∃ player planner registration,
    s.orchestrator.members = some (player,planner) ∧ s.handles.Perm [player,planner] ∧
    s.orchestrator.teamRegistration = some registration ∧ s.registrations = [registration] ∧
    registration.player = player ∧ registration.planner = planner ∧
    s.orchestrator.flow.isSome = true

/-- Nothing lives. -/
def Clear (s : World) : Prop :=
  s.handles = [] ∧ s.registrations = [] ∧ s.orchestrator.members = none ∧
    s.orchestrator.teamRegistration = none ∧ s.orchestrator.flow = none ∧
    s.orchestrator.game = none

/-- No installation while disposed or over an installed team, no failure under a team that is
installed and not being disposed, and no handle that is given up live: by a construction that throws
or by a disposal that fails. -/
def Undisturbed (s : World) (l : Label) : Bool :=
  let free := decide (s.orchestrator.members = none)
  match l with
  | .assemble _ .installs => free && !s.orchestrator.disposed
  | .assemble _ .fails => free || s.orchestrator.disposed
  | .assemble _ .flowFails => free
  | .composed _ false => free || s.orchestrator.disposed
  | .created _ .fails => free || s.orchestrator.disposed
  | .created _ .constructionFails => false
  | .rolledBack i left => (s.calls i).created.all (· ∉ left)
  | .released left => s.disposal.bindings.all (· ∉ left)
  | _ => true

end Dominion.Saolei.Materialize
