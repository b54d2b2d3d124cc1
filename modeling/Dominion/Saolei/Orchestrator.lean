import Dominion.Framework.Lts
import Dominion.Saolei.Member

/-! # The team orchestrator

`submit`, `cancel` and `dispose` run to completion; the pump runs from one await to the next.
Calls, pump continuations and turn settlements may come in any order. -/
namespace Dominion.Saolei

open Dominion.Framework

/-- The pump run between two of its jobs: where it awaits, or that it has returned and
`this.pump` is not reset yet. -/
inductive Pump where
  | awaitSettled (binding : MemberId) (awaited : Awaited)
  | awaitExecute (binding : MemberId) (awaited : Awaited)
  | returned

/-- The pump awaits a drive that had nothing to do. -/
def Pump.rests : Pump → Bool
  | awaitExecute _ (.settled (.fulfilled .resting)) => true
  | _ => false

/-- The outcome of the last flow-issued drive; as history, the turn it is the outcome of. -/
structure PendingOutcome where
  outcome : Outcome
  turn : Option Nat

structure TeamOrchestrator where
  members : MemberId → Member
  flow : SaoleiFlow
  /-- `members` and `flow` are not null. -/
  materialized : Bool := true
  landed : List UserMessage := []
  externalPending : Bool := false
  pendingOutcome : Option PendingOutcome := none
  pump : Option Pump := none
  disposed : Bool := false
  /-- The settled turn promises. -/
  turns : Nat → Option Settlement := fun _ => none
  nextTurn : Nat := 0
  /-- History: the turns consumed by the decision entry, with the wakes they were consumed as. -/
  fed : List (Nat × Option Outcome) := []
  /-- History: a guard of `startTurn` has thrown. -/
  violated : Bool := false

inductive OrchestratorStateError where
  | unmaterialized
  | disposed

structure SubmitResult where
  queued : Bool
  position : Option Nat := none
  messageId : Nat

namespace Awaited

def turn? : Awaited → Option Nat
  | turn id => some id
  | settled _ => none

end Awaited

namespace TeamOrchestrator

variable (s : TeamOrchestrator)

def setMember (b : MemberId) (m : Member) : TeamOrchestrator :=
  { s with members := Function.update s.members b m }

def settlement : Awaited → Option Settlement
  | .turn id => s.turns id
  | .settled st => some st

/-- Runs the flow's current activity up to the await of its outcome. -/
def execute (answer : Except String (List UserMessage)) : TeamOrchestrator :=
  let activity := s.flow.activity
  if activity.driverless then
    { s with pump := some (.awaitExecute activity.member (.settled (.fulfilled .resting))) }
  else
    let d := (s.members activity.member).drive s.nextTurn answer s.flow.facts.terminal s.landed
    { s.setMember activity.member d.member with
      landed := d.landed
      nextTurn := s.nextTurn + 1
      violated := s.violated || d.violated
      pump := some (.awaitExecute activity.member d.awaited) }

/-- The decision entry consumes a wake, and the pump runs the directive. -/
def feed (wake : Option Outcome) (turn : Option Nat)
    (answer : Except String (List UserMessage)) : TeamOrchestrator :=
  let r := s.flow.decide wake
  let s := { s with flow := r.2, fed := s.fed ++ turn.toList.map fun id => (id,wake) }
  match r.1 with
  | .start _ => s.execute answer
  | _ => { s with pump := some .returned }

/-- The pump from the top of its loop to its next await. -/
def runPump (answer : Except String (List UserMessage)) : TeamOrchestrator :=
  if s.disposed || !s.materialized then { s with pump := some .returned }
  else if s.externalPending then
    let b := s.flow.activeMemberId
    { s with
      externalPending := false
      pump := some (.awaitSettled b (s.members b).whenSettled) }
  else
    { s with pendingOutcome := none }.feed (s.pendingOutcome.map PendingOutcome.outcome)
      (s.pendingOutcome.bind PendingOutcome.turn) answer

def requestPump (answer : Except String (List UserMessage)) : TeamOrchestrator :=
  if s.disposed || s.pump.isSome then s else s.runPump answer

/-- The next job of the pump, once what it awaits has settled. -/
def resume (answer : Except String (List UserMessage)) : Option TeamOrchestrator :=
  match s.pump with
  | some (.awaitSettled _ awaited) =>
    (s.settlement awaited).map fun st =>
      match st with
      | .rejected message =>
        let wake := some (failureOutcome message)
        { s with
          flow := (s.flow.decide wake).2
          fed := s.fed ++ awaited.turn?.toList.map fun id => (id,wake)
          pump := some .returned }
      | .fulfilled outcome =>
        if s.disposed then { s with pump := some .returned }
        -- A delivery-started turn is invisible to the flow when it settles.
        else s.feed (if outcome = .settled then none else some outcome) awaited.turn? answer
  | some (.awaitExecute _ awaited) =>
    (s.settlement awaited).map fun st =>
      if s.disposed then { s with pump := some .returned }
      else { s with pendingOutcome := some ⟨st.outcome,awaited.turn?⟩ }.runPump answer
  | some .returned => some { s with pump := none }
  | none => none

/-- Accepts one user message: it is delivered to the current activity's member. -/
def submit (message : UserMessage) (answer : Except String (List UserMessage)) :
    Except OrchestratorStateError SubmitResult × TeamOrchestrator :=
  if s.disposed then (.error .disposed,s)
  else if !s.materialized then (.error .unmaterialized,s)
  else
    let b := s.flow.activeMemberId
    let queued := (s.members b).busy
    match (s.members b).deliver s.nextTurn answer s.landed message with
    | (.error err,landed) =>
      (.ok { queued := queued, messageId := message.id },{ s with
        landed := landed
        flow := (s.flow.decide (some (failureOutcome err.message))).2
        violated := s.violated || err.isViolation })
    | (.ok member,landed) =>
      let s := { s.setMember b member with landed := landed, nextTurn := s.nextTurn + 1 }
      if queued then
        (.ok { queued := true, position := some member.pendingInput, messageId := message.id },s)
      else
        (.ok { queued := false, messageId := message.id },
          { s with externalPending := true }.requestPump answer)

/-- Cancels the turn in flight, with `inbox` the unclaimed messages of its agent; answers the
dropped messages. -/
def cancel (inbox : List UserMessage) :
    Except OrchestratorStateError (List UserMessage) × TeamOrchestrator :=
  if s.disposed then (.ok [],s)
  else if !s.materialized then (.error .unmaterialized,s)
  else if s.flow.paused then (.ok [],s)
  else
    let b := s.flow.activeMemberId
    match s.members b with
    | .agent m =>
      let dropped := inbox.filter fun message => decide (message.source = .user)
      let s := { s with landed := s.landed ++ dropped }
      if m.busy then (.ok dropped,s.setMember b (.agent m.abort.cancelAgent))
      else (.ok dropped,{ s with flow := s.flow.freezeAborted })
    | .announcer _ => (.ok [],{ s with flow := s.flow.freezeAborted })

/-- `dispose` up to its wait for quiescence. -/
def dispose : TeamOrchestrator :=
  if s.disposed then s
  else
    let s := { s with disposed := true, landed := [] }
    match [MemberId.player,MemberId.planner].find? fun b => (s.members b).busy with
    | some b => s.setMember b (s.members b).abort.cancelAgent
    | none => s

/-- The rest of `dispose`, once no pump is left. -/
def release : Option TeamOrchestrator :=
  if s.disposed && s.materialized && s.pump.isNone then some { s with materialized := false }
  else none

/-- The turn in flight of `b` settles as its agent member reports it. -/
def settle (b : MemberId) : Option TeamOrchestrator :=
  match s.members b with
  | .agent m => m.activeTurn.map fun turn =>
    let r := m.finishTurn turn
    { s.setMember b (.agent r.2.clearTurn) with
      turns := Function.update s.turns turn.id (some (.fulfilled r.1)) }
  | .announcer _ => none

/-- The turn in flight of `b` throws. -/
def reject (b : MemberId) (message : String) : Option TeamOrchestrator :=
  match s.members b with
  | .agent m => m.activeTurn.map fun turn =>
    { s.setMember b (.agent m.clearTurn) with
      turns := Function.update s.turns turn.id (some (.rejected message)) }
  | .announcer _ => none

/-- The failure boundary `agent/error` of `b`. -/
def agentError (b : MemberId) (failure : TurnFailure) : Option TeamOrchestrator :=
  match s.members b with
  | .agent m => some (s.setMember b (.agent { m with lastTurnFailure := some failure }))
  | .announcer _ => none

/-- The game runtime has a new terminal record. -/
def recordTerminal (record : GameEventRecord) : TeamOrchestrator :=
  { s with flow := { s.flow with facts := { s.flow.facts with terminal := some record } } }

/-- A materialized orchestrator at rest. -/
def materialize : TeamOrchestrator where
  members
    | .player => .agent { id := .player }
    | .planner => .agent { id := .planner }
    | .announcer => .announcer {}
  flow := createSaoleiFlow

inductive Label where
  | submit (message : UserMessage) (answer : Except String (List UserMessage))
  | cancel (inbox : List UserMessage)
  | dispose
  | release
  | pump (answer : Except String (List UserMessage))
  | settle (b : MemberId)
  | reject (b : MemberId) (message : String)
  | agentError (b : MemberId) (failure : TurnFailure)
  | recordTerminal (record : GameEventRecord)

def step (s : TeamOrchestrator) : Label → Option TeamOrchestrator
  | .submit message answer => some (s.submit message answer).2
  | .cancel inbox => some (s.cancel inbox).2
  | .dispose => some s.dispose
  | .release => s.release
  | .pump answer => s.resume answer
  | .settle b => s.settle b
  | .reject b message => s.reject b message
  | .agentError b failure => s.agentError b failure
  | .recordTerminal record => some (s.recordTerminal record)

def system : Lts TeamOrchestrator Label where
  init s := s = materialize
  step := step

/-- A submit that finds the active member not busy and a pump at work that awaits no resting
drive. -/
def submitsBesidePump (s : TeamOrchestrator) (l : Label) : Bool :=
  match l with
  | .submit _ _ => !s.disposed && s.materialized && s.pump.any (fun pump => !pump.rests) &&
      !(s.members s.flow.activeMemberId).busy
  | _ => false

/-- The turn of a delivery settles before the pump has taken the delivery over. -/
def settlesBeforePump (s : TeamOrchestrator) (l : Label) : Bool :=
  match l with
  | .settle _ => !s.disposed && s.externalPending
  | .reject _ _ => !s.disposed && s.externalPending
  | _ => false

/-- The steps at which no delivery and no settlement overtakes the pump. -/
def Undisturbed (s : TeamOrchestrator) (l : Label) : Prop :=
  s.submitsBesidePump l = false ∧ s.settlesBeforePump l = false

end TeamOrchestrator

end Dominion.Saolei
