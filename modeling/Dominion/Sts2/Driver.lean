import Dominion.Framework.Lts
import Dominion.Saolei.Member

/-! # The driver of the main agent

One agent, one turn at a time.  The agent keeps an inbox and a log; the driver keeps the messages
steered into the turn in flight, those it took into custody at a cancel, and those it holds across
a freeze. -/
namespace Dominion.Sts2

open Dominion.Framework
open Dominion.Saolei (TurnFailure)

abbrev MainDriveErrorCode := Saolei.LoopErrorCode

/-- The classification sets are those of the team loop. -/
def mapEngineCode (engineCode : Option String) : MainDriveErrorCode :=
  Saolei.mapEngineCode engineCode

/-- The last failed turn; its detail repeats the facts of the turn. -/
structure MainDriveFailure where
  message : String
  code : MainDriveErrorCode
  detail : TurnFailure

inductive MainDriveOutcome where
  | settled
  | resting
  | aborted
  | failed (code : MainDriveErrorCode) (detail : TurnFailure)

structure UserMessage where
  id : String
  text : String
  deriving DecidableEq, Repr

/-! ## The agent -/

inductive AgentStatus where
  | idle
  /-- Woken by a followup; the first `delivered` messages of the inbox are claimed at the wake. -/
  | woken (delivered : Nat)
  | running
  /-- Cancelled, and not yet idle. -/
  | stopping
  deriving DecidableEq, Repr

/-- `inbox` is both pending lists of the agent in order of arrival. -/
structure Agent where
  status : AgentStatus := .idle
  inbox : List UserMessage := []
  log : List UserMessage := []
  deriving DecidableEq, Repr

namespace Agent

def inject (a : Agent) (message : UserMessage) : Agent :=
  { a with inbox := a.inbox ++ [message] }

def followup (a : Agent) (message : UserMessage) : Agent :=
  { a with inbox := a.inbox ++ [message], status := .woken (a.inbox.length + 1) }

def steer (a : Agent) (message : UserMessage) : Agent :=
  { a with inbox := a.inbox ++ [message] }

/-- Clears the inbox at once; a turn in flight still has to end. -/
def cancel (a : Agent) : Agent :=
  { a with inbox := [], status := if a.status = .idle then .idle else .stopping }

def remove (a : Agent) (id : String) : Agent :=
  { a with inbox := a.inbox.eraseP fun message => message.id == id }

/-- Moves the first `n` pending messages into the log. -/
def claim (a : Agent) (n : Nat) (status : AgentStatus) : Agent :=
  { a with status := status, inbox := a.inbox.drop n, log := a.log ++ a.inbox.take n }

end Agent

/-! ## The driver -/

/-- How far the promise of the active turn has come; a concluded turn is still the active one
until the reaction to its promise has run. -/
inductive RunTurn where
  | awaitingIdle
  | concluded (outcome : MainDriveOutcome)

structure Driver where
  agent : Agent := {}
  activeTurn : Option RunTurn := none
  steered : List UserMessage := []
  held : List UserMessage := []
  abortHeld : Option (List UserMessage) := none
  lastTurnFailure : Option TurnFailure := none
  abortRequested : Bool := false
  frozen : Bool := false
  lastTurnError : Option MainDriveFailure := none

namespace Driver

def awaiting (d : Driver) : Bool :=
  match d.activeTurn with
  | some .awaitingIdle => true
  | _ => false

def concluded (d : Driver) : Bool :=
  match d.activeTurn with
  | some (.concluded _) => true
  | _ => false

/-- The set captured at a cancel. -/
def captured (d : Driver) : List UserMessage :=
  d.abortHeld.getD []

/-- Runs a turn up to its idle await. -/
def runTurn (d : Driver) (messages : List UserMessage) : Driver :=
  match messages.getLast? with
  | none => { d with activeTurn := some (.concluded .resting) }
  | some last => { d with
      abortRequested := false
      abortHeld := none
      lastTurnFailure := none
      agent := (messages.dropLast.foldl Agent.inject d.agent).followup last
      activeTurn := some .awaitingIdle }

def startTurn (d : Driver) (messages : List UserMessage) : Except String Driver :=
  if d.activeTurn.isSome then
    .error "sts2-loop main driver invariant violated: a turn is already in flight"
  else .ok (d.runTurn messages)

def submit (d : Driver) (message : UserMessage) : Except String Driver :=
  if d.activeTurn.isSome then
    .ok { d with agent := d.agent.steer message, steered := d.steered ++ [message] }
  else
    { d with held := [], frozen := false }.startTurn (d.held ++ [message])

def cancel (d : Driver) : Driver :=
  if d.activeTurn.isNone ∨ d.abortRequested then { d with frozen := true }
  else { d with
    frozen := true
    abortRequested := true
    abortHeld := some d.steered
    steered := []
    agent := d.agent.cancel }

/-- The steered messages that are still pending, and the agent without them. -/
def takeUnclaimed (agent : Agent) (steered : List UserMessage) : List UserMessage × Agent :=
  let pending := agent.inbox.map (·.id)
  let unclaimed := steered.filter (·.id ∈ pending)
  (unclaimed,unclaimed.foldl (fun a message => a.remove message.id) agent)

/-- The rest of a turn, once the agent is idle. -/
def conclude (d : Driver) : Driver :=
  let inFlight := d.steered
  let taken := takeUnclaimed d.agent inFlight
  let d' := { d with lastTurnFailure := none, abortRequested := false, steered := [] }
  if d.abortRequested then
    { d' with
      agent := taken.2
      held := taken.1 ++ d.captured ++ d.held
      abortHeld := none
      lastTurnError := none
      activeTurn := some (.concluded .aborted) }
  else match d.lastTurnFailure with
    | some failure =>
      let code := mapEngineCode failure.engineCode
      { d' with
        agent := taken.2
        held := taken.1 ++ d.held
        lastTurnError := some ⟨failure.message,code,failure⟩
        frozen := true
        activeTurn := some (.concluded (.failed code failure)) }
    | none => { d' with lastTurnError := none, activeTurn := some (.concluded .settled) }

end Driver

/-! ## The interleavings -/

structure World where
  driver : Driver := {}
  /-- History: what was submitted, in order. -/
  submitted : List UserMessage := []

inductive Label where
  | submit (message : UserMessage)
  | cancel
  | wake
  | boundary
  | settle
  | fail (failure : TurnFailure)
  | stop
  | conclude
  | clearActive

namespace World

def withAgent (w : World) (agent : Agent) : World :=
  { w with driver := { w.driver with agent := agent } }

/-- Messages have distinct ids. -/
def submit (w : World) (message : UserMessage) : Option World :=
  if message.id ∉ w.submitted.map (·.id) then
    match w.driver.submit message with
    | .ok driver => some { w with driver := driver, submitted := w.submitted ++ [message] }
    | .error _ => none
  else none

def cancel (w : World) : World :=
  { w with driver := w.driver.cancel }

def wake (w : World) : Option World :=
  match w.driver.agent.status with
  | .woken delivered => some (w.withAgent (w.driver.agent.claim delivered .running))
  | _ => none

def boundary (w : World) : Option World :=
  let agent := w.driver.agent
  if agent.status = .running ∨ agent.status = .stopping then
    some (w.withAgent (agent.claim agent.inbox.length agent.status))
  else none

def settle (w : World) : Option World :=
  if w.driver.agent.status = .running ∧ w.driver.agent.inbox = [] then
    some (w.withAgent { w.driver.agent with status := .idle })
  else none

def fail (w : World) (failure : TurnFailure) : Option World :=
  if w.driver.agent.status = .running then
    some { w with driver := { w.driver with
      agent := { w.driver.agent with status := .idle }
      lastTurnFailure := some failure } }
  else none

def stop (w : World) : Option World :=
  if w.driver.agent.status = .stopping then
    some (w.withAgent { w.driver.agent with status := .idle })
  else none

def conclude (w : World) : Option World :=
  match w.driver.activeTurn with
  | some .awaitingIdle =>
    if w.driver.agent.status = .idle then some { w with driver := w.driver.conclude } else none
  | _ => none

def clearActive (w : World) : Option World :=
  match w.driver.activeTurn with
  | some (.concluded _) => some { w with driver := { w.driver with activeTurn := none } }
  | _ => none

def step (w : World) : Label → Option World
  | .submit message => w.submit message
  | .cancel => some w.cancel
  | .wake => w.wake
  | .boundary => w.boundary
  | .settle => w.settle
  | .fail failure => w.fail failure
  | .stop => w.stop
  | .conclude => w.conclude
  | .clearActive => w.clearActive

end World

/-- A new driver over an agent with an empty inbox. -/
def system : Lts World Label where
  init w := w = {}
  step := World.step

end Dominion.Sts2
