import Mathlib.Logic.Basic

/-! # The flow layer of the team loop

The activity graph, the facts that its edge predicates read, and the runtime that turns a wake
(an activity outcome, or a delivery-started turn settling) into the next `start`. -/
namespace Dominion.Saolei

/-- The loop-layer failure classification. -/
inductive LoopErrorCode where
  | transient
  | quota
  | credential
  | config
  | inputTooLarge
  | internal
  deriving DecidableEq

structure FailureDetail where
  engineCode : Option String := none
  message : String
  deriving DecidableEq

/-- The terminal states of one driven activity. -/
inductive Outcome where
  | settled
  | resting
  | failed (code : LoopErrorCode) (detail : FailureDetail)
  | aborted
  deriving DecidableEq

/-- A terminal record of the game runtime, by identity. -/
abbrev GameEventRecord := Nat

/-- What an edge predicate reads; `terminal` is the runtime's latest record. -/
structure Facts where
  terminal : Option GameEventRecord := none
  reviewed : Option GameEventRecord := none
  rounds : Nat := 0
  statsSentFor : Option GameEventRecord := none
  deriving DecidableEq

structure Activity (Id M : Type) where
  id : Id
  member : M
  /-- The activation lands but no member is driven. -/
  driverless : Bool := false
  onEnter : Facts → Facts := fun facts => facts
  onSettle : Facts → Facts := fun facts => facts
  /-- The edge predicate: the target activity, or `none` to stay. -/
  next : Facts → Option Id

/-- The flow layer's output: `start` an activity, or rest, or frozen. -/
inductive FlowDecision (Id : Type) where
  | start (activity : Id)
  | rest
  | frozen
  deriving DecidableEq

structure FrozenError where
  code : LoopErrorCode
  detail : FailureDetail
  deriving DecidableEq

structure Flow (Id M : Type) where
  activities : Id → Activity Id M
  position : Id
  lastOutcome : Option Outcome := none
  frozenError : Option FrozenError := none
  /-- The start just issued was the restart of a frozen activity. -/
  retrying : Bool := false
  facts : Facts := {}

namespace Flow

variable {Id M : Type}

/-- The activity definition at the current position. -/
def activity (f : Flow Id M) : Activity Id M :=
  f.activities f.position

/-- The member the current activity's activation belongs to. -/
def activeMemberId (f : Flow Id M) : M :=
  f.activity.member

/-- Whether the flow is frozen. -/
def paused (f : Flow Id M) : Bool :=
  match f.lastOutcome with
  | some (.failed _ _) => true
  | some .aborted => true
  | _ => false

/-- Freezes the flow on an aborted outcome without a drive. -/
def freezeAborted (f : Flow Id M) : Flow Id M :=
  { f with lastOutcome := some .aborted, frozenError := none }

/-- The edge evaluation: the next target, or the current activity. -/
def judge (f : Flow Id M) : FlowDecision Id × Flow Id M :=
  let target := (f.activity.next f.facts).getD f.position
  (.start target,{ f with
    position := target
    lastOutcome := none
    facts := (f.activities target).onEnter f.facts })

/-- What the outcome of the flow's own last `start` writes. -/
def record (f : Flow Id M) (outcome : Outcome) : Flow Id M :=
  match outcome with
  | .settled => { f with
      lastOutcome := some outcome
      frozenError := none
      facts := f.activity.onSettle f.facts }
  | .failed code detail => { f with
      lastOutcome := some outcome
      frozenError := some ⟨code,detail⟩ }
  | .aborted => { f with lastOutcome := some outcome, frozenError := none }
  | .resting => { f with lastOutcome := some outcome }

/-- The decision entry: consumes one wake and returns the next directive.  The wake `none` is an
external one: a delivery-started turn settled. -/
def decide (f : Flow Id M) (wake : Option Outcome) : FlowDecision Id × Flow Id M :=
  let wasRetry := f.retrying
  let f := { f with retrying := false }
  let f := wake.elim f f.record
  if f.paused then
    match wake with
    | none => (.start f.position,{ f with retrying := true })
    | some _ => (.frozen,f)
  else if wake = some .resting ∧ wasRetry = false then (.rest,f)
  else f.judge

/-- A failed or aborted wake freezes the flow where it is. -/
theorem decide_frozen (f : Flow Id M) (outcome : Outcome) (h : (f.record outcome).paused = true) :
    (f.decide (some outcome)).1 = .frozen ∧ (f.decide (some outcome)).2.paused = true ∧
      (f.decide (some outcome)).2.activeMemberId = f.activeMemberId := by
  cases outcome with
  | settled => cases h
  | resting => cases h
  | failed code detail => exact ⟨rfl,rfl,rfl⟩
  | aborted => exact ⟨rfl,rfl,rfl⟩

end Flow

/-- The completed rounds after which the loop rests. -/
def roundStopInterval : Nat := 5

inductive SaoleiActivityId where
  | plan
  | play
  | announce
  | review
  | rest
  deriving DecidableEq

/-- The member bindings of the graph and the execution layer's member identities. -/
inductive MemberId where
  | player
  | planner
  | announcer
  deriving DecidableEq

def hasUnreviewedTerminal (facts : Facts) : Bool :=
  facts.terminal.isSome && facts.terminal ≠ facts.reviewed

def saoleiActivities : SaoleiActivityId → Activity SaoleiActivityId MemberId
  | .plan => { id := .plan, member := .planner, next := fun _ => some .play }
  | .play => {
      id := .play
      member := .player
      next := fun facts => if hasUnreviewedTerminal facts then some .announce else some .play }
  | .announce => {
      id := .announce
      member := .announcer
      onSettle := fun facts => { facts with statsSentFor := facts.terminal }
      next := fun _ => some .review }
  | .review => {
      id := .review
      member := .planner
      onSettle := fun facts => { facts with
        reviewed := facts.terminal
        rounds := facts.rounds + 1 }
      next := fun facts => if facts.rounds < roundStopInterval then some .play else some .rest }
  | .rest => {
      id := .rest
      member := .player
      driverless := true
      onEnter := fun facts => { facts with rounds := 0 }
      next := fun facts => if hasUnreviewedTerminal facts then some .announce else some .play }

abbrev SaoleiFlow := Flow SaoleiActivityId MemberId

/-- A flow resting at `plan`, the materialization's initial state. -/
def createSaoleiFlow : SaoleiFlow where
  activities := saoleiActivities
  position := .plan

end Dominion.Saolei
