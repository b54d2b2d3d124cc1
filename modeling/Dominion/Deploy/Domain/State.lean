/-! # The life cycle of an environment -/
namespace Dominion.Deploy.Domain

inductive EnvironmentDesired where
  | unspecified
  | present
  | absent
  deriving DecidableEq, Repr

inductive EnvironmentState where
  | unspecified
  | pending
  | reconciling
  | ready
  | failed
  | deleting
  | waitingRollout
  deriving DecidableEq, Repr

def EnvironmentDesired.toString : EnvironmentDesired → String
  | unspecified => "DesiredUnspecified"
  | present => "DesiredPresent"
  | absent => "DesiredAbsent"

def EnvironmentState.toString : EnvironmentState → String
  | unspecified => "StateUnspecified"
  | pending => "StatePending"
  | reconciling => "StateReconciling"
  | ready => "StateReady"
  | failed => "StateFailed"
  | deleting => "StateDeleting"
  | waitingRollout => "StateWaitingRollout"

def isActiveState : EnvironmentState → Bool
  | .pending | .reconciling | .ready | .failed | .waitingRollout => true
  | .unspecified | .deleting => false

def canTransition (source target : EnvironmentState) : Bool :=
  match source,target with
  | .pending,.reconciling => true
  | .reconciling,.reconciling | .reconciling,.ready | .reconciling,.failed
  | .reconciling,.waitingRollout => true
  | .waitingRollout,.ready | .waitingRollout,.failed => true
  | .ready,.reconciling | .failed,.reconciling => true
  | source,.deleting => isActiveState source
  | _,_ => false

/-- Deleting is left by the removal of the environment only. -/
theorem canTransition_deleting (target : EnvironmentState) :
    canTransition .deleting target = false := by
  cases target <;> rfl

end Dominion.Deploy.Domain
