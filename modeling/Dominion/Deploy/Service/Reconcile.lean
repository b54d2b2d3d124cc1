import Dominion.Deploy.Storage.Mongo

/-! # The reconcile service

`processOne` loads an environment and advances its persisted state machine by at most one step. -/
namespace Dominion.Deploy.ReconcileService

open Dominion.Framework Dominion.Deploy.Domain

/-- Five seconds. -/
def rolloutPollInterval : Nat := 5000000000

/-- A step that writes a status: a stale precondition is retried at once, another error is
returned, and success gives `result`. -/
def transition (envName : EnvironmentName) (generation : Nat) (fromState : EnvironmentState)
    (toStatus : EnvironmentStatus) (result : ProcessResult) : Prog (Except Err ProcessResult) := do
  match ← MongoRepository.transitionStatus envName generation fromState toStatus with
  | .error err =>
    if err.is .errStaleState || err.is .errStaleGeneration then
      return .ok { requeueAfter := 1 }
    else return .error err
  | .ok () => return .ok result

def transitionToReconciling (env : Environment) : Prog (Except Err ProcessResult) :=
  transition env.name env.generation env.status.state
    { state := .reconciling, desired := env.status.desired } { changed := true }

def applyAndWait (env : Environment) : Prog (Except Err ProcessResult) := do
  match ← applyResources env with
  | .error err =>
    if err.is .contextCanceled || err.is .contextDeadlineExceeded then return .error err
    else return .error (.wrapping .errRetryCounted ("apply: " ++ err.text))
  | .ok () =>
    transition env.name env.generation .reconciling
      { state := .waitingRollout, desired := .present, observedGeneration := env.generation
        services := buildInitialServiceStatuses env.desiredState }
      { changed := true, requeueAfter := rolloutPollInterval, source := .poll }

def markReadyFromRollout (env : Environment) (status : RolloutStatus) :
    Prog (Except Err ProcessResult) :=
  transition env.name env.generation .waitingRollout
    { state := .ready, desired := .present, observedGeneration := env.generation
      message := "ready", services := status.services }
    { changed := true, terminal := true }

def markFailedFromRollout (env : Environment) (status : RolloutStatus) :
    Prog (Except Err ProcessResult) :=
  transition env.name env.generation .waitingRollout
    { state := .failed, desired := .present, observedGeneration := env.generation
      message := status.message, services := status.services }
    { changed := true, terminal := true }

/-- Keeps the environment waiting and writes its message and services when they differ. -/
def retainWaitingRollout (env : Environment) (status : RolloutStatus) :
    Prog (Except Err ProcessResult) :=
  if env.status.message = status.message ∧ servicesEqual env.status.services status.services then
    return .ok { requeueAfter := rolloutPollInterval, source := .poll }
  else
    transition env.name env.generation .waitingRollout
      { state := .waitingRollout, desired := .present
        message := status.message, services := status.services }
      { requeueAfter := rolloutPollInterval, source := .poll }

def checkRollout (env : Environment) : Prog (Except Err ProcessResult) := do
  match ← Deploy.checkRollout env with
  | .error err => return .error err
  | .ok status =>
    match status.state with
    | .ready => markReadyFromRollout env status
    | .failed => markFailedFromRollout env status
    | .waiting => retainWaitingRollout env status

def processPresent (env : Environment) : Prog (Except Err ProcessResult) :=
  match env.status.state with
  | .pending => transitionToReconciling env
  | .ready =>
    if env.status.observedGeneration = env.generation then return .ok { terminal := true }
    else transitionToReconciling env
  | .failed => transitionToReconciling env
  | .reconciling => applyAndWait env
  | .waitingRollout => checkRollout env
  | state => return .error (.new ("unsupported present state " ++ state.toString ++ " for " ++
      env.name.toString))

def transitionToDeleting (env : Environment) : Prog (Except Err ProcessResult) :=
  transition env.name env.generation env.status.state
    { state := .deleting, desired := .absent } { changed := true }

def deleteAbsent (env : Environment) : Prog (Except Err ProcessResult) := do
  match ← runtimeDelete env.name with
  | .error err =>
    if err.is .contextCanceled || err.is .contextDeadlineExceeded then return .error err
    else return .error (.wrapping .errRetryCounted
      ("delete " ++ env.name.toString ++ ": " ++ err.text))
  | .ok () =>
    match ← MongoRepository.delete env.name with
    | .error err => return .error err
    | .ok () => return .ok { changed := true, terminal := true }

def processAbsent (env : Environment) : Prog (Except Err ProcessResult) :=
  if env.status.state ≠ .deleting then transitionToDeleting env else deleteAbsent env

def processOne (envName : EnvironmentName) : Prog (Except Err ProcessResult) := do
  match ← MongoRepository.get envName with
  | .error err =>
    if err.is .errNotFound then return .ok { terminal := true }
    else return .error (err.withContext ("load " ++ envName.toString ++ ": "))
  | .ok env =>
    match env.status.desired with
    | .present => processPresent env
    | .absent => processAbsent env
    | desired => return .error (.new ("unsupported desired state " ++ desired.toString ++ " for " ++
        envName.toString))

/-- Writes Failed over whatever state the environment is in. -/
def markRetryExhausted (envName : EnvironmentName) : Prog (Except Err ProcessResult) := do
  match ← MongoRepository.get envName with
  | .error err =>
    if err.is .errNotFound then return .ok { terminal := true }
    else
      return .error (err.withContext ("load " ++ envName.toString ++ " for retry exhausted: "))
  | .ok env =>
    transition envName env.generation env.status.state
      { state := .failed, observedGeneration := env.generation
        message := "retry count exhausted" }
      { changed := true, terminal := true }

end Dominion.Deploy.ReconcileService
