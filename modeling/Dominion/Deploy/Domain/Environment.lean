import Dominion.Deploy.Domain.EnvironmentName
import Dominion.Deploy.Domain.Spec
import Dominion.Deploy.Domain.State
import Dominion.Deploy.Domain.Queue

/-! # The environment aggregate

An `Environment` can only be built with a desired state that is normalized and valid.  Times and
the entity tag, which no decision reads, are left out. -/
namespace Dominion.Deploy.Domain

inductive EnvironmentType where
  | unspecified
  | prod
  | test
  | dev
  deriving DecidableEq, Repr

inductive ServiceKind where
  | unspecified
  | artifact
  | infra
  deriving DecidableEq, Repr

inductive ServiceRolloutState where
  | unspecified
  | pending
  | ready
  | waiting
  | failed
  deriving DecidableEq, Repr

structure ServiceStatus where
  name : String
  app : String
  kind : ServiceKind
  state : ServiceRolloutState
  message : String
  deriving DecidableEq, Repr

/-- `ServicesEqual`. -/
def servicesEqual (a b : List ServiceStatus) : Bool :=
  decide (a = b)

inductive RolloutState where
  | ready
  | waiting
  | failed
  deriving DecidableEq, Repr

structure RolloutStatus where
  state : RolloutState
  message : String
  services : List ServiceStatus
  deriving DecidableEq, Repr

/-- The outcome of a reconcile step; `requeueAfter` is in nanoseconds. -/
structure ProcessResult where
  changed : Bool := false
  terminal : Bool := false
  requeueAfter : Nat := 0
  source : WorkItemSource := .retry
  deriving DecidableEq

structure EnvironmentStatus where
  desired : EnvironmentDesired := .unspecified
  state : EnvironmentState := .unspecified
  observedGeneration : Nat := 0
  message : String := ""
  services : List ServiceStatus := []
  deriving DecidableEq

/-- Normalized and valid. -/
structure DesiredState.WellFormed (ds : DesiredState) : Prop where
  normalized : ds.normalize = ds
  valid : ds.validate = .ok ()

structure Environment where
  name : EnvironmentName
  envType : EnvironmentType
  description : String
  desiredState : DesiredState
  status : EnvironmentStatus
  generation : Nat
  wellFormed : desiredState.WellFormed

def newEnvironment (name : EnvironmentName) (envType : EnvironmentType) (description : String)
    (desiredState : Option DesiredState) : Except Err Environment :=
  if envType = .unspecified then .error (.of .errInvalidType)
  else
    match desiredState with
    | none => .error (.of .errInvalidSpec)
    | some ds =>
      match h : ds.normalize.validate with
      | .error e => .error e
      | .ok () => .ok {
          name, envType, description
          desiredState := ds.normalize
          status := { desired := .present, state := .pending, observedGeneration := 0 }
          generation := 1
          wellFormed := ⟨ds.normalize_normalize,h⟩ }

/-- `RehydrateEnvironment`. -/
def rehydrateEnvironment (name : EnvironmentName) (envType : EnvironmentType)
    (description : String) (desiredState : DesiredState) (status : EnvironmentStatus)
    (generation : Nat) : Except Err Environment :=
  match h : desiredState.normalize.validate with
  | .error e => .error e
  | .ok () => .ok {
      name, envType, description, status, generation
      desiredState := desiredState.normalize
      wellFormed := ⟨desiredState.normalize_normalize,h⟩ }

namespace Environment

/-- `SetDesiredPresent`: no new desired state keeps the current one. -/
def setDesiredPresent (e : Environment) (newDesiredState : Option DesiredState) :
    Except Err Environment :=
  let status := { e.status with desired := .present, state := .pending, message := "" }
  if e.status.desired = .absent then .error (.of .errInvalidState)
  else
    match newDesiredState with
    | none => .ok { e with status, generation := e.generation + 1 }
    | some ds =>
      match h : ds.normalize.validate with
      | .error err => .error err
      | .ok () => .ok { e with
          desiredState := ds.normalize
          wellFormed := ⟨ds.normalize_normalize,h⟩
          status
          generation := e.generation + 1 }

/-- `ValidateEnvConflict`: no artifact sets a reserved environment variable. -/
def validateEnvConflict (e : Environment) (reservedEnvVars : List String) : Except Err Unit :=
  specVerdict (e.desiredState.artifacts.zipIdx.flatMap fun artifact =>
    artifact.1.env.flatMap fun entry =>
      if entry.1 ∈ reservedEnvVars then
        [.new (s!"artifacts[{artifact.2}].env[{goQuote entry.1}]: " ++
          "conflicts with reserved environment variable")]
      else [])

end Environment

/-- `BuildInitialServiceStatuses`: artifacts first, then infrastructure. -/
def buildInitialServiceStatuses (ds : DesiredState) : List ServiceStatus :=
  let pending (name app : String) (kind : ServiceKind) : ServiceStatus :=
    ⟨name,app,kind,.pending,"资源已提交，等待观测"⟩
  ds.artifacts.map (fun a => pending a.name a.app .artifact) ++
    ds.infras.map fun i => pending i.name i.app .infra

section

variable {name : EnvironmentName} {envType : EnvironmentType} {description : String}
  {ds : DesiredState} {status : EnvironmentStatus} {generation : Nat} {e e' : Environment}

theorem newEnvironment_ok {new : Option DesiredState}
    (h : newEnvironment name envType description new = .ok e) :
    e.name = name ∧ e.status = { desired := .present, state := .pending } ∧ e.generation = 1 := by
  unfold newEnvironment at h
  split at h
  · cases h
  · split at h
    · cases h
    · split at h
      · cases h
      · cases h
        exact ⟨rfl,rfl,rfl⟩

theorem rehydrateEnvironment_ok
    (h : rehydrateEnvironment name envType description ds status generation = .ok e) :
    e.name = name ∧ e.desiredState = ds.normalize ∧ e.status = status ∧
      e.generation = generation := by
  unfold rehydrateEnvironment at h
  split at h
  · cases h
  · cases h
    exact ⟨rfl,rfl,rfl,rfl⟩

/-- A well-formed desired state is decoded as it is. -/
theorem rehydrateEnvironment_of_wellFormed (h : ds.WellFormed) :
    ∃ e, rehydrateEnvironment name envType description ds status generation = .ok e := by
  unfold rehydrateEnvironment
  split
  · rename_i err hv
    rw [h.normalized,h.valid] at hv
    cases hv
  · exact ⟨_,rfl⟩

theorem setDesiredPresent_ok {new : Option DesiredState} (h : e.setDesiredPresent new = .ok e') :
    e.status.desired ≠ .absent ∧ e'.name = e.name := by
  unfold Environment.setDesiredPresent at h
  split at h
  · cases h
  · rename_i hd
    refine ⟨hd,?_⟩
    split at h
    · cases h
      rfl
    · split at h
      · cases h
      · cases h
        rfl

end

end Dominion.Deploy.Domain
