import Dominion.Deploy.Calls

/-! # The MongoDB repository

Environments are documents of one collection with a unique index on their name. -/
namespace Dominion.Deploy

open Dominion.Framework Dominion.Deploy.Domain

def mongoEnvironmentFromDomain (env : Environment) : MongoEnvironment where
  name := env.name
  envType := env.envType
  description := env.description
  desiredState := env.desiredState
  status := env.status
  generation := env.generation

def MongoEnvironment.toDomain (m : MongoEnvironment) : Except Err Environment :=
  match newEnvironmentName m.name.scope m.name.envName with
  | .error err => .error err
  | .ok name =>
    rehydrateEnvironment name m.envType m.description m.desiredState m.status m.generation

namespace MongoRepository

def get (name : EnvironmentName) : Prog (Except Err Environment) := do
  match ← findOne name with
  | .error err => return .error err
  | .ok none => return .error (.of .errNotFound)
  | .ok (some doc) => return doc.toDomain

def create (env : Environment) : Prog (Except Err Unit) := do
  match ← insertOne (mongoEnvironmentFromDomain env) with
  | .error err => return .error err
  | .ok false => return .error (.of .errAlreadyExists)
  | .ok true => return .ok ()

def desiredUpdate (desiredState : Option DesiredState) (desired : EnvironmentDesired) : Update where
  desired := some desired
  desiredState := desiredState
  incGeneration := true

/-- Updates the desired state with a generation precondition. -/
def updateDesired (name : EnvironmentName) (expectedGeneration : Nat)
    (desiredState : Option DesiredState) (desired : EnvironmentDesired) :
    Prog (Except Err Unit) := do
  match ← updateOne ⟨name,expectedGeneration,none⟩ (desiredUpdate desiredState desired) with
  | .error err => return .error err
  | .ok matchedCount =>
    if matchedCount = 0 then return .error (.of .errStaleGeneration) else return .ok ()

/-- Only the non-zero fields of a status are written; the services always are. -/
def statusUpdate (toStatus : EnvironmentStatus) : Update where
  state := some toStatus.state
  message := if toStatus.message = "" then none else some toStatus.message
  observedGeneration :=
    if toStatus.observedGeneration = 0 then none else some toStatus.observedGeneration
  services := some toStatus.services

def transitionStatus (name : EnvironmentName) (expectedGeneration : Nat)
    (fromState : EnvironmentState) (toStatus : EnvironmentStatus) : Prog (Except Err Unit) := do
  match ← updateOne ⟨name,expectedGeneration,some fromState⟩ (statusUpdate toStatus) with
  | .error err => return .error err
  | .ok matchedCount =>
    if matchedCount = 0 then
      match ← findOne name with
      | .error err => return .error err
      | .ok none => return .error (.of .errNotFound)
      | .ok (some doc) =>
        if doc.generation ≠ expectedGeneration then return .error (.of .errStaleGeneration)
        else return .error (.of .errStaleState)
    else return .ok ()

/-- Removes an environment by name, with no other precondition. -/
def delete (name : EnvironmentName) : Prog (Except Err Unit) := do
  match ← deleteOne name with
  | .error err => return .error err
  | .ok deletedCount =>
    if deletedCount = 0 then return .error (.of .errNotFound) else return .ok ()

end MongoRepository

end Dominion.Deploy
