import Dominion.Deploy.Storage.Mongo

/-! # The environment commands

Each command reads the environment, decides, writes, and enqueues it for reconciliation. -/
namespace Dominion.Deploy.EnvironmentCommandService

open Dominion.Framework Dominion.Deploy.Domain

def create (envName : EnvironmentName) (envType : EnvironmentType) (description : String)
    (desiredState : Option DesiredState) : Prog (Except Err Environment) := do
  match ← MongoRepository.get envName with
  | .ok _ => return .error (.of .errAlreadyExists)
  | .error err =>
    if err.is .errNotFound then
      match newEnvironment envName envType description desiredState with
      | .error err => return .error err
      | .ok env =>
        match ← reservedEnvironmentVariableNames with
        | .error err => return .error (err.withContext "获取保留环境变量失败: ")
        | .ok reservedEnvVars =>
          match env.validateEnvConflict reservedEnvVars with
          | .error err => return .error err
          | .ok () =>
            match ← MongoRepository.create env with
            | .error err => return .error err
            | .ok () =>
              enqueue envName
              return .ok env
    else return .error err

/-- The part of `update` after the environment was read. -/
def updateLoaded (envName : EnvironmentName) (env : Environment)
    (desiredState : Option DesiredState) : Prog (Except Err Environment) := do
  if env.status.state = .deleting then return .error (.of .errInvalidState)
  else
    match env.setDesiredPresent desiredState with
    | .error err => return .error err
    | .ok updated =>
      match ← reservedEnvironmentVariableNames with
      | .error err => return .error (err.withContext "获取保留环境变量失败: ")
      | .ok reservedEnvVars =>
        match updated.validateEnvConflict reservedEnvVars with
        | .error err => return .error err
        | .ok () =>
          match ← MongoRepository.updateDesired envName env.generation
              (some updated.desiredState) .present with
          | .error err => return .error err
          | .ok () =>
            enqueue envName
            return .ok updated

def update (envName : EnvironmentName) (desiredState : Option DesiredState) :
    Prog (Except Err Environment) := do
  match ← MongoRepository.get envName with
  | .error err => return .error err
  | .ok env => updateLoaded envName env desiredState

def delete (envName : EnvironmentName) : Prog (Except Err Unit) := do
  match ← MongoRepository.get envName with
  | .error err => return .error err
  | .ok env =>
    match ← MongoRepository.updateDesired envName env.generation none .absent with
    | .error err => return .error err
    | .ok () =>
      enqueue envName
      return .ok ()

end Dominion.Deploy.EnvironmentCommandService
