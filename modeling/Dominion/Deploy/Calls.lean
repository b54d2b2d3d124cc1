import Dominion.Framework.CallTree
import Dominion.Deploy.Domain.Environment

/-! # The calls of the deploy service

The service's programs act through the operations of the environment collection, of the cluster
runtime and of the work queue. -/
namespace Dominion.Deploy

open Dominion.Framework Dominion.Deploy.Domain

/-- `mongoEnvironment` without its `_id`. -/
structure MongoEnvironment where
  name : EnvironmentName
  envType : EnvironmentType
  description : String
  desiredState : DesiredState
  status : EnvironmentStatus
  generation : Nat

structure Filter where
  name : EnvironmentName
  generation : Nat
  state : Option EnvironmentState

/-- The `$set` fields that are present, and whether `$inc` raises the generation by one. -/
structure Update where
  desired : Option EnvironmentDesired := none
  desiredState : Option DesiredState := none
  state : Option EnvironmentState := none
  message : Option String := none
  observedGeneration : Option Nat := none
  services : Option (List ServiceStatus) := none
  incGeneration : Bool := false

def Filter.accepts (f : Filter) (d : MongoEnvironment) : Bool :=
  decide (d.name = f.name) && decide (d.generation = f.generation) &&
    f.state.all fun s => decide (d.status.state = s)

def Update.apply (u : Update) (d : MongoEnvironment) : MongoEnvironment :=
  { d with
    desiredState := u.desiredState.getD d.desiredState
    generation := if u.incGeneration then d.generation + 1 else d.generation
    status := {
      desired := u.desired.getD d.status.desired
      state := u.state.getD d.status.state
      observedGeneration := u.observedGeneration.getD d.status.observedGeneration
      message := u.message.getD d.status.message
      services := u.services.getD d.status.services } }

inductive Call where
  | findOne (name : EnvironmentName)
  | insertOne (doc : MongoEnvironment)
  | updateOne (filter : Filter) (update : Update)
  | deleteOne (name : EnvironmentName)
  | reservedEnvironmentVariableNames
  | applyResources (env : Environment)
  | checkRollout (env : Environment)
  | runtimeDelete (name : EnvironmentName)
  | enqueue (name : EnvironmentName)
  | enqueueAfter (item : WorkItem) (delay : Nat)
  | receive
  | markInFlight (name : EnvironmentName)
  | complete (name : EnvironmentName)

/-- `insertOne` answers whether the document was inserted or its name is a duplicate key, and
`updateOne` and `deleteOne` answer the number of documents matched and deleted. -/
def Call.Answer : Call → Type
  | findOne _ => Except Err (Option MongoEnvironment)
  | insertOne _ => Except Err Bool
  | updateOne _ _ => Except Err Nat
  | deleteOne _ => Except Err Nat
  | reservedEnvironmentVariableNames => Except Err (List String)
  | applyResources _ => Except Err Unit
  | checkRollout _ => Except Err RolloutStatus
  | runtimeDelete _ => Except Err Unit
  | enqueue _ => Unit
  | enqueueAfter _ _ => Unit
  | receive => EnvironmentName
  | markInFlight _ => Option WorkItem
  | complete _ => Unit

abbrev Prog := CallTree Call Call.Answer

def findOne (name : EnvironmentName) : Prog (Except Err (Option MongoEnvironment)) :=
  CallTree.perform (Call.findOne name)

def insertOne (doc : MongoEnvironment) : Prog (Except Err Bool) :=
  CallTree.perform (Call.insertOne doc)

def updateOne (filter : Filter) (update : Update) : Prog (Except Err Nat) :=
  CallTree.perform (Call.updateOne filter update)

def deleteOne (name : EnvironmentName) : Prog (Except Err Nat) :=
  CallTree.perform (Call.deleteOne name)

def reservedEnvironmentVariableNames : Prog (Except Err (List String)) :=
  CallTree.perform Call.reservedEnvironmentVariableNames

def applyResources (env : Environment) : Prog (Except Err Unit) :=
  CallTree.perform (Call.applyResources env)

def checkRollout (env : Environment) : Prog (Except Err RolloutStatus) :=
  CallTree.perform (Call.checkRollout env)

def runtimeDelete (name : EnvironmentName) : Prog (Except Err Unit) :=
  CallTree.perform (Call.runtimeDelete name)

def enqueue (name : EnvironmentName) : Prog Unit :=
  CallTree.perform (Call.enqueue name)

def enqueueAfter (item : WorkItem) (delay : Nat) : Prog Unit :=
  CallTree.perform (Call.enqueueAfter item delay)

def receive : Prog EnvironmentName :=
  CallTree.perform Call.receive

def markInFlight (name : EnvironmentName) : Prog (Option WorkItem) :=
  CallTree.perform (Call.markInFlight name)

def complete (name : EnvironmentName) : Prog Unit :=
  CallTree.perform (Call.complete name)

end Dominion.Deploy
