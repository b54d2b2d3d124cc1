import Dominion.Deploy.Service.Reconcile

/-! # The deploy worker

The worker drains the queue, one iteration of its loop for each dequeued environment. -/
namespace Dominion.Deploy.Worker

open Dominion.Framework Dominion.Deploy.Domain

def defaultMaxRetries : Nat := 15

/-- Thirty seconds. -/
def maxRetryDelay : Nat := 30000000000

def retryBackoff (retryCount : Nat) : Nat :=
  min (1000000000 * (1 <<< retryCount)) maxRetryDelay

/-- Re-enqueues the item if the result, where there is one, says to continue. -/
def maybeRequeue (item : WorkItem) (result : Option ProcessResult) : Prog Unit :=
  match result with
  | none => return ()
  | some result =>
    if result.terminal then return ()
    else if result.changed ∨ 0 < result.requeueAfter then
      enqueueAfter ⟨item.envName,item.retryCount,result.source⟩ result.requeueAfter
    else return ()

/-- What an iteration of the loop processed, and what the reconciler answered it. -/
structure Iteration where
  item : WorkItem
  processed : Except Err ProcessResult
  exhausted : Option (Except Err ProcessResult)

/-- The continuation of an iteration whose item exhausted its retries. -/
def exhaust (item : WorkItem) : Prog (Except Err ProcessResult) := do
  let exhausted ← ReconcileService.markRetryExhausted item.envName
  maybeRequeue item exhausted.toOption
  return exhausted

def process (maxRetries : Nat) (item : WorkItem) : Prog Iteration := do
  let processed ← ReconcileService.processOne item.envName
  complete item.envName
  match processed with
  | .ok result =>
    maybeRequeue item (some result)
    return ⟨item,processed,none⟩
  | .error err =>
    if err.is .errRetryCounted then
      if maxRetries ≤ item.retryCount then
        let exhausted ← exhaust item
        return ⟨item,processed,some exhausted⟩
      else
        enqueueAfter ⟨item.envName,item.retryCount + 1,.retry⟩ (retryBackoff item.retryCount)
        return ⟨item,processed,none⟩
    -- A cancelled or timed-out iteration and any other error are dropped alike.
    else return ⟨item,processed,none⟩

/-- One iteration of `Run`; a token that has no item is skipped. -/
def iterate (maxRetries : Nat) : Prog (Option Iteration) := do
  let envName ← receive
  match ← markInFlight envName with
  | none => return none
  | some item =>
    let iteration ← process maxRetries item
    return some iteration

end Dominion.Deploy.Worker
