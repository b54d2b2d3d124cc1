import Dominion.Deploy.Service.Command
import Dominion.Deploy.Worker

/-! # The deploy service as a whole

Any number of API threads run commands and one worker thread runs its loop against one store,
one cluster and one queue.  Every store, runtime and queue call is a step of its own. -/
namespace Dominion.Deploy

open Dominion.Framework Dominion.Deploy.Domain

inductive Tid where
  | api (i : Nat)
  | worker
  deriving DecidableEq

structure Stored where
  id : Nat
  doc : MongoEnvironment

/-- What a thread read from the store last, with the history of the name at that time. -/
structure Read where
  stored : Stored
  writes : Nat
  removals : Nat
  everAbsent : Bool

structure World where
  docs : EnvironmentName → Option Stored
  nextId : Nat
  /-- The desired state of the last successful `ApplyResources`. -/
  applied : EnvironmentName → Option DesiredState
  queue : Queue
  timers : List WorkItem
  /-- History: each thread's last read. -/
  reads : Tid → Option Read
  /-- History: the successful inserts, desired-state updates and removals of a name. -/
  writes : EnvironmentName → Nat
  removals : EnvironmentName → Nat
  /-- History: the stored incarnation has been `Absent`. -/
  everAbsent : EnvironmentName → Bool
  /-- History: a runtime `Delete` succeeded since the stored incarnation entered `Deleting`. -/
  deleted : EnvironmentName → Bool
  /-- History: writes of commands whose `Enqueue` has not been made. -/
  owed : EnvironmentName → Nat
  /-- History: a status write has taken the environment out of `Deleting`. -/
  leftDeleting : EnvironmentName → Bool

def World.initial : World where
  docs _ := none
  nextId := 0
  applied _ := none
  queue := newQueue
  timers := []
  reads _ := none
  writes _ := 0
  removals _ := 0
  everAbsent _ := false
  deleted _ := false
  owed _ := 0
  leftDeleting _ := false

/-- A failure of the store driver: no domain sentinel is among its errors. -/
inductive Fault where
  | canceled
  | deadlineExceeded
  | driver (text : String)

def Fault.err : Fault → Err
  | canceled => .of .contextCanceled
  | deadlineExceeded => .of .contextDeadlineExceeded
  | driver text => .new text

/-- How a call goes: a store call may also fail after it took effect. -/
inductive Choice where
  | done
  | fail (fault : Fault)
  | lost (fault : Fault)
  | runtimeErr (err : Err)
  | reserved (names : List String)
  | rollout (status : RolloutStatus)

namespace World

def insert (w : World) (doc : MongoEnvironment) : World :=
  { w with
    docs := Function.update w.docs doc.name (some ⟨w.nextId,doc⟩)
    nextId := w.nextId + 1
    writes := Function.update w.writes doc.name (w.writes doc.name + 1)
    everAbsent := Function.update w.everAbsent doc.name (decide (doc.status.desired = .absent))
    deleted := Function.update w.deleted doc.name false
    owed := Function.update w.owed doc.name (w.owed doc.name + 1) }

/-- The effect of an update on the document it matched. -/
def write (w : World) (d : Stored) (u : Update) : World :=
  let n := d.doc.name
  let w := { w with docs := Function.update w.docs n (some ⟨d.id,u.apply d.doc⟩) }
  if u.incGeneration then
    { w with
      writes := Function.update w.writes n (w.writes n + 1)
      everAbsent := Function.update w.everAbsent n
        (w.everAbsent n || decide (u.desired = some .absent))
      owed := Function.update w.owed n (w.owed n + 1) }
  else
    { w with
      deleted := Function.update w.deleted n
        (w.deleted n && decide (u.state ≠ some .deleting))
      leftDeleting := Function.update w.leftDeleting n
        (w.leftDeleting n || (decide (d.doc.status.state = .deleting) &&
          decide ((u.apply d.doc).status.state ≠ .deleting))) }

def remove (w : World) (n : EnvironmentName) : World :=
  { w with
    docs := Function.update w.docs n none
    writes := Function.update w.writes n (w.writes n + 1)
    removals := Function.update w.removals n (w.removals n + 1) }

/-- The document a filter matches. -/
def matched (w : World) (f : Filter) : Option Stored :=
  (w.docs f.name).filter fun d => f.accepts d.doc

def read (w : World) (t : Tid) (n : EnvironmentName) : World :=
  { w with
    reads := Function.update w.reads t
      ((w.docs n).map fun d => ⟨d,w.writes n,w.removals n,w.everAbsent n⟩) }

/-- A call of the store: its effect, with its answer, unless it fails first. -/
def store {α : Type} (w effect : World) (answer : α) : Choice → Option (Except Err α × World)
  | .done => some (.ok answer,effect)
  | .fail fault => some (.error fault.err,w)
  | .lost fault => some (.error fault.err,effect)
  | _ => none

/-- A call of the runtime. -/
def runtime {α : Type} (w effect : World) (answer : α) : Choice → Option (Except Err α × World)
  | .done => some (.ok answer,effect)
  | .runtimeErr err => some (.error err,w)
  | _ => none

def insertOne (w : World) (doc : MongoEnvironment) (c : Choice) : Option (Except Err Bool × World) :=
  if (w.docs doc.name).isSome then w.store w false c else w.store (w.insert doc) true c

def updateOne (w : World) (f : Filter) (u : Update) (c : Choice) : Option (Except Err Nat × World) :=
  match w.matched f with
  | some d => w.store (w.write d u) 1 c
  | none => w.store w 0 c

def deleteOne (w : World) (n : EnvironmentName) (c : Choice) : Option (Except Err Nat × World) :=
  if (w.docs n).isSome then w.store (w.remove n) 1 c else w.store w 0 c

def exec (w : World) (t : Tid) (op : Call) (c : Choice) : Option (op.Answer × World) :=
  match op with
  | .findOne n => w.store (w.read t n) ((w.docs n).map Stored.doc) c
  | .insertOne doc => w.insertOne doc c
  | .updateOne f u => w.updateOne f u c
  | .deleteOne n => w.deleteOne n c
  | .reservedEnvironmentVariableNames =>
    match c with
    | .reserved names => some (.ok names,w)
    | .runtimeErr err => some (.error err,w)
    | _ => none
  | .applyResources env =>
    let effect := { w with
      applied := Function.update w.applied env.name (some env.desiredState) }
    w.runtime effect () c
  | .checkRollout _ =>
    match c with
    | .rollout status => some (.ok status,w)
    | .runtimeErr err => some (.error err,w)
    | _ => none
  | .runtimeDelete n =>
    let effect := { w with
      deleted := Function.update w.deleted n
        (w.deleted n || (w.docs n).any fun d => decide (d.doc.status.state = .deleting)) }
    w.runtime effect () c
  | .enqueue n =>
    match c with
    | .done => some ((),{ w with
        queue := w.queue.enqueue n
        owed := Function.update w.owed n (w.owed n - 1) })
    | _ => none
  | .enqueueAfter item delay =>
    match c with
    | .done => some ((),if delay = 0 then { w with queue := w.queue.enqueueNow item }
        else { w with timers := item :: w.timers })
    | _ => none
  | .receive =>
    match c with
    | .done => w.queue.receive.map fun r => (r.1,{ w with queue := r.2 })
    | _ => none
  | .markInFlight n =>
    match c with
    | .done => some (match w.queue.markInFlight n with
        | some (item,q) => (some item,{ w with queue := q })
        | none => (none,w))
    | _ => none
  | .complete n =>
    match c with
    | .done => some ((),{ w with queue := w.queue.complete n })
    | _ => none

/-- What happens beside the threads: a token is sent, a timer fires, and `Recover` enqueues. -/
inductive Tick where
  | send (name : EnvironmentName)
  | fire (item : WorkItem)
  | recover (name : EnvironmentName)

def tick (w : World) (e : Tick) : Option World :=
  match e with
  | .send n => (w.queue.send n).map fun q => { w with queue := q }
  | .fire item =>
    if item ∈ w.timers then
      some { w with queue := w.queue.enqueueNow item, timers := w.timers.erase item }
    else none
  | .recover n => some { w with queue := w.queue.enqueue n }

end World

inductive Request where
  | create (name : EnvironmentName) (envType : EnvironmentType) (description : String)
      (desiredState : Option DesiredState)
  | update (name : EnvironmentName) (desiredState : Option DesiredState)
  | delete (name : EnvironmentName)
  | iterate

inductive Reply where
  | environment (result : Except Err Environment)
  | done (result : Except Err Unit)
  | iteration (result : Option Worker.Iteration)

def program (maxRetries : Nat) : Tid → Request → Option (Prog Reply)
  | .api _,.create name envType description desiredState => some do
    return .environment (← EnvironmentCommandService.create name envType description desiredState)
  | .api _,.update name desiredState => some do
    return .environment (← EnvironmentCommandService.update name desiredState)
  | .api _,.delete name => some do
    return .done (← EnvironmentCommandService.delete name)
  | .worker,.iterate => some do
    return .iteration (← Worker.iterate maxRetries)
  | _,_ => none

def machine : Machine Tid Call Call.Answer Choice World.Tick World where
  exec t op c w := w.exec t op c
  tick e w := w.tick e

abbrev Service := Pool Tid Call Call.Answer Reply World

abbrev Service.Label := Pool.Label Tid Request Choice World.Tick

def Service.initial : Service := ⟨World.initial,fun _ => none⟩

/-- The runs of the service with the worker's retry limit `maxRetries`. -/
def Service.system (maxRetries : Nat) : Lts Service Service.Label :=
  Pool.system machine (program maxRetries) fun w => w = World.initial

namespace Service

theorem initial_reach {maxRetries : Nat} {C : Service → Label → Prop} :
    (system maxRetries).ReachUnder C initial :=
  .init ⟨rfl,rfl⟩

/-! Labels of commands and iterations, for concrete runs. -/

def createLabels (i : Nat) (n : EnvironmentName) (ds : DesiredState) : List Label :=
  [.start (.api i) (.create n .dev "" (some ds)),.call (.api i) .done,.call (.api i) (.reserved []),
    .call (.api i) .done,.call (.api i) .done]

/-- An update up to its write. -/
def updateReadLabels (i : Nat) (n : EnvironmentName) (ds : DesiredState) : List Label :=
  [.start (.api i) (.update n (some ds)),.call (.api i) .done,.call (.api i) (.reserved [])]

def updateLabels (i : Nat) (n : EnvironmentName) (ds : DesiredState) : List Label :=
  updateReadLabels i n ds ++ [.call (.api i) .done,.call (.api i) .done]

def deleteLabels (i : Nat) (n : EnvironmentName) : List Label :=
  [.start (.api i) (.delete n),.call (.api i) .done,.call (.api i) .done,.call (.api i) .done]

/-- The worker receives the token of `n`, marks it and makes `calls`. -/
def iterateLabels (n : EnvironmentName) (calls : List Choice) : List Label :=
  [.tick (.send n),.start .worker .iterate,.call .worker .done,.call .worker .done] ++
    calls.map (.call .worker)

end Service

/-- Two desired states of the concrete runs. -/
def demoEmpty : DesiredState := ⟨[],[]⟩

def demoCache : DesiredState := ⟨[],[⟨"redis","small","cache","shop",⟨false,""⟩⟩]⟩

end Dominion.Deploy
