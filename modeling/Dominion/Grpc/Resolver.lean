import Dominion.Framework.Addresses
import Dominion.Framework.Ecma
import Dominion.Framework.Lts

/-! # The resolver of a gRPC channel

A resolver of either scheme resolves its target again and again and calls the channel's listener
with the outcomes.  Its resolutions overlap, and every call of the listener is deferred. -/
namespace Dominion.Grpc

open Dominion.Framework

/-! ## Endpoints -/

structure Endpoint where
  host : String
  port : Int
  deriving DecidableEq

def isDigit (c : Char) : Bool :=
  decide ('0' ≤ c) && decide (c ≤ '9')

/-- `parseInt(s, 10)`; `none` is `NaN`. -/
def parseInt (cs : List Char) : Option Int :=
  let trimmed := cs.dropWhile Ecma.isWhiteSpace
  let negative := decide (trimmed.head? = some '-')
  let unsigned := if negative ∨ trimmed.head? = some '+' then trimmed.tail else trimmed
  let digits := unsigned.takeWhile isDigit
  let value : Nat := digits.foldl (fun n c => 10 * n + (c.toNat - 48)) 0
  if digits = [] then none else some (if negative then -(value : Int) else value)

def addressToEndpoint (addr : String) : Endpoint :=
  match cutLast ':' addr.toList with
  | none => ⟨addr,0⟩
  | some (host,port) => ⟨String.ofList host,(parseInt port).getD 0⟩

def addressesToEndpoints (addresses : List String) : List Endpoint :=
  addresses.map addressToEndpoint

/-- The comparison of `endpointsKey`: a list of endpoints and its JSON text determine each other. -/
def sameEndpoints (endpoints endpoints' : List Endpoint) : Bool :=
  decide (endpoints = endpoints')

/-! ## State -/

/-- The target of a resolver of one of the two classes. -/
inductive ResolverTarget where
  | dominion (targetStr : String)
  | stateful (targetStr : String) (instanceNum : Int)

/-- The message for an empty list of addresses. -/
def ResolverTarget.emptyMessage : ResolverTarget → String
  | dominion targetStr => "no endpoints resolved for " ++ targetStr
  | stateful targetStr instanceNum =>
    "no endpoints resolved for " ++ targetStr ++ "?instance=" ++ instanceNum.repr

inductive ResolverState where
  | unresolved
  | ready (addresses : List String) (endpoints : List Endpoint)
  | closed
  deriving DecidableEq

/-- What the listener is called with; an error has the code `UNAVAILABLE`. -/
inductive StatusOr where
  | value (endpoints : List Endpoint)
  | error (details : String)
  deriving DecidableEq

/-- A callback of `setImmediate`. -/
inductive Immediate where
  | doRefresh
  | emit (status : StatusOr)
  deriving DecidableEq

/-- The resolver, with its deferred callbacks, its running resolutions in the order in which they
were started, and the calls of the listener. -/
structure Resolver where
  state : ResolverState := .unresolved
  refreshHandle : Bool := true
  lastRefreshFailed : Bool := false
  immediates : List Immediate := [.doRefresh]
  running : List Nat := []
  started : Nat := 0
  calls : List StatusOr := []
  deriving DecidableEq

/-- How a resolution ends. -/
inductive Outcome where
  | addresses (addresses : List String)
  | failed (message : String)
  deriving DecidableEq

namespace Resolver

def closed (r : Resolver) : Bool :=
  decide (r.state = .closed)

def defer (r : Resolver) (callback : Immediate) : Resolver :=
  { r with immediates := r.immediates ++ [callback] }

def updateResolution (r : Resolver) : Resolver :=
  if r.closed then r else r.defer .doRefresh

def destroy (r : Resolver) : Resolver :=
  if r.closed then r else { r with state := .closed,refreshHandle := false }

/-- `_doRefresh` up to the await of the resolution. -/
def doRefresh (r : Resolver) : Resolver :=
  if r.closed then r
  else { r with running := r.running ++ [r.started],started := r.started + 1 }

def ready (r : Resolver) : Bool :=
  match r.state with
  | .ready _ _ => true
  | _ => false

/-- The endpoints are those that the listener has been told, and no failure came after. -/
def unchanged (r : Resolver) (endpoints : List Endpoint) : Bool :=
  match r.state with
  | .ready _ previous => !r.lastRefreshFailed && sameEndpoints endpoints previous
  | _ => false

/-- `_doRefresh` after the await. -/
def settled (t : ResolverTarget) (r : Resolver) : Outcome → Resolver
  | .addresses [] =>
    if r.ready then r
    else { r with lastRefreshFailed := true }.defer (.emit (.error t.emptyMessage))
  | .addresses addresses =>
    let endpoints := addressesToEndpoints addresses
    if r.unchanged endpoints then r
    else { r with state := .ready addresses endpoints,lastRefreshFailed := false }.defer
      (.emit (.value endpoints))
  | .failed message => { r with lastRefreshFailed := true }.defer (.emit (.error message))

def emit (r : Resolver) (status : StatusOr) : Resolver :=
  if r.closed then r else { r with calls := r.calls ++ [status] }

end Resolver

/-! ## Runs -/

inductive Event where
  | updateResolution
  /-- The refresh interval. -/
  | tick
  /-- The first deferred callback runs. -/
  | immediate
  | complete (id : Nat) (outcome : Outcome)
  | destroy
  deriving DecidableEq

def step (t : ResolverTarget) (r : Resolver) : Event → Option Resolver
  | .updateResolution => some r.updateResolution
  | .tick => if r.refreshHandle then some r.doRefresh else none
  | .immediate =>
    match r.immediates with
    | [] => none
    | .doRefresh :: rest => some { r with immediates := rest }.doRefresh
    | .emit status :: rest => some ({ r with immediates := rest }.emit status)
  | .complete id outcome =>
    if id ∈ r.running then some ({ r with running := r.running.erase id }.settled t outcome)
    else none
  | .destroy => some r.destroy

/-- A resolver from its constructor on. -/
def resolver (t : ResolverTarget) : Lts Resolver Event where
  init r := r = {}
  step := step t

end Dominion.Grpc
