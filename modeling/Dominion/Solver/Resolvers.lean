import Dominion.Deploy.K8s.Endpoints
import Dominion.Solver.Target

/-! # Resolvers

A target is resolved through the cluster, from the EndpointSlices of its Service, or through the
deploy service, from the endpoints that the runtime answers. -/
namespace Dominion.Solver

open Dominion.Framework
open Dominion.Deploy.Domain (Err goQuote)
open Dominion.Deploy.K8s (Discovery Endpoint EndpointPort EndpointSlice Labels ServiceQueryResult
  includeEndpoint queryServiceEndpoints selectorText)

/-! ## Environment of the process -/

def serviceAppEnvKey : String := "SERVICE_APP"

def dominionEnvironmentEnvKey : String := "DOMINION_ENVIRONMENT"

def podNamespaceEnvKey : String := "POD_NAMESPACE"

structure ProcessEnvironment where
  name : String
  app : String
  «namespace» : String

def lookupRequiredEnv (lookupEnv : String → Option String) (key : String) : Except Err String :=
  match lookupEnv key with
  | none => .error (.new ("missing required env " ++ key))
  | some value =>
    if Text.trimSpace value = "" then .error (.new ("missing required env " ++ key))
    else .ok (Text.trimSpace value)

def loadEnvironment (lookupEnv : String → Option String) (target : Target) :
    Except Err ProcessEnvironment := do
  let app ← lookupRequiredEnv lookupEnv serviceAppEnvKey
  if target.app ≠ app then
    .error (.new ("target app " ++ goQuote target.app ++ " does not match " ++ serviceAppEnvKey ++
      " " ++ goQuote app))
  else do
    let name ← lookupRequiredEnv lookupEnv dominionEnvironmentEnvKey
    let «namespace» ← lookupRequiredEnv lookupEnv podNamespaceEnvKey
    return ⟨name,app,«namespace»⟩

/-! ## Through the cluster -/

def serviceAppLabelKey : String := "app.kubernetes.io/name"

def serviceComponentLabelKey : String := "app.kubernetes.io/component"

def serviceDominionEnvironmentLabelKey : String := "dominion.io/environment"

def buildServiceSelector (target : Target) (env : ProcessEnvironment) : Labels :=
  [(serviceAppLabelKey,target.app),(serviceComponentLabelKey,target.service),
    (serviceDominionEnvironmentLabelKey,env.name)]

def endpointSlicePorts (endpointSlice : EndpointSlice) (portSelector : PortSelector) : List Int :=
  if portSelector.isNumeric then [portSelector.numeric]
  else if portSelector.isNamed then
    ((endpointSlice.ports.find? fun p =>
      p.port.isSome && decide (p.name = some portSelector.name)).bind EndpointPort.port).toList
  else endpointSlice.ports.filterMap EndpointPort.port

def expandEndpointSliceAddresses (endpointSlices : List EndpointSlice)
    (portSelector : PortSelector) : List String :=
  sortUnique (endpointSlices.flatMap fun endpointSlice =>
    let ports := endpointSlicePorts endpointSlice portSelector
    (endpointSlice.endpoints.filter includeEndpoint).flatMap fun endpoint =>
      ((endpoint.addresses.map Text.trimSpace).filter (· ≠ "")).flatMap fun ip =>
        ports.map fun port => joinHostPort ip port.repr)

/-- `K8sResolver.Resolve`, for the namespaces of the cluster. -/
def resolveK8s (lookupEnv : String → Option String) (cluster : String → Discovery)
    (target : Target) : Except Err (List String) := do
  let env ← loadEnvironment lookupEnv target
  let selector := buildServiceSelector target env
  let view := cluster env.namespace
  let where_ := "resolve service for target " ++ goQuote target.app ++ "/" ++
    goQuote target.service ++ " in namespace " ++ goQuote env.namespace ++ ": "
  match view.listServices selector with
  | [] => .error (.new (where_ ++ "no Services matched selector " ++ goQuote (selectorText selector)))
  | [svc] =>
    .ok (expandEndpointSliceAddresses (view.listServiceEndpointSlices svc.metadata.name)
      target.portSelector)
  | services => .error (.new (where_ ++ "expected exactly one Service for selector " ++
      goQuote (selectorText selector) ++ ", found " ++ services.length.repr ++ " (" ++
      ", ".intercalate ((services.map fun svc => svc.metadata.name).insertionSort (· ≤ ·)) ++ ")"))

/-! ## Through the deploy service -/

def filterByNumericPort (endpoints : List String) (port : Int) : List String :=
  sortUnique (endpoints.filterMap fun ep =>
    (splitHostPort ep).bind fun hp =>
      if hp.2 = port.repr then some (joinHostPort hp.1 port.repr) else none)

def filterByNamedPort (endpoints : List String) (port : Int) : List String :=
  sortUnique (endpoints.filterMap fun ep =>
    (splitHostPort ep).map fun hp => joinHostPort hp.1 port.repr)

def filterEndpoints (endpoints : List String) (ports : Store String Int) (ps : PortSelector) :
    Except Err (List String) :=
  if endpoints = [] then .ok []
  else if ps.isNumeric then .ok (filterByNumericPort endpoints ps.numeric)
  else if ps.isNamed then
    match ports.lookup ps.name with
    | none => .error (.new ("named port " ++ goQuote ps.name ++ " not found in service endpoints"))
    | some portValue => .ok (filterByNamedPort endpoints portValue)
  else .ok endpoints

/-- `QueryServiceEndpoints` for the environment's label, then `filterEndpoints`. -/
def resolveDeploy (view : Discovery) (envLabel : String) (target : Target) :
    Except Err (List String) := do
  let info ← queryServiceEndpoints view envLabel target.app target.service
  filterEndpoints info.endpoints info.ports target.portSelector

end Dominion.Solver
