import Dominion.Framework.Addresses
import Dominion.Deploy.K8s.Cluster

/-! # Endpoints of a Service

What the runtime answers about the endpoints of a service of an environment. -/
namespace Dominion.Deploy.K8s

open Dominion.Framework
open Dominion.Deploy.Domain (Err)

/-- `discoveryv1.Endpoint`, with its conditions. -/
structure Endpoint where
  addresses : List String
  ready : Option Bool := none
  terminating : Option Bool := none
  deriving DecidableEq

structure EndpointPort where
  name : Option String
  port : Option Int
  deriving DecidableEq

structure EndpointSlice where
  labels : Labels
  endpoints : List Endpoint
  ports : List EndpointPort
  deriving DecidableEq

/-- `discoveryv1.LabelServiceName`. -/
def labelServiceName : String := "kubernetes.io/service-name"

/-- The Services and EndpointSlices of a namespace. -/
structure Discovery where
  services : Objects ServiceSpec
  endpointSlices : List EndpointSlice

namespace Discovery

def listServices (view : Discovery) (selector : Labels) : List Service :=
  (view.services.entries.filter fun o => selects selector o.2.metadata.labels).map Sigma.snd

def listServiceEndpointSlices (view : Discovery) (serviceName : String) : List EndpointSlice :=
  view.endpointSlices.filter fun slice => selects [(labelServiceName,serviceName)] slice.labels

end Discovery

/-- The text of a selector, `labels.Set.String`. -/
def selectorText (selector : Labels) : String :=
  ",".intercalate ((selector.map fun label => label.1 ++ "=" ++ label.2).insertionSort (· ≤ ·))

def includeEndpoint (endpoint : Endpoint) : Bool :=
  if endpoint.ready = some false then false
  else if endpoint.terminating = some true then false
  else true

def expandServiceEndpoints (endpointSlices : List EndpointSlice) (ports : Store String Int) :
    List String :=
  sortUnique (endpointSlices.flatMap fun slice =>
    (slice.endpoints.filter includeEndpoint).flatMap fun endpoint =>
      endpoint.addresses.flatMap fun ip =>
        ports.entries.map fun port => joinHostPort ip port.2.repr)

structure ServiceQueryResult where
  ports : Store String Int
  endpoints : List String

/-- The ports of a Service that have a name. -/
def servicePortMap (svc : Service) : Store String Int :=
  (svc.spec.ports.filter fun port => port.name ≠ "").foldl
    (fun ports port => ports.insert port.name port.port) ∅

def queryServiceEndpoints (view : Discovery) (envLabel app service : String) :
    Except Err ServiceQueryResult :=
  let matchLabels := buildLabels [withApp app,withService service,withDominionEnvironment envLabel]
  let selector := buildLabelSelector matchLabels
  match view.listServices selector with
  | [] => .error (.new "service does not exist")
  | [svc] =>
    let ports := servicePortMap svc
    if ports.entries = [] then .error (.new "service port map unavailable")
    else .ok {
      ports
      endpoints := expandServiceEndpoints (view.listServiceEndpointSlices svc.metadata.name) ports }
  | services => .error (.new ("expected exactly one Service, found " ++
      services.length.repr ++ " matching labels " ++ selectorText selector))

end Dominion.Deploy.K8s
