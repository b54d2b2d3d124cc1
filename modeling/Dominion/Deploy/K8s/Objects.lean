import Mathlib.Data.List.AList
import Dominion.Deploy.K8s.Labels

/-! # Kubernetes objects

The fields of the API objects that the deploy runtime writes. -/
namespace Dominion.Deploy.K8s

structure ObjectMeta where
  name : String
  «namespace» : String
  labels : Labels
  deriving DecidableEq

/-- An object of some kind; the data of a ConfigMap stand in the place of a spec. -/
structure Object (Spec : Type) where
  metadata : ObjectMeta
  spec : Spec
  deriving DecidableEq

inductive EnvVarSource where
  | value (value : String)
  | secretKeyRef (name key : String)
  | fieldRef (fieldPath : String)
  deriving DecidableEq

structure EnvVar where
  name : String
  source : EnvVarSource
  deriving DecidableEq

structure KeyToPath where
  key : String
  path : String
  deriving DecidableEq

inductive VolumeProjection where
  | secret (name : String) (items : List KeyToPath)
  | configMap (name : String) (items : List KeyToPath)
  deriving DecidableEq

inductive VolumeSource where
  | projected (sources : List VolumeProjection)
  | persistentVolumeClaim (claimName : String)
  | emptyDir
  deriving DecidableEq

structure Volume where
  name : String
  source : VolumeSource
  deriving DecidableEq

structure VolumeMount where
  name : String
  mountPath : String
  readOnly : Bool := false
  deriving DecidableEq

inductive ProbeHandler where
  | httpGet (path : String) (port : Nat)
  | tcpSocket (portName : String)
  deriving DecidableEq

/-- A probe; zero leaves a field to the server's default. -/
structure Probe where
  handler : ProbeHandler
  periodSeconds : Nat := 0
  failureThreshold : Nat := 0
  deriving DecidableEq

structure ContainerPort where
  name : String
  containerPort : Int
  deriving DecidableEq

structure Container where
  name : String
  image : String
  command : List String := []
  ports : List ContainerPort := []
  env : List EnvVar
  volumeMounts : List VolumeMount
  startupProbe : Option Probe := none
  livenessProbe : Option Probe := none
  readinessProbe : Option Probe := none
  deriving DecidableEq

structure PodTemplateSpec where
  labels : Labels
  volumes : List Volume
  initContainers : List Container := []
  containers : List Container
  deriving DecidableEq

inductive DeploymentStrategyType where
  | unset
  | recreate
  deriving DecidableEq

structure DeploymentSpec where
  replicas : Int
  strategy : DeploymentStrategyType := .unset
  selector : Labels
  template : PodTemplateSpec
  deriving DecidableEq

structure StatefulSetSpec where
  serviceName : String
  replicas : Int
  selector : Labels
  template : PodTemplateSpec
  deriving DecidableEq

structure ServicePort where
  name : String
  port : Int
  targetPort : String
  deriving DecidableEq

/-- `corev1.ClusterIPNone`. -/
def clusterIPNone : String := "None"

structure ServiceSpec where
  clusterIP : String := ""
  clusterIPs : List String := []
  ipFamilies : List String := []
  ipFamilyPolicy : Option String := none
  healthCheckNodePort : Int := 0
  allocateLoadBalancerNodePorts : Option Bool := none
  selector : Labels
  ports : List ServicePort
  deriving DecidableEq

structure PersistentVolumeClaimSpec (Quantity : Type) where
  storageClassName : Option String
  accessModes : List String
  volumeMode : Option String
  /-- The requested storage. -/
  storage : Option Quantity

structure HTTPHeaderMatch where
  name : String
  value : String
  deriving DecidableEq

/-- A rule with its one path match and its one backend. -/
structure HTTPRouteRuleSpec where
  pathType : String
  pathValue : String
  headers : List HTTPHeaderMatch
  backendName : String
  backendPort : Int
  deriving DecidableEq

structure HTTPRouteSpec where
  hostnames : List String
  gatewayName : String
  gatewayNamespace : String
  rules : List HTTPRouteRuleSpec
  deriving DecidableEq

/-- The data of a ConfigMap, as the entries of a map. -/
abbrev ConfigMapData := List (String × String)

abbrev Deployment := Object DeploymentSpec

abbrev StatefulSet := Object StatefulSetSpec

abbrev Service := Object ServiceSpec

abbrev HTTPRoute := Object HTTPRouteSpec

abbrev ConfigMap := Object ConfigMapData

abbrev PersistentVolumeClaim (Quantity : Type) := Object (PersistentVolumeClaimSpec Quantity)

end Dominion.Deploy.K8s
