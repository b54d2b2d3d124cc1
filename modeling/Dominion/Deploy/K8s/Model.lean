import Dominion.Deploy.Domain.Environment
import Dominion.Deploy.K8s.Naming

/-! # Workloads

What the runtime builds its objects from.  Quantities are those of `resource.Quantity`, of
which only the operations below are used. -/
namespace Dominion.Deploy.K8s

open Dominion.Framework
open Dominion.Deploy.Domain (ConfigBlock EnvironmentType Err SecretBinding)

class Quantity (Q : Type) where
  zero : Q
  isZero : Q → Bool
  /-- `resource.ParseQuantity`. -/
  parse : String → Except Err Q
  cmp : Q → Q → Ordering
  text : Q → String

structure DeploymentPort where
  name : String
  port : Int
  deriving DecidableEq

/-- The fields of a `DeploymentWorkload` and of a `StatefulWorkload`. -/
structure ArtifactWorkload where
  tlsEnabled : Bool
  ossEnabled : Bool
  serviceName : String
  environmentName : String
  app : String
  image : String
  replicas : Int
  ports : List DeploymentPort
  envType : EnvironmentType
  env : List (String × String)
  secretBindings : List SecretBinding
  configBlocks : List ConfigBlock

structure DeploymentWorkload extends ArtifactWorkload

structure StatefulWorkload extends ArtifactWorkload

namespace DeploymentWorkload

def workloadName (w : DeploymentWorkload) : String :=
  newObjectName .deployment w.environmentName w.serviceName

def serviceResourceName (w : DeploymentWorkload) : String :=
  newObjectName .service w.environmentName w.serviceName

end DeploymentWorkload

def requireNotBlank (value message : String) : Except Err Unit :=
  if Text.trimSpace value = "" then .error (.new message) else .ok ()

/-- The checks on one port. -/
def DeploymentPort.validate (what : String) (p : DeploymentPort) : Except Err Unit := do
  requireNotBlank p.name (what ++ " 存在空端口名")
  if p.port < 1 ∨ 65535 < p.port then .error (.new (s!"{what} 端口 {p.port} 非法")) else .ok ()

namespace StatefulWorkload

def workloadName (w : StatefulWorkload) : String :=
  newObjectName .statefulSet w.environmentName w.serviceName

def serviceResourceName (w : StatefulWorkload) : String :=
  newObjectName .service w.environmentName w.serviceName

def validate (w : StatefulWorkload) : Except Err Unit := do
  requireNotBlank w.serviceName "stateful workload 缺少 service name"
  requireNotBlank w.environmentName "stateful workload 缺少 environment name"
  requireNotBlank w.app "stateful workload 缺少 app"
  requireNotBlank w.image "stateful workload 缺少 image"
  if maxK8sResourceNameSize < byteLength w.workloadName then
    .error (.new "stateful workload name 超过 63 字符")
  else if w.replicas < 0 then .error (.new "stateful workload replicas 不能小于 0")
  else w.ports.forM (DeploymentPort.validate "stateful workload")

end StatefulWorkload

structure HTTPRoutePathMatch where
  type : String
  value : String
  backendName : String
  backendPort : Int

structure HTTPRouteWorkload where
  serviceName : String
  environmentName : String
  app : String
  hostnames : List String
  «matches» : List HTTPRoutePathMatch
  backendService : String
  gatewayName : String
  gatewayNamespace : String
  envType : EnvironmentType

def HTTPRouteWorkload.resourceName (w : HTTPRouteWorkload) : String :=
  newObjectName .httpRoute w.environmentName w.serviceName

structure PersistenceConfig (Q : Type) where
  enabled : Bool
  capacity : Q

/-- The fields of a `MongoDBWorkload` and of a `RedisWorkload`. -/
structure InfraWorkload (Q : Type) where
  serviceName : String
  environmentName : String
  app : String
  profileName : String
  persistence : PersistenceConfig Q

structure MongoDBWorkload (Q : Type) extends InfraWorkload Q

structure RedisWorkload (Q : Type) extends InfraWorkload Q

namespace InfraWorkload

variable {Q : Type}

def serviceResourceName (w : InfraWorkload Q) : String :=
  newObjectName .service w.environmentName w.serviceName

def pvcResourceName (w : InfraWorkload Q) : String :=
  newObjectName .pvc w.environmentName w.serviceName

/-- The checks of both kinds, with the kind's word in the messages. -/
def validate (w : InfraWorkload Q) (what resourceName : String) : Except Err Unit := do
  requireNotBlank w.serviceName (what ++ " workload 缺少 service name")
  requireNotBlank w.environmentName (what ++ " workload 缺少 environment name")
  requireNotBlank w.app (what ++ " workload 缺少 app")
  if maxK8sResourceNameSize < byteLength resourceName then
    .error (.new (what ++ " workload name 超过 63 字符"))
  else requireNotBlank w.profileName (what ++ " workload 缺少 profile name")

end InfraWorkload

namespace MongoDBWorkload

variable {Q : Type}

def resourceName (w : MongoDBWorkload Q) : String :=
  newObjectName .mongoDB w.environmentName w.serviceName

def validate (w : MongoDBWorkload Q) : Except Err Unit :=
  w.toInfraWorkload.validate "mongo" w.resourceName

end MongoDBWorkload

namespace RedisWorkload

variable {Q : Type}

def resourceName (w : RedisWorkload Q) : String :=
  newObjectName .redis w.environmentName w.serviceName

def validate (w : RedisWorkload Q) : Except Err Unit :=
  w.toInfraWorkload.validate "redis" w.resourceName

end RedisWorkload

end Dominion.Deploy.K8s
