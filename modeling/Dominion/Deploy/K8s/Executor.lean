import Dominion.Deploy.K8s.Cluster
import Dominion.Deploy.K8s.Converter
import Dominion.Deploy.K8s.InfraBuilder

/-! # The executor

`ApplyResources` submits the objects of a desired state, kind after kind, and prunes the objects
of the environment that are not expected any more. -/
namespace Dominion.Deploy.K8s

open Dominion.Framework
open Dominion.Deploy.Domain (Environment Err)

variable {Q Spec : Type} [Quantity Q]

def resourceKindDeployment : String := "Deployment"

def resourceKindService : String := "Service"

def resourceKindPVC : String := "PersistentVolumeClaim"

def resourceKindStatefulSet : String := "StatefulSet"

def resourceKindConfigMap : String := "ConfigMap"

/-- What a builder made, or its error in the context of the resource. -/
def builtOrFail {α : Type} (what kind name : String) (result : Except Err α) : Runtime Q α :=
  match result with
  | .ok desired => pure desired
  | .error e => throw (e.withContext (what ++ " " ++ kind ++ " " ++ name ++ " 失败: "))

/-- Creates an object, or updates the live one. -/
def applyObject (client : Client Q Spec) (desired : Object Spec) : Runtime Q Unit := do
  match ← client.get desired.metadata.name with
  | none => client.put desired
  | some _ => client.put desired

/-- An update keeps what the server has assigned to the live Service. -/
def carryOver (current desired : Service) : Service :=
  { desired with spec := { desired.spec with
      clusterIP := current.spec.clusterIP
      clusterIPs := current.spec.clusterIPs
      ipFamilies := current.spec.ipFamilies
      ipFamilyPolicy := current.spec.ipFamilyPolicy
      healthCheckNodePort := current.spec.healthCheckNodePort
      allocateLoadBalancerNodePorts := current.spec.allocateLoadBalancerNodePorts } }

/-- `addresses` are the server's, by the name of the new Service. -/
def applyTypedService (addresses : String → Allocation) (desired : Service) : Runtime Q Unit := do
  match ← Client.services.get desired.metadata.name with
  | none => Client.services.put ((addresses desired.metadata.name).assign desired)
  | some current => Client.services.put (carryOver current desired)

/-- Creates a claim, or checks that the live one is compatible. -/
def applyPVC (check : PersistentVolumeClaim Q → Except Err Unit)
    (desired : PersistentVolumeClaim Q) : Runtime Q Unit := do
  match ← Client.pvcs.get desired.metadata.name with
  | none => Client.pvcs.put desired
  | some current =>
    match check current with
    | .ok () => pure ()
    | .error e => throw (e.withContext ("校验 " ++ resourceKindPVC ++ " " ++
        desired.metadata.namespace ++ "/" ++ desired.metadata.name ++ " 兼容性失败: "))

section Applies

variable (cfg : K8sConfig) (addresses : String → Allocation)

def applyConfigMaps (w : ArtifactWorkload) (workloadName : String) : Runtime Q Unit := do
  let desired ← builtOrFail "构建" resourceKindConfigMap workloadName
    (buildConfigMaps w workloadName cfg)
  desired.forM (applyObject Client.configMaps)

def applyDeployment (w : DeploymentWorkload) : Runtime Q Unit :=
  applyObject Client.deployments (buildDeployment w cfg)

def applyService (w : DeploymentWorkload) : Runtime Q Unit :=
  applyTypedService addresses (buildService w cfg)

def applyHTTPRoute (w : HTTPRouteWorkload) : Runtime Q Unit :=
  applyObject Client.httpRoutes (buildHTTPRoute w cfg)

def applyGoverningService (w : StatefulWorkload) : Runtime Q Unit := do
  applyTypedService addresses (← builtOrFail "构建 governing" resourceKindService w.serviceResourceName
    (buildGoverningService w cfg))

def applyStatefulSet (w : StatefulWorkload) : Runtime Q Unit := do
  applyObject Client.statefulSets (← builtOrFail "构建" resourceKindStatefulSet w.workloadName
    (buildStatefulSet w cfg))

def applyMongoDBPVC (w : MongoDBWorkload Q) : Runtime Q Unit := do
  applyPVC (fun existing => checkMongoDBPVCCompatibility existing w cfg)
    (← builtOrFail "构建" resourceKindPVC w.pvcResourceName (buildMongoDBPVC w cfg))

def applyMongoDBDeployment (w : MongoDBWorkload Q) : Runtime Q Unit := do
  applyObject Client.deployments (← builtOrFail "构建" resourceKindDeployment w.resourceName
    (buildMongoDBDeployment w cfg))

def applyMongoDBService (w : MongoDBWorkload Q) : Runtime Q Unit := do
  applyTypedService addresses (← builtOrFail "构建" resourceKindService w.serviceResourceName
    (buildMongoDBService w cfg))

def applyRedisPVC (w : RedisWorkload Q) : Runtime Q Unit := do
  applyPVC (fun existing => checkRedisPVCCompatibility existing w cfg)
    (← builtOrFail "构建" resourceKindPVC w.pvcResourceName (buildRedisPVC w cfg))

def applyRedisDeployment (w : RedisWorkload Q) : Runtime Q Unit := do
  applyObject Client.deployments (← builtOrFail "构建" resourceKindDeployment w.resourceName
    (buildRedisDeployment w cfg))

def applyRedisService (w : RedisWorkload Q) : Runtime Q Unit := do
  applyTypedService addresses (← builtOrFail "构建" resourceKindService w.serviceResourceName
    (buildRedisService w cfg))

/-- The body of the loop over the MongoDB workloads. -/
def applyMongoDB (w : MongoDBWorkload Q) : Runtime Q Unit := do
  if w.persistence.enabled then applyMongoDBPVC cfg w
  applyMongoDBDeployment cfg w
  applyMongoDBService cfg addresses w

/-- The body of the loop over the Redis workloads. -/
def applyRedis (w : RedisWorkload Q) : Runtime Q Unit := do
  if w.persistence.enabled then applyRedisPVC cfg w
  applyRedisDeployment cfg w
  applyRedisService cfg addresses w

end Applies

/-- The names of the resources that an apply keeps. -/
structure ExpectedApplyResources where
  deployments : List String
  services : List String
  httpRoutes : List String
  secrets : List String
  statefulSets : List String
  configMaps : List String

def configMapNames (workloadName : String) (w : ArtifactWorkload) : List String :=
  w.configBlocks.map fun cb => configMapName workloadName cb.block

def buildExpectedApplyResources (objects : DeployObjects Q) : ExpectedApplyResources where
  deployments := objects.deployments.map DeploymentWorkload.workloadName ++
    objects.mongoDBWorkloads.map MongoDBWorkload.resourceName ++
    objects.redisWorkloads.map RedisWorkload.resourceName
  services := objects.deployments.map DeploymentWorkload.serviceResourceName ++
    objects.mongoDBWorkloads.map (fun w => w.serviceResourceName) ++
    objects.redisWorkloads.map (fun w => w.serviceResourceName) ++
    objects.statefulWorkloads.map StatefulWorkload.serviceResourceName
  httpRoutes := objects.httpRoutes.map HTTPRouteWorkload.resourceName
  secrets := []
  statefulSets := objects.statefulWorkloads.map StatefulWorkload.workloadName
  configMaps :=
    objects.deployments.flatMap (fun w => configMapNames w.workloadName w.toArtifactWorkload) ++
    objects.statefulWorkloads.flatMap fun w => configMapNames w.workloadName w.toArtifactWorkload

/-- Deletes the objects with the labels whose names are not expected. -/
def pruneObjects (client : Client Q Spec) (matchLabels : Labels) (expected : List String) :
    Runtime Q Unit := do
  let listed ← client.list (buildLabelSelector matchLabels)
  listed.forM fun o =>
    if !hasAllLabels o.2.metadata.labels matchLabels then pure ()
    else if o.1 ∈ expected then pure ()
    else client.delete o.1

/-- The labels of the environment's objects. -/
def environmentLabels (cfg : K8sConfig) (fullEnvName : String) : Labels :=
  buildLabels [withDominionEnvironment fullEnvName,withManagedBy cfg.managedBy]

def pruneResources (cfg : K8sConfig) (fullEnvName : String) (objects : DeployObjects Q) :
    Runtime Q Unit := do
  let matchLabels := environmentLabels cfg fullEnvName
  let expected := buildExpectedApplyResources objects
  pruneObjects Client.httpRoutes matchLabels expected.httpRoutes
  pruneObjects Client.services matchLabels expected.services
  pruneObjects Client.statefulSets matchLabels expected.statefulSets
  pruneObjects Client.deployments matchLabels expected.deployments
  pruneObjects Client.secrets matchLabels expected.secrets
  pruneObjects Client.configMaps matchLabels expected.configMaps

/-- The loops of `applyInner` over the workloads. -/
def applyWorkloads (cfg : K8sConfig) (addresses : String → Allocation)
    (objects : DeployObjects Q) : Runtime Q Unit := do
  -- A ConfigMap comes before the workloads that project it.
  objects.deployments.forM fun w =>
    if w.configBlocks = [] then pure ()
    else applyConfigMaps cfg w.toArtifactWorkload w.workloadName
  objects.statefulWorkloads.forM fun w =>
    if w.configBlocks = [] then pure ()
    else applyConfigMaps cfg w.toArtifactWorkload w.workloadName
  objects.deployments.forM (applyDeployment cfg)
  objects.deployments.forM (applyService cfg addresses)
  objects.httpRoutes.forM (applyHTTPRoute cfg)
  objects.statefulWorkloads.forM (applyGoverningService cfg addresses)
  objects.statefulWorkloads.forM (applyStatefulSet cfg)
  objects.mongoDBWorkloads.forM (applyMongoDB cfg addresses)
  objects.redisWorkloads.forM (applyRedis cfg addresses)

def applyInner (cfg : K8sConfig) (addresses : String → Allocation) (env : Environment) :
    Runtime Q Unit := do
  match convertToWorkloads (Q := Q) env cfg with
  | .error e => throw (e.withContext "转换 environment 为 workloads 失败: ")
  | .ok objects => do
    applyWorkloads cfg addresses objects
    pruneResources cfg env.name.label objects

def applyResources (cfg : K8sConfig) (addresses : String → Allocation) (env : Environment) :
    Runtime Q Unit :=
  applyInner cfg addresses env

end Dominion.Deploy.K8s
