import Dominion.Deploy.K8s.Config
import Dominion.Deploy.K8s.Model

/-! # Conversion of a desired state to workloads -/
namespace Dominion.Deploy.K8s

open Dominion.Framework
open Dominion.Deploy.Domain (ArtifactHTTPSpec ArtifactPortSpec ArtifactSpec DesiredState Environment
  EnvironmentType Err HTTPPathRuleType HTTPRouteRule InfraSpec goQuote)

variable {Q : Type} [Quantity Q]

def infraResourceMongoDB : String := "mongodb"

def infraResourceRedis : String := "redis"

def maxInfraPersistenceCapacity : String := "1Ti"

structure DeployObjects (Q : Type) where
  deployments : List DeploymentWorkload := []
  httpRoutes : List HTTPRouteWorkload := []
  mongoDBWorkloads : List (MongoDBWorkload Q) := []
  redisWorkloads : List (RedisWorkload Q) := []
  statefulWorkloads : List StatefulWorkload := []

def convertPorts (ports : List ArtifactPortSpec) : List DeploymentPort :=
  ports.map fun p => ⟨p.name,p.port⟩

def convertPathType (t : HTTPPathRuleType) : String :=
  match t with
  | .pathPrefix => "PathPrefix"
  | .unspecified => ""

def convertArtifact (artifact : ArtifactSpec) (envName : String) (envType : EnvironmentType) :
    ArtifactWorkload where
  serviceName := artifact.name
  environmentName := envName
  app := artifact.app
  image := artifact.image
  replicas := artifact.replicas
  tlsEnabled := artifact.tlsEnabled
  ossEnabled := artifact.ossEnabled
  ports := convertPorts artifact.ports
  envType := envType
  env := artifact.env
  secretBindings := artifact.secretBindings
  configBlocks := artifact.configBlocks

def convertArtifactToStatefulWorkload (artifact : ArtifactSpec) (envName : String)
    (envType : EnvironmentType) : StatefulWorkload :=
  ⟨convertArtifact artifact envName envType⟩

def convertArtifactToDeployment (artifact : ArtifactSpec) (envName : String)
    (envType : EnvironmentType) : DeploymentWorkload :=
  ⟨convertArtifact artifact envName envType⟩

/-- The key of a port name among the backends. -/
def backendKey (name : String) : String :=
  Text.toLower (Text.trimSpace name)

/-- The port that the map of backends holds for a name: a later port of the same key replaces
an earlier one. -/
def backendPort (ports : List ArtifactPortSpec) (backend : String) : Option Int :=
  ((ports.filter fun port => backendKey port.name ≠ "").reverse.find? fun port =>
    decide (backendKey port.name = Text.toLower backend)).map ArtifactPortSpec.port

def convertHTTPRouteMatches (ports : List ArtifactPortSpec) (rules : List HTTPRouteRule) :
    Except Err (List HTTPRoutePathMatch) :=
  rules.mapM fun rule =>
    let backend := Text.trimSpace rule.backend
    match backendPort ports backend with
    | none => .error (.new ("HTTPRoute backend " ++ goQuote backend ++ " 未找到对应端口"))
    | some port => .ok {
        type := convertPathType rule.path.type
        value := rule.path.value
        backendName := backend
        backendPort := port }

def convertArtifactHTTPToRoute (artifact : ArtifactSpec) (http : ArtifactHTTPSpec)
    (envName : String) (cfg : K8sConfig) (deployment : DeploymentWorkload)
    (envType : EnvironmentType) : Except Err HTTPRouteWorkload := do
  let «matches» ← convertHTTPRouteMatches artifact.ports http.matches
  return {
    serviceName := artifact.name
    environmentName := envName
    app := artifact.app
    hostnames := http.hostnames
    «matches»
    backendService := deployment.serviceResourceName
    gatewayName := cfg.gateway.name
    gatewayNamespace := cfg.gateway.namespace
    envType }

/-- An empty capacity is zero and means the default of the profile. -/
def validateAndParseCapacity (enabled : Bool) (raw : String) : Except Err Q :=
  let trimmed := Text.trimSpace raw
  if trimmed = "" then .ok Quantity.zero
  else if !enabled then .error (.new "persistence 未启用时不能配置 capacity")
  else
    match Quantity.parse trimmed with
    | .error e => .error (e.withContext "capacity 解析失败: ")
    | .ok q =>
      match Quantity.parse (Q := Q) maxInfraPersistenceCapacity with
      -- `MustParse` panics.
      | .error e => .error e
      | .ok limit =>
        if Quantity.cmp q limit = .gt then .error (.new ("capacity 超过上限 1Ti: " ++ trimmed))
        else .ok q

def convertInfraPersistence (infra : InfraSpec) : Except Err (PersistenceConfig Q) :=
  match validateAndParseCapacity infra.persistence.enabled infra.persistence.capacity with
  | .error e => .error (e.withContext ("infra " ++ infra.name ++ " persistence: "))
  | .ok capacity => .ok ⟨infra.persistence.enabled,capacity⟩

def convertInfra (infra : InfraSpec) (envName : String) : Except Err (InfraWorkload Q) := do
  let persistence ← convertInfraPersistence infra
  return {
    serviceName := infra.name
    environmentName := envName
    app := infra.app
    profileName := infra.profile
    persistence }

def convertInfraToMongoWorkload (infra : InfraSpec) (envName : String) :
    Except Err (MongoDBWorkload Q) := do
  return ⟨← convertInfra infra envName⟩

def convertInfraToRedisWorkload (infra : InfraSpec) (envName : String) :
    Except Err (RedisWorkload Q) := do
  return ⟨← convertInfra infra envName⟩

/-- One artifact: a stateful workload, or a deployment with its route. -/
def addArtifact (cfg : K8sConfig) (envName : String) (envType : EnvironmentType)
    (objects : DeployObjects Q) (artifact : ArtifactSpec) : Except Err (DeployObjects Q) :=
  match artifact.workloadKind with
  | .stateful =>
    let w := convertArtifactToStatefulWorkload artifact envName envType
    .ok { objects with statefulWorkloads := objects.statefulWorkloads ++ [w] }
  | .stateless =>
    let w := convertArtifactToDeployment artifact envName envType
    let objects := { objects with deployments := objects.deployments ++ [w] }
    match artifact.http with
    | none => .ok objects
    | some http =>
      if http.matches = [] then .ok objects
      else do
        let route ← convertArtifactHTTPToRoute artifact http envName cfg w envType
        return { objects with httpRoutes := objects.httpRoutes ++ [route] }

def addInfra (envName : String) (objects : DeployObjects Q) (infra : InfraSpec) :
    Except Err (DeployObjects Q) :=
  if infra.resource = infraResourceMongoDB then do
    let w ← convertInfraToMongoWorkload infra envName
    return { objects with mongoDBWorkloads := objects.mongoDBWorkloads ++ [w] }
  else if infra.resource = infraResourceRedis then do
    let w ← convertInfraToRedisWorkload infra envName
    return { objects with redisWorkloads := objects.redisWorkloads ++ [w] }
  else .error (.new ("不支持的 infra resource 类型: " ++ infra.resource))

def convertToWorkloads (env : Environment) (cfg : K8sConfig) : Except Err (DeployObjects Q) := do
  let envName := env.name.label
  let objects ← env.desiredState.artifacts.foldlM (addArtifact cfg envName env.envType) {}
  env.desiredState.infras.foldlM (addInfra envName) objects

end Dominion.Deploy.K8s
