import Dominion.Deploy.K8s.Builder

/-! # The builders of the infrastructure

MongoDB and Redis instances are built alike: a Deployment of one pod, its Service and, where
their data persist, a PersistentVolumeClaim. -/
namespace Dominion.Deploy.K8s

open Dominion.Framework
open Dominion.Deploy.Domain (Err goQuote)

variable {Q : Type} [Quantity Q]

def stablePasswordAlphabet : String :=
  "abcdefghijklmnopqrstuvwxyzABCDEFGHIJKLMNOPQRSTUVWXYZ0123456789"

def stablePasswordMinLen : Nat := 24

def stablePasswordJoiner : String := "\x00"

/-- The password derived from `inputs`: the bytes of their HMAC as letters and digits, repeated
up to the least length where they are fewer. -/
def generateStablePassword (key : String) (inputs : List String) : String :=
  let sum := Sha256.hmac (bytes key)
    (bytes (stablePasswordJoiner.intercalate (inputs.map Text.trimSpace)))
  let encoded := sum.map fun b =>
    stablePasswordAlphabet.toList.getD (b.toNat % stablePasswordAlphabet.length) 'a'
  if stablePasswordMinLen ≤ encoded.length then String.ofList encoded
  else String.ofList
    ((List.replicate stablePasswordMinLen encoded).flatten.take stablePasswordMinLen)

def mongoPasswordHMACKey : String := "dominion-mongo-stable-password"

def mongoPortName : String := "mongo"

def mongoDataVolumeName : String := "mongo-data"

def mongoDataMountPath : String := "/data/db"

def mongoInitContainerName : String := "mongo-init"

def mongoEnvRootUsername : String := "MONGO_INITDB_ROOT_USERNAME"

def mongoEnvRootPassword : String := "MONGO_INITDB_ROOT_PASSWORD"

def mongoInitScript : String := "set -euo pipefail

shutdown_mongod() \x7b
	if [ -f \"/tmp/mongod-init.pid\" ]; then
		mongod --dbpath \"/data/db\" --shutdown >/dev/null 2>&1 || true
	fi
\x7d

trap shutdown_mongod EXIT

mongod --bind_ip \"127.0.0.1\" --port 27017 --dbpath \"/data/db\" --fork --logpath \"/tmp/mongod-init.log\" --pidfilepath \"/tmp/mongod-init.pid\" --auth

until mongosh --host \"127.0.0.1\" --port 27017 --quiet --eval 'db.adminCommand(\x7b ping: 1 \x7d)' >/dev/null 2>&1; do
	sleep 1
done

if [ ! -f \"/data/db/.admin-initialized\" ]; then
	mongosh --host \"127.0.0.1\" --port 27017 --quiet --eval 'db.getSiblingDB(\"admin\").createUser(\x7buser: process.env.MONGO_INITDB_ROOT_USERNAME, pwd: process.env.MONGO_INITDB_ROOT_PASSWORD, roles: [\x7brole: \"root\", db: \"admin\"\x7d]\x7d)'
	touch \"/data/db/.admin-initialized\"
	exit 0
fi

mongosh --host \"127.0.0.1\" --port 27017 --username \"$MONGO_INITDB_ROOT_USERNAME\" --password \"$MONGO_INITDB_ROOT_PASSWORD\" --authenticationDatabase \"admin\" --quiet --eval 'db.adminCommand(\x7b ping: 1 \x7d)' >/dev/null"

def redisPasswordHMACKey : String := "dominion-redis-stable-password"

def redisPortName : String := "redis"

def redisDataVolumeName : String := "redis-data"

def redisDataMountPath : String := "/data"

def redisEnvPassword : String := "REDIS_PASSWORD"

def redisServerBaseCmd : String := "exec redis-server --requirepass \"$REDIS_PASSWORD\""

def redisAppendOnlyFlag : String := " --appendonly yes"

def buildRedisServerCommand (persistenceEnabled : Bool) : List String :=
  ["/bin/sh","-ec",
    redisServerBaseCmd ++ if persistenceEnabled then redisAppendOnlyFlag else ""]

/-- The variables that every instance has. -/
def buildInfraContainerEnv (w : InfraWorkload Q) : List EnvVar :=
  [.of envServiceApp w.app,.of envDominionEnvironment w.environmentName,
    ⟨envPodNamespace,.fieldRef podNamespaceFieldPath⟩]

def buildMongoDBContainerEnv (w : MongoDBWorkload Q) (adminUsername : String) : List EnvVar :=
  buildInfraContainerEnv w.toInfraWorkload ++ [.of mongoEnvRootUsername adminUsername,
    .of mongoEnvRootPassword
      (generateStablePassword mongoPasswordHMACKey [w.app,w.environmentName,w.serviceName])]

def buildRedisContainerEnv (w : RedisWorkload Q) : List EnvVar :=
  buildInfraContainerEnv w.toInfraWorkload ++ [.of redisEnvPassword
    (generateStablePassword redisPasswordHMACKey [w.app,w.environmentName,w.serviceName])]

def buildDataVolumeSource (pvcName : String) (persistenceEnabled : Bool) : VolumeSource :=
  if persistenceEnabled then .persistentVolumeClaim pvcName else .emptyDir

def buildStorageAccessModes (accessModes : List String) : List String :=
  accessModes.map Text.trimSpace

/-- The capacity of the instance, or else that of the profile, on which `MustParse` panics where
this fails. -/
def resolveStorageCapacity (instanceCapacity : Q) (profileCapacity : String) : Except Err Q :=
  if Quantity.isZero instanceCapacity then Quantity.parse (Text.trimSpace profileCapacity)
  else .ok instanceCapacity

/-- A profile that must exist. -/
def requireProfile {α : Type} (what name : String) (profile : Option α) : Except Err α :=
  match profile with
  | some profile => .ok profile
  | none => .error (.new (what ++ " profile " ++ Text.trimSpace name ++ " 不存在"))

/-- What differs between the Deployments of the two kinds. -/
structure InfraPod where
  resourceName : String
  volumeName : String
  mountPath : String
  image : String
  portName : String
  port : Int
  env : List EnvVar
  command : List String := []
  initContainers : List Container := []

def buildInfraDeployment (w : InfraWorkload Q) (pod : InfraPod) (cfg : K8sConfig) : Deployment :=
  let probe : Probe := { handler := .tcpSocket pod.portName }
  { metadata := objectMeta pod.resourceName w.app w.serviceName w.environmentName cfg
    spec := {
      replicas := 1
      strategy := .recreate
      selector := selectorLabels w.app w.serviceName w.environmentName
      template := {
        labels := objectLabels w.app w.serviceName w.environmentName cfg
        volumes := [⟨pod.volumeName,buildDataVolumeSource w.pvcResourceName w.persistence.enabled⟩]
        initContainers := pod.initContainers
        containers := [{
          name := pod.resourceName
          image := pod.image
          command := pod.command
          ports := [⟨pod.portName,pod.port⟩]
          env := pod.env
          volumeMounts := [⟨pod.volumeName,pod.mountPath,false⟩]
          livenessProbe := some probe
          readinessProbe := some probe }] } } }

/-- The image of a profile. -/
def imageTag (image version : String) : String :=
  Text.trimSpace image ++ imageTagJoiner ++ Text.trimSpace version

def buildMongoDBDeployment (w : MongoDBWorkload Q) (cfg : K8sConfig) : Except Err Deployment := do
  w.validate
  let profile ← requireProfile "mongo" w.profileName (cfg.mongoProfile w.profileName)
  let image := imageTag profile.image profile.version
  let env := buildMongoDBContainerEnv w profile.adminUsername
  return buildInfraDeployment w.toInfraWorkload {
    resourceName := w.resourceName
    volumeName := mongoDataVolumeName
    mountPath := mongoDataMountPath
    portName := mongoPortName
    port := profile.port
    image, env
    initContainers := [{
      name := mongoInitContainerName
      command := ["bash","-ec",mongoInitScript]
      volumeMounts := [⟨mongoDataVolumeName,mongoDataMountPath,false⟩]
      image, env }] } cfg

def buildRedisDeployment (w : RedisWorkload Q) (cfg : K8sConfig) : Except Err Deployment := do
  w.validate
  let profile ← requireProfile "redis" w.profileName (cfg.redisProfile w.profileName)
  return buildInfraDeployment w.toInfraWorkload {
    resourceName := w.resourceName
    volumeName := redisDataVolumeName
    mountPath := redisDataMountPath
    portName := redisPortName
    port := profile.port
    image := imageTag profile.image profile.version
    env := buildRedisContainerEnv w
    command := buildRedisServerCommand w.persistence.enabled } cfg

def buildInfraService (w : InfraWorkload Q) (portName : String) (port : Int) (cfg : K8sConfig) :
    Service where
  metadata := objectMeta w.serviceResourceName w.app w.serviceName w.environmentName cfg
  spec := {
    selector := selectorLabels w.app w.serviceName w.environmentName
    ports := [⟨portName,port,portName⟩] }

def buildMongoDBService (w : MongoDBWorkload Q) (cfg : K8sConfig) : Except Err Service := do
  let profile ← requireProfile "mongo" w.profileName (cfg.mongoProfile w.profileName)
  return buildInfraService w.toInfraWorkload mongoPortName profile.port cfg

def buildRedisService (w : RedisWorkload Q) (cfg : K8sConfig) : Except Err Service := do
  let profile ← requireProfile "redis" w.profileName (cfg.redisProfile w.profileName)
  return buildInfraService w.toInfraWorkload redisPortName profile.port cfg

def buildInfraPVC (w : InfraWorkload Q) (what : String) (storage : StorageConfig)
    (cfg : K8sConfig) : Except Err (PersistentVolumeClaim Q) :=
  match resolveStorageCapacity w.persistence.capacity storage.capacity with
  | .error e => .error (e.withContext ("解析 " ++ what ++ " pvc 容量失败: "))
  | .ok quantity => .ok {
      metadata := objectMeta w.pvcResourceName w.app w.serviceName w.environmentName cfg
      spec := {
        storageClassName := some (Text.trimSpace storage.storageClassName)
        accessModes := buildStorageAccessModes storage.accessModes
        volumeMode := some (Text.trimSpace storage.volumeMode)
        storage := some quantity } }

def buildMongoDBPVC (w : MongoDBWorkload Q) (cfg : K8sConfig) :
    Except Err (PersistentVolumeClaim Q) := do
  w.validate
  if !w.persistence.enabled then .error (.new "mongo workload 未启用持久化")
  else
    let profile ← requireProfile "mongo" w.profileName (cfg.mongoProfile w.profileName)
    buildInfraPVC w.toInfraWorkload "mongo" profile.storage cfg

def buildRedisPVC (w : RedisWorkload Q) (cfg : K8sConfig) :
    Except Err (PersistentVolumeClaim Q) := do
  w.validate
  if !w.persistence.enabled then .error (.new "redis workload 未启用持久化")
  else
    let profile ← requireProfile "redis" w.profileName (cfg.redisProfile w.profileName)
    buildInfraPVC w.toInfraWorkload "redis" profile.storage cfg

/-- `%v` of a list of strings. -/
def formatList (xs : List String) : String :=
  "[" ++ " ".intercalate xs ++ "]"

/-- Whether a claim of the cluster fits the storage that an instance wants. -/
def checkPVCCompatibility (existing : PersistentVolumeClaim Q) (environmentName : String)
    (storage : StorageConfig) (desiredCapacity : Q) : Except Err Unit :=
  let incompatible (what current desired : String) : Except Err Unit :=
    .error (.new ("pvc " ++ existing.metadata.name ++ " " ++ what ++ " 不兼容: existing=" ++
      current ++ " desired=" ++ desired))
  let label := (existing.metadata.labels.lookup dominionEnvironmentLabelKey).getD ""
  let storageClassName := Text.trimSpace storage.storageClassName
  let accessModes := buildStorageAccessModes storage.accessModes
  let volumeMode := Text.trimSpace storage.volumeMode
  if Text.trimSpace label ≠ Text.trimSpace environmentName then
    incompatible ("标签 " ++ dominionEnvironmentLabelKey) (goQuote label) (goQuote environmentName)
  else if existing.spec.storageClassName.map Text.trimSpace ≠ some storageClassName then
    incompatible "storageClassName"
      (goQuote (Text.trimSpace (existing.spec.storageClassName.getD ""))) (goQuote storageClassName)
  else if existing.spec.accessModes ≠ accessModes then
    incompatible "accessModes" (formatList existing.spec.accessModes) (formatList accessModes)
  else if existing.spec.volumeMode ≠ some volumeMode then
    incompatible "volumeMode" (goQuote (Text.trimSpace (existing.spec.volumeMode.getD "")))
      (goQuote volumeMode)
  else
    match existing.spec.storage with
    | none => incompatible "storage capacity" "missing" (Quantity.text desiredCapacity)
    | some existingCapacity =>
      if Quantity.cmp existingCapacity desiredCapacity = .gt then
        incompatible "storage capacity" (Quantity.text existingCapacity)
          (Quantity.text desiredCapacity)
      else .ok ()

def checkInfraPVCCompatibility (existing : PersistentVolumeClaim Q) (w : InfraWorkload Q)
    (what : String) (storage : StorageConfig) : Except Err Unit :=
  match resolveStorageCapacity w.persistence.capacity storage.capacity with
  | .error e => .error (e.withContext ("解析 " ++ what ++ " pvc 容量失败: "))
  | .ok capacity => checkPVCCompatibility existing w.environmentName storage capacity

/-- `CheckPVCCompatibility`, with a capital letter. -/
def checkMongoDBPVCCompatibility (existing : PersistentVolumeClaim Q) (w : MongoDBWorkload Q)
    (cfg : K8sConfig) : Except Err Unit := do
  w.validate
  let profile ← requireProfile "mongo" w.profileName (cfg.mongoProfile w.profileName)
  checkInfraPVCCompatibility existing w.toInfraWorkload "mongo" profile.storage

def checkRedisPVCCompatibility (existing : PersistentVolumeClaim Q) (w : RedisWorkload Q)
    (cfg : K8sConfig) : Except Err Unit := do
  w.validate
  let profile ← requireProfile "redis" w.profileName (cfg.redisProfile w.profileName)
  checkInfraPVCCompatibility existing w.toInfraWorkload "redis" profile.storage

end Dominion.Deploy.K8s
