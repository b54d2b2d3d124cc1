import Dominion.Deploy.K8s.Config
import Dominion.Deploy.K8s.Model
import Dominion.Deploy.K8s.Objects

/-! # The builders

What the runtime submits for each workload.  Ports, secret bindings and matches are never nil
in the model, so a builder fails only where it validates its workload or looks up a profile. -/
namespace Dominion.Deploy.K8s

open Dominion.Framework
open Dominion.Deploy.Domain (ConfigBlock EnvironmentType Err SecretBinding goQuote)

/-! The names that the platform reserves for environment variables. -/

def envServiceApp : String := "SERVICE_APP"

def envDominionEnvironment : String := "DOMINION_ENVIRONMENT"

def envPodNamespace : String := "POD_NAMESPACE"

def envDominionArtifactDir : String := "DOMINION_ARTIFACT_DIR"

def envTLSCertFile : String := "TLS_CERT_FILE"

def envTLSKeyFile : String := "TLS_KEY_FILE"

def envTLSCAFile : String := "TLS_CA_FILE"

def envTLSServerName : String := "TLS_SERVER_NAME"

def envS3AccessKey : String := "S3_ACCESS_KEY"

def envS3SecretKey : String := "S3_SECRET_KEY"

def envDominionSecretDir : String := "DOMINION_SECRET_DIR"

def envDominionConfigDir : String := "DOMINION_CONFIG_DIR"

def envLogLevel : String := "LOG_LEVEL"

def tlsVolumeName : String := "tls"

def tlsMountPath : String := "/etc/tls"

def tlsCAFileName : String := "ca.crt"

def tlsCertFileName : String := "tls.crt"

def tlsKeyFileName : String := "tls.key"

def secretVolumeName : String := "dominion-secrets"

def secretMountPath : String := "/mnt/dominion/secret"

def configVolumeName : String := "dominion-config"

def configMountPath : String := "/mnt/dominion/config"

def artifactDirRoot : String := "/dominion"

def healthProbePort : Nat := 38080

def healthProbePath : String := "/healthz"

def healthProbePeriod : Nat := 10

def healthProbeStartupFailureThreshold : Nat := 30

def healthProbeLivenessFailureThreshold : Nat := 3

def envHeaderMatchName : String := "env"

def imageTagJoiner : String := ":"

def podNamespaceFieldPath : String := "metadata.namespace"

def EnvVar.of (name value : String) : EnvVar :=
  ⟨name,.value value⟩

/-- The labels of an object, and the labels that select its pods. -/
def objectLabels (app serviceName environmentName : String) (cfg : K8sConfig) : Labels :=
  buildLabels [withApp app,withService serviceName,withDominionEnvironment environmentName,
    withManagedBy cfg.managedBy]

def selectorLabels (app serviceName environmentName : String) : Labels :=
  buildLabels [withApp app,withService serviceName,withDominionEnvironment environmentName]

def artifactDirPath (app service : String) : String :=
  Text.joinPath [artifactDirRoot,app,service]

/-- The user's variables in the order of their names. -/
def buildSortedUserEnv (env : List (String × String)) : List EnvVar :=
  (env.mergeSort fun a b => decide (a.1 ≤ b.1)).map fun e => .of e.1 e.2

def defaultLogLevel (envType : EnvironmentType) : String :=
  match envType with
  | .prod => "info"
  | .test => "debug"
  | .dev => "debug"
  | .unspecified => "info"

/-- The startup and the liveness probe. -/
def buildHealthProbes : Probe × Probe :=
  ({ handler := .httpGet healthProbePath healthProbePort
     periodSeconds := healthProbePeriod
     failureThreshold := healthProbeStartupFailureThreshold },
   { handler := .httpGet healthProbePath healthProbePort
     periodSeconds := healthProbePeriod
     failureThreshold := healthProbeLivenessFailureThreshold })

def buildContainerPorts (ports : List DeploymentPort) : List ContainerPort :=
  ports.map fun p => ⟨p.name,p.port⟩

def buildServicePorts (ports : List DeploymentPort) : List ServicePort :=
  ports.map fun p => ⟨p.name,p.port,p.name⟩

def configMapName (workloadName block : String) : String :=
  workloadName ++ "-config-" ++ sanitizeNamePart block

def buildConfigProjection (workloadName : String) (configBlocks : List ConfigBlock) :
    Volume × VolumeMount × EnvVar :=
  let sources := configBlocks.map fun cb =>
    VolumeProjection.configMap (configMapName workloadName cb.block)
      (cb.entries.map fun ce => ⟨ce.key,cb.block ++ "/" ++ ce.key⟩)
  (⟨configVolumeName,.projected sources⟩,⟨configVolumeName,configMountPath,true⟩,
    .of envDominionConfigDir configMountPath)

/-- The part of `BuildDeployment` and of `BuildStatefulSet` that they share: the pods. -/
def buildPodTemplate (w : ArtifactWorkload) (workloadName : String) (cfg : K8sConfig) :
    PodTemplateSpec :=
  let userEnv := buildSortedUserEnv w.env ++
    (if (w.env.lookup envLogLevel).isNone then [.of envLogLevel (defaultLogLevel w.envType)]
      else [])
  let platformEnv := [.of envServiceApp w.app,.of envDominionEnvironment w.environmentName,
    .of envPodNamespace cfg.namespace,
    .of envDominionArtifactDir (artifactDirPath w.app w.serviceName)]
  let serverTLS : List VolumeProjection × List EnvVar :=
    if w.tlsEnabled then ([.secret cfg.tls.secret []],
      [.of envTLSCertFile (Text.joinPath [tlsMountPath,tlsCertFileName]),
        .of envTLSKeyFile (Text.joinPath [tlsMountPath,tlsKeyFileName])])
    else ([],[])
  let clientTLS : VolumeProjection :=
    .configMap cfg.tls.caConfigMap.name [⟨cfg.tls.caConfigMap.key,tlsCAFileName⟩]
  let clientTLSEnv := [.of envTLSCAFile (Text.joinPath [tlsMountPath,tlsCAFileName]),
    .of envTLSServerName cfg.tls.domain]
  let ossEnv : List EnvVar :=
    if w.ossEnabled then [⟨envS3AccessKey,.secretKeyRef cfg.oss.secret cfg.oss.accessKey⟩,
      ⟨envS3SecretKey,.secretKeyRef cfg.oss.secret cfg.oss.secretKey⟩]
    else []
  let secrets : List Volume × List VolumeMount × List EnvVar :=
    if w.secretBindings = [] then ([],[],[])
    else ([⟨secretVolumeName,.projected (w.secretBindings.map fun b =>
        .secret b.secretName [⟨b.key,b.logicalName⟩])⟩],
      [⟨secretVolumeName,secretMountPath,true⟩],[.of envDominionSecretDir secretMountPath])
  let config : List Volume × List VolumeMount × List EnvVar :=
    if w.configBlocks = [] then ([],[],[])
    else
      let p := buildConfigProjection workloadName w.configBlocks
      ([p.1],[p.2.1],[p.2.2])
  { labels := objectLabels w.app w.serviceName w.environmentName cfg
    volumes := ⟨tlsVolumeName,.projected (serverTLS.1 ++ [clientTLS])⟩ :: secrets.1 ++ config.1
    containers := [{
      name := workloadName
      image := w.image
      ports := buildContainerPorts w.ports
      env := userEnv ++ platformEnv ++ serverTLS.2 ++ clientTLSEnv ++ ossEnv ++ secrets.2.2 ++
        config.2.2
      volumeMounts := ⟨tlsVolumeName,tlsMountPath,true⟩ :: secrets.2.1 ++ config.2.1
      startupProbe := some buildHealthProbes.1
      livenessProbe := some buildHealthProbes.2 }] }

/-- The metadata of an object that belongs to a service. -/
def objectMeta (name app serviceName environmentName : String) (cfg : K8sConfig) : ObjectMeta :=
  ⟨name,cfg.namespace,objectLabels app serviceName environmentName cfg⟩

def buildDeployment (w : DeploymentWorkload) (cfg : K8sConfig) : Deployment where
  metadata := objectMeta w.workloadName w.app w.serviceName w.environmentName cfg
  spec := {
    replicas := w.replicas
    selector := selectorLabels w.app w.serviceName w.environmentName
    template := buildPodTemplate w.toArtifactWorkload w.workloadName cfg }

def buildStatefulSet (w : StatefulWorkload) (cfg : K8sConfig) : Except Err StatefulSet := do
  w.validate
  return {
    metadata := objectMeta w.workloadName w.app w.serviceName w.environmentName cfg
    spec := {
      serviceName := w.serviceResourceName
      replicas := w.replicas
      selector := selectorLabels w.app w.serviceName w.environmentName
      template := buildPodTemplate w.toArtifactWorkload w.workloadName cfg } }

/-- `data[key] = value`. -/
def setData (data : ConfigMapData) (key value : String) : ConfigMapData :=
  data.filter (fun e => e.1 ≠ key) ++ [(key,value)]

/-- The ConfigMaps of the blocks, in their order; `seen` are the names given so far, with their
blocks. -/
def buildConfigMapsFrom (w : ArtifactWorkload) (workloadName : String) (cfg : K8sConfig) :
    List (String × String) → List ConfigBlock → Except Err (List ConfigMap)
  | _,[] => .ok []
  | seen,cb :: rest =>
    let name := configMapName workloadName cb.block
    if maxK8sResourceNameSize < byteLength name then
      .error (.new (s!"configmap name {goQuote name} (workload={goQuote workloadName} block=" ++
        s!"{goQuote cb.block}) 超过 {maxK8sResourceNameSize} 字符上限"))
    else if sanitizeNamePart cb.block = "" then
      .error (.new (s!"configmap name {goQuote name} (workload={goQuote workloadName} block=" ++
        s!"{goQuote cb.block}) 清洗后为空: 块名不含任何 RFC 1123 合法字符"))
    else
      match seen.lookup name with
      | some prev => .error (.new (s!"configmap name {goQuote name} (workload=" ++
          s!"{goQuote workloadName}) 冲突: block {goQuote prev} 与 block {goQuote cb.block} " ++
          "清洗后得到同一名字"))
      | none => do
        let rest ← buildConfigMapsFrom w workloadName cfg ((name,cb.block) :: seen) rest
        return {
          metadata := objectMeta name w.app w.serviceName w.environmentName cfg
          spec := cb.entries.foldl (fun data ce => setData data ce.key ce.value) [] } :: rest

def buildConfigMaps (w : ArtifactWorkload) (workloadName : String) (cfg : K8sConfig) :
    Except Err (List ConfigMap) :=
  buildConfigMapsFrom w workloadName cfg [] w.configBlocks

def buildGoverningService (w : StatefulWorkload) (cfg : K8sConfig) : Except Err Service := do
  w.validate
  return {
    metadata := objectMeta w.serviceResourceName w.app w.serviceName w.environmentName cfg
    spec := {
      clusterIP := clusterIPNone
      selector := selectorLabels w.app w.serviceName w.environmentName
      ports := buildServicePorts w.ports } }

def buildService (w : DeploymentWorkload) (cfg : K8sConfig) : Service where
  metadata := objectMeta w.serviceResourceName w.app w.serviceName w.environmentName cfg
  spec := {
    selector := selectorLabels w.app w.serviceName w.environmentName
    ports := buildServicePorts w.ports }

/-- The route goes through JSON to an untyped object, which keeps these fields. -/
def buildHTTPRoute (w : HTTPRouteWorkload) (cfg : K8sConfig) : HTTPRoute where
  metadata := objectMeta w.resourceName w.app w.serviceName w.environmentName cfg
  spec := {
    hostnames := w.hostnames
    gatewayName := w.gatewayName
    gatewayNamespace := w.gatewayNamespace
    rules := w.matches.map fun m => {
      pathType := m.type
      pathValue := m.value
      headers := if w.envType = .test ∨ w.envType = .dev then
        [⟨envHeaderMatchName,w.environmentName⟩] else []
      backendName := w.backendService
      backendPort := m.backendPort } }

end Dominion.Deploy.K8s
