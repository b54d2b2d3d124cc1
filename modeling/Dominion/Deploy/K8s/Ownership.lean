import Dominion.Deploy.K8s.Effects

/-! # The objects of an environment

Whatever is built for an environment carries its labels, and the names that a prune keeps are
those of the objects built. -/
namespace Dominion.Deploy.K8s

open Dominion.Framework
open Dominion.Deploy.Domain (ArtifactSpec ConfigBlock Environment Err InfraSpec)

variable {Q Spec α β : Type}

theorem bind_ok {x : Except Err α} {f : α → Except Err β} {b : β} (h : (x >>= f) = .ok b) :
    ∃ a, x = .ok a ∧ f a = .ok b := by
  cases x with
  | error e => cases h
  | ok a => exact ⟨a,rfl,h⟩

/-- The object carries the labels of the environment. -/
def managed (cfg : K8sConfig) (fullEnvName : String) (o : Object Spec) : Bool :=
  hasAllLabels o.metadata.labels (environmentLabels cfg fullEnvName)

theorem hasAllLabels_objectLabels (cfg : K8sConfig) (app serviceName environmentName : String) :
    hasAllLabels (objectLabels app serviceName environmentName cfg)
      (environmentLabels cfg environmentName) = true := by
  simp only [hasAllLabels,environmentLabels,objectLabels,buildLabels,List.foldl_cons,
    List.foldl_nil,withApp,withService,withDominionEnvironment,withManagedBy]
  generalize Text.trimSpace app = app
  generalize Text.trimSpace serviceName = service
  generalize Text.trimSpace environmentName = environment
  generalize Text.trimSpace cfg.managedBy = managedBy
  by_cases happ : app = "" <;> by_cases hservice : service = "" <;>
    by_cases henvironment : environment = "" <;> by_cases hmanagedBy : managedBy = "" <;>
    simp [happ,hservice,henvironment,hmanagedBy,appLabelKey,serviceLabelKey,
      dominionEnvironmentLabelKey,managedByLabelKey,List.lookup_cons]

section Builders

variable {cfg : K8sConfig}

theorem buildStatefulSet_ok {w : StatefulWorkload} {o : StatefulSet}
    (h : buildStatefulSet w cfg = .ok o) :
    o.metadata = objectMeta w.workloadName w.app w.serviceName w.environmentName cfg := by
  obtain ⟨u,-,h⟩ := bind_ok h
  rw [← Except.ok.inj h]

/-- A Service as its builder leaves it: nothing that the server assigns is set, but for the
`None` of a headless one. -/
def Unassigned (o : Service) : Prop :=
  o.spec = { selector := o.spec.selector, ports := o.spec.ports } ∨
    o.spec = { clusterIP := clusterIPNone, selector := o.spec.selector, ports := o.spec.ports }

theorem buildGoverningService_ok {w : StatefulWorkload} {o : Service}
    (h : buildGoverningService w cfg = .ok o) :
    o.metadata = objectMeta w.serviceResourceName w.app w.serviceName w.environmentName cfg ∧
      o.spec.clusterIP = clusterIPNone ∧ Unassigned o := by
  obtain ⟨u,-,h⟩ := bind_ok h
  rw [← Except.ok.inj h]
  exact ⟨rfl,rfl,Or.inr rfl⟩

theorem buildInfraDeployment_metadata (w : InfraWorkload Q) (pod : InfraPod) :
    (buildInfraDeployment w pod cfg).metadata =
      objectMeta pod.resourceName w.app w.serviceName w.environmentName cfg := rfl

theorem buildMongoDBDeployment_ok {w : MongoDBWorkload Q} {o : Deployment}
    (h : buildMongoDBDeployment w cfg = .ok o) :
    o.metadata = objectMeta w.resourceName w.app w.serviceName w.environmentName cfg := by
  obtain ⟨u,-,h⟩ := bind_ok h
  obtain ⟨profile,-,h⟩ := bind_ok h
  have ho : o = buildInfraDeployment w.toInfraWorkload _ cfg := (Except.ok.inj h).symm
  rw [ho,buildInfraDeployment_metadata]

theorem buildRedisDeployment_ok {w : RedisWorkload Q} {o : Deployment}
    (h : buildRedisDeployment w cfg = .ok o) :
    o.metadata = objectMeta w.resourceName w.app w.serviceName w.environmentName cfg := by
  obtain ⟨u,-,h⟩ := bind_ok h
  obtain ⟨profile,-,h⟩ := bind_ok h
  have ho : o = buildInfraDeployment w.toInfraWorkload _ cfg := (Except.ok.inj h).symm
  rw [ho,buildInfraDeployment_metadata]

theorem buildMongoDBService_ok {w : MongoDBWorkload Q} {o : Service}
    (h : buildMongoDBService w cfg = .ok o) :
    o.metadata = objectMeta w.serviceResourceName w.app w.serviceName w.environmentName cfg ∧
      Unassigned o := by
  obtain ⟨profile,-,h⟩ := bind_ok h
  rw [← Except.ok.inj h]
  exact ⟨rfl,Or.inl rfl⟩

theorem buildRedisService_ok {w : RedisWorkload Q} {o : Service}
    (h : buildRedisService w cfg = .ok o) :
    o.metadata = objectMeta w.serviceResourceName w.app w.serviceName w.environmentName cfg ∧
      Unassigned o := by
  obtain ⟨profile,-,h⟩ := bind_ok h
  rw [← Except.ok.inj h]
  exact ⟨rfl,Or.inl rfl⟩

theorem buildConfigMapsFrom_ok {w : ArtifactWorkload} {workloadName : String}
    {seen : List (String × String)} {blocks : List ConfigBlock} {cms : List ConfigMap}
    (h : buildConfigMapsFrom w workloadName cfg seen blocks = .ok cms) :
    cms.map Object.metadata = blocks.map fun cb => objectMeta (configMapName workloadName cb.block)
      w.app w.serviceName w.environmentName cfg := by
  induction blocks generalizing seen cms with
  | nil =>
    cases h
    rfl
  | cons cb blocks ih =>
    rw [buildConfigMapsFrom] at h
    split at h
    · cases h
    · split at h
      · cases h
      · split at h
        · cases h
        · obtain ⟨rest,hrest,h⟩ := bind_ok h
          rw [← Except.ok.inj h,List.map_cons,List.map_cons,ih hrest]

theorem buildConfigMaps_ok {w : ArtifactWorkload} {workloadName : String} {cms : List ConfigMap}
    (h : buildConfigMaps w workloadName cfg = .ok cms) :
    cms.map Object.metadata = w.configBlocks.map fun cb =>
      objectMeta (configMapName workloadName cb.block) w.app w.serviceName w.environmentName cfg :=
  buildConfigMapsFrom_ok h

end Builders

section Converter

variable {cfg : K8sConfig} {envName : String}

theorem foldlM_ok {σ : Type} {P : σ → Prop} {f : σ → α → Except Err σ}
    (hf : ∀ s x s', P s → f s x = .ok s' → P s') {xs : List α} {s s' : σ} (hs : P s)
    (h : xs.foldlM f s = .ok s') : P s' := by
  induction xs generalizing s with
  | nil =>
    cases h
    exact hs
  | cons x xs ih =>
    rw [List.foldlM_cons] at h
    obtain ⟨s₁,hx,h⟩ := bind_ok h
    exact ih (hf s x s₁ hs hx) h

/-- Every workload is one of the environment. -/
structure DeployObjects.Within (envName : String) (objects : DeployObjects Q) : Prop where
  deployments : ∀ w ∈ objects.deployments, w.environmentName = envName
  httpRoutes : ∀ w ∈ objects.httpRoutes, w.environmentName = envName
  mongoDBWorkloads : ∀ w ∈ objects.mongoDBWorkloads, w.environmentName = envName
  redisWorkloads : ∀ w ∈ objects.redisWorkloads, w.environmentName = envName
  statefulWorkloads : ∀ w ∈ objects.statefulWorkloads, w.environmentName = envName

theorem forall_mem_concat {p : α → Prop} {xs : List α} {x : α} (hxs : ∀ y ∈ xs, p y) (hx : p x) :
    ∀ y ∈ xs ++ [x], p y :=
  List.forall_mem_append.mpr ⟨hxs,List.forall_mem_singleton.mpr hx⟩

theorem addArtifact_within {envType : Domain.EnvironmentType} {objects objects' : DeployObjects Q}
    {artifact : ArtifactSpec} (h : objects.Within envName)
    (hadd : addArtifact cfg envName envType objects artifact = .ok objects') :
    objects'.Within envName := by
  unfold addArtifact at hadd
  split at hadd
  · cases hadd
    exact { h with statefulWorkloads := forall_mem_concat h.statefulWorkloads rfl }
  · dsimp only at hadd
    have hdeployments := forall_mem_concat (x := convertArtifactToDeployment artifact envName envType)
      h.deployments rfl
    split at hadd
    · cases hadd
      exact { h with deployments := hdeployments }
    · split at hadd
      · cases hadd
        exact { h with deployments := hdeployments }
      · obtain ⟨route,hroute,hadd⟩ := bind_ok hadd
        obtain ⟨routeMatches,-,hroute⟩ := bind_ok hroute
        cases hadd
        cases hroute
        exact { h with
          deployments := hdeployments
          httpRoutes := forall_mem_concat h.httpRoutes rfl }

variable [Quantity Q]

theorem addInfra_within {objects objects' : DeployObjects Q} {infra : InfraSpec}
    (h : objects.Within envName) (hadd : addInfra envName objects infra = .ok objects') :
    objects'.Within envName := by
  unfold addInfra at hadd
  split at hadd
  · obtain ⟨w,hw,hadd⟩ := bind_ok hadd
    obtain ⟨base,hbase,hw⟩ := bind_ok hw
    obtain ⟨persistence,-,hbase⟩ := bind_ok hbase
    cases hadd
    cases hw
    cases hbase
    exact { h with mongoDBWorkloads := forall_mem_concat h.mongoDBWorkloads rfl }
  · split at hadd
    · obtain ⟨w,hw,hadd⟩ := bind_ok hadd
      obtain ⟨base,hbase,hw⟩ := bind_ok hw
      obtain ⟨persistence,-,hbase⟩ := bind_ok hbase
      cases hadd
      cases hw
      cases hbase
      exact { h with redisWorkloads := forall_mem_concat h.redisWorkloads rfl }
    · cases hadd

theorem convertToWorkloads_within {env : Environment} {objects : DeployObjects Q}
    (h : convertToWorkloads env cfg = .ok objects) : objects.Within env.name.label := by
  obtain ⟨artifacts,hartifacts,hinfras⟩ := bind_ok h
  have hempty : ({} : DeployObjects Q).Within env.name.label :=
    ⟨List.forall_mem_nil _,List.forall_mem_nil _,List.forall_mem_nil _,List.forall_mem_nil _,
      List.forall_mem_nil _⟩
  have hwithin := foldlM_ok (fun _ _ _ hs => addArtifact_within hs) hempty hartifacts
  exact foldlM_ok (fun _ _ _ hs => addInfra_within hs) hwithin hinfras

end Converter

section Lists

variable {b b' : Built Q} {bs : List (Built Q)}

@[simp] theorem Built.deployments_append : (b ++ b').deployments = b.deployments ++ b'.deployments :=
  rfl

@[simp] theorem Built.statefulSets_append :
    (b ++ b').statefulSets = b.statefulSets ++ b'.statefulSets := rfl

@[simp] theorem Built.services_append : (b ++ b').services = b.services ++ b'.services := rfl

@[simp] theorem Built.httpRoutes_append : (b ++ b').httpRoutes = b.httpRoutes ++ b'.httpRoutes :=
  rfl

@[simp] theorem Built.configMaps_append : (b ++ b').configMaps = b.configMaps ++ b'.configMaps :=
  rfl

@[simp] theorem Built.pvcs_append : (b ++ b').pvcs = b.pvcs ++ b'.pvcs := rfl

/-- A list of a concatenation is the concatenation of the lists. -/
theorem Built.concat_field (field : Built Q → List α) (hnil : field {} = [])
    (happend : ∀ b b', field (b ++ b') = field b ++ field b') :
    field (Built.concat bs) = bs.flatMap field := by
  induction bs with
  | nil => exact hnil
  | cons b bs ih =>
    rw [List.flatMap_cons,← ih]
    exact happend b (Built.concat bs)

@[simp] theorem Built.deployments_concat :
    (Built.concat bs).deployments = bs.flatMap Built.deployments :=
  concat_field Built.deployments rfl fun _ _ => rfl

@[simp] theorem Built.statefulSets_concat :
    (Built.concat bs).statefulSets = bs.flatMap Built.statefulSets :=
  concat_field Built.statefulSets rfl fun _ _ => rfl

@[simp] theorem Built.services_concat : (Built.concat bs).services = bs.flatMap Built.services :=
  concat_field Built.services rfl fun _ _ => rfl

@[simp] theorem Built.httpRoutes_concat :
    (Built.concat bs).httpRoutes = bs.flatMap Built.httpRoutes :=
  concat_field Built.httpRoutes rfl fun _ _ => rfl

@[simp] theorem Built.configMaps_concat :
    (Built.concat bs).configMaps = bs.flatMap Built.configMaps :=
  concat_field Built.configMaps rfl fun _ _ => rfl

@[simp] theorem Built.pvcs_concat : (Built.concat bs).pvcs = bs.flatMap Built.pvcs :=
  concat_field Built.pvcs rfl fun _ _ => rfl

theorem flatMap_nil (xs : List α) : (xs.flatMap fun _ => ([] : List β)) = [] :=
  List.flatMap_eq_nil_iff.mpr fun _ _ => rfl

/-- The objects that builders make of the workloads, by their metadata. -/
theorem map_metadata_flatMap {f : α → Except Err (Object Spec)} {g : α → ObjectMeta}
    {ws : List α} (hok : ∀ w ∈ ws, ∃ o, f w = .ok o)
    (hmeta : ∀ w o, f w = .ok o → o.metadata = g w) :
    (ws.flatMap fun w => (f w).toOption.toList).map Object.metadata = ws.map g := by
  induction ws with
  | nil => rfl
  | cons w ws ih =>
    obtain ⟨o,ho⟩ := hok w List.mem_cons_self
    have hrest := ih fun w hw => hok w (List.mem_cons_of_mem _ hw)
    rw [List.flatMap_cons,List.map_append,hrest,ho,List.map_cons,← hmeta w o ho]
    rfl

/-- The metadata of an object of an artifact. -/
def ArtifactWorkload.meta (cfg : K8sConfig) (w : ArtifactWorkload) (name : String) : ObjectMeta :=
  objectMeta name w.app w.serviceName w.environmentName cfg

/-- The metadata of an object of an infrastructure workload. -/
def InfraWorkload.meta (cfg : K8sConfig) (w : InfraWorkload Q) (name : String) : ObjectMeta :=
  objectMeta name w.app w.serviceName w.environmentName cfg

variable [Quantity Q] {cfg : K8sConfig} {objects : DeployObjects Q}

theorem builtObjects_deployments : (builtObjects cfg objects).deployments =
    objects.deployments.map (fun w => buildDeployment w cfg) ++
    (objects.mongoDBWorkloads.flatMap (fun w => (buildMongoDBDeployment w cfg).toOption.toList) ++
    objects.redisWorkloads.flatMap fun w => (buildRedisDeployment w cfg).toOption.toList) := by
  simp [builtObjects,builtConfigMaps,builtGoverningService,builtStatefulSet,builtMongoDB,builtRedis,
    List.flatMap_map,flatMap_nil,← List.map_eq_flatMap]

theorem builtObjects_statefulSets : (builtObjects cfg objects).statefulSets =
    objects.statefulWorkloads.flatMap fun w => (buildStatefulSet w cfg).toOption.toList := by
  simp [builtObjects,builtConfigMaps,builtGoverningService,builtStatefulSet,builtMongoDB,builtRedis,
    List.flatMap_map,flatMap_nil]

theorem builtObjects_services : (builtObjects cfg objects).services =
    objects.deployments.map (fun w => buildService w cfg) ++
    (objects.statefulWorkloads.flatMap (fun w => (buildGoverningService w cfg).toOption.toList) ++
    (objects.mongoDBWorkloads.flatMap (fun w => (buildMongoDBService w cfg).toOption.toList) ++
    objects.redisWorkloads.flatMap fun w => (buildRedisService w cfg).toOption.toList)) := by
  simp [builtObjects,builtConfigMaps,builtGoverningService,builtStatefulSet,builtMongoDB,builtRedis,
    List.flatMap_map,flatMap_nil,← List.map_eq_flatMap]

theorem builtObjects_httpRoutes : (builtObjects cfg objects).httpRoutes =
    objects.httpRoutes.map fun w => buildHTTPRoute w cfg := by
  simp [builtObjects,builtConfigMaps,builtGoverningService,builtStatefulSet,builtMongoDB,builtRedis,
    List.flatMap_map,flatMap_nil,← List.map_eq_flatMap]

theorem builtObjects_configMaps : (builtObjects cfg objects).configMaps =
    objects.deployments.flatMap (fun w =>
      (buildConfigMaps w.toArtifactWorkload w.workloadName cfg).toOption.getD []) ++
    objects.statefulWorkloads.flatMap fun w =>
      (buildConfigMaps w.toArtifactWorkload w.workloadName cfg).toOption.getD [] := by
  simp [builtObjects,builtConfigMaps,builtGoverningService,builtStatefulSet,builtMongoDB,builtRedis,
    List.flatMap_map,flatMap_nil]

theorem map_metadata_deployments (h : Complete cfg objects) :
    (builtObjects cfg objects).deployments.map Object.metadata =
      objects.deployments.map (fun w => w.meta cfg w.workloadName) ++
      (objects.mongoDBWorkloads.map (fun w => w.meta cfg w.resourceName) ++
      objects.redisWorkloads.map fun w => w.meta cfg w.resourceName) := by
  have hmongoDB := map_metadata_flatMap (fun w hw => (h.mongoDB w hw).1)
    fun w o => buildMongoDBDeployment_ok
  have hredis := map_metadata_flatMap (fun w hw => (h.redis w hw).1)
    fun w o => buildRedisDeployment_ok
  rw [builtObjects_deployments,List.map_append,List.map_append,hmongoDB,hredis,List.map_map]
  rfl

theorem map_metadata_statefulSets (h : Complete cfg objects) :
    (builtObjects cfg objects).statefulSets.map Object.metadata =
      objects.statefulWorkloads.map fun w => w.meta cfg w.workloadName := by
  rw [builtObjects_statefulSets]
  exact map_metadata_flatMap h.statefulSets fun w o => buildStatefulSet_ok

theorem map_metadata_services (h : Complete cfg objects) :
    (builtObjects cfg objects).services.map Object.metadata =
      objects.deployments.map (fun w => w.meta cfg w.serviceResourceName) ++
      (objects.statefulWorkloads.map (fun w => w.meta cfg w.serviceResourceName) ++
      (objects.mongoDBWorkloads.map (fun w => w.meta cfg w.serviceResourceName) ++
      objects.redisWorkloads.map fun w => w.meta cfg w.serviceResourceName)) := by
  have hgoverning := map_metadata_flatMap h.governingServices
    fun w o ho => (buildGoverningService_ok ho).1
  have hmongoDB := map_metadata_flatMap (fun w hw => (h.mongoDB w hw).2)
    fun w o ho => (buildMongoDBService_ok ho).1
  have hredis := map_metadata_flatMap (fun w hw => (h.redis w hw).2)
    fun w o ho => (buildRedisService_ok ho).1
  rw [builtObjects_services,List.map_append,List.map_append,List.map_append,hgoverning,hmongoDB,
    hredis,List.map_map]
  rfl

theorem map_metadata_httpRoutes : (builtObjects cfg objects).httpRoutes.map Object.metadata =
    objects.httpRoutes.map fun w =>
      objectMeta w.resourceName w.app w.serviceName w.environmentName cfg := by
  rw [builtObjects_httpRoutes,List.map_map]
  rfl

/-- The metadata of the ConfigMaps of the workloads. -/
theorem map_metadata_builtConfigMaps {ws : List α} {artifact : α → ArtifactWorkload}
    {workloadName : α → String}
    (hok : ∀ w ∈ ws, ∃ cms, buildConfigMaps (artifact w) (workloadName w) cfg = .ok cms) :
    (ws.flatMap fun w =>
        (buildConfigMaps (artifact w) (workloadName w) cfg).toOption.getD []).map Object.metadata =
      ws.flatMap fun w => (artifact w).configBlocks.map fun cb =>
        (artifact w).meta cfg (configMapName (workloadName w) cb.block) := by
  induction ws with
  | nil => rfl
  | cons w ws ih =>
    obtain ⟨cms,hcms⟩ := hok w List.mem_cons_self
    have hrest := ih fun w hw => hok w (List.mem_cons_of_mem _ hw)
    rw [List.flatMap_cons,List.flatMap_cons,List.map_append,hrest,hcms]
    exact congrArg (· ++ _) (buildConfigMaps_ok hcms)

theorem map_metadata_configMaps (h : Complete cfg objects) :
    (builtObjects cfg objects).configMaps.map Object.metadata =
      objects.deployments.flatMap (fun w => w.configBlocks.map fun cb =>
        w.meta cfg (configMapName w.workloadName cb.block)) ++
      objects.statefulWorkloads.flatMap fun w => w.configBlocks.map fun cb =>
        w.meta cfg (configMapName w.workloadName cb.block) := by
  rw [builtObjects_configMaps,List.map_append,map_metadata_builtConfigMaps h.deploymentConfigs,
    map_metadata_builtConfigMaps h.statefulConfigs]

end Lists

end Dominion.Deploy.K8s
