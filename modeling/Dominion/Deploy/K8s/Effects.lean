import Dominion.Deploy.K8s.Executor

/-! # What an apply does

A successful run of the loops over the workloads writes what the builders made of them, object
after object, and the prune erases what carries the labels and is not expected. -/
namespace Dominion.Deploy.K8s

open Dominion.Framework
open Dominion.Deploy.Domain (Environment Err)

variable {Q Spec α β : Type}

/-- A successful run. -/
def Runs (m : Runtime Q α) (c : Cluster Q) (a : α) (c' : Cluster Q) : Prop :=
  m.run.run c = (.ok a,c')

namespace Runs

variable {c c' c'' : Cluster Q} {a b : α} {client : Client Q Spec}

theorem of_bind {m : Runtime Q α} {f : α → Runtime Q β} {b : β} (h : Runs (m >>= f) c b c'') :
    ∃ a c', Runs m c a c' ∧ Runs (f a) c' b c'' := by
  unfold Runs at h ⊢
  rw [ExceptT.run_bind,StateT.run_bind] at h
  rcases hm : m.run.run c with ⟨r,c'⟩
  rw [hm] at h
  cases r with
  | error e => cases h
  | ok a => exact ⟨a,c',rfl,h⟩

theorem of_pure (h : Runs (pure a : Runtime Q α) c b c') : b = a ∧ c' = c := by
  cases h
  exact ⟨rfl,rfl⟩

theorem of_builtOrFail {what kind name : String} {result : Except Err α}
    (h : Runs (builtOrFail what kind name result : Runtime Q α) c a c') : result = .ok a ∧ c' = c := by
  cases result with
  | error e => cases h
  | ok desired =>
    cases h
    exact ⟨rfl,rfl⟩

theorem of_get {name : String} {o : Option (Object Spec)} (h : Runs (client.get name) c o c') :
    o = (client.objects c).lookup name ∧ c' = c := by
  cases h
  exact ⟨rfl,rfl⟩

theorem of_put {o : Object Spec} {u : Unit} (h : Runs (client.put o) c u c') :
    c' = client.setObjects ((client.objects c).insert o.metadata.name o) c := by
  cases h
  rfl

theorem of_list {selector : Labels} {listed : List (Σ _ : String, Object Spec)}
    (h : Runs (client.list selector) c listed c') :
    listed = ((client.objects c).entries.filter fun o =>
      selects selector o.2.metadata.labels) ∧ c' = c := by
  cases h
  exact ⟨rfl,rfl⟩

end Runs

/-- The objects that the builders make, in the order of their submission. -/
structure Built (Q : Type) where
  deployments : List Deployment := []
  statefulSets : List StatefulSet := []
  services : List Service := []
  httpRoutes : List HTTPRoute := []
  configMaps : List ConfigMap := []
  pvcs : List (PersistentVolumeClaim Q) := []

namespace Built

def append (b b' : Built Q) : Built Q where
  deployments := b.deployments ++ b'.deployments
  statefulSets := b.statefulSets ++ b'.statefulSets
  services := b.services ++ b'.services
  httpRoutes := b.httpRoutes ++ b'.httpRoutes
  configMaps := b.configMaps ++ b'.configMaps
  pvcs := b.pvcs ++ b'.pvcs

instance : Append (Built Q) := ⟨append⟩

def concat (bs : List (Built Q)) : Built Q :=
  bs.foldr append {}

end Built

section Builders

variable [Quantity Q] (cfg : K8sConfig)

/-! What the builders make of each workload; a builder that fails makes nothing. -/

def builtConfigMaps (workloadName : String) (w : ArtifactWorkload) : Built Q :=
  { configMaps := (buildConfigMaps w workloadName cfg).toOption.getD [] }

def builtGoverningService (w : StatefulWorkload) : Built Q :=
  { services := (buildGoverningService w cfg).toOption.toList }

def builtStatefulSet (w : StatefulWorkload) : Built Q :=
  { statefulSets := (buildStatefulSet w cfg).toOption.toList }

def builtMongoDB (w : MongoDBWorkload Q) : Built Q :=
  { pvcs := if w.persistence.enabled then (buildMongoDBPVC w cfg).toOption.toList else []
    deployments := (buildMongoDBDeployment w cfg).toOption.toList
    services := (buildMongoDBService w cfg).toOption.toList }

def builtRedis (w : RedisWorkload Q) : Built Q :=
  { pvcs := if w.persistence.enabled then (buildRedisPVC w cfg).toOption.toList else []
    deployments := (buildRedisDeployment w cfg).toOption.toList
    services := (buildRedisService w cfg).toOption.toList }

/-- All objects built from the workloads. -/
def builtObjects (objects : DeployObjects Q) : Built Q :=
  Built.concat (objects.deployments.map fun w =>
      builtConfigMaps cfg w.workloadName w.toArtifactWorkload) ++
    (Built.concat (objects.statefulWorkloads.map fun w =>
      builtConfigMaps cfg w.workloadName w.toArtifactWorkload) ++
    (Built.concat (objects.deployments.map fun w => { deployments := [buildDeployment w cfg] }) ++
    (Built.concat (objects.deployments.map fun w => { services := [buildService w cfg] }) ++
    (Built.concat (objects.httpRoutes.map fun w => { httpRoutes := [buildHTTPRoute w cfg] }) ++
    (Built.concat (objects.statefulWorkloads.map (builtGoverningService cfg)) ++
    (Built.concat (objects.statefulWorkloads.map (builtStatefulSet cfg)) ++
    (Built.concat (objects.mongoDBWorkloads.map (builtMongoDB cfg)) ++
    Built.concat (objects.redisWorkloads.map (builtRedis cfg)))))))))

end Builders

/-- The objects with their names. -/
def entries (os : List (Object Spec)) : List (String × Object Spec) :=
  os.map fun o => (o.metadata.name,o)

theorem entries_append (os os' : List (Object Spec)) :
    entries (os ++ os') = entries os ++ entries os' :=
  List.map_append

def overwrite (_ : Option (Object Spec)) (desired : Object Spec) : Object Spec :=
  desired

def serviceMerge (addresses : String → Allocation) (live : Option Service) (desired : Service) :
    Service :=
  match live with
  | none => (addresses desired.metadata.name).assign desired
  | some current => carryOver current desired

/-- The cluster after the submission of `b`. -/
def Cluster.write (c : Cluster Q) (addresses : String → Allocation) (b : Built Q) :
    Cluster Q where
  deployments := c.deployments.putAll overwrite (entries b.deployments)
  statefulSets := c.statefulSets.putAll overwrite (entries b.statefulSets)
  services := c.services.putAll (serviceMerge addresses) (entries b.services)
  httpRoutes := c.httpRoutes.putAll overwrite (entries b.httpRoutes)
  configMaps := c.configMaps.putAll overwrite (entries b.configMaps)
  secrets := c.secrets
  pvcs := c.pvcs.addAll (entries b.pvcs)

theorem Cluster.write_append (c : Cluster Q) (addresses : String → Allocation) (b b' : Built Q) :
    (c.write addresses b).write addresses b' = c.write addresses (b ++ b') := by
  show _ = c.write addresses (b.append b')
  simp only [Cluster.write,Built.append,entries_append,Store.putAll_append,Store.addAll_append]

/-- Every successful run of `m` submits `b`, and it can only succeed if `good`. -/
def Writes (addresses : String → Allocation) (m : Runtime Q Unit) (b : Built Q) (good : Prop) :
    Prop :=
  ∀ c u c', Runs m c u c' → good ∧ c' = c.write addresses b

namespace Writes

variable {addresses : String → Allocation} {b b' : Built Q} {p q : Prop}

theorem nothing : Writes addresses (pure () : Runtime Q Unit) {} True := by
  intro c u c' h
  exact ⟨trivial,h.of_pure.2⟩

theorem seq {m m' : Runtime Q Unit} (h : Writes addresses m b p) (h' : Writes addresses m' b' q) :
    Writes addresses (m >>= fun _ => m') (b ++ b') (p ∧ q) := by
  intro c u c'' hruns
  obtain ⟨v,c',hm,hm'⟩ := hruns.of_bind
  obtain ⟨hp,rfl⟩ := h c v c' hm
  obtain ⟨hq,rfl⟩ := h' _ u c'' hm'
  exact ⟨⟨hp,hq⟩,c.write_append addresses b b'⟩

theorem forM {f : α → Runtime Q Unit} {g : α → Built Q} {r : α → Prop} (xs : List α)
    (h : ∀ x, Writes addresses (f x) (g x) (r x)) :
    Writes addresses (xs.forM f) (Built.concat (xs.map g)) (∀ x ∈ xs, r x) := by
  induction xs with
  | nil =>
    intro c u c' hruns
    exact ⟨List.forall_mem_nil _,(nothing c u c' hruns).2⟩
  | cons x xs ih =>
    intro c u c' hruns
    obtain ⟨⟨hx,hxs⟩,hwrite⟩ := seq (h x) ih c u c' hruns
    exact ⟨List.forall_mem_cons.mpr ⟨hx,hxs⟩,hwrite⟩

/-- The writes of an object whose kind its client overwrites. -/
theorem applyObject {client : Client Q Spec} {desired : Object Spec}
    (hb : ∀ c, c.write addresses b = client.setObjects
      ((client.objects c).insert desired.metadata.name desired) c) :
    Writes addresses (applyObject client desired) b True := by
  intro c u c'' hruns
  obtain ⟨live,c',hget,hput⟩ := hruns.of_bind
  obtain ⟨rfl,rfl⟩ := hget.of_get
  refine ⟨trivial,?_⟩
  rw [hb]
  cases hlive : (client.objects c').lookup desired.metadata.name with
  | none =>
    rw [hlive] at hput
    exact hput.of_put
  | some current =>
    rw [hlive] at hput
    exact hput.of_put

theorem deployment (o : Deployment) :
    Writes addresses (K8s.applyObject Client.deployments o : Runtime Q Unit)
      { deployments := [o] } True :=
  applyObject fun _ => rfl

theorem statefulSet (o : StatefulSet) :
    Writes addresses (K8s.applyObject Client.statefulSets o : Runtime Q Unit)
      { statefulSets := [o] } True :=
  applyObject fun _ => rfl

theorem httpRoute (o : HTTPRoute) :
    Writes addresses (K8s.applyObject Client.httpRoutes o : Runtime Q Unit)
      { httpRoutes := [o] } True :=
  applyObject fun _ => rfl

theorem configMap (o : ConfigMap) :
    Writes addresses (K8s.applyObject Client.configMaps o : Runtime Q Unit)
      { configMaps := [o] } True :=
  applyObject fun _ => rfl

theorem applyTypedService (desired : Service) :
    Writes addresses (applyTypedService addresses desired : Runtime Q Unit)
      { services := [desired] } True := by
  intro c u c'' hruns
  obtain ⟨live,c',hget,hput⟩ := hruns.of_bind
  obtain ⟨rfl,rfl⟩ := hget.of_get
  refine ⟨trivial,?_⟩
  show c'' = Client.services.setObjects (c'.services.insert desired.metadata.name
    (serviceMerge addresses (c'.services.lookup desired.metadata.name) desired)) c'
  cases hlive : c'.services.lookup desired.metadata.name with
  | none =>
    rw [show (Client.services.objects c').lookup desired.metadata.name = none from hlive] at hput
    exact hput.of_put
  | some current =>
    rw [show (Client.services.objects c').lookup desired.metadata.name = some current
      from hlive] at hput
    exact hput.of_put

theorem applyPVC {check : PersistentVolumeClaim Q → Except Err Unit}
    (desired : PersistentVolumeClaim Q) :
    Writes addresses (applyPVC check desired) { pvcs := [desired] } True := by
  intro c u c'' hruns
  obtain ⟨live,c',hget,hput⟩ := hruns.of_bind
  obtain ⟨rfl,rfl⟩ := hget.of_get
  refine ⟨trivial,?_⟩
  show c'' = Client.pvcs.setObjects (if (c'.pvcs.lookup desired.metadata.name).isSome then c'.pvcs
    else c'.pvcs.insert desired.metadata.name desired) c'
  cases hlive : c'.pvcs.lookup desired.metadata.name with
  | none =>
    rw [show (Client.pvcs.objects c').lookup desired.metadata.name = none from hlive] at hput
    exact hput.of_put
  | some current =>
    rw [show (Client.pvcs.objects c').lookup desired.metadata.name = some current
      from hlive] at hput
    dsimp only at hput
    split at hput
    · exact hput.of_pure.2
    · cases hput

theorem weaken {m : Runtime Q Unit} (h : Writes addresses m b p) (hpq : p → q) :
    Writes addresses m b q := by
  intro c u c' hruns
  obtain ⟨hp,hwrite⟩ := h c u c' hruns
  exact ⟨hpq hp,hwrite⟩

/-- A submission of what a builder made. -/
theorem of_builder {what kind name : String} {result : Except Err α} {f : α → Runtime Q Unit}
    {g : α → Built Q} (h : ∀ a, Writes addresses (f a) (g a) True)
    (hb : ∀ a, result = .ok a → g a = b) :
    Writes addresses (builtOrFail what kind name result >>= f) b (∃ a, result = .ok a) := by
  intro c u c'' hruns
  obtain ⟨a,c',hbuilt,hf⟩ := hruns.of_bind
  obtain ⟨hresult,rfl⟩ := hbuilt.of_builtOrFail
  rw [← hb a hresult]
  exact ⟨⟨a,hresult⟩,(h a c' u c'' hf).2⟩

theorem concat_configMaps (cms : List ConfigMap) :
    Built.concat (cms.map fun cm => ({ configMaps := [cm] } : Built Q)) =
      { configMaps := cms } := by
  induction cms with
  | nil => rfl
  | cons cm cms ih =>
    show Built.append _ (Built.concat _) = _
    rw [ih]
    rfl

variable (cfg : K8sConfig)

theorem applyConfigMaps (w : ArtifactWorkload) (workloadName : String) :
    Writes addresses (if w.configBlocks = [] then pure ()
        else applyConfigMaps cfg w workloadName : Runtime Q Unit)
      (builtConfigMaps cfg workloadName w) (∃ cms, buildConfigMaps w workloadName cfg = .ok cms) := by
  unfold builtConfigMaps
  split
  · rename_i hblocks
    have hnone : buildConfigMaps w workloadName cfg = .ok [] := by
      unfold buildConfigMaps
      rw [hblocks]
      rfl
    rw [hnone]
    exact nothing.weaken fun _ => ⟨_,rfl⟩
  · apply of_builder (g := fun cms => { configMaps := cms })
    · intro cms
      have hforM : Writes addresses (cms.forM (K8s.applyObject Client.configMaps) : Runtime Q Unit) _
          _ := forM cms configMap
      rw [concat_configMaps] at hforM
      exact hforM.weaken fun _ => trivial
    · intro cms hcms
      rw [hcms]
      rfl

theorem applyDeployment (w : DeploymentWorkload) :
    Writes addresses (applyDeployment cfg w : Runtime Q Unit)
      { deployments := [buildDeployment w cfg] } True :=
  deployment (buildDeployment w cfg)

theorem applyHTTPRoute (w : HTTPRouteWorkload) :
    Writes addresses (applyHTTPRoute cfg w : Runtime Q Unit)
      { httpRoutes := [buildHTTPRoute w cfg] } True :=
  httpRoute (buildHTTPRoute w cfg)

theorem applyGoverningService (w : StatefulWorkload) :
    Writes addresses (applyGoverningService cfg addresses w : Runtime Q Unit)
      (builtGoverningService cfg w) (∃ o, buildGoverningService w cfg = .ok o) := by
  apply of_builder fun o => applyTypedService o
  intro o ho
  unfold builtGoverningService
  rw [ho]
  rfl

theorem applyStatefulSet (w : StatefulWorkload) :
    Writes addresses (applyStatefulSet cfg w : Runtime Q Unit) (builtStatefulSet cfg w)
      (∃ o, buildStatefulSet w cfg = .ok o) := by
  apply of_builder statefulSet
  intro o ho
  unfold builtStatefulSet
  rw [ho]
  rfl

/-- The three submissions for an infrastructure workload. -/
theorem applyInfra {enabled : Bool} {pvc deployment service : Runtime Q Unit}
    {builtPVC : Except Err (PersistentVolumeClaim Q)} {builtDeployment : Except Err Deployment}
    {builtService : Except Err Service}
    (hpvc : Writes addresses pvc { pvcs := builtPVC.toOption.toList } p)
    (hdeployment : Writes addresses deployment
      { deployments := builtDeployment.toOption.toList } (∃ o, builtDeployment = .ok o))
    (hservice : Writes addresses service
      { services := builtService.toOption.toList } (∃ o, builtService = .ok o)) :
    Writes addresses (do
        if enabled then pvc
        deployment
        service)
      { pvcs := if enabled then builtPVC.toOption.toList else []
        deployments := builtDeployment.toOption.toList
        services := builtService.toOption.toList }
      ((∃ o, builtDeployment = .ok o) ∧ ∃ o, builtService = .ok o) := by
  have hsum (pvcs : List (PersistentVolumeClaim Q)) :
      ({ pvcs := pvcs } ++ ({ deployments := builtDeployment.toOption.toList } ++
        { services := builtService.toOption.toList }) : Built Q) =
      { pvcs := pvcs
        deployments := builtDeployment.toOption.toList
        services := builtService.toOption.toList } := by
    show Built.append _ (Built.append _ _) = _
    simp [Built.append]
  cases enabled with
  | true =>
    have h := seq hpvc (seq hdeployment hservice)
    rw [hsum] at h
    exact h.weaken And.right
  | false =>
    have h := seq hdeployment hservice
    have hskip := seq (nothing : Writes addresses (pure () : Runtime Q Unit) {} True) h
    rw [hsum []] at hskip
    exact hskip.weaken And.right

variable [Quantity Q]

theorem applyMongoDB (w : MongoDBWorkload Q) :
    Writes addresses (applyMongoDB cfg addresses w) (builtMongoDB cfg w)
      ((∃ o, buildMongoDBDeployment w cfg = .ok o) ∧ ∃ o, buildMongoDBService w cfg = .ok o) := by
  apply applyInfra (p := ∃ o, buildMongoDBPVC w cfg = .ok o)
  · apply of_builder applyPVC
    intro o ho
    rw [ho]
    rfl
  · apply of_builder deployment
    intro o ho
    rw [ho]
    rfl
  · apply of_builder applyTypedService
    intro o ho
    rw [ho]
    rfl

theorem applyRedis (w : RedisWorkload Q) :
    Writes addresses (applyRedis cfg addresses w) (builtRedis cfg w)
      ((∃ o, buildRedisDeployment w cfg = .ok o) ∧ ∃ o, buildRedisService w cfg = .ok o) := by
  apply applyInfra (p := ∃ o, buildRedisPVC w cfg = .ok o)
  · apply of_builder applyPVC
    intro o ho
    rw [ho]
    rfl
  · apply of_builder deployment
    intro o ho
    rw [ho]
    rfl
  · apply of_builder applyTypedService
    intro o ho
    rw [ho]
    rfl

end Writes

section Apply

variable [Quantity Q] {cfg : K8sConfig} {addresses : String → Allocation}
  {objects : DeployObjects Q} {c c' : Cluster Q} {u : Unit}

/-- Every builder that an apply calls succeeds. -/
structure Complete (cfg : K8sConfig) (objects : DeployObjects Q) : Prop where
  deploymentConfigs : ∀ w ∈ objects.deployments,
    ∃ cms, buildConfigMaps w.toArtifactWorkload w.workloadName cfg = .ok cms
  statefulConfigs : ∀ w ∈ objects.statefulWorkloads,
    ∃ cms, buildConfigMaps w.toArtifactWorkload w.workloadName cfg = .ok cms
  governingServices : ∀ w ∈ objects.statefulWorkloads, ∃ o, buildGoverningService w cfg = .ok o
  statefulSets : ∀ w ∈ objects.statefulWorkloads, ∃ o, buildStatefulSet w cfg = .ok o
  mongoDB : ∀ w ∈ objects.mongoDBWorkloads,
    (∃ o, buildMongoDBDeployment w cfg = .ok o) ∧ ∃ o, buildMongoDBService w cfg = .ok o
  redis : ∀ w ∈ objects.redisWorkloads,
    (∃ o, buildRedisDeployment w cfg = .ok o) ∧ ∃ o, buildRedisService w cfg = .ok o

theorem Writes.applyWorkloads (objects : DeployObjects Q) :
    Writes addresses (applyWorkloads cfg addresses objects) (builtObjects cfg objects)
      (Complete cfg objects) := by
  have h : Writes addresses (K8s.applyWorkloads cfg addresses objects) _ _ :=
    seq (forM objects.deployments fun w =>
      applyConfigMaps cfg w.toArtifactWorkload w.workloadName)
    (seq (forM objects.statefulWorkloads fun w =>
      applyConfigMaps cfg w.toArtifactWorkload w.workloadName)
    (seq (forM objects.deployments (applyDeployment cfg))
    (seq (forM objects.deployments fun w => applyTypedService (buildService w cfg))
    (seq (forM objects.httpRoutes (applyHTTPRoute cfg))
    (seq (forM objects.statefulWorkloads (applyGoverningService cfg))
    (seq (forM objects.statefulWorkloads (applyStatefulSet cfg))
    (seq (forM objects.mongoDBWorkloads (applyMongoDB cfg))
      (forM objects.redisWorkloads (applyRedis cfg)))))))))
  apply h.weaken
  rintro ⟨hconfigs,hstatefulConfigs,-,-,-,hgoverning,hstatefulSets,hmongoDB,hredis⟩
  exact ⟨hconfigs,hstatefulConfigs,hgoverning,hstatefulSets,hmongoDB,hredis⟩

end Apply

section Prune

variable {cfg : K8sConfig} {objects : DeployObjects Q} {c c' : Cluster Q} {u : Unit}

/-- The objects left by a prune. -/
def pruned (matchLabels : Labels) (expected : List String) (os : Objects Spec) : Objects Spec :=
  os.eraseAll (fun name o => hasAllLabels o.metadata.labels matchLabels && !decide (name ∈ expected))
    (os.entries.filter fun o => selects (buildLabelSelector matchLabels) o.2.metadata.labels)

theorem Runs.of_pruneObjects {client : Client Q Spec} {matchLabels : Labels}
    {expected : List String} (h : Runs (pruneObjects client matchLabels expected) c u c') :
    c' = client.setObjects (pruned matchLabels expected (client.objects c)) c := by
  obtain ⟨listed,c₁,hlist,hloop⟩ := h.of_bind
  obtain ⟨rfl,rfl⟩ := hlist.of_list
  unfold pruned
  generalize hlisted : ((client.objects c₁).entries.filter fun o =>
    selects (buildLabelSelector matchLabels) o.2.metadata.labels) = listed at hloop ⊢
  clear hlisted hlist h
  induction listed generalizing c₁ with
  | nil =>
    rw [hloop.of_pure.2]
    exact (client.set_objects c₁).symm
  | cons o listed ih =>
    obtain ⟨v,c₂,hdelete,hrest⟩ := Runs.of_bind hloop
    dsimp only at hdelete
    rw [ih c₂ hrest]
    have hdeleted : c₂ = client.setObjects
        (if hasAllLabels o.2.metadata.labels matchLabels && !decide (o.1 ∈ expected)
          then (client.objects c₁).erase o.1 else client.objects c₁) c₁ := by
      split at hdelete
      · rename_i hlabels
        have hkeep : hasAllLabels o.2.metadata.labels matchLabels = false := by
          simpa using hlabels
        rw [hdelete.of_pure.2,hkeep]
        exact (client.set_objects c₁).symm
      · rename_i hlabels
        split at hdelete
        · rename_i hexpected
          rw [hdelete.of_pure.2,decide_eq_true hexpected,Bool.not_true,Bool.and_false]
          exact (client.set_objects c₁).symm
        · rename_i hexpected
          have hall : hasAllLabels o.2.metadata.labels matchLabels = true := by
            simpa using hlabels
          rw [hall,decide_eq_false hexpected]
          cases hdelete
          rfl
    rw [hdeleted,client.objects_set,client.set_set]
    rfl

theorem Runs.of_pruneResources {fullEnvName : String}
    (h : Runs (pruneResources cfg fullEnvName objects) c u c') :
    c' = {
      deployments := pruned (environmentLabels cfg fullEnvName)
        (buildExpectedApplyResources objects).deployments c.deployments
      statefulSets := pruned (environmentLabels cfg fullEnvName)
        (buildExpectedApplyResources objects).statefulSets c.statefulSets
      services := pruned (environmentLabels cfg fullEnvName)
        (buildExpectedApplyResources objects).services c.services
      httpRoutes := pruned (environmentLabels cfg fullEnvName)
        (buildExpectedApplyResources objects).httpRoutes c.httpRoutes
      configMaps := pruned (environmentLabels cfg fullEnvName)
        (buildExpectedApplyResources objects).configMaps c.configMaps
      secrets := pruned (environmentLabels cfg fullEnvName)
        (buildExpectedApplyResources objects).secrets c.secrets
      pvcs := c.pvcs } := by
  obtain ⟨_,c₁,h₁,h⟩ := h.of_bind
  obtain ⟨_,c₂,h₂,h⟩ := h.of_bind
  obtain ⟨_,c₃,h₃,h⟩ := h.of_bind
  obtain ⟨_,c₄,h₄,h⟩ := h.of_bind
  obtain ⟨_,c₅,h₅,h₆⟩ := h.of_bind
  rw [h₆.of_pruneObjects,h₅.of_pruneObjects,h₄.of_pruneObjects,h₃.of_pruneObjects,
    h₂.of_pruneObjects,h₁.of_pruneObjects]
  rfl

end Prune

/-- A successful apply converts the desired state, submits what the builders make of it and
prunes the rest. -/
theorem Runs.of_applyResources [Quantity Q] {cfg : K8sConfig} {addresses : String → Allocation}
    {env : Environment} {c c' : Cluster Q} {u : Unit}
    (h : Runs (applyResources (Q := Q) cfg addresses env) c u c') :
    ∃ objects : DeployObjects Q, convertToWorkloads env cfg = .ok objects ∧
      Complete cfg objects ∧
      Runs (pruneResources cfg env.name.label objects)
        (c.write addresses (builtObjects cfg objects)) u c' := by
  unfold applyResources applyInner at h
  cases hconvert : convertToWorkloads (Q := Q) env cfg with
  | error e =>
    rw [hconvert] at h
    cases h
  | ok objects =>
    rw [hconvert] at h
    obtain ⟨v,c₁,happly,hprune⟩ := Runs.of_bind h
    obtain ⟨hcomplete,rfl⟩ := Writes.applyWorkloads objects c v c₁ happly
    exact ⟨objects,rfl,hcomplete,hprune⟩

end Dominion.Deploy.K8s
