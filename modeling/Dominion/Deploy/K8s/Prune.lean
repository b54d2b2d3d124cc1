import Dominion.Deploy.K8s.Ownership

/-! # What a prune leaves

The names that a prune expects are those of the objects built, so an apply synchronizes the
objects of each kind. -/
namespace Dominion.Deploy.K8s

open Dominion.Framework

variable {Q Spec α : Type} {cfg : K8sConfig} {envName : String}

/-- The objects are labelled for the environment, and a prune expects their names. -/
structure Expects (cfg : K8sConfig) (envName : String) (names : List String)
    (os : List (Object Spec)) : Prop where
  names : ∀ name, name ∈ (entries os).map Prod.fst ↔ name ∈ names
  labelled : ∀ name o, (name,o) ∈ entries os → managed cfg envName o = true

theorem map_fst_entries (os : List (Object Spec)) :
    (entries os).map Prod.fst = (os.map Object.metadata).map ObjectMeta.name := by
  unfold entries
  rw [List.map_map,List.map_map]
  rfl

theorem mem_entries {name : String} {o : Object Spec} {os : List (Object Spec)}
    (h : (name,o) ∈ entries os) : o ∈ os ∧ o.metadata.name = name := by
  obtain ⟨o',ho,he⟩ := List.mem_map.mp h
  cases he
  exact ⟨ho,rfl⟩

theorem mem_entries_of_mem {name : String} {o : Object Spec} {os : List (Object Spec)} (h : o ∈ os)
    (hname : o.metadata.name = name) : (name,o) ∈ entries os :=
  List.mem_map.mpr ⟨o,h,by rw [hname]⟩

theorem Expects.of_metadata {names : List String} {os : List (Object Spec)} {ms : List ObjectMeta}
    (h : os.map Object.metadata = ms)
    (hnames : ∀ name, name ∈ ms.map ObjectMeta.name ↔ name ∈ names)
    (hlabels : ∀ m ∈ ms, hasAllLabels m.labels (environmentLabels cfg envName) = true) :
    Expects cfg envName names os where
  names := by
    rw [map_fst_entries,h]
    exact hnames
  labelled name o ho := by
    apply hlabels
    rw [← h]
    exact List.mem_map_of_mem (mem_entries ho).1

@[simp] theorem ArtifactWorkload.meta_name (w : ArtifactWorkload) (name : String) :
    (w.meta cfg name).name = name := rfl

@[simp] theorem InfraWorkload.meta_name (w : InfraWorkload Q) (name : String) :
    (w.meta cfg name).name = name := rfl

theorem ArtifactWorkload.meta_labels {w : ArtifactWorkload} (h : w.environmentName = envName)
    (name : String) :
    hasAllLabels (w.meta cfg name).labels (environmentLabels cfg envName) = true :=
  h ▸ hasAllLabels_objectLabels cfg w.app w.serviceName w.environmentName

theorem InfraWorkload.meta_labels {w : InfraWorkload Q} (h : w.environmentName = envName)
    (name : String) :
    hasAllLabels (w.meta cfg name).labels (environmentLabels cfg envName) = true :=
  h ▸ hasAllLabels_objectLabels cfg w.app w.serviceName w.environmentName

section Kinds

variable [Quantity Q] {objects : DeployObjects Q}

theorem expects_deployments (h : Complete cfg objects) (hw : objects.Within envName) :
    Expects cfg envName (buildExpectedApplyResources objects).deployments
      (builtObjects cfg objects).deployments := by
  apply Expects.of_metadata (map_metadata_deployments h)
  · intro name
    simp [buildExpectedApplyResources]
  · simp only [List.forall_mem_append,List.forall_mem_map]
    exact ⟨fun w h => ArtifactWorkload.meta_labels (hw.deployments w h) _,
      fun w h => InfraWorkload.meta_labels (hw.mongoDBWorkloads w h) _,
      fun w h => InfraWorkload.meta_labels (hw.redisWorkloads w h) _⟩

theorem expects_statefulSets (h : Complete cfg objects) (hw : objects.Within envName) :
    Expects cfg envName (buildExpectedApplyResources objects).statefulSets
      (builtObjects cfg objects).statefulSets := by
  apply Expects.of_metadata (map_metadata_statefulSets h)
  · intro name
    simp [buildExpectedApplyResources]
  · simp only [List.forall_mem_map]
    exact fun w h => ArtifactWorkload.meta_labels (hw.statefulWorkloads w h) _

/-- The stateful workloads come last among the expected Services. -/
theorem mem_append_rotate {x : α} {xs ys zs us : List α} :
    x ∈ xs ++ (us ++ (ys ++ zs)) ↔ x ∈ xs ++ ys ++ zs ++ us := by
  simp only [List.mem_append]
  tauto

theorem expects_services (h : Complete cfg objects) (hw : objects.Within envName) :
    Expects cfg envName (buildExpectedApplyResources objects).services
      (builtObjects cfg objects).services := by
  apply Expects.of_metadata (map_metadata_services h)
  · intro name
    simp only [List.map_append,List.map_map,Function.comp_def,ArtifactWorkload.meta_name,
      InfraWorkload.meta_name,buildExpectedApplyResources]
    exact mem_append_rotate
  · simp only [List.forall_mem_append,List.forall_mem_map]
    exact ⟨fun w h => ArtifactWorkload.meta_labels (hw.deployments w h) _,
      fun w h => ArtifactWorkload.meta_labels (hw.statefulWorkloads w h) _,
      fun w h => InfraWorkload.meta_labels (hw.mongoDBWorkloads w h) _,
      fun w h => InfraWorkload.meta_labels (hw.redisWorkloads w h) _⟩

theorem expects_httpRoutes (cfg : K8sConfig) (hw : objects.Within envName) :
    Expects cfg envName (buildExpectedApplyResources objects).httpRoutes
      (builtObjects cfg objects).httpRoutes := by
  apply Expects.of_metadata map_metadata_httpRoutes
  · intro name
    simp [buildExpectedApplyResources,objectMeta]
  · simp only [List.forall_mem_map]
    intro w h
    have hlabels := hasAllLabels_objectLabels cfg w.app w.serviceName w.environmentName
    rw [hw.httpRoutes w h] at hlabels ⊢
    exact hlabels

theorem expects_configMaps (h : Complete cfg objects) (hw : objects.Within envName) :
    Expects cfg envName (buildExpectedApplyResources objects).configMaps
      (builtObjects cfg objects).configMaps := by
  apply Expects.of_metadata (map_metadata_configMaps h)
  · intro name
    rw [List.map_append,List.map_flatMap,List.map_flatMap]
    simp only [List.map_map]
    exact Iff.rfl
  · simp only [List.forall_mem_append,List.forall_mem_flatMap,List.forall_mem_map]
    exact ⟨fun w h cb _ => ArtifactWorkload.meta_labels (hw.deployments w h) _,
      fun w h cb _ => ArtifactWorkload.meta_labels (hw.statefulWorkloads w h) _⟩

end Kinds

section Sync

/-- A prune erases what carries the labels of the environment and is not expected. -/
theorem lookup_pruned {expected : List String} {os : Objects Spec} (name : String) :
    (pruned (environmentLabels cfg envName) expected os).lookup name =
      (os.lookup name).filter fun o => !managed cfg envName o || decide (name ∈ expected) := by
  unfold pruned
  rw [Store.lookup_eraseAll_entries]
  apply congrArg (Option.filter · (os.lookup name))
  funext o
  cases hlabels : managed cfg envName o with
  | false =>
    have hlabels : hasAllLabels o.metadata.labels (environmentLabels cfg envName) = false := hlabels
    simp [hlabels]
  | true =>
    have hlabels : hasAllLabels o.metadata.labels (environmentLabels cfg envName) = true := hlabels
    have hselects := selects_of_hasAllLabels (buildLabels_ne_empty _) hlabels
    have hselects : selects (buildLabelSelector (environmentLabels cfg envName))
      o.metadata.labels = true := hselects
    simp [hlabels,hselects]

theorem Expects.synced {expected : List String} {built : List (Object Spec)}
    (h : Expects cfg envName expected built) (merge : Option (Object Spec) → Object Spec → Object Spec)
    (os : Objects Spec) :
    Store.SyncedBy merge (managed cfg envName) (entries built) os
      (pruned (environmentLabels cfg envName) expected (os.putAll merge (entries built))) := by
  intro name
  rw [lookup_pruned]
  simp only [h.names]

/-- A prune leaves alone what does not carry the labels. -/
theorem untouched_pruned (expected : List String) (os : Objects Spec) :
    Store.Untouched (managed cfg envName) os
      (pruned (environmentLabels cfg envName) expected os) := by
  intro name o ho
  rw [lookup_pruned,Option.filter_eq_some_iff]
  simp [ho]

end Sync

end Dominion.Deploy.K8s
