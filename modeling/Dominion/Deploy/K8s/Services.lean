import Dominion.Deploy.K8s.Prune

/-! # The merge of a Service

What the server has assigned to a live Service survives an update, and so does the lack of an
address. -/
namespace Dominion.Deploy.K8s

open Dominion.Framework
open Dominion.Deploy.Domain (Err)

variable {Q Spec α : Type} {cfg : K8sConfig} {envName : String}

/-- A Service without an address of its own. -/
def Headless (o : Service) : Prop :=
  o.spec.clusterIP = clusterIPNone

instance (o : Service) : Decidable (Headless o) :=
  inferInstanceAs (Decidable (_ = _))

/-- The live Service is the one built, up to what the server assigns. -/
structure SameService (live desired : Service) : Prop where
  metadata : live.metadata = desired.metadata
  selector : live.spec.selector = desired.spec.selector
  ports : live.spec.ports = desired.spec.ports
  headless : Headless live ↔ Headless desired

/-- An update cannot make the live Service into the one built. -/
def ResistsService (live desired : Service) : Prop :=
  ¬(Headless live ↔ Headless desired)

instance (live desired : Service) : Decidable (ResistsService live desired) :=
  inferInstanceAs (Decidable (¬_))

theorem Unassigned.eq_of_sameService {live desired desired' : Service} (hu : Unassigned desired)
    (hu' : Unassigned desired') (h : SameService live desired) (h' : SameService live desired') :
    desired = desired' := by
  have hmetadata := h.metadata.symm.trans h'.metadata
  have hselector := h.selector.symm.trans h'.selector
  have hports := h.ports.symm.trans h'.ports
  have hheadless := h.headless.symm.trans h'.headless
  obtain ⟨metadata,spec⟩ := desired
  obtain ⟨metadata',spec'⟩ := desired'
  unfold Unassigned at hu hu'
  unfold Headless at hheadless
  dsimp only at hmetadata hselector hports hu hu' hheadless
  rw [hmetadata]
  congr 1
  rcases hu with hu | hu <;> rcases hu' with hu' | hu' <;> rw [hu,hu'] at hheadless <;>
    rw [hu,hu',hselector,hports]
  · have hnone : "" = clusterIPNone := hheadless.mpr rfl
    exact absurd hnone (by decide)
  · have hnone : "" = clusterIPNone := hheadless.mp rfl
    exact absurd hnone (by decide)

/-- The server gives an address to a Service that asks for one, and to no other. -/
theorem headless_assign {a : Allocation} {desired : Service} (h : Unassigned desired) :
    Headless (a.assign desired) ↔ Headless desired := by
  unfold Headless Allocation.assign
  rcases h with h | h
  · rw [h]
    dsimp only
    rw [if_pos rfl]
    exact ⟨fun hnone => absurd hnone a.isAddress,fun hnone => absurd hnone (by decide)⟩
  · rw [h]
    dsimp only
    rw [if_neg (by decide : clusterIPNone ≠ "")]

theorem sameService_assign {a : Allocation} {desired : Service} (h : Unassigned desired) :
    SameService (a.assign desired) desired :=
  ⟨rfl,rfl,rfl,headless_assign h⟩

/-- An update keeps the address of the live Service, or its lack of one. -/
theorem sameService_carryOver (current desired : Service) :
    SameService (carryOver current desired) desired ↔ ¬ResistsService current desired := by
  unfold ResistsService
  rw [not_not]
  exact ⟨SameService.headless,fun h => ⟨rfl,rfl,rfl,h⟩⟩

theorem serviceMerge_idem (addresses : String → Allocation) (live : Option Service)
    (desired : Service) :
    serviceMerge addresses (some (serviceMerge addresses live desired)) desired =
      serviceMerge addresses live desired := by
  cases live with
  | none => rfl
  | some current => rfl

theorem sameService_serviceMerge {addresses : String → Allocation} {desired : Service}
    (h : Unassigned desired) (live : Option Service) :
    SameService (serviceMerge addresses live desired) desired ↔
      ∀ current, live = some current → ¬ResistsService current desired := by
  cases live with
  | none =>
    have hsame : SameService (serviceMerge addresses none desired) desired := sameService_assign h
    simp [hsame]
  | some current =>
    have hiff := sameService_carryOver current desired
    constructor
    · rintro hsame _ ⟨⟩
      exact hiff.mp hsame
    · intro hresists
      exact hiff.mpr (hresists current rfl)

theorem merges_services {names : List String} {os : List Service} (addresses : String → Allocation)
    (h : Expects cfg envName names os) (hu : ∀ o ∈ os, Unassigned o) :
    Store.Merges (serviceMerge addresses) (managed cfg envName) SameService ResistsService
      (entries os) where
  idem := serviceMerge_idem addresses
  rel_iff name desired hd live := sameService_serviceMerge (hu desired (mem_entries hd).1) live
  managed_of_rel name desired hd live hsame := by
    have hlabelled := h.labelled name desired hd
    unfold managed at hlabelled ⊢
    rw [hsame.metadata]
    exact hlabelled
  rel_det name desired desired' hd hd' live hsame hsame' :=
    (hu desired (mem_entries hd).1).eq_of_sameService (hu desired' (mem_entries hd').1) hsame hsame'

/-- The objects of the other kinds are overwritten. -/
theorem merges_overwrite {names : List String} {os : List (Object Spec)}
    (h : Expects cfg envName names os) :
    Store.Merges overwrite (managed cfg envName) Eq (fun _ _ => False) (entries os) :=
  Store.Merges.overwrite h.labelled

section Built

variable [Quantity Q] {objects : DeployObjects Q}

theorem mem_toOption_toList {r : Except Err α} {a : α} (h : a ∈ r.toOption.toList) : r = .ok a := by
  cases r with
  | error e => cases h
  | ok b => rw [List.mem_singleton.mp h]

theorem mem_flatMap_toOption {f : α → Except Err Service} {ws : List α} {o : Service}
    (h : o ∈ ws.flatMap fun w => (f w).toOption.toList) : ∃ w ∈ ws, f w = .ok o := by
  obtain ⟨w,hw,ho⟩ := List.mem_flatMap.mp h
  exact ⟨w,hw,mem_toOption_toList ho⟩

theorem unassigned_services : ∀ o ∈ (builtObjects cfg objects).services, Unassigned o := by
  rw [builtObjects_services]
  simp only [List.forall_mem_append]
  refine ⟨?_,?_,?_,?_⟩
  · intro o ho
    obtain ⟨w,-,rfl⟩ := List.mem_map.mp ho
    exact Or.inl rfl
  · intro o ho
    obtain ⟨w,-,hbuilt⟩ := mem_flatMap_toOption ho
    exact (buildGoverningService_ok hbuilt).2.2
  · intro o ho
    obtain ⟨w,-,hbuilt⟩ := mem_flatMap_toOption ho
    exact (buildMongoDBService_ok hbuilt).2
  · intro o ho
    obtain ⟨w,-,hbuilt⟩ := mem_flatMap_toOption ho
    exact (buildRedisService_ok hbuilt).2

theorem objectMeta_name (name app serviceName environmentName : String) :
    (objectMeta name app serviceName environmentName cfg).name = name := rfl

/-- The governing Service of a stateful workload is among those built. -/
theorem mem_services_of_stateful {w : StatefulWorkload} (h : Complete cfg objects)
    (hw : w ∈ objects.statefulWorkloads) :
    ∃ o, (w.serviceResourceName,o) ∈ entries (builtObjects cfg objects).services ∧ Headless o := by
  obtain ⟨o,ho⟩ := h.governingServices w hw
  obtain ⟨hmeta,hheadless,-⟩ := buildGoverningService_ok ho
  refine ⟨o,?_,hheadless⟩
  have hmem : o ∈ (builtObjects cfg objects).services := by
    rw [builtObjects_services]
    apply List.mem_append_right
    apply List.mem_append_left
    apply List.mem_flatMap.mpr
    refine ⟨w,hw,?_⟩
    rw [ho]
    exact List.mem_singleton_self o
  apply mem_entries_of_mem hmem
  rw [hmeta,objectMeta_name]

theorem buildService_metadata (w : DeploymentWorkload) : (buildService w cfg).metadata =
    objectMeta w.serviceResourceName w.app w.serviceName w.environmentName cfg := rfl

theorem buildService_clusterIP (w : DeploymentWorkload) : (buildService w cfg).spec.clusterIP = "" :=
  rfl

/-- So is the Service of a deployment. -/
theorem mem_services_of_deployment (cfg : K8sConfig) {w : DeploymentWorkload}
    (hw : w ∈ objects.deployments) :
    (w.serviceResourceName,buildService w cfg) ∈ entries (builtObjects cfg objects).services ∧
      ¬Headless (buildService w cfg) := by
  constructor
  · have hmem : buildService w cfg ∈ (builtObjects cfg objects).services := by
      rw [builtObjects_services]
      apply List.mem_append_left
      exact List.mem_map_of_mem hw
    apply mem_entries_of_mem hmem
    rw [buildService_metadata,objectMeta_name]
  · unfold Headless
    rw [buildService_clusterIP]
    decide

theorem buildInfraPVC_ok {w : InfraWorkload Q} {what : String} {storage : StorageConfig}
    {o : PersistentVolumeClaim Q} (h : buildInfraPVC w what storage cfg = .ok o) :
    o.metadata = w.meta cfg w.pvcResourceName := by
  unfold buildInfraPVC at h
  split at h
  · cases h
  · rw [← Except.ok.inj h]
    rfl

theorem buildMongoDBPVC_ok {w : MongoDBWorkload Q} {o : PersistentVolumeClaim Q}
    (h : buildMongoDBPVC w cfg = .ok o) : o.metadata = w.meta cfg w.pvcResourceName := by
  obtain ⟨u,-,h⟩ := bind_ok h
  split at h
  · cases h
  · obtain ⟨profile,-,h⟩ := bind_ok h
    exact buildInfraPVC_ok h

theorem buildRedisPVC_ok {w : RedisWorkload Q} {o : PersistentVolumeClaim Q}
    (h : buildRedisPVC w cfg = .ok o) : o.metadata = w.meta cfg w.pvcResourceName := by
  obtain ⟨u,-,h⟩ := bind_ok h
  split at h
  · cases h
  · obtain ⟨profile,-,h⟩ := bind_ok h
    exact buildInfraPVC_ok h

theorem builtObjects_pvcs : (builtObjects cfg objects).pvcs =
    objects.mongoDBWorkloads.flatMap (fun w =>
      if w.persistence.enabled then (buildMongoDBPVC w cfg).toOption.toList else []) ++
    objects.redisWorkloads.flatMap fun w =>
      if w.persistence.enabled then (buildRedisPVC w cfg).toOption.toList else [] := by
  simp [builtObjects,builtConfigMaps,builtGoverningService,builtStatefulSet,builtMongoDB,builtRedis,
    List.flatMap_map,flatMap_nil]

theorem labelled_pvcs (hw : objects.Within envName) :
    ∀ name o, (name,o) ∈ entries (builtObjects cfg objects).pvcs → managed cfg envName o = true := by
  intro name o h
  have hmem := (mem_entries h).1
  rw [builtObjects_pvcs,List.mem_append,List.mem_flatMap,List.mem_flatMap] at hmem
  unfold managed
  rcases hmem with ⟨w,hmongoDB,ho⟩ | ⟨w,hredis,ho⟩
  · split at ho
    · rw [buildMongoDBPVC_ok (mem_toOption_toList ho)]
      exact InfraWorkload.meta_labels (hw.mongoDBWorkloads w hmongoDB) _
    · cases ho
  · split at ho
    · rw [buildRedisPVC_ok (mem_toOption_toList ho)]
      exact InfraWorkload.meta_labels (hw.redisWorkloads w hredis) _
    · cases ho

end Built

end Dominion.Deploy.K8s
