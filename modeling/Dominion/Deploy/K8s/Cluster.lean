import Dominion.Framework.Store
import Dominion.Deploy.Domain.Errors
import Dominion.Deploy.K8s.Objects

/-! # The cluster

The objects of the runtime's namespace, by kind and name, and the calls of its clients.  With no
other writer a call fails only in that a get finds nothing; the resource version that an update
takes over from the live object is therefore left out. -/
namespace Dominion.Deploy.K8s

open Dominion.Framework
open Dominion.Deploy.Domain (Err)

/-- The objects of one kind. -/
abbrev Objects (Spec : Type) := Store String (Object Spec)

structure Cluster (Q : Type) where
  deployments : Objects DeploymentSpec := ∅
  statefulSets : Objects StatefulSetSpec := ∅
  services : Objects ServiceSpec := ∅
  httpRoutes : Objects HTTPRouteSpec := ∅
  configMaps : Objects ConfigMapData := ∅
  secrets : Objects Unit := ∅
  pvcs : Objects (PersistentVolumeClaimSpec Q) := ∅

/-- What the server gives to a new Service that asks for an address. -/
structure Allocation where
  clusterIP : String
  ipFamilies : List String
  ipFamilyPolicy : String
  isAddress : clusterIP ≠ clusterIPNone

/-- A run against the cluster: the calls before an error keep their effect. -/
abbrev Runtime (Q : Type) := ExceptT Err (StateM (Cluster Q))

/-- The client of one kind. -/
structure Client (Q Spec : Type) where
  objects : Cluster Q → Objects Spec
  setObjects : Objects Spec → Cluster Q → Cluster Q
  objects_set : ∀ os c, objects (setObjects os c) = os
  set_set : ∀ os os' c, setObjects os (setObjects os' c) = setObjects os c
  set_objects : ∀ c, setObjects (objects c) c = c

namespace Client

variable {Q Spec : Type}

def deployments : Client Q DeploymentSpec :=
  ⟨Cluster.deployments,fun os c => { c with deployments := os },fun _ _ => rfl,fun _ _ _ => rfl,
    fun _ => rfl⟩

def statefulSets : Client Q StatefulSetSpec :=
  ⟨Cluster.statefulSets,fun os c => { c with statefulSets := os },fun _ _ => rfl,
    fun _ _ _ => rfl,fun _ => rfl⟩

def services : Client Q ServiceSpec :=
  ⟨Cluster.services,fun os c => { c with services := os },fun _ _ => rfl,fun _ _ _ => rfl,
    fun _ => rfl⟩

def httpRoutes : Client Q HTTPRouteSpec :=
  ⟨Cluster.httpRoutes,fun os c => { c with httpRoutes := os },fun _ _ => rfl,fun _ _ _ => rfl,
    fun _ => rfl⟩

def configMaps : Client Q ConfigMapData :=
  ⟨Cluster.configMaps,fun os c => { c with configMaps := os },fun _ _ => rfl,fun _ _ _ => rfl,
    fun _ => rfl⟩

def secrets : Client Q Unit :=
  ⟨Cluster.secrets,fun os c => { c with secrets := os },fun _ _ => rfl,fun _ _ _ => rfl,
    fun _ => rfl⟩

def pvcs : Client Q (PersistentVolumeClaimSpec Q) :=
  ⟨Cluster.pvcs,fun os c => { c with pvcs := os },fun _ _ => rfl,fun _ _ _ => rfl,fun _ => rfl⟩

variable (client : Client Q Spec)

/-- `none` is the error that `IsNotFound` recognizes. -/
def get (name : String) : Runtime Q (Option (Object Spec)) := do
  return (client.objects (← getThe (Cluster Q))).lookup name

/-- The effect of a create and of an update. -/
def put (o : Object Spec) : Runtime Q Unit :=
  modifyThe (Cluster Q) fun c =>
    client.setObjects ((client.objects c).insert o.metadata.name o) c

def list (selector : Labels) : Runtime Q (List (Σ _ : String, Object Spec)) := do
  return (client.objects (← getThe (Cluster Q))).entries.filter fun o =>
    selects selector o.2.metadata.labels

def delete (name : String) : Runtime Q Unit :=
  modifyThe (Cluster Q) fun c => client.setObjects ((client.objects c).erase name) c

end Client

/-- The server creates a Service. -/
def Allocation.assign (a : Allocation) (desired : Service) : Service :=
  let clusterIP := if desired.spec.clusterIP = "" then a.clusterIP else desired.spec.clusterIP
  { desired with spec := { desired.spec with
      clusterIP := clusterIP
      clusterIPs := [clusterIP]
      ipFamilies := a.ipFamilies
      ipFamilyPolicy := some a.ipFamilyPolicy } }

end Dominion.Deploy.K8s
