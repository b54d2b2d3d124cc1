import Dominion.Framework.Lts
import Dominion.Deploy.K8s.Services

/-! # Convergence of applies

The objects of an environment after an apply, whatever the cluster held before. -/
namespace Dominion.Deploy.K8s

open Dominion.Framework
open Dominion.Deploy.Domain (Environment EnvironmentName)

variable {Q Spec : Type} {cfg : K8sConfig} {envName : String}

/-- What carries no labels of the environment is the same in both clusters. -/
structure Cluster.Untouched (cfg : K8sConfig) (envName : String) (c c' : Cluster Q) : Prop where
  deployments : Store.Untouched (managed cfg envName) c.deployments c'.deployments
  statefulSets : Store.Untouched (managed cfg envName) c.statefulSets c'.statefulSets
  services : Store.Untouched (managed cfg envName) c.services c'.services
  httpRoutes : Store.Untouched (managed cfg envName) c.httpRoutes c'.httpRoutes
  configMaps : Store.Untouched (managed cfg envName) c.configMaps c'.configMaps
  secrets : Store.Untouched (managed cfg envName) c.secrets c'.secrets
  pvcs : Store.Untouched (managed cfg envName) c.pvcs c'.pvcs

namespace Cluster.Untouched

variable {c c₁ c₂ : Cluster Q}

theorem refl (c : Cluster Q) : Untouched cfg envName c c :=
  ⟨.refl _ _,.refl _ _,.refl _ _,.refl _ _,.refl _ _,.refl _ _,.refl _ _⟩

theorem symm (h : Untouched cfg envName c c₁) : Untouched cfg envName c₁ c :=
  ⟨h.deployments.symm,h.statefulSets.symm,h.services.symm,h.httpRoutes.symm,h.configMaps.symm,
    h.secrets.symm,h.pvcs.symm⟩

theorem trans (h : Untouched cfg envName c c₁) (h' : Untouched cfg envName c₁ c₂) :
    Untouched cfg envName c c₂ :=
  ⟨h.deployments.trans h'.deployments,h.statefulSets.trans h'.statefulSets,
    h.services.trans h'.services,h.httpRoutes.trans h'.httpRoutes,
    h.configMaps.trans h'.configMaps,h.secrets.trans h'.secrets,h.pvcs.trans h'.pvcs⟩

end Cluster.Untouched

/-- The labelled objects of the cluster are the ones built. -/
structure Realized (cfg : K8sConfig) (envName : String) (b : Built Q) (c : Cluster Q) : Prop where
  deployments : Store.Realizes (managed cfg envName) Eq (entries b.deployments) c.deployments
  statefulSets : Store.Realizes (managed cfg envName) Eq (entries b.statefulSets) c.statefulSets
  services : Store.Realizes (managed cfg envName) SameService (entries b.services) c.services
  httpRoutes : Store.Realizes (managed cfg envName) Eq (entries b.httpRoutes) c.httpRoutes
  configMaps : Store.Realizes (managed cfg envName) Eq (entries b.configMaps) c.configMaps

/-- No two of the objects built share a name and differ, and no live object under one of their
names lacks the labels or resists its update. -/
structure Accepts (cfg : K8sConfig) (envName : String) (resists : Object Spec → Object Spec → Prop)
    (built : List (Object Spec)) (os : Objects Spec) : Prop where
  unambiguous : Store.Unambiguous (entries built)
  receptive : Store.Receptive (managed cfg envName) resists (entries built) os

instance [DecidableEq Spec] (resists : Object Spec → Object Spec → Prop) [DecidableRel resists]
    (built : List (Object Spec)) (os : Objects Spec) :
    Decidable (Accepts cfg envName resists built os) :=
  decidable_of_iff (Store.Unambiguous (entries built) ∧
      Store.Receptive (managed cfg envName) resists (entries built) os)
    ⟨fun h => ⟨h.1,h.2⟩,fun h => ⟨h.1,h.2⟩⟩

/-- The cluster accepts the objects built. -/
structure Cluster.Accepts (cfg : K8sConfig) (envName : String) (b : Built Q) (c : Cluster Q) :
    Prop where
  deployments : K8s.Accepts cfg envName (fun _ _ => False) b.deployments c.deployments
  statefulSets : K8s.Accepts cfg envName (fun _ _ => False) b.statefulSets c.statefulSets
  services : K8s.Accepts cfg envName ResistsService b.services c.services
  httpRoutes : K8s.Accepts cfg envName (fun _ _ => False) b.httpRoutes c.httpRoutes
  configMaps : K8s.Accepts cfg envName (fun _ _ => False) b.configMaps c.configMaps

instance (b : Built Q) (c : Cluster Q) : Decidable (c.Accepts cfg envName b) :=
  decidable_of_iff
    (K8s.Accepts cfg envName (fun _ _ => False) b.deployments c.deployments ∧
      K8s.Accepts cfg envName (fun _ _ => False) b.statefulSets c.statefulSets ∧
      K8s.Accepts cfg envName ResistsService b.services c.services ∧
      K8s.Accepts cfg envName (fun _ _ => False) b.httpRoutes c.httpRoutes ∧
      K8s.Accepts cfg envName (fun _ _ => False) b.configMaps c.configMaps)
    ⟨fun ⟨h₁,h₂,h₃,h₄,h₅⟩ => ⟨h₁,h₂,h₃,h₄,h₅⟩,fun ⟨h₁,h₂,h₃,h₄,h₅⟩ => ⟨h₁,h₂,h₃,h₄,h₅⟩⟩

section Kind

variable {names : List String} {built : List (Object Spec)}
  {merge : Option (Object Spec) → Object Spec → Object Spec}
  {rel resists : Object Spec → Object Spec → Prop}

/-- One kind: what an apply leaves is what was built just when the cluster accepts it. -/
theorem Expects.realizes_iff (h : Expects cfg envName names built)
    (hm : Store.Merges merge (managed cfg envName) rel resists (entries built))
    (os : Objects Spec) :
    Store.Realizes (managed cfg envName) rel (entries built)
        (pruned (environmentLabels cfg envName) names (os.putAll merge (entries built))) ∧
      Store.Untouched (managed cfg envName) os
        (pruned (environmentLabels cfg envName) names (os.putAll merge (entries built))) ↔
      Accepts cfg envName resists built os := by
  rw [(h.synced merge os).iff hm]
  exact ⟨fun h => ⟨h.1,h.2⟩,fun h => ⟨h.1,h.2⟩⟩

end Kind

section Apply

variable [Quantity Q] {addresses : String → Allocation} {env : Environment} {c c' : Cluster Q}
  {u : Unit}

/-- The workloads of a desired state that converts. -/
def workloads (cfg : K8sConfig) (env : Environment) : DeployObjects Q :=
  match convertToWorkloads env cfg with
  | .ok objects => objects
  | .error _ => {}

/-- What `ApplyResources` builds from a desired state. -/
def desiredObjects (cfg : K8sConfig) (env : Environment) : Built Q :=
  builtObjects cfg (workloads cfg env)

theorem Runs.applied (h : Runs (applyResources (Q := Q) cfg addresses env) c u c') :
    Complete cfg (workloads (Q := Q) cfg env) ∧
      (Realized cfg env.name.label (desiredObjects cfg env) c' ∧
          Cluster.Untouched cfg env.name.label c c' ↔
        c.Accepts cfg env.name.label (desiredObjects cfg env)) := by
  obtain ⟨objects,hconvert,hcomplete,hprune⟩ := h.of_applyResources
  have hworkloads : workloads cfg env = objects := by
    unfold workloads
    rw [hconvert]
  have hw := convertToWorkloads_within hconvert
  unfold desiredObjects
  rw [hworkloads]
  refine ⟨hcomplete,?_⟩
  have hc' := hprune.of_pruneResources
  have hdeployments := expects_deployments hcomplete hw
  have hstatefulSets := expects_statefulSets hcomplete hw
  have hservices := expects_services hcomplete hw
  have hhttpRoutes := expects_httpRoutes cfg hw
  have hconfigMaps := expects_configMaps hcomplete hw
  have h₁ := hdeployments.realizes_iff (merges_overwrite hdeployments) c.deployments
  have h₂ := hstatefulSets.realizes_iff (merges_overwrite hstatefulSets) c.statefulSets
  have h₃ := hservices.realizes_iff
    (merges_services addresses hservices unassigned_services) c.services
  have h₄ := hhttpRoutes.realizes_iff (merges_overwrite hhttpRoutes) c.httpRoutes
  have h₅ := hconfigMaps.realizes_iff (merges_overwrite hconfigMaps) c.configMaps
  rw [hc']
  constructor
  · rintro ⟨hr,hu⟩
    exact ⟨h₁.mp ⟨hr.deployments,hu.deployments⟩,h₂.mp ⟨hr.statefulSets,hu.statefulSets⟩,
      h₃.mp ⟨hr.services,hu.services⟩,h₄.mp ⟨hr.httpRoutes,hu.httpRoutes⟩,
      h₅.mp ⟨hr.configMaps,hu.configMaps⟩⟩
  · intro ha
    have r₁ := h₁.mpr ha.deployments
    have r₂ := h₂.mpr ha.statefulSets
    have r₃ := h₃.mpr ha.services
    have r₄ := h₄.mpr ha.httpRoutes
    have r₅ := h₅.mpr ha.configMaps
    exact ⟨⟨r₁.1,r₂.1,r₃.1,r₄.1,r₅.1⟩,⟨r₁.2,r₂.2,r₃.2,r₄.2,r₅.2,untouched_pruned _ _,
      Store.untouched_addAll (labelled_pvcs hw)⟩⟩

/-- The outcome of an apply: the labelled objects are those of the desired state, the Services of
its stateful workloads are headless and those of the stateless ones are not, and nothing else
has changed since `c₀`. -/
structure Converges (cfg : K8sConfig) (env : Environment) (c₀ c : Cluster Q) : Prop where
  realized : Realized cfg env.name.label (desiredObjects cfg env) c
  governing : ∀ w ∈ (workloads (Q := Q) cfg env).statefulWorkloads,
    ∃ o, c.services.lookup w.serviceResourceName = some o ∧ Headless o
  addressed : ∀ w ∈ (workloads (Q := Q) cfg env).deployments,
    ∃ o, c.services.lookup w.serviceResourceName = some o ∧ ¬Headless o
  untouched : Cluster.Untouched cfg env.name.label c₀ c

/-- Headlessness comes with the objects. -/
theorem Realized.converges {c₀ : Cluster Q} (hcomplete : Complete cfg (workloads (Q := Q) cfg env))
    (h : Realized cfg env.name.label (desiredObjects cfg env) c)
    (hu : Cluster.Untouched cfg env.name.label c₀ c) : Converges cfg env c₀ c where
  realized := h
  governing w hw := by
    obtain ⟨desired,hd,hheadless⟩ := mem_services_of_stateful hcomplete hw
    obtain ⟨o,ho,hsame⟩ := h.services.present _ desired hd
    exact ⟨o,ho,hsame.headless.mpr hheadless⟩
  addressed w hw := by
    obtain ⟨hd,hheadless⟩ := mem_services_of_deployment cfg hw
    obtain ⟨o,ho,hsame⟩ := h.services.present _ _ hd
    exact ⟨o,ho,fun hnone => hheadless (hsame.headless.mp hnone)⟩
  untouched := hu

/-- A call of `ApplyResources`, with what the server gives to new Services. -/
structure ApplyCall where
  env : Environment
  addresses : String → Allocation

/-- The successful applies of one environment. -/
def applies (cfg : K8sConfig) (name : EnvironmentName) : Lts (Cluster Q) ApplyCall where
  init _ := True
  step c call :=
    if call.env.name = name then
      match (applyResources cfg call.addresses call.env).run.run c with
      | (.ok (),c') => some c'
      | (.error _,_) => none
    else none

/-- The cluster accepts what the call builds. -/
def Compatible (cfg : K8sConfig) (c : Cluster Q) (call : ApplyCall) : Prop :=
  c.Accepts cfg call.env.name.label (desiredObjects cfg call.env)

instance (c : Cluster Q) (call : ApplyCall) : Decidable (Compatible cfg c call) :=
  inferInstanceAs (Decidable (Cluster.Accepts _ _ _ _))

theorem applies_step {name : EnvironmentName} {call : ApplyCall}
    (h : (applies cfg name).step c call = some c') :
    call.env.name = name ∧ Runs (applyResources (Q := Q) cfg call.addresses call.env) c () c' := by
  unfold applies at h
  dsimp only at h
  split at h
  · rename_i hname
    split at h
    · rename_i c₁ hruns
      cases h
      exact ⟨hname,hruns⟩
    · cases h
  · cases h

/-- Compatible applies leave alone what is not labelled. -/
theorem untouched_of_path {name : EnvironmentName} {c₀ : Cluster Q}
    (hpath : Relation.ReflTransGen (Lts.StepUnder (applies cfg name) (Compatible cfg)) c₀ c) :
    Cluster.Untouched cfg name.label c₀ c := by
  induction hpath with
  | refl => exact .refl c₀
  | tail _ hstep ih =>
    obtain ⟨call,hcompatible,hstep⟩ := hstep
    obtain ⟨rfl,hruns⟩ := applies_step hstep
    exact ih.trans (hruns.applied.2.mpr hcompatible).2

/-- From any cluster and after any history of compatible applies, an apply converges just when
it is compatible too. -/
theorem apply_converges_iff {name : EnvironmentName} {c₀ : Cluster Q} {call : ApplyCall}
    (hpath : Relation.ReflTransGen (Lts.StepUnder (applies cfg name) (Compatible cfg)) c₀ c)
    (hstep : (applies cfg name).step c call = some c') :
    Converges cfg call.env c₀ c' ↔ Compatible cfg c call := by
  have hbefore := untouched_of_path hpath
  obtain ⟨rfl,hruns⟩ := applies_step hstep
  obtain ⟨hcomplete,hiff⟩ := hruns.applied
  constructor
  · intro h
    exact hiff.mp ⟨h.realized,hbefore.symm.trans h.untouched⟩
  · intro h
    obtain ⟨hrealized,huntouched⟩ := hiff.mpr h
    exact hrealized.converges hcomplete (hbefore.trans huntouched)

end Apply

section Runs

/-- Whole numbers of bytes. -/
instance : Quantity Nat where
  zero := 0
  isZero q := q == 0
  parse text := text.toNat?.elim (.error (.new "quantity")) .ok
  cmp := compare
  text q := toString q

def demoConfig : K8sConfig where
  «namespace» := "default"
  managedBy := "deploy"
  gateway := ⟨"gateway","default"⟩
  tls := ⟨"tls","example.test",⟨"ca","ca.crt"⟩⟩
  oss := ⟨"oss","access","secret"⟩
  mongoDB := []
  redis := []

/-- One artifact `api` of the given kind. -/
def demoArtifact (kind : Domain.WorkloadKind) : Domain.ArtifactSpec where
  name := "api"
  app := "shop"
  image := "shop/api:1"
  ports := [⟨"http",8080⟩]
  replicas := 1
  tlsEnabled := false
  ossEnabled := false
  workloadKind := kind
  http := none
  env := []
  secretBindings := []
  configBlocks := []

/-- The artifact, or none. -/
def demoState (kind : Option Domain.WorkloadKind) : Domain.DesiredState :=
  ⟨(kind.map demoArtifact).toList,[]⟩

theorem demoState_wellFormed (kind : Option Domain.WorkloadKind) :
    (demoState kind).WellFormed := by
  rcases kind with _ | _ | _
  · exact ⟨rfl,rfl⟩
  · exact ⟨rfl,rfl⟩
  · exact ⟨rfl,rfl⟩

def demoCall (kind : Option Domain.WorkloadKind) : ApplyCall where
  env := {
    name := Domain.demoName
    envType := .dev
    description := ""
    desiredState := demoState kind
    status := {}
    generation := 1
    wellFormed := demoState_wellFormed kind }
  addresses _ := ⟨"10.0.0.1",["IPv4"],"SingleStack",by decide⟩

/-- The artifact is stateless, then removed, then stateful. -/
theorem apply_converges_demo : ∃ c c' : Cluster Nat,
    Relation.ReflTransGen (Lts.StepUnder (applies demoConfig Domain.demoName)
        (Compatible demoConfig)) {} c ∧
      (applies demoConfig Domain.demoName).step c (demoCall (some .stateful)) = some c' ∧
      Converges demoConfig (demoCall (some .stateful)).env {} c' := by
  have hrun : (((applies demoConfig Domain.demoName).runUnder
      (fun c call => decide (Compatible (Q := Nat) demoConfig c call)) {}
      [demoCall (some .stateless),demoCall none]).any fun c =>
        decide (Compatible demoConfig c (demoCall (some .stateful))) &&
          ((applies demoConfig Domain.demoName).step c (demoCall (some .stateful))).isSome) = true := by
    decide +kernel
  obtain ⟨c,hc,hcheck⟩ := Option.any_eq_true _ _ |>.mp hrun
  have hpath := Lts.path_of_runUnder (fun _ _ h => of_decide_eq_true h) _ hc
  obtain ⟨hcompatible,hstep⟩ := Bool.and_eq_true_iff.mp hcheck
  obtain ⟨c',hstep⟩ := Option.isSome_iff_exists.mp hstep
  exact ⟨c,c',hpath,hstep,(apply_converges_iff hpath hstep).mpr (of_decide_eq_true hcompatible)⟩

/-- A stateless artifact that becomes stateful keeps the address of its Service. -/
theorem kind_switch_keeps_address : ∃ c₁ c₂ : Cluster Nat,
    (applies demoConfig Domain.demoName).step {} (demoCall (some .stateless)) = some c₁ ∧
      (applies demoConfig Domain.demoName).step c₁ (demoCall (some .stateful)) = some c₂ ∧
      ¬Converges demoConfig (demoCall (some .stateful)).env {} c₂ := by
  have hrun : (((applies (Q := Nat) demoConfig Domain.demoName).step {}
      (demoCall (some .stateless))).any fun c₁ =>
        ((applies demoConfig Domain.demoName).step c₁ (demoCall (some .stateful))).any fun c₂ =>
          (workloads (Q := Nat) demoConfig (demoCall (some .stateful)).env).statefulWorkloads.any
            fun w => (c₂.services.lookup w.serviceResourceName).any fun o =>
              !decide (Headless o)) = true := by
    decide +kernel
  obtain ⟨c₁,h₁,hrun⟩ := Option.any_eq_true _ _ |>.mp hrun
  obtain ⟨c₂,h₂,hrun⟩ := Option.any_eq_true _ _ |>.mp hrun
  obtain ⟨w,hw,hrun⟩ := List.any_eq_true.mp hrun
  obtain ⟨o,ho,hheadless⟩ := Option.any_eq_true _ _ |>.mp hrun
  refine ⟨c₁,c₂,h₁,h₂,fun h => ?_⟩
  obtain ⟨o',ho',hheadless'⟩ := h.governing w hw
  rw [ho] at ho'
  cases ho'
  rw [decide_eq_true hheadless'] at hheadless
  cases hheadless

end Runs

end Dominion.Deploy.K8s
