import Dominion.Deploy.K8s.Converge
import Mathlib.Data.List.Perm.Basic

/-! # Collisions of resource names

The name of a resource keeps of its service only the sanitised name, which is not injective, and
artifacts and infrastructure of both kinds share the prefixes of Services and claims. -/
namespace Dominion.Deploy.K8s

open Dominion.Framework
open Dominion.Deploy.Domain (ArtifactSpec ConfigBlock Environment EnvironmentType Err InfraSpec)

/-! ## Names -/

section names

theorem append_right_injective (s : String) {t t' : String} (h : s ++ t = s ++ t') : t = t' := by
  have hlist := congrArg String.toList h
  simp only [String.toList_append] at hlist
  exact String.toList_injective (List.append_cancel_left hlist)

theorem append_left_injective (s : String) {t t' : String} (h : t ++ s = t' ++ s) : t = t' := by
  have hlist := congrArg String.toList h
  simp only [String.toList_append] at hlist
  exact String.toList_injective (List.append_cancel_right hlist)

/-- The parts of a name before the service. -/
def nameHead (kind : WorkloadKind) (fullEnvName : String) : String :=
  let kind := if kind = .empty then .unknown else kind
  "-".intercalate (([kind.toString,fullEnvName].map sanitizeNamePart).filter (· ≠ "")) ++ "-"

/-- The service and the hash; a service without a sanitised name leaves the hash alone. -/
def nameTail (service hash : String) : String :=
  if service = "" then hash else service ++ "-" ++ hash

theorem kind_not_blank (kind : WorkloadKind) (h : kind ≠ .empty) :
    sanitizeNamePart kind.toString ≠ "" := by
  cases kind with
  | empty => exact absurd rfl h
  | _ => decide

/-- A character that every step of the sanitising keeps. -/
def Plain (c : Char) : Prop :=
  Text.lowerChar c = c ∧ Text.isSpace c = false ∧ isDNSLabelChar c = true ∧ c ≠ '-'

theorem hexDigit_plain (n : UInt8) (h : n.toNat < 16) : Plain (hexDigit n) := by
  have hall : ∀ k : Fin 16, Text.lowerChar (hexDigit (UInt8.ofNat k)) = hexDigit (UInt8.ofNat k) ∧
      Text.isSpace (hexDigit (UInt8.ofNat k)) = false ∧
      isDNSLabelChar (hexDigit (UInt8.ofNat k)) = true ∧ hexDigit (UInt8.ofNat k) ≠ '-' := by
    decide
  have hn := hall ⟨n.toNat,h⟩
  rw [UInt8.ofNat_toNat] at hn
  exact hn

theorem replaceRuns_of_forall {ok : Char → Bool} {filler : Char} {inRun : Bool} {cs : List Char}
    (h : ∀ c ∈ cs, ok c = true) : Text.replaceRuns ok filler inRun cs = cs := by
  induction cs generalizing inRun with
  | nil => rfl
  | cons c cs ih =>
    rw [Text.replaceRuns,if_pos (h c List.mem_cons_self),ih fun d hd => h d (List.mem_cons_of_mem c hd)]

theorem sanitizeNamePart_of_plain {part : String} (h : ∀ c ∈ part.toList, Plain c) :
    sanitizeNamePart part = part := by
  have hlower : Text.toLower part = part := by
    rw [Text.toLower,List.map_congr_left fun c hc => (h c hc).1,List.map_id',String.ofList_toList]
  have htrim := Text.trimSpace_of_forall fun c hc => (h c hc).2.1
  have hdash : ∀ c ∈ part.toList, (c == '-') = false := by
    intro c hc
    simpa using (h c hc).2.2.2
  rw [sanitizeNamePart]
  simp only [hlower,htrim,Text.trim,replaceRuns_of_forall fun c hc => (h c hc).2.2.1,
    Text.dropWhile_of_forall hdash,Text.rdropWhile_of_forall hdash,String.ofList_toList]

theorem shortNameHash_plain (fullEnvName : String) :
    ∀ c ∈ (shortNameHash fullEnvName).toList, Plain c := by
  intro c hc
  simp only [shortNameHash,hexString,String.toList_ofList,List.mem_flatMap] at hc
  obtain ⟨b,-,hc⟩ := hc
  have hb := b.toNat_lt
  rcases List.mem_cons.mp hc with rfl | hc
  · refine hexDigit_plain _ ?_
    rw [UInt8.toNat_div]
    simp only [UInt8.reduceToNat]
    omega
  · rw [List.mem_singleton.mp hc]
    refine hexDigit_plain _ ?_
    rw [UInt8.toNat_mod]
    simp only [UInt8.reduceToNat]
    omega

theorem shortNameHash_ne (fullEnvName : String) : shortNameHash fullEnvName ≠ "" := by
  intro h
  have hlist := congrArg String.toList h
  simp only [shortNameHash,hexString,String.toList_ofList] at hlist
  have hlength := Sha256.sha256_length (bytes (Text.trimSpace fullEnvName))
  cases hsum : Sha256.sha256 (bytes (Text.trimSpace fullEnvName)) with
  | nil =>
    rw [hsum] at hlength
    cases hlength
  | cons b bs => simp [hsum] at hlist

theorem newObjectName_eq (kind : WorkloadKind) (fullEnvName serviceName : String) :
    newObjectName kind fullEnvName serviceName = nameHead kind fullEnvName ++
      nameTail (sanitizeNamePart serviceName) (shortNameHash fullEnvName) := by
  have hplain := sanitizeNamePart_of_plain (shortNameHash_plain fullEnvName)
  have hhash : sanitizeNamePart (shortNameHash fullEnvName) ≠ "" := by
    rw [hplain]
    exact shortNameHash_ne fullEnvName
  have hkind : sanitizeNamePart (if kind = .empty then WorkloadKind.unknown else kind).toString ≠
      "" := by
    split
    · exact kind_not_blank .unknown (by decide)
    · rename_i h
      exact kind_not_blank kind h
  have hhead : (([(if kind = .empty then WorkloadKind.unknown else kind).toString,fullEnvName].map
      sanitizeNamePart).filter (· ≠ "")) ≠ [] := by
    simp [hkind]
  have hparts : ((([(if kind = .empty then WorkloadKind.unknown else kind).toString,fullEnvName,
      serviceName,shortNameHash fullEnvName].map sanitizeNamePart).filter (· ≠ ""))) =
      (([(if kind = .empty then WorkloadKind.unknown else kind).toString,fullEnvName].map
        sanitizeNamePart).filter (· ≠ "")) ++
      (([serviceName,shortNameHash fullEnvName].map sanitizeNamePart).filter (· ≠ "")) := by
    rw [← List.filter_append,← List.map_append]
    rfl
  unfold newObjectName nameHead nameTail
  dsimp only
  rw [hparts,String.intercalate_append_of_ne_nil hhead (by simp [hhash])]
  by_cases hservice : sanitizeNamePart serviceName = ""
  · simp [hservice,hplain,shortNameHash_ne]
  · simp [hservice,hplain,shortNameHash_ne]

theorem nameTail_injective {s s' hash : String}
    (h : nameTail s hash = nameTail s' hash) : s = s' := by
  have hlonger : ∀ t : String, t ≠ "" → hash ≠ t ++ "-" ++ hash := by
    intro t ht he
    have hlength := congrArg String.length he
    simp only [String.length_append] at hlength
    have hpos : "-".length = 1 := rfl
    omega
  unfold nameTail at h
  by_cases hs : s = "" <;> by_cases hs' : s' = ""
  · rw [hs,hs']
  · rw [if_pos hs,if_neg hs'] at h
    exact absurd h (hlonger s' hs')
  · rw [if_neg hs,if_pos hs'] at h
    exact absurd h.symm (hlonger s hs)
  · rw [if_neg hs,if_neg hs'] at h
    exact append_left_injective "-" (append_left_injective hash h)

/-- Two services of an environment share a resource name just when their sanitised names agree. -/
theorem newObjectName_eq_iff {kind : WorkloadKind} {fullEnvName s s' : String} :
    newObjectName kind fullEnvName s = newObjectName kind fullEnvName s' ↔
      sanitizeNamePart s = sanitizeNamePart s' := by
  rw [newObjectName_eq,newObjectName_eq]
  constructor
  · intro h
    exact nameTail_injective (append_right_injective _ h)
  · intro h
    rw [h]

/-- The first character of a name is that of its kind. -/
theorem head_newObjectName {kind : WorkloadKind} (h : kind ≠ .empty) (fullEnvName s : String) :
    (newObjectName kind fullEnvName s).toList.head? =
      (sanitizeNamePart kind.toString).toList.head? := by
  have hkind := kind_not_blank kind h
  have hlist : (sanitizeNamePart kind.toString).toList ≠ [] := by
    intro hnil
    exact hkind (String.toList_injective (hnil.trans rfl))
  obtain ⟨c,cs,hc⟩ := List.exists_cons_of_ne_nil hlist
  rw [newObjectName_eq]
  by_cases henv : sanitizeNamePart fullEnvName = ""
  · simp [nameHead,h,hkind,henv,hc]
  · simp [nameHead,h,hkind,henv,hc]

end names

/-! ## Conversion -/

section conversion

variable {Q : Type} {cfg : K8sConfig} {envName : String} {envType : EnvironmentType}

/-- A fold that succeeds keeps what its steps keep of the part it has been through. -/
theorem foldlM_prefix {α σ : Type} {P : List α → σ → Prop} {f : σ → α → Except Err σ}
    (hf : ∀ d s x s', P d s → f s x = .ok s' → P (d ++ [x]) s') {d xs : List α}
    {s s' : σ} (hs : P d s) (h : xs.foldlM f s = .ok s') : P (d ++ xs) s' := by
  induction xs generalizing d s with
  | nil =>
    cases h
    rwa [List.append_nil]
  | cons x xs ih =>
    rw [List.foldlM_cons] at h
    obtain ⟨s₁,hx,h⟩ := bind_ok h
    have hrest := ih (hf d s x s₁ hs hx) h
    rwa [List.append_assoc] at hrest

def isStateless (a : ArtifactSpec) : Bool :=
  decide (a.workloadKind = .stateless)

def isRouted (a : ArtifactSpec) : Bool :=
  isStateless a && a.http.any fun http => decide (http.matches ≠ [])

def isMongoDB (i : InfraSpec) : Bool :=
  decide (i.resource = infraResourceMongoDB)

/-- The workloads of the artifacts. -/
structure ConvertedArtifacts (envName : String) (envType : EnvironmentType)
    (artifacts : List ArtifactSpec) (objects : DeployObjects Q) : Prop where
  deployments : objects.deployments = (artifacts.filter isStateless).map fun a =>
    convertArtifactToDeployment a envName envType
  stateful : objects.statefulWorkloads = (artifacts.filter fun a => !isStateless a).map fun a =>
    convertArtifactToStatefulWorkload a envName envType
  routes : objects.httpRoutes.map HTTPRouteWorkload.serviceName =
    (artifacts.filter isRouted).map ArtifactSpec.name

theorem convertedArtifacts_step {done : List ArtifactSpec} {objects objects' : DeployObjects Q}
    {a : ArtifactSpec} (h : ConvertedArtifacts envName envType done objects)
    (hadd : addArtifact cfg envName envType objects a = .ok objects') :
    ConvertedArtifacts envName envType (done ++ [a]) objects' := by
  unfold addArtifact at hadd
  split at hadd
  · rename_i hkind
    have hs : isStateless a = false := by simp [isStateless,hkind]
    cases hadd
    exact ⟨by simp [h.deployments,hs],by simp [h.stateful,hs],by simp [h.routes,isRouted,hs]⟩
  · rename_i hkind
    have hs : isStateless a = true := by simp [isStateless,hkind]
    dsimp only at hadd
    split at hadd
    · rename_i hnone
      cases hadd
      exact ⟨by simp [h.deployments,hs],by simp [h.stateful,hs],
        by simp [h.routes,isRouted,hs,hnone]⟩
    · rename_i http hsome
      split at hadd
      · rename_i hempty
        cases hadd
        exact ⟨by simp [h.deployments,hs],by simp [h.stateful,hs],
          by simp [h.routes,isRouted,hs,hsome,hempty]⟩
      · rename_i hmatches
        obtain ⟨route,hroute,hadd⟩ := bind_ok hadd
        obtain ⟨converted,-,hroute⟩ := bind_ok hroute
        cases hadd
        cases hroute
        exact ⟨by simp [h.deployments,hs],by simp [h.stateful,hs],
          by simp [h.routes,isRouted,hs,hsome,hmatches]⟩

/-- The workloads of the infrastructure, each of one of the two kinds. -/
structure ConvertedInfras (infras : List InfraSpec) (objects : DeployObjects Q) : Prop where
  mongoDB : objects.mongoDBWorkloads.map (fun w => w.serviceName) =
    (infras.filter isMongoDB).map InfraSpec.name
  redis : objects.redisWorkloads.map (fun w => w.serviceName) =
    (infras.filter fun i => !isMongoDB i).map InfraSpec.name

variable [Quantity Q]

theorem convertInfra_serviceName {infra : InfraSpec} {w : InfraWorkload Q}
    (h : convertInfra infra envName = .ok w) : w.serviceName = infra.name := by
  obtain ⟨persistence,-,hw⟩ := bind_ok h
  cases hw
  rfl

theorem convertedInfras_step {done : List InfraSpec} {objects objects' : DeployObjects Q}
    {infra : InfraSpec} (h : ConvertedInfras done objects)
    (hadd : addInfra envName objects infra = .ok objects') :
    ConvertedInfras (done ++ [infra]) objects' := by
  unfold addInfra at hadd
  split at hadd
  · rename_i hkind
    have hm : isMongoDB infra = true := by simp [isMongoDB,hkind]
    obtain ⟨w,hw,hadd⟩ := bind_ok hadd
    obtain ⟨base,hbase,hw⟩ := bind_ok hw
    have hname := convertInfra_serviceName hbase
    cases hadd
    cases hw
    exact ⟨by simp [h.mongoDB,hm,hname],by simp [h.redis,hm]⟩
  · rename_i hkind
    have hm : isMongoDB infra = false := by simp [isMongoDB,hkind]
    split at hadd
    · obtain ⟨w,hw,hadd⟩ := bind_ok hadd
      obtain ⟨base,hbase,hw⟩ := bind_ok hw
      have hname := convertInfra_serviceName hbase
      cases hadd
      cases hw
      exact ⟨by simp [h.mongoDB,hm],by simp [h.redis,hm,hname]⟩
    · cases hadd

theorem addInfra_artifacts {objects objects' : DeployObjects Q} {infra : InfraSpec}
    (hadd : addInfra envName objects infra = .ok objects') :
    objects'.deployments = objects.deployments ∧
      objects'.statefulWorkloads = objects.statefulWorkloads ∧
      objects'.httpRoutes = objects.httpRoutes := by
  unfold addInfra at hadd
  split at hadd
  · obtain ⟨w,-,hadd⟩ := bind_ok hadd
    cases hadd
    exact ⟨rfl,rfl,rfl⟩
  · split at hadd
    · obtain ⟨w,-,hadd⟩ := bind_ok hadd
      cases hadd
      exact ⟨rfl,rfl,rfl⟩
    · cases hadd

omit [Quantity Q] in
theorem addArtifact_infras {objects objects' : DeployObjects Q} {a : ArtifactSpec}
    (hadd : addArtifact cfg envName envType objects a = .ok objects') :
    objects'.mongoDBWorkloads = objects.mongoDBWorkloads ∧
      objects'.redisWorkloads = objects.redisWorkloads := by
  unfold addArtifact at hadd
  split at hadd
  · cases hadd
    exact ⟨rfl,rfl⟩
  · dsimp only at hadd
    split at hadd
    · cases hadd
      exact ⟨rfl,rfl⟩
    · split at hadd
      · cases hadd
        exact ⟨rfl,rfl⟩
      · obtain ⟨route,-,hadd⟩ := bind_ok hadd
        cases hadd
        exact ⟨rfl,rfl⟩

theorem converted {env : Environment} {objects : DeployObjects Q}
    (h : convertToWorkloads env cfg = .ok objects) :
    ConvertedArtifacts env.name.label env.envType env.desiredState.artifacts objects ∧
      ConvertedInfras env.desiredState.infras objects := by
  obtain ⟨middle,hartifacts,hinfras⟩ := bind_ok h
  have hfirst := foldlM_prefix (d := []) (P := fun done objects =>
      ConvertedArtifacts env.name.label env.envType done objects ∧
        objects.mongoDBWorkloads = [] ∧ objects.redisWorkloads = [])
    (fun done s a s' hs hadd => ⟨convertedArtifacts_step hs.1 hadd,
      (addArtifact_infras hadd).1.trans hs.2.1,(addArtifact_infras hadd).2.trans hs.2.2⟩)
    ⟨⟨rfl,rfl,rfl⟩,rfl,rfl⟩ hartifacts
  have hstart : ConvertedInfras [] middle := ⟨by rw [hfirst.2.1]; rfl,by rw [hfirst.2.2]; rfl⟩
  have hsecond := foldlM_prefix (d := []) (P := fun done objects =>
      ConvertedInfras done objects ∧ objects.deployments = middle.deployments ∧
        objects.statefulWorkloads = middle.statefulWorkloads ∧
        objects.httpRoutes = middle.httpRoutes)
    (fun done s i s' hs hadd => by
      obtain ⟨hd,hs',hr⟩ := addInfra_artifacts hadd
      exact ⟨convertedInfras_step hs.1 hadd,hd.trans hs.2.1,hs'.trans hs.2.2.1,hr.trans hs.2.2.2⟩)
    ⟨hstart,rfl,rfl,rfl⟩ hinfras
  obtain ⟨hinfra,hd,hs,hr⟩ := hsecond
  refine ⟨⟨?_,?_,?_⟩,hinfra⟩
  · rw [hd]
    exact hfirst.1.deployments
  · rw [hs]
    exact hfirst.1.stateful
  · rw [hr]
    exact hfirst.1.routes

end conversion

/-! ## Distinct names -/

section distinct

variable {Q : Type} {cfg : K8sConfig} {env : Environment} {objects : DeployObjects Q}

/-- The claims that an apply creates. -/
def claimNames (objects : DeployObjects Q) : List String :=
  (objects.mongoDBWorkloads.filter fun w => w.persistence.enabled).map (fun w => w.pvcResourceName) ++
    (objects.redisWorkloads.filter fun w => w.persistence.enabled).map fun w => w.pvcResourceName

/-- The names of the ConfigMaps of a workload, where `BuildConfigMaps` succeeds. -/
def builtConfigMapNames (cfg : K8sConfig) (workloadName : String) (w : ArtifactWorkload) :
    List String :=
  match buildConfigMaps w workloadName cfg with
  | .ok _ => configMapNames workloadName w
  | .error _ => []

/-- The artifact workloads with their names. -/
def namedWorkloads (objects : DeployObjects Q) : List (String × ArtifactWorkload) :=
  objects.deployments.map (fun w => (w.workloadName,w.toArtifactWorkload)) ++
    objects.statefulWorkloads.map fun w => (w.workloadName,w.toArtifactWorkload)

/-- Within each kind no two workloads share a resource name. -/
structure NamesDistinct (cfg : K8sConfig) (objects : DeployObjects Q) : Prop where
  deployments : (buildExpectedApplyResources objects).deployments.Nodup
  statefulSets : (buildExpectedApplyResources objects).statefulSets.Nodup
  services : (buildExpectedApplyResources objects).services.Nodup
  httpRoutes : (buildExpectedApplyResources objects).httpRoutes.Nodup
  claims : (claimNames objects).Nodup
  configMaps : ((namedWorkloads objects).flatMap fun w => builtConfigMapNames cfg w.1 w.2).Nodup

/-- The resource name of an artifact's workload. -/
def workloadNameOf (env : Environment) (a : ArtifactSpec) : String :=
  newObjectName (if isStateless a then .deployment else .statefulSet) env.name.label a.name

/-- The name of the second workload, with one of its blocks, reads as the first with one of its. -/
def Shadows (w block w' block' : String) : Prop :=
  ∃ rest, w' = w ++ "-config" ++ rest ∧ "-" ++ block = rest ++ "-config-" ++ block'

/-- No two artifacts or infrastructures agree in their sanitised names, and no artifact's ConfigMap
is named like one of another artifact. -/
structure SanitizedApart (cfg : K8sConfig) (env : Environment) : Prop where
  names : ((env.desiredState.artifacts.map ArtifactSpec.name ++
    env.desiredState.infras.map InfraSpec.name).map sanitizeNamePart).Nodup
  blocks : ∀ a ∈ env.desiredState.artifacts, ∀ a' ∈ env.desiredState.artifacts,
    ∀ cms cms', buildConfigMaps (convertArtifact a env.name.label env.envType)
      (workloadNameOf env a) cfg = .ok cms →
    buildConfigMaps (convertArtifact a' env.name.label env.envType)
      (workloadNameOf env a') cfg = .ok cms' →
    ∀ b ∈ a.configBlocks, ∀ b' ∈ a'.configBlocks,
      ¬Shadows (workloadNameOf env a) (sanitizeNamePart b.block) (workloadNameOf env a')
        (sanitizeNamePart b'.block)

theorem nodup_map_iff {α β γ : Type} {f : α → β} {g : α → γ} (h : ∀ x y, f x = f y ↔ g x = g y)
    (xs : List α) : (xs.map f).Nodup ↔ (xs.map g).Nodup := by
  simp only [List.Nodup,List.pairwise_map,ne_eq,h]

/-- The services of a list have resource names of their own just when their sanitised names differ. -/
theorem resourceNames_nodup (kind : WorkloadKind) (fullEnvName : String) (services : List String) :
    (services.map (newObjectName kind fullEnvName)).Nodup ↔
      (services.map sanitizeNamePart).Nodup :=
  nodup_map_iff (fun _ _ => newObjectName_eq_iff) services

theorem disjoint_of_kinds {kind kind' : WorkloadKind} {fullEnvName : String} {xs ys : List String}
    (hk : kind ≠ .empty) (hk' : kind' ≠ .empty)
    (hne : (sanitizeNamePart kind.toString).toList.head? ≠
      (sanitizeNamePart kind'.toString).toList.head?) :
    (xs.map (newObjectName kind fullEnvName)).Disjoint (ys.map (newObjectName kind' fullEnvName)) := by
  intro name hx hy
  obtain ⟨x,-,rfl⟩ := List.mem_map.mp hx
  obtain ⟨y,-,he⟩ := List.mem_map.mp hy
  have hhead := head_newObjectName hk fullEnvName x
  rw [← he,head_newObjectName hk' fullEnvName y] at hhead
  exact hne hhead.symm

/-- A separator that is found in two places of a text: the first place ends before the second, but
for the dash between them. -/
theorem separator_split {w w' b b' : List Char} (hlt : w.length < w'.length)
    (h : w ++ ("-config".toList ++ '-' :: b) = w' ++ ("-config".toList ++ '-' :: b')) :
    ∃ rest, w' = w ++ ("-config".toList ++ rest) ∧
      '-' :: b = rest ++ ("-config".toList ++ '-' :: b') := by
  rcases List.append_eq_append_iff.mp h with ⟨u,rfl,hu⟩ | ⟨u,rfl,-⟩
  · rcases List.append_eq_append_iff.mp hu with ⟨rest,rfl,hrest⟩ | ⟨v,hv,hrest⟩
    · exact ⟨rest,rfl,hrest⟩
    · cases v with
      | nil =>
        rw [List.append_nil] at hv
        exact ⟨[],by rw [hv,List.append_nil],hrest.symm⟩
      | cons c v =>
        -- The rest of a separator starts with a letter, the second separator with the dash.
        have hdash : c = '-' := by
          have hhead := congrArg List.head? hrest
          simpa using hhead.symm
        cases u with
        | nil => simp at hlt
        | cons d u =>
          have hletters : "config".toList = u ++ c :: v := congrArg List.tail hv
          have hmem : c ∈ "config".toList := by
            rw [hletters]
            simp
          rw [hdash] at hmem
          exact absurd hmem (by decide)
  · simp only [List.length_append] at hlt
    omega

theorem toList_configMapName (w block : String) : (w ++ "-config-" ++ block).toList =
    w.toList ++ ("-config".toList ++ '-' :: block.toList) := by
  simp

theorem shadows_of_eq {w block w' block' : String}
    (h : w ++ "-config-" ++ block = w' ++ "-config-" ++ block') (hne : w ≠ w') :
    Shadows w block w' block' ∨ Shadows w' block' w block := by
  have hside : ∀ {w b w' b' : String}, w.toList.length < w'.toList.length →
      w ++ "-config-" ++ b = w' ++ "-config-" ++ b' → Shadows w b w' b' := by
    intro w b w' b' hlt heq
    have hlist := congrArg String.toList heq
    rw [toList_configMapName,toList_configMapName] at hlist
    obtain ⟨rest,hw,hb⟩ := separator_split hlt hlist
    refine ⟨String.ofList rest,?_,?_⟩
    · apply String.toList_injective
      simp [hw]
    · apply String.toList_injective
      simpa using hb
  rcases Nat.lt_trichotomy w.toList.length w'.toList.length with hlt | heq | hlt
  · exact .inl (hside hlt h)
  · have hlist := congrArg String.toList h
    rw [toList_configMapName,toList_configMapName] at hlist
    exact absurd (String.toList_injective (List.append_inj_left hlist heq)) hne
  · exact .inr (hside hlt h.symm)

theorem eq_of_shadows {w block w' block' : String} (h : Shadows w block w' block') :
    w ≠ w' ∧ w ++ "-config-" ++ block = w' ++ "-config-" ++ block' := by
  obtain ⟨rest,rfl,hblock⟩ := h
  constructor
  · intro he
    have hlength := congrArg String.length he
    simp only [String.length_append] at hlength
    have hpos : "-config".length = 7 := rfl
    omega
  · have hlist := congrArg String.toList hblock
    apply String.toList_injective
    simp only [String.toList_append,List.append_assoc] at hlist ⊢
    rw [← hlist]
    rfl

/-- The ConfigMaps of one workload have names of their own. -/
theorem configMapNames_nodup {w : ArtifactWorkload} {workloadName : String} {cms : List ConfigMap}
    (h : buildConfigMaps w workloadName cfg = .ok cms) : (configMapNames workloadName w).Nodup := by
  have hall : ∀ (blocks : List ConfigBlock) (seen : List (String × String)) (cms : List ConfigMap),
      buildConfigMapsFrom w workloadName cfg seen blocks = .ok cms →
      (blocks.map fun cb => configMapName workloadName cb.block).Nodup ∧
        ∀ cb ∈ blocks, seen.lookup (configMapName workloadName cb.block) = none := by
    intro blocks
    induction blocks with
    | nil => exact fun _ _ _ => ⟨List.nodup_nil,by simp⟩
    | cons cb blocks ih =>
      intro seen cms hok
      rw [buildConfigMapsFrom] at hok
      split at hok
      · cases hok
      · split at hok
        · cases hok
        · split at hok
          · cases hok
          · rename_i hnew
            obtain ⟨rest,hrest,-⟩ := bind_ok hok
            obtain ⟨hnodup,hunseen⟩ := ih _ _ hrest
            have hother : ∀ d ∈ blocks, configMapName workloadName d.block ≠
                configMapName workloadName cb.block ∧
                  seen.lookup (configMapName workloadName d.block) = none := by
              intro d hd
              have hlookup := hunseen d hd
              rw [List.lookup_cons] at hlookup
              cases heq : configMapName workloadName d.block ==
                  configMapName workloadName cb.block with
              | true => simp [heq] at hlookup
              | false => exact ⟨by simpa using heq,by simpa [heq] using hlookup⟩
            refine ⟨?_,fun d hd => ?_⟩
            · rw [List.map_cons,List.nodup_cons]
              refine ⟨fun hmem => ?_,hnodup⟩
              obtain ⟨d,hd,he⟩ := List.mem_map.mp hmem
              exact (hother d hd).1 he
            · rcases List.mem_cons.mp hd with rfl | hd
              · exact hnew
              · exact (hother d hd).2
  exact (hall _ _ _ h).1

/-- The names of the ConfigMaps that an artifact of the environment gets. -/
def artifactConfigMaps (cfg : K8sConfig) (env : Environment) (a : ArtifactSpec) : List String :=
  builtConfigMapNames cfg (workloadNameOf env a) (convertArtifact a env.name.label env.envType)

theorem mem_artifactConfigMaps {a : ArtifactSpec} {name : String} :
    name ∈ artifactConfigMaps cfg env a ↔
      (∃ cms, buildConfigMaps (convertArtifact a env.name.label env.envType)
        (workloadNameOf env a) cfg = .ok cms) ∧
      ∃ b ∈ a.configBlocks, workloadNameOf env a ++ "-config-" ++ sanitizeNamePart b.block = name := by
  unfold artifactConfigMaps builtConfigMapNames
  cases buildConfigMaps (convertArtifact a env.name.label env.envType) (workloadNameOf env a) cfg with
  | error e => simp
  | ok cms => simp [configMapNames,convertArtifact,configMapName]

theorem artifactConfigMaps_nodup (a : ArtifactSpec) : (artifactConfigMaps cfg env a).Nodup := by
  unfold artifactConfigMaps builtConfigMapNames
  cases h : buildConfigMaps (convertArtifact a env.name.label env.envType) (workloadNameOf env a)
      cfg with
  | error e => exact List.nodup_nil
  | ok cms => exact configMapNames_nodup h

theorem workloadNameOf_eq {a a' : ArtifactSpec} (h : workloadNameOf env a = workloadNameOf env a') :
    sanitizeNamePart a.name = sanitizeNamePart a'.name := by
  have hkinds : ∀ s s', newObjectName .deployment env.name.label s ≠
      newObjectName .statefulSet env.name.label s' := by
    intro s s' he
    have hhead := head_newObjectName (by decide : WorkloadKind.deployment ≠ .empty)
      env.name.label s
    rw [he,head_newObjectName (by decide)] at hhead
    exact absurd hhead (by decide)
  unfold workloadNameOf at h
  cases ha : isStateless a <;> cases ha' : isStateless a'
  · simp only [ha,ha',Bool.false_eq_true,if_false] at h
    exact newObjectName_eq_iff.mp h
  · simp only [ha,ha',Bool.false_eq_true,if_false,if_true] at h
    exact absurd h.symm (hkinds _ _)
  · simp only [ha,ha',Bool.false_eq_true,if_false,if_true] at h
    exact absurd h (hkinds _ _)
  · simp only [ha,ha',if_true] at h
    exact newObjectName_eq_iff.mp h

/-- The ConfigMaps of the environment have names of their own just when no artifact's block is
shadowed by another's. -/
theorem configMaps_nodup_iff
    (hnames : (env.desiredState.artifacts.map fun a => sanitizeNamePart a.name).Nodup) :
    (env.desiredState.artifacts.flatMap (artifactConfigMaps cfg env)).Nodup ↔
      ∀ a ∈ env.desiredState.artifacts, ∀ a' ∈ env.desiredState.artifacts,
        ∀ cms cms', buildConfigMaps (convertArtifact a env.name.label env.envType)
          (workloadNameOf env a) cfg = .ok cms →
        buildConfigMaps (convertArtifact a' env.name.label env.envType)
          (workloadNameOf env a') cfg = .ok cms' →
        ∀ b ∈ a.configBlocks, ∀ b' ∈ a'.configBlocks,
          ¬Shadows (workloadNameOf env a) (sanitizeNamePart b.block) (workloadNameOf env a')
            (sanitizeNamePart b'.block) := by
  rw [List.nodup_flatMap]
  constructor
  · rintro ⟨-,hpairs⟩ a ha a' ha' cms cms' hcms hcms' b hb b' hb' hshadows
    obtain ⟨hne,heq⟩ := eq_of_shadows hshadows
    have hsymm : Std.Symm (Function.onFun List.Disjoint (artifactConfigMaps cfg env)) :=
      ⟨fun _ _ h => List.disjoint_symm h⟩
    have hdisjoint := hpairs.forall ha ha' (fun he => hne (by rw [he]))
    exact hdisjoint (mem_artifactConfigMaps.mpr ⟨⟨cms,hcms⟩,b,hb,heq⟩)
      (mem_artifactConfigMaps.mpr ⟨⟨cms',hcms'⟩,b',hb',rfl⟩)
  · intro hclear
    refine ⟨fun a _ => artifactConfigMaps_nodup a,?_⟩
    refine (List.Nodup.of_map _ hnames).pairwise_of_forall_ne fun a ha a' ha' hne => ?_
    intro name hname hname'
    obtain ⟨⟨cms,hcms⟩,b,hb,rfl⟩ := mem_artifactConfigMaps.mp hname
    obtain ⟨⟨cms',hcms'⟩,b',hb',heq⟩ := mem_artifactConfigMaps.mp hname'
    have hworkloads : workloadNameOf env a ≠ workloadNameOf env a' := fun he =>
      hne (List.inj_on_of_nodup_map hnames ha ha' (workloadNameOf_eq he))
    rcases shadows_of_eq heq.symm hworkloads with hs | hs
    · exact hclear a ha a' ha' cms cms' hcms hcms' b hb b' hb' hs
    · exact hclear a' ha' a ha cms' cms hcms' hcms b' hb' b hb hs

/-- Workloads of one environment get the names of their services in it. -/
theorem map_names_of_env {α : Type} {s e : α → String} {fullEnvName : String} {l : List α}
    (kind : WorkloadKind) (h : ∀ w ∈ l, e w = fullEnvName) :
    l.map (fun w => newObjectName kind (e w) (s w)) =
      (l.map s).map (newObjectName kind fullEnvName) := by
  rw [List.map_map]
  apply List.map_congr_left
  intro w hw
  rw [Function.comp_apply,h w hw]

variable [Quantity Q]

/-- The names of the artifacts that the predicate selects. -/
def artifactNames (env : Environment) (p : ArtifactSpec → Bool) : List String :=
  (env.desiredState.artifacts.filter p).map ArtifactSpec.name

/-- The names of the infrastructure that the predicate selects. -/
def infraNames (env : Environment) (p : InfraSpec → Bool) : List String :=
  (env.desiredState.infras.filter p).map InfraSpec.name

theorem expected_deployments (h : convertToWorkloads env cfg = .ok objects) :
    (buildExpectedApplyResources objects).deployments =
      (artifactNames env isStateless).map (newObjectName .deployment env.name.label) ++
      (infraNames env isMongoDB).map (newObjectName .mongoDB env.name.label) ++
      (infraNames env fun i => !isMongoDB i).map (newObjectName .redis env.name.label) := by
  obtain ⟨ha,hi⟩ := converted h
  have hw := convertToWorkloads_within h
  have hmongoDB := map_names_of_env (s := fun w => w.serviceName) .mongoDB hw.mongoDBWorkloads
  have hredis := map_names_of_env (s := fun w => w.serviceName) .redis hw.redisWorkloads
  rw [hi.mongoDB] at hmongoDB
  rw [hi.redis] at hredis
  have hdeployments : objects.deployments.map DeploymentWorkload.workloadName =
      (artifactNames env isStateless).map (newObjectName .deployment env.name.label) := by
    rw [ha.deployments,artifactNames,List.map_map,List.map_map]
    rfl
  unfold buildExpectedApplyResources
  exact congrArg₂ (· ++ ·) (congrArg₂ (· ++ ·) hdeployments hmongoDB) hredis

theorem expected_statefulSets (h : convertToWorkloads env cfg = .ok objects) :
    (buildExpectedApplyResources objects).statefulSets =
      (artifactNames env fun a => !isStateless a).map (newObjectName .statefulSet env.name.label) := by
  have hstateful : objects.statefulWorkloads.map StatefulWorkload.workloadName =
      (artifactNames env fun a => !isStateless a).map (newObjectName .statefulSet env.name.label) := by
    rw [(converted h).1.stateful,artifactNames,List.map_map,List.map_map]
    rfl
  exact hstateful

theorem expected_services (h : convertToWorkloads env cfg = .ok objects) :
    (buildExpectedApplyResources objects).services =
      (artifactNames env isStateless ++ infraNames env isMongoDB ++
        (infraNames env fun i => !isMongoDB i) ++
        artifactNames env fun a => !isStateless a).map (newObjectName .service env.name.label) := by
  obtain ⟨ha,hi⟩ := converted h
  have hw := convertToWorkloads_within h
  have hmongoDB := map_names_of_env (s := fun w => w.serviceName) .service hw.mongoDBWorkloads
  have hredis := map_names_of_env (s := fun w => w.serviceName) .service hw.redisWorkloads
  rw [hi.mongoDB] at hmongoDB
  rw [hi.redis] at hredis
  have hdeployments : objects.deployments.map DeploymentWorkload.serviceResourceName =
      (artifactNames env isStateless).map (newObjectName .service env.name.label) := by
    rw [ha.deployments,artifactNames,List.map_map,List.map_map]
    rfl
  have hstateful : objects.statefulWorkloads.map StatefulWorkload.serviceResourceName =
      (artifactNames env fun a => !isStateless a).map (newObjectName .service env.name.label) := by
    rw [ha.stateful,artifactNames,List.map_map,List.map_map]
    rfl
  simp only [List.map_append]
  unfold buildExpectedApplyResources
  exact congrArg₂ (· ++ ·) (congrArg₂ (· ++ ·) (congrArg₂ (· ++ ·) hdeployments hmongoDB) hredis)
    hstateful

theorem expected_httpRoutes (h : convertToWorkloads env cfg = .ok objects) :
    (buildExpectedApplyResources objects).httpRoutes =
      (artifactNames env isRouted).map (newObjectName .httpRoute env.name.label) := by
  have hroutes := map_names_of_env (s := HTTPRouteWorkload.serviceName) .httpRoute
    (convertToWorkloads_within h).httpRoutes
  rw [(converted h).1.routes] at hroutes
  exact hroutes

/-- The names of the infrastructure are those of the workloads of either kind. -/
theorem infraNames_perm (env : Environment) :
    (infraNames env isMongoDB ++ infraNames env fun i => !isMongoDB i).Perm
      (env.desiredState.infras.map InfraSpec.name) := by
  unfold infraNames
  rw [← List.map_append]
  exact (List.filter_append_perm _ _).map _

/-- Every artifact and every infrastructure of the environment has a Service. -/
theorem expected_services_perm (h : convertToWorkloads env cfg = .ok objects) :
    (buildExpectedApplyResources objects).services.Perm
      ((env.desiredState.artifacts.map ArtifactSpec.name ++
        env.desiredState.infras.map InfraSpec.name).map (newObjectName .service env.name.label)) := by
  have hartifacts : (artifactNames env isStateless ++
      artifactNames env fun a => !isStateless a).Perm
      (env.desiredState.artifacts.map ArtifactSpec.name) := by
    unfold artifactNames
    rw [← List.map_append]
    exact (List.filter_append_perm _ _).map _
  rw [expected_services h]
  apply List.Perm.map
  rw [List.append_assoc (artifactNames env isStateless)]
  have hcomm : ((infraNames env isMongoDB ++ infraNames env fun i => !isMongoDB i) ++
      artifactNames env fun a => !isStateless a).Perm
      ((artifactNames env fun a => !isStateless a) ++
        (infraNames env isMongoDB ++ infraNames env fun i => !isMongoDB i)) :=
    List.perm_append_comm
  have hswap := hcomm.append_left (artifactNames env isStateless)
  have hboth := hartifacts.append (infraNames_perm env)
  simp only [← List.append_assoc] at hswap hboth ⊢
  exact hswap.trans hboth

theorem namedWorkloads_perm (h : convertToWorkloads env cfg = .ok objects) :
    ((namedWorkloads objects).flatMap fun w => builtConfigMapNames cfg w.1 w.2).Perm
      (env.desiredState.artifacts.flatMap (artifactConfigMaps cfg env)) := by
  have ha := (converted h).1
  have hnamed : namedWorkloads objects = (env.desiredState.artifacts.filter isStateless ++
      env.desiredState.artifacts.filter fun a => !isStateless a).map fun a =>
        (workloadNameOf env a,convertArtifact a env.name.label env.envType) := by
    unfold namedWorkloads
    rw [ha.deployments,ha.stateful,List.map_append,List.map_map,List.map_map]
    apply congrArg₂ (· ++ ·)
    · apply List.map_congr_left
      intro a hmem
      have hs : isStateless a = true := (List.mem_filter.mp hmem).2
      simp only [Function.comp_apply,workloadNameOf,hs,if_true,DeploymentWorkload.workloadName,
        convertArtifactToDeployment,convertArtifact]
    · apply List.map_congr_left
      intro a hmem
      have hs : isStateless a = false := by simpa using (List.mem_filter.mp hmem).2
      simp only [Function.comp_apply,workloadNameOf,hs,Bool.false_eq_true,if_false,
        StatefulWorkload.workloadName,convertArtifactToStatefulWorkload,convertArtifact]
  rw [hnamed,List.flatMap_map]
  have hperm := List.filter_append_perm isStateless env.desiredState.artifacts
  dsimp only
  exact hperm.flatMap_right (artifactConfigMaps cfg env)

theorem claimNames_eq (h : convertToWorkloads env cfg = .ok objects) : claimNames objects =
    ((objects.mongoDBWorkloads.filter fun w => w.persistence.enabled).map (fun w => w.serviceName) ++
      (objects.redisWorkloads.filter fun w => w.persistence.enabled).map
        fun w => w.serviceName).map (newObjectName .pvc env.name.label) := by
  have hw := convertToWorkloads_within h
  have hmongoDB := map_names_of_env (s := fun w => w.serviceName) .pvc
    (fun w hw' => hw.mongoDBWorkloads w (List.mem_filter.mp hw').1)
    (l := objects.mongoDBWorkloads.filter fun w => w.persistence.enabled)
  have hredis := map_names_of_env (s := fun w => w.serviceName) .pvc
    (fun w hw' => hw.redisWorkloads w (List.mem_filter.mp hw').1)
    (l := objects.redisWorkloads.filter fun w => w.persistence.enabled)
  rw [List.map_append]
  exact congrArg₂ (· ++ ·) hmongoDB hredis

theorem namesDistinct_of_apart (h : convertToWorkloads env cfg = .ok objects)
    (hapart : SanitizedApart cfg env) : NamesDistinct cfg objects := by
  have hnames := hapart.names
  rw [List.map_append,List.nodup_append'] at hnames
  obtain ⟨hartifacts,hinfras,-⟩ := hnames
  have hartifact : ∀ (kind : WorkloadKind) (p : ArtifactSpec → Bool),
      ((artifactNames env p).map (newObjectName kind env.name.label)).Nodup := by
    intro kind p
    apply (resourceNames_nodup kind env.name.label _).mpr
    exact hartifacts.sublist ((List.filter_sublist.map _).map _)
  have hinfra : ∀ (kind : WorkloadKind) (p : InfraSpec → Bool),
      ((infraNames env p).map (newObjectName kind env.name.label)).Nodup := by
    intro kind p
    apply (resourceNames_nodup kind env.name.label _).mpr
    exact hinfras.sublist ((List.filter_sublist.map _).map _)
  refine ⟨?_,?_,?_,?_,?_,?_⟩
  · rw [expected_deployments h,List.nodup_append',List.nodup_append',List.disjoint_append_left]
    exact ⟨⟨hartifact _ _,hinfra _ _,disjoint_of_kinds (by decide) (by decide) (by decide)⟩,
      hinfra _ _,disjoint_of_kinds (by decide) (by decide) (by decide),
      disjoint_of_kinds (by decide) (by decide) (by decide)⟩
  · rw [expected_statefulSets h]
    exact hartifact _ _
  · rw [(expected_services_perm h).nodup_iff]
    exact (resourceNames_nodup _ _ _).mpr hapart.names
  · rw [expected_httpRoutes h]
    exact hartifact _ _
  · rw [claimNames_eq h]
    apply (resourceNames_nodup _ _ _).mpr
    apply List.Nodup.sublist (List.Sublist.map _
      (List.Sublist.append (List.filter_sublist.map _) (List.filter_sublist.map _)))
    rw [(converted h).2.mongoDB,(converted h).2.redis]
    exact ((infraNames_perm env).map _).nodup_iff.mpr hinfras
  · rw [(namedWorkloads_perm h).nodup_iff]
    rw [List.map_map] at hartifacts
    exact (configMaps_nodup_iff hartifacts).mpr hapart.blocks

/-- After an apply each object built is under its own name, as it was built but for what the server
keeps of a Service; a claim that was there stays. -/
structure OneEach (cfg : K8sConfig) (addresses : String → Allocation) (objects : DeployObjects Q)
    (c c' : Cluster Q) : Prop where
  deployments : ∀ o ∈ (builtObjects cfg objects).deployments,
    c'.deployments.lookup o.metadata.name = some o
  statefulSets : ∀ o ∈ (builtObjects cfg objects).statefulSets,
    c'.statefulSets.lookup o.metadata.name = some o
  services : ∀ o ∈ (builtObjects cfg objects).services, c'.services.lookup o.metadata.name =
    some (serviceMerge addresses (c.services.lookup o.metadata.name) o)
  httpRoutes : ∀ o ∈ (builtObjects cfg objects).httpRoutes,
    c'.httpRoutes.lookup o.metadata.name = some o
  configMaps : ∀ o ∈ (builtObjects cfg objects).configMaps,
    c'.configMaps.lookup o.metadata.name = some o

theorem builtNames_deployments (h : Complete cfg objects) :
    (((builtObjects cfg objects).deployments.map Object.metadata).map ObjectMeta.name).Perm
      (buildExpectedApplyResources objects).deployments := by
  apply List.Perm.of_eq
  rw [map_metadata_deployments h]
  simp only [List.map_append,List.map_map,Function.comp_def,ArtifactWorkload.meta_name,
    InfraWorkload.meta_name,buildExpectedApplyResources,List.append_assoc]

theorem builtNames_statefulSets (h : Complete cfg objects) :
    (((builtObjects cfg objects).statefulSets.map Object.metadata).map ObjectMeta.name).Perm
      (buildExpectedApplyResources objects).statefulSets := by
  apply List.Perm.of_eq
  rw [map_metadata_statefulSets h]
  simp only [List.map_map,Function.comp_def,ArtifactWorkload.meta_name,buildExpectedApplyResources]

theorem builtNames_services (h : Complete cfg objects) :
    (((builtObjects cfg objects).services.map Object.metadata).map ObjectMeta.name).Perm
      (buildExpectedApplyResources objects).services := by
  rw [map_metadata_services h]
  simp only [List.map_append,List.map_map,Function.comp_def,ArtifactWorkload.meta_name,
    InfraWorkload.meta_name,buildExpectedApplyResources,List.append_assoc]
  -- The stateful workloads come last among the expected Services.
  apply List.Perm.append_left
  rw [← List.append_assoc (objects.mongoDBWorkloads.map _)]
  exact List.perm_append_comm

theorem builtNames_httpRoutes (cfg : K8sConfig) (objects : DeployObjects Q) :
    (((builtObjects cfg objects).httpRoutes.map Object.metadata).map ObjectMeta.name).Perm
      (buildExpectedApplyResources objects).httpRoutes := by
  apply List.Perm.of_eq
  rw [map_metadata_httpRoutes]
  simp only [List.map_map,Function.comp_def,objectMeta,buildExpectedApplyResources]

theorem builtConfigMapNames_ok {w : ArtifactWorkload} {workloadName : String}
    (h : ∃ cms, buildConfigMaps w workloadName cfg = .ok cms) :
    builtConfigMapNames cfg workloadName w = configMapNames workloadName w := by
  obtain ⟨cms,hcms⟩ := h
  unfold builtConfigMapNames
  rw [hcms]

theorem builtNames_configMaps (h : Complete cfg objects) :
    (((builtObjects cfg objects).configMaps.map Object.metadata).map ObjectMeta.name).Perm
      ((namedWorkloads objects).flatMap fun w => builtConfigMapNames cfg w.1 w.2) := by
  apply List.Perm.of_eq
  rw [map_metadata_configMaps h,namedWorkloads,List.flatMap_append,List.flatMap_map,
    List.flatMap_map,List.map_append,List.map_flatMap,List.map_flatMap]
  apply congrArg₂ (· ++ ·)
  · apply List.flatMap_congr
    intro w hw
    rw [builtConfigMapNames_ok (h.deploymentConfigs w hw),List.map_map]
    rfl
  · apply List.flatMap_congr
    intro w hw
    rw [builtConfigMapNames_ok (h.statefulConfigs w hw),List.map_map]
    rfl

theorem unambiguous_of_names {Spec : Type} {os : List (Object Spec)} {names : List String}
    (h : ((os.map Object.metadata).map ObjectMeta.name).Perm names) (hnodup : names.Nodup) :
    Store.Unambiguous (entries os) := by
  have hfst : ((entries os).map Prod.fst).Nodup := by
    rw [map_fst_entries]
    exact h.nodup_iff.mpr hnodup
  intro name o o' ho ho'
  exact congrArg Prod.snd (List.inj_on_of_nodup_map hfst ho ho' rfl)

theorem oneEach_of_distinct {addresses : String → Allocation} {c c' : Cluster Q} {u : Unit}
    (h : convertToWorkloads env cfg = .ok objects) (hdistinct : NamesDistinct cfg objects)
    (hruns : Runs (applyResources (Q := Q) cfg addresses env) c u c') :
    OneEach cfg addresses objects c c' := by
  obtain ⟨objects',hconvert,hcomplete,hprune⟩ := hruns.of_applyResources
  rw [h] at hconvert
  cases hconvert
  have hw := convertToWorkloads_within h
  have hc' := hprune.of_pruneResources
  have hdeployments := expects_deployments hcomplete hw
  have hstatefulSets := expects_statefulSets hcomplete hw
  have hservices := expects_services hcomplete hw
  have hhttpRoutes := expects_httpRoutes cfg hw
  have hconfigMaps := expects_configMaps hcomplete hw
  have u₁ := unambiguous_of_names (builtNames_deployments hcomplete) hdistinct.deployments
  have u₂ := unambiguous_of_names (builtNames_statefulSets hcomplete) hdistinct.statefulSets
  have u₃ := unambiguous_of_names (builtNames_services hcomplete) hdistinct.services
  have u₄ := unambiguous_of_names (builtNames_httpRoutes cfg objects) hdistinct.httpRoutes
  have u₅ := unambiguous_of_names (builtNames_configMaps hcomplete) hdistinct.configMaps
  rw [hc']
  refine ⟨?_,?_,?_,?_,?_⟩
  · intro o ho
    exact (hdeployments.synced overwrite c.deployments).lookup_of_mem
      (merges_overwrite hdeployments) u₁ (mem_entries_of_mem ho rfl)
  · intro o ho
    exact (hstatefulSets.synced overwrite c.statefulSets).lookup_of_mem
      (merges_overwrite hstatefulSets) u₂ (mem_entries_of_mem ho rfl)
  · intro o ho
    exact (hservices.synced (serviceMerge addresses) c.services).lookup_of_mem
      (merges_services addresses hservices unassigned_services) u₃ (mem_entries_of_mem ho rfl)
  · intro o ho
    exact (hhttpRoutes.synced overwrite c.httpRoutes).lookup_of_mem
      (merges_overwrite hhttpRoutes) u₄ (mem_entries_of_mem ho rfl)
  · intro o ho
    exact (hconfigMaps.synced overwrite c.configMaps).lookup_of_mem
      (merges_overwrite hconfigMaps) u₅ (mem_entries_of_mem ho rfl)

/-- The workloads of a desired state that converts get names of their own, and an apply leaves one
object of each, just when no two of their services agree once sanitised and no artifact's ConfigMap
is named like one of another artifact. -/
theorem resource_names_distinct_iff (h : convertToWorkloads env cfg = .ok objects) :
    (NamesDistinct cfg objects ∧
        ∀ (addresses : String → Allocation) (c c' : Cluster Q) (u : Unit),
          Runs (applyResources (Q := Q) cfg addresses env) c u c' →
          OneEach cfg addresses objects c c') ↔
      SanitizedApart cfg env := by
  constructor
  · rintro ⟨hdistinct,-⟩
    have hnames := (resourceNames_nodup .service env.name.label _).mp
      ((expected_services_perm h).nodup_iff.mp hdistinct.services)
    refine ⟨hnames,(configMaps_nodup_iff ?_).mp
      ((namedWorkloads_perm h).nodup_iff.mp hdistinct.configMaps)⟩
    rw [List.map_append,List.nodup_append',List.map_map] at hnames
    exact hnames.1
  · intro hapart
    have hdistinct := namesDistinct_of_apart h hapart
    exact ⟨hdistinct,fun _ _ _ _ hruns => oneEach_of_distinct h hdistinct hruns⟩

/-- Stateless artifacts of the given names and one Redis. -/
def namedState (names : List String) : Domain.DesiredState :=
  ⟨names.map fun name => { demoArtifact .stateless with name },
    [⟨infraResourceRedis,"default","cache","shop",⟨false,""⟩⟩]⟩

def namedEnvironment (names : List String) (h : (namedState names).WellFormed) : Environment where
  name := Domain.demoName
  envType := .dev
  description := ""
  desiredState := namedState names
  status := {}
  generation := 1
  wellFormed := h

theorem api_web_wellFormed : (namedState ["api","web"]).WellFormed :=
  ⟨by decide,by decide⟩

theorem api_v1_wellFormed : (namedState ["api_v1","api-v1"]).WellFormed :=
  ⟨by decide,by decide⟩

theorem api_web_converts : ∃ objects : DeployObjects Nat,
    convertToWorkloads (namedEnvironment ["api","web"] api_web_wellFormed) demoConfig =
      .ok objects := ⟨_,rfl⟩

theorem api_v1_converts : ∃ objects : DeployObjects Nat,
    convertToWorkloads (namedEnvironment ["api_v1","api-v1"] api_v1_wellFormed) demoConfig =
      .ok objects := ⟨_,rfl⟩

theorem resource_names_distinct_demo : ∃ objects : DeployObjects Nat,
    convertToWorkloads (namedEnvironment ["api","web"] api_web_wellFormed) demoConfig =
      .ok objects ∧ NamesDistinct demoConfig objects := by
  obtain ⟨objects,hconvert⟩ := api_web_converts
  have hapart : SanitizedApart demoConfig (namedEnvironment ["api","web"] api_web_wellFormed) := by
    refine ⟨by decide +kernel,?_⟩
    intro a ha a' _ cms cms' _ _ b hb
    obtain ⟨name,-,rfl⟩ := List.mem_map.mp ha
    cases hb
  exact ⟨objects,hconvert,((resource_names_distinct_iff hconvert).mpr hapart).1⟩

/-- Two artifacts that are accepted share a Deployment and a Service. -/
theorem sanitized_names_collide : ∃ objects : DeployObjects Nat,
    convertToWorkloads (namedEnvironment ["api_v1","api-v1"] api_v1_wellFormed) demoConfig =
      .ok objects ∧
    ¬(buildExpectedApplyResources objects).deployments.Nodup ∧
    ¬(buildExpectedApplyResources objects).services.Nodup ∧ ¬NamesDistinct demoConfig objects := by
  obtain ⟨objects,hconvert⟩ := api_v1_converts
  have hdeployments : ¬(buildExpectedApplyResources objects).deployments.Nodup := by
    intro hnodup
    rw [expected_deployments hconvert,List.nodup_append',List.nodup_append'] at hnodup
    have hsanitized := (resourceNames_nodup _ _ _).mp hnodup.1.1
    revert hsanitized
    decide +kernel
  have hservices : ¬(buildExpectedApplyResources objects).services.Nodup := by
    intro hnodup
    have hsanitized := (resourceNames_nodup _ _ _).mp
      ((expected_services_perm hconvert).nodup_iff.mp hnodup)
    revert hsanitized
    decide +kernel
  exact ⟨objects,hconvert,hdeployments,hservices,fun h => hdeployments h.deployments⟩

end distinct

end Dominion.Deploy.K8s
