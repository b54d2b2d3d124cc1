import Dominion.Framework.Fallible
import Dominion.Framework.Text
import Dominion.Deploy.Domain.Spec
import Dominion.Release.Config
import Mathlib.Data.List.Sort
import Mathlib.Data.List.Perm.Basic
import Mathlib.Data.String.Basic

/-! # The release compiler

Deploy and service configurations become the desired state that the deploy server receives.  Its
artifacts are those of the server's specifications, their numbers of 32 bits. -/
namespace Dominion.Release

open Dominion.Framework
open Dominion.Deploy.Domain (ArtifactHTTPSpec ArtifactPortSpec ArtifactSpec ConfigBlock ConfigEntry
  HTTPRouteRule SecretBinding goQuote)

/-- The conversion to `int32`. -/
def toInt32 (n : Int) : Int :=
  n.bmod 4294967296

/-- A pushed image. -/
structure Result where
  url : String
  dest : String
  deriving DecidableEq, Repr

structure InfraPersistenceSpec where
  enabled : Bool
  capacity : String
  deriving DecidableEq, Repr

structure InfraSpec where
  resource : String
  profile : String
  name : String
  app : String
  persistence : Option InfraPersistenceSpec
  deriving DecidableEq, Repr

structure EnvironmentDesiredState where
  artifacts : List ArtifactSpec := []
  infras : List InfraSpec := []
  deriving DecidableEq, Repr

/-- `^[A-Za-z][A-Za-z0-9+._-]*:[A-Fa-f0-9]{32,}$`. -/
def digestPattern (s : String) : Bool :=
  let upper (c : Char) : Bool := decide ('A' ≤ c) && decide (c ≤ 'Z')
  let letter (c : Char) : Bool := isLower c || upper c
  let hex (c : Char) : Bool := isDigit c || (decide ('a' ≤ c) && decide (c ≤ 'f')) ||
    (decide ('A' ≤ c) && decide (c ≤ 'F'))
  match s.toList.span (· ≠ ':') with
  | (c :: cs,_ :: digest) =>
    letter c && cs.all (fun d => letter d || isDigit d || d ∈ ['+','.','_','-']) &&
      decide (32 ≤ digest.length) && digest.all hex
  | _ => false

def imageRef (r : Result) : Except String String :=
  let url := Text.trimSpace r.url
  let dest := Text.trimSpace r.dest
  if url = "" then .error "image url is empty"
  else if dest = "" then .error "image digest is empty"
  else if digestPattern dest then .ok (url ++ "@" ++ dest)
  else .error ("image digest is invalid: " ++ dest)

def isInfraService (s : DeployService) : Bool :=
  decide (Text.trimSpace s.infra.resource ≠ "")

def mapWorkloadKind : WorkloadKind → Dominion.Deploy.Domain.WorkloadKind
  | .stateful => .stateful
  | _ => .stateless

def compileInfra (s : DeployService) : InfraSpec where
  resource := s.infra.resource
  profile := s.infra.profile
  name := s.infra.name
  app := s.infra.app
  persistence := if s.infra.persistence.enabled then some ⟨true,s.infra.persistence.capacity⟩ else none

/-- The ports of the service, then those of the artifact. -/
def mergePorts (servicePorts artifactPorts : List ServiceArtifactPort) (artifactName : String) :
    Except String (List ServiceArtifactPort) :=
  match artifactPorts.find? fun p => p.name ∈ servicePorts.map ServiceArtifactPort.name with
  | some p => .error ("duplicate port name " ++ goQuote p.name ++
      " between service ports and service artifact " ++ goQuote artifactName)
  | none => .ok (servicePorts ++ artifactPorts)

def validateHTTPPathType : HTTPPathMatchType → Except String Unit
  | .pathPrefix => .ok ()
  | .other text => .error ("unsupported http path type " ++ text)

def compileMatch (mergedPorts : List ServiceArtifactPort) (artifactName : String)
    (m : DeployHTTPMatch) : Except String HTTPRouteRule := do
  refuse (m.backend ∉ mergedPorts.map ServiceArtifactPort.name)
    ("http backend " ++ m.backend ++ " not found in service " ++ artifactName)
  validateHTTPPathType m.path.type
  .ok ⟨m.backend,⟨.pathPrefix,m.path.value⟩⟩

def compileArtifactHTTP (s : DeployService) (mergedPorts : List ServiceArtifactPort)
    (artifactName : String) : Except String (Option ArtifactHTTPSpec) :=
  if s.http.hostnames = [] ∧ s.http.matches = [] then .ok none
  else do
    let rules ← s.http.matches.mapM (compileMatch mergedPorts artifactName)
    .ok (some ⟨s.http.hostnames,rules⟩)

/-- A secret is declared by the artifact just when the deployment binds it. -/
def compileSecrets (deployName artifactName : String) (declared : List String)
    (bound : Store String SecretBindingRef) : Except String (List SecretBinding) :=
  let unbound := declared.filterMap fun name =>
    if (bound.lookup name).isSome then none
    else some ("artifact " ++ artifactName ++ " in " ++ deployName ++ ": secret " ++ goQuote name ++
      " declared but not bound")
  let undeclared := bound.entries.filterMap fun e =>
    if e.1 ∈ declared then none
    else some ("artifact " ++ artifactName ++ " in " ++ deployName ++ ": secret binding " ++
      goQuote e.1 ++ " not declared by service artifact")
  if unbound ++ undeclared = [] then
    .ok ((bound.entries.map fun e => ⟨e.1,e.2.secret,e.2.key⟩).insertionSort
      fun a b => a.logicalName ≤ b.logicalName)
  else .error ("\n".intercalate (unbound ++ undeclared))

def configEntry (e : ServiceConfigEntry) : ConfigEntry :=
  ⟨e.name,e.type,e.value⟩

def compileConfigs (deployName artifactName : String) (configs : List ServiceConfigBlock)
    (selected : List String) : Except String (List ConfigBlock) :=
  selected.mapM fun selectedName => do
    let block ← require ((Store.indexedBy ServiceConfigBlock.name configs).lookup selectedName)
      ("artifact " ++ artifactName ++ " in " ++ deployName ++ ": config block " ++
        goQuote selectedName ++ " not declared by service config")
    .ok ⟨block.name,block.data.map configEntry⟩

/-- The context of an error. -/
def inContext {α : Type} (context : String) : Except String α → Except String α
  | .ok a => .ok a
  | .error e => .error (context ++ e)

def compileArtifact (deployConfig : DeployConfig) (serviceConfigs : Store String ServiceConfig)
    (imageResults : Store String Result) (s : DeployService) : Except String ArtifactSpec := do
  let serviceConfig ← require (serviceConfigs.lookup s.artifact.path)
    ("service config " ++ s.artifact.path ++ " not found")
  let artifact ← inContext ("service config " ++ s.artifact.path ++ " artifact " ++
    s.artifact.name ++ " not found: ") (getArtifact serviceConfig s.artifact.name)
  let imageResult ← require (imageResults.lookup artifact.target)
    ("image result " ++ artifact.target ++ " not found")
  let image ← inContext ("build image ref for " ++ artifact.target ++ " failed: ")
    (imageRef imageResult)
  let mergedPorts ← mergePorts serviceConfig.ports artifact.ports artifact.name
  let http ← compileArtifactHTTP s mergedPorts artifact.name
  let kind := mapWorkloadKind serviceConfig.kind
  refuse (kind = .stateful ∧ http.isSome = true) ("service " ++ artifact.name ++
    ": http is only supported for stateless workloads, got kind=stateful")
  let secretBindings ← compileSecrets deployConfig.name artifact.name artifact.secrets
    s.artifact.secrets
  let configBlocks ← compileConfigs deployConfig.name artifact.name serviceConfig.configs
    s.artifact.config
  .ok {
    name := serviceConfig.name
    app := serviceConfig.app
    image := image
    ports := mergedPorts.map fun p => ⟨p.name,toInt32 p.port⟩
    replicas := if s.artifact.replicas ≠ 0 then toInt32 s.artifact.replicas else 1
    tlsEnabled := artifact.tls
    ossEnabled := artifact.oss
    workloadKind := kind
    http := http
    env := s.artifact.env
    secretBindings := secretBindings
    configBlocks := configBlocks }

def compileService (deployConfig : DeployConfig) (serviceConfigs : Store String ServiceConfig)
    (imageResults : Store String Result) (state : EnvironmentDesiredState) (s : DeployService) :
    Except String EnvironmentDesiredState :=
  if isInfraService s then .ok { state with infras := state.infras ++ [compileInfra s] }
  else do
    let artifact ← compileArtifact deployConfig serviceConfigs imageResults s
    .ok { state with artifacts := state.artifacts ++ [artifact] }

def compile (deployConfig : DeployConfig) (serviceConfigs : Store String ServiceConfig)
    (imageResults : Store String Result) : Except String EnvironmentDesiredState :=
  deployConfig.services.foldlM (compileService deployConfig serviceConfigs imageResults) {}

/-- What the server receives. -/
def fromProtoDesiredState (state : EnvironmentDesiredState) : Dominion.Deploy.Domain.DesiredState where
  artifacts := state.artifacts
  infras := state.infras.map fun i =>
    ⟨i.resource,i.profile,i.name,i.app,
      i.persistence.elim ⟨false,""⟩ fun p => ⟨p.enabled,p.capacity⟩⟩

/-! ## What a compilation preserves -/

/-- The artifact carries what the configurations declare, its numbers converted. -/
structure CarriesFrom (number : Int → Int) (c : ServiceConfig) (artifact : ServiceArtifact)
    (s : DeployService) (a : ArtifactSpec) : Prop where
  name : a.name = c.name
  app : a.app = c.app
  tls : a.tlsEnabled = artifact.tls
  oss : a.ossEnabled = artifact.oss
  kind : a.workloadKind = .stateful ↔ c.kind = .stateful
  ports : a.ports = (c.ports ++ artifact.ports).map fun p => ⟨p.name,number p.port⟩
  replicas : a.replicas = if s.artifact.replicas = 0 then 1 else number s.artifact.replicas
  env : a.env = s.artifact.env
  http : a.http = if s.http = {} then none
    else some ⟨s.http.hostnames,s.http.matches.map fun m => ⟨m.backend,⟨.pathPrefix,m.path.value⟩⟩⟩
  secrets : (a.secretBindings.map SecretBinding.logicalName).Perm artifact.secrets
  bindings : ∀ b ∈ a.secretBindings,
    s.artifact.secrets.lookup b.logicalName = some ⟨b.secretName,b.key⟩
  selected : a.configBlocks.map ConfigBlock.block = s.artifact.config
  blocks : ∀ b ∈ a.configBlocks, ∃ block ∈ c.configs, block.name = b.block ∧
    b.entries = block.data.map fun e => ⟨e.name,e.type,e.value⟩

def Carries (number : Int → Int) (serviceConfigs : Store String ServiceConfig)
    (imageResults : Store String Result) (s : DeployService) (a : ArtifactSpec) : Prop :=
  ∃ c artifact result, serviceConfigs.lookup s.artifact.path = some c ∧
    getArtifact c s.artifact.name = .ok artifact ∧
    imageResults.lookup artifact.target = some result ∧ imageRef result = .ok a.image ∧
    CarriesFrom number c artifact s a

structure CarriesInfra (s : DeployService) (i : InfraSpec) : Prop where
  resource : i.resource = s.infra.resource
  profile : i.profile = s.infra.profile
  name : i.name = s.infra.name
  app : i.app = s.infra.app
  persistence : i.persistence.elim ⟨false,""⟩ (fun p => ⟨p.enabled,p.capacity⟩) =
    if s.infra.persistence.enabled then s.infra.persistence else ⟨false,""⟩

/-- One artifact for each entry of an artifact and one infrastructure for each other one. -/
def Preserves (number : Int → Int) (deployConfig : DeployConfig)
    (serviceConfigs : Store String ServiceConfig) (imageResults : Store String Result)
    (state : EnvironmentDesiredState) : Prop :=
  List.Forall₂ (Carries number serviceConfigs imageResults)
      (deployConfig.services.filter fun s => s.infra = {}) state.artifacts ∧
    List.Forall₂ CarriesInfra (deployConfig.services.filter fun s => s.infra ≠ {}) state.infras

/-- Every number of the configurations that are deployed fits 32 bits. -/
def FitsInt32 (n : Int) : Prop :=
  -2147483648 ≤ n ∧ n < 2147483648

def Fits (deployConfig : DeployConfig) (serviceConfigs : Store String ServiceConfig) : Prop :=
  ∀ s ∈ deployConfig.services, s.infra = {} → FitsInt32 s.artifact.replicas ∧
    ∀ c artifact, serviceConfigs.lookup s.artifact.path = some c →
      getArtifact c s.artifact.name = .ok artifact →
      ∀ p ∈ c.ports ++ artifact.ports, FitsInt32 p.port

section compiling

variable {deployConfig : DeployConfig} {serviceConfigs : Store String ServiceConfig}
  {imageResults : Store String Result} {s : DeployService} {a : ArtifactSpec}

private theorem toInt32_eq_iff (n : Int) : toInt32 n = n ↔ FitsInt32 n := by
  rw [toInt32,Int.bmod_def,FitsInt32]
  constructor
  · intro h
    split at h <;> omega
  · rintro ⟨hlow,hhigh⟩
    split <;> omega

theorem ok_of_inContext {α : Type} {context : String} {x : Except String α} {a : α}
    (h : inContext context x = .ok a) : x = .ok a := by
  cases x with
  | error e => cases h
  | ok b => exact h

theorem mergePorts_ok {servicePorts artifactPorts merged : List ServiceArtifactPort} {name : String}
    (h : mergePorts servicePorts artifactPorts name = .ok merged) :
    merged = servicePorts ++ artifactPorts := by
  unfold mergePorts at h
  split at h
  · cases h
  · exact (Except.ok.inj h).symm

theorem compileMatch_ok {mergedPorts : List ServiceArtifactPort} {name : String}
    {m : DeployHTTPMatch} {r : HTTPRouteRule} (h : compileMatch mergedPorts name m = .ok r) :
    r = ⟨m.backend,⟨.pathPrefix,m.path.value⟩⟩ := by
  obtain ⟨-,-,hrest⟩ := ok_of_bind h
  obtain ⟨-,-,hr⟩ := ok_of_bind hrest
  exact (Except.ok.inj hr).symm

/-- A list that is compiled entry by entry. -/
theorem eq_map_of_forall₂ {α β : Type} {f : α → β} {xs : List α} {ys : List β}
    (h : List.Forall₂ (fun x y => y = f x) xs ys) : ys = xs.map f := by
  induction h with
  | nil => rfl
  | cons hy _ ih => rw [List.map_cons,hy,ih]

private theorem compileArtifactHTTP_ok {mergedPorts : List ServiceArtifactPort} {name : String}
    {http : Option ArtifactHTTPSpec} (h : compileArtifactHTTP s mergedPorts name = .ok http) :
    http = if s.http = {} then none else some ⟨s.http.hostnames,s.http.matches.map fun m =>
      ⟨m.backend,⟨.pathPrefix,m.path.value⟩⟩⟩ := by
  unfold compileArtifactHTTP at h
  have hempty : s.http = {} ↔ s.http.hostnames = [] ∧ s.http.matches = [] := by
    constructor
    · intro he
      rw [he]
      exact ⟨rfl,rfl⟩
    · rintro ⟨hhosts,hmatches⟩
      cases hs : s.http with
      | mk hosts rules =>
        rw [hs] at hhosts hmatches
        cases hhosts
        cases hmatches
        rfl
  split at h
  · rename_i hnone
    rw [if_pos (hempty.mpr hnone)]
    exact (Except.ok.inj h).symm
  · rename_i hsome
    obtain ⟨rules,hrules,hhttp⟩ := ok_of_bind h
    have hmap := eq_map_of_forall₂ ((forall₂_of_mapM hrules).imp fun _ _ hr => compileMatch_ok hr)
    rw [if_neg fun he => hsome (hempty.mp he),← hmap]
    exact (Except.ok.inj hhttp).symm

private theorem compileSecrets_ok {deployName artifactName : String} {declared : List String}
    {bound : Store String SecretBindingRef} {bs : List SecretBinding} (hnodup : declared.Nodup)
    (h : compileSecrets deployName artifactName declared bound = .ok bs) :
    (bs.map SecretBinding.logicalName).Perm declared ∧
      ∀ b ∈ bs, bound.lookup b.logicalName = some ⟨b.secretName,b.key⟩ := by
  unfold compileSecrets at h
  dsimp only at h
  split at h
  · rename_i hnone
    obtain ⟨hunbound,hundeclared⟩ := List.append_eq_nil_iff.mp hnone
    have hbs := Except.ok.inj h
    have hperm : bs.Perm (bound.entries.map fun e => ⟨e.1,e.2.secret,e.2.key⟩) := by
      rw [← hbs]
      exact List.perm_insertionSort _ _
    have hkeys : (bs.map SecretBinding.logicalName).Perm bound.keys := by
      refine (hperm.map _).trans ?_
      rw [List.map_map]
      exact List.Perm.refl _
    have hsame : ∀ name, name ∈ bound.keys ↔ name ∈ declared := by
      intro name
      constructor
      · intro hmem
        obtain ⟨e,he,rfl⟩ := List.mem_map.mp hmem
        have hnot := List.filterMap_eq_nil_iff.mp hundeclared e he
        by_contra hname
        simp [hname] at hnot
      · intro hmem
        have hnot := List.filterMap_eq_nil_iff.mp hunbound name hmem
        by_contra hname
        have hlookup : bound.lookup name = none := AList.lookup_eq_none.mpr hname
        simp [hlookup] at hnot
    refine ⟨hkeys.trans ((List.perm_ext_iff_of_nodup bound.keys_nodup hnodup).mpr hsame),?_⟩
    intro b hb
    obtain ⟨e,he,rfl⟩ := List.mem_map.mp (hperm.mem_iff.mp hb)
    exact AList.mem_lookup_iff.mpr he
  · cases h

private theorem compileConfigs_ok {deployName artifactName : String}
    {configs : List ServiceConfigBlock} {selected : List String} {bs : List ConfigBlock}
    (h : compileConfigs deployName artifactName configs selected = .ok bs) :
    bs.map ConfigBlock.block = selected ∧ ∀ b ∈ bs, ∃ block ∈ configs, block.name = b.block ∧
      b.entries = block.data.map fun e => ⟨e.name,e.type,e.value⟩ := by
  have hall := forall₂_of_mapM h
  clear h
  induction hall with
  | nil => simp
  | @cons name b names rest hb _ ih =>
    obtain ⟨block,hblock,hok⟩ := ok_of_bind hb
    obtain ⟨hmem,hname⟩ := Store.mem_of_lookup_indexedBy (require_eq_ok hblock)
    have hbs : b = ⟨block.name,block.data.map configEntry⟩ := (Except.ok.inj hok).symm
    refine ⟨by rw [List.map_cons,ih.1,hbs,hname],fun x hx => ?_⟩
    rcases List.mem_cons.mp hx with rfl | hrest
    · exact ⟨block,hmem,by rw [hbs],by rw [hbs]; rfl⟩
    · exact ih.2 x hrest

/-- The services that the artifacts of the deployment name were accepted. -/
def ServicesAccepted (serviceConfigs : Store String ServiceConfig) : Prop :=
  ∀ path c, serviceConfigs.lookup path = some c → serviceAccepted c = true

private theorem nodup_secrets {c : ServiceConfig} {artifact : ServiceArtifact} {name : String}
    (hc : serviceAccepted c = true) (h : getArtifact c name = .ok artifact) :
    artifact.secrets.Nodup := by
  have hmem : artifact ∈ c.artifacts := by
    unfold getArtifact at h
    split at h
    · rename_i found hfound
      cases h
      exact List.mem_of_find?_eq_some hfound
    · cases h
  simp only [serviceAccepted,Bool.and_eq_true,List.all_eq_true] at hc
  have hartifact := hc.1.1.2 artifact hmem
  simp only [artifactAccepted,Bool.and_eq_true,decide_eq_true_eq] at hartifact
  exact hartifact.2

private theorem compileArtifact_ok (hservices : ServicesAccepted serviceConfigs)
    (h : compileArtifact deployConfig serviceConfigs imageResults s = .ok a) :
    Carries toInt32 serviceConfigs imageResults s a := by
  obtain ⟨c,hc,h⟩ := ok_of_bind h
  obtain ⟨artifact,hartifact,h⟩ := ok_of_bind h
  obtain ⟨result,hresult,h⟩ := ok_of_bind h
  obtain ⟨image,himage,h⟩ := ok_of_bind h
  obtain ⟨ports,hports,h⟩ := ok_of_bind h
  obtain ⟨http,hhttp,h⟩ := ok_of_bind h
  obtain ⟨-,-,h⟩ := ok_of_bind h
  obtain ⟨secrets,hsecrets,h⟩ := ok_of_bind h
  obtain ⟨configs,hconfigs,h⟩ := ok_of_bind h
  have hfound := require_eq_ok hc
  have hnamed := ok_of_inContext hartifact
  obtain ⟨hdeclared,hbindings⟩ :=
    compileSecrets_ok (nodup_secrets (hservices _ c hfound) hnamed) hsecrets
  obtain ⟨hselected,hblocks⟩ := compileConfigs_ok hconfigs
  cases h
  exact ⟨c,artifact,result,hfound,hnamed,require_eq_ok hresult,ok_of_inContext himage,{
    name := rfl
    app := rfl
    tls := rfl
    oss := rfl
    kind := by cases c.kind <;> simp [mapWorkloadKind]
    ports := by rw [mergePorts_ok hports]
    replicas := by
      by_cases hzero : s.artifact.replicas = 0
      · simp [hzero]
      · simp [hzero]
    env := rfl
    http := compileArtifactHTTP_ok hhttp
    secrets := hdeclared
    bindings := hbindings
    selected := hselected
    blocks := hblocks }⟩

private theorem carriesInfra_compileInfra (s : DeployService) :
    CarriesInfra s (compileInfra s) where
  resource := rfl
  profile := rfl
  name := rfl
  app := rfl
  persistence := by
    cases henabled : s.infra.persistence.enabled with
    | true => simp [compileInfra,henabled]; rw [← henabled]
    | false => simp [compileInfra,henabled]

/-- The services in turn: an artifact or an infrastructure each. -/
theorem compileServices_ok {services : List DeployService} {state result : EnvironmentDesiredState}
    (h : services.foldlM (compileService deployConfig serviceConfigs imageResults) state =
      .ok result) :
    ∃ artifacts infras, result = ⟨state.artifacts ++ artifacts,state.infras ++ infras⟩ ∧
      List.Forall₂ (fun s a => compileArtifact deployConfig serviceConfigs imageResults s = .ok a)
        (services.filter fun s => !isInfraService s) artifacts ∧
      List.Forall₂ CarriesInfra (services.filter fun s => isInfraService s) infras := by
  induction services generalizing state with
  | nil =>
    cases h
    exact ⟨[],[],by simp,by simp,by simp⟩
  | cons s services ih =>
    rw [List.foldlM_cons] at h
    obtain ⟨next,hnext,hrest⟩ := ok_of_bind h
    obtain ⟨artifacts,infras,hresult,hartifacts,hinfras⟩ := ih hrest
    unfold compileService at hnext
    cases hs : isInfraService s with
    | true =>
      rw [hs] at hnext
      cases hnext
      refine ⟨artifacts,compileInfra s :: infras,by rw [hresult]; simp,?_,?_⟩
      · simpa [hs] using hartifacts
      · simpa [hs] using ⟨carriesInfra_compileInfra s,hinfras⟩
    | false =>
      rw [hs] at hnext
      obtain ⟨a,ha,hok⟩ := ok_of_bind hnext
      cases hok
      refine ⟨a :: artifacts,infras,by rw [hresult]; simp,?_,?_⟩
      · simpa [hs] using ⟨ha,hartifacts⟩
      · simpa [hs] using hinfras

/-- The schema names a resource for an infrastructure only. -/
theorem isInfraService_iff (h : deployServiceAccepted s = true) :
    isInfraService s = true ↔ s.infra ≠ {} := by
  simp only [deployServiceAccepted,Bool.and_eq_true,Bool.or_eq_true,decide_eq_true_eq] at h
  rcases h.2 with ⟨hnone,-⟩ | ⟨-,hinfra⟩
  · have hblank : Text.trimSpace "" = "" := by decide
    simp [isInfraService,hnone,hblank]
  · simp only [infraAccepted,Bool.and_eq_true,decide_eq_true_eq] at hinfra
    have hne : s.infra ≠ {} := fun he => hinfra.1.1.2 (by rw [he])
    have hresource : Text.trimSpace s.infra.resource ≠ "" := by
      rcases hinfra.1.1.1 with hr | hr <;> rw [hr] <;> decide
    simp [isInfraService,hne,hresource]

private theorem preserves_compile (hdeploy : deployAccepted deployConfig = true)
    (hservices : ServicesAccepted serviceConfigs) {state : EnvironmentDesiredState}
    (h : compile deployConfig serviceConfigs imageResults = .ok state) :
    Preserves toInt32 deployConfig serviceConfigs imageResults state := by
  have hall : ∀ s ∈ deployConfig.services, deployServiceAccepted s = true := by
    simp only [deployAccepted,Bool.and_eq_true,List.all_eq_true] at hdeploy
    exact hdeploy.2
  obtain ⟨artifacts,infras,rfl,hartifacts,hinfras⟩ := compileServices_ok h
  constructor
  · have hfilter : (deployConfig.services.filter fun s => s.infra = {}) =
        deployConfig.services.filter fun s => !isInfraService s := by
      refine List.filter_congr fun s hs => ?_
      have hiff := isInfraService_iff (hall s hs)
      cases hinfra : isInfraService s <;> simp [hinfra] at hiff <;> simp [hiff]
    rw [hfilter]
    exact hartifacts.imp fun _ _ => compileArtifact_ok hservices
  · have hfilter : (deployConfig.services.filter fun s => s.infra ≠ {}) =
        deployConfig.services.filter fun s => isInfraService s := by
      refine List.filter_congr fun s hs => ?_
      have hiff := isInfraService_iff (hall s hs)
      cases hinfra : isInfraService s <;> simp [hinfra] at hiff <;> simp [hiff]
    rw [hfilter]
    exact hinfras

/-- The conversion changes no number of an artifact just when all of them fit. -/
theorem carries_iff (ha : Carries toInt32 serviceConfigs imageResults s a) :
    Carries id serviceConfigs imageResults s a ↔ FitsInt32 s.artifact.replicas ∧
      ∀ c artifact, serviceConfigs.lookup s.artifact.path = some c →
        getArtifact c s.artifact.name = .ok artifact →
        ∀ p ∈ c.ports ++ artifact.ports, FitsInt32 p.port := by
  obtain ⟨c,artifact,result,hc,hartifact,hresult,himage,hfrom⟩ := ha
  have hport : (a.ports = (c.ports ++ artifact.ports).map fun p => ⟨p.name,p.port⟩) ↔
      ∀ p ∈ c.ports ++ artifact.ports, FitsInt32 p.port := by
    rw [hfrom.ports,List.map_inj_left]
    refine forall₂_congr fun p _ => ?_
    rw [← toInt32_eq_iff]
    simp
  have hreplica : (a.replicas = if s.artifact.replicas = 0 then 1 else s.artifact.replicas) ↔
      FitsInt32 s.artifact.replicas := by
    rw [hfrom.replicas]
    by_cases hzero : s.artifact.replicas = 0
    · simp [hzero,FitsInt32]
    · simp [hzero,toInt32_eq_iff]
  constructor
  · rintro ⟨c',artifact',result',hc',hartifact',-,-,hid⟩
    refine ⟨hreplica.mp hid.replicas,fun c₁ artifact₁ hc₁ hartifact₁ => ?_⟩
    cases hc.symm.trans hc'
    cases hc.symm.trans hc₁
    cases hartifact.symm.trans hartifact'
    cases hartifact.symm.trans hartifact₁
    exact hport.mp hid.ports
  · rintro ⟨hreplicas,hports⟩
    exact ⟨c,artifact,result,hc,hartifact,hresult,himage,{ hfrom with
      ports := hport.mpr (hports c artifact hc hartifact)
      replicas := hreplica.mpr hreplicas }⟩

theorem forall₂_iff_of_mem {α β : Type} {R Q : α → β → Prop} {c : α → Prop} {xs : List α}
    {ys : List β} (h : List.Forall₂ R xs ys) (hiff : ∀ x y, R x y → (Q x y ↔ c x)) :
    List.Forall₂ Q xs ys ↔ ∀ x ∈ xs, c x := by
  induction h with
  | nil => simp
  | cons hR _ ih => rw [List.forall₂_cons,ih,hiff _ _ hR,List.forall_mem_cons]

end compiling

/-- A successful compilation carries every declared value just when all numbers of what is deployed
fit 32 bits. -/
theorem compile_preserves_iff (deployConfig : DeployConfig)
    (serviceConfigs : Store String ServiceConfig) (imageResults : Store String Result)
    (state : EnvironmentDesiredState) (hdeploy : deployAccepted deployConfig = true)
    (hservices : ServicesAccepted serviceConfigs)
    (h : compile deployConfig serviceConfigs imageResults = .ok state) :
    Preserves id deployConfig serviceConfigs imageResults state ↔
      Fits deployConfig serviceConfigs := by
  obtain ⟨hartifacts,hinfras⟩ := preserves_compile hdeploy hservices h
  have hcarries := forall₂_iff_of_mem hartifacts fun _ _ => carries_iff
  constructor
  · intro hpreserves s hs hinfra
    exact hcarries.mp hpreserves.1 s (List.mem_filter.mpr ⟨hs,decide_eq_true hinfra⟩)
  · intro hfits
    refine ⟨hcarries.mpr fun s hs => ?_,hinfras⟩
    obtain ⟨hmem,hinfra⟩ := List.mem_filter.mp hs
    exact hfits s hmem (of_decide_eq_true hinfra)

/-! ## Two compilations -/

def shopService (port : Int) : ServiceConfig where
  name := "web"
  app := "shop"
  artifacts := [{ name := "web", target := "//shop:image", secrets := ["db"], ports := [⟨"http",port⟩] }]
  ports := [⟨"metrics",9090⟩]
  configs := [⟨"limits",[⟨"quota","1","json"⟩]⟩]

def shopServices (port : Int) : Store String ServiceConfig :=
  AList.singleton "//shop/service.yaml" (shopService port)

def shopImages : Store String Result :=
  AList.singleton "//shop:image" ⟨"registry/shop","sha256:0123456789abcdef0123456789abcdef"⟩

def shopDeploy : DeployConfig where
  name := "shop.dev"
  services := [
    { artifact :=
        { path := "//shop/service.yaml", name := "web", replicas := 2, env := [("MODE","dev")]
          secrets := AList.singleton "db" ⟨"shop-db","url"⟩, config := ["limits"] }
      http := ⟨["shop.example"],[⟨"http",⟨.pathPrefix,"/"⟩⟩]⟩ },
    { infra := { resource := "redis", profile := "small", name := "cache", app := "shop" } }]

/-- The desired state of the shop, with the number of its port. -/
def shopState (port : Int) : EnvironmentDesiredState where
  artifacts := [
    { name := "web", app := "shop"
      image := "registry/shop@sha256:0123456789abcdef0123456789abcdef"
      ports := [⟨"metrics",9090⟩,⟨"http",port⟩], replicas := 2, tlsEnabled := false
      ossEnabled := false, workloadKind := .stateless
      http := some ⟨["shop.example"],[⟨"http",⟨.pathPrefix,"/"⟩⟩]⟩, env := [("MODE","dev")]
      secretBindings := [⟨"db","shop-db","url"⟩], configBlocks := [⟨"limits",[⟨"quota","json","1"⟩]⟩] }]
  infras := [⟨"redis","small","cache","shop",none⟩]

private theorem shopServices_accepted {port : Int} (h : serviceAccepted (shopService port) = true) :
    ServicesAccepted (shopServices port) := by
  intro path c hc
  have hmem := AList.mem_lookup_iff.mp hc
  have he : c = shopService port := by
    have hsingle : (⟨path,c⟩ : Σ _ : String, ServiceConfig) ∈
      [⟨"//shop/service.yaml",shopService port⟩] := hmem
    cases List.mem_singleton.mp hsingle
    rfl
  rw [he]
  exact h

theorem compile_preserves_iff_demo : Preserves id shopDeploy (shopServices 8080) shopImages
    (shopState 8080) := by
  refine (compile_preserves_iff shopDeploy (shopServices 8080) shopImages (shopState 8080)
    (by decide) (shopServices_accepted (by decide)) (by decide)).mpr ?_
  intro s hs hinfra
  rcases List.mem_cons.mp hs with rfl | hs
  · refine ⟨by constructor <;> decide,fun c artifact hc hartifact p hp => ?_⟩
    cases hc
    cases hartifact
    rcases List.mem_cons.mp hp with rfl | hp
    · constructor <;> decide
    · cases List.mem_singleton.mp hp
      constructor <;> decide
  · rw [List.mem_singleton.mp hs] at hinfra
    exact absurd hinfra (by decide)

/-- A port beyond 32 bits reaches the server as another one, which is valid. -/
theorem large_port_is_changed : ¬∀ (deployConfig : DeployConfig)
    (serviceConfigs : Store String ServiceConfig) (imageResults : Store String Result)
    (state : EnvironmentDesiredState), deployAccepted deployConfig = true →
    ServicesAccepted serviceConfigs → compile deployConfig serviceConfigs imageResults = .ok state →
    (fromProtoDesiredState state).validate = .ok () →
    Preserves id deployConfig serviceConfigs imageResults state := by
  intro h
  have hpreserves := h shopDeploy (shopServices 4294975376) shopImages (shopState 8080)
    (by decide) (shopServices_accepted (by decide)) (by decide)
    (by decide)
  obtain ⟨c,artifact,-,hc,hartifact,-,-,hfrom⟩ :=
    (List.forall₂_cons.mp (hpreserves.1 : List.Forall₂ _ [_] [_])).1
  cases hc
  cases hartifact
  have hports := hfrom.ports
  simp [shopService] at hports

end Dominion.Release
