import Dominion.Deploy.K8s.Converter
import Dominion.Release.Compiler

/-! # The ports behind HTTP routes

A match names its port by the backend.  The compiler and the validation compare names exactly; the
converter keys the ports by their trimmed names in lower case, and a later port replaces an earlier
one of the same key. -/
namespace Dominion.Release

open Dominion.Framework
open Dominion.Deploy.Domain (ArtifactHTTPSpec ArtifactPortSpec ArtifactSpec DesiredState
  EnvironmentType Err HTTPRouteRule)
open Dominion.Deploy.K8s

/-- The converted match goes to the port that alone has the name of the backend. -/
def ReachesNamed (ports : List ArtifactPortSpec) (rule : HTTPRouteRule) (m : HTTPRoutePathMatch) :
    Prop :=
  ∃ port, (ports.filter fun p => p.name = rule.backend) = [port] ∧ m.backendPort = port.port

/-- The ports that are the backend but for the case of the name and the blanks around it. -/
def sameKey (ports : List ArtifactPortSpec) (backend : String) : List ArtifactPortSpec :=
  ports.filter fun p => backendKey p.name = backendKey backend

/-- At most one port has the name of the backend, and the last port of its key has its number. -/
def Unambiguous (ports : List ArtifactPortSpec) (backend : String) : Prop :=
  (ports.filter fun p => p.name = backend).length ≤ 1 ∧ ∀ p ∈ ports, p.name = backend →
    (sameKey ports backend).getLast?.map ArtifactPortSpec.port = some p.port

def RoutesReach (a : ArtifactSpec) : Prop :=
  ∀ http, a.http = some http → ∀ cfg envName envType route,
    convertArtifactHTTPToRoute a http envName cfg (convertArtifactToDeployment a envName envType)
      envType = .ok route → List.Forall₂ (ReachesNamed a.ports) http.matches route.matches

def PortsDistinct (a : ArtifactSpec) : Prop :=
  (a.ports.map ArtifactPortSpec.name).Nodup ∧ (a.ports.map fun p => backendKey p.name).Nodup

/-- The ports that an artifact of the deployment gets from its service have keys of their own. -/
def DistinctPortKeys (deployConfig : DeployConfig) (serviceConfigs : Store String ServiceConfig) :
    Prop :=
  ∀ s ∈ deployConfig.services, isInfraService s = false →
    ∀ c artifact, serviceConfigs.lookup s.artifact.path = some c →
      getArtifact c s.artifact.name = .ok artifact →
      ((c.ports ++ artifact.ports).map fun p => backendKey p.name).Nodup

/-! ## Conversion -/

section conversion

variable {ports : List ArtifactPortSpec} {backend : String}

/-- The last port of a key is the one the backends keep. -/
theorem backendPort_eq_some {n : Int} (h : backendPort ports (Text.trimSpace backend) = some n) :
    (sameKey ports backend).getLast?.map ArtifactPortSpec.port = some n := by
  have hlast : backendPort ports (Text.trimSpace backend) =
      ((ports.filter fun p => backendKey p.name ≠ "").filter fun p =>
        backendKey p.name = backendKey backend).getLast?.map ArtifactPortSpec.port := by
    rw [backendPort,← List.head?_filter,List.filter_reverse,List.head?_reverse]
    rfl
  rw [hlast,List.filter_filter] at h
  by_cases hblank : backendKey backend = ""
  · have hnil : (ports.filter fun p => decide (backendKey p.name = backendKey backend) &&
        decide (backendKey p.name ≠ "")) = [] := by
      apply List.filter_eq_nil_iff.mpr
      intro p _
      simp only [hblank,Bool.and_eq_true,decide_eq_true_eq,not_and,not_not]
      exact id
    rw [hnil] at h
    cases h
  · have hsame : (ports.filter fun p => decide (backendKey p.name = backendKey backend) &&
        decide (backendKey p.name ≠ "")) = sameKey ports backend := by
      apply List.filter_congr
      intro p _
      by_cases hkey : backendKey p.name = backendKey backend <;> simp [hkey,hblank]
    rwa [hsame] at h

private theorem reachesNamed_iff {rule : HTTPRouteRule} {m : HTTPRoutePathMatch}
    (hmem : rule.backend ∈ ports.map ArtifactPortSpec.name)
    (hm : backendPort ports (Text.trimSpace rule.backend) = some m.backendPort) :
    ReachesNamed ports rule m ↔ Unambiguous ports rule.backend := by
  have hlast := backendPort_eq_some hm
  constructor
  · rintro ⟨port,honly,hport⟩
    refine ⟨by rw [honly]; exact Nat.le_refl 1,fun p hp hname => ?_⟩
    have hin : p ∈ ports.filter fun p => p.name = rule.backend :=
      List.mem_filter.mpr ⟨hp,decide_eq_true hname⟩
    rw [honly,List.mem_singleton] at hin
    rw [hin,← hport]
    exact hlast
  · rintro ⟨hone,hnumber⟩
    obtain ⟨p,hp,hname⟩ := List.mem_map.mp hmem
    have hin : p ∈ ports.filter fun p => p.name = rule.backend :=
      List.mem_filter.mpr ⟨hp,decide_eq_true hname⟩
    have hlength : (ports.filter fun p => p.name = rule.backend).length = 1 := by
      have hpos := List.length_pos_of_mem hin
      omega
    obtain ⟨port,honly⟩ := List.length_eq_one_iff.mp hlength
    refine ⟨port,honly,?_⟩
    rw [honly,List.mem_singleton] at hin
    have hsame := hlast.symm.trans (hnumber p hp hname)
    rw [← hin]
    exact Option.some.inj hsame

private theorem filter_key_eq {α β : Type} [DecidableEq β] {f : α → β} {xs : List α}
    (h : (xs.map f).Nodup) {x : α} (hx : x ∈ xs) : (xs.filter fun y => f y = f x) = [x] := by
  induction xs with
  | nil => cases hx
  | cons y ys ih =>
    rw [List.map_cons,List.nodup_cons] at h
    obtain ⟨hnew,hrest⟩ := h
    rcases List.mem_cons.mp hx with rfl | hx
    · have hnil : (ys.filter fun y => f y = f x) = [] := by
        apply List.filter_eq_nil_iff.mpr
        intro y hy hkey
        exact hnew (List.mem_map.mpr ⟨y,hy,of_decide_eq_true hkey⟩)
      rw [List.filter_cons_of_pos (by simp),hnil]
    · have hne : f y ≠ f x := fun he => hnew (he ▸ List.mem_map_of_mem hx)
      rw [List.filter_cons_of_neg (by simpa using hne),ih hrest hx]

private theorem names_nodup_of_keys (h : (ports.map fun p => backendKey p.name).Nodup) :
    (ports.map ArtifactPortSpec.name).Nodup := by
  have hmap : ((ports.map ArtifactPortSpec.name).map backendKey).Nodup := by
    rw [List.map_map]
    exact h
  exact hmap.of_map

private theorem unambiguous_of_keys (h : (ports.map fun p => backendKey p.name).Nodup) :
    Unambiguous ports backend := by
  constructor
  · by_cases hnone : (ports.filter fun p => p.name = backend) = []
    · simp [hnone]
    · obtain ⟨p,hp⟩ := List.exists_mem_of_ne_nil _ hnone
      obtain ⟨hp,hname⟩ := List.mem_filter.mp hp
      have honly := filter_key_eq (names_nodup_of_keys h) hp
      rw [of_decide_eq_true hname] at honly
      simp [honly]
  · intro p hp hname
    have honly := filter_key_eq h hp
    rw [hname] at honly
    rw [sameKey,honly]
    rfl

/-- The matches of an artifact that names its ports reach them just when no backend is ambiguous. -/
theorem reachesNamed_all_iff {rules : List HTTPRouteRule} {converted : List HTTPRoutePathMatch}
    (hmem : ∀ r ∈ rules, r.backend ∈ ports.map ArtifactPortSpec.name)
    (h : convertHTTPRouteMatches ports rules = .ok converted) :
    List.Forall₂ (ReachesNamed ports) rules converted ↔
      ∀ r ∈ rules, Unambiguous ports r.backend := by
  have hall := List.forall₂_and_left _ _ |>.mpr ⟨hmem,forall₂_of_mapM h⟩
  refine forall₂_iff_of_mem hall fun r m hr => ?_
  obtain ⟨hnamed,hm⟩ := hr
  dsimp only at hm
  split at hm
  · cases hm
  · rename_i n hn
    cases hm
    exact reachesNamed_iff hnamed hn

private theorem convertHTTPRouteMatches_single (rule : HTTPRouteRule) {n : Int}
    (h : backendPort ports (Text.trimSpace rule.backend) = some n) :
    convertHTTPRouteMatches ports [rule] = .ok [⟨convertPathType rule.path.type,rule.path.value,
      Text.trimSpace rule.backend,n⟩] := by
  simp only [convertHTTPRouteMatches,List.mapM_cons,h]
  rfl

private theorem matches_of_route {a : ArtifactSpec} {http : ArtifactHTTPSpec} {cfg : K8sConfig}
    {envName : String} {envType : EnvironmentType} {w : DeploymentWorkload}
    {route : HTTPRouteWorkload}
    (h : convertArtifactHTTPToRoute a http envName cfg w envType = .ok route) :
    convertHTTPRouteMatches a.ports http.matches = .ok route.matches := by
  obtain ⟨converted,hconverted,hroute⟩ := ok_of_bind h
  cases hroute
  exact hconverted

end conversion

/-! ## Compilation -/

section compilation

variable {deployConfig : DeployConfig} {serviceConfigs : Store String ServiceConfig}
  {imageResults : Store String Result} {s : DeployService} {a : ArtifactSpec}

private theorem backends_of_compileArtifactHTTP {mergedPorts : List ServiceArtifactPort}
    {name : String}
    {http : ArtifactHTTPSpec} (h : compileArtifactHTTP s mergedPorts name = .ok (some http)) :
    ∀ r ∈ http.matches, r.backend ∈ mergedPorts.map ServiceArtifactPort.name := by
  rw [compileArtifactHTTP] at h
  split at h
  · cases h
  · obtain ⟨rules,hrules,hhttp⟩ := ok_of_bind h
    cases hhttp
    intro r hr
    obtain ⟨i,hi,rfl⟩ := List.mem_iff_getElem.mp hr
    have hall := forall₂_of_mapM hrules
    have hrule := hall.get (i := i) (hall.length_eq ▸ hi) hi
    obtain ⟨_,hnamed,_⟩ := ok_of_bind hrule
    have hname := compileMatch_ok hrule
    have hmem := not_not.mp (refuse_eq_ok hnamed)
    simp only [List.get_eq_getElem] at hname
    rw [hname]
    exact hmem

private theorem ports_of_compileArtifact
    (h : compileArtifact deployConfig serviceConfigs imageResults s = .ok a) :
    ∃ c artifact, serviceConfigs.lookup s.artifact.path = some c ∧
      getArtifact c s.artifact.name = .ok artifact ∧
      a.ports = (c.ports ++ artifact.ports).map (fun p => ⟨p.name,toInt32 p.port⟩) ∧
      ∀ http, a.http = some http → ∀ r ∈ http.matches,
        r.backend ∈ a.ports.map ArtifactPortSpec.name := by
  obtain ⟨c,hc,h⟩ := ok_of_bind h
  obtain ⟨artifact,hartifact,h⟩ := ok_of_bind h
  obtain ⟨_,_,h⟩ := ok_of_bind h
  obtain ⟨_,_,h⟩ := ok_of_bind h
  obtain ⟨ports,hports,h⟩ := ok_of_bind h
  obtain ⟨http,hhttp,h⟩ := ok_of_bind h
  obtain ⟨_,_,h⟩ := ok_of_bind h
  obtain ⟨_,_,h⟩ := ok_of_bind h
  obtain ⟨_,_,h⟩ := ok_of_bind h
  cases h
  refine ⟨c,artifact,require_eq_ok hc,ok_of_inContext hartifact,by rw [mergePorts_ok hports],?_⟩
  intro http' hsome r hr
  dsimp only at hsome
  rw [hsome] at hhttp
  have hmem := backends_of_compileArtifactHTTP hhttp r hr
  rw [List.map_map]
  exact hmem

private theorem compiled_artifacts {state : EnvironmentDesiredState}
    (h : compile deployConfig serviceConfigs imageResults = .ok state) :
    List.Forall₂ (fun s a => compileArtifact deployConfig serviceConfigs imageResults s = .ok a)
      (deployConfig.services.filter fun s => !isInfraService s) state.artifacts := by
  obtain ⟨artifacts,infras,rfl,hartifacts,-⟩ := compileServices_ok h
  exact hartifacts

private theorem ports_distinct_iff {c : ServiceConfig} {artifact : ServiceArtifact}
    (hports : a.ports = (c.ports ++ artifact.ports).map fun p => ⟨p.name,toInt32 p.port⟩) :
    (a.ports.map fun p => backendKey p.name).Nodup ↔
      ((c.ports ++ artifact.ports).map fun p => backendKey p.name).Nodup := by
  rw [hports,List.map_map]
  exact Iff.rfl

/-- The artifacts of a compiled state are in order just when the configurations declare no two ports
of a key. -/
theorem compiled_routes_iff {state : EnvironmentDesiredState}
    (h : compile deployConfig serviceConfigs imageResults = .ok state) :
    (∀ a ∈ (fromProtoDesiredState state).artifacts, RoutesReach a ∧ PortsDistinct a) ↔
      DistinctPortKeys deployConfig serviceConfigs := by
  have hall := compiled_artifacts h
  constructor
  · intro hdistinct s hs hinfra c artifact hc hartifact
    obtain ⟨i,hi,his⟩ := List.mem_iff_getElem.mp
      (List.mem_filter.mpr ⟨hs,by rw [hinfra]; rfl⟩ :
        s ∈ deployConfig.services.filter fun s => !isInfraService s)
    have hcompiled := hall.get (i := i) hi (hall.length_eq ▸ hi)
    simp only [List.get_eq_getElem,his] at hcompiled
    obtain ⟨c',artifact',hc',hartifact',hports,-⟩ := ports_of_compileArtifact hcompiled
    cases hc.symm.trans hc'
    cases hartifact.symm.trans hartifact'
    exact (ports_distinct_iff hports).mp (hdistinct _ (List.getElem_mem _)).2.2
  · intro hkeys a ha
    obtain ⟨i,hi,hia⟩ := List.mem_iff_getElem.mp ha
    have hlength : i < (deployConfig.services.filter fun s => !isInfraService s).length :=
      hall.length_eq ▸ hi
    have hcompiled := hall.get (i := i) hlength hi
    have hsame : state.artifacts.get ⟨i,hi⟩ = a := hia
    rw [hsame,List.get_eq_getElem] at hcompiled
    obtain ⟨hs,hinfra⟩ := List.mem_filter.mp (List.getElem_mem hlength)
    obtain ⟨c,artifact,hc,hartifact,hports,hbackends⟩ := ports_of_compileArtifact hcompiled
    have hnodup := (ports_distinct_iff hports).mpr
      (hkeys _ hs (by simpa using hinfra) c artifact hc hartifact)
    refine ⟨fun http hhttp cfg envName envType route hroute => ?_,
      names_nodup_of_keys hnodup,hnodup⟩
    exact (reachesNamed_all_iff (hbackends http hhttp) (matches_of_route hroute)).mpr
      fun _ _ => unambiguous_of_keys hnodup

end compilation

/-- An accepted artifact's routes reach the ports they name just when no backend is ambiguous, and
a compiled state is in order just when its configurations declare no two ports of a key. -/
theorem routes_reach_named_ports_iff (ds : DesiredState) (deployConfig : DeployConfig)
    (serviceConfigs : Store String ServiceConfig) (imageResults : Store String Result) :
    (ds.validate = .ok () → ∀ a ∈ ds.artifacts, ∀ http cfg envName envType
      route, a.http = some http → convertArtifactHTTPToRoute a http envName cfg
        (convertArtifactToDeployment a envName envType) envType = .ok route →
      (List.Forall₂ (ReachesNamed a.ports) http.matches route.matches ↔
        ∀ r ∈ http.matches, Unambiguous a.ports r.backend)) ∧
    ∀ state, compile deployConfig serviceConfigs imageResults = .ok state →
      ((∀ a ∈ (fromProtoDesiredState state).artifacts, RoutesReach a ∧ PortsDistinct a) ↔
        DistinctPortKeys deployConfig serviceConfigs) := by
  constructor
  · intro hvalid a ha http cfg envName envType route hhttp hroute
    have haccepted := DesiredState.accepted_of_validate hvalid
    have hmem := fun r hr => (haccepted.backends a ha http hhttp r hr).2
    exact reachesNamed_all_iff hmem (matches_of_route hroute)
  · intro state hcompile
    exact compiled_routes_iff hcompile

/-! ## Two ports of a key -/

/-- A service whose artifact has a port `http` and one more. -/
def portalService (other : String) : ServiceConfig where
  name := "web"
  app := "portal"
  artifacts := [{ name := "web", target := "//portal:image", ports := [⟨"http",80⟩,⟨other,8080⟩] }]

def portalServices (other : String) : Store String ServiceConfig :=
  AList.singleton "//portal/service.yaml" (portalService other)

def portalImages : Store String Result :=
  AList.singleton "//portal:image" ⟨"registry/portal","sha256:0123456789abcdef0123456789abcdef"⟩

def portalDeploy : DeployConfig where
  name := "portal.dev"
  services := [{
    artifact := { path := "//portal/service.yaml", name := "web", replicas := 1 }
    http := ⟨["portal.example"],[⟨"http",⟨.pathPrefix,"/"⟩⟩]⟩ }]

def portalHTTP : ArtifactHTTPSpec := ⟨["portal.example"],[⟨"http",⟨.pathPrefix,"/"⟩⟩]⟩

def portalArtifact (other : String) : ArtifactSpec where
  name := "web"
  app := "portal"
  image := "registry/portal@sha256:0123456789abcdef0123456789abcdef"
  ports := [⟨"http",80⟩,⟨other,8080⟩]
  replicas := 1
  tlsEnabled := false
  ossEnabled := false
  workloadKind := .stateless
  http := some portalHTTP
  env := []
  secretBindings := []
  configBlocks := []

def portalConfig : K8sConfig where
  «namespace» := "dominion"
  managedBy := "deploy"
  gateway := ⟨"edge","ingress"⟩
  tls := ⟨"tls","example",⟨"ca","ca.crt"⟩⟩
  oss := ⟨"oss","access","secret"⟩
  mongoDB := []
  redis := []

def portalWorkload (other : String) : DeploymentWorkload :=
  convertArtifactToDeployment (portalArtifact other) "portal-dev" .prod

def portalRoute (other : String) (port : Int) : HTTPRouteWorkload where
  serviceName := "web"
  environmentName := "portal-dev"
  app := "portal"
  hostnames := ["portal.example"]
  «matches» := [⟨"PathPrefix","/",Text.trimSpace "http",port⟩]
  backendService := (portalWorkload other).serviceResourceName
  gatewayName := "edge"
  gatewayNamespace := "ingress"
  envType := .prod

private theorem portal_converts {other : String} {port : Int}
    (h : backendPort (portalArtifact other).ports (Text.trimSpace "http") = some port) :
    convertArtifactHTTPToRoute (portalArtifact other) portalHTTP "portal-dev" portalConfig
      (portalWorkload other) .prod = .ok (portalRoute other port) := by
  have hmatches := convertHTTPRouteMatches_single ⟨"http",⟨.pathPrefix,"/"⟩⟩ h
  rw [convertArtifactHTTPToRoute,portalHTTP,hmatches]
  rfl

theorem routes_reach_named_ports_iff_demo :
    List.Forall₂ (ReachesNamed (portalArtifact "grpc").ports) portalHTTP.matches
      (portalRoute "grpc" 80).matches ∧
    ∀ a ∈ (fromProtoDesiredState ⟨[portalArtifact "grpc"],[]⟩).artifacts,
      RoutesReach a ∧ PortsDistinct a := by
  constructor
  · refine ((routes_reach_named_ports_iff ⟨[portalArtifact "grpc"],[]⟩ portalDeploy
      (portalServices "grpc") portalImages).1 (by decide) _ (List.mem_singleton.mpr rfl) portalHTTP portalConfig "portal-dev" .prod _ rfl
      (portal_converts (by decide))).mpr ?_
    intro r hr
    cases List.mem_singleton.mp hr
    exact unambiguous_of_keys (by decide)
  · refine ((routes_reach_named_ports_iff ⟨[portalArtifact "grpc"],[]⟩ portalDeploy
      (portalServices "grpc") portalImages).2 _ (by decide)).mpr ?_
    intro s hs _ c artifact hc hartifact
    cases List.mem_singleton.mp hs
    cases hc
    cases hartifact
    decide

/-- With ports `http` and `HTTP` the route of `http` goes to the port of `HTTP`, from an accepted
state that a successful compilation produces. -/
theorem route_reaches_other_port :
    (¬∀ ds : DesiredState, ds.validate = .ok () → ∀ a ∈ ds.artifacts, RoutesReach a) ∧
    ¬∀ deployConfig serviceConfigs imageResults state,
      compile deployConfig serviceConfigs imageResults = .ok state →
      ∀ a ∈ (fromProtoDesiredState state).artifacts, RoutesReach a ∧ PortsDistinct a := by
  have hmisses : ¬RoutesReach (portalArtifact "HTTP") := by
    intro hreach
    have hroute := hreach portalHTTP rfl portalConfig "portal-dev" .prod (portalRoute "HTTP" 8080)
      (portal_converts (by decide))
    obtain ⟨port,honly,hport⟩ :=
      (List.forall₂_cons.mp (hroute : List.Forall₂ _ [_] [_])).1
    have hfilter : ((portalArtifact "HTTP").ports.filter fun p => p.name = "http") =
        [⟨"http",80⟩] := by decide
    cases hfilter.symm.trans honly
    exact absurd hport (by decide)
  constructor
  · intro h
    exact hmisses (h ⟨[portalArtifact "HTTP"],[]⟩ (by decide) _ (List.mem_singleton.mpr rfl))
  · intro h
    exact hmisses (h portalDeploy (portalServices "HTTP") portalImages
      ⟨[portalArtifact "HTTP"],[]⟩ (by decide) _ (List.mem_singleton.mpr rfl)).1

end Dominion.Release
