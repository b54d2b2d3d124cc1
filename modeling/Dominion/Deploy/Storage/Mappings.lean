import Mathlib.Data.List.Nodup
import Dominion.Deploy.Domain.Environment

/-! # The mappings of the desired state

The collection and the API each hold the desired state in types of their own, and the aggregate
hands out copies.  Kinds and path rule types are integers here, as the service holds them: the
constants it declares do not exhaust them.  A nil and an empty collection are one value, and the
elements of a collection of the aggregate are present, as `Validate` reads through each of them. -/
namespace Dominion.Deploy.Mapping

open Dominion.Deploy.Domain (Err ArtifactPortSpec SecretBinding ConfigEntry ConfigBlock InfraSpec
  InfraPersistenceSpec)

/-- A map of environment variables, as its entries in iteration order. -/
structure EnvMap where
  entries : List (String × String)
  nodup : (entries.map Prod.fst).Nodup
  deriving DecidableEq

namespace EnvMap

def empty : EnvMap := ⟨[],List.nodup_nil⟩

private def setEntry (key value : String) : List (String × String) → List (String × String)
  | [] => [(key,value)]
  | e :: es => if e.1 = key then (key,value) :: es else e :: setEntry key value es

private theorem mem_keys_setEntry {key value k : String} {es : List (String × String)}
    (h : k ∈ (setEntry key value es).map Prod.fst) : k = key ∨ k ∈ es.map Prod.fst := by
  induction es with
  | nil =>
    apply Or.inl
    simpa [setEntry] using h
  | cons e es ih =>
    rw [setEntry] at h
    split at h
    · rename_i he
      apply Or.inr
      simpa [he] using h
    · rw [List.map_cons,List.mem_cons] at h ⊢
      rcases h with h | h
      · exact Or.inr (Or.inl h)
      · exact (ih h).imp id Or.inr

private theorem nodup_setEntry (key value : String) {es : List (String × String)}
    (h : (es.map Prod.fst).Nodup) : ((setEntry key value es).map Prod.fst).Nodup := by
  induction es with
  | nil => exact List.nodup_singleton key
  | cons e es ih =>
    rw [List.map_cons,List.nodup_cons] at h
    rw [setEntry]
    split
    · rename_i he
      rw [List.map_cons,List.nodup_cons]
      exact ⟨he ▸ h.1,h.2⟩
    · rename_i he
      rw [List.map_cons,List.nodup_cons]
      refine ⟨fun hmem => ?_,ih h.2⟩
      rcases mem_keys_setEntry hmem with hkey | hrest
      · exact he hkey
      · exact h.1 hrest

/-- `m[key] = value`. -/
def assign (m : EnvMap) (key value : String) : EnvMap :=
  ⟨setEntry key value m.entries,nodup_setEntry key value m.nodup⟩

/-- `maps.Copy`. -/
def copy (dst src : EnvMap) : EnvMap :=
  src.entries.foldl (fun m e => m.assign e.1 e.2) dst

private theorem setEntry_of_notMem {key value : String} {es : List (String × String)}
    (h : key ∉ es.map Prod.fst) : setEntry key value es = es ++ [(key,value)] := by
  induction es with
  | nil => rfl
  | cons e es ih =>
    rw [List.map_cons,List.mem_cons,not_or] at h
    rw [setEntry,if_neg (Ne.symm h.1),ih h.2,List.cons_append]

private theorem entries_foldl_assign {es : List (String × String)} {dst : EnvMap}
    (h : ((dst.entries ++ es).map Prod.fst).Nodup) :
    (es.foldl (fun m e => m.assign e.1 e.2) dst).entries = dst.entries ++ es := by
  induction es generalizing dst with
  | nil => exact (List.append_nil _).symm
  | cons e es ih =>
    have hnew : e.1 ∉ dst.entries.map Prod.fst := by
      intro hmem
      rw [List.map_append,List.nodup_append] at h
      exact h.2.2 e.1 hmem e.1 List.mem_cons_self rfl
    have hassign : (dst.assign e.1 e.2).entries = dst.entries ++ [e] := setEntry_of_notMem hnew
    have hall : (dst.assign e.1 e.2).entries ++ es = dst.entries ++ e :: es := by
      rw [hassign,List.append_assoc,List.singleton_append]
    rw [List.foldl_cons,ih (by rwa [hall]),hall]

/-- A copy into a fresh map is the map. -/
theorem copy_empty (m : EnvMap) : empty.copy m = m := by
  have h : (empty.copy m).entries = m.entries := entries_foldl_assign m.nodup
  cases hcopy : empty.copy m with
  | mk entries nodup =>
    rw [hcopy] at h
    cases m
    cases h
    rfl

end EnvMap

/-! ## The desired state of the aggregate -/

structure HTTPPathRule where
  type : Int
  value : String
  deriving DecidableEq

structure HTTPRouteRule where
  backend : String
  path : HTTPPathRule
  deriving DecidableEq

structure ArtifactHTTPSpec where
  hostnames : List String
  «matches» : List HTTPRouteRule
  deriving DecidableEq

structure ArtifactSpec where
  name : String
  app : String
  image : String
  ports : List ArtifactPortSpec
  replicas : Int
  tlsEnabled : Bool
  ossEnabled : Bool
  workloadKind : Int
  http : Option ArtifactHTTPSpec
  env : EnvMap
  secretBindings : List SecretBinding
  configBlocks : List ConfigBlock
  deriving DecidableEq

structure DesiredState where
  artifacts : List ArtifactSpec
  infras : List InfraSpec
  deriving DecidableEq

def httpPathRuleTypeUnspecified : Int := 0
def httpPathRuleTypePathPrefix : Int := 1
def workloadKindStateless : Int := 0
def workloadKindStateful : Int := 1

/-- What the rest of the service tells apart: of a path rule whether it is a prefix rule, and of a
kind whether it is the stateful one. -/
def HTTPRouteRule.view (r : HTTPRouteRule) : Domain.HTTPRouteRule where
  backend := r.backend
  path := {
    type := if r.path.type = httpPathRuleTypePathPrefix then .pathPrefix else .unspecified
    value := r.path.value }

def ArtifactHTTPSpec.view (s : ArtifactHTTPSpec) : Domain.ArtifactHTTPSpec where
  hostnames := s.hostnames
  «matches» := s.matches.map HTTPRouteRule.view

namespace ArtifactSpec

def view (s : ArtifactSpec) : Domain.ArtifactSpec where
  name := s.name
  app := s.app
  image := s.image
  ports := s.ports
  replicas := s.replicas
  tlsEnabled := s.tlsEnabled
  ossEnabled := s.ossEnabled
  workloadKind := if s.workloadKind = workloadKindStateful then .stateful else .stateless
  http := s.http.map ArtifactHTTPSpec.view
  env := s.env.entries
  secretBindings := s.secretBindings
  configBlocks := s.configBlocks

/-- Zero replicas default to one. -/
def normalize (s : ArtifactSpec) : ArtifactSpec :=
  if s.replicas = 0 then { s with replicas := 1 } else s

theorem view_normalize (s : ArtifactSpec) : s.normalize.view = s.view.normalize := by
  by_cases h : s.replicas = 0
  · have hv : s.view.replicas = 0 := h
    simp only [normalize,Domain.ArtifactSpec.normalize,h,hv,if_true]
    rfl
  · have hv : ¬s.view.replicas = 0 := h
    simp only [normalize,Domain.ArtifactSpec.normalize,h,hv,if_false]

theorem normalize_normalize (s : ArtifactSpec) : s.normalize.normalize = s.normalize := by
  by_cases h : s.replicas = 0
  · simp only [normalize,h,if_true]
    rfl
  · simp only [normalize,h,if_false]

end ArtifactSpec

namespace DesiredState

def view (ds : DesiredState) : Domain.DesiredState :=
  ⟨ds.artifacts.map ArtifactSpec.view,ds.infras⟩

/-- `normalizeDesiredState`. -/
def normalize (ds : DesiredState) : DesiredState :=
  { ds with artifacts := ds.artifacts.map ArtifactSpec.normalize }

/-- `Environment.Validate`. -/
def validate (ds : DesiredState) : Except Err Unit :=
  ds.view.validate

@[simp] theorem normalize_normalize (ds : DesiredState) :
    ds.normalize.normalize = ds.normalize := by
  simp only [normalize,List.map_map]
  congr 1
  apply List.map_congr_left
  intro s _
  exact s.normalize_normalize

theorem view_normalize (ds : DesiredState) : ds.normalize.view = ds.view.normalize := by
  simp only [view,normalize,Domain.DesiredState.normalize,List.map_map]
  congr 1
  apply List.map_congr_left
  intro s _
  exact s.view_normalize

/-- Every kind and every path rule type is a declared constant. -/
def Declared (ds : DesiredState) : Prop :=
  ∀ a ∈ ds.artifacts,
    (a.workloadKind = workloadKindStateless ∨ a.workloadKind = workloadKindStateful) ∧
    ∀ http ∈ a.http, ∀ m ∈ http.matches,
      m.path.type = httpPathRuleTypeUnspecified ∨ m.path.type = httpPathRuleTypePathPrefix

instance (ds : DesiredState) : Decidable ds.Declared :=
  inferInstanceAs (Decidable (∀ a ∈ ds.artifacts, (_ ∨ _) ∧ ∀ http ∈ a.http, ∀ m ∈ http.matches,
    _ ∨ _))

end DesiredState

/-! ## Copies -/

def cloneConfigBlocks (blocks : List ConfigBlock) : List ConfigBlock :=
  blocks.map fun cb =>
    { block := cb.block
      entries := cb.entries.map fun ce => { key := ce.key, type := ce.type, value := ce.value } }

/-- A struct and a slice are copied as they are, and a map entry by entry into a fresh one. -/
def cloneArtifacts (artifacts : List ArtifactSpec) : List ArtifactSpec :=
  artifacts.map fun artifact =>
    { artifact with
      env := if artifact.env.entries.isEmpty then artifact.env else EnvMap.empty.copy artifact.env
      configBlocks := cloneConfigBlocks artifact.configBlocks }

def cloneInfras (infras : List InfraSpec) : List InfraSpec :=
  infras.map fun infra => infra

def cloneDesiredState (state : Option DesiredState) : Option DesiredState :=
  state.map fun state =>
    { artifacts := cloneArtifacts state.artifacts, infras := cloneInfras state.infras }

theorem map_eq_self_iff {α : Type} {f : α → α} {xs : List α} :
    xs.map f = xs ↔ ∀ x ∈ xs, f x = x := by
  induction xs with
  | nil => simp
  | cons x xs ih => simp [ih]

theorem map_eq_self {α : Type} {f : α → α} (h : ∀ x, f x = x) (xs : List α) : xs.map f = xs :=
  map_eq_self_iff.mpr fun x _ => h x

theorem map_map_eq_self {α β : Type} {f : α → β} {g : β → α} (h : ∀ x, g (f x) = x)
    (xs : List α) : (xs.map f).map g = xs := by
  rw [List.map_map]
  exact map_eq_self h xs

theorem cloneConfigBlocks_eq (blocks : List ConfigBlock) : cloneConfigBlocks blocks = blocks := by
  apply map_eq_self
  intro cb
  exact congrArg (ConfigBlock.mk cb.block) (map_eq_self (fun _ => rfl) cb.entries)

theorem cloneArtifacts_eq (artifacts : List ArtifactSpec) : cloneArtifacts artifacts = artifacts := by
  apply map_eq_self
  intro artifact
  simp only [EnvMap.copy_empty,ite_self,cloneConfigBlocks_eq]

theorem cloneDesiredState_eq (state : Option DesiredState) : cloneDesiredState state = state := by
  cases state with
  | none => rfl
  | some ds =>
    rw [cloneDesiredState,Option.map_some,cloneArtifacts_eq]
    exact congrArg (some <| DesiredState.mk ds.artifacts ·) (List.map_id ds.infras)

/-! ## The documents of the collection -/

structure MongoArtifactPortSpec where
  name : String
  port : Int
  deriving DecidableEq

structure MongoSecretBinding where
  logicalName : String
  secretName : String
  key : String
  deriving DecidableEq

structure MongoConfigEntry where
  key : String
  type : String
  value : String
  deriving DecidableEq

structure MongoConfigBlock where
  block : String
  entries : List MongoConfigEntry
  deriving DecidableEq

structure MongoHTTPPathRule where
  type : Int
  value : String
  deriving DecidableEq

structure MongoHTTPRouteRule where
  backend : String
  path : MongoHTTPPathRule
  deriving DecidableEq

structure MongoArtifactHTTPSpec where
  hostnames : List String
  «matches» : List MongoHTTPRouteRule
  deriving DecidableEq

structure MongoArtifactSpec where
  name : String
  app : String
  image : String
  ports : List MongoArtifactPortSpec
  replicas : Int
  tlsEnabled : Bool
  ossEnabled : Bool
  workloadKind : Int
  http : Option MongoArtifactHTTPSpec
  env : EnvMap
  secretBindings : List MongoSecretBinding
  configBlocks : List MongoConfigBlock
  deriving DecidableEq

structure MongoInfraPersistenceSpec where
  enabled : Bool
  capacity : String
  deriving DecidableEq

structure MongoInfraSpec where
  resource : String
  profile : String
  name : String
  app : String
  persistence : MongoInfraPersistenceSpec
  deriving DecidableEq

structure MongoDesiredState where
  artifacts : List MongoArtifactSpec
  infras : List MongoInfraSpec
  deriving DecidableEq

def artifactPortSpecsToMongo (specs : List ArtifactPortSpec) : List MongoArtifactPortSpec :=
  specs.map fun p => { name := p.name, port := p.port }

def secretBindingsToMongo (bindings : List SecretBinding) : List MongoSecretBinding :=
  bindings.map fun b => { logicalName := b.logicalName, secretName := b.secretName, key := b.key }

def configBlocksToMongo (blocks : List ConfigBlock) : List MongoConfigBlock :=
  blocks.map fun cb =>
    { block := cb.block
      entries := cb.entries.map fun ce => { key := ce.key, type := ce.type, value := ce.value } }

def infraSpecsToMongo (specs : List InfraSpec) : List MongoInfraSpec :=
  specs.map fun s =>
    { resource := s.resource, profile := s.profile, name := s.name, app := s.app
      persistence := { enabled := s.persistence.enabled, capacity := s.persistence.capacity } }

def httpRouteRulesToMongo (rules : List HTTPRouteRule) : List MongoHTTPRouteRule :=
  rules.map fun r => { backend := r.backend, path := { type := r.path.type, value := r.path.value } }

def artifactHTTPSpecToMongo (s : Option ArtifactHTTPSpec) : Option MongoArtifactHTTPSpec :=
  s.map fun s => { hostnames := s.hostnames, «matches» := httpRouteRulesToMongo s.matches }

def artifactSpecsToMongo (specs : List ArtifactSpec) : List MongoArtifactSpec :=
  specs.map fun s =>
    { name := s.name, app := s.app, image := s.image
      ports := artifactPortSpecsToMongo s.ports
      replicas := s.replicas, tlsEnabled := s.tlsEnabled, ossEnabled := s.ossEnabled
      workloadKind := s.workloadKind
      http := artifactHTTPSpecToMongo s.http
      env := s.env
      secretBindings := secretBindingsToMongo s.secretBindings
      configBlocks := configBlocksToMongo s.configBlocks }

def desiredStateToMongo (ds : Option DesiredState) : Option MongoDesiredState :=
  ds.map fun ds =>
    { artifacts := artifactSpecsToMongo ds.artifacts, infras := infraSpecsToMongo ds.infras }

/-- A nil and an empty map are one value. -/
def normalizeEnv (env : EnvMap) : EnvMap :=
  if env.entries.isEmpty then EnvMap.empty else env

def artifactPortSpecsFromMongo (specs : List MongoArtifactPortSpec) : List ArtifactPortSpec :=
  specs.map fun p => { name := p.name, port := p.port }

def secretBindingsFromMongo (bindings : List MongoSecretBinding) : List SecretBinding :=
  bindings.map fun b => { logicalName := b.logicalName, secretName := b.secretName, key := b.key }

def configBlocksFromMongo (blocks : List MongoConfigBlock) : List ConfigBlock :=
  blocks.map fun cb =>
    { block := cb.block
      entries := cb.entries.map fun ce => { key := ce.key, type := ce.type, value := ce.value } }

def infraSpecsFromMongo (specs : List MongoInfraSpec) : List InfraSpec :=
  specs.map fun s =>
    { resource := s.resource, profile := s.profile, name := s.name, app := s.app
      persistence := { enabled := s.persistence.enabled, capacity := s.persistence.capacity } }

def httpRouteRulesFromMongo (rules : List MongoHTTPRouteRule) : List HTTPRouteRule :=
  rules.map fun r => { backend := r.backend, path := { type := r.path.type, value := r.path.value } }

def artifactHTTPSpecFromMongo (m : Option MongoArtifactHTTPSpec) : Option ArtifactHTTPSpec :=
  m.map fun m => { hostnames := m.hostnames, «matches» := httpRouteRulesFromMongo m.matches }

def artifactSpecsFromMongo (specs : List MongoArtifactSpec) : List ArtifactSpec :=
  specs.map fun s =>
    { name := s.name, app := s.app, image := s.image
      ports := artifactPortSpecsFromMongo s.ports
      replicas := s.replicas, tlsEnabled := s.tlsEnabled, ossEnabled := s.ossEnabled
      workloadKind := s.workloadKind
      http := artifactHTTPSpecFromMongo s.http
      env := normalizeEnv s.env
      secretBindings := secretBindingsFromMongo s.secretBindings
      configBlocks := configBlocksFromMongo s.configBlocks }

def desiredStateFromMongo (mds : Option MongoDesiredState) : Option DesiredState :=
  mds.map fun mds =>
    { artifacts := artifactSpecsFromMongo mds.artifacts
      infras := infraSpecsFromMongo mds.infras }

theorem normalizeEnv_eq (env : EnvMap) : normalizeEnv env = env := by
  rw [normalizeEnv]
  split
  · rename_i h
    cases env with
    | mk entries nodup =>
      cases List.isEmpty_iff.mp h
      rfl
  · rfl

theorem artifactPortSpecs_mongo (specs : List ArtifactPortSpec) :
    artifactPortSpecsFromMongo (artifactPortSpecsToMongo specs) = specs :=
  map_map_eq_self (fun _ => rfl) specs

theorem secretBindings_mongo (bindings : List SecretBinding) :
    secretBindingsFromMongo (secretBindingsToMongo bindings) = bindings :=
  map_map_eq_self (fun _ => rfl) bindings

theorem configBlocks_mongo (blocks : List ConfigBlock) :
    configBlocksFromMongo (configBlocksToMongo blocks) = blocks := by
  apply map_map_eq_self
  intro cb
  exact congrArg (ConfigBlock.mk cb.block) (map_map_eq_self (fun _ => rfl) cb.entries)

theorem infraSpecs_mongo (specs : List InfraSpec) :
    infraSpecsFromMongo (infraSpecsToMongo specs) = specs :=
  map_map_eq_self (fun _ => rfl) specs

theorem httpRouteRules_mongo (rules : List HTTPRouteRule) :
    httpRouteRulesFromMongo (httpRouteRulesToMongo rules) = rules :=
  map_map_eq_self (fun _ => rfl) rules

theorem artifactHTTPSpec_mongo (s : Option ArtifactHTTPSpec) :
    artifactHTTPSpecFromMongo (artifactHTTPSpecToMongo s) = s := by
  cases s with
  | none => rfl
  | some s =>
    exact congrArg (some <| ArtifactHTTPSpec.mk s.hostnames ·) (httpRouteRules_mongo s.matches)

theorem artifactSpecs_mongo (specs : List ArtifactSpec) :
    artifactSpecsFromMongo (artifactSpecsToMongo specs) = specs := by
  apply map_map_eq_self
  intro s
  simp only [artifactPortSpecs_mongo,artifactHTTPSpec_mongo,normalizeEnv_eq,secretBindings_mongo,
    configBlocks_mongo]

/-- The storage encoding loses nothing. -/
theorem desiredState_mongo (ds : Option DesiredState) :
    desiredStateFromMongo (desiredStateToMongo ds) = ds := by
  cases ds with
  | none => rfl
  | some ds =>
    simp only [desiredStateToMongo,desiredStateFromMongo,Option.map_some,artifactSpecs_mongo,
      infraSpecs_mongo]

/-! ## The messages of the API -/

namespace Proto

structure ArtifactPortSpec where
  name : String
  port : Int

structure SecretBinding where
  logicalName : String
  secretName : String
  key : String

structure ConfigEntry where
  key : String
  type : String
  value : String

structure ConfigBlock where
  block : String
  entries : List (Option ConfigEntry)

structure HTTPPathRule where
  type : Int
  value : String

structure HTTPRouteRule where
  backend : String
  path : Option HTTPPathRule

structure ArtifactHTTPSpec where
  hostnames : List String
  «matches» : List (Option HTTPRouteRule)

structure ArtifactSpec where
  name : String
  app : String
  image : String
  ports : List (Option ArtifactPortSpec)
  replicas : Int
  tlsEnabled : Bool
  ossEnabled : Bool
  workloadKind : Int
  http : Option ArtifactHTTPSpec
  env : EnvMap
  secretBindings : List (Option SecretBinding)
  configBlocks : List (Option ConfigBlock)

structure InfraPersistenceSpec where
  enabled : Bool := false
  capacity : String := ""

structure InfraSpec where
  resource : String
  profile : String
  name : String
  app : String
  persistence : Option InfraPersistenceSpec

structure EnvironmentDesiredState where
  artifacts : List (Option ArtifactSpec)
  infras : List (Option InfraSpec)

def workloadKindStateless : Int := 1
def workloadKindStateful : Int := 2
def httpPathRuleTypeUnspecified : Int := 0
def httpPathRuleTypePathPrefix : Int := 1

end Proto

def workloadKindToProto (kind : Int) : Int :=
  if kind = workloadKindStateful then Proto.workloadKindStateful else Proto.workloadKindStateless

def workloadKindFromProto (kind : Int) : Int :=
  if kind = Proto.workloadKindStateful then workloadKindStateful else workloadKindStateless

def toProtoHTTPPathRuleType (ruleType : Int) : Int :=
  if ruleType = httpPathRuleTypePathPrefix then Proto.httpPathRuleTypePathPrefix
  else Proto.httpPathRuleTypeUnspecified

def fromProtoHTTPPathRuleType (ruleType : Int) : Int :=
  if ruleType = Proto.httpPathRuleTypePathPrefix then httpPathRuleTypePathPrefix
  else httpPathRuleTypeUnspecified

def toProtoArtifactPorts (ports : List ArtifactPortSpec) : List (Option Proto.ArtifactPortSpec) :=
  ports.map fun port => some { name := port.name, port := port.port }

def toProtoSecretBindings (bindings : List SecretBinding) : List (Option Proto.SecretBinding) :=
  bindings.map fun b =>
    some { logicalName := b.logicalName, secretName := b.secretName, key := b.key }

def toProtoConfigBlocks (blocks : List ConfigBlock) : List (Option Proto.ConfigBlock) :=
  blocks.map fun cb =>
    some { block := cb.block
           entries := cb.entries.map fun ce =>
             some { key := ce.key, type := ce.type, value := ce.value } }

def toProtoHTTPPathRule (rule : HTTPPathRule) : Option Proto.HTTPPathRule :=
  some { type := toProtoHTTPPathRuleType rule.type, value := rule.value }

def toProtoHTTPRouteRules (rules : List HTTPRouteRule) : List (Option Proto.HTTPRouteRule) :=
  rules.map fun rule => some { backend := rule.backend, path := toProtoHTTPPathRule rule.path }

def toProtoArtifactHTTP (http : Option ArtifactHTTPSpec) : Option Proto.ArtifactHTTPSpec :=
  http.map fun http =>
    { hostnames := http.hostnames, «matches» := toProtoHTTPRouteRules http.matches }

def toProtoArtifacts (artifacts : List ArtifactSpec) : List (Option Proto.ArtifactSpec) :=
  artifacts.map fun artifact =>
    some { name := artifact.name, app := artifact.app, image := artifact.image
           ports := toProtoArtifactPorts artifact.ports
           replicas := artifact.replicas
           tlsEnabled := artifact.tlsEnabled, ossEnabled := artifact.ossEnabled
           workloadKind := workloadKindToProto artifact.workloadKind
           http := toProtoArtifactHTTP artifact.http
           env := artifact.env
           secretBindings := toProtoSecretBindings artifact.secretBindings
           configBlocks := toProtoConfigBlocks artifact.configBlocks }

def toProtoInfras (infras : List InfraSpec) : List (Option Proto.InfraSpec) :=
  infras.map fun infra =>
    some { resource := infra.resource, profile := infra.profile, name := infra.name
           app := infra.app
           persistence := some
             { enabled := infra.persistence.enabled, capacity := infra.persistence.capacity } }

def toProtoDesiredState (state : Option DesiredState) : Option Proto.EnvironmentDesiredState :=
  state.map fun state =>
    { artifacts := toProtoArtifacts state.artifacts, infras := toProtoInfras state.infras }

/-! Nil elements are skipped, except that a nil artifact or infra is refused. -/

def fromProtoArtifactPorts (ports : List (Option Proto.ArtifactPortSpec)) : List ArtifactPortSpec :=
  ports.filterMap fun port => port.map fun port => { name := port.name, port := port.port }

def fromProtoSecretBindings (bindings : List (Option Proto.SecretBinding)) : List SecretBinding :=
  bindings.filterMap fun b => b.map fun b =>
    { logicalName := b.logicalName, secretName := b.secretName, key := b.key }

def fromProtoConfigBlocks (blocks : List (Option Proto.ConfigBlock)) : List ConfigBlock :=
  blocks.filterMap fun cb => cb.map fun cb =>
    { block := cb.block
      entries := cb.entries.filterMap fun ce => ce.map fun ce =>
        { key := ce.key, type := ce.type, value := ce.value } }

def fromProtoHTTPPathRule : Option Proto.HTTPPathRule → HTTPPathRule
  | none => { type := 0, value := "" }
  | some rule => { type := fromProtoHTTPPathRuleType rule.type, value := rule.value }

def fromProtoHTTPRouteRules (rules : List (Option Proto.HTTPRouteRule)) : List HTTPRouteRule :=
  rules.filterMap fun rule => rule.map fun rule =>
    { backend := rule.backend, path := fromProtoHTTPPathRule rule.path }

def fromProtoArtifactHTTP (http : Option Proto.ArtifactHTTPSpec) : Option ArtifactHTTPSpec :=
  http.map fun http =>
    { hostnames := http.hostnames, «matches» := fromProtoHTTPRouteRules http.matches }

def fromProtoArtifacts : List (Option Proto.ArtifactSpec) → Except Err (List ArtifactSpec)
  | [] => .ok []
  | none :: _ => .error (.of .errInvalidSpec)
  | some artifact :: rest =>
    (fromProtoArtifacts rest).map ({
      name := artifact.name, app := artifact.app, image := artifact.image
      ports := fromProtoArtifactPorts artifact.ports
      replicas := artifact.replicas
      tlsEnabled := artifact.tlsEnabled, ossEnabled := artifact.ossEnabled
      workloadKind := workloadKindFromProto artifact.workloadKind
      http := fromProtoArtifactHTTP artifact.http
      env := normalizeEnv artifact.env
      secretBindings := fromProtoSecretBindings artifact.secretBindings
      configBlocks := fromProtoConfigBlocks artifact.configBlocks } :: ·)

def fromProtoInfras : List (Option Proto.InfraSpec) → Except Err (List InfraSpec)
  | [] => .ok []
  | none :: _ => .error (.of .errInvalidSpec)
  | some infra :: rest =>
    let persistence := infra.persistence.getD {}
    (fromProtoInfras rest).map ({
      resource := infra.resource, profile := infra.profile, name := infra.name, app := infra.app
      persistence := { enabled := persistence.enabled, capacity := persistence.capacity } } :: ·)

def fromProtoDesiredState : Option Proto.EnvironmentDesiredState → Except Err DesiredState
  | none => .error (.of .errInvalidSpec)
  | some state =>
    match fromProtoArtifacts state.artifacts with
    | .error err => .error err
    | .ok artifacts =>
      match fromProtoInfras state.infras with
      | .error err => .error err
      | .ok infras => .ok { artifacts, infras }

/-- A message element built from each element is read back. -/
theorem filterMap_map_eq_self {α β : Type} {f : α → β} {g : β → α} (h : ∀ x, g (f x) = x)
    (xs : List α) : (xs.map fun x => some (f x)).filterMap (fun y => y.map g) = xs := by
  induction xs with
  | nil => rfl
  | cons x xs ih =>
    rw [List.map_cons,List.filterMap_cons_some (by rw [Option.map_some,h]),ih]

theorem artifactPorts_proto (ports : List ArtifactPortSpec) :
    fromProtoArtifactPorts (toProtoArtifactPorts ports) = ports :=
  filterMap_map_eq_self (fun _ => rfl) ports

theorem secretBindings_proto (bindings : List SecretBinding) :
    fromProtoSecretBindings (toProtoSecretBindings bindings) = bindings :=
  filterMap_map_eq_self (fun _ => rfl) bindings

theorem configBlocks_proto (blocks : List ConfigBlock) :
    fromProtoConfigBlocks (toProtoConfigBlocks blocks) = blocks := by
  apply filterMap_map_eq_self
  intro cb
  exact congrArg (ConfigBlock.mk cb.block) (filterMap_map_eq_self (fun _ => rfl) cb.entries)

theorem infras_proto (infras : List InfraSpec) :
    fromProtoInfras (toProtoInfras infras) = .ok infras := by
  induction infras with
  | nil => rfl
  | cons infra infras ih =>
    rw [toProtoInfras,List.map_cons,fromProtoInfras]
    rw [toProtoInfras] at ih
    rw [ih]
    rfl

theorem workloadKind_proto {kind : Int} : workloadKindFromProto (workloadKindToProto kind) = kind ↔
    kind = workloadKindStateless ∨ kind = workloadKindStateful := by
  by_cases h : kind = workloadKindStateful
  · simp [workloadKindToProto,workloadKindFromProto,h]
  · have hback : workloadKindFromProto (workloadKindToProto kind) = workloadKindStateless := by
      rw [workloadKindToProto,if_neg h]
      rfl
    rw [hback]
    constructor
    · intro hkind
      exact Or.inl hkind.symm
    · intro hkind
      exact (hkind.resolve_right h).symm

theorem httpPathRuleType_proto {ruleType : Int} :
    fromProtoHTTPPathRuleType (toProtoHTTPPathRuleType ruleType) = ruleType ↔
      ruleType = httpPathRuleTypeUnspecified ∨ ruleType = httpPathRuleTypePathPrefix := by
  by_cases h : ruleType = httpPathRuleTypePathPrefix
  · simp [toProtoHTTPPathRuleType,fromProtoHTTPPathRuleType,h]
  · have hback : fromProtoHTTPPathRuleType (toProtoHTTPPathRuleType ruleType) =
        httpPathRuleTypeUnspecified := by
      rw [toProtoHTTPPathRuleType,if_neg h]
      rfl
    rw [hback]
    constructor
    · intro htype
      exact Or.inl htype.symm
    · intro htype
      exact (htype.resolve_right h).symm

/-- What the API hands back of a rule, of the routes and of an artifact: an undeclared constant
comes back as the default one. -/
def HTTPRouteRule.received (r : HTTPRouteRule) : HTTPRouteRule :=
  { r with path := { r.path with
      type := fromProtoHTTPPathRuleType (toProtoHTTPPathRuleType r.path.type) } }

def ArtifactHTTPSpec.received (s : ArtifactHTTPSpec) : ArtifactHTTPSpec :=
  { s with «matches» := s.matches.map HTTPRouteRule.received }

def ArtifactSpec.received (s : ArtifactSpec) : ArtifactSpec :=
  { s with
    workloadKind := workloadKindFromProto (workloadKindToProto s.workloadKind)
    http := s.http.map ArtifactHTTPSpec.received }

theorem httpRouteRules_proto (rules : List HTTPRouteRule) :
    fromProtoHTTPRouteRules (toProtoHTTPRouteRules rules) = rules.map HTTPRouteRule.received := by
  induction rules with
  | nil => rfl
  | cons rule rules ih =>
    rw [List.map_cons,← ih]
    rfl

theorem artifactHTTP_proto (http : Option ArtifactHTTPSpec) :
    fromProtoArtifactHTTP (toProtoArtifactHTTP http) = http.map ArtifactHTTPSpec.received := by
  cases http with
  | none => rfl
  | some http =>
    exact congrArg (some <| ArtifactHTTPSpec.mk http.hostnames ·) (httpRouteRules_proto http.matches)

theorem artifacts_proto (artifacts : List ArtifactSpec) :
    fromProtoArtifacts (toProtoArtifacts artifacts) = .ok (artifacts.map ArtifactSpec.received) := by
  induction artifacts with
  | nil => rfl
  | cons artifact artifacts ih =>
    rw [toProtoArtifacts,List.map_cons,fromProtoArtifacts]
    rw [toProtoArtifacts] at ih
    rw [ih]
    simp only [artifactPorts_proto,artifactHTTP_proto,normalizeEnv_eq,secretBindings_proto,
      configBlocks_proto]
    rfl

/-- The API encoding returns every artifact and infra, with the kinds it declares. -/
theorem desiredState_proto (ds : DesiredState) :
    fromProtoDesiredState (toProtoDesiredState (some ds)) =
      .ok { ds with artifacts := ds.artifacts.map ArtifactSpec.received } := by
  simp only [toProtoDesiredState,fromProtoDesiredState,Option.map_some,artifacts_proto,infras_proto]

theorem HTTPRouteRule.received_eq_iff {r : HTTPRouteRule} : r.received = r ↔
    r.path.type = httpPathRuleTypeUnspecified ∨ r.path.type = httpPathRuleTypePathPrefix := by
  rw [← httpPathRuleType_proto]
  constructor
  · intro h
    exact congrArg (fun r => r.path.type) h
  · intro h
    rw [received,h]

theorem ArtifactHTTPSpec.received_eq_iff {s : ArtifactHTTPSpec} : s.received = s ↔
    ∀ m ∈ s.matches, m.path.type = httpPathRuleTypeUnspecified ∨
      m.path.type = httpPathRuleTypePathPrefix := by
  have hrules : s.matches.map HTTPRouteRule.received = s.matches ↔ _ := map_eq_self_iff
  simp only [HTTPRouteRule.received_eq_iff] at hrules
  rw [← hrules]
  constructor
  · intro h
    exact congrArg ArtifactHTTPSpec.matches h
  · intro h
    rw [received,h]

theorem ArtifactSpec.received_eq_iff {s : ArtifactSpec} : s.received = s ↔
    (s.workloadKind = workloadKindStateless ∨ s.workloadKind = workloadKindStateful) ∧
    ∀ http ∈ s.http, ∀ m ∈ http.matches,
      m.path.type = httpPathRuleTypeUnspecified ∨ m.path.type = httpPathRuleTypePathPrefix := by
  have hhttp : s.http.map ArtifactHTTPSpec.received = s.http ↔
      ∀ http ∈ s.http, http.received = http := by cases s.http <;> simp
  simp only [ArtifactHTTPSpec.received_eq_iff] at hhttp
  rw [← hhttp,← workloadKind_proto]
  constructor
  · intro h
    exact ⟨congrArg ArtifactSpec.workloadKind h,congrArg ArtifactSpec.http h⟩
  · intro h
    rw [received,h.1,h.2]

/-- The API encoding loses nothing exactly when every constant is declared. -/
theorem desiredState_proto_iff (ds : DesiredState) :
    fromProtoDesiredState (toProtoDesiredState (some ds)) = .ok ds ↔ ds.Declared := by
  have hartifacts : ds.artifacts.map ArtifactSpec.received = ds.artifacts ↔ ds.Declared := by
    rw [map_eq_self_iff]
    simp only [ArtifactSpec.received_eq_iff,DesiredState.Declared]
  rw [desiredState_proto,← hartifacts]
  constructor
  · intro h
    exact congrArg DesiredState.artifacts (Except.ok.inj h)
  · intro h
    rw [h]

end Dominion.Deploy.Mapping
