import Dominion.Deploy.Domain.Errors

/-! # Desired-state specifications

The artifacts and infrastructure an environment declares, with their validation.  A validation
collects every violation it finds, each under the path of its field. -/
namespace Dominion.Deploy.Domain

/-- `fmt`'s `%q`; the characters beyond ASCII stand for themselves. -/
def goQuote (s : String) : String :=
  let escape : Char → List Char
    | '"' => ['\\','"']
    | '\\' => ['\\','\\']
    | '\x07' => ['\\','a']
    | '\x08' => ['\\','b']
    | '\x0c' => ['\\','f']
    | '\n' => ['\\','n']
    | '\r' => ['\\','r']
    | '\t' => ['\\','t']
    | '\x0b' => ['\\','v']
    | c =>
      if c.toNat < 32 ∨ c.toNat = 127 then
        ['\\','x',Nat.digitChar (c.toNat / 16),Nat.digitChar (c.toNat % 16)]
      else [c]
  String.ofList ('"' :: s.toList.flatMap escape ++ ['"'])

inductive HTTPPathRuleType where
  | unspecified
  | pathPrefix
  deriving DecidableEq, Repr

inductive WorkloadKind where
  | stateless
  | stateful
  deriving DecidableEq, Repr

structure ArtifactPortSpec where
  name : String
  port : Int
  deriving DecidableEq, Repr

structure SecretBinding where
  logicalName : String
  secretName : String
  key : String
  deriving DecidableEq, Repr

structure ConfigEntry where
  key : String
  type : String
  value : String
  deriving DecidableEq, Repr

structure ConfigBlock where
  block : String
  entries : List ConfigEntry
  deriving DecidableEq, Repr

structure HTTPPathRule where
  type : HTTPPathRuleType
  value : String
  deriving DecidableEq, Repr

structure HTTPRouteRule where
  backend : String
  path : HTTPPathRule
  deriving DecidableEq, Repr

structure ArtifactHTTPSpec where
  hostnames : List String
  «matches» : List HTTPRouteRule
  deriving DecidableEq, Repr

structure ArtifactSpec where
  name : String
  app : String
  image : String
  ports : List ArtifactPortSpec
  replicas : Int
  tlsEnabled : Bool
  ossEnabled : Bool
  workloadKind : WorkloadKind
  http : Option ArtifactHTTPSpec
  /-- A map of environment variables, as its entries in iteration order. -/
  env : List (String × String)
  secretBindings : List SecretBinding
  configBlocks : List ConfigBlock
  deriving DecidableEq, Repr

structure InfraPersistenceSpec where
  enabled : Bool
  capacity : String
  deriving DecidableEq, Repr

structure InfraSpec where
  resource : String
  profile : String
  name : String
  app : String
  persistence : InfraPersistenceSpec
  deriving DecidableEq, Repr

structure DesiredState where
  artifacts : List ArtifactSpec
  infras : List InfraSpec
  deriving DecidableEq, Repr

/-- The outcome of a validation that collected `errs`. -/
def specVerdict (errs : List Err) : Except Err Unit :=
  if errs.isEmpty then .ok ()
  else .error ⟨.errInvalidSpec :: (Err.join errs).wraps,
    Sentinel.errInvalidSpec.text ++ ": " ++ (Err.join errs).text⟩

/-- A field that must not be empty. -/
def requireNonempty (value message : String) : List Err :=
  if value = "" then [.new message] else []

/-- The error of a nested validation under its field path. -/
def nestedErr (path : String) (verdict : Except Err Unit) : List Err :=
  match verdict with
  | .ok () => []
  | .error e => [e.withContext (path ++ ": ")]

def indexed {α : Type} (field : String) (verdict : α → Except Err Unit) (xs : List α) : List Err :=
  xs.zipIdx.flatMap fun x => nestedErr (s!"{field}[{x.2}]") (verdict x.1)

/-- The repetitions of a non-empty key, each reported at the index of the later occurrence. -/
def duplicateErrs (message : Nat → String → String) (keys : List String) :
    List Err :=
  keys.zipIdx.flatMap fun k =>
    if k.1 ≠ "" ∧ k.1 ∈ keys.take k.2 then [.new (message k.2 (goQuote k.1))] else []

namespace ConfigEntry

def validate (e : ConfigEntry) : Except Err Unit :=
  specVerdict (requireNonempty e.key "key is required" ++
    requireNonempty e.type "type is required" ++ requireNonempty e.value "value is required")

end ConfigEntry

namespace ConfigBlock

def validate (b : ConfigBlock) : Except Err Unit :=
  specVerdict (requireNonempty b.block "block is required" ++
    (if b.entries.isEmpty then [.new "entries must not be empty"] else []) ++
    indexed "entries" ConfigEntry.validate b.entries)

end ConfigBlock

namespace SecretBinding

def validate (b : SecretBinding) : Except Err Unit :=
  specVerdict (requireNonempty b.logicalName "logical_name is required" ++
    requireNonempty b.secretName "secret_name is required" ++
    requireNonempty b.key "key is required")

end SecretBinding

namespace HTTPRouteRule

def validate (r : HTTPRouteRule) : Except Err Unit :=
  if r.backend = "" then .error (.wrapping .errInvalidSpec "backend must not be empty") else .ok ()

end HTTPRouteRule

namespace ArtifactHTTPSpec

def validate (s : ArtifactHTTPSpec) : Except Err Unit :=
  specVerdict ((if s.hostnames.isEmpty then [.new "hostnames must not be empty"] else []) ++
    (if s.matches.isEmpty then [.new "matches must not be empty"] else []) ++
    indexed "matches" HTTPRouteRule.validate s.matches)

end ArtifactHTTPSpec

/-- `^[a-zA-Z_][a-zA-Z0-9_]*$`. -/
def envKeyPattern (key : String) : Bool :=
  let letter (c : Char) : Bool :=
    (decide ('a' ≤ c) && decide (c ≤ 'z')) || (decide ('A' ≤ c) && decide (c ≤ 'Z')) || c == '_'
  match key.toList with
  | [] => false
  | c :: cs => letter c && cs.all fun d => letter d || (decide ('0' ≤ d) && decide (d ≤ '9'))

namespace ArtifactSpec

private def portErrs (ports : List ArtifactPortSpec) : List Err :=
  ports.zipIdx.flatMap fun p =>
    if p.1.port < 1 ∨ 65535 < p.1.port then
      [.new (s!"ports[{p.2}].port must be between 1 and 65535, got {p.1.port}")]
    else []

private def envKeyErrs (key : String) : List Err :=
  if key = "" then [.new "env key must not be empty"]
  else if envKeyPattern key then []
  else [.new ("env key " ++ goQuote key ++ " must match pattern ^[a-zA-Z_][a-zA-Z0-9_]*$")]

def validate (s : ArtifactSpec) : Except Err Unit :=
  specVerdict (requireNonempty s.name "name must not be empty" ++
    requireNonempty s.app "app must not be empty" ++
    requireNonempty s.image "image must not be empty" ++
    portErrs s.ports ++
    (if s.replicas < 0 then [.new "replicas must be non-negative"] else []) ++
    (if s.workloadKind = .stateful ∧ s.http.isSome then
      [.new "invalid spec: http is only supported for stateless workloads"] else []) ++
    s.env.flatMap (fun e => envKeyErrs e.1) ++
    (match s.http with
      | none => []
      | some http => nestedErr "http" http.validate) ++
    indexed "secret_bindings" SecretBinding.validate s.secretBindings ++
    duplicateErrs (fun i k => s!"secret_bindings[{i}]: duplicate logical_name {k}")
      (s.secretBindings.map SecretBinding.logicalName) ++
    indexed "config_blocks" ConfigBlock.validate s.configBlocks ++
    duplicateErrs (fun i k => s!"config_blocks[{i}]: duplicate block {k}")
      (s.configBlocks.map ConfigBlock.block) ++
    s.configBlocks.zipIdx.flatMap fun b =>
      duplicateErrs (fun _ k => s!"config_blocks[{b.2}]: duplicate entry key {k}")
        (b.1.entries.map ConfigEntry.key))

/-- Zero replicas default to one. -/
def normalize (s : ArtifactSpec) : ArtifactSpec :=
  if s.replicas = 0 then { s with replicas := 1 } else s

theorem normalize_normalize (s : ArtifactSpec) : s.normalize.normalize = s.normalize := by
  by_cases h : s.replicas = 0
  · simp only [normalize,h,if_true]
    rfl
  · simp only [normalize,h,if_false]

end ArtifactSpec

namespace InfraSpec

def validate (s : InfraSpec) : Except Err Unit :=
  specVerdict (requireNonempty s.resource "resource must not be empty" ++
    requireNonempty s.name "name must not be empty")

end InfraSpec

namespace DesiredState

def normalize (ds : DesiredState) : DesiredState :=
  { ds with artifacts := ds.artifacts.map ArtifactSpec.normalize }

@[simp] theorem normalize_normalize (ds : DesiredState) :
    ds.normalize.normalize = ds.normalize := by
  simp only [normalize,List.map_map]
  congr 1
  apply List.map_congr_left
  intro s _
  exact s.normalize_normalize

/-- The first pass over the artifacts: its errors, and the port names of the artifacts that are
valid and carry a new name. -/
def artifactErrs : List (ArtifactSpec × Nat) → List (String × List String) →
    List Err × List (String × List String)
  | [],portNames => ([],portNames)
  | (artifact,i) :: rest,portNames =>
    match artifact.validate with
    | .error e =>
      let r := artifactErrs rest portNames
      (e.withContext (s!"artifacts[{i}]: ") :: r.1,r.2)
    | .ok () =>
      if (portNames.lookup artifact.name).isSome then
        let r := artifactErrs rest portNames
        (.new (s!"artifacts[{i}]: name {goQuote artifact.name} already exists") :: r.1,r.2)
      else
        artifactErrs rest
          ((artifact.name,(artifact.ports.map ArtifactPortSpec.name).filter (· ≠ "")) :: portNames)

/-- The HTTP matches of an artifact whose backend names none of its ports. -/
def backendErrs (portNames : List (String × List String)) (artifact : ArtifactSpec × Nat) :
    List Err :=
  match artifact.1.http with
  | none => []
  | some http =>
    http.matches.zipIdx.flatMap fun m =>
      if m.1.backend ∈ (portNames.lookup artifact.1.name).getD [] then []
      else [.new (s!"artifacts[{artifact.2}].http.matches[{m.2}]: backend " ++
        goQuote m.1.backend ++ " does not reference artifact " ++ goQuote artifact.1.name ++
        " port")]

def validate (ds : DesiredState) : Except Err Unit :=
  let r := artifactErrs ds.artifacts.zipIdx []
  specVerdict (r.1 ++ ds.artifacts.zipIdx.flatMap (backendErrs r.2) ++
    indexed "infras" InfraSpec.validate ds.infras)

/-- What the acceptance of a desired state guarantees. -/
structure Accepted (ds : DesiredState) : Prop where
  artifacts : ∀ a ∈ ds.artifacts, a.validate = .ok ()
  names : (ds.artifacts.map ArtifactSpec.name).Nodup
  backends : ∀ a ∈ ds.artifacts, ∀ http, a.http = some http → ∀ m ∈ http.matches,
    m.backend ≠ "" ∧ m.backend ∈ a.ports.map ArtifactPortSpec.name
  infras : ∀ i ∈ ds.infras, i.validate = .ok ()

end DesiredState

theorem errs_of_specVerdict {errs : List Err} (h : specVerdict errs = .ok ()) : errs = [] := by
  rw [specVerdict] at h
  split at h
  · rename_i hempty
    exact List.isEmpty_iff.mp hempty
  · cases h

theorem ok_of_indexed {α : Type} {field : String} {verdict : α → Except Err Unit} {xs : List α}
    (h : indexed field verdict xs = []) : ∀ x ∈ xs, verdict x = .ok () := by
  intro x hx
  obtain ⟨i,hi⟩ := List.mem_iff_getElem?.mp hx
  have hnested : nestedErr (s!"{field}[{i}]") (verdict x) = [] :=
    List.flatMap_eq_nil_iff.mp h (x,i) (List.mem_zipIdx_iff_getElem?.mpr hi)
  cases hverdict : verdict x with
  | ok u => rfl
  | error e =>
    rw [hverdict] at hnested
    cases hnested

namespace DesiredState

/-- The port names of an artifact that the validation keeps. -/
def namedPorts (a : ArtifactSpec) : List String :=
  (a.ports.map ArtifactPortSpec.name).filter (· ≠ "")

/-- Without an error every artifact is valid, its name is new, and its port names are kept. -/
theorem artifactErrs_spec {xs : List (ArtifactSpec × Nat)} {portNames : List (String × List String)}
    (h : (artifactErrs xs portNames).1 = []) :
    (∀ x ∈ xs, x.1.validate = .ok () ∧ portNames.lookup x.1.name = none ∧
      (artifactErrs xs portNames).2.lookup x.1.name = some (namedPorts x.1)) ∧
    (xs.map fun x => x.1.name).Nodup ∧
    ∀ n v, portNames.lookup n = some v → (artifactErrs xs portNames).2.lookup n = some v := by
  induction xs generalizing portNames with
  | nil => exact ⟨by simp,List.nodup_nil,fun _ _ hv => hv⟩
  | cons x rest ih =>
    obtain ⟨a,i⟩ := x
    rw [artifactErrs] at h ⊢
    cases hvalid : a.validate with
    | error e =>
      simp only [hvalid] at h
      cases h
    | ok u =>
      simp only [hvalid] at h ⊢
      by_cases hknown : (portNames.lookup a.name).isSome
      · rw [if_pos hknown] at h
        cases h
      · rw [if_neg hknown] at h ⊢
        have hnone := Option.not_isSome_iff_eq_none.mp hknown
        obtain ⟨hall,hnodup,hkeep⟩ := ih h
        have hfirst := hkeep a.name (namedPorts a) List.lookup_cons_self
        have hnew : ∀ y ∈ rest, y.1.name ≠ a.name ∧ portNames.lookup y.1.name = none := by
          intro y hy
          have hlookup := (hall y hy).2.1
          rw [List.lookup_cons] at hlookup
          cases heq : y.1.name == a.name with
          | true => simp [heq] at hlookup
          | false => exact ⟨by simpa using heq,by simpa [heq] using hlookup⟩
        refine ⟨?_,?_,?_⟩
        · intro y hy
          rcases List.mem_cons.mp hy with rfl | hy
          · exact ⟨hvalid,hnone,hfirst⟩
          · exact ⟨(hall y hy).1,(hnew y hy).2,(hall y hy).2.2⟩
        · rw [List.map_cons,List.nodup_cons]
          refine ⟨fun hmem => ?_,hnodup⟩
          obtain ⟨y,hy,hname⟩ := List.mem_map.mp hmem
          exact (hnew y hy).1 hname
        · intro n v hv
          refine hkeep n v ?_
          have hne : n ≠ a.name := fun he => by simp [he,hnone] at hv
          rw [List.lookup_cons,beq_eq_false_iff_ne.mpr hne]
          exact hv

theorem accepted_of_validate {ds : DesiredState} (h : ds.validate = .ok ()) : ds.Accepted := by
  have herrs := errs_of_specVerdict h
  simp only [List.append_eq_nil_iff] at herrs
  obtain ⟨⟨hartifacts,hbackends⟩,hinfras⟩ := herrs
  obtain ⟨hall,hnodup,-⟩ := artifactErrs_spec hartifacts
  have hmem : ∀ a ∈ ds.artifacts, ∃ i, (a,i) ∈ ds.artifacts.zipIdx := by
    intro a ha
    obtain ⟨i,hi⟩ := List.mem_iff_getElem?.mp ha
    exact ⟨i,List.mem_zipIdx_iff_getElem?.mpr hi⟩
  refine ⟨fun a ha => ?_,?_,fun a ha http hhttp m hm => ?_,ok_of_indexed hinfras⟩
  · obtain ⟨i,hi⟩ := hmem a ha
    exact (hall _ hi).1
  · have hnames : (ds.artifacts.zipIdx.map fun x => x.1.name) =
        (ds.artifacts.zipIdx.map Prod.fst).map ArtifactSpec.name := List.map_map.symm
    rwa [hnames,List.zipIdx_map_fst] at hnodup
  · obtain ⟨i,hi⟩ := hmem a ha
    obtain ⟨j,hj⟩ := List.mem_iff_getElem?.mp hm
    have herr := List.flatMap_eq_nil_iff.mp hbackends _ hi
    rw [backendErrs,hhttp] at herr
    have hmatch := List.flatMap_eq_nil_iff.mp herr (m,j) (List.mem_zipIdx_iff_getElem?.mpr hj)
    rw [(hall _ hi).2.2] at hmatch
    have hkept : m.backend ∈ namedPorts a := by
      by_contra hnot
      simp [hnot] at hmatch
    obtain ⟨hname,hne⟩ := List.mem_filter.mp hkept
    exact ⟨by simpa using hne,hname⟩

end DesiredState

end Dominion.Deploy.Domain
