import Dominion.Framework.Store

/-! # Deploy and service configurations

The two files of a release as they are parsed, and what their schemas accept.  A field that is
absent has its zero value. -/
namespace Dominion.Release

open Dominion.Framework

structure ServiceArtifactPort where
  name : String
  port : Int
  deriving DecidableEq, Repr

structure ServiceArtifact where
  name : String
  target : String
  tls : Bool := false
  oss : Bool := false
  secrets : List String := []
  ports : List ServiceArtifactPort := []
  deriving DecidableEq, Repr

structure ServiceConfigEntry where
  name : String
  value : String
  type : String
  deriving DecidableEq, Repr

structure ServiceConfigBlock where
  name : String
  data : List ServiceConfigEntry
  deriving DecidableEq, Repr

inductive WorkloadKind
  | unset
  | stateless
  | stateful
  deriving DecidableEq, Repr

structure ServiceConfig where
  name : String
  app : String
  artifacts : List ServiceArtifact
  ports : List ServiceArtifactPort := []
  kind : WorkloadKind := .unset
  configs : List ServiceConfigBlock := []
  deriving DecidableEq, Repr

structure SecretBindingRef where
  secret : String
  key : String
  deriving DecidableEq, Repr

structure DeployArtifact where
  path : String := ""
  name : String := ""
  replicas : Int := 0
  /-- A map of environment variables, as its entries in iteration order. -/
  env : List (String × String) := []
  secrets : Store String SecretBindingRef := ∅
  config : List String := []

structure DeployInfraPersistence where
  enabled : Bool := false
  capacity : String := ""
  deriving DecidableEq, Repr

structure DeployInfra where
  resource : String := ""
  profile : String := ""
  name : String := ""
  app : String := ""
  persistence : DeployInfraPersistence := {}
  deriving DecidableEq, Repr

inductive HTTPPathMatchType
  | pathPrefix
  | other (text : String)
  deriving DecidableEq, Repr

structure DeployHTTPPathMatch where
  type : HTTPPathMatchType
  value : String
  deriving DecidableEq, Repr

structure DeployHTTPMatch where
  backend : String
  path : DeployHTTPPathMatch
  deriving DecidableEq, Repr

structure DeployHTTP where
  hostnames : List String := []
  «matches» : List DeployHTTPMatch := []
  deriving DecidableEq, Repr

structure DeployService where
  artifact : DeployArtifact := {}
  infra : DeployInfra := {}
  http : DeployHTTP := {}

structure DeployConfig where
  name : String
  services : List DeployService

def getArtifact (c : ServiceConfig) (name : String) : Except String ServiceArtifact :=
  match c.artifacts.find? fun a => a.name = name with
  | some artifact => .ok artifact
  | none => .error ("产物 " ++ name ++ " 未找到")

/-! ## The schemas -/

def isLower (c : Char) : Bool :=
  decide ('a' ≤ c) && decide (c ≤ 'z')

def isDigit (c : Char) : Bool :=
  decide ('0' ≤ c) && decide (c ≤ '9')

/-- `^[a-z][a-z0-9_-]{0,63}$`. -/
def blockNamePattern (s : String) : Bool :=
  match s.toList with
  | [] => false
  | c :: cs => isLower c && decide (cs.length ≤ 63) &&
      cs.all fun d => isLower d || isDigit d || d == '_' || d == '-'

/-- `[a-z][a-z0-9]{0,7}`. -/
def environmentWord : List Char → Bool
  | [] => false
  | c :: cs => isLower c && decide (cs.length ≤ 7) && cs.all fun d => isLower d || isDigit d

/-- The scope of the environment and its name, or the placeholder of the run. -/
def environmentPattern (s : String) : Bool :=
  match s.toList.span (· ≠ '.') with
  | (scope,'.' :: name) =>
    environmentWord scope && (environmentWord name || name == "\x7b\x7brun\x7d\x7d".toList)
  | _ => false

/-- What fits a Go `int`. -/
def isInt64 (n : Int) : Bool :=
  decide (-9223372036854775808 ≤ n) && decide (n < 9223372036854775808)

def portAccepted (p : ServiceArtifactPort) : Bool :=
  decide (p.name ≠ "") && isInt64 p.port

def entryAccepted (e : ServiceConfigEntry) : Bool :=
  blockNamePattern e.name && decide (e.value ≠ "") && decide (e.type = "json" ∨ e.type = "yaml")

def blockAccepted (b : ServiceConfigBlock) : Bool :=
  blockNamePattern b.name && !b.data.isEmpty && b.data.all entryAccepted

def artifactAccepted (a : ServiceArtifact) : Bool :=
  decide (a.name ≠ "") && decide (a.target ≠ "") && a.ports.all portAccepted &&
    a.secrets.all blockNamePattern && decide a.secrets.Nodup

/-- `service.schema.json`. -/
def serviceAccepted (c : ServiceConfig) : Bool :=
  decide (c.name ≠ "") && decide (c.app ≠ "") && !c.artifacts.isEmpty &&
    c.artifacts.all artifactAccepted && c.ports.all portAccepted && c.configs.all blockAccepted

def httpAccepted (h : DeployHTTP) : Bool :=
  decide (h = {}) || !h.hostnames.isEmpty && !h.matches.isEmpty &&
    h.hostnames.all (fun host => decide (host ≠ "")) &&
    h.matches.all fun m =>
      decide (m.backend ≠ "") && decide (m.path.type = .pathPrefix) && decide (m.path.value ≠ "")

def deployArtifactAccepted (a : DeployArtifact) : Bool :=
  isInt64 a.replicas && decide (0 ≤ a.replicas) && decide a.config.Nodup &&
    a.config.all blockNamePattern &&
    a.secrets.entries.all fun e => decide (e.2.secret ≠ "") && decide (e.2.key ≠ "")

def infraAccepted (i : DeployInfra) : Bool :=
  decide (i.resource = "mongodb" ∨ i.resource = "redis") && decide (i.profile ≠ "") &&
    decide (i.name ≠ "") && decide (i.app ≠ "")

def artifactAbsent (a : DeployArtifact) : Bool :=
  decide (a.path = "") && decide (a.name = "") && decide (a.replicas = 0) && a.env.isEmpty &&
    a.secrets.entries.isEmpty && a.config.isEmpty

/-- An artifact or an infrastructure, never both. -/
def deployServiceAccepted (s : DeployService) : Bool :=
  httpAccepted s.http && (decide (s.infra = {}) && deployArtifactAccepted s.artifact ||
    artifactAbsent s.artifact && infraAccepted s.infra)

/-- `deploy.schema.json`. -/
def deployAccepted (c : DeployConfig) : Bool :=
  environmentPattern c.name && !c.services.isEmpty && c.services.all deployServiceAccepted

end Dominion.Release
