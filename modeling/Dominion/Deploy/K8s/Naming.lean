import Dominion.Framework.Text
import Dominion.Framework.Sha256

/-! # Resource names

The name of a resource is made of its kind, the environment, the service and a hash of the
environment. -/
namespace Dominion.Deploy.K8s

open Dominion.Framework

inductive WorkloadKind where
  | empty
  | unknown
  | deployment
  | service
  | httpRoute
  | mongoDB
  | redis
  | pvc
  | secret
  | statefulSet
  deriving DecidableEq

def WorkloadKind.toString : WorkloadKind → String
  | empty => ""
  | unknown => "unknown"
  | deployment => "dp"
  | service => "svc"
  | httpRoute => "route"
  | mongoDB => "mongo"
  | redis => "redis"
  | pvc => "pvc"
  | secret => "secret"
  | statefulSet => "sts"

def maxK8sResourceNameSize : Nat := 63

/-- The bytes of a Go string. -/
def bytes (s : String) : List UInt8 :=
  s.toList.flatMap String.utf8EncodeChar

/-- `len` of a Go string. -/
def byteLength (s : String) : Nat :=
  (bytes s).length

/-- A character that `nonDNSLabel` does not match. -/
def isDNSLabelChar (c : Char) : Bool :=
  (decide ('a' ≤ c) && decide (c ≤ 'z')) || (decide ('0' ≤ c) && decide (c ≤ '9')) || c == '-'

def sanitizeNamePart (part : String) : String :=
  let part := Text.trimSpace (Text.toLower part)
  let part := String.ofList (Text.replaceRuns isDNSLabelChar '-' false part.toList)
  Text.trim part '-'

def hexDigit (n : UInt8) : Char :=
  if n < 10 then Char.ofNat (48 + n.toNat) else Char.ofNat (87 + n.toNat)

/-- `hex.EncodeToString`. -/
def hexString (bs : List UInt8) : String :=
  String.ofList (bs.flatMap fun b => [hexDigit (b / 16),hexDigit (b % 16)])

def shortNameHash (fullEnvName : String) : String :=
  hexString ((Sha256.sha256 (bytes (Text.trimSpace fullEnvName))).take 4)

def newObjectName (kind : WorkloadKind) (fullEnvName serviceName : String) : String :=
  let kind := if kind = .empty then .unknown else kind
  let parts := [kind.toString,fullEnvName,serviceName,shortNameHash fullEnvName]
  "-".intercalate ((parts.map sanitizeNamePart).filter (· ≠ ""))

example : newObjectName .service "dev.demo" " Api_v2" = "svc-dev-demo-api-v2-4a763de7" := by
  decide +kernel

end Dominion.Deploy.K8s
