import Dominion.Framework.Text

/-! # The static Kubernetes configuration -/
namespace Dominion.Deploy.K8s

open Dominion.Framework

structure GatewayConfig where
  name : String
  «namespace» : String

structure ConfigMapConfig where
  name : String
  key : String

structure TLSConfig where
  secret : String
  domain : String
  caConfigMap : ConfigMapConfig

structure OSSConfig where
  secret : String
  accessKey : String
  secretKey : String

structure StorageConfig where
  storageClassName : String
  capacity : String
  accessModes : List String
  volumeMode : String

structure MongoProfileConfig where
  image : String
  version : String
  port : Int
  adminUsername : String
  storage : StorageConfig

structure RedisProfileConfig where
  image : String
  version : String
  port : Int
  storage : StorageConfig

structure K8sConfig where
  «namespace» : String
  managedBy : String
  gateway : GatewayConfig
  tls : TLSConfig
  oss : OSSConfig
  /-- The profiles are maps, as their entries. -/
  mongoDB : List (String × MongoProfileConfig)
  redis : List (String × RedisProfileConfig)

namespace K8sConfig

/-- A profile of either kind, under its trimmed name. -/
def profile {α : Type} (profiles : List (String × α)) (name : String) : Option α :=
  let name := Text.trimSpace name
  if name = "" then none else profiles.lookup name

def mongoProfile (cfg : K8sConfig) (name : String) : Option MongoProfileConfig :=
  profile cfg.mongoDB name

def redisProfile (cfg : K8sConfig) (name : String) : Option RedisProfileConfig :=
  profile cfg.redis name

end K8sConfig

end Dominion.Deploy.K8s
