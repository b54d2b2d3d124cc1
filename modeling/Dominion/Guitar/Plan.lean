import Dominion.Release.Command

/-! # Test plans

What `guitar` reads and checks before it runs a plan, and what it tells the tests. -/
namespace Dominion.Guitar

open Dominion.Framework
open Dominion.Deploy.Domain (environmentNameRegexp goQuote)
open Dominion.Release
open Dominion.Solver (cutChar cutChar_append)

/-- A map is a list of its entries in iteration order. -/
structure Suite where
  name : String
  env : String := ""
  deploy : String
  /-- From the protocol to the endpoints and their URLs. -/
  endpoint : List (String × List (String × String)) := []
  cases : List String
  timeout : Int := 0
  deriving DecidableEq, Repr

structure Config where
  name : String
  description : String := ""
  suites : List Suite
  deriving DecidableEq, Repr

/-! ## Validation -/

def isLetter (c : Char) : Bool :=
  (decide ('a' ≤ c) && decide (c ≤ 'z')) || (decide ('A' ≤ c) && decide (c ≤ 'Z'))

/-- `^[a-zA-Z][a-zA-Z0-9]*$`. -/
def endpointNamePattern (s : String) : Bool :=
  match s.toList with
  | [] => false
  | c :: cs => isLetter c && cs.all fun d => isLetter d || isDigit d

/-- `^[a-z][a-z0-9]{0,7}\.\{\{run\}\}$`. -/
def deployNamePattern (s : String) : Bool :=
  match cutChar s '.' with
  | some (scope,rest) => environmentNameRegexp scope && decide (rest = placeholderRun)
  | none => false

def collectHostnames (deployCfg : DeployPlan) : List String :=
  deployCfg.services.flatMap fun svc => svc.http.hostnames

def inSuite (index : Nat) (message : String) : String :=
  "suite[" ++ toString index ++ "]: " ++ message

/-- The first endpoint of a protocol whose name is refused. -/
def invalidEndpoint (s : Suite) : Option (String × String) :=
  (s.endpoint.flatMap fun p => p.2.map fun e => (p.1,e.1)).find? fun p => !endpointNamePattern p.2

def validateSuiteFields (index : Nat) (s : Suite) : Except String Unit :=
  if s.name = "" then .error (inSuite index "name is required")
  else if s.env ≠ "" then
    .error (inSuite index "env field is no longer supported, remove it from testplan")
  else if s.deploy = "" then .error (inSuite index "deploy is required")
  else if s.cases = [] then .error (inSuite index "cases must not be empty")
  else if s.timeout < 0 then
    .error (inSuite index ("timeout must be non-negative, got " ++ toString s.timeout))
  else
    match invalidEndpoint s with
    | some (protocol,name) =>
      .error (inSuite index ("endpoint[" ++ protocol ++ "]: invalid endpoint name " ++
        goQuote name ++ ", must match ^[a-zA-Z][a-zA-Z0-9]*$"))
    | none => .ok ()

section

variable (ws : Workspace) (hostname : String → Except String String)

/-- `hostname` parses a URL. -/
def validateEndpoints (deploy : String) (hostnames : List String) :
    List (String × String) → Except String Unit
  | [] => .ok ()
  | (name,rawURL) :: rest =>
    match hostname rawURL with
    | .error e =>
      .error ("endpoint http." ++ name ++ ": invalid URL " ++ goQuote rawURL ++ ": " ++ e)
    | .ok host =>
      if host ∈ hostnames then validateEndpoints deploy hostnames rest
      else
        .error ("endpoint http." ++ name ++ " host " ++ goQuote host ++ " not found in deploy " ++
          deploy ++ " http.hostnames")

def validateSuite (suite : Suite) : Except String Unit :=
  match ws.parseDeployConfig (ws.resolvePath suite.deploy) with
  | .error e => .error ("parse deploy config " ++ suite.deploy ++ ": " ++ e)
  | .ok deployCfg =>
    if deployNamePattern deployCfg.name = false then
      .error ("suite " ++ goQuote suite.name ++
        ": deploy name must be \x7bscope\x7d.\x7b\x7brun\x7d\x7d format, got " ++
        goQuote deployCfg.name)
    else if deployCfg.type ≠ .test then
      .error ("deploy " ++ suite.deploy ++ " type must be \"test\", got " ++
        goQuote deployCfg.type.text)
    else
      validateEndpoints hostname suite.deploy (collectHostnames deployCfg)
        ((suite.endpoint.lookup "http").getD [])

def validateSuites : Nat → List Suite → Except String Unit
  | _,[] => .ok ()
  | index,suite :: rest => do
    validateSuiteFields index suite
    validateSuite ws hostname suite
    validateSuites (index + 1) rest

def validate (cfg : Config) : Except String Unit :=
  if cfg.name = "" then .error "config name is required"
  else if cfg.suites = [] then .error "config suites must not be empty"
  else validateSuites ws hostname 0 cfg.suites

end

/-! ## Runs and environments -/

def base36Chars : List Char :=
  "0123456789abcdefghijklmnopqrstuvwxyz".toList

/-- The run of six random bytes. -/
def runIdOf (buf : Fin 6 → UInt8) : String :=
  "lt" ++ String.ofList (List.ofFn fun i => base36Chars.getD ((buf i).toNat % 36) '0')

def setKey (vars : List (String × String)) (key value : String) : List (String × String) :=
  if vars.any fun v => v.1 = key then vars.map fun v => if v.1 = key then (key,value) else v
  else vars ++ [(key,value)]

/-- `upper` is `strings.ToUpper`. -/
def buildEnvVars (upper : String → String) (suite : Suite) (envName : String) :
    List (String × String) :=
  (suite.endpoint.flatMap fun p => p.2.map fun e =>
    ("TESTTOOL_ENDPOINT_" ++ upper p.1 ++ "_" ++ upper e.1,e.2)).foldl
    (fun vars v => setKey vars v.1 v.2)
    [("TESTTOOL_ENV",envName),("DOMINION_ENVIRONMENT",envName)]

def buildTestEnvFlags (upper : String → String) (suite : Suite) (envName : String) : List String :=
  (buildEnvVars upper suite envName).map fun v => "--test_env=" ++ v.1 ++ "=" ++ v.2

/-! ## What was checked -/

/-- The deploy file of a suite is that of a test environment with a placeholder for the run. -/
structure Placed (ws : Workspace) (suite : Suite) (scope : String) (plan : DeployPlan) : Prop where
  parsed : ws.parseDeployConfig (ws.resolvePath suite.deploy) = .ok plan
  name : plan.name = scope ++ "." ++ placeholderRun
  type : plan.type = .test
  scope : environmentNameRegexp scope = true

section checked

variable {ws : Workspace} {hostname : String → Except String String}

private theorem placed_of_validateSuite {suite : Suite}
    (h : validateSuite ws hostname suite = .ok ()) :
    ∃ scope plan, Placed ws suite scope plan := by
  unfold validateSuite at h
  split at h
  · cases h
  · rename_i plan hplan
    split at h
    · cases h
    rename_i hpattern
    split at h
    · cases h
    rename_i htype
    rw [Bool.not_eq_false] at hpattern
    unfold deployNamePattern at hpattern
    split at hpattern
    · rename_i scope rest hcut
      simp only [Bool.and_eq_true,decide_eq_true_eq] at hpattern
      obtain ⟨hscope,rfl⟩ := hpattern
      exact ⟨scope,plan,hplan,eq_of_cut hcut,not_not.mp htype,hscope⟩
    · cases hpattern

private theorem placed_of_validateSuites {index : Nat} {suites : List Suite}
    (h : validateSuites ws hostname index suites = .ok ()) :
    ∀ suite ∈ suites, ∃ scope plan, Placed ws suite scope plan := by
  induction suites generalizing index with
  | nil => simp
  | cons suite rest ih =>
    unfold validateSuites at h
    obtain ⟨_,_,h⟩ := ok_of_bind h
    obtain ⟨_,hsuite,hrest⟩ := ok_of_bind h
    intro s hs
    rcases List.mem_cons.mp hs with rfl | hs
    · exact placed_of_validateSuite hsuite
    · exact ih hrest s hs

theorem placed_of_validate {cfg : Config} (h : validate ws hostname cfg = .ok ()) :
    ∀ suite ∈ cfg.suites, ∃ scope plan, Placed ws suite scope plan := by
  unfold validate at h
  split at h
  · cases h
  split at h
  · cases h
  exact placed_of_validateSuites h

/-- What stands for a scope before the placeholder stands for it before the run. -/
theorem Placed.cut {suite : Suite} {scope : String} {plan : DeployPlan}
    (h : Placed ws suite scope plan) : cutChar plan.name '.' = some (scope,placeholderRun) := by
  rw [h.name]
  exact cut_label h.scope _

end checked

/-- A run is a name of its own. -/
theorem environmentNameRegexp_runIdOf (buf : Fin 6 → UInt8) :
    environmentNameRegexp (runIdOf buf) = true := by
  have hdigit : ∀ n : Fin 36, (Dominion.Deploy.Domain.isLowerLetter (base36Chars.getD n '0') ||
      Dominion.Deploy.Domain.isDigit (base36Chars.getD n '0')) = true := by decide
  have hlist : (runIdOf buf).toList =
      'l' :: 't' :: List.ofFn fun i => base36Chars.getD ((buf i).toNat % 36) '0' := by
    simp [runIdOf,String.toList_append]
  unfold environmentNameRegexp
  rw [hlist]
  simp only [Bool.and_eq_true,List.all_eq_true]
  refine ⟨by decide,by simp,?_⟩
  intro c hc
  rcases List.mem_cons.mp hc with rfl | hc
  · decide
  · obtain ⟨i,rfl⟩ := List.mem_ofFn.mp hc
    exact hdigit ⟨(buf i).toNat % 36,Nat.mod_lt _ (by decide)⟩

private theorem mem_setKey {vars : List (String × String)} {v : String × String} {key : String}
    (hv : v ∈ vars) (hkey : v.1 ≠ key) (value : String) : v ∈ setKey vars key value := by
  unfold setKey
  split
  · exact List.mem_map.mpr ⟨v,hv,if_neg hkey⟩
  · exact List.mem_append_left _ hv

/-- No endpoint replaces the environment that the tests are told. -/
theorem environment_mem_flags (upper : String → String) (suite : Suite) (envName : String) :
    "--test_env=" ++ "TESTTOOL_ENV" ++ "=" ++ envName ∈ buildTestEnvFlags upper suite envName := by
  have hkey : ∀ protocol name : String,
      "TESTTOOL_ENV" ≠ "TESTTOOL_ENDPOINT_" ++ upper protocol ++ "_" ++ upper name := by
    intro protocol name h
    have hlist := congrArg String.toList h
    simp [String.toList_append] at hlist
  have hset : ∀ (endpoints vars : List (String × String)),
      (∀ e ∈ endpoints, "TESTTOOL_ENV" ≠ e.1) → ("TESTTOOL_ENV",envName) ∈ vars →
      ("TESTTOOL_ENV",envName) ∈ endpoints.foldl (fun vars v => setKey vars v.1 v.2) vars := by
    intro endpoints
    induction endpoints with
    | nil => exact fun vars _ hvars => hvars
    | cons e rest ih =>
      intro vars hkeys hvars
      exact ih _ (fun e' he' => hkeys e' (List.mem_cons_of_mem _ he'))
        (mem_setKey hvars (hkeys e List.mem_cons_self) e.2)
  refine List.mem_map.mpr ⟨("TESTTOOL_ENV",envName),?_,rfl⟩
  apply hset
  · intro e he
    obtain ⟨p,_,he⟩ := List.mem_flatMap.mp he
    obtain ⟨entry,_,rfl⟩ := List.mem_map.mp he
    exact hkey p.1 entry.1
  · exact List.mem_cons_self

end Dominion.Guitar
