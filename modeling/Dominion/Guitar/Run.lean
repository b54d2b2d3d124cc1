import Dominion.Guitar.Plan

/-! # Test runs

`guitar run` deploys an environment for each suite, tests it and deletes it.  What the deploy
commands are answered and how each process ends is up to the world. -/
namespace Dominion.Guitar

open Dominion.Framework
open Dominion.Deploy.Domain (EnvironmentName environmentNameRegexp goQuote)
open Dominion.Release
open Dominion.Solver (cutChar)

inductive Event
  | print (line : String)
  | warn (line : String)
  /-- A command, and whether the end of the context ends it. -/
  | exec (name : String) (args : List String) (cancelable : Bool)
  /-- What a deploy command does. -/
  | tool (e : CommandEvent)
  | settled
  deriving DecidableEq

/-- How a process of the deploy tool goes. -/
structure Process where
  /-- It was not started. -/
  failed : Option String := none
  answers : List Answer := []
  /-- The error when it is ended before its answers come. -/
  cutOff : String := "signal: killed"

structure SuiteWorld where
  /-- The random bytes. -/
  random : Except String (Fin 6 → UInt8)
  build : DeployPlan → Except String EnvironmentDesiredState
  apply : Process
  describe : Process
  cleanup : Process
  /-- The context ended during the wait. -/
  settle : Option String
  test : Option String

structure Setting where
  ws : Workspace
  hostname : String → Except String String
  upper : String → String
  useColor : Bool

/-! ## Reports -/

inductive Status
  | success
  | failure
  deriving DecidableEq, Repr

structure SuiteResult where
  name : String
  status : Status
  err : Option String
  deriving DecidableEq, Repr

namespace Setting

variable (g : Setting)

def green (text : String) : String :=
  if g.useColor then "\x1b[32m" ++ text ++ "\x1b[0m" else text

def red (text : String) : String :=
  if g.useColor then "\x1b[31m" ++ text ++ "\x1b[0m" else text

def statusText : Status → String
  | .success => g.green "success"
  | .failure => g.red "failure"

def withError (line : String) (err : Option String) : String :=
  line ++ (err.map fun e => ", error: " ++ e).getD ""

def step (label : String) : Event :=
  .print ("  " ++ label)

def suiteHeader (name runID envName deployPath : String) : List Event :=
  [.print ("--- Suite: " ++ name ++ " ---"),
    .print ("  run=" ++ runID ++ " env=" ++ envName ++ " deploy=" ++ deployPath)]

def suiteStatus (name : String) (status : Status) (err : Option String) : Event :=
  .print (withError ("suite " ++ name ++ ": " ++ g.statusText status) err)

def summary (results : List SuiteResult) : List Event :=
  if results = [] then []
  else
    let passed := results.countP fun r => r.status = .success
    let failed := results.length - passed
    let counts := "total: " ++ toString results.length ++ ", passed: " ++ toString passed ++
      ", failed: " ++ toString failed
    .print "--- Summary ---" :: .print (if 0 < failed then g.red counts else g.green counts) ::
      results.map fun r =>
        .print (withError ("  " ++ r.name ++ ": " ++ g.statusText r.status) r.err)

/-! ## One suite -/

/-- The tool prints its error and exits. -/
def runDeploy (p : Process) (args : List String) (cancelable : Bool) (command : Command) :
    List Event × Option String :=
  let exec : Event := .exec "deploy" args cancelable
  match p.failed with
  | some e => ([exec],some e)
  | none =>
    match command p.answers with
    | (events,none) => (exec :: events.map .tool,some p.cutOff)
    | (events,some (.ok _,_)) => (exec :: events.map .tool,none)
    | (events,some (.error e,_)) => (exec :: (events.map .tool ++ [.warn e]),some "exit status 1")

def diagnoseDeployFailure (fullEnvName : String) (p : Process) : List Event :=
  let described := runDeploy p ["describe","--timeout=10s",fullEnvName] false
    (describeCommand fullEnvName)
  .print ("  --- 环境状态 (env=" ++ fullEnvName ++ ") ---") :: described.1 ++
    (described.2.map fun e =>
      Event.warn ("warning: 获取环境 " ++ fullEnvName ++ " 状态失败: " ++ e)).toList

def testArgs (suite : Suite) (envName : String) : List String :=
  "test" :: "--config=largetest" :: buildTestEnvFlags g.upper suite envName ++ suite.cases

/-- The arguments of a command are trimmed when it parses them. -/
def deployAndTest (suite : Suite) (w : SuiteWorld) (runID fullEnvName : String) :
    List Event × Option String :=
  let deployPath := g.ws.resolvePath suite.deploy
  let applied := runDeploy w.apply ["apply","--run",runID,deployPath] true
    (applyCommand g.ws w.build (Text.trimSpace runID) (Text.trimSpace deployPath))
  match applied.2 with
  | some e =>
    (step "Deploy" :: applied.1 ++ diagnoseDeployFailure fullEnvName w.describe,
      some ("deploy apply " ++ suite.deploy ++ ": " ++ e))
  | none =>
    let waiting := step "Deploy" :: applied.1 ++ [step "Wait 60s for DNS/endpoint settle"]
    match w.settle with
    | some e => (waiting,some ("wait after deploy: " ++ e))
    | none =>
      (waiting ++ [.settled,step "Test",.exec "bazel" (g.testArgs suite fullEnvName) true],
        w.test.map fun e => "bazel test failed for suite " ++ goQuote suite.name ++ ": " ++ e)

def cleanUp (fullEnvName : String) (p : Process) : List Event × Option String :=
  runDeploy p ["del",fullEnvName] false (deleteCommand fullEnvName)

def runSuite (suite : Suite) (w : SuiteWorld) : List Event × Option String :=
  match w.random with
  | .error e => ([],some ("generate run id for suite " ++ goQuote suite.name ++ ": " ++
      "generate random bytes: " ++ e))
  | .ok buf =>
    let runID := runIdOf buf
    match g.ws.parseDeployConfig (g.ws.resolvePath suite.deploy) with
    | .error e => ([],some ("parse deploy config " ++ suite.deploy ++ ": " ++ e))
    | .ok deployCfg =>
      match cutChar deployCfg.name '.' with
      | none => ([],some ("deploy name " ++ goQuote deployCfg.name ++ " must contain scope"))
      | some (scope,_) =>
        let fullEnvName := scope ++ "." ++ runID
        let ran := g.deployAndTest suite w runID fullEnvName
        let cleaned := cleanUp fullEnvName w.cleanup
        let events := suiteHeader suite.name runID fullEnvName suite.deploy ++ ran.1 ++
          step "Cleanup" :: cleaned.1
        match ran.2,cleaned.2 with
        | some err,some cleanupErr =>
          (events,some (err ++ "; cleanup failed: deploy del " ++ fullEnvName ++ ": " ++
            cleanupErr))
        | some err,none => (events,some err)
        | none,some cleanupErr =>
          (events ++ [.warn ("warning: cleanup failed: deploy del " ++ fullEnvName ++ ": " ++
            cleanupErr)],none)
        | none,none => (events,none)

/-! ## The plan -/

/-- The suites end with the first that fails. -/
def runSuites (worlds : Nat → SuiteWorld) :
    Nat → List Suite → List Event × List SuiteResult × Option String
  | _,[] => ([],[],none)
  | i,suite :: rest =>
    let ran := g.runSuite suite (worlds i)
    match ran.2 with
    | some e =>
      (ran.1 ++ [g.suiteStatus suite.name .failure (some e)],[⟨suite.name,.failure,some e⟩],some e)
    | none =>
      let more := runSuites worlds (i + 1) rest
      (ran.1 ++ g.suiteStatus suite.name .success none :: more.1,
        ⟨suite.name,.success,none⟩ :: more.2.1,more.2.2)

def selectSuites (suiteFilter : String) (suites : List Suite) : Except String (List Suite) :=
  if suiteFilter = "" then .ok suites
  else
    match suites.find? fun s => s.name = suiteFilter with
    | some s => .ok [s]
    | none =>
      .error ("suite " ++ goQuote suiteFilter ++ " not found. Available suites: " ++
        ", ".intercalate (suites.map Suite.name))

def run (cfg : Config) (suiteFilter : String) (worlds : Nat → SuiteWorld) :
    List Event × Option String :=
  match validate g.ws g.hostname cfg with
  | .error e => ([],some ("validation failed: " ++ e))
  | .ok _ =>
    match selectSuites suiteFilter cfg.suites with
    | .error e => ([],some e)
    | .ok suites =>
      let ran := g.runSuites worlds 0 suites
      (ran.1 ++ g.summary ran.2.1,ran.2.2)

end Setting

/-! ## What a run does -/

namespace Event

/-- Calls are about one environment. -/
def About (resource : String) : Event → Prop
  | .tool e => e.About resource
  | _ => True

/-- Nothing is created, updated or tested. -/
def Quiet : Event → Prop
  | .tool e => e.Reads
  | .exec name _ _ => name ≠ "bazel"
  | _ => True

end Event

open Event

/-- After what was done for an environment comes the command that deletes it, with no call about
another environment before it.  If the command of the suite whose run the environment is for is
started, its first call is the deletion. -/
def Cleaned (worlds : Nat → SuiteWorld) (resource : String) (after : List Event) : Prop :=
  ∃ (n : EnvironmentName) (i : Nat) (buf : Fin 6 → UInt8) (mid rest : List Event),
    after = mid ++ .exec "deploy" ["del",n.label] false :: rest ∧ n.toString = resource ∧
      (∀ e ∈ mid, e.About resource) ∧
      (worlds i).random = .ok buf ∧ resource = environmentResourceName n.scope (runIdOf buf) ∧
      ((worlds i).cleanup.failed = none → ∃ answer rest',
        rest = .tool (.api (.delete resource) answer) :: rest')

/-- The last call before the tests found their environment ready. -/
def Tested (before : List Event) (args : List String) : Prop :=
  ∃ (n : EnvironmentName) (front lines : List Event) (answer : Answer) (message : String),
    "--test_env=" ++ "TESTTOOL_ENV" ++ "=" ++ n.label ∈ args ∧
      before = front ++ .tool (.api (.get n.toString) (some answer)) :: lines ∧
      answer.reply = .ok (some ⟨.ready,message⟩) ∧
      ∀ call answer', .tool (.api call answer') ∉ lines

/-- What stands around an event of a run. -/
def Kept (worlds : Nat → SuiteWorld) (before : List Event) (e : Event) (after : List Event) :
    Prop :=
  match e with
  | .tool (.api call _) => call.applies = true → Cleaned worlds call.resource after
  | .exec "bazel" args _ => Tested before args
  | _ => True

section run

variable {g : Setting} {worlds : Nat → SuiteWorld} {resource : String}

private theorem Cleaned.append {after : List Event} (h : Cleaned worlds resource after)
    (more : List Event) : Cleaned worlds resource (after ++ more) := by
  obtain ⟨n,i,buf,mid,rest,rfl,hn,hmid,hrandom,hresource,hfirst⟩ := h
  refine ⟨n,i,buf,mid,rest ++ more,by simp,hn,hmid,hrandom,hresource,?_⟩
  intro hstarted
  obtain ⟨answer,rest',rfl⟩ := hfirst hstarted
  exact ⟨answer,rest' ++ more,rfl⟩

private theorem Tested.prepend {before : List Event} {args : List String} (h : Tested before args)
    (more : List Event) : Tested (more ++ before) args := by
  obtain ⟨n,front,lines,answer,message,hflag,rfl,hreply,hlines⟩ := h
  exact ⟨n,more ++ front,lines,answer,message,hflag,by simp,hreply,hlines⟩

private theorem Kept.append {before after : List Event} {e : Event} (h : Kept worlds before e after)
    (more : List Event) : Kept worlds before e (after ++ more) := by
  unfold Kept at h ⊢
  split
  · exact fun happlies => (h happlies).append more
  · exact h
  · trivial

private theorem Kept.prepend {before after : List Event} {e : Event}
    (h : Kept worlds before e after)
    (more : List Event) : Kept worlds (more ++ before) e after := by
  unfold Kept at h ⊢
  split
  · exact h
  · exact h.prepend more
  · trivial

private theorem kept_of_quiet {e : Event} (h : e.Quiet) (before after : List Event) :
    Kept worlds before e after := by
  unfold Kept
  split
  · rename_i call answer
    intro happlies
    rw [show call.applies = false from h] at happlies
    cases happlies
  · exact (h rfl).elim
  · trivial

private theorem everywhere_append {events events' : List Event}
    (h : Everywhere (Kept worlds) events)
    (h' : Everywhere (Kept worlds) events') : Everywhere (Kept worlds) (events ++ events') :=
  h.append h' (fun _ _ _ hk => hk.append events') fun _ _ _ hk => hk.prepend events

private theorem everywhere_quiet {events : List Event} (h : ∀ e ∈ events, e.Quiet) :
    Everywhere (Kept worlds) events := by
  intro before e after hevents
  exact kept_of_quiet (h e (by rw [hevents]; simp)) before after

/-! ## Processes -/

variable {p : Process} {args : List String} {cancelable : Bool} {command : Command}

/-- Besides what its command does, a process is started and may complain. -/
theorem mem_runDeploy {e : Event} (he : e ∈ (Setting.runDeploy p args cancelable command).1) :
    e = .exec "deploy" args cancelable ∨ (∃ line, e = .warn line) ∨
      ∃ event ∈ (command p.answers).1, e = .tool event := by
  unfold Setting.runDeploy at he
  dsimp only at he
  split at he
  · exact Or.inl (List.mem_singleton.mp he)
  split at he
  · rename_i events hrun
    rw [hrun]
    rcases List.mem_cons.mp he with rfl | he
    · exact Or.inl rfl
    · obtain ⟨event,hevent,rfl⟩ := List.mem_map.mp he
      exact Or.inr (Or.inr ⟨event,hevent,rfl⟩)
  · rename_i events rest hrun
    rw [hrun]
    rcases List.mem_cons.mp he with rfl | he
    · exact Or.inl rfl
    · obtain ⟨event,hevent,rfl⟩ := List.mem_map.mp he
      exact Or.inr (Or.inr ⟨event,hevent,rfl⟩)
  · rename_i events error rest hrun
    rw [hrun]
    rcases List.mem_cons.mp he with rfl | he
    · exact Or.inl rfl
    rcases List.mem_append.mp he with he | he
    · obtain ⟨event,hevent,rfl⟩ := List.mem_map.mp he
      exact Or.inr (Or.inr ⟨event,hevent,rfl⟩)
    · exact Or.inr (Or.inl ⟨error,List.mem_singleton.mp he⟩)

private theorem about_runDeploy {Q : List CommandEvent → Except String Unit → Prop}
    (h : Exchange.Meets (CommandEvent.About resource) Q command) :
    ∀ e ∈ (Setting.runDeploy p args cancelable command).1, e.About resource := by
  intro e he
  rcases mem_runDeploy he with rfl | ⟨line,rfl⟩ | ⟨event,hevent,rfl⟩
  · trivial
  · trivial
  · exact (h p.answers).1 event hevent

private theorem quiet_runDeploy {P : CommandEvent → Prop}
    {Q : List CommandEvent → Except String Unit → Prop} (h : Exchange.Meets P Q command)
    (hreads : ∀ event, P event → event.Reads) :
    ∀ e ∈ (Setting.runDeploy p args cancelable command).1, e.Quiet := by
  intro e he
  rcases mem_runDeploy he with rfl | ⟨line,rfl⟩ | ⟨event,hevent,rfl⟩
  · exact fun h => absurd h (by decide)
  · trivial
  · exact hreads event ((h p.answers).1 event hevent)

private theorem no_test_runDeploy {args' : List String} {c : Bool} :
    .exec "bazel" args' c ∉ (Setting.runDeploy p args cancelable command).1 := by
  intro he
  rcases mem_runDeploy he with he | ⟨line,he⟩ | ⟨event,_,he⟩
  · exact absurd (Event.exec.inj he).1 (by decide)
  · cases he
  · cases he

/-- A command that succeeds has found its environment ready with its last call. -/
theorem ready_runDeploy {P : CommandEvent → Prop}
    (h : Exchange.Meets P (fun es x => x = .ok () → CommandEvent.Ready resource es) command)
    (hrun : (Setting.runDeploy p args cancelable command).2 = none) :
    ∃ (front lines : List Event) (answer : Answer) (message : String),
      (Setting.runDeploy p args cancelable command).1 =
        front ++ .tool (.api (.get resource) (some answer)) :: lines ∧
      answer.reply = .ok (some ⟨.ready,message⟩) ∧
      ∀ call answer', .tool (.api call answer') ∉ lines := by
  have hreturn := (h p.answers).2
  unfold Setting.runDeploy at hrun ⊢
  dsimp only at hrun ⊢
  split at hrun
  · cases hrun
  split at hrun
  · cases hrun
  · rename_i events _ rest hcommand
    rw [hcommand] at hreturn
    obtain ⟨before,answer,message,lines,hevents,hreply⟩ := hreturn (.ok ()) rest rfl rfl
    dsimp only at hevents
    refine ⟨.exec "deploy" args cancelable :: before.map .tool,
      lines.map fun line => .tool (.print line),answer,message,?_,hreply,?_⟩
    · simp [hevents]
    · intro call answer' hmem
      obtain ⟨line,_,hline⟩ := List.mem_map.mp hmem
      cases hline
  · cases hrun

/-! ## One suite -/

variable {suite : Suite} {scope : String} {plan : DeployPlan} {w : SuiteWorld}
  {buf : Fin 6 → UInt8}

private theorem describe_quiet {envName : String} (hscope : environmentNameRegexp scope = true)
    (hname : environmentNameRegexp envName = true) :
    ∀ e ∈ Setting.diagnoseDeployFailure (scope ++ "." ++ envName) p, e.Quiet ∧
      e.About (environmentResourceName scope envName) := by
  have hmeets := describeCommand_meets hscope hname
  intro e he
  rcases List.mem_append.mp he with he | he
  · rcases List.mem_cons.mp he with rfl | he
    · exact ⟨trivial,trivial⟩
    · refine ⟨quiet_runDeploy hmeets (fun _ h => h.2) e he,?_⟩
      rcases mem_runDeploy he with rfl | ⟨line,rfl⟩ | ⟨event,hevent,rfl⟩
      · trivial
      · trivial
      · exact ((hmeets p.answers).1 event hevent).1
  · obtain ⟨error,_,rfl⟩ := Option.map_eq_some_iff.mp (Option.mem_toList.mp he)
    exact ⟨trivial,trivial⟩

/-- What a list ends with is found there only, if it was not in the list before. -/
theorem last_only {α : Type} {xs before after : List α} {x e : α} (hx : e ∉ xs)
    (h : xs ++ [x] = before ++ e :: after) : before = xs ∧ e = x := by
  rcases List.append_eq_append_iff.mp h with ⟨mid,hbefore,hrest⟩ | ⟨mid,hxs,hmid⟩
  · cases mid with
    | nil => exact ⟨by rw [hbefore,List.append_nil],(List.cons.inj hrest).1.symm⟩
    | cons y mid =>
      have hlength := congrArg List.length hrest
      simp at hlength
  · cases mid with
    | nil => exact ⟨by rw [hxs,List.append_nil],(List.cons.inj hmid).1⟩
    | cons y mid =>
      obtain ⟨rfl,_⟩ := List.cons_eq_cons.mp hmid
      exact (hx (by rw [hxs]; simp)).elim

/-- The deployment and the tests of a suite are about the environment of its run, and the tests
come last, once it was found ready. -/
theorem deployAndTest_tested (buf : Fin 6 → UInt8) (hplaced : Placed g.ws suite scope plan)
    (hpath : Text.trimSpace (g.ws.resolvePath suite.deploy) = g.ws.resolvePath suite.deploy) :
    (∀ e ∈ (g.deployAndTest suite w (runIdOf buf) (scope ++ "." ++ runIdOf buf)).1,
      e.About (environmentResourceName scope (runIdOf buf))) ∧
    ∀ before testArgs c after,
      (g.deployAndTest suite w (runIdOf buf) (scope ++ "." ++ runIdOf buf)).1 =
        before ++ .exec "bazel" testArgs c :: after → Tested before testArgs := by
  have hrun := environmentNameRegexp_runIdOf buf
  have htrim : Text.trimSpace (runIdOf buf) = runIdOf buf :=
    Text.trimSpace_of_forall fun c hc => isSpace_word hrun hc
  have hmeets : Exchange.Meets (CommandEvent.About (environmentResourceName scope (runIdOf buf)))
      (fun es x => x = .ok () →
        CommandEvent.Ready (environmentResourceName scope (runIdOf buf)) es)
      (applyCommand g.ws w.build (Text.trimSpace (runIdOf buf))
        (Text.trimSpace (g.ws.resolvePath suite.deploy))) := by
    rw [htrim,hpath]
    refine applyCommand_meets hplaced.scope hrun ?_ hplaced.name hplaced.type
    rw [resolvePath_resolved]
    exact hplaced.parsed
  unfold Setting.deployAndTest
  dsimp only
  generalize hprocess : Setting.runDeploy w.apply _ _ _ = applied
  have habout : ∀ e ∈ applied.1, e.About (environmentResourceName scope (runIdOf buf)) := by
    rw [← hprocess]
    exact about_runDeploy hmeets
  have hnone : ∀ testArgs c, .exec "bazel" testArgs c ∉ applied.1 := by
    intro testArgs c
    rw [← hprocess]
    exact no_test_runDeploy
  split
  · have hdescribe := describe_quiet (p := w.describe) hplaced.scope hrun
    constructor
    · intro e he
      rcases List.mem_append.mp he with he | he
      · rcases List.mem_cons.mp he with rfl | he
        · trivial
        · exact habout e he
      · exact (hdescribe e he).2
    · intro before testArgs c after hevents
      have hmem : Event.exec "bazel" testArgs c ∈ Setting.step "Deploy" :: applied.1 ++
          Setting.diagnoseDeployFailure (scope ++ "." ++ runIdOf buf) w.describe := by
        dsimp only at hevents
        rw [hevents]
        simp
      rcases List.mem_append.mp hmem with hmem | hmem
      · rcases List.mem_cons.mp hmem with hmem | hmem
        · cases hmem
        · exact (hnone _ _ hmem).elim
      · exact ((hdescribe _ hmem).1 rfl).elim
  · rename_i happlied
    have hwaiting : ∀ e ∈ Setting.step "Deploy" :: applied.1 ++
        [Setting.step "Wait 60s for DNS/endpoint settle"],
        e.About (environmentResourceName scope (runIdOf buf)) ∧
          ∀ testArgs c, e ≠ .exec "bazel" testArgs c := by
      intro e he
      rcases List.mem_append.mp he with he | he
      · rcases List.mem_cons.mp he with rfl | he
        · exact ⟨trivial,nofun⟩
        · exact ⟨habout e he,fun testArgs c h => hnone testArgs c (h ▸ he)⟩
      · rw [List.mem_singleton.mp he]
        exact ⟨trivial,nofun⟩
    split
    · refine ⟨fun e he => (hwaiting e he).1,?_⟩
      intro before testArgs c after hevents
      dsimp only at hevents
      exact ((hwaiting _ (by rw [hevents]; simp)).2 testArgs c rfl).elim
    · constructor
      · intro e he
        rcases List.mem_append.mp he with he | he
        · exact (hwaiting e he).1
        · simp only [List.mem_cons,List.not_mem_nil,or_false] at he
          rcases he with rfl | rfl | rfl <;> trivial
      · intro before testArgs c after hevents
        obtain ⟨front,lines,answer,message,hready,hreply,hlines⟩ : ∃ (front lines : List Event)
            (answer : Answer) (message : String), applied.1 = front ++
              .tool (.api (.get (environmentResourceName scope (runIdOf buf))) (some answer)) ::
                lines ∧ answer.reply = .ok (some ⟨.ready,message⟩) ∧
              ∀ call answer', .tool (.api call answer') ∉ lines := by
          rw [← hprocess] at happlied ⊢
          exact ready_runDeploy hmeets happlied
        have hfront : Event.exec "bazel" testArgs c ∉ Setting.step "Deploy" :: applied.1 ++
            [Setting.step "Wait 60s for DNS/endpoint settle"] ++
              [.settled,Setting.step "Test"] := by
          intro hmem
          rcases List.mem_append.mp hmem with hmem | hmem
          · exact (hwaiting _ hmem).2 testArgs c rfl
          · simp [Setting.step] at hmem
        obtain ⟨rfl,hexec⟩ := last_only hfront (by simpa using hevents)
        rw [(Event.exec.inj hexec).2.1]
        refine ⟨⟨scope,runIdOf buf,by rw [hplaced.scope,hrun]; rfl⟩,Setting.step "Deploy" :: front,
          lines ++ [Setting.step "Wait 60s for DNS/endpoint settle",.settled,Setting.step "Test"],
          answer,message,?_,?_,hreply,?_⟩
        · simp only [Setting.testArgs,List.mem_cons,List.mem_append]
          exact Or.inl (Or.inr (Or.inr (environment_mem_flags g.upper suite _)))
        · rw [hready]
          simp [toString_environmentName]
        · intro call answer' hmem
          rcases List.mem_append.mp hmem with hmem | hmem
          · exact hlines call answer' hmem
          · simp [Setting.step] at hmem

/-- The deletion is the first call of the command that cleans up. -/
theorem cleanUp_events (hscope : environmentNameRegexp scope = true) {run : String}
    (hrun : environmentNameRegexp run = true) (p : Process) :
    ∃ rest, (Setting.cleanUp (scope ++ "." ++ run) p).1 =
        .exec "deploy" ["del",scope ++ "." ++ run] false :: rest ∧
      (p.failed = none → ∃ answer rest',
        rest = .tool (.api (.delete (environmentResourceName scope run)) answer) :: rest') ∧
      ∀ e ∈ (Setting.cleanUp (scope ++ "." ++ run) p).1,
        e.Quiet ∧ e.About (environmentResourceName scope run) := by
  have hmeets := deleteCommand_meets hscope hrun
  have hquiet : ∀ e ∈ (Setting.cleanUp (scope ++ "." ++ run) p).1,
      e.Quiet ∧ e.About (environmentResourceName scope run) := by
    intro e he
    refine ⟨quiet_runDeploy hmeets (fun _ h => h.2) e he,?_⟩
    rcases mem_runDeploy he with rfl | ⟨line,rfl⟩ | ⟨event,hevent,rfl⟩
    · trivial
    · trivial
    · exact ((hmeets p.answers).1 event hevent).1
  have hhead := deleteCommand_head hscope hrun p.answers
  have hfirst : ∃ rest, (Setting.cleanUp (scope ++ "." ++ run) p).1 =
        .exec "deploy" ["del",scope ++ "." ++ run] false :: rest ∧
      (p.failed = none → ∃ answer rest',
        rest = .tool (.api (.delete (environmentResourceName scope run)) answer) :: rest') := by
    obtain ⟨events,hevents⟩ := List.head?_eq_some_iff.mp hhead
    unfold Setting.cleanUp Setting.runDeploy
    dsimp only
    split
    · rename_i error hfailed
      exact ⟨[],rfl,fun h => by rw [hfailed] at h; cases h⟩
    split
    · rename_i made hrun
      rw [hrun] at hevents
      dsimp only at hevents
      exact ⟨_,rfl,fun _ => ⟨_,_,by rw [hevents]; rfl⟩⟩
    · rename_i made _ left hrun
      rw [hrun] at hevents
      dsimp only at hevents
      exact ⟨_,rfl,fun _ => ⟨_,_,by rw [hevents]; rfl⟩⟩
    · rename_i made error left hrun
      rw [hrun] at hevents
      dsimp only at hevents
      exact ⟨_,rfl,fun _ => ⟨_,_,by rw [hevents]; rfl⟩⟩
  obtain ⟨rest,hrest,hstarted⟩ := hfirst
  exact ⟨rest,hrest,hstarted,hquiet⟩

/-- A suite whose run has a name is deployed, tested and cleaned up. -/
theorem runSuite_events (hplaced : Placed g.ws suite scope plan) (hrandom : w.random = .ok buf) :
    ∃ warnings : List String, (g.runSuite suite w).1 =
      Setting.suiteHeader suite.name (runIdOf buf) (scope ++ "." ++ runIdOf buf) suite.deploy ++
        (g.deployAndTest suite w (runIdOf buf) (scope ++ "." ++ runIdOf buf)).1 ++
        (Setting.step "Cleanup" ::
          (Setting.cleanUp (scope ++ "." ++ runIdOf buf) w.cleanup).1 ++ warnings.map .warn) := by
  unfold Setting.runSuite
  simp only [hrandom,hplaced.parsed,hplaced.cut]
  split
  · exact ⟨[],by simp⟩
  · exact ⟨[],by simp⟩
  · exact ⟨[_],by rw [List.map_singleton,List.append_assoc]⟩
  · exact ⟨[],by simp⟩

private theorem runSuite_nameless {error : String} (hrandom : w.random = .error error) :
    (g.runSuite suite w).1 = [] := by
  unfold Setting.runSuite
  rw [hrandom]

/-- Where the end deletes the environment that everything before it is about, all is kept. -/
theorem everywhere_closed {ran closing : List Event} (habout : ∀ e ∈ ran, e.About resource)
    (htested : ∀ before args c after, ran = before ++ .exec "bazel" args c :: after →
      Tested before args)
    (hquiet : ∀ e ∈ closing, e.Quiet)
    (hcleaned : ∀ mid : List Event, (∀ e ∈ mid, e.About resource) →
      Cleaned worlds resource (mid ++ closing)) :
    Everywhere (Kept worlds) (ran ++ closing) := by
  intro before e after happend
  rcases List.append_eq_append_iff.mp happend with ⟨mid,_,hrest⟩ | ⟨mid,hran,hmid⟩
  · exact kept_of_quiet (hquiet e (by rw [hrest]; simp)) before after
  · cases mid with
    | nil => exact kept_of_quiet (hquiet e (by rw [← List.nil_append closing,← hmid]; simp)) _ _
    | cons x mid =>
      obtain ⟨rfl,rfl⟩ := List.cons_eq_cons.mp hmid
      have hafter : ∀ e' ∈ mid, e'.About resource := by
        intro e' he'
        exact habout e' (by rw [hran]; simp [he'])
      have hself : e.About resource := habout e (by rw [hran]; simp)
      unfold Kept
      split
      · rename_i call answer
        intro _
        rw [show call.resource = resource from hself]
        exact hcleaned mid hafter
      · rename_i args c
        exact htested before args c mid hran
      · trivial

/-- What is done for one suite is about the environment of its run, which is deleted last. -/
theorem runSuite_kept (worlds : Nat → SuiteWorld) (i : Nat) (hplaced : Placed g.ws suite scope plan)
    (hpath : Text.trimSpace (g.ws.resolvePath suite.deploy) = g.ws.resolvePath suite.deploy) :
    Everywhere (Kept worlds) (g.runSuite suite (worlds i)).1 ∧
      ∀ e ∈ (g.runSuite suite (worlds i)).1, ∀ call answer, e = .tool (.api call answer) →
        ∃ buf, (worlds i).random = .ok buf ∧
          call.resource = environmentResourceName scope (runIdOf buf) := by
  cases hrandom : (worlds i).random with
  | error e =>
    rw [runSuite_nameless hrandom]
    exact ⟨Everywhere.nil,by simp⟩
  | ok buf =>
    obtain ⟨warnings,hevents⟩ := runSuite_events (g := g) hplaced hrandom
    have hrun := environmentNameRegexp_runIdOf buf
    obtain ⟨rest,hdel,hstarted,hclean⟩ := cleanUp_events hplaced.scope hrun (worlds i).cleanup
    obtain ⟨habout,htested⟩ := deployAndTest_tested (w := worlds i) buf hplaced hpath
    rw [hevents]
    generalize (g.deployAndTest suite (worlds i) (runIdOf buf) _).1 = ran at habout htested
    have hheader : ∀ e ∈ Setting.suiteHeader suite.name (runIdOf buf)
        (scope ++ "." ++ runIdOf buf) suite.deploy, ∃ line, e = .print line := by
      intro e he
      simp only [Setting.suiteHeader,List.mem_cons,List.not_mem_nil,or_false] at he
      rcases he with rfl | rfl <;> exact ⟨_,rfl⟩
    have hclosing : ∀ e ∈ Setting.step "Cleanup" ::
        (Setting.cleanUp (scope ++ "." ++ runIdOf buf) (worlds i).cleanup).1 ++
          warnings.map .warn,
        e.Quiet ∧ e.About (environmentResourceName scope (runIdOf buf)) := by
      intro e he
      rcases List.mem_append.mp he with he | he
      · rcases List.mem_cons.mp he with rfl | he
        · exact ⟨trivial,trivial⟩
        · exact hclean e he
      · obtain ⟨line,_,rfl⟩ := List.mem_map.mp he
        exact ⟨trivial,trivial⟩
    constructor
    · rw [List.append_assoc]
      refine everywhere_append (everywhere_quiet fun e he => ?_) (everywhere_closed habout htested
        (fun e he => (hclosing e he).1) fun mid hmid => ?_)
      · obtain ⟨line,rfl⟩ := hheader e he
        trivial
      · refine ⟨⟨scope,runIdOf buf,by rw [hplaced.scope,hrun]; rfl⟩,i,buf,
          mid ++ [Setting.step "Cleanup"],rest ++ warnings.map .warn,?_,?_,?_,hrandom,rfl,?_⟩
        · rw [hdel]
          simp [EnvironmentName.label]
        · rfl
        · intro e he
          rcases List.mem_append.mp he with he | he
          · exact hmid e he
          · rw [List.mem_singleton.mp he]
            trivial
        · intro hprocess
          obtain ⟨answer,rest',rfl⟩ := hstarted hprocess
          exact ⟨answer,rest' ++ warnings.map .warn,rfl⟩
    · intro e he call answer hcall
      subst hcall
      refine ⟨buf,rfl,?_⟩
      rcases List.mem_append.mp he with he | he
      · rcases List.mem_append.mp he with he | he
        · obtain ⟨line,hline⟩ := hheader _ he
          cases hline
        · exact habout _ he
      · exact (hclosing _ he).2

/-! ## The plan -/

/-- An environment of a suite of the plan, for a run of its own. -/
def Own (g : Setting) (worlds : Nat → SuiteWorld) (suites : List Suite) (resource : String) :
    Prop :=
  ∃ suite ∈ suites, ∃ (scope : String) (plan : DeployPlan) (i : Nat) (buf : Fin 6 → UInt8),
    Placed g.ws suite scope plan ∧ (worlds i).random = .ok buf ∧
      resource = environmentResourceName scope (runIdOf buf)

private theorem status_quiet (name : String) (status : Status) (err : Option String) :
    ∀ e ∈ [g.suiteStatus name status err], e.Quiet := by
  intro e he
  rw [List.mem_singleton.mp he]
  trivial

/-- The loop of the suites. -/
theorem runSuites_kept (worlds : Nat → SuiteWorld) {suites : List Suite} {i : Nat}
    (hplaced : ∀ suite ∈ suites, ∃ scope plan, Placed g.ws suite scope plan)
    (hpaths : ∀ suite ∈ suites,
      Text.trimSpace (g.ws.resolvePath suite.deploy) = g.ws.resolvePath suite.deploy) :
    Everywhere (Kept worlds) (g.runSuites worlds i suites).1 ∧
      ∀ call answer, .tool (.api call answer) ∈ (g.runSuites worlds i suites).1 →
        Own g worlds suites call.resource := by
  induction suites generalizing i with
  | nil => exact ⟨Everywhere.nil,by simp [Setting.runSuites]⟩
  | cons suite rest ih =>
    obtain ⟨scope,plan,hp⟩ := hplaced suite List.mem_cons_self
    obtain ⟨hkept,habout⟩ := runSuite_kept worlds i hp (hpaths suite List.mem_cons_self)
    have hown : ∀ call answer, .tool (.api call answer) ∈ (g.runSuite suite (worlds i)).1 →
        Own g worlds (suite :: rest) call.resource := by
      intro call answer hmem
      obtain ⟨buf,hrandom,hresource⟩ := habout _ hmem call answer rfl
      exact ⟨suite,List.mem_cons_self,scope,plan,i,buf,hp,hrandom,hresource⟩
    unfold Setting.runSuites
    dsimp only
    split
    · refine ⟨everywhere_append hkept (everywhere_quiet (status_quiet _ _ _)),?_⟩
      intro call answer hmem
      rcases List.mem_append.mp hmem with hmem | hmem
      · exact hown call answer hmem
      · cases List.mem_singleton.mp hmem
    · obtain ⟨hmore,hmoreown⟩ := ih (i := i + 1)
        (fun s hs => hplaced s (List.mem_cons_of_mem _ hs))
        fun s hs => hpaths s (List.mem_cons_of_mem _ hs)
      dsimp only
      rw [← List.singleton_append (l := Setting.runSuites g worlds (i + 1) rest |>.1)]
      refine ⟨everywhere_append hkept (everywhere_append
        (everywhere_quiet (status_quiet _ _ _)) hmore),?_⟩
      intro call answer hmem
      rcases List.mem_append.mp hmem with hmem | hmem
      · exact hown call answer hmem
      rcases List.mem_append.mp hmem with hmem | hmem
      · cases List.mem_singleton.mp hmem
      · obtain ⟨s,hs,hrest⟩ := hmoreown call answer hmem
        exact ⟨s,List.mem_cons_of_mem _ hs,hrest⟩

private theorem summary_quiet (results : List SuiteResult) : ∀ e ∈ g.summary results, ∃ line,
    e = .print line := by
  intro e he
  unfold Setting.summary at he
  split at he
  · cases he
  · simp only [List.mem_cons,List.mem_map] at he
    rcases he with rfl | rfl | ⟨r,_,rfl⟩ <;> exact ⟨_,rfl⟩

private theorem selectSuites_subset {suiteFilter : String} {suites selected : List Suite}
    (h : Setting.selectSuites suiteFilter suites = .ok selected) : selected ⊆ suites := by
  unfold Setting.selectSuites at h
  split at h
  · cases h
    exact List.Subset.refl _
  split at h
  · rename_i s hs
    cases h
    intro t ht
    rw [List.mem_singleton.mp ht]
    exact List.mem_of_find?_eq_some hs
  · cases h

/-- Without an error the tests were run. -/
theorem deployAndTest_passed {runID fullEnvName : String}
    (h : (g.deployAndTest suite w runID fullEnvName).2 = none) :
    .exec "bazel" (g.testArgs suite fullEnvName) true ∈
      (g.deployAndTest suite w runID fullEnvName).1 := by
  unfold Setting.deployAndTest at h ⊢
  dsimp only at h ⊢
  split at h
  · cases h
  · split at h
    · cases h
    · simp

private theorem runSuite_passed {i : Nat} (hplaced : Placed g.ws suite scope plan)
    (h : (g.runSuite suite (worlds i)).2 = none) : ∃ fullEnvName,
      .exec "bazel" (g.testArgs suite fullEnvName) true ∈ (g.runSuite suite (worlds i)).1 := by
  cases hrandom : (worlds i).random with
  | error e =>
    unfold Setting.runSuite at h
    rw [hrandom] at h
    cases h
  | ok buf =>
    obtain ⟨warnings,hevents⟩ := runSuite_events (g := g) hplaced hrandom
    have hran : (g.deployAndTest suite (worlds i) (runIdOf buf)
        (scope ++ "." ++ runIdOf buf)).2 = none := by
      unfold Setting.runSuite at h
      simp only [hrandom,hplaced.parsed,hplaced.cut] at h
      split at h
      · cases h
      · cases h
      · assumption
      · assumption
    refine ⟨scope ++ "." ++ runIdOf buf,?_⟩
    rw [hevents]
    exact List.mem_append_left _ (List.mem_append_right _ (deployAndTest_passed hran))

private theorem runSuites_passed {suites : List Suite} {i : Nat}
    (hplaced : ∀ suite ∈ suites, ∃ scope plan, Placed g.ws suite scope plan)
    (h : (g.runSuites worlds i suites).2.2 = none) : ∀ suite ∈ suites, ∃ fullEnvName,
      .exec "bazel" (g.testArgs suite fullEnvName) true ∈ (g.runSuites worlds i suites).1 := by
  induction suites generalizing i with
  | nil => simp
  | cons first rest ih =>
    obtain ⟨scope,plan,hp⟩ := hplaced first List.mem_cons_self
    unfold Setting.runSuites at h ⊢
    dsimp only at h ⊢
    split at h
    · cases h
    · rename_i hran
      dsimp only at h ⊢
      intro suite hsuite
      rcases List.mem_cons.mp hsuite with rfl | hsuite
      · obtain ⟨fullEnvName,hmem⟩ := runSuite_passed hp hran
        exact ⟨fullEnvName,List.mem_append_left _ hmem⟩
      · obtain ⟨fullEnvName,hmem⟩ := ih (fun s hs => hplaced s (List.mem_cons_of_mem _ hs)) h
          suite hsuite
        exact ⟨fullEnvName,List.mem_append_right _ (List.mem_cons_of_mem _ hmem)⟩

/-- However its commands end, a run of a plan calls for environments of its own only, and deletes
each that it has created or updated before it calls for another.  Its tests are told an environment
that the last call before them found ready.  A run without an error has tested all its suites. -/
theorem run_cleans_up (g : Setting) (cfg : Config) (suiteFilter : String)
    (worlds : Nat → SuiteWorld) (hpaths : ∀ suite ∈ cfg.suites,
      Text.trimSpace (g.ws.resolvePath suite.deploy) = g.ws.resolvePath suite.deploy) :
    Everywhere (Kept worlds) (g.run cfg suiteFilter worlds).1 ∧
      (∀ call answer, .tool (.api call answer) ∈ (g.run cfg suiteFilter worlds).1 →
        Own g worlds cfg.suites call.resource) ∧
      ((g.run cfg suiteFilter worlds).2 = none →
        ∃ suites, Setting.selectSuites suiteFilter cfg.suites = .ok suites ∧
          ∀ suite ∈ suites, ∃ fullEnvName, .exec "bazel" (g.testArgs suite fullEnvName) true ∈
            (g.run cfg suiteFilter worlds).1) := by
  unfold Setting.run
  split
  · exact ⟨Everywhere.nil,by simp,nofun⟩
  rename_i hvalid
  split
  · exact ⟨Everywhere.nil,by simp,nofun⟩
  rename_i selected hselected
  have hsubset := selectSuites_subset hselected
  have hplaced : ∀ suite ∈ selected, ∃ scope plan, Placed g.ws suite scope plan :=
    fun s hs => placed_of_validate hvalid s (hsubset hs)
  obtain ⟨hkept,hown⟩ := runSuites_kept worlds (i := 0) hplaced
    fun s hs => hpaths s (hsubset hs)
  dsimp only
  refine ⟨everywhere_append hkept (everywhere_quiet fun e he => ?_),?_,fun hnone => ?_⟩
  · obtain ⟨line,rfl⟩ := summary_quiet _ e he
    trivial
  · intro call answer hmem
    rcases List.mem_append.mp hmem with hmem | hmem
    · obtain ⟨s,hs,hrest⟩ := hown call answer hmem
      exact ⟨s,hsubset hs,hrest⟩
    · obtain ⟨line,hline⟩ := summary_quiet _ _ hmem
      cases hline
  · refine ⟨selected,hselected,fun suite hsuite => ?_⟩
    obtain ⟨fullEnvName,hmem⟩ := runSuites_passed hplaced hnone suite hsuite
    exact ⟨fullEnvName,List.mem_append_left _ hmem⟩

end run

/-! A concrete run: an environment is created and tested, and the command that would delete it is
not answered. -/

def demoPlan : DeployPlan where
  name := "game.\x7b\x7brun\x7d\x7d"
  services := []
  desc := "tests"
  type := .test
  version := "3.0"

def demoSetting : Setting where
  ws :=
    { root := "/src"
      working := "/src"
      parseDeployConfig path :=
        if path = "/src/deploy.yaml" then .ok demoPlan else .error "no such file"
      rootAbs := rfl
      workingAbs := rfl }
  hostname := .ok
  upper := id
  useColor := false

def demoConfig : Config where
  name := "plan"
  suites := [{ name := "a", deploy := "//deploy.yaml", cases := ["//case:a"] }]

def demoWorld : SuiteWorld where
  random := .ok fun _ => 0
  build _ := .ok {}
  apply :=
    { answers := [
        { reply := .error { text := "not found", notFound := true } },
        { reply := .ok none },
        { reply := .ok (some ⟨.ready,""⟩) }] }
  describe := {}
  cleanup := {}
  settle := none
  test := none

def demoCreated : Event :=
  .tool (.api (.create "deploy/scopes/game" "lt000000" "tests" .test {})
    (some { reply := .ok none }))

theorem run_cleans_up_demo : ∃ before after,
    (demoSetting.run demoConfig "" fun _ => demoWorld).1 = before ++ demoCreated :: after ∧
      Cleaned (fun _ => demoWorld) "deploy/scopes/game/environments/lt000000" after := by
  have hkept := (run_cleans_up demoSetting demoConfig "" (fun _ => demoWorld)
    (by decide)).1
  have hevent : (demoSetting.run demoConfig "" fun _ => demoWorld).1[5]? = some demoCreated := by
    decide
  obtain ⟨before,after,hevents⟩ := List.append_of_mem (List.mem_of_getElem? hevent)
  exact ⟨before,after,hevents,hkept before demoCreated after hevents rfl⟩

end Dominion.Guitar
