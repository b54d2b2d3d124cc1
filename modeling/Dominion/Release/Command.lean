import Dominion.Framework.Exchange
import Dominion.Framework.Substrings
import Dominion.Deploy.Domain.Environment
import Dominion.Release.Compiler
import Dominion.Release.References
import Dominion.Solver.TargetText

/-! # The deploy command

`deploy apply`, `deploy del` and `deploy describe`: the calls that each makes to the deploy service
and how it goes on with the answers. -/
namespace Dominion.Release

open Dominion.Framework
open Dominion.Deploy.Domain (EnvironmentName EnvironmentState environmentNameRegexp goQuote)
open Dominion.Solver (cutChar cutChar_append)

/-! ## Configurations and paths -/

inductive EnvironmentType
  | prod
  | dev
  | test
  | other (text : String)
  deriving DecidableEq, Repr

def EnvironmentType.text : EnvironmentType → String
  | .prod => "prod"
  | .dev => "dev"
  | .test => "test"
  | .other text => text

def environmentTypeFromEnum : EnvironmentType → Dominion.Deploy.Domain.EnvironmentType
  | .prod => .prod
  | .test => .test
  | .dev => .dev
  | .other _ => .unspecified

/-- A deploy file. -/
structure DeployPlan extends DeployConfig where
  desc : String
  type : EnvironmentType
  version : String

/-- Where the commands run and what the deploy files hold. -/
structure Workspace where
  root : String
  working : String
  parseDeployConfig : String → Except String DeployPlan
  rootAbs : root.toList.head? = some '/'
  workingAbs : working.toList.head? = some '/'

namespace Workspace

variable (ws : Workspace)

def resolvePath (inputPath : String) : String :=
  if (cutWorkspacePath inputPath).isSome then resolveRootPath ws.root inputPath
  else if inputPath.toList.head? = some '/' then inputPath
  else Text.joinPath [ws.working,inputPath]

def parseV3DeployConfig (filePath : String) : Except String DeployPlan :=
  match ws.parseDeployConfig filePath with
  | .error e => .error e
  | .ok config =>
    if config.version ≠ "3.0" then
      .error ("deploy config version is " ++ goQuote config.version ++
        ", expected \"3.0\"; use deploy v2 for 2.0 configs")
    else .ok config

end Workspace

/-! ## Names -/

/-- `^[a-z][a-z0-9]{0,7}\.[a-z][a-z0-9]{0,7}$`. -/
def fullEnvRegexp (name : String) : Bool :=
  match cutChar name '.' with
  | some (scope,envName) => environmentNameRegexp scope && environmentNameRegexp envName
  | none => false

def parseFullEnvName (name : String) : Except String (String × String) :=
  if fullEnvRegexp name then .ok ((cutChar name '.').getD (name,""))
  else
    .error ("非法完整环境名，须使用 \x7bscope\x7d.\x7benv_name\x7d 格式: " ++ goQuote name)

def scopeResourceName (scope : String) : String :=
  "deploy/scopes/" ++ scope

def environmentResourceName (scope envName : String) : String :=
  scopeResourceName scope ++ "/environments/" ++ envName

theorem toString_environmentName (n : Deploy.Domain.EnvironmentName) :
    n.toString = environmentResourceName n.scope n.envName :=
  rfl

def placeholderRun : String := "\x7b\x7brun\x7d\x7d"

/-- The leftmost match of two opening braces, characters that close none, and two closing ones. -/
def placeholder : List Char → Option (List Char)
  | [] => none
  | c :: cs =>
    match c :: cs with
    | '\x7b' :: '\x7b' :: rest =>
      let inner := rest.takeWhile (· ≠ '\x7d')
      if inner ≠ [] ∧ ['\x7d','\x7d'].isPrefixOf (rest.drop inner.length) then
        some ('\x7b' :: '\x7b' :: inner ++ ['\x7d','\x7d'])
      else placeholder cs
    | _ => placeholder cs

def resolvePlaceholders (name : String) (envType : EnvironmentType) (run : String) :
    Except String String :=
  let count := Substrings.count placeholderRun.toList name.toList
  let withoutRun := Substrings.replaceAll placeholderRun.toList [] name.toList
  if count = 0 ∧ run = "" then .ok name
  else if count = 0 then .error ("--run 仅用于含 " ++ placeholderRun ++ " 的 deploy 配置")
  else if envType ≠ .test then .error ("只有 test 类型允许使用 " ++ placeholderRun ++ " 占位符")
  else if run = "" then .error ("deploy 配置含 " ++ placeholderRun ++ " 但未传 --run 参数")
  else if 1 < count then .error ("deploy 配置中 " ++ placeholderRun ++ " 占位符出现多次")
  else
    match placeholder withoutRun with
    | some unknown =>
      .error ("deploy 配置含未知占位符 " ++ goQuote (String.ofList unknown) ++ "，仅支持 " ++
        placeholderRun)
    | none =>
      if environmentNameRegexp run then
        .ok (String.ofList (Substrings.replaceAll placeholderRun.toList run.toList name.toList))
      else
        .error ("--run 值 " ++ goQuote run ++ " 不合法，须匹配 ^[a-z][a-z0-9]\x7b0,7\x7d$")

/-! ## The calls -/

structure EnvironmentStatus where
  state : EnvironmentState
  message : String
  deriving DecidableEq, Repr

structure ClientError where
  text : String
  notFound : Bool := false
  deadlineExceeded : Bool := false
  deriving DecidableEq, Repr

/-- The answer to a call, with the status of the environment in it. -/
structure Answer where
  reply : Except ClientError (Option EnvironmentStatus)
  /-- The time of the polling ends after this answer, with the error of its context. -/
  timeUp : Option String := none
  deriving DecidableEq

inductive ApiCall
  | get (name : String)
  | create (parent envName description : String) (type : Dominion.Deploy.Domain.EnvironmentType)
    (desiredState : EnvironmentDesiredState)
  | update (name : String) (desiredState : EnvironmentDesiredState)
  | delete (name : String)
  deriving DecidableEq, Repr

namespace ApiCall

/-- The environment that a call is about. -/
def resource : ApiCall → String
  | .get name => name
  | .create parent envName _ _ _ => parent ++ "/environments/" ++ envName
  | .update name _ => name
  | .delete name => name

/-- A call after which the environment is to exist. -/
def applies : ApiCall → Bool
  | .create _ _ _ _ _ => true
  | .update _ _ => true
  | _ => false

end ApiCall

inductive CommandEvent
  /-- A call, with the answer if one came before the command was cut off. -/
  | api (call : ApiCall) (answer : Option Answer)
  | print (line : String)
  deriving DecidableEq

abbrev Command := Exchange CommandEvent Answer (Except String Unit)

def formatState : EnvironmentState → String
  | .pending => "等待中"
  | .reconciling => "部署中"
  | .ready => "就绪"
  | .failed => "失败"
  | .deleting => "删除中"
  | .waitingRollout => "等待滚动发布"
  | .unspecified => ""

/-! ## Polling -/

def polling (what name error : String) : String :=
  "poll until " ++ what ++ " for " ++ goQuote name ++ ": " ++ error

/-- The error of a polling whose time is over. -/
def expired (what name : String) (answer : Answer) : Option String :=
  answer.timeUp.map (polling what name)

def readySettled (name : String) (answer : Answer) : Option (Except String EnvironmentStatus) :=
  match answer.reply with
  | .error e =>
    some (.error (if e.deadlineExceeded then polling "ready" name e.text else e.text))
  | .ok status =>
    match status with
    | some ⟨.ready,message⟩ => some (.ok ⟨.ready,message⟩)
    | some ⟨.failed,message⟩ =>
      some (.error (polling "ready" name ("deploy client: environment failed: " ++ message)))
    | _ => (expired "ready" name answer).map .error

def pollUntilReady (name : String) :
    Exchange CommandEvent Answer (Except String EnvironmentStatus) :=
  .poll (.api (.get name)) (readySettled name)

def deletedSettled (name : String) (answer : Answer) : Option (Except String Unit) :=
  match answer.reply with
  | .ok _ => (expired "deleted" name answer).map .error
  | .error e =>
    if e.notFound then some (.ok ())
    else some (.error (if e.deadlineExceeded then polling "deleted" name e.text else e.text))

def pollUntilDeleted (name : String) : Command :=
  .poll (.api (.get name)) (deletedSettled name)

/-! ## The commands -/

/-- What `apply` has found out before its first call. -/
structure Request where
  fullEnvName : String
  scope : String
  envName : String
  plan : DeployPlan
  desiredState : EnvironmentDesiredState

/-- `build` reads the service configurations, pushes the images and compiles them. -/
def applyRequest (ws : Workspace) (build : DeployPlan → Except String EnvironmentDesiredState)
    (run target : String) : Except String Request := do
  let deployConfig ← ws.parseV3DeployConfig (ws.resolvePath target)
  let envName ← resolvePlaceholders deployConfig.name deployConfig.type run
  let desiredState ← build deployConfig
  let fullEnvName := Text.trimSpace envName
  let (scope,envName) ← parseFullEnvName fullEnvName
  return ⟨fullEnvName,scope,envName,deployConfig,desiredState⟩

def Request.resource (r : Request) : String :=
  environmentResourceName r.scope r.envName

/-- The environment is created if it does not exist and updated if it does. -/
def Request.submit (r : Request) : Command := do
  let found ← .ask (.api (.get r.resource))
  match found.reply with
  | .error e =>
    if e.notFound then
      let created ← .ask (.api (.create (scopeResourceName r.scope) r.envName r.plan.desc
        (environmentTypeFromEnum r.plan.type) r.desiredState))
      pure (created.reply.mapError ClientError.text |>.map fun _ => ())
    else pure (.error e.text)
  | .ok _ =>
    let updated ← .ask (.api (.update r.resource r.desiredState))
    pure (updated.reply.mapError ClientError.text |>.map fun _ => ())

def Request.apply (r : Request) : Command := do
  match ← r.submit with
  | .error e => pure (.error e)
  | .ok _ =>
    Exchange.tell (.print ("环境 " ++ r.fullEnvName ++ " 已提交，等待启动..."))
    match ← pollUntilReady r.resource with
    | .error e => pure (.error e)
    | .ok status =>
      let state := formatState status.state
      Exchange.tell (.print ("环境 " ++ r.fullEnvName ++ " 已应用" ++
        if state = "" then "" else "，状态: " ++ state))
      pure (.ok ())

def applyCommand (ws : Workspace) (build : DeployPlan → Except String EnvironmentDesiredState)
    (run target : String) : Command :=
  match applyRequest ws build run target with
  | .error e => pure (.error e)
  | .ok r => r.apply

def deleteCommand (target : String) : Command :=
  let fullEnvName := Text.trimSpace target
  match parseFullEnvName fullEnvName with
  | .error e => pure (.error e)
  | .ok (scope,envName) => do
    let resourceName := environmentResourceName scope envName
    let deleted ← .ask (.api (.delete resourceName))
    match deleted.reply with
    | .error e => pure (.error e.text)
    | .ok _ =>
      match ← pollUntilDeleted resourceName with
      | .error e => pure (.error e)
      | .ok _ =>
        Exchange.tell (.print ("环境 " ++ fullEnvName ++ " 已删除"))
        pure (.ok ())

/-- The services of the environment are listed after its state. -/
def describeCommand (target : String) : Command :=
  let fullEnvName := Text.trimSpace target
  match parseFullEnvName fullEnvName with
  | .error e => pure (.error e)
  | .ok (scope,envName) => do
    let found ← .ask (.api (.get (environmentResourceName scope envName)))
    match found.reply with
    | .error e =>
      if e.notFound then Exchange.tell (.print ("环境 " ++ fullEnvName ++ " 不存在"))
      pure (.error e.text)
    | .ok status =>
      let state := (status.map fun s => formatState s.state).getD ""
      Exchange.tell (.print ("环境 " ++ fullEnvName))
      Exchange.tell (.print ("状态: " ++ if state = "" then "未知" else state))
      pure (.ok ())

/-! ## Paths -/

private theorem slash_not_mem_splitOn (cs : List Char) :
    ∀ segment ∈ cs.splitOn '/', '/' ∉ segment := by
  simp only [List.splitOn_eq_splitOnP]
  induction cs with
  | nil => simp
  | cons c cs ih =>
    rw [List.splitOnP_cons_eq_if_modifyHead]
    split
    · intro segment hs
      rcases List.mem_cons.mp hs with rfl | hs
      · exact List.not_mem_nil
      · exact ih segment hs
    · rename_i hc
      cases hsplit : cs.splitOnP (· == '/') with
      | nil => simp
      | cons first rest =>
        rw [hsplit] at ih
        intro segment hs
        rcases List.mem_cons.mp hs with rfl | hs
        · simp only [List.mem_cons,not_or]
          exact ⟨fun he => hc (by simp [← he]),ih first List.mem_cons_self⟩
        · exact ih segment (List.mem_cons_of_mem _ hs)

/-- Below the root of the file system every component of a clean path is a name. -/
theorem plain_cleanComponents {parts out : List (List Char)} (hparts : ∀ s ∈ parts, '/' ∉ s)
    (hout : ∀ s ∈ out, Plain s) : ∀ s ∈ Text.cleanComponents true parts out, Plain s := by
  induction parts generalizing out with
  | nil => exact hout
  | cons part rest ih =>
    have hrest : ∀ s ∈ rest, '/' ∉ s := fun s hs => hparts s (List.mem_cons_of_mem _ hs)
    by_cases hstay : part = [] ∨ part = ['.']
    · rw [Location.clean_stay hstay]
      exact ih hrest hout
    by_cases hup : part = ['.','.']
    · subst hup
      cases out with
      | nil => exact ih hrest hout
      | cons last out =>
        rw [Location.clean_up (hout last List.mem_cons_self).2.2.1]
        exact ih hrest fun s hs => hout s (List.mem_cons_of_mem _ hs)
    · have hplain : Plain part :=
        ⟨fun h => hstay (Or.inl h),fun h => hstay (Or.inr h),hup,hparts part List.mem_cons_self⟩
      rw [Location.clean_child hplain]
      apply ih hrest
      intro s hs
      rcases List.mem_cons.mp hs with rfl | hs
      · exact hplain
      · exact hout s hs

/-- A path joined to an absolute one is absolute, with one slash in front. -/
theorem joinPath_abs {base : String} (hbase : base.toList.head? = some '/') (path : String) :
    ∃ p : Location, Text.joinPath [base,path] = String.ofList ('/' :: p.text) := by
  obtain ⟨joined,hjoined,hhead⟩ : ∃ joined : String,
      Text.joinPath [base,path] = Text.cleanPath joined ∧ joined.toList.head? = some '/' := by
    have hne : base ≠ "" := by
      rintro rfl
      cases hbase
    by_cases hpath : path = ""
    · exact ⟨base,by simp [Text.joinPath,hpath,hne],hbase⟩
    · refine ⟨base ++ "/" ++ path,?_,?_⟩
      · have hparts : "/".intercalate [base,path] = base ++ "/" ++ path :=
          String.toList_inj.mp (by simp)
        simp [Text.joinPath,hne,hpath,hparts]
      · rw [String.toList_append,String.toList_append,List.append_assoc]
        rw [List.head?_append_of_ne_nil _ (by simpa using hne),hbase]
  have hplain : ∀ s ∈ Text.cleanComponents true (joined.toList.splitOn '/') [],Plain s :=
    plain_cleanComponents (slash_not_mem_splitOn joined.toList) (by simp)
  refine ⟨⟨(Text.cleanComponents true (joined.toList.splitOn '/') []).reverse,
    fun s hs => hplain s (List.mem_reverse.mp hs)⟩,?_⟩
  rw [hjoined]
  unfold Text.cleanPath
  simp only [hhead,beq_self_eq_true,if_true]
  rfl

/-- A resolved path stands for itself. -/
theorem resolvePath_resolved (ws : Workspace) (inputPath : String) :
    ws.resolvePath (ws.resolvePath inputPath) = ws.resolvePath inputPath := by
  have habs : ∀ p : Location, ws.resolvePath (String.ofList ('/' :: p.text)) =
      String.ofList ('/' :: p.text) := by
    intro p
    have hcut : cutWorkspacePath (String.ofList ('/' :: p.text)) = none := by
      unfold cutWorkspacePath
      rw [String.toList_ofList]
      split
      · rename_i rest heq
        have htext : p.text = '/' :: rest := (List.cons.inj heq).2
        exact absurd (by rw [htext]; rfl) p.head?_text_ne
      · rfl
    rw [Workspace.resolvePath,hcut,if_neg (by simp),if_pos (by rw [String.toList_ofList]; rfl)]
  by_cases hcut : (cutWorkspacePath inputPath).isSome = true
  · obtain ⟨p,hp⟩ := joinPath_abs ws.rootAbs (trimWorkspacePath inputPath)
    have hresolve : ws.resolvePath inputPath = String.ofList ('/' :: p.text) := by
      rw [Workspace.resolvePath,if_pos hcut,resolveRootPath,hp]
    rw [hresolve,habs]
  · by_cases hhead : inputPath.toList.head? = some '/'
    · have hresolve : ws.resolvePath inputPath = inputPath := by
        rw [Workspace.resolvePath,if_neg hcut,if_pos hhead]
      rw [hresolve,hresolve]
    · obtain ⟨p,hp⟩ := joinPath_abs ws.workingAbs inputPath
      have hresolve : ws.resolvePath inputPath = String.ofList ('/' :: p.text) := by
        rw [Workspace.resolvePath,if_neg hcut,if_neg hhead,hp]
      rw [hresolve,habs]

/-! ## Environment names -/

section names

variable {scope envName run word : String}

private theorem word_chars (h : environmentNameRegexp word = true) {c : Char}
    (hc : c ∈ word.toList) :
    (97 ≤ c.toNat ∧ c.toNat ≤ 122) ∨ (48 ≤ c.toNat ∧ c.toNat ≤ 57) := by
  have hword : ∀ d, (Dominion.Deploy.Domain.isLowerLetter d || Dominion.Deploy.Domain.isDigit d) =
      true → (97 ≤ d.toNat ∧ d.toNat ≤ 122) ∨ (48 ≤ d.toNat ∧ d.toNat ≤ 57) := by
    intro d hd
    simpa [Dominion.Deploy.Domain.isLowerLetter,Dominion.Deploy.Domain.isDigit,Char.le_def,
      UInt32.le_iff_toNat_le] using hd
  unfold environmentNameRegexp at h
  split at h
  · cases h
  · rename_i first rest hlist
    simp only [Bool.and_eq_true,List.all_eq_true] at h
    rw [hlist] at hc
    rcases List.mem_cons.mp hc with rfl | hc
    · exact hword c (by rw [h.1,Bool.true_or])
    · exact hword c (h.2.2 c hc)

private theorem word_ne (h : environmentNameRegexp word = true) {d : Char}
    (hd : d.toNat < 48 ∨ 122 < d.toNat ∨ d = '.') : d ∉ word.toList := by
  intro hmem
  have hchars := word_chars h hmem
  rcases hd with hd | hd | rfl
  · omega
  · omega
  · have hdot : ('.' : Char).toNat = 46 := rfl
    omega

theorem isSpace_word (h : environmentNameRegexp word = true) {c : Char} (hc : c ∈ word.toList) :
    Text.isSpace c = false := by
  have hchars := word_chars h hc
  unfold Text.isSpace
  simp only [List.mem_cons,List.not_mem_nil,or_false,Bool.or_eq_false_iff,decide_eq_false_iff_not,
    Bool.and_eq_false_iff]
  omega

private theorem label_toList (scope envName : String) :
    (scope ++ "." ++ envName).toList = scope.toList ++ '.' :: envName.toList := by
  simp [String.toList_append]

private theorem trimSpace_label (hscope : environmentNameRegexp scope = true)
    (hname : environmentNameRegexp envName = true) :
    Text.trimSpace (scope ++ "." ++ envName) = scope ++ "." ++ envName := by
  apply Text.trimSpace_of_forall
  intro c hc
  rw [label_toList] at hc
  rcases List.mem_append.mp hc with hc | hc
  · exact isSpace_word hscope hc
  · rcases List.mem_cons.mp hc with rfl | hc
    · decide
    · exact isSpace_word hname hc

theorem cut_label (hscope : environmentNameRegexp scope = true) (envName : String) :
    cutChar (scope ++ "." ++ envName) '.' = some (scope,envName) := by
  have hdot : '.' ∉ scope.toList := word_ne hscope (Or.inr (Or.inr rfl))
  have hcut := cutChar_append hdot envName.toList
  rw [String.ofList_toList,String.ofList_toList] at hcut
  rw [← hcut,← label_toList,String.ofList_toList]

/-- A text is what was cut out of it. -/
theorem eq_of_cut {s before after : String} (h : cutChar s '.' = some (before,after)) :
    s = before ++ "." ++ after := by
  unfold cutChar at h
  split at h
  · rename_i hdot
    cases h
    apply String.toList_inj.mp
    rw [label_toList,String.toList_ofList,String.toList_ofList]
    exact cut_at hdot
  · cases h

private theorem parseFullEnvName_label (hscope : environmentNameRegexp scope = true)
    (hname : environmentNameRegexp envName = true) :
    parseFullEnvName (scope ++ "." ++ envName) = .ok (scope,envName) := by
  have hregexp : fullEnvRegexp (scope ++ "." ++ envName) = true := by
    rw [fullEnvRegexp,cut_label hscope]
    simp only [hscope,hname,Bool.and_self]
  rw [parseFullEnvName,if_pos hregexp,cut_label hscope]
  rfl

private theorem placeholder_none {cs : List Char} (h : ∀ c ∈ cs, c ≠ '\x7b') :
    placeholder cs = none := by
  induction cs with
  | nil => rfl
  | cons c cs ih =>
    unfold placeholder
    split
    · rename_i heq
      exact (h c List.mem_cons_self (List.cons.inj heq).1).elim
    · exact ih fun d hd => h d (List.mem_cons_of_mem _ hd)

/-- The placeholder of a test environment becomes the run. -/
theorem resolvePlaceholders_run (hscope : environmentNameRegexp scope = true)
    (hrun : environmentNameRegexp run = true) :
    resolvePlaceholders (scope ++ "." ++ placeholderRun) .test run =
      .ok (scope ++ "." ++ run) := by
  have hfront : ∀ c ∈ scope.toList ++ ['.'], c ≠ '\x7b' := by
    intro c hc he
    rcases List.mem_append.mp hc with hc | hc
    · exact word_ne hscope (Or.inr (Or.inl (by decide))) (he ▸ hc)
    · rw [List.mem_singleton.mp hc] at he
      cases he
  have hlist : (scope ++ "." ++ placeholderRun).toList =
      (scope.toList ++ ['.']) ++ placeholderRun.toList := by
    rw [label_toList]
    simp
  have hpieces : Substrings.pieces placeholderRun.toList
      ((scope.toList ++ ['.']) ++ placeholderRun.toList) = [scope.toList ++ ['.'],[]] :=
    Substrings.pieces_last hfront
  have hne : run ≠ "" := by
    rintro rfl
    exact absurd hrun (by decide)
  have hcount : Substrings.count placeholderRun.toList
      (scope ++ "." ++ placeholderRun).toList = 1 := by
    rw [hlist,Substrings.count,hpieces]
    rfl
  have hreplace : ∀ new : List Char, Substrings.replaceAll placeholderRun.toList new
      (scope ++ "." ++ placeholderRun).toList = (scope.toList ++ ['.']) ++ new := by
    intro new
    rw [hlist,Substrings.replaceAll,hpieces]
    simp [List.intercalate]
  have hunknown : placeholder (scope.toList ++ ['.'] ++ []) = none := by
    rw [List.append_nil]
    exact placeholder_none hfront
  unfold resolvePlaceholders
  simp only [hcount,hreplace,hunknown]
  rw [if_neg (by simp),if_neg (by simp),if_neg (by simp),if_neg hne,if_neg (by simp),if_pos hrun]
  congr 1
  rw [← String.ofList_toList (s := scope ++ "." ++ run),label_toList]
  simp

end names

/-! ## What the commands do -/

namespace CommandEvent

/-- Calls are about one environment. -/
def About (resource : String) : CommandEvent → Prop
  | .api call _ => call.resource = resource
  | .print _ => True

/-- Apart from prints, the events end with the environment being ready. -/
def Ready (resource : String) (events : List CommandEvent) : Prop :=
  ∃ before answer message, ∃ lines : List String,
    events = before ++ .api (.get resource) (some answer) :: lines.map .print ∧
      answer.reply = .ok (some ⟨.ready,message⟩)

/-- Nothing is created or updated. -/
def Reads : CommandEvent → Prop
  | .api call _ => call.applies = false
  | .print _ => True

end CommandEvent

open CommandEvent Exchange

section commands

variable {resource : String}

private theorem call_meets {call : ApiCall} (h : call.resource = resource) :
    Meets (About resource) (fun _ _ => True) (ask (.api call)) :=
  Meets.ask (fun _ => h) fun _ => trivial

private theorem submit_meets (r : Request) :
    Meets (About r.resource) (fun _ _ => True) r.submit := by
  refine Meets.bind (call_meets ?_) fun es found _ => ?_
  · rfl
  cases found.reply with
  | error e =>
    dsimp only
    split
    · refine Meets.bind (call_meets ?_) fun es' created _ => Meets.pure trivial
      rfl
    · exact Meets.pure trivial
  | ok status =>
    refine Meets.bind (call_meets ?_) fun es' updated _ => Meets.pure trivial
    rfl

private theorem pollUntilReady_meets (resource : String) :
    Meets (About resource) (fun es x => ∀ status, x = .ok status → Ready resource es)
      (pollUntilReady resource) := by
  refine Meets.poll (fun _ => rfl) ?_
  intro before answer x hx status hstatus
  subst hstatus
  unfold readySettled at hx
  split at hx
  · cases hx
  · rename_i found hreply
    split at hx
    · rename_i message
      exact ⟨before,answer,message,[],rfl,hreply⟩
    · cases hx
    · cases htime : expired "ready" resource answer <;> rw [htime] at hx <;> cases hx

/-- `apply` succeeds only when the environment was just found ready. -/
theorem apply_meets (r : Request) :
    Meets (About r.resource) (fun es x => x = .ok () → Ready r.resource es) r.apply := by
  refine Meets.bind (submit_meets r) fun es submitted _ => ?_
  cases submitted with
  | error e => exact Meets.pure nofun
  | ok _ =>
    refine Meets.bind (Q := fun _ _ => True) (Meets.tell trivial trivial) fun es₂ _ _ => ?_
    refine Meets.bind (pollUntilReady_meets r.resource) fun es₃ ready hready => ?_
    cases ready with
    | error e => exact Meets.pure nofun
    | ok status =>
      dsimp only
      refine Meets.bind (Q := fun es _ => ∃ line, es = [.print line])
        (Meets.tell trivial ⟨_,rfl⟩) ?_
      rintro _ _ ⟨line,rfl⟩
      apply Meets.pure
      intro _
      obtain ⟨before,answer,message,lines,rfl,hreply⟩ := hready status rfl
      refine ⟨es ++ (es₂ ++ before),answer,message,lines ++ [line],?_,hreply⟩
      simp

private theorem pollUntilDeleted_meets (resource : String) :
    Meets (fun e => About resource e ∧ Reads e) (fun _ _ => True) (pollUntilDeleted resource) :=
  Meets.poll (fun _ => ⟨rfl,rfl⟩) fun _ _ _ _ => trivial

variable {scope envName run target : String} {ws : Workspace} {plan : DeployPlan}
  {build : DeployPlan → Except String EnvironmentDesiredState}

/-- The request of a test plan is about the environment of the run. -/
theorem applyRequest_resource (hscope : environmentNameRegexp scope = true)
    (hrun : environmentNameRegexp run = true)
    (hplan : ws.parseDeployConfig (ws.resolvePath target) = .ok plan)
    (hname : plan.name = scope ++ "." ++ placeholderRun) (htype : plan.type = .test)
    {r : Request} (h : applyRequest ws build run target = .ok r) :
    r.resource = environmentResourceName scope run := by
  unfold applyRequest at h
  obtain ⟨config,hconfig,h⟩ := ok_of_bind h
  have hsame : config = plan := by
    unfold Workspace.parseV3DeployConfig at hconfig
    rw [hplan] at hconfig
    dsimp only at hconfig
    split at hconfig
    · cases hconfig
    · exact (Except.ok.inj hconfig).symm
  subst hsame
  rw [hname,htype,resolvePlaceholders_run hscope hrun] at h
  obtain ⟨envName,henv,h⟩ := ok_of_bind h
  cases henv
  obtain ⟨state,hstate,h⟩ := ok_of_bind h
  obtain ⟨parts,hparts,h⟩ := ok_of_bind h
  rw [trimSpace_label hscope hrun,parseFullEnvName_label hscope hrun] at hparts
  cases hparts
  cases h
  rfl

/-- Applying a test plan calls for the environment of the run only. -/
theorem applyCommand_meets (hscope : environmentNameRegexp scope = true)
    (hrun : environmentNameRegexp run = true)
    (hplan : ws.parseDeployConfig (ws.resolvePath target) = .ok plan)
    (hname : plan.name = scope ++ "." ++ placeholderRun) (htype : plan.type = .test) :
    Meets (About (environmentResourceName scope run))
      (fun es x => x = .ok () → Ready (environmentResourceName scope run) es)
      (applyCommand ws build run target) := by
  unfold applyCommand
  split
  · exact Meets.pure nofun
  · rename_i r hrequest
    rw [← applyRequest_resource hscope hrun hplan hname htype hrequest]
    exact apply_meets r

private theorem deleteCommand_label (hscope : environmentNameRegexp scope = true)
    (hname : environmentNameRegexp envName = true) :
    deleteCommand (scope ++ "." ++ envName) = (do
      let deleted ← .ask (.api (.delete (environmentResourceName scope envName)))
      match deleted.reply with
      | .error e => pure (.error e.text)
      | .ok _ =>
        match ← pollUntilDeleted (environmentResourceName scope envName) with
        | .error e => pure (.error e)
        | .ok _ =>
          Exchange.tell (.print ("环境 " ++ (scope ++ "." ++ envName) ++ " 已删除"))
          pure (.ok ())) := by
  unfold deleteCommand
  rw [trimSpace_label hscope hname]
  simp only [parseFullEnvName_label hscope hname]

/-- Deleting an environment creates and updates nothing. -/
theorem deleteCommand_meets (hscope : environmentNameRegexp scope = true)
    (hname : environmentNameRegexp envName = true) :
    Meets (fun e => About (environmentResourceName scope envName) e ∧ Reads e) (fun _ _ => True)
      (deleteCommand (scope ++ "." ++ envName)) := by
  rw [deleteCommand_label hscope hname]
  refine Meets.bind (Q := fun _ _ => True) (Meets.ask (fun _ => ⟨rfl,rfl⟩) fun _ => trivial)
    fun es deleted _ => ?_
  cases deleted.reply with
  | error e => exact Meets.pure trivial
  | ok status =>
    refine Meets.bind (pollUntilDeleted_meets _) fun es' gone _ => ?_
    cases gone with
    | error e => exact Meets.pure trivial
    | ok _ =>
      exact Meets.bind (Q := fun _ _ => True) (Meets.tell ⟨trivial,trivial⟩ trivial)
        fun _ _ _ => Meets.pure trivial

/-- Its first call is the deletion. -/
theorem deleteCommand_head (hscope : environmentNameRegexp scope = true)
    (hname : environmentNameRegexp envName = true) (answers : List Answer) :
    (deleteCommand (scope ++ "." ++ envName) answers).1.head? =
      some (.api (.delete (environmentResourceName scope envName)) answers.head?) := by
  rw [deleteCommand_label hscope hname]
  cases answers <;> rfl

theorem describeCommand_meets (hscope : environmentNameRegexp scope = true)
    (hname : environmentNameRegexp envName = true) :
    Meets (fun e => About (environmentResourceName scope envName) e ∧ Reads e) (fun _ _ => True)
      (describeCommand (scope ++ "." ++ envName)) := by
  have hprint : ∀ line : String, Meets
      (fun e => About (environmentResourceName scope envName) e ∧ Reads e) (fun _ _ => True)
      (tell (ρ := Answer) (.print line)) := fun line => Meets.tell ⟨trivial,trivial⟩ trivial
  unfold describeCommand
  rw [trimSpace_label hscope hname]
  simp only [parseFullEnvName_label hscope hname]
  refine Meets.bind (Q := fun _ _ => True) (Meets.ask (fun _ => ⟨rfl,rfl⟩) fun _ => trivial)
    fun es found _ => ?_
  cases found.reply with
  | error e =>
    dsimp only
    split
    · exact Meets.bind (hprint _) fun _ _ _ => Meets.pure trivial
    · exact Meets.bind (Meets.pure (Q := fun _ _ => True) trivial) fun _ _ _ => Meets.pure trivial
  | ok status =>
    exact Meets.bind (hprint _) fun _ _ _ => Meets.bind (hprint _) fun _ _ _ => Meets.pure trivial

end commands

end Dominion.Release
