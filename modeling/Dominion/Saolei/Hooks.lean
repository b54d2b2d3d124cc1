import Dominion.Framework.Ecma
import Dominion.Framework.Lts
import Dominion.Game.Runtime
import Mathlib.Data.List.Infix
import Mathlib.Data.List.Sort

/-! # Hook scripts

The planner registers scripts; every batch of operations that changes the board and leaves the game
in progress runs them on the new board, and their results are announced. -/
namespace Dominion.Saolei.Hooks

open Dominion.Framework
open Dominion.Game (GameRuntime GameState Receipt OperateInput Effect)

/-- A string, as its UTF-16 code units. -/
abbrev JsString := List UInt16

def js (s : String) : JsString :=
  s.toList.flatMap fun c =>
    if c.toNat < 0x10000 then [UInt16.ofNat c.toNat]
    else [UInt16.ofNat (0xD800 + (c.toNat - 0x10000) / 0x400),
      UInt16.ofNat (0xDC00 + (c.toNat - 0x10000) % 0x400)]

namespace JsString

def isWhiteSpace (u : UInt16) : Bool :=
  Ecma.isWhiteSpace (Char.ofNat u.toNat)

def trim (s : JsString) : JsString :=
  ((s.dropWhile isWhiteSpace).reverse.dropWhile isWhiteSpace).reverse

/-- What stands before the first occurrence of `sep`, and what stands after it. -/
def cut (sep : JsString) : JsString → JsString × Option JsString
  | [] => if sep = [] then ([],some []) else ([],none)
  | u :: us =>
    if sep.isPrefixOf (u :: us) then ([],some ((u :: us).drop sep.length))
    else (u :: (cut sep us).1,(cut sep us).2)

end JsString

/-! ## Limits -/

def maxHooks : Nat := 8
def maxScriptChars : Nat := 16384
def maxOutputChars : Nat := 4096
def executionTimeoutMs : Nat := 500

/-! ## The sandbox -/

/-- A caught value: the string properties that it carries, and its text. -/
structure Thrown where
  code : Option JsString := none
  message : Option JsString := none
  name : Option JsString := none
  stack : Option JsString := none
  text : JsString

/-- What a script returns. -/
inductive Returned where
  | string (text : JsString)
  | undefined
  /-- Another value, with its `JSON.stringify` unless that throws or is no string. -/
  | value (serialized : Option JsString)

/-- The part of `node:vm` that compiles wrapped sources and runs scripts on a board. -/
structure Vm (σ : Type) where
  compile : JsString → Except Thrown σ
  run : σ → GameState → Except Thrown Returned

inductive HookRunResult where
  | output (text : JsString)
  | empty
  | error (message : JsString)
  | timeout
  | truncated (text : JsString)
  deriving DecidableEq

def bannedPatterns : List JsString :=
  [js "require(",js "import ",js "process.",js "globalThis.",js "global.",js "fetch(",
    js "child_process",js "eval(",js "Function("]

def wrapSource (source : JsString) : JsString :=
  js "(function(board) \x7b\n" ++ source ++ js "\n\x7d)(board)"

def errorMessage (error : Thrown) : JsString :=
  error.message.getD error.text

/-- The position block and the error line of a stack. -/
def stackHead (stack : JsString) : Option JsString :=
  let sections := JsString.cut (js "\n\n") stack
  let position := JsString.trim sections.1
  let errorLine := JsString.trim ((sections.2.map fun rest =>
    (JsString.cut (js "\n") (JsString.cut (js "\n\n") rest).1).1).getD [])
  let text := (js "\n").intercalate ([position,errorLine].filter (· ≠ []))
  if text = [] then none else some text

def compileDetail (error : Thrown) : JsString :=
  match error.stack.bind stackHead with
  | some block => block
  | none =>
    match error.name with
    | none => errorMessage error
    | some name => name ++ js ": " ++ errorMessage error

section sandbox

variable {σ : Type} (vm : Vm σ)

def compileHookScript (source : JsString) : Except JsString σ :=
  if maxScriptChars < source.length then
    .error (js "hook script exceeds the " ++ js maxScriptChars.repr ++ js "-character limit" ++
      js " (got " ++ js source.length.repr ++ js ")")
  else
    match bannedPatterns.find? fun pattern => decide (pattern <:+: source) with
    | some banned => .error (js "hook script uses a banned pattern: " ++ banned)
    | none =>
      match vm.compile (wrapSource source) with
      | .ok script => .ok script
      | .error error => .error (js "hook script does not compile:\n" ++ compileDetail error)

def textResult (text : JsString) : HookRunResult :=
  if text.length = 0 then .empty
  else if maxOutputChars < text.length then .truncated (text.take maxOutputChars)
  else .output text

def classifyOutput : Returned → HookRunResult
  | .string text => textResult text
  | .undefined => .error (js "output is not serializable")
  | .value none => .error (js "output is not serializable")
  | .value (some serialized) => textResult serialized

def isTimeout (error : Thrown) : Bool :=
  error.code == some (js "ERR_SCRIPT_EXECUTION_TIMEOUT")

def runHookScript (script : σ) (board : GameState) : HookRunResult :=
  match vm.run script board with
  | .error error => if isTimeout error then .timeout else .error (errorMessage error)
  | .ok returned => classifyOutput returned

end sandbox

/-! ## The registry -/

structure HookEntry (σ : Type) where
  name : JsString
  script : σ
  source : JsString
  order : Nat

structure HookSummary where
  name : JsString
  order : Nat
  length : Nat
  deriving DecidableEq

/-- The entries are a `Map`, in the order of their insertion. -/
structure HookRegistry (σ : Type) where
  entries : List (HookEntry σ) := []
  nextOrder : Nat := 0

namespace HookRegistry

variable {σ : Type} (vm : Vm σ) (r : HookRegistry σ)

def ordered : List (HookEntry σ) :=
  r.entries.insertionSort fun left right => left.order ≤ right.order

def names : JsString :=
  let names := r.ordered.map HookEntry.name
  if names = [] then js "(none)" else (js ", ").intercalate names

/-- `entries.set`. -/
def put (entry : HookEntry σ) : List (HookEntry σ) :=
  if r.entries.any fun e => decide (e.name = entry.name) then
    r.entries.map fun e => if e.name = entry.name then entry else e
  else r.entries ++ [entry]

/-- `set`; an error is a rejection. -/
def set (name source : JsString) : Except JsString (HookRegistry σ) :=
  if (JsString.trim name).length = 0 then .error (js "hook name must not be empty")
  else
    let existing := r.entries.find? fun e => decide (e.name = name)
    if existing.isNone ∧ maxHooks ≤ r.entries.length then
      .error (js "at most " ++ js maxHooks.repr ++ js " hooks can be registered" ++
        js " (already " ++ js r.entries.length.repr ++ js "); remove one before adding another")
    else
      match compileHookScript vm source with
      | .error rejection => .error rejection
      | .ok script =>
        match existing with
        | some e => .ok { r with entries := r.put ⟨name,script,source,e.order⟩ }
        | none => .ok
          { entries := r.put ⟨name,script,source,r.nextOrder⟩
            nextOrder := r.nextOrder + 1 }

def remove (name : JsString) : Except JsString (HookRegistry σ) :=
  if r.entries.any fun e => decide (e.name = name) then
    .ok { r with entries := r.entries.filter fun e => e.name ≠ name }
  else
    .error (js "no hook named \"" ++ name ++ js "\" is registered; registered hooks: " ++ r.names)

def list : List HookSummary :=
  r.ordered.map fun e => ⟨e.name,e.order,e.source.length⟩

def entriesInOrder : List (HookEntry σ) :=
  r.ordered

end HookRegistry

/-! ## The tool -/

/-- The arguments of a call: the declared fields, and the names of the other fields that are
defined. -/
structure SaoleiHookToolArgs where
  action : Option JsString := none
  name : Option JsString := none
  script : Option JsString := none
  others : List JsString := []

inductive NormalizedCall where
  | set (name script : JsString)
  | remove (name : JsString)
  | list

inductive SaoleiHookAction where
  | set
  | remove
  | list
  deriving DecidableEq

def SaoleiHookAction.text : SaoleiHookAction → JsString
  | set => js "set"
  | remove => js "remove"
  | list => js "list"

def saoleiHookActions : List SaoleiHookAction :=
  [.set,.remove,.list]

def acceptedFields : SaoleiHookAction → List JsString
  | .set => [js "name",js "script"]
  | .remove => [js "name"]
  | .list => []

def refuse (detail : JsString) : JsString :=
  js "saolei_hook → rejected: " ++ detail

def readAction (args : SaoleiHookToolArgs) : Option SaoleiHookAction :=
  args.action.bind fun text => saoleiHookActions.find? fun action => decide (action.text = text)

def unexpectedFields (args : SaoleiHookToolArgs) (action : SaoleiHookAction) : List JsString :=
  let keys := (args.name.map fun _ => js "name").toList ++
    (args.script.map fun _ => js "script").toList ++ args.others
  (keys.filter fun key => decide (key ∉ acceptedFields action)).insertionSort (· ≤ ·)

def normalizeCall (args : SaoleiHookToolArgs) : Except JsString NormalizedCall :=
  match readAction args with
  | none => .error (refuse (js "provide exactly one action: " ++
      (js ", ").intercalate (saoleiHookActions.map SaoleiHookAction.text)))
  | some action =>
    let unexpected := unexpectedFields args action
    if unexpected ≠ [] then
      .error (refuse (js "the " ++ action.text ++ js " action does not accept: " ++
        (js ", ").intercalate unexpected))
    else
      match action,args.name,args.script with
      | .set,some name,some script => .ok (.set name script)
      | .set,none,some _ => .error (refuse (js "the set action requires name"))
      | .set,some _,none => .error (refuse (js "the set action requires script"))
      | .set,none,none => .error (refuse (js "the set action requires name and script"))
      | .remove,some name,_ => .ok (.remove name)
      | .remove,none,_ => .error (refuse (js "the remove action requires name"))
      | .list,_,_ => .ok .list

section tool

variable {σ : Type} (vm : Vm σ)

def listText (r : HookRegistry σ) : JsString :=
  let entries := r.list
  if entries = [] then js "saolei_hook → no hooks registered"
  else js "registered hooks (execution order):\n" ++ (js "\n").intercalate (entries.map fun entry =>
    js "- " ++ entry.name ++ js " (order " ++ js entry.order.repr ++ js ", " ++
      js entry.length.repr ++ js " chars)")

def executeSaoleiHook (args : SaoleiHookToolArgs) (r : HookRegistry σ) :
    HookRegistry σ × JsString :=
  match normalizeCall args with
  | .error rejection => (r,rejection)
  | .ok (.set name script) =>
    match r.set vm name script with
    | .ok r' => (r',js "registered hook \"" ++ name ++ js "\"")
    | .error rejection => (r,refuse rejection)
  | .ok (.remove name) =>
    match r.remove name with
    | .ok r' => (r',js "removed hook \"" ++ name ++ js "\"")
    | .error rejection => (r,refuse rejection)
  | .ok .list => (r,listText r)

end tool

/-! ## The board-change handler -/

def announcementFor (name : JsString) : HookRunResult → Option JsString
  | .output text => some (js "[hook " ++ name ++ js "] " ++ text)
  | .truncated text => some (js "[hook " ++ name ++ js "] " ++ text ++ js " ...[truncated]")
  | .error message => some (js "[hook " ++ name ++ js "] error: " ++ message)
  | .timeout => some (js "[hook " ++ name ++ js "] timeout after " ++ js executionTimeoutMs.repr ++
      js "ms")
  | .empty => none

/-- What became of a board change: the announcements, and the warning of the handler. -/
structure Handled where
  announced : List JsString := []
  warning : Option JsString := none

section handler

variable {σ : Type} (vm : Vm σ)

/-- The loop of the handler; `relay` tells for each announcement whether a listener throws, once
the announcement is in the log. -/
def runHooks (relay : Nat → Option JsString) (board : GameState) :
    Nat → List (HookEntry σ) → Handled
  | _,[] => {}
  | k,hook :: hooks =>
    match announcementFor hook.name (runHookScript vm hook.script board) with
    | none => runHooks relay board k hooks
    | some text =>
      match relay k with
      | some message =>
        { announced := [text],warning := some (js "saolei hook handler failed: " ++ message) }
      | none =>
        let h := runHooks relay board (k + 1) hooks
        { h with announced := text :: h.announced }

def onBoardChange (r : HookRegistry σ) (relay : Nat → Option JsString) (board : GameState) :
    Handled :=
  runHooks vm relay board 0 r.entriesInOrder

end handler

/-! ## A team -/

/-- The hooks unit and the game runtime of a team, with what the hooks announced. -/
structure HookTeam (σ : Type) where
  registry : HookRegistry σ := {}
  game : GameRuntime := {}
  announced : List JsString := []

inductive Label where
  /-- A call of `saolei_hook`. -/
  | hook (args : SaoleiHookToolArgs)
  | init (receipt : Receipt)
  | operate (input : OperateInput) (receipts : Nat → Receipt) (now : Nat)
    (relay : Nat → Option JsString)

/-- The boards that a call of the game publishes. -/
def publishedBoards (effects : List Effect) : List GameState :=
  effects.filterMap fun effect =>
    match effect with
    | .published entry => some entry.state
    | _ => none

namespace HookTeam

variable {σ : Type} (vm : Vm σ)

def step (s : HookTeam σ) : Label → HookTeam σ
  | .hook args => { s with registry := (executeSaoleiHook vm args s.registry).1 }
  | .init receipt => { s with game := (s.game.init receipt).runtime }
  | .operate input receipts now relay =>
    let called := s.game.operate true input receipts now
    { s with
      game := called.runtime
      announced := s.announced ++ (publishedBoards called.effects).flatMap fun board =>
        (onBoardChange vm s.registry relay board).announced }

def system : Lts (HookTeam σ) Label where
  init s := s = {}
  step s l := some (s.step vm l)

end HookTeam

end Dominion.Saolei.Hooks
