import Dominion.Framework.Ecma
import Dominion.Framework.Sha256
import Dominion.Memory.Service
import Mathlib.Algebra.GroupWithZero.Nat
import Mathlib.Data.List.Infix

/-! # The operations of the memory tool

A call is answered with text; only failures of the service propagate. -/
namespace Dominion.Memory

open Dominion.Framework

inductive MemoryAction
  | add
  | replace
  | remove
  | unknown (name : String)
  deriving DecidableEq, Repr

def memoryContentMaxRunes : Nat := 1024

/-- One batch operation. -/
structure MemoryOp where
  action : MemoryAction
  content : Option String := none
  old_text : Option String := none
  deriving DecidableEq, Repr

structure MemoryToolArgs where
  action : Option MemoryAction := none
  content : Option String := none
  old_text : Option String := none
  operations : Option (List MemoryOp) := none
  deriving DecidableEq, Repr

/-- The characters of a text that fit into a number of UTF-16 code units. -/
def takeUnits : Nat → List Char → List Char
  | _,[] => []
  | 0,_ => []
  | n + 1,c :: cs =>
    if c.toNat < 65536 then c :: takeUnits n cs
    else if n = 0 then [Char.ofNat 65533]
    else c :: takeUnits (n - 1) cs

def lengthUnits (s : String) : Nat :=
  (s.toList.map fun c => if c.toNat < 65536 then 1 else 2).sum

def preview (content : String) : String :=
  if lengthUnits content > 80 then String.ofList (takeUnits 80 content.toList) ++ "..." else content

def renderEntries (entries : List MemoryEntry) : String :=
  if entries = [] then "(no entries)"
  else "\n".intercalate (entries.map fun e => "- " ++ e.content)

@[irreducible] def generateMemoryId (content : String) : String :=
  String.ofList ((Sha256.hexDigest content).take 32)

/-- `content.includes(old)`. -/
def includes (content old : String) : Bool :=
  decide (old.toList <:+: content.toList)

/-- Locate the single entry that contains a text. -/
def matchBySubstring (entries : List MemoryEntry) (oldText : String) : Except String MemoryEntry :=
  let old := Ecma.trim oldText
  if old = "" then
    .error ("memory: old_text cannot be empty. Check the current entries and retry:\n" ++
      renderEntries entries)
  else
    match entries.filter fun e => includes e.content old with
    | [] =>
      .error ("memory: no entry matched '" ++ old ++ "'. Check the current entries " ++
        "and retry with a more specific old_text:\n" ++ renderEntries entries)
    | hit :: hits =>
      if hits.all fun e => e.content = hit.content then .ok hit
      else
        .error ("memory: multiple entries matched '" ++ old ++ "'. Be more specific " ++
          "(matched previews):\n" ++
          "\n".intercalate ((hit :: hits).map fun e => "- " ++ preview e.content))

def addedText := "memory added"
def replacedText := "memory replaced"
def removedText := "memory removed"
def dedupeText := "memory already exists (no duplicate added)"
def invalidCallText :=
  "memory: invalid call. Use action=add/replace/remove with content/" ++
    "old_text, or operations (batch)."
def ambiguousArgsText :=
  "memory: provide EITHER action/content/old_text (single operation) " ++
    "OR operations (batch), not both."
def missingArgsText :=
  "memory: provide EITHER action/content/old_text (single operation) " ++ "OR operations (batch)."
def emptyContentText := "memory: content cannot be empty"
def emptyBatchText := "memory: operations list is empty"

def countRunes (value : String) : Nat :=
  value.length

def contentLimitSentence (count : Nat) : String :=
  "memory: content exceeds " ++ toString memoryContentMaxRunes ++ " characters (got " ++
    toString count ++ "). Keep entries short; store longer knowledge with wiki_write"

def contentLimitText (count : Nat) : String :=
  contentLimitSentence count ++ "."

/-- The collection after a call, and its answer. -/
abbrev Answered := Collection × Except RpcError String

def applyAdd (s : Collection) (content : String) : Answered :=
  let text := Ecma.trim content
  if text = "" then (s,.ok emptyContentText)
  else if countRunes text > memoryContentMaxRunes then (s,.ok (contentLimitText (countRunes text)))
  else if s.listMemories.any fun e => e.content = text then (s,.ok dedupeText)
  else
    match s.createMemory (generateMemoryId text) text with
    | .ok s' => (s',.ok addedText)
    | .error error => if error.code = some 6 then (s,.ok dedupeText) else (s,.error error)

def applyReplace (s : Collection) (oldText content : String) : Answered :=
  let text := Ecma.trim content
  if text = "" then (s,.ok (emptyContentText ++ " (use action=remove to delete entries)"))
  else if countRunes text > memoryContentMaxRunes then (s,.ok (contentLimitText (countRunes text)))
  else
    match matchBySubstring s.listMemories oldText with
    | .error error => (s,.ok error)
    | .ok entry =>
      match s.updateMemory entry.memory_id text with
      | .ok s' => (s',.ok replacedText)
      | .error error => (s,.error error)

def applyRemove (s : Collection) (oldText : String) : Answered :=
  match matchBySubstring s.listMemories oldText with
  | .error error => (s,.ok error)
  | .ok entry =>
    match s.deleteMemory entry.memory_id with
    | .ok s' => (s',.ok removedText)
    | .error error => (s,.error error)

/-- A queued write, with the index of its operation. -/
inductive Write
  | create (id content : String) (opIndex : Nat)
  | update (id content : String) (opIndex : Nat)
  | delete (id : String) (opIndex : Nat)
  deriving DecidableEq, Repr

def Write.opIndex : Write → Nat
  | .create _ _ i => i
  | .update _ _ i => i
  | .delete _ i => i

/-- One operation against the working copy, or the reason why it fails. -/
def preflightOp (working : List MemoryEntry) (i : Nat) (op : MemoryOp) :
    Except String (List MemoryEntry × Option Write) :=
  match op.action with
  | .add =>
    let content := Ecma.trim (op.content.getD "")
    if content = "" then .error "content is required"
    else if countRunes content > memoryContentMaxRunes then
      .error (contentLimitSentence (countRunes content))
    else if working.any fun e => e.content = content then .ok (working,none)
    else
      let id := generateMemoryId content
      .ok (working ++ [⟨id,content⟩],some (.create id content i))
  | .replace =>
    let oldText := op.old_text.getD ""
    let content := Ecma.trim (op.content.getD "")
    if Ecma.trim oldText = "" then .error "old_text is required"
    else if content = "" then .error "content is required (use action=remove to delete)"
    else if countRunes content > memoryContentMaxRunes then
      .error (contentLimitSentence (countRunes content))
    else
      match matchBySubstring working oldText with
      | .error error => .error error
      | .ok entry =>
        let index := working.findIdx fun e => e.memory_id = entry.memory_id
        .ok (working.set index { entry with content },some (.update entry.memory_id content i))
  | .remove =>
    let oldText := op.old_text.getD ""
    if Ecma.trim oldText = "" then .error "old_text is required"
    else
      match matchBySubstring working oldText with
      | .error error => .error error
      | .ok entry =>
        let index := working.findIdx fun e => e.memory_id = entry.memory_id
        .ok (working.eraseIdx index,some (.delete entry.memory_id i))
  | .unknown name =>
    .error ("unknown action '" ++ name ++ "' (use add, replace, or remove)")

/-- The preflight from the operation with index `i` on: the working copy and the queued writes, or
the position and the reason of the first failure. -/
def preflight (working : List MemoryEntry) (i : Nat) :
    List MemoryOp → Except (String × String) (List MemoryEntry × List Write)
  | [] => .ok (working,[])
  | op :: ops =>
    match preflightOp working i op with
    | .error reason => .error ("operation " ++ toString (i + 1),reason)
    | .ok (working',write) =>
      match preflight working' (i + 1) ops with
      | .error failure => .error failure
      | .ok (final,writes) => .ok (final,write.toList ++ writes)

/-- Positions with their consecutive runs compressed. -/
def formatRuns (start last : Nat) : List Nat → List String
  | [] => [if start = last then toString start else toString start ++ "-" ++ toString last]
  | position :: positions =>
    if position = last + 1 then formatRuns start position positions
    else (if start = last then toString start else toString start ++ "-" ++ toString last) ::
      formatRuns position position positions

def formatAppliedPositions : List Nat → String
  | [] => "undefined"
  | position :: positions => ", ".intercalate (formatRuns position position positions)

def Write.apply (s : Collection) : Write → Except RpcError Collection
  | .create id content _ => s.createMemory id content
  | .update id content _ => s.updateMemory id content
  | .delete id _ => s.deleteMemory id

/-- The commit phase. -/
def commit (s : Collection) (applied : List Nat) : List Write → Collection × Except RpcError Unit
  | [] => (s,.ok ())
  | write :: writes =>
    match write.apply s with
    | .ok s' => commit s' (applied ++ [write.opIndex + 1]) writes
    | .error error =>
      if applied = [] then (s,.error error)
      else
        let noun := if applied.length = 1 then "operation" else "operations"
        let verb := if applied.length = 1 then "was" else "were"
        (s,.error ⟨none,error.message ++ "; " ++ noun ++ " " ++ formatAppliedPositions applied ++
          " " ++ verb ++ " applied before the failure"⟩)

def applyBatch (s : Collection) (operations : List MemoryOp) : Answered :=
  if operations = [] then (s,.ok emptyBatchText)
  else
    let entries := s.listMemories
    match preflight entries 0 operations with
    | .error (pos,reason) =>
      (s,.ok ("memory: " ++ pos ++ " failed: " ++ reason ++
        ". No operations were applied. Current entries:\n" ++ renderEntries entries))
    | .ok (_,writes) =>
      match commit s [] writes with
      | (s',.ok ()) => (s',.ok ("memory: applied " ++ toString writes.length ++ " operation(s)"))
      | (s',.error error) => (s',.error error)

/-- A call of the memory tool. -/
def applyMemoryCall (s : Collection) (args : MemoryToolArgs) : Answered :=
  match args.action,args.operations with
  | some _,some _ => (s,.ok ambiguousArgsText)
  | none,none => (s,.ok missingArgsText)
  | none,some operations => applyBatch s operations
  | some .add,none => applyAdd s (args.content.getD "")
  | some .replace,none => applyReplace s (args.old_text.getD "") (args.content.getD "")
  | some .remove,none => applyRemove s (args.old_text.getD "")
  | some (.unknown _),none => (s,.ok invalidCallText)

example : preview (String.ofList (List.replicate 90 'x')) =
    String.ofList (List.replicate 80 'x') ++ "..." := by decide

end Dominion.Memory
