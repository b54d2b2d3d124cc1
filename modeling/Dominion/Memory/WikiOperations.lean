import Dominion.Framework.Ecma
import Dominion.Framework.Sha256
import Dominion.Memory.Wiki

/-! # The operations of the wiki tools

`js` is the NFKC normalization of the client and `go` that of the service. -/
namespace Dominion.Memory

open Dominion.Framework

def wikiSearchPageSize : Nat := 100
def wikiTitleMaxRunes : Nat := 128
def wikiContentMaxBytes : Nat := 64 * 1024

structure WikiWriteEntry where
  title : Option String := none
  content : Option String := none
  deriving DecidableEq, Repr

structure WikiWriteArgs where
  title : Option String := none
  content : Option String := none
  entries : Option (List WikiWriteEntry) := none
  deriving DecidableEq, Repr

def wikiGetEmptyTitlesText :=
  "wiki: titles cannot be empty. Provide one or more titles to retrieve."
def wikiWriteAmbiguousArgsText :=
  "wiki: provide EITHER title/content (single entry) OR entries (batch), not both."
def wikiWriteMissingArgsText :=
  "wiki: provide EITHER title/content (single entry) OR entries (batch)."
def wikiWriteEmptyEntriesText :=
  "wiki: entries cannot be empty. Provide title/content (single entry) or a " ++
    "non-empty entries list (batch)."

def normalizeWikiTitle (js : String → String) (title : String) : String :=
  Ecma.toLowerCase (js title)

@[irreducible] def generateWikiId (titleNorm : String) : String :=
  String.ofList ((Sha256.hexDigest titleNorm).take 32)

section operations

variable (js go : String → String)

/-- The pages of a search from a token on, one entry for each resource name. -/
def searchFrom (docs : Wikis) (template query : String) :
    Nat → Option WikiToken → List WikiSummary → Except RpcError (List WikiSummary)
  | 0,_,hits => .ok hits
  | fuel + 1,token,hits =>
    match WikiHandler.searchWikis go docs template query wikiSearchPageSize token with
    | .error error => .error error
    | .ok (page,next) =>
      let hits := page.foldl
        (fun hits wiki => if hits.any fun h => h.name = wiki.name then hits else hits ++ [wiki]) hits
      match next with
      | none => .ok hits
      | some token => searchFrom docs template query fuel (some token) hits

/-- Every page; a page ends later than the one before it. -/
def searchAll (docs : Wikis) (template query : String) : Except RpcError (List WikiSummary) :=
  searchFrom go docs template query (docs.length + 1) none []

def resolveWiki (docs : Wikis) (template title : String) : Except RpcError (Option WikiSummary) :=
  let norm := normalizeWikiTitle js title
  (searchAll go docs template norm).map fun hits =>
    hits.find? fun hit => normalizeWikiTitle js hit.title = norm

/-- The loop of `wikiGet`: the rendered entries and the titles without one. -/
def getEach (docs : Wikis) (template : String) :
    List String → Except RpcError (List String × List String)
  | [] => .ok ([],[])
  | raw :: titles =>
    let title := Ecma.trim raw
    if title = "" then
      (getEach docs template titles).map fun r => (r.1,title :: r.2)
    else
      match resolveWiki js go docs template title with
      | .error error => .error error
      | .ok none => (getEach docs template titles).map fun r => (r.1,title :: r.2)
      | .ok (some hit) =>
        match WikiHandler.getWiki docs template hit.name.2 with
        | .error error => .error error
        | .ok wiki =>
          (getEach docs template titles).map fun r =>
            (("## " ++ wiki.title ++ "\n" ++ wiki.content) :: r.1,r.2)

def wikiGet (docs : Wikis) (template : String) (titles : List String) : Except RpcError String :=
  if titles = [] then .ok wikiGetEmptyTitlesText
  else
    (getEach js go docs template titles).map fun r =>
      let found := if r.1 = [] then [] else
        ("wiki: " ++ toString r.1.length ++ " entry(ies) retrieved.") :: r.1
      let missing := if r.2 = [] then [] else
        ["wiki: " ++ toString r.2.length ++ " title(s) not found: " ++
          ", ".intercalate (r.2.map fun title => "'" ++ title ++ "'") ++
          ". Run wiki_search with a keyword to find the exact title, then retry wiki_get."]
      "\n\n".intercalate (found ++ missing)

inductive WikiWriteKind
  | create
  | update
  deriving DecidableEq, Repr

/-- One preflighted write. -/
structure PlannedWikiWrite where
  kind : WikiWriteKind
  id : String
  title : String
  content : String
  deriving DecidableEq, Repr

inductive WikiFailure
  /-- An entry is refused. -/
  | entry (pos reason : String)
  | call (error : RpcError)
  deriving DecidableEq, Repr

def normalizeWriteEntries (args : WikiWriteArgs) : List WikiWriteEntry :=
  args.entries.getD [{ title := args.title, content := args.content }]

/-- Why an entry is refused. -/
def refuseEntry (title content : String) : Option String :=
  if title = "" then some "title is required"
  else if title.length > wikiTitleMaxRunes then
    some ("title exceeds " ++ toString wikiTitleMaxRunes ++ " characters")
  else if Ecma.trim content = "" then some "content is required"
  else if content.utf8ByteSize > wikiContentMaxBytes then
    some ("content exceeds " ++ toString wikiContentMaxBytes ++ " bytes")
  else none

/-- The preflight from the entry with index `i` on; `planned` has the ids chosen earlier in the
batch. -/
def wikiPreflight (docs : Wikis) (template : String) (planned : String → Option String) (i : Nat) :
    List WikiWriteEntry → Except WikiFailure (List PlannedWikiWrite)
  | [] => .ok []
  | entry :: entries =>
    let title := Ecma.trim (entry.title.getD "")
    let content := entry.content.getD ""
    match refuseEntry title content with
    | some reason => .error (.entry ("entry " ++ toString (i + 1)) reason)
    | none =>
      let norm := normalizeWikiTitle js title
      match planned norm with
      | some id =>
        (wikiPreflight docs template planned (i + 1) entries).map fun writes =>
          ⟨.update,id,title,content⟩ :: writes
      | none =>
        match resolveWiki js go docs template title with
        | .error error => .error (.call error)
        | .ok hit =>
          let (kind,id) := match hit with
            | none => (WikiWriteKind.create,generateWikiId norm)
            | some hit => (.update,hit.name.2)
          (wikiPreflight docs template (Function.update planned norm (some id)) (i + 1) entries).map
            fun writes => ⟨kind,id,title,content⟩ :: writes

def PlannedWikiWrite.apply (docs : Wikis) (template : String) (now : Nat) (write : PlannedWikiWrite) :
    Wikis × Except RpcError Wiki :=
  match write.kind with
  | .create => WikiHandler.createWiki go docs template write.id write.title write.content now
  | .update => WikiHandler.updateWiki go docs ⟨template,write.id,"",write.content,["content"]⟩ now

/-- The commit phase; the service reads its clock at each write. -/
def wikiCommit (docs : Wikis) (template : String) (clock : Nat → Nat) (written : List String) :
    List PlannedWikiWrite → Wikis × Except RpcError Unit
  | [] => (docs,.ok ())
  | write :: writes =>
    match write.apply go docs template (clock written.length) with
    | (docs',.ok _) => wikiCommit docs' template clock (written ++ [write.title]) writes
    | (docs',.error error) =>
      if written = [] then (docs',.error error)
      else (docs',.error ⟨none,error.message ++ "; entries written before the failure: " ++
        ", ".intercalate (written.map fun title => "'" ++ title ++ "'")⟩)

/-- A call of `wiki_write`. -/
def wikiWrite (docs : Wikis) (template : String) (clock : Nat → Nat) (args : WikiWriteArgs) :
    Wikis × Except RpcError String :=
  let hasSingle := args.title.isSome || args.content.isSome
  let hasBatch := args.entries.isSome
  if hasSingle && hasBatch then (docs,.ok wikiWriteAmbiguousArgsText)
  else if !hasSingle && !hasBatch then (docs,.ok wikiWriteMissingArgsText)
  else if args.entries = some [] then (docs,.ok wikiWriteEmptyEntriesText)
  else
    match wikiPreflight js go docs template (fun _ => none) 0 (normalizeWriteEntries args) with
    | .error (.call error) => (docs,.error error)
    | .error (.entry pos reason) =>
      (docs,.ok (if hasBatch then "wiki: " ++ pos ++ " failed: " ++ reason ++ ". No entries were written."
        else "wiki: " ++ reason ++ ". Nothing was written."))
    | .ok writes =>
      match wikiCommit go docs template clock [] writes with
      | (docs',.error error) => (docs',.error error)
      | (docs',.ok ()) =>
        (docs',.ok ("\n".intercalate (("wiki: " ++ toString writes.length ++ " entry(ies) applied") ::
          writes.map fun write =>
            (if write.kind = .create then "created" else "updated") ++ ": '" ++ write.title ++ "'")))

end operations

end Dominion.Memory
