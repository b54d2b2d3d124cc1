import Dominion.Framework.Text
import Dominion.Memory.Service
import Mathlib.Data.List.Infix

/-! # The wiki service

`nfkc` is the Unicode normalization of the service, which a library supplies. -/
namespace Dominion.Memory

open Dominion.Framework
open Dominion.Deploy.Domain (goQuote)

def maxWikiTitleRunes : Nat := 128
def maxWikiContentBytes : Nat := 64 * 1024
def defaultWikiPageSize : Nat := 20
def maxWikiPageSize : Nat := 100

structure Wiki where
  template : String
  wikiID : String
  title : String
  content : String
  createTime : Nat
  updateTime : Nat
  deriving DecidableEq, Repr

def validateWikiID (id : String) : Except RpcError Unit :=
  validateResourceId "wiki_id" id

def validateWikiTitle (title : String) : Except RpcError Unit :=
  if title = "" then .error (invalidArgument "title is required")
  else if title.length > maxWikiTitleRunes then
    .error (invalidArgument ("title exceeds maximum of " ++ toString maxWikiTitleRunes ++ " runes"))
  else .ok ()

def validateWikiContent (content : String) : Except RpcError Unit :=
  if content = "" then .error (invalidArgument "content is required")
  else if content.utf8ByteSize > maxWikiContentBytes then
    .error (invalidArgument ("content exceeds maximum of " ++ toString maxWikiContentBytes ++ " bytes"))
  else .ok ()

def knownTemplateIDs : List String := ["saolei","sts2"]

def validateTemplateName (template : String) : Except RpcError Unit :=
  if template ∈ knownTemplateIDs then .ok () else .error (invalidArgument "invalid template")

/-- The template-scope normal form of a title or a query. -/
def normalizeTitle (nfkc : String → String) (title : String) : String :=
  Text.toLower (nfkc title)

def titleBigrams (normalized : String) : List String :=
  ((normalized.toList.zip (normalized.toList.drop 1)).map fun p =>
    String.ofList [p.1,p.2]).eraseDups

inductive WikiSearchRank
  | exact
  | prefixed
  | substring
  deriving DecidableEq, Repr

def WikiSearchRank.toNat : WikiSearchRank → Nat
  | .exact => 0
  | .prefixed => 1
  | .substring => 2

/-- `strings.Contains`. -/
def contains (text query : String) : Bool :=
  decide (query.toList <:+: text.toList)

def wikiSearchMatchRank (query titleNorm : String) : Option WikiSearchRank :=
  if contains titleNorm query then
    if titleNorm = query then some .exact
    else if query.toList <+: titleNorm.toList then some .prefixed
    else some .substring
  else none

/-! ## The repository -/

structure WikiDocument where
  id : Nat
  template : String
  wikiID : String
  title : String
  titleNorm : String
  titleGrams : List String
  content : String
  createTime : Nat
  updateTime : Nat
  deriving DecidableEq, Repr

def WikiDocument.toDomain (d : WikiDocument) : Wiki where
  template := d.template
  wikiID := d.wikiID
  title := d.title
  content := d.content
  createTime := d.createTime
  updateTime := d.updateTime

def wikiDocumentFromDomain (nfkc : String → String) (w : Wiki) : WikiDocument where
  id := 0
  template := w.template
  wikiID := w.wikiID
  title := w.title
  titleNorm := normalizeTitle nfkc w.title
  titleGrams := titleBigrams (normalizeTitle nfkc w.title)
  content := w.content
  createTime := w.createTime
  updateTime := w.updateTime

theorem titleGrams_fromDomain (nfkc : String → String) (w : Wiki) :
    (wikiDocumentFromDomain nfkc w).titleGrams = titleBigrams (normalizeTitle nfkc w.title) := by
  simp only [wikiDocumentFromDomain]

/-- The documents of the collection. -/
abbrev Wikis := List WikiDocument

/-- Two documents that a unique index keeps apart. -/
def WikiDocument.Clashes (d e : WikiDocument) : Prop :=
  d.template = e.template ∧ (d.wikiID = e.wikiID ∨ d.titleNorm = e.titleNorm)

instance (d e : WikiDocument) : Decidable (d.Clashes e) :=
  inferInstanceAs (Decidable (_ ∧ _))

namespace Wikis

/-- The `_id` that the database generates. -/
def freshId (docs : Wikis) : Nat :=
  (docs.map WikiDocument.id).foldr max 0 + 1

def insertOne (docs : Wikis) (doc : WikiDocument) : Except RpcError Wikis :=
  if docs.any fun d => decide (d.Clashes doc) then .error errAlreadyExists
  else .ok (docs ++ [{ doc with id := docs.freshId }])

def findOne (docs : Wikis) (template wikiID : String) : Option WikiDocument :=
  docs.find? fun d => d.template = template ∧ d.wikiID = wikiID

/-- The collection after a replacement, and the number of matched documents. -/
def replaceOne (docs : Wikis) (template wikiID : String) (doc : WikiDocument) :
    Except RpcError (Wikis × Nat) :=
  match docs.findOne template wikiID with
  | none => .ok (docs,0)
  | some d =>
    if docs.any fun e => decide (e.id ≠ d.id) && decide (e.Clashes doc) then .error errAlreadyExists
    else .ok (docs.map fun e => if e.id = d.id then { doc with id := d.id } else e,1)

def createWiki (nfkc : String → String) (docs : Wikis) (wiki : Wiki) : Except RpcError Wikis :=
  docs.insertOne (wikiDocumentFromDomain nfkc wiki)

def getWiki (docs : Wikis) (template wikiID : String) : Except RpcError Wiki :=
  match docs.findOne template wikiID with
  | none => .error errNotFound
  | some doc => .ok doc.toDomain

/-- The first call of `UpdateWiki`: the document that is to replace the stored one. -/
def prepareReplacement (nfkc : String → String) (docs : Wikis) (wiki : Wiki) :
    Except RpcError WikiDocument :=
  match docs.findOne wiki.template wiki.wikiID with
  | none => .error errNotFound
  | some existing =>
    .ok { wikiDocumentFromDomain nfkc wiki with id := existing.id, createTime := existing.createTime }

/-- The second call of `UpdateWiki`. -/
def commitReplacement (docs : Wikis) (doc : WikiDocument) : Wikis × Except RpcError Wiki :=
  match docs.replaceOne doc.template doc.wikiID doc with
  | .error error => (docs,.error error)
  | .ok (docs',matched) => if matched = 0 then (docs',.error errNotFound) else (docs',.ok doc.toDomain)

/-- The candidates of a search for a normalized query. -/
def searchCandidates (docs : Wikis) (template query : String) : List WikiDocument :=
  docs.filter fun d => d.template = template ∧
    if 2 ≤ query.length then (titleBigrams query).all (fun gram => gram ∈ d.titleGrams) = true
    else contains d.titleNorm query = true

end Wikis

/-! ## Tokens

A token carries the normalized query that it was issued under, and a continued search normalizes
its query once more before it compares the two. -/

structure WikiSearchPageToken where
  query : String
  offset : Int
  deriving DecidableEq, Repr

/-- The text of a token: the base64url of the JSON of a cursor, or something else. -/
inductive WikiToken
  | cursor (c : WikiSearchPageToken)
  | garbled (message : String)
  deriving DecidableEq, Repr

def errInvalidPageToken (detail : String) : RpcError :=
  invalidArgument ("invalid page token: " ++ detail)

/-- The empty text is `none`. -/
def encodeWikiSearchPageToken (c : WikiSearchPageToken) : Option WikiToken :=
  if c.query = "" ∨ c.offset ≤ 0 then none else some (.cursor c)

def decodeWikiSearchPageToken (nfkc : String → String) (token : WikiToken) (query : String) :
    Except RpcError WikiSearchPageToken :=
  match token with
  | .garbled message => .error (errInvalidPageToken message)
  | .cursor c =>
    let q := normalizeTitle nfkc query
    if q = "" then .error (errInvalidPageToken "empty query")
    else if c.query ≠ q then .error (errInvalidPageToken "query does not match the token")
    else if c.offset ≤ 0 then .error (errInvalidPageToken "offset must be positive")
    else .ok c

def wikiPageSize (pageSize : Int) : Except RpcError Nat :=
  if pageSize < 0 then .error (invalidArgument "page_size must not be negative")
  else if pageSize = 0 then .ok defaultWikiPageSize
  else if pageSize > maxWikiPageSize then .ok maxWikiPageSize
  else .ok pageSize.toNat

/-! ## The handler -/

structure WikiSummary where
  /-- The template and the id that the resource name carries. -/
  name : String × String
  title : String
  deriving DecidableEq, Repr

/-- The summary of a match. -/
def summaryOf (template : String) (m : WikiDocument × WikiSearchRank) : WikiSummary :=
  ⟨(template,m.1.wikiID),m.1.title⟩

structure UpdateWikiRequest where
  template : String
  wikiID : String
  title : String
  content : String
  /-- The paths of the update mask. -/
  paths : List String
  deriving DecidableEq, Repr

def wikiMaskFields : List String := ["title","content"]

/-- Which of title and content an update applies. -/
def applyWikiMask (paths : List String) : Except RpcError (Bool × Bool) :=
  if paths = [] then .ok (true,true)
  else
    match paths.find? fun path => path ∉ wikiMaskFields with
    | some path =>
      .error (invalidArgument ("update_mask path " ++ goQuote path ++ " is not a writable Wiki field"))
    | none => .ok (decide ("title" ∈ paths),decide ("content" ∈ paths))

/-- The checks of `UpdateWiki` before its first call of the repository. -/
def validateUpdate (req : UpdateWikiRequest) : Except RpcError (Bool × Bool) := do
  validateTemplateName req.template
  let (updateTitle,updateContent) ← applyWikiMask req.paths
  if updateTitle then validateWikiTitle req.title
  if updateContent then validateWikiContent req.content
  return (updateTitle,updateContent)

/-- The stored wiki with the masked fields of a request. -/
def mergeUpdate (req : UpdateWikiRequest) (mask : Bool × Bool) (now : Nat) (existing : Wiki) : Wiki :=
  { existing with
    title := if mask.1 then req.title else existing.title
    content := if mask.2 then req.content else existing.content
    updateTime := now }

namespace WikiHandler

def createWiki (nfkc : String → String) (docs : Wikis) (template wikiID title content : String)
    (now : Nat) : Wikis × Except RpcError Wiki :=
  let checked : Except RpcError Unit := do
    validateTemplateName template
    validateWikiID wikiID
    validateWikiTitle title
    validateWikiContent content
  match checked with
  | .error error => (docs,.error error)
  | .ok () =>
    let wiki : Wiki := ⟨template,wikiID,title,content,now,now⟩
    match docs.createWiki nfkc wiki with
    | .error error => (docs,.error error)
    | .ok docs' => (docs',.ok wiki)

def getWiki (docs : Wikis) (template wikiID : String) : Except RpcError Wiki := do
  validateTemplateName template
  docs.getWiki template wikiID

/-- An update whose calls meet no other. -/
def updateWiki (nfkc : String → String) (docs : Wikis) (req : UpdateWikiRequest) (now : Nat) :
    Wikis × Except RpcError Wiki :=
  let prepared : Except RpcError WikiDocument := do
    let mask ← validateUpdate req
    let existing ← docs.getWiki req.template req.wikiID
    docs.prepareReplacement nfkc (mergeUpdate req mask now existing)
  match prepared with
  | .error error => (docs,.error error)
  | .ok doc => docs.commitReplacement doc

/-- The verified and ranked matches of a normalized query. -/
def searchMatches (nfkc : String → String) (docs : Wikis) (template query : String) :
    List (WikiDocument × WikiSearchRank) :=
  let ranked := (docs.searchCandidates template query).filterMap fun d =>
    (wikiSearchMatchRank query (normalizeTitle nfkc d.title)).map fun rank => (d,rank)
  ranked.insertionSort fun a b =>
    a.2.toNat < b.2.toNat ∨ (a.2.toNat = b.2.toNat ∧
      normalizeTitle nfkc a.1.title ≤ normalizeTitle nfkc b.1.title)

/-- The offset that a request starts at. -/
def startOf (nfkc : String → String) (query : String) : Option WikiToken → Except RpcError Int
  | none => .ok 0
  | some token => (decodeWikiSearchPageToken nfkc token query).map fun c => c.offset

def searchWikis (nfkc : String → String) (docs : Wikis) (template query : String) (pageSize : Int)
    (token : Option WikiToken) : Except RpcError (List WikiSummary × Option WikiToken) := do
  validateTemplateName template
  let pageSize ← wikiPageSize pageSize
  let query := normalizeTitle nfkc query
  if query = "" then .error (invalidArgument "query is required")
  else
    let start ← startOf nfkc query token
    let found := searchMatches nfkc docs template query
    let offset := min start.toNat found.length
    let last := min (offset + pageSize) found.length
    let page := (found.take last).drop offset
    .ok (page.map (summaryOf template),
      if last < found.length then encodeWikiSearchPageToken ⟨query,last⟩ else none)

end WikiHandler

end Dominion.Memory
