import Dominion.Framework.Keyset
import Mathlib.Data.Prod.Lex
import Mathlib.Data.String.Basic

/-! # The session service

The handler over the repository over one collection. -/
namespace Dominion.Sessions

open Dominion.Framework

structure TemplateName where
  templateId : String
  deriving DecidableEq, Repr

structure SessionName where
  templateId : String
  sessionId : String
  deriving DecidableEq, Repr

def SessionName.parent (name : SessionName) : TemplateName :=
  ⟨name.templateId⟩

inductive Code
  | invalidArgument
  | notFound
  | alreadyExists
  | internal
  deriving DecidableEq, Repr

structure Status where
  code : Code
  message : String
  deriving DecidableEq, Repr

def knownTemplateIds : List String :=
  ["saolei","sts2"]

def validateTemplateName (name : TemplateName) : Except Status Unit :=
  if name.templateId ∈ knownTemplateIds then .ok ()
  else .error ⟨.invalidArgument,"invalid template"⟩

/-- The instants of the clock, with the standard library's text of them. -/
structure Clock (Time : Type) where
  isZero : Time → Bool
  /-- A stored date carries milliseconds. -/
  toMillis : Time → Time
  toMillis_toMillis : ∀ t, toMillis (toMillis t) = toMillis t
  /-- RFC 3339 with nanoseconds, in UTC. -/
  format : Time → String
  parse : String → Except String Time
  parse_format : ∀ t, parse (format t) = .ok t
  format_ne : ∀ t, format t ≠ ""

/-! ## The page token -/

structure ListPageCursor (Time : Type) where
  createTime : Time
  sessionId : String
  deriving DecidableEq, Repr

/-- The content of a page token; its text is the base64url of the JSON of these fields. -/
structure CursorJson where
  createTime : String
  sessionId : String
  deriving DecidableEq, Repr

inductive PageToken
  | json (cursor : CursorJson)
  /-- No base64url of such a JSON. -/
  | garbled (message : String)
  deriving DecidableEq, Repr

section token

variable {Time : Type} (clock : Clock Time)

def encodePageToken (cursor : ListPageCursor Time) : PageToken :=
  .json ⟨clock.format cursor.createTime,cursor.sessionId⟩

def decodePageToken : PageToken → Except String (ListPageCursor Time)
  | .garbled message => .error ("decode page token: " ++ message)
  | .json cursor =>
    if cursor.createTime = "" then .error "decode page token: missing create_time"
    else if cursor.sessionId = "" then .error "decode page token: missing session_id"
    else
      match clock.parse cursor.createTime with
      | .error message => .error ("decode page token: invalid create_time: " ++ message)
      | .ok createTime => .ok ⟨createTime,cursor.sessionId⟩

theorem decode_encode (cursor : ListPageCursor Time) (h : cursor.sessionId ≠ "") :
    decodePageToken clock (encodePageToken clock cursor) = .ok cursor := by
  simp [decodePageToken,encodePageToken,clock.format_ne,h,clock.parse_format]

end token

/-! ## The collection -/

inductive Field
  | template
  | sessionId
  | createTime
  deriving DecidableEq, Repr

structure SessionDocument (Time : Type) where
  template : String
  sessionId : String
  createTime : Time
  deriving DecidableEq, Repr

/-- A field and the direction of its order. -/
structure IndexModel where
  keys : List (Field × Int)
  unique : Bool := false
  deriving DecidableEq, Repr

/-- The documents in their natural order, and the indexes. -/
structure Collection (Time : Type) where
  docs : List (SessionDocument Time) := []
  indexes : List IndexModel := []
  deriving DecidableEq, Repr

section collection

variable {Time : Type} [DecidableEq Time]

def SessionDocument.agree (d e : SessionDocument Time) : Field → Bool
  | .template => d.template = e.template
  | .sessionId => d.sessionId = e.sessionId
  | .createTime => d.createTime = e.createTime

/-- A unique index rejects a second document with the same keys. -/
def IndexModel.rejects (index : IndexModel) (docs : List (SessionDocument Time))
    (doc : SessionDocument Time) : Bool :=
  index.unique && docs.any fun d => index.keys.all fun k => d.agree doc k.1

def Collection.insertOne (c : Collection Time) (doc : SessionDocument Time) :
    Option (Collection Time) :=
  if c.indexes.any fun index => index.rejects c.docs doc then none
  else some { c with docs := c.docs ++ [doc] }

def Collection.findOne (c : Collection Time) (sessionId : String) :
    Option (SessionDocument Time) :=
  c.docs.find? fun d => d.sessionId = sessionId

def Collection.deleteOne (c : Collection Time) (sessionId : String) : Option (Collection Time) :=
  if c.docs.any fun d => d.sessionId = sessionId then
    some { c with docs := c.docs.eraseP fun d => d.sessionId = sessionId }
  else none

end collection

/-! ## The repository -/

inductive RepositoryError
  | notFound
  | alreadyExists
  deriving DecidableEq, Repr

structure Session (Time : Type) where
  template : String
  sessionId : String
  createTime : Time
  deriving DecidableEq, Repr

def SessionDocument.toDomain {Time : Type} (d : SessionDocument Time) : Session Time :=
  ⟨d.template,d.sessionId,d.createTime⟩

structure ListSessionsResult (Time : Type) where
  sessions : List (Session Time)
  nextPageToken : Option PageToken
  deriving DecidableEq, Repr

/-- The index of the pagination is the only one. -/
def newSessionRepository {Time : Type} : Collection Time where
  indexes := [{ keys := [(.createTime,-1),(.sessionId,-1)] }]

section repository

variable {Time : Type} [LinearOrder Time] (clock : Clock Time)

def Collection.create (c : Collection Time) (s : Session Time) :
    Except RepositoryError (Session Time) × Collection Time :=
  match c.insertOne ⟨s.template,s.sessionId,clock.toMillis s.createTime⟩ with
  | some c => (.ok s,c)
  | none => (.error .alreadyExists,c)

def Collection.get (c : Collection Time) (sessionId : String) :
    Except RepositoryError (Session Time) :=
  match c.findOne sessionId with
  | some d => .ok d.toDomain
  | none => .error .notFound

def Collection.delete (c : Collection Time) (sessionId : String) :
    Except RepositoryError Unit × Collection Time :=
  match c.deleteOne sessionId with
  | some c => (.ok (),c)
  | none => (.error .notFound,c)

/-- The sort key of the list. -/
def SessionDocument.key (d : SessionDocument Time) : Time ×ₗ String :=
  toLex (d.createTime,d.sessionId)

def ListPageCursor.key (cursor : ListPageCursor Time) : Time ×ₗ String :=
  toLex (clock.toMillis cursor.createTime,cursor.sessionId)

/-- One page, with the cursor of the next one if a further document was found. -/
def Collection.list (c : Collection Time) (pageSize : Nat) (cursor : Option (ListPageCursor Time)) :
    ListSessionsResult Time :=
  let found := (Keyset.behind SessionDocument.key c.docs
    (cursor.map (ListPageCursor.key clock))).take (pageSize + 1)
  { sessions := (found.take pageSize).map SessionDocument.toDomain
    nextPageToken :=
      if pageSize < found.length then
        found[pageSize - 1]?.map fun last =>
          encodePageToken clock ⟨last.createTime,last.sessionId⟩
      else none }

end repository

/-! ## The handler -/

structure ProtoSession (Time : Type) where
  name : SessionName
  createTime : Option Time
  deriving DecidableEq, Repr

def defaultListSessionsPageSize : Nat := 50

def maxListSessionsPageSize : Nat := 1000

def hexDigit (n : Nat) : Char :=
  if n < 10 then Char.ofNat (48 + n) else Char.ofNat (87 + n)

/-- The hexadecimal text of random bytes. -/
def newId (bytes : Vector UInt8 16) : String :=
  String.ofList (bytes.toList.flatMap fun b => [hexDigit (b.toNat / 16),hexDigit (b.toNat % 16)])

def toStatusError : RepositoryError → Status
  | .notFound => ⟨.notFound,"session not found"⟩
  | .alreadyExists => ⟨.alreadyExists,"session already exists"⟩

structure CreateSessionRequest (Time : Type) where
  /-- The parsed parent. -/
  parent : Except String TemplateName
  sessionId : String := ""
  /-- What the generator returns if it is asked. -/
  generated : Except String (Vector UInt8 16)
  now : Time

structure ListSessionsRequest where
  parent : Except String TemplateName
  pageSize : Int := 0
  pageToken : Option PageToken := none

def parseParent (parent : Except String TemplateName) : Except Status TemplateName :=
  match parent with
  | .error message => .error ⟨.invalidArgument,message⟩
  | .ok name => (validateTemplateName name).map fun _ => name

def parseName (name : Except String SessionName) : Except Status SessionName :=
  match name with
  | .error message => .error ⟨.invalidArgument,"invalid session name: " ++ message⟩
  | .ok name => (validateTemplateName name.parent).map fun _ => name

section handler

variable {Time : Type} [LinearOrder Time] (clock : Clock Time)

def sessionToProto (s : Session Time) : ProtoSession Time :=
  ⟨⟨s.template,s.sessionId⟩,if clock.isZero s.createTime then none else some s.createTime⟩

/-- The session that a request asks to create. -/
def admitCreate (req : CreateSessionRequest Time) : Except Status (Session Time) :=
  match parseParent req.parent with
  | .error status => .error status
  | .ok name =>
    match if req.sessionId = "" then req.generated.map newId else .ok req.sessionId with
    | .error message => .error ⟨.internal,"generate session id: " ++ message⟩
    | .ok sessionId =>
      if sessionId.toList.contains '/' then
        .error ⟨.invalidArgument,"session_id must not contain '/'"⟩
      else .ok ⟨name.templateId,sessionId,req.now⟩

def createSession (c : Collection Time) (req : CreateSessionRequest Time) :
    Except Status (ProtoSession Time) × Collection Time :=
  match admitCreate req with
  | .error status => (.error status,c)
  | .ok s =>
    match c.create clock s with
    | (.ok s,c) => (.ok (sessionToProto clock s),c)
    | (.error e,c) => (.error (toStatusError e),c)

def getSession (c : Collection Time) (name : Except String SessionName) :
    Except Status (ProtoSession Time) :=
  match parseName name with
  | .error status => .error status
  | .ok name =>
    match c.get name.sessionId with
    | .ok s => .ok (sessionToProto clock s)
    | .error e => .error (toStatusError e)

def deleteSession (c : Collection Time) (name : Except String SessionName) :
    Except Status Unit × Collection Time :=
  match parseName name with
  | .error status => (.error status,c)
  | .ok name =>
    match c.delete name.sessionId with
    | (.ok _,c) => (.ok (),c)
    | (.error e,c) => (.error (toStatusError e),c)

/-- The sessions of a page, and the token of the next one. -/
def listSessions (c : Collection Time) (req : ListSessionsRequest) :
    Except Status (List (ProtoSession Time) × Option PageToken) :=
  match parseParent req.parent with
  | .error status => .error status
  | .ok _ =>
    let pageSize := if req.pageSize ≤ 0 then defaultListSessionsPageSize else req.pageSize.toNat
    if maxListSessionsPageSize < pageSize then
      .error ⟨.invalidArgument,"page_size exceeds maximum of 1000"⟩
    else
      match req.pageToken.mapM (decodePageToken clock) with
      | .error message => .error ⟨.invalidArgument,"invalid page token: " ++ message⟩
      | .ok cursor =>
        let res := c.list clock pageSize cursor
        .ok (res.sessions.map (sessionToProto clock),res.nextPageToken)

/-- The pages from a token to the end. -/
def walk (c : Collection Time) (parent : Except String TemplateName) (pageSizes : Nat → Int) :
    Nat → Nat → Option PageToken → Option (Except Status (List (ProtoSession Time)))
  | 0, _, _ => none
  | fuel + 1, i, token =>
    match listSessions clock c { parent := parent, pageSize := pageSizes i, pageToken := token } with
    | .error status => some (.error status)
    | .ok (page,none) => some (.ok page)
    | .ok (page,some next) =>
      (walk c parent pageSizes fuel (i + 1) (some next)).map fun rest => rest.map (page ++ ·)

end handler

end Dominion.Sessions
