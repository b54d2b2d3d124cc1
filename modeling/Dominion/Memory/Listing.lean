import Dominion.Framework.Rfc3339
import Dominion.Framework.Seek
import Dominion.Framework.Store
import Dominion.Deploy.Domain.Spec
import Dominion.Memory.WikiPages

/-! # Listing memories

The requested order becomes a final sort key; the documents are found in that order, and a token
carries the position of the last one of its page with the order it was issued under.  The texts of
`time`'s own parse errors are left out. -/
namespace Dominion.Memory

open Dominion.Framework
open Dominion.Deploy.Domain (goQuote)

/-! ## The final sort key -/

inductive SortValueKind
  | string
  | time
  deriving DecidableEq, Repr

structure MemorySortFieldSpec where
  field : String
  mongoField : String
  kind : SortValueKind
  deriving DecidableEq, Repr

structure MemorySortTerm where
  field : String
  mongoField : String
  descending : Bool
  kind : SortValueKind
  deriving DecidableEq, Repr

def memorySortTieBreaker : MemorySortFieldSpec :=
  ⟨"memory_id","memory_id",.string⟩

def memorySortFieldSpecs : List MemorySortFieldSpec :=
  [memorySortTieBreaker,⟨"update_time","update_time",.time⟩]

def memorySortFieldSpecByField (field : String) : Option MemorySortFieldSpec :=
  memorySortFieldSpecs.find? fun spec => spec.field = field

def memorySortFieldNames : String :=
  ", ".intercalate (memorySortFieldSpecs.map fun spec => goQuote spec.field)

def memoryOrderByHelp : String :=
  "supported syntax: comma-separated \"\x7bfield\x7d\" or \"\x7bfield\x7d desc\" terms over " ++
    "supported fields: " ++ memorySortFieldNames

def MemorySortFieldSpec.term (s : MemorySortFieldSpec) (descending : Bool) : MemorySortTerm :=
  ⟨s.field,s.mongoField,descending,s.kind⟩

/-- The checks of a field against the terms before it. -/
def validateField (field : String) (descending : Bool)
    (validated : Store String MemorySortTerm) : Except String MemorySortTerm :=
  match memorySortFieldSpecByField field with
  | none =>
    .error ("order_by field " ++ goQuote field ++ " is not sortable: " ++ memoryOrderByHelp)
  | some spec =>
    if (validated.lookup spec.field).isSome then
      .error ("order_by field " ++ goQuote spec.field ++ " is repeated: " ++ memoryOrderByHelp)
    else .ok (spec.term descending)

def validateTerm (item : String) (validated : Store String MemorySortTerm) :
    Except String MemorySortTerm :=
  let invalid := Except.error
    ("order_by term " ++ goQuote (Text.trimSpace item) ++ " is invalid: " ++ memoryOrderByHelp)
  match Text.fields item with
  | [field] => validateField field false validated
  | [field,direction] =>
    if direction = "desc" then validateField field true validated else invalid
  | _ => invalid

/-- The validation pass: the terms by their fields. -/
def validateTerms : List String → Store String MemorySortTerm →
    Except String (Store String MemorySortTerm)
  | [],validated => .ok validated
  | item :: items,validated => do
    let term ← validateTerm item validated
    validateTerms items (validated.insert term.field term)

/-- The produce pass: the terms in the requested order, completed with the tie-breaker. -/
def produceTerms (items : List String) (validated : Store String MemorySortTerm) :
    List MemorySortTerm :=
  (items.filterMap fun item => (Text.fields item).head?.bind fun field => validated.lookup field) ++
    if (validated.lookup memorySortTieBreaker.field).isSome then []
    else [memorySortTieBreaker.term false]

def parseMemoryOrderBy (orderBy : String) : Except String (List MemorySortTerm) :=
  if Text.trimSpace orderBy = "" then .ok [memorySortTieBreaker.term false]
  else
    let items := Text.split orderBy ','
    (validateTerms items ∅).map (produceTerms items)

def memorySortTermWire (term : MemorySortTerm) : String :=
  if term.descending then term.field ++ " desc" else term.field

/-- The canonical spelling of a final key. -/
def memorySortContext (sort : List MemorySortTerm) : String :=
  ",".intercalate (sort.map memorySortTermWire)

/-! ## Page tokens -/

/-- The dynamic values of a cursor; an instant is in nanoseconds since 1970. -/
inductive CursorValue
  | string (s : String)
  | time (nanos : Int)
  deriving DecidableEq, Repr

/-- An entry as it is on the wire. -/
structure WireEntry where
  field : String
  value : String
  deriving DecidableEq, Repr

structure MemoryCursorEntry extends WireEntry where
  typed : CursorValue
  deriving DecidableEq, Repr

structure MemoryPageToken where
  sort : String
  entries : List MemoryCursorEntry
  deriving DecidableEq, Repr

/-- A non-empty token: the base64url of a JSON object, in which the list of the entries or one of
them may be null, or something else. -/
inductive MemoryToken
  | object (sort : String) (entries : Option (List (Option WireEntry)))
  | garbled (message : String)
  deriving DecidableEq, Repr

namespace MemorySortTerm

/-- `MemorySortTerm.CursorValue`. -/
def cursorValue (t : MemorySortTerm) (value : String) : Except String CursorValue :=
  match t.kind with
  | .string => .ok (.string value)
  | .time =>
    match Rfc3339.parse value with
    | none => .error ("invalid time value " ++ goQuote value)
    | some nanos => .ok (.time nanos)

/-- `MemorySortTerm.CursorEntry`, which panics on a value of the other kind. -/
def cursorEntry (t : MemorySortTerm) (value : CursorValue) : Option MemoryCursorEntry :=
  match t.kind,value with
  | .string,.string s => some ⟨⟨t.field,s⟩,value⟩
  | .time,.time nanos => some ⟨⟨t.field,Rfc3339.format nanos⟩,value⟩
  | _,_ => none

end MemorySortTerm

/-- The empty text is `none`. -/
def encodeMemoryPageToken : Option MemoryPageToken → Option MemoryToken
  | none => none
  | some cursor =>
    if cursor.entries.isEmpty ∨ cursor.sort = "" then none
    else some (.object cursor.sort (some (cursor.entries.map fun e => some e.toWireEntry)))

/-- The checks of the entry at position `i` and of those after it. -/
def checkEntries : Nat → List MemorySortTerm → List (Option WireEntry) →
    Except RpcError (List MemoryCursorEntry)
  | i,term :: sort,entry :: entries => do
    let key := "key " ++ toString i
    match entry with
    | none => .error (errInvalidPageToken (key ++ " is null"))
    | some entry =>
      if entry.field = "" then .error (errInvalidPageToken (key ++ " is missing field"))
      else if entry.value = "" then .error (errInvalidPageToken (key ++ " is missing value"))
      else if entry.field ≠ term.field then
        .error (errInvalidPageToken (key ++ " is " ++ goQuote entry.field ++
          ", request sorts by " ++ goQuote term.field))
      else
        match term.cursorValue entry.value with
        | .error message =>
          .error (errInvalidPageToken (key ++ " (" ++ entry.field ++ "): " ++ message))
        | .ok typed => return ⟨entry,typed⟩ :: (← checkEntries (i + 1) sort entries)
  | _,_,_ => .ok []

/-- `newMemoryPageToken`. -/
def newMemoryPageToken (sort : List MemorySortTerm) (entries : List (Option WireEntry)) :
    Except RpcError MemoryPageToken := do
  if entries.length = 0 then .error (errInvalidPageToken "empty cursor")
  else if entries.length ≠ sort.length then
    .error (errInvalidPageToken ("cursor has " ++ toString entries.length ++
      " keys, request sorts by " ++ toString sort.length))
  else return ⟨memorySortContext sort,← checkEntries 0 sort entries⟩

def decodeMemoryPageToken (token : Option MemoryToken) (sort : List MemorySortTerm) :
    Except RpcError MemoryPageToken :=
  match token with
  | none => .error (errInvalidPageToken "empty token")
  | some (.garbled message) => .error (errInvalidPageToken message)
  | some (.object _ none) => .error (errInvalidPageToken "missing entries")
  | some (.object context (some entries)) =>
    if context ≠ memorySortContext sort then
      .error (errInvalidPageToken ("token sort context " ++ goQuote context ++
        " does not match request " ++ goQuote (memorySortContext sort)))
    else newMemoryPageToken sort entries

/-- `NewMemoryPageToken`, which panics when the values do not fit the key. -/
def memoryPageTokenOf (sort : List MemorySortTerm) (values : List CursorValue) :
    Option MemoryPageToken :=
  if values.length ≠ sort.length then none
  else
    let entries := (sort.zip values).mapM fun (p : MemorySortTerm × CursorValue) =>
      p.1.cursorEntry p.2
    entries.map fun entries => ⟨memorySortContext sort,entries⟩

/-! ## The repository -/

/-- A stored memory; its times are in milliseconds since 1970, and `CreateMemory` has validated its
id. -/
structure MemoryDocument where
  template : String
  presetID : String
  memoryID : String
  content : String
  createTime : Int
  updateTime : Int
  named : memoryID ≠ ""
  deriving DecidableEq

/-- The values of the sorted fields. -/
inductive BsonValue
  | string (s : String)
  | date (millis : Int)
  deriving DecidableEq, Repr

namespace BsonValue

/-- A missing field comes first, and dates come after strings. -/
def rank : Option BsonValue → Nat
  | none => 0
  | some (string _) => 1
  | some (date _) => 2

def text : Option BsonValue → String
  | some (string s) => s
  | _ => ""

def millis : Option BsonValue → Int
  | some (date millis) => millis
  | _ => 0

def order : Option BsonValue → Option BsonValue → Ordering :=
  compareLex (compareOn rank) (compareLex (compareOn text) (compareOn millis))

end BsonValue

/-- An instant is stored with its milliseconds. -/
def CursorValue.bson : CursorValue → BsonValue
  | string s => .string s
  | time nanos => .date (nanos / 1000000)

namespace MemoryDocument

/-- `memoryDocument.sortValue`, which panics on another field. -/
def sortValue (d : MemoryDocument) (field : String) : Option CursorValue :=
  if field = "memory_id" then some (.string d.memoryID)
  else if field = "update_time" then some (.time (d.updateTime * 1000000))
  else none

/-- The value of a field of the stored document. -/
def bson (d : MemoryDocument) (mongoField : String) : Option BsonValue :=
  if mongoField = "memory_id" then some (.string d.memoryID)
  else if mongoField = "update_time" then some (.date d.updateTime)
  else none

end MemoryDocument

inductive Condition
  | eq (value : BsonValue)
  | gt (value : BsonValue)
  | lt (value : BsonValue)
  deriving DecidableEq, Repr

/-- A comparison matches values of the same type only. -/
def Condition.holds (v : Option BsonValue) : Condition → Bool
  | eq value => decide (BsonValue.order v (some value) = .eq)
  | gt value => decide (BsonValue.rank v = BsonValue.rank (some value)) &&
      decide (BsonValue.order v (some value) = .gt)
  | lt value => decide (BsonValue.rank v = BsonValue.rank (some value)) &&
      decide (BsonValue.order v (some value) = .lt)

/-- The conditions of a filter document by their fields. -/
abbrev Clause := List (String × Condition)

/-- `clause[field] = condition`. -/
def Clause.assign (clause : Clause) (field : String) (condition : Condition) : Clause :=
  clause.filter (fun c => c.1 ≠ field) ++ [(field,condition)]

def Clause.matches (clause : Clause) (d : MemoryDocument) : Bool :=
  clause.all fun c => c.2.holds (d.bson c.1)

def memoryCmpOp (descending : Bool) (value : BsonValue) : Condition :=
  if descending then .lt value else .gt value

/-- The clauses of the keys that are left, over the equalities of the keys before. -/
def seekFrom : List (MemorySortTerm × CursorValue) → Clause → List Clause
  | [],_ => []
  | (term,value) :: keys,equal =>
    equal.assign term.mongoField (memoryCmpOp term.descending value.bson) ::
      seekFrom keys (equal.assign term.mongoField (.eq value.bson))

def memorySeekClauses (sort : List MemorySortTerm) (cursor : MemoryPageToken) : List Clause :=
  seekFrom (sort.zip (cursor.entries.map fun e => e.typed)) []

def memorySortDocument (sort : List MemorySortTerm) : List (String × Int) :=
  sort.map fun term => (term.mongoField,if term.descending then -1 else 1)

/-- The order of one key of a sort document. -/
def sortDocumentOrder (key : String × Int) (d e : MemoryDocument) : Ordering :=
  let o := BsonValue.order (d.bson key.1) (e.bson key.1)
  if key.2 = -1 then o.swap else o

/-- The documents of a preset that match one of the clauses, in the order of the sort document, as
many as the limit. -/
def find (docs : List MemoryDocument) (template presetID : String) (clauses : Option (List Clause))
    (sort : List (String × Int)) (limit : Nat) : List MemoryDocument :=
  (Seek.sorted (Seek.compareBy (sort.map sortDocumentOrder))
    (docs.filter fun d => d.template = template ∧ d.presetID = presetID ∧
      clauses.all fun cs => cs.any fun c => c.matches d)).take limit

def memoryNextPageToken (doc : MemoryDocument) (sort : List MemorySortTerm) : Option MemoryToken :=
  encodeMemoryPageToken
    ((sort.mapM fun term => doc.sortValue term.field).bind (memoryPageTokenOf sort))

/-- `memoryRepository.ListMemories`. -/
def listMemoriesPage (docs : List MemoryDocument) (template presetID : String)
    (sort : List MemorySortTerm) (cursor : Option MemoryPageToken) (pageSize : Nat) :
    List MemoryDocument × Option MemoryToken :=
  let found := find docs template presetID (cursor.map (memorySeekClauses sort))
    (memorySortDocument sort) (pageSize + 1)
  if pageSize < found.length then
    (found.take pageSize,found[pageSize - 1]?.bind fun doc => memoryNextPageToken doc sort)
  else (found,none)

/-! ## The handler -/

def defaultListMemoriesPageSize : Nat := 100
def maxListMemoriesPageSize : Nat := 1000

def memoryPageSize (pageSize : Int) : Except RpcError Nat :=
  let pageSize := if pageSize ≤ 0 then (defaultListMemoriesPageSize : Int) else pageSize
  if maxListMemoriesPageSize < pageSize then
    .error (invalidArgument ("page_size exceeds maximum of " ++ toString maxListMemoriesPageSize))
  else .ok pageSize.toNat

/-- `Handler.ListMemories` for the parent of a preset. -/
def listMemories (docs : List MemoryDocument) (template presetID orderBy : String)
    (pageSize : Int) (token : Option MemoryToken) :
    Except RpcError (List MemoryDocument × Option MemoryToken) := do
  validateTemplateName template
  let pageSize ← memoryPageSize pageSize
  match parseMemoryOrderBy orderBy with
  | .error message => .error (invalidArgument message)
  | .ok sort =>
    match token with
    | none => .ok (listMemoriesPage docs template presetID sort none pageSize)
    | some token =>
      let cursor ← decodeMemoryPageToken (some token) sort
      .ok (listMemoriesPage docs template presetID sort (some cursor) pageSize)

end Dominion.Memory
