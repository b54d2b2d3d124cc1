import Mathlib.Data.List.Basic
import Mathlib.Data.List.Sort
import Dominion.Deploy.Domain.Spec

/-! # The memory service

The collection of one (template, preset), with the unique index over memory ids. -/
namespace Dominion.Memory

open Dominion.Deploy.Domain (goQuote)

structure MemoryEntry where
  memory_id : String
  content : String
  deriving DecidableEq, Repr

/-- An error of a call, with its gRPC code when it is a status. -/
structure RpcError where
  code : Option Nat
  message : String
  deriving DecidableEq, Repr

def invalidArgument (message : String) : RpcError :=
  ⟨some 3,message⟩

def errNotFound : RpcError :=
  ⟨some 5,"resource not found"⟩

def errAlreadyExists : RpcError :=
  ⟨some 6,"resource already exists"⟩

def maxMemoryContentRunes : Nat := 1024

/-- `^[a-z0-9_-]+$`. -/
def validateResourceId (kind id : String) : Except RpcError Unit :=
  if id ≠ "" ∧ id.toList.all (fun c =>
      ('a' ≤ c && c ≤ 'z') || ('0' ≤ c && c ≤ '9') || c == '_' || c == '-') = true then .ok ()
  else .error (invalidArgument (kind ++ " " ++ goQuote id ++ " must match ^[a-z0-9_-]+$"))

def validateMemoryID (id : String) : Except RpcError Unit :=
  validateResourceId "memory_id" id

def validateMemoryContent (content : String) : Except RpcError Unit :=
  if content.length > maxMemoryContentRunes then
    .error (invalidArgument ("content exceeds maximum of " ++ toString maxMemoryContentRunes ++
      " runes (got " ++ toString content.length ++ ")"))
  else .ok ()

/-- The documents of one (template, preset), in the order of their insertion. -/
abbrev Collection := List MemoryEntry

namespace Collection

def createMemory (s : Collection) (id content : String) : Except RpcError Collection :=
  match validateMemoryID id with
  | .error error => .error error
  | .ok () =>
    match validateMemoryContent content with
    | .error error => .error error
    | .ok () =>
      if s.any fun e => e.memory_id = id then .error errAlreadyExists
      else .ok (s ++ [⟨id,content⟩])

def updateMemory (s : Collection) (id content : String) : Except RpcError Collection :=
  match validateMemoryContent content with
  | .error error => .error error
  | .ok () =>
    if s.any fun e => e.memory_id = id then
      .ok (s.map fun e => if e.memory_id = id then { e with content } else e)
    else .error errNotFound

def deleteMemory (s : Collection) (id : String) : Except RpcError Collection :=
  if s.any fun e => e.memory_id = id then .ok (s.filter fun e => e.memory_id ≠ id)
  else .error errNotFound

/-- All pages, in the default order of the service. -/
def listMemories (s : Collection) : List MemoryEntry :=
  s.insertionSort fun a b => a.memory_id ≤ b.memory_id

theorem listMemories_perm (s : Collection) : s.listMemories.Perm s :=
  List.perm_insertionSort _ s

@[simp] theorem mem_listMemories {s : Collection} {e : MemoryEntry} : e ∈ s.listMemories ↔ e ∈ s :=
  s.listMemories_perm.mem_iff

end Collection

end Dominion.Memory
