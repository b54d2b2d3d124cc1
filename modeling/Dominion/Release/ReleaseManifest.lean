import Dominion.Framework.Fallible
import Dominion.Solver.Target
import Mathlib.Data.List.ReduceOption
import Mathlib.Data.List.Sort

/-! # Release manifests

A manifest names a release and the artifacts that it publishes: for each the target that builds it,
the name of its file, and the platform that it is for. -/
namespace Dominion.Release

open Dominion.Framework
open Dominion.Deploy.Domain (Err goQuote)
open Dominion.Solver (dnsLabelPattern)

structure Artifact where
  target : String
  filename : String
  platform : String
  arch : String
  deriving DecidableEq

/-- `none` is a null in the list. -/
structure ReleaseManifest where
  name : String
  version : String
  artifacts : List (Option Artifact)

def isAlphanumeric (c : Char) : Bool :=
  Deploy.Domain.isDigit c || (decide ('a' ≤ c) && decide (c ≤ 'z')) ||
    (decide ('A' ≤ c) && decide (c ≤ 'Z'))

/-- Parts between dots, each of one character or more. -/
def dotted (ok : Char → Bool) (cs : List Char) : Option Nat :=
  let parts := cs.splitOn '.'
  if parts.all fun part => part ≠ [] && part.all ok then some parts.length else none

/-- `^[0-9]+\.[0-9]+\.[0-9]+(-[a-zA-Z0-9]+(\.[a-zA-Z0-9]+)*)?$`. -/
def validVersionPattern (s : String) : Bool :=
  decide (dotted Deploy.Domain.isDigit (s.toList.takeWhile (· ≠ '-')) = some 3) &&
    match s.toList.dropWhile (· ≠ '-') with
    | [] => true
    | _ :: suffix => (dotted isAlphanumeric suffix).isSome

def validPlatforms : List String := ["windows","linux","darwin"]

def validArchs : List String := ["amd64","386","arm64","arm"]

def Artifact.platformArch (a : Artifact) : String :=
  a.platform ++ "/" ++ a.arch

/-- A field of an artifact that is empty. -/
def requiredField (i : Nat) (field value : String) : Except Err Unit :=
  refuse (value = "") (.new (s!"artifacts[{i}]." ++ field ++ " is required"))

def validField (i : Nat) (field value : String) (valid : List String) : Except Err Unit :=
  refuse (value ∉ valid) (.new (s!"artifacts[{i}]." ++ field ++ " " ++ goQuote value ++
    " is invalid"))

/-- A value that an artifact before has as well. -/
def distinctField (what value : String) (before : List String) : Except Err Unit :=
  refuse (value ∈ before) (.new ("duplicate " ++ what ++ " " ++ goQuote value))

def validateArtifact (before : List Artifact) (i : Nat) (a : Artifact) : Except Err Unit := do
  requiredField i "target" a.target
  requiredField i "filename" a.filename
  requiredField i "platform" a.platform
  requiredField i "arch" a.arch
  validField i "platform" a.platform validPlatforms
  validField i "arch" a.arch validArchs
  distinctField "target" a.target (before.map Artifact.target)
  distinctField "filename" a.filename (before.map Artifact.filename)
  distinctField "platform and arch" a.platformArch (before.map Artifact.platformArch)

def validateArtifacts (before : List Artifact) (i : Nat) :
    List (Option Artifact) → Except Err Unit
  | [] => .ok ()
  | none :: _ => .error (.new s!"artifacts[{i}] is required")
  | some a :: rest => do
    validateArtifact before i a
    validateArtifacts (before ++ [a]) (i + 1) rest

def validNamePatternText : String := "^[a-z][a-z0-9-]*$"

def validVersionPatternText : String :=
  "^[0-9]+\\.[0-9]+\\.[0-9]+(-[a-zA-Z0-9]+(\\.[a-zA-Z0-9]+)*)?$"

def ReleaseManifest.validate (m : ReleaseManifest) : Except Err Unit := do
  refuse (m.name = "") (.new "name is required")
  refuse (dnsLabelPattern m.name = false)
    (.new ("name " ++ goQuote m.name ++ " must match " ++ validNamePatternText))
  refuse (m.version = "") (.new "version is required")
  refuse (validVersionPattern m.version = false)
    (.new ("version " ++ goQuote m.version ++ " must match " ++ validVersionPatternText))
  refuse (m.artifacts = []) (.new "artifacts is required")
  validateArtifacts [] 0 m.artifacts

/-- The artifacts of a manifest that `Validate` accepts. -/
def ReleaseManifest.present (m : ReleaseManifest) : List Artifact :=
  m.artifacts.reduceOption

/-- `%v` of a list of texts. -/
def listText (xs : List String) : String :=
  "[" ++ " ".intercalate xs ++ "]"

def validateTargets (manifestTargets bazelTargets : List String) : Except Err Unit :=
  let manifestSorted := manifestTargets.insertionSort (· ≤ ·)
  let bazelSorted := bazelTargets.insertionSort (· ≤ ·)
  refuse (manifestSorted ≠ bazelSorted) (.new ("manifest targets " ++ listText manifestSorted ++
    " do not match bazel targets " ++ listText bazelSorted))

end Dominion.Release
