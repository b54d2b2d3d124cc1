import Dominion.Release.Staging

/-! # Publishing of a release

The files of the staging directory are uploaded, the public manifest and the digests last.  What is
published is what the manifest says if and only if every file name denotes an entry of its own in
the staging directory. -/
namespace Dominion.Release

open Dominion.Framework
open Dominion.Deploy.Domain (Err goQuote)

/-- An object of the bucket. -/
structure Object where
  key : String
  content : List UInt8
  deriving DecidableEq

def objectKey (name version filename : String) : String :=
  name ++ "/" ++ version ++ "/" ++ filename

section publish

variable {δ : Type} [DecidableEq δ] (os : PathRules δ) (refusal : String → Err)
  (uploader : Object → Except Err Unit)

/-- `listStagingFiles`, then the order of the uploads: artifacts, public manifest, digests. -/
def uploadOrder (files : List String) : List String :=
  files.filter (fun f => f ≠ outputManifestFile ∧ f ≠ sha256SumsFile) ++
    [if outputManifestFile ∈ files then outputManifestFile else "",
      if sha256SumsFile ∈ files then sha256SumsFile else ""]

/-- `Publish`, with the objects that it has uploaded. -/
def publish (stagingDir : String) (manifest : ReleaseManifest) (disk : Disk δ) :
    Except Err (List Object) := do
  let d ← require (os.directory stagingDir) ((refusal stagingDir).withContext
    ("list staging files: read staging dir " ++ goQuote stagingDir ++ ": "))
  (uploadOrder (disk.readDir d)).mapM fun filename => do
    let key := objectKey manifest.name manifest.version filename
    let content ← stagedFile os refusal stagingDir disk filename
      ("open staging file " ++ goQuote key ++ ": ")
    match uploader ⟨key,content⟩ with
    | .error err => .error (err.withContext ("upload " ++ goQuote key ++ ": "))
    | .ok () => return ⟨key,content⟩

/-- An artifact as Bazel has built it. -/
structure ArtifactMapping where
  label : String
  filePath : String

/-- `artifactPaths`; the last entry of a label counts. -/
def artifactPaths (built : List ArtifactMapping) (label : String) : Option String :=
  (built.reverse.find? fun a => a.label = label).map ArtifactMapping.filePath

/-- `main`, from the parsed manifest on; `stagingDir` is the directory that `MkdirTemp` has made. -/
def release (stagingDir : String) (manifest : ReleaseManifest) (built : List ArtifactMapping)
    (disk : Disk δ) : Except Err (List Object) := do
  manifest.validate
  validateTargets (manifest.present.map Artifact.target) (built.map ArtifactMapping.label)
  let staged ← stageArtifacts os refusal stagingDir manifest.present (artifactPaths built) disk
  let (_,generated) ← generateOutputManifest os refusal manifest stagingDir staged
  let summed ← generateSHA256SUMS os refusal stagingDir generated
  publish os refusal uploader stagingDir manifest summed

end publish

/-! ## What the manifest says -/

section statement

variable {δ : Type} [DecidableEq δ]

/-- A name of the directory, joined to its path, leads to it. -/
def Reaches (os : PathRules δ) (stagingDir : String) (d : δ) (name : String) : Prop :=
  os.locate (Text.joinPath [stagingDir,name]) = some ⟨d,name⟩

/-- The directory that `MkdirTemp` has made: it is empty, its names are entries of it, and none of
the files that were built is in it. -/
structure FreshDir (os : PathRules δ) (stagingDir : String) (d : δ) (built : List ArtifactMapping)
    (disk : Disk δ) : Prop where
  directory : os.directory stagingDir = some d
  names : ∀ path name, os.locate path = some ⟨d,name⟩ → Reaches os stagingDir d name
  outputManifest : Reaches os stagingDir d outputManifestFile
  sha256Sums : Reaches os stagingDir d sha256SumsFile
  empty : ∀ place ∈ disk.map Prod.fst, place.dir ≠ d
  distinct : (disk.map Prod.fst).Nodup
  built : ∀ a ∈ built, ∀ place, os.locate a.filePath = some place → place.dir ≠ d

/-- The content of an artifact before the release. -/
def source (os : PathRules δ) (built : List ArtifactMapping) (disk : Disk δ) (a : Artifact) :
    Option (List UInt8) :=
  match (artifactPaths built a.target).bind (disk.stat os) with
  | some (.file content) => some content
  | _ => none

/-- The entry of an artifact with this content. -/
def entryOf (a : Artifact) (content : List UInt8) : OutputArtifact where
  filename := a.filename
  platform := a.platform
  arch := a.arch
  size := content.length
  sha256 := fileSHA256 content

def publicManifest (m : ReleaseManifest) (contents : List (List UInt8)) : OutputManifest where
  name := m.name
  version := m.version
  artifacts := List.zipWith entryOf m.present contents

/-- The uploads are one object for each artifact, with its content and a name of its own, the public
manifest, whose entries have the sizes and the digests of these contents, and the digests, whose
lines are the digests and the names of all other objects. -/
structure PublishedAs (m : ReleaseManifest) (uploads : List Object) (names : List String)
    (contents : List (List UInt8)) (sums : String) : Prop where
  length : names.length = m.present.length
  distinct : (names ++ [outputManifestFile,sha256SumsFile]).Nodup
  uploads : uploads.Perm ((names.zip contents ++
    [(outputManifestFile,bytes (publicManifest m contents).marshal),
      (sha256SumsFile,bytes sums)]).map fun e => ⟨objectKey m.name m.version e.1,e.2⟩)
  sums : (Text.split sums '\n').Perm ((names.zip contents ++
    [(outputManifestFile,bytes (publicManifest m contents).marshal)]).map
      (fun e => sumsLine e.2 e.1) ++ [""])

/-- What is published is what the manifest says of the artifacts that were built. -/
def AsManifest (os : PathRules δ) (built : List ArtifactMapping) (disk : Disk δ)
    (m : ReleaseManifest) (uploads : List Object) : Prop :=
  ∃ names contents sums, List.Forall₂ (fun a content => source os built disk a = some content)
    m.present contents ∧ PublishedAs m uploads names contents sums

/-- Every file name denotes an entry of its own in the staging directory, none of the generated
ones and none with a line break in its name. -/
def Direct (os : PathRules δ) (stagingDir : String) (d : δ) (m : ReleaseManifest) : Prop :=
  ∃ names : List String, List.Forall₂ (fun a name =>
      os.locate (Text.joinPath [stagingDir,a.filename]) = some ⟨d,name⟩) m.present names ∧
    (names ++ [outputManifestFile,sha256SumsFile]).Nodup ∧ ∀ name ∈ names, '\n' ∉ name.toList

end statement

end Dominion.Release
