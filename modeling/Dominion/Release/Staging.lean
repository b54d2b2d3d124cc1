import Dominion.Framework.Files
import Dominion.Framework.Sha256
import Dominion.Release.ReleaseManifest

/-! # Staging of a release

The artifacts are copied into a staging directory under the names of the manifest, and two files
are generated beside them: the public manifest and the list of the digests. -/
namespace Dominion.Release

open Dominion.Framework
open Dominion.Deploy.Domain (Err goQuote)

def outputManifestFile : String := "manifest.json"

def sha256SumsFile : String := "SHA256SUMS"

structure OutputArtifact where
  filename : String
  platform : String
  arch : String
  size : Nat
  sha256 : String
  deriving DecidableEq

structure OutputManifest where
  name : String
  version : String
  artifacts : List OutputArtifact

/-! ## Texts -/

def bytes (s : String) : List UInt8 :=
  s.toByteArray.data.toList

/-- `hex.EncodeToString`. -/
def hexEncode (bs : List UInt8) : String :=
  String.ofList (bs.flatMap fun b => [Nat.digitChar (b.toNat / 16),Nat.digitChar (b.toNat % 16)])

/-- The digest of a file with this content. -/
def fileSHA256 (content : List UInt8) : String :=
  hexEncode (Sha256.sha256 content)

/-- A character of a JSON text, as `encoding/json` escapes it. -/
def jsonEscape (c : Char) : List Char :=
  let unicode := ['\\','u'] ++ [c.toNat / 4096,c.toNat / 256 % 16,c.toNat / 16 % 16,
    c.toNat % 16].map Nat.digitChar
  match c with
  | '"' => ['\\','"']
  | '\\' => ['\\','\\']
  | '\n' => ['\\','n']
  | '\r' => ['\\','r']
  | '\t' => ['\\','t']
  | c =>
    if c.toNat = 8 then ['\\','b']
    else if c.toNat = 12 then ['\\','f']
    else if c.toNat < 32 ∨ c.toNat ∈ [60,62,38,0x2028,0x2029] then unicode
    else [c]

def jsonString (s : String) : String :=
  String.ofList ('"' :: s.toList.flatMap jsonEscape ++ ['"'])

/-- An object or an array over several lines. -/
def indented (opening closing indent : String) (elements : List String) : String :=
  opening ++ "\n" ++ ",\n".intercalate (elements.map fun e => indent ++ "  " ++ e) ++ "\n" ++
    indent ++ closing

def jsonField (name value : String) : String :=
  jsonString name ++ ": " ++ value

def OutputArtifact.marshal (a : OutputArtifact) : String :=
  indented "\x7b" "\x7d" "    " [jsonField "filename" (jsonString a.filename),
    jsonField "platform" (jsonString a.platform),jsonField "arch" (jsonString a.arch),
    jsonField "size" a.size.repr,jsonField "sha256" (jsonString a.sha256)]

/-- `json.MarshalIndent`; a nil list is null. -/
def OutputManifest.marshal (m : OutputManifest) : String :=
  let artifacts :=
    if m.artifacts = [] then "null"
    else indented "[" "]" "  " (m.artifacts.map OutputArtifact.marshal)
  indented "\x7b" "\x7d" "" [jsonField "name" (jsonString m.name),
    jsonField "version" (jsonString m.version),jsonField "artifacts" artifacts]

/-! ## Passes over the staging directory -/

section passes

variable {δ : Type} [DecidableEq δ] (os : PathRules δ) (refusal : String → Err)

/-- `copyFile`: the destination is emptied before the source is read. -/
def copyFile (disk : Disk δ) (dstPath srcPath : String) : Except Err (Disk δ) := do
  match disk.stat os srcPath with
  | some (.file _) =>
    let created ← require (disk.writeFile os dstPath [])
      ((refusal dstPath).withContext ("create destination " ++ goQuote dstPath ++ ": "))
    match created.stat os srcPath with
    | some (.file content) => require (created.writeFile os dstPath content) (refusal dstPath)
    | _ => .error ((refusal srcPath).withContext
        ("copy " ++ goQuote srcPath ++ " to " ++ goQuote dstPath ++ ": "))
  | _ => .error ((refusal srcPath).withContext ("open source " ++ goQuote srcPath ++ ": "))

def stageArtifact (stagingDir : String) (artifactPaths : String → Option String) (disk : Disk δ)
    (artifact : Artifact) : Except Err (Disk δ) :=
  match artifactPaths artifact.target with
  | none => .error (.new ("artifact label " ++ goQuote artifact.target ++ " not found"))
  | some sourcePath =>
    match disk.stat os sourcePath with
    | none => .error ((refusal sourcePath).withContext ("stat artifact " ++
        goQuote artifact.target ++ " file " ++ goQuote sourcePath ++ ": "))
    | some .other => .error (.new ("artifact " ++ goQuote artifact.target ++ " file " ++
        goQuote sourcePath ++ " is not a regular file"))
    | some (.file _) =>
      match copyFile os refusal disk (Text.joinPath [stagingDir,artifact.filename]) sourcePath with
      | .error err =>
        .error (err.withContext ("stage artifact " ++ goQuote artifact.target ++ ": "))
      | .ok staged => .ok staged

def stageArtifacts (stagingDir : String) (artifacts : List Artifact)
    (artifactPaths : String → Option String) (disk : Disk δ) : Except Err (Disk δ) :=
  artifacts.foldlM (stageArtifact os refusal stagingDir artifactPaths) disk

def outputArtifact (stagingDir : String) (disk : Disk δ) (artifact : Artifact) :
    Except Err OutputArtifact :=
  let path := Text.joinPath [stagingDir,artifact.filename]
  match disk.stat os path with
  | none => .error ((refusal path).withContext
      ("size staged artifact " ++ goQuote artifact.filename ++ ": "))
  | some .other => .error ((refusal path).withContext
      ("hash staged artifact " ++ goQuote artifact.filename ++ ": "))
  | some (.file content) => .ok {
      filename := artifact.filename
      platform := artifact.platform
      arch := artifact.arch
      size := content.length
      sha256 := fileSHA256 content }

def generateOutputManifest (manifest : ReleaseManifest) (stagingDir : String) (disk : Disk δ) :
    Except Err (OutputManifest × Disk δ) := do
  let entries ← manifest.present.mapM (outputArtifact os refusal stagingDir disk)
  let output := OutputManifest.mk manifest.name manifest.version entries
  let path := Text.joinPath [stagingDir,outputManifestFile]
  let written ← require (disk.writeFile os path (bytes output.marshal))
    ((refusal path).withContext ("write output manifest " ++ goQuote path ++ ": "))
  return (output,written)

def sumsLine (content : List UInt8) (filename : String) : String :=
  fileSHA256 content ++ "  " ++ filename

/-- A file of the staging directory. -/
def stagedFile (stagingDir : String) (disk : Disk δ) (filename : String) (what : String) :
    Except Err (List UInt8) :=
  let path := Text.joinPath [stagingDir,filename]
  match disk.stat os path with
  | some (.file content) => .ok content
  | _ => .error ((refusal path).withContext what)

def generateSHA256SUMS (stagingDir : String) (disk : Disk δ) : Except Err (Disk δ) := do
  let d ← require (os.directory stagingDir)
    ((refusal stagingDir).withContext ("read staging dir " ++ goQuote stagingDir ++ ": "))
  let filenames := ((disk.readDir d).filter (· ≠ sha256SumsFile)).insertionSort (· ≤ ·)
  let lines ← filenames.mapM fun filename => do
    let content ← stagedFile os refusal stagingDir disk filename
      ("hash staged file " ++ goQuote filename ++ ": ")
    return sumsLine content filename ++ "\n"
  let path := Text.joinPath [stagingDir,sha256SumsFile]
  require (disk.writeFile os path (bytes (String.join lines)))
    ((refusal path).withContext ("write SHA256SUMS " ++ goQuote path ++ ": "))

end passes

end Dominion.Release
