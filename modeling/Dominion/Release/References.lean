import Dominion.Framework.Locations
import Dominion.Solver.Target

/-! # Workspace references

A configuration file names service configurations and build targets by references relative to its
own directory; they are normalized to URIs that serve as keys. -/
namespace Dominion.Release

open Dominion.Framework
open Dominion.Solver (cutChar)

/-! ## Workspace -/

def workspacePathPrefix : String := "//"

/-- `strings.HasPrefix` and `strings.TrimPrefix` for the prefix of the workspace. -/
def cutWorkspacePath (s : String) : Option String :=
  match s.toList with
  | '/' :: '/' :: rest => some (String.ofList rest)
  | _ => none

def trimWorkspacePath (s : String) : String :=
  (cutWorkspacePath s).getD s

def resolveRootPath (root inputPath : String) : String :=
  Text.joinPath [root,trimWorkspacePath inputPath]

/-- The segments of a clean absolute path. -/
def absoluteSegments (path : String) : List (List Char) :=
  (Text.cleanComponents true (path.toList.splitOn '/') []).reverse

/-- `filepath.Rel` of two absolute paths, by their segments. -/
def relativeSegments : List (List Char) → List (List Char) → List (List Char)
  | b :: base,t :: target =>
    if b = t then relativeSegments base target
    else (b :: base).map (fun _ => ['.','.']) ++ t :: target
  | base,target => base.map (fun _ => ['.','.']) ++ target

def toURI (root absPath : String) : Except String String :=
  let segments := relativeSegments (absoluteSegments root) (absoluteSegments absPath)
  let rel := String.ofList (if segments = [] then ['.'] else ['/'].intercalate segments)
  if rel = ".." ∨ "../".toList.isPrefixOf rel.toList then
    .error ("路径 " ++ absPath ++ " 不在项目目录 " ++ root ++ " 下")
  else .ok (workspacePathPrefix ++ rel)

/-! ## Normalization -/

/-- `path.Dir`. -/
def pathDir (path : String) : String :=
  Text.cleanPath (String.ofList (path.toList.rdropWhile (· ≠ '/')))

def uriDir (uri : String) : String :=
  let dir := pathDir (trimWorkspacePath uri)
  if dir = "." then workspacePathPrefix else workspacePathPrefix ++ dir

def invalidArtifactTarget (target : String) : String :=
  "非法 target 格式: " ++ target

def normalizeArtifactTarget (target configURI : String) : Except String String :=
  let target := Text.trimSpace target
  if (cutWorkspacePath target).isSome then .ok target
  else
    let dir := uriDir configURI
    if target.toList.head? = some ':' then
      if target.length = 1 then .error (invalidArtifactTarget target) else .ok (dir ++ target)
    else
      match cutChar target ':' with
      | none => .error (invalidArtifactTarget target)
      | some (pathPart,namePart) =>
        if pathPart = "" ∨ namePart = "" ∨ ':' ∈ namePart.toList then
          .error (invalidArtifactTarget target)
        else
          let baseDir := trimWorkspacePath dir
          let joined := Text.joinPath [baseDir,pathPart]
          let joined := if joined = "." then "" else joined
          if joined = "" then .ok (workspacePathPrefix ++ ":" ++ namePart)
          else .ok (workspacePathPrefix ++ joined ++ ":" ++ namePart)

def normalizeArtifactPath (artifactPath configURI : String) : String :=
  let trimmed := Text.trimSpace artifactPath
  if (cutWorkspacePath trimmed).isSome then trimmed
  else uriDir configURI ++ "/" ++ trimmed

/-! ## References -/

/-- A configuration file below the root of the workspace. -/
structure ConfigFile where
  dir : Location
  base : List Char
  plain : Plain base

def ConfigFile.location (c : ConfigFile) : Location :=
  c.dir.child c.base c.plain

/-- The URI of a location. -/
def locationURI (p : Location) : String :=
  workspacePathPrefix ++ String.ofList p.text

/-- The URI of a build target of a package. -/
def labelURI (p : Location) (name : List Char) : String :=
  locationURI p ++ ":" ++ String.ofList name

def ConfigFile.uri (c : ConfigFile) : String :=
  locationURI c.location

/-- The text of a reference without the white space around it. -/
def trimmed (reference : String) : List Char :=
  (Text.trimSpace reference).toList

def Relative (reference : String) : Prop :=
  (trimmed reference).head? ≠ some '/'

/-- The package of a target, as it is written. -/
def packagePart (target : String) : List Char :=
  (trimmed target).takeWhile (· ≠ ':')

def targetName (target : String) : List Char :=
  ((trimmed target).dropWhile (· ≠ ':')).tail

/-! ## URIs of configuration files -/

section uris

variable {c : ConfigFile} {d p : Location}

private theorem cut_workspace (cs : List Char) :
    cutWorkspacePath (workspacePathPrefix ++ String.ofList cs) = some (String.ofList cs) := by
  simp [cutWorkspacePath,workspacePathPrefix]

private theorem trim_workspace (cs : List Char) :
    trimWorkspacePath (workspacePathPrefix ++ String.ofList cs) = String.ofList cs := by
  rw [trimWorkspacePath,cut_workspace]
  rfl

private theorem splitOn_plain {segment : List Char} (h : Plain segment) :
    segment.splitOn '/' = [segment] := by
  rw [List.splitOn_eq_splitOnP]
  apply List.splitOnP_eq_singleton
  intro c hc
  simpa using fun he : c = '/' => h.2.2.2 (he ▸ hc)

private theorem text_child {segment : List Char} (h : Plain segment) (hd : d.segments ≠ []) :
    (d.child segment h).text = d.text ++ '/' :: segment := by
  apply Location.text_of_splitOn
  rw [Location.splitOn_append,Location.splitOn_text hd,splitOn_plain h]
  rfl

private theorem text_child_root {segment : List Char} (h : Plain segment) (hd : d.segments = []) :
    (d.child segment h).text = segment := by
  apply Location.text_of_splitOn
  rw [splitOn_plain h]
  change [segment] = d.segments ++ [segment]
  rw [hd,List.nil_append]

private theorem rdropWhile_name {segment : List Char} (h : '/' ∉ segment) (xs : List Char) :
    (xs ++ segment).rdropWhile (· ≠ '/') = xs.rdropWhile (· ≠ '/') := by
  induction segment using List.reverseRecOn with
  | nil => rw [List.append_nil]
  | append_singleton segment c ih =>
    simp only [List.mem_append,List.mem_singleton,not_or] at h
    rw [← List.append_assoc,List.rdropWhile_concat_pos _ _ _ (by simpa using Ne.symm h.2),ih h.1]

private theorem uriDir_uri (c : ConfigFile) : uriDir c.uri = locationURI c.dir := by
  have hname : '/' ∉ c.base := c.plain.2.2.2
  unfold uriDir ConfigFile.uri locationURI
  rw [trim_workspace,pathDir,String.toList_ofList,ConfigFile.location]
  by_cases hdir : c.dir.segments = []
  · have hroot : c.dir.text = [] := Location.text_eq_nil.mpr hdir
    have hdrop := rdropWhile_name hname []
    rw [List.nil_append] at hdrop
    rw [text_child_root c.plain hdir,hdrop,hroot]
    decide
  · have hdrop : (c.dir.text ++ '/' :: c.base).rdropWhile (· ≠ '/') = c.dir.text ++ ['/'] := by
      have happend : c.dir.text ++ '/' :: c.base = c.dir.text ++ ['/'] ++ c.base := by simp
      rw [happend,rdropWhile_name hname]
      exact List.rdropWhile_concat_neg _ _ _ (by simp)
    have hclean := Location.cleanPath_eq (String.ofList (c.dir.text ++ ['/']))
      (by
        rw [String.toList_ofList,
          List.head?_append_of_ne_nil _ fun h => hdir (Location.text_eq_nil.mp h)]
        exact Location.head?_text_ne)
      (by simpa using Location.resolve_below hdir (Location.resolve_nil c.dir))
    rw [text_child c.plain hdir,hdrop,hclean,if_neg hdir,if_neg]
    intro hdot
    exact Location.text_ne_dot (String.ofList_injective hdot)

private theorem absoluteSegments_text (p : Location) :
    absoluteSegments (String.ofList ('/' :: p.text)) = p.segments := by
  have hclean : Text.cleanComponents true (('/' :: p.text).splitOn '/') [] = p.segments.reverse :=
    Location.clean_resolve true
      ((Location.resolve_slash .root p.text).trans (Location.resolve_text p))
  rw [absoluteSegments,String.toList_ofList,hclean,List.reverse_reverse]

private theorem relativeSegments_below (base rest : List (List Char)) :
    relativeSegments base (base ++ rest) = rest := by
  induction base with
  | nil => cases rest <;> rfl
  | cons b base ih =>
    rw [List.cons_append,relativeSegments,if_pos rfl]
    exact ih

theorem toURI_below (root : Location) (c : ConfigFile) :
    toURI (String.ofList ('/' :: root.text)) (String.ofList ('/' :: (root.below c.location).text)) =
      .ok c.uri := by
  have hsegments : c.location.segments ≠ [] := by simp [ConfigFile.location,Location.child]
  have hrel : relativeSegments root.segments (root.below c.location).segments =
      c.location.segments := relativeSegments_below _ _
  have hup : ¬(String.ofList c.location.text = ".." ∨
      "../".toList.isPrefixOf (String.ofList c.location.text).toList = true) := by
    rintro (hdots | hslash)
    · exact Location.text_ne_up (.inl rfl) (String.ofList_injective hdots)
    · obtain ⟨rest,hrest⟩ := List.isPrefixOf_iff_prefix.mp hslash
      have htext : c.location.text = ['.','.'] ++ '/' :: rest := by simpa using hrest.symm
      exact Location.text_ne_up (.inr rfl) htext
  unfold toURI
  dsimp only
  rw [absoluteSegments_text,absoluteSegments_text,hrel,if_neg hsegments]
  change (if String.ofList c.location.text = ".." ∨ "../".toList.isPrefixOf
    (String.ofList c.location.text).toList = true then _ else _) = _
  rw [if_neg hup]
  rfl

end uris

/-! ## Paths -/

section paths

variable {c c' : ConfigFile} {reference : String} {p : Location}

private theorem cut_none {s : String} (h : s.toList.head? ≠ some '/') :
    cutWorkspacePath s = none := by
  unfold cutWorkspacePath
  split
  · rename_i hlist
    rw [hlist] at h
    exact absurd rfl h
  · rfl

/-- Nothing is trimmed from a text that begins with a slash and ends where a trimmed text does. -/
theorem trimSpace_slash (front : List Char) (hfront : front.head? = some '/')
    (hne : trimmed reference ≠ []) {rest : List Char} (hrest : rest <:+ trimmed reference)
    (hrestne : rest ≠ []) :
    Text.trimSpace (String.ofList (front ++ rest)) = String.ofList (front ++ rest) := by
  obtain ⟨front',rfl⟩ := List.head?_eq_some_iff.mp hfront
  have hslash : Text.isSpace '/' = false := by decide
  have hlast : Text.isSpace ((trimmed reference).getLast hne) = false := by
    have htrimmed : trimmed reference =
        (reference.toList.dropWhile Text.isSpace).rdropWhile Text.isSpace :=
      String.toList_ofList
    have hlast := List.rdropWhile_last_not Text.isSpace (reference.toList.dropWhile Text.isSpace)
      (htrimmed ▸ hne)
    simpa [htrimmed] using hlast
  have hsame : (('/' :: front') ++ rest).getLast (by simp) = (trimmed reference).getLast hne := by
    obtain ⟨before,hbefore⟩ := hrest
    simp only [List.getLast_append_of_ne_nil _ hrestne,← hbefore]
  rw [Text.trimSpace,String.toList_ofList,List.cons_append,
    List.dropWhile_cons_of_neg (by simp [hslash])]
  apply congrArg String.ofList
  apply List.rdropWhile_eq_self_iff.mpr
  intro hne'
  change ¬Text.isSpace ((('/' :: front') ++ rest).getLast hne') = true
  rw [hsame,hlast]
  decide

/-- A path is joined to the directory of the file as it is written. -/
theorem normalizeArtifactPath_eq (h : Relative reference) :
    normalizeArtifactPath reference c.uri =
      workspacePathPrefix ++ String.ofList (c.dir.text ++ '/' :: trimmed reference) := by
  have hcut := cut_none h
  unfold normalizeArtifactPath
  dsimp only
  rw [if_neg (by simp [hcut]),uriDir_uri,locationURI]
  apply String.toList_inj.mp
  simp [trimmed]

/-- However it is written, a path is read from the file that it leads to. -/
theorem resolveRootPath_normalize (root : Location) (h : Relative reference)
    (hp : c.dir.resolve (trimmed reference) = some p) :
    resolveRootPath (String.ofList ('/' :: root.text)) (normalizeArtifactPath reference c.uri) =
      String.ofList ('/' :: (root.below p).text) := by
  have hjoined : resolveRootPath (String.ofList ('/' :: root.text))
      (normalizeArtifactPath reference c.uri) = Text.cleanPath (String.ofList
        ('/' :: (root.text ++ '/' :: (c.dir.text ++ '/' :: trimmed reference)))) := by
    have hparts : "/".intercalate [String.ofList ('/' :: root.text),
        String.ofList (c.dir.text ++ '/' :: trimmed reference)] = String.ofList
          ('/' :: (root.text ++ '/' :: (c.dir.text ++ '/' :: trimmed reference))) :=
      String.toList_inj.mp (by simp)
    have hfilter : [String.ofList ('/' :: root.text),
        String.ofList (c.dir.text ++ '/' :: trimmed reference)].filter (· ≠ "") =
          [String.ofList ('/' :: root.text),
            String.ofList (c.dir.text ++ '/' :: trimmed reference)] :=
      List.filter_eq_self.mpr (by simp)
    rw [resolveRootPath,normalizeArtifactPath_eq h,trim_workspace,Text.joinPath,hfilter]
    exact congrArg Text.cleanPath hparts
  rw [hjoined]
  apply Location.cleanPath_rooted
  rw [Location.resolve_append,Location.resolve_text,Option.bind_some,Location.resolve_append,
    Location.resolve_below_text,Option.bind_some]
  exact Location.resolve_from root hp

/-- The reference names its segments, below a directory. -/
def Literal (c : ConfigFile) (reference : String) : Prop :=
  c.dir.segments ≠ [] ∧ ∀ segment ∈ (trimmed reference).splitOn '/', Plain segment

/-- The path is normalized to the URI of the location, which stays what it is. -/
structure PathCanonical (c : ConfigFile) (reference : String) (p : Location) : Prop where
  uri : normalizeArtifactPath reference c.uri = locationURI p
  again : ∀ c' : ConfigFile, normalizeArtifactPath (locationURI p) c'.uri = locationURI p

private theorem text_of_literal (h : Literal c reference)
    (hp : c.dir.resolve (trimmed reference) = some p) :
    p.text = c.dir.text ++ '/' :: trimmed reference := by
  obtain ⟨p',hp',hsegments⟩ := Location.resolve_plain (d := c.dir) h.2
  have hsame : p' = p := Option.some.inj (hp'.symm.trans hp)
  apply Location.text_of_splitOn
  rw [Location.splitOn_append,Location.splitOn_text h.1,← hsegments,hsame]

private theorem literal_of_text (h : p.text = c.dir.text ++ '/' :: trimmed reference) :
    Literal c reference := by
  have hp : p.segments ≠ [] := fun hnil => by
    rw [Location.text_eq_nil.mpr hnil] at h
    simp at h
  have hdir : c.dir.segments ≠ [] := by
    intro hnil
    rw [Location.text_eq_nil.mpr hnil,List.nil_append] at h
    exact Location.head?_text_ne (by rw [h]; rfl : p.text.head? = some '/')
  refine ⟨hdir,fun segment hsegment => ?_⟩
  have hsplit := Location.splitOn_text hp
  rw [h,Location.splitOn_append] at hsplit
  apply p.plain
  rw [← hsplit]
  exact List.mem_append_right _ hsegment

private theorem pathCanonical_iff (h : Relative reference)
    (hp : c.dir.resolve (trimmed reference) = some p) :
    PathCanonical c reference p ↔ Literal c reference := by
  constructor
  · intro hcanonical
    have huri := hcanonical.uri
    rw [normalizeArtifactPath_eq h,locationURI] at huri
    have htext := String.ofList_injective (String.append_right_inj _ |>.mp huri)
    exact literal_of_text htext.symm
  · intro hliteral
    have htext := text_of_literal hliteral hp
    have hne : trimmed reference ≠ [] := by
      intro hnil
      have hplain := hliteral.2 [] (by rw [hnil]; simp)
      exact hplain.1 rfl
    refine ⟨by rw [normalizeArtifactPath_eq h,locationURI,htext],fun c' => ?_⟩
    have hsame : locationURI p =
        String.ofList (('/' :: '/' :: c.dir.text ++ ['/']) ++ trimmed reference) := by
      apply String.toList_inj.mp
      simp [locationURI,workspacePathPrefix,htext]
    have htrim := trimSpace_slash ('/' :: '/' :: c.dir.text ++ ['/']) rfl hne
      (List.suffix_refl _) hne
    rw [← hsame] at htrim
    unfold normalizeArtifactPath
    dsimp only
    rw [htrim,if_pos (by rw [locationURI,cut_workspace]; rfl)]

end paths

/-! ## Targets -/

section targets

variable {c c' : ConfigFile} {target : String} {p q : Location} {name other : List Char}

/-- A target `:name` or `package:name`. -/
def WellFormed (target : String) : Prop :=
  targetName target ≠ [] ∧ (packagePart target ≠ [] → ':' ∉ targetName target)

private theorem packagePart_of_colon {rest : List Char} (h : trimmed target = ':' :: rest) :
    packagePart target = [] ∧ targetName target = rest := by
  rw [packagePart,targetName,h]
  exact ⟨rfl,rfl⟩

theorem cut_at {sep : Char} {cs : List Char} (h : sep ∈ cs) :
    cs = cs.takeWhile (· ≠ sep) ++ sep :: (cs.dropWhile (· ≠ sep)).tail := by
  induction cs with
  | nil => cases h
  | cons c cs ih =>
    by_cases hc : c = sep
    · simp [hc]
    · have hrest : sep ∈ cs := (List.mem_cons.mp h).resolve_left (Ne.symm hc)
      rw [List.takeWhile_cons_of_pos (by simpa using hc),
        List.dropWhile_cons_of_pos (by simpa using hc),List.cons_append,← ih hrest]

private theorem trimmed_eq (h : ':' ∈ trimmed target) :
    trimmed target = packagePart target ++ ':' :: targetName target :=
  cut_at h

private theorem targetName_of_notMem (h : ':' ∉ trimmed target) : targetName target = [] := by
  have hdrop : (trimmed target).dropWhile (· ≠ ':') = [] :=
    List.dropWhile_eq_nil_iff.mpr fun c hc => by simpa using fun he : c = ':' => h (he ▸ hc)
  rw [targetName,hdrop]
  rfl

private theorem normalize_short (h : Relative target) (hcolon : (trimmed target).head? = some ':') :
    normalizeArtifactTarget target c.uri =
      if (Text.trimSpace target).length = 1 then
        .error (invalidArtifactTarget (Text.trimSpace target))
      else .ok (locationURI c.dir ++ Text.trimSpace target) := by
  have hcut : (cutWorkspacePath (Text.trimSpace target)).isSome ≠ true := by simp [cut_none h]
  have hhead : (Text.trimSpace target).toList.head? = some ':' := hcolon
  unfold normalizeArtifactTarget
  dsimp only
  rw [if_neg hcut,if_pos hhead,uriDir_uri]

/-- The path part is joined to the directory of the file. -/
def joinPackage (dir pathPart namePart : String) : String :=
  let joined := Text.joinPath [trimWorkspacePath dir,pathPart]
  let joined := if joined = "." then "" else joined
  if joined = "" then workspacePathPrefix ++ ":" ++ namePart
  else workspacePathPrefix ++ joined ++ ":" ++ namePart

private theorem normalize_full (h : Relative target) (hcolon : (trimmed target).head? ≠ some ':') :
    normalizeArtifactTarget target c.uri =
      match cutChar (Text.trimSpace target) ':' with
      | none => .error (invalidArtifactTarget (Text.trimSpace target))
      | some (pathPart,namePart) =>
        if pathPart = "" ∨ namePart = "" ∨ ':' ∈ namePart.toList then
          .error (invalidArtifactTarget (Text.trimSpace target))
        else .ok (joinPackage (locationURI c.dir) pathPart namePart) := by
  have hcut : (cutWorkspacePath (Text.trimSpace target)).isSome ≠ true := by simp [cut_none h]
  have hhead : (Text.trimSpace target).toList.head? ≠ some ':' := hcolon
  unfold normalizeArtifactTarget
  dsimp only
  rw [if_neg hcut,if_neg hhead,uriDir_uri]
  cases cutChar (Text.trimSpace target) ':' with
  | none => rfl
  | some parts =>
    dsimp only
    split
    · rfl
    · exact (apply_ite Except.ok _ _ _).symm

private theorem joinPackage_eq (path : String) (name : List Char)
    (hhead : path.toList.head? ≠ some '/')
    (hne : path ≠ "") (hp : c.dir.resolve path.toList = some p) :
    joinPackage (locationURI c.dir) path (String.ofList name) = labelURI p name := by
  have hbase : trimWorkspacePath (locationURI c.dir) = String.ofList c.dir.text := trim_workspace _
  unfold joinPackage
  dsimp only
  rw [hbase,Location.joinPath_eq hhead hne hp]
  by_cases hroot : p.segments = []
  · have hdot : String.ofList ['.'] = "." := by decide
    rw [if_pos hroot,if_pos hdot,if_pos rfl,labelURI,locationURI,Location.text_eq_nil.mpr hroot]
    apply String.toList_inj.mp
    simp
  · have htext : String.ofList p.text ≠ "." :=
      fun hdot => Location.text_ne_dot (String.ofList_injective hdot)
    have hnonempty : String.ofList p.text ≠ "" := by
      simpa using fun hnil => hroot (Location.text_eq_nil.mp hnil)
    rw [if_neg hroot,if_neg htext,if_neg hnonempty]
    rfl

private theorem normalizeArtifactTarget_eq (h : Relative target)
    (hp : c.dir.resolve (packagePart target) = some p) :
    (WellFormed target → normalizeArtifactTarget target c.uri =
      .ok (labelURI p (targetName target))) ∧
    (¬WellFormed target → normalizeArtifactTarget target c.uri =
      .error (invalidArtifactTarget (Text.trimSpace target))) := by
  by_cases hcolon : (trimmed target).head? = some ':'
  · obtain ⟨rest,hrest⟩ := List.head?_eq_some_iff.mp hcolon
    obtain ⟨hpackage,hname⟩ := packagePart_of_colon hrest
    have hdir : p = c.dir := by
      rw [hpackage,Location.resolve_nil] at hp
      exact (Option.some.inj hp).symm
    have htrim : (Text.trimSpace target).toList = ':' :: rest := hrest
    have hlength : (Text.trimSpace target).length = rest.length + 1 := by
      rw [← String.length_toList,htrim,List.length_cons]
    have hlabel : locationURI c.dir ++ Text.trimSpace target = labelURI p rest := by
      apply String.toList_inj.mp
      simp [labelURI,hdir,htrim]
    have hwell : WellFormed target ↔ rest ≠ [] := by simp [WellFormed,hpackage,hname]
    rw [normalize_short h hcolon,hwell,hlength,hname,hlabel]
    constructor
    · intro hne
      rw [if_neg (by simpa using hne)]
    · intro hnil
      rw [if_pos (by simpa using hnil)]
  · rw [normalize_full h hcolon]
    by_cases hmem : ':' ∈ trimmed target
    · have hparts := trimmed_eq hmem
      have hpackage : packagePart target ≠ [] := by
        intro hnil
        rw [hnil,List.nil_append] at hparts
        rw [hparts] at hcolon
        exact hcolon rfl
      have hhead : (packagePart target).head? ≠ some '/' := by
        intro hslash
        apply h
        rw [hparts,List.head?_append_of_ne_nil _ hpackage]
        exact hslash
      have hcut : cutChar (Text.trimSpace target) ':' =
          some (String.ofList (packagePart target),String.ofList (targetName target)) :=
        if_pos hmem
      have hjoin := joinPackage_eq (String.ofList (packagePart target))
        (targetName target) (by simpa using hhead) (by simpa using hpackage) (by simpa using hp)
      have hwell : WellFormed target ↔ ¬(String.ofList (packagePart target) = "" ∨
          String.ofList (targetName target) = "" ∨
            ':' ∈ (String.ofList (targetName target)).toList) := by
        simp [WellFormed,hpackage]
      rw [hcut]
      dsimp only
      rw [hjoin,hwell]
      exact ⟨fun hnot => if_neg hnot,fun hnot => if_pos (not_not.mp hnot)⟩
    · have hname := targetName_of_notMem hmem
      have hcut : cutChar (Text.trimSpace target) ':' = none := if_neg hmem
      rw [hcut]
      exact ⟨fun hwell => absurd hname hwell.1,fun _ => rfl⟩

/-- A target is normalized to the URI of its label, which stays what it is. -/
structure TargetCanonical (c : ConfigFile) (target : String) (p : Location) : Prop where
  uri : normalizeArtifactTarget target c.uri = .ok (labelURI p (targetName target))
  again : ∀ c' : ConfigFile, normalizeArtifactTarget (labelURI p (targetName target)) c'.uri =
    .ok (labelURI p (targetName target))

private theorem targetCanonical_iff (h : Relative target)
    (hp : c.dir.resolve (packagePart target) = some p) :
    TargetCanonical c target p ↔ WellFormed target := by
  obtain ⟨hok,herror⟩ := normalizeArtifactTarget_eq h hp
  constructor
  · intro hcanonical
    by_contra hnot
    have huri := hcanonical.uri
    rw [herror hnot] at huri
    cases huri
  · intro hwell
    refine ⟨hok hwell,fun c' => ?_⟩
    have hmem : ':' ∈ trimmed target := by
      by_contra hnot
      exact hwell.1 (targetName_of_notMem hnot)
    have hparts := trimmed_eq hmem
    have hne : trimmed target ≠ [] := List.ne_nil_of_mem hmem
    have hsame : labelURI p (targetName target) =
        String.ofList (('/' :: '/' :: p.text ++ [':']) ++ targetName target) := by
      apply String.toList_inj.mp
      simp [labelURI,locationURI,workspacePathPrefix]
    have htrim := trimSpace_slash ('/' :: '/' :: p.text ++ [':']) rfl hne
      ⟨packagePart target ++ [':'],by simp [hparts]⟩ hwell.1
    rw [← hsame] at htrim
    have hcut : cutWorkspacePath (labelURI p (targetName target)) ≠ none := by
      rw [hsame]
      simp [cutWorkspacePath]
    unfold normalizeArtifactTarget
    dsimp only
    rw [htrim,if_pos (Option.isSome_iff_ne_none.mpr hcut)]

/-- Two labels have one text, cut at different colons. -/
def Overlap (p : Location) (name : List Char) (q : Location) (other : List Char) : Prop :=
  ∃ between, (p.text = q.text ++ ':' :: between ∧ other = between ++ ':' :: name) ∨
    (q.text = p.text ++ ':' :: between ∧ name = between ++ ':' :: other)

/-- Labels are known by their URIs unless they overlap. -/
theorem labelURI_inj_iff : ((p = q ∧ name = other) ↔ labelURI p name = labelURI q other) ↔
    ¬Overlap p name q other := by
  have huri : labelURI p name = labelURI q other ↔
      p.text ++ ':' :: name = q.text ++ ':' :: other := by
    rw [← String.toList_inj]
    simp [labelURI,locationURI]
  rw [huri]
  constructor
  · intro h hoverlap
    obtain ⟨between,⟨htext,hname⟩ | ⟨htext,hname⟩⟩ := hoverlap
    · have hsame := h.mpr (by rw [htext,hname]; simp)
      rw [hsame.1] at htext
      simpa using congrArg List.length htext
    · have hsame := h.mpr (by rw [htext,hname]; simp)
      rw [hsame.1] at htext
      simpa using congrArg List.length htext
  · intro hapart
    constructor
    · intro hsame
      rw [hsame.1,hsame.2]
    · intro h
      rcases List.append_eq_append_iff.mp h with ⟨rest,htext,hrest⟩ | ⟨rest,htext,hrest⟩
      · cases rest with
        | nil =>
          rw [List.append_nil] at htext
          exact ⟨(Location.text_inj htext).symm,(List.cons.inj hrest).2⟩
        | cons c between =>
          obtain ⟨rfl,hname⟩ := List.cons.inj hrest
          exact absurd ⟨between,.inr ⟨htext,hname⟩⟩ hapart
      · cases rest with
        | nil =>
          rw [List.append_nil] at htext
          exact ⟨Location.text_inj htext,(List.cons.inj hrest).2.symm⟩
        | cons c between =>
          obtain ⟨rfl,hname⟩ := List.cons.inj hrest
          exact absurd ⟨between,.inl ⟨htext,hname⟩⟩ hapart

end targets

/-! ## Two references -/

/-- Both paths are normalized to their locations' URIs, which tell the locations apart. -/
structure PathsCanonical (c₁ c₂ : ConfigFile) (r₁ r₂ : String) (p₁ p₂ : Location) : Prop where
  first : PathCanonical c₁ r₁ p₁
  second : PathCanonical c₂ r₂ p₂
  key : p₁ = p₂ ↔ normalizeArtifactPath r₁ c₁.uri = normalizeArtifactPath r₂ c₂.uri

/-- Both targets are normalized to their labels' URIs, which tell the labels apart. -/
structure TargetsCanonical (c₁ c₂ : ConfigFile) (r₁ r₂ : String) (p₁ p₂ : Location) : Prop where
  first : TargetCanonical c₁ r₁ p₁
  second : TargetCanonical c₂ r₂ p₂
  key : (p₁ = p₂ ∧ targetName r₁ = targetName r₂) ↔
    normalizeArtifactTarget r₁ c₁.uri = normalizeArtifactTarget r₂ c₂.uri

/-- References are canonical just when paths are literal below a directory, and targets are
well-formed and their labels do not overlap. -/
theorem references_canonical_iff (c₁ c₂ : ConfigFile) (r₁ r₂ : String) (h₁ : Relative r₁)
    (h₂ : Relative r₂) :
    (∀ p₁ p₂, c₁.dir.resolve (trimmed r₁) = some p₁ → c₂.dir.resolve (trimmed r₂) = some p₂ →
      (PathsCanonical c₁ c₂ r₁ r₂ p₁ p₂ ↔ Literal c₁ r₁ ∧ Literal c₂ r₂)) ∧
    (∀ p₁ p₂, c₁.dir.resolve (packagePart r₁) = some p₁ →
      c₂.dir.resolve (packagePart r₂) = some p₂ →
      (TargetsCanonical c₁ c₂ r₁ r₂ p₁ p₂ ↔ WellFormed r₁ ∧ WellFormed r₂ ∧
        ¬Overlap p₁ (targetName r₁) p₂ (targetName r₂))) := by
  constructor
  · intro p₁ p₂ hp₁ hp₂
    constructor
    · intro h
      exact ⟨(pathCanonical_iff h₁ hp₁).mp h.first,(pathCanonical_iff h₂ hp₂).mp h.second⟩
    · intro h
      have hfirst := (pathCanonical_iff h₁ hp₁).mpr h.1
      have hsecond := (pathCanonical_iff h₂ hp₂).mpr h.2
      refine ⟨hfirst,hsecond,?_⟩
      rw [hfirst.uri,hsecond.uri]
      constructor
      · exact congrArg locationURI
      · intro huri
        have htext := String.ofList_injective (String.append_right_inj _ |>.mp huri)
        exact Location.text_inj htext
  · intro p₁ p₂ hp₁ hp₂
    have hkey : ∀ (hfirst : TargetCanonical c₁ r₁ p₁) (hsecond : TargetCanonical c₂ r₂ p₂),
        ((p₁ = p₂ ∧ targetName r₁ = targetName r₂) ↔
          normalizeArtifactTarget r₁ c₁.uri = normalizeArtifactTarget r₂ c₂.uri) ↔
        ¬Overlap p₁ (targetName r₁) p₂ (targetName r₂) := by
      intro hfirst hsecond
      rw [hfirst.uri,hsecond.uri,Except.ok.injEq]
      exact labelURI_inj_iff
    constructor
    · intro h
      exact ⟨(targetCanonical_iff h₁ hp₁).mp h.first,(targetCanonical_iff h₂ hp₂).mp h.second,
        (hkey h.first h.second).mp h.key⟩
    · intro h
      have hfirst := (targetCanonical_iff h₁ hp₁).mpr h.1
      have hsecond := (targetCanonical_iff h₂ hp₂).mpr h.2.1
      exact ⟨hfirst,hsecond,(hkey hfirst hsecond).mpr h.2.2⟩

/-! ## Two files -/

/-- `deploy.yaml` in the root of the workspace. -/
def rootFile : ConfigFile :=
  ⟨.root,"deploy.yaml".toList,by decide⟩

/-- `projects/game/deploy.yaml`. -/
def gameFile : ConfigFile :=
  ⟨⟨["projects".toList,"game".toList],by decide⟩,"deploy.yaml".toList,by decide⟩

def gameService : Location :=
  ⟨["projects".toList,"game".toList,"service.yaml".toList],by decide⟩

theorem references_canonical_demo :
    PathsCanonical gameFile gameFile "service.yaml" " service.yaml" gameService gameService ∧
      TargetsCanonical gameFile gameFile ":image" "../game:image" gameFile.dir gameFile.dir := by
  constructor
  · exact ((references_canonical_iff gameFile gameFile "service.yaml" " service.yaml"
      (by unfold Relative; decide) (by unfold Relative; decide)).1 _ _
      (by decide) (by decide)).mpr
        ⟨⟨by decide,by decide⟩,⟨by decide,by decide⟩⟩
  · have hapart : ¬Overlap gameFile.dir (targetName ":image") gameFile.dir
        (targetName "../game:image") := by
      rintro ⟨between,⟨htext,-⟩ | ⟨htext,-⟩⟩
      · simpa using congrArg List.length htext
      · simpa using congrArg List.length htext
    exact ((references_canonical_iff gameFile gameFile ":image" "../game:image"
      (by unfold Relative; decide) (by unfold Relative; decide)).2 _ _
      (by decide) (by decide)).mpr
        ⟨⟨by decide,by decide⟩,⟨by decide,by decide⟩,hapart⟩

/-- Below the root a path gets a third slash, and elsewhere it keeps its dots. -/
theorem paths_not_canonical :
    rootFile.dir.resolve (trimmed "service.yaml") = some ⟨["service.yaml".toList],by decide⟩ ∧
      normalizeArtifactPath "service.yaml" rootFile.uri = "///service.yaml" ∧
      gameFile.dir.resolve (trimmed "service.yaml") = some gameService ∧
      gameFile.dir.resolve (trimmed "./service.yaml") = some gameService ∧
      normalizeArtifactPath "service.yaml" gameFile.uri = "//projects/game/service.yaml" ∧
      normalizeArtifactPath "./service.yaml" gameFile.uri = "//projects/game/./service.yaml" := by
  decide

end Dominion.Release
