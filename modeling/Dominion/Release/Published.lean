import Dominion.Release.Passes
import Dominion.Framework.Locations
import Mathlib.Algebra.Ring.Nat

/-! # Releases as their manifests say

The passes identify files by names alone.  They agree with the manifest if and only if every file
name denotes an entry of its own in the staging directory, none of the generated ones and none with
a line break in its name. -/
namespace Dominion.Release

open Dominion.Framework
open Dominion.Deploy.Domain (Err)

section released

variable {δ : Type} [DecidableEq δ] {os : PathRules δ} {refusal : String → Err}
  {uploader : Object → Except Err Unit} {stagingDir : String} {d : δ} {m : ReleaseManifest}
  {built : List ArtifactMapping} {disk staged : Disk δ} {uploads : List Object}
  {entries : List OutputArtifact} {lines : List String}

/-! ## A release that succeeds -/

/-- The files of the directory beside the generated ones. -/
def artifactFiles (disk : Disk δ) (d : δ) : List (String × List UInt8) :=
  (disk.files d).filter fun e => decide (e.1 ≠ outputManifestFile) && decide (e.1 ≠ sha256SumsFile)

def sumsText (lines : List String) : String :=
  String.join (lines.map (· ++ "\n"))

/-- An uploaded file. -/
def objectOf (m : ReleaseManifest) (e : String × List UInt8) : Object :=
  ⟨objectKey m.name m.version e.1,e.2⟩

/-- What a release that succeeds went through. -/
structure Passed (os : PathRules δ) (refusal : String → Err) (stagingDir : String) (d : δ)
    (m : ReleaseManifest) (built : List ArtifactMapping) (disk staged : Disk δ)
    (entries : List OutputArtifact) (lines : List String) (uploads : List Object) : Prop where
  staging : stageArtifacts os refusal stagingDir m.present (artifactPaths built) disk = .ok staged
  listing : m.present.mapM (outputArtifact os refusal stagingDir staged) = .ok entries
  sums : lines.Perm ((artifactFiles staged d ++
    [(outputManifestFile,bytes (OutputManifest.mk m.name m.version entries).marshal)]).map
      fun e => sumsLine e.2 e.1)
  objects : uploads.Perm ((artifactFiles staged d ++
    [(outputManifestFile,bytes (OutputManifest.mk m.name m.version entries).marshal),
      (sha256SumsFile,bytes (sumsText lines))]).map (objectOf m))

private theorem staged_reaches (hd : FreshDir os stagingDir d built disk)
    (h : stageArtifacts os refusal stagingDir m.present (artifactPaths built) disk = .ok staged)
    (name : String) (hname : ⟨d,name⟩ ∈ staged.map Prod.fst) : Reaches os stagingDir d name := by
  obtain ⟨_,places,hplaces,hkeys⟩ := stageArtifacts_places h hd.distinct
  rcases (hkeys ⟨d,name⟩).mp hname with hmem | hmem
  · obtain ⟨a,_,ha⟩ := exists_of_forall₂ hplaces hmem
    exact hd.names _ _ ha
  · exact absurd rfl (hd.empty _ hmem)

/-- The files beside the generated ones are not touched once they are staged. -/
theorem files_generated (hn : (staged.map Prod.fst).Nodup) (content : List UInt8) :
    ((Disk.files (put ⟨d,outputManifestFile⟩ content staged) d).filter
      fun e => decide (e.1 ≠ sha256SumsFile)).Perm
        (artifactFiles staged d ++ [(outputManifestFile,content)]) := by
  have hfiles := (Disk.files_put hn outputManifestFile content (d := d)).filter
    fun e => decide (e.1 ≠ sha256SumsFile)
  rw [List.filter_append,List.filter_filter] at hfiles
  have hkept : ([(outputManifestFile,content)].filter fun e => decide (e.1 ≠ sha256SumsFile)) =
      [(outputManifestFile,content)] := List.filter_eq_self.mpr (by simp; decide)
  rw [hkept] at hfiles
  apply hfiles.trans
  rw [artifactFiles]
  simp only [Bool.and_comm]
  exact .rfl

private theorem reaches_put (hreach : ∀ n, ⟨d,n⟩ ∈ disk.map Prod.fst → Reaches os stagingDir d n)
    {name : String} (hname : Reaches os stagingDir d name) (content : List UInt8) (n : String)
    (hn : ⟨d,n⟩ ∈ (put ⟨d,name⟩ content disk).map Prod.fst) : Reaches os stagingDir d n := by
  rcases mem_keys_put.mp hn with he | hmem
  · cases he
    exact hname
  · exact hreach n hmem

private theorem mem_generated (d : δ) (disk : Disk δ) (content sums : List UInt8) :
    ⟨d,outputManifestFile⟩ ∈ (put ⟨d,sha256SumsFile⟩ sums
      (put ⟨d,outputManifestFile⟩ content disk)).map Prod.fst ∧
    ⟨d,sha256SumsFile⟩ ∈ (put ⟨d,sha256SumsFile⟩ sums
      (put ⟨d,outputManifestFile⟩ content disk)).map Prod.fst :=
  ⟨mem_keys_put.mpr (.inr (mem_keys_put.mpr (.inl rfl))),mem_keys_put.mpr (.inl rfl)⟩

private theorem release_passed (hd : FreshDir os stagingDir d built disk)
    (h : release os refusal uploader stagingDir m built disk = .ok uploads) :
    ∃ staged entries lines,
      Passed os refusal stagingDir d m built disk staged entries lines uploads := by
  obtain ⟨-,-,hrest⟩ := ok_of_bind h
  obtain ⟨-,-,hrest⟩ := ok_of_bind hrest
  obtain ⟨staged,hstaged,hrest⟩ := ok_of_bind hrest
  obtain ⟨⟨output,generated⟩,hgenerated,hrest⟩ := ok_of_bind hrest
  obtain ⟨summed,hsummed,hpublish⟩ := ok_of_bind hrest
  have hn := (stageArtifacts_places hstaged hd.distinct).1
  have hreach := staged_reaches hd hstaged
  obtain ⟨⟨entries,hentries,rfl⟩,rfl⟩ := generateOutputManifest_ok hd.outputManifest hgenerated
  have hreach₂ := reaches_put hreach hd.outputManifest
    (bytes (OutputManifest.mk m.name m.version entries).marshal)
  obtain ⟨lines,hlines,rfl⟩ :=
    generateSHA256SUMS_ok hd.directory (nodup_put hn) hreach₂ hd.sha256Sums hsummed
  have hmem := mem_generated d staged
    (bytes (OutputManifest.mk m.name m.version entries).marshal) (bytes (sumsText lines))
  have huploads := publish_ok hd.directory (nodup_put (nodup_put hn))
    (reaches_put hreach₂ hd.sha256Sums _) hmem.1 hmem.2 hpublish
  have hgenerated := files_generated (d := d) hn
    (bytes (OutputManifest.mk m.name m.version entries).marshal)
  refine ⟨staged,entries,lines,⟨hstaged,hentries,?_,?_⟩⟩
  · exact hlines.trans (hgenerated.map _)
  · apply huploads.trans
    have hfiles := (Disk.files_put (d := d) (nodup_put hn) sha256SumsFile
      (bytes (sumsText lines))).trans (hgenerated.append_right _)
    rw [List.append_assoc] at hfiles
    exact hfiles.map _

/-- Nothing fails any more once the artifacts are staged, unless an upload does. -/
theorem release_succeeds (hd : FreshDir os stagingDir d built disk)
    (hregular : ∀ name, os.irregular ⟨d,name⟩ = false) (hvalid : m.validate = .ok ())
    (htargets : validateTargets (m.present.map Artifact.target)
      (built.map ArtifactMapping.label) = .ok ())
    (hstaged : stageArtifacts os refusal stagingDir m.present (artifactPaths built) disk =
      .ok staged) (hup : ∀ object, uploader object = .ok ()) :
    ∃ uploads, release os refusal uploader stagingDir m built disk = .ok uploads := by
  have hn := (stageArtifacts_places hstaged hd.distinct).1
  have hreach := staged_reaches hd hstaged
  apply exists_bind ⟨(),hvalid⟩
  intro _ _
  apply exists_bind ⟨(),htargets⟩
  intro _ _
  apply exists_bind ⟨staged,hstaged⟩
  intro staged' hstaged'
  cases hstaged.symm.trans hstaged'
  apply exists_bind (generateOutputManifest_succeeds hregular hd.outputManifest
    (stageArtifacts_readable hstaged).2)
  intro generated hgenerated
  obtain ⟨-,hput⟩ := generateOutputManifest_ok hd.outputManifest hgenerated
  have hn₂ : (generated.2.map Prod.fst).Nodup := hput ▸ nodup_put hn
  have hreach₂ : ∀ n, ⟨d,n⟩ ∈ generated.2.map Prod.fst → Reaches os stagingDir d n :=
    hput ▸ reaches_put hreach hd.outputManifest _
  apply exists_bind (generateSHA256SUMS_succeeds hregular hd.directory hreach₂ hd.sha256Sums)
  intro summed hsummed
  obtain ⟨lines,-,rfl⟩ := generateSHA256SUMS_ok hd.directory hn₂ hreach₂ hd.sha256Sums hsummed
  have hmem := mem_generated d staged (bytes generated.1.marshal) (bytes (sumsText lines))
  rw [← hput] at hmem
  exact publish_succeeds hregular hd.directory (nodup_put hn₂)
    (reaches_put hreach₂ hd.sha256Sums _) hmem.1 hmem.2 hup

/-! ## The two directions -/

private theorem artifactNames_eq : (artifactFiles staged d).map Prod.fst = ((staged.files d).map
    Prod.fst).filter fun n => decide (n ≠ outputManifestFile) && decide (n ≠ sha256SumsFile) := by
  rw [artifactFiles,List.filter_map]
  rfl

private theorem mem_artifactNames (hd : FreshDir os stagingDir d built disk)
    {places : List (Place δ)}
    (hkeys : ∀ place, place ∈ staged.map Prod.fst ↔ place ∈ places ∨ place ∈ disk.map Prod.fst)
    (name : String) : name ∈ (artifactFiles staged d).map Prod.fst ↔
      ⟨d,name⟩ ∈ places ∧ name ≠ outputManifestFile ∧ name ≠ sha256SumsFile := by
  have hold : ⟨d,name⟩ ∉ disk.map Prod.fst := fun hmem => hd.empty _ hmem rfl
  rw [artifactNames_eq,List.mem_filter,Disk.mem_names,hkeys]
  simp [hold]

private theorem nodup_artifactNames (hn : (staged.map Prod.fst).Nodup) :
    ((artifactFiles staged d).map Prod.fst).Nodup :=
  (Disk.nodup_names hn).sublist (List.filter_sublist.map _)

omit [DecidableEq δ] in
private theorem places_eq {artifacts : List Artifact} {places : List (Place δ)}
    {names : List String} (hplaces : List.Forall₂ (fun a place =>
      os.locate (Text.joinPath [stagingDir,a.filename]) = some place) artifacts places)
    (hnames : List.Forall₂ (fun a name =>
      os.locate (Text.joinPath [stagingDir,a.filename]) = some ⟨d,name⟩) artifacts names) :
    places = names.map (Place.mk d) := by
  induction hnames generalizing places with
  | nil =>
    cases hplaces
    rfl
  | cons hname _ ih =>
    cases hplaces with
    | cons hplace hplaces =>
      rw [hname] at hplace
      rw [ih hplaces,List.map_cons,Option.some.inj hplace]

private theorem entries_eq {artifacts : List Artifact} {names : List String}
    {contents : List (List UInt8)} (hnames : List.Forall₂ (fun a name =>
      os.locate (Text.joinPath [stagingDir,a.filename]) = some ⟨d,name⟩) artifacts names)
    (hlookups : List.Forall₂ (fun name content =>
      List.lookup ⟨d,name⟩ staged = some content) names contents)
    (h : List.Forall₂ (fun a entry => outputArtifact os refusal stagingDir staged a = .ok entry)
      artifacts entries) : entries = List.zipWith entryOf artifacts contents := by
  induction hnames generalizing contents entries with
  | nil =>
    cases h
    rfl
  | cons hname _ ih =>
    cases hlookups with
    | cons hlookup hlookups =>
      cases h with
      | cons hentry h =>
        obtain ⟨place,content,hplace,hcontent,rfl⟩ := outputArtifact_ok hentry
        rw [hname] at hplace
        cases hplace
        rw [hlookup] at hcontent
        cases hcontent
        rw [ih hlookups h,List.zipWith_cons_cons]

private theorem isHex_of_mem_hexEncode {bs : List UInt8} {c : Char}
    (hc : c ∈ (hexEncode bs).toList) :
    ('a' ≤ c ∧ c ≤ 'f') ∨ ('0' ≤ c ∧ c ≤ '9') := by
  rw [hexEncode,String.toList_ofList] at hc
  obtain ⟨b,-,hb⟩ := List.mem_flatMap.mp hc
  have hlt : b.toNat < 256 := b.toNat_lt
  rcases List.mem_pair.mp hb with rfl | rfl
  · exact Sha256.isHex_digitChar (by omega)
  · exact Sha256.isHex_digitChar (by omega)

/-- Line breaks of a line are those of the name. -/
theorem count_sumsLine (content : List UInt8) (name : String) :
    (sumsLine content name).toList.count '\n' = name.toList.count '\n' := by
  have hdigest : '\n' ∉ (fileSHA256 content).toList := by
    intro hmem
    exact absurd (isHex_of_mem_hexEncode hmem) (by decide)
  simp [sumsLine,List.count_eq_zero.mpr hdigest]

private theorem count_sumsText (lines : List String) : (sumsText lines).toList.count '\n' =
    (lines.map fun line => line.toList.count '\n').sum + lines.length := by
  rw [sumsText,String.toList_join]
  induction lines with
  | nil => rfl
  | cons line lines ih =>
    rw [List.map_cons,List.flatMap_cons,List.count_append,ih]
    simp
    omega

private theorem split_sumsText {lines : List String} (h : ∀ line ∈ lines, '\n' ∉ line.toList) :
    Text.split (sumsText lines) '\n' = lines ++ [""] := by
  have htext : sumsText lines = (String.singleton '\n').intercalate (lines ++ [""]) := by
    apply String.toList_inj.mp
    rw [sumsText,String.toList_join,String.toList_intercalate]
    clear h
    induction lines with
    | nil => rfl
    | cons line lines ih =>
      rw [List.map_cons,List.flatMap_cons,ih,List.cons_append,List.map_cons]
      cases lines <;> simp [List.intercalate]
  rw [htext]
  apply Text.split_intercalate
  · intro line hline
    rcases List.mem_append.mp hline with hline | hline
    · exact h line hline
    · rw [List.mem_singleton.mp hline]
      decide
  · simp

omit [DecidableEq δ] in
private theorem outside_of_fresh (hd : FreshDir os stagingDir d built disk) :
    Outside os d (artifactPaths built) := by
  intro target path place hpath hplace
  obtain ⟨a,ha,rfl⟩ := Option.map_eq_some_iff.mp hpath
  exact hd.built a (List.mem_reverse.mp (List.mem_of_find?_eq_some ha)) place hplace

/-- Where the file names denote entries of their own, the artifacts are the files of the directory
and the entries of the public manifest. -/
theorem contents_of_direct (hd : FreshDir os stagingDir d built disk)
    (hp : Passed os refusal stagingDir d m built disk staged entries lines uploads)
    {names : List String} (hnames : List.Forall₂ (fun a name =>
      os.locate (Text.joinPath [stagingDir,a.filename]) = some ⟨d,name⟩) m.present names)
    (hn : (names ++ [outputManifestFile,sha256SumsFile]).Nodup) :
    ∃ contents, List.Forall₂ (fun a content => source os built disk a = some content)
      m.present contents ∧ (names.zip contents).Perm (artifactFiles staged d) ∧
        entries = List.zipWith entryOf m.present contents := by
  obtain ⟨hfirst,_,hreserved⟩ := List.nodup_append.mp hn
  obtain ⟨hnodup,places,hplaces,hkeys⟩ := stageArtifacts_places hp.staging hd.distinct
  obtain ⟨-,contents,hsources,hlookups⟩ :=
    stageArtifacts_contents (outside_of_fresh hd) hp.staging hnames hfirst
  refine ⟨contents,?_,?_,entries_eq hnames hlookups (forall₂_of_mapM hp.listing)⟩
  · apply hsources.imp
    intro a content ha
    rw [source,ha]
  · have hkept : names.Perm (((staged.files d).map Prod.fst).filter fun n =>
        decide (n ≠ outputManifestFile) && decide (n ≠ sha256SumsFile)) := by
      rw [List.perm_ext_iff_of_nodup hfirst ((Disk.nodup_names hnodup).filter _)]
      intro name
      have hmem := mem_artifactNames hd hkeys name
      rw [artifactNames_eq,places_eq hplaces hnames,List.mem_map_of_injective (by
        intro x y hxy
        exact congrArg Place.name hxy)] at hmem
      rw [hmem]
      constructor
      · intro hname
        exact ⟨hname,hreserved name hname _ (by simp),hreserved name hname _ (by simp)⟩
      · intro hname
        exact hname.1
    have hzip : List.Forall₂ (fun name e => ∃ content,
        List.lookup ⟨d,name⟩ staged = some content ∧ e = (name,content)) names
          (names.zip contents) := by
      clear hkept hn hfirst hreserved hnames hsources
      induction hlookups with
      | nil => exact .nil
      | cons hlookup _ ih => exact .cons ⟨_,hlookup,rfl⟩ ih
    have hperm := Disk.perm_of_contents (g := Prod.mk) hnodup hkept hzip
    rwa [List.map_id'' (fun _ => rfl)] at hperm

private theorem newline_notin_lines {fs : List (String × List UInt8)} {content : List UInt8}
    (h : lines.Perm ((fs ++ [(outputManifestFile,content)]).map fun e => sumsLine e.2 e.1)) :
    (∀ line ∈ lines, '\n' ∉ line.toList) ↔ ∀ name ∈ fs.map Prod.fst, '\n' ∉ name.toList := by
  have hmanifest : '\n' ∉ outputManifestFile.toList := by decide
  simp only [h.mem_iff,List.mem_map,List.mem_append,List.mem_singleton,← List.count_eq_zero]
    at hmanifest ⊢
  constructor
  · intro hlines name hname
    obtain ⟨e,he,rfl⟩ := hname
    rw [← count_sumsLine e.2]
    exact hlines _ ⟨e,.inl he,rfl⟩
  · intro hnames line hline
    obtain ⟨e,he,rfl⟩ := hline
    rw [count_sumsLine]
    rcases he with he | rfl
    · exact hnames _ ⟨e,he,rfl⟩
    · exact hmanifest

/-- Where the file names lead. -/
def artifactPlaces (os : PathRules δ) (stagingDir : String) (m : ReleaseManifest) :
    List (Option (Place δ)) :=
  m.present.map fun a => os.locate (Text.joinPath [stagingDir,a.filename])

omit [DecidableEq δ] in
private theorem places_of_direct (h : Direct os stagingDir d m) :
    (∀ place ∈ artifactPlaces os stagingDir m, place.map Place.dir = some d) ∧
      (artifactPlaces os stagingDir m ++
        [some (Place.mk d outputManifestFile),some (Place.mk d sha256SumsFile)]).Nodup := by
  obtain ⟨names,hnames,hn,-⟩ := h
  have hplaces : artifactPlaces os stagingDir m = names.map fun name => some ⟨d,name⟩ := by
    rw [← List.forall₂_eq_eq_eq,artifactPlaces,List.forall₂_map_left_iff,
      List.forall₂_map_right_iff]
    exact hnames
  rw [hplaces]
  constructor
  · simp
  · have hinj : Function.Injective fun name => some (Place.mk d name) := by
      intro x y hxy
      simpa using hxy
    simpa using hn.map hinj

/-- File names that denote entries of their own are enough. -/
theorem asManifest_of_direct (hd : FreshDir os stagingDir d built disk)
    (hp : Passed os refusal stagingDir d m built disk staged entries lines uploads)
    (h : Direct os stagingDir d m) : AsManifest os built disk m uploads := by
  obtain ⟨names,hnames,hn,hbreaks⟩ := h
  obtain ⟨contents,hsources,hfiles,rfl⟩ := contents_of_direct hd hp hnames hn
  have hlength : names.length = contents.length :=
    hnames.length_eq.symm.trans hsources.length_eq
  have hkept : (names.zip contents).map Prod.fst = names :=
    List.map_fst_zip hlength.le
  have hlines : ∀ line ∈ lines, '\n' ∉ line.toList := by
    apply (newline_notin_lines hp.sums).mpr
    intro name hname
    rw [← (hfiles.map Prod.fst).mem_iff,hkept] at hname
    exact hbreaks name hname
  refine ⟨names,contents,sumsText lines,hsources,hnames.length_eq.symm,hn,?_,?_⟩
  · exact hp.objects.trans ((hfiles.symm.append_right _).map _)
  · rw [split_sumsText hlines]
    apply List.Perm.append_right
    exact hp.sums.trans ((hfiles.symm.append_right _).map _)

/-- As many files as artifacts are there only if every file name denotes one of its own. -/
theorem direct_of_length (hd : FreshDir os stagingDir d built disk)
    (hp : Passed os refusal stagingDir d m built disk staged entries lines uploads)
    (h : (artifactFiles staged d).length = m.present.length)
    (hbreaks : ∀ name ∈ (artifactFiles staged d).map Prod.fst, '\n' ∉ name.toList) :
    Direct os stagingDir d m := by
  obtain ⟨hnodup,places,hplaces,hkeys⟩ := stageArtifacts_places hp.staging hd.distinct
  have hmem := mem_artifactNames hd hkeys
  have hnames := nodup_artifactNames hnodup (d := d)
  have hlength : ((artifactFiles staged d).map Prod.fst).length = places.length := by
    rw [List.length_map,h,hplaces.length_eq]
  generalize (artifactFiles staged d).map Prod.fst = names at hmem hnames hlength hbreaks
  have hsub : names.map (Place.mk d) ⊆ places := by
    intro place hplace
    obtain ⟨name,hname,rfl⟩ := List.mem_map.mp hplace
    exact ((hmem name).mp hname).1
  have hinj : (names.map (Place.mk d)).Nodup :=
    hnames.map fun x y hxy => congrArg Place.name hxy
  have hperm : (names.map (Place.mk d)).Perm places :=
    (List.subperm_of_subset hinj hsub).perm_of_length_le (by rw [List.length_map,hlength])
  have hordered : (places.map Place.name).Perm names := by
    apply (hperm.map Place.name).symm.trans
    rw [List.map_map]
    exact .of_eq (List.map_id _)
  have hplaced : places = (places.map Place.name).map (Place.mk d) := by
    rw [List.map_map]
    apply (List.map_id places).symm.trans (List.map_congr_left _)
    intro place hplace
    obtain ⟨name,_,rfl⟩ := List.mem_map.mp (hperm.mem_iff.mpr hplace)
    rfl
  refine ⟨places.map Place.name,?_,?_,?_⟩
  · rw [hplaced,List.forall₂_map_right_iff] at hplaces
    exact hplaces
  · rw [List.nodup_append]
    refine ⟨hordered.nodup_iff.mpr hnames,by decide,?_⟩
    intro name hname other hother
    have hreserved := ((hmem name).mp (hordered.mem_iff.mp hname)).2
    rcases List.mem_pair.mp hother with rfl | rfl
    · exact hreserved.1
    · exact hreserved.2
  · intro name hname
    exact hbreaks name (hordered.mem_iff.mp hname)

private theorem bytes_injective : Function.Injective bytes := by
  intro s t h
  exact String.toByteArray_inj.mp (ByteArray.ext (Array.toList_inj.mp h))

private theorem objectKey_injective (name version : String) :
    Function.Injective (objectKey name version) := by
  intro a b h
  apply String.toList_inj.mp
  simpa [objectKey] using congrArg String.toList h

private theorem sums_eq {names : List String} {contents : List (List UInt8)} {sums : String}
    (hp : Passed os refusal stagingDir d m built disk staged entries lines uploads)
    (h : PublishedAs m uploads names contents sums) : sums = sumsText lines := by
  have hmem : objectOf m (sha256SumsFile,bytes (sumsText lines)) ∈ uploads := by
    apply hp.objects.mem_iff.mpr
    exact List.mem_map_of_mem (by simp)
  obtain ⟨e,he,hobject⟩ := List.mem_map.mp (h.uploads.mem_iff.mp hmem)
  obtain ⟨hkey,hcontent⟩ := Object.mk.inj hobject
  have hname : e.1 = sha256SumsFile := objectKey_injective _ _ hkey
  obtain ⟨-,-,hreserved⟩ := List.nodup_append.mp h.distinct
  rcases List.mem_append.mp he with hzip | hlast
  · exact absurd hname (hreserved e.1 (List.of_mem_zip hzip).1 _ (by simp))
  · rcases List.mem_pair.mp hlast with rfl | rfl
    · have hne : outputManifestFile ≠ sha256SumsFile := by decide
      exact absurd hname hne
    · exact bytes_injective hcontent

private theorem length_of_asManifest (h : AsManifest os built disk m uploads) :
    uploads.length = m.present.length + 2 := by
  obtain ⟨names,contents,sums,hsources,hpublished⟩ := h
  rw [hpublished.uploads.length_eq]
  simp [hpublished.length,← hsources.length_eq]

private theorem direct_of_asManifest (hd : FreshDir os stagingDir d built disk)
    (hp : Passed os refusal stagingDir d m built disk staged entries lines uploads)
    (h : AsManifest os built disk m uploads) : Direct os stagingDir d m := by
  have hlength : (artifactFiles staged d).length = m.present.length := by
    have hcount := hp.objects.length_eq
    rw [length_of_asManifest h] at hcount
    simpa using hcount.symm
  obtain ⟨names,contents,sums,hsources,hpublished⟩ := h
  have hzip : (names.zip contents).length = m.present.length := by
    rw [List.length_zip,hpublished.length,← hsources.length_eq,Nat.min_self]
  apply direct_of_length hd hp hlength
  apply (newline_notin_lines hp.sums).mp
  have hsplit := hpublished.sums.length_eq
  rw [sums_eq hp hpublished,Text.length_split,count_sumsText] at hsplit
  have hlines : lines.length = m.present.length + 1 := by
    rw [hp.sums.length_eq]
    simp [hlength]
  have hnone : (lines.map fun line => line.toList.count '\n').sum = 0 := by
    simp only [List.length_append,List.length_map,hzip,List.length_singleton] at hsplit
    omega
  intro line hline
  rw [← List.count_eq_zero]
  exact List.sum_eq_zero_iff_forall_eq_nat.mp hnone _ (List.mem_map_of_mem hline)

end released

/-- What is published is what the manifest says if and only if every file name denotes an entry of
its own in the staging directory, none of the generated ones and none with a line break. -/
theorem published_iff_direct {δ : Type} [DecidableEq δ] (os : PathRules δ)
    (refusal : String → Err) (uploader : Object → Except Err Unit) (stagingDir : String) (d : δ)
    (m : ReleaseManifest) (built : List ArtifactMapping) (disk : Disk δ) (uploads : List Object)
    (hd : FreshDir os stagingDir d built disk)
    (h : release os refusal uploader stagingDir m built disk = .ok uploads) :
    AsManifest os built disk m uploads ↔ Direct os stagingDir d m := by
  obtain ⟨staged,entries,lines,hp⟩ := release_passed hd h
  constructor
  · intro hmanifest
    exact direct_of_asManifest hd hp hmanifest
  · intro hdirect
    exact asManifest_of_direct hd hp hdirect

/-! ## Two artifacts -/

/-- The directory of these names. -/
def demoDir (names : List String) : Location :=
  ((names.map String.toList).foldlM Location.follow Location.root).getD Location.root

def demoRules : PathRules Location :=
  Location.treeRules [demoDir ["tmp"],demoDir ["tmp","release"],demoDir ["build"]]

/-- Two programs that were built. -/
def demoDisk : Disk Location :=
  [(⟨demoDir ["build"],"linux"⟩,[1]),(⟨demoDir ["build"],"windows"⟩,[2])]

def demoBuilt : List ArtifactMapping :=
  [⟨"//app:linux","/build/linux"⟩,⟨"//app:windows","/build/windows"⟩]

def demoManifest (filename : String) : ReleaseManifest where
  name := "app"
  version := "1.0.0"
  artifacts := [some ⟨"//app:linux","app","linux","amd64"⟩,
    some ⟨"//app:windows",filename,"windows","amd64"⟩]

def demoRelease (filename : String) : Except Err (List Object) :=
  release demoRules (fun path => .new path) (fun _ => .ok ()) "/tmp/release"
    (demoManifest filename) demoBuilt demoDisk

private theorem demoDir_text :
    "/tmp/release" = String.ofList ('/' :: (demoDir ["tmp","release"]).text) := by
  decide

private theorem demoBuilt_outside (a : ArtifactMapping) (ha : a ∈ demoBuilt) :
    (demoRules.locate a.filePath).all fun place => place.dir ≠ demoDir ["tmp","release"] := by
  revert a ha
  decide

private theorem fresh_demo :
    FreshDir demoRules "/tmp/release" (demoDir ["tmp","release"]) demoBuilt demoDisk where
  directory := by decide
  names path name h := by
    rw [Reaches,demoDir_text]
    exact Location.locate_join h
  outputManifest := by
    unfold Reaches
    decide
  sha256Sums := by
    unfold Reaches
    decide
  empty := by decide
  distinct := by decide
  built a ha place hplace := by
    have hout := demoBuilt_outside a ha
    rw [hplace] at hout
    exact of_decide_eq_true hout

private theorem demoDir_lengths :
    (∀ p ∈ [demoDir ["tmp"],demoDir ["tmp","release"],demoDir ["build"]],
    p.segments.length < 3) ∧ (demoDir ["tmp","release"]).segments.length = 2 := by
  decide

private theorem demoRules_regular (name : String) :
    demoRules.irregular ⟨demoDir ["tmp","release"],name⟩ = false := by
  apply List.any_eq_false.mpr
  intro p hp hsame
  have hlength := congrArg List.length (of_decide_eq_true hsame)
  have hless := demoDir_lengths.1 p hp
  rw [List.length_append,demoDir_lengths.2] at hlength
  simp only [List.length_singleton] at hlength
  omega

/-- File names of the second artifact, of which only the first is one of its own. -/
def demoNames : List String :=
  ["app.exe","./app","../app","manifest.json","SHA256SUMS"]

private theorem demoRelease_succeeds {filename : String} (h : filename ∈ demoNames) :
    ∃ uploads, demoRelease filename = .ok uploads := by
  have hvalid : (demoManifest filename).validate.toOption = some () := by
    revert filename
    decide
  have htargets : (validateTargets ((demoManifest filename).present.map Artifact.target)
      (demoBuilt.map ArtifactMapping.label)).toOption = some () := by
    revert filename
    decide
  have hstaged : (stageArtifacts demoRules (fun path => .new path) "/tmp/release"
      (demoManifest filename).present (artifactPaths demoBuilt) demoDisk).toOption.isSome := by
    revert filename
    decide
  obtain ⟨staged,hstaged⟩ := Option.isSome_iff_exists.mp hstaged
  exact release_succeeds fresh_demo demoRules_regular (ok_of_toOption hvalid)
    (ok_of_toOption htargets) (ok_of_toOption hstaged) fun _ => rfl

theorem published_demo : ∃ uploads, demoRelease "app.exe" = .ok uploads ∧
    AsManifest demoRules demoBuilt demoDisk (demoManifest "app.exe") uploads := by
  have hname : "app.exe" ∈ demoNames := by decide
  obtain ⟨uploads,h⟩ := demoRelease_succeeds hname
  refine ⟨uploads,h,(published_iff_direct _ _ _ _ _ _ _ _ _ fresh_demo h).mpr ?_⟩
  refine ⟨["app","app.exe"],?_,by decide,by decide⟩
  have hpresent : (demoManifest "app.exe").present = [⟨"//app:linux","app","linux","amd64"⟩,
    ⟨"//app:windows","app.exe","windows","amd64"⟩] := rfl
  rw [hpresent]
  exact .cons (by decide +kernel) (.cons (by decide +kernel) .nil)

/-- Two spellings of one name, a name that leads out of the directory and the names of the generated
files are accepted, and an artifact is missing. -/
theorem releases_incomplete :
    FreshDir demoRules "/tmp/release" (demoDir ["tmp","release"]) demoBuilt demoDisk ∧
      ∀ filename ∈ ["./app","../app","manifest.json","SHA256SUMS"],
        ∃ uploads, demoRelease filename = .ok uploads ∧
          ¬AsManifest demoRules demoBuilt demoDisk (demoManifest filename) uploads := by
  refine ⟨fresh_demo,?_⟩
  intro filename hfilename
  obtain ⟨uploads,h⟩ := demoRelease_succeeds (List.mem_cons_of_mem _ hfilename)
  refine ⟨uploads,h,?_⟩
  intro hmanifest
  obtain ⟨staged,entries,lines,hp⟩ := release_passed fresh_demo h
  have hplaces := places_of_direct (direct_of_asManifest fresh_demo hp hmanifest)
  clear h hmanifest hp
  revert filename
  decide +kernel

end Dominion.Release
