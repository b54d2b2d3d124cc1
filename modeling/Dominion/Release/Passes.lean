import Dominion.Release.Publish

/-! # What the passes over a staging directory do

Each pass that succeeds is known by the files that it leaves: staging puts every artifact where its
file name leads, and the generated files and the uploads are made of what is in the directory. -/
namespace Dominion.Release

open Dominion.Framework
open Dominion.Deploy.Domain (Err goQuote)

variable {δ : Type} [DecidableEq δ] {os : PathRules δ} {refusal : String → Err}
  {uploader : Object → Except Err Unit} {stagingDir : String} {d : δ} {m : ReleaseManifest}
  {built : List ArtifactMapping} {disk disk' : Disk δ}

/-! ## Staging -/

private theorem copyFile_ok {dst src : String} (h : copyFile os refusal disk dst src = .ok disk') :
    ∃ place content, (os.locate dst = some place ∧ os.irregular place = false) ∧
      Disk.stat os (put place [] disk) src = some (.file content) ∧
        disk' = put place content disk := by
  unfold copyFile at h
  split at h
  · obtain ⟨created,hcreated,hrest⟩ := ok_of_bind h
    obtain ⟨place,hplace,hregular,rfl⟩ := Disk.writeFile_eq_some.mp (require_eq_ok hcreated)
    split at hrest
    · rename_i content hcontent
      obtain ⟨place',hplace',_,hput⟩ := Disk.writeFile_eq_some.mp (require_eq_ok hrest)
      rw [hplace] at hplace'
      rw [← Option.some.inj hplace',put_put] at hput
      exact ⟨place,content,⟨hplace,hregular⟩,hcontent,hput⟩
    · cases hrest
  · cases h

private theorem stageArtifact_ok {paths : String → Option String} {a : Artifact}
    (h : stageArtifact os refusal stagingDir paths disk a = .ok disk') :
    ∃ path place content, paths a.target = some path ∧
      (os.locate (Text.joinPath [stagingDir,a.filename]) = some place ∧
        os.irregular place = false) ∧
      Disk.stat os (put place [] disk) path = some (.file content) ∧
        disk' = put place content disk := by
  unfold stageArtifact at h
  split at h
  · cases h
  · rename_i path hpath
    split at h
    · cases h
    · cases h
    · split at h
      · cases h
      · rename_i staged hcopy
        cases h
        obtain ⟨place,content,hplace,hcontent,hput⟩ := copyFile_ok hcopy
        exact ⟨path,place,content,hpath,hplace,hcontent,hput⟩

/-- The artifacts are copied one after the other. -/
theorem stageArtifacts_cons {paths : String → Option String} {a : Artifact} {rest : List Artifact}
    (h : stageArtifacts os refusal stagingDir (a :: rest) paths disk = .ok disk') :
    ∃ next, stageArtifact os refusal stagingDir paths disk a = .ok next ∧
      stageArtifacts os refusal stagingDir rest paths next = .ok disk' := by
  rw [stageArtifacts,List.foldlM_cons] at h
  exact ok_of_bind h

/-- Staging adds the places that the file names lead to. -/
theorem stageArtifacts_places {paths : String → Option String} {artifacts : List Artifact}
    (h : stageArtifacts os refusal stagingDir artifacts paths disk = .ok disk')
    (hn : (disk.map Prod.fst).Nodup) :
    (disk'.map Prod.fst).Nodup ∧ ∃ places, List.Forall₂ (fun a place =>
      os.locate (Text.joinPath [stagingDir,a.filename]) = some place) artifacts places ∧
        ∀ place, place ∈ disk'.map Prod.fst ↔ place ∈ places ∨ place ∈ disk.map Prod.fst := by
  induction artifacts generalizing disk with
  | nil =>
    cases h
    exact ⟨hn,[],.nil,by simp⟩
  | cons a rest ih =>
    obtain ⟨next,hnext,hrest⟩ := stageArtifacts_cons h
    obtain ⟨path,place,content,_,⟨hplace,_⟩,_,rfl⟩ := stageArtifact_ok hnext
    obtain ⟨hnodup,places,hplaces,hkeys⟩ := ih hrest (nodup_put hn)
    refine ⟨hnodup,place :: places,.cons hplace hplaces,?_⟩
    intro p
    rw [hkeys,mem_keys_put,List.mem_cons]
    tauto

/-- Every artifact that was staged can be read under its file name. -/
theorem stageArtifacts_readable {paths : String → Option String} {artifacts : List Artifact}
    (h : stageArtifacts os refusal stagingDir artifacts paths disk = .ok disk') :
    (∀ place ∈ disk.map Prod.fst, place ∈ disk'.map Prod.fst) ∧ ∀ a ∈ artifacts, ∃ content,
      disk'.stat os (Text.joinPath [stagingDir,a.filename]) = some (.file content) := by
  induction artifacts generalizing disk with
  | nil =>
    cases h
    exact ⟨fun _ hmem => hmem,by simp⟩
  | cons a rest ih =>
    obtain ⟨next,hnext,hrest⟩ := stageArtifacts_cons h
    obtain ⟨path,place,content,_,⟨hplace,hregular⟩,_,rfl⟩ := stageArtifact_ok hnext
    obtain ⟨hkept,hreadable⟩ := ih hrest
    constructor
    · intro other hother
      exact hkept other (mem_keys_put.mpr (.inr hother))
    · rw [List.forall_mem_cons]
      refine ⟨?_,hreadable⟩
      exact Disk.exists_stat hplace hregular (hkept place (mem_keys_put.mpr (.inl rfl)))

/-- None of the files that were built is in the directory. -/
def Outside (os : PathRules δ) (d : δ) (paths : String → Option String) : Prop :=
  ∀ target path place, paths target = some path → os.locate path = some place → place.dir ≠ d

private theorem stat_put_of_outside {paths : String → Option String} {target path name : String}
    (hout : Outside os d paths) (hpath : paths target = some path) (content : List UInt8) :
    Disk.stat os (put ⟨d,name⟩ content disk) path = disk.stat os path := by
  unfold Disk.stat
  cases hplace : os.locate path with
  | none => rfl
  | some place =>
    have hne : place ≠ ⟨d,name⟩ := by
      intro he
      exact hout _ _ _ hpath hplace (he ▸ rfl)
    rw [Option.bind_some,Option.bind_some,lookup_put_ne hne]

/-- Staging under names of the directory copies the files that were built. -/
theorem stageArtifacts_contents {paths : String → Option String} {artifacts : List Artifact}
    {names : List String} (hout : Outside os d paths)
    (h : stageArtifacts os refusal stagingDir artifacts paths disk = .ok disk')
    (hnames : List.Forall₂ (fun a name =>
      os.locate (Text.joinPath [stagingDir,a.filename]) = some ⟨d,name⟩) artifacts names)
    (hn : names.Nodup) :
    (∀ name ∉ names, disk'.lookup ⟨d,name⟩ = disk.lookup ⟨d,name⟩) ∧
      ∃ contents, List.Forall₂ (fun a content => (paths a.target).bind (disk.stat os) =
        some (.file content)) artifacts contents ∧
        List.Forall₂ (fun name content => disk'.lookup ⟨d,name⟩ = some content)
          names contents := by
  induction hnames generalizing disk with
  | nil =>
    cases h
    exact ⟨fun _ _ => rfl,[],.nil,.nil⟩
  | @cons a name rest names hname hnames ih =>
    obtain ⟨next,hnext,hrest⟩ := stageArtifacts_cons h
    obtain ⟨path,place,content,hpath,⟨hplace,_⟩,hcontent,rfl⟩ := stageArtifact_ok hnext
    rw [hname] at hplace
    cases hplace
    obtain ⟨hnot,hnodup⟩ := List.nodup_cons.mp hn
    obtain ⟨hframe,contents,hsources,hlookups⟩ := ih hrest hnodup
    rw [stat_put_of_outside hout hpath] at hcontent
    constructor
    · intro other hother
      obtain ⟨hne,hmem⟩ := List.ne_and_not_mem_of_not_mem_cons hother
      rw [hframe other hmem,lookup_put_ne (by simpa using hne)]
    · refine ⟨content :: contents,.cons ?_ ?_,.cons ?_ hlookups⟩
      · rw [hpath]
        exact hcontent
      · apply hsources.imp
        intro b c hb
        cases hb' : paths b.target with
        | none => simp [hb'] at hb
        | some path' =>
          rw [hb',Option.bind_some,stat_put_of_outside hout hb'] at hb
          exact hb
      · rw [hframe name hnot,lookup_put_self]

/-! ## Generated files -/

theorem outputArtifact_ok {a : Artifact} {entry : OutputArtifact}
    (h : outputArtifact os refusal stagingDir disk a = .ok entry) :
    ∃ place content, os.locate (Text.joinPath [stagingDir,a.filename]) = some place ∧
      disk.lookup place = some content ∧ entry = entryOf a content := by
  unfold outputArtifact at h
  dsimp only at h
  split at h
  · cases h
  · cases h
  · rename_i content hcontent
    cases h
    obtain ⟨place,hplace,_,hlookup⟩ := Disk.stat_eq_file.mp hcontent
    exact ⟨place,content,hplace,hlookup,rfl⟩

theorem generateOutputManifest_ok {output : OutputManifest}
    (hreach : Reaches os stagingDir d outputManifestFile)
    (h : generateOutputManifest os refusal m stagingDir disk = .ok (output,disk')) :
    (∃ entries, m.present.mapM (outputArtifact os refusal stagingDir disk) = .ok entries ∧
      output = ⟨m.name,m.version,entries⟩) ∧
      disk' = put ⟨d,outputManifestFile⟩ (bytes output.marshal) disk := by
  obtain ⟨entries,hentries,hrest⟩ := ok_of_bind h
  obtain ⟨written,hwritten,hreturn⟩ := ok_of_bind hrest
  obtain ⟨place,hplace,_,hput⟩ := Disk.writeFile_eq_some.mp (require_eq_ok hwritten)
  rw [hreach] at hplace
  cases hplace
  cases hreturn
  exact ⟨⟨entries,hentries,rfl⟩,hput⟩

private theorem stagedFile_ok {name what : String} {content : List UInt8}
    (hreach : Reaches os stagingDir d name)
    (h : stagedFile os refusal stagingDir disk name what = .ok content) :
    disk.lookup ⟨d,name⟩ = some content := by
  unfold stagedFile at h
  dsimp only at h
  split at h
  · rename_i hcontent
    cases h
    obtain ⟨place,hplace,_,hlookup⟩ := Disk.stat_eq_file.mp hcontent
    rw [hreach] at hplace
    cases hplace
    exact hlookup
  · cases h

/-- The names that a pass over the directory goes through lead to its files. -/
theorem reaches_of_mem
    (hreach : ∀ name, ⟨d,name⟩ ∈ disk.map Prod.fst → Reaches os stagingDir d name)
    {p : String → Bool} {ns : List String}
    (hns : ns.Perm (((disk.files d).map Prod.fst).filter p)) :
    ∀ name ∈ ns, Reaches os stagingDir d name := by
  intro name hname
  apply hreach
  exact Disk.mem_names.mp (List.mem_filter.mp (hns.mem_iff.mp hname)).1

theorem generateSHA256SUMS_ok (hdir : os.directory stagingDir = some d)
    (hn : (disk.map Prod.fst).Nodup)
    (hreach : ∀ name, ⟨d,name⟩ ∈ disk.map Prod.fst → Reaches os stagingDir d name)
    (hsums : Reaches os stagingDir d sha256SumsFile)
    (h : generateSHA256SUMS os refusal stagingDir disk = .ok disk') :
    ∃ lines : List String, lines.Perm (((disk.files d).filter
        fun e => decide (e.1 ≠ sha256SumsFile)).map fun e => sumsLine e.2 e.1) ∧
      disk' = put ⟨d,sha256SumsFile⟩ (bytes (String.join (lines.map (· ++ "\n")))) disk := by
  obtain ⟨d',hd',hrest⟩ := ok_of_bind h
  have hd := require_eq_ok hd'
  rw [hdir] at hd
  cases hd
  obtain ⟨ys,hys,hwrite⟩ := ok_of_bind hrest
  obtain ⟨place,hplace,_,hput⟩ := Disk.writeFile_eq_some.mp (require_eq_ok hwrite)
  rw [hsums] at hplace
  cases hplace
  have hnames : (((disk.readDir d).filter (· ≠ sha256SumsFile)).insertionSort (· ≤ ·)).Perm
      (((disk.files d).map Prod.fst).filter (· ≠ sha256SumsFile)) :=
    (List.perm_insertionSort _ _).trans (Disk.perm_readDir.filter _)
  have hread := reaches_of_mem hreach hnames
  generalize ((disk.readDir d).filter (· ≠ sha256SumsFile)).insertionSort (· ≤ ·) = ns
    at hys hnames hread
  have hlines : ∃ lines, List.Forall₂ (fun name line => ∃ content,
      List.lookup ⟨d,name⟩ disk = some content ∧ line = sumsLine content name) ns lines ∧
        ys = lines.map (· ++ "\n") := by
    replace hys := forall₂_of_mapM hys
    clear hnames hrest hwrite hput h
    induction hys with
    | nil => exact ⟨[],.nil,rfl⟩
    | @cons name y ns ys hy _ ih =>
      obtain ⟨hname,hread⟩ := List.forall_mem_cons.mp hread
      obtain ⟨content,hcontent,hline⟩ := ok_of_bind hy
      obtain ⟨lines,hlines,hall⟩ := ih hread
      cases hline
      exact ⟨_ :: lines,.cons ⟨content,stagedFile_ok hname hcontent,rfl⟩ hlines,
        by rw [hall,List.map_cons]⟩
  obtain ⟨lines,hlines,rfl⟩ := hlines
  exact ⟨lines,Disk.perm_of_contents (g := fun name content => sumsLine content name)
    hn hnames hlines,hput⟩

/-! ## Uploads -/

/-- Every file is uploaded once where the generated files are there. -/
theorem perm_uploadOrder {files : List String} (hn : files.Nodup) (hm : outputManifestFile ∈ files)
    (hs : sha256SumsFile ∈ files) : (uploadOrder files).Perm files := by
  have hne : outputManifestFile ≠ sha256SumsFile := by decide
  rw [uploadOrder,if_pos hm,if_pos hs,List.perm_ext_iff_of_nodup _ hn]
  · intro name
    by_cases h₁ : name = outputManifestFile
    · simp [h₁,hm]
    · by_cases h₂ : name = sha256SumsFile
      · simp [h₂,hs]
      · simp [h₁,h₂]
  · rw [List.nodup_append]
    refine ⟨hn.filter _,by simp [hne],?_⟩
    intro a ha b hb
    have hnot := of_decide_eq_true (List.mem_filter.mp ha).2
    rcases List.mem_pair.mp hb with rfl | rfl
    · exact hnot.1
    · exact hnot.2

theorem publish_ok {uploads : List Object} (hdir : os.directory stagingDir = some d)
    (hn : (disk.map Prod.fst).Nodup)
    (hreach : ∀ name, ⟨d,name⟩ ∈ disk.map Prod.fst → Reaches os stagingDir d name)
    (hm : ⟨d,outputManifestFile⟩ ∈ disk.map Prod.fst)
    (hs : ⟨d,sha256SumsFile⟩ ∈ disk.map Prod.fst)
    (h : publish os refusal uploader stagingDir m disk = .ok uploads) :
    uploads.Perm ((disk.files d).map fun e => ⟨objectKey m.name m.version e.1,e.2⟩) := by
  obtain ⟨d',hd',hrest⟩ := ok_of_bind h
  have hd := require_eq_ok hd'
  rw [hdir] at hd
  cases hd
  have hfiles : (disk.readDir d).Perm ((disk.files d).map Prod.fst) := Disk.perm_readDir
  have horder : (uploadOrder (disk.readDir d)).Perm
      (((disk.files d).map Prod.fst).filter fun _ => true) := by
    rw [List.filter_true]
    apply (perm_uploadOrder (hfiles.nodup_iff.mpr (Disk.nodup_names hn)) _ _).trans hfiles
    · exact hfiles.mem_iff.mpr (Disk.mem_names.mpr hm)
    · exact hfiles.mem_iff.mpr (Disk.mem_names.mpr hs)
  have hread := reaches_of_mem hreach horder
  have hobjects : List.Forall₂ (fun name upload => ∃ content,
      List.lookup ⟨d,name⟩ disk = some content ∧
        upload = Object.mk (objectKey m.name m.version name) content)
      (uploadOrder (disk.readDir d)) uploads := by
    have hall := forall₂_of_mapM hrest
    generalize uploadOrder (disk.readDir d) = ns at hall hread
    clear hrest h
    induction hall with
    | nil => exact .nil
    | cons hy _ ih =>
      obtain ⟨hname,hread⟩ := List.forall_mem_cons.mp hread
      obtain ⟨content,hcontent,hupload⟩ := ok_of_bind hy
      refine .cons ⟨content,stagedFile_ok hname hcontent,?_⟩ (ih hread)
      split at hupload
      · cases hupload
      · cases hupload
        rfl
  have hperm := Disk.perm_of_contents (g := fun name content =>
    Object.mk (objectKey m.name m.version name) content) hn horder hobjects
  rwa [List.filter_true] at hperm

/-! ## Success -/

section success

variable (hregular : ∀ name, os.irregular ⟨d,name⟩ = false)

include hregular

/-- A file of the directory can be written. -/
theorem writeFile_name {name : String} (hreach : Reaches os stagingDir d name) (disk : Disk δ)
    (content : List UInt8) : disk.writeFile os (Text.joinPath [stagingDir,name]) content =
      some (put ⟨d,name⟩ content disk) :=
  Disk.writeFile_eq_some.mpr ⟨_,hreach,hregular name,rfl⟩

private theorem stagedFile_succeeds {name : String} (hreach : Reaches os stagingDir d name)
    (h : ⟨d,name⟩ ∈ disk.map Prod.fst) (what : String) :
    ∃ content, stagedFile os refusal stagingDir disk name what = .ok content := by
  obtain ⟨content,hcontent⟩ := Disk.exists_stat hreach (hregular name) h
  unfold stagedFile
  dsimp only
  rw [hcontent]
  exact ⟨content,rfl⟩

theorem generateOutputManifest_succeeds (hreach : Reaches os stagingDir d outputManifestFile)
    (h : ∀ a ∈ m.present, ∃ content,
      disk.stat os (Text.joinPath [stagingDir,a.filename]) = some (.file content)) :
    ∃ generated, generateOutputManifest os refusal m stagingDir disk = .ok generated := by
  apply exists_bind
  · apply exists_mapM
    intro a ha
    obtain ⟨content,hcontent⟩ := h a ha
    unfold outputArtifact
    dsimp only
    rw [hcontent]
    exact ⟨_,rfl⟩
  · intro entries _
    apply exists_bind (exists_require (writeFile_name hregular hreach disk _) _)
    intro written _
    exact ⟨_,rfl⟩

theorem generateSHA256SUMS_succeeds (hdir : os.directory stagingDir = some d)
    (hreach : ∀ name, ⟨d,name⟩ ∈ disk.map Prod.fst → Reaches os stagingDir d name)
    (hsums : Reaches os stagingDir d sha256SumsFile) :
    ∃ summed, generateSHA256SUMS os refusal stagingDir disk = .ok summed := by
  apply exists_bind (exists_require hdir _)
  intro d' hd'
  cases hdir.symm.trans (require_eq_ok hd')
  apply exists_bind
  · apply exists_mapM
    intro name hname
    have hfile := (List.mem_filter.mp ((List.perm_insertionSort _ _).mem_iff.mp hname)).1
    have hmem := Disk.mem_names.mp (Disk.perm_readDir.mem_iff.mp hfile)
    apply exists_bind (stagedFile_succeeds hregular (hreach name hmem) hmem _)
    intro content _
    exact ⟨_,rfl⟩
  · intro lines _
    exact exists_require (writeFile_name hregular hsums disk _) _

theorem publish_succeeds (hdir : os.directory stagingDir = some d) (hn : (disk.map Prod.fst).Nodup)
    (hreach : ∀ name, ⟨d,name⟩ ∈ disk.map Prod.fst → Reaches os stagingDir d name)
    (hm : ⟨d,outputManifestFile⟩ ∈ disk.map Prod.fst)
    (hs : ⟨d,sha256SumsFile⟩ ∈ disk.map Prod.fst) (hup : ∀ object, uploader object = .ok ()) :
    ∃ uploads, publish os refusal uploader stagingDir m disk = .ok uploads := by
  have hfiles : (disk.readDir d).Perm ((disk.files d).map Prod.fst) := Disk.perm_readDir
  have horder := perm_uploadOrder (hfiles.nodup_iff.mpr (Disk.nodup_names hn))
    (hfiles.mem_iff.mpr (Disk.mem_names.mpr hm)) (hfiles.mem_iff.mpr (Disk.mem_names.mpr hs))
  apply exists_bind (exists_require hdir _)
  intro d' hd'
  cases hdir.symm.trans (require_eq_ok hd')
  apply exists_mapM
  intro name hname
  have hmem := Disk.mem_names.mp (hfiles.mem_iff.mp (horder.mem_iff.mp hname))
  apply exists_bind (stagedFile_succeeds hregular (hreach name hmem) hmem _)
  intro content _
  rw [hup]
  exact ⟨_,rfl⟩

end success

end Dominion.Release
