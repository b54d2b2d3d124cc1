import Dominion.Framework.Locations
import Dominion.Framework.Overlay
import Mathlib.Data.List.Perm.Basic
import Mathlib.Data.List.Sort
import Mathlib.Order.Basic

/-! # Regular files

A disk holds the contents of regular files by directory and name.  The operating system says which
place a path denotes, symbolic links included; a program that makes no directories and no links
leaves that as it is. -/
namespace Dominion.Framework

/-- A name in a directory. -/
structure Place (δ : Type) where
  dir : δ
  name : String
  deriving DecidableEq

/-- What the operating system makes of paths. -/
structure PathRules (δ : Type) where
  locate : String → Option (Place δ)
  directory : String → Option δ
  /-- Something that is no regular file is there, and cannot be written as one. -/
  irregular : Place δ → Bool

abbrev Disk (δ : Type) := List (Place δ × List UInt8)

inductive Entry
  | file (content : List UInt8)
  | other
  deriving DecidableEq

namespace Disk

variable {δ : Type} [DecidableEq δ] {os : PathRules δ} {disk : Disk δ} {d : δ}

/-- `os.Stat`, and what can be read. -/
def stat (os : PathRules δ) (disk : Disk δ) (path : String) : Option Entry :=
  (os.locate path).bind fun place =>
    if os.irregular place then some .other else (disk.lookup place).map .file

/-- `os.WriteFile`. -/
def writeFile (os : PathRules δ) (disk : Disk δ) (path : String) (content : List UInt8) :
    Option (Disk δ) :=
  (os.locate path).bind fun place =>
    if os.irregular place then none else some (put place content disk)

/-- The regular files of a directory. -/
def files (disk : Disk δ) (d : δ) : List (String × List UInt8) :=
  (disk.filter fun e => e.1.dir = d).map fun e => (e.1.name,e.2)

/-- `os.ReadDir`, of which only regular files are of interest. -/
def readDir (disk : Disk δ) (d : δ) : List String :=
  ((disk.files d).map Prod.fst).insertionSort (· ≤ ·)

theorem stat_eq_file {path : String} {content : List UInt8} :
    disk.stat os path = some (.file content) ↔ ∃ place, os.locate path = some place ∧
      os.irregular place = false ∧ disk.lookup place = some content := by
  unfold stat
  rw [Option.bind_eq_some_iff]
  refine exists_congr fun place => and_congr_right fun _ => ?_
  cases os.irregular place <;> simp

theorem writeFile_eq_some {path : String} {content : List UInt8} {disk' : Disk δ} :
    disk.writeFile os path content = some disk' ↔ ∃ place, os.locate path = some place ∧
      os.irregular place = false ∧ disk' = put place content disk := by
  unfold writeFile
  rw [Option.bind_eq_some_iff]
  refine exists_congr fun place => and_congr_right fun _ => ?_
  cases os.irregular place <;> simp [eq_comm]

theorem exists_stat {path : String} {place : Place δ} (hplace : os.locate path = some place)
    (hregular : os.irregular place = false) (h : place ∈ disk.map Prod.fst) :
    ∃ content, disk.stat os path = some (.file content) := by
  cases hlookup : List.lookup place disk with
  | none => exact absurd h (lookup_eq_none.mp hlookup)
  | some content => exact ⟨content,stat_eq_file.mpr ⟨place,hplace,hregular,hlookup⟩⟩

private theorem mem_files {name : String} {content : List UInt8} :
    (name,content) ∈ disk.files d ↔ (⟨d,name⟩,content) ∈ disk := by
  simp only [files,List.mem_map,List.mem_filter,decide_eq_true_eq,Prod.mk.injEq]
  constructor
  · intro ⟨⟨⟨d',name'⟩,content'⟩,⟨hmem,hd⟩,hname,hcontent⟩
    subst hd hname hcontent
    exact hmem
  · intro hmem
    exact ⟨_,⟨hmem,rfl⟩,rfl,rfl⟩

private theorem mem_files_iff_lookup (h : (disk.map Prod.fst).Nodup) {name : String}
    {content : List UInt8} :
    (name,content) ∈ disk.files d ↔ List.lookup ⟨d,name⟩ disk = some content := by
  rw [mem_files]
  exact ⟨fun hmem => lookup_of_mem h hmem,mem_of_lookup⟩

theorem mem_names {name : String} :
    name ∈ (disk.files d).map Prod.fst ↔ ⟨d,name⟩ ∈ disk.map Prod.fst := by
  constructor
  · intro hname
    obtain ⟨e,he,rfl⟩ := List.mem_map.mp hname
    exact List.mem_map_of_mem (mem_files.mp he)
  · intro hplace
    obtain ⟨⟨place,content⟩,he,rfl⟩ := List.mem_map.mp hplace
    exact List.mem_map_of_mem (f := Prod.fst) (mem_files.mpr he)

theorem nodup_names (h : (disk.map Prod.fst).Nodup) : ((disk.files d).map Prod.fst).Nodup := by
  have hnames : (disk.files d).map Prod.fst =
      ((disk.filter fun e => e.1.dir = d).map Prod.fst).map Place.name := by
    rw [files,List.map_map,List.map_map]
    rfl
  have hdir : ∀ p ∈ (disk.filter fun e => e.1.dir = d).map Prod.fst, p.dir = d := by
    intro p hp
    obtain ⟨e,he,rfl⟩ := List.mem_map.mp hp
    exact of_decide_eq_true (List.mem_filter.mp he).2
  rw [hnames]
  apply (h.sublist (List.filter_sublist.map _)).map_on
  intro p hp q hq hpq
  cases p
  cases q
  exact congrArg₂ Place.mk ((hdir _ hp).trans (hdir _ hq).symm) hpq

theorem perm_readDir : (disk.readDir d).Perm ((disk.files d).map Prod.fst) :=
  List.perm_insertionSort _ _

/-- What is computed from the names and the contents of files, in whichever order. -/
theorem perm_of_contents {β : Type} (h : (disk.map Prod.fst).Nodup) {p : String → Bool}
    {g : String → List UInt8 → β} {ns : List String} {ys : List β}
    (hns : ns.Perm (((disk.files d).map Prod.fst).filter p))
    (hys : List.Forall₂ (fun name y => ∃ content,
      List.lookup ⟨d,name⟩ disk = some content ∧ y = g name content) ns ys) :
    ys.Perm (((disk.files d).filter fun e => p e.1).map fun e => g e.1 e.2) := by
  obtain ⟨zs,hzs,hperm⟩ := List.perm_comp_forall₂ hns.symm hys
  apply hperm.symm.trans
  have hfilter : ((disk.files d).map Prod.fst).filter p =
      ((disk.files d).filter fun e => p e.1).map Prod.fst := List.filter_map
  rw [hfilter] at hzs
  have hmem : ∀ e ∈ (disk.files d).filter fun e => p e.1, e ∈ disk.files d :=
    fun e he => (List.mem_filter.mp he).1
  generalize ((disk.files d).filter fun e => p e.1) = fs at hzs hmem
  have heq : zs = fs.map fun e => g e.1 e.2 := by
    clear hperm hfilter
    induction fs generalizing zs with
    | nil =>
      cases hzs
      rfl
    | cons e fs ih =>
      cases hzs with
      | cons hz hzs =>
        obtain ⟨content,hcontent,rfl⟩ := hz
        have he := (mem_files_iff_lookup h).mp (hmem e List.mem_cons_self)
        rw [hcontent] at he
        have hrest := ih _ hzs fun e he => hmem e (List.mem_cons_of_mem _ he)
        rw [hrest,List.map_cons,Option.some.inj he]
  rw [heq]

/-- A file that is written takes the place of the one of its name. -/
theorem files_put (h : (disk.map Prod.fst).Nodup) (name : String) (content : List UInt8) :
    (files (put ⟨d,name⟩ content disk) d).Perm
      ((disk.files d).filter (fun e => e.1 ≠ name) ++ [(name,content)]) := by
  have hnew : ((put ⟨d,name⟩ content disk).map Prod.fst).Nodup := nodup_put h
  rw [List.perm_ext_iff_of_nodup]
  · rintro ⟨n,c⟩
    rw [mem_files_iff_lookup hnew,List.mem_append,List.mem_filter,mem_files_iff_lookup h,
      List.mem_singleton]
    by_cases hn : n = name
    · subst hn
      rw [lookup_put_self]
      simp [eq_comm]
    · rw [lookup_put_ne (by simp [hn])]
      simp [hn]
  · exact (nodup_names hnew).of_map
  · rw [List.nodup_append]
    refine ⟨(nodup_names h).of_map.filter _,List.nodup_singleton _,?_⟩
    intro e he e' he'
    rw [List.mem_singleton.mp he']
    rintro rfl
    simpa using (List.mem_filter.mp he).2

end Disk

/-! ## Trees of directories -/

namespace Location

variable {dirs : List Location} {d : Location}

/-- Absolute paths of a tree of directories without links. -/
def treeRules (dirs : List Location) : PathRules Location where
  locate path := (root.resolve path.toList).bind fun p => p.parent.bind fun dir =>
    if dir ∈ dirs then some ⟨dir,String.ofList (p.segments.getLastD [])⟩ else none
  directory path := (root.resolve path.toList).bind fun p => if p ∈ dirs then some p else none
  irregular place := dirs.any fun p => p.segments = place.dir.segments ++ [place.name.toList]

private theorem plain_of_locate {path : String} {place : Place Location}
    (h : (treeRules dirs).locate path = some place) :
    place.dir ∈ dirs ∧ Plain place.name.toList := by
  obtain ⟨p,hp,hrest⟩ := Option.bind_eq_some_iff.mp h
  obtain ⟨dir,hdir,hplace⟩ := Option.bind_eq_some_iff.mp hrest
  split at hplace
  · rename_i hmem
    cases hplace
    unfold parent at hdir
    split at hdir
    · cases hdir
    · rename_i hne
      refine ⟨hmem,?_⟩
      rw [String.toList_ofList,List.getLastD_eq_getLast?,List.getLast?_eq_some_getLast hne]
      exact p.plain _ (List.getLast_mem hne)
  · cases hplace

private theorem locate_of_resolve {path name : String} (hd : d ∈ dirs) (hplain : Plain name.toList)
    (h : root.resolve path.toList = some (d.child name.toList hplain)) :
    (treeRules dirs).locate path = some ⟨d,name⟩ := by
  have hparent : (d.child name.toList hplain).parent = some d := by
    rw [parent,if_neg (by simp [child])]
    exact congrArg some (Location.ext (by simp [child]))
  unfold treeRules
  simp only [h,Option.bind_some,hparent,if_pos hd]
  simp [child]

/-- A name joined to the path of its directory leads to its entry. -/
theorem locate_join {path : String} {name : String}
    (h : (treeRules dirs).locate path = some ⟨d,name⟩) :
    (treeRules dirs).locate (Text.joinPath [String.ofList ('/' :: d.text),name]) =
      some ⟨d,name⟩ := by
  obtain ⟨hd,hplain⟩ := plain_of_locate h
  dsimp only at hd hplain
  have hne : name ≠ "" := fun he => hplain.1 (by rw [he]; rfl)
  have hresolve : root.resolve (d.text ++ '/' :: name.toList) =
      some (d.child name.toList hplain) := by
    rw [resolve_append,resolve_text,Option.bind_some,resolve,
      List.splitOn_eq_singleton hplain.2.2.2,List.foldlM_cons,follow_plain hplain]
    rfl
  have hjoined : Text.joinPath [String.ofList ('/' :: d.text),name] =
      Text.cleanPath (String.ofList ('/' :: (d.text ++ '/' :: name.toList))) := by
    have hparts : "/".intercalate [String.ofList ('/' :: d.text),name] =
        String.ofList ('/' :: (d.text ++ '/' :: name.toList)) :=
      String.toList_inj.mp (by simp)
    rw [← hparts]
    simp [Text.joinPath,hne]
  rw [hjoined,cleanPath_rooted hresolve]
  apply locate_of_resolve hd hplain
  rw [String.toList_ofList,resolve_slash,resolve_text]

end Location

end Dominion.Framework
