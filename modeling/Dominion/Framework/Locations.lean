import Dominion.Framework.Text

/-! # Locations below a root

A location is a list of path segments that are names.  A reference is followed from a location
segment by segment; `filepath.Clean` of the joined path has the segments of where it leads. -/
namespace Dominion.Framework

/-- A segment that names an entry of its directory. -/
def Plain (segment : List Char) : Prop :=
  segment ≠ [] ∧ segment ≠ ['.'] ∧ segment ≠ ['.','.'] ∧ '/' ∉ segment

instance (segment : List Char) : Decidable (Plain segment) :=
  inferInstanceAs (Decidable (_ ∧ _ ∧ _ ∧ _))

@[ext] structure Location where
  segments : List (List Char)
  plain : ∀ segment ∈ segments, Plain segment

namespace Location

variable {d p q : Location} {segment : List Char} {rooted : Bool}

instance : DecidableEq Location := fun p q =>
  decidable_of_iff (p.segments = q.segments) Location.ext_iff.symm

/-- The root itself. -/
def root : Location :=
  ⟨[],by simp⟩

def child (d : Location) (segment : List Char) (h : Plain segment) : Location :=
  ⟨d.segments ++ [segment],by
    intro s hs
    rcases List.mem_append.mp hs with hs | hs
    · exact d.plain s hs
    · rwa [List.mem_singleton.mp hs]⟩

/-- The directory of a location; the root is in none. -/
def parent (d : Location) : Option Location :=
  if d.segments = [] then none
  else some ⟨d.segments.dropLast,fun s hs => d.plain s (List.dropLast_subset _ hs)⟩

/-- Where one segment leads; `none` is outside the root. -/
def follow (d : Location) (segment : List Char) : Option Location :=
  if segment = [] ∨ segment = ['.'] then some d
  else if segment = ['.','.'] then d.parent
  else if h : Plain segment then some (d.child segment h)
  else none

/-- Where a path leads. -/
def resolve (d : Location) (path : List Char) : Option Location :=
  (path.splitOn '/').foldlM follow d

theorem resolve_nil (d : Location) : d.resolve [] = some d :=
  rfl

def text (p : Location) : List Char :=
  ['/'].intercalate p.segments

/-! ## Texts -/

theorem splitOn_text (h : p.segments ≠ []) : p.text.splitOn '/' = p.segments :=
  List.splitOn_intercalate '/' (fun s hs => (p.plain s hs).2.2.2) h

theorem text_eq_nil : p.text = [] ↔ p.segments = [] := by
  constructor
  · intro h
    by_contra hne
    have hsplit := splitOn_text hne
    rw [h] at hsplit
    have hmem : ([] : List Char) ∈ p.segments := by
      rw [← hsplit]
      simp
    exact (p.plain _ hmem).1 rfl
  · intro h
    rw [text,h]
    rfl

/-- A location is known by its text. -/
theorem text_inj (h : p.text = q.text) : p = q := by
  apply Location.ext
  by_cases hp : p.segments = []
  · rw [hp,text_eq_nil.mp (h ▸ text_eq_nil.mpr hp)]
  · have hq : q.segments ≠ [] := fun hq => hp (text_eq_nil.mp (h.trans (text_eq_nil.mpr hq)))
    rw [← splitOn_text hp,h,splitOn_text hq]

theorem splitOn_append {sep : Char} (xs ys : List Char) :
    (xs ++ sep :: ys).splitOn sep = xs.splitOn sep ++ ys.splitOn sep := by
  simp only [List.splitOn_eq_splitOnP]
  exact List.splitOnP_append_cons xs ys (by simp)

theorem text_of_splitOn {path : List Char} (h : path.splitOn '/' = p.segments) :
    p.text = path := by
  rw [text,← h,List.intercalate_splitOn]

/-! ## Clean paths -/

theorem clean_stay {rest out : List (List Char)} (h : segment = [] ∨ segment = ['.']) :
    Text.cleanComponents rooted (segment :: rest) out = Text.cleanComponents rooted rest out := by
  rw [Text.cleanComponents.eq_def]
  dsimp only
  rw [if_pos h]

theorem clean_up {rest out : List (List Char)} {last : List Char} (h : last ≠ ['.','.']) :
    Text.cleanComponents rooted (['.','.'] :: rest) (last :: out) =
      Text.cleanComponents rooted rest out := by
  rw [Text.cleanComponents.eq_def]
  dsimp only
  rw [if_neg (by decide),if_pos rfl,if_neg h]

theorem clean_child {rest out : List (List Char)} (h : Plain segment) :
    Text.cleanComponents rooted (segment :: rest) out =
      Text.cleanComponents rooted rest (segment :: out) := by
  rw [Text.cleanComponents.eq_def]
  dsimp only
  rw [if_neg (by simp [h.1,h.2.1]),if_neg h.2.2.1]

theorem follow_plain (h : Plain segment) : d.follow segment = some (d.child segment h) := by
  rw [follow,if_neg (by simp [h.1,h.2.1]),if_neg h.2.2.1,dif_pos h]

private theorem clean_follow {rest : List (List Char)} (h : d.follow segment = some p) :
    Text.cleanComponents rooted (segment :: rest) d.segments.reverse =
      Text.cleanComponents rooted rest p.segments.reverse := by
  by_cases hstay : segment = [] ∨ segment = ['.']
  · rw [follow,if_pos hstay] at h
    cases h
    exact clean_stay hstay
  · by_cases hup : segment = ['.','.']
    · rw [follow,if_neg hstay,if_pos hup,parent] at h
      split at h
      · cases h
      · rename_i hne
        cases h
        have hreverse : d.segments.reverse =
            d.segments.getLast hne :: d.segments.dropLast.reverse := by
          conv => lhs; rw [← List.dropLast_append_getLast hne]
          simp
        rw [hreverse,hup]
        exact clean_up (d.plain _ (List.getLast_mem hne)).2.2.1
    · by_cases hplain : Plain segment
      · rw [follow_plain hplain] at h
        cases h
        rw [clean_child hplain,child,List.reverse_append]
        rfl
      · rw [follow,if_neg hstay,if_neg hup,dif_neg hplain] at h
        cases h

/-- Cleaning goes where the reference leads. -/
theorem clean_resolve (rooted : Bool) {segments : List (List Char)}
    (h : segments.foldlM follow d = some p) :
    Text.cleanComponents rooted segments d.segments.reverse = p.segments.reverse := by
  induction segments generalizing d with
  | nil =>
    cases h
    rfl
  | cons segment rest ih =>
    rw [List.foldlM_cons] at h
    obtain ⟨next,hnext,hrest⟩ := Option.bind_eq_some_iff.mp h
    rw [clean_follow hnext,ih hrest]

theorem resolve_plain {segments : List (List Char)} (h : ∀ s ∈ segments, Plain s) :
    ∃ p, segments.foldlM follow d = some p ∧ p.segments = d.segments ++ segments := by
  induction segments generalizing d with
  | nil => exact ⟨d,rfl,by simp⟩
  | cons segment rest ih =>
    obtain ⟨hsegment,hrest⟩ := List.forall_mem_cons.mp h
    obtain ⟨p,hp,hsegments⟩ := ih hrest
    refine ⟨p,?_,?_⟩
    · rw [List.foldlM_cons,follow_plain hsegment]
      exact hp
    · rw [hsegments,child,List.append_assoc]
      rfl

theorem text_ne_dot : p.text ≠ ['.'] := by
  intro h
  have hne : p.segments ≠ [] := fun hnil => by simp [text_eq_nil.mpr hnil] at h
  have hsplit := splitOn_text hne
  rw [h] at hsplit
  have hmem : ['.'] ∈ p.segments := by
    rw [← hsplit]
    decide
  exact (p.plain _ hmem).2.1 rfl

/-- No location has a text that leads out of the root. -/
theorem text_ne_up {rest : List Char} (hrest : rest = [] ∨ rest.head? = some '/') :
    p.text ≠ ['.','.'] ++ rest := by
  intro h
  have hne : p.segments ≠ [] := fun hnil => by simp [text_eq_nil.mpr hnil] at h
  have hsplit := splitOn_text hne
  have hmem : ['.','.'] ∈ p.segments := by
    rw [← hsplit,h]
    rcases hrest with hnil | hslash
    · rw [hnil]
      decide
    · obtain ⟨path,rfl⟩ := List.head?_eq_some_iff.mp hslash
      rw [splitOn_append]
      exact List.mem_append_left _ (by decide)
  exact (p.plain _ hmem).2.2.1 rfl

theorem resolve_append (d : Location) (first rest : List Char) :
    d.resolve (first ++ '/' :: rest) = (d.resolve first).bind fun next => next.resolve rest := by
  rw [resolve,splitOn_append,List.foldlM_append]
  rfl

theorem resolve_below {path : List Char} (hd : d.segments ≠ []) (h : d.resolve path = some p) :
    root.resolve (d.text ++ '/' :: path) = some p := by
  obtain ⟨d',hd',hsegments⟩ := resolve_plain (d := root) d.plain
  have hsame : d' = d := Location.ext hsegments
  rw [resolve,splitOn_append,splitOn_text hd,List.foldlM_append,hd',hsame]
  exact h

theorem head?_text_ne : p.text.head? ≠ some '/' := by
  cases hp : p.segments with
  | nil => simp [text_eq_nil.mpr hp]
  | cons segment rest =>
    have hplain := p.plain segment (hp ▸ List.mem_cons_self)
    obtain ⟨c,cs,rfl⟩ := List.exists_cons_of_ne_nil hplain.1
    have hc : c ≠ '/' := fun hc => hplain.2.2.2 (hc ▸ List.mem_cons_self)
    rw [text,hp]
    cases rest <;> simpa [List.intercalate] using hc

/-- The clean path of a reference from the root is the text of where it leads. -/
theorem cleanPath_eq (path : String) (hhead : path.toList.head? ≠ some '/')
    (h : root.resolve path.toList = some p) :
    Text.cleanPath path = String.ofList (if p.segments = [] then ['.'] else p.text) := by
  have hclean : Text.cleanComponents false (path.toList.splitOn '/') [] = p.segments.reverse :=
    clean_resolve false h
  have hrooted : (path.toList.head? == some '/') = false := by simpa using hhead
  unfold Text.cleanPath
  simp only [hrooted,hclean,List.reverse_reverse,Bool.false_eq_true,if_false]
  change String.ofList (if p.text = [] then ['.'] else p.text) = _
  simp only [text_eq_nil]

theorem resolve_slash (d : Location) (path : List Char) :
    d.resolve ('/' :: path) = d.resolve path := by
  rw [resolve,List.splitOn_eq_splitOnP,List.splitOnP_cons_eq_if_modifyHead,if_pos (by simp)]
  rfl

theorem resolve_text (p : Location) : root.resolve p.text = some p := by
  by_cases hp : p.segments = []
  · rw [text_eq_nil.mpr hp,resolve_nil]
    exact congrArg some (Location.ext hp.symm)
  · obtain ⟨p',hp',hsegments⟩ := resolve_plain (d := root) p.plain
    rw [resolve,splitOn_text hp,hp']
    exact congrArg some (Location.ext hsegments)

theorem cleanPath_rooted {path : List Char} (h : root.resolve path = some p) :
    Text.cleanPath (String.ofList ('/' :: path)) = String.ofList ('/' :: p.text) := by
  have hclean : Text.cleanComponents true (('/' :: path).splitOn '/') [] = p.segments.reverse :=
    clean_resolve true ((resolve_slash root path).trans h)
  unfold Text.cleanPath
  simp only [String.toList_ofList,List.head?_cons,beq_self_eq_true,if_true,hclean,
    List.reverse_reverse,text]

theorem joinPath_eq {path : String} (hhead : path.toList.head? ≠ some '/') (hne : path ≠ "")
    (h : d.resolve path.toList = some p) :
    Text.joinPath [String.ofList d.text,path] =
      String.ofList (if p.segments = [] then ['.'] else p.text) := by
  by_cases hd : d.segments = []
  · have hroot : d = root := Location.ext hd
    rw [hroot] at h ⊢
    rw [← cleanPath_eq path hhead h]
    simp [Text.joinPath,root,text,hne]
  · have htext : d.text ≠ [] := fun htext => hd (text_eq_nil.mp htext)
    have hbelow := resolve_below hd h
    have hjoined : Text.joinPath [String.ofList d.text,path] =
        Text.cleanPath (String.ofList (d.text ++ '/' :: path.toList)) := by
      have hname : String.ofList d.text ≠ "" := by simpa using htext
      have hparts : "/".intercalate [String.ofList d.text,path] =
          String.ofList (d.text ++ '/' :: path.toList) :=
        String.toList_inj.mp (by simp)
      simp [Text.joinPath,hname,hne,hparts]
    rw [hjoined]
    apply cleanPath_eq _ _ (by simpa using hbelow)
    rw [String.toList_ofList,List.head?_append_of_ne_nil _ htext]
    exact head?_text_ne

/-- A location below another one. -/
def below (d p : Location) : Location :=
  ⟨d.segments ++ p.segments,fun s hs => (List.mem_append.mp hs).elim (d.plain s) (p.plain s)⟩

/-- A reference that stays inside a root leads to the same place below it. -/
theorem resolve_from (base : Location) {segments : List (List Char)}
    (h : segments.foldlM follow d = some p) :
    segments.foldlM follow (base.below d) = some (base.below p) := by
  induction segments generalizing d with
  | nil =>
    cases h
    rfl
  | cons segment rest ih =>
    rw [List.foldlM_cons] at h ⊢
    obtain ⟨next,hnext,hrest⟩ := Option.bind_eq_some_iff.mp h
    have hsame : (base.below d).follow segment = some (base.below next) := by
      by_cases hstay : segment = [] ∨ segment = ['.']
      · rw [follow,if_pos hstay] at hnext ⊢
        cases hnext
        rfl
      · by_cases hup : segment = ['.','.']
        · rw [follow,if_neg hstay,if_pos hup,parent] at hnext ⊢
          split at hnext
          · cases hnext
          · rename_i hne
            cases hnext
            rw [if_neg (by simp [below,hne])]
            exact congrArg some (Location.ext (List.dropLast_append_of_ne_nil hne))
        · by_cases hplain : Plain segment
          · rw [follow_plain hplain] at hnext ⊢
            cases hnext
            exact congrArg some (Location.ext (by simp [below,child]))
          · rw [follow,if_neg hstay,if_neg hup,dif_neg hplain] at hnext
            cases hnext
    rw [hsame]
    exact ih hrest

theorem resolve_below_text (base d : Location) :
    base.resolve d.text = some (base.below d) := by
  have hfrom := resolve_from base (resolve_text d)
  have hroot : base.below root = base := Location.ext (List.append_nil _)
  rwa [hroot] at hfrom

end Location

end Dominion.Framework
