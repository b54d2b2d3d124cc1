import Dominion.Framework.Pages
import Dominion.Memory.OrderBy

/-! # The pages of a listing

The clauses of a cursor are the ladder of the requested order, so each page goes on right behind
the last memory of the page before it. -/
namespace Dominion.Memory

open Dominion.Framework

/-! ## The requested order -/

/-- The ascending order of a sortable field. -/
def fieldOrder (field : String) : MemoryDocument → MemoryDocument → Ordering :=
  if field = "update_time" then compareOn fun d => d.updateTime else compareOn fun d => d.memoryID

def MemorySortTerm.order (t : MemorySortTerm) (d e : MemoryDocument) : Ordering :=
  if t.descending then (fieldOrder t.field d e).swap else fieldOrder t.field d e

def requestedOrder (sort : List MemorySortTerm) : MemoryDocument → MemoryDocument → Ordering :=
  Seek.compareBy (sort.map MemorySortTerm.order)

/-- The year of an update in UTC. -/
def MemoryDocument.updateYear (d : MemoryDocument) : Int :=
  (Rfc3339.dateOf (d.updateTime * 1000000)).year

/-- The memories of a preset. -/
def memoriesOf (docs : List MemoryDocument) (template presetID : String) : List MemoryDocument :=
  docs.filter fun d => d.template = template ∧ d.presetID = presetID

variable {t : MemorySortTerm} {sort sort' : List MemorySortTerm} {c d e : MemoryDocument}
  {docs : List MemoryDocument} {template presetID orderBy : String}

private theorem Sortable.row (h : Sortable t) :
    (t.field = "memory_id" ∧ t.mongoField = "memory_id" ∧ t.kind = .string) ∨
      (t.field = "update_time" ∧ t.mongoField = "update_time" ∧ t.kind = .time) := by
  obtain ⟨spec,hspec,heq⟩ := h
  rw [heq]
  rcases List.mem_cons.mp hspec with rfl | hspec
  · exact Or.inl ⟨rfl,rfl,rfl⟩
  · obtain rfl := List.mem_singleton.mp hspec
    exact Or.inr ⟨rfl,rfl,rfl⟩

private theorem order_string (a b : String) :
    BsonValue.order (some (.string a)) (some (.string b)) = compare a b := by
  simp [BsonValue.order,compareLex,compareOn,BsonValue.rank,BsonValue.text,BsonValue.millis]

private theorem order_date (a b : Int) :
    BsonValue.order (some (.date a)) (some (.date b)) = compare a b := by
  simp [BsonValue.order,compareLex,compareOn,BsonValue.rank,BsonValue.text,BsonValue.millis]

private theorem Sortable.bson_order (h : Sortable t) :
    BsonValue.order (d.bson t.mongoField) (e.bson t.mongoField) = fieldOrder t.field d e := by
  rcases h.row with ⟨hfield,hmongo,_⟩ | ⟨hfield,hmongo,_⟩
  · rw [hfield,hmongo]
    exact order_string d.memoryID e.memoryID
  · rw [hfield,hmongo]
    exact order_date d.updateTime e.updateTime

private theorem fieldOrder_transCmp (field : String) : Std.TransCmp (fieldOrder field) := by
  unfold fieldOrder
  split <;> infer_instance

private theorem order_transCmp (t : MemorySortTerm) : Std.TransCmp t.order := by
  have hfield := fieldOrder_transCmp t.field
  have hswap : ∀ a b, fieldOrder t.field b a = (fieldOrder t.field a b).swap :=
    fun a b => Std.OrientedCmp.eq_swap
  cases hdesc : t.descending with
  | false =>
    have heq : t.order = fieldOrder t.field := by
      funext a b
      simp [MemorySortTerm.order,hdesc]
    rw [heq]
    exact hfield
  | true =>
    have heq : t.order = fun a b => fieldOrder t.field b a := by
      funext a b
      rw [MemorySortTerm.order,if_pos hdesc]
      exact (hswap a b).symm
    rw [heq]
    infer_instance

instance requestedOrder_transCmp (sort : List MemorySortTerm) :
    Std.TransCmp (requestedOrder sort) := by
  apply Seek.transCmp_compareBy
  intro o ho
  obtain ⟨t,_,rfl⟩ := List.mem_map.mp ho
  exact order_transCmp t

private theorem sortDocument_order (h : ∀ t ∈ sort, Sortable t) :
    Seek.compareBy ((memorySortDocument sort).map sortDocumentOrder) = requestedOrder sort := by
  unfold memorySortDocument requestedOrder
  rw [List.map_map]
  congr 1
  apply List.map_congr_left
  intro t ht
  funext d e
  have horder := (h t ht).bson_order (d := d) (e := e)
  cases hdesc : t.descending <;>
    simp [sortDocumentOrder,MemorySortTerm.order,hdesc,horder]

private theorem distinct_of_ids (hkey : FinalKey sort)
    (hids : (docs.map fun d => d.memoryID).Nodup) : Seek.Distinct (requestedOrder sort) docs := by
  apply (List.pairwise_map.mp hids).imp
  intro d e hne heq
  obtain ⟨t,ht,hfield⟩ := List.mem_map.mp hkey.identity
  have htie : t.order d e = .eq :=
    Seek.compareBy_eq_eq.mp heq t.order (List.mem_map_of_mem ht)
  have hid : fieldOrder t.field d e = .eq := by
    unfold MemorySortTerm.order at htie
    split at htie
    · simpa using htie
    · exact htie
  rw [hfield] at hid
  have hcompare : compare d.memoryID e.memoryID = .eq := hid
  exact hne (Std.LawfulEqCmp.eq_of_compare hcompare)

/-! ## The ladder -/

/-- The position of a memory by a term. -/
def cursorOf (d : MemoryDocument) (t : MemorySortTerm) : CursorValue :=
  if t.field = "update_time" then .time (d.updateTime * 1000000) else .string d.memoryID

private theorem Sortable.bson_cursorOf (h : Sortable t) :
    d.bson t.mongoField = some (cursorOf d t).bson := by
  rcases h.row with ⟨hfield,hmongo,_⟩ | ⟨hfield,hmongo,_⟩
  · simp [hfield,hmongo,cursorOf,MemoryDocument.bson,CursorValue.bson]
  · simp [hfield,hmongo,cursorOf,MemoryDocument.bson,CursorValue.bson]

private theorem matches_assign {equal : Clause} {field : String} {condition : Condition}
    (h : ∀ p ∈ equal, p.1 ≠ field) : (equal.assign field condition).matches d =
      (equal.matches d && condition.holds (d.bson field)) := by
  have hsame : equal.filter (fun p => p.1 ≠ field) = equal :=
    List.filter_eq_self.mpr fun p hp => decide_eq_true (h p hp)
  rw [Clause.assign,hsame,Clause.matches,List.all_append]
  simp [Clause.matches]

private theorem Sortable.holds_eq (h : Sortable t) :
    (Condition.eq (cursorOf c t).bson).holds (d.bson t.mongoField) = true ↔ t.order c d = .eq := by
  have horder := h.bson_order (d := d) (e := c)
  have hswap : fieldOrder t.field d c = (fieldOrder t.field c d).swap :=
    (fieldOrder_transCmp t.field).eq_swap
  rw [Condition.holds,decide_eq_true_iff,← h.bson_cursorOf,horder,hswap,MemorySortTerm.order]
  cases t.descending <;> simp

private theorem Sortable.holds_cmp (h : Sortable t) :
    (memoryCmpOp t.descending (cursorOf c t).bson).holds (d.bson t.mongoField) = true ↔
      t.order c d = .lt := by
  have horder := h.bson_order (d := d) (e := c)
  have hswap : fieldOrder t.field d c = (fieldOrder t.field c d).swap :=
    (fieldOrder_transCmp t.field).eq_swap
  have hrank : BsonValue.rank (d.bson t.mongoField) = BsonValue.rank (c.bson t.mongoField) := by
    rcases h.row with ⟨_,hmongo,_⟩ | ⟨_,hmongo,_⟩ <;> rw [hmongo] <;> rfl
  unfold memoryCmpOp MemorySortTerm.order
  cases t.descending <;>
    simp [Condition.holds,← h.bson_cursorOf,horder,hrank,hswap]

/-- One of the clauses matches just behind the cursor. -/
theorem seekFrom_matches {equal : Clause} (hsort : ∀ t ∈ sort, Sortable t)
    (hnodup : (sort.map fun t => t.mongoField).Nodup)
    (hfresh : ∀ t ∈ sort, ∀ p ∈ equal, p.1 ≠ t.mongoField) :
    (seekFrom (sort.map fun t => (t,cursorOf c t)) equal).any (fun clause => clause.matches d) =
      true ↔ equal.matches d = true ∧ Seek.Beyond (sort.map MemorySortTerm.order) c d := by
  induction sort generalizing equal with
  | nil => simp [seekFrom,Seek.Beyond]
  | cons t sort ih =>
    obtain ⟨ht,hrest⟩ := List.forall_mem_cons.mp hsort
    obtain ⟨hnew,hnodup⟩ := List.nodup_cons.mp hnodup
    obtain ⟨htfresh,hfresh⟩ := List.forall_mem_cons.mp hfresh
    have hnext : ∀ u ∈ sort, ∀ p ∈ equal.assign t.mongoField (.eq (cursorOf c t).bson),
        p.1 ≠ u.mongoField := by
      intro u hu p hp
      rcases List.mem_append.mp hp with hp | hp
      · exact hfresh u hu p (List.mem_of_mem_filter hp)
      · obtain rfl := List.mem_singleton.mp hp
        intro heq
        exact hnew (List.mem_map.mpr ⟨u,hu,heq.symm⟩)
    rw [List.map_cons,seekFrom,List.any_cons,Bool.or_eq_true,ih hrest hnodup hnext,List.map_cons,
      Seek.beyond_cons,matches_assign htfresh,matches_assign htfresh,Bool.and_eq_true,
      Bool.and_eq_true,ht.holds_cmp,ht.holds_eq]
    tauto

/-! ## Tokens -/

/-- The entry of a memory by a term. -/
def wireOf (d : MemoryDocument) (t : MemorySortTerm) : WireEntry :=
  ⟨t.field,match cursorOf d t with
    | .string s => s
    | .time nanos => Rfc3339.format nanos⟩

private theorem Sortable.sortValue (h : Sortable t) :
    d.sortValue t.field = some (cursorOf d t) := by
  rcases h.row with ⟨hfield,_,_⟩ | ⟨hfield,_,_⟩
  · simp [hfield,cursorOf,MemoryDocument.sortValue]
  · simp [hfield,cursorOf,MemoryDocument.sortValue]

private theorem Sortable.cursorEntry (h : Sortable t) :
    t.cursorEntry (cursorOf d t) = some ⟨wireOf d t,cursorOf d t⟩ := by
  rcases h.row with ⟨hfield,_,hkind⟩ | ⟨hfield,_,hkind⟩
  · simp [hfield,hkind,cursorOf,wireOf,MemorySortTerm.cursorEntry]
  · simp [hfield,hkind,cursorOf,wireOf,MemorySortTerm.cursorEntry]

private theorem format_ne_empty (nanos : Int) : Rfc3339.format nanos ≠ "" := by
  intro h
  have hlist := congrArg String.toList h
  rw [Rfc3339.format,String.toList_ofList] at hlist
  simp at hlist

private theorem wireOf_value_ne (d : MemoryDocument) (t : MemorySortTerm) :
    (wireOf d t).value ≠ "" := by
  unfold wireOf cursorOf
  split
  · rename_i s heq
    split at heq
    · cases heq
    · cases heq
      exact d.named
  · exact format_ne_empty _

private theorem Sortable.cursorValue (h : Sortable t)
    (hyear : t.field = "update_time" → 0 ≤ d.updateYear ∧ d.updateYear ≤ 9999) :
    t.cursorValue (wireOf d t).value = .ok (cursorOf d t) := by
  rcases h.row with ⟨hfield,_,hkind⟩ | ⟨hfield,_,hkind⟩
  · simp [hfield,hkind,cursorOf,wireOf,MemorySortTerm.cursorValue]
  · obtain ⟨hlow,hhigh⟩ := hyear hfield
    simp [hfield,hkind,cursorOf,wireOf,MemorySortTerm.cursorValue,
      Rfc3339.parse_format hlow hhigh]

private theorem memoryNextPageToken_eq (hkey : FinalKey sort) : memoryNextPageToken d sort =
    some (.object (memorySortContext sort) (some (sort.map fun t => some (wireOf d t)))) := by
  have hvalues : (sort.mapM fun t => d.sortValue t.field) = some (sort.map (cursorOf d)) :=
    mapM_some fun t ht => (hkey.sortable t ht).sortValue
  have hentries : (sort.zip (sort.map (cursorOf d))).mapM
      (fun p : MemorySortTerm × CursorValue => p.1.cursorEntry p.2) =
        some (sort.map fun t => ⟨wireOf d t,cursorOf d t⟩) := by
    rw [← List.map_prod_left_eq_zip,List.mapM_map]
    exact mapM_some fun t ht => (hkey.sortable t ht).cursorEntry
  have hempty : (sort.map fun t => (⟨wireOf d t,cursorOf d t⟩ : MemoryCursorEntry)) ≠ [] := by
    simpa using hkey.ne_nil
  rw [memoryNextPageToken,hvalues,Option.bind_some,memoryPageTokenOf,
    if_neg (not_not.mpr (List.length_map _)),hentries,Option.map_some,encodeMemoryPageToken,
    if_neg (not_or.mpr ⟨by simpa using hempty,hkey.context_ne_empty⟩),List.map_map]
  rfl

private theorem checkEntries_wires (hsort : ∀ t ∈ sort, Sortable t)
    (hyear : ∀ t ∈ sort, t.field = "update_time" → 0 ≤ d.updateYear ∧ d.updateYear ≤ 9999)
    (i : Nat) : checkEntries i sort (sort.map fun t => some (wireOf d t)) =
      .ok (sort.map fun t => ⟨wireOf d t,cursorOf d t⟩) := by
  induction sort generalizing i with
  | nil => rfl
  | cons t sort ih =>
    obtain ⟨ht,hsort⟩ := List.forall_mem_cons.mp hsort
    obtain ⟨htyear,hyear⟩ := List.forall_mem_cons.mp hyear
    have hfield : (wireOf d t).field = t.field := rfl
    have hnamed : t.field ≠ "" := by
      rcases ht.row with ⟨heq,_,_⟩ | ⟨heq,_,_⟩ <;> rw [heq] <;> decide
    rw [List.map_cons,checkEntries]
    simp only [hfield,if_neg hnamed,if_neg (wireOf_value_ne d t),ne_eq,not_true_eq_false,if_false,
      ht.cursorValue htyear,ih hsort hyear]
    rfl

/-- The cursor that a token behind a memory decodes to. -/
def cursorBehind (sort : List MemorySortTerm) (d : MemoryDocument) : MemoryPageToken :=
  ⟨memorySortContext sort,sort.map fun t => ⟨wireOf d t,cursorOf d t⟩⟩

private theorem decode_issued (hkey : FinalKey sort)
    (hyear : ∀ t ∈ sort, t.field = "update_time" → 0 ≤ d.updateYear ∧ d.updateYear ≤ 9999) :
    decodeMemoryPageToken (memoryNextPageToken d sort) sort = .ok (cursorBehind sort d) := by
  have hlength : ¬(sort.map fun t => some (wireOf d t)).length = 0 := by
    simpa using hkey.ne_nil
  rw [memoryNextPageToken_eq hkey,decodeMemoryPageToken]
  simp only [ne_eq,not_true_eq_false,if_false]
  rw [newMemoryPageToken,if_neg hlength,if_neg (not_not.mpr (List.length_map _)),
    checkEntries_wires hkey.sortable hyear]
  rfl

private theorem decode_other (hkey : FinalKey sort) (hkey' : FinalKey sort') (hne : sort' ≠ sort) :
    ∃ err, decodeMemoryPageToken (memoryNextPageToken d sort) sort' = .error err := by
  have hcontext : memorySortContext sort ≠ memorySortContext sort' :=
    fun heq => hne (hkey.context_inj hkey' heq).symm
  rw [memoryNextPageToken_eq hkey,decodeMemoryPageToken]
  simp only [if_pos hcontext]
  exact ⟨_,rfl⟩

/-! ## Pages -/

private theorem find_start (hkey : FinalKey sort) (limit : Nat) :
    find docs template presetID none (memorySortDocument sort) limit =
      (Seek.sorted (requestedOrder sort) (memoriesOf docs template presetID)).take limit := by
  rw [find,sortDocument_order hkey.sortable,memoriesOf]
  simp

/-- Behind a memory of the sorted list, the rest of the list is found. -/
theorem find_behind (hkey : FinalKey sort) {n limit : Nat}
    (hids : ((memoriesOf docs template presetID).map fun d => d.memoryID).Nodup)
    (hc : (Seek.sorted (requestedOrder sort) (memoriesOf docs template presetID))[n]? = some c) :
    find docs template presetID (some (memorySeekClauses sort (cursorBehind sort c)))
      (memorySortDocument sort) limit =
      ((Seek.sorted (requestedOrder sort) (memoriesOf docs template presetID)).drop (n + 1)).take
        limit := by
  have hmongo : (sort.map fun t => t.mongoField) = sort.map fun t => t.field := by
    apply List.map_congr_left
    intro t ht
    rcases (hkey.sortable t ht).row with ⟨hfield,heq,_⟩ | ⟨hfield,heq,_⟩ <;> rw [hfield,heq]
  have hclauses : memorySeekClauses sort (cursorBehind sort c) =
      seekFrom (sort.map fun t => (t,cursorOf c t)) [] := by
    rw [memorySeekClauses,cursorBehind,List.map_map,List.map_prod_left_eq_zip]
    rfl
  have hmatch : ∀ d : MemoryDocument, ((memorySeekClauses sort (cursorBehind sort c)).any
      fun clause => clause.matches d) = decide (requestedOrder sort c d = .lt) := by
    intro d
    have hladder : (seekFrom (sort.map fun t => (t,cursorOf c t)) []).any
        (fun clause => clause.matches d) = true ↔
          Clause.matches [] d = true ∧ Seek.Beyond (sort.map MemorySortTerm.order) c d :=
      seekFrom_matches hkey.sortable (hmongo ▸ hkey.nodup) (by simp)
    rw [hclauses,Bool.eq_iff_iff,hladder,Seek.beyond_iff,decide_eq_true_iff]
    exact and_iff_right rfl
  rw [find,sortDocument_order hkey.sortable,
    ← Seek.sorted_behind (distinct_of_ids hkey hids) hc,memoriesOf,List.filter_filter]
  congr 2
  apply List.filter_congr
  intro d _
  simp only [hmatch,Option.all_some,Bool.decide_and,Bool.decide_coe]
  rw [← Bool.and_assoc,Bool.and_comm]

private theorem listMemoriesPage_eq {cursor : Option MemoryPageToken} {pageSize : Nat}
    {rest : List MemoryDocument}
    (hfound : find docs template presetID (cursor.map (memorySeekClauses sort))
      (memorySortDocument sort) (pageSize + 1) = rest.take (pageSize + 1)) :
    listMemoriesPage docs template presetID sort cursor pageSize =
      if pageSize < rest.length then
        (rest.take pageSize,
          (rest.take (pageSize + 1))[pageSize - 1]?.bind fun doc => memoryNextPageToken doc sort)
      else (rest,none) := by
  unfold listMemoriesPage
  rw [hfound]
  by_cases hmore : pageSize < rest.length
  · have hlen : pageSize < (rest.take (pageSize + 1)).length := by
      rw [List.length_take]
      omega
    simp only [if_pos hmore,if_pos hlen,List.take_take]
    rw [Nat.min_eq_left (Nat.le_succ pageSize)]
  · have hall : rest.take (pageSize + 1) = rest := List.take_of_length_le (by omega)
    simp only [hall,if_neg hmore]

/-- The tokens that resume at a position of the list. -/
def ResumesAt (sort : List MemorySortTerm) (all : List MemoryDocument) :
    Option MemoryToken → Nat → Prop
  | none,n => n = 0
  | some token,n => ∃ m c, n = m + 1 ∧ all[m]? = some c ∧
    memoryNextPageToken c sort = some token

variable {pageSize : Int}

private theorem memoryPageSize_eq (hlow : 1 ≤ pageSize)
    (hhigh : pageSize ≤ maxListMemoriesPageSize) :
    memoryPageSize pageSize = .ok pageSize.toNat := by
  have hpos : ¬pageSize ≤ 0 := by omega
  have hmax : ¬(maxListMemoriesPageSize : Int) < pageSize := by omega
  unfold memoryPageSize
  simp only [if_neg hpos,if_neg hmax]

private theorem listMemories_eq (htemplate : template ∈ knownTemplateIDs)
    (hparse : parseMemoryOrderBy orderBy = .ok sort) (hlow : 1 ≤ pageSize)
    (hhigh : pageSize ≤ maxListMemoriesPageSize) (token : Option MemoryToken) :
    listMemories docs template presetID orderBy pageSize token =
      match token with
      | none => .ok (listMemoriesPage docs template presetID sort none pageSize.toNat)
      | some token => (decodeMemoryPageToken (some token) sort).map fun cursor =>
          listMemoriesPage docs template presetID sort (some cursor) pageSize.toNat := by
  unfold listMemories
  rw [validateTemplateName,if_pos htemplate,memoryPageSize_eq hlow hhigh]
  cases token with
  | none => simp only [hparse]; rfl
  | some token =>
    simp only [hparse]
    cases decodeMemoryPageToken (some token) sort <;> rfl

/-- The call at a position answers with the page of a cursor that finds the rest of the list. -/
theorem listMemories_resumes (htemplate : template ∈ knownTemplateIDs)
    (hparse : parseMemoryOrderBy orderBy = .ok sort) (hlow : 1 ≤ pageSize)
    (hhigh : pageSize ≤ maxListMemoriesPageSize)
    (hids : ((memoriesOf docs template presetID).map fun d => d.memoryID).Nodup)
    (hyears : ∀ d ∈ memoriesOf docs template presetID, ∀ t ∈ sort, t.field = "update_time" →
      0 ≤ d.updateYear ∧ d.updateYear ≤ 9999) {token : Option MemoryToken} {n : Nat}
    (hat : ResumesAt sort
      (Seek.sorted (requestedOrder sort) (memoriesOf docs template presetID)) token n) :
    ∃ cursor : Option MemoryPageToken,
      listMemories docs template presetID orderBy pageSize token =
        .ok (listMemoriesPage docs template presetID sort cursor pageSize.toNat) ∧
      ∀ limit, find docs template presetID (cursor.map (memorySeekClauses sort))
        (memorySortDocument sort) limit =
        ((Seek.sorted (requestedOrder sort) (memoriesOf docs template presetID)).drop n).take
          limit := by
  have hkey := parseMemoryOrderBy_finalKey hparse
  cases token with
  | none =>
    obtain rfl : n = 0 := hat
    exact ⟨none,listMemories_eq htemplate hparse hlow hhigh none,fun limit => find_start hkey limit⟩
  | some token =>
    obtain ⟨m,c,rfl,hc,htoken⟩ := hat
    have hmem : c ∈ memoriesOf docs template presetID :=
      (Seek.perm_sorted _).mem_iff.mp (List.mem_of_getElem? hc)
    refine ⟨some (cursorBehind sort c),?_,fun limit => find_behind hkey hids hc⟩
    rw [listMemories_eq htemplate hparse hlow hhigh]
    simp only [← htoken,decode_issued hkey (hyears c hmem)]
    rfl

private theorem listMemories_slices (htemplate : template ∈ knownTemplateIDs)
    (hparse : parseMemoryOrderBy orderBy = .ok sort) (hlow : 1 ≤ pageSize)
    (hhigh : pageSize ≤ maxListMemoriesPageSize)
    (hids : ((memoriesOf docs template presetID).map fun d => d.memoryID).Nodup)
    (hyears : ∀ d ∈ memoriesOf docs template presetID, ∀ t ∈ sort, t.field = "update_time" →
      0 ≤ d.updateYear ∧ d.updateYear ≤ 9999) :
    Pages.Slices (listMemories docs template presetID orderBy pageSize)
      (Seek.sorted (requestedOrder sort) (memoriesOf docs template presetID))
      (ResumesAt sort (Seek.sorted (requestedOrder sort) (memoriesOf docs template presetID))) := by
  constructor
  intro token n hat hn
  obtain ⟨cursor,hcall,hfind⟩ :=
    listMemories_resumes htemplate hparse hlow hhigh hids hyears hat
  generalize Seek.sorted (requestedOrder sort) (memoriesOf docs template presetID) = all at *
  rw [hcall,listMemoriesPage_eq (hfind _)]
  by_cases hmore : pageSize.toNat < (all.drop n).length
  · have hlen : n + pageSize.toNat < all.length := by
      rw [List.length_drop] at hmore
      omega
    obtain ⟨c,hc⟩ : ∃ c, all[n + (pageSize.toNat - 1)]? = some c :=
      ⟨_,List.getElem?_eq_getElem (by omega)⟩
    obtain ⟨next,htoken⟩ : ∃ next, memoryNextPageToken c sort = some next :=
      ⟨_,memoryNextPageToken_eq (parseMemoryOrderBy_finalKey hparse)⟩
    have hlast : ((all.drop n).take (pageSize.toNat + 1))[pageSize.toNat - 1]? = some c := by
      rw [List.getElem?_take_of_lt (by omega),List.getElem?_drop,hc]
    refine Or.inr ⟨pageSize.toNat,next,by omega,hlen,?_,?_⟩
    · exact ⟨n + (pageSize.toNat - 1),c,by omega,hc,htoken⟩
    · rw [if_pos hmore,hlast,Option.bind_some,htoken]
  · rw [if_neg hmore]
    exact Or.inl rfl

/-- A token is answered only behind a memory of the preset. -/
theorem listMemories_issued (htemplate : template ∈ knownTemplateIDs)
    (hparse : parseMemoryOrderBy orderBy = .ok sort) (hlow : 1 ≤ pageSize)
    (hhigh : pageSize ≤ maxListMemoriesPageSize) {token : Option MemoryToken}
    {page : List MemoryDocument} {next : MemoryToken}
    (h : listMemories docs template presetID orderBy pageSize token = .ok (page,some next)) :
    ∃ c ∈ memoriesOf docs template presetID, memoryNextPageToken c sort = some next := by
  obtain ⟨cursor,hpage⟩ : ∃ cursor,
      listMemoriesPage docs template presetID sort cursor pageSize.toNat = (page,some next) := by
    rw [listMemories_eq htemplate hparse hlow hhigh] at h
    cases token with
    | none => exact ⟨none,Except.ok.inj h⟩
    | some token =>
      dsimp only at h
      cases hdecode : decodeMemoryPageToken (some token) sort with
      | error err =>
        rw [hdecode] at h
        cases h
      | ok cursor =>
        rw [hdecode] at h
        exact ⟨some cursor,Except.ok.inj h⟩
  unfold listMemoriesPage at hpage
  dsimp only at hpage
  split at hpage
  · obtain ⟨c,hc,htoken⟩ := Option.bind_eq_some_iff.mp (Prod.mk.inj hpage).2
    refine ⟨c,?_,htoken⟩
    have hmem := List.mem_of_mem_take (List.mem_of_getElem? hc)
    rw [(Seek.perm_sorted _).mem_iff,List.mem_filter,decide_eq_true_iff] at hmem
    rw [memoriesOf,List.mem_filter,decide_eq_true_iff]
    exact ⟨hmem.1,hmem.2.1,hmem.2.2.1⟩
  · cases (Prod.mk.inj hpage).2

/-- The walk through the pages lists every memory of the preset once, in the requested order, and
a token is good for just the orders of its final key. -/
theorem listing_is_partition (docs : List MemoryDocument) (template presetID orderBy : String)
    (sort : List MemorySortTerm) (pageSize : Int) (htemplate : template ∈ knownTemplateIDs)
    (hparse : parseMemoryOrderBy orderBy = .ok sort) (hlow : 1 ≤ pageSize)
    (hhigh : pageSize ≤ maxListMemoriesPageSize)
    (hids : ((memoriesOf docs template presetID).map fun d => d.memoryID).Nodup)
    (hyears : "update_time" ∈ sort.map (fun t => t.field) →
      ∀ d ∈ memoriesOf docs template presetID, 0 ≤ d.updateYear ∧ d.updateYear ≤ 9999) :
    (∃ pages, Pages.Walk (listMemories docs template presetID orderBy pageSize) none pages ∧
      pages.flatten.Perm (memoriesOf docs template presetID) ∧
      pages.flatten.Pairwise fun d e => requestedOrder sort d e = .lt) ∧
    ∀ token page next,
      listMemories docs template presetID orderBy pageSize token = .ok (page,some next) →
      ∀ (orderBy' : String) (pageSize' : Int), 1 ≤ pageSize' → pageSize' ≤ maxListMemoriesPageSize →
        ((∃ result, listMemories docs template presetID orderBy' pageSize' (some next) =
          .ok result) ↔ parseMemoryOrderBy orderBy' = .ok sort) := by
  have hkey := parseMemoryOrderBy_finalKey hparse
  have hyears' : ∀ d ∈ memoriesOf docs template presetID, ∀ t ∈ sort, t.field = "update_time" →
      0 ≤ d.updateYear ∧ d.updateYear ≤ 9999 := by
    intro d hd t ht hfield
    exact hyears (List.mem_map.mpr ⟨t,ht,hfield⟩) d hd
  constructor
  · have hslices := listMemories_slices htemplate hparse hlow hhigh hids hyears'
    have hstart : ResumesAt sort
        (Seek.sorted (requestedOrder sort) (memoriesOf docs template presetID)) none 0 := rfl
    obtain ⟨pages,hwalk,hpages⟩ := hslices.walk hstart (Nat.zero_le _)
    rw [List.drop_zero] at hpages
    refine ⟨pages,hwalk,?_,?_⟩
    · rw [hpages]
      exact Seek.perm_sorted _
    · rw [hpages]
      exact (distinct_of_ids hkey hids).sorted
  · intro token page next hcall orderBy' pageSize' hlow' hhigh'
    obtain ⟨c,hc,hnext⟩ := listMemories_issued htemplate hparse hlow hhigh hcall
    constructor
    · intro haccepted
      obtain ⟨result,haccepted⟩ := haccepted
      cases hparse' : parseMemoryOrderBy orderBy' with
      | error message =>
        unfold listMemories at haccepted
        rw [validateTemplateName,if_pos htemplate,memoryPageSize_eq hlow' hhigh'] at haccepted
        simp only [hparse'] at haccepted
        cases haccepted
      | ok sort' =>
        by_contra hne
        have hne : sort' ≠ sort := fun heq => hne (congrArg Except.ok heq)
        obtain ⟨err,hdecode⟩ :=
          decode_other (d := c) hkey (parseMemoryOrderBy_finalKey hparse') hne
        rw [listMemories_eq htemplate hparse' hlow' hhigh',← hnext] at haccepted
        simp only [hnext] at haccepted hdecode
        rw [hdecode] at haccepted
        cases haccepted
    · intro hparse'
      rw [listMemories_eq htemplate hparse' hlow' hhigh']
      have hdecode := decode_issued hkey (hyears' c hc)
      rw [hnext] at hdecode
      simp only [hdecode]
      exact ⟨_,rfl⟩

def tiedMemories : List MemoryDocument :=
  [⟨"saolei","p","a","",0,1754006400123,by decide⟩,
    ⟨"saolei","p","b","",0,1754006400123,by decide⟩]

theorem listing_is_partition_demo :
    ∃ pages, Pages.Walk (listMemories tiedMemories "saolei" "p" "update_time desc" 1) none pages ∧
      pages.flatten.Perm (memoriesOf tiedMemories "saolei" "p") ∧
      pages.flatten.Pairwise fun d e => requestedOrder
        [⟨"update_time","update_time",true,.time⟩,⟨"memory_id","memory_id",false,.string⟩] d e =
          .lt :=
  (listing_is_partition tiedMemories "saolei" "p" "update_time desc"
    [⟨"update_time","update_time",true,.time⟩,⟨"memory_id","memory_id",false,.string⟩] 1
    (by decide) (by decide) (by decide) (by decide) (by decide)
    (by decide)).1

/-- Two memories of the first instant of the year 10000. -/
def lateMemories : List MemoryDocument :=
  [⟨"saolei","p","a","",0,253402300800000,by decide⟩,
    ⟨"saolei","p","b","",0,253402300800000,by decide⟩]

/-- The text of a five-digit year is no RFC 3339, so the first token is refused. -/
theorem late_update_stops_the_walk :
    (∃ sort, parseMemoryOrderBy "update_time" = .ok sort) ∧
      (lateMemories.map fun d => d.memoryID).Nodup ∧
      ¬∃ pages, Pages.Walk (listMemories lateMemories "saolei" "p" "update_time" 1) none pages := by
  have hfirst : listMemories lateMemories "saolei" "p" "update_time" 1 none =
      .ok (lateMemories.take 1,some (.object "update_time,memory_id"
        (some [some ⟨"update_time","10000-01-01T00:00:00Z"⟩,some ⟨"memory_id","a"⟩]))) := by
    decide
  have hsecond : (listMemories lateMemories "saolei" "p" "update_time" 1
      (some (.object "update_time,memory_id"
        (some [some ⟨"update_time","10000-01-01T00:00:00Z"⟩,some ⟨"memory_id","a"⟩])))).toOption =
      none := by
    decide
  refine ⟨⟨[⟨"update_time","update_time",false,.time⟩,⟨"memory_id","memory_id",false,.string⟩],
    by decide⟩,by decide,?_⟩
  intro hwalk
  obtain ⟨pages,hwalk⟩ := hwalk
  obtain ⟨rest,hrest⟩ := hwalk.next hfirst
  obtain ⟨page,next,hcall⟩ := hrest.ok
  rw [hcall] at hsecond
  cases hsecond

end Dominion.Memory
