import Dominion.Memory.WikiOperations
import Dominion.Memory.WikiUpdate

/-! # What a search finds

A search returns exactly the wikis whose normalized title contains the normalized query: the
bigram filter drops none of them, and the pages together hold all. -/
namespace Dominion.Memory

open Dominion.Framework

/-! ## Bigrams -/

private theorem mem_zip_drop_iff {α : Type} {l : List α} {x y : α} :
    (x,y) ∈ l.zip (l.drop 1) ↔ [x,y] <:+: l := by
  induction l with
  | nil => simp
  | cons a l ih =>
    cases l with
    | nil =>
      simp only [List.drop_succ_cons,List.drop_nil,List.zip_nil_right,List.not_mem_nil,false_iff]
      intro h
      have hlen := h.length_le
      simp at hlen
    | cons b l =>
      have hzip : (a :: b :: l).zip ((a :: b :: l).drop 1) =
          (a,b) :: (b :: l).zip ((b :: l).drop 1) := rfl
      have hstart : (x,y) = (a,b) ↔ [x,y] <+: a :: b :: l := by simp
      rw [hzip,List.mem_cons,ih,hstart]
      exact List.infix_cons_iff.symm

private theorem titleBigrams_subset {query text : String} (h : query.toList <:+: text.toList) :
    ∀ gram ∈ titleBigrams query, gram ∈ titleBigrams text := by
  intro gram hgram
  simp only [titleBigrams,List.mem_eraseDups,List.mem_map,Prod.exists] at hgram ⊢
  obtain ⟨x,y,hxy,rfl⟩ := hgram
  exact ⟨x,y,mem_zip_drop_iff.mpr ((mem_zip_drop_iff.mp hxy).trans h),rfl⟩

/-! ## The documents of a template -/

/-- The wikis of a template whose normalized title contains the normalized query. -/
def hitsOf (go : String → String) (docs : Wikis) (template query : String) : List WikiDocument :=
  docs.filter fun d => d.template = template ∧
    (normalizeTitle go query).toList <:+: (normalizeTitle go d.title).toList

/-- The number of entries that a page holds. -/
def pageLimit (pageSize : Int) : Nat :=
  if pageSize = 0 then defaultWikiPageSize else min pageSize.toNat maxWikiPageSize

section search

variable {js go : String → String} {docs : Wikis} {template query : String} {pageSize : Int}
  {d e : WikiDocument}

/-- The stored documents of a template: no two share a unique key, and their normalized titles and
bigrams are those of their titles. -/
structure Indexed (go : String → String) (template : String) (docs : Wikis) : Prop where
  ids : (docs.map WikiDocument.id).Nodup
  apart : docs.Pairwise fun d e => ¬d.Clashes e
  norm : ∀ d ∈ docs, d.template = template → d.titleNorm = normalizeTitle go d.title ∧
    d.titleGrams = titleBigrams (normalizeTitle go d.title)

/-- The documents that `wiki_write` keeps in a template. -/
structure Kept (js go : String → String) (template : String) (docs : Wikis) : Prop where
  ids : (docs.map WikiDocument.id).Nodup
  apart : docs.Pairwise fun d e => ¬d.Clashes e
  wikiID : ∀ d ∈ docs, d.template = template → d.wikiID = generateWikiId (normalizeWikiTitle js d.title)
  norm : ∀ d ∈ docs, d.template = template → d.titleNorm = normalizeTitle go d.title ∧
    d.titleGrams = titleBigrams (normalizeTitle go d.title)

private theorem Kept.indexed (h : Kept js go template docs) : Indexed go template docs :=
  ⟨h.ids,h.apart,h.norm⟩

theorem Kept.unique (h : Kept js go template docs) (hd : d ∈ docs) (he : e ∈ docs)
    (htd : d.template = template) (hte : e.template = template)
    (hn : normalizeWikiTitle js d.title = normalizeWikiTitle js e.title) : d = e := by
  refine eq_of_clashes h.apart hd he ⟨htd.trans hte.symm,Or.inl ?_⟩
  rw [h.wikiID d hd htd,h.wikiID e he hte,hn]

theorem Kept.eq_of_wikiID (h : Kept js go template docs) (hd : d ∈ docs) (he : e ∈ docs)
    (htd : d.template = template) (hte : e.template = template) (hid : d.wikiID = e.wikiID) : d = e :=
  eq_of_clashes h.apart hd he ⟨htd.trans hte.symm,Or.inl hid⟩

private theorem wikiSearchMatchRank_isSome {query text : String} :
    (wikiSearchMatchRank query text).isSome ↔ query.toList <:+: text.toList := by
  unfold wikiSearchMatchRank contains
  by_cases h : query.toList <:+: text.toList
  · simp only [h,decide_true,if_true,iff_true]
    split
    · rfl
    · split <;> rfl
  · simp [h]

/-- The verified matches are the documents whose normalized title contains the query. -/
theorem Indexed.mem_searchMatches (h : Indexed go template docs) {query : String} :
    (∃ rank, (d,rank) ∈ WikiHandler.searchMatches go docs template query) ↔
      d ∈ docs ∧ d.template = template ∧ query.toList <:+: (normalizeTitle go d.title).toList := by
  simp only [WikiHandler.searchMatches,List.mem_insertionSort,List.mem_filterMap,Option.map_eq_some_iff,
    Prod.mk.injEq]
  constructor
  · rintro ⟨rank,e,hcand,r,hrank,rfl,rfl⟩
    have hmem := List.mem_filter.mp hcand
    have htemplate : e.template = template := by
      have hcond := hmem.2
      simp only [decide_eq_true_eq] at hcond
      exact hcond.1
    exact ⟨hmem.1,htemplate,wikiSearchMatchRank_isSome.mp (by rw [hrank]; rfl)⟩
  · rintro ⟨hd,htemplate,hwithin⟩
    obtain ⟨rank,hrank⟩ := Option.isSome_iff_exists.mp (wikiSearchMatchRank_isSome.mpr hwithin)
    refine ⟨rank,d,List.mem_filter.mpr ⟨hd,?_⟩,rank,hrank,rfl,rfl⟩
    obtain ⟨hnorm,hgrams⟩ := h.norm d hd htemplate
    simp only [decide_eq_true_eq]
    refine ⟨htemplate,?_⟩
    split
    · rw [hgrams,List.all_eq_true]
      intro gram hgram
      simpa using titleBigrams_subset hwithin gram hgram
    · rw [hnorm]
      simpa [contains] using hwithin

private theorem Kept.mem_searchMatches (h : Kept js go template docs) {query : String} :
    (∃ rank, (d,rank) ∈ WikiHandler.searchMatches go docs template query) ↔
      d ∈ docs ∧ d.template = template ∧ query.toList <:+: (normalizeTitle go d.title).toList :=
  h.indexed.mem_searchMatches

private theorem Indexed.nodup (h : Indexed go template docs) : docs.Nodup :=
  h.apart.imp fun {d e} hne heq => by
    subst heq
    exact hne ⟨rfl,Or.inl rfl⟩

theorem Indexed.found_nodup (h : Indexed go template docs) (query : String) :
    ((WikiHandler.searchMatches go docs template query).map Prod.fst).Nodup := by
  unfold WikiHandler.searchMatches
  apply ((List.perm_insertionSort _ _).map Prod.fst).nodup_iff.mpr
  rw [List.map_filterMap]
  have hfilter : ∀ l : List WikiDocument, (l.filterMap fun d => Option.map Prod.fst
      ((wikiSearchMatchRank query (normalizeTitle go d.title)).map fun rank => (d,rank))).Sublist
        l := by
    intro l
    induction l with
    | nil => exact List.Sublist.refl _
    | cons d l ih =>
      cases hrank : wikiSearchMatchRank query (normalizeTitle go d.title) with
      | none =>
        rw [List.filterMap_cons_none (by simp [hrank])]
        exact ih.cons d
      | some rank =>
        rw [List.filterMap_cons_some (b := d) (by simp [hrank])]
        exact ih.cons_cons d
  exact h.nodup.sublist ((hfilter _).trans List.filter_sublist)

theorem Indexed.mem_found (h : Indexed go template docs) :
    d ∈ (WikiHandler.searchMatches go docs template (normalizeTitle go query)).map Prod.fst ↔
      d ∈ hitsOf go docs template query := by
  have hmem := @Indexed.mem_searchMatches _ _ _ d h (normalizeTitle go query)
  simp only [hitsOf,List.mem_filter,decide_eq_true_eq,List.mem_map,Prod.exists,exists_and_right,
    exists_eq_right]
  exact hmem

theorem Indexed.length_found (h : Indexed go template docs) (query : String) :
    (WikiHandler.searchMatches go docs template (normalizeTitle go query)).length =
      (hitsOf go docs template query).length := by
  have hperm := (List.perm_ext_iff_of_nodup (h.found_nodup (normalizeTitle go query))
    (h.nodup.sublist List.filter_sublist)).mpr fun d => h.mem_found (d := d)
  have hlength := hperm.length_eq
  rw [List.length_map] at hlength
  exact hlength

/-! ## Pages -/

theorem wikiPageSize_eq (h : 0 ≤ pageSize) : wikiPageSize pageSize = .ok (pageLimit pageSize) := by
  unfold wikiPageSize pageLimit
  have hnot : ¬pageSize < 0 := by omega
  rw [if_neg hnot]
  by_cases hzero : pageSize = 0
  · rw [if_pos hzero,if_pos hzero]
  · rw [if_neg hzero,if_neg hzero]
    split
    · congr 1
      omega
    · congr 1
      omega

theorem pageLimit_pos (h : 0 ≤ pageSize) : 0 < pageLimit pageSize := by
  unfold pageLimit defaultWikiPageSize maxWikiPageSize
  split <;> omega

theorem searchWikis_eq (htemplate : template ∈ knownTemplateIDs) (hsize : 0 ≤ pageSize)
    (hquery : normalizeTitle go query ≠ "") {token : Option WikiToken} {n : Nat}
    (hstart : WikiHandler.startOf go (normalizeTitle go query) token = .ok n) :
    let found := WikiHandler.searchMatches go docs template (normalizeTitle go query)
    n ≤ found.length →
    WikiHandler.searchWikis go docs template query pageSize token =
      if n + pageLimit pageSize < found.length then
        .ok (((found.drop n).take (pageLimit pageSize)).map (summaryOf template),
          some (.cursor ⟨normalizeTitle go query,(n + pageLimit pageSize : Nat)⟩))
      else .ok ((found.drop n).map (summaryOf template),none) := by
  intro found hn
  have hpos := pageLimit_pos hsize
  have hvalid : validateTemplateName template = .ok () := if_pos htemplate
  have hmin : min (n : Int).toNat found.length = n := by simpa using hn
  unfold WikiHandler.searchWikis
  rw [hvalid,wikiPageSize_eq hsize]
  show (if normalizeTitle go query = "" then _ else _) = _
  rw [if_neg hquery,hstart]
  show Except.ok (_,_) = _
  change min (n : Int).toNat found.length = n at hmin
  rw [hmin]
  by_cases hmore : n + pageLimit pageSize < found.length
  · have hlast : min (n + pageLimit pageSize) found.length = n + pageLimit pageSize := by omega
    have htoken : encodeWikiSearchPageToken
        ⟨normalizeTitle go query,(n + pageLimit pageSize : Nat)⟩ =
        some (.cursor ⟨normalizeTitle go query,(n + pageLimit pageSize : Nat)⟩) := by
      apply if_neg
      intro hbad
      rcases hbad with hbad | hbad
      · exact hquery hbad
      · have hle : ((n + pageLimit pageSize : Nat) : Int) ≤ 0 := hbad
        omega
    rw [if_pos hmore,hlast,if_pos hmore,htoken,List.drop_take,Nat.add_sub_cancel_left]
  · have hlast : min (n + pageLimit pageSize) found.length = found.length := by omega
    rw [if_neg hmore,hlast,if_neg (lt_irrefl _),List.take_length]

/-- A token is read back when its query is normalized already. -/
theorem startOf_cursor {n : Nat} (hn : 0 < n) (hquery : normalizeTitle go query ≠ "")
    (hstable : normalizeTitle go (normalizeTitle go query) = normalizeTitle go query) :
    WikiHandler.startOf go (normalizeTitle go query)
      (some (.cursor ⟨normalizeTitle go query,n⟩)) = .ok (n : Int) := by
  have hpos : n ≠ 0 := by omega
  simp [WikiHandler.startOf,decodeWikiSearchPageToken,hstable,hquery,hpos,Except.map]

theorem startOf_unstable (n : Int)
    (h : normalizeTitle go (normalizeTitle go query) ≠ normalizeTitle go query) :
    ∃ error, WikiHandler.startOf go (normalizeTitle go query)
      (some (.cursor ⟨normalizeTitle go query,n⟩)) = .error error := by
  unfold WikiHandler.startOf decodeWikiSearchPageToken
  dsimp only
  by_cases hempty : normalizeTitle go (normalizeTitle go query) = ""
  · rw [if_pos hempty]
    exact ⟨_,rfl⟩
  · rw [if_neg hempty,if_pos (Ne.symm h)]
    exact ⟨_,rfl⟩

/-- Summaries that a resource name tells apart. -/
def Named (summaries : List WikiSummary) : Prop :=
  ∀ v ∈ summaries, ∀ w ∈ summaries, v.name = w.name → v = w

/-- Dropping the entries whose name was seen loses none of them. -/
theorem mem_foldl_page {all page hits : List WikiSummary} (hall : Named all)
    (hpage : ∀ w ∈ page, w ∈ all) (hhits : ∀ w ∈ hits, w ∈ all) {w : WikiSummary} :
    w ∈ page.foldl
      (fun hits wiki => if hits.any fun h => h.name = wiki.name then hits else hits ++ [wiki]) hits ↔
      w ∈ hits ∨ w ∈ page := by
  induction page generalizing hits with
  | nil => simp
  | cons v page ih =>
    have hv : v ∈ all := hpage v (by simp)
    have hrest : ∀ w ∈ page, w ∈ all := fun w hw => hpage w (by simp [hw])
    rw [List.foldl_cons]
    by_cases hseen : (hits.any fun h => decide (h.name = v.name)) = true
    · obtain ⟨u,hu,hname⟩ := List.any_eq_true.mp hseen
      have huv : u = v := hall u (hhits u hu) v hv (by simpa using hname)
      rw [if_pos hseen,ih hrest hhits,List.mem_cons]
      constructor
      · exact Or.imp_right Or.inr
      · rintro (hw | rfl | hw)
        · exact Or.inl hw
        · exact Or.inl (huv ▸ hu)
        · exact Or.inr hw
    · have hhits' : ∀ w ∈ hits ++ [v], w ∈ all := by
        intro w hw
        rcases List.mem_append.mp hw with hw | hw
        · exact hhits w hw
        · exact List.mem_singleton.mp hw ▸ hv
      rw [if_neg hseen,ih hrest hhits',List.mem_append,List.mem_singleton,List.mem_cons,or_assoc]

/-- Every page of a search can be had: its query is normalized for good, or the first page of the
client holds all hits. -/
def Walks (go : String → String) (docs : Wikis) (template query : String) : Prop :=
  normalizeTitle go (normalizeTitle go query) = normalizeTitle go query ∨
    (hitsOf go docs template query).length ≤ wikiSearchPageSize

private theorem pageLimit_client : pageLimit wikiSearchPageSize = wikiSearchPageSize := by decide

/-- The pages from a token on hold the matches from there on. -/
theorem mem_searchFrom (htemplate : template ∈ knownTemplateIDs)
    (hquery : normalizeTitle go query ≠ "") (fuel n : Nat) (token : Option WikiToken)
    (hits : List WikiSummary) {found : List (WikiDocument × WikiSearchRank)}
    (hfound : WikiHandler.searchMatches go docs template (normalizeTitle go query) = found)
    (hwalk : normalizeTitle go (normalizeTitle go query) = normalizeTitle go query ∨
      found.length ≤ wikiSearchPageSize)
    (hstart : WikiHandler.startOf go (normalizeTitle go query) token = .ok n)
    (hnamed : Named (found.map (summaryOf template)))
    (hhits : ∀ w ∈ hits, w ∈ found.map (summaryOf template))
    (hfuel : found.length < n + fuel) (hn : n ≤ found.length) :
    ∃ r, searchFrom go docs template query fuel token hits = .ok r ∧
      ∀ w, w ∈ r ↔ w ∈ hits ∨ w ∈ (found.drop n).map (summaryOf template) := by
  induction fuel generalizing n token hits with
  | zero => omega
  | succ fuel ih =>
    have hsize : (0 : Int) ≤ wikiSearchPageSize := by decide
    have hpage := @searchWikis_eq go docs template query wikiSearchPageSize htemplate hsize hquery
      token n hstart
    rw [hfound] at hpage
    have hcall := hpage hn
    rw [pageLimit_client] at hcall
    unfold searchFrom
    by_cases hmore : n + wikiSearchPageSize < found.length
    · rw [if_pos hmore] at hcall
      let page := ((found.drop n).take wikiSearchPageSize).map (summaryOf template)
      let hits' := page.foldl
        (fun hits wiki => if hits.any fun h => h.name = wiki.name then hits else hits ++ [wiki]) hits
      have hin : ∀ w ∈ page, w ∈ found.map (summaryOf template) := by
        intro w hw
        obtain ⟨m,hm,rfl⟩ := List.mem_map.mp hw
        exact List.mem_map_of_mem (List.mem_of_mem_drop (List.mem_of_mem_take hm))
      have hmem : ∀ w, w ∈ hits' ↔ w ∈ hits ∨ w ∈ page := fun w => mem_foldl_page hnamed hin hhits
      have hhits' : ∀ w ∈ hits', w ∈ found.map (summaryOf template) := fun w hw =>
        ((hmem w).mp hw).elim (hhits w) (hin w)
      have hnext := startOf_cursor (n := n + wikiSearchPageSize)
        (Nat.lt_of_lt_of_le (by decide) (Nat.le_add_left _ n)) hquery
        (hwalk.resolve_right (by omega))
      have hpos : 0 < wikiSearchPageSize := by decide
      obtain ⟨r,hr,hmemr⟩ := ih (n + wikiSearchPageSize) _ hits' hnext hhits' (by omega) (by omega)
      refine ⟨r,?_,fun w => ?_⟩
      · rw [hcall]
        exact hr
      · have hsplit : found.drop n =
            (found.drop n).take wikiSearchPageSize ++ found.drop (n + wikiSearchPageSize) := by
          rw [← List.drop_drop,List.take_append_drop]
        rw [hmemr,hmem,or_assoc,hsplit,List.map_append,List.mem_append]
    · rw [if_neg hmore] at hcall
      rw [hcall]
      have hin : ∀ w ∈ (found.drop n).map (summaryOf template),
          w ∈ found.map (summaryOf template) := by
        intro w hw
        obtain ⟨m,hm,rfl⟩ := List.mem_map.mp hw
        exact List.mem_map_of_mem (List.mem_of_mem_drop hm)
      exact ⟨_,rfl,fun w => mem_foldl_page hnamed hin hhits⟩

/-! ## Resolving a title -/

/-- A title whose stored form the query of its lookup finds. -/
def Findable (js go : String → String) (title : String) : Prop :=
  normalizeTitle go (normalizeWikiTitle js title) ≠ "" ∧
    (normalizeTitle go (normalizeWikiTitle js title)).toList <:+: (normalizeTitle go title).toList

instance (title : String) : Decidable (Findable js go title) :=
  inferInstanceAs (Decidable (_ ∧ _))

private theorem searchMatches_length (query : String) :
    (WikiHandler.searchMatches go docs template query).length ≤ docs.length := by
  unfold WikiHandler.searchMatches
  rw [List.length_insertionSort]
  exact (List.length_filterMap_le _ _).trans (List.length_filter_le _ _)

private theorem Kept.named (h : Kept js go template docs) (query : String) :
    Named ((WikiHandler.searchMatches go docs template query).map (summaryOf template)) := by
  intro v hv w hw hname
  obtain ⟨⟨d,r⟩,hd,rfl⟩ := List.mem_map.mp hv
  obtain ⟨⟨e,r'⟩,he,rfl⟩ := List.mem_map.mp hw
  obtain ⟨hd,htd,-⟩ := h.mem_searchMatches.mp ⟨r,hd⟩
  obtain ⟨he,hte,-⟩ := h.mem_searchMatches.mp ⟨r',he⟩
  obtain rfl := h.eq_of_wikiID hd he htd hte (Prod.mk.inj hname).2
  rfl

private theorem Kept.mem_searchAll (h : Kept js go template docs)
    (htemplate : template ∈ knownTemplateIDs)
    (hquery : normalizeTitle go query ≠ "") (hwalk : Walks go docs template query) :
    ∃ hits, searchAll go docs template query = .ok hits ∧
      ∀ w, w ∈ hits ↔ ∃ d ∈ docs, d.template = template ∧
        (normalizeTitle go query).toList <:+: (normalizeTitle go d.title).toList ∧
        w = ⟨(template,d.wikiID),d.title⟩ := by
  have hlength := @searchMatches_length go docs template (normalizeTitle go query)
  rw [Walks,← h.indexed.length_found query] at hwalk
  obtain ⟨hits,hsearch,hmem⟩ := mem_searchFrom htemplate hquery (docs.length + 1) 0 none []
    rfl hwalk rfl (h.named _) (by simp) (by omega) (Nat.zero_le _)
  refine ⟨hits,hsearch,fun w => ?_⟩
  rw [hmem]
  simp only [List.not_mem_nil,false_or,List.drop_zero,List.mem_map,Prod.exists]
  constructor
  · rintro ⟨d,r,hd,rfl⟩
    obtain ⟨hd,ht,hwithin⟩ := h.mem_searchMatches.mp ⟨r,hd⟩
    exact ⟨d,hd,ht,hwithin,rfl⟩
  · rintro ⟨d,hd,ht,hwithin,rfl⟩
    obtain ⟨r,hr⟩ := h.mem_searchMatches.mpr ⟨hd,ht,hwithin⟩
    exact ⟨d,r,hr,rfl⟩

/-- A lookup finds the document that the client does not tell apart from the title, if it is
findable. -/
theorem Kept.resolveWiki_of_mem (h : Kept js go template docs)
    (htemplate : template ∈ knownTemplateIDs) {title : String}
    (hquery : normalizeTitle go (normalizeWikiTitle js title) ≠ "")
    (hwalk : Walks go docs template (normalizeWikiTitle js title)) (hd : d ∈ docs)
    (ht : d.template = template)
    (hnorm : normalizeWikiTitle js d.title = normalizeWikiTitle js title) :
    resolveWiki js go docs template title =
      .ok (if Findable js go d.title then some ⟨(template,d.wikiID),d.title⟩ else none) := by
  obtain ⟨hits,hsearch,hmem⟩ := h.mem_searchAll htemplate hquery hwalk
  have hfind : Findable js go d.title ↔ (⟨(template,d.wikiID),d.title⟩ : WikiSummary) ∈ hits := by
    rw [hmem,Findable,hnorm]
    constructor
    · exact fun hf => ⟨d,hd,ht,hf.2,rfl⟩
    · rintro ⟨e,he,hte,hwithin,heq⟩
      have heq' : d.title = e.title := congrArg WikiSummary.title heq
      exact ⟨hquery,heq' ▸ hwithin⟩
  have honly : ∀ w ∈ hits, normalizeWikiTitle js w.title = normalizeWikiTitle js title →
      w = ⟨(template,d.wikiID),d.title⟩ := by
    intro w hw hn
    obtain ⟨e,he,hte,-,rfl⟩ := (hmem w).mp hw
    rw [h.unique he hd hte ht (hn.trans hnorm.symm)]
  have hres : resolveWiki js go docs template title =
      .ok (hits.find? fun hit => normalizeWikiTitle js hit.title = normalizeWikiTitle js title) := by
    rw [Memory.resolveWiki,hsearch]
    rfl
  rw [hres]
  split
  · rename_i hf
    have hsome : (hits.find? fun hit => decide (normalizeWikiTitle js hit.title =
        normalizeWikiTitle js title)).isSome := by
      rw [List.find?_isSome]
      exact ⟨_,hfind.mp hf,by simpa using hnorm⟩
    obtain ⟨w,hw⟩ := Option.isSome_iff_exists.mp hsome
    have hmem' := List.mem_of_find?_eq_some hw
    have hn := List.find?_some hw
    rw [hw,honly w hmem' (by simpa using hn)]
  · rename_i hf
    have hnone : (hits.find? fun hit => decide (normalizeWikiTitle js hit.title =
        normalizeWikiTitle js title)) = none := by
      refine List.find?_eq_none.mpr fun w hw hn => hf (hfind.mpr ?_)
      rw [← honly w hw (by simpa using hn)]
      exact hw
    rw [hnone]

theorem Kept.resolveWiki_none (h : Kept js go template docs)
    (htemplate : template ∈ knownTemplateIDs) {title : String}
    (hquery : normalizeTitle go (normalizeWikiTitle js title) ≠ "")
    (hwalk : Walks go docs template (normalizeWikiTitle js title))
    (hnew : ∀ d ∈ docs, d.template = template →
      normalizeWikiTitle js d.title ≠ normalizeWikiTitle js title) :
    resolveWiki js go docs template title = .ok none := by
  obtain ⟨hits,hsearch,hmem⟩ := h.mem_searchAll htemplate hquery hwalk
  have hnone : (hits.find? fun hit => decide (normalizeWikiTitle js hit.title =
      normalizeWikiTitle js title)) = none := by
    refine List.find?_eq_none.mpr fun w hw hn => ?_
    obtain ⟨d,hd,ht,-,rfl⟩ := (hmem w).mp hw
    exact hnew d hd ht (by simpa using hn)
  rw [Memory.resolveWiki,hsearch]
  exact congrArg Except.ok hnone

theorem resolveWiki_error {title : String} (htemplate : template ∈ knownTemplateIDs)
    (hquery : normalizeTitle go (normalizeWikiTitle js title) = "") :
    resolveWiki js go docs template title = .error (invalidArgument "query is required") := by
  have hvalid : validateTemplateName template = .ok () := if_pos htemplate
  have hsearch : WikiHandler.searchWikis go docs template (normalizeWikiTitle js title)
      wikiSearchPageSize none = .error (invalidArgument "query is required") := by
    unfold WikiHandler.searchWikis
    rw [hvalid,wikiPageSize_eq (by decide)]
    exact if_pos hquery
  rw [Memory.resolveWiki,searchAll,searchFrom,hsearch]
  rfl

/-- A second page whose token the service refuses fails. -/
theorem Kept.resolveWiki_refused (h : Kept js go template docs)
    (htemplate : template ∈ knownTemplateIDs) {title : String}
    (hquery : normalizeTitle go (normalizeWikiTitle js title) ≠ "")
    (hwalk : ¬Walks go docs template (normalizeWikiTitle js title)) :
    ∃ error, resolveWiki js go docs template title = .error error := by
  generalize hnorm : normalizeWikiTitle js title = query at hquery hwalk
  obtain ⟨hunstable,hmany⟩ := not_or.mp hwalk
  have hlength := @searchMatches_length go docs template (normalizeTitle go query)
  rw [← h.indexed.length_found query] at hmany
  have hsize : (0 : Int) ≤ wikiSearchPageSize := by decide
  have hcall := @searchWikis_eq go docs template query wikiSearchPageSize htemplate hsize hquery
    none 0 rfl (Nat.zero_le _)
  rw [pageLimit_client,if_pos (by omega)] at hcall
  obtain ⟨error,hstart⟩ :=
    startOf_unstable ((0 + wikiSearchPageSize : Nat) : Int) hunstable
  have hsecond : WikiHandler.searchWikis go docs template query wikiSearchPageSize
      (some (.cursor ⟨normalizeTitle go query,(0 + wikiSearchPageSize : Nat)⟩)) =
      .error error := by
    have hvalid : validateTemplateName template = .ok () := if_pos htemplate
    unfold WikiHandler.searchWikis
    rw [hvalid,wikiPageSize_eq hsize]
    show (if normalizeTitle go query = "" then _ else _) = _
    rw [if_neg hquery,hstart]
    rfl
  obtain ⟨fuel,hfuel⟩ : ∃ fuel, docs.length = fuel + 1 :=
    Nat.exists_eq_succ_of_ne_zero (by omega)
  refine ⟨error,?_⟩
  rw [Memory.resolveWiki,hnorm,searchAll,hfuel,searchFrom,hcall]
  dsimp only
  rw [searchFrom,hsecond]
  rfl

end search

end Dominion.Memory
