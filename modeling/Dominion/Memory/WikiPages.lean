import Dominion.Framework.Pages
import Dominion.Memory.WikiTitles
import Mathlib.Data.String.Basic

/-! # The pages of a search -/
namespace Dominion.Memory

open Dominion.Framework

/-! ## What the pages should list -/

/-- Exact matches first, then prefixes, then substrings. -/
def specificity (query titleNorm : String) : Nat :=
  if titleNorm = query then 0 else if query.toList <+: titleNorm.toList then 1 else 2

/-- The order of two hits. -/
def HitBefore (nfkc : String → String) (query : String) (d e : WikiDocument) : Prop :=
  let t := normalizeTitle nfkc d.title
  let u := normalizeTitle nfkc e.title
  specificity query t < specificity query u ∨ (specificity query t = specificity query u ∧ t < u)

/-- A list of summaries that names each hit once and no other wiki, in the order of the hits. -/
def Lists (nfkc : String → String) (docs : Wikis) (template query : String)
    (wikis : List WikiSummary) : Prop :=
  ∃ found : List WikiDocument, wikis = found.map (fun d => ⟨(template,d.wikiID),d.title⟩) ∧
    found.Nodup ∧ (∀ d, d ∈ found ↔ d ∈ hitsOf nfkc docs template query) ∧
    found.Pairwise (HitBefore nfkc (normalizeTitle nfkc query))

/-- Following the tokens from the first request on ends without an error and lists every hit. -/
def Partitions (nfkc : String → String) (docs : Wikis) (template query : String)
    (pageSize : Int) : Prop :=
  ∃ pages, Pages.Walk (WikiHandler.searchWikis nfkc docs template query pageSize) none pages ∧
    Lists nfkc docs template query pages.flatten

section pages

variable {nfkc : String → String} {docs : Wikis} {template query : String} {pageSize : Int}
  {d e : WikiDocument}

private theorem normalizeTitle_ne (hnfkc : ∀ s, nfkc s = "" → s = "") (hquery : query ≠ "") :
    normalizeTitle nfkc query ≠ "" := by
  intro h
  apply hquery
  apply hnfkc
  have hchars := congrArg String.toList h
  simp only [normalizeTitle,Text.toLower,String.toList_ofList] at hchars
  exact String.toList_eq_nil_iff.mp (List.map_eq_nil_iff.mp hchars)

/-! ## The matches in their order -/

/-- The order by which the matches are sorted. -/
def RankedBefore (nfkc : String → String) (a b : WikiDocument × WikiSearchRank) : Prop :=
  a.2.toNat < b.2.toNat ∨ (a.2.toNat = b.2.toNat ∧
    normalizeTitle nfkc a.1.title ≤ normalizeTitle nfkc b.1.title)

instance : DecidableRel (RankedBefore nfkc) := fun _ _ => inferInstanceAs (Decidable (_ ∨ _))

instance : IsTrans _ (RankedBefore nfkc) where
  trans a b c hab hbc := by
    rcases hab with hab | ⟨hab,hle⟩
    · rcases hbc with hbc | ⟨hbc,-⟩
      · exact Or.inl (hab.trans hbc)
      · exact Or.inl (hbc ▸ hab)
    · rcases hbc with hbc | ⟨hbc,hle'⟩
      · exact Or.inl (hab ▸ hbc)
      · exact Or.inr ⟨hab.trans hbc,hle.trans hle'⟩

instance : Std.Total (RankedBefore nfkc) where
  total a b := by
    unfold RankedBefore
    rcases Nat.lt_trichotomy a.2.toNat b.2.toNat with h | h | h
    · exact Or.inl (Or.inl h)
    · rcases le_total (normalizeTitle nfkc a.1.title) (normalizeTitle nfkc b.1.title) with hle | hle
      · exact Or.inl (Or.inr ⟨h,hle⟩)
      · exact Or.inr (Or.inr ⟨h.symm,hle⟩)
    · exact Or.inr (Or.inl h)

private theorem searchMatches_sorted (query : String) :
    (WikiHandler.searchMatches nfkc docs template query).Pairwise (RankedBefore nfkc) :=
  List.pairwise_insertionSort (RankedBefore nfkc) _

private theorem rank_of_mem {m : WikiDocument × WikiSearchRank}
    (h : m ∈ WikiHandler.searchMatches nfkc docs template query) :
    wikiSearchMatchRank query (normalizeTitle nfkc m.1.title) = some m.2 := by
  simp only [WikiHandler.searchMatches,List.mem_insertionSort,List.mem_filterMap,
    Option.map_eq_some_iff] at h
  obtain ⟨d,-,rank,hrank,rfl⟩ := h
  exact hrank

private theorem toNat_rank {titleNorm : String} {rank : WikiSearchRank}
    (h : wikiSearchMatchRank query titleNorm = some rank) :
    rank.toNat = specificity query titleNorm := by
  unfold wikiSearchMatchRank at h
  unfold specificity
  split at h
  · split at h
    · cases h
      rw [if_pos ‹_›]
      rfl
    · rw [if_neg ‹_›]
      split at h
      · cases h
        rw [if_pos ‹_›]
        rfl
      · cases h
        rw [if_neg ‹_›]
        rfl
  · cases h

/-- Two wikis of the template have different normalized titles. -/
theorem Indexed.title_ne (h : Indexed nfkc template docs) (hd : d ∈ docs) (he : e ∈ docs)
    (htd : d.template = template) (hte : e.template = template) (hne : d ≠ e) :
    normalizeTitle nfkc d.title ≠ normalizeTitle nfkc e.title := by
  intro heq
  apply hne
  apply eq_of_clashes h.apart hd he
  exact ⟨htd.trans hte.symm,Or.inr (by rw [(h.norm d hd htd).1,(h.norm e he hte).1,heq])⟩

private theorem Indexed.lists (h : Indexed nfkc template docs) : Lists nfkc docs template query
    ((WikiHandler.searchMatches nfkc docs template (normalizeTitle nfkc query)).map
      (summaryOf template)) := by
  let found := WikiHandler.searchMatches nfkc docs template (normalizeTitle nfkc query)
  have hnodup := h.found_nodup (normalizeTitle nfkc query)
  refine ⟨found.map Prod.fst,?_,hnodup,fun d => h.mem_found,?_⟩
  · rw [List.map_map]
    rfl
  · apply List.pairwise_map.mpr
    have hdistinct : found.Pairwise fun a b => a.1 ≠ b.1 := List.pairwise_map.mp hnodup
    apply ((searchMatches_sorted (normalizeTitle nfkc query)).and hdistinct).imp_of_mem
    intro a b ha hb hab
    have hin : ∀ m ∈ found, m.1 ∈ docs ∧ m.1.template = template := by
      intro m hm
      obtain ⟨hd,ht,-⟩ := h.mem_searchMatches.mp ⟨m.2,hm⟩
      exact ⟨hd,ht⟩
    obtain ⟨hda,hta⟩ := hin a ha
    obtain ⟨hdb,htb⟩ := hin b hb
    have hne := h.title_ne hda hdb hta htb hab.2
    have hra := toNat_rank (rank_of_mem ha)
    have hrb := toNat_rank (rank_of_mem hb)
    unfold HitBefore
    dsimp only
    rw [← hra,← hrb]
    exact hab.1.imp_right fun hsame => ⟨hsame.1,lt_of_le_of_ne hsame.2 hne⟩

/-! ## The pages -/

/-- Following the tokens of a search lists its hits just when the query is normalized for good or
all hits fit on one page. -/
theorem search_partitions_iff (nfkc : String → String) (docs : Wikis) (template query : String)
    (pageSize : Int) (hnfkc : ∀ s, nfkc s = "" → s = "") (hquery : query ≠ "")
    (htemplate : template ∈ knownTemplateIDs) (hdocs : Indexed nfkc template docs) :
    Partitions nfkc docs template query pageSize ↔ 0 ≤ pageSize ∧
      (normalizeTitle nfkc (normalizeTitle nfkc query) = normalizeTitle nfkc query ∨
        (hitsOf nfkc docs template query).length ≤ pageLimit pageSize) := by
  have hne := normalizeTitle_ne hnfkc hquery
  have hlength := hdocs.length_found query
  constructor
  · intro h
    obtain ⟨pages,hwalk,-⟩ := h
    have hsize : 0 ≤ pageSize := by
      by_contra hneg
      obtain ⟨page,next,hcall⟩ := hwalk.ok
      have hvalid : validateTemplateName template = .ok () := if_pos htemplate
      unfold WikiHandler.searchWikis wikiPageSize at hcall
      rw [hvalid,if_pos (by omega)] at hcall
      cases hcall
    refine ⟨hsize,?_⟩
    by_contra hbad
    obtain ⟨hunstable,hmany⟩ := not_or.mp hbad
    have hcall := @searchWikis_eq nfkc docs template query pageSize htemplate hsize hne none 0 rfl
      (Nat.zero_le _)
    rw [if_pos (by omega)] at hcall
    obtain ⟨rest,hrest⟩ := hwalk.next hcall
    obtain ⟨page,next,hok⟩ := hrest.ok
    obtain ⟨error,herror⟩ := startOf_unstable ((0 + pageLimit pageSize : Nat) : Int) hunstable
    have hvalid : validateTemplateName template = .ok () := if_pos htemplate
    unfold WikiHandler.searchWikis at hok
    rw [hvalid,wikiPageSize_eq hsize] at hok
    change (if normalizeTitle nfkc query = "" then _ else _) = _ at hok
    rw [if_neg hne,herror] at hok
    cases hok
  · intro h
    obtain ⟨hsize,hcond⟩ := h
    have hpos := pageLimit_pos hsize
    let At : Option WikiToken → Nat → Prop := fun token n =>
      WikiHandler.startOf nfkc (normalizeTitle nfkc query) token = .ok (n : Int)
    have hslices : Pages.Slices (WikiHandler.searchWikis nfkc docs template query pageSize)
        ((WikiHandler.searchMatches nfkc docs template (normalizeTitle nfkc query)).map
          (summaryOf template)) At := by
      constructor
      intro token n hat hn
      rw [List.length_map] at hn ⊢
      have hcall := searchWikis_eq htemplate hsize hne hat hn
      by_cases hmore : n + pageLimit pageSize <
          (WikiHandler.searchMatches nfkc docs template (normalizeTitle nfkc query)).length
      · right
        rw [if_pos hmore] at hcall
        have hstable := hcond.resolve_right (by omega)
        refine ⟨pageLimit pageSize,_,hpos,hmore,startOf_cursor (by omega) hne hstable,?_⟩
        rw [hcall,List.map_take,List.map_drop]
      · left
        rw [if_neg hmore] at hcall
        rw [hcall,List.map_drop]
    have hstart : At none 0 := rfl
    obtain ⟨pages,hwalk,hpages⟩ := hslices.walk hstart (Nat.zero_le _)
    refine ⟨pages,hwalk,?_⟩
    rw [hpages,List.drop_zero]
    exact hdocs.lists

/-! ## Stored wikis -/

/-- A creation leaves the documents indexed. -/
theorem Indexed.createWiki (h : Indexed nfkc template docs) (t wikiID title content : String)
    (now : Nat) :
    Indexed nfkc template (WikiHandler.createWiki nfkc docs t wikiID title content now).1 := by
  unfold WikiHandler.createWiki Wikis.createWiki Wikis.insertOne
  dsimp only
  split
  · exact h
  · by_cases hany : (docs.any fun d => decide (d.Clashes
        (wikiDocumentFromDomain nfkc ⟨t,wikiID,title,content,now,now⟩))) = true
    · rw [if_pos hany]
      exact h
    · rw [if_neg hany]
      constructor
      · rw [List.map_append,List.nodup_append]
        refine ⟨h.ids,by simp,fun i hi k hk => ?_⟩
        obtain ⟨d,hd,rfl⟩ := List.mem_map.mp hi
        obtain rfl := List.mem_singleton.mp hk
        exact Nat.ne_of_lt (id_lt_freshId hd)
      · rw [List.pairwise_append]
        refine ⟨h.apart,by simp,fun d hd e he hclash => hany ?_⟩
        obtain rfl := List.mem_singleton.mp he
        exact List.any_eq_true.mpr ⟨d,hd,decide_eq_true hclash⟩
      · intro d hd ht
        rcases List.mem_append.mp hd with hd | hd
        · exact h.norm d hd ht
        · obtain rfl := List.mem_singleton.mp hd
          exact ⟨rfl,titleGrams_fromDomain nfkc ⟨t,wikiID,title,content,now,now⟩⟩

/-- A replacement by a document whose index fields are those of its title. -/
theorem Indexed.commit (h : Indexed nfkc template docs) {doc : WikiDocument}
    (hdoc : doc.titleNorm = normalizeTitle nfkc doc.title ∧
      doc.titleGrams = titleBigrams (normalizeTitle nfkc doc.title)) :
    Indexed nfkc template (docs.commitReplacement doc).1 := by
  rcases @commitReplacement_cases docs doc with ⟨hsame,-⟩ | ⟨d,-,hfree,hcommit⟩
  · rw [hsame]
    exact h
  · rw [hcommit]
    let put : WikiDocument → WikiDocument := fun e =>
      if e.id = d.id then { doc with id := d.id } else e
    have hid : ∀ e, (put e).id = e.id := by
      intro e
      by_cases he : e.id = d.id
      · simp [put,he]
      · simp [put,he]
    constructor
    · rw [List.map_map,show WikiDocument.id ∘ put = WikiDocument.id from funext hid]
      exact h.ids
    · have hdistinct : docs.Pairwise fun x y => x.id ≠ y.id := List.pairwise_map.mp h.ids
      apply List.pairwise_map.mpr
      apply (h.apart.and hdistinct).imp_of_mem
      intro x y hx hy hxy hclash
      by_cases hxd : x.id = d.id
      · have hyd : y.id ≠ d.id := fun hyd => hxy.2 (hxd.trans hyd.symm)
        rw [if_pos hxd,if_neg hyd] at hclash
        exact hfree y hy hyd (clashes_symm.mp hclash)
      · rw [if_neg hxd] at hclash
        by_cases hyd : y.id = d.id
        · rw [if_pos hyd] at hclash
          exact hfree x hx hxd hclash
        · rw [if_neg hyd] at hclash
          exact hxy.1 hclash
    · intro e' he' ht
      obtain ⟨e,he,rfl⟩ := List.mem_map.mp he'
      by_cases hed : e.id = d.id
      · rw [if_pos hed]
        exact hdoc
      · rw [if_neg hed] at ht ⊢
        exact h.norm e he ht

theorem Indexed.updateWiki (h : Indexed nfkc template docs) (req : UpdateWikiRequest) (now : Nat) :
    Indexed nfkc template (WikiHandler.updateWiki nfkc docs req now).1 := by
  unfold WikiHandler.updateWiki
  dsimp only
  split
  · exact h
  · rename_i doc hprepared
    apply h.commit
    -- the document was built from a wiki by its last step
    cases hmask : validateUpdate req with
    | error error => simp [hmask,bind,Except.bind] at hprepared
    | ok mask =>
      cases hget : docs.getWiki req.template req.wikiID with
      | error error => simp [hmask,hget,bind,Except.bind] at hprepared
      | ok existing =>
        simp only [hmask,hget,bind,Except.bind,Wikis.prepareReplacement] at hprepared
        split at hprepared
        · cases hprepared
        · cases hprepared
          exact ⟨rfl,titleGrams_fromDomain nfkc (mergeUpdate req mask now existing)⟩

end pages

/-! ## A query whose normal form composes -/

/-- The composition of j with a caron, which has no capital. -/
def composeCaron (s : String) : String :=
  let rec compose : List Char → List Char
    | 'j' :: '\u030C' :: cs => '\u01F0' :: compose cs
    | c :: cs => c :: compose cs
    | [] => []
  String.ofList (compose s.toList)

def wikiNamed (wikiID title : String) (id : Nat) : WikiDocument :=
  { wikiDocumentFromDomain composeCaron ⟨"saolei",wikiID,title,"",0,0⟩ with id }

private theorem indexed_wikiNamed {first second : String}
    (hne : normalizeTitle composeCaron first ≠ normalizeTitle composeCaron second) :
    Indexed composeCaron "saolei" [wikiNamed "a" first 1,wikiNamed "b" second 2] := by
  constructor
  · simp [wikiNamed]
  · have hapart : ¬(wikiNamed "a" first 1).Clashes (wikiNamed "b" second 2) := by
      simpa [WikiDocument.Clashes,wikiNamed,wikiDocumentFromDomain] using hne
    simpa using hapart
  · intro d hd _
    simp only [List.mem_cons,List.not_mem_nil,or_false] at hd
    rcases hd with hd | hd
    · simp [hd,wikiNamed,wikiDocumentFromDomain]
    · simp [hd,wikiNamed,wikiDocumentFromDomain]

private theorem composeCaron_nonempty (s : String) (h : composeCaron s = "") : s = "" := by
  have hcompose : ∀ cs, composeCaron.compose cs = [] → cs = [] := by
    intro cs
    fun_cases composeCaron.compose cs <;> simp
  have hchars := congrArg String.toList h
  rw [composeCaron,String.toList_ofList] at hchars
  exact String.toList_eq_nil_iff.mp (hcompose _ hchars)

theorem search_partitions_iff_demo :
    Partitions composeCaron [wikiNamed "a" "golang" 1,wikiNamed "b" "go" 2] "saolei" "Go" 1 := by
  have hne : normalizeTitle composeCaron "golang" ≠ normalizeTitle composeCaron "go" := by
    decide +kernel
  apply (search_partitions_iff composeCaron _ "saolei" "Go" 1 composeCaron_nonempty (by decide)
    (by decide) (indexed_wikiNamed hne)).mpr
  exact ⟨by decide,Or.inl (by decide +kernel)⟩

/-- Two wikis that a capital query with a caron finds: its second page is refused. -/
theorem composed_query_token_refused :
    let docs := [wikiNamed "a" "J\u030C1" 1,wikiNamed "b" "J\u030C2" 2]
    Indexed composeCaron "saolei" docs ∧
      ¬Partitions composeCaron docs "saolei" "J\u030C" 1 := by
  have hne : normalizeTitle composeCaron "J\u030C1" ≠ normalizeTitle composeCaron "J\u030C2" := by
    decide +kernel
  refine ⟨indexed_wikiNamed hne,fun h => ?_⟩
  obtain ⟨pages,hwalk,-⟩ := h
  have hfirst : WikiHandler.searchWikis composeCaron
      [wikiNamed "a" "J\u030C1" 1,wikiNamed "b" "J\u030C2" 2] "saolei" "J\u030C" 1 none =
      .ok ([⟨("saolei","a"),"J\u030C1"⟩],some (.cursor ⟨"j\u030C",1⟩)) := by
    decide +kernel
  obtain ⟨rest,hrest⟩ := hwalk.next hfirst
  obtain ⟨page,next,hok⟩ := hrest.ok
  have hsecond : WikiHandler.searchWikis composeCaron
      [wikiNamed "a" "J\u030C1" 1,wikiNamed "b" "J\u030C2" 2] "saolei" "J\u030C" 1
      (some (.cursor ⟨"j\u030C",1⟩)) =
      .error (errInvalidPageToken "query does not match the token") := by
    decide +kernel
  rw [hsecond] at hok
  cases hok

end Dominion.Memory
