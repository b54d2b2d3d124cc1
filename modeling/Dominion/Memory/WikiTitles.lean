import Dominion.Memory.WikiSearch

/-! # One entry for each title

The entries of a template form a store whose keys are the client's normal forms.  A call of
`wiki_write` writes its entries into that store as long as the service tells the stored titles
apart and finds each of them by its own lookup. -/
namespace Dominion.Memory

open Dominion.Framework

/-! ## Titles -/

/-- The titles of a template. -/
def titlesOf (template : String) (docs : Wikis) : List String :=
  (docs.filter fun d => d.template = template).map WikiDocument.title

/-- Whether the client does not tell a title apart from a known one. -/
def knows (js : String → String) (known : List String) (title : String) : Bool :=
  known.any fun t => normalizeWikiTitle js t = normalizeWikiTitle js title

/-- The known titles after others are written. -/
def storedTitles (js : String → String) (known : List String) : List String → List String
  | [] => known
  | title :: titles =>
    storedTitles js (if knows js known title then known else known ++ [title]) titles

/-- Titles that no unique index of the service confuses. -/
def Apart (js go : String → String) (t u : String) : Prop :=
  generateWikiId (normalizeWikiTitle js t) ≠ generateWikiId (normalizeWikiTitle js u) ∧
    normalizeTitle go t ≠ normalizeTitle go u

instance (js go : String → String) (t u : String) : Decidable (Apart js go t u) :=
  inferInstanceAs (Decidable (_ ∧ _))

/-- Every page of a title's lookup can be had: the lookup's query is normalized for good, or the
first page holds every title that it finds. -/
def Reachable (js go : String → String) (titles : List String) (title : String) : Prop :=
  let query := normalizeTitle go (normalizeWikiTitle js title)
  normalizeTitle go query = query ∨
    (titles.filter fun t => query.toList <:+: (normalizeTitle go t).toList).length ≤
      wikiSearchPageSize

instance (js go : String → String) (titles : List String) (title : String) :
    Decidable (Reachable js go titles title) :=
  inferInstanceAs (Decidable (_ ∨ _))

/-- Titles that the service tells apart, each of which its own lookup finds. -/
def Addressable (js go : String → String) (titles : List String) : Prop :=
  titles.Pairwise (Apart js go) ∧
    ∀ title ∈ titles, Findable js go title ∧ Reachable js go titles title

instance (js go : String → String) (titles : List String) : Decidable (Addressable js go titles) :=
  inferInstanceAs (Decidable (_ ∧ _))

section titles

variable {js go : String → String} {known titles : List String} {title : String}

private theorem knows_iff : knows js known title = true ↔
    ∃ t ∈ known, normalizeWikiTitle js t = normalizeWikiTitle js title := by
  simp [knows]

private theorem prefix_storedTitles : known <+: storedTitles js known titles := by
  induction titles generalizing known with
  | nil => exact List.prefix_rfl
  | cons title titles ih =>
    rw [storedTitles]
    split
    · exact ih
    · exact (List.prefix_append known [title]).trans ih

end titles

/-! ## The writes of a batch -/

/-- The writes that the preflight plans over known titles that are all findable. -/
def planWrites (js : String → String) (known : List String) :
    List (String × String) → List PlannedWikiWrite
  | [] => []
  | (title,content) :: entries =>
    if knows js known title then
      ⟨.update,generateWikiId (normalizeWikiTitle js title),title,content⟩ ::
        planWrites js known entries
    else
      ⟨.create,generateWikiId (normalizeWikiTitle js title),title,content⟩ ::
        planWrites js (known ++ [title]) entries

/-- The trimmed title and the content of an entry. -/
def WikiWriteEntry.pair (entry : WikiWriteEntry) : String × String :=
  (Ecma.trim (entry.title.getD ""),entry.content.getD "")

section preflight

variable {js go : String → String} {docs : Wikis} {template : String}

/-- The ids chosen so far are those of the known titles. -/
structure Planned (js : String → String) (template : String) (docs : Wikis) (known : List String)
    (planned : String → Option String) : Prop where
  chosen : ∀ title id, planned (normalizeWikiTitle js title) = some id →
    id = generateWikiId (normalizeWikiTitle js title) ∧ knows js known title = true
  fresh : ∀ title, planned (normalizeWikiTitle js title) = none →
    (knows js known title = true ↔ knows js (titlesOf template docs) title = true)

private theorem mem_titlesOf {title : String} :
    title ∈ titlesOf template docs ↔ ∃ d ∈ docs, d.template = template ∧ d.title = title := by
  simp [titlesOf,and_assoc]

private theorem knows_titlesOf {title : String} : knows js (titlesOf template docs) title = true ↔
    ∃ d ∈ docs, d.template = template ∧
      normalizeWikiTitle js d.title = normalizeWikiTitle js title := by
  rw [knows_iff]
  constructor
  · rintro ⟨t,ht,hn⟩
    obtain ⟨d,hd,htemplate,rfl⟩ := mem_titlesOf.mp ht
    exact ⟨d,hd,htemplate,hn⟩
  · rintro ⟨d,hd,htemplate,hn⟩
    exact ⟨d.title,mem_titlesOf.mpr ⟨d,hd,htemplate,rfl⟩,hn⟩

/-- A title's lookup walks its pages just when the titles of the template allow it. -/
theorem walks_iff {title : String} : Walks go docs template (normalizeWikiTitle js title) ↔
    Reachable js go (titlesOf template docs) title := by
  have hhits : (hitsOf go docs template (normalizeWikiTitle js title)).length =
      ((titlesOf template docs).filter fun t =>
        (normalizeTitle go (normalizeWikiTitle js title)).toList <:+:
          (normalizeTitle go t).toList).length := by
    rw [titlesOf,List.filter_map,List.length_map,List.filter_filter,hitsOf]
    congr 1
    apply List.filter_congr
    intro d _
    simp [Bool.and_comm]
  unfold Walks Reachable
  rw [hhits]

private theorem Planned.update {known : List String} {planned : String → Option String}
    {title : String} (h : Planned js template docs known planned) :
    Planned js template docs (if knows js known title then known else known ++ [title])
      (Function.update planned (normalizeWikiTitle js title)
        (some (generateWikiId (normalizeWikiTitle js title)))) := by
  generalize hknown' : (if knows js known title = true then known else known ++ [title]) = known'
  have hself : ∀ u, normalizeWikiTitle js u = normalizeWikiTitle js title →
      knows js known' u = true := by
    intro u hu
    rw [← hknown']
    split
    · rename_i hk
      obtain ⟨t,ht,hn⟩ := knows_iff.mp hk
      exact knows_iff.mpr ⟨t,ht,hn.trans hu.symm⟩
    · exact knows_iff.mpr ⟨title,by simp,hu.symm⟩
  have hother : ∀ u, normalizeWikiTitle js u ≠ normalizeWikiTitle js title →
      (knows js known' u = true ↔ knows js known u = true) := by
    intro u hu
    rw [← hknown']
    split
    · exact Iff.rfl
    · simp only [knows_iff,List.mem_append,List.mem_singleton]
      constructor
      · rintro ⟨t,ht | rfl,hn⟩
        · exact ⟨t,ht,hn⟩
        · exact absurd hn.symm hu
      · rintro ⟨t,ht,hn⟩
        exact ⟨t,Or.inl ht,hn⟩
  constructor
  · intro u id hid
    by_cases hu : normalizeWikiTitle js u = normalizeWikiTitle js title
    · rw [hu,Function.update_self] at hid
      rw [hu]
      exact ⟨(Option.some.inj hid).symm,hself u hu⟩
    · rw [Function.update_of_ne hu] at hid
      obtain ⟨hid,hk⟩ := h.chosen u id hid
      exact ⟨hid,(hother u hu).mpr hk⟩
  · intro u hnone
    by_cases hu : normalizeWikiTitle js u = normalizeWikiTitle js title
    · rw [hu,Function.update_self] at hnone
      cases hnone
    · rw [Function.update_of_ne hu] at hnone
      exact (hother u hu).trans (h.fresh u hnone)

private theorem wikiPreflight_ok (h : Kept js go template docs)
    (htemplate : template ∈ knownTemplateIDs)
    (hfind : ∀ title ∈ titlesOf template docs, Findable js go title)
    {entries : List WikiWriteEntry} {known : List String} {planned : String → Option String}
    {i : Nat} {writes : List PlannedWikiWrite} (hplanned : Planned js template docs known planned)
    (hok : wikiPreflight js go docs template planned i entries = .ok writes) :
    writes = planWrites js known (entries.map WikiWriteEntry.pair) ∧
      ∀ entry ∈ entries, refuseEntry entry.pair.1 entry.pair.2 = none := by
  induction entries generalizing known planned i writes with
  | nil =>
    cases hok
    exact ⟨rfl,by simp⟩
  | cons entry entries ih =>
    have htail : ∀ {known' planned' j}, Planned js template docs known' planned' →
        ∀ {kind}, (wikiPreflight js go docs template planned' j entries).map
          (fun writes => ⟨kind,generateWikiId (normalizeWikiTitle js entry.pair.1),entry.pair.1,
            entry.pair.2⟩ :: writes) = .ok writes →
        writes = ⟨kind,generateWikiId (normalizeWikiTitle js entry.pair.1),entry.pair.1,
            entry.pair.2⟩ :: planWrites js known' (entries.map WikiWriteEntry.pair) ∧
          ∀ entry ∈ entries, refuseEntry entry.pair.1 entry.pair.2 = none := by
      intro known' planned' j hplanned' kind hmap
      cases hrest : wikiPreflight js go docs template planned' j entries with
      | error e =>
        rw [hrest] at hmap
        cases hmap
      | ok rest =>
        rw [hrest] at hmap
        cases hmap
        obtain ⟨rfl,hrefuse⟩ := ih hplanned' hrest
        exact ⟨rfl,hrefuse⟩
    have hupdate : Planned js template docs
        (if knows js known entry.pair.1 then known else known ++ [entry.pair.1]) _ :=
      hplanned.update
    have hplan : ∀ b : Bool, knows js known entry.pair.1 = b →
        planWrites js known ((entry :: entries).map WikiWriteEntry.pair) =
          ⟨if b then .update else .create,generateWikiId (normalizeWikiTitle js entry.pair.1),
            entry.pair.1,entry.pair.2⟩ ::
            planWrites js (if b then known else known ++ [entry.pair.1])
              (entries.map WikiWriteEntry.pair) := by
      intro b hb
      rw [List.map_cons,planWrites,hb]
      cases b <;> rfl
    have htitle : Ecma.trim (entry.title.getD "") = entry.pair.1 := rfl
    have hcontent : entry.content.getD "" = entry.pair.2 := rfl
    simp only [wikiPreflight,htitle,hcontent] at hok
    cases hrefuse : refuseEntry entry.pair.1 entry.pair.2 with
    | some reason =>
      simp only [hrefuse] at hok
      cases hok
    | none =>
      simp only [hrefuse] at hok
      have hforall : (∀ entry ∈ entries, refuseEntry entry.pair.1 entry.pair.2 = none) →
          ∀ e ∈ entry :: entries, refuseEntry e.pair.1 e.pair.2 = none := fun h =>
        List.forall_mem_cons.mpr ⟨hrefuse,h⟩
      cases hid : planned (normalizeWikiTitle js entry.pair.1) with
      | some id =>
        obtain ⟨rfl,hk⟩ := hplanned.chosen _ _ hid
        simp only [hid] at hok
        obtain ⟨hwrites,hrest⟩ := htail hplanned hok
        exact ⟨hwrites.trans (hplan true hk).symm,hforall hrest⟩
      | none =>
        simp only [hid] at hok
        by_cases hquery : normalizeTitle go (normalizeWikiTitle js entry.pair.1) = ""
        · rw [resolveWiki_error htemplate hquery] at hok
          cases hok
        by_cases hwalk : Walks go docs template (normalizeWikiTitle js entry.pair.1)
        · cases hk : knows js known entry.pair.1 with
          | true =>
            obtain ⟨d,hd,ht,hnorm⟩ := knows_titlesOf.mp ((hplanned.fresh _ hid).mp hk)
            have hfound : Findable js go d.title := hfind _ (mem_titlesOf.mpr ⟨d,hd,ht,rfl⟩)
            have hwikiID : d.wikiID = generateWikiId (normalizeWikiTitle js entry.pair.1) := by
              rw [h.wikiID d hd ht,hnorm]
            rw [h.resolveWiki_of_mem htemplate hquery hwalk hd ht hnorm,if_pos hfound,hwikiID] at hok
            rw [hk] at hupdate
            obtain ⟨hwrites,hrest⟩ := htail hupdate hok
            exact ⟨hwrites.trans (hplan true hk).symm,hforall hrest⟩
          | false =>
            have hnew : ∀ d ∈ docs, d.template = template →
                normalizeWikiTitle js d.title ≠ normalizeWikiTitle js entry.pair.1 := by
              intro d hd ht hnorm
              have htrue := (hplanned.fresh _ hid).mpr (knows_titlesOf.mpr ⟨d,hd,ht,hnorm⟩)
              rw [hk] at htrue
              cases htrue
            rw [h.resolveWiki_none htemplate hquery hwalk hnew] at hok
            rw [hk] at hupdate
            obtain ⟨hwrites,hrest⟩ := htail hupdate hok
            exact ⟨hwrites.trans (hplan false hk).symm,hforall hrest⟩
        · obtain ⟨error,hres⟩ := h.resolveWiki_refused htemplate hquery hwalk
          rw [hres] at hok
          cases hok

end preflight

/-! ## One write -/

/-- The content that a template has for a title. -/
def Holds (js : String → String) (template : String) (docs : Wikis) (title content : String) : Prop :=
  ∃ d ∈ docs, d.template = template ∧
    normalizeWikiTitle js d.title = normalizeWikiTitle js title ∧ d.content = content

/-- A collection after a title is written. -/
structure Upserted (js go : String → String) (template : String) (docs docs' : Wikis)
    (title content : String) : Prop where
  kept : Kept js go template docs'
  titles : titlesOf template docs' = if knows js (titlesOf template docs) title then
    titlesOf template docs else titlesOf template docs ++ [title]
  holds : ∀ u c, Holds js template docs' u c ↔
    if normalizeWikiTitle js u = normalizeWikiTitle js title then c = content
    else Holds js template docs u c

section write

variable {js go : String → String} {docs : Wikis} {template title content : String} {now : Nat}

theorem id_lt_freshId {d : WikiDocument} (hd : d ∈ docs) : d.id < docs.freshId := by
  have hle : ∀ l : List Nat, ∀ n ∈ l, n ≤ l.foldr max 0 := by
    intro l
    induction l with
    | nil => simp
    | cons m l ih =>
      intro n hn
      rcases List.mem_cons.mp hn with rfl | hn
      · exact Nat.le_max_left _ _
      · exact (ih n hn).trans (Nat.le_max_right _ _)
  exact Nat.lt_succ_of_le (hle _ _ (List.mem_map_of_mem hd))

private theorem validateWikiID_generate (norm : String) :
    validateWikiID (generateWikiId norm) = .ok () := by
  have hlist : (generateWikiId norm).toList = (Sha256.hexDigest norm).take 32 := by
    unfold generateWikiId
    exact String.toList_ofList
  have hlength : (generateWikiId norm).toList.length = 32 := by
    rw [hlist,List.length_take,Sha256.hexDigest_length]
    rfl
  refine if_pos ⟨fun hempty => ?_,?_⟩
  · rw [hempty] at hlength
    simp at hlength
  · rw [hlist,List.all_eq_true]
    intro c hc
    have hhex := Sha256.isHex_of_mem_hexDigest (List.mem_of_mem_take hc)
    rcases hhex with ⟨hl,hr⟩ | ⟨hl,hr⟩
    · have hz : c ≤ 'z' := Char.le_trans hr (by decide)
      simp [hl,hz]
    · simp [hl,hr]

private theorem refuseEntry_none (h : refuseEntry title content = none) :
    validateWikiTitle title = .ok () ∧ validateWikiContent content = .ok () := by
  unfold refuseEntry at h
  split at h
  · cases h
  rename_i hempty
  split at h
  · cases h
  rename_i hrunes
  split at h
  · cases h
  rename_i hblank
  split at h
  · cases h
  rename_i hbytes
  have hcontent : content ≠ "" := by
    rintro rfl
    exact hblank (by decide)
  exact ⟨by rw [validateWikiTitle,if_neg hempty]; exact if_neg hrunes,
    by rw [validateWikiContent,if_neg hcontent]; exact if_neg hbytes⟩

/-- The document that a created title gets. -/
def createdDocument (go : String → String) (docs : Wikis) (template wikiID title content : String)
    (now : Nat) : WikiDocument :=
  { wikiDocumentFromDomain go ⟨template,wikiID,title,content,now,now⟩ with id := docs.freshId }

private theorem createWiki_eq (htemplate : template ∈ knownTemplateIDs) {norm : String}
    (hrefuse : refuseEntry title content = none) :
    WikiHandler.createWiki go docs template (generateWikiId norm) title content now =
      if docs.any fun d =>
        decide (d.Clashes (createdDocument go docs template (generateWikiId norm) title content now))
      then (docs,.error errAlreadyExists)
      else (docs ++ [createdDocument go docs template (generateWikiId norm) title content now],
        .ok ⟨template,generateWikiId norm,title,content,now,now⟩) := by
  obtain ⟨htitle,hcontent⟩ := refuseEntry_none hrefuse
  have hvalid : validateTemplateName template = .ok () := if_pos htemplate
  simp only [WikiHandler.createWiki,hvalid,validateWikiID_generate,htitle,hcontent]
  by_cases hany : (docs.any fun d => decide (d.Clashes
      (createdDocument go docs template (generateWikiId norm) title content now))) = true
  · have hinsert : docs.createWiki go ⟨template,generateWikiId norm,title,content,now,now⟩ =
        .error errAlreadyExists := if_pos hany
    rw [if_pos hany,hinsert]
    rfl
  · have hinsert : docs.createWiki go ⟨template,generateWikiId norm,title,content,now,now⟩ =
        .ok (docs ++ [createdDocument go docs template (generateWikiId norm) title content now]) :=
      if_neg hany
    rw [if_neg hany,hinsert]
    rfl

private theorem Kept.clashes_iff (h : Kept js go template docs) :
    (docs.any fun d => decide (d.Clashes (createdDocument go docs template
      (generateWikiId (normalizeWikiTitle js title)) title content now))) = true ↔
      ∃ t ∈ titlesOf template docs, ¬Apart js go t title := by
  simp only [List.any_eq_true,decide_eq_true_eq,Apart,not_and_or,not_not]
  constructor
  · rintro ⟨d,hd,htemplate,hclash⟩
    have ht : d.template = template := htemplate
    refine ⟨d.title,mem_titlesOf.mpr ⟨d,hd,ht,rfl⟩,?_⟩
    rw [← h.wikiID d hd ht,← (h.norm d hd ht).1]
    exact hclash
  · rintro ⟨t,ht,hclash⟩
    obtain ⟨d,hd,htemplate,rfl⟩ := mem_titlesOf.mp ht
    refine ⟨d,hd,htemplate,?_⟩
    rw [← h.wikiID d hd htemplate,← (h.norm d hd htemplate).1] at hclash
    exact hclash

private theorem Kept.create (now : Nat) (h : Kept js go template docs)
    (htemplate : template ∈ knownTemplateIDs) (hrefuse : refuseEntry title content = none)
    (hapart : ∀ t ∈ titlesOf template docs, Apart js go t title) :
    ∃ docs' wiki, PlannedWikiWrite.apply go docs template now
        ⟨.create,generateWikiId (normalizeWikiTitle js title),title,content⟩ = (docs',.ok wiki) ∧
      Upserted js go template docs docs' title content := by
  have hfree : ¬(docs.any fun d => decide (d.Clashes (createdDocument go docs template
      (generateWikiId (normalizeWikiTitle js title)) title content now))) = true := by
    rw [h.clashes_iff]
    rintro ⟨t,ht,hclash⟩
    exact hclash (hapart t ht)
  have hnew : knows js (titlesOf template docs) title ≠ true := by
    intro hknows
    obtain ⟨t,ht,hn⟩ := knows_iff.mp hknows
    exact (hapart t ht).1 (by rw [hn])
  have hnot : ∀ d ∈ docs, ¬d.Clashes (createdDocument go docs template
      (generateWikiId (normalizeWikiTitle js title)) title content now) := by
    intro d hd hclash
    exact hfree (List.any_eq_true.mpr ⟨d,hd,by simpa using hclash⟩)
  refine ⟨_,_,(createWiki_eq htemplate hrefuse).trans (if_neg hfree),⟨⟨?_,?_,?_,?_⟩,?_,?_⟩⟩
  · rw [List.map_append,List.nodup_append]
    refine ⟨h.ids,by simp,fun i hi k hk => ?_⟩
    obtain ⟨d,hd,rfl⟩ := List.mem_map.mp hi
    obtain rfl := List.mem_singleton.mp hk
    exact Nat.ne_of_lt (id_lt_freshId hd)
  · rw [List.pairwise_append]
    refine ⟨h.apart,by simp,fun d hd e he => ?_⟩
    obtain rfl := List.mem_singleton.mp he
    exact hnot d hd
  · intro d hd ht
    rcases List.mem_append.mp hd with hd | hd
    · exact h.wikiID d hd ht
    · obtain rfl := List.mem_singleton.mp hd
      rfl
  · intro d hd ht
    rcases List.mem_append.mp hd with hd | hd
    · exact h.norm d hd ht
    · obtain rfl := List.mem_singleton.mp hd
      exact ⟨rfl,titleGrams_fromDomain go ⟨template,
        generateWikiId (normalizeWikiTitle js title),title,content,now,now⟩⟩
  · rw [if_neg hnew,titlesOf,List.filter_append,List.map_append]
    have hself : [createdDocument go docs template (generateWikiId (normalizeWikiTitle js title))
        title content now].filter (fun d => decide (d.template = template)) =
        [createdDocument go docs template (generateWikiId (normalizeWikiTitle js title))
          title content now] := by
      simp [createdDocument,wikiDocumentFromDomain]
    rw [hself]
    rfl
  · intro u c
    simp only [Holds,List.mem_append,List.mem_singleton]
    split
    · rename_i hu
      constructor
      · rintro ⟨d,hd | rfl,ht,hn,hc⟩
        · exact absurd (knows_titlesOf.mpr ⟨d,hd,ht,hn.trans hu⟩) hnew
        · exact hc.symm
      · rintro rfl
        exact ⟨_,Or.inr rfl,rfl,hu.symm,rfl⟩
    · rename_i hu
      constructor
      · rintro ⟨d,hd | rfl,ht,hn,hc⟩
        · exact ⟨d,hd,ht,hn,hc⟩
        · exact absurd hn.symm hu
      · rintro ⟨d,hd,ht,hn,hc⟩
        exact ⟨d,Or.inl hd,ht,hn,hc⟩

private theorem Kept.create_clash (now : Nat) (h : Kept js go template docs)
    (htemplate : template ∈ knownTemplateIDs) (hrefuse : refuseEntry title content = none)
    (hclash : ∃ t ∈ titlesOf template docs, ¬Apart js go t title) :
    PlannedWikiWrite.apply go docs template now
        ⟨.create,generateWikiId (normalizeWikiTitle js title),title,content⟩ =
      (docs,.error errAlreadyExists) :=
  (createWiki_eq htemplate hrefuse).trans (if_pos (h.clashes_iff.mpr hclash))

private theorem Kept.findOne (h : Kept js go template docs) {d : WikiDocument} (hd : d ∈ docs)
    (ht : d.template = template) : docs.findOne template d.wikiID = some d := by
  have hsome : (docs.findOne template d.wikiID).isSome := by
    unfold Wikis.findOne
    rw [List.find?_isSome]
    exact ⟨d,hd,by simp [ht]⟩
  obtain ⟨e,he⟩ := Option.isSome_iff_exists.mp hsome
  obtain ⟨hmem,hte,hid⟩ := mem_of_findOne he
  rw [he,h.eq_of_wikiID hmem hd hte ht hid]

/-- The document that replaces one whose content is updated. -/
def rewrittenDocument (go : String → String) (d : WikiDocument) (content : String) (now : Nat) :
    WikiDocument :=
  { wikiDocumentFromDomain go { d.toDomain with content, updateTime := now } with
    id := d.id, createTime := d.createTime }

private theorem Kept.updateWiki_eq (now : Nat) (h : Kept js go template docs)
    (htemplate : template ∈ knownTemplateIDs) (hcontent : validateWikiContent content = .ok ()) {d : WikiDocument} (hd : d ∈ docs)
    (ht : d.template = template) :
    WikiHandler.updateWiki go docs ⟨template,d.wikiID,"",content,["content"]⟩ now =
      (docs.map fun e => if e.id = d.id then rewrittenDocument go d content now else e,
        .ok (rewrittenDocument go d content now).toDomain) := by
  have hvalid : validateTemplateName template = .ok () := if_pos htemplate
  have hmask : validateUpdate ⟨template,d.wikiID,"",content,["content"]⟩ = .ok (false,true) := by
    unfold validateUpdate
    rw [hvalid]
    have hpaths : applyWikiMask ["content"] = .ok (false,true) := by decide
    simp only [hpaths,hcontent]
    rfl
  have hget : docs.getWiki template d.wikiID = .ok d.toDomain := by
    unfold Wikis.getWiki
    rw [h.findOne hd ht]
  have hprepare : docs.prepareReplacement go (mergeUpdate
      ⟨template,d.wikiID,"",content,["content"]⟩ (false,true) now d.toDomain) =
      .ok (rewrittenDocument go d content now) := by
    subst ht
    unfold Wikis.prepareReplacement
    have hfind : docs.findOne (mergeUpdate ⟨d.template,d.wikiID,"",content,["content"]⟩
        (false,true) now d.toDomain).template (mergeUpdate
        ⟨d.template,d.wikiID,"",content,["content"]⟩ (false,true) now d.toDomain).wikiID = some d :=
      h.findOne hd rfl
    rw [hfind]
    rfl
  have hfind : docs.findOne (rewrittenDocument go d content now).template
      (rewrittenDocument go d content now).wikiID = some d := by
    subst ht
    exact h.findOne hd rfl
  have hfree : ¬(docs.any fun e => decide (e.id ≠ d.id) &&
      decide (e.Clashes (rewrittenDocument go d content now))) = true := by
    intro hany
    obtain ⟨e,he,hcond⟩ := List.any_eq_true.mp hany
    simp only [Bool.and_eq_true,decide_eq_true_eq] at hcond
    have hclash : e.Clashes d := by
      refine ⟨hcond.2.1,hcond.2.2.imp_right fun hnorm => ?_⟩
      rw [(h.norm d hd ht).1]
      exact hnorm
    exact hcond.1 (by rw [eq_of_clashes h.apart he hd hclash])
  have hcommit : docs.commitReplacement (rewrittenDocument go d content now) =
      (docs.map fun e => if e.id = d.id then rewrittenDocument go d content now else e,
        .ok (rewrittenDocument go d content now).toDomain) := by
    unfold Wikis.commitReplacement Wikis.replaceOne
    rw [hfind]
    simp only [if_neg hfree]
    rfl
  simp only [WikiHandler.updateWiki,hmask,bind,Except.bind,hget,hprepare,hcommit]

private theorem Kept.update (now : Nat) (h : Kept js go template docs)
    (htemplate : template ∈ knownTemplateIDs) (hrefuse : refuseEntry title content = none)
    (hknows : knows js (titlesOf template docs) title = true) :
    ∃ docs' wiki, PlannedWikiWrite.apply go docs template now
        ⟨.update,generateWikiId (normalizeWikiTitle js title),title,content⟩ = (docs',.ok wiki) ∧
      Upserted js go template docs docs' title content := by
  obtain ⟨d,hd,ht,hnorm⟩ := knows_titlesOf.mp hknows
  have hwikiID : d.wikiID = generateWikiId (normalizeWikiTitle js title) := by
    rw [h.wikiID d hd ht,hnorm]
  have hself : ∀ e ∈ docs, e.id = d.id → e = d := fun e he hid =>
    List.inj_on_of_nodup_map h.ids he hd hid
  -- The replacement changes nothing but the content of the one document.
  let f : WikiDocument → WikiDocument := fun e =>
    if e.id = d.id then rewrittenDocument go d content now else e
  have hsame : ∀ e ∈ docs, (f e).id = e.id ∧ (f e).template = e.template ∧
      (f e).wikiID = e.wikiID ∧ (f e).title = e.title ∧
      (f e).titleNorm = e.titleNorm ∧ (f e).titleGrams = e.titleGrams := by
    intro e he
    by_cases hid : e.id = d.id
    · obtain rfl := hself e he hid
      obtain ⟨hn,hg⟩ := h.norm e hd ht
      have hf : f e = rewrittenDocument go e content now := if_pos rfl
      rw [hf]
      have hgrams := titleGrams_fromDomain go { e.toDomain with content, updateTime := now }
      exact ⟨rfl,rfl,rfl,rfl,hn.symm,hgrams.trans hg.symm⟩
    · have hf : f e = e := if_neg hid
      rw [hf]
      exact ⟨rfl,rfl,rfl,rfl,rfl,rfl⟩
  have hupdate := h.updateWiki_eq now htemplate (refuseEntry_none hrefuse).2 hd ht
  rw [hwikiID] at hupdate
  refine ⟨docs.map f,_,hupdate,⟨⟨?_,?_,?_,?_⟩,?_,?_⟩⟩
  · rw [List.map_map]
    have hids : docs.map (WikiDocument.id ∘ f) = docs.map WikiDocument.id :=
      List.map_congr_left fun e he => (hsame e he).1
    exact hids ▸ h.ids
  · rw [List.pairwise_map]
    refine h.apart.imp_of_mem fun {x y} hx hy hxy hclash => hxy ?_
    obtain ⟨-,htx,hwx,-,hnx,-⟩ := hsame x hx
    obtain ⟨-,hty,hwy,-,hny,-⟩ := hsame y hy
    unfold WikiDocument.Clashes at hclash
    rwa [htx,hwx,hnx,hty,hwy,hny] at hclash
  · intro e' he' ht'
    obtain ⟨e,he,rfl⟩ := List.mem_map.mp he'
    obtain ⟨-,htemp,hwiki,htitle,-⟩ := hsame e he
    rw [hwiki,htitle]
    exact h.wikiID e he (htemp ▸ ht')
  · intro e' he' ht'
    obtain ⟨e,he,rfl⟩ := List.mem_map.mp he'
    obtain ⟨-,htemp,-,htitle,hn,hg⟩ := hsame e he
    rw [hn,hg,htitle]
    exact h.norm e he (htemp ▸ ht')
  · rw [if_pos hknows]
    unfold titlesOf
    rw [List.filter_map,List.map_map]
    have hfilter : docs.filter ((fun e => decide (e.template = template)) ∘ f) =
        docs.filter fun e => decide (e.template = template) :=
      List.filter_congr fun e he => by simp [(hsame e he).2.1]
    rw [hfilter]
    exact List.map_congr_left fun e he => (hsame e (List.mem_of_mem_filter he)).2.2.2.1
  · intro u c
    have hd' : f d = rewrittenDocument go d content now := if_pos rfl
    split
    · rename_i hu
      constructor
      · rintro ⟨e',he',ht',hn,hc⟩
        obtain ⟨e,he,rfl⟩ := List.mem_map.mp he'
        obtain ⟨-,htemp,-,htitle,-⟩ := hsame e he
        rw [htitle] at hn
        obtain rfl := h.unique he hd (htemp ▸ ht') ht (hn.trans (hu.trans hnorm.symm))
        rw [← hc,hd']
        rfl
      · rintro rfl
        exact ⟨f d,List.mem_map_of_mem hd,hd' ▸ ht,hd' ▸ hnorm.trans hu.symm,hd' ▸ rfl⟩
    · rename_i hu
      have hother : ∀ e ∈ docs, normalizeWikiTitle js e.title = normalizeWikiTitle js u →
          f e = e := by
        intro e he hn
        refine if_neg fun hid => hu ?_
        rw [← hn,hself e he hid,hnorm]
      constructor
      · rintro ⟨e',he',ht',hn,hc⟩
        obtain ⟨e,he,rfl⟩ := List.mem_map.mp he'
        have hn' : normalizeWikiTitle js e.title = normalizeWikiTitle js u :=
          (hsame e he).2.2.2.1 ▸ hn
        rw [hother e he hn'] at ht' hc
        exact ⟨e,he,ht',hn',hc⟩
      · rintro ⟨e,he,ht',hn,hc⟩
        exact ⟨e,hother e he hn ▸ List.mem_map_of_mem he,ht',hn,hc⟩

end write

/-! ## The commit phase -/

/-- The content last written for a title; the latest write is first. -/
def lastWritten (js : String → String) (journal : List (String × String)) (title : String) :
    Option String :=
  (journal.find? fun w => normalizeWikiTitle js w.1 = normalizeWikiTitle js title).map Prod.snd

/-- A template holds what a journal noted. -/
def Journalled (js : String → String) (template : String) (docs : Wikis)
    (journal : List (String × String)) : Prop :=
  ∀ u c, lastWritten js journal u = some c ↔ Holds js template docs u c

section commit

variable {js go : String → String} {docs docs' : Wikis} {template title content : String}
  {journal : List (String × String)}

private theorem Upserted.journalled (h : Upserted js go template docs docs' title content)
    (hj : Journalled js template docs journal) :
    Journalled js template docs' ((title,content) :: journal) := by
  intro u c
  rw [h.holds,lastWritten,List.find?_cons]
  by_cases hu : normalizeWikiTitle js u = normalizeWikiTitle js title
  · simp [hu,eq_comm]
  · simp only [Ne.symm hu,decide_false,if_neg hu]
    exact hj u c

/-- The state after a batch that the service accepts. -/
structure Committed (js go : String → String) (template : String) (docs docs' : Wikis)
    (pairs : List (String × String)) : Prop where
  kept : Kept js go template docs'
  titles : titlesOf template docs' = storedTitles js (titlesOf template docs) (pairs.map Prod.fst)
  apart : (titlesOf template docs').Pairwise (Apart js go)
  journalled : ∀ journal, Journalled js template docs journal →
    Journalled js template docs' (pairs.reverse ++ journal)

private theorem Committed.cons {docs₂ : Wikis} {pairs : List (String × String)}
    (h : Upserted js go template docs docs' title content)
    (hrest : Committed js go template docs' docs₂ pairs) :
    Committed js go template docs docs₂ ((title,content) :: pairs) := by
  refine ⟨hrest.kept,?_,hrest.apart,fun journal hj => ?_⟩
  · rw [hrest.titles,h.titles]
    rfl
  · rw [List.reverse_cons,List.append_assoc]
    exact hrest.journalled _ (h.journalled hj)

/-- The commit phase succeeds just when the service tells the stored titles apart. -/
theorem wikiCommit_cases (clock : Nat → Nat) (written : List String)
    (h : Kept js go template docs) (htemplate : template ∈ knownTemplateIDs)
    (hapart : (titlesOf template docs).Pairwise (Apart js go)) {pairs : List (String × String)}
    (hrefuse : ∀ p ∈ pairs, refuseEntry p.1 p.2 = none) :
    (∃ docs', wikiCommit go docs template clock written
        (planWrites js (titlesOf template docs) pairs) = (docs',.ok ()) ∧
      Committed js go template docs docs' pairs) ∨
    ((∃ docs' error, wikiCommit go docs template clock written
        (planWrites js (titlesOf template docs) pairs) = (docs',.error error)) ∧
      ¬(storedTitles js (titlesOf template docs) (pairs.map Prod.fst)).Pairwise (Apart js go)) := by
  induction pairs generalizing docs written with
  | nil => exact Or.inl ⟨docs,rfl,h,rfl,hapart,fun _ hj => hj⟩
  | cons p pairs ih =>
    obtain ⟨title,content⟩ := p
    have hhead : refuseEntry title content = none := hrefuse (title,content) (by simp)
    have htail : ∀ p ∈ pairs, refuseEntry p.1 p.2 = none := fun p hp => hrefuse p (by simp [hp])
    -- After the first write the rest of the batch is planned over the titles then stored.
    have hcons : ∀ {docs' wiki kind},
        PlannedWikiWrite.apply go docs template (clock written.length)
          ⟨kind,generateWikiId (normalizeWikiTitle js title),title,content⟩ = (docs',.ok wiki) →
        Upserted js go template docs docs' title content →
        (titlesOf template docs').Pairwise (Apart js go) →
        planWrites js (titlesOf template docs) ((title,content) :: pairs) =
          ⟨kind,generateWikiId (normalizeWikiTitle js title),title,content⟩ ::
            planWrites js (titlesOf template docs') pairs →
        (∃ docs', wikiCommit go docs template clock written
            (planWrites js (titlesOf template docs) ((title,content) :: pairs)) = (docs',.ok ()) ∧
          Committed js go template docs docs' ((title,content) :: pairs)) ∨
        ((∃ docs' error, wikiCommit go docs template clock written
            (planWrites js (titlesOf template docs) ((title,content) :: pairs)) =
              (docs',.error error)) ∧
          ¬(storedTitles js (titlesOf template docs)
            (((title,content) :: pairs).map Prod.fst)).Pairwise (Apart js go)) := by
      intro docs' wiki kind happly hup hapart' hplan
      have hstep : wikiCommit go docs template clock written
          (planWrites js (titlesOf template docs) ((title,content) :: pairs)) =
          wikiCommit go docs' template clock (written ++ [title])
            (planWrites js (titlesOf template docs') pairs) := by
        rw [hplan,wikiCommit,happly]
      rw [hstep]
      rcases ih (written ++ [title]) hup.kept hapart' htail with ⟨docs₂,hok,hcommitted⟩ | ⟨herror,hclash⟩
      · exact Or.inl ⟨docs₂,hok,hcommitted.cons hup⟩
      · refine Or.inr ⟨herror,?_⟩
        rw [hup.titles] at hclash
        exact hclash
    cases hknows : knows js (titlesOf template docs) title with
    | true =>
      obtain ⟨docs',wiki,happly,hup⟩ :=
        h.update (clock written.length) htemplate hhead hknows
      have htitles : titlesOf template docs' = titlesOf template docs := by
        rw [hup.titles,if_pos hknows]
      refine hcons happly hup (htitles ▸ hapart) ?_
      rw [planWrites,if_pos hknows,htitles]
    | false =>
      have hnew : ¬knows js (titlesOf template docs) title = true := by simp [hknows]
      by_cases hclash : ∃ t ∈ titlesOf template docs, ¬Apart js go t title
      · refine Or.inr ⟨?_,fun hpair => ?_⟩
        · have happly := h.create_clash (clock written.length) htemplate hhead hclash
          rw [planWrites,if_neg hnew,wikiCommit,happly]
          dsimp only
          split
          · exact ⟨_,_,rfl⟩
          · exact ⟨_,_,rfl⟩
        · obtain ⟨t,ht,hna⟩ := hclash
          have hprefix : titlesOf template docs ++ [title] <+:
              storedTitles js (titlesOf template docs) (((title,content) :: pairs).map Prod.fst) := by
            rw [List.map_cons,storedTitles,if_neg hnew]
            exact prefix_storedTitles
          have hsub := hpair.sublist hprefix.sublist
          exact hna ((List.pairwise_append.mp hsub).2.2 t ht title (by simp))
      · have hfree : ∀ t ∈ titlesOf template docs, Apart js go t title := by
          intro t ht
          by_contra hna
          exact hclash ⟨t,ht,hna⟩
        obtain ⟨docs',wiki,happly,hup⟩ :=
          h.create (clock written.length) htemplate hhead hfree
        have htitles : titlesOf template docs' = titlesOf template docs ++ [title] := by
          rw [hup.titles,if_neg hnew]
        have hapart' : (titlesOf template docs').Pairwise (Apart js go) := by
          rw [htitles,List.pairwise_append]
          exact ⟨hapart,by simp,fun t ht u hu => List.mem_singleton.mp hu ▸ hfree t ht⟩
        refine hcons happly hup hapart' ?_
        rw [planWrites,if_neg hnew,htitles]

end commit

/-! ## What wiki_get answers -/

/-- The answer for one title that has an entry. -/
def retrieved (title content : String) : String :=
  "\n\n".intercalate ["wiki: 1 entry(ies) retrieved.","## " ++ title ++ "\n" ++ content]

/-- The answer for one title that has none. -/
def notRetrieved (title : String) : String :=
  "\n\n".intercalate ["wiki: 1 title(s) not found: " ++ ", ".intercalate ["'" ++ title ++ "'"] ++
    ". Run wiki_search with a keyword to find the exact title, then retry wiki_get."]

/-- `wiki_get` of a title returns the content last written for it. -/
def Answers (js go : String → String) (docs : Wikis) (template : String)
    (journal : List (String × String)) (title : String) : Prop :=
  ∃ t content, lastWritten js journal title = some content ∧
    normalizeWikiTitle js t = normalizeWikiTitle js title ∧
    wikiGet js go docs template [title] = .ok (retrieved t content)

section answers

variable {js go : String → String} {docs : Wikis} {template title content : String}
  {journal : List (String × String)}

private theorem notRetrieved_ne (u : String) : notRetrieved u ≠ retrieved title content := by
  intro h
  have hlist := congrArg (fun s => s.toList.take 9) h
  simp [notRetrieved,retrieved] at hlist

private theorem wikiGet_hit (htrim : Ecma.trim title = title) (hempty : title ≠ "")
    (h : Kept js go template docs) (htemplate : template ∈ knownTemplateIDs) {d : WikiDocument}
    (hd : d ∈ docs) (ht : d.template = template)
    (hres : resolveWiki js go docs template title = .ok (some ⟨(template,d.wikiID),d.title⟩)) :
    wikiGet js go docs template [title] = .ok (retrieved d.title d.content) := by
  have hvalid : validateTemplateName template = .ok () := if_pos htemplate
  have hget : WikiHandler.getWiki docs template d.wikiID = .ok d.toDomain := by
    unfold WikiHandler.getWiki Wikis.getWiki
    rw [hvalid,h.findOne hd ht]
    rfl
  have heach : getEach js go docs template [title] =
      .ok (["## " ++ d.title ++ "\n" ++ d.content],[]) := by
    simp only [getEach,htrim,if_neg hempty,hres,hget]
    rfl
  have hcount : "wiki: " ++ toString 1 ++ " entry(ies) retrieved." =
      "wiki: 1 entry(ies) retrieved." := by decide
  unfold wikiGet
  rw [if_neg (by simp),heach]
  simp only [Except.map,List.length_singleton,hcount,retrieved]
  rfl

private theorem wikiGet_miss (htrim : Ecma.trim title = title) (hempty : title ≠ "")
    (hres : resolveWiki js go docs template title = .ok none) :
    wikiGet js go docs template [title] = .ok (notRetrieved title) := by
  have heach : getEach js go docs template [title] = .ok ([],[title]) := by
    simp only [getEach,htrim,if_neg hempty,hres]
    rfl
  have hcount : "wiki: " ++ toString 1 ++ " title(s) not found: " =
      "wiki: 1 title(s) not found: " := by decide
  unfold wikiGet
  rw [if_neg (by simp),heach]
  simp only [Except.map,List.length_singleton,hcount,notRetrieved]
  rfl

private theorem wikiGet_error (htrim : Ecma.trim title = title) (hempty : title ≠ "")
    {error : RpcError} (hres : resolveWiki js go docs template title = .error error) :
    wikiGet js go docs template [title] = .error error := by
  have heach : getEach js go docs template [title] = .error error := by
    simp only [getEach,htrim,if_neg hempty,hres]
  unfold wikiGet
  rw [if_neg (by simp),heach]
  rfl

private theorem Findable.congr {t u : String} (h : Findable js go t)
    (hn : normalizeWikiTitle js t = normalizeWikiTitle js u) :
    normalizeTitle go (normalizeWikiTitle js u) ≠ "" :=
  hn ▸ h.1

private theorem Kept.answers (h : Kept js go template docs)
    (htemplate : template ∈ knownTemplateIDs)
    (hj : Journalled js template docs journal) (htrim : Ecma.trim title = title)
    (hempty : title ≠ "") (hwritten : (lastWritten js journal title).isSome)
    (hfind : ∀ t ∈ titlesOf template docs,
      Findable js go t ∧ Reachable js go (titlesOf template docs) t) :
    Answers js go docs template journal title := by
  obtain ⟨content,hlast⟩ := Option.isSome_iff_exists.mp hwritten
  obtain ⟨d,hd,ht,hn,rfl⟩ := (hj title content).mp hlast
  obtain ⟨hfound,hreach⟩ := hfind d.title (mem_titlesOf.mpr ⟨d,hd,ht,rfl⟩)
  have hwalk := walks_iff.mpr hreach
  rw [hn] at hwalk
  have hres := h.resolveWiki_of_mem htemplate (hfound.congr hn) hwalk hd ht hn
  rw [if_pos hfound] at hres
  exact ⟨d.title,d.content,hlast,hn,wikiGet_hit htrim hempty h htemplate hd ht hres⟩

private theorem Kept.findable (h : Kept js go template docs)
    (htemplate : template ∈ knownTemplateIDs)
    (htrim : Ecma.trim title = title) (hempty : title ≠ "") {d : WikiDocument} (hd : d ∈ docs)
    (ht : d.template = template) (hn : normalizeWikiTitle js d.title = normalizeWikiTitle js title)
    (hans : Answers js go docs template journal title) :
    Findable js go d.title ∧ Reachable js go (titlesOf template docs) d.title := by
  obtain ⟨t,content,-,-,hget⟩ := hans
  by_cases hquery : normalizeTitle go (normalizeWikiTitle js title) = ""
  · rw [wikiGet_error htrim hempty (resolveWiki_error htemplate hquery)] at hget
    cases hget
  by_cases hwalk : Walks go docs template (normalizeWikiTitle js title)
  · refine ⟨?_,walks_iff.mp (hn ▸ hwalk)⟩
    by_contra hfind
    have hres := h.resolveWiki_of_mem htemplate hquery hwalk hd ht hn
    rw [if_neg hfind] at hres
    rw [wikiGet_miss htrim hempty hres] at hget
    exact notRetrieved_ne _ (Except.ok.inj hget)
  · obtain ⟨error,hres⟩ := h.resolveWiki_refused htemplate hquery hwalk
    rw [wikiGet_error htrim hempty hres] at hget
    cases hget

end answers

/-! ## Sequences of calls -/

inductive WikiLabel
  | write (clock : Nat → Nat) (args : WikiWriteArgs)

/-- Calls of `wiki_write` on a template that starts empty; the wikis of other templates are kept
apart by the unique indexes. -/
def wikiSystem (js go : String → String) (template : String) : Lts Wikis WikiLabel where
  init docs := (docs.map WikiDocument.id).Nodup ∧ (docs.Pairwise fun d e => ¬d.Clashes e) ∧
    ∀ d ∈ docs, d.template ≠ template
  step docs
    | .write clock args => some (wikiWrite js go docs template clock args).1

/-- Arguments that reach the preflight. -/
def WikiWriteArgs.Accepted (args : WikiWriteArgs) : Prop :=
  (args.title.isSome || args.content.isSome) ≠ args.entries.isSome ∧ args.entries ≠ some []

instance (args : WikiWriteArgs) : Decidable args.Accepted :=
  inferInstanceAs (Decidable (_ ∧ _))

/-- The trimmed titles of a call. -/
def WikiWriteArgs.titles (args : WikiWriteArgs) : List String :=
  (normalizeWriteEntries args).map fun entry => entry.pair.1

/-- The preflight of a call. -/
def preflightCall (js go : String → String) (docs : Wikis) (template : String)
    (args : WikiWriteArgs) : Except WikiFailure (List PlannedWikiWrite) :=
  wikiPreflight js go docs template (fun _ => none) 0 (normalizeWriteEntries args)

/-- A journal after the writes of a call; the latest is first. -/
def noteWrites (writes : List PlannedWikiWrite) (journal : List (String × String)) :
    List (String × String) :=
  (writes.map fun w => (w.title,w.content)).reverse ++ journal

/-- The writes of every call that passed its preflight, the latest first. -/
def observeWrites (js go : String → String) (template : String) (docs : Wikis) (l : WikiLabel)
    (_ : Wikis) (journal : List (String × String)) : List (String × String) :=
  match l with
  | .write _ args =>
    if args.Accepted then
      match preflightCall js go docs template args with
      | .ok writes => noteWrites writes journal
      | .error _ => journal
    else journal

/-- The titles that a template would hold after a call are addressable. -/
def CallAddressable (js go : String → String) (template : String) (docs : Wikis)
    (args : WikiWriteArgs) : Prop :=
  Addressable js go (storedTitles js (titlesOf template docs) args.titles)

instance (js go : String → String) (template : String) (docs : Wikis) (args : WikiWriteArgs) :
    Decidable (CallAddressable js go template docs args) :=
  inferInstanceAs (Decidable (Addressable _ _ _))

/-- Every call that passes its preflight leaves addressable titles. -/
def AddressableStep (js go : String → String) (template : String) (docs : Wikis) : WikiLabel → Prop
  | .write _ args => args.Accepted → (∃ writes, preflightCall js go docs template args = .ok writes) →
    CallAddressable js go template docs args

/-- What the runs of addressable calls keep. -/
structure WikiInv (js go : String → String) (template : String) (docs : Wikis)
    (journal : List (String × String)) : Prop where
  kept : Kept js go template docs
  addressable : Addressable js go (titlesOf template docs)
  journalled : Journalled js template docs journal
  written : ∀ w ∈ journal, Ecma.trim w.1 = w.1 ∧ w.1 ≠ ""
  known : journal ≠ [] → template ∈ knownTemplateIDs

section calls

variable {js go : String → String} {docs : Wikis} {template : String} {args : WikiWriteArgs}
  {journal : List (String × String)} {clock : Nat → Nat}

private theorem normalizeWriteEntries_ne_nil (h : args.Accepted) :
    normalizeWriteEntries args ≠ [] := by
  unfold normalizeWriteEntries
  cases hentries : args.entries with
  | none => simp
  | some entries =>
    rintro rfl
    exact h.2 hentries

private theorem template_known {writes : List PlannedWikiWrite} (h : args.Accepted)
    (hok : preflightCall js go docs template args = .ok writes) : template ∈ knownTemplateIDs := by
  by_contra htemplate
  have hvalid : validateTemplateName template = .error (invalidArgument "invalid template") :=
    if_neg htemplate
  have hres : ∀ title, resolveWiki js go docs template title =
      .error (invalidArgument "invalid template") := by
    intro title
    have hsearch : WikiHandler.searchWikis go docs template (normalizeWikiTitle js title)
        wikiSearchPageSize none = .error (invalidArgument "invalid template") := by
      unfold WikiHandler.searchWikis
      rw [hvalid]
      rfl
    rw [resolveWiki,searchAll,searchFrom,hsearch]
    rfl
  unfold preflightCall at hok
  cases hentries : normalizeWriteEntries args with
  | nil => exact normalizeWriteEntries_ne_nil h hentries
  | cons entry entries =>
    rw [hentries,wikiPreflight] at hok
    simp only [hres] at hok
    split at hok <;> cases hok

private theorem wikiWrite_refused
    (h : args.Accepted → ¬∃ writes, preflightCall js go docs template args = .ok writes) :
    (wikiWrite js go docs template clock args).1 = docs := by
  unfold wikiWrite
  dsimp only
  split
  · rfl
  rename_i hboth
  split
  · rfl
  rename_i hnone
  split
  · rfl
  rename_i hempty
  have haccepted : args.Accepted := by
    refine ⟨fun heq => ?_,hempty⟩
    rw [heq] at hboth hnone
    cases hentries : args.entries.isSome <;> simp [hentries] at hboth hnone
  split
  · rfl
  · rfl
  · rename_i writes hok
    exact absurd ⟨writes,hok⟩ (h haccepted)

/-- A call that passes its preflight succeeds just when its commit phase does. -/
theorem wikiWrite_accepted {writes : List PlannedWikiWrite} (clock : Nat → Nat)
    (h : args.Accepted) (hok : preflightCall js go docs template args = .ok writes) :
    (wikiWrite js go docs template clock args).1 =
        (wikiCommit go docs template clock [] writes).1 ∧
      ((∃ text, (wikiWrite js go docs template clock args).2 = .ok text) ↔
        (wikiCommit go docs template clock [] writes).2 = .ok ()) := by
  obtain ⟨hne,hempty⟩ := h
  have hboth : ((args.title.isSome || args.content.isSome) && args.entries.isSome) = false := by
    revert hne
    cases (args.title.isSome || args.content.isSome) <;> cases args.entries.isSome <;> simp
  have hsome : (!(args.title.isSome || args.content.isSome) && !args.entries.isSome) = false := by
    revert hne
    cases (args.title.isSome || args.content.isSome) <;> cases args.entries.isSome <;> simp
  have hok' : wikiPreflight js go docs template (fun _ => none) 0 (normalizeWriteEntries args) =
      .ok writes := hok
  unfold wikiWrite
  dsimp only
  rw [hboth,hsome,if_neg (by simp),if_neg (by simp),if_neg hempty,hok']
  rcases hcommit : wikiCommit go docs template clock [] writes with ⟨docs',error | ⟨⟩⟩ <;>
    simp [hcommit]

private theorem planWrites_pairs {known : List String} {pairs : List (String × String)} :
    (planWrites js known pairs).map (fun w => (w.title,w.content)) = pairs := by
  induction pairs generalizing known with
  | nil => rfl
  | cons p pairs ih =>
    obtain ⟨title,content⟩ := p
    rw [planWrites]
    split
    · rw [List.map_cons,ih]
    · rw [List.map_cons,ih]

private theorem mem_storedTitles {known titles : List String} {t : String}
    (ht : t ∈ storedTitles js known titles) : t ∈ known ∨ t ∈ titles := by
  induction titles generalizing known with
  | nil => exact Or.inl ht
  | cons title titles ih =>
    rw [storedTitles] at ht
    rcases ih ht with hk | hrest
    · split at hk
      · exact Or.inl hk
      · rcases List.mem_append.mp hk with hk | hk
        · exact Or.inl hk
        · exact Or.inr (List.mem_cons.mpr (Or.inl (List.mem_singleton.mp hk)))
    · exact Or.inr (List.mem_cons_of_mem _ hrest)

private theorem WikiInv.preflight {writes : List PlannedWikiWrite}
    (h : WikiInv js go template docs journal)
    (haccepted : args.Accepted) (hok : preflightCall js go docs template args = .ok writes) :
    writes = planWrites js (titlesOf template docs)
        ((normalizeWriteEntries args).map WikiWriteEntry.pair) ∧
      ∀ p ∈ (normalizeWriteEntries args).map WikiWriteEntry.pair, refuseEntry p.1 p.2 = none := by
  have hplanned : Planned js template docs (titlesOf template docs) fun _ => none :=
    ⟨fun _ _ hid => absurd hid (by simp),fun _ _ => Iff.rfl⟩
  obtain ⟨hwrites,hrefuse⟩ := wikiPreflight_ok h.kept (template_known haccepted hok)
    (fun title htitle => (h.addressable.2 title htitle).1) hplanned hok
  refine ⟨hwrites,fun p hp => ?_⟩
  obtain ⟨entry,hentry,rfl⟩ := List.mem_map.mp hp
  exact hrefuse entry hentry

private theorem refuseEntry_title {entry : WikiWriteEntry}
    (h : refuseEntry entry.pair.1 entry.pair.2 = none) :
    Ecma.trim entry.pair.1 = entry.pair.1 ∧ entry.pair.1 ≠ "" := by
  refine ⟨Ecma.trim_trim _,fun hempty => ?_⟩
  rw [refuseEntry,if_pos hempty] at h
  cases h

private theorem WikiInv.answers (h : WikiInv js go template docs journal) :
    ∀ w ∈ journal, Answers js go docs template journal w.1 := by
  intro w hw
  obtain ⟨htrim,hempty⟩ := h.written w hw
  have hlast : (lastWritten js journal w.1).isSome := by
    unfold lastWritten
    rw [Option.isSome_map,List.find?_isSome]
    exact ⟨w,hw,by simp⟩
  exact h.kept.answers (h.known (List.ne_nil_of_mem hw)) h.journalled htrim hempty hlast
    h.addressable.2

private theorem WikiInv.note {writes : List PlannedWikiWrite} {docs' : Wikis}
    (h : WikiInv js go template docs journal) (haccepted : args.Accepted)
    (hok : preflightCall js go docs template args = .ok writes)
    (hcommitted : Committed js go template docs docs'
      ((normalizeWriteEntries args).map WikiWriteEntry.pair))
    (hfind : ∀ t ∈ titlesOf template docs',
      Findable js go t ∧ Reachable js go (titlesOf template docs') t) :
    WikiInv js go template docs' (noteWrites writes journal) := by
  obtain ⟨hwrites,hrefuse⟩ := h.preflight haccepted hok
  have hnote : noteWrites writes journal =
      ((normalizeWriteEntries args).map WikiWriteEntry.pair).reverse ++ journal := by
    rw [noteWrites,hwrites,planWrites_pairs]
  refine ⟨hcommitted.kept,⟨hcommitted.apart,hfind⟩,hnote ▸ hcommitted.journalled _ h.journalled,
    ?_,fun _ => template_known haccepted hok⟩
  rw [hnote]
  intro w hw
  rcases List.mem_append.mp hw with hw | hw
  · have hp := List.mem_reverse.mp hw
    obtain ⟨entry,-,rfl⟩ := List.mem_map.mp hp
    exact refuseEntry_title (hrefuse _ hp)
  · exact h.written w hw

private theorem titles_eq : args.titles =
    ((normalizeWriteEntries args).map WikiWriteEntry.pair).map Prod.fst := by
  rw [List.map_map]
  rfl

private theorem WikiInv.call {writes : List PlannedWikiWrite}
    (h : WikiInv js go template docs journal)
    (haccepted : args.Accepted) (hok : preflightCall js go docs template args = .ok writes)
    (haddressable : CallAddressable js go template docs args) :
    (∃ text, (wikiWrite js go docs template clock args).2 = .ok text) ∧
      WikiInv js go template (wikiWrite js go docs template clock args).1
        (noteWrites writes journal) := by
  obtain ⟨hwrites,hrefuse⟩ := h.preflight haccepted hok
  obtain ⟨hdocs,htext⟩ := wikiWrite_accepted clock haccepted hok
  unfold CallAddressable at haddressable
  rw [titles_eq] at haddressable
  rcases wikiCommit_cases clock [] h.kept (template_known haccepted hok)
    h.addressable.1 hrefuse with ⟨docs',hcommit,hcommitted⟩ | ⟨-,hclash⟩
  · rw [← hwrites] at hcommit
    rw [hcommit] at hdocs htext
    rw [hdocs]
    refine ⟨htext.mpr rfl,h.note haccepted hok hcommitted ?_⟩
    rw [hcommitted.titles]
    exact haddressable.2
  · exact absurd haddressable.1 hclash

/-- A call that is written and whose titles all answer has addressable titles. -/
theorem WikiInv.addressable_of_answers {writes : List PlannedWikiWrite}
    (h : WikiInv js go template docs journal) (haccepted : args.Accepted)
    (hok : preflightCall js go docs template args = .ok writes)
    (htext : ∃ text, (wikiWrite js go docs template clock args).2 = .ok text)
    (hans : ∀ w ∈ noteWrites writes journal, Answers js go
      (wikiWrite js go docs template clock args).1 template (noteWrites writes journal) w.1) :
    CallAddressable js go template docs args := by
  obtain ⟨hwrites,hrefuse⟩ := h.preflight haccepted hok
  obtain ⟨hdocs,htext'⟩ := wikiWrite_accepted clock haccepted hok
  have hresult := htext'.mp htext
  unfold CallAddressable
  rw [titles_eq]
  rcases wikiCommit_cases clock [] h.kept (template_known haccepted hok)
    h.addressable.1 hrefuse with ⟨docs',hcommit,hcommitted⟩ | ⟨⟨docs',error,herror⟩,-⟩
  · rw [← hwrites] at hcommit
    rw [hcommit] at hdocs
    rw [hdocs] at hans
    rw [← hcommitted.titles]
    refine ⟨hcommitted.apart,fun t ht => ?_⟩
    have ht' := ht
    obtain ⟨d,hd,htemp,rfl⟩ := mem_titlesOf.mp ht
    -- The title of the entry, or one like it, was written by this call or an earlier one.
    obtain ⟨w,hw,hnorm,htrim,hempty⟩ : ∃ w ∈ noteWrites writes journal,
        normalizeWikiTitle js d.title = normalizeWikiTitle js w.1 ∧
          Ecma.trim w.1 = w.1 ∧ w.1 ≠ "" := by
      rw [noteWrites,hwrites,planWrites_pairs]
      rw [hcommitted.titles] at ht'
      rcases mem_storedTitles ht' with hk | hnew
      · obtain ⟨e,he,hte,htitle⟩ := mem_titlesOf.mp hk
        have hlast := (h.journalled e.title e.content).mpr ⟨e,he,hte,rfl,rfl⟩
        obtain ⟨w,hfind,-⟩ := Option.map_eq_some_iff.mp hlast
        have hw := List.mem_of_find?_eq_some hfind
        have hnorm := List.find?_some hfind
        obtain ⟨htrim,hempty⟩ := h.written w hw
        rw [htitle] at hnorm
        exact ⟨w,List.mem_append_right _ hw,(by simpa using hnorm : _ = _).symm,htrim,hempty⟩
      · obtain ⟨p,hp,htitle⟩ := List.mem_map.mp hnew
        have hpair := hrefuse p hp
        obtain ⟨entry,hentry,rfl⟩ := List.mem_map.mp hp
        obtain ⟨htrim,hempty⟩ := refuseEntry_title hpair
        exact ⟨entry.pair,List.mem_append_left _ (List.mem_reverse.mpr hp),
          congrArg (normalizeWikiTitle js) htitle.symm,htrim,hempty⟩
    exact hcommitted.kept.findable (template_known haccepted hok) htrim hempty hd htemp hnorm
      (hans w hw)
  · rw [← hwrites] at herror
    rw [herror] at hresult
    cases hresult

private theorem wikiInv_reach {x : Wikis × List (String × String)}
    (h : Lts.ReachUnder ((wikiSystem js go template).journaled (observeWrites js go template) [])
      (fun x l => AddressableStep js go template x.1 l) x) : WikiInv js go template x.1 x.2 := by
  induction h with
  | init hx =>
    obtain ⟨⟨hids,hapart,hnone⟩,hj⟩ := hx
    rw [hj]
    have htitles : ∀ t, ¬t ∈ titlesOf template _ := fun t ht => by
      obtain ⟨d,hd,htemplate,-⟩ := mem_titlesOf.mp ht
      exact hnone d hd htemplate
    refine ⟨⟨hids,hapart,fun d hd ht => absurd ht (hnone d hd),
      fun d hd ht => absurd ht (hnone d hd)⟩,⟨?_,fun t ht => absurd ht (htitles t)⟩,?_,by simp,
      fun hne => absurd rfl hne⟩
    · rw [List.eq_nil_iff_forall_not_mem.mpr htitles]
      exact List.Pairwise.nil
    · intro u c
      constructor
      · rintro ⟨⟩
      · rintro ⟨d,hd,ht,-⟩
        exact absurd ht (hnone d hd)
  | @step x y l _ hC hstep ih =>
    obtain ⟨hs,hj⟩ := Lts.journaled_step.mp hstep
    obtain ⟨clock,args⟩ := l
    rw [hj,← Option.some.inj hs]
    simp only [observeWrites]
    by_cases hpass : args.Accepted ∧ ∃ writes, preflightCall js go x.1 template args = .ok writes
    · obtain ⟨haccepted,writes,hok⟩ := hpass
      simp only [if_pos haccepted,hok]
      exact (ih.call haccepted hok (hC haccepted ⟨writes,hok⟩)).2
    · rw [wikiWrite_refused fun ha hw => hpass ⟨ha,hw⟩]
      split
      · rename_i haccepted
        split
        · rename_i writes hok
          exact absurd ⟨haccepted,writes,hok⟩ hpass
        · exact ih
      · exact ih

/-- As long as the titles that a template holds are addressable, `wiki_get` of every written title
returns the content last written for it; and a call that passes its preflight is written with that
result just when the titles then held are addressable. -/
theorem upsert_addresses_iff (js go : String → String) (template : String) :
    ∀ x, Lts.ReachUnder
        ((wikiSystem js go template).journaled (observeWrites js go template) [])
        (fun x l => AddressableStep js go template x.1 l) x →
      (∀ w ∈ x.2, Answers js go x.1 template x.2 w.1) ∧
      ∀ clock args writes, args.Accepted → preflightCall js go x.1 template args = .ok writes →
        (((∃ text, (wikiWrite js go x.1 template clock args).2 = .ok text) ∧
            ∀ w ∈ noteWrites writes x.2, Answers js go
              (wikiWrite js go x.1 template clock args).1 template (noteWrites writes x.2) w.1) ↔
          CallAddressable js go template x.1 args) := by
  intro x hx
  have h := wikiInv_reach hx
  refine ⟨h.answers,fun clock args writes haccepted hok => ⟨?_,?_⟩⟩
  · rintro ⟨htext,hans⟩
    exact h.addressable_of_answers haccepted hok htext hans
  · intro haddressable
    obtain ⟨htext,hinv⟩ := h.call haccepted hok haddressable
    exact ⟨htext,hinv.answers⟩

end calls

/-! ## Two spellings of a title -/

def writeOne (title content : String) : WikiLabel :=
  .write (fun _ => 0) { title := some title, content := some content }

private theorem wikiSystem_init :
    ((wikiSystem id id "saolei").journaled (observeWrites id id "saolei") []).init ([],[]) :=
  ⟨⟨by simp,by simp,by simp⟩,rfl⟩

/-- Another spelling of a title updates its entry. -/
theorem upsert_addresses_iff_demo :
    ∃ x, Lts.ReachUnder ((wikiSystem id id "saolei").journaled (observeWrites id id "saolei") [])
        (fun x l => AddressableStep id id "saolei" x.1 l) x ∧
      Answers id id x.1 "saolei" x.2 "Tip" ∧
      ∃ text, (wikiWrite id id x.1 "saolei" (fun _ => 0)
        { title := some "other", content := some "c" }).2 = .ok text := by
  obtain ⟨x,hx,hp⟩ := Lts.reachUnder_of_runUnder_any
    (M := (wikiSystem id id "saolei").journaled (observeWrites id id "saolei") [])
    (C := fun x l => AddressableStep id id "saolei" x.1 l)
    (c := fun x l => match l with
      | .write _ args => decide (CallAddressable id id "saolei" x.1 args))
    (p := fun x => decide (x.2 = [("TIP","new"),("Tip","old")]) &&
      decide (CallAddressable id id "saolei" x.1 { title := some "other", content := some "c" }) &&
      (preflightCall id id x.1 "saolei"
        { title := some "other", content := some "c" }).toOption.isSome)
    (fun s l hc => by
      obtain ⟨clock,args⟩ := l
      exact fun _ _ => of_decide_eq_true hc)
    [writeOne "Tip" "old",writeOne "TIP" "new"] (.init wikiSystem_init) (by decide +kernel)
  simp only [Bool.and_eq_true,decide_eq_true_eq] at hp
  obtain ⟨⟨hj,haddressable⟩,hpass⟩ := hp
  have h := upsert_addresses_iff id id "saolei" x hx
  refine ⟨x,hx,h.1 ("Tip","old") (by simp [hj]),?_⟩
  cases hok : preflightCall id id x.1 "saolei" { title := some "other", content := some "c" } with
  | error e =>
    rw [hok] at hpass
    cases hpass
  | ok writes => exact ((h.2 (fun _ => 0) _ writes (by decide) hok).mpr haddressable).1

/-- A dotted capital I: the client finds no entry, and the service refuses a second one. -/
theorem dotted_title_conflicts :
    ¬∀ x, Lts.Reach ((wikiSystem id id "saolei").journaled (observeWrites id id "saolei") []) x →
      ∀ clock args writes, args.Accepted → preflightCall id id x.1 "saolei" args = .ok writes →
        ∃ text, (wikiWrite id id x.1 "saolei" clock args).2 = .ok text := by
  intro h
  obtain ⟨x,hx,hp⟩ := Lts.reach_of_run_any
    (M := (wikiSystem id id "saolei").journaled (observeWrites id id "saolei") [])
    (p := fun x => (preflightCall id id x.1 "saolei"
        { title := some "İstanbul", content := some "new" }).toOption.isSome &&
      !(wikiWrite id id x.1 "saolei" (fun _ => 0)
        { title := some "İstanbul", content := some "new" }).2.toOption.isSome)
    [writeOne "İstanbul" "old"] (.init wikiSystem_init) (by decide +kernel)
  rw [Bool.and_eq_true] at hp
  obtain ⟨hpass,hfail⟩ := hp
  cases hok : preflightCall id id x.1 "saolei"
      { title := some "İstanbul", content := some "new" } with
  | error e =>
    rw [hok] at hpass
    cases hpass
  | ok writes =>
    obtain ⟨text,htext⟩ := h x hx (fun _ => 0) _ writes (by decide) hok
    rw [htext] at hfail
    cases hfail

end Dominion.Memory
