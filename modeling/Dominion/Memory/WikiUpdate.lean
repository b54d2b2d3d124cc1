import Dominion.Framework.Lts
import Dominion.Memory.Wiki
import Mathlib.Data.List.Pairwise
import Mathlib.Logic.Function.Basic

/-! # Concurrent updates of wikis

Every `UpdateWiki` reads, merges its masked fields and writes the whole document back, in three
calls of the storage.  A journal notes what each commit set and how many commits its read had
seen. -/
namespace Dominion.Memory

open Dominion.Framework

inductive Phase
  /-- Before its `GetWiki`. -/
  | reading
  /-- Before the `FindOne` of the repository. -/
  | merged (wiki : Wiki)
  /-- Before the `ReplaceOne`. -/
  | replacing (doc : WikiDocument)
  | done (result : Except RpcError Wiki)

structure UpdateCall where
  req : UpdateWikiRequest
  mask : Bool × Bool
  phase : Phase

structure UpdateState where
  docs : Wikis
  calls : List UpdateCall := []

inductive UpdateLabel
  | start (req : UpdateWikiRequest)
  | get (call now : Nat)
  | find (call : Nat)
  | replace (call : Nat)

namespace UpdateState

def setPhase (s : UpdateState) (i : Nat) (call : UpdateCall) (phase : Phase) : UpdateState :=
  { s with calls := s.calls.set i { call with phase } }

def start (s : UpdateState) (req : UpdateWikiRequest) : UpdateState :=
  match validateUpdate req with
  | .error error => { s with calls := s.calls ++ [⟨req,(false,false),.done (.error error)⟩] }
  | .ok mask => { s with calls := s.calls ++ [⟨req,mask,.reading⟩] }

def get (s : UpdateState) (i now : Nat) : Option UpdateState :=
  match s.calls[i]? with
  | some ⟨req,mask,.reading⟩ =>
    match s.docs.getWiki req.template req.wikiID with
    | .error error => some (s.setPhase i ⟨req,mask,.reading⟩ (.done (.error error)))
    | .ok existing =>
      some (s.setPhase i ⟨req,mask,.reading⟩ (.merged (mergeUpdate req mask now existing)))
  | _ => none

def find (nfkc : String → String) (s : UpdateState) (i : Nat) : Option UpdateState :=
  match s.calls[i]? with
  | some ⟨req,mask,.merged wiki⟩ =>
    match s.docs.prepareReplacement nfkc wiki with
    | .error error => some (s.setPhase i ⟨req,mask,.merged wiki⟩ (.done (.error error)))
    | .ok doc => some (s.setPhase i ⟨req,mask,.merged wiki⟩ (.replacing doc))
  | _ => none

def replace (s : UpdateState) (i : Nat) : Option UpdateState :=
  match s.calls[i]? with
  | some ⟨req,mask,.replacing doc⟩ =>
    let r := s.docs.commitReplacement doc
    some { s.setPhase i ⟨req,mask,.replacing doc⟩ (.done r.2) with docs := r.1 }
  | _ => none

end UpdateState

/-- Updates of the wikis of a collection whose documents differ in their ids and do not clash. -/
def updateSystem (nfkc : String → String) : Lts UpdateState UpdateLabel where
  init s := s.calls = [] ∧ (s.docs.map WikiDocument.id).Nodup ∧
    s.docs.Pairwise fun d e => ¬d.Clashes e
  step s
    | .start req => some (s.start req)
    | .get i now => s.get i now
    | .find i => s.find nfkc i
    | .replace i => s.replace i

inductive Field
  | title
  | content
  deriving DecidableEq, Repr

def Wiki.value (w : Wiki) : Field → String
  | .title => w.title
  | .content => w.content

def WikiDocument.value (d : WikiDocument) : Field → String
  | .title => d.title
  | .content => d.content

/-- What a call sets a field to, if its mask covers it. -/
def UpdateCall.sets (c : UpdateCall) : Field → Option String
  | .title => if c.mask.1 then some c.req.title else none
  | .content => if c.mask.2 then some c.req.content else none

/-- A committed update. -/
structure Commit where
  call : Nat
  update : UpdateCall
  /-- The number of commits that its read had seen. -/
  readAt : Nat

def Commit.on (c : Commit) (template wikiID : String) : Prop :=
  c.update.req.template = template ∧ c.update.req.wikiID = wikiID

structure UpdateJournal where
  /-- The latest commit first. -/
  commits : List Commit := []
  reads : Nat → Nat := fun _ => 0

def observeUpdate (s : UpdateState) (l : UpdateLabel) (s' : UpdateState) (j : UpdateJournal) :
    UpdateJournal :=
  match l with
  | .get i _ => { j with reads := Function.update j.reads i j.commits.length }
  | .replace i =>
    match s.calls[i]?,s'.calls[i]? with
    | some call,some ⟨_,_,.done (.ok _)⟩ => { j with commits := ⟨i,call,j.reads i⟩ :: j.commits }
    | _,_ => j
  | _ => j

/-- The value of a field shows every commit that no later one overwrote or undid. -/
def Shows (commits : List Commit) (template wikiID : String) (f : Field) (value : String) : Prop :=
  ∀ later c earlier, commits = later ++ c :: earlier → c.on template wikiID →
    (∀ c' ∈ later, c'.on template wikiID → c'.update.sets f = none ∧ earlier.length < c'.readAt) →
    ∀ v, c.update.sets f = some v → value = v

/-! ## What a commit leaves visible -/

section shows

variable {commits newer past : List Commit} {template wikiID v : String} {f : Field} {c : Commit}

private theorem Shows.set (hset : c.update.sets f = some v) (hon : c.on template wikiID) :
    Shows (c :: commits) template wikiID f v := by
  intro later c' earlier he hon' hlater w hw
  cases later with
  | nil =>
    obtain ⟨rfl,-⟩ := List.cons.inj he
    rw [hset] at hw
    exact Option.some.inj hw
  | cons c'' later =>
    obtain ⟨rfl,-⟩ := List.cons.inj he
    have hnone := (hlater c (by simp) hon).1
    rw [hset] at hnone
    cases hnone

/-- A commit that leaves the field as its read saw it undoes only what was committed since. -/
theorem Shows.carry (h : Shows past template wikiID f v) (hsplit : commits = newer ++ past)
    (hread : c.readAt = past.length) (hnone : c.update.sets f = none) (hon : c.on template wikiID) :
    Shows (c :: commits) template wikiID f v := by
  intro later c' earlier he hon' hlater w hw
  cases later with
  | nil =>
    obtain ⟨rfl,-⟩ := List.cons.inj he
    rw [hnone] at hw
    cases hw
  | cons c'' later =>
    obtain ⟨rfl,htail⟩ := List.cons.inj he
    have hlt := (hlater c (by simp) hon).2
    rw [hread] at hlt
    -- the commit lies among those that the read had seen
    obtain ⟨rest,rfl,hpast⟩ : ∃ rest, later = newer ++ rest ∧ past = rest ++ c' :: earlier := by
      rw [hsplit] at htail
      rcases List.append_eq_append_iff.mp htail with ⟨k,hk,hk'⟩ | ⟨k,hk,hk'⟩
      · exact ⟨k,hk,hk'⟩
      · have hlen := congrArg List.length hk'
        simp only [List.length_append,List.length_cons] at hlen
        have hnil : k = [] := by
          apply List.eq_nil_of_length_eq_zero
          omega
        subst hnil
        exact ⟨[],by simpa using hk.symm,by simpa using hk'.symm⟩
    exact h rest c' earlier hpast hon' (fun d hd => hlater d (by simp [hd])) w hw

private theorem Shows.skip (h : Shows commits template wikiID f v) (hoff : ¬c.on template wikiID) :
    Shows (c :: commits) template wikiID f v := by
  intro later c' earlier he hon' hlater w hw
  cases later with
  | nil =>
    obtain ⟨rfl,-⟩ := List.cons.inj he
    exact absurd hon' hoff
  | cons c'' later =>
    obtain ⟨rfl,htail⟩ := List.cons.inj he
    exact h later c' earlier htail hon' (fun d hd => hlater d (by simp [hd])) w hw

end shows

/-! ## The storage -/

section storage

variable {nfkc : String → String} {docs docs' : Wikis} {d e doc : WikiDocument}
  {template wikiID : String}

theorem clashes_symm : d.Clashes e ↔ e.Clashes d := by
  unfold WikiDocument.Clashes
  constructor
  · rintro ⟨ht,h⟩
    exact ⟨ht.symm,h.imp Eq.symm Eq.symm⟩
  · rintro ⟨ht,h⟩
    exact ⟨ht.symm,h.imp Eq.symm Eq.symm⟩

theorem mem_of_findOne (h : docs.findOne template wikiID = some d) :
    d ∈ docs ∧ d.template = template ∧ d.wikiID = wikiID :=
  ⟨List.mem_of_find?_eq_some h,by simpa using List.find?_some h⟩

theorem eq_of_clashes (h : docs.Pairwise fun d e => ¬d.Clashes e) (hd : d ∈ docs) (he : e ∈ docs)
    (hc : d.Clashes e) : d = e := by
  by_contra hne
  have hsymm : Std.Symm fun d e : WikiDocument => ¬d.Clashes e := ⟨fun _ _ h h' => h (clashes_symm.mp h')⟩
  exact h.forall hd he hne hc

/-- What a replacement does: it fails and changes nothing, or it replaces the one document. -/
theorem commitReplacement_cases :
    ((docs.commitReplacement doc).1 = docs ∧ ∃ error, (docs.commitReplacement doc).2 = .error error) ∨
    ∃ d, docs.findOne doc.template doc.wikiID = some d ∧
      (∀ e ∈ docs, e.id ≠ d.id → ¬e.Clashes doc) ∧
      docs.commitReplacement doc =
        (docs.map fun e => if e.id = d.id then { doc with id := d.id } else e,.ok doc.toDomain) := by
  unfold Wikis.commitReplacement Wikis.replaceOne
  cases h : docs.findOne doc.template doc.wikiID with
  | none => exact Or.inl ⟨rfl,_,rfl⟩
  | some d =>
    by_cases hany : (docs.any fun e => decide (e.id ≠ d.id) && decide (e.Clashes doc)) = true
    · left
      simp only [if_pos hany]
      exact ⟨trivial,_,rfl⟩
    · right
      refine ⟨d,rfl,?_,by simp only [if_neg hany]; rfl⟩
      intro e he hne hc
      exact hany (List.any_eq_true.mpr ⟨e,he,by simp [hne,hc]⟩)

end storage

/-! ## The invariant -/

/-- A call carries the masked fields of its request and, for the others, what its read saw. -/
structure Carries (j : UpdateJournal) (i : Nat) (call : UpdateCall) (template wikiID : String)
    (value : Field → String) : Prop where
  onTemplate : template = call.req.template
  onWiki : wikiID = call.req.wikiID
  seen : ∃ newer past, j.commits = newer ++ past ∧ past.length = j.reads i ∧
    ∀ f, (∀ v, call.sets f = some v → value f = v) ∧
      (call.sets f = none → Shows past template wikiID f (value f))

def UpdateCall.Consistent (j : UpdateJournal) (i : Nat) (call : UpdateCall) : Prop :=
  match call.phase with
  | .reading => True
  | .merged wiki => Carries j i call wiki.template wiki.wikiID wiki.value
  | .replacing doc => Carries j i call doc.template doc.wikiID doc.value
  | .done (.ok _) => ∃ c ∈ j.commits, c.call = i ∧ c.update.req = call.req ∧ c.update.mask = call.mask
  | .done (.error _) => True

structure UpdateInv (s : UpdateState) (j : UpdateJournal) : Prop where
  ids : (s.docs.map WikiDocument.id).Nodup
  apart : s.docs.Pairwise fun d e => ¬d.Clashes e
  current : ∀ d ∈ s.docs, ∀ f, Shows j.commits d.template d.wikiID f (d.value f)
  calls : ∀ (i : Nat) call, s.calls[i]? = some call → call.Consistent j i

section invariant

variable {nfkc : String → String} {s s' : UpdateState} {j : UpdateJournal} {i k : Nat}
  {call : UpdateCall}

private theorem Carries.grow {template wikiID : String} {value : Field → String} {c : Commit}
    (h : Carries j k call template wikiID value) :
    Carries { j with commits := c :: j.commits } k call template wikiID value := by
  obtain ⟨newer,past,hsplit,hlen,hfields⟩ := h.seen
  have hsplit' : c :: j.commits = (c :: newer) ++ past := by rw [hsplit,List.cons_append]
  exact ⟨h.onTemplate,h.onWiki,c :: newer,past,hsplit',hlen,hfields⟩

private theorem UpdateCall.Consistent.grow {c : Commit} (h : call.Consistent j k) :
    call.Consistent { j with commits := c :: j.commits } k := by
  unfold UpdateCall.Consistent at h ⊢
  split at h
  · trivial
  · exact h.grow
  · exact h.grow
  · obtain ⟨c',hc',hcall⟩ := h
    exact ⟨c',List.mem_cons_of_mem _ hc',hcall⟩
  · trivial

private theorem UpdateCall.Consistent.read (h : call.Consistent j k) (hne : k ≠ i) (n : Nat) :
    call.Consistent { j with reads := Function.update j.reads i n } k := by
  have hcarries : ∀ {template wikiID value}, Carries j k call template wikiID value →
      Carries { j with reads := Function.update j.reads i n } k call template wikiID value := by
    intro template wikiID value hc
    obtain ⟨newer,past,hsplit,hlen,hfields⟩ := hc.seen
    refine ⟨hc.onTemplate,hc.onWiki,newer,past,hsplit,?_,hfields⟩
    show past.length = Function.update j.reads i n k
    rw [Function.update_of_ne hne,hlen]
  unfold UpdateCall.Consistent at h ⊢
  split at h
  · trivial
  · exact hcarries h
  · exact hcarries h
  · exact h
  · trivial

private theorem calls_setPhase {phase : Phase} {j' : UpdateJournal}
    (hold : ∀ (k : Nat) c, s.calls[k]? = some c → k ≠ i → c.Consistent j' k)
    (hnew : UpdateCall.Consistent j' i { call with phase }) :
    ∀ (k : Nat) c, (s.setPhase i call phase).calls[k]? = some c → c.Consistent j' k := by
  intro k c hk
  by_cases hki : k = i
  · subst hki
    have hc : c = { call with phase } := by
      rw [UpdateState.setPhase,List.getElem?_set_self'] at hk
      obtain ⟨_,-,hc⟩ := Option.map_eq_some_iff.mp hk
      exact hc.symm
    exact hc ▸ hnew
  · have hk' : s.calls[k]? = some c := by
      rwa [UpdateState.setPhase,List.getElem?_set_ne (Ne.symm hki)] at hk
    exact hold k c hk' hki

private theorem UpdateInv.start (h : UpdateInv s j) (req : UpdateWikiRequest) :
    UpdateInv (s.start req) j := by
  have hnew : ∀ c : UpdateCall, (c.phase = .reading ∨ ∃ error, c.phase = .done (.error error)) →
      UpdateInv { s with calls := s.calls ++ [c] } j := by
    intro c hc
    refine ⟨h.ids,h.apart,h.current,fun k call hk => ?_⟩
    rcases Nat.lt_or_ge k s.calls.length with hlt | hge
    · exact h.calls k call (by rwa [List.getElem?_append_left hlt] at hk)
    · rw [List.getElem?_append_right hge] at hk
      obtain rfl : c = call := by
        cases hk' : k - s.calls.length with
        | zero => simpa [hk'] using hk
        | succ n => simp [hk'] at hk
      rcases hc with hc | ⟨error,hc⟩ <;> simp [UpdateCall.Consistent,hc]
  unfold UpdateState.start
  split
  · exact hnew _ (Or.inr ⟨_,rfl⟩)
  · exact hnew _ (Or.inl rfl)

private theorem mergeUpdate_value {req : UpdateWikiRequest} {mask : Bool × Bool} {now : Nat}
    {existing : Wiki} (phase : Phase) (f : Field) :
    (mergeUpdate req mask now existing).value f =
      ((⟨req,mask,phase⟩ : UpdateCall).sets f).getD (existing.value f) := by
  cases f with
  | title => rcases mask with ⟨_ | _,b⟩ <;> rfl
  | content => rcases mask with ⟨b,_ | _⟩ <;> rfl

private theorem UpdateInv.get {now : Nat} (h : UpdateInv s j) (hs : s.get i now = some s') :
    UpdateInv s' (observeUpdate s (.get i now) s' j) := by
  unfold UpdateState.get at hs
  split at hs
  · rename_i req mask hcall
    have hold : ∀ (k : Nat) c, s.calls[k]? = some c → k ≠ i →
        c.Consistent (observeUpdate s (.get i now) s' j) k := fun k c hk hne =>
      (h.calls k c hk).read hne _
    split at hs
    · cases hs
      exact ⟨h.ids,h.apart,h.current,calls_setPhase hold trivial⟩
    · rename_i existing hget
      cases hs
      refine ⟨h.ids,h.apart,h.current,calls_setPhase hold ?_⟩
      unfold Wikis.getWiki at hget
      split at hget
      · cases hget
      · rename_i d hfind
        cases hget
        obtain ⟨hd,ht,hw⟩ := mem_of_findOne hfind
        refine ⟨ht,hw,[],j.commits,rfl,?_,fun f => ⟨fun v hv => ?_,fun hnone => ?_⟩⟩
        · exact (Function.update_self i j.commits.length j.reads).symm
        · rw [mergeUpdate_value (.merged (mergeUpdate req mask now d.toDomain)),hv]
          rfl
        · rw [mergeUpdate_value (.merged (mergeUpdate req mask now d.toDomain)),hnone]
          have hvalue : d.toDomain.value f = d.value f := by cases f <;> rfl
          rw [Option.getD_none,hvalue]
          exact h.current d hd f
  · cases hs

private theorem UpdateInv.find (h : UpdateInv s j) (hs : s.find nfkc i = some s') :
    UpdateInv s' j := by
  unfold UpdateState.find at hs
  split at hs
  · rename_i req mask wiki hcall
    have hold : ∀ (k : Nat) c, s.calls[k]? = some c → k ≠ i → c.Consistent j k :=
      fun k c hk _ => h.calls k c hk
    split at hs
    · cases hs
      exact ⟨h.ids,h.apart,h.current,calls_setPhase hold trivial⟩
    · rename_i doc hprepare
      cases hs
      refine ⟨h.ids,h.apart,h.current,calls_setPhase hold ?_⟩
      have hcarries : Carries j i ⟨req,mask,.merged wiki⟩ wiki.template wiki.wikiID wiki.value :=
        h.calls i _ hcall
      unfold Wikis.prepareReplacement at hprepare
      split at hprepare
      · cases hprepare
      · cases hprepare
        have hvalue : ∀ (f : Field) (id createTime : Nat), WikiDocument.value
            { wikiDocumentFromDomain nfkc wiki with id, createTime } f = wiki.value f := by
          intro f id createTime
          cases f <;> rfl
        obtain ⟨newer,past,hsplit,hlen,hfields⟩ := hcarries.seen
        refine ⟨hcarries.onTemplate,hcarries.onWiki,newer,past,hsplit,hlen,fun f => ?_⟩
        rw [hvalue]
        exact hfields f
  · cases hs

/-- A replacement keeps the keys apart, and each document shows what it should. -/
theorem UpdateInv.replaced {d doc : WikiDocument} {c : Commit} (h : UpdateInv s j)
    (hd : s.docs.findOne doc.template doc.wikiID = some d)
    (hfree : ∀ e ∈ s.docs, e.id ≠ d.id → ¬e.Clashes doc)
    (hshows : ∀ f, Shows (c :: j.commits) doc.template doc.wikiID f (doc.value f))
    (hon : c.on doc.template doc.wikiID) :
    let docs := s.docs.map fun e => if e.id = d.id then { doc with id := d.id } else e
    (docs.map WikiDocument.id).Nodup ∧ (docs.Pairwise fun d e => ¬d.Clashes e) ∧
      ∀ e ∈ docs, ∀ f, Shows (c :: j.commits) e.template e.wikiID f (e.value f) := by
  obtain ⟨hmem,htemplate,hwikiID⟩ := mem_of_findOne hd
  have hclash : ∀ e : WikiDocument, e.Clashes { doc with id := d.id } ↔ e.Clashes doc :=
    fun _ => Iff.rfl
  refine ⟨?_,?_,?_⟩
  · have hsame : (s.docs.map fun e => if e.id = d.id then { doc with id := d.id } else e).map
        WikiDocument.id = s.docs.map WikiDocument.id := by
      rw [List.map_map]
      refine List.map_congr_left fun e _ => ?_
      by_cases he : e.id = d.id <;> simp [he]
    exact hsame.symm ▸ h.ids
  · rw [List.pairwise_map]
    have hids : s.docs.Pairwise fun e e' => e.id ≠ e'.id := List.pairwise_map.mp h.ids
    refine (h.apart.and hids).imp_of_mem fun {x y} hx hy hxy => ?_
    by_cases hxd : x.id = d.id
    · have hyd : y.id ≠ d.id := fun he => hxy.2 (hxd.trans he.symm)
      rw [if_pos hxd,if_neg hyd,clashes_symm,hclash]
      exact hfree y hy hyd
    · rw [if_neg hxd]
      by_cases hyd : y.id = d.id
      · rw [if_pos hyd,hclash]
        exact hfree x hx hxd
      · rw [if_neg hyd]
        exact hxy.1
  · intro e' he' f
    obtain ⟨e,he,rfl⟩ := List.mem_map.mp he'
    split
    · have hvalue : WikiDocument.value { doc with id := d.id } f = doc.value f := by cases f <;> rfl
      rw [hvalue]
      exact hshows f
    · rename_i hne
      refine (h.current e he f).skip fun hon' => hne ?_
      have hkey : e.Clashes d := by
        refine ⟨?_,Or.inl ?_⟩
        · rw [htemplate,← hon'.1,hon.1]
        · rw [hwikiID,← hon'.2,hon.2]
      rw [eq_of_clashes h.apart he hmem hkey]

private theorem UpdateInv.replace (h : UpdateInv s j) (hs : s.replace i = some s') :
    UpdateInv s' (observeUpdate s (.replace i) s' j) := by
  unfold UpdateState.replace at hs
  split at hs
  · rename_i req mask doc hcall
    cases hs
    have hi := (List.getElem?_eq_some_iff.mp hcall).1
    have hset : ∀ x, (s.calls.set i x)[i]? = some x := fun x => List.getElem?_set_self hi
    have hcarries : Carries j i ⟨req,mask,.replacing doc⟩ doc.template doc.wikiID doc.value :=
      h.calls i _ hcall
    rcases @commitReplacement_cases s.docs doc with ⟨hdocs,error,herror⟩ | ⟨d,hd,hfree,hok⟩
    · have hj : observeUpdate s (.replace i)
          { s.setPhase i ⟨req,mask,.replacing doc⟩ (.done (s.docs.commitReplacement doc).2) with
            docs := (s.docs.commitReplacement doc).1 } j = j := by
        simp only [observeUpdate,hcall,UpdateState.setPhase,hset,herror]
      rw [hj,hdocs,herror]
      exact ⟨h.ids,h.apart,h.current,
        calls_setPhase (fun k c hk _ => h.calls k c hk) trivial⟩
    · let c : Commit := ⟨i,⟨req,mask,.replacing doc⟩,j.reads i⟩
      have hj : observeUpdate s (.replace i)
          { s.setPhase i ⟨req,mask,.replacing doc⟩ (.done (s.docs.commitReplacement doc).2) with
            docs := (s.docs.commitReplacement doc).1 } j = { j with commits := c :: j.commits } := by
        simp only [observeUpdate,hcall,UpdateState.setPhase,hset,hok]
        rfl
      have hon : c.on doc.template doc.wikiID := ⟨hcarries.onTemplate.symm,hcarries.onWiki.symm⟩
      have hshows : ∀ f, Shows (c :: j.commits) doc.template doc.wikiID f (doc.value f) := by
        intro f
        obtain ⟨newer,past,hsplit,hlen,hfields⟩ := hcarries.seen
        cases hsets : c.update.sets f with
        | some v =>
          rw [(hfields f).1 v hsets]
          exact Shows.set hsets hon
        | none => exact ((hfields f).2 hsets).carry hsplit hlen.symm hsets hon
      rw [hj,hok]
      obtain ⟨hids,hapart,hcurrent⟩ := h.replaced hd hfree hshows hon
      refine ⟨hids,hapart,hcurrent,calls_setPhase (fun k c' hk _ => (h.calls k c' hk).grow) ?_⟩
      exact ⟨c,List.mem_cons_self,rfl,rfl,rfl⟩
  · cases hs

private theorem updateInv_reach {x : UpdateState × UpdateJournal}
    (h : Lts.Reach ((updateSystem nfkc).journaled observeUpdate {}) x) : UpdateInv x.1 x.2 := by
  induction h with
  | init hx =>
    obtain ⟨⟨hcalls,hids,hapart⟩,hj⟩ := hx
    rw [hj]
    refine ⟨hids,hapart,fun d _ f later c earlier he => ?_,fun i call hcall => ?_⟩
    · simp at he
    · simp [hcalls] at hcall
  | @step x y l _ _ hstep ih =>
    obtain ⟨hs,hj⟩ := Lts.journaled_step.mp hstep
    rw [hj]
    cases l with
    | start req =>
      rw [← Option.some.inj hs]
      exact ih.start req
    | get i now => exact ih.get hs
    | find i => exact ih.find hs
    | replace i => exact ih.replace hs

/-- Every acknowledged update has its commit, and a commit stays visible in each field that it set
until a later commit sets the field too, or writes back what its read saw before this commit. -/
theorem update_visible (nfkc : String → String) :
    ∀ x, Lts.Reach ((updateSystem nfkc).journaled observeUpdate {}) x →
      (∀ (i : Nat) call wiki, x.1.calls[i]? = some call → call.phase = .done (.ok wiki) →
        ∃ c ∈ x.2.commits, c.call = i ∧ c.update.req = call.req ∧ c.update.mask = call.mask) ∧
      ∀ d ∈ x.1.docs, ∀ f later c earlier, x.2.commits = later ++ c :: earlier →
        c.on d.template d.wikiID →
        (∀ c' ∈ later, c'.on d.template d.wikiID →
          c'.update.sets f = none ∧ earlier.length < c'.readAt) →
        ∀ v, c.update.sets f = some v → d.value f = v := by
  intro x hx
  have h := updateInv_reach hx
  refine ⟨fun i call wiki hcall hphase => ?_,fun d hd f => h.current d hd f⟩
  have hconsistent := h.calls i call hcall
  rw [UpdateCall.Consistent,hphase] at hconsistent
  exact hconsistent

end invariant

/-! ## Two updates with disjoint masks -/

def storedWiki : WikiDocument :=
  wikiDocumentFromDomain id ⟨"saolei","w","old","old",0,0⟩

def retitle : UpdateWikiRequest := ⟨"saolei","w","new","",["title"]⟩
def rewrite : UpdateWikiRequest := ⟨"saolei","w","","new",["content"]⟩

private theorem storedWiki_init :
    ((updateSystem id).journaled observeUpdate {}).init ({ docs := [storedWiki] },{}) :=
  ⟨⟨rfl,by simp,by simp⟩,rfl⟩

/-- What a commit set, in which call order. -/
def Commit.digest (c : Commit) : String × String × Option String × Option String × Nat :=
  (c.update.req.template,c.update.req.wikiID,c.update.sets .title,c.update.sets .content,c.readAt)

/-- One after the other, both stay visible. -/
theorem update_visible_demo :
    ∃ x d, Lts.Reach ((updateSystem id).journaled observeUpdate {}) x ∧ d ∈ x.1.docs ∧
      x.2.commits.length = 2 ∧ d.value .title = "new" ∧ d.value .content = "new" := by
  obtain ⟨x,hx,hp⟩ := Lts.reach_of_run_any (M := (updateSystem id).journaled observeUpdate {})
    (p := fun x => decide (x.2.commits.map Commit.digest =
        [("saolei","w",none,some "new",1),("saolei","w",some "new",none,0)]) &&
      x.1.docs.any fun d => decide (d.template = "saolei" ∧ d.wikiID = "w"))
    [.start retitle,.get 0 1,.find 0,.replace 0,.start rewrite,.get 1 2,.find 1,.replace 1]
    (.init storedWiki_init) (by decide)
  simp only [Bool.and_eq_true,decide_eq_true_eq,List.any_eq_true] at hp
  obtain ⟨hdigest,d,hd,ht,hw⟩ := hp
  obtain ⟨c,rest,hcommits,hc,hrest⟩ := List.map_eq_cons_iff.mp hdigest
  obtain ⟨c',rest',rfl,hc',hrest'⟩ := List.map_eq_cons_iff.mp hrest
  obtain rfl := List.map_eq_nil_iff.mp hrest'
  simp only [Commit.digest,Prod.mk.injEq] at hc hc'
  obtain ⟨hct,hcw,hnone,hcontent,hread⟩ := hc
  obtain ⟨hct',hcw',htitle,-,-⟩ := hc'
  have hshows := (update_visible id x hx).2 d hd
  have hon : c.on d.template d.wikiID := ⟨hct.trans ht.symm,hcw.trans hw.symm⟩
  have hon' : c'.on d.template d.wikiID := ⟨hct'.trans ht.symm,hcw'.trans hw.symm⟩
  refine ⟨x,d,hx,hd,by simp [hcommits],?_,?_⟩
  · refine hshows .title [c] c' [] hcommits hon' (fun k hk _ => ?_) "new" htitle
    obtain rfl := List.mem_singleton.mp hk
    exact ⟨hnone,by simp [hread]⟩
  · exact hshows .content [] c [c'] hcommits hon (by simp) "new" hcontent

/-- Both read first: the one that commits last undoes the other, though both are acknowledged. -/
theorem disjoint_update_undone :
    ¬∀ x, Lts.Reach ((updateSystem id).journaled observeUpdate {}) x →
      ∀ d ∈ x.1.docs, ∀ f later c earlier, x.2.commits = later ++ c :: earlier →
        c.on d.template d.wikiID →
        (∀ c' ∈ later, c'.on d.template d.wikiID → c'.update.sets f = none) →
        ∀ v, c.update.sets f = some v → d.value f = v := by
  intro h
  obtain ⟨x,hx,hp⟩ := Lts.reach_of_run_any (M := (updateSystem id).journaled observeUpdate {})
    (p := fun x => decide (x.2.commits.map Commit.digest =
        [("saolei","w",none,some "new",0),("saolei","w",some "new",none,0)]) &&
      x.1.docs.any fun d => decide (d.template = "saolei" ∧ d.wikiID = "w" ∧ d.title = "old"))
    [.start retitle,.start rewrite,.get 0 1,.get 1 2,.find 0,.find 1,.replace 0,.replace 1]
    (.init storedWiki_init) (by decide)
  simp only [Bool.and_eq_true,decide_eq_true_eq,List.any_eq_true] at hp
  obtain ⟨hdigest,d,hd,ht,hw,hold⟩ := hp
  obtain ⟨c,rest,hcommits,hc,hrest⟩ := List.map_eq_cons_iff.mp hdigest
  obtain ⟨c',rest',rfl,hc',hrest'⟩ := List.map_eq_cons_iff.mp hrest
  obtain rfl := List.map_eq_nil_iff.mp hrest'
  simp only [Commit.digest,Prod.mk.injEq] at hc hc'
  have hnew : d.value .title = "new" := by
    refine h x hx d hd .title [c] c' [] hcommits
      ⟨hc'.1.trans ht.symm,hc'.2.1.trans hw.symm⟩ (fun k hk _ => ?_) "new" hc'.2.2.1
    obtain rfl := List.mem_singleton.mp hk
    exact hc.2.2.1
  have htitle : d.title = "new" := hnew
  rw [hold] at htitle
  revert htitle
  decide

end Dominion.Memory
