import Dominion.Framework.Lts
import Mathlib.Data.List.Basic
import Mathlib.Logic.Function.Basic

/-! # The owners of the sessions

Any number of callers, in any number of proxy processes, over one owner collection. -/
namespace Dominion.Proxy

open Dominion.Framework

/-- The composite key of an owner record. -/
structure SessionKey where
  templateId : String
  sessionId : String
  deriving DecidableEq, Repr

structure AgentOwner where
  templateId : String
  sessionId : String
  ownerIndex : Nat
  owner : String
  createTime : Int
  deriving DecidableEq, Repr

def AgentOwner.key (o : AgentOwner) : SessionKey :=
  ⟨o.templateId,o.sessionId⟩

/-- A listed connection. -/
structure ConnRef where
  ownerIndex : Nat
  owner : String
  deriving DecidableEq, Repr

inductive Code
  | notFound
  | alreadyExists
  | unavailable
  | internal
  deriving DecidableEq, Repr

structure Status where
  code : Code
  message : String
  deriving DecidableEq, Repr

inductive DomainError
  | ownerNotFound
  | ownerAlreadyExists
  | noAgentInstances
  deriving DecidableEq, Repr

def mapDomainError : DomainError → Status
  | .ownerNotFound => ⟨.notFound,"agent owner not found"⟩
  | .ownerAlreadyExists => ⟨.alreadyExists,"agent owner already exists"⟩
  | .noAgentInstances => ⟨.unavailable,"no agent instances available"⟩

/-- What the unique indexes of the collection compare; the store creates none. -/
def uniqueIndexes : List (AgentOwner → AgentOwner → Bool) :=
  []

def insertOne (docs : List AgentOwner) (doc : AgentOwner) : Option (List AgentOwner) :=
  if docs.any fun d => uniqueIndexes.any fun same => same d doc then none else some (docs ++ [doc])

def findOne (docs : List AgentOwner) (key : SessionKey) : Option AgentOwner :=
  docs.find? fun d => d.key = key

inductive Phase
  /-- `lookupAgentOwner` before its Get. -/
  | looking
  /-- `assignAgentOwner` before its Get. -/
  | getting
  | listing
  | picking (conns : List ConnRef)
  /-- Before the FindOne of the store's Create. -/
  | creating (owner : AgentOwner)
  | inserting (owner : AgentOwner)
  | rereading
  deriving DecidableEq, Repr

structure Call where
  key : SessionKey
  /-- How many calls had returned at the start. -/
  since : Nat
  phase : Phase
  deriving DecidableEq, Repr

structure Returned where
  key : SessionKey
  since : Nat
  lookup : Bool
  result : Except Status AgentOwner

structure World where
  docs : List AgentOwner := []
  calls : Nat → Option Call := fun _ => none
  returned : List Returned := []

inductive Step
  | assign (c : Nat) (key : SessionKey)
  | lookup (c : Nat) (key : SessionKey)
  | get (c : Nat)
  | list (c : Nat) (result : Except String (List ConnRef))
  /-- The picker returns the k-th of the listed instances. -/
  | pick (c : Nat) (k : Nat) (now : Int)
  | find (c : Nat)
  | insert (c : Nat)
  deriving DecidableEq

namespace World

variable (w : World)

def enter (c : Nat) (call : Call) : World :=
  { w with calls := Function.update w.calls c (some call) }

def finish (c : Nat) (call : Call) (lookup : Bool) (result : Except Status AgentOwner) : World :=
  { w with
    calls := Function.update w.calls c none
    returned := w.returned ++ [(⟨call.key,call.since,lookup,result⟩ : Returned)] }

/-- The store's Get, by the place of the call. -/
def get (c : Nat) (call : Call) : Option World :=
  match call.phase, findOne w.docs call.key with
  | .looking, some o => some (w.finish c call true (.ok o))
  | .looking, none => some (w.finish c call true (.error (mapDomainError .ownerNotFound)))
  | .getting, some o => some (w.finish c call false (.ok o))
  | .getting, none => some (w.enter c { call with phase := .listing })
  | .rereading, some o => some (w.finish c call false (.ok o))
  | .rereading, none => some (w.finish c call false (.error (mapDomainError .ownerNotFound)))
  | .listing, _ => none
  | .picking _, _ => none
  | .creating _, _ => none
  | .inserting _, _ => none

def list (c : Nat) (call : Call) (result : Except String (List ConnRef)) : Option World :=
  if call.phase = .listing then
    match result with
    | .ok conns => some (w.enter c { call with phase := .picking conns })
    | .error message => some (w.finish c call false
        (.error ⟨.internal,"list agent_v2 connections: " ++ message⟩))
  else none

def pick (c : Nat) (call : Call) (k : Nat) (now : Int) : Option World :=
  match call.phase with
  | .picking [] => some (w.finish c call false (.error (mapDomainError .noAgentInstances)))
  | .picking conns => conns[k]?.map fun ref =>
      w.enter c { call with
        phase := .creating (⟨call.key.templateId,call.key.sessionId,ref.ownerIndex,ref.owner,
          now⟩ : AgentOwner) }
  | _ => none

/-- The check of the store's Create. -/
def find (c : Nat) (call : Call) : Option World :=
  match call.phase with
  | .creating owner =>
    if (findOne w.docs owner.key).isSome then some (w.enter c { call with phase := .rereading })
    else some (w.enter c { call with phase := .inserting owner })
  | _ => none

def insert (c : Nat) (call : Call) : Option World :=
  match call.phase with
  | .inserting owner =>
    match insertOne w.docs owner with
    | some docs => some ({ w with docs := docs }.finish c call false (.ok owner))
    | none => some (w.enter c { call with phase := .rereading })
  | _ => none

/-- A caller starts when it has no call under way. -/
def start (c : Nat) (key : SessionKey) (phase : Phase) : Option World :=
  if w.calls c = none then some (w.enter c ⟨key,w.returned.length,phase⟩) else none

def step : Step → Option World
  | .assign c key => w.start c key .getting
  | .lookup c key => w.start c key .looking
  | .get c => (w.calls c).bind fun call => w.get c call
  | .list c result => (w.calls c).bind fun call => w.list c call result
  | .pick c k now => (w.calls c).bind fun call => w.pick c call k now
  | .find c => (w.calls c).bind fun call => w.find c call
  | .insert c => (w.calls c).bind fun call => w.insert c call

end World

def ownerSystem : Lts World Step where
  init w := w = {}
  step := World.step

/-- The calls of one session agree, and a lookup behind a successful call finds the owner. -/
def OneOwner (w : World) : Prop :=
  (∀ f ∈ w.returned, ∀ g ∈ w.returned, f.key = g.key → ∀ o o', f.result = .ok o →
    g.result = .ok o' → o.ownerIndex = o'.ownerIndex) ∧
  ∀ i f, w.returned[i]? = some f → ∀ o, f.result = .ok o → ∀ g ∈ w.returned, g.lookup = true →
    g.key = f.key → i < g.since → ∃ o', g.result = .ok o' ∧ o'.ownerIndex = o.ownerIndex

/-- An insert meets no record of its session with another owner. -/
def Unraced (w : World) : Step → Bool
  | .insert c =>
    match w.calls c with
    | some ⟨_,_,.inserting owner⟩ =>
      w.docs.all fun d => d.key ≠ owner.key || d.ownerIndex = owner.ownerIndex
    | _ => true
  | _ => true

def observedOwners : Lts (World × Bool) Step :=
  ownerSystem.journaled (fun w l _ clean => clean && Unraced w l) true

/-! ## The invariant -/

structure Inv (w : World) : Prop where
  /-- A stored owner was returned by the call that stored it. -/
  stored : ∀ d ∈ w.docs, ∃ f ∈ w.returned, f.key = d.key ∧ f.result = .ok d
  returned : ∀ f ∈ w.returned, ∀ o, f.result = .ok o → o ∈ w.docs ∧ o.key = f.key
  since : ∀ f ∈ w.returned, f.since ≤ w.returned.length
  calls : ∀ c call, w.calls c = some call → call.since ≤ w.returned.length ∧
    ∀ o, call.phase = .creating o ∨ call.phase = .inserting o → o.key = call.key
  /-- A lookup behind a successful call succeeds. -/
  found : ∀ g ∈ w.returned, g.lookup = true → ∀ i f, i < g.since → w.returned[i]? = some f →
    f.key = g.key → ∀ o, f.result = .ok o → ∃ o', g.result = .ok o'

section steps

variable {w : World} {c : Nat} {call : Call}

private theorem Inv.enter (h : Inv w) {call : Call} (hsince : call.since ≤ w.returned.length)
    (howner : ∀ o, call.phase = .creating o ∨ call.phase = .inserting o → o.key = call.key) :
    Inv (w.enter c call) where
  stored := h.stored
  returned := h.returned
  since := h.since
  calls := by
    intro c' call' hc'
    by_cases he : c' = c
    · subst he
      have hcall : call' = call := by
        simpa [World.enter] using hc'.symm
      subst hcall
      exact ⟨hsince,howner⟩
    · exact h.calls c' call' (by simpa [World.enter,he] using hc')
  found := h.found

/-- A call returns, perhaps with the record that it has stored. -/
theorem Inv.finish (h : Inv w) (hcall : w.calls c = some call) {docs : List AgentOwner}
    {lookup : Bool} {result : Except Status AgentOwner} (hdocs : ∀ d ∈ w.docs, d ∈ docs)
    (hnew : ∀ d ∈ docs, d ∈ w.docs ∨ result = .ok d)
    (hresult : ∀ o, result = .ok o → o ∈ docs ∧ o.key = call.key)
    (hlookup : lookup = true → (∃ o', result = .ok o') ∨ ∀ d ∈ w.docs, d.key ≠ call.key) :
    Inv ({ w with docs := docs }.finish c call lookup result) where
  stored := by
    intro d hd
    show ∃ f ∈ w.returned ++ [⟨call.key,call.since,lookup,result⟩], _
    rcases hnew d hd with hold | hfresh
    · obtain ⟨f,hf,hkey,hok⟩ := h.stored d hold
      exact ⟨f,List.mem_append_left _ hf,hkey,hok⟩
    · exact ⟨_,List.mem_append_right _ List.mem_cons_self,(hresult d hfresh).2.symm,hfresh⟩
  returned := by
    intro f hf o ho
    show o ∈ docs ∧ _
    rcases List.mem_append.mp hf with hold | hlast
    · obtain ⟨hmem,hkey⟩ := h.returned f hold o ho
      exact ⟨hdocs o hmem,hkey⟩
    · obtain rfl := List.mem_singleton.mp hlast
      exact hresult o ho
  since := by
    intro f hf
    show f.since ≤ (w.returned ++ [_]).length
    rw [List.length_append]
    rcases List.mem_append.mp hf with hold | hlast
    · exact Nat.le_add_right_of_le (h.since f hold)
    · obtain rfl := List.mem_singleton.mp hlast
      exact Nat.le_add_right_of_le (h.calls c call hcall).1
  calls := by
    intro c' call' hc'
    have hother : w.calls c' = some call' := by
      by_cases he : c' = c
      · simp [World.finish,he] at hc'
      · simpa [World.finish,he] using hc'
    obtain ⟨hsince,howner⟩ := h.calls c' call' hother
    refine ⟨?_,howner⟩
    show call'.since ≤ (w.returned ++ [_]).length
    rw [List.length_append]
    exact Nat.le_add_right_of_le hsince
  found := by
    intro g hg hglookup i f hi hf hkey o ho
    have hi' : i < w.returned.length := by
      rcases List.mem_append.mp hg with hold | hlast
      · exact Nat.lt_of_lt_of_le hi (h.since g hold)
      · obtain rfl := List.mem_singleton.mp hlast
        exact Nat.lt_of_lt_of_le hi (h.calls c call hcall).1
    have hf' : w.returned[i]? = some f := by
      have happend : (w.returned ++ [_])[i]? = some f := hf
      rwa [List.getElem?_append_left hi'] at happend
    rcases List.mem_append.mp hg with hold | hlast
    · exact h.found g hold hglookup i f hi hf' hkey o ho
    · obtain rfl := List.mem_singleton.mp hlast
      rcases hlookup hglookup with hok | hnone
      · exact hok
      · obtain ⟨hmem,hokey⟩ := h.returned f (List.mem_of_getElem? hf') o ho
        exact absurd (hokey.trans hkey) (hnone o hmem)

private theorem findOne_some {docs : List AgentOwner} {key : SessionKey} {o : AgentOwner}
    (h : findOne docs key = some o) : o ∈ docs ∧ o.key = key :=
  ⟨List.mem_of_find?_eq_some h,by simpa using List.find?_some h⟩

private theorem findOne_none {docs : List AgentOwner} {key : SessionKey}
    (h : findOne docs key = none) :
    ∀ d ∈ docs, d.key ≠ key := by
  intro d hd hkey
  exact List.find?_eq_none.mp h d hd (decide_eq_true hkey)

private theorem insertOne_eq (docs : List AgentOwner) (doc : AgentOwner) :
    insertOne docs doc = some (docs ++ [doc]) := by
  simp [insertOne,uniqueIndexes]

/-- A step of a call other than its insert leaves the collection as it is. -/
structure Quiet (w w' : World) : Prop where
  inv : Inv w'
  docs : w'.docs = w.docs
  returned : ∀ f ∈ w.returned, f ∈ w'.returned

private theorem Inv.quiet_enter (h : Inv w) {call : Call} (hsince : call.since ≤ w.returned.length)
    (howner : ∀ o, call.phase = .creating o ∨ call.phase = .inserting o → o.key = call.key) :
    Quiet w (w.enter c call) :=
  ⟨h.enter hsince howner,rfl,fun _ hf => hf⟩

private theorem Inv.quiet_finish (h : Inv w) (hcall : w.calls c = some call) {lookup : Bool}
    {result : Except Status AgentOwner}
    (hresult : ∀ o, result = .ok o → o ∈ w.docs ∧ o.key = call.key)
    (hlookup : lookup = true → (∃ o', result = .ok o') ∨ ∀ d ∈ w.docs, d.key ≠ call.key) :
    Quiet w (w.finish c call lookup result) :=
  ⟨h.finish hcall (fun _ hd => hd) (fun _ hd => Or.inl hd) hresult hlookup,rfl,
    fun _ hf => List.mem_append_left _ hf⟩

private theorem Inv.get (h : Inv w) (hcall : w.calls c = some call) {w' : World}
    (hw : w.get c call = some w') : Quiet w w' := by
  obtain ⟨hsince,-⟩ := h.calls c call hcall
  have hok : ∀ {lookup : Bool} {o : AgentOwner}, findOne w.docs call.key = some o →
      Quiet w (w.finish c call lookup (.ok o)) := by
    intro lookup o hfind
    refine h.quiet_finish hcall (fun o' ho' => ?_) fun _ => Or.inl ⟨o,rfl⟩
    cases ho'
    exact findOne_some hfind
  have hmissing : ∀ {lookup : Bool} {status : Status}, findOne w.docs call.key = none →
      Quiet w (w.finish c call lookup (.error status)) := by
    intro lookup status hfind
    exact h.quiet_finish hcall (fun o' ho' => by cases ho') fun _ => Or.inr (findOne_none hfind)
  unfold World.get at hw
  cases hphase : call.phase with
  | looking =>
    cases hfind : findOne w.docs call.key with
    | some o =>
      simp only [hphase,hfind] at hw
      cases hw
      exact hok hfind
    | none =>
      simp only [hphase,hfind] at hw
      cases hw
      exact hmissing hfind
  | getting =>
    cases hfind : findOne w.docs call.key with
    | some o =>
      simp only [hphase,hfind] at hw
      cases hw
      exact hok hfind
    | none =>
      simp only [hphase,hfind] at hw
      cases hw
      exact h.quiet_enter hsince fun o ho => by rcases ho with ho | ho <;> cases ho
  | rereading =>
    cases hfind : findOne w.docs call.key with
    | some o =>
      simp only [hphase,hfind] at hw
      cases hw
      exact hok hfind
    | none =>
      simp only [hphase,hfind] at hw
      cases hw
      exact hmissing hfind
  | listing =>
    simp only [hphase] at hw
    cases hw
  | picking conns =>
    simp only [hphase] at hw
    cases hw
  | creating owner =>
    simp only [hphase] at hw
    cases hw
  | inserting owner =>
    simp only [hphase] at hw
    cases hw

private theorem Inv.list (h : Inv w) (hcall : w.calls c = some call) {w' : World}
    {result : Except String (List ConnRef)} (hw : w.list c call result = some w') :
    Quiet w w' := by
  obtain ⟨hsince,-⟩ := h.calls c call hcall
  unfold World.list at hw
  split at hw
  · cases result with
    | ok conns =>
      cases hw
      exact h.quiet_enter hsince fun o ho => by rcases ho with ho | ho <;> cases ho
    | error message =>
      cases hw
      exact h.quiet_finish hcall (fun o ho => by cases ho) fun hlookup => by cases hlookup
  · cases hw

private theorem Inv.pick (h : Inv w) (hcall : w.calls c = some call) {w' : World} {k : Nat}
    {now : Int} (hw : w.pick c call k now = some w') : Quiet w w' := by
  obtain ⟨hsince,-⟩ := h.calls c call hcall
  unfold World.pick at hw
  split at hw
  · cases hw
    exact h.quiet_finish hcall (fun o ho => by cases ho) fun hlookup => by cases hlookup
  · obtain ⟨ref,-,rfl⟩ := Option.map_eq_some_iff.mp hw
    refine h.quiet_enter hsince fun o ho => ?_
    rcases ho with ho | ho
    · cases ho
      rfl
    · cases ho
  · cases hw

private theorem Inv.find (h : Inv w) (hcall : w.calls c = some call) {w' : World}
    (hw : w.find c call = some w') : Quiet w w' := by
  obtain ⟨hsince,howner⟩ := h.calls c call hcall
  unfold World.find at hw
  split at hw
  · rename_i owner hphase
    split at hw
    · cases hw
      exact h.quiet_enter hsince fun o ho => by rcases ho with ho | ho <;> cases ho
    · cases hw
      refine h.quiet_enter hsince fun o ho => ?_
      rcases ho with ho | ho
      · cases ho
      · cases ho
        exact howner owner (Or.inl hphase)
  · cases hw

private theorem Inv.start (h : Inv w) {w' : World} {key : SessionKey} {phase : Phase}
    (hphase : phase = .looking ∨ phase = .getting) (hw : w.start c key phase = some w') :
    Quiet w w' := by
  unfold World.start at hw
  split at hw
  · cases hw
    refine h.quiet_enter (Nat.le_refl _) fun o ho => ?_
    rcases hphase with rfl | rfl <;> rcases ho with ho | ho <;> cases ho
  · cases hw

/-- The insert stores the owner and returns it. -/
theorem Inv.insert (h : Inv w) (hcall : w.calls c = some call) {w' : World}
    (hw : w.insert c call = some w') : ∃ owner, call.phase = .inserting owner ∧ Inv w' ∧
      w'.docs = w.docs ++ [owner] ∧
      w'.returned = w.returned ++ [⟨call.key,call.since,false,.ok owner⟩] ∧
      owner.key = call.key := by
  obtain ⟨-,howner⟩ := h.calls c call hcall
  unfold World.insert at hw
  split at hw
  · rename_i owner hphase
    have hkey := howner owner (Or.inr hphase)
    simp only [insertOne_eq] at hw
    cases hw
    refine ⟨owner,hphase,?_,rfl,rfl,hkey⟩
    refine h.finish hcall (fun d hd => List.mem_append_left _ hd) (fun d hd => ?_) (fun o ho => ?_)
      fun hlookup => by cases hlookup
    · rcases List.mem_append.mp hd with hold | hlast
      · exact Or.inl hold
      · exact Or.inr (congrArg Except.ok (List.mem_singleton.mp hlast).symm)
    · cases ho
      exact ⟨List.mem_append_right _ List.mem_cons_self,hkey⟩
  · cases hw

end steps

/-! ## Runs -/

/-- Whether the records agree is whether every insert was unraced. -/
structure Owned (x : World × Bool) : Prop where
  inv : Inv x.1
  agree : x.2 = true → ∀ d ∈ x.1.docs, ∀ d' ∈ x.1.docs, d.key = d'.key →
    d.ownerIndex = d'.ownerIndex
  split : x.2 = false → ∃ f ∈ x.1.returned, ∃ g ∈ x.1.returned, f.key = g.key ∧
    ∃ o o', f.result = .ok o ∧ g.result = .ok o' ∧ o.ownerIndex ≠ o'.ownerIndex

private theorem Owned.quiet {x y : World × Bool} (h : Owned x) (hquiet : Quiet x.1 y.1)
    (hclean : y.2 = x.2) :
    Owned y where
  inv := hquiet.inv
  agree := by
    intro hy
    rw [hquiet.docs]
    exact h.agree (hclean.symm.trans hy)
  split := by
    intro hy
    obtain ⟨f,hf,g,hg,hrest⟩ := h.split (hclean.symm.trans hy)
    exact ⟨f,hquiet.returned f hf,g,hquiet.returned g hg,hrest⟩

private theorem Owned.insert {x y : World × Bool} {call : Call} {owner : AgentOwner}
    (h : Owned x) (hinv : Inv y.1) (hdocs : y.1.docs = x.1.docs ++ [owner])
    (hreturned : y.1.returned = x.1.returned ++ [⟨call.key,call.since,false,.ok owner⟩])
    (hkey : owner.key = call.key)
    (hclean : y.2 = (x.2 && x.1.docs.all fun d =>
      d.key ≠ owner.key || d.ownerIndex = owner.ownerIndex)) : Owned y where
  inv := hinv
  agree := by
    intro hy
    rw [hclean] at hy
    obtain ⟨hold,hall⟩ := Bool.and_eq_true_iff.mp hy
    have hsame : ∀ d ∈ x.1.docs, d.key = owner.key → d.ownerIndex = owner.ownerIndex := by
      intro d hd hdkey
      simpa [hdkey] using List.all_eq_true.mp hall d hd
    rw [hdocs]
    intro d hd d' hd' hdd
    rcases List.mem_append.mp hd with hin | hlast
    · rcases List.mem_append.mp hd' with hin' | hlast'
      · exact h.agree hold d hin d' hin' hdd
      · obtain rfl := List.mem_singleton.mp hlast'
        exact hsame d hin hdd
    · obtain rfl := List.mem_singleton.mp hlast
      rcases List.mem_append.mp hd' with hin' | hlast'
      · exact (hsame d' hin' hdd.symm).symm
      · obtain rfl := List.mem_singleton.mp hlast'
        rfl
  split := by
    intro hy
    rw [hreturned]
    cases hold : x.2 with
    | false =>
      obtain ⟨f,hf,g,hg,hrest⟩ := h.split hold
      exact ⟨f,List.mem_append_left _ hf,g,List.mem_append_left _ hg,hrest⟩
    | true =>
      -- The record of the other owner was returned by the call that stored it.
      have hraced : ∃ d ∈ x.1.docs, d.key = owner.key ∧ d.ownerIndex ≠ owner.ownerIndex := by
        rw [hclean,hold] at hy
        simpa using hy
      obtain ⟨d,hd,hdkey,hne⟩ := hraced
      obtain ⟨f,hf,hfkey,hok⟩ := h.inv.stored d hd
      exact ⟨f,List.mem_append_left _ hf,_,List.mem_append_right _ List.mem_cons_self,
        hfkey.trans (hdkey.trans hkey),d,owner,hok,rfl,hne⟩

private theorem inductive_owned : Lts.Inductive observedOwners (fun _ _ => True) Owned where
  init x hx := by
    obtain ⟨hw,hclean⟩ := hx
    have hempty : x.1 = {} := hw
    refine ⟨?_,fun _ d hd => ?_,fun hfalse => ?_⟩
    · rw [hempty]
      exact ⟨fun d hd => (List.not_mem_nil hd).elim,fun f hf => (List.not_mem_nil hf).elim,
        fun f hf => (List.not_mem_nil hf).elim,fun _ call hc => (by cases hc),
        fun f hf => (List.not_mem_nil hf).elim⟩
    · rw [hempty] at hd
      exact (List.not_mem_nil hd).elim
    · rw [hclean] at hfalse
      cases hfalse
  step x l y hx _ hstep := by
    obtain ⟨hs,hclean⟩ := Lts.journaled_step.mp hstep
    have hquiet : (∀ c, l ≠ .insert c) → Quiet x.1 y.1 → Owned y := by
      intro hne hquiet
      have hunraced : Unraced x.1 l = true := by
        cases l with
        | insert c => exact absurd rfl (hne c)
        | _ => rfl
      exact hx.quiet hquiet (by rw [hclean,hunraced,Bool.and_true])
    cases l with
    | assign c key => exact hquiet (fun _ => by simp) (hx.inv.start (Or.inr rfl) hs)
    | lookup c key => exact hquiet (fun _ => by simp) (hx.inv.start (Or.inl rfl) hs)
    | get c =>
      obtain ⟨call,hcall,hget⟩ := Option.bind_eq_some_iff.mp hs
      exact hquiet (fun _ => by simp) (hx.inv.get hcall hget)
    | list c result =>
      obtain ⟨call,hcall,hlist⟩ := Option.bind_eq_some_iff.mp hs
      exact hquiet (fun _ => by simp) (hx.inv.list hcall hlist)
    | pick c k now =>
      obtain ⟨call,hcall,hpick⟩ := Option.bind_eq_some_iff.mp hs
      exact hquiet (fun _ => by simp) (hx.inv.pick hcall hpick)
    | find c =>
      obtain ⟨call,hcall,hfind⟩ := Option.bind_eq_some_iff.mp hs
      exact hquiet (fun _ => by simp) (hx.inv.find hcall hfind)
    | insert c =>
      obtain ⟨call,hcall,hinsert⟩ := Option.bind_eq_some_iff.mp hs
      obtain ⟨owner,hphase,hinv,hdocs,hreturned,hkey⟩ := hx.inv.insert hcall hinsert
      have hunraced : Unraced x.1 (.insert c) = x.1.docs.all fun d =>
          d.key ≠ owner.key || d.ownerIndex = owner.ownerIndex := by
        obtain ⟨key,since,phase⟩ := call
        have hphase' : phase = .inserting owner := hphase
        simp only [Unraced,hcall,hphase']
      exact hx.insert hinv hdocs hreturned hkey (by rw [hclean,hunraced])

/-- In every run the calls of each session agree on its owner, and a lookup behind a successful
call finds it, as long as no insert met a record of its session with another owner, and not any
more after that. -/
theorem sessions_have_one_owner :
    ∀ x, Lts.Reach observedOwners x → (OneOwner x.1 ↔ x.2 = true) := by
  intro x hx
  have h := inductive_owned.of_reachUnder hx
  constructor
  · intro hone
    cases hclean : x.2 with
    | true => rfl
    | false =>
      obtain ⟨f,hf,g,hg,hkey,o,o',ho,ho',hne⟩ := h.split hclean
      exact absurd (hone.1 f hf g hg hkey o o' ho ho') hne
  · intro hclean
    have hagree : ∀ f ∈ x.1.returned, ∀ g ∈ x.1.returned, f.key = g.key → ∀ o o',
        f.result = .ok o → g.result = .ok o' → o.ownerIndex = o'.ownerIndex := by
      intro f hf g hg hkey o o' ho ho'
      obtain ⟨hmem,hokey⟩ := h.inv.returned f hf o ho
      obtain ⟨hmem',hokey'⟩ := h.inv.returned g hg o' ho'
      exact h.agree hclean o hmem o' hmem' (hokey.trans (hkey.trans hokey'.symm))
    refine ⟨hagree,fun i f hf o ho g hg hlookup hkey hi => ?_⟩
    have hmem : f ∈ x.1.returned := List.mem_of_getElem? hf
    obtain ⟨o',ho'⟩ := h.inv.found g hg hlookup i f hi hf hkey.symm o ho
    exact ⟨o',ho',hagree g hg f hmem hkey o' o ho' ho⟩

/-! ## Two runs -/

def aSession : SessionKey :=
  ⟨"saolei","s"⟩

def twoInstances : List ConnRef :=
  [⟨0,"agent-v2-0"⟩,⟨1,"agent-v2-1"⟩]

/-- Two assignments one after the other, and a lookup. -/
theorem sessions_have_one_owner_demo : ∃ x, Lts.Reach observedOwners x ∧
    x.1.returned.length = 3 ∧ OneOwner x.1 := by
  obtain ⟨x,hx,hp⟩ := Lts.reach_of_run_any (M := observedOwners) (s := ({},true))
    (p := fun x => x.2 && decide (x.1.returned.length = 3))
    [.assign 0 aSession,.get 0,.list 0 (.ok twoInstances),.pick 0 1 0,.find 0,.insert 0,
      .assign 1 aSession,.get 1,.lookup 2 aSession,.get 2] (.init ⟨rfl,rfl⟩) (by decide)
  obtain ⟨hclean,hlength⟩ := Bool.and_eq_true_iff.mp hp
  exact ⟨x,hx,of_decide_eq_true hlength,(sessions_have_one_owner x hx).mpr hclean⟩

def okIndex (r : Returned) : Option Nat :=
  match r.result with
  | .ok o => some o.ownerIndex
  | .error _ => none

private theorem okIndex_some {r : Returned} {i : Nat} (h : okIndex r = some i) :
    ∃ o, r.result = .ok o ∧ o.ownerIndex = i := by
  unfold okIndex at h
  cases hresult : r.result with
  | ok o =>
    rw [hresult] at h
    exact ⟨o,rfl,Option.some.inj h⟩
  | error status =>
    rw [hresult] at h
    cases h

/-- Both assignments check before either inserts. -/
theorem concurrent_assignments_split : ¬∀ w, Lts.Reach ownerSystem w → OneOwner w := by
  intro h
  obtain ⟨w,hw,hp⟩ := Lts.reach_of_run_any (M := ownerSystem) (s := {})
    (p := fun w => decide (w.returned.map okIndex = [some 0,some 1]) &&
      decide (w.returned.map Returned.key = [aSession,aSession]))
    [.assign 0 aSession,.get 0,.assign 1 aSession,.get 1,.list 0 (.ok twoInstances),
      .list 1 (.ok twoInstances),.pick 0 0 0,.pick 1 1 0,.find 0,.find 1,.insert 0,.insert 1]
    (.init rfl) (by decide)
  obtain ⟨hindexes,hkeys⟩ := Bool.and_eq_true_iff.mp hp
  obtain ⟨f,rest,hreturned,hf,hrest⟩ := List.map_eq_cons_iff.mp (of_decide_eq_true hindexes)
  obtain ⟨g,last,rfl,hg,-⟩ := List.map_eq_cons_iff.mp hrest
  obtain ⟨o,ho,hzero⟩ := okIndex_some hf
  obtain ⟨o',ho',hone⟩ := okIndex_some hg
  have hboth : f.key = aSession ∧ g.key = aSession := by
    have hlist := of_decide_eq_true hkeys
    rw [hreturned] at hlist
    injection hlist with hfirst htail
    injection htail with hsecond
    exact ⟨hfirst,hsecond⟩
  have hsame := (h w hw).1 f (by simp [hreturned]) g (by simp [hreturned])
    (hboth.1.trans hboth.2.symm) o o' ho ho'
  omega

end Dominion.Proxy
