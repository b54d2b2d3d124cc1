import Dominion.Web.Texts

/-! # Scripts

A script has what the streams of a session have delivered, in the order of the places: that is what
a single stream would have told.  A delta may be left out of it up to the texts of its block. -/
namespace Dominion.Web

open Dominion.Framework
open Dominion.Chat (ContentBlock HistoryMessage ToolStatus)

/-! ### Entries -/

/-- A frame of the script with its place, or an end at which the live turns were projected. -/
inductive Entry
  | frame (place : Nat) (event : ChatEvent)
  | ended
  deriving DecidableEq, Repr

namespace Entry

def shown : Entry → Shown
  | .frame _ event => .frame event
  | .ended => .ended

def place? : Entry → Option Nat
  | .frame place _ => some place
  | .ended => none

def event? : Entry → Option ChatEvent
  | .frame _ event => some event
  | .ended => none

/-- The entry is a delta of the block. -/
def adds (k : String × String) (key : BlockKey) : Entry → Bool
  | .frame _ e =>
    match e.deltaOf with
    | some (key',_) => e.turn = k && key' = key
    | none => false
  | .ended => false

/-- The entry ends the block. -/
def finishes (k : String × String) (key : BlockKey) : Entry → Bool
  | .frame _ e =>
    match e.endOf with
    | some (key',_) => e.turn = k && key' = key
    | none => false
  | .ended => false

def aborts : Entry → Bool
  | .frame _ e => e.aborts
  | .ended => false

/-- What the entry leaves does not have the texts that the block had before. -/
def covers (k : String × String) (key : BlockKey) (y : Entry) : Bool :=
  y.finishes k key || y.aborts

/-- No turn of the key is live after the entry, unless it starts one. -/
def stops (k : String × String) (y : Entry) : Bool :=
  y.shown.cuts k || y.aborts

/-- The entry starts the turn. -/
def starts (k : String × String) : Entry → Bool
  | .frame _ e => e.body = .turnStart && e.turn = k
  | .ended => false

/-- The entry shows nothing where nothing is shown. -/
def quiet : Entry → Bool
  | .frame _ e =>
    match e.body with
    | .teamMessage _ _ _ => false
    | .memberView _ _ _ => false
    | .turnStart => false
    | _ => true
  | .ended => true

end Entry

/-- A running call of the tool id. -/
def isRunning (toolId : String) : ContentBlock → Bool
  | .toolCall id _ _ status _ => id = toolId && status = .running
  | .think _ => false
  | .text _ => false

/-- The frame shows a running call of the tool id. -/
def ChatEvent.runs (toolId : String) (e : ChatEvent) : Bool :=
  match e.body with
  | .teamMessage _ message _ => message.blocks.any (isRunning toolId)
  | .memberView _ _ message => message.blocks.any (isRunning toolId)
  | .blockStart _ index type id name => isRunning toolId (blockStartDraft index type id name).content
  | .blockEnd _ _ block => isRunning toolId block
  | _ => false

def Entry.runs (toolId : String) : Entry → Bool
  | .frame _ e => e.runs toolId
  | .ended => false

/-- The result settles the call that the frame ends with. -/
def Entry.settles (e : ChatEvent) : Entry → Bool
  | .frame _ y =>
    match y.body with
    | .toolResult toolId status result => !e.survives toolId status result
    | _ => false
  | .ended => false

/-- The frame goes before the first one of a greater place. -/
def put (p : Nat) (e : ChatEvent) : List Entry → List Entry
  | [] => [.frame p e]
  | .ended :: rest => .ended :: put p e rest
  | .frame q e' :: rest =>
    if p < q then .frame p e :: .frame q e' :: rest else .frame q e' :: put p e rest

/-- What comes after the place. -/
def since (p : Nat) : List Entry → List Entry
  | [] => []
  | .ended :: rest => since p rest
  | .frame q e :: rest =>
    if p < q then .frame q e :: rest else if q = p then rest else since p rest

def places (script : List Entry) : List Nat :=
  script.filterMap Entry.place?

/-- The script without the frames of the places. -/
def without (dropped : List Nat) (script : List Entry) : List Entry :=
  script.filter fun y =>
    match y with
    | .frame p _ => p ∉ dropped
    | .ended => true

def told (script : List Entry) : List Shown :=
  script.map Entry.shown

/-- The turn of the block is not closed before the block has ended. -/
def safe (k : String × String) (key : BlockKey) : List Entry → Bool
  | [] => true
  | y :: rest => y.covers k key || (!y.shown.cuts k && safe k key rest)

def covered (k : String × String) (key : BlockKey) (script : List Entry) : Bool :=
  script.any (Entry.covers k key)

variable {script A B : List Entry} {p q : Nat} {e e' : ChatEvent} {y : Entry}
  {k : String × String} {key : BlockKey} {dropped : List Nat}

namespace Entry

theorem adds_iff : y.adds k key = true ↔
    ∃ p e text, y = .frame p e ∧ e.turn = k ∧ e.deltaOf = some (key,text) := by
  constructor
  · intro h
    cases y with
    | ended => cases h
    | frame p e =>
      simp only [adds] at h
      split at h
      · rename_i key' text hdelta
        obtain ⟨hk,rfl⟩ : e.turn = k ∧ key' = key := by simpa using h
        exact ⟨p,e,text,rfl,hk,hdelta⟩
      · cases h
  · rintro ⟨p,e,text,rfl,rfl,hdelta⟩
    simp [adds,hdelta]

theorem finishes_iff : y.finishes k key = true ↔
    ∃ p e block, y = .frame p e ∧ e.turn = k ∧ e.endOf = some (key,block) := by
  constructor
  · intro h
    cases y with
    | ended => cases h
    | frame p e =>
      simp only [finishes] at h
      split at h
      · rename_i key' block hend
        obtain ⟨hk,rfl⟩ : e.turn = k ∧ key' = key := by simpa using h
        exact ⟨p,e,block,rfl,hk,hend⟩
      · cases h
  · rintro ⟨p,e,block,rfl,rfl,hend⟩
    simp [finishes,hend]

end Entry

/-! ### Places -/

theorem mem_places : p ∈ places script ↔ ∃ e, Entry.frame p e ∈ script := by
  simp only [places,List.mem_filterMap]
  constructor
  · rintro ⟨y,hy,hp⟩
    cases y with
    | frame q e => exact ⟨e,Option.some.inj hp ▸ hy⟩
    | ended => cases hp
  · rintro ⟨e,he⟩
    exact ⟨_,he,rfl⟩

theorem mem_put : y ∈ put p e script ↔ y = .frame p e ∨ y ∈ script := by
  induction script with
  | nil => simp [put]
  | cons z rest ih =>
    cases z with
    | ended => simp only [put,List.mem_cons,ih]; tauto
    | frame q e' =>
      simp only [put]
      split
      · simp
      · simp only [List.mem_cons,ih]; tauto

/-- What comes after the place, and what comes before it. -/
theorem exists_split (hs : (places script).Pairwise (· < ·)) (hp : p ∉ places script)
    (e : ChatEvent) : ∃ A, script = A ++ since p script ∧
      put p e script = A ++ .frame p e :: since p script ∧
      (∀ q ∈ places A, q < p) ∧ ∀ q ∈ places (since p script), p < q := by
  induction script with
  | nil => exact ⟨[],rfl,rfl,fun _ h => (List.not_mem_nil h).elim,fun _ h => (List.not_mem_nil h).elim⟩
  | cons y rest ih =>
    cases y with
    | ended =>
      obtain ⟨A,hsplit,hput,hbefore,hafter⟩ := ih hs hp
      refine ⟨.ended :: A,?_,?_,hbefore,hafter⟩
      · rw [since,List.cons_append,← hsplit]
      · rw [put,since,List.cons_append,← hput]
    | frame q e' =>
      have hs' : (∀ r ∈ places rest, q < r) ∧ (places rest).Pairwise (· < ·) :=
        List.pairwise_cons.mp hs
      have hne : q ≠ p ∧ p ∉ places rest := by
        refine ⟨fun h => hp ?_,fun h => hp (List.mem_cons_of_mem _ h)⟩
        exact h ▸ List.mem_cons_self
      by_cases hlt : p < q
      · refine ⟨[],?_,?_,fun _ h => (List.not_mem_nil h).elim,?_⟩
        · simp only [since,if_pos hlt,List.nil_append]
        · simp only [put,since,if_pos hlt,List.nil_append]
        · simp only [since,if_pos hlt]
          intro r hr
          have hr : r = q ∨ r ∈ places rest := List.mem_cons.mp hr
          rcases hr with rfl | hr
          · exact hlt
          · exact Nat.lt_trans hlt (hs'.1 r hr)
      · obtain ⟨A,hsplit,hput,hbefore,hafter⟩ := ih hs'.2 hne.2
        have hsince : since p (.frame q e' :: rest) = since p rest := by
          simp only [since,if_neg hlt,if_neg hne.1]
        rw [hsince]
        refine ⟨.frame q e' :: A,?_,?_,fun r hr => ?_,hafter⟩
        · rw [List.cons_append,← hsplit]
        · simp only [put,if_neg hlt,List.cons_append,← hput]
        · have hr : r = q ∨ r ∈ places A := List.mem_cons.mp hr
          rcases hr with rfl | hr
          · omega
          · exact hbefore r hr

theorem since_of_split (hs : (places (A ++ .frame p e :: B)).Pairwise (· < ·)) :
    since p (A ++ .frame p e :: B) = B := by
  induction A with
  | nil => simp [since]
  | cons y A ih =>
    cases y with
    | ended => exact ih hs
    | frame q e' =>
      have hs' : (∀ r ∈ places (A ++ .frame p e :: B), q < r) ∧
          (places (A ++ .frame p e :: B)).Pairwise (· < ·) := List.pairwise_cons.mp hs
      have hlt : q < p := hs'.1 p (mem_places.mpr ⟨e,by simp⟩)
      simp only [List.cons_append,since]
      rw [if_neg (by omega),if_neg (by omega)]
      exact ih hs'.2

/-- A frame of the script stands before what comes after its place. -/
theorem exists_frame (hs : (places script).Pairwise (· < ·)) (he : .frame p e ∈ script) :
    ∃ A, script = A ++ .frame p e :: since p script ∧ (∀ q ∈ places A, q < p) ∧
      ∀ q ∈ places (since p script), p < q := by
  obtain ⟨A,B,rfl⟩ := List.append_of_mem he
  rw [since_of_split hs]
  have hparts : (places A ++ p :: places B).Pairwise (· < ·) := by
    simpa [places,List.filterMap_append,Entry.place?] using hs
  obtain ⟨_,hB,hA⟩ := List.pairwise_append.mp hparts
  exact ⟨A,rfl,fun q hq => hA q hq p List.mem_cons_self,(List.pairwise_cons.mp hB).1⟩

theorem since_sublist (p : Nat) (script : List Entry) : (since p script).Sublist script := by
  induction script with
  | nil => exact .slnil
  | cons y rest ih =>
    cases y with
    | ended => exact ih.cons _
    | frame q e =>
      simp only [since]
      split
      · exact .refl _
      · split
        · exact List.sublist_cons_self _ _
        · exact ih.cons _

theorem mem_since (h : .frame q e ∈ script) (hlt : p < q) : .frame q e ∈ since p script := by
  induction script with
  | nil => cases h
  | cons y rest ih =>
    cases y with
    | ended => exact ih (by simpa using h)
    | frame r e' =>
      simp only [since]
      split
      · exact h
      · have hrest : .frame q e ∈ rest := by
          refine (List.mem_cons.mp h).resolve_left fun hsame => ?_
          have hq : q = r := (Entry.frame.inj hsame).1
          omega
        split
        · exact hrest
        · exact ih hrest

theorem since_put_of_lt (h : q < p) (e : ChatEvent) (script : List Entry) :
    since q (put p e script) = put p e (since q script) := by
  induction script with
  | nil => simp [put,since,h]
  | cons y rest ih =>
    cases y with
    | ended => exact ih
    | frame r e' =>
      simp only [put]
      by_cases hpr : p < r
      · have hqr : q < r := Nat.lt_trans h hpr
        simp only [hpr,if_true,since,h,hqr,put]
      · simp only [hpr,if_false,since]
        by_cases hqr : q < r
        · simp only [hqr,if_true,put,hpr,if_false]
        · simp only [hqr,if_false]
          split
          · rfl
          · exact ih

theorem since_put_of_gt (h : p < q) (e : ChatEvent) (script : List Entry) :
    since q (put p e script) = since q script := by
  induction script with
  | nil =>
    simp only [put,since]
    rw [if_neg (by omega),if_neg (by omega)]
  | cons y rest ih =>
    cases y with
    | ended => exact ih
    | frame r e' =>
      simp only [put]
      split
      · rw [since,if_neg (by omega),if_neg (by omega)]
      · have hr : ¬q < r ∧ r ≠ q := by omega
        simp only [since,if_neg hr.1,if_neg hr.2,ih]

theorem places_put (hs : (places script).Pairwise (· < ·)) (hp : p ∉ places script)
    (e : ChatEvent) : (places (put p e script)).Pairwise (· < ·) := by
  obtain ⟨A,hsplit,hput,hbefore,hafter⟩ := exists_split hs hp e
  have hparts : (places A ++ places (since p script)).Pairwise (· < ·) := by
    rw [hsplit] at hs
    simpa only [places,List.filterMap_append] using hs
  obtain ⟨hA,hB,hAB⟩ := List.pairwise_append.mp hparts
  rw [hput]
  have hplaces : places (A ++ .frame p e :: since p script) =
      places A ++ p :: places (since p script) := by
    simp [places,List.filterMap_append,Entry.place?]
  rw [hplaces]
  refine List.pairwise_append.mpr ⟨hA,List.pairwise_cons.mpr ⟨hafter,hB⟩,fun q hq r hr => ?_⟩
  rcases List.mem_cons.mp hr with rfl | hr
  · exact hbefore q hq
  · exact hAB q hq r hr

/-! ### The turns that are live -/

namespace Entry

theorem starts_iff : y.starts k = true ↔ ∃ p e, y = .frame p e ∧ e.body = .turnStart ∧ e.turn = k := by
  cases y <;> simp [starts]

theorem stops_of_cuts (h : y.stops k = false) : y.shown.cuts k = false ∧ y.aborts = false := by
  simpa [stops] using h

end Entry

namespace View

variable {v w : View}

theorem isLive_congr (h : v.live.map TurnDraft.key = w.live.map TurnDraft.key)
    (k : String × String) : v.isLive k = w.isLive k := by
  have hany (v : View) : v.isLive k = (v.live.map TurnDraft.key).any fun k' => k' = k := by
    simp only [isLive,List.any_map,Function.comp_def]
  rw [hany,hany,h]

private theorem keys_consumeDrafts (member : String) (live : List TurnDraft) :
    (consumeDrafts member live).map TurnDraft.key = live.map TurnDraft.key := by
  rw [consumeDrafts]
  split
  · rfl
  · rename_i i _
    refine List.ext_getElem? fun j => ?_
    simp only [List.getElem?_map,List.getElem?_modify]
    cases live[j]? with
    | none => rfl
    | some t =>
      simp only [Option.map_some]
      split <;> rfl

private theorem isLive_turnStart (v : View) (k' k : String × String) :
    (v.turnStart k').isLive k = (v.isLive k || decide (k' = k)) := by
  simp only [turnStart]
  split
  · rename_i hany
    by_cases hk : k' = k
    · subst hk
      simpa [isLive] using hany
    · simp [hk]
  · simp only [isLive,List.any_append,List.any_cons,List.any_nil,Bool.or_false]
    rfl

private theorem isLive_close (v : View) (k' k : String × String) (interrupted : Bool) :
    (v.close k' interrupted).isLive k = (v.isLive k && !decide (k' = k)) := by
  rw [close]
  split
  · rename_i hnone
    have hgone : ∀ t ∈ v.live, t.key ≠ k' := by simpa using hnone
    by_cases hk : k' = k
    · subst hk
      simpa [isLive] using hgone
    · simp [hk]
  · by_cases hk : k' = k
    · subst hk
      simp [isLive]
    · have hfilter : ∀ t ∈ v.live, t.key = k → t.key ≠ k' :=
        fun t _ ht he => hk (he.symm.trans ht)
      simp only [isLive,hk,decide_false,Bool.not_false,Bool.and_true]
      rw [Bool.eq_iff_iff]
      simp only [List.any_eq_true,List.mem_filter,decide_eq_true_eq]
      constructor
      · intro hex
        obtain ⟨t,ht,hkey⟩ := hex
        exact ⟨t,ht.1,hkey⟩
      · intro hex
        obtain ⟨t,ht,hkey⟩ := hex
        exact ⟨t,⟨ht,hfilter t ht hkey⟩,hkey⟩

/-- A turn is live after an entry if it starts it, or if it does not end it. -/
theorem isLive_after (v : View) (y : Entry) (k : String × String) :
    (v.after y.shown).isLive k = (v.isLive k && !y.stops k || y.starts k) := by
  have hkeep {v' : View} (hkeys : v'.live.map TurnDraft.key = v.live.map TurnDraft.key)
      (hstops : y.stops k = false) (hstarts : y.starts k = false) :
      v'.isLive k = (v.isLive k && !y.stops k || y.starts k) := by
    rw [isLive_congr hkeys,hstops,hstarts]
    simp
  have hmap {f : TurnDraft → TurnDraft} (hf : ∀ t, (f t).key = t.key) :
      (v.mapLive f).live.map TurnDraft.key = v.live.map TurnDraft.key := by
    simp [mapLive,Function.comp_def,hf]
  cases y with
  | ended => simp [Entry.shown,after,closeAll,isLive,Entry.stops,Entry.starts,Shown.cuts]
  | frame p e =>
    obtain ⟨member,turnId,body⟩ := e
    cases body with
    | queued position => exact hkeep rfl rfl rfl
    | teamMessage member' message seq =>
      refine hkeep ?_ rfl rfl
      simp only [Entry.shown,after,apply,teamMessage]
      split
      · rfl
      · split
        · rfl
        · exact keys_consumeDrafts member' v.live
    | memberView member' sender message =>
      refine hkeep ?_ rfl rfl
      simp only [Entry.shown,after,apply,memberView]
      split <;> rfl
    | turnStart =>
      have hstops : Entry.stops k (.frame p ⟨member,turnId,.turnStart⟩) = false := rfl
      have hstarts : Entry.starts k (.frame p ⟨member,turnId,.turnStart⟩) =
          decide ((member,turnId) = k) := by
        rw [Entry.starts,decide_eq_true rfl,Bool.true_and]
        rfl
      rw [hstops,hstarts,Bool.not_false,Bool.and_true]
      exact isLive_turnStart v (member,turnId) k
    | blockStart step index type toolId name =>
      exact hkeep (hmap fun t => editDraft_key _ t) rfl rfl
    | delta step index text => exact hkeep (hmap fun t => editDraft_key _ t) rfl rfl
    | blockEnd step index block => exact hkeep (hmap fun t => editDraft_key _ t) rfl rfl
    | toolResult toolId status result => exact hkeep (hmap fun _ => rfl) rfl rfl
    | turnEnd status error =>
      have hcloses : (v.isLive k && !decide ((member,turnId) = k)) =
          (v.isLive k && !(decide ((member,turnId) = k) || false) || false) := by simp
      cases status with
      | unspecified => exact hkeep rfl rfl rfl
      | aborted => simp [Entry.shown,after,apply,isLive,Entry.stops,Entry.starts,Entry.aborts,
          ChatEvent.aborts]
      | completed => exact (isLive_close v _ k false).trans hcloses
      | error => exact (isLive_close v _ k true).trans hcloses
      | canceled => exact (isLive_close v _ k true).trans hcloses
    | unknown => exact hkeep rfl rfl rfl

/-- A turn that no entry ends stays live. -/
theorem isLive_foldl (h : v.isLive k = true) (hB : ∀ y ∈ B, y.stops k = false) :
    ((told B).foldl View.after v).isLive k = true := by
  induction B generalizing v with
  | nil => exact h
  | cons y B ih =>
    refine ih ?_ fun z hz => hB z (List.mem_cons_of_mem _ hz)
    rw [isLive_after,h,hB y List.mem_cons_self]
    rfl

/-- A turn that is live, and was not started, was live and has not ended. -/
theorem isLive_of_foldl (h : ((told B).foldl View.after v).isLive k = true)
    (hB : ∀ y ∈ B, y.starts k = false) : v.isLive k = true ∧ ∀ y ∈ B, y.stops k = false := by
  induction B generalizing v with
  | nil => exact ⟨h,fun _ hy => (List.not_mem_nil hy).elim⟩
  | cons y B ih =>
    obtain ⟨hlive,hrest⟩ := ih h fun z hz => hB z (List.mem_cons_of_mem _ hz)
    rw [isLive_after,hB y List.mem_cons_self] at hlive
    obtain ⟨hv,hy⟩ : v.isLive k = true ∧ y.stops k = false := by simpa using hlive
    refine ⟨hv,fun z hz => ?_⟩
    rcases List.mem_cons.mp hz with rfl | hz
    · exact hy
    · exact hrest z hz

end View

/-! ### Frames that are left out -/

theorem mem_without : y ∈ without dropped script ↔
    y ∈ script ∧ ∀ p ∈ y.place?, p ∉ dropped := by
  rw [without,List.mem_filter]
  cases y <;> simp [Entry.place?]

theorem without_append (dropped : List Nat) (A B : List Entry) :
    without dropped (A ++ B) = without dropped A ++ without dropped B :=
  List.filter_append A B

theorem without_frame_of_mem (hp : p ∈ dropped) (A B : List Entry) (e : ChatEvent) :
    without dropped (A ++ .frame p e :: B) = without dropped A ++ without dropped B := by
  simp [without,hp]

theorem without_frame_of_not_mem (hp : p ∉ dropped) (A B : List Entry) (e : ChatEvent) :
    without dropped (A ++ .frame p e :: B) =
      without dropped A ++ .frame p e :: without dropped B := by
  simp [without,hp]

theorem without_congr {dropped' : List Nat} (h : ∀ p ∈ places script, p ∈ dropped ↔ p ∈ dropped') :
    without dropped script = without dropped' script := by
  refine List.filter_congr fun y hy => ?_
  cases y with
  | ended => rfl
  | frame p e => simp [h p (mem_places.mpr ⟨e,hy⟩)]

/-- The script is safe with one more entry that leaves the turn, or comes after the end. -/
theorem safe_insert (h : safe k key (A ++ B) = true)
    (hy : y.shown.cuts k = false ∨ y.covers k key = true ∨ covered k key A = true) :
    safe k key (A ++ y :: B) = true := by
  induction A with
  | nil =>
    have h : safe k key B = true := h
    rcases hy with hy | hy | hy
    · simp [safe,hy,h]
    · simp [safe,hy]
    · cases hy
  | cons z A ih =>
    simp only [List.cons_append,safe,Bool.or_eq_true,Bool.and_eq_true] at h ⊢
    by_cases hz : z.covers k key = true
    · exact .inl hz
    · refine .inr ((h.resolve_left hz).imp id fun h => ih h ?_)
      refine hy.imp id (Or.imp id fun hcovered => ?_)
      simpa [covered,hz] using hcovered

theorem safe_of_open (h : ∀ y ∈ script, y.shown.cuts k = false) : safe k key script = true := by
  induction script with
  | nil => rfl
  | cons y rest ih =>
    simp only [safe,Bool.or_eq_true,Bool.and_eq_true]
    exact .inr ⟨by simp [h y List.mem_cons_self],ih fun z hz => h z (List.mem_cons_of_mem _ hz)⟩

namespace View

variable {S S' : Blocks} {v w : View}

/-- What covers a block makes its texts the same again. -/
theorem after_covers (h : v.blank S = w.blank S) (hy : v.Closable S y.shown)
    (hagrees : ∀ e ∈ y.event?, ∀ t ∈ w.live, t.Agrees e) :
    (v.after y.shown).blank {block ∈ S | y.covers block.1 block.2 = false} =
      (w.after y.shown).blank {block ∈ S | y.covers block.1 block.2 = false} := by
  have hplain (hcovers : ∀ block ∈ S, y.covers block.1 block.2 = false) :
      {block ∈ S | y.covers block.1 block.2 = false} = S := by
    ext block
    exact ⟨fun h => h.1,fun h => ⟨h,hcovers block h⟩⟩
  cases y with
  | ended =>
    rw [hplain fun _ _ => rfl]
    exact after_congr h hy
  | frame p e =>
    by_cases haborts : e.aborts = true
    · have hempty (v : View) : v.after (Entry.shown (.frame p e)) = {} := apply_aborts haborts
      rw [hempty,hempty]
    · cases hend : e.endOf with
      | none =>
        rw [hplain fun block _ => by simp [Entry.covers,Entry.finishes,Entry.aborts,hend,haborts]]
        exact after_congr h hy
      | some block =>
        refine apply_end h hend (hagrees e rfl) fun t _ key hmem => ?_
        by_cases hkey : (t.key,key) = (e.turn,block.1)
        · exact .inr hkey
        · refine .inl ⟨hmem,?_⟩
          have hne : e.turn = t.key → block.1 ≠ key := fun ht hk => hkey (by rw [ht,hk])
          simpa [Entry.covers,Entry.finishes,Entry.aborts,hend,haborts] using hne

end View

end Dominion.Web
