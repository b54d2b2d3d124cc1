import Mathlib.Logic.Function.Basic

/-! # A stored value and its projection

Any number of publishers write a value and then bring a registry into line with it: they take the
handle of the live registration, release it and register what the new value derives to.  The writes
and the registry are separate, so the publishers have to take turns. -/
namespace Dominion.Framework.Projection

/-- How far a publisher is. -/
inductive Stage (α δ : Type) where
  | out
  /-- The value is written, or removed; the handle has not been taken. -/
  | taking (v : Option α)
  /-- The handle is taken; its registration is about to be released. -/
  | retiring (v : Option α) (token : Nat)
  /-- A registration is under way, for a value that was `fresh` or in place of another one. -/
  | publishing (v : α) (d : δ) (fresh : Bool)
  /-- The registration is live and its handle not yet retained. -/
  | published (v : α) (token : Nat)
  /-- A fresh value could not be registered and is about to be removed again. -/
  | withdrawing (v : α)

structure Entry (α δ : Type) where
  stored : Option α
  live : Option (Nat × δ)
  handle : Option Nat
  /-- The publisher that has written last. -/
  writer : Option Nat
  stage : Nat → Stage α δ

variable {α δ : Type} {derive : α → Option δ} {c k : Nat} {s s' : Entry α δ}

/-- A value is about to be registered, if it can be. -/
def announce (derive : α → Option δ) (v : α) (fresh : Bool) : Stage α δ :=
  match derive v with
  | some d => .publishing v d fresh
  | none => if fresh then .withdrawing v else .out

/-- What follows once no registration is in the way. -/
def proceed (derive : α → Option δ) : Option α → Stage α δ
  | none => .out
  | some v => announce derive v false

def Entry.goto (s : Entry α δ) (c : Nat) (stage : Stage α δ) : Entry α δ :=
  { s with stage := Function.update s.stage c stage }

/-- The registration is released if it is the live one. -/
def release (token : Nat) (live : Option (Nat × δ)) : Option (Nat × δ) :=
  if live.map Prod.fst = some token then none else live

/-- What publisher `c` can do next. -/
inductive Step (derive : α → Option δ) (c : Nat) (s : Entry α δ) : Entry α δ → Prop
  | create {v : α} (hs : s.stage c = .out) (hnone : s.stored = none) :
    Step derive c s ({ s with stored := some v, writer := some c }.goto c (announce derive v true))
  | write {v : Option α} (hs : s.stage c = .out) (hsome : s.stored ≠ none) :
    Step derive c s ({ s with stored := v, writer := some c }.goto c (.taking v))
  | take {v : Option α} (hs : s.stage c = .taking v) :
    Step derive c s ({ s with handle := none }.goto c (match s.handle with
      | some token => .retiring v token
      | none => proceed derive v))
  | retire {v : Option α} {token : Nat} (hs : s.stage c = .retiring v token) :
    Step derive c s ({ s with live := release token s.live }.goto c (proceed derive v))
  | publish {v : α} {d : δ} {fresh : Bool} (token : Nat) (hs : s.stage c = .publishing v d fresh)
      (hlive : s.live = none) :
    Step derive c s ({ s with live := some (token,d) }.goto c (.published v token))
  | reject {v : α} {d : δ} {fresh : Bool} (hs : s.stage c = .publishing v d fresh)
      (hlive : s.live ≠ none) :
    Step derive c s (s.goto c (if fresh then .withdrawing v else .out))
  | retain {v : α} {token : Nat} (hs : s.stage c = .published v token) :
    Step derive c s ({ s with handle := some token }.goto c .out)
  | withdraw {v : α} (hs : s.stage c = .withdrawing v) (hsome : s.stored ≠ none) :
    Step derive c s ({ s with stored := none, writer := some c }.goto c .out)
  | abandon {v : α} (hs : s.stage c = .withdrawing v) (hnone : s.stored = none) :
    Step derive c s (s.goto c .out)

/-! ## Turns -/

/-- The publisher is between the handle that it has taken and the one that it retains. -/
def Stage.isOpen : Stage α δ → Bool
  | .retiring _ _ => true
  | .publishing _ _ fresh => !fresh
  | .published _ _ => true
  | _ => false

/-- The value that the publisher has written and not yet done with. -/
def Stage.written : Stage α δ → Option (Option α)
  | .out => none
  | .taking v => some v
  | .retiring v _ => some v
  | .publishing v _ _ => some (some v)
  | .published v _ => some (some v)
  | .withdrawing v => some (some v)

/-- The publisher has removed the value. -/
def Stage.removes : Stage α δ → Bool
  | .taking v => v.isNone
  | .retiring v _ => v.isNone
  | _ => false

def Stage.isTaking : Stage α δ → Bool
  | .taking _ => true
  | _ => false

/-- A fresh value is not in the registry. -/
def Stage.isFresh : Stage α δ → Bool
  | .publishing _ _ fresh => fresh
  | .withdrawing _ => true
  | _ => false

def Entry.Idle (s : Entry α δ) : Prop :=
  ∀ k, (s.stage k).isOpen = false

/-- The publisher has written last, or the one that has will still take the handle. -/
def Entry.Turn (s : Entry α δ) (c : Nat) : Prop :=
  ∃ w, s.writer = some w ∧ (w = c ∨ (s.stage w).isTaking = true)

/-- The steps on the registry are taken in turns. -/
def InTurn (s : Entry α δ) (c : Nat) : Prop :=
  match s.stage c with
  | .taking (some _) => s.Idle ∧ s.Turn c
  | .taking none => s.Idle ∧ (s.stored = none ∨ ∃ w, s.writer = some w ∧
      ((s.stage w).isTaking = true ∨ (s.stage w).isFresh = true))
  | .publishing _ _ true => s.live ≠ none ∨ s.Idle ∧ s.Turn c
  | .withdrawing _ => s.stored = none ∨ s.writer = some c
  | _ => True

/-- The registry has what the stored value derives to, and its handle is retained. -/
structure Mirrors (derive : α → Option δ) (s : Entry α δ) : Prop where
  live : s.live.map Prod.snd = s.stored.bind derive
  handle : s.handle = s.live.map Prod.fst

@[simp] theorem goto_self (s : Entry α δ) (c : Nat) (stage : Stage α δ) :
    (s.goto c stage).stage c = stage :=
  Function.update_self ..

private theorem goto_ne {stage : Stage α δ} (h : k ≠ c) : (s.goto c stage).stage k = s.stage k :=
  Function.update_of_ne h ..

/-- Nobody else is open. -/
def Entry.Others (s : Entry α δ) (c : Nat) : Prop :=
  ∀ k, k ≠ c → (s.stage k).isOpen = false

private theorem idle_goto {stage : Stage α δ} (h : s.Others c) (hstage : stage.isOpen = false) :
    (s.goto c stage).Idle := by
  intro k
  by_cases hk : k = c
  · rw [hk,goto_self]
    exact hstage
  · rw [goto_ne hk]
    exact h k hk

/-! ## The registry -/

/-- What an open publisher knows of the live registration. -/
def Stage.Holds (derive : α → Option δ) (live : Option (Nat × δ)) : Stage α δ → Prop
  | .retiring _ token => ∃ d, live = some (token,d)
  | .publishing _ _ _ => live = none
  | .published v token => ∃ d, live = some (token,d) ∧ derive v = some d
  | _ => True

/-- What is about to be registered is derived from the value. -/
def Stage.Derived (derive : α → Option δ) : Stage α δ → Prop
  | .publishing v d _ => derive v = some d
  | _ => True

/-- At most one publisher is open, and it knows what is registered; otherwise the handle is
retained. -/
structure Kept (derive : α → Option δ) (s : Entry α δ) : Prop where
  derived : ∀ k, (s.stage k).Derived derive
  unique : ∀ k k', (s.stage k).isOpen = true → (s.stage k').isOpen = true → k = k'
  held : ∀ k, (s.stage k).isOpen = true → s.handle = none ∧ (s.stage k).Holds derive s.live
  free : s.Idle → s.handle = s.live.map Prod.fst

private theorem Kept.others (h : Kept derive s) (hc : (s.stage c).isOpen = true) : s.Others c := by
  intro k hk
  by_contra hopen
  exact hk (h.unique k c (by simpa using hopen) hc)

private theorem derived_goto {stage : Stage α δ} (h : ∀ k, (s.stage k).Derived derive)
    (hstage : stage.Derived derive) (k : Nat) : ((s.goto c stage).stage k).Derived derive := by
  by_cases hk : k = c
  · rw [hk,goto_self]
    exact hstage
  · rw [goto_ne hk]
    exact h k

/-- A publisher that is not open goes on without being open. -/
theorem Kept.stay (stage : Stage α δ) (h : Kept derive s) (hc : (s.stage c).isOpen = false)
    (hstage : stage.isOpen = false) (hderived : stage.Derived derive) :
    Kept derive (s.goto c stage) := by
  have hopen : ∀ k, ((s.goto c stage).stage k).isOpen = (s.stage k).isOpen := by
    intro k
    by_cases hk : k = c
    · rw [hk,goto_self,hstage,hc]
    · rw [goto_ne hk]
  constructor
  · exact derived_goto h.derived hderived
  · intro k k' hk hk'
    rw [hopen] at hk hk'
    exact h.unique k k' hk hk'
  · intro k hk
    rw [hopen] at hk
    have hne : k ≠ c := by
      rintro rfl
      rw [hc] at hk
      cases hk
    rw [goto_ne hne]
    exact h.held k hk
  · intro hidle
    exact h.free fun k => (hopen k).symm.trans (hidle k)

/-- Where nobody else is open, a publisher is open and holds what it knows. -/
theorem kept_open (stage : Stage α δ) (h : ∀ k, (s.stage k).Derived derive) (hothers : s.Others c)
    (hopen : stage.isOpen = true) (hhandle : s.handle = none) (hholds : stage.Holds derive s.live)
    (hderived : stage.Derived derive) : Kept derive (s.goto c stage) := by
  have honly : ∀ k, ((s.goto c stage).stage k).isOpen = true → k = c := by
    intro k hk
    by_contra hne
    rw [goto_ne hne,hothers k hne] at hk
    cases hk
  constructor
  · exact derived_goto h hderived
  · intro k k' hk hk'
    rw [honly k hk,honly k' hk']
  · intro k hk
    rw [honly k hk,goto_self]
    exact ⟨hhandle,hholds⟩
  · intro hidle
    have hc := hidle c
    rw [goto_self,hopen] at hc
    cases hc

/-- Where nobody else is open, a publisher is done with the registry. -/
theorem kept_closed (stage : Stage α δ) (h : ∀ k, (s.stage k).Derived derive) (hothers : s.Others c)
    (hclosed : stage.isOpen = false) (hhandle : s.handle = s.live.map Prod.fst)
    (hderived : stage.Derived derive) : Kept derive (s.goto c stage) := by
  have hidle : (s.goto c stage).Idle := idle_goto hothers hclosed
  constructor
  · exact derived_goto h hderived
  · intro k k' hk
    rw [hidle k] at hk
    cases hk
  · intro k hk
    rw [hidle k] at hk
    cases hk
  · intro _
    exact hhandle

private theorem derived_announce (v : α) (fresh : Bool) :
    (announce derive v fresh).Derived derive := by
  unfold announce
  split
  · assumption
  · cases fresh <;> trivial

private theorem derived_proceed (v : Option α) : (proceed derive v).Derived derive := by
  cases v with
  | none => trivial
  | some v => exact derived_announce v false

/-- Nothing is registered and nobody else is open: a publisher goes on to register, or is done. -/
theorem kept_proceed (h : ∀ k, (s.stage k).Derived derive) (hothers : s.Others c)
    (hhandle : s.handle = none) (hlive : s.live = none) (v : Option α) :
    Kept derive (s.goto c (proceed derive v)) := by
  cases hopen : (proceed derive v).isOpen with
  | false => exact kept_closed _ h hothers hopen (by rw [hhandle,hlive]; rfl) (derived_proceed v)
  | true =>
    apply kept_open _ h hothers hopen hhandle _ (derived_proceed v)
    cases v with
    | none => cases hopen
    | some v =>
      change (announce derive v false).Holds derive s.live
      unfold announce
      split
      · exact hlive
      · trivial

private theorem release_of_live {token : Nat} {live : Option (Nat × δ)} {d : δ}
    (h : live = some (token,d)) : release token live = none := by
  rw [release,h]
  simp

/-- What is stored and who has written it do not matter. -/
theorem Kept.congr (h : Kept derive s) (hstage : s'.stage = s.stage) (hlive : s'.live = s.live)
    (hhandle : s'.handle = s.handle) : Kept derive s' := by
  constructor
  · rw [hstage]
    exact h.derived
  · rw [hstage]
    exact h.unique
  · rw [hstage,hlive,hhandle]
    exact h.held
  · unfold Entry.Idle
    rw [hstage,hlive,hhandle]
    exact h.free

private theorem announce_closed (v : α) : (announce derive v true).isOpen = false := by
  unfold announce
  cases derive v with
  | none => rfl
  | some d => rfl

private theorem idle_of_taking {v : Option α} (hs : s.stage c = .taking v) (h : InTurn s c) :
    s.Idle := by
  unfold InTurn at h
  rw [hs] at h
  cases v with
  | none => exact h.1
  | some v => exact h.1

private theorem idle_of_fresh {v : α} {d : δ} (hs : s.stage c = .publishing v d true)
    (hlive : s.live = none) (h : InTurn s c) : s.Idle ∧ s.Turn c := by
  unfold InTurn at h
  rw [hs] at h
  exact h.resolve_left fun hne => hne hlive

private theorem Kept.step (h : Kept derive s) (hturn : InTurn s c) (hstep : Step derive c s s') :
    Kept derive s' := by
  cases hstep with
  | @create v hs hnone =>
    have hstay := h.stay (announce derive v true) (c := c) (by rw [hs]; rfl) (announce_closed v)
      (derived_announce v true)
    exact hstay.congr rfl rfl rfl
  | @write v hs hsome =>
    have hstay := h.stay (.taking v) (c := c) (by rw [hs]; rfl) rfl trivial
    exact hstay.congr rfl rfl rfl
  | @take v hs =>
    have hidle := idle_of_taking hs hturn
    have hfree := h.free hidle
    cases hhandle : s.handle with
    | none =>
      have hlive : s.live = none := by
        rw [hhandle] at hfree
        exact Option.map_eq_none_iff.mp hfree.symm
      exact kept_proceed (s := { s with handle := none }) h.derived (fun k _ => hidle k) rfl hlive v
    | some token =>
      rw [hhandle] at hfree
      obtain ⟨⟨token',d⟩,hlive,rfl⟩ := Option.map_eq_some_iff.mp hfree.symm
      exact kept_open (s := { s with handle := none }) _ h.derived (fun k _ => hidle k) rfl rfl
        ⟨d,hlive⟩ trivial
  | @retire v token hs =>
    have hopen : (s.stage c).isOpen = true := by rw [hs]; rfl
    obtain ⟨hhandle,hholds⟩ := h.held c hopen
    rw [hs] at hholds
    obtain ⟨d,hlive⟩ := hholds
    exact kept_proceed (s := { s with live := release token s.live }) h.derived (h.others hopen)
      hhandle (release_of_live hlive) v
  | @publish v d fresh token hs hlive =>
    have hd : derive v = some d := by
      have hderived := h.derived c
      rw [hs] at hderived
      exact hderived
    have hclear : s.Others c ∧ s.handle = none := by
      cases fresh with
      | false =>
        have hopen : (s.stage c).isOpen = true := by rw [hs]; rfl
        exact ⟨h.others hopen,(h.held c hopen).1⟩
      | true =>
        have hidle := (idle_of_fresh hs hlive hturn).1
        refine ⟨fun k _ => hidle k,?_⟩
        rw [h.free hidle,hlive]
        rfl
    exact kept_open (s := { s with live := some (token,d) }) _ h.derived hclear.1 rfl hclear.2
      ⟨d,rfl,hd⟩ trivial
  | @reject v d fresh hs hlive =>
    cases fresh with
    | false =>
      have hheld := h.held c (by rw [hs]; rfl)
      rw [hs] at hheld
      exact absurd hheld.2 hlive
    | true => exact h.stay (.withdrawing v) (by rw [hs]; rfl) rfl trivial
  | @retain v token hs =>
    have hopen : (s.stage c).isOpen = true := by rw [hs]; rfl
    obtain ⟨hhandle,hholds⟩ := h.held c hopen
    rw [hs] at hholds
    obtain ⟨d,hlive,_⟩ := hholds
    apply kept_closed (s := { s with handle := some token }) .out h.derived (h.others hopen) rfl _
      trivial
    rw [hlive]
    rfl
  | @withdraw v hs hsome =>
    have hstay := h.stay .out (c := c) (by rw [hs]; rfl) rfl trivial
    exact hstay.congr rfl rfl rfl
  | @abandon v hs hnone => exact h.stay .out (by rw [hs]; rfl) rfl trivial

/-! ## The last value -/

/-- A removal is still to reach the registry, or nothing is registered. -/
def Entry.Clearing (s : Entry α δ) : Prop :=
  (∃ k, (s.stage k).removes = true) ∨ s.live = none ∧ s.Idle

/-- The publisher that has written last, or one that has removed the value, is not done. -/
def Entry.Owed (s : Entry α δ) : Prop :=
  (∃ w v, s.writer = some w ∧ (s.stage w).written = some (some v)) ∨
    s.stored = none ∧ ∃ k, (s.stage k).removes = true

structure Duty (derive : α → Option δ) (s : Entry α δ) : Prop where
  written : ∀ w v, s.writer = some w → (s.stage w).written = some v → s.stored = v
  clear : ∀ w, s.writer = some w → (s.stage w).isFresh = true → s.Clearing
  due : s.Idle ∧ s.live.map Prod.snd = s.stored.bind derive ∨ s.Owed

private theorem written_of_removes {stage : Stage α δ} (h : stage.removes = true) :
    stage.written = some none := by
  cases stage with
  | taking v =>
    cases v with
    | none => rfl
    | some v => cases h
  | retiring v token =>
    cases v with
    | none => rfl
    | some v => cases h
  | _ => cases h

/-- The publisher that has written last has still to take the handle. -/
theorem Duty.owed_of_writer (h : Duty derive s) {w : Nat} (hw : s.writer = some w)
    (htaking : (s.stage w).isTaking = true) : s.Owed := by
  cases hs : s.stage w with
  | taking v =>
    cases v with
    | none => exact .inr ⟨h.written w none hw (by rw [hs]; rfl),w,by rw [hs]; rfl⟩
    | some v => exact .inl ⟨w,v,hw,by rw [hs]; rfl⟩
  | _ => simp [hs,Stage.isTaking] at htaking

/-- A publisher whose turn it is owes something, or the one that has written last does. -/
theorem Duty.owed_of_turn (h : Duty derive s) (hturn : s.Turn c) {v : α}
    (hv : (s.stage c).written = some (some v)) : s.Owed := by
  obtain ⟨w,hw,rfl | htaking⟩ := hturn
  · exact .inl ⟨w,v,hw,hv⟩
  · exact h.owed_of_writer hw htaking

private theorem Duty.owed_of_taking (h : Duty derive s) {v : Option α} (hs : s.stage c = .taking v)
    (hturn : InTurn s c) : s.Owed := by
  unfold InTurn at hturn
  rw [hs] at hturn
  cases v with
  | some v => exact h.owed_of_turn hturn.2 (by rw [hs]; rfl)
  | none =>
    rcases hturn.2 with hnone | ⟨w,hw,htaking | hfresh⟩
    · exact .inr ⟨hnone,c,by rw [hs]; rfl⟩
    · exact h.owed_of_writer hw htaking
    · cases hw' : s.stage w with
      | publishing v' d fresh => exact .inl ⟨w,v',hw,by rw [hw']; rfl⟩
      | withdrawing v' => exact .inl ⟨w,v',hw,by rw [hw']; rfl⟩
      | _ => simp [hw',Stage.isFresh] at hfresh

private theorem Duty.owed_of_open (h : Duty derive s) (hc : (s.stage c).isOpen = true) :
    s.Owed := by
  rcases h.due with hidle | howed
  · rw [hidle.1 c] at hc
    cases hc
  · exact howed

/-- A publisher goes on with the value that it has written. -/
theorem Entry.Owed.goto (h : s.Owed) (stage : Stage α δ)
    (hwritten : stage.written = (s.stage c).written)
    (hremoves : (s.stage c).removes = true → stage.removes = true) : (s.goto c stage).Owed := by
  rcases h with ⟨w,v,hw,hv⟩ | ⟨hnone,k,hk⟩
  · refine .inl ⟨w,v,hw,?_⟩
    by_cases he : w = c
    · subst he
      rw [goto_self,hwritten,hv]
    · rw [goto_ne he,hv]
  · refine .inr ⟨hnone,k,?_⟩
    by_cases he : k = c
    · subst he
      rw [goto_self]
      exact hremoves hk
    · rw [goto_ne he,hk]

/-- A publisher that is done has brought in line what is stored, or others owe something. -/
theorem Duty.finish (h : Duty derive s) (howed : s.Owed) :
    (s.goto c .out).Owed ∨ (s.stage c).written = some s.stored := by
  rcases howed with ⟨w,v,hw,hv⟩ | ⟨hnone,k,hk⟩
  · by_cases he : w = c
    · subst he
      rw [h.written w _ hw hv]
      exact .inr hv
    · exact .inl (.inl ⟨w,v,hw,by rw [goto_ne he,hv]⟩)
  · by_cases he : k = c
    · subst he
      rw [hnone]
      exact .inr (written_of_removes hk)
    · exact .inl (.inr ⟨hnone,k,by rw [goto_ne he,hk]⟩)

private theorem Duty.written_goto (h : Duty derive s) {stage : Stage α δ}
    (hstage : stage.written = none ∨ stage.written = (s.stage c).written) (w : Nat) (v : Option α)
    (hw : s.writer = some w) (hv : ((s.goto c stage).stage w).written = some v) : s.stored = v := by
  by_cases he : w = c
  · subst he
    rw [goto_self] at hv
    rcases hstage with hnone | hsame
    · rw [hnone] at hv
      cases hv
    · rw [hsame] at hv
      exact h.written w v hw hv
  · rw [goto_ne he] at hv
    exact h.written w v hw hv

/-- What is not fresh goes on without being it. -/
theorem Duty.clear_goto (h : Duty derive s) (stage : Stage α δ) (hstage : stage.isFresh = false)
    (w : Nat) (hw : s.writer = some w) (hfresh : ((s.goto c stage).stage w).isFresh = true) :
    w ≠ c ∧ (s.stage w).isFresh = true ∧ s.Clearing := by
  by_cases he : w = c
  · rw [he,goto_self,hstage] at hfresh
    cases hfresh
  · rw [goto_ne he] at hfresh
    exact ⟨he,hfresh,h.clear w hw hfresh⟩

private theorem proceed_cases (derive : α → Option δ) (v : Option α) :
    proceed derive v = .out ∧ v.bind derive = none ∨
      ∃ x d, v = some x ∧ proceed derive v = .publishing x d false := by
  cases v with
  | none => exact .inl ⟨rfl,rfl⟩
  | some x =>
    cases hd : derive x with
    | none => exact .inl ⟨by simp [proceed,announce,hd],hd⟩
    | some d => exact .inr ⟨x,d,rfl,by simp [proceed,announce,hd]⟩

private theorem Clearing.of_other {stage : Stage α δ} (h : k ≠ c)
    (hk : (s.stage k).removes = true) :
    (s.goto c stage).Clearing :=
  .inl ⟨k,by rw [goto_ne h,hk]⟩

/-- Nothing is registered any more: the publisher registers its value, or is done. -/
theorem Duty.cleared (h : Duty derive s) (howed : s.Owed) (hothers : s.Others c)
    (hlive : s.live = none) {v : Option α} (hv : (s.stage c).written = some v)
    (hfresh : ∀ w x, v = some x → s.writer = some w → w ≠ c → (s.stage w).isFresh = true →
      ∃ k, k ≠ c ∧ (s.stage k).removes = true) : Duty derive (s.goto c (proceed derive v)) := by
  rcases proceed_cases derive v with ⟨hout,hnone⟩ | ⟨x,d,rfl,hpublishing⟩
  · have hidle : (s.goto c .out).Idle := idle_goto hothers rfl
    rw [hout]
    constructor
    · exact h.written_goto (.inl rfl)
    · intro w _ _
      exact .inr ⟨hlive,hidle⟩
    · rcases h.finish howed with howed | hsame
      · exact .inr howed
      · refine .inl ⟨hidle,?_⟩
        rw [hv] at hsame
        change s.live.map Prod.snd = s.stored.bind derive
        rw [hlive,← Option.some.inj hsame,hnone]
        rfl
  · rw [hpublishing]
    constructor
    · exact h.written_goto (.inr hv.symm)
    · intro w hw hw'
      obtain ⟨hne,hw',-⟩ := h.clear_goto (.publishing x d false) rfl w hw hw'
      obtain ⟨k,hk,hremoves⟩ := hfresh w x rfl hw hne hw'
      exact Clearing.of_other hk hremoves
    · refine .inr (howed.goto (.publishing x d false) hv.symm fun hremoves => ?_)
      rw [written_of_removes hremoves] at hv
      cases hv

/-- The removal that is still to reach the registry is another publisher's. -/
theorem Entry.Clearing.other (h : s.Clearing) {v : α} (hc : (s.stage c).written = some (some v)) :
    (∃ k, k ≠ c ∧ (s.stage k).removes = true) ∨ s.live = none ∧ s.Idle := by
  rcases h with ⟨k,hk⟩ | hidle
  · refine .inl ⟨k,?_,hk⟩
    rintro rfl
    rw [written_of_removes hk] at hc
    cases hc
  · exact .inr hidle

/-- The publisher that has written last is not fresh where another one has its turn. -/
theorem Entry.Turn.not_fresh (h : s.Turn c) {w : Nat} (hw : s.writer = some w) (hne : w ≠ c) :
    (s.stage w).isFresh = false := by
  obtain ⟨w',hw',hturn⟩ := h
  rw [hw] at hw'
  cases hw'
  have htaking := hturn.resolve_left hne
  cases hs : s.stage w with
  | taking v => rfl
  | _ => simp [hs,Stage.isTaking] at htaking

private theorem announce_written (derive : α → Option δ) (v : α) :
    (announce derive v true).written = some (some v) := by
  unfold announce
  cases derive v with
  | none => rfl
  | some d => rfl

private theorem Duty.create (h : Duty derive s) {v : α} (hs : s.stage c = .out)
    (hnone : s.stored = none) :
    Duty derive ({ s with stored := some v, writer := some c }.goto c
      (announce derive v true)) where
  written w v' hw hv' := by
    cases hw
    rw [goto_self,announce_written] at hv'
    exact Option.some.inj hv'
  clear w _ _ := by
    rcases h.due with ⟨hidle,hlive⟩ | ⟨w',v',hw',hv'⟩ | ⟨_,k,hk⟩
    · rw [hnone] at hlive
      refine .inr ⟨Option.map_eq_none_iff.mp hlive,?_⟩
      exact idle_goto (fun k _ => hidle k) (announce_closed v)
    · rw [h.written w' _ hw' hv'] at hnone
      cases hnone
    · have hne : k ≠ c := by
        rintro rfl
        rw [hs] at hk
        cases hk
      exact Clearing.of_other (s := { s with stored := some v, writer := some c }) hne hk
  due := .inr (.inl ⟨c,v,rfl,by rw [goto_self,announce_written]⟩)

private theorem duty_write (derive : α → Option δ) (s : Entry α δ) (c : Nat) (v : Option α) :
    Duty derive ({ s with stored := v, writer := some c }.goto c (.taking v)) where
  written w v' hw hv' := by
    cases hw
    rw [goto_self] at hv'
    exact Option.some.inj hv'
  clear w hw hfresh := by
    cases hw
    rw [goto_self] at hfresh
    cases hfresh
  due := by
    cases v with
    | none => exact .inr (.inr ⟨rfl,c,by rw [goto_self]; rfl⟩)
    | some v => exact .inr (.inl ⟨c,v,rfl,by rw [goto_self]; rfl⟩)

private theorem Duty.take (hk : Kept derive s) (h : Duty derive s) (hturn : InTurn s c)
    {v : Option α} (hs : s.stage c = .taking v) : Duty derive ({ s with handle := none }.goto c
      (match s.handle with
        | some token => .retiring v token
        | none => proceed derive v)) := by
  have hidle := idle_of_taking hs hturn
  have howed := h.owed_of_taking hs hturn
  have hfree := hk.free hidle
  have hwritten : (s.stage c).written = some v := by rw [hs]; rfl
  have hs₁ : Duty derive { s with handle := none } := ⟨h.written,h.clear,h.due⟩
  cases hhandle : s.handle with
  | none =>
    rw [hhandle] at hfree
    apply hs₁.cleared howed (fun k _ => hidle k) (Option.map_eq_none_iff.mp hfree.symm) hwritten
    intro w x hx hw hne hfresh
    subst hx
    unfold InTurn at hturn
    rw [hs] at hturn
    have hnot := hturn.2.not_fresh hw hne
    rw [hfresh] at hnot
    cases hnot
  | some token =>
    rw [hhandle] at hfree
    obtain ⟨_,hlive,_⟩ := Option.map_eq_some_iff.mp hfree.symm
    have hremoves : (s.stage c).removes = (Stage.retiring (δ := δ) v token).removes := by
      rw [hs]
      rfl
    constructor
    · exact hs₁.written_goto (.inr hwritten.symm)
    · intro w hw hfresh
      obtain ⟨-,-,⟨k,hk⟩ | ⟨hnone,_⟩⟩ := hs₁.clear_goto (.retiring v token) rfl w hw hfresh
      · refine .inl ⟨k,?_⟩
        by_cases he : k = c
        · subst he
          rw [goto_self,← hremoves]
          exact hk
        · rw [goto_ne he]
          exact hk
      · rw [hlive] at hnone
        cases hnone
    · exact .inr (Entry.Owed.goto (s := { s with handle := none }) howed _ hwritten.symm
        fun hk => by rw [← hremoves]; exact hk)

/-- A removal that is still to reach the registry is all that a fresh value can wait for while a
publisher is open. -/
theorem Duty.remover (h : Duty derive s) {w : Nat} {v : α} (hw : s.writer = some w)
    (hfresh : (s.stage w).isFresh = true) (hc : (s.stage c).isOpen = true)
    (hv : (s.stage c).written = some (some v)) : ∃ k, k ≠ c ∧ (s.stage k).removes = true := by
  rcases (h.clear w hw hfresh).other hv with hremover | ⟨_,hidle⟩
  · exact hremover
  · rw [hidle c] at hc
    cases hc

private theorem Duty.retire (hk : Kept derive s) (h : Duty derive s) {v : Option α} {token : Nat}
    (hs : s.stage c = .retiring v token) :
    Duty derive ({ s with live := release token s.live }.goto c (proceed derive v)) := by
  have hopen : (s.stage c).isOpen = true := by rw [hs]; rfl
  have howed := h.owed_of_open hopen
  have hwritten : (s.stage c).written = some v := by rw [hs]; rfl
  obtain ⟨_,hholds⟩ := hk.held c hopen
  rw [hs] at hholds
  obtain ⟨d,hlive⟩ := hholds
  have hs₁ : Duty derive { s with live := release token s.live } := by
    refine ⟨h.written,?_,.inr howed⟩
    intro w hw hfresh
    rcases h.clear w hw hfresh with hremover | ⟨_,hidle⟩
    · exact .inl hremover
    · rw [hidle c] at hopen
      cases hopen
  apply hs₁.cleared howed (hk.others hopen) (release_of_live hlive) hwritten
  intro w x hx hw _ hfresh
  subst hx
  exact h.remover hw hfresh hopen hwritten

private theorem Duty.publish (h : Duty derive s) (hturn : InTurn s c) {v : α} {d : δ}
    {fresh : Bool} (token : Nat) (hs : s.stage c = .publishing v d fresh) (hlive : s.live = none) :
    Duty derive ({ s with live := some (token,d) }.goto c (.published v token)) := by
  have hwritten : (s.stage c).written = some (some v) := by rw [hs]; rfl
  have howed : s.Owed := by
    cases fresh with
    | false => exact h.owed_of_open (by rw [hs]; rfl)
    | true => exact h.owed_of_turn (idle_of_fresh hs hlive hturn).2 hwritten
  constructor
  · exact h.written_goto (.inr hwritten.symm)
  · intro w hw hfresh
    obtain ⟨hne,hfresh,-⟩ := h.clear_goto (.published v token) rfl w hw hfresh
    cases fresh with
    | false =>
      obtain ⟨k,hne,hremoves⟩ := h.remover hw hfresh (by rw [hs]; rfl) hwritten
      exact Clearing.of_other (s := { s with live := some (token,d) }) hne hremoves
    | true =>
      have hnot := (idle_of_fresh hs hlive hturn).2.not_fresh hw hne
      rw [hfresh] at hnot
      cases hnot
  · refine .inr (Entry.Owed.goto (s := { s with live := some (token,d) }) howed _ hwritten.symm ?_)
    intro hremoves
    rw [written_of_removes hremoves] at hwritten
    cases hwritten

private theorem Duty.reject (h : Duty derive s) {v : α} {d : δ}
    (hs : s.stage c = .publishing v d true)
    (hlive : s.live ≠ none) : Duty derive (s.goto c (.withdrawing v)) := by
  have hwritten : (s.stage c).written = some (some v) := by rw [hs]; rfl
  constructor
  · exact h.written_goto (.inr hwritten.symm)
  · intro w hw hfresh
    have hfresh : (s.stage w).isFresh = true := by
      by_cases he : w = c
      · rw [he,hs]
        rfl
      · rwa [goto_ne he] at hfresh
    rcases (h.clear w hw hfresh).other hwritten with ⟨k,hne,hremoves⟩ | ⟨hnone,_⟩
    · exact Clearing.of_other hne hremoves
    · exact absurd hnone hlive
  · rcases h.due with ⟨hidle,hsame⟩ | howed
    · exact .inl ⟨idle_goto (fun k _ => hidle k) rfl,hsame⟩
    · refine .inr (howed.goto _ hwritten.symm ?_)
      intro hremoves
      rw [hs] at hremoves
      cases hremoves

private theorem Duty.retain (hk : Kept derive s) (h : Duty derive s) {v : α} {token : Nat}
    (hs : s.stage c = .published v token) :
    Duty derive ({ s with handle := some token }.goto c .out) := by
  have hopen : (s.stage c).isOpen = true := by rw [hs]; rfl
  have hwritten : (s.stage c).written = some (some v) := by rw [hs]; rfl
  obtain ⟨_,hholds⟩ := hk.held c hopen
  rw [hs] at hholds
  obtain ⟨d,hlive,hd⟩ := hholds
  constructor
  · exact h.written_goto (.inl rfl)
  · intro w hw hfresh
    obtain ⟨_,hfresh,-⟩ := h.clear_goto .out rfl w hw hfresh
    obtain ⟨k,hne,hremoves⟩ := h.remover hw hfresh hopen hwritten
    exact Clearing.of_other (s := { s with handle := some token }) hne hremoves
  · rcases h.finish (h.owed_of_open hopen) with howed | hsame
    · exact .inr howed
    · refine .inl ⟨idle_goto (hk.others hopen) rfl,?_⟩
      rw [hwritten] at hsame
      change s.live.map Prod.snd = s.stored.bind derive
      rw [hlive,← Option.some.inj hsame,Option.bind_some,hd]
      rfl

private theorem Duty.withdraw (h : Duty derive s) (hturn : InTurn s c) {v : α}
    (hs : s.stage c = .withdrawing v) (hsome : s.stored ≠ none) :
    Duty derive ({ s with stored := none, writer := some c }.goto c .out) := by
  have hw : s.writer = some c := by
    unfold InTurn at hturn
    rw [hs] at hturn
    exact hturn.resolve_left hsome
  have hwritten : (s.stage c).written = some (some v) := by rw [hs]; rfl
  constructor
  · intro w v' hw hv'
    cases hw
    rw [goto_self] at hv'
    cases hv'
  · intro w hw hfresh
    cases hw
    rw [goto_self] at hfresh
    cases hfresh
  · rcases (h.clear c hw (by rw [hs]; rfl)).other hwritten with ⟨k,hne,hremoves⟩ | ⟨hnone,hidle⟩
    · exact .inr (.inr ⟨rfl,k,by rw [goto_ne hne]; exact hremoves⟩)
    · refine .inl ⟨idle_goto (fun k _ => hidle k) rfl,?_⟩
      change s.live.map Prod.snd = none
      rw [hnone]
      rfl

private theorem Duty.abandon (h : Duty derive s) {v : α} (hs : s.stage c = .withdrawing v)
    (hnone : s.stored = none) : Duty derive (s.goto c .out) := by
  have hwritten : (s.stage c).written = some (some v) := by rw [hs]; rfl
  constructor
  · exact h.written_goto (.inl rfl)
  · intro w hw hfresh
    obtain ⟨_,_,hclearing⟩ := h.clear_goto .out rfl w hw hfresh
    rcases hclearing.other hwritten with ⟨k,hne,hremoves⟩ | ⟨hlive,hidle⟩
    · exact Clearing.of_other hne hremoves
    · exact .inr ⟨hlive,idle_goto (fun k _ => hidle k) rfl⟩
  · rcases h.due with ⟨hidle,hsame⟩ | howed
    · exact .inl ⟨idle_goto (fun k _ => hidle k) rfl,hsame⟩
    · rcases h.finish howed with howed | hsame
      · exact .inr howed
      · rw [hwritten,hnone] at hsame
        cases hsame

private theorem Duty.step (hk : Kept derive s) (h : Duty derive s) (hturn : InTurn s c)
    (hstep : Step derive c s s') : Duty derive s' := by
  cases hstep with
  | create hs hnone => exact h.create hs hnone
  | write hs hsome => exact duty_write derive s c _
  | take hs => exact h.take hk hturn hs
  | retire hs => exact h.retire hk hs
  | publish token hs hlive => exact h.publish hturn token hs hlive
  | @reject v d fresh hs hlive =>
    cases fresh with
    | false =>
      have hheld := hk.held c (by rw [hs]; rfl)
      rw [hs] at hheld
      exact absurd hheld.2 hlive
    | true => exact h.reject hs hlive
  | retain hs => exact h.retain hk hs
  | withdraw hs hsome => exact h.withdraw hturn hs hsome
  | abandon hs hnone => exact h.abandon hs hnone

/-! ## Runs -/

/-- The registry is kept, and the last value reaches it. -/
structure Inv (derive : α → Option δ) (s : Entry α δ) : Prop where
  kept : Kept derive s
  duty : Duty derive s

theorem Inv.step (h : Inv derive s) (hturn : InTurn s c) (hstep : Step derive c s s') :
    Inv derive s' :=
  ⟨h.kept.step hturn hstep,h.duty.step h.kept hturn hstep⟩

theorem inv_of_mirrors (hout : ∀ k, s.stage k = .out) (h : Mirrors derive s) : Inv derive s where
  kept := by
    constructor
    · intro k
      rw [hout]
      trivial
    · intro k k' hk
      rw [hout] at hk
      cases hk
    · intro k hk
      rw [hout] at hk
      cases hk
    · intro _
      exact h.handle
  duty := by
    constructor
    · intro w v _ hv
      rw [hout] at hv
      cases hv
    · intro w _ hfresh
      rw [hout] at hfresh
      cases hfresh
    · refine .inl ⟨?_,h.live⟩
      intro k
      rw [hout]
      rfl

/-- Once all publishers are done, the registry mirrors what is stored. -/
theorem Inv.mirrors (h : Inv derive s) (hout : ∀ k, s.stage k = .out) : Mirrors derive s := by
  have hidle : s.Idle := by
    intro k
    rw [hout]
    rfl
  refine ⟨?_,h.kept.free hidle⟩
  rcases h.duty.due with ⟨_,hlive⟩ | ⟨w,v,_,hv⟩ | ⟨_,k,hk⟩
  · exact hlive
  · rw [hout] at hv
    cases hv
  · rw [hout] at hk
    cases hk

end Dominion.Framework.Projection
