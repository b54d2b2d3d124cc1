import Dominion.Desktop.Bridge
import Mathlib.Data.List.Basic
import Mathlib.Data.List.Nodup

/-! # Every dispatch settles once

What a dispatch holds while it is in flight and what is left of it afterwards. -/
namespace Dominion.Desktop

open Dominion.Framework

/-- A dispatch that is in flight, with its entry. -/
def Outstanding (w : World) (p : PendingDispatch) : Prop :=
  ∃ sessionName toolId, (toolId,p) ∈ w.pending sessionName

/-- The bookkeeping of the dispatches; it holds also between the parts of a step. -/
structure Core (mint : Nat → String) (w : World) : Prop where
  own : ∀ s, ∀ e ∈ w.pending s, e.1 = mint e.2.dispatch ∧ w.dispatched[e.2.dispatch]? = some s
  nodup : ∀ s, ((w.pending s).map Prod.fst).Nodup
  timers : ∀ d, d ∈ w.timers ↔ ∃ p, Outstanding w p ∧ p.dispatch = d
  listeners : ∀ g d, (g,d) ∈ w.listeners ↔ Outstanding w ⟨d,some g⟩
  once : ∀ d, (w.settled.filter fun x => x.dispatch = d).length =
    if d < w.dispatched.length ∧ d ∉ w.timers then 1 else 0
  receipts : ∀ x ∈ w.settled, ∀ s t, x.cause = .receipt s t →
    w.dispatched[x.dispatch]? = some s ∧ t = mint x.dispatch
  registered : ∀ s c, w.connections s = some c → w.attached[c]? = some s

/-- What holds between the steps, too. -/
structure Inv (mint : Nat → String) (w : World) : Prop extends Core mint w where
  connected : ∀ s, w.connections s = none → w.pending s = []

section core

variable {mint : Nat → String} {w : World} {s toolId : String} {p : PendingDispatch}
  {cause : Cause} {result : OperationResult}

private theorem find_some (h : w.find s toolId = some p) : (toolId,p) ∈ w.pending s := by
  obtain ⟨e,he,rfl⟩ := Option.map_eq_some_iff.mp h
  have hkey : e.1 = toolId := by simpa using List.find?_some he
  have hmem := List.mem_of_find?_eq_some he
  rwa [← hkey]

/-- The dispatch of an entry belongs to one session and one entry. -/
theorem Core.entry_unique (h : Core mint w)
    (hp : (toolId,p) ∈ w.pending s) {s' toolId' : String} {q : PendingDispatch}
    (hq : (toolId',q) ∈ w.pending s') (hd : q.dispatch = p.dispatch) :
    s' = s ∧ toolId' = toolId ∧ q = p := by
  obtain ⟨hkey,hsession⟩ := h.own s _ hp
  obtain ⟨hkey',hsession'⟩ := h.own s' _ hq
  have hs : s' = s := by
    have hsome : some s' = some s := by rw [← hsession',← hsession]; exact congrArg _ hd
    exact Option.some.inj hsome
  subst hs
  have ht : toolId' = toolId := by
    have hk : mint q.dispatch = mint p.dispatch := congrArg mint hd
    exact hkey'.trans (hk.trans hkey.symm)
  subst ht
  have hpair := List.inj_on_of_nodup_map (h.nodup s') hq hp rfl
  exact ⟨rfl,rfl,congrArg Prod.snd hpair⟩

private theorem settle_pending (s' : String) :
    (w.settle s toolId p cause result).pending s' =
      if s' = s then (w.pending s).filter fun e => e.1 ≠ toolId else w.pending s' := by
  by_cases hs : s' = s
  · subst hs
    simp [World.settle]
  · simp [World.settle,hs]

private theorem Core.outstanding_settle (h : Core mint w)
    (hp : (toolId,p) ∈ w.pending s) (q : PendingDispatch) :
    Outstanding (w.settle s toolId p cause result) q ↔
      Outstanding w q ∧ q.dispatch ≠ p.dispatch := by
  constructor
  · rintro ⟨s',t',hq⟩
    rw [settle_pending] at hq
    split at hq
    · rename_i hs
      subst hs
      obtain ⟨hmem,hne⟩ := List.mem_filter.mp hq
      refine ⟨⟨s',t',hmem⟩,fun hd => ?_⟩
      have ht := (h.entry_unique hp hmem hd).2.1
      exact of_decide_eq_true hne ht
    · rename_i hs
      exact ⟨⟨s',t',hq⟩,fun hd => hs (h.entry_unique hp hq hd).1⟩
  · rintro ⟨⟨s',t',hq⟩,hne⟩
    refine ⟨s',t',?_⟩
    rw [settle_pending]
    split
    · rename_i hs
      subst hs
      refine List.mem_filter.mpr ⟨hq,decide_eq_true fun ht => ?_⟩
      have hkey : t' = toolId := ht
      subst hkey
      have hpair := List.inj_on_of_nodup_map (h.nodup s') hq hp rfl
      exact hne (congrArg (fun e => e.2.dispatch) hpair)
    · exact hq

/-- Settling an entry, whoever does it. -/
theorem Core.settle (h : Core mint w)
    (hp : (toolId,p) ∈ w.pending s)
    (hcause : ∀ s' t, cause = .receipt s' t → s' = s ∧ t = toolId) :
    Core mint (w.settle s toolId p cause result) := by
  have hout : ∀ q, Outstanding (w.settle s toolId p cause result) q ↔
      Outstanding w q ∧ q.dispatch ≠ p.dispatch := h.outstanding_settle hp
  obtain ⟨hkey,hsession⟩ := h.own s _ hp
  have htimer : p.dispatch ∈ w.timers := (h.timers p.dispatch).mpr ⟨p,⟨s,toolId,hp⟩,rfl⟩
  have hlt : p.dispatch < w.dispatched.length := (List.getElem?_eq_some_iff.mp hsession).1
  refine ⟨?_,?_,?_,?_,?_,?_,h.registered⟩
  · intro s' e he
    rw [settle_pending] at he
    split at he
    · rename_i hs
      subst hs
      exact h.own s' e (List.mem_of_mem_filter he)
    · exact h.own s' e he
  · intro s'
    rw [settle_pending]
    split
    · exact (h.nodup s).sublist (List.filter_sublist.map _)
    · exact h.nodup s'
  · intro d
    show d ∈ w.timers.filter _ ↔ _
    rw [List.mem_filter,h.timers d,decide_eq_true_eq]
    constructor
    · rintro ⟨⟨q,hq,rfl⟩,hne⟩
      exact ⟨q,(hout q).mpr ⟨hq,hne⟩,rfl⟩
    · rintro ⟨q,hq,rfl⟩
      have hold := (hout q).mp hq
      exact ⟨⟨q,hold.1,rfl⟩,hold.2⟩
  · intro g d
    show (g,d) ∈ w.listeners.filter _ ↔ _
    rw [List.mem_filter,h.listeners g d,decide_eq_true_eq,hout]
  · intro d
    have hold := h.once d
    simp only [World.settle,List.filter_append,List.length_append,hold]
    by_cases hd : p.dispatch = d
    · subst hd
      simp [htimer,hlt]
    · have hne : d ≠ p.dispatch := fun he => hd he.symm
      simp [hd,hne]
  · intro x hx s' t hc
    rcases List.mem_append.mp hx with hold | hnew
    · exact h.receipts x hold s' t hc
    · obtain rfl := List.mem_singleton.mp hnew
      obtain ⟨rfl,rfl⟩ := hcause s' t hc
      exact ⟨hsession,hkey⟩

end core

/-! ## Disconnecting -/

section disconnecting

variable {mint : Nat → String} {w : World} {s : String} {c : Nat}

/-- What the loop over the dispatches of a session leaves. -/
structure Drained (s : String) (l : List (String × PendingDispatch)) (w w' : World) : Prop where
  pending : ∀ s', w'.pending s' = if s' = s then [] else w.pending s'
  connections : w'.connections = w.connections
  heartbeats : w'.heartbeats = w.heartbeats
  attached : w'.attached = w.attached
  settled : ∀ x ∈ w.settled, x ∈ w'.settled
  all : ∀ e ∈ l, ∃ x ∈ w'.settled, x.dispatch = e.2.dispatch ∧ x.cause = .disconnected

private theorem Core.drain {l : List (String × PendingDispatch)} (h : Core mint w)
    (hl : w.pending s = l) :
    Core mint (l.foldl (fun w e => w.settle s e.1 e.2 .disconnected
      ⟨.failed,"desktop disconnected",none⟩) w) ∧
    Drained s l w (l.foldl (fun w e => w.settle s e.1 e.2 .disconnected
      ⟨.failed,"desktop disconnected",none⟩) w) := by
  induction l generalizing w with
  | nil =>
    refine ⟨h,⟨fun s' => ?_,rfl,rfl,rfl,fun x hx => hx,by simp⟩⟩
    by_cases hs : s' = s
    · subst hs
      rw [if_pos rfl]
      exact hl
    · rw [if_neg hs]
      rfl
  | cons e rest ih =>
    have hmem : (e.1,e.2) ∈ w.pending s := by rw [hl]; exact List.mem_cons_self ..
    have hstep : Core mint (w.settle s e.1 e.2 .disconnected
        ⟨.failed,"desktop disconnected",none⟩) :=
      h.settle hmem fun s' t hc => by cases hc
    have hrest : (w.settle s e.1 e.2 .disconnected
        ⟨.failed,"desktop disconnected",none⟩).pending s = rest := by
      have hnodup := h.nodup s
      rw [hl,List.map_cons,List.nodup_cons] at hnodup
      rw [settle_pending,if_pos rfl,hl,List.filter_cons_of_neg (by simp)]
      refine List.filter_eq_self.mpr fun x hx => decide_eq_true fun he => ?_
      exact hnodup.1 (he ▸ List.mem_map_of_mem hx)
    obtain ⟨hcore,hdrained⟩ := ih hstep hrest
    refine ⟨hcore,⟨fun s' => ?_,hdrained.connections,hdrained.heartbeats,hdrained.attached,
      fun x hx => ?_,fun x hx => ?_⟩⟩
    · rw [List.foldl_cons,hdrained.pending s',settle_pending]
      by_cases hs : s' = s
      · rw [if_pos hs,if_pos hs]
      · rw [if_neg hs,if_neg hs,if_neg hs]
    · exact hdrained.settled x (List.mem_append_left _ hx)
    · rcases List.mem_cons.mp hx with rfl | hx
      · exact ⟨_,hdrained.settled _ (List.mem_append_right _ (List.mem_singleton_self _)),rfl,rfl⟩
      · exact hdrained.all x hx

theorem disconnect_superseded (h : w.connections s ≠ some c) : w.disconnect s c = w := by
  rw [World.disconnect,if_pos h]

/-- What the disconnect of a registered connection leaves. -/
theorem Core.disconnect_registered (h : Core mint w) (hc : w.connections s = some c) :
    Core mint (w.disconnect s c) ∧
      (∀ s', (w.disconnect s c).pending s' = if s' = s then [] else w.pending s') ∧
      (w.disconnect s c).connections = Function.update w.connections s none ∧
      (w.disconnect s c).heartbeats = w.heartbeats.filter (fun c' => c' ≠ c) ∧
      (w.disconnect s c).attached = w.attached ∧
      ∀ e ∈ w.pending s, ∃ x ∈ (w.disconnect s c).settled,
        x.dispatch = e.2.dispatch ∧ x.cause = .disconnected := by
  have hcore : Core mint { w with
      connections := Function.update w.connections s none
      heartbeats := w.heartbeats.filter fun c' => c' ≠ c } := by
    refine ⟨h.own,h.nodup,h.timers,h.listeners,h.once,h.receipts,fun s' c' hs' => ?_⟩
    have hs : Function.update w.connections s none s' = some c' := hs'
    by_cases he : s' = s
    · subst he
      rw [Function.update_self] at hs
      cases hs
    · rw [Function.update_of_ne he] at hs
      exact h.registered s' c' hs
  have hdrain := hcore.drain (s := s) rfl
  rw [World.disconnect,if_neg (not_not.mpr hc)]
  exact ⟨hdrain.1,hdrain.2.pending,hdrain.2.connections,hdrain.2.heartbeats,hdrain.2.attached,
    hdrain.2.all⟩

/-- A property that the disconnects of an effect keep is kept by the call of the stream. -/
theorem streamCall_keeps {P : World → Prop} (effect : StreamEffect)
    (hkeep : ∀ w s, ∀ c ∈ effect.events, P w → P (w.disconnect s c)) (h : P w) :
    P (w.streamCall effect) := by
  unfold World.streamCall
  revert hkeep
  induction effect.events generalizing w with
  | nil => exact fun _ => h
  | cons c events ih =>
    intro hkeep
    rw [List.foldl_cons]
    refine ih ?_ fun w s c hc => hkeep w s c (List.mem_cons_of_mem _ hc)
    unfold World.onDisconnect
    split
    · exact h
    · exact hkeep w _ c (List.mem_cons_self ..) h

theorem Core.disconnect (h : Core mint w) (s : String) (c : Nat) :
    Core mint (w.disconnect s c) := by
  by_cases hc : w.connections s = some c
  · exact (h.disconnect_registered hc).1
  · rw [disconnect_superseded hc]
    exact h

/-- A session without connection has nothing in flight. -/
def Safe (s : String) (w : World) : Prop :=
  w.connections s = none → w.pending s = []

private theorem Core.disconnect_safe (h : Core mint w) {s' : String} (hsafe : Safe s' w) :
    Safe s' (w.disconnect s c) := by
  by_cases hc : w.connections s = some c
  · obtain ⟨-,hpending,hconnections,-⟩ := h.disconnect_registered hc
    intro hnone
    rw [hpending]
    by_cases hs : s' = s
    · exact if_pos hs
    · rw [if_neg hs]
      rw [hconnections,Function.update_of_ne hs] at hnone
      exact hsafe hnone
  · rw [disconnect_superseded hc]
    exact hsafe

private theorem Core.disconnect_none (h : Core mint w) {s' : String}
    (hnone : w.connections s' = none) :
    (w.disconnect s c).connections s' = none := by
  by_cases hc : w.connections s = some c
  · rw [(h.disconnect_registered hc).2.2.1]
    by_cases hs : s' = s
    · subst hs
      exact Function.update_self ..
    · rw [Function.update_of_ne hs]
      exact hnone
  · rw [disconnect_superseded hc]
    exact hnone

theorem Inv.streamCall (h : Inv mint w) (effect : StreamEffect) :
    Inv mint (w.streamCall effect) := by
  refine streamCall_keeps (P := Inv mint) effect (fun w s c _ hw => ?_) h
  exact ⟨hw.toCore.disconnect s c,fun s' => hw.toCore.disconnect_safe (hw.connected s')⟩

end disconnecting

/-! ## The steps -/

section steps

variable {mint : Nat → String} {w : World} {s toolId : String} {p : PendingDispatch}
  {cause : Cause} {result : OperationResult}

private theorem Core.find_of_mem (h : Core mint w) (hp : (toolId,p) ∈ w.pending s) :
    w.find s toolId = some p := by
  unfold World.find
  cases hfind : (w.pending s).find? (fun e => e.1 = toolId) with
  | none =>
    have hnone := List.find?_eq_none.mp hfind _ hp
    simp at hnone
  | some e =>
    have hkey : e.1 = toolId := by simpa using List.find?_some hfind
    have he := List.inj_on_of_nodup_map (h.nodup s) (List.mem_of_find?_eq_some hfind) hp hkey
    rw [he]
    rfl

private theorem Core.dispatched_of_outstanding (h : Core mint w) (hp : Outstanding w p) :
    p.dispatch < w.dispatched.length := by
  obtain ⟨s,t,hmem⟩ := hp
  exact (List.getElem?_eq_some_iff.mp (h.own s _ hmem).2).1

private theorem Inv.settle (h : Inv mint w) (hp : (toolId,p) ∈ w.pending s)
    (hcause : ∀ s' t, cause = .receipt s' t → s' = s ∧ t = toolId) :
    Inv mint (w.settle s toolId p cause result) := by
  refine ⟨h.toCore.settle hp hcause,fun s' hs' => ?_⟩
  have hnone := h.connected s' hs'
  rw [settle_pending]
  split
  · rename_i hs
    subst hs
    rw [hnone]
    rfl
  · exact hnone

theorem Inv.handleResult (h : Inv mint w) (s : String) (r : WireFlowResultPart) :
    Inv mint (w.handleResult s r) := by
  unfold World.handleResult
  dsimp only
  split
  · exact h
  split
  · exact h
  · rename_i p hp
    refine h.settle (find_some hp) fun s' t hc => ?_
    cases hc
    exact ⟨rfl,rfl⟩

private theorem Inv.routeFrame (h : Inv mint w) (s : String) (parts : List WireFlowPart) :
    Inv mint (w.routeFrame s parts) := by
  unfold World.routeFrame
  induction parts generalizing w with
  | nil => exact h
  | cons part parts ih =>
    rw [List.foldl_cons]
    apply ih
    split
    · exact h.handleResult _ _
    · exact h

theorem Inv.sendFrame (h : Inv mint w) (sessionName : Option String)
    (flowParts : Option (List WireFlowPart)) : Inv mint (w.sendFrame sessionName flowParts).2 := by
  unfold World.sendFrame
  split
  · exact h
  split
  · exact h
  split
  · exact h
  · exact h.routeFrame _ _

/-- Who knows the dispatch knows its entry. -/
theorem Core.find_dispatch (h : Core mint w) (hp : Outstanding w p) :
    ∃ s, w.dispatched[p.dispatch]? = some s ∧ w.find s (mint p.dispatch) = some p := by
  obtain ⟨s,t,hmem⟩ := hp
  obtain ⟨hkey,hsession⟩ := h.own s _ hmem
  have hkey : t = mint p.dispatch := hkey
  exact ⟨s,hsession,h.find_of_mem (hkey ▸ hmem)⟩

theorem Inv.timeout {w' : World} (h : Inv mint w) (d : Nat) (hw : w.timeout mint d = some w') :
    Inv mint w' := by
  unfold World.timeout at hw
  split at hw
  · rename_i hd
    obtain ⟨p,hout,rfl⟩ := (h.timers d).mp hd
    obtain ⟨s,hsession,hfind⟩ := h.toCore.find_dispatch hout
    have hfind' : World.find { w with timers := w.timers.filter fun d' => d' ≠ p.dispatch } s
        (mint p.dispatch) = some p := hfind
    simp only [hsession,hfind'] at hw
    cases hw
    have hsettle : Inv mint (w.settle s (mint p.dispatch) p .timedOut
        ⟨.failed,"operation timed out",none⟩) :=
      h.settle (find_some hfind) fun s' t hc => by cases hc
    have hsame : World.settle { w with timers := w.timers.filter fun d' => d' ≠ p.dispatch } s
        (mint p.dispatch) p .timedOut ⟨.failed,"operation timed out",none⟩ =
        w.settle s (mint p.dispatch) p .timedOut ⟨.failed,"operation timed out",none⟩ := by
      simp [World.settle]
    rw [hsame]
    exact hsettle
  · cases hw

private theorem Inv.onAbort (h : Inv mint w) (hmint : Function.Injective mint) (d : Nat) :
    Inv mint (w.onAbort mint d) := by
  by_cases hd : ∃ p, Outstanding w p ∧ p.dispatch = d
  · obtain ⟨p,hout,rfl⟩ := hd
    obtain ⟨s,hsession,hfind⟩ := h.toCore.find_dispatch hout
    have hfind' : World.find { w with listeners := w.listeners.filter fun l => l.2 ≠ p.dispatch } s
        (mint p.dispatch) = some p := hfind
    unfold World.onAbort
    simp only [hsession,hfind']
    have hsettle : Inv mint (w.settle s (mint p.dispatch) p .aborted
        ⟨.failed,"aborted",none⟩) :=
      h.settle (find_some hfind) fun s' t hc => by cases hc
    have hsame : World.settle { w with listeners := w.listeners.filter fun l => l.2 ≠ p.dispatch }
        s (mint p.dispatch) p .aborted ⟨.failed,"aborted",none⟩ =
        w.settle s (mint p.dispatch) p .aborted ⟨.failed,"aborted",none⟩ := by
      simp [World.settle]
    rw [hsame]
    exact hsettle
  · -- A dispatch that is settled already has no listener and no entry.
    have hlisteners : (w.listeners.filter fun l => l.2 ≠ d) = w.listeners := by
      refine List.filter_eq_self.mpr fun l hl => decide_eq_true fun he => hd ?_
      exact ⟨_,(h.listeners l.1 l.2).mp hl,he⟩
    unfold World.onAbort
    simp only [hlisteners]
    split
    · exact h
    split
    · exact h
    · rename_i p hfind
      have hmem := find_some (w := w) hfind
      have hkey := (h.own _ _ hmem).1
      exact absurd ⟨p,⟨_,_,hmem⟩,(hmint hkey).symm⟩ hd

theorem Inv.abort (h : Inv mint w) (hmint : Function.Injective mint) (signal : Nat) :
    Inv mint (w.abort mint signal) := by
  unfold World.abort
  split
  · exact h
  · have hinit : Inv mint { w with aborted := Function.update w.aborted signal true } :=
      ⟨⟨h.own,h.nodup,h.timers,h.listeners,h.once,h.receipts,h.registered⟩,h.connected⟩
    generalize { w with aborted := Function.update w.aborted signal true } = w' at hinit ⊢
    generalize (w.listeners.filter fun l => l.1 = signal).map Prod.snd = ds
    induction ds generalizing w' with
    | nil => exact hinit
    | cons d ds ih => exact ih _ (hinit.onAbort hmint d)

private theorem Inv.refuse (h : Inv mint w) (s message : String) :
    Inv mint (w.refuse s message) := by
  have htimers : ∀ d ∈ w.timers, d < w.dispatched.length := by
    intro d hd
    obtain ⟨p,hout,rfl⟩ := (h.timers d).mp hd
    exact h.toCore.dispatched_of_outstanding hout
  have hkeep : ∀ (d : Nat) (s' : String), w.dispatched[d]? = some s' →
      (w.dispatched ++ [s])[d]? = some s' := by
    intro d s' hd
    rw [List.getElem?_append_left (List.getElem?_eq_some_iff.mp hd).1]
    exact hd
  refine ⟨⟨?_,h.nodup,h.timers,h.listeners,?_,?_,h.registered⟩,h.connected⟩
  · intro s' e he
    exact ⟨(h.own s' e he).1,hkeep _ _ (h.own s' e he).2⟩
  · intro d
    have hold := h.once d
    simp only [World.refuse,List.filter_append,List.length_append,hold]
    by_cases hd : d = w.dispatched.length
    · subst hd
      have hnot : w.dispatched.length ∉ w.timers := fun hmem =>
        Nat.lt_irrefl _ (htimers _ hmem)
      simp [hnot]
    · have hne : w.dispatched.length ≠ d := fun he => hd he.symm
      have hlt : d < w.dispatched.length + 1 ↔ d < w.dispatched.length := by omega
      simp [hne,hlt]
  · intro x hx s' t hc
    rcases List.mem_append.mp hx with hold | hnew
    · exact ⟨hkeep _ _ (h.receipts x hold s' t hc).1,(h.receipts x hold s' t hc).2⟩
    · obtain rfl := List.mem_singleton.mp hnew
      cases hc

private theorem outstanding_enqueue (signal : Option Nat) (q : PendingDispatch) :
    Outstanding (w.enqueue mint s signal) q ↔
      Outstanding w q ∨ q = ⟨w.dispatched.length,signal⟩ := by
  have hpending : ∀ s', (w.enqueue mint s signal).pending s' =
      if s' = s then w.pending s ++ [(mint w.dispatched.length,⟨w.dispatched.length,signal⟩)]
      else w.pending s' := by
    intro s'
    by_cases hs : s' = s
    · subst hs
      simp [World.enqueue]
    · simp [World.enqueue,hs]
  constructor
  · rintro ⟨s',t,hmem⟩
    rw [hpending] at hmem
    split at hmem
    · rcases List.mem_append.mp hmem with hold | hnew
      · exact Or.inl ⟨s,t,hold⟩
      · exact Or.inr (congrArg Prod.snd (List.mem_singleton.mp hnew))
    · exact Or.inl ⟨s',t,hmem⟩
  · rintro (⟨s',t,hmem⟩ | rfl)
    · refine ⟨s',t,?_⟩
      rw [hpending]
      split
      · rename_i hs
        subst hs
        exact List.mem_append_left _ hmem
      · exact hmem
    · refine ⟨s,mint w.dispatched.length,?_⟩
      rw [hpending,if_pos rfl]
      simp

theorem Inv.enqueue (h : Inv mint w) (hmint : Function.Injective mint) (signal : Option Nat)
    (hconnected : w.connections s ≠ none) : Inv mint (w.enqueue mint s signal) := by
  have hbelow : ∀ d ∈ w.timers, d < w.dispatched.length := by
    intro d hd
    obtain ⟨p,hout,rfl⟩ := (h.timers d).mp hd
    exact h.toCore.dispatched_of_outstanding hout
  have hkeep : ∀ (d : Nat) (s' : String), w.dispatched[d]? = some s' →
      (w.dispatched ++ [s])[d]? = some s' := by
    intro d s' hd
    rw [List.getElem?_append_left (List.getElem?_eq_some_iff.mp hd).1]
    exact hd
  refine ⟨⟨?_,?_,?_,?_,?_,?_,h.registered⟩,?_⟩
  · intro s' e he
    by_cases hs : s' = s
    · subst hs
      have hmem : e ∈ w.pending s' ++ [(mint w.dispatched.length,
          (⟨w.dispatched.length,signal⟩ : PendingDispatch))] := by
        simpa [World.enqueue] using he
      rcases List.mem_append.mp hmem with hold | hnew
      · exact ⟨(h.own s' e hold).1,hkeep _ _ (h.own s' e hold).2⟩
      · obtain rfl := List.mem_singleton.mp hnew
        exact ⟨rfl,by simp [World.enqueue]⟩
    · have hmem : e ∈ w.pending s' := by simpa [World.enqueue,hs] using he
      exact ⟨(h.own s' e hmem).1,hkeep _ _ (h.own s' e hmem).2⟩
  · intro s'
    by_cases hs : s' = s
    · subst hs
      have hfresh : mint w.dispatched.length ∉ (w.pending s').map Prod.fst := by
        intro hmem
        obtain ⟨e,he,hkey⟩ := List.mem_map.mp hmem
        have hd : e.2.dispatch = w.dispatched.length :=
          hmint ((h.own s' e he).1.symm.trans hkey)
        have hlt := h.toCore.dispatched_of_outstanding ⟨s',e.1,he⟩
        omega
      have hnodup : ((w.pending s').map Prod.fst ++ [mint w.dispatched.length]).Nodup :=
        List.nodup_append.mpr ⟨h.nodup s',by simp,by
          intro a ha b hb hab
          obtain rfl := List.mem_singleton.mp hb
          exact hfresh (hab ▸ ha)⟩
      simpa [World.enqueue] using hnodup
    · simpa [World.enqueue,hs] using h.nodup s'
  · intro d
    have hold := h.timers d
    constructor
    · intro hd
      rcases List.mem_append.mp hd with hd | hd
      · obtain ⟨p,hout,hp⟩ := hold.mp hd
        exact ⟨p,(outstanding_enqueue signal p).mpr (Or.inl hout),hp⟩
      · exact ⟨_,(outstanding_enqueue signal _).mpr (Or.inr rfl),(List.mem_singleton.mp hd).symm⟩
    · rintro ⟨p,hout,hp⟩
      rcases (outstanding_enqueue signal p).mp hout with hout | rfl
      · exact List.mem_append_left _ (hold.mpr ⟨p,hout,hp⟩)
      · exact List.mem_append_right _ (List.mem_singleton.mpr hp.symm)
  · intro g d
    rw [outstanding_enqueue,← h.listeners g d]
    simp only [World.enqueue,List.mem_append,List.mem_map,Option.mem_toList,Prod.mk.injEq,
      PendingDispatch.mk.injEq]
    constructor
    · rintro (hold | ⟨g',hg',rfl,rfl⟩)
      · exact Or.inl hold
      · exact Or.inr ⟨rfl,hg'.symm⟩
    · rintro (hold | ⟨rfl,hg⟩)
      · exact Or.inl hold
      · exact Or.inr ⟨g,hg.symm,rfl,rfl⟩
  · intro d
    have hold := h.once d
    simp only [World.enqueue,hold,List.length_append,List.length_singleton,List.mem_append,
      List.mem_singleton]
    by_cases hd : d = w.dispatched.length
    · subst hd
      simp
    · have hlt : d < w.dispatched.length + 1 ↔ d < w.dispatched.length := by omega
      simp [hd,hlt]
  · intro x hx s' t hc
    exact ⟨hkeep _ _ (h.receipts x hx s' t hc).1,(h.receipts x hx s' t hc).2⟩
  · intro s' hs'
    have hne : s' ≠ s := by
      rintro rfl
      exact hconnected hs'
    have hnone := h.connected s' hs'
    simpa [World.enqueue,hne] using hnone

theorem Inv.dispatch (h : Inv mint w) (hmint : Function.Injective mint) (s : String)
    (part : WireFlowPart) (signal : Option Nat) (writing : StreamEffect) :
    Inv mint (w.dispatch mint s part signal writing) := by
  unfold World.dispatch
  split
  · exact h.refuse s _
  split
  · exact h.refuse s _
  split
  · exact h.refuse s _
  rename_i hconnected _
  have hwritten := (h.enqueue hmint signal hconnected).streamCall writing
  dsimp only
  split
  · exact hwritten
  split
  · exact hwritten
  · rename_i p hp
    exact hwritten.settle (find_some hp) fun s' t hc => by cases hc

/-- The world between the end of the old connection and the registration of the new one. -/
theorem Inv.takeOver (h : Inv mint w) (s : String) (ending : StreamEffect) :
    Core mint (w.takeOver s ending) ∧ (w.takeOver s ending).connections s = none ∧
      ∀ s', s' ≠ s → Safe s' (w.takeOver s ending) := by
  unfold World.takeOver
  split
  · rename_i hnone
    exact ⟨h.toCore,hnone,fun s' _ => h.connected s'⟩
  · have hkeep : ∀ w s', ∀ c ∈ ending.events,
        (Core mint w ∧ w.connections s = none ∧ ∀ s', s' ≠ s → Safe s' w) →
        Core mint (w.disconnect s' c) ∧ (w.disconnect s' c).connections s = none ∧
          ∀ s'', s'' ≠ s → Safe s'' (w.disconnect s' c) := by
      rintro w s' c - ⟨hcore,hnone,hsafe⟩
      exact ⟨hcore.disconnect s' c,hcore.disconnect_none hnone,
        fun s'' hs => hcore.disconnect_safe (hsafe s'' hs)⟩
    refine streamCall_keeps ending hkeep ⟨⟨h.own,h.nodup,h.timers,h.listeners,h.once,h.receipts,
      fun s' c hc => ?_⟩,Function.update_self ..,fun s' hs hnone => ?_⟩
    · have hc' : Function.update w.connections s none s' = some c := hc
      by_cases hs : s' = s
      · subst hs
        rw [Function.update_self] at hc'
        cases hc'
      · rw [Function.update_of_ne hs] at hc'
        exact h.registered s' c hc'
    · have hnone' : Function.update w.connections s none s' = none := hnone
      rw [Function.update_of_ne hs] at hnone'
      exact h.connected s' hnone'

theorem Core.register (h : Core mint w) (hsafe : ∀ s', s' ≠ s → Safe s' w) :
    Inv mint (w.register s) := by
  refine ⟨⟨h.own,h.nodup,h.timers,h.listeners,h.once,h.receipts,fun s' c hc => ?_⟩,
    fun s' hnone => ?_⟩
  · have hc' : Function.update w.connections s (some w.attached.length) s' = some c := hc
    show (w.attached ++ [s])[c]? = some s'
    by_cases hs : s' = s
    · subst hs
      rw [Function.update_self] at hc'
      obtain rfl := Option.some.inj hc'
      simp
    · rw [Function.update_of_ne hs] at hc'
      have hold := h.registered s' c hc'
      rw [List.getElem?_append_left (List.getElem?_eq_some_iff.mp hold).1]
      exact hold
  · have hnone' : Function.update w.connections s (some w.attached.length) s' = none := hnone
    by_cases hs : s' = s
    · subst hs
      rw [Function.update_self] at hnone'
      cases hnone'
    · rw [Function.update_of_ne hs] at hnone'
      exact hsafe s' hs hnone'

theorem Inv.attach (h : Inv mint w) (s : String) (ending confirming : StreamEffect) :
    Inv mint (w.attach s ending confirming) := by
  obtain ⟨hcore,-,hsafe⟩ := h.takeOver s ending
  have hconfirmed := (hcore.register hsafe).streamCall confirming
  exact ⟨⟨hconfirmed.own,hconfirmed.nodup,hconfirmed.timers,hconfirmed.listeners,hconfirmed.once,
    hconfirmed.receipts,hconfirmed.registered⟩,hconfirmed.connected⟩

end steps

end Dominion.Desktop
