import Dominion.Desktop.Readers

/-! # Hand-over between connections

In the runs that assign the bridge only while nothing uses the one stored before, every bridge but
the stored one is closed in the end, and the stored one is open when a `Connect` took effect
last. -/
namespace Dominion.Desktop.App

open Dominion.Framework

/-! ## Bridges -/

/-- The bridge that the call has opened and not stored. -/
def Call.pending (call : Call) : Option Nat :=
  match call.stage with
  | .confirming b => some b
  | .storing b => some b
  | _ => none

/-- The bridge that the call of this number has opened and not stored. -/
def State.pending (s : State) (c : Nat) : Option Nat :=
  s.calls[c]?.bind Call.pending

structure BridgesInv (s : State) : Prop where
  stored : ∀ b, s.bridge = some b → b < s.bridges.length
  effect : (∃ b, s.bridge = some b ∧ s.bridges[b]? = some false) ↔ s.lastEffect = some true
  opened : ∀ b, s.bridges[b]? = some false → s.bridge = some b ∨ ∃ c, s.pending c = some b
  pending : ∀ c b, s.pending c = some b → s.bridges[b]? = some false ∧ s.bridge ≠ some b
  apart : ∀ c c' b, s.pending c = some b → s.pending c' = some b → c = c'

private theorem bridgesInv_init : BridgesInv {} where
  stored b hb := by cases hb
  effect := by simp
  opened b hb := by simp at hb
  pending c b hc := by simp [State.pending] at hc
  apart c c' b hc := by simp [State.pending] at hc

section steps

variable {s s' : State} {i r c : Nat} {h : Hold} {rd rd' : Reader} {call call' : Call}

private theorem pending_set (hc : s.calls[c]? = some call)
    (hcalls : s'.calls = s.calls.set c call') :
    s'.pending = Function.update s.pending c call'.pending := by
  funext k
  unfold State.pending
  rw [hcalls]
  by_cases hk : k = c
  · rw [hk,List.getElem?_set_self (List.getElem?_eq_some_iff.mp hc).1,Function.update_self,
      Option.bind_some]
  · rw [List.getElem?_set_ne (Ne.symm hk),Function.update_of_ne hk]

private theorem pending_append (hcalls : s'.calls = s.calls ++ [call'])
    (hnew : call'.pending = none) :
    s'.pending = s.pending := by
  funext k
  unfold State.pending
  rw [hcalls,List.getElem?_append]
  split
  · rfl
  · rename_i hk
    rw [List.getElem?_eq_none (Nat.le_of_not_lt hk)]
    cases he : [call'][k - s.calls.length]? with
    | none => rfl
    | some call₁ =>
      have hmem := List.mem_of_getElem? he
      rw [List.mem_singleton.mp hmem]
      exact hnew

private theorem pending_of_call (hc : s.calls[c]? = some call) : s.pending c = call.pending := by
  simp [State.pending,hc]

private theorem BridgesInv.frame (hinv : BridgesInv s) (hpending : s'.pending = s.pending)
    (hbridge : s'.bridge = s.bridge) (hbridges : s'.bridges = s.bridges)
    (heffect : s'.lastEffect = s.lastEffect) : BridgesInv s' where
  stored := by
    rw [hbridge,hbridges]
    exact hinv.stored
  effect := by
    rw [hbridge,hbridges,heffect]
    exact hinv.effect
  opened := by
    rw [hbridge,hbridges,hpending]
    exact hinv.opened
  pending := by
    rw [hbridge,hbridges,hpending]
    exact hinv.pending
  apart := by
    rw [hpending]
    exact hinv.apart

private theorem BridgesInv.setCall (hinv : BridgesInv s) (hc : s.calls[c]? = some call)
    (hcalls : s'.calls = s.calls.set c call') (hp : call'.pending = call.pending)
    (hbridge : s'.bridge = s.bridge) (hbridges : s'.bridges = s.bridges)
    (heffect : s'.lastEffect = s.lastEffect) : BridgesInv s' := by
  apply hinv.frame _ hbridge hbridges heffect
  rw [pending_set hc hcalls,hp,← pending_of_call hc,Function.update_eq_self]

private theorem BridgesInv.close {b : Nat} (hinv : BridgesInv s) (hbridge : s'.bridge = s.bridge)
    (hbridges : s'.bridges = s.bridges.set b true)
    (hpending : ∀ k b₁, s'.pending k = some b₁ ↔ s.pending k = some b₁ ∧ b₁ ≠ b)
    (heffect : s'.lastEffect = if s.bridge = some b then some false else s.lastEffect) :
    BridgesInv s' := by
  have hopen : ∀ b₁, s'.bridges[b₁]? = some false ↔ s.bridges[b₁]? = some false ∧ b₁ ≠ b := by
    intro b₁
    rw [hbridges,List.getElem?_set]
    split
    · rename_i he
      simp [he]
    · rename_i hne
      simp [Ne.symm hne]
  constructor
  · rw [hbridge,hbridges,List.length_set]
    exact hinv.stored
  · simp only [hbridge,hopen,heffect]
    split
    · rename_i he
      simp [he]
    · rename_i hne
      rw [← hinv.effect]
      constructor
      · intro ⟨b₁,hb₁,ho,_⟩
        exact ⟨b₁,hb₁,ho⟩
      · intro ⟨b₁,hb₁,ho⟩
        refine ⟨b₁,hb₁,ho,fun he => hne ?_⟩
        rw [← he,hb₁]
  · intro b₁ ho
    obtain ⟨ho,hne⟩ := (hopen b₁).mp ho
    rw [hbridge]
    rcases hinv.opened b₁ ho with hb₁ | ⟨k,hk⟩
    · exact .inl hb₁
    · exact .inr ⟨k,(hpending k b₁).mpr ⟨hk,hne⟩⟩
  · intro k b₁ hk
    obtain ⟨hk,hne⟩ := (hpending k b₁).mp hk
    obtain ⟨ho,hs⟩ := hinv.pending k b₁ hk
    rw [hbridge]
    exact ⟨(hopen b₁).mpr ⟨ho,hne⟩,hs⟩
  · intro k k' b₁ hk hk'
    exact hinv.apart k k' b₁ ((hpending k b₁).mp hk).1 ((hpending k' b₁).mp hk').1

private theorem BridgesInv.closeStored {b : Nat} (hinv : BridgesInv s)
    (hc : s.calls[c]? = some call)
    (hcalls : s'.calls = s.calls.set c call') (hp : call'.pending = call.pending)
    (hstored : s.bridge = some b) (hbridge : s'.bridge = s.bridge)
    (hbridges : s'.bridges = s.bridges.set b true) (heffect : s'.lastEffect = some false) :
    BridgesInv s' := by
  apply hinv.close hbridge hbridges
  · intro k b₁
    rw [pending_set hc hcalls,hp,← pending_of_call hc,Function.update_eq_self]
    constructor
    · intro hk
      refine ⟨hk,?_⟩
      rintro rfl
      exact (hinv.pending k b₁ hk).2 hstored
    · exact fun hk => hk.1
  · rw [if_pos hstored,heffect]

private theorem BridgesInv.closePending {b : Nat} (hinv : BridgesInv s)
    (hc : s.calls[c]? = some call)
    (hcalls : s'.calls = s.calls.set c call') (hp : call'.pending = none)
    (hopened : call.pending = some b) (hbridge : s'.bridge = s.bridge)
    (hbridges : s'.bridges = s.bridges.set b true) (heffect : s'.lastEffect = s.lastEffect) :
    BridgesInv s' := by
  have hcb : s.pending c = some b := (pending_of_call hc).trans hopened
  apply hinv.close hbridge hbridges
  · intro k b₁
    rw [pending_set hc hcalls,hp]
    by_cases hk : k = c
    · rw [hk,Function.update_self,hcb]
      simp [eq_comm]
    · rw [Function.update_of_ne hk]
      constructor
      · intro hkb
        refine ⟨hkb,?_⟩
        rintro rfl
        exact hk (hinv.apart k c b₁ hkb hcb)
      · exact fun hkb => hkb.1
  · rw [if_neg (hinv.pending c b hcb).2,heffect]

private theorem BridgesInv.openStream {ok : Bool} (hinv : BridgesInv s)
    (hc : s.calls[c]? = some call)
    (hcalls : s'.calls = s.calls.set c call') (hold : call.pending = none)
    (hnew : call'.pending = if ok then some s.bridges.length else none)
    (hbridge : s'.bridge = s.bridge) (hbridges : s'.bridges = s.bridges ++ [!ok])
    (heffect : s'.lastEffect = s.lastEffect) : BridgesInv s' := by
  have hnone : s.pending c = none := (pending_of_call hc).trans hold
  have hopen : ∀ b, s'.bridges[b]? = some false ↔
      s.bridges[b]? = some false ∨ b = s.bridges.length ∧ ok = true := by
    intro b
    rw [hbridges]
    rcases Nat.lt_trichotomy b s.bridges.length with hb | hb | hb
    · rw [List.getElem?_append_left hb]
      simp [Nat.ne_of_lt hb]
    · subst hb
      simp
    · rw [List.getElem?_eq_none (by simp; omega),List.getElem?_eq_none (Nat.le_of_lt hb)]
      simp [Nat.ne_of_gt hb]
  have hpending : ∀ k b, s'.pending k = some b ↔
      s.pending k = some b ∨ k = c ∧ b = s.bridges.length ∧ ok = true := by
    intro k b
    rw [pending_set hc hcalls,hnew]
    by_cases hk : k = c
    · rw [hk,Function.update_self,hnone]
      cases ok <;> simp [eq_comm]
    · rw [Function.update_of_ne hk]
      simp [hk]
  -- The new bridge is not stored, and no other call has it.
  have hstored : s.bridge ≠ some s.bridges.length := by
    intro hb
    exact Nat.lt_irrefl _ (hinv.stored _ hb)
  have hfresh : ∀ k, s.pending k ≠ some s.bridges.length := by
    intro k hk
    exact Nat.lt_irrefl _ (List.getElem?_eq_some_iff.mp (hinv.pending k _ hk).1).1
  constructor
  · intro b hb
    rw [hbridge] at hb
    rw [hbridges,List.length_append]
    exact Nat.lt_add_right _ (hinv.stored b hb)
  · rw [heffect,hbridge,← hinv.effect]
    simp only [hopen]
    constructor
    · rintro ⟨b,hb,ho⟩
      rcases ho with ho | ⟨rfl,-⟩
      · exact ⟨b,hb,ho⟩
      · exact absurd hb hstored
    · rintro ⟨b,hb,ho⟩
      exact ⟨b,hb,.inl ho⟩
  · intro b ho
    rw [hbridge]
    rcases (hopen b).mp ho with ho | hnewest
    · rcases hinv.opened b ho with hb | ⟨k,hk⟩
      · exact .inl hb
      · exact .inr ⟨k,(hpending k b).mpr (.inl hk)⟩
    · exact .inr ⟨c,(hpending c b).mpr (.inr ⟨rfl,hnewest⟩)⟩
  · intro k b hk
    rw [hbridge]
    rcases (hpending k b).mp hk with hk | ⟨-,rfl,hok⟩
    · obtain ⟨ho,hne⟩ := hinv.pending k b hk
      exact ⟨(hopen b).mpr (.inl ho),hne⟩
    · exact ⟨(hopen _).mpr (.inr ⟨rfl,hok⟩),hstored⟩
  · intro k k' b hk hk'
    rcases (hpending k b).mp hk with hk | ⟨rfl,rfl,-⟩
    · rcases (hpending k' b).mp hk' with hk' | ⟨-,rfl,-⟩
      · exact hinv.apart k k' b hk hk'
      · exact absurd hk (hfresh k)
    · rcases (hpending k' _).mp hk' with hk' | ⟨rfl,-⟩
      · exact absurd hk' (hfresh k')
      · rfl

private theorem BridgesInv.store {b : Nat} (hinv : BridgesInv s) (hidle : s.Idle)
    (hc : s.calls[c]? = some call) (hcalls : s'.calls = s.calls.set c call')
    (hopened : call.pending = some b) (hnew : call'.pending = none) (hbridge : s'.bridge = some b)
    (hbridges : s'.bridges = s.bridges) (heffect : s'.lastEffect = some true) : BridgesInv s' := by
  have hcb : s.pending c = some b := (pending_of_call hc).trans hopened
  have hopen := (hinv.pending c b hcb).1
  have hother : ∀ k b₁, s'.pending k = some b₁ → k ≠ c ∧ s.pending k = some b₁ := by
    intro k b₁ hk
    rw [pending_set hc hcalls,hnew] at hk
    by_cases hkc : k = c
    · rw [hkc,Function.update_self] at hk
      cases hk
    · rw [Function.update_of_ne hkc] at hk
      exact ⟨hkc,hk⟩
  constructor
  · intro b₁ hb₁
    rw [hbridge] at hb₁
    cases hb₁
    rw [hbridges]
    exact (List.getElem?_eq_some_iff.mp hopen).1
  · rw [hbridge,hbridges,heffect]
    simp [hopen]
  · intro b₁ ho
    rw [hbridges] at ho
    rw [hbridge]
    rcases hinv.opened b₁ ho with hb₁ | ⟨k,hk⟩
    · have hclosed := hidle.1 b₁ hb₁
      rw [ho] at hclosed
      cases hclosed
    · by_cases hkc : k = c
      · rw [hkc,hcb] at hk
        exact .inl hk
      · refine .inr ⟨k,?_⟩
        rw [pending_set hc hcalls,Function.update_of_ne hkc,hk]
  · intro k b₁ hk
    obtain ⟨hkc,hk⟩ := hother k b₁ hk
    rw [hbridges,hbridge]
    refine ⟨(hinv.pending k b₁ hk).1,?_⟩
    intro he
    cases he
    exact hkc (hinv.apart k c b hk hcb)
  · intro k k' b₁ hk hk'
    exact hinv.apart k k' b₁ (hother k b₁ hk).2 (hother k' b₁ hk').2

private theorem BridgesInv.clear (hinv : BridgesInv s) (hidle : s.Idle)
    (hc : s.calls[c]? = some call)
    (hcalls : s'.calls = s.calls.set c call') (hp : call'.pending = call.pending)
    (hbridge : s'.bridge = none) (hbridges : s'.bridges = s.bridges)
    (heffect : s'.lastEffect = s.lastEffect) : BridgesInv s' := by
  have hpending : s'.pending = s.pending := by
    rw [pending_set hc hcalls,hp,← pending_of_call hc,Function.update_eq_self]
  have hshut : ∀ b, s.bridge = some b → s.bridges[b]? ≠ some false := by
    intro b hb ho
    have hclosed := hidle.1 b hb
    rw [ho] at hclosed
    cases hclosed
  constructor
  · intro b hb
    rw [hbridge] at hb
    cases hb
  · rw [heffect,← hinv.effect,hbridge]
    constructor
    · intro ⟨b,hb,_⟩
      cases hb
    · intro ⟨b,hb,ho⟩
      exact absurd ho (hshut b hb)
  · intro b ho
    rw [hbridges] at ho
    rw [hpending]
    rcases hinv.opened b ho with hb | hk
    · exact absurd ho (hshut b hb)
    · exact .inr hk
  · intro k b hk
    rw [hpending] at hk
    rw [hbridges,hbridge]
    exact ⟨(hinv.pending k b hk).1,by simp⟩
  · rw [hpending]
    exact hinv.apart

private theorem pending_ite {p : Prop} [Decidable p] {a b : CallStage} {connects : Bool}
    {seen : Nat}
    (ha : Call.pending ⟨connects,a,seen⟩ = none) (hb : Call.pending ⟨connects,b,seen⟩ = none) :
    Call.pending ⟨connects,if p then a else b,seen⟩ = none := by
  split
  · exact ha
  · exact hb

private theorem pending_handedOver (call : Call) : call.handedOver.pending = none :=
  pending_ite rfl rfl

private theorem bridgesInv_callStep {a : CallStep} (hinv : BridgesInv s)
    (hc : s.calls[c]? = some call)
    (hrel : Relayed s (.call c a)) (hstep : s.callStep c call a = some s') : BridgesInv s' := by
  cases callMove hstep with
  | unconnected hstage _ =>
    have hnone : call.pending = none := by simp [Call.pending,hstage]
    exact hinv.setCall hc rfl ((pending_ite rfl rfl).trans hnone.symm) rfl rfl rfl
  | check hstage _ =>
    exact hinv.setCall hc rfl (by simp [Call.pending,hstage]) rfl rfl rfl
  | crash _ _ hbridge => exact absurd hbridge hrel
  | close _ hstage hbridge =>
    have hnone : call.pending = none := by simp [Call.pending,hstage]
    exact hinv.closeStored hc rfl ((pending_ite rfl rfl).trans hnone.symm) hbridge rfl rfl rfl
  | unread hstage _ =>
    have hnone : call.pending = none := by simp [Call.pending,hstage]
    exact hinv.setCall hc rfl ((pending_handedOver call).trans hnone.symm) rfl rfl rfl
  | capture hstage _ =>
    exact hinv.setCall hc rfl (by simp [Call.pending,hstage]) rfl rfl rfl
  | wait hstage _ =>
    have hnone : call.pending = none := by simp [Call.pending,hstage]
    exact hinv.setCall hc rfl ((pending_handedOver call).trans hnone.symm) rfl rfl rfl
  | openStream ok hstage =>
    have hnone : call.pending = none := by simp [Call.pending,hstage]
    refine hinv.openStream hc rfl hnone ?_ rfl rfl rfl
    cases ok <;> rfl
  | firstStatus hstage =>
    exact hinv.setCall hc rfl (by simp [Call.pending,hstage]) rfl rfl rfl
  | unconfirmed hstage =>
    exact hinv.closePending hc rfl rfl (by simp [Call.pending,hstage]) rfl rfl rfl
  | store hstage =>
    exact hinv.store hrel hc rfl (by simp [Call.pending,hstage]) rfl rfl rfl rfl
  | renew hstage =>
    exact hinv.setCall hc rfl (by simp [Call.pending,hstage]) rfl rfl rfl
  | spawn hstage =>
    exact hinv.setCall hc rfl (by simp [Call.pending,hstage]) rfl rfl rfl
  | clear hstage =>
    exact hinv.clear hrel hc rfl (by simp [Call.pending,hstage]) rfl rfl rfl

/-! ## Steps of holds and readers -/

/-- What the calls and the bridges are is the same, and readers that have exited stay so. -/
structure State.Kept (s s' : State) : Prop where
  bridge : s'.bridge = s.bridge
  bridges : s'.bridges = s.bridges
  assigned : s'.assigned = s.assigned
  calls : s'.calls = s.calls
  lastEffect : s'.lastEffect = s.lastEffect
  recvDone : s'.recvDone = s.recvDone
  exited : (∀ rd ∈ s.readers, rd.stage = .exited) → ∀ rd ∈ s'.readers, rd.stage = .exited

private theorem kept_exit (hquiet : ¬∀ rd ∈ s.readers, rd.stage = .exited) :
    s.Kept (s.exit r rd) := by
  unfold State.exit
  cases rd.done <;> exact ⟨rfl,rfl,rfl,rfl,rfl,rfl,fun hq => absurd hq hquiet⟩

private theorem kept_holdStep {a : HoldStep} (hstep : s.holdStep i h a = some s') : s.Kept s' := by
  cases holdMove hstep with
  | drop _ =>
    refine ⟨rfl,rfl,rfl,rfl,rfl,rfl,?_⟩
    intro hquiet rd hrd
    obtain ⟨k,hk⟩ := List.mem_iff_getElem?.mp hrd
    simp only [State.dropHold,List.getElem?_modify] at hk
    obtain ⟨rd₀,hrd₀,he⟩ := Option.map_eq_some_iff.mp hk
    have hexited := hquiet rd₀ (List.mem_of_getElem? hrd₀)
    have hne : rd₀.stage ≠ .holding i := by simp [hexited]
    simp only [hne,if_false,ite_self] at he
    exact he ▸ hexited
  | notified _ _ => exact ⟨rfl,rfl,rfl,rfl,rfl,rfl,id⟩
  | timeout _ => exact ⟨rfl,rfl,rfl,rfl,rfl,rfl,id⟩
  | shutdown _ _ => exact ⟨rfl,rfl,rfl,rfl,rfl,rfl,id⟩
  | readReason _ => exact ⟨rfl,rfl,rfl,rfl,rfl,rfl,id⟩
  | report _ _ => exact ⟨rfl,rfl,rfl,rfl,rfl,rfl,id⟩

private theorem live_of_readerStep {a : ReaderStep} (hstep : s.readerStep r rd a = some s') :
    rd.stage ≠ .exited := by
  cases readerMove hstep with
  | crash _ hstage =>
    rcases hstage with hs | ⟨toolID,hs⟩ <;> simp [hs]
  | _ => simp [*]

private theorem kept_readerStep {a : ReaderStep} (hr : s.readers[r]? = some rd)
    (hstep : s.readerStep r rd a = some s') : s.Kept s' := by
  have hquiet : ¬∀ rd ∈ s.readers, rd.stage = .exited := by
    intro hq
    exact live_of_readerStep hstep (hq rd (List.mem_of_getElem? hr))
  cases readerMove hstep with
  | closed _ _ _ => exact kept_exit hquiet
  | recvError _ => exact kept_exit hquiet
  | disconnected _ _ => exact kept_exit hquiet
  | failed _ _ => exact kept_exit hquiet
  | start _ => exact ⟨rfl,rfl,rfl,rfl,rfl,rfl,fun hq => absurd hq hquiet⟩
  | receive _ _ _ => exact ⟨rfl,rfl,rfl,rfl,rfl,rfl,fun hq => absurd hq hquiet⟩
  | frame _ _ => exact ⟨rfl,rfl,rfl,rfl,rfl,rfl,fun hq => absurd hq hquiet⟩
  | loadDebug _ => exact ⟨rfl,rfl,rfl,rfl,rfl,rfl,fun hq => absurd hq hquiet⟩
  | register _ => exact ⟨rfl,rfl,rfl,rfl,rfl,rfl,fun hq => absurd hq hquiet⟩
  | checkBridge _ _ => exact ⟨rfl,rfl,rfl,rfl,rfl,rfl,fun hq => absurd hq hquiet⟩
  | sent _ _ => exact ⟨rfl,rfl,rfl,rfl,rfl,rfl,fun hq => absurd hq hquiet⟩
  | retry _ _ => exact ⟨rfl,rfl,rfl,rfl,rfl,rfl,id⟩
  | crash _ _ => exact ⟨rfl,rfl,rfl,rfl,rfl,rfl,id⟩

/-- Only a call changes the bridges, and only a new one or its own step changes a call. -/
theorem step_cases {l : Label} (hstep : s.step l = some s') :
    s.Kept s' ∨
    (∃ template sessionID, s' = s.connect template sessionID) ∨
    s' = s.closeAgent ∨
    ∃ c a call, l = .call c a ∧ s.calls[c]? = some call ∧ s.callStep c call a = some s' := by
  cases l with
  | setDebugMode enabled =>
    cases hstep
    cases enabled <;> exact .inl ⟨rfl,rfl,rfl,rfl,rfl,rfl,id⟩
  | releaseAllHolds =>
    obtain ⟨-,rfl⟩ := of_guard hstep
    exact .inl ⟨rfl,rfl,rfl,rfl,rfl,rfl,id⟩
  | confirmToolResult toolID =>
    cases hstep
    unfold State.confirmToolResult
    cases s.held toolID <;> exact .inl ⟨rfl,rfl,rfl,rfl,rfl,rfl,id⟩
  | shutdown =>
    cases hstep
    exact .inl ⟨rfl,rfl,rfl,rfl,rfl,rfl,id⟩
  | hold i a =>
    obtain ⟨h,-,hstep⟩ := Option.bind_eq_some_iff.mp hstep
    exact .inl (kept_holdStep hstep)
  | reader r a =>
    obtain ⟨rd,hr,hstep⟩ := Option.bind_eq_some_iff.mp hstep
    exact .inl (kept_readerStep hr hstep)
  | connect template sessionID =>
    cases hstep
    exact .inr (.inl ⟨template,sessionID,rfl⟩)
  | closeAgent =>
    cases hstep
    exact .inr (.inr (.inl rfl))
  | call c a =>
    obtain ⟨call,hc,hstep⟩ := Option.bind_eq_some_iff.mp hstep
    exact .inr (.inr (.inr ⟨c,a,call,rfl,hc,hstep⟩))

private theorem bridgesInv_step {l : Label} (hinv : BridgesInv s) (hrel : Relayed s l)
    (hstep : s.step l = some s') : BridgesInv s' := by
  rcases step_cases hstep with hkept | ⟨template,sessionID,rfl⟩ | rfl | ⟨c,a,call,rfl,hc,hcall⟩
  · apply hinv.frame _ hkept.bridge hkept.bridges hkept.lastEffect
    unfold State.pending
    rw [hkept.calls]
  · exact hinv.frame (pending_append rfl (pending_ite rfl rfl)) rfl rfl rfl
  · exact hinv.frame (pending_append rfl rfl) rfl rfl rfl
  · exact bridgesInv_callStep hinv hc hrel hcall

end steps

theorem bridgesInv_inductive : app.Inductive Relayed BridgesInv where
  init s hs := by
    have he : s = {} := hs
    rw [he]
    exact bridgesInv_init
  step s l s' hinv hrel hstep := by
    have hrun : (if s.crashed then none else s.step l) = some s' := hstep
    split at hrun
    · cases hrun
    · exact bridgesInv_step hinv hrel hrun

/-! ## Runs -/

/-- A reader reads only from the bridge of its `Connect` and closes only the channel that was made
for it; no channel is closed twice and nothing panics; at most one reader runs; and once all calls
have returned, the stored bridge is open if and only if a `Connect` took effect last, and no other
bridge is. -/
structure HandedOver (s : State) : Prop where
  reading : ∀ rd ∈ s.readers, ∀ b, rd.stage = .reading b → b = rd.bridge
  done : ∀ rd ∈ s.readers, rd.done = if rd.stage = .spawned then none else some rd.channel
  closings : ∀ n ∈ s.channels, n ≤ 1
  crashed : s.crashed = false
  running : ∀ (r r' : Nat) (rd rd' : Reader), s.readers[r]? = some rd → s.readers[r']? = some rd' →
    rd.stage ≠ .exited → rd'.stage ≠ .exited → r = r'
  returned : (∀ call ∈ s.calls, call.stage = .returned) →
    ((∃ b, s.bridge = some b ∧ s.bridges[b]? = some false) ↔ s.lastEffect = some true) ∧
      ∀ b, s.bridges[b]? = some false → s.bridge = some b

private theorem ReadersInv.closings {s : State} (hinv : ReadersInv s) :
    ∀ n ∈ s.channels, n ≤ 1 := by
  intro n hn
  obtain ⟨k,hk⟩ := List.mem_iff_getElem?.mp hn
  have hlt := (List.getElem?_eq_some_iff.mp hk).1
  by_cases hreader : k < s.readers.length
  · have hown := (hinv.own k _ (List.getElem?_eq_getElem hreader)).closings
    rw [hk] at hown
    have he := Option.some.inj hown
    split at he <;> omega
  · by_cases hnone : ∀ (c : Nat) (call : Call), s.calls[c]? = some call → call.made = none
    · have hlength := (hinv.settled hnone).1
      omega
    · push Not at hnone
      obtain ⟨c,call,hc,hne⟩ := hnone
      obtain ⟨ch,hch⟩ := Option.ne_none_iff_exists'.mp hne
      obtain ⟨hlast,hlength,hopen,-⟩ := hinv.made c call ch hc hch
      have hkch : k = ch := by omega
      rw [hkch,hopen] at hk
      cases hk
      exact Nat.zero_le _

private theorem handedOver_of_inv {s : State} (hreaders : ReadersInv s) (hbridges : BridgesInv s) :
    HandedOver s where
  reading rd hrd := by
    obtain ⟨r,hr⟩ := List.mem_iff_getElem?.mp hrd
    exact (hreaders.own r rd hr).reading
  done rd hrd := by
    obtain ⟨r,hr⟩ := List.mem_iff_getElem?.mp hrd
    have hown := hreaders.own r rd hr
    rw [hown.channel]
    exact hown.done
  closings := hreaders.closings
  crashed := hreaders.crashed
  running r r' rd rd' hr hr' hlive hlive' := by
    have hlast := (hreaders.live r rd hr hlive).1
    have hlast' := (hreaders.live r' rd' hr' hlive').1
    omega
  returned hreturned := by
    refine ⟨hbridges.effect,?_⟩
    intro b ho
    rcases hbridges.opened b ho with hb | ⟨c,hc⟩
    · exact hb
    · obtain ⟨call,hcall,hp⟩ := Option.bind_eq_some_iff.mp hc
      simp [Call.pending,hreturned call (List.mem_of_getElem? hcall)] at hp

/-- Connections are handed over in every run of relayed steps. -/
theorem handed_over {s : State} (h : app.ReachUnder Relayed s) : HandedOver s :=
  handedOver_of_inv (readersInv_inductive.of_reachUnder h) (bridgesInv_inductive.of_reachUnder h)

/-- A connection is handed over to the next one, after the reader of the first has exited. -/
theorem handed_over_demo : ∃ s, HandedOver s ∧
    s.readers.map Reader.stage = [.exited,.reading 1] ∧ s.bridges = [true,false] ∧
    s.channels = [1,0] := by
  have hrun : (app.runUnder (fun s l => decide (Relayed s l)) {}
      (executedRun ++ [.setDebugMode false,.connect "saolei" "s1",.call 1 .check,
        .call 1 (.close true),.call 1 .capture,.reader 0 .register,.hold 0 (.wake .timeout),
        .hold 0 .report,.hold 0 .drop,.reader 0 .checkBridge,.reader 0 (.send .failed),
        .call 1 .wait,.call 1 (.openStream true),.call 1 (.firstStatus true),.call 1 .store,
        .call 1 .renew,.call 1 .spawn,.reader 1 .start,.reader 1 .receive])).any (fun s =>
          decide (s.readers.map Reader.stage = [.exited,.reading 1] ∧ s.bridges = [true,false] ∧
            s.channels = [1,0])) = true := by
    decide
  obtain ⟨s,hreach,hs⟩ := Lts.reachUnder_of_runUnder_any
    (fun s l hc => of_decide_eq_true hc) _ (.init rfl) hrun
  exact ⟨s,handed_over hreach,of_decide_eq_true hs⟩

/-- Two connections are opened side by side. -/
def openedTwiceRun : List Label :=
  [.connect "saolei" "s1",.connect "saolei" "s1",.call 0 .check,.call 1 .check,
    .call 0 (.openStream true),.call 1 (.openStream true),.call 0 (.firstStatus true),
    .call 1 (.firstStatus true),.call 0 .store,.call 1 .store,.call 0 .renew,.call 1 .renew,
    .call 0 .spawn,.call 1 .spawn,.reader 0 .start,.reader 1 .start,.reader 0 .receive,
    .reader 1 .receive]

/-- Two calls of `Connect` that both find no bridge: one bridge stays open for good, both readers
read from the other one, and a channel is closed twice.  A `CloseAgent` that found a bridge closes
one that another has cleared. -/
theorem connections_overlap :
    (∃ s, app.Reach s ∧ (∀ call ∈ s.calls, call.stage = .returned) ∧ s.bridge = some 1 ∧
      s.bridges[0]? = some false ∧ ∃ rd ∈ s.readers, rd.bridge = 0 ∧ rd.stage = .reading 1) ∧
    (∃ s, app.Reach s ∧ s.crashed = true ∧ s.channels = [0,2]) ∧
    ∃ s, app.Reach s ∧ s.crashed = true ∧ s.bridge = none := by
  have hinit : app.Reach {} := .init rfl
  refine ⟨?_,?_,?_⟩
  · have hrun : (app.run {} openedTwiceRun).any (fun s =>
        decide ((∀ call ∈ s.calls, call.stage = .returned) ∧ s.bridge = some 1 ∧
          s.bridges[0]? = some false ∧ ∃ rd ∈ s.readers, rd.bridge = 0 ∧ rd.stage = .reading 1)) =
            true := by
      decide
    obtain ⟨s,hreach,hs⟩ := Lts.reach_of_run_any _ hinit hrun
    exact ⟨s,hreach,of_decide_eq_true hs⟩
  · have hrun : (app.run {} (openedTwiceRun ++ [.reader 0 .recvError,.reader 1 .recvError])).any
        (fun s => decide (s.crashed = true ∧ s.channels = [0,2])) = true := by
      decide
    obtain ⟨s,hreach,hs⟩ := Lts.reach_of_run_any _ hinit hrun
    exact ⟨s,hreach,of_decide_eq_true hs⟩
  · have hrun : (app.run {} (executedRun ++ [.setDebugMode false,.closeAgent,.closeAgent,
        .call 1 .check,.call 2 .check,.call 1 (.close true),.call 1 .capture,.reader 0 .register,
        .hold 0 (.wake .timeout),.hold 0 .report,.hold 0 .drop,.reader 0 .checkBridge,
        .reader 0 (.send .failed),.call 1 .wait,.call 1 .clear,.call 2 (.close true)])).any
          (fun s => decide (s.crashed = true ∧ s.bridge = none)) = true := by
      decide
    obtain ⟨s,hreach,hs⟩ := Lts.reach_of_run_any _ hinit hrun
    exact ⟨s,hreach,of_decide_eq_true hs⟩

end Dominion.Desktop.App
