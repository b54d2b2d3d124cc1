import Dominion.Desktop.Handover

/-! # Hand-overs that no other call disturbs

When no other call assigns the bridge between a call's last look at it and its own assignment, the
wait for the reader makes sure that nothing uses the bridge that is replaced or cleared. -/
namespace Dominion.Desktop.App

open Dominion.Framework

/-- The call has made the channel of the reader that it is about to start, if any. -/
def Call.Ready (call : Call) : Prop :=
  call.start = none ∨ call.made ≠ none

instance (call : Call) : Decidable call.Ready :=
  inferInstanceAs (Decidable (_ ∨ _))

/-- A call finds a bridge to close, captures the channel of the stored bridge, and assigns the
bridge before any other call has done so. -/
def Undisturbed (s : State) : Label → Prop
  | .call _ (.close _) => s.bridge ≠ none
  | .call _ .capture => ∀ call ∈ s.calls, call.Ready
  | .call c .store => ∀ call ∈ s.calls[c]?, call.seen = s.assigned
  | .call c .clear => ∀ call ∈ s.calls[c]?, call.seen = s.assigned
  | _ => True

/-- The readers have exited and no call is about to start one. -/
def State.Quiet (s : State) : Prop :=
  (∀ rd ∈ s.readers, rd.stage = .exited) ∧ ∀ call ∈ s.calls, call.start = none

/-- What a call knows as long as no other call has assigned the bridge. -/
def Knows (s : State) (stage : CallStage) : Prop :=
  match stage with
  | .capturing => s.lastEffect ≠ some true
  | .waiting ch => s.lastEffect ≠ some true ∧ s.recvDone = some ch ∧ ∀ call ∈ s.calls, call.Ready
  | .opening => s.lastEffect ≠ some true ∧ s.Quiet
  | .confirming _ => s.lastEffect ≠ some true ∧ s.Quiet
  | .storing _ => s.lastEffect ≠ some true ∧ s.Quiet
  | .clearing => s.lastEffect ≠ some true ∧ s.Quiet
  | _ => True

structure Fresh (s : State) (call : Call) : Prop where
  seen : call.seen ≤ s.assigned
  knows : call.seen = s.assigned → Knows s call.stage

section steps

variable {s s' : State} {i r c : Nat} {h : Hold} {rd rd' : Reader} {call call' : Call}

private theorem Knows.mono {stage : CallStage} (hk : Knows s stage)
    (heffect : s.lastEffect ≠ some true → s'.lastEffect ≠ some true)
    (hdone : s'.recvDone = s.recvDone)
    (hreaders : (∀ rd ∈ s.readers, rd.stage = .exited) → ∀ rd ∈ s'.readers, rd.stage = .exited)
    (hcalls : ∀ call ∈ s'.calls, call.start = none ∨ call ∈ s.calls) : Knows s' stage := by
  have hquiet : s.Quiet → s'.Quiet := by
    intro hq
    refine ⟨hreaders hq.1,?_⟩
    intro call hcall
    rcases hcalls call hcall with hnone | hmem
    · exact hnone
    · exact hq.2 call hmem
  cases stage with
  | capturing => exact heffect hk
  | waiting ch =>
    obtain ⟨he,hd,hready⟩ := hk
    refine ⟨heffect he,hdone.trans hd,?_⟩
    intro call hcall
    rcases hcalls call hcall with hnone | hmem
    · exact .inl hnone
    · exact hready call hmem
  | opening => exact ⟨heffect hk.1,hquiet hk.2⟩
  | confirming b => exact ⟨heffect hk.1,hquiet hk.2⟩
  | storing b => exact ⟨heffect hk.1,hquiet hk.2⟩
  | clearing => exact ⟨heffect hk.1,hquiet hk.2⟩
  | _ => trivial

/-- While a call is about to start a reader, no other call knows of quiet. -/
theorem Knows.of_start {stage : CallStage} (hk : Knows s stage) (hmem : call ∈ s.calls)
    (hstart : call.start ≠ none) (heffect : s'.lastEffect = s.lastEffect)
    (hready : (∀ call ∈ s.calls, call.Ready) →
      s'.recvDone = s.recvDone ∧ ∀ call ∈ s'.calls, call.Ready) : Knows s' stage := by
  have hquiet : ¬s.Quiet := fun hq => hstart (hq.2 call hmem)
  cases stage with
  | capturing => exact fun he => hk (heffect ▸ he)
  | waiting ch =>
    obtain ⟨he,hdone,hall⟩ := hk
    obtain ⟨hdone',hall'⟩ := hready hall
    exact ⟨fun he' => he (heffect ▸ he'),hdone'.trans hdone,hall'⟩
  | opening => exact absurd hk.2 hquiet
  | confirming b => exact absurd hk.2 hquiet
  | storing b => exact absurd hk.2 hquiet
  | clearing => exact absurd hk.2 hquiet
  | _ => trivial

private theorem fresh_setCall (hinv : ∀ k ∈ s.calls, Fresh s k)
    (hcalls : s'.calls = s.calls.set c call')
    (hassigned : s'.assigned = s.assigned) (hkeep : ∀ stage, Knows s stage → Knows s' stage)
    (hseen : call'.seen ≤ s.assigned) (hnew : call'.seen = s.assigned → Knows s' call'.stage) :
    ∀ k ∈ s'.calls, Fresh s' k := by
  intro k hmem
  rw [hcalls] at hmem
  rcases List.mem_or_eq_of_mem_set hmem with hmem | rfl
  · have hfresh := hinv k hmem
    constructor
    · rw [hassigned]
      exact hfresh.seen
    · intro he
      exact hkeep _ (hfresh.knows (he.trans hassigned))
  · rw [← hassigned] at hseen hnew
    exact ⟨hseen,hnew⟩

private theorem fresh_goOn (hinv : ∀ k ∈ s.calls, Fresh s k)
    (hcalls : s'.calls = s.calls.set c call')
    (hassigned : s'.assigned = s.assigned) (hdone : s'.recvDone = s.recvDone)
    (hreaders : s'.readers = s.readers)
    (heffect : s'.lastEffect = s.lastEffect ∨ s'.lastEffect = some false)
    (hstart : call'.start = none) (hseen : call'.seen ≤ s.assigned)
    (hnew : (∀ stage, Knows s stage → Knows s' stage) → call'.seen = s.assigned →
      Knows s' call'.stage) : ∀ k ∈ s'.calls, Fresh s' k := by
  have hkeep : ∀ stage, Knows s stage → Knows s' stage := by
    intro stage hk
    apply hk.mono _ hdone
    · rw [hreaders]
      exact id
    · intro k hmem
      rw [hcalls] at hmem
      rcases List.mem_or_eq_of_mem_set hmem with hmem | rfl
      · exact .inr hmem
      · exact .inl hstart
    · intro hne
      rcases heffect with he | he
      · rw [he]
        exact hne
      · simp [he]
  exact fresh_setCall hinv hcalls hassigned hkeep hseen (hnew hkeep)

private theorem fresh_assign (hinv : ∀ k ∈ s.calls, Fresh s k) (hc : s.calls[c]? = some call)
    (hcalls : s'.calls = s.calls.set c call') (hseen : call'.seen = call.seen)
    (hassigned : s'.assigned = s.assigned + 1) : ∀ k ∈ s'.calls, Fresh s' k := by
  have hlt : ∀ k ∈ s'.calls, k.seen < s'.assigned := by
    intro k hmem
    rw [hcalls] at hmem
    rw [hassigned,Nat.lt_succ_iff]
    rcases List.mem_or_eq_of_mem_set hmem with hmem | rfl
    · exact (hinv k hmem).seen
    · rw [hseen]
      exact (hinv call (List.mem_of_getElem? hc)).seen
  intro k hmem
  exact ⟨Nat.le_of_lt (hlt k hmem),fun he => absurd he (Nat.ne_of_lt (hlt k hmem))⟩

private theorem ReadersInv.quiet_of_disconnected (hinv : ReadersInv s) (hbridge : s.bridge = none) :
    s.Quiet := by
  constructor
  · intro rd hrd
    obtain ⟨r,hr⟩ := List.mem_iff_getElem?.mp hrd
    by_contra hlive
    have hon := (hinv.live r rd hr hlive).2
    rw [hbridge] at hon
    cases hon
  · intro call hcall
    obtain ⟨c,hc⟩ := List.mem_iff_getElem?.mp hcall
    by_contra hne
    obtain ⟨b,hb⟩ := Option.ne_none_iff_exists'.mp hne
    have hstored := (hinv.stored c call b hc hb).1
    rw [hbridge] at hstored
    cases hstored

/-- The channel of the stored bridge is closed, or there is none. -/
theorem ReadersInv.quiet_of_closed (hinv : ReadersInv s) (hready : ∀ call ∈ s.calls, call.Ready)
    (hclosed : ∀ ch, s.recvDone = some ch → s.channels[ch]? ≠ some 0) : s.Quiet := by
  have hstart : ∀ call ∈ s.calls, call.start = none := by
    intro call hcall
    rcases hready call hcall with hnone | hmade
    · exact hnone
    · obtain ⟨c,hc⟩ := List.mem_iff_getElem?.mp hcall
      obtain ⟨ch,hch⟩ := Option.ne_none_iff_exists'.mp hmade
      obtain ⟨-,-,hopen,hdone⟩ := hinv.made c call ch hc hch
      exact absurd hopen (hclosed ch hdone)
  refine ⟨?_,hstart⟩
  intro rd hrd
  obtain ⟨r,hr⟩ := List.mem_iff_getElem?.mp hrd
  by_contra hlive
  have hsettled := hinv.settled_of_start fun c call hc => hstart call (List.mem_of_getElem? hc)
  have hdone := (hsettled.2 r).mpr (hinv.live r rd hr hlive).1
  apply hclosed r hdone
  rw [(hinv.own r rd hr).closings,if_neg hlive]

private theorem knows_handedOver (heffect : s.lastEffect ≠ some true) (hquiet : s.Quiet) :
    Knows s call.handedOver.stage := by
  unfold Call.handedOver
  cases call.connects <;> exact ⟨heffect,hquiet⟩

private theorem fresh_callStep {a : CallStep} (hreaders : ReadersInv s) (hbridges : BridgesInv s)
    (hinv : ∀ k ∈ s.calls, Fresh s k) (hc : s.calls[c]? = some call)
    (hund : Undisturbed s (.call c a)) (hstep : s.callStep c call a = some s') :
    ∀ k ∈ s'.calls, Fresh s' k := by
  obtain ⟨hseen,hknows⟩ := hinv call (List.mem_of_getElem? hc)
  cases callMove hstep with
  | unconnected hstage hbridge =>
    refine fresh_goOn hinv rfl rfl rfl rfl (.inl rfl) (start_ite rfl rfl) (Nat.le_refl _) ?_
    intro hkeep _
    have heffect : s.lastEffect ≠ some true := by
      rw [Ne,← hbridges.effect]
      simp [hbridge]
    apply hkeep
    dsimp only
    split
    · exact ⟨heffect,hreaders.quiet_of_disconnected hbridge⟩
    · trivial
  | check hstage _ =>
    exact fresh_goOn hinv rfl rfl rfl rfl (.inl rfl) rfl hseen fun _ _ => trivial
  | crash _ _ hbridge => exact absurd hbridge hund
  | close ok hstage hbridge =>
    refine fresh_goOn hinv rfl rfl rfl rfl (.inr rfl) (start_ite rfl rfl) (Nat.le_refl _) ?_
    intro _ _
    dsimp only
    split
    · exact fun he => by cases he
    · trivial
  | unread hstage hdone =>
    refine fresh_goOn hinv rfl rfl rfl rfl (.inl rfl) (start_handedOver call) hseen ?_
    intro hkeep he
    rw [hstage] at hknows
    apply hkeep
    apply knows_handedOver (hknows he)
    exact hreaders.quiet_of_closed hund fun ch hch => by simp [hdone] at hch
  | @capture ch hstage hdone =>
    refine fresh_goOn hinv rfl rfl rfl rfl (.inl rfl) rfl hseen ?_
    intro hkeep he
    rw [hstage] at hknows
    apply hkeep
    exact ⟨hknows he,hdone,hund⟩
  | @wait ch hstage hclosed =>
    refine fresh_goOn hinv rfl rfl rfl rfl (.inl rfl) (start_handedOver call) hseen ?_
    intro hkeep he
    rw [hstage] at hknows
    obtain ⟨heffect,hdone,hready⟩ := hknows he
    apply hkeep
    apply knows_handedOver heffect
    apply hreaders.quiet_of_closed hready
    intro ch' hch'
    rw [hdone] at hch'
    cases hch'
    exact hclosed
  | openStream ok hstage =>
    refine fresh_goOn hinv rfl rfl rfl rfl (.inl rfl) (start_ite rfl rfl) hseen ?_
    intro hkeep he
    rw [hstage] at hknows
    apply hkeep
    dsimp only
    split
    · exact hknows he
    · trivial
  | firstStatus hstage =>
    refine fresh_goOn hinv rfl rfl rfl rfl (.inl rfl) rfl hseen ?_
    intro hkeep he
    rw [hstage] at hknows
    exact hkeep _ (hknows he)
  | unconfirmed hstage =>
    exact fresh_goOn hinv rfl rfl rfl rfl (.inl rfl) rfl hseen fun _ _ => trivial
  | store hstage => exact fresh_assign hinv hc rfl rfl rfl
  | renew hstage =>
    have hmem := List.mem_of_getElem? hc
    have hstart : call.start ≠ none := by simp [Call.start,hstage]
    have hnot : ¬call.Ready := by simp [Call.Ready,Call.start,Call.made,hstage]
    refine fresh_setCall hinv rfl rfl ?_ hseen fun _ => trivial
    intro stage hk
    exact hk.of_start hmem hstart rfl fun hready => absurd (hready call hmem) hnot
  | spawn hstage =>
    have hmem := List.mem_of_getElem? hc
    have hstart : call.start ≠ none := by simp [Call.start,hstage]
    refine fresh_setCall hinv rfl rfl ?_ hseen fun _ => trivial
    intro stage hk
    refine hk.of_start hmem hstart rfl fun hready => ⟨rfl,?_⟩
    intro k hmem'
    rcases List.mem_or_eq_of_mem_set hmem' with hmem' | rfl
    · exact hready k hmem'
    · exact .inl rfl
  | clear hstage => exact fresh_assign hinv hc rfl rfl rfl

private theorem fresh_addCall (hinv : ∀ k ∈ s.calls, Fresh s k)
    (hcalls : s'.calls = s.calls ++ [call'])
    (hassigned : s'.assigned = s.assigned) (hdone : s'.recvDone = s.recvDone)
    (hreaders : s'.readers = s.readers) (heffect : s'.lastEffect = s.lastEffect)
    (hstart : call'.start = none) (hseen : call'.seen = 0) (hnew : Knows s' call'.stage) :
    ∀ k ∈ s'.calls, Fresh s' k := by
  intro k hmem
  rw [hcalls] at hmem
  rcases List.mem_append.mp hmem with hmem | hmem
  · obtain ⟨hseen,hknows⟩ := hinv k hmem
    refine ⟨hassigned ▸ hseen,fun he => ?_⟩
    apply (hknows (he.trans hassigned)).mono (fun hne => heffect ▸ hne) hdone
    · rw [hreaders]
      exact id
    · intro k' hmem'
      rw [hcalls] at hmem'
      rcases List.mem_append.mp hmem' with hmem' | hmem'
      · exact .inr hmem'
      · rw [List.mem_singleton.mp hmem']
        exact .inl hstart
  · rw [List.mem_singleton.mp hmem]
    exact ⟨by simp [hseen],fun _ => hnew⟩

/-- A call that is to assign the bridge knows that nothing uses the stored one. -/
theorem idle_of_knows {stage : CallStage} (hbridges : BridgesInv s) (hk : Knows s stage)
    (hstage : stage = .clearing ∨ ∃ b, stage = .storing b) : s.Idle := by
  have hknown : s.lastEffect ≠ some true ∧ s.Quiet := by
    rcases hstage with rfl | ⟨b,rfl⟩ <;> exact hk
  obtain ⟨heffect,hquiet⟩ := hknown
  refine ⟨?_,hquiet⟩
  intro b hb
  have hlt := hbridges.stored b hb
  rw [List.getElem?_eq_getElem hlt]
  cases ho : s.bridges[b] with
  | true => rfl
  | false =>
    have hopen : s.bridges[b]? = some false := by rw [List.getElem?_eq_getElem hlt,ho]
    exact absurd (hbridges.effect.mp ⟨b,hb,hopen⟩) heffect

private theorem relayed_of_undisturbed {l : Label} (hbridges : BridgesInv s)
    (hinv : ∀ k ∈ s.calls, Fresh s k) (hund : Undisturbed s l) (hstep : s.step l = some s') :
    Relayed s l := by
  unfold Relayed
  split
  · exact hund
  · obtain ⟨call,hc,hcall⟩ := Option.bind_eq_some_iff.mp hstep
    have hseen : call.seen = s.assigned := hund call hc
    have hknows := (hinv call (List.mem_of_getElem? hc)).knows hseen
    cases callMove hcall with
    | @store b hstage => exact idle_of_knows hbridges hknows (.inr ⟨b,hstage⟩)
  · obtain ⟨call,hc,hcall⟩ := Option.bind_eq_some_iff.mp hstep
    have hseen : call.seen = s.assigned := hund call hc
    have hknows := (hinv call (List.mem_of_getElem? hc)).knows hseen
    cases callMove hcall with
    | clear hstage => exact idle_of_knows hbridges hknows (.inl hstage)
  · trivial

private theorem fresh_step {l : Label} (hreaders : ReadersInv s) (hbridges : BridgesInv s)
    (hinv : ∀ k ∈ s.calls, Fresh s k) (hund : Undisturbed s l) (hstep : s.step l = some s') :
    ∀ k ∈ s'.calls, Fresh s' k := by
  rcases step_cases hstep with hkept | ⟨template,sessionID,rfl⟩ | rfl | ⟨c,a,call,rfl,hc,hcall⟩
  · intro k hmem
    rw [hkept.calls] at hmem
    obtain ⟨hseen,hknows⟩ := hinv k hmem
    refine ⟨hkept.assigned ▸ hseen,fun he => ?_⟩
    apply (hknows (he.trans hkept.assigned)).mono (fun hne => hkept.lastEffect ▸ hne)
      hkept.recvDone hkept.exited
    intro k' hmem'
    exact .inr (hkept.calls ▸ hmem')
  · refine fresh_addCall hinv rfl rfl rfl rfl rfl (start_ite rfl rfl) rfl ?_
    dsimp only
    split <;> trivial
  · exact fresh_addCall hinv rfl rfl rfl rfl rfl rfl rfl trivial
  · exact fresh_callStep hreaders hbridges hinv hc hund hcall

end steps

/-- The hand-over of every run that no other call disturbs is relayed, so it ends well. -/
theorem reachUnder_relayed {s : State} (h : app.ReachUnder Undisturbed s) :
    app.ReachUnder Relayed s ∧ ∀ call ∈ s.calls, Fresh s call := by
  induction h with
  | @init s hs =>
    have he : s = {} := hs
    rw [he]
    exact ⟨.init rfl,fun call hcall => by cases hcall⟩
  | @step s s' l _ hund hstep ih =>
    obtain ⟨hreach,hfresh⟩ := ih
    have hreaders := readersInv_inductive.of_reachUnder hreach
    have hbridges := bridgesInv_inductive.of_reachUnder hreach
    have hrun : (if s.crashed then none else s.step l) = some s' := hstep
    rw [if_neg (by simp [hreaders.crashed])] at hrun
    have hrel := relayed_of_undisturbed hbridges hfresh hund hrun
    exact ⟨.step hreach hrel hstep,fresh_step hreaders hbridges hfresh hund hrun⟩

end Dominion.Desktop.App
