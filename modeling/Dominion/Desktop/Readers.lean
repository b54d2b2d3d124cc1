import Dominion.Desktop.DebugHolds

/-! # Readers of the connections

When the bridge is assigned only while nothing uses the one stored before, the readers run one after
the other, each on its own bridge with its own channel. -/
namespace Dominion.Desktop.App

open Dominion.Framework

/-! ## Relayed steps -/

/-- The bridge that the call has stored and has yet to start a reader for. -/
def Call.start (call : Call) : Option Nat :=
  match call.stage with
  | .renewing b => some b
  | .spawning b _ => some b
  | _ => none

/-- The channel that the call has made for a reader that it has yet to start. -/
def Call.made (call : Call) : Option Nat :=
  match call.stage with
  | .spawning _ ch => some ch
  | _ => none

/-- The stored bridge is closed, every reader has exited and no call is about to start one. -/
def State.Idle (s : State) : Prop :=
  (∀ b ∈ s.bridge, s.bridges[b]? = some true) ∧ (∀ rd ∈ s.readers, rd.stage = .exited) ∧
    ∀ call ∈ s.calls, call.start = none

instance (s : State) : Decidable s.Idle :=
  inferInstanceAs (Decidable (_ ∧ _ ∧ _))

/-- A call finds a bridge to close, and assigns the bridge when nothing uses the stored one. -/
def Relayed (s : State) : Label → Prop
  | .call _ (.close _) => s.bridge ≠ none
  | .call _ .store => s.Idle
  | .call _ .clear => s.Idle
  | _ => True

instance (s : State) (l : Label) : Decidable (Relayed s l) := by
  unfold Relayed
  split <;> infer_instance

/-! ## The invariant -/

/-- What a reader of number `r` keeps. -/
structure Reader.Own (rd : Reader) (r : Nat) (channels : List Nat) : Prop where
  channel : rd.channel = r
  done : rd.done = if rd.stage = .spawned then none else some r
  closings : channels[r]? = some (if rd.stage = .exited then 1 else 0)
  reading : ∀ b, rd.stage = .reading b → b = rd.bridge

structure ReadersInv (s : State) : Prop where
  starter : ∀ (c c' : Nat) (call call' : Call), s.calls[c]? = some call →
    s.calls[c']? = some call' → call.start ≠ none → call'.start ≠ none → c = c'
  stored : ∀ (c : Nat) (call : Call) (b : Nat), s.calls[c]? = some call → call.start = some b →
    s.bridge = some b ∧ ∀ rd ∈ s.readers, rd.stage = .exited
  made : ∀ (c : Nat) (call : Call) (ch : Nat), s.calls[c]? = some call → call.made = some ch →
    ch = s.readers.length ∧ s.channels.length = ch + 1 ∧ s.channels[ch]? = some 0 ∧
      s.recvDone = some ch
  settled : (∀ (c : Nat) (call : Call), s.calls[c]? = some call → call.made = none) →
    s.channels.length = s.readers.length ∧
      ∀ ch, s.recvDone = some ch ↔ ch + 1 = s.readers.length
  own : ∀ (r : Nat) (rd : Reader), s.readers[r]? = some rd → rd.Own r s.channels
  live : ∀ (r : Nat) (rd : Reader), s.readers[r]? = some rd → rd.stage ≠ .exited →
    r + 1 = s.readers.length ∧ s.bridge = some rd.bridge
  crashed : s.crashed = false

private theorem readersInv_init : ReadersInv {} where
  starter c c' call call' hc := by simp at hc
  stored c call b hc := by simp at hc
  made c call ch hc := by simp at hc
  settled _ := by simp
  own r rd hr := by simp at hr
  live r rd hr := by simp at hr
  crashed := rfl

section steps

variable {s s' : State} {i r c : Nat} {h : Hold} {rd rd' : Reader} {call call' : Call}

private theorem start_ne_none_of_made {ch : Nat} (hmade : call.made = some ch) :
    call.start ≠ none := by
  unfold Call.made at hmade
  split at hmade
  · rename_i b ch' hstage
    simp [Call.start,hstage]
  · cases hmade

private theorem ReadersInv.frame (hinv : ReadersInv s) (hbridge : s'.bridge = s.bridge)
    (hchannels : s'.channels = s.channels) (hdone : s'.recvDone = s.recvDone)
    (hreaders : s'.readers = s.readers) (hcrashed : s'.crashed = s.crashed)
    (hcalls : ∀ (c : Nat) (call : Call), call.start ≠ none →
      (s'.calls[c]? = some call ↔ s.calls[c]? = some call)) : ReadersInv s' where
  starter c c' call call' hc hc' hs hs' :=
    hinv.starter c c' call call' ((hcalls c call hs).mp hc) ((hcalls c' call' hs').mp hc') hs hs'
  stored c call b hc hs := by
    have hne : call.start ≠ none := by simp [hs]
    rw [hbridge,hreaders]
    exact hinv.stored c call b ((hcalls c call hne).mp hc) hs
  made c call ch hc hm := by
    rw [hreaders,hchannels,hdone]
    exact hinv.made c call ch ((hcalls c call (start_ne_none_of_made hm)).mp hc) hm
  settled hm := by
    rw [hreaders,hchannels,hdone]
    apply hinv.settled
    intro c call hc
    by_contra hne
    obtain ⟨ch,hch⟩ := Option.ne_none_iff_exists'.mp hne
    exact hne (hm c call ((hcalls c call (start_ne_none_of_made hch)).mpr hc))
  own r rd hr := by
    rw [hchannels]
    exact hinv.own r rd (hreaders ▸ hr)
  live r rd hr := by
    rw [hreaders,hbridge]
    exact hinv.live r rd (hreaders ▸ hr)
  crashed := hcrashed.trans hinv.crashed

private theorem ReadersInv.setCall (hinv : ReadersInv s) (hc : s.calls[c]? = some call)
    (hold : call.start = none) (hnew : call'.start = none) (hbridge : s'.bridge = s.bridge)
    (hchannels : s'.channels = s.channels) (hdone : s'.recvDone = s.recvDone)
    (hreaders : s'.readers = s.readers) (hcrashed : s'.crashed = s.crashed)
    (hcalls : s'.calls = s.calls.set c call') : ReadersInv s' := by
  apply hinv.frame hbridge hchannels hdone hreaders hcrashed
  intro k call₁ hs
  rw [hcalls]
  by_cases hk : c = k
  · subst hk
    rw [List.getElem?_set_self (List.getElem?_eq_some_iff.mp hc).1,hc]
    constructor
    · intro he
      cases he
      exact absurd hnew hs
    · intro he
      cases he
      exact absurd hold hs
  · rw [List.getElem?_set_ne hk]

private theorem ReadersInv.addCall (hinv : ReadersInv s) (hnew : call'.start = none)
    (hbridge : s'.bridge = s.bridge) (hchannels : s'.channels = s.channels)
    (hdone : s'.recvDone = s.recvDone) (hreaders : s'.readers = s.readers)
    (hcrashed : s'.crashed = s.crashed) (hcalls : s'.calls = s.calls ++ [call']) :
    ReadersInv s' := by
  apply hinv.frame hbridge hchannels hdone hreaders hcrashed
  intro k call₁ hs
  rw [hcalls,List.getElem?_append]
  split
  · exact Iff.rfl
  · rename_i hk
    rw [List.getElem?_eq_none (Nat.le_of_not_lt hk)]
    constructor
    · intro he
      have hmem := List.mem_of_getElem? he
      rw [List.mem_singleton.mp hmem] at hs
      exact absurd hnew hs
    · intro he
      cases he

/-- While a reader has not exited, no call is about to start one. -/
theorem ReadersInv.start_eq_none (hinv : ReadersInv s) (hr : s.readers[r]? = some rd)
    (hlive : rd.stage ≠ .exited) (c : Nat) (call : Call) (hc : s.calls[c]? = some call) :
    call.start = none := by
  by_contra hne
  obtain ⟨b,hb⟩ := Option.ne_none_iff_exists'.mp hne
  exact hlive ((hinv.stored c call b hc hb).2 rd (List.mem_of_getElem? hr))

theorem ReadersInv.settled_of_start (hinv : ReadersInv s)
    (hstart : ∀ (c : Nat) (call : Call), s.calls[c]? = some call → call.start = none) :
    s.channels.length = s.readers.length ∧
      ∀ ch, s.recvDone = some ch ↔ ch + 1 = s.readers.length := by
  apply hinv.settled
  intro c call hc
  by_contra hne
  obtain ⟨ch,hch⟩ := Option.ne_none_iff_exists'.mp hne
  exact start_ne_none_of_made hch (hstart c call hc)

private theorem ReadersInv.setReader (hinv : ReadersInv s) (hr : s.readers[r]? = some rd)
    (hreaders : s'.readers = s.readers.set r rd') (hbridge : s'.bridge = s.bridge)
    (hchannels : s'.channels = s.channels) (hdone : s'.recvDone = s.recvDone)
    (hcrashed : s'.crashed = s.crashed) (hcalls : s'.calls = s.calls)
    (hchannel : rd'.channel = rd.channel) (hon : rd'.bridge = rd.bridge) (hd : rd'.done = some r)
    (hlive : rd.stage ≠ .exited) (hlive' : rd'.stage ≠ .exited) (hspawned : rd'.stage ≠ .spawned)
    (hreading : ∀ b, rd'.stage = .reading b → b = rd.bridge) : ReadersInv s' := by
  have hstart := hinv.start_eq_none hr hlive
  have hlength : s'.readers.length = s.readers.length := by simp [hreaders]
  constructor
  · intro c c' call call' hc _ hs
    exact absurd (hstart c call (hcalls ▸ hc)) hs
  · intro c call b hc hs
    rw [hstart c call (hcalls ▸ hc)] at hs
    cases hs
  · intro c call ch hc hm
    exact absurd (hstart c call (hcalls ▸ hc)) (start_ne_none_of_made hm)
  · intro _
    rw [hchannels,hlength,hdone]
    exact hinv.settled_of_start hstart
  · intro k rd₁ hk
    rw [hreaders] at hk
    rw [hchannels]
    rcases getElem?_set_cases hk with ⟨rfl,rfl⟩ | ⟨-,hk⟩
    · have hown := hinv.own k rd hr
      constructor
      · rw [hchannel,hown.channel]
      · rw [if_neg hspawned,hd]
      · rw [hown.closings,if_neg hlive,if_neg hlive']
      · rw [hon]
        exact hreading
    · exact hinv.own k rd₁ hk
  · intro k rd₁ hk hs
    rw [hreaders] at hk
    rw [hlength,hbridge]
    rcases getElem?_set_cases hk with ⟨rfl,rfl⟩ | ⟨-,hk⟩
    · rw [hon]
      exact hinv.live k rd hr hlive
    · exact hinv.live k rd₁ hk hs
  · exact hcrashed.trans hinv.crashed

/-- The reader that has not exited closes its own channel, which is open. -/
theorem ReadersInv.exit (hinv : ReadersInv s) (hr : s.readers[r]? = some rd)
    (hlive : rd.stage ≠ .exited) (hspawned : rd.stage ≠ .spawned) : ReadersInv (s.exit r rd) := by
  have hstart := hinv.start_eq_none hr hlive
  have hown := hinv.own r rd hr
  have hd : rd.done = some r := by rw [hown.done,if_neg hspawned]
  have hopen : s.channels[r]? = some 0 := by rw [hown.closings,if_neg hlive]
  have he : s.exit r rd = { s.setReader r { rd with stage := .exited } with
      channels := s.channels.modify r (· + 1), crashed := s.crashed } := by
    simp [State.exit,hd,State.setReader,hopen]
  rw [he]
  constructor
  · intro c c' call call' hc _ hs
    exact absurd (hstart c call hc) hs
  · intro c call b hc hs
    rw [hstart c call hc] at hs
    cases hs
  · intro c call ch hc hm
    exact absurd (hstart c call hc) (start_ne_none_of_made hm)
  · intro _
    simpa [State.setReader] using hinv.settled_of_start hstart
  · intro k rd₁ hk
    rcases getElem?_set_cases hk with ⟨rfl,rfl⟩ | ⟨hne,hk⟩
    · constructor
      · exact hown.channel
      · exact hd
      · simp [hopen]
      · intro b hb
        cases hb
    · have hown₁ := hinv.own k rd₁ hk
      refine ⟨hown₁.channel,hown₁.done,?_,hown₁.reading⟩
      rw [← hown₁.closings]
      exact List.getElem?_modify_ne _ _ (Ne.symm hne)
  · intro k rd₁ hk hs
    rcases getElem?_set_cases hk with ⟨rfl,rfl⟩ | ⟨-,hk⟩
    · exact absurd rfl hs
    · simpa [State.setReader] using hinv.live k rd₁ hk hs
  · exact hinv.crashed

private theorem advance_bridge (rd : Reader) : rd.advance.bridge = rd.bridge := by
  unfold Reader.advance
  split <;> rfl

private theorem advance_channel (rd : Reader) : rd.advance.channel = rd.channel := by
  unfold Reader.advance
  split <;> rfl

private theorem advance_done (rd : Reader) : rd.advance.done = rd.done := by
  unfold Reader.advance
  split <;> rfl

private theorem advance_stage (rd : Reader) :
    rd.advance.stage = .receiving ∨ ∃ toolID, rd.advance.stage = .executed toolID := by
  unfold Reader.advance
  split
  · exact .inl rfl
  · exact .inr ⟨_,rfl⟩

private theorem readersInv_readerStep {a : ReaderStep} (hinv : ReadersInv s)
    (hr : s.readers[r]? = some rd) (hstep : s.readerStep r rd a = some s') : ReadersInv s' := by
  have hd : rd.stage ≠ .spawned → rd.done = some r := by
    intro hne
    rw [(hinv.own r rd hr).done,if_neg hne]
  -- The frame or the next frame comes after the last operation.
  have hadvance : ∀ operations, rd.stage ≠ .spawned → rd.stage ≠ .exited →
      ReadersInv (s.setReader r { rd with operations := operations }.advance) := by
    intro operations hspawned hlive
    have hstage := advance_stage { rd with operations := operations }
    refine hinv.setReader hr rfl rfl rfl rfl rfl rfl (advance_channel _) (advance_bridge _)
      ((advance_done _).trans (hd hspawned)) hlive ?_ ?_ ?_
    · rcases hstage with hs | ⟨toolID,hs⟩ <;> simp [hs]
    · rcases hstage with hs | ⟨toolID,hs⟩ <;> simp [hs]
    · intro b hb
      rcases hstage with hs | ⟨toolID,hs⟩ <;> simp [hs] at hb
  cases readerMove hstep with
  | start hstage =>
    have hlive : rd.stage ≠ .exited := by simp [hstage]
    have hsettled := hinv.settled_of_start (hinv.start_eq_none hr hlive)
    have hlast := (hinv.live r rd hr hlive).1
    exact hinv.setReader hr rfl rfl rfl rfl rfl rfl rfl rfl ((hsettled.2 r).mpr hlast) hlive
      (by simp) (by simp) fun b hb => by cases hb
  | @receive b hstage hbridge hopen =>
    have hlive : rd.stage ≠ .exited := by simp [hstage]
    have hspawned : rd.stage ≠ .spawned := by simp [hstage]
    refine hinv.setReader hr rfl rfl rfl rfl rfl rfl rfl rfl (hd hspawned) hlive (by simp)
      (by simp) ?_
    intro b' hb
    have hb' : b = b' := Stage.reading.inj hb
    have hon := (hinv.live r rd hr hlive).2
    rw [hbridge] at hon
    exact hb'.symm.trans (Option.some.inj hon)
  | closed hstage _ _ => exact hinv.exit hr (by simp [hstage]) (by simp [hstage])
  | frame operations hstage => exact hadvance operations (by simp [hstage]) (by simp [hstage])
  | recvError hstage => exact hinv.exit hr (by simp [hstage]) (by simp [hstage])
  | loadDebug hstage =>
    have hspawned : rd.stage ≠ .spawned := by simp [hstage]
    refine hinv.setReader hr rfl rfl rfl rfl rfl rfl rfl rfl (hd hspawned) (by simp [hstage])
      ?_ ?_ ?_
    · dsimp only
      split <;> simp
    · dsimp only
      split <;> simp
    · intro b hb
      dsimp only at hb
      split at hb <;> cases hb
  | register hstage =>
    exact hinv.setReader hr rfl rfl rfl rfl rfl rfl rfl rfl (hd (by simp [hstage]))
      (by simp [hstage]) (by simp) (by simp) fun b hb => by cases hb
  | disconnected hstage _ => exact hinv.exit hr (by simp [hstage]) (by simp [hstage])
  | checkBridge hstage _ =>
    exact hinv.setReader hr rfl rfl rfl rfl rfl rfl rfl rfl (hd (by simp [hstage]))
      (by simp [hstage]) (by simp) (by simp) fun b hb => by cases hb
  | sent hstage _ => exact hadvance rd.operations (by simp [hstage]) (by simp [hstage])
  | retry _ _ => exact hinv
  | failed hstage _ => exact hinv.exit hr (by simp [hstage]) (by simp [hstage])
  | crash hbridge hstage =>
    have hlive : rd.stage ≠ .exited := by
      rcases hstage with hs | ⟨toolID,hs⟩ <;> simp [hs]
    have hon := (hinv.live r rd hr hlive).2
    rw [hbridge] at hon
    cases hon

/-- A hold keeps its reader where it is until it is over. -/
theorem readersInv_holdStep {a : HoldStep} (hinv : ReadersInv s)
    (hstep : s.holdStep i h a = some s') : ReadersInv s' := by
  have hframe : ∀ h', ReadersInv (s.setHold i h') := fun h' =>
    hinv.frame rfl rfl rfl rfl rfl fun _ _ _ => Iff.rfl
  cases holdMove hstep with
  | notified _ _ => exact hframe _
  | timeout _ => exact hframe _
  | shutdown _ _ => exact hframe _
  | readReason _ => exact hframe _
  | report _ _ => exact hframe _
  | drop _ =>
    by_cases hheld : ∃ rd, s.readers[h.reader]? = some rd ∧ rd.stage = .holding i
    · obtain ⟨rd,hr,hstage⟩ := hheld
      have hd : rd.done = some h.reader := by
        rw [(hinv.own h.reader rd hr).done,if_neg (by simp [hstage])]
      have hreaders : (s.dropHold i h).readers =
          s.readers.set h.reader { rd with stage := .sending h.toolID } := by
        apply List.ext_getElem?
        intro k
        simp only [State.dropHold,List.getElem?_modify,List.getElem?_set]
        by_cases hk : h.reader = k
        · subst hk
          have hlt := (List.getElem?_eq_some_iff.mp hr).1
          rw [hr]
          simp [hstage,hlt]
        · simp [hk]
      exact hinv.setReader hr hreaders rfl rfl rfl rfl rfl rfl rfl hd (by simp [hstage]) (by simp)
        (by simp) fun b hb => by cases hb
    · refine hinv.frame rfl rfl rfl ?_ rfl fun _ _ _ => Iff.rfl
      apply List.ext_getElem?
      intro k
      simp only [State.dropHold,List.getElem?_modify]
      by_cases hk : h.reader = k
      · subst hk
        cases hr : s.readers[h.reader]? with
        | none => rfl
        | some rd =>
          have hne : rd.stage ≠ .holding i := fun hs => hheld ⟨rd,hr,hs⟩
          simp [hne]
      · simp [hk]

/-- A new channel is made for the reader to come. -/
theorem ReadersInv.renew {b : Nat} (hinv : ReadersInv s) (hc : s.calls[c]? = some call)
    (hstage : call.stage = .renewing b) : ReadersInv
      { s.setCall c { call with stage := .spawning b s.channels.length } with
        channels := s.channels ++ [0]
        recvDone := some s.channels.length } := by
  have hstart : call.start = some b := by simp [Call.start,hstage]
  obtain ⟨hbridge,hquiet⟩ := hinv.stored c call b hc hstart
  -- The other calls have no reader to start.
  have hother : ∀ (k : Nat) (call₁ : Call), k ≠ c → s.calls[k]? = some call₁ →
      call₁.start = none := by
    intro k call₁ hk hk₁
    by_contra hne
    exact hk (hinv.starter k c call₁ call hk₁ hc hne (by simp [hstart]))
  have hsettled : s.channels.length = s.readers.length := by
    apply (hinv.settled _).1
    intro k call₁ hk₁
    by_contra hne
    obtain ⟨ch,hch⟩ := Option.ne_none_iff_exists'.mp hne
    by_cases hk : k = c
    · subst hk
      rw [hc] at hk₁
      cases hk₁
      simp [Call.made,hstage] at hch
    · exact start_ne_none_of_made hch (hother k call₁ hk hk₁)
  constructor
  · intro k k' call₁ call₂ hk hk' hs hs'
    rcases getElem?_set_cases hk with ⟨rfl,rfl⟩ | ⟨hne,hk⟩
    · rcases getElem?_set_cases hk' with ⟨rfl,rfl⟩ | ⟨hne',hk'⟩
      · rfl
      · exact absurd (hother k' call₂ hne' hk') hs'
    · exact absurd (hother k call₁ hne hk) hs
  · intro k call₁ b₁ hk hs
    rcases getElem?_set_cases hk with ⟨rfl,rfl⟩ | ⟨hne,hk⟩
    · have hb : b = b₁ := Option.some.inj hs
      exact ⟨hb ▸ hbridge,hquiet⟩
    · rw [hother k call₁ hne hk] at hs
      cases hs
  · intro k call₁ ch hk hm
    rcases getElem?_set_cases hk with ⟨rfl,rfl⟩ | ⟨hne,hk⟩
    · have hch : s.channels.length = ch := Option.some.inj hm
      subst hch
      simpa [State.setCall] using hsettled
    · exact absurd (hother k call₁ hne hk) (start_ne_none_of_made hm)
  · intro hnone
    have hmade := hnone c { call with stage := .spawning b s.channels.length }
      (List.getElem?_set_self (List.getElem?_eq_some_iff.mp hc).1)
    cases hmade
  · intro r rd hr
    have hown := hinv.own r rd hr
    refine ⟨hown.channel,hown.done,?_,hown.reading⟩
    rw [← hown.closings]
    exact List.getElem?_append_left (hsettled ▸ (List.getElem?_eq_some_iff.mp hr).1)
  · intro r rd hr hs
    exact absurd (hquiet rd (List.mem_of_getElem? hr)) hs
  · exact hinv.crashed

private theorem ReadersInv.spawn {b ch : Nat} (hinv : ReadersInv s) (hc : s.calls[c]? = some call)
    (hstage : call.stage = .spawning b ch) : ReadersInv
      { s.setCall c { call with stage := .returned } with
        readers := s.readers ++ [{ bridge := b, channel := ch }] } := by
  have hstart : call.start = some b := by simp [Call.start,hstage]
  obtain ⟨hbridge,hquiet⟩ := hinv.stored c call b hc hstart
  obtain ⟨hch,hlength,hopen,hdone⟩ := hinv.made c call ch hc (by simp [Call.made,hstage])
  have hnone : ∀ (k : Nat) (call₁ : Call),
      (s.calls.set c { call with stage := .returned })[k]? = some call₁ → call₁.start = none := by
    intro k call₁ hk
    rcases getElem?_set_cases hk with ⟨rfl,rfl⟩ | ⟨hne,hk⟩
    · rfl
    · by_contra hs
      exact hne (hinv.starter k c call₁ call hk hc hs (by simp [hstart]))
  have hreader : ∀ (r : Nat) (rd : Reader),
      (s.readers ++ [{ bridge := b, channel := ch }])[r]? = some rd →
        s.readers[r]? = some rd ∨ r = s.readers.length ∧ rd = { bridge := b, channel := ch } := by
    intro r rd hr
    rw [List.getElem?_append] at hr
    split at hr
    · exact .inl hr
    · rename_i hlt
      obtain ⟨hi,he⟩ := List.getElem?_eq_some_iff.mp hr
      simp only [List.length_singleton] at hi
      refine .inr ⟨by omega,?_⟩
      simpa using he.symm
  constructor
  · intro k k' call₁ call₂ hk _ hs
    exact absurd (hnone k call₁ hk) hs
  · intro k call₁ b₁ hk hs
    rw [hnone k call₁ hk] at hs
    cases hs
  · intro k call₁ ch₁ hk hm
    exact absurd (hnone k call₁ hk) (start_ne_none_of_made hm)
  · intro _
    constructor
    · simp [State.setCall,hlength,hch]
    · intro ch₁
      simp only [State.setCall,hdone,Option.some.injEq,List.length_append,List.length_singleton]
      omega
  · intro r rd hr
    rcases hreader r rd hr with hr | ⟨rfl,rfl⟩
    · exact hinv.own r rd hr
    · refine ⟨hch,rfl,?_,fun b hb => by cases hb⟩
      rw [hch] at hopen
      exact hopen
  · intro r rd hr hs
    rcases hreader r rd hr with hr | ⟨rfl,rfl⟩
    · exact absurd (hquiet rd (List.mem_of_getElem? hr)) hs
    · simpa [State.setCall] using hbridge
  · exact hinv.crashed

private theorem ReadersInv.assign (hinv : ReadersInv s) (hidle : s.Idle)
    (hcalls : s'.calls = s.calls.set c call') (hmade : call'.made = none)
    (hstored : ∀ b, call'.start = some b → s'.bridge = some b)
    (hchannels : s'.channels = s.channels) (hdone : s'.recvDone = s.recvDone)
    (hreaders : s'.readers = s.readers) (hcrashed : s'.crashed = s.crashed) : ReadersInv s' := by
  obtain ⟨-,hquiet,hstart⟩ := hidle
  have hcase : ∀ (k : Nat) (call₁ : Call), s'.calls[k]? = some call₁ →
      k = c ∧ call₁ = call' ∨ call₁.start = none := by
    intro k call₁ hk
    rw [hcalls] at hk
    rcases getElem?_set_cases hk with he | ⟨-,hk⟩
    · exact .inl he
    · exact .inr (hstart call₁ (List.mem_of_getElem? hk))
  have hunmade : ∀ (k : Nat) (call₁ : Call), s'.calls[k]? = some call₁ → call₁.made = none := by
    intro k call₁ hk
    rcases hcase k call₁ hk with ⟨-,rfl⟩ | hnone
    · exact hmade
    · by_contra hne
      obtain ⟨ch,hch⟩ := Option.ne_none_iff_exists'.mp hne
      exact start_ne_none_of_made hch hnone
  constructor
  · intro k k' call₁ call₂ hk hk' hs hs'
    rcases hcase k call₁ hk with ⟨rfl,-⟩ | hnone
    · rcases hcase k' call₂ hk' with ⟨rfl,-⟩ | hnone
      · rfl
      · exact absurd hnone hs'
    · exact absurd hnone hs
  · intro k call₁ b hk hs
    rcases hcase k call₁ hk with ⟨-,rfl⟩ | hnone
    · exact ⟨hstored b hs,hreaders ▸ hquiet⟩
    · rw [hnone] at hs
      cases hs
  · intro k call₁ ch hk hm
    rw [hunmade k call₁ hk] at hm
    cases hm
  · intro _
    rw [hchannels,hreaders,hdone]
    exact hinv.settled_of_start fun k call₁ hk => hstart call₁ (List.mem_of_getElem? hk)
  · intro r rd hr
    rw [hchannels]
    exact hinv.own r rd (hreaders ▸ hr)
  · intro r rd hr hs
    rw [hreaders] at hr
    exact absurd (hquiet rd (List.mem_of_getElem? hr)) hs
  · exact hcrashed.trans hinv.crashed

theorem start_ite {p : Prop} [Decidable p] {a b : CallStage} {connects : Bool} {seen : Nat}
    (ha : Call.start ⟨connects,a,seen⟩ = none) (hb : Call.start ⟨connects,b,seen⟩ = none) :
    Call.start ⟨connects,if p then a else b,seen⟩ = none := by
  split
  · exact ha
  · exact hb

theorem start_handedOver (call : Call) : call.handedOver.start = none :=
  start_ite rfl rfl

private theorem readersInv_callStep {a : CallStep} (hinv : ReadersInv s)
    (hc : s.calls[c]? = some call)
    (hrel : Relayed s (.call c a)) (hstep : s.callStep c call a = some s') : ReadersInv s' := by
  cases callMove hstep with
  | unconnected hstage _ =>
    exact hinv.setCall hc (by simp [Call.start,hstage]) (start_ite rfl rfl) rfl rfl rfl rfl rfl rfl
  | check hstage _ =>
    exact hinv.setCall hc (by simp [Call.start,hstage]) rfl rfl rfl rfl rfl rfl rfl
  | crash _ _ hbridge => exact absurd hbridge hrel
  | close _ hstage _ =>
    exact hinv.setCall hc (by simp [Call.start,hstage]) (start_ite rfl rfl) rfl rfl rfl rfl rfl rfl
  | unread hstage _ =>
    exact hinv.setCall hc (by simp [Call.start,hstage]) (start_handedOver call) rfl rfl rfl rfl rfl
      rfl
  | capture hstage _ =>
    exact hinv.setCall hc (by simp [Call.start,hstage]) rfl rfl rfl rfl rfl rfl rfl
  | wait hstage _ =>
    exact hinv.setCall hc (by simp [Call.start,hstage]) (start_handedOver call) rfl rfl rfl rfl rfl
      rfl
  | openStream _ hstage =>
    exact hinv.setCall hc (by simp [Call.start,hstage]) (start_ite rfl rfl) rfl rfl rfl rfl rfl rfl
  | firstStatus hstage =>
    exact hinv.setCall hc (by simp [Call.start,hstage]) rfl rfl rfl rfl rfl rfl rfl
  | unconfirmed hstage =>
    exact hinv.setCall hc (by simp [Call.start,hstage]) rfl rfl rfl rfl rfl rfl rfl
  | store hstage => exact hinv.assign hrel rfl rfl (fun b hb => hb) rfl rfl rfl rfl
  | renew hstage => exact hinv.renew hc hstage
  | spawn hstage => exact hinv.spawn hc hstage
  | clear hstage => exact hinv.assign hrel rfl rfl (fun b hb => by cases hb) rfl rfl rfl rfl

private theorem readersInv_step {l : Label} (hinv : ReadersInv s) (hrel : Relayed s l)
    (hstep : s.step l = some s') : ReadersInv s' := by
  have hframe : ∀ {t : State}, t.bridge = s.bridge → t.channels = s.channels →
      t.recvDone = s.recvDone → t.readers = s.readers → t.crashed = s.crashed →
        t.calls = s.calls → ReadersInv t := by
    intro t hb hch hd hr hcr hc
    exact hinv.frame hb hch hd hr hcr fun c call _ => by rw [hc]
  cases l with
  | setDebugMode enabled =>
    cases hstep
    cases enabled <;> exact hframe rfl rfl rfl rfl rfl rfl
  | releaseAllHolds =>
    obtain ⟨-,rfl⟩ := of_guard hstep
    exact hframe rfl rfl rfl rfl rfl rfl
  | confirmToolResult toolID =>
    cases hstep
    unfold State.confirmToolResult
    cases s.held toolID <;> exact hframe rfl rfl rfl rfl rfl rfl
  | shutdown =>
    cases hstep
    exact hframe rfl rfl rfl rfl rfl rfl
  | hold i a =>
    obtain ⟨h,-,hstep⟩ := Option.bind_eq_some_iff.mp hstep
    exact readersInv_holdStep hinv hstep
  | reader r a =>
    obtain ⟨rd,hr,hstep⟩ := Option.bind_eq_some_iff.mp hstep
    exact readersInv_readerStep hinv hr hstep
  | connect template sessionID =>
    cases hstep
    exact hinv.addCall (start_ite rfl rfl) rfl rfl rfl rfl rfl rfl
  | closeAgent =>
    cases hstep
    exact hinv.addCall rfl rfl rfl rfl rfl rfl rfl
  | call c a =>
    obtain ⟨call,hc,hstep⟩ := Option.bind_eq_some_iff.mp hstep
    exact readersInv_callStep hinv hc hrel hstep

end steps

theorem readersInv_inductive : app.Inductive Relayed ReadersInv where
  init s hs := by
    have he : s = {} := hs
    rw [he]
    exact readersInv_init
  step s l s' hinv hrel hstep := by
    have hrun : (if s.crashed then none else s.step l) = some s' := hstep
    rw [if_neg (by simp [hinv.crashed])] at hrun
    exact readersInv_step hinv hrel hrun

end Dominion.Desktop.App
