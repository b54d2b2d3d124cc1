import Dominion.Desktop.DebugHolds

/-! # Calls that do not race with holds

Which calls, frames and time-outs may overlap with a hold: whoever releases it comes before its
time-out or after its end, debug mode is not disabled while a reader is about to register, and no
call waits for a reader that debug mode holds or is about to hold. -/
namespace Dominion.Desktop.App

open Dominion.Framework

/-! ## The condition -/

/-- The reader has read the flag as on and goes on to register its hold. -/
def Reader.registering (rd : Reader) : Bool :=
  match rd.stage with
  | .registering _ => true
  | _ => false

/-- The operations whose results the reader has yet to hold or to send. -/
def Reader.pending (rd : Reader) : List String :=
  match rd.stage with
  | .executed toolID => toolID :: rd.operations
  | .registering toolID => toolID :: rd.operations
  | .holding _ => rd.operations
  | .sending _ => rd.operations
  | .attempting _ => rd.operations
  | _ => []

/-- The hold has timed out or been shut down, and its entry is still to be deleted. -/
def Hold.Expired (h : Hold) : Prop :=
  h.closings = 0 ∧ h.phase ≠ .waiting ∧ h.phase ≠ .finished

/-- A release finds the hold in its select, with no other arm ready. -/
def State.Releasable (s : State) (h : Hold) : Prop :=
  ¬h.Expired ∧ (s.shutdown = true → ¬h.Blocked)

/-- Debug mode holds the reader or is about to. -/
def State.Detained (s : State) (rd : Reader) : Prop :=
  rd.registering = true ∨ (s.debugEnabled = true ∧ rd.pending ≠ []) ∨
    ∃ h ∈ s.holds, h.Blocked ∧ s.readers[h.reader]? = some rd

/-- The tool is of no operation that another reader still works on. -/
def State.Unused (s : State) (r : Nat) (toolID : String) : Prop :=
  (∀ e ∈ s.readers.zipIdx, e.2 ≠ r → toolID ∉ e.1.pending) ∧
    ∀ h ∈ s.holds, h.phase ≠ .finished → h.toolID = toolID → h.reader = r

instance (h : Hold) : Decidable h.Expired :=
  inferInstanceAs (Decidable (_ ∧ _))

instance (s : State) (h : Hold) : Decidable (s.Releasable h) :=
  inferInstanceAs (Decidable (_ ∧ _))

instance (s : State) (rd : Reader) : Decidable (s.Detained rd) :=
  inferInstanceAs (Decidable (_ ∨ _))

instance (s : State) (r : Nat) (toolID : String) : Decidable (s.Unused r toolID) :=
  inferInstanceAs (Decidable (_ ∧ _))

/-- Debug mode is enabled while no call waits for a reader with operations left, and it is disabled
while no reader registers; holds are confirmed and released outside of their time-outs, which come
before the releases; the shutdown finds no hold that has been released and not noticed it; a frame
has no operation for a reader that a call waits for in debug mode, and none of a tool that another
reader works on; a call begins to wait while debug mode does not detain the reader. -/
def Unraced (s : State) : Label → Prop
  | .setDebugMode true => ∀ call ∈ s.calls, ∀ rd ∈ s.readers, call.Awaits rd → rd.pending = []
  | .releaseAllHolds => (s.debugEnabled = false → ∀ rd ∈ s.readers, rd.registering = false) ∧
      ∀ h ∈ s.holds, s.Releasable h
  | .confirmToolResult toolID => ∀ h ∈ s.holds, h.toolID = toolID → s.Releasable h
  | .shutdown => ∀ h ∈ s.holds, h.phase = .waiting → h.closings = 0
  | .hold i (.wake .timeout) => ∀ h ∈ s.holds[i]?, h.closings = 0
  | .reader r (.frame operations) => (∀ toolID ∈ operations, s.Unused r toolID) ∧
      (s.debugEnabled = true → ∀ rd ∈ s.readers[r]?, ∀ call ∈ s.calls, call.Awaits rd →
        operations = [])
  | .call _ .capture => ∀ rd ∈ s.readers, s.recvDone ≠ none → rd.done = s.recvDone →
      ¬s.Detained rd
  | _ => True

instance (s : State) : (l : Label) → Decidable (Unraced s l)
  | .setDebugMode true => inferInstanceAs (Decidable
      (∀ call ∈ s.calls, ∀ rd ∈ s.readers, call.Awaits rd → rd.pending = []))
  | .releaseAllHolds => inferInstanceAs (Decidable
      ((s.debugEnabled = false → ∀ rd ∈ s.readers, rd.registering = false) ∧
        ∀ h ∈ s.holds, s.Releasable h))
  | .confirmToolResult toolID =>
    inferInstanceAs (Decidable (∀ h ∈ s.holds, h.toolID = toolID → s.Releasable h))
  | .shutdown => inferInstanceAs (Decidable (∀ h ∈ s.holds, h.phase = .waiting → h.closings = 0))
  | .hold i (.wake .timeout) => inferInstanceAs (Decidable (∀ h ∈ s.holds[i]?, h.closings = 0))
  | .reader r (.frame operations) => inferInstanceAs (Decidable
      ((∀ toolID ∈ operations, s.Unused r toolID) ∧
        (s.debugEnabled = true → ∀ rd ∈ s.readers[r]?, ∀ call ∈ s.calls, call.Awaits rd →
          operations = [])))
  | .call _ .capture => inferInstanceAs (Decidable
      (∀ rd ∈ s.readers, s.recvDone ≠ none → rd.done = s.recvDone → ¬s.Detained rd))
  | .setDebugMode false | .connect _ _ | .closeAgent
  | .hold _ (.wake .confirmCh) | .hold _ (.wake .shutdown) | .hold _ .readReason | .hold _ .report
  | .hold _ .drop | .reader _ .start | .reader _ .receive | .reader _ .recvError
  | .reader _ .loadDebug | .reader _ .register | .reader _ .checkBridge | .reader _ (.send _)
  | .call _ .check | .call _ (.close _) | .call _ .wait | .call _ (.openStream _)
  | .call _ (.firstStatus _) | .call _ .store | .call _ .renew | .call _ .spawn | .call _ .clear =>
    inferInstanceAs (Decidable True)

/-! ## What the readers and the calls know -/

/-- No reader registers once debug mode was disabled, no hold is released under a shutdown, no call
waits for a reader that is about to be held, and no two readers work on one tool. -/
structure Spaced (s : State) : Prop where
  disabled : s.disabled = true → s.debugEnabled = false ∧
    ∀ (r : Nat) (rd : Reader), s.readers[r]? = some rd → rd.registering = false
  shutdown : s.shutdown = true → ∀ h ∈ s.holds, h.phase = .waiting → h.closings = 0
  awaited : ∀ call ∈ s.calls, ∀ (r : Nat) (rd : Reader), s.readers[r]? = some rd →
    call.Awaits rd → rd.registering = false ∧ (s.debugEnabled = true → rd.pending = [])
  tools : ∀ (r r' : Nat) (rd rd' : Reader), s.readers[r]? = some rd → s.readers[r']? = some rd' →
    ∀ t ∈ rd.pending, t ∈ rd'.pending → r = r'
  holders : ∀ (r : Nat) (rd : Reader), s.readers[r]? = some rd → ∀ t ∈ rd.pending,
    ∀ h ∈ s.holds, h.phase ≠ .finished → h.toolID = t → h.reader = r

/-- The reader is no nearer to a hold than it was. -/
def Reader.Follows (rd' rd : Reader) : Prop :=
  rd'.done = rd.done ∧ (rd'.registering = true → rd.registering = true) ∧
    ∀ t ∈ rd'.pending, t ∈ rd.pending

/-- The reader has no operation at hand. -/
def Reader.Free (rd : Reader) : Prop :=
  rd.registering = false ∧ rd.pending = []

/-- The same hold later on. -/
def Hold.Continues (h' h : Hold) : Prop :=
  h'.reader = h.reader ∧ h'.toolID = h.toolID ∧ (h'.phase ≠ .finished → h.phase ≠ .finished)

section steps

variable {s s' : State} {i r c : Nat} {h h' : Hold} {rd rd' : Reader} {call call' : Call}

private theorem Reader.Follows.refl (rd : Reader) : rd.Follows rd :=
  ⟨rfl,id,fun _ ht => ht⟩

private theorem Reader.follows (hdone : rd'.done = rd.done) (hregistering : rd'.registering = false)
    (hpending : ∀ t ∈ rd'.pending, t ∈ rd.pending) : rd'.Follows rd := by
  refine ⟨hdone,fun hr => ?_,hpending⟩
  rw [hregistering] at hr
  cases hr

private theorem Hold.Continues.refl (h : Hold) : h.Continues h :=
  ⟨rfl,rfl,id⟩

private theorem spaced_init : Spaced {} where
  disabled hd := by cases hd
  shutdown hs := by cases hs
  awaited call hcall := by cases hcall
  tools r r' rd rd' hrd := by simp at hrd
  holders r rd hrd := by simp at hrd

/-- The steps that bring no reader nearer to a hold and start no hold and no waiting. -/
theorem Spaced.frame (hs : Spaced s) (hdebug : s'.debugEnabled = s.debugEnabled)
    (hdisabled : s'.disabled = s.disabled)
    (hholds : ∀ h' ∈ s'.holds, ∃ h ∈ s.holds, h'.Continues h)
    (hshutdown : s'.shutdown = true → ∀ h ∈ s'.holds, h.phase = .waiting → h.closings = 0)
    (hreaders : ∀ (r : Nat) (rd' : Reader), s'.readers[r]? = some rd' →
      rd'.Free ∨ ∃ rd, s.readers[r]? = some rd ∧ rd'.Follows rd)
    (hcalls : ∀ call ∈ s'.calls, call.awaited = none ∨ call ∈ s.calls) : Spaced s' where
  disabled hd := by
    obtain ⟨hoff,hnone⟩ := hs.disabled (hdisabled ▸ hd)
    refine ⟨hdebug.trans hoff,fun r rd' hrd' => ?_⟩
    rcases hreaders r rd' hrd' with hfree | ⟨rd,hrd,_,hregistering,_⟩
    · exact hfree.1
    · exact Bool.eq_false_iff.mpr fun hr => Bool.eq_false_iff.mp (hnone r rd hrd) (hregistering hr)
  shutdown := hshutdown
  awaited call hcall r rd' hrd' haw := by
    rcases hreaders r rd' hrd' with hfree | ⟨rd,hrd,hdone,hregistering,hpending⟩
    · exact ⟨hfree.1,fun _ => hfree.2⟩
    · rcases hcalls call hcall with hnone | hold
      · exact absurd hnone haw.1
      · obtain ⟨hno,hleft⟩ := hs.awaited call hold r rd hrd ⟨haw.1,haw.2.trans hdone⟩
        refine ⟨Bool.eq_false_iff.mpr fun hr => Bool.eq_false_iff.mp hno (hregistering hr),?_⟩
        intro hon
        apply List.eq_nil_iff_forall_not_mem.mpr
        intro t ht
        have hmem := hpending t ht
        rw [hleft (hdebug ▸ hon)] at hmem
        cases hmem
  tools r r' rd' rd₁' hrd' hrd₁' t ht ht₁ := by
    rcases hreaders r rd' hrd' with hfree | ⟨rd,hrd,_,_,hpending⟩
    · rw [hfree.2] at ht
      cases ht
    · rcases hreaders r' rd₁' hrd₁' with hfree | ⟨rd₁,hrd₁,_,_,hpending₁⟩
      · rw [hfree.2] at ht₁
        cases ht₁
      · exact hs.tools r r' rd rd₁ hrd hrd₁ t (hpending t ht) (hpending₁ t ht₁)
  holders r rd' hrd' t ht h' hh' hlive htool := by
    rcases hreaders r rd' hrd' with hfree | ⟨rd,hrd,_,_,hpending⟩
    · rw [hfree.2] at ht
      cases ht
    · obtain ⟨h,hh,hreader,htool',hphase⟩ := hholds h' hh'
      rw [hreader]
      exact hs.holders r rd hrd t (hpending t ht) h hh (hphase hlive) (htool'.symm.trans htool)

private theorem readers_same (hreaders : s'.readers = s.readers) (r : Nat) (rd' : Reader)
    (hrd' : s'.readers[r]? = some rd') :
    rd'.Free ∨ ∃ rd, s.readers[r]? = some rd ∧ rd'.Follows rd :=
  .inr ⟨rd',hreaders ▸ hrd',.refl rd'⟩

private theorem readers_set (hr : s.readers[r]? = some rd) (hrd' : rd'.Free ∨ rd'.Follows rd)
    (hreaders : s'.readers = s.readers.set r rd') (r₁ : Nat) (rd₁ : Reader)
    (hrd₁ : s'.readers[r₁]? = some rd₁) :
    rd₁.Free ∨ ∃ rd, s.readers[r₁]? = some rd ∧ rd₁.Follows rd := by
  rw [hreaders] at hrd₁
  rcases getElem?_set_cases hrd₁ with ⟨rfl,rfl⟩ | ⟨_,hold⟩
  · rcases hrd' with hfree | hfollows
    · exact .inl hfree
    · exact .inr ⟨rd,hr,hfollows⟩
  · exact .inr ⟨rd₁,hold,.refl rd₁⟩

private theorem Spaced.setReader (hs : Spaced s) (hr : s.readers[r]? = some rd)
    (hrd' : rd'.Free ∨ rd'.Follows rd) : Spaced (s.setReader r rd') :=
  hs.frame rfl rfl (fun h hh => ⟨h,hh,.refl h⟩) hs.shutdown (readers_set hr hrd' rfl)
    fun _ hcall => .inr hcall

private theorem free_exited (rd : Reader) : ({ rd with stage := .exited } : Reader).Free :=
  ⟨rfl,rfl⟩

private theorem Spaced.exit (hs : Spaced s) (hr : s.readers[r]? = some rd) :
    Spaced (s.exit r rd) := by
  obtain ⟨hholds,-,hdisabled,hcalls,hreaders⟩ := exit_frame s r rd
  have hflags : (s.exit r rd).debugEnabled = s.debugEnabled ∧
      (s.exit r rd).shutdown = s.shutdown := by
    unfold State.exit
    cases rd.done <;> exact ⟨rfl,rfl⟩
  apply hs.frame hflags.1 hdisabled
  · intro h hh
    exact ⟨h,hholds ▸ hh,.refl h⟩
  · intro hdown h hh
    exact hs.shutdown (hflags.2 ▸ hdown) h (hholds ▸ hh)
  · exact readers_set hr (.inl (free_exited rd)) hreaders
  · exact fun call hcall => .inr (hcalls ▸ hcall)

private theorem Spaced.crash (hs : Spaced s) : Spaced s.crash :=
  ⟨hs.disabled,hs.shutdown,hs.awaited,hs.tools,hs.holders⟩

/-- A reader comes nearer to a hold while no call waits for it, or gets operations that no other
reader works on. -/
theorem Spaced.advance (hs : Spaced s) (hr : s.readers[r]? = some rd)
    (hregistering : rd'.registering = true → s.disabled = false)
    (hawaited : ∀ call ∈ s.calls, call.Awaits rd' →
      rd'.registering = false ∧ (s.debugEnabled = true → rd'.pending = []))
    (hpending : ∀ t ∈ rd'.pending, t ∈ rd.pending ∨ s.Unused r t) :
    Spaced (s.setReader r rd') := by
  have hlt := (List.getElem?_eq_some_iff.mp hr).1
  -- What the reader works on, no other reader does.
  have hown : ∀ t ∈ rd'.pending, ∀ (r₁ : Nat) (rd₁ : Reader), s.readers[r₁]? = some rd₁ →
      t ∈ rd₁.pending → r₁ = r := by
    intro t ht r₁ rd₁ hrd₁ ht₁
    rcases hpending t ht with hold | hunused
    · exact hs.tools r₁ r rd₁ rd hrd₁ hr t ht₁ hold
    · by_contra hne
      exact hunused.1 (rd₁,r₁) (List.mem_zipIdx_iff_getElem?.mpr hrd₁) hne ht₁
  constructor
  · intro hd
    obtain ⟨hoff,hnone⟩ := hs.disabled hd
    refine ⟨hoff,fun r₁ rd₁ hrd₁ => ?_⟩
    rcases getElem?_set_cases hrd₁ with ⟨rfl,rfl⟩ | ⟨_,hold⟩
    · refine Bool.eq_false_iff.mpr fun hregisters => ?_
      have hopen := hregistering hregisters
      rw [show s.disabled = true from hd] at hopen
      cases hopen
    · exact hnone r₁ rd₁ hold
  · exact hs.shutdown
  · intro call hcall r₁ rd₁ hrd₁ haw
    rcases getElem?_set_cases hrd₁ with ⟨rfl,rfl⟩ | ⟨_,hold⟩
    · exact hawaited call hcall haw
    · exact hs.awaited call hcall r₁ rd₁ hold haw
  · intro r₁ r₂ rd₁ rd₂ hrd₁ hrd₂ t ht₁ ht₂
    rcases getElem?_set_cases hrd₁ with ⟨rfl,rfl⟩ | ⟨_,hold₁⟩
    · rcases getElem?_set_cases hrd₂ with ⟨rfl,rfl⟩ | ⟨_,hold₂⟩
      · rfl
      · exact (hown t ht₁ r₂ rd₂ hold₂ ht₂).symm
    · rcases getElem?_set_cases hrd₂ with ⟨rfl,rfl⟩ | ⟨_,hold₂⟩
      · exact hown t ht₂ r₁ rd₁ hold₁ ht₁
      · exact hs.tools r₁ r₂ rd₁ rd₂ hold₁ hold₂ t ht₁ ht₂
  · intro r₁ rd₁ hrd₁ t ht h hh hlive htool
    rcases getElem?_set_cases hrd₁ with ⟨rfl,rfl⟩ | ⟨_,hold⟩
    · rcases hpending t ht with hold | hunused
      · exact hs.holders r₁ rd hr t hold h hh hlive htool
      · exact hunused.2 h hh hlive htool
    · exact hs.holders r₁ rd₁ hold t ht h hh hlive htool

/-! ## Steps of holds -/

private theorem continues_of_set (hi : s.holds[i]? = some h) (hnew : h'.Continues h)
    (hholds : s'.holds = s.holds.set i h') : ∀ k' ∈ s'.holds, ∃ k ∈ s.holds, k'.Continues k := by
  intro k' hk'
  rw [hholds] at hk'
  rcases List.mem_or_eq_of_mem_set hk' with hmem | rfl
  · exact ⟨k',hmem,.refl k'⟩
  · exact ⟨h,List.mem_of_getElem? hi,hnew⟩

private theorem shutdown_of_set (hs : Spaced s) (hshutdown : s'.shutdown = s.shutdown)
    (hphase : h'.phase ≠ .waiting) (hholds : s'.holds = s.holds.set i h') :
    s'.shutdown = true → ∀ k ∈ s'.holds, k.phase = .waiting → k.closings = 0 := by
  intro hdown k hk hwaiting
  rw [hholds] at hk
  rcases List.mem_or_eq_of_mem_set hk with hmem | rfl
  · exact hs.shutdown (hshutdown ▸ hdown) k hmem hwaiting
  · exact absurd hwaiting hphase

private theorem Spaced.setHold (hs : Spaced s) (hi : s.holds[i]? = some h) (hnew : h'.Continues h)
    (hphase : h'.phase ≠ .waiting) : Spaced (s.setHold i h') :=
  hs.frame rfl rfl (continues_of_set hi hnew rfl) (shutdown_of_set hs rfl hphase rfl)
    (readers_same rfl) fun _ hcall => .inr hcall

private theorem Spaced.dropHold (hs : Spaced s) (hi : s.holds[i]? = some h)
    (hphase : h.phase = .dropping) : Spaced (s.dropHold i h) := by
  have hnew : ({ h with phase := .finished } : Hold).Continues h := by
    refine ⟨rfl,rfl,fun _ => ?_⟩
    rw [hphase]
    decide
  have hover : ({ h with phase := .finished } : Hold).phase ≠ .waiting := by simp
  refine hs.frame rfl rfl (continues_of_set hi hnew rfl) (shutdown_of_set hs rfl hover rfl) ?_
    fun _ hcall => .inr hcall
  intro r rd' hrd'
  have hmodify : (s.readers.modify h.reader fun rd =>
      if rd.stage = .holding i then { rd with stage := .sending h.toolID } else rd)[r]? = some rd' :=
    hrd'
  rw [List.getElem?_modify] at hmodify
  split at hmodify
  · obtain ⟨rd,hrd,hrd'⟩ := Option.map_eq_some_iff.mp hmodify
    refine .inr ⟨rd,hrd,?_⟩
    split at hrd'
    · rename_i hstage
      cases hrd'
      refine Reader.follows rfl rfl fun t ht => ?_
      rw [Reader.pending,hstage]
      exact ht
    · cases hrd'
      exact .refl _
  · obtain ⟨rd,hrd,rfl⟩ := Option.map_eq_some_iff.mp hmodify
    exact .inr ⟨_,hrd,.refl _⟩

private theorem spaced_holdStep {a : HoldStep} (hs : Spaced s) (hi : s.holds[i]? = some h)
    (hstep : s.holdStep i h a = some s') : Spaced s' := by
  have hlive : ∀ phase : Phase, h.phase = phase → phase ≠ .finished → ∀ h' : Hold,
      h'.reader = h.reader → h'.toolID = h.toolID → h'.Continues h := by
    intro phase hphase hne h' hreader htool
    exact ⟨hreader,htool,fun _ => hphase ▸ hne⟩
  cases holdMove hstep with
  | notified hphase _ =>
    exact hs.setHold hi (hlive _ hphase (by simp) _ rfl rfl) (by simp)
  | timeout hphase =>
    exact hs.setHold hi (hlive _ hphase (by simp) _ rfl rfl) (by simp)
  | shutdown hphase _ =>
    exact hs.setHold hi (hlive _ hphase (by simp) _ rfl rfl) (by simp)
  | readReason hphase =>
    exact hs.setHold hi (hlive _ hphase (by simp) _ rfl rfl) (by simp)
  | report reason hphase =>
    exact hs.setHold hi (hlive _ hphase (by simp) _ rfl rfl) (by simp)
  | drop hphase => exact hs.dropHold hi hphase

/-! ## Steps of readers -/

private theorem follows_advance {toolID : String} (hstage : rd.stage = .attempting toolID) :
    rd.advance.Follows rd := by
  have hpending : rd.pending = rd.operations := by rw [Reader.pending,hstage]
  unfold Reader.advance
  split
  · exact Reader.follows rfl rfl nofun
  · rename_i t rest hoperations
    refine Reader.follows rfl rfl fun u hu => ?_
    rw [hpending,hoperations]
    exact hu

private theorem pending_advance (rd : Reader) (operations : List String) :
    ({ rd with operations := operations } : Reader).advance.pending = operations ∧
      ({ rd with operations := operations } : Reader).advance.registering = false ∧
      ({ rd with operations := operations } : Reader).advance.done = rd.done := by
  unfold Reader.advance
  cases operations with
  | nil => exact ⟨rfl,rfl,rfl⟩
  | cons t rest => exact ⟨rfl,rfl,rfl⟩

private theorem Spaced.loadDebug {toolID : String} (hs : Spaced s) (hr : s.readers[r]? = some rd)
    (hstage : rd.stage = .executed toolID) : Spaced (s.setReader r { rd with
      stage := if s.debugEnabled then .registering toolID else .sending toolID }) := by
  have hpending : rd.pending = toolID :: rd.operations := by rw [Reader.pending,hstage]
  cases hon : s.debugEnabled with
  | false =>
    refine hs.setReader hr (.inr (Reader.follows rfl rfl fun t ht => ?_))
    rw [hpending]
    exact List.mem_cons_of_mem _ ht
  | true =>
    apply hs.advance hr
    · intro _
      cases hd : s.disabled with
      | false => rfl
      | true =>
        rw [(hs.disabled hd).1] at hon
        cases hon
    · intro call hcall haw
      -- A call waits only for readers without operations.
      have hnone := (hs.awaited call hcall r rd hr haw).2 hon
      rw [hpending] at hnone
      cases hnone
    · intro t ht
      rw [hpending]
      exact .inl ht

private theorem Spaced.register {toolID : String} (hs : Spaced s) (hr : s.readers[r]? = some rd)
    (hstage : rd.stage = .registering toolID) : Spaced (s.register r rd toolID) := by
  have hpending : rd.pending = toolID :: rd.operations := by rw [Reader.pending,hstage]
  have hset : Spaced (s.setReader r { rd with stage := .holding s.holds.length }) := by
    refine hs.setReader hr (.inr (Reader.follows rfl rfl fun t ht => ?_))
    rw [hpending]
    exact List.mem_cons_of_mem _ ht
  refine ⟨hset.disabled,fun hdown h hh hwaiting => ?_,hset.awaited,hset.tools,?_⟩
  · rcases List.mem_append.mp hh with hold | hlast
    · exact hset.shutdown hdown h hold hwaiting
    · rw [List.mem_singleton.mp hlast]
  · intro r₁ rd₁ hrd₁ t ht h hh hlive htool
    rcases List.mem_append.mp hh with hold | hlast
    · exact hset.holders r₁ rd₁ hrd₁ t ht h hold hlive htool
    · rw [List.mem_singleton.mp hlast] at htool ⊢
      have htool : toolID = t := htool
      have hmem : t ∈ rd.pending := by simp [hpending,htool]
      rcases getElem?_set_cases hrd₁ with ⟨rfl,rfl⟩ | ⟨_,hold₁⟩
      · rfl
      · exact hs.tools r r₁ rd rd₁ hr hold₁ t hmem ht

private theorem Spaced.receiveFrame {operations : List String} (hs : Spaced s)
    (hr : s.readers[r]? = some rd) (hu : Unraced s (.reader r (.frame operations))) :
    Spaced (s.setReader r { rd with operations := operations }.advance) := by
  obtain ⟨hunused,hawaited⟩ := hu
  obtain ⟨hpending,hregistering,hdone⟩ := pending_advance rd operations
  apply hs.advance hr
  · intro hregisters
    rw [hregistering] at hregisters
    cases hregisters
  · intro call hcall haw
    refine ⟨hregistering,fun hon => ?_⟩
    rw [hpending]
    exact hawaited hon rd hr call hcall ⟨haw.1,haw.2.trans hdone⟩
  · intro t ht
    rw [hpending] at ht
    exact .inr (hunused t ht)

private theorem spaced_readerStep {a : ReaderStep} (hs : Spaced s) (hr : s.readers[r]? = some rd)
    (hu : Unraced s (.reader r a)) (hstep : s.readerStep r rd a = some s') : Spaced s' := by
  cases readerMove hstep with
  | start hstage => exact hs.setReader hr (.inl ⟨rfl,rfl⟩)
  | receive hstage _ _ => exact hs.setReader hr (.inl ⟨rfl,rfl⟩)
  | closed hstage _ _ => exact hs.exit hr
  | frame operations hstage => exact hs.receiveFrame hr hu
  | recvError hstage => exact hs.exit hr
  | loadDebug hstage => exact hs.loadDebug hr hstage
  | register hstage => exact hs.register hr hstage
  | disconnected hstage _ => exact hs.exit hr
  | checkBridge hstage _ =>
    refine hs.setReader hr (.inr (Reader.follows rfl rfl fun t ht => ?_))
    rw [Reader.pending,hstage]
    exact ht
  | sent hstage _ => exact hs.setReader hr (.inr (follows_advance hstage))
  | retry _ _ => exact hs
  | failed hstage _ => exact hs.exit hr
  | crash _ _ => exact hs.crash

/-! ## Steps of calls -/

private theorem Spaced.ofCalls (hs : Spaced s) (hdebug : s'.debugEnabled = s.debugEnabled)
    (hdisabled : s'.disabled = s.disabled) (hshutdown : s'.shutdown = s.shutdown)
    (hholds : s'.holds = s.holds)
    (hreaders : ∀ (r : Nat) (rd : Reader), s'.readers[r]? = some rd → rd.Free ∨
      s.readers[r]? = some rd)
    (hcalls : ∀ call ∈ s'.calls, call.awaited = none ∨ call ∈ s.calls) : Spaced s' := by
  apply hs.frame hdebug hdisabled _ _ _ hcalls
  · intro h hh
    exact ⟨h,hholds ▸ hh,.refl h⟩
  · intro hdown h hh
    exact hs.shutdown (hshutdown ▸ hdown) h (hholds ▸ hh)
  · intro r rd hrd
    exact (hreaders r rd hrd).imp_right fun hold => ⟨rd,hold,.refl rd⟩

private theorem Spaced.setCall (hs : Spaced s) (hcall : call'.awaited = none)
    (hdebug : s'.debugEnabled = s.debugEnabled) (hdisabled : s'.disabled = s.disabled)
    (hshutdown : s'.shutdown = s.shutdown) (hholds : s'.holds = s.holds)
    (hreaders : ∀ (r : Nat) (rd : Reader), s'.readers[r]? = some rd → rd.Free ∨
      s.readers[r]? = some rd)
    (hcalls : s'.calls = s.calls.set c call') : Spaced s' := by
  apply hs.ofCalls hdebug hdisabled hshutdown hholds hreaders
  intro k hk
  rw [hcalls] at hk
  rcases List.mem_or_eq_of_mem_set hk with hk | rfl
  · exact .inr hk
  · exact .inl hcall

private theorem Spaced.capture {ch : Nat} (hs : Spaced s) (hdone : s.recvDone = some ch)
    (hu : Unraced s (.call c .capture)) :
    Spaced (s.setCall c { call with stage := .waiting ch }) := by
  refine ⟨hs.disabled,hs.shutdown,fun k hk r rd hrd haw => ?_,hs.tools,hs.holders⟩
  rcases List.mem_or_eq_of_mem_set hk with hold | rfl
  · exact hs.awaited k hold r rd hrd haw
  · have hsame : rd.done = s.recvDone := haw.2.symm.trans hdone.symm
    have hfree := hu rd (List.mem_of_getElem? hrd) (by simp [hdone]) hsame
    constructor
    · exact Bool.eq_false_iff.mpr fun hregisters => hfree (.inl hregisters)
    · intro hon
      by_contra hne
      exact hfree (.inr (.inl ⟨hon,hne⟩))

private theorem spaced_callStep {a : CallStep} (hs : Spaced s) (hu : Unraced s (.call c a))
    (hstep : s.callStep c call a = some s') : Spaced s' := by
  cases callMove hstep with
  | unconnected _ _ =>
    exact hs.setCall (awaited_ite rfl rfl) rfl rfl rfl rfl (fun _ _ hr => .inr hr) rfl
  | check _ _ => exact hs.setCall rfl rfl rfl rfl rfl (fun _ _ hr => .inr hr) rfl
  | crash _ _ _ => exact hs.crash
  | close _ _ _ =>
    exact hs.setCall (awaited_ite rfl rfl) rfl rfl rfl rfl (fun _ _ hr => .inr hr) rfl
  | unread _ _ =>
    exact hs.setCall (awaited_handedOver call) rfl rfl rfl rfl (fun _ _ hr => .inr hr) rfl
  | capture hstage hdone => exact hs.capture hdone hu
  | wait _ _ =>
    exact hs.setCall (awaited_handedOver call) rfl rfl rfl rfl (fun _ _ hr => .inr hr) rfl
  | openStream _ _ =>
    exact hs.setCall (awaited_ite rfl rfl) rfl rfl rfl rfl (fun _ _ hr => .inr hr) rfl
  | firstStatus _ => exact hs.setCall rfl rfl rfl rfl rfl (fun _ _ hr => .inr hr) rfl
  | unconfirmed _ => exact hs.setCall rfl rfl rfl rfl rfl (fun _ _ hr => .inr hr) rfl
  | store _ => exact hs.setCall rfl rfl rfl rfl rfl (fun _ _ hr => .inr hr) rfl
  | renew _ => exact hs.setCall rfl rfl rfl rfl rfl (fun _ _ hr => .inr hr) rfl
  | spawn _ =>
    refine hs.setCall rfl rfl rfl rfl rfl (fun r rd hr => ?_) rfl
    rcases getElem?_concat_cases hr with ⟨_,rfl⟩ | hold
    · exact .inl ⟨rfl,rfl⟩
    · exact .inr hold
  | clear _ => exact hs.setCall rfl rfl rfl rfl rfl (fun _ _ hr => .inr hr) rfl

/-! ## Steps of debug mode -/

private theorem Spaced.setDebugMode {enabled : Bool} (hs : Spaced s)
    (hu : Unraced s (.setDebugMode enabled)) : Spaced (s.setDebugMode enabled) := by
  cases enabled with
  | true =>
    refine ⟨nofun,hs.shutdown,fun call hcall r rd hrd haw => ?_,hs.tools,hs.holders⟩
    exact ⟨(hs.awaited call hcall r rd hrd haw).1,
      fun _ => hu call hcall rd (List.mem_of_getElem? hrd) haw⟩
  | false =>
    refine ⟨fun hd => ⟨rfl,(hs.disabled hd).2⟩,hs.shutdown,fun call hcall r rd hrd haw => ?_,
      hs.tools,hs.holders⟩
    exact ⟨(hs.awaited call hcall r rd hrd haw).1,nofun⟩

/-- An entry of the map that can be released is in its select, with no shutdown. -/
theorem HoldsInv.releasable (hinv : HoldsInv s) (hi : s.holds[i]? = some h)
    (hheld : s.held h.toolID = some i) (hr : s.Releasable h) :
    h.phase = .waiting ∧ s.shutdown = false := by
  obtain ⟨h₀,hh₀,-,hzero,hlive⟩ := hinv.entries _ i hheld
  rw [hi] at hh₀
  cases hh₀
  have hwaiting : h.phase = .waiting := by
    by_contra hne
    exact hr.1 ⟨hzero,hne,hlive⟩
  refine ⟨hwaiting,Bool.eq_false_iff.mpr fun hdown => ?_⟩
  exact hr.2 hdown ⟨hwaiting,hzero⟩

private theorem continues_close (reason : Reason) : (h.close reason).Continues h :=
  ⟨rfl,rfl,id⟩

private theorem Spaced.confirm {toolID : String} (hs : Spaced s) (hinv : HoldsInv s)
    (hu : Unraced s (.confirmToolResult toolID)) : Spaced (s.confirmToolResult toolID) := by
  unfold State.confirmToolResult
  cases hheld : s.held toolID with
  | none => exact hs
  | some i =>
    obtain ⟨h,hh,htool,-⟩ := hinv.entries toolID i hheld
    have hr := hu h (List.mem_of_getElem? hh) htool
    have hup := (hinv.releasable hh (htool ▸ hheld) hr).2
    refine hs.frame rfl rfl (fun k' hk' => ?_) (fun hdown => ?_) (readers_same rfl)
      fun _ hcall => .inr hcall
    · obtain ⟨j,hj⟩ := List.mem_iff_getElem?.mp hk'
      dsimp only at hj
      rw [List.getElem?_modify] at hj
      obtain ⟨k,hk,he⟩ := Option.map_eq_some_iff.mp hj
      refine ⟨k,List.mem_of_getElem? hk,?_⟩
      split at he
      · exact he ▸ continues_close .confirmed
      · exact he ▸ .refl k
    · rw [show s.shutdown = true from hdown] at hup
      cases hup

private theorem Spaced.releaseAll (hs : Spaced s) (hinv : HoldsInv s)
    (hu : Unraced s .releaseAllHolds) (hstep : s.releaseAllHolds = some s') : Spaced s' := by
  obtain ⟨-,rfl⟩ := of_guard hstep
  obtain ⟨hnone,hr⟩ := hu
  have hmem : ∀ k' ∈ s.holds.mapIdx fun i h =>
      if s.held h.toolID = some i then h.close .debugOff else h,
      ∃ i h, s.holds[i]? = some h ∧ (k' = h ∨ s.held h.toolID = some i ∧ k' = h.close .debugOff) := by
    intro k' hk'
    obtain ⟨i,hi⟩ := List.mem_iff_getElem?.mp hk'
    rw [List.getElem?_mapIdx] at hi
    obtain ⟨h,hh,he⟩ := Option.map_eq_some_iff.mp hi
    refine ⟨i,h,hh,?_⟩
    split at he
    · rename_i hheld
      exact .inr ⟨hheld,he.symm⟩
    · exact .inl he.symm
  refine ⟨fun hd => ?_,fun hdown k' hk' hwaiting => ?_,hs.awaited,hs.tools,?_⟩
  · have hoff : s.debugEnabled = false := by simpa using hd
    exact ⟨hoff,fun r rd hrd => hnone hoff rd (List.mem_of_getElem? hrd)⟩
  · obtain ⟨i,h,hh,rfl | ⟨hheld,rfl⟩⟩ := hmem k' hk'
    · exact hs.shutdown hdown k' (List.mem_of_getElem? hh) hwaiting
    · have hup := (hinv.releasable hh hheld (hr h (List.mem_of_getElem? hh))).2
      rw [show s.shutdown = true from hdown] at hup
      cases hup
  · intro r rd hrd t ht k' hk' hlive htool
    obtain ⟨i,h,hh,rfl | ⟨hheld,rfl⟩⟩ := hmem k' hk'
    · exact hs.holders r rd hrd t ht k' (List.mem_of_getElem? hh) hlive htool
    · exact hs.holders r rd hrd t ht h (List.mem_of_getElem? hh) hlive htool

private theorem spaced_step {l : Label} (hs : Spaced s) (hinv : HoldsInv s) (hu : Unraced s l)
    (hstep : s.step l = some s') : Spaced s' := by
  cases l with
  | setDebugMode enabled =>
    cases hstep
    exact hs.setDebugMode hu
  | releaseAllHolds => exact hs.releaseAll hinv hu hstep
  | confirmToolResult toolID =>
    cases hstep
    exact hs.confirm hinv hu
  | shutdown =>
    cases hstep
    exact ⟨hs.disabled,fun _ => hu,hs.awaited,hs.tools,hs.holders⟩
  | hold i a =>
    obtain ⟨h,hi,hstep⟩ := Option.bind_eq_some_iff.mp hstep
    exact spaced_holdStep hs hi hstep
  | reader r a =>
    obtain ⟨rd,hr,hstep⟩ := Option.bind_eq_some_iff.mp hstep
    exact spaced_readerStep hs hr hu hstep
  | connect template sessionID =>
    cases hstep
    refine hs.ofCalls rfl rfl rfl rfl (fun _ _ hr => .inr hr) fun k hk => ?_
    rcases List.mem_append.mp hk with hold | hlast
    · exact .inr hold
    · rw [List.mem_singleton.mp hlast]
      exact .inl (awaited_ite rfl rfl)
  | closeAgent =>
    cases hstep
    refine hs.ofCalls rfl rfl rfl rfl (fun _ _ hr => .inr hr) fun k hk => ?_
    rcases List.mem_append.mp hk with hold | hlast
    · exact .inr hold
    · rw [List.mem_singleton.mp hlast]
      exact .inl rfl
  | call c a =>
    obtain ⟨call,-,hstep⟩ := Option.bind_eq_some_iff.mp hstep
    exact spaced_callStep hs hu hstep

/-- What the calls leave apart, the steps of the holds keep in order. -/
theorem orderly_of_unraced {l : Label} (hs : Spaced s) (hinv : HoldsInv s) (hu : Unraced s l)
    (hstep : s.step l = some s') : Orderly s l := by
  unfold Orderly
  split
  · obtain ⟨rd,hr,hreader⟩ := Option.bind_eq_some_iff.mp hstep
    cases readerMove hreader with
    | @register toolID hstage =>
      have hregisters : rd.registering = true := by rw [Reader.registering,hstage]
      have hmem : toolID ∈ rd.pending := by simp [Reader.pending,hstage]
      constructor
      · refine Bool.eq_false_iff.mpr fun hd => ?_
        rw [(hs.disabled hd).2 _ rd hr] at hregisters
        cases hregisters
      · intro rd' hr'
        cases hr.symm.trans hr'
        constructor
        · intro h hh hlive hsame
          obtain ⟨i,hi⟩ := List.mem_iff_getElem?.mp hh
          -- The hold of the tool is this reader's, which is not held.
          have htool : h.toolID = toolID := by
            rw [hstage] at hsame
            cases hsame
            rfl
          have hreader := hs.holders _ rd hr toolID hmem h hh hlive htool
          obtain ⟨rd₁,hrd₁,hholding⟩ := hinv.reader i h hi hlive
          rw [hreader,hr] at hrd₁
          cases hrd₁
          rw [hstage] at hholding
          cases hholding
        · intro call hcall haw
          rw [(hs.awaited call hcall _ rd hr haw).1] at hregisters
          cases hregisters
    | crash _ hstage =>
      rcases hstage with hstage | ⟨_,hstage⟩
      · simp [State.readerStep,hstage] at hreader
      · simp [State.readerStep,hstage] at hreader
  · exact hu
  · obtain ⟨h,hi,hhold⟩ := Option.bind_eq_some_iff.mp hstep
    cases holdMove hhold with
    | shutdown hphase hdown =>
      intro h' hi'
      cases hi.symm.trans hi'
      exact hs.shutdown hdown h (List.mem_of_getElem? hi) hphase
  · intro i hheld h hh
    obtain ⟨h₀,hh₀,htool,-⟩ := hinv.entries _ i hheld
    cases hh₀.symm.trans hh
    exact (hinv.releasable hh₀ (htool ▸ hheld) (hu h (List.mem_of_getElem? hh₀) htool)).1
  · intro e he hheld
    have hi : s.holds[e.2]? = some e.1 := List.mem_zipIdx_iff_getElem?.mp he
    exact (hinv.releasable hi hheld (hu.2 e.1 (List.mem_of_getElem? hi))).1
  · intro h hh hb rd hrd hdone hsame
    exact hu rd (List.mem_of_getElem? hrd) hdone hsame (.inr (.inr ⟨h,hh,hb,hrd⟩))
  · trivial

end steps

/-! ## Runs -/

/-- The calls that do not race leave the holds in order. -/
theorem reachUnder_orderly {s : State} (h : app.ReachUnder Unraced s) :
    app.ReachUnder Orderly s ∧ Spaced s := by
  induction h with
  | @init s hs =>
    have he : s = {} := hs
    rw [he]
    exact ⟨.init rfl,spaced_init⟩
  | @step s s' l _ hu hstep ih =>
    obtain ⟨hreach,hs⟩ := ih
    have hinv := holdsInv_inductive.of_reachUnder hreach
    have hrun : (if s.crashed then none else s.step l) = some s' := hstep
    split at hrun
    · cases hrun
    · exact ⟨.step hreach (orderly_of_unraced hs hinv hu hrun) hstep,spaced_step hs hinv hu hrun⟩

/-- Every held result is released once, by one cause, which is the reason that is reported, and can
be released while it is held; no channel is closed twice; no result is held after debug mode was
disabled; and no call waits for a reader that is held. -/
structure HoldsEnd (s : State) : Prop where
  unreleased : ∀ h ∈ s.holds, h.Blocked → h.causes = [] ∧ h.reported = []
  released : ∀ h ∈ s.holds, ¬h.Blocked →
    ∃ reason, h.causes = [reason] ∧ (h.reported = [] ∨ h.reported = [reason])
  reported : ∀ h ∈ s.holds, h.phase = .finished → h.reported = h.causes
  wakes : s.crashed = false → ∀ i, ∀ h ∈ s.holds[i]?, h.phase = .waiting →
    ∃ arm s', Unraced s (.hold i (.wake arm)) ∧ app.step s (.hold i (.wake arm)) = some s'
  closings : ∀ h ∈ s.holds, h.closings ≤ 1
  disabled : s.disabled = true → ∀ h ∈ s.holds, ¬h.Blocked
  awaited : ∀ h ∈ s.holds, h.Blocked → ∀ rd ∈ s.readers[h.reader]?, ∀ call ∈ s.calls,
    ¬call.Awaits rd

private theorem Hold.Consistent.released {h : Hold} (hc : h.Consistent) (hb : ¬h.Blocked) :
    ∃ reason, h.causes = [reason] ∧ (h.reported = [] ∨ h.reported = [reason]) := by
  obtain ⟨-,hrecord⟩ := hc
  cases hphase : h.phase with
  | waiting =>
    rw [hphase] at hrecord
    obtain ⟨hreported,⟨hzero,-⟩ | ⟨-,hcauses⟩⟩ := hrecord
    · exact absurd ⟨hphase,hzero⟩ hb
    · exact ⟨_,hcauses,.inl hreported⟩
  | notified =>
    rw [hphase] at hrecord
    exact ⟨_,hrecord.2,.inl hrecord.1⟩
  | releasing reason =>
    rw [hphase] at hrecord
    exact ⟨_,hrecord.2,.inl hrecord.1⟩
  | dropping =>
    rw [hphase] at hrecord
    obtain ⟨reason,hcauses,hreported⟩ := hrecord
    exact ⟨reason,hcauses,.inr hreported⟩
  | finished =>
    rw [hphase] at hrecord
    obtain ⟨reason,hcauses,hreported⟩ := hrecord
    exact ⟨reason,hcauses,.inr hreported⟩

private theorem HoldsInv.end {s : State} (hinv : HoldsInv s) : HoldsEnd s where
  unreleased h hh hb := by
    obtain ⟨i,hi⟩ := List.mem_iff_getElem?.mp hh
    have hrecord := (hinv.consistent i h hi).2
    rw [hb.1] at hrecord
    obtain ⟨hreported,⟨-,hcauses⟩ | ⟨hone,-⟩⟩ := hrecord
    · exact ⟨hcauses,hreported⟩
    · exact absurd (hb.2.symm.trans hone) (by decide)
  released h hh hb := by
    obtain ⟨i,hi⟩ := List.mem_iff_getElem?.mp hh
    exact (hinv.consistent i h hi).released hb
  reported h hh hphase := by
    obtain ⟨i,hi⟩ := List.mem_iff_getElem?.mp hh
    have hrecord := (hinv.consistent i h hi).2
    rw [hphase] at hrecord
    obtain ⟨reason,hcauses,hreported⟩ := hrecord
    rw [hcauses,hreported]
  wakes hcrash i h hi hphase := by
    have hholds : s.holds[i]? = some h := hi
    by_cases hclosed : 0 < h.closings
    · have hguard : h.phase = .waiting ∧ 0 < h.closings := ⟨hphase,hclosed⟩
      refine ⟨.confirmCh,s.setHold i { h with phase := .notified },trivial,?_⟩
      simp only [app,hcrash,State.step,hholds,Option.bind_some,State.holdStep]
      exact if_pos hguard
    · refine ⟨.timeout,s.setHold i { h with
        phase := .releasing .timeout, causes := h.causes ++ [.timeout] },?_,?_⟩
      · intro k hk
        rw [hholds] at hk
        cases hk
        omega
      · simp only [app,hcrash,State.step,hholds,Option.bind_some,State.holdStep]
        exact if_pos hphase
  closings h hh := by
    obtain ⟨i,hi⟩ := List.mem_iff_getElem?.mp hh
    exact (hinv.consistent i h hi).1
  disabled hd h hh := by
    obtain ⟨i,hi⟩ := List.mem_iff_getElem?.mp hh
    exact hinv.disabled hd i h hi
  awaited h hh hb rd hrd := by
    obtain ⟨i,hi⟩ := List.mem_iff_getElem?.mp hh
    exact hinv.awaited i h hi hb rd hrd

/-- Debug holds end well in every run whose calls do not race with them. -/
theorem debug_holds_end {s : State} (h : app.ReachUnder Unraced s) : HoldsEnd s :=
  (holdsInv_inductive.of_reachUnder (reachUnder_orderly h).1).end

/-- A result is held, confirmed and sent. -/
theorem debug_holds_end_demo : ∃ s, HoldsEnd s ∧
    s.holds.map Hold.reported = [[.confirmed]] ∧ s.readers.map Reader.stage = [.sending "op1"] := by
  have hrun : (app.runUnder (fun s l => decide (Unraced s l)) {}
      (executedRun ++ [.reader 0 .register,.confirmToolResult "op1",.hold 0 (.wake .confirmCh),
        .hold 0 .readReason,.hold 0 .report,.hold 0 .drop])).any (fun s =>
          decide (s.holds.map Hold.reported = [[.confirmed]] ∧
            s.readers.map Reader.stage = [.sending "op1"])) = true := by
    decide
  obtain ⟨s,hreach,hs⟩ := Lts.reachUnder_of_runUnder_any
    (fun s l hc => of_decide_eq_true hc) _ (.init rfl) hrun
  exact ⟨s,debug_holds_end hreach,of_decide_eq_true hs⟩

/-- A hold is registered after debug mode was disabled, a hold that has timed out is confirmed, and
a reconnect waits for a reader that is held. -/
theorem holds_outlive_debug_mode :
    (∃ s, app.Reach s ∧ s.disabled = true ∧ ∃ h ∈ s.holds, h.Blocked) ∧
    (∃ s, app.Reach s ∧ ∃ h ∈ s.holds, h.causes = [.timeout,.confirmed]) ∧
    ∃ s, app.Reach s ∧ ∃ h ∈ s.holds, h.Blocked ∧ ∃ rd ∈ s.readers[h.reader]?,
      ∃ call ∈ s.calls, call.Awaits rd := by
  have hinit : app.Reach {} := .init rfl
  refine ⟨?_,?_,?_⟩
  · have hrun : (app.run {} (executedRun ++ [.setDebugMode false,.releaseAllHolds,
        .reader 0 .register])).any (fun s =>
          decide (s.disabled = true ∧ ∃ h ∈ s.holds, h.Blocked)) = true := by
      decide
    obtain ⟨s,hreach,hs⟩ := Lts.reach_of_run_any _ hinit hrun
    exact ⟨s,hreach,of_decide_eq_true hs⟩
  · have hrun : (app.run {} (executedRun ++ [.reader 0 .register,.hold 0 (.wake .timeout),
        .confirmToolResult "op1"])).any (fun s =>
          decide (∃ h ∈ s.holds, h.causes = [.timeout,.confirmed])) = true := by
      decide
    obtain ⟨s,hreach,hs⟩ := Lts.reach_of_run_any _ hinit hrun
    exact ⟨s,hreach,of_decide_eq_true hs⟩
  · have hrun : (app.run {} (executedRun ++ [.reader 0 .register,.connect "saolei" "s1",
        .call 1 .check,.call 1 (.close true),.call 1 .capture])).any (fun s =>
          decide (∃ h ∈ s.holds, h.Blocked ∧ ∃ rd ∈ s.readers[h.reader]?,
            ∃ call ∈ s.calls, call.Awaits rd)) = true := by
      decide
    obtain ⟨s,hreach,hs⟩ := Lts.reach_of_run_any _ hinit hrun
    exact ⟨s,hreach,of_decide_eq_true hs⟩

end Dominion.Desktop.App
