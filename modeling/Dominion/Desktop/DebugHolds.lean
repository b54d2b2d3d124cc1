import Dominion.Desktop.App

/-! # Holds of debug mode

In the runs that keep releases, time-outs and hand-overs apart, every held result is released once,
none is held after debug mode was disabled, and nothing waits for a reader that is held. -/
namespace Dominion.Desktop.App

open Dominion.Framework

/-! ## Orderly steps -/

/-- The channel that the call waits for. -/
def Call.awaited (call : Call) : Option Nat :=
  match call.stage with
  | .waiting ch => some ch
  | _ => none

/-- The call waits for the reader to exit. -/
def Call.Awaits (call : Call) (rd : Reader) : Prop :=
  call.awaited ≠ none ∧ call.awaited = rd.done

instance (call : Call) (rd : Reader) : Decidable (call.Awaits rd) :=
  inferInstanceAs (Decidable (_ ∧ _))

/-- A hold is registered before debug mode was disabled, while no other hold of the tool is left and
no call waits for its reader; a time-out or a shutdown comes before a release, and a release before
them; a call waits only for a reader that is not held. -/
def Orderly (s : State) : Label → Prop
  | .reader r .register => s.disabled = false ∧ ∀ rd ∈ s.readers[r]?,
      (∀ h ∈ s.holds, h.phase ≠ .finished → rd.stage ≠ .registering h.toolID) ∧
        ∀ call ∈ s.calls, ¬call.Awaits rd
  | .hold i (.wake .timeout) => ∀ h ∈ s.holds[i]?, h.closings = 0
  | .hold i (.wake .shutdown) => ∀ h ∈ s.holds[i]?, h.closings = 0
  | .confirmToolResult toolID => ∀ i ∈ s.held toolID, ∀ h ∈ s.holds[i]?, h.phase = .waiting
  | .releaseAllHolds => ∀ e ∈ s.holds.zipIdx, s.held e.1.toolID = some e.2 → e.1.phase = .waiting
  | .call _ .capture => ∀ h ∈ s.holds, h.Blocked → ∀ rd ∈ s.readers[h.reader]?,
      s.recvDone ≠ none → rd.done ≠ s.recvDone
  | _ => True

instance (s : State) (l : Label) : Decidable (Orderly s l) := by
  unfold Orderly
  split <;> infer_instance

/-! ## The invariant -/

/-- What the record of a hold is in each of its phases. -/
def Hold.Consistent (h : Hold) : Prop :=
  h.closings ≤ 1 ∧
    match h.phase with
    | .waiting => h.reported = [] ∧
        (h.closings = 0 ∧ h.causes = [] ∨ h.closings = 1 ∧ h.causes = [h.releaseReason])
    | .notified => h.reported = [] ∧ h.causes = [h.releaseReason]
    | .releasing reason => h.reported = [] ∧ h.causes = [reason]
    | .dropping => ∃ reason, h.causes = [reason] ∧ h.reported = [reason]
    | .finished => ∃ reason, h.causes = [reason] ∧ h.reported = [reason]

structure HoldsInv (s : State) : Prop where
  consistent : ∀ (i : Nat) (h : Hold), s.holds[i]? = some h → h.Consistent
  listed : ∀ (i : Nat) (h : Hold), s.holds[i]? = some h → h.Blocked → s.held h.toolID = some i
  entries : ∀ (t : String) (i : Nat), s.held t = some i →
    ∃ h, s.holds[i]? = some h ∧ h.toolID = t ∧ h.closings = 0 ∧ h.phase ≠ .finished
  apart : ∀ (i j : Nat) (h h' : Hold), s.holds[i]? = some h → s.holds[j]? = some h' →
    h.phase ≠ .finished → h'.phase ≠ .finished → h.toolID = h'.toolID → i = j
  disabled : s.disabled = true → ∀ (i : Nat) (h : Hold), s.holds[i]? = some h → ¬h.Blocked
  reader : ∀ (i : Nat) (h : Hold), s.holds[i]? = some h → h.phase ≠ .finished →
    ∃ rd, s.readers[h.reader]? = some rd ∧ rd.stage = .holding i
  awaited : ∀ (i : Nat) (h : Hold), s.holds[i]? = some h → h.Blocked → ∀ rd : Reader,
    s.readers[h.reader]? = some rd → ∀ call ∈ s.calls, ¬call.Awaits rd

section steps

variable {s s' : State} {i r c : Nat} {h h' : Hold} {rd rd' : Reader} {call call' : Call}

private theorem holdsInv_init : HoldsInv {} where
  consistent i h hh := by simp at hh
  listed i h hh := by simp at hh
  entries t i ht := by cases ht
  apart i j h h' hh := by simp at hh
  disabled hd := by cases hd
  reader i h hh := by simp at hh
  awaited i h hh := by simp at hh

/-- The steps that leave the holds and their readers alone. -/
theorem HoldsInv.frame (hinv : HoldsInv s) (hholds : s'.holds = s.holds) (hheld : s'.held = s.held)
    (hdisabled : s'.disabled = true → s.disabled = true)
    (hreaders : ∀ (r : Nat) (rd : Reader) (i : Nat), s.readers[r]? = some rd →
      rd.stage = .holding i → s'.readers[r]? = some rd)
    (hcalls : ∀ call ∈ s'.calls, ∀ (i : Nat) (h : Hold), s.holds[i]? = some h → h.Blocked →
      ∀ rd : Reader, s.readers[h.reader]? = some rd → ¬call.Awaits rd) : HoldsInv s' where
  consistent i h hh := hinv.consistent i h (hholds ▸ hh)
  listed i h hh hb := by
    rw [hheld]
    exact hinv.listed i h (hholds ▸ hh) hb
  entries t i ht := by
    rw [hholds]
    exact hinv.entries t i (hheld ▸ ht)
  apart i j h h' hh hh' := hinv.apart i j h h' (hholds ▸ hh) (hholds ▸ hh')
  disabled hd i h hh := hinv.disabled (hdisabled hd) i h (hholds ▸ hh)
  reader i h hh hp := by
    obtain ⟨rd,hrd,hstage⟩ := hinv.reader i h (hholds ▸ hh) hp
    exact ⟨rd,hreaders _ _ _ hrd hstage,hstage⟩
  awaited i h hh hb rd hrd call hcall := by
    rw [hholds] at hh
    have hp : h.phase ≠ .finished := by
      rw [hb.1]
      decide
    obtain ⟨rd₀,hrd₀,hstage⟩ := hinv.reader i h hh hp
    have hsame : rd = rd₀ := by
      rw [hreaders _ _ _ hrd₀ hstage] at hrd
      exact (Option.some.inj hrd).symm
    rw [hsame]
    exact hcalls call hcall i h hh hb rd₀ hrd₀

private theorem getElem?_setReader_of_holding {r' i : Nat} {rd₁ : Reader}
    (hr : s.readers[r]? = some rd)
    (hstage : ∀ i, rd.stage ≠ .holding i) (h₁ : s.readers[r']? = some rd₁)
    (hi : rd₁.stage = .holding i) : (s.readers.set r rd')[r']? = some rd₁ := by
  have hne : r ≠ r' := by
    rintro rfl
    rw [hr] at h₁
    cases h₁
    exact hstage i hi
  rw [List.getElem?_set_ne hne,h₁]

/-- A reader that is not held goes on. -/
theorem HoldsInv.ofReader (hinv : HoldsInv s) (hr : s.readers[r]? = some rd)
    (hstage : ∀ i, rd.stage ≠ .holding i) (hholds : s'.holds = s.holds) (hheld : s'.held = s.held)
    (hdisabled : s'.disabled = s.disabled) (hcalls : s'.calls = s.calls)
    (hreaders : s'.readers = s.readers.set r rd') : HoldsInv s' := by
  apply hinv.frame hholds hheld (fun hd => hdisabled ▸ hd)
  · intro r' rd₁ i h₁ hi
    rw [hreaders]
    exact getElem?_setReader_of_holding hr hstage h₁ hi
  · intro call hcall i h hh hb rd₁ hrd₁
    rw [hcalls] at hcall
    exact hinv.awaited i h hh hb rd₁ hrd₁ call hcall

/-- A call goes on, without waiting or for a reader that is not held. -/
theorem HoldsInv.ofCall (hinv : HoldsInv s) (hholds : s'.holds = s.holds) (hheld : s'.held = s.held)
    (hdisabled : s'.disabled = s.disabled)
    (hreaders : ∀ (r : Nat) (rd : Reader), s.readers[r]? = some rd → s'.readers[r]? = some rd)
    (hcalls : ∀ call ∈ s'.calls, call ∈ s.calls ∨ call.awaited = none ∨
      ∀ (i : Nat) (h : Hold), s.holds[i]? = some h → h.Blocked → ∀ rd : Reader,
        s.readers[h.reader]? = some rd → ¬call.Awaits rd) : HoldsInv s' := by
  apply hinv.frame hholds hheld (fun hd => hdisabled ▸ hd)
  · intro r' rd₁ i h₁ _
    exact hreaders r' rd₁ h₁
  · intro call hcall i h hh hb rd₁ hrd₁
    rcases hcalls call hcall with hold | hnone | hapart
    · exact hinv.awaited i h hh hb rd₁ hrd₁ call hold
    · exact fun haw => haw.1 hnone
    · exact hapart i h hh hb rd₁ hrd₁

theorem getElem?_set_cases {α : Type} {l : List α} {i j : Nat} {x y : α}
    (h : (l.set i x)[j]? = some y) : j = i ∧ y = x ∨ j ≠ i ∧ l[j]? = some y := by
  by_cases hij : i = j
  · subst hij
    rw [List.getElem?_set_self'] at h
    obtain ⟨_,-,he⟩ := Option.map_eq_some_iff.mp h
    exact .inl ⟨rfl,he.symm⟩
  · rw [List.getElem?_set_ne hij] at h
    exact .inr ⟨Ne.symm hij,h⟩

theorem getElem?_concat_cases {α : Type} {l : List α} {i : Nat} {x y : α}
    (h : (l ++ [x])[i]? = some y) : i = l.length ∧ y = x ∨ l[i]? = some y := by
  rcases Nat.lt_trichotomy i l.length with hi | hi | hi
  · exact .inr ((List.getElem?_append_left hi).symm.trans h)
  · rw [hi,List.getElem?_concat_length] at h
    exact .inl ⟨hi,(Option.some.inj h).symm⟩
  · rw [List.getElem?_eq_none (by simp; omega)] at h
    cases h

/-- A hold goes on, as the same hold. -/
theorem HoldsInv.setHold (hinv : HoldsInv s) (hi : s.holds[i]? = some h)
    (hreader : h'.reader = h.reader) (htool : h'.toolID = h.toolID)
    (hclosings : h'.closings = h.closings) (hold : h.phase ≠ .finished)
    (hnew : h'.phase ≠ .finished)
    (hblocked : ¬h'.Blocked) (hconsistent : h'.Consistent) : HoldsInv (s.setHold i h') := by
  have hcases : ∀ (j : Nat) (k : Hold), (s.setHold i h').holds[j]? = some k →
      ∃ k₀, s.holds[j]? = some k₀ ∧ k.reader = k₀.reader ∧ k.toolID = k₀.toolID ∧
        (k.phase ≠ .finished → k₀.phase ≠ .finished) ∧ (k.Blocked → k = k₀) ∧
          (k₀.Consistent → k.Consistent) := by
    intro j k hk
    rcases getElem?_set_cases hk with ⟨rfl,rfl⟩ | ⟨-,hk⟩
    · exact ⟨h,hi,hreader,htool,fun _ => hold,fun hb => absurd hb hblocked,fun _ => hconsistent⟩
    · exact ⟨k,hk,rfl,rfl,id,fun _ => rfl,id⟩
  constructor
  · intro j k hk
    obtain ⟨k₀,hk₀,-,-,-,-,hc⟩ := hcases j k hk
    exact hc (hinv.consistent j k₀ hk₀)
  · intro j k hk hb
    obtain ⟨k₀,hk₀,-,-,-,he,-⟩ := hcases j k hk
    obtain rfl := he hb
    exact hinv.listed j k hk₀ hb
  · intro t j ht
    obtain ⟨k,hk,htk,hck,hpk⟩ := hinv.entries t j ht
    by_cases hj : i = j
    · subst hj
      rw [hi] at hk
      cases hk
      refine ⟨h',?_,htool.trans htk,hclosings.trans hck,hnew⟩
      exact List.getElem?_set_self (List.getElem?_eq_some_iff.mp hi).1
    · exact ⟨k,(List.getElem?_set_ne hj).trans hk,htk,hck,hpk⟩
  · intro j₁ j₂ k₁ k₂ hk₁ hk₂ hp₁ hp₂ ht
    obtain ⟨l₁,hl₁,-,ht₁,hq₁,-,-⟩ := hcases j₁ k₁ hk₁
    obtain ⟨l₂,hl₂,-,ht₂,hq₂,-,-⟩ := hcases j₂ k₂ hk₂
    exact hinv.apart j₁ j₂ l₁ l₂ hl₁ hl₂ (hq₁ hp₁) (hq₂ hp₂) (ht₁.symm.trans (ht.trans ht₂))
  · intro hd j k hk hb
    obtain ⟨k₀,hk₀,-,-,-,he,-⟩ := hcases j k hk
    obtain rfl := he hb
    exact hinv.disabled hd j k hk₀ hb
  · intro j k hk hp
    obtain ⟨k₀,hk₀,hr,-,hq,-,-⟩ := hcases j k hk
    rw [hr]
    exact hinv.reader j k₀ hk₀ (hq hp)
  · intro j k hk hb
    obtain ⟨k₀,hk₀,-,-,-,he,-⟩ := hcases j k hk
    obtain rfl := he hb
    exact hinv.awaited j k hk₀ hb

/-- The hold is over and its entry, if there is one, is deleted. -/
theorem HoldsInv.dropHold (hinv : HoldsInv s) (hi : s.holds[i]? = some h)
    (hphase : h.phase = .dropping) : HoldsInv (s.dropHold i h) := by
  have hlive : h.phase ≠ .finished := by
    rw [hphase]
    decide
  have hconsistent := hinv.consistent i h hi
  -- No other hold that is left has the tool or the reader of this one.
  have hother : ∀ (j : Nat) (k : Hold), (s.dropHold i h).holds[j]? = some k → k.phase ≠ .finished →
      s.holds[j]? = some k ∧ k.toolID ≠ h.toolID ∧ k.reader ≠ h.reader := by
    intro j k hk hp
    rcases getElem?_set_cases hk with ⟨rfl,rfl⟩ | ⟨hj,hk⟩
    · exact absurd rfl hp
    · refine ⟨hk,fun ht => hj (hinv.apart j i k h hk hi hp hlive ht),fun hr => ?_⟩
      obtain ⟨rd,hrd,hstage⟩ := hinv.reader j k hk hp
      obtain ⟨rd',hrd',hstage'⟩ := hinv.reader i h hi hlive
      rw [hr,hrd'] at hrd
      cases hrd
      rw [hstage] at hstage'
      cases hstage'
      exact hj rfl
  have hwaiting : ∀ k : Hold, k.Blocked → k.phase ≠ .finished := by
    intro k hb
    rw [hb.1]
    decide
  have hreaders : ∀ (j : Nat) (k : Hold), (s.dropHold i h).holds[j]? = some k →
      k.phase ≠ .finished →
      (s.dropHold i h).readers[k.reader]? = s.readers[k.reader]? := by
    intro j k hk hp
    exact List.getElem?_modify_ne _ _ (Ne.symm (hother j k hk hp).2.2)
  constructor
  · intro j k hk
    rcases getElem?_set_cases hk with ⟨rfl,rfl⟩ | ⟨-,hk⟩
    · refine ⟨hconsistent.1,?_⟩
      have hrecord := hconsistent.2
      rw [hphase] at hrecord
      exact hrecord
    · exact hinv.consistent j k hk
  · intro j k hk hb
    obtain ⟨hk,ht,-⟩ := hother j k hk (hwaiting k hb)
    exact (Function.update_of_ne ht _ _).trans (hinv.listed j k hk hb)
  · intro t j ht
    have hne : t ≠ h.toolID := by
      rintro rfl
      have hnone : (s.dropHold i h).held h.toolID = none := Function.update_self _ _ _
      rw [hnone] at ht
      cases ht
    obtain ⟨k,hk,htk,hrest⟩ := hinv.entries t j ((Function.update_of_ne hne _ _).symm.trans ht)
    have hij : i ≠ j := by
      rintro rfl
      rw [hi] at hk
      cases hk
      exact hne htk.symm
    exact ⟨k,(List.getElem?_set_ne hij).trans hk,htk,hrest⟩
  · intro j₁ j₂ k₁ k₂ hk₁ hk₂ hp₁ hp₂ ht
    exact hinv.apart j₁ j₂ k₁ k₂ (hother j₁ k₁ hk₁ hp₁).1 (hother j₂ k₂ hk₂ hp₂).1 hp₁ hp₂ ht
  · intro hd j k hk hb
    exact hinv.disabled hd j k (hother j k hk (hwaiting k hb)).1 hb
  · intro j k hk hp
    rw [hreaders j k hk hp]
    exact hinv.reader j k (hother j k hk hp).1 hp
  · intro j k hk hb rd hrd
    rw [hreaders j k hk (hwaiting k hb)] at hrd
    exact hinv.awaited j k (hother j k hk (hwaiting k hb)).1 hb rd hrd

/-- Entries of the map are closed and deleted. -/
theorem HoldsInv.release (hinv : HoldsInv s) (T : String → Prop) [DecidablePred T]
    (reason : Reason)
    (hholds : ∀ i : Nat, s'.holds[i]? = s.holds[i]?.map fun h =>
      if s.held h.toolID = some i ∧ T h.toolID then h.close reason else h)
    (hheld : ∀ t, s'.held t = if T t then none else s.held t)
    (hphase : ∀ (i : Nat) (h : Hold), s.holds[i]? = some h → s.held h.toolID = some i →
      T h.toolID → h.phase = .waiting)
    (hreaders : s'.readers = s.readers) (hcalls : s'.calls = s.calls)
    (hdisabled : s'.disabled = s.disabled ∨ ∀ t, T t) : HoldsInv s' := by
  have hcases : ∀ (i : Nat) (k : Hold), s'.holds[i]? = some k → ∃ h, s.holds[i]? = some h ∧
      (s.held h.toolID = some i ∧ T h.toolID ∧ k = h.close reason ∨
        ¬(s.held h.toolID = some i ∧ T h.toolID) ∧ k = h) := by
    intro i k hk
    rw [hholds] at hk
    obtain ⟨h,hh,he⟩ := Option.map_eq_some_iff.mp hk
    refine ⟨h,hh,?_⟩
    split at he
    · rename_i hclosed
      exact .inl ⟨hclosed.1,hclosed.2,he.symm⟩
    · rename_i hnot
      exact .inr ⟨hnot,he.symm⟩
  have hkept : ∀ (i : Nat) (k : Hold), s'.holds[i]? = some k → ∃ h, s.holds[i]? = some h ∧
      k.reader = h.reader ∧ k.toolID = h.toolID ∧ k.phase = h.phase := by
    intro i k hk
    obtain ⟨h,hh,⟨-,-,rfl⟩ | ⟨-,rfl⟩⟩ := hcases i k hk
    · exact ⟨h,hh,rfl,rfl,rfl⟩
    · exact ⟨k,hh,rfl,rfl,rfl⟩
  have hblocked : ∀ (i : Nat) (k : Hold), s'.holds[i]? = some k → k.Blocked →
      s.holds[i]? = some k ∧ ¬T k.toolID := by
    intro i k hk hb
    obtain ⟨h,hh,⟨-,-,rfl⟩ | ⟨hnot,rfl⟩⟩ := hcases i k hk
    · exact absurd hb.2 (Nat.succ_ne_zero _)
    · exact ⟨hh,fun ht => hnot ⟨hinv.listed i k hh hb,ht⟩⟩
  constructor
  · intro i k hk
    obtain ⟨h,hh,⟨hlisted,ht,rfl⟩ | ⟨-,rfl⟩⟩ := hcases i k hk
    · have hwaiting := hphase i h hh hlisted ht
      obtain ⟨h₀,hh₀,-,hzero,-⟩ := hinv.entries _ i hlisted
      rw [hh] at hh₀
      cases hh₀
      have hrecord := (hinv.consistent i h hh).2
      rw [hwaiting] at hrecord
      obtain ⟨hreported,⟨-,hcauses⟩ | ⟨hone,-⟩⟩ := hrecord
      · refine ⟨by simp [Hold.close,hzero],?_⟩
        have hphase' : (h.close reason).phase = .waiting := hwaiting
        rw [hphase']
        exact ⟨hreported,.inr ⟨by simp [Hold.close,hzero],by simp [Hold.close,hcauses]⟩⟩
      · omega
    · exact hinv.consistent i k hh
  · intro i k hk hb
    obtain ⟨hh,ht⟩ := hblocked i k hk hb
    rw [hheld,if_neg ht]
    exact hinv.listed i k hh hb
  · intro t i ht
    rw [hheld] at ht
    split at ht
    · cases ht
    · rename_i hT
      obtain ⟨h,hh,htool,hrest⟩ := hinv.entries t i ht
      refine ⟨h,?_,htool,hrest⟩
      rw [hholds,hh,Option.map_some,if_neg]
      rw [htool]
      exact fun hclosed => hT hclosed.2
  · intro i j k k' hk hk' hp hp' ht
    obtain ⟨h,hh,-,htool,hphase₁⟩ := hkept i k hk
    obtain ⟨h',hh',-,htool',hphase₂⟩ := hkept j k' hk'
    exact hinv.apart i j h h' hh hh' (hphase₁ ▸ hp) (hphase₂ ▸ hp')
      (htool.symm.trans (ht.trans htool'))
  · intro hd i k hk hb
    obtain ⟨hh,hT⟩ := hblocked i k hk hb
    rcases hdisabled with hsame | hall
    · exact hinv.disabled (hsame ▸ hd) i k hh hb
    · exact hT (hall _)
  · intro i k hk hp
    obtain ⟨h,hh,hreader,-,hphase₁⟩ := hkept i k hk
    rw [hreaders,hreader]
    exact hinv.reader i h hh (hphase₁ ▸ hp)
  · intro i k hk hb
    rw [hreaders,hcalls]
    exact hinv.awaited i k (hblocked i k hk hb).1 hb

/-- A hold is registered for a reader that nothing waits for, under a tool of no other hold. -/
theorem HoldsInv.register {toolID : String} (hinv : HoldsInv s) (hr : s.readers[r]? = some rd)
    (hstage : rd.stage = .registering toolID) (hdisabled : s.disabled = false)
    (hfree : ∀ (j : Nat) (k : Hold), s.holds[j]? = some k → k.phase ≠ .finished → k.toolID ≠ toolID)
    (hawaited : ∀ call ∈ s.calls, ¬call.Awaits rd) : HoldsInv (s.register r rd toolID) := by
  have hnew : (s.register r rd toolID).holds[s.holds.length]? =
      some { reader := r, toolID := toolID } :=
    List.getElem?_concat_length
  have hlt : ∀ (j : Nat) (k : Hold), s.holds[j]? = some k → j < s.holds.length :=
    fun j k hk => (List.getElem?_eq_some_iff.mp hk).1
  have hcases : ∀ (j : Nat) (k : Hold), (s.register r rd toolID).holds[j]? = some k →
      j = s.holds.length ∧ k = { reader := r, toolID := toolID } ∨ s.holds[j]? = some k :=
    fun j k hk => getElem?_concat_cases hk
  have hself : (s.register r rd toolID).readers[r]? =
      some { rd with stage := .holding s.holds.length } :=
    List.getElem?_set_self (List.getElem?_eq_some_iff.mp hr).1
  have hreaders : ∀ (r' : Nat) (rd₁ : Reader) (j : Nat), s.readers[r']? = some rd₁ →
      rd₁.stage = .holding j → (s.register r rd toolID).readers[r']? = some rd₁ := by
    intro r' rd₁ j h₁ hj
    apply getElem?_setReader_of_holding hr _ h₁ hj
    intro j hj
    rw [hstage] at hj
    cases hj
  constructor
  · intro j k hk
    rcases hcases j k hk with ⟨-,rfl⟩ | hk
    · exact ⟨Nat.zero_le 1,rfl,.inl ⟨rfl,rfl⟩⟩
    · exact hinv.consistent j k hk
  · intro j k hk hb
    rcases hcases j k hk with ⟨rfl,rfl⟩ | hk
    · exact Function.update_self _ _ _
    · have hne : k.toolID ≠ toolID := hfree j k hk (by rw [hb.1]; decide)
      exact (Function.update_of_ne hne _ _).trans (hinv.listed j k hk hb)
  · intro t j ht
    by_cases htool : t = toolID
    · subst htool
      have hheld : (s.register r rd t).held t = some s.holds.length := by simp [State.register]
      rw [hheld] at ht
      cases ht
      exact ⟨_,hnew,rfl,rfl,by simp⟩
    · obtain ⟨k,hk,hrest⟩ := hinv.entries t j ((Function.update_of_ne htool _ _).symm.trans ht)
      exact ⟨k,(List.getElem?_append_left (hlt j k hk)).trans hk,hrest⟩
  · intro j₁ j₂ k₁ k₂ hk₁ hk₂ hp₁ hp₂ ht
    rcases hcases j₁ k₁ hk₁ with ⟨rfl,rfl⟩ | hk₁
    · rcases hcases j₂ k₂ hk₂ with ⟨rfl,rfl⟩ | hk₂
      · rfl
      · exact absurd ht.symm (hfree j₂ k₂ hk₂ hp₂)
    · rcases hcases j₂ k₂ hk₂ with ⟨rfl,rfl⟩ | hk₂
      · exact absurd ht (hfree j₁ k₁ hk₁ hp₁)
      · exact hinv.apart j₁ j₂ k₁ k₂ hk₁ hk₂ hp₁ hp₂ ht
  · intro hd
    have hd' : s.disabled = true := hd
    rw [hdisabled] at hd'
    cases hd'
  · intro j k hk hp
    rcases hcases j k hk with ⟨rfl,rfl⟩ | hk
    · exact ⟨_,hself,rfl⟩
    · obtain ⟨rd₁,hrd₁,hstage₁⟩ := hinv.reader j k hk hp
      exact ⟨rd₁,hreaders _ _ _ hrd₁ hstage₁,hstage₁⟩
  · intro j k hk hb rd₁ hrd₁ call hcall
    rcases hcases j k hk with ⟨rfl,rfl⟩ | hk
    · rw [hself] at hrd₁
      cases hrd₁
      exact hawaited call hcall
    · have hp : k.phase ≠ .finished := by
        rw [hb.1]
        decide
      obtain ⟨rd₀,hrd₀,hstage₀⟩ := hinv.reader j k hk hp
      rw [hreaders _ _ _ hrd₀ hstage₀] at hrd₁
      cases hrd₁
      exact hinv.awaited j k hk hb rd₁ hrd₀ call hcall

private theorem holdsInv_holdStep {a : HoldStep} (hinv : HoldsInv s) (hi : s.holds[i]? = some h)
    (ho : Orderly s (.hold i a)) (hstep : s.holdStep i h a = some s') : HoldsInv s' := by
  have hconsistent := hinv.consistent i h hi
  have hclosings := hconsistent.1
  have hrecord := hconsistent.2
  cases holdMove hstep with
  | notified hphase hclosed =>
    rw [hphase] at hrecord
    have hlive : h.phase ≠ .finished := by simp [hphase]
    refine hinv.setHold hi rfl rfl rfl hlive (by simp) (fun hb => by cases hb.1) ?_
    rcases hrecord with ⟨hreported,⟨hzero,-⟩ | ⟨-,hcauses⟩⟩
    · omega
    · exact ⟨hclosings,hreported,hcauses⟩
  | timeout hphase =>
    have hzero : h.closings = 0 := ho h hi
    rw [hphase] at hrecord
    have hlive : h.phase ≠ .finished := by simp [hphase]
    refine hinv.setHold hi rfl rfl rfl hlive (by simp) (fun hb => by cases hb.1) ?_
    rcases hrecord with ⟨hreported,⟨-,hcauses⟩ | ⟨hone,-⟩⟩
    · exact ⟨hclosings,hreported,by simp [hcauses]⟩
    · omega
  | shutdown hphase _ =>
    have hzero : h.closings = 0 := ho h hi
    rw [hphase] at hrecord
    have hlive : h.phase ≠ .finished := by simp [hphase]
    refine hinv.setHold hi rfl rfl rfl hlive (by simp) (fun hb => by cases hb.1) ?_
    rcases hrecord with ⟨hreported,⟨-,hcauses⟩ | ⟨hone,-⟩⟩
    · exact ⟨hclosings,hreported,by simp [hcauses]⟩
    · omega
  | readReason hphase =>
    rw [hphase] at hrecord
    have hlive : h.phase ≠ .finished := by simp [hphase]
    exact hinv.setHold hi rfl rfl rfl hlive (by simp) (fun hb => by cases hb.1)
      ⟨hclosings,hrecord⟩
  | report reason hphase =>
    rw [hphase] at hrecord
    have hlive : h.phase ≠ .finished := by simp [hphase]
    refine hinv.setHold hi rfl rfl rfl hlive (by simp) (fun hb => by cases hb.1) ?_
    exact ⟨hclosings,reason,hrecord.2,by simp [hrecord.1]⟩
  | drop hphase => exact hinv.dropHold hi hphase

theorem exit_frame (s : State) (r : Nat) (rd : Reader) : (s.exit r rd).holds = s.holds ∧
    (s.exit r rd).held = s.held ∧ (s.exit r rd).disabled = s.disabled ∧
      (s.exit r rd).calls = s.calls ∧
        (s.exit r rd).readers = s.readers.set r { rd with stage := .exited } := by
  unfold State.exit
  cases rd.done <;> exact ⟨rfl,rfl,rfl,rfl,rfl⟩

private theorem HoldsInv.exit (hinv : HoldsInv s) (hr : s.readers[r]? = some rd)
    (hstage : ∀ i, rd.stage ≠ .holding i) : HoldsInv (s.exit r rd) := by
  obtain ⟨hholds,hheld,hdisabled,hcalls,hreaders⟩ := exit_frame s r rd
  exact hinv.ofReader hr hstage hholds hheld hdisabled hcalls hreaders

private theorem HoldsInv.setReader (hinv : HoldsInv s) (hr : s.readers[r]? = some rd)
    (hstage : ∀ i, rd.stage ≠ .holding i) (rd' : Reader) : HoldsInv (s.setReader r rd') :=
  hinv.ofReader hr hstage rfl rfl rfl rfl rfl

private theorem HoldsInv.crash (hinv : HoldsInv s) : HoldsInv s.crash :=
  hinv.frame rfl rfl id (fun _ _ _ hr _ => hr)
    fun call hcall i h hh hb rd hrd => hinv.awaited i h hh hb rd hrd call hcall

private theorem holdsInv_readerStep {a : ReaderStep} (hinv : HoldsInv s)
    (hr : s.readers[r]? = some rd)
    (ho : Orderly s (.reader r a)) (hstep : s.readerStep r rd a = some s') : HoldsInv s' := by
  cases readerMove hstep with
  | start hstage => exact hinv.setReader hr (by simp [hstage]) _
  | receive hstage _ _ => exact hinv.setReader hr (by simp [hstage]) _
  | closed hstage _ _ => exact hinv.exit hr (by simp [hstage])
  | frame operations hstage => exact hinv.setReader hr (by simp [hstage]) _
  | recvError hstage => exact hinv.exit hr (by simp [hstage])
  | loadDebug hstage => exact hinv.setReader hr (by simp [hstage]) _
  | register hstage =>
    obtain ⟨hdisabled,hreader⟩ := ho
    obtain ⟨hfree,hawaited⟩ := hreader rd hr
    apply hinv.register hr hstage hdisabled _ hawaited
    intro j k hk hp ht
    exact hfree k (List.mem_of_getElem? hk) hp (ht ▸ hstage)
  | disconnected hstage _ => exact hinv.exit hr (by simp [hstage])
  | checkBridge hstage _ => exact hinv.setReader hr (by simp [hstage]) _
  | sent hstage _ => exact hinv.setReader hr (by simp [hstage]) _
  | retry _ _ => exact hinv
  | failed hstage _ => exact hinv.exit hr (by simp [hstage])
  | crash _ _ => exact hinv.crash

/-- A call that goes on without waiting. -/
theorem HoldsInv.setCall (hinv : HoldsInv s) (hcall : call'.awaited = none)
    (hholds : s'.holds = s.holds) (hheld : s'.held = s.held) (hdisabled : s'.disabled = s.disabled)
    (hreaders : ∀ (r : Nat) (rd : Reader), s.readers[r]? = some rd → s'.readers[r]? = some rd)
    (hcalls : s'.calls = s.calls.set c call') : HoldsInv s' := by
  apply hinv.ofCall hholds hheld hdisabled hreaders
  intro k hk
  rw [hcalls] at hk
  rcases List.mem_or_eq_of_mem_set hk with hk | rfl
  · exact .inl hk
  · exact .inr (.inl hcall)

theorem awaited_handedOver (call : Call) : call.handedOver.awaited = none := by
  unfold Call.handedOver Call.awaited
  cases call.connects <;> rfl

theorem awaited_ite {p : Prop} [Decidable p] {a b : CallStage} {connects : Bool}
    {seen : Nat} (ha : Call.awaited ⟨connects,a,seen⟩ = none)
    (hb : Call.awaited ⟨connects,b,seen⟩ = none) :
    Call.awaited ⟨connects,if p then a else b,seen⟩ = none := by
  split
  · exact ha
  · exact hb

private theorem holdsInv_callStep {a : CallStep} (hinv : HoldsInv s) (ho : Orderly s (.call c a))
    (hstep : s.callStep c call a = some s') : HoldsInv s' := by
  cases callMove hstep with
  | unconnected _ _ =>
    exact hinv.setCall (awaited_ite rfl rfl) rfl rfl rfl (fun _ _ hr => hr) rfl
  | check _ _ => exact hinv.setCall rfl rfl rfl rfl (fun _ _ hr => hr) rfl
  | crash _ _ _ => exact hinv.crash
  | close _ _ _ => exact hinv.setCall (awaited_ite rfl rfl) rfl rfl rfl (fun _ _ hr => hr) rfl
  | unread _ _ => exact hinv.setCall (awaited_handedOver call) rfl rfl rfl (fun _ _ hr => hr) rfl
  | @capture ch hstage hdone =>
    refine hinv.ofCall rfl rfl rfl (fun _ _ hr => hr) ?_
    intro k hk
    rcases List.mem_or_eq_of_mem_set hk with hk | rfl
    · exact .inl hk
    · refine .inr (.inr fun i h hh hb rd hrd haw => ?_)
      have hne : s.recvDone ≠ none := by simp [hdone]
      have hapart := ho h (List.mem_of_getElem? hh) hb rd hrd hne
      exact hapart (haw.2.symm.trans hdone.symm)
  | wait _ _ => exact hinv.setCall (awaited_handedOver call) rfl rfl rfl (fun _ _ hr => hr) rfl
  | openStream _ _ =>
    exact hinv.setCall (awaited_ite rfl rfl) rfl rfl rfl (fun _ _ hr => hr) rfl
  | firstStatus _ => exact hinv.setCall rfl rfl rfl rfl (fun _ _ hr => hr) rfl
  | unconfirmed _ => exact hinv.setCall rfl rfl rfl rfl (fun _ _ hr => hr) rfl
  | store _ => exact hinv.setCall rfl rfl rfl rfl (fun _ _ hr => hr) rfl
  | renew _ => exact hinv.setCall rfl rfl rfl rfl (fun _ _ hr => hr) rfl
  | spawn _ =>
    refine hinv.setCall rfl rfl rfl rfl ?_ rfl
    intro r rd hr
    exact (List.getElem?_append_left (List.getElem?_eq_some_iff.mp hr).1).trans hr
  | clear _ => exact hinv.setCall rfl rfl rfl rfl (fun _ _ hr => hr) rfl

private theorem HoldsInv.addCall (hinv : HoldsInv s) (hcall : call'.awaited = none)
    (hcalls : s'.calls = s.calls ++ [call']) (hholds : s'.holds = s.holds)
    (hheld : s'.held = s.held) (hdisabled : s'.disabled = s.disabled)
    (hreaders : s'.readers = s.readers) : HoldsInv s' := by
  apply hinv.ofCall hholds hheld hdisabled fun r rd hr => hreaders ▸ hr
  intro k hk
  rw [hcalls] at hk
  rcases List.mem_append.mp hk with hk | hk
  · exact .inl hk
  · rw [List.mem_singleton.mp hk]
    exact .inr (.inl hcall)

private theorem HoldsInv.setDebugMode (hinv : HoldsInv s) (enabled : Bool) :
    HoldsInv (s.setDebugMode enabled) := by
  have hawaited : ∀ call ∈ s.calls, ∀ (i : Nat) (h : Hold), s.holds[i]? = some h → h.Blocked →
      ∀ rd : Reader, s.readers[h.reader]? = some rd → ¬call.Awaits rd :=
    fun call hcall i h hh hb rd hrd => hinv.awaited i h hh hb rd hrd call hcall
  cases enabled with
  | true => exact hinv.frame rfl rfl (fun hd => by cases hd) (fun _ _ _ hr _ => hr) hawaited
  | false => exact hinv.frame rfl rfl id (fun _ _ _ hr _ => hr) hawaited

private theorem HoldsInv.confirm {toolID : String} (hinv : HoldsInv s)
    (ho : Orderly s (.confirmToolResult toolID)) : HoldsInv (s.confirmToolResult toolID) := by
  unfold State.confirmToolResult
  cases hheld : s.held toolID with
  | none => exact hinv
  | some i =>
    obtain ⟨h,hh,htool,-⟩ := hinv.entries toolID i hheld
    have hwaiting : h.phase = .waiting := ho i hheld h hh
    refine hinv.release (· = toolID) .confirmed ?_ ?_ ?_ rfl rfl (.inl rfl)
    · intro j
      dsimp only
      rw [List.getElem?_modify]
      by_cases hij : i = j
      · subst hij
        rw [hh]
        simp [htool,hheld]
      · have hnot : ∀ k : Hold, ¬(s.held k.toolID = some j ∧ k.toolID = toolID) := by
          rintro k ⟨hk,ht⟩
          rw [ht,hheld] at hk
          exact hij (Option.some.inj hk)
        simp [hij,hnot]
    · intro t
      dsimp only
      by_cases ht : t = toolID
      · rw [if_pos ht,ht,Function.update_self]
      · rw [if_neg ht,Function.update_of_ne ht]
    · intro j k hk hj ht
      rw [ht,hheld] at hj
      cases hj
      rw [hh] at hk
      cases hk
      exact hwaiting

private theorem HoldsInv.releaseAll (hinv : HoldsInv s) (ho : Orderly s .releaseAllHolds)
    (hstep : s.releaseAllHolds = some s') : HoldsInv s' := by
  obtain ⟨-,rfl⟩ := of_guard hstep
  refine hinv.release (fun _ => True) .debugOff ?_ ?_ ?_ rfl rfl (.inr fun _ => trivial)
  · intro i
    simp
  · intro t
    simp
  · intro i h hh hheld _
    exact ho (h,i) (List.mem_zipIdx_iff_getElem?.mpr hh) hheld

/-- Every orderly step keeps the invariant. -/
theorem holdsInv_step {l : Label} (hinv : HoldsInv s) (ho : Orderly s l)
    (hstep : s.step l = some s') : HoldsInv s' := by
  cases l with
  | setDebugMode enabled =>
    cases hstep
    exact hinv.setDebugMode enabled
  | releaseAllHolds => exact hinv.releaseAll ho hstep
  | confirmToolResult toolID =>
    cases hstep
    exact hinv.confirm ho
  | shutdown =>
    cases hstep
    exact hinv.frame rfl rfl id (fun _ _ _ hr _ => hr)
      fun call hcall i h hh hb rd hrd => hinv.awaited i h hh hb rd hrd call hcall
  | hold i a =>
    obtain ⟨h,hi,hstep⟩ := Option.bind_eq_some_iff.mp hstep
    exact holdsInv_holdStep hinv hi ho hstep
  | reader r a =>
    obtain ⟨rd,hr,hstep⟩ := Option.bind_eq_some_iff.mp hstep
    exact holdsInv_readerStep hinv hr ho hstep
  | connect template sessionID =>
    cases hstep
    exact hinv.addCall (awaited_ite rfl rfl) rfl rfl rfl rfl rfl
  | closeAgent =>
    cases hstep
    exact hinv.addCall rfl rfl rfl rfl rfl rfl
  | call c a =>
    obtain ⟨call,-,hstep⟩ := Option.bind_eq_some_iff.mp hstep
    exact holdsInv_callStep hinv ho hstep

end steps

/-! ## Runs -/

theorem holdsInv_inductive : app.Inductive Orderly HoldsInv where
  init s hs := by
    have he : s = {} := hs
    rw [he]
    exact holdsInv_init
  step s l s' hinv ho hstep := by
    have hrun : (if s.crashed then none else s.step l) = some s' := hstep
    split at hrun
    · cases hrun
    · exact holdsInv_step hinv ho hrun

/-- A connection with an operation that has been executed in debug mode. -/
def executedRun : List Label :=
  [.connect "saolei" "s1",.call 0 .check,.call 0 (.openStream true),.call 0 (.firstStatus true),
    .call 0 .store,.call 0 .renew,.call 0 .spawn,.reader 0 .start,.reader 0 .receive,
    .reader 0 (.frame ["op1"]),.setDebugMode true,.reader 0 .loadDebug]

end Dominion.Desktop.App
