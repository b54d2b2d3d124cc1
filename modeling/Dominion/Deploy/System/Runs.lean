import Dominion.Deploy.System.Sound

/-! # Runs of the service

What holds in every run, and in the runs that make no update of a given kind. -/
namespace Dominion.Deploy

open Dominion.Framework Dominion.Deploy.Domain World

/-- A tick only moves work between timers and queue. -/
theorem World.tick_frame {w w' : World} {e : Tick} (h : w.tick e = some w') :
    ∃ q timers, w' = { w with queue := q, timers := timers } := by
  cases e with
  | send n =>
    obtain ⟨q,-,rfl⟩ := Option.map_eq_some_iff.mp h
    exact ⟨q,w.timers,rfl⟩
  | fire item =>
    simp only [tick] at h
    split at h
    · cases h
      exact ⟨_,_,rfl⟩
    · cases h
  | recover n =>
    cases h
    exact ⟨_,w.timers,rfl⟩

namespace Service

variable {maxRetries : Nat} {s s' : Service} {l : Label} {t : Tid} {c : Choice} {op : Call}

/-- In every run the invariant holds and every thread stands at a node of its outline. -/
theorem outlined_of_reach (h : (system maxRetries).Reach s) : protocol.Outlined post s :=
  Protocol.outlined_of_reach (sound maxRetries) h

theorem inv_of_reach (h : (system maxRetries).Reach s) : s.world.Inv :=
  (outlined_of_reach h).1

/-- A step of a run changes the world by nothing, by one call under its contract, or by a tick. -/
theorem step_cases (h : (system maxRetries).Reach s)
    (hstep : (system maxRetries).step s l = some s') :
    (((∃ t r, l = .start t r) ∨ ∃ t, l = .drop t) ∧ s'.world = s.world) ∨
    (∃ t c op a, l = .call t c ∧ s.next t = some op ∧ contract t op s.world ∧
      s.world.exec t op c = some (a,s'.world)) ∨
    ∃ e, l = .tick e ∧ s.world.tick e = some s'.world :=
  (outlined_of_reach h).step_cases hstep

/-- Whether a step is a call that takes effect and that `p` picks out. -/
def makes (p : World → Tid → Call → Bool) (s : Service) (l : Label) : Bool :=
  match l with
  | .call t c => c.takesEffect && (s.next t).any (p s.world t)
  | _ => false

/-- The runs none of whose steps makes a call that `p` picks out. -/
def Without (p : World → Tid → Call → Bool) (s : Service) (l : Label) : Prop :=
  s.makes p l = false

variable {p : World → Tid → Call → Bool}

/-- A call of a run without `p` changes nothing, or is not picked out by `p`. -/
theorem Without.call {a : op.Answer} {w' : World} (h : s.Without p (.call t c))
    (hp : ∀ w t op, p w t op = true → ∃ f u, op = .updateOne f u) (hnext : s.next t = some op)
    (hexec : s.world.exec t op c = some (a,w')) : w' = s.world ∨ p s.world t op = false := by
  cases hpick : p s.world t op with
  | false => exact Or.inr rfl
  | true =>
    left
    have hno : c.takesEffect = false := by
      simpa [Without,makes,hnext,hpick] using h
    obtain ⟨f,u,rfl⟩ := hp _ _ _ hpick
    rcases updateOne_cases hexec with ⟨d,hd,-⟩ | ⟨hsame,-⟩
    · rw [exec_takesEffect hd hexec,hno,if_neg Bool.false_ne_true]
    · exact hsame

/-- What every call under its contract that `p` does not pick out keeps holds in every run
without `p`. -/
theorem world_of_without {J : World → Prop}
    (hp : ∀ w t op, p w t op = true → ∃ f u, op = .updateOne f u)
    (hinit : J World.initial)
    (hcall : ∀ w t op w', w.Inv → J w → contract t op w → Effect w t op w' →
      p w t op = false → J w')
    (htick : ∀ w q timers, J w → J { w with queue := q, timers := timers })
    (h : (system maxRetries).ReachUnder (Without p) s) : J s.world := by
  induction h with
  | init hs =>
    rw [hs.1]
    exact hinit
  | step hs hC hstep ih =>
    rcases step_cases hs.reach hstep with
      ⟨-,hsame⟩ | ⟨t,c,op,a,rfl,hnext,hc,hexec⟩ | ⟨e,rfl,he⟩
    · rw [hsame]
      exact ih
    · rcases Without.call hC hp hnext hexec with hsame | hpick
      · rw [hsame]
        exact ih
      · exact hcall _ t op _ (inv_of_reach hs.reach) ih hc (exec_effect hexec) hpick
    · obtain ⟨q,timers,hw⟩ := tick_frame he
      rw [hw]
      exact htick _ q timers ih

/-- A check computed at the end of a run without `p`. -/
theorem reachUnder_of_run (maxRetries : Nat) {q : Service → Bool} (ls : List Label)
    (h : ((system maxRetries).runUnder (fun s l => !s.makes p l) initial ls).any q = true) :
    ∃ s, (system maxRetries).ReachUnder (Without p) s ∧ q s = true :=
  Lts.reachUnder_of_runUnder_any (fun s l hl => by simpa [Without] using hl) ls initial_reach h

end Service

end Dominion.Deploy
