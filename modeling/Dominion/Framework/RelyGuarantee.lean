import Dominion.Framework.CallTree

/-! # Rely-guarantee reasoning for pools

Each thread promises to make a call only in states that meet the call's contract, and may rely
on the calls of the others meeting theirs.  The proof outline of a program annotates every node
of its call tree with an assertion that the others cannot invalidate. -/
namespace Dominion.Framework

variable {Tid Op : Type} {Ans : Op → Type} {Choice Tick Req α β σ : Type}

structure Protocol (M : Machine Tid Op Ans Choice Tick σ) where
  inv : σ → Prop
  contract : Tid → Op → σ → Prop

namespace Protocol

variable {M : Machine Tid Op Ans Choice Tick σ} (S : Protocol M)

/-- A step of the surroundings of thread `t`. -/
def Rely (t : Tid) (s s' : σ) : Prop :=
  (∃ t' op c a, t' ≠ t ∧ S.contract t' op s ∧ M.exec t' op c s = some (a,s')) ∨
    ∃ e, M.tick e s = some s'

def Stable (t : Tid) (P : σ → Prop) : Prop :=
  ∀ s s', S.inv s → P s → S.Rely t s s' → P s'

/-- Every run of the program from a state in `P` meets the contracts of its calls and ends in
`Q`, whatever the other threads do meanwhile. -/
def Sat (t : Tid) : CallTree Op Ans α → (σ → Prop) → (α → σ → Prop) → Prop
  | .pure a,P,Q => S.Stable t P ∧ ∀ s, S.inv s → P s → Q a s
  | .call op k,P,Q => S.Stable t P ∧ (∀ s, S.inv s → P s → S.contract t op s) ∧
      ∃ R : Ans op → σ → Prop,
        (∀ c a s s', S.inv s → P s → M.exec t op c s = some (a,s') → R a s') ∧
        ∀ a, Sat t (k a) (R a) Q

variable {S} {t : Tid} {P P' : σ → Prop} {Q Q' : α → σ → Prop}

theorem Stable.and (hP : S.Stable t P) (hP' : S.Stable t P') :
    S.Stable t fun s => P s ∧ P' s :=
  fun s s' hi h hr => ⟨hP s s' hi h.1 hr,hP' s s' hi h.2 hr⟩

theorem Stable.or (hP : S.Stable t P) (hP' : S.Stable t P') :
    S.Stable t fun s => P s ∨ P' s :=
  fun s s' hi h hr => h.imp (fun hp => hP s s' hi hp hr) fun hp => hP' s s' hi hp hr

theorem Stable.const (p : Prop) : S.Stable t fun _ => p :=
  fun _ _ _ h _ => h

theorem Stable.exists {ι : Type} {R : ι → σ → Prop} (h : ∀ i, S.Stable t (R i)) :
    S.Stable t fun s => ∃ i, R i s := by
  rintro s s' hi ⟨i,hp⟩ hr
  exact ⟨i,h i s s' hi hp hr⟩

theorem Stable.imp (p : Prop) (hP : S.Stable t P) : S.Stable t fun s => p → P s :=
  fun s s' hi h hr hp => hP s s' hi (h hp) hr

private theorem Sat.stable {c : CallTree Op Ans α} (h : S.Sat t c P Q) : S.Stable t P := by
  cases c with
  | pure a => exact h.1
  | call op k => exact h.1

theorem Sat.pure {a : α} (hP : S.Stable t P) (hQ : ∀ s, S.inv s → P s → Q a s) :
    S.Sat t (.pure a) P Q :=
  ⟨hP,hQ⟩

theorem Sat.strengthen {c : CallTree Op Ans α} (h : S.Sat t c P Q) (hP' : S.Stable t P')
    (hPP' : ∀ s, S.inv s → P' s → P s) : S.Sat t c P' Q := by
  cases c with
  | pure a => exact ⟨hP',fun s hi hp => h.2 s hi (hPP' s hi hp)⟩
  | call op k =>
    obtain ⟨-,hcontract,R,hR,hk⟩ := h
    exact ⟨hP',fun s hi hp => hcontract s hi (hPP' s hi hp),R,
      fun c a s s' hi hp => hR c a s s' hi (hPP' s hi hp),hk⟩

theorem Sat.bind {c : CallTree Op Ans α} {f : α → CallTree Op Ans β} {Q' : β → σ → Prop}
    (h : S.Sat t c P Q) (hf : ∀ a, S.Sat t (f a) (Q a) Q') : S.Sat t (c >>= f) P Q' := by
  induction c generalizing P with
  | pure a => exact (hf a).strengthen h.1 h.2
  | call op k ih =>
    obtain ⟨hP,hcontract,R,hR,hk⟩ := h
    exact ⟨hP,hcontract,R,hR,fun a => ih a (hk a)⟩

theorem Sat.weaken {c : CallTree Op Ans α} (h : S.Sat t c P Q)
    (hQ : ∀ a s, S.inv s → Q a s → Q' a s) : S.Sat t c P Q' := by
  induction c generalizing P with
  | pure a => exact ⟨h.1,fun s hi hp => hQ a s hi (h.2 s hi hp)⟩
  | call op k ih =>
    obtain ⟨hP,hcontract,R,hR,hk⟩ := h
    exact ⟨hP,hcontract,R,hR,fun a => ih a (hk a)⟩

private theorem Sat.absurd (c : CallTree Op Ans α) : S.Sat t c (fun _ => False) Q := by
  induction c with
  | pure a => exact ⟨Stable.const False,fun _ _ h => h.elim⟩
  | call op k ih =>
    exact ⟨Stable.const False,fun _ _ h => h.elim,fun _ _ => False,
      fun _ _ _ _ _ h _ => h.elim,fun a => ih a⟩

/-- A fact that does not depend on the state may be assumed while the outline is written. -/
theorem Sat.assume {c : CallTree Op Ans α} (p : Prop) (h : p → S.Sat t c P Q) :
    S.Sat t c (fun s => p ∧ P s) Q := by
  by_cases hp : p
  · have hsat := h hp
    exact hsat.strengthen ((Stable.const p).and hsat.stable) fun _ _ h => h.2
  · exact (Sat.absurd c).strengthen (fun _ _ _ h _ => (hp h.1).elim) fun _ _ h => hp h.1

/-- An assertion that the program's own calls keep may be carried through its outline. -/
theorem Sat.frame {c : CallTree Op Ans α} {F : σ → Prop} {allowed : Op → Prop}
    (h : S.Sat t c P Q) (huses : c.Uses allowed) (hF : S.Stable t F)
    (hkeep : ∀ op c a s s', allowed op → S.inv s → F s → M.exec t op c s = some (a,s') → F s') :
    S.Sat t c (fun s => P s ∧ F s) fun a s => Q a s ∧ F s := by
  induction c generalizing P with
  | pure a => exact ⟨h.1.and hF,fun s hi hp => ⟨h.2 s hi hp.1,hp.2⟩⟩
  | call op k ih =>
    obtain ⟨hP,hcontract,R,hR,hk⟩ := h
    refine ⟨hP.and hF,fun s hi hp => hcontract s hi hp.1,fun a s => R a s ∧ F s,?_,?_⟩
    · intro c a s s' hi hp hexec
      exact ⟨hR c a s s' hi hp.1 hexec,hkeep op c a s s' huses.1 hi hp.2 hexec⟩
    · intro a
      exact ih a (hk a) (huses.2 a)

/-- The rule of one call. -/
theorem Sat.perform {op : Op} {R : Ans op → σ → Prop} (hP : S.Stable t P)
    (hR : ∀ a, S.Stable t (R a)) (hcontract : ∀ s, S.inv s → P s → S.contract t op s)
    (hexec : ∀ c a s s', S.inv s → P s → M.exec t op c s = some (a,s') → R a s') :
    S.Sat t (CallTree.perform op) P R :=
  ⟨hP,hcontract,R,hexec,fun a => ⟨hR a,fun _ _ h => h⟩⟩

/-- What a pool of programs has to meet for the protocol to hold of all its runs. -/
structure Sound (S : Protocol M) (program : Tid → Req → Option (CallTree Op Ans α))
    (start : σ → Prop) (post : Tid → α → σ → Prop) : Prop where
  init : ∀ s, start s → S.inv s
  call : ∀ t op c a s s', S.inv s → S.contract t op s → M.exec t op c s = some (a,s') → S.inv s'
  tick : ∀ e s s', S.inv s → M.tick e s = some s' → S.inv s'
  program : ∀ t r c, program t r = some c → S.Sat t c (fun _ => True) (post t)

/-- The invariant holds and every thread stands at an annotated node of its outline. -/
def Outlined (S : Protocol M) (post : Tid → α → σ → Prop) (s : Pool Tid Op Ans α σ) : Prop :=
  S.inv s.world ∧ ∀ t c, s.threads t = some c → ∃ P, S.Sat t c P (post t) ∧ P s.world

variable {post : Tid → α → σ → Prop}

theorem Outlined.contract {s : Pool Tid Op Ans α σ} (h : S.Outlined post s) {op : Op}
    (hop : s.next t = some op) : S.contract t op s.world := by
  unfold Pool.next at hop
  split at hop
  · rename_i op' k ht
    cases hop
    obtain ⟨P,hsat,hP⟩ := h.2 t _ ht
    exact hsat.2.1 s.world h.1 hP
  · cases hop

theorem Outlined.returned {s : Pool Tid Op Ans α σ} (h : S.Outlined post s) {a : α}
    (ha : s.returned t = some a) : post t a s.world := by
  unfold Pool.returned at ha
  split at ha
  · rename_i a' ht
    cases ha
    obtain ⟨P,hsat,hP⟩ := h.2 t _ ht
    exact hsat.2 s.world h.1 hP
  · cases ha

variable [DecidableEq Tid] {program : Tid → Req → Option (CallTree Op Ans α)}
  {start : σ → Prop}

private theorem outlined_update {s : Pool Tid Op Ans α σ} {w : σ} {d : Option (CallTree Op Ans α)}
    (hinv : S.inv w)
    (hother : ∀ t' c, t' ≠ t → s.threads t' = some c → ∃ P, S.Sat t' c P (post t') ∧ P w)
    (hself : ∀ c, d = some c → ∃ P, S.Sat t c P (post t) ∧ P w) :
    S.Outlined post ⟨w,Function.update s.threads t d⟩ := by
  refine ⟨hinv,?_⟩
  intro t' c hc
  by_cases he : t' = t
  · subst t'
    exact hself c (by simpa only [Function.update_self] using hc)
  · exact hother t' c he (by simpa only [Function.update_of_ne he] using hc)

private theorem outlined_call (h : S.Sound program start post) {s : Pool Tid Op Ans α σ} {op : Op}
    {k : Ans op → CallTree Op Ans α} {c : Choice} {a : Ans op} {w : σ}
    (hs : S.Outlined post s) (ht : s.threads t = some (.call op k))
    (hexec : M.exec t op c s.world = some (a,w)) :
    S.Outlined post ⟨w,Function.update s.threads t (some (k a))⟩ := by
  obtain ⟨P,⟨-,hcontract,R,hR,hk⟩,hP⟩ := hs.2 t _ ht
  have hc := hcontract s.world hs.1 hP
  refine outlined_update (h.call t op c a s.world w hs.1 hc hexec) ?_ ?_
  · intro t' c' hne hc'
    obtain ⟨P',hsat,hP'⟩ := hs.2 t' c' hc'
    refine ⟨P',hsat,hsat.stable s.world w hs.1 hP' ?_⟩
    exact Or.inl ⟨t,op,c,a,Ne.symm hne,hc,hexec⟩
  · intro c' hc'
    cases hc'
    exact ⟨R a,hk a,hR c a s.world w hs.1 hP hexec⟩

private theorem outlined_inductive (h : S.Sound program start post) :
    Lts.Inductive (Pool.system M program start) (fun _ _ => True) (S.Outlined post) where
  init s hs := by
    refine ⟨h.init s.world hs.1,?_⟩
    intro t c hc
    rw [hs.2] at hc
    cases hc
  step s l s' hs _ hstep := by
    cases l with
    | start t request =>
      simp only [Pool.system,Pool.step] at hstep
      split at hstep
      · rename_i c _ hc
        cases hstep
        apply outlined_update hs.1
        · intro t' c' _ hc'
          exact hs.2 t' c' hc'
        · intro c' hc'
          cases hc'
          exact ⟨_,h.program t request c hc,trivial⟩
      · cases hstep
    | call t choice =>
      simp only [Pool.system,Pool.step] at hstep
      split at hstep
      · rename_i op k ht
        obtain ⟨⟨a,w⟩,hexec,rfl⟩ := Option.map_eq_some_iff.mp hstep
        exact outlined_call h hs ht hexec
      · cases hstep
    | drop t =>
      cases hstep
      apply outlined_update hs.1
      · intro t' c' _ hc'
        exact hs.2 t' c' hc'
      · intro c hc
        cases hc
    | tick e =>
      obtain ⟨w,hw,rfl⟩ := Option.map_eq_some_iff.mp hstep
      refine ⟨h.tick e s.world w hs.1 hw,?_⟩
      intro t c hc
      obtain ⟨P,hsat,hP⟩ := hs.2 t c hc
      exact ⟨P,hsat,hsat.stable s.world w hs.1 hP (Or.inr ⟨e,hw⟩)⟩

theorem outlined_of_reach (h : S.Sound program start post) {s : Pool Tid Op Ans α σ}
    (hs : (Pool.system M program start).Reach s) : S.Outlined post s :=
  (outlined_inductive h).of_reachUnder hs

/-- What a step does to the shared state: nothing, one call under its contract, or a tick. -/
theorem Outlined.step_cases {s s' : Pool Tid Op Ans α σ} (h : S.Outlined post s)
    {l : Pool.Label Tid Req Choice Tick}
    (hstep : (Pool.system M program start).step s l = some s') :
    (((∃ t r, l = .start t r) ∨ ∃ t, l = .drop t) ∧ s'.world = s.world) ∨
    (∃ t c op a, l = .call t c ∧ s.next t = some op ∧ S.contract t op s.world ∧
      M.exec t op c s.world = some (a,s'.world)) ∨
    ∃ e, l = .tick e ∧ M.tick e s.world = some s'.world := by
  cases l with
  | start t request =>
    simp only [Pool.system,Pool.step] at hstep
    split at hstep
    · cases hstep
      exact Or.inl ⟨Or.inl ⟨t,request,rfl⟩,rfl⟩
    · cases hstep
  | call t choice =>
    simp only [Pool.system,Pool.step] at hstep
    split at hstep
    · rename_i op k ht
      obtain ⟨⟨a,w⟩,hexec,rfl⟩ := Option.map_eq_some_iff.mp hstep
      have hnext : s.next t = some op := by simp only [Pool.next,ht]
      exact Or.inr (Or.inl ⟨t,choice,op,a,rfl,hnext,h.contract hnext,hexec⟩)
    · cases hstep
  | drop t =>
    cases hstep
    exact Or.inl ⟨Or.inr ⟨t,rfl⟩,rfl⟩
  | tick e =>
    obtain ⟨w,hw,rfl⟩ := Option.map_eq_some_iff.mp hstep
    exact Or.inr (Or.inr ⟨e,rfl,hw⟩)

end Protocol

end Dominion.Framework
