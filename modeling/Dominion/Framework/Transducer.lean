import Mathlib.Data.List.Basic

/-! # Fed transducers

A machine reads items one by one and emits outputs until it halts or fails.  It is fed in groups,
and what a group emitted is handed out only when the whole group went well. -/
namespace Dominion.Framework

universe u v w x

structure Transducer (σ : Type u) (μ : Type v) (ο : Type w) (ε : Type x) where
  step : σ → μ → Except ε (List ο × σ)
  halted : σ → Bool

section groups

variable {σ : Type u} {μ : Type v} {ο : Type w} {ε : Type x}
  (feed : σ → List μ → Except ε (List ο × σ))

/-- One group after the other: everything that is handed out, and how it ends. -/
def feeds (s : σ) : List (List μ) → List ο × Except ε σ
  | [] => ([],.ok s)
  | g :: gs =>
    match feed s g with
    | .error e => ([],.error e)
    | .ok (out,t) => (out ++ (feeds t gs).1,(feeds t gs).2)

/-- The same is handed out and it ends the same way, however the items are grouped. -/
def Independent (s : σ) (ms : List μ) : Prop :=
  ∀ gs gs' : List (List μ), gs.flatten = ms → gs'.flatten = ms → feeds feed s gs = feeds feed s gs'

/-- Every item of a kind that is reached makes the machine fail with one error. -/
def Rejects (halted : σ → Bool) (bad : μ → Prop) (e : ε) (s : σ) (ms : List μ) : Prop :=
  ∀ before m after out t, ms = before ++ m :: after → bad m → feed s before = .ok (out,t) →
    halted t = false → feed t [m] = .error e

end groups

namespace Transducer

variable {σ : Type u} {μ : Type v} {ο : Type w} {ε : Type x} (T : Transducer σ μ ο ε)

/-- Everything that is emitted, and how it ends. -/
def run (s : σ) : List μ → List ο × Except ε σ
  | [] => ([],.ok s)
  | m :: ms =>
    if T.halted s then ([],.ok s)
    else
      match T.step s m with
      | .error e => ([],.error e)
      | .ok (out,t) => (out ++ (run t ms).1,(run t ms).2)

/-- A group of items. -/
def feed (s : σ) (ms : List μ) : Except ε (List ο × σ) :=
  match T.run s ms with
  | (out,.ok t) => .ok (out,t)
  | (_,.error e) => .error e

variable {T} {s t : σ} {ms before after : List μ} {m : μ} {out : List ο} {e : ε}

private theorem run_halted (h : T.halted s = true) (ms : List μ) : T.run s ms = ([],.ok s) := by
  cases ms with
  | nil => rfl
  | cons m ms => rw [run,if_pos h]

private theorem run_cons_ok (hlive : T.halted s = false) (hstep : T.step s m = .ok (out,t)) :
    T.run s (m :: ms) = (out ++ (T.run t ms).1,(T.run t ms).2) := by
  rw [run,if_neg (by simp [hlive]),hstep]

private theorem run_cons_error (hlive : T.halted s = false) (hstep : T.step s m = .error e) :
    T.run s (m :: ms) = ([],.error e) := by
  rw [run,if_neg (by simp [hlive]),hstep]

/-- A run that went well goes on. -/
theorem run_append (h : T.run s before = (out,.ok t)) :
    T.run s (before ++ after) = (out ++ (T.run t after).1,(T.run t after).2) := by
  induction before generalizing s out with
  | nil =>
    cases h
    rfl
  | cons m before ih =>
    cases hhalted : T.halted s with
    | true =>
      rw [run_halted hhalted] at h
      cases h
      rw [run_halted hhalted,run_halted hhalted]
      rfl
    | false =>
      cases hstep : T.step s m with
      | error e =>
        rw [run_cons_error hhalted hstep] at h
        cases h
      | ok r =>
        obtain ⟨first,u⟩ := r
        rw [run_cons_ok hhalted hstep] at h
        obtain ⟨hout,hend⟩ := Prod.mk.inj h
        have hbefore : T.run u before = ((T.run u before).1,.ok t) := Prod.ext rfl hend
        rw [List.cons_append,run_cons_ok hhalted hstep,ih hbefore,← hout,List.append_assoc]

/-- A run that failed does not read on. -/
theorem run_append_error (h : T.run s before = (out,.error e)) :
    T.run s (before ++ after) = (out,.error e) := by
  induction before generalizing s out with
  | nil => cases h
  | cons m before ih =>
    cases hhalted : T.halted s with
    | true =>
      rw [run_halted hhalted] at h
      cases h
    | false =>
      cases hstep : T.step s m with
      | error e' =>
        rw [run_cons_error hhalted hstep] at h
        cases h
        exact run_cons_error hhalted hstep
      | ok r =>
        obtain ⟨first,u⟩ := r
        rw [run_cons_ok hhalted hstep] at h
        obtain ⟨hout,hend⟩ := Prod.mk.inj h
        have hbefore : T.run u before = ((T.run u before).1,.error e) := Prod.ext rfl hend
        rw [List.cons_append,run_cons_ok hhalted hstep,ih hbefore,← hout]

/-- A run fails at one of its items. -/
theorem run_error (h : T.run s ms = (out,.error e)) : ∃ before m after t,
    ms = before ++ m :: after ∧ T.run s before = (out,.ok t) ∧ T.halted t = false ∧
      T.step t m = .error e := by
  induction ms generalizing s out with
  | nil => cases h
  | cons m ms ih =>
    cases hhalted : T.halted s with
    | true =>
      rw [run_halted hhalted] at h
      cases h
    | false =>
      cases hstep : T.step s m with
      | error e' =>
        rw [run_cons_error hhalted hstep] at h
        cases h
        exact ⟨[],m,ms,s,rfl,rfl,hhalted,hstep⟩
      | ok r =>
        obtain ⟨first,u⟩ := r
        rw [run_cons_ok hhalted hstep] at h
        obtain ⟨hout,hend⟩ := Prod.mk.inj h
        have hrest : T.run u ms = ((T.run u ms).1,.error e) := Prod.ext rfl hend
        obtain ⟨before,n,after,t,hms,hrun,hlive,hfail⟩ := ih hrest
        refine ⟨m :: before,n,after,t,by rw [hms,List.cons_append],?_,hlive,hfail⟩
        rw [run_cons_ok hhalted hstep,hrun,hout]

/-! ## Groups -/

private theorem feeds_ok {gs : List (List μ)} (h : T.run s gs.flatten = (out,.ok t)) :
    feeds T.feed s gs = (out,.ok t) := by
  induction gs generalizing s out with
  | nil => exact h
  | cons g gs ih =>
    rw [List.flatten_cons] at h
    rcases hg : T.run s g with ⟨first,ending⟩
    cases ending with
    | error e =>
      rw [run_append_error hg] at h
      cases h
    | ok u =>
      rw [run_append hg] at h
      obtain ⟨hout,hend⟩ := Prod.mk.inj h
      have hrest : T.run u gs.flatten = ((T.run u gs.flatten).1,.ok t) := Prod.ext rfl hend
      have hfeed : T.feed s g = .ok (first,u) := by rw [feed,hg]
      simp only [feeds,hfeed,ih hrest,hout]

/-- A failure hides at most what its own group emitted. -/
theorem feeds_error {gs : List (List μ)} (h : T.run s gs.flatten = (out,.error e)) :
    ∃ handed, handed <+: out ∧ feeds T.feed s gs = (handed,.error e) := by
  induction gs generalizing s out with
  | nil => cases h
  | cons g gs ih =>
    rw [List.flatten_cons] at h
    rcases hg : T.run s g with ⟨first,ending⟩
    cases ending with
    | error e' =>
      rw [run_append_error hg] at h
      cases h
      have hfeed : T.feed s g = .error e := by rw [feed,hg]
      exact ⟨[],List.nil_prefix,by simp only [feeds,hfeed]⟩
    | ok u =>
      rw [run_append hg] at h
      obtain ⟨hout,hend⟩ := Prod.mk.inj h
      have hlater : T.run u gs.flatten = ((T.run u gs.flatten).1,.error e) := Prod.ext rfl hend
      obtain ⟨handed,hinitial,hrest⟩ := ih hlater
      have hfeed : T.feed s g = .ok (first,u) := by rw [feed,hg]
      refine ⟨first ++ handed,?_,by simp only [feeds,hfeed,hrest]⟩
      rw [← hout]
      exact (List.prefix_append_right_inj first).mpr hinitial

/-- Fed one by one, everything is handed out. -/
theorem feeds_each (s : σ) (ms : List μ) : feeds T.feed s (ms.map fun m => [m]) = T.run s ms := by
  induction ms generalizing s with
  | nil => rfl
  | cons m ms ih =>
    cases hhalted : T.halted s with
    | true =>
      have hall : feeds T.feed s ((m :: ms).map fun m => [m]) = ([],.ok s) :=
        feeds_ok (run_halted hhalted _)
      rw [hall,run_halted hhalted]
    | false =>
      cases hstep : T.step s m with
      | error e =>
        have hfeed : T.feed s [m] = .error e := by rw [feed,run_cons_error hhalted hstep]
        rw [List.map_cons,run_cons_error hhalted hstep]
        simp only [feeds,hfeed]
      | ok r =>
        obtain ⟨first,u⟩ := r
        have hfeed : T.feed s [m] = .ok (first,u) := by
          rw [feed,run_cons_ok hhalted hstep]
          simp [run]
        rw [List.map_cons,run_cons_ok hhalted hstep]
        simp only [feeds,hfeed,ih]

/-- The grouping matters just when a failure follows an output. -/
theorem independent_iff :
    Independent T.feed s ms ↔ ∀ e, (T.run s ms).2 = .error e → (T.run s ms).1 = [] := by
  constructor
  · intro h e he
    have hrun : T.run s ms = ((T.run s ms).1,.error e) := Prod.ext rfl he
    have hfeed : T.feed s ms = .error e := by
      rw [feed,hrun]
    have hsame := h (ms.map fun m => [m]) [ms] (by simp [← List.flatMap_def]) (by simp)
    rw [feeds_each] at hsame
    simp only [feeds,hfeed] at hsame
    rw [hsame]
  · intro h gs gs' hgs hgs'
    rcases hrun : T.run s ms with ⟨out,ending⟩
    cases ending with
    | ok t => rw [feeds_ok (hgs ▸ hrun),feeds_ok (hgs' ▸ hrun)]
    | error e =>
      have hout : out = [] := by
        have hnone := h e (by rw [hrun])
        rwa [hrun] at hnone
      subst hout
      obtain ⟨handed,hinitial,hfeeds⟩ := feeds_error (hgs ▸ hrun)
      obtain ⟨handed',hinitial',hfeeds'⟩ := feeds_error (hgs' ▸ hrun)
      rw [hfeeds,hfeeds',List.prefix_nil.mp hinitial,List.prefix_nil.mp hinitial']

/-! ## Rejected items -/

private theorem feed_ok_iff : T.feed s ms = .ok (out,t) ↔ T.run s ms = (out,.ok t) := by
  unfold feed
  rcases T.run s ms with ⟨first,ending⟩
  cases ending with
  | error e => simp
  | ok u => simp

private theorem feed_one_error_iff (hlive : T.halted s = false) :
    T.feed s [m] = .error e ↔ T.step s m = .error e := by
  cases hstep : T.step s m with
  | error e' =>
    have hrun : T.run s [m] = ([],.error e') := run_cons_error hlive hstep
    simp [feed,hrun]
  | ok r =>
    obtain ⟨first,u⟩ := r
    have hrun : T.run s [m] = (first ++ [],.ok u) := run_cons_ok hlive hstep
    simp [feed,hrun]

/-- If the machine fails on bad items only, and with the error on `fatal` ones only: the grouping
does not matter and bad items are rejected, just when the first bad item that is reached is a fatal
one behind no output. -/
theorem independent_rejects_iff {bad fatal : μ → Prop}
    (hgood : ∀ s m, ¬bad m → ∃ r, T.step s m = .ok r)
    (hbad : ∀ s m, bad m → (T.step s m = .error e ↔ fatal m)) :
    (Independent T.feed s ms ∧ Rejects T.feed T.halted bad e s ms) ↔
      ∀ before m after out t, ms = before ++ m :: after → bad m → T.feed s before = .ok (out,t) →
        T.halted t = false → fatal m ∧ out = [] := by
  rw [independent_iff]
  constructor
  · intro h before m after out t hms hm hfeed hlive
    have hstep := (feed_one_error_iff hlive).mp (h.2 before m after out t hms hm hfeed hlive)
    have hall : T.run s ms = (out,.error e) := by
      rw [hms,run_append (feed_ok_iff.mp hfeed),run_cons_error hlive hstep,List.append_nil]
    refine ⟨(hbad t m hm).mp hstep,?_⟩
    have hnone := h.1 e (by rw [hall])
    rwa [hall] at hnone
  · intro h
    constructor
    · intro e' he
      have hrun : T.run s ms = ((T.run s ms).1,.error e') := Prod.ext rfl he
      obtain ⟨before,m,after,t,hms,hbefore,hlive,hstep⟩ := run_error hrun
      by_cases hm : bad m
      · exact (h before m after _ t hms hm (feed_ok_iff.mpr hbefore) hlive).2
      · obtain ⟨r,hr⟩ := hgood t m hm
        rw [hr] at hstep
        cases hstep
    · intro before m after out t hms hm hfeed hlive
      apply (feed_one_error_iff hlive).mpr
      exact (hbad t m hm).mpr (h before m after out t hms hm hfeed hlive).1

end Transducer

/-! ## Machines with a buffer -/

/-- A machine that keeps what it emits until it is drained; what waits has no part in its steps. -/
structure Buffered (σ : Type u) (μ : Type v) (ο : Type w) (ε : Type x) where
  take : σ → μ → Except ε σ
  halted : σ → Bool
  pending : σ → List ο
  drained : σ → σ
  /-- The outputs wait before the ones that are waiting already. -/
  behind : List ο → σ → σ
  take_behind : ∀ waiting s m, take (behind waiting s) m = (take s m).map (behind waiting)
  halted_behind : ∀ waiting s, halted (behind waiting s) = halted s
  pending_behind : ∀ waiting s, pending (behind waiting s) = waiting ++ pending s
  drained_behind : ∀ waiting s, drained (behind waiting s) = drained s
  behind_drained : ∀ s, behind (pending s) (drained s) = s

namespace Buffered

variable {σ : Type u} {μ : Type v} {ο : Type w} {ε : Type x} (B : Buffered σ μ ο ε)

/-- The items of one group, until the machine halts or fails. -/
def accept (s : σ) : List μ → Except ε σ
  | [] => .ok s
  | m :: ms =>
    if B.halted s then .ok s
    else
      match B.take s m with
      | .error e => .error e
      | .ok t => accept t ms

/-- A group of items; what waits is handed out at its end. -/
def feed (s : σ) (ms : List μ) : Except ε (List ο × σ) :=
  (B.accept s ms).map fun t => (B.pending t,B.drained t)

/-- The machine that emits at once. -/
def machine : Transducer σ μ ο ε where
  step s m := (B.take s m).map fun t => (B.pending t,B.drained t)
  halted := B.halted

variable {B}

theorem accept_live {s : σ} {m : μ} {ms : List μ} (hlive : B.halted s = false) :
    B.accept s (m :: ms) = (B.take s m).bind fun t => B.accept t ms := by
  simp only [accept,hlive,Bool.false_eq_true,if_false]
  cases B.take s m with
  | error e => rfl
  | ok t => rfl

private theorem pending_drained (s : σ) : B.pending (B.drained s) = [] := by
  have hpending := B.pending_behind (B.pending s) (B.drained s)
  rw [B.behind_drained] at hpending
  simpa using hpending

private theorem drained_drained (s : σ) : B.drained (B.drained s) = B.drained s := by
  have hdrained := B.drained_behind (B.pending s) (B.drained s)
  rw [B.behind_drained] at hdrained
  exact hdrained.symm

private theorem accept_behind (waiting : List ο) (s : σ) (ms : List μ) :
    B.accept (B.behind waiting s) ms = (B.accept s ms).map (B.behind waiting) := by
  induction ms generalizing s with
  | nil => rfl
  | cons m ms ih =>
    unfold accept
    rw [B.halted_behind,B.take_behind]
    cases B.halted s with
    | true => rfl
    | false =>
      cases B.take s m with
      | error e => rfl
      | ok t => exact ih t

/-- Draining at the end of a group or at once hands out the same. -/
theorem feed_machine (s : σ) (hdrained : B.drained s = s) (ms : List μ) :
    B.feed s ms = B.machine.feed s ms := by
  have hs : B.pending s = [] := hdrained ▸ pending_drained s
  induction ms generalizing s with
  | nil => simp [feed,accept,Transducer.feed,Transducer.run,Except.map,hs,hdrained]
  | cons m ms ih =>
    cases hhalted : B.halted s with
    | true =>
      have hrun : B.machine.run s (m :: ms) = ([],.ok s) := Transducer.run_halted hhalted _
      simp [feed,accept,hhalted,Transducer.feed,hrun,Except.map,hs,hdrained]
    | false =>
      cases htake : B.take s m with
      | error e =>
        have hstep : B.machine.step s m = .error e := by simp [machine,htake,Except.map]
        have hrun : B.machine.run s (m :: ms) = ([],.error e) :=
          Transducer.run_cons_error hhalted hstep
        simp [feed,accept,hhalted,htake,Transducer.feed,hrun,Except.map]
      | ok t =>
        have hstep : B.machine.step s m = .ok (B.pending t,B.drained t) := by
          simp [machine,htake,Except.map]
        have hrun : B.machine.run s (m :: ms) = (B.pending t ++ (B.machine.run (B.drained t) ms).1,
            (B.machine.run (B.drained t) ms).2) := Transducer.run_cons_ok hhalted hstep
        have hrest := ih (B.drained t) (drained_drained t) (pending_drained t)
        have haccept : B.accept s (m :: ms) =
            (B.accept (B.drained t) ms).map (B.behind (B.pending t)) := by
          rw [← accept_behind,B.behind_drained]
          simp [accept,hhalted,htake]
        unfold feed Transducer.feed at hrest ⊢
        rw [haccept,hrun]
        cases hlater : B.accept (B.drained t) ms with
        | error e =>
          rw [hlater] at hrest
          rcases hmachine : B.machine.run (B.drained t) ms with ⟨out,ending⟩
          rw [hmachine] at hrest
          cases ending with
          | error e' => exact hrest
          | ok u => cases hrest
        | ok v =>
          rw [hlater] at hrest
          rcases hmachine : B.machine.run (B.drained t) ms with ⟨out,ending⟩
          rw [hmachine] at hrest
          cases ending with
          | error e' => cases hrest
          | ok u =>
            obtain ⟨hout,hend⟩ := Prod.mk.inj (Except.ok.inj hrest)
            simp [Except.map,B.pending_behind,B.drained_behind,hout,hend]

private theorem feed_drained {s t : σ} {ms : List μ} {out : List ο}
    (h : B.feed s ms = .ok (out,t)) :
    B.drained t = t := by
  unfold feed at h
  cases haccept : B.accept s ms with
  | error e =>
    rw [haccept] at h
    cases h
  | ok u =>
    rw [haccept] at h
    cases h
    exact drained_drained u

private theorem feeds_machine (s : σ) (hdrained : B.drained s = s) (gs : List (List μ)) :
    feeds B.feed s gs = feeds B.machine.feed s gs := by
  induction gs generalizing s with
  | nil => rfl
  | cons g gs ih =>
    simp only [feeds,← feed_machine s hdrained g]
    cases hfeed : B.feed s g with
    | error e => rfl
    | ok r => simp only [ih r.2 (feed_drained hfeed)]

private theorem independent_rejects_iff {e : ε} {s : σ} {ms : List μ} {bad fatal : μ → Prop}
    (hgood : ∀ s m, ¬bad m → ∃ t, B.take s m = .ok t)
    (hbad : ∀ s m, bad m → (B.take s m = .error e ↔ fatal m)) (hdrained : B.drained s = s) :
    (Independent B.feed s ms ∧ Rejects B.feed B.halted bad e s ms) ↔
      ∀ before m after out t, ms = before ++ m :: after → bad m → B.feed s before = .ok (out,t) →
        B.halted t = false → fatal m ∧ out = [] := by
  have hindependent : Independent B.feed s ms ↔ Independent B.machine.feed s ms := by
    unfold Independent
    simp only [feeds_machine s hdrained]
  have hrejects : Rejects B.feed B.halted bad e s ms ↔
      Rejects B.machine.feed B.machine.halted bad e s ms := by
    constructor
    · intro h before m after out t hms hm hfeed hlive
      rw [← feed_machine s hdrained] at hfeed
      rw [← feed_machine t (feed_drained hfeed)]
      exact h before m after out t hms hm hfeed hlive
    · intro h before m after out t hms hm hfeed hlive
      rw [feed_machine t (feed_drained hfeed)]
      rw [feed_machine s hdrained] at hfeed
      exact h before m after out t hms hm hfeed hlive
  have hgood' : ∀ s m, ¬bad m → ∃ r, B.machine.step s m = .ok r := by
    intro s m hm
    obtain ⟨t,ht⟩ := hgood s m hm
    exact ⟨(B.pending t,B.drained t),by simp only [machine,ht,Except.map]⟩
  have hbad' : ∀ s m, bad m → (B.machine.step s m = .error e ↔ fatal m) := by
    intro s m hm
    rw [← hbad s m hm]
    cases htake : B.take s m with
    | error e' => simp [machine,htake,Except.map]
    | ok t => simp [machine,htake,Except.map]
  rw [hindependent,hrejects,Transducer.independent_rejects_iff hgood' hbad']
  simp only [feed_machine s hdrained]
  rfl

/-! ## What the items say -/

private theorem accept_pending {s t : σ} {ms : List μ} (h : B.accept s ms = .ok t) :
    B.pending s <+: B.pending t := by
  rw [← B.behind_drained s,accept_behind] at h
  cases hlater : B.accept (B.drained s) ms with
  | error e =>
    rw [hlater] at h
    cases h
  | ok u =>
    rw [hlater] at h
    cases h
    rw [B.pending_behind]
    exact List.prefix_append _ _

theorem accept_halted {s : σ} (hhalted : B.halted s = true) (ms : List μ) :
    B.accept s ms = .ok s := by
  cases ms with
  | nil => rfl
  | cons m ms => simp [accept,hhalted]

/-- What can be told from an item alone: whether it is bad, whether it is the last one, and whether
it is silent on a machine that has not said anything. -/
structure Sorted (B : Buffered σ μ ο ε) (bad last silent : μ → Prop) (quiet : σ → Prop) :
    Prop where
  good : ∀ s m, ¬bad m → ∃ t, B.take s m = .ok t
  ends : ∀ s m t, B.halted s = false → ¬bad m → B.take s m = .ok t → (B.halted t = true ↔ last m)
  nothing : ∀ s, quiet s → B.pending s = []
  hushed : ∀ s m t, quiet s → B.halted s = false → ¬bad m → silent m → B.take s m = .ok t → quiet t
  said : ∀ s m t, quiet s → B.halted s = false → ¬bad m → ¬silent m → B.take s m = .ok t →
    B.pending t ≠ []

/-- What is handed out when all goes well, however the items are grouped. -/
theorem feeds_ok {s t : σ} {gs : List (List μ)} (hdrained : B.drained s = s)
    (h : B.accept s gs.flatten = .ok t) :
    feeds B.feed s gs = (B.pending t,.ok (B.drained t)) := by
  have hfeed : B.machine.feed s gs.flatten = .ok (B.pending t,B.drained t) := by
    rw [← feed_machine s hdrained,feed,h,Except.map]
  rw [feeds_machine s hdrained]
  exact Transducer.feeds_ok (Transducer.feed_ok_iff.mp hfeed)

section sorted

variable {bad last silent fatal : μ → Prop} {quiet : σ → Prop} {e : ε} {s t : σ} {ms : List μ}
  (h : Sorted B bad last silent quiet)
include h

private theorem Sorted.live {m : μ} (hlive : B.halted s = false) (hm : ¬bad m) (hnotlast : ¬last m)
    (htake : B.take s m = .ok t) : B.halted t = false := by
  have hiff := h.ends s m t hlive hm htake
  simpa [hnotlast] using hiff

/-- Items that are neither bad nor last are all read. -/
theorem Sorted.accept_live (hlive : B.halted s = false) (hms : ∀ m ∈ ms, ¬bad m ∧ ¬last m) :
    ∃ t, B.accept s ms = .ok t ∧ B.halted t = false := by
  induction ms generalizing s with
  | nil => exact ⟨s,rfl,hlive⟩
  | cons m ms ih =>
    obtain ⟨hm,hnotlast⟩ := hms m List.mem_cons_self
    obtain ⟨u,hu⟩ := h.good s m hm
    obtain ⟨t,ht,hend⟩ := ih (h.live hlive hm hnotlast hu)
      fun n hn => hms n (List.mem_cons_of_mem m hn)
    refine ⟨t,?_,hend⟩
    rw [Buffered.accept_live hlive,hu]
    exact ht

/-- Nothing is emitted just when no item has anything to say. -/
theorem Sorted.accept_silent (hs : quiet s) (hlive : B.halted s = false)
    (hms : ∀ m ∈ ms, ¬bad m ∧ ¬last m) (haccept : B.accept s ms = .ok t) :
    B.pending t = [] ↔ ∀ m ∈ ms, silent m := by
  induction ms generalizing s with
  | nil =>
    cases haccept
    simp [h.nothing t hs]
  | cons m ms ih =>
    obtain ⟨hm,hnotlast⟩ := hms m List.mem_cons_self
    rw [Buffered.accept_live hlive] at haccept
    cases htake : B.take s m with
    | error e =>
      rw [htake] at haccept
      cases haccept
    | ok u =>
      rw [htake] at haccept
      by_cases hsilent : silent m
      · have hrest := ih (h.hushed s m u hs hlive hm hsilent htake) (h.live hlive hm hnotlast htake)
          (fun n hn => hms n (List.mem_cons_of_mem m hn)) haccept
        rw [hrest]
        simp [hsilent]
      · have hsaid : B.pending t ≠ [] := by
          intro hnone
          have hinitial := accept_pending haccept
          rw [hnone] at hinitial
          exact h.said s m u hs hlive hm hsilent htake (List.prefix_nil.mp hinitial)
        simp [hsaid,hsilent]

/-- An accepted group that leaves the machine live has no last item, and none that is bad if the
first of these would be fatal. -/
theorem Sorted.accepted (hbad : ∀ s m, bad m → (B.take s m = .error e ↔ fatal m))
    (hlive : B.halted s = false) (hend : B.halted t = false)
    (hfirst : ∀ before m after, ms = before ++ m :: after → bad m →
      (∀ n ∈ before, ¬bad n ∧ ¬last n) → fatal m)
    (haccept : B.accept s ms = .ok t) : ∀ m ∈ ms, ¬bad m ∧ ¬last m := by
  induction ms generalizing s with
  | nil => simp
  | cons m ms ih =>
    rw [Buffered.accept_live hlive] at haccept
    have hm : ¬bad m := by
      intro hm
      have hfatal := hfirst [] m ms rfl hm (by simp)
      rw [(hbad s m hm).mpr hfatal] at haccept
      cases haccept
    obtain ⟨u,hu⟩ := h.good s m hm
    rw [hu] at haccept
    have hnotlast : ¬last m := by
      intro hlast
      have hhalted := (h.ends s m u hlive hm hu).mpr hlast
      rw [Except.bind,accept_halted hhalted] at haccept
      cases haccept
      rw [hhalted] at hend
      cases hend
    have hlater : ∀ before n after, ms = before ++ n :: after → bad n →
        (∀ k ∈ before, ¬bad k ∧ ¬last k) → fatal n := by
      intro before n after hms hn hbefore
      apply hfirst (m :: before) n after (by rw [hms,List.cons_append]) hn
      simpa [hm,hnotlast] using hbefore
    have hrest := ih (h.live hlive hm hnotlast hu) hlater haccept
    simpa [hm,hnotlast] using hrest

/-- The grouping does not matter and bad items are rejected, just when the first bad item is a
fatal one and only silent items come before it, or the machine has halted by then. -/
theorem Sorted.independent_rejects_iff
    (hbad : ∀ s m, bad m → (B.take s m = .error e ↔ fatal m)) (hdrained : B.drained s = s)
    (hs : quiet s) (hlive : B.halted s = false) :
    (Independent B.feed s ms ∧ Rejects B.feed B.halted bad e s ms) ↔
      ∀ before m after, ms = before ++ m :: after → bad m → (∀ n ∈ before, ¬bad n ∧ ¬last n) →
        fatal m ∧ ∀ n ∈ before, silent n := by
  rw [Buffered.independent_rejects_iff h.good hbad hdrained]
  constructor
  · intro hreached before m after hms hm hbefore
    obtain ⟨t,ht,hend⟩ := h.accept_live hlive hbefore
    have hfeed : B.feed s before = .ok (B.pending t,B.drained t) := by rw [feed,ht,Except.map]
    have hhalted : B.halted (B.drained t) = false := by
      rw [← hend,← B.halted_behind (B.pending t),B.behind_drained]
    have hfatal := hreached before m after _ _ hms hm hfeed hhalted
    exact ⟨hfatal.1,(h.accept_silent hs hlive hbefore ht).mp hfatal.2⟩
  · intro hfirst before m after out t hms hm hfeed hend
    cases haccept : B.accept s before with
    | error e' =>
      rw [feed,haccept] at hfeed
      cases hfeed
    | ok u =>
      rw [feed,haccept] at hfeed
      cases hfeed
      have hlive' : B.halted u = false := by
        rw [← B.behind_drained u,B.halted_behind]
        exact hend
      have hinner : ∀ first n later, before = first ++ n :: later → bad n →
          (∀ k ∈ first, ¬bad k ∧ ¬last k) → fatal n := by
        intro first n later hbefore hn hread
        refine (hfirst first n (later ++ m :: after) ?_ hn hread).1
        rw [hms,hbefore,List.append_assoc,List.cons_append]
      have hread := h.accepted hbad hlive hlive' hinner haccept
      have hresult := hfirst before m after hms hm hread
      exact ⟨hresult.1,(h.accept_silent hs hlive hread haccept).mpr hresult.2⟩

end sorted

end Buffered

end Dominion.Framework
