import Mathlib.Logic.Function.Basic
import Dominion.Framework.Lts

/-! # Programs as call trees, and pools of them

A program is the tree of the calls it makes to its surroundings: between two calls it is a pure
function of the answers so far.  A pool runs any number of such programs against one shared
state, one call at a time, in any order. -/
namespace Dominion.Framework

inductive CallTree (Op : Type) (Ans : Op → Type) (α : Type) where
  | pure (a : α)
  | call (op : Op) (k : Ans op → CallTree Op Ans α)

namespace CallTree

variable {Op : Type} {Ans : Op → Type} {α β γ : Type}

def bind : CallTree Op Ans α → (α → CallTree Op Ans β) → CallTree Op Ans β
  | .pure a, f => f a
  | .call op k, f => .call op fun ans => (k ans).bind f

instance : Monad (CallTree Op Ans) where
  pure := CallTree.pure
  bind := CallTree.bind

/-- The program that makes one call and returns its answer. -/
def perform (op : Op) : CallTree Op Ans (Ans op) :=
  .call op .pure

/-- Every call the program can make is allowed. -/
def Uses (allowed : Op → Prop) : CallTree Op Ans α → Prop
  | .pure _ => True
  | .call op k => allowed op ∧ ∀ ans, Uses allowed (k ans)

theorem Uses.bind {allowed : Op → Prop} {c : CallTree Op Ans α} {f : α → CallTree Op Ans β}
    (hc : c.Uses allowed) (hf : ∀ a, (f a).Uses allowed) : (c >>= f).Uses allowed := by
  induction c with
  | pure a => exact hf a
  | call op k ih => exact ⟨hc.1,fun ans => ih ans (hc.2 ans)⟩

theorem Uses.perform {allowed : Op → Prop} {op : Op} (h : allowed op) :
    (CallTree.perform op : CallTree Op Ans (Ans op)).Uses allowed :=
  ⟨h,fun _ => trivial⟩

@[simp] theorem pure_eq (a : α) : (Pure.pure a : CallTree Op Ans α) = .pure a := rfl

@[simp] theorem pure_bind_eq (a : α) (f : α → CallTree Op Ans β) :
    (CallTree.pure a >>= f) = f a := rfl

@[simp] theorem call_bind_eq (op : Op) (k : Ans op → CallTree Op Ans α)
    (f : α → CallTree Op Ans β) :
    (CallTree.call op k >>= f) = .call op fun ans => k ans >>= f := rfl

end CallTree

/-- The surroundings of a pool: what a call of a thread may do to the shared state, and what
happens to the state by itself.  A `Choice` resolves the nondeterminism of a call. -/
structure Machine (Tid Op : Type) (Ans : Op → Type) (Choice Tick σ : Type) where
  exec : Tid → (op : Op) → Choice → σ → Option (Ans op × σ)
  tick : Tick → σ → Option σ

structure Pool (Tid Op : Type) (Ans : Op → Type) (α σ : Type) where
  world : σ
  threads : Tid → Option (CallTree Op Ans α)

namespace Pool

variable {Tid Op : Type} {Ans : Op → Type} {Choice Tick Req α σ : Type} [DecidableEq Tid]

inductive Label (Tid Req Choice Tick : Type) where
  | start (t : Tid) (request : Req)
  | call (t : Tid) (choice : Choice)
  | drop (t : Tid)
  | tick (e : Tick)

/-- The call a thread is about to make. -/
def next (s : Pool Tid Op Ans α σ) (t : Tid) : Option Op :=
  match s.threads t with
  | some (.call op _) => some op
  | _ => none

/-- What a thread returned. -/
def returned (s : Pool Tid Op Ans α σ) (t : Tid) : Option α :=
  match s.threads t with
  | some (.pure a) => some a
  | _ => none

variable (M : Machine Tid Op Ans Choice Tick σ)
  (program : Tid → Req → Option (CallTree Op Ans α))

def step (s : Pool Tid Op Ans α σ) : Label Tid Req Choice Tick → Option (Pool Tid Op Ans α σ)
  | .start t request =>
    match s.next t,program t request with
    | none,some c => some { s with threads := Function.update s.threads t (some c) }
    | _,_ => none
  | .call t choice =>
    match s.threads t with
    | some (.call op k) =>
      (M.exec t op choice s.world).map fun r =>
        ⟨r.2,Function.update s.threads t (some (k r.1))⟩
    | _ => none
  | .drop t => some { s with threads := Function.update s.threads t none }
  | .tick e => (M.tick e s.world).map fun w => { s with world := w }

/-- The pool of `program`'s threads that starts in the states `start`. -/
def system (start : σ → Prop) : Lts (Pool Tid Op Ans α σ) (Label Tid Req Choice Tick) where
  init s := start s.world ∧ s.threads = fun _ => none
  step := step M program

variable {M program} {start : σ → Prop} {allowed : Tid → Op → Prop}

/-- In every run each thread stands in a program that makes only the calls its programs may make. -/
theorem uses_of_reach (huses : ∀ t request c, program t request = some c → c.Uses (allowed t))
    {s : Pool Tid Op Ans α σ} (h : (system M program start).Reach s) :
    ∀ t c, s.threads t = some c → c.Uses (allowed t) := by
  have hupdate : ∀ (threads : Tid → Option (CallTree Op Ans α)) t d,
      (∀ t c, threads t = some c → c.Uses (allowed t)) →
      (∀ c, d = some c → c.Uses (allowed t)) →
      ∀ t' c, Function.update threads t d t' = some c → c.Uses (allowed t') := by
    intro threads t d hall hd t' c hc
    by_cases he : t' = t
    · subst t'
      exact hd c (by simpa only [Function.update_self] using hc)
    · exact hall t' c (by simpa only [Function.update_of_ne he] using hc)
  induction h with
  | init hs =>
    intro t c hc
    rw [hs.2] at hc
    cases hc
  | @step s s' l _ _ hstep ih =>
    cases l with
    | start t request =>
      simp only [system,step] at hstep
      split at hstep
      · rename_i c _ hc
        cases hstep
        exact hupdate _ t _ ih fun c' hc' => Option.some.inj hc' ▸ huses t request c hc
      · cases hstep
    | call t choice =>
      simp only [system,step] at hstep
      split at hstep
      · rename_i op k ht
        obtain ⟨r,-,rfl⟩ := Option.map_eq_some_iff.mp hstep
        exact hupdate _ t _ ih fun c' hc' => Option.some.inj hc' ▸ (ih t _ ht).2 r.1
      · cases hstep
    | drop t =>
      cases hstep
      exact hupdate _ t _ ih fun c' hc' => nomatch hc'
    | tick e =>
      obtain ⟨w,-,rfl⟩ := Option.map_eq_some_iff.mp hstep
      exact ih

theorem uses_next (huses : ∀ t request c, program t request = some c → c.Uses (allowed t))
    {s : Pool Tid Op Ans α σ} (h : (system M program start).Reach s) {t : Tid} {op : Op}
    (hop : s.next t = some op) : allowed t op := by
  unfold next at hop
  split at hop
  · rename_i op' k ht
    cases hop
    exact (uses_of_reach huses h t _ ht).1
  · cases hop

end Pool

end Dominion.Framework
