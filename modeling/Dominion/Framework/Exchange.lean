import Mathlib.Data.List.Basic

/-! # Programs that call and wait

A program makes calls, each an event, and goes on with what is answered.  The answers of a run are a
list: a program that still waits when the list ends was cut off. -/
namespace Dominion.Framework

universe u

variable {ε ρ α β : Type}

def Exchange (ε ρ α : Type) : Type :=
  List ρ → List ε × Option (α × List ρ)

namespace Exchange

instance : Monad (Exchange ε ρ) where
  pure a answers := ([],some (a,answers))
  bind m f answers :=
    match m answers with
    | (events,none) => (events,none)
    | (events,some (a,rest)) => (events ++ (f a rest).1,(f a rest).2)

/-- An event that nothing is waited for. -/
def tell (event : ε) : Exchange ε ρ Unit :=
  fun answers => ([event],some ((),answers))

/-- A call; the event shows its answer, if one came. -/
def ask (event : Option ρ → ε) : Exchange ε ρ ρ
  | [] => ([event none],none)
  | answer :: rest => ([event (some answer)],some (answer,rest))

/-- The same call is made until an answer settles it. -/
def poll (event : Option ρ → ε) (settled : ρ → Option α) : Exchange ε ρ α
  | [] => ([event none],none)
  | answer :: rest =>
    match settled answer with
    | some a => ([event (some answer)],some (a,rest))
    | none => (event (some answer) :: (poll event settled rest).1,(poll event settled rest).2)

/-! ## What a program does -/

/-- Every event of a run meets `P`, and a run that returns has its events and its value in `Q`. -/
def Meets (P : ε → Prop) (Q : List ε → α → Prop) (m : Exchange ε ρ α) : Prop :=
  ∀ answers, (∀ e ∈ (m answers).1, P e) ∧
    ∀ a rest, (m answers).2 = some (a,rest) → Q (m answers).1 a

variable {P : ε → Prop} {Q : List ε → α → Prop} {R : List ε → β → Prop}

theorem Meets.pure {a : α} (h : Q [] a) : Meets P Q (Pure.pure a : Exchange ε ρ α) := by
  intro answers
  refine ⟨fun e he => (List.not_mem_nil he).elim,?_⟩
  intro b rest hb
  cases hb
  exact h

theorem Meets.tell {event : ε} {Q : List ε → Unit → Prop} (hP : P event) (hQ : Q [event] ()) :
    Meets P Q (tell event : Exchange ε ρ Unit) := by
  intro answers
  refine ⟨fun e he => by rwa [List.mem_singleton.mp he],?_⟩
  intro _ rest _
  exact hQ

theorem Meets.ask {event : Option ρ → ε} {Q : List ε → ρ → Prop} (hP : ∀ answer, P (event answer))
    (hQ : ∀ answer, Q [event (some answer)] answer) : Meets P Q (ask event) := by
  intro answers
  cases answers with
  | nil => exact ⟨fun e he => by rw [List.mem_singleton.mp he]; exact hP none,nofun⟩
  | cons answer rest =>
    refine ⟨fun e he => by rw [List.mem_singleton.mp he]; exact hP _,?_⟩
    intro b left hb
    cases hb
    exact hQ answer

/-- A settled poll ends with the call that settled it. -/
theorem Meets.poll {event : Option ρ → ε} {settled : ρ → Option α} (hP : ∀ answer, P (event answer))
    (hQ : ∀ before answer a, settled answer = some a → Q (before ++ [event (some answer)]) a) :
    Meets P Q (poll event settled) := by
  intro answers
  induction answers generalizing Q with
  | nil => exact ⟨fun e he => by rw [List.mem_singleton.mp he]; exact hP none,nofun⟩
  | cons answer rest ih =>
    unfold Exchange.poll
    split
    · rename_i a ha
      refine ⟨fun e he => by rw [List.mem_singleton.mp he]; exact hP _,?_⟩
      intro b left hb
      cases hb
      exact hQ [] answer a ha
    · obtain ⟨hevents,hreturn⟩ := ih (Q := fun es a => Q (event (some answer) :: es) a)
        fun before answer' a ha => hQ (event (some answer) :: before) answer' a ha
      refine ⟨?_,hreturn⟩
      intro e he
      rcases List.mem_cons.mp he with rfl | he
      · exact hP _
      · exact hevents e he

private theorem bind_cut {m : Exchange ε ρ α} {f : α → Exchange ε ρ β} {answers : List ρ}
    {events : List ε} (h : m answers = (events,none)) : (m >>= f) answers = (events,none) := by
  change (match m answers with
    | (events,none) => (events,none)
    | (events,some (a,rest)) => (events ++ (f a rest).1,(f a rest).2)) = _
  rw [h]

private theorem bind_returned {m : Exchange ε ρ α} {f : α → Exchange ε ρ β} {answers rest : List ρ}
    {events : List ε} {a : α} (h : m answers = (events,some (a,rest))) :
    (m >>= f) answers = (events ++ (f a rest).1,(f a rest).2) := by
  change (match m answers with
    | (events,none) => (events,none)
    | (events,some (a,rest)) => (events ++ (f a rest).1,(f a rest).2)) = _
  rw [h]

theorem Meets.bind {m : Exchange ε ρ α} {f : α → Exchange ε ρ β} (hm : Meets P Q m)
    (hf : ∀ es a, Q es a → Meets P (fun es' b => R (es ++ es') b) (f a)) :
    Meets P R (m >>= f) := by
  intro answers
  obtain ⟨hevents,hreturn⟩ := hm answers
  rcases hrun : m answers with ⟨events,_ | ⟨a,rest⟩⟩
  · rw [bind_cut hrun]
    rw [hrun] at hevents
    exact ⟨hevents,nofun⟩
  · rw [bind_returned hrun]
    rw [hrun] at hevents hreturn
    obtain ⟨hevents',hreturn'⟩ := hf events a (hreturn a rest rfl) rest
    refine ⟨?_,hreturn'⟩
    intro e he
    rcases List.mem_append.mp he with he | he
    · exact hevents e he
    · exact hevents' e he

theorem Meets.imp {Q' : List ε → α → Prop} {m : Exchange ε ρ α} (hm : Meets P Q m)
    (h : ∀ es a, Q es a → Q' es a) : Meets P Q' m :=
  fun answers => ⟨(hm answers).1,fun a rest hrun => h _ _ ((hm answers).2 a rest hrun)⟩

end Exchange

/-! ## Around an event -/

/-- Every event stands between events as `C` asks. -/
def Everywhere (C : List ε → ε → List ε → Prop) (events : List ε) : Prop :=
  ∀ before e after, events = before ++ e :: after → C before e after

section everywhere

variable {C : List ε → ε → List ε → Prop} {events events' : List ε}

theorem Everywhere.nil : Everywhere C ([] : List ε) := by
  intro before e after h
  cases before <;> cases h

theorem Everywhere.append (h : Everywhere C events) (h' : Everywhere C events')
    (hafter : ∀ before e after, C before e after → C before e (after ++ events'))
    (hbefore : ∀ before e after, C before e after → C (events ++ before) e after) :
    Everywhere C (events ++ events') := by
  intro before e after happend
  rcases List.append_eq_append_iff.mp happend with ⟨mid,rfl,hrest⟩ | ⟨mid,hevents,hmid⟩
  · exact hbefore mid e after (h' mid e after hrest)
  · cases mid with
    | nil =>
      have hself := hbefore [] e after (h' [] e after hmid.symm)
      rwa [List.append_nil,hevents,List.append_nil] at hself
    | cons x mid =>
      obtain ⟨rfl,rfl⟩ := List.cons_eq_cons.mp hmid
      exact hafter before e mid (h before e mid hevents)

end everywhere

end Dominion.Framework
