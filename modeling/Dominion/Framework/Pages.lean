import Mathlib.Data.List.Basic

/-! # Paged lists

A call answers with a page and, unless it was the last one, with the token of the next. -/
namespace Dominion.Framework.Pages

universe u v w

variable {α : Type u} {τ : Type v} {ε : Type w}

/-- The pages that a client gets when it follows the tokens from a given one on. -/
inductive Walk (call : Option τ → Except ε (List α × Option τ)) : Option τ → List (List α) → Prop
  | last {token : Option τ} {page : List α} : call token = .ok (page,none) → Walk call token [page]
  | more {token : Option τ} {next : τ} {page : List α} {pages : List (List α)} :
    call token = .ok (page,some next) → Walk call (some next) pages →
    Walk call token (page :: pages)

variable {call : Option τ → Except ε (List α × Option τ)} {token : Option τ} {all : List α}

/-- The first call of a walk succeeds. -/
theorem Walk.ok {pages : List (List α)} (h : Walk call token pages) :
    ∃ page next, call token = .ok (page,next) := by
  cases h with
  | last hcall => exact ⟨_,_,hcall⟩
  | more hcall _ => exact ⟨_,_,hcall⟩

/-- A walk goes on at the token that a call answered. -/
theorem Walk.next {pages : List (List α)} {page : List α} {next : τ} (h : Walk call token pages)
    (hcall : call token = .ok (page,some next)) : ∃ rest, Walk call (some next) rest := by
  cases h with
  | last hlast =>
    rw [hlast] at hcall
    simp at hcall
  | more hmore hrest =>
    rw [hmore] at hcall
    simp only [Except.ok.injEq,Prod.mk.injEq,Option.some.injEq] at hcall
    exact ⟨_,hcall.2 ▸ hrest⟩

/-- A walk is determined by its calls. -/
theorem Walk.unique {pages pages' : List (List α)} (h : Walk call token pages)
    (h' : Walk call token pages') : pages = pages' := by
  induction h generalizing pages' with
  | last hcall =>
    cases h' with
    | last hcall' =>
      rw [hcall] at hcall'
      simpa using hcall'
    | more hcall' _ =>
      rw [hcall] at hcall'
      simp at hcall'
  | more hcall _ ih =>
    cases h' with
    | last hcall' =>
      rw [hcall] at hcall'
      simp at hcall'
    | more hcall' hrest =>
      rw [hcall] at hcall'
      simp only [Except.ok.injEq,Prod.mk.injEq,Option.some.injEq] at hcall'
      obtain ⟨rfl,rfl⟩ := hcall'
      rw [ih hrest]

/-- The tokens stand for positions in a list, and each call answers with a slice of it. -/
structure Slices (call : Option τ → Except ε (List α × Option τ)) (all : List α)
    (At : Option τ → Nat → Prop) : Prop where
  last : ∀ token n, At token n → n ≤ all.length →
    call token = .ok (all.drop n,none) ∨
      ∃ k next, 0 < k ∧ n + k < all.length ∧ At (some next) (n + k) ∧
        call token = .ok ((all.drop n).take k,some next)

/-- A walk over slices yields the whole list, from the position where it starts. -/
theorem Slices.walk {At : Option τ → Nat → Prop} (h : Slices call all At) {n : Nat}
    (hat : At token n) (hn : n ≤ all.length) :
    ∃ pages, Walk call token pages ∧ pages.flatten = all.drop n := by
  induction hleft : all.length - n using Nat.strongRecOn generalizing token n with
  | _ left ih =>
    rcases h.last token n hat hn with hcall | hcall
    · exact ⟨[all.drop n],.last hcall,by simp⟩
    · obtain ⟨k,next,hk,hmore,hnext,hcall⟩ := hcall
      obtain ⟨pages,hwalk,hpages⟩ :=
        ih (all.length - (n + k)) (by omega) hnext (by omega) rfl
      refine ⟨(all.drop n).take k :: pages,.more hcall hwalk,?_⟩
      rw [List.flatten_cons,hpages,← List.drop_drop]
      exact List.take_append_drop k (all.drop n)

/-- Every page of a walk that starts before the end has an element. -/
theorem Slices.ne_nil {At : Option τ → Nat → Prop} (h : Slices call all At) {n : Nat}
    {pages : List (List α)} (hat : At token n) (hn : n < all.length) (hwalk : Walk call token pages) :
    ∀ page ∈ pages, page ≠ [] := by
  induction hwalk generalizing n with
  | last hcall =>
    intro page hpage
    rw [List.mem_singleton.mp hpage]
    rcases h.last _ n hat (Nat.le_of_lt hn) with hlast | ⟨k,next,-,-,-,hmore⟩
    · rw [hcall] at hlast
      cases hlast
      simpa using hn
    · rw [hcall] at hmore
      cases hmore
  | more hcall _ ih =>
    rcases h.last _ n hat (Nat.le_of_lt hn) with hlast | ⟨k,next,hk,hlt,hnext,hmore⟩
    · rw [hcall] at hlast
      cases hlast
    · rw [hcall] at hmore
      cases hmore
      intro page hpage
      rcases List.mem_cons.mp hpage with rfl | hpage
      · apply List.ne_nil_of_length_pos
        rw [List.length_take,List.length_drop]
        omega
      · exact ih hnext hlt page hpage

end Dominion.Framework.Pages
