import Mathlib.Data.List.Basic

/-! # Ownership of resources

Every live resource is held by exactly one owner, and nobody holds a dead one.  The rules say what
an acquisition, a transfer and a release preserve. -/
namespace Dominion.Framework

universe u v

variable {ω : Type u} {ρ : Type v}

structure Ownership (live : List ρ) (holds : ω → List ρ) : Prop where
  alive : ∀ o, ∀ r ∈ holds o, r ∈ live
  held : ∀ r ∈ live, ∃ o, r ∈ holds o
  unique : ∀ o o' r, r ∈ holds o → r ∈ holds o' → o = o'

/-- A live resource that nobody holds, and that nobody will therefore release. -/
def Orphaned (live : List ρ) (holds : ω → List ρ) : Prop :=
  ∃ r ∈ live, ∀ o, r ∉ holds o

/-- An orphan stays one if only held resources are released and only held or new ones are taken. -/
theorem Orphaned.step {live live' : List ρ} {holds holds' : ω → List ρ}
    (h : Orphaned live holds) (hkeep : ∀ r ∈ live, (∀ o, r ∉ holds o) → r ∈ live')
    (htake : ∀ o, ∀ r ∈ holds' o, (∃ o', r ∈ holds o') ∨ r ∉ live) : Orphaned live' holds' := by
  obtain ⟨r,hr,hfree⟩ := h
  refine ⟨r,hkeep r hr hfree,fun o ho => ?_⟩
  rcases htake o r ho with ⟨o',ho'⟩ | hnew
  · exact hfree o' ho'
  · exact hnew hr

namespace Ownership

variable {live live' : List ρ} {holds holds' : ω → List ρ}

theorem congr (h : Ownership live holds) (hsame : ∀ o, holds' o = holds o) :
    Ownership live holds' := by
  have hfun : holds' = holds := funext hsame
  rw [hfun]
  exact h

theorem acquire (h : Ownership live holds) (o : ω) {r : ρ} (hfresh : r ∉ live)
    (hself : holds' o = holds o ++ [r]) (hother : ∀ o', o' ≠ o → holds' o' = holds o') :
    Ownership (live ++ [r]) holds' := by
  have hmem : ∀ o' x, x ∈ holds' o' ↔ x ∈ holds o' ∨ (o' = o ∧ x = r) := by
    intro o' x
    by_cases ho : o' = o
    · subst ho
      rw [hself]
      simp
    · rw [hother o' ho]
      simp [ho]
  refine ⟨fun o' x hx => ?_,fun x hx => ?_,fun o₁ o₂ x h₁ h₂ => ?_⟩
  · rcases (hmem o' x).mp hx with hold | ⟨-,rfl⟩
    · exact List.mem_append_left _ (h.alive o' x hold)
    · simp
  · rcases List.mem_append.mp hx with hold | hnew
    · obtain ⟨o',ho'⟩ := h.held x hold
      exact ⟨o',(hmem o' x).mpr (Or.inl ho')⟩
    · exact ⟨o,(hmem o x).mpr (Or.inr ⟨rfl,List.mem_singleton.mp hnew⟩)⟩
  · rcases (hmem o₁ x).mp h₁ with hold₁ | ⟨rfl,rfl⟩
    · rcases (hmem o₂ x).mp h₂ with hold₂ | ⟨-,rfl⟩
      · exact h.unique o₁ o₂ x hold₁ hold₂
      · exact absurd (h.alive o₁ _ hold₁) hfresh
    · rcases (hmem o₂ _).mp h₂ with hold₂ | ⟨rfl,-⟩
      · exact absurd (h.alive o₂ _ hold₂) hfresh
      · rfl

/-- An owner hands everything over to one that holds nothing. -/
theorem transfer (h : Ownership live holds) (o o' : ω) (hempty : holds o' = [])
    (hgive : holds' o = []) (hget : holds' o' = holds o)
    (hother : ∀ p, p ≠ o → p ≠ o' → holds' p = holds p) : Ownership live holds' := by
  -- What an owner holds now was held before, by itself or by the one that handed it over.
  have hfrom : ∀ p x, x ∈ holds' p → (p ≠ o ∧ p ≠ o' ∧ x ∈ holds p) ∨ (p = o' ∧ x ∈ holds o) := by
    intro p x hx
    by_cases hp : p = o
    · rw [hp,hgive] at hx
      cases hx
    · by_cases hp' : p = o'
      · exact Or.inr ⟨hp',hget ▸ hp' ▸ hx⟩
      · exact Or.inl ⟨hp,hp',hother p hp hp' ▸ hx⟩
  refine ⟨fun p x hx => ?_,fun x hx => ?_,fun p q x hp hq => ?_⟩
  · rcases hfrom p x hx with ⟨-,-,hold⟩ | ⟨-,hold⟩
    · exact h.alive p x hold
    · exact h.alive o x hold
  · obtain ⟨p,hp⟩ := h.held x hx
    by_cases hpo : p = o
    · exact ⟨o',hget ▸ hpo ▸ hp⟩
    · have hpo' : p ≠ o' := by
        rintro rfl
        rw [hempty] at hp
        cases hp
      exact ⟨p,(hother p hpo hpo').symm ▸ hp⟩
  · rcases hfrom p x hp with ⟨hpo,-,hold⟩ | ⟨rfl,hold⟩
    · rcases hfrom q x hq with ⟨-,-,hold'⟩ | ⟨-,hold'⟩
      · exact h.unique p q x hold hold'
      · exact absurd (h.unique p o x hold hold') hpo
    · rcases hfrom q x hq with ⟨hqo,-,hold'⟩ | ⟨rfl,-⟩
      · exact absurd (h.unique q o x hold' hold) hqo
      · rfl

theorem release [DecidableEq ρ] (h : Ownership live holds) (o : ω) (hself : holds' o = [])
    (hother : ∀ o', o' ≠ o → holds' o' = holds o') :
    Ownership (live.filter fun r => decide (r ∉ holds o)) holds' := by
  have hfrom : ∀ p x, x ∈ holds' p → p ≠ o ∧ x ∈ holds p := by
    intro p x hx
    by_cases hp : p = o
    · rw [hp,hself] at hx
      cases hx
    · exact ⟨hp,hother p hp ▸ hx⟩
  refine ⟨fun p x hx => ?_,fun x hx => ?_,fun p q x hp hq => ?_⟩
  · obtain ⟨hp,hold⟩ := hfrom p x hx
    refine List.mem_filter.mpr ⟨h.alive p x hold,decide_eq_true fun hmem => ?_⟩
    exact hp (h.unique p o x hold hmem)
  · obtain ⟨hlive,hnot⟩ := List.mem_filter.mp hx
    obtain ⟨p,hp⟩ := h.held x hlive
    have hpo : p ≠ o := by
      rintro rfl
      exact of_decide_eq_true hnot hp
    exact ⟨p,(hother p hpo).symm ▸ hp⟩
  · exact h.unique p q x (hfrom p x hp).2 (hfrom q x hq).2

theorem abandon (h : Ownership live holds) {o : ω} {r : ρ} (hr : r ∈ holds o)
    (hlive : ∀ x ∈ live, x ∈ live') (hself : r ∉ holds' o)
    (hother : ∀ o', o' ≠ o → ∀ x ∈ holds' o', x ∈ holds o') : Orphaned live' holds' := by
  refine ⟨r,hlive r (h.alive o r hr),fun o' hr' => ?_⟩
  by_cases ho : o' = o
  · exact hself (ho ▸ hr')
  · exact ho (h.unique o' o r (hother o' ho r hr') hr)

end Ownership

end Dominion.Framework
