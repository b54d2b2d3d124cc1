import Mathlib.Data.List.Forall2

/-! # Fallible functions

What a computation in `Except` that succeeds went through. -/
namespace Dominion.Framework

universe u v w

variable {ε : Type u} {α : Type v} {β : Type v}

theorem ok_of_bind {x : Except ε α} {f : α → Except ε β} {b : β} (h : (x >>= f) = .ok b) :
    ∃ a, x = .ok a ∧ f a = .ok b := by
  cases x with
  | error e => cases h
  | ok a => exact ⟨a,rfl,h⟩

theorem bind_eq_ok {x : Except ε α} {f : α → Except ε β} {b : β} :
    (x >>= f) = .ok b ↔ ∃ a, x = .ok a ∧ f a = .ok b := by
  constructor
  · exact ok_of_bind
  · rintro ⟨a,rfl,hf⟩
    exact hf

theorem map_eq_ok {x : Except ε α} {f : α → β} {b : β} :
    x.map f = .ok b ↔ ∃ a, x = .ok a ∧ f a = b := by
  cases x <;> simp [Except.map]

theorem ok_of_toOption {x : Except ε α} {a : α} (h : x.toOption = some a) : x = .ok a := by
  cases x with
  | error e => cases h
  | ok b =>
    cases h
    rfl

theorem exists_bind {x : Except ε α} {f : α → Except ε β} (hx : ∃ a, x = .ok a)
    (hf : ∀ a, x = .ok a → ∃ b, f a = .ok b) : ∃ b, (x >>= f) = .ok b := by
  obtain ⟨a,ha⟩ := hx
  rw [ha]
  exact hf a ha

/-- A condition that must not hold. -/
def refuse (c : Prop) [Decidable c] (e : ε) : Except ε Unit :=
  if c then .error e else .ok ()

theorem refuse_eq_ok {c : Prop} [Decidable c] {e : ε} {u : Unit} (h : refuse c e = .ok u) : ¬c := by
  intro hc
  rw [refuse,if_pos hc] at h
  cases h

/-- A value that must be there. -/
def require (x : Option α) (e : ε) : Except ε α :=
  match x with
  | some a => .ok a
  | none => .error e

theorem require_eq_ok {x : Option α} {e : ε} {a : α} (h : require x e = .ok a) : x = some a := by
  cases x with
  | none => cases h
  | some y =>
    cases h
    rfl

theorem exists_require {x : Option α} {a : α} (h : x = some a) (e : ε) :
    ∃ b, require x e = .ok b := by
  rw [h]
  exact ⟨a,rfl⟩

theorem forall₂_of_mapM {γ : Type w} {f : γ → Except ε α} {xs : List γ} {ys : List α}
    (h : xs.mapM f = .ok ys) : List.Forall₂ (fun x y => f x = .ok y) xs ys := by
  induction xs generalizing ys with
  | nil =>
    cases h
    exact .nil
  | cons x xs ih =>
    rw [List.mapM_cons] at h
    obtain ⟨y,hy,hrest⟩ := ok_of_bind h
    obtain ⟨zs,hzs,hys⟩ := ok_of_bind hrest
    cases hys
    exact .cons hy (ih hzs)

theorem mapM_of_forall₂ {γ : Type w} {f : γ → Except ε α} {xs : List γ} {ys : List α}
    (h : List.Forall₂ (fun x y => f x = .ok y) xs ys) : xs.mapM f = .ok ys := by
  induction h with
  | nil => rfl
  | cons hx _ ih =>
    rw [List.mapM_cons,hx,ih]
    rfl

theorem exists_mapM {γ : Type w} {f : γ → Except ε α} {xs : List γ}
    (h : ∀ x ∈ xs, ∃ y, f x = .ok y) : ∃ ys, xs.mapM f = .ok ys := by
  induction xs with
  | nil => exact ⟨[],rfl⟩
  | cons x xs ih =>
    obtain ⟨⟨y,hy⟩,hxs⟩ := List.forall_mem_cons.mp h
    obtain ⟨ys,hys⟩ := ih hxs
    exact ⟨y :: ys,by rw [List.mapM_cons,hy,hys]; rfl⟩

theorem mapM_some {γ : Type w} {f : γ → Option α} {g : γ → α} {xs : List γ}
    (h : ∀ x ∈ xs, f x = some (g x)) : xs.mapM f = some (xs.map g) := by
  induction xs with
  | nil => rfl
  | cons x xs ih =>
    obtain ⟨hx,hxs⟩ := List.forall_mem_cons.mp h
    rw [List.mapM_cons,hx,ih hxs]
    rfl

/-! ## Lists of pairs -/

theorem exists_of_forall₂ {γ : Type u} {τ : Type v} {R : γ → τ → Prop} {xs : List γ} {ys : List τ}
    {y : τ} (h : List.Forall₂ R xs ys) (hy : y ∈ ys) : ∃ x ∈ xs, R x y := by
  induction h with
  | nil => cases hy
  | cons hhead _ ih =>
    rcases List.mem_cons.mp hy with rfl | hrest
    · exact ⟨_,List.mem_cons_self,hhead⟩
    · obtain ⟨x,hx,hxy⟩ := ih hrest
      exact ⟨x,List.mem_cons_of_mem _ hx,hxy⟩

end Dominion.Framework
