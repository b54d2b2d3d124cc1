import Mathlib.Data.List.Dedup
import Mathlib.Data.List.Sort
import Mathlib.Data.String.Basic

/-! # Addresses

`net.JoinHostPort` and `net.SplitHostPort`, which is its inverse on hosts without brackets, and
the sorted list of a set of addresses. -/
namespace Dominion.Framework

/-! ## Host and port -/

/-- `net.JoinHostPort`. -/
def joinHostPort (host port : String) : String :=
  if ':' ∈ host.toList then "[" ++ host ++ "]:" ++ port else host ++ ":" ++ port

/-- What stands before and after the last separator. -/
def cutLast (sep : Char) : List Char → Option (List Char × List Char)
  | [] => none
  | c :: cs =>
    match cutLast sep cs with
    | some (before,after) => some (c :: before,after)
    | none => if c = sep then some ([],cs) else none

/-- `net.SplitHostPort`; `none` is an error. -/
def splitHostPort (hostport : String) : Option (String × String) :=
  (cutLast ':' hostport.toList).bind fun cut =>
    let before := cut.1
    let port := cut.2
    if before.head? = some '[' then
      -- The first `]` has to be the character before the last colon.
      let host := before.tail.takeWhile (· ≠ ']')
      if before.tail.dropWhile (· ≠ ']') = [']'] then
        if '[' ∈ host ++ port ∨ ']' ∈ port then none
        else some (String.ofList host,String.ofList port)
      else none
    else if ':' ∈ before ∨ '[' ∈ before ++ port ∨ ']' ∈ before ++ port then none
    else some (String.ofList before,String.ofList port)

/-- No brackets, as in a host that has an address. -/
def Unbracketed (host : String) : Prop :=
  '[' ∉ host.toList ∧ ']' ∉ host.toList

private theorem cutLast_none {sep : Char} {cs : List Char} (h : sep ∉ cs) :
    cutLast sep cs = none := by
  induction cs with
  | nil => rfl
  | cons c cs ih =>
    simp only [List.mem_cons,not_or] at h
    rw [cutLast,ih h.2]
    simp [Ne.symm h.1]

theorem cutLast_append {sep : Char} {before after : List Char} (h : sep ∉ after) :
    cutLast sep (before ++ sep :: after) = some (before,after) := by
  induction before with
  | nil =>
    rw [List.nil_append,cutLast,cutLast_none h]
    simp
  | cons c before ih => rw [List.cons_append,cutLast,ih]

theorem takeWhile_ne_append {c : Char} {cs rest : List Char} (h : c ∉ cs) :
    (cs ++ c :: rest).takeWhile (· ≠ c) = cs := by
  rw [List.takeWhile_append_of_pos fun d hd => by simpa using fun he : d = c => h (he ▸ hd)]
  simp

theorem dropWhile_ne_append {c : Char} {cs rest : List Char} (h : c ∉ cs) :
    (cs ++ c :: rest).dropWhile (· ≠ c) = c :: rest := by
  rw [List.dropWhile_append_of_pos fun d hd => by simpa using fun he : d = c => h (he ▸ hd)]
  simp

theorem splitHostPort_joinHostPort {host port : String} (hhost : Unbracketed host)
    (hport : Unbracketed port) (hcolon : ':' ∉ port.toList) :
    splitHostPort (joinHostPort host port) = some (host,port) := by
  unfold joinHostPort
  split
  · have hlist : ("[" ++ host ++ "]:" ++ port).toList =
        ('[' :: (host.toList ++ [']'])) ++ ':' :: port.toList := by simp
    unfold splitHostPort
    rw [hlist,cutLast_append hcolon]
    simp only [Option.bind_some,List.head?_cons,if_true,List.tail_cons,
      takeWhile_ne_append hhost.2,dropWhile_ne_append hhost.2,List.mem_append,hhost.1,hport.1,
      hport.2,or_self,if_false,String.ofList_toList]
  · rename_i hhostcolon
    have hlist : (host ++ ":" ++ port).toList = host.toList ++ ':' :: port.toList := by simp
    have hhead : host.toList.head? ≠ some '[' := fun h => hhost.1 (List.mem_of_head? h)
    unfold splitHostPort
    rw [hlist,cutLast_append hcolon]
    simp only [Option.bind_some,hhead,if_false,hhostcolon,List.mem_append,hhost.1,hhost.2,hport.1,
      hport.2,or_self,String.ofList_toList]

/-! ## Numbers of ports -/

theorem isDigit_of_mem_repr {n : Nat} {c : Char} (h : c ∈ n.repr.toList) : c.isDigit = true := by
  rw [Nat.repr,String.toList_ofList] at h
  exact Nat.isDigit_of_mem_toDigits (by decide) (by decide) h

theorem repr_unbracketed (n : Int) : Unbracketed n.repr ∧ ':' ∉ n.repr.toList := by
  have hdigit : ∀ c ∈ n.repr.toList, c = '-' ∨ c.isDigit = true := by
    intro c hc
    rw [Int.repr_eq_if] at hc
    split at hc
    · exact .inr (isDigit_of_mem_repr hc)
    · rw [String.toList_append,List.mem_append] at hc
      rcases hc with hc | hc
      · exact .inl (by simpa using hc)
      · exact .inr (isDigit_of_mem_repr hc)
  have hno : ∀ c : Char, c ≠ '-' → c.isDigit = false → c ∉ (toString n).toList := by
    intro c hdash hc hmem
    rcases hdigit c hmem with he | he
    · exact hdash he
    · rw [hc] at he
      cases he
  exact ⟨⟨hno '[' (by decide) (by decide),hno ']' (by decide) (by decide)⟩,
    hno ':' (by decide) (by decide)⟩

/-! ## Sorted sets -/

/-- The sorted list of a set of strings. -/
def sortUnique (seen : List String) : List String :=
  seen.dedup.insertionSort (· ≤ ·)

@[simp] theorem mem_sortUnique {seen : List String} {x : String} :
    x ∈ sortUnique seen ↔ x ∈ seen := by
  rw [sortUnique,List.mem_insertionSort,List.mem_dedup]

private theorem sortUnique_nodup (seen : List String) : (sortUnique seen).Nodup :=
  (List.perm_insertionSort _ _).nodup_iff.mpr (List.nodup_dedup seen)

private theorem sortUnique_sorted (seen : List String) : (sortUnique seen).Pairwise (· ≤ ·) :=
  List.pairwise_insertionSort _ _

/-- Sets with the same elements have the same list. -/
theorem sortUnique_congr {xs ys : List String} (h : ∀ x, x ∈ xs ↔ x ∈ ys) :
    sortUnique xs = sortUnique ys := by
  have hperm : (sortUnique xs).Perm (sortUnique ys) := by
    rw [List.perm_ext_iff_of_nodup (sortUnique_nodup xs) (sortUnique_nodup ys)]
    simpa using h
  exact hperm.eq_of_pairwise (fun a b _ _ hab hba => le_antisymm hab hba) (sortUnique_sorted xs)
    (sortUnique_sorted ys)

theorem sortUnique_strict (seen : List String) : (sortUnique seen).Pairwise (· < ·) := by
  have hboth := (sortUnique_sorted seen).and (sortUnique_nodup seen)
  exact hboth.imp fun h => lt_of_le_of_ne h.1 h.2

end Dominion.Framework
