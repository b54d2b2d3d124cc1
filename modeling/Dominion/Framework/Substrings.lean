import Mathlib.Data.List.Basic

/-! # Substrings

`strings.Split`, `strings.Count` and `strings.ReplaceAll` for a separator that is not empty: they
find its occurrences from the left, none overlapping another. -/
namespace Dominion.Framework.Substrings

/-- The pieces between the occurrences; `skip` characters of an occurrence are still to be passed,
and `acc` is the piece so far, in reverse. -/
def piecesFrom (sep : List Char) : Nat → List Char → List Char → List (List Char)
  | _,acc,[] => [acc.reverse]
  | skip + 1,acc,_ :: cs => piecesFrom sep skip acc cs
  | 0,acc,c :: cs =>
    if sep.isPrefixOf (c :: cs) then acc.reverse :: piecesFrom sep (sep.length - 1) [] cs
    else piecesFrom sep 0 (c :: acc) cs

def pieces (sep cs : List Char) : List (List Char) :=
  piecesFrom sep 0 [] cs

def count (sep cs : List Char) : Nat :=
  (pieces sep cs).length - 1

def replaceAll (sep new cs : List Char) : List Char :=
  new.intercalate (pieces sep cs)

variable {c : Char}

private theorem piecesFrom_skip (sep acc front rest : List Char) :
    piecesFrom sep front.length acc (front ++ rest) = piecesFrom sep 0 acc rest := by
  induction front with
  | nil => rfl
  | cons c front ih => exact ih

/-- No occurrence begins before the first character of the separator. -/
theorem piecesFrom_front {front : List Char} (h : ∀ d ∈ front, d ≠ c) (sep acc rest : List Char) :
    piecesFrom (c :: sep) 0 acc (front ++ rest) =
      piecesFrom (c :: sep) 0 (front.reverse ++ acc) rest := by
  induction front generalizing acc with
  | nil => rfl
  | cons d front ih =>
    have hd : (c :: sep).isPrefixOf (d :: (front ++ rest)) = false := by
      have hne : c ≠ d := (h d List.mem_cons_self).symm
      simp [List.isPrefixOf,hne]
    rw [List.cons_append,piecesFrom,if_neg (by simp [hd]),
      ih (fun e he => h e (List.mem_cons_of_mem _ he))]
    simp

theorem pieces_last {sep front : List Char} (h : ∀ d ∈ front, d ≠ c) :
    pieces (c :: sep) (front ++ c :: sep) = [front,[]] := by
  have hprefix : (c :: sep).isPrefixOf (c :: sep) = true :=
    List.isPrefixOf_iff_prefix.mpr List.prefix_rfl
  have hskip := piecesFrom_skip (c :: sep) [] sep []
  rw [List.append_nil] at hskip
  rw [pieces,piecesFrom_front h,piecesFrom,if_pos hprefix,List.append_nil,List.reverse_reverse]
  change front :: piecesFrom (c :: sep) sep.length [] sep = _
  rw [hskip]
  rfl

end Dominion.Framework.Substrings
