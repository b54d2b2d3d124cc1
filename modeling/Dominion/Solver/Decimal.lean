import Dominion.Framework.Addresses
import Dominion.Solver.Target

/-! # Decimal numbers

What `strconv.Itoa` prints is read back by `strconv.Atoi`. -/
namespace Dominion.Solver

open Dominion.Framework
open Dominion.Deploy.Domain (isDigit)

theorem isDigit_of_mem {n : Nat} {c : Char} (h : c ∈ n.repr.toList) : isDigit c = true := by
  have hdigit := isDigit_of_mem_repr h
  simp only [Char.isDigit,Bool.and_eq_true,decide_eq_true_eq] at hdigit
  simp only [isDigit,Bool.and_eq_true,decide_eq_true_eq]
  exact hdigit

/-- A printed number is read back. -/
theorem digitsValue_repr (n : Nat) : digitsValue n.repr.toList = some n := by
  have hdigits : n.repr.toList ≠ [] ∧ n.repr.toList.all isDigit = true := by
    constructor
    · rw [Nat.repr,String.toList_ofList]
      exact Nat.toDigits_ne_nil
    · rw [List.all_eq_true]
      intro c hc
      exact isDigit_of_mem hc
  rw [digitsValue,if_pos hdigits]
  apply congrArg
  calc n.repr.toList.foldl (fun n c => 10 * n + (c.toNat - 48)) 0
      = Nat.ofDigitChars 10 n.repr.toList 0 := Nat.ofDigitChars_eq_foldl.symm
    _ = n := by
      rw [Nat.repr,String.toList_ofList]
      exact Nat.ofDigitChars_ten_toDigits

/-- No sign at the front. -/
def Unmarked (cs : List Char) : Prop :=
  cs.head? ≠ some '-' ∧ cs.head? ≠ some '+'

theorem unmarked_of_digits {cs : List Char} (h : ∀ c ∈ cs, isDigit c = true) : Unmarked cs := by
  constructor
  · intro hc
    exact absurd (h '-' (List.mem_of_head? hc)) (by decide)
  · intro hc
    exact absurd (h '+' (List.mem_of_head? hc)) (by decide)

theorem atoi_unmarked {s : String} (h : Unmarked s.toList) : atoi s =
    ((digitsValue s.toList).map Int.ofNat).filter fun n =>
      decide (-9223372036854775808 ≤ n ∧ n ≤ 9223372036854775807) := by
  unfold atoi
  dsimp only
  split
  · rename_i hcs
    exact absurd (by rw [hcs]; rfl) h.1
  · rename_i hcs
    exact absurd (by rw [hcs]; rfl) h.2
  · rfl

/-- A printed number that fits in an `int` is read back. -/
theorem atoi_repr {n : Nat} (hn : n < 9223372036854775808) : atoi n.repr = some (n : Int) := by
  have hplain : Unmarked n.repr.toList := unmarked_of_digits fun c hc => isDigit_of_mem hc
  rw [atoi_unmarked hplain,digitsValue_repr,Option.map_some,Option.filter_some,if_pos]
  · rfl
  · simp only [decide_eq_true_eq,Int.ofNat_eq_natCast]
    omega

end Dominion.Solver
