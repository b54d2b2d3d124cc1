import Mathlib.Algebra.Ring.Nat
import Mathlib.Data.List.Nodup

/-! # The proleptic Gregorian calendar

Days are counted from the first of January of the year 0. -/
namespace Dominion.Framework.Calendar

def isLeap (y : Int) : Bool :=
  decide (y % 4 = 0) && (decide (y % 100 ≠ 0) || decide (y % 400 = 0))

def daysIn (y : Int) (m : Nat) : Nat :=
  if m = 2 then if isLeap y then 29 else 28
  else if m = 4 ∨ m = 6 ∨ m = 9 ∨ m = 11 then 30
  else 31

def daysInYear (y : Int) : Nat :=
  if isLeap y then 366 else 365

/-- The day that the first of January of a year is. -/
def daysBeforeYear (y : Int) : Int :=
  365 * y + (y + 3) / 4 - (y + 99) / 100 + (y + 399) / 400

/-- The mean year is off by one at most. -/
def yearOf (day : Int) : Int :=
  let y := day * 400 / 146097
  if day < daysBeforeYear y then y - 1
  else if daysBeforeYear (y + 1) ≤ day then y + 1
  else y

/-- The days of the months before, of those in the list. -/
def daysBeforeMonth (y : Int) (m : Nat) (months : List Nat) : Nat :=
  ((months.takeWhile fun m' => m' ≠ m).map (daysIn y)).sum

/-- The month and the day of the month, of a day counted from the start of the first month. -/
def monthDay (y : Int) : List Nat → Nat → Nat × Nat
  | [],_ => (0,0)
  | m :: months,day =>
    if day < daysIn y m then (m,day + 1) else monthDay y months (day - daysIn y m)

def months : List Nat := [1,2,3,4,5,6,7,8,9,10,11,12]

structure Date where
  year : Int
  month : Nat
  day : Nat
  deriving DecidableEq, Repr

namespace Date

def Valid (d : Date) : Prop :=
  d.month ∈ months ∧ 1 ≤ d.day ∧ d.day ≤ daysIn d.year d.month

instance (d : Date) : Decidable d.Valid :=
  inferInstanceAs (Decidable (_ ∧ _ ∧ _))

def ofDays (day : Int) : Date :=
  let y := yearOf day
  let md := monthDay y months (day - daysBeforeYear y).toNat
  ⟨y,md.1,md.2⟩

def toDays (d : Date) : Int :=
  daysBeforeYear d.year + daysBeforeMonth d.year d.month months + (d.day - 1)

end Date

private theorem daysBeforeYear_succ (y : Int) :
    daysBeforeYear (y + 1) = daysBeforeYear y + daysInYear y := by
  unfold daysBeforeYear daysInYear isLeap
  by_cases h4 : y % 4 = 0
  · by_cases h100 : y % 100 = 0
    · by_cases h400 : y % 400 = 0
      · simp [h4,h100,h400]
        omega
      · simp [h4,h100,h400]
        omega
    · simp [h4,h100]
      omega
  · simp [h4]
    omega

/-- The year that a day lies in. -/
theorem yearOf_spec (day : Int) :
    daysBeforeYear (yearOf day) ≤ day ∧ day < daysBeforeYear (yearOf day) + daysInYear (yearOf day) := by
  rw [← daysBeforeYear_succ]
  have hlow : daysBeforeYear (day * 400 / 146097 - 1) ≤ day := by
    unfold daysBeforeYear
    omega
  have hhigh : day < daysBeforeYear (day * 400 / 146097 + 2) := by
    unfold daysBeforeYear
    omega
  unfold yearOf
  dsimp only
  split
  · rename_i h
    rw [Int.sub_add_cancel]
    exact ⟨hlow,h⟩
  · split
    · rename_i h
      refine ⟨h,?_⟩
      rw [Int.add_assoc]
      exact hhigh
    · rename_i hlt hle
      exact ⟨Int.not_lt.mp hlt,Int.not_le.mp hle⟩

private theorem sum_daysIn (y : Int) : (months.map (daysIn y)).sum = daysInYear y := by
  cases h : isLeap y <;> simp [months,daysIn,daysInYear,h]

/-- The month that a day of the listed months lies in. -/
theorem monthDay_spec {y : Int} {ms : List Nat} (hms : ms.Nodup) {day : Nat}
    (h : day < (ms.map (daysIn y)).sum) :
    (monthDay y ms day).1 ∈ ms ∧ 1 ≤ (monthDay y ms day).2 ∧
      (monthDay y ms day).2 ≤ daysIn y (monthDay y ms day).1 ∧
      daysBeforeMonth y (monthDay y ms day).1 ms + (monthDay y ms day).2 = day + 1 := by
  induction ms generalizing day with
  | nil => cases h
  | cons m ms ih =>
    rw [List.map_cons,List.sum_cons] at h
    obtain ⟨hm,hms⟩ := List.nodup_cons.mp hms
    rw [monthDay]
    by_cases hlt : day < daysIn y m
    · rw [if_pos hlt]
      refine ⟨List.mem_cons_self,Nat.le_add_left 1 day,hlt,?_⟩
      simp [daysBeforeMonth]
    · rw [if_neg hlt]
      obtain ⟨hmem,hpos,hle,hsum⟩ := ih hms (show day - daysIn y m < _ by omega)
      refine ⟨List.mem_cons_of_mem m hmem,hpos,hle,?_⟩
      have hne : m ≠ (monthDay y ms (day - daysIn y m)).1 := fun he => hm (he ▸ hmem)
      rw [daysBeforeMonth,List.takeWhile_cons_of_pos (by simpa using hne),List.map_cons,
        List.sum_cons]
      rw [daysBeforeMonth] at hsum
      omega

namespace Date

theorem valid_ofDays (day : Int) : (ofDays day).Valid ∧ (ofDays day).toDays = day := by
  obtain ⟨hle,hlt⟩ := yearOf_spec day
  have hday : (day - daysBeforeYear (yearOf day)).toNat <
      (months.map (daysIn (yearOf day))).sum := by
    rw [sum_daysIn]
    omega
  obtain ⟨hmem,hpos,hin,hsum⟩ := monthDay_spec (by decide) hday
  refine ⟨⟨hmem,hpos,hin⟩,?_⟩
  rw [toDays,ofDays]
  dsimp only
  omega

end Date

end Dominion.Framework.Calendar
