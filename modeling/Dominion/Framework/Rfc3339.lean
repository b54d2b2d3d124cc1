import Mathlib.Data.List.DropRight
import Dominion.Framework.Calendar

/-! # RFC 3339 with nanoseconds

The text of an instant in UTC, with the trailing zeros of the fraction dropped, and the reader of
such texts.  Instants are nanoseconds since 1970. -/
namespace Dominion.Framework.Rfc3339

open Dominion.Framework.Calendar

def digit? (c : Char) : Option Nat :=
  if '0' ≤ c ∧ c ≤ '9' then some (c.toNat - 48) else none

def isDigit (c : Char) : Bool :=
  (digit? c).isSome

def fixedDigits : Nat → Nat → List Char
  | 0,_ => []
  | w + 1,n => fixedDigits w (n / 10) ++ [Nat.digitChar (n % 10)]

def digitsVal (cs : List Char) : Option Nat :=
  cs.foldlM (fun n c => (digit? c).map fun d => 10 * n + d) 0

/-! ## Writing -/

def nanosPerDay : Int := 86400000000000

/-- The first of January 1970. -/
def epochDay : Int := 719528

def dateOf (t : Int) : Date :=
  Date.ofDays (t / nanosPerDay + epochDay)

/-- At least four digits. -/
def formatYear (y : Int) : List Char :=
  let ds := if y.natAbs < 10000 then fixedDigits 4 y.natAbs else Nat.toDigits 10 y.natAbs
  if y < 0 then '-' :: ds else ds

def formatFraction (nanos : Nat) : List Char :=
  let ds := (fixedDigits 9 nanos).rdropWhile fun c => c = '0'
  if ds.isEmpty then [] else '.' :: ds

def format (t : Int) : String :=
  let date := dateOf t
  let nanos := (t % nanosPerDay).toNat
  let seconds := nanos / 1000000000
  String.ofList (formatYear date.year ++ '-' :: (fixedDigits 2 date.month ++
    '-' :: (fixedDigits 2 date.day ++ 'T' :: (fixedDigits 2 (seconds / 3600) ++
    ':' :: (fixedDigits 2 (seconds / 60 % 60) ++ ':' :: (fixedDigits 2 (seconds % 60) ++
    (formatFraction (nanos % 1000000000) ++ ['Z'])))))))

/-! ## Reading -/

def expect (c : Char) : List Char → Option (List Char)
  | [] => none
  | d :: cs => if d = c then some cs else none

/-- A number of exactly `w` digits. -/
def number (w : Nat) (cs : List Char) : Option (Nat × List Char) :=
  if cs.length < w then none else (digitsVal (cs.take w)).map fun n => (n,cs.drop w)

/-- A number of one or two digits. -/
def hourNumber (cs : List Char) : Option (Nat × List Char) :=
  if (cs[1]?).any isDigit then number 2 cs else number 1 cs

/-- A fraction is optional; digits beyond the nanoseconds are dropped. -/
def fraction : List Char → Nat × List Char
  | [] => (0,[])
  | c :: cs =>
    if (c = '.' ∨ c = ',') ∧ cs.head?.any isDigit then
      let ds := (cs.takeWhile isDigit).take 9
      ((digitsVal ds).getD 0 * 10 ^ (9 - ds.length),cs.dropWhile isDigit)
    else (0,c :: cs)

/-- The offset of the zone in seconds. -/
def zone : List Char → Option (Int × List Char)
  | [] => none
  | 'Z' :: cs => some (0,cs)
  | sign :: cs => do
    let (hours,cs) ← number 2 cs
    let cs ← expect ':' cs
    let (minutes,cs) ← number 2 cs
    let offset : Int := (hours * 60 + minutes) * 60
    if 24 < hours ∨ 60 < minutes then none
    else if sign = '+' then some (offset,cs)
    else if sign = '-' then some (-offset,cs)
    else none

/-- Seconds of a day, with their fraction. -/
def clock (cs : List Char) : Option (Nat × Nat × List Char) := do
  let (hour,cs) ← hourNumber cs
  let cs ← expect ':' cs
  let (minute,cs) ← number 2 cs
  let cs ← expect ':' cs
  let (second,cs) ← number 2 cs
  let (nanos,cs) := fraction cs
  if 24 ≤ hour ∨ 60 ≤ minute ∨ 60 ≤ second then none
  else some ((hour * 60 + minute) * 60 + second,nanos,cs)

def date (cs : List Char) : Option (Date × List Char) := do
  let (year,cs) ← number 4 cs
  let cs ← expect '-' cs
  let (month,cs) ← number 2 cs
  let cs ← expect '-' cs
  let (day,cs) ← number 2 cs
  let date : Date := ⟨year,month,day⟩
  if date.Valid then some (date,cs) else none

def parse (s : String) : Option Int := do
  let (date,cs) ← date s.toList
  let cs ← expect 'T' cs
  let (seconds,nanos,cs) ← clock cs
  let (offset,cs) ← zone cs
  if cs.isEmpty then
    some (((date.toDays - epochDay) * 86400 + seconds - offset) * 1000000000 + nanos)
  else none

/-! ## Reading what was written -/

private theorem digit?_digitChar {n : Nat} (h : n < 10) : digit? (Nat.digitChar n) = some n := by
  revert n
  decide

private theorem length_fixedDigits (w n : Nat) : (fixedDigits w n).length = w := by
  induction w generalizing n with
  | zero => rfl
  | succ w ih => rw [fixedDigits,List.length_append,ih,List.length_singleton]

private theorem digitsVal_snoc (cs : List Char) (c : Char) :
    digitsVal (cs ++ [c]) = (digitsVal cs).bind fun n => (digit? c).map fun d => 10 * n + d := by
  simp only [digitsVal,List.foldlM_append,List.foldlM_cons,List.foldlM_nil]
  congr 1
  funext n
  cases digit? c <;> rfl

private theorem digitsVal_fixedDigits {w n : Nat} (h : n < 10 ^ w) :
    digitsVal (fixedDigits w n) = some n := by
  induction w generalizing n with
  | zero =>
    have hn : n = 0 := by omega
    rw [hn]
    rfl
  | succ w ih =>
    have hdiv : n / 10 < 10 ^ w := by
      rw [Nat.pow_succ] at h
      omega
    rw [fixedDigits,digitsVal_snoc,ih hdiv,digit?_digitChar (Nat.mod_lt n (by decide))]
    exact congrArg some (Nat.div_add_mod n 10)

private theorem number_fixedDigits {w n : Nat} (h : n < 10 ^ w) (rest : List Char) :
    number w (fixedDigits w n ++ rest) = some (n,rest) := by
  have hlen : (fixedDigits w n).length = w := length_fixedDigits w n
  have hnot : ¬(fixedDigits w n ++ rest).length < w := by
    rw [List.length_append]
    omega
  rw [number,if_neg hnot,List.take_left' hlen,List.drop_left' hlen,digitsVal_fixedDigits h]
  rfl

private theorem isDigit_fixedDigits (w n : Nat) : ∀ c ∈ fixedDigits w n, isDigit c = true := by
  induction w generalizing n with
  | zero =>
    intro c hc
    cases hc
  | succ w ih =>
    intro c hc
    rw [fixedDigits,List.mem_append] at hc
    rcases hc with hc | hc
    · exact ih (n / 10) c hc
    · rw [List.mem_singleton] at hc
      rw [hc,isDigit,digit?_digitChar (Nat.mod_lt n (by decide))]
      rfl

private theorem hourNumber_fixedDigits {n : Nat} (h : n < 100) (rest : List Char) :
    hourNumber (fixedDigits 2 n ++ rest) = some (n,rest) := by
  have hsecond : isDigit (Nat.digitChar (n % 10)) = true :=
    isDigit_fixedDigits 2 n _ (by simp [fixedDigits])
  have hdigit : ((fixedDigits 2 n ++ rest)[1]?).any isDigit = true := hsecond
  rw [hourNumber,if_pos hdigit]
  exact number_fixedDigits h rest

@[simp] theorem expect_self (c : Char) (cs : List Char) : expect c (c :: cs) = some cs :=
  if_pos rfl

/-- Zeros at the end of the digits scale their value. -/
theorem digitsVal_append_zeros (cs : List Char) (k : Nat) :
    digitsVal (cs ++ List.replicate k '0') = (digitsVal cs).map fun n => n * 10 ^ k := by
  induction k with
  | zero => simp
  | succ k ih =>
    rw [List.replicate_succ',← List.append_assoc,digitsVal_snoc,ih]
    cases digitsVal cs with
    | none => rfl
    | some n =>
      show some (10 * (n * 10 ^ k) + 0) = some (n * 10 ^ (k + 1))
      rw [Nat.pow_succ,Nat.add_zero,Nat.mul_comm 10,Nat.mul_assoc]

/-- What is dropped at the end is zeros. -/
theorem rdropWhile_append_zeros (cs : List Char) :
    ∃ k, cs = (cs.rdropWhile fun c => c = '0') ++ List.replicate k '0' := by
  induction cs using List.reverseRecOn with
  | nil => exact ⟨0,rfl⟩
  | append_singleton cs c ih =>
    by_cases hc : c = '0'
    · obtain ⟨k,hk⟩ := ih
      rw [List.rdropWhile_concat_pos _ _ _ (by simpa using hc)]
      refine ⟨k + 1,?_⟩
      rw [List.replicate_succ',← List.append_assoc,← hk,hc]
    · rw [List.rdropWhile_concat_neg _ _ _ (by simpa using hc)]
      exact ⟨0,(List.append_nil _).symm⟩

private theorem fraction_formatFraction {nanos : Nat} (h : nanos < 10 ^ 9) (rest : List Char) :
    fraction (formatFraction nanos ++ 'Z' :: rest) = (nanos,'Z' :: rest) := by
  obtain ⟨k,hk⟩ := rdropWhile_append_zeros (fixedDigits 9 nanos)
  have hval := digitsVal_fixedDigits h
  have hlen := length_fixedDigits 9 nanos
  have hdigits := isDigit_fixedDigits 9 nanos
  rw [formatFraction]
  generalize (fixedDigits 9 nanos).rdropWhile (fun c => c = '0') = ds at hk
  rw [hk] at hval hlen hdigits
  rw [digitsVal_append_zeros] at hval
  obtain ⟨v,hv,hscaled⟩ := Option.map_eq_some_iff.mp hval
  rw [List.length_append,List.length_replicate] at hlen
  have hall : ∀ c ∈ ds, isDigit c = true := fun c hc => hdigits c (List.mem_append_left _ hc)
  cases ds with
  | nil =>
    cases hv
    rw [← hscaled]
    simp [fraction]
  | cons d ds =>
    have htake : ((d :: ds) ++ 'Z' :: rest).takeWhile isDigit = d :: ds := by
      rw [List.takeWhile_append_of_pos hall]
      simp [isDigit,digit?]
    have hdrop : ((d :: ds) ++ 'Z' :: rest).dropWhile isDigit = 'Z' :: rest := by
      rw [List.dropWhile_append_of_pos hall]
      simp [isDigit,digit?]
    have hk9 : k = 9 - (d :: ds).length := by omega
    have hfirst : isDigit d = true := hall d List.mem_cons_self
    rw [List.isEmpty_cons]
    simp only [Bool.false_eq_true,if_false,List.cons_append] at htake hdrop ⊢
    rw [fraction]
    simp only [true_or,List.head?_cons,Option.any_some,hfirst,and_self,if_true,htake,hdrop]
    rw [List.take_of_length_le (by omega),hv,Option.getD_some,← hk9,hscaled]

private theorem number_formatYear {y : Int} (hlow : 0 ≤ y) (hhigh : y ≤ 9999) (rest : List Char) :
    number 4 (formatYear y ++ rest) = some (y.toNat,rest) := by
  have habs : y.natAbs = y.toNat := by omega
  have hlt : y.toNat < 10000 := by omega
  have hpos : ¬y < 0 := by omega
  rw [formatYear,habs]
  simp only [if_pos hlt,if_neg hpos]
  exact number_fixedDigits (by omega) rest

private theorem date_format {d : Date} (hvalid : d.Valid) (hlow : 0 ≤ d.year)
    (hhigh : d.year ≤ 9999) (rest : List Char) :
    date (formatYear d.year ++ '-' :: (fixedDigits 2 d.month ++
      '-' :: (fixedDigits 2 d.day ++ rest))) = some (d,rest) := by
  have hmonth : d.month < 10 ^ 2 := by
    have hmem := hvalid.1
    simp only [months,List.mem_cons,List.not_mem_nil,or_false] at hmem
    omega
  have hday : d.day < 10 ^ 2 := by
    have hle := hvalid.2.2
    have hin : daysIn d.year d.month ≤ 31 := by
      unfold daysIn
      split
      · split <;> omega
      · split <;> omega
    omega
  have hyear : ((d.year.toNat : Nat) : Int) = d.year := Int.toNat_of_nonneg hlow
  rw [date,number_formatYear hlow hhigh]
  simp only [Option.bind_eq_bind,Option.bind_some,expect_self,number_fixedDigits hmonth,
    number_fixedDigits hday,hyear]
  exact if_pos hvalid

private theorem clock_format {seconds nanos : Nat} (hseconds : seconds < 86400)
    (hnanos : nanos < 10 ^ 9) (rest : List Char) :
    clock (fixedDigits 2 (seconds / 3600) ++ ':' :: (fixedDigits 2 (seconds / 60 % 60) ++
      ':' :: (fixedDigits 2 (seconds % 60) ++ (formatFraction nanos ++ 'Z' :: rest)))) =
      some (seconds,nanos,'Z' :: rest) := by
  have hhour : seconds / 3600 < 24 := by omega
  have hminute : seconds / 60 % 60 < 60 := Nat.mod_lt _ (by decide)
  have hsecond : seconds % 60 < 60 := Nat.mod_lt _ (by decide)
  have hsum : (seconds / 3600 * 60 + seconds / 60 % 60) * 60 + seconds % 60 = seconds := by omega
  have hrange : ¬(24 ≤ seconds / 3600 ∨ 60 ≤ seconds / 60 % 60 ∨ 60 ≤ seconds % 60) := by omega
  rw [clock,hourNumber_fixedDigits (by omega)]
  simp only [Option.bind_eq_bind,Option.bind_some,expect_self,
    number_fixedDigits (show seconds / 60 % 60 < 10 ^ 2 by omega),
    number_fixedDigits (show seconds % 60 < 10 ^ 2 by omega),fraction_formatFraction hnanos,hsum,
    if_neg hrange]

/-- An instant of a four-digit year is read back. -/
theorem parse_format {t : Int} (hlow : 0 ≤ (dateOf t).year) (hhigh : (dateOf t).year ≤ 9999) :
    parse (format t) = some t := by
  obtain ⟨hvalid,hdays⟩ : (dateOf t).Valid ∧ (dateOf t).toDays = t / nanosPerDay + epochDay :=
    Date.valid_ofDays (t / nanosPerDay + epochDay)
  have hseconds : (t % nanosPerDay).toNat / 1000000000 < 86400 := by
    unfold nanosPerDay
    omega
  have hnanos : (t % nanosPerDay).toNat % 1000000000 < 10 ^ 9 := Nat.mod_lt _ (by decide)
  rw [parse,format,String.toList_ofList]
  dsimp only
  rw [date_format hvalid hlow hhigh]
  simp only [Option.bind_eq_bind,Option.bind_some,expect_self,clock_format hseconds hnanos,zone,
    List.isEmpty_nil,if_true,hdays]
  congr 1
  unfold nanosPerDay at *
  omega

end Dominion.Framework.Rfc3339
