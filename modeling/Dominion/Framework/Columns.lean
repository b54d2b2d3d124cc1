import Mathlib.Data.List.Basic
import Mathlib.Data.String.Basic

/-! # Text in columns

Lines of slots that are right-aligned to one width and joined by single spaces.  Every slot keeps
its columns, and the words of a line are its slots. -/
namespace Dominion.Framework.Columns

/-- Right-aligned. -/
def pad (width : Nat) (s : String) : String :=
  String.ofList (List.replicate (width - s.length) ' ') ++ s

def line (width : Nat) (slots : List String) : String :=
  " ".intercalate (slots.map (pad width))

/-- The characters in the columns of a slot. -/
def slotAt (width k : Nat) (s : String) : List Char :=
  (s.toList.drop (k * (width + 1))).take width

/-- The pieces between runs of spaces. -/
def words (cs : List Char) : List (List Char) :=
  (cs.splitOn ' ').filter fun w => w ≠ []

section

variable {α : Type} {sep : α} {w : Nat} {ls : List (List α)}

private theorem length_intercalate (h : ∀ l ∈ ls, l.length = w) (hne : ls ≠ []) :
    ([sep].intercalate ls).length + 1 = ls.length * (w + 1) := by
  induction ls with
  | nil => exact absurd rfl hne
  | cons l ls ih =>
    have hl : l.length = w := h l List.mem_cons_self
    cases ls with
    | nil => simp [hl]
    | cons m ls =>
      have hrest := ih (fun x hx => h x (List.mem_cons_of_mem l hx)) (List.cons_ne_nil m ls)
      rw [List.intercalate_cons_of_ne_nil (List.cons_ne_nil m ls),List.length_append,
        List.length_append,List.length_singleton,hl,List.length_cons (a := l),Nat.succ_mul]
      omega

private theorem slot_intercalate (h : ∀ l ∈ ls, l.length = w) {k : Nat} {l : List α}
    (hk : ls[k]? = some l) : (([sep].intercalate ls).drop (k * (w + 1))).take w = l := by
  induction ls generalizing k with
  | nil => cases hk
  | cons m ls ih =>
    have hm : m.length = w := h m List.mem_cons_self
    have htake : ∀ rest : List α, (m ++ rest).take w = m := fun rest => List.take_left' hm
    cases k with
    | zero =>
      obtain rfl : m = l := by simpa using hk
      cases ls with
      | nil => simpa using htake []
      | cons n ls =>
        rw [List.intercalate_cons_of_ne_nil (List.cons_ne_nil n ls),Nat.zero_mul,List.drop_zero,
          List.append_assoc]
        exact htake _
    | succ k =>
      have hne : ls ≠ [] := by
        intro hnil
        rw [hnil] at hk
        simp at hk
      have hlen : (m ++ [sep]).length = w + 1 := by simp [hm]
      have hrest := ih (fun x hx => h x (List.mem_cons_of_mem m hx)) (by simpa using hk)
      rw [List.intercalate_cons_of_ne_nil hne,Nat.succ_mul,Nat.add_comm,← List.drop_drop,
        List.drop_left' hlen]
      exact hrest

end

variable {width : Nat} {slots : List String}

private theorem toList_pad (s : String) :
    (pad width s).toList = List.replicate (width - s.length) ' ' ++ s.toList := by
  simp [pad]

private theorem length_pad {s : String} (h : s.length ≤ width) :
    (pad width s).toList.length = width := by
  rw [toList_pad,List.length_append,List.length_replicate,String.length_toList]
  omega

private theorem toList_line : (line width slots).toList =
    [' '].intercalate (slots.map fun s => (pad width s).toList) := by
  simp [line,String.toList_intercalate,Function.comp_def]

theorem mem_line {c : Char} (h : c ∈ (line width slots).toList) :
    c = ' ' ∨ ∃ s ∈ slots, c ∈ s.toList := by
  rw [toList_line] at h
  induction slots with
  | nil => cases h
  | cons s slots ih =>
    have hpad : c ∈ (pad width s).toList → c = ' ' ∨ c ∈ s.toList := by
      intro hc
      rw [toList_pad,List.mem_append] at hc
      exact hc.imp_left List.eq_of_mem_replicate
    have hself : c ∈ (pad width s).toList → c = ' ' ∨ ∃ t ∈ s :: slots, c ∈ t.toList :=
      fun hc => (hpad hc).imp_right fun hs => ⟨s,List.mem_cons_self,hs⟩
    cases slots with
    | nil => exact hself (by simpa using h)
    | cons t slots =>
      rw [List.map_cons,List.intercalate_cons_of_ne_nil (by simp),List.mem_append,
        List.mem_append] at h
      rcases h with (hc | hc) | hc
      · exact hself hc
      · exact Or.inl (List.mem_singleton.mp hc)
      · refine (ih hc).imp_right fun hex => ?_
        obtain ⟨u,hu,hcu⟩ := hex
        exact ⟨u,List.mem_cons_of_mem s hu,hcu⟩

/-! ## Columns -/

theorem length_line (h : ∀ s ∈ slots, s.length ≤ width) (hne : slots ≠ []) :
    (line width slots).length + 1 = slots.length * (width + 1) := by
  have hall : ∀ l ∈ slots.map fun s => (pad width s).toList, l.length = width := by
    intro l hl
    obtain ⟨s,hs,rfl⟩ := List.mem_map.mp hl
    exact length_pad (h s hs)
  rw [← String.length_toList,toList_line,length_intercalate hall (by simpa using hne),
    List.length_map]

/-- A slot stands in its columns. -/
theorem slotAt_line (h : ∀ s ∈ slots, s.length ≤ width) {k : Nat} {s : String}
    (hk : slots[k]? = some s) : slotAt width k (line width slots) = (pad width s).toList := by
  have hall : ∀ l ∈ slots.map fun s => (pad width s).toList, l.length = width := by
    intro l hl
    obtain ⟨s,hs,rfl⟩ := List.mem_map.mp hl
    exact length_pad (h s hs)
  rw [slotAt,toList_line]
  exact slot_intercalate hall (by rw [List.getElem?_map,hk]; rfl)

/-! ## Words -/

private theorem words_space (cs : List Char) : words (' ' :: cs) = words cs := by
  have hsplit : (' ' :: cs).splitOn ' ' = [] :: cs.splitOn ' ' :=
    List.splitOn_append_cons_self [] cs
  rw [words,hsplit,List.filter_cons_of_neg (by simp)]
  rfl

private theorem words_append_space (as bs : List Char) :
    words (as ++ ' ' :: bs) = words as ++ words bs := by
  rw [words,List.splitOn_append_cons_self,List.filter_append]
  rfl

private theorem words_replicate (n : Nat) (cs : List Char) :
    words (List.replicate n ' ' ++ cs) = words cs := by
  induction n with
  | zero => rfl
  | succ n ih => rw [List.replicate_succ,List.cons_append,words_space,ih]

private theorem words_of_notMem {cs : List Char} (h : ' ' ∉ cs) :
    words cs = if cs = [] then [] else [cs] := by
  rw [words,List.splitOn_eq_singleton h]
  by_cases hnil : cs = []
  · simp [hnil]
  · simp [hnil]

/-- The words of a line are its slots, less the empty ones. -/
theorem words_line (h : ∀ s ∈ slots, ' ' ∉ s.toList) :
    words (line width slots).toList = (slots.filter fun s => s ≠ "").map String.toList := by
  rw [toList_line]
  induction slots with
  | nil => rfl
  | cons s slots ih =>
    have hs : words (pad width s).toList = ([s].filter fun s => s ≠ "").map String.toList := by
      rw [toList_pad,words_replicate,words_of_notMem (h s List.mem_cons_self)]
      by_cases hempty : s = ""
      · simp [hempty]
      · simp [hempty]
    have hsplit : ∀ rest : List String, ((s :: rest).filter fun s => s ≠ "").map String.toList =
        ([s].filter fun s => s ≠ "").map String.toList ++
          (rest.filter fun s => s ≠ "").map String.toList := by
      intro rest
      rw [← List.map_append,← List.filter_append]
      rfl
    cases slots with
    | nil => simpa using hs
    | cons t slots =>
      have hrest := ih fun x hx => h x (List.mem_cons_of_mem s hx)
      rw [List.map_cons,List.intercalate_cons_of_ne_nil (by simp),List.append_assoc,
        List.singleton_append,words_append_space,hs,hrest,hsplit (t :: slots)]

end Dominion.Framework.Columns
