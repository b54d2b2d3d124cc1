import Dominion.Saolei.Hooks

/-! # The programme of hooks

What the registry is for is a list of named sources: a write puts a source in the place of its
name, at the end for a new name.  Every board change announces what the sources of the list return,
one after another. -/
namespace Dominion.Saolei.Hooks

open Dominion.Framework
open Dominion.Game (GameState)

/-! ## Programmes -/

inductive Write where
  | set (name source : JsString)
  | remove (name : JsString)

/-- Names and sources, in the order in which they run. -/
abbrev Programme := List (JsString × JsString)

namespace Programme

variable {σ : Type} (vm : Vm σ)

def has (p : Programme) (name : JsString) : Bool :=
  p.any fun hook => decide (hook.1 = name)

def compiles (source : JsString) : Bool :=
  match compileHookScript vm source with
  | .ok _ => true
  | .error _ => false

/-- The writes that are not refused. -/
def admits (p : Programme) : Write → Bool
  | .set name source => decide (JsString.trim name ≠ []) &&
      (p.has name || decide (p.length < maxHooks)) && compiles vm source
  | .remove name => p.has name

def apply (p : Programme) : Write → Programme
  | .set name source =>
    if p.has name then p.map fun hook => if hook.1 = name then (name,source) else hook
    else p ++ [(name,source)]
  | .remove name => p.filter fun hook => hook.1 ≠ name

def write (p : Programme) (w : Write) : Programme :=
  if p.admits vm w then p.apply w else p

/-- What the run of a hook announces. -/
def result (board : GameState) (hook : JsString × JsString) : Option JsString :=
  match compileHookScript vm hook.2 with
  | .ok script => announcementFor hook.1 (runHookScript vm script board)
  | .error _ => none

/-- The announcements up to the first whose relay throws. -/
def untilThrown (relay : Nat → Option JsString) : Nat → List JsString → List JsString
  | _,[] => []
  | k,text :: texts => text :: if (relay k).isSome then [] else untilThrown relay (k + 1) texts

def announces (relay : Nat → Option JsString) (board : GameState) (p : Programme) : List JsString :=
  untilThrown relay 0 (p.filterMap (result vm board))

end Programme

/-- The write that the arguments of a call ask for. -/
def writeOf (args : SaoleiHookToolArgs) : Option Write :=
  match normalizeCall args with
  | .ok (.set name source) => some (.set name source)
  | .ok (.remove name) => some (.remove name)
  | _ => none

/-! ## The registry of a programme -/

section registry

variable {σ : Type} {vm : Vm σ} {r r' : HookRegistry σ} {p : Programme}

def HookEntry.pair (e : HookEntry σ) : JsString × JsString :=
  (e.name,e.source)

/-- The registry holds the compiled hooks of the programme, in its order. -/
structure Holds (vm : Vm σ) (r : HookRegistry σ) (p : Programme) : Prop where
  programme : r.entries.map HookEntry.pair = p
  increasing : (r.entries.map HookEntry.order).Pairwise (· < ·)
  below : ∀ e ∈ r.entries, e.order < r.nextOrder
  distinct : (p.map Prod.fst).Nodup
  bounded : p.length ≤ maxHooks
  compiled : ∀ e ∈ r.entries, compileHookScript vm e.source = .ok e.script

namespace Holds

private theorem length (h : Holds vm r p) : r.entries.length = p.length := by
  rw [← h.programme,List.length_map]

private theorem ordered (h : Holds vm r p) : r.ordered = r.entries := by
  apply List.Pairwise.insertionSort_eq
  exact (List.pairwise_map.mp h.increasing).imp Nat.le_of_lt

private theorem any (h : Holds vm r p) (name : JsString) :
    (r.entries.any fun e => decide (e.name = name)) = p.has name := by
  rw [← h.programme,Programme.has,List.any_map]
  rfl

private theorem find_isNone (h : Holds vm r p) (name : JsString) :
    (r.entries.find? fun e => decide (e.name = name)).isNone = !p.has name := by
  rw [← h.any name,← List.isSome_find?]
  cases r.entries.find? fun e => decide (e.name = name) <;> rfl

/-- Another source under a name of the programme. -/
theorem replace (h : Holds vm r p) {e : HookEntry σ} {name source : JsString} {script : σ}
    (hfind : (r.entries.find? fun e => decide (e.name = name)) = some e)
    (hcompile : compileHookScript vm source = .ok script) :
    Holds vm { r with entries := r.put ⟨name,script,source,e.order⟩ }
      (p.apply (.set name source)) := by
  have hname : e.name = name := by simpa using List.find?_some hfind
  have hhas : p.has name = true := by
    rw [← h.any name,List.any_eq_true]
    exact ⟨e,List.mem_of_find?_eq_some hfind,by simpa using hname⟩
  have hput : r.put ⟨name,script,source,e.order⟩ = r.entries.map fun e' =>
      if e'.name = name then ⟨name,script,source,e.order⟩ else e' := by
    rw [HookRegistry.put,if_pos (by rw [h.any name,hhas])]
  have happly : p.apply (.set name source) =
      p.map fun hook => if hook.1 = name then (name,source) else hook := if_pos hhas
  -- Names are distinct, so the one entry that changes keeps its own order.
  have hsame : ∀ e' ∈ r.entries, e'.name = name → e' = e := by
    intro e' he' hn
    have hkeys : (r.entries.map HookEntry.name).Nodup := by
      have hdistinct := h.distinct
      rw [← h.programme,List.map_map] at hdistinct
      exact hdistinct
    exact List.inj_on_of_nodup_map hkeys he' (List.mem_of_find?_eq_some hfind) (hn.trans hname.symm)
  have horders : (r.put ⟨name,script,source,e.order⟩).map HookEntry.order =
      r.entries.map HookEntry.order := by
    rw [hput,List.map_map]
    apply List.map_congr_left
    intro e' he'
    by_cases hn : e'.name = name
    · rw [hsame e' he' hn]
      simp [hname]
    · simp [hn]
  refine ⟨?_,?_,?_,?_,?_,?_⟩
  · rw [hput,happly,← h.programme,List.map_map,List.map_map]
    apply List.map_congr_left
    intro e' _
    by_cases hn : e'.name = name <;> simp [HookEntry.pair,hn]
  · rw [horders]
    exact h.increasing
  · intro e' he'
    have hmem : e'.order ∈ r.entries.map HookEntry.order := horders ▸ List.mem_map_of_mem he'
    obtain ⟨e'',he'',ho⟩ := List.mem_map.mp hmem
    exact ho ▸ h.below e'' he''
  · have hkept : (p.map fun hook => if hook.1 = name then (name,source) else hook).map Prod.fst =
        p.map Prod.fst := by
      rw [List.map_map]
      apply List.map_congr_left
      intro hook _
      by_cases hn : hook.1 = name <;> simp [hn]
    rw [happly,hkept]
    exact h.distinct
  · rw [happly,List.length_map]
    exact h.bounded
  · intro e' he'
    rw [hput] at he'
    obtain ⟨e'',he'',rfl⟩ := List.mem_map.mp he'
    by_cases hn : e''.name = name
    · simpa [hn] using hcompile
    · simpa [hn] using h.compiled e'' he''

private theorem append (h : Holds vm r p) {name source : JsString} {script : σ}
    (hnew : p.has name = false) (hroom : p.length < maxHooks)
    (hcompile : compileHookScript vm source = .ok script) :
    Holds vm { entries := r.put ⟨name,script,source,r.nextOrder⟩,nextOrder := r.nextOrder + 1 }
      (p.apply (.set name source)) := by
  have hput : r.put ⟨name,script,source,r.nextOrder⟩ =
      r.entries ++ [⟨name,script,source,r.nextOrder⟩] := by
    rw [HookRegistry.put,if_neg (by rw [h.any name,hnew]; decide)]
  have happly : p.apply (.set name source) = p ++ [(name,source)] :=
    if_neg (by rw [hnew]; decide)
  refine ⟨?_,?_,?_,?_,?_,?_⟩
  · rw [hput,happly,List.map_append,h.programme]
    rfl
  · rw [hput,List.map_append,List.pairwise_append]
    refine ⟨h.increasing,List.pairwise_singleton _ _,?_⟩
    intro o ho o' ho'
    obtain ⟨e,he,rfl⟩ := List.mem_map.mp ho
    rw [List.map_singleton,List.mem_singleton] at ho'
    exact ho' ▸ h.below e he
  · intro e he
    rw [hput] at he
    rcases List.mem_append.mp he with he | he
    · exact Nat.lt_succ_of_lt (h.below e he)
    · rw [List.mem_singleton.mp he]
      exact Nat.lt_succ_self _
  · have hfresh : name ∉ p.map Prod.fst := by
      intro hmem
      obtain ⟨hook,hhook,hname⟩ := List.mem_map.mp hmem
      have hhas : p.has name = true := List.any_eq_true.mpr ⟨hook,hhook,by simpa using hname⟩
      rw [hnew] at hhas
      cases hhas
    rw [happly,List.map_append,List.map_singleton,List.nodup_append]
    refine ⟨h.distinct,List.nodup_singleton _,?_⟩
    intro n hn n' hn' he
    rw [List.mem_singleton.mp hn'] at he
    subst he
    exact hfresh hn
  · rw [happly,List.length_append]
    exact hroom
  · intro e he
    rw [hput] at he
    rcases List.mem_append.mp he with he | he
    · exact h.compiled e he
    · rw [List.mem_singleton.mp he]
      exact hcompile

private theorem filter (h : Holds vm r p) (name : JsString) :
    Holds vm { r with entries := r.entries.filter fun e => e.name ≠ name }
      (p.apply (.remove name)) := by
  have hsub : (r.entries.filter fun e => decide (e.name ≠ name)).Sublist r.entries :=
    List.filter_sublist
  refine ⟨?_,?_,?_,?_,?_,?_⟩
  · rw [Programme.apply,← h.programme,List.filter_map]
    rfl
  · exact h.increasing.sublist (hsub.map _)
  · intro e he
    exact h.below e (hsub.subset he)
  · exact h.distinct.sublist (List.filter_sublist.map _)
  · exact (List.length_filter_le _ _).trans h.bounded
  · intro e he
    exact h.compiled e (hsub.subset he)

/-- A set is refused just when the programme does not admit it. -/
theorem set_cases (h : Holds vm r p) (name source : JsString) :
    (∃ r', r.set vm name source = .ok r' ∧ p.admits vm (.set name source) = true ∧
      Holds vm r' (p.apply (.set name source))) ∨
    ∃ rejection, r.set vm name source = .error rejection ∧
      p.admits vm (.set name source) = false := by
  unfold HookRegistry.set
  by_cases hblank : (JsString.trim name).length = 0
  · rw [if_pos hblank]
    refine Or.inr ⟨_,rfl,?_⟩
    simp [Programme.admits,List.length_eq_zero_iff.mp hblank]
  rw [if_neg hblank]
  have hname : decide (JsString.trim name ≠ []) = true :=
    decide_eq_true fun he => hblank (List.length_eq_zero_iff.mpr he)
  have hlength := h.length
  have hnone := h.find_isNone name
  dsimp only
  by_cases hfull : (r.entries.find? fun e => decide (e.name = name)).isNone = true ∧
      maxHooks ≤ r.entries.length
  · rw [if_pos hfull]
    refine Or.inr ⟨_,rfl,?_⟩
    have hhas : p.has name = false := by
      rw [hnone] at hfull
      simpa using hfull.1
    have hroom : ¬p.length < maxHooks := Nat.not_lt.mpr (hlength ▸ hfull.2)
    simp [Programme.admits,hhas,hroom]
  rw [if_neg hfull]
  cases hcompile : compileHookScript vm source with
  | error rejection =>
    refine Or.inr ⟨rejection,rfl,?_⟩
    simp [Programme.admits,Programme.compiles,hcompile]
  | ok script =>
    have hcompiles : Programme.compiles vm source = true := by
      simp [Programme.compiles,hcompile]
    left
    cases hfind : r.entries.find? fun e => decide (e.name = name) with
    | some e =>
      have hhas : p.has name = true := by
        rw [hfind] at hnone
        simpa using hnone.symm
      exact ⟨_,rfl,by simp [Programme.admits,hname,hhas,hcompiles],h.replace hfind hcompile⟩
    | none =>
      rw [hfind] at hfull hnone
      have hhas : p.has name = false := by simpa using hnone.symm
      have hroom : p.length < maxHooks := by
        rw [← hlength]
        simpa using hfull
      exact ⟨_,rfl,by simp [Programme.admits,hname,hroom,hcompiles],h.append hhas hroom hcompile⟩

private theorem remove_cases (h : Holds vm r p) (name : JsString) :
    (∃ r', r.remove name = .ok r' ∧ p.admits vm (.remove name) = true ∧
      Holds vm r' (p.apply (.remove name))) ∨
    ∃ rejection, r.remove name = .error rejection ∧ p.admits vm (.remove name) = false := by
  unfold HookRegistry.remove
  rw [h.any name]
  cases hhas : p.has name with
  | true =>
    rw [if_pos rfl]
    exact Or.inl ⟨_,rfl,hhas,h.filter name⟩
  | false =>
    rw [if_neg (by decide)]
    exact Or.inr ⟨_,rfl,hhas⟩

private theorem write_admitted {w : Write} (hw : p.admits vm w = true) :
    p.write vm w = p.apply w := if_pos hw

private theorem write_refused {w : Write} (hw : p.admits vm w = false) : p.write vm w = p :=
  if_neg (by rw [hw]; decide)

/-- A call of the tool is a write of the programme. -/
theorem execute (h : Holds vm r p) (args : SaoleiHookToolArgs) :
    Holds vm (executeSaoleiHook vm args r).1
      ((writeOf args).elim p fun w => p.write vm w) := by
  unfold executeSaoleiHook writeOf
  cases normalizeCall args with
  | error rejection => exact h
  | ok call =>
    cases call with
    | set name source =>
      rcases h.set_cases name source with ⟨r',hset,hadmits,hr'⟩ | ⟨rejection,hset,hrefused⟩
      · simp only [hset,Option.elim_some,write_admitted hadmits]
        exact hr'
      · simp only [hset,Option.elim_some,write_refused hrefused]
        exact h
    | remove name =>
      rcases h.remove_cases name with ⟨r',hremove,hadmits,hr'⟩ | ⟨rejection,hremove,hrefused⟩
      · simp only [hremove,Option.elim_some,write_admitted hadmits]
        exact hr'
      · simp only [hremove,Option.elim_some,write_refused hrefused]
        exact h
    | list => exact h

end Holds

/-- The handler announces what the hooks of the programme return. -/
theorem runHooks_announced (relay : Nat → Option JsString) (board : GameState) (k : Nat)
    (entries : List (HookEntry σ))
    (hcompiled : ∀ e ∈ entries, compileHookScript vm e.source = .ok e.script) :
    (runHooks vm relay board k entries).announced =
      Programme.untilThrown relay k ((entries.map HookEntry.pair).filterMap
        (Programme.result vm board)) := by
  induction entries generalizing k with
  | nil => rfl
  | cons e entries ih =>
    have hrest := fun k => ih k fun e' he' => hcompiled e' (List.mem_cons_of_mem _ he')
    have hresult : Programme.result vm board e.pair =
        announcementFor e.name (runHookScript vm e.script board) := by
      simp [Programme.result,HookEntry.pair,hcompiled e List.mem_cons_self]
    rw [List.map_cons,List.filterMap_cons,hresult,runHooks]
    cases announcementFor e.name (runHookScript vm e.script board) with
    | none => exact hrest k
    | some text =>
      dsimp only
      rw [Programme.untilThrown]
      cases hrelay : relay k with
      | some message => rfl
      | none =>
        simp only [hrest (k + 1)]
        rfl

private theorem Holds.announced (h : Holds vm r p) (relay : Nat → Option JsString)
    (board : GameState) :
    (onBoardChange vm r relay board).announced = p.announces vm relay board := by
  rw [onBoardChange,HookRegistry.entriesInOrder,h.ordered,runHooks_announced _ _ _ _ h.compiled,
    h.programme]
  rfl

/-- What compiles passed the checks of its registration. -/
theorem compile_checked {source : JsString} {script : σ}
    (h : compileHookScript vm source = .ok script) : source.length ≤ maxScriptChars ∧
      ∀ pattern ∈ bannedPatterns, ¬pattern <:+: source := by
  unfold compileHookScript at h
  split at h
  · cases h
  rename_i hlength
  split at h
  · cases h
  · rename_i hnone
    refine ⟨Nat.le_of_not_lt hlength,fun pattern hmem => ?_⟩
    simpa using List.find?_eq_none.mp hnone pattern hmem

end registry

/-! ## Runs -/

/-- The programme that the calls of the tool have written, and what it is to announce. -/
structure HookJournal where
  programme : Programme := []
  announced : List JsString := []

section runs

variable {σ : Type} (vm : Vm σ)

def observe (s : HookTeam σ) (l : Label) (_ : HookTeam σ) (j : HookJournal) : HookJournal :=
  match l with
  | .hook args =>
    { j with programme := (writeOf args).elim j.programme fun w => j.programme.write vm w }
  | .init _ => j
  | .operate input receipts now relay =>
    let boards := publishedBoards (s.game.operate true input receipts now).effects
    { j with announced := j.announced ++
        boards.flatMap fun board => j.programme.announces vm relay board }

def observed : Lts (HookTeam σ × HookJournal) Label :=
  (HookTeam.system vm).journaled (observe vm) {}

variable {vm} {x : HookTeam σ × HookJournal}

private theorem holds_inductive : Lts.Inductive (observed vm) (fun _ _ => True) fun x =>
    Holds vm x.1.registry x.2.programme ∧ x.1.announced = x.2.announced where
  init := by
    rintro ⟨s,j⟩ ⟨hs,hj⟩
    obtain rfl : s = {} := hs
    obtain rfl : j = {} := hj
    exact ⟨⟨rfl,List.Pairwise.nil,nofun,List.nodup_nil,Nat.zero_le _,nofun⟩,rfl⟩
  step := by
    rintro ⟨s,j⟩ l ⟨s',j'⟩ ⟨hholds,hannounced⟩ - hstep
    obtain ⟨hs,hj⟩ := Lts.journaled_step.mp hstep
    cases hs
    dsimp only at hj hholds hannounced
    subst hj
    cases l with
    | hook args => exact ⟨hholds.execute args,hannounced⟩
    | init receipt => exact ⟨hholds,hannounced⟩
    | operate input receipts now relay =>
      refine ⟨hholds,?_⟩
      show s.announced ++ _ = j.announced ++ _
      rw [hannounced]
      congr 1
      apply List.flatMap_congr
      intro board _
      exact hholds.announced relay board

/-- At any time the registry lists the hooks that the writes so far have left, in the order of the
programme: at most eight, under distinct names, each with a source that was checked.  What was
announced is what these hooks returned on the boards that were published. -/
theorem hooks_follow_writes (h : (observed vm).Reach x) :
    x.1.registry.entriesInOrder.map HookEntry.pair = x.2.programme ∧
    x.2.programme.length ≤ maxHooks ∧
    (x.2.programme.map Prod.fst).Nodup ∧
    (x.1.registry.list.map HookSummary.order).Pairwise (· < ·) ∧
    (∀ hook ∈ x.2.programme, hook.2.length ≤ maxScriptChars ∧
      ∀ pattern ∈ bannedPatterns, ¬pattern <:+: hook.2) ∧
    x.1.announced = x.2.announced := by
  obtain ⟨hholds,hannounced⟩ := holds_inductive.of_reachUnder h
  refine ⟨?_,hholds.bounded,hholds.distinct,?_,?_,hannounced⟩
  · rw [HookRegistry.entriesInOrder,hholds.ordered,hholds.programme]
  · rw [HookRegistry.list,hholds.ordered,List.map_map]
    exact hholds.increasing
  · intro hook hmem
    rw [← hholds.programme] at hmem
    obtain ⟨e,he,rfl⟩ := List.mem_map.mp hmem
    exact compile_checked (hholds.compiled e he)

/-! A concrete run: two scripts, the first of them written again, and an operation. -/

/-- Scripts that return their own wrapped source. -/
def demoVm : Vm JsString where
  compile source := .ok source
  run script _ := .ok (.string script)

def demoBoard : GameState where
  width := 2
  height := 1
  grid := [[.flag,.initial]]
  mineCounter := none
  rows := rfl
  columns := List.forall_mem_singleton.mpr rfl

def demoLabels : List Label :=
  [.hook { action := some (js "set"),name := some (js "a"),script := some (js "1") },
    .hook { action := some (js "set"),name := some (js "b"),script := some (js "2") },
    .hook { action := some (js "set"),name := some (js "a"),script := some (js "3") },
    .init (.received (some demoBoard)),
    .operate (.single ⟨.flag,0,0⟩) (fun _ => .received (some demoBoard)) 0 fun _ => none]

theorem hooks_follow_writes_demo : ∃ x, (observed demoVm).Reach x ∧
    x.1.registry.entriesInOrder.map HookEntry.pair = [(js "a",js "3"),(js "b",js "2")] ∧
    x.1.announced = [js "[hook a] (function(board) \x7b\n3\n\x7d)(board)",
      js "[hook b] (function(board) \x7b\n2\n\x7d)(board)"] := by
  obtain ⟨x,hx,hp⟩ := Lts.reach_of_run_any (M := observed demoVm)
    (p := fun x => decide (x.2.programme = [(js "a",js "3"),(js "b",js "2")]) &&
      decide (x.2.announced = [js "[hook a] (function(board) \x7b\n3\n\x7d)(board)",
        js "[hook b] (function(board) \x7b\n2\n\x7d)(board)"]))
    demoLabels (s := ({},{})) (.init ⟨rfl,rfl⟩) (by decide)
  simp only [Bool.and_eq_true,decide_eq_true_eq] at hp
  obtain ⟨hprogramme,-,-,-,-,hannounced⟩ := hooks_follow_writes hx
  exact ⟨x,hx,hprogramme.trans hp.1,hannounced.trans hp.2⟩

end runs

end Dominion.Saolei.Hooks
