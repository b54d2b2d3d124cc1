import Dominion.Presets.Refinement

/-! # The registry mirrors the store

In the runs in which the calls on each id take turns on the registry, what is registered once all
calls have settled is what the stored records derive to.  Whether a call has its turn can be
computed. -/
namespace Dominion.Presets

open Dominion.Framework

variable {d : Deployment} {s s' : State} {c k : Nat} {id : String} {stage : Stage}

/-! ## Runs -/

/-- The steps on the registry are taken in turns, for every id. -/
def Orderly (s : State) : Label → Prop
  | .call _ => True
  | .advance c _ _ => ∀ id, Projection.InTurn (s.entry id) c

private theorem inv_inductive (d : Deployment) : (system d).Inductive Orderly fun s =>
    ∀ id, Projection.Inv (derive d) (s.entry id) where
  init s hs := by
    obtain ⟨records,hn,rfl⟩ := hs
    intro id
    apply Projection.inv_of_mirrors _ (restored_mirrors d hn id)
    intro k
    have hcalls : (restored d records).calls = [] :=
      (foldl_restoreRecord_store d records (booted records)).2
    simp [State.entry,hcalls]
  step s l s' h hturn hstep := by
    intro id
    cases l with
    | call operation =>
      cases hstep
      rw [entry_call]
      exact h id
    | advance c now broken =>
      rcases step_refines hstep id with hsame | hpublisher
      · rw [hsame]
        exact h id
      · exact (h id).step (hturn id) hpublisher

/-! ## Checking turns -/

/-- The id that a call is a publisher of. -/
def Stage.own : Stage → List String
  | .replaced record => [record.id]
  | .retiring record _ => [record.id]
  | .registering record _ _ => [record.id]
  | .registered record _ _ => [record.id]
  | .rollingBack record _ => [record.id]
  | .removed id => [id]
  | .releasing id _ => [id]
  | _ => []

private theorem on_of_not_own (h : id ∉ stage.own) : stage.on id = .out := by
  cases stage with
  | replaced record => exact if_neg (Ne.symm (by simpa [Stage.own] using h))
  | retiring record disposer => exact if_neg (Ne.symm (by simpa [Stage.own] using h))
  | registering record definition created =>
    exact if_neg (Ne.symm (by simpa [Stage.own] using h))
  | registered record disposer created => exact if_neg (Ne.symm (by simpa [Stage.own] using h))
  | rollingBack record err => exact if_neg (Ne.symm (by simpa [Stage.own] using h))
  | removed presetId => exact if_neg (Ne.symm (by simpa [Stage.own] using h))
  | releasing presetId disposer => exact if_neg (Ne.symm (by simpa [Stage.own] using h))
  | _ => rfl

def State.idle (s : State) (id : String) : Bool :=
  s.calls.all fun stage => !(stage.on id).isOpen

private theorem idle_of_all (h : s.idle id = true) : (s.entry id).Idle := by
  intro k
  cases hk : s.calls[k]? with
  | none => simp [State.entry,hk,Projection.Stage.isOpen]
  | some stage =>
    rw [entry_stage hk]
    simpa using List.all_eq_true.mp h stage (List.mem_of_getElem? hk)

def State.turn (s : State) (c : Nat) (id : String) : Bool :=
  (s.writer id).any fun w => w = c || ((s.entry id).stage w).isTaking

private theorem turn_of_any (h : s.turn c id = true) : (s.entry id).Turn c := by
  obtain ⟨w,hw,hturn⟩ := (Option.any_eq_true _ _).mp h
  exact ⟨w,hw,by simpa using hturn⟩

def State.inTurn (s : State) (c : Nat) (id : String) : Bool :=
  match (s.entry id).stage c with
  | .taking (some _) => s.idle id && s.turn c id
  | .taking none => s.idle id && ((s.store id).isNone || (s.writer id).any fun w =>
      ((s.entry id).stage w).isTaking || ((s.entry id).stage w).isFresh)
  | .publishing _ _ true => (s.registry id).isSome || s.idle id && s.turn c id
  | .withdrawing _ => (s.store id).isNone || s.writer id = some c
  | _ => true

private theorem inTurn_spec (h : s.inTurn c id = true) : Projection.InTurn (s.entry id) c := by
  unfold State.inTurn at h
  unfold Projection.InTurn
  split at h
  · rename_i hs
    rw [hs]
    obtain ⟨hidle,hturn⟩ := Bool.and_eq_true_iff.mp h
    exact ⟨idle_of_all hidle,turn_of_any hturn⟩
  · rename_i hs
    rw [hs]
    obtain ⟨hidle,hturn⟩ := Bool.and_eq_true_iff.mp h
    refine ⟨idle_of_all hidle,?_⟩
    rcases Bool.or_eq_true_iff.mp hturn with hnone | hwriter
    · exact .inl (Option.isNone_iff_eq_none.mp hnone)
    · obtain ⟨w,hw,hstage⟩ := (Option.any_eq_true _ _).mp hwriter
      exact .inr ⟨w,hw,Bool.or_eq_true_iff.mp hstage⟩
  · rename_i hs
    rw [hs]
    rcases Bool.or_eq_true_iff.mp h with hlive | hboth
    · exact .inl (Option.isSome_iff_ne_none.mp hlive)
    · obtain ⟨hidle,hturn⟩ := Bool.and_eq_true_iff.mp hboth
      exact .inr ⟨idle_of_all hidle,turn_of_any hturn⟩
  · rename_i hs
    rw [hs]
    rcases Bool.or_eq_true_iff.mp h with hnone | hwriter
    · exact .inl (Option.isNone_iff_eq_none.mp hnone)
    · exact .inr (of_decide_eq_true hwriter)
  · rename_i h₁ h₂ h₃ h₄
    split
    · rename_i v hs
      exact absurd hs (h₁ v)
    · rename_i hs
      exact absurd hs h₂
    · rename_i v definition hs
      exact absurd hs (h₃ v definition)
    · rename_i v hs
      exact absurd hs (h₄ v)
    · trivial

def orderly (s : State) : Label → Bool
  | .call _ => true
  | .advance c _ _ => ((s.calls[c]?).map Stage.own).all fun ids => ids.all (s.inTurn c)

private theorem orderly_spec (s : State) (l : Label) (h : orderly s l = true) : Orderly s l := by
  cases l with
  | call operation => trivial
  | advance c now broken =>
    intro id
    cases hc : s.calls[c]? with
    | none =>
      have hs : (s.entry id).stage c = .out := by simp [State.entry,hc]
      unfold Projection.InTurn
      rw [hs]
      trivial
    | some stage =>
      by_cases hid : id ∈ stage.own
      · apply inTurn_spec
        have hall : stage.own.all (s.inTurn c) = true := by simpa [orderly,hc] using h
        exact List.all_eq_true.mp hall id hid
      · have hs : (s.entry id).stage c = .out := (entry_stage hc).trans (on_of_not_own hid)
        unfold Projection.InTurn
        rw [hs]
        trivial

/-! ## Settled calls -/

/-- In every run in which the calls take turns on the registry, what is registered once all calls
have settled is what the stored records derive to, and every disposer is retained. -/
theorem mirrored (d : Deployment) (s : State) (h : (system d).ReachUnder Orderly s)
    (hsettled : s.Settled) : s.Mirrored d := by
  intro id
  have hout : ∀ k, (s.entry id).stage k = .out := by
    intro k
    cases hk : s.calls[k]? with
    | none => simp [State.entry,hk]
    | some stage =>
      obtain ⟨result,rfl⟩ := hsettled stage (List.mem_of_getElem? hk)
      exact entry_stage hk
  have hmirrors := ((inv_inductive d).of_reachUnder h id).mirrors hout
  exact ⟨hmirrors.live,hmirrors.handle⟩

/-! ## Two callers -/

def demoDeployment : Deployment where
  templates := [("pool",⟨none,[⟨personaRowName,.absent⟩]⟩)]
  duplicate id := "preset " ++ id ++ " is registered"

def demoCreate : Label :=
  .call (.create ⟨"scout","pool",none,"calm",none⟩)

def demoUpdate (persona : String) : Label :=
  .call (.update "scout" ⟨some persona,none⟩)

/-- So many steps of a call. -/
def demoSteps (c n : Nat) : List Label :=
  List.replicate n (.advance c 0 none)

/-- All calls have settled, and the rows that are registered and stored are these. -/
def settledWith (registered stored : Option (List CompositionRow)) (s : State) : Bool :=
  s.calls.all (fun stage => match stage with
    | .settled _ => true
    | _ => false) &&
  decide ((s.registry "scout").map (fun live => live.2.plugins) = registered) &&
  decide (((s.store "scout").bind (derive demoDeployment)).map PresetDefinition.plugins = stored)

def demoRows (persona : String) : List CompositionRow :=
  [⟨personaRowName,.object [("prefix",.text persona)]⟩]

private theorem settledWith_spec {registered stored : Option (List CompositionRow)}
    (h : settledWith registered stored s = true) : s.Settled ∧
      (s.Mirrored demoDeployment → registered = stored) := by
  obtain ⟨hboth,hstored⟩ := Bool.and_eq_true_iff.mp h
  obtain ⟨hsettled,hregistered⟩ := Bool.and_eq_true_iff.mp hboth
  constructor
  · intro stage hstage
    have hmatch := List.all_eq_true.mp hsettled stage hstage
    cases stage with
    | settled result => exact ⟨result,rfl⟩
    | _ => cases hmatch
  · intro hmirrored
    have hsame := congrArg (Option.map PresetDefinition.plugins) (hmirrored "scout").1
    rw [← of_decide_eq_true hregistered,← of_decide_eq_true hstored]
    simpa [Option.map_map,Function.comp_def,derive] using hsame

private theorem restored_nil : (system demoDeployment).init (restored demoDeployment []) :=
  ⟨[],List.nodup_nil,rfl⟩

/-- A preset is created and updated twice; both updates are stored before either takes the
disposer. -/
theorem mirrored_demo : ∃ s, (system demoDeployment).ReachUnder Orderly s ∧
    settledWith (some (demoRows "wary")) (some (demoRows "wary")) s = true ∧
      s.Mirrored demoDeployment := by
  obtain ⟨s,hreach,hsettled⟩ := Lts.reachUnder_of_runUnder_any orderly_spec
    (M := system demoDeployment)
    (demoCreate :: demoSteps 0 6 ++ [demoUpdate "bold",demoUpdate "wary"] ++ demoSteps 1 2 ++
      demoSteps 2 2 ++ demoSteps 1 5 ++ demoSteps 2 5) (.init restored_nil)
    (p := settledWith (some (demoRows "wary")) (some (demoRows "wary"))) (by decide)
  exact ⟨s,hreach,hsettled,mirrored demoDeployment s hreach (settledWith_spec hsettled).1⟩

/-- A removal that settles before the registration of the created preset lands leaves a definition
without a record; two updates that take the disposer against the order of their writes leave the
older persona registered. -/
theorem registrations_diverge :
    (∃ s, (system demoDeployment).Reach s ∧ s.Settled ∧
      settledWith (some (demoRows "calm")) none s = true ∧ ¬s.Mirrored demoDeployment) ∧
    ∃ s, (system demoDeployment).Reach s ∧ s.Settled ∧
      settledWith (some (demoRows "bold")) (some (demoRows "wary")) s = true ∧
        ¬s.Mirrored demoDeployment := by
  constructor
  · obtain ⟨s,hreach,hsettled⟩ := Lts.reach_of_run_any (M := system demoDeployment)
      (demoCreate :: demoSteps 0 2 ++ [.call (.remove "scout")] ++ demoSteps 1 2 ++ demoSteps 0 4)
      (.init restored_nil) (p := settledWith (some (demoRows "calm")) none) (by decide)
    have hspec := settledWith_spec hsettled
    exact ⟨s,hreach,hspec.1,hsettled,fun h => by simpa using hspec.2 h⟩
  · obtain ⟨s,hreach,hsettled⟩ := Lts.reach_of_run_any (M := system demoDeployment)
      (demoCreate :: demoSteps 0 6 ++ [demoUpdate "bold",demoUpdate "wary"] ++ demoSteps 1 2 ++
        demoSteps 2 7 ++ demoSteps 1 5) (.init restored_nil)
      (p := settledWith (some (demoRows "bold")) (some (demoRows "wary"))) (by decide)
    have hspec := settledWith_spec hsettled
    refine ⟨s,hreach,hspec.1,hsettled,fun h => ?_⟩
    have hsame := hspec.2 h
    revert hsame
    decide

end Dominion.Presets
