import Dominion.Presets.Authoring

/-! # Calls as publishers

For each id the calls are publishers of the stored record: every step of a call is a step of a
publisher, or it leaves the id alone.  After `restore` the registry mirrors the store. -/
namespace Dominion.Presets

open Dominion.Framework

variable {d : Deployment} {s s' : State} {c k : Nat} {id : String} {stage : Stage}

/-! ## One id -/

def derive (d : Deployment) (record : PresetRecord) : Option PresetDefinition :=
  (definitionOf d record).toOption

/-- What a call has to do with the id. -/
def Stage.on (id : String) : Stage → Projection.Stage PresetRecord PresetDefinition
  | .replaced record => if record.id = id then .taking (some record) else .out
  | .retiring record disposer => if record.id = id then .retiring (some record) disposer else .out
  | .registering record definition created =>
    if record.id = id then .publishing record definition created else .out
  | .registered record disposer _ => if record.id = id then .published record disposer else .out
  | .rollingBack record _ => if record.id = id then .withdrawing record else .out
  | .removed presetId => if presetId = id then .taking none else .out
  | .releasing presetId disposer => if presetId = id then .retiring none disposer else .out
  | _ => .out

def State.entry (s : State) (id : String) : Projection.Entry PresetRecord PresetDefinition where
  stored := s.store id
  live := s.registry id
  handle := s.disposers id
  writer := s.writer id
  stage k := ((s.calls[k]?).map (Stage.on id)).getD .out

theorem entry_stage (h : s.calls[k]? = some stage) : (s.entry id).stage k = stage.on id := by
  simp [State.entry,h]

private theorem entry_goto (h : s.calls[c]? = some stage) (next : Stage) (id : String) :
    (s.goto c next).entry id = (s.entry id).goto c (next.on id) := by
  have hlt := (List.getElem?_eq_some_iff.mp h).1
  unfold State.entry Projection.Entry.goto
  congr 1
  funext k
  by_cases hk : k = c
  · subst hk
    simp [State.goto,hlt]
  · simp [State.goto,hk,List.getElem?_set_ne (Ne.symm hk)]

/-- A call that has nothing to do with the id, before and after. -/
theorem entry_idle (h : s.calls[c]? = some stage) (next : Stage) (hstage : stage.on id = .out)
    (hnext : next.on id = .out) : (s.goto c next).entry id = s.entry id := by
  rw [entry_goto h,hnext,← hstage,← entry_stage h]
  unfold Projection.Entry.goto
  rw [Function.update_eq_self]

private theorem entry_write_self (s : State) (c : Nat) (id : String)
    (record : Option PresetRecord) :
    (s.write c id record).entry id = { s.entry id with stored := record, writer := some c } := by
  simp [State.entry,State.write]

private theorem entry_write_ne {other : String} (h : id ≠ other) (record : Option PresetRecord) :
    (s.write c other record).entry id = s.entry id := by
  simp [State.entry,State.write,h]

private theorem entry_dispose_self (s : State) (id : String) (disposer : Nat) :
    (s.dispose id disposer).entry id =
      { s.entry id with live := Projection.release disposer (s.entry id).live } := by
  simp [State.entry,State.dispose]

private theorem entry_dispose_ne {other : String} (h : id ≠ other) (disposer : Nat) :
    (s.dispose other disposer).entry id = s.entry id := by
  simp [State.entry,State.dispose,h]

private theorem entry_setDisposer_self (s : State) (id : String) (disposer : Option Nat) :
    (s.setDisposer id disposer).entry id = { s.entry id with handle := disposer } := by
  simp [State.entry,State.setDisposer]

private theorem entry_setDisposer_ne {other : String} (h : id ≠ other) (disposer : Option Nat) :
    (s.setDisposer other disposer).entry id = s.entry id := by
  simp [State.entry,State.setDisposer,h]

private theorem entry_addRegistration_self (s : State) (id : String)
    (definition : PresetDefinition) :
    (s.addRegistration id definition).entry id =
      { s.entry id with live := some (s.registrations,definition) } := by
  simp [State.entry,State.addRegistration]

private theorem entry_addRegistration_ne {other : String} (h : id ≠ other)
    (definition : PresetDefinition) :
    (s.addRegistration other definition).entry id = s.entry id := by
  simp [State.entry,State.addRegistration,h]

private theorem registerRecord_on (d : Deployment) (record : PresetRecord) (created : Bool) :
    (registerRecord d record created).on record.id =
      Projection.announce (derive d) record created := by
  unfold registerRecord Projection.announce derive
  cases definitionOf d record with
  | ok definition => exact if_pos rfl
  | error err =>
    cases created with
    | false => rfl
    | true => exact if_pos rfl

private theorem registerRecord_off {record : PresetRecord} (h : record.id ≠ id) (created : Bool) :
    (registerRecord d record created).on id = .out := by
  unfold registerRecord
  cases definitionOf d record with
  | ok definition => exact if_neg h
  | error err =>
    cases created with
    | false => rfl
    | true => exact if_neg h

/-! ## Refinement -/

/-- A step of a call is one of a publisher of the id, or it leaves the id alone. -/
def Refines (d : Deployment) (c : Nat) (s s' : State) (id : String) : Prop :=
  s'.entry id = s.entry id ∨ Projection.Step (derive d) c (s.entry id) (s'.entry id)

private theorem refines_idle (h : s.calls[c]? = some stage) (next : Stage)
    (hstage : stage.on id = .out) (hnext : next.on id = .out) : Refines d c s (s.goto c next) id :=
  .inl (entry_idle h next hstage hnext)

private theorem refines_found {presetId : String}
    {next : PresetRecord → Except PresetAuthoringError Stage}
    (h : s.calls[c]? = some stage) (hstage : stage.on id = .out)
    (hnext : ∀ record stage', next record = .ok stage' → stage'.on id = .out) :
    Refines d c s (s.found c presetId next) id := by
  unfold State.found
  split
  · rename_i stage' hfound
    obtain ⟨record,_,hrecord⟩ := ok_of_bind hfound
    exact refines_idle h stage' hstage (hnext record stage' hrecord)
  · exact refines_idle h _ hstage rfl

/-- A call is a publisher of one id, and changes the state of no other one. -/
theorem refines_own (own : String) (h : s.calls[c]? = some stage) (next : Stage) (s₁ : State)
    (hcalls : s₁.calls = s.calls) (hother : ∀ id, id ≠ own →
      s₁.entry id = s.entry id ∧ stage.on id = .out ∧ next.on id = .out)
    (hself : Projection.Step (derive d) c (s.entry own) ((s₁.entry own).goto c (next.on own)))
    (id : String) : Refines d c s (s₁.goto c next) id := by
  have h₁ : s₁.calls[c]? = some stage := hcalls ▸ h
  by_cases hid : id = own
  · subst hid
    apply Or.inr
    rw [entry_goto h₁]
    exact hself
  · obtain ⟨hentry,hstage,hnext⟩ := hother id hid
    refine .inl ?_
    rw [entry_idle h₁ next hstage hnext,hentry]

section refinement

variable {record : PresetRecord} {disposer : Nat} {presetId : String}

private theorem refines_inserting (h : s.calls[c]? = some (.inserting record))
    (hnone : s.store record.id = none) : ∀ id, Refines d c s
      ((s.write c record.id (some record)).goto c (registerRecord d record true)) id := by
  apply refines_own record.id h _ (s.write c record.id (some record)) rfl
  · intro id hid
    exact ⟨entry_write_ne hid _,rfl,registerRecord_off (Ne.symm hid) true⟩
  · rw [entry_write_self,registerRecord_on]
    exact .create (entry_stage h) hnone

private theorem refines_replacing (h : s.calls[c]? = some (.replacing record))
    (hsome : s.store record.id ≠ none) : ∀ id, Refines d c s
      ((s.write c record.id (some record)).goto c (.replaced record)) id := by
  apply refines_own record.id h _ (s.write c record.id (some record)) rfl
  · intro id hid
    exact ⟨entry_write_ne hid _,rfl,if_neg (Ne.symm hid)⟩
  · have hon : (Stage.replaced record).on record.id = .taking (some record) := if_pos rfl
    rw [entry_write_self,hon]
    exact .write (entry_stage h) hsome

private theorem refines_removing (h : s.calls[c]? = some (.removing presetId))
    (hsome : s.store presetId ≠ none) : ∀ id, Refines d c s
      ((s.write c presetId none).goto c (.removed presetId)) id := by
  apply refines_own presetId h _ (s.write c presetId none) rfl
  · intro id hid
    exact ⟨entry_write_ne hid _,rfl,if_neg (Ne.symm hid)⟩
  · have hon : (Stage.removed presetId).on presetId = .taking none := if_pos rfl
    rw [entry_write_self,hon]
    exact .write (entry_stage h) hsome

private theorem refines_replaced (h : s.calls[c]? = some (.replaced record)) : ∀ id, Refines d c s
    ((s.setDisposer record.id none).goto c (match s.disposers record.id with
      | some disposer => .retiring record disposer
      | none => registerRecord d record false)) id := by
  apply refines_own record.id h _ (s.setDisposer record.id none) rfl
  · intro id hid
    refine ⟨entry_setDisposer_ne hid _,if_neg (Ne.symm hid),?_⟩
    cases s.disposers record.id with
    | some disposer => exact if_neg (Ne.symm hid)
    | none => exact registerRecord_off (Ne.symm hid) false
  · have hon : (Stage.replaced record).on record.id = .taking (some record) := if_pos rfl
    have htake : Projection.Step (derive d) c (s.entry record.id) _ :=
      .take ((entry_stage h).trans hon)
    have hnext : (match s.disposers record.id with
        | some disposer => Stage.retiring record disposer
        | none => registerRecord d record false).on record.id =
        match (s.entry record.id).handle with
        | some disposer => .retiring (some record) disposer
        | none => Projection.proceed (derive d) (some record) := by
      change _ = match s.disposers record.id with
        | some disposer => _
        | none => _
      cases s.disposers record.id with
      | some disposer => exact if_pos rfl
      | none => exact registerRecord_on d record false
    rw [entry_setDisposer_self,hnext]
    exact htake

private theorem refines_removed (h : s.calls[c]? = some (.removed presetId)) : ∀ id, Refines d c s
    ((s.setDisposer presetId none).goto c (match s.disposers presetId with
      | some disposer => .releasing presetId disposer
      | none => .settled (.ok .removed))) id := by
  apply refines_own presetId h _ (s.setDisposer presetId none) rfl
  · intro id hid
    refine ⟨entry_setDisposer_ne hid _,if_neg (Ne.symm hid),?_⟩
    cases s.disposers presetId with
    | some disposer => exact if_neg (Ne.symm hid)
    | none => rfl
  · have hon : (Stage.removed presetId).on presetId = .taking none := if_pos rfl
    have htake : Projection.Step (derive d) c (s.entry presetId) _ :=
      .take ((entry_stage h).trans hon)
    have hnext : (match s.disposers presetId with
        | some disposer => Stage.releasing presetId disposer
        | none => .settled (.ok .removed)).on presetId =
        match (s.entry presetId).handle with
        | some disposer => .retiring none disposer
        | none => Projection.proceed (derive d) none := by
      change _ = match s.disposers presetId with
        | some disposer => _
        | none => _
      cases s.disposers presetId with
      | some disposer => exact if_pos rfl
      | none => rfl
    rw [entry_setDisposer_self,hnext]
    exact htake

private theorem refines_retiring (h : s.calls[c]? = some (.retiring record disposer)) :
    ∀ id, Refines d c s ((s.dispose record.id disposer).goto c (registerRecord d record false))
      id := by
  apply refines_own record.id h _ (s.dispose record.id disposer) rfl
  · intro id hid
    exact ⟨entry_dispose_ne hid _,if_neg (Ne.symm hid),registerRecord_off (Ne.symm hid) false⟩
  · have hon : (Stage.retiring record disposer).on record.id =
      .retiring (some record) disposer := if_pos rfl
    rw [entry_dispose_self,registerRecord_on]
    exact .retire ((entry_stage h).trans hon)

private theorem refines_releasing (h : s.calls[c]? = some (.releasing presetId disposer)) :
    ∀ id, Refines d c s ((s.dispose presetId disposer).goto c (.settled (.ok .removed))) id := by
  apply refines_own presetId h _ (s.dispose presetId disposer) rfl
  · intro id hid
    exact ⟨entry_dispose_ne hid _,if_neg (Ne.symm hid),rfl⟩
  · have hon : (Stage.releasing presetId disposer).on presetId = .retiring none disposer :=
      if_pos rfl
    rw [entry_dispose_self]
    exact .retire ((entry_stage h).trans hon)

private theorem refines_registering {definition : PresetDefinition} {created : Bool}
    (h : s.calls[c]? = some (.registering record definition created))
    (hnone : s.registry record.id = none) : ∀ id, Refines d c s
      ((s.addRegistration record.id definition).goto c
        (.registered record s.registrations created)) id := by
  apply refines_own record.id h _ (s.addRegistration record.id definition) rfl
  · intro id hid
    exact ⟨entry_addRegistration_ne hid _,if_neg (Ne.symm hid),if_neg (Ne.symm hid)⟩
  · have hon : (Stage.registering record definition created).on record.id =
      .publishing record definition created := if_pos rfl
    have hnext : (Stage.registered record s.registrations created).on record.id =
      .published record s.registrations := if_pos rfl
    rw [entry_addRegistration_self,hnext]
    exact .publish s.registrations ((entry_stage h).trans hon) hnone

private theorem refines_rejected {definition : PresetDefinition} {created : Bool}
    (h : s.calls[c]? = some (.registering record definition created))
    (hlive : s.registry record.id ≠ none) (err : PresetAuthoringError) : ∀ id, Refines d c s
      (s.goto c (if created then .rollingBack record err else .settled (.error err))) id := by
  apply refines_own record.id h _ s rfl
  · intro id hid
    refine ⟨rfl,if_neg (Ne.symm hid),?_⟩
    cases created with
    | false => rfl
    | true => exact if_neg (Ne.symm hid)
  · have hon : (Stage.registering record definition created).on record.id =
      .publishing record definition created := if_pos rfl
    have hnext : (if created = true then Stage.rollingBack record err
        else .settled (.error err)).on record.id =
          if created = true then .withdrawing record else .out := by
      cases created with
      | false => rfl
      | true => exact if_pos rfl
    rw [hnext]
    exact .reject ((entry_stage h).trans hon) hlive

private theorem refines_registered {created : Bool}
    (h : s.calls[c]? = some (.registered record disposer created)) : ∀ id, Refines d c s
      ((s.setDisposer record.id (some disposer)).goto c (.resolving record created)) id := by
  apply refines_own record.id h _ (s.setDisposer record.id (some disposer)) rfl
  · intro id hid
    exact ⟨entry_setDisposer_ne hid _,if_neg (Ne.symm hid),rfl⟩
  · have hon : (Stage.registered record disposer created).on record.id =
      .published record disposer := if_pos rfl
    rw [entry_setDisposer_self]
    exact .retain ((entry_stage h).trans hon)

private theorem refines_rollingBack {err : PresetAuthoringError}
    (h : s.calls[c]? = some (.rollingBack record err)) (hsome : s.store record.id ≠ none) :
    ∀ id, Refines d c s ((s.write c record.id none).goto c (.settled (.error err))) id := by
  apply refines_own record.id h _ (s.write c record.id none) rfl
  · intro id hid
    exact ⟨entry_write_ne hid _,if_neg (Ne.symm hid),rfl⟩
  · have hon : (Stage.rollingBack record err).on record.id = .withdrawing record := if_pos rfl
    rw [entry_write_self]
    exact .withdraw ((entry_stage h).trans hon) hsome

private theorem refines_abandoned {err : PresetAuthoringError}
    (h : s.calls[c]? = some (.rollingBack record err)) (hnone : s.store record.id = none) :
    ∀ id, Refines d c s (s.goto c (.settled (.error err))) id := by
  apply refines_own record.id h _ s rfl
  · intro id hid
    exact ⟨rfl,if_neg (Ne.symm hid),rfl⟩
  · have hon : (Stage.rollingBack record err).on record.id = .withdrawing record := if_pos rfl
    exact .abandon ((entry_stage h).trans hon) hnone

end refinement

theorem step_refines {now : Nat} {broken : Option String}
    (hstep : step d s (.advance c now broken) = some s') (id : String) : Refines d c s s' id := by
  obtain ⟨stage,h,hadvance⟩ := Option.bind_eq_some_iff.mp hstep
  cases stage with
  | composing presetId =>
    cases hadvance
    apply refines_found h rfl
    intro record stage' hnext
    obtain ⟨_,_,hreturn⟩ := ok_of_bind hnext
    cases hreturn
    rfl
  | creating input =>
    rw [State.advance] at hadvance
    split at hadvance
    · cases hadvance
      exact refines_idle h _ rfl rfl
    · split at hadvance
      · cases hadvance
        exact refines_idle h _ rfl rfl
      · cases hadvance
        exact refines_idle h _ rfl rfl
  | inserting record =>
    rw [State.advance] at hadvance
    split at hadvance
    · cases hadvance
      exact refines_idle h _ rfl rfl
    · rename_i hnone
      cases hadvance
      exact refines_inserting h hnone id
  | updating presetId patch =>
    cases hadvance
    apply refines_found h rfl
    intro record stage' hnext
    split at hnext
    · cases hnext
      rfl
    · obtain ⟨_,_,hreturn⟩ := ok_of_bind hnext
      cases hreturn
      rfl
  | replacing record =>
    rw [State.advance] at hadvance
    split at hadvance
    · cases hadvance
      exact refines_idle h _ rfl rfl
    · rename_i hsome
      cases hadvance
      exact refines_replacing h (by simp [hsome]) id
  | replaced record =>
    cases hadvance
    exact refines_replaced h id
  | retiring record disposer =>
    cases hadvance
    exact refines_retiring h id
  | registering record definition created =>
    rw [State.advance] at hadvance
    split at hadvance
    · rename_i hlive
      cases hadvance
      exact refines_rejected h (by simp [hlive]) _ id
    · rename_i hnone
      cases hadvance
      exact refines_registering h hnone id
  | registered record disposer created =>
    cases hadvance
    exact refines_registered h id
  | resolving record created =>
    cases broken with
    | some reason =>
      cases hadvance
      exact refines_idle h _ rfl rfl
    | none =>
      cases hadvance
      apply refines_idle h _ rfl
      cases created <;> rfl
  | rollingBack record err =>
    rw [State.advance] at hadvance
    split at hadvance
    · rename_i hnone
      cases hadvance
      exact refines_abandoned h hnone id
    · rename_i hsome
      cases hadvance
      exact refines_rollingBack h (by simp [hsome]) id
  | viewing presetId =>
    cases hadvance
    apply refines_found h rfl
    intro record stage' hnext
    cases hnext
    rfl
  | removing presetId =>
    rw [State.advance] at hadvance
    split at hadvance
    · cases hadvance
      exact refines_idle h _ rfl rfl
    · rename_i hsome
      cases hadvance
      exact refines_removing h (by simp [hsome]) id
  | removed presetId =>
    cases hadvance
    exact refines_removed h id
  | releasing presetId disposer =>
    cases hadvance
    exact refines_releasing h id
  | settled result => cases hadvance

/-- A new call has nothing to do with any id yet. -/
theorem entry_call (s : State) (operation : Operation) (id : String) :
    ({ s with calls := s.calls ++ [begin operation] } : State).entry id = s.entry id := by
  have hout : (begin operation).on id = .out := by
    cases operation with
    | compose presetId => cases presetId <;> rfl
    | create input => rfl
    | update presetId patch => rfl
    | remove presetId => rfl
  unfold State.entry
  congr 1
  funext k
  rw [List.getElem?_append]
  split
  · rfl
  · rename_i hk
    rw [List.getElem?_eq_none (Nat.le_of_not_lt hk)]
    cases he : [begin operation][k - s.calls.length]? with
    | none => rfl
    | some stage =>
      rw [List.mem_singleton.mp (List.mem_of_getElem? he)]
      exact hout

/-! ## After `restore` -/

private theorem restoreRecord_ne {record : PresetRecord} (h : id ≠ record.id) :
    (restoreRecord d s record).entry id = s.entry id := by
  unfold restoreRecord
  split
  · rw [entry_setDisposer_ne h,entry_addRegistration_ne h]
  · rfl

/-- A record whose id is not registered is registered if its definition can be derived. -/
theorem restoreRecord_self {record : PresetRecord} (hfree : s.registry record.id = none)
    (hhandle : s.disposers record.id = none) :
    ((restoreRecord d s record).registry record.id).map Prod.snd = derive d record ∧
      (restoreRecord d s record).disposers record.id =
        ((restoreRecord d s record).registry record.id).map Prod.fst := by
  unfold restoreRecord derive
  cases hdefinition : definitionOf d record with
  | ok definition =>
    simp [hfree,State.addRegistration,State.setDisposer,Except.toOption]
  | error err => simp [hfree,hhandle,Except.toOption]

private theorem foldl_restoreRecord_ne {records : List PresetRecord}
    (h : id ∉ records.map PresetRecord.id) (s : State) :
    (records.foldl (restoreRecord d) s).entry id = s.entry id := by
  induction records generalizing s with
  | nil => rfl
  | cons record records ih =>
    obtain ⟨hne,hrest⟩ := List.ne_and_not_mem_of_not_mem_cons h
    rw [List.foldl_cons,ih hrest,restoreRecord_ne hne]

private theorem foldl_restoreRecord_self {records : List PresetRecord}
    (hn : (records.map PresetRecord.id).Nodup) {record : PresetRecord} (hmem : record ∈ records)
    (hfree : s.registry record.id = none) (hhandle : s.disposers record.id = none) :
    ((records.foldl (restoreRecord d) s).registry record.id).map Prod.snd = derive d record ∧
      (records.foldl (restoreRecord d) s).disposers record.id =
        ((records.foldl (restoreRecord d) s).registry record.id).map Prod.fst := by
  induction records generalizing s with
  | nil => cases hmem
  | cons first records ih =>
    obtain ⟨hnot,hrest⟩ := List.nodup_cons.mp hn
    rw [List.foldl_cons]
    rcases List.mem_cons.mp hmem with rfl | hmem
    · have hkept := foldl_restoreRecord_ne (d := d) hnot (restoreRecord d s record)
      have hregistry : (records.foldl (restoreRecord d) (restoreRecord d s record)).registry
        record.id = (restoreRecord d s record).registry record.id :=
        congrArg Projection.Entry.live hkept
      have hdisposers : (records.foldl (restoreRecord d) (restoreRecord d s record)).disposers
        record.id = (restoreRecord d s record).disposers record.id :=
        congrArg Projection.Entry.handle hkept
      rw [hregistry,hdisposers]
      exact restoreRecord_self hfree hhandle
    · have hne : record.id ≠ first.id := by
        intro he
        exact hnot (he ▸ List.mem_map_of_mem hmem)
      have hkept := restoreRecord_ne (d := d) (s := s) hne
      apply ih hrest hmem
      · exact (congrArg Projection.Entry.live hkept).trans hfree
      · exact (congrArg Projection.Entry.handle hkept).trans hhandle

private theorem restoreRecord_store (d : Deployment) (s : State) (record : PresetRecord) :
    (restoreRecord d s record).store = s.store ∧ (restoreRecord d s record).calls = s.calls := by
  unfold restoreRecord
  split
  · exact ⟨rfl,rfl⟩
  · exact ⟨rfl,rfl⟩

theorem foldl_restoreRecord_store (d : Deployment) (records : List PresetRecord) (s : State) :
    (records.foldl (restoreRecord d) s).store = s.store ∧
      (records.foldl (restoreRecord d) s).calls = s.calls := by
  induction records generalizing s with
  | nil => exact ⟨rfl,rfl⟩
  | cons record records ih =>
    obtain ⟨hstore,hcalls⟩ := restoreRecord_store d s record
    rw [List.foldl_cons,(ih _).1,(ih _).2]
    exact ⟨hstore,hcalls⟩

/-- The engine mirrors the store after `restore`. -/
theorem restored_mirrors (d : Deployment) {records : List PresetRecord}
    (hn : (records.map PresetRecord.id).Nodup) (id : String) :
    Projection.Mirrors (derive d) ((restored d records).entry id) := by
  have hstore : (restored d records).store id = records.find? fun record => record.id = id :=
    congrFun (foldl_restoreRecord_store d records (booted records)).1 id
  cases hfind : records.find? fun record => record.id = id with
  | none =>
    have hnot : id ∉ records.map PresetRecord.id := by
      intro hmem
      obtain ⟨record,hrecord,hid⟩ := List.mem_map.mp hmem
      exact List.find?_eq_none.mp hfind record hrecord (decide_eq_true hid)
    have hkept : (restored d records).entry id = (booted records).entry id :=
      foldl_restoreRecord_ne hnot (booted records)
    rw [hkept]
    refine ⟨?_,rfl⟩
    change none = (records.find? fun record => record.id = id).bind (derive d)
    rw [hfind]
    rfl
  | some record =>
    have hid : record.id = id := by simpa using List.find?_some hfind
    have hmem := List.mem_of_find?_eq_some hfind
    subst hid
    have hself := foldl_restoreRecord_self (d := d) (s := booted records) hn hmem rfl rfl
    refine ⟨?_,hself.2⟩
    change ((restored d records).registry record.id).map Prod.snd =
      ((restored d records).store record.id).bind (derive d)
    rw [hstore,hfind]
    exact hself.1

end Dominion.Presets
