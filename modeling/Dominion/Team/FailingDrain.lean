import Dominion.Team.Drain

/-! # Drains that fail

`buildMessage` may throw, so here the drain takes it as a parameter.  The loop marks each unit that
it built; a later failure discards the messages and leaves the marks. -/
namespace Dominion.Team

open Dominion.Framework

/-- What a rebuilt list leaves out. -/
def MemberState.Marks (m : MemberState) (anchor : String) : Prop :=
  anchor ∈ m.drained ∨ anchor ∈ consumedAnchors m.events

namespace TeamState

private theorem Follows.marks {m m' : MemberState} (h : Follows m m') {anchor : String}
    (ha : m.Marks anchor) : m'.Marks anchor :=
  ha.elim (h.kept anchor) fun hc => Or.inr (h.consumed anchor hc)

/-- The loop of `drain` over a given `buildMessage`. -/
def drainUnitsWith (build : PendingUnit → Except String UserMessage) : List PendingUnit →
    List String → List UserMessage → List String × Except String (List UserMessage)
  | [],drained,messages => (drained,.ok messages)
  | unit :: units,drained,messages =>
    match build unit with
    | .error error => (drained,.error error)
    | .ok message => drainUnitsWith build units (unit.anchor :: drained) (messages ++ [message])

def drainWith (build : PendingUnit → Except String UserMessage) (team : TeamState) (id : String) :
    TeamState × Except String (List UserMessage) :=
  match team.member? id with
  | none => (team,.error ("team drain: member \"" ++ id ++ "\" is not a registered member"))
  | some state =>
    if state.announceOnly then
      (team,.error ("team drain: member \"" ++ id ++
        "\" is announce-only and cannot consume broadcasts"))
    else
      let state := team.reconcile state
      let r := drainUnitsWith build state.pending state.drained []
      (team.modifyMember id fun _ => { state with pending := [], drained := r.1 },r.2)

inductive LaterLabel
  | team (l : Label)
  | drain (build : PendingUnit → Except String UserMessage) (id : String)

def laterStep (s : TeamState) : LaterLabel → TeamState
  | .team l => s.step l
  | .drain build id => (s.drainWith build id).1

/-- What happens to a team from a given state on. -/
def later (start : TeamState) : Lts TeamState LaterLabel where
  init s := s = start
  step s l := some (s.laterStep l)

/-- A member is not dropped. -/
def Stays (id : String) (s : TeamState) (l : LaterLabel) : Prop :=
  ∃ m ∈ (s.laterStep l).members, m.id = id

/-- A drain whose messages can be built returns the message of this unit. -/
def Returns (s : TeamState) (id : String) (u : PendingUnit) : Prop :=
  ∀ build : PendingUnit → UserMessage, ∃ messages,
    (s.drainWith (fun unit => .ok (build unit)) id).2 = .ok messages ∧ build u ∈ messages

/-- The unit comes back in some later drain of the member, as long as it is registered. -/
def Recovers (s : TeamState) (id : String) (u : PendingUnit) : Prop :=
  ∃ t, Lts.ReachUnder s.later (Stays id) t ∧ t.Returns id u

/-- Every entry of this member leaves the anchor out. -/
def Marked (s : TeamState) (id anchor : String) : Prop :=
  (∃ m ∈ s.members, m.id = id) ∧ ∀ m ∈ s.members, m.id = id → m.Marks anchor

variable {s s' : TeamState} {m n : MemberState} {id anchor : String} {u : PendingUnit}
  {build : PendingUnit → Except String UserMessage}

private theorem drainUnitsWith_buildMessage (units : List PendingUnit) (drained : List String)
    (messages : List UserMessage) :
    drainUnitsWith s.buildMessage units drained messages = s.drainUnits units drained messages := by
  induction units generalizing drained messages with
  | nil => rfl
  | cons u units ih =>
    simp only [drainUnitsWith,drainUnits]
    cases s.buildMessage u with
    | error error => rfl
    | ok message => exact ih _ _

private theorem drainWith_buildMessage : s.drainWith s.buildMessage id = s.drain id := by
  cases hmember : s.member? id with
  | none => simp [drainWith,drain,hmember]
  | some m => simp [drainWith,drain,hmember,drainUnitsWith_buildMessage]

/-! ## The loop -/

private theorem drainUnitsWith_ok (build : PendingUnit → UserMessage) (units : List PendingUnit)
    (drained : List String) (messages : List UserMessage) :
    drainUnitsWith (fun unit => .ok (build unit)) units drained messages =
      ((units.map fun u => u.anchor).reverse ++ drained,.ok (messages ++ units.map build)) := by
  induction units generalizing drained messages with
  | nil => simp [drainUnitsWith]
  | cons u units ih => simp [drainUnitsWith,ih]

private theorem mem_drainUnitsWith {units : List PendingUnit} {drained : List String}
    {messages : List UserMessage} (h : anchor ∈ drained) :
    anchor ∈ (drainUnitsWith build units drained messages).1 := by
  induction units generalizing drained messages with
  | nil => exact h
  | cons u units ih =>
    rw [drainUnitsWith]
    cases build u with
    | error error => exact h
    | ok message => exact ih (List.mem_cons_of_mem _ h)

/-- A loop that throws has marked the units in front of the one that failed. -/
theorem drainUnitsWith_error {units : List PendingUnit} {drained : List String}
    {messages : List UserMessage} {error : String}
    (h : (drainUnitsWith build units drained messages).2 = .error error) :
    ∃ built u rest, units = built ++ u :: rest ∧ (∀ v ∈ built, ∃ message, build v = .ok message) ∧
      build u = .error error ∧
      (drainUnitsWith build units drained messages).1 =
        (built.map fun v => v.anchor).reverse ++ drained := by
  induction units generalizing drained messages with
  | nil => cases h
  | cons u units ih =>
    rw [drainUnitsWith] at h ⊢
    cases hu : build u with
    | error e =>
      rw [hu] at h
      exact ⟨[],u,units,rfl,by simp,hu.trans (congrArg Except.error (Except.error.inj h)),rfl⟩
    | ok message =>
      rw [hu] at h
      obtain ⟨built,v,rest,hunits,hbuilt,hv,hmarks⟩ := ih h
      apply Exists.intro (u :: built)
      exact ⟨v,rest,by rw [hunits]; rfl,by simpa [hu] using hbuilt,hv,by simpa using hmarks⟩

/-! ## The rebuilt list -/

private theorem mem_reconcile_pending (hc : m.announceOnly = false) :
    u ∈ (s.reconcile m).pending ↔
      (∃ n ∈ s.members, n.id ≠ m.id ∧ u ∈ unitsOf n) ∧ ¬ m.Marks u.anchor := by
  simp only [reconcile,hc,Bool.false_eq_true,if_false,List.mem_insertionSort,List.mem_flatMap,
    List.mem_filter,decide_eq_true_eq,MemberState.Marks]
  constructor
  · rintro ⟨n,⟨hn,hne⟩,hu,hconsumed,hdrained⟩
    exact ⟨⟨n,hn,hne,hu⟩,fun hmark => hmark.elim (fun hd => hdrained ⟨hd,hconsumed⟩) hconsumed⟩
  · rintro ⟨⟨n,hn,hne,hu⟩,hmark⟩
    exact ⟨n,⟨hn,hne⟩,hu,fun hc => hmark (Or.inr hc),fun hd => hmark (Or.inl hd.1)⟩

private theorem reconcile_announceOnly (m : MemberState) :
    (s.reconcile m).announceOnly = m.announceOnly := by
  unfold reconcile
  split <;> rfl

private theorem reconcile_events (m : MemberState) : (s.reconcile m).events = m.events := by
  unfold reconcile
  split <;> rfl

/-! ## A unit that was marked -/

/-- A drain that returns this unit finds it in the rebuilt list, at least by its anchor. -/
theorem Returns.pending (h : s.Returns id u) :
    ∃ m ∈ s.members, m.id = id ∧ m.announceOnly = false ∧
      ∃ v ∈ (s.reconcile m).pending, v.anchor = u.anchor := by
  let labelled : PendingUnit → UserMessage := fun unit =>
    ⟨[],.teamBroadcast ⟨"","",unit.anchor,none⟩⟩
  obtain ⟨messages,hdrain,hu⟩ := h labelled
  unfold drainWith at hdrain
  cases hm : s.member? id with
  | none => simp [hm] at hdrain
  | some m =>
    obtain ⟨hmem,hid⟩ := mem_of_member? hm
    cases hc : m.announceOnly with
    | true => simp [hm,hc] at hdrain
    | false =>
      have hmessages : (s.reconcile m).pending.map labelled = messages := by
        simpa [hm,hc,drainUnitsWith_ok] using hdrain
      rw [← hmessages] at hu
      obtain ⟨v,hv,he⟩ := List.mem_map.mp hu
      exact ⟨m,hmem,hid,hc,v,hv,by simpa [labelled] using he⟩

private theorem Marked.not_returns (h : s.Marked id u.anchor) : ¬ s.Returns id u := by
  intro hreturns
  obtain ⟨m,hm,hid,hc,v,hv,hanchor⟩ := hreturns.pending
  apply ((mem_reconcile_pending hc).mp hv).2
  rw [hanchor]
  exact h.2 m hm hid

private theorem marked_core : s.core.Marked id anchor ↔ s.Marked id anchor := by
  simp [Marked,core,MemberState.Marks]

/-- Every member of this id follows one that was marked. -/
theorem Marked.follow (h : s.Marked id anchor) (hstays : ∃ m ∈ s'.members, m.id = id)
    (hfollow : ∀ m' ∈ s'.members, m'.id = id → ∃ m ∈ s.members, m.id = id ∧
      (m.Marks anchor → m'.Marks anchor)) : s'.Marked id anchor := by
  apply And.intro hstays
  intro m' hm' hid
  obtain ⟨m,hm,hmid,hmarks⟩ := hfollow m' hm' hid
  exact hmarks (h.2 m hm hmid)

private theorem Marked.modify (h : s.Marked id anchor) {k : String} {f : MemberState → MemberState}
    (hf : ∀ m ∈ s.members, m.id = k → (f m).id = m.id ∧
      (k = id → m.Marks anchor → (f m).Marks anchor)) :
    (s.modifyMember k f).Marked id anchor := by
  have hid : ∀ m ∈ s.members, (if m.id = k then f m else m).id = m.id := by
    intro m hm
    split
    · rename_i hk
      exact (hf m hm hk).1
    · rfl
  apply h.follow
  · obtain ⟨m,hm,hmid⟩ := h.1
    exact ⟨_,mem_modifyMember.mpr ⟨m,hm,rfl⟩,(hid m hm).trans hmid⟩
  · intro m' hm' hmid
    obtain ⟨m,hm,rfl⟩ := mem_modifyMember.mp hm'
    refine ⟨m,hm,(hid m hm).symm.trans hmid,fun hmarks => ?_⟩
    split
    · rename_i hk
      exact (hf m hm hk).2 (hk.symm.trans ((hid m hm).symm.trans hmid)) hmarks
    · exact hmarks

private theorem Marked.drainWith (h : s.Marked id anchor) (k : String) :
    (s.drainWith build k).1.Marked id anchor := by
  unfold TeamState.drainWith
  cases hm : s.member? k with
  | none => exact h
  | some m =>
    obtain ⟨hmem,hid⟩ := mem_of_member? hm
    cases hc : m.announceOnly with
    | true => simpa [hc] using h
    | false =>
      simp only [hc,Bool.false_eq_true,if_false]
      apply h.modify
      intro n hn hnk
      refine ⟨(reconcile_id m).trans (hid.trans hnk.symm),fun hk _ => ?_⟩
      -- the stored state is that of the member which was found first under this id
      have hmarked : (s.reconcile m).Marks anchor :=
        (reconcile_follows m).marks (h.2 m hmem (hid.trans hk))
      exact hmarked.imp_left mem_drainUnitsWith

private theorem Marked.enroll (h : s.Marked id anchor) (r : TeamMemberRegistration) :
    (s.enroll r).Marked id anchor := by
  unfold TeamState.enroll
  cases hm : s.member? r.source.id with
  | some existing =>
    apply h.modify
    exact fun _ _ _ => ⟨rfl,fun _ hmark => hmark⟩
  | none =>
    apply h.follow
    · obtain ⟨m,hm,hid⟩ := h.1
      exact ⟨m,List.mem_append_left _ hm,hid⟩
    · intro m' hm' hid
      rcases List.mem_append.mp hm' with hm' | hm'
      · exact ⟨m',hm',hid,fun hmark => hmark⟩
      · -- a new member is not the one that is registered already
        obtain rfl := List.mem_singleton.mp hm'
        obtain ⟨m,hmem,hmid⟩ := h.1
        have hsome := mem_of_member?_isSome.mpr ⟨m,hmem,hmid.trans hid.symm⟩
        simp [MemberState.id,hm] at hsome

private theorem Marked.foldl_enroll (h : s.Marked id anchor) (rs : List TeamMemberRegistration) :
    (rs.foldl TeamState.enroll s).Marked id anchor := by
  induction rs generalizing s with
  | nil => exact h
  | cons r rs ih => exact ih (h.enroll r)

private theorem Marked.register {r : TeamRegistration} (h : s.Marked id anchor)
    (hs' : s.register r = .ok s') (hstays : ∃ m ∈ s'.members, m.id = id) :
    s'.Marked id anchor := by
  unfold TeamState.register at hs'
  dsimp only at hs'
  split at hs'
  · cases hs'
  · split at hs'
    · cases hs'
    · let ids := r.members.map fun member => member.source.id
      let t : TeamState := { s.resolveTeam ids with goal := r.goal, context := r.context }
      let enrolled := r.members.foldl TeamState.enroll t
      let kept := enrolled.members.filter fun m => decide (m.id ∈ ids)
      let k : TeamState := { enrolled with members := kept }
      have hs : s' = { k with members := kept.map k.reconcile } := (Except.ok.inj hs').symm
      have hids : id ∈ ids := by
        obtain ⟨m,hm,hid⟩ := hstays
        rw [hs] at hm
        obtain ⟨n,hn,rfl⟩ := List.mem_map.mp hm
        rw [reconcile_id] at hid
        rw [← hid]
        simpa using (List.mem_filter.mp hn).2
      -- the team that is resolved is the one that holds the member
      have ht : t.members = s.members := by
        have hheld : ids.any (fun k => (s.member? k).isSome) = true := by
          apply List.any_eq_true.mpr
          exact ⟨id,hids,mem_of_member?_isSome.mpr h.1⟩
        show (s.resolveTeam ids).members = s.members
        rw [resolveTeam,if_pos hheld]
      have hstart : t.Marked id anchor := by
        unfold Marked
        rw [ht]
        exact h
      apply (hstart.foldl_enroll r.members).follow hstays
      intro m' hm' hid
      rw [hs] at hm'
      obtain ⟨n,hn,rfl⟩ := List.mem_map.mp hm'
      rw [reconcile_id] at hid
      exact ⟨n,List.mem_of_mem_filter hn,hid,(reconcile_follows n).marks⟩

private theorem Marked.step {l : LaterLabel} (h : s.Marked id anchor) (hstays : Stays id s l) :
    (s.laterStep l).Marked id anchor := by
  cases l with
  | drain build k => exact h.drainWith k
  | team l =>
    cases l with
    | register r =>
      unfold Stays laterStep TeamState.step at *
      cases hr : s.register r with
      | error error => simpa [hr] using h
      | ok s' =>
        simp only [hr] at hstays ⊢
        exact h.register hr hstays
    | append k event =>
      apply h.modify
      intro m hm hk
      refine ⟨rfl,fun _ hmark => hmark.imp_right fun hc => ?_⟩
      show anchor ∈ consumedAnchors (m.events ++ [event])
      rw [consumedAnchors,List.filterMap_append]
      exact List.mem_append_left _ hc
    | notify k event =>
      have hcore := @onMemberEvent_core s k event
      apply marked_core.mp
      show (s.onMemberEvent k event).team.core.Marked id anchor
      rw [hcore]
      exact marked_core.mpr h
    | drain k =>
      show (s.drain k).1.Marked id anchor
      rw [← drainWith_buildMessage]
      exact h.drainWith k

private theorem Marked.later {t : TeamState} (h : s.Marked id anchor)
    (ht : Lts.ReachUnder s.later (Stays id) t) : t.Marked id anchor := by
  induction ht with
  | init hs =>
    have he := hs
    exact he.symm ▸ h
  | step _ hstays hstep ih => exact Option.some.inj hstep ▸ ih.step hstays

/-! ## After a failure -/

private theorem member?_modifyMember {f : MemberState → MemberState}
    (hf : ∀ m, m.id = id → (f m).id = id) :
    (s.modifyMember id f).member? id = (s.member? id).map f := by
  unfold member? modifyMember
  induction s.members with
  | nil => rfl
  | cons m members ih =>
    by_cases hid : m.id = id
    · simp [hid,hf m hid]
    · simpa [hid] using ih

/-- What a consuming member's drain leaves of it. -/
def afterDrain (build : PendingUnit → Except String UserMessage) (s : TeamState) (m : MemberState) :
    MemberState :=
  { s.reconcile m with
    pending := []
    drained := (drainUnitsWith build (s.reconcile m).pending (s.reconcile m).drained []).1 }

private theorem drainWith_eq (hm : s.member? id = some m) (hc : m.announceOnly = false) :
    s.drainWith build id = (s.modifyMember id fun _ => s.afterDrain build m,
      (drainUnitsWith build (s.reconcile m).pending (s.reconcile m).drained []).2) := by
  simp only [drainWith,hm,hc,Bool.false_eq_true,if_false,afterDrain]

private theorem afterDrain_id : (s.afterDrain build m).id = m.id :=
  reconcile_id m

private theorem afterDrain_announceOnly (hc : m.announceOnly = false) :
    (s.afterDrain build m).announceOnly = false :=
  (reconcile_announceOnly m).trans hc

/-- A drain marks what its loop built, beside what was marked before. -/
theorem marks_afterDrain {built : List PendingUnit}
    (hbuilt : (drainUnitsWith build (s.reconcile m).pending (s.reconcile m).drained []).1 =
      (built.map fun v => v.anchor).reverse ++ (s.reconcile m).drained) :
    (s.afterDrain build m).Marks anchor ↔ anchor ∈ built.map (fun v => v.anchor) ∨
      (s.reconcile m).Marks anchor := by
  simp only [MemberState.Marks,afterDrain,MemberState.events,hbuilt,List.mem_append,List.mem_reverse]
  exact or_assoc

private theorem marks_reconcile : (s.reconcile m).Marks anchor ↔ m.Marks anchor := by
  constructor
  · intro h
    rcases h with h | h
    · exact Or.inl ((reconcile_follows m).drained anchor h)
    · rw [reconcile_events] at h
      exact Or.inr h
  · exact (reconcile_follows m).marks

/-- The next drain returns a unit that is pending and was not marked by the failed one. -/
theorem afterDrain_returns {built : List PendingUnit} (hm : s.member? id = some m)
    (hc : m.announceOnly = false)
    (hbuilt : (drainUnitsWith build (s.reconcile m).pending (s.reconcile m).drained []).1 =
      (built.map fun v => v.anchor).reverse ++ (s.reconcile m).drained)
    (hu : u ∈ (s.reconcile m).pending) (hmark : u.anchor ∉ built.map fun v => v.anchor) :
    (s.drainWith build id).1.Returns id u := by
  obtain ⟨hmem,hid⟩ := mem_of_member? hm
  have hfound : (s.drainWith build id).1.member? id = some (s.afterDrain build m) := by
    rw [drainWith_eq hm hc,member?_modifyMember fun _ _ => afterDrain_id.trans hid,hm]
    rfl
  have hc' := @afterDrain_announceOnly s m build hc
  have hpending : u ∈ ((s.drainWith build id).1.reconcile (s.afterDrain build m)).pending := by
    obtain ⟨⟨n,hn,hne,hunit⟩,hunmarked⟩ := (mem_reconcile_pending hc).mp hu
    apply (mem_reconcile_pending hc').mpr
    rw [afterDrain_id,marks_afterDrain hbuilt,marks_reconcile]
    refine ⟨⟨n,?_,hne,hunit⟩,fun h => h.elim hmark hunmarked⟩
    rw [drainWith_eq hm hc]
    apply mem_modifyMember.mpr
    exact ⟨n,hn,if_neg fun he => hne (he.trans hid.symm)⟩
  intro again
  refine ⟨_,?_,List.mem_map_of_mem hpending⟩
  rw [drainWith_eq hfound hc',drainUnitsWith_ok]
  rfl

private theorem afterDrain_marked {built : List PendingUnit} (hm : s.member? id = some m)
    (hc : m.announceOnly = false)
    (hbuilt : (drainUnitsWith build (s.reconcile m).pending (s.reconcile m).drained []).1 =
      (built.map fun v => v.anchor).reverse ++ (s.reconcile m).drained)
    (hmark : anchor ∈ built.map fun v => v.anchor) :
    (s.drainWith build id).1.Marked id anchor := by
  obtain ⟨hmem,hid⟩ := mem_of_member? hm
  have hmarks := (marks_afterDrain hbuilt).mpr (Or.inl hmark)
  have hput : ∀ n ∈ (s.drainWith build id).1.members, n.id = id → n = s.afterDrain build m := by
    intro n hn hnid
    rw [drainWith_eq hm hc] at hn
    obtain ⟨k,hk,rfl⟩ := mem_modifyMember.mp hn
    split
    · rfl
    · rename_i hne
      rw [if_neg hne] at hnid
      exact absurd hnid hne
  constructor
  · rw [drainWith_eq hm hc]
    exact ⟨_,mem_modifyMember.mpr ⟨m,hmem,rfl⟩,by rw [if_pos hid,afterDrain_id,hid]⟩
  · intro n hn hnid
    rw [hput n hn hnid]
    exact hmarks

/-- After a drain that threw, the units that come back are those it had not built. -/
theorem recovers_iff (built : List PendingUnit) (hm : s.member? id = some m)
    (hc : m.announceOnly = false)
    (hbuilt : (drainUnitsWith build (s.reconcile m).pending (s.reconcile m).drained []).1 =
      (built.map fun v => v.anchor).reverse ++ (s.reconcile m).drained)
    (hu : u ∈ (s.reconcile m).pending) :
    (s.drainWith build id).1.Recovers id u ↔ u.anchor ∉ built.map fun v => v.anchor := by
  constructor
  · intro h hmark
    obtain ⟨t,ht,hreturns⟩ := h
    have hmarked := (afterDrain_marked hm hc hbuilt hmark).later ht
    exact hmarked.not_returns hreturns
  · intro hmark
    exact ⟨_,.init rfl,afterDrain_returns hm hc hbuilt hu hmark⟩

/-- A failing drain loses the units it had built: all pending units come back, and already with the
next drain, exactly when the first of them is the one that could not be built. -/
theorem failing_drain_keeps_all_iff (s : TeamState) (id : String) (m : MemberState)
    (build : PendingUnit → Except String UserMessage) (error : String)
    (hm : s.member? id = some m) (hfail : (s.drainWith build id).2 = .error error)
    (hc : m.announceOnly = false) :
    ((∀ u ∈ (s.reconcile m).pending, (s.drainWith build id).1.Recovers id u) ↔
      ∀ u ∈ (s.reconcile m).pending.head?, ∃ e, build u = .error e) ∧
    ((∀ u ∈ (s.reconcile m).pending, (s.drainWith build id).1.Returns id u) ↔
      ∀ u ∈ (s.reconcile m).pending.head?, ∃ e, build u = .error e) := by
  rw [drainWith_eq hm hc] at hfail
  obtain ⟨built,u,rest,hpending,hok,hu,hmarks⟩ := drainUnitsWith_error hfail
  have hhead : (∀ v ∈ (s.reconcile m).pending.head?, ∃ e, build v = .error e) ↔ built = [] := by
    cases built with
    | nil => simp [hpending,hu]
    | cons v built =>
      obtain ⟨message,hv⟩ := hok v (by simp)
      simp [hpending,hv]
  have hback : built = [] → ∀ v ∈ (s.reconcile m).pending, (s.drainWith build id).1.Returns id v := by
    intro hnil v hv
    apply afterDrain_returns hm hc hmarks hv
    simp [hnil]
  have hlost : (∀ v ∈ (s.reconcile m).pending, (s.drainWith build id).1.Recovers id v) →
      built = [] := by
    intro h
    apply List.eq_nil_iff_forall_not_mem.mpr
    intro v hv
    have hmem : v ∈ (s.reconcile m).pending := by
      rw [hpending]
      exact List.mem_append_left _ hv
    exact (recovers_iff _ hm hc hmarks hmem).mp (h v hmem) (List.mem_map_of_mem hv)
  rw [hhead]
  constructor
  · exact ⟨hlost,fun hnil v hv => ⟨_,.init rfl,hback hnil v hv⟩⟩
  · exact ⟨fun h => hlost fun v hv => ⟨_,.init rfl,h v hv⟩,hback⟩

/-- Two speeches of a player that a planner has not been given. -/
def twoSpeeches : TeamState :=
  let speech (id text : String) (seq : Nat) : SessionEvent :=
    ⟨seq,seq,.assistantMessage ⟨id,[.text text]⟩⟩
  let member (id role : String) (events : List SessionEvent) : MemberState :=
    ⟨⟨⟨id,events,none,false⟩,role,""⟩,[],[],fun _ => none⟩
  { goal := "win"
    members := [member "p" "player" [speech "m1" "open" 0,speech "m2" "flag" 1],
      member "q" "planner" []] }

def planner : MemberState :=
  ⟨⟨⟨"q",[],none,false⟩,"planner",""⟩,[],[],fun _ => none⟩

/-- A renderer that fails for one anchor. -/
def failsOn (anchor : String) (u : PendingUnit) : Except String UserMessage :=
  if u.anchor = anchor then .error "team broadcast: transient build failure"
  else twoSpeeches.buildMessage u

theorem failing_drain_keeps_all_iff_demo :
    (twoSpeeches.reconcile planner).pending.length = 2 ∧
      ∀ u ∈ (twoSpeeches.reconcile planner).pending,
        (twoSpeeches.drainWith (failsOn "m1") "q").1.Returns "q" u := by
  have hfail : (twoSpeeches.drainWith (failsOn "m1") "q").2 =
      .error "team broadcast: transient build failure" := rfl
  apply And.intro rfl
  apply (failing_drain_keeps_all_iff twoSpeeches "q" planner (failsOn "m1") _ rfl hfail rfl).2.mpr
  intro u hu
  obtain rfl := Option.some.inj (show _ = some u from hu)
  exact ⟨_,rfl⟩

/-- The second speech cannot be built: the first is given to nobody, then or later. -/
theorem failing_drain_loses_first_speech : ∃ u ∈ (twoSpeeches.reconcile planner).pending,
    u.anchor = "m1" ∧ twoSpeeches.member? "q" = some planner ∧
      (twoSpeeches.drainWith (failsOn "m2") "q").2 =
        .error "team broadcast: transient build failure" ∧
      ¬ (twoSpeeches.drainWith (failsOn "m2") "q").1.Recovers "q" u := by
  let first : PendingUnit := ⟨⟨.message,"m1",0,0⟩,"p","player"⟩
  have hpending : first ∈ (twoSpeeches.reconcile planner).pending := by decide
  refine ⟨first,hpending,rfl,rfl,rfl,?_⟩
  intro h
  exact (recovers_iff [first] rfl rfl rfl hpending).mp h (by simp)

end TeamState
end Dominion.Team
