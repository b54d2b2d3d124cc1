import Dominion.Framework.Fallible
import Dominion.Deploy.K8s.StatefulEndpoints
import Dominion.Solver.Resolvers

/-! # Instances of a stateful service

The deploy service answers the endpoints of a stateful service as one list and by instance.  Both
have the same addresses; the lists of the instances are in the order in which a run of the query
comes to them, unless every instance has one pod and the Service has one port. -/
namespace Dominion.Solver

open Dominion.Framework
open Dominion.Deploy.Domain (Err)
open Dominion.Deploy.K8s

/-! ## Resolver -/

def filterInstance (info : StatefulQueryResult) (ps : PortSelector) (i : StatefulInstance) :
    Except Err StatefulInstance := do
  let filteredEndpoints ← filterEndpoints i.endpoints info.ports ps
  return { i with endpoints := filteredEndpoints }

/-- The loop of `DeployStatefulResolver.Resolve`. -/
def filterInstances (info : StatefulQueryResult) (ps : PortSelector) :
    Except Err (List StatefulInstance) :=
  info.statefulInstances.mapM (filterInstance info ps)

/-- `DeployStatefulResolver.Resolve`, for what the query of the runtime answers. -/
def resolveStateful (view : PodDiscovery) (envLabel : String) (ranges : Ranges) (target : Target) :
    Except Err (List StatefulInstance) := do
  let info ← queryStatefulServiceEndpoints view envLabel target.app target.service ranges
  filterInstances info target.portSelector

/-! ## Addresses -/

section addresses

variable {host host' port port' : String}

/-- The host as it stands before the port. -/
def bracketed (host : String) : List Char :=
  if ':' ∈ host.toList then '[' :: host.toList ++ [']'] else host.toList

private theorem toList_joinHostPort (host port : String) :
    (joinHostPort host port).toList = bracketed host ++ ':' :: port.toList := by
  unfold joinHostPort bracketed
  split <;> simp

private theorem bracketed_inj (h : bracketed host = bracketed host') : host = host' := by
  have hcolon : ∀ s : String, ':' ∈ bracketed s ↔ ':' ∈ s.toList := by
    intro s
    unfold bracketed
    split <;> simp [*]
  have hsame : ':' ∈ host.toList ↔ ':' ∈ host'.toList := by rw [← hcolon,← hcolon,h]
  unfold bracketed at h
  by_cases hmem : ':' ∈ host.toList
  · rw [if_pos hmem,if_pos (hsame.mp hmem)] at h
    exact String.toList_inj.mp (List.append_cancel_right (List.cons.inj h).2)
  · rw [if_neg hmem,if_neg (mt hsame.mpr hmem)] at h
    exact String.toList_inj.mp h

private theorem host_of_joinHostPort (hport : ':' ∉ port.toList) (hport' : ':' ∉ port'.toList)
    (h : joinHostPort host port = joinHostPort host' port') : host = host' := by
  have hlists := congrArg (fun s => cutLast ':' s.toList) h
  simp only [toList_joinHostPort,cutLast_append hport,cutLast_append hport',Option.some.injEq,
    Prod.mk.injEq] at hlists
  exact bracketed_inj hlists.1

end addresses

/-! ## Filters -/

section filters

variable {ports : Store String Int} {ps : PortSelector}

/-- What a filter keeps of an endpoint. -/
def keepEndpoint (ports : Store String Int) (ps : PortSelector) (ep : String) : Option String :=
  if ps.isNumeric then
    (splitHostPort ep).bind fun hp =>
      if hp.2 = ps.numeric.repr then some (joinHostPort hp.1 ps.numeric.repr) else none
  else if ps.isNamed then
    (ports.lookup ps.name).bind fun port =>
      (splitHostPort ep).map fun hp => joinHostPort hp.1 port.repr
  else some ep

/-- A filter fails on every list but the empty one, or it keeps each endpoint by itself. -/
theorem filterEndpoints_cases (ports : Store String Int) (ps : PortSelector) :
    (∃ e, ∀ endpoints, endpoints ≠ [] → filterEndpoints endpoints ports ps = .error e) ∨
      ∀ endpoints, ∃ filtered, filterEndpoints endpoints ports ps = .ok filtered ∧
        ∀ x, x ∈ filtered ↔ ∃ ep ∈ endpoints, keepEndpoint ports ps ep = some x := by
  have hempty : ∃ filtered, filterEndpoints [] ports ps = .ok filtered ∧
      ∀ x, x ∈ filtered ↔ ∃ ep ∈ ([] : List String), keepEndpoint ports ps ep = some x :=
    ⟨[],by simp [filterEndpoints],by simp⟩
  by_cases hnumeric : ps.isNumeric = true
  · right
    intro endpoints
    by_cases hnil : endpoints = []
    · rwa [hnil]
    · refine ⟨_,by rw [filterEndpoints,if_neg hnil,if_pos hnumeric],fun x => ?_⟩
      simp [filterByNumericPort,keepEndpoint,hnumeric]
  · by_cases hnamed : ps.isNamed = true
    · cases hport : ports.lookup ps.name with
      | none =>
        left
        refine ⟨.new ("named port " ++ Deploy.Domain.goQuote ps.name ++
          " not found in service endpoints"),fun endpoints hne => ?_⟩
        rw [filterEndpoints,if_neg hne,if_neg hnumeric,if_pos hnamed,hport]
      | some port =>
        right
        intro endpoints
        by_cases hnil : endpoints = []
        · rwa [hnil]
        · refine ⟨filterByNamedPort endpoints port,?_,fun x => ?_⟩
          · rw [filterEndpoints,if_neg hnil,if_neg hnumeric,if_pos hnamed,hport]
          · simp [filterByNamedPort,keepEndpoint,hnumeric,hnamed,hport]
    · right
      intro endpoints
      by_cases hnil : endpoints = []
      · rwa [hnil]
      · refine ⟨endpoints,?_,fun x => ?_⟩
        · rw [filterEndpoints,if_neg hnil,if_neg hnumeric,if_neg hnamed]
        · simp [keepEndpoint,hnumeric,hnamed]

/-- The instances filtered and then united are the endpoints filtered. -/
def Narrows (info : StatefulQueryResult) (ps : PortSelector) : Prop :=
  match filterEndpoints info.endpoints info.ports ps with
  | .ok endpoints => ∃ instances, filterInstances info ps = .ok instances ∧
      ∀ x, x ∈ endpoints ↔ ∃ i ∈ instances, x ∈ i.endpoints
  | .error e => filterInstances info ps = .error e

private theorem mapM_error {ε α β : Type} {f : α → Except ε β} {e : ε} {xs : List α}
    (h : ∀ x ∈ xs, f x = .error e ∨ ∃ y, f x = .ok y) (hx : ∃ x ∈ xs, f x = .error e) :
    xs.mapM f = .error e := by
  induction xs with
  | nil => simp at hx
  | cons x xs ih =>
    rw [List.mapM_cons]
    rcases h x List.mem_cons_self with herror | ⟨y,hok⟩
    · rw [herror]
      rfl
    · obtain ⟨x',hx',herror⟩ := hx
      have hrest : x' ∈ xs := by
        rcases List.mem_cons.mp hx' with rfl | hmem
        · rw [hok] at herror
          cases herror
        · exact hmem
      rw [hok,ih (fun z hz => h z (List.mem_cons_of_mem _ hz)) ⟨x',hrest,herror⟩]
      rfl

private theorem mapM_ok {ε α β : Type} {f : α → Except ε β} {g : α → β} {xs : List α}
    (h : ∀ x ∈ xs, f x = .ok (g x)) : xs.mapM f = .ok (xs.map g) := by
  induction xs with
  | nil => rfl
  | cons x xs ih =>
    obtain ⟨hx,hxs⟩ := List.forall_mem_cons.mp h
    rw [List.mapM_cons,hx,ih hxs]
    rfl

private theorem filterInstance_ok {info : StatefulQueryResult} {i : StatefulInstance}
    {filtered : List String} (h : filterEndpoints i.endpoints info.ports ps = .ok filtered) :
    filterInstance info ps i = .ok { i with endpoints := filtered } := by
  rw [filterInstance,h]
  rfl

/-- Filtering commutes with uniting the instances, since a filter looks at each endpoint alone. -/
theorem narrows_of_union {info : StatefulQueryResult}
    (h : ∀ x, x ∈ info.endpoints ↔ ∃ i ∈ info.statefulInstances, x ∈ i.endpoints) :
    Narrows info ps := by
  unfold Narrows
  rcases filterEndpoints_cases info.ports ps with ⟨e,herror⟩ | hok
  · have hfilter : filterEndpoints [] info.ports ps = .ok [] := by simp [filterEndpoints]
    have hone : ∀ i ∈ info.statefulInstances, filterInstance info ps i = .error e ∨
        ∃ j, filterInstance info ps i = .ok j := by
      intro i _
      by_cases hnil : i.endpoints = []
      · exact .inr ⟨_,filterInstance_ok (hnil ▸ hfilter)⟩
      · left
        rw [filterInstance,herror _ hnil]
        rfl
    by_cases hnil : info.endpoints = []
    · have hempty : ∀ i ∈ info.statefulInstances, i.endpoints = [] := by
        intro i hi
        apply List.eq_nil_iff_forall_not_mem.mpr
        intro x hx
        have hmem := (h x).mpr ⟨i,hi,hx⟩
        rw [hnil] at hmem
        cases hmem
      have hall : filterInstances info ps = .ok (info.statefulInstances.map fun i =>
          { i with endpoints := [] }) :=
        mapM_ok fun i hi => filterInstance_ok (hempty i hi ▸ hfilter)
      rw [hnil,hfilter]
      exact ⟨_,hall,by simp⟩
    · rw [herror _ hnil]
      obtain ⟨x,hx⟩ := List.exists_mem_of_ne_nil _ hnil
      obtain ⟨i,hi,hxi⟩ := (h x).mp hx
      refine mapM_error hone ⟨i,hi,?_⟩
      rw [filterInstance,herror _ (List.ne_nil_of_mem hxi)]
      rfl
  · choose filtered hfiltered hmem using hok
    have hall : filterInstances info ps = .ok (info.statefulInstances.map fun i =>
        { i with endpoints := filtered i.endpoints }) :=
      mapM_ok fun i _ => filterInstance_ok (hfiltered i.endpoints)
    rw [hfiltered]
    refine ⟨_,hall,fun x => ?_⟩
    simp only [hmem,h,List.mem_map,exists_exists_and_eq_and]
    constructor
    · intro hx
      obtain ⟨ep,⟨i,hi,hep⟩,hkeep⟩ := hx
      exact ⟨i,hi,ep,hep,hkeep⟩
    · intro hx
      obtain ⟨i,hi,ep,hep,hkeep⟩ := hx
      exact ⟨ep,⟨i,hi,hep⟩,hkeep⟩

end filters

/-! ## Partition -/

/-- The addresses of the ready endpoints whose pods have an ordinal. -/
def instanceAddresses (slices : List PodEndpointSlice) (idx : Int) : List String :=
  (addressed slices idx).flatMap fun ep => ep.addresses

/-- What the instances of a Service owe to its endpoints. -/
structure Partitions (slices : List PodEndpointSlice) (info : StatefulQueryResult) : Prop where
  increasing : info.statefulInstances.Pairwise fun a b => a.index < b.index
  sorted : ∀ i ∈ info.statefulInstances, i.endpoints.Pairwise (· < ·)
  disjoint : ∀ i ∈ info.statefulInstances, ∀ j ∈ info.statefulInstances, i.index ≠ j.index →
    (∀ ip ∈ instanceAddresses slices i.index, ip ∉ instanceAddresses slices j.index) →
      ∀ x ∈ i.endpoints, x ∉ j.endpoints
  union : ∀ x, x ∈ info.endpoints ↔ ∃ i ∈ info.statefulInstances, x ∈ i.endpoints
  narrows : ∀ ps, Narrows info ps

/-- The same slices in another order, their endpoints in another order. -/
def Reordered (slices slices' : List PodEndpointSlice) : Prop :=
  ∃ listed, slices.Perm listed ∧ List.Forall₂
    (fun a b => a.labels = b.labels ∧ a.endpoints.Perm b.endpoints) listed slices'

/-- Every ordinal has one pod, which has its addresses in ascending order on the only port. -/
structure OnePodEach (slices : List PodEndpointSlice) (ports : Store String Int) : Prop where
  named : ∀ ep ∈ podEndpoints slices, ∀ ep' ∈ podEndpoints slices, ∀ idx,
    ordinal ep = some idx → ordinal ep' = some idx → endpointPodName ep = endpointPodName ep'
  single : ∀ idx, (addressed slices idx).length ≤ 1
  port : ∀ idx, addressed slices idx ≠ [] → ports.entries.length = 1
  ascending : ∀ idx, ∀ ep ∈ addressed slices idx,
    (joinedAddresses inOrder ports ep).Pairwise (· < ·)

/-- What the query answers for the ports of the governing Service and its slices. -/
def answer (slices : List PodEndpointSlice) (ports : Store String Int) (ranges : Ranges) :
    StatefulQueryResult where
  ports := ports
  endpoints := expandServiceEndpoints (slices.map PodEndpointSlice.toEndpointSlice) ports
  statefulInstances := buildStatefulInstances slices ports ranges

section partition

variable {slices slices' : List PodEndpointSlice} {ports : Store String Int} {ranges : Ranges}
  {idx : Int}

private theorem podEndpoints_reordered (h : Reordered slices slices') :
    (podEndpoints slices).Perm (podEndpoints slices') := by
  obtain ⟨listed,hperm,hsame⟩ := h
  refine (hperm.flatMap_right _).trans ?_
  clear hperm
  induction hsame with
  | nil => exact .refl _
  | cons hhead _ ih => exact hhead.2.append ih

private theorem mem_expand {x : String} :
    x ∈ expandServiceEndpoints (slices.map PodEndpointSlice.toEndpointSlice) ports ↔
      ∃ ep ∈ podEndpoints slices, includeEndpoint ep.toEndpoint = true ∧
        x ∈ joinedAddresses inOrder ports ep := by
  simp only [expandServiceEndpoints,mem_sortUnique,List.mem_flatMap,List.mem_map,List.mem_filter,
    exists_exists_and_eq_and,PodEndpointSlice.toEndpointSlice,podEndpoints,joinedAddresses_inOrder]
  constructor
  · intro h
    obtain ⟨slice,hslice,endpoint,⟨⟨ep,hep,rfl⟩,hinclude⟩,hx⟩ := h
    exact ⟨ep,⟨slice,hslice,hep⟩,hinclude,hx⟩
  · intro h
    obtain ⟨ep,⟨slice,hslice,hep⟩,hinclude,hx⟩ := h
    exact ⟨slice,hslice,ep.toEndpoint,⟨⟨ep,hep,rfl⟩,hinclude⟩,hx⟩

private theorem expand_reordered (h : Reordered slices slices') :
    expandServiceEndpoints (slices'.map PodEndpointSlice.toEndpointSlice) ports =
      expandServiceEndpoints (slices.map PodEndpointSlice.toEndpointSlice) ports := by
  have hsame : ∀ x,
      x ∈ expandServiceEndpoints (slices'.map PodEndpointSlice.toEndpointSlice) ports ↔
        x ∈ expandServiceEndpoints (slices.map PodEndpointSlice.toEndpointSlice) ports := by
    intro x
    rw [mem_expand,mem_expand]
    simp only [(podEndpoints_reordered h).mem_iff]
  exact sortUnique_congr fun x => mem_sortUnique.symm.trans ((hsame x).trans mem_sortUnique)

private theorem union_answer (ports : Store String Int) (ranges : Ranges)
    (hordinal : ∀ ep ∈ podEndpoints slices,
      includeEndpoint ep.toEndpoint = true → (ordinal ep).isSome = true) (x : String) :
    x ∈ (answer slices ports ranges).endpoints ↔
      ∃ i ∈ (answer slices ports ranges).statefulInstances, x ∈ i.endpoints := by
  rw [answer,mem_expand]
  constructor
  · intro h
    obtain ⟨ep,hep,hinclude,hx⟩ := h
    obtain ⟨idx,hidx⟩ := Option.isSome_iff_exists.mp (hordinal ep hep hinclude)
    obtain ⟨i,hi,rfl⟩ := exists_instance ports ranges hep hidx
    exact ⟨i,hi,(mem_endpoints hi).mpr ⟨ep,hep,hidx,hinclude,hx⟩⟩
  · intro h
    obtain ⟨i,hi,hx⟩ := h
    obtain ⟨ep,hep,-,hinclude,hmem⟩ := (mem_endpoints hi).mp hx
    exact ⟨ep,hep,hinclude,hmem⟩

private theorem address_of_endpoint {i : StatefulInstance} {x : String}
    (hi : i ∈ buildStatefulInstances slices ports ranges) (hx : x ∈ i.endpoints) :
    ∃ ip ∈ instanceAddresses slices i.index, ∃ port : Int, x = joinHostPort ip port.repr := by
  obtain ⟨ep,hep,hordinal,hinclude,hmem⟩ := (mem_endpoints hi).mp hx
  obtain ⟨ip,hip,port,-,he⟩ := mem_joinedAddresses.mp hmem
  have haddressed := mem_addressed.mpr ⟨hep,hordinal,hinclude,List.ne_nil_of_mem hip⟩
  exact ⟨ip,List.mem_flatMap.mpr ⟨ep,haddressed,hip⟩,port.2,he.symm⟩

private theorem disjoint_instances {i j : StatefulInstance}
    (hi : i ∈ buildStatefulInstances slices ports ranges)
    (hj : j ∈ buildStatefulInstances slices ports ranges)
    (h : ∀ ip ∈ instanceAddresses slices i.index, ip ∉ instanceAddresses slices j.index) :
    ∀ x ∈ i.endpoints, x ∉ j.endpoints := by
  intro x hxi hxj
  obtain ⟨ip,hip,port,he⟩ := address_of_endpoint hi hxi
  obtain ⟨ip',hip',port',he'⟩ := address_of_endpoint hj hxj
  have hsame := host_of_joinHostPort (repr_unbracketed port).2 (repr_unbracketed port').2
    (he.symm.trans he')
  exact h ip hip (hsame ▸ hip')

/-! ## One pod each is enough -/

/-- The endpoints whose pods have an ordinal. -/
def podsOf (slices : List PodEndpointSlice) (idx : Int) : List PodEndpoint :=
  (podEndpoints slices).filter fun ep => ordinal ep = some idx

private theorem map_visitsOf (slices : List PodEndpointSlice) (ports : Store String Int)
    (ranges : Ranges)
    (idx : Int) : (visitsOf slices ports ranges idx).map Visit.endpoint = podsOf slices idx := by
  rw [podsOf,← map_visits slices ports ranges,List.filter_map]
  rfl

/-- What is grouped for an ordinal, if all ranges have one order there. -/
theorem grouped_eq (order : Nat → List (Σ _ : String, Int) → List (Σ _ : String, Int))
    (h : ∀ j k, ∀ ep ∈ addressed slices idx,
      joinedAddresses (ranges.ports j k) ports ep = joinedAddresses order ports ep) :
    (groupByOrdinal slices ports ranges).lookup idx = (podsOf slices idx).head?.map fun ep =>
      ⟨(addressed slices idx).flatMap (joinedAddresses order ports),endpointPodName ep⟩ := by
  rw [lookup_groupByOrdinal,contributed_eq h,← map_visitsOf slices ports ranges,List.head?_map,
    Option.map_map]
  rfl

private theorem joined_of_one_port (hport : ports.entries.length = 1) (j k : Nat)
    (ep : PodEndpoint) :
    joinedAddresses (ranges.ports j k) ports ep = joinedAddresses inOrder ports ep := by
  obtain ⟨entry,hentry⟩ := List.length_eq_one_iff.mp hport
  have hall : ∀ n, ranges.ports j k n ports.entries = ports.entries := by
    intro n
    have hperm := ranges.ports_perm j k n ports.entries
    rw [hentry] at hperm ⊢
    exact List.perm_singleton.mp hperm
  unfold joinedAddresses inOrder
  simp only [hall]

private theorem head?_map_of_perm {α β : Type} {f : α → β} {xs ys : List α} (hperm : xs.Perm ys)
    (h : ∀ a ∈ xs, ∀ b ∈ xs, f a = f b) : xs.head?.map f = ys.head?.map f := by
  cases xs with
  | nil => rw [List.nil_perm.mp hperm]
  | cons a as =>
    cases ys with
    | nil => exact absurd hperm.length_eq (by simp)
    | cons b bs =>
      have hmem : b ∈ a :: as := hperm.mem_iff.mpr List.mem_cons_self
      simp [h a List.mem_cons_self b hmem]

private theorem eq_of_perm_of_length_le_one {α : Type} {xs ys : List α} (hperm : xs.Perm ys)
    (h : xs.length ≤ 1) : xs = ys := by
  cases xs with
  | nil => rw [List.nil_perm.mp hperm]
  | cons a as =>
    have hnil : as = [] := by simpa using h
    rw [hnil] at hperm ⊢
    exact (List.perm_singleton.mp hperm.symm).symm

/-- With one pod for each ordinal the order in which a run comes to them is not seen. -/
theorem OnePodEach.answer_eq {ranges' : Ranges} (h : OnePodEach slices ports)
    (hsame : Reordered slices slices') :
    buildStatefulInstances slices' ports ranges' = buildStatefulInstances slices ports ranges := by
  have hpods := podEndpoints_reordered hsame
  apply buildStatefulInstances_congr
  intro idx
  have haddressed : addressed slices idx = addressed slices' idx :=
    eq_of_perm_of_length_le_one (hpods.filter _) (h.single idx)
  have hone : ∀ ranges : Ranges, ∀ j k, ∀ ep ∈ addressed slices idx,
      joinedAddresses (ranges.ports j k) ports ep = joinedAddresses inOrder ports ep :=
    fun ranges j k ep hep => joined_of_one_port (h.port idx (List.ne_nil_of_mem hep)) j k ep
  have hname : ∀ a ∈ podsOf slices idx, ∀ b ∈ podsOf slices idx,
      endpointPodName a = endpointPodName b := by
    intro a ha b hb
    obtain ⟨ha,hordinal⟩ := List.mem_filter.mp ha
    obtain ⟨hb,hordinal'⟩ := List.mem_filter.mp hb
    exact h.named a ha b hb idx (of_decide_eq_true hordinal) (of_decide_eq_true hordinal')
  rw [grouped_eq inOrder (hone ranges),grouped_eq inOrder (haddressed ▸ hone ranges'),← haddressed]
  have hhead := head?_map_of_perm (hpods.filter fun ep => ordinal ep = some idx) hname
  have hinfo := congrArg (Option.map fun name =>
    (⟨(addressed slices idx).flatMap (joinedAddresses inOrder ports),name⟩ : InstanceInfo)) hhead
  rw [Option.map_map,Option.map_map] at hinfo
  exact hinfo.symm

private theorem OnePodEach.sorted {i : StatefulInstance} (h : OnePodEach slices ports)
    (hi : i ∈ buildStatefulInstances slices ports ranges) : i.endpoints.Pairwise (· < ·) := by
  have hlookup := mem_buildStatefulInstances.mp hi
  rw [grouped_eq inOrder fun j k ep hep =>
    joined_of_one_port (h.port _ (List.ne_nil_of_mem hep)) j k ep] at hlookup
  obtain ⟨ep,-,hinfo⟩ := Option.map_eq_some_iff.mp hlookup
  rw [← (InstanceInfo.mk.inj hinfo).1]
  have hsingle := h.single i.index
  have hascending := h.ascending i.index
  cases haddressed : addressed slices i.index with
  | nil => exact .nil
  | cons ep rest =>
    rw [haddressed] at hsingle hascending
    have hnil : rest = [] := by simpa using hsingle
    rw [hnil,List.flatMap_cons,List.flatMap_nil,List.append_nil]
    exact hascending ep List.mem_cons_self

/-! ## One pod each is necessary -/

/-- A run that ranges over the ports in one order everywhere. -/
def uniform (order : List (Σ _ : String, Int) → List (Σ _ : String, Int))
    (h : ∀ entries, (order entries).Perm entries) : Ranges where
  ports _ _ _ := order
  instances entries := entries
  ports_perm _ _ _ := h
  instances_perm _ := .refl _

/-- What the claims on every run and every order say about the instances. -/
def Steady (slices : List PodEndpointSlice) (ports : Store String Int) : Prop :=
  (∀ ranges, ∀ i ∈ buildStatefulInstances slices ports ranges, i.endpoints.Pairwise (· < ·)) ∧
    ∀ ranges slices' ranges', Reordered slices slices' →
      buildStatefulInstances slices' ports ranges' = buildStatefulInstances slices ports ranges

private theorem length_le_one_of_reverse {α : Type} {R : α → α → Prop} {xs : List α}
    (h : xs.Pairwise R) (h' : xs.reverse.Pairwise R) (hasymm : ∀ a ∈ xs, ∀ b ∈ xs, R a b → ¬R b a) :
    xs.length ≤ 1 := by
  cases xs with
  | nil => simp
  | cons a rest =>
    cases rest with
    | nil => simp
    | cons b rest =>
      have hab := (List.pairwise_cons.mp h).1 b List.mem_cons_self
      have hba := (List.pairwise_cons.mp (List.pairwise_reverse.mp h')).1 b List.mem_cons_self
      exact absurd hba (hasymm a List.mem_cons_self b (by simp) hab)

/-- In every order of the slices and of the ports the addresses of an ordinal ascend. -/
theorem Steady.ascending (h : Steady slices ports)
    (order : List (Σ _ : String, Int) → List (Σ _ : String, Int))
    (horder : ∀ entries, (order entries).Perm entries) (hsame : Reordered slices slices')
    (idx : Int) : ((addressed slices' idx).flatMap
      (joinedAddresses (fun _ => order) ports)).Pairwise (· < ·) := by
  cases haddressed : addressed slices' idx with
  | nil => exact .nil
  | cons ep rest =>
    rw [← haddressed]
    have hep : ep ∈ addressed slices' idx := by
      rw [haddressed]
      exact List.mem_cons_self
    obtain ⟨hpod,hordinal,-,-⟩ := mem_addressed.mp hep
    obtain ⟨i,hi,rfl⟩ := exists_instance ports (uniform order horder) hpod hordinal
    have hlookup := mem_buildStatefulInstances.mp hi
    rw [grouped_eq (fun _ => order) fun j k ep _ => rfl] at hlookup
    obtain ⟨first,-,hinfo⟩ := Option.map_eq_some_iff.mp hlookup
    have hi' := hi
    rw [h.2 (uniform order horder) slices' _ hsame] at hi'
    rw [(InstanceInfo.mk.inj hinfo).1]
    exact h.1 _ i hi'

private theorem Reordered.refl (slices : List PodEndpointSlice) : Reordered slices slices := by
  refine ⟨slices,.refl _,?_⟩
  rw [List.forall₂_same]
  exact fun slice _ => ⟨rfl,.refl _⟩

/-- The slices, and the endpoints of each, from the last to the first. -/
def reversed (slices : List PodEndpointSlice) : List PodEndpointSlice :=
  slices.reverse.map fun slice => { slice with endpoints := slice.endpoints.reverse }

private theorem reordered_reversed (slices : List PodEndpointSlice) :
    Reordered slices (reversed slices) := by
  refine ⟨slices.reverse,(List.reverse_perm _).symm,?_⟩
  rw [reversed,List.forall₂_map_right_iff,List.forall₂_same]
  exact fun slice _ => ⟨rfl,(List.reverse_perm _).symm⟩

private theorem podEndpoints_reversed (slices : List PodEndpointSlice) :
    podEndpoints (reversed slices) = (podEndpoints slices).reverse := by
  simp only [podEndpoints,reversed,List.flatMap_map,List.reverse_flatMap,Function.comp_def]

private theorem joined_ne_nil {ep : PodEndpoint} (hports : ports.entries ≠ [])
    (hep : ep ∈ addressed slices idx) : joinedAddresses inOrder ports ep ≠ [] := by
  obtain ⟨ip,hip⟩ := List.exists_mem_of_ne_nil _ (mem_addressed.mp hep).2.2.2
  obtain ⟨port,hport⟩ := List.exists_mem_of_ne_nil _ hports
  exact List.ne_nil_of_mem (mem_joinedAddresses.mpr ⟨ip,hip,port,hport,rfl⟩)

/-- Two ready pods of one ordinal are answered one way and the other. -/
theorem Steady.single (h : Steady slices ports) (hports : ports.entries ≠ []) (idx : Int) :
    (addressed slices idx).length ≤ 1 := by
  have hforth := h.ascending (fun entries => entries) (fun _ => .refl _) (.refl slices) idx
  have hback := h.ascending (fun entries => entries) (fun _ => .refl _)
    (reordered_reversed slices) idx
  have hreverse : addressed (reversed slices) idx = (addressed slices idx).reverse := by
    rw [addressed,podEndpoints_reversed,List.filter_reverse,addressed]
  rw [hreverse] at hback
  apply length_le_one_of_reverse (List.pairwise_flatMap.mp hforth).2
    (List.pairwise_flatMap.mp hback).2
  intro a ha b hb hab hba
  obtain ⟨x,hx⟩ := List.exists_mem_of_ne_nil _ (joined_ne_nil hports ha)
  obtain ⟨y,hy⟩ := List.exists_mem_of_ne_nil _ (joined_ne_nil hports hb)
  exact lt_asymm (hab x hx y hy) (hba y hy x hx)

private theorem Steady.port (h : Steady slices ports) (hports : ports.entries ≠ [])
    (haddressed : addressed slices idx ≠ []) : ports.entries.length = 1 := by
  obtain ⟨ep,hep⟩ := List.exists_mem_of_ne_nil _ haddressed
  obtain ⟨ip,ips,hips⟩ := List.exists_cons_of_ne_nil (mem_addressed.mp hep).2.2.2
  have hchunk : ∀ order : List (Σ _ : String, Int) → List (Σ _ : String, Int),
      (∀ entries, (order entries).Perm entries) →
        ((order ports.entries).map fun port => joinHostPort ip port.2.repr).Pairwise (· < ·) := by
    intro order horder
    have hall := h.ascending order horder (.refl slices) idx
    have hjoined := (List.pairwise_flatMap.mp hall).1 ep hep
    rw [joinedAddresses,hips,List.zipIdx_cons,List.flatMap_cons] at hjoined
    exact (List.pairwise_append.mp hjoined).1
  have hforth := hchunk (fun entries => entries) fun _ => .refl _
  have hback := hchunk List.reverse List.reverse_perm
  rw [List.map_reverse] at hback
  have hlength := length_le_one_of_reverse hforth hback fun _ _ _ _ hlt => lt_asymm hlt
  rw [List.length_map] at hlength
  have hpos := List.length_pos_iff.mpr hports
  omega

private theorem exists_first {ep : PodEndpoint} (h : ep ∈ podEndpoints slices) :
    ∃ slices' rest, Reordered slices slices' ∧ podEndpoints slices' = ep :: rest := by
  obtain ⟨slice,hslice,hep⟩ := List.mem_flatMap.mp h
  refine ⟨{ slice with endpoints := ep :: slice.endpoints.erase ep } :: slices.erase slice,_,
    ⟨slice :: slices.erase slice,List.perm_cons_erase hslice,.cons ?_ ?_⟩,rfl⟩
  · exact ⟨rfl,List.perm_cons_erase hep⟩
  · rw [List.forall₂_same]
    exact fun slice _ => ⟨rfl,.refl _⟩

/-- Whichever pod of an ordinal comes first gives its name to the instance. -/
theorem Steady.named (h : Steady slices ports) {ep : PodEndpoint}
    (hep : ep ∈ podEndpoints slices) (hordinal : ordinal ep = some idx) :
    ∃ i ∈ buildStatefulInstances slices ports (uniform id fun _ => .refl _),
      i.index = idx ∧ i.hostname = endpointPodName ep := by
  obtain ⟨slices',rest,hsame,hfirst⟩ := exists_first hep
  have hep' : ep ∈ podEndpoints slices' := by
    rw [hfirst]
    exact List.mem_cons_self
  obtain ⟨i,hi,rfl⟩ := exists_instance ports (uniform id fun _ => .refl _) hep' hordinal
  have hlookup := mem_buildStatefulInstances.mp hi
  rw [grouped_eq inOrder fun j k ep _ => rfl,podsOf,hfirst,
    List.filter_cons_of_pos (by simpa using hordinal),List.head?_cons,Option.map_some] at hlookup
  rw [h.2 (uniform id fun _ => .refl _) slices' _ hsame] at hi
  exact ⟨i,hi,rfl,(InstanceInfo.mk.inj (Option.some.inj hlookup)).2.symm⟩

private theorem Steady.onePodEach (h : Steady slices ports) (hports : ports.entries ≠ []) :
    OnePodEach slices ports where
  named ep hep ep' hep' idx hordinal hordinal' := by
    obtain ⟨i,hi,hindex,hname⟩ := h.named hep hordinal
    obtain ⟨j,hj,hindex',hname'⟩ := h.named hep' hordinal'
    have hsame := (mem_buildStatefulInstances.mp hi).symm.trans
      ((hindex.trans hindex'.symm) ▸ mem_buildStatefulInstances.mp hj)
    rw [← hname,← hname',(InstanceInfo.mk.inj (Option.some.inj hsame)).2]
  single := h.single hports
  port idx haddressed := h.port hports haddressed
  ascending idx ep hep := by
    have hall := h.ascending (fun entries => entries) (fun _ => .refl _) (.refl slices) idx
    exact (List.pairwise_flatMap.mp hall).1 ep hep

end partition

/-! ## Answers of the query -/

/-- The Service that governs a stateful service of an environment. -/
def Governs (view : PodDiscovery) (envLabel app service : String) (svc : Service) : Prop :=
  (view.listServices (buildLabelSelector (buildLabels
    [withApp app,withService service,withDominionEnvironment envLabel]))).filter isGoverning = [svc]

/-- The same namespace, with the slices of the Service listed in another order. -/
def Relisted (svc : Service) (view view' : PodDiscovery) : Prop :=
  view'.services = view.services ∧
    Reordered (view.listServiceEndpointSlices svc.metadata.name)
      (view'.listServiceEndpointSlices svc.metadata.name)

section answers

variable {view view' : PodDiscovery} {envLabel app service : String} {svc : Service}
  {ranges : Ranges}

private theorem query_eq (hsvc : Governs view envLabel app service svc)
    (hports : (servicePortMap svc).entries ≠ []) :
    queryStatefulServiceEndpoints view envLabel app service ranges =
      .ok (answer (view.listServiceEndpointSlices svc.metadata.name) (servicePortMap svc)
        ranges) := by
  unfold Governs at hsvc
  unfold queryStatefulServiceEndpoints
  dsimp only
  split
  · rename_i hnil
    rw [hnil] at hsvc
    cases hsvc
  · rename_i hlist
    rw [hsvc]
    dsimp only
    rw [if_neg hports]
    rfl

/-- The resolver answers the filtered endpoints of the Service, by instance. -/
theorem resolveStateful_unites {target : Target}
    (hsvc : Governs view envLabel target.app target.service svc)
    (hports : (servicePortMap svc).entries ≠ [])
    (hordinal : ∀ ep ∈ podEndpoints (view.listServiceEndpointSlices svc.metadata.name),
      includeEndpoint ep.toEndpoint = true → (ordinal ep).isSome = true) :
    match filterEndpoints (answer (view.listServiceEndpointSlices svc.metadata.name)
        (servicePortMap svc) ranges).endpoints (servicePortMap svc) target.portSelector with
    | .ok endpoints => ∃ instances, resolveStateful view envLabel ranges target = .ok instances ∧
        ∀ x, x ∈ endpoints ↔ ∃ i ∈ instances, x ∈ i.endpoints
    | .error e => resolveStateful view envLabel ranges target = .error e := by
  have hunion := union_answer (servicePortMap svc) ranges hordinal
  unfold resolveStateful
  rw [query_eq hsvc hports]
  exact narrows_of_union hunion

private theorem governs_of_services (h : view'.services = view.services)
    (hsvc : Governs view envLabel app service svc) : Governs view' envLabel app service svc := by
  unfold Governs PodDiscovery.listServices at hsvc ⊢
  rw [h]
  exact hsvc

private theorem exists_relisted {slices : List PodEndpointSlice}
    (h : Reordered (view.listServiceEndpointSlices svc.metadata.name) slices) :
    ∃ view', Relisted svc view view' ∧
      view'.listServiceEndpointSlices svc.metadata.name = slices := by
  have hlisted : (PodDiscovery.mk view.services slices).listServiceEndpointSlices
      svc.metadata.name = slices := by
    obtain ⟨listed,hperm,hsame⟩ := h
    refine List.filter_eq_self.mpr fun slice hslice => ?_
    obtain ⟨slice',hslice',hlabels,-⟩ := exists_of_forall₂ hsame hslice
    have hselected := (List.mem_filter.mp (hperm.mem_iff.mpr hslice')).2
    rwa [hlabels] at hselected
  exact ⟨⟨view.services,slices⟩,⟨rfl,by rwa [hlisted]⟩,hlisted⟩

/-- The instances partition the endpoints in every run, and every order of slices, endpoints and
maps is answered alike, just when every ordinal has one pod, with its addresses in ascending order
on the only port. -/
theorem instances_partition_iff (hsvc : Governs view envLabel app service svc)
    (hports : (servicePortMap svc).entries ≠ [])
    (hordinal : ∀ ep ∈ podEndpoints (view.listServiceEndpointSlices svc.metadata.name),
      includeEndpoint ep.toEndpoint = true → (ordinal ep).isSome = true) :
    (∀ ranges, ∃ info,
      queryStatefulServiceEndpoints view envLabel app service ranges = .ok info ∧
        Partitions (view.listServiceEndpointSlices svc.metadata.name) info ∧
          ∀ view' ranges', Relisted svc view view' →
            queryStatefulServiceEndpoints view' envLabel app service ranges' = .ok info) ↔
      OnePodEach (view.listServiceEndpointSlices svc.metadata.name) (servicePortMap svc) := by
  constructor
  · intro h
    apply Steady.onePodEach _ hports
    constructor
    · intro ranges i hi
      obtain ⟨info,hinfo,hpartition,-⟩ := h ranges
      rw [query_eq hsvc hports] at hinfo
      cases hinfo
      exact hpartition.sorted i hi
    · intro ranges slices' ranges' hsame
      obtain ⟨info,hinfo,-,hagain⟩ := h ranges
      rw [query_eq hsvc hports] at hinfo
      cases hinfo
      obtain ⟨view',hrelisted,rfl⟩ := exists_relisted hsame
      have hother := hagain view' ranges' hrelisted
      rw [query_eq (governs_of_services hrelisted.1 hsvc) hports] at hother
      exact congrArg StatefulQueryResult.statefulInstances (Except.ok.inj hother)
  · intro h ranges
    have hunion := union_answer (servicePortMap svc) ranges hordinal
    refine ⟨_,query_eq hsvc hports,⟨buildStatefulInstances_strict,fun i hi => h.sorted hi,
      fun i hi j hj _ => disjoint_instances hi hj,hunion,fun ps => narrows_of_union hunion⟩,?_⟩
    intro view' ranges' hrelisted
    rw [query_eq (governs_of_services hrelisted.1 hsvc) hports]
    rw [answer,answer,expand_reordered hrelisted.2,h.answer_eq hrelisted.2]

end answers

/-! ## Concrete Services -/

def demoEndpoint (pod address : String) : PodEndpoint where
  addresses := [address]
  ready := some true
  targetRef := some ⟨resourceKindPod,pod⟩

def demoPods : List PodEndpoint :=
  [demoEndpoint "cache-0" "10.1.0.7",demoEndpoint "cache-1" "10.1.0.8"]

def demoGoverning (ports : List ServicePort) : Service where
  metadata := ⟨"svc-cache","default",buildLabels
    [withApp "shop",withService "cache",withDominionEnvironment "alpha.dev"]⟩
  spec := { clusterIP := clusterIPNone, selector := [], ports }

/-- A governing Service with two ready pods. -/
def demoStateful (ports : List ServicePort) : PodDiscovery where
  services := (∅ : Objects ServiceSpec).insert "svc-cache" (demoGoverning ports)
  endpointSlices := [⟨[(labelServiceName,"svc-cache")],demoPods,[]⟩]

private theorem demoStateful_slices (ports : List ServicePort) :
    (demoStateful ports).listServiceEndpointSlices "svc-cache" =
      [⟨[(labelServiceName,"svc-cache")],demoPods,[]⟩] :=
  List.filter_cons_of_pos (by decide)

private theorem ordinal_demoEndpoint :
    ordinal (demoEndpoint "cache-0" "10.1.0.7") = some 0 ∧
      ordinal (demoEndpoint "cache-1" "10.1.0.8") = some 1 := by
  decide

private theorem demoStateful_ordinals (ports : List ServicePort) : ∀ ep ∈ podEndpoints
    ((demoStateful ports).listServiceEndpointSlices "svc-cache"),
      includeEndpoint ep.toEndpoint = true → (ordinal ep).isSome = true := by
  rw [demoStateful_slices]
  decide

/-- On one port each of the two pods has its own ordinal. -/
theorem onePodEach_demo : OnePodEach
    ((demoStateful [⟨"redis",6379,"redis"⟩]).listServiceEndpointSlices "svc-cache")
    (servicePortMap (demoGoverning [⟨"redis",6379,"redis"⟩])) := by
  have hpods : podEndpoints ((demoStateful [⟨"redis",6379,"redis"⟩]).listServiceEndpointSlices
      "svc-cache") = demoPods := by
    rw [demoStateful_slices]
    rfl
  obtain ⟨hfirst,hsecond⟩ := ordinal_demoEndpoint
  have haddressed : ∀ idx, addressed
      ((demoStateful [⟨"redis",6379,"redis"⟩]).listServiceEndpointSlices "svc-cache") idx =
        if idx = 0 then [demoEndpoint "cache-0" "10.1.0.7"]
        else if idx = 1 then [demoEndpoint "cache-1" "10.1.0.8"] else [] := by
    intro idx
    have hready : ∀ pod address, includeEndpoint (demoEndpoint pod address).toEndpoint = true ∧
        (demoEndpoint pod address).addresses.isEmpty = false := fun _ _ => ⟨rfl,rfl⟩
    rw [addressed,hpods,demoPods]
    by_cases hzero : idx = 0
    · simp [hzero,hfirst,hsecond,hready]
    · by_cases hone : idx = 1
      · simp [hone,hfirst,hsecond,hready]
      · simp [Ne.symm hzero,Ne.symm hone,hzero,hone,hfirst,hsecond]
  refine ⟨?_,?_,?_,?_⟩
  · intro ep hep ep' hep' idx hordinal hordinal'
    rw [hpods,demoPods] at hep hep'
    simp only [List.mem_cons,List.not_mem_nil,or_false] at hep hep'
    rcases hep with rfl | rfl <;> rcases hep' with rfl | rfl
    · rfl
    · cases hfirst.symm.trans (hordinal.trans (hordinal'.symm.trans hsecond))
    · cases hsecond.symm.trans (hordinal.trans (hordinal'.symm.trans hfirst))
    · rfl
  · intro idx
    rw [haddressed]
    split
    · simp
    · split <;> simp
  · intro idx _
    decide
  · intro idx ep hep
    rw [haddressed] at hep
    split at hep
    · rw [List.mem_singleton.mp hep]
      decide
    · split at hep
      · rw [List.mem_singleton.mp hep]
        decide
      · cases hep

theorem instances_partition_demo : OnePodEach
    ((demoStateful [⟨"redis",6379,"redis"⟩]).listServiceEndpointSlices "svc-cache")
    (servicePortMap (demoGoverning [⟨"redis",6379,"redis"⟩])) ∧
      ∀ ranges, ∃ info, queryStatefulServiceEndpoints (demoStateful [⟨"redis",6379,"redis"⟩])
        "alpha.dev" "shop" "cache" ranges = .ok info ∧
          Partitions ((demoStateful [⟨"redis",6379,"redis"⟩]).listServiceEndpointSlices
            "svc-cache") info ∧
          ∀ view' ranges', Relisted (demoGoverning [⟨"redis",6379,"redis"⟩])
              (demoStateful [⟨"redis",6379,"redis"⟩]) view' →
            queryStatefulServiceEndpoints view' "alpha.dev" "shop" "cache" ranges' = .ok info := by
  have hgoverns : Governs (demoStateful [⟨"redis",6379,"redis"⟩]) "alpha.dev" "shop" "cache"
      (demoGoverning [⟨"redis",6379,"redis"⟩]) := by
    unfold Governs
    decide
  exact ⟨onePodEach_demo,(instances_partition_iff hgoverns (by decide)
    (demoStateful_ordinals _)).mpr onePodEach_demo⟩

/-- With two ports an instance has its endpoints in whichever order the ports are ranged over. -/
theorem two_ports_unordered :
    Governs (demoStateful [⟨"redis",6379,"redis"⟩,⟨"metrics",9121,"metrics"⟩]) "alpha.dev" "shop"
        "cache" (demoGoverning [⟨"redis",6379,"redis"⟩,⟨"metrics",9121,"metrics"⟩]) ∧
      (∀ ep ∈ podEndpoints ((demoStateful [⟨"redis",6379,"redis"⟩,
          ⟨"metrics",9121,"metrics"⟩]).listServiceEndpointSlices "svc-cache"),
        includeEndpoint ep.toEndpoint = true → (ordinal ep).isSome = true) ∧
      ∃ ranges ranges' info info',
        queryStatefulServiceEndpoints (demoStateful [⟨"redis",6379,"redis"⟩,
          ⟨"metrics",9121,"metrics"⟩]) "alpha.dev" "shop" "cache" ranges = .ok info ∧
        queryStatefulServiceEndpoints (demoStateful [⟨"redis",6379,"redis"⟩,
          ⟨"metrics",9121,"metrics"⟩]) "alpha.dev" "shop" "cache" ranges' = .ok info' ∧
        info.statefulInstances.map StatefulInstance.endpoints =
          [["10.1.0.7:6379","10.1.0.7:9121"],["10.1.0.8:6379","10.1.0.8:9121"]] ∧
        info'.statefulInstances.map StatefulInstance.endpoints =
          [["10.1.0.7:9121","10.1.0.7:6379"],["10.1.0.8:9121","10.1.0.8:6379"]] := by
  have hgoverns : Governs (demoStateful [⟨"redis",6379,"redis"⟩,⟨"metrics",9121,"metrics"⟩])
      "alpha.dev" "shop" "cache"
      (demoGoverning [⟨"redis",6379,"redis"⟩,⟨"metrics",9121,"metrics"⟩]) := by
    unfold Governs
    decide
  refine ⟨hgoverns,demoStateful_ordinals _,uniform List.reverse List.reverse_perm,
    uniform id fun _ => .refl _,_,_,query_eq hgoverns (by decide),
    query_eq hgoverns (by decide),?_,?_⟩
  · decide
  · decide

end Dominion.Solver
