import Dominion.Deploy.K8s.Endpoints
import Dominion.Framework.Keyset
import Dominion.Solver.Target
import Mathlib.Data.List.Perm.Basic

/-! # Endpoints of a stateful Service

The EndpointSlices of a governing Service are answered twice: as one sorted set of addresses, and
grouped by the ordinal that the name of each endpoint's pod ends in. -/
namespace Dominion.Deploy.K8s

open Dominion.Framework
open Dominion.Deploy.Domain (Err)
open Dominion.Solver (atoi)

/-! ## Pods -/

structure ObjectReference where
  kind : String
  name : String
  deriving DecidableEq

/-- An endpoint with what names its pod. -/
structure PodEndpoint extends Endpoint where
  targetRef : Option ObjectReference := none
  hostname : Option String := none
  deriving DecidableEq

structure PodEndpointSlice where
  labels : Labels
  endpoints : List PodEndpoint
  ports : List EndpointPort := []
  deriving DecidableEq

def PodEndpointSlice.toEndpointSlice (slice : PodEndpointSlice) : EndpointSlice :=
  ⟨slice.labels,slice.endpoints.map PodEndpoint.toEndpoint,slice.ports⟩

def resourceKindPod : String := "Pod"

def endpointPodName (ep : PodEndpoint) : String :=
  match ep.targetRef with
  | some ref =>
    if ref.kind = resourceKindPod ∧ ref.name ≠ "" then ref.name else ep.hostname.getD ""
  | none => ep.hostname.getD ""

/-- `none` is an error. -/
def parseStatefulInstanceIndex (podName : String) : Option Int :=
  (cutLast '-' podName.toList).bind fun cut =>
    if cut.2 = [] then none else atoi (String.ofList cut.2)

/-- The ordinal of an endpoint's pod. -/
def ordinal (ep : PodEndpoint) : Option Int :=
  if endpointPodName ep = "" then none else parseStatefulInstanceIndex (endpointPodName ep)

/-! ## Query -/

structure StatefulInstance where
  index : Int
  hostname : String
  endpoints : List String
  deriving DecidableEq

structure StatefulQueryResult extends ServiceQueryResult where
  statefulInstances : List StatefulInstance

/-- The Services and EndpointSlices of a namespace. -/
structure PodDiscovery where
  services : Objects ServiceSpec
  endpointSlices : List PodEndpointSlice

namespace PodDiscovery

def listServices (view : PodDiscovery) (selector : Labels) : List Service :=
  (view.services.entries.filter fun o => selects selector o.2.metadata.labels).map Sigma.snd

def listServiceEndpointSlices (view : PodDiscovery) (serviceName : String) :
    List PodEndpointSlice :=
  view.endpointSlices.filter fun slice => selects [(labelServiceName,serviceName)] slice.labels

end PodDiscovery

structure InstanceInfo where
  endpoints : List String
  hostname : String
  deriving DecidableEq

/-- The orders in which a run ranges over its maps: over the ports, at every address of every
endpoint of every slice, and over the instances. -/
structure Ranges where
  ports : Nat → Nat → Nat → List (Σ _ : String, Int) → List (Σ _ : String, Int)
  instances : List (Σ _ : Int, InstanceInfo) → List (Σ _ : Int, InstanceInfo)
  ports_perm : ∀ i j k entries, (ports i j k entries).Perm entries
  instances_perm : ∀ entries, (instances entries).Perm entries

/-- The addresses of an endpoint with the ports, in the order of each range over them. -/
def joinedAddresses (order : Nat → List (Σ _ : String, Int) → List (Σ _ : String, Int))
    (ports : Store String Int) (ep : PodEndpoint) : List String :=
  ep.addresses.zipIdx.flatMap fun ip =>
    (order ip.2 ports.entries).map fun port => joinHostPort ip.1 port.2.repr

/-- The body of the loop over the endpoints. -/
def addEndpoint (instanceMap : Store Int InstanceInfo) (ep : PodEndpoint) (joined : List String) :
    Store Int InstanceInfo :=
  match ordinal ep with
  | none => instanceMap
  | some idx =>
    let info := (instanceMap.lookup idx).getD ⟨[],endpointPodName ep⟩
    instanceMap.insert idx (if includeEndpoint ep.toEndpoint then
      { info with endpoints := info.endpoints ++ joined } else info)

def groupByOrdinal (slices : List PodEndpointSlice) (ports : Store String Int) (ranges : Ranges) :
    Store Int InstanceInfo :=
  slices.zipIdx.foldl (fun instanceMap slice =>
    slice.1.endpoints.zipIdx.foldl (fun instanceMap ep =>
      addEndpoint instanceMap ep.1 (joinedAddresses (ranges.ports slice.2 ep.2) ports ep.1))
      instanceMap) ∅

def buildStatefulInstances (slices : List PodEndpointSlice) (ports : Store String Int)
    (ranges : Ranges) : List StatefulInstance :=
  ((ranges.instances (groupByOrdinal slices ports ranges).entries).map fun entry =>
    (⟨entry.1,entry.2.hostname,entry.2.endpoints⟩ : StatefulInstance)).insertionSort
      (fun a b => a.index ≤ b.index)

/-- A Service without a cluster address. -/
def isGoverning (svc : Service) : Bool :=
  decide (svc.spec.clusterIP = clusterIPNone) || decide (svc.spec.clusterIP = "")

def queryStatefulServiceEndpoints (view : PodDiscovery) (envLabel app service : String)
    (ranges : Ranges) : Except Err StatefulQueryResult :=
  let matchLabels := buildLabels [withApp app,withService service,withDominionEnvironment envLabel]
  let selector := buildLabelSelector matchLabels
  match view.listServices selector with
  | [] => .error (.new "service does not exist")
  | services =>
    match services.filter isGoverning with
    | [] => .error (.new ("expected exactly one governing Service, found none matching labels " ++
        selectorText selector))
    | [governingSvc] =>
      let ports := servicePortMap governingSvc
      if ports.entries = [] then .error (.new "service port map unavailable")
      else
        let slices := view.listServiceEndpointSlices governingSvc.metadata.name
        .ok {
          ports
          endpoints :=
            expandServiceEndpoints (slices.map PodEndpointSlice.toEndpointSlice) ports
          statefulInstances := buildStatefulInstances slices ports ranges }
    | _ :: _ :: _ =>
      .error (.new ("expected exactly one governing Service, found multiple matching labels " ++
        selectorText selector))

/-! ## Visits of the loop -/

section grouping

variable {slices slices' : List PodEndpointSlice} {ports : Store String Int} {ranges : Ranges}
  {idx : Int} {ep : PodEndpoint} {i : StatefulInstance}

/-- An endpoint that the loop comes to, with its joined addresses. -/
structure Visit where
  endpoint : PodEndpoint
  joined : List String

def podEndpoints (slices : List PodEndpointSlice) : List PodEndpoint :=
  slices.flatMap PodEndpointSlice.endpoints

def visits (slices : List PodEndpointSlice) (ports : Store String Int) (ranges : Ranges) :
    List Visit :=
  slices.zipIdx.flatMap fun slice => slice.1.endpoints.zipIdx.map fun ep =>
    ⟨ep.1,joinedAddresses (ranges.ports slice.2 ep.2) ports ep.1⟩

/-- What a visit adds to its instance. -/
def Visit.contribution (v : Visit) : List String :=
  if includeEndpoint v.endpoint.toEndpoint then v.joined else []

theorem groupByOrdinal_eq : groupByOrdinal slices ports ranges =
    (visits slices ports ranges).foldl (fun m v => addEndpoint m v.endpoint v.joined) ∅ := by
  rw [visits,List.foldl_flatMap]
  simp only [List.foldl_map]
  rfl

theorem flatMap_zipIdx {α β : Type} (f : α → List β) (xs : List α) :
    xs.zipIdx.flatMap (fun x => f x.1) = xs.flatMap f := by
  have hfst := congrArg (List.flatMap f) (List.zipIdx_map_fst 0 xs)
  rwa [List.flatMap_map] at hfst

theorem map_visits (slices : List PodEndpointSlice) (ports : Store String Int) (ranges : Ranges) :
    (visits slices ports ranges).map Visit.endpoint = podEndpoints slices := by
  rw [visits,List.map_flatMap,podEndpoints,← flatMap_zipIdx PodEndpointSlice.endpoints]
  apply List.flatMap_congr
  intro slice _
  rw [List.map_map]
  exact List.zipIdx_map_fst 0 slice.1.endpoints

theorem joined_of_visit {v : Visit} (h : v ∈ visits slices ports ranges) :
    ∃ j k, v.joined = joinedAddresses (ranges.ports j k) ports v.endpoint := by
  obtain ⟨slice,-,hv⟩ := List.mem_flatMap.mp h
  obtain ⟨ep,-,rfl⟩ := List.mem_map.mp hv
  exact ⟨_,_,rfl⟩

theorem endpoint_of_visit {v : Visit} (h : v ∈ visits slices ports ranges) :
    v.endpoint ∈ podEndpoints slices := by
  rw [← map_visits slices ports ranges]
  exact List.mem_map_of_mem h

theorem exists_visit (ports : Store String Int) (ranges : Ranges) (h : ep ∈ podEndpoints slices) :
    ∃ v ∈ visits slices ports ranges, v.endpoint = ep := by
  rw [← map_visits slices ports ranges] at h
  exact List.mem_map.mp h

/-! ## Instances -/

/-- The visits of the endpoints whose pods have the ordinal. -/
def visitsOf (slices : List PodEndpointSlice) (ports : Store String Int) (ranges : Ranges)
    (idx : Int) : List Visit :=
  (visits slices ports ranges).filter fun v => ordinal v.endpoint = some idx

theorem lookup_addEndpoint (m : Store Int InstanceInfo) (ep : PodEndpoint) (joined : List String)
    (idx : Int) :
    (addEndpoint m ep joined).lookup idx =
      if ordinal ep = some idx then
        some ⟨((m.lookup idx).getD ⟨[],endpointPodName ep⟩).endpoints ++
            (Visit.mk ep joined).contribution,
          ((m.lookup idx).getD ⟨[],endpointPodName ep⟩).hostname⟩
      else m.lookup idx := by
  unfold addEndpoint
  cases hordinal : ordinal ep with
  | none => simp
  | some idx' =>
    by_cases hidx : idx' = idx
    · subst hidx
      simp only [AList.lookup_insert,if_true,Visit.contribution]
      split
      · rfl
      · rw [List.append_nil]
    · simp [hidx,AList.lookup_insert_ne (Ne.symm hidx)]

theorem lookup_foldl_present {vs : List Visit} {m : Store Int InstanceInfo} {info : InstanceInfo}
    (h : m.lookup idx = some info) :
    (vs.foldl (fun m v => addEndpoint m v.endpoint v.joined) m).lookup idx =
      some ⟨info.endpoints ++ (vs.filter fun v => ordinal v.endpoint = some idx).flatMap
        Visit.contribution,info.hostname⟩ := by
  induction vs generalizing m info with
  | nil => simp [h]
  | cons v vs ih =>
    rw [List.foldl_cons]
    have hlookup := lookup_addEndpoint m v.endpoint v.joined idx
    by_cases hordinal : ordinal v.endpoint = some idx
    · rw [if_pos hordinal,h] at hlookup
      rw [ih hlookup,List.filter_cons_of_pos (by simpa using hordinal)]
      simp
    · rw [if_neg hordinal,h] at hlookup
      rw [ih hlookup,List.filter_cons_of_neg (by simpa using hordinal)]

theorem lookup_foldl_absent {vs : List Visit} {m : Store Int InstanceInfo}
    (h : m.lookup idx = none) :
    (vs.foldl (fun m v => addEndpoint m v.endpoint v.joined) m).lookup idx =
      (vs.filter fun v => ordinal v.endpoint = some idx).head?.map fun v =>
        ⟨(vs.filter fun v => ordinal v.endpoint = some idx).flatMap Visit.contribution,
          endpointPodName v.endpoint⟩ := by
  induction vs generalizing m with
  | nil => simpa using h
  | cons v vs ih =>
    rw [List.foldl_cons]
    have hlookup := lookup_addEndpoint m v.endpoint v.joined idx
    by_cases hordinal : ordinal v.endpoint = some idx
    · rw [if_pos hordinal,h] at hlookup
      rw [lookup_foldl_present hlookup,List.filter_cons_of_pos (by simpa using hordinal)]
      simp
    · rw [if_neg hordinal,h] at hlookup
      rw [ih hlookup,List.filter_cons_of_neg (by simpa using hordinal)]

/-- The instance of an ordinal has the name of the first pod with it, and what all of them add. -/
theorem lookup_groupByOrdinal (slices : List PodEndpointSlice) (ports : Store String Int)
    (ranges : Ranges) (idx : Int) :
    (groupByOrdinal slices ports ranges).lookup idx =
      (visitsOf slices ports ranges idx).head?.map fun v =>
        ⟨(visitsOf slices ports ranges idx).flatMap Visit.contribution,
          endpointPodName v.endpoint⟩ := by
  rw [groupByOrdinal_eq]
  exact lookup_foldl_absent (AList.lookup_empty idx)

/-- The instances as the entries of the map. -/
def instancesOf (m : Store Int InstanceInfo) : List StatefulInstance :=
  m.entries.map fun entry => ⟨entry.1,entry.2.hostname,entry.2.endpoints⟩

theorem perm_buildStatefulInstances : (buildStatefulInstances slices ports ranges).Perm
    (instancesOf (groupByOrdinal slices ports ranges)) :=
  (List.perm_insertionSort _ _).trans ((ranges.instances_perm _).map _)

theorem mem_buildStatefulInstances : i ∈ buildStatefulInstances slices ports ranges ↔
    (groupByOrdinal slices ports ranges).lookup i.index = some ⟨i.endpoints,i.hostname⟩ := by
  rw [perm_buildStatefulInstances.mem_iff,instancesOf,List.mem_map]
  constructor
  · intro h
    obtain ⟨entry,hentry,rfl⟩ := h
    exact AList.mem_lookup_iff.mpr hentry
  · intro h
    exact ⟨⟨i.index,⟨i.endpoints,i.hostname⟩⟩,AList.mem_lookup_iff.mp h,rfl⟩

/-- The instances are in strictly increasing order of their indexes. -/
theorem buildStatefulInstances_strict :
    (buildStatefulInstances slices ports ranges).Pairwise fun a b => a.index < b.index := by
  have hkeys : (((ranges.instances (groupByOrdinal slices ports ranges).entries).map fun entry =>
      (⟨entry.1,entry.2.hostname,entry.2.endpoints⟩ : StatefulInstance)).map fun i =>
        OrderDual.toDual i.index).Nodup := by
    have hentries := (groupByOrdinal slices ports ranges).nodupKeys
    rw [((ranges.instances_perm _).map _ |>.map _).nodup_iff,List.map_map]
    exact hentries
  exact Keyset.descending_strict hkeys

/-- The answer depends only on what is grouped for each ordinal. -/
theorem buildStatefulInstances_congr {ranges' : Ranges}
    (h : ∀ idx, (groupByOrdinal slices ports ranges).lookup idx =
      (groupByOrdinal slices' ports ranges').lookup idx) :
    buildStatefulInstances slices ports ranges = buildStatefulInstances slices' ports ranges' := by
  have hstrict : ∀ slices ranges, (buildStatefulInstances slices ports ranges).Pairwise
      fun a b => a.index < b.index := fun slices ranges => buildStatefulInstances_strict
  have hnodup : ∀ slices ranges, (buildStatefulInstances slices ports ranges).Nodup :=
    fun slices ranges => (hstrict slices ranges).imp fun hlt he => absurd hlt (by simp [he])
  refine List.Perm.eq_of_pairwise ?_ (hstrict slices ranges) (hstrict slices' ranges') ?_
  · intro a b _ _ hab hba
    exact absurd hab (lt_asymm hba)
  · rw [List.perm_ext_iff_of_nodup (hnodup slices ranges) (hnodup slices' ranges')]
    intro i
    rw [mem_buildStatefulInstances,mem_buildStatefulInstances,h]

/-- An endpoint whose pod has an ordinal belongs to an instance. -/
theorem exists_instance (ports : Store String Int) (ranges : Ranges)
    (hep : ep ∈ podEndpoints slices) (hordinal : ordinal ep = some idx) :
    ∃ i ∈ buildStatefulInstances slices ports ranges, i.index = idx := by
  obtain ⟨v,hv,rfl⟩ := exists_visit ports ranges hep
  have hmem : v ∈ visitsOf slices ports ranges idx :=
    List.mem_filter.mpr ⟨hv,decide_eq_true hordinal⟩
  obtain ⟨first,rest,hcons⟩ := List.exists_cons_of_ne_nil (List.ne_nil_of_mem hmem)
  have hlookup := lookup_groupByOrdinal slices ports ranges idx
  rw [hcons] at hlookup
  exact ⟨⟨idx,_,_⟩,mem_buildStatefulInstances.mpr hlookup,rfl⟩

/-! ## What an instance has -/

/-- Ranges in the order of the entries. -/
def inOrder : Nat → List (Σ _ : String, Int) → List (Σ _ : String, Int) :=
  fun _ entries => entries

theorem joinedAddresses_perm {order : Nat → List (Σ _ : String, Int) → List (Σ _ : String, Int)}
    (horder : ∀ k entries, (order k entries).Perm entries) :
    (joinedAddresses order ports ep).Perm (joinedAddresses inOrder ports ep) :=
  List.Perm.flatMap_left _ fun ip _ => (horder ip.2 _).map _

theorem joinedAddresses_inOrder (ports : Store String Int) (ep : PodEndpoint) :
    joinedAddresses inOrder ports ep = ep.addresses.flatMap fun ip =>
      ports.entries.map fun port => joinHostPort ip port.2.repr := by
  rw [← flatMap_zipIdx]
  rfl

theorem mem_joinedAddresses {x : String} : x ∈ joinedAddresses inOrder ports ep ↔
    ∃ ip ∈ ep.addresses, ∃ port ∈ ports.entries, joinHostPort ip port.2.repr = x := by
  rw [joinedAddresses_inOrder]
  simp only [List.mem_flatMap,List.mem_map]

/-- The endpoints of an instance are those of the ready endpoints with its ordinal. -/
theorem mem_endpoints {x : String} (hi : i ∈ buildStatefulInstances slices ports ranges) :
    x ∈ i.endpoints ↔ ∃ ep ∈ podEndpoints slices, ordinal ep = some i.index ∧
      includeEndpoint ep.toEndpoint = true ∧
        x ∈ joinedAddresses inOrder ports ep := by
  have hlookup := mem_buildStatefulInstances.mp hi
  rw [lookup_groupByOrdinal] at hlookup
  obtain ⟨first,-,hfirst⟩ := Option.map_eq_some_iff.mp hlookup
  rw [← (InstanceInfo.mk.inj hfirst).1,List.mem_flatMap]
  have hperm : ∀ j k ep, (joinedAddresses (ranges.ports j k) ports ep).Perm
      (joinedAddresses inOrder ports ep) :=
    fun j k ep => joinedAddresses_perm fun n entries => ranges.ports_perm j k n entries
  constructor
  · intro h
    obtain ⟨v,hv,hx⟩ := h
    obtain ⟨hvisit,hordinal⟩ := List.mem_filter.mp hv
    obtain ⟨j,k,hjoined⟩ := joined_of_visit hvisit
    unfold Visit.contribution at hx
    split at hx
    · rename_i hinclude
      rw [hjoined,(hperm j k _).mem_iff] at hx
      exact ⟨v.endpoint,endpoint_of_visit hvisit,of_decide_eq_true hordinal,hinclude,hx⟩
    · cases hx
  · intro h
    obtain ⟨ep,hep,hordinal,hinclude,hx⟩ := h
    obtain ⟨v,hv,rfl⟩ := exists_visit ports ranges hep
    obtain ⟨j,k,hjoined⟩ := joined_of_visit hv
    refine ⟨v,List.mem_filter.mpr ⟨hv,decide_eq_true hordinal⟩,?_⟩
    rw [Visit.contribution,if_pos hinclude,hjoined,(hperm j k _).mem_iff]
    exact hx

theorem flatMap_filter {α β : Type} (p : α → Bool) (f : α → List β) (xs : List α) :
    (xs.filter p).flatMap f = xs.flatMap fun x => if p x then f x else [] := by
  induction xs with
  | nil => rfl
  | cons x xs ih => cases hp : p x <;> simp [hp,ih]

/-- The ready endpoints with an ordinal that have an address. -/
def addressed (slices : List PodEndpointSlice) (idx : Int) : List PodEndpoint :=
  (podEndpoints slices).filter fun ep => decide (ordinal ep = some idx) &&
    includeEndpoint ep.toEndpoint && !ep.addresses.isEmpty

theorem mem_addressed : ep ∈ addressed slices idx ↔ ep ∈ podEndpoints slices ∧
    ordinal ep = some idx ∧ includeEndpoint ep.toEndpoint = true ∧ ep.addresses ≠ [] := by
  simp [addressed,and_assoc]

/-- Ranges that agree on the endpoints with an ordinal add the same for it. -/
theorem contributed_eq {order : Nat → List (Σ _ : String, Int) → List (Σ _ : String, Int)}
    (h : ∀ j k, ∀ ep ∈ addressed slices idx,
      joinedAddresses (ranges.ports j k) ports ep = joinedAddresses order ports ep) :
    (visitsOf slices ports ranges idx).flatMap Visit.contribution =
      (addressed slices idx).flatMap (joinedAddresses order ports) := by
  have hmap := map_visits slices ports ranges
  have hvisit : ∀ v ∈ visitsOf slices ports ranges idx, v.contribution =
      if includeEndpoint v.endpoint.toEndpoint && !v.endpoint.addresses.isEmpty then
        joinedAddresses order ports v.endpoint else [] := by
    intro v hv
    obtain ⟨hvisit,hordinal⟩ := List.mem_filter.mp hv
    obtain ⟨j,k,hjoined⟩ := joined_of_visit hvisit
    by_cases hinclude : includeEndpoint v.endpoint.toEndpoint = true
    · by_cases haddresses : v.endpoint.addresses = []
      · simp [Visit.contribution,hinclude,haddresses,hjoined,joinedAddresses]
      · have haddressed : v.endpoint ∈ addressed slices idx := mem_addressed.mpr
          ⟨endpoint_of_visit hvisit,of_decide_eq_true hordinal,hinclude,haddresses⟩
        rw [Visit.contribution,if_pos hinclude,hjoined,h j k _ haddressed]
        simp [hinclude,haddresses]
    · simp [Visit.contribution,hinclude]
  rw [List.flatMap_congr hvisit]
  have hfilter : addressed slices idx = ((visitsOf slices ports ranges idx).map
      Visit.endpoint).filter fun ep => includeEndpoint ep.toEndpoint && !ep.addresses.isEmpty := by
    rw [addressed,← hmap,List.filter_map,List.filter_map,visitsOf,List.filter_filter]
    refine congrArg _ (List.filter_congr fun v _ => ?_)
    simp only [Function.comp_apply]
    ac_rfl
  rw [hfilter,flatMap_filter,List.flatMap_map]

end grouping

end Dominion.Deploy.K8s
