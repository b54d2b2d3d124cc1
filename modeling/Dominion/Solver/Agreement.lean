import Mathlib
import Dominion.Deploy.K8s.Converge
import Dominion.Solver.Resolvers

/-! # Agreement of the resolvers

Both resolvers join the same addresses with ports of the same Service; they differ in what they
make of a port that the Service does not declare. -/
namespace Dominion.Solver

open Dominion.Framework
open Dominion.Deploy.Domain (demoName EnvironmentName Err environmentNameRegexp isDigit isLowerLetter)
open Dominion.Deploy.K8s

/-! ## Selectors -/

private theorem isSpace_of_labelChar {c : Char} (h : isValidLabelValueChar c = true) :
    Text.isSpace c = false := by
  have hbounds : 45 ≤ c.toNat ∧ c.toNat ≤ 122 := by
    simp only [isValidLabelValueChar,isASCIIAlphaNumeric,Bool.or_eq_true,Bool.and_eq_true,
      decide_eq_true_eq,beq_iff_eq,Char.le_def,UInt32.le_iff_toNat_le] at h
    unfold Char.toNat
    rcases h with ((((h | h) | h) | rfl) | rfl) | rfl
    · change 97 ≤ c.val.toNat ∧ c.val.toNat ≤ 122 at h
      omega
    · change 65 ≤ c.val.toNat ∧ c.val.toNat ≤ 90 at h
      omega
    · change 48 ≤ c.val.toNat ∧ c.val.toNat ≤ 57 at h
      omega
    · decide
    · decide
    · decide
  simp only [Text.isSpace,List.mem_cons,List.not_mem_nil,or_false,Bool.or_eq_false_iff,
    decide_eq_false_iff_not,Bool.and_eq_false_iff]
  omega

private theorem trimSpace_of_valid {value : String} (h : isValidLabelValue value = true) :
    Text.trimSpace value = value := by
  simp only [isValidLabelValue,Bool.and_eq_true,List.all_eq_true] at h
  exact Text.trimSpace_of_forall fun c hc => isSpace_of_labelChar (h.1.1 c hc)

private theorem alphaNumeric_of_lower {c : Char} (h : isLowerLetter c = true) :
    isASCIIAlphaNumeric c = true := by
  rw [isLowerLetter] at h
  rw [isASCIIAlphaNumeric,h]
  rfl

private theorem alphaNumeric_of_digit {c : Char} (h : isDigit c = true) :
    isASCIIAlphaNumeric c = true := by
  rw [isDigit] at h
  rw [isASCIIAlphaNumeric,h,Bool.or_true]

private theorem labelChar_of_alphaNumeric {c : Char} (h : isASCIIAlphaNumeric c = true) :
    isValidLabelValueChar c = true := by
  rw [isValidLabelValueChar,h]
  rfl

private theorem alphaNumeric_of_regexp {s : String} (h : environmentNameRegexp s = true) :
    s.toList ≠ [] ∧ ∀ c ∈ s.toList, isASCIIAlphaNumeric c = true := by
  unfold environmentNameRegexp at h
  cases hs : s.toList with
  | nil =>
    rw [hs] at h
    cases h
  | cons c cs =>
    rw [hs] at h
    simp only [Bool.and_eq_true,List.all_eq_true,Bool.or_eq_true] at h
    refine ⟨List.cons_ne_nil c cs,?_⟩
    intro d hd
    rcases List.mem_cons.mp hd with rfl | hd
    · exact alphaNumeric_of_lower h.1
    · exact (h.2.2 d hd).elim alphaNumeric_of_lower alphaNumeric_of_digit

/-- The label of an environment is a label value. -/
theorem label_valid (name : EnvironmentName) : isValidLabelValue name.label = true := by
  have hvalid := name.valid
  rw [Bool.and_eq_true] at hvalid
  obtain ⟨hscope,hscopes⟩ := alphaNumeric_of_regexp hvalid.1
  obtain ⟨henv,henvs⟩ := alphaNumeric_of_regexp hvalid.2
  have hlist : name.label.toList = name.scope.toList ++ '.' :: name.envName.toList := by
    simp [EnvironmentName.label]
  simp only [isValidLabelValue,Bool.and_eq_true,List.all_eq_true,hlist]
  refine ⟨⟨?_,?_⟩,?_⟩
  · intro c hc
    rcases List.mem_append.mp hc with hc | hc
    · exact labelChar_of_alphaNumeric (hscopes c hc)
    · rcases List.mem_cons.mp hc with rfl | hc
      · decide
      · exact labelChar_of_alphaNumeric (henvs c hc)
  · rw [List.head?_append_of_ne_nil _ hscope,List.head?_eq_some_head hscope]
    exact hscopes _ (List.head_mem hscope)
  · have hlast : (name.scope.toList ++ '.' :: name.envName.toList).getLast? =
        some (name.envName.toList.getLast henv) := by
      rw [List.getLast?_append_of_ne_nil _ (List.cons_ne_nil _ _),List.getLast?_cons]
      simp [List.getLast?_eq_some_getLast henv]
    rw [hlast]
    exact henvs _ (List.getLast_mem henv)

private theorem label_ne_empty (name : EnvironmentName) : name.label ≠ "" := by
  intro h
  have hlength := congrArg String.length h
  simp only [EnvironmentName.label,String.length_append] at hlength
  have hdot : ".".length = 1 := rfl
  have hempty : "".length = 0 := rfl
  omega

/-- Both resolvers list the Services with the same selector. -/
theorem selector_eq {target : Target} {e : ProcessEnvironment}
    (happ : isValidLabelValue target.app = true) (happne : target.app ≠ "")
    (hservice : isValidLabelValue target.service = true) (hservicene : target.service ≠ "")
    (hname : isValidLabelValue e.name = true) (hnamene : e.name ≠ "") :
    buildLabelSelector (buildLabels [withApp target.app,withService target.service,
      withDominionEnvironment e.name]) = buildServiceSelector target e := by
  simp only [buildLabels,List.foldl_cons,List.foldl_nil,withApp,withService,
    withDominionEnvironment,trimSpace_of_valid happ,trimSpace_of_valid hservice,
    trimSpace_of_valid hname]
  simp [buildLabelSelector,happ,happne,hservice,hservicene,hname,hnamene,buildServiceSelector,
    appLabelKey,serviceLabelKey,dominionEnvironmentLabelKey,serviceAppLabelKey,
    serviceComponentLabelKey,serviceDominionEnvironmentLabelKey]

/-! ## Ports -/

/-- The named ports of a Service. -/
def namedPorts (svc : Service) : List ServicePort :=
  svc.spec.ports.filter fun port => port.name ≠ ""

/-- The slice lists the Service's named ports with the Service's own port numbers. -/
def ListsPorts (svc : Service) (slice : EndpointSlice) : Prop :=
  ∀ p, p ∈ slice.ports ↔ ∃ port ∈ namedPorts svc, p = ⟨some port.name,some port.port⟩

/-- The selector picks a port number of the Service, where only a numeric selector picks a number
that the Service does not declare. -/
def Picks (svc : Service) (ps : PortSelector) (n : Int) : Prop :=
  if ps.isNumeric then n = ps.numeric
  else if ps.isNamed then ∃ port ∈ namedPorts svc, port.name = ps.name ∧ port.port = n
  else ∃ port ∈ namedPorts svc, port.port = n

/-- A selector with a port in it has one that the Service declares. -/
def Declares (svc : Service) (ps : PortSelector) : Prop :=
  if ps.isNumeric then ∃ port ∈ namedPorts svc, port.port = ps.numeric
  else if ps.isNamed then ∃ port ∈ namedPorts svc, port.name = ps.name
  else True

section ports

variable {svc : Service} {slice : EndpointSlice} {ps : PortSelector} {n : Int}

private theorem port_eq_of_name (hnodup : ((namedPorts svc).map ServicePort.name).Nodup)
    {port port' : ServicePort} (h : port ∈ namedPorts svc) (h' : port' ∈ namedPorts svc)
    (hname : port.name = port'.name) : port = port' :=
  List.inj_on_of_nodup_map hnodup h h' hname

private theorem mem_endpointSlicePorts (hnodup : ((namedPorts svc).map ServicePort.name).Nodup)
    (hlists : ListsPorts svc slice) : n ∈ endpointSlicePorts slice ps ↔ Picks svc ps n := by
  unfold endpointSlicePorts Picks
  cases hnumeric : ps.isNumeric with
  | true => simp
  | false =>
    cases hnamed : ps.isNamed with
    | true =>
      simp only [Bool.false_eq_true,if_false,if_true]
      cases hfind : slice.ports.find? fun p => p.port.isSome && decide (p.name = some ps.name) with
      | none =>
        rw [List.find?_eq_none] at hfind
        simp only [Option.bind_none,Option.toList_none,List.not_mem_nil,false_iff]
        rintro ⟨port,hport,hname,rfl⟩
        have hno := hfind _ ((hlists _).mpr ⟨port,hport,rfl⟩)
        simp [hname] at hno
      | some p =>
        obtain ⟨port,hport,rfl⟩ := (hlists p).mp (List.mem_of_find?_eq_some hfind)
        have hname : port.name = ps.name := by
          have hfound := List.find?_some hfind
          simpa using hfound
        simp only [Option.bind_some,Option.toList_some,List.mem_singleton]
        constructor
        · rintro rfl
          exact ⟨port,hport,hname,rfl⟩
        · rintro ⟨port',hport',hname',rfl⟩
          rw [port_eq_of_name hnodup hport hport' (hname.trans hname'.symm)]
    | false =>
      simp only [Bool.false_eq_true,if_false,List.mem_filterMap]
      constructor
      · rintro ⟨p,hp,hport⟩
        obtain ⟨port,hmem,rfl⟩ := (hlists p).mp hp
        exact ⟨port,hmem,Option.some.inj hport⟩
      · rintro ⟨port,hmem,rfl⟩
        exact ⟨_,(hlists _).mpr ⟨port,hmem,rfl⟩,rfl⟩

private theorem servicePortMap_eq (svc : Service) : servicePortMap svc =
    Store.putAll (fun _ d => d) ∅ ((namedPorts svc).map fun port => (port.name,port.port)) := by
  unfold servicePortMap Store.putAll
  rw [List.foldl_map]
  rfl

private theorem lookup_servicePortMap (hnodup : ((namedPorts svc).map ServicePort.name).Nodup)
    {name : String} : (servicePortMap svc).lookup name = some n ↔
      ∃ port ∈ namedPorts svc, port.name = name ∧ port.port = n := by
  have hentries : Store.Unambiguous ((namedPorts svc).map fun port => (port.name,port.port)) := by
    intro k d d' hd hd'
    obtain ⟨port,hport,he⟩ := List.mem_map.mp hd
    obtain ⟨port',hport',he'⟩ := List.mem_map.mp hd'
    obtain ⟨hname,hnumber⟩ := Prod.mk.inj he
    obtain ⟨hname',hnumber'⟩ := Prod.mk.inj he'
    rw [← hnumber,← hnumber',port_eq_of_name hnodup hport hport' (hname.trans hname'.symm)]
  rw [servicePortMap_eq]
  constructor
  · intro hlookup
    by_cases hmem : name ∈ ((namedPorts svc).map fun port => (port.name,port.port)).map Prod.fst
    · obtain ⟨⟨k,number⟩,he,rfl⟩ := List.mem_map.mp hmem
      rw [Store.lookup_putAll (fun _ _ => rfl) hentries he] at hlookup
      obtain ⟨port,hport,heq⟩ := List.mem_map.mp he
      obtain ⟨hname,hnumber⟩ := Prod.mk.inj heq
      exact ⟨port,hport,hname,hnumber.trans (Option.some.inj hlookup)⟩
    · rw [Store.lookup_putAll_of_notMem _ hmem] at hlookup
      cases hlookup
  · rintro ⟨port,hport,rfl,rfl⟩
    exact Store.lookup_putAll (fun _ _ => rfl) hentries (List.mem_map.mpr ⟨port,hport,rfl⟩)

/-- The map of ports is not empty just when the Service has a named port. -/
theorem servicePortMap_entries (hnodup : ((namedPorts svc).map ServicePort.name).Nodup) :
    (servicePortMap svc).entries = [] ↔ namedPorts svc = [] := by
  constructor
  · intro hentries
    rw [List.eq_nil_iff_forall_not_mem]
    intro port hport
    have hlookup := (lookup_servicePortMap hnodup).mpr ⟨port,hport,rfl,rfl⟩
    have hmem := AList.mem_lookup_iff.mp (Option.mem_def.mpr hlookup)
    rw [hentries] at hmem
    cases hmem
  · intro hnone
    rw [servicePortMap_eq,hnone]
    rfl

private theorem mem_servicePortMap (hnodup : ((namedPorts svc).map ServicePort.name).Nodup) :
    (∃ port ∈ (servicePortMap svc).entries, port.2 = n) ↔
      ∃ port ∈ namedPorts svc, port.port = n := by
  constructor
  · rintro ⟨⟨name,number⟩,hmem,rfl⟩
    have hlookup := Option.mem_def.mp (AList.mem_lookup_iff.mpr hmem)
    obtain ⟨port,hport,-,hnumber⟩ := (lookup_servicePortMap hnodup).mp hlookup
    exact ⟨port,hport,hnumber⟩
  · rintro ⟨port,hport,rfl⟩
    have hlookup := (lookup_servicePortMap hnodup).mpr ⟨port,hport,rfl,rfl⟩
    exact ⟨⟨port.name,port.port⟩,AList.mem_lookup_iff.mp (Option.mem_def.mpr hlookup),rfl⟩

end ports

/-! ## Addresses -/

/-- The addresses of the endpoints that both resolvers include. -/
def readyAddresses (slices : List EndpointSlice) : List String :=
  slices.flatMap fun slice => (slice.endpoints.filter includeEndpoint).flatMap Endpoint.addresses

/-- The server keeps IP addresses and host names only. -/
def WellFormedAddress (ip : String) : Prop :=
  Text.trimSpace ip = ip ∧ ip ≠ "" ∧ Unbracketed ip

section addresses

variable {svc : Service} {slices : List EndpointSlice} {ps : PortSelector} {x : String}

private theorem mem_readyAddresses {ip : String} : ip ∈ readyAddresses slices ↔
    ∃ slice ∈ slices, ∃ endpoint ∈ slice.endpoints, includeEndpoint endpoint = true ∧
      ip ∈ endpoint.addresses := by
  simp [readyAddresses,List.mem_flatMap,List.mem_filter,and_assoc]

private theorem mem_expandEndpointSliceAddresses {p : PortSelector}
    (hnodup : ((namedPorts svc).map ServicePort.name).Nodup)
    (hlists : ∀ slice ∈ slices, ListsPorts svc slice)
    (hips : ∀ ip ∈ readyAddresses slices, WellFormedAddress ip) :
    x ∈ expandEndpointSliceAddresses slices p ↔
      ∃ ip ∈ readyAddresses slices, ∃ n, Picks svc p n ∧ joinHostPort ip n.repr = x := by
  simp only [expandEndpointSliceAddresses,mem_sortUnique,List.mem_flatMap,List.mem_filter,
    List.mem_map,mem_readyAddresses]
  constructor
  · rintro ⟨slice,hslice,endpoint,⟨hendpoint,hinclude⟩,ip,⟨⟨raw,hraw,rfl⟩,-⟩,n,hn,rfl⟩
    have hmem := mem_readyAddresses.mpr ⟨slice,hslice,endpoint,hendpoint,hinclude,hraw⟩
    refine ⟨raw,⟨slice,hslice,endpoint,hendpoint,hinclude,hraw⟩,n,
      (mem_endpointSlicePorts hnodup (hlists slice hslice)).mp hn,?_⟩
    rw [(hips raw hmem).1]
  · rintro ⟨ip,⟨slice,hslice,endpoint,hendpoint,hinclude,hip⟩,n,hn,rfl⟩
    have hwell := hips ip (mem_readyAddresses.mpr ⟨slice,hslice,endpoint,hendpoint,hinclude,hip⟩)
    exact ⟨slice,hslice,endpoint,⟨hendpoint,hinclude⟩,ip,⟨⟨ip,hip,hwell.1⟩,by simpa using hwell.2.1⟩,
      n,(mem_endpointSlicePorts hnodup (hlists slice hslice)).mpr hn,rfl⟩

private theorem mem_expandServiceEndpoints
    (hnodup : ((namedPorts svc).map ServicePort.name).Nodup) :
    x ∈ expandServiceEndpoints slices (servicePortMap svc) ↔
      ∃ ip ∈ readyAddresses slices, ∃ port ∈ namedPorts svc,
        joinHostPort ip port.port.repr = x := by
  simp only [expandServiceEndpoints,mem_sortUnique,List.mem_flatMap,List.mem_filter,List.mem_map,
    mem_readyAddresses]
  constructor
  · rintro ⟨slice,hslice,endpoint,⟨hendpoint,hinclude⟩,ip,hip,entry,hentry,rfl⟩
    obtain ⟨port,hport,hnumber⟩ := (mem_servicePortMap hnodup).mp ⟨entry,hentry,rfl⟩
    exact ⟨ip,⟨slice,hslice,endpoint,hendpoint,hinclude,hip⟩,port,hport,by rw [hnumber]⟩
  · rintro ⟨ip,⟨slice,hslice,endpoint,hendpoint,hinclude,hip⟩,port,hport,rfl⟩
    obtain ⟨entry,hentry,hnumber⟩ := (mem_servicePortMap hnodup).mpr ⟨port,hport,rfl⟩
    exact ⟨slice,hslice,endpoint,⟨hendpoint,hinclude⟩,ip,hip,entry,hentry,by rw [hnumber]⟩

/-- An address that was joined splits again. -/
theorem split_address {ip : String} (h : WellFormedAddress ip) (n : Int) :
    splitHostPort (joinHostPort ip n.repr) = some (ip,n.repr) :=
  splitHostPort_joinHostPort h.2.2 (repr_unbracketed n).1 (repr_unbracketed n).2

private theorem mem_filterByNumericPort {p : Int}
    (hnodup : ((namedPorts svc).map ServicePort.name).Nodup)
    (hips : ∀ ip ∈ readyAddresses slices, WellFormedAddress ip) :
    x ∈ filterByNumericPort (expandServiceEndpoints slices (servicePortMap svc)) p ↔
      ∃ ip ∈ readyAddresses slices, (∃ port ∈ namedPorts svc, port.port = p) ∧
        joinHostPort ip p.repr = x := by
  simp only [filterByNumericPort,mem_sortUnique,List.mem_filterMap,
    mem_expandServiceEndpoints hnodup]
  constructor
  · rintro ⟨ep,⟨ip,hip,port,hport,rfl⟩,hx⟩
    rw [split_address (hips ip hip)] at hx
    simp only [Option.bind_some] at hx
    split at hx
    · rename_i hnumber
      exact ⟨ip,hip,⟨port,hport,Int.repr_injective hnumber⟩,Option.some.inj hx⟩
    · cases hx
  · rintro ⟨ip,hip,⟨port,hport,rfl⟩,rfl⟩
    refine ⟨_,⟨ip,hip,port,hport,rfl⟩,?_⟩
    rw [split_address (hips ip hip)]
    simp

private theorem mem_filterByNamedPort {p : Int}
    (hnodup : ((namedPorts svc).map ServicePort.name).Nodup)
    (hips : ∀ ip ∈ readyAddresses slices, WellFormedAddress ip) (hports : namedPorts svc ≠ []) :
    x ∈ filterByNamedPort (expandServiceEndpoints slices (servicePortMap svc)) p ↔
      ∃ ip ∈ readyAddresses slices, joinHostPort ip p.repr = x := by
  simp only [filterByNamedPort,mem_sortUnique,List.mem_filterMap,mem_expandServiceEndpoints hnodup]
  constructor
  · rintro ⟨ep,⟨ip,hip,port,hport,rfl⟩,hx⟩
    rw [split_address (hips ip hip)] at hx
    exact ⟨ip,hip,Option.some.inj hx⟩
  · rintro ⟨ip,hip,rfl⟩
    obtain ⟨port,rest,hcons⟩ := List.exists_cons_of_ne_nil hports
    have hport : port ∈ namedPorts svc := by
      rw [hcons]
      exact List.mem_cons_self
    refine ⟨_,⟨ip,hip,port,hport,rfl⟩,?_⟩
    rw [split_address (hips ip hip)]
    rfl

private theorem sortUnique_ext {xs ys : List String}
    (h : ∀ x, x ∈ sortUnique xs ↔ x ∈ sortUnique ys) :
    sortUnique xs = sortUnique ys := by
  apply sortUnique_congr
  simpa using h

/-- With a port declared, what the deploy service answers is filtered to what the slices give,
unless the selector has a port that the Service does not declare and an endpoint is ready. -/
theorem filterEndpoints_iff (ps : PortSelector)
    (hnodup : ((namedPorts svc).map ServicePort.name).Nodup)
    (hlists : ∀ slice ∈ slices, ListsPorts svc slice)
    (hips : ∀ ip ∈ readyAddresses slices, WellFormedAddress ip) (hports : namedPorts svc ≠ []) :
    filterEndpoints (expandServiceEndpoints slices (servicePortMap svc)) (servicePortMap svc) ps =
        .ok (expandEndpointSliceAddresses slices ps) ↔
      Declares svc ps ∨ readyAddresses slices = [] := by
  have hmem := fun x => mem_expandEndpointSliceAddresses (p := ps) (x := x) hnodup hlists hips
  by_cases hready : readyAddresses slices = []
  · have hnone : expandServiceEndpoints slices (servicePortMap svc) = [] := by
      rw [List.eq_nil_iff_forall_not_mem]
      intro x hx
      obtain ⟨ip,hip,-⟩ := (mem_expandServiceEndpoints hnodup).mp hx
      rw [hready] at hip
      cases hip
    have hempty : expandEndpointSliceAddresses slices ps = [] := by
      rw [List.eq_nil_iff_forall_not_mem]
      intro x hx
      obtain ⟨ip,hip,-⟩ := (hmem x).mp hx
      rw [hready] at hip
      cases hip
    simp [filterEndpoints,hnone,hempty,hready]
  · obtain ⟨ip,ips,hcons⟩ := List.exists_cons_of_ne_nil hready
    have hip : ip ∈ readyAddresses slices := by
      rw [hcons]
      exact List.mem_cons_self
    have hsome : expandServiceEndpoints slices (servicePortMap svc) ≠ [] := by
      obtain ⟨port,rest,hport⟩ := List.exists_cons_of_ne_nil hports
      have hx := (mem_expandServiceEndpoints hnodup).mpr
        ⟨ip,hip,port,by rw [hport]; exact List.mem_cons_self,rfl⟩
      exact List.ne_nil_of_mem hx
    simp only [hready,or_false,filterEndpoints,if_neg hsome,Declares]
    cases hnumeric : ps.isNumeric with
    | true =>
      simp only [if_true]
      have hpicks : ∀ n, Picks svc ps n ↔ n = ps.numeric := by simp [Picks,hnumeric]
      constructor
      · intro heq
        have hx := (hmem _).mpr ⟨ip,hip,ps.numeric,(hpicks _).mpr rfl,rfl⟩
        rw [← Except.ok.inj heq] at hx
        obtain ⟨_,_,hdeclared,-⟩ := (mem_filterByNumericPort hnodup hips).mp hx
        exact hdeclared
      · intro hdeclared
        apply congrArg Except.ok
        apply sortUnique_ext
        intro x
        refine (mem_filterByNumericPort hnodup hips).trans ((hmem x).trans ?_).symm
        simp [hpicks,hdeclared]
    | false =>
      cases hnamed : ps.isNamed with
      | true =>
        simp only [Bool.false_eq_true,if_false,if_true]
        have hpicks : ∀ n, Picks svc ps n ↔ (servicePortMap svc).lookup ps.name = some n := by
          intro n
          simp [Picks,hnumeric,hnamed,lookup_servicePortMap hnodup]
        cases hlookup : (servicePortMap svc).lookup ps.name with
        | none =>
          constructor
          · intro heq
            cases heq
          · rintro ⟨port,hport,hname⟩
            have hfound := (lookup_servicePortMap hnodup).mpr ⟨port,hport,hname,rfl⟩
            rw [hlookup] at hfound
            cases hfound
        | some v =>
          obtain ⟨port,hport,hname,-⟩ := (lookup_servicePortMap hnodup).mp hlookup
          have heq : filterByNamedPort (expandServiceEndpoints slices (servicePortMap svc)) v =
              expandEndpointSliceAddresses slices ps := by
            apply sortUnique_ext
            intro x
            refine (mem_filterByNamedPort hnodup hips hports).trans ((hmem x).trans ?_).symm
            simp [hpicks,hlookup]
          exact ⟨fun _ => ⟨port,hport,hname⟩,fun _ => congrArg Except.ok heq⟩
      | false =>
        simp only [Bool.false_eq_true,if_false,iff_true]
        apply congrArg Except.ok
        apply sortUnique_ext
        intro x
        refine (mem_expandServiceEndpoints hnodup).trans ((hmem x).trans ?_).symm
        simp [Picks,hnumeric,hnamed]

end addresses

/-! ## Answers -/

/-- The same sorted list without duplicates, or an error of both. -/
def SameAnswer (r r' : Except Err (List String)) : Prop :=
  (∃ addresses, r = .ok addresses ∧ r' = .ok addresses ∧ addresses.Pairwise (· < ·)) ∨
    (∃ e, r = .error e) ∧ ∃ e, r' = .error e

/-- The process runs in a pod of the app, in the environment of the label. -/
structure PodOf (lookupEnv : String → Option String) (app label ns : String) : Prop where
  app : lookupRequiredEnv lookupEnv serviceAppEnvKey = .ok app
  name : lookupRequiredEnv lookupEnv dominionEnvironmentEnvKey = .ok label
  «namespace» : lookupRequiredEnv lookupEnv podNamespaceEnvKey = .ok ns

/-- The names of the ports of a Service differ, the slices list its named ports, and the addresses
are well formed. -/
structure Consistent (view : Discovery) : Prop where
  names : ∀ selector, ∀ svc ∈ view.listServices selector,
    ((namedPorts svc).map ServicePort.name).Nodup
  ports : ∀ selector, ∀ svc ∈ view.listServices selector,
    ∀ slice ∈ view.listServiceEndpointSlices svc.metadata.name, ListsPorts svc slice
  addresses : ∀ ip ∈ readyAddresses view.endpointSlices, WellFormedAddress ip

private theorem loadEnvironment_ok {lookupEnv : String → Option String} {target : Target}
    {label ns : String} (h : PodOf lookupEnv target.app label ns) :
    loadEnvironment lookupEnv target = .ok ⟨label,target.app,ns⟩ := by
  unfold loadEnvironment
  rw [h.app,h.name,h.namespace]
  simp only [bind,Except.bind,ne_eq,not_true_eq_false,if_false]
  rfl

private theorem readyAddresses_filter {view : Discovery} {serviceName ip : String}
    (h : ip ∈ readyAddresses (view.listServiceEndpointSlices serviceName)) :
    ip ∈ readyAddresses view.endpointSlices := by
  obtain ⟨slice,hslice,hrest⟩ := mem_readyAddresses.mp h
  exact mem_readyAddresses.mpr ⟨slice,(List.mem_filter.mp hslice).1,hrest⟩

section answers

variable {lookupEnv : String → Option String} {cluster : String → Discovery} {raw : String}
  {target : Target} {name : EnvironmentName} {ns : String}

private theorem resolveK8s_eq (hpod : PodOf lookupEnv target.app name.label ns) {svc : Service}
    (h : (cluster ns).listServices (buildServiceSelector target ⟨name.label,target.app,ns⟩) = [svc]) :
    resolveK8s lookupEnv cluster target = .ok (expandEndpointSliceAddresses
      ((cluster ns).listServiceEndpointSlices svc.metadata.name) target.portSelector) := by
  unfold resolveK8s
  rw [loadEnvironment_ok hpod]
  simp only [bind,Except.bind,h]

private theorem resolveK8s_error (hpod : PodOf lookupEnv target.app name.label ns)
    (h : ∀ svc, (cluster ns).listServices
      (buildServiceSelector target ⟨name.label,target.app,ns⟩) ≠ [svc]) :
    ∃ e, resolveK8s lookupEnv cluster target = .error e := by
  unfold resolveK8s
  rw [loadEnvironment_ok hpod]
  simp only [bind,Except.bind]
  cases hlist : (cluster ns).listServices (buildServiceSelector target ⟨name.label,target.app,ns⟩) with
  | nil => exact ⟨_,rfl⟩
  | cons svc rest =>
    cases rest with
    | nil => exact absurd hlist (h svc)
    | cons svc' rest => exact ⟨_,rfl⟩

private theorem resolveDeploy_eq {view : Discovery}
    (hselector : buildLabelSelector (buildLabels [withApp target.app,withService target.service,
      withDominionEnvironment name.label]) = buildServiceSelector target ⟨name.label,target.app,ns⟩)
    {svc : Service}
    (h : view.listServices (buildServiceSelector target ⟨name.label,target.app,ns⟩) = [svc]) :
    resolveDeploy view name.label target =
      if (servicePortMap svc).entries = [] then .error (.new "service port map unavailable")
      else filterEndpoints (expandServiceEndpoints (view.listServiceEndpointSlices svc.metadata.name)
        (servicePortMap svc)) (servicePortMap svc) target.portSelector := by
  unfold resolveDeploy queryServiceEndpoints
  dsimp only
  rw [hselector,h]
  by_cases hports : (servicePortMap svc).entries = []
  · simp only [hports,if_true]
    rfl
  · simp only [hports,if_false]
    rfl

private theorem resolveDeploy_error {view : Discovery}
    (hselector : buildLabelSelector (buildLabels [withApp target.app,withService target.service,
      withDominionEnvironment name.label]) = buildServiceSelector target ⟨name.label,target.app,ns⟩)
    (h : ∀ svc, view.listServices
      (buildServiceSelector target ⟨name.label,target.app,ns⟩) ≠ [svc]) :
    ∃ e, resolveDeploy view name.label target = .error e := by
  unfold resolveDeploy queryServiceEndpoints
  dsimp only
  rw [hselector]
  cases hlist : view.listServices (buildServiceSelector target ⟨name.label,target.app,ns⟩) with
  | nil => exact ⟨_,rfl⟩
  | cons svc rest =>
    cases rest with
    | nil => exact absurd hlist (h svc)
    | cons svc' rest => exact ⟨_,rfl⟩

/-- For a target of the process's app, the resolvers agree just when the Service that the target
selects, if there is one, has a named port and declares the port of the selector, or none of its
endpoints is ready. -/
theorem resolvers_agree_iff (hparse : parseTarget raw = .ok target)
    (happ : isValidLabelValue target.app = true)
    (hservice : isValidLabelValue target.service = true)
    (hpod : PodOf lookupEnv target.app name.label ns) (hview : Consistent (cluster ns)) :
    SameAnswer (resolveK8s lookupEnv cluster target)
        (resolveDeploy (cluster ns) name.label target) ↔
      ∀ svc, (cluster ns).listServices
          (buildServiceSelector target ⟨name.label,target.app,ns⟩) = [svc] →
        namedPorts svc ≠ [] ∧ (Declares svc target.portSelector ∨
          readyAddresses ((cluster ns).listServiceEndpointSlices svc.metadata.name) = []) := by
  obtain ⟨happne,hservicene⟩ := parseTarget_ok hparse
  have hselector := selector_eq (e := ⟨name.label,target.app,ns⟩) happ happne hservice hservicene
    (label_valid name) (label_ne_empty name)
  by_cases hone : ∃ svc, (cluster ns).listServices
      (buildServiceSelector target ⟨name.label,target.app,ns⟩) = [svc]
  · obtain ⟨svc,hsvc⟩ := hone
    have hmem : svc ∈ (cluster ns).listServices
        (buildServiceSelector target ⟨name.label,target.app,ns⟩) := by
      rw [hsvc]
      exact List.mem_cons_self
    have hnodup := hview.names _ svc hmem
    have hiff := filterEndpoints_iff target.portSelector hnodup
      (hview.ports _ svc hmem)
      fun ip hip => hview.addresses ip (readyAddresses_filter hip)
    have hk8s := resolveK8s_eq hpod hsvc
    have hdeploy := resolveDeploy_eq hselector hsvc
    have hall : (∀ svc', (cluster ns).listServices
        (buildServiceSelector target ⟨name.label,target.app,ns⟩) = [svc'] →
        namedPorts svc' ≠ [] ∧ (Declares svc' target.portSelector ∨
          readyAddresses ((cluster ns).listServiceEndpointSlices svc'.metadata.name) = [])) ↔
        namedPorts svc ≠ [] ∧ (Declares svc target.portSelector ∨
          readyAddresses ((cluster ns).listServiceEndpointSlices svc.metadata.name) = []) := by
      constructor
      · exact fun h => h svc hsvc
      · intro h svc' hsvc'
        cases (List.singleton_inj.mp (hsvc.symm.trans hsvc'))
        exact h
    rw [hall,hk8s,hdeploy]
    by_cases hports : namedPorts svc = []
    · rw [if_pos ((servicePortMap_entries hnodup).mpr hports)]
      constructor
      · rintro (⟨addresses,-,herror,-⟩ | ⟨⟨e,hok⟩,-⟩)
        · cases herror
        · cases hok
      · exact fun h => absurd hports h.1
    · rw [if_neg (mt (servicePortMap_entries hnodup).mp hports)]
      have hthis := hiff hports
      constructor
      · rintro (⟨addresses,hok,hfilter,-⟩ | ⟨⟨e,hok⟩,-⟩)
        · cases hok
          exact ⟨hports,hthis.mp hfilter⟩
        · cases hok
      · intro h
        exact .inl ⟨_,rfl,hthis.mpr h.2,sortUnique_strict _⟩
  · have hnone := fun svc h => hone ⟨svc,h⟩
    constructor
    · exact fun _ svc hsvc => absurd hsvc (hnone svc)
    · exact fun _ => .inr ⟨resolveK8s_error hpod hnone,resolveDeploy_error hselector hnone⟩

end answers

/-! ## Concrete answers -/

/-- A pod of the app `shop` in the demo environment. -/
def demoLookup (key : String) : Option String :=
  if key = serviceAppEnvKey then some "shop"
  else if key = dominionEnvironmentEnvKey then some demoName.label
  else if key = podNamespaceEnvKey then some "default"
  else none

private theorem demoLookup_podOf : PodOf demoLookup "shop" demoName.label "default" :=
  ⟨by decide,by decide,by decide⟩

/-- One ready endpoint of the Service of `api`. -/
def demoSlice : EndpointSlice where
  labels := [(labelServiceName,newObjectName .service demoName.label "api")]
  endpoints := [{ addresses := ["10.1.0.7"], ready := some true }]
  ports := [⟨some "http",some 8080⟩]

def demoDiscovery (c : Cluster Nat) : Discovery where
  services := c.services
  endpointSlices := [demoSlice]

/-- Every Service has the one named port `http`. -/
def OnlyHTTP (c : Cluster Nat) : Bool :=
  c.services.entries.all fun o => decide (namedPorts o.2 = [⟨"http",8080,"http"⟩])

private theorem demoDiscovery_consistent {c : Cluster Nat} (h : OnlyHTTP c = true) :
    Consistent (demoDiscovery c) := by
  have hports : ∀ selector, ∀ svc ∈ (demoDiscovery c).listServices selector,
      namedPorts svc = [⟨"http",8080,"http"⟩] := by
    intro selector svc hsvc
    obtain ⟨o,ho,rfl⟩ := List.mem_map.mp hsvc
    have hall := List.all_eq_true.mp h o (List.mem_filter.mp ho).1
    exact of_decide_eq_true hall
  refine ⟨?_,?_,?_⟩
  · intro selector svc hsvc
    rw [hports selector svc hsvc]
    exact List.nodup_singleton _
  · intro selector svc hsvc slice hslice p
    have hdemo : slice = demoSlice := List.mem_singleton.mp (List.mem_filter.mp hslice).1
    rw [hdemo,hports selector svc hsvc]
    simp [demoSlice]
  · intro ip hip
    have hdemo : ip = "10.1.0.7" := by
      simpa [demoDiscovery,demoSlice,readyAddresses,includeEndpoint] using hip
    subst ip
    exact ⟨by decide,by decide,by decide,by decide⟩

theorem resolvers_agree_demo : ∃ c : Cluster Nat,
    (applies demoConfig demoName).step {} (demoCall (some .stateless)) = some c ∧
      SameAnswer
        (resolveK8s demoLookup (fun _ => demoDiscovery c) ⟨"shop","api",.namedPort "http"⟩)
        (resolveDeploy (demoDiscovery c) demoName.label ⟨"shop","api",.namedPort "http"⟩) := by
  have hrun : (((applies (Q := Nat) demoConfig demoName).step {}
      (demoCall (some .stateless))).any fun c => OnlyHTTP c) = true := by
    decide +kernel
  obtain ⟨c,hstep,honly⟩ := Option.any_eq_true _ _ |>.mp hrun
  have hview := demoDiscovery_consistent honly
  have hparse : parseTarget "shop/api:http" = .ok ⟨"shop","api",.namedPort "http"⟩ := by
    decide
  refine ⟨c,hstep,(resolvers_agree_iff hparse
    (by decide) (by decide) demoLookup_podOf hview).mpr ?_⟩
  intro svc hsvc
  have hmem : svc ∈ (demoDiscovery c).listServices (buildServiceSelector
      ⟨"shop","api",.namedPort "http"⟩ ⟨demoName.label,"shop","default"⟩) := by
    rw [hsvc]
    exact List.mem_cons_self
  obtain ⟨o,ho,hvalue⟩ := List.mem_map.mp hmem
  have hports : namedPorts o.2 = [⟨"http",8080,"http"⟩] :=
    of_decide_eq_true (List.all_eq_true.mp honly o (List.mem_filter.mp ho).1)
  rw [hvalue] at hports
  refine ⟨by simp [hports],.inl ?_⟩
  simp [Declares,PortSelector.namedPort,PortSelector.isNumeric,PortSelector.isNamed,hports]

/-- For a port that the Service does not declare the cluster's answer has an address and the deploy
service's has none. -/
theorem undeclared_port_differs : ∃ c : Cluster Nat,
    (applies demoConfig demoName).step {} (demoCall (some .stateless)) = some c ∧
      Consistent (demoDiscovery c) ∧
      parseTarget "shop/api:9090" = .ok ⟨"shop","api",.numericPort 9090⟩ ∧
      ¬SameAnswer
        (resolveK8s demoLookup (fun _ => demoDiscovery c) ⟨"shop","api",.numericPort 9090⟩)
        (resolveDeploy (demoDiscovery c) demoName.label ⟨"shop","api",.numericPort 9090⟩) := by
  have hrun : (((applies (Q := Nat) demoConfig demoName).step {}
      (demoCall (some .stateless))).any fun c => OnlyHTTP c &&
        decide ((resolveK8s demoLookup (fun _ => demoDiscovery c)
          ⟨"shop","api",.numericPort 9090⟩).toOption = some ["10.1.0.7:9090"]) &&
        decide ((resolveDeploy (demoDiscovery c) demoName.label
          ⟨"shop","api",.numericPort 9090⟩).toOption = some [])) = true := by
    decide +kernel
  obtain ⟨c,hstep,hcheck⟩ := Option.any_eq_true _ _ |>.mp hrun
  simp only [Bool.and_eq_true,decide_eq_true_eq] at hcheck
  obtain ⟨⟨honly,hk8s⟩,hdeploy⟩ := hcheck
  refine ⟨c,hstep,demoDiscovery_consistent honly,by decide,?_⟩
  rintro (⟨addresses,h,h',-⟩ | ⟨⟨e,h⟩,-⟩)
  · rw [h] at hk8s
    rw [h'] at hdeploy
    exact absurd (hk8s.symm.trans hdeploy) (by decide)
  · rw [h] at hk8s
    cases hk8s

end Dominion.Solver
