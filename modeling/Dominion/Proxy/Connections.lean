import Dominion.Framework.Store
import Dominion.Bootstrap.Daemon

/-! # The agent connection cache

The manager of one stateful pool, refreshed by the worker of a daemon and closed by its Stop. -/
namespace Dominion.Proxy.AgentClient

open Dominion.Framework
open Dominion.Bootstrap

structure StatefulInstance where
  index : Int
  hostname : String
  deriving DecidableEq, Repr

inductive ResolveError
  | serviceNotFound
  | failed (error : WorkerError)
  deriving DecidableEq, Repr

/-- A connection is named by its creation. -/
structure ConnEntry where
  conn : Nat
  ownerIndex : Int
  ownerName : String
  deriving DecidableEq, Repr

structure ConnRef where
  ownerIndex : Int
  owner : String
  conn : Nat
  deriving DecidableEq, Repr

structure Manager where
  /-- Close leaves no map. -/
  entries : Option (Store Int ConnEntry) := some ∅
  /-- How many connections were opened. -/
  opened : Nat := 0
  closed : List Nat := []
  deriving DecidableEq

inductive Outcome
  | ok
  | failed (error : WorkerError)
  | panicked (text : String)
  deriving DecidableEq, Repr

/-- The error keeps what it wraps. -/
def wrapping (text : String) : WorkerError → WorkerError
  | .other cause => .other (text ++ cause)
  | error => error

/-- The last instance of an index counts. -/
def currentInstances (instances : List StatefulInstance) : Store Int StatefulInstance :=
  Store.indexedBy StatefulInstance.index instances

namespace Manager

variable (m : Manager)

/-- A missing map reads as an empty one. -/
def cached : Store Int ConnEntry :=
  m.entries.getD ∅

def get (ownerIndex : Int) : Except String ConnRef :=
  match m.cached.lookup ownerIndex with
  | none => .error ("agentclient: no connection for owner index " ++ toString ownerIndex)
  | some entry => .ok ⟨entry.ownerIndex,entry.ownerName,entry.conn⟩

/-- In some order. -/
def list : List ConnRef :=
  m.cached.entries.map fun e => ⟨e.2.ownerIndex,e.2.ownerName,e.2.conn⟩

def close : Manager :=
  { m with entries := none, closed := m.closed ++ m.cached.entries.map fun e => e.2.conn }

/-- The entries of the indices that are not current any more. -/
def stale (current : Store Int StatefulInstance) : List (Σ _ : Int, ConnEntry) :=
  m.cached.entries.filter fun e => (current.lookup e.1).isNone

def removeStale (current : Store Int StatefulInstance) : Manager :=
  { m with
    entries := m.entries.map fun es => es.eraseAll (fun _ _ => true) (m.stale current)
    closed := m.closed ++ (m.stale current).map fun e => e.2.conn }

/-- A new connection in its entry. -/
def openEntry (es : Store Int ConnEntry) (inst : Σ _ : Int, StatefulInstance) : Manager :=
  { m with
    entries := some (es.insert inst.1 ⟨m.opened,inst.1,inst.2.hostname⟩)
    opened := m.opened + 1 }

/-- In the order of the range over the map; a write to the missing map panics. -/
def createEntries (dial : Int → Option WorkerError) :
    List (Σ _ : Int, StatefulInstance) → Manager → Manager × Outcome
  | [], m => (m,.ok)
  | inst :: rest, m =>
    if (m.cached.lookup inst.1).isSome then createEntries dial rest m
    else
      match dial inst.1 with
      | some error =>
        (m,.failed (wrapping ("agentclient: create connection for instance " ++
          toString inst.1 ++ ": ") error))
      | none =>
        match m.entries with
        | none => ({ m with opened := m.opened + 1 },.panicked "assignment to entry in nil map")
        | some es => createEntries dial rest (m.openEntry es inst)

/-- The part of a refresh under the lock. -/
def update (instances : List StatefulInstance) (order : List (Σ _ : Int, StatefulInstance))
    (dial : Int → Option WorkerError) : Option (Manager × Outcome) :=
  if order.Perm (currentInstances instances).entries then
    some (createEntries dial order (m.removeStale (currentInstances instances)))
  else none

end Manager

/-- A missing service has no instances. -/
def resolved : Except ResolveError (List StatefulInstance) →
    Except WorkerError (List StatefulInstance)
  | .ok instances => .ok instances
  | .error .serviceNotFound => .ok []
  | .error (.failed error) => .error (wrapping "agentclient: resolve failed: " error)

/-- The worker, within its Start. -/
inductive Refresher
  | out
  | resolving (initial : Bool)
  | locking (initial : Bool) (instances : List StatefulInstance)
  | waiting
  | leaving (result : StartResult)
  deriving DecidableEq, Repr

/-- Only the initial refresh fails the worker. -/
def Refresher.after (initial : Bool) : Outcome → Refresher
  | .panicked text => .leaving (.panicked text)
  | .failed error => if initial then .leaving (.returned (some error)) else .waiting
  | .ok => .waiting

structure Pool where
  daemon : Daemon
  manager : Manager := {}
  refresher : Refresher := .out
  panics : Nat := 0

inductive PoolStep
  | daemon (l : DaemonStep)
  | resolve (answer : Except ResolveError (List StatefulInstance))
  | update (order : List (Σ _ : Int, StatefulInstance)) (dial : Int → Option WorkerError)
  | tick
  | ended (error : WorkerError)
  | get (ownerIndex : Int)
  | list

namespace Pool

variable (cfg : DaemonConfig) (p : Pool)

/-- The worker's Build never fails, its Start is the refresher and its Stop closes the manager. -/
def daemonStep (l : DaemonStep) : Option Pool :=
  match l with
  | .built (.failed _) => none
  | .built (.panicked _) => none
  | .enter => (p.daemon.step cfg .enter).map fun d =>
      { p with daemon := d, refresher := .resolving true }
  | .leave result =>
    if p.refresher = .leaving result then
      (p.daemon.step cfg (.leave result)).map fun d => { p with daemon := d, refresher := .out }
    else none
  | .stopWorker k => (p.daemon.step cfg (.stopWorker k)).map fun d =>
      { p with
        daemon := d
        manager := if (p.daemon.stops k).held.isSome then p.manager.close else p.manager }
  | l => (p.daemon.step cfg l).map fun d => { p with daemon := d }

def resolve (answer : Except ResolveError (List StatefulInstance)) : Option Pool :=
  match p.refresher with
  | .resolving initial =>
    match resolved answer with
    | .ok instances => some { p with refresher := .locking initial instances }
    | .error error => some { p with refresher := .after initial (.failed error) }
  | _ => none

def update (order : List (Σ _ : Int, StatefulInstance)) (dial : Int → Option WorkerError) :
    Option Pool :=
  match p.refresher with
  | .locking initial instances =>
    (p.manager.update instances order dial).map fun r =>
      { p with
        manager := r.1
        refresher := .after initial r.2
        panics := match r.2 with
          | .panicked _ => p.panics + 1
          | _ => p.panics }
  | _ => none

def step : PoolStep → Option Pool
  | .daemon l => p.daemonStep cfg l
  | .resolve answer => p.resolve answer
  | .update order dial => p.update order dial
  | .tick => if p.refresher = .waiting then some { p with refresher := .resolving false } else none
  | .ended error =>
    if p.refresher = .waiting ∧ p.daemon.ctxDone = true ∧
        (error = .canceled ∨ error = .deadlineExceeded) then
      some { p with refresher := .leaving (.returned (some error)) }
    else none
  | .get _ => some p
  | .list => some p

end Pool

def poolSystem (cfg : DaemonConfig) : Lts Pool PoolStep where
  init p := p = { daemon := { backoff := cfg.initialBackoff } }
  step := Pool.step cfg

/-! ## The cache -/

/-- What holds of the cache in every run. -/
structure Live (m : Manager) : Prop where
  named : ∀ i e, m.cached.lookup i = some e → e.ownerIndex = i
  opened : ∀ i e, m.cached.lookup i = some e → e.conn < m.opened
  unclosed : ∀ i e, m.cached.lookup i = some e → e.conn ∉ m.closed
  distinct : ∀ i i' e e', m.cached.lookup i = some e → m.cached.lookup i' = some e' →
    e.conn = e'.conn → i = i'
  known : ∀ c ∈ m.closed, c < m.opened

/-- No connection was forgotten. -/
def Tracked (m : Manager) : Prop :=
  ∀ c < m.opened, c ∈ m.closed ∨ ∃ i e, m.cached.lookup i = some e ∧ e.conn = c

section cache

variable {m m' : Manager} {dial : Int → Option WorkerError}
  {order : List (Σ _ : Int, StatefulInstance)}

private theorem mem_conns {es : Store Int ConnEntry} {q : (Σ _ : Int, ConnEntry) → Bool} {c : Nat} :
    c ∈ (es.entries.filter q).map (fun e => e.2.conn) ↔
      ∃ i e, es.lookup i = some e ∧ q ⟨i,e⟩ = true ∧ e.conn = c := by
  constructor
  · intro hc
    obtain ⟨⟨i,e⟩,hmem,rfl⟩ := List.mem_map.mp hc
    obtain ⟨he,hq⟩ := List.mem_filter.mp hmem
    exact ⟨i,e,AList.mem_lookup_iff.mpr he,hq,rfl⟩
  · rintro ⟨i,e,he,hq,rfl⟩
    exact List.mem_map.mpr ⟨⟨i,e⟩,List.mem_filter.mpr ⟨AList.mem_lookup_iff.mp he,hq⟩,rfl⟩

private theorem live_close (h : Live m) : Live m.close where
  named := fun i e he => by cases he
  opened := fun i e he => by cases he
  unclosed := fun i e he => by cases he
  distinct := fun i i' e e' he => by cases he
  known := by
    intro c hc
    rcases List.mem_append.mp hc with hold | hnew
    · exact h.known c hold
    · obtain ⟨⟨i,e⟩,hmem,rfl⟩ := List.mem_map.mp hnew
      exact h.opened i e (AList.mem_lookup_iff.mpr hmem)

private theorem tracked_close (h : Tracked m) : ∀ c < m.close.opened, c ∈ m.close.closed := by
  intro c hc
  rcases h c hc with hclosed | ⟨i,e,he,rfl⟩
  · exact List.mem_append_left _ hclosed
  · exact List.mem_append_right _
      (List.mem_map.mpr ⟨⟨i,e⟩,AList.mem_lookup_iff.mp he,rfl⟩)

private theorem lookup_removeStale {current : Store Int StatefulInstance} {i : Int}
    {e : ConnEntry} :
    (m.removeStale current).cached.lookup i = some e ↔
      m.cached.lookup i = some e ∧ (current.lookup i).isSome = true := by
  have hcached : (m.removeStale current).cached =
      m.cached.eraseAll (fun _ _ => true) (m.stale current) := by
    cases hentries : m.entries with
    | none => simp [Manager.removeStale,Manager.cached,Manager.stale,hentries]; rfl
    | some es => simp [Manager.removeStale,Manager.cached,hentries]
  rw [hcached]
  unfold Manager.stale
  rw [Store.lookup_eraseAll_entries]
  simp [Option.filter_eq_some_iff]

private theorem live_removeStale (h : Live m) (current : Store Int StatefulInstance) :
    Live (m.removeStale current) where
  named := fun i e he => h.named i e (lookup_removeStale.mp he).1
  opened := fun i e he => h.opened i e (lookup_removeStale.mp he).1
  unclosed := by
    intro i e he hclosed
    obtain ⟨hold,hcurrent⟩ := lookup_removeStale.mp he
    rcases List.mem_append.mp hclosed with hbefore | hstale
    · exact h.unclosed i e hold hbefore
    · obtain ⟨i',e',he',hnone,hconn⟩ := mem_conns.mp hstale
      have hsame := h.distinct i i' e e' hold he' hconn.symm
      rw [hsame] at hcurrent
      rw [Option.isNone_iff_eq_none.mp hnone] at hcurrent
      cases hcurrent
  distinct := fun i i' e e' he he' =>
    h.distinct i i' e e' (lookup_removeStale.mp he).1 (lookup_removeStale.mp he').1
  known := by
    intro c hc
    rcases List.mem_append.mp hc with hbefore | hstale
    · exact h.known c hbefore
    · obtain ⟨i,e,he,-,rfl⟩ := mem_conns.mp hstale
      exact h.opened i e he

private theorem closed_removeStale {current : Store Int StatefulInstance} {i : Int} {e : ConnEntry}
    (he : m.cached.lookup i = some e) (hgone : current.lookup i = none) :
    e.conn ∈ (m.removeStale current).closed :=
  List.mem_append_right _ (mem_conns.mpr ⟨i,e,he,by simp [hgone],rfl⟩)

private theorem tracked_removeStale (h : Tracked m) (current : Store Int StatefulInstance) :
    Tracked (m.removeStale current) := by
  intro c hc
  rcases h c hc with hclosed | ⟨i,e,he,rfl⟩
  · exact Or.inl (List.mem_append_left _ hclosed)
  · cases hcurrent : current.lookup i with
    | none => exact Or.inl (closed_removeStale he hcurrent)
    | some inst => exact Or.inr ⟨i,e,lookup_removeStale.mpr ⟨he,by simp [hcurrent]⟩,rfl⟩

private theorem lookup_openEntry {es : Store Int ConnEntry} (hes : m.entries = some es)
    (inst : Σ _ : Int, StatefulInstance) (i : Int) :
    (m.openEntry es inst).cached.lookup i =
      if i = inst.1 then some ⟨m.opened,inst.1,inst.2.hostname⟩ else m.cached.lookup i := by
  have hcached : m.cached = es := by simp [Manager.cached,hes]
  show (es.insert inst.1 _).lookup i = _
  by_cases hi : i = inst.1
  · rw [if_pos hi,hi,AList.lookup_insert]
  · rw [if_neg hi,AList.lookup_insert_ne hi,hcached]

private theorem live_openEntry (h : Live m) {es : Store Int ConnEntry} (hes : m.entries = some es)
    (inst : Σ _ : Int, StatefulInstance) : Live (m.openEntry es inst) := by
  have hcases : ∀ i e, (m.openEntry es inst).cached.lookup i = some e →
      (i = inst.1 ∧ e = ⟨m.opened,inst.1,inst.2.hostname⟩) ∨ m.cached.lookup i = some e := by
    intro i e he
    rw [lookup_openEntry hes] at he
    split at he
    · rename_i hi
      exact Or.inl ⟨hi,(Option.some.inj he).symm⟩
    · exact Or.inr he
  exact {
    named := by
      intro i e he
      rcases hcases i e he with ⟨hi,rfl⟩ | hold
      · exact hi.symm
      · exact h.named i e hold
    opened := by
      intro i e he
      rcases hcases i e he with ⟨-,rfl⟩ | hold
      · exact Nat.lt_succ_self _
      · exact Nat.lt_succ_of_lt (h.opened i e hold)
    unclosed := by
      intro i e he hclosed
      rcases hcases i e he with ⟨-,rfl⟩ | hold
      · exact Nat.lt_irrefl _ (h.known _ hclosed)
      · exact h.unclosed i e hold hclosed
    distinct := by
      intro i i' e e' he he' hconn
      rcases hcases i e he with ⟨hi,rfl⟩ | hold
      · rcases hcases i' e' he' with ⟨hi',-⟩ | hold'
        · exact hi.trans hi'.symm
        · exact absurd (hconn ▸ h.opened i' e' hold') (Nat.lt_irrefl _)
      · rcases hcases i' e' he' with ⟨-,rfl⟩ | hold'
        · exact absurd (hconn ▸ h.opened i e hold) (Nat.lt_irrefl _)
        · exact h.distinct i i' e e' hold hold' hconn
    known := fun c hc => Nat.lt_succ_of_lt (h.known c hc) }

private theorem tracked_openEntry (h : Tracked m) {es : Store Int ConnEntry}
    (hes : m.entries = some es)
    {inst : Σ _ : Int, StatefulInstance} (hnew : m.cached.lookup inst.1 = none) :
    Tracked (m.openEntry es inst) := by
  intro c hc
  have hlt : c < m.opened + 1 := hc
  rcases Nat.lt_succ_iff_lt_or_eq.mp hlt with hold | rfl
  · rcases h c hold with hclosed | ⟨i,e,he,rfl⟩
    · exact Or.inl hclosed
    · have hi : i ≠ inst.1 := fun hi => by rw [hi,hnew] at he; cases he
      exact Or.inr ⟨i,e,by rw [lookup_openEntry hes,if_neg hi]; exact he,rfl⟩
  · exact Or.inr ⟨inst.1,_,by rw [lookup_openEntry hes,if_pos rfl],rfl⟩

/-- What the creation of the new entries does. -/
structure Created (m : Manager) (order : List (Σ _ : Int, StatefulInstance)) (r : Manager × Outcome) :
    Prop where
  live : Live m → Live r.1
  closed : r.1.closed = m.closed
  kept : ∀ i e, m.cached.lookup i = some e → r.1.cached.lookup i = some e
  added : ∀ i e, r.1.cached.lookup i = some e → m.cached.lookup i = some e ∨ ∃ inst, ⟨i,inst⟩ ∈ order
  complete : r.2 = .ok → ∀ inst ∈ order, (r.1.cached.lookup inst.1).isSome = true
  map : r.1.entries = none ↔ m.entries = none
  tracked : Tracked m → (∀ text, r.2 ≠ .panicked text) → Tracked r.1

private theorem created_createEntries (dial : Int → Option WorkerError)
    (order : List (Σ _ : Int, StatefulInstance)) (m : Manager) :
    Created m order (Manager.createEntries dial order m) := by
  induction order generalizing m with
  | nil =>
    exact ⟨id,rfl,fun _ _ h => h,fun _ _ h => Or.inl h,fun _ inst h => (by cases h),Iff.rfl,
      fun h _ => h⟩
  | cons inst rest ih =>
    rw [Manager.createEntries]
    split
    · rename_i hhas
      have h := ih m
      exact {
        live := h.live
        closed := h.closed
        kept := h.kept
        added := fun i e he => (h.added i e he).imp id fun ⟨x,hx⟩ => ⟨x,List.mem_cons_of_mem _ hx⟩
        complete := by
          intro hok x hx
          rcases List.mem_cons.mp hx with rfl | hrest
          · obtain ⟨e,he⟩ := Option.isSome_iff_exists.mp hhas
            rw [h.kept _ _ he]
            rfl
          · exact h.complete hok x hrest
        map := h.map
        tracked := h.tracked }
    · rename_i hhas
      have hnew : m.cached.lookup inst.1 = none := by simpa using hhas
      split
      · exact ⟨id,rfl,fun _ _ h => h,fun _ _ h => Or.inl h,fun hok => (by cases hok),Iff.rfl,
          fun h _ => h⟩
      · split
        · rename_i hentries
          exact ⟨fun h => ⟨h.named,fun i e he => Nat.lt_succ_of_lt (h.opened i e he),h.unclosed,
              h.distinct,fun c hc => Nat.lt_succ_of_lt (h.known c hc)⟩,rfl,fun _ _ h => h,
            fun _ _ h => Or.inl h,fun hok => (by cases hok),Iff.rfl,
            fun _ hno => absurd rfl (hno "assignment to entry in nil map")⟩
        · rename_i es hes
          have h := ih (m.openEntry es inst)
          have hopen := lookup_openEntry hes inst
          exact {
            live := fun hlive => h.live (live_openEntry hlive hes inst)
            closed := h.closed
            kept := by
              intro i e he
              have hi : i ≠ inst.1 := fun hi => by rw [hi,hnew] at he; cases he
              exact h.kept i e (by rw [hopen i,if_neg hi]; exact he)
            added := by
              intro i e he
              rcases h.added i e he with hold | ⟨x,hx⟩
              · rw [hopen i] at hold
                split at hold
                · rename_i hi
                  exact Or.inr ⟨inst.2,by rw [hi]; exact List.mem_cons_self⟩
                · exact Or.inl hold
              · exact Or.inr ⟨x,List.mem_cons_of_mem _ hx⟩
            complete := by
              intro hok x hx
              rcases List.mem_cons.mp hx with rfl | hrest
              · rw [h.kept _ _ ((hopen x.1).trans (if_pos rfl))]
                rfl
              · exact h.complete hok x hrest
            map := by
              rw [h.map,hes]
              exact ⟨fun he => (by cases he),fun he => (by cases he)⟩
            tracked := fun htracked => h.tracked (tracked_openEntry htracked hes hnew) }

/-- The first connection cannot be created, or there is none to create. -/
def Spared (order : List (Σ _ : Int, StatefulInstance)) (dial : Int → Option WorkerError) : Bool :=
  order.head?.all fun inst => (dial inst.1).isSome

/-- Without a map a panic loses the first connection that is created. -/
theorem createEntries_closed (hentries : m.entries = none) :
    (∃ text, (Manager.createEntries dial order m).2 = .panicked text) ↔ Spared order dial = false := by
  have hnone : ∀ i, m.cached.lookup i = none := fun i => by simp [Manager.cached,hentries]
  cases order with
  | nil => simp [Manager.createEntries,Spared]
  | cons inst rest =>
    rw [Manager.createEntries,hnone]
    cases hdial : dial inst.1 with
    | some error => simp [Spared,hdial]
    | none => simp [Spared,hdial,hentries]

/-- With a map the creation never panics. -/
theorem createEntries_no_panic (hentries : m.entries ≠ none) (text : String) :
    (Manager.createEntries dial order m).2 ≠ .panicked text := by
  induction order generalizing m with
  | nil => simp [Manager.createEntries]
  | cons inst rest ih =>
    rw [Manager.createEntries]
    split
    · exact ih hentries
    · split
      · simp
      · split
        · rename_i hnone
          exact absurd hnone hentries
        · exact ih (by simp [Manager.openEntry])

/-- A refresh serves the resolved instances. -/
structure Served (before after : Manager) (instances : List StatefulInstance) : Prop where
  indices : ∀ i, (after.cached.lookup i).isSome = true ↔ ∃ inst ∈ instances, inst.index = i
  live : Live after
  kept : ∀ i e, before.cached.lookup i = some e → (∃ inst ∈ instances, inst.index = i) →
    after.cached.lookup i = some e
  removed : ∀ i e, before.cached.lookup i = some e → (∀ inst ∈ instances, inst.index ≠ i) →
    e.conn ∈ after.closed

private theorem created_update {instances : List StatefulInstance} {r : Manager × Outcome}
    (hr : m.update instances order dial = some r) :
    order.Perm (currentInstances instances).entries ∧
      Created (m.removeStale (currentInstances instances)) order r := by
  obtain ⟨hperm,rfl⟩ := of_guard hr
  exact ⟨hperm,created_createEntries dial order _⟩

private theorem served_update (h : Live m) {instances : List StatefulInstance}
    (hr : m.update instances order dial = some (m',.ok)) : Served m m' instances := by
  obtain ⟨hperm,hcreated⟩ := created_update hr
  have hcurrent : ∀ i, ((currentInstances instances).lookup i).isSome = true ↔
      ∃ inst ∈ instances, inst.index = i := fun _ => Store.lookup_indexedBy_isSome
  have hmem : ∀ i, (∃ inst, ⟨i,inst⟩ ∈ order) ↔ ∃ inst ∈ instances, inst.index = i := by
    intro i
    rw [← hcurrent,Option.isSome_iff_exists]
    exact exists_congr fun inst => hperm.mem_iff.trans AList.mem_lookup_iff.symm
  exact {
    indices := by
      intro i
      rw [← hmem]
      constructor
      · intro hi
        obtain ⟨e,he⟩ := Option.isSome_iff_exists.mp hi
        rcases hcreated.added i e he with hold | hnew
        · exact (hmem i).mpr ((hcurrent i).mp (lookup_removeStale.mp hold).2)
        · exact hnew
      · rintro ⟨inst,hinst⟩
        exact hcreated.complete rfl ⟨i,inst⟩ hinst
    live := hcreated.live (live_removeStale h _)
    kept := fun i e he hi =>
      hcreated.kept i e (lookup_removeStale.mpr ⟨he,(hcurrent i).mpr hi⟩)
    removed := by
      intro i e he hgone
      rw [hcreated.closed]
      apply closed_removeStale he
      rw [← Option.not_isSome_iff_eq_none,hcurrent]
      rintro ⟨inst,hinst,hi⟩
      exact hgone inst hinst hi }

private theorem update_entries {instances : List StatefulInstance} {r : Manager × Outcome}
    (hr : m.update instances order dial = some r) : r.1.entries = none ↔ m.entries = none := by
  rw [(created_update hr).2.map]
  simp [Manager.removeStale]

/-- Only a missing map panics. -/
theorem update_panics {instances : List StatefulInstance} {r : Manager × Outcome}
    (hr : m.update instances order dial = some r) :
    (∃ text, r.2 = .panicked text) ↔ m.entries = none ∧ Spared order dial = false := by
  obtain ⟨-,rfl⟩ := of_guard hr
  cases hentries : m.entries with
  | none =>
    have hstale : (m.removeStale (currentInstances instances)).entries = none := by
      simp [Manager.removeStale,hentries]
    rw [createEntries_closed hstale]
    simp
  | some es =>
    have hstale : (m.removeStale (currentInstances instances)).entries ≠ none := by
      simp [Manager.removeStale,hentries]
    simp [createEntries_no_panic hstale]

end cache

/-! ## The runs -/

/-- No refresh goes on after Close with a connection that it can create. -/
def Spares (p : Pool) : PoolStep → Bool
  | .update order dial => p.manager.entries.isSome || Spared order dial
  | _ => true

def observedPool (cfg : DaemonConfig) : Lts (Pool × Bool) PoolStep :=
  (poolSystem cfg).journaled (fun p l _ clean => clean && Spares p l) true

/-- Close has run once a worker was stopped. -/
def AfterClose (p : Pool) : Prop :=
  p.panics = 0 ∧ (p.daemon.stopped ≠ [] → p.manager.entries = none ∧
    ∀ c < p.manager.opened, c ∈ p.manager.closed)

structure PoolInv (x : Pool × Bool) : Prop where
  live : Live x.1.manager
  map : x.1.manager.entries = none ↔ x.1.daemon.stopped ≠ []
  tracked : x.2 = true → Tracked x.1.manager
  panics : x.2 = true ↔ x.1.panics = 0

section runs

variable {cfg : DaemonConfig} {p q : Pool} {clean : Bool}

private theorem inv_init : PoolInv ({ daemon := { backoff := cfg.initialBackoff } },true) where
  live := by
    have hnone : ∀ i, (∅ : Store Int ConnEntry).lookup i = none := AList.lookup_empty
    exact ⟨fun i e he => (by cases (hnone i).symm.trans he),
      fun i e he => (by cases (hnone i).symm.trans he),
      fun i e he => (by cases (hnone i).symm.trans he),
      fun i i' e e' he => (by cases (hnone i).symm.trans he),by simp⟩
  map := by simp
  tracked := fun _ c hc => absurd hc (Nat.not_lt_zero c)
  panics := by simp

/-- A step that leaves the cache alone. -/
theorem PoolInv.same (h : PoolInv (p,clean)) (hmanager : q.manager = p.manager)
    (hstopped : q.daemon.stopped = p.daemon.stopped) (hpanics : q.panics = p.panics) :
    PoolInv (q,clean) where
  live := by
    rw [hmanager]
    exact h.live
  map := by
    rw [hmanager,hstopped]
    exact h.map
  tracked := by
    rw [hmanager]
    exact h.tracked
  panics := by
    rw [hpanics]
    exact h.panics

/-- Close, any number of times. -/
theorem PoolInv.close (h : PoolInv (p,clean)) (hmanager : q.manager = p.manager.close)
    (hstopped : q.daemon.stopped ≠ []) (hpanics : q.panics = p.panics) : PoolInv (q,clean) where
  live := by
    rw [hmanager]
    exact live_close h.live
  map := by
    rw [hmanager]
    exact ⟨fun _ => hstopped,fun _ => rfl⟩
  tracked := by
    rw [hmanager]
    exact fun hclean c hc => Or.inl (tracked_close (h.tracked hclean) c hc)
  panics := by
    rw [hpanics]
    exact h.panics

/-- Only a call of the worker's Stop counts as one. -/
theorem stopped_step {d d' : Daemon} {l : DaemonStep} (hd : d.step cfg l = some d')
    (hl : ∀ k, l ≠ .stopWorker k) : d'.stopped = d.stopped := by
  cases l with
  | start => exact (quiet_start hd).stopped
  | check => exact (quiet_check hd).stopped
  | built result => exact (quiet_build hd).stopped
  | leave result => exact (quiet_leave hd).stopped
  | afterStart => exact (quiet_afterStart hd).stopped
  | policy => exact (quiet_policy hd).stopped
  | send => exact (quiet_send hd).stopped
  | stopWorker k => exact absurd rfl (hl k)
  | parentDone | receive =>
    cases hd
    rfl
  | stopCall k | stopRead k | stopDone k | wake | interrupted =>
    obtain ⟨-,rfl⟩ := of_guard hd
    rfl
  | stopCancel k =>
    have hcancel : d.stopCancel k = some d' := hd
    unfold Daemon.stopCancel at hcancel
    split at hcancel
    · cases hcancel
      rfl
    · cases hcancel
  | install =>
    have hinstall : d.install = some d' := hd
    unfold Daemon.install at hinstall
    split at hinstall
    · cases hinstall
      rfl
    · cases hinstall
  | enter =>
    have henter : d.enter = some d' := hd
    unfold Daemon.enter at henter
    split at henter
    · cases henter
      rfl
    · cases henter

private theorem stopped_worker {d d' : Daemon} {k : Nat}
    (hd : d.step cfg (.stopWorker k) = some d') :
    d'.stopped = d.stopped ++ (d.stops k).held.toList := by
  have hworker : d.stopWorker k = some d' := hd
  unfold Daemon.stopWorker at hworker
  split at hworker
  · rename_i worker hphase
    cases hworker
    rw [hphase]
    rfl
  · cases hworker

private theorem PoolInv.daemon (h : PoolInv (p,clean)) {l : DaemonStep}
    (hs : p.daemonStep cfg l = some q) : PoolInv (q,clean) := by
  unfold Pool.daemonStep at hs
  split at hs
  · cases hs
  · cases hs
  · obtain ⟨d,hd,rfl⟩ := Option.map_eq_some_iff.mp hs
    exact h.same rfl (stopped_step hd (by simp)) rfl
  · split at hs
    · obtain ⟨d,hd,rfl⟩ := Option.map_eq_some_iff.mp hs
      exact h.same rfl (stopped_step hd (by simp)) rfl
    · cases hs
  · rename_i k
    obtain ⟨d,hd,rfl⟩ := Option.map_eq_some_iff.mp hs
    have hstopped := stopped_worker hd
    cases hheld : (p.daemon.stops k).held with
    | none =>
      rw [hheld] at hstopped
      exact h.same (by simp) (by simpa using hstopped) rfl
    | some worker =>
      rw [hheld] at hstopped
      exact h.close (by simp) (by simp [hstopped]) rfl
  · rename_i hstop
    obtain ⟨d,hd,rfl⟩ := Option.map_eq_some_iff.mp hs
    exact h.same rfl (stopped_step hd hstop) rfl

private theorem PoolInv.resolve (h : PoolInv (p,clean))
    {answer : Except ResolveError (List StatefulInstance)}
    (hs : p.resolve answer = some q) : PoolInv (q,clean) := by
  unfold Pool.resolve at hs
  split at hs
  · split at hs <;> cases hs <;> exact h.same rfl rfl rfl
  · cases hs

private theorem PoolInv.update (h : PoolInv (p,clean)) {order : List (Σ _ : Int, StatefulInstance)}
    {dial : Int → Option WorkerError} (hs : p.update order dial = some q) :
    PoolInv (q,clean && Spares p (.update order dial)) := by
  unfold Pool.update at hs
  split at hs
  · obtain ⟨r,hr,rfl⟩ := Option.map_eq_some_iff.mp hs
    obtain ⟨-,hcreated⟩ := created_update hr
    have hpanics := update_panics hr
    have hspares : Spares p (.update order dial) = false ↔ ∃ text, r.2 = .panicked text := by
      rw [hpanics]
      simp [Spares]
    exact {
      live := hcreated.live (live_removeStale h.live _)
      map := (update_entries hr).trans h.map
      tracked := by
        intro hboth
        obtain ⟨hclean,hspared⟩ := Bool.and_eq_true_iff.mp hboth
        refine hcreated.tracked (tracked_removeStale (h.tracked hclean) _) fun text htext => ?_
        rw [hspares.mpr ⟨text,htext⟩] at hspared
        cases hspared
      panics := by
        obtain ⟨m,outcome⟩ := r
        cases outcome with
        | panicked text =>
          rw [hspares.mpr ⟨text,rfl⟩,Bool.and_false]
          simp
        | ok =>
          have htrue : Spares p (.update order dial) = true := by
            rw [← Bool.not_eq_false,hspares]
            simp
          rw [htrue,Bool.and_true]
          exact h.panics
        | failed error =>
          have htrue : Spares p (.update order dial) = true := by
            rw [← Bool.not_eq_false,hspares]
            simp
          rw [htrue,Bool.and_true]
          exact h.panics }
  · cases hs

private theorem inductive_pool : Lts.Inductive (observedPool cfg) (fun _ _ => True) PoolInv where
  init x hx := by
    obtain ⟨hp,hclean⟩ := hx
    have he : x = ({ daemon := { backoff := cfg.initialBackoff } },true) := Prod.ext hp hclean
    rw [he]
    exact inv_init
  step x l y hx _ hstep := by
    obtain ⟨hs,hclean⟩ := Lts.journaled_step.mp hstep
    have hy : y = (y.1,x.2 && Spares x.1 l) := Prod.ext rfl hclean
    rw [hy]
    have hx' : PoolInv (x.1,x.2) := hx
    have hspared (hspares : Spares x.1 l = true) (h : PoolInv (y.1,x.2)) :
        PoolInv (y.1,x.2 && Spares x.1 l) := by
      rwa [hspares,Bool.and_true]
    cases l with
    | daemon l => exact hspared rfl (hx'.daemon hs)
    | resolve answer => exact hspared rfl (hx'.resolve hs)
    | update order dial => exact hx'.update hs
    | tick | ended error =>
      obtain ⟨-,he⟩ := of_guard hs
      exact hspared rfl (he ▸ hx'.same rfl rfl rfl)
    | get i | list =>
      have he : x.1 = y.1 := Option.some.inj hs
      exact hspared rfl (he ▸ hx')

private theorem PoolInv.afterClose_iff {x : Pool × Bool} (h : PoolInv x) :
    AfterClose x.1 ↔ x.2 = true := by
  constructor
  · exact fun hafter => h.panics.mpr hafter.1
  · intro hclean
    refine ⟨h.panics.mp hclean,fun hstopped => ?_⟩
    have hentries := h.map.mpr hstopped
    refine ⟨hentries,fun c hc => ?_⟩
    rcases h.tracked hclean c hc with hclosed | ⟨i,e,he,-⟩
    · exact hclosed
    · simp [Manager.cached,hentries] at he

end runs

/-- In every run Get and List hand out open connections, a refresh that succeeds serves exactly
the resolved instances, and one whose Resolve fails changes nothing.  Nothing panics and Close leaves
no connection open just as long as no refresh goes on after it with a connection it can create. -/
theorem connection_cache (cfg : DaemonConfig) : ∀ x, Lts.Reach (observedPool cfg) x →
    (∀ ref, (∃ i, x.1.manager.get i = .ok ref) ∨ ref ∈ x.1.manager.list →
      ref.conn < x.1.manager.opened ∧ ref.conn ∉ x.1.manager.closed) ∧
    (∀ initial instances order dial m, x.1.refresher = .locking initial instances →
      x.1.manager.update instances order dial = some (m,.ok) → Served x.1.manager m instances) ∧
    (∀ error y, (observedPool cfg).step x (.resolve (.error (.failed error))) = some y →
      y.1.manager = x.1.manager) ∧
    (AfterClose x.1 ↔ x.2 = true) := by
  intro x hx
  have h := inductive_pool.of_reachUnder hx
  refine ⟨fun ref href => ?_,fun _ _ _ _ _ _ hr => served_update h.live hr,fun error y hstep => ?_,
    h.afterClose_iff⟩
  · obtain ⟨i,e,he,hconn⟩ : ∃ i e, x.1.manager.cached.lookup i = some e ∧ e.conn = ref.conn := by
      rcases href with ⟨i,hget⟩ | hlist
      · unfold Manager.get at hget
        split at hget
        · cases hget
        · rename_i e he
          cases hget
          exact ⟨i,e,he,rfl⟩
      · obtain ⟨⟨i,e⟩,hmem,rfl⟩ := List.mem_map.mp hlist
        exact ⟨i,e,AList.mem_lookup_iff.mpr hmem,rfl⟩
    rw [← hconn]
    exact ⟨h.live.opened i e he,h.live.unclosed i e he⟩
  · obtain ⟨hs,-⟩ := Lts.journaled_step.mp hstep
    have hresolve : x.1.resolve (.error (.failed error)) = some y.1 := hs
    unfold Pool.resolve at hresolve
    split at hresolve
    · rw [← Option.some.inj hresolve]
    · cases hresolve

/-! ## Two runs -/

def poolDaemon : DaemonConfig :=
  { quotedName := "\"agentclient-manager-v2\"", initialBackoff := 1, maxBackoff := 30,
    maxRestarts := 5 }

def poolStart : Pool × Bool :=
  ({ daemon := { backoff := 1 } },true)

def poolWorker : List PoolStep :=
  [.daemon .start,.daemon .check,.daemon (.built .worker),.daemon .install,.daemon .enter]

def poolStop : List PoolStep :=
  [.daemon (.stopCall 0),.daemon (.stopRead 0),.daemon (.stopCancel 0),.daemon (.stopWorker 0)]

def anAgent (index : Int) : StatefulInstance :=
  ⟨index,"agent-v2"⟩

/-- One agent replaces another, and the pool is stopped. -/
theorem connection_cache_demo : ∃ x, Lts.Reach (observedPool poolDaemon) x ∧
    x.1.manager.opened = 2 ∧ x.1.daemon.stopped ≠ [] ∧ AfterClose x.1 := by
  obtain ⟨x,hx,hp⟩ := Lts.reach_of_run_any (M := observedPool poolDaemon) (s := poolStart)
    (p := fun x => x.2 && decide (x.1.manager.opened = 2) && decide (x.1.daemon.stopped = [0]))
    (poolWorker ++ [.resolve (.ok [anAgent 0]),.update [⟨0,anAgent 0⟩] fun _ => none,.get 0,.tick,
      .resolve (.ok [anAgent 1]),.update [⟨1,anAgent 1⟩] fun _ => none,.list] ++ poolStop)
    (.init ⟨rfl,rfl⟩) (by decide)
  simp only [Bool.and_eq_true,decide_eq_true_eq] at hp
  obtain ⟨⟨hclean,hopened⟩,hstopped⟩ := hp
  exact ⟨x,hx,hopened,by simp [hstopped],(connection_cache poolDaemon x hx).2.2.2.mpr hclean⟩

/-- Close between the two parts of a refresh: the write to the missing map panics, and the new
connection stays open. -/
theorem refresh_outlives_close : ¬∀ p, Lts.Reach (poolSystem poolDaemon) p → AfterClose p := by
  intro h
  obtain ⟨p,hp,hpanics⟩ := Lts.reach_of_run_any (M := poolSystem poolDaemon) (s := poolStart.1)
    (p := fun p => decide (p.panics = 1) && decide (p.manager.opened = 1) &&
      decide (p.manager.closed = []))
    (poolWorker ++ [.resolve (.ok [anAgent 0])] ++ poolStop ++
      [.update [⟨0,anAgent 0⟩] fun _ => none]) (.init rfl) (by decide)
  simp only [Bool.and_eq_true,decide_eq_true_eq] at hpanics
  have hzero := (h p hp).1
  omega

end Dominion.Proxy.AgentClient
