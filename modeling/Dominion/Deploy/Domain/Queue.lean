import Mathlib.Logic.Function.Basic
import Mathlib.Data.List.Count
import Dominion.Deploy.Domain.EnvironmentName

/-! # The reconcile queue

An environment is queued in `items`, parked in `followUps` behind an in-flight mark, or absent.
Each entry of `items` is woken by one token, which a goroutine sends into the bounded channel
`pendingCh`; `Dequeue` receives a token and then exchanges the item for an in-flight mark. -/
namespace Dominion.Deploy.Domain

inductive WorkItemSource where
  | retry
  | user
  | poll
  deriving DecidableEq, Repr

structure WorkItem where
  envName : EnvironmentName
  retryCount : Nat
  source : WorkItemSource
  deriving DecidableEq

def maxQueueCap : Nat := 256

structure Queue where
  items : EnvironmentName → Option WorkItem
  followUps : EnvironmentName → Option WorkItem
  inFlight : EnvironmentName → Bool
  pendingCh : List EnvironmentName
  /-- The goroutines blocked in `q.pendingCh <- envName`. -/
  senders : List EnvironmentName

def newQueue : Queue where
  items _ := none
  followUps _ := none
  inFlight _ := false
  pendingCh := []
  senders := []

def canOverride (existing incoming : WorkItem) : Bool :=
  match incoming.source with
  | .user => true
  | .retry => existing.source != .user
  | .poll => existing.source == .poll

namespace Queue

/-- `items[envName] = item` with the goroutine that wakes a dequeuer for it. -/
def put (q : Queue) (envName : EnvironmentName) (item : WorkItem) : Queue :=
  { q with items := Function.update q.items envName (some item), senders := envName :: q.senders }

def enqueueNow (q : Queue) (item : WorkItem) : Queue :=
  match q.items item.envName with
  | some queuedItem =>
    if canOverride queuedItem item then
      { q with items := Function.update q.items item.envName (some item) }
    else q
  | none =>
    if q.inFlight item.envName then
      match q.followUps item.envName with
      | some followUpItem =>
        if canOverride followUpItem item then
          { q with followUps := Function.update q.followUps item.envName (some item) }
        else q
      | none => { q with followUps := Function.update q.followUps item.envName (some item) }
    else q.put item.envName item

def enqueue (q : Queue) (envName : EnvironmentName) : Queue :=
  q.enqueueNow ⟨envName,0,.user⟩

/-- A blocked goroutine sends its token once the channel has room. -/
def send (q : Queue) (envName : EnvironmentName) : Option Queue :=
  if envName ∈ q.senders ∧ q.pendingCh.length < maxQueueCap then
    some { q with pendingCh := q.pendingCh ++ [envName], senders := q.senders.erase envName }
  else none

/-- The receive of `Dequeue`. -/
def receive (q : Queue) : Option (EnvironmentName × Queue) :=
  match q.pendingCh with
  | [] => none
  | envName :: rest => some (envName,{ q with pendingCh := rest })

def markInFlight (q : Queue) (envName : EnvironmentName) : Option (WorkItem × Queue) :=
  match q.items envName with
  | none => none
  | some item =>
    some (item,{ q with
      items := Function.update q.items envName none
      inFlight := Function.update q.inFlight envName true })

def complete (q : Queue) (envName : EnvironmentName) : Queue :=
  let q := { q with inFlight := Function.update q.inFlight envName false }
  match q.followUps envName with
  | none => q
  | some followUpItem =>
    let q := { q with followUps := Function.update q.followUps envName none }
    if (q.items envName).isSome || q.inFlight envName then q
    else q.put envName followUpItem

/-- The wake-up tokens of `envName` in the channel and in pending senders. -/
def tokens (q : Queue) (envName : EnvironmentName) : Nat :=
  q.pendingCh.count envName + q.senders.count envName

/-- `received n` counts the dequeuers that took a token of `n` and stand before `markInFlight`,
and `held n` the in-flight marks of `n` that a worker has yet to complete. -/
structure Accounts (q : Queue) (received held : EnvironmentName → Nat) : Prop where
  tokens : ∀ n, q.tokens n + received n = if (q.items n).isSome then 1 else 0
  held : ∀ n, held n = if q.inFlight n then 1 else 0
  followUps : ∀ n, (q.followUps n).isSome → q.inFlight n = true
  items : ∀ n, (q.items n).isSome → q.inFlight n = false
  itemName : ∀ n item, q.items n = some item → item.envName = n
  followUpName : ∀ n item, q.followUps n = some item → item.envName = n

/-- Queued, or parked behind an in-flight mark. -/
def Pending (q : Queue) (n : EnvironmentName) : Prop :=
  (q.items n).isSome ∨ (q.followUps n).isSome

variable {q q' : Queue} {received held received' held' : EnvironmentName → Nat}
  {n : EnvironmentName} {item : WorkItem}

theorem accounts_newQueue : Accounts newQueue (fun _ => 0) (fun _ => 0) := by
  refine ⟨?_,?_,?_,?_,?_,?_⟩ <;> intros <;> simp_all [newQueue,Queue.tokens]

theorem accounts_put (h : q.Accounts received held) (hitem : item.envName = n)
    (hitems : q.items n = none) (hfree : q.inFlight n = false) :
    (q.put n item).Accounts received held := by
  have htokens : ∀ m, (q.put n item).tokens m = q.tokens m + if m = n then 1 else 0 := by
    intro m
    by_cases hm : m = n
    · subst m
      simp only [put,Queue.tokens,List.count_cons_self,if_true]
      omega
    · simp only [put,Queue.tokens,List.count_cons_of_ne (Ne.symm hm),hm,if_false]
      omega
  refine ⟨?_,h.held,h.followUps,?_,?_,h.followUpName⟩
  · intro m
    have hm := h.tokens m
    rw [htokens]
    by_cases he : m = n
    · subst m
      simp only [hitems,Option.isSome_none,Bool.false_eq_true,if_false] at hm
      simp only [put,Function.update_self,Option.isSome_some,if_true]
      omega
    · simpa only [put,he,Function.update_of_ne he,if_false,Nat.add_zero] using hm
  · intro m hm
    by_cases he : m = n
    · exact he ▸ hfree
    · exact h.items m (by simpa only [put,Function.update_of_ne he] using hm)
  · intro m item' hm
    by_cases he : m = n
    · subst m
      simp only [put,Function.update_self,Option.some.injEq] at hm
      exact hm ▸ hitem
    · exact h.itemName m item' (by simpa only [put,Function.update_of_ne he] using hm)

/-- Replacing a queued item changes no token and no mark. -/
private theorem accounts_override (h : q.Accounts received held) (hitem : item.envName = n)
    (hitems : (q.items n).isSome) :
    Accounts { q with items := Function.update q.items n (some item) } received held := by
  refine ⟨?_,h.held,h.followUps,?_,?_,h.followUpName⟩
  · intro m
    have hm := h.tokens m
    by_cases he : m = n
    · subst m
      simpa only [Queue.tokens,Function.update_self,Option.isSome_some,hitems,if_true] using hm
    · simpa only [Queue.tokens,Function.update_of_ne he] using hm
  · intro m hm
    by_cases he : m = n
    · exact he ▸ h.items n hitems
    · exact h.items m (by simpa only [Function.update_of_ne he] using hm)
  · intro m item' hm
    by_cases he : m = n
    · subst m
      simp only [Function.update_self,Option.some.injEq] at hm
      exact hm ▸ hitem
    · exact h.itemName m item' (by simpa only [Function.update_of_ne he] using hm)

private theorem accounts_park (h : q.Accounts received held) (hitem : item.envName = n)
    (hflight : q.inFlight n = true) :
    Accounts { q with followUps := Function.update q.followUps n (some item) } received held := by
  refine ⟨h.tokens,h.held,?_,h.items,h.itemName,?_⟩
  · intro m hm
    by_cases he : m = n
    · exact he ▸ hflight
    · exact h.followUps m (by simpa only [Function.update_of_ne he] using hm)
  · intro m item' hm
    by_cases he : m = n
    · subst m
      simp only [Function.update_self,Option.some.injEq] at hm
      exact hm ▸ hitem
    · exact h.followUpName m item' (by simpa only [Function.update_of_ne he] using hm)

theorem accounts_enqueueNow (h : q.Accounts received held) (item : WorkItem) :
    (q.enqueueNow item).Accounts received held := by
  unfold enqueueNow
  cases hi : q.items item.envName with
  | some queuedItem =>
    dsimp only
    split
    · exact accounts_override h rfl (by rw [hi]; rfl)
    · exact h
  | none =>
    dsimp only
    by_cases hf : q.inFlight item.envName = true
    · rw [if_pos hf]
      cases q.followUps item.envName with
      | none => exact accounts_park h rfl hf
      | some followUpItem =>
        dsimp only
        split
        · exact accounts_park h rfl hf
        · exact h
    · rw [if_neg hf]
      exact accounts_put h rfl hi (by simpa using hf)

theorem send_tokens (h : q.send n = some q') (m : EnvironmentName) : q'.tokens m = q.tokens m := by
  unfold send at h
  split at h
  · rename_i hn
    cases h
    simp only [Queue.tokens,List.count_append,List.count_erase]
    by_cases he : m = n
    · subst m
      have hpos := List.count_pos_iff.mpr hn.1
      simp only [List.count_cons_self,List.count_nil,beq_self_eq_true,if_true]
      omega
    · simp [List.count_cons_of_ne (Ne.symm he),Ne.symm he]
  · cases h

theorem send_frame (h : q.send n = some q') :
    q'.items = q.items ∧ q'.followUps = q.followUps ∧ q'.inFlight = q.inFlight := by
  unfold send at h
  split at h
  · cases h; exact ⟨rfl,rfl,rfl⟩
  · cases h

theorem accounts_send (h : q.Accounts received held) (hs : q.send n = some q') :
    q'.Accounts received held := by
  obtain ⟨hitems,hfollow,hflight⟩ := send_frame hs
  refine ⟨?_,?_,?_,?_,?_,?_⟩
  · intro m
    rw [send_tokens hs,hitems]
    exact h.tokens m
  · rw [hflight]; exact h.held
  · rw [hflight,hfollow]; exact h.followUps
  · rw [hflight,hitems]; exact h.items
  · rw [hitems]; exact h.itemName
  · rw [hfollow]; exact h.followUpName

theorem accounts_receive (h : q.Accounts received held) (hr : q.receive = some (n,q'))
    (hreceived : ∀ m, received' m = received m + if m = n then 1 else 0) :
    q'.Accounts received' held := by
  unfold receive at hr
  split at hr
  · cases hr
  · rename_i m rest hch
    cases hr
    refine ⟨?_,h.held,h.followUps,h.items,h.itemName,h.followUpName⟩
    intro k
    have hk := h.tokens k
    rw [hreceived]
    by_cases he : k = n
    · subst k
      simp only [Queue.tokens,hch,List.count_cons_self,if_true] at hk ⊢
      omega
    · simp only [Queue.tokens,hch,List.count_cons_of_ne (Ne.symm he),he,if_false] at hk ⊢
      omega

theorem markInFlight_some (hi : q.items n = some item) :
    q.markInFlight n = some (item,{ q with
      items := Function.update q.items n none
      inFlight := Function.update q.inFlight n true }) := by
  rw [markInFlight,hi]

/-- A received token always finds its item: `Dequeue` never skips one. -/
theorem markInFlight_of_received (h : q.Accounts received held) (hr : 0 < received n) :
    ∃ item q', q.markInFlight n = some (item,q') ∧ item.envName = n ∧ held n = 0 := by
  have hn := h.tokens n
  cases hi : q.items n with
  | none =>
    simp only [hi,Option.isSome_none,Bool.false_eq_true,if_false] at hn
    omega
  | some item =>
    have hfree : q.inFlight n = false := h.items n (by rw [hi]; rfl)
    have hheld := h.held n
    simp only [hfree,Bool.false_eq_true,if_false] at hheld
    exact ⟨item,_,markInFlight_some hi,h.itemName n item hi,hheld⟩

theorem accounts_markInFlight (h : q.Accounts received held)
    (hm : q.markInFlight n = some (item,q'))
    (hreceived : ∀ m, received m = received' m + if m = n then 1 else 0)
    (hheld : ∀ m, held' m = held m + if m = n then 1 else 0) :
    q'.Accounts received' held' := by
  unfold markInFlight at hm
  split at hm
  · cases hm
  · rename_i item' hitem
    cases hm
    have hfree : q.inFlight n = false := h.items n (by rw [hitem]; rfl)
    have hfollow : ∀ m, (q.followUps m).isSome → m ≠ n := by
      intro m hm he
      have hmark := h.followUps m hm
      rw [he,hfree] at hmark
      cases hmark
    refine ⟨?_,?_,?_,?_,?_,h.followUpName⟩
    · intro m
      have ht := h.tokens m
      rw [hreceived] at ht
      by_cases he : m = n
      · subst m
        simp only [Queue.tokens,hitem,Function.update_self,Option.isSome_some,Option.isSome_none,
          Bool.false_eq_true,if_true,if_false] at ht ⊢
        omega
      · simpa only [Queue.tokens,Function.update_of_ne he,he,if_false,Nat.add_zero] using ht
    · intro m
      have hh := h.held m
      rw [hheld]
      by_cases he : m = n
      · subst m
        simp only [hfree,Bool.false_eq_true,if_false] at hh
        simp only [Function.update_self,if_true,hh]
      · simpa only [Function.update_of_ne he,he,if_false,Nat.add_zero] using hh
    · intro m hm
      simp only [Function.update_of_ne (hfollow m hm)]
      exact h.followUps m hm
    · intro m hm
      by_cases he : m = n
      · subst m
        simp only [Function.update_self,Option.isSome_none,Bool.false_eq_true] at hm
      · simp only [Function.update_of_ne he] at hm ⊢
        exact h.items m hm
    · intro m item hm
      by_cases he : m = n
      · subst m
        simp only [Function.update_self,reduceCtorEq] at hm
      · exact h.itemName m item (by simpa only [Function.update_of_ne he] using hm)

/-- Lifting the in-flight mark of a name that has no follow-up. -/
private theorem accounts_release (h : q.Accounts received held) (hfollow : q.followUps n = none)
    (hheld : ∀ m, held m = held' m + if m = n then 1 else 0) :
    Accounts { q with inFlight := Function.update q.inFlight n false } received held' := by
  refine ⟨h.tokens,?_,?_,?_,h.itemName,h.followUpName⟩
  · intro m
    have hh := h.held m
    rw [hheld] at hh
    by_cases he : m = n
    · subst m
      simp only [Function.update_self,Bool.false_eq_true,if_false,if_true] at hh ⊢
      split at hh <;> omega
    · simpa only [Function.update_of_ne he,he,if_false,Nat.add_zero] using hh
  · intro m hm
    by_cases he : m = n
    · subst m
      rw [hfollow] at hm
      cases hm
    · simp only [Function.update_of_ne he]
      exact h.followUps m hm
  · intro m hm
    by_cases he : m = n
    · simp only [he,Function.update_self]
    · simp only [Function.update_of_ne he]
      exact h.items m hm

private theorem accounts_unpark (h : q.Accounts received held) :
    Accounts { q with followUps := Function.update q.followUps n none } received held := by
  have hsub : ∀ m item, Function.update q.followUps n none m = some item →
      q.followUps m = some item := by
    intro m item hm
    by_cases he : m = n
    · subst m
      simp only [Function.update_self,reduceCtorEq] at hm
    · simpa only [Function.update_of_ne he] using hm
  refine ⟨h.tokens,h.held,?_,h.items,h.itemName,fun m item hm => h.followUpName m item (hsub m item hm)⟩
  intro m hm
  obtain ⟨item,hitem⟩ := Option.isSome_iff_exists.mp hm
  exact h.followUps m (by rw [hsub m item hitem]; rfl)

theorem accounts_complete (h : q.Accounts received held) (hn : 0 < held n)
    (hheld : ∀ m, held m = held' m + if m = n then 1 else 0) :
    (q.complete n).Accounts received held' := by
  have hflight : q.inFlight n = true := by
    have hh := h.held n
    by_contra hf
    simp only [hf,if_false] at hh
    omega
  have hitems : q.items n = none := by
    cases hi : q.items n with
    | none => rfl
    | some item =>
      have hf := h.items n (by rw [hi]; rfl)
      rw [hflight] at hf
      cases hf
  unfold complete
  cases hf : q.followUps n with
  | none =>
    simp only [hf]
    exact accounts_release h hf hheld
  | some followUpItem =>
    simp only [hf,hitems,Option.isSome_none,Function.update_self,Bool.or_self,
      Bool.false_eq_true,if_false]
    refine accounts_put (n := n) (accounts_release (accounts_unpark (n := n) h) ?_ hheld) ?_ hitems ?_
    · simp only [Function.update_self]
    · exact h.followUpName n followUpItem hf
    · simp only [Function.update_self]

private theorem pending_update (h : q.Pending n) (m : EnvironmentName) (item : WorkItem) :
    Pending { q with items := Function.update q.items m (some item) } n := by
  rcases h with h | h
  · left
    by_cases he : n = m
    · simp [he]
    · simpa only [Function.update_of_ne he] using h
  · exact Or.inr h

private theorem pending_park (h : q.Pending n) (m : EnvironmentName) (item : WorkItem) :
    Pending { q with followUps := Function.update q.followUps m (some item) } n := by
  rcases h with h | h
  · exact Or.inl h
  · right
    by_cases he : n = m
    · simp [he]
    · simpa only [Function.update_of_ne he] using h

theorem pending_enqueueNow (h : q.Pending n) (item : WorkItem) :
    Pending (q.enqueueNow item) n := by
  unfold enqueueNow
  repeat' split
  all_goals first
    | exact h
    | exact pending_update h _ _
    | exact pending_park h _ _

theorem enqueueNow_pending (q : Queue) (item : WorkItem) :
    Pending (q.enqueueNow item) item.envName := by
  unfold enqueueNow
  cases hi : q.items item.envName with
  | some queuedItem =>
    dsimp only
    split
    · exact pending_update (Or.inl (by simp [hi])) _ _
    · exact Or.inl (by simp [hi])
  | none =>
    dsimp only
    by_cases hf : q.inFlight item.envName = true
    · rw [if_pos hf]
      cases hu : q.followUps item.envName with
      | some followUpItem =>
        dsimp only
        split
        · exact pending_park (Or.inr (by simp [hu])) _ _
        · exact Or.inr (by simp [hu])
      | none => exact Or.inr (by simp)
    · rw [if_neg hf]
      exact Or.inl (by simp [put])

theorem pending_send (hs : q.send n = some q') (m : EnvironmentName) :
    q'.Pending m ↔ q.Pending m := by
  obtain ⟨hitems,hfollow,-⟩ := send_frame hs
  unfold Pending
  rw [hitems,hfollow]

theorem enqueueNow_inFlight (q : Queue) (item : WorkItem) :
    (q.enqueueNow item).inFlight = q.inFlight := by
  unfold enqueueNow
  repeat' split
  all_goals rfl

/-- A name that is not in flight is queued, never parked. -/
theorem enqueueNow_followUps (hflight : q.inFlight n = false) (hnone : q.followUps n = none)
    (item : WorkItem) : (q.enqueueNow item).followUps n = none := by
  have hne : q.inFlight item.envName = true → n ≠ item.envName := by
    intro hf he
    rw [← he,hflight] at hf
    cases hf
  unfold enqueueNow
  cases q.items item.envName with
  | some queuedItem =>
    dsimp only
    split <;> exact hnone
  | none =>
    dsimp only
    by_cases hf : q.inFlight item.envName = true
    · rw [if_pos hf]
      have hkeep : Function.update q.followUps item.envName (some item) n = none := by
        rw [Function.update_of_ne (hne hf)]
        exact hnone
      cases q.followUps item.envName with
      | none => exact hkeep
      | some followUpItem =>
        dsimp only
        split
        · exact hkeep
        · exact hnone
    · rw [if_neg hf]
      exact hnone

theorem complete_idle (q : Queue) (n : EnvironmentName) :
    (q.complete n).inFlight n = false ∧ (q.complete n).followUps n = none := by
  unfold complete
  cases hf : q.followUps n with
  | none => simp [hf]
  | some followUpItem =>
    simp only [hf,Function.update_self]
    split <;> simp [put]

theorem pending_complete (h : q.Pending n) (m : EnvironmentName) : (q.complete m).Pending n := by
  unfold complete
  cases hf : q.followUps m with
  | none =>
    simp only [hf]
    exact h
  | some followUpItem =>
    simp only [hf]
    split
    · rename_i hor
      have hitem : (q.items m).isSome = true := by
        simpa only [Function.update_self,Bool.or_false] using hor
      rcases h with h | h
      · exact Or.inl h
      · by_cases he : n = m
        · exact Or.inl (he ▸ hitem)
        · right
          simpa only [Function.update_of_ne he] using h
    · by_cases he : n = m
      · exact Or.inl (by simp [put,he])
      · rcases h with h | h
        · left
          simpa only [put,Function.update_of_ne he] using h
        · right
          simpa only [put,Function.update_of_ne he] using h

end Queue

end Dominion.Deploy.Domain
