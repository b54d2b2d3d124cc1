import Dominion.Framework.Lts
import Dominion.Framework.Keyed

/-! # The streams of a team session

Send attaches a stream to the active set of the session's entry.  The watcher of the entry closes
the set at a static point of the orchestration, and the teardown of a replaced entry closes what is
left.  The orchestration is the environment: the labels carry what it answers.  Frames are left
out. -/
namespace Dominion.Chat.Settlement

open Dominion.Framework

inductive LoopErrorCode where
  | transient
  | quota
  | credential
  | config
  | inputTooLarge
  | internal
  deriving DecidableEq

def loopErrorText : LoopErrorCode → String
  | .transient => "服务暂不可用，稍后重试"
  | .quota => "配额耗尽"
  | .credential => "检查 API 凭证"
  | .config => "模型配置错误"
  | .inputTooLarge => "上下文超限"
  | .internal => "内部错误"

inductive FailureOrigin where
  | memberTurn
  | orchestration
  deriving DecidableEq

/-- `SceneFailure`. -/
structure Failure where
  message : String
  code : LoopErrorCode
  origin : FailureOrigin
  deriving DecidableEq

/-- What the session reads of a `SceneSnapshot`. -/
structure Snapshot where
  active : Option String
  paused : Bool
  queued : Nat
  lastError : Option Failure
  deriving DecidableEq

/-- The watcher leaves its loop. -/
def Snapshot.static (s : Snapshot) : Bool :=
  s.paused || (s.active.isNone && s.queued == 0)

inductive Closing where
  | ended
  | failed (code message : String)
  deriving DecidableEq

/-- A stream that was attached: whether it is in the active set, the closing calls it received, and
whether its client, or a failed write, removed it. -/
structure Stream where
  /-- `stream.fail !== undefined`. -/
  failable : Bool
  active : Bool := true
  closings : List Closing := []
  detached : Bool := false
  deriving DecidableEq

def Stream.Open (s : Stream) : Prop :=
  s.closings = [] ∧ s.detached = false

inductive Teardown where
  | none
  | disposing
  | settled
  deriving DecidableEq

/-- `TeamEntry`, with every stream that was ever attached to it. -/
structure Entry where
  streams : List Stream := []
  /-- `quiescenceWatch !== null`. -/
  watching : Bool := false
  disposed : Bool := false
  /-- The subscription to the event stream of the orchestration, which `streamOff` detaches. -/
  subscribed : Bool := true
  teardown : Teardown := .none
  deriving DecidableEq

namespace Entry

def attach (e : Entry) (failable : Bool) : Entry :=
  { e with streams := e.streams ++ [{ failable }] }

/-- The function that `attach` returns. -/
def detach (j : Nat) (e : Entry) : Entry :=
  { e with streams := e.streams.modify j fun s => { s with active := false, detached := true } }

/-- Clears the active set and closes each of its streams; an error of a closing call is caught. -/
def close (e : Entry) (closing : Stream → Closing) : Entry :=
  { e with
    streams := e.streams.map fun s =>
      if s.active then { s with active := false, closings := s.closings ++ [closing s] } else s }

def endStreams (e : Entry) : Entry :=
  e.close fun _ => .ended

def failStreams (e : Entry) (failure : Failure) : Entry :=
  e.close fun s =>
    if s.failable then
      .failed "INTERNAL" (failure.message ++ " — " ++ loopErrorText failure.code)
    else .ended

/-- Arms the watcher. -/
def watchQuiescence (e : Entry) : Entry :=
  if e.watching || e.disposed then e else { e with watching := true }

/-- The watcher after `whenQuiescent` resolved. -/
def observe (snapshot : Snapshot) (e : Entry) : Entry :=
  if snapshot.static then
    let e := { e with watching := false }
    if e.disposed then e
    else
      match snapshot.lastError with
      | some failure =>
        if failure.origin = .orchestration then e.failStreams failure else e.endStreams
      | none => e.endStreams
  else e

/-- `submit` accepts the message or throws. -/
def send (failable accepted : Bool) (e : Entry) : Entry :=
  let e := e.attach failable
  if accepted then e.watchQuiescence else e.detach (e.streams.length - 1)

def cancel (accepted : Bool) (e : Entry) : Entry :=
  if accepted then e.watchQuiescence else e

/-- `teardownEntry` up to its await of the orchestration's `dispose`. -/
def beginTeardown (e : Entry) : Entry :=
  { e with disposed := true, teardown := .disposing }

/-- `teardownEntry` after the await: a rejection leaves it there. -/
def finishTeardown (outcome : Except String Unit) (e : Entry) : Entry :=
  match outcome with
  | .error _ => { e with teardown := .settled }
  | .ok () => { ({ e with subscribed := false }).endStreams with teardown := .settled }

end Entry

/-- `dispose` awaits every release and throws the first rejection. -/
def disposeOutcome : List (Except String Unit) → Except String Unit
  | [] => .ok ()
  | .ok () :: releases => disposeOutcome releases
  | .error reason :: _ => .error reason

/-- Where the current `doMaterialize` of the session is. -/
inductive Job where
  | idle
  | validating
  | disposing (i : Nat)
  | building
  deriving DecidableEq

/-- `TeamSessions` for one session, with every entry it had. -/
structure World where
  entries : List Entry := []
  /-- `teams.get(session)`. -/
  live : Option Nat := none
  job : Job := .idle
  /-- The calls of `materialize` that wait for the ones before. -/
  waiting : Nat := 0
  deriving DecidableEq

inductive Label where
  | send (failable accepted : Bool)
  /-- The client of a stream, or a write that fails, detaches it. -/
  | detach (i j : Nat)
  | cancel (accepted : Bool)
  /-- `whenQuiescent` resolves for the watcher of an entry. -/
  | quiesce (i : Nat) (snapshot : Snapshot)
  | materialize
  | start
  | validated (accepted : Bool)
  /-- The members of an entry that is torn down are released. -/
  | disposed (i : Nat) (releases : List (Except String Unit))
  | built (materialized : Bool)
  | shutdown

/-- No release that a teardown awaits is rejected. -/
def Label.fulfils : Label → Bool
  | .disposed _ releases => releases.all Except.isOk
  | _ => true

namespace World

def modifyEntry (w : World) (i : Nat) (f : Entry → Entry) : World :=
  { w with entries := w.entries.modify i f }

/-- A request to the live entry; without one it is refused. -/
def onLive (w : World) (f : Entry → Entry) : World :=
  match w.live with
  | none => w
  | some i => w.modifyEntry i f

/-- The entry leaves the table and its teardown begins. -/
def replace (w : World) (i : Nat) (job : Job) : World :=
  { w.modifyEntry i Entry.beginTeardown with live := none, job }

def step (w : World) : Label → Option World
  | .send failable accepted => some (w.onLive (Entry.send failable accepted))
  | .detach i j => some (w.modifyEntry i (Entry.detach j))
  | .cancel accepted => some (w.onLive (Entry.cancel accepted))
  | .quiesce i snapshot =>
    if w.entries[i]?.any Entry.watching then some (w.modifyEntry i (Entry.observe snapshot))
    else none
  | .materialize => some { w with waiting := w.waiting + 1 }
  | .start =>
    if w.job = .idle ∧ 0 < w.waiting then
      some { w with job := .validating, waiting := w.waiting - 1 }
    else none
  | .validated accepted =>
    if w.job = .validating then
      if accepted then
        match w.live with
        | none => some { w with job := .building }
        | some i => some (w.replace i (.disposing i))
      else some { w with job := .idle }
    else none
  | .disposed i releases =>
    if w.entries[i]?.any fun e => e.teardown = .disposing then
      let outcome := disposeOutcome releases
      let next : Job := if outcome.isOk then .building else .idle
      some { w.modifyEntry i (Entry.finishTeardown outcome) with
        job := if w.job = .disposing i then next else w.job }
    else none
  | .built materialized =>
    if w.job = .building then
      if materialized then
        some { w with
          entries := w.entries ++ [{}], live := some w.entries.length, job := .idle }
      else some { w with job := .idle }
    else none
  | .shutdown =>
    match w.live with
    | none => some w
    | some i => some (w.replace i w.job)

end World

def system : Lts World Label where
  init w := w = {}
  step := World.step

/-! ## One entry -/

/-- The active set holds the streams that are open, and none is closed twice. -/
def Stream.Ok (s : Stream) : Prop :=
  (s.active = true ↔ s.Open) ∧ s.closings.length ≤ 1

namespace Entry

/-- An entry with an active stream is watched until it is disposed. -/
structure Ok (e : Entry) : Prop where
  streams : ∀ s ∈ e.streams, s.Ok
  watched : e.disposed = false → (∃ s ∈ e.streams, s.active = true) → e.watching = true
  disposed : e.disposed = false ↔ e.teardown = .none
  subscribed : e.teardown ≠ .settled → e.subscribed = true

/-- What a finished teardown leaves. -/
def Released (e : Entry) : Prop :=
  e.teardown = .settled → e.subscribed = false ∧ ∀ s ∈ e.streams, s.active = false

/-- Every open stream of an entry is closed once. -/
def Closes (e e' : Entry) : Prop :=
  ∀ (j : Nat) (s : Stream), e.streams[j]? = some s → s.Open →
    ∃ s', e'.streams[j]? = some s' ∧ s'.closings.length = 1

variable {e : Entry}

private theorem ok_new : Ok {} where
  streams s hs := by cases hs
  watched _ hs := by simp at hs
  disposed := by simp
  subscribed _ := rfl

private theorem inactive_close (closing : Stream → Closing) : ∀ s ∈ (e.close closing).streams,
    s.active = false := by
  intro s hs
  obtain ⟨t,-,rfl⟩ := List.mem_map.mp hs
  cases ht : t.active <;> simp [ht]

private theorem streams_close (h : ∀ s ∈ e.streams, s.Ok) (closing : Stream → Closing) :
    ∀ s ∈ (e.close closing).streams, s.Ok := by
  intro s hs
  obtain ⟨t,ht,rfl⟩ := List.mem_map.mp hs
  cases hactive : t.active with
  | false => simpa [hactive] using h t ht
  | true =>
    have hopen : t.Open := (h t ht).1.mp hactive
    simp [Stream.Ok,Stream.Open,hopen.1]

private theorem closes_close (h : e.Ok) (closing : Stream → Closing) :
    e.Closes (e.close closing) := by
  intro j s hj hopen
  have hactive : s.active = true := (h.streams s (List.mem_of_getElem? hj)).1.mpr hopen
  refine ⟨{ s with active := false, closings := s.closings ++ [closing s] },?_,?_⟩
  · simp [close,hj,hactive]
  · simp [hopen.1]

private theorem ok_close (h : e.Ok) (closing : Stream → Closing) : (e.close closing).Ok where
  streams := streams_close h.streams closing
  watched := by
    intro _ hs
    obtain ⟨s,hs,hactive⟩ := hs
    rw [inactive_close closing s hs] at hactive
    cases hactive
  disposed := h.disposed
  subscribed := h.subscribed

private theorem ok_detach (h : e.Ok) (j : Nat) : (e.detach j).Ok where
  streams := by
    intro s hs
    obtain ⟨t,ht,hst⟩ := mem_modify hs
    rcases hst with rfl | rfl
    · exact h.streams s ht
    · exact ⟨by simp [Stream.Open],(h.streams t ht).2⟩
  watched := by
    intro hdisposed hs
    obtain ⟨s,hs,hactive⟩ := hs
    obtain ⟨t,ht,hst⟩ := mem_modify hs
    rcases hst with rfl | rfl
    · exact h.watched hdisposed ⟨s,ht,hactive⟩
    · cases hactive
  disposed := h.disposed
  subscribed := h.subscribed

private theorem ok_watchQuiescence (hstreams : ∀ s ∈ e.streams, s.Ok)
    (hdisposed : e.disposed = false ↔ e.teardown = .none)
    (hsubscribed : e.teardown ≠ .settled → e.subscribed = true) : e.watchQuiescence.Ok := by
  rw [watchQuiescence]
  cases hwatching : e.watching with
  | true =>
    rw [Bool.true_or,if_pos rfl]
    exact ⟨hstreams,fun _ _ => hwatching,hdisposed,hsubscribed⟩
  | false =>
    cases hd : e.disposed with
    | true => exact ⟨hstreams,fun hlive => by simp [hd] at hlive,hdisposed,hsubscribed⟩
    | false => exact ⟨hstreams,fun _ _ => rfl,by simpa [hd] using hdisposed,hsubscribed⟩

private theorem ok_cancel (h : e.Ok) (accepted : Bool) : (e.cancel accepted).Ok := by
  cases accepted with
  | false => exact h
  | true => exact ok_watchQuiescence h.streams h.disposed h.subscribed

private theorem disposed_watchQuiescence : e.watchQuiescence.disposed = e.disposed := by
  rw [watchQuiescence]
  split <;> rfl

private theorem disposed_cancel (accepted : Bool) : (e.cancel accepted).disposed = e.disposed := by
  cases accepted with
  | false => rfl
  | true => exact disposed_watchQuiescence

private theorem modify_last {α : Type} (f : α → α) (xs : List α) (x : α) :
    (xs ++ [x]).modify xs.length f = xs ++ [f x] := by
  induction xs with
  | nil => rfl
  | cons y ys ih =>
    rw [List.cons_append,List.length_cons,List.modify_succ_cons,ih,List.cons_append]

/-- A refused message leaves its stream detached and the other streams as they were. -/
theorem send_refused (failable : Bool) : e.send failable false =
    { e with streams := e.streams ++ [{ failable, active := false, detached := true }] } := by
  simp [send,attach,detach,modify_last]

private theorem streams_snoc (h : ∀ s ∈ e.streams, s.Ok) {t : Stream} (ht : t.Ok) :
    ∀ s ∈ e.streams ++ [t], s.Ok := by
  intro s hs
  rcases List.mem_append.mp hs with hs | hs
  · exact h s hs
  · rw [List.mem_singleton] at hs
    exact hs ▸ ht

private theorem ok_send (h : e.Ok) (failable accepted : Bool) : (e.send failable accepted).Ok := by
  cases accepted with
  | false =>
    rw [send_refused]
    refine ⟨streams_snoc h.streams ⟨by simp [Stream.Open],Nat.zero_le _⟩,?_,h.disposed,
      h.subscribed⟩
    intro hdisposed hs
    obtain ⟨s,hs,hactive⟩ := hs
    rcases List.mem_append.mp hs with hs | hs
    · exact h.watched hdisposed ⟨s,hs,hactive⟩
    · rw [List.mem_singleton] at hs
      rw [hs] at hactive
      cases hactive
  | true =>
    apply ok_watchQuiescence (e := e.attach failable)
    · exact streams_snoc h.streams ⟨by simp [Stream.Open],Nat.zero_le _⟩
    · exact h.disposed
    · exact h.subscribed

private theorem disposed_send (failable accepted : Bool) :
    (e.send failable accepted).disposed = e.disposed := by
  cases accepted with
  | false => rfl
  | true => exact disposed_watchQuiescence

/-- At a static point the watcher of a live entry closes its streams. -/
theorem observe_static {snapshot : Snapshot} (hstatic : snapshot.static = true)
    (hlive : e.disposed = false) : ∃ closing,
      e.observe snapshot = ({ e with watching := false } : Entry).close closing := by
  rw [observe,if_pos hstatic]
  simp only [hlive,Bool.false_eq_true,if_false]
  cases snapshot.lastError with
  | none => exact ⟨_,rfl⟩
  | some failure =>
    by_cases horigin : failure.origin = .orchestration
    · exact ⟨_,if_pos horigin⟩
    · exact ⟨_,if_neg horigin⟩

private theorem observe_disposed {snapshot : Snapshot} (hstatic : snapshot.static = true)
    (hdisposed : e.disposed = true) : e.observe snapshot = { e with watching := false } := by
  rw [observe,if_pos hstatic]
  exact if_pos hdisposed

private theorem observe_moving {snapshot : Snapshot} (hmoving : snapshot.static = false) :
    e.observe snapshot = e := by
  rw [observe,hmoving]
  rfl

private theorem closes_observe {snapshot : Snapshot} (h : e.Ok) (hstatic : snapshot.static = true)
    (hlive : e.disposed = false) : e.Closes (e.observe snapshot) := by
  obtain ⟨closing,hclose⟩ := observe_static hstatic hlive
  rw [hclose]
  exact closes_close h closing

private theorem ok_observe (h : e.Ok) (snapshot : Snapshot) :
    (e.observe snapshot).Ok ∧ (e.observe snapshot).disposed = e.disposed := by
  cases hstatic : snapshot.static with
  | false =>
    rw [observe_moving hstatic]
    exact ⟨h,rfl⟩
  | true =>
    cases hlive : e.disposed with
    | true =>
      rw [observe_disposed hstatic hlive]
      refine ⟨⟨h.streams,?_,h.disposed,h.subscribed⟩,hlive⟩
      intro hd
      rw [hlive] at hd
      cases hd
    | false =>
      obtain ⟨closing,hclose⟩ := observe_static hstatic hlive
      have hclosed := ok_close h closing
      rw [hclose]
      refine ⟨⟨hclosed.streams,?_,h.disposed,h.subscribed⟩,hlive⟩
      intro _ hs
      obtain ⟨s,hs,hactive⟩ := hs
      rw [inactive_close closing s hs] at hactive
      cases hactive

private theorem ok_beginTeardown (h : e.Ok) (hlive : e.disposed = false) : e.beginTeardown.Ok where
  streams := h.streams
  watched hd := by cases hd
  disposed := by simp [beginTeardown]
  subscribed _ := by
    apply h.subscribed
    rw [h.disposed.mp hlive]
    decide

private theorem ok_finishTeardown (h : e.Ok) (hdisposing : e.teardown = .disposing)
    (outcome : Except String Unit) :
    (e.finishTeardown outcome).Ok ∧ (e.finishTeardown outcome).disposed = e.disposed := by
  have hdisposed : e.disposed = true := by
    cases hd : e.disposed with
    | true => rfl
    | false =>
      rw [h.disposed.mp hd] at hdisposing
      cases hdisposing
  cases outcome with
  | error reason =>
    refine ⟨⟨h.streams,?_,by simp [finishTeardown,hdisposed],by simp [finishTeardown]⟩,rfl⟩
    intro hd
    cases hdisposed.symm.trans hd
  | ok u =>
    refine ⟨⟨streams_close h.streams _,?_,?_,?_⟩,rfl⟩
    · intro hd
      cases hdisposed.symm.trans hd
    · simp [finishTeardown,endStreams,close,hdisposed]
    · simp [finishTeardown]

private theorem closes_finishTeardown (h : e.Ok) (u : Unit) : e.Closes (e.finishTeardown (.ok u)) :=
  closes_close h fun _ => .ended

private theorem released_finishTeardown (u : Unit) : (e.finishTeardown (.ok u)).Released := by
  intro _
  exact ⟨rfl,inactive_close (e := { e with subscribed := false }) fun _ => .ended⟩

private theorem teardown_watchQuiescence : e.watchQuiescence.teardown = e.teardown := by
  rw [watchQuiescence]
  split <;> rfl

private theorem teardown_send (failable accepted : Bool) :
    (e.send failable accepted).teardown = e.teardown := by
  cases accepted with
  | false => rfl
  | true => exact teardown_watchQuiescence

private theorem teardown_cancel (accepted : Bool) : (e.cancel accepted).teardown = e.teardown := by
  cases accepted with
  | false => rfl
  | true => exact teardown_watchQuiescence

/-- What is not torn down yet is released vacuously. -/
theorem released_of_none (h : e.teardown = .none) : e.Released := by
  intro hsettled
  rw [h] at hsettled
  cases hsettled

private theorem released_detach (h : e.Released) (j : Nat) : (e.detach j).Released := by
  intro hsettled
  refine ⟨(h hsettled).1,?_⟩
  intro s hs
  obtain ⟨t,ht,hst⟩ := mem_modify hs
  rcases hst with rfl | rfl
  · exact (h hsettled).2 s ht
  · rfl

private theorem released_observe (hok : e.Ok) (h : e.Released) (snapshot : Snapshot) :
    (e.observe snapshot).Released := by
  cases hstatic : snapshot.static with
  | false => rwa [observe_moving hstatic]
  | true =>
    cases hlive : e.disposed with
    | true =>
      rw [observe_disposed hstatic hlive]
      exact h
    | false =>
      apply released_of_none
      obtain ⟨closing,hclose⟩ := observe_static hstatic hlive
      rw [hclose]
      exact hok.disposed.mp hlive

end Entry

/-! ## The sessions -/

private theorem disposeOutcome_isOk (releases : List (Except String Unit)) :
    (disposeOutcome releases).isOk = releases.all Except.isOk := by
  induction releases with
  | nil => rfl
  | cons release releases ih =>
    cases release with
    | error reason => rfl
    | ok u => exact ih

namespace World

/-- Every entry but the live one is disposed, and there is none while a new one is built. -/
structure Inv (w : World) : Prop where
  entries : ∀ i e, w.entries[i]? = some e → e.Ok ∧ (e.disposed = false ↔ w.live = some i)
  bound : ∀ i, w.live = some i → i < w.entries.length
  job : w.job ≠ .idle → w.job ≠ .validating → w.live = none

/-- Every finished teardown closed the streams and detached the subscription. -/
def Released (w : World) : Prop :=
  ∀ (i : Nat) (e : Entry), w.entries[i]? = some e → e.Released

variable {w w' : World} {l : Label} {i : Nat} {f : Entry → Entry}

private theorem entry_modifyEntry {j : Nat} {e' : Entry}
    (h : (w.modifyEntry i f).entries[j]? = some e') :
    ∃ e, w.entries[j]? = some e ∧ e' = if i = j then f e else e := by
  rw [modifyEntry,List.getElem?_modify] at h
  obtain ⟨e,he,rfl⟩ := Option.map_eq_some_iff.mp h
  exact ⟨e,he,by split <;> rfl⟩

private theorem modifyEntry_self {e : Entry} (h : w.entries[i]? = some e) :
    (w.modifyEntry i f).entries[i]? = some (f e) := by
  rw [modifyEntry,List.getElem?_modify,h]
  simp

private theorem inv_modifyEntry (h : Inv w)
    (hf : ∀ e, w.entries[i]? = some e → e.Ok → (f e).Ok ∧ (f e).disposed = e.disposed) :
    Inv (w.modifyEntry i f) where
  entries j e' he' := by
    obtain ⟨e,he,rfl⟩ := entry_modifyEntry he'
    obtain ⟨hok,hlive⟩ := h.entries j e he
    by_cases hij : i = j
    · subst hij
      obtain ⟨hok',hdisposed⟩ := hf e he hok
      rw [if_pos rfl,hdisposed]
      exact ⟨hok',hlive⟩
    · rw [if_neg hij]
      exact ⟨hok,hlive⟩
  bound j hj := by
    rw [modifyEntry,List.length_modify]
    exact h.bound j hj
  job := h.job

private theorem inv_onLive (h : Inv w)
    (hf : ∀ e, e.Ok → (f e).Ok ∧ (f e).disposed = e.disposed) : Inv (w.onLive f) := by
  rw [onLive]
  split
  · exact h
  · exact inv_modifyEntry h fun e _ hok => hf e hok

private theorem inv_replace (h : Inv w) (hlive : w.live = some i) (job : Job) :
    Inv (w.replace i job) where
  entries j e' he' := by
    obtain ⟨e,he,rfl⟩ := entry_modifyEntry he'
    obtain ⟨hok,hj⟩ := h.entries j e he
    rw [hlive] at hj
    by_cases hij : i = j
    · subst hij
      rw [if_pos rfl]
      exact ⟨Entry.ok_beginTeardown hok (hj.mpr rfl),by simp [Entry.beginTeardown,replace]⟩
    · rw [if_neg hij]
      refine ⟨hok,?_⟩
      have hdisposed : e.disposed ≠ false := fun hd => hij (Option.some.inj (hj.mp hd))
      simp [replace,hdisposed]
  bound j hj := by cases hj
  job _ _ := rfl

private theorem inv_job (h : Inv w) {job : Job} {waiting : Nat}
    (hjob : job ≠ .idle → job ≠ .validating → w.live = none) :
    Inv { w with job, waiting } :=
  ⟨h.entries,h.bound,hjob⟩

private theorem inv_built (h : Inv w) (hlive : w.live = none) :
    Inv { w with entries := w.entries ++ [{}], live := some w.entries.length, job := .idle } where
  entries i e he := by
    by_cases hi : i < w.entries.length
    · rw [List.getElem?_append_left hi] at he
      obtain ⟨hok,hold⟩ := h.entries i e he
      refine ⟨hok,?_⟩
      rw [hold,hlive]
      simp [Nat.ne_of_gt hi]
    · rw [List.getElem?_append_right (Nat.le_of_not_lt hi)] at he
      cases hk : i - w.entries.length with
      | zero =>
        have hlen : w.entries.length = i := by omega
        rw [hk] at he
        cases he
        simp [Entry.ok_new,hlen]
      | succ k =>
        rw [hk] at he
        cases he
  bound i hi := by
    have hlen : w.entries.length = i := Option.some.inj hi
    rw [List.length_append,List.length_singleton]
    omega
  job hidle := by simp at hidle

private theorem inv_step (h : Inv w) (hstep : w.step l = some w') : Inv w' := by
  cases l with
  | send failable accepted =>
    cases hstep
    exact inv_onLive h fun e hok => ⟨Entry.ok_send hok failable accepted,
      Entry.disposed_send failable accepted⟩
  | detach i j =>
    cases hstep
    exact inv_modifyEntry h fun e _ hok => ⟨Entry.ok_detach hok j,rfl⟩
  | cancel accepted =>
    cases hstep
    exact inv_onLive h fun e hok => ⟨Entry.ok_cancel hok accepted,Entry.disposed_cancel accepted⟩
  | quiesce i snapshot =>
    obtain ⟨-,rfl⟩ := of_guard hstep
    exact inv_modifyEntry h fun e _ hok => Entry.ok_observe hok snapshot
  | materialize =>
    cases hstep
    exact inv_job h h.job
  | start =>
    obtain ⟨-,rfl⟩ := of_guard hstep
    exact inv_job h fun _ hvalidating => absurd rfl hvalidating
  | validated accepted =>
    obtain ⟨-,hstep⟩ := Option.ite_none_right_eq_some.mp hstep
    cases accepted with
    | false =>
      cases hstep
      exact inv_job h fun hidle => absurd rfl hidle
    | true =>
      rw [if_pos rfl] at hstep
      split at hstep
      · rename_i hlive
        cases hstep
        exact inv_job h fun _ _ => hlive
      · rename_i i hlive
        cases hstep
        exact inv_replace h hlive _
  | disposed i releases =>
    obtain ⟨hdisposing,rfl⟩ := of_guard hstep
    have hinv : Inv (w.modifyEntry i (Entry.finishTeardown (disposeOutcome releases))) := by
      apply inv_modifyEntry h
      intro e he hok
      rw [he] at hdisposing
      exact Entry.ok_finishTeardown hok (by simpa using hdisposing) _
    apply inv_job hinv
    intro hidle hvalidating
    by_cases hjob : w.job = .disposing i
    · exact h.job (by simp [hjob]) (by simp [hjob])
    · rw [if_neg hjob] at hidle hvalidating
      exact h.job hidle hvalidating
  | built materialized =>
    obtain ⟨hbuilding,hstep⟩ := Option.ite_none_right_eq_some.mp hstep
    cases materialized with
    | false =>
      cases hstep
      exact inv_job h fun hidle => absurd rfl hidle
    | true =>
      cases hstep
      exact inv_built h (h.job (by rw [hbuilding]; decide) (by rw [hbuilding]; decide))
  | shutdown =>
    rw [step] at hstep
    split at hstep
    · cases hstep
      exact h
    · rename_i i hlive
      cases hstep
      exact inv_replace h hlive _

private theorem teardown_live {e : Entry} (h : Inv w) (hlive : w.live = some i)
    (he : w.entries[i]? = some e) : e.teardown = .none := by
  obtain ⟨hok,hdisposed⟩ := h.entries i e he
  exact hok.disposed.mp (hdisposed.mpr hlive)

private theorem released_modifyEntry (h : Released w)
    (hf : ∀ e, w.entries[i]? = some e → e.Released → (f e).Released) :
    Released (w.modifyEntry i f) := by
  intro j e' he'
  obtain ⟨e,he,rfl⟩ := entry_modifyEntry he'
  by_cases hij : i = j
  · subst hij
    rw [if_pos rfl]
    exact hf e he (h i e he)
  · rw [if_neg hij]
    exact h j e he

/-- A request to the live entry leaves no teardown behind. -/
theorem released_onLive (h : Inv w) (hr : Released w)
    (hf : ∀ e, (f e).teardown = e.teardown) : Released (w.onLive f) := by
  rw [onLive]
  split
  · exact hr
  · rename_i i hlive
    apply released_modifyEntry hr
    intro e he _
    apply Entry.released_of_none
    rw [hf,teardown_live h hlive he]

private theorem released_replace (hr : Released w) (i : Nat) (job : Job) :
    Released (w.replace i job) := by
  apply released_modifyEntry hr
  intro e _ _ hsettled
  cases hsettled

private theorem released_step (h : Inv w) (hr : Released w) (hl : l.fulfils = true)
    (hstep : w.step l = some w') : Released w' := by
  cases l with
  | send failable accepted =>
    cases hstep
    exact released_onLive h hr fun e => Entry.teardown_send failable accepted
  | detach i j =>
    cases hstep
    exact released_modifyEntry hr fun e _ he => Entry.released_detach he j
  | cancel accepted =>
    cases hstep
    exact released_onLive h hr fun e => Entry.teardown_cancel accepted
  | quiesce i snapshot =>
    obtain ⟨-,rfl⟩ := of_guard hstep
    exact released_modifyEntry hr fun e he hreleased =>
      Entry.released_observe (h.entries i e he).1 hreleased snapshot
  | materialize =>
    cases hstep
    exact hr
  | start =>
    obtain ⟨-,rfl⟩ := of_guard hstep
    exact hr
  | validated accepted =>
    obtain ⟨-,hstep⟩ := Option.ite_none_right_eq_some.mp hstep
    cases accepted with
    | false =>
      cases hstep
      exact hr
    | true =>
      rw [if_pos rfl] at hstep
      split at hstep
      · cases hstep
        exact hr
      · cases hstep
        exact released_replace hr _ _
  | disposed i releases =>
    obtain ⟨-,rfl⟩ := of_guard hstep
    have hok : (disposeOutcome releases).isOk = true := (disposeOutcome_isOk releases).trans hl
    apply released_modifyEntry hr
    intro e _ _
    cases houtcome : disposeOutcome releases with
    | error reason =>
      rw [houtcome] at hok
      cases hok
    | ok u => exact Entry.released_finishTeardown u
  | built materialized =>
    obtain ⟨-,hstep⟩ := Option.ite_none_right_eq_some.mp hstep
    cases materialized with
    | false =>
      cases hstep
      exact hr
    | true =>
      cases hstep
      intro i e he
      rcases List.mem_append.mp (List.mem_of_getElem? he) with hold | hnew
      · obtain ⟨j,hj⟩ := List.mem_iff_getElem?.mp hold
        exact hr j e hj
      · rw [List.mem_singleton] at hnew
        rw [hnew]
        exact Entry.released_of_none rfl
  | shutdown =>
    rw [step] at hstep
    split at hstep
    · cases hstep
      exact hr
    · cases hstep
      exact released_replace hr _ _

private theorem inv_of_run {ls : List Label} (h : system.run {} ls = some w) : Inv w := by
  have hreach : system.Reach w := Lts.reach_of_run ls (.init rfl) h
  have hinductive : system.Inductive (fun _ _ => True) Inv := by
    refine ⟨?_,fun w l w' hw _ hstep => inv_step hw hstep⟩
    intro w hw
    cases hw
    exact ⟨fun i e he => by simp at he,fun i hi => by simp at hi,fun _ _ => rfl⟩
  exact hinductive.of_reachUnder hreach

private theorem released_of_run {ls : List Label} (hls : ∀ l ∈ ls, l.fulfils = true) (h : Inv w)
    (hr : Released w) (hrun : system.run w ls = some w') : Released w' := by
  induction ls generalizing w with
  | nil =>
    cases hrun
    exact hr
  | cons l ls ih =>
    obtain ⟨t,ht,hrest⟩ := Option.bind_eq_some_iff.mp hrun
    apply ih (fun l' hl' => hls l' (List.mem_cons_of_mem l hl')) (inv_step h ht) _ hrest
    exact released_step h hr (hls l List.mem_cons_self) ht

/-- Each stream is closed at most once; an open one is in the hands of the armed watcher of the
live entry, which closes it at a static point, or of a teardown that awaits its `dispose`, which
closes it when that fulfils; and a finished teardown has left no subscription. -/
structure Settles (w : World) : Prop where
  once : ∀ (i : Nat) (e : Entry), w.entries[i]? = some e → ∀ s ∈ e.streams, s.closings.length ≤ 1
  awaited : ∀ (i : Nat) (e : Entry), w.entries[i]? = some e → ∀ s ∈ e.streams, s.Open →
    w.live = some i ∧ e.watching = true ∨ e.teardown = .disposing
  static : ∀ (i : Nat) (e : Entry) (snapshot : Snapshot) (w' : World), w.entries[i]? = some e →
    w.live = some i → snapshot.static = true → w.step (.quiesce i snapshot) = some w' →
      ∃ e', w'.entries[i]? = some e' ∧ e.Closes e'
  torn : ∀ (i : Nat) (e : Entry) (releases : List (Except String Unit)) (w' : World),
    w.entries[i]? = some e → (∀ r ∈ releases, r.isOk = true) →
      w.step (.disposed i releases) = some w' →
        ∃ e', w'.entries[i]? = some e' ∧ e'.subscribed = false ∧ e.Closes e'
  released : ∀ (i : Nat) (e : Entry), w.entries[i]? = some e → e.teardown = .settled →
    e.subscribed = false ∧ ∀ s ∈ e.streams, ¬s.Open

private theorem settles_of_released (h : Inv w) (hr : Released w) : Settles w where
  once i e he s hs := ((h.entries i e he).1.streams s hs).2
  awaited i e he s hs hopen := by
    obtain ⟨hok,hlive⟩ := h.entries i e he
    have hactive : s.active = true := (hok.streams s hs).1.mpr hopen
    cases hteardown : e.teardown with
    | none =>
      have hd := hok.disposed.mpr hteardown
      exact Or.inl ⟨hlive.mp hd,hok.watched hd ⟨s,hs,hactive⟩⟩
    | disposing => exact Or.inr rfl
    | settled =>
      have hinactive := (hr i e he hteardown).2 s hs
      rw [hactive] at hinactive
      cases hinactive
  static i e snapshot w' he hlive hstatic hstep := by
    obtain ⟨hok,hdisposed⟩ := h.entries i e he
    obtain ⟨-,rfl⟩ := of_guard hstep
    exact ⟨e.observe snapshot,modifyEntry_self he,
      Entry.closes_observe hok hstatic (hdisposed.mpr hlive)⟩
  torn i e releases w' he hreleases hstep := by
    obtain ⟨-,rfl⟩ := of_guard hstep
    have hok : (disposeOutcome releases).isOk = true :=
      (disposeOutcome_isOk releases).trans (List.all_eq_true.mpr hreleases)
    cases houtcome : disposeOutcome releases with
    | error reason =>
      rw [houtcome] at hok
      cases hok
    | ok u =>
      exact ⟨e.finishTeardown (.ok u),modifyEntry_self he,rfl,
        Entry.closes_finishTeardown (h.entries i e he).1 u⟩
  released i e he hteardown := by
    obtain ⟨hsubscribed,hinactive⟩ := hr i e he hteardown
    refine ⟨hsubscribed,fun s hs hopen => ?_⟩
    have hactive : s.active = true := ((h.entries i e he).1.streams s hs).1.mpr hopen
    rw [hinactive s hs] at hactive
    cases hactive

/-- A rejected `dispose` leaves the subscription of its entry attached for good. -/
theorem subscribed_of_rejected (h : Inv w) (hl : l.fulfils = false) (hstep : w.step l = some w') :
    ∃ (i : Nat) (e : Entry), w'.entries[i]? = some e ∧ e.teardown = .settled ∧
      e.subscribed = true := by
  cases l with
  | disposed i releases =>
    obtain ⟨hdisposing,rfl⟩ := of_guard hstep
    obtain ⟨e,he,hteardown⟩ := Option.any_eq_true _ _ |>.mp hdisposing
    have hdispose : e.teardown = .disposing := by simpa using hteardown
    have hsubscribed : e.subscribed = true := by
      apply (h.entries i e he).1.subscribed
      rw [hdispose]
      decide
    have hrejected : (disposeOutcome releases).isOk = false :=
      (disposeOutcome_isOk releases).trans hl
    cases houtcome : disposeOutcome releases with
    | ok u =>
      rw [houtcome] at hrejected
      cases hrejected
    | error reason => exact ⟨i,_,modifyEntry_self he,rfl,hsubscribed⟩
  | _ => cases hl

/-- The streams settle throughout a run exactly when no `dispose` of a teardown rejects. -/
theorem streams_settle_iff {ls : List Label} (h : system.run {} ls = some w) :
    (∀ n w', system.run {} (ls.take n) = some w' → Settles w') ↔ ∀ l ∈ ls, l.fulfils = true := by
  constructor
  · intro hsettles l hl
    obtain ⟨before,after,rfl⟩ := List.append_of_mem hl
    rw [Lts.run_append] at h
    obtain ⟨t,hbefore,hrest⟩ := Option.bind_eq_some_iff.mp h
    obtain ⟨t',hstep,-⟩ := Option.bind_eq_some_iff.mp hrest
    cases hfulfils : l.fulfils with
    | true => rfl
    | false =>
      have htake : (before ++ l :: after).take (before.length + 1) = before ++ [l] := by
        rw [List.take_length_add_append]
        rfl
      have hrun : system.run {} (before ++ [l]) = some t' := by
        rw [Lts.run_append]
        exact Option.bind_eq_some_iff.mpr ⟨t,hbefore,Option.bind_eq_some_iff.mpr ⟨t',hstep,rfl⟩⟩
      have hsettled := hsettles (before.length + 1) t' (by rwa [htake])
      obtain ⟨i,e,he,hteardown,hsubscribed⟩ :=
        subscribed_of_rejected (inv_of_run hbefore) hfulfils hstep
      rw [(hsettled.released i e he hteardown).1] at hsubscribed
      cases hsubscribed
  · intro hls n w' hrun
    have hstart : system.run {} [] = some {} := rfl
    have hinv : Inv ({} : World) := inv_of_run hstart
    have hr : Released ({} : World) := fun i e he => by simp at he
    apply settles_of_released (inv_of_run hrun)
    exact released_of_run (fun l hl => hls l (List.mem_of_mem_take hl)) hinv hr hrun

/-- Two streams, a static point, a third stream, and a refresh. -/
def refreshRun (releases : List (Except String Unit)) : List Label :=
  [.materialize,.start,.validated true,.built true,.send true true,.send false true,
    .quiesce 0 ⟨none,false,0,some ⟨"pump failed",.internal,.orchestration⟩⟩,.send true true,
    .materialize,.start,.validated true,.disposed 0 releases]

theorem streams_settle_iff_demo :
    (system.run {} (refreshRun [.ok (),.ok ()])).isSome = true ∧ ∀ (n : Nat) (w' : World),
      system.run {} ((refreshRun [.ok (),.ok ()]).take n) = some w' → Settles w' := by
  have hrun : (system.run {} (refreshRun [.ok (),.ok ()])).isSome = true := by decide
  refine ⟨hrun,?_⟩
  obtain ⟨w,hw⟩ := Option.isSome_iff_exists.mp hrun
  exact (streams_settle_iff hw).mpr (by decide)

/-- The last stream of the run. -/
def strandedStream : Stream := ⟨true,true,[],false⟩

/-- A refresh whose old members are not all released leaves a stream open and subscribed. -/
theorem rejected_dispose_leaves_streams_open : ∃ w,
    system.run {} (refreshRun [.ok (),.error "release failed"]) = some w ∧
    (∃ e, w.entries[0]? = some e ∧ e.teardown = .settled ∧ e.subscribed = true ∧
      strandedStream ∈ e.streams ∧ strandedStream.Open) ∧ ¬Settles w := by
  have hrun : system.run {} (refreshRun [.ok (),.error "release failed"]) =
      some ⟨[⟨[⟨true,false,[.failed "INTERNAL" "pump failed — 内部错误"],false⟩,
        ⟨false,false,[.ended],false⟩,strandedStream],true,true,true,.settled⟩],none,.idle,0⟩ := by
    decide
  refine ⟨_,hrun,⟨_,rfl,rfl,rfl,by decide,rfl,rfl⟩,?_⟩
  intro hsettles
  have hreleased := (hsettles.released 0 _ rfl rfl).1
  cases hreleased

end World

end Dominion.Chat.Settlement
