import Dominion.Framework.Lts
import Dominion.Llm.Chunks
import Mathlib.Data.List.Basic

/-! # One model call through an adapter

The request behind a watchdog, as its consumer sees it.  The reads of the body, the abort of the
caller and the watchdog come in any order. -/
namespace Dominion.Llm

open Dominion.Framework

/-- Chunks sent while the stream goes from live or finished to live or finished: the finish is the
last one. -/
inductive Terminates : Bool → Bool → List StreamChunk → Prop
  | silent : Terminates true true []
  | live {chunks : List StreamChunk} (h : ∀ c ∈ chunks, c.finished = none) :
      Terminates false false chunks
  | last {chunks : List StreamChunk} {reason : FinishReason} (h : ∀ c ∈ chunks, c.finished = none) :
      Terminates false true (chunks ++ [.finish reason])

/-- A translator of the messages of one response. -/
structure StreamWire (W M : Type) where
  start : W
  feed : W → List M → Except Failure (List StreamChunk) × W
  /-- The end of the body, with whether a finish was sent. -/
  close : W → Bool → Except Failure (List StreamChunk)
  finished : W → Bool
  /-- Nothing is pending. -/
  idle : W → Prop
  start_idle : idle start ∧ finished start = false
  feed_ok : ∀ {w w' : W} {messages : List M} {chunks : List StreamChunk}, idle w →
    feed w messages = (.ok chunks,w') → idle w' ∧ Terminates (finished w) (finished w') chunks
  feed_error : ∀ {w w' : W} {messages : List M} {failure : Failure},
    feed w messages = (.error failure,w') → finished w = false
  close_ok : ∀ {w : W} {saw : Bool} {chunks : List StreamChunk}, idle w →
    close w saw = .ok chunks → chunks = []
  close_finished : ∀ {w : W}, idle w → finished w = true → close w true = .ok []

/-- What an adapter calls itself and how long it waits. -/
structure Provider where
  name : String
  streamIdleTimeoutMs : Nat
  deriving DecidableEq, Repr

inductive Phase
  | fetching
  | reading
  /-- The body has ended and its rest been fed. -/
  | flushed
  | closed
  | failing (failure : Failure)
  /-- The finish of an aborted call was sent. -/
  | settled
  | ended
  deriving DecidableEq, Repr

/-- What aborted the signal of the request. -/
inductive Interrupt
  | caller
  | idle
  deriving DecidableEq, Repr

inductive Output
  | chunk (chunk : StreamChunk)
  | thrown (failure : Failure)
  | done
  deriving DecidableEq, Repr

structure Call (W : Type) where
  phase : Phase := .fetching
  wire : W
  /-- The chunks of the last read that were not yielded. -/
  queue : List StreamChunk := []
  /-- The consumer waits. -/
  demand : Bool := false
  sawFinish : Bool := false
  abortedBy : Option Interrupt := none
  callerAborted : Bool := false
  outputs : List Output := []
  deriving DecidableEq, Repr

inductive CallStep (M : Type)
  | next
  | fetched
  | fetchFailed (failure : Failure)
  | read (messages : List M)
  | readFailed (message : String)
  | readDone (rest : List M)
  | yield
  | close
  | done
  /-- The request has thrown. -/
  | rejected
  /-- The aborted signal rejects the pending demand. -/
  | interrupted (message : String)
  | callerAbort
  | idleTimeout
  /-- The consumer stops. -/
  | stop
  deriving DecidableEq, Repr

namespace Call

variable {W M : Type} (A : StreamWire W M) (p : Provider) (s : Call W)

/-- The demand is rejected: a timeout, an abort of the caller, or the failure itself. -/
def caught (failure : Failure) : Call W :=
  if s.abortedBy = some .idle then
    { s with
      phase := .ended
      outputs := s.outputs ++ [.thrown (⟨p.name ++ " stream idle timeout after " ++
        toString p.streamIdleTimeoutMs ++ "ms","TIMEOUT"⟩ : Failure)] }
  else if s.callerAborted then
    { s with
      phase := .settled
      demand := false
      outputs := s.outputs ++ [.chunk (.finish (.aborted (⟨p.name ++ " stream aborted by caller",
        "ABORTED"⟩ : Failure)))] }
  else { s with phase := .ended, outputs := s.outputs ++ [.thrown failure] }

def feed (phase : Phase) (messages : List M) : Call W :=
  match A.feed s.wire messages with
  | (.ok chunks,w) => { s with phase := phase, wire := w, queue := chunks }
  | (.error failure,w) => { s with phase := .failing failure, wire := w }

def finish : Call W :=
  match A.close s.wire s.sawFinish with
  | .ok chunks => { s with phase := .closed, queue := chunks }
  | .error failure => { s with phase := .failing failure }

/-- The request is on and the consumer waits. -/
def running : Bool :=
  s.demand && s.phase ≠ .settled && s.phase ≠ .ended

def step : CallStep M → Option (Call W)
  | .next =>
    if s.demand = false ∧ s.phase ≠ .ended then some { s with demand := true } else none
  | .fetched =>
    if s.demand = true ∧ s.phase = .fetching then some { s with phase := .reading } else none
  | .fetchFailed failure =>
    if s.demand = true ∧ s.phase = .fetching then some { s with phase := .failing failure }
    else none
  | .read messages =>
    if s.demand = true ∧ s.phase = .reading ∧ s.queue = [] then some (s.feed A .reading messages)
    else none
  | .readFailed message =>
    if s.demand = true ∧ s.phase = .reading ∧ s.queue = [] then
      some { s with
        phase := .failing (⟨p.name ++ " stream interrupted: " ++ message,"TRANSPORT"⟩ : Failure) }
    else none
  | .readDone rest =>
    if s.demand = true ∧ s.phase = .reading ∧ s.queue = [] then some (s.feed A .flushed rest)
    else none
  | .yield =>
    match s.queue with
    | [] => none
    | chunk :: rest =>
      if s.demand = true ∧ (s.phase = .reading ∨ s.phase = .flushed ∨ s.phase = .closed) then
        some { s with
          queue := rest
          demand := false
          sawFinish := s.sawFinish || chunk.finished.isSome
          outputs := s.outputs ++ [.chunk chunk] }
      else none
  | .close =>
    if s.demand = true ∧ s.phase = .flushed ∧ s.queue = [] then some (s.finish A) else none
  | .done =>
    if s.demand = true ∧ (s.phase = .closed ∧ s.queue = [] ∨ s.phase = .settled) then
      some { s with phase := .ended, outputs := s.outputs ++ [.done] }
    else none
  | .rejected =>
    match s.phase with
    | .failing failure => if s.demand = true then some (s.caught p failure) else none
    | _ => none
  | .interrupted message =>
    if s.running = true ∧ s.abortedBy ≠ none then
      some (s.caught p (⟨p.name ++ " stream failed: " ++ message,"TRANSPORT"⟩ : Failure))
    else none
  | .callerAbort =>
    some { s with callerAborted := true, abortedBy := s.abortedBy.or (some .caller) }
  | .idleTimeout =>
    if s.running = true then some { s with abortedBy := s.abortedBy.or (some .idle) } else none
  | .stop =>
    if s.demand = false then some { s with phase := .ended } else none

end Call

def callSystem {W M : Type} (A : StreamWire W M) (p : Provider) : Lts (Call W) (CallStep M) where
  init s := s = { wire := A.start }
  step s l := s.step A p l

/-- At most one finish, and after it only the end. -/
def OneTerminal (outputs : List Output) : Prop :=
  ∀ before reason rest, outputs = before ++ .chunk (.finish reason) :: rest →
    rest = [] ∨ rest = [.done]

/-- Once the finish was sent, no read fails and no abort rejects the demand. -/
def Calm {W M : Type} (s : Call W) : CallStep M → Prop
  | .readFailed _ => s.sawFinish = false
  | .interrupted _ => s.sawFinish = false
  | _ => True

/-- The steps end the call normally. -/
def Ends {W M : Type} (A : StreamWire W M) (p : Provider) (s : Call W) (steps : List (CallStep M)) :
    Prop :=
  ∃ s', (callSystem A p).run s steps = some s' ∧ s'.phase = .ended ∧
    s'.outputs = s.outputs ++ [.done]

/-- The calm states of a call have one terminal.  Once it was seen, further pieces of the body bring
nothing, and the end of the body ends the call. -/
def EndsOnce {W M : Type} (A : StreamWire W M) (p : Provider) : Prop :=
  ∀ s, Lts.ReachUnder (callSystem A p) Calm s →
    OneTerminal s.outputs ∧
    (s.sawFinish = true → s.demand = true →
      (s.phase = .reading →
        (∀ messages, ∃ s', (callSystem A p).step s (.read messages) = some s' ∧
          s'.phase = .reading ∧ s'.queue = [] ∧ s'.outputs = s.outputs) ∧
        ∀ rest, Ends A p s [.readDone rest,.close,.done]) ∧
      (s.phase = .flushed → Ends A p s [.close,.done]) ∧
      (s.phase = .closed → Ends A p s [.done]))

/-! ## The terminal -/

private theorem Terminates.append {a b c : Bool} {xs ys : List StreamChunk} (h : Terminates a b xs)
    (h' : Terminates b c ys) : Terminates a c (xs ++ ys) := by
  cases h with
  | silent => exact h'
  | live hxs =>
    cases h' with
    | live hys =>
      refine .live fun x hx => ?_
      rcases List.mem_append.mp hx with hx | hx
      · exact hxs x hx
      · exact hys x hx
    | last hys =>
      rw [← List.append_assoc]
      refine .last fun x hx => ?_
      rcases List.mem_append.mp hx with hx | hx
      · exact hxs x hx
      · exact hys x hx
  | last hxs =>
    cases h' with
    | silent =>
      rw [List.append_nil]
      exact .last hxs

private theorem Terminates.finish (reason : FinishReason) :
    Terminates false true [.finish reason] := by
  have hnone : ∀ c ∈ ([] : List StreamChunk), c.finished = none :=
    fun c hc => (List.not_mem_nil hc).elim
  exact .last hnone

private theorem Terminates.nil {a b : Bool} (h : Terminates a b []) : a = b := by
  generalize hxs : ([] : List StreamChunk) = xs at h
  cases h with
  | silent => rfl
  | live => rfl
  | last => exact absurd hxs.symm (List.append_ne_nil_of_right_ne_nil _ (List.cons_ne_nil _ _))

private theorem Terminates.finished {b : Bool} {xs : List StreamChunk} (h : Terminates true b xs) :
    xs = [] ∧ b = true := by
  cases h
  exact ⟨rfl,rfl⟩

/-- The first chunk is the finish, or it leaves the stream live. -/
theorem Terminates.tail {a b : Bool} {x : StreamChunk} {xs : List StreamChunk}
    (h : Terminates a b (x :: xs)) :
    a = false ∧ Terminates (x.finished.isSome) b xs ∧
      (x.finished = none ∨ ∃ reason, x = .finish reason) := by
  generalize hys : x :: xs = ys at h
  cases h with
  | silent => cases hys
  | live hlive =>
    subst hys
    have hx := hlive x List.mem_cons_self
    refine ⟨rfl,?_,Or.inl hx⟩
    rw [hx]
    exact .live fun y hy => hlive y (List.mem_cons_of_mem _ hy)
  | @last chunks reason hchunks =>
    cases chunks with
    | nil =>
      cases hys
      exact ⟨rfl,.silent,Or.inr ⟨reason,rfl⟩⟩
    | cons y rest =>
      cases hys
      have hx := hchunks x List.mem_cons_self
      refine ⟨rfl,?_,Or.inl hx⟩
      rw [hx]
      exact .last fun y hy => hchunks y (List.mem_cons_of_mem _ hy)

/-- What a translator does to its pending chunks, beside whether it has finished. -/
def Sends (before after : List StreamChunk × Bool) : Prop :=
  ∃ chunks, after.1 = before.1 ++ chunks ∧ Terminates before.2 after.2 chunks

theorem Sends.refl (x : List StreamChunk × Bool) : Sends x x := by
  refine ⟨[],(List.append_nil _).symm,?_⟩
  cases x.2 with
  | true => exact .silent
  | false => exact .live fun c hc => (List.not_mem_nil hc).elim

theorem Sends.trans {x y z : List StreamChunk × Bool} (h : Sends x y) (h' : Sends y z) :
    Sends x z := by
  obtain ⟨xs,hxs,hx⟩ := h
  obtain ⟨ys,hys,hy⟩ := h'
  exact ⟨xs ++ ys,by rw [hys,hxs,List.append_assoc],hx.append hy⟩

/-- A live stream that sends no finish. -/
theorem Sends.of_live {x y : List StreamChunk × Bool} (hx : x.2 = false) (hy : y.2 = false)
    {chunks : List StreamChunk} (hchunks : y.1 = x.1 ++ chunks)
    (hnone : ∀ c ∈ chunks, c.finished = none) : Sends x y := by
  refine ⟨chunks,hchunks,?_⟩
  rw [hx,hy]
  exact .live hnone

/-- A live stream that sends nothing. -/
theorem Sends.same {x y : List StreamChunk × Bool} (hx : x.2 = false) (hy : y.2 = false)
    (hchunks : y.1 = x.1) : Sends x y :=
  .of_live hx hy (hchunks.trans (List.append_nil _).symm) fun _ hc => (List.not_mem_nil hc).elim

/-- The consumer has seen chunks only, and the finish as the last one if at all. -/
def Observed (finished : Bool) (outputs : List Output) : Prop :=
  ∃ chunks, outputs = chunks.map Output.chunk ∧ Terminates false finished chunks

private theorem Observed.push {a b : Bool} {outputs : List Output} {chunk : StreamChunk}
    (h : Observed a outputs) (hchunk : Terminates a b [chunk]) :
    Observed b (outputs ++ [.chunk chunk]) := by
  obtain ⟨chunks,rfl,hchunks⟩ := h
  exact ⟨chunks ++ [chunk],by simp,hchunks.append hchunk⟩

private theorem OneTerminal.of_none {outputs : List Output}
    (h : ∀ reason, Output.chunk (.finish reason) ∉ outputs) : OneTerminal outputs := by
  rintro before reason rest rfl
  exact absurd (List.mem_append_right before List.mem_cons_self) (h reason)

private theorem Observed.oneTerminal {a : Bool} {outputs rest : List Output}
    (h : Observed a outputs)
    (hrest : rest = [] ∨ rest = [.done] ∨ a = false ∧ ∃ failure, rest = [.thrown failure]) :
    OneTerminal (outputs ++ rest) := by
  obtain ⟨chunks,rfl,hchunks⟩ := h
  have hplain : ∀ reason, Output.chunk (.finish reason) ∉ rest := by
    intro reason
    rcases hrest with rfl | rfl | ⟨-,failure,rfl⟩ <;> simp
  have hmap : ∀ {cs : List StreamChunk} {reason : FinishReason}, (∀ c ∈ cs, c.finished = none) →
      Output.chunk (.finish reason) ∉ cs.map Output.chunk := by
    intro cs reason hcs hmem
    obtain ⟨c,hc,he⟩ := List.mem_map.mp hmem
    cases he
    cases hcs _ hc
  generalize hlive : false = live at hchunks
  cases hchunks with
  | silent => cases hlive
  | live hcs =>
    refine OneTerminal.of_none fun reason hmem => ?_
    rcases List.mem_append.mp hmem with hmem | hmem
    · exact hmap hcs hmem
    · exact hplain reason hmem
  | @last cs last hcs =>
    have hclosed : rest = [] ∨ rest = [.done] := by
      rcases hrest with hnil | hdone | ⟨hfalse,-⟩
      · exact Or.inl hnil
      · exact Or.inr hdone
      · cases hfalse
    intro before reason after heq
    rw [List.map_append,List.append_assoc] at heq
    rcases List.append_eq_append_iff.mp heq with ⟨as,rfl,htail⟩ | ⟨bs,hbefore,htail⟩
    · cases as with
      | nil =>
        have hsame : rest = after := (List.cons.inj htail).2
        exact hsame ▸ hclosed
      | cons x as =>
        have hsame : rest = as ++ .chunk (.finish reason) :: after := (List.cons.inj htail).2
        exact absurd (hsame ▸ List.mem_append_right as List.mem_cons_self) (hplain reason)
    · cases bs with
      | nil =>
        have hsame : after = rest := (List.cons.inj htail).2
        exact hsame.symm ▸ hclosed
      | cons x bs =>
        have hx : Output.chunk (.finish reason) = x := (List.cons.inj htail).1
        have hmem : Output.chunk (.finish reason) ∈ cs.map Output.chunk := by
          rw [hbefore,hx]
          exact List.mem_append_right _ List.mem_cons_self
        exact absurd hmem (hmap hcs)

/-! ## Calm runs -/

section runs

variable {W M : Type} {A : StreamWire W M} {p : Provider} {s : Call W}

/-- What the consumer has seen, by the phase of the call. -/
def Inv (A : StreamWire W M) (s : Call W) : Prop :=
  match s.phase with
  | .ended => OneTerminal s.outputs
  | .settled => Observed true s.outputs
  | .failing _ => s.sawFinish = false ∧ Observed false s.outputs
  | .fetching => s.sawFinish = false ∧ Observed false s.outputs ∧ A.idle s.wire ∧
      A.finished s.wire = false ∧ s.queue = []
  | _ => Observed s.sawFinish s.outputs ∧ A.idle s.wire ∧
      Terminates s.sawFinish (A.finished s.wire) s.queue

/-- The phases in which chunks are yielded. -/
def Yielding (A : StreamWire W M) (s : Call W) : Prop :=
  Observed s.sawFinish s.outputs ∧ A.idle s.wire ∧
    Terminates s.sawFinish (A.finished s.wire) s.queue

private theorem Inv.fetching (h : Inv A s) (hphase : s.phase = .fetching) :
    s.sawFinish = false ∧ Observed false s.outputs ∧ A.idle s.wire ∧
      A.finished s.wire = false ∧ s.queue = [] := by
  unfold Inv at h
  rw [hphase] at h
  exact h

private theorem Inv.yielding (h : Inv A s)
    (hphase : s.phase = .reading ∨ s.phase = .flushed ∨ s.phase = .closed) : Yielding A s := by
  unfold Inv at h
  rcases hphase with hphase | hphase | hphase <;> rw [hphase] at h <;> exact h

/-- Whatever the phase of a live call, its consumer has seen chunks only. -/
theorem Inv.observed (h : Inv A s) (hphase : s.phase ≠ .ended) (hsettled : s.phase ≠ .settled) :
    Observed s.sawFinish s.outputs := by
  unfold Inv at h
  cases hp : s.phase with
  | ended => exact absurd hp hphase
  | settled => exact absurd hp hsettled
  | failing failure =>
    rw [hp] at h
    rw [h.1]
    exact h.2
  | fetching =>
    rw [hp] at h
    rw [h.1]
    exact h.2.1
  | reading =>
    rw [hp] at h
    exact h.1
  | flushed =>
    rw [hp] at h
    exact h.1
  | closed =>
    rw [hp] at h
    exact h.1

private theorem Inv.oneTerminal (h : Inv A s) : OneTerminal s.outputs := by
  by_cases hended : s.phase = .ended
  · unfold Inv at h
    rw [hended] at h
    exact h
  by_cases hsettled : s.phase = .settled
  · unfold Inv at h
    rw [hsettled] at h
    exact List.append_nil s.outputs ▸ h.oneTerminal (Or.inl rfl)
  · exact List.append_nil s.outputs ▸ (h.observed hended hsettled).oneTerminal (Or.inl rfl)

private theorem inv_caught (failure : Failure) (hlive : s.sawFinish = false)
    (h : Observed s.sawFinish s.outputs) : Inv A (s.caught p failure) := by
  rw [hlive] at h
  unfold Call.caught
  split
  · exact h.oneTerminal (Or.inr (Or.inr ⟨rfl,_,rfl⟩))
  split
  · exact h.push (.finish _)
  · exact h.oneTerminal (Or.inr (Or.inr ⟨rfl,_,rfl⟩))

/-- A piece of the body, or its rest. -/
theorem inv_feed {phase : Phase} (messages : List M) (h : Yielding A s) (hqueue : s.queue = [])
    (hphase : phase = .reading ∨ phase = .flushed) : Inv A (s.feed A phase messages) := by
  obtain ⟨hobserved,hidle,hqueued⟩ := h
  rw [hqueue] at hqueued
  have hsaw := hqueued.nil
  unfold Call.feed
  rcases hfeed : A.feed s.wire messages with ⟨result,w⟩
  cases result with
  | ok chunks =>
    obtain ⟨hidle',hchunks⟩ := A.feed_ok hidle hfeed
    rw [← hsaw] at hchunks
    rcases hphase with rfl | rfl <;> exact ⟨hobserved,hidle',hchunks⟩
  | error failure =>
    have hlive : s.sawFinish = false := hsaw.trans (A.feed_error hfeed)
    rw [hlive] at hobserved
    exact ⟨hlive,hobserved⟩

private theorem inv_finish (h : Yielding A s) (hqueue : s.queue = []) : Inv A (s.finish A) := by
  obtain ⟨hobserved,hidle,hqueued⟩ := h
  rw [hqueue] at hqueued
  have hsaw := hqueued.nil
  unfold Call.finish
  cases hclose : A.close s.wire s.sawFinish with
  | ok chunks =>
    refine ⟨hobserved,hidle,?_⟩
    rw [A.close_ok hidle hclose]
    exact hqueued
  | error failure =>
    have hlive : s.sawFinish = false := by
      by_contra hfinished
      have htrue : s.sawFinish = true := by simpa using hfinished
      have hok := A.close_finished hidle (hsaw.symm.trans htrue)
      rw [htrue,hok] at hclose
      cases hclose
    rw [hlive] at hobserved
    exact ⟨hlive,hobserved⟩

/-- Only the phase matters to what was seen. -/
theorem Inv.same {s' : Call W} (h : Inv A s) (hphase : s'.phase = s.phase)
    (hwire : s'.wire = s.wire) (hqueue : s'.queue = s.queue) (hsaw : s'.sawFinish = s.sawFinish)
    (houtputs : s'.outputs = s.outputs) : Inv A s' := by
  unfold Inv at h ⊢
  rw [hphase,hwire,hqueue,hsaw,houtputs]
  exact h

private theorem inductive_inv (A : StreamWire W M) (p : Provider) :
    Lts.Inductive (callSystem A p) Calm (Inv A) where
  init s hs := by
    cases hs
    exact ⟨rfl,⟨[],rfl,.live fun c hc => (List.not_mem_nil hc).elim⟩,A.start_idle.1,
      A.start_idle.2,rfl⟩
  step s l s' h hcalm hstep := by
    have hs : s.step A p l = some s' := hstep
    cases l with
    | next =>
      obtain ⟨-,rfl⟩ := of_guard hs
      exact h.same rfl rfl rfl rfl rfl
    | fetched =>
      obtain ⟨⟨-,hphase⟩,rfl⟩ := of_guard hs
      obtain ⟨hsaw,hobserved,hidle,hfinished,hqueue⟩ := h.fetching hphase
      refine ⟨hsaw ▸ hobserved,hidle,?_⟩
      show Terminates s.sawFinish (A.finished s.wire) s.queue
      rw [hsaw,hfinished,hqueue]
      exact .live fun c hc => (List.not_mem_nil hc).elim
    | fetchFailed failure =>
      obtain ⟨⟨-,hphase⟩,rfl⟩ := of_guard hs
      obtain ⟨hsaw,hobserved,-⟩ := h.fetching hphase
      exact ⟨hsaw,hobserved⟩
    | read messages =>
      obtain ⟨⟨-,hphase,hqueue⟩,rfl⟩ := of_guard hs
      exact inv_feed messages (h.yielding (Or.inl hphase)) hqueue (Or.inl rfl)
    | readFailed message =>
      obtain ⟨⟨-,hphase,-⟩,rfl⟩ := of_guard hs
      have hlive : s.sawFinish = false := hcalm
      have hobserved := (h.yielding (Or.inl hphase)).1
      rw [hlive] at hobserved
      exact ⟨hlive,hobserved⟩
    | readDone rest =>
      obtain ⟨⟨-,hphase,hqueue⟩,rfl⟩ := of_guard hs
      exact inv_feed rest (h.yielding (Or.inl hphase)) hqueue (Or.inr rfl)
    | yield =>
      cases hqueue : s.queue with
      | nil =>
        simp only [Call.step,hqueue] at hs
        cases hs
      | cons chunk rest =>
        simp only [Call.step,hqueue] at hs
        obtain ⟨⟨-,hphase⟩,rfl⟩ := of_guard hs
        obtain ⟨hobserved,hidle,hqueued⟩ := h.yielding hphase
        rw [hqueue] at hqueued
        obtain ⟨hsaw,htail,hfirst⟩ := hqueued.tail
        rw [hsaw] at hobserved
        have hchunk : Terminates false chunk.finished.isSome [chunk] := by
          rcases hfirst with hnone | ⟨reason,rfl⟩
          · rw [hnone]
            exact .live fun c hc => by
              obtain rfl := List.mem_singleton.mp hc
              exact hnone
          · exact .finish reason
        have hnow : (s.sawFinish || chunk.finished.isSome) = chunk.finished.isSome := by
          rw [hsaw]
          rfl
        have hyield : Observed (s.sawFinish || chunk.finished.isSome)
            (s.outputs ++ [.chunk chunk]) ∧ A.idle s.wire ∧
            Terminates (s.sawFinish || chunk.finished.isSome) (A.finished s.wire) rest := by
          rw [hnow]
          exact ⟨hobserved.push hchunk,hidle,htail⟩
        unfold Inv
        rcases hphase with hphase | hphase | hphase <;> rw [hphase] <;> exact hyield
    | close =>
      obtain ⟨⟨-,hphase,hqueue⟩,rfl⟩ := of_guard hs
      exact inv_finish (h.yielding (Or.inr (Or.inl hphase))) hqueue
    | done =>
      obtain ⟨⟨-,hphase⟩,rfl⟩ := of_guard hs
      rcases hphase with ⟨hphase,-⟩ | hphase
      · exact (h.yielding (Or.inr (Or.inr hphase))).1.oneTerminal (Or.inr (Or.inl rfl))
      · unfold Inv at h
        rw [hphase] at h
        exact h.oneTerminal (Or.inr (Or.inl rfl))
    | rejected =>
      cases hphase : s.phase with
      | failing failure =>
        simp only [Call.step,hphase] at hs
        obtain ⟨-,rfl⟩ := of_guard hs
        unfold Inv at h
        rw [hphase] at h
        exact inv_caught failure h.1 (h.1 ▸ h.2)
      | fetching =>
        simp only [Call.step,hphase] at hs
        cases hs
      | reading =>
        simp only [Call.step,hphase] at hs
        cases hs
      | flushed =>
        simp only [Call.step,hphase] at hs
        cases hs
      | closed =>
        simp only [Call.step,hphase] at hs
        cases hs
      | settled =>
        simp only [Call.step,hphase] at hs
        cases hs
      | ended =>
        simp only [Call.step,hphase] at hs
        cases hs
    | interrupted message =>
      obtain ⟨⟨hrunning,-⟩,rfl⟩ := of_guard hs
      have hphases : s.phase ≠ .settled ∧ s.phase ≠ .ended := by
        simp only [Call.running,Bool.and_eq_true,decide_eq_true_eq] at hrunning
        exact ⟨hrunning.1.2,hrunning.2⟩
      exact inv_caught _ hcalm (h.observed hphases.2 hphases.1)
    | callerAbort =>
      cases hs
      exact h.same rfl rfl rfl rfl rfl
    | idleTimeout =>
      obtain ⟨-,rfl⟩ := of_guard hs
      exact h.same rfl rfl rfl rfl rfl
    | stop =>
      obtain ⟨-,rfl⟩ := of_guard hs
      exact h.oneTerminal

/-- A finished stream brings nothing more. -/
theorem feed_finished (phase : Phase) (messages : List M) (h : Yielding A s)
    (hsaw : s.sawFinish = true) (hqueue : s.queue = []) :
    ∃ w, A.idle w ∧ A.finished w = true ∧ s.feed A phase messages =
      { s with phase := phase, wire := w, queue := [] } := by
  obtain ⟨-,hidle,hqueued⟩ := h
  rw [hsaw,hqueue] at hqueued
  have hfinished : A.finished s.wire = true := hqueued.nil.symm
  unfold Call.feed
  rcases hfeed : A.feed s.wire messages with ⟨result,w⟩
  cases result with
  | ok chunks =>
    obtain ⟨hidle',hchunks⟩ := A.feed_ok hidle hfeed
    rw [hfinished] at hchunks
    obtain ⟨rfl,hfinished'⟩ := hchunks.finished
    exact ⟨w,hidle',hfinished',rfl⟩
  | error failure =>
    have hlive := A.feed_error hfeed
    rw [hfinished] at hlive
    cases hlive

/-- Nothing is left to yield behind the finish. -/
theorem Yielding.finished (h : Yielding A s) (hsaw : s.sawFinish = true) :
    s.queue = [] ∧ A.finished s.wire = true := by
  have hqueued := h.2.2
  rw [hsaw] at hqueued
  exact hqueued.finished

private theorem ends_closed (h : Yielding A s) (hsaw : s.sawFinish = true)
    (hdemand : s.demand = true) (hphase : s.phase = .closed) : Ends A p s [.done] := by
  refine ⟨{ s with phase := .ended, outputs := s.outputs ++ [.done] },?_,rfl,rfl⟩
  simp [Lts.run,callSystem,Call.step,hdemand,hphase,(h.finished hsaw).1]

private theorem ends_flushed (h : Yielding A s) (hsaw : s.sawFinish = true)
    (hdemand : s.demand = true) (hphase : s.phase = .flushed) : Ends A p s [.close,.done] := by
  obtain ⟨hqueue,hfinished⟩ := h.finished hsaw
  have hclose := A.close_finished h.2.1 hfinished
  refine ⟨{ s with phase := .ended, queue := [], outputs := s.outputs ++ [.done] },?_,rfl,rfl⟩
  simp [Lts.run,callSystem,Call.step,hdemand,hphase,hqueue,Call.finish,hsaw,hclose]

private theorem ends_reading (h : Yielding A s) (hsaw : s.sawFinish = true)
    (hdemand : s.demand = true) (hphase : s.phase = .reading) (rest : List M) :
    Ends A p s [.readDone rest,.close,.done] := by
  have hqueue := (h.finished hsaw).1
  obtain ⟨w,hidle,hfinished,hfeed⟩ := feed_finished .flushed rest h hsaw hqueue
  have hclose := A.close_finished hidle hfinished
  refine ⟨{ s with phase := .ended, wire := w, queue := [], outputs := s.outputs ++ [.done] },?_,
    rfl,rfl⟩
  simp [Lts.run,callSystem,Call.step,hdemand,hphase,hqueue,hfeed,Call.finish,hsaw,hclose]

theorem StreamWire.endsOnce (A : StreamWire W M) (p : Provider) : EndsOnce A p := by
  intro s h
  have hinv := (inductive_inv A p).of_reachUnder h
  refine ⟨hinv.oneTerminal,fun hsaw hdemand => ⟨fun hphase => ⟨?_,?_⟩,fun hphase => ?_,
    fun hphase => ?_⟩⟩
  · intro messages
    have hyielding := hinv.yielding (Or.inl hphase)
    have hqueue := (hyielding.finished hsaw).1
    obtain ⟨w,-,-,hfeed⟩ := feed_finished .reading messages hyielding hsaw hqueue
    refine ⟨_,if_pos ⟨hdemand,hphase,hqueue⟩,?_⟩
    rw [hfeed]
    exact ⟨rfl,rfl,rfl⟩
  · exact ends_reading (hinv.yielding (Or.inl hphase)) hsaw hdemand hphase
  · exact ends_flushed (hinv.yielding (Or.inr (Or.inl hphase))) hsaw hdemand hphase
  · exact ends_closed (hinv.yielding (Or.inr (Or.inr hphase))) hsaw hdemand hphase

end runs

end Dominion.Llm
