import Dominion.Llm.GlmWire
import Dominion.Llm.OpencodeWire
import Mathlib.Data.List.Basic

/-! # One terminal for both adapters -/
namespace Dominion.Llm

open Dominion.Framework

namespace Glm

section chunks

/-- The chunks that a step of the wire adds. -/
def Adds (w w' : Wire) : Prop :=
  Sends (w.pendingChunks,w.finished) (w'.pendingChunks,w'.finished)

variable {w w' : Wire}

private theorem adds_startBlock (hlive : w.finished = false) (outputIndex : Int) (kind : BlockKind)
    (item : Option ResponsesOutputItem) :
    Adds w (w.startBlock outputIndex kind item) ∧
      (w.startBlock outputIndex kind item).finished = false := by
  unfold Wire.startBlock
  split
  · exact ⟨Sends.refl _,hlive⟩
  · exact ⟨Sends.of_live hlive hlive rfl (by simp [StreamChunk.finished]),hlive⟩

private theorem finished_deltaChunk (b : WireBlock) (fragment : String) :
    (deltaChunk b fragment).finished = none := by
  unfold deltaChunk
  cases b.kind <;> rfl

private theorem adds_append (hlive : w.finished = false) (outputIndex : Int) (kind : BlockKind)
    (fragment : String) :
    Adds w (w.append outputIndex kind fragment) ∧
      (w.append outputIndex kind fragment).finished = false := by
  unfold Wire.append
  cases w.blockAt outputIndex with
  | none => exact ⟨Sends.refl _,hlive⟩
  | some b =>
    dsimp only
    split
    · exact ⟨Sends.refl _,hlive⟩
    · exact ⟨Sends.of_live hlive hlive rfl (by simp [finished_deltaChunk]),hlive⟩

private theorem adds_delta (hlive : w.finished = false) (outputIndex : Int) (kind : BlockKind)
    (fragment : String) : Adds w (w.delta outputIndex kind fragment) := by
  have hstarted := adds_startBlock hlive outputIndex kind none
  have happended := adds_append hstarted.2 outputIndex kind fragment
  unfold Wire.delta
  rw [if_neg (by simp [hlive])]
  exact hstarted.1.trans happended.1

private theorem adds_endBlock (hlive : w.finished = false) (outputIndex : Int)
    (item : Option ResponsesOutputItem) : Adds w (w.endBlock outputIndex item) := by
  unfold Wire.endBlock
  split
  · exact Sends.refl _
  · cases w.blockAt outputIndex with
    | none => exact Sends.refl _
    | some b =>
      dsimp only
      split
      · exact Sends.refl _
      · exact Sends.of_live hlive hlive rfl (by simp [StreamChunk.finished])

private theorem adds_flushFinish (hlive : w.finished = false) (reason : FinishReason) :
    Adds w (w.flushFinish reason) := by
  refine ⟨w.usage.toList.map StreamChunk.usage ++ [.finish reason],rfl,?_⟩
  rw [hlive]
  refine .last fun c hc => ?_
  obtain ⟨u,-,rfl⟩ := List.mem_map.mp hc
  rfl

private theorem adds_mapEvent (hlive : w.finished = false) (event : ResponsesStreamEvent) :
    Adds w (w.mapEvent event) := by
  have hcomplete : ∀ response reason, Adds w (w.complete response reason) :=
    fun response reason =>
      adds_flushFinish (w := { w with usage := extractUsage response }) hlive _
  have hstart : ∀ outputIndex kind item, Adds w (w.startBlock outputIndex kind item) :=
    fun outputIndex kind item => (adds_startBlock hlive outputIndex kind item).1
  unfold Wire.mapEvent
  rw [if_neg (by simp [hlive])]
  cases event with
  | outputItemAdded outputIndex item =>
    dsimp only
    split
    · exact hstart outputIndex _ _
    split
    · exact hstart outputIndex _ _
    split
    · exact hstart outputIndex _ _
    · exact Sends.refl _
  | reasoningSummaryPartAdded outputIndex partType =>
    dsimp only
    split
    · exact hstart outputIndex _ _
    · exact Sends.refl _
  | contentPartAdded outputIndex partType =>
    dsimp only
    split
    · exact hstart outputIndex _ _
    · exact Sends.refl _
  | reasoningSummaryTextDelta outputIndex fragment => exact adds_delta hlive outputIndex _ _
  | reasoningTextDelta outputIndex fragment => exact adds_delta hlive outputIndex _ _
  | outputTextDelta outputIndex fragment => exact adds_delta hlive outputIndex _ _
  | functionCallArgumentsDelta outputIndex fragment => exact adds_delta hlive outputIndex _ _
  | outputItemDone outputIndex item => exact adds_endBlock hlive outputIndex _
  | contentPartDone outputIndex => exact adds_endBlock hlive outputIndex _
  | completed response => exact hcomplete response _
  | incomplete response => exact hcomplete response _
  | failed response => exact adds_flushFinish hlive _
  | error error => exact adds_flushFinish hlive _
  | lifecycle => exact Sends.refl _
  | unknown => exact Sends.refl _

private theorem adds_consume {w w' : Wire} (messages : List Message)
    (h : w.consume messages = (none,w')) : Adds w w' := by
  induction messages generalizing w with
  | nil =>
    cases h
    exact Sends.refl _
  | cons message rest ih =>
    cases hfinished : w.finished with
    | true =>
      simp only [Wire.consume,hfinished,if_true] at h
      cases h
      exact Sends.refl _
    | false =>
      simp only [Wire.consume,hfinished] at h
      cases message with
      | blank => exact ih h
      | malformed => cases h
      | untyped => exact ih h
      | event event => exact (adds_mapEvent hfinished event).trans (ih h)

private theorem consume_error (messages : List Message) {failure : Failure}
    (h : w.consume messages = (some failure,w')) : w.finished = false := by
  cases hfinished : w.finished with
  | false => rfl
  | true =>
    cases messages with
    | nil => cases h
    | cons message rest =>
      simp only [Wire.consume,hfinished,if_true] at h
      cases h

end chunks

def endedWithoutTerminal : Failure :=
  ⟨"GLM stream ended without a terminal event","STREAM_CLOSED"⟩

/-- The wire of one response; the adapter itself checks that a finish was sent. -/
def streamWire : StreamWire Wire Message where
  start := {}
  feed := Wire.feed
  close _ saw := if saw then .ok [] else .error endedWithoutTerminal
  finished := Wire.finished
  idle w := w.pendingChunks = []
  start_idle := ⟨rfl,rfl⟩
  feed_ok := by
    intro w w' messages chunks hidle hfeed
    unfold Wire.feed at hfeed
    rcases hconsume : w.consume messages with ⟨failure,v⟩
    cases failure with
    | some failure =>
      rw [hconsume] at hfeed
      cases hfeed
    | none =>
      obtain ⟨added,hchunks,hadded⟩ := adds_consume messages hconsume
      rw [hconsume] at hfeed
      cases hfeed
      rw [hidle,List.nil_append] at hchunks
      have hsame : v.pendingChunks = added := hchunks
      exact ⟨rfl,hsame ▸ hadded⟩
  feed_error := by
    intro w w' messages failure hfeed
    unfold Wire.feed at hfeed
    rcases hconsume : w.consume messages with ⟨failed,v⟩
    cases failed with
    | some failed => exact consume_error messages hconsume
    | none =>
      rw [hconsume] at hfeed
      cases hfeed
  close_ok := by
    intro w saw chunks _ hclose
    cases saw with
    | true => exact (Except.ok.inj hclose).symm
    | false => cases hclose
  close_finished := fun _ _ => rfl

end Glm

def glm (streamIdleTimeoutMs : Nat) : Provider :=
  ⟨"GLM",streamIdleTimeoutMs⟩

def opencodeGo (streamIdleTimeoutMs : Nat) : Provider :=
  ⟨"OpenCode Go",streamIdleTimeoutMs⟩

/-- In every run of either adapter in which no read fails and no abort rejects the demand once the
finish was yielded, the consumer sees at most one finish and after it only the end. -/
theorem model_stream_ends_once (streamIdleTimeoutMs : Nat) (upper : String → String) :
    EndsOnce Glm.streamWire (glm streamIdleTimeoutMs) ∧
    EndsOnce (Opencode.streamWire upper) (opencodeGo streamIdleTimeoutMs) :=
  ⟨Glm.streamWire.endsOnce (glm streamIdleTimeoutMs),
    (Opencode.streamWire upper).endsOnce (opencodeGo streamIdleTimeoutMs)⟩

/-! ## Three runs -/

instance {W M : Type} (s : Call W) (l : CallStep M) : Decidable (Calm s l) :=
  match l with
  | .readFailed _ => inferInstanceAs (Decidable (s.sawFinish = false))
  | .interrupted _ => inferInstanceAs (Decidable (s.sawFinish = false))
  | .next => .isTrue trivial
  | .fetched => .isTrue trivial
  | .fetchFailed _ => .isTrue trivial
  | .read _ => .isTrue trivial
  | .readDone _ => .isTrue trivial
  | .yield => .isTrue trivial
  | .close => .isTrue trivial
  | .done => .isTrue trivial
  | .rejected => .isTrue trivial
  | .callerAbort => .isTrue trivial
  | .idleTimeout => .isTrue trivial
  | .stop => .isTrue trivial

/-- A message with one delta, up to the demand behind its finish. -/
def glmAnswer : List (CallStep Glm.Message) :=
  [.next,.fetched,.read [.event (.outputTextDelta 0 "a"),.event (.contentPartDone 0),
    .event (.completed {})],.yield,.next,.yield,.next,.yield,.next,.yield,.next]

def opencodeAnswer : List (CallStep Opencode.Message) :=
  [.next,.fetched,.read [.chunk { choice := some { delta := { content := some "a" } } },
    .doneSentinel],.yield,.next,.yield,.next,.yield,.next,.yield,.next]

def answer (reason : FinishReason) : List Output :=
  [.chunk (.blockStart 0 .text),.chunk (.textDelta 0 "a"),.chunk (.blockEnd 0 (.text "a")),
    .chunk (.finish reason)]

theorem model_stream_ends_once_demo :
    ∃ s, Lts.ReachUnder (callSystem Glm.streamWire (glm 300000)) Calm s ∧
      s.outputs = answer .stop ++ [.done] ∧ OneTerminal s.outputs := by
  obtain ⟨s,hs,hp⟩ := Lts.reachUnder_of_runUnder_any
    (M := callSystem Glm.streamWire (glm 300000)) (C := Calm) (c := fun s l => decide (Calm s l))
    (p := fun s => decide (s.outputs = answer .stop ++ [.done])) (fun _ _ => of_decide_eq_true)
    (glmAnswer ++ [.readDone [],.close,.done]) (.init rfl) (by decide)
  exact ⟨s,hs,of_decide_eq_true hp,((model_stream_ends_once 300000 id).1 s hs).1⟩

private theorem not_oneTerminal {outputs rest : List Output} {reason : FinishReason}
    {output : Output} (h : outputs = answer reason ++ output :: rest) (hlast : output ≠ .done) :
    ¬OneTerminal outputs := by
  intro hone
  have hrest : output :: rest = [] ∨ output :: rest = [.done] :=
    hone ((answer reason).take 3) reason (output :: rest) h
  rcases hrest with hnil | hdone
  · cases hnil
  · exact hlast (List.cons.inj hdone).1

/-- A connection that breaks behind the finish throws, and the caller's abort yields a second
finish. -/
theorem terminal_is_not_the_last :
    (¬∀ s, Lts.Reach (callSystem Glm.streamWire (glm 300000)) s → OneTerminal s.outputs) ∧
    ¬∀ s, Lts.Reach (callSystem (Opencode.streamWire id) (opencodeGo 300000)) s →
      OneTerminal s.outputs := by
  constructor
  · intro h
    obtain ⟨s,hs,hp⟩ := Lts.reach_of_run_any (M := callSystem Glm.streamWire (glm 300000))
      (p := fun s => decide (s.outputs = answer .stop ++
        [.thrown ⟨"GLM stream interrupted: terminated","TRANSPORT"⟩]))
      (glmAnswer ++ [.readFailed "terminated",.rejected]) (.init rfl) (by decide)
    exact not_oneTerminal (of_decide_eq_true hp) (by simp) (h s hs)
  · intro h
    obtain ⟨s,hs,hp⟩ := Lts.reach_of_run_any
      (M := callSystem (Opencode.streamWire id) (opencodeGo 300000))
      (p := fun s => decide (s.outputs = answer .stop ++
        [.chunk (.finish (.aborted ⟨"OpenCode Go stream aborted by caller","ABORTED"⟩))]))
      (opencodeAnswer ++ [.callerAbort,.interrupted "aborted"]) (.init rfl) (by decide)
    exact not_oneTerminal (of_decide_eq_true hp) (by simp) (h s hs)

end Dominion.Llm
