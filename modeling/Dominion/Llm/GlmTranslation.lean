import Dominion.Llm.GlmProtocol
import Mathlib.Data.List.Basic

/-! # The translation of a whole body

The wire hands out its chunks piece by piece; together they are those of one run over the events. -/
namespace Dominion.Llm.Glm

/-- The output index that an event gives a block if it has none. -/
def ResponsesStreamEvent.opens : ResponsesStreamEvent → Option Int
  | .outputItemAdded outputIndex item =>
    if item.type = some "reasoning" ∨ item.type = some "message" ∨
      item.type = some "function_call" then some outputIndex
    else none
  | .reasoningSummaryPartAdded outputIndex partType =>
    if partType = some "summary_text" then some outputIndex else none
  | .contentPartAdded outputIndex partType =>
    if partType = some "output_text" then some outputIndex else none
  | .reasoningSummaryTextDelta outputIndex _ => some outputIndex
  | .reasoningTextDelta outputIndex _ => some outputIndex
  | .outputTextDelta outputIndex _ => some outputIndex
  | .functionCallArgumentsDelta outputIndex _ => some outputIndex
  | _ => none

def ResponsesStreamEvent.terminal : ResponsesStreamEvent → Bool
  | .completed _ => true
  | .incomplete _ => true
  | .failed _ => true
  | .error _ => true
  | _ => false

/-- The output indexes of the blocks, as they are first seen before the terminal event. -/
def firstSeen (events : List ResponsesStreamEvent) : List Int :=
  ((events.takeWhile fun event => !event.terminal).filterMap
    ResponsesStreamEvent.opens).eraseDups

/-! ## The order of the blocks -/

section order

variable {w : Wire} {outputIndex : Int}

private theorem keys_startBlock (hfinished : w.finished = false) (kind : BlockKind)
    (item : Option ResponsesOutputItem) :
    (w.startBlock outputIndex kind item).blocks.map Prod.fst =
      w.blocks.map Prod.fst ++ [outputIndex].removeAll (w.blocks.map Prod.fst) ∧
    (w.startBlock outputIndex kind item).finished = false := by
  cases hat : w.blockAt outputIndex with
  | none =>
    have hfresh : outputIndex ∉ w.blocks.map Prod.fst := by
      intro hmem
      obtain ⟨x,hx,he⟩ := List.mem_map.mp hmem
      exact blockAt_eq_none.mp hat x hx he
    have hstart : w.startBlock outputIndex kind item = _ :=
      startBlock_eq (t := { wire := w }) hfinished hat
    rw [hstart]
    exact ⟨by simp [List.removeAll,hfresh],hfinished⟩
  | some b =>
    have hmem : outputIndex ∈ w.blocks.map Prod.fst :=
      List.mem_map_of_mem (Registry.mem_of_blockAt hat)
    have hsame : w.startBlock outputIndex kind item = w := by
      simp [Wire.startBlock,hat]
    rw [hsame]
    exact ⟨by simp [List.removeAll,hmem],hfinished⟩

private theorem keys_setBlock (block : WireBlock) :
    (w.setBlock outputIndex block).blocks.map Prod.fst = w.blocks.map Prod.fst := by
  simp only [Wire.setBlock,List.map_map]
  refine List.map_congr_left fun x _ => ?_
  simp only [Function.comp_apply]
  split <;> rfl

private theorem keys_append (kind : BlockKind) (fragment : String) :
    (w.append outputIndex kind fragment).blocks.map Prod.fst = w.blocks.map Prod.fst ∧
    (w.append outputIndex kind fragment).finished = w.finished := by
  unfold Wire.append
  cases w.blockAt outputIndex with
  | none => exact ⟨rfl,rfl⟩
  | some b =>
    dsimp only
    split
    · exact ⟨rfl,rfl⟩
    · exact ⟨keys_setBlock _,rfl⟩

private theorem keys_endBlock (item : Option ResponsesOutputItem) :
    (w.endBlock outputIndex item).blocks.map Prod.fst = w.blocks.map Prod.fst ∧
    (w.endBlock outputIndex item).finished = w.finished := by
  unfold Wire.endBlock
  split
  · exact ⟨rfl,rfl⟩
  · cases w.blockAt outputIndex with
    | none => exact ⟨rfl,rfl⟩
    | some b =>
      dsimp only
      split
      · exact ⟨rfl,rfl⟩
      · exact ⟨keys_setBlock _,rfl⟩

/-- An event before the finish adds the block that it opens, and a terminal one nothing. -/
theorem keys_mapEvent (hfinished : w.finished = false) (event : ResponsesStreamEvent) :
    (w.mapEvent event).blocks.map Prod.fst = w.blocks.map Prod.fst ++
      event.opens.toList.removeAll (w.blocks.map Prod.fst) ∧
    (w.mapEvent event).finished = event.terminal ∧
    (event.terminal = true → event.opens = none) := by
  have hstart : ∀ outputIndex kind item,
      (w.startBlock outputIndex kind item).blocks.map Prod.fst = w.blocks.map Prod.fst ++
        [outputIndex].removeAll (w.blocks.map Prod.fst) ∧
      (w.startBlock outputIndex kind item).finished = false :=
    fun _ kind item => keys_startBlock hfinished kind item
  have hdelta : ∀ outputIndex kind fragment,
      (w.delta outputIndex kind fragment).blocks.map Prod.fst = w.blocks.map Prod.fst ++
        [outputIndex].removeAll (w.blocks.map Prod.fst) ∧
      (w.delta outputIndex kind fragment).finished = false := by
    intro outputIndex kind fragment
    have hstarted := hstart outputIndex kind none
    have happend : ((w.startBlock outputIndex kind none).append outputIndex kind fragment).blocks.map
        Prod.fst = (w.startBlock outputIndex kind none).blocks.map Prod.fst ∧
        ((w.startBlock outputIndex kind none).append outputIndex kind fragment).finished =
          (w.startBlock outputIndex kind none).finished := keys_append kind fragment
    simp only [Wire.delta,hfinished,Bool.false_eq_true,if_false]
    exact ⟨happend.1.trans hstarted.1,happend.2.trans hstarted.2⟩
  have hopen : ∀ outputIndex w', w.mapEvent event = w' →
      (w'.blocks.map Prod.fst = w.blocks.map Prod.fst ++
        [outputIndex].removeAll (w.blocks.map Prod.fst) ∧ w'.finished = false) →
      event.opens = some outputIndex → event.terminal = false →
      (w.mapEvent event).blocks.map Prod.fst = w.blocks.map Prod.fst ++
        event.opens.toList.removeAll (w.blocks.map Prod.fst) ∧
      (w.mapEvent event).finished = event.terminal ∧
      (event.terminal = true → event.opens = none) := by
    rintro outputIndex w' rfl ⟨hkeys,hlive⟩ hopens hterminal
    rw [hopens,hterminal]
    exact ⟨hkeys,hlive,fun h => by cases h⟩
  have hkeep : ∀ w', w.mapEvent event = w' →
      (w'.blocks.map Prod.fst = w.blocks.map Prod.fst ∧ w'.finished = event.terminal) →
      event.opens = none →
      (w.mapEvent event).blocks.map Prod.fst = w.blocks.map Prod.fst ++
        event.opens.toList.removeAll (w.blocks.map Prod.fst) ∧
      (w.mapEvent event).finished = event.terminal ∧
      (event.terminal = true → event.opens = none) := by
    rintro w' rfl ⟨hkeys,hlive⟩ hopens
    rw [hopens]
    exact ⟨hkeys.trans (List.append_nil _).symm,hlive,fun _ => rfl⟩
  have hend : ∀ outputIndex item,
      (w.endBlock outputIndex item).blocks.map Prod.fst = w.blocks.map Prod.fst ∧
      (w.endBlock outputIndex item).finished = false :=
    fun _ item => ⟨(keys_endBlock item).1,(keys_endBlock item).2.trans hfinished⟩
  cases event with
  | outputItemAdded outputIndex item =>
    by_cases hreasoning : item.type = some "reasoning"
    · exact hopen outputIndex _ (by simp [Wire.mapEvent,hfinished,hreasoning])
        (hstart outputIndex .reasoning (some item)) (if_pos (Or.inl hreasoning)) rfl
    by_cases hmessage : item.type = some "message"
    · exact hopen outputIndex _ (by simp [Wire.mapEvent,hfinished,hmessage])
        (hstart outputIndex .text (some item)) (if_pos (Or.inr (Or.inl hmessage))) rfl
    by_cases hcall : item.type = some "function_call"
    · exact hopen outputIndex _ (by simp [Wire.mapEvent,hfinished,hcall])
        (hstart outputIndex .toolCall (some item)) (if_pos (Or.inr (Or.inr hcall))) rfl
    · exact hkeep w (by simp [Wire.mapEvent,hreasoning,hmessage,hcall]) ⟨rfl,hfinished⟩
        (by simp [ResponsesStreamEvent.opens,hreasoning,hmessage,hcall])
  | reasoningSummaryPartAdded outputIndex partType =>
    by_cases hpart : partType = some "summary_text"
    · exact hopen outputIndex _ (by simp [Wire.mapEvent,hfinished,hpart])
        (hstart outputIndex .reasoning none) (if_pos hpart) rfl
    · exact hkeep w (by simp [Wire.mapEvent,hpart]) ⟨rfl,hfinished⟩ (if_neg hpart)
  | contentPartAdded outputIndex partType =>
    by_cases hpart : partType = some "output_text"
    · exact hopen outputIndex _ (by simp [Wire.mapEvent,hfinished,hpart])
        (hstart outputIndex .text none) (if_pos hpart) rfl
    · exact hkeep w (by simp [Wire.mapEvent,hpart]) ⟨rfl,hfinished⟩ (if_neg hpart)
  | reasoningSummaryTextDelta outputIndex fragment =>
    exact hopen outputIndex _ (by simp [Wire.mapEvent,hfinished])
      (hdelta outputIndex .reasoning fragment) rfl rfl
  | reasoningTextDelta outputIndex fragment =>
    exact hopen outputIndex _ (by simp [Wire.mapEvent,hfinished])
      (hdelta outputIndex .reasoning fragment) rfl rfl
  | outputTextDelta outputIndex fragment =>
    exact hopen outputIndex _ (by simp [Wire.mapEvent,hfinished])
      (hdelta outputIndex .text fragment) rfl rfl
  | functionCallArgumentsDelta outputIndex fragment =>
    exact hopen outputIndex _ (by simp [Wire.mapEvent,hfinished])
      (hdelta outputIndex .toolCall fragment) rfl rfl
  | outputItemDone outputIndex item =>
    exact hkeep _ (by simp [Wire.mapEvent,hfinished]) (hend outputIndex (some item)) rfl
  | contentPartDone outputIndex =>
    exact hkeep _ (by simp [Wire.mapEvent,hfinished]) (hend outputIndex none) rfl
  | lifecycle => exact hkeep w (by simp [Wire.mapEvent]) ⟨rfl,hfinished⟩ rfl
  | unknown => exact hkeep w (by simp [Wire.mapEvent]) ⟨rfl,hfinished⟩ rfl
  | completed response =>
    exact hkeep (w.complete response (if w.sawToolCall then .toolCalls else .stop))
      (by simp [Wire.mapEvent,hfinished]) ⟨rfl,rfl⟩ rfl
  | incomplete response =>
    exact hkeep (w.complete response .maxTokens)
      (by simp [Wire.mapEvent,hfinished]) ⟨rfl,rfl⟩ rfl
  | failed response =>
    exact hkeep (w.flushFinish (.error (failureOf response.error)))
      (by simp [Wire.mapEvent,hfinished]) ⟨rfl,rfl⟩ rfl
  | error error =>
    exact hkeep (w.flushFinish (.error (failureOf (some error))))
      (by simp [Wire.mapEvent,hfinished]) ⟨rfl,rfl⟩ rfl

private theorem mapEvent_finished (hfinished : w.finished = true) (event : ResponsesStreamEvent) :
    w.mapEvent event = w := by
  simp [Wire.mapEvent,hfinished]

private theorem foldl_mapEvent_finished (hfinished : w.finished = true)
    (events : List ResponsesStreamEvent) : events.foldl Wire.mapEvent w = w := by
  induction events with
  | nil => rfl
  | cons event events ih => rw [List.foldl_cons,mapEvent_finished hfinished,ih]

private theorem keys_foldl (hfinished : w.finished = false) (seen : List Int)
    (hseen : w.blocks.map Prod.fst = seen.eraseDups) (events : List ResponsesStreamEvent) :
    (events.foldl Wire.mapEvent w).blocks.map Prod.fst =
      (seen ++ (events.takeWhile fun event => !event.terminal).filterMap
        ResponsesStreamEvent.opens).eraseDups := by
  induction events generalizing w seen with
  | nil => simpa using hseen
  | cons event events ih =>
    obtain ⟨hkeys,hlive,hterminal⟩ := keys_mapEvent hfinished event
    rw [List.foldl_cons]
    cases hterm : event.terminal with
    | true =>
      rw [foldl_mapEvent_finished (hlive.trans hterm),hkeys,hterminal hterm]
      simp [hterm,hseen,List.removeAll]
    | false =>
      have hnext : (w.mapEvent event).blocks.map Prod.fst =
          (seen ++ event.opens.toList).eraseDups := by
        rw [hkeys,hseen,List.eraseDups_append]
        cases event.opens with
        | none => simp [List.removeAll]
        | some i => by_cases hi : i ∈ seen <;> simp [List.removeAll,hi,List.eraseDups_cons]
      rw [ih (hlive.trans hterm) _ hnext]
      cases hopens : event.opens <;> simp [hterm,hopens]

end order

/-! ## Pieces -/

def Message.payload : Message → Option ResponsesStreamEvent
  | .event e => some e
  | _ => none

/-- The events of the pieces up to one with a malformed payload. -/
def heard (w : Wire) : List (List Message) → List ResponsesStreamEvent
  | [] => []
  | piece :: rest =>
    match w.feed piece with
    | (.ok _,w) => piece.filterMap Message.payload ++ heard w rest
    | (.error _,_) => []

namespace Wire

/-- The chunks that come out of the pieces, up to one with a malformed payload. -/
def feedAll (w : Wire) : List (List Message) → List StreamChunk
  | [] => []
  | piece :: rest =>
    match w.feed piece with
    | (.ok chunks,w) => chunks ++ w.feedAll rest
    | (.error _,_) => []

/-- The wire with the chunks that it has handed out. -/
def after (w : Wire) (sent : List StreamChunk) : Wire :=
  { w with pendingChunks := sent ++ w.pendingChunks }

end Wire

section pieces

variable (w : Wire) (sent : List StreamChunk) (outputIndex : Int)

@[simp] theorem after_finished : (w.after sent).finished = w.finished := rfl

@[simp] theorem after_blockAt : (w.after sent).blockAt outputIndex = w.blockAt outputIndex := rfl

@[simp] theorem after_push (chunks : List StreamChunk) :
    (w.after sent).push chunks = (w.push chunks).after sent := by
  simp [Wire.push,Wire.after]

private theorem after_startBlock (kind : BlockKind) (item : Option ResponsesOutputItem) :
    (w.after sent).startBlock outputIndex kind item =
      (w.startBlock outputIndex kind item).after sent := by
  unfold Wire.startBlock
  by_cases hknown : w.finished ∨ (w.blockAt outputIndex).isSome
  · simp [hknown]
  · simp only [after_finished,after_blockAt,hknown,if_false]
    simp [Wire.push,Wire.after]

private theorem after_append (kind : BlockKind) (fragment : String) :
    (w.after sent).append outputIndex kind fragment =
      (w.append outputIndex kind fragment).after sent := by
  simp only [Wire.append,after_blockAt]
  cases w.blockAt outputIndex with
  | none => rfl
  | some b =>
    by_cases hdropped : b.ended ∨ b.kind ≠ kind
    · simp [hdropped]
    · simp [hdropped,Wire.setBlock,Wire.push,Wire.after]

private theorem after_delta (kind : BlockKind) (fragment : String) :
    (w.after sent).delta outputIndex kind fragment =
      (w.delta outputIndex kind fragment).after sent := by
  simp only [Wire.delta,after_finished,after_startBlock,after_append]
  split <;> rfl

private theorem after_endBlock (item : Option ResponsesOutputItem) :
    (w.after sent).endBlock outputIndex item = (w.endBlock outputIndex item).after sent := by
  unfold Wire.endBlock
  cases hfinished : w.finished with
  | true => simp [hfinished]
  | false =>
    cases hat : w.blockAt outputIndex with
    | none => simp [hfinished,hat]
    | some b =>
      cases hended : b.ended with
      | true => simp [hfinished,hat,hended]
      | false =>
        simp only [after_finished,after_blockAt,hfinished,hat,hended]
        simp [Wire.setBlock,Wire.push,Wire.after]

private theorem after_flushFinish (reason : FinishReason) :
    (w.after sent).flushFinish reason = (w.flushFinish reason).after sent := by
  simp [Wire.flushFinish,Wire.push,Wire.after]

private theorem after_complete (response : ResponsesResponse) (reason : FinishReason) :
    (w.after sent).complete response reason = (w.complete response reason).after sent := by
  unfold Wire.complete
  exact after_flushFinish { w with usage := extractUsage response } sent _

/-- What has been handed out plays no part in the translation. -/
theorem after_mapEvent (event : ResponsesStreamEvent) :
    (w.after sent).mapEvent event = (w.mapEvent event).after sent := by
  by_cases hfinished : w.finished = true
  · simp [Wire.mapEvent,hfinished]
  · simp only [Wire.mapEvent,after_finished,hfinished]
    cases event with
    | outputItemAdded i item =>
      simp only [after_startBlock]
      split_ifs <;> rfl
    | reasoningSummaryPartAdded i partType =>
      simp only [after_startBlock]
      split_ifs <;> rfl
    | contentPartAdded i partType =>
      simp only [after_startBlock]
      split_ifs <;> rfl
    | reasoningSummaryTextDelta i fragment => exact after_delta w sent i _ _
    | reasoningTextDelta i fragment => exact after_delta w sent i _ _
    | outputTextDelta i fragment => exact after_delta w sent i _ _
    | functionCallArgumentsDelta i fragment => exact after_delta w sent i _ _
    | outputItemDone i item => exact after_endBlock w sent i _
    | contentPartDone i => exact after_endBlock w sent i _
    | completed response => exact after_complete w sent response _
    | incomplete response => exact after_complete w sent response _
    | failed response => exact after_flushFinish w sent _
    | error error => exact after_flushFinish w sent _
    | lifecycle => rfl
    | unknown => rfl

private theorem after_foldl (events : List ResponsesStreamEvent) :
    events.foldl Wire.mapEvent (w.after sent) = (events.foldl Wire.mapEvent w).after sent := by
  induction events generalizing w with
  | nil => rfl
  | cons event events ih => rw [List.foldl_cons,after_mapEvent,ih,List.foldl_cons]

/-- A piece without a malformed payload is a run over its events. -/
theorem consume_ok {w v : Wire} (messages : List Message) (h : w.consume messages = (none,v)) :
    v = (messages.filterMap Message.payload).foldl Wire.mapEvent w := by
  induction messages generalizing w with
  | nil =>
    cases h
    rfl
  | cons message rest ih =>
    by_cases hfinished : w.finished = true
    · simp only [Wire.consume,hfinished,if_true] at h
      cases h
      exact (foldl_mapEvent_finished hfinished _).symm
    · simp only [Wire.consume,hfinished] at h
      cases message with
      | blank => exact ih h
      | malformed => cases h
      | untyped => exact ih h
      | event event => exact ih h

/-- The pieces' chunks are those of one run over the events. -/
theorem feedAll_eq {w : Wire} (hnone : w.pendingChunks = []) (pieces : List (List Message)) :
    sent ++ w.feedAll pieces =
      ((heard w pieces).foldl Wire.mapEvent (w.after sent)).pendingChunks := by
  induction pieces generalizing w sent with
  | nil => simp [Wire.feedAll,heard,Wire.after,hnone]
  | cons piece rest ih =>
    rcases hconsume : w.consume piece with ⟨failure,v⟩
    cases failure with
    | some failure => simp [Wire.feedAll,heard,Wire.feed,hconsume,Wire.after,hnone]
    | none =>
      have hv := consume_ok piece hconsume
      have hrest := ih (sent ++ v.pendingChunks) (w := { v with pendingChunks := [] }) rfl
      have hsplit : v.after sent =
          Wire.after { v with pendingChunks := [] } (sent ++ v.pendingChunks) := by
        simp [Wire.after]
      have hrun : (piece.filterMap Message.payload).foldl Wire.mapEvent (w.after sent) =
          v.after sent := by
        rw [after_foldl,← hv]
      simp only [Wire.feedAll,heard,Wire.feed,hconsume]
      rw [List.foldl_append,hrun,hsplit,← hrest,List.append_assoc]

end pieces

/-! ## The response as it comes out -/

/-- Every event meets a trace that it does not disturb. -/
def UndisturbedRun (t : Trace) : List ResponsesStreamEvent → Prop
  | [] => True
  | event :: rest => Undisturbed t event = true ∧ UndisturbedRun (t.next event) rest

private theorem clean_foldl (events : List ResponsesStreamEvent) (t : Trace) :
    (events.foldl Trace.next t).clean = true ↔ t.clean = true ∧ UndisturbedRun t events := by
  induction events generalizing t with
  | nil => simp [UndisturbedRun]
  | cons event rest ih =>
    rw [List.foldl_cons,ih]
    simp [UndisturbedRun,Trace.next,and_assoc]

/-- The protocol's progress is the registry of the blocks. -/
theorem Sent.blocks_eq {w : Wire} {p : Progress} (h : Sent w p) (hregistry : Registry w) :
    p.blocks = w.blocks.map fun x => (x.2.kind,x.2.ended) := by
  refine List.ext_getElem (by simp [h.length]) fun i hi hi' => ?_
  have hlt : i < w.blocks.length := h.length ▸ hi
  have hindex : w.blocks[i].2.index = i := by
    have hat : (w.blocks.map fun x => x.2.index)[i]? = (List.range w.blocks.length)[i]? := by
      rw [hregistry.order]
    simpa [hlt] using hat
  have hblock := h.blocks w.blocks[i] (List.getElem_mem hlt)
  rw [hindex,List.getElem?_eq_getElem hi] at hblock
  simpa using hblock

/-- Whatever the pieces, the chunks follow the protocol, with one block for each output index in the
order in which these are first seen.  The content is kept and every block of a complete response
ended exactly if no event disturbed the run. -/
theorem translation_keeps_response (pieces : List (List Message)) :
    let t := (heard {} pieces).foldl Trace.next {}
    Wire.feedAll {} pieces = t.wire.pendingChunks ∧
    (∃ p, (Wire.feedAll {} pieces).foldlM accept {} = some p ∧
      p.blocks = (t.wire.blocks.map fun x => (x.2.kind,x.2.ended)) ∧
      (p.accounted = true → p.finished = true)) ∧
    (t.wire.blocks.map fun x => x.2.index) = List.range t.wire.blocks.length ∧
    t.wire.blocks.map Prod.fst = firstSeen (heard {} pieces) ∧
    (t.ends.map fun r => (r.index,r.block)) =
      (Wire.feedAll {} pieces).filterMap StreamChunk.ended ∧
    ((NothingDropped t ∧ EndsWhole t ∧ Closed t) ↔ UndisturbedRun {} (heard {} pieces)) := by
  intro t
  have h : Inv t := trace_inv _ Inv.init
  have hwire : t.wire = (heard {} pieces).foldl Wire.mapEvent {} := trace_wire _ _
  have hchunks : Wire.feedAll {} pieces = t.wire.pendingChunks := by
    have hall := feedAll_eq [] (w := {}) rfl pieces
    rw [hwire]
    exact hall
  rw [hchunks]
  refine ⟨rfl,?_,h.registry.order,?_,h.ends,?_⟩
  · obtain ⟨p,hp,hsent⟩ := h.sent
    refine ⟨p,hp,hsent.blocks_eq h.registry,fun haccounted => ?_⟩
    by_contra hlive
    have hopen : t.wire.finished = false := by
      rw [← hsent.finished]
      exact Bool.eq_false_iff.mpr hlive
    rw [hsent.accounted hopen] at haccounted
    cases haccounted
  · rw [hwire]
    exact keys_foldl rfl [] rfl (heard {} pieces)
  · rw [h.kept_iff,clean_foldl]
    exact and_iff_right rfl

/-- A message item with two content parts. -/
def twoParts : List ResponsesStreamEvent :=
  [.outputItemAdded 0 { type := some "message" },.contentPartAdded 0 (some "output_text"),
    .outputTextDelta 0 "a",.contentPartDone 0,.contentPartAdded 0 (some "output_text"),
    .outputTextDelta 0 "b",.contentPartDone 0,.outputItemDone 0 { type := some "message" },
    .completed {}]

/-- The text of the second part is lost. -/
theorem second_part_is_lost : ¬ ∀ pieces : List (List Message),
    let t := (heard {} pieces).foldl Trace.next {}
    NothingDropped t ∧ EndsWhole t ∧ Closed t := by
  intro h
  have hdropped := (h [twoParts.map Message.event]).1
  revert hdropped
  unfold NothingDropped
  decide

end Dominion.Llm.Glm
