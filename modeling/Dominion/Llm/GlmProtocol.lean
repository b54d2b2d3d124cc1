import Dominion.Llm.GlmWire
import Mathlib.Data.List.Basic
import Mathlib.Data.List.Nodup
import Mathlib.Data.List.Range

/-! # What the wire keeps of a response

The chunks follow the protocol whatever the provider sends.  Fragments are lost exactly if they
come for a block that has ended, and a response is complete with open blocks exactly if the
provider completes it so. -/
namespace Dominion.Llm.Glm

/-- The fragment of a delta event. -/
def ResponsesStreamEvent.fragment : ResponsesStreamEvent → Option (Int × BlockKind × String)
  | .reasoningSummaryTextDelta outputIndex fragment => some (outputIndex,.reasoning,fragment)
  | .reasoningTextDelta outputIndex fragment => some (outputIndex,.reasoning,fragment)
  | .outputTextDelta outputIndex fragment => some (outputIndex,.text,fragment)
  | .functionCallArgumentsDelta outputIndex fragment => some (outputIndex,.toolCall,fragment)
  | _ => none

/-- The block that an event ends, with the item that it carries. -/
def ResponsesStreamEvent.closing :
    ResponsesStreamEvent → Option (Int × Option ResponsesOutputItem)
  | .outputItemDone outputIndex item => some (outputIndex,some item)
  | .contentPartDone outputIndex => some (outputIndex,none)
  | _ => none

/-- The response has been completed. -/
def ResponsesStreamEvent.completes : ResponsesStreamEvent → Bool
  | .completed _ => true
  | .incomplete _ => true
  | _ => false

structure EndRecord where
  outputIndex : Int
  item : Option ResponsesOutputItem
  index : Nat
  block : ContentBlock
  deriving DecidableEq, Repr

/-- The arguments of an item. -/
def argumentsOf (item : Option ResponsesOutputItem) : String :=
  (item.bind ResponsesOutputItem.arguments).getD ""

/-- A wire with the fragments that it was fed before the finish and the blocks that it ended. -/
structure Trace where
  wire : Wire := {}
  fed : List (Int × BlockKind × String) := []
  ends : List EndRecord := []
  /-- All steps so far were undisturbed. -/
  clean : Bool := true
  deriving DecidableEq, Repr

/-- The fragments of a kind that were fed for an output index. -/
def fragments (fed : List (Int × BlockKind × String)) (outputIndex : Int) (kind : BlockKind) :
    List String :=
  fed.filterMap fun x => if x.1 = outputIndex ∧ x.2.1 = kind then some x.2.2 else none

/-- The fragments that were sent for a block. -/
def deltasOf (chunks : List StreamChunk) (index : Nat) : List String :=
  chunks.filterMap fun c => c.delta.bind fun d => if d.1 = index then some d.2.2 else none

/-- No fragment for a block of its kind that has ended, no arguments in an item whose fragments were
all empty, and no completion with an open block. -/
def Undisturbed (t : Trace) (event : ResponsesStreamEvent) : Bool :=
  t.wire.finished ||
  (event.fragment.all fun f => (t.wire.blockAt f.1).all fun b => !(b.ended && b.kind = f.2.1)) &&
  (event.closing.all fun c => (t.wire.blockAt c.1).all fun b =>
    b.ended || b.kind ≠ BlockKind.toolCall || b.text ≠ "" ||
      fragments t.fed c.1 .toolCall = [] || argumentsOf c.2 = "") &&
  (!event.completes || t.wire.blocks.all fun x => x.2.ended)

def Trace.next (t : Trace) (event : ResponsesStreamEvent) : Trace where
  wire := t.wire.mapEvent event
  fed := t.fed ++ if t.wire.finished then [] else event.fragment.toList
  ends := t.ends ++ event.closing.toList.flatMap fun c =>
    ((t.wire.mapEvent event).pendingChunks.drop t.wire.pendingChunks.length).filterMap fun chunk =>
      chunk.ended.map fun e => ⟨c.1,c.2,e.1,e.2⟩
  clean := t.clean && Undisturbed t event

/-- What the end of a block is to contain. -/
def whole (kind : BlockKind) (item : Option ResponsesOutputItem) (fragments : List String) :
    String :=
  if kind = .toolCall ∧ fragments = [] then argumentsOf item else String.join fragments

/-- Every fragment of a block's kind was sent. -/
def NothingDropped (t : Trace) : Prop :=
  ∀ x ∈ t.wire.blocks,
    deltasOf t.wire.pendingChunks x.2.index = fragments t.fed x.1 x.2.kind

/-- Every end contains the fragments of its block. -/
def EndsWhole (t : Trace) : Prop :=
  ∀ r ∈ t.ends, ∃ b, (r.outputIndex,b) ∈ t.wire.blocks ∧ b.index = r.index ∧
    r.block.kind = b.kind ∧ r.block.payload = whole b.kind r.item (fragments t.fed r.outputIndex b.kind)

/-- A complete response has no open block. -/
def Closed (t : Trace) : Prop :=
  ∀ reason, StreamChunk.finish reason ∈ t.wire.pendingChunks → reason.complete = true →
    ∀ x ∈ t.wire.blocks, ∃ block, StreamChunk.blockEnd x.2.index block ∈ t.wire.pendingChunks

/-! ## The registry of the blocks -/

structure Registry (w : Wire) : Prop where
  nodup : (w.blocks.map Prod.fst).Nodup
  next : w.nextIndex = w.blocks.length
  order : (w.blocks.map fun x => x.2.index) = List.range w.blocks.length

section registry

variable {w : Wire} {outputIndex : Int} {b b' : WireBlock}

theorem Registry.mem_of_blockAt (h : w.blockAt outputIndex = some b) :
    (outputIndex,b) ∈ w.blocks := by
  obtain ⟨e,he,rfl⟩ := Option.map_eq_some_iff.mp h
  have hkey : e.1 = outputIndex := by simpa using List.find?_some he
  have hmem := List.mem_of_find?_eq_some he
  rwa [← hkey]

theorem blockAt_eq_none : w.blockAt outputIndex = none ↔ ∀ x ∈ w.blocks, x.1 ≠ outputIndex := by
  simp [Wire.blockAt]

private theorem Registry.index_lt (h : Registry w) {x : Int × WireBlock} (hx : x ∈ w.blocks) :
    x.2.index < w.blocks.length := by
  have hmem : x.2.index ∈ w.blocks.map fun x => x.2.index := List.mem_map_of_mem hx
  rw [h.order] at hmem
  exact List.mem_range.mp hmem

private theorem Registry.index_inj (h : Registry w) {x y : Int × WireBlock} (hx : x ∈ w.blocks)
    (hy : y ∈ w.blocks) (he : x.2.index = y.2.index) : x = y := by
  have hnodup : (w.blocks.map fun x => x.2.index).Nodup := by
    rw [h.order]
    exact List.nodup_range
  exact List.inj_on_of_nodup_map hnodup hx hy he

private theorem Registry.key_inj (h : Registry w) {x y : Int × WireBlock} (hx : x ∈ w.blocks)
    (hy : y ∈ w.blocks) (he : x.1 = y.1) : x = y :=
  List.inj_on_of_nodup_map h.nodup hx hy he

private theorem Registry.mem_setBlock (h : Registry w) (hb : (outputIndex,b) ∈ w.blocks)
    {x : Int × WireBlock} : x ∈ (w.setBlock outputIndex b').blocks ↔
      x = (outputIndex,b') ∨ (x ∈ w.blocks ∧ x.2.index ≠ b.index) := by
  simp only [Wire.setBlock,List.mem_map]
  constructor
  · rintro ⟨y,hy,rfl⟩
    by_cases he : y.1 = outputIndex
    · rw [if_pos he,he]
      exact Or.inl rfl
    · rw [if_neg he]
      refine Or.inr ⟨hy,fun hi => he ?_⟩
      rw [h.index_inj hy hb hi]
  · rintro (rfl | ⟨hx,hne⟩)
    · exact ⟨(outputIndex,b),hb,if_pos rfl⟩
    · refine ⟨x,hx,if_neg fun he => hne ?_⟩
      rw [h.key_inj hx hb he]

private theorem Registry.setBlock (h : Registry w) (hb : (outputIndex,b) ∈ w.blocks)
    (hindex : b'.index = b.index) : Registry (w.setBlock outputIndex b') where
  nodup := by
    have hkeys : (w.setBlock outputIndex b').blocks.map Prod.fst = w.blocks.map Prod.fst := by
      simp only [Wire.setBlock,List.map_map]
      refine List.map_congr_left fun x _ => ?_
      simp only [Function.comp_apply]
      split <;> rfl
    rw [hkeys]
    exact h.nodup
  next := by simpa [Wire.setBlock] using h.next
  order := by
    have hindexes : ((w.setBlock outputIndex b').blocks.map fun x => x.2.index) =
        w.blocks.map fun x => x.2.index := by
      simp only [Wire.setBlock,List.map_map]
      refine List.map_congr_left fun x hx => ?_
      simp only [Function.comp_apply]
      split
      · rename_i he
        rw [h.key_inj hx hb he]
        exact hindex
      · rfl
    rw [hindexes,h.order]
    simp [Wire.setBlock]

end registry

/-! ## The invariant -/

/-- The progress of the chunks agrees with the registry. -/
structure Sent (w : Wire) (p : Progress) : Prop where
  length : p.blocks.length = w.blocks.length
  blocks : ∀ x ∈ w.blocks, p.blocks[x.2.index]? = some (x.2.kind,x.2.ended)
  finished : p.finished = w.finished
  accounted : w.finished = false → p.accounted = false

/-- A disturbed step has left its trace. -/
def Broken (t : Trace) : Prop :=
  (∃ x ∈ t.wire.blocks, x.2.ended = true ∧ ∃ late, late ≠ [] ∧
    fragments t.fed x.1 x.2.kind = deltasOf t.wire.pendingChunks x.2.index ++ late) ∨
  (∃ r ∈ t.ends, ∃ b, (r.outputIndex,b) ∈ t.wire.blocks ∧ b.ended = true ∧ b.kind = .toolCall ∧
    b.text = "" ∧ deltasOf t.wire.pendingChunks b.index ≠ [] ∧ r.block.payload ≠ "") ∨
  (∃ reason, StreamChunk.finish reason ∈ t.wire.pendingChunks ∧ reason.complete = true ∧
    ∃ x ∈ t.wire.blocks, x.2.ended = false)

structure Inv (t : Trace) : Prop where
  registry : Registry t.wire
  sent : ∃ p, t.wire.pendingChunks.foldlM accept {} = some p ∧ Sent t.wire p
  text : ∀ x ∈ t.wire.blocks, x.2.text = String.join (deltasOf t.wire.pendingChunks x.2.index)
  fresh : ∀ i, t.wire.blocks.length ≤ i → deltasOf t.wire.pendingChunks i = []
  unstarted : ∀ i, t.wire.blockAt i = none → ∀ kind, fragments t.fed i kind = []
  fed : ∀ x ∈ t.wire.blocks, ∃ late,
    fragments t.fed x.1 x.2.kind = deltasOf t.wire.pendingChunks x.2.index ++ late ∧
      (x.2.ended = false → late = []) ∧ (t.clean = true → late = [])
  ends : (t.ends.map fun r => (r.index,r.block)) =
    t.wire.pendingChunks.filterMap StreamChunk.ended
  record : ∀ r ∈ t.ends, ∃ b, (r.outputIndex,b) ∈ t.wire.blocks ∧ b.ended = true ∧
    b.index = r.index ∧ r.block.kind = b.kind ∧
    r.block.payload = (if b.kind = .toolCall ∧ b.text = "" then argumentsOf r.item else b.text) ∧
    (t.clean = true → b.kind = .toolCall → b.text = "" →
      deltasOf t.wire.pendingChunks b.index = [] ∨ argumentsOf r.item = "")
  ended : ∀ x ∈ t.wire.blocks, x.2.ended = true ↔
    ∃ block, StreamChunk.blockEnd x.2.index block ∈ t.wire.pendingChunks
  finish : ∀ reason, StreamChunk.finish reason ∈ t.wire.pendingChunks →
    t.wire.finished = true ∧
      (t.clean = true → reason.complete = true → ∀ x ∈ t.wire.blocks, x.2.ended = true)
  broken : t.clean = false → Broken t

section steps

variable {t : Trace} {outputIndex : Int} {kind : BlockKind} {b : WireBlock}
  {item : Option ResponsesOutputItem} {fragment : String}

private theorem deltasOf_append (chunks more : List StreamChunk) (i : Nat) :
    deltasOf (chunks ++ more) i = deltasOf chunks i ++ deltasOf more i := by
  simp [deltasOf]

private theorem fragments_append (fed more : List (Int × BlockKind × String)) (i : Int)
    (kind : BlockKind) : fragments (fed ++ more) i kind =
      fragments fed i kind ++ fragments more i kind := by
  simp [fragments]

private theorem foldlM_accept_append {chunks : List StreamChunk} {p p' : Progress}
    {chunk : StreamChunk}
    (h : chunks.foldlM accept {} = some p) (hchunk : accept p chunk = some p') :
    (chunks ++ [chunk]).foldlM accept {} = some p' := by
  rw [List.foldlM_append,h]
  simpa using hchunk

@[simp] theorem delta_deltaChunk (b : WireBlock) (fragment : String) :
    (deltaChunk b fragment).delta = some (b.index,b.kind,fragment) := by
  unfold deltaChunk
  cases b.kind <;> rfl

@[simp] theorem ended_deltaChunk (b : WireBlock) (fragment : String) :
    (deltaChunk b fragment).ended = none := by
  unfold deltaChunk
  cases b.kind <;> rfl

private theorem blockEnd_ne_deltaChunk (b : WireBlock) (fragment : String) (i : Nat)
    (block : ContentBlock) : StreamChunk.blockEnd i block ≠ deltaChunk b fragment := by
  unfold deltaChunk
  cases b.kind <;> simp

private theorem finish_ne_deltaChunk (b : WireBlock) (fragment : String) (reason : FinishReason) :
    StreamChunk.finish reason ≠ deltaChunk b fragment := by
  unfold deltaChunk
  cases b.kind <;> simp

private theorem accept_deltaChunk {p : Progress} (hfinished : p.finished = false)
    (haccounted : p.accounted = false) (hopen : p.blocks[b.index]? = some (b.kind,false)) :
    accept p (deltaChunk b fragment) = some p := by
  unfold deltaChunk
  cases hkind : b.kind <;> simp [accept,hfinished,haccounted,hopen,hkind]

@[simp] theorem assembledBlock_kind : (assembledBlock b item).kind = b.kind := by
  unfold assembledBlock
  cases b.kind <;> rfl

private theorem assembledBlock_payload : (assembledBlock b item).payload =
    if b.kind = .toolCall ∧ b.text = "" then argumentsOf item else b.text := by
  unfold assembledBlock
  cases b.kind with
  | reasoning => simp [ContentBlock.payload]
  | text => simp [ContentBlock.payload]
  | toolCall =>
    by_cases htext : b.text = ""
    · simp [ContentBlock.payload,htext,argumentsOf]
    · simp [ContentBlock.payload,htext]

/-- What a step before the finish leaves of the ended blocks keeps a disturbance visible. -/
theorem Broken.grow {t' : Trace} (h : Broken t)
    (hfinish : ∀ reason, StreamChunk.finish reason ∉ t.wire.pendingChunks)
    (hblocks : ∀ x ∈ t.wire.blocks, x.2.ended = true → x ∈ t'.wire.blocks ∧
      deltasOf t'.wire.pendingChunks x.2.index = deltasOf t.wire.pendingChunks x.2.index)
    (hfed : ∃ more, t'.fed = t.fed ++ more) (hends : ∀ r ∈ t.ends, r ∈ t'.ends) : Broken t' := by
  rcases h with ⟨x,hx,hended,late,hlate,hfragments⟩ | ⟨r,hr,b,hb,hended,hkind,htext,hdeltas,hpayload⟩ |
    ⟨reason,hreason,-⟩
  · obtain ⟨more,hmore⟩ := hfed
    obtain ⟨hx',hsame⟩ := hblocks x hx hended
    refine Or.inl ⟨x,hx',hended,late ++ fragments more x.1 x.2.kind,by simp [hlate],?_⟩
    rw [hmore,fragments_append,hfragments,hsame,List.append_assoc]
  · obtain ⟨hb',hsame⟩ := hblocks _ hb hended
    exact Or.inr (Or.inl ⟨r,hends r hr,b,hb',hended,hkind,htext,by rw [hsame]; exact hdeltas,
      hpayload⟩)
  · exact absurd hreason (hfinish reason)

private theorem Inv.no_finish (h : Inv t) (hfinished : t.wire.finished = false)
    (reason : FinishReason) :
    StreamChunk.finish reason ∉ t.wire.pendingChunks := by
  intro hmem
  rw [(h.finish reason hmem).1] at hfinished
  cases hfinished

/-- The block that a start registers. -/
def startedBlock (w : Wire) (kind : BlockKind) (item : Option ResponsesOutputItem) : WireBlock :=
  ⟨w.nextIndex,kind,item.bind ResponsesOutputItem.callId,item.bind ResponsesOutputItem.name,"",false⟩

theorem startBlock_eq (hfinished : t.wire.finished = false)
    (hnone : t.wire.blockAt outputIndex = none) :
    t.wire.startBlock outputIndex kind item = { t.wire with
      blocks := t.wire.blocks ++ [(outputIndex,startedBlock t.wire kind item)]
      nextIndex := t.wire.nextIndex + 1
      sawToolCall := t.wire.sawToolCall || decide (kind = BlockKind.toolCall)
      pendingChunks := t.wire.pendingChunks ++ [.blockStart t.wire.nextIndex kind] } := by
  unfold Wire.startBlock
  rw [if_neg (by simp [hfinished,hnone])]
  rfl

private theorem Inv.start (h : Inv t) (hfinished : t.wire.finished = false)
    (hnone : t.wire.blockAt outputIndex = none) (kind : BlockKind)
    (item : Option ResponsesOutputItem) :
    Inv { t with wire := t.wire.startBlock outputIndex kind item } := by
  rw [startBlock_eq hfinished hnone]
  have hkey : ∀ x ∈ t.wire.blocks, x.1 ≠ outputIndex := blockAt_eq_none.mp hnone
  have hdeltas : ∀ i, deltasOf (t.wire.pendingChunks ++ [.blockStart t.wire.nextIndex kind]) i =
      deltasOf t.wire.pendingChunks i := by
    intro i
    rw [deltasOf_append]
    simp [deltasOf,StreamChunk.delta]
  have hindex : (startedBlock t.wire kind item).index = t.wire.blocks.length := h.registry.next
  have hnew : deltasOf t.wire.pendingChunks (startedBlock t.wire kind item).index = [] :=
    h.fresh _ (by rw [hindex])
  refine ⟨⟨?_,?_,?_⟩,?_,?_,?_,?_,?_,?_,?_,?_,?_,?_⟩
  · have hfresh : outputIndex ∉ t.wire.blocks.map Prod.fst := by
      intro hmem
      obtain ⟨x,hx,he⟩ := List.mem_map.mp hmem
      exact hkey x hx he
    rw [List.map_append]
    exact List.nodup_append.mpr ⟨h.registry.nodup,by simp,by
      intro a ha c hc he
      obtain rfl := List.mem_singleton.mp hc
      exact hfresh (he ▸ ha)⟩
  · simp [h.registry.next]
  · rw [List.map_append,h.registry.order,List.length_append,List.length_singleton,
      List.range_succ]
    simp [hindex]
  · obtain ⟨p,hp,hsent⟩ := h.sent
    have hp' : accept p (.blockStart t.wire.nextIndex kind) =
        some { p with blocks := p.blocks ++ [(kind,false)] } := by
      simp [accept,hsent.finished,hfinished,hsent.accounted hfinished,hsent.length,h.registry.next]
    refine ⟨_,foldlM_accept_append hp hp',?_,fun x hx => ?_,hsent.finished,hsent.accounted⟩
    · simp [hsent.length]
    · rcases List.mem_append.mp hx with hold | hlast
      · have hlt := h.registry.index_lt hold
        rw [← hsent.length] at hlt
        rw [List.getElem?_append_left hlt]
        exact hsent.blocks x hold
      · obtain rfl := List.mem_singleton.mp hlast
        simp [startedBlock,h.registry.next,← hsent.length]
  · intro x hx
    rw [hdeltas]
    rcases List.mem_append.mp hx with hold | hlast
    · exact h.text x hold
    · obtain rfl := List.mem_singleton.mp hlast
      rw [hnew]
      simp [startedBlock]
  · intro i hi
    rw [hdeltas]
    exact h.fresh i (Nat.le_of_succ_le (by simpa using hi))
  · intro i hi kind'
    have hold := blockAt_eq_none.mp hi
    exact h.unstarted i (blockAt_eq_none.mpr fun x hx => hold x (List.mem_append_left _ hx)) kind'
  · intro x hx
    rw [hdeltas]
    rcases List.mem_append.mp hx with hold | hlast
    · exact h.fed x hold
    · obtain rfl := List.mem_singleton.mp hlast
      refine ⟨[],?_,fun _ => rfl,fun _ => rfl⟩
      rw [h.unstarted outputIndex hnone,hnew]
      rfl
  · rw [List.filterMap_append,← h.ends]
    simp [StreamChunk.ended]
  · intro r hr
    obtain ⟨b,hb,hended,hi,hkind,hpayload,hclean⟩ := h.record r hr
    exact ⟨b,List.mem_append_left _ hb,hended,hi,hkind,hpayload,by rwa [hdeltas]⟩
  · intro x hx
    rcases List.mem_append.mp hx with hold | hlast
    · rw [h.ended x hold]
      simp
    · obtain rfl := List.mem_singleton.mp hlast
      refine iff_of_false (by simp [startedBlock]) ?_
      rintro ⟨block,hblock⟩
      have hmem : StreamChunk.blockEnd (startedBlock t.wire kind item).index block ∈
          t.wire.pendingChunks := by simpa using hblock
      have hended : ((startedBlock t.wire kind item).index,block) ∈
          t.wire.pendingChunks.filterMap StreamChunk.ended :=
        List.mem_filterMap.mpr ⟨_,hmem,rfl⟩
      rw [← h.ends] at hended
      obtain ⟨r,hr,he⟩ := List.mem_map.mp hended
      obtain ⟨b,hb,-,hi,-⟩ := h.record r hr
      have hlt := h.registry.index_lt hb
      have hidx : r.index = (startedBlock t.wire kind item).index := congrArg Prod.fst he
      have hlt' : b.index < t.wire.blocks.length := hlt
      omega
  · intro reason hreason
    have hmem : StreamChunk.finish reason ∈ t.wire.pendingChunks := by simpa using hreason
    exact absurd hmem (h.no_finish hfinished reason)
  · intro hclean
    refine (h.broken hclean).grow (h.no_finish hfinished) (fun x hx _ => ?_) ⟨[],by simp⟩
      fun r hr => hr
    exact ⟨List.mem_append_left _ hx,hdeltas _⟩

/-- A fragment for an open block of its kind. -/
theorem Inv.append (h : Inv t) (hfinished : t.wire.finished = false)
    (hb : (outputIndex,b) ∈ t.wire.blocks) (hopen : b.ended = false) (fragment : String) :
    Inv { t with
      wire := (t.wire.setBlock outputIndex { b with text := b.text ++ fragment }).push
        [deltaChunk b fragment]
      fed := t.fed ++ [(outputIndex,b.kind,fragment)] } := by
  let b' : WireBlock := { b with text := b.text ++ fragment }
  have hmem : ∀ x, x ∈ (t.wire.setBlock outputIndex b').blocks ↔
      x = (outputIndex,b') ∨ (x ∈ t.wire.blocks ∧ x.2.index ≠ b.index) :=
    fun x => h.registry.mem_setBlock hb
  have hlength : (t.wire.setBlock outputIndex b').blocks.length = t.wire.blocks.length := by
    simp [Wire.setBlock]
  have hregistry : Registry (t.wire.setBlock outputIndex b') := h.registry.setBlock hb rfl
  have hdeltas : ∀ i, deltasOf (t.wire.pendingChunks ++ [deltaChunk b fragment]) i =
      deltasOf t.wire.pendingChunks i ++ if b.index = i then [fragment] else [] := by
    intro i
    rw [deltasOf_append]
    by_cases hi : b.index = i
    · simp [deltasOf,hi]
    · simp [deltasOf,hi]
  have hfragments : ∀ i kind, fragments (t.fed ++ [(outputIndex,b.kind,fragment)]) i kind =
      fragments t.fed i kind ++ if outputIndex = i ∧ b.kind = kind then [fragment] else [] := by
    intro i kind
    rw [fragments_append]
    by_cases hi : outputIndex = i ∧ b.kind = kind
    · simp [fragments,hi]
    · simp [fragments,hi]
  have hother : ∀ x ∈ t.wire.blocks, x.2.index ≠ b.index → x.1 ≠ outputIndex := by
    intro x hx hne he
    exact hne (congrArg (fun x => x.2.index) (h.registry.key_inj hx hb he))
  refine ⟨⟨hregistry.nodup,hregistry.next,hregistry.order⟩,?_,?_,?_,?_,?_,?_,?_,?_,?_,?_⟩
  · obtain ⟨p,hp,hsent⟩ := h.sent
    have hopen' : p.blocks[b.index]? = some (b.kind,false) := hopen ▸ hsent.blocks _ hb
    refine ⟨p,foldlM_accept_append hp (accept_deltaChunk (hsent.finished.trans hfinished)
      (hsent.accounted hfinished) hopen'),⟨hsent.length.trans hlength.symm,fun x hx => ?_,
      hsent.finished,hsent.accounted⟩⟩
    rcases (hmem x).mp hx with rfl | ⟨hold,-⟩
    · exact hsent.blocks (outputIndex,b) hb
    · exact hsent.blocks x hold
  · intro x hx
    show x.2.text = String.join (deltasOf (t.wire.pendingChunks ++ [deltaChunk b fragment]) x.2.index)
    rw [hdeltas]
    rcases (hmem x).mp hx with rfl | ⟨hold,hne⟩
    · have htext : b.text = String.join (deltasOf t.wire.pendingChunks b.index) := h.text _ hb
      simp [b',htext,String.join_append,String.join_cons]
    · rw [if_neg (Ne.symm hne),List.append_nil]
      exact h.text x hold
  · intro i hi
    show deltasOf (t.wire.pendingChunks ++ [deltaChunk b fragment]) i = []
    have hle : t.wire.blocks.length ≤ i := hlength ▸ hi
    have hne : b.index ≠ i := Nat.ne_of_lt (Nat.lt_of_lt_of_le (h.registry.index_lt hb) hle)
    rw [hdeltas,h.fresh i hle,if_neg hne]
    rfl
  · intro i hi kind
    have hnone : ∀ x ∈ (t.wire.setBlock outputIndex b').blocks, x.1 ≠ i := blockAt_eq_none.mp hi
    have hne : outputIndex ≠ i := hnone _ ((hmem _).mpr (Or.inl rfl))
    have hold : t.wire.blockAt i = none := by
      refine blockAt_eq_none.mpr fun x hx he => ?_
      by_cases hx' : x.2.index = b.index
      · have hxb := h.registry.index_inj hx hb hx'
        rw [hxb] at he
        exact hne he
      · exact hnone x ((hmem x).mpr (Or.inr ⟨hx,hx'⟩)) he
    rw [hfragments,h.unstarted i hold,if_neg fun hand => hne hand.1]
    rfl
  · intro x hx
    show ∃ late, fragments (t.fed ++ [(outputIndex,b.kind,fragment)]) x.1 x.2.kind =
      deltasOf (t.wire.pendingChunks ++ [deltaChunk b fragment]) x.2.index ++ late ∧ _
    rw [hfragments,hdeltas]
    rcases (hmem x).mp hx with rfl | ⟨hold,hne⟩
    · obtain ⟨late,hlate,hnil,-⟩ := h.fed _ hb
      refine ⟨[],?_,fun _ => rfl,fun _ => rfl⟩
      have hlate' : fragments t.fed outputIndex b.kind =
          deltasOf t.wire.pendingChunks b.index ++ late := hlate
      rw [if_pos ⟨rfl,rfl⟩,if_pos rfl,hlate',hnil hopen,List.append_nil,List.append_nil]
    · rw [if_neg fun hand => hother x hold hne hand.1.symm,if_neg (Ne.symm hne),List.append_nil,
        List.append_nil]
      exact h.fed x hold
  · show _ = (t.wire.pendingChunks ++ [deltaChunk b fragment]).filterMap StreamChunk.ended
    rw [List.filterMap_append,← h.ends]
    simp
  · intro r hr
    obtain ⟨c,hc,hended,hi,hkind,hpayload,hclean⟩ := h.record r hr
    have hne : c.index ≠ b.index := by
      intro he
      have hcb := h.registry.index_inj hc hb he
      have hcb' : c = b := congrArg Prod.snd hcb
      rw [hcb',hopen] at hended
      cases hended
    refine ⟨c,(hmem _).mpr (Or.inr ⟨hc,hne⟩),hended,hi,hkind,hpayload,fun hcl hk ht => ?_⟩
    show deltasOf (t.wire.pendingChunks ++ [deltaChunk b fragment]) c.index = [] ∨ _
    rw [hdeltas,if_neg (Ne.symm hne),List.append_nil]
    exact hclean hcl hk ht
  · intro x hx
    have hsame : ∀ i, (∃ block, StreamChunk.blockEnd i block ∈
        t.wire.pendingChunks ++ [deltaChunk b fragment]) ↔
        ∃ block, StreamChunk.blockEnd i block ∈ t.wire.pendingChunks := by
      intro i
      simp [blockEnd_ne_deltaChunk]
    show _ ↔ ∃ block, StreamChunk.blockEnd x.2.index block ∈
      t.wire.pendingChunks ++ [deltaChunk b fragment]
    rw [hsame]
    rcases (hmem x).mp hx with rfl | ⟨hold,-⟩
    · exact h.ended (outputIndex,b) hb
    · exact h.ended x hold
  · intro reason hreason
    have hreason' : StreamChunk.finish reason ∈ t.wire.pendingChunks ++ [deltaChunk b fragment] :=
      hreason
    rcases List.mem_append.mp hreason' with hold | hlast
    · exact absurd hold (h.no_finish hfinished reason)
    · exact absurd (List.mem_singleton.mp hlast) (finish_ne_deltaChunk b fragment reason)
  · intro hclean
    refine (h.broken hclean).grow (h.no_finish hfinished) (fun x hx hended => ?_) ⟨_,rfl⟩
      fun r hr => hr
    have hne : x.2.index ≠ b.index := by
      intro he
      rw [h.registry.index_inj hx hb he,hopen] at hended
      cases hended
    refine ⟨(hmem x).mpr (Or.inr ⟨hx,hne⟩),?_⟩
    show deltasOf (t.wire.pendingChunks ++ [deltaChunk b fragment]) x.2.index = _
    rw [hdeltas,if_neg (Ne.symm hne),List.append_nil]

/-- A fragment that is dropped: its block has ended or is of another kind. -/
theorem Inv.drop (h : Inv t) (hfinished : t.wire.finished = false)
    (hb : (outputIndex,b) ∈ t.wire.blocks) (hdropped : b.ended = true ∨ b.kind ≠ kind)
    (fragment : String) :
    Inv { t with
      fed := t.fed ++ [(outputIndex,kind,fragment)]
      clean := t.clean && !(b.ended && b.kind = kind) } := by
  have hfragments : ∀ i k, fragments (t.fed ++ [(outputIndex,kind,fragment)]) i k =
      fragments t.fed i k ++ if outputIndex = i ∧ kind = k then [fragment] else [] := by
    intro i k
    rw [fragments_append]
    by_cases hi : outputIndex = i ∧ kind = k
    · simp [fragments,hi]
    · simp [fragments,hi]
  refine ⟨h.registry,h.sent,h.text,h.fresh,fun i hi k => ?_,fun x hx => ?_,h.ends,fun r hr => ?_,
    h.ended,fun reason hreason => ?_,fun hclean => ?_⟩
  · have hne : outputIndex ≠ i := blockAt_eq_none.mp hi _ hb
    rw [hfragments,h.unstarted i hi,if_neg fun hand => hne hand.1]
    rfl
  · obtain ⟨late,hlate,hopen,hclean⟩ := h.fed x hx
    show ∃ late, fragments (t.fed ++ [(outputIndex,kind,fragment)]) x.1 x.2.kind = _ ++ late ∧ _
    rw [hfragments]
    by_cases hi : outputIndex = x.1 ∧ kind = x.2.kind
    · rw [if_pos hi,hlate]
      have hxb : x = (outputIndex,b) := h.registry.key_inj hx hb hi.1.symm
      have hkind : b.kind = kind := by rw [hi.2,hxb]
      have hended : b.ended = true := hdropped.resolve_right (not_not.mpr hkind)
      refine ⟨late ++ [fragment],List.append_assoc .. ,fun hopen' => ?_,fun hcl => ?_⟩
      · rw [hxb] at hopen'
        rw [hended] at hopen'
        cases hopen'
      · simp [hended,hkind] at hcl
    · rw [if_neg hi,List.append_nil]
      exact ⟨late,hlate,hopen,fun hcl => hclean (Bool.and_eq_true_iff.mp hcl).1⟩
  · obtain ⟨c,hc,hended,hi,hkind,hpayload,hclean⟩ := h.record r hr
    exact ⟨c,hc,hended,hi,hkind,hpayload,fun hcl => hclean (Bool.and_eq_true_iff.mp hcl).1⟩
  · exact absurd hreason (h.no_finish hfinished reason)
  · rcases Bool.and_eq_false_iff.mp hclean with hold | hnew
    · exact (h.broken hold).grow (h.no_finish hfinished) (fun x hx _ => ⟨hx,rfl⟩) ⟨_,rfl⟩
        fun r hr => hr
    · have hboth : b.ended = true ∧ b.kind = kind := by simpa using hnew
      obtain ⟨late,hlate,-,-⟩ := h.fed _ hb
      refine Or.inl ⟨(outputIndex,b),hb,hboth.1,late ++ [fragment],by simp,?_⟩
      show fragments (t.fed ++ [(outputIndex,kind,fragment)]) outputIndex b.kind = _
      rw [hfragments,if_pos ⟨rfl,hboth.2.symm⟩,hlate,List.append_assoc]

/-- The end of an open block. -/
theorem Inv.close (h : Inv t) (hfinished : t.wire.finished = false)
    (hb : (outputIndex,b) ∈ t.wire.blocks) (hopen : b.ended = false)
    (item : Option ResponsesOutputItem) :
    Inv { wire := (t.wire.setBlock outputIndex { b with ended := true }).push
            [.blockEnd b.index (assembledBlock b item)]
          fed := t.fed
          ends := t.ends ++ [⟨outputIndex,item,b.index,assembledBlock b item⟩]
          clean := t.clean && (b.kind ≠ BlockKind.toolCall || b.text ≠ "" ||
            fragments t.fed outputIndex .toolCall = [] || argumentsOf item = "") } := by
  let b' : WireBlock := { b with ended := true }
  have hmem : ∀ x, x ∈ (t.wire.setBlock outputIndex b').blocks ↔
      x = (outputIndex,b') ∨ (x ∈ t.wire.blocks ∧ x.2.index ≠ b.index) :=
    fun x => h.registry.mem_setBlock hb
  have hlength : (t.wire.setBlock outputIndex b').blocks.length = t.wire.blocks.length := by
    simp [Wire.setBlock]
  have hregistry : Registry (t.wire.setBlock outputIndex b') := h.registry.setBlock hb rfl
  have hdeltas : ∀ i, deltasOf (t.wire.pendingChunks ++
      [.blockEnd b.index (assembledBlock b item)]) i = deltasOf t.wire.pendingChunks i := by
    intro i
    rw [deltasOf_append]
    simp [deltasOf,StreamChunk.delta]
  have hsent' : deltasOf t.wire.pendingChunks b.index = fragments t.fed outputIndex b.kind := by
    obtain ⟨late,hlate,hnil,-⟩ := h.fed _ hb
    have hlate' : fragments t.fed outputIndex b.kind =
      deltasOf t.wire.pendingChunks b.index ++ late := hlate
    rw [hlate',hnil hopen,List.append_nil]
  have hkept : ∀ x ∈ t.wire.blocks, x.2.ended = true →
      x ∈ (t.wire.setBlock outputIndex b').blocks := by
    intro x hx hended
    refine (hmem x).mpr (Or.inr ⟨hx,fun he => ?_⟩)
    rw [h.registry.index_inj hx hb he,hopen] at hended
    cases hended
  refine ⟨⟨hregistry.nodup,hregistry.next,hregistry.order⟩,?_,?_,?_,?_,?_,?_,?_,?_,?_,?_⟩
  · obtain ⟨p,hp,hsent⟩ := h.sent
    have hopen' : p.blocks[b.index]? = some (b.kind,false) := hopen ▸ hsent.blocks _ hb
    have hlt : b.index < p.blocks.length := hsent.length ▸ h.registry.index_lt hb
    have hp' : accept p (.blockEnd b.index (assembledBlock b item)) =
        some { p with blocks := p.blocks.set b.index (b.kind,true) } := by
      simp [accept,hsent.finished,hfinished,hsent.accounted hfinished,hopen']
    refine ⟨_,foldlM_accept_append hp hp',?_,fun x hx => ?_,hsent.finished,hsent.accounted⟩
    · exact (List.length_set ..).trans (hsent.length.trans hlength.symm)
    · show (p.blocks.set b.index (b.kind,true))[x.2.index]? = _
      rcases (hmem x).mp hx with rfl | ⟨hold,hne⟩
      · exact List.getElem?_set_self hlt
      · rw [List.getElem?_set_ne (Ne.symm hne)]
        exact hsent.blocks x hold
  · intro x hx
    show x.2.text = String.join (deltasOf (t.wire.pendingChunks ++ _) x.2.index)
    rw [hdeltas]
    rcases (hmem x).mp hx with rfl | ⟨hold,-⟩
    · exact h.text (outputIndex,b) hb
    · exact h.text x hold
  · intro i hi
    show deltasOf (t.wire.pendingChunks ++ _) i = []
    rw [hdeltas]
    exact h.fresh i (hlength ▸ hi)
  · intro i hi kind
    have hnone : ∀ x ∈ (t.wire.setBlock outputIndex b').blocks, x.1 ≠ i := blockAt_eq_none.mp hi
    refine h.unstarted i (blockAt_eq_none.mpr fun x hx he => ?_) kind
    by_cases hx' : x.2.index = b.index
    · have hxb := h.registry.index_inj hx hb hx'
      rw [hxb] at he
      exact hnone _ ((hmem _).mpr (Or.inl rfl)) he
    · exact hnone x ((hmem x).mpr (Or.inr ⟨hx,hx'⟩)) he
  · intro x hx
    show ∃ late, fragments t.fed x.1 x.2.kind = deltasOf (t.wire.pendingChunks ++ _) x.2.index ++
      late ∧ _
    rw [hdeltas]
    rcases (hmem x).mp hx with rfl | ⟨hold,-⟩
    · refine ⟨[],?_,fun _ => rfl,fun _ => rfl⟩
      rw [List.append_nil]
      exact hsent'.symm
    · obtain ⟨late,hlate,hnil,hclean⟩ := h.fed x hold
      exact ⟨late,hlate,hnil,fun hcl => hclean (Bool.and_eq_true_iff.mp hcl).1⟩
  · show _ = (t.wire.pendingChunks ++ [StreamChunk.blockEnd b.index (assembledBlock b item)]).filterMap
      StreamChunk.ended
    rw [List.filterMap_append,← h.ends]
    simp [StreamChunk.ended]
  · intro r hr
    show ∃ c, (r.outputIndex,c) ∈ (t.wire.setBlock outputIndex b').blocks ∧ _
    rcases List.mem_append.mp hr with hold | hlast
    · obtain ⟨c,hc,hended,hi,hkind,hpayload,hclean⟩ := h.record r hold
      refine ⟨c,hkept _ hc hended,hended,hi,hkind,hpayload,fun hcl hk ht => ?_⟩
      show deltasOf (t.wire.pendingChunks ++ _) c.index = [] ∨ _
      rw [hdeltas]
      exact hclean (Bool.and_eq_true_iff.mp hcl).1 hk ht
    · obtain rfl := List.mem_singleton.mp hlast
      refine ⟨b',(hmem _).mpr (Or.inl rfl),rfl,rfl,assembledBlock_kind,assembledBlock_payload,
        fun hcl hk ht => ?_⟩
      show deltasOf (t.wire.pendingChunks ++ _) b.index = [] ∨ argumentsOf item = ""
      have hk' : b.kind = .toolCall := hk
      have ht' : b.text = "" := ht
      have hdone := (Bool.and_eq_true_iff.mp hcl).2
      rw [hdeltas,hsent',hk']
      simpa [hk',ht'] using hdone
  · intro x hx
    show _ ↔ ∃ block, StreamChunk.blockEnd x.2.index block ∈
      t.wire.pendingChunks ++ [StreamChunk.blockEnd b.index (assembledBlock b item)]
    rcases (hmem x).mp hx with rfl | ⟨hold,hne⟩
    · exact iff_of_true rfl ⟨assembledBlock b item,by simp [b']⟩
    · rw [h.ended x hold]
      simp [hne]
  · intro reason hreason
    have hreason' : StreamChunk.finish reason ∈ t.wire.pendingChunks ++
      [.blockEnd b.index (assembledBlock b item)] := hreason
    have hmem' : StreamChunk.finish reason ∈ t.wire.pendingChunks := by simpa using hreason'
    exact absurd hmem' (h.no_finish hfinished reason)
  · intro hclean
    rcases Bool.and_eq_false_iff.mp hclean with hold | hnew
    · exact (h.broken hold).grow (h.no_finish hfinished)
        (fun x hx hended => ⟨hkept x hx hended,hdeltas _⟩) ⟨[],by simp⟩
        fun r hr => List.mem_append_left _ hr
    · have hall : ((b.kind = .toolCall ∧ b.text = "") ∧
          fragments t.fed outputIndex .toolCall ≠ []) ∧ argumentsOf item ≠ "" := by
        simpa using hnew
      obtain ⟨⟨⟨hkind,htext⟩,hfragments⟩,harguments⟩ := hall
      refine Or.inr (Or.inl ⟨⟨outputIndex,item,b.index,assembledBlock b item⟩,by simp,b',
        (hmem _).mpr (Or.inl rfl),rfl,hkind,htext,?_,?_⟩)
      · show deltasOf (t.wire.pendingChunks ++ _) b.index ≠ []
        rw [hdeltas,hsent',hkind]
        exact hfragments
      · show (assembledBlock b item).payload ≠ ""
        rw [assembledBlock_payload,if_pos ⟨hkind,htext⟩]
        exact harguments

/-- The usage, if there is one, and the finish. -/
theorem Inv.flush (h : Inv t) (hfinished : t.wire.finished = false) {w : Wire}
    (hblocks : w.blocks = t.wire.blocks) (hnext : w.nextIndex = t.wire.nextIndex)
    (hchunks : w.pendingChunks = t.wire.pendingChunks) (reason : FinishReason) (disturbed : Bool)
    (hdisturbed : disturbed = true ↔
      reason.complete = true ∧ ∃ x ∈ t.wire.blocks, x.2.ended = false) :
    Inv { t with wire := w.flushFinish reason, clean := t.clean && !disturbed } := by
  have hpending : (w.flushFinish reason).pendingChunks = t.wire.pendingChunks ++
      (w.usage.toList.map StreamChunk.usage ++ [.finish reason]) := by
    rw [← hchunks]
    rfl
  have hblocks' : (w.flushFinish reason).blocks = t.wire.blocks := hblocks
  have hdeltas : ∀ i, deltasOf (w.flushFinish reason).pendingChunks i =
      deltasOf t.wire.pendingChunks i := by
    intro i
    rw [hpending,deltasOf_append]
    cases w.usage <;> simp [deltasOf,StreamChunk.delta]
  have hends : ∀ i block, StreamChunk.blockEnd i block ∈ (w.flushFinish reason).pendingChunks ↔
      StreamChunk.blockEnd i block ∈ t.wire.pendingChunks := by
    intro i block
    rw [hpending]
    simp
  have hlast : ∀ reason', StreamChunk.finish reason' ∈ (w.flushFinish reason).pendingChunks →
      reason' = reason := by
    intro reason' hmem
    rw [hpending] at hmem
    rcases List.mem_append.mp hmem with hold | hnew
    · exact absurd hold (h.no_finish hfinished reason')
    · simpa using hnew
  have hold : ∀ {c : Bool}, (t.clean && c) = true → t.clean = true :=
    fun hcl => (Bool.and_eq_true_iff.mp hcl).1
  refine ⟨⟨?_,?_,?_⟩,?_,?_,?_,?_,?_,?_,?_,?_,?_,?_⟩
  · exact hblocks'.symm ▸ h.registry.nodup
  · exact hnext.trans (h.registry.next.trans (congrArg List.length hblocks').symm)
  · exact hblocks'.symm ▸ h.registry.order
  · obtain ⟨p,hp,hsent⟩ := h.sent
    have hp' : ∃ p', (w.usage.toList.map StreamChunk.usage ++ [StreamChunk.finish reason]).foldlM
        accept p = some p' ∧ p'.blocks = p.blocks ∧ p'.finished = true := by
      cases w.usage <;>
        simp [accept,hsent.finished,hfinished,hsent.accounted hfinished]
    obtain ⟨p',hfold,hsame,hdone⟩ := hp'
    refine ⟨p',?_,?_,fun x hx => ?_,hdone,fun hnot => by cases hnot⟩
    · show List.foldlM accept {} (w.flushFinish reason).pendingChunks = some p'
      rw [hpending,List.foldlM_append,hp]
      exact hfold
    · exact (congrArg List.length hsame).trans (hsent.length.trans (congrArg _ hblocks').symm)
    · rw [hsame]
      exact hsent.blocks x (hblocks' ▸ hx)
  · intro x hx
    show x.2.text = String.join (deltasOf (w.flushFinish reason).pendingChunks x.2.index)
    rw [hdeltas]
    exact h.text x (hblocks' ▸ hx)
  · intro i hi
    show deltasOf (w.flushFinish reason).pendingChunks i = []
    rw [hdeltas]
    exact h.fresh i (hblocks' ▸ hi)
  · intro i hi kind
    have hnone : ∀ x ∈ t.wire.blocks, x.1 ≠ i := hblocks' ▸ blockAt_eq_none.mp hi
    exact h.unstarted i (blockAt_eq_none.mpr hnone) kind
  · intro x hx
    obtain ⟨late,hlate,hnil,hclean⟩ := h.fed x (hblocks' ▸ hx)
    show ∃ late, _ = deltasOf (w.flushFinish reason).pendingChunks x.2.index ++ late ∧ _
    rw [hdeltas]
    exact ⟨late,hlate,hnil,fun hcl => hclean (hold hcl)⟩
  · show _ = (w.flushFinish reason).pendingChunks.filterMap StreamChunk.ended
    rw [hpending,List.filterMap_append,← h.ends]
    cases w.usage <;> simp [StreamChunk.ended]
  · intro r hr
    obtain ⟨c,hc,hended,hi,hkind,hpayload,hclean⟩ := h.record r hr
    refine ⟨c,hblocks'.symm ▸ hc,hended,hi,hkind,hpayload,fun hcl => ?_⟩
    show _ → _ → deltasOf (w.flushFinish reason).pendingChunks c.index = [] ∨ _
    rw [hdeltas]
    exact hclean (hold hcl)
  · intro x hx
    rw [h.ended x (hblocks' ▸ hx)]
    exact exists_congr fun block => (hends x.2.index block).symm
  · intro reason' hreason
    refine ⟨rfl,fun hcl hcomplete x hx => ?_⟩
    rw [hlast reason' hreason] at hcomplete
    by_contra hopen
    have hbad : disturbed = true :=
      hdisturbed.mpr ⟨hcomplete,x,hblocks' ▸ hx,Bool.eq_false_iff.mpr hopen⟩
    have hgood := (Bool.and_eq_true_iff.mp hcl).2
    rw [hbad] at hgood
    cases hgood
  · intro hclean
    rcases Bool.and_eq_false_iff.mp hclean with hcl | hnew
    · exact (h.broken hcl).grow (h.no_finish hfinished)
        (fun x hx _ => ⟨hblocks'.symm ▸ hx,hdeltas _⟩) ⟨[],by simp⟩ fun r hr => hr
    · obtain ⟨hcomplete,x,hx,hopen⟩ := hdisturbed.mp (by simpa using hnew)
      refine Or.inr (Or.inr ⟨reason,?_,hcomplete,x,hblocks'.symm ▸ hx,hopen⟩)
      show StreamChunk.finish reason ∈ (w.flushFinish reason).pendingChunks
      rw [hpending]
      simp

private theorem Trace.next_finished (t : Trace) (event : ResponsesStreamEvent)
    (hfinished : t.wire.finished = true) : t.next event = t := by
  have hwire : t.wire.mapEvent event = t.wire := by
    unfold Wire.mapEvent
    exact if_pos hfinished
  have hnone : ∀ xs : List (Int × Option ResponsesOutputItem),
      xs.flatMap (fun _ => ([] : List EndRecord)) = [] := by simp
  simp [Trace.next,Undisturbed,hwire,hfinished,hnone]

/-- An event that neither brings a fragment nor ends or completes anything. -/
theorem Trace.next_quiet (t : Trace) {event : ResponsesStreamEvent} (hfragment : event.fragment = none)
    (hclosing : event.closing = none) (hcompletes : event.completes = false) :
    t.next event = { t with wire := t.wire.mapEvent event } := by
  simp [Trace.next,Undisturbed,hfragment,hclosing,hcompletes]

private theorem Inv.startBlock (h : Inv t) (hfinished : t.wire.finished = false) (outputIndex : Int)
    (kind : BlockKind) (item : Option ResponsesOutputItem) :
    Inv { t with wire := t.wire.startBlock outputIndex kind item } := by
  cases hat : t.wire.blockAt outputIndex with
  | none => exact h.start hfinished hat kind item
  | some b =>
    have hsame : t.wire.startBlock outputIndex kind item = t.wire := by
      simp [Wire.startBlock,hat]
    rw [hsame]
    exact h

private theorem Inv.delta (h : Inv t) (hfinished : t.wire.finished = false) (outputIndex : Int)
    (kind : BlockKind) (fragment : String) :
    Inv { t with
      wire := t.wire.delta outputIndex kind fragment
      fed := t.fed ++ [(outputIndex,kind,fragment)]
      clean := t.clean && (t.wire.blockAt outputIndex).all fun b => !(b.ended && b.kind = kind) } := by
  cases hat : t.wire.blockAt outputIndex with
  | none =>
    have hstarted := h.start hfinished hat kind none
    have hmem : (outputIndex,startedBlock t.wire kind none) ∈
        (t.wire.startBlock outputIndex kind none).blocks := by
      rw [startBlock_eq hfinished hat]
      simp
    have hlive : (t.wire.startBlock outputIndex kind none).finished = false := by
      rw [startBlock_eq hfinished hat]
      exact hfinished
    have hat' : (t.wire.startBlock outputIndex kind none).blockAt outputIndex =
        some (startedBlock t.wire kind none) := by
      have hnone : (t.wire.blocks.find? fun e => e.1 = outputIndex) = none :=
        Option.map_eq_none_iff.mp hat
      rw [startBlock_eq hfinished hat]
      simp [Wire.blockAt,hnone]
    have hdelta : t.wire.delta outputIndex kind fragment =
        ((t.wire.startBlock outputIndex kind none).setBlock outputIndex
          { startedBlock t.wire kind none with
            text := (startedBlock t.wire kind none).text ++ fragment }).push
          [deltaChunk (startedBlock t.wire kind none) fragment] := by
      simp [Wire.delta,hfinished,Wire.append,hat',startedBlock]
    rw [hdelta]
    have happended := hstarted.append hlive hmem rfl fragment
    simpa [startedBlock] using happended
  | some b =>
    have hb := Registry.mem_of_blockAt hat
    have hsame : t.wire.startBlock outputIndex kind none = t.wire := by
      simp [Wire.startBlock,hat]
    by_cases hdropped : b.ended = true ∨ b.kind ≠ kind
    · have hdelta : t.wire.delta outputIndex kind fragment = t.wire := by
        simp [Wire.delta,hfinished,Wire.append,hat,hsame,hdropped]
      rw [hdelta]
      exact h.drop hfinished hb hdropped fragment
    · have hopen : b.ended = false := Bool.eq_false_iff.mpr fun he => hdropped (Or.inl he)
      obtain rfl : b.kind = kind := by
        by_contra hne
        exact hdropped (Or.inr hne)
      have hdelta : t.wire.delta outputIndex b.kind fragment =
          (t.wire.setBlock outputIndex { b with text := b.text ++ fragment }).push
            [deltaChunk b fragment] := by
        simp [Wire.delta,hfinished,Wire.append,hat,hsame,hopen]
      rw [hdelta]
      have happended := h.append hfinished hb hopen fragment
      simpa [hopen] using happended

private theorem Inv.endBlock (h : Inv t) (hfinished : t.wire.finished = false)
    {event : ResponsesStreamEvent} (hclosing : event.closing = some (outputIndex,item))
    (hfragment : event.fragment = none) (hcompletes : event.completes = false)
    (hmap : t.wire.mapEvent event = t.wire.endBlock outputIndex item) : Inv (t.next event) := by
  have hsame : (∀ b, t.wire.blockAt outputIndex = some b → b.ended = true) →
      t.next event = t := by
    intro hended
    have hwire : t.wire.endBlock outputIndex item = t.wire := by
      unfold Wire.endBlock
      cases hat : t.wire.blockAt outputIndex with
      | none => simp
      | some b => simp [hended b hat]
    cases hat : t.wire.blockAt outputIndex with
    | none => simp [Trace.next,Undisturbed,hmap,hwire,hclosing,hfragment,hcompletes,hat]
    | some b =>
      simp [Trace.next,Undisturbed,hmap,hwire,hclosing,hfragment,hcompletes,hat,hended b hat]
  cases hat : t.wire.blockAt outputIndex with
  | none =>
    rw [hsame fun b hb => by rw [hat] at hb; cases hb]
    exact h
  | some b =>
    cases hended : b.ended with
    | true =>
      rw [hsame fun c hc => by rw [hat] at hc; cases hc; exact hended]
      exact h
    | false =>
      have hclosed := h.close hfinished (Registry.mem_of_blockAt hat) hended item
      have hend : t.wire.endBlock outputIndex item =
          (t.wire.setBlock outputIndex { b with ended := true }).push
            [.blockEnd b.index (assembledBlock b item)] := by
        simp [Wire.endBlock,hfinished,hat,hended]
      have hpushed : (t.wire.endBlock outputIndex item).pendingChunks =
          t.wire.pendingChunks ++ [.blockEnd b.index (assembledBlock b item)] := by
        rw [hend]
        rfl
      have hnext : t.next event =
          { wire := (t.wire.setBlock outputIndex { b with ended := true }).push
              [.blockEnd b.index (assembledBlock b item)]
            fed := t.fed
            ends := t.ends ++ [⟨outputIndex,item,b.index,assembledBlock b item⟩]
            clean := t.clean && (b.kind ≠ BlockKind.toolCall || b.text ≠ "" ||
              fragments t.fed outputIndex .toolCall = [] || argumentsOf item = "") } := by
        simp only [Trace.next,Undisturbed,hmap,hpushed]
        simp [hclosing,hfragment,hcompletes,hfinished,hat,hended,hend,StreamChunk.ended]
      rw [hnext]
      exact hclosed

/-- A terminal event. -/
theorem Inv.terminal (h : Inv t) (hfinished : t.wire.finished = false)
    {event : ResponsesStreamEvent} {w : Wire} {reason : FinishReason}
    (hmap : t.wire.mapEvent event = w.flushFinish reason)
    (hw : w.blocks = t.wire.blocks ∧ w.nextIndex = t.wire.nextIndex ∧
      w.pendingChunks = t.wire.pendingChunks)
    (hfragment : event.fragment = none) (hclosing : event.closing = none)
    (hcomplete : (event.completes = true ∧ t.wire.blocks ≠ []) ↔ reason.complete = true) :
    Inv (t.next event) := by
  have hnext : t.next event = { t with
      wire := w.flushFinish reason
      clean := t.clean && !(event.completes && !(t.wire.blocks.all fun x => x.2.ended)) } := by
    simp [Trace.next,Undisturbed,hmap,hfragment,hclosing,hfinished]
  rw [hnext]
  refine h.flush hfinished hw.1 hw.2.1 hw.2.2 reason _ ?_
  constructor
  · intro hdisturbed
    obtain ⟨hcompletes,hall⟩ := Bool.and_eq_true_iff.mp hdisturbed
    have hopen : ∃ x ∈ t.wire.blocks, x.2.ended = false := by simpa using hall
    obtain ⟨x,hx,hxopen⟩ := hopen
    exact ⟨hcomplete.mp ⟨hcompletes,List.ne_nil_of_mem hx⟩,x,hx,hxopen⟩
  · rintro ⟨hreason,x,hx,hxopen⟩
    have hall : (t.wire.blocks.all fun x => x.2.ended) = false := by
      rw [List.all_eq_false]
      exact ⟨x,hx,by simp [hxopen]⟩
    simp [(hcomplete.mpr hreason).1,hall]

private theorem complete_complete (blocks : List (Int × WireBlock)) {reason : FinishReason}
    (hreason : reason.complete = true) : blocks ≠ [] ↔
      (if blocks = [] then emptyCompletionFinish else reason).complete = true := by
  by_cases h : blocks = []
  · simp [h,emptyCompletionFinish,FinishReason.complete]
  · simp [h,hreason]

private theorem Inv.next (h : Inv t) (event : ResponsesStreamEvent) : Inv (t.next event) := by
  cases hfinished : t.wire.finished with
  | true =>
    rw [t.next_finished event hfinished]
    exact h
  | false =>
    have hdelta : ∀ outputIndex kind fragment,
        event.fragment = some (outputIndex,kind,fragment) →
        event.closing = none → event.completes = false →
        t.wire.mapEvent event = t.wire.delta outputIndex kind fragment → Inv (t.next event) := by
      intro outputIndex kind fragment hfragment hclosing hcompletes hmap
      have hfed := h.delta hfinished outputIndex kind fragment
      simpa [Trace.next,Undisturbed,hmap,hfragment,hclosing,hcompletes,hfinished] using hfed
    have hstart : ∀ outputIndex kind item,
        event.fragment = none → event.closing = none → event.completes = false →
        t.wire.mapEvent event = t.wire.startBlock outputIndex kind item → Inv (t.next event) := by
      intro outputIndex kind item hfragment hclosing hcompletes hmap
      rw [t.next_quiet hfragment hclosing hcompletes,hmap]
      exact h.startBlock hfinished outputIndex kind item
    have hquiet : event.fragment = none → event.closing = none → event.completes = false →
        t.wire.mapEvent event = t.wire → Inv (t.next event) := by
      intro hfragment hclosing hcompletes hmap
      rw [t.next_quiet hfragment hclosing hcompletes,hmap]
      exact h
    have hcomplete : ∀ response reason, event.completes = true → reason.complete = true →
        t.wire.mapEvent event = t.wire.complete response reason → Inv (t.next event) := by
      intro response reason hcompletes hreason hmap
      refine h.terminal hfinished hmap ⟨rfl,rfl,rfl⟩ ?_ ?_ ?_
      · cases event <;> first | rfl | cases hcompletes
      · cases event <;> first | rfl | cases hcompletes
      · rw [← complete_complete t.wire.blocks hreason]
        simp [hcompletes]
    have hfail : ∀ failure, event.fragment = none → event.closing = none →
        event.completes = false →
        t.wire.mapEvent event = t.wire.flushFinish (.error failure) → Inv (t.next event) := by
      intro failure hfragment hclosing hcompletes hmap
      refine h.terminal hfinished hmap ⟨rfl,rfl,rfl⟩ hfragment hclosing ?_
      simp [hcompletes,FinishReason.complete]
    cases event with
    | lifecycle => exact hquiet rfl rfl rfl (by simp [Wire.mapEvent])
    | unknown => exact hquiet rfl rfl rfl (by simp [Wire.mapEvent])
    | outputItemAdded outputIndex item =>
      by_cases hreasoning : item.type = some "reasoning"
      · exact hstart outputIndex .reasoning (some item) rfl rfl rfl
          (by simp [Wire.mapEvent,hfinished,hreasoning])
      by_cases hmessage : item.type = some "message"
      · exact hstart outputIndex .text (some item) rfl rfl rfl
          (by simp [Wire.mapEvent,hfinished,hmessage])
      by_cases hcall : item.type = some "function_call"
      · exact hstart outputIndex .toolCall (some item) rfl rfl rfl
          (by simp [Wire.mapEvent,hfinished,hcall])
      · exact hquiet rfl rfl rfl (by simp [Wire.mapEvent,hreasoning,hmessage,hcall])
    | reasoningSummaryPartAdded outputIndex partType =>
      by_cases hpart : partType = some "summary_text"
      · exact hstart outputIndex .reasoning none rfl rfl rfl
          (by simp [Wire.mapEvent,hfinished,hpart])
      · exact hquiet rfl rfl rfl (by simp [Wire.mapEvent,hpart])
    | contentPartAdded outputIndex partType =>
      by_cases hpart : partType = some "output_text"
      · exact hstart outputIndex .text none rfl rfl rfl
          (by simp [Wire.mapEvent,hfinished,hpart])
      · exact hquiet rfl rfl rfl (by simp [Wire.mapEvent,hpart])
    | reasoningSummaryTextDelta outputIndex fragment =>
      exact hdelta outputIndex .reasoning fragment rfl rfl rfl (by simp [Wire.mapEvent,hfinished])
    | reasoningTextDelta outputIndex fragment =>
      exact hdelta outputIndex .reasoning fragment rfl rfl rfl (by simp [Wire.mapEvent,hfinished])
    | outputTextDelta outputIndex fragment =>
      exact hdelta outputIndex .text fragment rfl rfl rfl (by simp [Wire.mapEvent,hfinished])
    | functionCallArgumentsDelta outputIndex fragment =>
      exact hdelta outputIndex .toolCall fragment rfl rfl rfl (by simp [Wire.mapEvent,hfinished])
    | outputItemDone outputIndex item =>
      exact h.endBlock hfinished rfl rfl rfl (by simp [Wire.mapEvent,hfinished])
    | contentPartDone outputIndex =>
      exact h.endBlock hfinished rfl rfl rfl (by simp [Wire.mapEvent,hfinished])
    | completed response =>
      have hreason : (if t.wire.sawToolCall then FinishReason.toolCalls
          else FinishReason.stop).complete = true := by
        cases t.wire.sawToolCall <;> rfl
      exact hcomplete response _ rfl hreason (by simp [Wire.mapEvent,hfinished])
    | incomplete response =>
      exact hcomplete response .maxTokens rfl rfl (by simp [Wire.mapEvent,hfinished])
    | failed response =>
      exact hfail (failureOf response.error) rfl rfl rfl (by simp [Wire.mapEvent,hfinished])
    | error error =>
      exact hfail (failureOf (some error)) rfl rfl rfl (by simp [Wire.mapEvent,hfinished])

end steps

/-! ## Runs -/

theorem trace_inv (events : List ResponsesStreamEvent) {t : Trace} (h : Inv t) :
    Inv (events.foldl Trace.next t) := by
  induction events generalizing t with
  | nil => exact h
  | cons event events ih => exact ih (h.next event)

theorem Inv.init : Inv {} where
  registry := ⟨List.nodup_nil,rfl,rfl⟩
  sent := ⟨{},rfl,rfl,fun x hx => (List.not_mem_nil hx).elim,rfl,fun _ => rfl⟩
  text := fun x hx => (List.not_mem_nil hx).elim
  fresh := fun _ _ => rfl
  unstarted := fun _ _ _ => rfl
  fed := fun x hx => (List.not_mem_nil hx).elim
  ends := rfl
  record := fun r hr => (List.not_mem_nil hr).elim
  ended := fun x hx => (List.not_mem_nil hx).elim
  finish := fun reason hreason => (List.not_mem_nil hreason).elim
  broken := fun hclean => by cases hclean

theorem trace_wire (events : List ResponsesStreamEvent) (t : Trace) :
    (events.foldl Trace.next t).wire = events.foldl Wire.mapEvent t.wire := by
  induction events generalizing t with
  | nil => rfl
  | cons event events ih => exact ih (t.next event)

/-- The content arrived and every block was ended exactly if every event was undisturbed. -/
theorem Inv.kept_iff {t : Trace} (h : Inv t) :
    (NothingDropped t ∧ EndsWhole t ∧ Closed t) ↔ t.clean = true := by
  constructor
  · rintro ⟨hdropped,hends,hclosed⟩
    by_contra hclean
    rcases h.broken (Bool.eq_false_iff.mpr hclean) with ⟨x,hx,-,late,hlate,hfragments⟩ |
      ⟨r,hr,b,hb,-,hkind,htext,hdeltas,hpayload⟩ | ⟨reason,hreason,hcomplete,x,hx,hopen⟩
    · have hall := hdropped x hx
      rw [hfragments] at hall
      exact hlate (List.self_eq_append_right.mp hall)
    · obtain ⟨c,hc,-,-,hwhole⟩ := hends r hr
      have hcb : c = b := congrArg Prod.snd (h.registry.key_inj hc hb rfl)
      have hall : deltasOf t.wire.pendingChunks b.index = fragments t.fed r.outputIndex b.kind :=
        hdropped (r.outputIndex,b) hb
      have htext' : b.text = String.join (deltasOf t.wire.pendingChunks b.index) :=
        h.text (r.outputIndex,b) hb
      rw [hcb,whole,← hall,if_neg (fun hand => hdeltas hand.2),← htext',htext] at hwhole
      exact hpayload hwhole
    · have hended := (h.ended x hx).mpr (hclosed reason hreason hcomplete x hx)
      rw [hopen] at hended
      cases hended
  · intro hclean
    have hall : NothingDropped t := by
      intro x hx
      obtain ⟨late,hlate,-,hnil⟩ := h.fed x hx
      rw [hlate,hnil hclean,List.append_nil]
    refine ⟨hall,fun r hr => ?_,fun reason hreason hcomplete x hx => ?_⟩
    · obtain ⟨b,hb,-,hindex,hkind,hpayload,hempty⟩ := h.record r hr
      have hfed : deltasOf t.wire.pendingChunks b.index = fragments t.fed r.outputIndex b.kind :=
        hall (r.outputIndex,b) hb
      have htext : b.text = String.join (fragments t.fed r.outputIndex b.kind) :=
        hfed ▸ h.text (r.outputIndex,b) hb
      refine ⟨b,hb,hindex,hkind,?_⟩
      rw [hpayload,whole,← htext]
      by_cases hcall : b.kind = .toolCall ∧ b.text = ""
      · rw [if_pos hcall]
        by_cases hnone : fragments t.fed r.outputIndex b.kind = []
        · rw [if_pos ⟨hcall.1,hnone⟩]
        · rw [if_neg fun hand => hnone hand.2,hcall.2]
          exact (hempty hclean hcall.1 hcall.2).resolve_left (hfed ▸ hnone)
      · rw [if_neg hcall,if_neg fun hand => hcall ⟨hand.1,by rw [htext,hand.2]; rfl⟩]
    · exact (h.ended x hx).mp ((h.finish reason hreason).2 hclean hcomplete x hx)

end Dominion.Llm.Glm
