import Dominion.Framework.Lts
import Dominion.Game.Runtime
import Mathlib.Algebra.GroupWithZero.Nat
import Mathlib.Data.List.Basic

/-! # What the game log accounts for

A journal keeps, for each call of `operate`, the operations that it counted and its effects, and
groups the calls by game. -/
namespace Dominion.Game

open Dominion.Framework

/-! ## Effects -/

def logged (effects : List Effect) : List GameLogEntry :=
  effects.filterMap fun
    | .logged entry => some entry
    | _ => none

def published (effects : List Effect) : List GameLogEntry :=
  effects.filterMap fun
    | .published entry => some entry
    | _ => none

def recorded (effects : List Effect) : List GameEventRecord :=
  effects.filterMap fun
    | .recorded record => some record
    | _ => none

def dispatched (effects : List Effect) : List FlowPart :=
  effects.filterMap fun
    | .dispatched part => some part
    | _ => none

@[simp] theorem logged_append (es fs : List Effect) : logged (es ++ fs) = logged es ++ logged fs :=
  List.filterMap_append

@[simp] theorem published_append (es fs : List Effect) :
    published (es ++ fs) = published es ++ published fs :=
  List.filterMap_append

@[simp] theorem recorded_append (es fs : List Effect) :
    recorded (es ++ fs) = recorded es ++ recorded fs :=
  List.filterMap_append

/-- Effects that are dispatches only. -/
def Dispatches (effects : List Effect) : Prop :=
  ∀ e ∈ effects, ∃ part, e = .dispatched part

private theorem Dispatches.append {es fs : List Effect} (hes : Dispatches es)
    (hfs : Dispatches fs) :
    Dispatches (es ++ fs) := by
  intro e he
  exact (List.mem_append.mp he).elim (hes e) (hfs e)

private theorem Dispatches.silent {es : List Effect} (h : Dispatches es) :
    logged es = [] ∧ published es = [] ∧ recorded es = [] := by
  induction es with
  | nil => exact ⟨rfl,rfl,rfl⟩
  | cons e es ih =>
    obtain ⟨part,rfl⟩ := h e (by simp)
    exact ih fun e he => h e (by simp [he])

/-! ## The loop of a call -/

/-- The operations that the loop counts. -/
def countedOps (receipts : Nat → Receipt) (g : GameRuntime) (i : Nat) :
    List CellOperation → List CellOperation
  | [] => []
  | op :: ops =>
    match g.executeOperation op (receipts i) with
    | (g',.ok state) =>
      op :: if state.gameStatus = .playing then countedOps receipts g' (i + 1) ops else []
    | (g',.skip _) => countedOps receipts g' (i + 1) ops
    | _ => []

/-- No board on which an operation could take effect. -/
def Over (g : GameRuntime) : Prop :=
  ∀ s, g.recognized = some s → s.gameStatus ≠ .playing

/-- The loop ended with an operation that was dispatched and failed. -/
def Batch.failed : Batch → Bool
  | .done _ _ _ => false
  | _ => true

/-- The status with which the loop ended the game. -/
def Batch.ended : Batch → Option EndStatus
  | .done _ _ stopped => GameRuntime.endedStatus stopped
  | _ => none

section loop

variable {receipts : Nat → Receipt} {g g' : GameRuntime} {i executed skipped : Nat}
  {op : CellOperation} {ops : List CellOperation}

/-- What one operation can do. -/
theorem executeOperation_cases (g : GameRuntime) (op : CellOperation) (receipt : Receipt) :
    (∃ state, g.executeOperation op receipt =
      ({ g with
          recognized := some state
          operationCount := g.operationCount + 1
          operationsByType := g.operationsByType.increment op.type },.ok state) ∧ ¬Over g) ∨
    (∃ reason, g.executeOperation op receipt = (g,.skip reason) ∧ ¬Over g) ∨
    (∃ reason, g.executeOperation op receipt = (g,.stop reason)) ∨
    (∃ message, g.executeOperation op receipt = (g,.dispatchFailed message) ∧ ¬Over g) ∨
    (g.executeOperation op receipt = ({ g with recognized := none },.unrecognizable) ∧ ¬Over g) := by
  cases hboard : g.recognized with
  | none => exact Or.inr (Or.inr (Or.inl ⟨.noActiveGame,by simp [GameRuntime.executeOperation,hboard]⟩))
  | some board =>
    have hover : (∀ reason, board.validateMove op.type op.x op.y = some reason →
        reason ∈ skipReasons) → ¬Over g := by
      intro hreasons h
      obtain ⟨reason,hreason,hstop⟩ :=
        GameState.validateMove_of_over (h board hboard) op.type op.x op.y
      exact hstop (hreasons reason hreason)
    cases hmove : board.validateMove op.type op.x op.y with
    | some reason =>
      by_cases hskip : reason ∈ skipReasons
      · right
        left
        refine ⟨reason,by simp [GameRuntime.executeOperation,hboard,hmove,hskip],hover fun r hr => ?_⟩
        rw [hmove] at hr
        exact Option.some.inj hr ▸ hskip
      · right
        right
        left
        exact ⟨reason,by simp [GameRuntime.executeOperation,hboard,hmove,hskip]⟩
    | none =>
      have hopen : ¬Over g := hover fun r hr => by simp [hmove] at hr
      cases receipt with
      | failed message =>
        right
        right
        right
        left
        exact ⟨message,by simp [GameRuntime.executeOperation,hboard,hmove],hopen⟩
      | received recognition =>
        cases recognition with
        | none =>
          right
          right
          right
          right
          exact ⟨by simp [GameRuntime.executeOperation,hboard,hmove],hopen⟩
        | some state =>
          left
          exact ⟨state,by simp [GameRuntime.executeOperation,hboard,hmove],hopen⟩

/-- What a loop leaves: only the board and the two counters change. -/
structure Looped (g : GameRuntime) (executed : Nat) (counted : List CellOperation)
    (r : GameRuntime × Batch × List Effect) : Prop where
  initState : r.1.initState = g.initState
  gameLog : r.1.gameLog = g.gameLog
  gameEvent : r.1.gameEvent = g.gameEvent
  count : r.1.operationCount = g.operationCount + counted.length
  total : r.1.operationsByType.total = g.operationsByType.total + counted.length
  sent : Dispatches r.2.2
  executed : ∀ n skipped stopped, r.2.1 = .done n skipped stopped → n = executed + counted.length
  idle : counted = [] → r.2.1.ended = none
  /-- The board is lost, or untouched, or the one of the last counted operation. -/
  board : (r.2.1 = .unrecognizable ∧ r.1.recognized = none) ∨
    (counted = [] ∧ r.1.recognized = g.recognized) ∨
    counted ≠ [] ∧ ∃ s, r.1.recognized = some s ∧
      s.gameStatus = r.2.1.ended.elim .playing GameStatus.concluded

private theorem Looped.skip {counted : List CellOperation} {batch : Batch} {es sent : List Effect}
    (h : Looped g executed counted (g',batch,es)) (hsent : Dispatches sent) :
    Looped g executed counted (g',batch,sent ++ es) :=
  { h with sent := hsent.append h.sent }

private theorem Looped.cons {counted : List CellOperation} {batch : Batch} {es sent : List Effect}
    {state : GameState} (hstate : state.gameStatus = .playing)
    (h : Looped { g with
        recognized := some state
        operationCount := g.operationCount + 1
        operationsByType := g.operationsByType.increment op.type } (executed + 1) counted
      (g',batch,es)) (hsent : Dispatches sent) :
    Looped g executed (op :: counted) (g',batch,sent ++ es) := by
  refine ⟨h.initState,h.gameLog,h.gameEvent,?_,?_,hsent.append h.sent,?_,by simp,?_⟩
  · have hcount : g'.operationCount = g.operationCount + 1 + counted.length := h.count
    rw [hcount,List.length_cons]
    omega
  · have htotal := h.total
    rw [OperationCounts.total_increment] at htotal
    rw [htotal,List.length_cons]
    omega
  · intro n skipped stopped hdone
    rw [h.executed n skipped stopped hdone,List.length_cons]
    omega
  · rcases h.board with hlost | ⟨hnone,hsame⟩ | ⟨-,hlast⟩
    · exact Or.inl hlost
    · refine Or.inr (Or.inr ⟨by simp,state,hsame,?_⟩)
      rw [h.idle hnone]
      exact hstate
    · exact Or.inr (Or.inr ⟨by simp,hlast⟩)

private theorem sent_dispatches (g : GameRuntime) (op : CellOperation) :
    Dispatches (if g.dispatches op then [Effect.dispatched op.part] else []) := by
  intro e he
  split at he
  · exact ⟨op.part,by simpa using he⟩
  · simp at he

private theorem looped_runBatch (g : GameRuntime) (i executed skipped : Nat)
    (ops : List CellOperation) :
    Looped g executed (countedOps receipts g i ops)
      (GameRuntime.runBatch receipts g i executed skipped ops) := by
  induction ops generalizing g i executed skipped with
  | nil =>
    refine ⟨rfl,rfl,rfl,rfl,rfl,by simp [GameRuntime.runBatch,Dispatches],?_,fun _ => rfl,
      Or.inr (Or.inl ⟨rfl,rfl⟩)⟩
    intro n sk stopped hdone
    cases hdone
    rfl
  | cons op ops ih =>
    have hsent := sent_dispatches g op
    unfold GameRuntime.runBatch countedOps
    rcases executeOperation_cases g op (receipts i) with
      ⟨state,hexec,-⟩ | ⟨reason,hexec,-⟩ | ⟨reason,hexec⟩ | ⟨message,hexec,-⟩ | ⟨hexec,-⟩
    · cases hstatus : state.gameStatus with
      | concluded status =>
        simp only [hexec,hstatus]
        refine ⟨rfl,rfl,rfl,rfl,?_,hsent,?_,by simp,?_⟩
        · simp
        · intro n sk stopped hdone
          cases hdone
          simp
        · exact Or.inr (Or.inr ⟨by simp,state,rfl,hstatus⟩)
      | playing =>
        simp only [hexec,hstatus,if_true]
        exact (ih _ (i + 1) (executed + 1) skipped).cons hstatus hsent
    · simp only [hexec]
      exact (ih g (i + 1) executed (skipped + 1)).skip hsent
    · simp only [hexec]
      refine ⟨rfl,rfl,rfl,rfl,rfl,hsent,?_,fun _ => rfl,Or.inr (Or.inl ⟨rfl,rfl⟩)⟩
      intro n sk stopped hdone
      cases hdone
      rfl
    · simp only [hexec]
      exact ⟨rfl,rfl,rfl,rfl,rfl,hsent,fun _ _ _ hdone => (by cases hdone),fun _ => rfl,
        Or.inr (Or.inl ⟨rfl,rfl⟩)⟩
    · simp only [hexec]
      exact ⟨rfl,rfl,rfl,rfl,rfl,hsent,fun _ _ _ hdone => (by cases hdone),fun _ => rfl,
        Or.inl ⟨rfl,rfl⟩⟩

private theorem countedOps_sublist (g : GameRuntime) (i : Nat) (ops : List CellOperation) :
    (countedOps receipts g i ops).Sublist ops := by
  induction ops generalizing g i with
  | nil => exact List.Sublist.refl _
  | cons op ops ih =>
    unfold countedOps
    split
    · split
      · exact (ih _ _).cons_cons op
      · exact (List.nil_sublist ops).cons_cons op
    · exact (ih _ _).cons op
    · exact List.nil_sublist _

/-- Without a board in progress nothing is counted and nothing fails. -/
theorem runBatch_over (h : Over g) (ops : List CellOperation) :
    countedOps receipts g i ops = [] ∧
      (GameRuntime.runBatch receipts g i executed skipped ops).1 = g ∧
      (GameRuntime.runBatch receipts g i executed skipped ops).2.1.failed = false := by
  cases ops with
  | nil => exact ⟨rfl,rfl,rfl⟩
  | cons op ops =>
    unfold GameRuntime.runBatch countedOps
    rcases executeOperation_cases g op (receipts i) with
      ⟨state,-,hopen⟩ | ⟨reason,-,hopen⟩ | ⟨reason,hexec⟩ | ⟨message,-,hopen⟩ | ⟨-,hopen⟩
    · exact absurd h hopen
    · exact absurd h hopen
    · simp [hexec,Batch.failed]
    · exact absurd h hopen
    · exact absurd h hopen

end loop

/-! ## A call -/

/-- What the journal keeps of a call. -/
structure CallRecord where
  operations : List CellOperation
  counted : List CellOperation
  /-- Whether a dispatch or a recognition failed. -/
  failed : Bool
  effects : List Effect
  /-- The board after the call. -/
  final : Option GameState

def callRecord (subscribed : Bool) (g : GameRuntime) (input : OperateInput)
    (receipts : Nat → Receipt) (now : Nat) : CallRecord where
  operations := input.operations
  counted := countedOps receipts g 0 input.operations
  failed := (GameRuntime.runBatch receipts g 0 0 0 input.operations).2.1.failed
  effects := (g.operate subscribed input receipts now).effects
  final := (g.operate subscribed input receipts now).runtime.recognized

namespace CallRecord

variable (subscribed : Bool) (c : CallRecord)

/-- The call executed an operation and left the game in progress. -/
def changedBoard : Bool :=
  !c.counted.isEmpty && c.final.any fun s => decide (s.gameStatus = .playing)

/-- The call executed the operation that ended the game. -/
def reachedEnd : Bool :=
  !c.counted.isEmpty && c.final.any fun s => decide (s.gameStatus ≠ .playing)

def operateEntries : List GameLogEntry :=
  (logged c.effects).filter fun e => decide (e.tool = .operate c.operations)

def endEntries : List GameLogEntry :=
  (logged c.effects).filter fun e => decide (e.tool = .gameEnd)

/-- The counted operations lie in the one entry of the call and its event follows the entry; a call
that fails has neither. -/
structure Accounted : Prop where
  sublist : c.counted.Sublist c.operations
  tools : ∀ e ∈ logged c.effects, e.tool = .operate c.operations ∨ e.tool = .gameEnd
  entry : c.failed = false → c.counted ≠ [] → ∃ e, c.operateEntries = [e]
  silent : c.failed = true → logged c.effects = []
  event : subscribed = true → c.failed = false → c.changedBoard = true →
    ∃ e before after, c.effects = before ++ .logged e :: .published e :: after ∧
      published c.effects = [e] ∧ e.tool = .operate c.operations
  quiet : ¬(subscribed = true ∧ c.failed = false ∧ c.changedBoard = true) →
    published c.effects = []

/-- Records and end entries, one of each if the call ended the game. -/
structure Ends : Prop where
  records : (recorded c.effects).length = if c.reachedEnd then 1 else 0
  entries : c.endEntries.length = if c.reachedEnd then 1 else 0

end CallRecord

/-- What a call does to the runtime. -/
structure CallSpec (subscribed : Bool) (g : GameRuntime) (c : CallRecord) (g' : GameRuntime) :
    Prop where
  count : g'.operationCount = g.operationCount + c.counted.length
  total : g'.operationsByType.total = g.operationsByType.total + c.counted.length
  gameLog : g'.gameLog = g.gameLog ++ logged c.effects
  gameEvent : g'.gameEvent = (recorded c.effects).getLast?.or g.gameEvent
  accounted : c.Accounted subscribed
  ends : c.Ends
  stays : Over g → c.reachedEnd = false ∧ Over g'
  reached : c.reachedEnd = true → Over g'

section call

variable {subscribed : Bool} {g : GameRuntime} {c : CallRecord}

/-- A call whose effects are dispatches only. -/
theorem CallRecord.Accounted.of_dispatches (subscribed : Bool) (hsent : Dispatches c.effects)
    (hsub : c.counted.Sublist c.operations)
    (hidle : c.failed = false → c.counted = []) (hend : c.reachedEnd = false) :
    c.Accounted subscribed ∧ c.Ends := by
  obtain ⟨hlogged,hpublished,hrecorded⟩ := hsent.silent
  constructor
  · refine ⟨hsub,by simp [hlogged],fun hf hc => absurd (hidle hf) hc,fun _ => hlogged,?_,
      fun _ => hpublished⟩
    intro _ hf hchanged
    simp [CallRecord.changedBoard,hidle hf] at hchanged
  · exact ⟨by simp [hrecorded,hend],by simp [CallRecord.endEntries,hlogged,hend]⟩

private theorem Looped.concluded {g' : GameRuntime} {batch : Batch} {es : List Effect}
    {counted : List CellOperation} (h : Looped g 0 counted (g',batch,es)) (hover : Over g)
    (hnone : counted = []) : Over g' := by
  intro s hs
  rcases h.board with ⟨-,hlost⟩ | ⟨-,hsame⟩ | ⟨hne,-⟩
  · have hnone : g'.recognized = none := hlost
    rw [hnone] at hs
    cases hs
  · exact hover s (hsame ▸ hs)
  · exact absurd hnone hne

/-- A call that leaves the log alone. -/
theorem CallSpec.of_looped {g' : GameRuntime} {batch : Batch}
    (h : Looped g 0 c.counted (g',batch,c.effects)) (hfailed : c.failed = batch.failed)
    (hfinal : c.final = g'.recognized) (hdone : batch.failed = false → g'.recognized = none)
    (hsub : c.counted.Sublist c.operations) (hover : Over g → c.counted = []) :
    CallSpec subscribed g c g' := by
  obtain ⟨hlogged,-,hrecorded⟩ := h.sent.silent
  have hidle : c.failed = false → c.counted = [] := by
    intro hf
    rw [hfailed] at hf
    rcases h.board with ⟨hbatch,-⟩ | ⟨hnone,-⟩ | ⟨-,s,hs,-⟩
    · rw [show batch = .unrecognizable from hbatch] at hf
      cases hf
    · exact hnone
    · rw [hdone hf] at hs
      cases hs
  have hend : c.reachedEnd = false := by
    rcases h.board with ⟨-,hlost⟩ | ⟨hnone,-⟩ | ⟨-,s,hs,hstatus⟩
    · simp [CallRecord.reachedEnd,hfinal,show g'.recognized = none from hlost]
    · simp [CallRecord.reachedEnd,hnone]
    · have hs' : g'.recognized = some s := hs
      cases batch with
      | done n sk st =>
        rw [hdone rfl] at hs'
        cases hs'
      | dispatchFailed message => simp [CallRecord.reachedEnd,hfinal,hs',hstatus,Batch.ended]
      | unrecognizable => simp [CallRecord.reachedEnd,hfinal,hs',hstatus,Batch.ended]
  obtain ⟨haccounted,hends⟩ :=
    CallRecord.Accounted.of_dispatches subscribed h.sent hsub hidle hend
  refine ⟨h.count,h.total,?_,?_,haccounted,hends,fun ho => ⟨hend,h.concluded ho (hover ho)⟩,?_⟩
  · rw [hlogged,List.append_nil]
    exact h.gameLog
  · rw [hrecorded]
    exact h.gameEvent
  · rw [hend]
    exact fun hfalse => by cases hfalse

/-- A call that is logged. -/
theorem CallSpec.of_conclude {g' : GameRuntime} {n skipped : Nat}
    {stopped : Option (CellOperation × StopReason)} {sent : List Effect} {finalState : GameState}
    {now : Nat}
    (h : Looped g 0 c.counted (g',.done n skipped stopped,sent)) (hfailed : c.failed = false)
    (hboard : g'.recognized = some finalState) (hfinal : c.final = some finalState)
    (heffects : c.effects = sent ++ (g'.conclude subscribed c.operations now n
      (GameRuntime.endedStatus stopped) finalState).2)
    (hsub : c.counted.Sublist c.operations) (hover : Over g → c.counted = []) :
    CallSpec subscribed g c (g'.conclude subscribed c.operations now n
      (GameRuntime.endedStatus stopped) finalState).1 := by
  obtain ⟨hlogged,hpublished,hrecorded⟩ := h.sent.silent
  have hn : n = c.counted.length := by simpa using h.executed n skipped stopped rfl
  let entry : GameLogEntry := ⟨.operate c.operations,finalState,finalState.gameStatus⟩
  have hstatus : c.counted ≠ [] → finalState.gameStatus =
      (GameRuntime.endedStatus stopped).elim .playing GameStatus.concluded := by
    intro hne
    rcases h.board with ⟨hbatch,-⟩ | ⟨hnone,-⟩ | ⟨-,s,hs,hlast⟩
    · cases hbatch
    · exact absurd hnone hne
    · have hs' : g'.recognized = some s := hs
      rw [hboard] at hs'
      obtain rfl := Option.some.inj hs'
      exact hlast
  have hgo : ∀ g'' : GameRuntime, g''.recognized = g'.recognized → Over g → Over g'' := by
    intro g'' hsame ho s hs
    exact h.concluded ho (hover ho) s (hsame ▸ hs)
  have hlog : g'.gameLog = g.gameLog := h.gameLog
  have hevent : g'.gameEvent = g.gameEvent := h.gameEvent
  cases hended : GameRuntime.endedStatus stopped with
  | none =>
    have hplay : c.counted ≠ [] → finalState.gameStatus = .playing := by
      intro hne
      rw [hstatus hne,hended]
      rfl
    have hend : c.reachedEnd = false := by
      rw [CallRecord.reachedEnd,hfinal]
      by_cases hne : c.counted = []
      · simp [hne]
      · simp [hplay hne]
    rw [hended] at heffects
    have hlogs : logged c.effects = [entry] := by
      rw [heffects,logged_append,hlogged]
      simp only [GameRuntime.conclude]
      split <;> rfl
    have hrecords : recorded c.effects = [] := by
      rw [heffects,recorded_append,hrecorded]
      simp only [GameRuntime.conclude]
      split <;> rfl
    have hpubs : published c.effects =
        if subscribed ∧ 0 < n ∧ entry.status = .playing then [entry] else [] := by
      rw [heffects,published_append,hpublished]
      simp only [GameRuntime.conclude]
      split <;> rfl
    have hchanged : c.changedBoard = true ↔ 0 < n ∧ entry.status = .playing := by
      rw [CallRecord.changedBoard,hfinal,hn]
      simp [entry,List.length_pos_iff]
    refine ⟨h.count,h.total,?_,?_,⟨hsub,?_,?_,?_,?_,?_⟩,⟨?_,?_⟩,?_,?_⟩
    · rw [hlogs,← hlog]
      rfl
    · rw [hrecords]
      exact hevent
    · simp [hlogs,entry]
    · exact fun _ _ => ⟨entry,by simp [CallRecord.operateEntries,hlogs,entry]⟩
    · exact fun hf => by rw [hfailed] at hf; cases hf
    · intro hs _ hc
      have hpub := And.intro hs (hchanged.mp hc)
      refine ⟨entry,sent,[],?_,by rw [hpubs,if_pos hpub],rfl⟩
      rw [heffects]
      simp only [GameRuntime.conclude]
      rw [if_pos hpub]
    · intro hnot
      rw [hpubs]
      exact if_neg fun hpub => hnot ⟨hpub.1,hfailed,hchanged.mpr hpub.2⟩
    · rw [hrecords,hend]
      rfl
    · rw [CallRecord.endEntries,hlogs,hend]
      rfl
    · exact fun ho => ⟨hend,hgo _ rfl ho⟩
    · rw [hend]
      exact fun hfalse => by cases hfalse
  | some status =>
    have hne : c.counted ≠ [] := by
      intro hnone
      have hidle := h.idle hnone
      rw [Batch.ended,hended] at hidle
      cases hidle
    have hover' : finalState.gameStatus = .concluded status := by
      rw [hstatus hne,hended]
      rfl
    have hend : c.reachedEnd = true := by
      rw [CallRecord.reachedEnd,hfinal]
      simp [hover',hne]
    have hquiet : ¬(subscribed ∧ 0 < n ∧ finalState.gameStatus = .playing) := by
      simp [hover']
    let last : GameLogEntry := ⟨.gameEnd,finalState,.concluded status⟩
    let record : GameEventRecord := ⟨status,computeGameStats g'.initState finalState
      g'.operationCount g'.operationsByType,now⟩
    have hconclude : (g'.conclude subscribed c.operations now n (some status) finalState).2 =
        [.logged entry,.recorded record,.logged last] := by
      simp only [GameRuntime.conclude]
      rw [if_neg hquiet]
      rfl
    rw [hended,hconclude] at heffects
    have hlogs : logged c.effects = [entry,last] := by
      rw [heffects,logged_append,hlogged]
      rfl
    have hrecords : recorded c.effects = [record] := by
      rw [heffects,recorded_append,hrecorded]
      rfl
    have hpubs : published c.effects = [] := by
      rw [heffects,published_append,hpublished]
      rfl
    have hunchanged : c.changedBoard = false := by
      simp [CallRecord.changedBoard,hfinal,hover']
    refine ⟨h.count,h.total,?_,?_,⟨hsub,?_,?_,?_,?_,fun _ => hpubs⟩,⟨?_,?_⟩,?_,?_⟩
    · rw [hlogs,← hlog]
      show g'.gameLog ++ [entry] ++ [last] = _
      simp
    · rw [hrecords]
      rfl
    · simp [hlogs,entry,last]
    · exact fun _ _ => ⟨entry,by simp [CallRecord.operateEntries,hlogs,entry,last]⟩
    · exact fun hf => by rw [hfailed] at hf; cases hf
    · intro _ _ hc
      rw [hunchanged] at hc
      cases hc
    · rw [hrecords,hend]
      rfl
    · simp [CallRecord.endEntries,hlogs,hend,entry,last]
    · exact fun ho => absurd (hover ho) hne
    · intro _ s hs
      have hs' : g'.recognized = some s := hs
      rw [hboard] at hs'
      obtain rfl := Option.some.inj hs'
      simp [hover']

private theorem operate_spec (subscribed : Bool) (g : GameRuntime) (input : OperateInput)
    (receipts : Nat → Receipt) (now : Nat) :
    CallSpec subscribed g (callRecord subscribed g input receipts now)
      (g.operate subscribed input receipts now).runtime := by
  have hloop : Looped g 0 (countedOps receipts g 0 input.operations)
      (GameRuntime.runBatch receipts g 0 0 0 input.operations) :=
    looped_runBatch g 0 0 0 input.operations
  have hsub : (countedOps receipts g 0 input.operations).Sublist input.operations :=
    countedOps_sublist g 0 input.operations
  have hover : Over g → countedOps receipts g 0 input.operations = [] := fun h =>
    (@runBatch_over receipts g 0 0 0 h input.operations).1
  by_cases hempty : input.operations = []
  · have hstay : (g.operate subscribed input receipts now).runtime = g ∧
        (g.operate subscribed input receipts now).effects = [] := by
      unfold GameRuntime.operate
      rw [if_pos hempty]
      split <;> exact ⟨rfl,rfl⟩
    rw [hempty] at hloop
    have hcounted : (callRecord subscribed g input receipts now).counted = [] := by
      simp [callRecord,hempty,countedOps]
    have hsame : (callRecord subscribed g input receipts now).effects = [] := hstay.2
    have hend : (callRecord subscribed g input receipts now).reachedEnd = false := by
      simp [CallRecord.reachedEnd,hcounted]
    obtain ⟨haccounted,hends⟩ := CallRecord.Accounted.of_dispatches subscribed
      (c := callRecord subscribed g input receipts now) (by simp [Dispatches,hsame]) hsub
      (fun _ => hcounted) hend
    rw [hstay.1]
    refine ⟨by simp [hcounted],by simp [hcounted],by simp [hsame,logged],by simp [hsame,recorded],
      haccounted,hends,fun ho => ⟨hend,ho⟩,?_⟩
    rw [hend]
    exact fun hfalse => by cases hfalse
  · rcases hrun : GameRuntime.runBatch receipts g 0 0 0 input.operations with ⟨g',batch,sent⟩
    rw [hrun] at hloop
    have hfailed : (callRecord subscribed g input receipts now).failed = batch.failed := by
      simp [callRecord,hrun]
    cases batch with
    | dispatchFailed message =>
      have hcall : g.operate subscribed input receipts now = ⟨g',.error message,sent⟩ := by
        simp only [GameRuntime.operate,if_neg hempty,hrun]
      have heffects : (callRecord subscribed g input receipts now).effects = sent := by
        simp [callRecord,hcall]
      rw [hcall]
      exact .of_looped (heffects ▸ hloop) hfailed (by simp [callRecord,hcall])
        (fun hf => by cases hf) hsub hover
    | unrecognizable =>
      have hcall : g.operate subscribed input receipts now =
          ⟨g',.text unrecognizableText false,sent⟩ := by
        simp only [GameRuntime.operate,if_neg hempty,hrun]
      have heffects : (callRecord subscribed g input receipts now).effects = sent := by
        simp [callRecord,hcall]
      rw [hcall]
      exact .of_looped (heffects ▸ hloop) hfailed (by simp [callRecord,hcall])
        (fun hf => by cases hf) hsub hover
    | done n skipped stopped =>
      cases hboard : g'.recognized with
      | none =>
        have hcall : g.operate subscribed input receipts now =
            ⟨g',.text noActiveGameText false,sent⟩ := by
          simp only [GameRuntime.operate,if_neg hempty,hrun,hboard]
        have heffects : (callRecord subscribed g input receipts now).effects = sent := by
          simp [callRecord,hcall]
        rw [hcall]
        exact .of_looped (heffects ▸ hloop) hfailed (by simp [callRecord,hcall])
          (fun _ => hboard) hsub hover
      | some finalState =>
        have hrec : (g'.conclude subscribed input.operations now n
            (GameRuntime.endedStatus stopped) finalState).1.recognized = g'.recognized := by
          unfold GameRuntime.conclude
          cases GameRuntime.endedStatus stopped <;> rfl
        have hcall : (g.operate subscribed input receipts now).runtime =
              (g'.conclude subscribed input.operations now n
                (GameRuntime.endedStatus stopped) finalState).1 ∧
            (g.operate subscribed input receipts now).effects =
              sent ++ (g'.conclude subscribed input.operations now n
                (GameRuntime.endedStatus stopped) finalState).2 := by
          simp [GameRuntime.operate,hempty,hrun,hboard]
        rw [hcall.1]
        exact .of_conclude hloop hfailed hboard
          ((congrArg GameRuntime.recognized hcall.1).trans (hrec.trans hboard)) hcall.2 hsub hover

end call

/-! ## Sequences of calls -/

inductive GameLabel
  | init (receipt : Receipt)
  | operate (input : OperateInput) (receipts : Nat → Receipt) (now : Nat)

/-- The calls of one runtime, one at a time. -/
def gameSystem (subscribed : Bool) : Lts GameRuntime GameLabel where
  init g := g = {}
  step g
    | .init receipt => some (g.init receipt).runtime
    | .operate input receipts now => some (g.operate subscribed input receipts now).runtime

structure GameJournal where
  /-- The calls of the earlier games, and of the time before the first one. -/
  past : List (List CallRecord) := []
  /-- What the last successful `init` logged. -/
  header : List GameLogEntry := []
  /-- The calls since then. -/
  calls : List CallRecord := []

namespace GameJournal

def games (j : GameJournal) : List (List CallRecord) :=
  j.past ++ [j.calls]

def restart (j : GameJournal) (header : List GameLogEntry) : GameJournal where
  past := j.past ++ [j.calls]
  header := header
  calls := []

def note (j : GameJournal) (c : CallRecord) : GameJournal :=
  { j with calls := j.calls ++ [c] }

@[simp] theorem note_calls (j : GameJournal) (c : CallRecord) : (j.note c).calls = j.calls ++ [c] :=
  rfl

@[simp] theorem note_past (j : GameJournal) (c : CallRecord) : (j.note c).past = j.past :=
  rfl

@[simp] theorem note_header (j : GameJournal) (c : CallRecord) : (j.note c).header = j.header :=
  rfl

@[simp] theorem restart_calls (j : GameJournal) (header : List GameLogEntry) :
    (j.restart header).calls = [] :=
  rfl

@[simp] theorem restart_header (j : GameJournal) (header : List GameLogEntry) :
    (j.restart header).header = header :=
  rfl

@[simp] theorem restart_past (j : GameJournal) (header : List GameLogEntry) :
    (j.restart header).past = j.past ++ [j.calls] :=
  rfl

end GameJournal

def observeGame (subscribed : Bool) (g : GameRuntime) (l : GameLabel) (_ : GameRuntime)
    (j : GameJournal) : GameJournal :=
  match l with
  | .init receipt =>
    match receipt with
    | .received (some _) => j.restart (logged (g.init receipt).effects)
    | _ => j
  | .operate input receipts now => j.note (callRecord subscribed g input receipts now)

/-- A game has a terminal record and an end entry if one of its calls ended it, and none otherwise. -/
structure Concluded (game : List CallRecord) : Prop where
  records : (game.flatMap fun c => recorded c.effects).length =
    if game.any CallRecord.reachedEnd then 1 else 0
  entries : (game.flatMap CallRecord.endEntries).length =
    if game.any CallRecord.reachedEnd then 1 else 0

section runs

variable {subscribed : Bool} {g : GameRuntime} {j : GameJournal} {game : List CallRecord}
  {c : CallRecord}

private theorem Concluded.append (h : Concluded game) (hc : c.Ends)
    (honce : game.any CallRecord.reachedEnd = true → c.reachedEnd = false) :
    Concluded (game ++ [c]) := by
  have hany : (game ++ [c]).any CallRecord.reachedEnd =
      (game.any CallRecord.reachedEnd || c.reachedEnd) := by simp
  constructor
  · rw [hany,List.flatMap_append,List.length_append,h.records,List.flatMap_singleton,hc.records]
    cases hgame : game.any CallRecord.reachedEnd with
    | true => simp [honce hgame]
    | false => simp
  · rw [hany,List.flatMap_append,List.length_append,h.entries,List.flatMap_singleton,hc.entries]
    cases hgame : game.any CallRecord.reachedEnd with
    | true => simp [honce hgame]
    | false => simp

/-- What every run keeps. -/
structure GameInv (subscribed : Bool) (g : GameRuntime) (j : GameJournal) : Prop where
  total : g.operationCount = g.operationsByType.total
  count : g.operationCount = (j.calls.map fun c => c.counted.length).sum
  header : ∀ e ∈ j.header, e.tool = .init
  gameLog : g.gameLog = j.header ++ j.calls.flatMap fun c => logged c.effects
  gameEvent : g.gameEvent = (j.games.flatten.flatMap fun c => recorded c.effects).getLast?
  accounted : ∀ game ∈ j.games, ∀ c ∈ game, c.Accounted subscribed
  concluded : ∀ game ∈ j.games, Concluded game
  closed : j.calls.any CallRecord.reachedEnd = true → Over g

private theorem GameInv.operate (h : GameInv subscribed g j) (input : OperateInput)
    (receipts : Nat → Receipt) (now : Nat) :
    GameInv subscribed (g.operate subscribed input receipts now).runtime
      (j.note (callRecord subscribed g input receipts now)) := by
  have hspec := operate_spec subscribed g input receipts now
  generalize callRecord subscribed g input receipts now = c at hspec ⊢
  have hgames : ∀ p : List CallRecord → Prop, (∀ game ∈ j.games, p game) → p (j.calls ++ [c]) →
      ∀ game ∈ (j.note c).games, p game := by
    intro p hold hnew game hgame
    rcases List.mem_append.mp hgame with hpast | hlast
    · exact hold game (List.mem_append_left _ hpast)
    · exact List.mem_singleton.mp hlast ▸ hnew
  have hcurrent : j.calls ∈ j.games := by simp [GameJournal.games]
  refine ⟨?_,?_,h.header,?_,?_,hgames _ h.accounted ?_,hgames _ h.concluded ?_,?_⟩
  · rw [hspec.count,hspec.total,h.total]
  · rw [hspec.count,h.count]
    simp
  · rw [hspec.gameLog,h.gameLog]
    simp [List.append_assoc]
  · rw [hspec.gameEvent,h.gameEvent]
    simp [GameJournal.games,List.getLast?_append,Option.or_assoc]
  · intro c' hc'
    rcases List.mem_append.mp hc' with hold | hlast
    · exact h.accounted j.calls hcurrent c' hold
    · exact List.mem_singleton.mp hlast ▸ hspec.accounted
  · refine (h.concluded j.calls hcurrent).append hspec.ends fun hany => ?_
    exact (hspec.stays (h.closed hany)).1
  · intro hany
    rw [GameJournal.note_calls,List.any_append,Bool.or_eq_true] at hany
    rcases hany with hold | hlast
    · exact (hspec.stays (h.closed hold)).2
    · exact hspec.reached (by simpa using hlast)

private theorem GameInv.restart (h : GameInv subscribed g j) (state : GameState) :
    GameInv subscribed (g.init (.received (some state))).runtime
      (j.restart (logged (g.init (.received (some state))).effects)) := by
  have hgames : ∀ p : List CallRecord → Prop, (∀ game ∈ j.games, p game) → p [] →
      ∀ game ∈ (j.restart (logged (g.init (.received (some state))).effects)).games, p game := by
    intro p hold hnew game hgame
    rcases List.mem_append.mp hgame with hpast | hlast
    · exact hold game hpast
    · exact List.mem_singleton.mp hlast ▸ hnew
  refine ⟨rfl,rfl,by simp [logged,GameRuntime.init],by simp [logged,GameRuntime.init],?_,
    hgames _ h.accounted (by simp),hgames _ h.concluded ⟨rfl,rfl⟩,fun hany => by cases hany⟩
  have hsame : (g.init (.received (some state))).runtime.gameEvent = g.gameEvent := rfl
  rw [hsame,h.gameEvent]
  simp [GameJournal.games]

private theorem gameInv_reach {x : GameRuntime × GameJournal}
    (h : Lts.Reach ((gameSystem subscribed).journaled (observeGame subscribed) {}) x) :
    GameInv subscribed x.1 x.2 := by
  induction h with
  | init hx =>
    obtain ⟨hg,hj⟩ := hx
    have hg' : _ = ({} : GameRuntime) := hg
    rw [hj,hg']
    exact ⟨rfl,rfl,by simp,rfl,rfl,by simp [GameJournal.games],by
      intro game hgame
      have hnil : game = [] := by simpa [GameJournal.games] using hgame
      exact hnil ▸ ⟨rfl,rfl⟩,fun hany => by cases hany⟩
  | @step x y l _ _ hstep ih =>
    obtain ⟨hs,hj⟩ := Lts.journaled_step.mp hstep
    rw [hj]
    cases l with
    | operate input receipts now =>
      rw [← Option.some.inj hs]
      exact ih.operate input receipts now
    | init receipt =>
      rw [← Option.some.inj hs]
      rcases receipt with message | _ | state
      · exact ih
      · exact { ih with closed := fun _ s hs => by cases hs }
      · exact ih.restart state

/-- The counters count the operations of the calls since the last successful `init`, whose entries
make up the log.  A call that fails is neither logged nor published; any other one that counted an
operation has one entry with them, and its event if it left the game in progress.  A game has one
record and one end entry if it ended, and none otherwise. -/
theorem game_log_accounts (subscribed : Bool) :
    ∀ x, Lts.Reach ((gameSystem subscribed).journaled (observeGame subscribed) {}) x →
      x.1.operationCount = x.1.operationsByType.total ∧
      x.1.operationCount = (x.2.calls.map fun c => c.counted.length).sum ∧
      (∀ e ∈ x.2.header, e.tool = .init) ∧
      x.1.gameLog = x.2.header ++ (x.2.calls.flatMap fun c => logged c.effects) ∧
      x.1.gameEvent = (x.2.games.flatten.flatMap fun c => recorded c.effects).getLast? ∧
      (∀ game ∈ x.2.games, ∀ c ∈ game, c.Accounted subscribed) ∧
      ∀ game ∈ x.2.games, Concluded game := by
  intro x hx
  have h := gameInv_reach hx
  exact ⟨h.total,h.count,h.header,h.gameLog,h.gameEvent,h.accounted,h.concluded⟩

end runs

/-! ## A game of two cells -/

def twoCells (a b : CellStatus) : GameState :=
  ⟨2,1,[[a,b]],none,rfl,by simp⟩

def clickCell (x : Int) : CellOperation := ⟨.click,x,0⟩

def newGame : GameLabel :=
  .init (.received (some (twoCells .initial .initial)))

/-- A click that opens the first cell, then one that hits a mine. -/
def revealed : Receipt := .received (some (twoCells (.number ⟨1,by decide⟩) .initial))
def lostGame : Receipt := .received (some (twoCells (.number ⟨1,by decide⟩) .hitMine))

private theorem gameSystem_init (subscribed : Bool) :
    ((gameSystem subscribed).journaled (observeGame subscribed) {}).init ({},{}) :=
  ⟨rfl,rfl⟩

/-- A game with two calls, the second of which loses it. -/
theorem game_log_accounts_demo :
    ∃ x c d, Lts.Reach ((gameSystem true).journaled (observeGame true) {}) x ∧
      x.2.calls = [c,d] ∧ x.1.operationCount = 2 ∧ x.1.operationsByType.total = 2 ∧
      (∃ e, c.operateEntries = [e]) ∧ (∃ e, published c.effects = [e]) ∧
      published d.effects = [] ∧ (x.2.calls.flatMap CallRecord.endEntries).length = 1 := by
  obtain ⟨x,hx,hp⟩ := Lts.reach_of_run_any
    (M := (gameSystem true).journaled (observeGame true) {})
    (p := fun x => decide (x.2.calls.map (fun c => (c.counted.length,c.failed,c.changedBoard)) =
        [(1,false,true),(1,false,false)]) && x.2.calls.any CallRecord.reachedEnd)
    [newGame,.operate (.single (clickCell 0)) (fun _ => revealed) 1,
      .operate (.single (clickCell 1)) (fun _ => lostGame) 2]
    (.init (gameSystem_init true)) (by decide)
  rw [Bool.and_eq_true,decide_eq_true_eq] at hp
  obtain ⟨hshape,hend⟩ := hp
  obtain ⟨c,rest,hcalls,hc,hrest⟩ := List.map_eq_cons_iff.mp hshape
  obtain ⟨d,rest',rfl,hd,hrest'⟩ := List.map_eq_cons_iff.mp hrest
  obtain rfl := List.map_eq_nil_iff.mp hrest'
  simp only [Prod.mk.injEq] at hc hd
  obtain ⟨htotal,hcount,-,-,-,haccounted,hconcluded⟩ := game_log_accounts true x hx
  have hgame : x.2.calls ∈ x.2.games := by simp [GameJournal.games]
  have hcAcc := haccounted _ hgame c (by simp [hcalls])
  have hdAcc := haccounted _ hgame d (by simp [hcalls])
  have htwo : x.1.operationCount = 2 := by rw [hcount,hcalls]; simp [hc.1,hd.1]
  refine ⟨x,c,d,hx,hcalls,htwo,htotal ▸ htwo,?_,?_,hdAcc.quiet (by simp [hd.2.2]),?_⟩
  · exact hcAcc.entry hc.2.1 (List.ne_nil_of_length_pos (by omega))
  · obtain ⟨e,-,-,-,he,-⟩ := hcAcc.event rfl hc.2.1 hc.2.2
    exact ⟨e,he⟩
  · rw [(hconcluded _ hgame).entries,if_pos hend]

/-- The second dispatch of a batch fails: the first operation is counted, but the log and the
subscriber do not see it. -/
theorem failed_batch_unlogged :
    ¬∀ x, Lts.Reach ((gameSystem true).journaled (observeGame true) {}) x →
      ∀ c ∈ x.2.calls, c.counted ≠ [] → ∃ e, c.operateEntries = [e] := by
  intro h
  obtain ⟨x,hx,hp⟩ := Lts.reach_of_run_any
    (M := (gameSystem true).journaled (observeGame true) {})
    (p := fun x => x.2.calls.any fun c =>
      !c.counted.isEmpty && decide (c.operateEntries = []))
    [newGame,.operate (.batch [clickCell 0,clickCell 1])
      (fun i => if i = 0 then revealed else .failed "disconnected") 1]
    (.init (gameSystem_init true)) (by decide)
  obtain ⟨c,hc,hcond⟩ := List.any_eq_true.mp hp
  simp only [Bool.and_eq_true,Bool.not_eq_true',decide_eq_true_eq] at hcond
  obtain ⟨e,he⟩ := h x hx c hc fun hnil => by simp [hnil] at hcond
  rw [hcond.2] at he
  cases he

end Dominion.Game
