import Dominion.Game.Accounts

/-! # Batch play and step-by-step play

The desktop answers each dispatch as it likes, given all that was dispatched so far, and the
recognition engine keeps a state of its own.  A call with many operations is compared with one call
for each of them. -/
namespace Dominion.Game

/-- What the desktop sends back for a dispatch. -/
inductive Answer (Png : Type)
  | failed (message : String)
  | received (screenshot : Option Png)

/-- The desktop, and the recognition engine with its state. -/
structure Env (σ Png : Type) where
  /-- Answers the last of the parts that were dispatched. -/
  desktop : List FlowPart → Answer Png
  /-- `boardApi.update`; `none` stands for a throw. -/
  update : σ → Png → σ × Option GameState

/-- A runtime beside the engine's state and the parts that were dispatched. -/
structure Session (σ : Type) where
  game : GameRuntime
  api : σ
  sent : List FlowPart

/-- What a call leaves, how its loop ended, and its result. -/
structure Operated (σ : Type) where
  session : Session σ
  batch : Batch
  outcome : ToolOutcome

section play

variable {σ Png : Type}

namespace Env

/-- `recognize` on the answer to a dispatch. -/
def recognize (env : Env σ Png) (api : σ) : Answer Png → σ × Receipt
  | .failed message => (api,.failed message)
  | .received none => (api,.received none)
  | .received (some png) => ((env.update api png).1,.received (env.update api png).2)

/-- The answer to an operation, if the runtime dispatches it. -/
def send (env : Env σ Png) (s : Session σ) (op : CellOperation) : Session σ × Receipt :=
  if s.game.dispatches op then
    let sent := s.sent ++ [op.part]
    let r := env.recognize s.api (env.desktop sent)
    ({ s with api := r.1, sent },r.2)
  else (s,.received none)

def executeOperation (env : Env σ Png) (s : Session σ) (op : CellOperation) :
    Session σ × OpExecution :=
  let r := env.send s op
  let e := s.game.executeOperation op r.2
  ({ r.1 with game := e.1 },e.2)

/-- The loop over the operations of a call. -/
def runBatch (env : Env σ Png) (s : Session σ) (executed skipped : Nat) :
    List CellOperation → Session σ × Batch
  | [] => (s,.done executed skipped none)
  | op :: ops =>
    match env.executeOperation s op with
    | (s',.ok state) =>
      match state.gameStatus with
      | .concluded status => (s',.done (executed + 1) skipped (some (op,.ended status)))
      | .playing => runBatch env s' (executed + 1) skipped ops
    | (s',.skip _) => runBatch env s' executed (skipped + 1) ops
    | (s',.stop reason) => (s',.done executed skipped (some (op,.rejected reason)))
    | (s',.dispatchFailed message) => (s',.dispatchFailed message)
    | (s',.unrecognizable) => (s',.unrecognizable)

def operate (env : Env σ Png) (subscribed : Bool) (s : Session σ) (input : OperateInput)
    (now : Nat) : Operated σ :=
  let operations := input.operations
  if operations = [] then
    match s.game.recognized with
    | none => ⟨s,.done 0 0 none,.text noActiveGameText false⟩
    | some board =>
      ⟨s,.done 0 0 none,.text (operateResultText 0 0 board none) (concludeMarker board)⟩
  else
    match env.runBatch s 0 0 operations with
    | (s',.dispatchFailed message) => ⟨s',.dispatchFailed message,.error message⟩
    | (s',.unrecognizable) => ⟨s',.unrecognizable,.text unrecognizableText false⟩
    | (s',.done executed skipped stopped) =>
      match s'.game.recognized with
      | none => ⟨s',.done executed skipped stopped,.text noActiveGameText false⟩
      | some finalState =>
        let r := s'.game.conclude subscribed operations now executed
          (GameRuntime.endedStatus stopped) finalState
        ⟨{ s' with game := r.1 },.done executed skipped stopped,
          .text (operateResultText executed skipped finalState stopped)
            (concludeMarker finalState)⟩

end Env

/-- The loop went through all of its operations. -/
def Batch.through : Batch → Bool
  | .done _ _ none => true
  | _ => false

/-- One call for each operation, until the result of one is a stop, a terminal board, an
unrecognizable board or an error. -/
def Env.stepwise (env : Env σ Png) (subscribed : Bool) (s : Session σ) (now : Nat → Nat) :
    List CellOperation → Session σ
  | [] => s
  | op :: ops =>
    let r := env.operate subscribed s (.single op) (now 0)
    if r.batch.through then env.stepwise subscribed r.session (fun k => now (k + 1)) ops
    else r.session

/-- How a verdict ends the loop, if it does. -/
def OpExecution.halted (op : CellOperation) (executed skipped : Nat) : OpExecution → Option Batch
  | .ok state =>
    match state.gameStatus with
    | .concluded status => some (.done (executed + 1) skipped (some (op,.ended status)))
    | .playing => none
  | .skip _ => none
  | .stop reason => some (.done executed skipped (some (op,.rejected reason)))
  | .dispatchFailed message => some (.dispatchFailed message)
  | .unrecognizable => some .unrecognizable

/-- What a verdict adds to the operations that were executed and skipped. -/
def OpExecution.counts : OpExecution → Nat × Nat
  | .ok _ => (1,0)
  | .skip _ => (0,1)
  | _ => (0,0)

/-! ## The loop over a fixed list of answers -/

variable {env : Env σ Png} {s t : Session σ} {op : CellOperation} {ops : List CellOperation}

private theorem gameRunBatch_cons (receipts : Nat → Receipt) (g : GameRuntime)
    (i executed skipped : Nat) (op : CellOperation) (ops : List CellOperation) :
    let sent := if g.dispatches op then [Effect.dispatched op.part] else []
    let e := g.executeOperation op (receipts i)
    GameRuntime.runBatch receipts g i executed skipped (op :: ops) =
      match e.2.halted op executed skipped with
      | some batch => (e.1,batch,sent)
      | none =>
        let r := GameRuntime.runBatch receipts e.1 (i + 1) (executed + e.2.counts.1)
          (skipped + e.2.counts.2) ops
        (r.1,r.2.1,sent ++ r.2.2) := by
  dsimp only
  rw [GameRuntime.runBatch]
  rcases g.executeOperation op (receipts i) with ⟨g',verdict⟩
  cases verdict with
  | ok state =>
    cases hstatus : state.gameStatus with
    | concluded status => simp [OpExecution.halted,hstatus]
    | playing => simp [OpExecution.halted,OpExecution.counts,hstatus]
  | skip reason => rfl
  | stop reason => rfl
  | dispatchFailed message => rfl
  | unrecognizable => rfl

private theorem runBatch_congr {receipts receipts' : Nat → Receipt} {g : GameRuntime} {i : Nat}
    (executed skipped : Nat) (h : ∀ n, i ≤ n → receipts n = receipts' n) :
    GameRuntime.runBatch receipts g i executed skipped ops =
      GameRuntime.runBatch receipts' g i executed skipped ops := by
  induction ops generalizing g i executed skipped with
  | nil => rfl
  | cons op ops ih =>
    have htail : ∀ n, i + 1 ≤ n → receipts n = receipts' n := fun n hn => h n (by omega)
    rw [gameRunBatch_cons,gameRunBatch_cons,h i (Nat.le_refl i),ih _ _ htail]

private theorem runBatch_cons (s : Session σ) (executed skipped : Nat) (op : CellOperation)
    (ops : List CellOperation) :
    let e := env.executeOperation s op
    env.runBatch s executed skipped (op :: ops) =
      match e.2.halted op executed skipped with
      | some batch => (e.1,batch)
      | none =>
        env.runBatch e.1 (executed + e.2.counts.1) (skipped + e.2.counts.2) ops := by
  dsimp only
  rw [Env.runBatch]
  rcases env.executeOperation s op with ⟨s',verdict⟩
  cases verdict with
  | ok state =>
    cases hstatus : state.gameStatus with
    | concluded status => simp [OpExecution.halted,hstatus]
    | playing => simp [OpExecution.halted,OpExecution.counts,hstatus]
  | skip reason => rfl
  | stop reason => rfl
  | dispatchFailed message => rfl
  | unrecognizable => rfl

private theorem executeOperation_sent (s : Session σ) (op : CellOperation) :
    (env.executeOperation s op).1.sent =
      s.sent ++ dispatched (if s.game.dispatches op then [Effect.dispatched op.part] else []) := by
  unfold Env.executeOperation Env.send
  split
  · rfl
  · simp [dispatched]

private theorem dispatched_append (es fs : List Effect) :
    dispatched (es ++ fs) = dispatched es ++ dispatched fs :=
  List.filterMap_append

/-- The loop is the one over the answers as they come. -/
theorem runBatch_refines (s : Session σ) (i executed skipped : Nat) (ops : List CellOperation) :
    ∃ receipts : Nat → Receipt,
      let r := GameRuntime.runBatch receipts s.game i executed skipped ops
      let r' := env.runBatch s executed skipped ops
      r'.1.game = r.1 ∧ r'.2 = r.2.1 ∧ r'.1.sent = s.sent ++ dispatched r.2.2 := by
  induction ops generalizing s i executed skipped with
  | nil =>
    apply Exists.intro fun _ => .received none
    simp [Env.runBatch,GameRuntime.runBatch,dispatched]
  | cons op ops ih =>
    let e := env.executeOperation s op
    have hsent := @executeOperation_sent _ _ env s op
    obtain ⟨rest,hgame,hbatch,hrest⟩ := ih e.1 (i + 1) (executed + e.2.counts.1)
      (skipped + e.2.counts.2)
    let receipts : Nat → Receipt := fun n => if n = i then (env.send s op).2 else rest n
    have hhead : receipts i = (env.send s op).2 := if_pos rfl
    have htail : ∀ n, i + 1 ≤ n → receipts n = rest n := fun n hn => if_neg (by omega)
    apply Exists.intro receipts
    dsimp only
    rw [gameRunBatch_cons,runBatch_cons,hhead,runBatch_congr _ _ htail]
    have hexec : s.game.executeOperation op (env.send s op).2 = (e.1.game,e.2) := rfl
    rw [hexec]
    change (match e.2.halted op executed skipped with
      | some batch => (e.1,batch)
      | none => env.runBatch e.1 (executed + e.2.counts.1) (skipped + e.2.counts.2) ops).1.game = _ ∧
        _
    cases e.2.halted op executed skipped with
    | some batch => exact ⟨rfl,rfl,hsent⟩
    | none =>
      refine ⟨hgame,hbatch,?_⟩
      rw [dispatched_append,← List.append_assoc,← hsent]
      exact hrest

private theorem dispatched_conclude (g : GameRuntime) (subscribed : Bool) (ops : List CellOperation)
    (now executed : Nat) (ended : Option EndStatus) (final : GameState) :
    dispatched (g.conclude subscribed ops now executed ended final).2 = [] := by
  unfold GameRuntime.conclude
  cases ended with
  | none =>
    dsimp only
    split <;> rfl
  | some status =>
    dsimp only
    split <;> rfl

/-- A call is the one over the answers as they come. -/
theorem operate_refines (subscribed : Bool) (s : Session σ) (input : OperateInput) (now : Nat) :
    ∃ receipts : Nat → Receipt,
      let r := s.game.operate subscribed input receipts now
      let r' := env.operate subscribed s input now
      r'.session.game = r.runtime ∧ r'.outcome = r.outcome ∧
        r'.session.sent = s.sent ++ dispatched r.effects := by
  obtain ⟨receipts,hgame,hbatch,hsent⟩ := @runBatch_refines _ _ env s 0 0 0 input.operations
  apply Exists.intro receipts
  unfold GameRuntime.operate Env.operate
  dsimp only
  by_cases hempty : input.operations = []
  · rw [if_pos hempty,if_pos hempty]
    cases s.game.recognized with
    | none => simp [dispatched]
    | some board => simp [dispatched]
  · rw [if_neg hempty,if_neg hempty]
    rcases hloop : env.runBatch s 0 0 input.operations with ⟨s',batch⟩
    rcases hreplay : GameRuntime.runBatch receipts s.game 0 0 0 input.operations with ⟨g,batch',es⟩
    rw [hloop,hreplay] at hgame hbatch hsent
    dsimp only at hgame hbatch hsent
    subst hgame hbatch
    cases batch with
    | dispatchFailed message => exact ⟨rfl,rfl,hsent⟩
    | unrecognizable => exact ⟨rfl,rfl,hsent⟩
    | done executed skipped stopped =>
      dsimp only
      cases s'.game.recognized with
      | none => exact ⟨rfl,rfl,hsent⟩
      | some final =>
        refine ⟨rfl,rfl,?_⟩
        dsimp only
        rw [dispatched_append,dispatched_conclude,List.append_nil]
        exact hsent

/-! ## What a call settles -/

/-- A record without its timestamp. -/
def GameEventRecord.core (record : GameEventRecord) : GameEventRecord :=
  { record with endedAt := 0 }

/-- A runtime without its log and without the timestamp of its record. -/
def GameRuntime.core (g : GameRuntime) : GameRuntime :=
  { g with gameLog := [], gameEvent := g.gameEvent.map GameEventRecord.core }

def Session.core (s : Session σ) : Session σ :=
  { s with game := s.game.core }

/-- The core of a session after its call ended so. -/
def settled (r : Session σ × Batch) : Session σ :=
  match r.2.ended,r.1.game.recognized with
  | some status,some final =>
    let g := r.1.game
    let stats := computeGameStats g.initState final g.operationCount g.operationsByType
    { r.1 with game := { g.core with gameEvent := some ⟨status,stats,0⟩ } }
  | _,_ => r.1.core

@[simp] theorem core_core (s : Session σ) : s.core.core = s.core := by
  simp only [Session.core,GameRuntime.core,Option.map_map]
  rfl

private theorem gameExecuteOperation_core (g : GameRuntime) (op : CellOperation)
    (receipt : Receipt) :
    g.core.executeOperation op receipt =
      ((g.executeOperation op receipt).1.core,(g.executeOperation op receipt).2) := by
  unfold GameRuntime.executeOperation
  have hboard : g.core.recognized = g.recognized := rfl
  rw [hboard]
  cases g.recognized with
  | none => rfl
  | some board =>
    dsimp only
    cases board.validateMove op.type op.x op.y with
    | some reason =>
      dsimp only
      split <;> rfl
    | none =>
      cases receipt with
      | failed message => rfl
      | received recognition => cases recognition <;> rfl

private theorem executeOperation_core (s : Session σ) (op : CellOperation) :
    env.executeOperation s.core op =
      ((env.executeOperation s op).1.core,(env.executeOperation s op).2) := by
  have hdispatches : s.core.game.dispatches op = s.game.dispatches op := rfl
  have hsend : env.send s.core op = ((env.send s op).1.core,(env.send s op).2) := by
    unfold Env.send
    rw [hdispatches]
    split <;> rfl
  unfold Env.executeOperation
  dsimp only
  rw [hsend]
  have hgame : s.core.game = s.game.core := rfl
  rw [hgame,gameExecuteOperation_core]
  rfl

private theorem executeOperation_congr (h : s.core = t.core) (op : CellOperation) :
    (env.executeOperation s op).1.core = (env.executeOperation t op).1.core ∧
      (env.executeOperation s op).2 = (env.executeOperation t op).2 := by
  have hs := @executeOperation_core _ _ env s op
  rw [h,executeOperation_core] at hs
  exact ⟨(congrArg Prod.fst hs).symm,(congrArg Prod.snd hs).symm⟩

private theorem settled_core (s : Session σ) (batch : Batch) :
    settled (s.core,batch) = settled (s,batch) := by
  unfold settled
  have hboard : s.core.game.recognized = s.game.recognized := rfl
  dsimp only
  rw [hboard]
  cases batch.ended with
  | none => exact core_core s
  | some status =>
    cases s.game.recognized with
    | none => exact core_core s
    | some final => rfl

private theorem settled_congr (h : s.core = t.core) {batch batch' : Batch}
    (hended : batch.ended = batch'.ended) : settled (s,batch) = settled (t,batch') := by
  have hbatch : settled (s,batch) = settled (s,batch') := by
    unfold settled
    dsimp only
    rw [hended]
  rw [hbatch,← settled_core s,h,settled_core]

private theorem operate_core (subscribed : Bool) (s : Session σ) (input : OperateInput)
    (now : Nat) :
    (env.operate subscribed s input now).session.core =
      settled (env.runBatch s 0 0 input.operations) ∧
    (env.operate subscribed s input now).batch = (env.runBatch s 0 0 input.operations).2 := by
  unfold Env.operate
  dsimp only
  by_cases hempty : input.operations = []
  · rw [if_pos hempty,hempty]
    cases s.game.recognized with
    | none => exact ⟨rfl,rfl⟩
    | some board => exact ⟨rfl,rfl⟩
  · rw [if_neg hempty]
    rcases env.runBatch s 0 0 input.operations with ⟨s',batch⟩
    cases batch with
    | dispatchFailed message => exact ⟨rfl,rfl⟩
    | unrecognizable => exact ⟨rfl,rfl⟩
    | done executed skipped stopped =>
      dsimp only
      refine ⟨?_,?_⟩
      · unfold settled
        cases hboard : s'.game.recognized with
        | none =>
          simp only
          split
          · rename_i heq
            cases heq
          · rfl
        | some final =>
          have hended : Batch.ended (.done executed skipped stopped) =
              GameRuntime.endedStatus stopped := rfl
          simp only [hended]
          cases GameRuntime.endedStatus stopped with
          | none => rfl
          | some status => rfl
      · cases s'.game.recognized <;> rfl

/-! ## The comparison -/

private theorem halted_ended {verdict : OpExecution} {executed skipped : Nat}
    (executed' skipped' : Nat)
    {batch : Batch} (h : verdict.halted op executed skipped = some batch) :
    batch.through = false ∧
      ∃ batch', verdict.halted op executed' skipped' = some batch' ∧ batch'.through = false ∧
        batch'.ended = batch.ended := by
  cases verdict with
  | ok state =>
    cases hstatus : state.gameStatus with
    | playing => simp [OpExecution.halted,hstatus] at h
    | concluded status =>
      simp only [OpExecution.halted,hstatus] at h ⊢
      obtain rfl := Option.some.inj h
      exact ⟨rfl,_,rfl,rfl,rfl⟩
  | skip reason => cases h
  | stop reason =>
    obtain rfl := Option.some.inj h
    exact ⟨rfl,_,rfl,rfl,rfl⟩
  | dispatchFailed message =>
    obtain rfl := Option.some.inj h
    exact ⟨rfl,_,rfl,rfl,rfl⟩
  | unrecognizable =>
    obtain rfl := Option.some.inj h
    exact ⟨rfl,_,rfl,rfl,rfl⟩

private theorem halted_none {verdict : OpExecution} {executed skipped executed' skipped' : Nat}
    (h : verdict.halted op executed skipped = none) :
    verdict.halted op executed' skipped' = none := by
  cases h' : verdict.halted op executed' skipped' with
  | none => rfl
  | some batch =>
    obtain ⟨-,batch',hbatch,-⟩ :=
      halted_ended executed skipped h'
    rw [h] at hbatch
    cases hbatch

/-- The loop over many operations settles what the calls over one each do. -/
theorem settled_runBatch (subscribed : Bool) (ops : List CellOperation) (h : s.core = t.core)
    (executed skipped : Nat) (now : Nat → Nat) :
    settled (env.runBatch s executed skipped ops) = (env.stepwise subscribed t now ops).core := by
  induction ops generalizing s t executed skipped now with
  | nil => exact h
  | cons op ops ih =>
    obtain ⟨hcore,hverdict⟩ := @executeOperation_congr _ _ env _ _ h op
    obtain ⟨hcall,hbatch⟩ := @operate_core _ _ env subscribed t (.single op) (now 0)
    have hsingle : (OperateInput.single op).operations = [op] := rfl
    rw [hsingle,runBatch_cons] at hcall hbatch
    rw [runBatch_cons,hverdict,Env.stepwise]
    cases hhalt : (env.executeOperation t op).2.halted op executed skipped with
    | some batch =>
      obtain ⟨-,batch',hhalt',hthrough,hended⟩ :=
        halted_ended 0 0 hhalt
      rw [hhalt'] at hcall hbatch
      dsimp only at hcall hbatch
      rw [hbatch,hthrough]
      simp only [Bool.false_eq_true,if_false]
      rw [hcall]
      exact settled_congr hcore hended.symm
    | none =>
      rw [halted_none hhalt] at hcall hbatch
      dsimp only at hcall hbatch
      rw [Env.runBatch] at hcall hbatch
      rw [hbatch]
      simp only [Batch.through,if_true]
      apply ih
      rw [hcall]
      exact hcore

/-- A verdict after which the loop goes on. -/
def OpExecution.goesOn : OpExecution → Bool
  | .ok state => decide (state.gameStatus = .playing)
  | .skip _ => true
  | _ => false

private theorem halted_of_goesOn {verdict : OpExecution} (op : CellOperation)
    (executed skipped : Nat)
    (h : verdict.goesOn = false) : ∃ batch, verdict.halted op executed skipped = some batch := by
  cases verdict with
  | ok state =>
    cases hstatus : state.gameStatus with
    | playing => simp [OpExecution.goesOn,hstatus] at h
    | concluded status => exact ⟨_,by simp only [OpExecution.halted,hstatus]; rfl⟩
  | skip reason => cases h
  | stop reason => exact ⟨_,rfl⟩
  | dispatchFailed message => exact ⟨_,rfl⟩
  | unrecognizable => exact ⟨_,rfl⟩

private theorem runBatch_append {pre : List CellOperation} {executed skipped : Nat}
    (h : (env.runBatch s executed skipped pre).2.through = true) (post : List CellOperation) :
    ∃ executed' skipped', env.runBatch s executed skipped (pre ++ post) =
      env.runBatch (env.runBatch s executed skipped pre).1 executed' skipped' post := by
  induction pre generalizing s executed skipped with
  | nil => exact ⟨executed,skipped,rfl⟩
  | cons op pre ih =>
    rw [runBatch_cons] at h
    rw [List.cons_append,runBatch_cons,runBatch_cons]
    cases hhalt : (env.executeOperation s op).2.halted op executed skipped with
    | some batch =>
      rw [hhalt] at h
      have hthrough := (halted_ended 0 0 hhalt).1
      simp [hthrough] at h
    | none =>
      rw [hhalt] at h
      exact ih h

/-- Nothing is dispatched on a board that is over. -/
theorem runBatch_sent_of_over (h : Over s.game) (executed skipped : Nat)
    (ops : List CellOperation) : (env.runBatch s executed skipped ops).1.sent = s.sent := by
  cases ops with
  | nil => rfl
  | cons op ops =>
    have hquiet : s.game.dispatches op = false := by
      unfold GameRuntime.dispatches
      cases hboard : s.game.recognized with
      | none => rfl
      | some board =>
        obtain ⟨reason,hreason,-⟩ :=
          GameState.validateMove_of_over (h board hboard) op.type op.x op.y
        simp [hreason]
    have hsent := @executeOperation_sent _ _ env s op
    rw [hquiet] at hsent
    have hstop : (env.executeOperation s op).2.goesOn = false := by
      rcases executeOperation_cases s.game op (env.send s op).2 with
        ⟨state,-,hopen⟩ | ⟨reason,-,hopen⟩ | ⟨reason,hexec⟩ | ⟨message,-,hopen⟩ | ⟨-,hopen⟩
      · exact absurd h hopen
      · exact absurd h hopen
      · simp [Env.executeOperation,hexec,OpExecution.goesOn]
      · exact absurd h hopen
      · exact absurd h hopen
    obtain ⟨batch,hhalt⟩ :=
      halted_of_goesOn op executed skipped hstop
    rw [runBatch_cons]
    rw [hhalt]
    simpa [dispatched] using hsent

private theorem operate_sent (subscribed : Bool) (s : Session σ) (input : OperateInput)
    (now : Nat) :
    (env.operate subscribed s input now).session.sent =
      (env.runBatch s 0 0 input.operations).1.sent := by
  have hcore := congrArg Session.sent (@operate_core _ _ env subscribed s input now).1
  have hsettled : ∀ r : Session σ × Batch, (settled r).sent = r.1.sent := by
    intro r
    unfold settled
    split <;> rfl
  rw [hsettled] at hcore
  exact hcore

/-- What two sessions with one core agree on. -/
theorem agree_of_core (h : s.core = t.core) :
    s.sent = t.sent ∧ s.api = t.api ∧ s.game.recognized = t.game.recognized ∧
      s.game.operationCount = t.game.operationCount ∧
      s.game.operationsByType = t.game.operationsByType ∧ s.game.initState = t.game.initState ∧
      s.game.gameEvent.map GameEventRecord.core = t.game.gameEvent.map GameEventRecord.core := by
  simp only [Session.core,GameRuntime.core,Session.mk.injEq,GameRuntime.mk.injEq] at h
  obtain ⟨⟨hboard,hinit,hcount,htype,-,hevent⟩,hapi,hsent⟩ := h
  exact ⟨hsent,hapi,hboard,hcount,htype,hinit,hevent⟩

/-- One call with a list of operations does what one call for each of them does, stopping where
they stop; and after an end of the game, a stop or a failure nothing is dispatched. -/
theorem batch_play_is_stepwise (env : Env σ Png) (subscribed : Bool) (s : Session σ)
    (ops : List CellOperation) (now : Nat) (nows : Nat → Nat) :
    let batch := (env.operate subscribed s (.batch ops) now).session
    let steps := env.stepwise subscribed s nows ops
    (batch.sent = steps.sent ∧ batch.api = steps.api ∧
      batch.game.recognized = steps.game.recognized ∧
      batch.game.operationCount = steps.game.operationCount ∧
      batch.game.operationsByType = steps.game.operationsByType ∧
      batch.game.initState = steps.game.initState ∧
      batch.game.gameEvent.map GameEventRecord.core =
        steps.game.gameEvent.map GameEventRecord.core) ∧
    (Over s.game → batch.sent = s.sent) ∧
    ∀ pre op post, ops = pre ++ op :: post →
      (env.runBatch s 0 0 pre).2.through = true →
      let e := env.executeOperation (env.runBatch s 0 0 pre).1 op
      e.2.goesOn = false → batch.sent = e.1.sent := by
  dsimp only
  have hbatch := (@operate_core _ _ env subscribed s (.batch ops) now).1
  rw [show (OperateInput.batch ops).operations = ops from rfl,
    settled_runBatch subscribed ops rfl 0 0 nows] at hbatch
  have hsent := @operate_sent _ _ env subscribed s (.batch ops) now
  refine ⟨agree_of_core hbatch,?_,?_⟩
  · intro hover
    rw [hsent]
    exact runBatch_sent_of_over hover 0 0 ops
  · intro pre op post hops hthrough hstop
    obtain ⟨executed,skipped,happend⟩ := runBatch_append hthrough (op :: post)
    obtain ⟨batch,hhalt⟩ :=
      halted_of_goesOn op executed skipped hstop
    rw [hsent,show (OperateInput.batch ops).operations = ops from rfl,hops,happend,runBatch_cons]
    rw [hhalt]

end play

end Dominion.Game
