import Dominion.Framework.Lts
import Dominion.Deploy.Domain.Spec
import Mathlib.Data.List.Sort
import Mathlib.Data.Prod.Lex
import Mathlib.Data.String.Basic

/-! # The application life cycle

Components are registered, and one call of RunSignal starts them, waits and stops them, while
their exit channels, the monitors of these and the signals go on beside it. -/
namespace Dominion.Bootstrap

open Dominion.Framework
open Dominion.Deploy.Domain (goQuote)

structure Component where
  name : String
  stage : Int
  /-- Whether it implements `exitWatcher`. -/
  watches : Bool
  deriving DecidableEq, Repr

/-- Stage, then name. -/
def startsBefore (a b : Component) : Bool :=
  if a.stage ≠ b.stage then a.stage < b.stage else a.name < b.name

/-- A stable sort. -/
def sortComponents (components : List Component) : List Component :=
  components.insertionSort fun a b => startsBefore b a = false

inductive ComponentStop
  | ok
  | failed (error : String)
  | panicked (value : String)
  deriving DecidableEq, Repr

/-- What a component put on its exit channel. -/
structure ExitReport where
  name : String
  error : Option String
  deriving DecidableEq, Repr

inductive RunEvent
  | start (c : Component) (error : Option String)
  | healthStart (error : Option String)
  /-- The trigger that was taken, no cause for a signal, and the reports so far. -/
  | trigger (cause : Option String) (reported : List ExitReport)
  | healthStop (error : Option String)
  | stop (c : Component) (result : ComponentStop)
  deriving DecidableEq, Repr

/-- The errors that an event adds to the returned one. -/
def RunEvent.errors : RunEvent → List String
  | .start _ none => []
  | .start c (some error) =>
    ["bootstrap: component " ++ goQuote c.name ++ " failed to start: " ++ error]
  | .healthStart error => error.toList
  | .trigger cause _ => cause.toList
  | .healthStop error => error.toList
  | .stop _ .ok => []
  | .stop c (.failed error) => ["bootstrap: component " ++ goQuote c.name ++ " Stop: " ++ error]
  | .stop c (.panicked value) =>
    ["bootstrap: component " ++ goQuote c.name ++ " Stop panicked: " ++ value]

/-- An error is the list of those it joins, and nil is the empty one. -/
inductive RunPhase
  | starting (rest : List Component)
  | healthStarting
  | waiting
  | healthStopping (errors : List String)
  | stopping (rest : List Component) (errors : List String)
  | returned (errors : List String)
  deriving DecidableEq, Repr

structure Run where
  phase : RunPhase
  started : List Component := []
  /-- A signal arrived, or the context is done. -/
  signalled : Bool := false
  reports : List ExitReport := []
  /-- The components whose exit channel a monitor still waits for. -/
  monitors : List Component := []
  /-- The errors that monitors have received. -/
  received : List String := []
  /-- The channel of the exits, of capacity one. -/
  serverExit : Option String := none
  log : List RunEvent := []
  deriving DecidableEq, Repr

structure App where
  components : List Component := []
  /-- The run, once RunSignal was called. -/
  run : Option Run := none
  deriving DecidableEq, Repr

inductive AppStep
  | register (c : Component)
  | runSignal
  | signal
  | report (r : ExitReport)
  | receive (c : Component)
  | forward (error : String)
  | start (error : Option String)
  | started
  | healthStart (error : Option String)
  | takeSignal
  | takeExit
  | healthStop (error : Option String)
  | stop (result : ComponentStop)
  | finish
  deriving DecidableEq, Repr

def App.register (app : App) (c : Component) : Except String App :=
  if app.run.isSome then .error "bootstrap: cannot register component after Run has been called"
  else if c.name ∈ app.components.map Component.name then
    .error ("bootstrap: duplicate component name " ++ goQuote c.name)
  else .ok { app with components := app.components ++ [c] }

def App.runSignal (app : App) : Except String App :=
  if app.run.isSome then .error "bootstrap: Run has already been called"
  else .ok { app with run := some { phase := .starting (sortComponents app.components) } }

namespace Run

variable (r : Run)

/-- A failure rolls the started components back. -/
def start (error : Option String) : Option Run :=
  match r.phase with
  | .starting (c :: rest) =>
    let event := .start c error
    if error = none then
      some { r with phase := .starting rest, started := r.started ++ [c], log := r.log ++ [event] }
    else
      some { r with phase := .stopping r.started.reverse event.errors, log := r.log ++ [event] }
  | _ => none

def allStarted : Option Run :=
  if r.phase = .starting [] then some { r with phase := .healthStarting } else none

def healthStart (error : Option String) : Option Run :=
  if r.phase = .healthStarting then
    let event := .healthStart error
    if error = none then
      some { r with
        phase := .waiting
        monitors := r.started.filter fun c => c.watches
        log := r.log ++ [event] }
    else
      some { r with phase := .stopping r.started.reverse event.errors, log := r.log ++ [event] }
  else none

def takeTrigger (cause : Option String) : Run :=
  let event := .trigger cause r.reports
  { r with phase := .healthStopping event.errors, log := r.log ++ [event] }

def takeSignal : Option Run :=
  if r.phase = .waiting ∧ r.signalled = true then some (r.takeTrigger none) else none

def takeExit : Option Run :=
  if r.phase = .waiting ∧ r.serverExit.isSome = true then
    some ({ r with serverExit := none }.takeTrigger r.serverExit)
  else none

def healthStop (error : Option String) : Option Run :=
  match r.phase with
  | .healthStopping errors =>
    let event := .healthStop error
    some { r with
      phase := .stopping r.started.reverse (errors ++ event.errors)
      log := r.log ++ [event] }
  | _ => none

/-- An error or a panic skips none of the later ones. -/
def stop (result : ComponentStop) : Option Run :=
  match r.phase with
  | .stopping (c :: rest) errors =>
    let event := .stop c result
    some { r with phase := .stopping rest (errors ++ event.errors), log := r.log ++ [event] }
  | _ => none

def finish : Option Run :=
  match r.phase with
  | .stopping [] errors => some { r with phase := .returned errors }
  | _ => none

/-- A monitor receives the first report of its component, and goes on with an error only. -/
def receive (c : Component) : Option Run :=
  if c ∈ r.monitors then
    (r.reports.find? fun report => report.name = c.name).map fun report =>
      { r with
        monitors := r.monitors.erase c
        received := r.received ++ report.error.toList.map fun error =>
          "bootstrap: component " ++ goQuote c.name ++ " exited: " ++ error }
  else none

/-- An error that finds the channel full is dropped. -/
def forward (error : String) : Option Run :=
  if error ∈ r.received then
    some { r with
      received := r.received.erase error
      serverExit := some (r.serverExit.getD error) }
  else none

end Run

namespace App

variable (app : App)

/-- A step of the run. -/
def running (f : Run → Option Run) : Option App :=
  app.run.bind fun r => (f r).map fun r' => { app with run := some r' }

/-- A refused call changes nothing. -/
def step : AppStep → Option App
  | .register c => some ((app.register c).toOption.getD app)
  | .runSignal => some (app.runSignal.toOption.getD app)
  | .signal => app.running fun r => some { r with signalled := true }
  | .report report => app.running fun r => some { r with reports := r.reports ++ [report] }
  | .receive c => app.running fun r => r.receive c
  | .forward error => app.running fun r => r.forward error
  | .start error => app.running fun r => r.start error
  | .started => app.running Run.allStarted
  | .healthStart error => app.running fun r => r.healthStart error
  | .takeSignal => app.running Run.takeSignal
  | .takeExit => app.running Run.takeExit
  | .healthStop error => app.running fun r => r.healthStop error
  | .stop result => app.running fun r => r.stop result
  | .finish => app.running Run.finish

end App

def appSystem : Lts App AppStep where
  init app := app = {}
  step := App.step

/-! ## The order of the starts -/

def startKey (c : Component) : Lex (Int × String) :=
  toLex (c.stage,c.name)

private theorem startsBefore_iff (a b : Component) :
    startsBefore a b = true ↔ startKey a < startKey b := by
  rw [startKey,startKey,Prod.Lex.toLex_lt_toLex]
  unfold startsBefore
  by_cases hstage : a.stage = b.stage
  · simp [hstage]
  · simp [hstage]

private theorem perm_sortComponents (components : List Component) :
    (sortComponents components).Perm components :=
  List.perm_insertionSort _ components

/-- Components of different names are in strictly ascending order. -/
theorem pairwise_sortComponents {components : List Component}
    (hnames : (components.map Component.name).Nodup) :
    (sortComponents components).Pairwise fun a b => startsBefore a b = true := by
  have hle : ∀ a b : Component, startsBefore b a = false ↔ startKey a ≤ startKey b := by
    intro a b
    rw [← Bool.not_eq_true,startsBefore_iff,not_lt]
  have htotal : Std.Total fun a b : Component => startsBefore b a = false :=
    ⟨fun a b => by rw [hle,hle]; exact le_total _ _⟩
  have htrans : IsTrans Component fun a b => startsBefore b a = false :=
    ⟨fun a b c hab hbc => (hle a c).mpr (((hle a b).mp hab).trans ((hle b c).mp hbc))⟩
  have hsorted : (sortComponents components).Pairwise fun a b => startsBefore b a = false :=
    List.pairwise_insertionSort _ components
  have hdistinct : (sortComponents components).Pairwise fun a b => a.name ≠ b.name :=
    List.pairwise_map.mp (((perm_sortComponents components).map _).nodup_iff.mpr hnames)
  refine hsorted.imp₂ (fun a b hab hname => ?_) hdistinct
  rw [startsBefore_iff]
  refine lt_of_le_of_ne ((hle a b).mp hab) fun he => hname ?_
  exact congrArg (fun key => (ofLex key).2) he

/-! ## The life of a run -/

def RunEvent.fails : RunEvent → Bool
  | .start _ error => error.isSome
  | .healthStart error => error.isSome
  | .trigger cause _ => cause.isSome
  | .healthStop error => error.isSome
  | .stop _ result => result ≠ .ok

def startedAll (components : List Component) : List RunEvent :=
  components.map fun c => .start c none

/-- What happens before the stops: which components were started, and why they are stopped. -/
inductive Rise (order : List Component) : List Component → List RunEvent → Prop
  | startFailed {started rest : List Component} {c : Component} {error : String} :
    order = started ++ c :: rest →
      Rise order started (startedAll started ++ [.start c (some error)])
  | healthFailed {error : String} : Rise order order (startedAll order ++ [.healthStart (some error)])
  | triggered {cause : Option String} {reported : List ExitReport} {error : Option String} :
    Rise order order (startedAll order ++
      [.healthStart none,.trigger cause reported,.healthStop error])

/-- The components are stopped in turn, each once. -/
def Stops (components : List Component) (log : List RunEvent) : Prop :=
  ∃ results : List (Component × ComponentStop), results.map Prod.fst = components ∧
    log = results.map fun r => .stop r.1 r.2

def Lived (order : List Component) (log : List RunEvent) : Prop :=
  ∃ started head stops, Rise order started head ∧ Stops started.reverse stops ∧ log = head ++ stops

def RunPhase.errors : RunPhase → List String
  | .healthStopping errors => errors
  | .stopping _ errors => errors
  | .returned errors => errors
  | _ => []

/-- Where the log is in each phase. -/
def Logged (order : List Component) (r : Run) : Prop :=
  match r.phase with
  | .starting rest => order = r.started ++ rest ∧ r.log = startedAll r.started
  | .healthStarting => r.started = order ∧ r.log = startedAll order
  | .waiting => r.started = order ∧ r.log = startedAll order ++ [.healthStart none]
  | .healthStopping _ => r.started = order ∧ ∃ cause reported,
      r.log = startedAll order ++ [.healthStart none,.trigger cause reported]
  | .stopping rest _ => ∃ head stopped stops, Rise order r.started head ∧
      stopped ++ rest = r.started.reverse ∧ Stops stopped stops ∧ r.log = head ++ stops
  | .returned _ => Lived order r.log

/-- The error of a monitor's component, as the run would return it. -/
def Exited (reports : List ExitReport) (error : String) : Prop :=
  ∃ report ∈ reports, ∃ cause, report.error = some cause ∧
    error = "bootstrap: component " ++ goQuote report.name ++ " exited: " ++ cause

/-- A trigger is a signal that arrived or an exit that was reported. -/
def Taken (r : Run) : RunEvent → Prop
  | .trigger none _ => r.signalled = true
  | .trigger (some cause) reported => Exited reported cause
  | _ => True

structure RunInv (order : List Component) (r : Run) : Prop where
  logged : Logged order r
  errors : r.phase.errors = r.log.flatMap RunEvent.errors
  received : ∀ e ∈ r.received, Exited r.reports e
  exited : ∀ e, r.serverExit = some e → Exited r.reports e
  taken : ∀ event ∈ r.log, Taken r event

section run

variable {order : List Component} {r r' : Run}

private theorem startedAll_concat (components : List Component) (c : Component) :
    startedAll (components ++ [c]) = startedAll components ++ [.start c none] := by
  simp [startedAll]

/-- An event is logged with its errors. -/
theorem errors_concat (log : List RunEvent) (event : RunEvent) :
    (log ++ [event]).flatMap RunEvent.errors = log.flatMap RunEvent.errors ++ event.errors := by
  simp

private theorem fails_iff (event : RunEvent) : event.fails = true ↔ event.errors ≠ [] := by
  cases event with
  | start c error => cases error <;> simp [RunEvent.fails,RunEvent.errors]
  | healthStart error => cases error <;> simp [RunEvent.fails,RunEvent.errors]
  | trigger cause reported => cases cause <;> simp [RunEvent.fails,RunEvent.errors]
  | healthStop error => cases error <;> simp [RunEvent.fails,RunEvent.errors]
  | stop c result => cases result <;> simp [RunEvent.fails,RunEvent.errors]

private theorem taken_concat {event : RunEvent} (hlog : ∀ e ∈ r.log, Taken r e)
    (hevent : Taken r event) :
    ∀ e ∈ r.log ++ [event], Taken r e := by
  intro e he
  rcases List.mem_append.mp he with hold | hnew
  · exact hlog e hold
  · rw [List.mem_singleton.mp hnew]
    exact hevent

private theorem RunInv.start (h : RunInv order r) {error : Option String}
    (hr : r.start error = some r') :
    RunInv order r' := by
  unfold Run.start at hr
  split at hr
  · rename_i c rest hphase
    have hlogged := h.logged
    have herrors := h.errors
    simp only [Logged,hphase] at hlogged
    obtain ⟨horder,hlog⟩ := hlogged
    rw [hphase] at herrors
    cases error with
    | none =>
      cases hr
      exact {
        logged := ⟨by rw [horder]; simp,by rw [startedAll_concat,hlog]⟩
        errors := by
          rw [errors_concat,← herrors]
          rfl
        received := h.received
        exited := h.exited
        taken := taken_concat h.taken trivial }
    | some error =>
      cases hr
      exact {
        logged := ⟨r.log ++ [.start c (some error)],[],[],by rw [hlog]; exact .startFailed horder,rfl,
          ⟨[],rfl,rfl⟩,(List.append_nil _).symm⟩
        errors := by
          rw [errors_concat,← herrors]
          rfl
        received := h.received
        exited := h.exited
        taken := taken_concat h.taken trivial }
  · cases hr

private theorem RunInv.allStarted (h : RunInv order r) (hr : r.allStarted = some r') :
    RunInv order r' := by
  obtain ⟨hphase,rfl⟩ := of_guard hr
  have hlogged := h.logged
  have herrors := h.errors
  simp only [Logged,hphase,List.append_nil] at hlogged
  rw [hphase] at herrors
  obtain ⟨horder,hlog⟩ := hlogged
  exact {
    logged := ⟨horder.symm,by rw [horder]; exact hlog⟩
    errors := herrors
    received := h.received
    exited := h.exited
    taken := h.taken }

private theorem RunInv.healthStart (h : RunInv order r) {error : Option String}
    (hr : r.healthStart error = some r') : RunInv order r' := by
  unfold Run.healthStart at hr
  split at hr
  · rename_i hphase
    have hlogged := h.logged
    have herrors := h.errors
    simp only [Logged,hphase] at hlogged
    obtain ⟨hstarted,hlog⟩ := hlogged
    rw [hphase] at herrors
    cases error with
    | none =>
      cases hr
      exact {
        logged := ⟨hstarted,by rw [hlog]⟩
        errors := by
          rw [errors_concat,← herrors]
          rfl
        received := h.received
        exited := h.exited
        taken := taken_concat h.taken trivial }
    | some error =>
      cases hr
      exact {
        logged := ⟨r.log ++ [.healthStart (some error)],[],[],by rw [hlog,hstarted]; exact .healthFailed,
          rfl,⟨[],rfl,rfl⟩,(List.append_nil _).symm⟩
        errors := by
          rw [errors_concat,← herrors]
          rfl
        received := h.received
        exited := h.exited
        taken := taken_concat h.taken trivial }
  · cases hr

/-- A trigger that is due. -/
theorem RunInv.takeTrigger (h : RunInv order r) (hphase : r.phase = .waiting) {cause : Option String}
    (hdue : Taken r (.trigger cause r.reports)) : RunInv order (r.takeTrigger cause) := by
  have hlogged := h.logged
  have herrors := h.errors
  simp only [Logged,hphase] at hlogged
  obtain ⟨hstarted,hlog⟩ := hlogged
  rw [hphase] at herrors
  have htaken : ∀ event ∈ (r.takeTrigger cause).log, Taken r event := taken_concat h.taken hdue
  exact {
    logged := ⟨hstarted,cause,r.reports,by simp [Run.takeTrigger,hlog]⟩
    errors := by
      have hlogs : (r.takeTrigger cause).log = r.log ++ [.trigger cause r.reports] := rfl
      rw [hlogs,errors_concat,← herrors]
      rfl
    received := h.received
    exited := h.exited
    taken := htaken }

private theorem RunInv.takeSignal (h : RunInv order r) (hr : r.takeSignal = some r') :
    RunInv order r' := by
  obtain ⟨⟨hphase,hsignalled⟩,rfl⟩ := of_guard hr
  exact h.takeTrigger hphase hsignalled

private theorem RunInv.takeExit (h : RunInv order r) (hr : r.takeExit = some r') :
    RunInv order r' := by
  obtain ⟨⟨hphase,hexit⟩,rfl⟩ := of_guard hr
  obtain ⟨cause,hcause⟩ := Option.isSome_iff_exists.mp hexit
  have hempty : RunInv order { r with serverExit := none } :=
    ⟨h.logged,h.errors,h.received,fun e he => (by cases he),h.taken⟩
  rw [hcause]
  exact hempty.takeTrigger hphase (h.exited cause hcause)

private theorem RunInv.healthStop (h : RunInv order r) {error : Option String}
    (hr : r.healthStop error = some r') : RunInv order r' := by
  unfold Run.healthStop at hr
  split at hr
  · rename_i errors hphase
    cases hr
    have hlogged := h.logged
    have herrors := h.errors
    simp only [Logged,hphase] at hlogged
    obtain ⟨hstarted,cause,reported,hlog⟩ := hlogged
    rw [hphase] at herrors
    have hrise : Rise order r.started (r.log ++ [.healthStop error]) := by
      rw [hlog,hstarted,List.append_assoc]
      exact .triggered
    exact {
      logged := ⟨_,[],[],hrise,rfl,⟨[],rfl,rfl⟩,(List.append_nil _).symm⟩
      errors := by
        rw [errors_concat,← herrors]
        rfl
      received := h.received
      exited := h.exited
      taken := taken_concat h.taken trivial }
  · cases hr

private theorem Stops.concat {components : List Component} {log : List RunEvent}
    (h : Stops components log)
    (c : Component) (result : ComponentStop) : Stops (components ++ [c]) (log ++ [.stop c result]) := by
  obtain ⟨results,hcomponents,hlog⟩ := h
  exact ⟨results ++ [(c,result)],by simp [hcomponents],by simp [hlog]⟩

private theorem RunInv.stop (h : RunInv order r) {result : ComponentStop}
    (hr : r.stop result = some r') :
    RunInv order r' := by
  unfold Run.stop at hr
  split at hr
  · rename_i c rest errors hphase
    cases hr
    have hlogged := h.logged
    have herrors := h.errors
    simp only [Logged,hphase] at hlogged
    obtain ⟨head,stopped,stops,hrise,hrest,hstops,hlog⟩ := hlogged
    rw [hphase] at herrors
    exact {
      logged := ⟨head,stopped ++ [c],stops ++ [.stop c result],hrise,by rw [← hrest]; simp,
        hstops.concat c result,by rw [hlog,List.append_assoc]⟩
      errors := by
        rw [errors_concat,← herrors]
        rfl
      received := h.received
      exited := h.exited
      taken := taken_concat h.taken trivial }
  · cases hr

private theorem RunInv.finish (h : RunInv order r) (hr : r.finish = some r') : RunInv order r' := by
  unfold Run.finish at hr
  split at hr
  · rename_i errors hphase
    cases hr
    have hlogged := h.logged
    have herrors := h.errors
    simp only [Logged,hphase] at hlogged
    obtain ⟨head,stopped,stops,hrise,hrest,hstops,hlog⟩ := hlogged
    rw [hphase] at herrors
    have hall : Stops r.started.reverse stops := by
      rw [← hrest,List.append_nil]
      exact hstops
    exact {
      logged := ⟨r.started,head,stops,hrise,hall,hlog⟩
      errors := herrors
      received := h.received
      exited := h.exited
      taken := h.taken }
  · cases hr

private theorem RunInv.receive (h : RunInv order r) {c : Component} (hr : r.receive c = some r') :
    RunInv order r' := by
  unfold Run.receive at hr
  split at hr
  · obtain ⟨report,hreport,rfl⟩ := Option.map_eq_some_iff.mp hr
    have hname : report.name = c.name := by simpa using List.find?_some hreport
    exact {
      logged := h.logged
      errors := h.errors
      received := by
        intro e he
        rcases List.mem_append.mp he with hold | hnew
        · exact h.received e hold
        · obtain ⟨cause,hcause,rfl⟩ := List.mem_map.mp hnew
          rw [← hname]
          exact ⟨report,List.mem_of_find?_eq_some hreport,cause,by simpa using hcause,rfl⟩
      exited := h.exited
      taken := h.taken }
  · cases hr

private theorem RunInv.forward (h : RunInv order r) {error : String}
    (hr : r.forward error = some r') :
    RunInv order r' := by
  obtain ⟨hmem,rfl⟩ := of_guard hr
  exact {
    logged := h.logged
    errors := h.errors
    received := fun e he => h.received e (List.mem_of_mem_erase he)
    exited := by
      intro e he
      have heq : r.serverExit.getD error = e := Option.some.inj he
      cases hexit : r.serverExit with
      | none =>
        rw [hexit] at heq
        rw [← heq]
        exact h.received error hmem
      | some first =>
        rw [hexit] at heq
        rw [← heq]
        exact h.exited first hexit
    taken := h.taken }

private theorem RunInv.signal (h : RunInv order r) : RunInv order { r with signalled := true } where
  logged := h.logged
  errors := h.errors
  received := h.received
  exited := h.exited
  taken := by
    intro event hevent
    have htaken := h.taken event hevent
    cases event with
    | trigger cause reported =>
      cases cause with
      | none => exact rfl
      | some cause => exact htaken
    | _ => trivial

private theorem Exited.grow {reports : List ExitReport} {error : String} (h : Exited reports error)
    (report : ExitReport) : Exited (reports ++ [report]) error := by
  obtain ⟨first,hfirst,hcause⟩ := h
  exact ⟨first,List.mem_append_left _ hfirst,hcause⟩

private theorem RunInv.report (h : RunInv order r) (report : ExitReport) :
    RunInv order { r with reports := r.reports ++ [report] } where
  logged := h.logged
  errors := h.errors
  received := fun e he => (h.received e he).grow report
  exited := fun e he => (h.exited e he).grow report
  taken := h.taken

end run

/-! ## The life of an application -/

structure AppInv (app : App) : Prop where
  names : (app.components.map Component.name).Nodup
  run : ∀ r, app.run = some r → RunInv (sortComponents app.components) r

section app

variable {app app' : App}

private theorem AppInv.running (h : AppInv app) {f : Run → Option Run}
    (hf : ∀ order r r', RunInv order r → f r = some r' → RunInv order r')
    (happ : app.running f = some app') : AppInv app' := by
  obtain ⟨r,hr,hmap⟩ := Option.bind_eq_some_iff.mp happ
  obtain ⟨r',hr',rfl⟩ := Option.map_eq_some_iff.mp hmap
  exact ⟨h.names,fun s hs => Option.some.inj hs ▸ hf _ r r' (h.run r hr) hr'⟩

private theorem AppInv.register (h : AppInv app) {c : Component}
    (happ : app.register c = .ok app') :
    AppInv app' := by
  unfold App.register at happ
  split at happ
  · cases happ
  · rename_i hrunning
    split at happ
    · cases happ
    · rename_i hname
      cases happ
      have hnone : app.run = none := by simpa using hrunning
      refine ⟨?_,fun r hr => ?_⟩
      · rw [List.map_append,List.nodup_append]
        refine ⟨h.names,List.nodup_singleton _,fun n hn n' hn' he => hname ?_⟩
        rw [← List.mem_singleton.mp hn',← he]
        exact hn
      · have hnever : (none : Option Run) = some r := hnone.symm.trans hr
        cases hnever

private theorem AppInv.runSignal (h : AppInv app) (happ : app.runSignal = .ok app') :
    AppInv app' := by
  unfold App.runSignal at happ
  split at happ
  · cases happ
  · cases happ
    refine ⟨h.names,fun r hr => ?_⟩
    cases hr
    exact {
      logged := ⟨rfl,rfl⟩
      errors := rfl
      received := by simp
      exited := by simp
      taken := by simp }

private theorem AppInv.step (h : AppInv app) {l : AppStep} (happ : app.step l = some app') :
    AppInv app' := by
  cases l with
  | register c =>
    have he := Option.some.inj happ
    rw [← he]
    cases hregister : app.register c with
    | error message => exact h
    | ok registered => exact h.register hregister
  | runSignal =>
    have he := Option.some.inj happ
    rw [← he]
    cases hrun : app.runSignal with
    | error message => exact h
    | ok started => exact h.runSignal hrun
  | signal => exact h.running (fun _ _ _ hr he => Option.some.inj he ▸ hr.signal) happ
  | report report => exact h.running (fun _ _ _ hr he => Option.some.inj he ▸ hr.report report) happ
  | receive c => exact h.running (fun _ _ _ hr he => hr.receive he) happ
  | forward error => exact h.running (fun _ _ _ hr he => hr.forward he) happ
  | start error => exact h.running (fun _ _ _ hr he => hr.start he) happ
  | started => exact h.running (fun _ _ _ hr he => hr.allStarted he) happ
  | healthStart error => exact h.running (fun _ _ _ hr he => hr.healthStart he) happ
  | takeSignal => exact h.running (fun _ _ _ hr he => hr.takeSignal he) happ
  | takeExit => exact h.running (fun _ _ _ hr he => hr.takeExit he) happ
  | healthStop error => exact h.running (fun _ _ _ hr he => hr.healthStop he) happ
  | stop result => exact h.running (fun _ _ _ hr he => hr.stop he) happ
  | finish => exact h.running (fun _ _ _ hr he => hr.finish he) happ

private theorem inductive_app : Lts.Inductive appSystem (fun _ _ => True) AppInv where
  init app happ := by
    have he : app = {} := happ
    rw [he]
    exact ⟨List.nodup_nil,fun r hr => (by cases hr)⟩
  step _ _ _ h _ happ := h.step happ

end app

/-- A run that has returned lived through one of the three shutdowns, and its error is that of all
the events: a signal that is taken as the trigger adds none, whatever was reported before. -/
theorem application_lifecycle : ∀ app, Lts.Reach appSystem app → ∀ r errors, app.run = some r →
    r.phase = .returned errors → ∃ order : List Component, order.Perm app.components ∧
      order.Pairwise (fun a b => startsBefore a b = true) ∧ Lived order r.log ∧
      errors = r.log.flatMap RunEvent.errors ∧
      (errors ≠ [] ↔ ∃ event ∈ r.log, event.fails = true) ∧ ∀ event ∈ r.log, Taken r event := by
  intro app happ r errors hr hphase
  have h := inductive_app.of_reachUnder happ
  have hrun := h.run r hr
  have hlived : Lived (sortComponents app.components) r.log := by
    have hlogged := hrun.logged
    simpa only [Logged,hphase] using hlogged
  have herrors : errors = r.log.flatMap RunEvent.errors := by
    have hphases := hrun.errors
    rwa [hphase] at hphases
  refine ⟨sortComponents app.components,perm_sortComponents _,pairwise_sortComponents h.names,hlived,
    herrors,?_,hrun.taken⟩
  rw [herrors,ne_eq,List.flatMap_eq_nil_iff]
  simp only [fails_iff,not_forall,ne_eq,exists_prop]

/-! ## Two runs -/

def aClient : Component :=
  ⟨"redis",200,false⟩

def aServer : Component :=
  ⟨"http",300,true⟩

def exitText : String :=
  "bootstrap: component \"http\" exited: listen"

def runOf (app : App) : Option (RunPhase × List RunEvent) :=
  app.run.map fun r => (r.phase,r.log)

private theorem runOf_some {app : App} {phase : RunPhase} {log : List RunEvent}
    (h : runOf app = some (phase,log)) : ∃ r, app.run = some r ∧ r.phase = phase ∧ r.log = log := by
  obtain ⟨r,hr,he⟩ := Option.map_eq_some_iff.mp h
  obtain ⟨hphase,hlog⟩ := Prod.mk.inj he
  exact ⟨r,hr,hphase,hlog⟩

/-- The server exits with an error, and the client panics as it is stopped. -/
theorem application_lifecycle_demo : ∃ app, Lts.Reach appSystem app ∧ ∃ r errors,
    app.run = some r ∧ r.phase = .returned errors ∧ errors ≠ [] ∧
      ∃ order : List Component, order.Perm app.components ∧ Lived order r.log := by
  obtain ⟨app,happ,hp⟩ := Lts.reach_of_run_any (M := appSystem) (s := {})
    (p := fun app => decide (runOf app = some (.returned
      [exitText,"bootstrap: component \"redis\" Stop panicked: nil"],
      startedAll [aClient,aServer] ++ [.healthStart none,
        .trigger (some exitText) [⟨"http",some "listen"⟩],.healthStop none,.stop aServer .ok,
        .stop aClient (.panicked "nil")])))
    [.register aServer,.register aClient,.runSignal,.start none,.start none,.started,
      .healthStart none,.report ⟨"http",some "listen"⟩,.receive aServer,.forward exitText,.takeExit,
      .healthStop none,.stop .ok,.stop (.panicked "nil"),.finish]
    (.init rfl) (by decide)
  obtain ⟨r,hr,hphase,-⟩ := runOf_some (of_decide_eq_true hp)
  obtain ⟨order,hperm,-,hlived,-⟩ := application_lifecycle app happ r _ hr hphase
  exact ⟨app,happ,r,_,hr,hphase,by simp,order,hperm,hlived⟩

/-- The exit error waits in the channel as the signal is taken. -/
theorem exit_error_lost_to_signal : ¬∀ app, Lts.Reach appSystem app → ∀ r errors,
    app.run = some r → r.phase = .returned errors → ∀ cause reported,
    .trigger cause reported ∈ r.log → (∃ report ∈ reported, report.error ≠ none) → errors ≠ [] := by
  intro h
  obtain ⟨app,happ,hp⟩ := Lts.reach_of_run_any (M := appSystem) (s := {})
    (p := fun app => decide (runOf app = some (.returned [],
      startedAll [aServer] ++ [.healthStart none,.trigger none [⟨"http",some "listen"⟩],
        .healthStop none,.stop aServer .ok])))
    [.register aServer,.runSignal,.start none,.started,.healthStart none,
      .report ⟨"http",some "listen"⟩,.receive aServer,.forward exitText,.signal,.takeSignal,
      .healthStop none,.stop .ok,.finish] (.init rfl) (by decide)
  obtain ⟨r,hr,hphase,hlog⟩ := runOf_some (of_decide_eq_true hp)
  exact h app happ r [] hr hphase none [⟨"http",some "listen"⟩] (by simp [hlog])
    ⟨_,List.mem_cons_self,by simp⟩ rfl

end Dominion.Bootstrap
