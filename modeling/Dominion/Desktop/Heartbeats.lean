import Dominion.Desktop.Settlement
import Mathlib.Data.List.Basic

/-! # The heartbeats

A connection that is disconnected while it is being attached gets a heartbeat that nobody stops. -/
namespace Dominion.Desktop

open Dominion.Framework

/-- The confirmation frame raises no event of the connection that is being attached. -/
def Undisturbed (w : World) : Label → Bool
  | .attach s ending confirming =>
    decide ((w.takeOver s ending).attached.length ∉ confirming.events)
  | _ => true

/-- A heartbeat runs exactly for the registered connections. -/
def Exact (w : World) : Prop :=
  ∀ c, c ∈ w.heartbeats ↔ ∃ s, w.connections s = some c

/-- A heartbeat runs for a connection that is not registered. -/
def Leaked (w : World) : Prop :=
  ∃ c ∈ w.heartbeats, ∀ s, w.connections s ≠ some c

/-- The heartbeats outside of an attach. -/
structure Beating (w : World) (clean : Bool) : Prop where
  bounded : ∀ c ∈ w.heartbeats, c < w.attached.length
  exact : clean = true → Exact w
  leaked : clean = false → Leaked w

section heartbeats

variable {mint : Nat → String} {w w' : World} {s : String} {c : Nat} {clean : Bool}

/-- The part of the world that the heartbeats depend on is the same. -/
structure SameRegistry (w w' : World) : Prop where
  connections : w'.connections = w.connections
  heartbeats : w'.heartbeats = w.heartbeats
  attached : w'.attached = w.attached

private theorem SameRegistry.refl (w : World) : SameRegistry w w :=
  ⟨rfl,rfl,rfl⟩

private theorem SameRegistry.trans {w'' : World} (h : SameRegistry w w')
    (h' : SameRegistry w' w'') :
    SameRegistry w w'' :=
  ⟨h'.connections.trans h.connections,h'.heartbeats.trans h.heartbeats,
    h'.attached.trans h.attached⟩

private theorem Beating.same (h : Beating w clean) (hw : SameRegistry w w') : Beating w' clean := by
  obtain ⟨hconnections,hheartbeats,hattached⟩ := hw
  refine ⟨?_,fun hc => ?_,fun hc => ?_⟩
  · rw [hheartbeats,hattached]
    exact h.bounded
  · have hold := h.exact hc
    rw [Exact,hheartbeats,hconnections]
    exact hold
  · have hold := h.leaked hc
    rw [Leaked,hheartbeats,hconnections]
    exact hold

private theorem same_handleResult (s : String) (r : WireFlowResultPart) :
    SameRegistry w (w.handleResult s r) := by
  unfold World.handleResult
  dsimp only
  split
  · exact .refl w
  split
  · exact .refl w
  · exact ⟨rfl,rfl,rfl⟩

private theorem same_routeFrame (s : String) (parts : List WireFlowPart) :
    SameRegistry w (w.routeFrame s parts) := by
  unfold World.routeFrame
  induction parts generalizing w with
  | nil => exact .refl w
  | cons part parts ih =>
    rw [List.foldl_cons]
    refine SameRegistry.trans ?_ ih
    split
    · exact same_handleResult s _
    · exact .refl w

private theorem same_sendFrame (sessionName : Option String)
    (flowParts : Option (List WireFlowPart)) :
    SameRegistry w (w.sendFrame sessionName flowParts).2 := by
  unfold World.sendFrame
  split
  · exact .refl w
  split
  · exact .refl w
  split
  · exact .refl w
  · exact same_routeFrame _ _

private theorem same_timeout (d : Nat) (hw : w.timeout mint d = some w') : SameRegistry w w' := by
  unfold World.timeout at hw
  split at hw
  · split at hw
    · cases hw
    · dsimp only at hw
      split at hw <;> cases hw <;> exact ⟨rfl,rfl,rfl⟩
  · cases hw

private theorem same_onAbort (d : Nat) : SameRegistry w (w.onAbort mint d) := by
  unfold World.onAbort
  dsimp only
  split
  · exact ⟨rfl,rfl,rfl⟩
  split
  · exact ⟨rfl,rfl,rfl⟩
  · exact ⟨rfl,rfl,rfl⟩

private theorem same_abort (signal : Nat) : SameRegistry w (w.abort mint signal) := by
  unfold World.abort
  split
  · exact .refl w
  · have hloop : ∀ ds : List Nat, ∀ v, SameRegistry w v →
        SameRegistry w (ds.foldl (fun w d => w.onAbort mint d) v) := by
      intro ds
      induction ds with
      | nil => exact fun v hv => hv
      | cons d ds ih => exact fun v hv => ih _ (hv.trans (same_onAbort d))
    exact hloop _ _ ⟨rfl,rfl,rfl⟩

/-- A connection is registered for one session at most. -/
theorem Core.session_unique (h : Core mint w) {s' : String} (hs : w.connections s = some c)
    (hs' : w.connections s' = some c) : s' = s :=
  Option.some.inj ((h.registered s' c hs').symm.trans (h.registered s c hs))

private theorem Core.disconnect_connections (h : Core mint w) {s' : String} {c' : Nat} :
    (w.disconnect s c).connections s' = some c' ↔
      w.connections s' = some c' ∧ ¬(s' = s ∧ c' = c) := by
  by_cases hc : w.connections s = some c
  · rw [(h.disconnect_registered hc).2.2.1]
    by_cases hs : s' = s
    · subst hs
      rw [Function.update_self,hc]
      simp [eq_comm]
    · rw [Function.update_of_ne hs]
      simp [hs]
  · rw [disconnect_superseded hc]
    constructor
    · intro h'
      refine ⟨h',?_⟩
      rintro ⟨rfl,rfl⟩
      exact hc h'
    · exact fun h' => h'.1

private theorem Core.disconnect_heartbeats (h : Core mint w) {c' : Nat} :
    c' ∈ (w.disconnect s c).heartbeats ↔
      c' ∈ w.heartbeats ∧ ¬(w.connections s = some c ∧ c' = c) := by
  by_cases hc : w.connections s = some c
  · rw [(h.disconnect_registered hc).2.2.2.1,List.mem_filter]
    simp [hc]
  · rw [disconnect_superseded hc]
    simp [hc]

private theorem Core.disconnect_attached (h : Core mint w) :
    (w.disconnect s c).attached = w.attached := by
  by_cases hc : w.connections s = some c
  · exact (h.disconnect_registered hc).2.2.2.2.1
  · rw [disconnect_superseded hc]

/-- What holds of the heartbeats while a connection is attached that has none yet. -/
structure BeatingBut (new : Nat) (w : World) (clean : Bool) : Prop where
  bounded : ∀ c ∈ w.heartbeats, c < w.attached.length
  absent : new ∉ w.heartbeats
  exact : clean = true → ∀ c, c ≠ new → (c ∈ w.heartbeats ↔ ∃ s, w.connections s = some c)
  leaked : clean = false → ∃ c ∈ w.heartbeats, c ≠ new ∧ ∀ s, w.connections s ≠ some c

private theorem BeatingBut.disconnect {new : Nat} (h : BeatingBut new w clean)
    (hcore : Core mint w) :
    BeatingBut new (w.disconnect s c) clean := by
  refine ⟨fun c' hc' => ?_,fun hmem => ?_,fun hclean c' hne => ?_,fun hclean => ?_⟩
  · rw [hcore.disconnect_attached]
    exact h.bounded c' (hcore.disconnect_heartbeats.mp hc').1
  · exact h.absent (hcore.disconnect_heartbeats.mp hmem).1
  · rw [hcore.disconnect_heartbeats,h.exact hclean c' hne]
    constructor
    · rintro ⟨⟨s',hs'⟩,hnot⟩
      refine ⟨s',hcore.disconnect_connections.mpr ⟨hs',?_⟩⟩
      rintro ⟨rfl,rfl⟩
      exact hnot ⟨hs',rfl⟩
    · rintro ⟨s',hs'⟩
      obtain ⟨hold,hnot⟩ := hcore.disconnect_connections.mp hs'
      refine ⟨⟨s',hold⟩,?_⟩
      rintro ⟨hreg,rfl⟩
      exact hnot ⟨hcore.session_unique hreg hold,rfl⟩
  · obtain ⟨c',hc',hne,hnone⟩ := h.leaked hclean
    refine ⟨c',hcore.disconnect_heartbeats.mpr ⟨hc',?_⟩,hne,fun s' hs' => ?_⟩
    · rintro ⟨hreg,rfl⟩
      exact hnone s hreg
    · exact hnone s' (hcore.disconnect_connections.mp hs').1

private theorem Beating.disconnect (h : Beating w clean) (hcore : Core mint w) :
    Beating (w.disconnect s c) clean := by
  have hbut : BeatingBut w.attached.length w clean := by
    refine ⟨h.bounded,fun hmem => Nat.lt_irrefl _ (h.bounded _ hmem),
      fun hclean c' _ => h.exact hclean c',fun hclean => ?_⟩
    obtain ⟨c',hc',hnone⟩ := h.leaked hclean
    exact ⟨c',hc',Nat.ne_of_lt (h.bounded c' hc'),hnone⟩
  have hafter := hbut.disconnect hcore (s := s) (c := c)
  refine ⟨hafter.bounded,fun hclean c' => ?_,fun hclean => ?_⟩
  · by_cases hne : c' = w.attached.length
    · subst hne
      refine iff_of_false hafter.absent ?_
      rintro ⟨s',hs'⟩
      have hreg := hcore.registered s' _ (hcore.disconnect_connections.mp hs').1
      exact Nat.lt_irrefl _ (List.getElem?_eq_some_iff.mp hreg).1
    · exact hafter.exact hclean c' hne
  · obtain ⟨c',hc',-,hnone⟩ := hafter.leaked hclean
    exact ⟨c',hc',hnone⟩

private theorem Beating.streamCall (h : Beating w clean) (hcore : Core mint w)
    (effect : StreamEffect) :
    Beating (w.streamCall effect) clean :=
  (streamCall_keeps (P := fun w => Core mint w ∧ Beating w clean) effect
    (fun _ s c _ hw => ⟨hw.1.disconnect s c,hw.2.disconnect hw.1⟩) ⟨hcore,h⟩).2

private theorem Beating.takeOver (h : Beating w clean) (hinv : Inv mint w) (ending : StreamEffect) :
    Beating (w.takeOver s ending) clean := by
  unfold World.takeOver
  split
  · exact h
  · rename_i previous hprevious
    have hdropped := (h.disconnect hinv.toCore (s := s) (c := previous))
    -- The takeover drops the registration just as a disconnect does, but settles nothing.
    obtain ⟨-,-,hconnections,hheartbeats,hattached,-⟩ :=
      hinv.toCore.disconnect_registered hprevious
    have hcore : Core mint { w with
        connections := Function.update w.connections s none
        heartbeats := w.heartbeats.filter fun c => c ≠ previous } := by
      refine ⟨hinv.own,hinv.nodup,hinv.timers,hinv.listeners,hinv.once,hinv.receipts,
        fun s' c hc => ?_⟩
      have hc' : (w.disconnect s previous).connections s' = some c := hconnections ▸ hc
      exact hinv.registered s' c (hinv.toCore.disconnect_connections.mp hc').1
    refine Beating.streamCall ?_ hcore ending
    exact hdropped.same ⟨hconnections.symm,hheartbeats.symm,hattached.symm⟩

private theorem Beating.register (h : Beating w clean)
    (hfree : w.connections s = none) : BeatingBut w.attached.length (w.register s) clean := by
  have hother : ∀ c, c ≠ w.attached.length → ((∃ s', (w.register s).connections s' = some c) ↔
      ∃ s', w.connections s' = some c) := by
    intro c hc
    constructor
    · rintro ⟨s',hs'⟩
      have hs' : Function.update w.connections s (some w.attached.length) s' = some c := hs'
      by_cases he : s' = s
      · subst he
        rw [Function.update_self] at hs'
        exact absurd (Option.some.inj hs').symm hc
      · rw [Function.update_of_ne he] at hs'
        exact ⟨s',hs'⟩
    · rintro ⟨s',hs'⟩
      have he : s' ≠ s := by
        rintro rfl
        rw [hfree] at hs'
        cases hs'
      refine ⟨s',?_⟩
      show Function.update w.connections s (some w.attached.length) s' = some c
      rw [Function.update_of_ne he]
      exact hs'
  refine ⟨fun c hc => ?_,fun hmem => Nat.lt_irrefl _ (h.bounded _ hmem),fun hclean c hc => ?_,
    fun hclean => ?_⟩
  · have hlt := h.bounded c hc
    simp [World.register]
    omega
  · rw [hother c hc]
    exact h.exact hclean c
  · obtain ⟨c,hc,hnone⟩ := h.leaked hclean
    have hne := Nat.ne_of_lt (h.bounded c hc)
    refine ⟨c,hc,hne,fun s' hs' => ?_⟩
    obtain ⟨s'',hs''⟩ := (hother c hne).mp ⟨s',hs'⟩
    exact hnone s'' hs''

/-- A connection whose event is raised is registered no more. -/
theorem streamCall_unregisters {effect : StreamEffect} (hcore : Core mint w)
    (hc : c ∈ effect.events) (hs : w.attached[c]? = some s) :
    ∀ s', (w.streamCall effect).connections s' ≠ some c := by
  unfold World.streamCall
  revert hc
  induction effect.events generalizing w with
  | nil =>
    intro hc
    cases hc
  | cons e events ih =>
    intro hc
    rw [List.foldl_cons]
    rcases List.mem_cons.mp hc with rfl | hmem
    · have hgone : ∀ s', (w.onDisconnect c).connections s' ≠ some c := by
        intro s' hs'
        simp only [World.onDisconnect,hs] at hs'
        obtain ⟨hold,hnot⟩ := hcore.disconnect_connections.mp hs'
        have hreg := hcore.registered s' c hold
        exact hnot ⟨Option.some.inj (hreg.symm.trans hs),rfl⟩
      have hstep : Core mint (w.onDisconnect c) := by
        simp only [World.onDisconnect,hs]
        exact hcore.disconnect s c
      have hloop := streamCall_keeps (P := fun w => Core mint w ∧ ∀ s', w.connections s' ≠ some c)
        { events := events } (fun w s e _ hw => ⟨hw.1.disconnect s e,fun s' hs' =>
          hw.2 s' (hw.1.disconnect_connections.mp hs').1⟩) ⟨hstep,hgone⟩
      exact hloop.2
    · have hstep : Core mint (w.onDisconnect e) ∧ (w.onDisconnect e).attached = w.attached := by
        unfold World.onDisconnect
        split
        · exact ⟨hcore,rfl⟩
        · exact ⟨hcore.disconnect _ e,hcore.disconnect_attached⟩
      exact ih hstep.1 (by rw [hstep.2]; exact hs) hmem

private theorem Beating.attach (h : Beating w clean) (hinv : Inv mint w)
    (ending confirming : StreamEffect) :
    Beating (w.attach s ending confirming)
      (clean && Undisturbed w (.attach s ending confirming)) := by
  obtain ⟨hcore,hfree,hsafe⟩ := hinv.takeOver s ending
  have htaken : Beating (w.takeOver s ending) clean := h.takeOver hinv ending
  have hregister : Inv mint ((w.takeOver s ending).register s) := hcore.register hsafe
  have hbut := htaken.register hfree
  have hundisturbed : Undisturbed w (.attach s ending confirming) =
      decide ((w.takeOver s ending).attached.length ∉ confirming.events) := rfl
  rw [hundisturbed]
  unfold World.attach
  dsimp only
  generalize w.takeOver s ending = w₁ at hcore hfree hregister hbut ⊢
  have hnew : (w₁.register s).connections s = some w₁.attached.length := Function.update_self ..
  have hnumber : (w₁.register s).attached[w₁.attached.length]? = some s := by
    simp [World.register]
  have hlength : w₁.attached.length < (w₁.register s).attached.length := by simp [World.register]
  have hafter := streamCall_keeps (P := fun v => Core mint v ∧
      BeatingBut w₁.attached.length v clean ∧ v.attached = (w₁.register s).attached) confirming
    (fun v s c _ hv => ⟨hv.1.disconnect s c,hv.2.1.disconnect hv.1,
      hv.1.disconnect_attached.trans hv.2.2⟩) ⟨hregister.toCore,hbut,rfl⟩
  obtain ⟨-,hbeat,hattached⟩ := hafter
  refine ⟨fun c hc => ?_,fun hclean c => ?_,fun hclean => ?_⟩
  · show c < ((w₁.register s).streamCall confirming).attached.length
    rcases List.mem_append.mp hc with hold | hlast
    · exact hbeat.bounded c hold
    · rw [List.mem_singleton.mp hlast,hattached]
      exact hlength
  · obtain ⟨hclean,hquiet⟩ := Bool.and_eq_true_iff.mp hclean
    have hstays := streamCall_keeps (P := fun v => Core mint v ∧
        v.connections s = some w₁.attached.length) confirming
      (fun v s' c hc hv => ⟨hv.1.disconnect s' c,hv.1.disconnect_connections.mpr ⟨hv.2,by
        rintro ⟨-,rfl⟩
        exact of_decide_eq_true hquiet hc⟩⟩) ⟨hregister.toCore,hnew⟩
    show c ∈ ((w₁.register s).streamCall confirming).heartbeats ++ [w₁.attached.length] ↔
      ∃ s', ((w₁.register s).streamCall confirming).connections s' = some c
    rw [List.mem_append,List.mem_singleton]
    by_cases hc : c = w₁.attached.length
    · subst hc
      exact iff_of_true (Or.inr rfl) ⟨s,hstays.2⟩
    · rw [hbeat.exact hclean c hc]
      exact or_iff_left hc
  · rcases Bool.and_eq_false_iff.mp hclean with hclean | hdisturbed
    · obtain ⟨c,hc,-,hnone⟩ := hbeat.leaked hclean
      exact ⟨c,List.mem_append_left _ hc,hnone⟩
    · have hmem : w₁.attached.length ∈ confirming.events := by simpa using hdisturbed
      exact ⟨_,List.mem_append_right _ (List.mem_singleton_self _),
        streamCall_unregisters hregister.toCore hmem hnumber⟩

end heartbeats

/-! ## Runs -/

/-- The bridge beside the news whether all steps so far were undisturbed. -/
def observedBridge (mint : Nat → String) : Lts (World × Bool) Label :=
  (bridgeSystem mint).journaled (fun w l _ clean => clean && Undisturbed w l) true

private theorem inv_init (mint : Nat → String) : Inv mint {} where
  own s e he := by cases he
  nodup s := by simp
  timers d := by simp [Outstanding]
  listeners g d := by simp [Outstanding]
  once d := by simp
  receipts x hx := by cases hx
  registered s c hc := by cases hc
  connected s _ := rfl

private theorem inductive_inv {mint : Nat → String} (hmint : Function.Injective mint) :
    Lts.Inductive (observedBridge mint) (fun _ _ => True) fun x => Inv mint x.1 ∧ Beating x.1 x.2 where
  init x hx := by
    obtain ⟨w,clean⟩ := x
    obtain ⟨rfl,rfl⟩ : w = {} ∧ clean = true := hx
    refine ⟨inv_init mint,by simp,fun _ c => ?_,by simp⟩
    simp
  step x l y hx _ hstep := by
    obtain ⟨hs,hclean⟩ := Lts.journaled_step.mp hstep
    obtain ⟨hinv,hbeat⟩ := hx
    rw [hclean]
    cases l with
    | attach s ending confirming =>
      rw [← Option.some.inj hs]
      exact ⟨hinv.attach s ending confirming,hbeat.attach hinv ending confirming⟩
    | streamEvent c =>
      rw [← Option.some.inj hs]
      have hcall : x.1.streamCall { events := [c] } = x.1.onDisconnect c := rfl
      rw [← hcall]
      exact ⟨hinv.streamCall _,by simpa [Undisturbed] using hbeat.streamCall hinv.toCore _⟩
    | dispatch s part signal writing =>
      rw [← Option.some.inj hs]
      refine ⟨hinv.dispatch hmint s part signal writing,?_⟩
      simp only [Undisturbed,Bool.and_true]
      unfold World.dispatch
      split
      · exact hbeat.same ⟨rfl,rfl,rfl⟩
      split
      · exact hbeat.same ⟨rfl,rfl,rfl⟩
      split
      · exact hbeat.same ⟨rfl,rfl,rfl⟩
      rename_i hconnected _
      have hqueued := hinv.enqueue hmint signal hconnected
      have hqueuedBeat : Beating (x.1.enqueue mint s signal) x.2 := hbeat.same ⟨rfl,rfl,rfl⟩
      have hwritten := hqueuedBeat.streamCall hqueued.toCore writing
      dsimp only
      split
      · exact hwritten
      split
      · exact hwritten
      · exact hwritten.same ⟨rfl,rfl,rfl⟩
    | sendFrame sessionName flowParts =>
      rw [← Option.some.inj hs]
      exact ⟨hinv.sendFrame sessionName flowParts,by
        simpa [Undisturbed] using hbeat.same (same_sendFrame sessionName flowParts)⟩
    | handleResult s r =>
      rw [← Option.some.inj hs]
      exact ⟨hinv.handleResult s r,by
        simpa [Undisturbed] using hbeat.same (same_handleResult s r)⟩
    | abort signal =>
      rw [← Option.some.inj hs]
      exact ⟨hinv.abort hmint signal,by simpa [Undisturbed] using hbeat.same (same_abort signal)⟩
    | timeout d =>
      exact ⟨hinv.timeout d hs,by simpa [Undisturbed] using hbeat.same (same_timeout d hs)⟩
    | heartbeat c writing =>
      have hs' : x.1.heartbeat c writing = some y.1 := hs
      unfold World.heartbeat at hs'
      split at hs'
      · rw [← Option.some.inj hs']
        exact ⟨hinv.streamCall writing,by
          simpa [Undisturbed] using hbeat.streamCall hinv.toCore writing⟩
      · cases hs'

/-- A settled dispatch is neither in flight nor does it hold anything. -/
theorem Inv.released {mint : Nat → String} {w : World} (h : Inv mint w) {y : Settlement}
    (hy : y ∈ w.settled) : y.dispatch ∉ w.timers ∧ (∀ g, (g,y.dispatch) ∉ w.listeners) ∧
      ∀ s, ∀ e ∈ w.pending s, e.2.dispatch ≠ y.dispatch := by
  have htimer : y.dispatch ∉ w.timers := by
    intro hmem
    have hcount := h.once y.dispatch
    rw [if_neg fun hand => hand.2 hmem,List.length_eq_zero_iff] at hcount
    have hfiltered : y ∈ w.settled.filter fun x => x.dispatch = y.dispatch :=
      List.mem_filter.mpr ⟨hy,decide_eq_true rfl⟩
    rw [hcount] at hfiltered
    cases hfiltered
  refine ⟨htimer,fun g hg => ?_,fun s e he hd => ?_⟩
  · exact htimer ((h.timers _).mpr ⟨_,(h.listeners g _).mp hg,rfl⟩)
  · exact htimer ((h.timers _).mpr ⟨e.2,⟨s,e.1,he⟩,hd⟩)

/-- In every run each dispatch is settled once, by its own receipt if by one, and keeps nothing
after that.  A disconnect settles what is in flight, a superseded stream does nothing.  The
heartbeats run exactly for the registered connections as long as no confirmation frame raised an
event of the connection that it confirms, and not any more after that. -/
theorem dispatches_settle_once (mint : Nat → String) (hmint : Function.Injective mint) :
    ∀ x, Lts.Reach (observedBridge mint) x →
      (∀ d, (x.1.settled.filter fun y => y.dispatch = d).length =
        if d < x.1.dispatched.length ∧ d ∉ x.1.timers then 1 else 0) ∧
      (∀ y ∈ x.1.settled, ∀ s t, y.cause = .receipt s t →
        x.1.dispatched[y.dispatch]? = some s ∧ t = mint y.dispatch) ∧
      (∀ s, x.1.pending s ≠ [] → x.1.connections s ≠ none) ∧
      (∀ s c, x.1.connections s = some c →
        (x.1.disconnect s c).pending s = [] ∧ (x.1.disconnect s c).connections s = none ∧
        ∀ e ∈ x.1.pending s, ∃ y ∈ (x.1.disconnect s c).settled,
          y.dispatch = e.2.dispatch ∧ y.cause = .disconnected) ∧
      (∀ s c, x.1.connections s ≠ some c → x.1.disconnect s c = x.1) ∧
      (∀ y ∈ x.1.settled, y.dispatch ∉ x.1.timers ∧ (∀ g, (g,y.dispatch) ∉ x.1.listeners) ∧
        ∀ s, ∀ e ∈ x.1.pending s, e.2.dispatch ≠ y.dispatch) ∧
      ((∀ c, c ∈ x.1.heartbeats ↔ ∃ s, x.1.connections s = some c) ↔ x.2 = true) := by
  intro x hx
  obtain ⟨hinv,hbeat⟩ := (inductive_inv hmint).of_reachUnder hx
  refine ⟨hinv.once,hinv.receipts,fun s hs hnone => hs (hinv.connected s hnone),fun s c hc => ?_,
    fun s c hc => disconnect_superseded hc,fun y hy => hinv.released hy,?_⟩
  · obtain ⟨-,hpending,hconnections,-,-,hall⟩ := hinv.toCore.disconnect_registered hc
    refine ⟨?_,?_,hall⟩
    · rw [hpending,if_pos rfl]
    · rw [hconnections,Function.update_self]
  · constructor
    · intro hexact
      cases hclean : x.2 with
      | true => rfl
      | false =>
        obtain ⟨c,hc,hnone⟩ := hbeat.leaked hclean
        obtain ⟨s,hs⟩ := (hexact c).mp hc
        exact absurd hs (hnone s)
    · exact fun hclean => hbeat.exact hclean

/-! ## Two runs -/

/-- Tool ids of different lengths. -/
def unaryIds (d : Nat) : String :=
  String.ofList (List.replicate (d + 1) 'x')

private theorem unaryIds_injective : Function.Injective unaryIds := by
  intro d d' h
  have hlists : List.replicate (d + 1) 'x' = List.replicate (d' + 1) 'x' := String.ofList_injective h
  have hlength := congrArg List.length hlists
  simpa using hlength

def aClick : WireFlowPart := { mouseClick := some "left" }

/-- A dispatch whose receipt arrives, and one that the disconnect settles. -/
theorem dispatches_settle_once_demo : ∃ x, Lts.Reach (observedBridge unaryIds) x ∧
    x.1.settled.map Settlement.cause = [.receipt "s" "x",.disconnected] ∧
    (∀ y ∈ x.1.settled, y.dispatch ∉ x.1.timers) ∧
    ∀ c, c ∈ x.1.heartbeats ↔ ∃ s, x.1.connections s = some c := by
  obtain ⟨x,hx,hp⟩ := Lts.reach_of_run_any (M := observedBridge unaryIds) (s := ({},true))
    (p := fun x => decide (x.1.settled.map Settlement.cause = [.receipt "s" "x",.disconnected]) &&
      x.2)
    [.attach "s" {} {},.dispatch "s" aClick (some 0) {},.dispatch "s" aClick none {},
      .sendFrame (some "s") (some [{ flowResult := some { toolId := some "x" } }]),
      .streamEvent 0] (.init ⟨rfl,rfl⟩) (by decide)
  obtain ⟨hcauses,hclean⟩ := Bool.and_eq_true_iff.mp hp
  obtain ⟨-,-,-,-,-,hreleased,hexact⟩ := dispatches_settle_once unaryIds unaryIds_injective x hx
  exact ⟨x,hx,of_decide_eq_true hcauses,fun y hy => (hreleased y hy).1,hexact.mpr hclean⟩

/-- The confirmation frame of an attach raises the connection's own error. -/
theorem heartbeat_outlives_connection : ∃ w, Lts.Reach (bridgeSystem unaryIds) w ∧
    w.heartbeats = [0] ∧ w.connections "s" = none ∧
    ¬∀ c, c ∈ w.heartbeats ↔ ∃ s, w.connections s = some c := by
  have hreach : Lts.Reach (bridgeSystem unaryIds) (World.attach {} "s" {} { events := [0] }) :=
    .step (.init rfl) (l := .attach "s" {} { events := [0] }) trivial rfl
  refine ⟨_,hreach,by decide,by decide,fun h => ?_⟩
  obtain ⟨s,hs⟩ := (h 0).mp (by decide)
  have hregistered : (World.attach {} "s" {} { events := [0] }).attached = ["s"] := by
    decide
  have hcore := ((inv_init unaryIds).attach "s" {} { events := [0] }).toCore
  have hsession := hcore.registered s 0 hs
  rw [hregistered] at hsession
  obtain rfl : "s" = s := by simpa using hsession
  have hnone : (World.attach {} "s" {} { events := [0] }).connections "s" = none := by
    decide
  rw [hnone] at hs
  cases hs

end Dominion.Desktop
