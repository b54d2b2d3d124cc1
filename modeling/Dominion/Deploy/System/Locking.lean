import Dominion.Deploy.System.Runs

/-! # Optimistic locking of the store

The filter of `UpdateDesired` compares the name and the generation, and the generation restarts
at one when a name is created again. -/
namespace Dominion.Deploy.Service

open Dominion.Framework Dominion.Deploy.Domain World

variable {maxRetries : Nat} {s : Service} {t : Tid} {f : Filter} {u : Update} {d : Stored}

/-- The caller of `UpdateDesired` is a command, and the filter carries what it read last. -/
theorem updateDesired_read (h : (system maxRetries).Reach s)
    (hnext : s.next t = some (.updateOne f u)) (hinc : u.incGeneration = true) :
    ∃ r, s.world.reads t = some r ∧ r.stored.doc.name = f.name ∧
      r.stored.doc.generation = f.generation ∧ Command r u := by
  have hc : contract t (.updateOne f u) s.world := (outlined_of_reach h).contract hnext
  cases t with
  | api i => exact hc.read
  | worker =>
    obtain ⟨env,st,-,-,rfl,-⟩ := hc
    cases hinc

/-- A successful `UpdateDesired` writes to the incarnation and the generation its caller read,
with no successful create, update, delete or removal in between, if and only if the document was
not removed in between. -/
theorem updateDesired_unchanged_iff (h : (system maxRetries).Reach s)
    (hnext : s.next t = some (.updateOne f u)) (hinc : u.incGeneration = true)
    (hd : s.world.matched f = some d) :
    s.world.exec t (.updateOne f u) .done = some (.ok 1,s.world.write d u) ∧
    ∃ r, s.world.reads t = some r ∧ r.stored.doc.name = f.name ∧
      ((d.id = r.stored.id ∧ d.doc.generation = r.stored.doc.generation ∧
        s.world.writes f.name = r.writes) ↔ s.world.removals f.name = r.removals) := by
  refine ⟨exec_updateOne_matched hd,?_⟩
  obtain ⟨r,hr,hname,hgen,-⟩ := updateDesired_read h hnext hinc
  obtain ⟨hdocs,-,hdgen,-⟩ := matched_some hd
  have hok := (inv_of_reach h).reads t r hr
  refine ⟨r,hr,hname,?_⟩
  rw [← hname]
  constructor
  · rintro ⟨hid,-,-⟩
    by_contra hne
    have hlt : r.removals < s.world.removals r.stored.doc.name :=
      Nat.lt_of_le_of_ne hok.removals (Ne.symm hne)
    exact hok.replaced hlt d (hname ▸ hdocs) hid
  · intro hsame
    obtain ⟨d',hd',hdesc⟩ := hok.same hsame
    rw [hname,hdocs] at hd'
    cases hd'
    have hgen' : d.doc.generation = r.stored.doc.generation := hdgen.trans hgen.symm
    exact ⟨hdesc.id,hgen',(hdesc.unwritten hgen').1⟩

/-- The next call of `t` is an `UpdateDesired` that will match a document. -/
def matchesSome (s : Service) (t : Tid) : Bool :=
  match s.next t with
  | some (.updateOne f u) => u.incGeneration && (s.world.matched f).isSome
  | _ => false

theorem updateDesired_unchanged_demo : ∃ (s : Service) (f : Filter) (d : Stored) (r : Read),
    s.world.matched f = some d ∧ s.world.reads (.api 1) = some r ∧
      ((d.id = r.stored.id ∧ d.doc.generation = r.stored.doc.generation ∧
        s.world.writes f.name = r.writes) ↔ s.world.removals f.name = r.removals) := by
  obtain ⟨s,hs,hsome⟩ := Lts.reach_of_run_any (M := system Worker.defaultMaxRetries)
    (p := fun s => s.matchesSome (.api 1))
    (createLabels 0 demoName demoEmpty ++ updateReadLabels 1 demoName demoCache) initial_reach
    (by decide)
  unfold matchesSome at hsome
  split at hsome
  · rename_i f u hnext
    obtain ⟨hinc,hd⟩ := Bool.and_eq_true_iff.mp hsome
    obtain ⟨d,hd⟩ := Option.isSome_iff_exists.mp hd
    obtain ⟨-,r,hr,-,hiff⟩ := updateDesired_unchanged_iff hs hnext hinc hd
    exact ⟨s,f,d,r,hd,hr,hiff⟩
  · cases hsome

/-- An update reads an environment that is then deleted, removed and created again, and still
stands before its write. -/
def staleLabels : List Label :=
  createLabels 0 demoName demoEmpty ++ updateReadLabels 1 demoName demoCache ++
    deleteLabels 2 demoName ++ iterateLabels demoName (List.replicate 4 .done) ++
    iterateLabels demoName (List.replicate 4 .done) ++ createLabels 3 demoName demoEmpty

/-- The next call of `t` is an `UpdateDesired` that will match an incarnation other than the one
`t` read last. -/
def matchesOther (s : Service) (t : Tid) : Bool :=
  match s.next t with
  | some (.updateOne f u) => u.incGeneration && (s.world.matched f).any fun d =>
      (s.world.reads t).any fun r => d.id != r.stored.id
  | _ => false

theorem updateDesired_overwrites_recreated : ¬∀ s, (system Worker.defaultMaxRetries).Reach s →
    ∀ t f u d r, s.next t = some (.updateOne f u) → u.incGeneration = true →
      s.world.matched f = some d → s.world.reads t = some r → d.id = r.stored.id := by
  intro h
  have hrun : ((system Worker.defaultMaxRetries).run initial staleLabels).any
      (fun s => s.matchesOther (.api 1)) = true := by decide
  obtain ⟨s,hs,hother⟩ := Lts.reach_of_run_any staleLabels initial_reach hrun
  unfold matchesOther at hother
  split at hother
  · rename_i f u hnext
    simp only [Bool.and_eq_true,Option.any_eq_true,bne_iff_ne,ne_eq] at hother
    obtain ⟨hinc,d,hd,r,hr,hne⟩ := hother
    exact hne (h s hs (.api 1) f u d r hnext hinc hd hr)
  · cases hother

end Dominion.Deploy.Service
