/-
  ONE PLAN WINS: any number of executions of `submit_extraction`, over one job and the artifacts that
  their plans put into the store.

  An execution plans without a lock, artifact by artifact, and then decides under the row lock whether
  its plan is adopted.  A plan that is not adopted is deleted again.  What comes behind an adoption, and
  what an execution does that finds shards, is the program of `Extraction.Program`; so is the cancel
  route.  A deletion that fails leaves its object, which is then LEAKED.

  1. `Inv.objects`: the store holds, in some order, what was adopted, what was leaked, and what the
     executions hold; a step moves objects between the three.
  2. `Settled`: behind the adoption the job is RUNNING without an error, and no copy of a shard that an
     execution holds says otherwise (`Calm`), so reconciling changes neither.
  3. `one_plan_wins`: at most one plan is adopted, and when all have returned its objects are left.
-/
import ControlPlane.Bucket
import ControlPlane.Extraction.Planner

namespace ControlPlane.Extraction.Adoption

open ControlPlane.Interleave ControlPlane.Bucket

/-! ## Executions -/

/-- `_input_key`; the planning attempts of one job differ in what `uuid4()` gave them. -/
def key (c : Planning Nat) (a : String) (i : Nat) : String :=
  { c with planningId := a }.inputKey i

structure World where
  ledger : Ledger := {}
  objects : Objects (List Nat) := []
  /-- What `uuid4()` has given. -/
  drawn : List String := []
  /-- The attempts whose plans were adopted. -/
  adopted : List (String × Plan) := []
  /-- What failed deletions have left. -/
  leaked : Objects (List Nat) := []

/-- Why a plan is deleted. -/
inductive Cause where
  /-- Planning raised. -/
  | planning (error : PlanError)
  /-- The job was canceled, or has shards. -/
  | abandoned
  /-- The transaction was rolled back. -/
  | adoption

/-- An execution at one of its program points. -/
inductive Task where
  | submit
  | submitExists
  /-- `plan_shards`, with the tables it has written. -/
  | planning (attempt : String) (tables : List (List Nat))
  | planFailed (error : PlanError)
  | adopt (attempt : String) (plan : Plan)
  /-- `discard_plans`: the artifacts still to delete, and whether a deletion has failed. -/
  | discard (attempt : String) (todo : List (Nat × List Nat)) (failed : Bool) (cause : Cause)
  /-- Behind the adoption, a reconciliation, or the cancel route. -/
  | after (p : Proc)
  | returned
  | raised
  /-- The worker died here. -/
  | died (t : Task)

/-- What the world answers to a step. -/
inductive Answer where
  | ok
  | uuid4 (id : String)
  | wrote (table : List Nat)
  | planned (plan : Plan)
  | error (e : PlanError)
  /-- A deletion raises, and may have had its effect. -/
  | undeleted (effect : Bool)
  | reply (r : Reply)
  | crash

/-- The tuple of the `except` clause. -/
def caught : PlanError → Bool
  | .other _ => false
  | _ => true

/-- `str(exc)`. -/
def message : PlanError → String
  | .planning detail | .configuration detail | .storage detail | .validation detail
  | .other detail => detail

/-- The artifacts of a plan, as `_write_plan` numbered them. -/
def numbered (tables : List (List Nat)) : List (Nat × List Nat) :=
  tables.mapIdx fun i table => (i, table)

/-- Behind `discard_plans`. -/
def finish (failed : Bool) : Cause → Task
  | .planning e =>
      let e := if failed then
          .storage "artifact storage cleanup failed after extraction planning"
        else e
      if caught e then .planFailed e else .raised
  | .abandoned => if failed then .raised else .returned
  | .adoption => .raised

/-- `submit_extraction` up to the adoption. -/
def planStep (c : Planning Nat) (cfg : Settings) (w : World) : Task → Answer → Option (World × Task)
  | .submit, .ok => some (w, if w.ledger.job.status = .canceled then .returned else .submitExists)
  | .submitExists, .ok =>
      if w.ledger.shards ≠ [] then some (w, .after .reconcile) else none
  | .submitExists, .uuid4 id =>
      -- never one that it has given before
      if w.ledger.shards = [] ∧ id.length = 36 ∧ id ∉ w.drawn then
        some ({ w with drawn := id :: w.drawn }, .planning id [])
      else none
  | .planning a tables, .wrote table =>
      some ({ w with objects := put w.objects (key c a tables.length) table },
        .planning a (tables ++ [table]))
  | .planning a tables, .planned plan =>
      if plan.tables = tables then some (w, .adopt a plan) else none
  | .planning a tables, .error e => some (w, .discard a (numbered tables).reverse false (.planning e))
  | .planFailed e, .ok =>
      some (if w.ledger.job.status = .canceled ∨ w.ledger.shards ≠ [] then w
        else { w with ledger := w.ledger.apply cfg (.failPlanning (message e)) }, .returned)
  | .adopt a plan, .ok =>
      let shards := plannedShards w.ledger.offloads.length plan
      if w.ledger.job.status = .canceled ∨ w.ledger.shards ≠ [] then
        some (w, .discard a (numbered plan.tables).reverse false .abandoned)
      else if w.ledger.conflicts cfg shards then none
      else some ({ w with
          ledger := w.ledger.apply cfg (.adopt plan)
          adopted := w.adopted ++ [(a, plan)] },
        .after (.dispatch .submit (shards.filterMap Shard.orchestrationJob)))
  | .adopt a plan, .error _ => some (w, .discard a (numbered plan.tables).reverse false .adoption)
  | _, _ => none

/-- `discard_plans`. -/
def discardStep (c : Planning Nat) (w : World) : Task → Answer → Option (World × Task)
  | .discard a (x :: todo) failed cause, .ok =>
      some ({ w with objects := delete w.objects (key c a x.1) }, .discard a todo failed cause)
  | .discard a (x :: todo) _ cause, .undeleted true =>
      some ({ w with objects := delete w.objects (key c a x.1) }, .discard a todo true cause)
  | .discard a (x :: todo) _ cause, .undeleted false =>
      some ({ w with leaked := (key c a x.1, x.2) :: w.leaked }, .discard a todo true cause)
  | .discard _ [] failed cause, .ok => some (w, finish failed cause)
  | _, _ => none

/-- Dispatching, reconciling and canceling. -/
def afterStep (cfg : Settings) (w : World) : Task → Answer → Option (World × Task)
  | .after p, .reply r => (next cfg w.ledger p r).map fun wp =>
      ({ w with ledger := w.ledger.apply cfg wp.1 },
        if wp.2 = .returned then .returned else .after wp.2)
  | _, _ => none

def Task.ended : Task → Bool
  | .returned | .raised => true
  | _ => false

def Task.dead : Task → Bool
  | .died _ => true
  | _ => false

/-- One step of any execution; it may die at every point. -/
def act (c : Planning Nat) (cfg : Settings) (w : World) (t : Task) : Answer → Option (World × Task)
  | .crash => if t.ended || t.dead then none else some (w, .died t)
  | r => (planStep c cfg w t r).or ((discardStep c w t r).or (afterStep cfg w t r))

def Task.starts : Task → Bool
  | .submit | .after .cancel => true
  | _ => false

/-- Executions and cancellations; nothing else moves. -/
def program (c : Planning Nat) (cfg : Settings) : Program World Task Answer Empty where
  start := Task.starts
  act := act c cfg
  env := fun _ e => nomatch e

/-- A job that was just created. -/
def fresh : Config World Task := ⟨{}, []⟩

/-- The program points of the cancel route. -/
def Task.cancels : Task → Bool
  | .after .cancel | .after .cancelList | .after (.cancelLoop ..) | .after (.cancelSave ..) => true
  | _ => false

/-- A cancellation is committed before the adoption. -/
def canceledBefore (s : Config World Task) : Event Task Answer Empty → Prop
  | .act i _ => ∀ t ∈ s.procs[i]?, t.cancels = true → s.store.ledger.shards = []
  | _ => True

instance : ∀ (s : Config World Task) (e : Event Task Answer Empty), Decidable (canceledBefore s e)
  | s, .act i _ => inferInstanceAs
      (Decidable (∀ t ∈ s.procs[i]?, t.cancels = true → s.store.ledger.shards = []))
  | _, .spawn _ => inferInstanceAs (Decidable True)
  | _, .env _ => inferInstanceAs (Decidable True)

/-! ## Whose the objects are -/

variable {c : Planning Nat} {cfg : Settings} {w w' : World} {t t' : Task} {front back : List Task}
  {a b : String} {i j : Nat} {tables : List (List Nat)}

/-- The objects of these artifacts. -/
def held (c : Planning Nat) (a : String) (xs : List (Nat × List Nat)) : Objects (List Nat) :=
  xs.map fun x => (key c a x.1, x.2)

/-- What an execution has stored and answers for. -/
def Task.holdings (c : Planning Nat) : Task → Objects (List Nat)
  | .planning a tables => held c a (numbered tables)
  | .adopt a plan => held c a (numbered plan.tables)
  | .discard a todo _ _ => held c a todo
  | .died t => t.holdings c
  | _ => []

/-- What the shards name as their inputs. -/
def World.inputs (c : Planning Nat) (w : World) : Objects (List Nat) :=
  w.adopted.flatMap fun x => held c x.1 (numbered x.2.tables)

/-- The attempt that still writes. -/
def Task.writing : Task → Option String
  | .planning a _ => some a
  | _ => none

/-- The store between the executions. -/
structure Inv (c : Planning Nat) (w : World) (procs : List Task) : Prop where
  objects : w.objects.Perm (w.inputs c ++ w.leaked ++ procs.flatMap (Task.holdings c))
  keys : (w.objects.map Prod.fst).Nodup
  drawn : ∀ o ∈ w.objects, ∃ a ∈ w.drawn, ∃ i, o.1 = key c a i
  lengths : ∀ a ∈ w.drawn, a.length = 36
  attempts : (procs.filterMap Task.writing).Nodup
  writing : ∀ a ∈ procs.filterMap Task.writing, a ∈ w.drawn
  planning : ∀ a tables, .planning a tables ∈ procs → ∀ o ∈ w.objects, ∀ i, o.1 = key c a i →
    i < tables.length

/-- A key says whose it is, since all the ids have one length. -/
theorem key_inj (hlength : a.length = b.length) (h : key c a i = key c b j) : a = b ∧ i = j := by
  have hlist := congrArg String.toList h
  simp only [key, Planning.inputKey, String.toList_append, List.append_assoc,
    List.append_cancel_left_eq] at hlist
  rw [← String.length_toList, ← String.length_toList] at hlength
  obtain rfl := String.toList_inj.mp (List.append_inj hlist hlength).1
  exact ⟨rfl, inputKey_inj h⟩

theorem Inv.length_eq {procs : List Task} (h : Inv c w procs) (ha : a ∈ w.drawn)
    (hb : b ∈ w.drawn) : a.length = b.length := (h.lengths a ha).trans (h.lengths b hb).symm

theorem numbered_append (tables : List (List Nat)) (table : List Nat) :
    numbered (tables ++ [table]) = numbered tables ++ [(tables.length, table)] := by
  rw [numbered, numbered, List.mapIdx_append]
  simp

theorem inv_fresh (c : Planning Nat) : Inv c {} [] where
  objects := List.Perm.refl _
  keys := List.nodup_nil
  drawn := fun _ h => absurd h List.not_mem_nil
  lengths := fun _ h => absurd h List.not_mem_nil
  attempts := List.nodup_nil
  writing := fun _ h => absurd h List.not_mem_nil
  planning := fun _ _ h => absurd h List.not_mem_nil

/-- An execution that does not write any more. -/
theorem Inv.settle (h : Inv c w (front ++ t :: back)) (hwriting : t'.writing = none)
    (hobjects : w'.objects.Perm (w'.inputs c ++ w'.leaked ++
      (front ++ t' :: back).flatMap (Task.holdings c)))
    (hsub : w'.objects.Sublist w.objects) (hdrawn : w'.drawn = w.drawn) :
    Inv c w' (front ++ t' :: back) := by
  have hfilter : ((front ++ t' :: back).filterMap Task.writing).Sublist
      ((front ++ t :: back).filterMap Task.writing) := by
    rw [List.filterMap_append, List.filterMap_append, List.filterMap_cons_none hwriting]
    exact (List.Sublist.refl _).append (List.Sublist.filterMap _ (List.sublist_cons_self _ _))
  refine ⟨hobjects, h.keys.sublist (hsub.map _), fun o ho => ?_, hdrawn ▸ h.lengths,
    h.attempts.sublist hfilter, fun a ha => ?_, fun a tables hmem o ho => ?_⟩
  · rw [hdrawn]
    exact h.drawn o (hsub.subset ho)
  · rw [hdrawn]
    exact h.writing a (hfilter.subset ha)
  · refine h.planning a tables ?_ o (hsub.subset ho)
    rcases List.mem_append.mp hmem with hmem | hmem
    · exact List.mem_append_left _ hmem
    · rcases List.mem_cons.mp hmem with heq | hmem
      · rw [← heq] at hwriting
        cases hwriting
      · exact List.mem_append_right _ (List.mem_cons_of_mem _ hmem)

/-- What one execution holds, beside what all hold. -/
theorem holdings_around (c : Planning Nat) (front back : List Task) (t : Task) :
    ((front ++ t :: back).flatMap (Task.holdings c)).Perm
      (t.holdings c ++ (front ++ back).flatMap (Task.holdings c)) := by
  rw [List.flatMap_append, List.flatMap_append, List.flatMap_cons]
  exact List.perm_append_comm_assoc _ _ _

/-- The ledger may differ. -/
def World.Beside (w w' : World) : Prop :=
  w'.objects = w.objects ∧ w'.drawn = w.drawn ∧ w'.adopted = w.adopted ∧ w'.leaked = w.leaked

/-- A step that leaves the store alone. -/
theorem Inv.read (h : Inv c w (front ++ t :: back)) (hbeside : w.Beside w')
    (hwriting : t'.writing = none) (hholds : (t'.holdings c).Perm (t.holdings c)) :
    Inv c w' (front ++ t' :: back) := by
  obtain ⟨hobjects, hdrawn, hadopted, hleaked⟩ := hbeside
  refine h.settle hwriting ?_ (hobjects ▸ List.Sublist.refl _) hdrawn
  rw [World.inputs, hobjects, hadopted, hleaked]
  refine h.objects.trans (List.Perm.append_left _ ?_)
  refine (holdings_around c front back t).trans ?_
  exact (hholds.symm.append_right _).trans (holdings_around c front back t').symm

/-- A new attempt. -/
theorem Inv.draw (h : Inv c w (front ++ t :: back)) (hholds : t.holdings c = [])
    (hwriting : t.writing = none) (hlength : a.length = 36) (hnew : a ∉ w.drawn) :
    Inv c { w with drawn := a :: w.drawn } (front ++ .planning a [] :: back) := by
  have hlengths : ∀ b ∈ a :: w.drawn, b.length = 36 :=
    List.forall_mem_cons.mpr ⟨hlength, h.lengths⟩
  have hfree : ∀ o ∈ w.objects, ∀ i, o.1 ≠ key c a i := by
    intro o ho i heq
    obtain ⟨b, hb, j, hkey⟩ := h.drawn o ho
    refine hnew ?_
    rwa [← (key_inj ((h.lengths b hb).trans hlength.symm) (hkey.symm.trans heq)).1]
  have hfilter : (front ++ Task.planning a [] :: back).filterMap Task.writing =
      front.filterMap Task.writing ++ a :: back.filterMap Task.writing := by
    rw [List.filterMap_append]
    rfl
  have hold : (front ++ t :: back).filterMap Task.writing =
      front.filterMap Task.writing ++ back.filterMap Task.writing := by
    rw [List.filterMap_append, List.filterMap_cons_none hwriting]
  have hattempts := h.attempts
  have hdrawn := h.writing
  rw [hold] at hattempts hdrawn
  refine ⟨?_, h.keys, fun o ho => ?_, hlengths, ?_, fun b hb => ?_,
    fun b tables hmem o ho i hkey => ?_⟩
  · refine h.objects.trans (List.Perm.append_left _ ?_)
    refine (holdings_around c front back t).trans ?_
    rw [hholds]
    exact (holdings_around c front back (.planning a [])).symm
  · obtain ⟨b, hb, i, hkey⟩ := h.drawn o ho
    exact ⟨b, List.mem_cons_of_mem _ hb, i, hkey⟩
  · rw [hfilter]
    exact List.nodup_middle.mpr (List.nodup_cons.mpr ⟨fun hmem => hnew (hdrawn _ hmem), hattempts⟩)
  · rw [hfilter] at hb
    rcases List.perm_middle.mem_iff.mp hb |> List.mem_cons.mp with rfl | hb
    · exact List.mem_cons_self
    · exact List.mem_cons_of_mem _ (hdrawn b hb)
  · rcases List.mem_append.mp hmem with hmem | hmem
    · exact h.planning b tables (List.mem_append_left _ hmem) o ho i hkey
    · rcases List.mem_cons.mp hmem with heq | hmem
      · cases heq
        exact absurd hkey (hfree o ho i)
      · refine h.planning b tables (List.mem_append_right _ (List.mem_cons_of_mem _ hmem)) o ho i hkey

/-- One artifact more. -/
theorem Inv.write (h : Inv c w (front ++ .planning a tables :: back)) (table : List Nat) :
    Inv c { w with objects := put w.objects (key c a tables.length) table }
      (front ++ .planning a (tables ++ [table]) :: back) := by
  have hfree : ∀ o ∈ w.objects, o.1 ≠ key c a tables.length := by
    intro o ho hkey
    have hlt := h.planning a tables (List.mem_append_right _ List.mem_cons_self) o ho _ hkey
    exact lt_irrefl _ hlt
  have hput : put w.objects (key c a tables.length) table =
      (key c a tables.length, table) :: w.objects := by
    rw [put, delete, List.filter_eq_self.mpr fun o ho => decide_eq_true (hfree o ho)]
  have hfilter : (front ++ Task.planning a (tables ++ [table]) :: back).filterMap Task.writing =
      (front ++ Task.planning a tables :: back).filterMap Task.writing := by
    rw [List.filterMap_append, List.filterMap_append]
    rfl
  have hdrawn : a ∈ w.drawn := h.writing a (List.mem_filterMap.mpr
    ⟨.planning a tables, List.mem_append_right _ List.mem_cons_self, rfl⟩)
  rw [hput]
  refine ⟨?_, ?_, fun o ho => ?_, h.lengths, hfilter ▸ h.attempts, hfilter ▸ h.writing,
    fun a' tables' hmem o ho i hkey => ?_⟩
  · show ((key c a tables.length, table) :: w.objects).Perm (w.inputs c ++ w.leaked ++ _)
    refine (h.objects.cons _).trans ?_
    refine (List.perm_middle.symm).trans (List.Perm.append_left _ ?_)
    refine ((holdings_around c front back _).cons _).trans ?_
    refine List.Perm.trans ?_ (holdings_around c front back _).symm
    rw [Task.holdings, Task.holdings, numbered_append, held, held, List.map_append,
      ← List.cons_append]
    exact (List.perm_append_singleton _ _).symm.append_right _
  · refine List.nodup_cons.mpr ⟨fun hmem => ?_, h.keys⟩
    obtain ⟨o, ho, hkey⟩ := List.mem_map.mp hmem
    exact hfree o ho hkey
  · rcases List.mem_cons.mp ho with rfl | ho
    · exact ⟨a, hdrawn, _, rfl⟩
    · exact h.drawn o ho
  · have hother : ∀ tables', .planning a tables' ∉ front ++ back := by
      intro tables' hmem
      have hattempts := h.attempts
      rw [List.filterMap_append] at hattempts
      refine (List.nodup_cons.mp (List.nodup_middle.mp hattempts)).1 ?_
      rw [← List.filterMap_append]
      exact List.mem_filterMap.mpr ⟨_, hmem, rfl⟩
    rcases List.perm_middle.mem_iff.mp hmem |> List.mem_cons.mp with heq | hmem
    · cases heq
      rw [List.length_append, List.length_singleton]
      rcases List.mem_cons.mp ho with rfl | ho
      · exact (key_inj rfl hkey).2 ▸ Nat.lt_succ_self _
      · refine Nat.lt_succ_of_lt (h.planning a tables ?_ o ho i hkey)
        exact List.mem_append_right _ List.mem_cons_self
    · rcases List.mem_cons.mp ho with rfl | ho
      · have hwriting : a' ∈ (front ++ back).filterMap Task.writing :=
          List.mem_filterMap.mpr ⟨_, hmem, rfl⟩
        have hdrawn' : a' ∈ w.drawn := by
          refine h.writing a' ?_
          rw [List.filterMap_append] at hwriting ⊢
          rcases List.mem_append.mp hwriting with hfront | hback
          · exact List.mem_append_left _ hfront
          · exact List.mem_append_right _ (List.mem_cons_of_mem _ hback)
        obtain rfl := (key_inj (h.length_eq hdrawn hdrawn') hkey).1
        exact absurd hmem (hother tables')
      · refine h.planning a' tables' ?_ o ho i hkey
        exact List.perm_middle.mem_iff.mpr (List.mem_cons_of_mem _ hmem)

/-- A deletion. -/
theorem Inv.delete {x : Nat × List Nat} {todo : List (Nat × List Nat)} {failed failed' : Bool}
    {cause : Cause} (h : Inv c w (front ++ .discard a (x :: todo) failed cause :: back)) :
    Inv c { w with objects := delete w.objects (key c a x.1) }
      (front ++ .discard a todo failed' cause :: back) := by
  have hperm := h.objects.trans (List.Perm.append_left _ (holdings_around c front back _))
  have hmem : (key c a x.1, x.2) ∈ w.objects := by
    refine hperm.mem_iff.mpr (List.mem_append_right _ (List.mem_append_left _ ?_))
    exact List.mem_cons_self
  refine h.settle rfl ?_ List.filter_sublist rfl
  refine List.Perm.cons_inv ((perm_delete h.keys hmem).trans (hperm.trans ?_))
  refine List.perm_middle.trans (List.Perm.cons _ (List.Perm.append_left _ ?_))
  exact (holdings_around c front back (.discard a todo failed' cause)).symm

/-- A deletion that leaves its object. -/
theorem Inv.leak {x : Nat × List Nat} {todo : List (Nat × List Nat)} {failed failed' : Bool}
    {cause : Cause} (h : Inv c w (front ++ .discard a (x :: todo) failed cause :: back)) :
    Inv c { w with leaked := (key c a x.1, x.2) :: w.leaked }
      (front ++ .discard a todo failed' cause :: back) := by
  refine h.settle rfl ?_ (List.Sublist.refl _) rfl
  refine (h.objects.trans (List.Perm.append_left _ (holdings_around c front back _))).trans ?_
  have hmove : (w.inputs c ++ (key c a x.1, x.2) :: w.leaked).Perm
      ((key c a x.1, x.2) :: (w.inputs c ++ w.leaked)) := List.perm_middle
  refine List.Perm.trans ?_ (hmove.symm.append_right _)
  refine List.perm_middle.trans (List.Perm.cons _ (List.Perm.append_left _ ?_))
  exact (holdings_around c front back (.discard a todo failed' cause)).symm

/-- An adoption. -/
theorem Inv.adopt {plan : Plan} (h : Inv c w (front ++ .adopt a plan :: back))
    (hholds : t'.holdings c = []) (hwriting : t'.writing = none) (ledger : Ledger) :
    Inv c { w with ledger := ledger, adopted := w.adopted ++ [(a, plan)] } (front ++ t' :: back) := by
  refine h.settle hwriting ?_ (List.Sublist.refl _) rfl
  refine (h.objects.trans (List.Perm.append_left _ (holdings_around c front back _))).trans ?_
  have hinputs : World.inputs c { w with ledger := ledger, adopted := w.adopted ++ [(a, plan)] } =
      w.inputs c ++ held c a (numbered plan.tables) := by
    rw [World.inputs, List.flatMap_append, List.flatMap_singleton]
    rfl
  have hafter := holdings_around c front back t'
  rw [hholds, List.nil_append] at hafter
  rw [hinputs]
  refine List.Perm.trans ?_ (List.Perm.append_left _ hafter.symm)
  rw [← List.append_assoc]
  refine List.Perm.append_right _ ?_
  rw [List.append_assoc, List.append_assoc]
  exact List.Perm.append_left _ List.perm_append_comm

theorem perm_held_reverse (c : Planning Nat) (a : String) (xs : List (Nat × List Nat)) :
    (held c a xs.reverse).Perm (held c a xs) := (List.reverse_perm xs).map _

/-- **Planning and adoption** keep it. -/
theorem planStep_inv {r : Answer} (h : Inv c w (front ++ t :: back))
    (hstep : planStep c cfg w t r = some (w', t')) : Inv c w' (front ++ t' :: back) := by
  have hrefl : w.Beside w := ⟨rfl, rfl, rfl, rfl⟩
  unfold planStep at hstep
  split at hstep
  · cases hstep
    refine h.read hrefl ?_ ?_ <;> split <;> rfl
  · split at hstep
    · cases hstep
      exact h.read hrefl rfl (List.Perm.refl _)
    · cases hstep
  · split at hstep
    · rename_i hid
      cases hstep
      have hlength := hid.2.1
      have hnew := hid.2.2
      exact h.draw rfl rfl hlength hnew
    · cases hstep
  · cases hstep
    exact h.write _
  · split at hstep
    · rename_i hplan
      cases hstep
      refine h.read hrefl rfl ?_
      rw [Task.holdings, Task.holdings, hplan]
    · cases hstep
  · cases hstep
    exact h.read hrefl rfl (perm_held_reverse ..)
  · cases hstep
    refine h.read ?_ rfl (List.Perm.refl _)
    split
    · exact hrefl
    · exact ⟨rfl, rfl, rfl, rfl⟩
  · dsimp only at hstep
    split at hstep
    · cases hstep
      exact h.read hrefl rfl (perm_held_reverse ..)
    · split at hstep
      · cases hstep
      · cases hstep
        exact h.adopt rfl rfl _
  · cases hstep
    exact h.read hrefl rfl (perm_held_reverse ..)
  · cases hstep

theorem finish_idle (failed : Bool) (cause : Cause) :
    (finish failed cause).writing = none ∧ (finish failed cause).holdings c = [] := by
  unfold finish
  cases cause with
  | planning e => dsimp only; split <;> split <;> exact ⟨rfl, rfl⟩
  | abandoned => cases failed <;> exact ⟨rfl, rfl⟩
  | adoption => exact ⟨rfl, rfl⟩

/-- **Deletions** keep it. -/
theorem discardStep_inv {r : Answer} (h : Inv c w (front ++ t :: back))
    (hstep : discardStep c w t r = some (w', t')) : Inv c w' (front ++ t' :: back) := by
  unfold discardStep at hstep
  split at hstep
  · cases hstep
    exact h.delete
  · cases hstep
    exact h.delete
  · cases hstep
    exact h.leak
  · rename_i failed cause
    cases hstep
    obtain ⟨hwriting, hholds⟩ := @finish_idle c failed cause
    refine h.read ⟨rfl, rfl, rfl, rfl⟩ hwriting ?_
    rw [hholds]
    exact List.Perm.refl _
  · cases hstep

/-- **Every step** keeps it. -/
theorem act_inv {r : Answer} (h : Inv c w (front ++ t :: back))
    (hstep : act c cfg w t r = some (w', t')) : Inv c w' (front ++ t' :: back) := by
  unfold act at hstep
  split at hstep
  · split at hstep
    · cases hstep
    · cases hstep
      exact h.read ⟨rfl, rfl, rfl, rfl⟩ rfl (List.Perm.refl _)
  · rcases Option.or_eq_some_iff.mp hstep with hplan | ⟨-, hstep⟩
    · exact planStep_inv h hplan
    rcases Option.or_eq_some_iff.mp hstep with hdiscard | ⟨-, hafter⟩
    · exact discardStep_inv h hdiscard
    unfold afterStep at hafter
    split at hafter
    · obtain ⟨wp, -, heq⟩ := Option.map_eq_some_iff.mp hafter
      cases heq
      refine h.read ⟨rfl, rfl, rfl, rfl⟩ ?_ ?_ <;> split <;> rfl
    · cases hafter

/-! ## Behind the adoption -/

/-- A shard as adoption made it. -/
structure QuietShard (s : Shard) : Prop where
  status : s.status = .queued
  outputArtifactKey : s.outputArtifactKey = ""
  outputRows : s.outputRows = none
  outputDigest : s.outputDigest = ""
  error : s.error = ""

/-- An offload job as adoption made it, up to the id of its task. -/
structure QuietRow (row : Orchestration.Job) : Prop where
  status : row.status = .queued
  outputArtifactKey : row.outputArtifactKey = ""
  outputRows : row.outputRows = none
  outputDigest : row.outputPayloadDigest = ""
  error : row.error = ""

/-- There is nothing to copy. -/
theorem QuietShard.sync_eq {s : Shard} {row : Orchestration.Job} (h : QuietShard s)
    (hrow : QuietRow row) : s.sync row = s := by
  obtain ⟨index, input, offload, key, rows, digest, status, error⟩ := s
  obtain ⟨rfl, rfl, rfl, rfl, rfl⟩ := h
  simp only [Shard.sync, hrow.status, hrow.outputArtifactKey, hrow.outputRows, hrow.outputDigest,
    hrow.error, mapped]

theorem quiet_planned {first : Nat} {plan : Plan} {s : Shard} (h : s ∈ plannedShards first plan) :
    QuietShard s := by
  obtain ⟨i, hi, rfl⟩ := List.mem_mapIdx.mp h
  exact ⟨rfl, rfl, rfl, rfl, rfl⟩

theorem plannedShards_ne_nil (first : Nat) (plan : Plan) : plannedShards first plan ≠ [] := by
  intro h
  exact plan.nonempty (List.mapIdx_eq_nil_iff.mp h)

/-- Before the adoption there is nothing, behind it nothing changes. -/
inductive Settled (w : World) : Prop where
  | before (hadopted : w.adopted = []) (hshards : w.ledger.shards = [])
      (hoffloads : w.ledger.offloads = [])
  | behind (a : String) (plan : Plan) (hadopted : w.adopted = [(a, plan)])
      (hshards : w.ledger.shards = plannedShards 0 plan)
      (hstatus : w.ledger.job.status = .running) (herror : w.ledger.job.error = "")
      (hrows : ∀ row ∈ w.ledger.offloads, QuietRow row)

/-- The program points behind an adoption, with the copies they hold. -/
def Calm : Proc → Prop
  | .dispatch _ _ | .saveTaskId .. | .reconcile | .listShards | .listActive => True
  | .visit todo new => (∀ s ∈ todo, QuietShard s) ∧ new = []
  | .fold done todo => (∀ s ∈ done ++ todo, QuietShard s) ∧ done ++ todo ≠ []
  | _ => False

/-- The program points of a cancellation that comes before. -/
def Canceling : Proc → Prop
  | .cancel | .cancelList => True
  | .cancelLoop done todo => done = [] ∧ todo = []
  | _ => False

/-- What is known of an execution. -/
def Task.Ok (w : World) : Task → Prop
  | .after p => (Calm p ∧ w.ledger.shards ≠ []) ∨ Canceling p
  | _ => True

theorem foldStatus_quiet {done : List Shard} (h : ∀ s ∈ done, QuietShard s) (hne : done ≠ []) :
    foldStatus done = .running := by
  obtain ⟨s, hs⟩ := List.exists_mem_of_ne_nil done hne
  have hqueued : ShardStatus.queued ∈ done.map Shard.status :=
    List.mem_map.mpr ⟨s, hs, (h s hs).status⟩
  unfold foldStatus
  dsimp only
  rw [if_neg, if_pos (Or.inr hqueued)]
  rintro ⟨-, hall⟩
  exact absurd (hall _ hqueued) (by decide)

/-- What a step behind the adoption may write. -/
def Harmless : Write → Prop
  | .nothing | .delayDispatch _ | .saveOffloadTaskId .. => True
  | .saveJob status .. => status = .running
  | _ => False

theorem Settled.apply {wr : Write} (h : Settled w) (hwrite : Harmless wr) :
    Settled { w with ledger := w.ledger.apply cfg wr } := by
  cases h with
  | before hadopted hshards hoffloads =>
    refine .before hadopted ?_ ?_ <;> cases wr <;> simp_all [Harmless, Ledger.apply]
  | behind a plan hadopted hshards hstatus herror hrows =>
    cases wr with
    | nothing => exact .behind a plan hadopted hshards hstatus herror hrows
    | delayDispatch offload => exact .behind a plan hadopted hshards hstatus herror hrows
    | saveJob status shardCount rowsTotal => exact .behind a plan hadopted hshards hwrite herror hrows
    | saveOffloadTaskId offload id =>
      refine .behind a plan hadopted hshards hstatus herror fun row hrow => ?_
      obtain ⟨i, hi⟩ := List.mem_iff_getElem?.mp hrow
      have hi : (w.ledger.offloads.modify offload fun row => { row with celeryTaskId := id })[i]? =
          some row := hi
      rw [List.getElem?_modify] at hi
      obtain ⟨old, hold, rfl⟩ := Option.map_eq_some_iff.mp hi
      have hquiet := hrows old (List.mem_of_getElem? hold)
      split
      · exact ⟨hquiet.status, hquiet.outputArtifactKey, hquiet.outputRows, hquiet.outputDigest,
          hquiet.error⟩
      · exact hquiet
    | _ => exact absurd hwrite id

/-- **Behind the adoption** a step writes nothing that shows, and its copies stay as quiet. -/
theorem calm_step {p p' : Proc} {r : Reply} {wr : Write}
    (hshards : ∀ s ∈ w.ledger.shards, QuietShard s) (hne : w.ledger.shards ≠ [])
    (hrows : ∀ row ∈ w.ledger.offloads, QuietRow row) (hcalm : Calm p)
    (h : next cfg w.ledger p r = some (wr, p')) :
    Harmless wr ∧ (p' = .returned ∨ Calm p') := by
  have hsync : ∀ s, QuietShard s → ∀ offload row, w.ledger.offloads[offload]? = some row →
      s.sync row = s := fun s hs offload row hrow =>
    hs.sync_eq (hrows row (List.mem_of_getElem? hrow))
  cases p with
  | dispatch caller todo =>
    cases todo with
    | nil =>
      cases r <;> simp [next, submitStep, reconcileStep, cancelStep] at h
      obtain ⟨rfl, rfl⟩ := h
      exact ⟨trivial, Or.inr (by cases caller <;> trivial)⟩
    | cons offload todo =>
      cases r <;> simp [next, submitStep, reconcileStep, cancelStep] at h
      obtain ⟨rfl, rfl⟩ := h
      exact ⟨trivial, Or.inr trivial⟩
  | saveTaskId caller offload id todo =>
    cases r <;> simp [next, submitStep, reconcileStep, cancelStep] at h
    obtain ⟨rfl, rfl⟩ := h
    exact ⟨trivial, Or.inr trivial⟩
  | reconcile =>
    cases r <;> simp [next, submitStep, reconcileStep, cancelStep] at h
    obtain ⟨rfl, rfl⟩ := h
    refine ⟨trivial, ?_⟩
    split
    · exact Or.inl rfl
    · exact Or.inr trivial
  | listShards =>
    cases r <;> simp [next, submitStep, reconcileStep, cancelStep] at h
    obtain ⟨rfl, rfl⟩ := h
    exact ⟨trivial, Or.inr ⟨hshards, rfl⟩⟩
  | listActive =>
    cases r <;> simp [next, submitStep, reconcileStep, cancelStep] at h
    obtain ⟨rfl, rfl⟩ := h
    have hall : w.ledger.shards.filter (fun t => t.status != .superseded) = w.ledger.shards :=
      List.filter_eq_self.mpr fun s hs => by rw [(hshards s hs).status]; rfl
    rw [hall]
    exact ⟨trivial, Or.inr ⟨hshards, hne⟩⟩
  | visit todo new =>
    obtain ⟨htodo, rfl⟩ := hcalm
    cases todo with
    | nil =>
      cases r <;> simp [next, submitStep, reconcileStep, cancelStep] at h
      obtain ⟨rfl, rfl⟩ := h
      exact ⟨trivial, Or.inr trivial⟩
    | cons s todo =>
      rw [List.forall_mem_cons] at htodo
      have hvisited : visited s todo [] = .visit todo [] := by
        rw [visited, if_neg]
        rintro ⟨hfailed, -⟩
        rw [htodo.1.status] at hfailed
        cases hfailed
      cases r <;> simp [next, submitStep, reconcileStep, cancelStep, htodo.1.status, hvisited] at h
      split at h
      · simp at h
        obtain ⟨rfl, rfl⟩ := h
        exact ⟨trivial, Or.inr ⟨htodo.2, rfl⟩⟩
      · rename_i offload hoffload
        simp only [Option.map_eq_some_iff, Prod.mk.injEq] at h
        obtain ⟨row, hrow, rfl, rfl⟩ := h
        rw [if_pos (hsync s htodo.1 offload row hrow)]
        exact ⟨trivial, Or.inr ⟨htodo.2, rfl⟩⟩
  | fold done todo =>
    obtain ⟨hquiet, hdone⟩ := hcalm
    cases todo with
    | nil =>
      rw [List.append_nil] at hquiet hdone
      cases r <;> simp [next, submitStep, reconcileStep, cancelStep] at h
      obtain ⟨rfl, rfl⟩ := h
      exact ⟨foldStatus_quiet hquiet hdone, Or.inl rfl⟩
    | cons s todo =>
      have hs : QuietShard s := hquiet s (List.mem_append_right _ List.mem_cons_self)
      have hnext : Calm (.fold (done ++ [s]) todo) := by
        refine ⟨fun t ht => hquiet t ?_, by simp⟩
        rwa [List.append_assoc] at ht
      cases r <;> simp [next, submitStep, reconcileStep, cancelStep] at h
      split at h
      · simp at h
        obtain ⟨rfl, rfl⟩ := h
        exact ⟨trivial, Or.inr hnext⟩
      · rename_i offload hoffload
        simp only [Option.map_eq_some_iff, Prod.mk.injEq] at h
        obtain ⟨row, hrow, rfl, rfl⟩ := h
        rw [if_pos (hsync s hs offload row hrow)]
        exact ⟨trivial, Or.inr hnext⟩
  | _ => exact absurd hcalm id

/-- A cancellation before the adoption. -/
theorem canceling_step {p p' : Proc} {r : Reply} {wr : Write} (hshards : w.ledger.shards = [])
    (hcanceling : Canceling p) (h : next cfg w.ledger p r = some (wr, p')) :
    (wr = .nothing ∨ wr = .cancelJob) ∧ (p' = .returned ∨ Canceling p') := by
  cases p with
  | cancel =>
    cases r <;> simp [next, submitStep, reconcileStep, cancelStep] at h
    obtain ⟨rfl, rfl⟩ := h
    refine ⟨Or.inl rfl, ?_⟩
    split
    · exact Or.inl rfl
    · exact Or.inr trivial
  | cancelList =>
    cases r <;> simp [next, submitStep, reconcileStep, cancelStep] at h
    obtain ⟨rfl, rfl⟩ := h
    exact ⟨Or.inl rfl, Or.inr ⟨rfl, hshards⟩⟩
  | cancelLoop done todo =>
    obtain ⟨rfl, rfl⟩ := hcanceling
    cases r <;> simp [next, submitStep, reconcileStep, cancelStep] at h
    obtain ⟨rfl, rfl⟩ := h
    exact ⟨Or.inr rfl, Or.inl rfl⟩
  | _ => exact absurd hcanceling id

theorem Settled.shards_quiet (h : Settled w) : ∀ s ∈ w.ledger.shards, QuietShard s := by
  cases h with
  | before _ hshards => exact fun s hs => absurd (hshards ▸ hs) List.not_mem_nil
  | behind a plan _ hshards => exact fun s hs => quiet_planned (hshards ▸ hs)

theorem Settled.rows_quiet (h : Settled w) : ∀ row ∈ w.ledger.offloads, QuietRow row := by
  cases h with
  | before _ _ hoffloads => exact fun row hrow => absurd (hoffloads ▸ hrow) List.not_mem_nil
  | behind _ _ _ _ _ _ hrows => exact hrows

theorem Settled.job (h : Settled w) (hne : w.ledger.shards ≠ []) :
    w.ledger.job.status = .running ∧ w.ledger.job.error = "" := by
  cases h with
  | before _ hshards => exact absurd hshards hne
  | behind _ _ _ _ hstatus herror => exact ⟨hstatus, herror⟩

theorem Settled.not_adopted (h : Settled w) (hshards : w.ledger.shards = []) :
    w.adopted = [] ∧ w.ledger.offloads = [] := by
  cases h with
  | before hadopted _ hoffloads => exact ⟨hadopted, hoffloads⟩
  | behind _ plan _ hplanned => exact absurd (hplanned.symm.trans hshards) (plannedShards_ne_nil 0 plan)

theorem Settled.beside (h : Settled w) (hadopted : w'.adopted = w.adopted)
    (hledger : w'.ledger = w.ledger) : Settled w' := by
  cases h with
  | before h1 h2 h3 =>
    exact .before (hadopted.trans h1) (hledger ▸ h2) (hledger ▸ h3)
  | behind a plan h1 h2 h3 h4 h5 =>
    exact .behind a plan (hadopted.trans h1) (hledger ▸ h2) (hledger ▸ h3) (hledger ▸ h4)
      (hledger ▸ h5)

/-- What one step preserves. -/
structure Kept (w w' : World) (t' : Task) : Prop where
  settled : Settled w'
  shards : w.ledger.shards ≠ [] → w'.ledger.shards ≠ []
  ok : t'.Ok w'

theorem Kept.same (h : Settled w) (hok : t'.Ok w) : Kept w w t' := ⟨h, id, hok⟩

theorem planStep_kept {r : Answer} (h : Settled w)
    (hstep : planStep c cfg w t r = some (w', t')) : Kept w w' t' := by
  unfold planStep at hstep
  split at hstep
  · cases hstep
    refine .same h ?_
    split <;> trivial
  · split at hstep
    · rename_i hne
      cases hstep
      exact .same h (Or.inl ⟨trivial, hne⟩)
    · cases hstep
  · split at hstep
    · cases hstep
      exact ⟨h.beside rfl rfl, id, trivial⟩
    · cases hstep
  · cases hstep
    exact ⟨h.beside rfl rfl, id, trivial⟩
  · split at hstep
    · cases hstep
      exact .same h trivial
    · cases hstep
  · cases hstep
    exact .same h trivial
  · cases hstep
    split
    · exact .same h trivial
    · rename_i hopen
      rw [not_or, not_ne_iff] at hopen
      obtain ⟨hadopted, hoffloads⟩ := h.not_adopted hopen.2
      exact ⟨.before hadopted hopen.2 hoffloads, id, trivial⟩
  · dsimp only at hstep
    split at hstep
    · cases hstep
      exact .same h trivial
    · rename_i a plan hopen
      rw [not_or, not_ne_iff] at hopen
      obtain ⟨hadopted, hoffloads⟩ := h.not_adopted hopen.2
      split at hstep
      · cases hstep
      · cases hstep
        have hne := plannedShards_ne_nil w.ledger.offloads.length plan
        refine ⟨.behind a plan ?_ ?_ rfl rfl fun row hrow => ?_, fun _ => hne,
          Or.inl ⟨trivial, hne⟩⟩
        · rw [hadopted, List.nil_append]
        · show plannedShards w.ledger.offloads.length plan = _
          rw [hoffloads, List.length_nil]
        · rcases List.mem_append.mp hrow with hrow | hrow
          · exact absurd (hoffloads ▸ hrow) List.not_mem_nil
          · obtain ⟨s, -, rfl⟩ := List.mem_map.mp hrow
            exact ⟨rfl, rfl, rfl, rfl, rfl⟩
  · cases hstep
    exact .same h trivial
  · cases hstep

theorem finish_ok (failed : Bool) (cause : Cause) : (finish failed cause).Ok w := by
  unfold finish
  cases cause with
  | planning e => dsimp only; split <;> split <;> trivial
  | abandoned => cases failed <;> trivial
  | adoption => trivial

theorem discardStep_kept {r : Answer} (h : Settled w)
    (hstep : discardStep c w t r = some (w', t')) : Kept w w' t' := by
  unfold discardStep at hstep
  split at hstep
  · cases hstep
    exact ⟨h.beside rfl rfl, id, trivial⟩
  · cases hstep
    exact ⟨h.beside rfl rfl, id, trivial⟩
  · cases hstep
    exact ⟨h.beside rfl rfl, id, trivial⟩
  · cases hstep
    exact .same h (finish_ok ..)
  · cases hstep

theorem afterStep_kept {r : Answer} (h : Settled w) (hok : t.Ok w)
    (hbefore : t.cancels = true → w.ledger.shards = [])
    (hstep : afterStep cfg w t r = some (w', t')) : Kept w w' t' := by
  unfold afterStep at hstep
  split at hstep
  · rename_i p r
    obtain ⟨⟨wr, p'⟩, hnext, heq⟩ := Option.map_eq_some_iff.mp hstep
    cases heq
    rcases hok with ⟨hcalm, hne⟩ | hcanceling
    · obtain ⟨hwrite, hp'⟩ := calm_step h.shards_quiet hne h.rows_quiet hcalm hnext
      have hshards : (w.ledger.apply cfg wr).shards = w.ledger.shards := by
        cases wr <;> first | rfl | exact absurd hwrite id
      refine ⟨h.apply hwrite, fun _ => hshards ▸ hne, ?_⟩
      dsimp only
      split
      · trivial
      · rename_i hreturned
        exact Or.inl ⟨hp'.resolve_left hreturned, hshards ▸ hne⟩
    · have hshards : w.ledger.shards = [] := by
        refine hbefore ?_
        cases p <;> first | rfl | exact absurd hcanceling id
      obtain ⟨hwrite, hp'⟩ := canceling_step hshards hcanceling hnext
      obtain ⟨hadopted, hoffloads⟩ := h.not_adopted hshards
      refine ⟨?_, fun hne => absurd hshards hne, ?_⟩
      · rcases hwrite with rfl | rfl <;> exact .before hadopted hshards hoffloads
      · dsimp only
        split
        · trivial
        · rename_i hreturned
          exact Or.inr (hp'.resolve_left hreturned)
  · cases hstep

/-- **Every step** keeps it. -/
theorem act_kept {r : Answer} (h : Settled w) (hok : t.Ok w)
    (hbefore : t.cancels = true → w.ledger.shards = [])
    (hstep : act c cfg w t r = some (w', t')) : Kept w w' t' := by
  unfold act at hstep
  split at hstep
  · split at hstep
    · cases hstep
    · cases hstep
      exact .same h trivial
  · rcases Option.or_eq_some_iff.mp hstep with hplan | ⟨-, hstep⟩
    · exact planStep_kept h hplan
    rcases Option.or_eq_some_iff.mp hstep with hdiscard | ⟨-, hafter⟩
    · exact discardStep_kept h hdiscard
    exact afterStep_kept h hok hbefore hafter

/-- What is known stays known while there are shards. -/
theorem Task.Ok.mono (h : t.Ok w) (hshards : w.ledger.shards ≠ [] → w'.ledger.shards ≠ []) :
    t.Ok w' := by
  cases t with
  | after p => exact h.imp_left (And.imp_right hshards)
  | _ => trivial

/-! ## All executions -/

/-- Whatever was reached. -/
structure Reached (c : Planning Nat) (s : Config World Task) : Prop where
  inv : Inv c s.store s.procs
  settled : Settled s.store
  ok : ∀ t ∈ s.procs, t.Ok s.store

theorem inv_spawn {procs : List Task} (h : Inv c w procs) (hstarts : t.starts = true) :
    Inv c w (procs ++ [t]) := by
  have hidle : t.writing = none ∧ t.holdings c = [] := by
    cases t with
    | submit => exact ⟨rfl, rfl⟩
    | after p => exact ⟨rfl, rfl⟩
    | _ => cases hstarts
  have hfilter : (procs ++ [t]).filterMap Task.writing = procs.filterMap Task.writing := by
    rw [List.filterMap_append, List.filterMap_cons_none hidle.1, List.filterMap_nil,
      List.append_nil]
  refine ⟨?_, h.keys, h.drawn, h.lengths, hfilter ▸ h.attempts, hfilter ▸ h.writing,
    fun a tables hmem => ?_⟩
  · rw [List.flatMap_append, List.flatMap_singleton, hidle.2, List.append_nil]
    exact h.objects
  · rcases List.mem_append.mp hmem with hmem | hmem
    · exact h.planning a tables hmem
    · rw [← List.mem_singleton.mp hmem] at hidle
      cases hidle.1

theorem starts_ok (h : t.starts = true) : t.Ok w := by
  cases t with
  | after p =>
    cases p with
    | cancel => exact Or.inr trivial
    | _ => cases h
  | _ => trivial

theorem reached_fresh (c : Planning Nat) : Reached c fresh :=
  ⟨inv_fresh c, .before rfl rfl rfl, fun _ h => absurd h List.not_mem_nil⟩

/-- A step that moves one execution, as the pool around it. -/
theorem set_around {procs : List Task} (h : procs[i]? = some t) :
    ∃ front back, procs = front ++ t :: back ∧ ∀ t', procs.set i t' = front ++ t' :: back := by
  obtain ⟨hi, rfl⟩ := List.getElem?_eq_some_iff.mp h
  refine ⟨procs.take i, procs.drop (i + 1), ?_, fun t' => ?_⟩
  · rw [← List.drop_eq_getElem_cons hi, List.take_append_drop]
  · exact List.set_eq_take_cons_drop t' hi

theorem reached_step {s s' : Config World Task} {e : Event Task Answer Empty} (h : Reached c s)
    (hbefore : canceledBefore s e) (hstep : (program c cfg).step s e = some s') : Reached c s' := by
  cases e with
  | spawn t =>
    obtain ⟨hstarts, rfl⟩ := (program c cfg).step_spawn hstep
    refine ⟨inv_spawn h.inv hstarts, h.settled, fun t' ht' => ?_⟩
    rcases List.mem_append.mp ht' with ht' | ht'
    · exact h.ok t' ht'
    · obtain rfl := List.mem_singleton.mp ht'
      exact starts_ok hstarts
  | act i r =>
    obtain ⟨t, w', t', hget, hact, rfl⟩ := (program c cfg).step_act hstep
    have hkept := act_kept h.settled (h.ok t (List.mem_of_getElem? hget)) (hbefore t hget) hact
    obtain ⟨front, back, hprocs, hset⟩ := set_around hget
    refine ⟨?_, hkept.settled, fun t₁ ht₁ => ?_⟩
    · show Inv c w' (s.procs.set i t')
      rw [hset t']
      exact act_inv (hprocs ▸ h.inv) hact
    · rcases List.mem_or_eq_of_mem_set ht₁ with ht₁ | rfl
      · exact (h.ok t₁ ht₁).mono hkept.shards
      · exact hkept.ok
  | env e => cases e

theorem reach_reached {s : Config World Task} (h : (program c cfg).Reach canceledBefore fresh s) :
    Reached c s :=
  Program.Reach.invariant _ (fun _ _ _ hI hC he => reached_step hI hC he) h (reached_fresh c)

/-- Who has ended holds nothing. -/
theorem ended_holdings (h : t.ended = true) : t.holdings c = [] := by
  cases t with
  | returned => rfl
  | raised => rfl
  | _ => cases h

theorem Settled.adopted (h : Settled w) : w.adopted.length ≤ 1 ∧
    w.ledger.shards = w.adopted.flatMap fun x => plannedShards 0 x.2 := by
  cases h with
  | before hadopted hshards => rw [hadopted, hshards]; exact ⟨Nat.zero_le _, rfl⟩
  | behind a plan hadopted hshards =>
    rw [hadopted, hshards, List.flatMap_singleton]
    exact ⟨le_refl _, rfl⟩

/-- **One plan wins.**  In every interleaving of executions of `submit_extraction` and cancellations
    that commit before an adoption, at most one plan is adopted and the shards are its shards; when
    all have ended and no deletion has left its object, the store holds the inputs of the adopted
    plan and nothing else; and once the job has shards, no step of anybody changes its status or its
    error. -/
theorem one_plan_wins {s : Config World Task}
    (h : (program c cfg).Reach canceledBefore fresh s) :
    s.store.adopted.length ≤ 1 ∧
      s.store.ledger.shards = (s.store.adopted.flatMap fun x => plannedShards 0 x.2) ∧
      ((∀ t ∈ s.procs, t.ended = true) → s.store.leaked = [] →
        s.store.objects.Perm (s.store.inputs c)) ∧
      ∀ e s', canceledBefore s e → (program c cfg).step s e = some s' →
        s.store.ledger.shards ≠ [] →
        s'.store.ledger.job.status = s.store.ledger.job.status ∧
          s'.store.ledger.job.error = s.store.ledger.job.error := by
  have hreached := reach_reached h
  refine ⟨hreached.settled.adopted.1, hreached.settled.adopted.2, fun hended hleaked => ?_,
    fun e s' hbefore hstep hne => ?_⟩
  · have hnothing : s.procs.flatMap (Task.holdings c) = [] :=
      List.flatMap_eq_nil_iff.mpr fun t ht => ended_holdings (hended t ht)
    have hobjects := hreached.inv.objects
    rwa [hnothing, hleaked, List.append_nil, List.append_nil] at hobjects
  · obtain ⟨hstatus, herror⟩ := hreached.settled.job hne
    have hne' : s'.store.ledger.shards ≠ [] := by
      cases e with
      | spawn t =>
        obtain ⟨-, rfl⟩ := (program c cfg).step_spawn hstep
        exact hne
      | act i r =>
        obtain ⟨t, w', t', hget, hact, rfl⟩ := (program c cfg).step_act hstep
        have hok := hreached.ok t (List.mem_of_getElem? hget)
        exact (act_kept hreached.settled hok (hbefore t hget) hact).shards hne
      | env e => cases e
    obtain ⟨hstatus', herror'⟩ := (reached_step hreached hbefore hstep).settled.job hne'
    exact ⟨hstatus'.trans hstatus.symm, herror'.trans herror.symm⟩

/-- Two executions plan at the same time; one adopts its plan, the other deletes what it wrote. -/
def raced : List (Event Task Answer Empty) :=
  [.spawn .submit, .spawn .submit, .act 0 .ok, .act 1 .ok,
    .act 0 (.uuid4 "00000000-0000-4000-8000-000000000000"),
    .act 1 (.uuid4 "00000000-0000-4000-8000-000000000001"),
    .act 0 (.wrote [0, 1]), .act 1 (.wrote [0, 1]),
    .act 0 (.planned onePlan), .act 1 (.planned onePlan), .act 1 .ok, .act 0 .ok,
    .act 0 .ok, .act 0 .ok,
    -- the winner dispatches its shard and reconciles
    .act 1 (.reply (.taskId "task")), .act 1 (.reply .ok), .act 1 (.reply .ok),
    .act 1 (.reply .ok), .act 1 (.reply .ok), .act 1 (.reply .ok), .act 1 (.reply .ok),
    .act 1 (.reply .ok), .act 1 (.reply .ok), .act 1 (.reply .ok), .act 1 (.reply .ok)]

theorem one_plan_wins_raced : ∃ s : Config World Task,
    (∀ t ∈ s.procs, t.ended = true) ∧ s.store.ledger.shards ≠ [] ∧ s.store.leaked = [] ∧
      s.store.adopted.length ≤ 1 ∧ s.store.objects.Perm (s.store.inputs toyPlanning) := by
  have hrun : ((program toyPlanning toySettings).runWhen canceledBefore fresh raced).any
      (fun s => s.procs.all Task.ended && (!s.store.ledger.shards.isEmpty &&
        s.store.leaked.isEmpty)) = true := by
    decide +kernel
  obtain ⟨s, hs, hrest⟩ := (Option.any_eq_true ..).mp hrun
  simp only [Bool.and_eq_true, Bool.not_eq_true', List.isEmpty_eq_false_iff,
    List.isEmpty_iff] at hrest
  obtain ⟨hended, hshards, hleaked⟩ := hrest
  have hended : ∀ t ∈ s.procs, t.ended = true := List.all_eq_true.mp hended
  have hwins := one_plan_wins (Program.runWhen_reach _ raced hs)
  exact ⟨s, hended, hshards, hleaked, hwins.1, hwins.2.2.1 hended hleaked⟩

end ControlPlane.Extraction.Adoption
