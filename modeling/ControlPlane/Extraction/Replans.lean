/-
  REPLANNING ENDS: `replan_shard` of `apps/extraction/planner.py`, and the tasks that call it one after
  the other.

  A shard that fails on the size of its output is split in two, and so may its halves be.  Who
  descends from a shard is kept beside the run, in a `Tally`, with the number of replans so far.

  1. While ONE task is at work at a time, no save falls on a row that was superseded since the copy
     was read (`sequential_step`): what it will still save is `Current`.
  2. Every replan takes one from the SPARE rows of the active shards: those that are not the first
     one of their shard (`spare_replan`).  No other write changes them (`spare_apply`).
  3. `replanning_terminates`: so a shard with n rows is replanned at most n - 1 times together with
     its descendants, and in every run there is a last replan.
-/
import ControlPlane.Solo
import ControlPlane.Extraction.Coverage
import ControlPlane.Extraction.Reconcile
import Mathlib.Order.WellFounded

namespace ControlPlane.Extraction

open ControlPlane.Interleave ControlPlane.Bucket

variable {cfg : Settings} {l l' : Ledger} {p p' : Proc} {r : Reply} {w : Write} {s t : Shard}

/-! ## One task at a time -/

/-- A task starts when the one before it has returned or died. -/
def sequential (c : Config Ledger Proc) : Event Proc Reply (Nat × Orchestration.Job) → Bool
  | .spawn _ => c.procs.all Proc.ended
  | _ => true

/-- The copies that it has not dealt with yet. -/
def Proc.ahead : Proc → List Shard
  | .visit todo _ | .create _ todo _ | .link _ _ _ todo _ | .refuse _ _ todo _
  | .refuseOffload _ _ todo _ | .fold _ todo | .cancelLoop _ todo => todo
  | .saveSync s todo _ | .replan s todo _ | .saveFold s _ todo | .cancelSave s _ todo => s :: todo
  | _ => []

/-- The copy that it is about to save or to replan. -/
def Proc.saving : Proc → Option Shard
  | .saveSync s _ _ | .replan s _ _ | .saveFold s _ _ | .cancelSave s _ _ => some s
  | _ => none

/-- No row was superseded since the copy was read. -/
structure Current (l : Ledger) (p : Proc) : Prop where
  distinct : (p.ahead.map Shard.index).Nodup
  active : ∀ s ∈ p.ahead, s.status ≠ .superseded → l.supersededAt s.index = false
  saving : ∀ s ∈ p.saving, s.status ≠ .superseded

theorem supersededAt_eq_true {index : Nat} : l.supersededAt index = true ↔
    ∃ t ∈ l.shards, t.index = index ∧ t.status = .superseded := by
  simp [Ledger.supersededAt]

/-- A program point that holds nothing. -/
theorem Current.idle (hahead : p.ahead = []) (hsaving : p.saving = none) : Current l p :=
  ⟨by simp [hahead], by simp [hahead], by simp [hsaving]⟩

/-- The list of shards, or a part of it, straight from the table. -/
theorem Current.listed (hl : LedgerOk cfg l) (hahead : p.ahead.Sublist l.shards)
    (hsaving : p.saving = none) : Current l p := by
  refine ⟨hl.nodup.sublist (hahead.map _), fun s hs hactive => ?_, by simp [hsaving]⟩
  refine Bool.eq_false_iff.mpr fun hsup => ?_
  obtain ⟨t, ht, hindex, hstatus⟩ := supersededAt_eq_true.mp hsup
  obtain rfl := Table.eq_of_key hl.nodup ht (hahead.subset hs) hindex
  exact hactive hstatus

/-- A step that keeps the order of the copies, and supersedes none of them. -/
theorem Current.move (h : Current l p)
    (hahead : (p'.ahead.map Shard.index).Sublist (p.ahead.map Shard.index))
    (hcopies : ∀ s ∈ p'.ahead, s ∈ p.ahead ∨ l.supersededAt s.index = false)
    (hsup : ∀ s ∈ p'.ahead, l'.supersededAt s.index = true → l.supersededAt s.index = true)
    (hsaving : ∀ s ∈ p'.saving, s.status ≠ .superseded) : Current l' p' := by
  refine ⟨h.distinct.sublist hahead, fun s hs hactive => ?_, hsaving⟩
  have hold : l.supersededAt s.index = false :=
    (hcopies s hs).elim (fun hmem => h.active s hmem hactive) id
  exact Bool.eq_false_iff.mpr fun hnew => Bool.eq_false_iff.mp hold (hsup s hs hnew)

/-- A step that only forgets copies. -/
theorem Current.forget (h : Current l p) (hahead : p'.ahead.Sublist p.ahead)
    (hsup : ∀ i, l'.supersededAt i = true → l.supersededAt i = true) (hsaving : p'.saving = none) :
    Current l' p' :=
  h.move (hahead.map _) (fun _ hs => .inl (hahead.subset hs)) (fun _ _ => hsup _) (by simp [hsaving])

theorem modifyShard_supersededAt {index i : Nat} {f : Shard → Shard}
    (h : (l.modifyShard index f).supersededAt i = true)
    (hf : ∀ t, t.index = index → (f t).status = .superseded → t.status = .superseded)
    (hindex : ∀ t, t.index = index → (f t).index = t.index) : l.supersededAt i = true := by
  obtain ⟨t, ht, hi, hstatus⟩ := supersededAt_eq_true.mp h
  refine supersededAt_eq_true.mpr ?_
  rcases Table.mem_modify.mp ht with ⟨u, hu, hkey, rfl⟩ | ⟨ht, -⟩
  · exact ⟨u, hu, (hindex u hkey).symm.trans hi, hf u hkey hstatus⟩
  · exact ⟨t, ht, hi, hstatus⟩

/-- Only `replan_shard` supersedes. -/
theorem supersededAt_apply {i : Nat} (hw : WriteOk cfg l w)
    (h : (l.apply cfg w).supersededAt i = true) :
    l.supersededAt i = true ∨ ∃ s, w = .replan s ∧ s.index = i := by
  cases w with
  | saveShard s =>
    exact .inl (modifyShard_supersededAt h (fun _ _ hsup => absurd hsup hw.2.2) fun _ ht => ht.symm)
  | saveShardStatus index status =>
    exact .inl (modifyShard_supersededAt h (fun _ _ hsup => absurd hsup hw.1) fun _ _ => rfl)
  | saveShardError index error =>
    exact .inl (modifyShard_supersededAt h (fun _ _ hsup => hsup) fun _ _ => rfl)
  | saveShardOffload index o =>
    exact .inl (modifyShard_supersededAt h (fun _ _ hsup => hsup) fun _ _ => rfl)
  | adopt plan =>
    obtain ⟨t, ht, -, hstatus⟩ := supersededAt_eq_true.mp h
    obtain ⟨_, _, -, -, -, hqueued, -⟩ := mem_plannedShards ht
    rw [hqueued] at hstatus
    cases hstatus
  | replan s =>
    obtain ⟨t, ht, hi, hstatus⟩ := supersededAt_eq_true.mp h
    rcases List.mem_append.mp ht with ht | ht
    · rcases Table.mem_modify.mp ht with ⟨u, -, hkey, rfl⟩ | ⟨ht, -⟩
      · exact .inr ⟨s, rfl, hkey.symm.trans hi⟩
      · exact .inl (supersededAt_eq_true.mpr ⟨t, ht, hi, hstatus⟩)
    · rw [(mem_replacements ht).2.1] at hstatus
      cases hstatus
  | requeueFailed =>
    obtain ⟨t, ht, hi, hstatus⟩ := supersededAt_eq_true.mp h
    obtain ⟨u, hu, rfl⟩ := List.mem_map.mp ht
    refine .inl (supersededAt_eq_true.mpr ⟨u, hu, ?_⟩)
    split at hi
    · rename_i hrerun
      rw [if_pos hrerun] at hstatus
      cases hstatus
    · rename_i hrerun
      rw [if_neg hrerun] at hstatus
      exact ⟨hi, hstatus⟩
  | _ => exact .inl h

/-- What a step of the task at work owes: its copies stay current, it saves over no superseded row,
    and it splits no shard of fewer than two rows. -/
structure Careful (cfg : Settings) (l : Ledger) (w : Write) (p' : Proc) : Prop where
  current : Current (l.apply cfg w) p'
  revives : w.revives l = false
  long : ∀ s, w = .replan s → 2 ≤ s.input.length

/-- A step that writes nothing. -/
theorem Careful.read (h : Current l p') : Careful cfg l .nothing p' := ⟨h, rfl, nofun⟩

/-- A step whose write saves no copy and supersedes nothing. -/
theorem Careful.write (hw : WriteOk cfg l w) (h : Current l p) (hahead : p'.ahead.Sublist p.ahead)
    (hsaving : p'.saving = none) (hrevives : w.revives l = false)
    (hreplan : ∀ s, w ≠ .replan s) : Careful cfg l w p' := by
  refine ⟨h.forget hahead (fun i hi => ?_) hsaving, hrevives, fun s hs => absurd hs (hreplan s)⟩
  exact (supersededAt_apply hw hi).resolve_right fun ⟨s, hs, _⟩ => hreplan s hs

theorem visited_current {todo : List Shard} {new : List Nat} (hdistinct : ((s :: todo).map Shard.index).Nodup)
    (hs : s.status ≠ .superseded → l.supersededAt s.index = false)
    (htodo : ∀ t ∈ todo, t.status ≠ .superseded → l.supersededAt t.index = false) :
    Current l (visited s todo new) := by
  unfold visited
  split
  · rename_i hfailed
    exact ⟨hdistinct, List.forall_mem_cons.mpr ⟨hs, htodo⟩, fun t ht => by
      obtain rfl := Option.some.inj ht
      simp [hfailed.1]⟩
  · exact ⟨(List.nodup_cons.mp hdistinct).2, htodo, nofun⟩

theorem submit_careful (hw : WriteOk cfg l w) (h : submitStep cfg l p r = some (w, p')) :
    Careful cfg l w p' := by
  have hidle : p'.ahead = [] ∧ p'.saving = none ∧ w.revives l = false ∧ ∀ s, w ≠ .replan s := by
    unfold submitStep at h
    split at h
    · cases h
      split <;> exact ⟨rfl, rfl, rfl, nofun⟩
    · cases h
      split <;> exact ⟨rfl, rfl, rfl, nofun⟩
    · cases h
      exact ⟨rfl, rfl, rfl, nofun⟩
    · cases h
      exact ⟨rfl, rfl, rfl, nofun⟩
    · cases h
      refine ⟨rfl, rfl, ?_⟩
      split <;> exact ⟨rfl, nofun⟩
    · simp only at h
      split at h
      · cases h
        exact ⟨rfl, rfl, rfl, nofun⟩
      · split at h
        · cases h
        · cases h
          exact ⟨rfl, rfl, rfl, nofun⟩
    · rename_i caller
      cases h
      cases caller <;> exact ⟨rfl, rfl, rfl, nofun⟩
    · cases h
      exact ⟨rfl, rfl, rfl, nofun⟩
    · cases h
      exact ⟨rfl, rfl, rfl, nofun⟩
    · cases h
  obtain ⟨hahead, hsaving, hrevives, hreplan⟩ := hidle
  exact ⟨Current.idle hahead hsaving, hrevives, fun s hs => absurd hs (hreplan s)⟩

theorem reconcile_careful (hl : LedgerOk cfg l) (hp : Sound cfg l p) (hc : Current l p)
    (hw : WriteOk cfg l w) (h : reconcileStep cfg l p r = some (w, p')) : Careful cfg l w p' := by
  unfold reconcileStep at h
  split at h
  · cases h
    refine Careful.read ?_
    split <;> exact Current.idle rfl rfl
  · cases h
    exact Careful.read (Current.listed hl (List.Sublist.refl _) rfl)
  · cases h
    exact Careful.read (Current.idle rfl rfl)
  · -- one shard of the first loop
    rename_i s todo new
    obtain ⟨hs, htodo⟩ := List.forall_mem_cons.mp hc.active
    split at h
    · cases h
      exact Careful.read (hc.forget (List.sublist_cons_self _ _) (fun _ => id) rfl)
    · rename_i hactive
      split at h
      · cases h
        exact Careful.read (visited_current hc.distinct hs htodo)
      · obtain ⟨row, -, heq⟩ := Option.map_eq_some_iff.mp h
        cases heq
        refine Careful.read ?_
        split
        · exact visited_current hc.distinct hs htodo
        · exact ⟨hc.distinct, List.forall_mem_cons.mpr ⟨fun _ => hs hactive, htodo⟩, fun t ht => by
            obtain rfl := Option.some.inj ht
            exact sync_not_superseded row⟩
  · -- the full save of the synced copy
    rename_i s todo new
    cases h
    obtain ⟨hs, htodo⟩ := List.forall_mem_cons.mp hc.active
    have hsup : ∀ i, (l.apply cfg (.saveShard s)).supersededAt i = true → l.supersededAt i = true :=
      fun i hi => (supersededAt_apply hw hi).resolve_right nofun
    have hkeep : ∀ i, l.supersededAt i = false → (l.apply cfg (.saveShard s)).supersededAt i = false :=
      fun i hi => Bool.eq_false_iff.mpr fun hnew => Bool.eq_false_iff.mp hi (hsup i hnew)
    exact ⟨visited_current hc.distinct (fun ha => hkeep _ (hs ha)) fun t ht ha => hkeep _ (htodo t ht ha),
      hs hw.2.2, nofun⟩
  · cases h
    exact Careful.read (hc.forget (List.sublist_cons_self _ _) (fun _ => id) rfl)
  · -- the transaction of `replan_shard`
    rename_i s todo new
    split at h
    · cases h
      exact Careful.read (hc.forget (List.sublist_cons_self _ _) (fun _ => id) rfl)
    · rename_i hlong
      obtain ⟨locked, -, heq⟩ := Option.map_eq_some_iff.mp h
      split at heq
      · cases heq
        exact Careful.read (hc.forget (List.sublist_cons_self _ _) (fun _ => id) rfl)
      · cases heq
        have hother : ∀ t ∈ todo, t.index ≠ s.index := fun t ht hindex =>
          (List.nodup_cons.mp hc.distinct).1 (hindex ▸ List.mem_map_of_mem ht)
        refine ⟨hc.move ((List.sublist_cons_self _ _).map _) (fun t ht => .inl (List.mem_cons_of_mem _ ht))
          (fun t ht hsup => ?_) nofun, rfl, fun t ht => ?_⟩
        · refine (supersededAt_apply hw hsup).resolve_right ?_
          rintro ⟨u, hu, hindex⟩
          obtain rfl := Write.replan.inj hu
          exact hother t ht hindex.symm
        · obtain rfl := Write.replan.inj ht
          exact Nat.le_of_not_lt hlong
  · cases h
    exact Careful.read (hc.forget (List.Sublist.refl _) (fun _ => id) rfl)
  · split at h
    · cases h
    · cases h
      exact Careful.write hw hc (List.Sublist.refl _) rfl rfl nofun
  · cases h
    exact Careful.write hw hc (List.Sublist.refl _) rfl rfl nofun
  · cases h
    refine Careful.write hw hc ?_ ?_ rfl nofun
    · split <;> exact List.Sublist.refl _
    · split <;> rfl
  · cases h
    exact Careful.write hw hc (List.Sublist.refl _) rfl rfl nofun
  · cases h
    exact Careful.read (Current.listed hl List.filter_sublist rfl)
  · -- one shard of the second loop
    rename_i done s todo
    obtain ⟨hs, htodo⟩ := List.forall_mem_cons.mp hc.active
    split at h
    · cases h
      exact Careful.read (hc.forget (List.sublist_cons_self _ _) (fun _ => id) rfl)
    · obtain ⟨row, -, heq⟩ := Option.map_eq_some_iff.mp h
      cases heq
      refine Careful.read ?_
      split
      · exact hc.forget (List.sublist_cons_self _ _) (fun _ => id) rfl
      · have hactive : s.status ≠ .superseded := hp.ready s (by simp)
        exact ⟨hc.distinct, List.forall_mem_cons.mpr ⟨fun _ => hs hactive, htodo⟩, fun t ht => by
          obtain rfl := Option.some.inj ht
          exact sync_not_superseded row⟩
  · rename_i s done todo
    cases h
    exact Careful.write hw hc (List.sublist_cons_self _ _) rfl
      (hc.active s List.mem_cons_self hw.2.2) nofun
  · cases h
    exact Careful.write hw hc (List.nil_sublist _) rfl rfl nofun
  · cases h
    refine Careful.read ?_
    split <;> exact Current.idle rfl rfl
  · cases h

theorem cancel_careful (hl : LedgerOk cfg l) (hc : Current l p) (hw : WriteOk cfg l w)
    (h : cancelStep l p r = some (w, p')) : Careful cfg l w p' := by
  unfold cancelStep at h
  split at h
  · cases h
    refine Careful.read ?_
    split <;> exact Current.idle rfl rfl
  · cases h
    exact Careful.read (Current.listed hl (List.Sublist.refl _) rfl)
  · -- one shard of the loop
    rename_i done s todo
    split at h
    · cases h
      exact Careful.read (hc.forget (List.sublist_cons_self _ _) (fun _ => id) rfl)
    · split at h
      · cases h
        exact Careful.read (hc.forget (List.sublist_cons_self _ _) (fun _ => id) rfl)
      · rename_i hfinal
        cases h
        refine ⟨⟨hc.distinct, hc.active, fun t ht hsup => hfinal ?_⟩, rfl, nofun⟩
        obtain rfl := Option.some.inj ht
        rw [hsup]
        rfl
  · rename_i s done todo
    cases h
    exact Careful.write hw hc (List.sublist_cons_self _ _) rfl
      (hc.active s List.mem_cons_self (hc.saving s rfl)) nofun
  · cases h
    exact Careful.write hw hc (List.nil_sublist _) rfl rfl nofun
  · cases h
    exact Careful.write hw hc (List.nil_sublist _) rfl rfl nofun
  · cases h

theorem next_careful (hl : LedgerOk cfg l) (hp : Sound cfg l p) (hc : Current l p)
    (h : next cfg l p r = some (w, p')) : Careful cfg l w p' := by
  have hw : WriteOk cfg l w := (next_sound hl hp h).1
  rcases next_cases h with h | h | h
  · exact submit_careful hw h
  · exact reconcile_careful hl hp hc hw h
  · exact cancel_careful hl hc hw h

/-! ### The pool -/

/-- At most one task is at work, and its copies are current. -/
def Alone (c : Config Ledger Proc) : Prop :=
  ∃ o, AtWork (fun p => !p.ended) c.procs o ∧ ∀ p ∈ o, Current c.store p

theorem fresh_alone : Alone fresh := ⟨none, rfl, nofun⟩

/-- A task that takes a step has not returned. -/
theorem act_working {x : Ledger × Proc} (h : act cfg l p r = some x) : p.ended = false := by
  unfold act at h
  split at h
  · split at h
    · cases h
    · exact Bool.not_eq_true _ ▸ ‹_›
  · obtain ⟨wp, hnext, -⟩ := Option.map_eq_some_iff.mp h
    cases p <;> first
      | rfl
      | cases r <;> cases hnext

/-- **One task at a time**: its copies stay current, and no step revives a superseded row or splits a
    shard of fewer than two rows. -/
theorem sequential_step {c c' : Config Ledger Proc} {e : Event Proc Reply (Nat × Orchestration.Job)}
    (hrows : (rowsOutline cfg).Holds c) (halone : Alone c) (hC : sequential c e = true)
    (h : (program cfg).step c e = some c') :
    Alone c' ∧ keepsSuperseded cfg c e = true ∧
      ∀ p s, writing cfg c e = some (p, .replan s) → 2 ≤ s.input.length := by
  obtain ⟨o, hwork, hcurrent⟩ := halone
  cases e with
  | spawn p =>
    obtain ⟨hstart, rfl⟩ := (program cfg).step_spawn h
    have hnone : o = none := by
      cases o with
      | none => rfl
      | some q =>
        have hended := List.all_eq_true.mp hC q hwork.mem
        have hworks := hwork.works
        simp [hended] at hworks
    refine ⟨⟨some p, ?_, fun q hq => ?_⟩, rfl, fun p s hwrite => by cases hwrite⟩
    · subst hnone
      have hp : (!p.ended) = true := by cases p <;> first | rfl | cases hstart
      rw [AtWork, List.filter_append, hwork]
      simp [hp]
    · obtain rfl := Option.some.inj hq
      cases p <;> first
        | exact Current.idle rfl rfl
        | cases hstart
  | act i r =>
    obtain ⟨p, l', p', hget, hact, rfl⟩ := (program cfg).step_act h
    have hp : (!p.ended) = true := by rw [act_working hact]; rfl
    obtain rfl := hwork.eq (List.mem_of_getElem? hget) hp
    have hset := atWork_set_work (q := p') hwork hget hp
    have hsound : Sound cfg c.store p := hrows.2 p (List.mem_of_getElem? hget)
    rcases act_cases hact with ⟨rfl, rfl, rfl⟩ | ⟨w, hnext, rfl⟩
    · refine ⟨⟨none, hset, fun q hq => by cases hq⟩, ?_, fun q s hwrite => ?_⟩
      · simp [keepsSuperseded, writing, hget, next_crash]
      · simp [writing, hget, next_crash] at hwrite
    · have hcareful := next_careful hrows.1 hsound (hcurrent p rfl) hnext
      refine ⟨⟨_, hset, fun q hq => ?_⟩, ?_, fun q s hwrite => ?_⟩
      · split at hq
        · exact Option.some.inj hq ▸ hcareful.current
        · cases hq
      · simp [keepsSuperseded, writing, hget, hnext, hcareful.revives]
      · simp only [writing, hget, hnext, Option.bind_some, Option.map_some, Option.some.injEq,
          Prod.mk.injEq] at hwrite
        exact hcareful.long s hwrite.2
  | env m =>
    obtain ⟨l', henv, rfl⟩ := (program cfg).step_env h
    obtain ⟨old, -, -, rfl⟩ := offloadMove_cases henv
    have hkeep : ∀ q ∈ o, Current { c.store with offloads := c.store.offloads.set m.1 m.2 } q :=
      fun q hq => ⟨(hcurrent q hq).distinct, (hcurrent q hq).active, (hcurrent q hq).saving⟩
    exact ⟨⟨o, hwork, hkeep⟩, rfl, fun p s hwrite => by cases hwrite⟩

/-! ## Spare rows -/

/-- The rows of an active shard but the first one, where its index is in the family. -/
def Shard.spare (family : Nat → Bool) (s : Shard) : List Nat :=
  if family s.index then s.covers.tail else []

def Ledger.spare (family : Nat → Bool) (l : Ledger) : List Nat := l.shards.flatMap (Shard.spare family)

variable {family family' : Nat → Bool}

theorem spare_congr (t t' : Shard) (hindex : t'.index = t.index) (hcovers : t'.covers = t.covers) :
    t'.spare family = t.spare family := by
  rw [Shard.spare, Shard.spare, hindex, hcovers]

theorem replacements_spare (hfirst : family' l.nextIndex = true)
    (hsecond : family' (l.nextIndex + 1) = true) (hlong : 2 ≤ s.input.length) :
    ((l.replacements s).flatMap (Shard.spare family')).length + 2 = s.input.length := by
  simp only [Ledger.replacements, List.flatMap_cons, List.flatMap_nil, Shard.spare, Shard.covers,
    hfirst, hsecond, if_true, reduceCtorEq, if_false, List.append_nil, List.length_append,
    List.length_tail, List.length_take, List.length_drop]
  omega

/-- **A replan** takes one spare row away from the family of its shard, and none from any other. -/
theorem spare_replan (hl : LedgerOk cfg l) (hw : WriteOk cfg l (.replan s))
    (hlong : 2 ≤ s.input.length) (hsame : ∀ t ∈ l.shards, family' t.index = family t.index)
    (hfirst : family' l.nextIndex = family s.index)
    (hsecond : family' (l.nextIndex + 1) = family s.index) :
    ((l.apply cfg (.replan s)).spare family').length + (if family s.index then 1 else 0) =
      (l.spare family).length := by
  obtain ⟨t, ht, hindex, hinput, -⟩ := hw.1.stored
  have hactive : t.covers = s.input := (covers_of_active (hw.2.2 t ht hindex)).trans hinput
  have hdrop := (Table.flatMap_modify_drop (g := Shard.spare family)
    (f := fun t => { t with status := .superseded }) hl.nodup ht (by simp [Shard.spare, Shard.covers])).length_eq
  have hrows : (Table.modify Shard.index t.index (fun t => { t with status := .superseded })
      l.shards).flatMap (Shard.spare family') = (Table.modify Shard.index t.index
        (fun t => { t with status := .superseded }) l.shards).flatMap (Shard.spare family) := by
    refine List.flatMap_congr fun u hu => ?_
    have hfamily : family' u.index = family u.index := by
      rcases Table.mem_modify.mp hu with ⟨v, hv, -, rfl⟩ | ⟨hu, -⟩
      · exact hsame v hv
      · exact hsame u hu
    rw [Shard.spare, Shard.spare, hfamily]
  have hsplit : (l.apply cfg (.replan s)).spare family' =
      (Table.modify Shard.index t.index (fun t => { t with status := .superseded })
        l.shards).flatMap (Shard.spare family) ++
          (l.replacements s).flatMap (Shard.spare family') := by
    rw [← hrows, hindex]
    exact List.flatMap_append
  rw [hsplit, Ledger.spare, hdrop, List.length_append, List.length_append, Shard.spare, hindex, hactive]
  cases hfamily : family s.index with
  | true =>
    have hnew := replacements_spare (l := l) (hfirst.trans hfamily) (hsecond.trans hfamily) hlong
    simp only [if_true, List.length_tail]
    omega
  | false =>
    have hnew : (l.replacements s).flatMap (Shard.spare family') = [] := by
      simp [Ledger.replacements, Shard.spare, hfirst, hsecond, hfamily]
    simp [hnew]

/-! ## Counting replans -/

/-- The indices of a shard and its descendants, and how often they were replanned. -/
structure Tally where
  family : List Nat
  replans : Nat

/-- The replacements of a shard of the family belong to it. -/
def Tally.after (t : Tally) (l : Ledger) : Write → Tally
  | .replan s =>
      if s.index ∈ t.family then ⟨l.nextIndex :: (l.nextIndex + 1) :: t.family, t.replans + 1⟩ else t
  | _ => t

/-- One step, and what it adds to the tally. -/
def TallyStep (cfg : Settings) (x y : Config Ledger Proc × Tally) : Prop :=
  ∃ e, sequential x.1 e = true ∧ (program cfg).step x.1 e = some y.1 ∧
    y.2 = match writing cfg x.1 e with
      | some (_, w) => x.2.after x.1.store w
      | none => x.2

/-- What holds of a run and its tally: as many replans as there are spare rows less. -/
structure Tallied (cfg : Settings) (bound : Nat) (x : Config Ledger Proc × Tally) : Prop where
  rows : (rowsOutline cfg).Holds x.1
  alone : Alone x.1
  stored : ∀ i ∈ x.2.family, ∃ t ∈ x.1.store.shards, t.index = i
  count : x.2.replans + (x.1.store.spare fun i => decide (i ∈ x.2.family)).length ≤ bound

theorem stored_apply {t : Tally} (hl : LedgerOk cfg l) (hw : WriteOk cfg l w)
    (h : ∀ i ∈ t.family, ∃ u ∈ l.shards, u.index = i) :
    ∀ i ∈ (t.after l w).family, ∃ u ∈ (l.apply cfg w).shards, u.index = i := by
  have hold : ∀ i ∈ t.family, ∃ u ∈ (l.apply cfg w).shards, u.index = i := by
    intro i hi
    obtain ⟨u, hu, rfl⟩ := h i hi
    obtain ⟨u', hu', hindex, -⟩ := (apply_ok hl hw).2.shards u hu
    exact ⟨u', hu', hindex⟩
  cases w with
  | replan s =>
    intro i hi
    rw [Tally.after] at hi
    split at hi
    · simp only [List.mem_cons] at hi
      rcases hi with rfl | rfl | hi
      · exact ⟨_, List.mem_append_right _ List.mem_cons_self, rfl⟩
      · exact ⟨_, List.mem_append_right _ (List.mem_cons_of_mem _ List.mem_cons_self), rfl⟩
      · exact hold i hi
    · exact hold i hi
  | _ => exact hold

/-- What is counted of a replan is taken from the spare rows. -/
theorem count_apply {t : Tally} (hl : LedgerOk cfg l) (hw : WriteOk cfg l w)
    (hr : w.revives l = false) (hlong : ∀ s, w = .replan s → 2 ≤ s.input.length)
    (h : ∀ i ∈ t.family, ∃ u ∈ l.shards, u.index = i) :
    (t.after l w).replans +
        ((l.apply cfg w).spare fun i => decide (i ∈ (t.after l w).family)).length =
      t.replans + (l.spare fun i => decide (i ∈ t.family)).length := by
  cases hkeeps : w.keepsShards with
  | true =>
    have hafter : t.after l w = t := by
      cases w <;> first | rfl | cases hkeeps
    rw [hafter, Ledger.spare, flatMap_apply spare_congr hl hw hr hkeeps, ← Ledger.spare]
  | false =>
    cases w with
    | adopt plan =>
      -- before an adoption there is no shard that anyone could descend from
      have hnone : t.family = [] := List.eq_nil_iff_forall_not_mem.mpr fun i hi => by
        obtain ⟨u, hu, -⟩ := h i hi
        rw [hw.1] at hu
        cases hu
      have hempty : ∀ l : Ledger, (l.spare fun i => decide (i ∈ t.family)) = [] := by
        intro l
        simp [Ledger.spare, Shard.spare, hnone]
      rw [show t.after l (.adopt plan) = t from rfl, hempty, hempty]
    | replan s =>
      have hnew : ∀ i ∈ t.family, i < l.nextIndex := by
        intro i hi
        obtain ⟨u, hu, rfl⟩ := h i hi
        exact lt_nextIndex hu
      rw [Tally.after]
      by_cases hs : s.index ∈ t.family
      · have hspare := @spare_replan cfg _ _ (fun i => decide (i ∈ t.family))
          (fun i => decide (i ∈ l.nextIndex :: (l.nextIndex + 1) :: t.family)) hl hw
          (hlong s rfl) (fun u hu => ?_) (by simp [hs]) (by simp [hs])
        · rw [if_pos hs]
          simp only [hs, decide_true, if_true] at hspare
          dsimp only
          omega
        · have hlt := lt_nextIndex hu
          have hne : u.index ≠ l.nextIndex ∧ u.index ≠ l.nextIndex + 1 := by omega
          simp [hne.1, hne.2]
      · have hfirst : l.nextIndex ∉ t.family := fun hi => absurd (hnew _ hi) (lt_irrefl _)
        have hsecond : l.nextIndex + 1 ∉ t.family := fun hi => absurd (hnew _ hi) (by omega)
        have hspare := @spare_replan cfg _ _ (fun i => decide (i ∈ t.family))
          (fun i => decide (i ∈ t.family)) hl hw (hlong s rfl) (fun _ _ => rfl)
          (by simp [hs, hfirst]) (by simp [hs, hsecond])
        rw [if_neg hs]
        simp only [hs, decide_false, Bool.false_eq_true, if_false, Nat.add_zero] at hspare
        rw [hspare]
    | _ => cases hkeeps

theorem tallied_step {bound : Nat} {x y : Config Ledger Proc × Tally} (hx : Tallied cfg bound x)
    (h : TallyStep cfg x y) : Tallied cfg bound y := by
  obtain ⟨e, hC, hstep, htally⟩ := h
  obtain ⟨halone, hkeeps, hlong⟩ := sequential_step hx.rows hx.alone hC hstep
  have hrows := ((rowsOutline cfg).step hx.rows trivial hstep).1
  rcases step_cases hx.rows hstep with ⟨hwrite, hstore⟩ | ⟨p, w, hwrite, -, hw, hstore⟩ |
    ⟨m, rfl, henv⟩
  · rw [hwrite] at htally
    exact ⟨hrows, halone, htally ▸ hstore ▸ hx.stored, htally ▸ hstore ▸ hx.count⟩
  · rw [hwrite] at htally
    have hr : w.revives x.1.store = false := by simpa [keepsSuperseded, hwrite] using hkeeps
    refine ⟨hrows, halone, ?_, ?_⟩
    · rw [htally, hstore]
      exact stored_apply hx.rows.1 hw hx.stored
    · rw [htally, hstore]
      exact (count_apply hx.rows.1 hw hr (fun s hs => hlong p s (hs ▸ hwrite)) hx.stored).trans_le
        hx.count
  · obtain ⟨old, -, -, hstore⟩ := offloadMove_cases henv
    rw [show writing cfg x.1 (.env m) = none from rfl] at htally
    exact ⟨hrows, halone, htally ▸ hstore ▸ hx.stored, htally ▸ hstore ▸ hx.count⟩

/-! ## Every run -/

theorem sequential_holds {c : Config Ledger Proc}
    (h : (program cfg).Reach (fun c e => sequential c e = true) fresh c) :
    (rowsOutline cfg).Holds c ∧ Alone c := by
  refine Program.Reach.invariant (program cfg) (I := fun c => (rowsOutline cfg).Holds c ∧ Alone c)
    ?_ h ⟨fresh_holds cfg, fresh_alone⟩
  intro c e c' ⟨hrows, halone⟩ hC hstep
  exact ⟨((rowsOutline cfg).step hrows trivial hstep).1, (sequential_step hrows halone hC hstep).1⟩

/-- The spare rows of one shard. -/
theorem spare_single (hl : LedgerOk cfg l) (hs : s ∈ l.shards) :
    (l.spare fun i => decide (i ∈ [s.index])).length ≤ s.input.length - 1 := by
  have hdrop := (Table.flatMap_modify_drop (g := Shard.spare fun i => decide (i ∈ [s.index]))
    (f := fun t => { t with status := .superseded }) hl.nodup hs (by simp [Shard.spare, Shard.covers])).length_eq
  have hrest : (Table.modify Shard.index s.index (fun t => { t with status := .superseded })
      l.shards).flatMap (Shard.spare fun i => decide (i ∈ [s.index])) = [] := by
    refine List.flatMap_eq_nil_iff.mpr fun u hu => ?_
    rcases Table.mem_modify.mp hu with ⟨v, -, -, rfl⟩ | ⟨-, hother⟩
    · simp [Shard.spare, Shard.covers]
    · simp [Shard.spare, hother]
  rw [Ledger.spare, hdrop, hrest, List.append_nil, Shard.spare]
  split
  · rw [List.length_tail, Shard.covers]
    split
    · exact Nat.zero_le _
    · exact le_rfl
  · exact Nat.zero_le _

/-- A step that replans a shard. -/
def Replans (cfg : Settings) (c : Config Ledger Proc)
    (e : Event Proc Reply (Nat × Orchestration.Job)) : Prop :=
  ∃ p s, writing cfg c e = some (p, .replan s)

/-- The rows of all active shards but their first ones. -/
def spareRows (c : Config Ledger Proc) : Nat := (c.store.spare fun _ => true).length

/-- **Spare rows** never become more once there are shards, and each replan takes one. -/
theorem spareRows_step {c c' : Config Ledger Proc} {e : Event Proc Reply (Nat × Orchestration.Job)}
    (hrows : (rowsOutline cfg).Holds c) (halone : Alone c) (hne : c.store.shards ≠ [])
    (hC : sequential c e = true) (h : (program cfg).step c e = some c') :
    spareRows c' ≤ spareRows c ∧ (Replans cfg c e → spareRows c' < spareRows c) := by
  obtain ⟨-, hkeeps, hlong⟩ := sequential_step hrows halone hC h
  have hstill : c'.store = c.store → writing cfg c e = none →
      spareRows c' ≤ spareRows c ∧ (Replans cfg c e → spareRows c' < spareRows c) := by
    intro hstore hwrite
    refine ⟨by rw [spareRows, spareRows, hstore], ?_⟩
    rintro ⟨p, s, hreplan⟩
    rw [hwrite] at hreplan
    cases hreplan
  rcases step_cases hrows h with ⟨hwrite, hstore⟩ | ⟨p, w, hwrite, -, hw, hstore⟩ | ⟨m, rfl, henv⟩
  · exact hstill hstore hwrite
  · have hr : w.revives c.store = false := by simpa [keepsSuperseded, hwrite] using hkeeps
    rw [spareRows, spareRows, hstore]
    cases hkeep : w.keepsShards with
    | true =>
      refine ⟨?_, ?_⟩
      · exact (congrArg List.length (flatMap_apply spare_congr hrows.1 hw hr hkeep)).le
      · rintro ⟨q, s, hreplan⟩
        obtain ⟨rfl, rfl⟩ := Prod.mk.inj (Option.some.inj (hwrite.symm.trans hreplan))
        cases hkeep
    | false =>
      cases w with
      | adopt plan => exact absurd hw.1 hne
      | replan s =>
        have hspare := @spare_replan _ _ _ (fun _ => true) (fun _ => true) hrows.1 hw
          (hlong p s hwrite) (fun _ _ => rfl) rfl rfl
        rw [if_pos rfl] at hspare
        exact ⟨by omega, fun _ => by omega⟩
      | _ => cases hkeep
  · obtain ⟨old, -, -, hstore⟩ := offloadMove_cases henv
    refine ⟨by rw [spareRows, spareRows, hstore]; rfl, ?_⟩
    rintro ⟨p, s, hreplan⟩
    cases hreplan

/-- What is left of a shard that was split. -/
def Splits (l : Ledger) (s : Shard) (created : List Shard) : Prop :=
  ∃ a b, created = [a, b] ∧ a.input ≠ [] ∧ b.input ≠ [] ∧ a.input.length < s.input.length ∧
    b.input.length < s.input.length ∧ a.input ++ b.input = s.input ∧ a.index ≠ b.index ∧
      ∀ t ∈ l.shards, t.index < a.index ∧ t.index < b.index

theorem replacements_split (hlong : 2 ≤ s.input.length) : Splits l s (l.replacements s) := by
  refine ⟨_, _, rfl, ?_, ?_, ?_, ?_, List.take_append_drop _ _, Nat.ne_of_lt (Nat.lt_succ_self _),
    fun t ht => ⟨lt_nextIndex ht, Nat.lt_succ_of_lt (lt_nextIndex ht)⟩⟩
  · refine List.ne_nil_of_length_pos ?_
    rw [List.length_take]
    omega
  · refine List.ne_nil_of_length_pos ?_
    rw [List.length_drop]
    omega
  · rw [List.length_take]
    omega
  · rw [List.length_drop]
    omega

theorem writeReplacements_noFaults (c : Planning Nat) (a : Attempt Nat) (created : List Shard) :
    (writeReplacements c noReplanFaults a created).2 = none := by
  induction created generalizing a with
  | nil => rfl
  | cons s rest ih => exact ih _

theorem shard?_of_mem (hl : LedgerOk cfg l) (hs : s ∈ l.shards) : l.shard? s.index = some s := by
  have hsome : (l.shard? s.index).isSome = true :=
    List.find?_isSome.mpr ⟨s, hs, beq_self_eq_true _⟩
  obtain ⟨t, ht⟩ := Option.isSome_iff_exists.mp hsome
  rw [ht, Table.eq_of_key hl.nodup (List.mem_of_find?_eq_some ht) hs
    (by simpa using List.find?_some ht)]

/-- **Refused** is, when nothing goes wrong, a shard of fewer than two rows. -/
theorem replanShard_refused_iff (hl : LedgerOk cfg l) (hs : s ∈ l.shards) (planning : Planning Nat)
    (objects : Objects (List Nat)) :
    (replanShard planning cfg noReplanFaults l s objects).1.isOk = false ↔ s.input.length < 2 := by
  by_cases hlong : s.input.length < 2
  · have hrefusal : replanRefusal noReplanFaults s =
        some (.planning "a one-row shard cannot be split further") := if_pos hlong
    refine iff_of_true ?_ hlong
    rw [replanShard, hrefusal]
    rfl
  · have hrefusal : replanRefusal noReplanFaults s = none := if_neg hlong
    refine iff_of_false ?_ hlong
    have hattempt : (replanAttempt planning cfg noReplanFaults l s objects).2.isOk = true := by
      have hwritten := writeReplacements_noFaults planning ⟨[], objects⟩ (l.replacements s)
      unfold replanAttempt
      rw [shard?_of_mem hl hs]
      dsimp only [noReplanFaults]
      split
      · rfl
      · split
        · rename_i heq
          rw [show writeReplacements planning noReplanFaults ⟨[], objects⟩ (l.replacements s) = _ from heq]
            at hwritten
          cases hwritten
        · rfl
    rw [replanShard, hrefusal]
    dsimp only
    split
    · exact Bool.noConfusion
    · rename_i heq
      rw [heq] at hattempt
      cases hattempt

/-- **Replanning terminates.**  While one task is at work at a time, a replan that succeeds splits its
    shard into two shorter ones under new indices, it is refused below two rows, a shard with n rows
    is replanned at most n - 1 times together with its descendants, and there is a last replan. -/
theorem replanning_terminates (cfg : Settings) {c : Config Ledger Proc} {s : Shard}
    (h : (program cfg).Reach (fun c e => sequential c e = true) fresh c)
    (hs : s ∈ c.store.shards) :
    (∀ planning f objects created l' objects',
      replanShard planning cfg f c.store s objects = (.ok created, l', objects') →
        s.status = .superseded ∧ created = [] ∨ Splits c.store s created) ∧
    (∀ planning objects,
      (replanShard planning cfg noReplanFaults c.store s objects).1.isOk = false ↔
        s.input.length < 2) ∧
    (∀ y, Relation.ReflTransGen (TallyStep cfg) (c, ⟨[s.index], 0⟩) y →
      y.2.replans ≤ s.input.length - 1) ∧
    ∀ (run : Nat → Config Ledger Proc) (events : Nat → Event Proc Reply (Nat × Orchestration.Job)),
      run 0 = c →
        (∀ k, sequential (run k) (events k) = true ∧
          (program cfg).step (run k) (events k) = some (run (k + 1))) →
            ∃ last, ∀ k, last ≤ k → ¬ Replans cfg (run k) (events k) := by
  obtain ⟨hrows, halone⟩ := sequential_holds h
  refine ⟨fun planning f objects created l' objects' hok => ?_,
    replanShard_refused_iff hrows.1 hs, fun y hy => ?_, fun run events hstart hrun => ?_⟩
  · obtain ⟨hlong, locked, hlocked, hcases⟩ := replanShard_ok hok
    rw [shard?_of_mem hrows.1 hs] at hlocked
    obtain rfl := Option.some.inj hlocked
    rcases hcases with ⟨hsup, -, rfl⟩ | ⟨-, -, rfl⟩
    · exact .inl ⟨hsup, rfl⟩
    · exact .inr (replacements_split (Nat.le_of_not_lt hlong))
  · have hbegin : Tallied cfg (s.input.length - 1) (c, ⟨[s.index], 0⟩) := by
      refine ⟨hrows, halone, fun i hi => ⟨s, hs, (List.mem_singleton.mp hi).symm⟩, ?_⟩
      exact (Nat.zero_add _).trans_le (spare_single hrows.1 hs)
    have hend : Tallied cfg (s.input.length - 1) y := by
      induction hy with
      | refl => exact hbegin
      | tail _ hstep ih => exact tallied_step ih hstep
    exact (Nat.le_add_right _ _).trans hend.count
  · have hholds : ∀ k, (rowsOutline cfg).Holds (run k) ∧ Alone (run k) ∧ (run k).store.shards ≠ [] := by
      intro k
      induction k with
      | zero => exact hstart ▸ ⟨hrows, halone, List.ne_nil_of_mem hs⟩
      | succ k ih =>
        obtain ⟨hrowsk, halonek, hnek⟩ := ih
        obtain ⟨hC, hstep⟩ := hrun k
        obtain ⟨hrows', hgrows⟩ := (rowsOutline cfg).step hrowsk trivial hstep
        refine ⟨hrows', (sequential_step hrowsk halonek hC hstep).1, ?_⟩
        rcases hgrows with hgrows | hsame
        · obtain ⟨t, ht⟩ := List.exists_mem_of_ne_nil _ hnek
          obtain ⟨t', ht', -⟩ := hgrows.shards t ht
          exact List.ne_nil_of_mem ht'
        · exact hsame ▸ hnek
    have hstep : ∀ k, spareRows (run (k + 1)) ≤ spareRows (run k) ∧
        (Replans cfg (run k) (events k) → spareRows (run (k + 1)) < spareRows (run k)) := fun k =>
      spareRows_step (hholds k).1 (hholds k).2.1 (hholds k).2.2 (hrun k).1 (hrun k).2
    have hanti : Antitone fun k => spareRows (run k) := antitone_nat_of_succ_le fun k => (hstep k).1
    -- where the spare rows are fewest, no replan can follow
    obtain ⟨-, ⟨last, rfl⟩, hmin⟩ := wellFounded_lt.has_min (Set.range fun k => spareRows (run k))
      ⟨_, 0, rfl⟩
    refine ⟨last, fun k hk hreplan => hmin _ ⟨k + 1, rfl⟩ ?_⟩
    exact ((hstep k).2 hreplan).trans_le (hanti hk)

/-! ## Small runs -/

/-- The adopted shard of two rows is replanned at most once. -/
theorem replanning_terminates_adopted : ∃ c : Config Ledger Proc,
    (program toySettings).run fresh adopted = some c ∧
      ∀ y, Relation.ReflTransGen (TallyStep toySettings) (c, ⟨[0], 0⟩) y → y.2.replans ≤ 1 := by
  refine ⟨_, rfl, ?_⟩
  exact (replanning_terminates toySettings
    (s := { index := 0, input := [0, 1], orchestrationJob := some 0 })
    (Program.runWhen_reach _ adopted rfl) (by decide)).2.2.1

/-- No row, in one shard. -/
def emptyPlan : Plan := ⟨0, [[]], by decide, by decide⟩

/-- The empty plan is adopted. -/
def emptied : List (Event Proc Reply (Nat × Orchestration.Job)) :=
  [.spawn .submit, .act 0 .ok, .act 0 .ok, .act 0 (.planned emptyPlan), .act 0 .ok]

/-- Not only one row is refused: its shard has none. -/
theorem replanning_refuses_empty : ¬ ∀ (cfg : Settings) (c : Config Ledger Proc) (s : Shard),
    (program cfg).Reach (fun c e => sequential c e = true) fresh c → s ∈ c.store.shards →
      ∀ planning objects, (replanShard planning cfg noReplanFaults c.store s objects).1.isOk = false ↔
        s.input.length = 1 := by
  intro hlaw
  have hempty := hlaw toySettings _ { index := 0, input := [], orchestrationJob := some 0 }
    (Program.runWhen_reach _ emptied rfl) (by decide) toyPlanning []
  exact absurd (hempty.mp rfl) (by decide)

end ControlPlane.Extraction
