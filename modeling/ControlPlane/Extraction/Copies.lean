/-
  THE COPIES a process holds, at every one of its program points.

  `Sound` says that every shard copy in a process's local variables is genuine, that every offload
  job it is about to dispatch is linked to a shard, and that it is ready for its next write.  It is
  stable under `Grows`, so no process can break it for another: `rowsOutline` is an outline of the
  whole program, and it holds in every run (`rows_hold`).  The protocols in this directory add their
  own conditions to it.
-/
import ControlPlane.Extraction.Rows

namespace ControlPlane.Extraction

open ControlPlane.Interleave

variable {cfg : Settings} {l l' : Ledger} {p p' : Proc} {r : Reply} {w : Write} {s t : Shard}

/-! ## One assertion for every program point -/

/-- The shard copies in the local variables. -/
def Proc.copies : Proc → List Shard
  | .visit todo _ | .refuseOffload _ _ todo _ => todo
  | .saveSync s todo _ | .replan s todo _ | .refuse s _ todo _ => s :: todo
  | .create created todo _ => created ++ todo
  | .link s _ created todo _ => s :: (created ++ todo)
  | .fold done todo | .cancelLoop done todo => done ++ todo
  | .saveFold s done todo | .cancelSave s done todo => s :: (done ++ todo)
  | _ => []

/-- The offload jobs it is going to dispatch. -/
def Proc.tickets : Proc → List Nat
  | .dispatch _ todo => todo
  | .saveTaskId _ o _ todo => o :: todo
  | .visit _ new | .saveSync _ _ new | .replan _ _ new | .create _ _ new | .link _ _ _ _ new
  | .refuse _ _ _ new | .refuseOffload _ _ _ new => new
  | _ => []

/-- What it must know for its next write, beyond its copies being genuine. -/
def Proc.Ready (cfg : Settings) (l : Ledger) : Proc → Prop
  | .saveSync s _ _ => s.orchestrationJob ≠ none ∧ s.status ≠ .superseded
  | .fold done todo => ∀ t ∈ done ++ todo, t.status ≠ .superseded
  | .saveFold s done todo => (s.orchestrationJob ≠ none ∧ s.status ≠ .superseded) ∧
      ∀ t ∈ done ++ todo, t.status ≠ .superseded
  | .replan s _ _ => s.status = .failed
  | .link s o _ _ _ => Executes cfg l s o
  | .cancelSave s _ _ => s.orchestrationJob ≠ none
  | _ => True

structure Sound (cfg : Settings) (l : Ledger) (p : Proc) : Prop where
  copies : ∀ s ∈ p.copies, Genuine cfg l s
  tickets : ∀ o ∈ p.tickets, Linked l o
  ready : p.Ready cfg l

theorem Proc.Ready.grow (hg : Grows l l') (h : p.Ready cfg l) : p.Ready cfg l' := by
  cases p <;> first
    | exact h
    | exact Executes.grow hg h

theorem Sound.grow (hg : Grows l l') (h : Sound cfg l p) : Sound cfg l' p :=
  ⟨fun s hs => (h.copies s hs).grow hg, fun o ho => (h.tickets o ho).grow hg, h.ready.grow hg⟩

/-- A process that only forgets copies and tickets stays sound. -/
theorem Sound.move (h : Sound cfg l p) (hcopies : p'.copies ⊆ p.copies)
    (htickets : p'.tickets ⊆ p.tickets) (hready : p'.Ready cfg l) : Sound cfg l p' :=
  ⟨fun s hs => h.copies s (hcopies hs), fun o ho => h.tickets o (htickets ho), hready⟩

/-- A program point that holds nothing. -/
theorem Sound.idle (hcopies : p.copies = []) (htickets : p.tickets = [])
    (hready : p.Ready cfg l) : Sound cfg l p :=
  ⟨by simp [hcopies], by simp [htickets], hready⟩

theorem sound_start (h : p.starts = true) : Sound cfg l p := by
  cases p <;> first
    | exact Sound.idle rfl rfl trivial
    | cases h

/-- A failed shard has an offload job. -/
theorem Genuine.linked_of_failed (hs : Genuine cfg l s) (hfailed : s.status = .failed) :
    s.orchestrationJob ≠ none := fun hnone => by
  have hqueued := hs.row.queued hnone
  rw [hfailed] at hqueued
  cases hqueued

/-! ## The steps -/

/-- What a step owes: it may make its write, and after it the process is sound again. -/
def StepOk (cfg : Settings) (l : Ledger) (w : Write) (p' : Proc) : Prop :=
  WriteOk cfg l w ∧ Sound cfg (l.apply cfg w) p'

/-- A step that writes nothing. -/
theorem StepOk.read (h : Sound cfg l p') : StepOk cfg l .nothing p' := ⟨trivial, h⟩

/-- A step after whose write the process holds no more than before. -/
theorem StepOk.write (hl : LedgerOk cfg l) (hw : WriteOk cfg l w) (h : Sound cfg l p)
    (hcopies : p'.copies ⊆ p.copies) (htickets : p'.tickets ⊆ p.tickets)
    (hready : p'.Ready cfg (l.apply cfg w)) : StepOk cfg l w p' :=
  ⟨hw, (h.grow (apply_ok hl hw).2).move hcopies htickets hready⟩

theorem submit_sound (hl : LedgerOk cfg l) (hp : Sound cfg l p)
    (h : submitStep cfg l p r = some (w, p')) : StepOk cfg l w p' := by
  unfold submitStep at h
  split at h
  · cases h
    refine StepOk.read ?_
    split <;> exact Sound.idle rfl rfl trivial
  · cases h
    refine StepOk.read ?_
    split <;> exact Sound.idle rfl rfl trivial
  · cases h
    exact StepOk.read (Sound.idle rfl rfl trivial)
  · cases h
    exact StepOk.read (Sound.idle rfl rfl trivial)
  · cases h
    refine ⟨?_, Sound.idle rfl rfl trivial⟩
    split <;> trivial
  · -- the adoption
    rename_i plan
    simp only at h
    split at h
    · cases h
      exact StepOk.read (Sound.idle rfl rfl trivial)
    · rename_i hguard
      split at h
      · cases h
      · rename_i hnew
        cases h
        refine ⟨⟨by_contra fun hne => hguard (Or.inr hne), by simpa using hnew⟩,
          ⟨fun _ hs => absurd hs List.not_mem_nil, fun o ho => ?_, trivial⟩⟩
        -- every offload job to dispatch is one of the new shards' own
        exact List.mem_filterMap.mp ho
  · rename_i caller
    cases h
    refine StepOk.read ?_
    cases caller <;> exact Sound.idle rfl rfl trivial
  · cases h
    exact StepOk.write hl (hp.tickets _ (List.mem_cons_self ..)) hp (fun _ h => h) (fun _ h => h)
      trivial
  · cases h
    exact StepOk.write hl trivial hp (fun _ h => h) (fun _ h => List.mem_cons_of_mem _ h) trivial
  · cases h

/-- `visited` holds what the loop held. -/
theorem visited_sound {todo : List Shard} {new : List Nat}
    (hs : Genuine cfg l s) (htodo : ∀ t ∈ todo, Genuine cfg l t) (hnew : ∀ o ∈ new, Linked l o) :
    Sound cfg l (visited s todo new) := by
  unfold visited
  split
  · rename_i hfailed
    refine ⟨fun t ht => ?_, hnew, hfailed.1⟩
    rcases List.mem_cons.mp ht with rfl | ht
    · exact hs
    · exact htodo t ht
  · exact ⟨htodo, hnew, trivial⟩

theorem reconcile_sound (hl : LedgerOk cfg l) (hp : Sound cfg l p)
    (h : reconcileStep cfg l p r = some (w, p')) : StepOk cfg l w p' := by
  unfold reconcileStep at h
  split at h
  · cases h
    refine StepOk.read ?_
    split <;> exact Sound.idle rfl rfl trivial
  · -- the list of shards, straight from the table
    cases h
    exact StepOk.read ⟨fun t ht => hl.genuine ht, fun _ ho => absurd ho List.not_mem_nil, trivial⟩
  · cases h
    exact StepOk.read ⟨fun _ hs => absurd hs List.not_mem_nil, hp.tickets, trivial⟩
  · -- one shard of the first loop
    rename_i s todo new
    have hs : Genuine cfg l s := hp.copies s (List.mem_cons_self ..)
    have htodo : ∀ t ∈ todo, Genuine cfg l t := fun t ht => hp.copies t (List.mem_cons_of_mem _ ht)
    split at h
    · cases h
      exact StepOk.read ⟨htodo, hp.tickets, trivial⟩
    · split at h
      · cases h
        exact StepOk.read (visited_sound hs htodo hp.tickets)
      · rename_i o hjob
        obtain ⟨row, -, heq⟩ := Option.map_eq_some_iff.mp h
        cases heq
        have hlink : s.orchestrationJob ≠ none := by simp [hjob]
        refine StepOk.read ?_
        split
        · exact visited_sound hs htodo hp.tickets
        · refine ⟨fun t ht => ?_, hp.tickets, hlink, sync_not_superseded row⟩
          rcases List.mem_cons.mp ht with rfl | ht
          · exact hs.sync hlink row
          · exact htodo t ht
  · -- the full save of the synced copy
    rename_i s todo new
    cases h
    have hw : WriteOk cfg l (.saveShard s) :=
      ⟨hp.copies s (List.mem_cons_self ..), hp.ready.1, hp.ready.2⟩
    have hg := (apply_ok hl hw).2
    exact ⟨hw, visited_sound ((hp.copies s (List.mem_cons_self ..)).grow hg)
      (fun t ht => (hp.copies t (List.mem_cons_of_mem _ ht)).grow hg)
      (fun o ho => (hp.tickets o ho).grow hg)⟩
  · cases h
    exact StepOk.read ⟨hp.copies, hp.tickets, trivial⟩
  · -- the transaction of `replan_shard`
    rename_i s todo new
    have hs : Genuine cfg l s := hp.copies s (List.mem_cons_self ..)
    split at h
    · cases h
      exact StepOk.read ⟨hp.copies, hp.tickets, trivial⟩
    · obtain ⟨locked, hlocked, heq⟩ := Option.map_eq_some_iff.mp h
      split at heq
      · cases heq
        exact StepOk.read
          ⟨fun t ht => hp.copies t (List.mem_cons_of_mem _ ht), hp.tickets, trivial⟩
      · rename_i hactive
        cases heq
        have hw : WriteOk cfg l (.replan s) := by
          refine ⟨hs, hs.linked_of_failed hp.ready, fun t ht hindex => ?_⟩
          have hmem := List.mem_of_find?_eq_some hlocked
          have hkey : locked.index = s.index := by simpa using List.find?_some hlocked
          rwa [Table.eq_of_key hl.nodup ht hmem (hindex.trans hkey.symm)]
        obtain ⟨hl', hg⟩ := apply_ok hl hw
        refine ⟨hw, fun t ht => ?_, fun o ho => (hp.tickets o ho).grow hg, trivial⟩
        rcases List.mem_append.mp ht with ht | ht
        · exact hl'.genuine (List.mem_append_right _ ht)
        · exact (hp.copies t (List.mem_cons_of_mem _ ht)).grow hg
  · cases h
    exact StepOk.read ⟨hp.copies, hp.tickets, trivial⟩
  · -- the insertion of an offload job
    rename_i s created todo new
    split at h
    · cases h
    · rename_i hnew
      cases h
      have hw : WriteOk cfg l (.createOffload s) := Bool.eq_false_iff.mpr hnew
      exact StepOk.write hl hw hp (fun _ h => h) (fun _ h => h) (executes_created cfg l s)
  · -- the save of the link; the new offload job may now be dispatched
    rename_i s o created todo new
    cases h
    have hs : Genuine cfg l s := hp.copies s (List.mem_cons_self ..)
    have hw : WriteOk cfg l (.saveShardOffload s.index o) := ⟨s, hs, rfl, hp.ready⟩
    have hg := (apply_ok hl hw).2
    refine ⟨hw, fun t ht => (hp.copies t (List.mem_cons_of_mem _ ht)).grow hg, fun o' ho' => ?_,
      trivial⟩
    rcases List.mem_append.mp ho' with ho' | ho'
    · exact (hp.tickets o' ho').grow hg
    · obtain rfl : o' = o := List.mem_singleton.mp ho'
      obtain ⟨t, ht, hindex, -⟩ := hs.stored
      exact ⟨_, Table.mem_modify_of_mem ht, by rw [if_pos hindex]⟩
  · -- a refusal is recorded on the shard
    rename_i s message todo new
    cases h
    refine StepOk.write hl trivial hp ?_ ?_ ?_
    · split <;> exact fun _ h => List.mem_cons_of_mem _ h
    · split <;> exact fun _ h => h
    · split <;> trivial
  · cases h
    exact StepOk.write hl trivial hp (fun _ h => h) (fun _ h => h) trivial
  · -- the list of active shards
    cases h
    exact StepOk.read ⟨fun t ht => hl.genuine (List.mem_of_mem_filter ht),
      fun _ ho => absurd ho List.not_mem_nil,
      fun t ht => by simpa using (List.mem_filter.mp ht).2⟩
  · -- one shard of the second loop
    rename_i done s todo
    have hmem : ∀ t, t ∈ done ++ [s] ++ todo → t ∈ done ++ s :: todo := by simp
    have hrest : ∀ t, t ∈ done ++ todo → t ∈ done ++ s :: todo := by
      intro t ht
      rcases List.mem_append.mp ht with ht | ht
      · exact List.mem_append_left _ ht
      · exact List.mem_append_right _ (List.mem_cons_of_mem _ ht)
    split at h
    · cases h
      exact StepOk.read (hp.move (hmem ·) (fun _ h => h) fun t ht => hp.ready t (hmem t ht))
    · rename_i o hjob
      obtain ⟨row, -, heq⟩ := Option.map_eq_some_iff.mp h
      cases heq
      have hlink : s.orchestrationJob ≠ none := by simp [hjob]
      refine StepOk.read ?_
      split
      · exact hp.move (hmem ·) (fun _ h => h) fun t ht => hp.ready t (hmem t ht)
      · refine ⟨fun t ht => ?_, hp.tickets, ⟨hlink, sync_not_superseded row⟩,
          fun t ht => hp.ready t (hrest t ht)⟩
        rcases List.mem_cons.mp ht with rfl | ht
        · exact (hp.copies s (by simp [Proc.copies])).sync hlink row
        · exact hp.copies t (hrest t ht)
  · rename_i s done todo
    cases h
    have hmem : ∀ t, t ∈ done ++ [s] ++ todo → t = s ∨ t ∈ done ++ todo := by
      simp [or_left_comm]
    refine StepOk.write hl ⟨hp.copies s (List.mem_cons_self ..), hp.ready.1⟩ hp ?_ (fun _ h => h) ?_
    · exact fun t ht => List.mem_cons.mpr (hmem t ht)
    · intro t ht
      rcases hmem t ht with rfl | ht
      · exact hp.ready.1.2
      · exact hp.ready.2 t ht
  · cases h
    exact StepOk.write hl trivial hp (fun _ h => absurd h List.not_mem_nil) (fun _ h => h) trivial
  · cases h
    refine StepOk.read ?_
    split <;> exact Sound.idle rfl rfl trivial
  · cases h

theorem cancel_sound (hl : LedgerOk cfg l) (hp : Sound cfg l p)
    (h : cancelStep l p r = some (w, p')) : StepOk cfg l w p' := by
  unfold cancelStep at h
  split at h
  · cases h
    refine StepOk.read ?_
    split <;> exact Sound.idle rfl rfl trivial
  · cases h
    exact StepOk.read ⟨fun t ht => hl.genuine ht, fun _ ho => absurd ho List.not_mem_nil, trivial⟩
  · -- one shard of the loop
    rename_i done s todo
    have hmem : ∀ t, t ∈ done ++ [s] ++ todo → t ∈ done ++ s :: todo := by simp
    obtain ⟨hw, hp'⟩ := Prod.mk.inj (Option.some.inj h)
    split at h
    · cases h
      exact StepOk.read (hp.move (hmem ·) (fun _ h => h) trivial)
    · rename_i o hjob
      split at h
      · cases h
        exact StepOk.read (hp.move (hmem ·) (fun _ h => h) trivial)
      · cases h
        refine StepOk.write hl trivial hp ?_ (fun _ h => h) (by simp [Proc.Ready, hjob])
        intro t ht
        simpa [Proc.copies, or_left_comm] using ht
  · rename_i s done todo
    cases h
    refine StepOk.write hl
      ⟨nofun, s, hp.copies s (List.mem_cons_self ..), rfl, hp.ready⟩ hp ?_ (fun _ h => h) trivial
    intro t ht
    simpa [Proc.copies, or_left_comm] using ht
  · cases h
    exact StepOk.write hl trivial hp (fun _ h => absurd h List.not_mem_nil) (fun _ h => h) trivial
  · cases h
    exact StepOk.write hl trivial hp (fun _ h => h) (fun _ h => h) trivial
  · cases h

theorem next_sound (hl : LedgerOk cfg l) (hp : Sound cfg l p)
    (h : next cfg l p r = some (w, p')) : StepOk cfg l w p' := by
  rcases next_cases h with h | h | h
  · exact submit_sound hl hp h
  · exact reconcile_sound hl hp h
  · exact cancel_sound hl hp h

/-! ## The outline -/

/-- The tables are kept and the copies stay genuine, whatever the processes do. -/
def rowsOutline (cfg : Settings) : Outline (program cfg) Program.Any where
  inv := LedgerOk cfg
  asserts := Sound cfg
  grows := Grows
  stable := Sound.grow
  start _ := sound_start
  act := by
    intro s i c p l' p' hl hp _ _ hact
    rcases act_cases hact with ⟨-, rfl, rfl⟩ | ⟨w, hnext, rfl⟩
    · exact ⟨hl, Grows.refl _, Sound.idle rfl rfl trivial⟩
    · obtain ⟨hw, hp'⟩ := next_sound hl hp hnext
      obtain ⟨hl', hg⟩ := apply_ok hl hw
      exact ⟨hl', hg, hp'⟩
  env hl _ henv := offloadMove_ok hl henv

theorem fresh_holds (cfg : Settings) : (rowsOutline cfg).Holds fresh :=
  ⟨⟨List.Pairwise.nil, List.nodup_nil, fun _ h => absurd h List.not_mem_nil,
    fun _ h => absurd h List.not_mem_nil⟩, fun _ h => absurd h List.not_mem_nil⟩

/-- **Copies are genuine** in every run. -/
theorem rows_hold {C : Config Ledger Proc → Event Proc Reply (Nat × Orchestration.Job) → Prop}
    {s : Config Ledger Proc} (h : (program cfg).Reach C fresh s) : (rowsOutline cfg).Holds s :=
  (rowsOutline cfg).reach (Program.Reach.mono (program cfg) (fun _ _ _ => trivial) h)
    (fresh_holds cfg)

/-- What one step does to the store: nothing, a permitted write of a sound process, or a move of an
    offload row. -/
theorem step_cases {c c' : Config Ledger Proc} {e : Event Proc Reply (Nat × Orchestration.Job)}
    (hc : (rowsOutline cfg).Holds c) (h : (program cfg).step c e = some c') :
    (writing cfg c e = none ∧ c'.store = c.store) ∨
      (∃ p w, writing cfg c e = some (p, w) ∧ Sound cfg c.store p ∧ WriteOk cfg c.store w ∧
        c'.store = c.store.apply cfg w) ∨
      ∃ m, e = .env m ∧ offloadMove c.store m = some c'.store := by
  cases e with
  | spawn p =>
    obtain ⟨-, rfl⟩ := (program cfg).step_spawn h
    exact Or.inl ⟨rfl, rfl⟩
  | act i r =>
    obtain ⟨p, l', p', hget, hact, rfl⟩ := (program cfg).step_act h
    rcases act_cases hact with ⟨rfl, rfl, -⟩ | ⟨w, hnext, rfl⟩
    · exact Or.inl ⟨by simp [writing, hget, next_crash], rfl⟩
    · have hp : Sound cfg c.store p := hc.2 p (List.mem_of_getElem? hget)
      exact Or.inr (Or.inl ⟨p, w, by simp [writing, hget, hnext], hp,
        (next_sound hc.1 hp hnext).1, rfl⟩)
  | env m =>
    obtain ⟨l', henv, rfl⟩ := (program cfg).step_env h
    exact Or.inr (Or.inr ⟨m, rfl, henv⟩)

end ControlPlane.Extraction
