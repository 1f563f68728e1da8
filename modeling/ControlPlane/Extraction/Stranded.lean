/-
  STRANDED SHARDS: rows whose offload job was never created, or never dispatched.

  Rows, offload jobs and dispatches are made in three steps, and only the task that makes the first
  two knows what is left to do: a redelivered `submit_extraction` finds the shards and reconciles, and
  `reconcile_extraction` dispatches the replacements it created itself.  So a task that dies in
  between leaves shards that no later task ever picks up (`shard_stranded`).

  What a task still OWES is read off its program point.  In every run in which no task dies owing
  something, every shard is dispatched or owed by a task that is at work (`no_shard_stranded`).
-/
import ControlPlane.Extraction.Copies

namespace ControlPlane.Extraction

open ControlPlane.Interleave

variable {cfg : Settings} {l l' : Ledger} {p p' : Proc} {r : Reply} {w : Write} {s t : Shard}

/-! ## What a task owes -/

/-- The offload jobs that the task has created, or was handed, and has not dispatched. -/
def Proc.undispatched : Proc → List Nat
  | .dispatch _ todo | .saveTaskId _ _ _ todo => todo
  | .visit _ new | .saveSync _ _ new | .replan _ _ new | .create _ _ new | .link _ _ _ _ new
  | .refuse _ _ _ new | .refuseOffload _ _ _ new => new
  | _ => []

/-- The shards that the task has created and not linked to an offload job. -/
def Proc.unlinked : Proc → List Nat
  | .create created _ _ => created.map Shard.index
  | .link s _ created _ _ => s.index :: created.map Shard.index
  | _ => []

def Proc.Owes (p : Proc) (t : Shard) : Prop :=
  (∃ o, t.orchestrationJob = some o ∧ o ∈ p.undispatched) ∨ t.index ∈ p.unlinked

def Ledger.Dispatched (l : Ledger) (t : Shard) : Prop :=
  ∃ o, t.orchestrationJob = some o ∧ o ∈ l.dispatches

/-- The condition on a step: a task dies only when it owes nothing. -/
def diesSettled (c : Config Ledger Proc) : Event Proc Reply (Nat × Orchestration.Job) → Bool
  | .act i .crash => (c.procs[i]?).all fun p => p.undispatched.isEmpty && p.unlinked.isEmpty
  | _ => true

theorem not_owes (hundispatched : p.undispatched = []) (hunlinked : p.unlinked = []) :
    ¬ p.Owes t := by
  rintro (⟨o, -, ho⟩ | hindex)
  · rw [hundispatched] at ho
    cases ho
  · rw [hunlinked] at hindex
    cases hindex

theorem not_owes_of_ended (h : p.ended = true) : ¬ p.Owes t := by
  have hp : p = .returned ∨ p = .crashed := by
    cases p <;> simp_all [Proc.ended]
  rcases hp with rfl | rfl <;> exact not_owes rfl rfl

/-! ## How a debt is passed on -/

/-- What a step does to the debts of its task. -/
structure Passes (l : Ledger) (p : Proc) (w : Write) (p' : Proc) : Prop where
  undispatched : ∀ o ∈ p.undispatched, o ∈ p'.undispatched ∨ w = .delayDispatch o
  unlinked : ∀ index ∈ p.unlinked, index ∈ p'.unlinked ∨ ∃ o, w = .saveShardOffload index o
  linked : ∀ index o, w = .saveShardOffload index o → o ∈ p'.undispatched
  replanned : ∀ s, w = .replan s → ∀ t ∈ l.replacements s, t.index ∈ p'.unlinked
  adopted : ∀ plan, w = .adopt plan → ∀ t ∈ plannedShards l.offloads.length plan, ∀ o,
    t.orchestrationJob = some o → o ∈ p'.undispatched

/-- A step that writes no debt and passes all of them on. -/
theorem Passes.keep (hundispatched : ∀ o ∈ p.undispatched, o ∈ p'.undispatched ∨ w = .delayDispatch o)
    (hunlinked : p.unlinked = [])
    (hw : (∀ index o, w ≠ .saveShardOffload index o) ∧ (∀ s, w ≠ .replan s) ∧ ∀ plan, w ≠ .adopt plan) :
    Passes l p w p' where
  undispatched := hundispatched
  unlinked _ h := absurd (hunlinked ▸ h) List.not_mem_nil
  linked index o h := absurd h (hw.1 index o)
  replanned s h := absurd h (hw.2.1 s)
  adopted plan h := absurd h (hw.2.2 plan)

theorem mem_visited_undispatched {todo : List Shard} {new : List Nat} {o : Nat} (ho : o ∈ new) :
    o ∈ (visited s todo new).undispatched := by
  unfold visited
  split <;> exact ho

theorem submit_passes (h : submitStep cfg l p r = some (w, p')) : Passes l p w p' := by
  unfold submitStep at h
  split at h
  · cases h
    exact .keep (fun _ h => absurd h List.not_mem_nil) rfl (by simp)
  · cases h
    exact .keep (fun _ h => absurd h List.not_mem_nil) rfl (by simp)
  · cases h
    exact .keep (fun _ h => absurd h List.not_mem_nil) rfl (by simp)
  · cases h
    exact .keep (fun _ h => absurd h List.not_mem_nil) rfl (by simp)
  · cases h
    refine .keep (fun _ h => absurd h List.not_mem_nil) rfl ?_
    split <;> simp
  · -- the adoption: every shard is created with its offload job, and owed
    rename_i plan
    dsimp only at h
    split at h
    · cases h
      exact .keep (fun _ h => absurd h List.not_mem_nil) rfl (by simp)
    · split at h
      · cases h
      · cases h
        refine ⟨fun _ h => absurd h List.not_mem_nil, fun _ h => absurd h List.not_mem_nil,
          fun _ _ h => (nomatch h), fun _ h => (nomatch h), ?_⟩
        rintro _ heq t ht o ho
        cases heq
        exact List.mem_filterMap.mpr ⟨t, ht, ho⟩
  · cases h
    exact .keep (fun _ h => absurd h List.not_mem_nil) rfl (by simp)
  · rename_i caller offload todo id
    cases h
    refine .keep (fun o ho => ?_) rfl (by simp)
    rcases List.mem_cons.mp ho with rfl | ho
    · exact Or.inr rfl
    · exact Or.inl ho
  · cases h
    exact .keep (fun _ h => Or.inl h) rfl (by simp)
  · cases h

theorem reconcile_passes (h : reconcileStep cfg l p r = some (w, p')) : Passes l p w p' := by
  unfold reconcileStep at h
  split at h
  · cases h
    exact .keep (fun _ h => absurd h List.not_mem_nil) rfl (by simp)
  · cases h
    exact .keep (fun _ h => absurd h List.not_mem_nil) rfl (by simp)
  · cases h
    exact .keep (fun _ h => Or.inl h) rfl (by simp)
  · -- one shard of the loop
    rename_i s todo new
    split at h
    · cases h
      exact .keep (fun _ h => Or.inl h) rfl (by simp)
    · split at h
      · cases h
        exact .keep (fun _ h => Or.inl (mem_visited_undispatched h)) rfl (by simp)
      · obtain ⟨row, -, heq⟩ := Option.map_eq_some_iff.mp h
        cases heq
        refine .keep (fun _ h => Or.inl ?_) rfl (by simp)
        split
        · exact mem_visited_undispatched h
        · exact h
  · rename_i s todo new
    cases h
    exact .keep (fun _ h => Or.inl (mem_visited_undispatched h)) rfl (by simp)
  · cases h
    exact .keep (fun _ h => Or.inl h) rfl (by simp)
  · rename_i s todo new
    split at h
    · cases h
      exact .keep (fun _ h => Or.inl h) rfl (by simp)
    · obtain ⟨locked, -, heq⟩ := Option.map_eq_some_iff.mp h
      split at heq
      · cases heq
        exact .keep (fun _ h => Or.inl h) rfl (by simp)
      · -- the replan: the replacements are created, and are to be linked
        cases heq
        refine ⟨fun _ h => Or.inl h, fun _ h => absurd h List.not_mem_nil, fun _ _ h => (nomatch h),
          ?_, fun _ h => (nomatch h)⟩
        rintro _ heq t ht
        cases heq
        exact List.mem_map_of_mem ht
  · cases h
    exact .keep (fun _ h => Or.inl h) rfl (by simp)
  · rename_i s created todo new
    split at h
    · cases h
    · cases h
      exact ⟨fun _ h => Or.inl h, fun _ h => Or.inl h, fun _ _ h => (nomatch h),
        fun _ h => (nomatch h), fun _ h => (nomatch h)⟩
  · -- the link: the shard is linked, and its offload job is to be dispatched
    rename_i s offload created todo new
    cases h
    refine ⟨fun o ho => Or.inl (List.mem_append_left _ ho), fun index hindex => ?_, ?_,
      fun _ h => (nomatch h), fun _ h => (nomatch h)⟩
    · rcases List.mem_cons.mp hindex with rfl | hindex
      · exact Or.inr ⟨offload, rfl⟩
      · exact Or.inl hindex
    · rintro _ _ heq
      cases heq
      exact List.mem_append_right _ (List.mem_singleton.mpr rfl)
  · cases h
    refine .keep (fun _ h => Or.inl ?_) rfl (by simp)
    split <;> exact h
  · cases h
    exact .keep (fun _ h => Or.inl h) rfl (by simp)
  · cases h
    exact .keep (fun _ h => absurd h List.not_mem_nil) rfl (by simp)
  · split at h
    · cases h
      exact .keep (fun _ h => absurd h List.not_mem_nil) rfl (by simp)
    · obtain ⟨row, -, heq⟩ := Option.map_eq_some_iff.mp h
      cases heq
      exact .keep (fun _ h => absurd h List.not_mem_nil) rfl (by simp)
  · cases h
    exact .keep (fun _ h => absurd h List.not_mem_nil) rfl (by simp)
  · cases h
    exact .keep (fun _ h => absurd h List.not_mem_nil) rfl (by simp)
  · cases h
    exact .keep (fun _ h => absurd h List.not_mem_nil) rfl (by simp)
  · cases h

theorem cancel_passes (h : cancelStep l p r = some (w, p')) : Passes l p w p' := by
  unfold cancelStep at h
  split at h
  · cases h
    exact .keep (fun _ h => absurd h List.not_mem_nil) rfl (by simp)
  · cases h
    exact .keep (fun _ h => absurd h List.not_mem_nil) rfl (by simp)
  · obtain ⟨rfl, rfl⟩ := Prod.mk.inj (Option.some.inj h)
    refine .keep (fun _ h => absurd h List.not_mem_nil) rfl ?_
    split
    · simp
    · split <;> simp
  · cases h
    exact .keep (fun _ h => absurd h List.not_mem_nil) rfl (by simp)
  · cases h
    exact .keep (fun _ h => absurd h List.not_mem_nil) rfl (by simp)
  · cases h
    exact .keep (fun _ h => absurd h List.not_mem_nil) rfl (by simp)
  · cases h

theorem next_passes (h : next cfg l p r = some (w, p')) : Passes l p w p' := by
  rcases next_cases h with h | h | h
  · exact submit_passes h
  · exact reconcile_passes h
  · exact cancel_passes h

/-! ## Every shard is dispatched or owed -/

def Served (c : Config Ledger Proc) (t : Shard) : Prop :=
  c.store.Dispatched t ∨ ∃ p ∈ c.procs, p.Owes t

/-- A shard after a write was there before, or the write created it. -/
theorem index_of_apply (ht : t ∈ (l.apply cfg w).shards) :
    (∃ u ∈ l.shards, u.index = t.index) ∨ (∃ s, w = .replan s ∧ t ∈ l.replacements s) ∨
      ∃ plan, w = .adopt plan ∧ t ∈ plannedShards l.offloads.length plan := by
  have hmodify : ∀ (index : Nat) (f : Shard → Shard), (∀ u, u.index = index → (f u).index = index) →
      t ∈ (l.modifyShard index f).shards → ∃ u ∈ l.shards, u.index = t.index := by
    intro index f hf ht
    rcases Table.mem_modify.mp ht with ⟨u, hu, hindex, rfl⟩ | ⟨hu, -⟩
    · exact ⟨u, hu, hindex.trans (hf u hindex).symm⟩
    · exact ⟨t, hu, rfl⟩
  cases w with
  | saveShard s => exact Or.inl (hmodify _ _ (fun _ _ => rfl) ht)
  | saveShardStatus index status =>
    exact Or.inl (hmodify index (fun t => { t with status := status }) (fun _ h => h) ht)
  | saveShardError index error =>
    exact Or.inl (hmodify index (fun t => { t with error := error }) (fun _ h => h) ht)
  | saveShardOffload index o =>
    exact Or.inl (hmodify index (fun t => { t with orchestrationJob := some o }) (fun _ h => h) ht)
  | adopt plan => exact Or.inr (Or.inr ⟨plan, rfl, ht⟩)
  | replan s =>
    rcases List.mem_append.mp ht with ht | ht
    · exact Or.inl (hmodify s.index (fun t => { t with status := .superseded }) (fun _ h => h) ht)
    · exact Or.inr (Or.inl ⟨s, rfl, ht⟩)
  | requeueFailed =>
    obtain ⟨u, hu, rfl⟩ := List.mem_map.mp ht
    refine Or.inl ⟨u, hu, ?_⟩
    split <;> rfl
  | _ => exact Or.inl ⟨t, ht, rfl⟩

/-- The row of a shard that was there before keeps its link. -/
theorem link_of_apply (hl : LedgerOk cfg l) (hw : WriteOk cfg l w) {u : Shard} (hu : u ∈ l.shards)
    (ht : t ∈ (l.apply cfg w).shards) (hindex : u.index = t.index) :
    u.orchestrationJob = none ∨ t.orchestrationJob = u.orchestrationJob := by
  obtain ⟨hl', hg⟩ := apply_ok hl hw
  obtain ⟨u', hu', hindex', -, hlink⟩ := hg.shards u hu
  obtain rfl : u' = t := Table.eq_of_key hl'.nodup hu' ht (hindex'.trans hindex)
  exact hlink

theorem dispatches_apply {o : Nat} (ho : o ∈ l.dispatches) : o ∈ (l.apply cfg w).dispatches := by
  cases w with
  | delayDispatch o' => exact List.mem_append_left _ ho
  | _ => exact ho

/-- A debt to a shard is a debt to the same row later. -/
theorem Proc.Owes.later {q : Proc} {u : Shard} (h : q.Owes u) (hindex : u.index = t.index)
    (hlink : u.orchestrationJob = none ∨ t.orchestrationJob = u.orchestrationJob) : q.Owes t := by
  rcases h with ⟨o, ho, hmem⟩ | hmem
  · refine Or.inl ⟨o, ?_, hmem⟩
    rw [ho] at hlink
    exact hlink.resolve_left nofun
  · exact Or.inr (hindex ▸ hmem)

theorem Ledger.Dispatched.later {u : Shard} (h : l.Dispatched u)
    (hlink : u.orchestrationJob = none ∨ t.orchestrationJob = u.orchestrationJob) :
    (l.apply cfg w).Dispatched t := by
  obtain ⟨o, ho, hmem⟩ := h
  rw [ho] at hlink
  exact ⟨o, hlink.resolve_left nofun, dispatches_apply hmem⟩

/-- What the task that moves owed, it still owes, or it has paid. -/
theorem Passes.serve (hpass : Passes l p w p') {u : Shard} (howes : p.Owes u)
    (hindex : u.index = t.index) (ht : t ∈ (l.apply cfg w).shards)
    (hlink : u.orchestrationJob = none ∨ t.orchestrationJob = u.orchestrationJob) :
    (l.apply cfg w).Dispatched t ∨ p'.Owes t := by
  rcases howes.later hindex hlink with ⟨o, ho, hmem⟩ | hmem
  · rcases hpass.undispatched o hmem with hmem | rfl
    · exact Or.inr (Or.inl ⟨o, ho, hmem⟩)
    · exact Or.inl ⟨o, ho, List.mem_append_right _ (List.mem_singleton.mpr rfl)⟩
  · rcases hpass.unlinked _ hmem with hmem | ⟨o, rfl⟩
    · exact Or.inr (Or.inr hmem)
    · -- the row itself is linked by this write
      rcases Table.mem_modify.mp ht with ⟨v, -, -, rfl⟩ | ⟨-, hne⟩
      · exact Or.inr (Or.inl ⟨o, rfl, hpass.linked _ o rfl⟩)
      · exact absurd rfl hne

/-- The step lemma for a task that makes a write. -/
theorem served_write (hl : LedgerOk cfg l) (hw : WriteOk cfg l w) (hpass : Passes l p w p')
    {procs : List Proc} {i : Nat} (hget : procs[i]? = some p)
    (hserved : ∀ t ∈ l.shards, Served ⟨l, procs⟩ t) (ht : t ∈ (l.apply cfg w).shards) :
    Served ⟨l.apply cfg w, procs.set i p'⟩ t := by
  have hlt : i < procs.length := (List.getElem?_eq_some_iff.mp hget).1
  have hp' : p' ∈ procs.set i p' := List.mem_set hlt p'
  rcases index_of_apply ht with ⟨u, hu, hindex⟩ | ⟨s, rfl, hs⟩ | ⟨plan, rfl, hplan⟩
  · have hlink := link_of_apply hl hw hu ht hindex
    rcases hserved u hu with hdispatched | ⟨q, hq, howes⟩
    · exact Or.inl (hdispatched.later hlink)
    · obtain ⟨j, hj⟩ := List.mem_iff_getElem?.mp hq
      by_cases hji : i = j
      · -- the debtor is the task that moves
        subst hji
        obtain rfl : p = q := Option.some.inj (hget.symm.trans hj)
        exact (hpass.serve howes hindex ht hlink).imp_right fun h => ⟨p', hp', h⟩
      · have hq' : q ∈ procs.set i p' :=
          List.mem_of_getElem? (i := j) (by rw [List.getElem?_set_ne hji]; exact hj)
        exact Or.inr ⟨q, hq', howes.later hindex hlink⟩
  · exact Or.inr ⟨p', hp', Or.inr (hpass.replanned s rfl t hs)⟩
  · obtain ⟨j, -, -, -, hjob, -⟩ := mem_plannedShards hplan
    exact Or.inr ⟨p', hp', Or.inl ⟨_, hjob, hpass.adopted plan rfl t hplan _ hjob⟩⟩

/-- The step lemma for a task that dies owing nothing. -/
theorem served_crash {procs : List Proc} {i : Nat} (hget : procs[i]? = some p)
    (hsettled : p.undispatched = [] ∧ p.unlinked = []) (h : Served ⟨l, procs⟩ t) :
    Served ⟨l, procs.set i .crashed⟩ t := by
  rcases h with hdispatched | ⟨q, hq, howes⟩
  · exact Or.inl hdispatched
  · obtain ⟨j, hj⟩ := List.mem_iff_getElem?.mp hq
    have hji : i ≠ j := by
      rintro rfl
      obtain rfl : p = q := Option.some.inj (hget.symm.trans hj)
      exact not_owes hsettled.1 hsettled.2 howes
    have hq' : q ∈ procs.set i .crashed :=
      List.mem_of_getElem? (i := j) (by rw [List.getElem?_set_ne hji]; exact hj)
    exact Or.inr ⟨q, hq', howes⟩

theorem served_step {c c' : Config Ledger Proc} {e : Event Proc Reply (Nat × Orchestration.Job)}
    (hc : (rowsOutline cfg).Holds c) (hsettled : diesSettled c e = true)
    (hserved : ∀ t ∈ c.store.shards, Served c t) (h : (program cfg).step c e = some c') :
    ∀ t ∈ c'.store.shards, Served c' t := by
  intro t ht
  cases e with
  | spawn q =>
    obtain ⟨-, rfl⟩ := (program cfg).step_spawn h
    refine (hserved t ht).imp_right ?_
    rintro ⟨p, hp, howes⟩
    exact ⟨p, List.mem_append_left _ hp, howes⟩
  | act i r =>
    obtain ⟨p, l', p', hget, hact, rfl⟩ := (program cfg).step_act h
    rcases act_cases hact with ⟨rfl, rfl, rfl⟩ | ⟨w, hnext, rfl⟩
    · have hdies : p.undispatched = [] ∧ p.unlinked = [] := by
        simpa [diesSettled, hget] using hsettled
      exact served_crash hget hdies (hserved t ht)
    · have hp : Sound cfg c.store p := hc.2 p (List.mem_of_getElem? hget)
      have hw : WriteOk cfg c.store w := (next_sound hc.1 hp hnext).1
      exact served_write hc.1 hw (next_passes hnext) hget hserved ht
  | env m =>
    obtain ⟨l', henv, rfl⟩ := (program cfg).step_env h
    obtain ⟨old, -, -, rfl⟩ := offloadMove_cases henv
    exact hserved t ht

theorem served_of_settled {c : Config Ledger Proc}
    (h : (program cfg).Reach (fun c e => diesSettled c e = true) fresh c) :
    ∀ t ∈ c.store.shards, Served c t := by
  have hboth : (rowsOutline cfg).Holds c ∧ ∀ t ∈ c.store.shards, Served c t := by
    refine Program.Reach.invariant (program cfg) (I := fun c => (rowsOutline cfg).Holds c ∧
      ∀ t ∈ c.store.shards, Served c t) ?_ h ⟨fresh_holds cfg, fun _ h => nomatch h⟩
    rintro s e s' ⟨hs, hserved⟩ hsettled hstep
    exact ⟨((rowsOutline cfg).step hs trivial hstep).1, served_step hs hsettled hserved hstep⟩
  exact hboth.2

/-! ## Stranded shards -/

/-- A shard that waits for an offload job which was never created, or never dispatched. -/
structure Stranded (l : Ledger) (t : Shard) : Prop where
  stored : t ∈ l.shards
  queued : t.status = .queued
  live : l.job.status ≠ .canceled
  undispatched : ¬ l.Dispatched t

/-- **No shard is stranded**: in every run in which no task dies owing something, a shard that is not
    dispatched is owed by a task that is at work; when all tasks have ended there is none. -/
theorem no_shard_stranded {c : Config Ledger Proc}
    (h : (program cfg).Reach (fun c e => diesSettled c e = true) fresh c) :
    (∀ t, Stranded c.store t → ∃ p ∈ c.procs, p.ended = false ∧ p.Owes t) ∧
      ((∀ p ∈ c.procs, p.ended = true) → ∀ t, ¬ Stranded c.store t) := by
  have howed : ∀ t, Stranded c.store t → ∃ p ∈ c.procs, p.ended = false ∧ p.Owes t := by
    intro t ht
    rcases served_of_settled h t ht.stored with hdispatched | ⟨p, hp, howes⟩
    · exact absurd hdispatched ht.undispatched
    · refine ⟨p, hp, ?_, howes⟩
      by_contra hended
      exact not_owes_of_ended (by simpa using hended) howes
  refine ⟨howed, fun hended t ht => ?_⟩
  obtain ⟨p, hp, hlive, -⟩ := howed t ht
  have hdone := hended p hp
  rw [hlive] at hdone
  cases hdone

/-! ## Concrete runs -/

/-- A submission that runs to its end: the only shard is dispatched. -/
def submitted : List (Event Proc Reply (Nat × Orchestration.Job)) :=
  adopted ++ .act 0 (.taskId "task") :: List.replicate 10 (.act 0 .ok)

/-- The submission dies when the broker refuses its first task. -/
def refusedByBroker : List (Event Proc Reply (Nat × Orchestration.Job)) :=
  adopted ++ [.act 0 .crash]

/-- Task `p`, the second of the job, runs for so many steps. -/
def secondTask (p : Proc) (steps : Nat) : List (Event Proc Reply (Nat × Orchestration.Job)) :=
  .spawn p :: List.replicate steps (.act 1 .ok)

theorem no_shard_stranded_submitted : ∃ c : Config Ledger Proc, c.store.shards ≠ [] ∧
    (∀ p ∈ c.procs, p.ended = true) ∧ ∀ t, ¬ Stranded c.store t := by
  have hrun : ((program toySettings).runWhen (fun c e => diesSettled c e = true) fresh
      submitted).any (fun c => !c.store.shards.isEmpty && c.procs.all Proc.ended) = true := by
    decide +kernel
  obtain ⟨c, hc, hrest⟩ := (Option.any_eq_true ..).mp hrun
  obtain ⟨hshards, hended⟩ := Bool.and_eq_true _ _ ▸ hrest
  have hended : ∀ p ∈ c.procs, p.ended = true := List.all_eq_true.mp hended
  exact ⟨c, by simpa using hshards, hended,
    (no_shard_stranded (Program.runWhen_reach _ submitted hc)).2 hended⟩

/-- One complete execution of the task, once nobody is at work, leaves no stranded shard. -/
def Recovers (p : Proc) : Prop :=
  ∀ (cfg : Settings) (c c' : Config Ledger Proc)
    (es : List (Event Proc Reply (Nat × Orchestration.Job))),
    (program cfg).Reach Program.Any fresh c → (∀ q ∈ c.procs, q.ended = true) →
    (program cfg).run c (.spawn p :: es) = some c' → c'.procs = c.procs ++ [.returned] →
    ∀ t, ¬ Stranded c'.store t

/-- Neither a redelivery nor the sweep dispatches the shard of the dead submission. -/
theorem shard_stranded : ¬ Recovers .submit ∧ ¬ Recovers .sweep := by
  have hundispatched : ∀ p steps, (p = .submit ∧ steps = 10) ∨ (p = .sweep ∧ steps = 9) →
      ¬ Recovers p := by
    intro p steps hp hlaw
    have hrun : ((program toySettings).run fresh refusedByBroker).any (fun c =>
        c.procs.all Proc.ended && ((program toySettings).run c (secondTask p steps)).any fun c' =>
          decide (c'.procs = c.procs ++ [.returned]) && c'.store.dispatches.isEmpty &&
            decide (c'.store.job.status ≠ .canceled) &&
            c'.store.shards.any fun t => t.status == .queued) = true := by
      rcases hp with ⟨rfl, rfl⟩ | ⟨rfl, rfl⟩ <;> decide +kernel
    obtain ⟨c, hc, hrest⟩ := (Option.any_eq_true ..).mp hrun
    obtain ⟨hended, hsecond⟩ := Bool.and_eq_true _ _ ▸ hrest
    obtain ⟨c', hc', hleft⟩ := (Option.any_eq_true ..).mp hsecond
    simp only [Bool.and_eq_true, decide_eq_true_eq, List.isEmpty_iff, List.any_eq_true,
      beq_iff_eq] at hleft
    obtain ⟨⟨⟨hreturned, hnone⟩, hlive⟩, t, ht, hqueued⟩ := hleft
    refine hlaw toySettings c c' _ (Program.run_reach _ refusedByBroker hc)
      (List.all_eq_true.mp hended) hc' hreturned t ⟨ht, hqueued, hlive, ?_⟩
    rintro ⟨o, -, ho⟩
    rw [hnone] at ho
    cases ho
  exact ⟨hundispatched _ _ (Or.inl ⟨rfl, rfl⟩), hundispatched _ _ (Or.inr ⟨rfl, rfl⟩)⟩

end ControlPlane.Extraction
