/-
  CANCELLATION of an extraction job: once the route has answered `canceled: true`, is the job
  CANCELED for good, and is every offload job of its shards over or asked to stop?

  Inside `submit_extraction` it is: planning and adoption look at the locked row.  The other steps
  leave three windows, in which the cancellation is lost:

  * `reconcile_extraction` reads the job before and saves its folded status after the answer
    (`cancellation_overwritten`),
  * it links a replacement's offload job after the answer, and then dispatches it,
  * a shard is adopted, or linked, between the route's listing of the shards and its last save.

  `heeds` is the condition that none of the three happens, and that an offload job does not leave a
  terminal status (the subject of `Orchestration.Terminal`) and no operator re-runs the job.  An
  offload job is `Safe` when it is terminal or `cancel_job_task` was enqueued for it.  The invariant
  (`CancelOk`, with `Heeded` at the program points) is that a shard whose status the route would pass
  over has a safe offload job; then the route's answer is final (`cancellation_final`).
-/
import ControlPlane.Extraction.Copies

namespace ControlPlane.Extraction

open ControlPlane.Interleave

variable {cfg : Settings} {l l' : Ledger} {p p' : Proc} {r : Reply} {w : Write} {s t : Shard}

/-! ## The condition -/

/-- The offload job is over, or `cancel_job_task` was enqueued for it. -/
def Ledger.safe (l : Ledger) (o : Nat) : Bool :=
  ((l.offloads[o]?).any fun row => row.status.terminal) || l.cancels.contains o

/-- What a write of a process must not do to a cancellation. -/
def heedsWrite (l : Ledger) : Proc → Write → Bool
  -- a reconciler does not save over an answered cancellation, unless all it saw was canceled
  | .fold done _, .saveJob .. =>
      !l.answered || (!done.isEmpty && done.all fun s => s.status == .canceled)
  -- no offload job is linked to a shard after the answer
  | _, .saveShardOffload .. => !l.answered
  -- when the route answers, the shards that it did not list with their offload job are safe
  | .cancelLoop done _, .cancelJob =>
      l.answered || l.shards.all fun t => t.orchestrationJob.all fun o =>
        l.safe o || done.any fun s => s.orchestrationJob == some o
  | _, .requeueFailed => false
  | _, _ => true

/-- The condition on a step. -/
def heeds (cfg : Settings) (c : Config Ledger Proc) :
    Event Proc Reply (Nat × Orchestration.Job) → Bool
  | .env m => (c.store.offloads[m.1]?).all fun old => !old.status.terminal || m.2.status.terminal
  | e => (writing cfg c e).all fun pw => heedsWrite c.store pw.1 pw.2

/-! ## Safe offload jobs -/

def Safe (l : Ledger) (o : Nat) : Prop := l.safe o = true

theorem safe_iff {o : Nat} : Safe l o ↔
    (∃ row, l.offloads[o]? = some row ∧ row.status.terminal = true) ∨ o ∈ l.cancels := by
  simp [Safe, Ledger.safe, Option.any_eq_true]

/-- Whatever the shard is linked to is safe. -/
def AllSafe (l : Ledger) (s : Shard) : Prop := ∀ o, s.orchestrationJob = some o → Safe l o

/-- A shard that the cancel route would pass over has a safe offload job. -/
def RowSafe (l : Ledger) (s : Shard) : Prop := s.status.final = true → AllSafe l s

/-- Safe stays safe. -/
def KeepsSafe (l l' : Ledger) : Prop := ∀ o, Safe l o → Safe l' o

theorem KeepsSafe.refl (l : Ledger) : KeepsSafe l l := fun _ h => h

theorem AllSafe.keep (hk : KeepsSafe l l') (h : AllSafe l s) : AllSafe l' s :=
  fun o ho => hk o (h o ho)

theorem RowSafe.keep (hk : KeepsSafe l l') (h : RowSafe l s) : RowSafe l' s :=
  fun hf => (h hf).keep hk

/-- Offload rows that keep their status, and requests that are not forgotten, keep jobs safe. -/
theorem keepsSafe_of (hoff : ∀ (o : Nat) (row : Orchestration.Job), l.offloads[o]? = some row →
      row.status.terminal = true →
      ∃ row' : Orchestration.Job, l'.offloads[o]? = some row' ∧ row'.status.terminal = true)
    (hcan : ∀ o ∈ l.cancels, o ∈ l'.cancels) : KeepsSafe l l' := by
  intro o ho
  rcases safe_iff.mp ho with ⟨row, hrow, hterm⟩ | hmem
  · exact safe_iff.mpr (Or.inl (hoff o row hrow hterm))
  · exact safe_iff.mpr (Or.inr (hcan o hmem))

theorem keepsSafe_of_eq (hoff : l'.offloads = l.offloads) (hcan : l'.cancels = l.cancels) :
    KeepsSafe l l' :=
  keepsSafe_of (fun _ row hrow hterm => ⟨row, hoff ▸ hrow, hterm⟩) fun _ ho => hcan ▸ ho

theorem keepsSafe_append {rest : List Orchestration.Job} (hoff : l'.offloads = l.offloads ++ rest)
    (hcan : l'.cancels = l.cancels) :
    KeepsSafe l l' := by
  refine keepsSafe_of (fun o row hrow hterm => ⟨row, ?_, hterm⟩) fun _ ho => hcan ▸ ho
  rw [hoff, List.getElem?_append_left (List.getElem?_eq_some_iff.mp hrow).1, hrow]

theorem keepsSafe_modify {o : Nat} {f : Orchestration.Job → Orchestration.Job}
    (hf : ∀ row, (f row).status = row.status) (hoff : l'.offloads = l.offloads.modify o f)
    (hcan : l'.cancels = l.cancels) : KeepsSafe l l' := by
  refine keepsSafe_of (fun o' row hrow hterm => ?_) fun _ ho => hcan ▸ ho
  rw [hoff, List.getElem?_modify, hrow]
  by_cases ho : o = o'
  · exact ⟨f row, by simp [ho], by rw [hf]; exact hterm⟩
  · exact ⟨row, by simp [ho], hterm⟩

/-- No write forgets a terminal status or a cancel request. -/
theorem keepsSafe_apply (l : Ledger) (w : Write) : KeepsSafe l (l.apply cfg w) := by
  cases w with
  | createOffload s => exact keepsSafe_append rfl rfl
  | adopt plan => exact keepsSafe_append rfl rfl
  | saveOffloadError o error =>
    exact keepsSafe_modify (f := fun row => { row with error := error }) (fun _ => rfl) rfl rfl
  | saveOffloadTaskId o id =>
    exact keepsSafe_modify (f := fun row => { row with celeryTaskId := id }) (fun _ => rfl) rfl rfl
  | delayCancel o =>
    exact keepsSafe_of (fun _ row hrow hterm => ⟨row, hrow, hterm⟩)
      fun _ ho => List.mem_append_left _ ho
  | _ => exact keepsSafe_of_eq rfl rfl

/-! ## The invariant -/

structure CancelOk (l : Ledger) : Prop where
  rows : ∀ t ∈ l.shards, RowSafe l t
  /-- The answer stands, and nothing of the job is left running. -/
  canceled : l.answered = true → l.job.status = .canceled
  safe : l.answered = true → ∀ t ∈ l.shards, AllSafe l t

/-- What a process must know before a write, so that the write heeds the cancellation. -/
def WriteSafe (l : Ledger) : Write → Prop
  | .saveShard s => RowSafe l s
  | .saveShardStatus index _ | .replan { index := index, .. } =>
      ∀ t ∈ l.shards, t.index = index → AllSafe l t
  | .saveShardOffload .. => l.answered = false
  | .saveJob status .. => l.answered = true → status = .canceled
  | .cancelJob => ∀ t ∈ l.shards, AllSafe l t
  | .failPlanning _ | .adopt _ => l.job.status ≠ .canceled
  | .requeueFailed => False
  | _ => True

/-- A write of one shard row. -/
theorem modifyShard_cancelOk {index : Nat} {f : Shard → Shard} (h : CancelOk l)
    (hrow : ∀ t ∈ l.shards, t.index = index → RowSafe l (f t))
    (hall : l.answered = true → ∀ t ∈ l.shards, t.index = index → AllSafe l (f t)) :
    CancelOk (l.modifyShard index f) := by
  have hk : KeepsSafe l (l.modifyShard index f) := keepsSafe_of_eq rfl rfl
  refine ⟨fun t' ht' => ?_, h.canceled, fun ha t' ht' => ?_⟩
  · rcases Table.mem_modify.mp ht' with ⟨t, ht, hindex, rfl⟩ | ⟨ht, -⟩
    · exact (hrow t ht hindex).keep hk
    · exact (h.rows t' ht).keep hk
  · rcases Table.mem_modify.mp ht' with ⟨t, ht, hindex, rfl⟩ | ⟨ht, -⟩
    · exact (hall ha t ht hindex).keep hk
    · exact (h.safe ha t' ht).keep hk

/-- A write that leaves the shards and the job's status alone. -/
theorem CancelOk.keep (h : CancelOk l) (hk : KeepsSafe l l') (hs : l'.shards = l.shards)
    (hstatus : l'.job.status = l.job.status) (ha : l'.answered = l.answered) : CancelOk l' :=
  ⟨fun t ht => (h.rows t (hs ▸ ht)).keep hk, fun hans => hstatus.trans (h.canceled (ha ▸ hans)),
    fun hans t ht => (h.safe (ha ▸ hans) t (hs ▸ ht)).keep hk⟩

theorem saveShard_cancelOk (hl : LedgerOk cfg l) (h : CancelOk l) (hs : Genuine cfg l s)
    (hlink : s.orchestrationJob ≠ none) (hsafe : RowSafe l s) :
    CancelOk (l.apply cfg (.saveShard s)) := by
  refine modifyShard_cancelOk h (fun _ _ _ => hsafe) fun ha t ht hindex o ho => ?_
  -- the copy has the stored row's offload job
  have heq := (hs.of_index hl ht hindex).2.resolve_left hlink
  exact h.safe ha t ht o (heq.trans ho)

theorem saveShardOffload_cancelOk (hl : LedgerOk cfg l) (h : CancelOk l) {o : Nat}
    (hs : Genuine cfg l s) (ho : Executes cfg l s o) (ha : l.answered = false) :
    CancelOk (l.apply cfg (.saveShardOffload s.index o)) := by
  refine modifyShard_cancelOk h (fun t ht hindex hfinal o' ho' => ?_)
    fun hans => absurd (ha.symm.trans hans) nofun
  obtain rfl : o = o' := Option.some.inj ho'
  cases hjob : t.orchestrationJob with
  | none =>
    -- an unlinked row is QUEUED
    have hqueued := (hl.rows t ht).queued hjob
    simp [hqueued, ShardStatus.final] at hfinal
  | some o' =>
    have hinput := (hs.of_index hl ht hindex).1
    obtain rfl : o' = o :=
      hl.executes_unique ((hl.rows t ht).executes o' hjob) (ho.congr hindex hinput)
    exact h.rows t ht hfinal o' hjob

theorem replan_cancelOk (h : CancelOk l)
    (hsafe : ∀ t ∈ l.shards, t.index = s.index → AllSafe l t) :
    CancelOk (l.apply cfg (.replan s)) := by
  have hrow : CancelOk (l.modifyShard s.index fun t => { t with status := .superseded }) :=
    modifyShard_cancelOk h (fun t ht hindex _ => hsafe t ht hindex)
      fun _ t ht hindex => hsafe t ht hindex
  refine ⟨fun t ht => ?_, h.canceled, fun ha t ht => ?_⟩
  · rcases List.mem_append.mp ht with ht | ht
    · exact hrow.rows t ht
    · intro hfinal
      simp [(mem_replacements ht).2.1, ShardStatus.final] at hfinal
  · rcases List.mem_append.mp ht with ht | ht
    · exact hrow.safe ha t ht
    · intro o ho
      exact absurd ((mem_replacements ht).1.symm.trans ho) nofun

/-- **The step lemma**: a write that heeds the cancellation keeps the invariant. -/
theorem cancelOk_apply (hl : LedgerOk cfg l) (hw : WriteOk cfg l w) (hsafe : WriteSafe l w)
    (h : CancelOk l) : CancelOk (l.apply cfg w) := by
  cases w with
  | saveShard s => exact saveShard_cancelOk hl h hw.1 hw.2.1 hsafe
  | saveShardStatus index status =>
    exact modifyShard_cancelOk h (fun t ht hindex _ => hsafe t ht hindex)
      fun _ t ht hindex => hsafe t ht hindex
  | saveShardError index error =>
    exact modifyShard_cancelOk h (fun t ht _ => h.rows t ht) fun ha t ht _ => h.safe ha t ht
  | saveShardOffload index o =>
    obtain ⟨s, hs, rfl, ho⟩ := hw
    exact saveShardOffload_cancelOk hl h hs ho hsafe
  | replan s => exact replan_cancelOk h hsafe
  | saveJob status shardCount rowsTotal => exact ⟨h.rows, hsafe, h.safe⟩
  | cancelJob => exact ⟨h.rows, fun _ => rfl, fun _ => hsafe⟩
  | failPlanning error =>
    exact ⟨h.rows, fun ha => absurd (h.canceled ha) hsafe, h.safe⟩
  | adopt plan =>
    have hans : l.answered ≠ true := fun ha => hsafe (h.canceled ha)
    refine ⟨fun t ht hfinal => ?_, fun ha => absurd ha hans, fun ha => absurd ha hans⟩
    obtain ⟨-, -, -, -, -, hqueued, -⟩ := mem_plannedShards ht
    simp [hqueued, ShardStatus.final] at hfinal
  | requeueFailed => exact hsafe.elim
  | _ => exact h.keep (keepsSafe_apply l _) rfl rfl rfl

/-! ## One assertion for every program point -/

/-- The shards the cancel route has dealt with. -/
def Proc.dealt : Proc → List Shard
  | .cancelLoop done _ => done
  | .cancelSave s done _ => s :: done
  | _ => []

structure Heeded (l : Ledger) (p : Proc) : Prop where
  copies : ∀ s ∈ p.copies, RowSafe l s
  dealt : ∀ s ∈ p.dealt, AllSafe l s

theorem Heeded.keep (hk : KeepsSafe l l') (h : Heeded l p) : Heeded l' p :=
  ⟨fun s hs => (h.copies s hs).keep hk, fun s hs => (h.dealt s hs).keep hk⟩

theorem Heeded.move (h : Heeded l p) (hcopies : p'.copies ⊆ p.copies)
    (hdealt : p'.dealt ⊆ p.dealt) : Heeded l p' :=
  ⟨fun s hs => h.copies s (hcopies hs), fun s hs => h.dealt s (hdealt hs)⟩

/-- A program point outside the cancel route. -/
theorem Heeded.of_copies (hcopies : ∀ s ∈ p.copies, RowSafe l s) (hdealt : p.dealt = []) :
    Heeded l p :=
  ⟨hcopies, by simp [hdealt]⟩

theorem Heeded.idle (hcopies : p.copies = []) (hdealt : p.dealt = []) : Heeded l p :=
  ⟨by simp [hcopies], by simp [hdealt]⟩

theorem heeded_start (h : p.starts = true) : Heeded l p := by
  cases p <;> first
    | exact Heeded.idle rfl rfl
    | cases h

/-- A status that was just read from the offload row is as safe as that row. -/
theorem rowSafe_sync {o : Nat} {row : Orchestration.Job} (hjob : s.orchestrationJob = some o)
    (hrow : l.offloads[o]? = some row) : RowSafe l (s.sync row) := by
  intro hfinal o' ho'
  obtain rfl : o = o' := Option.some.inj (hjob.symm.trans ho')
  refine safe_iff.mpr (Or.inl ⟨row, hrow, ?_⟩)
  simp only [Shard.sync] at hfinal
  cases hstatus : row.status <;> simp_all [mapped, ShardStatus.final, Orchestration.Status.terminal]

theorem visited_heeded {todo : List Shard} {new : List Nat} (hs : RowSafe l s)
    (htodo : ∀ t ∈ todo, RowSafe l t) : Heeded l (visited s todo new) := by
  have hcons : ∀ t ∈ s :: todo, RowSafe l t := List.forall_mem_cons.mpr ⟨hs, htodo⟩
  unfold visited
  split
  · exact Heeded.of_copies hcons rfl
  · exact Heeded.of_copies htodo rfl

/-! ## The steps -/

/-- What a step owes to a cancellation. -/
def StepSafe (cfg : Settings) (l : Ledger) (w : Write) (p' : Proc) : Prop :=
  WriteSafe l w ∧ Heeded (l.apply cfg w) p'

theorem StepSafe.read (h : Heeded l p') : StepSafe cfg l .nothing p' := ⟨trivial, h⟩

/-- A step after whose write the process holds no more than before. -/
theorem StepSafe.write (hw : WriteSafe l w) (h : Heeded l p) (hcopies : p'.copies ⊆ p.copies)
    (hdealt : p'.dealt ⊆ p.dealt) : StepSafe cfg l w p' :=
  ⟨hw, (h.keep (keepsSafe_apply l w)).move hcopies hdealt⟩

theorem submit_heeded (hq : Heeded l p) (h : submitStep cfg l p r = some (w, p')) :
    StepSafe cfg l w p' := by
  unfold submitStep at h
  split at h
  · cases h
    refine StepSafe.read ?_
    split <;> exact Heeded.idle rfl rfl
  · cases h
    refine StepSafe.read ?_
    split <;> exact Heeded.idle rfl rfl
  · cases h
    exact StepSafe.read (Heeded.idle rfl rfl)
  · cases h
    exact StepSafe.read (Heeded.idle rfl rfl)
  · -- a failed planning is recorded on a row that is not CANCELED
    cases h
    refine ⟨?_, Heeded.idle rfl rfl⟩
    split
    · trivial
    · rename_i hguard
      exact fun hc => hguard (Or.inl hc)
  · -- nor is a plan adopted by a CANCELED job
    simp only at h
    split at h
    · cases h
      exact StepSafe.read (Heeded.idle rfl rfl)
    · rename_i hguard
      split at h <;> cases h
      exact ⟨fun hc => hguard (Or.inl hc), Heeded.idle rfl rfl⟩
  · rename_i caller
    cases h
    refine StepSafe.read ?_
    cases caller <;> exact Heeded.idle rfl rfl
  · cases h
    exact StepSafe.write trivial hq (fun _ h => h) (fun _ h => h)
  · cases h
    exact StepSafe.write trivial hq (fun _ h => h) (fun _ h => h)
  · cases h

/-- A view whose shards are all CANCELED folds to CANCELED. -/
theorem foldStatus_canceled {done : List Shard} (hne : done ≠ [])
    (hall : ∀ s ∈ done, s.status = .canceled) : foldStatus done = .canceled := by
  obtain ⟨s, hs⟩ := List.exists_mem_of_ne_nil done hne
  have hmap : ∀ t ∈ done.map Shard.status, t = .canceled := by
    intro t ht
    obtain ⟨s, hs, rfl⟩ := List.mem_map.mp ht
    exact hall s hs
  have hnot : ∀ t : ShardStatus, t ≠ .canceled → t ∉ done.map Shard.status :=
    fun t hne ht => hne (hmap t ht)
  unfold foldStatus
  simp only
  rw [if_neg, if_neg, if_pos]
  · exact ⟨by simpa using hne, hmap⟩
  · rintro (h | h)
    · exact hnot .running nofun h
    · exact hnot .queued nofun h
  · rintro ⟨-, h⟩
    have := h s.status (List.mem_map_of_mem hs)
    rw [hall s hs] at this
    cases this

theorem reconcile_heeded (hl : LedgerOk cfg l) (hc : CancelOk l) (hp : Sound cfg l p)
    (hq : Heeded l p) (hheeds : heedsWrite l p w = true)
    (h : reconcileStep cfg l p r = some (w, p')) : StepSafe cfg l w p' := by
  unfold reconcileStep at h
  split at h
  · cases h
    refine StepSafe.read ?_
    split <;> exact Heeded.idle rfl rfl
  · cases h
    exact StepSafe.read (Heeded.of_copies hc.rows rfl)
  · cases h
    exact StepSafe.read (Heeded.idle rfl rfl)
  · -- one shard of the first loop
    rename_i s todo new
    have hs : RowSafe l s := hq.copies s (List.mem_cons_self ..)
    have htodo : ∀ t ∈ todo, RowSafe l t := fun t ht => hq.copies t (List.mem_cons_of_mem _ ht)
    split at h
    · cases h
      exact StepSafe.read (Heeded.of_copies htodo rfl)
    · split at h
      · cases h
        exact StepSafe.read (visited_heeded hs htodo)
      · rename_i o hjob
        obtain ⟨row, hrow, heq⟩ := Option.map_eq_some_iff.mp h
        cases heq
        refine StepSafe.read ?_
        split
        · exact visited_heeded hs htodo
        · exact Heeded.of_copies (List.forall_mem_cons.mpr ⟨rowSafe_sync hjob hrow, htodo⟩) rfl
  · -- the full save of the synced copy
    rename_i s todo new
    cases h
    have hs : RowSafe l s := hq.copies s (List.mem_cons_self ..)
    have hk : KeepsSafe l (l.apply cfg (.saveShard s)) := keepsSafe_apply l _
    exact ⟨hs, visited_heeded (hs.keep hk)
      fun t ht => (hq.copies t (List.mem_cons_of_mem _ ht)).keep hk⟩
  · cases h
    exact StepSafe.read (hq.move (fun _ h => h) (fun _ h => h))
  · -- the transaction of `replan_shard`: the refused shard's own offload job has failed
    rename_i s todo new
    have hs : RowSafe l s := hq.copies s (List.mem_cons_self ..)
    have hgen : Genuine cfg l s := hp.copies s (List.mem_cons_self ..)
    split at h
    · cases h
      exact StepSafe.read (hq.move (fun _ h => h) (fun _ h => h))
    · obtain ⟨locked, hlocked, heq⟩ := Option.map_eq_some_iff.mp h
      split at heq
      · cases heq
        exact StepSafe.read (hq.move (fun _ h => List.mem_cons_of_mem _ h) (fun _ h => h))
      · cases heq
        have hk : KeepsSafe l (l.apply cfg (.replan s)) := keepsSafe_apply l _
        refine ⟨fun t ht hindex o ho => ?_, Heeded.of_copies (fun t ht => ?_) rfl⟩
        · have hlink := hgen.linked_of_failed hp.ready
          have heq := (hgen.of_index hl ht hindex).2.resolve_left hlink
          have hfinal : s.status.final = true := by
            rw [show s.status = .failed from hp.ready]
            rfl
          exact hs hfinal o (heq.symm.trans ho)
        · rcases List.mem_append.mp ht with ht | ht
          · intro hfinal
            simp [(mem_replacements ht).2.1, ShardStatus.final] at hfinal
          · exact (hq.copies t (List.mem_cons_of_mem _ ht)).keep hk
  · cases h
    exact StepSafe.read (hq.move (fun _ h => h) (fun _ h => h))
  · split at h <;> cases h
    exact StepSafe.write trivial hq (fun _ h => h) (fun _ h => h)
  · -- the save of the link
    cases h
    have hans : l.answered = false := by simpa [heedsWrite] using hheeds
    exact StepSafe.write hans hq (fun _ h => List.mem_cons_of_mem _ h) (fun _ h => h)
  · cases h
    refine StepSafe.write trivial hq ?_ ?_
    · split <;> exact fun _ h => List.mem_cons_of_mem _ h
    · split <;> exact fun _ h => h
  · cases h
    exact StepSafe.write trivial hq (fun _ h => h) (fun _ h => h)
  · cases h
    exact StepSafe.read
      (Heeded.of_copies (fun t ht => hc.rows t (List.mem_of_mem_filter ht)) rfl)
  · -- one shard of the second loop
    rename_i done s todo
    have hmem : ∀ t, t ∈ done ++ [s] ++ todo → t ∈ done ++ s :: todo := by simp
    split at h
    · cases h
      exact StepSafe.read (hq.move (hmem ·) (fun _ h => h))
    · rename_i o hjob
      obtain ⟨row, hrow, heq⟩ := Option.map_eq_some_iff.mp h
      cases heq
      refine StepSafe.read ?_
      split
      · exact hq.move (hmem ·) (fun _ h => h)
      · refine Heeded.of_copies (List.forall_mem_cons.mpr ⟨rowSafe_sync hjob hrow, ?_⟩) rfl
        intro t ht
        refine hq.copies t ?_
        rcases List.mem_append.mp ht with ht | ht
        · exact List.mem_append_left _ ht
        · exact List.mem_append_right _ (List.mem_cons_of_mem _ ht)
  · rename_i s done todo
    cases h
    refine StepSafe.write (hq.copies s (List.mem_cons_self ..)) hq ?_ (fun _ h => h)
    intro t ht
    simpa [Proc.copies, or_left_comm] using ht
  · -- the last save: over an answered cancellation only CANCELED is folded
    rename_i done
    cases h
    refine StepSafe.write (fun ha => ?_) hq (fun _ h => absurd h List.not_mem_nil) (fun _ h => h)
    have hview : done ≠ [] ∧ ∀ s ∈ done, s.status = .canceled := by
      simpa [heedsWrite, ha] using hheeds
    exact foldStatus_canceled hview.1 hview.2
  · cases h
    refine StepSafe.read ?_
    split <;> exact Heeded.idle rfl rfl
  · cases h

theorem cancel_heeded (hl : LedgerOk cfg l) (hc : CancelOk l) (hp : Sound cfg l p)
    (hq : Heeded l p) (hheeds : heedsWrite l p w = true) (h : cancelStep l p r = some (w, p')) :
    StepSafe cfg l w p' := by
  unfold cancelStep at h
  split at h
  · cases h
    refine StepSafe.read ?_
    split <;> exact Heeded.idle rfl rfl
  · cases h
    exact StepSafe.read (Heeded.of_copies hc.rows rfl)
  · -- one shard: without an offload job, passed over, or cancelled
    rename_i done s todo
    have hmem : ∀ t, t ∈ done ++ [s] ++ todo → t ∈ done ++ s :: todo := by simp
    have hpass : AllSafe l s → Heeded l (.cancelLoop (done ++ [s]) todo) := by
      intro hs
      refine ⟨fun t ht => hq.copies t (hmem t ht), fun t ht => ?_⟩
      rcases List.mem_append.mp ht with ht | ht
      · exact hq.dealt t ht
      · exact List.mem_singleton.mp ht ▸ hs
    obtain ⟨hw, hp'⟩ := Prod.mk.inj (Option.some.inj h)
    split at h
    · rename_i hjob
      cases h
      exact StepSafe.read (hpass fun o ho => absurd (hjob.symm.trans ho) nofun)
    · rename_i o hjob
      split at h
      · rename_i hfinal
        cases h
        exact StepSafe.read (hpass (hq.copies s (by simp [Proc.copies]) hfinal))
      · cases h
        have hk : KeepsSafe l (l.apply cfg (.delayCancel o)) := keepsSafe_apply l _
        refine ⟨trivial, fun t ht => (hq.copies t ?_).keep hk, fun t ht => ?_⟩
        · simpa [Proc.copies, or_left_comm] using ht
        · rcases List.mem_cons.mp ht with rfl | ht
          · intro o' ho'
            obtain rfl : o = o' := Option.some.inj (hjob.symm.trans ho')
            exact safe_iff.mpr (Or.inr (by simp [Ledger.apply]))
          · exact (hq.dealt t ht).keep hk
  · -- the save of CANCELED follows the request
    rename_i s done todo
    cases h
    refine StepSafe.write (fun t ht hindex o ho => ?_) hq ?_ ?_
    · have hgen : Genuine cfg l s := hp.copies s (List.mem_cons_self ..)
      have heq := (hgen.of_index hl ht hindex).2.resolve_left hp.ready
      exact hq.dealt s (List.mem_cons_self ..) o (heq.symm.trans ho)
    · intro t ht
      simpa [Proc.copies, or_left_comm] using ht
    · intro t ht
      simpa [Proc.dealt, or_comm] using ht
  · -- the answer
    rename_i done
    cases h
    refine StepSafe.write (fun t ht o ho => ?_) hq (fun _ h => absurd h List.not_mem_nil)
      (fun _ h => absurd h List.not_mem_nil)
    have hall : l.answered = true ∨ ∀ t ∈ l.shards, ∀ o, t.orchestrationJob = some o →
        l.safe o = true ∨ ∃ s ∈ done, s.orchestrationJob = some o := by
      simpa [heedsWrite, Option.all_eq_true] using hheeds
    rcases hall with hans | hall
    · exact hc.safe hans t ht o ho
    · rcases hall t ht o ho with hsafe | ⟨s, hs, hjob⟩
      · exact hsafe
      · exact hq.dealt s hs o hjob
  · cases h
    cases hheeds
  · cases h

theorem next_heeded (hl : LedgerOk cfg l) (hc : CancelOk l) (hp : Sound cfg l p)
    (hq : Heeded l p) (hheeds : heedsWrite l p w = true) (h : next cfg l p r = some (w, p')) :
    StepSafe cfg l w p' := by
  rcases next_cases h with h | h | h
  · exact submit_heeded hq h
  · exact reconcile_heeded hl hc hp hq hheeds h
  · exact cancel_heeded hl hc hp hq hheeds h

/-! ## The outline -/

/-- A move of an offload row that leaves no terminal status. -/
theorem keepsSafe_offloadMove {m : Nat × Orchestration.Job} (h : offloadMove l m = some l')
    (hterm : ∀ old, l.offloads[m.1]? = some old → old.status.terminal = true →
      m.2.status.terminal = true) : KeepsSafe l l' := by
  obtain ⟨old, hold, -, rfl⟩ := offloadMove_cases h
  refine keepsSafe_of (fun o row hrow ht => ?_) fun _ ho => ho
  by_cases ho : m.1 = o
  · subst ho
    obtain rfl : old = row := Option.some.inj (hold.symm.trans hrow)
    have hlt : m.1 < l.offloads.length := (List.getElem?_eq_some_iff.mp hrow).1
    exact ⟨m.2, by simp [hlt], hterm old hold ht⟩
  · exact ⟨row, by simp [ho, hrow], ht⟩

/-- The rows outline, with the invariant of cancellation beside it. -/
def cancelOutline (cfg : Settings) :
    Outline (program cfg) (fun c e => heeds cfg c e = true) where
  inv l := LedgerOk cfg l ∧ CancelOk l
  asserts l p := Sound cfg l p ∧ Heeded l p
  grows l l' := Grows l l' ∧ KeepsSafe l l' ∧ (l.answered = true → l'.answered = true)
  stable hg hp := ⟨hp.1.grow hg.1, hp.2.keep hg.2.1⟩
  start _ hp := ⟨sound_start hp, heeded_start hp⟩
  act := by
    rintro c i r p l' p' ⟨hl, hc⟩ ⟨hp, hq⟩ hheeds hget hact
    rcases act_cases hact with ⟨-, rfl, rfl⟩ | ⟨w, hnext, rfl⟩
    · exact ⟨⟨hl, hc⟩, ⟨Grows.refl _, KeepsSafe.refl _, id⟩, Sound.idle rfl rfl trivial,
        Heeded.idle rfl rfl⟩
    · have hwrite : heedsWrite c.store p w = true := by
        simpa [heeds, writing, hget, hnext] using hheeds
      obtain ⟨hw, hp'⟩ := next_sound hl hp hnext
      obtain ⟨hl', hg⟩ := apply_ok hl hw
      obtain ⟨hsafe, hq'⟩ := next_heeded hl hc hp hq hwrite hnext
      refine ⟨⟨hl', cancelOk_apply hl hw hsafe hc⟩, ⟨hg, keepsSafe_apply _ w, ?_⟩, hp', hq'⟩
      cases w <;> first
        | exact id
        | exact fun _ => rfl
  env := by
    rintro c m l' ⟨hl, hc⟩ hheeds henv
    have hk : KeepsSafe c.store l' := by
      refine keepsSafe_offloadMove henv fun old hold hterm => ?_
      simpa [heeds, hold, hterm] using hheeds
    obtain ⟨hl', hg⟩ := offloadMove_ok hl henv
    obtain ⟨old, -, -, rfl⟩ := offloadMove_cases henv
    exact ⟨⟨hl', hc.keep hk rfl rfl rfl⟩, hg, hk, id⟩

theorem cancel_holds {c : Config Ledger Proc}
    (h : (program cfg).Reach (fun c e => heeds cfg c e = true) fresh c) :
    (cancelOutline cfg).Holds c := by
  refine (cancelOutline cfg).reach h ⟨⟨(fresh_holds cfg).1, ?_⟩, fun _ h => nomatch h⟩
  exact ⟨fun _ h => absurd h List.not_mem_nil, nofun, nofun⟩

/-- An offload job is over, or `cancel_job_task` was enqueued for it. -/
def OverOrCancelled (l : Ledger) (o : Nat) : Prop :=
  (∃ row, l.offloads[o]? = some row ∧ row.status.terminal = true) ∨ o ∈ l.cancels

/-- **The answer is final.**  In every run that heeds it, from the moment the route has answered
    `canceled: true` the job is CANCELED, and every offload job of its shards, and every one that was
    ever dispatched, is over or asked to stop. -/
theorem cancellation_final (cfg : Settings) {c c' : Config Ledger Proc}
    (h : (program cfg).Reach (fun c e => heeds cfg c e = true) fresh c)
    (hanswered : c.store.answered = true)
    (hrun : (program cfg).Reach (fun c e => heeds cfg c e = true) c c') :
    c'.store.job.status = .canceled ∧
      (∀ t ∈ c'.store.shards, ∀ o, t.orchestrationJob = some o → OverOrCancelled c'.store o) ∧
      ∀ o ∈ c'.store.dispatches, OverOrCancelled c'.store o := by
  have hgrow := (cancelOutline cfg).grows_reach
    (fun l => ⟨Grows.refl l, KeepsSafe.refl l, id⟩)
    (fun h h' => ⟨h.1.trans h'.1, fun o ho => h'.2.1 o (h.2.1 o ho), h'.2.2 ∘ h.2.2⟩)
    hrun (cancel_holds h)
  obtain ⟨⟨hl, hc⟩, -⟩ := cancel_holds (h.trans hrun)
  have hans := hgrow.2.2 hanswered
  refine ⟨hc.canceled hans, fun t ht o ho => safe_iff.mp (hc.safe hans t ht o ho),
    fun o ho => ?_⟩
  obtain ⟨t, ht, hjob⟩ := hl.dispatched o ho
  exact safe_iff.mp (hc.safe hans t ht o hjob)

/-! ## Concrete runs -/

/-- The route lists the shard, cancels its offload job, and answers. -/
def answered : List (Event Proc Reply (Nat × Orchestration.Job)) :=
  adopted ++ [.spawn .cancel, .act 1 .ok, .act 1 .ok, .act 1 .ok, .act 1 .ok, .act 1 .ok]

/-- A reconciler that had read the RUNNING job gets as far as its last save while the route runs. -/
def overtaken : List (Event Proc Reply (Nat × Orchestration.Job)) :=
  adopted ++ [.spawn .cancel, .spawn .reconcile, .act 2 .ok, .act 2 .ok, .act 2 .ok, .act 2 .ok,
    .act 2 .ok, .act 2 .ok, .act 2 .ok, .act 1 .ok, .act 1 .ok, .act 1 .ok, .act 1 .ok, .act 1 .ok]

/-- The submission dispatches its shard after the answer, to a job that is being cancelled. -/
theorem cancellation_final_dispatch : ∃ c c' : Config Ledger Proc,
    (program toySettings).run fresh answered = some c ∧
      (program toySettings).run c [.act 0 (.taskId "task")] = some c' ∧
      c'.store.job.status = .canceled ∧ OverOrCancelled c'.store 0 := by
  refine ⟨_, _, rfl, rfl, ?_⟩
  have hfinal := cancellation_final toySettings (Program.runWhen_reach _ answered rfl) rfl
    (Program.runWhen_reach _ [.act 0 (.taskId "task")] rfl)
  exact ⟨hfinal.1, hfinal.2.2 0 (by decide)⟩

/-- Without the condition the cancellation is lost: the reconciler saves RUNNING over it. -/
theorem cancellation_overwritten : ¬ ∀ (cfg : Settings) (c c' : Config Ledger Proc),
    (program cfg).Reach Program.Any fresh c → c.store.answered = true →
      (program cfg).Reach Program.Any c c' →
      c'.store.job.status = .canceled ∧
        ∀ t ∈ c'.store.shards, ∀ o, t.orchestrationJob = some o → OverOrCancelled c'.store o := by
  intro hlaw
  have hfinal := hlaw toySettings _ _ (Program.run_reach _ overtaken rfl) rfl
    (Program.run_reach _ [.act 2 .ok] rfl)
  exact absurd hfinal.1 (by decide)

end ControlPlane.Extraction
