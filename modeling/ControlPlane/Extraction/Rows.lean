/-
  WHAT HOLDS OF THE ROWS IN EVERY RUN, without any condition on the interleaving.

  Shards and offload jobs are only ever added; a shard keeps its index, its input and, once it has
  one, its offload job; an offload job keeps its `operation_id` (`Grows`).  The database's own
  constraint on `operation_id` is what makes the last part true: two offload jobs of one shard
  would have one id.

  A process reasons from copies of rows.  A copy is `Genuine` when a stored row has its index and
  input, and its offload job if the copy has one; statuses may be stale.  `WriteOk` is what a process
  must know of its copies before it writes; then every write keeps the tables (`apply_ok`).
-/
import ControlPlane.Extraction.Program

namespace ControlPlane.Extraction

open ControlPlane.Interleave

variable {cfg : Settings} {l l' : Ledger} {p p' : Proc} {r : Reply} {w : Write} {s t : Shard}

/-! ## Assertions about rows -/

/-- Offload job `o` was created for the shard. -/
def Executes (cfg : Settings) (l : Ledger) (s : Shard) (o : Nat) : Prop :=
  ∃ row, l.offloads[o]? = some row ∧ row.operationId = cfg.shardOperationId s

/-- Some shard is linked to offload job `o`. -/
def Linked (l : Ledger) (o : Nat) : Prop := ∃ t ∈ l.shards, t.orchestrationJob = some o

/-- A row that no offload job executes is QUEUED, and a link leads to the shard's own job. -/
structure RowOk (cfg : Settings) (l : Ledger) (s : Shard) : Prop where
  queued : s.orchestrationJob = none → s.status = .queued
  executes : ∀ o, s.orchestrationJob = some o → Executes cfg l s o

/-- A copy that agrees with a stored row on everything that never changes. -/
structure Genuine (cfg : Settings) (l : Ledger) (s : Shard) : Prop where
  row : RowOk cfg l s
  stored : ∃ t ∈ l.shards, t.index = s.index ∧ t.input = s.input ∧
    (s.orchestrationJob = none ∨ t.orchestrationJob = s.orchestrationJob)

/-- The invariant of the tables. -/
structure LedgerOk (cfg : Settings) (l : Ledger) : Prop where
  /-- Rows are stored in the order of their index, which is unique. -/
  increasing : (l.shards.map Shard.index).Pairwise (· < ·)
  /-- `control_job_tenant_operation_id_uniq`. -/
  distinct : (l.offloads.map Orchestration.Job.operationId).Nodup
  rows : ∀ t ∈ l.shards, RowOk cfg l t
  dispatched : ∀ o ∈ l.dispatches, Linked l o

/-- What every step guarantees. -/
structure Grows (l l' : Ledger) : Prop where
  shards : ∀ t ∈ l.shards, ∃ t' ∈ l'.shards, t'.index = t.index ∧ t'.input = t.input ∧
    (t.orchestrationJob = none ∨ t'.orchestrationJob = t.orchestrationJob)
  offloads : ∀ (o : Nat) (row : Orchestration.Job), l.offloads[o]? = some row →
    ∃ row' : Orchestration.Job, l'.offloads[o]? = some row' ∧ row'.operationId = row.operationId

theorem Grows.refl (l : Ledger) : Grows l l :=
  ⟨fun t ht => ⟨t, ht, rfl, rfl, Or.inr rfl⟩, fun _ row h => ⟨row, h, rfl⟩⟩

theorem Grows.trans {l₁ l₂ l₃ : Ledger} (h : Grows l₁ l₂) (h' : Grows l₂ l₃) : Grows l₁ l₃ := by
  refine ⟨fun t ht => ?_, fun o row hrow => ?_⟩
  · obtain ⟨t', ht', hindex, hinput, hlink⟩ := h.shards t ht
    obtain ⟨t'', ht'', hindex', hinput', hlink'⟩ := h'.shards t' ht'
    refine ⟨t'', ht'', hindex'.trans hindex, hinput'.trans hinput, ?_⟩
    rcases hlink with hnone | heq
    · exact Or.inl hnone
    · exact hlink'.imp heq.symm.trans fun heq' => heq'.trans heq
  · obtain ⟨row', hrow', hid⟩ := h.offloads o row hrow
    obtain ⟨row'', hrow'', hid'⟩ := h'.offloads o row' hrow'
    exact ⟨row'', hrow'', hid'.trans hid⟩

/-- A write of neither table. -/
theorem Grows.of_eq (hs : l'.shards = l.shards) (ho : l'.offloads = l.offloads) : Grows l l' :=
  ⟨fun t ht => ⟨t, hs ▸ ht, rfl, rfl, Or.inr rfl⟩, fun _ row h => ⟨row, ho ▸ h, rfl⟩⟩

theorem Executes.grow (hg : Grows l l') {o : Nat} (h : Executes cfg l s o) :
    Executes cfg l' s o := by
  obtain ⟨row, hrow, hid⟩ := h
  obtain ⟨row', hrow', hid'⟩ := hg.offloads o row hrow
  exact ⟨row', hrow', hid'.trans hid⟩

theorem Linked.grow (hg : Grows l l') {o : Nat} (h : Linked l o) : Linked l' o := by
  obtain ⟨t, ht, hto⟩ := h
  obtain ⟨t', ht', -, -, hlink⟩ := hg.shards t ht
  refine ⟨t', ht', ?_⟩
  rcases hlink with hnone | heq
  · rw [hto] at hnone
    cases hnone
  · exact heq.trans hto

theorem RowOk.grow (hg : Grows l l') (h : RowOk cfg l s) : RowOk cfg l' s :=
  ⟨h.queued, fun o ho => (h.executes o ho).grow hg⟩

theorem Genuine.grow (hg : Grows l l') (h : Genuine cfg l s) : Genuine cfg l' s := by
  obtain ⟨t, ht, hindex, hinput, hlink⟩ := h.stored
  obtain ⟨t', ht', hindex', hinput', hlink'⟩ := hg.shards t ht
  refine ⟨h.row.grow hg, t', ht', hindex'.trans hindex, hinput'.trans hinput, ?_⟩
  rcases hlink with hnone | heq
  · exact Or.inl hnone
  · rcases hlink' with hnone | heq'
    · exact Or.inl (heq ▸ hnone)
    · exact Or.inr (heq'.trans heq)

theorem LedgerOk.nodup (hl : LedgerOk cfg l) : (l.shards.map Shard.index).Nodup :=
  hl.increasing.imp Nat.ne_of_lt

theorem LedgerOk.genuine (hl : LedgerOk cfg l) (ht : t ∈ l.shards) : Genuine cfg l t :=
  ⟨hl.rows t ht, t, ht, rfl, rfl, Or.inr rfl⟩

/-- The stored row with a genuine copy's index is the row it was read from. -/
theorem Genuine.of_index (hl : LedgerOk cfg l) (h : Genuine cfg l s) (ht : t ∈ l.shards)
    (hindex : t.index = s.index) : t.input = s.input ∧
      (s.orchestrationJob = none ∨ t.orchestrationJob = s.orchestrationJob) := by
  obtain ⟨u, hu, huindex, huinput, hulink⟩ := h.stored
  obtain rfl : t = u := Table.eq_of_key hl.nodup ht hu (hindex.trans huindex.symm)
  exact ⟨huinput, hulink⟩

/-- At most one offload job was created for a shard. -/
theorem LedgerOk.executes_unique (hl : LedgerOk cfg l) {o o' : Nat} (h : Executes cfg l s o)
    (h' : Executes cfg l s o') : o = o' := by
  obtain ⟨row, hrow, hid⟩ := h
  obtain ⟨row', hrow', hid'⟩ := h'
  obtain ⟨ho, rfl⟩ := List.getElem?_eq_some_iff.mp hrow
  obtain ⟨ho', rfl⟩ := List.getElem?_eq_some_iff.mp hrow'
  have hlen : o < (l.offloads.map Orchestration.Job.operationId).length := by
    rwa [List.length_map]
  have hlen' : o' < (l.offloads.map Orchestration.Job.operationId).length := by
    rwa [List.length_map]
  have hsame : (l.offloads.map Orchestration.Job.operationId)[o] =
      (l.offloads.map Orchestration.Job.operationId)[o'] := by
    rw [List.getElem_map, List.getElem_map, hid, hid']
  exact hl.distinct.getElem_inj_iff.mp hsame

/-- The offload job of a shard is determined by its index and input alone. -/
theorem shardOperationId_congr (hindex : t.index = s.index) (hinput : t.input = s.input) :
    cfg.shardOperationId t = cfg.shardOperationId s := by
  rw [Settings.shardOperationId, Settings.shardOperationId, hindex, hinput]

theorem Executes.congr (hindex : t.index = s.index) (hinput : t.input = s.input) {o : Nat}
    (h : Executes cfg l s o) : Executes cfg l t o := by
  obtain ⟨row, hrow, hid⟩ := h
  exact ⟨row, hrow, hid.trans (shardOperationId_congr hindex hinput).symm⟩

/-- `_sync_shard` changes a copy's status and outputs only. -/
theorem Genuine.sync (h : Genuine cfg l s) (hlink : s.orchestrationJob ≠ none)
    (row : Orchestration.Job) : Genuine cfg l (s.sync row) :=
  ⟨⟨fun hnone => absurd hnone hlink, fun o ho => h.row.executes o ho⟩, h.stored⟩

theorem sync_not_superseded (row : Orchestration.Job) : (s.sync row).status ≠ .superseded := by
  simp only [Shard.sync, mapped]
  cases row.status <;> simp

/-! ## Writes -/

/-- What a process must know before it writes. -/
def WriteOk (cfg : Settings) (l : Ledger) : Write → Prop
  | .saveShard s => Genuine cfg l s ∧ s.orchestrationJob ≠ none ∧ s.status ≠ .superseded
  | .saveShardStatus index status =>
      status ≠ .superseded ∧ ∃ s, Genuine cfg l s ∧ s.index = index ∧ s.orchestrationJob ≠ none
  | .saveShardOffload index o => ∃ s, Genuine cfg l s ∧ s.index = index ∧ Executes cfg l s o
  | .createOffload s => l.conflicts cfg [s] = false
  | .delayDispatch o => Linked l o
  | .adopt plan => l.shards = [] ∧ l.conflicts cfg (plannedShards l.offloads.length plan) = false
  | .replan s => Genuine cfg l s ∧ s.orchestrationJob ≠ none ∧
      ∀ t ∈ l.shards, t.index = s.index → t.status ≠ .superseded
  | _ => True

theorem conflicts_eq_false {shards : List Shard} (h : l.conflicts cfg shards = false) :
    ((l.offloads ++ shards.map (newOffload cfg)).map Orchestration.Job.operationId).Nodup := by
  simpa [Ledger.conflicts] using h

/-- A write of one shard row that keeps what never changes. -/
theorem modifyShard_ok (hl : LedgerOk cfg l) {index : Nat} {f : Shard → Shard}
    (hf : ∀ t ∈ l.shards, t.index = index → (f t).index = t.index ∧ (f t).input = t.input ∧
      (t.orchestrationJob = none ∨ (f t).orchestrationJob = t.orchestrationJob) ∧
      RowOk cfg l (f t)) :
    LedgerOk cfg (l.modifyShard index f) ∧ Grows l (l.modifyShard index f) := by
  have hg : Grows l (l.modifyShard index f) := by
    refine ⟨fun t ht => ⟨_, Table.mem_modify_of_mem ht, ?_⟩, fun _ row h => ⟨row, h, rfl⟩⟩
    split
    · rename_i hindex
      obtain ⟨h₁, h₂, h₃, -⟩ := hf t ht hindex
      exact ⟨h₁, h₂, h₃⟩
    · exact ⟨rfl, rfl, Or.inr rfl⟩
  refine ⟨⟨?_, hl.distinct, fun t' ht' => ?_, fun o ho => (hl.dispatched o ho).grow hg⟩, hg⟩
  · rw [Ledger.modifyShard, Table.modify_map_key fun t ht hindex => (hf t ht hindex).1]
    exact hl.increasing
  · rcases Table.mem_modify.mp ht' with ⟨t, ht, hindex, rfl⟩ | ⟨ht, -⟩
    · exact (hf t ht hindex).2.2.2.grow hg
    · exact (hl.rows t' ht).grow hg

theorem saveShard_ok (hl : LedgerOk cfg l) (hs : Genuine cfg l s)
    (hlink : s.orchestrationJob ≠ none) :
    LedgerOk cfg (l.apply cfg (.saveShard s)) ∧ Grows l (l.apply cfg (.saveShard s)) := by
  refine modifyShard_ok hl fun t ht hindex => ?_
  obtain ⟨hinput, hor⟩ := hs.of_index hl ht hindex
  exact ⟨hindex.symm, hinput.symm, Or.inr (hor.resolve_left hlink).symm, hs.row⟩

theorem saveShardStatus_ok (hl : LedgerOk cfg l) (hs : Genuine cfg l s)
    (hlink : s.orchestrationJob ≠ none) (status : ShardStatus) :
    LedgerOk cfg (l.apply cfg (.saveShardStatus s.index status)) ∧
      Grows l (l.apply cfg (.saveShardStatus s.index status)) := by
  refine modifyShard_ok hl fun t ht hindex => ⟨rfl, rfl, Or.inr rfl, ?_⟩
  have hlink' : t.orchestrationJob ≠ none := by
    rw [(hs.of_index hl ht hindex).2.resolve_left hlink]
    exact hlink
  exact ⟨fun hnone => absurd hnone hlink', (hl.rows t ht).executes⟩

theorem saveShardError_ok (hl : LedgerOk cfg l) (index : Nat) (error : String) :
    LedgerOk cfg (l.apply cfg (.saveShardError index error)) ∧
      Grows l (l.apply cfg (.saveShardError index error)) :=
  modifyShard_ok hl fun t ht _ =>
    ⟨rfl, rfl, Or.inr rfl, (hl.rows t ht).queued, (hl.rows t ht).executes⟩

theorem saveShardOffload_ok (hl : LedgerOk cfg l) (hs : Genuine cfg l s) {o : Nat}
    (ho : Executes cfg l s o) :
    LedgerOk cfg (l.apply cfg (.saveShardOffload s.index o)) ∧
      Grows l (l.apply cfg (.saveShardOffload s.index o)) := by
  refine modifyShard_ok hl fun t ht hindex => ?_
  have hinput := (hs.of_index hl ht hindex).1
  have hot : Executes cfg l t o := ho.congr hindex hinput
  refine ⟨rfl, rfl, ?_, nofun, fun o' ho' => Option.some.inj ho' ▸ hot⟩
  -- a row that has an offload job already has this one
  cases hjob : t.orchestrationJob with
  | none => exact Or.inl rfl
  | some o' =>
    have hot' : Executes cfg l t o' := (hl.rows t ht).executes o' hjob
    exact Or.inr (congrArg some (hl.executes_unique hot hot'))

/-- A write of the offload rows that keeps their ids. -/
theorem offloads_ok (hl : LedgerOk cfg l) (hs : l'.shards = l.shards)
    (hd : l'.dispatches = l.dispatches)
    (ho : l'.offloads.map Orchestration.Job.operationId =
      l.offloads.map Orchestration.Job.operationId) : LedgerOk cfg l' ∧ Grows l l' := by
  have hg : Grows l l' := by
    refine ⟨fun t ht => ⟨t, hs ▸ ht, rfl, rfl, Or.inr rfl⟩, fun o row hrow => ?_⟩
    have hget : (l'.offloads.map Orchestration.Job.operationId)[o]? = some row.operationId := by
      rw [ho, List.getElem?_map, hrow]
      rfl
    rw [List.getElem?_map] at hget
    exact Option.map_eq_some_iff.mp hget
  refine ⟨⟨hs ▸ hl.increasing, ho ▸ hl.distinct, fun t ht => ?_, fun o h => ?_⟩, hg⟩
  · exact (hl.rows t (hs ▸ ht)).grow hg
  · exact (hl.dispatched o (hd ▸ h)).grow hg

theorem saveOffload_map {o : Nat} {f : Orchestration.Job → Orchestration.Job}
    (hf : ∀ row, (f row).operationId = row.operationId) (rows : List Orchestration.Job) :
    (rows.modify o f).map Orchestration.Job.operationId =
      rows.map Orchestration.Job.operationId := by
  refine List.ext_getElem? fun i => ?_
  rw [List.getElem?_map, List.getElem?_map, List.getElem?_modify]
  cases rows[i]? with
  | none => rfl
  | some row =>
    by_cases hi : o = i
    · simp [hi, hf]
    · simp [hi]

theorem createOffload_ok (hl : LedgerOk cfg l) (hnew : l.conflicts cfg [s] = false) :
    LedgerOk cfg (l.apply cfg (.createOffload s)) ∧
      Grows l (l.apply cfg (.createOffload s)) := by
  have hg : Grows l (l.apply cfg (.createOffload s)) := by
    refine ⟨fun t ht => ⟨t, ht, rfl, rfl, Or.inr rfl⟩, fun o row hrow => ⟨row, ?_, rfl⟩⟩
    have ho : o < l.offloads.length := (List.getElem?_eq_some_iff.mp hrow).1
    simpa [Ledger.apply, List.getElem?_append_left ho] using hrow
  exact ⟨⟨hl.increasing, conflicts_eq_false hnew, fun t ht => (hl.rows t ht).grow hg,
    fun o ho => (hl.dispatched o ho).grow hg⟩, hg⟩

/-- The row just inserted executes the shard it was created for. -/
theorem executes_created (cfg : Settings) (l : Ledger) (s : Shard) :
    Executes cfg (l.apply cfg (.createOffload s)) s l.offloads.length :=
  ⟨newOffload cfg s, by simp [Ledger.apply], rfl⟩

theorem mem_plannedShards {first : Nat} {plan : Plan} (ht : t ∈ plannedShards first plan) :
    ∃ i, ∃ hi : i < plan.tables.length, t.index = i ∧ t.input = plan.tables[i] ∧
      t.orchestrationJob = some (first + i) ∧ t.status = .queued ∧
      (plannedShards first plan)[i]? = some t := by
  obtain ⟨i, hi, rfl⟩ := List.mem_mapIdx.mp ht
  exact ⟨i, hi, rfl, rfl, rfl, rfl, by simp [plannedShards, List.getElem?_eq_getElem hi]⟩

theorem plannedShards_map_index (first : Nat) (plan : Plan) :
    (plannedShards first plan).map Shard.index = List.range plan.tables.length := by
  refine List.ext_getElem (by simp [plannedShards]) fun i hi _ => ?_
  simp [plannedShards]

theorem adopt_ok (hl : LedgerOk cfg l) {plan : Plan} (hnone : l.shards = [])
    (hnew : l.conflicts cfg (plannedShards l.offloads.length plan) = false) :
    LedgerOk cfg (l.apply cfg (.adopt plan)) ∧ Grows l (l.apply cfg (.adopt plan)) := by
  have hg : Grows l (l.apply cfg (.adopt plan)) := by
    refine ⟨fun t ht => ?_, fun o row hrow => ⟨row, ?_, rfl⟩⟩
    · rw [hnone] at ht
      cases ht
    · have ho : o < l.offloads.length := (List.getElem?_eq_some_iff.mp hrow).1
      simpa [Ledger.apply, List.getElem?_append_left ho] using hrow
  refine ⟨⟨?_, conflicts_eq_false hnew, fun t ht => ?_, fun o ho => (hl.dispatched o ho).grow hg⟩, hg⟩
  · rw [show (l.apply cfg (.adopt plan)).shards = plannedShards l.offloads.length plan from rfl,
      plannedShards_map_index]
    exact List.pairwise_lt_range
  · obtain ⟨i, hi, -, -, hjob, -, hget⟩ := mem_plannedShards ht
    refine ⟨fun h => absurd (hjob.symm.trans h) nofun, fun o ho => ⟨newOffload cfg t, ?_, rfl⟩⟩
    obtain rfl : l.offloads.length + i = o := Option.some.inj (hjob.symm.trans ho)
    simp only [Ledger.apply]
    rw [List.getElem?_append_right (Nat.le_add_right _ _), Nat.add_sub_cancel_left,
      List.getElem?_map, hget]
    rfl

theorem lt_nextIndex (ht : t ∈ l.shards) : t.index < l.nextIndex := by
  have hle : ∀ (xs : List Nat) x, x ∈ xs → x ≤ xs.foldr max 0 := by
    intro xs
    induction xs with
    | nil => exact fun x hx => nomatch hx
    | cons y ys ih =>
      intro x hx
      rcases List.mem_cons.mp hx with rfl | hx
      · exact Nat.le_max_left _ _
      · exact Nat.le_trans (ih x hx) (Nat.le_max_right _ _)
  have := hle _ _ (List.mem_map_of_mem (f := Shard.index) ht)
  simp only [Ledger.nextIndex]
  omega

theorem mem_replacements (ht : t ∈ l.replacements s) :
    t.orchestrationJob = none ∧ t.status = .queued ∧ l.nextIndex ≤ t.index := by
  simp only [Ledger.replacements, List.mem_cons, List.not_mem_nil, or_false] at ht
  rcases ht with rfl | rfl
  · exact ⟨rfl, rfl, Nat.le_refl _⟩
  · exact ⟨rfl, rfl, Nat.le_succ _⟩

theorem replan_ok (hl : LedgerOk cfg l) (hs : Genuine cfg l s)
    (hlink : s.orchestrationJob ≠ none) :
    LedgerOk cfg (l.apply cfg (.replan s)) ∧ Grows l (l.apply cfg (.replan s)) := by
  -- superseding the row, then adding the two new ones behind all others
  obtain ⟨hl₁, hg₁⟩ := saveShardStatus_ok hl hs hlink .superseded
  have hg : Grows l (l.apply cfg (.replan s)) := by
    refine ⟨fun t ht => ?_, fun _ row h => ⟨row, h, rfl⟩⟩
    obtain ⟨t', ht', hrest⟩ := hg₁.shards t ht
    exact ⟨t', List.mem_append_left _ ht', hrest⟩
  refine ⟨⟨?_, hl.distinct, fun t ht => ?_, fun o ho => (hl.dispatched o ho).grow hg⟩, hg⟩
  · refine List.map_append ▸ List.pairwise_append.mpr ⟨hl₁.increasing, ?_, fun i hi j hj => ?_⟩
    · simp [Ledger.replacements]
    · obtain ⟨t, ht, rfl⟩ := List.mem_map.mp hj
      obtain ⟨u', hu', rfl⟩ := List.mem_map.mp hi
      refine Nat.lt_of_lt_of_le ?_ (mem_replacements ht).2.2
      rcases Table.mem_modify.mp hu' with ⟨u, hu, -, rfl⟩ | ⟨hu, -⟩
      · exact lt_nextIndex (t := u) hu
      · exact lt_nextIndex hu
  · rcases List.mem_append.mp ht with ht | ht
    · exact ⟨(hl₁.rows t ht).queued, (hl₁.rows t ht).executes⟩
    · obtain ⟨hnone, hqueued, -⟩ := mem_replacements ht
      exact ⟨fun _ => hqueued, fun o ho => absurd (hnone.symm.trans ho) nofun⟩

theorem requeueFailed_ok (hl : LedgerOk cfg l) :
    LedgerOk cfg (l.apply cfg .requeueFailed) ∧ Grows l (l.apply cfg .requeueFailed) := by
  have hrow : ∀ t : Shard, (if t.rerunnable then { t with status := .queued, error := "" }
      else t).index = t.index ∧ (if t.rerunnable then { t with status := .queued, error := "" }
      else t).input = t.input ∧ (if t.rerunnable then { t with status := .queued, error := "" }
      else t).orchestrationJob = t.orchestrationJob := by
    intro t
    split <;> exact ⟨rfl, rfl, rfl⟩
  have hg : Grows l (l.apply cfg .requeueFailed) :=
    ⟨fun t ht => ⟨_, List.mem_map_of_mem ht, (hrow t).1, (hrow t).2.1, Or.inr (hrow t).2.2⟩,
      fun _ row h => ⟨row, h, rfl⟩⟩
  refine ⟨⟨?_, hl.distinct, fun t' ht' => ?_, fun o ho => (hl.dispatched o ho).grow hg⟩, hg⟩
  · simp only [Ledger.apply, List.map_map, Function.comp_def, fun t => (hrow t).1]
    exact hl.increasing
  · obtain ⟨t, ht, rfl⟩ := List.mem_map.mp ht'
    split
    · rename_i hre
      exact ⟨fun _ => rfl, (hl.rows t ht).executes⟩
    · exact (hl.rows t ht).grow hg

/-- **Every write keeps the tables**, and only adds to them. -/
theorem apply_ok (hl : LedgerOk cfg l) (hw : WriteOk cfg l w) :
    LedgerOk cfg (l.apply cfg w) ∧ Grows l (l.apply cfg w) := by
  have hsame : ∀ {l'}, l'.shards = l.shards → l'.offloads = l.offloads →
      l'.dispatches = l.dispatches → LedgerOk cfg l' ∧ Grows l l' :=
    fun hs ho hd => offloads_ok hl hs hd (congrArg _ ho)
  cases w with
  | nothing => exact hsame rfl rfl rfl
  | saveShard s => exact saveShard_ok hl hw.1 hw.2.1
  | saveShardStatus index status =>
    obtain ⟨-, s, hs, rfl, hlink⟩ := hw
    exact saveShardStatus_ok hl hs hlink status
  | saveShardError index error => exact saveShardError_ok hl index error
  | saveShardOffload index o =>
    obtain ⟨s, hs, rfl, ho⟩ := hw
    exact saveShardOffload_ok hl hs ho
  | createOffload s => exact createOffload_ok hl hw
  | saveOffloadError o error =>
    refine offloads_ok hl rfl rfl (saveOffload_map ?_ l.offloads)
    exact fun _ => rfl
  | saveOffloadTaskId o id =>
    refine offloads_ok hl rfl rfl (saveOffload_map ?_ l.offloads)
    exact fun _ => rfl
  | delayDispatch o =>
    have hg : Grows l (l.apply cfg (.delayDispatch o)) := Grows.of_eq rfl rfl
    refine ⟨⟨hl.increasing, hl.distinct, fun t ht => (hl.rows t ht).grow hg, fun o' ho' => ?_⟩, hg⟩
    rcases List.mem_append.mp ho' with ho' | ho'
    · exact hl.dispatched o' ho'
    · exact List.mem_singleton.mp ho' ▸ hw
  | delayCancel o => exact hsame rfl rfl rfl
  | saveJob status shardCount rowsTotal => exact hsame rfl rfl rfl
  | cancelJob => exact hsame rfl rfl rfl
  | failPlanning error => exact hsame rfl rfl rfl
  | adopt plan => exact adopt_ok hl hw.1 hw.2
  | replan s => exact replan_ok hl hw.1 hw.2.1
  | requeueFailed => exact requeueFailed_ok hl

/-- The environment keeps the tables, too. -/
theorem offloadMove_ok (hl : LedgerOk cfg l) {m : Nat × Orchestration.Job}
    (h : offloadMove l m = some l') : LedgerOk cfg l' ∧ Grows l l' := by
  obtain ⟨old, hold, hid, rfl⟩ := offloadMove_cases h
  refine offloads_ok hl rfl rfl ?_
  refine List.ext_getElem? fun i => ?_
  rw [List.getElem?_map, List.getElem?_map, List.getElem?_set]
  by_cases hi : m.1 = i
  · obtain ⟨hlt, rfl⟩ := List.getElem?_eq_some_iff.mp (hi ▸ hold)
    simp [hi, hlt, hid]
  · simp [hi]

end ControlPlane.Extraction
