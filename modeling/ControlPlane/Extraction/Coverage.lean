/-
  EXACT COVERAGE: every source row of the adopted plan belongs to exactly one active shard.

  A shard stands for the rows of its input while it is active, and for none once it is SUPERSEDED.
  `replan_shard` supersedes a row and adds its two halves in one transaction, so the rows that the
  table covers stay the same up to order (`cover_apply`).

  `_sync_shard` saves its whole copy of a shard, and the cancel route saves a status, without looking
  at the row again.  When `replan_shard` has superseded that row in the meantime the save REVIVES it,
  and its rows are covered twice (`covered_twice`).  `keepsSuperseded` is the condition that this does
  not happen; with it, coverage is exact in every run (`covered_once`).
-/
import ControlPlane.Extraction.Copies

namespace ControlPlane.Extraction

open ControlPlane.Interleave

variable {cfg : Settings} {l l' : Ledger} {w : Write} {s t : Shard}

/-! ## The condition -/

/-- The stored row with this index is SUPERSEDED. -/
def Ledger.supersededAt (l : Ledger) (index : Nat) : Bool :=
  l.shards.any fun t => t.index == index && t.status == .superseded

/-- An unlocked save of a status falls on a SUPERSEDED row. -/
def Write.revives (l : Ledger) : Write → Bool
  | .saveShard s => l.supersededAt s.index
  | .saveShardStatus index _ => l.supersededAt index
  | _ => false

/-- The step saves no shard copy over a row that was superseded since the copy was read. -/
def keepsSuperseded (cfg : Settings) (s : Config Ledger Proc)
    (e : Event Proc Reply (Nat × Orchestration.Job)) : Bool :=
  (writing cfg s e).all fun pw => !pw.2.revives s.store

theorem not_superseded_of_index {index : Nat} (h : l.supersededAt index = false)
    (ht : t ∈ l.shards) (hindex : t.index = index) : t.status ≠ .superseded := by
  intro hsup
  have hany : l.supersededAt index = true :=
    List.any_eq_true.mpr ⟨t, ht, by simp [hindex, hsup]⟩
  rw [h] at hany
  cases hany

/-! ## What the table covers -/

/-- The active shards partition the rows of the plan. -/
def Covered (l : Ledger) : Prop :=
  (l.shards.flatMap Shard.covers).Perm (List.range l.planned)

theorem covers_of_active (h : s.status ≠ .superseded) : s.covers = s.input := if_neg h

theorem covers_congr (hinput : t.input = s.input)
    (hstatus : t.status = .superseded ↔ s.status = .superseded) : t.covers = s.covers := by
  rw [Shard.covers, Shard.covers, hinput]
  simp only [hstatus]

theorem plannedShards_cover (first : Nat) (plan : Plan) :
    (plannedShards first plan).flatMap Shard.covers = List.range plan.rows := by
  have hmap : (plannedShards first plan).map Shard.covers = plan.tables := by
    refine List.ext_getElem (by simp [plannedShards]) fun i _ _ => ?_
    simp [plannedShards, Shard.covers]
  rw [List.flatMap_def, hmap, plan.cut]

theorem replacements_cover (l : Ledger) (s : Shard) :
    (l.replacements s).flatMap Shard.covers = s.input := by
  simp [Ledger.replacements, Shard.covers]

/-- Neither an adoption nor a replan. -/
def Write.keepsShards : Write → Bool
  | .adopt _ | .replan _ => false
  | _ => true

/-- **Any other write** that revives nothing keeps what the shards stand for. -/
theorem flatMap_apply {α : Type} {g : Shard → List α}
    (hg : ∀ t t', t'.index = t.index → t'.covers = t.covers → g t' = g t) (hl : LedgerOk cfg l)
    (hw : WriteOk cfg l w) (hr : w.revives l = false) (hkeeps : w.keepsShards = true) :
    (l.apply cfg w).shards.flatMap g = l.shards.flatMap g := by
  cases w with
  | saveShard s =>
    refine Table.flatMap_modify fun t ht hindex => hg _ _ hindex.symm (covers_congr ?_ ?_)
    · exact (hw.1.of_index hl ht hindex).1.symm
    · exact iff_of_false hw.2.2 (not_superseded_of_index hr ht hindex)
  | saveShardStatus index status =>
    refine Table.flatMap_modify fun t ht hindex => hg _ _ rfl (covers_congr rfl ?_)
    exact iff_of_false hw.1 (not_superseded_of_index hr ht hindex)
  | saveShardError index error =>
    exact Table.flatMap_modify fun t _ _ => hg _ _ rfl (covers_congr rfl Iff.rfl)
  | saveShardOffload index o =>
    exact Table.flatMap_modify fun t _ _ => hg _ _ rfl (covers_congr rfl Iff.rfl)
  | requeueFailed =>
    simp only [Ledger.apply, List.flatMap_map]
    refine List.flatMap_congr fun t _ => ?_
    split
    · rename_i hre
      have hfailed : t.status = .failed := by simp_all [Shard.rerunnable]
      exact hg _ _ rfl (covers_congr rfl (iff_of_false (by simp) (by simp [hfailed])))
    · rfl
  | adopt plan => cases hkeeps
  | replan s => cases hkeeps
  | _ => rfl

/-- Such a write adds no row, and the plan stays. -/
theorem shards_apply (hkeeps : w.keepsShards = true) :
    (l.apply cfg w).planned = l.planned ∧ ((l.apply cfg w).shards = [] ↔ l.shards = []) := by
  cases w with
  | adopt plan => cases hkeeps
  | replan s => cases hkeeps
  | requeueFailed => exact ⟨rfl, List.map_eq_nil_iff⟩
  | saveShard s => exact ⟨rfl, Table.modify_eq_nil⟩
  | saveShardStatus index status => exact ⟨rfl, Table.modify_eq_nil⟩
  | saveShardError index error => exact ⟨rfl, Table.modify_eq_nil⟩
  | saveShardOffload index o => exact ⟨rfl, Table.modify_eq_nil⟩
  | _ => exact ⟨rfl, Iff.rfl⟩

/-- The replan transaction: the superseded row's items return in its two halves. -/
theorem replan_cover (hl : LedgerOk cfg l) (hs : Genuine cfg l s)
    (hactive : ∀ t ∈ l.shards, t.index = s.index → t.status ≠ .superseded) (hc : Covered l) :
    Covered (l.apply cfg (.replan s)) := by
  obtain ⟨t, ht, hindex, hinput, -⟩ := hs.stored
  have hdrop := Table.flatMap_modify_drop (g := Shard.covers)
    (f := fun t => { t with status := .superseded }) hl.nodup ht rfl
  rw [hindex, covers_of_active (hactive t ht hindex), hinput] at hdrop
  simp only [Covered, Ledger.apply, List.flatMap_append, replacements_cover]
  exact (List.perm_append_comm.trans hdrop.symm).trans hc

/-- **The step lemma**: a permitted write that revives nothing keeps the cover, once there is one. -/
theorem cover_apply (hl : LedgerOk cfg l) (hw : WriteOk cfg l w) (hr : w.revives l = false)
    (hc : l.shards ≠ [] → Covered l) :
    (l.apply cfg w).shards ≠ [] → Covered (l.apply cfg w) := by
  intro hne
  cases hkeeps : w.keepsShards with
  | true =>
    have hsame := flatMap_apply (g := Shard.covers) (fun _ _ _ h => h) hl hw hr hkeeps
    obtain ⟨hplanned, hnil⟩ := @shards_apply cfg l _ hkeeps
    rw [Covered, hsame, hplanned]
    exact hc (hnil.not.mp hne)
  | false =>
    cases w with
    | adopt plan => exact List.Perm.of_eq (plannedShards_cover l.offloads.length plan)
    | replan s =>
      obtain ⟨t, ht, -⟩ := hw.1.stored
      exact replan_cover hl hw.1 hw.2.2 (hc (List.ne_nil_of_mem ht))
    | _ => cases hkeeps

/-! ## SUPERSEDED is final -/

/-- Superseded rows stay superseded. -/
def KeepsSuperseded (l l' : Ledger) : Prop := ∀ t ∈ l.shards, t.status = .superseded →
  ∃ t' ∈ l'.shards, t'.index = t.index ∧ t'.status = .superseded

theorem KeepsSuperseded.refl (l : Ledger) : KeepsSuperseded l l :=
  fun t ht hsup => ⟨t, ht, rfl, hsup⟩

theorem KeepsSuperseded.trans {l₁ l₂ l₃ : Ledger} (h : KeepsSuperseded l₁ l₂)
    (h' : KeepsSuperseded l₂ l₃) : KeepsSuperseded l₁ l₃ := by
  intro t ht hsup
  obtain ⟨t', ht', hindex, hsup'⟩ := h t ht hsup
  obtain ⟨t'', ht'', hindex', hsup''⟩ := h' t' ht' hsup'
  exact ⟨t'', ht'', hindex'.trans hindex, hsup''⟩

theorem modifyShard_keeps {index : Nat} {f : Shard → Shard}
    (hf : ∀ t ∈ l.shards, t.index = index → t.status = .superseded →
      (f t).index = t.index ∧ (f t).status = .superseded) :
    KeepsSuperseded l (l.modifyShard index f) := by
  intro t ht hsup
  refine ⟨_, Table.mem_modify_of_mem ht, ?_⟩
  split
  · rename_i hindex
    exact hf t ht hindex hsup
  · exact ⟨rfl, hsup⟩

theorem superseded_apply (hw : WriteOk cfg l w) (hr : w.revives l = false) :
    KeepsSuperseded l (l.apply cfg w) := by
  cases w with
  | saveShard s =>
    exact modifyShard_keeps fun t ht hindex hsup =>
      absurd hsup (not_superseded_of_index hr ht hindex)
  | saveShardStatus index status =>
    exact modifyShard_keeps fun t ht hindex hsup =>
      absurd hsup (not_superseded_of_index hr ht hindex)
  | saveShardError index error => exact modifyShard_keeps fun t _ _ hsup => ⟨rfl, hsup⟩
  | saveShardOffload index o => exact modifyShard_keeps fun t _ _ hsup => ⟨rfl, hsup⟩
  | adopt plan =>
    intro t ht
    rw [hw.1] at ht
    cases ht
  | replan s =>
    intro t ht hsup
    have hrow : KeepsSuperseded l
        (l.modifyShard s.index fun t => { t with status := .superseded }) :=
      modifyShard_keeps fun _ _ _ _ => ⟨rfl, rfl⟩
    obtain ⟨t', ht', hrest⟩ := hrow t ht hsup
    exact ⟨t', List.mem_append_left _ ht', hrest⟩
  | requeueFailed =>
    intro t ht hsup
    refine ⟨_, List.mem_map_of_mem ht, ?_⟩
    have hre : t.rerunnable = false := by simp [Shard.rerunnable, hsup]
    simp [hre, hsup]
  | _ => exact KeepsSuperseded.refl l

/-! ## Every run -/

theorem coverage_step {c c' : Config Ledger Proc} {e : Event Proc Reply (Nat × Orchestration.Job)}
    (hrows : (rowsOutline cfg).Holds c) (hC : keepsSuperseded cfg c e = true)
    (h : (program cfg).step c e = some c') (hc : c.store.shards ≠ [] → Covered c.store) :
    (c'.store.shards ≠ [] → Covered c'.store) ∧ KeepsSuperseded c.store c'.store := by
  rcases step_cases hrows h with ⟨-, heq⟩ | ⟨p, w, hwriting, -, hw, heq⟩ | ⟨m, -, henv⟩
  · rw [heq]
    exact ⟨hc, KeepsSuperseded.refl _⟩
  · have hr : w.revives c.store = false := by simpa [keepsSuperseded, hwriting] using hC
    rw [heq]
    exact ⟨cover_apply hrows.1 hw hr hc, superseded_apply hw hr⟩
  · obtain ⟨old, -, -, heq⟩ := offloadMove_cases henv
    rw [heq]
    exact ⟨hc, KeepsSuperseded.refl c.store⟩

theorem coverage_holds {c : Config Ledger Proc}
    (h : (program cfg).Reach (fun c e => keepsSuperseded cfg c e = true) fresh c) :
    (rowsOutline cfg).Holds c ∧ (c.store.shards ≠ [] → Covered c.store) := by
  refine Program.Reach.invariant (program cfg)
    (I := fun c => (rowsOutline cfg).Holds c ∧ (c.store.shards ≠ [] → Covered c.store))
    ?_ h ⟨fresh_holds cfg, fun hne => absurd rfl hne⟩
  intro c e c' ⟨hrows, hc⟩ hC hstep
  exact ⟨((rowsOutline cfg).step hrows trivial hstep).1, (coverage_step hrows hC hstep hc).1⟩

/-- **Covered once.**  In every run that saves nothing over a superseded row, each source row of the
    adopted plan belongs to exactly one active shard, active shards hold no other rows, and
    SUPERSEDED is final. -/
theorem covered_once (cfg : Settings) {c : Config Ledger Proc}
    (h : (program cfg).Reach (fun c e => keepsSuperseded cfg c e = true) fresh c) :
    (c.store.shards ≠ [] →
      (∀ row, row < c.store.planned →
        ∃! t, t ∈ c.store.shards ∧ t.status ≠ .superseded ∧ row ∈ t.input) ∧
      ∀ t ∈ c.store.shards, t.status ≠ .superseded → ∀ row ∈ t.input, row < c.store.planned) ∧
    ∀ c', (program cfg).Reach (fun c e => keepsSuperseded cfg c e = true) c c' →
      KeepsSuperseded c.store c'.store := by
  have hmem : ∀ (t : Shard) (row : Nat), row ∈ t.covers ↔ t.status ≠ .superseded ∧ row ∈ t.input := by
    intro t row
    by_cases hsup : t.status = .superseded <;> simp [Shard.covers, hsup]
  refine ⟨fun hne => ?_, fun c' hrun => ?_⟩
  · have hcover := (coverage_holds h).2 hne
    refine ⟨fun row hrow => ?_, fun t ht hactive row hrow => ?_⟩
    · simpa only [hmem] using
        Table.existsUnique_of_cover hcover List.nodup_range (List.mem_range.mpr hrow)
    · have hin : row ∈ c.store.shards.flatMap Shard.covers :=
        List.mem_flatMap.mpr ⟨t, ht, (hmem t row).mpr ⟨hactive, hrow⟩⟩
      exact List.mem_range.mp (hcover.mem_iff.mp hin)
  · induction hrun with
    | refl => exact KeepsSuperseded.refl _
    | tail hmid hnext ih =>
      obtain ⟨e, hC, hstep⟩ := hnext
      obtain ⟨hrows, hc⟩ := coverage_holds (h.trans hmid)
      exact ih.trans (coverage_step hrows hC hstep hc).2

/-! ## Concrete runs -/

/-- The refused shard after a reconciler has synced it. -/
def refusedShard : Shard where
  index := 0
  input := [0, 1]
  orchestrationJob := some 0
  status := .failed
  error := "output_exceeds_max_bytes"

/-- The adopted shard is refused for the size of its output. -/
def refused : List (Event Proc Reply (Nat × Orchestration.Job)) :=
  adopted ++ [.env (0, { operation := "", status := .failed, error := "output_exceeds_max_bytes" })]

/-- One reconciler replans the shard. -/
def replanned : List (Event Proc Reply (Nat × Orchestration.Job)) :=
  refused ++ [.spawn .reconcile, .act 1 .ok, .act 1 .ok, .act 1 .ok, .act 1 .ok, .act 1 .ok]

/-- A second reconciler has read the same shard, and saves its copy after the replan. -/
def revived : List (Event Proc Reply (Nat × Orchestration.Job)) :=
  refused ++ [.spawn .reconcile, .spawn .reconcile, .act 1 .ok, .act 1 .ok, .act 2 .ok, .act 2 .ok,
    .act 1 .ok, .act 2 .ok, .act 1 .ok, .act 1 .ok, .act 2 .ok]

theorem covered_once_replanned : ∃ c : Config Ledger Proc,
    (program toySettings).run fresh replanned = some c ∧ c.store.planned = 2 ∧
      ∃! t, t ∈ c.store.shards ∧ t.status ≠ .superseded ∧ 1 ∈ t.input := by
  refine ⟨_, rfl, rfl, ?_⟩
  have hrun := covered_once toySettings (Program.runWhen_reach _ replanned rfl)
  exact (hrun.1 (by decide)).1 1 (by decide)

/-- Without the condition a row is covered twice: the refused shard, superseded by one reconciler,
    is saved as FAILED by another, and is active beside its own two halves. -/
theorem covered_twice : ¬ ∀ (cfg : Settings) (c : Config Ledger Proc),
    (program cfg).Reach Program.Any fresh c → c.store.shards ≠ [] →
      ∀ row, row < c.store.planned →
        ∃! t, t ∈ c.store.shards ∧ t.status ≠ .superseded ∧ row ∈ t.input := by
  intro hlaw
  obtain ⟨t, -, huniq⟩ := hlaw toySettings _ (Program.run_reach _ revived rfl) (by decide) 0
    (by decide)
  have hfirst := huniq refusedShard (by decide)
  have hhalf := huniq { index := 1, input := [0] } (by decide)
  exact absurd (hfirst.trans hhalf.symm) (by decide)

end ControlPlane.Extraction
