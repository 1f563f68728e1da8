/-
  RECONCILING AGAIN: is `reconcile_extraction` of `apps/extraction/tasks.py` idempotent?

  A second call finds every shard as its offload job says, so it has nothing to save; and where the
  first call raised, the second raises at the same shard.  But a shard that failed on the size of its
  output and was REFUSED a replan still has `output_exceeds_max_bytes` in its error, so each call tries
  again, is refused again, and writes the refusal behind the last one, in the shard and in its offload
  job.

  1. `visitShards_frame`: without replacements the first loop changes each shard and its own offload
     job, in their places, and leaves what it has visited settled.
  2. `refused_again`: behind the shards that it passes, a refused shard gets a longer error, and is in
     the next call where it was.
  3. `reconcile_idempotent_iff`: so a second call changes nothing exactly when no shard was refused.
-/
import ControlPlane.Extraction.Reconcile
import ControlPlane.Extraction.Rows

namespace ControlPlane.Extraction

open ControlPlane.Bucket

variable {cfg : Settings} {w w' : Weather} {l l' : Ledger} {s s' t : Shard} {p p' : Pass}
  {done rest before after : List Shard} {objects objects' : Objects (List Nat)}
  {raised : Option PlanError} {message : String}

/-! ## Shards and their versions -/

/-- The unique columns of the shards: the index, and the offload job. -/
structure Constraints (l : Ledger) : Prop where
  indices : (l.shards.map Shard.index).Nodup
  links : (l.shards.filterMap Shard.orchestrationJob).Nodup

/-- Two versions of one row. -/
structure Version (s t : Shard) : Prop where
  index : t.index = s.index
  input : t.input = s.input
  link : t.orchestrationJob = s.orchestrationJob
  superseded : t.status = .superseded ↔ s.status = .superseded

theorem Version.refl (s : Shard) : Version s s := ⟨rfl, rfl, rfl, Iff.rfl⟩

theorem Version.refls (rows : List Shard) : List.Forall₂ Version rows rows :=
  List.forall₂_same.mpr fun s _ => .refl s

/-- The same rows in other versions. -/
def Versions (l l' : Ledger) : Prop := List.Forall₂ Version l.shards l'.shards

theorem versions_map {α : Type} {f : Shard → α} (hf : ∀ s t, Version s t → f t = f s)
    {rows rows' : List Shard} (h : List.Forall₂ Version rows rows') : rows'.map f = rows.map f := by
  induction h with
  | nil => rfl
  | cons hst _ ih => rw [List.map_cons, List.map_cons, hf _ _ hst, ih]

theorem versions_links {rows rows' : List Shard} (h : List.Forall₂ Version rows rows') :
    rows'.filterMap Shard.orchestrationJob = rows.filterMap Shard.orchestrationJob := by
  induction h with
  | nil => rfl
  | cons hst _ ih => rw [List.filterMap_cons, List.filterMap_cons, hst.link, ih]

theorem Constraints.versions (hc : Constraints l) (h : Versions l l') : Constraints l' :=
  ⟨by rw [versions_map (fun _ _ hst => hst.index) h]; exact hc.indices,
    by rw [versions_links h]; exact hc.links⟩

theorem Versions.symm (h : Versions l l') : Versions l' l :=
  h.flip.imp fun _ _ hst => ⟨hst.index.symm, hst.input.symm, hst.link.symm, hst.superseded.symm⟩

/-- `replan_shard` does not tell versions apart. -/
theorem Versions.same (h : Versions l l') (hst : Version s t) : SameShard l l' s t := by
  refine ⟨hst.index.symm, hst.input.symm, ?_, ?_⟩
  · rw [Ledger.nextIndex, Ledger.nextIndex, versions_map (fun _ _ hst => hst.index) h]
  · rw [hst.index]
    unfold Ledger.shard?
    unfold Versions at h
    generalize l.shards = rows at h ⊢
    generalize l'.shards = rows' at h ⊢
    induction h with
    | nil => rfl
    | @cons u v _ _ huv _ ih =>
      rw [List.find?_cons, List.find?_cons, huv.index]
      cases u.index == s.index with
      | true => exact congrArg some (propext huv.superseded.symm)
      | false => exact ih

/-! ## What a shard is for the loop -/

/-- The shard object after `_sync_shard`, if its offload job is there. -/
def Ledger.synced (l : Ledger) (s : Shard) : Option Shard :=
  match s.orchestrationJob with
  | none => some s
  | some offload => (l.offloads[offload]?).map s.sync

/-- Failed on the size of its output. -/
def Shard.Oversize (s : Shard) : Prop :=
  s.status = .failed ∧ Text.contains "output_exceeds_max_bytes" s.error = true

/-- There is nothing to replan. -/
def PassedBy (l : Ledger) (s : Shard) : Prop :=
  s.status = .superseded ∨ ∃ t, l.synced s = some t ∧ ¬ t.Oversize

/-- The replan of a shard is refused with this message. -/
def Refused (cfg : Settings) (w : Weather) (l : Ledger) (s : Shard) (message : String) : Prop :=
  w.misconfigured = none ∧ ∃ e : PlanError, e.refusal = some message ∧
    ∀ planning objects, (replanShard planning cfg (w.replan s.index) l s objects).1 = .error e

/-- The replan of a shard raises what the loop does not catch. -/
def Raises (cfg : Settings) (w : Weather) (l : Ledger) (s : Shard) : Prop :=
  w.misconfigured ≠ none ∨ ∃ e : PlanError, e.refusal = none ∧
    ∀ planning objects, (replanShard planning cfg (w.replan s.index) l s objects).1 = .error e

/-- A shard is as its offload job says. -/
def Settled (l : Ledger) (s : Shard) : Prop := s.status = .superseded ∨ l.synced s = some s

/-- The same world, but for the ids of what is planned and for the broker. -/
structure Weather.Alike (w w' : Weather) : Prop where
  misconfigured : w'.misconfigured = w.misconfigured
  replan : w'.replan = w.replan

theorem Refused.again (h : Refused cfg w l s message) (hw : w.Alike w') (hl : Versions l l')
    (hst : Version s t) : Refused cfg w' l' t message := by
  obtain ⟨hconfigured, e, he, hraises⟩ := h
  refine ⟨hw.misconfigured.trans hconfigured, e, he, fun planning objects => ?_⟩
  rw [hw.replan, hst.index, ← hraises planning objects]
  exact (replanShard_agree (hl.same hst) _ _).symm

theorem Raises.again (h : Raises cfg w l s) (hw : w.Alike w') (hl : Versions l l')
    (hst : Version s t) : Raises cfg w' l' t := by
  rcases h with hconfigured | ⟨e, he, hraises⟩
  · exact .inl (hw.misconfigured ▸ hconfigured)
  · refine .inr ⟨e, he, fun planning objects => ?_⟩
    rw [hw.replan, hst.index, ← hraises planning objects]
    exact (replanShard_agree (hl.same hst) _ _).symm

/-! ## Synced copies -/

theorem synced_version (hactive : s.status ≠ .superseded) (h : l.synced s = some t) :
    Version s t ∧ t.status ≠ .superseded := by
  unfold Ledger.synced at h
  split at h
  · obtain rfl := Option.some.inj h
    exact ⟨.refl s, hactive⟩
  · obtain ⟨row, -, rfl⟩ := Option.map_eq_some_iff.mp h
    have hnot := sync_not_superseded (s := s) row
    exact ⟨⟨rfl, rfl, rfl, iff_of_false hnot hactive⟩, hnot⟩

/-- A synced copy is as its offload job says. -/
theorem synced_settled (h : l.synced s = some t) : l.synced t = some t := by
  unfold Ledger.synced at h
  split at h
  · rename_i hlink
    obtain rfl := Option.some.inj h
    simp only [Ledger.synced, hlink]
  · rename_i offload hlink
    obtain ⟨row, hrow, rfl⟩ := Option.map_eq_some_iff.mp h
    have hlink' : (s.sync row).orchestrationJob = some offload := hlink
    simp only [Ledger.synced, hlink', hrow, Option.map_some]
    rfl

/-- Only its own offload job matters. -/
theorem synced_congr (h : ∀ o, s.orchestrationJob = some o → l'.offloads[o]? = l.offloads[o]?) :
    l'.synced s = l.synced s := by
  unfold Ledger.synced
  split
  · rfl
  · rename_i offload hlink
    rw [h offload hlink]

/-! ## One shard of the loop -/

/-- The body of the first loop. -/
def visitShard (cfg : Settings) (w : Weather) (s : Shard) (p : Pass) : Pass × Option PlanError :=
  if s.status = .superseded then (p, none)
  else match syncShard cfg p.ledger s with
    | .error e => (p, some e)
    | .ok (l, s) =>
        let p := { p with ledger := l }
        if s.status = .failed ∧ Text.contains "output_exceeds_max_bytes" s.error then
          replanRefused cfg w s p
        else (p, none)

theorem visitShards_cons : visitShards cfg w (s :: rest) p = match visitShard cfg w s p with
    | (p, some e) => (p, some e)
    | (p, none) => visitShards cfg w rest p := by
  rw [visitShards, visitShard]
  split
  · rfl
  · cases syncShard cfg p.ledger s with
    | error e => rfl
    | ok ls =>
      obtain ⟨l, s⟩ := ls
      dsimp only
      split
      · generalize replanRefused cfg w s { p with ledger := l } = x
        obtain ⟨q, _ | e⟩ := x <;> rfl
      · rfl

/-- The row in the middle of the table is written. -/
theorem modifyShard_split (hrows : l.shards = done ++ s :: rest) (hc : Constraints l)
    (f : Shard → Shard) : l.modifyShard s.index f = { l with shards := done ++ f s :: rest } := by
  have hnodup := hc.indices
  rw [hrows, List.map_append, List.map_cons] at hnodup
  have hbefore : ∀ t ∈ done, t.index ≠ s.index := fun t ht hindex =>
    List.disjoint_of_nodup_append hnodup (List.mem_map_of_mem ht) (hindex ▸ List.mem_cons_self)
  have hafter : ∀ t ∈ rest, t.index ≠ s.index := fun t ht hindex =>
    (List.nodup_cons.mp hnodup.of_append_right).1 (hindex ▸ List.mem_map_of_mem ht)
  have hsame : ∀ {rows : List Shard}, (∀ t ∈ rows, t.index ≠ s.index) →
      Table.modify Shard.index s.index f rows = rows := fun h =>
    (List.map_congr_left fun t ht => if_neg (h t ht)).trans (List.map_id _)
  rw [Ledger.modifyShard, hrows]
  congr 1
  rw [Table.modify, List.map_append, List.map_cons, if_pos rfl]
  exact congrArg₂ _ (hsame hbefore) (congrArg _ (hsame hafter))

theorem syncShard_split (hrows : l.shards = done ++ s :: rest) (hc : Constraints l)
    (h : l.synced s = some t) :
    syncShard cfg l s = .ok ({ l with shards := done ++ t :: rest }, t) := by
  have hsame : ({ l with shards := done ++ s :: rest } : Ledger) = l := by rw [← hrows]
  cases hlink : s.orchestrationJob with
  | none =>
    simp only [Ledger.synced, hlink] at h
    obtain rfl := Option.some.inj h
    simp only [syncShard, hlink, hsame]
  | some offload =>
    simp only [Ledger.synced, hlink] at h
    obtain ⟨row, hrow, rfl⟩ := Option.map_eq_some_iff.mp h
    simp only [syncShard, hlink, hrow]
    split
    · rename_i heq
      rw [heq, hsame]
    · exact congrArg (fun l => Except.ok (l, s.sync row)) (modifyShard_split hrows hc _)

/-- Without its offload job it is not synced at all. -/
theorem syncShard_dangling (h : l.synced s = none) : ∃ e, syncShard cfg l s = .error e := by
  cases hlink : s.orchestrationJob with
  | none =>
    simp only [Ledger.synced, hlink] at h
    cases h
  | some offload =>
    simp only [Ledger.synced, hlink] at h
    simp only [syncShard, hlink, Option.map_eq_none_iff.mp h]
    exact ⟨_, rfl⟩

/-- A refused shard. -/
def Shard.refuse (s : Shard) (message : String) : Shard :=
  { s with error := s.error ++ "; replan refused: " ++ message }

/-- The offload jobs after the refusal of a shard. -/
def refuseOffloads (offloads : List Orchestration.Job) (s : Shard) (message : String) :
    List Orchestration.Job :=
  match s.orchestrationJob with
  | none => offloads
  | some offload => offloads.modify offload fun row => { row with error := (s.refuse message).error }

theorem refuseReplan_split (hrows : l.shards = done ++ s :: rest) (hc : Constraints l) :
    refuseReplan cfg l s message = { l with
      shards := done ++ s.refuse message :: rest
      offloads := refuseOffloads l.offloads s message } := by
  have hsave : l.apply cfg (.saveShardError s.index (s.error ++ "; replan refused: " ++ message)) =
      { l with shards := done ++ s.refuse message :: rest } := modifyShard_split hrows hc _
  unfold refuseReplan refuseOffloads
  dsimp only
  rw [hsave]
  cases s.orchestrationJob <;> rfl

/-- What a visit does that creates no replacement. -/
inductive Visit (cfg : Settings) (w : Weather) (l : Ledger) (done rest : List Shard) (s : Shard) :
    Ledger → Option PlanError → Prop
  | superseded (h : s.status = .superseded) : Visit cfg w l done rest s l none
  | dangling (e : PlanError) (h : s.status ≠ .superseded) (hsync : l.synced s = none) :
      Visit cfg w l done rest s l (some e)
  | passed {t : Shard} (h : s.status ≠ .superseded) (hsync : l.synced s = some t)
      (hfits : ¬ t.Oversize) :
      Visit cfg w l done rest s { l with shards := done ++ t :: rest } none
  | raised {t : Shard} (e : PlanError) (h : s.status ≠ .superseded) (hsync : l.synced s = some t)
      (hover : t.Oversize) (hraises : Raises cfg w l s) :
      Visit cfg w l done rest s { l with shards := done ++ t :: rest } (some e)
  | refused {t : Shard} {message : String} (h : s.status ≠ .superseded)
      (hsync : l.synced s = some t) (hover : t.Oversize) (hrefused : Refused cfg w l s message) :
      Visit cfg w l done rest s { l with
        shards := done ++ t.refuse message :: rest
        offloads := refuseOffloads l.offloads t message } none

theorem createReplacements_length {created : List Shard} :
    (createReplacements cfg created p).1.ledger.shards.length = p.ledger.shards.length := by
  induction created generalizing p with
  | nil => rfl
  | cons s rest ih =>
    rw [createReplacements]
    split
    · rfl
    · exact ih.trans (List.length_map _)

/-- The shards in a version of the table around a row. -/
theorem versions_split (hrows : l.shards = done ++ s :: rest) (hst : Version s t) :
    Versions l { l with shards := done ++ t :: rest } := by
  rw [Versions, hrows]
  exact List.rel_append (Version.refls done) (.cons hst (Version.refls rest))

theorem shard?_split (hrows : l.shards = done ++ s :: rest) (hc : Constraints l) :
    l.shard? s.index = some s := by
  have hs : s ∈ l.shards := hrows ▸ List.mem_append_right _ List.mem_cons_self
  have hsome : (l.shard? s.index).isSome = true :=
    List.find?_isSome.mpr ⟨s, hs, beq_self_eq_true _⟩
  obtain ⟨t, ht⟩ := Option.isSome_iff_exists.mp hsome
  rw [ht, Table.eq_of_key hc.indices (List.mem_of_find?_eq_some ht) hs
    (by simpa using List.find?_some ht)]

/-- **One visit**: it makes the table longer, or it is a `Visit`. -/
theorem visitShard_cases (hrows : p.ledger.shards = done ++ s :: rest) (hc : Constraints p.ledger)
    (h : visitShard cfg w s p = (p', raised)) :
    p.ledger.shards.length < p'.ledger.shards.length ∨
      (Visit cfg w p.ledger done rest s p'.ledger raised ∧ p'.new = p.new) := by
  unfold visitShard at h
  split at h
  · rename_i hsup
    obtain ⟨rfl, rfl⟩ := Prod.mk.inj h
    exact .inr ⟨.superseded hsup, rfl⟩
  rename_i hactive
  cases hsync : p.ledger.synced s with
  | none =>
    obtain ⟨e, he⟩ := @syncShard_dangling cfg _ _ hsync
    rw [he] at h
    obtain ⟨rfl, rfl⟩ := Prod.mk.inj h
    exact .inr ⟨.dangling e hactive hsync, rfl⟩
  | some t =>
    rw [syncShard_split hrows hc hsync] at h
    dsimp only at h
    split at h
    swap
    · rename_i hfits
      obtain ⟨rfl, rfl⟩ := Prod.mk.inj h
      exact .inr ⟨.passed hactive hsync hfits, rfl⟩
    rename_i hover
    obtain ⟨hst, hnot⟩ := synced_version hactive hsync
    have hl := versions_split hrows hst
    have hrows₁ : ({ p.ledger with shards := done ++ t :: rest } : Ledger).shards =
        done ++ t :: rest := rfl
    have hc₁ : Constraints { p.ledger with shards := done ++ t :: rest } := hc.versions hl
    have hlength : (done ++ t :: rest).length = p.ledger.shards.length := by
      simp [hrows]
    unfold replanRefused at h
    split at h
    · rename_i detail hmisconfigured
      obtain ⟨rfl, rfl⟩ := Prod.mk.inj h
      exact .inr ⟨.raised _ hactive hsync hover (.inl (by simp [hmisconfigured])), rfl⟩
    rename_i hconfigured
    split at h
    · -- the replan succeeds, and the shard was active
      rename_i created l₁ objects₁ hreplan
      obtain ⟨-, locked, hlocked, hcases⟩ := replanShard_ok hreplan
      rw [shard?_split hrows₁ hc₁] at hlocked
      obtain rfl := Option.some.inj hlocked
      rcases hcases with ⟨hsup, -⟩ | ⟨-, rfl, -⟩
      · exact absurd hsup hnot
      · have hcreated := congrArg (fun x => x.1.ledger.shards.length) h
        rw [createReplacements_length] at hcreated
        refine .inl (lt_of_lt_of_eq ?_ hcreated)
        simp only [Ledger.apply, Ledger.replacements, List.length_append, Table.modify,
          List.length_map, List.length_cons, List.length_nil]
        rw [hrows]
        simp
    · rename_i e l₁ objects₁ hreplan
      obtain rfl := replanShard_error hreplan
      have hraises : ∀ planning objects,
          (replanShard planning cfg (w.replan s.index) p.ledger s objects).1 = .error e := by
        intro planning objects
        rw [replanShard_agree (hl.same hst) objects p.objects, ← hst.index, hreplan]
      split at h
      · rename_i message hmessage
        obtain ⟨rfl, rfl⟩ := Prod.mk.inj h
        rw [show refuseReplan cfg _ t message = _ from refuseReplan_split hrows₁ hc₁]
        exact .inr ⟨.refused hactive hsync hover ⟨hconfigured, e, hmessage, hraises⟩, rfl⟩
      · rename_i hmessage
        obtain ⟨rfl, rfl⟩ := Prod.mk.inj h
        exact .inr ⟨.raised _ hactive hsync hover (.inr ⟨e, hmessage, hraises⟩), rfl⟩

/-! ## The first loop -/

/-- The loop removes no shard. -/
theorem visitShard_length : p.ledger.shards.length ≤ (visitShard cfg w s p).1.ledger.shards.length := by
  unfold visitShard
  split
  · exact le_rfl
  split
  · exact le_rfl
  rename_i l₁ s₁ hsync
  have hlength : l₁.shards.length = p.ledger.shards.length := by
    unfold syncShard at hsync
    split at hsync
    · cases hsync
      rfl
    split at hsync
    · cases hsync
    split at hsync <;> cases hsync
    · rfl
    · exact List.length_map _
  dsimp only
  split
  swap
  · exact hlength.ge
  unfold replanRefused
  split
  · exact hlength.ge
  split
  · rename_i hreplan
    obtain ⟨-, _, -, hcases⟩ := replanShard_ok hreplan
    rw [createReplacements_length]
    rcases hcases with ⟨-, rfl, -⟩ | ⟨-, rfl, -⟩
    · exact hlength.ge
    · simp only [Ledger.apply, List.length_append, Table.modify, List.length_map, hlength]
      exact Nat.le_add_right _ _
  · rename_i e l₂ objects₂ hreplan
    obtain rfl : l₁ = l₂ := (replanShard_error hreplan).symm
    have hrefuse : ∀ m, (refuseReplan cfg l₁ s₁ m).shards.length = l₁.shards.length := by
      intro m
      unfold refuseReplan
      cases s₁.orchestrationJob <;> exact List.length_map _
    split
    · exact hlength.ge.trans (hrefuse _).ge
    · exact hlength.ge

theorem visitShards_length : p.ledger.shards.length ≤ (visitShards cfg w rest p).1.ledger.shards.length := by
  induction rest generalizing p with
  | nil => exact le_rfl
  | cons s rest ih =>
    have hstep := @visitShard_length cfg w s p
    rw [visitShards_cons]
    generalize visitShard cfg w s p = x at hstep ⊢
    obtain ⟨q, _ | e⟩ := x
    · exact hstep.trans ih
    · exact hstep

/-- A loop that adds no shard adds none in its first visit. -/
theorem visit_length {q : Pass} {e : Option PlanError} (hone : visitShard cfg w s p = (q, e))
    (h : visitShards cfg w (s :: rest) p = (p', raised))
    (hsize : p'.ledger.shards.length = p.ledger.shards.length) :
    q.ledger.shards.length = p.ledger.shards.length := by
  have hfirst := @visitShard_length cfg w s p
  rw [hone] at hfirst
  refine Nat.le_antisymm ?_ hfirst
  rw [visitShards_cons, hone] at h
  cases e with
  | some e =>
    obtain ⟨rfl, -⟩ := Prod.mk.inj h
    exact hsize.le
  | none =>
    have hrest := @visitShards_length cfg w q rest
    rw [show visitShards cfg w rest q = (p', raised) from h] at hrest
    exact hrest.trans hsize.le

/-- What a visit leaves of its row, and of the rest of the ledger. -/
structure Left (l : Ledger) (done rest : List Shard) (s : Shard) (l' : Ledger) (t : Shard) : Prop where
  version : Version s t
  ledger : l' = { l with shards := done ++ t :: rest, offloads := l'.offloads }
  offloads : ∀ o, s.orchestrationJob ≠ some o → l'.offloads[o]? = l.offloads[o]?

theorem refuseOffloads_other {offloads : List Orchestration.Job} {o : Nat}
    (h : s.orchestrationJob ≠ some o) : (refuseOffloads offloads s message)[o]? = offloads[o]? := by
  unfold refuseOffloads
  split
  · rfl
  · rename_i offload hlink
    have hne : offload ≠ o := fun heq => h (hlink.trans (congrArg some heq))
    exact List.getElem?_modify_ne _ _ hne

/-- The offload job of a refused shard says what the shard says. -/
theorem refuse_settled (h : l.synced t = some t) :
    ({ l with shards := rest, offloads := refuseOffloads l.offloads t message } : Ledger).synced
      (t.refuse message) = some (t.refuse message) := by
  cases hlink : t.orchestrationJob with
  | none =>
    have hlink' : (t.refuse message).orchestrationJob = none := hlink
    simp only [Ledger.synced, hlink']
  | some offload =>
    have hlink' : (t.refuse message).orchestrationJob = some offload := hlink
    simp only [Ledger.synced, hlink] at h
    obtain ⟨row, hrow, hsync⟩ := Option.map_eq_some_iff.mp h
    have hget : (refuseOffloads l.offloads t message)[offload]? =
        some { row with error := (t.refuse message).error } := by
      simp only [refuseOffloads, hlink, List.getElem?_modify_eq, hrow]
      rfl
    simp only [Ledger.synced, hlink', hget, Option.map_some, Option.some.injEq]
    have hresync : (t.refuse message).sync { row with error := (t.refuse message).error } =
        { t.sync row with error := (t.refuse message).error } := rfl
    rw [hresync, hsync]
    rfl

theorem Visit.left (hrows : l.shards = done ++ s :: rest) (h : Visit cfg w l done rest s l' raised) :
    ∃ t, Left l done rest s l' t ∧ (raised = none → Settled l' t) := by
  have hsame : l = { l with shards := done ++ s :: rest, offloads := l.offloads } := by rw [← hrows]
  cases h with
  | superseded hsup => exact ⟨s, ⟨.refl s, hsame, fun _ _ => rfl⟩, fun _ => .inl hsup⟩
  | dangling => exact ⟨s, ⟨.refl s, hsame, fun _ _ => rfl⟩, nofun⟩
  | @passed t hactive hsync =>
    exact ⟨t, ⟨(synced_version hactive hsync).1, rfl, fun _ _ => rfl⟩, fun _ => .inr
      ((synced_congr fun _ _ => rfl).trans (synced_settled hsync))⟩
  | @raised t e hactive hsync =>
    exact ⟨t, ⟨(synced_version hactive hsync).1, rfl, fun _ _ => rfl⟩, nofun⟩
  | @refused t message hactive hsync =>
    obtain ⟨hst, -⟩ := synced_version hactive hsync
    exact ⟨t.refuse message, ⟨⟨hst.index, hst.input, hst.link, hst.superseded⟩, rfl,
      fun o ho => refuseOffloads_other (hst.link ▸ ho)⟩, fun _ => .inr (refuse_settled (synced_settled hsync))⟩

/-- What the loop leaves of the rows that it goes through. -/
structure Leaves (l : Ledger) (done rest : List Shard) (l' : Ledger) (rest' : List Shard) : Prop where
  versions : List.Forall₂ Version rest rest'
  ledger : l' = { l with shards := done ++ rest', offloads := l'.offloads }
  offloads : ∀ o, (∀ t ∈ rest, t.orchestrationJob ≠ some o) → l'.offloads[o]? = l.offloads[o]?

theorem Constraints.not_linked (hc : Constraints l) (hrows : l.shards = done ++ s :: rest) {o : Nat}
    (ho : s.orchestrationJob = some o) : ∀ t ∈ done ++ rest, t.orchestrationJob ≠ some o := by
  have hlinks := hc.links
  rw [hrows, List.filterMap_append, List.filterMap_cons, ho] at hlinks
  intro t ht hto
  rcases List.mem_append.mp ht with ht | ht
  · exact List.disjoint_of_nodup_append hlinks (List.mem_filterMap.mpr ⟨t, ht, hto⟩)
      List.mem_cons_self
  · exact (List.nodup_cons.mp hlinks.of_append_right).1 (List.mem_filterMap.mpr ⟨t, ht, hto⟩)

/-- **The first loop**, when it creates no replacement: every shard and its offload job are changed in
    their places, and what was visited is settled. -/
theorem visitShards_frame (hrows : p.ledger.shards = done ++ rest) (hc : Constraints p.ledger)
    (h : visitShards cfg w rest p = (p', raised))
    (hsize : p'.ledger.shards.length = p.ledger.shards.length) :
    p'.new = p.new ∧ ∃ rest', Leaves p.ledger done rest p'.ledger rest' ∧
      (raised = none → ∀ t ∈ rest', Settled p'.ledger t) := by
  induction rest generalizing p done with
  | nil =>
    obtain ⟨rfl, rfl⟩ := Prod.mk.inj h
    refine ⟨rfl, [], ⟨.nil, ?_, fun _ _ => rfl⟩, fun _ t ht => absurd ht List.not_mem_nil⟩
    rw [← hrows]
  | cons s rest ih =>
    cases hvisit : visitShard cfg w s p with
    | mk q e =>
      have hqsize := visit_length hvisit h hsize
      rw [visitShards_cons, hvisit] at h
      obtain ⟨hv, hnew⟩ := (visitShard_cases hrows hc hvisit).resolve_left hqsize.not_gt
      obtain ⟨t, hleft, hsettled⟩ := hv.left hrows
      cases e with
      | some e =>
        obtain ⟨rfl, rfl⟩ := Prod.mk.inj h
        exact ⟨hnew, t :: rest, ⟨.cons hleft.version (Version.refls rest), hleft.ledger,
          fun o ho => hleft.offloads o (ho s List.mem_cons_self)⟩, nofun⟩
      | none =>
        have hqrows : q.ledger.shards = (done ++ [t]) ++ rest := by
          rw [hleft.ledger, List.append_assoc, List.singleton_append]
        have hversions : Versions p.ledger q.ledger := by
          rw [hleft.ledger]
          exact versions_split hrows hleft.version
        have hqc := hc.versions hversions
        obtain ⟨hnew', rest', hleaves, hrest⟩ := ih hqrows hqc h (hsize.trans hqsize.symm)
        refine ⟨hnew'.trans hnew, t :: rest', ⟨.cons hleft.version hleaves.versions, ?_, ?_⟩, ?_⟩
        · rw [hleaves.ledger, hleft.ledger, List.append_assoc, List.singleton_append]
        · intro o ho
          obtain ⟨hs, hrest⟩ := List.forall_mem_cons.mp ho
          exact (hleaves.offloads o hrest).trans (hleft.offloads o hs)
        · intro hraised
          refine List.forall_mem_cons.mpr ⟨?_, hrest hraised⟩
          refine (hsettled rfl).imp id fun hsync => ?_
          rw [synced_congr (l := q.ledger) fun o ho => hleaves.offloads o fun u hu => ?_]
          · exact hsync
          · have hqrows' : q.ledger.shards = done ++ t :: rest := by
              rw [hqrows, List.append_assoc, List.singleton_append]
            exact hqc.not_linked hqrows' ho u (List.mem_append_right _ hu)

/-- A row that is passed and as its offload job says is passed without a change. -/
def Quiet (l : Ledger) (s : Shard) : Prop :=
  s.status = .superseded ∨ l.synced s = some s ∧ ¬ s.Oversize

theorem Quiet.passedBy (h : Quiet l s) : PassedBy l s := h.imp id fun ⟨hsync, hfits⟩ => ⟨s, hsync, hfits⟩

/-- **What is passed** is synced in its place, and quiet from then on. -/
theorem visitShards_passed (hrows : p.ledger.shards = done ++ (before ++ after))
    (hc : Constraints p.ledger) (hpassed : ∀ t ∈ before, PassedBy p.ledger t) :
    ∃ before' q, visitShards cfg w (before ++ after) p = visitShards cfg w after q ∧
      q.ledger = { p.ledger with shards := done ++ (before' ++ after) } ∧ q.new = p.new ∧
      List.Forall₂ Version before before' ∧ (∀ t ∈ before', Quiet p.ledger t) ∧
      ((∀ t ∈ before, Quiet p.ledger t) → before' = before) := by
  induction before generalizing p done with
  | nil =>
    refine ⟨[], p, rfl, ?_, rfl, .nil, fun t ht => absurd ht List.not_mem_nil, fun _ => rfl⟩
    rw [List.nil_append] at hrows
    rw [List.nil_append, ← hrows]
  | cons s before ih =>
    obtain ⟨hs, hpassed⟩ := List.forall_mem_cons.mp hpassed
    have hstep : ∃ t q, visitShard cfg w s p = (q, none) ∧
        q.ledger = { p.ledger with shards := done ++ t :: (before ++ after) } ∧ q.new = p.new ∧
          Version s t ∧ Quiet p.ledger t ∧ (Quiet p.ledger s → t = s) := by
      have hsame : p.ledger = { p.ledger with shards := done ++ s :: (before ++ after) } := by
        rw [← List.cons_append, ← hrows]
      rcases hs with hsup | ⟨t, hsync, hfits⟩
      · exact ⟨s, p, if_pos hsup, hsame, rfl, .refl s, .inl hsup, fun _ => rfl⟩
      · by_cases hsup : s.status = .superseded
        · exact ⟨s, p, if_pos hsup, hsame, rfl, .refl s, .inl hsup, fun _ => rfl⟩
        · refine ⟨t, { p with ledger := { p.ledger with shards := done ++ t :: (before ++ after) } }, ?_,
            rfl, rfl, (synced_version hsup hsync).1, .inr ⟨synced_settled hsync, hfits⟩, ?_⟩
          · unfold visitShard
            rw [if_neg hsup, syncShard_split hrows hc hsync]
            exact if_neg hfits
          · rintro (h | ⟨h, -⟩)
            · exact absurd h hsup
            · exact Option.some.inj (hsync.symm.trans h)
    obtain ⟨t, q, hvisit, hq, hnew, hst, hquiet, hunchanged⟩ := hstep
    have hqrows : q.ledger.shards = (done ++ [t]) ++ (before ++ after) := by
      rw [hq, List.append_assoc, List.singleton_append]
    have hqc : Constraints q.ledger := by
      rw [hq]
      exact hc.versions (versions_split hrows hst)
    have hsynced : ∀ u, q.ledger.synced u = p.ledger.synced u := fun u =>
      synced_congr fun o _ => by rw [hq]
    have hpassed' : ∀ u ∈ before, PassedBy q.ledger u := fun u hu => by
      rw [PassedBy, hsynced]
      exact hpassed u hu
    obtain ⟨before', q', hloop, hq', hnew', hversions, hquiets, hsame⟩ := ih hqrows hqc hpassed'
    refine ⟨t :: before', q', ?_, ?_, hnew'.trans hnew, .cons hst hversions, ?_, ?_⟩
    · rw [List.cons_append, visitShards_cons, hvisit]
      exact hloop
    · rw [hq', hq, List.append_assoc, List.singleton_append, List.cons_append]
    · refine List.forall_mem_cons.mpr ⟨hquiet, fun u hu => ?_⟩
      have h := hquiets u hu
      rwa [Quiet, hsynced] at h
    · intro hall
      obtain ⟨hs, hbefore⟩ := List.forall_mem_cons.mp hall
      rw [hunchanged hs, hsame fun u hu => by rw [Quiet, hsynced]; exact hbefore u hu]

/-! ## The second loop -/

theorem syncActive_settled {seen : List Shard} (h : ∀ t ∈ rest, l.synced t = some t) :
    syncActive cfg rest seen l = (l, .ok (seen ++ rest)) := by
  induction rest generalizing seen with
  | nil => rw [syncActive, List.append_nil]
  | cons s rest ih =>
    obtain ⟨hs, hrest⟩ := List.forall_mem_cons.mp h
    have hsync : syncShard cfg l s = .ok (l, s) := by
      cases hlink : s.orchestrationJob with
      | none => simp only [syncShard, hlink]
      | some offload =>
        simp only [Ledger.synced, hlink] at hs
        obtain ⟨row, hrow, hsame⟩ := Option.map_eq_some_iff.mp hs
        simp only [syncShard, hlink, hrow, hsame, if_true]
    rw [syncActive, hsync]
    dsimp only
    rw [ih hrest, List.append_assoc, List.singleton_append]

/-- The active shards, in the order of the table. -/
def Ledger.active (l : Ledger) : List Shard := l.shards.filter fun t => t.status != .superseded

/-- **A settled table** is folded into the job, and nothing else is saved. -/
theorem foldActive_settled (hnew : p.new = []) (h : ∀ t ∈ p.ledger.shards, Settled p.ledger t) :
    foldActive cfg w p = ({ p.ledger with job := { p.ledger.job with
      status := foldStatus p.ledger.active
      shardCount := p.ledger.active.length
      rowsTotal := rowsTotal p.ledger.active } }, none) := by
  have hactive : ∀ t ∈ p.ledger.active, p.ledger.synced t = some t := by
    intro t ht
    obtain ⟨hmem, hstatus⟩ := List.mem_filter.mp ht
    exact (h t hmem).resolve_left (by simpa using hstatus)
  have hsync := @syncActive_settled cfg _ _ [] hactive
  rw [foldActive, hnew, dispatchReplacements]
  dsimp only
  rw [show (p.ledger.shards.filter fun t => t.status != .superseded) = p.ledger.active from rfl, hsync]
  rfl

/-- The rest of the call removes no shard and adds none. -/
theorem foldActive_length : (foldActive cfg w p).1.shards.length = p.ledger.shards.length := by
  have hdispatch : ∀ (new : List Nat) (l : Ledger),
      (dispatchReplacements cfg w new l).1.shards = l.shards := by
    intro new
    induction new with
    | nil => exact fun _ => rfl
    | cons offload new ih =>
      intro l
      rw [dispatchReplacements]
      split
      · rfl
      · exact ih _
  have hsync : ∀ (rest seen : List Shard) (l : Ledger),
      (syncActive cfg rest seen l).1.shards.length = l.shards.length := by
    intro rest
    induction rest with
    | nil => exact fun _ _ => rfl
    | cons s rest ih =>
      intro seen l
      rw [syncActive]
      split
      · rfl
      · rename_i l₁ s₁ hsync
        refine (ih _ _).trans ?_
        unfold syncShard at hsync
        split at hsync
        · cases hsync
          rfl
        split at hsync
        · cases hsync
        split at hsync <;> cases hsync
        · rfl
        · exact List.length_map _
  have hshards := hdispatch p.new p.ledger
  unfold foldActive
  generalize dispatchReplacements cfg w p.new p.ledger = x at hshards ⊢
  obtain ⟨l₁, _ | e⟩ := x
  · have hlength := hsync (l₁.shards.filter fun t => t.status != .superseded) [] l₁
    dsimp only at hshards ⊢
    generalize syncActive cfg (l₁.shards.filter fun t => t.status != .superseded) [] l₁ = y at hlength ⊢
    obtain ⟨l₂, e | active⟩ := y
    · exact hlength.trans (congrArg _ hshards)
    · exact hlength.trans (congrArg _ hshards)
  · exact congrArg _ hshards

/-! ## A refused shard -/

/-- The first call refuses the shard, behind shards that it passes. -/
structure RefusedAt (cfg : Settings) (w : Weather) (l : Ledger) (before : List Shard) (s t : Shard)
    (after : List Shard) (message : String) : Prop where
  live : l.job.status ≠ .canceled
  rows : l.shards = before ++ s :: after
  passed : ∀ u ∈ before, PassedBy l u
  active : s.status ≠ .superseded
  synced : l.synced s = some t
  oversize : t.Oversize
  refused : Refused cfg w l s message

theorem Refused.not_raises (h : Refused cfg w l s message) : ¬ Raises cfg w l s := by
  obtain ⟨hconfigured, e, he, hraises⟩ := h
  rintro (hmis | ⟨e', he', hraises'⟩)
  · exact hmis hconfigured
  · obtain rfl := Except.error.inj ((hraises (w.planning 0) []).symm.trans (hraises' (w.planning 0) []))
    rw [he] at he'
    cases he'

theorem Refused.unique {message' : String} (h : Refused cfg w l s message)
    (h' : Refused cfg w l s message') : message = message' := by
  obtain ⟨-, e, he, hraises⟩ := h
  obtain ⟨-, e', he', hraises'⟩ := h'
  obtain rfl := Except.error.inj ((hraises (w.planning 0) []).symm.trans (hraises' (w.planning 0) []))
  exact Option.some.inj (he.symm.trans he')

theorem Weather.Alike.refl (w : Weather) : w.Alike w := ⟨rfl, rfl⟩

theorem refuse_oversize (h : s.Oversize) : (s.refuse message).Oversize := by
  refine ⟨h.1, ?_⟩
  have hin : "output_exceeds_max_bytes".toList <:+: s.error.toList := of_decide_eq_true h.2
  refine decide_eq_true (hin.trans ?_)
  rw [Shard.refuse, String.toList_append, String.toList_append, List.append_assoc]
  exact (List.prefix_append _ _).isInfix

theorem refuse_ne (s : Shard) (message : String) : s.refuse message ≠ s := by
  intro hsame
  have hlength := congrArg (fun t => t.error.toList.length) hsame
  simp only [Shard.refuse, String.toList_append, List.length_append] at hlength
  have hpos : 0 < "; replan refused: ".toList.length := by decide
  omega

theorem all_canceled_of_foldStatus {active : List Shard} (h : foldStatus active = .canceled) :
    ∀ t ∈ active, t.status = .canceled := by
  unfold foldStatus at h
  dsimp only at h
  split at h
  · cases h
  split at h
  · cases h
  split at h
  · rename_i hall
    exact fun t ht => hall.2 _ (List.mem_map_of_mem ht)
  split at h <;> cases h

/-- What the call saves, when the first loop is through. -/
theorem reconcile_of_visit (hlive : l.job.status ≠ .canceled)
    (h : reconcileExtraction cfg w l objects = (l', objects', raised)) :
    ∃ p e, visitShards cfg w l.shards { ledger := l, objects := objects } = (p, e) ∧
      l'.shards.length = p.ledger.shards.length ∧
      (e = none → l' = (foldActive cfg w p).1) ∧ (e ≠ none → l' = p.ledger) := by
  unfold reconcileExtraction at h
  rw [if_neg hlive] at h
  generalize visitShards cfg w l.shards { ledger := l, objects := objects } = x at h ⊢
  obtain ⟨p, _ | e⟩ := x
  · obtain ⟨rfl, -⟩ := Prod.mk.inj h
    exact ⟨p, none, rfl, foldActive_length, fun _ => rfl, fun h => absurd rfl h⟩
  · obtain ⟨rfl, -⟩ := Prod.mk.inj h
    exact ⟨p, some e, rfl, rfl, nofun, fun _ => rfl⟩

/-- **A refused shard** gets the refusal behind its error, and is where it was for the next call. -/
theorem refused_again {t : Shard} (hc : Constraints l) (hw : w.Alike w')
    (hat : RefusedAt cfg w l before s t after message)
    (h : reconcileExtraction cfg w l objects = (l', objects', raised))
    (hsize : l'.shards.length = l.shards.length) :
    Versions l l' ∧ ∃ before' after', before'.length = before.length ∧
      RefusedAt cfg w' l' before' (t.refuse message) (t.refuse message) after' message := by
  obtain ⟨p', e, hvisit, hlength, hfold, hraised⟩ := reconcile_of_visit hat.live h
  obtain ⟨hst, hnot⟩ := synced_version hat.active hat.synced
  have hversion : Version s (t.refuse message) := ⟨hst.index, hst.input, hst.link, hst.superseded⟩
  -- up to the shard
  obtain ⟨before', q, hloop, hq, hnew, hversions, hquiet, -⟩ :=
    @visitShards_passed cfg w ⟨l, objects, []⟩ [] _ _ hat.rows hc hat.passed
  rw [List.nil_append] at hq
  rw [hat.rows, hloop] at hvisit
  have hqv : Versions l q.ledger := by
    rw [Versions, hq, hat.rows]
    exact List.rel_append hversions (Version.refls _)
  have hqc : Constraints q.ledger := hc.versions hqv
  have hqsynced : q.ledger.synced s = some t := by
    rw [← hat.synced]
    exact synced_congr fun _ _ => by rw [hq]
  -- the shard itself
  cases hone : visitShard cfg w s q with
  | mk q₁ e₁ =>
  have hq₁size := visit_length hone hvisit (hlength.symm.trans (hsize.trans hqv.length_eq))
  rw [visitShards_cons, hone] at hvisit
  have hqrows : q.ledger.shards = before' ++ s :: after := by rw [hq]
  obtain ⟨hv, hnew₁⟩ := (visitShard_cases hqrows hqc hone).resolve_left hq₁size.not_gt
  have hqrefused : Refused cfg w q.ledger s message := hat.refused.again (.refl w) hqv (.refl s)
  have hmark : e₁ = none ∧ q₁.ledger = { q.ledger with
      shards := before' ++ t.refuse message :: after
      offloads := refuseOffloads q.ledger.offloads t message } := by
    generalize hl₁ : q₁.ledger = l₁ at hv ⊢
    cases hv with
    | superseded hsup => exact absurd hsup hat.active
    | dangling _ _ hsync =>
      rw [hqsynced] at hsync
      cases hsync
    | passed _ hsync hfits =>
      obtain rfl := Option.some.inj (hqsynced.symm.trans hsync)
      exact absurd hat.oversize hfits
    | raised _ _ _ _ hraises => exact absurd hraises hqrefused.not_raises
    | refused _ hsync _ hrefused =>
      obtain rfl := Option.some.inj (hqsynced.symm.trans hsync)
      obtain rfl := hqrefused.unique hrefused
      exact ⟨rfl, rfl⟩
  obtain ⟨rfl, hq₁⟩ := hmark
  have hq₁v : Versions q.ledger q₁.ledger := by
    rw [hq₁]
    exact versions_split hqrows hversion
  have hq₁c : Constraints q₁.ledger := hqc.versions hq₁v
  have hq₁rows : q₁.ledger.shards = before' ++ t.refuse message :: after := by rw [hq₁]
  have hq₁synced : q₁.ledger.synced (t.refuse message) = some (t.refuse message) := by
    rw [hq₁]
    exact refuse_settled (synced_settled hqsynced)
  -- and the rest of the loop
  have hpsize : p'.ledger.shards.length = q₁.ledger.shards.length := by
    rw [← hlength, hsize, hq₁size]
    exact hqv.length_eq
  obtain ⟨hnew', after', hleaves, hsettled⟩ := @visitShards_frame _ _ _ _
    (before' ++ [t.refuse message]) _ _ (by rw [hq₁rows, List.append_assoc, List.singleton_append]) hq₁c hvisit hpsize
  have hprows : p'.ledger.shards = before' ++ t.refuse message :: after' := by
    rw [hleaves.ledger, List.append_assoc, List.singleton_append]
  have hpv : Versions q₁.ledger p'.ledger := by
    rw [Versions, hq₁rows, hprows]
    exact List.rel_append (Version.refls _) (.cons (.refl _) hleaves.versions)
  have hpsynced : p'.ledger.synced (t.refuse message) = some (t.refuse message) := by
    rw [← hq₁synced]
    exact synced_congr fun o ho => hleaves.offloads o fun u hu =>
      hq₁c.not_linked hq₁rows ho u (List.mem_append_right _ hu)
  have hpquiet : ∀ u ∈ before', Quiet p'.ledger u := by
    intro u hu
    have hother : ∀ o, u.orchestrationJob = some o → p'.ledger.offloads[o]? = l.offloads[o]? := by
      intro o ho
      obtain ⟨first, last, hsplit⟩ := List.append_of_mem hu
      have hu_rows : q.ledger.shards = first ++ u :: (last ++ s :: after) := by
        rw [hqrows, hsplit, List.append_assoc, List.cons_append]
      have hlinks := hqc.not_linked hu_rows ho
      have hs : t.orchestrationJob ≠ some o := fun hto =>
        hlinks s (by simp) (hst.link.symm.trans hto)
      rw [hleaves.offloads o fun v hv => hlinks v (by simp [hv]), hq₁]
      dsimp only
      rw [refuseOffloads_other hs, hq]
    have hu_quiet := hquiet u hu
    rwa [Quiet, ← synced_congr hother] at hu_quiet
  -- what the call saves in the end
  have hend : l'.shards = p'.ledger.shards ∧ l'.offloads = p'.ledger.offloads ∧
      l'.job.status ≠ .canceled := by
    cases e with
    | some e =>
      obtain rfl := hraised (by simp)
      refine ⟨rfl, rfl, ?_⟩
      rw [hleaves.ledger, hq₁, hq]
      exact hat.live
    | none =>
      have hall : ∀ u ∈ p'.ledger.shards, Settled p'.ledger u := by
        intro u hu
        rw [hprows] at hu
        rcases List.mem_append.mp hu with hu | hu
        · exact (hpquiet u hu).imp id And.left
        · rcases List.mem_cons.mp hu with rfl | hu
          · exact .inr hpsynced
          · exact hsettled rfl u hu
      have hnone : p'.new = [] := hnew'.trans (hnew₁.trans hnew)
      have hl' := hfold rfl
      rw [foldActive_settled hnone hall] at hl'
      refine ⟨by rw [hl'], by rw [hl'], fun hcanceled => ?_⟩
      rw [hl'] at hcanceled
      have hmem : t.refuse message ∈ p'.ledger.active :=
        List.mem_filter.mpr ⟨hprows ▸ List.mem_append_right _ List.mem_cons_self, by
          simpa [Shard.refuse] using hnot⟩
      have hstatus := all_canceled_of_foldStatus hcanceled _ hmem
      rw [show (t.refuse message).status = t.status from rfl, hat.oversize.1] at hstatus
      cases hstatus
  obtain ⟨hlshards, hloffloads, hllive⟩ := hend
  have hlsynced : ∀ u, l'.synced u = p'.ledger.synced u := fun u =>
    synced_congr fun _ _ => by rw [hloffloads]
  have hlv : Versions l l' := by
    rw [Versions, hlshards, hprows, hat.rows]
    exact List.rel_append hversions (.cons hversion hleaves.versions)
  refine ⟨hlv, before', after', hversions.length_eq.symm, hllive, hlshards.trans hprows, fun u hu => ?_,
    hnot, (hlsynced _).trans hpsynced, refuse_oversize hat.oversize, hat.refused.again hw hlv hversion⟩
  have hpassed := (hpquiet u hu).passedBy
  rwa [PassedBy, ← hlsynced] at hpassed

/-! ## Two calls -/

/-- A shard whose replan raises what the loop does not catch is where the loop ends. -/
theorem visit_raises {t : Shard} (hrows : p.ledger.shards = done ++ s :: rest)
    (hc : Constraints p.ledger) (hactive : s.status ≠ .superseded) (hsync : p.ledger.synced s = some t)
    (hover : t.Oversize) (hraises : Raises cfg w p.ledger s) : ∃ e q, visitShard cfg w s p = (q, some e) ∧
      q.ledger = { p.ledger with shards := done ++ t :: rest } := by
  obtain ⟨hst, -⟩ := synced_version hactive hsync
  unfold visitShard
  rw [if_neg hactive, syncShard_split hrows hc hsync]
  dsimp only
  rw [if_pos (show t.status = .failed ∧ _ from hover)]
  unfold replanRefused
  cases hconfigured : w.misconfigured with
  | some detail => exact ⟨_, _, rfl, rfl⟩
  | none =>
    obtain ⟨e, he, hraises⟩ := hraises.resolve_left fun h => h hconfigured
    have hagree := @replanShard_agree cfg (w.planning t.index) (w.planning t.index)
      (w.replan s.index) _ _ _ _ ((versions_split hrows hst).same hst) [] p.objects
    rw [hraises, ← hst.index] at hagree
    dsimp only
    generalize hreplan : replanShard (w.planning t.index) cfg (w.replan t.index)
      { p.ledger with shards := done ++ t :: rest } t p.objects = x at hagree ⊢
    obtain ⟨outcome, l₁, objects₁⟩ := x
    obtain rfl : Except.error e = outcome := hagree
    obtain rfl := replanShard_error hreplan
    dsimp only
    rw [he]
    exact ⟨_, _, rfl, rfl⟩

theorem visit_dangling (hactive : s.status ≠ .superseded) (hsync : p.ledger.synced s = none) :
    ∃ e, visitShard cfg w s p = (p, some e) := by
  obtain ⟨e, he⟩ := @syncShard_dangling cfg _ _ hsync
  refine ⟨e, ?_⟩
  unfold visitShard
  rw [if_neg hactive, he]

/-- What ends the loop in one call ends it in the next. -/
theorem stuck_again (hc : Constraints l) (hlive : l.job.status ≠ .canceled)
    (hrows : l.shards = before ++ s :: after) (hquiet : ∀ u ∈ before, Quiet l u)
    (h : ∀ q : Pass, q.ledger = l → ∃ e q₁, visitShard cfg w s q = (q₁, some e) ∧ q₁.ledger = l) :
    (reconcileExtraction cfg w l objects).1 = l := by
  obtain ⟨before', q, hloop, hq, -, -, -, hsame⟩ :=
    @visitShards_passed cfg w ⟨l, objects, []⟩ [] _ _ hrows hc fun u hu => (hquiet u hu).passedBy
  have hql : q.ledger = l := by
    rw [hq, hsame hquiet, List.nil_append]
    exact congrArg (fun rows => ({ l with shards := rows } : Ledger)) hrows.symm
  obtain ⟨e, q₁, hone, hq₁⟩ := h q hql
  have hvisit : visitShards cfg w l.shards ⟨l, objects, []⟩ = (q₁, some e) := by
    rw [hrows, hloop, visitShards_cons, hone]
  rw [reconcileExtraction, if_neg hlive, hvisit]
  exact hq₁

/-- A settled table, folded into the job, stays so. -/
theorem folded_again (hc : Constraints l) (hquiet : ∀ u ∈ l.shards, Quiet l u)
    (hjob : l.job = { l.job with
      status := foldStatus l.active, shardCount := l.active.length, rowsTotal := rowsTotal l.active }) :
    (reconcileExtraction cfg w l objects).1 = l := by
  unfold reconcileExtraction
  split
  · rfl
  obtain ⟨before', q, hloop, hq, hnew, -, -, hsame⟩ :=
    @visitShards_passed cfg w ⟨l, objects, []⟩ [] _ [] (List.append_nil _).symm hc fun u hu => (hquiet u hu).passedBy
  have hql : q.ledger = l := by
    rw [hq, hsame hquiet, List.nil_append, List.append_nil]
  rw [List.append_nil] at hloop
  rw [hloop, visitShards]
  dsimp only
  rw [foldActive_settled hnew (hql ▸ fun u hu => (hquiet u hu).imp id And.left), hql]
  exact congrArg (fun job => ({ l with job := job } : Ledger)) hjob.symm

/-- **Reconciling again** without a change in between leaves every row of the job, of its shards and
    of its offload jobs as it is, when the first call created no replacement and refused no shard, and
    only then. -/
theorem reconcile_idempotent_iff (hc : Constraints l) (hw : w.Alike w')
    (h : reconcileExtraction cfg w l objects = (l', objects', raised))
    (hsize : l'.shards.length = l.shards.length) :
    (reconcileExtraction cfg w' l' objects').1 = l' ↔
      ¬ ∃ before s t after message, RefusedAt cfg w l before s t after message := by
  constructor
  · rintro hagain ⟨before, s, t, after, message, hat⟩
    obtain ⟨hlv, before', after', -, hat'⟩ := refused_again hc hw hat h hsize
    have hrun : reconcileExtraction cfg w' l' objects' =
        (l', (reconcileExtraction cfg w' l' objects').2.1, (reconcileExtraction cfg w' l' objects').2.2) :=
      Prod.ext hagain rfl
    obtain ⟨-, before'', after'', hlength, hat''⟩ :=
      refused_again (hc.versions hlv) (.refl w') hat' hrun rfl
    have hrows := hat'.rows.symm.trans hat''.rows
    obtain ⟨-, hrest⟩ := List.append_inj hrows hlength.symm
    exact refuse_ne _ _ (List.cons.inj hrest).1.symm
  · intro hnone
    by_cases hlive : l.job.status = .canceled
    · rw [reconcileExtraction, if_pos hlive] at h
      obtain ⟨rfl, -⟩ := Prod.mk.inj h
      rw [reconcileExtraction, if_pos hlive]
    obtain ⟨p', e, hvisit, hlength, hfold, hraised⟩ := reconcile_of_visit hlive h
    classical
    cases hfirst : l.shards.find? fun u => decide (¬ PassedBy l u) with
    | none =>
      -- every shard is passed
      have hpassed : ∀ u ∈ l.shards, PassedBy l u := by
        simpa using List.find?_eq_none.mp hfirst
      obtain ⟨rows, q, hloop, hq, hnew, hversions, hquiet, -⟩ :=
        @visitShards_passed cfg w ⟨l, objects, []⟩ [] _ []
          (List.append_nil _).symm hc hpassed
      rw [List.append_nil] at hloop
      rw [hloop, visitShards] at hvisit
      obtain ⟨rfl, rfl⟩ := Prod.mk.inj hvisit
      rw [List.nil_append, List.append_nil] at hq
      have hqsynced : ∀ u, q.ledger.synced u = l.synced u := fun u =>
        synced_congr fun _ _ => by rw [hq]
      have hqquiet : ∀ u ∈ q.ledger.shards, Quiet q.ledger u := by
        intro u hu
        rw [hq] at hu
        rw [Quiet, hqsynced]
        exact hquiet u hu
      have hl' := hfold rfl
      rw [foldActive_settled hnew fun u hu => (hqquiet u hu).imp id And.left] at hl'
      have hqv : Versions l l' := by
        rw [hl', Versions]
        dsimp only
        rw [hq]
        exact hversions
      refine folded_again (hc.versions hqv) (fun u hu => ?_) (by rw [hl']; rfl)
      rw [hl'] at hu
      rw [Quiet, synced_congr (l := q.ledger) fun _ _ => by rw [hl']]
      exact hqquiet u hu
    | some s =>
      -- the loop ends at the first shard that is not passed
      obtain ⟨hs, before, after, hrows, hbefore⟩ := List.find?_eq_some_iff_append.mp hfirst
      have hnot : ¬ PassedBy l s := by simpa using hs
      have hpassed : ∀ u ∈ before, PassedBy l u := by simpa using hbefore
      have hactive : s.status ≠ .superseded := fun hsup => hnot (.inl hsup)
      obtain ⟨before', q, hloop, hq, -, hversions, hquiet, -⟩ :=
        @visitShards_passed cfg w ⟨l, objects, []⟩ [] _ _ hrows hc hpassed
      rw [List.nil_append] at hq
      rw [hrows, hloop] at hvisit
      have hqv : Versions l q.ledger := by
        rw [Versions, hq, hrows]
        exact List.rel_append hversions (Version.refls _)
      have hqc := hc.versions hqv
      have hqrows : q.ledger.shards = before' ++ s :: after := by rw [hq]
      have hqsynced : ∀ u, q.ledger.synced u = l.synced u := fun u =>
        synced_congr fun _ _ => by rw [hq]
      have hqquiet : ∀ u ∈ before', Quiet q.ledger u := fun u hu => by
        rw [Quiet, hqsynced]
        exact hquiet u hu
      have hqlive : q.ledger.job.status ≠ .canceled := by
        rw [hq]
        exact hlive
      cases hsync : l.synced s with
      | none =>
        obtain ⟨e₁, hone⟩ := @visit_dangling cfg w _ _ hactive ((hqsynced s).trans hsync)
        rw [visitShards_cons, hone] at hvisit
        obtain ⟨rfl, rfl⟩ := Prod.mk.inj hvisit
        obtain rfl := hraised (by simp)
        refine stuck_again hqc hqlive hqrows hqquiet fun q' hq' => ?_
        obtain ⟨e₂, htwo⟩ := @visit_dangling cfg w' _ q' hactive
          (by rw [hq', hqsynced, hsync])
        exact ⟨e₂, q', htwo, hq'⟩
      | some t =>
        have hover : t.Oversize := by_contra fun hfits => hnot (.inr ⟨t, hsync, hfits⟩)
        obtain ⟨hst, hsup⟩ := synced_version hactive hsync
        have hqs := (hqsynced s).trans hsync
        have hraises : Raises cfg w q.ledger s := by
          cases hone : visitShard cfg w s q with
          | mk q₁ e₁ =>
          have hq₁size := visit_length hone hvisit (hlength.symm.trans (hsize.trans hqv.length_eq))
          obtain ⟨hv, -⟩ := (visitShard_cases hqrows hqc hone).resolve_left hq₁size.not_gt
          generalize q₁.ledger = l₁ at hv
          cases hv with
          | superseded h => exact absurd h hactive
          | dangling _ _ h =>
            rw [hqs] at h
            cases h
          | passed _ h hfits =>
            obtain rfl := Option.some.inj (hqs.symm.trans h)
            exact absurd hover hfits
          | raised _ _ _ _ hraises => exact hraises
          | @refused _ message _ _ _ hrefused =>
            exact absurd ⟨before, s, t, after, message, hlive, hrows, hpassed, hactive, hsync, hover,
              hrefused.again (.refl w) hqv.symm (.refl s)⟩ hnone
        obtain ⟨e₁, q₁, hone, hq₁⟩ := visit_raises hqrows hqc hactive hqs hover hraises
        rw [visitShards_cons, hone] at hvisit
        obtain ⟨rfl, rfl⟩ := Prod.mk.inj hvisit
        obtain rfl := hraised (by simp)
        have hq₁v : Versions q.ledger q₁.ledger := by
          rw [hq₁]
          exact versions_split hqrows hst
        have hq₁c := hqc.versions hq₁v
        have hq₁rows : q₁.ledger.shards = before' ++ t :: after := by rw [hq₁]
        have hq₁synced : ∀ u, q₁.ledger.synced u = q.ledger.synced u := fun u =>
          synced_congr fun _ _ => by rw [hq₁]
        refine stuck_again hq₁c (by rw [hq₁]; exact hqlive) hq₁rows (fun u hu => ?_) fun q' hq' => ?_
        · rw [Quiet, hq₁synced]
          exact hqquiet u hu
        · have hagain : Raises cfg w' q'.ledger t := hraises.again hw (by rw [hq']; exact hq₁v) hst
          obtain ⟨e₂, q₂, htwo, hq₂⟩ := visit_raises (p := q') (by rw [hq', hq₁rows]) (hq' ▸ hq₁c) hsup
            (by rw [hq', hq₁synced]; exact synced_settled hqs) hover hagain
          refine ⟨e₂, q₂, htwo, hq₂.trans ?_⟩
          rw [hq', ← hq₁rows]

/-! ## Small jobs -/

/-- Nothing goes wrong. -/
def calmWeather : Weather where
  planning _ := toyPlanning
  replan _ := noReplanFaults
  broker _ := some "task"

/-- What a call leaves of a job, when nothing goes wrong. -/
def reconciled (l : Ledger) : Ledger := (reconcileExtraction toySettings calmWeather l []).1

/-- A RUNNING job of one shard of one row. -/
def oneShard (status : Orchestration.Status) (error : String) : Ledger where
  job := { status := .running }
  shards := [{ index := 0, input := [7], orchestrationJob := some 0 }]
  offloads := [{ operation := "data_science.extraction.atlas", status := status, error := error }]

/-- Reconciled again, a job that succeeded stays as it is. -/
theorem reconcile_idempotent_succeeded :
    reconciled (reconciled (oneShard .succeeded "")) = reconciled (oneShard .succeeded "") := by
  have hc : Constraints (oneShard .succeeded "") := ⟨List.nodup_singleton 0, List.nodup_singleton 0⟩
  have hrun : reconcileExtraction toySettings calmWeather (oneShard .succeeded "") [] =
      (reconciled (oneShard .succeeded ""), [], none) := by decide +kernel
  refine (reconcile_idempotent_iff hc (.refl calmWeather) hrun (by decide +kernel)).mpr ?_
  rintro ⟨before, s, t, after, message, hat⟩
  have hs : s ∈ (oneShard .succeeded "").shards :=
    hat.rows ▸ List.mem_append_right _ List.mem_cons_self
  obtain rfl := List.mem_singleton.mp hs
  obtain rfl := Option.some.inj hat.synced
  exact absurd hat.oversize.1 (by decide)

/-- Reconciled again, the refusal of a shard of one row is written a second time, into the shard and
    into its offload job. -/
theorem reconcile_refuses_twice :
    (reconciled (oneShard .failed "output_exceeds_max_bytes")).shards.length = 1 ∧
      reconciled (reconciled (oneShard .failed "output_exceeds_max_bytes")) ≠
        reconciled (oneShard .failed "output_exceeds_max_bytes") := by
  decide +kernel

end ControlPlane.Extraction
