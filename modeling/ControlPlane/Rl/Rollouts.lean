/-
  ROLLOUTS IN THE TABLES: which lines of an accepted payload become trajectories.

  The Arrow shard has a row for every line.  The tables have a row for every TRACE: a run holds one
  trajectory for each trace digest, so lines that carry the same `trace` (or none but the same whole
  line) are written over one another, and the last of them stays with its task key, reward and
  verdict (`rollouts_kept`).  The two counts agree exactly when no two lines share a digest.  What
  does not depend on that: the tables are a function of the payload, so ingesting it again changes
  nothing, and an ingestion that raises changes nothing either.
-/
import ControlPlane.Fallible
import ControlPlane.Rl.Ingest

namespace ControlPlane.Rl

open ControlPlane.Fallible ControlPlane.Table
open ControlPlane.Orchestration (StoredArrowArtifact raised)

variable {py : Ingestion} {w w' : Weather} {tenantId runId : String} {payload : List UInt8}
  {l l' : Ledger} {rows : List Trace} {artifact : StoredArrowArtifact} {d d' : Descriptor}

/-! ## The stages of an ingestion -/

/-- A row for each line that is not blank. -/
theorem parseTraces_ok (h : parseTraces py payload = .ok rows) :
    List.Forall₂ (fun line row => parseLine py line = .ok row) (traceLines payload) rows := by
  obtain ⟨rows', hrows, hnonempty⟩ := bind_ok.mp h
  split at hnonempty
  · cases hnonempty
  · cases hnonempty
    exact mapM_ok.mp hrows

/-- The shard is determined by the payload, not by the weather. -/
theorem writeShard_ok {table : List (PyStr × PyStr × PyFloat × PyStr × PyFloat × PyStr)}
    {artifactKey : String} (h : writeShard py w tenantId artifactKey table = .ok artifact) :
    artifact = shardArtifact py artifactKey table := by
  obtain ⟨_, -, h⟩ := bind_ok.mp h
  split at h
  · cases h
  · obtain ⟨_, -, h⟩ := bind_ok.mp h
    obtain ⟨_, -, h⟩ := bind_ok.mp h
    exact (Except.ok.inj h).symm

theorem publishShard_ok (h : publishShard py w tenantId runId payload = .ok (rows, artifact)) :
    parseTraces py payload = .ok rows ∧
    ∃ artifactKey, rlArtifactKey py tenantId runId payload = .ok artifactKey ∧
      artifact = shardArtifact py artifactKey (rows.map Trace.arrowRow) := by
  obtain ⟨rows', hparse, h⟩ := bind_ok.mp h
  obtain ⟨table, htable, h⟩ := bind_ok.mp h
  obtain ⟨artifactKey, hkey, h⟩ := bind_ok.mp h
  obtain ⟨artifact', hartifact, h⟩ := bind_ok.mp h
  cases h
  have htable : table = rows.map Trace.arrowRow := by
    unfold fromPylist at htable
    split at htable
    · cases htable
    · exact (Except.ok.inj htable).symm
  refine ⟨mapError_ok.mp hparse, artifactKey, mapError_ok.mp hkey, ?_⟩
  rw [writeShard_ok (mapError_ok.mp hartifact), htable]

/-- An ingestion that returns has minted the rows of its payload. -/
theorem ingest_ok (h : ingestTrajectories py w tenantId runId payload l = (l', .ok d)) :
    ∃ rows artifact, publishShard py w tenantId runId payload = .ok (rows, artifact) ∧
      l' = l.mint rows artifact ∧ d = shardDescriptor artifact := by
  unfold ingestTrajectories at h
  split at h
  · cases h
  · rename_i rows artifact hpublish
    split at h
    · cases h
    · cases h
      exact ⟨rows, artifact, hpublish, rfl, rfl⟩

/-- An ingestion that raises leaves the tables as they were. -/
theorem ingest_error {e : PyError}
    (h : ingestTrajectories py w tenantId runId payload l = (l', .error e)) : l' = l := by
  unfold ingestTrajectories at h
  split at h
  · cases h
    rfl
  · split at h <;> cases h
    rfl

/-! ## The tables afterwards -/

/-- The digests of the trajectories of some rows are those of the rows. -/
theorem digests_trajectory (shardKey : String) (rows : List Trace) :
    (rows.map (Trace.trajectory shardKey)).map Trajectory.traceDigest =
      rows.map Trace.traceDigest := by
  rw [List.map_map]
  rfl

/-- The last row with a digest becomes the last trajectory with it. -/
theorem lastOf_trajectory {shardKey : String} {t : Trajectory} :
    LastOf Trajectory.traceDigest (rows.map (Trace.trajectory shardKey)) t ↔
      ∃ row, LastOf Trace.traceDigest rows row ∧ t = row.trajectory shardKey := by
  constructor
  · rintro ⟨before, after, heq, hlater⟩
    obtain ⟨rowsBefore, rest, rfl, rfl, hrest⟩ := List.map_eq_append_iff.mp heq
    obtain ⟨row, rowsAfter, rfl, rfl, rfl⟩ := List.map_eq_cons_iff.mp hrest
    exact ⟨row, ⟨rowsBefore, rowsAfter, rfl,
      fun later hmem => hlater _ (List.mem_map_of_mem hmem)⟩, rfl⟩
  · rintro ⟨row, ⟨before, after, rfl, hlater⟩, rfl⟩
    refine ⟨before.map (Trace.trajectory shardKey), after.map (Trace.trajectory shardKey), ?_, ?_⟩
    · rw [List.map_append, List.map_cons]
    · intro later hmem
      obtain ⟨row', hrow', rfl⟩ := List.mem_map.mp hmem
      exact hlater row' hrow'

/-- Minting the same rows twice is minting them once. -/
theorem mint_mint (l : Ledger) (rows : List Trace) (artifact : StoredArrowArtifact) :
    (l.mint rows artifact).mint rows artifact = l.mint rows artifact := by
  have htrajectories : ((l.trajectories.updateOrCreate artifact.artifactKey rows).updateOrCreate
      artifact.artifactKey rows) = l.trajectories.updateOrCreate artifact.artifactKey rows := by
    rw [Trajectories.mk.injEq]
    exact putAll_putAll l.trajectories.unique
  have hdescriptors : ∀ items : List Descriptor,
      (items.filter (fun item => item.kind ≠ "trajectories") ++ [shardDescriptor artifact]).filter
        (fun item => item.kind ≠ "trajectories") = items.filter fun item => item.kind ≠ "trajectories" := by
    intro items
    rw [List.filter_append, List.filter_filter]
    simp [shardDescriptor]
  simp only [Ledger.mint, hdescriptors, htrajectories]

/-- What a second ingestion of the payload publishes, and so mints, is the same. -/
theorem publishShard_same {rows' : List Trace} {artifact' : StoredArrowArtifact}
    (h : publishShard py w tenantId runId payload = .ok (rows, artifact))
    (h' : publishShard py w' tenantId runId payload = .ok (rows', artifact')) :
    rows' = rows ∧ artifact' = artifact := by
  obtain ⟨hparse, key, hkey, hartifact⟩ := publishShard_ok h
  obtain ⟨hparse', key', hkey', hartifact'⟩ := publishShard_ok h'
  obtain rfl : rows = rows' := Except.ok.inj (hparse.symm.trans hparse')
  obtain rfl : key = key' := Except.ok.inj (hkey.symm.trans hkey')
  exact ⟨rfl, hartifact'.trans hartifact.symm⟩

/-- **Rollouts kept.**  After the first ingestion of an accepted payload every line has exactly one
    trajectory under its trace digest, and it is the one of the LAST line with that digest.  The
    published shard counts the lines; the tables count as many exactly when the digests differ.
    Ingesting the payload again, whether it returns or raises, changes nothing. -/
theorem rollouts_kept (hparse : parseTraces py payload = .ok rows)
    (hingest : ingestTrajectories py w tenantId runId payload {} = (l, .ok d)) :
    List.Forall₂ (fun line row => parseLine py line = .ok row) (traceLines payload) rows ∧
    (∀ row ∈ rows, ∃! t, t ∈ l.trajectories.rows ∧ t.traceDigest = row.traceDigest) ∧
    (∀ t, t ∈ l.trajectories.rows ↔
      ∃ row, LastOf Trace.traceDigest rows row ∧ t = row.trajectory d.artifactKey) ∧
    d.rows = some rows.length ∧
    (l.trajectories.rows.length = rows.length ↔ (rows.map Trace.traceDigest).Nodup) ∧
    (∀ w' l' result, ingestTrajectories py w' tenantId runId payload l = (l', result) → l' = l) := by
  obtain ⟨rows', artifact, hpublish, hmint, hd⟩ := ingest_ok hingest
  obtain ⟨hparse', artifactKey, -, hartifact⟩ := publishShard_ok hpublish
  obtain rfl : rows' = rows := Except.ok.inj (hparse'.symm.trans hparse)
  have htables : l.trajectories.rows = putAll Trajectory.traceDigest []
      (rows'.map (Trace.trajectory artifact.artifactKey)) := by rw [hmint]; rfl
  have hmem : ∀ t, t ∈ l.trajectories.rows ↔
      ∃ row, LastOf Trace.traceDigest rows' row ∧ t = row.trajectory d.artifactKey := by
    intro t
    rw [htables, mem_putAll_nil, lastOf_trajectory, hd]
    exact Iff.rfl
  refine ⟨parseTraces_ok hparse, fun row hrow => ?_, hmem, ?_, ?_, ?_⟩
  · obtain ⟨last, hlast, hdigest⟩ := exists_lastOf (List.mem_map_of_mem (f := Trace.traceDigest) hrow)
    refine ⟨last.trajectory d.artifactKey, ⟨(hmem _).mpr ⟨last, hlast, rfl⟩, hdigest⟩, ?_⟩
    rintro t ⟨ht, heq⟩
    exact eq_of_key l.trajectories.unique ht ((hmem _).mpr ⟨last, hlast, rfl⟩)
      (heq.trans hdigest.symm)
  · rw [hd, hartifact]
    show some (rows'.map Trace.arrowRow).length = _
    rw [List.length_map]
  · rw [htables, ← digests_trajectory artifact.artifactKey, ← length_putAll_nil_iff, List.length_map]
  · intro w' l' result hagain
    cases result with
    | error e => exact ingest_error hagain
    | ok d' =>
      obtain ⟨rows'', artifact', hpublish', hmint', -⟩ := ingest_ok hagain
      obtain ⟨rfl, rfl⟩ := publishShard_same hpublish hpublish'
      rw [hmint', hmint, mint_mint]

/-! ## Concrete payloads -/

/-- Sixty-four digits that tell short payloads apart. -/
def toyHexdigest (payload : List UInt8) : String :=
  let n := payload.foldl (fun n byte => (n * 257 + byte.toNat + 1) % 16 ^ 64) 0
  String.ofList ((List.range 64).map fun i =>
    Char.ofNat (let d := n / 16 ^ i % 16; if d < 10 then 48 + d else 87 + d))

/-- A stream is a byte for each row. -/
def toyIngestion : Ingestion where
  repr _ := PyStr.lit "0.0"
  decimal := asciiDecimal
  readDepth := 100
  writeDepth := 100
  maxBytes := 1000
  hexdigest := toyHexdigest
  decode stream := some (PyStr.lit "schema", stream.length)
  traceSchemaJson := PyStr.lit "schema"
  encodeArrowIpc table := table.map fun _ => 0

/-- The store keeps the shard, the database takes every row. -/
def fairWeather (rows : Nat) : Weather where
  put := .ok ()
  readBack := .ok ⟨rows, List.replicate rows 0⟩
  database _ := none

/-- Two rollouts with traces of their own. -/
def twoTraces : List UInt8 :=
  Text.bytes ("\x7b\"task_key\":\"a\",\"trace\":1,\"reward\":1\x7d\n" ++
    "\x7b\"task_key\":\"b\",\"trace\":2,\"reward\":0\x7d\n")

/-- Two rollouts whose trace was left out as null. -/
def nullTraces : List UInt8 :=
  Text.bytes ("\x7b\"task_key\":\"a\",\"trace\":null,\"reward\":1\x7d\n" ++
    "\x7b\"task_key\":\"b\",\"trace\":null,\"reward\":0\x7d\n")

/-- The parts of a payload that is ingested. -/
theorem ingested (payload : List UInt8) (n : Nat)
    (hparse : ((parseTraces toyIngestion payload).toOption.any fun rows =>
      decide (rows.length = 2 ∧ (rows.map Trace.traceDigest).dedup.length = n)) = true)
    (hingest : (ingestTrajectories toyIngestion (fairWeather 2) "t" "r" payload {}).2.isOk = true) :
    ∃ rows l d, parseTraces toyIngestion payload = .ok rows ∧
      ingestTrajectories toyIngestion (fairWeather 2) "t" "r" payload {} = (l, .ok d) ∧
      rows.length = 2 ∧ (rows.map Trace.traceDigest).dedup.length = n := by
  cases hrows : parseTraces toyIngestion payload with
  | error e =>
    rw [hrows] at hparse
    cases hparse
  | ok rows =>
    rw [hrows] at hparse
    have hcounts := of_decide_eq_true hparse
    cases hrun : ingestTrajectories toyIngestion (fairWeather 2) "t" "r" payload {} with
    | mk l result =>
      rw [hrun] at hingest
      cases result with
      | error e => cases hingest
      | ok d => exact ⟨rows, l, d, rfl, rfl, hcounts⟩

theorem rollouts_kept_two : ∃ rows l d, parseTraces toyIngestion twoTraces = .ok rows ∧
    ingestTrajectories toyIngestion (fairWeather 2) "t" "r" twoTraces {} = (l, .ok d) ∧
    rows.length = 2 ∧ l.trajectories.rows.length = rows.length := by
  obtain ⟨rows, l, d, hparse, hingest, hlines, hdigests⟩ :=
    ingested twoTraces 2 (by decide +kernel) (by decide +kernel)
  have hkept := rollouts_kept hparse hingest
  refine ⟨rows, l, d, hparse, hingest, hlines, hkept.2.2.2.2.1.mpr ?_⟩
  have hsame : (rows.map Trace.traceDigest).dedup = rows.map Trace.traceDigest :=
    (List.dedup_sublist _).eq_of_length (by rw [hdigests, List.length_map, hlines])
  exact hsame ▸ List.nodup_dedup _

/-- Two lines without a trace of their own: the second is written over the first, and the tables hold
    one rollout where the shard holds two. -/
theorem rollout_lost : ¬ ∀ (py : Ingestion) (w : Weather) (tenantId runId : String)
    (payload : List UInt8) (rows : List Trace) (l : Ledger) (d : Descriptor),
    parseTraces py payload = .ok rows →
    ingestTrajectories py w tenantId runId payload {} = (l, .ok d) →
    (∀ row ∈ rows, row.trajectory d.artifactKey ∈ l.trajectories.rows) ∧
      l.trajectories.rows.length = rows.length := by
  intro hlaw
  obtain ⟨rows, l, d, hparse, hingest, hlines, -⟩ :=
    ingested nullTraces 1 (by decide +kernel) (by decide +kernel)
  have hcount := (hlaw _ _ _ _ _ _ _ _ hparse hingest).2
  have hone : (ingestTrajectories toyIngestion (fairWeather 2) "t" "r" nullTraces
      {}).1.trajectories.rows.length = 1 := by decide +kernel
  rw [hingest, hcount, hlines] at hone
  cases hone

end ControlPlane.Rl
