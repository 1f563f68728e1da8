/-
  VERDICTS AND TRIPWIRES: what `parse_traces` guarantees of a row, and with it of the verdict that
  `ingest_trajectories` writes without calling `GraderVerdict.clean`.

  An item may report its tripwires in three places, and the FIRST of them that is present counts:
  `tripwire_flags`, else `metrics.tripwire_flags`, else `info.django_v1.tripwires`.  A row whose
  counting flags fired is accepted only with `resolved` zero (`verdicts_respect_tripwires`); a place
  that is shadowed, even by an empty list, is not looked at (`shadowed_tripwire`).
-/
import ControlPlane.Rl.Rollouts

namespace ControlPlane.Rl

open ControlPlane.Fallible ControlPlane.Table

/-! ## `GraderVerdict.clean` -/

/-- `GraderVerdict.clean`: the field at fault and what is wrong with it. -/
def GraderVerdict.clean (verdict : GraderVerdict) : Except (String × String) Unit :=
  if !(PyFloat.le 0 verdict.resolved && PyFloat.le verdict.resolved 1) then
    .error ("resolved", "must be between 0 and 1")
  else if verdict.tripwireFlags ≠ [] ∧ !verdict.resolved.eq 0 then
    .error ("resolved", "a tripped grader verdict cannot be resolved")
  else .ok ()

/-! ## The tripwires of an item -/

/-- The value under a key, where there is a mapping with the key. -/
def inMapping (value : Json) (key : String) : Option Json :=
  match value with
  | .obj fields => Json.get? fields key
  | _ => none

/-- The places where an item may report its tripwires, in the order in which they are looked at. -/
def tripwireSources (item : List (PyStr × Json)) : List (Option Json) :=
  [Json.get? item "tripwire_flags",
    inMapping (getD item "metrics" (.obj [])) "tripwire_flags",
    (inMapping (getD item "info" (.obj [])) "django_v1").bind fun grader =>
      inMapping grader "tripwires"]

/-- A mapping reports the names whose value is truthy, a list the names in it. -/
def fires : Json → Bool
  | .obj fields => fields.any fun f => f.2.truthy
  | .arr flags => !flags.isEmpty
  | _ => false

/-- What a row owes to its item, where only some of the places count. -/
structure Respects (counts : List (Option Json) → Json → Prop) (py : Ingestion)
    (item : List (PyStr × Json)) (row : Trace) : Prop where
  inRange : PyFloat.le 0 row.resolved = true ∧ PyFloat.le row.resolved 1 = true
  digest : ∃ trace, Json.canonicalJson py.repr (getD item "trace" (.obj item)) = some trace ∧
    row.traceDigest = py.sha256Digest trace
  tripped : ∀ source, counts (tripwireSources item) source → fires source = true → row.resolved = 0

/-- The first place that is present. -/
def First (sources : List (Option Json)) (source : Json) : Prop :=
  sources.findSome? id = some source

/-- Any place that is present. -/
def Anywhere (sources : List (Option Json)) (source : Json) : Prop := some source ∈ sources

/-! ## Accepted rows -/

section Rows

variable {py : Ingestion} {item metrics info : List (PyStr × Json)} {row : Trace} {line : Nat}
  {taskKey : PyStr} {resolved reward : PyFloat}

/-- The flags that are looked at are those of the first place, or none. -/
theorem flagsValue_eq (hmetrics : getD item "metrics" (.obj []) = .obj metrics)
    (hinfo : getD item "info" (.obj []) = .obj info) :
    flagsValue item metrics info = ((tripwireSources item).findSome? id).getD (.obj []) := by
  unfold flagsValue tripwireSources
  rw [hmetrics, hinfo]
  unfold getD inMapping
  dsimp only
  cases Json.get? item "tripwire_flags" with
  | some flags => rfl
  | none =>
    cases Json.get? metrics "tripwire_flags" with
    | some flags => rfl
    | none =>
      cases Json.get? info "django_v1" with
      | none => rfl
      | some grader =>
        cases grader with
        | obj fields =>
          show (Json.get? fields "tripwires").getD (.obj []) =
            (List.findSome? id [none, none, Json.get? fields "tripwires"]).getD (.obj [])
          cases Json.get? fields "tripwires" with
          | none => rfl
          | some flags => rfl
        | _ => rfl

/-- Flags that fire are not empty. -/
theorem firedFlags_ne_nil {source : Json} {flags : List PyStr} (h : firedFlags source = some flags)
    (hfires : fires source = true) : flags ≠ [] := by
  cases source with
  | obj fields =>
    cases h
    obtain ⟨f, hf, htruthy⟩ := List.any_eq_true.mp hfires
    have hmem : f.1 ∈ (fields.filter fun f => f.2.truthy).map Prod.fst :=
      List.mem_map_of_mem (List.mem_filter.mpr ⟨hf, htruthy⟩)
    exact List.ne_nil_of_mem hmem
  | arr items =>
    cases items with
    | nil => cases hfires
    | cons item items =>
      cases item with
      | str name =>
        obtain ⟨names, -, hflags⟩ := Option.map_eq_some_iff.mp h
        exact hflags ▸ List.cons_ne_nil _ _
      | _ => cases h
  | _ => cases hfires

theorem eq_zero {x : PyFloat} (h : x.eq 0 = true) : x = 0 := by
  cases x with
  | finite q =>
    obtain rfl : q = 0 := of_decide_eq_true h
    rfl
  | _ => cases h

theorem canonicalJson_ok {value : Json} {payload : List UInt8}
    (h : canonicalJson py value = .ok payload) : Json.canonicalJson py.repr value = some payload := by
  unfold canonicalJson at h
  split at h
  · cases h
  · split at h
    · cases h
    · rename_i hsome
      cases h
      exact hsome

theorem checkTrace_ok (h : checkTrace py line item metrics taskKey resolved reward info = .ok row) :
    ∃ flags trace, firedFlags (flagsValue item metrics info) = some flags ∧
      (flags ≠ [] → resolved = 0) ∧
      Json.canonicalJson py.repr (getD item "trace" (.obj item)) = some trace ∧
      row.traceDigest = py.sha256Digest trace ∧ row.resolved = resolved ∧
      row.tripwireFlags = flags := by
  unfold checkTrace at h
  split at h
  · cases h
  · rename_i flags hflags
    split at h
    · cases h
    · rename_i htripped
      obtain ⟨trace, htrace, h⟩ := bind_ok.mp h
      split at h
      · cases h
      · unfold traceRow at h
        obtain ⟨_, -, h⟩ := bind_ok.mp h
        obtain ⟨_, -, h⟩ := bind_ok.mp h
        cases h
        refine ⟨flags, trace, hflags, fun hne => eq_zero ?_, canonicalJson_ok htrace, rfl, rfl, rfl⟩
        by_contra hzero
        exact htripped ⟨hne, by simpa using hzero⟩

/-- A line that is accepted is an object whose parts are objects. -/
theorem parseItem_ok {value : Json} (h : parseItem py line value = .ok row) :
    ∃ item metrics info taskKey resolved reward, value = .obj item ∧
      getD item "metrics" (.obj []) = .obj metrics ∧ getD item "info" (.obj []) = .obj info ∧
      inRange resolved = true ∧
      checkTrace py line item metrics taskKey resolved reward info = .ok row := by
  unfold parseItem at h
  split at h
  · rename_i item
    split at h
    · rename_i taskKey _
      split at h
      · cases h
      · split at h
        · rename_i metrics hmetrics
          split at h
          · obtain ⟨resolved, -, h⟩ := bind_ok.mp h
            obtain ⟨reward, -, h⟩ := bind_ok.mp h
            split at h
            · cases h
            · rename_i hrange
              split at h
              · rename_i info hinfo
                exact ⟨item, metrics, info, taskKey, resolved, reward, rfl, hmetrics, hinfo,
                  by simpa using hrange, h⟩
              · cases h
          · cases h
        · cases h
    · cases h
  · cases h

theorem parseLine_ok {line : Nat × List UInt8} (h : parseLine py line = .ok row) :
    ∃ item, Json.loads py.toInterpreter line.2 = .ok (.obj item) ∧
      parseItem py line.1 (.obj item) = .ok row := by
  unfold parseLine at h
  split at h
  · rename_i value hvalue
    obtain ⟨item, -, -, -, -, -, rfl, -⟩ := parseItem_ok h
    exact ⟨item, hvalue, h⟩
  · cases h
  · cases h
  · cases h

/-- An accepted row has what it owes to its item. -/
theorem parseItem_respects (h : parseItem py line (.obj item) = .ok row) :
    Respects First py item row ∧ (row.tripwireFlags ≠ [] → row.resolved = 0) := by
  obtain ⟨item', metrics, info, taskKey, resolved, reward, heq, hmetrics, hinfo, hrange, hcheck⟩ :=
    parseItem_ok h
  cases heq
  obtain ⟨flags, trace, hflags, htripped, htrace, hdigest, hresolved, hrow⟩ := checkTrace_ok hcheck
  refine ⟨⟨?_, ⟨trace, htrace, hdigest⟩, fun source hfirst hfires => ?_⟩, ?_⟩
  · rw [hresolved]
    exact Bool.and_eq_true_iff.mp hrange
  · rw [flagsValue_eq hmetrics hinfo, hfirst] at hflags
    rw [hresolved]
    exact htripped (firedFlags_ne_nil hflags hfires)
  · rw [hrow, hresolved]
    exact htripped

/-- The verdict of such a row is clean. -/
theorem clean_verdict {shardKey : String} (hrange : PyFloat.le 0 row.resolved = true ∧
    PyFloat.le row.resolved 1 = true) (htripped : row.tripwireFlags ≠ [] → row.resolved = 0) :
    (row.trajectory shardKey).graderVerdict.clean = .ok () := by
  show GraderVerdict.clean ⟨row.resolved, row.metrics, row.tripwireFlags⟩ = _
  unfold GraderVerdict.clean
  simp only [hrange.1, hrange.2, Bool.and_self, Bool.not_true, Bool.false_eq_true, if_false]
  refine if_neg fun h => ?_
  rw [htripped h.1] at h
  exact absurd h.2 (by decide)

end Rows

/-! ## Verdicts -/

/-- **Verdicts respect the tripwires that count.**  Every accepted row is in range, carries the digest
    of its trace, and is zero where the first place with flags has one that fired; and every verdict
    that an ingestion mints is clean. -/
theorem verdicts_respect_tripwires (py : Ingestion) (payload : List UInt8) (rows : List Trace)
    (h : parseTraces py payload = .ok rows) :
    List.Forall₂ (fun line row => ∃ item, Json.loads py.toInterpreter line.2 = .ok (.obj item) ∧
      Respects First py item row) (traceLines payload) rows ∧
    ∀ (w : Weather) (tenantId runId : String) (l : Ledger),
      ∀ t ∈ (ingestTrajectories py w tenantId runId payload l).1.trajectories.rows,
        t ∈ l.trajectories.rows ∨ t.graderVerdict.clean = .ok () := by
  have hlines := parseTraces_ok h
  refine ⟨hlines.imp fun line row hline => ?_, fun w tenantId runId l t ht => ?_⟩
  · obtain ⟨item, hloads, hitem⟩ := parseLine_ok hline
    exact ⟨item, hloads, (parseItem_respects hitem).1⟩
  · cases hrun : ingestTrajectories py w tenantId runId payload l with
    | mk l' result =>
      rw [hrun] at ht
      cases result with
      | error e => exact Or.inl (ingest_error hrun ▸ ht)
      | ok d =>
        obtain ⟨rows', artifact, hpublish, rfl, -⟩ := ingest_ok hrun
        obtain rfl : rows = rows' := Except.ok.inj (h.symm.trans (publishShard_ok hpublish).1)
        rcases mem_putAll.mp ht with hlast | ⟨hold, -⟩
        · obtain ⟨row, hrow, rfl⟩ := List.mem_map.mp hlast.mem
          obtain ⟨line, -, hline⟩ := (mapM_mem (mapM_ok.mpr hlines)).2 row hrow
          obtain ⟨item, -, hitem⟩ := parseLine_ok hline
          obtain ⟨hrespects, htripped⟩ := parseItem_respects hitem
          exact Or.inr (clean_verdict hrespects.inRange htripped)
        · exact Or.inl hold

/-! ## Concrete items -/

/-- A rollout that resolves, with a list of no flags and a tripwire that fired under `info`. -/
def shadowed : List UInt8 :=
  Text.bytes ("\x7b\"name\":\"a\",\"reward\":1,\"tripwire_flags\":[],\"info\":" ++
    "\x7b\"django_v1\":\x7b\"tripwires\":\x7b\"manage_py_edited\":true\x7d\x7d\x7d\x7d")

/-- What is looked at of a payload: the number of rows, and whether the first one resolves. -/
def outcome (payload : List UInt8) : Option (Nat × Bool) :=
  (parseTraces toyIngestion payload).toOption.map fun rows =>
    (rows.length, rows.all fun row => row.resolved.eq 1)

/-- A flag fired in a line, in whatever place it stands. -/
def firedAnywhere (line : List UInt8) : Bool :=
  match Json.loads toyIngestion.toInterpreter line with
  | .ok (.obj item) => (tripwireSources item).any fun source => source.any fires
  | _ => false

theorem verdicts_respect_tripwires_two : ∃ rows, parseTraces toyIngestion twoTraces = .ok rows ∧
    List.Forall₂ (fun line row => ∃ item,
      Json.loads toyIngestion.toInterpreter line.2 = .ok (.obj item) ∧
        Respects First toyIngestion item row) (traceLines twoTraces) rows := by
  have houtcome : (outcome twoTraces).map Prod.fst = some 2 := by decide +kernel
  unfold outcome at houtcome
  cases hparse : parseTraces toyIngestion twoTraces with
  | error e =>
    rw [hparse] at houtcome
    cases houtcome
  | ok rows => exact ⟨rows, rfl, (verdicts_respect_tripwires _ _ _ hparse).1⟩

/-- A tripwire under `info` fired, and yet the row resolves. -/
theorem shadowed_tripwire : ¬ ∀ (py : Ingestion) (payload : List UInt8) (rows : List Trace),
    parseTraces py payload = .ok rows →
    List.Forall₂ (fun line row => ∃ item, Json.loads py.toInterpreter line.2 = .ok (.obj item) ∧
      Respects Anywhere py item row) (traceLines payload) rows := by
  intro hlaw
  have houtcome : outcome shadowed = some (1, true) := by decide +kernel
  have hfired : (traceLines shadowed).map (fun line => firedAnywhere line.2) = [true] := by
    decide +kernel
  unfold outcome at houtcome
  cases hparse : parseTraces toyIngestion shadowed with
  | error e =>
    rw [hparse] at houtcome
    cases houtcome
  | ok rows =>
    rw [hparse] at houtcome
    have hall := hlaw _ _ _ hparse
    have hresolved : rows.all (fun row => row.resolved.eq 1) = true :=
      congrArg Prod.snd (Option.some.inj houtcome)
    generalize traceLines shadowed = lines at hall hfired
    cases hall with
    | nil => cases hfired
    | @cons line row lines rows hline hrest =>
      obtain ⟨item, hloads, hrespects⟩ := hline
      rw [List.map_cons, firedAnywhere, hloads] at hfired
      obtain ⟨source, hsource, hfires⟩ := List.any_eq_true.mp (List.cons.inj hfired).1
      obtain ⟨flags, rfl, hfires⟩ := (Option.any_eq_true _ _).mp hfires
      have hzero := hrespects.tripped flags hsource hfires
      have hone := List.all_eq_true.mp hresolved row List.mem_cons_self
      rw [hzero] at hone
      exact absurd hone (by decide)

end ControlPlane.Rl
