/-
  VERIFIED SUCCESS: what a worker can make of a job, whatever it answers.

  A job that ends SUCCEEDED carries the columns of the bytes that the object store holds under the key
  the control plane chose, and they agree with what the worker claimed: there is one way into that
  status and it leads through `read_arrow`.  Nearly everything else that a worker may answer ends as
  FAILED.  What does not is listed in `Escapes`: an answer nested so deeply that Python gives up, logs
  with a surrogate, and text or numbers that the database does not take.  There the task raises, and
  the job stays RUNNING (`job_stays_running`); `verified_success_iff` says that nothing else escapes.
-/
import ControlPlane.Orchestration.Answers

namespace ControlPlane.Orchestration

open ControlPlane.Fallible

/-! ## What escapes -/

/-- The ways out of the task that end no job, from some poll on. -/
inductive Escapes (b : Backend) (x : RemoteJob b) : Seen → Poll → List Poll → Prop where
  /-- The answer, or its status, is nested too deeply. -/
  | deep {seen : Seen} {p : Poll} {later : List Poll} : Deep b p.reply → Escapes b x seen p later
  /-- A failed request whose text the database does not take. -/
  | failure {seen : Seen} {p : Poll} {later : List Poll} {message : PyStr} :
      p.reply = .error message → x.canceled = false → ¬ b.Takes message → Escapes b x seen p later
  /-- Logs that cannot be rendered or encoded. -/
  | logs {seen : Seen} {p : Poll} {later : List Poll} {s : RemoteState} :
      b.status p.reply = .ok s → p.canceled = false → Unloggable b s.payload →
      Escapes b x seen p later
  /-- New lines of which the database does not take what the log keeps. -/
  | refused {seen : Seen} {p : Poll} {later : List Poll} {s : RemoteState}
      {logs : Option (PyStr × String)} :
      b.status p.reply = .ok s → p.canceled = false → b.remoteLogs s.payload = .ok logs →
      ¬ b.Takes (kept (news x.jobId.val seen s.status logs)) → Escapes b x seen p later
  /-- The deadline, with an answer to the cancel request that is nested too deeply. -/
  | deadline {seen : Seen} {p : Poll} {s : RemoteState} :
      b.status p.reply = .ok s → p.canceled = false → endsWait s.status = false →
      TooDeep b x.cancelReply → Escapes b x seen p []
  /-- A last answer. -/
  | result {seen : Seen} {p : Poll} {later : List Poll} {s : RemoteState} :
      b.status p.reply = .ok s → p.canceled = false → endsWait s.status = true →
      ResultEscapes b x s → Escapes b x seen p later
  /-- A later poll. -/
  | later {seen : Seen} {p next : Poll} {later : List Poll} {s : RemoteState}
      {logs : Option (PyStr × String)} :
      b.status p.reply = .ok s → p.canceled = false → endsWait s.status = false →
      b.remoteLogs s.payload = .ok logs → Escapes b x (seen.update s.status logs) next later →
      Escapes b x seen p (next :: later)

section Polling

variable {b : Backend} {x : RemoteJob b} {p next : Poll} {later : List Poll} {seen seen' : Seen}
  {row row' : Record b} {s : RemoteState} {e : PyError}

/-! ### One round -/

/-- `persist_status` raises an exception that nobody lists. -/
theorem persistStatus_error (h : persistStatus b x seen row s = .error e) :
    e.caughtBy waitHandlers = false ∧ (Unloggable b s.payload ∨
      ∃ logs, b.remoteLogs s.payload = .ok logs ∧
        ¬ b.Takes (kept (news x.jobId.val seen s.status logs))) := by
  rcases bind_error.mp h with hlogs | ⟨logs, hlogs, h⟩
  · obtain ⟨hunloggable, huncaught⟩ := remoteLogs_error hlogs
    exact ⟨huncaught, Or.inl hunloggable⟩
  split at h
  · cases h
  rcases bind_error.mp h with hcolumn | ⟨_, -, h⟩
  · by_cases hstored : b.Takes ((news x.jobId.val seen s.status logs).foldl appendLog row.logs.val)
    · cases (column_ok hstored).symm.trans hcolumn
    · obtain ⟨e', he', huncaught⟩ := column_error hstored
      cases he'.symm.trans hcolumn
      exact ⟨huncaught, Or.inr ⟨logs, hlogs, fun htakes => hstored ((takes_foldl _).mpr htakes)⟩⟩
  · cases h

/-- It returns with both local variables updated, and only the logs of the row are new. -/
theorem persistStatus_ok (h : persistStatus b x seen row s = .ok (seen', row')) :
    row'.status = row.status ∧ ∃ logs, b.remoteLogs s.payload = .ok logs ∧
      b.Takes (kept (news x.jobId.val seen s.status logs)) ∧ seen' = seen.update s.status logs := by
  obtain ⟨logs, hlogs, h⟩ := bind_ok.mp h
  split at h
  · rename_i hnews
    cases h
    refine ⟨rfl, logs, hlogs, ?_, rfl⟩
    rw [hnews]
    exact PyStr.all_takeLast (a := []) rfl
  · obtain ⟨stored, hcolumn, h⟩ := bind_ok.mp h
    cases h
    refine ⟨rfl, logs, hlogs, (takes_foldl row.logs).mp ?_, rfl⟩
    rw [← column_val hcolumn]
    exact stored.2

/-- The request has failed. -/
theorem round_failed (h : b.status p.reply = .error e) : round b x p seen row = (row, .error e) := by
  unfold round
  rw [h]

/-- The job was canceled in the meantime. -/
theorem round_canceled (h : b.status p.reply = .ok s) (hcanceled : p.canceled = true) :
    round b x p seen row =
      (row.refresh true, .error ⟨.runpodTimeout, PyStr.lit cancelledMessage⟩) := by
  unfold round
  rw [h]
  exact if_pos hcanceled

/-- An answer that is read is logged, or an exception leaves. -/
theorem round_answered (hrow : row.status = .running) (h : b.status p.reply = .ok s)
    (hcanceled : p.canceled = false) :
    (∃ e, round b x p seen row = (row, .error e) ∧ e.caughtBy waitHandlers = false ∧
      (Unloggable b s.payload ∨ ∃ logs, b.remoteLogs s.payload = .ok logs ∧
        ¬ b.Takes (kept (news x.jobId.val seen s.status logs)))) ∨
    ∃ logs row', b.remoteLogs s.payload = .ok logs ∧
      b.Takes (kept (news x.jobId.val seen s.status logs)) ∧ row'.status = .running ∧
      round b x p seen row = (row', .ok (seen.update s.status logs, s)) := by
  unfold round
  rw [h]
  simp only [hcanceled, Bool.false_eq_true, if_false]
  cases hpersist : persistStatus b x seen row s with
  | error e => exact Or.inl ⟨e, rfl, persistStatus_error hpersist⟩
  | ok result =>
    obtain ⟨seen', row'⟩ := result
    obtain ⟨hst, logs, hlogs, htakes, rfl⟩ := persistStatus_ok hpersist
    exact Or.inr ⟨logs, row', hlogs, htakes, hst.trans hrow, rfl⟩

/-! ### The loop -/

theorem wait_error (h : round b x p seen row = (row', .error e)) :
    wait b x p later seen row = (row', .error e) := by
  unfold wait
  rw [h]

theorem wait_over (h : round b x p seen row = (row', .ok (seen', s))) (hover : endsWait s.status = true) :
    wait b x p later seen row = (row', .ok s) := by
  unfold wait
  rw [h]
  exact if_pos hover

theorem wait_deadline (h : round b x p seen row = (row', .ok (seen', s)))
    (hover : endsWait s.status = false) :
    wait b x p [] seen row = (row', .error (expired b x)) := by
  unfold wait
  rw [h]
  simp only [hover, Bool.false_eq_true, if_false]

theorem wait_next (h : round b x p seen row = (row', .ok (seen', s)))
    (hover : endsWait s.status = false) :
    wait b x p (next :: later) seen row = wait b x next later seen' row' := by
  rw [wait, h]
  simp only [hover, Bool.false_eq_true, if_false]

/-- The deadline escapes when the answer to the cancel request does; its own text is stored. -/
theorem expired_ok : ((expired b x).caughtBy waitHandlers = true ∧ b.Takes (expired b x).message) ↔
    ¬ TooDeep b x.cancelReply := by
  unfold expired
  split
  · rename_i message hrequest
    refine iff_of_false (fun h => nomatch h.1) fun hnot => ?_
    rcases request_error hrequest with hdeep | ⟨hcls, -⟩
    · exact hnot hdeep
    · cases hcls
  · rename_i hrequest
    refine iff_of_true ⟨rfl, ?_⟩ fun hdeep => hrequest _ (request_deep hdeep)
    rw [takes_append, takes_append, takes_append, takes_append]
    exact ⟨⟨⟨⟨takes_of_plain (by decide), x.jobId.2⟩, takes_of_plain (by decide)⟩, x.timeout.2⟩,
      takes_of_plain (by decide)⟩

theorem refresh_canceled (hrow : row.status = .running) :
    (row.refresh x.canceled).status = .canceled ↔ x.canceled = true := by
  unfold Record.refresh
  split
  · rename_i hcanceled
    exact iff_of_true rfl hcanceled
  · rename_i hcanceled
    exact iff_of_false (fun h => nomatch hrow.symm.trans h) hcanceled

/-- An exception out of `wait`, for a job that is RUNNING. -/
theorem settle_error_ok (hrow : row.status = .running) :
    (settle b x (row, .error e)).2.isOk = true ↔
      e.caughtBy waitHandlers = true ∧ (x.canceled = true ∨ b.Takes e.message) := by
  show (interrupted b (row.refresh x.canceled) e).2.isOk = true ↔ _
  rw [interrupted_ok, refresh_canceled hrow]

/-- An answer with a last status, for a job that is RUNNING. -/
theorem settle_over_ok (hrow : row.status = .running) (hover : endsWait s.status = true) :
    (settle b x (row, .ok s)).2.isOk = true ↔ ¬ ResultEscapes b x s :=
  concluded_ok (refresh_canceled hrow) hover

/-- An exception that the first `except` does not list leaves the task. -/
theorem settle_uncaught (hrow : row.status = .running) (h : round b x p seen row = (row, .error e))
    (huncaught : e.caughtBy waitHandlers = false) :
    ¬ (settle b x (wait b x p later seen row)).2.isOk = true := by
  rw [wait_error h, settle_error_ok hrow]
  exact fun hcaught => nomatch huncaught.symm.trans hcaught.1

/-- What escapes is raised. -/
theorem settle_escapes (h : Escapes b x seen p later) (hrow : row.status = .running) :
    ¬ (settle b x (wait b x p later seen row)).2.isOk = true := by
  induction h generalizing row with
  | deep hdeep =>
    rw [wait_error (round_failed (status_deep hdeep)), settle_error_ok hrow]
    exact fun h => nomatch h.1
  | @failure seen p later message hreply hcanceled hrefused =>
    have hstatus : b.status p.reply = .error ⟨.runpodApi, message⟩ := by
      rw [hreply]
      rfl
    rw [wait_error (round_failed hstatus), settle_error_ok hrow, hcanceled]
    rintro ⟨-, h | h⟩
    · cases h
    · exact hrefused h
  | logs hstatus hcanceled hunloggable =>
    rcases round_answered hrow hstatus hcanceled with ⟨e, hround, huncaught, -⟩ | ⟨_, _, hlogs, -⟩
    · exact settle_uncaught hrow hround huncaught
    · obtain ⟨e, herror⟩ := remoteLogs_unloggable hunloggable
      cases hlogs.symm.trans herror
  | refused hstatus hcanceled hlogs hrefused =>
    rcases round_answered hrow hstatus hcanceled with
      ⟨e, hround, huncaught, -⟩ | ⟨_, _, hlogs', htakes, -⟩
    · exact settle_uncaught hrow hround huncaught
    · cases hlogs.symm.trans hlogs'
      exact absurd htakes hrefused
  | deadline hstatus hcanceled hover hdeep =>
    rcases round_answered hrow hstatus hcanceled with
      ⟨e, hround, huncaught, -⟩ | ⟨_, row', -, -, hrow', hround⟩
    · exact settle_uncaught hrow hround huncaught
    · rw [wait_deadline hround hover, settle_error_ok hrow', expired, request_deep hdeep]
      exact fun h => nomatch h.1
  | result hstatus hcanceled hover hescapes =>
    rcases round_answered hrow hstatus hcanceled with
      ⟨e, hround, huncaught, -⟩ | ⟨_, row', -, -, hrow', hround⟩
    · exact settle_uncaught hrow hround huncaught
    · rw [wait_over hround hover, settle_over_ok hrow' hover]
      exact fun h => h hescapes
  | later hstatus hcanceled hover hlogs _ ih =>
    rcases round_answered hrow hstatus hcanceled with
      ⟨e, hround, huncaught, -⟩ | ⟨_, row', hlogs', -, hrow', hround⟩
    · exact settle_uncaught hrow hround huncaught
    · cases hlogs.symm.trans hlogs'
      rw [wait_next hround hover]
      exact ih hrow'

/-- Where nothing escapes, the task returns in this round, or the next one finds the job RUNNING. -/
theorem settle_step (hrow : row.status = .running) (hnot : ¬ Escapes b x seen p later) :
    (settle b x (wait b x p later seen row)).2.isOk = true ∨
    ∃ s logs row', b.status p.reply = .ok s ∧ p.canceled = false ∧ endsWait s.status = false ∧
      b.remoteLogs s.payload = .ok logs ∧ row'.status = .running ∧
      round b x p seen row = (row', .ok (seen.update s.status logs, s)) := by
  cases hstatus : b.status p.reply with
  | error e =>
    refine Or.inl ?_
    rw [wait_error (round_failed hstatus), settle_error_ok hrow]
    rcases status_error hstatus with hdeep | ⟨hcls, htext⟩
    · exact absurd (.deep hdeep) hnot
    · refine ⟨?_, ?_⟩
      · obtain ⟨cls, message⟩ := e
        cases hcls
        rfl
      · rcases htext with hreply | hplain
        · by_contra hstored
          obtain ⟨hnc, hrefused⟩ := not_or.mp hstored
          exact hnot (.failure hreply (by simpa using hnc) hrefused)
        · exact Or.inr (takes_of_plain hplain)
  | ok s =>
    cases hcanceled : p.canceled with
    | true =>
      refine Or.inl ?_
      rw [wait_error (round_canceled hstatus hcanceled)]
      refine interrupted_ok.mpr ⟨rfl, Or.inl ?_⟩
      unfold Record.refresh
      split <;> rfl
    | false =>
      rcases round_answered hrow hstatus hcanceled with
        ⟨e, -, -, hunloggable | ⟨logs, hlogs, hrefused⟩⟩ | ⟨logs, row', hlogs, -, hrow', hround⟩
      · exact absurd (.logs hstatus hcanceled hunloggable) hnot
      · exact absurd (.refused hstatus hcanceled hlogs hrefused) hnot
      · cases hover : endsWait s.status with
        | true =>
          refine Or.inl ?_
          rw [wait_over hround hover, settle_over_ok hrow' hover]
          exact fun hescapes => hnot (.result hstatus hcanceled hover hescapes)
        | false => exact Or.inr ⟨s, logs, row', rfl, rfl, hover, hlogs, hrow', hround⟩

/-- Where nothing escapes, the task returns. -/
theorem settle_returns (hrow : row.status = .running) (hnot : ¬ Escapes b x seen p later) :
    (settle b x (wait b x p later seen row)).2.isOk = true := by
  induction later generalizing p seen row with
  | nil =>
    rcases settle_step hrow hnot with h | ⟨s, logs, row', hstatus, hcanceled, hover, _, hrow', hround⟩
    · exact h
    · rw [wait_deadline hround hover, settle_error_ok hrow']
      obtain ⟨hcaught, htakes⟩ := expired_ok.mpr fun hdeep =>
        hnot (.deadline hstatus hcanceled hover hdeep)
      exact ⟨hcaught, Or.inr htakes⟩
  | cons next later ih =>
    rcases settle_step hrow hnot with
      h | ⟨s, logs, row', hstatus, hcanceled, hover, hlogs, hrow', hround⟩
    · exact h
    · rw [wait_next hround hover]
      exact ih hrow' fun hescapes => hnot (.later hstatus hcanceled hover hlogs hescapes)

/-! ### Where a run ends -/

/-- The row of a job that is still RUNNING, or canceled. -/
def Unfinished (row : Record b) : Prop := row.status = .running ∨ row.status = .canceled

theorem refresh_unfinished {canceled : Bool} (h : Unfinished row) :
    Unfinished (row.refresh canceled) := by
  unfold Record.refresh
  split
  · exact Or.inr rfl
  · exact h

/-- How a round leaves the row. -/
theorem round_leaves (hrow : row.status = .running) :
    (∃ e row', round b x p seen row = (row', .error e) ∧ Unfinished row') ∨
    ∃ s seen' row', b.status p.reply = .ok s ∧ row'.status = .running ∧
      round b x p seen row = (row', .ok (seen', s)) := by
  cases hstatus : b.status p.reply with
  | error e => exact Or.inl ⟨e, row, round_failed hstatus, Or.inl hrow⟩
  | ok s =>
    cases hcanceled : p.canceled with
    | true =>
      exact Or.inl ⟨_, _, round_canceled hstatus hcanceled, refresh_unfinished (Or.inl hrow)⟩
    | false =>
      rcases round_answered hrow hstatus hcanceled with
        ⟨e, hround, -⟩ | ⟨logs, row', -, -, hrow', hround⟩
      · exact Or.inl ⟨e, row, hround, Or.inl hrow⟩
      · exact Or.inr ⟨s, _, row', rfl, hrow', hround⟩

/-- What `wait` leaves: a job that is not over, and an answer to one of the polls. -/
theorem wait_leaves (hrow : row.status = .running) :
    Unfinished (wait b x p later seen row).1 ∧ ∀ s, (wait b x p later seen row).2 = .ok s →
      ∃ poll ∈ p :: later, b.status poll.reply = .ok s := by
  induction later generalizing p seen row with
  | nil =>
    rcases round_leaves hrow with ⟨e, row', hround, hrow'⟩ | ⟨s, seen', row', hstatus, hrow', hround⟩
    · rw [wait_error hround]
      exact ⟨hrow', nofun⟩
    cases hover : endsWait s.status with
    | true =>
      rw [wait_over hround hover]
      refine ⟨Or.inl hrow', fun s' hs' => ⟨p, List.mem_cons_self, ?_⟩⟩
      rw [← Except.ok.inj hs']
      exact hstatus
    | false =>
      rw [wait_deadline hround hover]
      exact ⟨Or.inl hrow', nofun⟩
  | cons next later ih =>
    rcases round_leaves hrow with ⟨e, row', hround, hrow'⟩ | ⟨s, seen', row', hstatus, hrow', hround⟩
    · rw [wait_error hround]
      exact ⟨hrow', nofun⟩
    cases hover : endsWait s.status with
    | true =>
      rw [wait_over hround hover]
      refine ⟨Or.inl hrow', fun s' hs' => ⟨p, List.mem_cons_self, ?_⟩⟩
      rw [← Except.ok.inj hs']
      exact hstatus
    | false =>
      rw [wait_next hround hover]
      refine ⟨(ih hrow').1, fun s' hs' => ?_⟩
      obtain ⟨poll, hpoll, hstatus'⟩ := (ih hrow').2 s' hs'
      exact ⟨poll, List.mem_cons_of_mem _ hpoll, hstatus'⟩

/-- The output columns are those of an artifact. -/
def Record.Holds (row : Record b) (artifact : StoredArrowArtifact) : Prop :=
  row.outputArtifactKey = artifact.artifactKey ∧ row.outputSchemaJson.val = artifact.schemaJson ∧
    row.outputRows = some artifact.rows ∧ row.outputPayloadDigest.val = artifact.payloadDigest

/-- A COMPLETED answer to one of the polls makes this claim. -/
def RemoteJob.Claims (x : RemoteJob b) (claimed : Expected) : Prop :=
  ∃ poll ∈ x.first :: x.later, ∃ s output, b.status poll.reply = .ok s ∧
    s.status = PyStr.lit success ∧ handlerOutput b s.payload = .ok output ∧
    outputDescriptor output = .ok claimed

/-- The row holds the artifact that the bytes under the chosen key are, and the worker claimed it. -/
def Verified (x : RemoteJob b) (row : Record b) : Prop :=
  ∃ artifact response claimed, row.Holds artifact ∧ artifact.artifactKey = x.outputKey ∧
    x.objects x.outputKey = .ok response ∧ b.Describes artifact response.body ∧
    x.Claims claimed ∧ artifact.payloadDigest = claimed.digest ∧
    StoreSettings.Expected.Met claimed artifact

/-- What a run owes, however it ends: a terminal status where it returns, verified where that is
    SUCCEEDED. -/
def Owes (x : RemoteJob b) (result : Record b × Except PyError Unit) : Prop :=
  (result.2.isOk = true → result.1.status.terminal = true) ∧
    (result.1.status = .succeeded → Verified x result.1)

theorem owes_failJob {t : PyStr} (h : Unfinished row) : Owes x (failJob b row t) := by
  obtain ⟨hterminal, hnot⟩ := failJob_status (t := t) h
  exact ⟨hterminal, fun hs => absurd hs hnot⟩

/-- Nothing is written any more. -/
theorem owes_unchanged {r : Except PyError Unit} (h : Unfinished row)
    (hr : r.isOk = true → row.status = .canceled) : Owes x (row, r) := by
  refine ⟨fun hok => ?_, fun hs => ?_⟩
  · show row.status.terminal = true
    rw [hr hok]
    rfl
  · have hs : row.status = .succeeded := hs
    rcases h with h | h
    · cases hs.symm.trans h
    · cases hs.symm.trans h

theorem owes_interrupted (h : Unfinished row) : Owes x (interrupted b row e) := by
  unfold interrupted
  split
  · split
    · rename_i hcanceled
      exact owes_unchanged h fun _ => hcanceled.2
    · exact owes_failJob h
  · exact owes_unchanged h nofun

theorem owes_concluded (h : Unfinished row) (hs : ∃ poll ∈ x.first :: x.later,
    b.status poll.reply = .ok s) : Owes x (concluded b x row s) := by
  unfold concluded
  split
  · rename_i hsuccess
    split
    · split
      · exact owes_failJob h
      · exact owes_unchanged h nofun
    · rename_i artifact hverified
      split
      · rename_i hcanceled
        exact owes_unchanged h fun _ => hcanceled
      · cases hcomplete : complete b x row artifact with
        | error e => exact owes_unchanged h nofun
        | ok row' =>
          obtain ⟨hst, hcolumns⟩ := complete_columns hcomplete
          obtain ⟨output, claimed, response, hhandler, hdescriptor, hobject, hkey, hdescribes, hmet,
            hdigest⟩ := verifiedOutput_ok hverified
          obtain ⟨poll, hpoll, hstatus⟩ := hs
          refine ⟨fun _ => ?_, fun _ => ?_⟩
          · show row'.status.terminal = true
            rw [hst]
            rfl
          · exact ⟨artifact, response, claimed, hcolumns, hkey, hobject, hdescribes,
              ⟨poll, hpoll, s, output, hstatus, hsuccess, hhandler, hdescriptor⟩, hdigest, hmet⟩
  · split
    · exact owes_unchanged h nofun
    · exact owes_failJob h

theorem owes_run (hrow : row.status = .running) : Owes x (runRunpodOffload b x row) := by
  have hwaits : Unfinished (wait b x x.first x.later {} row).1 ∧
      ∀ s, (wait b x x.first x.later {} row).2 = .ok s →
        ∃ poll ∈ x.first :: x.later, b.status poll.reply = .ok s := wait_leaves hrow
  unfold runRunpodOffload
  cases hwait : wait b x x.first x.later {} row with
  | mk row' result =>
    rw [hwait] at hwaits
    obtain ⟨hleft, hanswer⟩ := hwaits
    cases result with
    | error e => exact owes_interrupted (refresh_unfinished hleft)
    | ok s => exact owes_concluded (refresh_unfinished hleft) (hanswer s rfl)

end Polling

/-! ## The theorem -/

/-- A run that ends the job: nothing is raised, the status is terminal, and SUCCEEDED is verified. -/
def VerifiedSuccess {b : Backend} (x : RemoteJob b) (result : Record b × Except PyError Unit) :
    Prop :=
  result.2.isOk = true ∧ result.1.status.terminal = true ∧
    (result.1.status = .succeeded → Verified x result.1)

/-- **Verified success.**  Whatever a worker answers to every poll and whatever the object store holds,
    a RUNNING job ends SUCCEEDED, FAILED or CANCELED without an exception, and as SUCCEEDED only with
    a verified output, if and only if nothing escapes.  An output that is not verified is never
    SUCCEEDED, escape or not. -/
theorem verified_success_iff (b : Backend) (x : RemoteJob b) (row : Record b) :
    (VerifiedSuccess x (runRunpodOffload b x { row with status := .running }) ↔
      ¬ Escapes b x {} x.first x.later) ∧
    ((runRunpodOffload b x { row with status := .running }).1.status = .succeeded →
      Verified x (runRunpodOffload b x { row with status := .running }).1) := by
  have howes : Owes x (runRunpodOffload b x { row with status := .running }) := owes_run rfl
  refine ⟨⟨fun hsuccess hescapes => ?_, fun hnot => ?_⟩, howes.2⟩
  · exact settle_escapes hescapes rfl hsuccess.1
  · have hok : (runRunpodOffload b x { row with status := .running }).2.isOk = true :=
      settle_returns rfl hnot
    exact ⟨hok, howes.1 hok, howes.2⟩

/-! ## A concrete answer -/

/-- A database that takes everything but NUL and surrogates, and 31 bits. -/
def toyBackend : Backend where
  repr _ := PyStr.lit "0.0"
  decimal := asciiDecimal
  readDepth := 100
  writeDepth := 100
  maxBytes := 1000
  hexdigest _ := "e3b0c44298fc1c149afbf4c8996fb92427ae41e4649b934ca495991b7852b855"
  decode stream := some (PyStr.lit "{}", stream.length)
  upper text := text.map fun c => if 0x61 ≤ c.val ∧ c.val ≤ 0x7A then c - 0x20 else c
  printable := PyStr.isPlain
  reprDepth := 100
  takes c := c != 0 && !PyStr.isSurrogate c
  fits n := decide (n < 2 ^ 31)
  takes_plain c h := by
    rcases h with h | rfl
    · have hnot := not_surrogate h
      simp only [PyStr.isPlain, Bool.and_eq_true, decide_eq_true_eq] at h
      have hne : c ≠ 0 := by
        rintro rfl
        exact absurd h.1 (by decide)
      simp [hne, hnot]
    · decide
  repr_plain _ := by decide
  schema_plain _ _ _ h := by
    cases h
    decide

/-- One answer, whose logs are a lone surrogate. -/
def surrogateLogs : RemoteJob toyBackend where
  tenantId := "t"
  operationId := "op"
  jobId := ⟨PyStr.lit "remote-1", by decide⟩
  timeout := ⟨PyStr.lit "900", by decide⟩
  first := ⟨.ok (Text.bytes "\x7b\"status\":\"IN_PROGRESS\",\"logs\":\"\\ud800\"\x7d"), false⟩
  later := []
  cancelReply := .ok (Text.bytes "{}")
  objects _ := .error .missing
  canceled := false

/-- A row without logs and outputs. -/
def blankRow : Record toyBackend where
  logs := ⟨[], rfl⟩
  error := ⟨[], rfl⟩
  outputSchemaJson := ⟨[], rfl⟩
  outputPayloadDigest := ⟨[], rfl⟩

/-- `rendered_logs.encode()` raises `UnicodeEncodeError`, which the first `except` does not list. -/
theorem job_stays_running : ¬ ∀ (b : Backend) (x : RemoteJob b) (row : Record b),
    VerifiedSuccess x (runRunpodOffload b x { row with status := .running }) := by
  intro hlaw
  have h := (hlaw toyBackend surrogateLogs blankRow).1
  exact absurd h (by decide +kernel)

end ControlPlane.Orchestration
