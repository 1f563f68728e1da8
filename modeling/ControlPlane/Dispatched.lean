/-
  TOLD AND DISPATCHED: what a successful submission promises, on both routes that commit a job before
  they enqueue its task.

  A retry of the same request finds the row and answers with it; it does not look whether the row was
  ever dispatched.  So a job is dispatched by the time a caller is told of it unless the call that
  admitted it ended between the commit and `delay` (`submission_dispatched`), and from then on every
  retry is a success that means nothing (`told_undispatched`).
-/
import ControlPlane.Extraction.Submit
import ControlPlane.Orchestration.Invoke

namespace ControlPlane

open Admissions (abandoned empty)

/-- The offload table after a sequence of calls and of work on the rows. -/
def offloadsAfter (cfg : Orchestration.InvokeSettings)
    (es : List (Traffic Orchestration.InvokeCall Orchestration.Progress)) :
    Orchestration.JobTable :=
  es.foldl (Admissions.step (Orchestration.InvokeCall.run cfg)) empty

/-- The extraction table after a sequence of calls and of work on the rows. -/
def extractionsAfter (cfg : Extraction.SubmitSettings)
    (es : List (Traffic Extraction.SubmitCall Extraction.ExtractionJob)) : Extraction.JobTable :=
  es.foldl (Admissions.step (Extraction.SubmitCall.run cfg)) empty

/-- A job that an answer names is in the table. -/
theorem told_stored {cfg : Orchestration.InvokeSettings} {call : Orchestration.InvokeCall}
    {s s' : Orchestration.JobTable} {job : Nat} {reused : Bool} {body : Orchestration.InvokeBody}
    (h : call.run cfg s = (s', .submitted job reused body)) : job < s'.rows.length := by
  rcases Orchestration.invoke_cases h with ⟨-, ⟨_, _, h⟩ | h⟩ | ⟨-, rfl, existing, i, hfind, heq⟩ |
    ⟨hnew, -, hdispatch⟩
  · cases h
  · cases h
  · cases heq
    exact (List.getElem?_eq_some_iff.mp (Admissions.find?_eq_some.mp hfind).1).1
  · rcases Orchestration.dispatchOffload_cases hdispatch with ⟨-, h, -⟩ | ⟨-, h, -⟩ |
      ⟨taskId, -, heq, rfl⟩
    · cases h
    · cases h
    · cases heq
      simp [Admissions.enrol, Admissions.dispatch, Admissions.update]

theorem told_stored_extraction {cfg : Extraction.SubmitSettings} {call : Extraction.SubmitCall}
    {s s' : Extraction.JobTable} {job : Nat} {reused : Bool} {body : Extraction.SubmitBody}
    (h : call.run cfg s = (s', .submitted job reused body)) : job < s'.rows.length := by
  rcases Extraction.submit_cases h with ⟨-, ⟨_, _, h⟩ | h⟩ | ⟨rfl, key, existing, i, hfind, heq⟩ |
    ⟨key, content, hnew, -, hdispatch⟩
  · cases h
  · cases h
  · cases heq
    exact (List.getElem?_eq_some_iff.mp (Admissions.find?_eq_some.mp hfind).1).1
  · unfold Extraction.dispatchSubmission at hdispatch
    split at hdispatch
    · cases hdispatch
      simp [Admissions.enrol, Admissions.dispatch, Admissions.update]
    · cases hdispatch
    · cases hdispatch
    · cases hdispatch

/-- **A job that a caller is told of is dispatched** if and only if no call gave it up between its
    commit and its dispatch; whatever calls came before, and whatever became of the rows. -/
theorem submission_dispatched (invokes : Orchestration.InvokeSettings)
    (submits : Extraction.SubmitSettings) :
    (∀ (es : List (Traffic Orchestration.InvokeCall Orchestration.Progress))
      (call : Orchestration.InvokeCall) (s' : Orchestration.JobTable) (job : Nat) (reused : Bool)
      (body : Orchestration.InvokeBody),
      call.run invokes (offloadsAfter invokes es) = (s', .submitted job reused body) →
      (job ∈ s'.dispatches ↔ job ∉ abandoned (Orchestration.InvokeCall.run invokes)
        Orchestration.InvokeCall.givesUp empty (es ++ [.call call]))) ∧
    ∀ (es : List (Traffic Extraction.SubmitCall Extraction.ExtractionJob))
      (call : Extraction.SubmitCall) (s' : Extraction.JobTable) (job : Nat) (reused : Bool)
      (body : Extraction.SubmitBody),
      call.run submits (extractionsAfter submits es) = (s', .submitted job reused body) →
      (job ∈ s'.dispatches ↔ job ∉ abandoned (Extraction.SubmitCall.run submits)
        Extraction.SubmitCall.givesUp empty (es ++ [.call call])) := by
  constructor
  · intro es call s' job reused body h
    have hafter : offloadsAfter invokes (es ++ [.call call]) = s' := by
      rw [offloadsAfter, List.foldl_append]
      exact congrArg Prod.fst h
    have hiff := Admissions.dispatched_iff (i := job) (Orchestration.invoke_effect invokes)
      (es ++ [.call call])
    simp only [offloadsAfter] at hafter
    rw [hafter] at hiff
    exact hiff (told_stored h)
  · intro es call s' job reused body h
    have hafter : extractionsAfter submits (es ++ [.call call]) = s' := by
      rw [extractionsAfter, List.foldl_append]
      exact congrArg Prod.fst h
    have hiff := Admissions.dispatched_iff (i := job) (Extraction.submit_effect submits)
      (es ++ [.call call])
    simp only [extractionsAfter] at hafter
    rw [hafter] at hiff
    exact hiff (told_stored_extraction h)

/-! ## Concrete calls -/

/-- An offload request, and how its call ends. -/
def denoiseCall (fate : Fate (Option String)) : Orchestration.InvokeCall where
  tenantId := "acme"
  body := { operation := "data_science.gnn.denoise", operationId := "op-1", input := {} }
  fate := fate

/-- Settings of which the two requests need nothing but that they exist. -/
def plainSettings : Extraction.SubmitSettings where
  contract := ⟨PyStr.lit "theorem.extraction.v1", PyStr.lit "model", [], PyStr.lit "schema"⟩
  repr := fun _ => []
  hexdigest := fun _ => ""
  jsonb := Json.dumps fun _ => []

/-- An extraction request, and how its call ends. -/
def atlasCall (fate : Fate Extraction.ExtractionJob) : Extraction.SubmitCall where
  tenantId := "acme"
  body := { operation := "atlas", sourceKind := "artifact" }
  fate := fate

theorem submission_dispatched_retry :
    (∃ s' body, (denoiseCall (.answered none)).run {} (offloadsAfter {}
      [.call (denoiseCall (.answered (some "task")))]) = (s', .submitted 0 true body) ∧
        0 ∈ s'.dispatches) ∧
    ∃ s' body, (atlasCall (.answered {})).run plainSettings (extractionsAfter plainSettings
      [.call (atlasCall (.answered {}))]) = (s', .submitted 0 true body) ∧ 0 ∈ s'.dispatches := by
  constructor
  · refine ⟨_, _, rfl, ?_⟩
    refine ((submission_dispatched {} plainSettings).1 [.call (denoiseCall (.answered (some "task")))]
      (denoiseCall (.answered none)) _ 0 true _ rfl).mpr ?_
    decide +kernel
  · refine ⟨_, _, rfl, ?_⟩
    refine ((submission_dispatched {} plainSettings).2 [.call (atlasCall (.answered {}))]
      (atlasCall (.answered {})) _ 0 true _ rfl).mpr ?_
    decide +kernel

/-- On both routes: the broker is down for the first call, and the retry succeeds with a job that is
    QUEUED and was never dispatched. -/
theorem told_undispatched :
    (¬ ∀ (cfg : Orchestration.InvokeSettings)
      (es : List (Traffic Orchestration.InvokeCall Orchestration.Progress))
      (call : Orchestration.InvokeCall) (s' : Orchestration.JobTable) (job : Nat) (reused : Bool)
      (body : Orchestration.InvokeBody),
      call.run cfg (offloadsAfter cfg es) = (s', .submitted job reused body) →
      body.status = .queued → job ∈ s'.dispatches) ∧
    ¬ ∀ (cfg : Extraction.SubmitSettings)
      (es : List (Traffic Extraction.SubmitCall Extraction.ExtractionJob))
      (call : Extraction.SubmitCall) (s' : Extraction.JobTable) (job : Nat) (reused : Bool)
      (body : Extraction.SubmitBody),
      call.run cfg (extractionsAfter cfg es) = (s', .submitted job reused body) →
      (∀ row, s'.rows[job]? = some row → row.progress.status = .queued) →
      job ∈ s'.dispatches := by
  constructor
  · intro hlaw
    have h := hlaw {} [.call (denoiseCall .notDispatched)] (denoiseCall (.answered none)) _ 0 true _
      rfl rfl
    cases h
  · intro hlaw
    have h := hlaw plainSettings [.call (atlasCall .notDispatched)] (atlasCall (.answered {})) _ 0
      true _ rfl (fun row hrow => by cases hrow; rfl)
    cases h

end ControlPlane
