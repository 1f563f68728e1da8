/-
  POD ACCOUNTING: how many Pods of a training run are alive, and who still has to stop them.

  `cancel_run` only marks the row; the Pod is asked to stop later, by the delivery that waits for it
  or by the one `cancel_run` enqueues.  So a CANCELED run may have a Pod that nobody has asked yet
  (`pod_unaccounted`), and what holds instead is that somebody can: `pod_id` names it, or the
  delivery that created it is about to write `pod_id`.

  `orderly` leaves out four steps, each of which loses a Pod or the cancellation:

  * `_claim` takes RUNNING and FAILED, so a redelivery takes a run over while another delivery works
    on it or while its Pod is alive, and creates a second Pod,
  * the create request goes through and its response is lost,
  * the worker dies between the create and the `save` of `pod_id`,
  * `cancel_run` commits between the refresh of `_finish` and its `save`.

  In every other run at most one Pod is alive and every delivery settles its Pod before it writes its
  last status.  The claim is exclusive then, so the proof is an invariant of the row and the ONE
  delivery at work (`Accounts`), by the rule `Solo`.
-/
import ControlPlane.Rl.Training
import ControlPlane.Solo

namespace ControlPlane.Rl

open ControlPlane.Interleave

/-! ## Live Pods, loose Pods -/

/-- Pod `n` runs. -/
def Live (b : Board) (n : Nat) : Prop := (b.pods[n]?).any Pod.live = true

/-- Pod `n` runs, and no termination was requested. -/
def Loose (b : Board) (n : Nat) : Prop :=
  (b.pods[n]?).any (fun p => p.live && !p.terminationRequested) = true

instance (b : Board) (n : Nat) : Decidable (Live b n) := inferInstanceAs (Decidable (_ = true))

instance (b : Board) (n : Nat) : Decidable (Loose b n) := inferInstanceAs (Decidable (_ = true))

variable {b b' : Board} {p p' : Proc} {r : Reply} {n k : Nat}

theorem Loose.live (h : Loose b n) : Live b n := by
  obtain ⟨pod, hpod, hand⟩ := (Option.any_eq_true _ _).mp h
  exact (Option.any_eq_true _ _).mpr ⟨pod, hpod, (Bool.and_eq_true_iff.mp hand).1⟩

/-- The new Pod is the only new one. -/
theorem live_createPod (h : Live b.createPod n) : Live b n ∨ n = b.pods.length := by
  obtain ⟨pod, hpod, hlive⟩ := (Option.any_eq_true _ _).mp h
  rcases Nat.lt_trichotomy n b.pods.length with hlt | rfl | hgt
  · rw [Board.createPod, List.getElem?_append_left hlt] at hpod
    exact Or.inl ((Option.any_eq_true _ _).mpr ⟨pod, hpod, hlive⟩)
  · exact Or.inr rfl
  · have hnone : b.createPod.pods[n]? = none := by
      rw [List.getElem?_eq_none_iff, Board.createPod, List.length_append, List.length_singleton]
      omega
    rw [hnone] at hpod
    cases hpod

/-- No Pod comes to life, and none becomes loose. -/
def Calmer (b b' : Board) : Prop := ∀ n, (Live b' n → Live b n) ∧ (Loose b' n → Loose b n)

theorem Calmer.of_pods_eq (h : b'.pods = b.pods) : Calmer b b' := by
  intro n
  unfold Live Loose
  rw [h]
  exact ⟨id, id⟩

theorem Calmer.podExits (b : Board) (k : Nat) : Calmer b (b.podExits k) := by
  intro n
  unfold Live Loose Board.podExits
  rw [List.getElem?_modify]
  by_cases hk : k = n
  · cases b.pods[n]? <;> simp [hk]
  · simp [hk]

theorem Calmer.terminate (b : Board) (k : Nat) (stopped : Bool) :
    Calmer b (b.terminate k stopped) := by
  intro n
  unfold Live Loose Board.terminate
  rw [List.getElem?_modify]
  by_cases hk : k = n
  · cases b.pods[n]? <;> simp +contextual [hk]
  · simp [hk]

/-- A Pod that was asked to stop is not loose. -/
theorem not_loose_terminate (b : Board) (k : Nat) (stopped : Bool) :
    ¬ Loose (b.terminate k stopped) k := by
  unfold Loose Board.terminate
  rw [List.getElem?_modify]
  cases b.pods[k]? <;> simp

/-- Once the only loose Pod was asked to stop, none is loose. -/
theorem settled_terminate {stopped : Bool} (h : ∀ n, Loose b n → n = k) (n : Nat) :
    ¬ Loose (b.terminate k stopped) n := by
  intro hloose
  have hn : n = k := h n ((Calmer.terminate b k stopped n).2 hloose)
  subst hn
  exact not_loose_terminate b n stopped hloose

/-! ## The condition -/

/-- A step that loses neither a Pod nor the cancellation. -/
def orderly (s : Config Board Proc) : Event Proc Reply Nat → Bool
  | .act i r =>
      match s.procs[i]?, r with
      -- the run is taken over only from a delivery that is gone, with its Pod
      | some .claim, .ok =>
          s.store.status == .canceled || s.store.status == .succeeded ||
            (s.procs.all (!·.working) && s.store.pods.all (!·.live))
      | some (.create _), .failed effect _ => !effect
      | some (.savePodId _), .crash => false
      | some .cancelRun, .ok =>
          s.store.status.terminal || s.procs.all fun p =>
            match p with
            | .save status _ => status == .canceled
            | _ => true
      | _, _ => true
  | _ => true

/-- The condition as the rule wants it. -/
abbrev Orderly (s : Config Board Proc) (e : Event Proc Reply Nat) : Prop := orderly s e = true

/-! ## The accounts -/

/-- What the delivery at work knows of the Pods. -/
def Knows (b : Board) : Proc → Prop
  | .configure _ | .create _ | .readOutputs _ => ∀ n, ¬ Live b n
  | .savePodId k | .canceled k | .terminateInWait k | .get k | .terminateLate k =>
      ∀ n, Live b n → n = k
  | .caught podId _ => ∀ n, Loose b n → podId = some n
  | .finish _ _ => ∀ n, ¬ Loose b n
  | .save status _ => (∀ n, ¬ Loose b n) ∧ (status ≠ .canceled → b.status ≠ .canceled)
  | _ => True

/-- The row, its Pods and the delivery at work; `seen` is a CANCELED that must not be lost. -/
structure Accounts (seen : Bool) (b : Board) (o : Option Proc) : Prop where
  single : ∀ m n, Live b m → Live b n → m = n
  ended : b.status = .succeeded ∨ b.status = .failed → ∀ n, ¬ Loose b n
  named : ∀ n, Loose b n → b.podId = some n ∨ o = some (.savePodId n)
  kept : seen = true → b.status = .canceled
  held : ∀ p, o = some p → Knows b p ∧ (b.status = .running ∨ b.status = .canceled)

/-- What a delivery knows survives a calmer board in the same status. -/
theorem Knows.calm (hc : Calmer b b') (hs : b'.status = b.status) (h : Knows b p) :
    Knows b' p := by
  cases p <;> first
    | trivial
    | exact fun n hn => h n ((hc n).1 hn)
    | exact fun n hn => h n ((hc n).2 hn)
    | exact ⟨fun n hn => h.1 n ((hc n).2 hn), fun hne => hs ▸ h.2 hne⟩

namespace Accounts

variable {seen : Bool} {o : Option Proc}

/-- A calmer board, the same row. -/
theorem calm (h : Accounts seen b o) (hc : Calmer b b') (hs : b'.status = b.status)
    (hpod : b'.podId = b.podId) : Accounts seen b' o where
  single m n hm hn := h.single m n ((hc m).1 hm) ((hc n).1 hn)
  ended hst n hn := h.ended (hs ▸ hst) n ((hc n).2 hn)
  named n hn := hpod ▸ h.named n ((hc n).2 hn)
  kept hseen := hs ▸ h.kept hseen
  held p hp := ⟨(h.held p hp).1.calm hc hs, hs ▸ (h.held p hp).2⟩

/-- The delivery at work goes on; a Pod it has yet to name would be forgotten. -/
theorem move (h : Accounts seen b (some p)) (hp : ∀ n, p ≠ .savePodId n) (hp' : Knows b p') :
    Accounts seen b (some p') where
  single := h.single
  ended := h.ended
  named n hn := by
    rcases h.named n hn with hpod | hsave
    · exact Or.inl hpod
    · exact absurd (Option.some.inj hsave) (hp n)
  kept := h.kept
  held q hq := by
    obtain rfl : p' = q := Option.some.inj hq
    exact ⟨hp', (h.held p rfl).2⟩

/-- The delivery at work is gone. -/
theorem leave (h : Accounts seen b (some p)) (hp : ∀ n, p ≠ .savePodId n) :
    Accounts seen b none where
  single := h.single
  ended := h.ended
  named n hn := by
    rcases h.named n hn with hpod | hsave
    · exact Or.inl hpod
    · exact absurd (Option.some.inj hsave) (hp n)
  kept := h.kept
  held _ hq := nomatch hq

/-- What the delivery at work knows. -/
theorem knows (h : Accounts seen b (some p)) : Knows b p := (h.held p rfl).1

/-- A DELETE request on the way, then the delivery goes on. -/
theorem terminate (h : Accounts seen b (some p)) (hp : ∀ n, p ≠ .savePodId n) (k : Nat)
    (stopped : Bool) (hp' : Knows (b.terminate k stopped) p') :
    Accounts seen (b.terminate k stopped) (some p') :=
  (h.calm (Calmer.terminate b k stopped) rfl rfl).move hp hp'

/-- The create request: before it no Pod is alive. -/
theorem create {podId : Option Nat} (h : Accounts seen b (some (.create podId))) :
    Accounts seen b.createPod (some (.savePodId b.pods.length)) := by
  have honly : ∀ n, Live b.createPod n → n = b.pods.length := by
    intro n hn
    rcases live_createPod hn with hold | hnew
    · exact absurd hold (h.knows n)
    · exact hnew
  have hst : b.status = .running ∨ b.status = .canceled := (h.held _ rfl).2
  refine ⟨fun m n hm hn => (honly m hm).trans (honly n hn).symm, ?_, ?_, h.kept, ?_⟩
  · intro hover
    rcases hst with hst | hst <;> rcases hover with hover | hover <;>
      exact absurd (hst.symm.trans hover) (by decide)
  · intro n hn
    exact Or.inr (by rw [honly n hn.live])
  · intro q hq
    obtain rfl : Proc.savePodId b.pods.length = q := Option.some.inj hq
    exact ⟨honly, hst⟩

/-- `run.save(update_fields=["pod_id"])`: only that Pod is alive, and now the row names it. -/
theorem savePodId (h : Accounts seen b (some (.savePodId k))) :
    Accounts seen { b with podId := some k } (some (.canceled k)) where
  single := h.single
  ended := h.ended
  named n hn := Or.inl (congrArg some (h.knows n (Loose.live hn)).symm)
  kept := h.kept
  held q hq := by
    obtain rfl : Proc.canceled k = q := Option.some.inj hq
    exact ⟨h.knows, (h.held _ rfl).2⟩

/-- The last write of a delivery. -/
theorem save {status : Status} {error : String} (h : Accounts seen b (some (.save status error))) :
    Accounts seen { b with status := status, error := error } none where
  single := h.single
  ended _ n hn := h.knows.1 n hn
  named n hn := absurd hn (h.knows.1 n)
  kept hseen := by
    by_cases hst : status = .canceled
    · exact hst
    · exact absurd (h.kept hseen) (h.knows.2 hst)
  held _ hq := nomatch hq

/-- `_claim`, while nobody works and no Pod is alive. -/
theorem claim (h : Accounts seen b none) (hlive : ∀ n, ¬ Live b n) (hst : b.status ≠ .canceled)
    (podId : Option Nat) :
    Accounts seen { b with status := .running, error := "" } (some (.configure podId)) where
  single := h.single
  ended hover := by rcases hover with hover | hover <;> cases hover
  named n hn := absurd (Loose.live hn) (hlive n)
  kept hseen := absurd (h.kept hseen) hst
  held q hq := by
    obtain rfl : Proc.configure podId = q := Option.some.inj hq
    exact ⟨hlive, Or.inl rfl⟩

/-- `cancel_run`, not between the refresh and the `save` of `_finish`. -/
theorem cancel (h : Accounts seen b o)
    (hsave : ∀ status error, o = some (.save status error) → status = .canceled) :
    Accounts seen { b with status := .canceled } o where
  single := h.single
  ended hover := by rcases hover with hover | hover <;> cases hover
  named := h.named
  kept _ := rfl
  held p hp := by
    refine ⟨?_, Or.inr rfl⟩
    have hk : Knows b p := (h.held p hp).1
    cases p with
    | save status error => exact ⟨hk.1, fun hne => absurd (hsave status error hp) hne⟩
    | _ => exact hk

end Accounts

/-! ## The steps of the delivery at work -/

/-- What a step of the delivery at work owes. -/
def StepOk (seen : Bool) (b' : Board) (p' : Proc) : Prop :=
  Accounts seen b' (if p'.working = true then some p' else none)

section Steps

variable {seen : Bool}

/-- `configure`, `create`, `savePodId`: `heffect` is the create request whose response is lost. -/
theorem createStep_ok (h : Accounts seen b (some p))
    (heffect : ∀ podId message, p = .create podId → r ≠ .failed true message)
    (hact : createStep b p r = some (b', p')) : StepOk seen b' p' := by
  unfold createStep at hact
  split at hact
  · cases hact
    exact h.move (fun _ => Proc.noConfusion) h.knows
  · cases hact
    exact h.move (fun _ => Proc.noConfusion) fun n hn => h.knows n hn.live
  · cases hact
    exact h.create
  · rename_i podId effect message
    cases effect with
    | true => exact absurd rfl (heffect podId message rfl)
    | false =>
      cases hact
      exact h.move (fun _ => Proc.noConfusion) fun n hn => absurd hn.live (h.knows n)
  · cases hact
    exact h.savePodId
  · cases hact

/-- `RunpodPodClient.wait`: every way out of the loop has asked the Pod to stop, has seen it gone,
    or leads to the handler. -/
theorem waitStep_ok (h : Accounts seen b (some p)) (hact : waitStep b p r = some (b', p')) :
    StepOk seen b' p' := by
  unfold waitStep at hact
  split at hact
  · -- `canceled()`
    cases hact
    split
    · exact h.move (fun _ => Proc.noConfusion) h.knows
    · exact h.move (fun _ => Proc.noConfusion) h.knows
  · cases hact
    refine h.terminate (fun _ => Proc.noConfusion) _ _ (settled_terminate fun n hn => ?_)
    exact h.knows n hn.live
  · cases hact
    refine h.terminate (fun _ => Proc.noConfusion) _ _ fun n hn => absurd hn ?_
    exact settled_terminate (fun n hn => h.knows n hn.live) n
  · -- the only Pod that may be alive is seen gone
    rename_i k
    split at hact
    · cases hact
    · rename_i hgone
      cases hact
      refine h.move (fun _ => Proc.noConfusion) fun n hn => hgone ?_
      have hk : n = k := h.knows n hn
      exact hk ▸ hn
  · cases hact
    exact h.move (fun _ => Proc.noConfusion) h.knows
  · cases hact
    exact h.move (fun _ => Proc.noConfusion) h.knows
  · cases hact
    refine h.move (fun _ => Proc.noConfusion) fun n hn => ?_
    exact congrArg some (h.knows n hn.live).symm
  · cases hact
    refine h.terminate (fun _ => Proc.noConfusion) _ _ fun n hn => absurd hn ?_
    exact settled_terminate (fun n hn => h.knows n hn.live) n
  · cases hact
    refine h.terminate (fun _ => Proc.noConfusion) _ _ fun n hn => absurd hn ?_
    exact settled_terminate (fun n hn => h.knows n hn.live) n
  · cases hact
    exact h.move (fun _ => Proc.noConfusion) fun n hn => h.knows n hn.live
  · cases hact
    exact h.move (fun _ => Proc.noConfusion) fun n hn => absurd hn.live (h.knows n)
  · cases hact

/-- The handler and `_finish`. -/
theorem finishStep_ok (h : Accounts seen b (some p)) (hact : finishStep b p r = some (b', p')) :
    StepOk seen b' p' := by
  unfold finishStep at hact
  split at hact <;> cases hact
  · exact h.move (fun _ => Proc.noConfusion) fun n hn => nomatch h.knows n hn
  · refine h.terminate (fun _ => Proc.noConfusion) _ _ (settled_terminate fun n hn => ?_)
    exact (Option.some.inj (h.knows n hn)).symm
  · refine h.terminate (fun _ => Proc.noConfusion) _ _ (settled_terminate fun n hn => ?_)
    exact (Option.some.inj (h.knows n hn)).symm
  · -- the refresh
    refine h.move (fun _ => Proc.noConfusion) ⟨h.knows, fun hne => ?_⟩
    split at hne
    · exact absurd rfl hne
    · assumption
  · exact h.save

/-- A step of the delivery at work. -/
theorem work_ok (h : Accounts seen b (some p)) (hp : p.working = true)
    (heffect : ∀ podId message, p = .create podId → r ≠ .failed true message)
    (hcrash : ∀ k, p = .savePodId k → r ≠ .crash) (hact : procStep b p r = some (b', p')) :
    StepOk seen b' p' := by
  unfold procStep at hact
  split at hact
  · split at hact <;> cases hact
    exact h.leave fun k hk => hcrash k hk rfl
  · split at hact <;> first
      | exact createStep_ok h heffect hact
      | exact waitStep_ok h hact
      | exact finishStep_ok h hact
      | cases hp

end Steps

/-! ## The other steps -/

/-- What a step of a process that is not at work can be: a `_claim` that takes the run over, a
    `cancel_run` that marks the row, or a step that leaves the row alone and starts no Pod. -/
inductive IdleStep (b : Board) : Proc → Reply → Board → Proc → Prop
  | takeOver : b.status ≠ .canceled → b.status ≠ .succeeded →
      IdleStep b .claim .ok { b with status := .running, error := "" } (.configure b.podId)
  | cancel : b.status.terminal = false →
      IdleStep b .cancelRun .ok { b with status := .canceled } .delay
  | calm {p : Proc} {r : Reply} {b' : Board} {p' : Proc} : p'.working = false →
      b'.status = b.status → b'.podId = b.podId → Calmer b b' → IdleStep b p r b' p'

/-- A step that leaves the board as it is. -/
theorem IdleStep.same (hp' : p'.working = false) : IdleStep b p r b p' :=
  IdleStep.calm hp' rfl rfl (Calmer.of_pods_eq rfl)

theorem claimStep_idle (hact : claimStep b p r = some (b', p')) : IdleStep b p r b' p' := by
  unfold claimStep at hact
  split at hact
  · cases hact
    refine IdleStep.same ?_
    split <;> rfl
  · cases hact
    exact IdleStep.calm rfl rfl rfl (Calmer.terminate b _ _)
  · cases hact
    exact IdleStep.calm rfl rfl rfl (Calmer.terminate b _ _)
  · cases hact
    exact IdleStep.same rfl
  · -- `_claim` under the row lock
    have hact := Option.some.inj hact
    split at hact
    · cases hact
      exact IdleStep.same rfl
    · cases hact
      exact IdleStep.same rfl
    · rename_i hcanceled hsucceeded
      cases hact
      exact IdleStep.takeOver hcanceled hsucceeded
  · cases hact

theorem cancelStep_idle (hact : cancelStep b p r = some (b', p')) : IdleStep b p r b' p' := by
  unfold cancelStep at hact
  split at hact
  · have hact := Option.some.inj hact
    split at hact
    · cases hact
      exact IdleStep.same rfl
    · rename_i hterminal
      cases hact
      exact IdleStep.cancel (Bool.eq_false_iff.mpr hterminal)
  · cases hact
    exact IdleStep.same rfl
  · cases hact

theorem idle_step (hp : p.working = false) (hact : procStep b p r = some (b', p')) :
    IdleStep b p r b' p' := by
  unfold procStep at hact
  split at hact
  · split at hact <;> cases hact
    exact IdleStep.same rfl
  · split at hact <;> first
      | exact claimStep_idle hact
      | exact cancelStep_idle hact
      | cases hact
      | cases hp

/-! ## The rule applied -/

/-- The orderly runs keep the accounts. -/
def accounts (seen : Bool) : Solo training Orderly where
  working := Proc.working
  inv := Accounts seen
  start := by
    intro p hp
    cases p <;> first | rfl | cases hp
  work := by
    intro s i r p b' p' hwork hinv hC hi hact
    have hC : orderly s (.act i r) = true := hC
    simp only [orderly, hi] at hC
    refine work_ok hinv hwork.works ?_ ?_ hact
    · rintro podId message rfl rfl
      cases hC
    · rintro k rfl rfl
      cases hC
  enter := by
    intro s i r p b' p' o hwork hinv hC hi hp hp' hact
    have hC : orderly s (.act i r) = true := hC
    simp only [orderly, hi] at hC
    cases idle_step hp hact with
    | takeOver hcanceled hsucceeded =>
      have hboth : s.procs.all (!·.working) = true ∧ s.store.pods.all (!·.live) = true := by
        simpa [hcanceled, hsucceeded] using hC
      obtain ⟨hnone, hdead⟩ := hboth
      have ho : o = none := by
        cases ho : o with
        | none => rfl
        | some q =>
          subst ho
          have hq := List.all_eq_true.mp hnone q hwork.mem
          simp [hwork.works] at hq
      subst ho
      refine ⟨rfl, hinv.claim (fun n hn => ?_) hcanceled _⟩
      obtain ⟨pod, hpod, hlive⟩ := (Option.any_eq_true _ _).mp hn
      have hgone := List.all_eq_true.mp hdead pod (List.mem_of_getElem? hpod)
      simp [hlive] at hgone
    | cancel => cases hp'
    | calm hidle => exact absurd hp' (Bool.eq_false_iff.mp hidle)
  aside := by
    intro s i r p b' p' o hwork hinv hC hi hp hp' hact
    have hC : orderly s (.act i r) = true := hC
    simp only [orderly, hi] at hC
    cases idle_step hp hact with
    | takeOver => cases hp'
    | cancel hterminal =>
      refine hinv.cancel fun status error ho => ?_
      subst ho
      have hall := (Bool.or_eq_true _ _).mp hC
      rw [hterminal] at hall
      have hsave := List.all_eq_true.mp (hall.resolve_left (by decide)) _ hwork.mem
      exact beq_iff_eq.mp hsave
    | calm _ hst hpod hcalm => exact hinv.calm hcalm hst hpod
  env := by
    intro d pod d' o hinv henv
    cases henv
    exact hinv.calm (Calmer.podExits d pod) rfl rfl

theorem accounts_submitted : (accounts false).Holds submitted := by
  have hnone : ∀ n, ¬ Live submitted.store n := fun n hn => nomatch hn
  exact ⟨none, rfl, fun m n hm => absurd hm (hnone m), fun _ n hn => hnone n hn.live,
    fun n hn => absurd hn.live (hnone n), (nomatch ·), fun _ h => (nomatch h)⟩

/-- A CANCELED that was reached may be taken as one that must be kept. -/
theorem accounts_seen {s : Config Board Proc} (h : (accounts false).Holds s)
    (hst : s.store.status = .canceled) : (accounts true).Holds s := by
  obtain ⟨o, hwork, hinv⟩ := h
  exact ⟨o, hwork, hinv.single, hinv.ended, hinv.named, fun _ => hst, hinv.held⟩

/-- A Pod that is not loose has exited or was asked to stop. -/
theorem settled_of_not_loose {pod : Pod} (hpod : b.pods[n]? = some pod) (h : ¬ Loose b n) :
    pod.live = false ∨ pod.terminationRequested = true := by
  rw [Loose, hpod] at h
  cases hlive : pod.live with
  | false => exact Or.inl rfl
  | true =>
    cases hrequested : pod.terminationRequested with
    | false => exact absurd (by simp [hlive, hrequested]) h
    | true => exact Or.inr rfl

/-- **Pod accounting.**  In every orderly run at most one Pod is alive.  When the run is SUCCEEDED or
    FAILED, or a delivery is about to write its last status, every Pod has exited or was asked to
    stop; when it is CANCELED the same holds of every Pod but the one that `pod_id` names, or is about
    to name.  And a CANCELED stays. -/
theorem pods_accounted {s s' : Config Board Proc} (h : training.Reach Orderly submitted s)
    (h' : training.Reach Orderly s s') :
    (∀ m n, Live s.store m → Live s.store n → m = n) ∧
    (s.store.status = .succeeded ∨ s.store.status = .failed ∨
        (∃ status error, .save status error ∈ s.procs) →
      ∀ (n : Nat) (pod : Pod), s.store.pods[n]? = some pod →
        pod.live = false ∨ pod.terminationRequested = true) ∧
    (s.store.status = .canceled → ∀ (n : Nat) (pod : Pod), s.store.pods[n]? = some pod →
      pod.live = false ∨ pod.terminationRequested = true ∨ s.store.podId = some n ∨
        .savePodId n ∈ s.procs) ∧
    (s.store.status = .canceled → s'.store.status = .canceled) := by
  have hholds : (accounts false).Holds s :=
    (accounts false).reach h accounts_submitted
  obtain ⟨o, hwork, hinv⟩ := id hholds
  refine ⟨hinv.single, ?_, ?_, ?_⟩
  · intro hover n pod hpod
    refine settled_of_not_loose hpod ?_
    rcases hover with hst | hst | ⟨status, error, hsave⟩
    · exact hinv.ended (Or.inl hst) n
    · exact hinv.ended (Or.inr hst) n
    · obtain rfl : o = some (.save status error) := hwork.eq hsave rfl
      exact hinv.knows.1 n
  · intro _ n pod hpod
    by_cases hloose : Loose s.store n
    · rcases hinv.named n hloose with hnamed | rfl
      · exact Or.inr (Or.inr (Or.inl hnamed))
      · exact Or.inr (Or.inr (Or.inr hwork.mem))
    · rcases settled_of_not_loose hpod hloose with hlive | hrequested
      · exact Or.inl hlive
      · exact Or.inr (Or.inl hrequested)
  · intro hst
    obtain ⟨o', -, hinv'⟩ := (accounts true).reach h' (accounts_seen hholds hst)
    exact hinv'.kept rfl

/-- The Pod that `pod_id` names at a CANCELED run is asked to stop by every delivery that finds it,
    as soon as its request is out. -/
theorem canceled_asks (hst : b.status = .canceled) (hpod : b.podId = some n) :
    procStep b .train .ok = some (b, .terminateCanceled n) ∧
    ∀ r b' p', (r = .ok ∨ ∃ effect message, r = .failed effect message) →
      procStep b (.terminateCanceled n) r = some (b', p') → ¬ Loose b' n := by
  refine ⟨by simp [procStep, claimStep, hst, hpod], ?_⟩
  rintro r b' p' (rfl | ⟨effect, message, rfl⟩) hact
  · cases hact
    exact not_loose_terminate b n true
  · cases hact
    exact not_loose_terminate b n effect

/-! ## Concrete runs -/

/-- The first delivery creates a Pod and begins to wait for it. -/
def waiting : List (Event Proc Reply Nat) :=
  [.spawn .train, .act 0 .ok, .act 0 .ok, .act 0 .ok, .act 0 .ok, .act 0 .ok]

/-- The run is canceled meanwhile. -/
def canceledWaiting : List (Event Proc Reply Nat) := waiting ++ [.spawn .cancelRun, .act 1 .ok]

/-- The wait sees it, RunPod stops the Pod, the delivery returns. -/
def stopped : List (Event Proc Reply Nat) :=
  [.act 0 .ok, .act 0 .ok, .act 0 .ok, .act 0 .ok]

theorem pods_accounted_stopped : ∃ s s' : Config Board Proc,
    training.run submitted canceledWaiting = some s ∧ training.run s stopped = some s' ∧
      .returned ∈ s'.procs ∧ s'.store.status = .canceled := by
  have hrun := pods_accounted (Program.runWhen_reach _ canceledWaiting rfl)
    (Program.runWhen_reach _ stopped rfl)
  exact ⟨_, _, rfl, rfl, by decide, hrun.2.2.2 rfl⟩

/-- The task is delivered again while the first delivery waits. -/
def redelivered : List (Event Proc Reply Nat) :=
  waiting ++ [.spawn .train, .act 1 .ok, .act 1 .ok, .act 1 .ok, .act 1 .ok]

/-- The Pod exits, the delivery has refreshed the row for its last `save`, the run is canceled. -/
def canceledLate : List (Event Proc Reply Nat) :=
  waiting ++ [.env 0, .act 0 .ok, .act 0 .exited, .act 0 .ok, .act 0 .ok, .spawn .cancelRun,
    .act 1 .ok]

/-- Each part of the accounting fails in some run: a canceled run has a Pod that runs and that
    nobody has asked to stop; a redelivery creates a second live Pod; the last `save` of a delivery
    overwrites CANCELED. -/
theorem pod_unaccounted :
    (∃ s : Config Board Proc, training.Reach Program.Any submitted s ∧
      s.store.status = .canceled ∧ Loose s.store 0) ∧
    (∃ s : Config Board Proc, training.Reach Program.Any submitted s ∧
      Live s.store 0 ∧ Live s.store 1) ∧
    (∃ s s' : Config Board Proc, training.Reach Program.Any submitted s ∧
      training.Reach Program.Any s s' ∧ s.store.status = .canceled ∧
      s'.store.status = .succeeded) := by
  refine ⟨?_, ?_, ?_⟩
  · exact ⟨_, Program.run_reach _ canceledWaiting rfl, rfl, by decide⟩
  · exact ⟨_, Program.run_reach _ redelivered rfl, by decide, by decide⟩
  · exact ⟨_, _, Program.run_reach _ canceledLate rfl, Program.run_reach _ [.act 0 .ok] rfl, rfl,
      rfl⟩

end ControlPlane.Rl
