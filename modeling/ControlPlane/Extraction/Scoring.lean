/-
  THE ADMISSION SCORER: `theorem_ml/extract/scoring.py`, a River forest for every tenant.

  A scorer is stored in a directory that is named by the digest of its tenant, and `score_document` and
  `learn_document` hold the lock of that directory while they read and replace the file.  The forest,
  pickling and the arithmetic of floats are parameters (`River`), and so is the digest, of which
  nothing is assumed: the stored tenant is compared.

  1. `predictOne`, `learnOne`, `exportState` and `importState` are the methods of the scorer.
  2. A scorer `Represents` the feedback that it has learnt from, and one more keeps it so
     (`represents_learn`); its fitness is the prequential error.
  3. `scorer_exact`: in every interleaving, what a tenant is told comes from its own feedback, all of
     it that was saved before, and from nothing else.
-/
import Mathlib.Data.Rat.Encodable
import Mathlib.Logic.Equiv.List
import ControlPlane.Fallible
import ControlPlane.Locked
import ControlPlane.Prequential
import ControlPlane.PyFloat
import ControlPlane.PyStr

namespace ControlPlane.Extraction.Scoring

open Interleave (Program)
open Locked (Jobs)
open Prequential (Learner)
open PyStr

/-! ## Samples -/

/-- `FEATURES`. -/
inductive Feature where
  | fresh
  | independent
  | specific
  | reliable
  | useful
  deriving DecidableEq, Repr

def Feature.all : List Feature := [.fresh, .independent, .specific, .reliable, .useful]

def Feature.name : Feature → PyStr
  | .fresh => lit "fresh"
  | .independent => lit "independent"
  | .specific => lit "specific"
  | .reliable => lit "reliable"
  | .useful => lit "useful"

def Feature.missingName (f : Feature) : PyStr := f.name ++ lit "_missing"

/-- `FEATURE_ORDER`. -/
def FEATURE_ORDER : List PyStr := Feature.all.map Feature.name ++ Feature.all.map Feature.missingName

inductive ScoringError where
  | valueError (message : PyStr)
  | keyError (key : PyStr)
  | unicodeEncodeError
  /-- What `pickle.loads` raises. -/
  | unpickling
  deriving DecidableEq, Repr

/-- The measured features of a document; `none` is one that is missing. -/
abbrev Values := Feature → Option PyFloat

abbrev Sample := List (PyStr × ℚ)

/-- `_finite` of a measured value. -/
def finite : Option PyFloat → Option ℚ
  | some (.finite q) => some q
  | _ => none

/-- The entries that `_to_sample` makes of a feature. -/
def entries (values : Values) (f : Feature) : Except ScoringError Sample :=
  match finite (values f) with
  | none => .ok [(f.name, -1), (f.missingName, 1)]
  | some value =>
      if 0 ≤ value ∧ value ≤ 1 then .ok [(f.name, value), (f.missingName, 0)]
      else .error (.valueError (f.name ++ lit " must be in [0, 1]"))

/-- `_to_sample`. -/
def toSample (order : List PyStr) (values : Values) : Except ScoringError Sample := do
  let sample ← Feature.all.mapM (entries values)
  order.mapM fun key => match sample.flatten.lookup key with
    | some value => .ok (key, value)
    | none => .error (.keyError key)

/-! ## The scorer -/

/-- What the scorer takes from River and from Python: the forest, and the arithmetic of floats. -/
structure River (φ : Type) where
  /-- `forest.ARFRegressor(n_models, seed)`. -/
  new : Nat → Int → φ
  predict : φ → Sample → PyFloat
  learn : φ → Sample → ℚ → φ
  /-- `(a - b) ** 2`. -/
  squared : ℚ → ℚ → ℚ
  plus : ℚ → ℚ → ℚ
  minus : ℚ → ℚ → ℚ
  div : ℚ → Nat → ℚ

/-- `RiverOnlineScorer`. -/
structure Scorer (φ : Type) where
  featureOrder : List PyStr
  nTrees : Nat
  seed : Int
  model : φ
  examplesSeen : Nat
  lastUpdatedAt : Option PyStr
  fitnessSamples : Nat
  squaredError : ℚ

/-- `samples` and `value` of a measured fitness. -/
structure Fitness where
  samples : Nat
  value : ℚ
  deriving DecidableEq

/-- What `learn_one` reports of an update. -/
structure Outcome where
  scoreBefore : Option ℚ
  scoreAfter : Option ℚ
  lossDelta : Option ℚ
  deriving DecidableEq

/-- The `timestamp` of a feedback: its age in seconds, where it can be read. -/
abbrev Age := Option (Option ℚ)

variable {φ : Type}

section Scorer

variable (R : River φ)

/-- `RiverOnlineScorer()`. -/
def Scorer.new : Scorer φ := ⟨FEATURE_ORDER, 10, 42, R.new 10 42, 0, none, 0, 0⟩

/-- `max(0.0, min(1.0, prediction))` of a finite prediction. -/
def clamped (model : φ) (sample : Sample) : Option ℚ :=
  (finite (some (R.predict model sample))).map fun prediction => max 0 (min 1 prediction)

/-- What `predict_one` makes of a sample. -/
def Scorer.predictSample (scorer : Scorer φ) (sample : Sample) : Except ScoringError (Option ℚ) :=
  if scorer.examplesSeen = 0 then .ok none
  else match clamped R scorer.model sample with
    | none => .error (.valueError (lit "River returned a non-finite prediction"))
    | some prediction => .ok (some prediction)

/-- `predict_one`. -/
def Scorer.predictOne (scorer : Scorer φ) (values : Values) : Except ScoringError (Option ℚ) := do
  scorer.predictSample R (← toSample scorer.featureOrder values)

/-- `_finite(label)`, in the unit interval. -/
def unitLabel (label : PyFloat) : Except ScoringError ℚ :=
  match finite (some label) with
  | some q => if 0 ≤ q ∧ q ≤ 1 then .ok q
      else .error (.valueError (lit "feedback label must be finite and in [0, 1]"))
  | none => .error (.valueError (lit "feedback label must be finite and in [0, 1]"))

/-- Whether a feedback is older than 30 days. -/
def tooOld : Age → Except ScoringError Bool
  | none => .ok false
  | some none => .error (.valueError (lit "feedback timestamp must include a timezone"))
  | some (some seconds) => .ok (30 * 86400 < seconds)

/-- The scorer after an update with a score before. -/
def Scorer.updated (scorer : Scorer φ) (sample : Sample) (label : ℚ) (before : Option ℚ)
    (now : PyStr) : Scorer φ :=
  { scorer with
    model := R.learn scorer.model sample label
    examplesSeen := scorer.examplesSeen + 1
    lastUpdatedAt := some now
    fitnessSamples := match before with
      | none => scorer.fitnessSamples
      | some _ => scorer.fitnessSamples + 1
    squaredError := match before with
      | none => scorer.squaredError
      | some score => R.plus scorer.squaredError (R.squared score label) }

/-- `learn_one`; `none` is a sample that is too old. -/
def Scorer.learnOne (scorer : Scorer φ) (values : Values) (label : PyFloat) (age : Age)
    (now : PyStr) : Except ScoringError (Option (Scorer φ × Outcome)) := do
  let label ← unitLabel label
  if ← tooOld age then return none
  else do
    let sample ← toSample scorer.featureOrder values
    let before ← scorer.predictSample R sample
    let scorer' := scorer.updated R sample label before now
    let after ← scorer'.predictSample R sample
    let lossDelta := match before, after with
      | some b, some a => some (R.minus (R.squared b label) (R.squared a label))
      | _, _ => none
    return some (scorer', ⟨before, after, lossDelta⟩)

/-- `fitness`; `none` is `no_fitness`. -/
def Scorer.fitness (scorer : Scorer φ) : Option Fitness :=
  if scorer.fitnessSamples = 0 then none
  else some ⟨scorer.fitnessSamples, R.div scorer.squaredError scorer.fitnessSamples⟩

end Scorer

/-! ## Files -/

/-- What is pickled. -/
structure Payload (φ : Type) where
  version : Nat
  tenant : PyStr
  featureOrder : List PyStr
  nTrees : Nat
  seed : Int
  examplesSeen : Nat
  lastUpdatedAt : Option PyStr
  /-- `none` is anything that is not an `ARFRegressor`. -/
  model : Option φ
  fitnessSamples : Nat
  squaredError : ℚ

/-- `pickle` and the digest that names a directory. -/
structure Disk (φ : Type) where
  dumps : Payload φ → List UInt8
  loads : List UInt8 → Option (Payload φ)
  sha256 : List UInt8 → PyStr

/-- `STATE_HEADER`. -/
def STATE_HEADER : List UInt8 := (lit "THEOREM_ADMISSION_RIVER_V1\n").flatMap utf8

section Disk

variable (D : Disk φ)

/-- `export_state`. -/
def exportState (scorer : Scorer φ) (tenant : PyStr) : List UInt8 :=
  STATE_HEADER ++ D.dumps ⟨1, tenant, scorer.featureOrder, scorer.nTrees, scorer.seed,
    scorer.examplesSeen, scorer.lastUpdatedAt, some scorer.model, scorer.fitnessSamples,
    scorer.squaredError⟩

/-- The checks of `import_state` on what was pickled. -/
def Payload.scorer (payload : Payload φ) (tenant : PyStr) : Except ScoringError (Scorer φ) :=
  if payload.version ≠ 1 ∨ payload.tenant ≠ tenant then
    .error (.valueError (lit "incompatible scorer version or tenant"))
  else if payload.featureOrder ≠ FEATURE_ORDER then
    .error (.valueError (lit "incompatible admission feature schema"))
  else match payload.model with
    | none => .error (.valueError (lit "stored model is not the declared River forest"))
    | some model => .ok ⟨payload.featureOrder, max 1 payload.nTrees, payload.seed, model,
        payload.examplesSeen, payload.lastUpdatedAt, payload.fitnessSamples, payload.squaredError⟩

/-- `import_state`. -/
def importState (data : List UInt8) (tenant : PyStr) : Except ScoringError (Scorer φ) :=
  if STATE_HEADER.isPrefixOf data = false then
    .error (.valueError (lit "invalid admission scorer header"))
  else match D.loads (data.drop STATE_HEADER.length) with
    | none => .error .unpickling
    | some payload => payload.scorer tenant

/-- `_tenant`, and the bytes of the tenant that are digested. -/
def checkTenant (tenant : PyStr) : Except ScoringError (List UInt8) :=
  if strip tenant = [] then .error (.valueError (lit "verified tenant identity is required"))
  else match encode tenant with
    | none => .error .unicodeEncodeError
    | some data => .ok data

/-- The directory of a tenant. -/
def directory (tenant : PyStr) : PyStr := D.sha256 ((encode tenant).getD [])

end Disk

/-! ## `score_document`, `learn_document` -/

structure ScoreAnswer where
  score : Option ℚ
  examplesSeen : Nat
  fitness : Option Fitness
  deriving DecidableEq

/-- `status`. -/
def ScoreAnswer.status (answer : ScoreAnswer) : PyStr :=
  if answer.score.isSome then lit "trained" else lit "untrained"

structure LearnAnswer where
  /-- `none` is a sample that was discarded. -/
  outcome : Option Outcome
  examplesSeen : Nat
  fitness : Option Fitness
  deriving DecidableEq

section Documents

variable (R : River φ) (D : Disk φ)

/-- `score_document` of the features, on what the file holds, if there is one. -/
def scoreDocument (tenant : PyStr) (values : Values) (file : Option (List UInt8)) :
    Except ScoringError ScoreAnswer := do
  let _ ← checkTenant tenant
  match file with
  | none => return ⟨none, 0, none⟩
  | some data => do
      let scorer ← importState D data tenant
      let score ← scorer.predictOne R values
      return ⟨score, scorer.examplesSeen, scorer.fitness R⟩

/-- The scorer that `learn_document` begins with. -/
def storedScorer (tenant : PyStr) : Option (List UInt8) → Except ScoringError (Scorer φ)
  | none => .ok (Scorer.new R)
  | some data => importState D data tenant

/-- `learn_document`: the file it saves, if it saves one, and what it returns. -/
def learnDocument (tenant : PyStr) (values : Values) (label : PyFloat) (age : Age) (now : PyStr)
    (file : Option (List UInt8)) : Except ScoringError (Option (List UInt8) × LearnAnswer) := do
  let _ ← checkTenant tenant
  let scorer ← storedScorer R D tenant file
  match ← scorer.learnOne R values label age now with
  | none => return (none, ⟨none, scorer.examplesSeen, scorer.fitness R⟩)
  | some (scorer', outcome) =>
      return (some (exportState D scorer' tenant),
        ⟨some outcome, scorer'.examplesSeen, scorer'.fitness R⟩)

inductive Job where
  | score (tenant : PyStr) (values : Values)
  | learn (tenant : PyStr) (values : Values) (label : PyFloat) (age : Age) (now : PyStr)

def Job.tenant : Job → PyStr
  | .score tenant _ | .learn tenant .. => tenant

/-- What a job writes to the file. -/
def Job.run (file : Option (List UInt8)) : Job → Except ScoringError (Option (Option (List UInt8)))
  | .score tenant values => (scoreDocument R D tenant values file).map fun _ => none
  | .learn tenant values label age now =>
      (learnDocument R D tenant values label age now file).map fun saved => saved.1.map some

/-- The jobs at the directories of the store. -/
def jobs : Jobs PyStr (Option (List UInt8)) Job ScoringError where
  key job := directory D job.tenant
  run job file := job.run R D file

end Documents

/-! ## What a scorer has learnt from -/

section Represents

variable (R : River φ)

def learner : Learner φ Sample ℚ where
  fresh := R.new 10 42
  learn := R.learn

/-- The error of one test; a prediction that is not finite has none. -/
def addError (total : ℚ) (test : φ × Sample × ℚ) : ℚ :=
  match clamped R test.1 test.2.1 with
  | none => total
  | some score => R.plus total (R.squared score test.2.2)

/-- The scorer has learnt from exactly this feedback, in this order. -/
structure Represents (feedback : List (Sample × ℚ)) (scorer : Scorer φ) : Prop where
  featureOrder : scorer.featureOrder = FEATURE_ORDER
  nTrees : scorer.nTrees = 10
  model : scorer.model = (learner R).trained feedback
  examplesSeen : scorer.examplesSeen = feedback.length
  fitnessSamples : scorer.fitnessSamples = feedback.length - 1
  /-- The first example is not tested: there is nothing yet to predict from. -/
  squaredError : scorer.squaredError = (((learner R).tests feedback).drop 1).foldl (addError R) 0

/-- The score of a sample after this feedback. -/
def scoreAfter (feedback : List (Sample × ℚ)) (sample : Sample) : Option ℚ :=
  if feedback = [] then none else clamped R ((learner R).trained feedback) sample

/-- The fitness after this feedback: the mean error of the tests, each with a model that was trained on
    the examples before. -/
def fitnessAfter (feedback : List (Sample × ℚ)) : Option Fitness :=
  if feedback.length ≤ 1 then none
  else some ⟨feedback.length - 1, R.div (((feedback.mapIdx fun i e =>
    ((learner R).trained (feedback.take i), e)).drop 1).foldl (addError R) 0) (feedback.length - 1)⟩

variable {R} {feedback : List (Sample × ℚ)} {scorer : Scorer φ}

theorem represents_new : Represents R [] (Scorer.new R) := ⟨rfl, rfl, rfl, rfl, rfl, rfl⟩

theorem Represents.fitness (h : Represents R feedback scorer) :
    scorer.fitness R = fitnessAfter R feedback := by
  unfold Scorer.fitness fitnessAfter
  rw [h.fitnessSamples, h.squaredError, Learner.tests_eq_mapIdx]
  by_cases hlen : feedback.length ≤ 1
  · rw [if_pos (by omega), if_pos hlen]
  · rw [if_neg (by omega), if_neg hlen]

/-- A prediction is missing exactly at the start. -/
theorem Represents.before {sample : Sample} {before : Option ℚ} (h : Represents R feedback scorer)
    (hbefore : scorer.predictSample R sample = .ok before) :
    (feedback = [] ∧ before = none) ∨ (feedback ≠ [] ∧ ∃ score, before = some score ∧
      clamped R ((learner R).trained feedback) sample = some score) := by
  unfold Scorer.predictSample at hbefore
  rw [h.examplesSeen] at hbefore
  by_cases hnil : feedback = []
  · rw [hnil, List.length_nil, if_pos rfl] at hbefore
    exact .inl ⟨hnil, (Except.ok.inj hbefore).symm⟩
  · rw [if_neg (mt List.length_eq_zero_iff.mp hnil), h.model] at hbefore
    split at hbefore
    · cases hbefore
    · rename_i score hclamped
      exact .inr ⟨hnil, score, (Except.ok.inj hbefore).symm, hclamped⟩

theorem Represents.score {sample : Sample} {score : Option ℚ} (h : Represents R feedback scorer)
    (hscore : scorer.predictSample R sample = .ok score) :
    score = scoreAfter R feedback sample := by
  unfold scoreAfter
  rcases h.before hscore with ⟨hnil, rfl⟩ | ⟨hnil, p, rfl, hclamped⟩
  · rw [if_pos hnil]
  · rw [if_neg hnil, hclamped]

/-- **One more example**: the scorer has learnt from it, and counts the test before. -/
theorem Represents.updated {sample : Sample} {label : ℚ} {before : Option ℚ} {now : PyStr}
    (h : Represents R feedback scorer) (hbefore : scorer.predictSample R sample = .ok before) :
    Represents R (feedback ++ [(sample, label)]) (scorer.updated R sample label before now) where
  featureOrder := h.featureOrder
  nTrees := h.nTrees
  model := by
    rw [Learner.trained_append, ← h.model]
    rfl
  examplesSeen := by
    rw [List.length_append, ← h.examplesSeen]
    rfl
  fitnessSamples := by
    rw [List.length_append, List.length_singleton, Nat.add_sub_cancel]
    rcases h.before hbefore with ⟨rfl, rfl⟩ | ⟨hnil, p, rfl, -⟩
    · exact h.fitnessSamples
    · have hpos : 0 < feedback.length := List.length_pos_iff.mpr hnil
      have hsamples := h.fitnessSamples
      change scorer.fitnessSamples + 1 = feedback.length
      omega
  squaredError := by
    rw [Learner.tests_append]
    rcases h.before hbefore with ⟨rfl, rfl⟩ | ⟨hnil, p, rfl, hclamped⟩
    · exact h.squaredError
    · have hlen : 1 ≤ ((learner R).tests feedback).length := by
        rw [Learner.tests_eq_mapIdx, List.length_mapIdx]
        exact List.length_pos_iff.mpr hnil
      rw [List.drop_append_of_le_length hlen, List.foldl_append, ← h.squaredError, List.foldl_cons,
        List.foldl_nil, addError, hclamped]
      rfl

/-- What `learn_one` leaves of a scorer that has learnt from some feedback. -/
theorem Represents.learnOne {values : Values} {label : PyFloat} {age : Age} {now : PyStr}
    {scorer' : Scorer φ} {outcome : Outcome} (h : Represents R feedback scorer)
    (hlearn : scorer.learnOne R values label age now = .ok (some (scorer', outcome))) :
    ∃ sample q, toSample FEATURE_ORDER values = .ok sample ∧ unitLabel label = .ok q ∧
      Represents R (feedback ++ [(sample, q)]) scorer' ∧
      outcome.scoreBefore = scoreAfter R feedback sample := by
  unfold Scorer.learnOne at hlearn
  obtain ⟨q, hlabel, hlearn⟩ := Fallible.bind_ok.mp hlearn
  obtain ⟨old, -, hlearn⟩ := Fallible.bind_ok.mp hlearn
  split at hlearn
  · cases hlearn
  · rw [h.featureOrder] at hlearn
    obtain ⟨sample, hsample, hlearn⟩ := Fallible.bind_ok.mp hlearn
    obtain ⟨before, hbefore, hlearn⟩ := Fallible.bind_ok.mp hlearn
    obtain ⟨after, -, hlearn⟩ := Fallible.bind_ok.mp hlearn
    cases hlearn
    exact ⟨sample, q, hsample, hlabel, h.updated hbefore, h.score hbefore⟩

end Represents

/-! ## Whose file it is -/

/-- The example that a tenant gives by a job. -/
def exampleOf (tenant : PyStr) : Job → Option (Sample × ℚ)
  | .learn tenant' values label _ _ =>
      if tenant' = tenant then
        match toSample FEATURE_ORDER values, unitLabel label with
        | .ok sample, .ok q => some (sample, q)
        | _, _ => none
      else none
  | .score .. => none

/-- The feedback of a tenant, in the order in which it was saved. -/
def feedback (tenant : PyStr) (log : List Job) : List (Sample × ℚ) := log.filterMap (exampleOf tenant)

section Owned

variable (R : River φ) (D : Disk φ)

/-- A directory is empty, or it holds the scorer of the one tenant whose feedback was saved there, and
    this scorer has learnt from all of it. -/
def Owned (dir : PyStr) (log : List Job) (file : Option (List UInt8)) : Prop :=
  (file = none ∧ ∀ job ∈ log, directory D job.tenant ≠ dir) ∨
  ∃ owner scorer, directory D owner = dir ∧ file = some (exportState D scorer owner) ∧
    feedback owner log ≠ [] ∧ Represents R (feedback owner log) scorer ∧
    ∀ job ∈ log, directory D job.tenant = dir → job.tenant = owner

variable {R D} {tenant owner dir : PyStr} {log : List Job} {scorer scorer' : Scorer φ}
  {file : Option (List UInt8)} {es : List (Sample × ℚ)} {values : Values} {label : PyFloat} {age : Age}
  {now : PyStr}

theorem feedback_append (job : Job) :
    feedback tenant (log ++ [job]) = feedback tenant log ++ (exampleOf tenant job).toList := by
  unfold feedback
  rw [List.filterMap_append]
  cases h : exampleOf tenant job with
  | none => rw [List.filterMap_cons_none h, List.filterMap_nil, Option.toList_none]
  | some e => rw [List.filterMap_cons_some h, List.filterMap_nil, Option.toList_some]

theorem exampleOf_other {job : Job} (h : job.tenant ≠ tenant) : exampleOf tenant job = none := by
  cases job with
  | score tenant' values => rfl
  | learn tenant' values label age now => exact if_neg h

/-- What was exported is imported by its tenant and refused to any other. -/
theorem importState_export (hpickle : ∀ p, D.loads (D.dumps p) = some p) (h : Represents R es scorer) :
    importState D (exportState D scorer owner) tenant =
      if owner = tenant then .ok scorer
      else .error (.valueError (lit "incompatible scorer version or tenant")) := by
  have hheader : STATE_HEADER.isPrefixOf (exportState D scorer owner) = true :=
    List.isPrefixOf_iff_prefix.mpr (List.prefix_append _ _)
  unfold importState
  rw [hheader, if_neg (by decide), exportState, List.drop_left, hpickle]
  simp only [Payload.scorer]
  by_cases howner : owner = tenant
  · rw [if_neg (not_or.mpr ⟨not_not.mpr rfl, not_not.mpr howner⟩), if_neg (not_not.mpr h.featureOrder),
      if_pos howner, h.nTrees]
    cases scorer
    cases h.nTrees
    rfl
  · rw [if_pos (.inr howner), if_neg howner]

/-- A tenant that gets at a scorer gets at its own. -/
theorem Owned.stored (hpickle : ∀ p, D.loads (D.dumps p) = some p) (h : Owned R D dir log file)
    (hdir : directory D tenant = dir) (hstored : storedScorer R D tenant file = .ok scorer) :
    Represents R (feedback tenant log) scorer ∧
      ∀ job ∈ log, directory D job.tenant = dir → job.tenant = tenant := by
  rcases h with ⟨rfl, hempty⟩ | ⟨owner, scorer', -, rfl, -, hrepresents, howner⟩
  · cases hstored
    have hnil : feedback tenant log = [] := by
      refine List.filterMap_eq_nil_iff.mpr fun job hjob => exampleOf_other ?_
      rintro rfl
      exact hempty job hjob hdir
    rw [hnil]
    exact ⟨represents_new, fun job hjob hkey => absurd hkey (hempty job hjob)⟩
  · rw [storedScorer, importState_export hpickle hrepresents] at hstored
    split at hstored
    · rename_i hsame
      cases hstored
      cases hsame
      exact ⟨hrepresents, howner⟩
    · cases hstored

/-- A job beside a directory leaves it alone. -/
theorem Owned.aside {job : Job} (h : Owned R D dir log file) (hdir : directory D job.tenant ≠ dir) :
    Owned R D dir (log ++ [job]) file := by
  have hall : ∀ job' ∈ log ++ [job], directory D job'.tenant = dir → job' ∈ log := by
    intro job' hjob' hkey
    rcases List.mem_append.mp hjob' with hmem | hmem
    · exact hmem
    · rw [List.mem_singleton.mp hmem] at hkey
      exact absurd hkey hdir
  rcases h with ⟨hfile, hempty⟩ | ⟨owner, scorer', rfl, hfile, hne, hrepresents, howner⟩
  · exact .inl ⟨hfile, fun job' hjob' hkey => hempty job' (hall job' hjob' hkey) hkey⟩
  · have hsame : feedback owner (log ++ [job]) = feedback owner log := by
      rw [feedback_append, exampleOf_other fun h => hdir (congrArg (directory D) h), Option.toList_none,
        List.append_nil]
    exact .inr ⟨owner, scorer', rfl, hfile, hsame ▸ hne, hsame ▸ hrepresents,
      fun job' hjob' hkey => howner job' (hall job' hjob' hkey) hkey⟩

/-- What a call that saves has done. -/
theorem learnDocument_saved {data : List UInt8} {answer : LearnAnswer}
    (h : learnDocument R D tenant values label age now file = .ok (some data, answer)) :
    ∃ scorer scorer' outcome, storedScorer R D tenant file = .ok scorer ∧
      scorer.learnOne R values label age now = .ok (some (scorer', outcome)) ∧
      data = exportState D scorer' tenant ∧
      answer = ⟨some outcome, scorer'.examplesSeen, scorer'.fitness R⟩ := by
  unfold learnDocument at h
  obtain ⟨-, -, h⟩ := Fallible.bind_ok.mp h
  obtain ⟨scorer, hstored, h⟩ := Fallible.bind_ok.mp h
  obtain ⟨learnt, hlearn, h⟩ := Fallible.bind_ok.mp h
  cases learnt with
  | none => cases h
  | some learnt =>
    obtain ⟨scorer', outcome⟩ := learnt
    cases h
    exact ⟨scorer, scorer', outcome, hstored, hlearn, rfl, rfl⟩

/-- **A call that saves** has added its example to its tenant's feedback. -/
theorem Owned.learnt (hpickle : ∀ p, D.loads (D.dumps p) = some p)
    (h : Owned R D (directory D tenant) log file) {data : List UInt8} {answer : LearnAnswer}
    (hlearn : learnDocument R D tenant values label age now file = .ok (some data, answer)) :
    Owned R D (directory D tenant) (log ++ [.learn tenant values label age now]) (some data) ∧
      ∃ sample q outcome, toSample FEATURE_ORDER values = .ok sample ∧ unitLabel label = .ok q ∧
        outcome.scoreBefore = scoreAfter R (feedback tenant log) sample ∧
        answer = ⟨some outcome, (feedback tenant log).length + 1,
          fitnessAfter R (feedback tenant log ++ [(sample, q)])⟩ := by
  obtain ⟨scorer, scorer', outcome, hstored, hone, rfl, rfl⟩ := learnDocument_saved hlearn
  obtain ⟨hrepresents, howner⟩ := h.stored hpickle rfl hstored
  obtain ⟨sample, q, hsample, hlabel, hrepresents', hbefore⟩ := hrepresents.learnOne hone
  have hexample : exampleOf tenant (.learn tenant values label age now) = some (sample, q) := by
    rw [exampleOf, if_pos rfl, hsample, hlabel]
  refine ⟨.inr ⟨tenant, scorer', rfl, rfl, ?_, ?_, ?_⟩, sample, q, outcome, hsample, hlabel, hbefore, ?_⟩
  · rw [feedback_append, hexample]
    exact List.append_ne_nil_of_right_ne_nil _ (List.cons_ne_nil _ _)
  · rw [feedback_append, hexample]
    exact hrepresents'
  · intro job hjob hkey
    rcases List.mem_append.mp hjob with hmem | hmem
    · exact howner job hmem hkey
    · rw [List.mem_singleton.mp hmem]
      rfl
  · rw [hrepresents'.examplesSeen, hrepresents'.fitness, List.length_append, List.length_singleton]

/-- **What a tenant is told**: that nothing was learnt, or the score after its own feedback. -/
theorem Owned.scored (hpickle : ∀ p, D.loads (D.dumps p) = some p)
    (h : Owned R D (directory D tenant) log file) {answer : ScoreAnswer}
    (hscore : scoreDocument R D tenant values file = .ok answer) :
    (feedback tenant log = [] ∧ answer = ⟨none, 0, none⟩) ∨
      ∃ sample, toSample FEATURE_ORDER values = .ok sample ∧
        answer = ⟨scoreAfter R (feedback tenant log) sample, (feedback tenant log).length,
          fitnessAfter R (feedback tenant log)⟩ := by
  unfold scoreDocument at hscore
  obtain ⟨-, -, hscore⟩ := Fallible.bind_ok.mp hscore
  cases file with
  | none =>
    cases hscore
    have hnew : Represents R (feedback tenant log) (Scorer.new R) := (h.stored hpickle rfl rfl).1
    exact .inl ⟨List.length_eq_zero_iff.mp hnew.examplesSeen.symm, rfl⟩
  | some data =>
    obtain ⟨scorer, hstored, hscore⟩ := Fallible.bind_ok.mp hscore
    obtain ⟨score, hpredict, hscore⟩ := Fallible.bind_ok.mp hscore
    obtain ⟨hrepresents, -⟩ := h.stored hpickle rfl hstored
    obtain ⟨sample, hsample, hpredict⟩ := Fallible.bind_ok.mp hpredict
    cases hscore
    rw [hrepresents.featureOrder] at hsample
    refine .inr ⟨sample, hsample, ?_⟩
    rw [hrepresents.score hpredict, hrepresents.examplesSeen, hrepresents.fitness]

/-- Only a learning job writes. -/
theorem run_saved {job : Job} {cell : Option (List UInt8)} (h : job.run R D file = .ok (some cell)) :
    ∃ tenant values label age now data answer, job = .learn tenant values label age now ∧
      learnDocument R D tenant values label age now file = .ok (some data, answer) ∧
      cell = some data := by
  cases job with
  | score tenant values =>
    obtain ⟨-, -, hnone⟩ := Fallible.map_ok.mp h
    cases hnone
  | learn tenant values label age now =>
    obtain ⟨saved, hlearn, hsaved⟩ := Fallible.map_ok.mp h
    obtain ⟨saved, answer⟩ := saved
    obtain ⟨data, hdata, rfl⟩ := Option.map_eq_some_iff.mp hsaved
    obtain rfl : saved = some data := hdata
    exact ⟨tenant, values, label, age, now, data, answer, rfl, hlearn, rfl⟩

/-- Jobs that ran leave every directory to its owner. -/
theorem owned_ran (hpickle : ∀ p, D.loads (D.dumps p) = some p)
    (h : Jobs.Ran (jobs R D) (fun _ => none) log) (dir : PyStr) :
    Owned R D dir log ((jobs R D).value dir none log) := by
  induction h with
  | nil => exact .inl ⟨rfl, fun job hjob => nomatch hjob⟩
  | @snoc log job cell _ hrun ih =>
    rw [Jobs.value_append]
    by_cases hdir : (jobs R D).key job = dir
    · rw [if_pos hdir]
      subst hdir
      rw [Jobs.apply_of_run hrun]
      obtain ⟨tenant, values, label, age, now, data, answer, rfl, hlearn, rfl⟩ := run_saved hrun
      exact (ih.learnt hpickle hlearn).1
    · rw [if_neg hdir]
      exact ih.aside hdir

end Owned

/-! ## Every interleaving -/

/-- **A tenant's scores come from its own feedback.**  However the calls interleave and wherever they
    die: a directory is empty or holds the scorer that has learnt from all the saved feedback of its one
    tenant, in the order of saving; what was saved is what got past its save, each call once; a score
    that was returned, with its fitness, comes from what its tenant had saved up to some moment; and a
    call that has learnt has reported the score from before. -/
theorem scorer_exact (R : River φ) (D : Disk φ) (hpickle : ∀ p, D.loads (D.dumps p) = some p)
    {st : Interleave.Config (Locked.Store PyStr (Option (List UInt8)) Job)
      (Locked.Proc (Option (List UInt8)) Job ScoringError)}
    (hst : (jobs R D).program.Reach Program.Any (Jobs.fresh fun _ => none) st) :
    (∀ dir, Owned R D dir st.store.written (st.store.cells dir)) ∧
    st.store.written.Perm (st.procs.filterMap Jobs.committed) ∧
    (∀ tenant values file, .ended (.score tenant values) (some file) .unchanged ∈ st.procs →
      ∃ earlier answer, earlier <+: st.store.written ∧
        scoreDocument R D tenant values file = .ok answer ∧
        ((feedback tenant earlier = [] ∧ answer = ⟨none, 0, none⟩) ∨
          ∃ sample, toSample FEATURE_ORDER values = .ok sample ∧
            answer = ⟨scoreAfter R (feedback tenant earlier) sample, (feedback tenant earlier).length,
              fitnessAfter R (feedback tenant earlier)⟩)) ∧
    ∀ tenant values label age now file,
      .ended (.learn tenant values label age now) (some file) .updated ∈ st.procs →
      ∃ earlier sample q outcome data,
        earlier ++ [.learn tenant values label age now] <+: st.store.written ∧
        toSample FEATURE_ORDER values = .ok sample ∧ unitLabel label = .ok q ∧
        outcome.scoreBefore = scoreAfter R (feedback tenant earlier) sample ∧
        learnDocument R D tenant values label age now file = .ok (some data,
          ⟨some outcome, (feedback tenant earlier).length + 1,
            fitnessAfter R (feedback tenant earlier ++ [(sample, q)])⟩) := by
  have hran := Jobs.ran hst
  refine ⟨fun dir => ?_, Jobs.counted hst, fun tenant values file hp => ?_,
    fun tenant values label age now file hp => ?_⟩
  · rw [Jobs.replayed hst]
    exact owned_ran hpickle hran dir
  · obtain ⟨hplaced, htold⟩ := Jobs.seen_earlier hst _ hp
    obtain ⟨earlier, rfl, hearlier⟩ := hplaced _ _ rfl
    have hbefore : earlier <+: st.store.written := (List.prefix_append _ _).trans hearlier
    obtain ⟨answer, hscore, -⟩ := Fallible.map_ok.mp htold
    exact ⟨earlier, answer, hbefore, hscore,
      (owned_ran hpickle (hran.earlier hbefore) _).scored hpickle hscore⟩
  · obtain ⟨hplaced, row, hrun⟩ := Jobs.seen_earlier hst _ hp
    obtain ⟨earlier, rfl, hearlier⟩ := hplaced _ _ rfl
    have hbefore : earlier <+: st.store.written := (List.prefix_append _ _).trans hearlier
    have hrun : Job.run R D _ (.learn tenant values label age now) = .ok (some row) := hrun
    obtain ⟨_, _, _, _, _, data, answer, heq, hlearn, -⟩ := run_saved hrun
    cases heq
    obtain ⟨-, sample, q, outcome, hsample, hlabel, hscore, rfl⟩ :=
      (owned_ran hpickle (hran.earlier hbefore) _).learnt hpickle hlearn
    exact ⟨earlier, sample, q, outcome, data, hearlier, hsample, hlabel, hscore, hlearn⟩

/-! ### One feedback -/

def payloadParts (p : Payload Nat) : (Nat × PyStr × List PyStr × Nat × Int × Nat) ×
    (Option PyStr × Option Nat × Nat × ℚ) :=
  ((p.version, p.tenant, p.featureOrder, p.nTrees, p.seed, p.examplesSeen),
    (p.lastUpdatedAt, p.model, p.fitnessSamples, p.squaredError))

def payloadOf (t : (Nat × PyStr × List PyStr × Nat × Int × Nat) ×
    (Option PyStr × Option Nat × Nat × ℚ)) : Payload Nat :=
  ⟨t.1.1, t.1.2.1, t.1.2.2.1, t.1.2.2.2.1, t.1.2.2.2.2.1, t.1.2.2.2.2.2, t.2.1, t.2.2.1, t.2.2.2.1,
    t.2.2.2.2⟩

/-- A disk on which the length of a file is what it holds. -/
def toyDisk : Disk Nat where
  dumps p := List.replicate (Encodable.encode (payloadParts p)) 0
  loads data := (Encodable.decode data.length).map payloadOf
  sha256 _ := lit "ca978112ca1bbdcafac231b39a23dc4da786eff8147c4e72b9807785afee48bb"

theorem toyDisk_pickle (p : Payload Nat) : toyDisk.loads (toyDisk.dumps p) = some p := by
  simp only [toyDisk, List.length_replicate, Encodable.encodek, Option.map_some]
  rfl

/-- A forest that counts what it has seen, and is undecided. -/
def toyRiver : River Nat where
  new _ _ := 0
  predict _ _ := .finite (1 / 2)
  learn n _ _ := n + 1
  squared a b := (a - b) ^ 2
  plus := (· + ·)
  minus := (· - ·)
  div a n := a / n

def unmeasured : Values := fun _ => none

def firstFeedback : Job := .learn (lit "a") unmeasured (.finite 1) none (lit "2026-08-01T00:00:00+00:00")

/-- The sample of a document of which nothing was measured. -/
def unmeasuredSample : Sample :=
  Feature.all.map (fun f => (f.name, -1)) ++ Feature.all.map fun f => (f.missingName, 1)

def learnt : Scorer Nat :=
  (Scorer.new toyRiver).updated toyRiver unmeasuredSample 1 none (lit "2026-08-01T00:00:00+00:00")

theorem firstFeedback_reach : (jobs toyRiver toyDisk).program.Reach Program.Any
    (Jobs.fresh fun _ => none) (Jobs.alone (jobs toyRiver toyDisk) (fun _ => none) firstFeedback
      (some (exportState toyDisk learnt (lit "a")))) :=
  Jobs.alone_reach rfl

theorem scorer_exact_first : Owned toyRiver toyDisk (directory toyDisk (lit "a")) [firstFeedback]
    (some (exportState toyDisk learnt (lit "a"))) :=
  (scorer_exact toyRiver toyDisk toyDisk_pickle firstFeedback_reach).1 _

end ControlPlane.Extraction.Scoring
