/-
  CLOSING CLAIMS IN SOURCE TIME: `invalidations` of `theorem_ml/extract/temporal.py`.

  A claim on an exclusive predicate closes the open claims of its subject that say something else and
  are NOT NEWER than itself.  Claims arrive one at a time, and each arrival is checked against the
  claims that are there, so only an older claim that arrived earlier is ever closed.

  1. Inserting a claim removes from the open ones those that it closes, and opens itself
     (`open_insert`); so a claim is open in the end when none of the later arrivals closes it
     (`mem_inserted`).
  2. Arriving in the order of their times, the claims that no newer one contradicts stay open
     (`mem_chronological`), and those agree with one another.
  3. Any other order leaves the same claims open exactly when every claim that a newer one contradicts
     is followed by such a one (`arrival_independent_iff`).

  Times are compared as instants; reading them is a parameter.
-/
import ControlPlane.PyStr
import ControlPlane.Sorting
import ControlPlane.Table

namespace ControlPlane.Extraction.Temporal

/-! ## Claims -/

/-- A claim, as far as closing it goes. -/
structure Claim where
  id : PyStr
  tenantId : PyStr
  subjectId : Option PyStr
  predicate : Option PyStr
  objectText : Option PyStr
  verified : Bool
  exclusivePredicate : Bool
  validFrom : PyStr
  validTo : Option PyStr := none
  deriving DecidableEq

structure Edge where
  kind : PyStr
  source : PyStr
  target : PyStr
  deriving DecidableEq

/-- What becomes of a claim that is closed. -/
structure Update where
  id : PyStr
  validTo : PyStr
  edge : Edge
  deriving DecidableEq

/-- What a claim says something of. -/
def Claim.key (c : Claim) : PyStr × Option PyStr × Option PyStr := (c.tenantId, c.subjectId, c.predicate)

/-- `bool(value)` of a text that may be missing. -/
def truthy : Option PyStr → Bool
  | some text => !text.isEmpty
  | none => false

section Insert

variable {τ : Type} [LinearOrder τ] (fromIso : PyStr → τ)

/-- The condition of the loop. -/
def closes (incoming old : Claim) : Bool :=
  decide (old.tenantId = incoming.tenantId) && decide (old.subjectId = incoming.subjectId) &&
    decide (old.predicate = incoming.predicate) && old.verified && old.validTo.isNone &&
    decide (old.id ≠ incoming.id) && decide (old.objectText ≠ incoming.objectText) &&
    decide (fromIso old.validFrom ≤ fromIso incoming.validFrom)

/-- `invalidations`. -/
def invalidations (existing : List Claim) (incoming : Claim) : List Update :=
  if !incoming.verified || !incoming.exclusivePredicate then []
  else if !truthy incoming.subjectId || !truthy incoming.predicate || incoming.objectText.isNone then []
  else (existing.filter (closes fromIso incoming)).map fun old =>
    ⟨old.id, incoming.validFrom, ⟨PyStr.lit "INVALIDATED_BY", old.id, incoming.id⟩⟩

/-- The claims with an update take its `valid_to`. -/
def applyUpdates (updates : List Update) (claims : List Claim) : List Claim :=
  claims.map fun c => match updates.find? fun u => u.id = c.id with
    | some u => { c with validTo := some u.validTo }
    | none => c

/-- One claim arrives. -/
def insert (claims : List Claim) (incoming : Claim) : List Claim :=
  applyUpdates (invalidations fromIso claims incoming) claims ++ [incoming]

/-- Claims arrive one after another. -/
def inserted (arrivals : List Claim) : List Claim := arrivals.foldl (insert fromIso) []

/-- The claims that have no end. -/
def openClaims (claims : List Claim) : List Claim := claims.filter fun c => c.validTo.isNone

/-- The arrivals in the order of their times. -/
def chronological (arrivals : List Claim) : List Claim :=
  Sorting.sortedBy (fun c => fromIso c.validFrom) arrivals

end Insert

/-- A verified, entity-linked claim on an exclusive predicate that was not closed before. -/
structure Claim.Admitted (c : Claim) : Prop where
  verified : c.verified = true
  exclusive : c.exclusivePredicate = true
  subject : truthy c.subjectId = true
  predicate : truthy c.predicate = true
  object : c.objectText.isSome = true
  unclosed : c.validTo = none

section Laws

variable {τ : Type} [LinearOrder τ] {fromIso : PyStr → τ} {claims arrivals : List Claim}
  {c d incoming : Claim}

/-! ## One arrival -/

theorem invalidations_admitted (h : incoming.Admitted) :
    invalidations fromIso claims incoming = (claims.filter (closes fromIso incoming)).map fun old =>
      ⟨old.id, incoming.validFrom, ⟨PyStr.lit "INVALIDATED_BY", old.id, incoming.id⟩⟩ := by
  have hobject : incoming.objectText.isNone = false := by
    rw [← Option.not_isSome, h.object]
    rfl
  unfold invalidations
  rw [h.verified, h.exclusive, h.subject, h.predicate, hobject]
  rfl

/-- With ids of their own, the claim under an id is the only one there. -/
theorem find_id {p : Claim → Bool} (hids : (claims.map Claim.id).Nodup) (hc : c ∈ claims) :
    ((claims.filter p).find? fun old => old.id = c.id) = if p c then some c else none := by
  have honly : ∀ old ∈ claims.filter p, old.id = c.id → old = c := fun old hold hid =>
    Table.eq_of_key hids (List.mem_filter.mp hold).1 hc hid
  split
  · rename_i hp
    cases hfind : (claims.filter p).find? fun old => old.id = c.id with
    | none =>
      have hnone := List.find?_eq_none.mp hfind c (List.mem_filter.mpr ⟨hc, hp⟩)
      exact absurd (decide_eq_true rfl) hnone
    | some old =>
      have hid : old.id = c.id := by simpa using List.find?_some hfind
      rw [honly old (List.mem_of_find?_eq_some hfind) hid]
  · rename_i hp
    refine List.find?_eq_none.mpr fun old hold hid => hp ?_
    rw [← honly old hold (of_decide_eq_true hid)]
    exact (List.mem_filter.mp hold).2

/-- Exactly the claims that the arrival closes are closed. -/
theorem applyUpdates_admitted (h : incoming.Admitted) (hids : (claims.map Claim.id).Nodup) :
    applyUpdates (invalidations fromIso claims incoming) claims = claims.map fun c =>
      if closes fromIso incoming c then { c with validTo := some incoming.validFrom } else c := by
  refine List.map_congr_left fun c hc => ?_
  rw [invalidations_admitted h, List.find?_map]
  have hfind := find_id (p := closes fromIso incoming) hids hc
  simp only [Function.comp_def, hfind]
  cases closes fromIso incoming c with
  | true => rfl
  | false => rfl

theorem ids_insert (h : incoming.Admitted) (hids : (claims.map Claim.id).Nodup) :
    (insert fromIso claims incoming).map Claim.id = claims.map Claim.id ++ [incoming.id] := by
  rw [insert, applyUpdates_admitted h hids, List.map_append, List.map_map]
  refine congrArg (· ++ _) (List.map_congr_left fun c _ => ?_)
  simp only [Function.comp_apply]
  split
  · rfl
  · rfl

/-- The claims that the arrival closes are open no more, and the arrival is. -/
theorem open_insert (h : incoming.Admitted) (hids : (claims.map Claim.id).Nodup) :
    openClaims (insert fromIso claims incoming) =
      (openClaims claims).filter (fun c => !closes fromIso incoming c) ++ [incoming] := by
  have hincoming : openClaims [incoming] = [incoming] := by
    rw [openClaims, List.filter_cons, h.unclosed]
    rfl
  rw [insert, applyUpdates_admitted h hids, openClaims, List.filter_append]
  refine congrArg₂ (· ++ ·) ?_ hincoming
  rw [openClaims, List.filter_filter]
  clear hids
  induction claims with
  | nil => rfl
  | cons c claims ih =>
    rw [List.map_cons, List.filter_cons, List.filter_cons, ih]
    cases hcloses : closes fromIso incoming c with
    | true => simp
    | false => simp

/-! ## All arrivals -/

/-- A claim is open in the end when it was open or arrived, and no later arrival closes it. -/
theorem mem_open_foldl (hadmitted : ∀ d ∈ arrivals, d.Admitted)
    (hids : (claims.map Claim.id ++ arrivals.map Claim.id).Nodup) :
    c ∈ openClaims (arrivals.foldl (insert fromIso) claims) ↔
      (c ∈ openClaims claims ∧ ∀ d ∈ arrivals, closes fromIso d c = false) ∨
        ∃ before after, arrivals = before ++ c :: after ∧
          ∀ d ∈ after, closes fromIso d c = false := by
  induction arrivals generalizing claims with
  | nil => simp
  | cons incoming arrivals ih =>
    rw [List.forall_mem_cons] at hadmitted
    have hclaims : (claims.map Claim.id).Nodup := (List.nodup_append.mp hids).1
    have hnext : ((insert fromIso claims incoming).map Claim.id ++ arrivals.map Claim.id).Nodup := by
      rw [ids_insert hadmitted.1 hclaims, List.append_assoc]
      exact hids
    rw [List.foldl_cons, ih hadmitted.2 hnext, open_insert hadmitted.1 hclaims, List.mem_append,
      List.mem_filter, List.mem_singleton, Bool.not_eq_true']
    constructor
    · rintro (⟨⟨hopen, hclosed⟩ | rfl, hlater⟩ | ⟨before, after, rfl, hlater⟩)
      · exact Or.inl ⟨hopen, List.forall_mem_cons.mpr ⟨hclosed, hlater⟩⟩
      · exact Or.inr ⟨[], arrivals, rfl, hlater⟩
      · exact Or.inr ⟨incoming :: before, after, rfl, hlater⟩
    · rintro (⟨hopen, hlater⟩ | ⟨before, after, heq, hlater⟩)
      · obtain ⟨hclosed, hlater⟩ := List.forall_mem_cons.mp hlater
        exact Or.inl ⟨Or.inl ⟨hopen, hclosed⟩, hlater⟩
      · cases before with
        | nil =>
          obtain ⟨rfl, rfl⟩ := List.cons.inj heq
          exact Or.inl ⟨Or.inr rfl, hlater⟩
        | cons first before =>
          obtain ⟨rfl, rfl⟩ := List.cons.inj heq
          exact Or.inr ⟨before, after, rfl, hlater⟩

/-- Claims with ids and times of their own, in the order in which they arrive. -/
structure Arrivals (fromIso : PyStr → τ) (arrivals : List Claim) : Prop where
  admitted : ∀ c ∈ arrivals, c.Admitted
  ids : (arrivals.map Claim.id).Nodup
  times : (arrivals.map fun c => fromIso c.validFrom).Nodup

theorem mem_inserted (h : Arrivals fromIso arrivals) :
    c ∈ openClaims (inserted fromIso arrivals) ↔ ∃ before after, arrivals = before ++ c :: after ∧
      ∀ d ∈ after, closes fromIso d c = false := by
  rw [inserted, mem_open_foldl h.admitted (by simpa using h.ids)]
  exact or_iff_right fun hopen => List.not_mem_nil hopen.1

omit [LinearOrder τ] in
theorem Arrivals.perm {arrivals' : List Claim} (h : Arrivals fromIso arrivals)
    (hperm : arrivals.Perm arrivals') : Arrivals fromIso arrivals' where
  admitted c hc := h.admitted c (hperm.mem_iff.mpr hc)
  ids := (hperm.map _).nodup_iff.mp h.ids
  times := (hperm.map _).nodup_iff.mp h.times

/-! ## The order of the times -/

theorem closes_iff : closes fromIso d c = true ↔ c.key = d.key ∧ c.verified = true ∧
    c.validTo = none ∧ c.id ≠ d.id ∧ c.objectText ≠ d.objectText ∧
    fromIso c.validFrom ≤ fromIso d.validFrom := by
  simp only [closes, Claim.key, Bool.and_eq_true, decide_eq_true_eq, Option.isNone_iff_eq_none,
    Prod.mk.injEq, and_assoc]

/-- No claim of the list closes it. -/
def Uncontradicted (fromIso : PyStr → τ) (arrivals : List Claim) (c : Claim) : Prop :=
  ∀ d ∈ arrivals, closes fromIso d c = false

/-- In the order of the times, what comes before a claim does not close it. -/
theorem mem_chronological (h : Arrivals fromIso arrivals) :
    c ∈ openClaims (inserted fromIso (chronological fromIso arrivals)) ↔
      c ∈ arrivals ∧ Uncontradicted fromIso arrivals c := by
  have hperm : (chronological fromIso arrivals).Perm arrivals := Sorting.sortedBy_perm _ _
  have hsorted : (chronological fromIso arrivals).Pairwise fun a b =>
      fromIso a.validFrom ≤ fromIso b.validFrom := List.pairwise_insertionSort _ _
  rw [mem_inserted (h.perm hperm.symm)]
  constructor
  · rintro ⟨before, after, heq, hlater⟩
    have hc : c ∈ chronological fromIso arrivals := heq ▸ List.mem_append_right _ List.mem_cons_self
    refine ⟨hperm.mem_iff.mp hc, fun d hd => ?_⟩
    have hd' : d ∈ before ++ c :: after := heq ▸ hperm.mem_iff.mpr hd
    rcases List.mem_append.mp hd' with hbefore | hafter
    · -- an earlier arrival is older
      rw [← Bool.not_eq_true, closes_iff]
      rintro ⟨-, -, -, hid, -, hle⟩
      rw [heq] at hsorted
      have hge := (List.pairwise_append.mp hsorted).2.2 d hbefore c List.mem_cons_self
      have hsame : c = d := Table.eq_of_key h.times (hperm.mem_iff.mp hc) hd (le_antisymm hle hge)
      exact hid (congrArg Claim.id hsame)
    · rcases List.mem_cons.mp hafter with rfl | hafter
      · rw [← Bool.not_eq_true, closes_iff]
        rintro ⟨-, -, -, hid, -⟩
        exact hid rfl
      · exact hlater d hafter
  · rintro ⟨hc, hnone⟩
    obtain ⟨before, after, heq⟩ := List.append_of_mem (hperm.mem_iff.mpr hc)
    refine ⟨before, after, heq, fun d hd => hnone d (hperm.mem_iff.mp ?_)⟩
    rw [heq]
    exact List.mem_append_right _ (List.mem_cons_of_mem _ hd)

/-- The same claims are open as if all had arrived in the order of their times, and open claims of one
    key say the same. -/
structure Independent (fromIso : PyStr → τ) (arrivals : List Claim) : Prop where
  same : ∀ c, c ∈ openClaims (inserted fromIso arrivals) ↔
    c ∈ openClaims (inserted fromIso (chronological fromIso arrivals))
  single : ∀ a ∈ openClaims (inserted fromIso arrivals),
    ∀ b ∈ openClaims (inserted fromIso arrivals), a.key = b.key → a.objectText = b.objectText

/-- Every claim that a newer one contradicts is followed by such a one. -/
def Followed (fromIso : PyStr → τ) (arrivals : List Claim) : Prop :=
  ∀ before c after, arrivals = before ++ c :: after →
    (∃ d ∈ before, closes fromIso d c = true) → ∃ d ∈ after, closes fromIso d c = true

/-- **When the order of arrival does not matter.**  Exactly when every claim that an earlier arrival
    contradicts and outdates is contradicted again by a newer one that arrives later. -/
theorem arrival_independent_iff (fromIso : PyStr → τ) (arrivals : List Claim)
    (h : Arrivals fromIso arrivals) : Independent fromIso arrivals ↔ Followed fromIso arrivals := by
  constructor
  · rintro ⟨hsame, -⟩ before c after heq ⟨d, hd, hcloses⟩
    by_contra hnone
    have hlater : ∀ d ∈ after, closes fromIso d c = false := fun d hd =>
      Bool.eq_false_iff.mpr fun h => hnone ⟨d, hd, h⟩
    have hopen := (hsame c).mp ((mem_inserted h).mpr ⟨before, after, heq, hlater⟩)
    have hfalse := ((mem_chronological h).mp hopen).2 d (heq ▸ List.mem_append_left _ hd)
    exact absurd hcloses (by rw [hfalse]; exact Bool.false_ne_true)
  · intro hfollowed
    have hopen : ∀ c, c ∈ openClaims (inserted fromIso arrivals) ↔
        c ∈ arrivals ∧ Uncontradicted fromIso arrivals c := by
      intro c
      rw [mem_inserted h]
      constructor
      · rintro ⟨before, after, rfl, hlater⟩
        refine ⟨List.mem_append_right _ List.mem_cons_self, fun d hd => ?_⟩
        rw [← Bool.not_eq_true]
        intro hcloses
        have hafter : ∃ d ∈ after, closes fromIso d c = true := by
          rcases List.mem_append.mp hd with hbefore | hafter
          · exact hfollowed before c after rfl ⟨d, hbefore, hcloses⟩
          · rcases List.mem_cons.mp hafter with rfl | hafter
            · exact absurd rfl (closes_iff.mp hcloses).2.2.2.1
            · exact ⟨d, hafter, hcloses⟩
        obtain ⟨e, he, hcloses⟩ := hafter
        exact absurd hcloses (by rw [hlater e he]; exact Bool.false_ne_true)
      · rintro ⟨hc, hnone⟩
        obtain ⟨before, after, rfl⟩ := List.append_of_mem hc
        exact ⟨before, after, rfl, fun d hd =>
          hnone d (List.mem_append_right _ (List.mem_cons_of_mem _ hd))⟩
    refine ⟨fun c => (hopen c).trans (mem_chronological h).symm, fun a ha b hb hkey => ?_⟩
    obtain ⟨ha, hnone⟩ := (hopen a).mp ha
    obtain ⟨hb, hnone'⟩ := (hopen b).mp hb
    by_contra hne
    have hid : a.id ≠ b.id := fun hid =>
      hne (congrArg Claim.objectText (Table.eq_of_key h.ids ha hb hid))
    have hadmitted := h.admitted a ha
    have hadmitted' := h.admitted b hb
    -- the older of the two would have been closed
    rcases le_total (fromIso a.validFrom) (fromIso b.validFrom) with hle | hle
    · have hcloses : closes fromIso b a = true :=
        closes_iff.mpr ⟨hkey, hadmitted.verified, hadmitted.unclosed, hid, hne, hle⟩
      exact absurd hcloses (by rw [hnone b hb]; exact Bool.false_ne_true)
    · have hcloses : closes fromIso a b = true :=
        closes_iff.mpr ⟨hkey.symm, hadmitted'.verified, hadmitted'.unclosed, hid.symm,
          fun h => hne h.symm, hle⟩
      exact absurd hcloses (by rw [hnone' a ha]; exact Bool.false_ne_true)

end Laws

/-! ## Two deadlines -/

/-- A time is the length of its text. -/
def deadline (name time : String) : Claim where
  id := PyStr.lit name
  tenantId := PyStr.lit "a"
  subjectId := some (PyStr.lit "project")
  predicate := some (PyStr.lit "deadline")
  objectText := some (PyStr.lit name)
  verified := true
  exclusivePredicate := true
  validFrom := PyStr.lit time

/-- The deadline moved to Monday, and the news of Friday comes late. -/
def deadlines : List Claim := [deadline "Monday" "12", deadline "Friday" "1"]

theorem arrivals_deadlines : Arrivals List.length deadlines where
  admitted c hc := by
    rcases List.mem_cons.mp hc with rfl | hc
    · constructor <;> rfl
    · rw [List.mem_singleton.mp hc]
      constructor <;> rfl
  ids := by decide
  times := by decide

theorem arrival_independent_iff_deadlines :
    Independent List.length deadlines ↔ Followed List.length deadlines :=
  arrival_independent_iff _ _ arrivals_deadlines

/-- Both deadlines stay open. -/
theorem late_claim_stays_open : ¬ ∀ (fromIso : PyStr → Nat) (arrivals : List Claim),
    Arrivals fromIso arrivals → Independent fromIso arrivals := by
  intro hlaw
  have hopen : openClaims (inserted List.length deadlines) = deadlines := by decide
  obtain ⟨-, hsingle⟩ := hlaw _ _ arrivals_deadlines
  rw [hopen] at hsingle
  have hsame := hsingle _ List.mem_cons_self _ (List.mem_cons_of_mem _ List.mem_cons_self) rfl
  exact absurd hsame (by decide)

end ControlPlane.Extraction.Temporal
