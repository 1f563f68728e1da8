/-
  A FALLIBLE BODY RUN OVER A LIST: `mapM` in `Except`.

  A loop that collects results and stops at the first exception either gets through, and then every
  item has its result (`mapM_ok`), or it stops at an item that raises after items that do not
  (`mapM_error`).
-/
import Mathlib.Data.List.Forall2

namespace ControlPlane.Fallible

variable {ε α β : Type} {f : α → Except ε β} {as : List α} {bs : List β} {e : ε}

theorem isOk_iff {x : Except ε α} : x.isOk = true ↔ ∃ a, x = .ok a := by
  cases x with
  | error e => exact iff_of_false (nomatch ·) fun ⟨_, h⟩ => nomatch h
  | ok a => exact iff_of_true rfl ⟨a, rfl⟩

theorem ok_or_error (x : Except ε α) : (∃ a, x = .ok a) ∨ ∃ e, x = .error e := by
  cases x with
  | error e => exact Or.inr ⟨e, rfl⟩
  | ok a => exact Or.inl ⟨a, rfl⟩

/-- A branch is taken. -/
theorem ite_ok {p : Prop} [Decidable p] {x y : Except ε α} {a : α}
    (h : (if p then x else y) = .ok a) : p ∧ x = .ok a ∨ ¬ p ∧ y = .ok a := by
  by_cases hp : p
  · exact Or.inl ⟨hp, by rwa [if_pos hp] at h⟩
  · exact Or.inr ⟨hp, by rwa [if_neg hp] at h⟩

/-- One computation after another. -/
theorem bind_ok {x : Except ε α} {g : α → Except ε β} {b : β} :
    (x >>= g) = .ok b ↔ ∃ a, x = .ok a ∧ g a = .ok b := by
  cases x with
  | error e => exact iff_of_false (nomatch ·) fun ⟨_, h, _⟩ => nomatch h
  | ok a => exact ⟨fun h => ⟨a, rfl, h⟩, fun ⟨_, h, hg⟩ => Except.ok.inj h ▸ hg⟩

theorem bind_error {x : Except ε α} {g : α → Except ε β} :
    (x >>= g) = .error e ↔ x = .error e ∨ ∃ a, x = .ok a ∧ g a = .error e := by
  cases x with
  | error e' =>
    refine ⟨fun h => Or.inl (congrArg Except.error (Except.error.inj h)), ?_⟩
    rintro (h | ⟨_, h, _⟩)
    · exact congrArg Except.error (Except.error.inj h)
    · cases h
  | ok a =>
    refine ⟨fun h => Or.inr ⟨a, rfl, h⟩, ?_⟩
    rintro (h | ⟨_, h, hg⟩)
    · cases h
    · exact Except.ok.inj h ▸ hg

theorem map_ok {g : α → β} {x : Except ε α} {b : β} :
    x.map g = .ok b ↔ ∃ a, x = .ok a ∧ g a = b := by
  cases x <;> simp [Except.map]

theorem mapError_ok {ε' : Type} {h : ε → ε'} {x : Except ε α} {a : α} :
    x.mapError h = .ok a ↔ x = .ok a := by
  cases x <;> simp [Except.mapError]

theorem mapError_error {ε' : Type} {h : ε → ε'} {x : Except ε α} {e' : ε'} :
    x.mapError h = .error e' ↔ ∃ e, x = .error e ∧ h e = e' := by
  cases x <;> simp [Except.mapError]

theorem mapM_ok : as.mapM f = .ok bs ↔ List.Forall₂ (fun a b => f a = .ok b) as bs := by
  induction as generalizing bs with
  | nil =>
    rw [List.mapM_nil, List.forall₂_nil_left_iff]
    exact ⟨fun h => (Except.ok.inj h).symm, fun h => h ▸ rfl⟩
  | cons a as ih =>
    rw [List.mapM_cons, List.forall₂_cons_left_iff, bind_ok]
    constructor
    · rintro ⟨b, hb, hrest⟩
      obtain ⟨bs', hbs, heq⟩ := bind_ok.mp hrest
      exact ⟨b, bs', hb, ih.mp hbs, (Except.ok.inj heq).symm⟩
    · rintro ⟨b, bs', hb, hbs, rfl⟩
      exact ⟨b, hb, bind_ok.mpr ⟨bs', ih.mpr hbs, rfl⟩⟩

/-- Every item has its result, and every result its item. -/
theorem mapM_mem (h : as.mapM f = .ok bs) :
    (∀ a ∈ as, ∃ b ∈ bs, f a = .ok b) ∧ ∀ b ∈ bs, ∃ a ∈ as, f a = .ok b := by
  have hall := mapM_ok.mp h
  clear h
  induction hall with
  | nil => exact ⟨fun _ ha => absurd ha List.not_mem_nil, fun _ hb => absurd hb List.not_mem_nil⟩
  | cons hab _ ih =>
    refine ⟨List.forall_mem_cons.mpr ⟨⟨_, List.mem_cons_self, hab⟩, fun a ha => ?_⟩,
      List.forall_mem_cons.mpr ⟨⟨_, List.mem_cons_self, hab⟩, fun b hb => ?_⟩⟩
    · obtain ⟨b, hb, hf⟩ := ih.1 a ha
      exact ⟨b, List.mem_cons_of_mem _ hb, hf⟩
    · obtain ⟨a, ha, hf⟩ := ih.2 b hb
      exact ⟨a, List.mem_cons_of_mem _ ha, hf⟩

/-- A loop whose body always gets through. -/
theorem mapM_exists {R : α → β → Prop} (h : ∀ a ∈ as, ∃ b, f a = .ok b ∧ R a b) :
    ∃ bs, as.mapM f = .ok bs ∧ List.Forall₂ R as bs := by
  induction as with
  | nil => exact ⟨[], rfl, .nil⟩
  | cons a as ih =>
    rw [List.forall_mem_cons] at h
    obtain ⟨b, hb, hR⟩ := h.1
    obtain ⟨bs, hbs, hRs⟩ := ih h.2
    refine ⟨b :: bs, ?_, .cons hR hRs⟩
    rw [List.mapM_cons, hb, hbs]
    rfl

theorem mapM_map {g : α → β} (h : ∀ a ∈ as, f a = .ok (g a)) : as.mapM f = .ok (as.map g) := by
  refine mapM_ok.mpr ?_
  rw [List.forall₂_map_right_iff]
  exact List.forall₂_same.mpr h

theorem forM_ok {g : α → Except ε Unit} : as.forM g = .ok () ↔ ∀ a ∈ as, g a = .ok () := by
  induction as with
  | nil => exact iff_of_true rfl fun a ha => absurd ha List.not_mem_nil
  | cons a as ih =>
    have hcons : (a :: as).forM g = (g a >>= fun _ => as.forM g) := rfl
    rw [hcons, bind_ok, List.forall_mem_cons, ← ih]
    exact ⟨fun ⟨_, ha, has⟩ => ⟨ha, has⟩, fun ⟨ha, has⟩ => ⟨(), ha, has⟩⟩

theorem mapM_error : as.mapM f = .error e ↔ ∃ before a after, as = before ++ a :: after ∧
    (∀ b ∈ before, ∃ r, f b = .ok r) ∧ f a = .error e := by
  induction as with
  | nil =>
    rw [List.mapM_nil]
    refine iff_of_false (fun h => nomatch h) ?_
    rintro ⟨before, a, after, h, -⟩
    exact List.append_ne_nil_of_right_ne_nil _ (List.cons_ne_nil _ _) h.symm
  | cons a as ih =>
    rw [List.mapM_cons, bind_error]
    constructor
    · rintro (ha | ⟨r, ha, hrest⟩)
      · exact ⟨[], a, as, rfl, fun _ hb => (nomatch hb), ha⟩
      · have has : as.mapM f = .error e := by
          rcases bind_error.mp hrest with h | ⟨_, _, h⟩
          · exact h
          · cases h
        obtain ⟨before, b, after, rfl, hbefore, hb⟩ := ih.mp has
        exact ⟨a :: before, b, after, rfl, List.forall_mem_cons.mpr ⟨⟨r, ha⟩, hbefore⟩, hb⟩
    · rintro ⟨before, b, after, heq, hbefore, hb⟩
      cases before with
      | nil =>
        obtain ⟨rfl, -⟩ := List.cons.inj heq
        exact Or.inl hb
      | cons first before =>
        obtain ⟨rfl, rfl⟩ := List.cons.inj heq
        obtain ⟨⟨r, ha⟩, hrest⟩ := List.forall_mem_cons.mp hbefore
        exact Or.inr ⟨r, ha, bind_error.mpr (Or.inl (ih.mpr ⟨before, b, after, rfl, hrest, hb⟩))⟩

/-! ## Folds -/

section Folds

variable {step : β → α → Except ε β} {I : β → Prop} {acc acc' : β}

/-- A fold that gets through keeps an invariant and follows a relation, and every item leaves its
    mark. -/
theorem foldlM_ok {R : β → β → Prop} {Q : α → β → Prop} (hrefl : ∀ b, R b b)
    (htrans : ∀ {b b' b''}, R b b' → R b' b'' → R b b'')
    (hstay : ∀ {a b b'}, R b b' → Q a b → Q a b')
    (hstep : ∀ a ∈ as, ∀ b b', I b → step b a = .ok b' → I b' ∧ R b b' ∧ Q a b') (hI : I acc)
    (h : as.foldlM step acc = .ok acc') : I acc' ∧ R acc acc' ∧ ∀ a ∈ as, Q a acc' := by
  induction as generalizing acc with
  | nil =>
    cases h
    exact ⟨hI, hrefl _, fun a ha => absurd ha List.not_mem_nil⟩
  | cons a as ih =>
    rw [List.foldlM_cons] at h
    obtain ⟨mid, hmid, hrest⟩ := bind_ok.mp h
    obtain ⟨hImid, hR, hQ⟩ := hstep a List.mem_cons_self acc mid hI hmid
    obtain ⟨hI', hR', hQ'⟩ := ih (fun a ha => hstep a (List.mem_cons_of_mem _ ha)) hImid hrest
    exact ⟨hI', htrans hR hR', List.forall_mem_cons.mpr ⟨hstay hR' hQ, hQ'⟩⟩

/-- A fold that raises does so at one of its items, behind items that do not. -/
theorem foldlM_error (hstep : ∀ a ∈ as, ∀ b b', I b → step b a = .ok b' → I b') (hI : I acc)
    (h : as.foldlM step acc = .error e) : ∃ a ∈ as, ∃ b, I b ∧ step b a = .error e := by
  induction as generalizing acc with
  | nil => cases h
  | cons a as ih =>
    rw [List.foldlM_cons] at h
    rcases bind_error.mp h with ha | ⟨mid, hmid, hrest⟩
    · exact ⟨a, List.mem_cons_self, acc, hI, ha⟩
    · obtain ⟨a', ha', hraised⟩ := ih (fun a ha => hstep a (List.mem_cons_of_mem _ ha))
        (hstep a List.mem_cons_self acc mid hI hmid) hrest
      exact ⟨a', List.mem_cons_of_mem _ ha', hraised⟩

/-- A fold that remembers what it has processed (`Holds`) and steps exactly where that admits the next
    item, gets through exactly when every item is admitted behind those before it. -/
theorem foldlM_isOk_iff {Holds : List α → β → Prop} {Admits : List α → α → Prop} {done : List α}
    (hok : ∀ a ∈ as, ∀ done b, Holds done b → Admits done a → ∃ b', step b a = .ok b')
    (hstep : ∀ a ∈ as, ∀ done b b', Holds done b → step b a = .ok b' →
      Admits done a ∧ Holds (done ++ [a]) b')
    (h : Holds done acc) : (∃ b', as.foldlM step acc = .ok b') ↔
      ∀ before a after, as = before ++ a :: after → Admits (done ++ before) a := by
  induction as generalizing acc done with
  | nil => exact iff_of_true ⟨acc, rfl⟩ fun _ _ _ hcut => absurd hcut (by simp)
  | cons a as ih =>
    rw [List.forall_mem_cons] at hok hstep
    rw [List.foldlM_cons]
    constructor
    · rintro ⟨b', hfold⟩ before a' after hcut
      obtain ⟨mid, hmid, hrest⟩ := bind_ok.mp hfold
      obtain ⟨hadmits, hmidholds⟩ := hstep.1 done acc mid h hmid
      cases before with
      | nil =>
        obtain ⟨rfl, -⟩ := List.cons.inj hcut
        rwa [List.append_nil]
      | cons first before =>
        obtain ⟨rfl, rfl⟩ := List.cons.inj hcut
        have hall := (ih hok.2 hstep.2 hmidholds).mp ⟨b', hrest⟩ before a' after rfl
        rwa [List.append_assoc] at hall
    · intro hadmits
      have hfirst := hadmits [] a as rfl
      rw [List.append_nil] at hfirst
      obtain ⟨mid, hmid⟩ := hok.1 done acc h hfirst
      have hmidholds := (hstep.1 done acc mid h hmid).2
      obtain ⟨b', hrest⟩ := (ih hok.2 hstep.2 hmidholds).mpr fun before a' after hcut => by
        rw [List.append_assoc]
        exact hadmits (a :: before) a' after (by rw [hcut]; rfl)
      exact ⟨b', bind_ok.mpr ⟨mid, hmid, hrest⟩⟩

/-- What the fold knows at its end. -/
theorem foldlM_processed {Holds : List α → β → Prop} {done : List α}
    (hstep : ∀ a ∈ as, ∀ done b b', Holds done b → step b a = .ok b' → Holds (done ++ [a]) b')
    (h : Holds done acc) (hfold : as.foldlM step acc = .ok acc') : Holds (done ++ as) acc' := by
  induction as generalizing acc done with
  | nil =>
    cases hfold
    rwa [List.append_nil]
  | cons a as ih =>
    rw [List.forall_mem_cons] at hstep
    rw [List.foldlM_cons] at hfold
    obtain ⟨mid, hmid, hrest⟩ := bind_ok.mp hfold
    have hall := ih hstep.2 (hstep.1 done acc mid h hmid) hrest
    rwa [List.append_assoc] at hall

end Folds

end ControlPlane.Fallible
