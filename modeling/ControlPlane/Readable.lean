/-
  READING BACK: when do two texts that are equal say the same?

  An encoding is READABLE at `a` if no other value begins a text that `a` begins, so that the value
  and the rest of the text can be told apart.  What may follow is restricted by `ends`: a number, for
  one, is only told from a longer one by what comes behind it.

  1. `span_unique`: a part whose characters cannot stand behind it;
  2. `flatMap_unique`: characters with an escape each, up to a closing character;
  3. `join_unique`: parts with a separator, up to a closing character.
-/
import Mathlib.Data.List.Basic

namespace ControlPlane.Readable

variable {α γ : Type}

/-- At `a`, a text in front of `ends` says which value of `domain` it begins with. -/
def ReadsAt (domain : α → Prop) (ends : List γ → Prop) (encode : α → List γ) (a : α) : Prop :=
  ∀ b r s, domain b → ends r → ends s → encode a ++ r = encode b ++ s → a = b ∧ r = s

/-- The text does not go on with a character that satisfies `p`. -/
def Stops (p : γ → Bool) (text : List γ) : Prop := ∀ c ∈ text.head?, p c = false

theorem stops_nil (p : γ → Bool) : Stops p [] := nofun

theorem stops_cons {p : γ → Bool} {c : γ} {text : List γ} (h : p c = false) :
    Stops p (c :: text) := fun d hd => by
  rw [List.head?_cons, Option.mem_some_iff] at hd
  rw [← hd, h]

/-- What satisfies `p` ends where the rest stops. -/
theorem span_unique {p : γ → Bool} {a b r s : List γ} (ha : a.all p = true) (hb : b.all p = true)
    (hr : Stops p r) (hs : Stops p s) (h : a ++ r = b ++ s) : a = b ∧ r = s := by
  induction a generalizing b with
  | nil =>
    cases b with
    | nil => exact ⟨rfl, h⟩
    | cons d b =>
      obtain rfl : r = d :: (b ++ s) := h
      have hd := hr d rfl
      simp [hd] at hb
  | cons c a ih =>
    cases b with
    | nil =>
      obtain rfl : c :: (a ++ r) = s := h
      have hc := hs c rfl
      simp [hc] at ha
    | cons d b =>
      obtain ⟨rfl, htail⟩ := List.cons.inj h
      rw [List.all_cons, Bool.and_eq_true] at ha hb
      obtain ⟨rfl, hrest⟩ := ih ha.2 hb.2 htail
      exact ⟨rfl, hrest⟩

/-- A part without `d`, up to the first `d`. -/
theorem cut_unique [DecidableEq γ] {d : γ} {a b r s : List γ} (ha : d ∉ a) (hb : d ∉ b)
    (h : a ++ d :: r = b ++ d :: s) : a = b ∧ r = s := by
  have hall : ∀ text : List γ, d ∉ text → (text.all fun c => c != d) = true := by
    intro text htext
    rw [List.all_eq_true]
    intro c hc
    rw [bne_iff_ne]
    rintro rfl
    exact htext hc
  have hstop : ∀ text : List γ, Stops (fun c => c != d) (d :: text) :=
    fun text => stops_cons (by simp)
  obtain ⟨rfl, hrest⟩ := span_unique (hall a ha) (hall b hb) (hstop r) (hstop s) h
  exact ⟨rfl, (List.cons.inj hrest).2⟩

/-- A text of escaped items, up to a character that begins no escape. -/
theorem flatMap_unique {domain : α → Prop} {escape : α → List γ} {close : γ}
    (hread : ∀ a b r s, domain a → domain b → escape a ++ r = escape b ++ s → a = b ∧ r = s)
    (hclose : ∀ a r s, domain a → escape a ++ r ≠ close :: s) {as bs : List α} {r s : List γ}
    (has : ∀ a ∈ as, domain a) (hbs : ∀ b ∈ bs, domain b)
    (h : as.flatMap escape ++ close :: r = bs.flatMap escape ++ close :: s) : as = bs ∧ r = s := by
  induction as generalizing bs with
  | nil =>
    cases bs with
    | nil => exact ⟨rfl, (List.cons.inj h).2⟩
    | cons b bs =>
      rw [List.flatMap_nil, List.flatMap_cons, List.append_assoc] at h
      exact absurd h.symm (hclose b _ _ (hbs b List.mem_cons_self))
  | cons a as ih =>
    cases bs with
    | nil =>
      rw [List.flatMap_nil, List.flatMap_cons, List.append_assoc] at h
      exact absurd h (hclose a _ _ (has a List.mem_cons_self))
    | cons b bs =>
      rw [List.forall_mem_cons] at has hbs
      rw [List.flatMap_cons, List.flatMap_cons, List.append_assoc, List.append_assoc] at h
      obtain ⟨rfl, htail⟩ := hread a b _ _ has.1 hbs.1 h
      obtain ⟨rfl, hrest⟩ := ih has.2 hbs.2 htail
      exact ⟨rfl, hrest⟩

/-- The same for a whole text, where no escape is empty. -/
theorem flatMap_injective {domain : α → Prop} {escape : α → List γ}
    (hread : ∀ a b r s, domain a → domain b → escape a ++ r = escape b ++ s → a = b ∧ r = s)
    (hne : ∀ a, escape a ≠ []) {as bs : List α} (has : ∀ a ∈ as, domain a)
    (hbs : ∀ b ∈ bs, domain b) (h : as.flatMap escape = bs.flatMap escape) : as = bs := by
  induction as generalizing bs with
  | nil =>
    cases bs with
    | nil => rfl
    | cons b bs =>
      rw [List.flatMap_nil, List.flatMap_cons] at h
      exact absurd (List.append_eq_nil_iff.mp h.symm).1 (hne b)
  | cons a as ih =>
    cases bs with
    | nil =>
      rw [List.flatMap_nil, List.flatMap_cons] at h
      exact absurd (List.append_eq_nil_iff.mp h).1 (hne a)
    | cons b bs =>
      rw [List.forall_mem_cons] at has hbs
      rw [List.flatMap_cons, List.flatMap_cons] at h
      obtain ⟨rfl, htail⟩ := hread a b _ _ has.1 hbs.1 h
      rw [ih has.2 hbs.2 htail]

/-! ## Lists -/

/-- `sep.join(texts)`. -/
def join (sep : List γ) : List (List γ) → List γ
  | [] => []
  | [text] => text
  | text :: rest => text ++ sep ++ join sep rest

theorem join_cons_cons (sep text next : List γ) (rest : List (List γ)) :
    join sep (text :: next :: rest) = text ++ sep ++ join sep (next :: rest) := rfl

/-- Behind the first text a separator stands in front of each. -/
theorem join_cons (sep text : List γ) (rest : List (List γ)) :
    join sep (text :: rest) = text ++ rest.flatMap fun next => sep ++ next := by
  induction rest generalizing text with
  | nil => simp [join]
  | cons next rest ih =>
    rw [join_cons_cons, ih, List.flatMap_cons, List.append_assoc, List.append_assoc]

/-- Encoded values with one separating character between them, up to a closing character. -/
theorem join_unique {domain : α → Prop} {ends : List γ → Prop} {encode : α → List γ}
    {sep close : γ} (hsep : ∀ r, ends (sep :: r)) (hclose : ∀ r, ends (close :: r))
    (hne : sep ≠ close) (hfirst : ∀ b r s, domain b → encode b ++ r ≠ close :: s)
    {as bs : List α} {r s : List γ} (has : ∀ a ∈ as, domain a ∧ ReadsAt domain ends encode a)
    (hbs : ∀ b ∈ bs, domain b)
    (h : join [sep] (as.map encode) ++ close :: r = join [sep] (bs.map encode) ++ close :: s) :
    as = bs ∧ r = s := by
  induction as generalizing bs with
  | nil =>
    cases bs with
    | nil => exact ⟨rfl, (List.cons.inj h).2⟩
    | cons b bs =>
      -- the text on the right begins with `b`
      have hbegin : ∃ rest, join [sep] ((b :: bs).map encode) ++ close :: s = encode b ++ rest := by
        cases bs with
        | nil => exact ⟨_, rfl⟩
        | cons b' bs => exact ⟨_, by rw [List.map_cons, List.map_cons, join_cons_cons,
            List.append_assoc, List.append_assoc]⟩
      obtain ⟨rest, hrest⟩ := hbegin
      rw [hrest] at h
      exact absurd h.symm (hfirst b _ _ (hbs b List.mem_cons_self))
  | cons a as ih =>
    obtain ⟨hdomain, hreads⟩ := has a List.mem_cons_self
    cases bs with
    | nil =>
      have hbegin : ∃ rest, join [sep] ((a :: as).map encode) ++ close :: r = encode a ++ rest := by
        cases as with
        | nil => exact ⟨_, rfl⟩
        | cons a' as => exact ⟨_, by rw [List.map_cons, List.map_cons, join_cons_cons,
            List.append_assoc, List.append_assoc]⟩
      obtain ⟨rest, hrest⟩ := hbegin
      rw [hrest] at h
      exact absurd h (hfirst a _ _ hdomain)
    | cons b bs =>
      have hb := hbs b List.mem_cons_self
      have has' : ∀ a' ∈ as, domain a' ∧ ReadsAt domain ends encode a' :=
        fun a' ha' => has a' (List.mem_cons_of_mem _ ha')
      have hbs' : ∀ b' ∈ bs, domain b' := fun b' hb' => hbs b' (List.mem_cons_of_mem _ hb')
      cases as with
      | nil =>
        cases bs with
        | nil =>
          obtain ⟨rfl, hrest⟩ := hreads b _ _ hb (hclose r) (hclose s) h
          exact ⟨rfl, (List.cons.inj hrest).2⟩
        | cons b' bs =>
          rw [List.map_cons, List.map_cons, List.map_cons, join_cons_cons, List.append_assoc,
            List.append_assoc] at h
          obtain ⟨rfl, hrest⟩ := hreads b _ _ hb (hclose r) (hsep _) h
          exact absurd (List.cons.inj hrest).1 hne.symm
      | cons a' as =>
        cases bs with
        | nil =>
          rw [List.map_cons, List.map_cons, List.map_cons, join_cons_cons, List.append_assoc,
            List.append_assoc] at h
          obtain ⟨rfl, hrest⟩ := hreads b _ _ hb (hsep _) (hclose s) h
          exact absurd (List.cons.inj hrest).1 hne
        | cons b' bs =>
          rw [List.map_cons, List.map_cons, List.map_cons (l := _ :: bs), List.map_cons,
            join_cons_cons, join_cons_cons, List.append_assoc, List.append_assoc, List.append_assoc,
            List.append_assoc] at h
          obtain ⟨rfl, hrest⟩ := hreads b _ _ hb (hsep _) (hsep _) h
          obtain ⟨heq, hrs⟩ := ih has' hbs' (List.cons.inj hrest).2
          exact ⟨by rw [heq], hrs⟩

end ControlPlane.Readable
