/-
  EQUALITY OF JSON VALUES, `a == b` on what `json.loads` returns.

  Numbers are compared by their value, so `1`, `1.0` and `True` are equal; a `dict` is compared without
  the order of its keys.  NaN is equal to nothing, but `json` has only one NaN, and what is the same
  OBJECT inside a list or a dict counts as equal there (`same`).

  Where the keys of every `dict` are distinct (`Keyed`), this is symmetric and transitive (`eq_symm`,
  `eq_trans`).  Dicts of one size are compared in one direction only: `keys_subset` turns that around.
-/
import ControlPlane.Json
import ControlPlane.Table

namespace ControlPlane.Json

/-- The value of a number, and of a `bool`. -/
def number : Json → Option PyFloat
  | .bool b => some (.finite (if b then 1 else 0))
  | .int n => some (.finite n)
  | .float x => some x
  | .negZero => some 0
  | _ => none

def eqNumber (a b : Json) : Bool :=
  match number a, number b with
  | some x, some y => x.eq y
  | _, _ => false

/-- `a is b` where `a == b` does not say so. -/
def bothNan : Json → Json → Bool
  | .float .nan, .float .nan => true
  | _, _ => false

mutual

/-- `a == b`. -/
def eq : Json → Json → Bool
  | .null, .null => true
  | .str a, .str b => a == b
  | .arr items, .arr items' => eqItems items items'
  | .obj fields, .obj fields' => fields.length == fields'.length && eqFields fields fields'
  | a, b => eqNumber a b

def eqItems : List Json → List Json → Bool
  | [], [] => true
  | a :: items, b :: items' => (bothNan a b || eq a b) && eqItems items items'
  | _, _ => false

def eqFields : List (PyStr × Json) → List (PyStr × Json) → Bool
  | [], _ => true
  | (key, a) :: fields, fields' =>
      (match fields'.lookup key with
        | some b => bothNan a b || eq a b
        | none => false) && eqFields fields fields'

end

example : eq (.obj [(PyStr.lit "n", .int 1), (PyStr.lit "m", .arr [.bool true])])
    (.obj [(PyStr.lit "m", .arr [.int 1]), (PyStr.lit "n", .float 1)]) = true := by decide +kernel

/-- `a is b or a == b`. -/
def same (a b : Json) : Bool := bothNan a b || eq a b

/-- The keys of every `dict` are distinct. -/
inductive Keyed : Json → Prop where
  | null : Keyed .null
  | bool (b : Bool) : Keyed (.bool b)
  | int (n : Int) : Keyed (.int n)
  | float (x : PyFloat) : Keyed (.float x)
  | negZero : Keyed .negZero
  | str (text : PyStr) : Keyed (.str text)
  | arr {items : List Json} (h : ∀ item ∈ items, Keyed item) : Keyed (.arr items)
  | obj {fields : List (PyStr × Json)} (hkeys : (fields.map Prod.fst).Nodup)
      (h : ∀ f ∈ fields, Keyed f.2) : Keyed (.obj fields)

variable {a b c : Json} {items items' : List Json} {fields fields' : List (PyStr × Json)}

/-! ## Lists and dicts -/

theorem eqItems_iff :
    eqItems items items' = true ↔ List.Forall₂ (fun a b => same a b = true) items items' := by
  induction items generalizing items' with
  | nil => cases items' <;> simp [eqItems]
  | cons a items ih =>
    cases items' with
    | nil => simp [eqItems]
    | cons b items' => rw [eqItems, Bool.and_eq_true, ih, List.forall₂_cons]; rfl

theorem eqFields_iff : eqFields fields fields' = true ↔
    ∀ f ∈ fields, ∃ b, fields'.lookup f.1 = some b ∧ same f.2 b = true := by
  induction fields with
  | nil => exact iff_of_true rfl fun _ h => absurd h List.not_mem_nil
  | cons f fields ih =>
    obtain ⟨key, a⟩ := f
    rw [eqFields, Bool.and_eq_true, ih, List.forall_mem_cons]
    refine and_congr_left' ?_
    cases fields'.lookup key with
    | none => exact iff_of_false Bool.false_ne_true fun ⟨_, h, _⟩ => nomatch h
    | some b => exact ⟨fun h => ⟨b, rfl, h⟩, fun ⟨_, hb, h⟩ => Option.some.inj hb ▸ h⟩

theorem eq_arr : eq (.arr items) b = true ↔
    ∃ items', b = .arr items' ∧ List.Forall₂ (fun a b => same a b = true) items items' := by
  cases b with
  | arr items' =>
    rw [eq, eqItems_iff]
    exact ⟨fun h => ⟨items', rfl, h⟩, fun ⟨_, hb, h⟩ => Json.arr.inj hb ▸ h⟩
  | _ => exact iff_of_false (by simp [eq, eqNumber, number]) fun ⟨_, h, _⟩ => nomatch h

theorem eq_obj : eq (.obj fields) b = true ↔ ∃ fields', b = .obj fields' ∧
    fields.length = fields'.length ∧
    ∀ f ∈ fields, ∃ b, fields'.lookup f.1 = some b ∧ same f.2 b = true := by
  cases b with
  | obj fields' =>
    rw [eq, Bool.and_eq_true, eqFields_iff, beq_iff_eq]
    exact ⟨fun h => ⟨fields', rfl, h⟩, fun ⟨_, hb, h⟩ => Json.obj.inj hb ▸ h⟩
  | _ => exact iff_of_false (by simp [eq, eqNumber, number]) fun ⟨_, h, _⟩ => nomatch h

/-! ## Numbers -/

theorem floatEq_symm {x y : PyFloat} (h : x.eq y = true) : y.eq x = true := by
  cases x <;> cases y <;> simp_all [PyFloat.eq]

theorem floatEq_trans {x y z : PyFloat} (hxy : x.eq y = true) (hyz : y.eq z = true) :
    x.eq z = true := by
  cases x <;> cases y <;> simp [PyFloat.eq] at hxy <;> rw [hxy] <;> exact hyz

theorem eqNumber_iff :
    eqNumber a b = true ↔ ∃ x y, number a = some x ∧ number b = some y ∧ x.eq y = true := by
  unfold eqNumber
  cases number a with
  | none => exact iff_of_false Bool.false_ne_true fun ⟨_, _, h, _⟩ => nomatch h
  | some x =>
    cases number b with
    | none => exact iff_of_false Bool.false_ne_true fun ⟨_, _, _, h, _⟩ => nomatch h
    | some y =>
      refine ⟨fun h => ⟨x, y, rfl, rfl, h⟩, ?_⟩
      rintro ⟨_, _, ha, hb, h⟩
      rwa [Option.some.inj ha, Option.some.inj hb]

/-- A number is compared by its value. -/
theorem eq_of_number {x : PyFloat} (ha : number a = some x) : eq a b = eqNumber a b := by
  cases a <;> cases ha <;> cases b <;> rfl

theorem eqNumber_symm (h : eqNumber a b = true) : eqNumber b a = true := by
  obtain ⟨x, y, ha, hb, hxy⟩ := eqNumber_iff.mp h
  exact eqNumber_iff.mpr ⟨y, x, hb, ha, floatEq_symm hxy⟩

theorem eqNumber_trans (hab : eqNumber a b = true) (hbc : eqNumber b c = true) :
    eqNumber a c = true := by
  obtain ⟨x, y, ha, hb, hxy⟩ := eqNumber_iff.mp hab
  obtain ⟨y', z, hb', hc, hyz⟩ := eqNumber_iff.mp hbc
  cases hb.symm.trans hb'
  exact eqNumber_iff.mpr ⟨x, z, ha, hc, floatEq_trans hxy hyz⟩

theorem eq_symm_of_number {x : PyFloat} (ha : number a = some x) (h : eq a b = true) :
    eq b a = true := by
  rw [eq_of_number ha] at h
  obtain ⟨_, y, _, hb, _⟩ := eqNumber_iff.mp h
  rw [eq_of_number hb]
  exact eqNumber_symm h

theorem eq_trans_of_number {x : PyFloat} (ha : number a = some x) (hab : eq a b = true)
    (hbc : eq b c = true) : eq a c = true := by
  rw [eq_of_number ha] at hab ⊢
  obtain ⟨_, y, _, hb, _⟩ := eqNumber_iff.mp hab
  rw [eq_of_number hb] at hbc
  exact eqNumber_trans hab hbc

/-! ## NaN -/

theorem bothNan_iff : bothNan a b = true ↔ a = .float .nan ∧ b = .float .nan := by
  unfold bothNan
  split
  · exact iff_of_true rfl ⟨rfl, rfl⟩
  · rename_i h
    exact iff_of_false Bool.false_ne_true fun ⟨ha, hb⟩ => h ha hb

theorem same_iff : same a b = true ↔ (a = .float .nan ∧ b = .float .nan) ∨ eq a b = true := by
  rw [same, Bool.or_eq_true, bothNan_iff]

theorem not_eq_nan : ¬ eq a (.float .nan) = true := by
  cases a with
  | float x => cases x <;> simp [eq, eqNumber, number, PyFloat.eq]
  | _ => simp [eq, eqNumber, number, PyFloat.eq]

theorem not_nan_eq : ¬ eq (.float .nan) a = true := by
  cases a with
  | float x => cases x <;> simp [eq, eqNumber, number, PyFloat.eq]
  | _ => simp [eq, eqNumber, number, PyFloat.eq]

theorem same_symm (hsymm : eq a b = true → eq b a = true) (h : same a b = true) :
    same b a = true := by
  rcases same_iff.mp h with ⟨ha, hb⟩ | h
  · exact same_iff.mpr (Or.inl ⟨hb, ha⟩)
  · exact same_iff.mpr (Or.inr (hsymm h))

theorem same_trans (htrans : eq a b = true → eq b c = true → eq a c = true)
    (hab : same a b = true) (hbc : same b c = true) : same a c = true := by
  rcases same_iff.mp hab with ⟨ha, hb⟩ | hab
  · rcases same_iff.mp hbc with ⟨-, hc⟩ | hbc
    · exact same_iff.mpr (Or.inl ⟨ha, hc⟩)
    · exact absurd (hb ▸ hbc) not_nan_eq
  · rcases same_iff.mp hbc with ⟨hb, -⟩ | hbc
    · exact absurd (hb ▸ hab) not_eq_nan
    · exact same_iff.mpr (Or.inr (htrans hab hbc))

/-! ## Symmetry and transitivity -/

/-- As many distinct keys: what has all of these has no others. -/
theorem keys_subset (hkeys : (fields.map Prod.fst).Nodup) (hlength : fields.length = fields'.length)
    (h : ∀ f ∈ fields, f.1 ∈ fields'.map Prod.fst) {key : PyStr} (hkey : key ∈ fields'.map Prod.fst) :
    key ∈ fields.map Prod.fst := by
  have hsub : fields.map Prod.fst ⊆ fields'.map Prod.fst := by
    intro key hkey
    obtain ⟨f, hf, rfl⟩ := List.mem_map.mp hkey
    exact h f hf
  refine ((List.subperm_of_subset hkeys hsub).perm_of_length_le ?_).mem_iff.mpr hkey
  rw [List.length_map, List.length_map, hlength]

theorem eq_symm (ha : Keyed a) (hb : Keyed b) (h : eq a b = true) : eq b a = true := by
  induction ha generalizing b with
  | null => cases b <;> first | rfl | cases h
  | bool b => exact eq_symm_of_number rfl h
  | int n => exact eq_symm_of_number rfl h
  | float x => exact eq_symm_of_number rfl h
  | negZero => exact eq_symm_of_number rfl h
  | str text =>
    cases b with
    | str text' =>
      rw [eq, beq_iff_eq] at h ⊢
      exact h.symm
    | _ => cases h
  | arr hitems ih =>
    obtain ⟨items', rfl, hall⟩ := eq_arr.mp h
    cases hb with
    | arr hitems' =>
      refine eq_arr.mpr ⟨_, rfl, ?_⟩
      clear h
      induction hall with
      | nil => exact .nil
      | cons hsame _ ihall =>
        rw [List.forall_mem_cons] at hitems hitems' ih
        exact .cons (same_symm (ih.1 hitems'.1) hsame) (ihall hitems.2 ih.2 hitems'.2)
  | obj hkeys hfields ih =>
    obtain ⟨fields', rfl, hlength, hall⟩ := eq_obj.mp h
    cases hb with
    | obj hkeys' hfields' =>
      refine eq_obj.mpr ⟨_, rfl, hlength.symm, fun g hg => ?_⟩
      have hfound : g.1 ∈ _ := keys_subset hkeys hlength (fun f hf => by
        obtain ⟨b, hb, -⟩ := hall f hf
        exact List.mem_map.mpr ⟨(f.1, b), Table.mem_of_lookup hb, rfl⟩)
        (List.mem_map.mpr ⟨g, hg, rfl⟩)
      obtain ⟨f, hf, hkey⟩ := List.mem_map.mp hfound
      obtain ⟨b, hb, hsame⟩ := hall f hf
      rw [hkey, Table.lookup_of_mem hkeys' hg] at hb
      cases hb
      exact ⟨f.2, Table.lookup_of_mem hkeys (hkey ▸ hf), same_symm (ih f hf (hfields' g hg)) hsame⟩

theorem eq_trans (ha : Keyed a) (hab : eq a b = true) (hbc : eq b c = true) : eq a c = true := by
  induction ha generalizing b c with
  | null => cases b <;> first | exact hbc | cases hab
  | bool b => exact eq_trans_of_number rfl hab hbc
  | int n => exact eq_trans_of_number rfl hab hbc
  | float x => exact eq_trans_of_number rfl hab hbc
  | negZero => exact eq_trans_of_number rfl hab hbc
  | str text =>
    cases b with
    | str text' =>
      rw [eq, beq_iff_eq] at hab
      rwa [hab]
    | _ => cases hab
  | arr hitems ih =>
    obtain ⟨items', rfl, hall⟩ := eq_arr.mp hab
    obtain ⟨items'', rfl, hall'⟩ := eq_arr.mp hbc
    refine eq_arr.mpr ⟨_, rfl, ?_⟩
    clear hab hbc
    induction hall generalizing items'' with
    | nil => exact hall'
    | cons hsame _ ihall =>
      rw [List.forall_mem_cons] at hitems ih
      cases hall' with
      | cons hsame' hall' =>
        exact .cons (same_trans ih.1 hsame hsame') (ihall hitems.2 ih.2 _ hall')
  | obj hkeys hfields ih =>
    obtain ⟨fields', rfl, hlength, hall⟩ := eq_obj.mp hab
    obtain ⟨fields'', rfl, hlength', hall'⟩ := eq_obj.mp hbc
    refine eq_obj.mpr ⟨_, rfl, hlength.trans hlength', fun f hf => ?_⟩
    obtain ⟨b, hb, hsame⟩ := hall f hf
    obtain ⟨c, hc, hsame'⟩ := hall' _ (Table.mem_of_lookup hb)
    exact ⟨c, hc, same_trans (ih f hf) hsame hsame'⟩

end ControlPlane.Json
