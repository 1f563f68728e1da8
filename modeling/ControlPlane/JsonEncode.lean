/-
  SORTING KEYS AND ENCODING: what becomes of a JSON value on its way into a canonical byte string?

  Sorting the keys of a value, at every depth, keeps all that decides whether the value is read and
  written (`parsed_sortKeys`, `fits_sortKeys`, `depth_sortKeys`), and sorting twice is sorting once.
  The canonical text of a value is encoded unless a string or a key in the value holds a LONE SURROGATE
  (`any_write`): numbers and words never do.  Each proof is an induction on the value.
-/
import ControlPlane.JsonRead

namespace ControlPlane.Json

open JsonReader Readable

mutual

/-- A string or a key in the value holds a lone surrogate. -/
def hasSurrogate : Json → Bool
  | .str text => text.any PyStr.isSurrogate
  | .arr items => hasSurrogateItems items
  | .obj fields => hasSurrogateFields fields
  | _ => false

def hasSurrogateItems : List Json → Bool
  | [] => false
  | item :: items => hasSurrogate item || hasSurrogateItems items

def hasSurrogateFields : List (PyStr × Json) → Bool
  | [] => false
  | (key, value) :: fields =>
      (key.any PyStr.isSurrogate || hasSurrogate value) || hasSurrogateFields fields

end

theorem hasSurrogateItems_eq (items : List Json) :
    hasSurrogateItems items = items.any hasSurrogate := by
  induction items with
  | nil => rfl
  | cons item items ih => rw [hasSurrogateItems, ih, List.any_cons]

theorem hasSurrogateFields_eq (fields : List (PyStr × Json)) : hasSurrogateFields fields =
    fields.any fun f => f.1.any PyStr.isSurrogate || hasSurrogate f.2 := by
  induction fields with
  | nil => rfl
  | cons f fields ih => rw [hasSurrogateFields, ih, List.any_cons]

theorem depthItems_le {items : List Json} {n : Nat} :
    depthItems items ≤ n ↔ ∀ item ∈ items, item.depth ≤ n := by
  induction items with
  | nil => simp [depthItems]
  | cons item items ih => rw [depthItems, Nat.max_le, ih, List.forall_mem_cons]

theorem depthFields_le {fields : List (PyStr × Json)} {n : Nat} :
    depthFields fields ≤ n ↔ ∀ f ∈ fields, f.2.depth ≤ n := by
  induction fields with
  | nil => simp [depthFields]
  | cons f fields ih => rw [depthFields, Nat.max_le, ih, List.forall_mem_cons]

/-! ## Sorting keys -/

section Sorted

variable {P : ℚ → Prop} {value : Json}

/-- A word has nothing to sort. -/
theorem sortKeys_word {text : PyStr} (h : (value, text) ∈ words) : sortKeys value = value := by
  simp only [words, List.mem_cons, Prod.mk.injEq, List.not_mem_nil, or_false] at h
  rcases h with ⟨rfl, -⟩ | ⟨rfl, -⟩ | ⟨rfl, -⟩ | ⟨rfl, -⟩ | ⟨rfl, -⟩ | ⟨rfl, -⟩ <;> rfl

theorem sortKeys_arr (items : List Json) : sortKeys (.arr items) = .arr (items.map sortKeys) := by
  rw [sortKeys, sortItems_eq]

theorem sortKeys_obj (fields : List (PyStr × Json)) : sortKeys (.obj fields) =
    .obj (sortFields (fields.map fun f => (f.1, sortKeys f.2))) := by
  rw [sortKeys, sortValues_eq]

/-- The fields of a sorted object. -/
theorem mem_sorted {fields : List (PyStr × Json)} {f : PyStr × Json} :
    f ∈ sortFields (fields.map fun f => (f.1, sortKeys f.2)) ↔
      ∃ g ∈ fields, (g.1, sortKeys g.2) = f := by
  rw [sortFields, List.mem_insertionSort, List.mem_map]

theorem keys_sorted (fields : List (PyStr × Json)) :
    ((sortFields (fields.map fun f => (f.1, sortKeys f.2))).map Prod.fst).Perm
      (fields.map Prod.fst) := by
  refine ((List.perm_insertionSort _ _).map Prod.fst).trans (List.Perm.of_eq ?_)
  rw [List.map_map]
  rfl

theorem all_eq_of_mem {α : Type} {p q : α → Bool} {xs : List α} (h : ∀ a ∈ xs, p a = q a) :
    xs.all p = xs.all q := by
  rw [Bool.eq_iff_iff, List.all_eq_true, List.all_eq_true]
  exact forall₂_congr fun a ha => by rw [h a ha]

theorem any_eq_of_mem {α : Type} {p q : α → Bool} {xs : List α} (h : ∀ a ∈ xs, p a = q a) :
    xs.any p = xs.any q := by
  rw [List.any_eq_not_all_not, List.any_eq_not_all_not]
  exact congrArg not (all_eq_of_mem fun a ha => congrArg not (h a ha))

/-- What holds of every field does so before and after sorting. -/
theorem all_sorted {fields : List (PyStr × Json)} {p q : PyStr × Json → Bool}
    (h : ∀ f ∈ fields, p (f.1, sortKeys f.2) = q f) :
    (sortFields (fields.map fun f => (f.1, sortKeys f.2))).all p = fields.all q := by
  rw [sortFields, (List.perm_insertionSort _ _).all_eq, List.all_map]
  exact all_eq_of_mem h

theorem parsed_sortKeys (h : Parsed P value) : Parsed P (sortKeys value) := by
  induction h with
  | word hword =>
    rw [sortKeys_word hword]
    exact .word hword
  | int n => exact .int n
  | float hq => exact .float hq
  | negZero => exact .negZero
  | str htext => exact .str htext
  | arr _ ih =>
    rw [sortKeys_arr]
    refine .arr fun item hitem => ?_
    obtain ⟨before, hbefore, rfl⟩ := List.mem_map.mp hitem
    exact ih before hbefore
  | obj hkeys hjoined _ ih =>
    rw [sortKeys_obj]
    refine .obj ((keys_sorted _).nodup_iff.mpr hkeys) (fun f hf => ?_) fun f hf => ?_
    · obtain ⟨g, hg, rfl⟩ := mem_sorted.mp hf
      exact hjoined g hg
    · obtain ⟨g, hg, rfl⟩ := mem_sorted.mp hf
      exact ih g hg

theorem fits_sortKeys (h : Parsed P value) (py : Interpreter) (opened : Nat) :
    fits py opened (Json.sortKeys value) = fits py opened value := by
  induction h generalizing opened with
  | word hword => rw [sortKeys_word hword]
  | int n => rfl
  | float hq => rfl
  | negZero => rfl
  | str htext => rfl
  | @arr items _ ih =>
    rw [sortKeys_arr, fits, fits, fitsItems_eq, fitsItems_eq, List.all_map]
    congr 1
    exact all_eq_of_mem fun item hitem => ih item hitem _
  | @obj fields hkeys hjoined _ ih =>
    rw [sortKeys_obj, fits, fits, fitsFields_eq, fitsFields_eq]
    congr 1
    exact all_sorted fun f hf => ih f hf _

theorem depth_sortKeys (h : Parsed P value) : (Json.sortKeys value).depth = value.depth := by
  induction h with
  | word hword => rw [sortKeys_word hword]
  | int n => rfl
  | float hq => rfl
  | negZero => rfl
  | str htext => rfl
  | @arr items _ ih =>
    rw [sortKeys_arr, depth, depth]
    congr 1
    refine eq_of_forall_ge_iff fun n => ?_
    rw [depthItems_le, depthItems_le, List.forall_mem_map]
    exact forall₂_congr fun item hitem => by rw [ih item hitem]
  | @obj fields hkeys hjoined _ ih =>
    rw [sortKeys_obj, depth, depth]
    congr 1
    refine eq_of_forall_ge_iff fun n => ?_
    rw [depthFields_le, depthFields_le]
    constructor
    · intro hall f hf
      rw [← ih f hf]
      exact hall _ (mem_sorted.mpr ⟨f, hf, rfl⟩)
    · intro hall f hf
      obtain ⟨g, hg, rfl⟩ := mem_sorted.mp hf
      exact (ih g hg).trans_le (hall g hg)

theorem hasSurrogate_sortKeys (h : Parsed P value) :
    hasSurrogate (Json.sortKeys value) = hasSurrogate value := by
  induction h with
  | word hword => rw [sortKeys_word hword]
  | int n => rfl
  | float hq => rfl
  | negZero => rfl
  | str htext => rfl
  | @arr items _ ih =>
    rw [sortKeys_arr, hasSurrogate, hasSurrogate, hasSurrogateItems_eq, hasSurrogateItems_eq,
      List.any_map]
    exact any_eq_of_mem ih
  | @obj fields hkeys hjoined _ ih =>
    rw [sortKeys_obj, hasSurrogate, hasSurrogate, hasSurrogateFields_eq, hasSurrogateFields_eq,
      List.any_eq_not_all_not, List.any_eq_not_all_not]
    congr 1
    exact all_sorted fun f hf => by rw [ih f hf]

/-- Sorted keys are sorted. -/
theorem sortKeys_sortKeys (h : Parsed P value) :
    Json.sortKeys (Json.sortKeys value) = Json.sortKeys value := by
  induction h with
  | word hword => rw [sortKeys_word hword, sortKeys_word hword]
  | int n => rfl
  | float hq => rfl
  | negZero => rfl
  | str htext => rfl
  | @arr items _ ih =>
    rw [sortKeys_arr, sortKeys_arr, List.map_map]
    exact congrArg Json.arr (List.map_congr_left ih)
  | @obj fields hkeys hjoined _ ih =>
    have htwice : (fields.map fun f => (f.1, Json.sortKeys f.2)).map
        (fun f => (f.1, Json.sortKeys f.2)) = fields.map fun f => (f.1, Json.sortKeys f.2) := by
      rw [List.map_map]
      refine List.map_congr_left fun f hf => ?_
      rw [Function.comp_apply, ih f hf]
    have hsorted : sortFields (sortFields (fields.map fun f => (f.1, Json.sortKeys f.2))) =
        sortFields (fields.map fun f => (f.1, Json.sortKeys f.2)) :=
      (List.pairwise_insertionSort (fun a b : PyStr × Json => a.1 ≤ b.1) _).insertionSort_eq
    rw [sortKeys_obj, sortKeys_obj, ← sortFields_map, htwice, hsorted]

end Sorted

/-! ## Encoding -/

/-- Characters with an escape are below the surrogates. -/
theorem escapeControl_lt {n : Nat} {text : PyStr} (h : escapeControl n = some text) : n < 0x5D := by
  unfold escapeControl at h
  iterate 8
    split at h
    · omega
  cases h

theorem any_plain {text : PyStr} (h : text.all PyStr.isPlain = true) :
    text.any PyStr.isSurrogate = false := by
  rw [List.any_eq_false]
  intro c hc
  have hplain := List.all_eq_true.mp h c hc
  simp only [PyStr.isPlain, Bool.and_eq_true, decide_eq_true_eq] at hplain
  simp only [PyStr.isSurrogate, Bool.and_eq_true, decide_eq_true_eq]
  omega

theorem any_numeral {text : PyStr} (h : text.all isNumeral = true) :
    text.any PyStr.isSurrogate = false := by
  refine any_plain (List.all_eq_true.mpr fun c hc => ?_)
  have hnumeral := List.all_eq_true.mp h c hc
  simp only [isNumeral, Bool.or_eq_true, Bool.and_eq_true, decide_eq_true_eq, beq_iff_eq] at hnumeral
  rcases hnumeral with (((hdigit | rfl) | rfl) | rfl) | rfl
  · simp only [PyStr.isPlain, Bool.and_eq_true, decide_eq_true_eq]
    omega
  all_goals decide

/-- An escape adds no surrogate and removes none. -/
theorem any_escape (c : CodePoint) : (escape c).any PyStr.isSurrogate = PyStr.isSurrogate c := by
  cases h : escapeControl c.val with
  | none => rw [escape_none h, List.any_cons, List.any_nil, Bool.or_false]
  | some text =>
    have hlt := escapeControl_lt h
    rw [escape_some h, any_plain (escapeControl_plain h), eq_comm, ← Bool.not_eq_true]
    simp only [PyStr.isSurrogate, Bool.and_eq_true, decide_eq_true_eq]
    omega

theorem any_quote (text : PyStr) :
    (canonical.quote text).any PyStr.isSurrogate = text.any PyStr.isSurrogate := by
  have hbody : (text.flatMap escape).any PyStr.isSurrogate = text.any PyStr.isSurrogate := by
    rw [List.any_flatMap]
    exact congrArg text.any (funext any_escape)
  rw [quote_eq, List.any_cons, List.any_append, hbody, List.any_cons, List.any_nil]
  exact Bool.or_false _

theorem any_join (texts : List PyStr) : (Readable.join [0x2C] texts).any PyStr.isSurrogate =
    texts.any fun text => text.any PyStr.isSurrogate := by
  cases texts with
  | nil => rfl
  | cons text rest =>
    have hsep : ∀ next : PyStr, ([0x2C] ++ next).any PyStr.isSurrogate =
        next.any PyStr.isSurrogate := fun next => by
      rw [List.any_append]
      exact Bool.false_or _
    rw [join_cons, List.any_append, List.any_flatMap, List.any_cons, funext hsep]

section Encoded

variable {P : ℚ → Prop} {repr : PyFloat → PyStr} {value : Json}

/-- What stands between brackets decides. -/
theorem any_brackets {first last : CodePoint} (texts : List PyStr)
    (hfirst : PyStr.isSurrogate first = false) (hlast : PyStr.isSurrogate last = false) :
    (first :: (Readable.join [0x2C] texts ++ [last])).any PyStr.isSurrogate =
      texts.any fun text => text.any PyStr.isSurrogate := by
  rw [List.any_cons, List.any_append, any_join, List.any_cons, List.any_nil, hfirst, hlast,
    Bool.false_or, Bool.or_false, Bool.or_false]

theorem parsed_floatsIn (h : Parsed P value) : FloatsIn P value := by
  induction h with
  | word hword =>
    simp only [words, List.mem_cons, Prod.mk.injEq, List.not_mem_nil, or_false] at hword
    rcases hword with ⟨rfl, -⟩ | ⟨rfl, -⟩ | ⟨rfl, -⟩ | ⟨rfl, -⟩ | ⟨rfl, -⟩ | ⟨rfl, -⟩ <;>
      simp [FloatsIn, floats]
  | int n => exact fun q hq => absurd hq List.not_mem_nil
  | float hq =>
    intro q hmem
    rwa [PyFloat.finite.inj (List.mem_singleton.mp hmem)]
  | negZero => exact fun q hq => absurd hq List.not_mem_nil
  | str htext => exact fun q hq => absurd hq List.not_mem_nil
  | arr _ ih => exact floatsIn_items.mpr ih
  | obj _ _ _ ih => exact floatsIn_fields.mpr ih

/-- **The text of a value holds a surrogate exactly when the value does.** -/
theorem any_write (laws : ReprLaws P repr) (h : Parsed P value) :
    (write repr value).any PyStr.isSurrogate = hasSurrogate value := by
  induction h with
  | word hword =>
    simp only [words, List.mem_cons, Prod.mk.injEq, List.not_mem_nil, or_false] at hword
    rcases hword with ⟨rfl, -⟩ | ⟨rfl, -⟩ | ⟨rfl, -⟩ | ⟨rfl, -⟩ | ⟨rfl, -⟩ | ⟨rfl, -⟩ <;> rfl
  | int n => exact any_numeral (lit_int_numeral n).1
  | float hq => exact any_numeral (laws.numeral _ hq)
  | negZero => rfl
  | str htext => exact any_quote _
  | @arr items _ ih =>
    rw [write_arr, any_brackets _ rfl rfl, List.any_map, hasSurrogate, hasSurrogateItems_eq]
    exact any_eq_of_mem ih
  | @obj fields _ _ _ ih =>
    rw [write_obj, any_brackets _ rfl rfl, List.any_map, hasSurrogate, hasSurrogateFields_eq]
    refine any_eq_of_mem fun f hf => ?_
    have hcolon : canonical.key.any PyStr.isSurrogate = false := by decide
    rw [Function.comp_apply, writeField, List.any_append, List.any_append, any_quote, hcolon,
      Bool.or_false]
    exact congrArg _ (ih f hf)

/-- The same for a list of texts. -/
theorem any_write_texts (texts : List PyStr) :
    (write repr (.arr (texts.map .str))).any PyStr.isSurrogate =
      texts.any fun text => text.any PyStr.isSurrogate := by
  rw [write_arr, any_brackets _ rfl rfl, List.any_map, List.any_map]
  exact congrArg texts.any (funext any_quote)

/-- The same for the canonical text. -/
theorem any_dumps (laws : ReprLaws P repr) (h : Parsed P value) :
    (dumps repr value).any PyStr.isSurrogate = hasSurrogate value := by
  rw [dumps_eq_write, any_write laws (parsed_sortKeys h), hasSurrogate_sortKeys h]

end Encoded

end ControlPlane.Json
