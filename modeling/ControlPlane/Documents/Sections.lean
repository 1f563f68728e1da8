/-
  SECTIONS: `section_hierarchy` of `theorem_ml/extract/elements.py`, on any list of elements.

  The level of a section header is `int` of an attribute, which need not be a number; what stored trees
  and both parsers set is one, and there this is the function that `from_docling` is modelled with
  (`sectionsFrom_eq`).

  1. The stack of sections is the headers that are still OPEN, the last one on top (`stacked_turn`).
  2. So an element without a parent goes into the last open header before it (`sectionsFrom_spec`), and
     a header into one of a smaller level (`sectionOf_smaller`).
  3. What is added points at an element in front, and makes no cycle (`added_acyclic`).
-/
import ControlPlane.OpenHeaders
import ControlPlane.PyNumber
import ControlPlane.Documents.Normalization

namespace ControlPlane.Documents

open PyStr OpenHeaders

/-! ## Levels -/

/-- `int(text)`; `none` is `ValueError`.  The interpreter converts no more than 4300 digits. -/
def intText (decimal : CodePoint → Option Nat) (text : PyStr) : Option Int :=
  let (negative, body) := PyFloat.takeSign (strip text)
  match PyFloat.takeDigits decimal body with
  | (d :: digits, []) =>
      let value : Int := PyFloat.digitsValue (d :: digits)
      if 4300 < (d :: digits).length then none else some (if negative then -value else value)
  | _ => none

/-- `int(value)`; `none` is `ValueError`, `TypeError` or `OverflowError`. -/
def PyValue.toInt (decimal : CodePoint → Option Nat) : PyValue → Option Int
  | .int n => some n
  | .bool b => some (if b then 1 else 0)
  | .float (.finite q) => some (q.num.tdiv q.den)
  | .str text => intText decimal text
  | _ => Option.none

variable (decimal : CodePoint → Option Nat)

/-- `int(e.attributes.get("level", 1))`. -/
def DocElement.intLevel (e : DocElement) : Option Int :=
  ((e.attributes.lookup (lit "level")).getD (.int 1)).toInt decimal

/-! ## `section_hierarchy` -/

/-- One turn of the loop; the innermost section comes first. -/
def DocElement.turn (sections : List (Int × PyStr)) (e : DocElement) :
    Option (DocElement × List (Int × PyStr)) :=
  if e.kind = lit "SectionHeader" then
    (e.intLevel decimal).map fun level =>
      let sections := sections.dropWhile fun s => level ≤ s.1
      (e.adopt sections, (level, e.id) :: sections)
  else if e.kind ∉ unsectioned then some (e.adopt sections, sections)
  else some (e, sections)

/-- `section_hierarchy`, inside of the sections; `none` is what `int` raises. -/
def sectionsFrom (sections : List (Int × PyStr)) : List DocElement → Option (List DocElement)
  | [] => some []
  | e :: rest => (e.turn decimal sections).bind fun r => (sectionsFrom r.2 rest).map (List.cons r.1)

variable {decimal}

/-- Where the levels are numbers, this is what `from_docling` does. -/
theorem sectionsFrom_eq {elements : List DocElement} {sections : List (Int × PyStr)}
    (h : ∀ e ∈ elements, e.kind = lit "SectionHeader" → e.intLevel decimal = some e.level) :
    sectionsFrom decimal sections elements = some (sectionHierarchy sections elements) := by
  induction elements generalizing sections with
  | nil => rfl
  | cons e rest ih =>
    rw [List.forall_mem_cons] at h
    have hturn : e.turn decimal sections = some (e.section sections) := by
      unfold DocElement.turn DocElement.section
      split
      · rename_i hheader
        rw [h.1 hheader]
        rfl
      · split <;> rfl
    rw [sectionsFrom, hturn, Option.bind_some, ih h.2]
    rfl

/-! ## The sections that are meant -/

variable (decimal)

/-- The section headers among the elements: level, place and id. -/
def headersOf (elements : List DocElement) : List (Int × Nat × PyStr) :=
  elements.zipIdx.filterMap fun entry =>
    if entry.1.kind = lit "SectionHeader" then
      (entry.1.intLevel decimal).map fun level => (level, entry.2, entry.1.id)
    else none

/-- A header closes what is not smaller before it has a parent itself. -/
def DocElement.closing (e : DocElement) : List Int :=
  if e.kind = lit "SectionHeader" then (e.intLevel decimal).toList else []

/-- The last header in front of the element that is still open: its place and id. -/
def DocElement.sectionOf (before : List DocElement) (e : DocElement) : Option (Nat × PyStr) :=
  ((opened (e.closing decimal) (headersOf decimal before)).getLast?).map Prod.snd

/-- An element without a parent, of a kind that has one, belongs to its section. -/
def DocElement.sectioned (before : List DocElement) (e : DocElement) : DocElement :=
  if e.parent = none ∧ e.kind ∉ unsectioned then
    { e with parent := (e.sectionOf decimal before).map Prod.snd }
  else e

/-- All elements, behind those of `before`. -/
def sectionedFrom (before : List DocElement) : List DocElement → List DocElement
  | [] => []
  | e :: rest => e.sectioned decimal before :: sectionedFrom (before ++ [e]) rest

/-- The stack behind these elements. -/
def stacked (before : List DocElement) : List (Int × PyStr) :=
  (opened [] (headersOf decimal before)).reverse.map fun h => (h.1, h.2.2)

variable {decimal} {before rest : List DocElement} {e : DocElement}

theorem headersOf_snoc : headersOf decimal (before ++ [e]) = headersOf decimal before ++
    (if e.kind = lit "SectionHeader" then
      (e.intLevel decimal).map fun level => (level, before.length, e.id) else none).toList := by
  rw [headersOf, List.zipIdx_append, List.filterMap_append, headersOf, List.zipIdx_singleton,
    Nat.zero_add]
  refine congrArg _ ?_
  by_cases hheader : e.kind = lit "SectionHeader"
  · cases hlevel : e.intLevel decimal <;> simp [hheader, hlevel]
  · simp [hheader]

theorem mem_headersOf {level : Int} {i : Nat} {id : PyStr}
    (h : (level, i, id) ∈ headersOf decimal before) : ∃ header, before[i]? = some header ∧
      header.kind = lit "SectionHeader" ∧ header.intLevel decimal = some level ∧ header.id = id := by
  obtain ⟨entry, hentry, hsome⟩ := List.mem_filterMap.mp h
  split at hsome
  · rename_i hkind
    obtain ⟨level', hlevel, heq⟩ := Option.map_eq_some_iff.mp hsome
    obtain ⟨rfl, rfl, rfl⟩ : level' = level ∧ entry.2 = i ∧ entry.1.id = id := by simpa using heq
    exact ⟨entry.1, List.mem_zipIdx_iff_getElem?.mp hentry, hkind, hlevel, rfl⟩
  · cases hsome

theorem adopt_eq {sections : List (Int × PyStr)} (hkind : e.kind ∉ unsectioned)
    (hsections : sections.head?.map Prod.snd = (e.sectionOf decimal before).map Prod.snd) :
    e.adopt sections = e.sectioned decimal before := by
  unfold DocElement.adopt DocElement.sectioned
  by_cases hparent : e.parent = none
  · rw [if_pos hparent, if_pos ⟨hparent, hkind⟩, hsections]
  · rw [if_neg hparent, if_neg fun h => hparent h.1]

theorem header_sectioned : lit "SectionHeader" ∉ unsectioned := by decide

/-- **One turn** takes the element into its section, and keeps the stack of the open headers. -/
theorem stacked_turn (hlevel : e.kind = lit "SectionHeader" → (e.intLevel decimal).isSome = true) :
    e.turn decimal (stacked decimal before) =
      some (e.sectioned decimal before, stacked decimal (before ++ [e])) := by
  unfold DocElement.turn
  by_cases hheader : e.kind = lit "SectionHeader"
  · obtain ⟨level, hlevel⟩ := Option.isSome_iff_exists.mp (hlevel hheader)
    have hpop : (stacked decimal before).dropWhile (fun s => level ≤ s.1) =
        (opened [level] (headersOf decimal before)).reverse.map fun h => (h.1, h.2.2) := by
      rw [stacked, List.dropWhile_map, ← pop_opened]
      rfl
    have hpush : (level, e.id) :: (stacked decimal before).dropWhile (fun s => level ≤ s.1) =
        stacked decimal (before ++ [e]) := by
      rw [hpop, stacked, headersOf_snoc, if_pos hheader, hlevel, Option.map_some, Option.toList_some,
        opened_snoc, List.reverse_append]
      rfl
    have hsection : e.adopt ((stacked decimal before).dropWhile fun s => level ≤ s.1) =
        e.sectioned decimal before := by
      refine adopt_eq (hheader ▸ header_sectioned) ?_
      rw [hpop, DocElement.sectionOf, DocElement.closing, if_pos hheader, hlevel, List.head?_map,
        List.head?_reverse, Option.map_map, Option.map_map]
      rfl
    rw [if_pos hheader, hlevel, Option.map_some]
    exact congrArg some (Prod.ext hsection hpush)
  · have hstay : stacked decimal (before ++ [e]) = stacked decimal before := by
      rw [stacked, headersOf_snoc, if_neg hheader, Option.toList_none, List.append_nil, stacked]
    rw [if_neg hheader, hstay]
    by_cases hkind : e.kind ∈ unsectioned
    · rw [if_neg (not_not.mpr hkind), DocElement.sectioned, if_neg fun h => h.2 hkind]
    · rw [if_pos hkind, adopt_eq hkind]
      rw [DocElement.sectionOf, DocElement.closing, if_neg hheader, stacked, List.head?_map,
        List.head?_reverse, Option.map_map, Option.map_map]
      rfl

/-- **All turns**, by induction on the elements. -/
theorem sectionsFrom_spec
    (hlevels : ∀ e ∈ rest, e.kind = lit "SectionHeader" → (e.intLevel decimal).isSome = true) :
    sectionsFrom decimal (stacked decimal before) rest = some (sectionedFrom decimal before rest) := by
  induction rest generalizing before with
  | nil => rfl
  | cons e rest ih =>
    rw [List.forall_mem_cons] at hlevels
    rw [sectionsFrom, stacked_turn hlevels.1, Option.bind_some, ih hlevels.2]
    rfl

/-- `section_hierarchy` returns exactly when every header has a level. -/
theorem sectionsFrom_isSome {sections : List (Int × PyStr)} :
    (sectionsFrom decimal sections rest).isSome = true ↔
      ∀ e ∈ rest, e.kind = lit "SectionHeader" → (e.intLevel decimal).isSome = true := by
  induction rest generalizing sections with
  | nil => simp [sectionsFrom]
  | cons e rest ih =>
    rw [List.forall_mem_cons, sectionsFrom]
    unfold DocElement.turn
    by_cases hheader : e.kind = lit "SectionHeader"
    · cases hlevel : e.intLevel decimal with
      | none => simp [hheader]
      | some level => simp [hheader, ih]
    · by_cases hkind : e.kind ∈ unsectioned <;> simp [hheader, hkind, ih]

theorem sectionedFrom_length : (sectionedFrom decimal before rest).length = rest.length := by
  induction rest generalizing before with
  | nil => rfl
  | cons e rest ih => rw [sectionedFrom, List.length_cons, List.length_cons, ih]

theorem sectionedFrom_snoc : sectionedFrom decimal before (rest ++ [e]) =
    sectionedFrom decimal before rest ++ [e.sectioned decimal (before ++ rest)] := by
  induction rest generalizing before with
  | nil => simp [sectionedFrom]
  | cons d rest ih => simp [sectionedFrom, ih]

theorem sectionedFrom_get {i : Nat} (h : rest[i]? = some e) :
    (sectionedFrom decimal before rest)[i]? = some (e.sectioned decimal (before ++ rest.take i)) := by
  induction rest generalizing before i with
  | nil => cases h
  | cons d rest ih =>
    cases i with
    | zero =>
      obtain rfl : d = e := by simpa using h
      simp [sectionedFrom]
    | succ i =>
      rw [sectionedFrom, List.getElem?_cons_succ, ih (by simpa using h)]
      simp

/-! ## What is added -/

/-- A section lies in front, and is a header; a header lies in one of a smaller level. -/
theorem sectionOf_header {j : Nat} {id : PyStr} (h : e.sectionOf decimal before = some (j, id)) :
    ∃ header level, before[j]? = some header ∧ header.kind = lit "SectionHeader" ∧ header.id = id ∧
      header.intLevel decimal = some level ∧ ∀ own ∈ e.closing decimal, level < own := by
  obtain ⟨⟨level, j', id'⟩, hlast, heq⟩ := Option.map_eq_some_iff.mp h
  obtain ⟨rfl, rfl⟩ := Prod.mk.inj heq
  obtain ⟨hmem, hclosing⟩ := mem_opened (List.mem_of_getLast? hlast)
  obtain ⟨header, hget, hkind, hlevel, hid⟩ := mem_headersOf hmem
  exact ⟨header, level, hget, hkind, hid, hlevel, hclosing⟩

variable (decimal)

/-- The `i`-th element had no parent and gets the `j`-th one. -/
def Added (elements : List DocElement) (i j : Nat) : Prop :=
  ∃ e id, elements[i]? = some e ∧ e.parent = none ∧ e.kind ∉ unsectioned ∧
    e.sectionOf decimal (elements.take i) = some (j, id)

variable {decimal} {elements : List DocElement}

theorem added_lt {i j : Nat} (h : Added decimal elements i j) : j < i := by
  obtain ⟨e, id, -, -, -, hsection⟩ := h
  obtain ⟨header, level, hget, -⟩ := sectionOf_header hsection
  have hlt := (List.getElem?_eq_some_iff.mp hget).1
  rw [List.length_take] at hlt
  omega

/-- **No cycle is added.** -/
theorem added_acyclic (i : Nat) : ¬ Relation.TransGen (Added decimal elements) i i := by
  have hlt : ∀ {i j}, Relation.TransGen (Added decimal elements) i j → j < i := by
    intro i j h
    induction h with
    | single h => exact added_lt h
    | tail _ h ih => exact (added_lt h).trans ih
  exact fun h => Nat.lt_irrefl i (hlt h)

/-- What `section_hierarchy` makes of elements. -/
structure Sectioned (decimal : CodePoint → Option Nat) (elements out : List DocElement) : Prop where
  length : out.length = elements.length
  /-- A parent that is given is kept, and some kinds stay outside. -/
  kept : ∀ (i : Nat) (e : DocElement), elements[i]? = some e → e.parent ≠ none ∨ e.kind ∈ unsectioned → out[i]? = some e
  /-- All others go into the last open header in front. -/
  adopted : ∀ (i : Nat) (e : DocElement), elements[i]? = some e → e.parent = none → e.kind ∉ unsectioned →
    out[i]? = some { e with parent := (e.sectionOf decimal (elements.take i)).map Prod.snd }
  /-- Which is a header, and one of a smaller level than a header that goes into it. -/
  header : ∀ (i j : Nat) (e : DocElement) id, elements[i]? = some e → e.sectionOf decimal (elements.take i) = some (j, id) →
    ∃ (header : DocElement) (level : Int), elements[j]? = some header ∧
      header.kind = lit "SectionHeader" ∧ header.id = id ∧ header.intLevel decimal = some level ∧
      ∀ own ∈ e.closing decimal, level < own
  acyclic : ∀ i, ¬ Relation.TransGen (Added decimal elements) i i
  /-- Where ids tell elements apart, no element is its own ancestor by id either. -/
  forest : (elements.map DocElement.id).Nodup → (∀ e ∈ elements, e.parent = none) →
    ∀ a, ¬ Relation.TransGen (IsParent out) a a

theorem sectioned_get {i : Nat} (h : elements[i]? = some e) :
    (sectionedFrom decimal [] elements)[i]? = some (e.sectioned decimal (elements.take i)) :=
  sectionedFrom_get h

/-- A parent that was added, by the places of the ids. -/
theorem added_of_isParent {a b : PyStr} (hids : (elements.map DocElement.id).Nodup)
    (hnone : ∀ e ∈ elements, e.parent = none)
    (h : IsParent (sectionedFrom decimal [] elements) a b) :
    Added decimal elements ((elements.map DocElement.id).idxOf a)
      ((elements.map DocElement.id).idxOf b) := by
  have hplace : ∀ {i : Nat} {e : DocElement}, elements[i]? = some e →
      (elements.map DocElement.id).idxOf e.id = i := by
    intro i e hget
    obtain ⟨hlt, rfl⟩ := List.getElem?_eq_some_iff.mp hget
    have hi : i < (elements.map DocElement.id).length := by rwa [List.length_map]
    have hidx := hids.idxOf_getElem i hi
    rwa [List.getElem_map] at hidx
  obtain ⟨e', hmem, rfl, hparent⟩ := h
  obtain ⟨i, hi, rfl⟩ := List.mem_iff_getElem.mp hmem
  have hlt : i < elements.length := by rwa [sectionedFrom_length] at hi
  have hget : elements[i]? = some elements[i] := List.getElem?_eq_getElem hlt
  have hout := @sectioned_get decimal _ _ _ hget
  rw [List.getElem?_eq_getElem hi] at hout
  rw [Option.some.inj hout] at hparent ⊢
  unfold DocElement.sectioned at hparent ⊢
  split at hparent
  · rename_i hin
    obtain ⟨⟨j, id⟩, hsection, rfl⟩ := Option.map_eq_some_iff.mp hparent
    obtain ⟨header, level, hheader, -, rfl, -⟩ := sectionOf_header hsection
    have hj := (List.getElem?_eq_some_iff.mp hheader).1
    rw [List.length_take] at hj
    rw [List.getElem?_take, if_pos (by omega)] at hheader
    have hadded : Added decimal elements i j :=
      ⟨elements[i], header.id, hget, hin.1, hin.2, hsection⟩
    rw [if_pos hin, hplace hheader]
    show Added decimal elements ((elements.map DocElement.id).idxOf elements[i].id) j
    rw [hplace hget]
    exact hadded
  · rw [hnone _ (List.getElem_mem hlt)] at hparent
    cases hparent

/-- **`section_hierarchy`**, by the open headers. -/
theorem sectioned_of_some {out : List DocElement} (h : sectionsFrom decimal [] elements = some out) :
    Sectioned decimal elements out := by
  have hlevels := sectionsFrom_isSome.mp (by rw [h]; rfl)
  have hspec := @sectionsFrom_spec _ [] _ hlevels
  obtain rfl : sectionedFrom decimal [] elements = out := Option.some.inj (hspec.symm.trans h)
  refine ⟨sectionedFrom_length, fun i e hget hout => ?_, fun i e hget hparent hkind => ?_,
    fun i j e id hget hsection => ?_, added_acyclic, fun hids hnone a hcycle => ?_⟩
  · rw [sectioned_get hget, DocElement.sectioned, if_neg]
    exact fun hin => hout.elim (fun hne => hne hin.1) fun hmem => hin.2 hmem
  · rw [sectioned_get hget, DocElement.sectioned, if_pos ⟨hparent, hkind⟩]
  · obtain ⟨header, level, hheader, hrest⟩ := sectionOf_header hsection
    have hj := (List.getElem?_eq_some_iff.mp hheader).1
    rw [List.length_take] at hj
    rw [List.getElem?_take, if_pos (by omega)] at hheader
    exact ⟨header, level, hheader, hrest⟩
  · exact added_acyclic _ (hcycle.lift _ fun _ _ hparent => added_of_isParent hids hnone hparent)

end ControlPlane.Documents
