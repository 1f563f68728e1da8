/-
  PAGE MERGING: `merge_pages` of `theorem_ml/extract/parse/router.py`.

  A page that was parsed again replaces the native elements of the page.  A native element whose ancestors
  went with their pages is hung up again at the nearest one that is KEPT, by its id.

  1. The output is the pages in order, each once (`mem_slots`, `slots_ascending`, `nodup_output`).
  2. The walk up from a parent ends: the native tree has no cycle, and a replacement keeps its parents
     (`rehang_spec`).
  3. A step up in the result is one in a replacement tree, or several in the native tree, so there is no
     cycle (`edge_cases`, `way_cases`).

  "Kept" asks for an id only.  Where a replacement has the id of an element that was removed, it takes in
  the descendants of that element (`replacement_adopts`).
-/
import ControlPlane.Documents.Trees
import ControlPlane.PyDict

namespace ControlPlane.Documents

open PyStr

/-! ## `merge_pages` -/

/-- `range(1, page_count + 1)`. -/
def pagesUpTo (pageCount : Int) : List Int :=
  (List.range pageCount.toNat).map fun (k : Nat) => (k : Int) + 1

variable (native : DocElementTree) (replacements : List (Int × DocElementTree)) (pageCount : Int)

/-- What a page contributes. -/
def pageElements (page : Int) : List DocElement :=
  match replacements.lookup page with
  | some tree => tree.elements
  | none => native.elements.filter fun e => e.page = some page

/-- The native elements that are on no page. -/
def pageless : List DocElement := native.elements.filter fun e => e.page = none

/-- `output`. -/
def mergedOutput : List DocElement :=
  (pagesUpTo pageCount).flatMap (pageElements native replacements) ++ pageless native

/-- `{e.id: e.parent for e in native.elements}`. -/
def ancestorsOf : List (PyStr × Option PyStr) :=
  native.elements.foldl (fun ancestors e => PyDict.set ancestors e.id e.parent) []

/-- One turn of the second loop, with so many turns for its own loop. -/
def rehang (turns : Nat) (kept : List PyStr) (ancestors : List (PyStr × Option PyStr))
    (entry : DocElement × Nat) : Option DocElement :=
  (Ancestors.seek (· ∈ kept) ancestors turns entry.1.parent).map fun parent =>
    { entry.1 with order := entry.2, parent := parent }

/-- `merge_pages`; `none`: so many turns are not enough for the loop over some parents. -/
def mergePages (turns : Nat) (sourceId : PyStr) : Option (Except Failure DocElementTree) :=
  let output := mergedOutput native replacements pageCount
  (output.zipIdx.mapM (rehang turns (output.map DocElement.id) (ancestorsOf native))).map
    (buildTree sourceId)

/-! ## What is merged -/

/-- The elements of the output, each with the page that it is there for. -/
def slots : List (Option Int × DocElement) :=
  ((pagesUpTo pageCount).flatMap fun page =>
      (pageElements native replacements page).map fun e => (some page, e)) ++
    (pageless native).map fun e => (none, e)

/-- No page of the slot was replaced. -/
def IsNative (slot : Option Int × DocElement) : Prop :=
  ∀ page, slot.1 = some page → replacements.lookup page = none

/-- A native element that stays. -/
def Stays (e : DocElement) : Prop :=
  e ∈ native.elements ∧ ∀ page, e.page = some page → replacements.lookup page = none

/-- Trees that can be merged: valid, on the pages there are, and with distinct ids. -/
structure Mergeable : Prop where
  nativeValid : native.validate = .ok ()
  pages : ∀ e ∈ native.elements, ∀ page ∈ e.page, page ≤ pageCount
  replacementsValid : ∀ r ∈ replacements, r.2.validate = .ok ()
  distinct : (replacements.flatMap fun r => r.2.elements.map DocElement.id).Nodup
  surviving : ∀ e, Stays native replacements e →
    ∀ r ∈ replacements, e.id ∉ r.2.elements.map DocElement.id

/-- The nearest ancestor that is kept, in a list of elements. -/
def NearestAncestor (elements : List DocElement) (keep : PyStr → Prop) (a : PyStr) :
    Option PyStr → Prop
  | none => ∀ c, Relation.TransGen (IsParent elements) a c → ¬ keep c
  | some b => Relation.TransGen (IsParent elements) a b ∧ keep b ∧
      ∀ c, Relation.TransGen (IsParent elements) a c → keep c →
        Relation.ReflTransGen (IsParent elements) b c

/-- Pages ascend, and what is on no page comes last. -/
def Ascending : Option Int → Option Int → Prop
  | some p, some q => p ≤ q
  | _, none => True
  | none, some _ => False

/-- The element of a slot in the merged tree, with its own content. -/
structure Rehung (keep : PyStr → Prop) (slot : Option Int × DocElement) (e : DocElement) : Prop where
  content : e = { slot.2 with
    order := e.order, parent := e.parent, byteStart := e.byteStart, byteEnd := e.byteEnd }
  hung : IsNative replacements slot → NearestAncestor native.elements keep slot.2.id e.parent
  unchanged : ¬ IsNative replacements slot → e.parent = slot.2.parent

/-- The merged tree: the elements of the replaced pages and the native ones of all others, each once, in
    the order of their pages; each on its own range, below its parent or the nearest ancestor that is
    kept. -/
structure Merged (keep : PyStr → Prop) (tree : DocElementTree) : Prop where
  content : ∀ slot, slot ∈ slots native replacements pageCount ↔
    match slot.1 with
    | none => slot.2 ∈ native.elements ∧ slot.2.page = none
    | some page => 1 ≤ page ∧ page ≤ pageCount ∧
        ((∃ r, replacements.lookup page = some r ∧ slot.2 ∈ r.elements) ∨
          replacements.lookup page = none ∧ slot.2 ∈ native.elements ∧ slot.2.page = some page)
  once : ((slots native replacements pageCount).map fun slot => slot.2.id).Nodup
  ascending : (slots native replacements pageCount).Pairwise fun a b => Ascending a.1 b.1
  rehung : List.Forall₂ (Rehung native replacements keep) (slots native replacements pageCount)
    tree.elements
  laid : Laid (encoded tree.text) tree.elements
  valid : tree.validate = .ok ()

variable {native replacements pageCount}

theorem mem_pagesUpTo {page : Int} : page ∈ pagesUpTo pageCount ↔ 1 ≤ page ∧ page ≤ pageCount := by
  rw [pagesUpTo, List.mem_map]
  constructor
  · rintro ⟨k, hk, rfl⟩
    rw [List.mem_range] at hk
    omega
  · rintro ⟨hle, hcount⟩
    exact ⟨(page - 1).toNat, List.mem_range.mpr (by omega), by omega⟩

theorem pagesUpTo_increasing : (pagesUpTo pageCount).Pairwise (· < ·) := by
  refine List.pairwise_map.mpr (List.pairwise_lt_range.imp ?_)
  intro a b hlt
  omega

theorem slots_output : (slots native replacements pageCount).map Prod.snd =
    mergedOutput native replacements pageCount := by
  simp [slots, mergedOutput, List.map_flatMap, Function.comp_def]

theorem mem_slots (slot : Option Int × DocElement) : slot ∈ slots native replacements pageCount ↔
    match slot.1 with
    | none => slot.2 ∈ native.elements ∧ slot.2.page = none
    | some page => 1 ≤ page ∧ page ≤ pageCount ∧
        ((∃ r, replacements.lookup page = some r ∧ slot.2 ∈ r.elements) ∨
          replacements.lookup page = none ∧ slot.2 ∈ native.elements ∧ slot.2.page = some page) := by
  obtain ⟨place, e⟩ := slot
  cases place with
  | none => simp [slots, pageless]
  | some page =>
    have hpage : e ∈ pageElements native replacements page ↔
        (∃ r, replacements.lookup page = some r ∧ e ∈ r.elements) ∨
          replacements.lookup page = none ∧ e ∈ native.elements ∧ e.page = some page := by
      unfold pageElements
      split
      · rename_i tree htree
        simp [htree]
      · rename_i hnone
        simp [hnone]
    simp [slots, mem_pagesUpTo, hpage, and_assoc]

theorem slots_ascending :
    (slots native replacements pageCount).Pairwise fun a b => Ascending a.1 b.1 := by
  refine List.pairwise_append.mpr ⟨?_, ?_, ?_⟩
  · rw [List.pairwise_flatMap]
    refine ⟨fun page _ => List.pairwise_map.mpr ?_, ?_⟩
    · exact List.pairwise_of_forall fun _ _ => Int.le_refl page
    · refine pagesUpTo_increasing.imp fun {p q} hlt a ha b hb => ?_
      obtain ⟨e, -, rfl⟩ := List.mem_map.mp ha
      obtain ⟨e', -, rfl⟩ := List.mem_map.mp hb
      exact hlt.le
  · exact List.pairwise_map.mpr (List.pairwise_of_forall fun _ _ => trivial)
  · rintro ⟨a, e⟩ - b hb
    obtain ⟨e', -, rfl⟩ := List.mem_map.mp hb
    cases a <;> trivial

/-! ## Ids -/

variable {tree r r' : DocElementTree} {e e' : DocElement} {a b : PyStr}

theorem wellFormed_of_valid (h : tree.validate = .ok ()) : WellFormed tree.elements :=
  (validate_ok_iff.mp h).2.2

theorem scalar_of_valid (h : tree.validate = .ok ()) : ∀ e ∈ tree.elements, Scalar e.text :=
  fun e he => ((validate_ok_iff.mp h).2.1 e he).scalar

/-- Elements of a valid tree with one id are one element. -/
theorem eq_of_id (h : (tree.elements.map DocElement.id).Nodup) (he : e ∈ tree.elements)
    (he' : e' ∈ tree.elements) (hid : e.id = e'.id) : e = e' :=
  List.inj_on_of_nodup_map h he he' hid

/-- What is put on one page. -/
theorem mem_output : e ∈ mergedOutput native replacements pageCount ↔
    ∃ place, (place, e) ∈ slots native replacements pageCount := by
  rw [← slots_output, List.mem_map]
  exact ⟨fun ⟨slot, hslot, he⟩ => ⟨slot.1, he ▸ hslot⟩, fun ⟨place, hslot⟩ => ⟨_, hslot, rfl⟩⟩

/-- An element of the output is one of a replacement, or a native one that stays. -/
theorem output_cases (h : Mergeable native replacements pageCount) :
    e ∈ mergedOutput native replacements pageCount ↔
      (∃ page r, 1 ≤ page ∧ page ≤ pageCount ∧ replacements.lookup page = some r ∧ e ∈ r.elements) ∨
        Stays native replacements e := by
  rw [mem_output]
  constructor
  · rintro ⟨place, hslot⟩
    have hmem := (mem_slots (place, e)).mp hslot
    cases place with
    | none => exact Or.inr ⟨hmem.1, fun page hpage => by rw [hmem.2] at hpage; cases hpage⟩
    | some page =>
      obtain ⟨hle, hcount, ⟨r, hr, he⟩ | ⟨hnone, he, hpage⟩⟩ := hmem
      · exact Or.inl ⟨page, r, hle, hcount, hr, he⟩
      · refine Or.inr ⟨he, fun page' hpage' => ?_⟩
        obtain rfl : page = page' := Option.some.inj (hpage.symm.trans hpage')
        exact hnone
  · rintro (⟨page, r, hle, hcount, hr, he⟩ | ⟨he, hstays⟩)
    · exact ⟨some page, (mem_slots _).mpr ⟨hle, hcount, Or.inl ⟨r, hr, he⟩⟩⟩
    · cases hpage : e.page with
      | none => exact ⟨none, (mem_slots _).mpr ⟨he, hpage⟩⟩
      | some page =>
        have hle := (wellFormed_of_valid h.nativeValid).pages e he page hpage
        have hcount := h.pages e he page hpage
        exact ⟨some page, (mem_slots _).mpr ⟨hle, hcount, Or.inr ⟨hstays page hpage, he, hpage⟩⟩⟩

/-- Two replacements have no id in common. -/
theorem replacement_unique (h : Mergeable native replacements pageCount) {p q : Int}
    (hr : replacements.lookup p = some r) (hr' : replacements.lookup q = some r')
    (ha : a ∈ r.elements.map DocElement.id) (ha' : a ∈ r'.elements.map DocElement.id) :
    p = q ∧ r = r' := by
  have hdisjoint := (List.nodup_flatMap.mp h.distinct).2
  have hmem := PyDict.mem_of_lookup hr
  have hmem' := PyDict.mem_of_lookup hr'
  by_contra hne
  have hentries : (p, r) ≠ (q, r') := fun heq => hne (Prod.mk.inj heq)
  have hsymm : Std.Symm (Function.onFun List.Disjoint
      fun r : Int × DocElementTree => r.2.elements.map DocElement.id) :=
    ⟨fun _ _ hdisjoint _ ha ha' => hdisjoint ha' ha⟩
  exact hdisjoint.forall hmem hmem' hentries ha ha'

theorem mem_pageElements {page : Int} : e ∈ pageElements native replacements page ↔
    (∃ r, replacements.lookup page = some r ∧ e ∈ r.elements) ∨
      replacements.lookup page = none ∧ e ∈ native.elements ∧ e.page = some page := by
  unfold pageElements
  split
  · rename_i tree htree
    simp [htree]
  · rename_i hnone
    simp [hnone]

/-- Elements of two pages do not have one id. -/
theorem page_unique (h : Mergeable native replacements pageCount) {p q : Int}
    (he : e ∈ pageElements native replacements p) (he' : e' ∈ pageElements native replacements q)
    (hid : e.id = e'.id) : p = q := by
  have hstays : ∀ {page e}, replacements.lookup page = none → e ∈ native.elements →
      e.page = some page → Stays native replacements e := by
    intro page e hnone hmem hpage
    refine ⟨hmem, fun page' hpage' => ?_⟩
    obtain rfl : page = page' := Option.some.inj (hpage.symm.trans hpage')
    exact hnone
  rcases mem_pageElements.mp he with ⟨r, hr, her⟩ | ⟨hnone, hmem, hpage⟩ <;>
    rcases mem_pageElements.mp he' with ⟨r', hr', her'⟩ | ⟨hnone', hmem', hpage'⟩
  · exact (replacement_unique h hr hr' (List.mem_map_of_mem her) (hid ▸ List.mem_map_of_mem her')).1
  · exact absurd (hid ▸ List.mem_map_of_mem her)
      (h.surviving e' (hstays hnone' hmem' hpage') _ (PyDict.mem_of_lookup hr))
  · exact absurd (hid ▸ List.mem_map_of_mem her')
      (h.surviving e (hstays hnone hmem hpage) _ (PyDict.mem_of_lookup hr'))
  · obtain rfl := eq_of_id (wellFormed_of_valid h.nativeValid).distinct hmem hmem' hid
    exact Option.some.inj (hpage.symm.trans hpage')

/-- **No id twice.** -/
theorem nodup_output (h : Mergeable native replacements pageCount) :
    ((mergedOutput native replacements pageCount).map DocElement.id).Nodup := by
  have hnative := (wellFormed_of_valid h.nativeValid).distinct
  rw [mergedOutput, List.map_append, List.map_flatMap]
  refine List.nodup_append'.mpr ⟨List.nodup_flatMap.mpr ⟨fun page _ => ?_, ?_⟩, ?_, ?_⟩
  · unfold pageElements
    split
    · rename_i tree htree
      exact (wellFormed_of_valid (h.replacementsValid _ (PyDict.mem_of_lookup htree))).distinct
    · exact hnative.sublist (List.filter_sublist.map _)
  · refine pagesUpTo_increasing.imp fun {p q} hlt a ha ha' => ?_
    obtain ⟨e, he, rfl⟩ := List.mem_map.mp ha
    obtain ⟨e', he', hid⟩ := List.mem_map.mp ha'
    exact hlt.ne (page_unique h he he' hid.symm)
  · exact hnative.sublist (List.filter_sublist.map _)
  · intro a ha ha'
    obtain ⟨page, -, ha⟩ := List.mem_flatMap.mp ha
    obtain ⟨e, he, rfl⟩ := List.mem_map.mp ha
    obtain ⟨e', he', hid⟩ := List.mem_map.mp ha'
    obtain ⟨hmem', hpage'⟩ := List.mem_filter.mp he'
    replace hpage' := of_decide_eq_true hpage'
    rcases mem_pageElements.mp he with ⟨r, hr, her⟩ | ⟨hnone, hmem, hpage⟩
    · have hstays : Stays native replacements e' :=
        ⟨hmem', fun page hpage => by rw [hpage'] at hpage; cases hpage⟩
      exact h.surviving e' hstays _ (PyDict.mem_of_lookup hr) (hid ▸ List.mem_map_of_mem her)
    · obtain rfl := eq_of_id hnative hmem hmem' hid.symm
      rw [hpage] at hpage'
      cases hpage'

/-! ## Hanging up again -/

/-- The dictionary of parents of a tree whose ids are distinct. -/
theorem ancestorsOf_eq (h : (native.elements.map DocElement.id).Nodup) :
    ancestorsOf native = native.parents :=
  (@PyDict.foldl_set _ _ _ [] _ DocElement.id DocElement.parent native.elements h).trans
    (List.nil_append _)

/-- **The walk up from the parent of a native element** ends at the nearest ancestor that is kept. -/
theorem seek_native (h : native.validate = .ok ()) (he : e ∈ native.elements) (kept : List PyStr) :
    ∃ turns parent, (∀ more, turns ≤ more →
        Ancestors.seek (· ∈ kept) (ancestorsOf native) more e.parent = some parent) ∧
      NearestAncestor native.elements (· ∈ kept) e.id parent := by
  have hwell := wellFormed_of_valid h
  have hacyclic := (acyclic_iff hwell.distinct).mpr hwell.forest.acyclic
  have hclosed := closed_of_listed hwell.distinct hwell.forest.listed
  have hlookup := (parents_lookup hwell.distinct).mpr ⟨e, he, rfl, rfl⟩
  have hclimb := (Ancestors.walks_iff hclosed).mpr hacyclic e.id e.parent hlookup
  have hsame : Ancestors.Parent native.parents = IsParent native.elements := by
    funext a b
    exact propext (parent_iff hwell.distinct)
  -- a way up from the element starts at its parent
  have hway : ∀ {c}, Relation.TransGen (IsParent native.elements) e.id c ↔
      ∃ p, e.parent = some p ∧ Relation.ReflTransGen (IsParent native.elements) p c := by
    intro c
    rw [Relation.TransGen.head'_iff]
    refine exists_congr fun p => and_congr_left fun _ => ?_
    rw [← hsame, Ancestors.Parent, hlookup]
    exact ⟨fun heq => Option.some.inj heq, fun heq => congrArg some heq⟩
  obtain ⟨turns, parent, hturns, hnearest⟩ := @Ancestors.seek_spec _ _ _ native.parents [e.id] e.parent
    (· ∈ kept) _ (by rw [hclimb]; exact nofun)
  rw [ancestorsOf_eq hwell.distinct]
  refine ⟨turns, parent, hturns, ?_⟩
  cases parent with
  | none =>
    intro c hc
    obtain ⟨p, hp, hrest⟩ := hway.mp hc
    exact hnearest p hp c (hsame ▸ hrest)
  | some b =>
    obtain ⟨p, hp, hb, hkept, hfirst⟩ := hnearest
    rw [hsame] at hb hfirst
    refine ⟨hway.mpr ⟨p, hp, hb⟩, hkept, fun c hc hkeep => ?_⟩
    obtain ⟨p', hp', hrest⟩ := hway.mp hc
    obtain rfl : p = p' := Option.some.inj (hp.symm.trans hp')
    exact hfirst c hrest hkeep

/-- A loop with enough turns for every element. -/
theorem mapM_turns {α β : Type} {f : Nat → α → Option β} {R : α → β → Prop} {as : List α}
    (h : ∀ a ∈ as, ∃ turns b, (∀ more, turns ≤ more → f more a = some b) ∧ R a b) :
    ∃ turns bs, (∀ more, turns ≤ more → as.mapM (f more) = some bs) ∧ List.Forall₂ R as bs := by
  induction as with
  | nil => exact ⟨0, [], fun _ _ => rfl, .nil⟩
  | cons a as ih =>
    obtain ⟨turns, b, hturns, hR⟩ := h a List.mem_cons_self
    obtain ⟨turns', bs, hturns', hRs⟩ := ih fun a' ha' => h a' (List.mem_cons_of_mem _ ha')
    refine ⟨max turns turns', b :: bs, fun more hmore => ?_, .cons hR hRs⟩
    rw [List.mapM_cons, hturns more (le_trans (le_max_left _ _) hmore),
      hturns' more (le_trans (le_max_right _ _) hmore)]
    rfl

variable {slot : Option Int × DocElement}

/-- The slot of a page that was replaced is of its replacement. -/
theorem slot_replaced (hslot : slot ∈ slots native replacements pageCount)
    (hnative : ¬ IsNative replacements slot) : ∃ page r, 1 ≤ page ∧ page ≤ pageCount ∧
      replacements.lookup page = some r ∧ slot.2 ∈ r.elements := by
  obtain ⟨place, e⟩ := slot
  have hmem := (mem_slots (place, e)).mp hslot
  cases place with
  | none => exact absurd (fun page hpage => nomatch hpage) hnative
  | some page =>
    obtain ⟨hle, hcount, ⟨r, hr, he⟩ | ⟨hnone, -, -⟩⟩ := hmem
    · exact ⟨page, r, hle, hcount, hr, he⟩
    · refine absurd (fun page' hpage' => ?_) hnative
      obtain rfl := Option.some.inj hpage'
      exact hnone

/-- Any other slot is of a native element that stays. -/
theorem slot_stays (hslot : slot ∈ slots native replacements pageCount)
    (hnative : IsNative replacements slot) : Stays native replacements slot.2 := by
  obtain ⟨place, e⟩ := slot
  have hmem := (mem_slots (place, e)).mp hslot
  cases place with
  | none => exact ⟨hmem.1, fun page hpage => by rw [hmem.2] at hpage; cases hpage⟩
  | some page =>
    have hnone := hnative page rfl
    obtain ⟨-, -, ⟨r, hr, -⟩ | ⟨-, he, hpage⟩⟩ := hmem
    · rw [hnone] at hr
      cases hr
    · refine ⟨he, fun page' hpage' => ?_⟩
      obtain rfl : page = page' := Option.some.inj (hpage.symm.trans hpage')
      exact hnone

/-- The parents in a replacement are put into the output with it. -/
theorem parent_output (h : Mergeable native replacements pageCount) {page : Int} (hle : 1 ≤ page)
    (hcount : page ≤ pageCount) (hr : replacements.lookup page = some r)
    (hparent : IsParent r.elements a b) :
    b ∈ (mergedOutput native replacements pageCount).map DocElement.id := by
  have hvalid := h.replacementsValid _ (PyDict.mem_of_lookup hr)
  obtain ⟨e, he, rfl⟩ := List.mem_map.mp ((wellFormed_of_valid hvalid).forest.listed a b hparent)
  exact List.mem_map_of_mem ((output_cases h).mpr (Or.inl ⟨page, r, hle, hcount, hr, he⟩))

/-- **One turn of the second loop.** -/
theorem rehang_spec (h : Mergeable native replacements pageCount)
    (hslot : slot ∈ slots native replacements pageCount) (order : Nat) :
    ∃ turns e, (∀ more, turns ≤ more →
        rehang more ((mergedOutput native replacements pageCount).map DocElement.id)
          (ancestorsOf native) (slot.2, order) = some e) ∧
      Rehung native replacements
        (· ∈ (mergedOutput native replacements pageCount).map DocElement.id) slot e := by
  by_cases hnative : IsNative replacements slot
  · obtain ⟨turns, parent, hturns, hnearest⟩ :=
      seek_native h.nativeValid (slot_stays hslot hnative).1
        ((mergedOutput native replacements pageCount).map DocElement.id)
    refine ⟨turns, { slot.2 with order := order, parent := parent }, fun more hmore => ?_,
      rfl, fun _ => hnearest, fun hnot => absurd hnative hnot⟩
    rw [rehang, hturns more hmore]
    rfl
  · obtain ⟨page, r, hle, hcount, hr, he⟩ := slot_replaced hslot hnative
    refine ⟨1, { slot.2 with order := order }, fun more hmore => ?_, rfl,
      fun hnot => absurd hnot hnative, fun _ => rfl⟩
    obtain ⟨turns, rfl⟩ := Nat.exists_eq_add_of_le' hmore
    rw [rehang]
    cases hparent : slot.2.parent with
    | none => rw [Ancestors.seek, ← hparent]; rfl
    | some p =>
      rw [Ancestors.seek, if_pos (parent_output h hle hcount hr ⟨slot.2, he, rfl, hparent⟩), ← hparent]
      rfl

/-- **The second loop.** -/
theorem rehang_all (h : Mergeable native replacements pageCount) : ∃ turns result,
    (∀ more, turns ≤ more → (mergedOutput native replacements pageCount).zipIdx.mapM
      (rehang more ((mergedOutput native replacements pageCount).map DocElement.id)
        (ancestorsOf native)) = some result) ∧
      List.Forall₂ (Rehung native replacements
        (· ∈ (mergedOutput native replacements pageCount).map DocElement.id))
        (slots native replacements pageCount) result := by
  obtain ⟨turns, result, hturns, hresult⟩ := @mapM_turns _ _
    (fun more (entry : (Option Int × DocElement) × Nat) =>
      rehang more ((mergedOutput native replacements pageCount).map DocElement.id)
        (ancestorsOf native) (entry.1.2, entry.2))
    (fun entry e => Rehung native replacements
      (· ∈ (mergedOutput native replacements pageCount).map DocElement.id) entry.1 e)
    (slots native replacements pageCount).zipIdx fun entry hentry =>
      rehang_spec h (List.fst_mem_of_mem_zipIdx hentry) entry.2
  refine ⟨turns, result, fun more hmore => ?_, ?_⟩
  · rw [← hturns more hmore, ← slots_output, List.zipIdx_map, List.mapM_map]
    rfl
  · rw [← List.forall₂_map_left_iff] at hresult
    rwa [List.zipIdx_map_fst] at hresult

/-! ## The merged tree -/

section Rehung

variable {keep : PyStr → Prop} {result : List DocElement}

theorem Rehung.placed (h : Rehung native replacements keep slot e) (hplaced : e.Placed e') :
    Rehung native replacements keep slot e' := by
  have hparent : e'.parent = e.parent := by rw [hplaced]
  refine ⟨?_, fun hnative => hparent ▸ h.hung hnative, fun hnot => hparent.trans (h.unchanged hnot)⟩
  have hcontent := h.content
  rw [hplaced, hcontent]

theorem rehung_placed {entries : List (Option Int × DocElement)}
    (h : List.Forall₂ (Rehung native replacements keep) entries result) {placed : List DocElement}
    (hplaced : List.Forall₂ DocElement.Placed result placed) :
    List.Forall₂ (Rehung native replacements keep) entries placed := by
  induction h generalizing placed with
  | nil =>
    cases hplaced
    exact .nil
  | cons hfirst _ ih =>
    cases hplaced with
    | cons hplaced hrest => exact .cons (hfirst.placed hplaced) (ih hrest)

theorem rehung_ids {entries : List (Option Int × DocElement)}
    (h : List.Forall₂ (Rehung native replacements keep) entries result) :
    result.map DocElement.id = entries.map fun slot => slot.2.id := by
  induction h with
  | nil => rfl
  | cons hfirst _ ih =>
    rw [List.map_cons, List.map_cons, ih, hfirst.content]

theorem rehung_mem {entries : List (Option Int × DocElement)}
    (h : List.Forall₂ (Rehung native replacements keep) entries result) (he : e ∈ result) :
    ∃ slot ∈ entries, Rehung native replacements keep slot e := by
  induction h with
  | nil => exact absurd he List.not_mem_nil
  | cons hfirst _ ih =>
    rcases List.mem_cons.mp he with rfl | he
    · exact ⟨_, List.mem_cons_self, hfirst⟩
    · obtain ⟨slot, hslot, hrehung⟩ := ih he
      exact ⟨slot, List.mem_cons_of_mem _ hslot, hrehung⟩

end Rehung

/-- The tree that the element of a slot comes from. -/
theorem slot_source (h : Mergeable native replacements pageCount)
    (hslot : slot ∈ slots native replacements pageCount) :
    ∃ tree : DocElementTree, tree.validate = .ok () ∧ slot.2 ∈ tree.elements := by
  by_cases hnative : IsNative replacements slot
  · exact ⟨native, h.nativeValid, (slot_stays hslot hnative).1⟩
  · obtain ⟨page, r, -, -, hr, he⟩ := slot_replaced hslot hnative
    exact ⟨r, h.replacementsValid _ (PyDict.mem_of_lookup hr), he⟩

section Merge

variable {result : List DocElement}
  (hresult : List.Forall₂ (Rehung native replacements
    (· ∈ (mergedOutput native replacements pageCount).map DocElement.id))
    (slots native replacements pageCount) result)

include hresult

/-- A step up in the result is one in a replacement, or several in the native tree. -/
theorem edge_cases (hparent : IsParent result a b) :
    (∃ page r, 1 ≤ page ∧ page ≤ pageCount ∧ replacements.lookup page = some r ∧
        IsParent r.elements a b) ∨
      (∃ e, Stays native replacements e ∧ e.id = a) ∧
        Relation.TransGen (IsParent native.elements) a b ∧
        b ∈ (mergedOutput native replacements pageCount).map DocElement.id := by
  obtain ⟨e, he, rfl, hup⟩ := hparent
  obtain ⟨slot, hslot, hrehung⟩ := rehung_mem hresult he
  have hid : e.id = slot.2.id := by rw [hrehung.content]
  by_cases hnative : IsNative replacements slot
  · have hhung := hrehung.hung hnative
    rw [hup] at hhung
    obtain ⟨hway, hkept, -⟩ := hhung
    exact Or.inr ⟨⟨slot.2, slot_stays hslot hnative, hid.symm⟩, hid ▸ hway, hkept⟩
  · obtain ⟨page, r, hle, hcount, hr, hmem⟩ := slot_replaced hslot hnative
    exact Or.inl ⟨page, r, hle, hcount, hr, slot.2, hmem, hid.symm,
      (hrehung.unchanged hnative).symm.trans hup⟩

/-- **A way up in the result**: from an element of a replacement it stays in the replacement; from a
    native element it goes up in the native tree, until it comes into a replacement, if it does. -/
theorem way_cases (h : Mergeable native replacements pageCount)
    (hway : Relation.TransGen (IsParent result) a b) :
    (∀ page r, replacements.lookup page = some r → a ∈ r.elements.map DocElement.id →
        Relation.TransGen (IsParent r.elements) a b ∧ b ∈ r.elements.map DocElement.id) ∧
      ((∃ e, Stays native replacements e ∧ e.id = a) →
        (Relation.TransGen (IsParent native.elements) a b ∧
            ∃ e, Stays native replacements e ∧ e.id = b) ∨
          ∃ page r, replacements.lookup page = some r ∧ b ∈ r.elements.map DocElement.id) := by
  have hapart : ∀ {page r a}, replacements.lookup page = some r →
      a ∈ r.elements.map DocElement.id → ¬ ∃ e, Stays native replacements e ∧ e.id = a := by
    rintro page r a hr ha ⟨e, he, rfl⟩
    exact h.surviving e he _ (PyDict.mem_of_lookup hr) ha
  -- one step out of a replacement, and one out of a native element that stays
  have hreplaced : ∀ {page r a b}, replacements.lookup page = some r →
      a ∈ r.elements.map DocElement.id → IsParent result a b →
        IsParent r.elements a b ∧ b ∈ r.elements.map DocElement.id := by
    intro page r a b hr ha hparent
    rcases edge_cases hresult hparent with ⟨page', r', -, -, hr', hparent'⟩ | ⟨hstays, -, -⟩
    · obtain ⟨e, he, rfl, hup⟩ := hparent'
      obtain ⟨-, rfl⟩ := replacement_unique h hr hr' ha (List.mem_map_of_mem he)
      have hvalid := h.replacementsValid _ (PyDict.mem_of_lookup hr)
      exact ⟨⟨e, he, rfl, hup⟩, (wellFormed_of_valid hvalid).forest.listed _ _ ⟨e, he, rfl, hup⟩⟩
    · exact absurd hstays (hapart hr ha)
  have hnative : ∀ {a b}, (∃ e, Stays native replacements e ∧ e.id = a) → IsParent result a b →
      (Relation.TransGen (IsParent native.elements) a b ∧
          ∃ e, Stays native replacements e ∧ e.id = b) ∨
        ∃ page r, replacements.lookup page = some r ∧ b ∈ r.elements.map DocElement.id := by
    intro a b hstays hparent
    rcases edge_cases hresult hparent with ⟨page, r, -, -, hr, e, he, rfl, -⟩ | ⟨-, hup, hkept⟩
    · exact absurd hstays (hapart hr (List.mem_map_of_mem he))
    · obtain ⟨e, he, rfl⟩ := List.mem_map.mp hkept
      rcases (output_cases h).mp he with ⟨page, r, -, -, hr, her⟩ | hstays
      · exact Or.inr ⟨page, r, hr, List.mem_map_of_mem her⟩
      · exact Or.inl ⟨hup, e, hstays, rfl⟩
  induction hway with
  | single hparent =>
    refine ⟨fun page r hr ha => ?_, fun hstays => hnative hstays hparent⟩
    obtain ⟨hup, hb⟩ := hreplaced hr ha hparent
    exact ⟨.single hup, hb⟩
  | tail _ hparent ih =>
    refine ⟨fun page r hr ha => ?_, fun hstays => ?_⟩
    · obtain ⟨hup, hmid⟩ := ih.1 page r hr ha
      obtain ⟨hlast, hc⟩ := hreplaced hr hmid hparent
      exact ⟨hup.tail hlast, hc⟩
    · rcases ih.2 hstays with ⟨hup, hmid⟩ | ⟨page, r, hr, hmid⟩
      · rcases hnative hmid hparent with ⟨hlast, hc⟩ | hc
        · exact Or.inl ⟨hup.trans hlast, hc⟩
        · exact Or.inr hc
      · exact Or.inr ⟨page, r, hr, (hreplaced hr hmid hparent).2⟩

/-- **The result is well-formed.** -/
theorem rehung_wellFormed (h : Mergeable native replacements pageCount) : WellFormed result := by
  have hids : result.map DocElement.id =
      (mergedOutput native replacements pageCount).map DocElement.id := by
    rw [rehung_ids hresult, ← slots_output, List.map_map]
    rfl
  refine ⟨hids ▸ nodup_output h, fun e he => ?_, fun e he => ?_, fun a b hparent => ?_, ?_⟩
  · obtain ⟨slot, hslot, hrehung⟩ := rehung_mem hresult he
    obtain ⟨tree, hvalid, hmem⟩ := slot_source h hslot
    rw [hrehung.content]
    exact (wellFormed_of_valid hvalid).kinds slot.2 hmem
  · obtain ⟨slot, hslot, hrehung⟩ := rehung_mem hresult he
    obtain ⟨tree, hvalid, hmem⟩ := slot_source h hslot
    rw [hrehung.content]
    exact (wellFormed_of_valid hvalid).pages slot.2 hmem
  · rw [hids]
    rcases edge_cases hresult hparent with ⟨page, r, hle, hcount, hr, hup⟩ | ⟨-, -, hkept⟩
    · exact parent_output h hle hcount hr hup
    · exact hkept
  · intro a hcycle
    obtain ⟨hreplaced, hnative⟩ := way_cases hresult h hcycle
    obtain ⟨b, hparent, -⟩ := Relation.TransGen.head'_iff.mp hcycle
    rcases edge_cases hresult hparent with ⟨page, r, -, -, hr, e, he, rfl, -⟩ | ⟨hstays, -, -⟩
    · have hvalid := h.replacementsValid _ (PyDict.mem_of_lookup hr)
      exact (wellFormed_of_valid hvalid).forest.acyclic _
        (hreplaced page r hr (List.mem_map_of_mem he)).1
    · rcases hnative hstays with ⟨hup, -⟩ | ⟨page, r, hr, hmem⟩
      · exact (wellFormed_of_valid h.nativeValid).forest.acyclic a hup
      · obtain ⟨e, he, rfl⟩ := hstays
        exact h.surviving e he _ (PyDict.mem_of_lookup hr) hmem

theorem rehung_scalar (h : Mergeable native replacements pageCount) :
    ∀ e ∈ result, Scalar e.text := by
  intro e he
  obtain ⟨slot, hslot, hrehung⟩ := rehung_mem hresult he
  obtain ⟨tree, hvalid, hmem⟩ := slot_source h hslot
  rw [hrehung.content]
  exact scalar_of_valid hvalid slot.2 hmem

end Merge

/-- Only what is above an element counts for its nearest ancestor. -/
theorem NearestAncestor.congr {keep keep' : PyStr → Prop} {elements : List DocElement}
    (hsame : ∀ c, Relation.TransGen (IsParent elements) a c → (keep c ↔ keep' c))
    {found : Option PyStr} (h : NearestAncestor elements keep a found) :
    NearestAncestor elements keep' a found := by
  cases found with
  | none => exact fun c hc hkeep => h c hc ((hsame c hc).mpr hkeep)
  | some b =>
    obtain ⟨hway, hkeep, hfirst⟩ := h
    exact ⟨hway, (hsame b hway).mp hkeep, fun c hc hkept => hfirst c hc ((hsame c hc).mpr hkept)⟩

/-- Where no removed id is used again, what is kept above a native element is what stays there. -/
theorem kept_iff_stays (h : Mergeable native replacements pageCount)
    (hremoved : ∀ e ∈ native.elements, ¬ Stays native replacements e →
      ∀ r ∈ replacements, e.id ∉ r.2.elements.map DocElement.id) {c : PyStr}
    (hc : c ∈ native.elements.map DocElement.id) :
    c ∈ (mergedOutput native replacements pageCount).map DocElement.id ↔
      ∃ e, Stays native replacements e ∧ e.id = c := by
  obtain ⟨e, he, rfl⟩ := List.mem_map.mp hc
  constructor
  · intro hkept
    by_cases hstays : Stays native replacements e
    · exact ⟨e, hstays, rfl⟩
    · obtain ⟨e', he', hid⟩ := List.mem_map.mp hkept
      rcases (output_cases h).mp he' with ⟨page, r, -, -, hr, her⟩ | hstays'
      · exact absurd (hid ▸ List.mem_map_of_mem her)
          (hremoved e he hstays _ (PyDict.mem_of_lookup hr))
      · exact ⟨e', hstays', hid⟩
  · rintro ⟨e', hstays, hid⟩
    exact hid ▸ List.mem_map_of_mem ((output_cases h).mpr (Or.inr hstays))

/-- **PAGE MERGING.**  Trees that can be merged are: enough turns give the tree, whatever the turns, and
    it is the merged one, with every native element below the nearest of its ancestors whose id is in the
    output.  These are the ancestors that stay, if no replacement has an id of an element that was
    removed. -/
theorem pages_merged (h : Mergeable native replacements pageCount) (sourceId : PyStr) :
    ∃ turns tree, (∀ more, turns ≤ more →
        mergePages native replacements pageCount more sourceId = some (.ok tree)) ∧
      Merged native replacements pageCount
        (· ∈ (mergedOutput native replacements pageCount).map DocElement.id) tree ∧
      ((∀ e ∈ native.elements, ¬ Stays native replacements e →
          ∀ r ∈ replacements, e.id ∉ r.2.elements.map DocElement.id) →
        Merged native replacements pageCount
          (fun c => ∃ e, Stays native replacements e ∧ e.id = c) tree) := by
  obtain ⟨turns, result, hturns, hresult⟩ := rehang_all h
  obtain ⟨tree, hbuild⟩ := @buildTree_of_wellFormed _ sourceId (rehung_scalar hresult h)
    (rehung_wellFormed hresult h)
  obtain ⟨-, hlossless, hvalid⟩ := buildTree_ok hbuild
  have honce : ((slots native replacements pageCount).map fun slot => slot.2.id).Nodup := by
    have hnodup := nodup_output h
    rw [← slots_output, List.map_map] at hnodup
    exact hnodup
  have hrehung := rehung_placed hresult hlossless.placed
  refine ⟨turns, tree, fun more hmore => ?_, ⟨mem_slots, honce, slots_ascending, hrehung,
    hlossless.laid, hvalid⟩, fun hremoved => ⟨mem_slots, honce, slots_ascending, ?_,
    hlossless.laid, hvalid⟩⟩
  · rw [mergePages, hturns more hmore, Option.map_some, hbuild]
  · refine hrehung.imp fun slot e hslot => ⟨hslot.content, fun hnative => ?_, hslot.unchanged⟩
    refine (hslot.hung hnative).congr fun c hc => kept_iff_stays h hremoved ?_
    obtain ⟨b, -, hparent⟩ := Relation.TransGen.tail'_iff.mp hc
    exact (wellFormed_of_valid h.nativeValid).forest.listed b c hparent

/-- A heading on the first page, and below it a paragraph on the second. -/
def twoPages : DocElementTree :=
  { sourceId := lit "s"
    text := lit "A\nB"
    elements := [{ id := lit "h", kind := lit "SectionHeader", text := lit "A", byteStart := 0,
                   byteEnd := 1, page := some 1 },
                 { id := lit "p", kind := lit "Paragraph", text := lit "B", byteStart := 2, byteEnd := 3,
                   page := some 2, parent := some (lit "h"), order := 1 }] }

/-- The first page, parsed again. -/
def parsedAgain (id : PyStr) : DocElementTree :=
  { sourceId := lit "s"
    text := lit "C"
    elements := [{ id := id, kind := lit "Paragraph", text := lit "C", byteStart := 0, byteEnd := 1,
                   page := some 1 }] }

theorem stays_twoPages {id : PyStr} {e : DocElement}
    (h : Stays twoPages [(1, parsedAgain id)] e) : e.id = lit "p" := by
  obtain ⟨he, hstays⟩ := h
  simp only [twoPages, List.mem_cons, List.not_mem_nil, or_false] at he
  rcases he with rfl | rfl
  · cases hstays 1 rfl
  · rfl

theorem mergeable_twoPages (id : PyStr) (hid : id ≠ lit "p")
    (hvalid : (parsedAgain id).validate = .ok ()) :
    Mergeable twoPages [(1, parsedAgain id)] 2 where
  nativeValid := by decide +kernel
  pages := by decide
  replacementsValid := List.forall_mem_singleton.mpr hvalid
  distinct := List.nodup_singleton id
  surviving e he := by
    rw [List.forall_mem_singleton, stays_twoPages he]
    exact fun hmem => hid (List.mem_singleton.mp hmem).symm

/-- The paragraph goes up past its heading, which went with the page. -/
theorem pages_merged_twoPages : ∃ turns tree, (∀ more, turns ≤ more →
      mergePages twoPages [(1, parsedAgain (lit "q"))] 2 more (lit "s") = some (.ok tree)) ∧
    Merged twoPages [(1, parsedAgain (lit "q"))] 2
      (· ∈ (mergedOutput twoPages [(1, parsedAgain (lit "q"))] 2).map DocElement.id) tree ∧
    ((∀ e ∈ twoPages.elements, ¬ Stays twoPages [(1, parsedAgain (lit "q"))] e →
        ∀ r ∈ [((1 : Int), parsedAgain (lit "q"))], e.id ∉ r.2.elements.map DocElement.id) →
      Merged twoPages [(1, parsedAgain (lit "q"))] 2
        (fun c => ∃ e, Stays twoPages [(1, parsedAgain (lit "q"))] e ∧ e.id = c) tree) :=
  pages_merged (mergeable_twoPages (lit "q") (by decide) (by decide +kernel)) (lit "s")

/-- The paragraph, below what replaced its page's heading. -/
def adopted : DocElementTree :=
  { sourceId := lit "s"
    text := lit "C\nB"
    elements := [{ id := lit "h", kind := lit "Paragraph", text := lit "C", byteStart := 0, byteEnd := 1,
                   page := some 1 },
                 { id := lit "p", kind := lit "Paragraph", text := lit "B", byteStart := 2, byteEnd := 3,
                   page := some 2, parent := some (lit "h"), order := 1 }] }

/-- A replacement with the id of the heading takes in the paragraph, though the heading was removed. -/
theorem replacement_adopts : Mergeable twoPages [(1, parsedAgain (lit "h"))] 2 ∧
    (∀ e, Stays twoPages [(1, parsedAgain (lit "h"))] e → e.id = lit "p") ∧
    ∀ more, mergePages twoPages [(1, parsedAgain (lit "h"))] 2 (more + 1) (lit "s") =
      some (.ok adopted) := by
  refine ⟨mergeable_twoPages (lit "h") (by decide) (by decide +kernel), fun _ => stays_twoPages,
    fun more => ?_⟩
  have hturns : ∀ more, mergePages twoPages [(1, parsedAgain (lit "h"))] 2 (more + 1) (lit "s") =
      some (buildTree (lit "s") adopted.elements) := fun _ => by
    rfl
  have hvalid : adopted.validate = .ok () := by decide +kernel
  have hbuild : buildTree (lit "s") adopted.elements = .ok adopted :=
    Fallible.bind_ok.mpr ⟨⟨adopted.elements, [lit "C", lit "\n", lit "B"], 3⟩, rfl,
      Fallible.bind_ok.mpr ⟨(), hvalid, rfl⟩⟩
  rw [hturns, hbuild]

end ControlPlane.Documents
