/-
  ELEMENT TREES ARE LOSSLESS.

  1. `build_tree` lays elements out one after the other (`foldlM_laid`): the invariant of its loop is
     that the buffer so far is LAID OUT, which appending one element preserves.
  2. On a tree that is laid out, `validate` checks nothing of the ranges, and accepts exactly distinct
     ids, known kinds, one-based pages and a forest (`validate_ok_iff`).
  3. A tree that was built is read back from its dictionary, and what is read from any dictionary has
     its ranges and its hierarchy checked (`trees_lossless`).
-/
import ControlPlane.Documents.Elements
import ControlPlane.Table
import Mathlib.Data.List.Chain
import Mathlib.Data.List.Forall2

namespace ControlPlane.Documents

open PyStr

/-! ## Layout -/

/-- The element, with its place in the document. -/
def DocElement.Placed (e e' : DocElement) : Prop :=
  e' = { e with order := e'.order, byteStart := e'.byteStart, byteEnd := e'.byteEnd }

/-- The range of the element slices to its text. -/
structure DocElement.Sliced (raw : List UInt8) (e : DocElement) : Prop where
  nonneg : 0 ≤ e.byteStart
  le : e.byteStart ≤ e.byteEnd
  bounded : e.byteEnd ≤ raw.length
  scalar : Scalar e.text
  slice : slice raw e.byteStart.toNat e.byteEnd.toNat = encoded e.text

/-- One newline byte separates the elements. -/
def Separated (raw : List UInt8) (e e' : DocElement) : Prop :=
  e'.byteStart = e.byteEnd + 1 ∧ slice raw e.byteEnd.toNat e'.byteStart.toNat = [0x0A]

/-- Elements in order, each on its range, with one newline between neighbours. -/
structure Laid (raw : List UInt8) (elements : List DocElement) : Prop where
  ordered : elements.map DocElement.order = (List.range elements.length).map Int.ofNat
  sliced : ∀ e ∈ elements, e.Sliced raw
  separated : elements.IsChain (Separated raw)

section Slices

variable {α : Type} {raw more : List α} {i j : Nat}

theorem slice_append_left (h : j ≤ raw.length) : slice (raw ++ more) i j = slice raw i j := by
  rw [slice, slice, List.take_append_of_le_length h]

/-- What was appended is the slice between the lengths. -/
theorem slice_appended : slice (raw ++ more) raw.length (raw.length + more.length) = more := by
  rw [slice, ← List.length_append, List.take_length, List.drop_left]

end Slices

variable {raw more : List UInt8} {e e' : DocElement} {elements : List DocElement}

theorem DocElement.Sliced.append (h : e.Sliced raw) : e.Sliced (raw ++ more) where
  nonneg := h.nonneg
  le := h.le
  bounded := by
    have hbounded := h.bounded
    rw [List.length_append]
    omega
  scalar := h.scalar
  slice := by
    have hbounded := h.bounded
    have hle := h.le
    rw [slice_append_left (by omega), h.slice]

theorem Separated.append (h : Separated raw e e') (hbounded : e'.byteStart ≤ raw.length) :
    Separated (raw ++ more) e e' := by
  refine ⟨h.1, ?_⟩
  rw [slice_append_left (by omega), h.2]

theorem Separated.le (h : Separated raw e e') : e.byteEnd < e'.byteStart := by
  rw [h.1]
  omega

theorem Laid.append (h : Laid raw elements) : Laid (raw ++ more) elements where
  ordered := h.ordered
  sliced e he := (h.sliced e he).append
  separated := by
    refine h.separated.imp_of_mem_imp fun _ e' _ he' hsep => hsep.append ?_
    have hle := (h.sliced e' he').le
    have hbounded := (h.sliced e' he').bounded
    omega

/-- One more element behind the text, a newline away from the last one. -/
theorem Laid.snoc (h : Laid raw elements) (hlast : e.Sliced raw)
    (horder : e.order = elements.length)
    (hsep : ∀ last ∈ elements.getLast?, Separated raw last e) : Laid raw (elements ++ [e]) where
  ordered := by
    rw [List.map_append, h.ordered, List.length_append, List.length_singleton, List.range_succ,
      List.map_append]
    simp [horder]
  sliced e' he' := by
    rcases List.mem_append.mp he' with he' | he'
    · exact h.sliced e' he'
    · rw [List.mem_singleton.mp he']
      exact hlast
  separated := by
    refine List.isChain_append.mpr ⟨h.separated, List.isChain_singleton e, ?_⟩
    intro last hmem e' he'
    obtain rfl : e = e' := by simpa using he'
    exact hsep last hmem

/-! ## The loop of `build_tree` -/

/-- The buffer after these elements. -/
structure Buffer.Holds (processed : List DocElement) (b : Buffer) : Prop where
  placed : List.Forall₂ DocElement.Placed processed b.result
  scalar : Scalar b.chunks.flatten
  position : b.position = (encoded b.chunks.flatten).length
  laid : Laid (encoded b.chunks.flatten) b.result
  started : b.chunks = [] ↔ b.result = []
  last : ∀ e ∈ b.result.getLast?, e.byteEnd = b.position

theorem encodeText_ok {text : PyStr} {raw : List UInt8} :
    encodeText text = .ok raw ↔ Scalar text ∧ raw = encoded text := by
  unfold encodeText
  cases hencode : text.encode with
  | none =>
    obtain ⟨c, hc, hsur⟩ := encode_eq_none.mp hencode
    refine iff_of_false (by simp) fun h => ?_
    exact Bool.false_ne_true ((h.1 c hc).symm.trans hsur)
  | some raw' =>
    obtain ⟨hscalar, rfl⟩ := encode_eq_some.mp hencode
    simp [hscalar, eq_comm]

theorem newline_encoded : encoded (lit "\n") = [0x0A] := by decide

/-- Behind the separator, the next element starts a newline after the last one. -/
structure Buffer.Open (processed : List DocElement) (b : Buffer) : Prop where
  placed : List.Forall₂ DocElement.Placed processed b.result
  scalar : Scalar b.chunks.flatten
  position : b.position = (encoded b.chunks.flatten).length
  laid : Laid (encoded b.chunks.flatten) b.result
  gap : ∀ e ∈ b.result.getLast?, (b.position : Int) = e.byteEnd + 1 ∧
    slice (encoded b.chunks.flatten) e.byteEnd.toNat b.position = [0x0A]

variable {processed : List DocElement} {b b' : Buffer}

theorem Buffer.Holds.separate (h : b.Holds processed) : b.separate.Open processed := by
  unfold Buffer.separate
  split
  · rename_i hempty
    have hresult := h.started.mp hempty
    exact ⟨h.placed, h.scalar, h.position, h.laid, fun e he => by simp [hresult] at he⟩
  · rename_i hstarted
    have hflat : (b.chunks ++ [lit "\n"]).flatten = b.chunks.flatten ++ lit "\n" := by simp
    have hraw : encoded (b.chunks ++ [lit "\n"]).flatten = encoded b.chunks.flatten ++ [0x0A] := by
      rw [hflat, encoded_append, newline_encoded]
    refine ⟨h.placed, ?_, ?_, ?_, fun e he => ?_⟩
    · rw [hflat, scalar_append]
      exact ⟨h.scalar, by decide⟩
    · rw [hraw, List.length_append, List.length_singleton, h.position]
    · rw [hraw]
      exact h.laid.append
    · have hend := h.last e he
      refine ⟨by rw [hend, Int.natCast_add, Int.natCast_one], ?_⟩
      have hnat : e.byteEnd.toNat = (encoded b.chunks.flatten).length := by
        rw [hend, Int.toNat_natCast, h.position]
      rw [hraw, hnat, h.position]
      exact slice_appended

/-- **One turn keeps the layout.** -/
theorem Buffer.Holds.add (h : b.Holds processed) (hadd : b.add e = .ok b') :
    b'.Holds (processed ++ [e]) := by
  obtain ⟨raw, hencode, hok⟩ := Fallible.bind_ok.mp hadd
  obtain ⟨hscalar, rfl⟩ := encodeText_ok.mp hencode
  cases hok
  have hopen := h.separate
  have hflat : (b.separate.chunks ++ [e.text]).flatten = b.separate.chunks.flatten ++ e.text := by
    simp
  have hraw : encoded (b.separate.chunks ++ [e.text]).flatten =
      encoded b.separate.chunks.flatten ++ encoded e.text := by
    rw [hflat, encoded_append]
  have hposition := hopen.position
  refine ⟨?_, ?_, ?_, ?_, by simp, ?_⟩
  · exact List.rel_append hopen.placed (List.Forall₂.cons rfl List.Forall₂.nil)
  · rw [hflat, scalar_append]
    exact ⟨hopen.scalar, hscalar⟩
  · rw [hraw, List.length_append, hposition]
  · rw [hraw]
    refine hopen.laid.append.snoc ⟨?_, ?_, ?_, hscalar, ?_⟩ rfl fun last hlast => ?_
    · exact Int.natCast_nonneg _
    · exact Int.le_add_of_nonneg_right (Int.natCast_nonneg _)
    · rw [List.length_append, ← hposition]
      exact Int.le_refl _
    · simp only [Buffer.place]
      have hend : ((b.separate.position : Int) + ((encoded e.text).length : Int)).toNat =
          (encoded b.separate.chunks.flatten).length + (encoded e.text).length := by omega
      rw [hend, Int.toNat_natCast, hposition]
      exact slice_appended
    · obtain ⟨hstart, hgap⟩ := hopen.gap last hlast
      refine ⟨hstart, ?_⟩
      have hnat : ((b.separate.place e (encoded e.text)).byteStart).toNat = b.separate.position :=
        Int.toNat_natCast _
      rw [hnat, slice_append_left hposition.le, hgap]
  · intro e' he'
    obtain rfl : b.separate.place e (encoded e.text) = e' := by simpa using he'
    rfl

/-- The whole loop, by induction on the elements. -/
theorem foldlM_holds {rest : List DocElement} (h : b.Holds processed)
    (hfold : rest.foldlM Buffer.add b = .ok b') : b'.Holds (processed ++ rest) := by
  induction rest generalizing b processed with
  | nil =>
    cases hfold
    rwa [List.append_nil]
  | cons e rest ih =>
    rw [List.foldlM_cons] at hfold
    obtain ⟨b₁, hadd, hrest⟩ := Fallible.bind_ok.mp hfold
    have hwhole := ih (h.add hadd) hrest
    rwa [List.append_assoc] at hwhole

/-- The loop stops at no text that UTF-8 can carry. -/
theorem foldlM_isOk {rest : List DocElement} (h : ∀ e ∈ rest, Scalar e.text) :
    ∃ b', rest.foldlM Buffer.add b = .ok b' := by
  induction rest generalizing b with
  | nil => exact ⟨b, rfl⟩
  | cons e rest ih =>
    rw [List.forall_mem_cons] at h
    rw [List.foldlM_cons, Buffer.add, encodeText_ok.mpr ⟨h.1, rfl⟩]
    exact ih h.2

theorem empty_holds : Buffer.Holds [] ⟨[], [], 0⟩ where
  placed := List.Forall₂.nil
  scalar := fun c hc => absurd hc List.not_mem_nil
  position := rfl
  laid := ⟨rfl, fun e he => absurd he List.not_mem_nil, List.isChain_nil⟩
  started := by simp
  last := by simp

/-! ## Validation -/

/-- `a` is listed with the parent `b`. -/
def IsParent (elements : List DocElement) (a b : PyStr) : Prop :=
  ∃ e ∈ elements, e.id = a ∧ e.parent = some b

/-- The parent relation is a forest over the listed ids. -/
structure Forest (elements : List DocElement) : Prop where
  listed : ∀ a b, IsParent elements a b → b ∈ elements.map DocElement.id
  acyclic : ∀ a, ¬ Relation.TransGen (IsParent elements) a a

/-- What makes elements a tree's. -/
structure WellFormed (elements : List DocElement) : Prop where
  distinct : (elements.map DocElement.id).Nodup
  kinds : ∀ e ∈ elements, e.kind ∈ kinds
  pages : ∀ e ∈ elements, ∀ page ∈ e.page, 1 ≤ page
  forest : Forest elements

variable {tree : DocElementTree}

theorem parents_lookup (h : (tree.elements.map DocElement.id).Nodup) {a : PyStr}
    {next : Option PyStr} :
    tree.parents.lookup a = some next ↔ ∃ e ∈ tree.elements, e.id = a ∧ e.parent = next := by
  constructor
  · intro hlookup
    obtain ⟨e, he, heq⟩ := List.mem_map.mp (Table.mem_of_lookup hlookup)
    exact ⟨e, he, (Prod.mk.inj heq).1, (Prod.mk.inj heq).2⟩
  · rintro ⟨e, he, rfl, rfl⟩
    refine Table.lookup_of_mem ?_ (List.mem_map_of_mem he)
    rwa [DocElementTree.parents, List.map_map]

theorem parent_iff (h : (tree.elements.map DocElement.id).Nodup) {a b : PyStr} :
    Ancestors.Parent tree.parents a b ↔ IsParent tree.elements a b := parents_lookup h

theorem closed_of_listed (h : (tree.elements.map DocElement.id).Nodup)
    (hlisted : ∀ a b, IsParent tree.elements a b → b ∈ tree.elements.map DocElement.id) :
    Ancestors.Closed tree.parents := by
  intro a b hparent
  obtain ⟨e, he, rfl⟩ := List.mem_map.mp (hlisted a b ((parent_iff h).mp hparent))
  rw [(parents_lookup h).mpr ⟨e, he, rfl, rfl⟩]
  rfl

theorem acyclic_iff (h : (tree.elements.map DocElement.id).Nodup) :
    Ancestors.Acyclic tree.parents ↔ ∀ a, ¬ Relation.TransGen (IsParent tree.elements) a a := by
  have hsame : Ancestors.Parent tree.parents = IsParent tree.elements := by
    funext a b
    exact propext (parent_iff h)
  rw [Ancestors.Acyclic, hsame]

theorem checkAncestors_ok_iff {parents : List (PyStr × Option PyStr)} :
    checkAncestors parents e = .ok () ↔ Ancestors.climb parents [e.id] e.parent = .root := by
  unfold checkAncestors
  split <;> simp_all

theorem checkElement_ok_iff : tree.checkElement raw e = .ok () ↔
    e.kind ∈ kinds ∧ e.Sliced raw ∧ (∀ page ∈ e.page, 1 ≤ page) ∧
      (∀ parent ∈ e.parent, parent ∈ tree.elements.map DocElement.id) ∧
      Ancestors.climb tree.parents [e.id] e.parent = .root := by
  constructor
  · intro h
    obtain ⟨-, h⟩ | ⟨hkind, h⟩ := Fallible.ite_ok h
    · cases h
    obtain ⟨-, h⟩ | ⟨hrange, h⟩ := Fallible.ite_ok h
    · cases h
    obtain ⟨text, hencode, h⟩ := Fallible.bind_ok.mp h
    obtain ⟨hscalar, rfl⟩ := encodeText_ok.mp hencode
    obtain ⟨-, h⟩ | ⟨hslice, h⟩ := Fallible.ite_ok h
    · cases h
    obtain ⟨-, h⟩ | ⟨hpage, h⟩ := Fallible.ite_ok h
    · cases h
    obtain ⟨-, h⟩ | ⟨hparent, h⟩ := Fallible.ite_ok h
    · cases h
    obtain ⟨hnonneg, hle, hbounded⟩ := Decidable.not_not.mp hrange
    refine ⟨Decidable.not_not.mp hkind, ⟨hnonneg, hle, hbounded, hscalar, ?_⟩, ?_, ?_,
      checkAncestors_ok_iff.mp h⟩
    · exact Decidable.not_not.mp hslice
    · exact fun page hmem => Int.not_lt.mp fun hlt => hpage ⟨page, hmem, hlt⟩
    · exact fun parent hmem => Decidable.not_not.mp fun hnot => hparent ⟨parent, hmem, hnot⟩
  · rintro ⟨hkind, hsliced, hpage, hparent, hclimb⟩
    have hpages : ¬ ∃ page ∈ e.page, page < 1 :=
      fun ⟨page, hmem, hlt⟩ => Int.not_lt.mpr (hpage page hmem) hlt
    have hparents : ¬ ∃ parent ∈ e.parent, parent ∉ tree.elements.map DocElement.id :=
      fun ⟨parent, hmem, hnot⟩ => hnot (hparent parent hmem)
    rw [DocElementTree.checkElement, if_neg (not_not.mpr hkind),
      if_neg (not_not.mpr ⟨hsliced.nonneg, hsliced.le, hsliced.bounded⟩),
      encodeText_ok.mpr ⟨hsliced.scalar, rfl⟩]
    refine (if_neg (not_not.mpr hsliced.slice)).trans ?_
    rw [if_neg hpages, if_neg hparents, checkAncestors_ok_iff]
    exact hclimb

/-- **What `validate` accepts.** -/
theorem validate_ok_iff : tree.validate = .ok () ↔
    Scalar tree.text ∧ (∀ e ∈ tree.elements, e.Sliced (encoded tree.text)) ∧
      WellFormed tree.elements := by
  constructor
  · intro h
    obtain ⟨raw, hencode, h⟩ := Fallible.bind_ok.mp h
    obtain ⟨hscalar, rfl⟩ := encodeText_ok.mp hencode
    obtain ⟨-, h⟩ | ⟨hdistinct, h⟩ := Fallible.ite_ok h
    · cases h
    replace hdistinct := Decidable.not_not.mp hdistinct
    have hchecked := fun e he => checkElement_ok_iff.mp (Fallible.forM_ok.mp h e he)
    have hlisted : ∀ a b, IsParent tree.elements a b → b ∈ tree.elements.map DocElement.id := by
      rintro a b ⟨e, he, -, hparent⟩
      exact (hchecked e he).2.2.2.1 b hparent
    refine ⟨hscalar, fun e he => (hchecked e he).2.1, hdistinct, fun e he => (hchecked e he).1,
      fun e he => (hchecked e he).2.2.1, hlisted, ?_⟩
    rw [← acyclic_iff hdistinct, ← Ancestors.walks_iff (closed_of_listed hdistinct hlisted)]
    intro a next hlookup
    obtain ⟨e, he, rfl, rfl⟩ := (parents_lookup hdistinct).mp hlookup
    exact (hchecked e he).2.2.2.2
  · rintro ⟨hscalar, hsliced, hwell⟩
    have hwalks := (Ancestors.walks_iff (closed_of_listed hwell.distinct hwell.forest.listed)).mpr
      ((acyclic_iff hwell.distinct).mpr hwell.forest.acyclic)
    refine Fallible.bind_ok.mpr ⟨_, encodeText_ok.mpr ⟨hscalar, rfl⟩, ?_⟩
    rw [if_neg (not_not.mpr hwell.distinct), Fallible.forM_ok]
    intro e he
    refine checkElement_ok_iff.mpr ⟨hwell.kinds e he, hsliced e he, hwell.pages e he, ?_, ?_⟩
    · exact fun parent hparent => hwell.forest.listed e.id parent ⟨e, he, rfl, hparent⟩
    · exact hwalks e.id e.parent ((parents_lookup hwell.distinct).mpr ⟨e, he, rfl, rfl⟩)

/-! ## Placing changes nothing that is validated -/

theorem placed_mem {placed : List DocElement} (h : List.Forall₂ DocElement.Placed elements placed) :
    (∀ e ∈ elements, ∃ e' ∈ placed, e.Placed e') ∧ (∀ e' ∈ placed, ∃ e ∈ elements, e.Placed e') := by
  induction h with
  | nil => exact ⟨fun e he => absurd he List.not_mem_nil, fun e he => absurd he List.not_mem_nil⟩
  | @cons e e' elements placed he _ ih =>
    refine ⟨fun d hd => ?_, fun d' hd' => ?_⟩
    · rcases List.mem_cons.mp hd with rfl | hd
      · exact ⟨e', List.mem_cons_self, he⟩
      · obtain ⟨d', hd', hplaced⟩ := ih.1 d hd
        exact ⟨d', List.mem_cons_of_mem _ hd', hplaced⟩
    · rcases List.mem_cons.mp hd' with rfl | hd'
      · exact ⟨e, List.mem_cons_self, he⟩
      · obtain ⟨d, hd, hplaced⟩ := ih.2 d' hd'
        exact ⟨d, List.mem_cons_of_mem _ hd, hplaced⟩

theorem placed_ids {placed : List DocElement} (h : List.Forall₂ DocElement.Placed elements placed) :
    placed.map DocElement.id = elements.map DocElement.id := by
  induction h with
  | nil => rfl
  | cons he _ ih => rw [List.map_cons, List.map_cons, ih, he]

theorem placed_isParent {placed : List DocElement}
    (h : List.Forall₂ DocElement.Placed elements placed) : IsParent placed = IsParent elements := by
  funext a b
  refine propext ⟨fun ⟨e', he', hid, hparent⟩ => ?_, fun ⟨e, he, hid, hparent⟩ => ?_⟩
  · obtain ⟨e, he, hplaced⟩ := (placed_mem h).2 e' he'
    rw [hplaced] at hid hparent
    exact ⟨e, he, hid, hparent⟩
  · obtain ⟨e', he', hplaced⟩ := (placed_mem h).1 e he
    refine ⟨e', he', ?_, ?_⟩
    · rw [hplaced]
      exact hid
    · rw [hplaced]
      exact hparent

theorem placed_wellFormed {placed : List DocElement}
    (h : List.Forall₂ DocElement.Placed elements placed) :
    WellFormed placed ↔ WellFormed elements := by
  constructor
  · intro hwell
    refine ⟨placed_ids h ▸ hwell.distinct, fun e he => ?_, fun e he => ?_, ?_, ?_⟩
    · obtain ⟨e', he', hplaced⟩ := (placed_mem h).1 e he
      have hkind := hwell.kinds e' he'
      rwa [hplaced] at hkind
    · obtain ⟨e', he', hplaced⟩ := (placed_mem h).1 e he
      have hpage := hwell.pages e' he'
      rwa [hplaced] at hpage
    · exact placed_ids h ▸ placed_isParent h ▸ hwell.forest.listed
    · exact placed_isParent h ▸ hwell.forest.acyclic
  · intro hwell
    refine ⟨(placed_ids h).symm ▸ hwell.distinct, fun e' he' => ?_, fun e' he' => ?_, ?_, ?_⟩
    · obtain ⟨e, he, hplaced⟩ := (placed_mem h).2 e' he'
      rw [hplaced]
      exact hwell.kinds e he
    · obtain ⟨e, he, hplaced⟩ := (placed_mem h).2 e' he'
      rw [hplaced]
      exact hwell.pages e he
    · rw [placed_ids h, placed_isParent h]
      exact hwell.forest.listed
    · rw [placed_isParent h]
      exact hwell.forest.acyclic

/-! ## Building -/

/-- Nothing of the elements is lost in the tree, and its text is theirs. -/
structure Lossless (elements : List DocElement) (tree : DocElementTree) : Prop where
  placed : List.Forall₂ DocElement.Placed elements tree.elements
  laid : Laid (encoded tree.text) tree.elements
  disjoint : tree.elements.Pairwise fun e e' => e.byteEnd < e'.byteStart
  decoded : ∀ e ∈ tree.elements,
    decode (slice (encoded tree.text) e.byteStart.toNat e.byteEnd.toNat) = some e.text

/-- Ranges that are apart from their neighbours are apart. -/
theorem Laid.disjoint (h : Laid raw elements) :
    elements.Pairwise fun e e' => e.byteEnd < e'.byteStart := by
  have hchain : elements.IsChain fun e e' => e.byteEnd < e'.byteStart ∧ e'.byteStart ≤ e'.byteEnd :=
    h.separated.imp_of_mem_imp fun _ e' _ he' hsep => ⟨hsep.le, (h.sliced e' he').le⟩
  have htrans : IsTrans DocElement
      fun e e' => e.byteEnd < e'.byteStart ∧ e'.byteStart ≤ e'.byteEnd :=
    ⟨fun _ _ _ hab hbc => ⟨by omega, hbc.2⟩⟩
  exact (List.isChain_iff_pairwise.mp hchain).imp And.left

/-- An `ElementError`. -/
def Failure.IsElement (failure : Failure) : Prop := ∃ message, failure = .element message

theorem forM_error {α ε : Type} {f : α → Except ε Unit} {as : List α} {error : ε}
    (h : as.forM f = .error error) : ∃ a ∈ as, f a = .error error := by
  induction as with
  | nil => cases h
  | cons a as ih =>
    have hcons : (a :: as).forM f = (f a >>= fun _ => as.forM f) := rfl
    rw [hcons] at h
    rcases Fallible.bind_error.mp h with h | ⟨_, -, h⟩
    · exact ⟨a, List.mem_cons_self, h⟩
    · obtain ⟨a', ha', h⟩ := ih h
      exact ⟨a', List.mem_cons_of_mem _ ha', h⟩

/-- An element whose text can be encoded, of a tree that has every parent, is refused by an
    `ElementError` or not at all. -/
theorem checkElement_error {failure : Failure} (hscalar : Scalar e.text)
    (hclosed : Ancestors.Closed tree.parents) (hdistinct : (tree.elements.map DocElement.id).Nodup)
    (h : tree.checkElement raw e = .error failure) : failure.IsElement := by
  unfold DocElementTree.checkElement at h
  split at h
  · cases h
    exact ⟨_, rfl⟩
  split at h
  · cases h
    exact ⟨_, rfl⟩
  rw [encodeText_ok.mpr ⟨hscalar, rfl⟩] at h
  replace h : (if slice raw e.byteStart.toNat e.byteEnd.toNat ≠ encoded e.text then _ else _) =
    Except.error failure := h
  split at h
  · cases h
    exact ⟨_, rfl⟩
  split at h
  · cases h
    exact ⟨_, rfl⟩
  split at h
  · cases h
    exact ⟨_, rfl⟩
  rename_i hparents
  have hstart : ∀ p, e.parent = some p → (tree.parents.lookup p).isSome := by
    intro p hp
    have hmem : p ∈ tree.elements.map DocElement.id :=
      Decidable.not_not.mp fun hnot => hparents ⟨p, hp, hnot⟩
    obtain ⟨e', he', rfl⟩ := List.mem_map.mp hmem
    rw [(parents_lookup hdistinct).mpr ⟨e', he', rfl, rfl⟩]
    rfl
  unfold checkAncestors at h
  split at h
  · cases h
  · cases h
    exact ⟨_, rfl⟩
  · rename_i key hmissing
    exact absurd hmissing (Ancestors.climb_ne_missing hclosed hstart key)

/-- **What is refused, is refused by an `ElementError`**, if the texts can be encoded and the parents
    are among the elements. -/
theorem buildTree_error {sourceId : PyStr} {failure : Failure} (hscalar : ∀ e ∈ elements, Scalar e.text)
    (hlisted : ∀ a b, IsParent elements a b → b ∈ elements.map DocElement.id)
    (h : buildTree sourceId elements = .error failure) : failure.IsElement := by
  obtain ⟨b, hfold⟩ := foldlM_isOk (b := ⟨[], [], 0⟩) hscalar
  have hholds := foldlM_holds empty_holds hfold
  rcases Fallible.bind_error.mp h with h | ⟨b', hb', h⟩
  · rw [hfold] at h
    cases h
  obtain rfl : b = b' := Except.ok.inj (hfold.symm.trans hb')
  rcases Fallible.bind_error.mp h with h | ⟨_, -, h⟩
  · rcases Fallible.bind_error.mp h with h | ⟨raw, -, h⟩
    · rw [encodeText_ok.mpr ⟨hholds.scalar, rfl⟩] at h
      cases h
    split at h
    · cases h
      exact ⟨_, rfl⟩
    rename_i hdistinct
    replace hdistinct := Decidable.not_not.mp hdistinct
    obtain ⟨e, he, h⟩ := forM_error h
    have hclosed : Ancestors.Closed
        (DocElementTree.parents ⟨sourceId, b.chunks.flatten, b.result⟩) := by
      refine closed_of_listed hdistinct ?_
      have hplaced := hholds.placed
      rw [List.nil_append] at hplaced
      rw [placed_isParent hplaced, placed_ids hplaced]
      exact hlisted
    exact checkElement_error (hholds.laid.sliced e he).scalar hclosed hdistinct h
  · cases h

theorem buildTree_ok {sourceId : PyStr} (h : buildTree sourceId elements = .ok tree) :
    WellFormed elements ∧ Lossless elements tree ∧ tree.validate = .ok () := by
  obtain ⟨b, hfold, h⟩ := Fallible.bind_ok.mp h
  obtain ⟨_, hvalid, h⟩ := Fallible.bind_ok.mp h
  cases h
  have hholds := foldlM_holds empty_holds hfold
  obtain ⟨-, hsliced, hwell⟩ := validate_ok_iff.mp hvalid
  refine ⟨(placed_wellFormed hholds.placed).mp hwell,
    ⟨hholds.placed, hholds.laid, hholds.laid.disjoint, fun e he => ?_⟩, hvalid⟩
  rw [(hsliced e he).slice, decode_encoded (hsliced e he).scalar]

theorem buildTree_of_wellFormed {sourceId : PyStr} (hscalar : ∀ e ∈ elements, Scalar e.text)
    (hwell : WellFormed elements) : ∃ tree, buildTree sourceId elements = .ok tree := by
  obtain ⟨b, hfold⟩ := foldlM_isOk (b := ⟨[], [], 0⟩) hscalar
  have hholds := foldlM_holds empty_holds hfold
  have hvalid : DocElementTree.validate ⟨sourceId, b.chunks.flatten, b.result⟩ = .ok () :=
    validate_ok_iff.mpr ⟨hholds.scalar, hholds.laid.sliced, (placed_wellFormed hholds.placed).mpr hwell⟩
  exact ⟨_, Fallible.bind_ok.mpr ⟨b, hfold, Fallible.bind_ok.mpr ⟨(), hvalid, rfl⟩⟩⟩

/-! ## Reading back -/

theorem DocElement.fromDict_toDict (e : DocElement) : fromDict e.toDict = .ok e := by
  have hfields : ¬ ∃ v ∈ e.toDict, v.1 ∉ fieldNames := by
    rintro ⟨v, hv, hnot⟩
    exact hnot (List.mem_map_of_mem (f := Prod.fst) hv)
  rw [fromDict, if_neg hfields]
  rcases e with ⟨id, kind, text, byteStart, byteEnd, page, bbox, parent, order, attributes⟩
  cases page <;> cases bbox <;> cases parent <;> rfl

theorem fromDict_toDict (str : PyValue → PyStr) (h : tree.validate = .ok ()) :
    DocElementTree.fromDict str tree.toDict = .ok tree := by
  have helements : (tree.elements.map fun e => PyValue.dict e.toDict).mapM elementOf =
      .ok tree.elements := by
    rw [Fallible.mapM_ok, List.forall₂_map_left_iff]
    exact List.forall₂_same.mpr fun e _ => e.fromDict_toDict
  have hread : DocElementTree.fromDict str tree.toDict =
      ((tree.elements.map fun e => PyValue.dict e.toDict).mapM elementOf >>= fun elements =>
        DocElementTree.validate ⟨tree.sourceId, tree.text, elements⟩ >>= fun _ =>
          .ok ⟨tree.sourceId, tree.text, elements⟩) := rfl
  rw [hread, helements]
  exact Fallible.bind_ok.mpr ⟨tree.elements, rfl, Fallible.bind_ok.mpr ⟨(), h, rfl⟩⟩

/-- A dictionary is read as a tree that was validated. -/
theorem validate_of_fromDict {str : PyValue → PyStr} {value : List (PyStr × PyValue)}
    (h : DocElementTree.fromDict str value = .ok tree) : tree.validate = .ok () := by
  obtain ⟨source, -, h⟩ := Fallible.bind_ok.mp h
  obtain ⟨text, -, h⟩ := Fallible.bind_ok.mp h
  obtain ⟨items, -, h⟩ := Fallible.bind_ok.mp h
  split at h
  · obtain ⟨elements, -, h⟩ := Fallible.bind_ok.mp h
    obtain ⟨_, hvalid, h⟩ := Fallible.bind_ok.mp h
    cases h
    exact hvalid
  · cases h

/-- **ELEMENT TREES ARE LOSSLESS**: elements without lone surrogates make a tree exactly when they are
    well-formed, the tree keeps them and is read back from its dictionary, and whatever is read from a
    dictionary has ranges that slice to its texts, and a forest. -/
theorem trees_lossless (str : PyValue → PyStr) (sourceId : PyStr) (elements : List DocElement)
    (hscalar : ∀ e ∈ elements, Scalar e.text) :
    ((∃ tree, buildTree sourceId elements = .ok tree) ↔ WellFormed elements) ∧
      (∀ tree, buildTree sourceId elements = .ok tree →
        Lossless elements tree ∧ DocElementTree.fromDict str tree.toDict = .ok tree) ∧
      ∀ value tree, DocElementTree.fromDict str value = .ok tree →
        (∀ e ∈ tree.elements, e.Sliced (encoded tree.text)) ∧ Forest tree.elements := by
  refine ⟨⟨?_, buildTree_of_wellFormed hscalar⟩, fun tree hbuild => ?_, fun value tree hread => ?_⟩
  · rintro ⟨tree, hbuild⟩
    exact (buildTree_ok hbuild).1
  · obtain ⟨-, hlossless, hvalid⟩ := buildTree_ok hbuild
    exact ⟨hlossless, fromDict_toDict str hvalid⟩
  · obtain ⟨-, hsliced, hwell⟩ := validate_ok_iff.mp (validate_of_fromDict hread)
    exact ⟨hsliced, hwell.forest⟩

/-- A heading `Résumé` and a table below it. -/
def resume : List DocElement :=
  [{ id := lit "h", kind := lit "SectionHeader", text := lit "Résumé", page := some 1 },
    { id := lit "t", kind := lit "Table", text := lit "租金", parent := some (lit "h") }]

theorem trees_lossless_resume :
    ((∃ tree, buildTree (lit "source") resume = .ok tree) ↔ WellFormed resume) ∧
      (∀ tree, buildTree (lit "source") resume = .ok tree → Lossless resume tree ∧
        DocElementTree.fromDict (fun _ => []) tree.toDict = .ok tree) ∧
      ∀ value tree, DocElementTree.fromDict (fun _ => []) value = .ok tree →
        (∀ e ∈ tree.elements, e.Sliced (encoded tree.text)) ∧ Forest tree.elements :=
  trees_lossless (fun _ => []) (lit "source") resume fun e he => by
    simp only [resume, List.mem_cons, List.not_mem_nil, or_false] at he
    rcases he with rfl | rfl <;> decide

end ControlPlane.Documents
