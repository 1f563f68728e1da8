/-
  FEATURE LAYOUTS, `validate_layout` of `theorem_ml/executors/contracts.py`.

  A layout says which columns of a feature vector hold what.  The code reads its blocks in one loop
  that carries the next offset, the embedding and the categories so far.

  1. `readBlock_ok`: the loop goes on exactly where the value DENOTES a block that starts at the next
     offset, and the first embedding, if it is one, of positive dimension.
  2. `laid_iff`: a whole loop, as tiling, order of categories and list of embeddings.
  3. `WellLaid.last`: only an embedding can stand behind an embedding, so the only one is the last.
  4. `validate_layout_iff`: which layouts are accepted, and with what answer.
-/
import ControlPlane.Fallible
import ControlPlane.JsonEq

namespace ControlPlane.Executors

open Fallible (bind_ok)
open Json (get? eq)
open PyStr (lit)

/-- What `validate_layout` raises. -/
inductive FeatureError where
  | valueError (message : String)
  | keyError (key : String)
  | typeError
  | attributeError

/-! ## The code -/

/-- `len(value)`. -/
def pyLen : Json → Except FeatureError Nat
  | .str text => .ok text.length
  | .arr items => .ok items.length
  | .obj fields => .ok fields.length
  | _ => .error .typeError

/-- `isinstance(value, int)`, with its value; a `bool` is an `int`. -/
def int? : Json → Option Int
  | .int n => some n
  | .bool b => some (if b then 1 else 0)
  | _ => none

/-- `for item in value`. -/
def iterate : Json → Except FeatureError (List Json)
  | .arr items => .ok items
  | .obj fields => .ok (fields.map fun f => .str f.1)
  | .str text => .ok (text.map fun c => .str [c])
  | _ => .error .typeError

/-- What has a `get`. -/
def fieldsOf : Json → Except FeatureError (List (PyStr × Json))
  | .obj fields => .ok fields
  | _ => .error .attributeError

/-- `fields[key]`. -/
def getItem (fields : List (PyStr × Json)) (key : String) : Except FeatureError Json :=
  match get? fields key with
  | some value => .ok value
  | none => .error (.keyError key)

/-- What the loop carries along. -/
structure Progress where
  offset : Int
  embedding : Option (Int × Int)
  categories : List Nat

/-- The embedding block: its size, unless there was one or it has none. -/
def embeddingSize (s : Progress) (dim : Json) : Except FeatureError Int :=
  match s.embedding, int? dim with
  | none, some size =>
      if 0 < size then .ok size
      else .error (.valueError "corpus prototype updates require one nonempty embedding block")
  | _, _ => .error (.valueError "corpus prototype updates require one nonempty embedding block")

/-- The size of a block, its category, and the embedding from then on. -/
def measure (s : Progress) (kind : List (PyStr × Json)) :
    Except FeatureError (Int × Nat × Option (Int × Int)) :=
  match get? kind "kind" with
  | some (.str name) =>
      if name = lit "enum_one_hot" then do
        let variants ← getItem kind "variants"
        let size ← pyLen variants
        return (size, 0, s.embedding)
      else if name = lit "relation_affinity" then .ok (1, 1, s.embedding)
      else if name = lit "date_cyclic" then .ok (2, 2, s.embedding)
      else if name = lit "membrane" then .ok (1, 3, s.embedding)
      else if name = lit "embedding" then do
        let dim ← getItem kind "dim"
        let size ← embeddingSize s dim
        return (size, 4, some (s.offset, size))
      else .error (.valueError "unknown FeatureLayout block")
  | _ => .error (.valueError "unknown FeatureLayout block")

/-- The body of the loop. -/
def readBlock (s : Progress) (block : Json) : Except FeatureError Progress := do
  let fields ← fieldsOf block
  let kind ← fieldsOf ((get? fields "kind").getD (.obj []))
  let (size, category, embedding) ← measure s kind
  if eq ((get? fields "offset").getD .null) (.int s.offset) then
    return ⟨s.offset + size, embedding, s.categories ++ [category]⟩
  else .error (.valueError "FeatureLayout blocks must be contiguous")

/-- `not layout.get(key)` does not hold. -/
def carries (layout : List (PyStr × Json)) (key : String) : Bool :=
  ((get? layout key).getD .null).truthy

/-- `validate_layout`. -/
def validateLayout (layout : List (PyStr × Json)) (width : Int) : Except FeatureError (Int × Int) :=
  if !eq ((get? layout "feature_dim").getD .null) (.int width) || !carries layout "schema_anchor" ||
      !carries layout "object_type" then
    .error (.valueError "feature vectors must match an identified schema FeatureLayout")
  else do
    let blocks ← iterate ((get? layout "blocks").getD (.arr []))
    let s ← blocks.foldlM readBlock ⟨0, none, []⟩
    match s.embedding with
    | some embedding =>
        if s.offset ≠ width ∨ s.categories ≠ s.categories.insertionSort (· ≤ ·) then
          .error (.valueError "FeatureLayout width, block ordering, or embedding is invalid")
        else return embedding
    | none => .error (.valueError "FeatureLayout width, block ordering, or embedding is invalid")

/-! ## Layouts -/

inductive BlockKind where
  | oneHot (variants : Nat)
  | affinity
  | date
  | membrane
  | embedding (dim : Int)
  deriving DecidableEq

/-- How many columns it takes. -/
def BlockKind.size : BlockKind → Int
  | .oneHot variants => variants
  | .affinity => 1
  | .date => 2
  | .membrane => 1
  | .embedding dim => dim

/-- Its place in the order of kinds. -/
def BlockKind.category : BlockKind → Nat
  | .oneHot _ => 0
  | .affinity => 1
  | .date => 2
  | .membrane => 3
  | .embedding _ => 4

structure FeatureBlock where
  kind : BlockKind
  offset : Int
  deriving DecidableEq

def FeatureBlock.isEmbedding (b : FeatureBlock) : Bool := b.kind.category = 4

/-- What the value of `kind` stands for. -/
inductive DenotesKind (kind : List (PyStr × Json)) : BlockKind → Prop where
  | oneHot {variants : Json} {n : Nat} (hkind : get? kind "kind" = some (.str (lit "enum_one_hot")))
      (hvariants : get? kind "variants" = some variants) (hlen : pyLen variants = .ok n) :
      DenotesKind kind (.oneHot n)
  | affinity (hkind : get? kind "kind" = some (.str (lit "relation_affinity"))) :
      DenotesKind kind .affinity
  | date (hkind : get? kind "kind" = some (.str (lit "date_cyclic"))) : DenotesKind kind .date
  | membrane (hkind : get? kind "kind" = some (.str (lit "membrane"))) : DenotesKind kind .membrane
  | embedding {dim : Json} {n : Int} (hkind : get? kind "kind" = some (.str (lit "embedding")))
      (hdim : get? kind "dim" = some dim) (hint : int? dim = some n) :
      DenotesKind kind (.embedding n)

/-- What an item of `blocks` stands for. -/
inductive Denotes : Json → FeatureBlock → Prop where
  | intro {fields kind : List (PyStr × Json)} {offset : Json} {b : FeatureBlock}
      (hkind : get? fields "kind" = some (.obj kind)) (hdenotes : DenotesKind kind b.kind)
      (hoffset : get? fields "offset" = some offset) (heq : eq offset (.int b.offset) = true) :
      Denotes (.obj fields) b

/-- Blocks that tile the columns from `start` to `stop`, one behind the other. -/
def Tiles : Int → Int → List FeatureBlock → Prop
  | start, stop, [] => start = stop
  | start, stop, b :: bs => b.offset = start ∧ Tiles (start + b.kind.size) stop bs

/-- An identified layout of a width: its blocks tile it in the order of their kinds, and just one is an
    embedding, of positive dimension. -/
structure WellLaid (layout : List (PyStr × Json)) (width : Int) (bs : List FeatureBlock) : Prop where
  featureDim : ∃ value, get? layout "feature_dim" = some value ∧ eq value (.int width) = true
  anchor : ∃ value, get? layout "schema_anchor" = some value ∧ value.truthy = true
  objectType : ∃ value, get? layout "object_type" = some value ∧ value.truthy = true
  blocks : ∃ items, get? layout "blocks" = some (.arr items) ∧ List.Forall₂ Denotes items bs
  tiles : Tiles 0 width bs
  ordered : (bs.map fun b => b.kind.category).Pairwise (· ≤ ·)
  embedding : ∃ offset dim, 0 < dim ∧
    bs.filter FeatureBlock.isEmbedding = [⟨.embedding dim, offset⟩]

variable {layout kind fields : List (PyStr × Json)} {block : Json} {items : List Json}
  {s s' : Progress} {k : BlockKind} {b : FeatureBlock} {bs bs' : List FeatureBlock}
  {start stop width offset dim : Int}

/-! ## One block -/

/-- The embedding from then on. -/
def Progress.remembered (s : Progress) : BlockKind → Option (Int × Int)
  | .embedding dim => some (s.offset, dim)
  | _ => s.embedding

/-- An embedding is the first one, and has columns. -/
def Progress.Admits (s : Progress) (k : BlockKind) : Prop :=
  ∀ dim, k = .embedding dim → s.embedding = none ∧ 0 < dim

/-- Behind a block. -/
def Progress.after (s : Progress) (b : FeatureBlock) : Progress :=
  ⟨s.offset + b.kind.size, s.remembered b.kind, s.categories ++ [b.kind.category]⟩

theorem getItem_ok {key : String} {value : Json} :
    getItem fields key = .ok value ↔ get? fields key = some value := by
  unfold getItem
  cases get? fields key with
  | none => exact iff_of_false nofun nofun
  | some value' =>
    exact ⟨fun h => congrArg some (Except.ok.inj h), fun h => congrArg _ (Option.some.inj h)⟩

theorem embeddingSize_ok {value : Json} {size : Int} : embeddingSize s value = .ok size ↔
    int? value = some size ∧ s.embedding = none ∧ 0 < size := by
  unfold embeddingSize
  split
  · rename_i n hnone hint
    rw [hnone, hint]
    by_cases hpos : 0 < n
    · rw [if_pos hpos]
      exact ⟨fun h => ⟨congrArg some (Except.ok.inj h), rfl, Except.ok.inj h ▸ hpos⟩,
        fun h => congrArg _ (Option.some.inj h.1)⟩
    · rw [if_neg hpos]
      exact iff_of_false nofun fun h => hpos (Option.some.inj h.1 ▸ h.2.2)
  · rename_i hother
    refine iff_of_false nofun fun h => ?_
    exact hother _ h.2.1 h.1

theorem measure_ok {size : Int} {category : Nat} {embedding : Option (Int × Int)} :
    measure s kind = .ok (size, category, embedding) ↔ ∃ k, DenotesKind kind k ∧ s.Admits k ∧
      size = k.size ∧ category = k.category ∧ embedding = s.remembered k := by
  constructor
  · intro h
    unfold measure at h
    split at h
    · rename_i name hkind
      split at h
      · rename_i hname
        obtain ⟨variants, hvariants, h⟩ := bind_ok.mp h
        obtain ⟨n, hlen, h⟩ := bind_ok.mp h
        cases h
        exact ⟨.oneHot n, .oneHot (hname ▸ hkind) (getItem_ok.mp hvariants) hlen, nofun, rfl, rfl,
          rfl⟩
      split at h
      · rename_i hname
        cases h
        exact ⟨.affinity, .affinity (hname ▸ hkind), nofun, rfl, rfl, rfl⟩
      split at h
      · rename_i hname
        cases h
        exact ⟨.date, .date (hname ▸ hkind), nofun, rfl, rfl, rfl⟩
      split at h
      · rename_i hname
        cases h
        exact ⟨.membrane, .membrane (hname ▸ hkind), nofun, rfl, rfl, rfl⟩
      split at h
      · rename_i hname
        obtain ⟨dim, hdim, h⟩ := bind_ok.mp h
        obtain ⟨n, hsize, h⟩ := bind_ok.mp h
        obtain ⟨hint, hnone, hpos⟩ := embeddingSize_ok.mp hsize
        cases h
        refine ⟨.embedding size, .embedding (hname ▸ hkind) (getItem_ok.mp hdim) hint, ?_, rfl, rfl, rfl⟩
        rintro _ ⟨rfl⟩
        exact ⟨hnone, hpos⟩
      · cases h
    · cases h
  · rintro ⟨k, hk, hadmits, rfl, rfl, rfl⟩
    unfold measure
    cases hk with
    | oneHot hkind hvariants hlen =>
      simp only [hkind, if_pos]
      exact bind_ok.mpr ⟨_, getItem_ok.mpr hvariants, bind_ok.mpr ⟨_, hlen, rfl⟩⟩
    | affinity hkind =>
      simp only [hkind]
      rfl
    | date hkind =>
      simp only [hkind]
      rfl
    | membrane hkind =>
      simp only [hkind]
      rfl
    | embedding hkind hdim hint =>
      simp only [hkind]
      rw [if_neg (by decide), if_neg (by decide), if_neg (by decide), if_neg (by decide),
        if_pos trivial]
      obtain ⟨hnone, hpos⟩ := hadmits _ rfl
      exact bind_ok.mpr ⟨_, getItem_ok.mpr hdim,
        bind_ok.mpr ⟨_, embeddingSize_ok.mpr ⟨hint, hnone, hpos⟩, rfl⟩⟩

theorem fieldsOf_ok : fieldsOf block = .ok fields ↔ block = .obj fields := by
  unfold fieldsOf
  split
  · exact ⟨fun h => congrArg _ (Except.ok.inj h), fun h => congrArg _ (Json.obj.inj h)⟩
  · rename_i hother
    exact iff_of_false nofun (hother _)

/-- What is not there is no number. -/
theorem eq_get {key : String} {n : Int} : eq ((get? fields key).getD .null) (.int n) = true ↔
    ∃ value, get? fields key = some value ∧ eq value (.int n) = true := by
  cases get? fields key with
  | none =>
    simp [eq, Json.eqNumber, Json.number]
  | some value => simp only [Option.getD_some, Option.some.injEq, exists_eq_left']

/-- **One block** is read where the value denotes one that starts at the offset and is admitted. -/
theorem readBlock_ok : readBlock s block = .ok s' ↔
    ∃ b, Denotes block b ∧ b.offset = s.offset ∧ s.Admits b.kind ∧ s' = s.after b := by
  constructor
  · intro h
    obtain ⟨fields, hfields, h⟩ := bind_ok.mp h
    obtain ⟨kind, hkind, h⟩ := bind_ok.mp h
    obtain ⟨⟨size, category, embedding⟩, hmeasure, h⟩ := bind_ok.mp h
    obtain ⟨k, hdenotes, hadmits, rfl, rfl, rfl⟩ := measure_ok.mp hmeasure
    dsimp only at h
    split at h
    · rename_i hoffset
      cases h
      obtain ⟨value, hvalue, heq⟩ := eq_get.mp hoffset
      rw [fieldsOf_ok] at hfields hkind
      have hget : get? fields "kind" = some (.obj kind) := by
        cases hget : get? fields "kind" with
        | none =>
          rw [hget] at hkind
          cases hkind
          cases hdenotes <;> contradiction
        | some value => rw [← hkind, hget]; rfl
      exact ⟨⟨k, s.offset⟩, hfields ▸ .intro hget hdenotes hvalue heq, rfl, hadmits, rfl⟩
    · cases h
  · rintro ⟨b, hdenotes, hoffset, hadmits, rfl⟩
    cases hdenotes with
    | intro hkind hdenotes hvalue heq =>
      refine bind_ok.mpr ⟨_, rfl, bind_ok.mpr ⟨_, by rw [hkind]; rfl, bind_ok.mpr ⟨_,
        measure_ok.mpr ⟨b.kind, hdenotes, hadmits, rfl, rfl, rfl⟩, ?_⟩⟩⟩
      dsimp only
      rw [if_pos (eq_get.mpr ⟨_, hvalue, hoffset ▸ heq⟩)]
      rfl

/-! ## The loop -/

/-- The blocks that a loop goes through. -/
def Laid : Progress → List FeatureBlock → Progress → Prop
  | s, [], s' => s = s'
  | s, b :: bs, s' => b.offset = s.offset ∧ s.Admits b.kind ∧ Laid (s.after b) bs s'

theorem loop_ok : items.foldlM readBlock s = .ok s' ↔
    ∃ bs, List.Forall₂ Denotes items bs ∧ Laid s bs s' := by
  induction items generalizing s with
  | nil =>
    simp only [List.forall₂_nil_left_iff, exists_eq_left]
    exact ⟨Except.ok.inj, congrArg _⟩
  | cons item items ih =>
    rw [List.foldlM_cons, bind_ok]
    simp only [List.forall₂_cons_left_iff]
    constructor
    · rintro ⟨mid, hmid, hrest⟩
      obtain ⟨b, hb, hoffset, hadmits, rfl⟩ := readBlock_ok.mp hmid
      obtain ⟨bs, hbs, hlaid⟩ := ih.mp hrest
      exact ⟨b :: bs, ⟨b, bs, hb, hbs, rfl⟩, hoffset, hadmits, hlaid⟩
    · rintro ⟨_, ⟨b, bs, hb, hbs, rfl⟩, hoffset, hadmits, hlaid⟩
      exact ⟨s.after b, readBlock_ok.mpr ⟨b, hb, hoffset, hadmits, rfl⟩, ih.mpr ⟨bs, hbs, hlaid⟩⟩

/-- The embedding that is remembered, as a block. -/
def Progress.blocks (s : Progress) : List FeatureBlock :=
  s.embedding.toList.map fun e => ⟨.embedding e.2, e.1⟩

/-- Where a block is admitted, it is the only embedding so far, if it is one. -/
theorem blocks_after (hoffset : b.offset = s.offset) (h : s.Admits b.kind) :
    (s.after b).blocks = s.blocks ++ [b].filter FeatureBlock.isEmbedding := by
  obtain ⟨k, o⟩ := b
  cases hoffset
  cases k with
  | embedding dim =>
    rw [Progress.blocks, Progress.blocks, (h dim rfl).1]
    rfl
  | _ => exact (List.append_nil _).symm

theorem admits_of_blocks (h : ∀ dim, k = .embedding dim → s.blocks = [] ∧ 0 < dim) : s.Admits k := by
  intro dim hdim
  obtain ⟨hblocks, hpos⟩ := h dim hdim
  refine ⟨?_, hpos⟩
  rw [Progress.blocks, List.map_eq_nil_iff, Option.toList_eq_nil_iff] at hblocks
  exact hblocks

theorem blocks_length (s : Progress) : s.blocks.length ≤ 1 := by
  rw [Progress.blocks, List.length_map]
  cases s.embedding with
  | none => exact Nat.zero_le 1
  | some e => exact Nat.le_refl 1

theorem progress_ext (hoffset : s.offset = s'.offset) (hcategories : s.categories = s'.categories)
    (hblocks : s.blocks = s'.blocks) : s = s' := by
  obtain ⟨offset, embedding, categories⟩ := s
  obtain ⟨offset', embedding', categories'⟩ := s'
  cases hoffset
  cases hcategories
  have hembedding : embedding = embedding' := by
    cases embedding with
    | none =>
      cases embedding' with
      | none => rfl
      | some _ => cases hblocks
    | some e =>
      cases embedding' with
      | none => cases hblocks
      | some e' =>
        have hparts : e.2 = e'.2 ∧ e.1 = e'.1 := by simpa [Progress.blocks] using hblocks
        rw [Prod.ext hparts.2 hparts.1]
  rw [hembedding]

/-- Every embedding has columns. -/
def Positive (bs : List FeatureBlock) : Prop := ∀ b ∈ bs, ∀ dim, b.kind = .embedding dim → 0 < dim

/-- **A whole loop**: the blocks tile what it passes, and there is one embedding at most. -/
theorem laid_iff : Laid s bs s' ↔ Tiles s.offset s'.offset bs ∧
    s'.categories = s.categories ++ bs.map (fun b => b.kind.category) ∧
    s'.blocks = s.blocks ++ bs.filter FeatureBlock.isEmbedding ∧ Positive bs := by
  induction bs generalizing s with
  | nil =>
    simp only [Laid, Tiles, List.map_nil, List.filter_nil, List.append_nil]
    constructor
    · rintro rfl
      exact ⟨rfl, rfl, rfl, fun _ h => absurd h List.not_mem_nil⟩
    · rintro ⟨hoffset, hcategories, hblocks, -⟩
      exact progress_ext hoffset hcategories.symm hblocks.symm
  | cons b bs ih =>
    have hcategories : s.categories ++ (b :: bs).map (fun b => b.kind.category) =
        (s.after b).categories ++ bs.map fun b => b.kind.category := by
      rw [Progress.after, List.append_assoc, List.map_cons, List.singleton_append]
    have hfilter : (b :: bs).filter FeatureBlock.isEmbedding =
        [b].filter FeatureBlock.isEmbedding ++ bs.filter FeatureBlock.isEmbedding := by
      rw [← List.filter_append, List.singleton_append]
    rw [Laid, Tiles, ih, hcategories, hfilter, ← List.append_assoc]
    constructor
    · rintro ⟨hoffset, hadmits, htiles, hcats, hblocks, hpositive⟩
      rw [← blocks_after hoffset hadmits]
      refine ⟨⟨hoffset, htiles⟩, hcats, hblocks, List.forall_mem_cons.mpr ⟨?_, hpositive⟩⟩
      exact fun dim hdim => (hadmits dim hdim).2
    · rintro ⟨⟨hoffset, htiles⟩, hcats, hblocks, hpositive⟩
      rw [Positive, List.forall_mem_cons] at hpositive
      have hadmits : s.Admits b.kind := by
        refine admits_of_blocks fun dim hdim => ⟨?_, hpositive.1 dim hdim⟩
        have hone := blocks_length s'
        have hembedding : [b].filter FeatureBlock.isEmbedding = [b] := by
          rw [List.filter_singleton, FeatureBlock.isEmbedding, hdim]
          rfl
        rw [hblocks, hembedding, List.length_append, List.length_append, List.length_singleton] at hone
        exact List.length_eq_zero_iff.mp (by omega)
      rw [blocks_after hoffset hadmits]
      exact ⟨hoffset, hadmits, htiles, hcats, hblocks, hpositive.2⟩

/-! ## The last block -/

theorem tiles_append :
    Tiles start stop (bs ++ bs') ↔ ∃ mid, Tiles start mid bs ∧ Tiles mid stop bs' := by
  induction bs generalizing start with
  | nil => simp only [List.nil_append, Tiles, exists_eq_left']
  | cons b bs ih =>
    simp only [List.cons_append, Tiles, ih]
    constructor
    · rintro ⟨h, mid, hbs, hbs'⟩
      exact ⟨mid, ⟨h, hbs⟩, hbs'⟩
    · rintro ⟨mid, ⟨h, hbs⟩, hbs'⟩
      exact ⟨h, mid, hbs, hbs'⟩

theorem category_le (k : BlockKind) : k.category ≤ 4 := by
  cases k <;> simp only [BlockKind.category] <;> omega

/-- Behind an embedding stands nothing but embeddings. -/
theorem last_of_filter (hordered : (bs.map fun b => b.kind.category).Pairwise (· ≤ ·))
    (hfilter : bs.filter FeatureBlock.isEmbedding = [b]) : ∃ front, bs = front ++ [b] := by
  obtain ⟨front, back, rfl, -, hb, hback⟩ := List.filter_eq_cons_iff.mp hfilter
  cases back with
  | nil => exact ⟨front, rfl⟩
  | cons next back =>
    rw [List.map_append, List.map_cons, List.map_cons] at hordered
    have hle : b.kind.category ≤ next.kind.category :=
      (List.pairwise_cons.mp (List.pairwise_append.mp hordered).2.1).1 _ List.mem_cons_self
    have hembedding : next.kind.category = 4 :=
      le_antisymm (category_le _) (of_decide_eq_true hb ▸ hle)
    have hnot := List.filter_eq_nil_iff.mp hback next List.mem_cons_self
    exact absurd (decide_eq_true hembedding) hnot

/-- **The embedding is the last block**, and ends with the columns. -/
theorem WellLaid.last (h : WellLaid layout width bs)
    (hfilter : bs.filter FeatureBlock.isEmbedding = [⟨.embedding dim, offset⟩]) :
    offset + dim = width := by
  obtain ⟨front, rfl⟩ := last_of_filter h.ordered hfilter
  obtain ⟨mid, -, hoffset, hstop⟩ := tiles_append.mp h.tiles
  cases hoffset
  exact hstop

/-! ## The whole layout -/

theorem carries_iff {key : String} : carries layout key = true ↔
    ∃ value, get? layout key = some value ∧ value.truthy = true := by
  unfold carries
  cases get? layout key with
  | none => simp [Json.truthy]
  | some value => simp only [Option.getD_some, Option.some.injEq, exists_eq_left']

/-- A text or a `dict` in place of the list holds no block. -/
theorem iterate_denotes {value : Json} (hitems : iterate value = .ok items)
    (hdenotes : List.Forall₂ Denotes items bs) (hne : bs ≠ []) : value = .arr items := by
  have htexts : ∀ texts : List PyStr, ¬ List.Forall₂ Denotes (texts.map Json.str) bs := by
    intro texts h
    cases texts with
    | nil => exact hne (List.forall₂_nil_left_iff.mp h)
    | cons text texts =>
      obtain ⟨b, -, hb, -⟩ := List.forall₂_cons_left_iff.mp h
      cases hb
  unfold iterate at hitems
  split at hitems
  · rw [Except.ok.inj hitems]
  · rename_i fields
    refine absurd hdenotes ?_
    rw [← Except.ok.inj hitems]
    have h := htexts (fields.map Prod.fst)
    rwa [List.map_map] at h
  · rename_i text
    refine absurd hdenotes ?_
    rw [← Except.ok.inj hitems]
    have h := htexts (text.map fun c => [c])
    rwa [List.map_map] at h
  · cases hitems

/-- **What is accepted**, with its answer. -/
theorem validateLayout_ok : validateLayout layout width = .ok (offset, dim) ↔
    ∃ bs, WellLaid layout width bs ∧
      bs.filter FeatureBlock.isEmbedding = [⟨.embedding dim, offset⟩] := by
  constructor
  · intro h
    unfold validateLayout at h
    rcases Fallible.ite_ok h with ⟨-, h⟩ | ⟨hidentified, h⟩
    · cases h
    simp only [Bool.or_eq_true, Bool.not_eq_true', not_or, Bool.not_eq_false] at hidentified
    obtain ⟨⟨hwidth, hanchor⟩, htype⟩ := hidentified
    obtain ⟨items, hitems, h⟩ := bind_ok.mp h
    obtain ⟨s, hs, h⟩ := bind_ok.mp h
    obtain ⟨bs, hdenotes, hlaid⟩ := loop_ok.mp hs
    obtain ⟨htiles, hcategories, hblocks, hpositive⟩ := laid_iff.mp hlaid
    cases hembedding : s.embedding with
    | none =>
      rw [hembedding] at h
      cases h
    | some answer =>
      rw [hembedding] at h
      rcases Fallible.ite_ok h with ⟨-, h⟩ | ⟨hend, h⟩
      · cases h
      cases h
      rw [not_or, not_ne_iff, not_ne_iff] at hend
      have hfilter : bs.filter FeatureBlock.isEmbedding = [⟨.embedding dim, offset⟩] := by
        rw [Progress.blocks, hembedding] at hblocks
        exact hblocks.symm
      have hlast : ⟨.embedding dim, offset⟩ ∈ bs :=
        List.mem_of_mem_filter (hfilter ▸ List.mem_singleton_self _)
      have hne : bs ≠ [] := List.ne_nil_of_mem hlast
      have hvalue := iterate_denotes hitems hdenotes hne
      refine ⟨bs, ⟨eq_get.mp hwidth, carries_iff.mp hanchor, carries_iff.mp htype,
        ⟨items, ?_, hdenotes⟩, hend.1 ▸ htiles, ?_, offset, dim, hpositive _ hlast dim rfl, hfilter⟩,
        hfilter⟩
      · cases hget : get? layout "blocks" with
        | none =>
          rw [hget] at hvalue
          cases hvalue
          exact absurd (List.forall₂_nil_left_iff.mp hdenotes) hne
        | some value => rw [← hvalue, hget]; rfl
      · rw [List.nil_append] at hcategories
        rw [← hcategories, hend.2]
        exact List.pairwise_insertionSort _ _
  · rintro ⟨bs, h, hfilter⟩
    obtain ⟨items, hitems, hdenotes⟩ := h.blocks
    obtain ⟨offset', dim', hpos, hfilter'⟩ := h.embedding
    have hpositive : Positive bs := by
      intro b hb d hd
      have hmem : b ∈ bs.filter FeatureBlock.isEmbedding :=
        List.mem_filter.mpr ⟨hb, by rw [FeatureBlock.isEmbedding, hd]; rfl⟩
      rw [hfilter', List.mem_singleton] at hmem
      rw [hmem] at hd
      cases hd
      exact hpos
    have hloop : items.foldlM readBlock ⟨0, none, []⟩ =
        .ok ⟨width, some (offset, dim), bs.map fun b => b.kind.category⟩ := by
      refine loop_ok.mpr ⟨bs, hdenotes, laid_iff.mpr ⟨h.tiles, rfl, ?_, hpositive⟩⟩
      rw [hfilter]
      rfl
    unfold validateLayout
    rw [if_neg]
    · refine bind_ok.mpr ⟨items, by rw [hitems]; rfl, bind_ok.mpr ⟨_, hloop, ?_⟩⟩
      dsimp only
      rw [if_neg]
      · rfl
      · rw [not_or, not_ne_iff, not_ne_iff]
        exact ⟨rfl, h.ordered.insertionSort_eq.symm⟩
    · simp only [Bool.or_eq_true, Bool.not_eq_true', not_or, Bool.not_eq_false]
      exact ⟨⟨eq_get.mpr h.featureDim, carries_iff.mpr h.anchor⟩, carries_iff.mpr h.objectType⟩

/-- **`validate_layout` accepts exactly the layouts of that width**, and answers with the one embedding
    block, which is the last. -/
theorem validate_layout_iff (layout : List (PyStr × Json)) (width : Int) :
    ((∃ answer, validateLayout layout width = .ok answer) ↔ ∃ bs, WellLaid layout width bs) ∧
      ∀ offset dim, validateLayout layout width = .ok (offset, dim) → offset + dim = width ∧
        ∃ bs, WellLaid layout width bs ∧
          bs.filter FeatureBlock.isEmbedding = [⟨.embedding dim, offset⟩] := by
  refine ⟨⟨fun ⟨(offset, dim), h⟩ => ?_, fun ⟨bs, h⟩ => ?_⟩, fun offset dim h => ?_⟩
  · obtain ⟨bs, hlaid, -⟩ := validateLayout_ok.mp h
    exact ⟨bs, hlaid⟩
  · obtain ⟨offset, dim, -, hfilter⟩ := h.embedding
    exact ⟨_, validateLayout_ok.mpr ⟨bs, h, hfilter⟩⟩
  · obtain ⟨bs, hlaid, hfilter⟩ := validateLayout_ok.mp h
    exact ⟨hlaid.last hfilter, bs, hlaid, hfilter⟩

/-- A membrane and two columns of embedding. -/
example : (validateLayout [(lit "object_type", .str (lit "item")), (lit "schema_anchor", .str (lit "anchor")),
    (lit "feature_dim", .int 3), (lit "blocks", .arr [
      .obj [(lit "offset", .int 0), (lit "kind", .obj [(lit "kind", .str (lit "membrane"))])],
      .obj [(lit "offset", .int 1), (lit "kind", .obj [(lit "kind", .str (lit "embedding")),
        (lit "dim", .int 2)])]])] 3).toOption = some (1, 2) := by decide +kernel

end ControlPlane.Executors
