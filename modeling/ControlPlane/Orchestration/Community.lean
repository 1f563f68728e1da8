/-
  COMMUNITY ASSIGNMENT, `_community_assign` of `runpod/theorem_offload_contract_worker/worker.py`.

  The worker reads two string columns of an Arrow table as the edges of an undirected graph and answers
  with its connected components, numbered.  It keeps a dict from nodes to parents, which is union-find
  with path halving; nodes compare as strings do, by code points.

  1. `edgesOf`: which tables are refused, and which edges the others carry;
  2. `components_spec`: the rows number the components of the edges;
  3. `communityAssign_components`, from the table to the rows, in whatever order its edges are.
-/
import ControlPlane.PyStr
import ControlPlane.Sorting
import ControlPlane.UnionFind

namespace ControlPlane.Orchestration

open Sorting (sortedBy sortedSet)
open UnionFind (Components Connected Endpoint Least Rearranged Represents Root)

/-! ## Tables -/

/-- `pa.ChunkedArray`, as far as the worker looks at it; `none` is a null. -/
inductive ArrowColumn where
  | string (values : List (Option PyStr))
  /-- Of any other type. -/
  | other
  deriving DecidableEq

/-- `pa.Table`: the columns and their names. -/
structure ArrowTable where
  columns : List (PyStr × ArrowColumn)

/-- What `_community_assign` raises. -/
inductive CommunityError where
  | valueError (message : PyStr)
  | keyError
  deriving DecidableEq

namespace ArrowTable

/-- `table.column_names`. -/
def columnNames (table : ArrowTable) : List PyStr := table.columns.map Prod.fst

/-- `table[name]`, which is refused when two columns have the name. -/
def column (table : ArrowTable) (name : PyStr) : Except CommunityError ArrowColumn :=
  match table.columns.filter fun c => c.1 = name with
  | [c] => .ok c.2
  | _ => .error .keyError

end ArrowTable

/-! ## The operation -/

def required : List PyStr := [PyStr.lit "source", PyStr.lit "target"]

/-- The columns that are not there, sorted. -/
def missingColumns (table : ArrowTable) : List PyStr :=
  sortedBy id (required.filter fun name => !table.columnNames.contains name)

/-- `zip(sources, targets, strict=True)`. -/
def zipStrict (sources targets : List PyStr) : Except CommunityError (List (PyStr × PyStr)) :=
  if sources.length = targets.length then .ok (sources.zip targets)
  else .error (.valueError (PyStr.lit "zip() arguments differ in length"))

/-- The edges of a table. -/
def edgesOf (table : ArrowTable) : Except CommunityError (List (PyStr × PyStr)) :=
  if missingColumns table ≠ [] then
    .error (.valueError (PyStr.lit "community.assign requires columns: " ++
      List.intercalate (PyStr.lit ", ") (missingColumns table)))
  else
    match table.column (PyStr.lit "source"), table.column (PyStr.lit "target") with
    | .ok (.string sources), .ok (.string targets) =>
        match sources.mapM id, targets.mapM id with
        | some sources, some targets => zipStrict sources targets
        | _, _ => .error
            (.valueError (PyStr.lit "community.assign source and target cannot contain nulls"))
    | .ok _, .ok _ => .error
        (.valueError (PyStr.lit "community.assign source and target must be Arrow string columns"))
    | _, _ => .error .keyError

/-- A row of the answer has a node and its `community_id`. -/
def components (edges : List (PyStr × PyStr)) : Option (List (PyStr × Nat)) :=
  (UnionFind.unionAll [] edges).bind fun parent =>
    let nodes := sortedBy id (PyDict.keys parent)
    (UnionFind.findAll parent nodes).bind fun (parent, found) =>
      let roots := sortedSet id found
      (UnionFind.findAll parent nodes).bind fun (_, found) =>
        (found.mapM fun root => roots.idxOf? root).map fun ids => nodes.zip ids

/-- `_community_assign`. -/
def communityAssign (table : ArrowTable) : Except CommunityError (List (PyStr × Nat)) :=
  match edgesOf table with
  | .error e => .error e
  | .ok edges => match components edges with
    | some rows => .ok rows
    | none => .error .keyError

/-! ## Components -/

variable {edges edges' : List (PyStr × PyStr)} {d : List (PyStr × PyStr)}

theorem sortedBy_strict {xs : List PyStr} (h : xs.Nodup) : (sortedBy id xs).Pairwise (· < ·) := by
  have hle : (sortedBy id xs).Pairwise fun a b => id a ≤ id b := List.pairwise_insertionSort _ xs
  have hne : (sortedBy id xs).Nodup := (Sorting.sortedBy_perm id xs).nodup_iff.mpr h
  exact (hle.and hne).imp fun hab => lt_of_le_of_ne hab.1 hab.2

/-- The same roots, node by node. -/
theorem roots_unique {nodes found found' : List PyStr} (h : List.Forall₂ (Root d) nodes found)
    (h' : List.Forall₂ (Root d) nodes found') : found = found' := by
  induction h generalizing found' with
  | nil =>
    cases h'
    rfl
  | cons hroot _ ih =>
    cases h' with
    | cons hroot' hrest => rw [hroot.unique hroot', ih hrest]

/-- The roots that were found are the least nodes of the components. -/
theorem mem_found_iff (hd : Represents edges d) {nodes found : List PyStr}
    (hnodes : ∀ x, x ∈ nodes ↔ Endpoint edges x) (hfound : List.Forall₂ (Root d) nodes found)
    (r : PyStr) : r ∈ found ↔ Least edges r := by
  constructor
  · intro hr
    obtain ⟨i, hi, rfl⟩ := List.mem_iff_getElem.mp hr
    exact hd.root_least (hfound.get (hfound.length_eq ▸ hi) hi)
  · intro hr
    obtain ⟨i, hi, hget⟩ := List.mem_iff_getElem.mp ((hnodes r).mpr hr.1)
    have hi' : i < found.length := hfound.length_eq ▸ hi
    have hroot : Root d r found[i] := hget ▸ hfound.get hi hi'
    rw [(hd.least_root hr).unique hroot]
    exact List.getElem_mem _

/-- The numbers of the roots. -/
theorem number_roots {nodes found roots : List PyStr} (hfound : List.Forall₂ (Root d) nodes found)
    (hroots : ∀ r ∈ found, r ∈ roots) : ∃ ids, (found.mapM fun root => roots.idxOf? root) = some ids ∧
      (nodes.zip ids).map Prod.fst = nodes ∧
        ∀ row ∈ nodes.zip ids, ∃ r, roots[row.2]? = some r ∧ Root d row.1 r := by
  induction hfound with
  | nil => exact ⟨[], rfl, rfl, fun _ h => absurd h List.not_mem_nil⟩
  | @cons x r nodes found hroot _ ih =>
    obtain ⟨ids, hids, hnodes, hrows⟩ := ih fun s hs => hroots s (List.mem_cons_of_mem _ hs)
    have hr : r ∈ roots := hroots r List.mem_cons_self
    obtain ⟨i, hidx⟩ : ∃ i, roots.idxOf? r = some i :=
      Option.ne_none_iff_exists'.mp fun hnone => List.idxOf?_eq_none_iff.mp hnone hr
    obtain ⟨hi, hget, -⟩ := List.idxOf?_eq_some_iff.mp hidx
    refine ⟨i :: ids, by simp [hidx, hids], by rw [List.zip_cons_cons, List.map_cons, hnodes],
      fun row hrow => ?_⟩
    rcases List.mem_cons.mp hrow with rfl | hrow
    · exact ⟨r, List.getElem?_eq_some_iff.mpr ⟨hi, by simpa using hget⟩, hroot⟩
    · exact hrows row hrow

/-- **The rows number the components.** -/
theorem components_spec (edges : List (PyStr × PyStr)) :
    ∃ rows, components edges = some rows ∧ Components edges rows := by
  obtain ⟨d, hunion, hd⟩ := @UnionFind.Represents.unionAll _ _ edges _ _ UnionFind.represents_nil
  rw [List.nil_append] at hd
  have hmem : ∀ x, x ∈ sortedBy id (PyDict.keys d) ↔ x ∈ PyDict.keys d := fun _ => Sorting.mem_sortedBy
  obtain ⟨d₁, found, hfind, hfound, hforest, hkeys, hsame⟩ :=
    UnionFind.findAll_spec hd.forest fun x hx => (hmem x).mp hx
  obtain ⟨d₂, found', hagain, hfound', -⟩ :=
    UnionFind.findAll_spec hforest fun x hx => (hkeys x).mpr ((hmem x).mp hx)
  obtain rfl : found = found' :=
    roots_unique hfound (hfound'.imp fun x r h => (hsame x r).mp h)
  have hnodes : ∀ x, x ∈ sortedBy id (PyDict.keys d) ↔ Endpoint edges x := fun x =>
    (hmem x).trans (hd.nodes x)
  have hleast : ∀ r, r ∈ sortedSet id found ↔ Least edges r := fun r =>
    Sorting.mem_sortedSet.trans (mem_found_iff hd hnodes hfound r)
  obtain ⟨ids, hids, hfst, hrows⟩ := @number_roots _ _ _ (sortedSet id found) hfound
    fun r hr => Sorting.mem_sortedSet.mpr hr
  have hstrict : (sortedSet id found).Pairwise (· < ·) := sortedBy_strict (List.nodup_dedup found)
  refine ⟨(sortedBy id (PyDict.keys d)).zip ids, ?_, ?_⟩
  · simp [components, hunion, hfind, hagain, hids]
  · refine ⟨fun x => hfst.symm ▸ hnodes x, hfst.symm ▸ sortedBy_strict hd.forest.keyed,
      fun row hrow row' hrow' => ?_, sortedSet id found, hstrict, hleast, fun row hrow => ?_⟩
    · obtain ⟨r, hr, hroot⟩ := hrows row hrow
      obtain ⟨r', hr', hroot'⟩ := hrows row' hrow'
      rw [← hd.root_eq_iff hroot hroot']
      constructor
      · intro heq
        exact Option.some.inj (hr.symm.trans (heq ▸ hr'))
      · rintro rfl
        obtain ⟨hi, hget⟩ := List.getElem?_eq_some_iff.mp hr
        obtain ⟨hi', hget'⟩ := List.getElem?_eq_some_iff.mp hr'
        exact (List.Nodup.getElem_inj_iff (hstrict.imp ne_of_lt)).mp (hget.trans hget'.symm)
    · obtain ⟨r, hr, hroot⟩ := hrows row hrow
      exact ⟨r, hr, hd.sound hroot⟩

/-! ## Tables of edges -/

/-- The table has the two columns, and in them the ends of the edges. -/
structure Carries (table : ArrowTable) (edges : List (PyStr × PyStr)) : Prop where
  source : table.column (PyStr.lit "source") = .ok (.string (edges.map fun e => some e.1))
  target : table.column (PyStr.lit "target") = .ok (.string (edges.map fun e => some e.2))

theorem mem_columnNames {table : ArrowTable} {name : PyStr} {c : ArrowColumn}
    (h : table.column name = .ok c) : name ∈ table.columnNames := by
  unfold ArrowTable.column at h
  split at h
  · rename_i entry hfilter
    have hentry := List.mem_filter.mp (hfilter ▸ List.mem_singleton.mpr rfl)
    exact of_decide_eq_true hentry.2 ▸ List.mem_map_of_mem hentry.1
  · cases h

theorem mapM_some (f : α → PyStr) (xs : List α) :
    (xs.map fun x => some (f x)).mapM id = some (xs.map f) := by
  induction xs with
  | nil => rfl
  | cons x xs ih => simp [ih]

theorem edgesOf_carries {table : ArrowTable} (h : Carries table edges) :
    edgesOf table = .ok edges := by
  have hmissing : missingColumns table = [] := by
    rw [missingColumns, List.filter_eq_nil_iff.mpr]
    · rfl
    · intro name hname
      have hmem : name ∈ table.columnNames := by
        rcases List.mem_pair.mp hname with rfl | rfl
        · exact mem_columnNames h.source
        · exact mem_columnNames h.target
      simpa using hmem
  unfold edgesOf
  rw [if_neg (not_not.mpr hmissing), h.source, h.target]
  simp only [mapM_some, zipStrict, List.length_map, ↓reduceIte, List.zip_map', Prod.eta,
    List.map_id']

/-- **`community.assign` computes connected components** of every table of edges, loops and
    duplicates included, and it does not see in which order the edges are or how they point. -/
theorem communityAssign_components {table : ArrowTable} (h : Carries table edges) :
    ∃ rows, communityAssign table = .ok rows ∧ Components edges rows ∧
      ∀ {table' edges'}, Carries table' edges' → Rearranged edges edges' →
        communityAssign table' = .ok rows := by
  obtain ⟨rows, hrows, hspec⟩ := components_spec edges
  refine ⟨rows, by simp only [communityAssign, edgesOf_carries h, hrows], hspec,
    fun {table' edges'} h' hrearranged => ?_⟩
  obtain ⟨rows', hrows', hspec'⟩ := components_spec edges'
  rw [(hspec.rearranged hrearranged).unique hspec']
  simp only [communityAssign, edgesOf_carries h', hrows']

/-- A table of edges, with a third column. -/
def edgeTable (edges : List (PyStr × PyStr)) : ArrowTable where
  columns := [(PyStr.lit "weight", .other),
    (PyStr.lit "source", .string (edges.map fun e => some e.1)),
    (PyStr.lit "target", .string (edges.map fun e => some e.2))]

theorem carries_edgeTable (edges : List (PyStr × PyStr)) : Carries (edgeTable edges) edges :=
  ⟨rfl, rfl⟩

def smallEdges : List (PyStr × PyStr) :=
  [(PyStr.lit "c", PyStr.lit "b"), (PyStr.lit "d", PyStr.lit "d"), (PyStr.lit "b", PyStr.lit "a"),
    (PyStr.lit "b", PyStr.lit "c")]

theorem communityAssign_components_small : ∃ rows,
    communityAssign (edgeTable smallEdges) = .ok rows ∧ Components smallEdges rows ∧
      ∀ {table' edges'}, Carries table' edges' → Rearranged smallEdges edges' →
        communityAssign table' = .ok rows :=
  communityAssign_components (carries_edgeTable smallEdges)

example : communityAssign (edgeTable smallEdges) =
    .ok [(PyStr.lit "a", 0), (PyStr.lit "b", 0), (PyStr.lit "c", 0), (PyStr.lit "d", 1)] := by
  decide +kernel

end ControlPlane.Orchestration
