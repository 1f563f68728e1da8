/-
  UNION-FIND with least roots: the connected components of a finite undirected graph.

  A dict maps every node that has been seen to its PARENT.  `find` climbs to the root and, on the way,
  hangs each node below its grandparent; `union` hangs the greater of two roots below the lesser.

  1. `Forest`: a parent is a node that has been seen and is never greater than its child.  So every
     climb ends, after fewer steps than there are lesser nodes, and a root is the least of its tree;
  2. `Root d x r`, `x` climbs to `r`, is all that is ever asked of a dict.  `find` changes no root
     (`climb_spec`), and linking two roots changes the roots of one tree (`root_link`);
  3. `Represents edges d`: nodes have one root exactly when the edges connect them;
  4. `Components edges rows`: the components, numbered by their least nodes.  Only one list of rows
     is that, and neither the order of the edges nor their direction matters.
-/
import ControlPlane.PyDict
import Mathlib.Order.Lattice
import Mathlib.Logic.Relation
import Mathlib.Data.List.Count

namespace ControlPlane.UnionFind

open PyDict (keys)

variable {α : Type} [LinearOrder α]

/-! ## The algorithm -/

/-- The loop of `find`.  `none` is a `KeyError`, or that the fuel is spent. -/
def climb : Nat → List (α × α) → α → Option (List (α × α) × α)
  | fuel, d, node => (d.lookup node).bind fun parent =>
      if parent = node then some (d, node)
      else match fuel with
        | 0 => none
        | fuel + 1 => (d.lookup parent).bind fun grand => climb fuel (PyDict.set d node grand) grand

/-- `find`: a node that is new is its own root. -/
def find (d : List (α × α)) (node : α) : Option (List (α × α) × α) :=
  climb (PyDict.setdefault d node node).length (PyDict.setdefault d node node) node

/-- The greater of two roots below the lesser. -/
def link (d : List (α × α)) (left right : α) : List (α × α) :=
  if left = right then d
  else if left < right then PyDict.set d right left else PyDict.set d left right

/-- `union`. -/
def union (d : List (α × α)) (left right : α) : Option (List (α × α)) :=
  (find d left).bind fun l => (find l.1 right).map fun r => link r.1 l.2 r.2

/-- `[find(node) for node in nodes]`. -/
def findAll (d : List (α × α)) : List α → Option (List (α × α) × List α)
  | [] => some (d, [])
  | node :: nodes => (find d node).bind fun r => (findAll r.1 nodes).map fun rest =>
      (rest.1, r.2 :: rest.2)

/-- `for left, right in edges: union(left, right)`. -/
def unionAll (d : List (α × α)) : List (α × α) → Option (List (α × α))
  | [] => some d
  | e :: edges => (union d e.1 e.2).bind fun d => unionAll d edges

/-! ## Forests -/

/-- Parents are nodes of the dict, and not greater than their children. -/
structure Forest (d : List (α × α)) : Prop where
  keyed : PyDict.Keyed d
  parent : ∀ {x p}, d.lookup x = some p → p ≤ x ∧ p ∈ keys d

/-- `x` climbs to `r`. -/
inductive Root (d : List (α × α)) : α → α → Prop
  | self {r : α} (h : d.lookup r = some r) : Root d r r
  | up {x p r : α} (h : d.lookup x = some p) (hne : p ≠ x) (hr : Root d p r) : Root d x r

variable {d d' : List (α × α)} {x y p r s g : α}

theorem Root.root (h : Root d x r) : d.lookup r = some r := by
  induction h with
  | self h => exact h
  | up _ _ _ ih => exact ih

theorem Root.mem_keys (h : Root d x r) : x ∈ keys d := by
  cases h with
  | self h => exact PyDict.mem_keys_of_lookup h
  | up h => exact PyDict.mem_keys_of_lookup h

theorem Root.unique (h : Root d x r) (h' : Root d x s) : r = s := by
  induction h with
  | self h =>
    cases h' with
    | self => rfl
    | up hup hne => exact absurd (Option.some.inj (hup.symm.trans h)) hne
  | up hup hne _ ih =>
    cases h' with
    | self hself => exact absurd (Option.some.inj (hup.symm.trans hself)) hne
    | up hup' _ hr' =>
      obtain rfl := Option.some.inj (hup.symm.trans hup')
      exact ih hr'

/-- One step of a climb, whether or not it is the last. -/
theorem Root.of_parent (h : d.lookup x = some p) (hr : Root d p r) : Root d x r := by
  rcases eq_or_ne p x with rfl | hne
  · exact hr
  · exact .up h hne hr

theorem Root.parent (h : Root d x r) (hp : d.lookup x = some p) : Root d p r := by
  cases h with
  | self hself =>
    obtain rfl := Option.some.inj (hp.symm.trans hself)
    exact .self hself
  | up hup _ hr =>
    obtain rfl := Option.some.inj (hp.symm.trans hup)
    exact hr

/-- A root is not greater than what climbs to it. -/
theorem Root.le (hd : Forest d) (h : Root d x r) : r ≤ x := by
  induction h with
  | self => exact le_refl _
  | up hup _ _ ih => exact ih.trans (hd.parent hup).1

/-- How many nodes are less than `x`. -/
def below (d : List (α × α)) (x : α) : Nat := (keys d).countP fun k => k < x

/-- Towards the root there are fewer and fewer lesser nodes. -/
theorem below_lt (hp : p ∈ keys d) (hlt : p < x) : below d p < below d x := by
  unfold below
  generalize keys d = nodes at hp
  induction nodes with
  | nil => cases hp
  | cons k nodes ih =>
    rw [List.countP_cons, List.countP_cons]
    rcases List.mem_cons.mp hp with rfl | hp
    · have hmono : nodes.countP (fun k => k < p) ≤ nodes.countP fun k => k < x :=
        List.countP_mono_left fun k _ hk =>
          decide_eq_true ((of_decide_eq_true hk).trans hlt)
      simp [hlt]
      omega
    · have hrest := ih hp
      by_cases hk : k < p
      · simp [hk, hk.trans hlt]
        omega
      · simp [hk]
        omega

theorem below_le_length : below d x ≤ d.length := by
  rw [below]
  exact List.countP_le_length.trans (by rw [keys, List.length_map])

/-! ## Climbing -/

/-- A node below its grandparent. -/
theorem Forest.halve (hd : Forest d) (hx : d.lookup x = some p) (hp : d.lookup p = some g) :
    Forest (PyDict.set d x g) := by
  have hmem : x ∈ keys d := PyDict.mem_keys_of_lookup hx
  refine ⟨hd.keyed.set x g, fun {y q} hq => ?_⟩
  rw [PyDict.lookup_set] at hq
  rw [PyDict.keys_set, if_pos hmem]
  split at hq
  · rename_i hy
    obtain rfl := Option.some.inj hq
    obtain ⟨hle, hg⟩ := hd.parent hp
    exact ⟨hy ▸ hle.trans (hd.parent hx).1, hg⟩
  · exact hd.parent hq

/-- It has no influence on the roots. -/
theorem root_halve (hd : Forest d) (hx : d.lookup x = some p) (hne : p ≠ x)
    (hp : d.lookup p = some g) : Root (PyDict.set d x g) y s ↔ Root d y s := by
  have hlt : p < x := lt_of_le_of_ne (hd.parent hx).1 hne
  have hgx : g ≠ x := ((hd.parent hp).1.trans_lt hlt).ne
  have hset : ∀ {k}, k ≠ x → (PyDict.set d x g).lookup k = d.lookup k := by
    intro k hk
    rw [PyDict.lookup_set, if_neg hk]
  have hat : (PyDict.set d x g).lookup x = some g := by rw [PyDict.lookup_set, if_pos rfl]
  constructor
  · intro h
    induction h with
    | @self r h =>
      have hr : r ≠ x := fun hr => hgx (Option.some.inj (hat.symm.trans (hr ▸ h)) |>.trans hr)
      rw [hset hr] at h
      exact .self h
    | @up y q r hup hne' _ ih =>
      rcases eq_or_ne y x with rfl | hy
      · obtain rfl := Option.some.inj (hat.symm.trans hup)
        exact .of_parent hx (.of_parent hp ih)
      · rw [hset hy] at hup
        exact .up hup hne' ih
  · intro h
    induction h with
    | @self r h =>
      have hr : r ≠ x := fun hr => hne (Option.some.inj (hx.symm.trans (hr ▸ h)) |>.trans hr)
      exact .self ((hset hr).trans h)
    | @up y q r hup hne' _ ih =>
      rcases eq_or_ne y x with rfl | hy
      · obtain rfl := Option.some.inj (hx.symm.trans hup)
        exact .of_parent hat (ih.parent ((hset hne).trans hp))
      · exact .up ((hset hy).trans hup) hne' ih

theorem climb_root {fuel : Nat} (h : d.lookup r = some r) : climb fuel d r = some (d, r) := by
  unfold climb
  rw [h, Option.bind_some, if_pos rfl]

/-- **A climb ends** at the root, after fewer steps than there are lesser nodes, and changes no root. -/
theorem climb_spec (fuel : Nat) : ∀ {d : List (α × α)} {x : α}, Forest d → x ∈ keys d →
    below d x ≤ fuel → ∃ d' r, climb fuel d x = some (d', r) ∧ Root d x r ∧ Forest d' ∧
      keys d' = keys d ∧ ∀ y s, Root d' y s ↔ Root d y s := by
  induction fuel with
  | zero =>
    intro d x hd hx hfuel
    obtain ⟨p, hp⟩ := PyDict.exists_lookup hx
    obtain ⟨hle, hmem⟩ := hd.parent hp
    rcases eq_or_ne p x with rfl | hne
    · exact ⟨d, p, climb_root hp, .self hp, hd, rfl, fun _ _ => Iff.rfl⟩
    · have := below_lt hmem (lt_of_le_of_ne hle hne)
      omega
  | succ fuel ih =>
    intro d x hd hx hfuel
    obtain ⟨p, hp⟩ := PyDict.exists_lookup hx
    obtain ⟨hle, hmem⟩ := hd.parent hp
    rcases eq_or_ne p x with rfl | hne
    · exact ⟨d, p, climb_root hp, .self hp, hd, rfl, fun _ _ => Iff.rfl⟩
    · obtain ⟨g, hg⟩ := PyDict.exists_lookup hmem
      obtain ⟨hle', hmem'⟩ := hd.parent hg
      have hkeys : keys (PyDict.set d x g) = keys d := by rw [PyDict.keys_set, if_pos hx]
      have hbelow : below (PyDict.set d x g) g ≤ fuel := by
        have := below_lt hmem' (hle'.trans_lt (lt_of_le_of_ne hle hne))
        rw [below, hkeys, ← below]
        omega
      obtain ⟨d', r, hclimb, hroot, hforest, hsame, hroots⟩ :=
        ih (hd.halve hp hg) (hkeys ▸ hmem') hbelow
      have hhalve := fun y s => root_halve (y := y) (s := s) hd hp hne hg
      refine ⟨d', r, ?_, ?_, hforest, hsame.trans hkeys, fun y s => (hroots y s).trans (hhalve y s)⟩
      · rw [climb, hp]
        simp [hne, hg, hclimb]
      · exact .of_parent hp (.of_parent hg ((hhalve _ _).mp hroot))

/-- Every node climbs to a root. -/
theorem Forest.exists_root (hd : Forest d) (hx : x ∈ keys d) : ∃ r, Root d x r := by
  obtain ⟨-, r, -, hr, -⟩ := climb_spec _ hd hx le_rfl
  exact ⟨r, hr⟩

/-! ## Finding -/

theorem forest_setdefault (hd : Forest d) (x : α) : Forest (PyDict.setdefault d x x) := by
  refine ⟨hd.keyed.setdefault x x, fun {y q} hq => ?_⟩
  rw [PyDict.lookup_setdefault] at hq
  rw [PyDict.mem_keys_setdefault]
  split at hq
  · rename_i hy
    obtain rfl := Option.some.inj hq
    exact ⟨hy.1.ge, .inl rfl⟩
  · exact ⟨(hd.parent hq).1, .inr (hd.parent hq).2⟩

/-- A new node is alone. -/
theorem root_setdefault (hd : Forest d) : Root (PyDict.setdefault d x x) y s ↔
    Root d y s ∨ x ∉ keys d ∧ y = x ∧ s = x := by
  by_cases hx : x ∈ keys d
  · simp [PyDict.setdefault, hx]
  have hset : ∀ {k}, k ≠ x → (PyDict.setdefault d x x).lookup k = d.lookup k := by
    intro k hk
    rw [PyDict.lookup_setdefault, if_neg fun h => hk h.1]
  have hat : (PyDict.setdefault d x x).lookup x = some x := by
    rw [PyDict.lookup_setdefault, if_pos ⟨rfl, hx⟩]
  constructor
  · intro h
    induction h with
    | @self r h =>
      rcases eq_or_ne r x with rfl | hr
      · exact .inr ⟨hx, rfl, rfl⟩
      · exact .inl (.self ((hset hr).symm.trans h))
    | @up y q r hup hne _ ih =>
      have hy : y ≠ x := fun hy => hne (Option.some.inj (hup.symm.trans (hy ▸ hat)) |>.trans hy.symm)
      rw [hset hy] at hup
      rcases ih with hroot | ⟨-, rfl, -⟩
      · exact .inl (.up hup hne hroot)
      · exact absurd (hd.parent hup).2 hx
  · rintro (h | ⟨-, rfl, rfl⟩)
    · induction h with
      | self h => exact .self ((hset fun hk => hx (hk ▸ PyDict.mem_keys_of_lookup h)).trans h)
      | up hup hne _ ih =>
        exact .up ((hset fun hk => hx (hk ▸ PyDict.mem_keys_of_lookup hup)).trans hup) hne ih
    · exact .self hat

/-- What `find` returns and leaves. -/
theorem find_spec (hd : Forest d) (x : α) : ∃ d' r, find d x = some (d', r) ∧ Root d' x r ∧
    Forest d' ∧ (∀ k, k ∈ keys d' ↔ k = x ∨ k ∈ keys d) ∧
    ∀ y s, Root d' y s ↔ Root d y s ∨ x ∉ keys d ∧ y = x ∧ s = x := by
  obtain ⟨d', r, hclimb, hroot, hforest, hkeys, hroots⟩ :=
    climb_spec _ (forest_setdefault hd x) (PyDict.mem_keys_setdefault.mpr (.inl rfl)) below_le_length
  refine ⟨d', r, hclimb, (hroots x r).mpr hroot, hforest, fun k => ?_, fun y s => ?_⟩
  · rw [hkeys, PyDict.mem_keys_setdefault]
  · rw [hroots, root_setdefault hd]

/-- Of a node that is there. -/
theorem find_known (hd : Forest d) (hx : x ∈ keys d) : ∃ d' r, find d x = some (d', r) ∧
    Root d x r ∧ Forest d' ∧ (∀ k, k ∈ keys d' ↔ k ∈ keys d) ∧ ∀ y s, Root d' y s ↔ Root d y s := by
  obtain ⟨d', r, hfind, hroot, hforest, hkeys, hroots⟩ := find_spec hd x
  have hsame : ∀ y s, Root d' y s ↔ Root d y s := fun y s => by simp [hroots, hx]
  refine ⟨d', r, hfind, (hsame x r).mp hroot, hforest, fun k => ?_, hsame⟩
  rw [hkeys]
  exact ⟨fun h => h.elim (fun h => h ▸ hx) id, Or.inr⟩

/-- Node by node, `find` returns the roots. -/
theorem findAll_spec {nodes : List α} : ∀ {d : List (α × α)}, Forest d →
    (∀ x ∈ nodes, x ∈ keys d) → ∃ d' found, findAll d nodes = some (d', found) ∧
      List.Forall₂ (Root d) nodes found ∧ Forest d' ∧ (∀ k, k ∈ keys d' ↔ k ∈ keys d) ∧
      ∀ y s, Root d' y s ↔ Root d y s := by
  induction nodes with
  | nil => exact fun hd _ => ⟨_, [], rfl, .nil, hd, fun _ => Iff.rfl, fun _ _ => Iff.rfl⟩
  | cons x nodes ih =>
    intro d hd hknown
    obtain ⟨d₁, r, hfind, hroot, hforest, hkeys, hroots⟩ := find_known hd (hknown x List.mem_cons_self)
    obtain ⟨d₂, found, hrest, hall, hforest', hkeys', hroots'⟩ :=
      ih hforest fun y hy => (hkeys y).mpr (hknown y (List.mem_cons_of_mem _ hy))
    refine ⟨d₂, r :: found, by simp [findAll, hfind, hrest], .cons hroot ?_, hforest',
      fun k => (hkeys' k).trans (hkeys k), fun y s => (hroots' y s).trans (hroots y s)⟩
    exact hall.imp fun y s h => (hroots y s).mp h

/-! ## Linking -/

/-- What climbed to a root climbs to where the root was hung. -/
theorem root_hung {t : α} (hr : d.lookup r = some r) (hend : Root (PyDict.set d r s) r t)
    (h : Root d y r) : Root (PyDict.set d r s) y t := by
  induction h with
  | self => exact hend
  | @up y q r hup hne _ ih =>
    have hy : y ≠ r := by
      rintro rfl
      exact hne (Option.some.inj (hup.symm.trans hr))
    refine .up ?_ hne (ih hr hend)
    rw [PyDict.lookup_set, if_neg hy]
    exact hup

/-- The tree of the greater root, below the lesser. -/
theorem root_set (hr : d.lookup r = some r) (hs : d.lookup s = some s) (hlt : s < r) {t : α} :
    Root (PyDict.set d r s) y t ↔ Root d y r ∧ t = s ∨ Root d y t ∧ t ≠ r := by
  have hset : ∀ {k}, k ≠ r → (PyDict.set d r s).lookup k = d.lookup k := by
    intro k hk
    rw [PyDict.lookup_set, if_neg hk]
  have hat : (PyDict.set d r s).lookup r = some s := by rw [PyDict.lookup_set, if_pos rfl]
  have hchild : ∀ {k q}, d.lookup k = some q → q ≠ k → k ≠ r := by
    rintro k q hk hne rfl
    exact hne (Option.some.inj (hk.symm.trans hr))
  constructor
  · intro h
    induction h with
    | @self t h =>
      have ht : t ≠ r := by
        rintro rfl
        exact hlt.ne (Option.some.inj (hat.symm.trans h))
      exact .inr ⟨.self ((hset ht).symm.trans h), ht⟩
    | @up y q t hup hne _ ih =>
      rcases eq_or_ne y r with rfl | hy
      · -- the root that was hung below the other
        obtain rfl := Option.some.inj (hat.symm.trans hup)
        rcases ih with ⟨hroot, -⟩ | ⟨hroot, -⟩
        · exact absurd ((Root.self hs).unique hroot) hlt.ne
        · exact .inl ⟨.self hr, (hroot.unique (.self hs))⟩
      · rw [hset hy] at hup
        rcases ih with ⟨hroot, rfl⟩ | ⟨hroot, ht⟩
        · exact .inl ⟨.up hup hne hroot, rfl⟩
        · exact .inr ⟨.up hup hne hroot, ht⟩
  · rintro (⟨h, rfl⟩ | ⟨h, ht⟩)
    · have hend : Root (PyDict.set d r t) r t := .up hat hlt.ne (.self ((hset hlt.ne).trans hs))
      exact root_hung hr hend h
    · induction h with
      | self h => exact .self ((hset ht).trans h)
      | up hup hne _ ih => exact .up ((hset (hchild hup hne)).trans hup) hne (ih ht)

theorem forest_set (hd : Forest d) (hr : d.lookup r = some r) (hs : d.lookup s = some s)
    (hlt : s < r) : Forest (PyDict.set d r s) := by
  have hmem : r ∈ keys d := PyDict.mem_keys_of_lookup hr
  refine ⟨hd.keyed.set r s, fun {y q} hq => ?_⟩
  rw [PyDict.lookup_set] at hq
  rw [PyDict.keys_set, if_pos hmem]
  split at hq
  · rename_i hy
    obtain rfl := Option.some.inj hq
    exact ⟨hy ▸ hlt.le, PyDict.mem_keys_of_lookup hs⟩
  · exact hd.parent hq

/-- Two trees become one, and the lesser root is its root. -/
theorem link_spec {l : α} (hd : Forest d) (hl : d.lookup l = some l) (hr : d.lookup r = some r) :
    Forest (link d l r) ∧ keys (link d l r) = keys d ∧ ∀ y t, Root (link d l r) y t ↔
      t = min l r ∧ (Root d y l ∨ Root d y r) ∨ t ≠ l ∧ t ≠ r ∧ Root d y t := by
  unfold link
  split
  · rename_i heq
    subst heq
    refine ⟨hd, rfl, fun y t => ?_⟩
    rw [min_self, or_self]
    rcases eq_or_ne t l with rfl | ht
    · simp
    · simp [ht]
  · rename_i hne
    split
    · rename_i hlt
      refine ⟨forest_set hd hr hl hlt, by
        rw [PyDict.keys_set, if_pos (PyDict.mem_keys_of_lookup hr)], fun y t => ?_⟩
      rw [root_set hr hl hlt, min_eq_left hlt.le]
      constructor
      · rintro (⟨h, rfl⟩ | ⟨h, ht⟩)
        · exact .inl ⟨rfl, .inr h⟩
        · rcases eq_or_ne t l with rfl | htl
          · exact .inl ⟨rfl, .inl h⟩
          · exact .inr ⟨htl, ht, h⟩
      · rintro (⟨rfl, h | h⟩ | ⟨-, ht, h⟩)
        · exact .inr ⟨h, hne⟩
        · exact .inl ⟨h, rfl⟩
        · exact .inr ⟨h, ht⟩
    · rename_i hge
      have hlt : r < l := lt_of_le_of_ne (not_lt.mp hge) (Ne.symm hne)
      refine ⟨forest_set hd hl hr hlt, by
        rw [PyDict.keys_set, if_pos (PyDict.mem_keys_of_lookup hl)], fun y t => ?_⟩
      rw [root_set hl hr hlt, min_eq_right hlt.le]
      constructor
      · rintro (⟨h, rfl⟩ | ⟨h, ht⟩)
        · exact .inl ⟨rfl, .inl h⟩
        · rcases eq_or_ne t r with rfl | htr
          · exact .inl ⟨rfl, .inr h⟩
          · exact .inr ⟨ht, htr, h⟩
      · rintro (⟨rfl, h | h⟩ | ⟨ht, -, h⟩)
        · exact .inl ⟨h, rfl⟩
        · exact .inr ⟨h, Ne.symm hne⟩
        · exact .inr ⟨h, ht⟩

/-! ## Components -/

/-- The edges connect two nodes, in either direction and over any number of steps. -/
def Connected (edges : List (α × α)) : α → α → Prop :=
  Relation.EqvGen fun x y => (x, y) ∈ edges

/-- The node is an end of an edge. -/
def Endpoint (edges : List (α × α)) (x : α) : Prop := ∃ e ∈ edges, x = e.1 ∨ x = e.2

variable {edges more : List (α × α)}

omit [LinearOrder α] in
theorem Connected.mono (h : Connected edges x y) (hsub : edges ⊆ more) : Connected more x y :=
  Relation.EqvGen.mono (fun _ _ he => hsub he) _ _ h

/-- The dict has the nodes of the edges, and nodes have one root exactly when they are connected. -/
structure Represents (edges d : List (α × α)) : Prop where
  forest : Forest d
  nodes : ∀ x, x ∈ keys d ↔ Endpoint edges x
  sound : ∀ {x r}, Root d x r → Connected edges x r
  joined : ∀ e ∈ edges, ∃ r, Root d e.1 r ∧ Root d e.2 r

theorem represents_nil : Represents ([] : List (α × α)) [] where
  forest := ⟨PyDict.keyed_nil, fun h => by cases h⟩
  nodes x := iff_of_false List.not_mem_nil fun ⟨_, he, _⟩ => List.not_mem_nil he
  sound h := absurd h.mem_keys List.not_mem_nil
  joined _ he := absurd he List.not_mem_nil

/-- What is connected is one node, or shares its root. -/
theorem Represents.shared (h : Represents edges d) (hxy : Connected edges x y) :
    x = y ∨ ∃ r, Root d x r ∧ Root d y r := by
  induction hxy with
  | rel x y he => exact .inr (h.joined (x, y) he)
  | refl x => exact .inl rfl
  | symm x y _ ih =>
    rcases ih with rfl | ⟨r, hx, hy⟩
    · exact .inl rfl
    · exact .inr ⟨r, hy, hx⟩
  | trans x y z _ _ ih ih' =>
    rcases ih with rfl | ⟨r, hx, hy⟩
    · exact ih'
    · rcases ih' with rfl | ⟨s, hy', hz⟩
      · exact .inr ⟨r, hx, hy⟩
      · exact .inr ⟨r, hx, hy.unique hy' ▸ hz⟩

/-- **Roots tell components apart.** -/
theorem Represents.root_eq_iff (h : Represents edges d) (hx : Root d x r) (hy : Root d y s) :
    r = s ↔ Connected edges x y := by
  constructor
  · rintro rfl
    exact (h.sound hx).trans _ _ _ (.symm _ _ (h.sound hy))
  · intro hxy
    rcases h.shared hxy with rfl | ⟨t, hx', hy'⟩
    · exact hx.unique hy
    · exact (hx.unique hx').trans (hy'.unique hy)

/-- The root of a node is the least node of its component. -/
theorem Represents.root_le (h : Represents edges d) (hx : Root d x r) (hxy : Connected edges x y) :
    r ≤ y := by
  rcases h.shared hxy with rfl | ⟨s, hx', hy⟩
  · exact hx.le h.forest
  · rw [hx.unique hx']
    exact hy.le h.forest

/-- One edge more. -/
theorem Represents.union (h : Represents edges d) (e : α × α) :
    ∃ d', union d e.1 e.2 = some d' ∧ Represents (edges ++ [e]) d' := by
  obtain ⟨d₁, l, hleft, hl, hforest₁, hkeys₁, hroots₁⟩ := find_spec h.forest e.1
  obtain ⟨d₂, r, hright, hr, hforest₂, hkeys₂, hroots₂⟩ := find_spec hforest₁ e.2
  have hl₂ : Root d₂ e.1 l := (hroots₂ _ _).mpr (.inl hl)
  obtain ⟨hforest, hkeys, hroots⟩ := link_spec hforest₂ hl₂.root hr.root
  have hsub : edges ⊆ edges ++ [e] := List.subset_append_left _ _
  have hedge : Connected (edges ++ [e]) e.1 e.2 :=
    .rel _ _ (List.mem_append_right _ (List.mem_singleton.mpr rfl))
  have hsound : ∀ {x s}, Root d₂ x s → Connected (edges ++ [e]) x s := by
    intro x s hxs
    rcases (hroots₂ x s).mp hxs with hxs | ⟨-, rfl, rfl⟩
    · rcases (hroots₁ x s).mp hxs with hxs | ⟨-, rfl, rfl⟩
      · exact (h.sound hxs).mono hsub
      · exact .refl _
    · exact .refl _
  have hold : ∀ {x s}, Root d x s → Root d₂ x s := fun hxs =>
    (hroots₂ _ _).mpr (.inl ((hroots₁ _ _).mpr (.inl hxs)))
  refine ⟨link d₂ l r, by simp [UnionFind.union, hleft, hright], hforest, fun x => ?_,
    fun {x t} hx => ?_, fun e' he' => ?_⟩
  · rw [hkeys, hkeys₂, hkeys₁, h.nodes]
    constructor
    · rintro (rfl | rfl | ⟨e', he', hx⟩)
      · exact ⟨e, by simp, .inr rfl⟩
      · exact ⟨e, by simp, .inl rfl⟩
      · exact ⟨e', List.mem_append_left _ he', hx⟩
    · rintro ⟨e', he', hx⟩
      rcases List.mem_append.mp he' with he' | he'
      · exact .inr (.inr ⟨e', he', hx⟩)
      · obtain rfl := List.mem_singleton.mp he'
        exact hx.elim (fun hx => .inr (.inl hx)) .inl
  · -- both trees are connected by the new edge, in either direction
    have hlr : Connected (edges ++ [e]) l r :=
      (Relation.EqvGen.symm _ _ (hsound hl₂)).trans _ _ _ (hedge.trans _ _ _ (hsound hr))
    rcases (hroots x t).mp hx with ⟨rfl, hx | hx⟩ | ⟨-, -, hx⟩
    · rcases le_total l r with hle | hle
      · rw [min_eq_left hle]
        exact hsound hx
      · rw [min_eq_right hle]
        exact (hsound hx).trans _ _ _ hlr
    · rcases le_total l r with hle | hle
      · rw [min_eq_left hle]
        exact (hsound hx).trans _ _ _ (.symm _ _ hlr)
      · rw [min_eq_right hle]
        exact hsound hx
    · exact hsound hx
  · rcases List.mem_append.mp he' with he' | he'
    · obtain ⟨s, hs, hs'⟩ := h.joined e' he'
      by_cases hlink : s = l ∨ s = r
      · refine ⟨min l r, (hroots _ _).mpr (.inl ⟨rfl, ?_⟩), (hroots _ _).mpr (.inl ⟨rfl, ?_⟩)⟩
        · exact hlink.imp (fun hsl : s = l => hsl ▸ hold hs) fun hsr : s = r => hsr ▸ hold hs
        · exact hlink.imp (fun hsl : s = l => hsl ▸ hold hs') fun hsr : s = r => hsr ▸ hold hs'
      · obtain ⟨hsl, hsr⟩ := not_or.mp hlink
        exact ⟨s, (hroots _ _).mpr (.inr ⟨hsl, hsr, hold hs⟩),
          (hroots _ _).mpr (.inr ⟨hsl, hsr, hold hs'⟩)⟩
    · obtain rfl := List.mem_singleton.mp he'
      exact ⟨min l r, (hroots _ _).mpr (.inl ⟨rfl, .inl hl₂⟩), (hroots _ _).mpr (.inl ⟨rfl, .inr hr⟩)⟩

/-- **All edges**, one after the other. -/
theorem Represents.unionAll : ∀ {more : List (α × α)} {edges d : List (α × α)},
    Represents edges d → ∃ d', unionAll d more = some d' ∧ Represents (edges ++ more) d'
  | [], edges, d, h => ⟨d, rfl, by rwa [List.append_nil]⟩
  | e :: more, edges, d, h => by
    obtain ⟨d₁, hunion, h₁⟩ := h.union e
    obtain ⟨d₂, hall, h₂⟩ := @Represents.unionAll more _ _ h₁
    refine ⟨d₂, by simp [UnionFind.unionAll, hunion, hall], ?_⟩
    rwa [List.append_assoc] at h₂

/-! ## Numbered components -/

/-- The least node of its component. -/
def Least (edges : List (α × α)) (r : α) : Prop :=
  Endpoint edges r ∧ ∀ y, Connected edges r y → r ≤ y

theorem Represents.root_least (h : Represents edges d) (hx : Root d x r) : Least edges r :=
  ⟨(h.nodes r).mp (PyDict.mem_keys_of_lookup hx.root), fun _ hy =>
    h.root_le hx ((h.sound hx).trans _ _ _ hy)⟩

/-- The least node of a component is its own root. -/
theorem Represents.least_root (h : Represents edges d) (hr : Least edges r) : Root d r r := by
  obtain ⟨s, hs⟩ := h.forest.exists_root ((h.nodes r).mpr hr.1)
  have heq : s = r := le_antisymm (hs.le h.forest) (hr.2 s (h.sound hs))
  rwa [heq] at hs

/-- What numbering the components is to return: the nodes in order, and for each the place of its
    component among the components, which are in the order of their least nodes. -/
structure Components (edges : List (α × α)) (rows : List (α × Nat)) : Prop where
  nodes : ∀ x, x ∈ rows.map Prod.fst ↔ Endpoint edges x
  sorted : (rows.map Prod.fst).Pairwise (· < ·)
  connected : ∀ row ∈ rows, ∀ row' ∈ rows, row.2 = row'.2 ↔ Connected edges row.1 row'.1
  numbered : ∃ least : List α, least.Pairwise (· < ·) ∧ (∀ r, r ∈ least ↔ Least edges r) ∧
    ∀ row ∈ rows, ∃ r, least[row.2]? = some r ∧ Connected edges row.1 r

/-- Strictly sorted lists are equal when they have the same members. -/
theorem eq_of_sorted {xs ys : List α} (hxs : xs.Pairwise (· < ·)) (hys : ys.Pairwise (· < ·))
    (h : ∀ x, x ∈ xs ↔ x ∈ ys) : xs = ys := by
  have hperm : xs.Perm ys :=
    (List.perm_ext_iff_of_nodup (hxs.imp ne_of_lt) (hys.imp ne_of_lt)).mpr h
  exact hperm.eq_of_pairwise (fun _ _ _ _ hab hba => absurd hba (lt_asymm hab)) hxs hys

/-- **Only one list** numbers the components. -/
theorem Components.unique {rows rows' : List (α × Nat)} (h : Components edges rows)
    (h' : Components edges rows') : rows = rows' := by
  obtain ⟨least, hsorted, hleast, hnumber⟩ := h.numbered
  obtain ⟨least', hsorted', hleast', hnumber'⟩ := h'.numbered
  obtain rfl : least = least' :=
    eq_of_sorted hsorted hsorted' fun r => (hleast r).trans (hleast' r).symm
  have hnodes : rows.map Prod.fst = rows'.map Prod.fst :=
    eq_of_sorted h.sorted h'.sorted fun x => (h.nodes x).trans (h'.nodes x).symm
  have hids : ∀ row ∈ rows, ∀ row' ∈ rows', row.1 = row'.1 → row.2 = row'.2 := by
    intro row hrow row' hrow' heq
    obtain ⟨r, hr, hconn⟩ := hnumber row hrow
    obtain ⟨s, hs, hconn'⟩ := hnumber' row' hrow'
    have hrs : Connected edges r s := (hconn.symm _ _).trans _ _ _ (heq ▸ hconn')
    have hr' : Least edges r := (hleast r).mp (List.mem_of_getElem? hr)
    have hs' : Least edges s := (hleast s).mp (List.mem_of_getElem? hs)
    obtain rfl : r = s := le_antisymm (hr'.2 s hrs) (hs'.2 r (hrs.symm _ _))
    obtain ⟨hi, hget⟩ := List.getElem?_eq_some_iff.mp hr
    exact (List.Nodup.getElem_inj_iff (hsorted.imp ne_of_lt)).mp
      (hget.trans (List.getElem?_eq_some_iff.mp hs).2.symm)
  clear h h' hnumber hnumber' hsorted hsorted'
  induction rows generalizing rows' with
  | nil => exact (List.map_eq_nil_iff.mp hnodes.symm).symm
  | cons row rows ih =>
    cases rows' with
    | nil => cases hnodes
    | cons row' rows' =>
      obtain ⟨hfst, hrest⟩ := List.cons.inj hnodes
      have hrow : row = row' :=
        Prod.ext hfst (hids row List.mem_cons_self row' List.mem_cons_self hfst)
      rw [hrow, ih hrest fun a ha b hb =>
        hids a (List.mem_cons_of_mem _ ha) b (List.mem_cons_of_mem _ hb)]

/-! ## The order of the edges -/

/-- The same edges in another order, any of them with its ends swapped. -/
def Rearranged (edges edges' : List (α × α)) : Prop :=
  ∃ swapped, List.Forall₂ (fun e e' => e' = e ∨ e' = e.swap) edges swapped ∧ swapped.Perm edges'

omit [LinearOrder α] in
theorem Rearranged.mem {edges' : List (α × α)} (h : Rearranged edges edges') {e : α × α} :
    e ∈ edges ∨ e.swap ∈ edges ↔ e ∈ edges' ∨ e.swap ∈ edges' := by
  obtain ⟨swapped, hswap, hperm⟩ := h
  rw [← hperm.mem_iff, ← hperm.mem_iff]
  clear hperm
  induction hswap with
  | nil => exact Iff.rfl
  | @cons a b edges swapped hab _ ih =>
    have hhead : e = a ∨ e.swap = a ↔ e = b ∨ e.swap = b := by
      rcases hab with rfl | rfl
      · exact Iff.rfl
      · constructor
        · rintro (rfl | rfl)
          · exact .inr rfl
          · exact .inl (Prod.swap_swap e).symm
        · rintro (rfl | h)
          · exact .inr (Prod.swap_swap a)
          · exact .inl (Prod.swap_inj.mp h)
    rw [List.mem_cons, List.mem_cons, List.mem_cons, List.mem_cons, or_or_or_comm,
      or_or_or_comm (a := e = b)]
    exact or_congr hhead ih

omit [LinearOrder α] in
theorem connected_of_swap (h : (x, y) ∈ edges ∨ (y, x) ∈ edges) : Connected edges x y :=
  h.elim (fun h => .rel _ _ h) fun h => .symm _ _ (.rel _ _ h)

omit [LinearOrder α] in
theorem Rearranged.connected {edges' : List (α × α)} (h : Rearranged edges edges') :
    Connected edges x y ↔ Connected edges' x y := by
  constructor
  · intro hxy
    induction hxy with
    | rel x y he => exact connected_of_swap (h.mem.mp (.inl he))
    | refl x => exact .refl x
    | symm x y _ ih => exact ih.symm
    | trans x y z _ _ ih ih' => exact ih.trans _ _ _ ih'
  · intro hxy
    induction hxy with
    | rel x y he => exact connected_of_swap (h.mem.mpr (.inl he))
    | refl x => exact .refl x
    | symm x y _ ih => exact ih.symm
    | trans x y z _ _ ih ih' => exact ih.trans _ _ _ ih'

omit [LinearOrder α] in
theorem endpoint_iff : Endpoint edges x ↔ ∃ y, (x, y) ∈ edges ∨ (y, x) ∈ edges := by
  constructor
  · rintro ⟨⟨a, b⟩, he, rfl | rfl⟩
    · exact ⟨b, .inl he⟩
    · exact ⟨a, .inr he⟩
  · rintro ⟨y, he | he⟩
    · exact ⟨_, he, .inl rfl⟩
    · exact ⟨_, he, .inr rfl⟩

omit [LinearOrder α] in
theorem Rearranged.endpoint {edges' : List (α × α)} (h : Rearranged edges edges') :
    Endpoint edges x ↔ Endpoint edges' x := by
  rw [endpoint_iff, endpoint_iff]
  exact exists_congr fun y => h.mem (e := (x, y))

theorem Rearranged.least {edges' : List (α × α)} (h : Rearranged edges edges') :
    Least edges r ↔ Least edges' r :=
  and_congr h.endpoint (forall_congr' fun _ => imp_congr_left h.connected)

/-- **No influence** on the components. -/
theorem Components.rearranged {edges' : List (α × α)} {rows : List (α × Nat)}
    (hrows : Components edges rows) (h : Rearranged edges edges') : Components edges' rows where
  nodes x := (hrows.nodes x).trans h.endpoint
  sorted := hrows.sorted
  connected row hrow row' hrow' := (hrows.connected row hrow row' hrow').trans h.connected
  numbered := by
    obtain ⟨least, hsorted, hleast, hnumber⟩ := hrows.numbered
    refine ⟨least, hsorted, fun r => (hleast r).trans h.least, fun row hrow => ?_⟩
    obtain ⟨r, hr, hconn⟩ := hnumber row hrow
    exact ⟨r, hr, h.connected.mp hconn⟩

end ControlPlane.UnionFind
