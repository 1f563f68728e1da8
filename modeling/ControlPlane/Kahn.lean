/-
  KAHN'S ALGORITHM: is a finite graph free of cycles?

  For every vertex the loop keeps the number of its incoming edges that are LEFT to follow, and it
  keeps a queue of vertices that have none.  It takes the first vertex of the queue, follows its
  edges, and lets every vertex that has none left join at the end.  The graph has no cycle exactly
  when every vertex gets its turn.

  1. `relax_spec`: what following the edges of one vertex does;
  2. `Progress`: what holds whenever the loop looks at its queue.  The vertices done and the vertices
     waiting are those with no edge left, and none of them lies behind a cycle;
  3. `drain_spec`, by induction on the fuel, then `drain_all_iff`.
-/
import Mathlib.Data.List.Perm.Subperm
import Mathlib.Logic.Function.Basic
import Mathlib.Algebra.BigOperators.Group.List.Basic
import Mathlib.Algebra.GroupWithZero.Nat
import Mathlib.Data.Fintype.Card
import Mathlib.Data.Set.Finite.List

namespace ControlPlane.Kahn

variable {α : Type} [DecidableEq α]

/-! ## The loop -/

/-- The edges of one vertex, followed one after the other. -/
def relax (degree : α → Int) (queue : List α) : List α → (α → Int) × List α
  | [] => (degree, queue)
  | t :: ts =>
      relax (Function.update degree t (degree t - 1))
        (if degree t - 1 = 0 then queue ++ [t] else queue) ts

/-- How many vertices leave the queue. -/
def drain (out : α → List α) : Nat → (α → Int) → List α → Nat → Nat
  | _, _, [], visited => visited
  | 0, _, _ :: _, visited => visited
  | fuel + 1, degree, v :: queue, visited =>
      let (degree, queue) := relax degree queue (out v)
      drain out fuel degree queue (visited + 1)

/-- As long as no edge is followed twice, the vertices that join are those whose last edges these
    are, each once. -/
theorem relax_spec (ts : List α) : ∀ (degree : α → Int) (queue : List α),
    (∀ v, (ts.count v : Int) ≤ degree v) → ∃ joined,
      relax degree queue ts = (fun v => degree v - ts.count v, queue ++ joined) ∧ joined.Nodup ∧
        ∀ v, v ∈ joined ↔ v ∈ ts ∧ degree v = ts.count v := by
  induction ts with
  | nil =>
    intro degree queue _
    exact ⟨[], by simp [relax], List.nodup_nil, by simp⟩
  | cons t ts ih =>
    intro degree queue hle
    have hcount : ∀ v, ((t :: ts).count v : Int) = ts.count v + if v = t then 1 else 0 := by
      intro v
      rw [List.count_cons]
      rcases eq_or_ne v t with rfl | hne
      · simp
      · simp [hne, hne.symm]
    have hle' : ∀ v, (ts.count v : Int) ≤ Function.update degree t (degree t - 1) v := by
      intro v
      have hv := hle v
      rw [hcount] at hv
      rcases eq_or_ne v t with rfl | hne
      · rw [Function.update_self]
        rw [if_pos rfl] at hv
        omega
      · rw [Function.update_of_ne hne]
        rw [if_neg hne] at hv
        omega
    have hdegree : (fun v => Function.update degree t (degree t - 1) v - (ts.count v : Int)) =
        fun v => degree v - ((t :: ts).count v : Int) := by
      funext v
      rw [hcount]
      rcases eq_or_ne v t with rfl | hne
      · rw [Function.update_self, if_pos rfl]
        omega
      · rw [Function.update_of_ne hne, if_neg hne]
        omega
    have ht := hle t
    rw [hcount, if_pos rfl] at ht
    by_cases hzero : degree t - 1 = 0
    · -- the last edge into `t`: it joins here, and nowhere in `ts`
      have hnot : t ∉ ts := fun hmem => by
        have := List.count_pos_iff.mpr hmem
        omega
      obtain ⟨joined, hrelax, hnodup, hmem⟩ := ih _ (queue ++ [t]) hle'
      refine ⟨t :: joined, ?_, ?_, ?_⟩
      · rw [relax, if_pos hzero, hrelax, hdegree, List.append_assoc]
        rfl
      · exact List.nodup_cons.mpr ⟨fun h => hnot ((hmem t).mp h).1, hnodup⟩
      · intro v
        rcases eq_or_ne v t with rfl | hne
        · refine iff_of_true List.mem_cons_self ⟨List.mem_cons_self, ?_⟩
          rw [hcount, if_pos rfl, List.count_eq_zero_of_not_mem hnot]
          omega
        · rw [List.mem_cons, List.mem_cons, hmem, Function.update_of_ne hne, hcount, if_neg hne]
          simp [hne]
    · obtain ⟨joined, hrelax, hnodup, hmem⟩ := ih _ queue hle'
      refine ⟨joined, ?_, hnodup, ?_⟩
      · rw [relax, if_neg hzero, hrelax, hdegree]
      · intro v
        rw [hmem]
        rcases eq_or_ne v t with rfl | hne
        · rw [Function.update_self, hcount, if_pos rfl]
          constructor
          · rintro ⟨-, h⟩
            exact ⟨List.mem_cons_self, by omega⟩
          · rintro ⟨-, h⟩
            exact ⟨List.count_pos_iff.mp (by omega), by omega⟩
        · rw [Function.update_of_ne hne, hcount, if_neg hne, List.mem_cons]
          simp [hne]

/-! ## Edges left -/

section Progress

variable (vertices : List α) (out : α → List α)

/-- How many edges into `v` come from vertices that are not done. -/
def left (done : List α) (v : α) : Nat :=
  ((vertices.filter fun u => u ∉ done).map fun u => (out u).count v).sum

/-- `u` has an edge to `v`. -/
def Edge (u v : α) : Prop := v ∈ out u

variable {vertices out} {done : List α} {v u : α}

/-- At first every edge is left. -/
theorem left_nil : left vertices out [] v =
    (vertices.map fun u => (out u).countP fun w => decide (w = v)).sum := by
  have hall : (vertices.filter fun u => u ∉ ([] : List α)) = vertices := by simp
  rw [left, hall]
  rfl

theorem left_eq_zero_iff :
    left vertices out done v = 0 ↔ ∀ u ∈ vertices, v ∈ out u → u ∈ done := by
  rw [left, List.sum_eq_zero_iff_forall_eq_nat]
  constructor
  · intro h u hu hout
    by_contra hdone
    have hzero := h _ (List.mem_map.mpr ⟨u, List.mem_filter.mpr ⟨hu, by simpa using hdone⟩, rfl⟩)
    exact absurd (List.count_pos_iff.mpr hout) (by omega)
  · intro h n hn
    obtain ⟨u, hu, rfl⟩ := List.mem_map.mp hn
    obtain ⟨hmem, hdone⟩ := List.mem_filter.mp hu
    exact List.count_eq_zero_of_not_mem fun hout => (of_decide_eq_true hdone) (h u hmem hout)

/-- When a vertex is done, its edges are no longer left. -/
theorem left_done (hvertices : vertices.Nodup) (hu : u ∈ vertices) (hdone : u ∉ done) :
    left vertices out done v = left vertices out (done ++ [u]) v + (out u).count v := by
  have hperm : (vertices.filter fun w => w ∉ done).Perm
      (u :: vertices.filter fun w => w ∉ done ++ [u]) := by
    refine (List.perm_ext_iff_of_nodup (hvertices.filter _) ?_).mpr fun w => ?_
    · refine List.nodup_cons.mpr ⟨fun hmem => ?_, hvertices.filter _⟩
      exact (of_decide_eq_true (List.mem_filter.mp hmem).2) (by simp)
    · rcases eq_or_ne w u with rfl | hne
      · simp [hu, hdone]
      · simp [hne]
  rw [left, (hperm.map _).sum_eq, List.map_cons, List.sum_cons, left, add_comm]

/-! ## What the loop keeps -/

variable (vertices out) in
/-- The vertices done, the degrees and the queue fit together. -/
structure Progress (done : List α) (degree : α → Int) (queue : List α) : Prop where
  nodup : (done ++ queue).Nodup
  known : ∀ v ∈ done ++ queue, v ∈ vertices
  degree : ∀ v, degree v = left vertices out done v
  ready : ∀ v ∈ vertices, v ∈ done ++ queue ↔ left vertices out done v = 0
  acc : ∀ v ∈ done ++ queue, Acc (Edge out) v

/-- When the queue is empty, the vertices done are those that lie behind no cycle. -/
theorem Progress.done_iff {degree : α → Int} (h : Progress vertices out done degree []) :
    v ∈ vertices → (v ∈ done ↔ Acc (Edge out) v) := by
  intro hv
  constructor
  · exact fun hmem => h.acc v (List.mem_append_left _ hmem)
  · intro hacc
    induction hacc with
    | intro v _ ih =>
      have hzero : left vertices out done v = 0 := left_eq_zero_iff.mpr fun u hu hedge =>
        ih u hedge hu
      have hmem := (h.ready v hv).mpr hzero
      rwa [List.append_nil] at hmem

variable (hvertices : vertices.Nodup) (hout : ∀ u v, v ∈ out u → u ∈ vertices ∧ v ∈ vertices)

include hvertices hout

theorem Progress.step {degree : α → Int} {queue : List α}
    (h : Progress vertices out done degree (u :: queue)) :
    Progress vertices out (done ++ [u]) (relax degree queue (out u)).1
      (relax degree queue (out u)).2 := by
  have hmove : done ++ u :: queue = done ++ [u] ++ queue := by simp
  have hu : u ∈ vertices := h.known u (by simp)
  have hdone : u ∉ done := fun hmem =>
    (List.nodup_append.mp h.nodup).2.2 u hmem u List.mem_cons_self rfl
  have hsplit : ∀ v, left vertices out done v =
      left vertices out (done ++ [u]) v + (out u).count v := fun v => left_done hvertices hu hdone
  obtain ⟨joined, hrelax, hnodup, hjoined⟩ := relax_spec (out u) degree queue fun v => by
    have := hsplit v
    rw [h.degree]
    omega
  rw [hrelax]
  -- a vertex that joins had edges left, the last of them from `u`
  have hlast : ∀ v, v ∈ joined ↔ v ∈ out u ∧ left vertices out (done ++ [u]) v = 0 := by
    intro v
    have := hsplit v
    rw [hjoined, h.degree]
    exact and_congr_right fun _ => by omega
  have hapart : ∀ v ∈ joined, v ∉ done ++ u :: queue := fun v hv hmem => by
    obtain ⟨hedge, -⟩ := (hlast v).mp hv
    have hzero := (h.ready v (hout u v hedge).2).mp hmem
    have := hsplit v
    have := List.count_pos_iff.mpr hedge
    omega
  refine ⟨?_, ?_, ?_, ?_, ?_⟩
  · rw [← List.append_assoc, ← hmove]
    exact List.nodup_append.mpr ⟨h.nodup, hnodup, fun a ha b hb hab => hapart b hb (hab ▸ ha)⟩
  · intro v hv
    rw [← List.append_assoc, ← hmove, List.mem_append] at hv
    rcases hv with hv | hv
    · exact h.known v hv
    · exact (hout u v ((hlast v).mp hv).1).2
  · intro v
    have := hsplit v
    show degree v - _ = _
    rw [h.degree]
    omega
  · intro v hv
    have := hsplit v
    rw [← List.append_assoc, ← hmove, List.mem_append, h.ready v hv, hlast]
    constructor
    · rintro (hzero | ⟨-, hzero⟩)
      · omega
      · exact hzero
    · intro hzero
      by_cases hedge : v ∈ out u
      · exact Or.inr ⟨hedge, hzero⟩
      · rw [List.count_eq_zero_of_not_mem hedge] at this
        exact Or.inl (by omega)
  · intro v hv
    rw [← List.append_assoc, ← hmove, List.mem_append] at hv
    rcases hv with hv | hv
    · exact h.acc v hv
    · -- all its edges come from vertices that are done
      obtain ⟨-, hzero⟩ := (hlast v).mp hv
      refine Acc.intro v fun w hw => h.acc w ?_
      rw [hmove]
      exact List.mem_append_left _ (left_eq_zero_iff.mp hzero w (hout w v hw).1 hw)

/-- With fuel for every vertex that is not done, the loop runs until its queue is empty. -/
theorem drain_spec (fuel : Nat) : ∀ {done : List α} {degree : α → Int} {queue : List α},
    Progress vertices out done degree queue → vertices.length ≤ fuel + done.length →
    ∃ done' degree', Progress vertices out done' degree' [] ∧
      drain out fuel degree queue done.length = done'.length := by
  induction fuel with
  | zero =>
    intro done degree queue h hfuel
    have hsub : (done ++ queue).length ≤ vertices.length :=
      (h.nodup.subperm fun v hv => h.known v hv).length_le
    rw [List.length_append] at hsub
    obtain rfl : queue = [] := List.eq_nil_of_length_eq_zero (by omega)
    exact ⟨done, degree, h, rfl⟩
  | succ fuel ih =>
    intro done degree queue h hfuel
    cases queue with
    | nil => exact ⟨done, degree, h, rfl⟩
    | cons u queue =>
      have hnext := h.step hvertices hout
      obtain ⟨done', degree', h', hdrain⟩ := ih hnext (by
        rw [List.length_append, List.length_singleton]
        omega)
      refine ⟨done', degree', h', ?_⟩
      rw [List.length_append, List.length_singleton] at hdrain
      exact hdrain

/-- **Kahn.**  Every vertex gets its turn exactly when no vertex lies behind a cycle.  Neither the
    order of the queue nor that of the edges matters. -/
theorem drain_all_iff {degree : α → Int} {queue : List α}
    (hdegree : ∀ v, degree v = left vertices out [] v)
    (hqueue : queue.Perm (vertices.filter fun v => degree v = 0)) :
    drain out vertices.length degree queue 0 = vertices.length ↔
      ∀ v ∈ vertices, Acc (Edge out) v := by
  have hmem : ∀ v, v ∈ queue ↔ v ∈ vertices ∧ left vertices out [] v = 0 := by
    intro v
    rw [hqueue.mem_iff, List.mem_filter, decide_eq_true_iff, hdegree, Int.natCast_eq_zero]
  have hstart : Progress vertices out [] degree queue := by
    refine ⟨hqueue.nodup_iff.mpr (hvertices.filter _), fun v hv => ((hmem v).mp hv).1, hdegree,
      fun v hv => ?_, fun v hv => ?_⟩
    · rw [List.nil_append, hmem]
      exact and_iff_right hv
    · have hzero := left_eq_zero_iff.mp ((hmem v).mp hv).2
      exact Acc.intro v fun u hu => absurd (hzero u (hout u v hu).1 hu) List.not_mem_nil
  obtain ⟨done, degree', h, hdrain⟩ := drain_spec hvertices hout vertices.length hstart (by omega)
  rw [List.length_nil] at hdrain
  have hdone : done.Nodup := by simpa using h.nodup
  have hsub : done ⊆ vertices := fun v hv => h.known v (List.mem_append_left _ hv)
  rw [hdrain]
  constructor
  · intro hlength v hv
    have hperm : done.Perm vertices :=
      (hdone.subperm hsub).perm_of_length_le (by omega)
    exact (h.done_iff hv).mp (hperm.mem_iff.mpr hv)
  · intro hacc
    have hsup : vertices ⊆ done := fun v hv => (h.done_iff hv).mpr (hacc v hv)
    have := (hvertices.subperm hsup).length_le
    have := (hdone.subperm hsub).length_le
    omega

end Progress

/-! ## Cycles -/

theorem not_acc_of_loop {α : Type} {r : α → α → Prop} {v : α} (hloop : r v v) : ¬ Acc r v := by
  intro hacc
  induction hacc with
  | intro v _ ih => exact ih v hloop hloop

omit [DecidableEq α] in
/-- **Among finitely many vertices** none lies behind a cycle exactly when there is no cycle. -/
theorem acc_iff_acyclic {r : α → α → Prop} {vertices : List α}
    (hends : ∀ u v, r u v → u ∈ vertices ∧ v ∈ vertices) :
    (∀ v ∈ vertices, Acc r v) ↔ ∀ v, ¬ Relation.TransGen r v v := by
  constructor
  · intro hacc v hcycle
    obtain ⟨u, hvu, -⟩ := Relation.TransGen.head'_iff.mp hcycle
    exact not_acc_of_loop hcycle (hacc v (hends v u hvu).1).transGen
  · intro hacyclic v hv
    -- a path that never returns is a well-founded order of the vertices
    let before : {v // v ∈ vertices} → {v // v ∈ vertices} → Prop :=
      fun u v => Relation.TransGen r u.1 v.1
    have : IsTrans _ before := ⟨fun _ _ _ => Relation.TransGen.trans⟩
    have : Std.Irrefl before := ⟨fun v => hacyclic v.1⟩
    have : Finite {v // v ∈ vertices} := vertices.finite_toSet
    have hwf : WellFounded before := Finite.wellFounded_of_trans_of_irrefl before
    suffices h : ∀ v : {v // v ∈ vertices}, Acc r v.1 from h ⟨v, hv⟩
    intro v
    induction v using hwf.induction with
    | _ v ih =>
      exact Acc.intro _ fun u hu => ih ⟨u, (hends u v hu).1⟩ (.single hu)

end ControlPlane.Kahn
