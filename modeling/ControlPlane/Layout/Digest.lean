/-
  THE DIGEST DETERMINES THE LAYOUT.

  What is hashed is the DOT text, the engine, the parameters of the policy and the version of
  Graphviz, with a NUL between them.  JSON escapes the NUL, so the parts can be told apart.  The text
  determines the ids of the nodes, which are what its strings denote, and the parameters name the
  graph class.  That is everything a response is made of (`respond_eq_of_digest`).
-/
import ControlPlane.Layout.Quoting

namespace ControlPlane.Layout

open Sorting

/-! ## Deployments -/

/-- The processes of a deployment.  They may run different versions of Graphviz. -/
structure Fleet (Process : Type) where
  runtime : Process → Runtime
  hexdigest : List UInt8 → PyStr
  repr : PyFloat → PyStr
  hexdigest_eq : ∀ p, (runtime p).hexdigest = hexdigest
  repr_eq : ∀ p, (runtime p).repr = repr
  graphviz_eq : ∀ p p', (runtime p).version = (runtime p').version →
    (runtime p).graphviz = (runtime p').graphviz

/-! ## What is hashed -/

theorem nul_not_mem_render {lines : List (List Piece)}
    (h : ∀ line ∈ lines, ∀ p ∈ line, p.Meets fun _ => True) : 0x00 ∉ render lines := by
  have hpiece : ∀ p : Piece, p.Meets (fun _ => True) → 0x00 ∉ p.text := by
    intro p hp
    cases p with
    | plain text => exact hp.2
    | quoted text => exact Json.nul_not_mem_quote text
  intro hnul
  obtain ⟨line, hline, hmem⟩ := List.mem_flatMap.mp hnul
  rcases List.mem_append.mp hmem with htext | hbreak
  · obtain ⟨piece, hpiece', hc⟩ := List.mem_flatMap.mp htext
    exact hpiece piece (h line hline piece hpiece') hc
  · exact absurd (List.mem_singleton.mp hbreak) (by decide)

theorem nul_not_mem_engine (selected : GraphClass) (count : Nat) :
    0x00 ∉ (policies selected).engineFor count := by
  have hengines : 0x00 ∉ (policies selected).engine ∧
      ∀ engine ∈ (policies selected).largeEngine, 0x00 ∉ engine := by
    cases selected <;> decide
  unfold LayoutPolicy.engineFor
  split
  · rename_i engine threshold hlarge hthreshold
    split
    · exact hengines.2 engine hlarge
    · exact hengines.1
  · exact hengines.1

/-- The parameters have no floats. -/
theorem floatsIn_policyParams (selected : GraphClass) (policy : LayoutPolicy)
    (focusId : Option PyStr) : Json.FloatsIn (fun _ => False) (policyParams selected policy focusId) := by
  have hfocus : Json.FloatsIn (fun _ => False) ((focusId.map Json.str).getD .null) := by
    cases focusId <;> exact fun _ h => absurd h List.not_mem_nil
  have hattrs : Json.FloatsIn (fun _ => False)
      (.obj (policy.graphAttrs.map fun a => (a.1, .str a.2))) := by
    rw [Json.floatsIn_fields]
    intro f hf
    obtain ⟨a, -, rfl⟩ := List.mem_map.mp hf
    exact fun _ h => absurd h List.not_mem_nil
  rw [policyParams, Json.floatsIn_fields]
  simp only [List.forall_mem_cons]
  exact ⟨fun _ h => absurd h List.not_mem_nil, hattrs, hfocus, fun _ h => absurd h List.not_mem_nil⟩

theorem reprLaws_false (repr : PyFloat → PyStr) : Json.ReprLaws (fun _ => False) repr :=
  ⟨fun _ h => h.elim, fun _ h => h.elim, fun _ _ h => h.elim, fun _ h => h.elim⟩

/-- The parts of a digest can be told apart. -/
theorem digestText_unique {r : Runtime} {dot dot' engine engine' version version' : PyStr}
    {params params' : Json} (hdot : 0x00 ∉ dot) (hdot' : 0x00 ∉ dot') (hengine : 0x00 ∉ engine)
    (hengine' : 0x00 ∉ engine') (hparams : Json.FloatsIn (fun _ => False) params)
    (hparams' : Json.FloatsIn (fun _ => False) params')
    (h : digestText r dot engine params version = digestText r dot' engine' params' version') :
    dot = dot' ∧ engine = engine' ∧ Json.Same params params' ∧ version = version' := by
  simp only [digestText, Readable.join, List.append_assoc, List.singleton_append] at h
  obtain ⟨hdots, h⟩ := Readable.cut_unique hdot hdot' h
  obtain ⟨hengines, h⟩ := Readable.cut_unique hengine hengine' h
  rw [Json.dumps_eq_write, Json.dumps_eq_write] at h
  obtain ⟨hsame, hversions⟩ := Json.write_readable (reprLaws_false r.repr) _
    (Json.floatsIn_sortKeys _ hparams) _ _ _ (Json.floatsIn_sortKeys _ hparams')
    (Json.ends_nul _) (Json.ends_nul _) h
  exact ⟨hdots, hengines, hsame, (List.cons.inj hversions).2⟩

/-- The parameters name the graph class. -/
theorem name_eq_of_same {selected selected' : GraphClass} {policy policy' : LayoutPolicy}
    {focusId focusId' : Option PyStr}
    (h : Json.Same (policyParams selected policy focusId) (policyParams selected' policy' focusId')) :
    selected.name = selected'.name := by
  simp only [Json.Same, policyParams, Json.sortKeys, Json.obj.injEq, Json.sortValues] at h
  have hclass := (congrArg (fun fields => (PyStr.lit "graph_class", Json.str selected.name) ∈ fields)
    h).mp ((List.mem_insertionSort _).mpr List.mem_cons_self)
  simp only [Json.sortFields, List.mem_insertionSort, List.mem_cons, List.not_mem_nil, or_false,
    Prod.mk.injEq, true_and] at hclass
  rcases hclass with hname | ⟨hkey, -⟩ | ⟨hkey, -⟩
  · exact Json.str.inj hname
  · exact absurd hkey (by decide)
  · exact absurd hkey (by decide)

/-! ## Ids -/

theorem denoteChar_read {c d : CodePoint} {r s : PyStr}
    (h : denoteChar c ++ r = denoteChar d ++ s) : c = d ∧ r = s := by
  unfold denoteChar at h
  split at h
  · rename_i hc
    split at h
    · rename_i hd
      exact ⟨hc.trans hd.symm, (List.cons.inj h).2⟩
    · exact absurd h.symm (Json.escape_ne_quote d s r)
  · split at h
    · exact absurd h (Json.escape_ne_quote c r s)
    · exact Json.escape_read h

/-- Different strings denote different strings. -/
theorem denote_injective : Function.Injective denote := by
  have hne : ∀ c, denoteChar c ≠ [] := by
    intro c hc
    have hlen := length_denoteChar c
    rw [hc] at hlen
    exact absurd hlen (by decide)
  exact fun a b h => Readable.flatMap_injective (fun c d r s _ _ => denoteChar_read) hne
    (fun _ _ => trivial) (fun _ _ => trivial) h

/-- The text of a graph determines the ids of its nodes. -/
theorem ids_eq_of_canonicalDot {lower lower' : PyStr → PyStr} {inches inches' : PyFloat → Decimal}
    {nodes nodes' : List LayoutNode} {edges edges' : List LayoutEdge}
    {selected selected' : GraphClass} {focusId focusId' : Option PyStr}
    (hvalid : WellFormed nodes edges) (hvalid' : WellFormed nodes' edges')
    (h : canonicalDot lower inches nodes edges (policies selected) focusId =
      canonicalDot lower' inches' nodes' edges' (policies selected') focusId') :
    sortedBy id (nodes.map LayoutNode.id) = sortedBy id (nodes'.map LayoutNode.id) := by
  have hlexemes := congrArg Graphviz.lex h
  rw [lex_canonicalDot rfl, lex_canonicalDot rfl, Option.some.injEq] at hlexemes
  have hdenoted : ∀ text, text ∈ (nodes.map LayoutNode.id).map denote ↔
      text ∈ (nodes'.map LayoutNode.id).map denote := by
    intro text
    have hmem := @mem_nodes_iff lower inches _ _ (policies selected)
      focusId hvalid text
    rw [hlexemes, mem_nodes_iff hvalid'] at hmem
    simpa using hmem.symm
  have hperm : (nodes.map LayoutNode.id).Perm (nodes'.map LayoutNode.id) := by
    refine (List.perm_ext_iff_of_nodup hvalid.nodup hvalid'.nodup).mpr fun id => ?_
    rw [← List.mem_map_of_injective denote_injective, hdenoted,
      List.mem_map_of_injective denote_injective]
  exact sortedBy_eq_of_perm hperm (by rw [List.map_id]; exact hvalid.nodup)

/-! ## The response -/

/-- What is known of a prepared request. -/
structure Prepares (r : Runtime) (body : LayoutRequest) (p : Prepared) : Prop where
  valid : WellFormed body.nodes body.edges
  policy : p.policy = policies p.graphClass
  engine : p.engine = p.policy.engineFor body.nodes.length
  dot : p.dot = canonicalDot r.lower r.inches body.nodes body.edges p.policy p.focusId
  digest : digestInput r p.dot p.engine (policyParams p.graphClass p.policy p.focusId) r.version =
    .ok p.digestHex
  nodeIds : p.nodeIds = sortedBy id (body.nodes.map LayoutNode.id)

theorem prepare_ok {r : Runtime} {body : LayoutRequest} {p : Prepared}
    (h : prepare r body = .ok p) : Prepares r body p := by
  unfold prepare at h
  cases hvalid : validateGraph body.nodes body.edges with
  | error e => rw [hvalid] at h; cases h
  | ok accepted =>
    cases hpolicy : resolvePolicy body.graphClass body.nodes body.edges body.params with
    | error e => rw [hvalid, hpolicy] at h; cases h
    | ok resolved =>
      obtain ⟨selected, policy, focusId⟩ := resolved
      cases hdigest : digestInput r (canonicalDot r.lower r.inches body.nodes body.edges policy
          focusId) (policy.engineFor body.nodes.length) (policyParams selected policy focusId)
          r.version with
      | error e =>
        rw [hvalid, hpolicy] at h
        simp only [bind, Except.bind, hdigest] at h
        cases h
      | ok digestHex =>
        rw [hvalid, hpolicy] at h
        simp only [bind, Except.bind, hdigest] at h
        cases h
        exact ⟨(validateGraph_ok hvalid).toWellFormed, (resolvePolicy_ok hpolicy).1, rfl, rfl,
          hdigest, rfl⟩

section Response

variable {Process : Type} {fleet : Fleet Process} (hhash : Function.Injective fleet.hexdigest)
  {p p' : Process} {body body' : LayoutRequest} {q q' : Prepared}
  (hq : prepare (fleet.runtime p) body = .ok q) (hq' : prepare (fleet.runtime p') body' = .ok q')

theorem digestInput_ok {r : Runtime} {dot engine version digestHex : PyStr} {params : Json}
    (h : digestInput r dot engine params version = .ok digestHex) :
    ∃ payload, (digestText r dot engine params version).encode = some payload ∧
      r.hexdigest payload = digestHex := by
  unfold digestInput at h
  split at h
  · cases h
  · rename_i payload hpayload
    exact ⟨payload, hpayload, Except.ok.inj h⟩

include hhash hq hq'

/-- **Requests with one digest have one response**, whoever computes it. -/
theorem respond_eq_of_digest (hdigest : q.digestHex = q'.digestHex) :
    respond (fleet.runtime p) q = respond (fleet.runtime p') q' := by
  have hprepares := prepare_ok hq
  have hprepares' := prepare_ok hq'
  obtain ⟨payload, hpayload, hhex⟩ := digestInput_ok hprepares.digest
  obtain ⟨payload', hpayload', hhex'⟩ := digestInput_ok hprepares'.digest
  rw [fleet.hexdigest_eq] at hhex hhex'
  obtain rfl : payload = payload' := hhash (hhex.trans (hdigest.trans hhex'.symm))
  have hnul : ∀ {p : Process} {body : LayoutRequest} {q : Prepared},
      Prepares (fleet.runtime p) body q → 0x00 ∉ q.dot := by
    intro p body q h
    rw [h.dot]
    exact nul_not_mem_render (canonicalDot_meets h.policy)
  have hengine : ∀ {p : Process} {body : LayoutRequest} {q : Prepared},
      Prepares (fleet.runtime p) body q → 0x00 ∉ q.engine := by
    intro p body q h
    rw [h.engine, h.policy]
    exact nul_not_mem_engine _ _
  have htext := PyStr.encode_injective hpayload hpayload'
  have hrepr : (fleet.runtime p').repr = (fleet.runtime p).repr :=
    (fleet.repr_eq p').trans (fleet.repr_eq p).symm
  have hswap : digestText (fleet.runtime p') = digestText (fleet.runtime p) := by
    funext dot engine params version
    rw [digestText, digestText, hrepr]
  rw [hswap] at htext
  obtain ⟨hdot, hengines, hsame, hversion⟩ := digestText_unique (hnul hprepares)
    (hnul hprepares') (hengine hprepares) (hengine hprepares') (floatsIn_policyParams _ _ _)
    (floatsIn_policyParams _ _ _) htext
  have hids : q.nodeIds = q'.nodeIds := by
    have hdots := hdot
    rw [hprepares.dot, hprepares'.dot, hprepares.policy, hprepares'.policy] at hdots
    rw [hprepares.nodeIds, hprepares'.nodeIds,
      ids_eq_of_canonicalDot hprepares.valid hprepares'.valid hdots]
  have hresponse : response (fleet.runtime p) q = response (fleet.runtime p') q' := by
    funext positions
    rw [response, response, hengines, hversion, name_eq_of_same hsame, hdigest]
  have hworker : executeWorker (fleet.runtime p) q.dot q.engine q.nodeIds =
      executeWorker (fleet.runtime p') q'.dot q'.engine q'.nodeIds := by
    rw [executeWorker, executeWorker, fleet.graphviz_eq p p' hversion, hdot, hengines, hids]
  rw [respond, respond, hresponse, hworker, hrepr]

end Response

end ControlPlane.Layout
