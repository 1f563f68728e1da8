/-
  KEYS ISOLATE tenants, purposes and objects.

  1. The segments that a constructor writes are made of name characters, so a key falls apart into
     just these; only `_incoming_key` takes its last part as it comes (`splitOn_key`).
  2. A key is accepted for its tenant exactly when it is CONFINED (`accepted_iff`): the allow-list of
     artifact names lets the dot segment `..` through, which `validate_key` refuses.
  3. Two constructions of one key agree on tenant and purpose, and then, segment by segment, on what
     identifies the object (`identity_of_key`).
-/
import ControlPlane.Orchestration.Keys

namespace ControlPlane.Keys

open PyStr

namespace Construction

variable {store : Store} {c : Construction} {k : PyStr}

/-! ## Taking keys apart -/

theorem arrow_name : (lit ".arrow").all isNameChar = true := by decide

/-- The segments that a constructor writes are made of name characters. -/
theorem front_name (h : c.Admitted) : ∀ s ∈ c.front store, s.all isNameChar = true := by
  have hsegments : ∀ s ∈ c.segments store, s.all isNameChar = true := by
    cases c with
    | input t u => exact fun s hs => absurd hs List.not_mem_nil
    | output t o => exact fun s hs => absurd hs List.not_mem_nil
    | web t s payload m kind =>
      have hkinds : ∀ kind ∈ [lit "raw", lit "text", lit "captures"], kind.all isNameChar = true := by
        decide
      rw [segments, List.forall_mem_singleton]
      exact hkinds kind h
    | render t d ext => exact fun s hs => absurd hs List.not_mem_nil
    | rlContent t r name d =>
      rw [segments, List.forall_mem_cons, List.forall_mem_singleton]
      exact ⟨r.str_name, h.2.1⟩
    | rlIncoming t r name =>
      rw [segments, List.forall_mem_cons, List.forall_mem_singleton]
      exact ⟨r.str_name, by decide⟩
    | competence t p cand kind d =>
      have hkinds : ∀ kind ∈ [lit "scorer_model", lit "prior_pack"], kind.all isNameChar = true := by
        decide
      rw [segments, List.forall_mem_cons, List.forall_mem_cons, List.forall_mem_cons,
        List.forall_mem_singleton]
      exact ⟨p.str_name, by decide, name_of_hex (store.hex64 _).2, hkinds kind h.2.1⟩
    | shardInput t j p i =>
      rw [segments, List.forall_mem_cons, List.forall_mem_cons, List.forall_mem_singleton]
      exact ⟨j.str_name, by decide, p.str_name⟩
  rw [front, List.forall_mem_cons, List.forall_mem_cons, List.forall_mem_cons]
  exact ⟨by decide, c.tenantId.str_name, c.area.text_name, hsegments⟩

/-- The last part comes from outside. -/
def Foreign : Construction → Prop
  | rlIncoming .. => True
  | _ => False

theorem last_name (h : c.Admitted) (hc : ¬ c.Foreign) : (c.last store).all isNameChar = true := by
  cases c with
  | input t u => exact name_append u.str_name arrow_name
  | output t o => exact name_append (name_of_hex (store.hex64 _).2) arrow_name
  | web t s payload m kind => exact name_of_hex (store.hex64 _).2
  | render t d ext =>
    have hexts : ∀ ext ∈ [lit "png", lit "svg"], (lit "." ++ ext).all isNameChar = true := by decide
    exact name_append (name_of_hex (digest_hex h.1).2) (hexts ext h.2)
  | rlContent t r name d => exact name_of_hex (digest_hex h.2.2).2
  | rlIncoming t r name => exact absurd trivial hc
  | competence t p cand kind d => exact name_of_hex (digest_hex h.2.2).2
  | shardInput t j p i => exact name_append (nat_name i) arrow_name

/-- The slashes of a key are those that its constructor writes, and those of a foreign name. -/
theorem splitOn_key (h : c.Admitted) : (path (c.front store) (c.last store)).splitOn slash =
    c.front store ++ (c.last store).splitOn slash :=
  splitOn_path fun s hs => (not_mem_of_name (front_name h s hs)).1

theorem splitOn_last (h : c.Admitted) (hc : ¬ c.Foreign) :
    (c.last store).splitOn slash = [c.last store] :=
  List.splitOn_eq_singleton (not_mem_of_name (last_name h hc)).1

end Construction

/-! ## Which keys are accepted -/

section Accepted

variable {t t' : Uuid} {key : PyStr}

theorem validateKey_ok_iff : validateKey t key = .ok key ↔
    key.length ≤ 512 ∧ backslash ∉ key ∧ lit ".." ∉ key.splitOn slash ∧ tenantPrefix t <+: key := by
  unfold validateKey refuse
  split
  · rename_i hnil
    refine iff_of_false (by simp) ?_
    rintro ⟨-, -, -, hprefix⟩
    rw [hnil, List.prefix_nil] at hprefix
    exact absurd (congrArg List.length hprefix) (by
      rw [tenantPrefix, List.length_append]
      simp [lit])
  split
  · rename_i hmalformed
    refine iff_of_false (by simp) ?_
    rintro ⟨hlen, hback, hdots, -⟩
    rcases hmalformed with h | h | h
    · omega
    · exact hback h
    · exact hdots h
  · rename_i hformed
    rw [not_or, not_or, Nat.not_lt] at hformed
    split
    · rename_i houtside
      exact iff_of_false (by simp) fun h => houtside h.2.2.2
    · rename_i hinside
      exact iff_of_true rfl ⟨hformed.1, hformed.2.1, hformed.2.2, Decidable.not_not.mp hinside⟩

/-- **At most one tenant's.** -/
theorem one_tenant (h : validateKey t key = .ok key) (h' : validateKey t' key = .ok key) : t = t' := by
  obtain ⟨-, -, -, hprefix⟩ := validateKey_ok_iff.mp h
  obtain ⟨-, -, -, hprefix'⟩ := validateKey_ok_iff.mp h'
  have hlen : (tenantPrefix t).length = (tenantPrefix t').length := by
    simp only [tenantPrefix, List.length_append, Uuid.str_length]
  have heq : tenantPrefix t = tenantPrefix t' :=
    (List.prefix_of_prefix_length_le hprefix hprefix' hlen.le).eq_of_length hlen
  exact Uuid.str_inj (List.append_cancel_left (List.append_cancel_right heq))

end Accepted

namespace Construction

variable {store : Store} {c c' : Construction} {k : PyStr}

/-- No argument takes the key out of what `validate_key` accepts: an artifact name that is no dot
    segment, an incoming name without dot segments and backslashes, and nothing that is too long. -/
def Confined : Construction → Prop
  | rlContent _ _ artifactName _ => artifactName ≠ lit ".."
  | rlIncoming _ _ name =>
      name.length ≤ 418 ∧ backslash ∉ name ∧ lit ".." ∉ name.splitOn slash
  | shardInput _ _ _ index => (lit (toString index)).length ≤ 373
  | _ => True

theorem ne_dots {s : PyStr} (h : 2 < s.length) : lit ".." ≠ s := by
  rintro rfl
  exact absurd h (by decide)

theorem str_ne_dots (u : Uuid) : lit ".." ≠ u.str := ne_dots (by rw [u.str_length]; decide)

theorem dots_mem_front : lit ".." ∈ c.front store ↔ lit ".." ∈ c.segments store := by
  have htenants : lit ".." ≠ lit "tenants" := by decide
  have harea : lit ".." ≠ c.area.text := by cases c.area <;> decide
  simp only [front, List.mem_cons, htenants, str_ne_dots, harea, false_or]

theorem last_length (h : c.Admitted) (hc : ¬ c.Foreign) : 2 < (c.last store).length := by
  have harrow : (lit ".arrow").length = 6 := by decide
  have hhex (raw : List UInt8) := (store.hex64 raw).1
  cases c with
  | input t u => rw [last, List.length_append]; omega
  | output t o => rw [last, List.length_append]; omega
  | web t s payload m kind => rw [last, hhex]; decide
  | render t d ext => rw [last, List.length_append, (digest_hex h.1).1]; omega
  | rlContent t r name d => rw [last, (digest_hex h.2.2).1]; decide
  | rlIncoming t r name => exact absurd trivial hc
  | competence t p cand kind d => rw [last, (digest_hex h.2.2).1]; decide
  | shardInput t j p i => rw [last, List.length_append]; omega

/-- The length of a key: 45 for the tenant's prefix, and what is behind it. -/
theorem length_key : (path (c.front store) (c.last store)).length = 45 + (c.area.text.length + 1) +
    ((c.segments store).map fun s => s.length + 1).sum + (c.last store).length := by
  have htenants : (lit "tenants").length = 7 := by decide
  rw [length_path, front, List.map_cons, List.map_cons, List.map_cons, List.sum_cons, List.sum_cons,
    List.sum_cons, htenants, Uuid.str_length]
  omega

theorem tenantPrefix_prefix : tenantPrefix c.tenantId <+: path (c.front store) (c.last store) := by
  refine ⟨path (c.area.text :: c.segments store) (c.last store), ?_⟩
  simp only [tenantPrefix, List.append_assoc]
  rfl

theorem accepted_path_iff (h : c.Admitted) :
    validateKey c.tenantId (path (c.front store) (c.last store)) =
        .ok (path (c.front store) (c.last store)) ↔
      (path (c.front store) (c.last store)).length ≤ 512 ∧ backslash ∉ c.last store ∧
        lit ".." ∉ c.segments store ∧ lit ".." ∉ (c.last store).splitOn slash := by
  have hback : ¬ ∃ s ∈ c.front store, backslash ∈ s := by
    rintro ⟨s, hs, hmem⟩
    exact (not_mem_of_name (front_name h s hs)).2 hmem
  rw [validateKey_ok_iff, splitOn_key h, List.mem_append, not_or, dots_mem_front,
    mem_path (by decide), not_or, and_iff_right hback, and_iff_left tenantPrefix_prefix]

/-- With a last part of its own, a key only has to be short and without dot segments. -/
theorem accepted_own_iff (h : c.Admitted) (hc : ¬ c.Foreign) :
    validateKey c.tenantId (path (c.front store) (c.last store)) =
        .ok (path (c.front store) (c.last store)) ↔
      (path (c.front store) (c.last store)).length ≤ 512 ∧ lit ".." ∉ c.segments store := by
  have hback := (not_mem_of_name (@last_name store _ h hc)).2
  have hdots := ne_dots (@last_length store _ h hc)
  rw [accepted_path_iff h, splitOn_last h hc, List.mem_singleton, and_iff_right hback,
    and_iff_left hdots]

/-- **Accepted exactly when confined.** -/
theorem accepted_iff (h : c.key store = .ok k) :
    validateKey c.tenantId k = .ok k ↔ c.Confined := by
  obtain ⟨hc, rfl⟩ := key_path h
  have hhex (raw : List UInt8) := (store.hex64 raw).1
  have harrow : (lit ".arrow").length = 6 := by decide
  cases c with
  | input t u =>
    rw [accepted_own_iff hc id, length_key]
    refine iff_of_true ⟨?_, List.not_mem_nil⟩ trivial
    simp only [area, Area.text, segments, last, List.length_append, Uuid.str_length, harrow]
    decide
  | output t o =>
    rw [accepted_own_iff hc id, length_key]
    refine iff_of_true ⟨?_, List.not_mem_nil⟩ trivial
    simp only [area, Area.text, segments, last, List.length_append, hhex, harrow]
    decide
  | web t s payload m kind =>
    have hkinds : ∀ kind ∈ [lit "raw", lit "text", lit "captures"],
        kind.length ≤ 8 ∧ lit ".." ≠ kind := by decide
    obtain ⟨hlen, hdots⟩ := hkinds kind hc
    have harea : Area.web.text.length = 3 := by decide
    rw [accepted_own_iff hc id, length_key]
    refine iff_of_true ⟨?_, ?_⟩ trivial
    · simp only [area, harea, segments, last, hhex, List.map_cons, List.map_nil, List.sum_cons,
        List.sum_nil]
      omega
    · rwa [segments, List.mem_singleton]
  | render t d ext =>
    have hexts : ∀ ext ∈ [lit "png", lit "svg"], (lit "." ++ ext).length = 4 := by decide
    rw [accepted_own_iff hc id, length_key]
    refine iff_of_true ⟨?_, List.not_mem_nil⟩ trivial
    simp only [area, Area.text, segments, last, @List.length_append _ (d.drop 7),
      (digest_hex hc.1).1, hexts ext hc.2]
    decide
  | rlContent t r name d =>
    have harea : Area.rl.text.length = 2 := by decide
    have hname := hc.1
    rw [accepted_own_iff hc id, length_key]
    simp only [area, harea, segments, last, (digest_hex hc.2.2).1, List.map_cons, List.map_nil,
      List.sum_cons, List.sum_nil, Uuid.str_length, List.mem_cons, str_ne_dots, false_or,
      List.not_mem_nil, or_false, Confined]
    rw [and_iff_right (by omega), eq_comm]
  | rlIncoming t r name =>
    have harea : Area.rl.text.length = 2 := by decide
    have hincoming : (lit "incoming").length = 8 := by decide
    have hdots : lit ".." ≠ lit "incoming" := by decide
    rw [accepted_path_iff hc, length_key]
    simp only [area, harea, segments, last, List.map_cons, List.map_nil, List.sum_cons,
      List.sum_nil, Uuid.str_length, hincoming, List.mem_cons, str_ne_dots, hdots, or_self,
      List.not_mem_nil, not_false_eq_true, true_and, Confined]
    exact and_congr_left' (by omega)
  | competence t p cand kind d =>
    have hkinds : ∀ kind ∈ [lit "scorer_model", lit "prior_pack"],
        kind.length ≤ 12 ∧ lit ".." ≠ kind := by decide
    obtain ⟨hlen, hdots⟩ := hkinds kind hc.2.1
    have harea : Area.projects.text.length = 8 := by decide
    have hcompetence : (lit "competence").length = 10 := by decide
    have hdots' : lit ".." ≠ lit "competence" := by decide
    have hhash : lit ".." ≠ store.hexdigest (encoded cand) := ne_dots (by rw [hhex]; decide)
    rw [accepted_own_iff hc id, length_key]
    refine iff_of_true ⟨?_, ?_⟩ trivial
    · simp only [area, harea, segments, last, hhex, (digest_hex hc.2.2).1, List.map_cons,
        List.map_nil, List.sum_cons, List.sum_nil, Uuid.str_length, hcompetence]
      omega
    · simp [segments, str_ne_dots, hdots, hdots', hhash]
  | shardInput t j p i =>
    have harea : Area.extraction.text.length = 10 := by decide
    have hin : (lit "in").length = 2 := by decide
    have hdots : lit ".." ≠ lit "in" := by decide
    rw [accepted_own_iff hc id, length_key]
    simp only [area, harea, segments, last, List.length_append, harrow, List.map_cons, List.map_nil,
      List.sum_cons, List.sum_nil, Uuid.str_length, hin, List.mem_cons, str_ne_dots, hdots, or_self,
      List.not_mem_nil, not_false_eq_true, and_true, Confined]
    omega

/-- An incoming file has the name that the content of a digest gets as an artifact `incoming`. -/
def Shadows : Construction → Construction → Prop
  | rlContent t r artifactName payloadDigest, rlIncoming t' r' name =>
      t = t' ∧ r = r' ∧ artifactName = lit "incoming" ∧ payloadDigest.drop 7 = name
  | _, _ => False

/-- SHA-256 does not collide on what the two hash. -/
def CollisionFree (store : Store) (c c' : Construction) : Prop :=
  ∀ raw ∈ c.hashed, ∀ raw' ∈ c'.hashed, store.hexdigest raw = store.hexdigest raw' → raw = raw'

theorem path_cancel {front : List PyStr} {last last' : PyStr}
    (h : path front last = path front last') : last = last' := by
  induction front with
  | nil => exact h
  | cons s front ih => exact ih (List.cons.inj (List.append_cancel_left h)).2

/-- What two constructions of one key agree on. -/
theorem same_key (hc : c.Admitted) (hc' : c'.Admitted)
    (h : path (c.front store) (c.last store) = path (c'.front store) (c'.last store)) :
    c.tenantId = c'.tenantId ∧ c.area = c'.area ∧
      c.segments store ++ (c.last store).splitOn slash =
        c'.segments store ++ (c'.last store).splitOn slash := by
  have hsplit := congrArg (List.splitOn slash) h
  rw [splitOn_key hc, splitOn_key hc'] at hsplit
  obtain ⟨-, hsplit⟩ := List.cons.inj hsplit
  obtain ⟨htenant, hsplit⟩ := List.cons.inj hsplit
  obtain ⟨harea, hsplit⟩ := List.cons.inj hsplit
  exact ⟨Uuid.str_inj htenant, Area.text_inj harea, hsplit⟩

theorem arrow_cancel {s t : PyStr} (h : [s ++ lit ".arrow"] = [t ++ lit ".arrow"]) : s = t :=
  List.append_cancel_right (List.cons.inj h).1

/-- A file name with one of two extensions determines the name and the extension. -/
theorem extension_cancel {s t ext ext' : PyStr} (hs : s.length = 64) (ht : t.length = 64)
    (h : s ++ (lit "." ++ ext) = t ++ (lit "." ++ ext')) : s = t ∧ ext = ext' := by
  obtain ⟨hfront, hback⟩ := List.append_inj h (hs.trans ht.symm)
  exact ⟨hfront, List.append_cancel_left hback⟩

theorem shadows_of_path {t r t' r' : Uuid} {name d name' : PyStr}
    (hc : (rlContent t r name d).Admitted) (hc' : (rlIncoming t' r' name').Admitted)
    (h : path (front store (rlContent t r name d)) (last store (rlContent t r name d)) =
      path (front store (rlIncoming t' r' name')) (last store (rlIncoming t' r' name'))) :
    (rlContent t r name d).Shadows (rlIncoming t' r' name') := by
  obtain ⟨htenant, -, hsplit⟩ := same_key hc hc' h
  obtain ⟨hrun, hsplit⟩ := List.cons.inj hsplit
  obtain ⟨hname, -⟩ := List.cons.inj hsplit
  obtain rfl : t = t' := htenant
  obtain rfl := Uuid.str_inj hrun
  obtain rfl : name = lit "incoming" := hname
  exact ⟨rfl, rfl, rfl, path_cancel h⟩

/-- **One key, one object**: the same kind and the same identifying arguments, unless an incoming
    file shadows an artifact.  By cases on the area that the key names. -/
theorem identity_of_key (h : c.key store = .ok k) (h' : c'.key store = .ok k)
    (hfree : CollisionFree store c c') :
    c.identity = c'.identity ∨ c.Shadows c' ∨ c'.Shadows c := by
  obtain ⟨hc, hk⟩ := key_path h
  obtain ⟨hc', hk'⟩ := key_path h'
  have hpath := hk.symm.trans hk'
  obtain ⟨htenant, harea, hsplit⟩ := same_key hc hc' hpath
  cases c with
  | input t u =>
    cases c' with
    | input t' u' =>
      rw [splitOn_last hc id, splitOn_last hc' id] at hsplit
      rw [show t = t' from htenant, Uuid.str_inj (arrow_cancel hsplit)]
      exact Or.inl rfl
    | _ => cases harea
  | output t o =>
    cases c' with
    | output t' o' =>
      rw [splitOn_last hc id, splitOn_last hc' id] at hsplit
      have hraw := hfree _ List.mem_cons_self _ List.mem_cons_self (arrow_cancel hsplit)
      rw [show t = t' from htenant, encoded_inj hc hc' hraw]
      exact Or.inl rfl
    | _ => cases harea
  | web t s payload m kind =>
    cases c' with
    | web t' s' payload' m' kind' =>
      rw [splitOn_last hc id, splitOn_last hc' id] at hsplit
      obtain ⟨hkind, hlast⟩ := List.cons.inj hsplit
      have hraw := hfree _ List.mem_cons_self _ List.mem_cons_self (List.cons.inj hlast).1
      refine Or.inl ?_
      rw [identity, identity, show t = t' from htenant, show kind = kind' from hkind, hraw]
    | _ => cases harea
  | render t d ext =>
    cases c' with
    | render t' d' ext' =>
      rw [splitOn_last hc id, splitOn_last hc' id] at hsplit
      obtain ⟨hdigest, hext⟩ := extension_cancel (digest_hex hc.1).1 (digest_hex hc'.1).1
        (List.cons.inj hsplit).1
      rw [show t = t' from htenant, digest_inj hc.1 hc'.1 hdigest, hext]
      exact Or.inl rfl
    | _ => cases harea
  | rlContent t r name d =>
    cases c' with
    | rlContent t' r' name' d' =>
      rw [splitOn_last hc id, splitOn_last hc' id] at hsplit
      obtain ⟨hrun, hsplit⟩ := List.cons.inj hsplit
      obtain ⟨hname, hsplit⟩ := List.cons.inj hsplit
      rw [show t = t' from htenant, Uuid.str_inj hrun, show name = name' from hname,
        digest_inj hc.2.2 hc'.2.2 (List.cons.inj hsplit).1]
      exact Or.inl rfl
    | rlIncoming t' r' name' => exact Or.inr (Or.inl (shadows_of_path hc hc' hpath))
    | _ => cases harea
  | rlIncoming t r name =>
    cases c' with
    | rlContent t' r' name' d' => exact Or.inr (Or.inr (shadows_of_path hc' hc hpath.symm))
    | rlIncoming t' r' name' =>
      obtain ⟨hrun, -⟩ := List.cons.inj hsplit
      have hrun' := Uuid.str_inj hrun
      subst hrun'
      obtain rfl : t = t' := htenant
      rw [show name = name' from path_cancel hpath]
      exact Or.inl rfl
    | _ => cases harea
  | competence t p cand kind d =>
    cases c' with
    | competence t' p' cand' kind' d' =>
      rw [splitOn_last hc id, splitOn_last hc' id] at hsplit
      obtain ⟨hproject, hsplit⟩ := List.cons.inj hsplit
      obtain ⟨-, hsplit⟩ := List.cons.inj hsplit
      obtain ⟨hhash, hsplit⟩ := List.cons.inj hsplit
      obtain ⟨hkind, hsplit⟩ := List.cons.inj hsplit
      have hraw := hfree _ List.mem_cons_self _ List.mem_cons_self hhash
      rw [show t = t' from htenant, Uuid.str_inj hproject, encoded_inj hc.1 hc'.1 hraw,
        show kind = kind' from hkind, digest_inj hc.2.2 hc'.2.2 (List.cons.inj hsplit).1]
      exact Or.inl rfl
    | _ => cases harea
  | shardInput t j p i =>
    cases c' with
    | shardInput t' j' p' i' =>
      rw [splitOn_last hc id, splitOn_last hc' id] at hsplit
      obtain ⟨hjob, hsplit⟩ := List.cons.inj hsplit
      obtain ⟨-, hsplit⟩ := List.cons.inj hsplit
      obtain ⟨hplanning, hsplit⟩ := List.cons.inj hsplit
      have hindex := Json.nat_repr_injective (PyStr.lit_injective (arrow_cancel hsplit))
      rw [show t = t' from htenant, Uuid.str_inj hjob, Uuid.str_inj hplanning, hindex]
      exact Or.inl rfl
    | _ => cases harea

/-! ## Isolation -/

/-- What keys are for: no key is accepted for two tenants, the key built is accepted for the tenant
    it is built for, and what is built under the same key is the same object. -/
structure Isolated (c c' : Construction) (k k' : PyStr) : Prop where
  oneTenant : ∀ key t t', validateKey t key = .ok key → validateKey t' key = .ok key → t = t'
  own : validateKey c.tenantId k = .ok k
  sameObject : k = k' → c.identity = c'.identity

/-- A shadowed artifact has the key of the incoming file, and is no incoming file. -/
theorem Shadows.same {k' : PyStr} (hshadow : c.Shadows c') (h : c.key store = .ok k)
    (h' : c'.key store = .ok k') : k = k' ∧ c.identity ≠ c'.identity := by
  obtain ⟨-, rfl⟩ := key_path h
  obtain ⟨-, rfl⟩ := key_path h'
  cases c with
  | rlContent t r name d =>
    cases c' with
    | rlIncoming t' r' name' =>
      obtain ⟨rfl, rfl, rfl, rfl⟩ := hshadow
      exact ⟨rfl, by simp [identity]⟩
    | _ => cases hshadow
  | _ => cases hshadow

/-- **KEYS ISOLATE EXACTLY WHEN** the arguments are confined and neither construction is an incoming
    file under the name of a digest that shadows the other. -/
theorem keys_isolated {k' : PyStr} (h : c.key store = .ok k) (h' : c'.key store = .ok k')
    (hfree : CollisionFree store c c') :
    Isolated c c' k k' ↔ c.Confined ∧ ¬ c.Shadows c' ∧ ¬ c'.Shadows c := by
  constructor
  · intro hisolated
    refine ⟨(accepted_iff h).mp hisolated.own, fun hshadow => ?_, fun hshadow => ?_⟩
    · obtain ⟨hsame, hne⟩ := hshadow.same h h'
      exact hne (hisolated.sameObject hsame)
    · obtain ⟨hsame, hne⟩ := hshadow.same h' h
      exact hne (hisolated.sameObject hsame.symm).symm
  · rintro ⟨hconfined, hshadow, hshadow'⟩
    refine ⟨fun key t t' => one_tenant, (accepted_iff h).mpr hconfined, ?_⟩
    rintro rfl
    rcases identity_of_key h h' hfree with hsame | hsame | hsame
    · exact hsame
    · exact absurd hsame hshadow
    · exact absurd hsame hshadow'

def sampleTenant : Uuid := ⟨0x1b4e28ba2fa14d3fa0f3d5c7e9b18a42, by decide⟩

/-- The digests of the operation id `op-1` and of the payload `content`. -/
def sampleStore : Store where
  hexdigest raw :=
    if raw = encoded (lit "op-1") then
      lit "71a0ef7195df486543f63f0cb1dff83ee245c10fb566219b128a7fa99a8bbbac"
    else lit "ed7002b439e9ac845f22357d822bac1444730fbdb6016d3ec9432297b9ec9f73"
  hex64 raw := by split <;> decide
  maxBytes := 1024

theorem keys_isolated_output :
    ∃ k k', Isolated (output sampleTenant (lit "op-1"))
      (web sampleTenant (lit "capture:a") (encoded (lit "content")) (lit "text/plain") (lit "text"))
      k k' := by
  refine ⟨_, _, (@keys_isolated sampleStore _ _ _ _ rfl rfl ?_).mpr ⟨trivial, id, id⟩⟩
  intro raw hraw raw' hraw' heq
  obtain rfl := List.mem_singleton.mp hraw
  obtain rfl := List.mem_singleton.mp hraw'
  exact absurd heq (by decide)

/-- The artifact name `..` is allowed, and the key built with it is refused. -/
theorem dot_segment_refused : ∃ k,
    (rlContent sampleTenant sampleTenant (lit "..")
      (lit "sha256:ed7002b439e9ac845f22357d822bac1444730fbdb6016d3ec9432297b9ec9f73")).key
        sampleStore = .ok k ∧
      validateKey sampleTenant k =
        .error ⟨.artifactValidation, lit "artifact_key is malformed"⟩ := by
  exact ⟨_, rfl, rfl⟩

/-! ## The names of the training outputs -/

/-- The names that the training tasks pass to `_incoming_key`. -/
def incomingNames : List PyStr :=
  [lit "traces.jsonl", lit "reward_curve.csv", lit "eval_before.json", lit "eval_after.json",
    lit "prime_rl.toml"]

/-- They are confined and shadow no artifact. -/
theorem incomingNames_isolated {t r : Uuid} {name : PyStr} (hname : name ∈ incomingNames)
    (h : c.key store = .ok k) :
    (rlIncoming t r name).Confined ∧ ¬ c.Shadows (rlIncoming t r name) := by
  have hnames : ∀ name ∈ incomingNames,
      name.length ≤ 16 ∧ backslash ∉ name ∧ lit ".." ∉ name.splitOn slash := by decide
  obtain ⟨hlen, hconfined⟩ := hnames name hname
  refine ⟨⟨by omega, hconfined⟩, fun hshadow => ?_⟩
  cases c with
  | rlContent t' r' artifactName d =>
    obtain ⟨hc, -⟩ := key_path h
    have hdigest := (digest_hex hc.2.2).1
    rw [hshadow.2.2.2] at hdigest
    omega
  | _ => cases hshadow

end Construction

end ControlPlane.Keys
