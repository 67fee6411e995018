import K23VM.Proofs.RegistryCounts

/-!
# Hash-consing decides type equality

Two live collections give two types the same index of the engine exactly where the types are
iso-recursively equal.  One direction follows the references from a shared index down, the other
shows that equal groups have equal keys; both go by induction on the type in the first module.
-/

namespace K23VM

open TypeRegistryInner

/-- What hash-consing makes of a reference of the group `g`. -/
def canonicalRef (g : ℕ × ℕ) (map : List ℕ) :
    CanonicalizedTypeIndex → Except Fault CanonicalizedTypeIndex :=
  hashConsingIndex false g (mapIndex false map g)

theorem canonicalRef_inside {g : ℕ × ℕ} {map : List ℕ} {m : ℕ} (h : g.1 ≤ m) :
    canonicalRef g map (.module m) = .ok (.recGroup (m - g.1)) := by
  simp only [canonicalRef, hashConsingIndex, if_pos h, debugAssert_release]
  rfl

theorem canonicalRef_outside {g : ℕ × ℕ} {map : List ℕ} {m x : ℕ} (h : m < g.1)
    (hx : map[m]? = some x) : canonicalRef g map (.module m) = .ok (.shared x) := by
  simp only [canonicalRef, hashConsingIndex, if_neg (Nat.not_le.2 h), mapIndex,
    debugAssert_release, hx, unwrap_some]
  rfl

/-! ## Groups of a collection -/

theorem exists_range : ∀ {groups : List (ℕ × ℕ)} {start stop a : ℕ},
    Consecutive start groups stop → start ≤ a → a < stop → ∃ g ∈ groups, g.1 ≤ a ∧ a < g.2
  | [], _, _, _, rfl, hle, hlt => by omega
  | g :: groups, start, stop, a, ⟨hg, _, h⟩, hle, hlt => by
    by_cases ha : a < g.2
    · exact ⟨g, List.mem_cons_self, by omega, ha⟩
    · obtain ⟨g', hg', hle', hlt'⟩ := exists_range h (by omega) hlt
      exact ⟨g', List.mem_cons_of_mem _ hg', hle', hlt'⟩

section Group

variable {reg : TypeRegistryInner} {wasmTypes : List WasmSubType} {map : List ℕ} {g : ℕ × ℕ}
  {e : ℕ}

theorem GroupOk.getElem?_indices (h : GroupOk reg wasmTypes map g e) {p : ℕ}
    (hp : p < g.2 - g.1) : (reg.indices e)[p]? = map[g.1 + p]? := by
  rw [h.indices, List.getElem?_take_of_lt hp, List.getElem?_drop]

theorem GroupOk.length_indices (h : GroupOk reg wasmTypes map g e) :
    (reg.indices e).length = g.2 - g.1 := by
  have := h.le
  rw [h.indices, List.length_take, List.length_drop]
  omega

theorem groupTypes_getElem? {tys : List WasmSubType} (h : groupTypes wasmTypes g = .ok tys)
    {p : ℕ} (hp : p < g.2 - g.1) : ∃ t, wasmTypes[g.1 + p]? = some t ∧ tys[p]? = some t := by
  have hr : (List.range' g.1 (g.2 - g.1))[p]? = some (g.1 + p) := by
    simp [hp]
  obtain ⟨t, ht, hu⟩ := mapM_getElem? h hr
  exact ⟨t, unwrap_eq_ok.1 hu, ht⟩

/-- The key of a group's entry holds the canonical form of each of its types. -/
theorem GroupOk.key_getElem? (h : GroupOk reg wasmTypes map g e) {q : ℕ} (hq : q < g.2 - g.1) :
    ∃ t t', wasmTypes[g.1 + q]? = some t ∧ (reg.key e).types[q]? = some t'
      ∧ traceMut (canonicalRef g map) t = .ok t' := by
  obtain ⟨tys, htys, hk⟩ := h.key
  obtain ⟨t, ht, htq⟩ := groupTypes_getElem? htys hq
  obtain ⟨t', ht', hmut⟩ := mapM_getElem? (hashConsingKey_ok.1 hk) htq
  exact ⟨t, t', ht, ht', hmut⟩

theorem GroupOk.length_key (h : GroupOk reg wasmTypes map g e) :
    (reg.key e).types.length = g.2 - g.1 := by
  obtain ⟨tys, htys, hk⟩ := h.key
  rw [mapM_ok_length (hashConsingKey_ok.1 hk), groupTypes_length htys]

end Group

/-! ## Equality of types -/

/-- A collection of the registry and the module types it was made of. -/
structure LiveCollection (reg : TypeRegistryInner) (mt : ModuleTypes)
    (c : RuntimeTypeCollection) : Prop where
  wf : mt.WF
  ok : CollectionOk reg mt.wasmTypes mt.recGroups c.recGroups c.types
  length : c.types.length = mt.wasmTypes.length

section IsoEq

variable {reg : TypeRegistryInner} {roots zero : List ℕ} {A B : ModuleTypes}
  {cA cB : RuntimeTypeCollection}

theorem LiveCollection.exists_group (h : LiveCollection reg A cA) {a : ℕ}
    (ha : a < cA.types.length) : ∃ g ∈ A.recGroups, ∃ e, GroupOk reg A.wasmTypes cA.types g e
      ∧ g.1 ≤ a ∧ a < g.2 := by
  obtain ⟨g, hg, hle, hlt⟩ := exists_range h.ok.consecutive (Nat.zero_le a) ha
  obtain ⟨e, -, he⟩ := forall₂_exists h.ok.groups hg
  exact ⟨g, hg, e, he, hle, hlt⟩

/-- A reference of a group is to the group or to an earlier type, which has an index. -/
theorem LiveCollection.ref_cases (h : LiveCollection reg A cA) {g : ℕ × ℕ}
    (hg : g ∈ A.recGroups) {e : ℕ} (he : GroupOk reg A.wasmTypes cA.types g e) {q : ℕ}
    (hq : q < g.2 - g.1) {t : WasmSubType} (ht : A.wasmTypes[g.1 + q]? = some t)
    {r : CanonicalizedTypeIndex} (hr : r ∈ references t) : ∃ m, r = .module m ∧ (g.1 ≤ m ∨ m < g.1
      ∧ ∃ x, cA.types[m]? = some x) := by
  obtain ⟨m, rfl, hm⟩ := h.wf.refs g hg (g.1 + q) (by omega) (by omega) t ht r hr
  have hle := he.le
  refine ⟨m, rfl, ?_⟩
  by_cases hm' : g.1 ≤ m
  · exact .inl hm'
  · exact .inr ⟨by omega, _, List.getElem?_eq_getElem (by omega)⟩

/-- Groups that are held by one entry have the same shapes and the same references. -/
theorem GroupOk.refs_agree {wA wB : List WasmSubType} {mapA mapB : List ℕ} {ga gb : ℕ × ℕ} {e : ℕ}
    (ha : GroupOk reg wA mapA ga e) (hb : GroupOk reg wB mapB gb e) {q : ℕ}
    (hq : q < ga.2 - ga.1) {s t : WasmSubType} (hs : wA[ga.1 + q]? = some s)
    (ht : wB[gb.1 + q]? = some t) :
    SameShape s t ∧ ∀ (r : ℕ) x y, (references s)[r]? = some x → (references t)[r]? = some y →
      canonicalRef ga mapA x = canonicalRef gb mapB y := by
  have hlen : ga.2 - ga.1 = gb.2 - gb.1 := by
    rw [← ha.length_indices, hb.length_indices]
  obtain ⟨s₀, s', hs₀, hs', hmuts⟩ := ha.key_getElem? hq
  obtain ⟨t₀, t', ht₀, ht', hmutt⟩ := hb.key_getElem? (hlen ▸ hq)
  obtain rfl := Option.some_inj.1 (hs.symm.trans hs₀)
  obtain rfl := Option.some_inj.1 (ht.symm.trans ht₀)
  obtain ⟨hshape, hm⟩ := (traceMut_eq_iff hmuts hmutt).1 (Option.some_inj.1 (hs'.symm.trans ht'))
  refine ⟨hshape, fun r x y hx hy => ?_⟩
  have hl := mapM_references hmuts
  obtain ⟨x', hx', hfx⟩ := mapM_getElem? hl hx
  obtain ⟨y', hy', hfy⟩ := mapM_getElem? (hm.symm.trans hl) hy
  rw [hfx, hfy, Option.some_inj.1 (hx'.symm.trans hy')]

/-- Groups with the same shapes and the same references have the same key. -/
theorem GroupOk.key_eq {wA wB : List WasmSubType} {mapA mapB : List ℕ} {ga gb : ℕ × ℕ} {e f : ℕ}
    (ha : GroupOk reg wA mapA ga e) (hb : GroupOk reg wB mapB gb f)
    (hlen : ga.2 - ga.1 = gb.2 - gb.1)
    (h : ∀ q < ga.2 - ga.1, ∀ s t, wA[ga.1 + q]? = some s → wB[gb.1 + q]? = some t →
      SameShape s t ∧ ∀ (r : ℕ) x y, (references s)[r]? = some x → (references t)[r]? = some y →
        canonicalRef ga mapA x = canonicalRef gb mapB y) : reg.key e = reg.key f := by
  have htypes : (reg.key e).types = (reg.key f).types := by
    refine List.ext_getElem? fun q => ?_
    by_cases hq : q < ga.2 - ga.1
    · obtain ⟨s, s', hs, hs', hmuts⟩ := ha.key_getElem? hq
      obtain ⟨t, t', ht, ht', hmutt⟩ := hb.key_getElem? (hlen ▸ hq)
      obtain ⟨hshape, hrefs⟩ := h q hq s t hs ht
      have hm := mapM_eq_mapM (mapM_references hmuts) (mapM_references hmutt)
        (length_references_of_sameShape hshape) hrefs
      have hst : s' = t' := (traceMut_eq_iff hmuts hmutt).2
        ⟨hshape, by rw [mapM_references hmuts, mapM_references hmutt, hm]⟩
      rw [hs', ht', hst]
    · rw [List.getElem?_eq_none (by rw [ha.length_key]; omega),
        List.getElem?_eq_none (by rw [hb.length_key]; omega)]
  exact congrArg WasmRecGroup.mk htypes

/-- Types with the same index of the engine are equal. -/
theorem isoEq_of_index_eq (hinv : Inv reg roots zero) (hA : LiveCollection reg A cA)
    (hB : LiveCollection reg B cB) (a : ℕ) : ∀ {b x : ℕ}, cA.types[a]? = some x →
    cB.types[b]? = some x → IsoEq A B a b := by
  induction a using Nat.strong_induction_on with
  | _ a ih =>
    intro b x ha hb
    obtain ⟨ga, hga, e, hea, hla, hra⟩ := hA.exists_group (List.getElem?_eq_some_iff.1 ha).1
    obtain ⟨gb, hgb, f, hfb, hlb, hrb⟩ := hB.exists_group (List.getElem?_eq_some_iff.1 hb).1
    have hxa : (reg.indices e)[a - ga.1]? = some x := by
      rw [hea.getElem?_indices (by omega), Nat.add_sub_cancel' hla, ha]
    have hxb : (reg.indices f)[b - gb.1]? = some x := by
      rw [hfb.getElem?_indices (by omega), Nat.add_sub_cancel' hlb, hb]
    obtain rfl : e = f := hinv.owner_unique hea.mem hfb.mem (List.mem_of_getElem? hxa)
      (List.mem_of_getElem? hxb)
    have hpos : a - ga.1 = b - gb.1 := by
      have hlt : a - ga.1 < (reg.indices e).length := (List.getElem?_eq_some_iff.1 hxa).1
      exact (List.getElem?_inj hlt (hinv.indices_nodup e hea.mem)).1 (hxa.trans hxb.symm)
    have hlen : ga.2 - ga.1 = gb.2 - gb.1 := by
      rw [← hea.length_indices, hfb.length_indices]
    have hiso := IsoEq.mk (A := A) (B := B) ga gb (a - ga.1) hga hgb hlen (by omega)
      (fun q hq s t hs ht => (hea.refs_agree hfb hq hs ht).1) ?_ ?_
    · rwa [Nat.add_sub_cancel' hla, hpos, Nat.add_sub_cancel' hlb] at hiso
    · intro q hq s t hs ht r i j hi hj
      have href := (hea.refs_agree hfb hq hs ht).2 r _ _ hi hj
      obtain ⟨_, hi₁, hi'⟩ := hA.ref_cases hga hea hq hs (List.mem_of_getElem? hi)
      obtain rfl := CanonicalizedTypeIndex.module.inj hi₁
      obtain ⟨_, hj₁, hj'⟩ := hB.ref_cases hgb hfb (hlen ▸ hq) ht (List.mem_of_getElem? hj)
      obtain rfl := CanonicalizedTypeIndex.module.inj hj₁
      rcases hi' with hi' | ⟨hi', y, hy⟩ <;> rcases hj' with hj' | ⟨hj', z, hz⟩
      · rw [canonicalRef_inside hi', canonicalRef_inside hj'] at href
        simp only [Except.ok.injEq, CanonicalizedTypeIndex.recGroup.injEq] at href
        exact ⟨by simp only [hi', hj'], fun _ => href⟩
      · rw [canonicalRef_inside hi', canonicalRef_outside hj' hz] at href
        simp at href
      · rw [canonicalRef_outside hi' hy, canonicalRef_inside hj'] at href
        simp at href
      · exact ⟨by omega, fun _ => by omega⟩
    · intro q hq s t hs ht r i j hi hj hlt
      have href := (hea.refs_agree hfb hq hs ht).2 r _ _ hi hj
      obtain ⟨_, hi₁, hi'⟩ := hA.ref_cases hga hea hq hs (List.mem_of_getElem? hi)
      obtain rfl := CanonicalizedTypeIndex.module.inj hi₁
      obtain ⟨_, hj₁, hj'⟩ := hB.ref_cases hgb hfb (hlen ▸ hq) ht (List.mem_of_getElem? hj)
      obtain rfl := CanonicalizedTypeIndex.module.inj hj₁
      obtain ⟨-, y, hy⟩ := hi'.resolve_left (by omega)
      rw [canonicalRef_outside hlt hy] at href
      rcases hj' with hj' | ⟨hj', z, hz⟩
      · rw [canonicalRef_inside hj'] at href
        simp at href
      · rw [canonicalRef_outside hj' hz] at href
        simp only [Except.ok.injEq, CanonicalizedTypeIndex.shared.injEq] at href
        subst href
        exact ih i (by omega) hy hz

/-- Equal types have the same index of the engine. -/
theorem index_eq_of_isoEq (hinv : Inv reg roots zero) (hA : LiveCollection reg A cA)
    (hB : LiveCollection reg B cB) {a b : ℕ} (h : IsoEq A B a b) :
    ∀ {x y : ℕ}, cA.types[a]? = some x → cB.types[b]? = some y → x = y := by
  induction h with
  | mk ga gb p hga hgb hlen hp hshape hinside houtside ih =>
    intro x y hx hy
    obtain ⟨e, -, hea⟩ := forall₂_exists hA.ok.groups hga
    obtain ⟨f, -, hfb⟩ := forall₂_exists hB.ok.groups hgb
    have hkey : reg.key e = reg.key f := by
      refine hea.key_eq hfb hlen fun q hq s t hs ht =>
        ⟨hshape q hq s t hs ht, fun r x y hx hy => ?_⟩
      obtain ⟨i, rfl, hi⟩ := hA.ref_cases hga hea hq hs (List.mem_of_getElem? hx)
      obtain ⟨j, rfl, hj⟩ := hB.ref_cases hgb hfb (hlen ▸ hq) ht (List.mem_of_getElem? hy)
      obtain ⟨hiff, hrel⟩ := hinside q hq s t hs ht r i j hx hy
      rcases hi with hi | ⟨hi, y, hy'⟩ <;> rcases hj with hj | ⟨hj, z, hz⟩
      · rw [canonicalRef_inside hi, canonicalRef_inside hj, hrel hi]
      · omega
      · omega
      · rw [canonicalRef_outside hi hy', canonicalRef_outside hj hz,
          ih q hq s t hs ht r i j hx hy hi hy' hz]
    obtain rfl := hinv.key_inj e hea.mem f hfb.mem hkey
    have hxp := hea.getElem?_indices hp
    have hyp := hfb.getElem?_indices (hlen ▸ hp)
    rw [hx] at hxp
    rw [hy, hxp] at hyp
    exact Option.some_inj.1 hyp

end IsoEq

theorem EngineInv.liveCollection {s : EngineState} (h : EngineInv s [])
    {p : ModuleTypes × RuntimeTypeCollection} (hp : p ∈ s.collections) :
    LiveCollection s.reg p.1 p.2 := by
  obtain ⟨hwf, hok, hlen⟩ := h.collections p hp
  exact ⟨hwf, hok, hlen⟩

/-- Two collections that are alive give types the same index exactly where the types are
iso-recursively equal. -/
theorem index_eq_iff_isoEq {debug : Bool} {π : SlabPolicy} {s : EngineState}
    (h : EngineState.Reachable debug π s) {A B : ModuleTypes} {cA cB : RuntimeTypeCollection}
    (hA : (A, cA) ∈ s.collections) (hB : (B, cB) ∈ s.collections) {a b x y : ℕ}
    (hx : cA.types[a]? = some x) (hy : cB.types[b]? = some y) : x = y ↔ IsoEq A B a b := by
  have hinv := reachable_inv h
  constructor
  · rintro rfl
    exact isoEq_of_index_eq hinv.inv (hinv.liveCollection hA) (hinv.liveCollection hB) a hx hy
  · exact fun hiso =>
      index_eq_of_isoEq hinv.inv (hinv.liveCollection hA) (hinv.liveCollection hB) hiso hx hy

/-- Two modules with the same types, one registered after a third was dropped. -/
theorem index_eq_iff_isoEq_funcAndStruct : ∃ s cA cB,
    EngineState.new.run false .lowest [.registerModuleTypes funcAndStruct,
      .registerModuleTypes funcAndStruct, .dropCollection 1,
      .registerModuleTypes funcAndStruct] = .ok s
      ∧ s.collections = [(funcAndStruct, cA), (funcAndStruct, cB)]
      ∧ cA.types[1]? = some 1 ∧ cB.types[1]? = some 1
      ∧ IsoEq funcAndStruct funcAndStruct 1 1 := by
  obtain ⟨s, hs, hc⟩ : ∃ s, EngineState.new.run false .lowest
      [.registerModuleTypes funcAndStruct, .registerModuleTypes funcAndStruct, .dropCollection 1,
        .registerModuleTypes funcAndStruct] = .ok s
      ∧ s.collections = [(funcAndStruct, ⟨[0, 1], [0, 1]⟩), (funcAndStruct, ⟨[0, 1], [0, 1]⟩)] :=
    ⟨_, rfl, rfl⟩
  have hr : EngineState.Reachable false .lowest s :=
    EngineState.reachable_of_run .new (by simp [RegistryOp.WF, funcAndStruct_wf]) hs
  have hmem : (funcAndStruct, (⟨[0, 1], [0, 1]⟩ : RuntimeTypeCollection)) ∈ s.collections := by
    simp [hc]
  exact ⟨s, _, _, hs, hc, rfl, rfl, (index_eq_iff_isoEq hr hmem hmem rfl rfl).1 rfl⟩

end K23VM
