import K23VM.Proofs.HashConsing

/-!
# The types stored in the slab

The types of a new rec group are rewritten for run-time use before the slab has handed out their
indices: a reference to a member of the group is replaced by an index computed from the number of
types in the slab.  `Predicted` says when the slab hands out just these, and `storedRight_iff` that
nothing else can go wrong.
-/

namespace K23VM

open TypeRegistryInner

/-- The index a reference of a rec group should be replaced by, when the group starts at `start`, its
types get `ids`, and the types before it have the indices `map`. -/
def rightIndex (map ids : List ℕ) (start m : ℕ) : Option ℕ :=
  if m < start then map[m]? else ids[m - start]?

/-- A reference of a module, and a reference to the index of the engine that its type has. -/
def AtIndex (index : ℕ → Option ℕ) (r r' : CanonicalizedTypeIndex) : Prop :=
  ∃ m n, r = .module m ∧ index m = some n ∧ r' = .shared n

theorem atIndex_module {index : ℕ → Option ℕ} {m : ℕ} {r : CanonicalizedTypeIndex} :
    AtIndex index (.module m) r ↔ ∃ n, index m = some n ∧ r = .shared n := by
  constructor
  · rintro ⟨_, n, ⟨⟩, hn, rfl⟩
    exact ⟨n, hn, rfl⟩
  · rintro ⟨n, hn, rfl⟩
    exact ⟨m, n, rfl, hn, rfl⟩

/-- Each type of the group is stored at its index with every reference replaced by the index of the
type it refers to, and nothing else changed. -/
def StoredRight (types : Slab WasmSubType) (map ids : List ℕ) (start : ℕ)
    (tys : List WasmSubType) : Prop :=
  ∀ (i : ℕ) ty, tys[i]? = some ty → ∃ id ty', ids[i]? = some id
    ∧ Replaced (AtIndex (rightIndex map ids start)) ty ty' ∧ types.get id = some ty'

/-- The slab is about to hand out the index that is computed for each member the group refers to. -/
def Predicted (π : SlabPolicy) (types : Slab WasmSubType) (start : ℕ) (tys : List WasmSubType) :
    Prop :=
  ∀ ty ∈ tys, ∀ m, .module m ∈ references ty → start ≤ m →
    (Slab.nextIds π tys.length types.clock types.ids)[m - start]? = some (types.len + (m + start))

theorem predictIndex_inside {map : List ℕ} {start engineStart m n : ℕ} (hm : start ≤ m)
    (h : predictIndex map start engineStart m = .ok n) : n = engineStart + (m + start) := by
  unfold predictIndex at h
  rw [if_neg (by omega)] at h
  obtain ⟨k, hk, h⟩ := bind_eq_ok.1 h
  unfold addU32OrPanic at hk h
  split_ifs at hk h
  rw [← Except.ok.inj hk] at h
  exact (Except.ok.inj h).symm

theorem predictIndex_outside {map ids : List ℕ} {start engineStart m n : ℕ} (hm : m < start) :
    predictIndex map start engineStart m = .ok n ↔ rightIndex map ids start m = some n := by
  rw [predictIndex, rightIndex, if_pos hm, if_pos hm, unwrap_eq_ok]

theorem runtimeIndex_module {f : ℕ → Except Fault ℕ} {m : ℕ} {r : CanonicalizedTypeIndex} :
    runtimeIndex f (.module m) = .ok r ↔ ∃ n, f m = .ok n ∧ r = .shared n := by
  simp only [runtimeIndex]
  rw [bind_eq_ok]
  simp only [pure, Except.pure, Except.ok.injEq, eq_comm]

/-- One type is rewritten as it should be exactly where its references into the group are. -/
theorem runtimeUsage_right_iff {map ids : List ℕ} {start engineStart : ℕ} {ty ty' : WasmSubType}
    (h : canonicalizeForRuntimeUsage (predictIndex map start engineStart) ty = .ok ty')
    (hmod : ∀ r ∈ references ty, ∃ m, r = .module m) :
    Replaced (AtIndex (rightIndex map ids start)) ty ty' ↔
      ∀ m, .module m ∈ references ty → start ≤ m →
        ids[m - start]? = some (engineStart + (m + start)) := by
  have hpre := traceMut_eq_ok.1 h
  constructor
  · intro hr m hmem hle
    obtain ⟨q, hq⟩ := List.mem_iff_getElem?.1 hmem
    obtain ⟨x, hx, hfx⟩ := forall₂_getElem? hpre.related hq
    obtain ⟨y, hy, hfy⟩ := forall₂_getElem? hr.related hq
    obtain ⟨n, hn, rfl⟩ := runtimeIndex_module.1 hfx
    obtain ⟨n', hn', rfl⟩ := atIndex_module.1 hfy
    obtain rfl := CanonicalizedTypeIndex.shared.inj (Option.some_inj.1 (hx.symm.trans hy))
    rw [rightIndex, if_neg (by omega)] at hn'
    rw [hn', predictIndex_inside hle hn]
  · intro hids
    refine hpre.imp fun r hr r' hr' => ?_
    obtain ⟨m, rfl⟩ := hmod r hr
    obtain ⟨n, hn, rfl⟩ := runtimeIndex_module.1 hr'
    refine atIndex_module.2 ⟨n, ?_, rfl⟩
    by_cases hm : m < start
    · exact (predictIndex_outside hm).1 hn
    · rw [rightIndex, if_neg hm, hids m hr (by omega), predictIndex_inside (by omega) hn]

/-- The types of a new group are stored as they should be exactly where the slab hands out the
indices that were computed for it. -/
theorem storedRight_iff {π : SlabPolicy} {reg reg' : TypeRegistryInner} {map : List ℕ} {start : ℕ}
    {k : WasmRecGroup} {tys tys' : List WasmSubType} {ids : List ℕ}
    (htys : tys.mapM (canonicalizeForRuntimeUsage (predictIndex map start reg.types.len))
      = .ok tys')
    (hr : Registered π reg reg' k tys' ids) (hmod : ∀ ty ∈ tys, ∀ r ∈ references ty, ∃ m, r = .module m) :
    StoredRight reg'.types map ids start tys ↔ Predicted π reg.types start tys := by
  have hlen : tys'.length = tys.length := mapM_ok_length htys
  have hids : ids = Slab.nextIds π tys.length reg.types.clock reg.types.ids := by
    rw [hr.types.ids_eq, hlen]
  have hget : ∀ (i : ℕ) ty, tys[i]? = some ty → ∃ id ty', ids[i]? = some id
      ∧ canonicalizeForRuntimeUsage (predictIndex map start reg.types.len) ty = .ok ty'
      ∧ reg'.types.get id = some ty' := by
    intro i ty hi
    obtain ⟨ty', hi', hty⟩ := mapM_getElem? htys hi
    obtain ⟨id, hid, hst⟩ := forall₂_getElem? hr.types.new.flip hi'
    exact ⟨id, ty', hid, hty, hst⟩
  constructor
  · intro h ty hty m hm hle
    obtain ⟨i, hi⟩ := List.mem_iff_getElem?.1 hty
    obtain ⟨id, ty', hid, hpre, hst⟩ := hget i ty hi
    obtain ⟨id', ty'', hid', hright, hst'⟩ := h i ty hi
    obtain rfl := Option.some_inj.1 (hid.symm.trans hid')
    obtain rfl := Option.some_inj.1 (hst.symm.trans hst')
    rw [← hids]
    exact (runtimeUsage_right_iff hpre (hmod ty hty)).1 hright m hm hle
  · intro h i ty hi
    obtain ⟨id, ty', hid, hpre, hst⟩ := hget i ty hi
    have hty := List.mem_of_getElem? hi
    refine ⟨id, ty', hid, (runtimeUsage_right_iff hpre (hmod ty hty)).2 ?_, hst⟩
    rw [hids]
    exact h ty hty

/-! ## What is stored for an entry -/

/-- A reference in the key of an entry with the types `ids`, and what it stands for at run time. -/
inductive KeyIndex (ids : List ℕ) : CanonicalizedTypeIndex → CanonicalizedTypeIndex → Prop where
  | shared (i : ℕ) : KeyIndex ids (.shared i) (.shared i)
  | recGroup {j n : ℕ} (h : ids[j]? = some n) : KeyIndex ids (.recGroup j) (.shared n)

/-- The types of an entry are stored as its key says. -/
def EntryStored (reg : TypeRegistryInner) (e : ℕ) : Prop :=
  ∀ (i : ℕ) k, (reg.key e).types[i]? = some k → ∃ id ty, (reg.indices e)[i]? = some id
    ∧ Replaced (KeyIndex (reg.indices e)) k ty ∧ reg.types.get id = some ty

theorem entryStored_of_storedRight {debug : Bool} {reg : TypeRegistryInner} {map : List ℕ}
    {range : ℕ × ℕ} {tys : List WasmSubType} {e : ℕ}
    (hkey : hashConsingKey debug map range tys = .ok (reg.key e))
    (hmod : ∀ ty ∈ tys, ∀ r ∈ references ty, ∃ m, r = .module m)
    (h : StoredRight reg.types map (reg.indices e) range.1 tys) : EntryStored reg e := by
  intro i k hi
  have hkeys := mapM_eq_ok_iff.1 (hashConsingKey_ok.1 (hashConsingKey_mono (fun _ _ h => h) hkey))
  obtain ⟨ty, hty, hk⟩ := forall₂_getElem? hkeys.flip hi
  obtain ⟨id, ty', hid, hright, hget⟩ := h i ty hty
  refine ⟨id, ty', hid, (traceMut_eq_ok.1 hk).factor hright fun r hr r₁ r₂ hr₁ hr₂ => ?_, hget⟩
  obtain ⟨m, rfl⟩ := hmod ty (List.mem_of_getElem? hty) r hr
  obtain ⟨n, hn, rfl⟩ := atIndex_module.1 hr₂
  by_cases hm : range.1 ≤ m
  · rw [rightIndex, if_neg (by omega)] at hn
    obtain rfl := Except.ok.inj ((canonicalRef_inside hm).symm.trans hr₁)
    exact .recGroup hn
  · rw [rightIndex, if_pos (by omega)] at hn
    have := canonicalRef_outside (g := range) (Nat.lt_of_not_le hm) hn
    obtain rfl := Except.ok.inj (this.symm.trans hr₁)
    exact .shared n

theorem EntryStored.extends {reg reg' : TypeRegistryInner} {e : ℕ} {roots zero : List ℕ}
    (h : EntryStored reg e) (hx : Extends reg reg') (hinv : Inv reg roots zero)
    (he : e ∈ reg.hashConsingMap) : EntryStored reg' e := by
  intro i k hi
  have hlt := hinv.lt e he
  rw [hx.key e hlt] at hi
  obtain ⟨id, ty, hid, hty, hget⟩ := h i k hi
  refine ⟨id, ty, ?_, ?_, ?_⟩
  · rw [hx.indices e hlt, hid]
  · rw [hx.indices e hlt]
    exact hty
  · rw [hx.types id (Slab.mem_ids_iff.2 (by simp [hget])), hget]

theorem EntryStored.shrinks {reg reg' : TypeRegistryInner} {e : ℕ} {roots zero : List ℕ}
    {l : List Removal} (h : EntryStored reg e) (hs : Shrinks reg reg' l)
    (hinv : Inv reg' roots zero) (he : e ∈ reg'.hashConsingMap) : EntryStored reg' e := by
  intro i k hi
  rw [hs.key] at hi
  obtain ⟨id, ty, hid, hty, hget⟩ := h i k hi
  have hown : reg'.typeToRecGroup id = some e :=
    (hinv.owner id e).2 ⟨he, by rw [hs.indices]; exact List.mem_of_getElem? hid⟩
  refine ⟨id, ty, ?_, ?_, ?_⟩
  · rw [hs.indices, hid]
  · rw [hs.indices]
    exact hty
  · rw [hs.types id ((hinv.slab id).2 (by simp [hown])), hget]

/-! ## Groups of a module -/

/-- While the types of the module `mt` are registered from the state `s`, the group `range` with the
types `tys` takes the registry from `reg` to `reg'` and gets the new entry `e`. -/
structure NewGroup (debug : Bool) (π : SlabPolicy) (s : EngineState) (mt : ModuleTypes)
    (range : ℕ × ℕ) (tys : List WasmSubType) (map : List ℕ) (reg reg' : TypeRegistryInner)
    (e : ℕ) : Prop where
  wf : mt.WF
  groups : ∃ done rest entries, mt.recGroups = done ++ range :: rest
    ∧ registerGroups debug π mt.wasmTypes s.reg [] [] done = .ok (reg, entries, map)
  types : groupTypes mt.wasmTypes range = .ok tys
  register : reg.registerRecGroup debug π map range tys = .ok (reg', e)
  new : e ∉ reg.hashConsingMap

theorem groupTypes_refs {mt : ModuleTypes} (hwf : mt.WF) {range : ℕ × ℕ}
    (hr : range ∈ mt.recGroups) {tys : List WasmSubType}
    (htys : groupTypes mt.wasmTypes range = .ok tys) :
    ∀ ty ∈ tys, ∀ r ∈ references ty, ∃ m, r = .module m := by
  intro ty hty r hr'
  obtain ⟨i, hi, hget⟩ := exists_of_mem_mapM htys hty
  rw [List.mem_range'_1] at hi
  obtain ⟨m, hm, -⟩ := hwf.refs range hr i (by omega) (by omega) ty (unwrap_eq_ok.1 hget) r hr'
  exact ⟨m, hm⟩

theorem registerGroups_append {debug : Bool} {π : SlabPolicy} {wasmTypes : List WasmSubType} :
    ∀ (done : List (ℕ × ℕ)) {rest : List (ℕ × ℕ)} {reg : TypeRegistryInner} {entries map : List ℕ},
    registerGroups debug π wasmTypes reg entries map (done ++ rest)
      = (registerGroups debug π wasmTypes reg entries map done).bind fun r =>
        registerGroups debug π wasmTypes r.1 r.2.1 r.2.2 rest
  | [], _, _, _, _ => rfl
  | range :: done, rest, reg, entries, map => by
    simp only [List.cons_append, registerGroups, registerGroups_append done, bind]
    rcases groupTypes wasmTypes range with _ | tys
    · rfl
    · simp only [Except.bind]
      rcases reg.registerRecGroup debug π map range tys with _ | ⟨reg₁, e⟩
      · rfl
      · simp only
        rcases pushIndices range.1 map (range.2 - range.1) (reg₁.indices e) with _ | map₁ <;> rfl

def AllStored (reg : TypeRegistryInner) : Prop := ∀ e ∈ reg.hashConsingMap, EntryStored reg e

theorem registerRecGroup_stored {debug : Bool} {π : SlabPolicy} {reg reg' : TypeRegistryInner}
    {map : List ℕ} {range : ℕ × ℕ} {tys : List WasmSubType} {e : ℕ} {roots zero : List ℕ}
    (h : reg.registerRecGroup debug π map range tys = .ok (reg', e)) (hinv : Inv reg roots zero)
    (hmod : ∀ ty ∈ tys, ∀ r ∈ references ty, ∃ m, r = .module m) (hst : AllStored reg)
    (hp : e ∉ reg.hashConsingMap → Predicted π reg.types range.1 tys) : AllStored reg' := by
  obtain ⟨-, hext, -, hkey⟩ := registerRecGroup_spec h hinv
  obtain ⟨k, -, ⟨-, rfl⟩ | ⟨-, rfl, tys', ids, htys, hr⟩⟩ := registerRecGroup_cases h
  · exact fun f hf => (hst f hf).extends hext hinv hf
  · intro f hf
    have hids : reg'.indices reg.nextEntry = ids := by rw [hr.indices, if_pos rfl]
    rw [hr.hashConsingMap] at hf
    rcases List.mem_cons.1 hf with rfl | hf
    · refine entryStored_of_storedRight hkey hmod ?_
      rw [hids]
      exact (storedRight_iff htys hr hmod).2 (hp fun hm => (hinv.lt _ hm).false)
    · exact (hst f hf).extends hext hinv hf

/-- Registering the rest of a module keeps what is stored right, where each new group gets the
indices that are computed for it. -/
theorem registerGroups_stored {debug : Bool} {π : SlabPolicy} {s : EngineState} {mt : ModuleTypes}
    {roots zero : List ℕ} (hwf : mt.WF)
    (hp : ∀ range tys map reg reg' e, NewGroup debug π s mt range tys map reg reg' e →
      Predicted π reg.types range.1 tys) :
    ∀ {rest done : List (ℕ × ℕ)} {reg reg' : TypeRegistryInner} {entries map entries' map' : List ℕ},
    mt.recGroups = done ++ rest →
    registerGroups debug π mt.wasmTypes s.reg [] [] done = .ok (reg, entries, map) →
    registerGroups debug π mt.wasmTypes reg entries map rest = .ok (reg', entries', map') →
    Inv reg (entries ++ roots) zero → AllStored reg → AllStored reg'
  | [], _, reg, reg', _, _, _, _, _, _, h, _, hst => by
    obtain ⟨rfl, -⟩ := Prod.mk.inj (Except.ok.inj h)
    exact hst
  | range :: rest, done, reg, reg', entries, map, entries', map', hmt, hdone, h, hinv, hst => by
    obtain ⟨tys, htys, h⟩ := bind_eq_ok.1 h
    obtain ⟨⟨reg₁, e⟩, hreg, h⟩ := bind_eq_ok.1 h
    obtain ⟨map₁, hpush, h⟩ := bind_eq_ok.1 h
    have hrange : range ∈ mt.recGroups := by simp [hmt]
    obtain ⟨hinv₁, -⟩ := registerRecGroup_spec hreg hinv
    have hst₁ := registerRecGroup_stored hreg hinv (groupTypes_refs hwf hrange htys) hst
      fun hnew => hp range tys map reg reg₁ e
        ⟨hwf, ⟨done, rest, entries, hmt, hdone⟩, htys, hreg, hnew⟩
    have hdone₁ : registerGroups debug π mt.wasmTypes s.reg [] [] (done ++ [range])
        = .ok (reg₁, entries ++ [e], map₁) := by
      rw [registerGroups_append, hdone]
      simp only [Except.bind, registerGroups, htys, hreg, hpush, bind, pure, Except.pure]
    have hinv₂ : Inv reg₁ (entries ++ [e] ++ roots) zero :=
      hinv₁.roots_perm (by simpa using List.perm_middle.symm)
    exact registerGroups_stored hwf hp (by rw [hmt, List.append_assoc]; rfl) hdone₁ h hinv₂ hst₁

/-! ## Runs -/

/-- Every group that the operation registers anew gets the indices that are computed for it. -/
def RegistryOp.Predicted (debug : Bool) (π : SlabPolicy) (s : EngineState) (op : RegistryOp) :
    Prop :=
  ∀ mt, op = .registerModuleTypes mt → ∀ range tys map reg reg' e,
    NewGroup debug π s mt range tys map reg reg' e → K23VM.Predicted π reg.types range.1 tys

/-- The states that runs reach in which every new group gets the indices that are computed for
it. -/
inductive PredictedReachable (debug : Bool) (π : SlabPolicy) : EngineState → Prop where
  | new : PredictedReachable debug π .new
  | step {s s' : EngineState} {op : RegistryOp} (hs : PredictedReachable debug π s) (hop : op.WF)
    (hp : op.Predicted debug π s) (h : s.step debug π op = .ok s') : PredictedReachable debug π s'

/-- The types of the slab are those of the modules with each reference replaced by the index of what
it refers to. -/
structure TypesRight (s : EngineState) : Prop where
  entries : ∀ e ∈ s.reg.hashConsingMap, EntryStored s.reg e
  collections : ∀ p ∈ s.collections, ∀ (i : ℕ) t, p.1.wasmTypes[i]? = some t → ∃ id t',
    p.2.types[i]? = some id ∧ Replaced (AtIndex (p.2.types[·]?)) t t'
    ∧ s.reg.types.get id = some t'
  live : ∀ id t, s.reg.types.get id = some t → ∀ r ∈ references t,
    ∃ j, r = .shared j ∧ j ∈ s.reg.types.ids

section Runs

variable {debug : Bool} {π : SlabPolicy} {s s' : EngineState}

theorem PredictedReachable.reachable (h : PredictedReachable debug π s) :
    EngineState.Reachable debug π s := by
  induction h with
  | new => exact .new
  | step _ hop _ hs ih => exact .step ih hop hs

theorem step_stored (hinv : EngineInv s []) (hst : AllStored s.reg) {op : RegistryOp} (hop : op.WF)
    (hp : op.Predicted debug π s) (h : s.step debug π op = .ok s') : AllStored s'.reg := by
  by_cases hreg : ∃ mt, op = .registerModuleTypes mt
  · obtain ⟨mt, rfl⟩ := hreg
    obtain ⟨⟨reg', recGroups, types⟩, hrun, h⟩ := bind_eq_ok.1 h
    obtain rfl := Except.ok.inj h
    have hdone : registerGroups debug π mt.wasmTypes s.reg [] [] [] = .ok (s.reg, [], []) := rfl
    exact registerGroups_stored hop (hp mt rfl) rfl hdone hrun hinv.inv hst
  · obtain ⟨s'', hs'', hinv', hcases⟩ := step_ok debug π hinv fun mt hmt => hreg ⟨mt, hmt⟩
    obtain rfl := Except.ok.inj (hs''.symm.trans h)
    intro e he
    rcases hcases with ⟨hx, hmap⟩ | ⟨l, hs⟩
    · rw [hmap] at he
      exact (hst e he).extends hx hinv.inv he
    · exact (hst e (hs.mem_map e he)).shrinks hs hinv'.inv he

theorem reachable_stored (h : PredictedReachable debug π s) : AllStored s.reg := by
  induction h with
  | new => exact fun e he => absurd he List.not_mem_nil
  | step hs hop hp hstep ih => exact step_stored (reachable_inv hs.reachable) ih hop hp hstep

/-- The types of a live collection are stored with each reference replaced by the index that the
collection gives it. -/
theorem LiveCollection.stored {reg : TypeRegistryInner} {mt : ModuleTypes}
    {c : RuntimeTypeCollection} (h : LiveCollection reg mt c) (hst : AllStored reg) {i : ℕ}
    {t : WasmSubType} (ht : mt.wasmTypes[i]? = some t) : ∃ id t', c.types[i]? = some id
      ∧ Replaced (AtIndex (c.types[·]?)) t t' ∧ reg.types.get id = some t' := by
  have hi : i < c.types.length := by
    rw [h.length]
    exact (List.getElem?_eq_some_iff.1 ht).1
  obtain ⟨g, hg, e, hge, hle, hlt⟩ := h.exists_group hi
  obtain ⟨p, rfl⟩ := Nat.exists_eq_add_of_le hle
  obtain ⟨t₁, k, ht₁, hk, hcanon⟩ := hge.key_getElem? (q := p) (by omega)
  obtain rfl := Option.some_inj.1 (ht.symm.trans ht₁)
  obtain ⟨id, t', hid, hmut, hget⟩ := hst e hge.mem p k hk
  rw [hge.getElem?_indices (by omega)] at hid
  refine ⟨id, t', hid, (traceMut_eq_ok.1 hcanon).comp hmut fun r hr r₁ r₂ hr₁ hr₂ => ?_, hget⟩
  obtain ⟨m, rfl, hm⟩ := h.wf.refs g hg (g.1 + p) (by omega) (by omega) t ht r hr
  by_cases hin : g.1 ≤ m
  · obtain rfl := Except.ok.inj ((canonicalRef_inside hin).symm.trans hr₁)
    obtain _ | hn := hr₂
    rw [hge.getElem?_indices (by omega), Nat.add_sub_cancel' hin] at hn
    exact atIndex_module.2 ⟨_, hn, rfl⟩
  · have hle' := hge.le
    have hx : c.types[m]? = some c.types[m] := List.getElem?_eq_getElem (by omega)
    obtain rfl := Except.ok.inj ((canonicalRef_outside (Nat.lt_of_not_le hin) hx).symm.trans hr₁)
    cases hr₂
    exact atIndex_module.2 ⟨_, hx, rfl⟩

theorem Inv.stored_live {reg : TypeRegistryInner} {roots zero : List ℕ} (hinv : Inv reg roots zero)
    (hst : AllStored reg) {id : ℕ} {t : WasmSubType} (hget : reg.types.get id = some t)
    {r : CanonicalizedTypeIndex} (hr : r ∈ references t) : ∃ j, r = .shared j ∧ j ∈ reg.types.ids := by
  obtain ⟨e, he⟩ := Option.isSome_iff_exists.1
    ((hinv.slab id).1 (Slab.mem_ids_iff.2 (by simp [hget])))
  obtain ⟨hmem, hidx⟩ := (hinv.owner id e).1 he
  obtain ⟨p, hp⟩ := List.mem_iff_getElem?.1 hidx
  have hlt : p < (reg.key e).types.length := by
    rw [← hinv.length e hmem]
    exact (List.getElem?_eq_some_iff.1 hp).1
  have hk := List.getElem?_eq_getElem hlt
  obtain ⟨id', t', hid', hmut, hget'⟩ := hst e hmem p _ hk
  obtain rfl := Option.some_inj.1 (hp.symm.trans hid')
  obtain rfl := Option.some_inj.1 (hget.symm.trans hget')
  obtain ⟨r₀, hr₀, hmap⟩ := forall₂_exists_left hmut.related hr
  cases hmap with
  | shared j =>
    refine ⟨j, rfl, (hinv.slab j).2 ?_⟩
    obtain ⟨f, hf, -⟩ := hinv.ref_lt e hmem j (List.mem_flatMap.2 ⟨_, List.getElem_mem hlt, hr₀⟩)
    simp [hf]
  | @recGroup j n hn =>
    refine ⟨n, rfl, (hinv.slab n).2 ?_⟩
    simp [(hinv.owner n e).2 ⟨hmem, List.mem_of_getElem? hn⟩]

/-- In every reachable state a new group is stored right exactly where it gets the indices that are
computed for it; in runs where every new group does, every type of the slab is right. -/
theorem stored_right_iff_predicted (h : EngineState.Reachable debug π s) :
    (∀ mt range tys map reg reg' e, NewGroup debug π s mt range tys map reg reg' e →
      (StoredRight reg'.types map (reg'.indices e) range.1 tys ↔ Predicted π reg.types range.1 tys))
    ∧ (PredictedReachable debug π s → TypesRight s) := by
  have hinv := reachable_inv h
  refine ⟨fun mt range tys map reg reg' e hn => ?_, fun hp => ?_⟩
  · obtain ⟨done, rest, entries, hmt, hdone⟩ := hn.groups
    have hmod := groupTypes_refs hn.wf (by simp [hmt]) hn.types
    obtain ⟨k, -, ⟨hget, -⟩ | ⟨-, rfl, tys', ids, htys, hr⟩⟩ := registerRecGroup_cases hn.register
    · exact absurd (List.mem_of_find?_eq_some hget) hn.new
    · rw [hr.indices, if_pos rfl]
      exact storedRight_iff htys hr hmod
  · have hst := reachable_stored hp
    refine ⟨hst, fun p hmem i t ht => ?_, fun id t ht r hr => Inv.stored_live hinv.inv hst ht hr⟩
    exact (hinv.liveCollection hmem).stored hst ht

end Runs

/-- A struct type with a field that refers to the type `m`. -/
def structOf (m : ℕ) : WasmSubType :=
  ⟨true, none, ⟨.struct ⟨[⟨false, .val (.ref ⟨true, ⟨false, .concreteStruct (.module m)⟩⟩)⟩]⟩,
    false⟩⟩

/-- A struct type that refers to itself. -/
def selfStruct : ModuleTypes := ⟨[(0, 1)], [structOf 0]⟩

/-- The same behind another type. -/
def funcThenSelfStruct : ModuleTypes :=
  ⟨[(0, 1), (1, 2)], [⟨true, none, ⟨.func ⟨[], []⟩, false⟩⟩, structOf 1]⟩

theorem selfStruct_wf : selfStruct.WF := by
  refine ⟨by simp [Consecutive, selfStruct], ?_⟩
  intro g hg i hi hi' t ht r hr
  obtain rfl := List.mem_singleton.1 hg
  obtain rfl : i = 0 := by simp only at hi'; omega
  obtain rfl := Option.some_inj.1 ht
  obtain rfl := List.mem_singleton.1 hr
  exact ⟨0, rfl, by norm_num⟩

theorem funcThenSelfStruct_wf : funcThenSelfStruct.WF := by
  refine ⟨by simp [Consecutive, funcThenSelfStruct], ?_⟩
  intro g hg i hi hi' t ht r hr
  simp only [funcThenSelfStruct, List.mem_cons, List.not_mem_nil, or_false] at hg
  rcases hg with rfl | rfl
  · obtain rfl : i = 0 := by simp only at hi'; omega
    obtain rfl := Option.some_inj.1 ht
    cases hr
  · obtain rfl : i = 1 := by simp only at hi hi'; omega
    obtain rfl := Option.some_inj.1 ht
    obtain rfl := List.mem_singleton.1 hr
    exact ⟨1, rfl, by norm_num⟩

theorem predicted_selfStruct {debug : Bool} {range : ℕ × ℕ} {tys : List WasmSubType} {map : List ℕ}
    {reg reg' : TypeRegistryInner} {e : ℕ}
    (h : NewGroup debug .lowest .new selfStruct range tys map reg reg' e) :
    Predicted .lowest reg.types range.1 tys := by
  obtain ⟨done, rest, entries, hmt, hdone⟩ := h.groups
  rcases done with _ | ⟨g, done⟩
  · obtain ⟨rfl, -⟩ := List.cons.inj hmt
    obtain ⟨rfl, -⟩ := Prod.mk.inj (Except.ok.inj hdone)
    obtain rfl := Except.ok.inj h.types
    intro ty hty m hm _
    obtain rfl := List.mem_singleton.1 hty
    obtain rfl := CanonicalizedTypeIndex.module.inj (List.mem_singleton.1 hm)
    rfl
  · have := congrArg List.length hmt
    simp [selfStruct] at this

theorem stored_right_selfStruct : ∃ s, EngineState.new.run false .lowest
      [.registerModuleTypes selfStruct] = .ok s ∧ TypesRight s
      ∧ ∃ tys map reg reg' e, NewGroup false .lowest .new selfStruct (0, 1) tys map reg reg' e
        ∧ StoredRight reg'.types map (reg'.indices e) 0 tys := by
  obtain ⟨s, hs⟩ : ∃ s, EngineState.new.step false .lowest (.registerModuleTypes selfStruct)
      = .ok s := ⟨_, rfl⟩
  have hp : PredictedReachable false .lowest s := by
    have hwf : (RegistryOp.registerModuleTypes selfStruct).WF := selfStruct_wf
    refine .step .new hwf ?_ hs
    rintro mt ⟨⟩ range tys map reg reg' e hn
    exact predicted_selfStruct hn
  have hn : NewGroup false .lowest .new selfStruct (0, 1) [structOf 0] [] .new _ 0 :=
    ⟨selfStruct_wf, ⟨[], [], [], rfl, rfl⟩, rfl, rfl, List.not_mem_nil⟩
  refine ⟨s, by rw [EngineState.run, hs]; rfl, (stored_right_iff_predicted hp.reachable).2 hp,
    _, _, _, _, _, hn, ?_⟩
  exact ((stored_right_iff_predicted .new).1 _ _ _ _ _ _ _ hn).2 (predicted_selfStruct hn)

/-- The struct type behind another type is stored with a reference to an index that is not in the
slab. -/
theorem stored_wrong_funcThenSelfStruct : ∃ tys map reg reg' e,
    NewGroup false .lowest .new funcThenSelfStruct (1, 2) tys map reg reg' e
      ∧ ¬ StoredRight reg'.types map (reg'.indices e) 1 tys
      ∧ ∃ t, reg'.types.get 1 = some t ∧ .shared 3 ∈ references t ∧ 3 ∉ reg'.types.ids := by
  refine ⟨[structOf 1], [0], _, _, 1, ⟨funcThenSelfStruct_wf, ⟨[(0, 1)], [], [0], rfl, rfl⟩, rfl,
    rfl, by decide⟩, ?_, _, rfl, by decide, by decide⟩
  intro h
  obtain ⟨id, ty, hid, hty, hget⟩ := h 0 (structOf 1) rfl
  obtain rfl := Option.some_inj.1 hid
  obtain rfl : ty = mapReferences (fun _ => .shared 3) (structOf 1) :=
    Option.some_inj.1 (hget.symm.trans rfl)
  obtain ⟨n, hn, href⟩ := atIndex_module.1 (List.forall₂_cons.1 hty.related).1
  obtain rfl := CanonicalizedTypeIndex.shared.inj href
  exact absurd hn (by decide)

end K23VM
